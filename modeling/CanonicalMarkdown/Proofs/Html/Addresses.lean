import CanonicalMarkdown.Proofs.Delivery
import CanonicalMarkdown.Proofs.Html.Reading
import CanonicalMarkdown.Unicode.WhiteSpace
import Mathlib.Data.List.Basic

namespace CanonicalMarkdown.Html

open Text

section Reader

def hexValue? (byte : UInt8) : Option UInt8 :=
  if 0x30 ≤ byte ∧ byte ≤ 0x39 then some (byte - 0x30)
  else if 0x41 ≤ byte ∧ byte ≤ 0x46 then some (byte - 0x41 + 10)
  else if 0x61 ≤ byte ∧ byte ≤ 0x66 then some (byte - 0x61 + 10)
  else none

def hexPair? (high low : UInt8) : Option UInt8 :=
  (hexValue? high).bind fun first => (hexValue? low).map fun second => 16 * first + second

def percentSign : UInt8 := 0x25

/-- The bytes that an address stands for. A percent sign without two digits behind it stands for
    itself. -/
def percentDecode : List UInt8 → List UInt8
  | byte :: high :: low :: rest =>
    match if byte = percentSign then hexPair? high low else none with
    | some value => value :: percentDecode rest
    | none => byte :: percentDecode (high :: low :: rest)
  | short => short

/-- The address that a reader finds in the attribute value that is written for one. -/
def writtenAddress (address : String) : String :=
  String.ofList (unescape (escapeAddress address).toList)

end Reader

section Characters

theorem isAddressChar_hexDigit : ∀ value < 16, isAddressChar (hexDigit value) = true := by decide

theorem isAddressChar_of_mem_percentByte {byte : UInt8} {c : Char} (member : c ∈ percentByte byte) :
    isAddressChar c = true := by
  have small := byte.toNat_lt
  simp only [percentByte, List.mem_cons, List.not_mem_nil, or_false] at member
  rcases member with rfl | rfl | rfl
  · decide
  · exact isAddressChar_hexDigit _ (by omega)
  · exact isAddressChar_hexDigit _ (by omega)

theorem isAddressChar_of_mem_percentChar {written c : Char} (member : written ∈ percentChar c) :
    isAddressChar written = true := by
  unfold percentChar at member
  split at member
  · rename_i plain
    rw [List.mem_singleton.mp member]
    exact plain
  · obtain ⟨byte, -, among⟩ := List.mem_flatMap.mp member
    exact isAddressChar_of_mem_percentByte among

theorem isAddressChar_of_mem_percentEncode {address : String} {c : Char}
    (member : c ∈ (percentEncode address).toList) : isAddressChar c = true := by
  rw [percentEncode, String.toList_ofList, List.mem_flatMap] at member
  obtain ⟨_, -, among⟩ := member
  exact isAddressChar_of_mem_percentChar among

theorem escapeChar_of_isAddressChar {c : Char} (plain : isAddressChar c = true) (other : c ≠ '&') :
    escapeChar c = [c] := by
  fun_cases escapeChar c with
  | case1 => contradiction
  | case2 | case3 | case4 => exact absurd plain (by decide)
  | case5 => rfl

theorem isAddressChar_of_mem_escapeChar {written c : Char} (plain : isAddressChar c = true)
    (member : written ∈ escapeChar c) : isAddressChar written = true := by
  by_cases ampersand : c = '&'
  · subst ampersand
    have all : (escapeChar '&').all isAddressChar = true := by decide
    exact List.all_eq_true.mp all written member
  · rw [escapeChar_of_isAddressChar plain ampersand] at member
    rwa [List.mem_singleton.mp member]

theorem isAddressChar_of_mem_escapeAddress {address : String} {c : Char}
    (member : c ∈ (escapeAddress address).toList) : isAddressChar c = true := by
  rw [escapeAddress, toList_escape, List.mem_flatMap] at member
  obtain ⟨_, among, written⟩ := member
  exact isAddressChar_of_mem_escapeChar (isAddressChar_of_mem_percentEncode among) written

theorem prefix_behind_ampersand {text back : List Char}
    (plain : ∀ c ∈ text, isAddressChar c = true)
    (within : '&' :: back <:+ text.flatMap escapeChar) : "amp;".toList <+: back := by
  induction text with
  | nil => simp at within
  | cons c rest ih =>
    obtain ⟨first, others⟩ := List.forall_mem_cons.mp plain
    rw [List.flatMap_cons] at within
    by_cases ampersand : c = '&'
    · subst ampersand
      have here : '&' :: back <:+
          '&' :: 'a' :: 'm' :: 'p' :: ';' :: rest.flatMap escapeChar := within
      simp only [List.suffix_cons_iff, List.cons.injEq, Char.reduceEq, true_and, false_and,
        false_or] at here
      rcases here with rfl | behind
      · exact List.prefix_append _ _
      · exact ih others behind
    · rw [escapeChar_of_isAddressChar first ampersand, List.singleton_append,
        List.suffix_cons_iff, List.cons.injEq] at within
      rcases within with ⟨same, -⟩ | behind
      · exact absurd same.symm ampersand
      · exact ih others behind

theorem toNat_lt_of_isAddressChar {c : Char} (plain : isAddressChar c = true) : c.toNat < 128 := by
  rw [isAddressChar, Bool.or_eq_true, decide_eq_true_eq] at plain
  rcases plain with letter | sign
  · have below {last : Char} (upTo : c.val ≤ last.val) (ascii : last.toNat < 128) :
        c.toNat < 128 := Nat.lt_of_le_of_lt (UInt32.le_iff_toNat_le.mp upTo) ascii
    rcases Bool.or_eq_true_iff.mp letter with letter | digit
    · rcases Bool.or_eq_true_iff.mp letter with upper | lower
      · exact below (of_decide_eq_true upper).2 (by decide)
      · exact below (of_decide_eq_true (Bool.and_eq_true_iff.mp lower).2) (by decide)
    · exact below (of_decide_eq_true (Bool.and_eq_true_iff.mp digit).2) (by decide)
  · have all := @List.all_eq_true Char fun sign => decide (sign.toNat < 128)
    exact of_decide_eq_true (all.mp (by decide) c sign)

theorem harmless_of_isAddressChar {c : Char} (plain : isAddressChar c = true) :
    c.toNat < 128 ∧ c ∉ ['"', '<', '>'] ∧ Unicode.isWhiteSpace c = false ∧
      Unicode.isControl c = false := by
  have small := toNat_lt_of_isAddressChar plain
  have all : ∀ code < 128, isAddressChar (Char.ofNat code) = true →
      Char.ofNat code ∉ ['"', '<', '>'] ∧ Unicode.isWhiteSpace (Char.ofNat code) = false ∧
        Unicode.isControl (Char.ofNat code) = false := by decide
  have here := all c.toNat small
  rw [Char.ofNat_toNat] at here
  exact ⟨small, here plain⟩

theorem percentEncode_of_isAddressChar {address : String}
    (plain : ∀ c ∈ address.toList, isAddressChar c = true) : percentEncode address = address := by
  have chars : ∀ text : List Char, (∀ c ∈ text, isAddressChar c = true) →
      text.flatMap percentChar = text := by
    intro text plain
    induction text with
    | nil => rfl
    | cons c rest ih =>
      obtain ⟨first, others⟩ := List.forall_mem_cons.mp plain
      rw [List.flatMap_cons, ih others, percentChar, if_pos first]
      rfl
  rw [percentEncode, chars _ plain, String.ofList_toList]

theorem writtenAddress_eq (address : String) : writtenAddress address = percentEncode address := by
  rw [writtenAddress, escapeAddress, toList_escape, unescape_flatMap, String.ofList_toList]

end Characters

section Bytes

def isAddressByte (byte : UInt8) : Bool :=
  byte.toNat < 128 && isAddressChar (Char.ofNat byte.toNat)

/-- How a byte of an address is written. -/
def percentWritten (byte : UInt8) : List UInt8 :=
  if isAddressByte byte then [byte] else bytes (percentByte byte)

theorem utf8EncodeChar_of_ascii {c : Char} (small : c.toNat < 128) :
    String.utf8EncodeChar c = [UInt8.ofNat c.toNat] := by
  have below : c.val.toNat ≤ 127 := Nat.le_of_lt_succ small
  simp only [String.utf8EncodeChar, if_pos below]
  rfl

theorem isAddressByte_ofNat {c : Char} (small : c.toNat < 128) :
    isAddressByte (UInt8.ofNat c.toNat) = isAddressChar c := by
  have same : (UInt8.ofNat c.toNat).toNat = c.toNat := by
    rw [UInt8.toNat_ofNat']
    exact Nat.mod_eq_of_lt (Nat.lt_trans small (by decide))
  rw [isAddressByte, same, Char.ofNat_toNat, decide_eq_true small, Bool.true_and]

theorem large_of_mem_utf8EncodeChar {c : Char} (large : 128 ≤ c.toNat) {byte : UInt8}
    (member : byte ∈ String.utf8EncodeChar c) : 128 ≤ byte.toNat := by
  have above : ¬ c.val.toNat ≤ 127 := Nat.not_le.mpr large
  simp only [String.utf8EncodeChar, if_neg above] at member
  split at member
  · simp only [List.mem_cons, List.not_mem_nil, or_false] at member
    rcases member with rfl | rfl <;> simp only [UInt8.toNat_ofNat'] <;> omega
  · split at member
    · simp only [List.mem_cons, List.not_mem_nil, or_false] at member
      rcases member with rfl | rfl | rfl <;> simp only [UInt8.toNat_ofNat'] <;> omega
    · simp only [List.mem_cons, List.not_mem_nil, or_false] at member
      rcases member with rfl | rfl | rfl | rfl <;> simp only [UInt8.toNat_ofNat'] <;> omega

theorem isAddressByte_of_large {byte : UInt8} (large : 128 ≤ byte.toNat) :
    isAddressByte byte = false := by
  rw [isAddressByte, decide_eq_false (Nat.not_lt.mpr large), Bool.false_and]

theorem bytes_percentChar (c : Char) :
    bytes (percentChar c) = (String.utf8EncodeChar c).flatMap percentWritten := by
  have escaped (each : List UInt8) (special : ∀ byte ∈ each, isAddressByte byte = false) :
      bytes (each.flatMap percentByte) = each.flatMap percentWritten := by
    rw [bytes, List.flatMap_assoc]
    refine List.flatMap_congr fun byte member => ?_
    rw [percentWritten, special byte member]
    rfl
  by_cases small : c.toNat < 128
  · have byte := isAddressByte_ofNat small
    unfold percentChar
    split
    · rename_i plain
      rw [plain] at byte
      rw [bytes, List.flatMap_singleton, utf8EncodeChar_of_ascii small, List.flatMap_singleton,
        percentWritten, if_pos byte]
    · rename_i special
      rw [Bool.eq_false_iff.mpr special] at byte
      rw [utf8EncodeChar_of_ascii small]
      exact escaped _ (List.forall_mem_singleton.mpr byte)
  · have large := Nat.le_of_not_lt small
    have special : ¬ isAddressChar c = true :=
      fun plain => small (toNat_lt_of_isAddressChar plain)
    rw [percentChar, if_neg special]
    exact escaped _ fun byte member =>
      isAddressByte_of_large (large_of_mem_utf8EncodeChar large member)

theorem bytes_percentEncode (address : String) :
    bytes (percentEncode address).toList = (bytes address.toList).flatMap percentWritten := by
  rw [percentEncode, String.toList_ofList, bytes, bytes, List.flatMap_assoc, List.flatMap_assoc]
  exact List.flatMap_congr fun c _ => bytes_percentChar c

end Bytes

section Decoding

theorem percentDecode_cons_of_ne {byte : UInt8} (other : byte ≠ percentSign) (rest : List UInt8) :
    percentDecode (byte :: rest) = byte :: percentDecode rest := by
  match rest with
  | [] => rfl
  | [_] => rfl
  | high :: low :: rest => rw [percentDecode, if_neg other]

def leadingPair? (text : List UInt8) : Option UInt8 :=
  (text.head?.bind hexValue?).bind fun first =>
    (text.tail.head?.bind hexValue?).map fun second => 16 * first + second

theorem leadingPair?_eq_some {text : List UInt8} {value : UInt8}
    (pair : leadingPair? text = some value) :
    ∃ high low rest, text = high :: low :: rest ∧
      (hexValue? high).isSome ∧ (hexValue? low).isSome := by
  match text with
  | [] => simp [leadingPair?] at pair
  | [high] => simp [leadingPair?] at pair
  | high :: low :: rest =>
    refine ⟨high, low, rest, rfl, ?_⟩
    cases first : hexValue? high <;> cases second : hexValue? low <;>
      simp_all [leadingPair?]

theorem percentDecode_percentSign (rest : List UInt8) :
    percentDecode (percentSign :: rest) =
      match leadingPair? rest with
      | some value => value :: percentDecode (rest.drop 2)
      | none => percentSign :: percentDecode rest := by
  match rest with
  | [] => rfl
  | [high] => cases digit : hexValue? high <;> simp [leadingPair?, digit, percentDecode]
  | high :: low :: rest =>
    rw [percentDecode, if_pos rfl]
    rfl

theorem hexValue?_hexDigit : ∀ value < 16,
    hexValue? (UInt8.ofNat (hexDigit value).toNat) = some (UInt8.ofNat value) := by decide

theorem hexValue?_eq_none {byte : UInt8} (special : isAddressByte byte = false) :
    hexValue? byte = none := by
  -- What is escaped is no digit, so nothing is taken from an escape in front.
  have all : ∀ n < 256, isAddressByte (UInt8.ofNat n) = false →
      hexValue? (UInt8.ofNat n) = none := by decide +kernel
  have here := all byte.toNat byte.toNat_lt
  rw [UInt8.ofNat_toNat] at here
  exact here special

theorem isAddressByte_of_hexValue? {byte : UInt8} (digit : (hexValue? byte).isSome) :
    isAddressByte byte = true := by
  by_contra special
  rw [hexValue?_eq_none (by simpa using special)] at digit
  contradiction

theorem bytes_percentByte (byte : UInt8) :
    bytes (percentByte byte) = [percentSign, UInt8.ofNat (hexDigit (byte.toNat / 16)).toNat,
      UInt8.ofNat (hexDigit (byte.toNat % 16)).toNat] := by
  have small := byte.toNat_lt
  have ascii {value : Nat} (digit : value < 16) : (hexDigit value).toNat < 128 :=
    toNat_lt_of_isAddressChar (isAddressChar_hexDigit value digit)
  simp only [bytes, percentByte, List.flatMap_cons, List.flatMap_nil,
    utf8EncodeChar_of_ascii (ascii (by omega : byte.toNat / 16 < 16)),
    utf8EncodeChar_of_ascii (ascii (by omega : byte.toNat % 16 < 16))]
  rfl

theorem percentDecode_percentByte (byte : UInt8) (rest : List UInt8) :
    percentDecode (bytes (percentByte byte) ++ rest) = byte :: percentDecode rest := by
  have small := byte.toNat_lt
  have value : 16 * UInt8.ofNat (byte.toNat / 16) + UInt8.ofNat (byte.toNat % 16) = byte := by
    refine UInt8.toNat_inj.mp ?_
    simp only [UInt8.toNat_add, UInt8.toNat_mul, UInt8.toNat_ofNat']
    rw [show (16 : UInt8).toNat = 16 from rfl]
    omega
  have pair (more : List UInt8) : leadingPair? (UInt8.ofNat (hexDigit (byte.toNat / 16)).toNat ::
      UInt8.ofNat (hexDigit (byte.toNat % 16)).toNat :: more) = some byte := by
    simp only [leadingPair?, List.head?_cons, List.tail_cons, Option.bind_some,
      hexValue?_hexDigit _ (by omega : byte.toNat / 16 < 16),
      hexValue?_hexDigit _ (by omega : byte.toNat % 16 < 16), Option.map_some, value]
  rw [bytes_percentByte, List.cons_append, percentDecode_percentSign, List.cons_append,
    List.cons_append, pair]
  rfl

theorem percentWritten_of_isAddressByte {byte : UInt8} (plain : isAddressByte byte = true) :
    percentWritten byte = [byte] := if_pos plain

theorem head?_flatMap_percentWritten (text : List UInt8) :
    (text.flatMap percentWritten).head?.bind hexValue? = text.head?.bind hexValue? := by
  cases text with
  | nil => rfl
  | cons byte rest =>
    rw [List.flatMap_cons]
    by_cases plain : isAddressByte byte = true
    · rw [percentWritten_of_isAddressByte plain]
      rfl
    · rw [percentWritten, if_neg plain, bytes_percentByte]
      exact (hexValue?_eq_none (by simpa using plain)).symm

/-- Escapes neither make a pair of digits behind a percent sign nor break one. -/
theorem leadingPair?_flatMap_percentWritten (text : List UInt8) :
    leadingPair? (text.flatMap percentWritten) = leadingPair? text := by
  have first := head?_flatMap_percentWritten text
  cases text with
  | nil => rfl
  | cons byte rest =>
    rw [leadingPair?, leadingPair?, first]
    cases digit : hexValue? byte with
    | none => simp [digit]
    | some value =>
      have plain : isAddressByte byte = true := isAddressByte_of_hexValue? (by simp [digit])
      have second := head?_flatMap_percentWritten rest
      rw [List.flatMap_cons, percentWritten_of_isAddressByte plain, List.singleton_append,
        List.tail_cons, List.tail_cons, second]

theorem percentDecode_flatMap_percentWritten : ∀ text : List UInt8,
    percentDecode (text.flatMap percentWritten) = percentDecode text
  | [] => rfl
  | byte :: rest => by
    have ih := percentDecode_flatMap_percentWritten rest
    rw [List.flatMap_cons]
    by_cases plain : isAddressByte byte = true
    · rw [percentWritten_of_isAddressByte plain, List.singleton_append]
      by_cases sign : byte = percentSign
      · rw [sign, percentDecode_percentSign, percentDecode_percentSign,
          leadingPair?_flatMap_percentWritten]
        cases pair : leadingPair? rest with
        | none => exact congrArg _ ih
        | some value =>
          obtain ⟨high, low, more, rfl, first, second⟩ := leadingPair?_eq_some pair
          have behind := percentDecode_flatMap_percentWritten more
          simp only [List.flatMap_cons,
            percentWritten_of_isAddressByte (isAddressByte_of_hexValue? first),
            percentWritten_of_isAddressByte (isAddressByte_of_hexValue? second)]
          exact congrArg _ behind
      · rw [percentDecode_cons_of_ne sign, percentDecode_cons_of_ne sign, ih]
    · have other : byte ≠ percentSign := by
        rintro rfl
        exact plain (by decide)
      rw [percentWritten, if_neg plain, percentDecode_percentByte,
        percentDecode_cons_of_ne other, ih]
termination_by text => text.length

end Decoding

/-- What is written for an address is harmless in an attribute value: ASCII without quotes, angle
    brackets, white space and control characters, and with no ampersand but that of an escaped one.
    What a reader finds there stands for the same bytes as the address, and is not changed when it
    is written again. -/
theorem escapeAddress_reads_back (address : String) :
    (∀ c ∈ (escapeAddress address).toList, c.toNat < 128 ∧ c ∉ ['"', '<', '>'] ∧
      Unicode.isWhiteSpace c = false ∧ Unicode.isControl c = false) ∧
    (∀ back, '&' :: back <:+ (escapeAddress address).toList → "amp;".toList <+: back) ∧
    writtenAddress (writtenAddress address) = writtenAddress address ∧
    percentDecode (bytes (writtenAddress address).toList) =
      percentDecode (bytes address.toList) := by
  have plain : ∀ c ∈ (percentEncode address).toList, isAddressChar c = true :=
    fun c member => isAddressChar_of_mem_percentEncode member
  refine ⟨fun c member => ?_, fun back within => ?_, ?_, ?_⟩
  · exact harmless_of_isAddressChar (isAddressChar_of_mem_escapeAddress member)
  · rw [escapeAddress, toList_escape] at within
    exact prefix_behind_ampersand plain within
  · rw [writtenAddress_eq, writtenAddress_eq, percentEncode_of_isAddressChar plain]
  · rw [writtenAddress_eq, bytes_percentEncode, percentDecode_flatMap_percentWritten]

end CanonicalMarkdown.Html
