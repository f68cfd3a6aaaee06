import CanonicalMarkdown.Proofs.ConversionSafety
import CanonicalMarkdown.Proofs.Tree.CheckedPieces

namespace CanonicalMarkdown

open Text

section Smart

def isStraight (c : Char) : Bool := c ∈ ['-', '.', '\'', '"']

def isTypographic (c : Char) : Bool :=
  c ∈ ['\u2013', '\u2014', '\u2026', '\u2018', '\u2019', '\u201c', '\u201d']

/-- Straight characters shown as typographic ones, of which there are no more. -/
structure Smartened (written shown : List Char) : Prop where
  straight : ∀ c ∈ written, isStraight c = true
  typographic : ∀ c ∈ shown, isTypographic c = true
  length : shown.length ≤ written.length

theorem Smartened.ofAll {written shown : List Char} (straight : written.all isStraight = true)
    (typographic : shown.all isTypographic = true) (length : shown.length ≤ written.length) :
    Smartened written shown :=
  ⟨List.all_eq_true.mp straight, List.all_eq_true.mp typographic, length⟩

/-- A measure that every replacement lowers. -/
def weight : List Char → Nat
  | [] => 0
  | c :: rest => (if isTypographic c then 1 else 2) + weight rest

theorem weight_append (left right : List Char) :
    weight (left ++ right) = weight left + weight right := by
  induction left with
  | nil => exact (Nat.zero_add _).symm
  | cons c rest ih => rw [List.cons_append, weight, weight, ih, Nat.add_assoc]

theorem weight_pos {text : List Char} (some : text ≠ []) : 0 < weight text := by
  obtain ⟨c, rest, rfl⟩ := List.exists_cons_of_ne_nil some
  rw [weight]
  split <;> omega

theorem weight_of_forall {text : List Char} {typographic : Bool}
    (all : ∀ c ∈ text, isTypographic c = typographic) :
    weight text = (if typographic then 1 else 2) * text.length := by
  induction text with
  | nil => rfl
  | cons c rest ih =>
    have more := ih fun other member => all other (by simp [member])
    have first := all c (by simp)
    rw [weight, first, more, List.length_cons, Nat.mul_succ, Nat.add_comm]

theorem weight_le_of_weighed {same : Prop} {shown written : List Char}
    (weighed : same ∧ shown = written ∨ ¬same ∧ weight shown < weight written) :
    weight shown ≤ weight written := by
  rcases weighed with ⟨_, rfl⟩ | ⟨_, less⟩
  · exact Nat.le_refl _
  · exact Nat.le_of_lt less

theorem isTypographic_of_isStraight {c : Char} (straight : isStraight c = true) :
    isTypographic c = false := by
  have among : c = '-' ∨ c = '.' ∨ c = '\'' ∨ c = '"' := by simpa [isStraight] using straight
  rcases among with rfl | rfl | rfl | rfl <;> decide

theorem Smartened.weight_lt {written shown : List Char} (smart : Smartened written shown)
    (some : written ≠ []) : weight shown < weight written := by
  have length := smart.length
  have positive := List.length_pos_iff.mpr some
  rw [weight_of_forall smart.typographic,
    weight_of_forall fun c member => isTypographic_of_isStraight (smart.straight c member)]
  simp only [if_true, Bool.false_eq_true, if_false]
  omega

end Smart

section Pieces

/-- A piece shown as it is written. -/
def Piece.Verbatim (source : Source) (piece : Piece) : Prop :=
  source.slice? piece.span = some piece.literal.toList

def Shown (source : Source) (run : List Piece) (offset : Nat) : Prop :=
  ∃ piece ∈ run, piece.span.start ≤ offset ∧ offset < piece.span.stop ∧ piece.Verbatim source

def AllShown (source : Source) (run : List Piece) (span : Span) : Prop :=
  ∀ offset, span.start ≤ offset → offset < span.stop → Shown source run offset

/-- Every piece stands in the source, and what is not shown as written is smart punctuation. -/
def OnlySmart (source : Source) (run : List Piece) : Prop :=
  ∀ piece ∈ run, ∃ written, source.slice? piece.span = some written ∧
    (piece.literal.toList = written ∨ Smartened written piece.literal.toList)

variable {source : Source} {run rest : List Piece} {piece : Piece} {start stop : Nat}
  {text : String} {part : List Char}

theorem Piece.weight_between
    (shown : ∃ written, source.slice? piece.span = some written ∧
      (piece.literal.toList = written ∨ Smartened written piece.literal.toList))
    (read : Piece.between source piece start stop = some text)
    (overlap : max piece.span.start start < min piece.span.stop stop) :
    ∃ part, source.slice? ⟨max piece.span.start start, min piece.span.stop stop⟩ = some part ∧
      (piece.Verbatim source ∧ text.toList = part ∨
        ¬piece.Verbatim source ∧ weight text.toList < weight part) := by
  obtain ⟨written, sliced, replaced⟩ := shown
  unfold Piece.between at read
  dsimp only at read
  rw [if_neg (by omega)] at read
  split at read
  · rename_i whole
    obtain rfl := Option.some.inj read
    rw [whole.1, whole.2]
    refine ⟨written, sliced, ?_⟩
    by_cases verbatim : piece.Verbatim source
    · exact .inl ⟨verbatim, Option.some.inj (verbatim.symm.trans sliced)⟩
    · have smart := replaced.resolve_left fun same => verbatim (by rw [Verbatim, sliced, same])
      have filled : written ≠ [] := by
        rintro rfl
        have length : piece.span.start + 0 = piece.span.stop := Source.length_slice? sliced
        omega
      exact .inr ⟨verbatim, smart.weight_lt filled⟩
  · split at read
    · rename_i verbatim
      obtain ⟨part, cut, rfl⟩ := Option.map_eq_some_iff.mp read
      refine ⟨part, ?_, .inl ⟨verbatim, by simp⟩⟩
      obtain ⟨before, after, split, lengthStart, lengthStop⟩ := slice?_eq_some_iff.mp cut
      rw [split] at verbatim
      have inner := (Source.slice?_split (Source.slice?_split verbatim).2).1
      have first : piece.span.start + byteLength before = max piece.span.start start := by omega
      rw [first] at inner
      rwa [show max piece.span.start start + byteLength part = min piece.span.stop stop by omega]
        at inner
    · contradiction

theorem textBetween_from {last : Nat} (behind : ∀ piece ∈ run, last ≤ piece.span.start)
    (ordered : start ≤ last) :
    textBetween source run start stop = textBetween source run last stop := by
  induction run with
  | nil => rfl
  | cons piece rest ih =>
    obtain ⟨here, others⟩ := List.forall_mem_cons.mp behind
    have same : Piece.between source piece start stop = Piece.between source piece last stop := by
      unfold Piece.between
      rw [show max piece.span.start start = max piece.span.start last by omega]
    rw [textBetween_cons, textBetween_cons, same, ih others]

theorem shown_cons_iff {offset : Nat} : Shown source (piece :: rest) offset ↔
    (piece.span.start ≤ offset ∧ offset < piece.span.stop ∧ piece.Verbatim source) ∨
      Shown source rest offset := by
  simp [Shown]

theorem not_shown_of_behind {offset : Nat} (behind : ∀ piece ∈ run, offset < piece.span.start) :
    ¬Shown source run offset := by
  rintro ⟨piece, member, reached, _⟩
  have after := behind piece member
  omega

theorem allShown_cons_apart (apart : min piece.span.stop stop ≤ max piece.span.start start) :
    AllShown source (piece :: rest) ⟨start, stop⟩ ↔ AllShown source rest ⟨start, stop⟩ := by
  refine forall_congr' fun offset => forall_congr' fun from_start => forall_congr' fun to_stop => ?_
  rw [shown_cons_iff, or_iff_right]
  rintro ⟨inside, within, _⟩
  dsimp only at from_start to_stop
  omega

theorem allShown_cons_overlap (behind : ∀ other ∈ rest, piece.span.stop ≤ other.span.start)
    (overlap : max piece.span.start start < min piece.span.stop stop) :
    AllShown source (piece :: rest) ⟨start, stop⟩ ↔
      piece.span.start ≤ start ∧ piece.Verbatim source ∧
        AllShown source rest ⟨min piece.span.stop stop, stop⟩ := by
  constructor
  · intro all
    have first := (shown_cons_iff.mp (all start (Nat.le_refl _) (by dsimp only; omega))).resolve_right
      (not_shown_of_behind fun other member => by have after := behind other member; omega)
    refine ⟨first.1, first.2.2, fun offset from_last to_stop => ?_⟩
    dsimp only at from_last to_stop
    refine (shown_cons_iff.mp (all offset (by dsimp only; omega) to_stop)).resolve_left ?_
    rintro ⟨_, within, _⟩
    omega
  · rintro ⟨begins, verbatim, all⟩ offset from_start to_stop
    dsimp only at from_start to_stop
    rw [shown_cons_iff]
    by_cases within : offset < piece.span.stop
    · exact .inl ⟨by omega, within, verbatim⟩
    · exact .inr (all offset (by dsimp only; omega) to_stop)

theorem weight_textBetween (orderly : Orderly run) (smart : OnlySmart source run)
    (read : textBetween source run start stop = some text)
    (sliced : source.slice? ⟨start, stop⟩ = some part) :
    AllShown source run ⟨start, stop⟩ ∧ text.toList = part ∨
      ¬AllShown source run ⟨start, stop⟩ ∧ weight text.toList < weight part := by
  induction run generalizing start text part with
  | nil =>
    obtain rfl : text = "" := by simpa [textBetween] using read.symm
    by_cases empty : part = []
    · subst empty
      have length : start + 0 = stop := Source.length_slice? sliced
      exact .inl ⟨fun offset from_start to_stop => by dsimp only at *; omega, rfl⟩
    · have forward := Source.lt_of_slice? sliced empty
      refine .inr ⟨fun all => ?_, weight_pos empty⟩
      simpa [Shown] using all start (Nat.le_refl _) forward
  | cons piece rest ih =>
    rw [textBetween_cons] at read
    obtain ⟨here, readHere, more⟩ := Option.bind_eq_some_iff.mp read
    obtain ⟨others, readOthers, rfl⟩ := Option.map_eq_some_iff.mp more
    obtain ⟨smartHere, smartRest⟩ := List.forall_mem_cons.mp smart
    have behind := (List.pairwise_cons.mp orderly.ordered).1
    rw [String.toList_append]
    by_cases overlap : max piece.span.start start < min piece.span.stop stop
    · -- the range is a gap before the piece, what the piece has of it, and what lies behind the piece
      obtain ⟨partHere, slicedHere, weighed⟩ := Piece.weight_between smartHere readHere overlap
      obtain ⟨cutsStart, cutsStop⟩ := Source.IsBoundary.of_slice? sliced
      obtain ⟨cutsFirst, cutsLast⟩ := Source.IsBoundary.of_slice? slicedHere
      obtain ⟨gap, slicedGap⟩ := cutsStart.slice? cutsFirst (Nat.le_max_right _ _)
      obtain ⟨partRest, slicedRest⟩ := cutsLast.slice? cutsStop (Nat.min_le_right _ _)
      obtain rfl := Option.some.inj (sliced.symm.trans
        (Source.slice?_append slicedGap (Source.slice?_append slicedHere slicedRest)))
      rw [textBetween_from (fun other member => by have after := behind other member; omega)
        (show start ≤ min piece.span.stop stop by omega)] at readOthers
      have weighedRest := ih orderly.tail smartRest readOthers slicedRest
      rw [allShown_cons_overlap behind overlap, weight_append, weight_append, weight_append]
      have lengthGap := Source.length_slice? slicedGap
      by_cases begins : piece.span.start ≤ start
      · have noGap : gap = [] := by
          by_contra filled
          have positive := byteLength_pos filled
          omega
        rw [noGap, List.nil_append, show weight [] = 0 from rfl, Nat.zero_add]
        rcases weighed with ⟨verbatim, sameHere⟩ | ⟨altered, lessHere⟩
        · rcases weighedRest with ⟨all, sameRest⟩ | ⟨missing, lessRest⟩
          · exact .inl ⟨⟨begins, verbatim, all⟩, by rw [sameHere, sameRest]⟩
          · exact .inr ⟨fun whole => missing whole.2.2, by rw [sameHere]; omega⟩
        · have le := weight_le_of_weighed weighedRest
          exact .inr ⟨fun whole => altered whole.2.1, by omega⟩
      · have filled : gap ≠ [] := by
          rintro rfl
          rw [byteLength_nil] at lengthGap
          omega
        have positive := weight_pos filled
        have leHere := weight_le_of_weighed weighed
        have leRest := weight_le_of_weighed weighedRest
        exact .inr ⟨fun whole => begins whole.1, by omega⟩
    · have nothing : here = "" := by
        simpa [Piece.between, Nat.le_of_not_lt overlap] using readHere.symm
      rw [nothing, String.toList_empty, List.nil_append,
        allShown_cons_apart (Nat.le_of_not_lt overlap)]
      exact ih orderly.tail smartRest readOthers sliced

end Pieces

section Nodes

variable {source : Source} {run : List Piece} {node : Node} {url : String} {email : Bool}

theorem Tiles.url_of_mem {start stop : Nat} {nodes : List Node}
    (tiles : Tiles source run start nodes stop) (member : node ∈ nodes)
    (address : node.payload = .autoLink url email) :
    ∃ part, source.slice? node.span = some part ∧
      textBetween source run node.span.start node.span.stop = some url := by
  induction tiles with
  | nil => simp at member
  | text _ _ _ _ ih =>
    rcases List.mem_cons.mp member with rfl | member
    · cases address
    · exact ih member
  | url sliced _ read _ ih =>
    rcases List.mem_cons.mp member with rfl | member
    · cases address
      exact ⟨_, sliced, read⟩
    · exact ih member

theorem mem_of_mem_addBreak {nodes : List Node} {lineBreak : LineBreak}
    (member : node ∈ addBreak nodes lineBreak) (address : node.payload = .autoLink url email) :
    node ∈ nodes := by
  unfold addBreak at member
  split at member
  · rcases List.mem_append.mp member with member | last
    · exact List.dropLast_subset nodes member
    · rw [List.mem_singleton.mp last] at address
      cases address
  · rcases List.mem_append.mp member with member | last
    · exact member
    · rw [List.mem_singleton.mp last] at address
      cases address

theorem mem_runNodes_of_mem_inlineNodes {linkify : Bool} {lineBreak : Option LineBreak}
    (member : node ∈ inlineNodes source linkify run lineBreak)
    (address : node.payload = .autoLink url email) : node ∈ runNodes source linkify run := by
  cases lineBreak with
  | none => exact member
  | some lineBreak => exact mem_of_mem_addBreak member address

theorem url_of_mem_runNodes {linkify : Bool} (member : node ∈ runNodes source linkify run)
    (address : node.payload = .autoLink url email) :
    ∃ part, source.slice? node.span = some part ∧
      textBetween source run node.span.start node.span.stop = some url := by
  cases head : run.head? with
  | none => simp [runNodes, head] at member
  | some first =>
    cases final : run.getLast? with
    | none => simp [runNodes, head, final] at member
    | some last =>
      rw [runNodes_eq source linkify head final] at member
      dsimp only at member
      obtain ⟨tiles, _⟩ := tiles_runUrls source linkify run
        (Nat.le_max_right last.span.stop first.span.start)
      split at member
      · rcases List.mem_append.mp member with member | text
        · exact tiles.url_of_mem member address
        · rw [List.mem_singleton.mp text] at address
          cases address
      · exact tiles.url_of_mem member address

end Nodes

/-- The address of a link that is made of a run is the source text of its span just if each byte of
    the span lies in a piece that is shown as it is written. -/
theorem url_eq_slice_iff (source : Source) (linkify : Bool) (run : List Piece)
    (lineBreak : Option LineBreak) (orderly : Orderly run) (smart : OnlySmart source run)
    (node : Node) (member : node ∈ inlineNodes source linkify run lineBreak) (url : String)
    (email : Bool) (address : node.payload = .autoLink url email) :
    source.slice? node.span = some url.toList ↔ AllShown source run node.span := by
  obtain ⟨part, sliced, read⟩ :=
    url_of_mem_runNodes (mem_runNodes_of_mem_inlineNodes member address) address
  rcases weight_textBetween orderly smart read sliced with ⟨all, same⟩ | ⟨missing, less⟩
  · exact iff_of_true (by rw [same, sliced]) all
  · refine iff_of_false (fun same => ?_) missing
    obtain rfl := Option.some.inj (sliced.symm.trans same)
    exact Nat.lt_irrefl _ less

def quotedAddress : List Piece :=
  [⟨⟨0, 1⟩, "\u201c"⟩, ⟨⟨1, 11⟩, "http://a.b"⟩, ⟨⟨11, 12⟩, "\u201d"⟩, ⟨⟨12, 13⟩, " "⟩,
    ⟨⟨13, 15⟩, "\u2013"⟩, ⟨⟨15, 16⟩, "c"⟩]

theorem url_eq_slice_quotedAddress :
    let source := Source.ofString "\"http://a.b\" --c"
    Orderly quotedAddress ∧ OnlySmart source quotedAddress ∧
    ∃ node ∈ inlineNodes source true quotedAddress none,
      node.payload = .autoLink "http://a.b" false ∧ node.span = ⟨1, 11⟩ ∧
      source.slice? node.span = some "http://a.b".toList := by
  intro source
  have orderly : Orderly quotedAddress := ⟨by decide, by decide⟩
  have smart : OnlySmart source quotedAddress := by
    simp only [OnlySmart, quotedAddress, List.forall_mem_cons]
    exact ⟨⟨_, rfl, .inr (.ofAll (by decide) (by decide) (by decide))⟩, ⟨_, rfl, .inl rfl⟩,
      ⟨_, rfl, .inr (.ofAll (by decide) (by decide) (by decide))⟩, ⟨_, rfl, .inl rfl⟩,
      ⟨_, rfl, .inr (.ofAll (by decide) (by decide) (by decide))⟩, ⟨_, rfl, .inl rfl⟩, by simp⟩
  have second : (inlineNodes source true quotedAddress none)[1]?.map
      (fun node => (node.payload, node.span)) = some (.autoLink "http://a.b" false, ⟨1, 11⟩) := by
    decide +kernel
  obtain ⟨node, found, same⟩ := Option.map_eq_some_iff.mp second
  obtain ⟨address, span⟩ := Prod.mk.inj same
  have member := List.mem_of_getElem? found
  have shown : AllShown source quotedAddress node.span := by
    rw [span]
    exact fun _ from_start to_stop =>
      ⟨⟨⟨1, 11⟩, "http://a.b"⟩, by simp [quotedAddress], from_start, to_stop, rfl⟩
  exact ⟨orderly, smart, node, member, address, span,
    (url_eq_slice_iff source true quotedAddress none orderly smart node member "http://a.b" false
      address).mpr shown⟩

/-- An address with two hyphens, which a reader delivers as a dash. -/
def dashedAddress : List Event :=
  [⟨.start .paragraph, ⟨0, 16⟩⟩, ⟨.text "https://a.b/x", ⟨0, 13⟩⟩, ⟨.text "\u2013", ⟨13, 15⟩⟩,
    ⟨.text "y", ⟨15, 16⟩⟩, ⟨.close, ⟨0, 16⟩⟩]

/-- The link points to an address that stands nowhere in the source. -/
theorem url_replaced_dashedAddress :
    let source := Source.ofString "https://a.b/x--y"
    let run : List Piece := [⟨⟨0, 13⟩, "https://a.b/x"⟩, ⟨⟨13, 15⟩, "\u2013"⟩, ⟨⟨15, 16⟩, "y"⟩]
    Orderly run ∧ OnlySmart source run ∧
    (inlineNodes source true run none).map (fun node => (node.payload, node.span)) =
      [(.autoLink "https://a.b/x\u2013y" false, ⟨0, 16⟩)] ∧
    ∃ conversion, Conversion.ofMode .html = .ok conversion ∧
      conversion.convert source dashedAddress = .ok
        ("<p><a href=\"https://a.b/x%E2%80%93y\" rel=\"noreferrer\" target=\"_blank\">" ++
          "https://a.b/x\u2013y</a></p>\n") := by
  intro source run
  have smart : OnlySmart source run := by
    simp only [OnlySmart, run, List.forall_mem_cons]
    exact ⟨⟨_, rfl, .inl rfl⟩, ⟨_, rfl, .inr (.ofAll (by decide) (by decide) (by decide))⟩,
      ⟨_, rfl, .inl rfl⟩, by simp⟩
  exact ⟨⟨by decide, by decide⟩, smart, by decide +kernel, _, Conversion.ofOptions_html _,
    by decide +kernel⟩

end CanonicalMarkdown
