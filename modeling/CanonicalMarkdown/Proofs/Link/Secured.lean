import CanonicalMarkdown.Link.External
import CanonicalMarkdown.Proofs.Text.Slices

namespace CanonicalMarkdown

open Text

section Addresses

/-- The address starts with the scheme of the web, in any case. -/
def IsWebAddress (address : String) : Prop :=
  ∃ scheme ∈ ["http://", "https://"], scheme.toList <+: address.toList.map Char.toLower

theorem utf8Size_toLower (c : Char) : c.toLower.utf8Size = c.utf8Size := by
  unfold Char.toLower
  split
  · rename_i capital
    have small : c.val.toNat ≤ 90 := UInt32.le_iff_toNat_le.mp capital.2
    have ascii : c.utf8Size = 1 := by
      rw [Char.utf8Size_eq_one_iff, UInt32.le_iff_toNat_le]
      exact Nat.le_trans small (by decide)
    rw [ascii, Char.utf8Size_eq_one_iff, UInt32.le_iff_toNat_le]
    show (c.val + 32).toNat ≤ 127
    have step : (32 : UInt32).toNat = 32 := rfl
    rw [UInt32.toNat_add, step]
    omega
  · rfl

theorem byteLength_map_toLower (text : List Char) :
    byteLength (text.map Char.toLower) = byteLength text := by
  induction text with
  | nil => rfl
  | cons c rest ih => rw [List.map_cons, byteLength_cons, byteLength_cons, utf8Size_toLower, ih]

theorem prefix_schemePart_iff {scheme address : List Char} (short : byteLength scheme ≤ 8) :
    scheme <+: (schemePart address).map Char.toLower ↔ scheme <+: address.map Char.toLower := by
  unfold schemePart
  cases taken : takeBytes 8 address with
  | none => rfl
  | some part =>
    obtain ⟨rest, rfl, length⟩ := takeBytes_eq_some_iff.mp taken
    rw [Option.getD_some, List.map_append]
    constructor
    · intro begins
      exact begins.trans (List.prefix_append _ _)
    · rintro ⟨behind, same⟩
      refine prefix_of_byteLength_le same ?_
      rwa [byteLength_map_toLower, length]

theorem isExternalAddress_iff {address : String} :
    isExternalAddress address = true ↔ IsWebAddress address := by
  have plain : byteLength "http://".toList ≤ 8 := by decide
  have secure : byteLength "https://".toList ≤ 8 := by decide
  simp only [isExternalAddress, Bool.or_eq_true, List.isPrefixOf_iff_prefix,
    prefix_schemePart_iff plain, prefix_schemePart_iff secure, IsWebAddress, List.mem_cons,
    List.not_mem_nil, or_false, exists_eq_or_imp, exists_eq_left]

end Addresses

namespace Attributes

variable {name value : String} {entries : List Attribute}

theorem map_name_setIn (name value : String) (entries : List Attribute) :
    (setIn name value entries).map (·.name) =
      entries.map (·.name) ++ if name ∈ entries.map (·.name) then [] else [name] := by
  induction entries with
  | nil => rfl
  | cons entry rest ih =>
    by_cases same : entry.name = name
    · simp [setIn, same]
    · simp [setIn, same, Ne.symm same, ih]

theorem find?_setIn_of_ne {other : String} (apart : other ≠ name) :
    (setIn name value entries).find? (·.name = other) = entries.find? (·.name = other) := by
  induction entries with
  | nil => simp [setIn, Ne.symm apart]
  | cons entry rest ih =>
    by_cases same : entry.name = name
    · simp [setIn, same, Ne.symm apart]
    · rw [setIn, if_neg same, List.find?_cons, List.find?_cons, ih]

theorem setIn_of_find? (found : entries.find? (·.name = name) = some ⟨name, some value⟩) :
    setIn name value entries = entries := by
  induction entries with
  | nil => contradiction
  | cons entry rest ih =>
    by_cases same : entry.name = name
    · rw [List.find?_cons_of_pos (by simpa using same)] at found
      obtain rfl := Option.some.inj found
      simp [setIn]
    · rw [List.find?_cons_of_neg (by simpa using same)] at found
      rw [setIn, if_neg same, ih found]

theorem setIn_append_cons {front back : List Attribute} {entry : Attribute}
    (later : entry.name = name → ∃ other ∈ front, other.name = name) :
    ∃ front' back', setIn name value (front ++ entry :: back) = front' ++ entry :: back' ∧
      front'.map (·.name) = front.map (·.name) := by
  induction front with
  | nil =>
    have apart : entry.name ≠ name := fun same => by simpa using later same
    exact ⟨[], setIn name value back, by rw [List.nil_append, setIn, if_neg apart]; rfl, rfl⟩
  | cons first rest ih =>
    by_cases same : first.name = name
    · exact ⟨{ first with value := some value } :: rest, back,
        by rw [List.cons_append, setIn, if_pos same]; rfl, rfl⟩
    · have behind : entry.name = name → ∃ other ∈ rest, other.name = name := by
        intro named
        obtain ⟨other, member, equal⟩ := later named
        rcases List.mem_cons.mp member with rfl | member
        · contradiction
        · exact ⟨other, member, equal⟩
      obtain ⟨front', back', split, names⟩ := ih behind
      exact ⟨first :: front', back', by rw [List.cons_append, setIn, if_neg same, split]; rfl,
        by rw [List.map_cons, List.map_cons, names]⟩

/-- The attributes of a link that leads away, from those it had: the first of either name has the
    value for such links, a name that was missing stands at the end, and all else is as it was. -/
structure Secures (before after : Attributes) : Prop where
  rel : after.entries.find? (·.name = "rel") = some ⟨"rel", some "noreferrer"⟩
  target : after.entries.find? (·.name = "target") = some ⟨"target", some "_blank"⟩
  names : after.entries.map (·.name) =
    before.entries.map (·.name) ++ ["rel", "target"].filter (!before.contains ·)
  others : ∀ front entry back, before.entries = front ++ entry :: back →
    (entry.name ∈ ["rel", "target"] → ∃ other ∈ front, other.name = entry.name) →
    after.entries[front.length]? = some entry

theorem mem_names_iff {attributes : Attributes} :
    name ∈ attributes.entries.map (·.name) ↔ attributes.contains name = true := by
  simp [contains]

theorem secures_secure (attributes : Attributes) : attributes.Secures attributes.secure where
  rel := by
    show (setIn "target" "_blank" (setIn "rel" "noreferrer" _)).find? _ = _
    rw [find?_setIn_of_ne (by decide), find?_setIn]
  target := find?_setIn _ _ _
  names := by
    show (setIn "target" "_blank" (setIn "rel" "noreferrer" _)).map _ = _
    have target : "target" ∈ attributes.entries.map (·.name) ++
        (if attributes.contains "rel" = true then [] else ["rel"]) ↔
          attributes.contains "target" = true := by
      rw [List.mem_append, mem_names_iff]
      split <;> simp
    simp only [map_name_setIn, mem_names_iff, target]
    cases rel : attributes.contains "rel" <;> cases found : attributes.contains "target" <;>
      simp [rel, found]
  others := by
    rintro front entry back split later
    show (setIn "target" "_blank" (setIn "rel" "noreferrer" attributes.entries))[_]? = _
    have relLater : entry.name = "rel" → ∃ other ∈ front, other.name = "rel" := by
      intro named
      rw [← named]
      exact later (by simp [named])
    obtain ⟨front', back', split', names⟩ := setIn_append_cons relLater
    have targetLater : entry.name = "target" → ∃ other ∈ front', other.name = "target" := by
      intro named
      obtain ⟨other, member, same⟩ := later (by simp [named])
      have among : "target" ∈ front'.map (·.name) := by
        rw [names, ← named, ← same]
        exact List.mem_map_of_mem member
      exact List.mem_map.mp among
    obtain ⟨front'', back'', split'', names'⟩ := setIn_append_cons targetLater
    have length : front.length = front''.length := by
      rw [← List.length_map (·.name), ← names, ← names', List.length_map]
    rw [split, split', split'', length]
    simp

theorem secure_secure (attributes : Attributes) : attributes.secure.secure = attributes.secure := by
  have secures := attributes.secures_secure
  have kept : attributes.secure.set "rel" "noreferrer" = attributes.secure :=
    congrArg Attributes.mk (setIn_of_find? secures.rel)
  rw [secure, kept]
  exact congrArg Attributes.mk (setIn_of_find? secures.target)

end Attributes

end CanonicalMarkdown
