import CanonicalMarkdown.Source

namespace CanonicalMarkdown.Text

theorem dropBytes_eq_some_iff {text rest : List Char} {count : Nat} :
    dropBytes count text = some rest ↔ ∃ front, text = front ++ rest ∧ byteLength front = count := by
  constructor
  · intro dropped
    fun_induction dropBytes count text with
    | case1 => exact ⟨[], by simpa using dropped, rfl⟩
    | case2 => contradiction
    | case3 => exact ⟨[], by simpa using dropped, rfl⟩
    | case4 count c more _ fits ih =>
      obtain ⟨front, split, length⟩ := ih dropped
      refine ⟨c :: front, by rw [split]; rfl, ?_⟩
      rw [byteLength_cons, length]
      omega
    | case5 => contradiction
  · rintro ⟨front, rfl, rfl⟩
    exact dropBytes_byteLength_append front rest

theorem takeBytes_eq_some_iff {text front : List Char} {count : Nat} :
    takeBytes count text = some front ↔ ∃ rest, text = front ++ rest ∧ byteLength front = count := by
  constructor
  · intro taken
    fun_induction takeBytes count text generalizing front with
    | case1 => exact ⟨[], by simp_all, by simp_all⟩
    | case2 => contradiction
    | case3 => exact ⟨_, by simp_all; rfl, by simp_all⟩
    | case4 count c more _ fits ih =>
      obtain ⟨taken, found, rfl⟩ := Option.map_eq_some_iff.mp taken
      obtain ⟨rest, split, length⟩ := ih found
      refine ⟨rest, by rw [split]; rfl, ?_⟩
      rw [byteLength_cons, length]
      omega
    | case5 => contradiction
  · rintro ⟨rest, rfl, rfl⟩
    exact takeBytes_byteLength_append front rest

theorem slice?_eq_some_iff {text middle : List Char} {start stop : Nat} :
    slice? text start stop = some middle ↔
      ∃ before after, text = before ++ (middle ++ after) ∧ byteLength before = start ∧
        byteLength before + byteLength middle = stop := by
  constructor
  · intro sliced
    unfold slice? at sliced
    split at sliced
    · rename_i ordered
      obtain ⟨rest, dropped, taken⟩ := Option.bind_eq_some_iff.mp sliced
      obtain ⟨before, split, length⟩ := dropBytes_eq_some_iff.mp dropped
      obtain ⟨after, splitRest, lengthRest⟩ := takeBytes_eq_some_iff.mp taken
      exact ⟨before, after, by rw [split, splitRest], length, by omega⟩
    · contradiction
  · rintro ⟨before, after, rfl, rfl, rfl⟩
    exact slice?_append before middle after

theorem byteLength_pos {text : List Char} (some : text ≠ []) : 0 < byteLength text := by
  obtain ⟨c, rest, rfl⟩ := List.exists_cons_of_ne_nil some
  have positive := c.utf8Size_pos
  rw [byteLength_cons]
  omega

theorem append_inj_byteLength {left right rest other : List Char}
    (same : left ++ rest = right ++ other) (length : byteLength left = byteLength right) :
    left = right ∧ rest = other := by
  have dropped : dropBytes (byteLength left) (left ++ rest) = some other := by
    rw [same, length]
    exact dropBytes_byteLength_append right other
  rw [dropBytes_byteLength_append] at dropped
  obtain rfl := Option.some.inj dropped
  exact ⟨List.append_cancel_right same, rfl⟩

theorem prefix_of_byteLength_le {left right rest other : List Char}
    (same : left ++ rest = right ++ other) (length : byteLength left ≤ byteLength right) :
    left <+: right := by
  rcases List.append_eq_append_iff.mp same with ⟨more, longer, _⟩ | ⟨more, shorter, _⟩
  · exact ⟨more, longer.symm⟩
  · have nothing : more = [] := by
      by_cases empty : more = []
      · exact empty
      · have positive := byteLength_pos empty
        rw [shorter, byteLength_append] at length
        omega
    exact ⟨[], by rw [shorter, nothing, List.append_nil, List.append_nil]⟩

end CanonicalMarkdown.Text

namespace CanonicalMarkdown.Source

open Text

variable {source : Source} {left right text : List Char} {start middle stop : Nat}

theorem slice?_eq_some_iff : source.slice? ⟨start, stop⟩ = some text ↔
    ∃ before after, source.chars = before ++ (text ++ after) ∧ byteLength before = start ∧
      byteLength before + byteLength text = stop := Text.slice?_eq_some_iff

theorem slice?_append (first : source.slice? ⟨start, middle⟩ = some left)
    (second : source.slice? ⟨middle, stop⟩ = some right) :
    source.slice? ⟨start, stop⟩ = some (left ++ right) := by
  obtain ⟨before, rest, split, rfl, rfl⟩ := slice?_eq_some_iff.mp first
  obtain ⟨front, after, splitFront, length, rfl⟩ := slice?_eq_some_iff.mp second
  rw [← byteLength_append] at length
  have same : (before ++ left) ++ rest = front ++ (right ++ after) := by
    rw [List.append_assoc, ← split, splitFront]
  obtain ⟨rfl, rfl⟩ := append_inj_byteLength same length.symm
  rw [slice?_eq_some_iff]
  exact ⟨before, after, by simp [split], rfl, by simp [Nat.add_assoc]⟩

theorem slice?_split (sliced : source.slice? ⟨start, stop⟩ = some (left ++ right)) :
    source.slice? ⟨start, start + byteLength left⟩ = some left ∧
      source.slice? ⟨start + byteLength left, stop⟩ = some right := by
  obtain ⟨before, after, split, rfl, rfl⟩ := slice?_eq_some_iff.mp sliced
  rw [slice?_eq_some_iff, slice?_eq_some_iff]
  refine ⟨⟨before, right ++ after, by simp [split], rfl, rfl⟩,
    ⟨before ++ left, after, by simp [split], by simp, ?_⟩⟩
  simp [Nat.add_assoc]

theorem slice?_empty (sliced : source.slice? ⟨start, stop⟩ = some text) :
    source.slice? ⟨start, start⟩ = some [] := by
  rw [← List.nil_append text] at sliced
  exact (slice?_split sliced).1

theorem length_slice? (sliced : source.slice? ⟨start, stop⟩ = some text) :
    start + byteLength text = stop := by
  obtain ⟨_, _, _, rfl, length⟩ := slice?_eq_some_iff.mp sliced
  exact length

theorem lt_of_slice? (sliced : source.slice? ⟨start, stop⟩ = some text) (some : text ≠ []) :
    start < stop := by
  have length := length_slice? sliced
  have positive := byteLength_pos some
  omega

theorem slice?_join {inner outer : Nat} (first : source.slice? ⟨start, inner⟩ = some left)
    (last : source.slice? ⟨outer, stop⟩ = some right) (ordered : start ≤ stop) :
    ∃ whole, source.slice? ⟨start, stop⟩ = some whole := by
  obtain ⟨before, rest, split, rfl, _⟩ := slice?_eq_some_iff.mp first
  obtain ⟨front, after, splitLast, rfl, rfl⟩ := slice?_eq_some_iff.mp last
  have same : before ++ (left ++ rest) = (front ++ right) ++ after := by
    rw [List.append_assoc, ← split, splitLast]
  rw [← byteLength_append] at ordered ⊢
  obtain ⟨whole, joined⟩ := prefix_of_byteLength_le same ordered
  refine ⟨whole, slice?_eq_some_iff.mpr ⟨before, after, ?_, rfl, ?_⟩⟩
  · rw [splitLast, ← List.append_assoc front, ← joined, List.append_assoc]
  · rw [← joined, byteLength_append]

theorem charAt?_eq_some {offset : Nat} {c : Char} (found : source.charAt? offset = some c) :
    ∃ before after, source.chars = before ++ c :: after ∧ byteLength before = offset := by
  unfold charAt? Source.after at found
  cases dropped : dropBytes offset source.chars with
  | none => simp [dropped] at found
  | some rest =>
    rw [dropped] at found
    obtain ⟨after, rfl⟩ := List.head?_eq_some_iff.mp found
    obtain ⟨before, split, length⟩ := dropBytes_eq_some_iff.mp dropped
    exact ⟨before, after, split, length⟩

theorem slice?_around {offset : Nat} {c : Char} (sliced : source.slice? ⟨start, stop⟩ = some text)
    (found : source.charAt? offset = some c) (from_start : start ≤ offset) (to_stop : offset < stop) :
    ∃ front back, text = front ++ c :: back ∧ start + byteLength front = offset := by
  obtain ⟨before, rest, split, rfl, rfl⟩ := slice?_eq_some_iff.mp sliced
  obtain ⟨upTo, after, splitAt, rfl⟩ := charAt?_eq_some found
  have same := split.symm.trans splitAt
  obtain ⟨front, rfl⟩ := prefix_of_byteLength_le same from_start
  rw [List.append_assoc] at same
  have inside := List.append_cancel_left same
  rw [byteLength_append] at to_stop ⊢
  obtain ⟨more, rfl⟩ := prefix_of_byteLength_le inside.symm (by omega)
  rw [List.append_assoc] at inside
  have behind := List.append_cancel_left inside
  cases more with
  | nil => simp at to_stop
  | cons first back =>
    obtain ⟨rfl, _⟩ := List.cons.inj behind
    exact ⟨front, back, rfl, rfl⟩

end CanonicalMarkdown.Source
