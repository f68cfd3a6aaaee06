import CanonicalMarkdown.Proofs.Text.Slices
import CanonicalMarkdown.Tree.BareUrl

namespace CanonicalMarkdown.BareUrl

open Text

/-- Spans of nonempty parts of a text that starts at an offset, in order and without overlap. -/
inductive PartsOf : Nat → List Char → List Span → Prop
  | nil {offset : Nat} {text : List Char} : PartsOf offset text []
  | cons {offset : Nat} {before part after : List Char} {more : List Span} :
      part ≠ [] → PartsOf (offset + byteLength before + byteLength part) after more →
      PartsOf offset (before ++ (part ++ after))
        (⟨offset + byteLength before, offset + byteLength before + byteLength part⟩ :: more)

theorem PartsOf.behind {offset : Nat} {front text : List Char} {spans : List Span}
    (parts : PartsOf (offset + byteLength front) text spans) :
    PartsOf offset (front ++ text) spans := by
  cases parts with
  | nil => exact .nil
  | @cons _ before part after more some rest =>
    have shifted : offset + byteLength front + byteLength before =
        offset + byteLength (front ++ before) := by
      rw [byteLength_append, Nat.add_assoc]
    rw [shifted] at rest ⊢
    rw [← List.append_assoc]
    exact .cons some rest

theorem PartsOf.behindChar {offset : Nat} {c : Char} {text : List Char} {spans : List Span}
    (parts : PartsOf (offset + c.utf8Size) text spans) : PartsOf offset (c :: text) spans := by
  rw [← List.singleton_append]
  exact .behind (by simpa using parts)

theorem trimBackwards_suffix (url : List Char) : trimBackwards url <:+ url := by
  fun_induction trimBackwards url with
  | case1 => exact List.suffix_refl []
  | case2 last front _ ih => exact ih.trans (List.suffix_cons last front)
  | case3 last front _ => exact List.suffix_refl _

theorem withoutTrailing_prefix (url : List Char) : withoutTrailing url <+: url := by
  have backwards := trimBackwards_suffix url.reverse
  rw [← List.reverse_prefix, List.reverse_reverse] at backwards
  exact backwards

theorem withoutTrailing_concat (front : List Char) (last : Char) :
    withoutTrailing (front ++ [last]) =
      if isTrailing last ||
          (last = ')' && (front ++ [last]).count '(' < (front ++ [last]).count ')') then
        withoutTrailing front
      else front ++ [last] := by
  have counts (c : Char) : (front ++ [last]).count c = (last :: front.reverse).count c := by
    rw [← List.count_reverse]
    simp
  rw [counts, counts, withoutTrailing, List.reverse_append, List.reverse_singleton,
    List.singleton_append, trimBackwards]
  split
  · rfl
  · simp

theorem url?_eq_some {candidate : Candidate} {span : Span} (found : url? candidate = some span) :
    withoutTrailing candidate.text ≠ [] ∧
      span = ⟨candidate.offset,
        candidate.offset + byteLength (withoutTrailing candidate.text)⟩ := by
  unfold url? at found
  dsimp only at found
  split at found
  · rename_i long
    refine ⟨?_, (Option.some.inj found).symm⟩
    intro empty
    simp [empty] at long
  · contradiction

/-- A part of a text that an address before it may still cover. -/
def Covered (front : List Char) : Prop := ∀ c ∈ front, isDelimiter c = false

theorem Covered.eq_nil {front rest more : List Char} {c : Char} (covered : Covered front)
    (delimiter : isDelimiter c = true) (split : c :: more = front ++ rest) : front = [] := by
  cases front with
  | nil => rfl
  | cons first others =>
    obtain ⟨rfl, _⟩ := List.cons.inj split
    rw [covered c (List.mem_cons_self ..)] at delimiter
    contradiction

def Behind (offset : Nat) (text : List Char) (spans : List Span) : Prop :=
  ∀ front rest, text = front ++ rest → Covered front →
    PartsOf (offset + byteLength front) rest spans

theorem Behind.partsOf {offset : Nat} {text : List Char} {spans : List Span}
    (behind : Behind offset text spans) : PartsOf offset text spans :=
  behind [] text rfl (by simp [Covered])

theorem partsOf_candidate {before? : Option Char} {offset : Nat} {c : Char} {more : List Char}
    {span : Span} {spans : List Span}
    (found : url? ⟨before?, offset, (c :: more).takeWhile fun c => !isDelimiter c⟩ = some span)
    (behind : Behind (offset + c.utf8Size) more spans) :
    PartsOf offset (c :: more) (span :: spans) := by
  obtain ⟨some, rfl⟩ := url?_eq_some found
  have covered : Covered ((c :: more).takeWhile fun c => !isDelimiter c) := fun other member => by
    simpa using List.all_eq_true.mp List.all_takeWhile other member
  have whole : (c :: more).takeWhile (fun c => !isDelimiter c) ++
      (c :: more).dropWhile (fun c => !isDelimiter c) = c :: more := List.takeWhile_append_dropWhile
  dsimp only at some ⊢
  obtain ⟨trailing, cut⟩ := withoutTrailing_prefix ((c :: more).takeWhile fun c => !isDelimiter c)
  generalize withoutTrailing ((c :: more).takeWhile fun c => !isDelimiter c) = url at some cut ⊢
  rw [← cut, List.append_assoc] at whole
  rw [← cut] at covered
  obtain ⟨first, others, rfl⟩ := List.exists_cons_of_ne_nil some
  obtain ⟨rfl, tail⟩ := List.cons.inj whole
  have parts := behind others _ tail.symm fun other member => covered other (by simp [member])
  rw [← whole]
  exact @PartsOf.cons offset [] _ _ _ some (by simpa [Nat.add_assoc] using parts)

theorem partsOf_candidates (offset : Nat) (before? : Option Char) (inside : Bool)
    (text : List Char) :
    PartsOf offset text ((candidates offset before? inside text).filterMap url?) ∧
      (inside = true →
        Behind offset text ((candidates offset before? inside text).filterMap url?)) := by
  fun_induction candidates offset before? inside text with
  | case1 => exact ⟨.nil, fun _ _ _ _ _ => .nil⟩
  | case2 offset before? inside c more delimiter ih =>
    have parts := PartsOf.behindChar ih.1
    refine ⟨parts, fun _ front rest split covered => ?_⟩
    obtain rfl := covered.eq_nil delimiter split
    rw [List.nil_append] at split
    rwa [← split]
  | case3 offset before? c more word ih =>
    have behind := ih.2 rfl
    refine ⟨.behindChar behind.partsOf, fun _ front rest split covered => ?_⟩
    cases front with
    | nil =>
      rw [List.nil_append] at split
      rw [← split]
      exact .behindChar behind.partsOf
    | cons first others =>
      obtain ⟨rfl, tail⟩ := List.cons.inj split
      rw [byteLength_cons, ← Nat.add_assoc]
      exact behind others rest tail fun other member => covered other (List.mem_cons_of_mem _ member)
  | case4 offset before? inside c more word outside starts ih =>
    refine ⟨?_, fun within => absurd within outside⟩
    cases found : url? ⟨before?, offset, (c :: more).takeWhile fun c => !isDelimiter c⟩ with
    | none =>
      rw [List.filterMap_cons_none found]
      exact .behindChar ih.1
    | some span =>
      rw [List.filterMap_cons_some found]
      exact partsOf_candidate found (ih.2 rfl)
  | case5 offset before? inside c more word outside starts ih =>
    exact ⟨.behindChar ih.1, fun within => absurd within outside⟩

theorem partsOf_find {source : Source} {span : Span} {text : List Char}
    (sliced : source.slice? span = some text) : PartsOf span.start text (find source span) := by
  rw [find, sliced]
  exact (partsOf_candidates span.start none false text).1

end CanonicalMarkdown.BareUrl
