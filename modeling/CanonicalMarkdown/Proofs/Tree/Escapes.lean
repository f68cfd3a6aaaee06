import CanonicalMarkdown.Proofs.ConversionSafety
import CanonicalMarkdown.Proofs.Tree.SourceOrder

namespace CanonicalMarkdown

open Text

/-- The segment of a text holds the character at an offset of the source. -/
def Keeps (source : Source) (nodes : List Node) (offset : Nat) (c : Char) : Prop :=
  ∃ segment ∈ allSegments nodes, ∃ front back,
    source.slice? segment = some (front ++ c :: back) ∧ segment.start + byteLength front = offset

section keeps

variable {source : Source} {offset start stop : Nat} {c : Char} {nodes left right : List Node}

theorem keeps_append : Keeps source (left ++ right) offset c ↔
    Keeps source left offset c ∨ Keeps source right offset c := by
  simp only [Keeps, allSegments_append, List.mem_append, or_and_right, exists_or]

theorem keeps_of_slice {span : Span} {text : List Char} (sliced : source.slice? span = some text)
    (found : source.charAt? offset = some c) (begun : span.start ≤ offset)
    (inside : offset < span.stop) (member : span ∈ allSegments nodes) :
    Keeps source nodes offset c := by
  obtain ⟨front, back, rfl, length⟩ := Source.slice?_around sliced found begun inside
  exact ⟨span, member, front, back, sliced, length⟩

theorem Keeps.inside (keeps : Keeps source nodes offset c) (inOrder : InOrder start nodes stop) :
    start ≤ offset ∧ offset < stop := by
  obtain ⟨segment, member, front, back, sliced, length⟩ := keeps
  have lies := inOrder.segments.inside segment member
  have whole := Source.length_slice? sliced
  have positive := c.utf8Size_pos
  have starts := lies.starts
  have stops := lies.stops
  rw [byteLength_append, byteLength_cons] at whole
  omega

theorem keeps_addBreak (nodes : List Node) (lineBreak : LineBreak) :
    Keeps source (addBreak nodes lineBreak) offset c ↔ Keeps source nodes offset c := by
  have segment (run : TextRun) : (run.withBreak lineBreak.hard).segment = run.segment := by
    cases lineBreak.hard <;> rfl
  unfold addBreak
  split
  · rename_i run span attributes children last
    obtain ⟨front, rfl⟩ := List.getLast?_eq_some_iff.mp last
    rw [List.dropLast_concat, keeps_append, keeps_append]
    simp [Keeps, allSegments, Node.segments, Payload.segment?, segment]
  · rw [keeps_append]
    refine or_iff_left ?_
    rintro ⟨empty, member, front, back, sliced, -⟩
    have same : empty = ⟨lineBreak.offset, lineBreak.offset⟩ := by
      simpa [allSegments, Node.segments, Node.leaf, Payload.segment?, segment] using member
    rw [same] at sliced
    have forward := Source.lt_of_slice? sliced (by simp)
    exact Nat.lt_irrefl _ forward

theorem Tiles.keeps {run : List Piece} (tiles : Tiles source run start nodes stop)
    (found : source.charAt? offset = some c) (begun : start ≤ offset) (inside : offset < stop) :
    Keeps source nodes offset c := by
  induction tiles with
  | nil => omega
  | @text start middle stop part literal rest sliced _ _ _ ih =>
    rw [← List.singleton_append, keeps_append]
    by_cases here : offset < middle
    · exact .inl (keeps_of_slice sliced found begun here (List.mem_singleton_self _))
    · exact .inr (ih (Nat.le_of_not_lt here) inside)
  | @url start middle stop part literal rest sliced _ _ _ ih =>
    rw [← List.singleton_append, keeps_append]
    by_cases here : offset < middle
    · exact .inl (keeps_of_slice sliced found begun here (List.mem_singleton_self _))
    · exact .inr (ih (Nat.le_of_not_lt here) inside)

end keeps

section run

variable {source : Source} {run : List Piece} {first last : Piece}

theorem piece_liesIn (sliced : ∀ piece ∈ run, ∃ text, source.slice? piece.span = some text)
    (follow : run.Pairwise fun left right => left.span.stop ≤ right.span.start)
    (head : run.head? = some first) (final : run.getLast? = some last) {piece : Piece}
    (member : piece ∈ run) : piece.span.LiesIn first.span.start last.span.stop := by
  have ordered {piece : Piece} (member : piece ∈ run) : piece.span.start ≤ piece.span.stop := by
    obtain ⟨text, slice⟩ := sliced piece member
    have length : piece.span.start + byteLength text = piece.span.stop := Source.length_slice? slice
    omega
  refine ⟨?_, ordered member, ?_⟩
  · have begins := ordered (List.mem_of_head? head)
    obtain ⟨rest, rfl⟩ := List.head?_eq_some_iff.mp head
    rcases List.mem_cons.mp member with rfl | member
    · exact Nat.le_refl _
    · exact Nat.le_trans begins ((List.pairwise_cons.mp follow).1 piece member)
  · have ends := ordered (List.mem_of_getLast? final)
    obtain ⟨front, rfl⟩ := List.getLast?_eq_some_iff.mp final
    rcases List.mem_append.mp member with member | member
    · exact Nat.le_trans ((List.pairwise_append.mp follow).2.2 piece member last (by simp)) ends
    · exact Nat.le_of_eq (congrArg (·.span.stop) (List.mem_singleton.mp member))

/-- The texts of a run keep a character of the source just if the run reaches around it. -/
theorem keeps_runNodes_iff (linkify : Bool)
    (sliced : ∀ piece ∈ run, ∃ text, source.slice? piece.span = some text)
    (follow : run.Pairwise fun left right => left.span.stop ≤ right.span.start)
    (head : run.head? = some first) (final : run.getLast? = some last) {offset : Nat} {c : Char}
    (found : source.charAt? offset = some c) :
    Keeps source (runNodes source linkify run) offset c ↔
      first.span.start ≤ offset ∧ offset < last.span.stop := by
  have lies {piece : Piece} (member : piece ∈ run) := piece_liesIn sliced follow head final member
  have ends := lies (List.mem_of_getLast? final)
  have ordered := Nat.le_trans ends.starts ends.ordered
  constructor
  · intro keeps
    exact keeps.inside (inOrder_runNodes source linkify ordered fun _ member => lies member)
  · rintro ⟨begun, inside⟩
    obtain ⟨_, begins⟩ := sliced first (List.mem_of_head? head)
    obtain ⟨_, finishes⟩ := sliced last (List.mem_of_getLast? final)
    obtain ⟨whole, joined⟩ := Source.slice?_join begins finishes ordered
    obtain ⟨tiles, rest, unread⟩ := tiles_of_slice? joined linkify run
    rw [runNodes_eq source linkify head final]
    dsimp only
    rw [Nat.max_eq_left ordered]
    generalize splitAtUrls source run first.span.start
      (runUrls source linkify first.span.start last.span.stop) = split at tiles unread ⊢
    -- the addresses reach up to an offset, and a last text holds what is behind it
    by_cases here : offset < split.2
    · have front := tiles.keeps found begun here
      by_cases more : (split.2 < last.span.stop || split.1.isEmpty) = true
      · rw [if_pos more]
        exact keeps_append.mpr (.inl front)
      · rwa [if_neg more]
    · have behind := Nat.le_of_not_lt here
      rw [if_pos (by simp [Nat.lt_of_le_of_lt behind inside])]
      exact keeps_append.mpr
        (.inr (keeps_of_slice unread found behind inside (List.mem_singleton_self _)))

/-- The texts of a run keep the backslash in front of a piece just if the run starts before the
    piece. -/
theorem keeps_escape_iff (source : Source) (linkify : Bool) {run : List Piece}
    (lineBreak : Option LineBreak)
    (sliced : ∀ piece ∈ run, ∃ text, source.slice? piece.span = some text)
    (follow : run.Pairwise fun left right => left.span.stop ≤ right.span.start)
    {piece : Piece} (member : piece ∈ run) {offset : Nat} (behind : piece.span.start = offset + 1)
    (escape : source.charAt? offset = some '\\') :
    Keeps source (inlineNodes source linkify run lineBreak) offset '\\' ↔
      ∃ first, run.head? = some first ∧ first.span.start < piece.span.start := by
  have some : run ≠ [] := List.ne_nil_of_mem member
  obtain ⟨first, rest, cons⟩ := List.exists_cons_of_ne_nil some
  have head : run.head? = .some first := by rw [cons]; rfl
  obtain ⟨last, final⟩ : ∃ last, run.getLast? = .some last :=
    ⟨_, List.getLast?_eq_some_getLast some⟩
  have lies := piece_liesIn sliced follow head final member
  have inside : offset < last.span.stop := by
    have ordered := lies.ordered
    have stops := lies.stops
    omega
  have nodes : Keeps source (inlineNodes source linkify run lineBreak) offset '\\' ↔
      Keeps source (runNodes source linkify run) offset '\\' := by
    cases lineBreak with
    | none => exact Iff.rfl
    | some lineBreak => exact keeps_addBreak _ lineBreak
  rw [nodes, keeps_runNodes_iff linkify sliced follow head final escape, and_iff_left inside]
  constructor
  · intro begun
    exact ⟨first, head, by omega⟩
  · rintro ⟨other, same, before⟩
    obtain rfl := Option.some.inj (head.symm.trans same)
    omega

theorem keeps_escape_innerPiece :
    Source.charAt? (.ofString "a \\# b") 2 = some '\\' ∧
    inlineNodes (.ofString "a \\# b") true [⟨⟨0, 2⟩, "a "⟩, ⟨⟨3, 6⟩, "# b"⟩] (some ⟨6, true⟩) =
      [.leaf (.text { segment := ⟨0, 6⟩, literal := "a # b", hardBreak := true }) ⟨0, 6⟩] ∧
    Keeps (.ofString "a \\# b")
      (inlineNodes (.ofString "a \\# b") true [⟨⟨0, 2⟩, "a "⟩, ⟨⟨3, 6⟩, "# b"⟩] (some ⟨6, true⟩))
      2 '\\' := by
  have escape : Source.charAt? (.ofString "a \\# b") 2 = some '\\' := rfl
  have member : (⟨⟨3, 6⟩, "# b"⟩ : Piece) ∈ [⟨⟨0, 2⟩, "a "⟩, ⟨⟨3, 6⟩, "# b"⟩] := by simp
  refine ⟨escape, rfl, (keeps_escape_iff (.ofString "a \\# b") true (some ⟨6, true⟩) ?_ ?_
    member rfl escape).mpr ⟨_, rfl, by decide⟩⟩
  · exact List.forall_mem_cons.mpr ⟨⟨_, rfl⟩, List.forall_mem_cons.mpr ⟨⟨_, rfl⟩, by simp⟩⟩
  · decide

def escapedSign : List Event :=
  [⟨.start .paragraph, ⟨0, 4⟩⟩, ⟨.text "# a", ⟨1, 4⟩⟩, ⟨.close, ⟨0, 4⟩⟩]

/-- In front of the first piece an escape is lost, and what is written reads as a heading. -/
theorem escape_lost_escapedSign :
    Source.charAt? (.ofString "\\# a") 0 = some '\\' ∧
    Source.slice? (.ofString "\\# a") ⟨1, 4⟩ = some "# a".toList ∧
    ¬ Keeps (.ofString "\\# a")
      (inlineNodes (.ofString "\\# a") true [⟨⟨1, 4⟩, "# a"⟩] none) 0 '\\' ∧
    ∃ conversion, Conversion.ofOptions .markdown {} = .ok conversion ∧
      conversion.convert (.ofString "\\# a") escapedSign = .ok "# a" := by
  refine ⟨rfl, rfl, ?_, _, Conversion.ofOptions_markdown {}, rfl⟩
  intro keeps
  have inOrder : InOrder 1 (inlineNodes (.ofString "\\# a") true [⟨⟨1, 4⟩, "# a"⟩] none) 4 :=
    .ofText ⟨1, 4⟩ "# a" (by decide)
  have inside := keeps.inside inOrder
  omega

end run

end CanonicalMarkdown
