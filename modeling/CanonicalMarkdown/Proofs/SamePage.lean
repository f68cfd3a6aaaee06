import CanonicalMarkdown.Proofs.RuleSet

namespace CanonicalMarkdown

namespace Page

structure Same (left right : Page) : Prop where
  text : left.text = right.text
  padding : left.padding = right.padding
  onNewLine : left.onNewLine = right.onNewLine

theorem onNewLine_write_eq (page : Page) (text : String) :
    (page.write text).onNewLine = if text.isEmpty then page.onNewLine else Text.endsLine text := by
  unfold write
  split <;> rfl

namespace Same

variable {left right : Page}

theorem refl (page : Page) : page.Same page := ⟨rfl, rfl, rfl⟩

theorem symm (same : left.Same right) : right.Same left :=
  ⟨same.text.symm, same.padding.symm, same.onNewLine.symm⟩

theorem trans {other : Page} (first : left.Same right) (second : right.Same other) :
    left.Same other :=
  ⟨first.text.trans second.text, first.padding.trans second.padding,
    first.onNewLine.trans second.onNewLine⟩

theorem write (same : left.Same right) (text : String) :
    (left.write text).Same (right.write text) where
  text := by rw [text_write, text_write, same.text]
  padding := by rw [padding_write, padding_write, same.padding]
  onNewLine := by rw [onNewLine_write_eq, onNewLine_write_eq, same.onNewLine]

theorem write_append (page : Page) (first second : String) :
    ((page.write first).write second).Same (page.write (first ++ second)) where
  text := by simp only [text_write, String.append_assoc]
  padding := by simp only [padding_write]
  onNewLine := by
    simp only [onNewLine_write_eq]
    by_cases nothing : second = ""
    · subst nothing
      simp
    · have some : second.toList ≠ [] := by simpa using nothing
      have last : Text.endsLine (first ++ second) = Text.endsLine second := by
        rw [Text.endsLine, Text.endsLine, String.toList_append, List.getLast?_append,
          List.getLast?_eq_some_getLast some, Option.some_or]
      simp [nothing, last]

theorem writeAll (same : left.Same right) (texts : List String) :
    (left.writeAll texts).Same (right.writeAll texts) := by
  induction texts generalizing left right with
  | nil => exact same
  | cons text rest ih => exact ih (same.write text)

theorem withPadding (same : left.Same right) (padding : Padding) :
    { left with padding }.Same { right with padding } :=
  ⟨same.text, rfl, same.onNewLine⟩

theorem writePadding (same : left.Same right) : left.writePadding.Same right.writePadding := by
  rw [Page.writePadding, Page.writePadding, same.padding]
  exact (same.writeAll _).withPadding _

theorem writeBlankPadding (same : left.Same right) :
    left.writeBlankPadding.Same right.writeBlankPadding := by
  rw [Page.writeBlankPadding, Page.writeBlankPadding, same.padding]
  exact (same.writeAll _).withPadding _

theorem writeGap (same : left.Same right) (gap : Gap) :
    (left.writeGap gap).Same (right.writeGap gap) := by
  unfold Page.writeGap
  have begun : (if left.onNewLine then left.writeBlankPadding else left).Same
      (if right.onNewLine then right.writeBlankPadding else right) := by
    rw [same.onNewLine]
    split
    · exact same.writeBlankPadding
    · exact same
  dsimp only
  refine (Same.write ?_ "\n").writePadding
  split
  · exact (begun.write "\n").writeBlankPadding
  · exact begun

theorem truncate (same : left.Same right) (mark : Nat) :
    (left.truncate mark).Same (right.truncate mark) := by
  rw [Page.truncate, Page.truncate, same.padding]
  exact same.withPadding _

theorem applyAll (same : left.Same right) (strokes : List Stroke) :
    (left.applyAll strokes).1.Same (right.applyAll strokes).1 ∧
      (left.applyAll strokes).2 = (right.applyAll strokes).2 := by
  induction strokes generalizing left right with
  | nil => exact ⟨same, rfl⟩
  | cons stroke rest ih =>
    cases stroke with
    | text text => exact ih (same.write text)
    | padding => exact ih same.writePadding
    | blankPadding => exact ih same.writeBlankPadding
    | push level =>
      rw [Page.applyAll, Page.applyAll, Page.apply, Page.apply, same.padding]
      exact ih (same.withPadding _)
    | pop =>
      rw [Page.applyAll, Page.applyAll, Page.apply, Page.apply, same.padding]
      cases right.padding.pop with
      | error error => exact ⟨same, rfl⟩
      | ok padding => exact ih (same.withPadding padding)

theorem answer (same : left.Same right) (reply : Reply) :
    (left.answer reply).1.Same (right.answer reply).1 ∧
      (left.answer reply).2 = (right.answer reply).2 := by
  obtain ⟨pages, errors⟩ := same.applyAll reply.strokes
  unfold Page.answer
  generalize left.applyAll reply.strokes = applied at pages errors
  generalize right.applyAll reply.strokes = other at pages errors
  obtain ⟨page, error⟩ := applied
  obtain ⟨otherPage, _⟩ := other
  obtain rfl : error = _ := errors
  cases error <;> exact ⟨pages, rfl⟩

end Same

end Page

inductive Walked.Same : Walked → Walked → Prop
  | done {left right : Page} : left.Same right → Same (.done left) (.done right)
  | stopped {left right : Page} : left.Same right → Same (.stopped left) (.stopped right)
  | failed {left right : Page} (error : RenderError) :
      left.Same right → Same (.failed left error) (.failed right error)

theorem Walked.Same.andThen {left right : Walked} (same : left.Same right)
    {next other : Page → Walked}
    (more : ∀ {page otherPage : Page}, page.Same otherPage → (next page).Same (other otherPage)) :
    (left.andThen next).Same (right.andThen other) := by
  cases same with
  | done pages => exact more pages
  | stopped pages => exact .stopped pages
  | failed error pages => exact .failed error pages

namespace Renderer

variable {renderer : Renderer} {rules : RuleSet} {left right : Page}

theorem answer_same (follows : renderer.Follows rules) {view other : View} {phase : Phase}
    (replies : rules.reply view phase = rules.reply other phase) (pages : left.Same right) :
    (renderer.answer view phase left).1.Same (renderer.answer other phase right).1 ∧
      (renderer.answer view phase left).2 = (renderer.answer other phase right).2 := by
  rw [follows, follows, replies]
  exact pages.answer _

theorem depart_same (follows : renderer.Follows rules) {view other : View}
    (replies : rules.reply view .leave = rules.reply other .leave)
    (gaps : ∀ {page otherPage : Page}, page.Same otherPage →
      (renderer.writeGap view page).Same (renderer.writeGap other otherPage))
    (mark : Nat) (pages : left.Same right) :
    (renderer.depart view mark left).Same (renderer.depart other mark right) := by
  obtain ⟨answered, steps⟩ := answer_same follows replies pages
  unfold depart
  generalize renderer.answer view .leave left = answer at answered steps ⊢
  generalize renderer.answer other .leave right = otherAnswer at answered steps ⊢
  obtain ⟨page, step⟩ := answer
  obtain ⟨otherPage, _⟩ := otherAnswer
  obtain rfl : step = _ := steps
  rcases step with error | (_ | _ | _)
  · exact .failed error answered
  · exact .done (gaps (answered.truncate mark))
  · exact .done (gaps (answered.truncate mark))
  · exact .stopped answered

/-- Nodes that the rules and the gaps answer alike are walked alike, if those below them are. -/
theorem walk_same (follows : renderer.Follows rules) {source : Source}
    {ancestors others : List Place} {place other : Place}
    (replies : ∀ phase, rules.reply ⟨source, place, ancestors⟩ phase =
      rules.reply ⟨source, other, others⟩ phase)
    (gaps : ∀ {page otherPage : Page}, page.Same otherPage →
      (renderer.writeGap ⟨source, place, ancestors⟩ page).Same
        (renderer.writeGap ⟨source, other, others⟩ otherPage))
    (below : ∀ {page otherPage : Page}, page.Same otherPage →
      (renderer.walkAll source (place :: ancestors) [] place.node.children page).Same
        (renderer.walkAll source (other :: others) [] other.node.children otherPage))
    (pages : left.Same right) :
    (renderer.walk source ancestors place.earlier place.later place.node left).Same
      (renderer.walk source others other.earlier other.later other.node right) := by
  obtain ⟨answered, steps⟩ := answer_same follows (replies .enter) pages
  obtain ⟨⟨payload, span, attributes, children⟩, earlier, later⟩ := place
  obtain ⟨⟨otherPayload, otherSpan, otherAttributes, otherChildren⟩, otherEarlier, otherLater⟩ :=
    other
  have departs {page otherPage : Page} (pages : page.Same otherPage) :=
    depart_same follows (replies .leave) gaps right.padding.depth pages
  rw [walk, walk, pages.padding]
  dsimp only at answered steps ⊢
  generalize renderer.answer _ .enter left = answer at answered steps ⊢
  generalize renderer.answer _ .enter right = otherAnswer at answered steps ⊢
  obtain ⟨page, step⟩ := answer
  obtain ⟨otherPage, _⟩ := otherAnswer
  obtain rfl : step = _ := steps
  rcases step with error | (_ | _ | _)
  · exact .failed error answered
  · exact (below answered).andThen departs
  · exact departs answered
  · exact .stopped answered

theorem run_eq_walkAll (renderer : Renderer) (document : Document) :
    renderer.run document = renderer.walkAll document.source [] [] [document.root]
      { padding := { verbose := renderer.verbosePadding } } := by
  rw [run, walkAll]
  generalize renderer.walk _ _ _ _ _ _ = walked
  cases walked <;> rfl

theorem render_same {document other : Document}
    (same : (renderer.run document).Same (renderer.run other)) :
    renderer.render document = renderer.render other := by
  unfold render
  generalize renderer.run document = walked at same ⊢
  generalize renderer.run other = otherWalked at same ⊢
  cases same with
  | done pages | stopped pages => exact congrArg Except.ok pages.text
  | failed error _ => rfl

end Renderer

end CanonicalMarkdown
