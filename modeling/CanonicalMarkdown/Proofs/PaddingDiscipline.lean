import CanonicalMarkdown.Proofs.Html.RuleSet
import CanonicalMarkdown.Proofs.Markdown.RuleSet
import CanonicalMarkdown.Proofs.WalkOrder

namespace CanonicalMarkdown

namespace Renderer

theorem depth_depart {renderer : Renderer} {view : View} {mark : Nat} {page final : Page}
    (done : renderer.depart view mark page = .done final) : final.padding.depth ≤ mark := by
  unfold depart at done
  split at done
  · contradiction
  · contradiction
  · rename_i left step _ _
    cases done
    have gap : (renderer.writeGap view (left.truncate mark)).padding.depth =
        (left.truncate mark).padding.depth :=
      congrArg List.length (renderer.levels_writeGap view (left.truncate mark))
    rw [gap]
    exact left.depth_truncate_le mark

theorem depth_walk {renderer : Renderer} {source : Source} {ancestors : List Place}
    {earlier later : List Node} {node : Node} {page final : Page}
    (done : renderer.walk source ancestors earlier later node page = .done final) :
    final.padding.depth ≤ page.padding.depth := by
  obtain ⟨payload, span, attributes, children⟩ := node
  rw [walk] at done
  split at done
  · contradiction
  · contradiction
  · exact depth_depart done
  · rename_i entered answered
    cases below : renderer.walkAll source
        (⟨⟨payload, span, attributes, children⟩, earlier, later⟩ :: ancestors) [] children
        entered with
    | done between =>
      rw [below] at done
      exact depth_depart done
    | stopped between =>
      rw [below] at done
      contradiction
    | failed between error =>
      rw [below] at done
      contradiction

theorem depth_run {renderer : Renderer} {document : Document} {final : Page}
    (done : renderer.run document = .done final) : final.padding.depth = 0 :=
  Nat.le_zero.mp (depth_walk done)

theorem levels_walk {renderer : Renderer} {rules : RuleSet} (follows : renderer.Follows rules)
    (source : Source) (ancestors : List Place) (earlier later : List Node) (node : Node)
    (page : Page) :
    (∃ final, renderer.walk source ancestors earlier later node page = .done final ∧
      final.padding.levels = page.padding.levels) ∨
    (∃ final error, renderer.walk source ancestors earlier later node page = .failed final error ∧
      error ≠ .paddingUnderflow) := by
  have ends := renderer.walk_ends follows source ancestors earlier later node page
  cases first : (node.visits rules.hides source ancestors earlier later).findSome?
      rules.complaint with
  | none =>
    rw [first] at ends
    exact .inl ends.done
  | some error =>
    rw [first] at ends
    obtain ⟨final, failed⟩ := ends.failed
    obtain ⟨visit, _, complained⟩ := List.exists_of_findSome?_eq_some first
    refine .inr ⟨final, error, failed, fun underflow => ?_⟩
    exact rules.complaint_ne_paddingUnderflow visit (by rw [complained, underflow])

/-- A walk never leaves more levels open than it found, whatever the rules open, close or answer,
    and a render that goes through leaves none. The Markdown rules alone and the HTML rules alone
    restore the very levels they found at every node of every tree, and never close a level when
    none is open. -/
theorem padding_discipline :
    (∀ (renderer : Renderer) source ancestors earlier later node page final,
      renderer.walk source ancestors earlier later node page = .done final →
      final.padding.depth ≤ page.padding.depth) ∧
    (∀ (renderer : Renderer) document final,
      renderer.run document = .done final → final.padding.depth = 0) ∧
    (∀ (renderer : Renderer) priority,
      DispatchTable.ofProviders [Markdown.provider priority] = .ok renderer.table ∨
        DispatchTable.ofProviders [Html.provider priority] = .ok renderer.table →
      ∀ source ancestors earlier later node page,
        (∃ final, renderer.walk source ancestors earlier later node page = .done final ∧
          final.padding.levels = page.padding.levels) ∨
        (∃ final error,
          renderer.walk source ancestors earlier later node page = .failed final error ∧
          error ≠ .paddingUnderflow)) := by
  refine ⟨?_, ?_, ?_⟩
  · intro renderer source ancestors earlier later node page final done
    exact depth_walk done
  · intro renderer document final done
    exact depth_run done
  · intro renderer priority alone
    rcases alone with markdown | html
    · exact levels_walk (Markdown.follows markdown)
    · exact levels_walk (Html.follows html)

def quotedItem : Node :=
  let words : List Node :=
    [.leaf (.text ⟨⟨0, 0⟩, "a", false, true, false⟩) ⟨0, 0⟩, .leaf (.string "b") ⟨0, 0⟩]
  let item : Node := ⟨.listItem 2, ⟨0, 0⟩, {}, [⟨.paragraph, ⟨0, 0⟩, {}, words⟩]⟩
  ⟨.blockquote, ⟨0, 0⟩, {}, [⟨.list ⟨none, '-', true, false⟩, ⟨0, 0⟩, {}, [item]⟩]⟩

theorem padding_discipline_quotedItem :
    let renderer : Renderer := { table := Markdown.table, separators := true }
    let indented : Page := { padding := { levels := ["  "] } }
    (∃ final, renderer.run ⟨⟨[]⟩, quotedItem⟩ = .done final ∧ final.text = "> - a\n>   b" ∧
      final.padding.depth = 0) ∧
    (∃ final, renderer.walk ⟨[]⟩ [] [] [] quotedItem indented = .done final ∧
      final.text = "> - a\n  >   b" ∧ final.padding.levels = ["  "] ∧ final.padding.depth ≤ 1) := by
  intro renderer indented
  obtain ⟨depth_walk, depth_run, levels⟩ := padding_discipline
  have alone := Markdown.ofProviders_provider 500
  refine ⟨⟨_, rfl, by decide, depth_run renderer ⟨⟨[]⟩, quotedItem⟩ _ rfl⟩, ?_⟩
  rcases levels renderer 500 (.inl alone) ⟨[]⟩ [] [] [] quotedItem indented with
    ⟨final, done, same⟩ | ⟨final, error, failed, _⟩
  · have written : (renderer.walk ⟨[]⟩ [] [] [] quotedItem indented).page.text =
        "> - a\n  >   b" := by decide
    rw [done] at written
    exact ⟨final, done, written, same, depth_walk _ _ _ _ _ _ _ _ done⟩
  · cases (show _ = Walked.failed final error from failed)

end Renderer

end CanonicalMarkdown
