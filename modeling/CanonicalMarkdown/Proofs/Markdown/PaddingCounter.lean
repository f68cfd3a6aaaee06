import CanonicalMarkdown.Proofs.Markdown.TidyRules
import CanonicalMarkdown.Proofs.Misplacement
import CanonicalMarkdown.Proofs.PaddingCounter

namespace CanonicalMarkdown.Markdown

theorem textBound_paddedLines (lines : List String) : TextBound (paddedLines lines) := by
  fun_induction paddedLines lines with
  | case1 => exact .nil
  | case2 line => exact .text .nil
  | case3 line rest _ ih => exact .text (.padding ih)

theorem textBound_paddedText (text : String) : TextBound (paddedText text) :=
  textBound_paddedLines (Text.linesOf text)

theorem textBound_endLine (last : Option String) : TextBound (endLine last) := by
  unfold endLine
  split
  · exact .text .nil
  · exact .nil

theorem textBound_contentLine (line : String) : TextBound [linePadding line, .text line] := by
  by_cases empty : line = "\n"
  · subst empty
    exact .blankLine (by decide) .nil
  · rw [linePadding_of_ne empty]
    exact .padding (.text .nil)

theorem textBound_indentedLine (line : String) : TextBound (indentedLine line) := by
  unfold indentedLine
  split
  · exact .text .nil
  · exact .text (.text .nil)

theorem textBound_paddedIndentedLine (line : String) :
    TextBound (linePadding line :: indentedLine line) := by
  by_cases empty : line = "\n"
  · subst empty
    exact .blankLine (by decide) .nil
  · rw [linePadding_of_ne empty]
    exact .padding (textBound_indentedLine line)

theorem textBound_indentedCode (lines : List String) : TextBound (indentedCode lines) := by
  cases lines with
  | nil => exact .nil
  | cons first rest =>
    exact ((textBound_indentedLine first).append
      (.flatMap textBound_paddedIndentedLine rest)).append (textBound_endLine _)

theorem textBound_fenceOpening (fence : Fence) (info : String) (lines : List String) :
    TextBound (fenceOpening fence info lines) :=
  .text (.text (.text (.flatMap textBound_contentLine lines)))

theorem textBound_fenceClosing (fence : Fence) (lines : List String) :
    TextBound (fenceClosing fence lines) :=
  (textBound_endLine _).append (.padding (.text .nil))

theorem textBound_htmlLines (lines : List String) : TextBound (htmlLines lines) := by
  cases lines with
  | nil => exact .nil
  | cons first rest => exact .text (.flatMap textBound_contentLine rest)

theorem textBound_htmlClosure (lines : List String) (closure : Option String) :
    TextBound (htmlClosure lines closure) := by
  cases closure with
  | none => exact textBound_endLine _
  | some closure =>
    refine TextBound.append ?_ (.text (textBound_endLine _))
    split
    · exact .nil
    · exact .padding .nil

theorem textBound_itemReply (view : View) (offset : Nat) (phase : Phase) :
    TextBound (itemReply view offset phase).strokes := by
  unfold itemReply
  split
  · exact .nil
  · split
    · exact .text (.push (itemMarker_ne_empty _ _ _) .nil)
    · exact .pop .nil
    · exact .nil

theorem textBound_tableHeadEnd (view : View) : TextBound (tableHeadEnd view).strokes := by
  unfold tableHeadEnd
  split
  · exact TextBound.append (.text (.padding (.text .nil)))
      (.flatMap (fun _ => .text (.text (.text .nil))) _)
  · exact .nil

theorem textBound_runText (source : Source) (run : TextRun) : TextBound (runText source run) := by
  unfold runText
  dsimp only
  split
  · exact textBound_paddedText _
  · split <;> exact .text .nil

theorem textBound_runBreak (view : View) (run : TextRun) : TextBound (runBreak view run) := by
  unfold runBreak
  split
  · exact .nil
  · split
    · exact .text .nil
    · split
      · exact .text (.text (.padding .nil))
      · exact .text (.padding .nil)

theorem textBound_codeSpanChild (source : Source) (child : Node) :
    TextBound (codeSpanChild source child) := by
  unfold codeSpanChild
  split
  · exact textBound_paddedText _
  · exact .text .nil
  · exact .nil

theorem textBound_targetStrokes (target : LinkTarget) : TextBound (targetStrokes target) := by
  unfold targetStrokes
  cases target.title with
  | none => exact .text (.text (.text .nil))
  | some title => exact .text (.text (.text (.text (.text .nil))))

theorem textBound_imageDescription (source : Source) (children : List Node) :
    TextBound (imageDescription source children) := by
  unfold imageDescription
  split
  · exact textBound_paddedText _
  · exact .nil

theorem textBound_autoLinkText (source : Source) (span : Span) (url : String) :
    TextBound (autoLinkText source span url) := by
  unfold autoLinkText
  dsimp only
  split
  · exact .text (.text (.text .nil))
  · exact .text .nil

theorem textBound_headingAttributes (attributes : Attributes) :
    TextBound (headingAttributes attributes) := by
  unfold headingAttributes
  split
  · exact .nil
  · exact .text (.text (.text .nil))

theorem textBound_enter (view : View) : TextBound (enter view).strokes := by
  unfold enter
  cases view.node.payload with
  | heading | thematicBreak | tableHead | tableRow | tableCell | string | emphasis | link =>
    repeat apply TextBound.text
    exact .nil
  | blockquote | definitionDetails => exact .push (by decide) .nil
  | codeBlock lines => exact textBound_indentedCode lines
  | fencedCodeBlock info lines contentEnd => exact textBound_fenceOpening _ info lines
  | htmlBlock lines closure => exact textBound_htmlLines lines
  | listItem offset => exact textBound_itemReply view offset .enter
  | text run => exact (textBound_runText view.source run).append (textBound_runBreak view run)
  | codeSpan delimiter =>
    exact TextBound.append
      (.text (.flatMap (textBound_codeSpanChild view.source) view.node.children)) (.text .nil)
  | image target =>
    exact TextBound.append (.text (textBound_imageDescription _ _)) (textBound_targetStrokes target)
  | autoLink url email => exact textBound_autoLinkText _ _ url
  | rawHtml segments => exact .map_text segments
  | document | paragraph | list | table | definitionList | definitionTerm => exact .nil

theorem textBound_leave (view : View) : TextBound (leave view).strokes := by
  unfold leave
  cases view.node.payload with
  | heading level => exact textBound_headingAttributes _
  | blockquote | definitionDetails => exact .pop .nil
  | fencedCodeBlock info lines contentEnd => exact textBound_fenceClosing _ lines
  | htmlBlock lines closure => exact textBound_htmlClosure lines closure
  | listItem offset => exact textBound_itemReply view offset .leave
  | tableHead => exact textBound_tableHeadEnd view
  | tableCell | emphasis => exact .text .nil
  | link target => exact textBound_targetStrokes target
  | _ => exact .nil

theorem textBound_reply (view : View) : ∀ phase, TextBound (reply view phase).strokes
  | .enter => textBound_enter view
  | .leave => textBound_leave view

/-- A verbose rendering puts the numbers from zero on in front of its paddings, full and blank, in
    their order. Without the numbers it is the rendering that is not verbose. -/
theorem verbose_inserts_numbers (renderer : Renderer) (priority : Int)
    (alone : DispatchTable.ofProviders [provider priority] = .ok renderer.table)
    (document : Document) (text : String) (rendered : renderer.render document = .ok text) :
    let verbose : Renderer := { renderer with verbosePadding := true }
    let silent : Renderer := { renderer with verbosePadding := false }
    let start : Page := { padding := { verbose := true } }
    let visits := document.visits hides
    let written := verbose.written ruleSet start visits
    let parts := parted written
    verbose.run document = .done (visits.foldl (verbose.visit ruleSet) start) ∧
    (visits.foldl (verbose.visit ruleSet) start).padding.emitted = parts.2.length ∧
    parts.2.map Prod.fst = paddings written ∧
    verbose.render document = .ok (parts.1 ++ String.join (parts.2.zipIdx.map fun part =>
      toString part.2 ++ (part.1.1 ++ part.1.2))) ∧
    silent.render document =
      .ok (parts.1 ++ String.join (parts.2.map fun part => part.1 ++ part.2)) := by
  intro verbose silent start visits written parts
  have ends := renderer.run_ends (follows alone) document
  have calm : visits.findSome? ruleSet.complaint = none := by
    cases found : visits.findSome? ruleSet.complaint with
    | none => rfl
    | some error =>
      rw [show (document.visits ruleSet.hides).findSome? ruleSet.complaint = some error from found]
        at ends
      obtain ⟨page, failed⟩ := ends.failed
      rw [Renderer.render, failed] at rendered
      contradiction
  obtain ⟨runs, counts⟩ := verbose.run_counts (follows alone) textBound_reply calm
  have listed := paddings_parted written
  refine ⟨runs true, ?_, listed, ?_, ?_⟩
  · rw [← List.length_map, listed]
    exact counts.emitted
  · rw [← countedText_parted 0, Renderer.render, runs true]
    exact congrArg Except.ok counts.countedText
  · rw [← plainText_parted, Renderer.render, runs false]
    exact congrArg Except.ok counts.plainText

def emptyParagraphAndQuote : Node :=
  let word (text : String) : Node := ⟨.paragraph, ⟨0, 0⟩, {}, [.leaf (.string text) ⟨0, 0⟩]⟩
  let quote : Node := ⟨.blockquote, ⟨0, 0⟩, {}, [word "b", word "c"]⟩
  ⟨.document, ⟨0, 0⟩, {}, [word "a", .leaf .paragraph ⟨0, 0⟩, quote]⟩

theorem verbose_inserts_numbers_emptyParagraph :
    let renderer : Renderer := { table, separators := true }
    let document : Document := ⟨⟨[]⟩, emptyParagraphAndQuote⟩
    renderer.render document = .ok "a\n\n\n\n> b\n>\n> c" ∧
    { renderer with verbosePadding := true }.render document =
      .ok "a\n0\n1\n2\n3> b\n4>\n5> c" := by
  intro renderer document
  have alone := ofProviders_provider 500
  have calm : (document.visits hides).findSome? ruleSet.complaint = none := by decide +kernel
  obtain ⟨text, rendered⟩ := renderer.render_of_no_complaint (follows alone) calm
  obtain ⟨_, _, _, verbose, silent⟩ :=
    verbose_inserts_numbers renderer 500 alone document text rendered
  constructor
  · refine silent.trans (congrArg Except.ok ?_)
    decide +kernel
  · refine verbose.trans (congrArg Except.ok ?_)
    decide +kernel

end CanonicalMarkdown.Markdown
