import CanonicalMarkdown.Proofs.Markdown.Shape

namespace CanonicalMarkdown.Markdown

open Text

theorem linePadding_of_ne {line : String} (other : line ≠ "\n") : linePadding line = .padding :=
  if_neg other

theorem tidy_contentLine (line : String)
    (lines : isOneLine line = true ∨ isWholeLine line = true) :
    Tidy .ended [linePadding line, .text line] (lineEnd line) := by
  by_cases empty : line = "\n"
  · subst empty
    exact .blankLine .nil
  · rw [linePadding_of_ne empty]
    exact .padding (.line lines)

theorem tidy_indentedLine (line : String)
    (lines : isOneLine line = true ∨ isWholeLine line = true) :
    Tidy .begun (indentedLine line) (lineEnd line) := by
  unfold indentedLine
  split
  · exact .line lines
  · exact .text (by decide) (.line lines)

theorem tidy_paddedIndentedLine (line : String)
    (lines : isOneLine line = true ∨ isWholeLine line = true) :
    Tidy .ended (linePadding line :: indentedLine line) (lineEnd line) := by
  by_cases empty : line = "\n"
  · subst empty
    exact .blankLine .nil
  · rw [linePadding_of_ne empty]
    exact .padding (tidy_indentedLine line lines)

theorem tidy_endLine (last : String) : Tidy (lineEnd last) (endLine (some last)) .ended := by
  cases ends : endsLine last with
  | true =>
    simp only [lineEnd, endLine, ends, Option.any_some]
    exact .nil
  | false =>
    simp only [lineEnd, endLine, ends, Option.any_some]
    exact .newline .nil

theorem tidy_endLines (before : LineState) (lines : List String) :
    Tidy (afterLines before lines) (endLine lines.getLast?)
      (if lines.isEmpty then before else .ended) := by
  cases last : lines.getLast? with
  | none =>
    rw [List.getLast?_eq_none_iff] at last
    subst last
    exact .nil
  | some line =>
    have some : lines.isEmpty = false := by
      cases lines with
      | nil => contradiction
      | cons => rfl
    rw [afterLines, last, some]
    exact tidy_endLine line

theorem tidy_indentedCode {lines : List String} (areLines : areLines lines = true) :
    Tidy .begun (indentedCode lines) (if lines.isEmpty then .begun else .ended) := by
  cases lines with
  | nil => exact .nil
  | cons first rest =>
    have start := tidy_indentedLine first (areLines_head areLines)
    exact (Tidy.firstLine tidy_paddedIndentedLine start areLines).append
      (tidy_endLines .begun (first :: rest))

theorem tidy_htmlLines {lines : List String} (areLines : areLines lines = true) :
    Tidy .begun (htmlLines lines) (afterLines .begun lines) := by
  cases lines with
  | nil => exact .nil
  | cons first rest =>
    have start := Tidy.line (areLines_head areLines)
    exact Tidy.firstLine tidy_contentLine start areLines

theorem tidy_htmlClosure {lines : List String} {closure : Option String}
    (areLines : areLines (lines ++ closure.toList) = true) :
    Tidy (afterLines .begun lines) (htmlClosure lines closure)
      (if lines.isEmpty && closure.isNone then .begun else .ended) := by
  cases closure with
  | none => simpa [htmlClosure] using tidy_endLines .begun lines
  | some closure =>
    obtain ⟨_, line, wholes⟩ := areLines_concat areLines
    have last : Tidy .begun (.text closure :: endLine (some closure)) .ended :=
      (Tidy.line line).append (tidy_endLine closure)
    cases lines with
    | nil => exact last
    | cons first rest =>
      rw [afterLines_of_isWholeLine .begun (by simp) wholes]
      exact .padding last

theorem tidy_fenceOpening {fence : Fence} {info : String} {lines : List String}
    (fenceOneLine : '\n' ∉ fence.text.toList) (infoOneLine : '\n' ∉ info.toList)
    (areLines : areLines lines = true) :
    Tidy .begun (fenceOpening fence info lines) (afterLines .ended lines) :=
  .text fenceOneLine (.text infoOneLine (.newline (Tidy.lines tidy_contentLine areLines)))

theorem tidy_fenceClosing {fence : Fence} (fenceOneLine : '\n' ∉ fence.text.toList)
    (lines : List String) :
    Tidy (afterLines .ended lines) (fenceClosing fence lines) .begun := by
  have ended := tidy_endLines .ended lines
  rw [ite_self] at ended
  exact ended.append (.padding (.text fenceOneLine .nil))

theorem Fence.mark_found (closing : List Char) :
    (Fence.found closing).mark = '`' ∨ (Fence.found closing).mark = '~' := by
  unfold Fence.found
  dsimp only
  split
  · split <;> exact .inl rfl
  · split
    · exact .inl rfl
    · exact .inr rfl
  · exact .inl rfl

theorem Fence.not_mem_text (closing : List Char) (content : List String) (info : String) :
    '\n' ∉ (Fence.choose closing content info).text.toList := by
  refine not_mem_repeated ?_ _
  unfold Fence.choose
  dsimp only
  split
  · decide
  · rcases Fence.mark_found closing with mark | mark <;> rw [mark] <;> decide

theorem tidy_paddedText {text : String} (oneLine : '\n' ∉ text.toList) :
    Tidy .begun (paddedText text) .begun := by
  by_cases none : text.toList = []
  · rw [paddedText, linesOf, none]
    exact .nil
  · rw [paddedText, linesOf, lines_of_not_mem oneLine none]
    exact .text (by simpa using oneLine) .nil

theorem not_mem_spacedCode {code : List Char} (oneLine : '\n' ∉ code) :
    '\n' ∉ spacedCode code := by
  unfold spacedCode
  split
  · simp [oneLine]
  · exact oneLine

theorem tidy_codeSpanChild {source : Source} {child : Node}
    (oneLine : isOneLineCode source child = true) :
    Tidy .begun (codeSpanChild source child) .begun := by
  unfold isOneLineCode at oneLine
  unfold codeSpanChild
  cases payload : child.payload with
  | text run =>
    simp only [payload] at oneLine
    exact tidy_paddedText (isOneLine_iff.mp oneLine)
  | string code =>
    simp only [payload] at oneLine
    exact .text (by simpa using not_mem_spacedCode (isOneLine_iff.mp oneLine)) .nil
  | _ => exact .nil

theorem not_mem_escapeWith {text : List Char} (special : Char → Bool) (oneLine : '\n' ∉ text) :
    '\n' ∉ escapeWith special text := by
  intro member
  obtain ⟨c, among, newline⟩ := List.mem_flatMap.mp member
  have same : '\n' = c := by
    split at newline <;> simpa using newline
  exact oneLine (same ▸ among)

theorem not_mem_bareDestination {destination : List Char} (balanced : Bool)
    (oneLine : '\n' ∉ destination) : '\n' ∉ bareDestination balanced destination := by
  induction destination with
  | nil => simp [bareDestination]
  | cons c rest ih =>
    have other : '\n' ≠ c := fun same => oneLine (List.mem_cons.mpr (.inl same))
    have more := ih fun member => oneLine (by simp [member])
    rw [bareDestination]
    split <;> split <;> simp [other, more]

theorem not_mem_destinationText {destination : String} (hasTitle : Bool)
    (oneLine : '\n' ∉ destination.toList) :
    '\n' ∉ (destinationText destination hasTitle).toList := by
  rw [destinationText, String.toList_ofList]
  unfold destinationChars
  split
  · split <;> decide
  · split
    · simp [not_mem_escapeWith _ oneLine]
    · exact not_mem_bareDestination _ oneLine

theorem not_mem_titleText {title : String} (oneLine : '\n' ∉ title.toList) :
    '\n' ∉ (titleText title).toList := by
  rw [titleText, String.toList_ofList]
  simp [titleChars, not_mem_escapeWith _ oneLine]

theorem tidy_targetStrokes {target : LinkTarget} (oneLine : target.isOneLine = true) :
    Tidy .begun (targetStrokes target) .begun := by
  rw [LinkTarget.isOneLine, Bool.and_eq_true] at oneLine
  obtain ⟨destination, title⟩ := oneLine
  have start : Tidy .begun
      [.text "](", .text (destinationText target.destination target.title.isSome)] .begun :=
    .text (by decide) (.text (not_mem_destinationText _ (isOneLine_iff.mp destination)) .nil)
  refine (start.append ?_).append (.text (by decide) .nil)
  cases given : target.title with
  | none => exact .nil
  | some text =>
    rw [given] at title
    exact .text (by decide) (.text (not_mem_titleText (isOneLine_iff.mp title)) .nil)

theorem not_mem_attributeText {entry : Attribute} (oneLine : entry.isOneLine = true) :
    '\n' ∉ (attributeText entry).toList := by
  rw [Attribute.isOneLine, Bool.and_eq_true] at oneLine
  obtain ⟨name, value⟩ := oneLine
  unfold attributeText
  split
  · simpa [isOneLine_iff] using value
  · simpa [isOneLine_iff] using value
  · simp_all [isOneLine_iff]
  · exact isOneLine_iff.mp name

theorem not_mem_intercalate {c : Char} {separator : List Char} {texts : List (List Char)}
    (between : c ∉ separator) (outside : ∀ text ∈ texts, c ∉ text) :
    c ∉ separator.intercalate texts := by
  induction texts with
  | nil => simp
  | cons text rest ih =>
    have more := ih fun other member => outside other (by simp [member])
    by_cases none : rest = []
    · simpa [none] using outside text (by simp)
    · simp [List.intercalate_cons_of_ne_nil none, between, more, outside text]

theorem tidy_headingAttributes {attributes : Attributes}
    (oneLine : attributes.entries.all Attribute.isOneLine = true) :
    Tidy .begun (headingAttributes attributes) .begun := by
  unfold headingAttributes
  split
  · exact .nil
  · have joined : '\n' ∉ (" ".intercalate (attributes.entries.map attributeText)).toList := by
      rw [String.toList_intercalate]
      refine not_mem_intercalate (by decide) ?_
      intro text member
      obtain ⟨shown, among, rfl⟩ := List.mem_map.mp member
      obtain ⟨entry, entered, rfl⟩ := List.mem_map.mp among
      exact not_mem_attributeText (List.all_eq_true.mp oneLine entry entered)
    exact .text (by decide) (.text joined (.text (by decide) .nil))

theorem isEmphasisMark_of_filter {found : Option Char} {c : Char}
    (kept : found.filter isEmphasisMark = some c) : isEmphasisMark c = true :=
  (Option.filter_eq_some_iff.mp kept).2

theorem isEmphasisMark_delimiterOf (source : Source) (node : Node) :
    isEmphasisMark (delimiterOf source node) = true := by
  unfold delimiterOf
  dsimp only
  cases before : ((offsetBeforeText? node).bind source.charAt?).filter isEmphasisMark with
  | some c => exact isEmphasisMark_of_filter before
  | none =>
    cases first : (source.charAt? node.span.start).filter isEmphasisMark with
    | some c => exact isEmphasisMark_of_filter first
    | none => rfl

theorem not_mem_emphasis (source : Source) (node : Node) (level : Nat) :
    '\n' ∉ (repeated level (delimiterOf source node)).toList := by
  refine not_mem_repeated ?_ level
  intro newline
  have mark := isEmphasisMark_delimiterOf source node
  rw [newline] at mark
  contradiction

theorem not_mem_toDigits (number : Nat) : '\n' ∉ Nat.toDigits 10 number := by
  intro member
  have digit : '\n'.isDigit = true :=
    Nat.isDigit_of_mem_toDigits (by decide) (by decide) member
  contradiction

theorem not_mem_itemMarker {style : ListStyle} (marker : style.marker ≠ '\n') (list : Place)
    (index : Nat) : '\n' ∉ (itemMarker list style index).toList := by
  unfold itemMarker
  split
  · rename_i start _
    simp [not_mem_toDigits, marker.symm]
  · unfold listBullet
    split <;> decide

theorem itemMarker_ne_empty (list : Place) (style : ListStyle) (index : Nat) :
    itemMarker list style index ≠ "" := by
  unfold itemMarker
  split <;> simp

theorem tidy_openItem {marker : String} (some : marker ≠ "") (oneLine : '\n' ∉ marker.toList)
    (offset : Nat) : Tidy .begun (openItem marker offset) .begun :=
  .text (not_mem_repeated (by decide) _)
    (.push some oneLine (not_mem_repeated (by decide) _) .nil)

theorem tidy_columnRules (alignments : List Alignment) :
    Tidy .begun (columnRules alignments) .begun := by
  refine Tidy.append (.newline (.padding (.text (by decide) .nil))) (Tidy.flatMap ?_)
  intro alignment _
  exact .text (by decide) (.text (by cases alignment <;> decide) (.text (by decide) .nil))

theorem tidy_runText {source : Source} {run : TextRun}
    (copied : '\n' ∉ (source.slice run.segment).toList) (literal : '\n' ∉ run.literal.toList) :
    Tidy .begun (runText source run) .begun := by
  unfold runText
  dsimp only
  split
  · exact tidy_paddedText copied
  · split
    · exact .text literal .nil
    · exact .text copied .nil

theorem tidy_runBreak (view : View) (run : TextRun) :
    Tidy .begun (runBreak view run) .begun := by
  have newline : Tidy .begun [.text "\n", .padding] .begun := .newline (.padding .nil)
  unfold runBreak
  split
  · exact .nil
  · split
    · exact .text (by decide) .nil
    · split
      · exact .text (by decide) newline
      · exact newline

theorem tidy_autoLinkText {source : Source} {span : Span} {url : String}
    (copied : '\n' ∉ (source.slice span).toList) (oneLine : '\n' ∉ url.toList) :
    Tidy .begun (autoLinkText source span url) .begun := by
  unfold autoLinkText
  dsimp only
  split
  · exact .text (by decide) (.text oneLine (.text (by decide) .nil))
  · exact .text copied .nil

def afterEnter : Payload → LineState
  | .codeBlock lines => if lines.isEmpty then .begun else .ended
  | .fencedCodeBlock _ lines _ => afterLines .ended lines
  | .htmlBlock lines _ => afterLines .begun lines
  | .thematicBreak => .ended
  | _ => .begun

theorem afterEnter_of_not_isChildless {payload : Payload}
    (children : payload.kind.isChildless = false) : afterEnter payload = .begun := by
  cases payload <;> first | rfl | contradiction

theorem tidy_itemReply_enter {view : View} {offset : Nat}
    (fits : (Payload.listItem offset).fitsIn view.parentPayload? = true) :
    Tidy .begun (itemReply view offset .enter).strokes .begun := by
  obtain ⟨parent, style, found, payload, marker⟩ := View.list_of_fitsIn fits
  simp only [itemReply, found, payload]
  exact tidy_openItem (itemMarker_ne_empty _ _ _) (not_mem_itemMarker marker _ _) offset

theorem tidy_enter {view : View} (plain : isPlain view.source view.node = true)
    (fits : view.node.payload.fitsIn view.parentPayload? = true) :
    Tidy .begun (enter view).strokes (afterEnter view.node.payload) := by
  unfold isPlain at plain
  unfold enter
  cases payload : view.node.payload with
  | heading level =>
    exact .text (not_mem_repeated (by decide) level) (.text (by decide) .nil)
  | blockquote => exact .push (by decide) (by decide) (by decide) .nil
  | definitionDetails tight => exact .push (by decide) (by decide) (by decide) .nil
  | listItem offset =>
    rw [payload] at fits
    exact tidy_itemReply_enter fits
  | codeBlock lines =>
    simp only [payload] at plain
    exact tidy_indentedCode plain
  | fencedCodeBlock info lines contentEnd =>
    simp only [payload, Bool.and_eq_true] at plain
    exact tidy_fenceOpening (Fence.not_mem_text _ _ _) (isOneLine_iff.mp plain.1) plain.2
  | htmlBlock lines closure =>
    simp only [payload] at plain
    refine tidy_htmlLines ?_
    cases closure with
    | none => simpa using plain
    | some closure => exact (areLines_concat plain).1
  | thematicBreak =>
    exact .endLine (show "***\n".toList = ['*', '*', '*'] ++ ['\n'] from rfl) (by decide) .nil
  | tableHead | tableRow | tableCell | link => exact .text (by decide) .nil
  | text run =>
    simp only [payload, Bool.and_eq_true, isOneLine_iff] at plain
    exact (tidy_runText plain.1 plain.2).append (tidy_runBreak view run)
  | string value =>
    simp only [payload] at plain
    exact .text (isOneLine_iff.mp plain) .nil
  | emphasis level => exact .text (not_mem_emphasis _ _ level) .nil
  | codeSpan delimiter =>
    simp only [payload] at plain
    have fence : '\n' ∉ (repeated delimiter '`').toList := not_mem_repeated (by decide) delimiter
    have body : Tidy .begun (view.node.children.flatMap (codeSpanChild view.source)) .begun :=
      Tidy.flatMap fun child member => tidy_codeSpanChild (List.all_eq_true.mp plain child member)
    exact Tidy.append (.text fence body) (.text fence .nil)
  | image target =>
    simp only [payload, Bool.and_eq_true] at plain
    obtain ⟨oneLine, description⟩ := plain
    refine Tidy.append (.text (by decide) ?_) (tidy_targetStrokes oneLine)
    unfold imageDescription
    split
    · rename_i first last isFirst isLast
      rw [isFirst, isLast] at description
      exact tidy_paddedText (isOneLine_iff.mp description)
    · exact .nil
  | autoLink url email =>
    simp only [payload, Bool.and_eq_true, isOneLine_iff] at plain
    exact tidy_autoLinkText plain.1 plain.2
  | rawHtml segments =>
    simp only [payload] at plain
    exact Tidy.map_text fun segment member =>
      isOneLine_iff.mp (List.all_eq_true.mp plain segment member)
  | document | paragraph | list | table | definitionList | definitionTerm => exact .nil

def beforeLeave (node : Node) : LineState :=
  if node.kind.isChildless || hides node.kind then afterEnter node.payload
  else lineAfterAll node.children

theorem beforeLeave_of_hides {node : Node} (hidden : hides node.kind = true) :
    beforeLeave node = afterEnter node.payload := by
  simp [beforeLeave, hidden]

theorem beforeLeave_of_isChildless {node : Node} (childless : node.kind.isChildless = true) :
    beforeLeave node = afterEnter node.payload := by
  simp [beforeLeave, childless]

theorem beforeLeave_of_shown {node : Node} (shown : hides node.kind = false)
    (children : node.kind.isChildless = false) :
    beforeLeave node = lineAfterAll node.children := by
  simp [beforeLeave, shown, children]

theorem tidy_leave_holdsBlocks {view : View} (line : LineState)
    (fits : view.node.payload.fitsIn view.parentPayload? = true)
    (holds : view.node.kind.holdsBlocks = true) : Tidy line (leave view).strokes line := by
  unfold leave
  cases payload : view.node.payload with
  | listItem offset =>
    rw [payload] at fits
    obtain ⟨parent, style, found, same, _⟩ := View.list_of_fitsIn fits
    simp only [itemReply, found, same]
    exact .pop .nil
  | blockquote | definitionDetails => exact .pop .nil
  | document | list | definitionList => exact .nil
  | _ =>
    rw [Node.kind, payload] at holds
    contradiction

theorem tidy_leave_leaf {view : View} (plain : isPlain view.source view.node = true)
    (leaf : (view.node.kind.isChildless || hides view.node.kind) = true) :
    Tidy (afterEnter view.node.payload) (leave view).strokes (lineAfter view.node) := by
  obtain ⟨source, ⟨⟨payload, span, attributes, children⟩, earlier, later⟩, ancestors⟩ := view
  cases payload with
  | fencedCodeBlock info lines contentEnd =>
    exact tidy_fenceClosing (Fence.not_mem_text _ _ _) lines
  | htmlBlock lines closure =>
    simp only [View.node, lineAfter]
    exact tidy_htmlClosure plain
  | codeBlock | thematicBreak =>
    simp only [View.node, lineAfter]
    exact .nil
  | codeSpan | image | autoLink | rawHtml => exact .nil
  | _ => contradiction

theorem tidy_leave_inline {view : View} (plain : isPlain view.source view.node = true)
    (inline : view.node.kind.holdsBlocks = false)
    (children : (view.node.kind.isChildless || hides view.node.kind) = false) :
    Tidy .begun (leave view).strokes .begun := by
  unfold isPlain at plain
  unfold leave
  cases payload : view.node.payload with
  | heading level =>
    simp only [payload] at plain
    exact tidy_headingAttributes plain
  | tableHead =>
    dsimp only [tableHeadEnd]
    split
    · exact tidy_columnRules _
    · exact .nil
  | tableCell => exact .text (by decide) .nil
  | emphasis level => exact .text (not_mem_emphasis _ _ level) .nil
  | link target =>
    simp only [payload] at plain
    exact tidy_targetStrokes plain
  | paragraph | table | tableRow | definitionTerm | text | string => exact .nil
  | _ =>
    rw [Node.kind, payload] at inline children
    contradiction

theorem tidy_leave {view : View}
    (shaped : isShaped view.source view.parentPayload? view.node = true) :
    Tidy (beforeLeave view.node) (leave view).strokes (lineAfter view.node) := by
  obtain ⟨fits, plain, _, below⟩ := isShaped_iff.mp shaped
  unfold beforeLeave
  by_cases leaf : (view.node.kind.isChildless || hides view.node.kind) = true
  · rw [if_pos leaf]
    exact tidy_leave_leaf plain leaf
  · rw [if_neg leaf]
    rw [Bool.not_eq_true] at leaf
    cases holds : view.node.kind.holdsBlocks with
    | true =>
      rw [lineAfter_of_holdsBlocks holds]
      exact tidy_leave_holdsBlocks _ fits holds
    | false =>
      have shown : areShaped view.source (some view.node.payload) view.node.children = true := by
        rcases below with hidden | shown
        · simp [hidden] at leaf
        · exact shown
      have childless : view.node.kind.isChildless = false := by
        rw [Bool.or_eq_false_iff] at leaf
        exact leaf.1
      rw [lineAfterAll_of_areShaped shown holds, lineAfter_of_inline holds childless]
      exact tidy_leave_inline plain holds leaf

end CanonicalMarkdown.Markdown
