import CanonicalMarkdown.Proofs.RuleSet

namespace CanonicalMarkdown.Markdown

theorem keepsLevels_paddedLines (lines : List String) : KeepsLevels (paddedLines lines) := by
  fun_induction paddedLines lines with
  | case1 => exact .nil
  | case2 line => exact .text line
  | case3 line rest _ ih => exact .cons (.text line) (.cons .padding ih)

theorem keepsLevels_paddedText (text : String) : KeepsLevels (paddedText text) :=
  keepsLevels_paddedLines (Text.linesOf text)

theorem keepsLevels_linePadding (line : String) : KeepsLevels [linePadding line] := by
  unfold linePadding
  split
  · exact .blankPadding
  · exact .padding

theorem keepsLevels_endLine (last : Option String) : KeepsLevels (endLine last) := by
  unfold endLine
  split
  · exact .text "\n"
  · exact .nil

theorem keepsLevels_indentedLine (line : String) : KeepsLevels (indentedLine line) := by
  unfold indentedLine
  split
  · exact .text line
  · exact .cons (.text "    ") (.text line)

theorem keepsLevels_indentedCode (lines : List String) : KeepsLevels (indentedCode lines) := by
  cases lines with
  | nil => exact .nil
  | cons first rest =>
    have more : KeepsLevels (rest.flatMap fun line => linePadding line :: indentedLine line) :=
      .flatMap (fun line => .cons (keepsLevels_linePadding line) (keepsLevels_indentedLine line)) rest
    exact ((keepsLevels_indentedLine first).append more).append (keepsLevels_endLine _)

theorem keepsLevels_contentLines (lines : List String) :
    KeepsLevels (lines.flatMap fun line => [linePadding line, .text line]) :=
  .flatMap (fun line => .cons (keepsLevels_linePadding line) (.text line)) lines

theorem keepsLevels_fenceOpening (fence : Fence) (info : String) (lines : List String) :
    KeepsLevels (fenceOpening fence info lines) :=
  .cons (.text _) (.cons (.text _) (.cons (.text _) (keepsLevels_contentLines lines)))

theorem keepsLevels_fenceClosing (fence : Fence) (lines : List String) :
    KeepsLevels (fenceClosing fence lines) :=
  (keepsLevels_endLine _).append (.cons .padding (.text _))

theorem keepsLevels_htmlLines (lines : List String) : KeepsLevels (htmlLines lines) := by
  cases lines with
  | nil => exact .nil
  | cons first rest => exact .cons (.text first) (keepsLevels_contentLines rest)

theorem keepsLevels_htmlClosure (lines : List String) (closure : Option String) :
    KeepsLevels (htmlClosure lines closure) := by
  cases closure with
  | none => exact keepsLevels_endLine _
  | some closure =>
    refine KeepsLevels.append ?_ (.cons (.text closure) (keepsLevels_endLine _))
    split
    · exact .nil
    · exact .padding

theorem keepsLevels_columnRules (alignments : List Alignment) :
    KeepsLevels (columnRules alignments) := by
  refine KeepsLevels.append (.cons (.text _) (.cons .padding (.text _))) (.flatMap ?_ alignments)
  exact fun alignment => .cons (.text _) (.cons (.text _) (.text _))

theorem keepsLevels_runText (source : Source) (run : TextRun) :
    KeepsLevels (runText source run) := by
  unfold runText
  dsimp only
  split
  · exact keepsLevels_paddedText _
  · split <;> exact .text _

theorem keepsLevels_runBreak (view : View) (run : TextRun) : KeepsLevels (runBreak view run) := by
  unfold runBreak
  split
  · exact .nil
  · split
    · exact .text _
    · split
      · exact .cons (.text _) (.cons (.text _) .padding)
      · exact .cons (.text _) .padding

theorem keepsLevels_codeSpanChild (source : Source) (child : Node) :
    KeepsLevels (codeSpanChild source child) := by
  unfold codeSpanChild
  split
  · exact keepsLevels_paddedText _
  · exact .text _
  · exact .nil

theorem keepsLevels_targetStrokes (target : LinkTarget) : KeepsLevels (targetStrokes target) := by
  refine KeepsLevels.append (KeepsLevels.append (.cons (.text _) (.text _)) ?_) (.text _)
  split
  · exact .cons (.text _) (.text _)
  · exact .nil

theorem keepsLevels_imageDescription (source : Source) (children : List Node) :
    KeepsLevels (imageDescription source children) := by
  unfold imageDescription
  split
  · exact keepsLevels_paddedText _
  · exact .nil

theorem keepsLevels_autoLinkText (source : Source) (span : Span) (url : String) :
    KeepsLevels (autoLinkText source span url) := by
  unfold autoLinkText
  dsimp only
  split
  · exact .cons (.text _) (.cons (.text _) (.text _))
  · exact .text _

theorem keepsLevels_headingAttributes (attributes : Attributes) :
    KeepsLevels (headingAttributes attributes) := by
  unfold headingAttributes
  split
  · exact .nil
  · exact .cons (.text _) (.cons (.text _) (.text _))

def itemLevels (view : View) (offset : Nat) : List String :=
  match view.parent? with
  | none => []
  | some parent =>
    match parent.node.payload with
    | .list style =>
      [Text.repeated
        (max offset (itemMarker parent style view.place.index).utf8ByteSize) ' ']
    | _ => []

/-- Quotes, items of a list and definition details are the containers that pad their lines. -/
def opened (view : View) : List String :=
  match view.node.payload with
  | .blockquote => ["> "]
  | .definitionDetails _ => ["  "]
  | .listItem offset => itemLevels view offset
  | _ => []

/-- These write their content themselves, whatever their children are. -/
def hides : Kind → Bool
  | .codeBlock | .thematicBreak | .codeSpan | .image | .autoLink | .rawHtml => true
  | _ => false

def reply (view : View) : Phase → Reply
  | .enter => enter view
  | .leave => leave view

theorem levels_itemReply_enter (view : View) (offset : Nat) (levels : List String) :
    levelsAfter (itemReply view offset .enter).strokes levels =
      some (itemLevels view offset ++ levels) := by
  cases parent : view.parent? with
  | none => simp [itemReply, itemLevels, parent, Reply.fail]
  | some place =>
    cases payload : place.node.payload <;>
      simp [itemReply, itemLevels, parent, payload, Reply.fail, Reply.descend, openItem,
        Stroke.levelsAfter]

theorem levels_itemReply_leave (view : View) (offset : Nat) (levels : List String) :
    levelsAfter (itemReply view offset .leave).strokes (itemLevels view offset ++ levels) =
      some levels := by
  cases parent : view.parent? with
  | none => simp [itemReply, itemLevels, parent, Reply.fail]
  | some place =>
    cases payload : place.node.payload <;>
      simp [itemReply, itemLevels, parent, payload, Reply.fail, Reply.descend,
        Stroke.levelsAfter]

theorem levels_enter (view : View) (levels : List String) :
    levelsAfter (enter view).strokes levels = some (opened view ++ levels) := by
  unfold enter opened
  cases view.node.payload with
  | blockquote | definitionDetails => rfl
  | listItem offset => exact levels_itemReply_enter view offset levels
  | codeBlock lines => exact keepsLevels_indentedCode lines levels
  | fencedCodeBlock info lines contentEnd => exact keepsLevels_fenceOpening _ info lines levels
  | htmlBlock lines closure => exact keepsLevels_htmlLines lines levels
  | text run =>
    exact ((keepsLevels_runText view.source run).append (keepsLevels_runBreak view run)) levels
  | codeSpan delimiter =>
    have body : KeepsLevels (view.node.children.flatMap (codeSpanChild view.source)) :=
      .flatMap (keepsLevels_codeSpanChild view.source) view.node.children
    exact ((KeepsLevels.cons (.text _) body).append (.text _)) levels
  | image target =>
    exact ((KeepsLevels.cons (.text _) (keepsLevels_imageDescription _ _)).append
      (keepsLevels_targetStrokes target)) levels
  | autoLink url email => exact keepsLevels_autoLinkText _ _ url levels
  | rawHtml segments => exact KeepsLevels.map_text segments levels
  | _ => rfl

theorem keepsLevels_tableHeadEnd (view : View) : KeepsLevels (tableHeadEnd view).strokes := by
  unfold tableHeadEnd
  split
  · exact keepsLevels_columnRules _
  · exact .nil

theorem levels_leave (view : View) (levels : List String) :
    levelsAfter (leave view).strokes (opened view ++ levels) = some levels := by
  unfold leave opened
  cases view.node.payload with
  | blockquote | definitionDetails => rfl
  | listItem offset => exact levels_itemReply_leave view offset levels
  | heading level => exact keepsLevels_headingAttributes view.node.attributes levels
  | fencedCodeBlock info lines contentEnd => exact keepsLevels_fenceClosing _ lines levels
  | htmlBlock lines closure => exact keepsLevels_htmlClosure lines closure levels
  | tableHead => exact keepsLevels_tableHeadEnd view levels
  | link target => exact keepsLevels_targetStrokes target levels
  | _ => rfl

def strayItem (view : View) : RenderError :=
  .misplaced .listItem (match view.parent? with
    | none => "list item without a parent"
    | some parent => "list item inside " ++ parent.node.kind.name)

def strayHead : RenderError := .misplaced .tableHead "table head outside a table"

theorem next_itemReply (view : View) (offset : Nat) (phase : Phase) :
    (itemReply view offset phase).next =
      if view.isIn .list then .ok .descend else .error (strayItem view) := by
  cases found : view.parent? with
  | none => simp [itemReply, strayItem, View.isIn, found, Reply.fail]
  | some parent =>
    cases payload : parent.node.payload <;> cases phase <;>
      simp [itemReply, strayItem, View.isIn, found, payload, Node.kind, Payload.kind, Reply.fail,
        Reply.descend]

theorem next_tableHeadEnd (view : View) :
    (tableHeadEnd view).next = if view.isIn .table then .ok .descend else .error strayHead := by
  cases found : view.parent? with
  | none => simp [tableHeadEnd, strayHead, View.parentPayload?, View.isIn, found, Reply.fail]
  | some parent =>
    cases payload : parent.node.payload <;>
      simp [tableHeadEnd, strayHead, View.parentPayload?, View.isIn, found, payload, Node.kind,
        Payload.kind, Reply.fail, Reply.descend]

theorem next_enter (view : View) :
    (enter view).next =
      if view.isStrayItem then .error (strayItem view)
      else .ok (if hides view.node.kind then .skipChildren else .descend) := by
  cases payload : view.node.payload with
  | listItem offset =>
    cases inList : view.isIn .list <;>
      simp [enter, payload, next_itemReply, inList, View.isStrayItem, hides, Node.kind,
        Payload.kind]
  | _ =>
    simp [enter, payload, View.isStrayItem, hides, Node.kind, Payload.kind, Reply.descend,
      Reply.skip]

theorem next_leave (view : View) :
    (leave view).next =
      if view.isStrayItem then .error (strayItem view)
      else if view.isStrayHead then .error strayHead
      else .ok .descend := by
  cases payload : view.node.payload with
  | listItem offset =>
    cases inList : view.isIn .list <;>
      simp [leave, payload, next_itemReply, inList, View.isStrayItem, View.isStrayHead, Node.kind,
        Payload.kind]
  | tableHead =>
    cases inTable : view.isIn .table <;>
      simp [leave, payload, next_tableHeadEnd, inTable, View.isStrayItem, View.isStrayHead,
        Node.kind, Payload.kind]
  | _ =>
    simp [leave, payload, View.isStrayItem, View.isStrayHead, Node.kind, Payload.kind,
      Reply.descend]

def ruleSet : RuleSet where
  reply
  hides
  opened
  levels_enter := levels_enter
  levels_leave := levels_leave
  enters view step answered := by
    rw [reply, next_enter] at answered
    split at answered
    · contradiction
    · exact (Except.ok.inj answered).symm
  leaves view step answered := by
    rw [reply, next_leave] at answered
    split at answered
    · contradiction
    · split at answered
      · contradiction
      · exact (Except.ok.inj answered).symm
  keeps_balance view phase := by
    cases phase with
    | enter =>
      rw [reply, next_enter]
      split <;> simp [strayItem]
    | leave =>
      rw [reply, next_leave]
      split
      · simp [strayItem]
      · split <;> simp [strayHead]

def table : DispatchTable := fun kind => if kind ∈ kinds then some rule else none

theorem ofProviders_provider (priority : Int) :
    DispatchTable.ofProviders [provider priority] = .ok table :=
  DispatchTable.ofProviders_alone priority kinds rule

theorem follows {renderer : Renderer} {priority : Int}
    (alone : DispatchTable.ofProviders [provider priority] = .ok renderer.table) :
    renderer.Follows ruleSet := by
  refine Renderer.follows_alone ?_ alone
  intro view phase unruled
  cases payload : view.node.payload <;>
    simp [kinds, Node.kind, payload, Payload.kind] at unruled <;>
    cases phase <;> simp [ruleSet, reply, enter, leave, payload]

end CanonicalMarkdown.Markdown
