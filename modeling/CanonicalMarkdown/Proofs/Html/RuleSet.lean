import CanonicalMarkdown.Proofs.RuleSet

namespace CanonicalMarkdown.Html

theorem keepsLevels_codeBlock (language : Option String) (lines : List String) :
    KeepsLevels (codeBlock language lines) := .cons (.text _) (.text _)

theorem keepsLevels_runText (run : TextRun) : KeepsLevels (runText run) := by
  refine KeepsLevels.cons (.text _) ?_
  split
  · exact .text _
  · split
    · exact .text _
    · exact .nil

theorem keepsLevels_itemReply (view : View) (phase : Phase) :
    KeepsLevels (itemReply view phase).strokes := by
  unfold itemReply
  split
  · refine KeepsLevels.cons (.text _) ?_
    split
    · exact .nil
    · exact .text _
  · exact .text _
  · exact .nil

def hides : Kind → Bool
  | .codeBlock | .fencedCodeBlock | .htmlBlock | .thematicBreak | .codeSpan | .image | .autoLink
  | .rawHtml => true
  | _ => false

def reply (view : View) : Phase → Reply
  | .enter => enter view
  | .leave => leave view

theorem keepsLevels_enter (view : View) : KeepsLevels (enter view).strokes := by
  unfold enter
  cases view.node.payload with
  | paragraph =>
    dsimp only [Reply.descend]
    split
    · exact .nil
    · exact .text _
  | listItem offset => exact keepsLevels_itemReply view .enter
  | codeBlock lines => exact keepsLevels_codeBlock none lines
  | fencedCodeBlock info lines contentEnd => exact keepsLevels_codeBlock _ lines
  | htmlBlock lines closure => exact .map_text _
  | tableRow =>
    refine KeepsLevels.append ?_ (.text _)
    split
    · exact .nil
    · exact .text _
  | text run => exact keepsLevels_runText run
  | rawHtml segments => exact .map_text segments
  | document => exact .nil
  | _ => exact .text _

theorem keepsLevels_leave (view : View) : KeepsLevels (leave view).strokes := by
  unfold leave
  cases view.node.payload with
  | paragraph =>
    dsimp only [Reply.descend]
    split
    · exact .text _
    · split
      · exact .text _
      · exact .nil
  | listItem offset => exact keepsLevels_itemReply view .leave
  | table alignments =>
    refine KeepsLevels.append ?_ (.text _)
    split
    · exact .text _
    · exact .nil
  | heading | blockquote | list | tableHead | tableRow | tableCell | definitionList
  | definitionTerm | definitionDetails | emphasis | link => exact .text _
  | _ => exact .nil

def strayItem : RenderError := .misplaced .listItem "list item outside a list"

theorem next_itemReply (view : View) (phase : Phase) :
    (itemReply view phase).next =
      if view.isIn .list then .ok .descend else .error strayItem := by
  cases found : view.parent? with
  | none => simp [itemReply, strayItem, View.parentPayload?, View.isIn, found, Reply.fail]
  | some parent =>
    cases payload : parent.node.payload <;> cases phase <;>
      simp [itemReply, strayItem, View.parentPayload?, View.isIn, found, payload, Node.kind,
        Payload.kind, Reply.fail, Reply.descend]

theorem next_enter (view : View) :
    (enter view).next =
      if view.isStrayItem then .error strayItem
      else .ok (if hides view.node.kind then .skipChildren else .descend) := by
  cases payload : view.node.payload with
  | listItem offset =>
    cases inList : view.isIn .list <;>
      simp [enter, payload, next_itemReply, inList, View.isStrayItem, hides, Node.kind,
        Payload.kind]
  | _ =>
    simp [enter, payload, View.isStrayItem, hides, Node.kind, Payload.kind, Reply.descend,
      Reply.skip]

theorem next_leave (view : View) :
    (leave view).next = if view.isStrayItem then .error strayItem else .ok .descend := by
  cases payload : view.node.payload with
  | listItem offset =>
    cases inList : view.isIn .list <;>
      simp [leave, payload, next_itemReply, inList, View.isStrayItem, Node.kind, Payload.kind]
  | _ => simp [leave, payload, View.isStrayItem, Node.kind, Payload.kind, Reply.descend]

def ruleSet : RuleSet where
  reply
  hides
  opened _ := []
  levels_enter := keepsLevels_enter
  levels_leave := keepsLevels_leave
  enters view step answered := by
    rw [reply, next_enter] at answered
    split at answered
    · contradiction
    · exact (Except.ok.inj answered).symm
  leaves view step answered := by
    rw [reply, next_leave] at answered
    split at answered
    · contradiction
    · exact (Except.ok.inj answered).symm
  keeps_balance view phase := by
    cases phase with
    | enter =>
      rw [reply, next_enter]
      split <;> simp [strayItem]
    | leave =>
      rw [reply, next_leave]
      split <;> simp [strayItem]

def table : DispatchTable := fun kind => if kind ∈ kinds then some rule else none

theorem ofProviders_provider (priority : Int) :
    DispatchTable.ofProviders [provider priority] = .ok table :=
  DispatchTable.ofProviders_alone priority kinds rule

theorem follows {renderer : Renderer} {priority : Int}
    (alone : DispatchTable.ofProviders [provider priority] = .ok renderer.table) :
    renderer.Follows ruleSet := by
  refine Renderer.follows_alone ?_ alone
  intro view phase unruled
  have document : view.node.kind = .document := by
    simpa [kinds, Kind.mem_all] using unruled
  cases payload : view.node.payload <;>
    simp [Node.kind, payload, Payload.kind] at document
  cases phase <;> simp [ruleSet, reply, enter, leave, payload]

end CanonicalMarkdown.Html
