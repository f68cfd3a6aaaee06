import CanonicalMarkdown.Proofs.Tree.CheckedPieces
import CanonicalMarkdown.Proofs.Tree.OpenKinds

namespace CanonicalMarkdown

def backticks (text : List Char) : Nat := max (text.takeWhile (· = '`')).length 1

def innerSpan (span : Span) (delimiter : Nat) : Span :=
  ⟨span.start + delimiter, max (span.stop - delimiter) (span.start + delimiter)⟩

structure CheckedBuilder where
  /-- A lookup that is allowed to miss is a fault as well. -/
  strict : Bool
  source : Source
  linkify : Bool
  stack : List OpenNode

namespace CheckedBuilder

def ofSource (strict : Bool) (source : Source) (linkify : Bool) : CheckedBuilder :=
  { strict, source, linkify, stack := [{ payload := .document, span := ⟨0, source.size⟩ }] }

def updateTop (builder : CheckedBuilder) (update : OpenNode → OpenNode) : Checked CheckedBuilder :=
  match builder.stack with
  | [] => .error .emptyStack
  | top :: outer => return { builder with stack := update top :: outer }

def topKind (builder : CheckedBuilder) : Kind := builder.stack.head?.elim .document OpenNode.kind

def insideLink (builder : CheckedBuilder) : Bool := builder.stack.any OpenNode.isLink

def flush (builder : CheckedBuilder) (lineBreak : Option LineBreak) : Checked CheckedBuilder :=
  match builder.stack with
  | [] => .error .emptyStack
  | top :: outer => do
    let linkify := builder.linkify && !builder.insideLink
    let nodes ← Checked.inlineNodes builder.source linkify top.run lineBreak
    let flushed := { top with run := [], children := top.children ++ nodes }
    return { builder with stack := flushed :: outer }

def append (builder : CheckedBuilder) (node : Node) : Checked CheckedBuilder := do
  let flushed ← builder.flush none
  flushed.updateTop fun top => { top with children := top.children ++ [node] }

def push (builder : CheckedBuilder) (opened : OpenNode) : Checked CheckedBuilder := do
  let flushed ← builder.flush none
  return { flushed with stack := opened :: flushed.stack }

def loosenTop (builder : CheckedBuilder) (closed : OpenNode) : Checked CheckedBuilder :=
  if closed.kind = .listItem && closed.loose then
    builder.updateTop fun parent => { parent with loose := true }
  else return builder

def close (builder : CheckedBuilder) : Checked CheckedBuilder := do
  let flushed ← builder.flush none
  match flushed.stack with
  | [] => return flushed
  | closed :: outer =>
    let noted ← { flushed with stack := outer }.loosenTop closed
    noted.append closed.close

def containerColumn (builder : CheckedBuilder) : Nat :=
  match builder.stack.find? OpenNode.isPadded with
  | some opened => if opened.kind = .listItem then opened.contentColumn else 0
  | none => 0

def openItem (builder : CheckedBuilder) (span : Span) : Checked OpenNode := do
  let layout ← Checked.itemStart builder.strict builder.source span.start
  let offset := layout.column - builder.containerColumn + layout.marker + 1
  return { payload := .listItem offset, span
           contentColumn := layout.column + layout.marker + layout.space }

def openList (source : Source) (span : Span) (start : Option Nat) : Checked OpenNode := do
  let marker ← Checked.markerChar source span.start start.isSome
  let blankBefore ← Checked.followsBlankLine source span.start
  return { span, payload := .list { start, marker, tight := true, blankBefore } }

def openFence (source : Source) (span : Span) (info : String) : Checked OpenNode := do
  let info := String.ofList (Unicode.trim info.toList)
  let lineEnd ← Checked.lineEnd source span.start
  return { payload := .fencedCodeBlock info [] (min lineEnd span.stop), span }

def openNode (builder : CheckedBuilder) (container : Container) (span : Span) : Checked OpenNode :=
  match container with
  | .fencedCode info => openFence builder.source span info
  | .list start => openList builder.source span start
  | .item => builder.openItem span
  | other => return (Builder.ofSource builder.source builder.linkify).openNode other span

def noteParagraph (builder : CheckedBuilder) (container : Container) : Checked CheckedBuilder :=
  if container = .paragraph then builder.updateTop OpenNode.noteParagraph else return builder

def start (builder : CheckedBuilder) (container : Container) (span : Span) :
    Checked CheckedBuilder := do
  let noted ← builder.noteParagraph container
  noted.push (← noted.openNode container span)

def code (builder : CheckedBuilder) (span : Span) (code : String) : Checked CheckedBuilder := do
  let raw ← Checked.sliceOf builder.source span
  let delimiter := backticks raw
  let inner := innerSpan span delimiter
  let body ← Checked.look builder.strict (builder.source.slice? inner)
  let payload : Payload :=
    if '\n' ∈ body then .string code else .text { segment := inner, literal := code, raw := true }
  builder.append ⟨.codeSpan delimiter, span, {}, [.leaf payload inner]⟩

def html (builder : CheckedBuilder) (span : Span) (html : String) : Checked CheckedBuilder :=
  if builder.topKind = .htmlBlock then
    builder.updateTop fun top => { top with buffer := top.buffer ++ html }
  else builder.append (.leaf (.rawHtml [html]) span)

def add (builder : CheckedBuilder) (event : Event) : Checked CheckedBuilder :=
  match event.markup with
  | .start container => builder.start container event.span
  | .close => if 1 < builder.stack.length then builder.close else return builder
  | .text text => builder.updateTop fun top => top.addText event.span text
  | .code code => builder.code event.span code
  | .html html => builder.html event.span html
  | .inlineHtml html => builder.append (.leaf (.rawHtml [html]) event.span)
  | .softBreak => builder.flush (some ⟨event.span.start, false⟩)
  | .hardBreak => builder.flush (some ⟨event.span.start, true⟩)
  | .rule => builder.append (.leaf .thematicBreak event.span)

def closeAll (builder : CheckedBuilder) : Nat → Checked CheckedBuilder
  | 0 => return builder
  | rounds + 1 =>
    if 1 < builder.stack.length then do
      let closed ← builder.close
      closed.closeAll rounds
    else return builder

def finish (builder : CheckedBuilder) : Checked Node := do
  let closed ← builder.closeAll builder.stack.length
  let flushed ← closed.flush none
  match flushed.stack with
  | [] => .error .emptyStack
  | top :: _ => return ⟨top.payload, top.span, top.attributes, top.children⟩

def addAll (builder : CheckedBuilder) (events : List Event) : Checked CheckedBuilder :=
  events.foldlM add builder

def treeOf (strict : Bool) (source : Source) (linkify : Bool) (events : List Event) :
    Checked Node := do
  let builder ← (ofSource strict source linkify).addAll events
  builder.finish

end CheckedBuilder

/-- The lookups that are allowed to miss do not: what the backticks of a code span enclose starts and
    ends on boundaries, and so does the marker of an item. -/
def Event.Hits (source : Source) (event : Event) : Prop :=
  match event.markup with
  | .code _ =>
    let inner := innerSpan event.span (backticks ((source.slice? event.span).getD []))
    source.IsBoundary inner.start ∧ source.IsBoundary inner.stop
  | .start .item =>
    source.IsBoundary (Checked.itemOffset source event.span.start
      + markerWidth (Checked.itemText source event.span.start))
  | _ => True

theorem isSome_inner_iff {source : Source} {span : Span} {raw : List Char} (code : String)
    (sliced : source.slice? span = some raw) :
    (source.slice? (innerSpan span (backticks raw))).isSome = true ↔
      Event.Hits source ⟨.code code, span⟩ := by
  simp only [Event.Hits, sliced, Option.getD_some, Option.isSome_iff_exists]
  constructor
  · rintro ⟨body, found⟩
    exact Source.IsBoundary.of_slice? found
  · rintro ⟨first, last⟩
    exact first.slice? last (Nat.le_max_right ..)

namespace Builder

def stacked (strict : Bool) (builder : Builder) : CheckedBuilder :=
  ⟨strict, builder.source, builder.linkify, builder.top :: builder.outer⟩

inductive Stands (source : Source) : OpenNode → List OpenNode → Prop
  | document {top : OpenNode} :
      top.payload = .document → top.span = ⟨0, source.size⟩ → Sliced source top.run →
      Stands source top []
  | inside {top parent : OpenNode} {outer : List OpenNode} :
      Sliced source top.run → Stands source parent outer → Stands source top (parent :: outer)

theorem Stands.sliced {source : Source} {top : OpenNode} {outer : List OpenNode}
    (stands : Stands source top outer) : Sliced source top.run := by
  cases stands with
  | document _ _ sliced => exact sliced
  | inside sliced _ => exact sliced

theorem Stands.replace {source : Source} {top : OpenNode} {outer : List OpenNode}
    (stands : Stands source top outer) {other : OpenNode}
    (payload : top.payload = .document → other.payload = .document) (span : other.span = top.span)
    (sliced : Sliced source other.run) : Stands source other outer := by
  cases stands with
  | document document whole _ => exact .document (payload document) (span.trans whole) sliced
  | inside _ around => exact .inside sliced around

def Safe (builder : Builder) : Prop := Stands builder.source builder.top builder.outer

def Agrees (strict : Bool) (step : Checked CheckedBuilder) (builder : Builder) : Prop :=
  step = .ok (builder.stacked strict) ∧ builder.Safe

variable {strict : Bool} {builder : Builder}

theorem sliced_nil (source : Source) : Sliced source [] := by simp [Sliced]

theorem Safe.flush (safe : builder.Safe) (lineBreak : Option LineBreak) :
    Agrees strict ((builder.stacked strict).flush lineBreak) (builder.flush lineBreak) := by
  constructor
  · simp only [CheckedBuilder.flush, stacked, safe.sliced.inlineNodes_eq, Checked.ok_bind]
    rfl
  · exact safe.replace id rfl (sliced_nil _)

theorem Safe.append (safe : builder.Safe) (node : Node) :
    Agrees strict ((builder.stacked strict).append node) (builder.append node) := by
  obtain ⟨flushed, safeFlushed⟩ := safe.flush none
  constructor
  · rw [CheckedBuilder.append, flushed]
    rfl
  · exact safeFlushed.replace id rfl (sliced_nil _)

theorem Safe.push (safe : builder.Safe) {opened : OpenNode} (none : opened.run = []) :
    Agrees strict ((builder.stacked strict).push opened) (builder.push opened) := by
  obtain ⟨flushed, safeFlushed⟩ := safe.flush .none
  constructor
  · rw [CheckedBuilder.push, flushed]
    rfl
  · have sliced : Sliced builder.source opened.run := by rw [none]; exact sliced_nil _
    exact .inside sliced safeFlushed

theorem loosenTop_eq (strict : Bool) (source : Source) (linkify : Bool) (parent closed : OpenNode)
    (outer : List OpenNode) :
    let loosens := closed.kind = .listItem && closed.loose
    CheckedBuilder.loosenTop ⟨strict, source, linkify, parent :: outer⟩ closed =
      .ok ⟨strict, source, linkify, { parent with loose := parent.loose || loosens } :: outer⟩ := by
  intro loosens
  unfold CheckedBuilder.loosenTop
  cases loose : loosens with
  | false => rw [if_neg (by simpa [loosens] using loose), Bool.or_false]; rfl
  | true => rw [if_pos loose, Bool.or_true]; rfl

theorem Safe.close (safe : builder.Safe) (opened : builder.outer ≠ []) :
    Agrees strict (builder.stacked strict).close builder.close := by
  obtain ⟨source, linkify, top, outer⟩ := builder
  obtain ⟨parent, around, rfl⟩ := List.exists_cons_of_ne_nil opened
  obtain ⟨flushed, _⟩ := safe.flush none
  generalize closing : (Builder.flush ⟨source, linkify, top, parent :: around⟩ none).top = closed
  let loosens := decide (closed.kind = .listItem) && closed.loose
  let next : Builder := ⟨source, linkify, { parent with loose := parent.loose || loosens }, around⟩
  have safeNext : next.Safe := by
    cases safe with
    | inside _ stands => exact stands.replace id rfl stands.sliced
  have split : (Builder.flush ⟨source, linkify, top, parent :: around⟩ none).stacked strict =
      ⟨strict, source, linkify, closed :: parent :: around⟩ := by
    rw [← closing]
    rfl
  have same : Builder.close ⟨source, linkify, top, parent :: around⟩ =
      next.append closed.close := by
    simp only [Builder.close, closing]
    rfl
  rw [same, CheckedBuilder.close, flushed, split]
  simp only [Checked.ok_bind, loosenTop_eq]
  exact safeNext.append closed.close

theorem Safe.updateTop (safe : builder.Safe) {update : OpenNode → OpenNode}
    (payload : builder.top.payload = .document → (update builder.top).payload = .document)
    (span : (update builder.top).span = builder.top.span)
    (sliced : Sliced builder.source (update builder.top).run) :
    Agrees strict ((builder.stacked strict).updateTop update)
      { builder with top := update builder.top } :=
  ⟨rfl, safe.replace payload span sliced⟩

theorem noteParagraph_eq (builder : Builder) (container : Container) :
    (builder.stacked strict).noteParagraph container =
      .ok ((if container = .paragraph then { builder with top := builder.top.noteParagraph }
        else builder : Builder).stacked strict) := by
  unfold CheckedBuilder.noteParagraph
  split <;> rfl

theorem openNode_eq (builder : Builder) (container : Container) {span : Span}
    (boundary : builder.source.IsBoundary span.start)
    (hits : strict = true → Event.Hits builder.source ⟨.start container, span⟩) :
    (builder.stacked strict).openNode container span = .ok (builder.openNode container span) := by
  cases container with
  | fencedCode info =>
    simp [CheckedBuilder.openNode, CheckedBuilder.openFence, stacked, Checked.lineEnd_eq boundary,
      openNode, openFence]
  | list start =>
    simp [CheckedBuilder.openNode, CheckedBuilder.openList, stacked, Checked.markerChar_eq boundary,
      Checked.followsBlankLine_eq boundary, openNode, openList]
  | item =>
    have column : (builder.stacked strict).containerColumn = builder.containerColumn := rfl
    have layout : Checked.itemStart (builder.stacked strict).strict (builder.stacked strict).source
        span.start = .ok (builder.source.itemStart span.start) := Checked.itemStart_eq boundary hits
    simp only [CheckedBuilder.openNode, CheckedBuilder.openItem, layout, Checked.ok_bind, column]
    rfl
  | _ => rfl

theorem run_openNode (builder : Builder) (container : Container) (span : Span) :
    (builder.openNode container span).run = [] := by
  cases container <;> rfl

theorem Safe.start (safe : builder.Safe) (container : Container) {span : Span}
    (boundary : builder.source.IsBoundary span.start)
    (hits : strict = true → Event.Hits builder.source ⟨.start container, span⟩) :
    Agrees strict ((builder.stacked strict).start container span) (builder.start container span) := by
  rw [CheckedBuilder.start, Builder.start, noteParagraph_eq]
  simp only [Checked.ok_bind]
  by_cases paragraph : container = .paragraph
  · subst paragraph
    have noted : Safe { builder with top := builder.top.noteParagraph } := by
      obtain ⟨loose, same⟩ := builder.top.noteParagraph_eq
      rw [same]
      exact safe.replace id rfl safe.sliced
    exact noted.push rfl
  · rw [if_neg paragraph, openNode_eq builder container boundary hits]
    exact safe.push (run_openNode builder container span)

theorem Safe.text (safe : builder.Safe) {span : Span} (text : String)
    (within : ∃ text, builder.source.slice? span = some text) :
    Agrees strict ((builder.stacked strict).updateTop fun top => top.addText span text)
      { builder with top := builder.top.addText span text } := by
  refine safe.updateTop ?_ ?_ ?_
  · intro document
    simp only [OpenNode.addText, document]
  · unfold OpenNode.addText
    split <;> rfl
  · unfold OpenNode.addText
    split
    · exact safe.sliced
    · exact safe.sliced
    · intro piece member
      rcases List.mem_append.mp member with earlier | last
      · exact safe.sliced piece earlier
      · rw [List.mem_singleton.mp last]
        exact within

theorem Safe.html (safe : builder.Safe) (span : Span) (html : String) :
    Agrees strict ((builder.stacked strict).html span html) (builder.html span html) := by
  have kind : (builder.stacked strict).topKind = builder.top.kind := rfl
  unfold CheckedBuilder.html Builder.html
  rw [kind]
  split
  · exact safe.updateTop id rfl safe.sliced
  · exact safe.append _

theorem codeSpan_eq {source : Source} {span : Span} {raw : List Char} (code : String)
    (sliced : source.slice? span = some raw) :
    codeSpan source span code =
      let inner := innerSpan span (backticks raw)
      let payload : Payload :=
        if '\n' ∈ (source.slice? inner).getD [] then .string code
        else .text { segment := inner, literal := code, raw := true }
      ⟨.codeSpan (backticks raw), span, {}, [.leaf payload inner]⟩ := by
  simp only [codeSpan, Source.slice, sliced, Option.getD_some, String.toList_ofList]
  rfl

theorem Safe.code (safe : builder.Safe) {span : Span} (code : String) {raw : List Char}
    (sliced : builder.source.slice? span = some raw)
    (hits : strict = true → Event.Hits builder.source ⟨.code code, span⟩) :
    Agrees strict ((builder.stacked strict).code span code)
      (builder.append (codeSpan builder.source span code)) := by
  have read : Checked.sliceOf (builder.stacked strict).source span = .ok raw :=
    congrArg Checked.ofSlice sliced
  have found : Checked.look (builder.stacked strict).strict
      ((builder.stacked strict).source.slice? (innerSpan span (backticks raw))) =
        .ok ((builder.source.slice? (innerSpan span (backticks raw))).getD []) :=
    Checked.look_eq fun isStrict => (isSome_inner_iff code sliced).mpr (hits isStrict)
  simp only [CheckedBuilder.code, read, found, Checked.ok_bind, codeSpan_eq code sliced]
  exact safe.append _

theorem Safe.closeIfOpen (safe : builder.Safe) :
    Agrees strict (if 1 < (builder.stacked strict).stack.length then (builder.stacked strict).close
      else return builder.stacked strict) builder.close := by
  by_cases opened : builder.outer = []
  · have nothing : builder.close = builder := by simp only [Builder.close, opened]
    rw [if_neg (by simp [stacked, opened]), nothing]
    exact ⟨rfl, safe⟩
  · have some := List.length_pos_iff.mpr opened
    rw [if_pos (by simpa [stacked] using some)]
    exact safe.close opened

theorem Safe.add (safe : builder.Safe) {event : Event}
    (within : ∃ text, builder.source.slice? event.span = some text)
    (hits : strict = true → event.Hits builder.source) :
    Agrees strict ((builder.stacked strict).add event) (builder.add event) := by
  obtain ⟨markup, span⟩ := event
  obtain ⟨written, sliced⟩ := within
  cases markup with
  | start container => exact safe.start container (Source.IsBoundary.of_slice? sliced).1 hits
  | close => exact safe.closeIfOpen
  | text text => exact safe.text text ⟨written, sliced⟩
  | code code => exact safe.code code sliced hits
  | html html => exact safe.html span html
  | inlineHtml html => exact safe.append _
  | softBreak => exact safe.flush _
  | hardBreak => exact safe.flush _
  | rule => exact safe.append _

theorem add_of_miss {event : Event}
    (within : ∃ text, builder.source.slice? event.span = some text)
    (misses : ¬ event.Hits builder.source) :
    (builder.stacked true).add event = .error .slice := by
  obtain ⟨markup, span⟩ := event
  obtain ⟨raw, sliced⟩ := within
  unfold Event.Hits at misses
  split at misses
  · rename_i code isCode
    obtain rfl : markup = .code code := isCode
    have read : Checked.sliceOf (builder.stacked true).source span = .ok raw :=
      congrArg Checked.ofSlice sliced
    have missed : Checked.look (builder.stacked true).strict
        ((builder.stacked true).source.slice? (innerSpan span (backticks raw))) = .error .slice :=
      Checked.look_of_miss (mt (isSome_inner_iff code sliced).mp misses)
    show (builder.stacked true).code span code = _
    simp only [CheckedBuilder.code, read, missed, Checked.ok_bind]
    rfl
  · rename_i isItem
    obtain rfl : markup = .start .item := isItem
    have boundary := (Source.IsBoundary.of_slice? sliced).1
    have missed : Checked.itemStart (builder.stacked true).strict (builder.stacked true).source
        span.start = .error .slice := Checked.itemStart_of_miss boundary misses
    show (builder.stacked true).start .item span = _
    rw [CheckedBuilder.start, noteParagraph_eq, Checked.ok_bind]
    show (do (builder.stacked true).push (← (builder.stacked true).openItem span)) = _
    rw [CheckedBuilder.openItem, missed]
    rfl
  · contradiction

theorem Safe.addAll (safe : builder.Safe) {events : List Event}
    (within : ∀ event ∈ events, ∃ text, builder.source.slice? event.span = some text)
    (hits : strict = true → ∀ event ∈ events, event.Hits builder.source) :
    Agrees strict ((builder.stacked strict).addAll events) (events.foldl Builder.add builder) := by
  induction events generalizing builder with
  | nil => exact ⟨rfl, safe⟩
  | cons event rest ih =>
    obtain ⟨added, safeAdded⟩ := safe.add (within event (by simp)) fun isStrict =>
      hits isStrict event (by simp)
    rw [CheckedBuilder.addAll, List.foldlM_cons, added]
    have source := builder.source_add event
    refine ih safeAdded (fun other member => ?_) fun isStrict other member => ?_
    · rw [source]
      exact within other (by simp [member])
    · rw [source]
      exact hits isStrict other (by simp [member])

theorem Safe.addAll_of_miss (safe : builder.Safe) {events : List Event}
    (within : ∀ event ∈ events, ∃ text, builder.source.slice? event.span = some text)
    (misses : ∃ event ∈ events, ¬ event.Hits builder.source) :
    (builder.stacked true).addAll events = .error .slice := by
  induction events generalizing builder with
  | nil => simp at misses
  | cons event rest ih =>
    rw [CheckedBuilder.addAll, List.foldlM_cons]
    by_cases hit : event.Hits builder.source
    · have agrees : Agrees true ((builder.stacked true).add event) (builder.add event) :=
        safe.add (within event (by simp)) fun _ => hit
      obtain ⟨added, safeAdded⟩ := agrees
      have source := builder.source_add event
      rw [added, Checked.ok_bind]
      refine ih safeAdded (fun other member => ?_) ?_
      · rw [source]
        exact within other (by simp [member])
      · rw [source]
        obtain ⟨missed, member, misses⟩ := misses
        rcases List.mem_cons.mp member with rfl | later
        · contradiction
        · exact ⟨missed, later, misses⟩
    · rw [add_of_miss (within event (by simp)) hit]
      rfl

theorem Safe.closeAll (safe : builder.Safe) {rounds : Nat}
    (enough : builder.outer.length < rounds) :
    Agrees strict ((builder.stacked strict).closeAll rounds)
        (builder.closeOuter builder.outer.length) ∧
      (builder.closeOuter builder.outer.length).outer = [] := by
  induction rounds generalizing builder with
  | zero => contradiction
  | succ rounds ih =>
    rw [CheckedBuilder.closeAll]
    cases opened : builder.outer with
    | nil =>
      rw [if_neg (by simp [stacked, opened])]
      exact ⟨⟨rfl, safe⟩, opened⟩
    | cons parent around =>
      obtain ⟨closed, safeClosed⟩ := safe.close (by simp [opened])
      have outer : builder.close.outer = around := by rw [outer_close, opened, List.tail_cons]
      rw [opened, List.length_cons] at enough
      rw [if_pos (by simp [stacked, opened]), closed, List.length_cons, closeOuter, ← outer]
      exact ih safeClosed (by rw [outer]; omega)

theorem source_closeOuter (builder : Builder) (count : Nat) :
    (builder.closeOuter count).source = builder.source := by
  induction count generalizing builder with
  | zero => rfl
  | succ count ih =>
    rw [closeOuter, ih]
    exact builder.source_add ⟨.close, ⟨0, 0⟩⟩

theorem close_document {opened : OpenNode} (document : opened.payload = .document) :
    opened.close = ⟨.document, opened.span, opened.attributes, opened.children⟩ := by
  simp only [OpenNode.close, document]

theorem Safe.finish (safe : builder.Safe) :
    (builder.stacked strict).finish = .ok builder.finish ∧ builder.finish.payload = .document ∧
      builder.finish.span = ⟨0, builder.source.size⟩ := by
  have closes := @Safe.closeAll strict _ safe _ (Nat.lt_succ_self builder.outer.length)
  obtain ⟨⟨closed, safeClosed⟩, alone⟩ := closes
  obtain ⟨flushed, safeFlushed⟩ := @Safe.flush strict _ safeClosed none
  have source := builder.source_closeOuter builder.outer.length
  rw [Builder.finish, CheckedBuilder.finish]
  generalize builder.closeOuter builder.outer.length = last at *
  have rounds : (builder.stacked strict).stack.length = builder.outer.length + 1 := rfl
  rw [rounds, closed, Checked.ok_bind, flushed]
  unfold Safe at safeFlushed
  rw [show (last.flush none).outer = [] from alone,
    show (last.flush none).source = builder.source from source] at safeFlushed
  cases safeFlushed with
  | document document whole _ =>
    rw [close_document document]
    refine ⟨?_, rfl, whole⟩
    rw [← document]
    rfl

end Builder

/-- Whatever the events are, something is open at every one of them, and no slice faults. What is
    built is the one document, from the start of the source to its end. Two lookups may miss, and do
    so just if they do not stand on boundaries: what a code span encloses, and what follows the
    marker of an item. -/
theorem Document.ofEvents_faultless (source : Source) (linkify : Bool) (events : List Event)
    (within : ∀ event ∈ events, (source.slice? event.span).isSome = true) :
    (∀ done rest, events = done ++ rest → ∃ builder,
      (CheckedBuilder.ofSource false source linkify).addAll done = .ok builder ∧
        builder.stack ≠ []) ∧
    CheckedBuilder.treeOf false source linkify events = .ok (ofEvents source linkify events).root ∧
    (ofEvents source linkify events).root.payload = .document ∧
    (ofEvents source linkify events).root.span = ⟨0, source.size⟩ ∧
    ((∀ event ∈ events, event.Hits source) →
      CheckedBuilder.treeOf true source linkify events =
        .ok (ofEvents source linkify events).root) ∧
    ((∃ event ∈ events, ¬ event.Hits source) →
      CheckedBuilder.treeOf true source linkify events = .error .slice) := by
  have start : (Builder.ofSource source linkify).Safe :=
    .document rfl rfl (Builder.sliced_nil source)
  have sliced : ∀ event ∈ events, ∃ text, source.slice? event.span = some text :=
    fun event member => Option.isSome_iff_exists.mp (within event member)
  have built (strict : Bool) (hits : strict = true → ∀ event ∈ events, event.Hits source) :
      CheckedBuilder.treeOf strict source linkify events =
          .ok (ofEvents source linkify events).root ∧
        (ofEvents source linkify events).root.payload = .document ∧
        (ofEvents source linkify events).root.span = ⟨0, source.size⟩ := by
    obtain ⟨added, safe⟩ := start.addAll sliced hits
    obtain ⟨finished, document, whole⟩ := @Builder.Safe.finish strict _ safe
    rw [Builder.source_addAll] at whole
    refine ⟨?_, document, whole⟩
    rw [CheckedBuilder.treeOf, show CheckedBuilder.ofSource strict source linkify =
      (Builder.ofSource source linkify).stacked strict from rfl, added]
    exact finished
  obtain ⟨lenient, document, whole⟩ := built false fun isStrict => by contradiction
  refine ⟨?_, lenient, document, whole, fun hits => (built true fun _ => hits).1, fun misses => ?_⟩
  · rintro done rest rfl
    have slicedDone : ∀ event ∈ done, ∃ text, source.slice? event.span = some text :=
      fun event member => sliced event (List.mem_append_left rest member)
    obtain ⟨added, -⟩ := @Builder.Safe.addAll false _ start _ slicedDone fun isStrict => by
      contradiction
    exact ⟨_, added, List.cons_ne_nil _ _⟩
  · rw [CheckedBuilder.treeOf, show CheckedBuilder.ofSource true source linkify =
      (Builder.ofSource source linkify).stacked true from rfl, start.addAll_of_miss sliced misses]
    rfl

/-- A surplus end, an item and a list that nothing ends, and a code span without backticks, behind
    whose first byte there is no boundary. -/
def unbalanced : List Event :=
  [⟨.close, ⟨0, 0⟩⟩, ⟨.start .item, ⟨0, 3⟩⟩, ⟨.text "a", ⟨2, 3⟩⟩, ⟨.code "é", ⟨4, 6⟩⟩,
    ⟨.start (.list none), ⟨2, 3⟩⟩]

theorem not_hits_unbalanced : ∃ event ∈ unbalanced, ¬ event.Hits (.ofString "- a é") := by
  refine ⟨⟨.code "é", ⟨4, 6⟩⟩, by decide, ?_⟩
  rw [← isSome_inner_iff "é" (rfl : (Source.ofString "- a é").slice? ⟨4, 6⟩ = some ['é'])]
  decide

theorem Document.ofEvents_faultless_unbalanced :
    let source := Source.ofString "- a é"
    (∃ builder, (CheckedBuilder.ofSource false source true).addAll unbalanced = .ok builder ∧
      builder.stack ≠ []) ∧
    (∃ root, CheckedBuilder.treeOf false source true unbalanced = .ok root ∧
      root.payload = .document ∧ root.span = ⟨0, 6⟩) ∧
    CheckedBuilder.treeOf true source true unbalanced = .error .slice := by
  intro source
  obtain ⟨opened, built, document, whole, -, faults⟩ :=
    ofEvents_faultless source true unbalanced (by decide)
  exact ⟨opened unbalanced [] (List.append_nil _).symm, ⟨_, built, document, whole⟩,
    faults not_hits_unbalanced⟩

/-- A code span that starts with a wide character has no inner range on boundaries. -/
theorem Document.lookup_misses_bareCode :
    ((Source.ofString "- a éé").slice? ⟨4, 8⟩).isSome = true ∧
    CheckedBuilder.treeOf true (.ofString "- a éé") false [⟨.code "éé", ⟨4, 8⟩⟩] =
      .error .slice := by
  refine ⟨by decide, ?_⟩
  rfl

end CanonicalMarkdown
