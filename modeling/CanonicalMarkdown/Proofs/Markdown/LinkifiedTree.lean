import CanonicalMarkdown.Proofs.Markdown.Linkified
import CanonicalMarkdown.Proofs.Tree.OpenKinds

namespace CanonicalMarkdown

section stream

def Container.isList : Container → Bool
  | .list _ => true
  | _ => false

def Container.emphasisLevel? : Container → Option Nat
  | .emphasis => some 1
  | .strong => some 2
  | _ => none

def listsHoldNoText : List Container → List Event → Bool
  | _, [] => true
  | opened, ⟨.text _, _⟩ :: rest => !opened.head?.any Container.isList && listsHoldNoText opened rest
  | opened, event :: rest => listsHoldNoText (event.markup.opens opened) rest

open Markdown in
/-- Text that follows the start of an emphasis stands right behind its marks. -/
def marksPrecede (source : Source) (event next : Event) : Bool :=
  match event.markup, next.markup with
  | .start container, .text _ =>
    container.emphasisLevel?.all fun level =>
      startsWithMarks source event.span level next.span.start
  | _, _ => true

/-- Each emphasis starts with its own marks. -/
def emphasesStartWithMarks (source : Source) : List Event → Bool
  | event :: next :: rest =>
    marksPrecede source event next && emphasesStartWithMarks source (next :: rest)
  | _ => true

end stream

namespace Markdown

structure LinkifiedOpen (source : Source) (inLink : Bool) (plain : OpenNode) (others : List Node) :
    Prop where
  children : Linkified source (plain.kind ≠ .list) plain.children others
  kept : inLink = true → plain.children = others
  notCode : plain.kind ≠ .codeSpan
  noText : plain.kind = .list → plain.run = []
  mark : ∀ level, plain.payload = .emphasis level → 0 < level ∧
    (plain.children = [] → ∀ piece ∈ plain.run.head?,
      startsWithMarks source plain.span level piece.span.start = true) ∧
    delimiterOf source ⟨plain.payload, plain.span, plain.attributes, plain.children⟩ =
      delimiterOf source ⟨plain.payload, plain.span, plain.attributes, others⟩

namespace LinkifiedOpen

variable {source : Source} {inLink : Bool} {plain : OpenNode} {others : List Node}

theorem grow (linkified : LinkifiedOpen source inLink plain others) {run : List Piece}
    (noText : plain.kind = .list → run = []) {more moreOthers : List Node}
    (gone : more = [] → run = []) (nodes : Linkified source (plain.kind ≠ .list) more moreOthers)
    (kept : inLink = true → more = moreOthers)
    (mark : ∀ level, plain.payload = .emphasis level → plain.children = [] →
      delimiterOf source ⟨plain.payload, plain.span, plain.attributes, more⟩ =
        delimiterOf source ⟨plain.payload, plain.span, plain.attributes, moreOthers⟩) :
    LinkifiedOpen source inLink { plain with run, children := plain.children ++ more }
      (others ++ moreOthers) where
  children := linkified.children.append nodes
  kept inside := by rw [linkified.kept inside, kept inside]
  notCode := linkified.notCode
  noText := noText
  mark level payload := by
    obtain ⟨some, _, same⟩ := linkified.mark level payload
    refine ⟨some, fun empty => by simp [gone (List.append_eq_nil_iff.mp empty).2], ?_⟩
    by_cases empty : plain.children = []
    · have none := linkified.children.eq_nil_iff.mp empty
      rw [empty, none]
      exact mark level payload empty
    · have someOther := mt linkified.children.eq_nil_iff.mpr empty
      exact (delimiterOf_append empty more).trans
        (same.trans (delimiterOf_append someOther moreOthers).symm)

theorem flush (linkified : LinkifiedOpen source inLink plain others)
    (lineBreak : Option LineBreak) :
    LinkifiedOpen source inLink
      { plain with
        run := [], children := plain.children ++ inlineNodes source false plain.run lineBreak }
      (others ++ inlineNodes source (!inLink) plain.run lineBreak) := by
  cases inLink with
  | true =>
    exact linkified.grow (fun _ => rfl) (fun _ => rfl) (.refl _ _) (fun _ => rfl) fun _ _ _ => rfl
  | false =>
    refine linkified.grow (fun _ => rfl) (fun _ => rfl) ?_ (fun inside => by contradiction)
      fun level payload empty => ?_
    · by_cases list : plain.kind = .list
      · rw [linkified.noText list, inlineNodes_eq, inlineNodes_eq]
        exact .refl _ _
      · rw [decide_eq_true list]
        exact .ofRun source plain.run lineBreak
    · cases head : plain.run.head? with
      | none =>
        rw [List.head?_eq_none_iff.mp head, inlineNodes_eq, inlineNodes_eq]
        rfl
      | some first =>
        obtain ⟨some, marks, _⟩ := linkified.mark level payload
        rw [inlineNodes_eq, inlineNodes_eq]
        rcases runNodes_linkified source head with
          same | ⟨stop, literal, text, one, sliced, someText, copies⟩
        · rw [Bool.not_false, same]
        · obtain ⟨mark, known⟩ := delimiterOf_of_marks some (marks empty first head)
          have alone := Copies.single sliced someText literal
          rw [one, known _ rfl (alone.startsAt (by simp) lineBreak),
            known _ rfl (copies.startsAt (copies.ne_nil someText) lineBreak)]

theorem loosen (linkified : LinkifiedOpen source inLink plain others) (loose : Bool) :
    LinkifiedOpen source inLink { plain with loose } others :=
  ⟨linkified.children, linkified.kept, linkified.notCode, linkified.noText, linkified.mark⟩

theorem hold (linkified : LinkifiedOpen source inLink plain others) (buffer : String) :
    LinkifiedOpen source inLink { plain with buffer } others :=
  ⟨linkified.children, linkified.kept, linkified.notCode, linkified.noText, linkified.mark⟩

theorem close (linkified : LinkifiedOpen source inLink plain others)
    (image : plain.kind = .image → inLink = true) (parted : Bool) :
    Linkified source parted [plain.close] [{ plain with children := others }.close] := by
  have finish (payload : Payload) (plainChildren otherChildren : List Node)
      (mark : payload.kind = .emphasis →
        delimiterOf source ⟨payload, plain.span, plain.attributes, plainChildren⟩ =
          delimiterOf source ⟨payload, plain.span, plain.attributes, otherChildren⟩)
      (kept : payload.kind = .image ∨ payload.kind = .codeSpan → plainChildren = otherChildren)
      (children : Linkified source (payload.kind ≠ .list) plainChildren otherChildren) :
      Linkified source parted [⟨payload, plain.span, plain.attributes, plainChildren⟩]
        [⟨payload, plain.span, plain.attributes, otherChildren⟩] :=
    .node (fun _ => rfl) mark kept children .nil
  obtain ⟨children, kept, notCode, _, mark⟩ := linkified
  obtain ⟨payload, span, attributes, plainChildren, run, buffer, loose, column⟩ := plain
  cases payload with
  | listItem | definitionDetails =>
    exact finish _ _ _ (fun isMark => by cases isMark)
      (fun isOther => by cases isOther <;> contradiction) (.gathered .nil children)
  | emphasis level =>
    exact finish _ _ _ (fun _ => (mark level rfl).2.2)
      (fun isOther => by cases isOther <;> contradiction) children
  | image => exact finish _ _ _ (fun isMark => by cases isMark) (fun _ => kept (image rfl)) children
  | codeSpan => exact absurd rfl notCode
  | _ =>
    exact finish _ _ _ (fun isMark => by cases isMark)
      (fun isOther => by cases isOther <;> contradiction) children

theorem addText (linkified : LinkifiedOpen source inLink plain others) {span : Span} {text : String}
    (notList : plain.kind ≠ .list)
    (marks : ∀ level, plain.payload = .emphasis level → plain.children = [] → plain.run = [] →
      startsWithMarks source plain.span level span.start = true) :
    LinkifiedOpen source inLink (plain.addText span text) others := by
  obtain ⟨children, kept, notCode, noText, mark⟩ := linkified
  obtain ⟨payload, outside, attributes, plainChildren, run, buffer, loose, column⟩ := plain
  cases payload with
  | codeBlock | fencedCodeBlock =>
    exact ⟨children, kept, notCode, noText, fun level isMark => by cases isMark⟩
  | emphasis level =>
    refine ⟨children, kept, notCode, fun isList => absurd isList notList, ?_⟩
    rintro _ ⟨⟩
    obtain ⟨some, first, same⟩ := mark level rfl
    refine ⟨some, fun empty piece member => ?_, same⟩
    cases run with
    | nil =>
      obtain rfl : piece = ⟨span, text⟩ := (Option.some.inj member).symm
      exact marks level rfl empty rfl
    | cons earlier more => exact first empty piece member
  | _ =>
    exact ⟨children, kept, notCode, fun isList => absurd isList notList,
      fun level isMark => by cases isMark⟩

theorem ofFresh {node : OpenNode} (children : node.children = []) (run : node.run = [])
    (notCode : node.kind ≠ .codeSpan)
    (levels : ∀ level, node.payload = .emphasis level → 0 < level) (inLink : Bool) :
    LinkifiedOpen source inLink node [] where
  children := by
    rw [children]
    exact .nil
  kept _ := children
  notCode := notCode
  noText _ := run
  mark level payload := ⟨levels level payload, by simp [run], by rw [children]⟩

end LinkifiedOpen

theorem addText_children (plain : OpenNode) (others : List Node) (span : Span) (text : String) :
    { plain with children := others }.addText span text =
      { plain.addText span text with children := others } := by
  unfold OpenNode.addText
  dsimp only
  split <;> rfl

theorem noteParagraph_children (plain : OpenNode) (others : List Node) :
    { plain with children := others }.noteParagraph =
      { plain.noteParagraph with children := others } := by
  obtain ⟨payload, span, attributes, children, run, buffer, loose, column⟩ := plain
  cases payload <;> rfl

theorem payload_close (plain : OpenNode) (others : List Node) :
    { plain with children := others }.close.payload = plain.close.payload := by
  unfold OpenNode.close
  dsimp only
  split <;> rfl

inductive LinkifiedStack (source : Source) : List OpenNode → List OpenNode → Prop
  | nil : LinkifiedStack source [] []
  | cons {plain : OpenNode} {others : List Node} {outer outers : List OpenNode} :
      LinkifiedOpen source ((plain :: outer).any OpenNode.isLink) plain others →
      LinkifiedStack source outer outers →
      LinkifiedStack source (plain :: outer) ({ plain with children := others } :: outers)

theorem LinkifiedStack.any_isLink {source : Source} {plain linked : List OpenNode}
    (stack : LinkifiedStack source plain linked) :
    linked.any OpenNode.isLink = plain.any OpenNode.isLink := by
  induction stack with
  | nil => rfl
  | cons _ _ ih =>
    rw [List.any_cons, List.any_cons, ih]
    rfl

theorem LinkifiedStack.find?_isPadded {source : Source} {plain linked : List OpenNode}
    (stack : LinkifiedStack source plain linked) :
    (linked.find? OpenNode.isPadded).map (fun opened => (opened.kind, opened.contentColumn)) =
      (plain.find? OpenNode.isPadded).map fun opened => (opened.kind, opened.contentColumn) := by
  induction stack with
  | nil => rfl
  | @cons plain others _ _ _ _ ih =>
    rw [List.find?_cons, List.find?_cons, show OpenNode.isPadded { plain with children := others } =
      plain.isPadded from rfl]
    cases plain.isPadded with
    | true => rfl
    | false => exact ih

inductive LinkifiedBuilder : Builder → Builder → Prop
  | mk {source : Source} {top : OpenNode} {others : List Node} {outer outers : List OpenNode} :
      LinkifiedOpen source ((top :: outer).any OpenNode.isLink) top others →
      LinkifiedStack source outer outers →
      LinkifiedBuilder ⟨source, false, top, outer⟩
        ⟨source, true, { top with children := others }, outers⟩

def Ready (builder : Builder) (next : Event) : Prop :=
  ∀ text, next.markup = .text text → ∀ level, builder.top.payload = .emphasis level →
    builder.top.children = [] → builder.top.run = [] →
    startsWithMarks builder.source builder.top.span level next.span.start = true

namespace LinkifiedBuilder

variable {plain linked : Builder}

theorem flush (linkified : LinkifiedBuilder plain linked) (lineBreak : Option LineBreak) :
    LinkifiedBuilder (plain.flush lineBreak) (linked.flush lineBreak) := by
  cases linkified with
  | @mk source top others outer outers here around =>
    have outside : (!(top :: outer).any OpenNode.isLink) =
        (true && !Builder.insideLink ⟨source, true, { top with children := others }, outers⟩) :=
      congrArg _ (LinkifiedStack.cons here around).any_isLink.symm
    have flushed := here.flush lineBreak
    rw [outside] at flushed
    exact .mk flushed around

theorem loosen (linkified : LinkifiedBuilder plain linked) (loose : Bool) :
    LinkifiedBuilder { plain with top := { plain.top with loose } }
      { linked with top := { linked.top with loose } } := by
  cases linkified with
  | @mk source top others outer outers here around =>
    exact @mk source { top with loose } others outer outers (here.loosen loose) around

theorem append (linkified : LinkifiedBuilder plain linked) {node other : Node}
    (nodes : ∀ parted, Linkified plain.source parted [node] [other])
    (payload : node.payload = other.payload) (kept : plain.insideLink = true → node = other) :
    LinkifiedBuilder (plain.append node) (linked.append other) := by
  have flushed := linkified.flush none
  have inLink : (plain.flush none).insideLink = plain.insideLink := rfl
  rw [← inLink] at kept
  rw [show plain.source = (plain.flush none).source from rfl] at nodes
  unfold Builder.append
  generalize plain.flush none = plain at flushed nodes kept
  generalize linked.flush none = linked at flushed
  cases flushed with
  | mk here around =>
    refine .mk (here.grow here.noText (by simp) (nodes _) ?_ ?_) around
    · intro inside
      rw [kept inside]
    · exact fun level _ _ => delimiterOf_congr rfl (congrArg some payload)

theorem push (linkified : LinkifiedBuilder plain linked) {node : OpenNode}
    (children : node.children = []) (run : node.run = []) (notCode : node.kind ≠ .codeSpan)
    (levels : ∀ level, node.payload = .emphasis level → 0 < level) :
    LinkifiedBuilder (plain.push node) (linked.push node) := by
  have flushed := linkified.flush none
  unfold Builder.push
  generalize plain.flush none = plain at flushed
  generalize linked.flush none = linked at flushed
  cases flushed with
  | @mk source top others outer outers here around =>
    have fresh : LinkifiedOpen source ((node :: top :: outer).any OpenNode.isLink) node [] :=
      .ofFresh children run notCode levels _
    have pushed := LinkifiedBuilder.mk fresh (.cons here around)
    rw [← children] at pushed
    exact pushed

theorem containerColumn_eq (builder : Builder) :
    builder.containerColumn =
      ((((builder.top :: builder.outer).find? OpenNode.isPadded).map fun opened =>
        (opened.kind, opened.contentColumn)).elim 0 fun found =>
          if found.1 = .listItem then found.2 else 0) := by
  unfold Builder.containerColumn
  cases (builder.top :: builder.outer).find? OpenNode.isPadded <;> rfl

theorem containerColumn (linkified : LinkifiedBuilder plain linked) :
    linked.containerColumn = plain.containerColumn := by
  cases linkified with
  | mk here around =>
    have same := (LinkifiedStack.cons here around).find?_isPadded
    rw [containerColumn_eq, containerColumn_eq, same]

theorem closeTop (linkified : LinkifiedBuilder plain linked) :
    (∀ parted, Linkified plain.source parted [plain.top.close] [linked.top.close]) ∧
      plain.top.close.payload = linked.top.close.payload ∧
      (plain.insideLink = true → plain.top.close = linked.top.close) := by
  cases linkified with
  | @mk source top others outer outers here around =>
    refine ⟨fun parted => here.close (fun image => ?_) parted, (payload_close top others).symm, ?_⟩
    · simp [OpenNode.isLink, image]
    · intro inside
      rw [← here.kept inside]

theorem close (linkified : LinkifiedBuilder plain linked) :
    LinkifiedBuilder plain.close linked.close := by
  obtain ⟨nodes, payload, kept⟩ := (linkified.flush none).closeTop
  cases linkified with
  | mk here around =>
    cases around with
    | nil => exact .mk here .nil
    | cons parent around =>
      have appended (loose : Bool) :=
        ((LinkifiedBuilder.mk parent around).loosen loose).append nodes payload fun inside =>
          kept (Bool.or_eq_true_iff.mpr (.inr inside))
      exact appended _

theorem openNode (linkified : LinkifiedBuilder plain linked) (container : Container) (span : Span) :
    linked.openNode container span = plain.openNode container span := by
  have column := linkified.containerColumn
  cases linkified with
  | mk here around =>
    cases container with
    | item =>
      simp only [Builder.openNode, Builder.openItem, column]
    | _ => rfl

theorem start (linkified : LinkifiedBuilder plain linked) (container : Container) (span : Span) :
    LinkifiedBuilder (plain.start container span) (linked.start container span) := by
  have pushed {plain' linked' : Builder} (linkified' : LinkifiedBuilder plain' linked') :
      LinkifiedBuilder (plain'.push (plain.openNode container span))
        (linked'.push (linked.openNode container span)) := by
    rw [linkified.openNode]
    refine linkified'.push ?_ ?_ ?_ ?_
    · cases container <;> rfl
    · cases container <;> rfl
    · cases container <;> simp [Builder.openNode_kind, Container.kind]
    · cases container <;> rintro level ⟨⟩ <;> decide
  unfold Builder.start
  dsimp only
  split
  · refine pushed ?_
    obtain ⟨loose, noted⟩ := plain.top.noteParagraph_eq
    have notedLinked : linked.top.noteParagraph = { linked.top with loose } := by
      cases linkified with
      | @mk source top others outer outers here around =>
        rw [noteParagraph_children, noted]
    rw [noted, notedLinked]
    exact linkified.loosen loose
  · exact pushed linkified

theorem addText (linkified : LinkifiedBuilder plain linked) {span : Span} {text : String}
    (notList : plain.top.kind ≠ .list)
    (marks : ∀ level, plain.top.payload = .emphasis level → plain.top.children = [] →
      plain.top.run = [] → startsWithMarks plain.source plain.top.span level span.start = true) :
    LinkifiedBuilder { plain with top := plain.top.addText span text }
      { linked with top := linked.top.addText span text } := by
  cases linkified with
  | @mk source top others outer outers here around =>
    have read : LinkifiedOpen source _ (top.addText span text) others :=
      here.addText notList marks
    have isLink : (top.addText span text).isLink = top.isLink := by
      simp only [OpenNode.isLink, OpenNode.kind_addText]
    rw [List.any_cons, ← isLink, ← List.any_cons] at read
    simp only [addText_children]
    exact .mk read around

theorem appendSame (linkified : LinkifiedBuilder plain linked) (node : Node) :
    LinkifiedBuilder (plain.append node) (linked.append node) :=
  linkified.append (fun parted => .refl [node] parted) rfl fun _ => rfl

theorem source_eq (linkified : LinkifiedBuilder plain linked) : linked.source = plain.source := by
  cases linkified
  rfl

theorem html (linkified : LinkifiedBuilder plain linked) (span : Span) (html : String) :
    LinkifiedBuilder (plain.html span html) (linked.html span html) := by
  have same : linked.top.kind = plain.top.kind := by
    cases linkified
    rfl
  by_cases block : plain.top.kind = .htmlBlock
  · rw [Builder.html, Builder.html, if_pos block, if_pos (same.trans block)]
    cases linkified with
    | mk here around => exact .mk (here.hold _) around
  · rw [Builder.html, Builder.html, if_neg block, if_neg (same ▸ block)]
    exact linkified.appendSame _

theorem add (linkified : LinkifiedBuilder plain linked) {event : Event}
    (outsideLists : ∀ text, event.markup = .text text → plain.top.kind ≠ .list)
    (ready : Ready plain event) : LinkifiedBuilder (plain.add event) (linked.add event) := by
  obtain ⟨markup, span⟩ := event
  cases markup with
  | start container => exact linkified.start container span
  | close => exact linkified.close
  | text text => exact linkified.addText (outsideLists text rfl) (ready text rfl)
  | code code =>
    -- the marks of a code span are read off the source, which both builders share
    show LinkifiedBuilder _ (linked.append (Builder.codeSpan linked.source span code))
    rw [linkified.source_eq]
    exact linkified.appendSame _
  | html html => exact linkified.html span html
  | inlineHtml html => exact linkified.appendSame _
  | softBreak | hardBreak => exact linkified.flush _
  | rule => exact linkified.appendSame _

end LinkifiedBuilder

theorem emphasisLevel?_of_payload {builder : Builder} {container : Container} {span : Span}
    {level : Nat} (payload : (builder.openNode container span).payload = .emphasis level) :
    container.emphasisLevel? = some level := by
  cases container <;> cases payload <;> rfl

theorem run_addText_ne_nil {opened : OpenNode} {span : Span} {text : String} {level : Nat}
    (payload : (opened.addText span text).payload = .emphasis level) :
    (opened.addText span text).run ≠ [] := by
  obtain ⟨own, _, _, _, _, _, _, _⟩ := opened
  cases own <;> first | (cases payload; done) | simp [OpenNode.addText]

theorem ready_add {builder : Builder} {opened : List Container} (opens : builder.Opens opened)
    {event next : Event} (balanced : event.markup = .close → opened ≠ [])
    (precede : marksPrecede builder.source event next = true) : Ready (builder.add event) next := by
  intro text isText level payload children run
  rw [builder.source_add]
  obtain ⟨markup, span⟩ := event
  cases markup with
  | start container =>
    rw [Builder.add, Builder.top_start] at payload ⊢
    have known := emphasisLevel?_of_payload payload
    have same : (builder.openNode container span).span = span := by cases container <;> rfl
    rw [same]
    simpa [marksPrecede, isText, known] using precede
  | close =>
    obtain ⟨container, outer, rfl⟩ := List.exists_cons_of_ne_nil (balanced rfl)
    obtain ⟨parent, rest, around⟩ := opens.outer_ne_nil
    rw [Builder.add, Builder.close, around] at children
    simp [Builder.append] at children
  | text text => exact absurd run (run_addText_ne_nil payload)
  | html html =>
    by_cases block : builder.top.kind = .htmlBlock
    · change (builder.html span html).top.payload = _ at payload
      rw [Builder.html, if_pos block] at payload
      rw [OpenNode.kind, show builder.top.payload = _ from payload] at block
      contradiction
    · change (builder.html span html).top.children = [] at children
      rw [Builder.html, if_neg block] at children
      simp [Builder.append, Builder.rawHtml] at children
  | code | inlineHtml | rule => simp [Builder.add, Builder.append, Builder.rawHtml] at children
  | softBreak | hardBreak =>
    simp [Builder.add, Builder.flush, inlineNodes_eq, endRun, addBreak_ne_nil] at children

theorem wellNested_cons {opened : List Container} {event : Event} {rest : List Event}
    (nested : wellNested opened (event :: rest) = true) :
    (event.markup = .close → opened ≠ []) ∧ wellNested (event.markup.opens opened) rest = true := by
  obtain ⟨markup, span⟩ := event
  cases markup with
  | start container => exact ⟨fun closes => by contradiction, (Bool.and_eq_true_iff.mp nested).2⟩
  | close =>
    cases opened with
    | nil => contradiction
    | cons container outer => exact ⟨fun _ => by simp, nested⟩
  | _ => exact ⟨fun closes => by contradiction, nested⟩

theorem listsHoldNoText_cons {opened : List Container} {event : Event} {rest : List Event}
    (outside : listsHoldNoText opened (event :: rest) = true) :
    (∀ text, event.markup = .text text → kindInside opened ≠ .list) ∧
      listsHoldNoText (event.markup.opens opened) rest = true := by
  obtain ⟨markup, span⟩ := event
  cases markup with
  | text text =>
    obtain ⟨notList, more⟩ := Bool.and_eq_true_iff.mp outside
    refine ⟨fun _ _ => ?_, more⟩
    cases opened with
    | nil => decide
    | cons container outer =>
      cases container <;> first | contradiction | simp [kindInside, Container.kind]
  | _ => exact ⟨fun _ isText => by contradiction, outside⟩

theorem emphasesStartWithMarks_cons {source : Source} {event : Event} {rest : List Event}
    (marks : emphasesStartWithMarks source (event :: rest) = true) :
    (∀ next ∈ rest.head?, marksPrecede source event next = true) ∧
      emphasesStartWithMarks source rest = true := by
  cases rest with
  | nil => exact ⟨fun next none => by contradiction, rfl⟩
  | cons next more =>
    obtain ⟨precede, marks⟩ := Bool.and_eq_true_iff.mp marks
    refine ⟨?_, marks⟩
    rintro _ ⟨⟩
    exact precede

namespace LinkifiedBuilder

variable {plain linked : Builder}

theorem addAll (linkified : LinkifiedBuilder plain linked) {opened : List Container}
    (opens : plain.Opens opened) (events : List Event) (nested : wellNested opened events = true)
    (outside : listsHoldNoText opened events = true)
    (marks : emphasesStartWithMarks plain.source events = true)
    (ready : ∀ first ∈ events.head?, Ready plain first) :
    LinkifiedBuilder (events.foldl Builder.add plain) (events.foldl Builder.add linked) ∧
      (events.foldl Builder.add plain).Opens [] := by
  induction events generalizing plain linked opened with
  | nil =>
    obtain rfl := List.isEmpty_iff.mp nested
    exact ⟨linkified, opens⟩
  | cons event rest ih =>
    obtain ⟨balanced, nestedRest⟩ := wellNested_cons nested
    obtain ⟨notInList, outsideRest⟩ := listsHoldNoText_cons outside
    obtain ⟨precede, marksRest⟩ := emphasesStartWithMarks_cons marks
    rw [← opens.kind] at notInList
    -- only this event can have started the emphasis that the next one may be the first text of
    refine ih (linkified.add notInList (ready event rfl)) (opens.add balanced) nestedRest
      outsideRest ?_ fun next first => ready_add opens balanced (precede next first)
    rw [plain.source_add]
    exact marksRest

theorem finish (linkified : LinkifiedBuilder plain linked) (opens : plain.Opens []) :
    Linkified plain.source true [plain.finish] [linked.finish] := by
  have plainAlone := opens.outer_eq_nil
  have linkedAlone : linked.outer = [] := by
    cases linkified with
    | mk here around =>
      obtain rfl : _ = [] := plainAlone
      cases around
      rfl
  rw [Builder.finish, Builder.finish, plainAlone, linkedAlone]
  exact (linkified.flush none).closeTop.1 true

end LinkifiedBuilder

theorem linkifiedBuilder_ofSource (source : Source) :
    LinkifiedBuilder (.ofSource source false) (.ofSource source true) := by
  have fresh : LinkifiedOpen source false (Builder.ofSource source false).top [] :=
    .ofFresh rfl rfl (fun isCode => by cases isCode) (fun level isMark => by cases isMark) false
  exact .mk fresh .nil

theorem linkified_ofEvents (source : Source) {events : List Event}
    (nested : wellNested [] events = true) (outside : listsHoldNoText [] events = true)
    (marks : emphasesStartWithMarks source events = true) :
    Linkified source true [(Document.ofEvents source false events).root]
      [(Document.ofEvents source true events).root] := by
  obtain ⟨linkified, opens⟩ := (linkifiedBuilder_ofSource source).addAll
    (Builder.opens_ofSource source false) events nested outside marks
    fun first _ text _ level payload => by cases payload
  have finished := linkified.finish opens
  rwa [Builder.source_addAll] at finished

end Markdown

end CanonicalMarkdown
