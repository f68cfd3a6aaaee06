import CanonicalMarkdown.Proofs.Tree.Content

namespace CanonicalMarkdown

section run

variable {run : List Piece}

def endMarks (run : List Piece) : Option LineBreak → List Mark
  | some lineBreak => [.lineBreak lineBreak.hard, .textEnd]
  | none => if run.isEmpty then [] else [.textEnd]

theorem widens_inlineNodes (source : Source) (linkify : Bool) (orderly : Orderly run)
    (lineBreak : Option LineBreak) :
    Widens (allMarks (inlineNodes source linkify run lineBreak))
      (charMarks (run.flatMap (·.literal.toList)) ++ endMarks run lineBreak) := by
  by_cases empty : run = []
  · subst empty
    cases lineBreak with
    | none => exact .nil
    | some lineBreak => exact Reads.nil.widens_break lineBreak
  · obtain ⟨nodes, reads⟩ := reads_runNodes source linkify orderly empty
    cases lineBreak with
    | none => simpa [inlineNodes, endMarks, empty] using reads.widens_end nodes
    | some lineBreak => exact reads.widens_break lineBreak

end run

theorem kindInside_not_leaf (opened : List Container) :
    kindInside opened ≠ .text ∧ kindInside opened ≠ .string ∧ kindInside opened ≠ .rawHtml := by
  cases opened with
  | nil => decide
  | cons container outer => cases container <;> simp [kindInside, Container.kind]

def Kind.isCode (kind : Kind) : Bool := kind = .codeBlock || kind = .fencedCodeBlock

def Kind.isVerbatim (kind : Kind) : Bool := kind.isCode || kind = .htmlBlock

theorem isCode_kindInside (opened : List Container) :
    (kindInside opened).isCode = opened.head?.any Container.isCode := by
  cases opened with
  | nil => rfl
  | cons container outer => cases container <;> rfl

theorem isVerbatim_kindInside (opened : List Container) :
    (kindInside opened).isVerbatim = opened.head?.any Container.isVerbatim := by
  cases opened with
  | nil => rfl
  | cons container outer => cases container <;> rfl

theorem kindInside_eq_htmlBlock {opened : List Container} :
    kindInside opened = .htmlBlock ↔ opened.head? = some .htmlBlock := by
  cases opened with
  | nil => decide
  | cons container outer => cases container <;> simp [kindInside, Container.kind]

namespace OpenNode

def heldText (opened : OpenNode) : List Char :=
  if opened.kind.isVerbatim then opened.buffer.toList else []

def runText (opened : OpenNode) : List Char := opened.run.flatMap (·.literal.toList)

def marks (opened : OpenNode) : List Mark :=
  .enter opened.kind ::
    (charMarks opened.heldText ++ allMarks opened.children ++ charMarks opened.runText)

variable {opened : OpenNode}

theorem marks_of_no_run (none : opened.run = []) :
    opened.marks =
      .enter opened.kind :: (charMarks opened.heldText ++ allMarks opened.children) := by
  simp [marks, runText, none]

theorem marks_grown (opened : OpenNode) (nodes : List Node) :
    { opened with run := [], children := opened.children ++ nodes }.marks =
      .enter opened.kind ::
        (charMarks opened.heldText ++ allMarks opened.children ++ allMarks nodes) := by
  rw [marks_of_no_run rfl, allMarks_append, ← List.append_assoc]
  rfl

theorem addText_of_not_code (other : opened.kind.isCode = false) (span : Span) (text : String) :
    opened.addText span text = { opened with run := opened.run ++ [⟨span, text⟩] } := by
  obtain ⟨payload, span, attributes, children, run, buffer, loose, column⟩ := opened
  cases payload with
  | codeBlock | fencedCodeBlock => contradiction
  | _ => rfl

theorem run_addText (code : opened.kind.isCode = true) (span : Span) (text : String) :
    (opened.addText span text).run = opened.run := by
  obtain ⟨payload, span, attributes, children, run, buffer, loose, column⟩ := opened
  cases payload with
  | codeBlock | fencedCodeBlock => rfl
  | _ => contradiction

theorem heldText_addText (code : opened.kind.isCode = true) (span : Span) (text : String) :
    (opened.addText span text).heldText = opened.heldText ++ text.toList := by
  obtain ⟨payload, span, attributes, children, run, buffer, loose, column⟩ := opened
  cases payload with
  | codeBlock | fencedCodeBlock => exact String.toList_append
  | _ => contradiction

theorem marks_read (opened : OpenNode) (piece : Piece) :
    { opened with run := opened.run ++ [piece] }.marks =
      opened.marks ++ charMarks piece.literal.toList := by
  show _ :: (_ ++ charMarks ((opened.run ++ [piece]).flatMap (·.literal.toList))) = _
  rw [List.flatMap_append, charMarks_append, ← List.append_assoc, List.flatMap_singleton]
  rfl

theorem heldText_of_verbatim (verbatim : opened.kind.isVerbatim = true) :
    opened.heldText = opened.buffer.toList := if_pos verbatim

theorem marks_held {grown : OpenNode} {text : List Char}
    (alone : opened.children = [] ∧ opened.run = []) (still : grown.children = [] ∧ grown.run = [])
    (kind : grown.kind = opened.kind) (held : grown.heldText = opened.heldText ++ text) :
    grown.marks = opened.marks ++ charMarks text := by
  simp [marks_of_no_run alone.2, marks_of_no_run still.2, alone.1, still.1, kind, held, allMarks]

theorem marks_hold (verbatim : opened.kind.isVerbatim = true)
    (alone : opened.children = [] ∧ opened.run = []) (text : String) :
    { opened with buffer := opened.buffer ++ text }.marks = opened.marks ++ charMarks text.toList := by
  have held : { opened with buffer := opened.buffer ++ text }.heldText =
      opened.heldText ++ text.toList := by
    rw [heldText_of_verbatim verbatim, ← String.toList_append]
    exact heldText_of_verbatim verbatim
  refine marks_held alone ?_ ?_ held
  · exact alone
  · rfl

structure IsFresh (opened : OpenNode) : Prop where
  children : opened.children = []
  run : opened.run = []
  buffer : opened.buffer = ""

theorem IsFresh.marks (fresh : opened.IsFresh) : opened.marks = [.enter opened.kind] := by
  simp [marks_of_no_run fresh.run, heldText, fresh.buffer, fresh.children, allMarks]

theorem widens_close {containers : List Container} (kind : opened.kind = kindInside containers)
    (none : opened.run = []) : Widens opened.close.marks (opened.marks ++ [.leave opened.kind]) := by
  obtain ⟨notText, notString, notHtml⟩ := kindInside_not_leaf containers
  rw [← kind] at notText notString notHtml
  have held : opened.close.payload.content = opened.heldText := by
    obtain ⟨payload, span, attributes, children, run, buffer, loose, column⟩ := opened
    cases payload with
    | codeBlock | fencedCodeBlock => exact content_linesOf buffer
    | htmlBlock =>
      show ((detachClosure (Text.linesOf buffer)).1
        ++ (detachClosure (Text.linesOf buffer)).2.toList).flatMap String.toList = _
      rw [detachClosure_append, content_linesOf]
      rfl
    | text | string | rawHtml => contradiction
    | _ => rfl
  have below : Widens (allMarks opened.close.children) (allMarks opened.children) := by
    obtain ⟨payload, span, attributes, children, run, buffer, loose, column⟩ := opened
    cases payload with
    | listItem | definitionDetails => exact widens_gatherParagraphs [] children
    | _ => exact Widens.refl _
  have closed : opened.close.kind ≠ .text := by
    rw [kind_close]
    exact notText
  rw [Node.marks_of_not_text closed, held, kind_close, marks_of_no_run none]
  exact .keep (((Widens.refl _).append below).append (Widens.refl _))

end OpenNode

section leaves

theorem marks_leaf {payload : Payload} (span : Span) (other : payload.kind ≠ .text) :
    (Node.leaf payload span).marks =
      .enter payload.kind :: (charMarks payload.content ++ [.leave payload.kind]) := by
  have marks : (Node.leaf payload span).marks = _ := Node.marks_of_not_text other
  rw [marks]
  simp [Node.leaf, Node.kind, allMarks]

theorem marks_rawHtml (span : Span) (html : String) :
    (Node.leaf (.rawHtml [html]) span).marks = Markup.leafMarks .rawHtml html := by
  rw [marks_leaf span (by simp [Payload.kind])]
  simp [Payload.kind, Payload.content, Markup.leafMarks]

theorem widens_codeSpan (source : Source) (span : Span) (code : String) :
    Widens (Builder.codeSpan source span code).marks (Markup.leafMarks .codeSpan code) := by
  have inner (payload : Payload) (inside : Span)
      (body : Widens (Node.leaf payload inside).marks (charMarks code.toList)) (delimiter : Nat) :
      Widens (Node.marks ⟨.codeSpan delimiter, span, {}, [.leaf payload inside]⟩)
        (Markup.leafMarks .codeSpan code) := by
    simp only [Node.marks, allMarks_singleton]
    exact .keep (body.append (Widens.refl _))
  refine inner _ _ ?_ _
  split
  · rw [marks_leaf _ (by simp [Payload.kind])]
    exact .add rfl ((Widens.refl _).behind (by simp [Mark.isAdded, Payload.kind]))
  · show Widens (charMarks code.toList ++ ([] ++ []) ++ [.textEnd]) _
    rw [List.append_nil, List.append_nil]
    exact (Widens.refl _).behind (by simp [Mark.isAdded])

end leaves

namespace Builder

def outerMarks (outer : List OpenNode) : List Mark := outer.reverse.flatMap OpenNode.marks

def marks (builder : Builder) : List Mark := outerMarks builder.outer ++ builder.top.marks

theorem outerMarks_cons (parent : OpenNode) (outer : List OpenNode) :
    outerMarks (parent :: outer) = outerMarks outer ++ parent.marks := by
  simp [outerMarks]

variable {builder : Builder}

theorem widens_flush (orderly : Orderly builder.top.run) (lineBreak : Option LineBreak) :
    Widens (builder.flush lineBreak).top.marks
      (builder.top.marks ++ endMarks builder.top.run lineBreak) := by
  have nodes := widens_inlineNodes builder.source (builder.linkify && !builder.insideLink) orderly
    lineBreak
  rw [flush, OpenNode.marks_grown, OpenNode.marks, List.cons_append, List.append_assoc _ _ (endMarks _ _)]
  exact .keep ((Widens.refl _).append nodes)

theorem widens_append (orderly : Orderly builder.top.run) (node : Node) :
    Widens (builder.append node).marks
      (builder.marks ++ endMarks builder.top.run none ++ node.marks) := by
  have grown : (builder.append node).top.marks =
      (builder.flush none).top.marks ++ node.marks := by
    have added := OpenNode.marks_grown (builder.flush none).top [node]
    rw [allMarks_singleton] at added
    rw [OpenNode.marks_of_no_run (show (builder.flush none).top.run = [] from rfl)]
    exact added.trans (by simp)
  have flushed := (Widens.refl (outerMarks builder.outer)).append
    ((widens_flush orderly none).append (Widens.refl node.marks))
  rw [marks, grown, marks]
  show Widens (outerMarks builder.outer ++ _) _
  simpa only [List.append_assoc] using flushed

theorem openNode_fresh (builder : Builder) (container : Container) (span : Span) :
    (builder.openNode container span).IsFresh := by
  cases container <;> exact ⟨rfl, rfl, rfl⟩

structure Reflects (builder : Builder) (inRun : Bool) (reach : Nat) (done : List Mark) : Prop where
  settled : ∀ around ∈ builder.outer, around.run = [] ∧ around.kind.isVerbatim = false
  silent : builder.top.kind.isVerbatim = true → builder.top.children = [] ∧ builder.top.run = []
  orderly : Orderly builder.top.run
  reached : ∀ piece ∈ builder.top.run, piece.span.stop ≤ reach
  inRun : inRun = !builder.top.run.isEmpty
  widens : Widens builder.marks done

namespace Reflects

variable {inRun : Bool} {reach : Nat} {done : List Mark}

theorem ofNoRun
    (settled : ∀ around ∈ builder.outer, around.run = [] ∧ around.kind.isVerbatim = false)
    (silent : builder.top.kind.isVerbatim = true → builder.top.children = [])
    (none : builder.top.run = []) (widens : Widens builder.marks done) :
    builder.Reflects false reach done where
  settled := settled
  silent verbatim := ⟨silent verbatim, none⟩
  orderly := none ▸ ⟨by simp, .nil⟩
  reached := by simp [none]
  inRun := by simp [none]
  widens := widens

theorem mono (reflects : builder.Reflects inRun reach done) {less : List Mark}
    (widens : Widens done less) : builder.Reflects inRun reach less :=
  { reflects with widens := reflects.widens.trans widens }

theorem loosen (reflects : builder.Reflects inRun reach done) (loose : Bool) :
    { builder with top := { builder.top with loose } }.Reflects inRun reach done :=
  ⟨reflects.settled, reflects.silent, reflects.orderly, reflects.reached, reflects.inRun,
    reflects.widens⟩

theorem flush (reflects : builder.Reflects inRun reach done)
    (writable : builder.top.kind.isVerbatim = false) (lineBreak : Option LineBreak) :
    (builder.flush lineBreak).Reflects false 0 (done ++ endMarks builder.top.run lineBreak) := by
  refine ofNoRun reflects.settled ?_ rfl ?_
  · exact fun verbatim => Bool.noConfusion (writable.symm.trans verbatim)
  · have grown := (Widens.refl (outerMarks builder.outer)).append
      (widens_flush reflects.orderly lineBreak)
    rw [← List.append_assoc] at grown
    exact grown.trans (reflects.widens.append (Widens.refl _))

theorem append (reflects : builder.Reflects inRun reach done)
    (writable : builder.top.kind.isVerbatim = false) {node : Node} {more : List Mark}
    (adds : Widens node.marks more) :
    (builder.append node).Reflects false 0 (done ++ endMarks builder.top.run none ++ more) := by
  refine ofNoRun reflects.settled ?_ rfl ?_
  · exact fun verbatim => Bool.noConfusion (writable.symm.trans verbatim)
  · exact (widens_append reflects.orderly node).trans
      ((reflects.widens.append (Widens.refl _)).append adds)

theorem push (reflects : builder.Reflects inRun reach done)
    (writable : builder.top.kind.isVerbatim = false) {node : OpenNode} (fresh : node.IsFresh) :
    (builder.push node).Reflects false 0
      (done ++ endMarks builder.top.run none ++ [.enter node.kind]) := by
  have flushed := reflects.flush writable none
  refine ofNoRun ?_ (fun _ => fresh.children) fresh.run ?_
  · exact List.forall_mem_cons.mpr ⟨⟨rfl, writable⟩, flushed.settled⟩
  · rw [← fresh.marks, marks]
    show Widens (outerMarks ((builder.flush none).top :: (builder.flush none).outer) ++ _) _
    rw [outerMarks_cons]
    exact flushed.widens.append (Widens.refl _)

theorem start (reflects : builder.Reflects inRun reach done)
    (writable : builder.top.kind.isVerbatim = false) (container : Container) (span : Span) :
    (builder.start container span).Reflects false 0
      (done ++ endMarks builder.top.run none ++ [.enter container.kind]) := by
  have fresh := builder.openNode_fresh container span
  rw [← builder.openNode_kind container span]
  unfold Builder.start
  dsimp only
  split
  · obtain ⟨loose, noted⟩ := builder.top.noteParagraph_eq
    rw [noted]
    exact (reflects.loosen loose).push writable fresh
  · exact reflects.push writable fresh

variable {opened : List Container}

theorem close {container : Container} (reflects : builder.Reflects inRun reach done)
    (opens : builder.Opens (container :: opened)) :
    builder.close.Reflects false 0
      (done ++ endMarks builder.top.run none ++ [.leave container.kind]) := by
  have flushed := widens_flush reflects.orderly none
  have kind : (builder.flush none).top.kind = kindInside (container :: opened) := opens.kind
  have closed := OpenNode.widens_close kind rfl
  rw [kind] at closed
  have settled := reflects.settled
  have widens := reflects.widens
  obtain ⟨parent, outer, around⟩ := opens.outer_ne_nil
  obtain ⟨source, linkify, top, _⟩ := builder
  obtain rfl : _ = parent :: outer := around
  obtain ⟨⟨noRun, writable⟩, others⟩ := List.forall_mem_cons.mp settled
  have around : (Builder.mk source linkify parent outer).Reflects false reach
      (outerMarks (parent :: outer)) := by
    refine ofNoRun others ?_ noRun ?_
    · exact fun verbatim => Bool.noConfusion (writable.symm.trans verbatim)
    · rw [outerMarks_cons]
      exact Widens.refl _
  have appended (loose : Bool) := (around.loosen loose).append writable closed
  refine (appended _).mono ?_
  rw [show endMarks _ none = [] by simp [noRun, endMarks], List.append_nil, ← List.append_assoc]
  refine Widens.append ?_ (Widens.refl _)
  have both := (Widens.refl (outerMarks (parent :: outer))).append flushed
  rw [← List.append_assoc] at both
  exact both.trans (widens.append (Widens.refl _))

theorem holdText (reflects : builder.Reflects inRun reach done)
    (code : builder.top.kind.isCode = true) (span : Span) (text : String) :
    { builder with top := builder.top.addText span text }.Reflects false 0
      (done ++ charMarks text.toList) := by
  obtain ⟨children, run⟩ := reflects.silent (by simp [Kind.isVerbatim, code])
  have still := And.intro ((builder.top.children_addText span text).trans children)
    ((OpenNode.run_addText code span text).trans run)
  refine ofNoRun reflects.settled (fun _ => still.1) still.2 ?_
  rw [marks, OpenNode.marks_held ⟨children, run⟩ still (OpenNode.kind_addText ..)
    (OpenNode.heldText_addText code span text), ← List.append_assoc]
  exact reflects.widens.append (Widens.refl _)

theorem readText (reflects : builder.Reflects inRun reach done)
    (writable : builder.top.kind.isVerbatim = false) {span : Span} (after : reach ≤ span.start)
    (some : span.start < span.stop) (text : String) :
    { builder with top := builder.top.addText span text }.Reflects true span.stop
      (done ++ charMarks text.toList) := by
  have notCode : builder.top.kind.isCode = false := (Bool.or_eq_false_iff.mp writable).1
  rw [OpenNode.addText_of_not_code notCode]
  have behind : ∀ piece ∈ builder.top.run, piece.span.stop ≤ span.start :=
    fun piece member => Nat.le_trans (reflects.reached piece member) after
  refine ⟨reflects.settled, ?_, reflects.orderly.concat some behind, ?_, by simp, ?_⟩
  · exact fun verbatim => Bool.noConfusion (writable.symm.trans verbatim)
  · intro piece member
    rcases List.mem_append.mp member with member | member
    · exact Nat.le_trans (behind piece member) (Nat.le_of_lt some)
    · exact Nat.le_of_eq (congrArg (·.span.stop) (List.mem_singleton.mp member))
  · rw [marks, OpenNode.marks_read, ← List.append_assoc]
    exact reflects.widens.append (Widens.refl _)

theorem html (reflects : builder.Reflects inRun reach done) (opens : builder.Opens opened)
    {span : Span} {html : String} (fits : Markup.fitsIn opened (.html html) = true) :
    (builder.html span html).Reflects false 0
      (done ++ endMarks builder.top.run none ++ Markup.marks opened (.html html)) := by
  have isCode : builder.top.kind.isCode = false := by
    rw [opens.kind, isCode_kindInside]
    simpa [Markup.fitsIn] using fits
  unfold Builder.html Markup.marks
  simp only [← kindInside_eq_htmlBlock, ← opens.kind]
  split
  · rename_i isHtml
    have verbatim : builder.top.kind.isVerbatim = true := by simp [Kind.isVerbatim, isHtml]
    obtain ⟨children, run⟩ := reflects.silent verbatim
    refine ofNoRun reflects.settled (fun _ => children) run ?_
    rw [marks, OpenNode.marks_hold verbatim ⟨children, run⟩, ← List.append_assoc,
      show endMarks builder.top.run none = [] by simp [run, endMarks], List.append_nil]
    exact reflects.widens.append (Widens.refl _)
  · rename_i notHtml
    exact reflects.append (by simp [Kind.isVerbatim, isCode, notHtml])
      (marks_rawHtml span html ▸ Widens.refl _)

theorem runEnd_eq (reflects : builder.Reflects inRun reach done) {markup : Markup}
    (apart : markup.joinsRun opened = false) (unbroken : markup.isBreak = false) :
    runEnd inRun opened markup = endMarks builder.top.run none := by
  simp [runEnd, endMarks, apart, unbroken, reflects.inRun]

theorem add (reflects : builder.Reflects inRun reach done) (opens : builder.Opens opened)
    {markup : Markup} {span : Span} (fits : markup.fitsIn opened = true)
    (ordered : markup.joinsRun opened = true → reach ≤ span.start ∧ span.start < span.stop) :
    (builder.add ⟨markup, span⟩).Reflects (markup.joinsRun opened)
      (if markup.joinsRun opened then span.stop else 0)
      (done ++ runEnd inRun opened markup ++ markup.marks opened) := by
  have writable (fits : (!opened.head?.any Container.isVerbatim) = true) :
      builder.top.kind.isVerbatim = false := by
    rw [opens.kind, isVerbatim_kindInside]
    simpa using fits
  cases markup with
  | text text =>
    have code : builder.top.kind.isCode = opened.head?.any Container.isCode := by
      rw [opens.kind, isCode_kindInside]
    -- the text of a code block is held back until the block ends; other text joins the run
    cases joins : Markup.joinsRun opened (.text text) with
    | true =>
      obtain ⟨after, some⟩ := ordered joins
      rw [show runEnd inRun opened _ = [] by simp [runEnd, joins], List.append_nil, if_pos rfl]
      refine reflects.readText ?_ after some text
      have notHtml : builder.top.kind ≠ .htmlBlock := by
        rw [opens.kind, Ne, kindInside_eq_htmlBlock]
        simpa [Markup.fitsIn] using fits
      simp_all [Kind.isVerbatim, Markup.joinsRun]
    | false =>
      have isCode : builder.top.kind.isCode = true := by simp_all [Markup.joinsRun]
      have noRun := (reflects.silent (by simp [Kind.isVerbatim, isCode])).2
      rw [reflects.runEnd_eq joins rfl, noRun]
      exact (List.append_nil done).symm ▸ reflects.holdText isCode span text
  | start container =>
    rw [reflects.runEnd_eq rfl rfl]
    exact reflects.start (writable fits) container span
  | close =>
    rw [reflects.runEnd_eq rfl rfl]
    cases opened with
    | nil => contradiction
    | cons container opened => exact reflects.close opens
  | code code =>
    rw [reflects.runEnd_eq rfl rfl]
    exact reflects.append (writable fits) (widens_codeSpan _ span code)
  | html html =>
    rw [reflects.runEnd_eq rfl rfl]
    exact reflects.html opens fits
  | inlineHtml html =>
    rw [reflects.runEnd_eq rfl rfl]
    exact reflects.append (writable fits) (marks_rawHtml span html ▸ Widens.refl _)
  | softBreak | hardBreak =>
    rw [show runEnd inRun opened _ = [] by simp [runEnd, Markup.isBreak], List.append_nil]
    exact reflects.flush (writable fits) _
  | rule =>
    rw [reflects.runEnd_eq rfl rfl]
    exact reflects.append (writable fits) (Widens.refl _)

theorem finish (reflects : builder.Reflects inRun reach done) (opens : builder.Opens []) :
    Widens builder.finish.marks (done ++ endMarks builder.top.run none ++ [.leave .document]) := by
  have kind : (builder.flush none).top.kind = kindInside [] := opens.kind
  have closed := OpenNode.widens_close kind rfl
  rw [kind] at closed
  have flushed := (widens_flush reflects.orderly none).append (Widens.refl [.leave .document])
  have widens := reflects.widens
  rw [marks, opens.outer_eq_nil] at widens
  rw [Builder.finish, opens.outer_eq_nil]
  exact (closed.trans flushed).trans ((widens.append (Widens.refl _)).append (Widens.refl _))

/-- After all events the root holds what they say, from the begin of the document to its end. -/
theorem finish_addAll (reflects : builder.Reflects inRun reach done) (opens : builder.Opens opened)
    {events : List Event} (readable : isReadable opened reach events = true) :
    Widens (events.foldl Builder.add builder).finish.marks
      (done ++ eventMarks opened inRun events ++ [.leave .document]) := by
  induction events generalizing builder opened inRun reach done with
  | nil =>
    obtain rfl := List.isEmpty_iff.mp readable
    have ends : eventMarks [] inRun [] = endMarks builder.top.run none := by
      simp [eventMarks, endMarks, reflects.inRun]
    rw [ends]
    exact reflects.finish opens
  | cons event rest ih =>
    obtain ⟨markup, span⟩ := event
    obtain ⟨fits, ordered, more⟩ := isReadable_cons readable
    have balanced : markup = .close → opened ≠ [] := by
      rintro rfl rfl
      contradiction
    have added := ih (reflects.add opens fits ordered) (opens.add balanced) more
    rw [List.append_assoc done, List.append_assoc done] at added
    exact added

end Reflects

theorem reflects_ofSource (source : Source) (linkify : Bool) :
    (ofSource source linkify).Reflects false 0 [.enter .document] := by
  refine Reflects.ofNoRun (by simp [ofSource]) (fun _ => rfl) rfl ?_
  exact Widens.refl _

end Builder

namespace Document

/-- The document of a readable stream reads as the stream does, and its nodes begin and end, and its
    texts end with a line break, where the stream says so; besides it has only texts, strings,
    paragraphs and bare addresses around what is there. -/
theorem ofEvents_keeps_content (source : Source) (linkify : Bool) {events : List Event}
    (readable : isReadable [] 0 events = true) :
    (Document.ofEvents source linkify events).root.contents = events.flatMap (·.markup.content) ∧
      Widens (Document.ofEvents source linkify events).root.marks
        (.enter .document :: eventMarks [] false events ++ [.leave .document]) := by
  have marks : Widens (Document.ofEvents source linkify events).root.marks
      (.enter .document :: eventMarks [] false events ++ [.leave .document]) :=
    (Builder.reflects_ofSource source linkify).finish_addAll
      (Builder.opens_ofSource source linkify) readable
  refine ⟨?_, marks⟩
  calc (Document.ofEvents source linkify events).root.contents
    _ = chars (Document.ofEvents source linkify events).root.marks := (Node.chars_marks _).symm
    _ = chars ([.enter .document] ++ eventMarks [] false events ++ [.leave .document]) :=
      marks.chars_eq
    _ = events.flatMap (·.markup.content) := by
      rw [chars_append, chars_append, chars_eventMarks]
      exact List.append_nil _

def linkedItem : List Event :=
  [⟨.start (.list none), ⟨0, 37⟩⟩, ⟨.start .item, ⟨0, 37⟩⟩, ⟨.text "see http://x.y", ⟨2, 16⟩⟩,
    ⟨.softBreak, ⟨16, 17⟩⟩, ⟨.code "d", ⟨19, 22⟩⟩, ⟨.text " e", ⟨22, 24⟩⟩,
    ⟨.start .htmlBlock, ⟨27, 37⟩⟩, ⟨.html "<!--\n", ⟨27, 32⟩⟩, ⟨.html "-->\n", ⟨34, 38⟩⟩,
    ⟨.close, ⟨27, 37⟩⟩, ⟨.close, ⟨0, 37⟩⟩, ⟨.close, ⟨0, 37⟩⟩]

theorem ofEvents_keeps_linkedItem :
    isReadable [] 0 linkedItem = true ∧
    (Document.ofEvents (.ofString "- see http://x.y\n  `d` e\n  <!--\n  -->\n") true
      linkedItem).root.contents = "see http://x.yd e<!--\n-->\n".toList ∧
    Widens (Document.ofEvents (.ofString "- see http://x.y\n  `d` e\n  <!--\n  -->\n") true
      linkedItem).root.marks
      (.enter .document :: eventMarks [] false linkedItem ++ [.leave .document]) := by
  have readable : isReadable [] 0 linkedItem = true := by decide
  obtain ⟨contents, marks⟩ := ofEvents_keeps_content
    (.ofString "- see http://x.y\n  `d` e\n  <!--\n  -->\n") true readable
  exact ⟨readable, contents.trans (by decide), marks⟩

end Document

end CanonicalMarkdown
