import CanonicalMarkdown.Proofs.Tree.BuiltContent

namespace CanonicalMarkdown

/-- Nodes between two offsets, each of them behind the one before, with its children inside it. A
    text has no children, and its segment is its span. -/
inductive InOrder : Nat → List Node → Nat → Prop
  | nil {start stop : Nat} : start ≤ stop → InOrder start [] stop
  | cons {start stop : Nat} {payload : Payload} {span : Span} {attributes : Attributes}
      {children rest : List Node} :
      start ≤ span.start → InOrder span.start children span.stop →
      (∀ run, payload = .text run → run.segment = span ∧ children = []) →
      InOrder span.stop rest stop →
      InOrder start (⟨payload, span, attributes, children⟩ :: rest) stop

namespace InOrder

variable {start middle stop : Nat} {nodes left right : List Node}

theorem le (inOrder : InOrder start nodes stop) : start ≤ stop := by
  induction inOrder with
  | nil le => exact le
  | cons after _ _ _ inside behind => omega

theorem from_le {earlier : Nat} (inOrder : InOrder start nodes stop) (le : earlier ≤ start) :
    InOrder earlier nodes stop := by
  cases inOrder with
  | nil before => exact .nil (Nat.le_trans le before)
  | cons after inside text behind => exact .cons (Nat.le_trans le after) inside text behind

theorem append (first : InOrder start left middle) (second : InOrder middle right stop) :
    InOrder start (left ++ right) stop := by
  induction first with
  | nil le => exact second.from_le le
  | cons after inside text _ _ ih => exact .cons after inside text (ih second)

theorem to_le {later : Nat} (inOrder : InOrder start nodes stop) (le : stop ≤ later) :
    InOrder start nodes later := by
  have extended := inOrder.append (.nil le)
  rwa [List.append_nil] at extended

theorem split (inOrder : InOrder start (left ++ right) stop) :
    ∃ middle, InOrder start left middle ∧ InOrder middle right stop := by
  induction left generalizing start with
  | nil => exact ⟨start, .nil (Nat.le_refl _), inOrder⟩
  | cons node rest ih =>
    cases inOrder with
    | cons after inside text behind =>
      obtain ⟨middle, first, second⟩ := ih behind
      exact ⟨middle, .cons after inside text first, second⟩

theorem to_last {last : Node} (inOrder : InOrder start nodes stop)
    (final : nodes.getLast? = some last) : InOrder start nodes last.span.stop ∧ last.span.stop ≤ stop := by
  obtain ⟨front, rfl⟩ := List.getLast?_eq_some_iff.mp final
  obtain ⟨middle, first, second⟩ := inOrder.split
  cases second with
  | cons after inside text behind =>
    exact ⟨first.append (.cons after inside text (.nil (Nat.le_refl _))), behind.le⟩

theorem from_first {first : Node} (inOrder : InOrder start nodes stop)
    (head : nodes.head? = some first) : start ≤ first.span.start ∧ InOrder first.span.start nodes stop := by
  obtain ⟨rest, rfl⟩ := List.head?_eq_some_iff.mp head
  cases inOrder with
  | cons after inside text behind => exact ⟨after, .cons (Nat.le_refl _) inside text behind⟩

theorem single (node : Node) (other : node.kind ≠ .text)
    (inside : InOrder node.span.start node.children node.span.stop) :
    InOrder node.span.start [node] node.span.stop := by
  obtain ⟨payload, span, attributes, children⟩ := node
  exact .cons (Nat.le_refl _) inside (fun _ text => absurd (congrArg Payload.kind text) other)
    (.nil (Nat.le_refl _))

theorem leaf {payload : Payload} {span : Span} (other : payload.kind ≠ .text)
    (le : span.start ≤ span.stop) : InOrder span.start [.leaf payload span] span.stop :=
  single (.leaf payload span) other (.nil le)

theorem text (run : TextRun) (le : run.segment.start ≤ run.segment.stop) :
    InOrder run.segment.start [.leaf (.text run) run.segment] run.segment.stop :=
  .cons (Nat.le_refl _) (.nil le)
    (fun _ same => ⟨congrArg TextRun.segment (Payload.text.inj same).symm, rfl⟩)
    (.nil (Nat.le_refl _))

theorem ofText (span : Span) (literal : String) (le : span.start ≤ span.stop) :
    InOrder span.start [.ofText span literal] span.stop := text { segment := span, literal } le

theorem bareUrl (span : Span) (url : String) (le : span.start ≤ span.stop) :
    InOrder span.start [.ofBareUrl span url] span.stop :=
  single (.ofBareUrl span url) (by simp [Node.ofBareUrl, Node.kind, Payload.kind])
    (ofText span url le)

end InOrder

def Payload.segment? : Payload → Option Span
  | .text run => some run.segment
  | _ => none

mutual

def Node.segments : Node → List Span
  | ⟨payload, _, _, children⟩ => payload.segment?.toList ++ allSegments children

def allSegments : List Node → List Span
  | [] => []
  | node :: rest => node.segments ++ allSegments rest

end

theorem allSegments_append (left right : List Node) :
    allSegments (left ++ right) = allSegments left ++ allSegments right := by
  induction left with
  | nil => rfl
  | cons node rest ih => simp [allSegments, ih]

structure Span.LiesIn (span : Span) (start stop : Nat) : Prop where
  starts : start ≤ span.start
  ordered : span.start ≤ span.stop
  stops : span.stop ≤ stop

namespace Span.LiesIn

variable {span : Span} {start stop : Nat}

theorem mono (lies : span.LiesIn start stop) {earlier later : Nat} (before : earlier ≤ start)
    (after : stop ≤ later) : span.LiesIn earlier later :=
  ⟨Nat.le_trans before lies.starts, lies.ordered, Nat.le_trans lies.stops after⟩

instance : Decidable (span.LiesIn start stop) :=
  decidable_of_iff (start ≤ span.start ∧ span.start ≤ span.stop ∧ span.stop ≤ stop)
    ⟨fun ⟨starts, ordered, stops⟩ => ⟨starts, ordered, stops⟩,
      fun lies => ⟨lies.starts, lies.ordered, lies.stops⟩⟩

end Span.LiesIn

structure SpansFollow (spans : List Span) (start stop : Nat) : Prop where
  inside : ∀ span ∈ spans, span.LiesIn start stop
  follow : spans.Pairwise fun left right => left.stop ≤ right.start

namespace SpansFollow

variable {left right : List Span} {start middle stop : Nat}

theorem append (first : SpansFollow left start middle) (second : SpansFollow right middle stop)
    (begins : start ≤ middle) (ends : middle ≤ stop) : SpansFollow (left ++ right) start stop := by
  constructor
  · intro span member
    rcases List.mem_append.mp member with member | member
    · exact (first.inside span member).mono (Nat.le_refl _) ends
    · exact (second.inside span member).mono begins (Nat.le_refl _)
  · refine List.pairwise_append.mpr ⟨first.follow, second.follow, ?_⟩
    intro span member other otherMember
    exact Nat.le_trans (first.inside span member).stops (second.inside other otherMember).starts

end SpansFollow

theorem InOrder.segments {start stop : Nat} {nodes : List Node} (inOrder : InOrder start nodes stop) :
    SpansFollow (allSegments nodes) start stop := by
  induction inOrder with
  | nil => exact ⟨by simp [allSegments], by simp [allSegments]⟩
  | @cons start stop payload span attributes children rest after inside text behind below others =>
    have here : SpansFollow (Node.segments ⟨payload, span, attributes, children⟩) start span.stop := by
      rw [Node.segments]
      cases payload with
      | text run =>
        obtain ⟨rfl, rfl⟩ := text run rfl
        refine ⟨fun other member => ?_, List.pairwise_singleton ..⟩
        rw [show other = run.segment from List.mem_singleton.mp member]
        exact ⟨after, inside.le, Nat.le_refl _⟩
      | _ =>
        refine ⟨fun other member => ?_, below.follow⟩
        exact (below.inside other member).mono after (Nat.le_refl _)
    exact here.append others (Nat.le_trans after inside.le) behind.le

theorem Tiles.inOrder {source : Source} {run : List Piece} {start stop : Nat} {nodes : List Node}
    (tiles : Tiles source run start nodes stop) : InOrder start nodes stop := by
  induction tiles with
  | nil => exact .nil (Nat.le_refl _)
  | @text start middle stop part literal rest sliced some _ _ ih =>
    have forward := Source.lt_of_slice? sliced some
    exact (InOrder.ofText ⟨start, middle⟩ literal (Nat.le_of_lt forward)).append ih
  | @url start middle stop part literal rest sliced some _ _ ih =>
    have forward := Source.lt_of_slice? sliced some
    exact (InOrder.bareUrl ⟨start, middle⟩ literal (Nat.le_of_lt forward)).append ih

section run

variable {source : Source} {run : List Piece} {start stop : Nat} {nodes : List Node}

theorem inOrder_runNodes (source : Source) (linkify : Bool) (le : start ≤ stop)
    (pieces : ∀ piece ∈ run, piece.span.LiesIn start stop) :
    InOrder start (runNodes source linkify run) stop := by
  by_cases empty : run = []
  · subst empty
    exact .nil le
  obtain ⟨first, rest, cons⟩ := List.exists_cons_of_ne_nil empty
  have head : run.head? = some first := by rw [cons]; rfl
  obtain ⟨last, final⟩ : ∃ last, run.getLast? = some last :=
    ⟨_, List.getLast?_eq_some_getLast empty⟩
  have begins := pieces first (List.mem_of_head? head)
  have ends := pieces last (List.mem_of_getLast? final)
  have within : max last.span.stop first.span.start ≤ stop :=
    Nat.max_le.mpr ⟨ends.stops, Nat.le_trans begins.ordered begins.stops⟩
  rw [runNodes_eq source linkify head final]
  dsimp only
  obtain ⟨tiles, cut⟩ := tiles_runUrls source linkify run
    (Nat.le_max_right last.span.stop first.span.start)
  generalize max last.span.stop first.span.start = reach at within tiles cut ⊢
  generalize splitAtUrls source run first.span.start
    (runUrls source linkify first.span.start reach) = split at tiles cut ⊢
  have front := tiles.inOrder.from_le begins.starts
  split
  · exact (front.append (.ofText ⟨split.2, reach⟩ _ cut)).to_le within
  · exact front.to_le (Nat.le_trans cut within)

theorem inOrder_addBreak {offset : Nat} (inOrder : InOrder start nodes offset) (hard : Bool) :
    InOrder start (addBreak nodes ⟨offset, hard⟩) offset := by
  have segment (run : TextRun) : (run.withBreak hard).segment = run.segment := by
    cases hard <;> rfl
  unfold addBreak
  split
  · rename_i run span attributes children last
    obtain ⟨front, rfl⟩ := List.getLast?_eq_some_iff.mp last
    obtain ⟨middle, before, here⟩ := inOrder.split
    rw [List.dropLast_concat]
    cases here with
    | cons after inside text behind =>
      refine before.append (.cons after inside ?_ behind)
      intro other same
      rw [← Payload.text.inj same, segment]
      exact text run rfl
  · have carrier := InOrder.text
      (TextRun.withBreak { segment := ⟨offset, offset⟩, literal := "" } hard) (by simp [segment])
    rw [segment] at carrier
    exact inOrder.append carrier

end run

section paragraphs

variable {start middle stop : Nat} {nodes pending : List Node}

theorem inOrder_paragraphAround (inOrder : InOrder start nodes stop) :
    InOrder start (paragraphAround nodes) stop := by
  unfold paragraphAround
  split
  · rename_i first last head final
    obtain ⟨within, ends⟩ := inOrder.to_last final
    obtain ⟨after, inside⟩ := within.from_first head
    dsimp only
    rw [Nat.max_eq_left inside.le]
    have around := InOrder.single ⟨.paragraph, ⟨first.span.start, last.span.stop⟩, {}, nodes⟩
      (by simp [Node.kind, Payload.kind]) inside
    exact (around.from_le after).to_le ends
  · exact .nil inOrder.le

theorem inOrder_gatherParagraphs (before : InOrder start pending middle)
    (inOrder : InOrder middle nodes stop) : InOrder start (gatherParagraphs pending nodes) stop := by
  fun_induction gatherParagraphs pending nodes generalizing start middle with
  | case1 pending => exact inOrder_paragraphAround (before.to_le inOrder.le)
  | case2 pending child rest block ih =>
    cases inOrder with
    | cons after inside text behind =>
      have rest := ih (.nil (Nat.le_refl _)) behind
      exact (inOrder_paragraphAround before).append (.cons after inside text rest)
  | case3 pending child rest inline ih =>
    cases inOrder with
    | cons after inside text behind =>
      exact ih (before.append (.cons after inside text (.nil (Nat.le_refl _)))) behind

end paragraphs

def Source.holdsFences (source : Source) (span : Span) : Bool :=
  span.start + 2 * max ((source.slice span).toList.takeWhile (· = '`')).length 1 ≤ span.stop

theorem inOrder_codeSpan {source : Source} {span : Span} (code : String)
    (holds : source.holdsFences span = true) :
    InOrder span.start [Builder.codeSpan source span code] span.stop := by
  have fits := of_decide_eq_true holds
  unfold Builder.codeSpan
  dsimp only
  generalize max ((source.slice span).toList.takeWhile (· = '`')).length 1 = delimiter at fits ⊢
  rw [Nat.max_eq_left (show span.start + delimiter ≤ span.stop - delimiter by omega)]
  have ordered : span.start + delimiter ≤ span.stop - delimiter := by omega
  refine .single ⟨.codeSpan delimiter, span, {}, _⟩ (by simp [Node.kind, Payload.kind]) ?_
  dsimp only
  split
  · exact ((InOrder.leaf (by simp [Payload.kind]) ordered).from_le (by simp)).to_le (by simp)
  · exact ((InOrder.text ⟨⟨span.start + delimiter, span.stop - delimiter⟩, code, true, false, false⟩
      ordered).from_le (by simp)).to_le (by simp)

namespace OpenNode

structure Reaches (opened : OpenNode) (reach : Nat) : Prop where
  notText : opened.kind ≠ .text
  inOrder : ∃ settled ≤ reach, InOrder opened.span.start opened.children settled ∧
    ∀ piece ∈ opened.run, piece.span.LiesIn settled reach

namespace Reaches

variable {opened : OpenNode} {reach : Nat}

theorem settled (reaches : opened.Reaches reach) :
    InOrder opened.span.start opened.children reach := by
  obtain ⟨settled, le, inOrder, _⟩ := reaches.inOrder
  exact inOrder.to_le le

theorem ofSettled (notText : opened.kind ≠ .text) (none : opened.run = [])
    (inOrder : InOrder opened.span.start opened.children reach) : opened.Reaches reach :=
  ⟨notText, reach, Nat.le_refl _, inOrder, by simp [none]⟩

theorem advance {later : Nat} (reaches : opened.Reaches reach) (le : reach ≤ later) :
    opened.Reaches later := by
  obtain ⟨settled, before, inOrder, pieces⟩ := reaches.inOrder
  exact ⟨reaches.notText, settled, Nat.le_trans before le, inOrder,
    fun piece member => (pieces piece member).mono (Nat.le_refl _) le⟩

theorem replace {other : OpenNode} (reaches : opened.Reaches reach)
    (kind : other.kind = opened.kind) (span : other.span = opened.span)
    (children : other.children = opened.children) (run : other.run = opened.run) :
    other.Reaches reach := by
  obtain ⟨notText, inOrder⟩ := reaches
  rw [← kind] at notText
  rw [← span, ← children, ← run] at inOrder
  exact ⟨notText, inOrder⟩

theorem read {piece : Piece} (reaches : opened.Reaches reach) (after : reach ≤ piece.span.start)
    (ordered : piece.span.start ≤ piece.span.stop) :
    { opened with run := opened.run ++ [piece] }.Reaches piece.span.stop := by
  have further := Nat.le_trans after ordered
  obtain ⟨settled, before, inOrder, pieces⟩ := reaches.inOrder
  refine ⟨reaches.notText, settled, Nat.le_trans before further, inOrder, fun other member => ?_⟩
  rcases List.mem_append.mp member with member | member
  · exact (pieces other member).mono (Nat.le_refl _) further
  · rw [List.mem_singleton.mp member]
    exact ⟨Nat.le_trans before after, ordered, Nat.le_refl _⟩

theorem flush (reaches : opened.Reaches reach) (source : Source) (linkify : Bool)
    {lineBreak : Option LineBreak} (ends : ∀ final ∈ lineBreak, final.offset = reach) :
    { opened with
      run := []
      children := opened.children ++ inlineNodes source linkify opened.run lineBreak }.Reaches
        reach := by
  obtain ⟨settled, before, inOrder, pieces⟩ := reaches.inOrder
  have nodes := inOrder_runNodes source linkify before pieces
  refine ofSettled reaches.notText rfl (inOrder.append ?_)
  cases lineBreak with
  | none => exact nodes
  | some final =>
    obtain rfl := ends final rfl
    exact inOrder_addBreak nodes final.hard

theorem extend {nodes : List Node} {later : Nat} (reaches : opened.Reaches reach)
    (none : opened.run = []) (more : InOrder reach nodes later) :
    { opened with children := opened.children ++ nodes }.Reaches later :=
  ofSettled reaches.notText none (reaches.settled.append more)

theorem close (reaches : opened.Reaches reach) (within : reach ≤ opened.span.stop) :
    InOrder opened.span.start [opened.close] opened.span.stop := by
  have children := reaches.settled.to_le within
  have notText := reaches.notText
  rw [← opened.kind_close] at notText
  have finished : opened.close.span = opened.span ∧
      InOrder opened.span.start opened.close.children opened.span.stop := by
    have gathered := inOrder_gatherParagraphs (.nil (Nat.le_refl _)) children
    obtain ⟨payload, span, attributes, below, run, buffer, loose, column⟩ := opened
    cases payload <;> first | exact ⟨rfl, children⟩ | exact ⟨rfl, gathered⟩
  obtain ⟨span, inside⟩ := finished
  rw [← span] at inside ⊢
  exact .single opened.close notText inside

end Reaches

end OpenNode

/-- What is open around a node of the given span, innermost first: each holds that which is open
    inside it, behind what it holds already, and the document holds all of the source. -/
inductive Enclosed (size : Nat) : Span → List OpenNode → Prop
  | document {span : Span} : span = ⟨0, size⟩ → Enclosed size span []
  | inside {span : Span} {parent : OpenNode} {outer : List OpenNode} :
      parent.run = [] → parent.Reaches span.start → span.stop ≤ parent.span.stop →
      Enclosed size parent.span outer → Enclosed size span (parent :: outer)

namespace Builder

structure InOrder (builder : Builder) (reach stop : Nat) (stops : List Nat) : Prop where
  reaches : builder.top.Reaches reach
  within : reach ≤ stop
  enclosed : Enclosed builder.source.size builder.top.span builder.outer
  ends : (builder.top :: builder.outer).map (·.span.stop) = stop :: stops

namespace InOrder

variable {builder : Builder} {reach stop : Nat} {stops : List Nat}

theorem top_stop (inOrder : builder.InOrder reach stop stops) : builder.top.span.stop = stop :=
  (List.cons.inj inOrder.ends).1

theorem replace (inOrder : builder.InOrder reach stop stops) {top : OpenNode} {later : Nat}
    (reaches : top.Reaches later) (within : later ≤ stop) (span : top.span = builder.top.span) :
    { builder with top }.InOrder later stop stops := by
  refine ⟨reaches, within, ?_, ?_⟩
  · rw [span]
    exact inOrder.enclosed
  · rw [List.map_cons, span]
    exact inOrder.ends

theorem advance (inOrder : builder.InOrder reach stop stops) {later : Nat} (after : reach ≤ later)
    (within : later ≤ stop) : builder.InOrder later stop stops :=
  inOrder.replace (inOrder.reaches.advance after) within rfl

theorem flush (inOrder : builder.InOrder reach stop stops) {lineBreak : Option LineBreak}
    (ends : ∀ final ∈ lineBreak, final.offset = reach) :
    (builder.flush lineBreak).InOrder reach stop stops :=
  inOrder.replace (inOrder.reaches.flush builder.source _ ends) inOrder.within rfl

theorem append (inOrder : builder.InOrder reach stop stops) {node : Node} {later : Nat}
    (more : CanonicalMarkdown.InOrder reach [node] later) (within : later ≤ stop) :
    (builder.append node).InOrder later stop stops := by
  have flushed := inOrder.flush (by simp : ∀ final ∈ none, LineBreak.offset final = reach)
  exact flushed.replace (flushed.reaches.extend rfl more) within rfl

theorem appendAt (inOrder : builder.InOrder reach stop stops) {node : Node} {span : Span}
    (lies : span.LiesIn reach stop) (more : CanonicalMarkdown.InOrder span.start [node] span.stop) :
    (builder.append node).InOrder span.stop stop stops :=
  inOrder.append (more.from_le lies.starts) lies.stops

theorem push (inOrder : builder.InOrder reach stop stops) {opened : OpenNode}
    (fresh : opened.IsFresh) (notText : opened.kind ≠ .text)
    (lies : opened.span.LiesIn reach stop) :
    (builder.push opened).InOrder opened.span.start opened.span.stop (stop :: stops) := by
  have flushed := inOrder.flush (by simp : ∀ final ∈ none, LineBreak.offset final = reach)
  refine ⟨.ofSettled notText fresh.run ?_, lies.ordered, ?_, ?_⟩
  · exact fresh.children ▸ .nil (Nat.le_refl _)
  · refine .inside rfl (flushed.reaches.advance lies.starts) ?_ flushed.enclosed
    exact flushed.top_stop ▸ lies.stops
  · exact congrArg _ flushed.ends

theorem start (inOrder : builder.InOrder reach stop stops) (container : Container) {span : Span}
    (lies : span.LiesIn reach stop) :
    (builder.start container span).InOrder span.start span.stop (stop :: stops) := by
  have fresh := builder.openNode_fresh container span
  have notText : (builder.openNode container span).kind ≠ .text := by
    rw [builder.openNode_kind]
    exact (kindInside_not_leaf [container]).1
  have spans : (builder.openNode container span).span = span := by cases container <;> rfl
  have pushed {around : Builder} (inOrder : around.InOrder reach stop stops) :
      (around.push (builder.openNode container span)).InOrder span.start span.stop
        (stop :: stops) := by
    have pushed := inOrder.push fresh notText (spans.symm ▸ lies)
    rwa [spans] at pushed
  unfold Builder.start
  dsimp only
  split
  · obtain ⟨loose, noted⟩ := builder.top.noteParagraph_eq
    rw [noted]
    exact pushed (inOrder.replace (inOrder.reaches.replace rfl rfl rfl rfl) inOrder.within rfl)
  · exact pushed inOrder

theorem close {around : Nat} (inOrder : builder.InOrder reach stop (around :: stops)) :
    builder.close.InOrder stop around stops := by
  have flushed := inOrder.flush (by simp : ∀ final ∈ none, LineBreak.offset final = reach)
  have closed := flushed.reaches.close (flushed.top_stop ▸ flushed.within)
  rw [flushed.top_stop] at closed
  obtain ⟨source, linkify, top, outer⟩ := builder
  obtain ⟨_, _, enclosed, ends⟩ := inOrder
  obtain ⟨rfl, outerEnds⟩ : top.span.stop = stop ∧ outer.map (·.span.stop) = around :: stops :=
    List.cons.inj ends
  cases enclosed with
  | document => contradiction
  | @inside _ parent outer noRun reaches within enclosed =>
    obtain ⟨rfl, rfl⟩ : parent.span.stop = around ∧ outer.map (·.span.stop) = stops :=
      List.cons.inj outerEnds
    have parentInOrder (loose : Bool) :
        (Builder.mk source linkify { parent with loose } outer).InOrder top.span.start
          parent.span.stop (outer.map (·.span.stop)) :=
      ⟨reaches.replace rfl rfl rfl rfl, Nat.le_trans closed.le within, enclosed, rfl⟩
    exact (parentInOrder _).append closed within

theorem text (inOrder : builder.InOrder reach stop stops) {span : Span}
    (lies : span.LiesIn reach stop) (text : String) :
    { builder with top := builder.top.addText span text }.InOrder span.stop stop stops := by
  have after := Nat.le_trans lies.starts lies.ordered
  have spans : (builder.top.addText span text).span = builder.top.span := by
    unfold OpenNode.addText
    split <;> rfl
  refine inOrder.replace ?_ lies.stops spans
  cases code : builder.top.kind.isCode with
  | true =>
    exact (inOrder.reaches.advance after).replace (OpenNode.kind_addText ..) spans
      (OpenNode.children_addText ..) (OpenNode.run_addText code ..)
  | false =>
    rw [OpenNode.addText_of_not_code code]
    exact inOrder.reaches.read lies.starts lies.ordered

theorem rawHtml (inOrder : builder.InOrder reach stop stops) {span : Span}
    (lies : span.LiesIn reach stop) (html : String) :
    (builder.rawHtml span html).InOrder span.stop stop stops :=
  inOrder.appendAt lies (.leaf (by simp [Payload.kind]) lies.ordered)

theorem html (inOrder : builder.InOrder reach stop stops) {span : Span}
    (lies : span.LiesIn reach stop) (html : String) :
    (builder.html span html).InOrder span.stop stop stops := by
  unfold Builder.html
  split
  · have advanced := inOrder.advance (Nat.le_trans lies.starts lies.ordered) lies.stops
    exact advanced.replace (advanced.reaches.replace rfl rfl rfl rfl) advanced.within rfl
  · exact inOrder.rawHtml lies html

theorem lineBreak (inOrder : builder.InOrder reach stop stops) {span : Span}
    (lies : span.LiesIn reach stop) (hard : Bool) :
    (builder.flush (some ⟨span.start, hard⟩)).InOrder span.stop stop stops := by
  have begun := inOrder.advance lies.starts (Nat.le_trans lies.ordered lies.stops)
  have broken := begun.flush (by simp : ∀ final ∈ some ⟨span.start, hard⟩, LineBreak.offset final = _)
  exact broken.advance lies.ordered lies.stops

theorem finish (inOrder : builder.InOrder reach stop []) :
    CanonicalMarkdown.InOrder 0 [builder.finish] builder.source.size := by
  have flushed := inOrder.flush (by simp : ∀ final ∈ none, LineBreak.offset final = reach)
  have closed := flushed.reaches.close (flushed.top_stop ▸ flushed.within)
  obtain ⟨source, linkify, top, outer⟩ := builder
  obtain ⟨_, _, enclosed, ends⟩ := inOrder
  cases enclosed with
  | document whole =>
    have span : (Builder.flush ⟨source, linkify, top, []⟩ none).top.span = ⟨0, source.size⟩ := whole
    rw [span] at closed
    exact closed
  | inside => simp at ends

end InOrder

theorem inOrder_ofSource (source : Source) (linkify : Bool) :
    (ofSource source linkify).InOrder 0 source.size [] :=
  ⟨.ofSettled (by simp [ofSource, OpenNode.kind, Payload.kind]) rfl (.nil (Nat.le_refl _)),
    Nat.zero_le _, .document rfl, rfl⟩

end Builder

/-- Each event stands behind the one before, that ended at `reach`, and inside the container that is
    open, which ends at `stop`; those around it end at `stops`, and the stream closes them all. A
    span of code holds its fences. -/
def isInOrder (source : Source) (reach stop : Nat) (stops : List Nat) : List Event → Bool
  | [] => stops.isEmpty
  | event :: rest =>
    match event.markup, stops with
    | .close, [] => false
    | .close, around :: outer => isInOrder source stop around outer rest
    | .start _, _ =>
      decide (event.span.LiesIn reach stop)
        && isInOrder source event.span.start event.span.stop (stop :: stops) rest
    | .code _, _ =>
      decide (event.span.LiesIn reach stop) && source.holdsFences event.span
        && isInOrder source event.span.stop stop stops rest
    | _, _ =>
      decide (event.span.LiesIn reach stop) && isInOrder source event.span.stop stop stops rest

namespace Builder.InOrder

variable {builder : Builder} {reach stop : Nat} {stops : List Nat}

/-- An event leaves the builder in order, at an offset from where the rest of the stream goes on. -/
theorem add (inOrder : builder.InOrder reach stop stops) {event : Event} {rest : List Event}
    (ordered : isInOrder builder.source reach stop stops (event :: rest) = true) :
    ∃ reach stop stops, (builder.add event).InOrder reach stop stops ∧
      isInOrder builder.source reach stop stops rest = true := by
  obtain ⟨markup, span⟩ := event
  cases markup with
  | close =>
    cases stops with
    | nil => contradiction
    | cons around outer => exact ⟨_, _, _, inOrder.close, ordered⟩
  | code code =>
    simp only [isInOrder, Bool.and_eq_true, decide_eq_true_eq] at ordered
    obtain ⟨⟨lies, holds⟩, more⟩ := ordered
    exact ⟨_, _, _, inOrder.appendAt lies (inOrder_codeSpan code holds), more⟩
  | start | text | html | inlineHtml | softBreak | hardBreak | rule =>
    simp only [isInOrder, Bool.and_eq_true, decide_eq_true_eq] at ordered
    obtain ⟨lies, more⟩ := ordered
    refine ⟨_, _, _, ?_, more⟩
    first
    | exact inOrder.start _ lies
    | exact inOrder.text lies _
    | exact inOrder.html lies _
    | exact inOrder.rawHtml lies _
    | exact inOrder.lineBreak lies _
    | exact inOrder.appendAt lies (.leaf (by simp [Payload.kind]) lies.ordered)

theorem finish_addAll (inOrder : builder.InOrder reach stop stops) {events : List Event}
    (ordered : isInOrder builder.source reach stop stops events = true) :
    CanonicalMarkdown.InOrder 0 [(events.foldl Builder.add builder).finish]
      builder.source.size := by
  induction events generalizing builder reach stop stops with
  | nil =>
    obtain rfl := List.isEmpty_iff.mp ordered
    exact inOrder.finish
  | cons event rest ih =>
    obtain ⟨_, _, _, added, more⟩ := inOrder.add ordered
    rw [← builder.source_add event] at more ⊢
    exact ih added more

end Builder.InOrder

namespace Document

/-- The document of a stream in the order of its source is in that order itself: each node holds its
    children, siblings follow each other, and so do the segments of all texts. -/
theorem ofEvents_inOrder (source : Source) (linkify : Bool) {events : List Event}
    (ordered : isInOrder source 0 source.size [] events = true) :
    InOrder 0 [(Document.ofEvents source linkify events).root] source.size ∧
      SpansFollow (Document.ofEvents source linkify events).root.segments 0 source.size := by
  have inOrder : InOrder 0 [(Document.ofEvents source linkify events).root] source.size :=
    (Builder.inOrder_ofSource source linkify).finish_addAll ordered
  refine ⟨inOrder, ?_⟩
  have segments := inOrder.segments
  rwa [allSegments, allSegments, List.append_nil] at segments

def brokenItem : List Event :=
  [⟨.start (.list none), ⟨0, 24⟩⟩, ⟨.start .item, ⟨0, 24⟩⟩, ⟨.text "see http://x.y ", ⟨2, 17⟩⟩,
    ⟨.code "d", ⟨17, 20⟩⟩, ⟨.softBreak, ⟨20, 21⟩⟩, ⟨.text "e", ⟨23, 24⟩⟩, ⟨.close, ⟨0, 24⟩⟩,
    ⟨.close, ⟨0, 24⟩⟩]

theorem ofEvents_inOrder_brokenItem :
    isInOrder (.ofString "- see http://x.y `d`\n  e") 0 24 [] brokenItem = true ∧
    (Document.ofEvents (.ofString "- see http://x.y `d`\n  e") true brokenItem).root.segments =
      [⟨2, 6⟩, ⟨6, 16⟩, ⟨16, 17⟩, ⟨18, 19⟩, ⟨20, 20⟩, ⟨23, 24⟩] ∧
    SpansFollow (Document.ofEvents (.ofString "- see http://x.y `d`\n  e") true
      brokenItem).root.segments 0 24 := by
  have ordered : isInOrder (.ofString "- see http://x.y `d`\n  e") 0 24 [] brokenItem = true := by
    decide
  exact ⟨ordered, by decide +kernel, (ofEvents_inOrder _ true ordered).2⟩

end Document

end CanonicalMarkdown
