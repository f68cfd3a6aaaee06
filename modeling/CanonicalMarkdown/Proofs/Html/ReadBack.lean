import CanonicalMarkdown.Proofs.Html.Nesting
import CanonicalMarkdown.Proofs.Misplacement

namespace CanonicalMarkdown.Html

structure Unpadded (renderer : Renderer) (page : Page) : Prop where
  levels : page.padding.levels = []
  silent : renderer.separators = true → page.padding.verbose = false

structure Adds (renderer : Renderer) (page next : Page) (tags : List Tag) (shown : List Char) :
    Prop where
  unpadded : Unpadded renderer next
  prints : ∃ text, next.text = page.text ++ text ∧ Prints text tags shown

theorem withoutNewlines_append (left right : List Char) :
    withoutNewlines (left ++ right) = withoutNewlines left ++ withoutNewlines right :=
  List.filter_append ..

namespace Adds

variable {renderer : Renderer} {page between next : Page} {tags more : List Tag}
  {shown after : List Char}

theorem refl (unpadded : Unpadded renderer page) : Adds renderer page page [] [] :=
  ⟨unpadded, "", by rw [String.append_empty], .nil⟩

theorem trans (first : Adds renderer page between tags shown)
    (second : Adds renderer between next more after) :
    Adds renderer page next (tags ++ more) (shown ++ after) := by
  obtain ⟨_, text, grown, prints⟩ := first
  obtain ⟨unpadded, others, grownAgain, printsMore⟩ := second
  exact ⟨unpadded, text ++ others, by rw [grownAgain, grown, String.append_assoc],
    prints.append printsMore⟩

theorem newline (unpadded : Unpadded renderer page) :
    Adds renderer page (page.write "\n") [] [] := by
  have padding : (page.write "\n").padding = page.padding := rfl
  exact ⟨⟨padding ▸ unpadded.levels, padding ▸ unpadded.silent⟩, "\n", Page.text_write page "\n",
    .newline⟩

end Adds

section gaps

variable {renderer : Renderer} {page : Page}

theorem writePadding_of_unpadded (levels : page.padding.levels = [])
    (silent : page.padding.verbose = false) :
    page.writePadding = page ∧ page.writeBlankPadding = page := by
  obtain ⟨pieces, opened, emitted, verbose⟩ := page
  obtain rfl : opened = [] := levels
  obtain rfl : verbose = false := silent
  exact ⟨rfl, rfl⟩

theorem adds_writeGap (unpadded : Unpadded renderer page) (view : View) :
    Adds renderer page (renderer.writeGap view page) [] [] := by
  unfold Renderer.writeGap
  split
  · exact .refl unpadded
  · dsimp only
    split
    · rename_i separated
      have silent := unpadded.silent (Bool.and_eq_true_iff.mp separated).1
      generalize Gap.between view.node _ _ _ = gap
      have still {page : Page} (unpadded : Unpadded renderer page) :
          page.writePadding = page ∧ page.writeBlankPadding = page :=
        writePadding_of_unpadded unpadded.levels
          (unpadded.silent (Bool.and_eq_true_iff.mp separated).1)
      have line := Adds.newline unpadded
      unfold Page.writeGap
      dsimp only
      rw [(still unpadded).2, ite_self]
      cases gap with
      | newline =>
        rw [if_neg (by decide), (still line.unpadded).1]
        exact line
      | blankLine =>
        have both := line.trans (.newline line.unpadded)
        rw [if_pos rfl, (still line.unpadded).2, (still both.unpadded).1]
        exact both
    · exact .refl unpadded

end gaps

section walk

variable {renderer : Renderer}

theorem next_of_answer (follows : renderer.Follows ruleSet) {view : View} {phase : Phase}
    {step : Step} {page next : Page}
    (answered : renderer.answer view phase page = (next, .ok step)) :
    (reply view phase).next = .ok step := by
  rw [follows, Page.answer] at answered
  split at answered
  · exact (Prod.mk.inj answered).2
  · simp at answered

theorem adds_answer (follows : renderer.Follows ruleSet) {view : View} {phase : Phase} {step : Step}
    {page next : Page} (unpadded : Unpadded renderer page) (escaped : isEscaped view.node = true)
    (answered : renderer.answer view phase page = (next, .ok step)) :
    Adds renderer page next (visitTags (view, phase)) (withoutNewlines (visitText (view, phase))) := by
  have written := writes_reply escaped (next_of_answer follows answered)
  obtain ⟨grown, text, applied, padding, longer, prints⟩ := written.applyAll page
  have same : renderer.answer view phase page = (grown, (reply view phase).next) := by
    rw [follows]
    show page.answer (reply view phase) = _
    rw [Page.answer, applied]
  obtain rfl : grown = next := (Prod.mk.inj (same.symm.trans answered)).1
  exact ⟨⟨padding ▸ unpadded.levels, padding ▸ unpadded.silent⟩, text, longer, prints⟩

theorem adds_depart (follows : renderer.Follows ruleSet) {view : View} {mark : Nat}
    {page final : Page} (unpadded : Unpadded renderer page) (escaped : isEscaped view.node = true)
    (done : renderer.depart view mark page = .done final) :
    Adds renderer page final (leaveTags view) [] := by
  unfold Renderer.depart at done
  split at done
  · contradiction
  · contradiction
  · rename_i left step _ answered
    cases done
    have leaves := adds_answer follows unpadded escaped answered
    have truncated : Adds renderer page (left.truncate mark) (leaveTags view) [] := by
      refine ⟨⟨?_, leaves.unpadded.silent⟩, leaves.prints⟩
      simp [Page.truncate, Padding.truncate, leaves.unpadded.levels]
    have gap := truncated.trans (adds_writeGap truncated.unpadded view)
    rwa [List.append_nil, List.append_nil] at gap

theorem andThen_done {walked : Walked} {next : Page → Walked} {final : Page}
    (done : walked.andThen next = .done final) :
    ∃ between, walked = .done between ∧ next between = .done final := by
  cases walked with
  | done between => exact ⟨between, rfl, done⟩
  | stopped | failed => contradiction

mutual

/-- A walk that comes to its end has added the tags and the texts of its visits. -/
theorem adds_walk (follows : renderer.Follows ruleSet) (source : Source) (ancestors : List Place)
    (earlier later : List Node) : ∀ (node : Node) {page final : Page}, fits node = true →
    Unpadded renderer page →
    renderer.walk source ancestors earlier later node page = .done final →
    Adds renderer page final
      ((node.visits hides source ancestors earlier later).flatMap visitTags)
      (withoutNewlines ((node.visits hides source ancestors earlier later).flatMap visitText))
  | ⟨payload, span, attributes, children⟩, page, final, fitting, unpadded, done => by
    rw [fits, Bool.and_eq_true, Bool.and_eq_true, Bool.and_eq_true] at fitting
    obtain ⟨⟨⟨escaped, -⟩, -⟩, below⟩ := fitting
    let view : View :=
      ⟨source, ⟨⟨payload, span, attributes, children⟩, earlier, later⟩, ancestors⟩
    have escaped : isEscaped view.node = true := escaped
    have enters {entered : Page} {step : Step}
        (answered : renderer.answer view .enter page = (entered, .ok step)) :
        Adds renderer page entered (enterTags view) (withoutNewlines (ownText view.node)) :=
      adds_answer follows unpadded escaped answered
    have leaves {mark : Nat} {inside : Page} (unpadded : Unpadded renderer inside)
        (done : renderer.depart view mark inside = .done final) :
        Adds renderer inside final (leaveTags view) [] := adds_depart follows unpadded escaped done
    rw [Renderer.walk] at done
    rw [Node.visits, List.flatMap_cons, List.flatMap_append, List.flatMap_singleton,
      List.flatMap_cons, List.flatMap_append, List.flatMap_singleton, withoutNewlines_append,
      withoutNewlines_append]
    split at done
    · contradiction
    · contradiction
    · rename_i entered answered
      have enters := enters answered
      have hidden := ruleSet.enters view _ (next_of_answer follows answered)
      have hides : hides payload.kind = true := by
        by_cases hides : hides payload.kind = true
        · exact hides
        · simp [ruleSet, view, View.node, Node.kind, hides] at hidden
      rw [if_pos hides]
      exact enters.trans ((Adds.refl enters.unpadded).trans (leaves enters.unpadded done))
    · rename_i entered answered
      have enters := enters answered
      have shown := ruleSet.enters view _ (next_of_answer follows answered)
      have shows : ¬ hides payload.kind = true := by
        intro hides
        simp [ruleSet, view, View.node, Node.kind, hides] at shown
      obtain ⟨inside, walked, left⟩ := andThen_done done
      have below := adds_walkAll follows source (view.place :: ancestors) [] children below
        enters.unpadded walked
      rw [if_neg shows]
      exact enters.trans (below.trans (leaves below.unpadded left))

theorem adds_walkAll (follows : renderer.Follows ruleSet) (source : Source)
    (ancestors : List Place) (earlier : List Node) : ∀ (nodes : List Node) {page final : Page},
    allFit nodes = true → Unpadded renderer page →
    renderer.walkAll source ancestors earlier nodes page = .done final →
    Adds renderer page final
      ((visitsAll hides source ancestors earlier nodes).flatMap visitTags)
      (withoutNewlines ((visitsAll hides source ancestors earlier nodes).flatMap visitText))
  | [], page, final, _, unpadded, done => by
    obtain rfl := Walked.done.inj done
    exact .refl unpadded
  | node :: later, page, final, fitting, unpadded, done => by
    obtain ⟨first, rest⟩ := Bool.and_eq_true_iff.mp fitting
    rw [Renderer.walkAll] at done
    obtain ⟨between, walked, more⟩ := andThen_done done
    have here := adds_walk follows source ancestors earlier later node first unpadded walked
    have behind := adds_walkAll follows source ancestors (node :: earlier) later rest here.unpadded more
    rw [visitsAll, List.flatMap_append, List.flatMap_append, withoutNewlines_append]
    exact here.trans behind

end

end walk

def fitsDocument (document : Document) : Bool := !isRow document.root && fits document.root

/-- A rendered document reads back. Its tags are those of the visited nodes, each attribute with the
    value that is meant, and all but void elements are closed in the order in which they were opened.
    Its text is that of the visited nodes, up to newlines. -/
theorem render_reads_back {renderer : Renderer} {priority : Int} {document : Document} {text : String}
    (alone : DispatchTable.ofProviders [provider priority] = .ok renderer.table)
    (silent : renderer.separators = false ∨ renderer.verbosePadding = false)
    (fitting : fitsDocument document = true) (rendered : renderer.render document = .ok text) :
    ∃ reading, read? text = some reading ∧ nest [] reading.tags = some [] ∧
      reading.tags = (document.visits hides).flatMap visitTags ∧
      withoutNewlines reading.text =
        withoutNewlines ((document.visits hides).flatMap visitText) := by
  obtain ⟨notRow, fitting⟩ := Bool.and_eq_true_iff.mp fitting
  have notRow : isRow document.root = false := by simpa using notRow
  have unpadded : Unpadded renderer { padding := { verbose := renderer.verbosePadding } } :=
    ⟨rfl, fun separated => silent.resolve_left (by simp [separated])⟩
  have ends := renderer.run_ends (follows alone) document
  obtain ⟨page, done, rfl⟩ : ∃ page, renderer.run document = .done page ∧ page.text = text := by
    unfold Renderer.render at rendered
    cases walked : renderer.run document with
    | done page =>
      rw [walked] at rendered
      exact ⟨page, rfl, Except.ok.inj rendered⟩
    | stopped page =>
      rw [walked] at ends
      cases complaint : (document.visits ruleSet.hides).findSome? ruleSet.complaint <;>
        simp [complaint, Walked.EndsWith] at ends
    | failed page error =>
      rw [walked] at rendered
      contradiction
  obtain ⟨_, written, grown, prints⟩ :=
    adds_walk (follows alone) document.source [] [] [] document.root fitting unpadded done
  have empty : Page.text { padding := { verbose := renderer.verbosePadding } } = "" := rfl
  rw [empty, String.empty_append] at grown
  obtain ⟨reading, read, tags, shown⟩ := prints.read?
  have nested : nest [] ((document.visits hides).flatMap visitTags) =
      some (withBody [] [document.root]) :=
    nest_visits [] [] [] [] document.root fitting (by simp [notRow])
  refine ⟨reading, by rw [grown, read], ?_, tags, shown⟩
  rw [tags]
  refine nested.trans (congrArg some ?_)
  simp [withBody, notRow]

def plainNode (payload : Payload) (children : List Node) : Node := ⟨payload, ⟨0, 0⟩, {}, children⟩

def plainText (literal : String) : Node := plainNode (.text { segment := ⟨0, 0⟩, literal }) []

def quotedTable : Document :=
  ⟨.ofString "", plainNode .document [
    ⟨.heading 1, ⟨0, 0⟩, ⟨[⟨"id", some "a\"b"⟩, ⟨"class", some "c"⟩, ⟨"x", none⟩,
      ⟨"class", some "d"⟩]⟩, [plainText "1 < 2"]⟩,
    plainNode .paragraph [
      plainNode (.codeSpan 1) [
        plainNode (.text { segment := ⟨0, 0⟩, literal := "e", softBreak := true }) [],
        plainNode (.string "<f>") []],
      plainNode (.image ⟨"g", none⟩) [plainText "h"]],
    plainNode (.table [.left]) [
      plainNode .tableHead [plainNode .tableCell [plainText "&"]],
      plainNode .tableRow [plainNode .tableCell [plainNode (.link ⟨"u", some "\"t"⟩) []]],
      plainNode .tableRow [plainNode .tableCell [plainNode (.autoLink "v" true) []]]]]⟩

def quotedTablePage : String :=
  "<h1 id=\"a&quot;b\" class=\"c d\" x>1 &lt; 2</h1>\n"
    ++ "<p><code>e &lt;f&gt;</code><img src=\"g\" alt=\"h\" /></p>\n<table>\n"
    ++ "<thead>\n<tr>\n<th style=\"text-align:left\">&amp;</th>\n</tr>\n</thead>\n"
    ++ "<tbody>\n<tr>\n<td style=\"text-align:left\"><a href=\"u\" title=\"&quot;t\"></a></td>\n"
    ++ "</tr>\n<tr>\n<td style=\"text-align:left\"><a href=\"mailto:v\">v</a></td>\n</tr>\n"
    ++ "</tbody>\n</table>\n"

theorem quotedTable_reads_back :
    fitsDocument quotedTable = true ∧
    Renderer.render { table } quotedTable = .ok quotedTablePage ∧
    ∃ reading, read? quotedTablePage = some reading ∧ nest [] reading.tags = some [] ∧
      reading.tags.head? = some (.opening "h1"
        [⟨"id", some "a\"b"⟩, ⟨"class", some "c d"⟩, ⟨"x", none⟩]) ∧
      withoutNewlines reading.text = "1 < 2e <f>&v".toList := by
  have fitting : fitsDocument quotedTable = true := by decide
  have output : (Renderer.render { table } quotedTable).toOption = some quotedTablePage := by
    decide +kernel
  have rendered := RenderError.ok_of_toOption output
  obtain ⟨reading, read, nested, tags, shown⟩ :=
    render_reads_back (ofProviders_provider 0) (.inl rfl) fitting rendered
  exact ⟨fitting, rendered, reading, read, nested, by rw [tags]; rfl, shown⟩

end CanonicalMarkdown.Html
