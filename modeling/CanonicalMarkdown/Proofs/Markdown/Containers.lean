import CanonicalMarkdown.Proofs.ConversionSafety
import CanonicalMarkdown.Proofs.Markdown.Alike

namespace CanonicalMarkdown.Markdown

open Text

section walk

variable {renderer : Renderer} {outer : List String} {start : List Char}

theorem answer_indented (follows : renderer.Follows ruleSet) {left right : View} {phase : Phase}
    (same : reply left phase = reply right phase) {line final : LineState} {alone inside : Page}
    {levels : List String} (tidy : Tidy line (reply left phase).strokes final)
    (after : levelsAfter (reply left phase).strokes alone.padding.levels = some levels)
    (pages : Page.Indented outer start line alone inside) :
    ∃ alone' inside',
      renderer.answer left phase alone = (alone', (reply left phase).next) ∧
      renderer.answer right phase inside = (inside', (reply left phase).next) ∧
      alone'.padding.levels = levels ∧ Page.Indented outer start final alone' inside' := by
  obtain ⟨alone', inside', applied, appliedInside, leftLevels, pages'⟩ :=
    pages.applyAll tidy after
  refine ⟨alone', inside', ?_, ?_, leftLevels, pages'⟩
  · rw [follows, Page.answer, show (ruleSet.reply left phase) = reply left phase from rfl, applied]
  · rw [follows, Page.answer, show (ruleSet.reply right phase) = reply right phase from rfl,
      ← same, appliedInside]

theorem not_stray_of_fitsIn {view : View}
    (fits : view.node.payload.fitsIn view.parentPayload? = true) :
    view.isStrayItem = false ∧ view.isStrayHead = false := by
  unfold View.isStrayItem View.isStrayHead Node.kind
  cases payload : view.node.payload with
  | listItem offset =>
    rw [payload] at fits
    obtain ⟨parent, style, found, same, _⟩ := View.list_of_fitsIn fits
    have inList : view.isIn .list = true := View.isIn_list.mpr ⟨parent, style, found, same⟩
    simp [inList, Payload.kind]
  | tableHead =>
    rw [payload] at fits
    obtain ⟨parent, alignments, found, same⟩ := View.table_of_fitsIn fits
    have inTable : view.isIn .table = true := View.isIn_table.mpr ⟨parent, alignments, found, same⟩
    simp [inTable, Payload.kind]
  | _ => simp [Payload.kind]

variable {source : Source} {left right : List Place}

theorem writeGap_indented (separators : renderer.separators = true) (alike : Alike left right)
    {place : Place} {alone inside : Page}
    (pages : Page.Indented outer start (lineAfter place.node) alone inside) :
    Page.Indented outer start (if place.later.isEmpty then lineAfter place.node else .begun)
      (renderer.writeGap ⟨source, place, left⟩ alone)
      (renderer.writeGap ⟨source, place, right⟩ inside) := by
  rw [← alike.writeGap_eq renderer inside]
  unfold Renderer.writeGap
  cases later : place.later with
  | nil =>
    have last : place.next? = none := by simp [Place.next?, later]
    simp only [last]
    exact pages
  | cons next rest =>
    have followed : place.next? = some next := by simp [Place.next?, later]
    simp only [followed, separators, Bool.true_and]
    cases block : place.node.kind.isBlock with
    | true =>
      simp only [View.node, block]
      exact pages.writeGap _
    | false =>
      obtain ⟨noBlocks, childless⟩ := Kind.inline_of_not_isBlock block
      rw [lineAfter_of_inline noBlocks childless] at pages
      simp only [View.node, block]
      exact pages

theorem enter_indented (follows : renderer.Follows ruleSet) (alike : Alike left right)
    {place : Place} (shaped : isShaped source (left.head?.map (·.node.payload)) place.node = true)
    {alone inside : Page} (pages : Page.Indented outer start .begun alone inside) :
    ∃ alone' inside',
      renderer.answer ⟨source, place, left⟩ .enter alone =
        (alone', .ok (if hides place.node.kind then .skipChildren else .descend)) ∧
      renderer.answer ⟨source, place, right⟩ .enter inside =
        (inside', .ok (if hides place.node.kind then .skipChildren else .descend)) ∧
      alone'.padding.levels = opened ⟨source, place, left⟩ ++ alone.padding.levels ∧
      Page.Indented outer start (afterEnter place.node.payload) alone' inside' := by
  obtain ⟨fits, plain, _, _⟩ := isShaped_iff.mp shaped
  obtain ⟨item, _⟩ : View.isStrayItem ⟨source, place, left⟩ = false ∧
      View.isStrayHead ⟨source, place, left⟩ = false := not_stray_of_fitsIn fits
  have next : (reply ⟨source, place, left⟩ .enter).next =
      .ok (if hides place.node.kind then .skipChildren else .descend) := by
    rw [reply, next_enter, item]
    rfl
  have tidy : Tidy .begun (reply ⟨source, place, left⟩ .enter).strokes
      (afterEnter place.node.payload) := tidy_enter plain fits
  obtain ⟨alone', inside', answered, answeredInside, levels, pages'⟩ :=
    answer_indented follows (alike.reply_eq fits .enter) tidy (levels_enter _ _) pages
  rw [next] at answered answeredInside
  exact ⟨alone', inside', answered, answeredInside, levels, pages'⟩

theorem depart_indented (follows : renderer.Follows ruleSet) (alike : Alike left right)
    {place : Place}
    (shaped : isShaped source (left.head?.map (·.node.payload)) place.node = true)
    {alone inside : Page} {levels : List String}
    (inside_node : alone.padding.levels = opened ⟨source, place, left⟩ ++ levels)
    (pages : Page.Indented outer start (beforeLeave place.node) alone inside) :
    ∃ alone' inside',
      renderer.depart ⟨source, place, left⟩ levels.length alone =
        .done (renderer.writeGap ⟨source, place, left⟩ alone') ∧
      renderer.depart ⟨source, place, right⟩ (levels ++ outer).length inside =
        .done (renderer.writeGap ⟨source, place, right⟩ inside') ∧
      alone'.padding.levels = levels ∧
      Page.Indented outer start (lineAfter place.node) alone' inside' := by
  have fits := (isShaped_iff.mp shaped).1
  obtain ⟨item, head⟩ : View.isStrayItem ⟨source, place, left⟩ = false ∧
      View.isStrayHead ⟨source, place, left⟩ = false := not_stray_of_fitsIn fits
  have next : (reply ⟨source, place, left⟩ .leave).next = .ok .descend := by
    rw [reply, next_leave, item, head]
    rfl
  have after : levelsAfter (reply ⟨source, place, left⟩ .leave).strokes alone.padding.levels =
      some levels := by
    rw [inside_node]
    exact levels_leave _ levels
  obtain ⟨left_alone, left_inside, answered, answeredInside, same, pages'⟩ :=
    answer_indented follows (alike.reply_eq fits .leave) (tidy_leave shaped) after pages
  have sameInside : left_inside.padding.levels = levels ++ outer := by
    rw [pages'.levels, same]
  have kept : left_alone.truncate levels.length = left_alone := by
    rw [← same]
    exact Page.truncate_of_levels rfl
  have keptInside : left_inside.truncate (levels ++ outer).length = left_inside := by
    rw [← sameInside]
    exact Page.truncate_of_levels rfl
  refine ⟨left_alone, left_inside, ?_, ?_, same, pages'⟩
  · rw [Renderer.depart, answered, next]
    simp only [kept]
  · rw [Renderer.depart, answeredInside, next]
    simp only [keptInside]

mutual

/-- A node writes inside further containers what it writes alone, indented, up to the gap. -/
theorem walk_indented {left right : List Place} (follows : renderer.Follows ruleSet)
    (separators : renderer.separators = true) (alike : Alike left right)
    (earlier later : List Node) : ∀ (node : Node) {alone inside : Page},
    isShaped source (left.head?.map (·.node.payload)) node = true →
    Page.Indented outer start .begun alone inside →
    ∃ alone' inside',
      renderer.walk source left earlier later node alone =
        .done (renderer.writeGap ⟨source, ⟨node, earlier, later⟩, left⟩ alone') ∧
      renderer.walk source right earlier later node inside =
        .done (renderer.writeGap ⟨source, ⟨node, earlier, later⟩, right⟩ inside') ∧
      alone'.padding.levels = alone.padding.levels ∧
      Page.Indented outer start (lineAfter node) alone' inside'
  | ⟨payload, span, attributes, children⟩, alone, inside, shaped, pages => by
    obtain ⟨fits, plain, childless, below⟩ := isShaped_iff.mp shaped
    rw [Renderer.walk, Renderer.walk]
    generalize placed : Place.mk ⟨payload, span, attributes, children⟩ earlier later = place
    have node : place.node = ⟨payload, span, attributes, children⟩ := by rw [← placed]
    rw [← node] at plain shaped
    obtain ⟨entered, enteredInside, answered, answeredInside, levels, entry⟩ :=
      enter_indented follows alike shaped pages
    have depth : inside.padding.depth = (alone.padding.levels ++ outer).length :=
      congrArg List.length pages.levels
    -- what is left to do once the children are written, or were not to be written at all
    have departs {between betweenInside : Page}
        (same : between.padding.levels = entered.padding.levels)
        (below : Page.Indented outer start (beforeLeave place.node) between betweenInside) :=
      depart_indented follows alike shaped (same.trans levels) below
    rw [node] at departs
    simp only [answered, answeredInside, depth]
    simp only [node, Node.kind] at entry ⊢
    cases hidden : hides payload.kind with
    | true =>
      have leaf : beforeLeave ⟨payload, span, attributes, children⟩ = afterEnter payload :=
        beforeLeave_of_hides hidden
      rw [leaf] at departs
      exact departs rfl entry
    | false =>
      have shown : areShaped source (some payload) children = true := by
        rcases below with hides | shown
        · rw [Node.kind, hidden] at hides
          contradiction
        · exact shown
      cases empty : payload.kind.isChildless with
      | true =>
        have none : children = [] := childless empty
        have leaf : beforeLeave ⟨payload, span, attributes, children⟩ = afterEnter payload :=
          beforeLeave_of_isChildless empty
        rw [leaf] at departs
        simp only [none, Bool.false_eq_true, if_false, Renderer.walkAll, Walked.andThen]
        rw [none] at departs
        exact departs rfl entry
      | false =>
        have inner : beforeLeave ⟨payload, span, attributes, children⟩ = lineAfterAll children :=
          beforeLeave_of_shown hidden empty
        rw [inner] at departs
        have around : some payload = (place :: left).head?.map (·.node.payload) := by
          simp [node]
        rw [afterEnter_of_not_isChildless empty] at entry
        rw [around] at shown
        obtain ⟨between, betweenInside, done, doneInside, same, pages'⟩ :=
          walkAll_indented follows separators (alike.cons place) [] children shown entry
        simp only [Bool.false_eq_true, if_false, done, doneInside, Walked.andThen]
        exact departs same pages'

theorem walkAll_indented {left right : List Place} (follows : renderer.Follows ruleSet)
    (separators : renderer.separators = true) (alike : Alike left right)
    (earlier : List Node) : ∀ (nodes : List Node) {alone inside : Page},
    areShaped source (left.head?.map (·.node.payload)) nodes = true →
    Page.Indented outer start .begun alone inside →
    ∃ alone' inside',
      renderer.walkAll source left earlier nodes alone = .done alone' ∧
      renderer.walkAll source right earlier nodes inside = .done inside' ∧
      alone'.padding.levels = alone.padding.levels ∧
      Page.Indented outer start (lineAfterAll nodes) alone' inside'
  | [], alone, inside, _, pages => by
    rw [Renderer.walkAll, Renderer.walkAll]
    exact ⟨alone, inside, rfl, rfl, rfl, pages⟩
  | node :: later, alone, inside, shaped, pages => by
    obtain ⟨first, more⟩ := areShaped_cons.mp shaped
    obtain ⟨between, betweenInside, done, doneInside, same, pages'⟩ :=
      walk_indented follows separators alike earlier later node first pages
    have gap : Page.Indented outer start (if later.isEmpty then lineAfter node else .begun)
        (renderer.writeGap ⟨source, ⟨node, earlier, later⟩, left⟩ between)
        (renderer.writeGap ⟨source, ⟨node, earlier, later⟩, right⟩ betweenInside) :=
      @writeGap_indented renderer outer start source left right separators alike
        ⟨node, earlier, later⟩ between betweenInside pages'
    have kept := (renderer.levels_writeGap ⟨source, ⟨node, earlier, later⟩, left⟩ between).trans same
    rw [Renderer.walkAll, Renderer.walkAll, done, doneInside]
    simp only [Walked.andThen]
    cases later with
    | nil =>
      rw [Renderer.walkAll, Renderer.walkAll]
      exact ⟨_, _, rfl, rfl, kept, gap⟩
    | cons next rest =>
      obtain ⟨last, lastInside, doneAll, doneAllInside, sameAll, pagesAll⟩ :=
        walkAll_indented follows separators alike (node :: earlier) (next :: rest) more gap
      exact ⟨last, lastInside, doneAll, doneAllInside, sameAll.trans kept, pagesAll⟩

end

end walk

theorem indented_empty {page : Page} (oneLine : ∀ level ∈ page.padding.levels, '\n' ∉ level.toList)
    (quiet : page.padding.verbose = false) (onLine : page.onNewLine = false) :
    Page.Indented page.padding.levels page.text.toList .begun {} page := by
  refine ⟨⟨fun _ => rfl, by simp, rfl⟩, ⟨?_, oneLine, quiet⟩, rfl, [], by simp, ?_⟩
  · intro onNewLine
    rw [onLine] at onNewLine
    contradiction
  · exact .refl _

theorem indented_quoted {page : Page} (oneLine : ∀ level ∈ page.padding.levels, '\n' ∉ level.toList)
    (quiet : page.padding.verbose = false) :
    Page.Indented ("> " :: page.padding.levels) (page.text.toList ++ "> ".toList) .begun {}
      { page.write "> " with padding := (page.write "> ").padding.push "> " } := by
  let marked : Page := { page.write "> " with padding := (page.write "> ").padding.push "> " }
  have levels : marked.padding.levels = "> " :: page.padding.levels := by
    simp [marked, Padding.push]
  have text : marked.text.toList = page.text.toList ++ "> ".toList := by
    rw [← String.toList_append, ← Page.text_write]
    rfl
  have markedOneLine : ∀ level ∈ marked.padding.levels, '\n' ∉ level.toList := by
    rw [levels]
    intro level member
    rcases List.mem_cons.mp member with rfl | member
    · decide
    · exact oneLine level member
  have onLine : marked.onNewLine = false := Page.onNewLine_write (by decide) page
  have markedQuiet : marked.padding.verbose = false := by simpa [marked, Padding.push] using quiet
  rw [← levels, ← text]
  exact indented_empty markedOneLine markedQuiet onLine

theorem run_document {renderer : Renderer} (follows : renderer.Follows ruleSet)
    (quiet : renderer.verbosePadding = false) {source : Source} {span : Span}
    {attributes : Attributes} {children : List Node} {final : Page}
    (done : renderer.walkAll source [⟨⟨.document, span, attributes, children⟩, [], []⟩] [] children
      {} = .done final) (levels : final.padding.levels = []) :
    renderer.run ⟨source, ⟨.document, span, attributes, children⟩⟩ = .done final := by
  let view : View := ⟨source, ⟨⟨.document, span, attributes, children⟩, [], []⟩, []⟩
  have entered : renderer.answer view .enter {} = ({}, .ok .descend) := follows view .enter {}
  have left : renderer.answer view .leave final = (final, .ok .descend) :=
    follows view .leave final
  have kept : final.truncate (Padding.depth {}) = final :=
    Page.truncate_of_levels (show final.padding.levels = (Page.mk [] {}).padding.levels from levels)
  rw [Renderer.run, quiet, Renderer.walk]
  simp only [view] at entered left
  simp only [entered, done, Walked.andThen, Renderer.depart, left, kept]
  rfl

theorem walk_blockquote {renderer : Renderer} (follows : renderer.Follows ruleSet)
    {source : Source} {ancestors : List Place} {earlier children : List Node} {span : Span}
    {attributes : Attributes} {page final : Page}
    (done : renderer.walkAll source
      (⟨⟨.blockquote, span, attributes, children⟩, earlier, []⟩ :: ancestors) [] children
      { page.write "> " with padding := (page.write "> ").padding.push "> " } = .done final)
    (levels : final.padding.levels = "> " :: page.padding.levels) :
    ∃ left, renderer.walk source ancestors earlier [] ⟨.blockquote, span, attributes, children⟩
      page = .done left ∧ left.text = final.text := by
  let view : View := ⟨source, ⟨⟨.blockquote, span, attributes, children⟩, earlier, []⟩, ancestors⟩
  let popped : Page :=
    { final with padding := { final.padding with levels := page.padding.levels } }
  have entered : renderer.answer view .enter page =
      ({ page.write "> " with padding := (page.write "> ").padding.push "> " }, .ok .descend) :=
    follows view .enter page
  have pop : final.padding.pop = .ok popped.padding := by
    simp only [Padding.pop, levels]
    rfl
  have left : renderer.answer view .leave final = (popped, .ok .descend) := by
    rw [follows]
    show final.answer (.descend [.pop]) = _
    simp only [Page.answer, Reply.descend, Page.applyAll, Page.apply, pop, Except.map]
    rfl
  have kept : popped.truncate page.padding.depth = popped := Page.truncate_of_levels rfl
  refine ⟨popped, ?_, rfl⟩
  rw [Renderer.walk]
  simp only [view] at entered left
  simp only [entered, done, Walked.andThen, Renderer.depart, left, kept]
  rfl

theorem areShaped_document {source : Source} {nodes : List Node}
    (shaped : areShaped source (some .blockquote) nodes = true) :
    areShaped source (some .document) nodes = true := by
  induction nodes with
  | nil => rfl
  | cons node rest ih =>
    obtain ⟨first, more⟩ := areShaped_cons.mp shaped
    obtain ⟨fits, others⟩ := isShaped_iff.mp first
    have fitsDocument : node.payload.fitsIn (some .document) = true := by
      obtain ⟨payload, span, attributes, children⟩ := node
      cases payload <;> exact fits
    exact areShaped_cons.mpr ⟨isShaped_iff.mpr ⟨fitsDocument, others⟩, ih more⟩

theorem alike_quote {root quote : Place} {ancestors : List Place}
    (document : root.node.kind = .document) (blockquote : quote.node.kind = .blockquote)
    (noHeading : ancestors.any (·.node.kind = .heading) = false) :
    Alike [root] (quote :: ancestors) := by
  refine ⟨.inr ⟨?_, ?_⟩, ?_, ?_⟩
  · simp [isRegarded, document]
  · simp [isRegarded, blockquote]
  · simp [inTightItem, document, blockquote]
  · simp only [List.any_cons, document, blockquote, noHeading]
    rfl

/-- Sibling blocks inside containers are written as they are alone, with the padding of the
    containers in front of every line but the first, except for white space at the ends of lines.
    Code, HTML and thematic breaks end their own last line, and what ends with one begins no
    further line; any other newline at the end does. So a quote is its mark and its content as a
    document of its own, with marks in front of the further lines. -/
theorem containers_indent_content (options : Options) (quiet : options.verbosePadding = false) :
    ∃ conversion, Conversion.ofOptions .markdown options = .ok conversion ∧
    (∀ source (ancestors : List Place) earlier nodes (page : Page),
      areShaped source (ancestors.head?.map (·.node.payload)) nodes = true →
      (∀ level ∈ page.padding.levels, isOneLine level = true) → page.padding.verbose = false →
      page.onNewLine = false →
      ∃ alone inside written,
        conversion.renderer.walkAll source ancestors earlier nodes {} = .done alone ∧
        conversion.renderer.walkAll source ancestors earlier nodes page = .done inside ∧
        inside.text.toList = page.text.toList ++ written ∧
        trimLines written = trimLines
          (indent page.padding.text.toList (lineAfterAll nodes) alone.text.toList)) ∧
    (∀ source (ancestors : List Place) earlier span attributes children (page : Page),
      isShaped source (ancestors.head?.map (·.node.payload))
        ⟨.blockquote, span, attributes, children⟩ = true →
      ancestors.any (·.node.kind = .heading) = false →
      (∀ level ∈ page.padding.levels, isOneLine level = true) → page.padding.verbose = false →
      ∃ alone inside written,
        conversion.render ⟨source, ⟨.document, span, attributes, children⟩⟩ = .ok alone ∧
        conversion.renderer.walk source ancestors earlier []
          ⟨.blockquote, span, attributes, children⟩ page = .done inside ∧
        inside.text.toList = page.text.toList ++ ("> ".toList ++ written) ∧
        trimLines written = trimLines
          (indent (page.padding.text ++ "> ").toList (lineAfterAll children) alone.toList)) := by
  let renderer : Renderer := ⟨Markdown.table, true, options.verbosePadding⟩
  have follows : renderer.Follows ruleSet := Markdown.follows (ofProviders_provider 0)
  refine ⟨⟨.markdown, options, renderer⟩, Conversion.ofOptions_markdown options, ?_, ?_⟩
  · intro source ancestors earlier nodes page shaped oneLine silent onLine
    have pages := indented_empty (fun level member => isOneLine_iff.mp (oneLine level member))
      silent onLine
    obtain ⟨alone, inside, done, doneInside, _, pages'⟩ :=
      walkAll_indented follows rfl (.refl ancestors) earlier nodes shaped pages
    obtain ⟨written, split, same⟩ := pages'.written
    exact ⟨alone, inside, written, done, doneInside, split, same.trimmed⟩
  · intro source ancestors earlier span attributes children page shaped noHeading oneLine silent
    have shapedChildren : areShaped source (some .document) children = true := by
      rcases (isShaped_iff.mp shaped).2.2.2 with hidden | shapedQuote
      · contradiction
      · exact areShaped_document shapedQuote
    let root : Place := ⟨⟨.document, span, attributes, children⟩, [], []⟩
    let quote : Place := ⟨⟨.blockquote, span, attributes, children⟩, earlier, []⟩
    have alike : Alike [root] (quote :: ancestors) := alike_quote rfl rfl noHeading
    have pages := indented_quoted (fun level member => isOneLine_iff.mp (oneLine level member)) silent
    obtain ⟨alone, inside, done, doneInside, levels, pages'⟩ :=
      walkAll_indented follows rfl alike [] children shapedChildren pages
    obtain ⟨written, split, same⟩ := pages'.written
    have insideLevels : inside.padding.levels = "> " :: page.padding.levels := by
      rw [pages'.levels, levels]
      rfl
    obtain ⟨left, walked, text⟩ := walk_blockquote follows doneInside insideLevels
    have run := run_document follows quiet done levels
    refine ⟨alone.text, left, written, ?_, walked, ?_, ?_⟩
    · show renderer.render _ = _
      rw [Renderer.render, run]
    · rw [text, split, List.append_assoc]
    · have padding : String.join ("> " :: page.padding.levels).reverse =
          page.padding.text ++ "> " := by
        simp [Padding.text]
      rw [← padding]
      exact same.trimmed

def itemWithCode : Node :=
  let words : List Node :=
    [.leaf (.text ⟨⟨0, 0⟩, "a", false, true, false⟩) ⟨0, 0⟩, .leaf (.string "b") ⟨0, 0⟩]
  let blocks : List Node := [⟨.paragraph, ⟨0, 0⟩, {}, words⟩, .leaf (.codeBlock ["x\n"]) ⟨0, 0⟩]
  ⟨.list ⟨none, '-', false, false⟩, ⟨0, 0⟩, {}, [⟨.listItem 2, ⟨0, 0⟩, {}, blocks⟩]⟩

theorem containers_indent_itemWithCode :
    ∃ conversion, Conversion.ofOptions .markdown {} = .ok conversion ∧
    (∃ alone inside written,
      conversion.renderer.walkAll ⟨[]⟩ [] [] [itemWithCode] {} = .done alone ∧
      conversion.renderer.walkAll ⟨[]⟩ [] [] [itemWithCode] ⟨["> "], { levels := ["> "] }⟩ =
        .done inside ∧
      inside.text.toList = "> ".toList ++ written ∧
      trimLines written = trimLines (indent "> ".toList .ended alone.text.toList)) ∧
    ∃ alone inside written,
      conversion.render ⟨⟨[]⟩, ⟨.document, ⟨0, 0⟩, {}, [itemWithCode]⟩⟩ = .ok alone ∧
      conversion.renderer.walk ⟨[]⟩ [] [] [] ⟨.blockquote, ⟨0, 0⟩, {}, [itemWithCode]⟩ {} =
        .done inside ∧
      inside.text.toList = "> ".toList ++ written ∧
      trimLines written = trimLines (indent "> ".toList .ended alone.toList) := by
  obtain ⟨conversion, made, content, quote⟩ := containers_indent_content {} rfl
  refine ⟨conversion, made, ?_, ?_⟩
  · exact content ⟨[]⟩ [] [] [itemWithCode] ⟨["> "], { levels := ["> "] }⟩ rfl (by decide) rfl rfl
  · exact quote ⟨[]⟩ [] [] ⟨0, 0⟩ {} [itemWithCode] {} rfl rfl (by simp) rfl

def brokenParagraph : Node :=
  ⟨.paragraph, ⟨0, 2⟩, {}, [.leaf (.text ⟨⟨0, 1⟩, "a", false, true, false⟩) ⟨0, 1⟩]⟩

def brokenLine : List Event :=
  [⟨.start .paragraph, ⟨0, 2⟩⟩, ⟨.text "a", ⟨0, 1⟩⟩, ⟨.softBreak, ⟨1, 2⟩⟩, ⟨.close, ⟨0, 2⟩⟩]

/-- Not every newline at the end leaves the next line without its padding. -/
theorem line_begun_behind_brokenParagraph :
    (Document.ofEvents ⟨['a', '\n']⟩ false brokenLine).root.children = [brokenParagraph] ∧
    areShaped ⟨['a', '\n']⟩ (some .blockquote) [brokenParagraph] = true ∧
    ∃ conversion, Conversion.ofOptions .markdown {} = .ok conversion ∧
    (∃ alone inside,
      conversion.renderer.walkAll ⟨['a', '\n']⟩ [] [] [brokenParagraph] {} = .done alone ∧
      conversion.renderer.walkAll ⟨['a', '\n']⟩ [] [] [brokenParagraph]
        ⟨[], { levels := ["> "] }⟩ = .done inside ∧
      trimLines inside.text.toList ≠
        trimLines (indent "> ".toList .ended alone.text.toList)) ∧
    ∃ inside,
      conversion.render ⟨⟨['a', '\n']⟩, ⟨.document, ⟨0, 2⟩, {}, [brokenParagraph]⟩⟩ = .ok "a\n" ∧
      conversion.renderer.walk ⟨['a', '\n']⟩ [] [] []
        ⟨.blockquote, ⟨0, 2⟩, {}, [brokenParagraph]⟩ {} = .done inside ∧
      inside.text = "> a\n> " ∧
      trimLines inside.text.toList ≠
        trimLines ("> ".toList ++ indent "> ".toList .ended "a\n".toList) := by
  refine ⟨rfl, rfl, _, Conversion.ofOptions_markdown {}, ⟨_, _, rfl, rfl, by decide⟩, ?_⟩
  exact ⟨_, rfl, rfl, by decide, by decide⟩

end CanonicalMarkdown.Markdown
