import CanonicalMarkdown.Proofs.ConversionSafety
import CanonicalMarkdown.Proofs.Markdown.Facets
import CanonicalMarkdown.Proofs.Markdown.LinkifiedTree
import CanonicalMarkdown.Proofs.Tree.SourceOrder

namespace CanonicalMarkdown

namespace Markdown

open Text

section leaves

variable {renderer : Renderer} {source : Source} {ancestors : List Place} {earlier later : List Node}
  {span : Span}

theorem writeGap_of_inline {place : Place} (inline : place.node.kind.isBlock = false) (page : Page) :
    renderer.writeGap ⟨source, place, ancestors⟩ page = page := by
  unfold Renderer.writeGap
  split
  · rfl
  · simp [View.node, inline]

theorem walk_inlineLeaf (follows : renderer.Follows ruleSet) {payload : Payload}
    {children : List Node} (inline : payload.kind.isBlock = false)
    (leaf : hides payload.kind = true ∨ children = []) {strokes : List Stroke}
    (keeps : KeepsLevels strokes) {attributes : Attributes}
    (entered : reply ⟨source, ⟨⟨payload, span, attributes, children⟩, earlier, later⟩, ancestors⟩
      .enter = ⟨strokes, .ok (if hides payload.kind then .skipChildren else .descend)⟩)
    (left : reply ⟨source, ⟨⟨payload, span, attributes, children⟩, earlier, later⟩, ancestors⟩
      .leave = .descend []) (page : Page) :
    renderer.walk source ancestors earlier later ⟨payload, span, attributes, children⟩ page =
      .done (page.applyAll strokes).1 := by
  obtain ⟨next, applied, levels⟩ := Page.applyAll_of_levelsAfter (keeps page.padding.levels)
  have kept : next.truncate page.padding.depth = next := Page.truncate_of_levels levels
  have departs : renderer.depart
      ⟨source, ⟨⟨payload, span, attributes, children⟩, earlier, later⟩, ancestors⟩
      page.padding.depth next = .done next := by
    have answered := follows
      ⟨source, ⟨⟨payload, span, attributes, children⟩, earlier, later⟩, ancestors⟩ .leave next
    rw [show ruleSet.reply _ .leave = _ from left, Page.answer_nothing] at answered
    rw [Renderer.depart, answered]
    simp only [kept]
    exact congrArg _ (@writeGap_of_inline renderer source ancestors
      ⟨⟨payload, span, attributes, children⟩, earlier, later⟩ inline next)
  have answered := follows
    ⟨source, ⟨⟨payload, span, attributes, children⟩, earlier, later⟩, ancestors⟩ .enter page
  rw [show ruleSet.reply _ .enter = _ from entered, Page.answer] at answered
  rw [Renderer.walk, applied]
  simp only [applied] at answered
  dsimp only
  rw [answered]
  rcases leaf with hidden | empty
  · rw [hidden, if_pos rfl]
    exact departs
  · subst empty
    cases hides payload.kind with
    | true => exact departs
    | false => simpa [Renderer.walkAll, Walked.andThen] using departs

variable {start stop : Nat} {part : List Char}

theorem slice_eq (sliced : source.slice? ⟨start, stop⟩ = some part) :
    source.slice ⟨start, stop⟩ = String.ofList part := by
  rw [Source.slice, sliced]
  rfl

theorem slice_nothing (source : Source) (offset : Nat) : source.slice ⟨offset, offset⟩ = "" := by
  cases sliced : source.slice? ⟨offset, offset⟩ with
  | none =>
    rw [Source.slice, sliced]
    rfl
  | some part =>
    have length := Source.length_slice? sliced
    have nothing : part = [] := by
      by_cases empty : part = []
      · exact empty
      · have positive := byteLength_pos empty
        omega
    rw [slice_eq sliced, nothing]

theorem walk_text (follows : renderer.Follows ruleSet) (run : TextRun)
    (page : Page) : renderer.walk source ancestors earlier later (.leaf (.text run) span) page =
      .done (page.applyAll (runText source run
        ++ runBreak ⟨source, ⟨.leaf (.text run) span, earlier, later⟩, ancestors⟩ run)).1 :=
  walk_inlineLeaf follows rfl (.inr rfl)
    ((keepsLevels_runText source run).append (keepsLevels_runBreak _ run)) rfl rfl page

theorem walk_bareUrl (follows : renderer.Follows ruleSet)
    (sliced : source.slice? ⟨start, stop⟩ = some part) (some : part ≠ []) (url : String)
    (page : Page) : renderer.walk source ancestors earlier later (.ofBareUrl ⟨start, stop⟩ url) page =
      .done (page.write (String.ofList part)) := by
  have strokes : autoLinkText source ⟨start, stop⟩ url = [.text (String.ofList part)] := by
    simp [autoLinkText, slice_eq sliced, some]
  refine walk_inlineLeaf follows rfl (.inl rfl) (.text _) ?_ rfl page
  rw [← strokes]
  rfl

theorem runText_of_slice {run : TextRun} (cooked : run.raw = false)
    (segment : run.segment = ⟨start, stop⟩) (sliced : source.slice? ⟨start, stop⟩ = some part)
    (some : part ≠ []) : runText source run = [.text (String.ofList part)] := by
  simp [runText, segment, slice_eq sliced, some, cooked]

end leaves

section run

variable {renderer : Renderer} {source : Source} {ancestors : List Place}

def breakStrokes (ancestors : List Place) : Option LineBreak → List Stroke
  | some lineBreak =>
    if ancestors.any (·.node.kind = .heading) then [.text " "]
    else if lineBreak.hard then [.text "\\", .text "\n", .padding]
    else [.text "\n", .padding]
  | none => []

theorem runBreak_withBreak (place : Place) {run : TextRun}
    (unbroken : run.softBreak = false ∧ run.hardBreak = false) (lineBreak : LineBreak) :
    runBreak ⟨source, place, ancestors⟩ (run.withBreak lineBreak.hard) =
      breakStrokes ancestors (some lineBreak) := by
  have within : View.within ⟨source, place, ancestors⟩ .heading =
      ancestors.any (·.node.kind = .heading) := by
    simp only [View.within, View.ancestor?, List.isSome_find?]
  unfold runBreak breakStrokes
  rw [within]
  obtain ⟨segment, literal, raw, _, _⟩ := run
  obtain ⟨rfl, rfl⟩ := unbroken
  cases hard : lineBreak.hard <;> simp [TextRun.withBreak, hard]

theorem endRun_cons {node : Node} {rest : List Node} {lineBreak : Option LineBreak}
    (behind : rest ≠ [] ∨ lineBreak = none) :
    endRun (node :: rest) lineBreak = node :: endRun rest lineBreak := by
  cases lineBreak with
  | none => rfl
  | some lineBreak =>
    rcases behind with some | none
    · exact addBreak_cons some lineBreak
    · contradiction

theorem endRun_url (span : Span) (url : String) (lineBreak : Option LineBreak) :
    endRun [.ofBareUrl span url] lineBreak = .ofBareUrl span url :: endRun [] lineBreak := by
  cases lineBreak <;> rfl

theorem walkAll_of_walk {node : Node} {earlier rest : List Node} {page next : Page}
    (walked : renderer.walk source ancestors earlier rest node page = .done next) :
    renderer.walkAll source ancestors earlier (node :: rest) page =
      renderer.walkAll source ancestors (node :: earlier) rest next := by
  rw [Renderer.walkAll, walked]
  rfl

theorem walk_unbroken (follows : renderer.Follows ruleSet) {start stop : Nat} {part : List Char}
    (sliced : source.slice? ⟨start, stop⟩ = some part) (some : part ≠ []) (literal : String)
    (earlier later : List Node) (page : Page) :
    renderer.walk source ancestors earlier later (.ofText ⟨start, stop⟩ literal) page =
      .done (page.write (String.ofList part)) := by
  rw [Node.ofText, walk_text follows, runText_of_slice rfl rfl sliced some]
  rfl

theorem walk_broken (follows : renderer.Follows ruleSet) {run : TextRun}
    (unbroken : run.softBreak = false ∧ run.hardBreak = false) {text : String}
    (copied : runText source run = [.text text]) (lineBreak : LineBreak) (span : Span)
    (earlier later : List Node) (page : Page) :
    renderer.walk source ancestors earlier later
        (.leaf (.text (run.withBreak lineBreak.hard)) span) page =
      .done ((page.write text).applyAll (breakStrokes ancestors (some lineBreak))).1 := by
  have same : runText source (run.withBreak lineBreak.hard) = runText source run := by
    unfold TextRun.withBreak
    split <;> rfl
  rw [walk_text follows, same, copied, runBreak_withBreak _ unbroken]
  rfl

theorem walkAll_endRun (follows : renderer.Follows ruleSet) {start : Nat} {nodes : List Node}
    {text : List Char} (copies : Copies source start nodes text) (lineBreak : Option LineBreak)
    (rest earlier : List Node) (page : Page) :
    ∃ next, renderer.walkAll source ancestors earlier (endRun nodes lineBreak ++ rest) page =
        renderer.walkAll source ancestors ((endRun nodes lineBreak).reverse ++ earlier) rest next ∧
      next.Same ((page.write (String.ofList text)).applyAll (breakStrokes ancestors lineBreak)).1 := by
  induction copies generalizing earlier page with
  | nil =>
    cases lineBreak with
    | none => exact ⟨page, rfl, .refl _⟩
    | some lineBreak =>
      have copied : runText source { segment := ⟨lineBreak.offset, lineBreak.offset⟩, literal := "" } =
          [.text ""] := by
        simp [runText, slice_nothing]
      refine ⟨_, ?_, .refl _⟩
      have written := @walk_broken renderer source ancestors follows
        { segment := ⟨lineBreak.offset, lineBreak.offset⟩, literal := "" } ⟨rfl, rfl⟩ "" copied
        lineBreak ⟨lineBreak.offset, lineBreak.offset⟩ earlier rest page
      exact walkAll_of_walk written
  | @text start stop part more literal others sliced some copies ih =>
    by_cases behind : others ≠ [] ∨ lineBreak = none
    · obtain ⟨next, walked, same⟩ :=
        ih (.ofText ⟨start, stop⟩ literal :: earlier) (page.write (String.ofList part))
      refine ⟨next, ?_, same.trans ?_⟩
      · rw [endRun_cons behind, List.cons_append, Renderer.walkAll, walk_unbroken follows sliced some,
          List.reverse_cons, List.append_assoc]
        exact walked
      · rw [String.ofList_append]
        exact ((Page.Same.write_append page _ _).applyAll _).1
    · obtain ⟨rfl, broken⟩ : others = [] ∧ lineBreak ≠ none := by simpa using behind
      obtain ⟨lineBreak, rfl⟩ := Option.ne_none_iff_exists'.mp broken
      cases copies
      have copied : runText source { segment := ⟨start, stop⟩, literal } =
          [.text (String.ofList part)] := runText_of_slice rfl rfl sliced some
      refine ⟨_, ?_, .refl _⟩
      have written := @walk_broken renderer source ancestors follows
        { segment := ⟨start, stop⟩, literal } ⟨rfl, rfl⟩ (String.ofList part) copied
        lineBreak ⟨start, stop⟩ earlier rest page
      rw [List.append_nil]
      exact walkAll_of_walk written
  | @url start stop part more literal others sliced some _ ih =>
    obtain ⟨next, walked, same⟩ :=
      ih (.ofBareUrl ⟨start, stop⟩ literal :: earlier) (page.write (String.ofList part))
    have parts : endRun (.ofBareUrl ⟨start, stop⟩ literal :: others) lineBreak =
        .ofBareUrl ⟨start, stop⟩ literal :: endRun others lineBreak := by
      by_cases last : others = []
      · subst last
        exact endRun_url _ _ lineBreak
      · exact endRun_cons (.inl last)
    refine ⟨next, ?_, same.trans ?_⟩
    · rw [parts, List.cons_append, Renderer.walkAll, walk_bareUrl follows sliced some,
        List.reverse_cons, List.append_assoc]
      exact walked
    · rw [String.ofList_append]
      exact ((Page.Same.write_append page _ _).applyAll _).1

end run

section walk

variable {renderer : Renderer} {source : Source}

def bulletLists (earlier : List Node) : Nat := (earlier.takeWhile isBulletList).length

theorem bulletLists_cons (node : Node) (earlier : List Node) :
    bulletLists (node :: earlier) = if isBulletList node then bulletLists earlier + 1 else 0 := by
  unfold bulletLists
  rw [List.takeWhile_cons]
  split <;> rfl

theorem bulletLists_of_inline {nodes : List Node} (some : nodes ≠ [])
    (inline : ∀ node ∈ nodes, node.kind.isBlock = false) (earlier : List Node) :
    bulletLists (nodes.reverse ++ earlier) = 0 := by
  obtain ⟨last, front, split⟩ := List.exists_cons_of_ne_nil (by simpa using some : nodes.reverse ≠ [])
  have lastInline : last.kind.isBlock = false := inline last (by
    rw [← List.mem_reverse, split]
    exact List.mem_cons_self ..)
  have notList : isBulletList last = false := by
    obtain ⟨payload, _, _, _⟩ := last
    cases payload <;> first | rfl | contradiction
  rw [split, List.cons_append, bulletLists_cons, notList]
  rfl

theorem gapFacet_of_inline {node : Node} (inline : node.kind.isBlock = false) :
    gapFacet node = (false, false) := by
  obtain ⟨payload, _, _, _⟩ := node
  cases payload <;> first | rfl | simp [Node.kind, Payload.kind, Kind.isBlock] at inline

theorem head?_gapFacet_of_inline {nodes : List Node} (some : nodes ≠ [])
    (inline : ∀ node ∈ nodes, node.kind.isBlock = false) (rest : List Node) :
    (nodes ++ rest).head?.map gapFacet = .some (false, false) := by
  obtain ⟨first, more, rfl⟩ := List.exists_cons_of_ne_nil some
  exact congrArg Option.some (gapFacet_of_inline (inline first (List.mem_cons_self ..)))

theorem head?_gapFacet {parted : Bool} {left right : List Node}
    (linkified : Linkified source parted left right) :
    left.head?.map gapFacet = right.head?.map gapFacet := by
  cases linkified with
  | nil => rfl
  | node => rfl
  | run sliced some copies _ =>
    have one := Copies.single sliced some
    rw [head?_gapFacet_of_inline (endRun_ne_nil (by simp) _) (isInline_endRun (one _).isInline _),
      head?_gapFacet_of_inline (endRun_ne_nil (copies.ne_nil some) _)
        (isInline_endRun copies.isInline _)]

theorem breakStrokes_of_facets {left right : List Place}
    (facets : left.map facet = right.map facet) (lineBreak : Option LineBreak) :
    breakStrokes left lineBreak = breakStrokes right lineBreak := by
  unfold breakStrokes
  rw [show left.any (·.node.kind = .heading) = right.any (·.node.kind = .heading) from
    any_of_facets facets fun payload => payload.kind = .heading]

/-- Trees that differ in linked addresses only are written alike. -/
theorem walkAll_linkified (follows : renderer.Follows ruleSet) {parted : Bool}
    {left right : List Node} (linkified : Linkified source parted left right)
    {ancestors others : List Place} {earlier otherEarlier : List Node} {page otherPage : Page}
    (facets : ancestors.map facet = others.map facet)
    (inList : ancestors.head?.any (·.node.kind = .list) = true → parted = false)
    (index : parted = false → earlier.length = otherEarlier.length)
    (bullets : bulletLists earlier = bulletLists otherEarlier) (pages : page.Same otherPage) :
    (renderer.walkAll source ancestors earlier left page).Same
      (renderer.walkAll source others otherEarlier right otherPage) := by
  induction linkified generalizing ancestors others earlier otherEarlier page otherPage with
  | nil => exact .done pages
  | @node parted payload span otherSpan attributes children otherChildren rest more same mark copied
      _ linkified ihBelow ihRest =>
    -- the marker of a list depends on the lists right before it, so both sides must count the same
    let place : Place := ⟨⟨payload, span, attributes, children⟩, earlier, rest⟩
    let other : Place := ⟨⟨payload, otherSpan, attributes, otherChildren⟩, otherEarlier, more⟩
    have bullet : listBullet place = listBullet other := by
      show (if bulletLists earlier % 2 = 0 then '-' else '*') =
        if bulletLists otherEarlier % 2 = 0 then '-' else '*'
      rw [bullets]
    have below : (place :: ancestors).map facet = (other :: others).map facet := by
      rw [List.map_cons, List.map_cons, facets, facet, facet, bullet]
    have passed : bulletLists (place.node :: earlier) = bulletLists (other.node :: otherEarlier) := by
      rw [bulletLists_cons, bulletLists_cons, bullets]
      rfl
    rw [Renderer.walkAll, Renderer.walkAll]
    refine Walked.Same.andThen (@Renderer.walk_same renderer ruleSet page otherPage follows source
      ancestors others place other ?_ ?_ ?_ pages) fun {page otherPage} pages => ?_
    · exact reply_of_facets facets same mark copied fun list => index (inList list)
    · have kinds : place.node.kind = other.node.kind := rfl
      have next : place.later.head?.map gapFacet = other.later.head?.map gapFacet :=
        head?_gapFacet linkified
      exact fun {_ _} pages => writeGap_of_facets facets renderer kinds next pages
    · intro page otherPage pages
      have isListed (list : (place :: ancestors).head?.any (·.node.kind = .list) = true) :
          decide (payload.kind ≠ .list) = false :=
        decide_eq_false (Decidable.not_not.mpr (of_decide_eq_true list))
      exact ihBelow below isListed (fun _ => rfl) rfl pages
    · exact ihRest facets inList (fun whole => congrArg (· + 1) (index whole)) passed pages
  | @run start stop literal text nodes rest more lineBreak sliced some copies _ ih =>
    -- one text on the left, texts and addresses on the right, and the same source under both
    have one := Copies.single sliced some literal
    obtain ⟨next, walked, same⟩ := walkAll_endRun follows one lineBreak rest earlier page
    obtain ⟨otherNext, otherWalked, otherSame⟩ :=
      walkAll_endRun follows copies lineBreak more otherEarlier otherPage
    rw [walked, otherWalked]
    refine ih facets inList (fun whole => by contradiction) ?_ ?_
    · rw [bulletLists_of_inline (endRun_ne_nil (by simp) _) (isInline_endRun one.isInline _),
        bulletLists_of_inline (endRun_ne_nil (copies.ne_nil some) _)
          (isInline_endRun copies.isInline _)]
    · have written := ((pages.write (String.ofList text)).applyAll (breakStrokes ancestors lineBreak)).1
      refine same.trans (written.trans ?_)
      rw [breakStrokes_of_facets facets]
      exact otherSame.symm

end walk

end Markdown

namespace Conversion

/-- Linking the bare addresses of a stream does not show in Markdown, where each emphasis starts with
    its own marks. -/
theorem convert_ignores_linkify (options : Options) (source : Source) (events : List Event)
    (nested : wellNested [] events = true) (outside : listsHoldNoText [] events = true)
    (marks : emphasesStartWithMarks source events = true) :
    ∃ text, ∀ linkify, ∃ conversion,
      ofOptions .markdown { options with reader.linkify := linkify } = .ok conversion ∧
        conversion.convert source events = .ok text := by
  let renderer : Renderer := ⟨Markdown.table, true, options.verbosePadding⟩
  have alone := Markdown.ofProviders_provider 0
  obtain ⟨text, plain⟩ : ∃ text, renderer.render (.ofEvents source false events) = .ok text := by
    obtain ⟨placed, kind⟩ := Document.placed_ofEvents source false nested
    exact Renderer.renders_of_wellPlaced_markdown alone (Document.wellPlaced_of_placed placed kind)
  have linked : renderer.render (.ofEvents source true events) = .ok text := by
    rw [← plain]
    refine (Renderer.render_same ?_).symm
    rw [Renderer.run_eq_walkAll, Renderer.run_eq_walkAll]
    exact Markdown.walkAll_linkified (Markdown.follows alone)
      (Markdown.linkified_ofEvents source nested outside marks) rfl (fun list => by contradiction)
      (fun _ => rfl) rfl (.refl _)
  refine ⟨text, fun linkify => ⟨_, ofOptions_markdown _, ?_⟩⟩
  cases linkify with
  | false => exact plain
  | true => exact linked

def emphasizedAddress : List Event :=
  [⟨.start (.list (some 7)), ⟨0, 38⟩⟩, ⟨.start .item, ⟨0, 38⟩⟩, ⟨.start .emphasis, ⟨3, 15⟩⟩,
    ⟨.text "http://x.y", ⟨4, 14⟩⟩, ⟨.close, ⟨3, 15⟩⟩, ⟨.softBreak, ⟨15, 16⟩⟩,
    ⟨.text "& ", ⟨19, 21⟩⟩, ⟨.text "http://z", ⟨21, 29⟩⟩, ⟨.text "*", ⟨30, 31⟩⟩,
    ⟨.hardBreak, ⟨31, 33⟩⟩, ⟨.text "d", ⟨36, 37⟩⟩, ⟨.close, ⟨0, 38⟩⟩, ⟨.close, ⟨0, 38⟩⟩]

theorem convert_ignores_linkify_emphasizedAddress :
    wellNested [] emphasizedAddress = true ∧ listsHoldNoText [] emphasizedAddress = true ∧
    emphasesStartWithMarks (.ofString "7. _http://x.y_\n   & http://z\\*\\\n   d\n")
      emphasizedAddress = true ∧
    ∀ linkify, ∃ conversion,
      ofOptions .markdown { reader.linkify := linkify } = .ok conversion ∧
        conversion.convert (.ofString "7. _http://x.y_\n   & http://z\\*\\\n   d\n")
          emphasizedAddress = .ok "7. _http://x.y_\n   & http://z\\*\\\n   d" := by
  have nested : wellNested [] emphasizedAddress = true := rfl
  have outside : listsHoldNoText [] emphasizedAddress = true := rfl
  have marks : emphasesStartWithMarks (.ofString "7. _http://x.y_\n   & http://z\\*\\\n   d\n")
      emphasizedAddress = true := by decide
  obtain ⟨text, converted⟩ := convert_ignores_linkify {} _ emphasizedAddress nested outside marks
  obtain ⟨conversion, made, plain⟩ := converted false
  have written : text = "7. _http://x.y_\n   & http://z\\*\\\n   d" := by
    rw [← Except.ok.inj ((ofOptions_markdown _).symm.trans made)] at plain
    exact Except.ok.inj (plain.symm.trans rfl)
  rw [written] at converted
  exact ⟨nested, outside, marks, converted⟩

/-- A text stands directly in a list, before its item. -/
def listedAddress : List Event :=
  [⟨.start (.list (some 1)), ⟨0, 17⟩⟩, ⟨.text "http://x.y z", ⟨0, 12⟩⟩, ⟨.start .item, ⟨13, 17⟩⟩,
    ⟨.text "a", ⟨16, 17⟩⟩, ⟨.close, ⟨13, 17⟩⟩, ⟨.close, ⟨0, 17⟩⟩]

/-- The item is numbered by its place among the nodes, and an address that is linked makes two of a
    text. -/
theorem convert_shows_linkify_listedAddress :
    let source := Source.ofString "http://x.y z\n1. a"
    wellNested [] listedAddress = true ∧ isInOrder source 0 17 [] listedAddress = true ∧
    (∀ event ∈ listedAddress, (source.slice? event.span).any (· ≠ []) = true) ∧
    emphasesStartWithMarks source listedAddress = true ∧
    ∃ plain linked,
      ofOptions .markdown { reader.linkify := false } = .ok plain ∧
      ofOptions .markdown { reader.linkify := true } = .ok linked ∧
      plain.convert source listedAddress = .ok "http://x.y z2. a" ∧
      linked.convert source listedAddress = .ok "http://x.y z3. a" := by
  intro source
  have ordered : isInOrder source 0 17 [] listedAddress = true := by decide
  have some : ∀ event ∈ listedAddress, (source.slice? event.span).any (· ≠ []) = true := by decide
  refine ⟨rfl, ordered, some, rfl, _, _, ofOptions_markdown _, ofOptions_markdown _,
    RenderError.ok_of_toOption ?_, RenderError.ok_of_toOption ?_⟩
  · decide +kernel
  · decide +kernel

end Conversion

end CanonicalMarkdown
