import CanonicalMarkdown.Proofs.ConversionSafety
import CanonicalMarkdown.Proofs.Html.Composition
import CanonicalMarkdown.Proofs.Rewording

namespace CanonicalMarkdown.Html

section names

def visitNames : View × Phase → List String
  | (view, .enter) =>
    if carriesAttributes view.node.kind then view.node.attributes.entries.map (·.name) else []
  | (_, .leave) => []

def writtenNames (document : Document) : List String := (document.visits hides).flatMap visitNames

variable {c : Char}

theorem countIn_mergedEntries (bracket : c = '<' ∨ c = '>') (classes : List String)
    (entries : List Attribute) :
    countIn c ((mergedEntries classes entries).map (·.name)) = countIn c (entries.map (·.name)) := by
  have plainClass : "class".toList.count c = 0 := by rcases bracket with rfl | rfl <;> decide
  fun_induction mergedEntries classes entries with
  | case1 => rfl
  | case2 classes entry rest _ ih => rw [List.map_cons, List.map_cons, countIn_cons, countIn_cons, ih]
  | case3 classes entry rest isClass _ ih =>
    have named : entry.name = "class" := by simpa using isClass
    rw [List.map_cons, countIn_cons, named, plainClass, ih, Nat.zero_add]
  | case4 classes entry rest isClass _ ih =>
    have named : entry.name = "class" := by simpa using isClass
    rw [List.map_cons, List.map_cons, countIn_cons, countIn_cons, named, ih]

theorem countIn_of_isName (bracket : c = '<' ∨ c = '>') {entries : List Attribute}
    (named : entries.all (isName ·.name) = true) : countIn c (entries.map (·.name)) = 0 := by
  refine countIn_eq_zero_iff.mpr fun name member => ?_
  obtain ⟨entry, carried, rfl⟩ := List.mem_map.mp member
  have plain := Tag.isPlain_of_isName (List.all_eq_true.mp named entry carried)
  rcases bracket with rfl | rfl
  · exact plain.1
  · exact plain.2

theorem countIn_of_isReadable (bracket : c = '<' ∨ c = '>') {tags : List Tag}
    (readable : ∀ tag ∈ tags, tag.isReadable = true) :
    countIn c (tags.flatMap Tag.attributeNames) = 0 := by
  induction tags with
  | nil => rfl
  | cons tag rest ih =>
    obtain ⟨first, others⟩ := List.forall_mem_cons.mp readable
    have here : countIn c tag.attributeNames = 0 := by
      cases tag with
      | closing name => rfl
      | opening name attributes =>
        exact countIn_of_isName bracket (Bool.and_eq_true_iff.mp first).2
    rw [List.flatMap_cons, countIn_append, here, ih others]

theorem Prints.isReadable {page : String} {tags : List Tag} {shown : List Char}
    (prints : Prints page tags shown) : ∀ tag ∈ tags, tag.isReadable = true := by
  induction prints with
  | nil => simp
  | text _ _ ih => exact ih
  | tag readable _ ih => exact List.forall_mem_cons.mpr ⟨readable, ih⟩

theorem Writes.isReadable {strokes : List Stroke} {tags : List Tag} {shown : List Char}
    (writes : Writes strokes tags shown) : ∀ tag ∈ tags, tag.isReadable = true := by
  induction writes with
  | nil => simp
  | text prints _ ih => exact List.forall_mem_append.mpr ⟨prints.isReadable, ih⟩

theorem countIn_merged (bracket : c = '<' ∨ c = '>') (attributes : Attributes) :
    countIn c ((merged attributes).map (·.name)) = countIn c (attributes.entries.map (·.name)) :=
  countIn_mergedEntries bracket _ _

theorem countIn_linkTag (bracket : c = '<' ∨ c = '>') (address : String) (title : Option String)
    (attributes : Attributes) :
    countIn c (linkTag address title attributes).attributeNames =
      countIn c (attributes.entries.map (·.name)) := by
  have href : "href".toList.count c = 0 := by rcases bracket with rfl | rfl <;> decide
  have titled := countIn_of_isName bracket (all_titleEntry title)
  rw [linkTag, Tag.attributeNames, List.map_cons, List.map_append, countIn_cons, countIn_append,
    href, titled, countIn_merged bracket, Nat.zero_add, Nat.zero_add]

theorem countIn_visitTags (bracket : c = '<' ∨ c = '>') {visit : View × Phase}
    (notHtml : visit.1.node.kind ≠ .htmlBlock ∧ visit.1.node.kind ≠ .rawHtml)
    (calm : ruleSet.complaint visit = none) :
    countIn c ((visitTags visit).flatMap Tag.attributeNames) = countIn c (visitNames visit) := by
  obtain ⟨view, phase⟩ := visit
  obtain ⟨step, answered⟩ := exists_next_of_calm calm
  cases phase with
  | leave => exact countIn_of_isReadable bracket (writes_leave answered).isReadable
  | enter =>
    by_cases unnamed : carriesAttributes view.node.kind = false
    · have plain := countIn_of_isReadable bracket
        (writes_enter_of_unnamed unnamed notHtml answered).isReadable
      rw [visitNames, unnamed]
      exact plain
    · have named : carriesAttributes view.node.kind = true := by simpa using unnamed
      rw [visitNames, if_pos named]
      show countIn c ((enterTags view).flatMap _) = _
      unfold Node.kind at named
      unfold enterTags
      cases payload : view.node.payload with
      | heading level =>
        rw [List.flatMap_singleton]
        exact countIn_merged bracket view.node.attributes
      | link target =>
        rw [List.flatMap_singleton]
        exact countIn_linkTag bracket target.destination target.title view.node.attributes
      | autoLink url email =>
        rw [List.flatMap_cons, countIn_append, countIn_linkTag bracket]
        rfl
      | _ => simp [payload, Payload.kind, carriesAttributes] at named

theorem countIn_visits (bracket : c = '<' ∨ c = '>') {visits : List (View × Phase)}
    (notHtml : ∀ visit ∈ visits, visit.1.node.kind ≠ .htmlBlock ∧ visit.1.node.kind ≠ .rawHtml)
    (calm : ∀ visit ∈ visits, ruleSet.complaint visit = none) :
    countIn c ((visits.flatMap visitTags).flatMap Tag.attributeNames) =
      countIn c (visits.flatMap visitNames) := by
  induction visits with
  | nil => rfl
  | cons visit rest ih =>
    obtain ⟨here, others⟩ := List.forall_mem_cons.mp notHtml
    obtain ⟨calmHere, calmBehind⟩ := List.forall_mem_cons.mp calm
    rw [List.flatMap_cons, List.flatMap_append, List.flatMap_cons, countIn_append, countIn_append,
      countIn_visitTags bracket here calmHere, ih others calmBehind]

end names

section forms

def isBareBelow (inTightList : Bool) : Payload → Bool
  | .listItem _ => inTightList
  | .definitionDetails tight => tight
  | _ => false

theorem isBareBelow_form (inTightList : Bool) (payload : Payload) :
    isBareBelow inTightList payload.form = isBareBelow inTightList payload := by
  cases payload <;> rfl

theorem isBareParagraph_eq (view : View) :
    isBareParagraph view = view.parentPayload?.any
      (isBareBelow ((view.ancestor? .list).any fun list => list.node.isTightList)) := by
  unfold isBareParagraph
  cases view.parentPayload? with
  | none => rfl
  | some parent => cases parent <;> rfl

variable (change : Rewording)

theorem isBareParagraph_view (view : View) :
    isBareParagraph (change.view view) = isBareParagraph view := by
  have tight : ((change.view view).ancestor? .list).any (fun list => list.node.isTightList) =
      (view.ancestor? .list).any fun list => list.node.isTightList := by
    rw [change.ancestor?_view, Option.any_map]
    exact congrArg (Option.any · _) (funext fun list => change.isTightList_node list.node)
  have below (inTightList : Bool) (parent : Payload) :
      isBareBelow inTightList (change.payload parent) = isBareBelow inTightList parent := by
    rw [← isBareBelow_form, change.form_payload, isBareBelow_form]
  rw [isBareParagraph_eq, isBareParagraph_eq, tight, change.parentPayload?_view, Option.any_map]
  exact congrArg (Option.any · _) (funext (below _))

theorem followsRow_view (view : View) : followsRow (change.view view) = followsRow view := by
  rw [followsRow, change.prev?_view, Option.any_map]
  exact congrArg (Option.any · _) (funext fun node => by simp)

theorem hasRows_node (node : Node) : hasRows (change.node node) = hasRows node := by
  rw [hasRows, change.children_node, List.any_map]
  exact congrArg (List.any _ ·) (funext fun child => by simp)

theorem cellName_view (view : View) : cellName (change.view view) = cellName view := by
  rw [cellName, View.within, change.ancestor?_view, Option.isSome_map]
  rfl

theorem length_enterTags (view : View) : (enterTags view).length =
    match view.node.payload.form with
    | .document | .string _ | .htmlBlock _ _ | .rawHtml _ => 0
    | .paragraph => if isBareParagraph view then 0 else 1
    | .text run => if run.hardBreak then 1 else 0
    | .tableRow => if followsRow view then 1 else 2
    | .tableHead | .codeSpan _ | .autoLink _ _ => 2
    | .codeBlock _ | .fencedCodeBlock _ _ _ => 4
    | _ => 1 := by
  unfold enterTags
  cases view.node.payload with
  | paragraph => cases isBareParagraph view <;> rfl
  | text run => cases hard : run.hardBreak <;> simp [Payload.form, hard]
  | tableRow => cases followsRow view <;> rfl
  | _ => rfl

theorem length_leaveTags (view : View) : (leaveTags view).length =
    match view.node.payload.form with
    | .paragraph => if isBareParagraph view then 0 else 1
    | .table _ => if hasRows view.node then 2 else 1
    | .tableHead => 2
    | .heading _ | .blockquote | .list _ | .listItem _ | .tableRow | .tableCell | .definitionList
    | .definitionTerm | .definitionDetails _ | .emphasis _ | .link _ => 1
    | _ => 0 := by
  unfold leaveTags
  cases view.node.payload with
  | paragraph => cases isBareParagraph view <;> rfl
  | table => cases hasRows view.node <;> rfl
  | _ => rfl

theorem length_visitTags (visit : View × Phase) :
    (visitTags (change.visit visit)).length = (visitTags visit).length := by
  obtain ⟨view, phase⟩ := visit
  have form : (change.view view).node.payload.form = view.node.payload.form := by
    rw [change.node_view, change.payload_node, change.form_payload]
  cases phase with
  | enter =>
    show (enterTags (change.view view)).length = (enterTags view).length
    rw [length_enterTags, length_enterTags, form, isBareParagraph_view, followsRow_view]
  | leave =>
    show (leaveTags (change.view view)).length = (leaveTags view).length
    rw [length_leaveTags, length_leaveTags, form, isBareParagraph_view, change.node_view,
      hasRows_node]

theorem complaint_eq (view : View) (phase : Phase) :
    ruleSet.complaint (view, phase) = if view.isStrayItem then some strayItem else none := by
  cases phase with
  | enter =>
    simp only [RuleSet.complaint, ruleSet, reply, next_enter]
    cases view.isStrayItem <;> rfl
  | leave =>
    simp only [RuleSet.complaint, ruleSet, reply, next_leave]
    cases view.isStrayItem <;> rfl

theorem complaint_visit (visit : View × Phase) :
    ruleSet.complaint (change.visit visit) = ruleSet.complaint visit := by
  obtain ⟨view, phase⟩ := visit
  rw [Rewording.visit, complaint_eq, complaint_eq, change.isStrayItem_view]

variable {renderer : Renderer} {priority : Int} {document other : Document} {text : String}

theorem length_visitTags_of_form_eq (form : other.form = document.form) :
    ((other.visits hides).flatMap visitTags).length =
      ((document.visits hides).flatMap visitTags).length := by
  have read (visits : List (View × Phase)) : (visits.flatMap visitTags).length =
      ((visits.map Rewording.bare.visit).map fun visit => (visitTags visit).length).sum := by
    rw [List.length_flatMap, List.map_map]
    exact congrArg (fun length => (visits.map length).sum)
      (funext fun visit => (length_visitTags Rewording.bare visit).symm)
  rw [read, read, Document.visits_of_form_eq form]

def Unmixed (document : Document) : Prop :=
  ∀ visit ∈ document.visits hides,
    visit.1.node.kind ≠ .htmlBlock ∧ visit.1.node.kind ≠ .rawHtml

theorem Unmixed.of_form_eq (unmixed : Unmixed document) (form : other.form = document.form) :
    Unmixed other :=
  Document.forall_visits_of_form_eq form (fun visit => by simp [Rewording.visit]) unmixed

theorem exists_render_of_form_eq
    (alone : DispatchTable.ofProviders [provider priority] = .ok renderer.table)
    (form : other.form = document.form) (rendered : renderer.render document = .ok text) :
    ∃ page, renderer.render other = .ok page := by
  obtain ⟨calm, -⟩ := (Renderer.render_eq_ok_iff (follows alone)).mp rendered
  have calmOther : ∀ visit ∈ other.visits hides, ruleSet.complaint visit = none :=
    Document.forall_visits_of_form_eq form (fun visit => by rw [complaint_visit]) calm
  exact ⟨_, (Renderer.render_eq_ok_iff (follows alone)).mpr ⟨calmOther, rfl⟩⟩

theorem count_render {c : Char} (bracket : c = '<' ∨ c = '>')
    (alone : DispatchTable.ofProviders [provider priority] = .ok renderer.table)
    (unmixed : Unmixed document) (rendered : renderer.render document = .ok text) :
    text.toList.count c =
      ((document.visits hides).flatMap visitTags).length + countIn c (writtenNames document) := by
  obtain ⟨calm, -⟩ := (Renderer.render_eq_ok_iff (follows alone)).mp rendered
  rw [(composed_render alone unmixed rendered).count bracket, countIn_visits bracket unmixed calm]
  rfl

end forms

section blunting

/-- The text with a letter for each angle bracket. -/
def blunt (letter : Char) (text : String) : String :=
  String.ofList (text.toList.map fun c => if c = '<' ∨ c = '>' then letter else c)

def blunted (letter : Char) (document : Document) : Document :=
  (Rewording.ofTexts (blunt letter)).document document

def outline (entry : Attribute) : Attribute := ⟨entry.name, entry.value.map fun _ => ""⟩

def Tag.withoutValues : Tag → Tag
  | .opening name attributes => .opening name (attributes.map outline)
  | .closing name => .closing name

/-- The pages differ between their tags and in the values of attributes only. -/
def SameMarkup (left right : String) : Prop :=
  ∃ tags others, Composed left tags ∧ Composed right others ∧
    tags.map Tag.withoutValues = others.map Tag.withoutValues

variable {letter c : Char}

theorem attributeNames_withoutValues (tag : Tag) :
    tag.withoutValues.attributeNames = tag.attributeNames := by
  cases tag with
  | opening name attributes => simp [Tag.withoutValues, Tag.attributeNames, outline]
  | closing name => rfl

theorem SameMarkup.count_eq {left right : String} (same : SameMarkup left right)
    (bracket : c = '<' ∨ c = '>') : left.toList.count c = right.toList.count c := by
  obtain ⟨tags, others, composed, composedOther, outlines⟩ := same
  have names (tags : List Tag) : tags.flatMap Tag.attributeNames =
      (tags.map Tag.withoutValues).flatMap Tag.attributeNames := by
    rw [List.flatMap_map]
    exact congrArg (tags.flatMap ·) (funext fun tag => (attributeNames_withoutValues tag).symm)
  have lengths := congrArg List.length outlines
  rw [List.length_map, List.length_map] at lengths
  rw [composed.count bracket, composedOther.count bracket, names, names others, outlines, lengths]

theorem blunt_of_not_mem {text : String} (plain : IsPlain text.toList) :
    blunt letter text = text := by
  have same : ∀ c ∈ text.toList, (if c = '<' ∨ c = '>' then letter else c) = c := by
    intro c member
    refine if_neg fun bracket => ?_
    rcases bracket with rfl | rfl
    · exact plain.1 member
    · exact plain.2 member
  rw [blunt, List.map_congr_left same, List.map_id', String.ofList_toList]

theorem not_mem_blunt (bracket : c = '<' ∨ c = '>') (other : ¬(letter = '<' ∨ letter = '>'))
    (text : String) : c ∉ (blunt letter text).toList := by
  rw [blunt, String.toList_ofList, List.mem_map]
  rintro ⟨from', -, replaced⟩
  split at replaced
  · exact other (replaced ▸ bracket)
  · rename_i plain
    exact plain (replaced ▸ bracket)

theorem isSome_language? (info : String) :
    (language? info).isSome = info.toList.any fun c => !Unicode.isWhiteSpace c := by
  have word (chars : List Char) :
      ((Unicode.trimStart chars).takeWhile fun c => !Unicode.isWhiteSpace c).isEmpty =
        !chars.any fun c => !Unicode.isWhiteSpace c := by
    induction chars with
    | nil => rfl
    | cons c rest ih =>
      unfold Unicode.trimStart at ih ⊢
      cases space : Unicode.isWhiteSpace c <;> simp [space, ih]
  unfold language?
  dsimp only
  rw [word]
  cases info.toList.any fun c => !Unicode.isWhiteSpace c <;> rfl

theorem isSome_language?_blunt (inWord : Unicode.isWhiteSpace letter = false) (info : String) :
    (language? (blunt letter info)).isSome = (language? info).isSome := by
  have same (c : Char) : Unicode.isWhiteSpace (if c = '<' ∨ c = '>' then letter else c) =
      Unicode.isWhiteSpace c := by
    split
    · rename_i bracket
      rw [inWord]
      rcases bracket with rfl | rfl <;> decide
    · rfl
  rw [isSome_language?, isSome_language?, blunt, String.toList_ofList, List.any_map]
  exact congrArg (List.any _ ·) (funext fun c => congrArg not (same c))

section attributes

variable {f : String → String} {entries : List Attribute}

theorem outline_mapTexts {entry : Attribute} (kept : f entry.name = entry.name) :
    outline (entry.mapTexts f) = outline entry := by
  simp [outline, Attribute.mapTexts, kept, Function.comp_def]

theorem classNames_mapTexts (kept : ∀ entry ∈ entries, f entry.name = entry.name) :
    classNames (Attributes.mapTexts f ⟨entries⟩) = (classNames ⟨entries⟩).map f := by
  unfold classNames Attributes.mapTexts
  dsimp only
  induction entries with
  | nil => rfl
  | cons entry rest ih =>
    obtain ⟨here, others⟩ := List.forall_mem_cons.mp kept
    have name : (entry.mapTexts f).name = entry.name := here
    have more := ih others
    by_cases named : entry.name = "class"
    · cases value : entry.value <;>
        simp_all [Attribute.mapTexts]
    · simp_all

theorem outline_mergedEntries (kept : ∀ entry ∈ entries, f entry.name = entry.name)
    {classes others : List String} (same : others.isEmpty = classes.isEmpty) :
    (mergedEntries others (entries.map (Attribute.mapTexts f))).map outline =
      (mergedEntries classes entries).map outline := by
  induction entries generalizing classes others with
  | nil => rfl
  | cons entry rest ih =>
    obtain ⟨here, behind⟩ := List.forall_mem_cons.mp kept
    have name : (entry.mapTexts f).name = entry.name := here
    rw [List.map_cons, mergedEntries, mergedEntries, name, same]
    split
    · rw [List.map_cons, List.map_cons, outline_mapTexts here, ih behind same]
    · split
      · exact ih behind same
      · rw [List.map_cons, List.map_cons, ih behind rfl]
        rfl

theorem outline_merged {attributes : Attributes}
    (kept : ∀ entry ∈ attributes.entries, f entry.name = entry.name) :
    (merged (attributes.mapTexts f)).map outline = (merged attributes).map outline := by
  refine outline_mergedEntries kept ?_
  have classes := classNames_mapTexts kept
  rw [classes, List.isEmpty_map]

end attributes

theorem outline_titleEntry {title other : Option String} (titled : other.isSome = title.isSome) :
    (titleEntry other).map outline = (titleEntry title).map outline := by
  cases title <;> cases other <;> first | rfl | contradiction

theorem withoutValues_linkTag (address other : String) {title otherTitle : Option String}
    (titled : otherTitle.isSome = title.isSome) {f : String → String} {attributes : Attributes}
    (kept : ∀ entry ∈ attributes.entries, f entry.name = entry.name) :
    (linkTag other otherTitle (attributes.mapTexts f)).withoutValues =
      (linkTag address title attributes).withoutValues := by
  have entries := outline_titleEntry titled
  simp only [linkTag, Tag.withoutValues, List.map_cons, List.map_append, entries,
    outline_merged kept]
  rfl

theorem withoutValues_imageTag {target other : LinkTarget}
    (titled : other.title.isSome = target.title.isSome) (description shown : String) :
    (imageTag other shown).withoutValues = (imageTag target description).withoutValues := by
  have entries : (titleEntry other.title).map outline = (titleEntry target.title).map outline :=
    outline_titleEntry titled
  simp only [imageTag, Tag.withoutValues, List.map_cons, List.map_append, entries]
  rfl

theorem withoutValues_codeTags {language other : Option String}
    (same : other.isSome = language.isSome) :
    (codeTags other).map Tag.withoutValues = (codeTags language).map Tag.withoutValues := by
  cases language <;> cases other <;> first | rfl | contradiction

theorem cellAlignment_view (f : String → String) (view : View) :
    cellAlignment ((Rewording.ofTexts f).view view) = cellAlignment view := by
  have index : ((Rewording.ofTexts f).view view).place.index = view.place.index := by
    show ((Rewording.ofTexts f).nodes view.place.earlier).length = view.place.earlier.length
    rw [Rewording.nodes_eq_map, List.length_map]
  unfold cellAlignment
  rw [Rewording.ancestor?_view, index]
  cases view.ancestor? .table with
  | none => rfl
  | some table =>
    obtain ⟨⟨payload, span, attributes, children⟩, earlier, later⟩ := table
    cases payload <;> rfl

/-- Where no name with an angle bracket is written, blunting the texts keeps the tags but for the
    values of their attributes. -/
theorem withoutValues_visitTags (inWord : Unicode.isWhiteSpace letter = false) {visit : View × Phase}
    (plain : ∀ name ∈ visitNames visit, IsPlain name.toList) :
    (visitTags ((Rewording.ofTexts (blunt letter)).visit visit)).map Tag.withoutValues =
      (visitTags visit).map Tag.withoutValues := by
  obtain ⟨view, phase⟩ := visit
  let change := Rewording.ofTexts (blunt letter)
  have payload : (change.view view).node.payload = view.node.payload.mapTexts (blunt letter) :=
    change.payload_node view.node
  have attributes : (change.view view).node.attributes =
      view.node.attributes.mapTexts (blunt letter) := change.attributes_node view.node
  cases phase with
  | leave =>
    show (leaveTags (change.view view)).map _ = (leaveTags view).map _
    unfold leaveTags
    rw [payload, isBareParagraph_view, cellName_view, change.node_view, hasRows_node]
    cases view.node.payload <;> rfl
  | enter =>
    have kept : carriesAttributes view.node.kind = true →
        ∀ entry ∈ view.node.attributes.entries, blunt letter entry.name = entry.name := by
      intro named entry member
      refine blunt_of_not_mem (plain entry.name ?_)
      rw [visitNames, if_pos named]
      exact List.mem_map_of_mem member
    show (enterTags (change.view view)).map _ = (enterTags view).map _
    unfold Node.kind at kept
    unfold enterTags
    rw [payload, attributes, isBareParagraph_view, cellName_view, followsRow_view]
    cases shown : view.node.payload with
    | heading level =>
      rw [shown] at kept
      simp only [Payload.mapTexts, headingTag, List.map_cons, List.map_nil, Tag.withoutValues,
        outline_merged (kept rfl)]
    | fencedCodeBlock info lines contentEnd =>
      exact withoutValues_codeTags (isSome_language?_blunt inWord info)
    | link target =>
      rw [shown] at kept
      exact congrArg ([·]) (withoutValues_linkTag _ _ Option.isSome_map (kept rfl))
    | image target =>
      exact congrArg ([·]) (withoutValues_imageTag Option.isSome_map _ _)
    | autoLink url email =>
      rw [shown] at kept
      exact congrArg ([·, .closing "a"]) (withoutValues_linkTag _ _ rfl (kept rfl))
    | tableCell =>
      show [Tag.withoutValues _] = _
      rw [cellAlignment_view]
      rfl
    | _ => rfl

theorem visitNames_ofTexts (f : String → String) (visit : View × Phase) :
    visitNames ((Rewording.ofTexts f).visit visit) = (visitNames visit).map f := by
  obtain ⟨view, phase⟩ := visit
  let change := Rewording.ofTexts f
  cases phase with
  | leave => rfl
  | enter =>
    have attributes : (change.view view).node.attributes = view.node.attributes.mapTexts f :=
      change.attributes_node view.node
    have kind : (change.view view).node.kind = view.node.kind := change.kind_node view.node
    show (if carriesAttributes (change.view view).node.kind then _ else _) = _
    rw [kind, attributes, visitNames]
    split
    · simp [Attributes.mapTexts, Attribute.mapTexts, Function.comp_def]
    · rfl

theorem writtenNames_blunted (letter : Char) (document : Document) :
    writtenNames (blunted letter document) = (writtenNames document).map (blunt letter) := by
  rw [writtenNames, blunted, Rewording.visits_document, List.flatMap_map, writtenNames,
    List.map_flatMap]
  exact congrArg (List.flatMap · _) (funext (visitNames_ofTexts (blunt letter)))

variable {renderer : Renderer} {priority : Int} {document : Document} {text page : String}

theorem sameMarkup_blunted (inWord : Unicode.isWhiteSpace letter = false)
    (alone : DispatchTable.ofProviders [provider priority] = .ok renderer.table)
    (unmixed : Unmixed document) (rendered : renderer.render document = .ok text)
    (renderedBlunt : renderer.render (blunted letter document) = .ok page)
    (plain : ∀ name ∈ writtenNames document, IsPlain name.toList) : SameMarkup text page := by
  have form : (blunted letter document).form = document.form := Rewording.form_document _ document
  refine ⟨_, _, composed_render alone unmixed rendered,
    composed_render alone (unmixed.of_form_eq form) renderedBlunt, ?_⟩
  rw [blunted, Rewording.visits_document, List.flatMap_map, List.map_flatMap, List.map_flatMap,
    List.flatMap_def, List.flatMap_def]
  refine congrArg List.flatten (List.map_congr_left fun visit member => ?_)
  refine (withoutValues_visitTags inWord fun name written => plain name ?_).symm
  exact List.mem_flatMap.mpr ⟨visit, member, written⟩

end blunting

section markup

variable {renderer : Renderer} {priority : Int} {document : Document} {text : String}

/-- Documents of one form are rendered with as many angle brackets, but for those in the names of
    attributes. A letter for each bracket in the texts leaves the same tags and names just if there
    is none in such a name. -/
theorem brackets_depend_on_names
    (alone : DispatchTable.ofProviders [provider priority] = .ok renderer.table)
    (unmixed : ∀ view, document.Holds view →
      view.node.kind ≠ .htmlBlock ∧ view.node.kind ≠ .rawHtml)
    (rendered : renderer.render document = .ok text) :
    (∀ other : Document, other.form = document.form →
      ∃ page, renderer.render other = .ok page ∧ ∀ c, c = '<' ∨ c = '>' →
        page.toList.count c + countIn c (writtenNames document) =
          text.toList.count c + countIn c (writtenNames other)) ∧
    (∀ letter, ¬(letter = '<' ∨ letter = '>') → Unicode.isWhiteSpace letter = false →
      ∃ page, renderer.render (blunted letter document) = .ok page ∧
        (SameMarkup text page ↔ ∀ name ∈ writtenNames document, IsPlain name.toList) ∧
        ((∀ c, c = '<' ∨ c = '>' → page.toList.count c = text.toList.count c) ↔
          ∀ name ∈ writtenNames document, IsPlain name.toList)) := by
  have unmixed : Unmixed document :=
    fun visit member => unmixed visit.1 (Document.mem_visits.mp member).1
  have counts {other : Document} {page : String} (form : other.form = document.form)
      (renderedOther : renderer.render other = .ok page) {c : Char} (bracket : c = '<' ∨ c = '>') :
      page.toList.count c + countIn c (writtenNames document) =
        text.toList.count c + countIn c (writtenNames other) := by
    rw [count_render bracket alone unmixed rendered,
      count_render bracket alone (unmixed.of_form_eq form) renderedOther,
      length_visitTags_of_form_eq form]
    omega
  constructor
  · intro other form
    obtain ⟨page, renderedOther⟩ := exists_render_of_form_eq alone form rendered
    exact ⟨page, renderedOther, fun c => counts form renderedOther⟩
  · intro letter other inWord
    have form : (blunted letter document).form = document.form := Rewording.form_document _ document
    obtain ⟨page, renderedBlunt⟩ := exists_render_of_form_eq alone form rendered
    have noNames {c : Char} (bracket : c = '<' ∨ c = '>') :
        countIn c (writtenNames (blunted letter document)) = 0 := by
      refine countIn_eq_zero_iff.mpr fun name member => ?_
      rw [writtenNames_blunted] at member
      obtain ⟨original, -, rfl⟩ := List.mem_map.mp member
      exact not_mem_blunt bracket other original
    -- the names of the blunted document hold no bracket, so the pages differ by those of the other
    have same : (∀ c, c = '<' ∨ c = '>' → page.toList.count c = text.toList.count c) ↔
        ∀ name ∈ writtenNames document, IsPlain name.toList := by
      have count_eq_iff {c : Char} (bracket : c = '<' ∨ c = '>') :
          page.toList.count c = text.toList.count c ↔
            ∀ name ∈ writtenNames document, c ∉ name.toList := by
        have both := counts form renderedBlunt bracket
        rw [noNames bracket] at both
        rw [← countIn_eq_zero_iff]
        omega
      constructor
      · exact fun equal name member =>
          ⟨(count_eq_iff (.inl rfl)).mp (equal '<' (.inl rfl)) name member,
            (count_eq_iff (.inr rfl)).mp (equal '>' (.inr rfl)) name member⟩
      · rintro plain c bracket
        refine (count_eq_iff bracket).mpr fun name member => ?_
        rcases bracket with rfl | rfl
        · exact (plain name member).1
        · exact (plain name member).2
    refine ⟨page, renderedBlunt, ?_, same⟩
    refine ⟨fun markup => same.mp fun c bracket => (markup.count_eq bracket).symm, fun plain => ?_⟩
    exact sameMarkup_blunted inWord alone unmixed rendered renderedBlunt plain

def taggedHeading : Document :=
  ⟨.ofString "", ⟨.document, ⟨0, 0⟩, {}, [⟨.heading 1, ⟨0, 0⟩, ⟨[⟨"<b>", none⟩]⟩,
    [.leaf (.string "1 < 2") ⟨0, 0⟩]⟩]⟩⟩

theorem brackets_depend_on_names_taggedHeading :
    Renderer.render { table } taggedHeading = .ok "<h1 <b>>1 &lt; 2</h1>\n" ∧
    Renderer.render { table } (blunted 'x' taggedHeading) = .ok "<h1 xbx>1 x 2</h1>\n" ∧
    ¬SameMarkup "<h1 <b>>1 &lt; 2</h1>\n" "<h1 xbx>1 x 2</h1>\n" := by
  have unmixed : ∀ visit ∈ taggedHeading.visits fun _ => false,
      visit.1.node.kind ≠ .htmlBlock ∧ visit.1.node.kind ≠ .rawHtml := by decide
  have rendered : Renderer.render { table } taggedHeading = .ok "<h1 <b>>1 &lt; 2</h1>\n" := by rfl
  have blunt : Renderer.render { table } (blunted 'x' taggedHeading) =
      .ok "<h1 xbx>1 x 2</h1>\n" := by rfl
  obtain ⟨-, letters⟩ := brackets_depend_on_names (ofProviders_provider 0)
    (fun view holds => unmixed (view, .enter) (Document.mem_visits.mpr ⟨holds, fun _ _ => rfl⟩))
    rendered
  obtain ⟨page, renderedPage, same, -⟩ := letters 'x' (by decide) (by decide)
  obtain rfl : page = _ := Except.ok.inj (renderedPage.symm.trans blunt)
  refine ⟨rendered, blunt, fun markup => ?_⟩
  exact (same.mp markup "<b>" (by decide)).1 (by decide)

def namedHeading (name : String) : List Event :=
  [⟨.start (.heading 1 none [] [⟨name, none⟩]), ⟨0, 1⟩⟩, ⟨.text "T", ⟨0, 1⟩⟩, ⟨.close, ⟨0, 1⟩⟩]

theorem tagged_namedHeading :
    ∃ conversion, Conversion.ofOptions .html {} = .ok conversion ∧
      conversion.convert (.ofString "T") (namedHeading "<b>") = .ok "<h1 <b> id=\"t\">T</h1>\n" ∧
      conversion.convert (.ofString "T") (namedHeading "xbx") = .ok "<h1 xbx id=\"t\">T</h1>\n" ∧
      "<h1 <b> id=\"t\">T</h1>\n".toList.count '<' ≠
        "<h1 xbx id=\"t\">T</h1>\n".toList.count '<' :=
  ⟨_, Conversion.ofOptions_html {}, rfl, rfl, by decide⟩

end markup

end CanonicalMarkdown.Html
