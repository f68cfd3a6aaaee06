import CanonicalMarkdown.Proofs.Html.Printing
import CanonicalMarkdown.Proofs.Html.RuleSet

namespace CanonicalMarkdown.Html

section tags

/-- The entries in order, with all the classes where the first of them stands. -/
def mergedEntries (classes : List String) : List Attribute → List Attribute
  | [] => []
  | entry :: rest =>
    if entry.name ≠ "class" then entry :: mergedEntries classes rest
    else if classes.isEmpty then mergedEntries classes rest
    else ⟨"class", some (" ".intercalate classes)⟩ :: mergedEntries [] rest

def merged (attributes : Attributes) : List Attribute :=
  mergedEntries (classNames attributes) attributes.entries

def headingTag (level : Nat) (attributes : Attributes) : Tag :=
  .opening (headingName level) (merged attributes)

def listName (style : ListStyle) : String := if style.start.isSome then "ol" else "ul"

def startEntry (style : ListStyle) : List Attribute :=
  match style.start with
  | none | some 1 => []
  | some start => [⟨"start", some (toString start)⟩]

def languageEntry (language : Option String) : List Attribute :=
  language.toList.map fun language => ⟨"class", some ("language-" ++ language)⟩

def codeTags (language : Option String) : List Tag :=
  [.opening "pre" [], .opening "code" (languageEntry language), .closing "code", .closing "pre"]

def styleEntry : Alignment → List Attribute
  | .none => []
  | .left => [⟨"style", some "text-align:left"⟩]
  | .center => [⟨"style", some "text-align:center"⟩]
  | .right => [⟨"style", some "text-align:right"⟩]

def titleEntry (title : Option String) : List Attribute :=
  title.toList.map fun title => ⟨"title", some title⟩

def linkTag (address : String) (title : Option String) (attributes : Attributes) : Tag :=
  .opening "a" (⟨"href", some (percentEncode address)⟩ :: (titleEntry title ++ merged attributes))

def imageTag (target : LinkTarget) (description : String) : Tag :=
  .opening "img" (⟨"src", some (percentEncode target.destination)⟩ ::
    (titleEntry target.title ++ [⟨"alt", some description⟩]))

mutual

/-- The texts at and below a node in the order of the document. None is looked into. -/
def leaves : Node → List Payload
  | ⟨.text run, _, _, _⟩ => [.text run]
  | ⟨.string value, _, _, _⟩ => [.string value]
  | ⟨_, _, _, children⟩ => allLeaves children

def allLeaves : List Node → List Payload
  | [] => []
  | node :: rest => leaves node ++ allLeaves rest

end

def inOneLine : Payload → List Char
  | .text run => run.literal.toList ++ if run.softBreak ∨ run.hardBreak then [' '] else []
  | .string value => value.toList
  | _ => []

def literals (node : Node) : List Char := (leaves node).flatMap inOneLine

mutual

theorem toList_plainText : ∀ node : Node, node.plainText.toList = literals node
  | ⟨payload, span, attributes, children⟩ => by
    have below := toList_plainTexts children
    cases payload with
    | text run =>
      cases soft : run.softBreak <;> cases hard : run.hardBreak <;>
        simp [Node.plainText, TextRun.plainText, literals, leaves, inOneLine, soft, hard]
    | string value => simp [Node.plainText, literals, leaves, inOneLine]
    | _ => exact below

theorem toList_plainTexts : ∀ nodes : List Node,
    (plainTexts nodes).toList = (allLeaves nodes).flatMap inOneLine
  | [] => rfl
  | node :: rest => by
    rw [plainTexts, allLeaves, String.toList_append, List.flatMap_append, toList_plainText node,
      toList_plainTexts rest]
    rfl

end

theorem plainText_eq (node : Node) : node.plainText = String.ofList (literals node) := by
  rw [← toList_plainText, String.ofList_toList]

def followsRow (view : View) : Bool := view.place.prev?.any (·.kind = .tableRow)

def enterTags (view : View) : List Tag :=
  match view.node.payload with
  | .heading level => [headingTag level view.node.attributes]
  | .paragraph => if isBareParagraph view then [] else [.opening "p" []]
  | .blockquote => [.opening "blockquote" []]
  | .list style => [.opening (listName style) (startEntry style)]
  | .listItem _ => [.opening "li" []]
  | .codeBlock _ => codeTags none
  | .fencedCodeBlock info _ _ => codeTags (language? info)
  | .thematicBreak => [.opening "hr" []]
  | .table _ => [.opening "table" []]
  | .tableHead => [.opening "thead" [], .opening "tr" []]
  | .tableRow => (if followsRow view then [] else [.opening "tbody" []]) ++ [.opening "tr" []]
  | .tableCell => [.opening (cellName view) (styleEntry (cellAlignment view))]
  | .definitionList => [.opening "dl" []]
  | .definitionTerm => [.opening "dt" []]
  | .definitionDetails _ => [.opening "dd" []]
  | .text run => if run.hardBreak then [.opening "br" []] else []
  | .emphasis level => [.opening (emphasisName level) []]
  | .codeSpan _ => [.opening "code" [], .closing "code"]
  | .link target => [linkTag target.destination target.title view.node.attributes]
  | .image target => [imageTag target (String.ofList (literals view.node))]
  | .autoLink url email =>
    [linkTag (if email then "mailto:" ++ url else url) none view.node.attributes, .closing "a"]
  | .document | .string _ | .htmlBlock _ _ | .rawHtml _ => []

def leaveTags (view : View) : List Tag :=
  match view.node.payload with
  | .heading level => [.closing (headingName level)]
  | .paragraph => if isBareParagraph view then [] else [.closing "p"]
  | .blockquote => [.closing "blockquote"]
  | .list style => [.closing (listName style)]
  | .listItem _ => [.closing "li"]
  | .table _ => (if hasRows view.node then [.closing "tbody"] else []) ++ [.closing "table"]
  | .tableHead => [.closing "tr", .closing "thead"]
  | .tableRow => [.closing "tr"]
  | .tableCell => [.closing (cellName view)]
  | .definitionList => [.closing "dl"]
  | .definitionTerm => [.closing "dt"]
  | .definitionDetails _ => [.closing "dd"]
  | .emphasis level => [.closing (emphasisName level)]
  | .link _ => [.closing "a"]
  | _ => []

/-- The tags of a visit, with the values of their attributes as they are meant. -/
def visitTags : View × Phase → List Tag
  | (view, .enter) => enterTags view
  | (view, .leave) => leaveTags view

/-- The text that a node shows besides that of its children. -/
def ownText (node : Node) : List Char :=
  match node.payload with
  | .text run => run.literal.toList
  | .string value => value.toList
  | .codeSpan _ => literals node
  | .codeBlock lines | .fencedCodeBlock _ lines _ => (String.join lines).toList
  | .autoLink url _ => url.toList
  | _ => []

def visitText : View × Phase → List Char
  | (view, .enter) => ownText view.node
  | (_, .leave) => []

end tags

section names

theorem isDigit_of_mem_toString {number : Nat} {c : Char} (member : c ∈ (toString number).toList) :
    c.isDigit = true := by
  rw [Nat.toString_eq_ofList_toDigits, String.toList_ofList] at member
  exact Nat.isDigit_of_mem_toDigits (by decide) (by decide) member

theorem isName_toString (number : Nat) : isName (toString number) = true := by
  refine List.all_eq_true.mpr fun c member => decide_eq_true fun special => ?_
  have digit := isDigit_of_mem_toString member
  have none : [' ', '\t', '\n', '\x0c', '\r', '"', '\'', '<', '>', '/', '='].all
      (!·.isDigit) = true := by decide
  have other := List.all_eq_true.mp none c special
  rw [digit] at other
  contradiction

theorem escape_toString (number : Nat) : escape (toString number) = toString number := by
  have same : ∀ c ∈ (toString number).toList, escapeChar c = [c] := by
    intro c member
    have digit := isDigit_of_mem_toString member
    fun_cases escapeChar c with
    | case5 => rfl
    | _ => contradiction
  apply String.toList_inj.mp
  rw [toList_escape, List.flatMap_def, List.map_congr_left same, ← List.flatMap_def,
    List.flatMap_singleton']

def isElement (name : String) : Bool := isName name && !isVoid name

theorem isElement_headingName (level : Nat) : isElement (headingName level) = true := by
  have named : isName (headingName level) = true := by
    rw [isName, headingName, String.toList_append, List.all_append, Bool.and_eq_true]
    exact ⟨by decide, isName_toString level⟩
  have other {name : String} {letter : Char} (among : letter ∈ name.toList.tail)
      (notDigit : letter.isDigit = false) : headingName level ≠ name := by
    rintro rfl
    have member : letter ∈ (toString level).toList := by
      simpa [headingName] using among
    rw [isDigit_of_mem_toString member] at notDigit
    contradiction
  have hr : headingName level ≠ "hr" := other (by decide : 'r' ∈ _) (by decide)
  have br : headingName level ≠ "br" := other (by decide : 'r' ∈ _) (by decide)
  have img : headingName level ≠ "img" := other (by decide : 'm' ∈ _) (by decide)
  simp [isElement, isVoid, named, hr, br, img]

theorem isElement_listName (style : ListStyle) : isElement (listName style) = true := by
  unfold listName
  split <;> decide

theorem isElement_cellName (view : View) : isElement (cellName view) = true := by
  unfold cellName
  split <;> decide

theorem isElement_emphasisName (level : Nat) : isElement (emphasisName level) = true := by
  unfold emphasisName
  split <;> decide

theorem all_entry {name : String} (named : isName name = true) (value : Option String) :
    [Attribute.mk name value].all (isName ·.name) = true := by
  rw [List.all_cons, named]
  rfl

theorem all_mergedEntries {entries : List Attribute} (named : entries.all (isName ·.name) = true)
    (classes : List String) : (mergedEntries classes entries).all (isName ·.name) = true := by
  induction entries generalizing classes with
  | nil => rfl
  | cons entry rest ih =>
    obtain ⟨first, others⟩ := Bool.and_eq_true_iff.mp named
    rw [mergedEntries]
    split
    · exact Bool.and_eq_true_iff.mpr ⟨first, ih others classes⟩
    · split
      · exact ih others classes
      · exact Bool.and_eq_true_iff.mpr ⟨(by decide : isName "class" = true), ih others []⟩

theorem attributeTexts_eq (classes : List String) (entries : List Attribute) :
    attributeTexts classes entries = (mergedEntries classes entries).map attributeText := by
  fun_induction attributeTexts classes entries with
  | case1 => rfl
  | case2 classes entry rest other ih => rw [mergedEntries, if_pos other, List.map_cons, ih]
  | case3 classes entry rest isClass none ih =>
    rw [mergedEntries, if_neg isClass, if_pos none, ih]
  | case4 classes entry rest isClass some ih =>
    rw [mergedEntries, if_neg isClass, if_neg some, List.map_cons, ih]
    rfl

theorem attributesText_eq (attributes : Attributes) :
    attributesText attributes = String.join ((merged attributes).map attributeText) := by
  rw [attributesText, attributeTexts_eq, merged]

end names

section prints

theorem print_opening {name : String} (element : isElement name = true)
    (attributes : List Attribute) :
    (Tag.opening name attributes).print =
      openTag name (String.join (attributes.map attributeText)) := by
  have content : isVoid name = false := by simpa using (Bool.and_eq_true_iff.mp element).2
  rw [Tag.print, Tag.inside, content, if_neg Bool.false_ne_true, String.append_empty]
  simp only [openTag, String.append_assoc]

theorem prints_openTag {name : String} (element : isElement name = true)
    (attributes : List Attribute) (named : attributes.all (isName ·.name) = true) :
    Prints (openTag name (String.join (attributes.map attributeText))) [.opening name attributes]
      [] := by
  rw [← print_opening element]
  exact .ofTag (Bool.and_eq_true_iff.mpr ⟨(Bool.and_eq_true_iff.mp element).1, named⟩)

theorem prints_closeTag {name : String} (element : isElement name = true) :
    Prints (closeTag name) [.closing name] [] := by
  have print : (Tag.closing name).print = closeTag name := by
    rw [Tag.print, Tag.inside, closeTag, ← String.append_assoc]
    rfl
  rw [← print]
  exact .ofTag (Bool.and_eq_true_iff.mp element).1

theorem print_headingTag (level : Nat) (attributes : Attributes) :
    (headingTag level attributes).print =
      openTag (headingName level) (attributesText attributes) := by
  rw [attributesText_eq]
  exact print_opening (isElement_headingName level) (merged attributes)

theorem prints_heading (level : Nat) {attributes : Attributes}
    (named : attributes.entries.all (isName ·.name) = true) :
    Prints (openTag (headingName level) (attributesText attributes)) [headingTag level attributes]
      [] := by
  rw [attributesText_eq]
  exact prints_openTag (isElement_headingName level) _ (all_mergedEntries named _)

theorem prints_listOpening (style : ListStyle) :
    Prints (listOpening style) [.opening (listName style) (startEntry style)] [] := by
  unfold listOpening listName startEntry
  cases style.start with
  | none => exact (Prints.opening "ul" (by decide)).endLine
  | some start =>
    have ordered : Prints "<ol>\n" [.opening "ol" []] [] :=
      (Prints.opening "ol" (by decide)).endLine
    have numbered : Prints ("<ol start=\"" ++ toString start ++ "\">\n")
        [.opening "ol" [⟨"start", some (toString start)⟩]] [] := by
      have line := (prints_openTag (by decide : isElement "ol" = true) _
        (all_entry (by decide : isName "start" = true) (some (toString start)))).endLine
      simp only [List.map_cons, List.map_nil, attributeText, quotedAttribute, escape_toString] at line
      have text : openTag "ol" (String.join [" " ++ "start" ++ "=\"" ++ toString start ++ "\""])
          ++ "\n" = "<ol start=\"" ++ toString start ++ "\">\n" :=
        String.toList_inj.mp (by simp [openTag])
      rwa [text] at line
    split <;> simp_all

theorem prints_cellOpening (view : View) (alignment : Alignment) :
    Prints (openTag (cellName view) (columnStyle alignment))
      [.opening (cellName view) (styleEntry alignment)] [] := by
  have style : columnStyle alignment = String.join ((styleEntry alignment).map attributeText) := by
    cases alignment <;> decide
  rw [style]
  exact prints_openTag (isElement_cellName view) _ (by cases alignment <;> decide)

theorem titleAttribute_eq (title : Option String) :
    titleAttribute title = String.join ((titleEntry title).map attributeText) := by
  cases title with
  | none => rfl
  | some title => simp [titleAttribute, titleEntry, attributeText]

theorem all_titleEntry (title : Option String) : (titleEntry title).all (isName ·.name) = true := by
  cases title with
  | none => rfl
  | some title => exact all_entry (by decide) _

theorem print_linkTag (address : String) (title : Option String) (attributes : Attributes) :
    (linkTag address title attributes).print =
      "<a href=\"" ++ escapeAddress address ++ "\"" ++ titleAttribute title
        ++ attributesText attributes ++ ">" := by
  rw [linkTag, print_opening (by decide), titleAttribute_eq, attributesText_eq]
  apply String.toList_inj.mp
  simp [openTag, attributeText, quotedAttribute, escapeAddress]

theorem prints_linkTag (address : String) (title : Option String) {attributes : Attributes}
    (named : attributes.entries.all (isName ·.name) = true) :
    Prints ("<a href=\"" ++ escapeAddress address ++ "\"" ++ titleAttribute title
        ++ attributesText attributes ++ ">") [linkTag address title attributes] [] := by
  have others : (titleEntry title ++ merged attributes).all (isName ·.name) = true := by
    rw [List.all_append, all_titleEntry, merged, all_mergedEntries named]
    rfl
  rw [← print_linkTag]
  refine .ofTag ?_
  rw [linkTag, Tag.isReadable, List.all_cons, others]
  exact (by decide : (isName "a" && (isName "href" && true)) = true)

theorem prints_image (target : LinkTarget) (description : String) :
    Prints (image target description) [imageTag target description] [] := by
  have text : image target description = (imageTag target description).print := by
    rw [image, titleAttribute_eq, imageTag, Tag.print, Tag.inside, if_pos (by decide)]
    apply String.toList_inj.mp
    simp [attributeText, quotedAttribute, escapeAddress]
  rw [text]
  refine .ofTag ?_
  rw [imageTag, Tag.isReadable, List.all_cons, List.all_append, all_titleEntry]
  exact (by decide : (isName "img" && (isName "src" && (true && (isName "alt" && true)))) = true)

theorem prints_autoLink (url : String) (email : Bool) {attributes : Attributes}
    (named : attributes.entries.all (isName ·.name) = true) :
    Prints (autoLink url email attributes)
      [linkTag (if email then "mailto:" ++ url else url) none attributes, .closing "a"]
      (withoutNewlines url.toList) := by
  have opening := prints_linkTag (if email then "mailto:" ++ url else url) none named
  rw [titleAttribute, String.append_empty] at opening
  have closed := (opening.append (.ofText url)).append (Prints.closing "a" (by decide))
  rwa [List.append_nil, List.append_nil, List.nil_append] at closed

theorem prints_codeOpening (language : Option String) :
    Prints (match language with
      | some language => "<code class=\"language-" ++ escape language ++ "\">"
      | none => "<code>") [.opening "code" (languageEntry language)] [] := by
  cases language with
  | none => exact Prints.opening "code" (by decide)
  | some language =>
    have opening := prints_openTag (by decide : isElement "code" = true) _
      (all_entry (by decide : isName "class" = true) (some ("language-" ++ language)))
    have text : openTag "code"
        (String.join ([⟨"class", some ("language-" ++ language)⟩].map attributeText)) =
          "<code class=\"language-" ++ escape language ++ "\">" := by
      apply String.toList_inj.mp
      simp [openTag, attributeText, quotedAttribute, escape_append,
        (by decide : escape "language-" = "language-")]
    rw [text] at opening
    exact opening

theorem writes_codeBlock (language : Option String) (lines : List String) :
    Writes (codeBlock language lines) (codeTags language)
      (withoutNewlines (String.join lines).toList) := by
  have pre : Prints "<pre>" [.opening "pre" []] [] := Prints.opening "pre" (by decide)
  have closings : Prints "</code></pre>" [.closing "code", .closing "pre"] [] :=
    (Prints.closing "code" (by decide)).append (Prints.closing "pre" (by decide))
  have block := ((pre.append (prints_codeOpening language)).append
    (.ofText (String.join lines))).append closings
  rw [List.append_nil, List.nil_append, List.append_nil] at block
  have written := Writes.text block (.one .newline)
  rwa [List.append_nil, List.append_nil] at written

theorem writes_runText (run : TextRun) :
    Writes (runText run) (if run.hardBreak then [.opening "br" []] else [])
      (withoutNewlines run.literal.toList) := by
  have text := Prints.ofText run.literal
  unfold runText
  split
  · have broken := Writes.text text (.one (Prints.opening "br" (by decide)).endLine)
    rwa [List.nil_append, List.append_nil] at broken
  · split
    · have broken := Writes.text text (.one .newline)
      rwa [List.nil_append, List.append_nil] at broken
    · exact .one text

end prints

section rules

/-- Nothing in the node is copied as it is, but for names that a reader can tell. -/
def isEscaped (node : Node) : Bool :=
  node.kind ≠ .htmlBlock && node.kind ≠ .rawHtml && node.attributes.entries.all (isName ·.name)

variable {view : View} {step : Step}

def carriesAttributes : Kind → Bool
  | .heading | .link | .autoLink => true
  | _ => false

theorem itemReply_enter (answered : (itemReply view .enter).next = .ok step) :
    ∃ newlines, (itemReply view .enter).strokes = .text "<li>" :: newlines ∧
      Writes newlines [] [] := by
  unfold itemReply at answered ⊢
  split at answered
  · refine ⟨_, rfl, ?_⟩
    split
    · exact .nil
    · exact .one .newline
  · contradiction
  · contradiction

theorem itemReply_leave (answered : (itemReply view .leave).next = .ok step) :
    (itemReply view .leave).strokes = [.text "</li>\n"] := by
  unfold itemReply at answered ⊢
  split at answered
  · contradiction
  · rfl
  · contradiction

theorem writes_enter_of_unnamed (unnamed : carriesAttributes view.node.kind = false)
    (notHtml : view.node.kind ≠ .htmlBlock ∧ view.node.kind ≠ .rawHtml)
    (answered : (enter view).next = .ok step) :
    Writes (enter view).strokes (enterTags view) (withoutNewlines (ownText view.node)) := by
  unfold Node.kind at unnamed notHtml
  unfold enter at answered ⊢
  unfold enterTags ownText
  cases payload : view.node.payload with
  | heading | link | autoLink => simp [payload, Payload.kind, carriesAttributes] at unnamed
  | paragraph =>
    dsimp only [Reply.descend]
    split
    · exact .nil
    · exact .one (Prints.opening "p" (by decide))
  | list style => exact .one (prints_listOpening style)
  | listItem offset =>
    rw [payload] at answered
    obtain ⟨newlines, strokes, written⟩ := itemReply_enter answered
    dsimp only
    rw [strokes]
    exact .text (Prints.opening "li" (by decide)) written
  | codeBlock lines => exact writes_codeBlock none lines
  | fencedCodeBlock info lines contentEnd => exact writes_codeBlock (language? info) lines
  | htmlBlock | rawHtml => simp [payload, Payload.kind] at notHtml
  | tableHead =>
    exact .one ((Prints.opening "thead" (by decide)).endLine.append
      (Prints.opening "tr" (by decide)).endLine)
  | tableRow =>
    have row : Writes [.text "<tr>\n"] [.opening "tr" []] [] :=
      .one (Prints.opening "tr" (by decide)).endLine
    show Writes ((if followsRow view then [] else [.text "<tbody>\n"]) ++ _) _ _
    cases followsRow view with
    | true => exact row
    | false => exact .text (Prints.opening "tbody" (by decide)).endLine row
  | tableCell => exact .one (prints_cellOpening view _)
  | definitionDetails tight =>
    have opening : Prints "<dd>" [.opening "dd" []] [] := Prints.opening "dd" (by decide)
    cases tight with
    | true => exact .one opening
    | false => exact .one opening.endLine
  | text run => exact writes_runText run
  | string value => exact .one (.ofText value)
  | emphasis level => exact .one (prints_openTag (isElement_emphasisName level) [] rfl)
  | codeSpan delimiter =>
    have code := ((Prints.opening "code" (by decide)).append
      (.ofText view.node.plainText)).append (Prints.closing "code" (by decide))
    rw [List.append_nil, List.nil_append, List.append_nil, toList_plainText] at code
    exact .one code
  | image target =>
    dsimp only
    rw [plainText_eq]
    exact .one (prints_image target _)
  | document => exact .nil
  | blockquote => exact .one (Prints.opening "blockquote" (by decide)).endLine
  | thematicBreak => exact .one (Prints.opening "hr" (by decide)).endLine
  | table => exact .one (Prints.opening "table" (by decide)).endLine
  | definitionList => exact .one (Prints.opening "dl" (by decide)).endLine
  | definitionTerm => exact .one (Prints.opening "dt" (by decide))

theorem writes_enter (escaped : isEscaped view.node = true)
    (answered : (enter view).next = .ok step) :
    Writes (enter view).strokes (enterTags view) (withoutNewlines (ownText view.node)) := by
  simp only [isEscaped, Bool.and_eq_true, decide_eq_true_eq] at escaped
  obtain ⟨notHtml, named⟩ := escaped
  by_cases unnamed : carriesAttributes view.node.kind = false
  · exact writes_enter_of_unnamed unnamed notHtml answered
  · unfold Node.kind at unnamed
    unfold enter enterTags ownText
    cases payload : view.node.payload with
    | heading level => exact .one (prints_heading level named)
    | link target => exact .one (prints_linkTag target.destination target.title named)
    | autoLink url email => exact .one (prints_autoLink url email named)
    | _ => simp [payload, Payload.kind, carriesAttributes] at unnamed

theorem writes_leave (answered : (leave view).next = .ok step) :
    Writes (leave view).strokes (leaveTags view) [] := by
  unfold leave at answered ⊢
  unfold leaveTags
  cases payload : view.node.payload with
  | heading level => exact .one (prints_closeTag (isElement_headingName level)).endLine
  | paragraph =>
    dsimp only [Reply.descend]
    cases isBareParagraph view with
    | false => exact .one (Prints.closing "p" (by decide)).endLine
    | true =>
      simp only [Bool.not_true, Bool.false_eq_true, if_false, if_true]
      split
      · exact .one .newline
      · exact .nil
  | list style =>
    have text : listClosing style = closeTag (listName style) ++ "\n" := by
      unfold listClosing listName
      cases style.start <;> rfl
    dsimp only [Reply.descend]
    rw [text]
    exact .one (prints_closeTag (isElement_listName style)).endLine
  | listItem offset =>
    rw [payload] at answered
    dsimp only
    rw [itemReply_leave answered]
    exact .one (Prints.closing "li" (by decide)).endLine
  | table alignments =>
    have closing : Writes [.text "</table>\n"] [.closing "table"] [] :=
      .one (Prints.closing "table" (by decide)).endLine
    dsimp only [Reply.descend]
    split
    · exact .text (Prints.closing "tbody" (by decide)).endLine closing
    · exact closing
  | tableHead =>
    exact .one ((Prints.closing "tr" (by decide)).endLine.append
      (Prints.closing "thead" (by decide)).endLine)
  | tableCell => exact .one (prints_closeTag (isElement_cellName view)).endLine
  | emphasis level => exact .one (prints_closeTag (isElement_emphasisName level))
  | blockquote => exact .one (Prints.closing "blockquote" (by decide)).endLine
  | tableRow => exact .one (Prints.closing "tr" (by decide)).endLine
  | definitionList => exact .one (Prints.closing "dl" (by decide)).endLine
  | definitionTerm => exact .one (Prints.closing "dt" (by decide)).endLine
  | definitionDetails => exact .one (Prints.closing "dd" (by decide)).endLine
  | link => exact .one (Prints.closing "a" (by decide))
  | _ => exact .nil

theorem writes_reply {phase : Phase} (escaped : isEscaped view.node = true)
    (answered : (reply view phase).next = .ok step) :
    Writes (reply view phase).strokes (visitTags (view, phase))
      (withoutNewlines (visitText (view, phase))) := by
  cases phase with
  | enter => exact writes_enter escaped answered
  | leave => exact writes_leave answered

end rules

end CanonicalMarkdown.Html
