import CanonicalMarkdown.Proofs.Html.VisitTags
import CanonicalMarkdown.Proofs.WalkOrder

namespace CanonicalMarkdown.Html

def Tag.nest (opened : List String) : Tag → Option (List String)
  | opening name _ => some (if isVoid name then opened else name :: opened)
  | closing name =>
    match opened with
    | [] => none
    | top :: outer => if top = name then some outer else none

def nest (opened : List String) (tags : List Tag) : Option (List String) :=
  tags.foldlM Tag.nest opened

def isRow (node : Node) : Bool := node.kind = .tableRow

/-- If there is a row before a row, then there is one right before it. -/
def rowsStandTogether (earlier : List Node) : List Node → Bool
  | [] => true
  | node :: later =>
    (!isRow node || !earlier.any isRow || earlier.head?.any isRow)
      && rowsStandTogether (node :: earlier) later

mutual

/-- No HTML of its own, only names that a reader can tell, and rows in tables alone, in one run. -/
def fits : Node → Bool
  | ⟨payload, span, attributes, children⟩ =>
    isEscaped ⟨payload, span, attributes, children⟩
      && (payload.kind = .table || !children.any isRow) && rowsStandTogether [] children
      && allFit children

def allFit : List Node → Bool
  | [] => true
  | node :: rest => fits node && allFit rest

end

def openNames (view : View) : List String :=
  match view.node.payload with
  | .heading level => [headingName level]
  | .paragraph => if isBareParagraph view then [] else ["p"]
  | .blockquote => ["blockquote"]
  | .list style => [listName style]
  | .listItem _ => ["li"]
  | .table _ => ["table"]
  | .tableHead => ["tr", "thead"]
  | .tableRow => ["tr"]
  | .tableCell => [cellName view]
  | .definitionList => ["dl"]
  | .definitionTerm => ["dt"]
  | .definitionDetails _ => ["dd"]
  | .emphasis level => [emphasisName level]
  | .link _ => ["a"]
  | _ => []

/-- The body of a table stays open behind its first row. -/
def withBody (opened : List String) (siblings : List Node) : List String :=
  if siblings.any isRow then "tbody" :: opened else opened

section nest

variable {opened : List String}

theorem nest_append (opened : List String) (first second : List Tag) :
    nest opened (first ++ second) = (nest opened first).bind (nest · second) :=
  List.foldlM_append ..

theorem nest_opening {name : String} (element : isElement name = true)
    (attributes : List Attribute) :
    nest opened [.opening name attributes] = some (name :: opened) := by
  have content : isVoid name = false := by simpa using (Bool.and_eq_true_iff.mp element).2
  simp [nest, Tag.nest, content]

theorem nest_closing (name : String) : nest (name :: opened) [.closing name] = some opened := by
  simp [nest, Tag.nest]

def bodyAround (view : View) (opened : List String) : List String :=
  if isRow view.node && !followsRow view then "tbody" :: opened else opened

variable {view : View}

theorem nest_enter (shown : hides view.node.kind = false) :
    nest opened (enterTags view) = some (openNames view ++ bodyAround view opened) := by
  unfold Node.kind at shown
  unfold enterTags openNames bodyAround isRow Node.kind
  cases payload : view.node.payload with
  | heading level => exact nest_opening (isElement_headingName level) _
  | paragraph =>
    cases isBareParagraph view with
    | true => rfl
    | false => rfl
  | list style => exact nest_opening (isElement_listName style) _
  | tableCell => exact nest_opening (isElement_cellName view) _
  | tableRow => cases followsRow view <;> rfl
  | emphasis level => exact nest_opening (isElement_emphasisName level) _
  | text run =>
    dsimp only
    split <;> rfl
  | codeBlock | fencedCodeBlock | htmlBlock | thematicBreak | codeSpan | image | autoLink
  | rawHtml => simp [payload, Payload.kind, hides] at shown
  | _ => rfl

theorem nest_enter_hidden (hidden : hides view.node.kind = true) :
    nest opened (enterTags view) = some opened := by
  unfold Node.kind at hidden
  unfold enterTags
  cases payload : view.node.payload with
  | codeBlock | fencedCodeBlock | htmlBlock | thematicBreak | codeSpan | image | autoLink
  | rawHtml => rfl
  | _ => simp [payload, Payload.kind, hides] at hidden

theorem leaveTags_hidden (hidden : hides view.node.kind = true) : leaveTags view = [] := by
  unfold Node.kind at hidden
  unfold leaveTags
  cases payload : view.node.payload with
  | codeBlock | fencedCodeBlock | htmlBlock | thematicBreak | codeSpan | image | autoLink
  | rawHtml => rfl
  | _ => simp [payload, Payload.kind, hides] at hidden

theorem nest_leave_of_ne_table (shown : hides view.node.kind = false)
    (other : view.node.kind ≠ .table) :
    nest (openNames view ++ opened) (leaveTags view) = some opened := by
  have closes (name : String) : nest ([name] ++ opened) [.closing name] = some opened :=
    nest_closing name
  unfold Node.kind at shown other
  unfold openNames leaveTags
  cases payload : view.node.payload with
  | paragraph =>
    cases isBareParagraph view with
    | true => rfl
    | false => exact closes "p"
  | tableHead =>
    show nest (["tr"] ++ (["thead"] ++ opened)) ([.closing "tr"] ++ [.closing "thead"]) = _
    rw [nest_append, List.singleton_append, nest_closing]
    exact closes "thead"
  | table => simp [payload, Payload.kind] at other
  | codeBlock | fencedCodeBlock | htmlBlock | thematicBreak | codeSpan | image | autoLink
  | rawHtml => simp [payload, Payload.kind, hides] at shown
  | document | text | string => rfl
  | _ => exact closes _

theorem nest_leave (shown : hides view.node.kind = false)
    (rows : (view.node.kind = .table || !view.node.children.any isRow) = true) :
    nest (withBody (openNames view ++ opened) view.node.children) (leaveTags view) =
      some opened := by
  by_cases table : view.node.kind = .table
  · obtain ⟨alignments, payload⟩ : ∃ alignments, view.node.payload = .table alignments := by
      cases payload : view.node.payload <;> simp [Node.kind, payload, Payload.kind] at table
      exact ⟨_, rfl⟩
    have tags : leaveTags view =
        (if view.node.children.any isRow then [.closing "tbody"] else []) ++ [.closing "table"] := by
      simp only [leaveTags, payload]
      rfl
    have names : openNames view = ["table"] := by simp only [openNames, payload]
    rw [tags, names, withBody]
    cases view.node.children.any isRow with
    | true =>
      rw [if_pos rfl, if_pos rfl, nest_append, nest_closing]
      exact nest_closing "table"
    | false => exact nest_closing "table"
  · have none : view.node.children.any isRow = false := by simpa [table] using rows
    rw [withBody, none, if_neg Bool.false_ne_true]
    exact nest_leave_of_ne_table shown table

end nest

section visits

variable {opened : List String} {source : Source}

theorem withBody_reverse (opened : List String) (siblings : List Node) :
    withBody opened siblings.reverse = withBody opened siblings := by
  rw [withBody, withBody, List.any_reverse]

theorem bodyAround_withBody (source : Source) (ancestors : List Place) {earlier : List Node}
    (later : List Node) {node : Node} (opened : List String)
    (together : (!isRow node || !earlier.any isRow || earlier.head?.any isRow) = true) :
    bodyAround ⟨source, ⟨node, earlier, later⟩, ancestors⟩ (withBody opened earlier) =
      withBody opened (node :: earlier) := by
  have first : followsRow ⟨source, ⟨node, earlier, later⟩, ancestors⟩ = earlier.head?.any isRow := rfl
  have before : earlier.head?.any isRow = true → earlier.any isRow = true := by
    cases earlier <;> simp_all
  unfold bodyAround withBody
  rw [first]
  show (if isRow node && _ then _ else _) = _
  rw [List.any_cons]
  generalize isRow node = row at together ⊢
  generalize earlier.any isRow = some at together before ⊢
  generalize earlier.head?.any isRow = last at together before ⊢
  cases row <;> cases some <;> cases last <;> first | rfl | simp at together before

mutual

theorem nest_visits (ancestors : List Place) (earlier later : List Node) (opened : List String) :
    ∀ node : Node, fits node = true →
    (!isRow node || !earlier.any isRow || earlier.head?.any isRow) = true →
    nest (withBody opened earlier)
      ((node.visits hides source ancestors earlier later).flatMap visitTags) =
        some (withBody opened (node :: earlier))
  | ⟨payload, span, attributes, children⟩, fitting, together => by
    rw [fits, Bool.and_eq_true, Bool.and_eq_true, Bool.and_eq_true] at fitting
    obtain ⟨⟨⟨-, rows⟩, run⟩, below⟩ := fitting
    let view : View :=
      ⟨source, ⟨⟨payload, span, attributes, children⟩, earlier, later⟩, ancestors⟩
    rw [Node.visits, List.flatMap_cons, List.flatMap_append, nest_append, List.flatMap_singleton]
    by_cases hidden : hides payload.kind = true
    · have notRow : isRow view.node = false := by
        cases payload <;> first | rfl | contradiction
      have entered : nest (withBody opened earlier) (enterTags view) = some (withBody opened earlier) :=
        nest_enter_hidden hidden
      have left : leaveTags view = [] := leaveTags_hidden hidden
      have same : withBody opened (view.node :: earlier) = withBody opened earlier := by
        rw [withBody, List.any_cons, notRow]
        rfl
      rw [if_pos hidden]
      show (nest _ (enterTags view)).bind (nest · ([] ++ leaveTags view)) = _
      rw [entered, left]
      exact congrArg some same.symm
    · have shown : hides view.node.kind = false := Bool.eq_false_iff.mpr hidden
      have entered : nest (withBody opened earlier) (enterTags view) =
          some (openNames view ++ withBody opened (view.node :: earlier)) := by
        rw [nest_enter shown, bodyAround_withBody source ancestors later opened together]
        rfl
      have inside := nest_visitsAll (view.place :: ancestors) []
        (openNames view ++ withBody opened (view.node :: earlier)) children below run
      rw [List.append_nil, withBody_reverse] at inside
      rw [if_neg hidden]
      show (nest _ (enterTags view)).bind (nest · (_ ++ leaveTags view)) = _
      rw [entered, Option.bind_some, nest_append]
      show (nest (withBody _ []) _).bind _ = _
      rw [inside]
      exact nest_leave shown rows

theorem nest_visitsAll (ancestors : List Place) (earlier : List Node) (opened : List String) :
    ∀ nodes : List Node, allFit nodes = true → rowsStandTogether earlier nodes = true →
    nest (withBody opened earlier)
      ((visitsAll hides source ancestors earlier nodes).flatMap visitTags) =
        some (withBody opened (nodes.reverse ++ earlier))
  | [], _, _ => rfl
  | node :: later, fitting, together => by
    obtain ⟨first, rest⟩ := Bool.and_eq_true_iff.mp fitting
    obtain ⟨here, behind⟩ := Bool.and_eq_true_iff.mp together
    rw [visitsAll, List.flatMap_append, nest_append,
      nest_visits ancestors earlier later opened node first here, Option.bind_some,
      nest_visitsAll ancestors (node :: earlier) opened later rest behind]
    simp

end

end visits

end CanonicalMarkdown.Html
