import CanonicalMarkdown.Proofs.WalkOrder

namespace CanonicalMarkdown

def Payload.form : Payload → Payload
  | codeBlock _ => codeBlock []
  | fencedCodeBlock _ _ contentEnd => fencedCodeBlock "" [] contentEnd
  | text run => text { run with literal := "" }
  | string _ => string ""
  | link _ => link ⟨"", none⟩
  | image _ => image ⟨"", none⟩
  | autoLink _ email => autoLink "" email
  | other => other

namespace Payload

@[simp] theorem kind_form (payload : Payload) : payload.form.kind = payload.kind := by
  cases payload <;> rfl

@[simp] theorem form_form (payload : Payload) : payload.form.form = payload.form := by
  cases payload <;> rfl

end Payload

structure Rewording where
  payload : Payload → Payload
  attributes : Attributes → Attributes
  form_payload : ∀ given, (payload given).form = given.form

namespace Rewording

mutual

def node (change : Rewording) : Node → Node
  | ⟨payload, span, attributes, children⟩ =>
    ⟨change.payload payload, span, change.attributes attributes, change.nodes children⟩

def nodes (change : Rewording) : List Node → List Node
  | [] => []
  | node :: rest => change.node node :: change.nodes rest

end

variable (change : Rewording)

def place (place : Place) : Place :=
  ⟨change.node place.node, change.nodes place.earlier, change.nodes place.later⟩

def view (view : View) : View :=
  ⟨view.source, change.place view.place, view.ancestors.map change.place⟩

def visit (visit : View × Phase) : View × Phase := (change.view visit.1, visit.2)

def document (document : Document) : Document := ⟨document.source, change.node document.root⟩

theorem nodes_eq_map (nodes : List Node) : change.nodes nodes = nodes.map change.node := by
  induction nodes with
  | nil => rfl
  | cons node rest ih => rw [Rewording.nodes, ih, List.map_cons]

@[simp] theorem payload_node (node : Node) :
    (change.node node).payload = change.payload node.payload := by
  cases node
  rfl

@[simp] theorem attributes_node (node : Node) :
    (change.node node).attributes = change.attributes node.attributes := by
  cases node
  rfl

@[simp] theorem kind_payload (payload : Payload) : (change.payload payload).kind = payload.kind := by
  rw [← Payload.kind_form, change.form_payload, Payload.kind_form]

@[simp] theorem kind_node (node : Node) : (change.node node).kind = node.kind := by
  rw [Node.kind, payload_node, kind_payload]
  rfl

@[simp] theorem children_node (node : Node) :
    (change.node node).children = node.children.map change.node := by
  cases node
  exact change.nodes_eq_map _

mutual

theorem visits_node (hides : Kind → Bool) (source : Source) (ancestors : List Place)
    (earlier later : List Node) : ∀ node : Node,
    (change.node node).visits hides source (ancestors.map change.place) (change.nodes earlier)
        (change.nodes later) =
      (node.visits hides source ancestors earlier later).map change.visit
  | ⟨payload, span, attributes, children⟩ => by
    rw [node, Node.visits, Node.visits, List.map_cons, List.map_append, change.kind_payload]
    have below := visits_nodes hides source
      (⟨⟨payload, span, attributes, children⟩, earlier, later⟩ :: ancestors) [] children
    split
    · rfl
    · rw [← below]
      rfl

theorem visits_nodes (hides : Kind → Bool) (source : Source) (ancestors : List Place)
    (earlier : List Node) : ∀ nodes : List Node,
    visitsAll hides source (ancestors.map change.place) (change.nodes earlier)
        (change.nodes nodes) =
      (visitsAll hides source ancestors earlier nodes).map change.visit
  | [] => rfl
  | node :: later => by
    have first := visits_node hides source ancestors earlier later node
    have others := visits_nodes hides source ancestors (node :: earlier) later
    rw [nodes, visitsAll, visitsAll, List.map_append, ← first, ← others]
    rfl

end

theorem visits_document (hides : Kind → Bool) (document : Document) :
    (change.document document).visits hides = (document.visits hides).map change.visit :=
  change.visits_node hides document.source [] [] [] document.root

@[simp] theorem node_view (view : View) : (change.view view).node = change.node view.node := rfl

theorem prev?_view (view : View) :
    (change.view view).place.prev? = view.place.prev?.map change.node := by
  show (change.nodes view.place.earlier).head? = _
  rw [nodes_eq_map]
  exact List.head?_map ..

theorem parent?_view (view : View) : (change.view view).parent? = view.parent?.map change.place :=
  List.head?_map ..

theorem parentPayload?_view (view : View) :
    (change.view view).parentPayload? = view.parentPayload?.map change.payload := by
  rw [View.parentPayload?, parent?_view, View.parentPayload?, Option.map_map, Option.map_map]
  exact congrArg (view.parent?.map ·) (funext fun above => change.payload_node above.node)

theorem ancestor?_view (view : View) (kind : Kind) :
    (change.view view).ancestor? kind = (view.ancestor? kind).map change.place := by
  show (view.ancestors.map change.place).find? _ = _
  rw [List.find?_map]
  have same : (fun place : Place => decide (place.node.kind = kind)) ∘ change.place =
      fun place => decide (place.node.kind = kind) := funext fun place => by
    show decide ((change.node place.node).kind = kind) = _
    rw [kind_node]
  rw [same]
  rfl

@[simp] theorem isIn_view (view : View) (kind : Kind) :
    (change.view view).isIn kind = view.isIn kind := by
  rw [View.isIn, parent?_view, Option.any_map]
  exact congrArg (view.parent?.any ·) (funext fun above => by simp [Rewording.place])

theorem isStrayItem_view (view : View) : (change.view view).isStrayItem = view.isStrayItem := by
  simp [View.isStrayItem]

theorem isTightList_node (node : Node) : (change.node node).isTightList = node.isTightList := by
  have read (node : Node) :
      node.isTightList = (Node.leaf node.payload.form ⟨0, 0⟩).isTightList := by
    unfold Node.isTightList
    cases node.payload <;> rfl
  rw [read (change.node node), read node, payload_node, change.form_payload]

end Rewording

def Rewording.bare : Rewording where
  payload := Payload.form
  attributes _ := {}
  form_payload := Payload.form_form

def Document.form (document : Document) : Document := Rewording.bare.document document

theorem Document.visits_of_form_eq {document other : Document} (same : other.form = document.form)
    (hides : Kind → Bool) : (other.visits hides).map Rewording.bare.visit =
      (document.visits hides).map Rewording.bare.visit := by
  rw [← Rewording.visits_document, ← Rewording.visits_document]
  exact congrArg (Document.visits hides) same

theorem Document.forall_visits_of_form_eq {document other : Document}
    (same : other.form = document.form) {hides : Kind → Bool} {holds : View × Phase → Prop}
    (told : ∀ visit, holds (Rewording.bare.visit visit) ↔ holds visit)
    (all : ∀ visit ∈ document.visits hides, holds visit) :
    ∀ visit ∈ other.visits hides, holds visit := by
  intro visit member
  have bare := @List.mem_map_of_mem _ _ _ _ Rewording.bare.visit member
  rw [Document.visits_of_form_eq same] at bare
  obtain ⟨original, among, image⟩ := List.mem_map.mp bare
  rw [← told, ← image, told]
  exact all original among

mutual

theorem Rewording.bare_node (change : Rewording) : ∀ node : Node,
    bare.node (change.node node) = bare.node node
  | ⟨payload, span, attributes, children⟩ => by
    have form : bare.payload (change.payload payload) = bare.payload payload :=
      change.form_payload payload
    rw [node, node, node, form, change.bare_nodes children]
    rfl

theorem Rewording.bare_nodes (change : Rewording) : ∀ list : List Node,
    bare.nodes (change.nodes list) = bare.nodes list
  | [] => rfl
  | first :: rest => by
    rw [nodes, nodes, nodes, change.bare_node first, change.bare_nodes rest]

end

theorem Rewording.form_document (change : Rewording) (document : Document) :
    (change.document document).form = document.form :=
  congrArg (Document.mk document.source ·) (change.bare_node document.root)

def Payload.mapTexts (f : String → String) : Payload → Payload
  | codeBlock lines => codeBlock (lines.map f)
  | fencedCodeBlock info lines contentEnd => fencedCodeBlock (f info) (lines.map f) contentEnd
  | text run => text { run with literal := f run.literal }
  | string value => string (f value)
  | link target => link ⟨f target.destination, target.title.map f⟩
  | image target => image ⟨f target.destination, target.title.map f⟩
  | autoLink url email => autoLink (f url) email
  | other => other

def Attribute.mapTexts (f : String → String) (entry : Attribute) : Attribute :=
  ⟨f entry.name, entry.value.map f⟩

def Attributes.mapTexts (f : String → String) (attributes : Attributes) : Attributes :=
  ⟨attributes.entries.map (Attribute.mapTexts f)⟩

def Rewording.ofTexts (f : String → String) : Rewording where
  payload := Payload.mapTexts f
  attributes := Attributes.mapTexts f
  form_payload given := by cases given <;> rfl

end CanonicalMarkdown
