import CanonicalMarkdown.Node
import CanonicalMarkdown.Page

namespace CanonicalMarkdown

structure Place where
  node : Node
  /-- The siblings before the node, nearest first. -/
  earlier : List Node := []
  later : List Node := []
deriving Inhabited

namespace Place

def index (place : Place) : Nat := place.earlier.length

def prev? (place : Place) : Option Node := place.earlier.head?

def next? (place : Place) : Option Node := place.later.head?

end Place

structure View where
  source : Source
  place : Place
  ancestors : List Place := []
deriving Inhabited

namespace View

def node (view : View) : Node := view.place.node

def parent? (view : View) : Option Place := view.ancestors.head?

def ancestor? (view : View) (kind : Kind) : Option Place :=
  view.ancestors.find? (·.node.kind = kind)

def parentPayload? (view : View) : Option Payload :=
  view.parent?.map fun place => place.node.payload

def within (view : View) (kind : Kind) : Bool := (view.ancestor? kind).isSome

end View

/-- A rule is asked before the children of a node and after them. -/
inductive Phase
  | enter | leave
deriving DecidableEq, Repr, Inhabited

inductive Step
  | descend
  | skipChildren
  | stop
deriving DecidableEq, Repr, Inhabited

/-- A rule's answer: what to put on the page, and then how the walk goes on. -/
structure Reply where
  strokes : List Stroke
  next : Except RenderError Step

namespace Reply

def descend (strokes : List Stroke) : Reply := ⟨strokes, .ok .descend⟩

def skip (strokes : List Stroke) : Reply := ⟨strokes, .ok .skipChildren⟩

def stop (strokes : List Stroke) : Reply := ⟨strokes, .ok .stop⟩

def fail (error : RenderError) : Reply := ⟨[], .error error⟩

end Reply

def Rule := View → Phase → Page → Reply

def Rule.ofReplies (reply : View → Phase → Reply) : Rule := fun view phase _ => reply view phase

def Page.answer (page : Page) (reply : Reply) : Page × Except RenderError Step :=
  match page.applyAll reply.strokes with
  | (page, none) => (page, reply.next)
  | (page, some error) => (page, .error error)

end CanonicalMarkdown
