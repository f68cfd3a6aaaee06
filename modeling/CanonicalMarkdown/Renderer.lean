import CanonicalMarkdown.DispatchTable
import CanonicalMarkdown.Gap

namespace CanonicalMarkdown

structure Renderer where
  table : DispatchTable
  /-- Newlines and padding are written between sibling blocks. -/
  separators : Bool := false
  verbosePadding : Bool := false

inductive Walked
  | done (page : Page)
  | stopped (page : Page)
  | failed (page : Page) (error : RenderError)

namespace Walked

def page : Walked → Page
  | done page | stopped page | failed page _ => page

def andThen (walked : Walked) (next : Page → Walked) : Walked :=
  match walked with
  | done page => next page
  | other => other

end Walked

namespace Renderer

/-- The answer of the rule for a node; a kind without a rule is passed by. -/
def answer (renderer : Renderer) (view : View) (phase : Phase) (page : Page) :
    Page × Except RenderError Step :=
  match renderer.table view.node.kind with
  | none => (page, .ok .descend)
  | some rule => page.answer (rule view phase page)

def writeGap (renderer : Renderer) (view : View) (page : Page) : Page :=
  match view.place.next? with
  | none => page
  | some next =>
    if renderer.separators && view.node.kind.isBlock then
      let parent? := view.ancestors.head?.map (·.node)
      let grandparent? := view.ancestors[1]?.map (·.node)
      page.writeGap (.between view.node parent? grandparent? next)
    else page

/-- Asks the rule a second time, closes the padding levels it left open, and writes the gap. -/
def depart (renderer : Renderer) (view : View) (mark : Nat) (page : Page) : Walked :=
  match renderer.answer view .leave page with
  | (page, .error error) => .failed page error
  | (page, .ok .stop) => .stopped page
  | (page, .ok _) => .done (renderer.writeGap view (page.truncate mark))

mutual

def walk (renderer : Renderer) (source : Source) (ancestors : List Place)
    (earlier later : List Node) : Node → Page → Walked
  | ⟨payload, span, attributes, children⟩, page =>
    let place : Place := ⟨⟨payload, span, attributes, children⟩, earlier, later⟩
    let view : View := ⟨source, place, ancestors⟩
    match renderer.answer view .enter page with
    | (entered, .error error) => .failed entered error
    | (entered, .ok .stop) => .stopped entered
    | (entered, .ok .skipChildren) => renderer.depart view page.padding.depth entered
    | (entered, .ok .descend) =>
      (renderer.walkAll source (place :: ancestors) [] children entered).andThen
        (renderer.depart view page.padding.depth)

def walkAll (renderer : Renderer) (source : Source) (ancestors : List Place)
    (earlier : List Node) : List Node → Page → Walked
  | [], page => .done page
  | node :: later, page =>
    (renderer.walk source ancestors earlier later node page).andThen
      (renderer.walkAll source ancestors (node :: earlier) later)

end

def run (renderer : Renderer) (document : Document) : Walked :=
  renderer.walk document.source [] [] [] document.root
    { padding := { verbose := renderer.verbosePadding } }

def render (renderer : Renderer) (document : Document) : Except RenderError String :=
  match renderer.run document with
  | .done page | .stopped page => .ok page.text
  | .failed _ error => .error error

end Renderer

end CanonicalMarkdown
