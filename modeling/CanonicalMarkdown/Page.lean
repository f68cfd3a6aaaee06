import CanonicalMarkdown.Padding
import CanonicalMarkdown.Text.Lines

namespace CanonicalMarkdown

inductive Stroke
  | text (text : String)
  | padding
  /-- The padding of a line that stays empty. -/
  | blankPadding
  | push (level : String)
  | pop
deriving DecidableEq, Repr, Inhabited

structure Page where
  /-- The pieces written, newest first, none of them empty. -/
  pieces : List String := []
  padding : Padding := {}
deriving DecidableEq, Repr, Inhabited

namespace Page

def text (page : Page) : String := String.join page.pieces.reverse

def write (page : Page) (text : String) : Page :=
  if text.isEmpty then page else { page with pieces := text :: page.pieces }

def writeAll (page : Page) (texts : List String) : Page := texts.foldl write page

/-- The output ends with a newline. An empty page does not. -/
def onNewLine (page : Page) : Bool := page.pieces.head?.any Text.endsLine

def writePadding (page : Page) : Page :=
  { page.writeAll page.padding.line with padding := page.padding.next }

def writeBlankPadding (page : Page) : Page :=
  { page.writeAll page.padding.blankLine with padding := page.padding.next }

def apply (page : Page) : Stroke → Except RenderError Page
  | .text text => .ok (page.write text)
  | .padding => .ok page.writePadding
  | .blankPadding => .ok page.writeBlankPadding
  | .push level => .ok { page with padding := page.padding.push level }
  | .pop => page.padding.pop.map fun padding => { page with padding }

def applyAll (page : Page) : List Stroke → Page × Option RenderError
  | [] => (page, none)
  | stroke :: rest =>
    match page.apply stroke with
    | .ok next => next.applyAll rest
    | .error error => (page, some error)

def truncate (page : Page) (mark : Nat) : Page :=
  { page with padding := page.padding.truncate mark }

theorem text_write (page : Page) (text : String) :
    (page.write text).text = page.text ++ text := by
  unfold write
  split
  · simp_all
  · simp [Page.text, String.join_append]

end Page

end CanonicalMarkdown
