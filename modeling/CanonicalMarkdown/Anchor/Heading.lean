import CanonicalMarkdown.Node
import CanonicalMarkdown.Unicode.WhiteSpace

namespace CanonicalMarkdown.Anchor

def isSlugSeparator (c : Char) : Bool := Unicode.isWhiteSpace c || c = '-' || c = '_'

/-- The slug of a text; `pending` tells whether a separator would write a dash. -/
def slugFrom (pending : Bool) : List Char → List Char
  | [] => []
  | c :: rest =>
    if c.isAlphanum then c.toLower :: slugFrom true rest
    else if pending && isSlugSeparator c then '-' :: slugFrom false rest
    else slugFrom pending rest

def dropLastDash (slug : List Char) : List Char :=
  if slug.getLast? = some '-' then slug.dropLast else slug

def slug (text : String) : String :=
  String.ofList (dropLastDash (slugFrom false (Unicode.trim text.toList)))

/-- How often each anchor was asked for; an anchor with a count is taken. -/
structure Ledger where
  counts : List (String × Nat) := []
deriving DecidableEq, Repr, Inhabited

namespace Ledger

def count (ledger : Ledger) (anchor : String) : Nat :=
  (ledger.counts.lookup anchor).getD 0

def raise (anchor : String) : List (String × Nat) → List (String × Nat)
  | [] => [(anchor, 1)]
  | (taken, count) :: rest =>
    if taken = anchor then (taken, count + 1) :: rest else (taken, count) :: raise anchor rest

def take (ledger : Ledger) (anchor : String) : Ledger := ⟨raise anchor ledger.counts⟩

/-- The first free candidate from `candidate` on: after a taken one comes the base with the count
    of that candidate. At most `limit` candidates are tried. -/
def findFree (base : String) : Nat → String → Ledger → String × Ledger
  | 0, candidate, ledger => (candidate, ledger)
  | limit + 1, candidate, ledger =>
    let taken := ledger.count candidate
    if taken = 0 then (candidate, ledger.take candidate)
    else findFree base limit (base ++ "-" ++ toString taken) (ledger.take candidate)

/-- Whenever a search meets a taken anchor, that anchor sends it to a candidate it has not sent it
    to before. So the search meets each at most once more than there are taken anchors. -/
def searchLimit (ledger : Ledger) : Nat :=
  (ledger.counts.length + 1) * (ledger.counts.length + 1) + 1

def baseAnchor (text : String) : String :=
  let base := slug text
  if base.isEmpty then "section" else base

def fresh (ledger : Ledger) (text : String) : String × Ledger :=
  findFree (baseAnchor text) ledger.searchLimit (baseAnchor text) ledger

end Ledger

mutual

def takeIds (ledger : Ledger) : Node → Ledger
  | ⟨.heading _, _, attributes, children⟩ =>
    takeAllIds ((attributes.get? "id").elim ledger ledger.take) children
  | ⟨_, _, _, children⟩ => takeAllIds ledger children

def takeAllIds (ledger : Ledger) : List Node → Ledger
  | [] => ledger
  | node :: rest => takeAllIds (takeIds ledger node) rest

end

def headingId (ledger : Ledger) (attributes : Attributes) (text : String) :
    Attributes × Ledger :=
  if attributes.contains "id" then (attributes, ledger)
  else
    let (anchor, ledger) := ledger.fresh text
    (attributes.set "id" anchor, ledger)

mutual

def assignIds (ledger : Ledger) : Node → Node × Ledger
  | ⟨.heading level, span, attributes, children⟩ =>
    let (attributes, ledger) := headingId ledger attributes (plainTexts children)
    let (children, ledger) := assignAllIds ledger children
    (⟨.heading level, span, attributes, children⟩, ledger)
  | ⟨payload, span, attributes, children⟩ =>
    let (children, ledger) := assignAllIds ledger children
    (⟨payload, span, attributes, children⟩, ledger)

def assignAllIds (ledger : Ledger) : List Node → List Node × Ledger
  | [] => ([], ledger)
  | node :: rest =>
    let (node, ledger) := assignIds ledger node
    let (rest, ledger) := assignAllIds ledger rest
    (node :: rest, ledger)

end

end CanonicalMarkdown.Anchor

namespace CanonicalMarkdown

/-- Gives every heading an id. The ids that stand in the document are taken first. -/
def Document.anchorHeadings (document : Document) : Document :=
  let ledger := Anchor.takeIds {} document.root
  { document with root := (Anchor.assignIds ledger document.root).1 }

end CanonicalMarkdown
