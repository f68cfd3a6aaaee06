import CanonicalMarkdown.Node

namespace CanonicalMarkdown

def schemePart (address : List Char) : List Char := (Text.takeBytes 8 address).getD address

def isExternalAddress (address : String) : Bool :=
  let scheme := (schemePart address.toList).map Char.toLower
  "http://".toList.isPrefixOf scheme || "https://".toList.isPrefixOf scheme

def Payload.isExternalLink? : Payload → Option Bool
  | .link target => some (isExternalAddress target.destination)
  | .autoLink url email => some (!email && isExternalAddress url)
  | _ => none

def Attributes.secure (attributes : Attributes) : Attributes :=
  (attributes.set "rel" "noreferrer").set "target" "_blank"

mutual

/-- Marks external links. Links do not nest, so nothing inside a link is looked at. -/
def Node.markExternalLinks : Node → Node
  | ⟨payload, span, attributes, children⟩ =>
    match payload.isExternalLink? with
    | some true => ⟨payload, span, attributes.secure, children⟩
    | some false => ⟨payload, span, attributes, children⟩
    | none => ⟨payload, span, attributes, markAllExternalLinks children⟩

def markAllExternalLinks : List Node → List Node
  | [] => []
  | node :: rest => node.markExternalLinks :: markAllExternalLinks rest

end

def Document.markExternalLinks (document : Document) : Document :=
  { document with root := document.root.markExternalLinks }

end CanonicalMarkdown
