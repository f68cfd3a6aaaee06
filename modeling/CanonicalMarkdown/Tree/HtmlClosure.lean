import CanonicalMarkdown.Unicode.WhiteSpace
import CanonicalMarkdown.Text.Lines

namespace CanonicalMarkdown

/-- Elements whose content is no markup; the closing tag of any of them ends the block. -/
def rawElements : List String := ["script", "pre", "style", "textarea"]

def tagNameEnds (rest : List Char) : Bool :=
  rest.head?.all fun c => c = ' ' || c = '\t' || c = '>' || c = '\n'

def opensRawElement (first : List Char) : Bool :=
  match first with
  | '<' :: rest =>
    rawElements.any fun name =>
      name.toList.isPrefixOf rest && tagNameEnds (rest.drop name.toList.length)
  | _ => false

def closesRawElement (line : List Char) : Bool :=
  rawElements.any fun name => Text.occursIn ("</" ++ name ++ ">").toList line

def opensDeclaration : List Char → Bool
  | '<' :: '!' :: c :: _ => c.isAlpha
  | _ => false

/-- Whether a line closes the block that starts with `first`, both in lower case. -/
def closesBlock (first line : List Char) : Bool :=
  if opensRawElement first then closesRawElement line
  else if "<!--".toList.isPrefixOf first then Text.occursIn "-->".toList line
  else if "<?".toList.isPrefixOf first then Text.occursIn "?>".toList line
  else if "<![cdata[".toList.isPrefixOf first then Text.occursIn "]]>".toList line
  else opensDeclaration first && '>' ∈ line

/-- Parts the closing line from a block of two lines or more. -/
def detachClosure (lines : List String) : List String × Option String :=
  match lines.head?, lines.getLast? with
  | some first, some last =>
    let opening := Text.lowerAscii (Unicode.trimStart first.toList)
    if 2 ≤ lines.length && closesBlock opening (Text.lowerAscii last.toList) then
      (lines.dropLast, some last)
    else (lines, none)
  | _, _ => (lines, none)

end CanonicalMarkdown
