import CanonicalMarkdown.Node
import CanonicalMarkdown.Unicode.GraphemeExtend
import CanonicalMarkdown.Unicode.Unprintable

namespace CanonicalMarkdown

namespace Text

def codePointEscape (c : Char) : List Char :=
  ['\\', 'u', '\x7b'] ++ Nat.toDigits 16 c.toNat ++ ['\x7d']

def quotedChar (c : Char) : List Char :=
  if c = '\x00' then ['\\', '0']
  else if c = '\t' then ['\\', 't']
  else if c = '\r' then ['\\', 'r']
  else if c = '\n' then ['\\', 'n']
  else if c = '"' || c = '\\' then ['\\', c]
  else if Unicode.extendsGrapheme c || !Unicode.isPrintable c then codePointEscape c
  else [c]

def quoted (text : String) : String :=
  String.ofList ('"' :: (text.toList.flatMap quotedChar ++ ['"']))

def bracketed (items : List String) : String := "[" ++ ", ".intercalate items ++ "]"

def quotedOption : Option String → String
  | none => "None"
  | some text => "Some(" ++ quoted text ++ ")"

end Text

def Alignment.name : Alignment → String
  | .none => "None"
  | .left => "Left"
  | .center => "Center"
  | .right => "Right"

def Payload.fields (source : Source) : Payload → List (String × String)
  | .heading level => [("Level", toString level)]
  | .list style =>
    [("Ordered", toString style.start.isSome), ("Start", toString (style.start.getD 0)),
      ("Marker", String.singleton style.marker), ("Tight", toString style.tight),
      ("BlankBefore", toString style.blankBefore)]
  | .listItem offset => [("Offset", toString offset)]
  | .definitionDetails tight => [("Tight", toString tight)]
  | .codeBlock lines => [("Lines", Text.bracketed (lines.map Text.quoted))]
  | .rawHtml segments => [("Lines", Text.bracketed (segments.map Text.quoted))]
  | .fencedCodeBlock info lines _ =>
    [("Info", Text.quoted info), ("Lines", Text.bracketed (lines.map Text.quoted))]
  | .htmlBlock lines closure =>
    [("Lines", Text.bracketed (lines.map Text.quoted)), ("Closure", Text.quotedOption closure)]
  | .table alignments => [("Alignments", Text.bracketed (alignments.map Alignment.name))]
  | .text run =>
    [("Text", Text.quoted (source.slice run.segment)), ("Raw", toString run.raw),
      ("SoftLineBreak", toString run.softBreak), ("HardLineBreak", toString run.hardBreak)]
  | .string value => [("Value", Text.quoted value)]
  | .emphasis level => [("Level", toString level)]
  | .codeSpan delimiter => [("Delimiter", toString delimiter)]
  | .link target =>
    [("Destination", Text.quoted target.destination), ("Title", Text.quotedOption target.title)]
  | .image target =>
    [("Destination", Text.quoted target.destination), ("Title", Text.quotedOption target.title)]
  | .autoLink url email => [("URL", Text.quoted url), ("Email", toString email)]
  | .document | .paragraph | .blockquote | .thematicBreak | .tableHead | .tableRow | .tableCell
  | .definitionList | .definitionTerm => []

def Attribute.field (entry : Attribute) : String × String :=
  ("Attribute", entry.name ++ "=" ++ entry.value.getD "")

def dumpIndent (level : Nat) : String := String.ofList (List.replicate (4 * level) ' ')

def dumpField (level : Nat) (field : String × String) : String :=
  dumpIndent level ++ field.1 ++ ": " ++ field.2 ++ "\n"

mutual

def Node.dump (source : Source) (level : Nat) : Node → String
  | ⟨payload, _, attributes, children⟩ =>
    dumpIndent level ++ payload.kind.name ++ " \x7b\n"
      ++ String.join ((payload.fields source ++ attributes.entries.map Attribute.field).map
        (dumpField (level + 1)))
      ++ dumpAll source (level + 1) children
      ++ dumpIndent level ++ "\x7d\n"

def dumpAll (source : Source) (level : Nat) : List Node → String
  | [] => ""
  | node :: rest => node.dump source level ++ dumpAll source level rest

end

def Document.dump (document : Document) : String := document.root.dump document.source 0

end CanonicalMarkdown
