import CanonicalMarkdown.Source
import CanonicalMarkdown.Unicode.Alphanumeric
import CanonicalMarkdown.Unicode.WhiteSpace

namespace CanonicalMarkdown.BareUrl

def isDelimiter (c : Char) : Bool := Unicode.isWhiteSpace c || c = '<' || c = '>'

def hasAddressAfter (scheme text : List Char) : Bool :=
  scheme.isPrefixOf text && (text.drop scheme.length).head?.any fun c => !isDelimiter c

def startsHere (text : List Char) : Bool :=
  hasAddressAfter "http://".toList text || hasAddressAfter "https://".toList text

/-- Text from a scheme up to the next delimiter. -/
structure Candidate where
  before? : Option Char
  offset : Nat
  text : List Char
deriving DecidableEq, Repr, Inhabited

def candidates (offset : Nat) (before? : Option Char) (inside : Bool) :
    List Char → List Candidate
  | [] => []
  | c :: rest =>
    if isDelimiter c then candidates (offset + c.utf8Size) (some c) false rest
    else if inside then candidates (offset + c.utf8Size) (some c) true rest
    else if startsHere (c :: rest) then
      ⟨before?, offset, (c :: rest).takeWhile fun c => !isDelimiter c⟩
        :: candidates (offset + c.utf8Size) (some c) true rest
    else candidates (offset + c.utf8Size) (some c) false rest

/-- An address does not start inside a word, a path or a tag. -/
def mayPrecede (c : Char) : Bool := !Unicode.isAlphanumeric c && c ≠ '/' && c ≠ '<'

def isTrailing (c : Char) : Bool :=
  c ∈ ['?', '!', '.', ',', ':', ';', '*', '_', '~', '\'', '"']

/-- Trims the end of an address given backwards: punctuation, and a closing parenthesis while
    there are fewer opening ones. -/
def trimBackwards : List Char → List Char
  | [] => []
  | last :: front =>
    if isTrailing last || (last = ')' && (last :: front).count '(' < (last :: front).count ')') then
      trimBackwards front
    else last :: front

def withoutTrailing (url : List Char) : List Char := (trimBackwards url.reverse).reverse

def schemeLength (url : List Char) : Nat := if "https".toList.isPrefixOf url then 8 else 7

def url? (candidate : Candidate) : Option Span :=
  let url := withoutTrailing candidate.text
  if candidate.before?.all mayPrecede && schemeLength url < Text.byteLength url then
    some ⟨candidate.offset, candidate.offset + Text.byteLength url⟩
  else none

def find (source : Source) (span : Span) : List Span :=
  match source.slice? span with
  | none => []
  | some text => (candidates span.start none false text).filterMap url?

end CanonicalMarkdown.BareUrl
