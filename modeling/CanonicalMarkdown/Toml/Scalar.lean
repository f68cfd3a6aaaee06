import CanonicalMarkdown.Text.Lines
import CanonicalMarkdown.Toml.Value

namespace CanonicalMarkdown.Toml

export Text (isHexDigit hexValue)

def isBlank (c : Char) : Bool := c = ' ' || c = '\t'

def isDelimiter (c : Char) : Bool :=
  isBlank c || c ∈ ['=', ',', '[', ']', '\x7b', '\x7d', '#', '\r', '\n']

def startsWord (text : List Char) : Bool :=
  text.head?.any fun c => !isDelimiter c && c ∉ ['.', '"', '\'']

/-- A scalar and what follows it. Blanks belong to the scalar when another word stands behind
    them, as in a date with a time. -/
def splitScalar : List Char → List Char × List Char
  | [] => ([], [])
  | c :: rest =>
    if !isDelimiter c || (isBlank c && startsWord (rest.dropWhile isBlank)) then
      let (scalar, rest) := splitScalar rest
      (c :: scalar, rest)
    else ([], c :: rest)

def areDigits (isDigit : Char → Bool) : List Char → Bool
  | [] => false
  | [c] => isDigit c
  | c :: '_' :: rest => isDigit c && areDigits isDigit rest
  | c :: rest => isDigit c && areDigits isDigit rest

def dropSign : List Char → List Char
  | '+' :: rest => rest
  | '-' :: rest => rest
  | text => text

def hasLeadingZero : List Char → Bool
  | '0' :: _ :: _ => true
  | _ => false

def isDecimal (text : List Char) : Bool := areDigits Char.isDigit text && !hasLeadingZero text

def isExponentMark (c : Char) : Bool := c = 'e' || c = 'E'

def underscoresSeparate (text : List Char) : Bool :=
  text.head? ≠ some '_' && text.getLast? ≠ some '_' &&
    (text.zip text.tail).all fun (c, next) =>
      (c ≠ '_' || isHexDigit next) && (next ≠ '_' || isHexDigit c)

/-- A number is a grouped integer once an underscore ends its first digits and nothing makes it a
    float. Behind that underscore only the place of other underscores counts. -/
def isGroupedInteger (text : List Char) : Bool :=
  text.head?.any Char.isDigit && !hasLeadingZero text &&
    (text.dropWhile Char.isDigit).head? = some '_' &&
    text.all (fun c => c ≠ ' ' && c ≠ '.' && !isExponentMark c) && underscoresSeparate text

def areRadixDigits (isDigit : Char → Bool) (text : List Char) : Bool :=
  text.isEmpty || areDigits isDigit text

def isInteger (text : List Char) : Bool :=
  match text with
  | '0' :: 'x' :: rest => areRadixDigits isHexDigit rest
  | '0' :: 'o' :: rest => areRadixDigits (fun c => '0' ≤ c && c ≤ '7') rest
  | '0' :: 'b' :: rest => areRadixDigits (fun c => c = '0' || c = '1') rest
  | _ => isDecimal (dropSign text) || isGroupedInteger (dropSign text)

def isFloat (text : List Char) : Bool :=
  let unsigned := dropSign text
  let mantissa := unsigned.takeWhile fun c => !isExponentMark c
  let exponent := unsigned.dropWhile fun c => !isExponentMark c
  let whole := mantissa.takeWhile (· ≠ '.')
  let fraction := mantissa.dropWhile (· ≠ '.')
  unsigned = "inf".toList || unsigned = "nan".toList ||
    (isDecimal whole && (fraction.isEmpty || areDigits Char.isDigit (fraction.drop 1))
      && (exponent.isEmpty || areDigits Char.isDigit (dropSign (exponent.drop 1)))
      && !(fraction.isEmpty && exponent.isEmpty))

def digitsValue (text : List Char) : Nat :=
  text.foldl (fun value c => 10 * value + (c.toNat - '0'.toNat)) 0

def twoDigits (low high : Nat) : List Char → Option (Nat × List Char)
  | a :: b :: rest =>
    let value := digitsValue [a, b]
    if a.isDigit && b.isDigit && low ≤ value && value ≤ high then some (value, rest) else none
  | _ => none

def isLeapYear (year : Nat) : Bool := year % 4 = 0 && (year % 100 ≠ 0 || year % 400 = 0)

def daysIn (year month : Nat) : Nat :=
  if month = 2 then (if isLeapYear year then 29 else 28)
  else if month ∈ [4, 6, 9, 11] then 30 else 31

def readDate (text : List Char) : Option (List Char) := do
  let year := text.take 4
  if year.length = 4 && year.all Char.isDigit then
    let '-' :: rest := text.drop 4 | none
    let (month, rest) ← twoDigits 1 12 rest
    let '-' :: rest := rest | none
    let (_, rest) ← twoDigits 1 (daysIn (digitsValue year) month) rest
    return rest
  else none

def readFraction : List Char → Option (List Char)
  | '.' :: rest =>
    if (rest.takeWhile Char.isDigit).isEmpty then none else some (rest.dropWhile Char.isDigit)
  | text => some text

/-- A time of day, whose seconds may be left out, and what follows it. -/
def readTime (text : List Char) : Option (List Char) := do
  let (_, rest) ← twoDigits 0 23 text
  let ':' :: rest := rest | none
  let (_, rest) ← twoDigits 0 59 rest
  match rest with
  | ':' :: rest =>
    let (_, rest) ← twoDigits 0 60 rest
    readFraction rest
  | _ => return rest

def isZone : List Char → Bool
  | ['Z'] | ['z'] | [] => true
  | sign :: rest =>
    (sign = '+' || sign = '-') &&
      match twoDigits 0 23 rest with
      | some (_, ':' :: rest) => (twoDigits 0 59 rest).any (·.2.isEmpty)
      | _ => false

def isMoment (text : List Char) : Bool :=
  match readDate text with
  | some [] => true
  | some (separator :: rest) =>
    (separator = 'T' || separator = 't' || separator = ' ') && (readTime rest).any isZone
  | none => (readTime text).any List.isEmpty

def readScalar (text : List Char) : Option (Value × List Char) :=
  let (written, rest) := splitScalar text
  if written = "true".toList then some (.boolean true, rest)
  else if written = "false".toList then some (.boolean false, rest)
  else if isInteger written || isFloat written || isMoment written then
    some (.literal (String.ofList written), rest)
  else none

end CanonicalMarkdown.Toml
