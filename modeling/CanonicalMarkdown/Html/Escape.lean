namespace CanonicalMarkdown.Html

def escapeChar : Char → List Char
  | '&' => ['&', 'a', 'm', 'p', ';']
  | '<' => ['&', 'l', 't', ';']
  | '>' => ['&', 'g', 't', ';']
  | '"' => ['&', 'q', 'u', 'o', 't', ';']
  | c => [c]

def escape (text : String) : String := String.ofList (text.toList.flatMap escapeChar)

/-- Characters that stand for themselves in an address. A percent sign is one of them, so that
    escapes in the address stay as they are. -/
def isAddressChar (c : Char) : Bool :=
  c.isAlphanum || c ∈ ['!', '#', '$', '%', '&', '\'', '(', ')', '*', '+', ',', '-', '.', '/', ':',
    ';', '=', '?', '@', '_', '~']

def hexDigit (value : Nat) : Char :=
  Char.ofNat (if value < 10 then '0'.toNat + value else 'A'.toNat + (value - 10))

def percentByte (byte : UInt8) : List Char :=
  ['%', hexDigit (byte.toNat / 16), hexDigit (byte.toNat % 16)]

def percentChar (c : Char) : List Char :=
  if isAddressChar c then [c] else (String.utf8EncodeChar c).flatMap percentByte

def percentEncode (address : String) : String :=
  String.ofList (address.toList.flatMap percentChar)

def escapeAddress (address : String) : String := escape (percentEncode address)

theorem toList_escape (text : String) :
    (escape text).toList = text.toList.flatMap escapeChar := String.toList_ofList

theorem escape_append (left right : String) :
    escape (left ++ right) = escape left ++ escape right := by
  apply String.toList_inj.mp
  simp [toList_escape]

end CanonicalMarkdown.Html
