namespace CanonicalMarkdown

inductive Mode
  | markdown | html
deriving DecidableEq, Repr, Inhabited

structure ReaderOptions where
  headingAttributes : Bool := true
  tables : Bool := true
  definitionLists : Bool := true
  /-- Bare web addresses are links. -/
  linkify : Bool := true
  smartPunctuation : Bool := false
deriving DecidableEq, Repr, Inhabited

def ReaderOptions.forMode (mode : Mode) : ReaderOptions := { smartPunctuation := mode = .html }

structure Options where
  reader : ReaderOptions := {}
  headingIds : Bool := true
  markExternalLinks : Bool := true
  verbosePadding : Bool := false
deriving DecidableEq, Repr, Inhabited

def Options.forMode (mode : Mode) : Options := { reader := .forMode mode }

end CanonicalMarkdown
