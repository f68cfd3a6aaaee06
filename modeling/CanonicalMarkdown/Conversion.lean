import CanonicalMarkdown.Anchor.Heading
import CanonicalMarkdown.Html.Rules
import CanonicalMarkdown.Link.External
import CanonicalMarkdown.Markdown.Rules
import CanonicalMarkdown.Options
import CanonicalMarkdown.Sink
import CanonicalMarkdown.Tree.Builder

namespace CanonicalMarkdown

def defaultPriority : Int := 500

/-- A renderer made once, with the tree passes that belong to its mode. -/
structure Conversion where
  mode : Mode
  options : Options
  renderer : Renderer

namespace Conversion

def providers : Mode → List Provider
  | .markdown => [Markdown.provider defaultPriority]
  | .html => [Html.provider defaultPriority]

def ofOptions (mode : Mode) (options : Options) : Except RenderError Conversion :=
  match DispatchTable.ofProviders (providers mode) with
  | .error error => .error error
  | .ok table =>
    .ok { mode, options, renderer := {
      table, separators := mode = .markdown, verbosePadding := options.verbosePadding } }

def ofMode (mode : Mode) : Except RenderError Conversion := ofOptions mode (.forMode mode)

def decorate (conversion : Conversion) (document : Document) : Document :=
  if conversion.mode = .html then
    let anchored := if conversion.options.headingIds then document.anchorHeadings else document
    if conversion.options.markExternalLinks then anchored.markExternalLinks else anchored
  else document

def parse (conversion : Conversion) (source : Source) (events : List Event) : Document :=
  conversion.decorate (.ofEvents source conversion.options.reader.linkify events)

def render (conversion : Conversion) (document : Document) : Except RenderError String :=
  conversion.renderer.render document

def convert (conversion : Conversion) (source : Source) (events : List Event) :
    Except RenderError String :=
  conversion.render (conversion.parse source events)

end Conversion

end CanonicalMarkdown
