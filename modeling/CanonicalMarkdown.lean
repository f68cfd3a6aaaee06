import CanonicalMarkdown.Main
import CanonicalMarkdown.Proofs.PaddingLevels
import CanonicalMarkdown.Proofs.Resolution
import CanonicalMarkdown.Proofs.RuleSet
import CanonicalMarkdown.Proofs.Markdown.RuleSet
import CanonicalMarkdown.Proofs.Html.RuleSet
import CanonicalMarkdown.Proofs.WalkOrder
import CanonicalMarkdown.Proofs.PaddingDiscipline
import CanonicalMarkdown.Proofs.Delivery
import CanonicalMarkdown.Proofs.Misplacement
import CanonicalMarkdown.Proofs.Placement
import CanonicalMarkdown.Proofs.Tree.Placement
import CanonicalMarkdown.Proofs.ConversionSafety
import CanonicalMarkdown.Proofs.Indentation
import CanonicalMarkdown.Proofs.Markdown.Shape
import CanonicalMarkdown.Proofs.PaddedLines
import CanonicalMarkdown.Proofs.Markdown.TidyRules
import CanonicalMarkdown.Proofs.Markdown.Alike
import CanonicalMarkdown.Proofs.Markdown.Containers
import CanonicalMarkdown.Proofs.Anchor.FreeAnchor
import CanonicalMarkdown.Proofs.Anchor.UniqueAnchors
import CanonicalMarkdown.Proofs.Text.Slices
import CanonicalMarkdown.Proofs.Tree.BareUrl
import CanonicalMarkdown.Proofs.Tree.TextPieces
import CanonicalMarkdown.Proofs.Tree.Marks
import CanonicalMarkdown.Proofs.Tree.OpenKinds
import CanonicalMarkdown.Proofs.Tree.Content
import CanonicalMarkdown.Proofs.Tree.BuiltContent
import CanonicalMarkdown.Proofs.SamePage
import CanonicalMarkdown.Proofs.Markdown.Facets
import CanonicalMarkdown.Proofs.Markdown.Linkified
import CanonicalMarkdown.Proofs.Markdown.LinkifiedTree
import CanonicalMarkdown.Proofs.Markdown.LinkifiedPage
import CanonicalMarkdown.Proofs.PageGrowth
import CanonicalMarkdown.Proofs.Markdown.TightLists
import CanonicalMarkdown.Proofs.Command.Effects
import CanonicalMarkdown.Proofs.Tree.SourceOrder
import CanonicalMarkdown.Proofs.Tree.Escapes
import CanonicalMarkdown.Proofs.Html.Printing
import CanonicalMarkdown.Proofs.Html.VisitTags
import CanonicalMarkdown.Proofs.Html.Nesting
import CanonicalMarkdown.Proofs.Html.ReadBack
import CanonicalMarkdown.Proofs.VisitedPage
import CanonicalMarkdown.Proofs.Entries
import CanonicalMarkdown.Proofs.PaddingCounter
import CanonicalMarkdown.Proofs.Markdown.PaddingCounter
import CanonicalMarkdown.Proofs.Markdown.FenceReading
import CanonicalMarkdown.Proofs.Markdown.FenceOpening
import CanonicalMarkdown.Proofs.Markdown.DestinationReading
import CanonicalMarkdown.Proofs.Markdown.LinkTail
import CanonicalMarkdown.Proofs.Markdown.CharacterReferences
import CanonicalMarkdown.Proofs.Markdown.CodeSpanReading
import CanonicalMarkdown.Proofs.Markdown.ImageDescriptions
import CanonicalMarkdown.Proofs.Markdown.HeadingLine
import CanonicalMarkdown.Proofs.Tree.CheckedSource
import CanonicalMarkdown.Proofs.Tree.CheckedPieces
import CanonicalMarkdown.Proofs.Tree.CheckedBuilder
import CanonicalMarkdown.Proofs.Tree.UrlText
import CanonicalMarkdown.Proofs.Markdown.ListItems
import CanonicalMarkdown.Proofs.Markdown.AdjacentLists
import CanonicalMarkdown.Proofs.Markdown.ItemLines
import CanonicalMarkdown.Proofs.Tree.OpenColumns
import CanonicalMarkdown.Proofs.Tree.ItemColumns
import CanonicalMarkdown.Proofs.Tree.KeptItems
import CanonicalMarkdown.Proofs.Markdown.ItemOffsets
import CanonicalMarkdown.Proofs.Markdown.CodeBehindLists
import CanonicalMarkdown.Proofs.Tree.NestedEvents
import CanonicalMarkdown.Proofs.Tree.Tightness
import CanonicalMarkdown.Proofs.HtmlClosure
import CanonicalMarkdown.Proofs.Html.Addresses
import CanonicalMarkdown.Proofs.Link.Secured
import CanonicalMarkdown.Proofs.Link.ExternalLinks
import CanonicalMarkdown.Proofs.Tree.FoundUrls
import CanonicalMarkdown.Proofs.Markdown.HeadingAttributes
import CanonicalMarkdown.Proofs.Rewording
import CanonicalMarkdown.Proofs.Html.Composition
import CanonicalMarkdown.Proofs.Html.Brackets
import CanonicalMarkdown.Proofs.Tree.TiledRun
import CanonicalMarkdown.Proofs.Settings
