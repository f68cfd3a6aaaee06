import CanonicalMarkdown.Conversion
import CanonicalMarkdown.Proofs.Tree.Placement

namespace CanonicalMarkdown

/-- The document as it was read, with anchors, with its external links marked, and with both. -/
def Document.passes (document : Document) : List Document :=
  [document, document.anchorHeadings, document.markExternalLinks,
    document.anchorHeadings.markExternalLinks]

theorem Document.wellPlaced_passes {document : Document} (placed : document.root.Placed)
    (kind : document.root.kind = .document) : ∀ passed ∈ document.passes, passed.WellPlaced := by
  have anchored : document.anchorHeadings.root.Placed := Anchor.placed_assignIds _ _ placed
  have anchoredKind : document.anchorHeadings.root.kind = .document :=
    (Anchor.kind_assignIds _ _).trans kind
  have marked (other : Document) (placed : other.root.Placed)
      (kind : other.root.kind = .document) : other.markExternalLinks.WellPlaced :=
    wellPlaced_of_placed (other.root.placed_markExternalLinks placed)
      (other.root.kind_markExternalLinks.trans kind)
  simp only [passes, List.mem_cons, List.not_mem_nil, or_false]
  rintro passed (rfl | rfl | rfl | rfl)
  · exact wellPlaced_of_placed placed kind
  · exact wellPlaced_of_placed anchored anchoredKind
  · exact marked document placed kind
  · exact marked document.anchorHeadings anchored anchoredKind

namespace Conversion

theorem ofOptions_markdown (options : Options) :
    ofOptions .markdown options = .ok
      ⟨.markdown, options, ⟨Markdown.table, true, options.verbosePadding⟩⟩ := by
  simp [ofOptions, providers, Markdown.ofProviders_provider]

theorem exists_markdown (options : Options) :
    ∃ conversion, ofOptions .markdown options = .ok conversion ∧
      conversion.renderer.Follows Markdown.ruleSet ∧ conversion.renderer.separators = true :=
  ⟨_, ofOptions_markdown options, Markdown.follows (Markdown.ofProviders_provider 0), rfl⟩

theorem ofOptions_html (options : Options) :
    ofOptions .html options = .ok
      ⟨.html, options, ⟨Html.table, false, options.verbosePadding⟩⟩ := by
  simp [ofOptions, providers, Html.ofProviders_provider]

theorem parse_mem_passes (conversion : Conversion) (source : Source) (events : List Event) :
    conversion.parse source events ∈
      (Document.ofEvents source conversion.options.reader.linkify events).passes := by
  unfold parse decorate
  dsimp only
  split
  · split <;> split <;> simp [Document.passes]
  · simp [Document.passes]

/-- A well nested stream describes a tree with every item in a list and every table head in a table,
    before and after the passes over it, and its conversion goes through for all options. -/
theorem convert_wellNested (mode : Mode) (options : Options) (source : Source)
    (events : List Event) (nested : wellNested [] events = true) :
    (∀ linkify, ∀ document ∈ (Document.ofEvents source linkify events).passes,
      document.WellPlaced) ∧
    ∃ conversion, ofOptions mode options = .ok conversion ∧
      (conversion.parse source events).WellPlaced ∧
      ∃ text, conversion.convert source events = .ok text := by
  have passes (linkify : Bool) : ∀ document ∈ (Document.ofEvents source linkify events).passes,
      document.WellPlaced := by
    obtain ⟨placed, kind⟩ := Document.placed_ofEvents source linkify nested
    exact Document.wellPlaced_passes placed kind
  have parsed (conversion : Conversion) : (conversion.parse source events).WellPlaced :=
    passes conversion.options.reader.linkify _ (parse_mem_passes conversion source events)
  refine ⟨passes, ?_⟩
  cases mode with
  | markdown =>
    refine ⟨_, ofOptions_markdown options, parsed _, ?_⟩
    exact Renderer.renders_of_wellPlaced_markdown (Markdown.ofProviders_provider 0) (parsed _)
  | html =>
    refine ⟨_, ofOptions_html options, parsed _, ?_⟩
    exact Renderer.renders_of_wellPlaced_html (Html.ofProviders_provider 0) (parsed _)

def itemWithTable : List Event :=
  let opened : List Container := [.list none, .item, .table [.left], .tableHead, .tableCell]
  opened.map (fun container => ⟨.start container, ⟨0, 5⟩⟩)
    ++ ⟨.text "a", ⟨3, 4⟩⟩ :: opened.map fun _ => ⟨.close, ⟨0, 5⟩⟩

theorem convert_itemWithTable :
    wellNested [] itemWithTable = true ∧
    ∃ conversion, ofOptions .markdown { reader := { linkify := false } } = .ok conversion ∧
      (conversion.parse (.ofString "- |a|") itemWithTable).WellPlaced ∧
      conversion.convert (.ofString "- |a|") itemWithTable = .ok "- | a |\n  | :-- |" := by
  have nested : wellNested [] itemWithTable = true := rfl
  obtain ⟨_, conversion, made, placed, _, _⟩ :=
    convert_wellNested .markdown { reader := { linkify := false } } (.ofString "- |a|")
      itemWithTable nested
  refine ⟨nested, conversion, made, placed, ?_⟩
  rw [← Except.ok.inj ((ofOptions_markdown _).symm.trans made)]
  rfl

end Conversion

end CanonicalMarkdown
