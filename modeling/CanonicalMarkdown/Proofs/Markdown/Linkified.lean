import CanonicalMarkdown.Markdown.Delimiters
import CanonicalMarkdown.Proofs.Tree.TextPieces
import CanonicalMarkdown.Tree.Builder

namespace CanonicalMarkdown.Markdown

/-- Texts and bare addresses without a line break that follow each other in the source from an
    offset on, and the text that stands there. -/
inductive Copies (source : Source) : Nat → List Node → List Char → Prop
  | nil {offset : Nat} : Copies source offset [] []
  | text {start stop : Nat} {part more : List Char} {literal : String} {rest : List Node} :
      source.slice? ⟨start, stop⟩ = some part → part ≠ [] → Copies source stop rest more →
      Copies source start (Node.ofText ⟨start, stop⟩ literal :: rest) (part ++ more)
  | url {start stop : Nat} {part more : List Char} {literal : String} {rest : List Node} :
      source.slice? ⟨start, stop⟩ = some part → part ≠ [] → Copies source stop rest more →
      Copies source start (Node.ofBareUrl ⟨start, stop⟩ literal :: rest) (part ++ more)

def endRun (nodes : List Node) : Option LineBreak → List Node
  | some lineBreak => addBreak nodes lineBreak
  | none => nodes

theorem inlineNodes_eq (source : Source) (linkify : Bool) (run : List Piece)
    (lineBreak : Option LineBreak) :
    inlineNodes source linkify run lineBreak = endRun (runNodes source linkify run) lineBreak := by
  cases lineBreak <;> rfl

section copies

variable {source : Source} {run : List Piece} {start stop : Nat} {nodes : List Node}
  {text rest : List Char}

theorem Copies.single (sliced : source.slice? ⟨start, stop⟩ = some text) (some : text ≠ [])
    (literal : String) : Copies source start [Node.ofText ⟨start, stop⟩ literal] text := by
  have copies : Copies source start [Node.ofText ⟨start, stop⟩ literal] (text ++ []) :=
    .text sliced some .nil
  rwa [List.append_nil] at copies

theorem Copies.text_ne_nil (copies : Copies source start nodes text) (some : nodes ≠ []) :
    text ≠ [] := by
  cases copies with
  | nil => contradiction
  | text _ part _ | url _ part _ => simp [part]

theorem Copies.ne_nil (copies : Copies source start nodes text) (some : text ≠ []) : nodes ≠ [] := by
  rintro rfl
  cases copies
  contradiction

theorem copies_of_tiles (tiles : Tiles source run start nodes stop) {final : Nat}
    (ahead : source.slice? ⟨stop, final⟩ = some rest) :
    ∃ text, Copies source start nodes text ∧
      source.slice? ⟨start, final⟩ = some (text ++ rest) ∧
      (rest ≠ [] → ∀ literal, Copies source start (nodes ++ [Node.ofText ⟨stop, final⟩ literal])
        (text ++ rest)) := by
  induction tiles with
  | nil => exact ⟨[], .nil, ahead, fun some literal => .single ahead some literal⟩
  | @text start middle stop part _ _ sliced some _ _ ih =>
    obtain ⟨text, copies, whole, longer⟩ := ih ahead
    refine ⟨part ++ text, .text sliced some copies, ?_, fun more literal => ?_⟩
    · rw [List.append_assoc]
      exact Source.slice?_append sliced whole
    · rw [List.append_assoc]
      exact .text sliced some (longer more literal)
  | @url start middle stop part _ _ sliced some _ _ ih =>
    obtain ⟨text, copies, whole, longer⟩ := ih ahead
    refine ⟨part ++ text, .url sliced some copies, ?_, fun more literal => ?_⟩
    · rw [List.append_assoc]
      exact Source.slice?_append sliced whole
    · rw [List.append_assoc]
      exact .url sliced some (longer more literal)

/-- Linking the addresses of a run leaves its nodes as they are, or puts nodes in the place of its
    one text that copy the same source. -/
theorem runNodes_linkified (source : Source) {run : List Piece} {first : Piece}
    (head : run.head? = some first) :
    runNodes source true run = runNodes source false run ∨
      ∃ stop literal text, runNodes source false run =
          [Node.ofText ⟨first.span.start, stop⟩ literal] ∧
        source.slice? ⟨first.span.start, stop⟩ = some text ∧ text ≠ [] ∧
        Copies source first.span.start (runNodes source true run) text := by
  obtain ⟨last, final⟩ : ∃ last, run.getLast? = some last := by
    cases run with
    | nil => contradiction
    | cons => exact ⟨_, List.getLast?_cons⟩
  rw [runNodes_eq source true head final, runNodes_eq source false head final]
  dsimp only
  generalize first.span.start = start
  generalize max last.span.stop start = stop
  rw [runUrls_eq_nil (.inl rfl)]
  simp only [splitAtUrls, List.isEmpty_nil, Bool.or_true, if_true, List.nil_append]
  cases sliced : source.slice? ⟨start, stop⟩ with
  | none =>
    rw [runUrls_eq_nil (.inr sliced)]
    simp [splitAtUrls]
  | some whole =>
    obtain ⟨tiles, rest, ahead⟩ := tiles_of_slice? sliced true run
    obtain ⟨text, copies, split, longer⟩ := copies_of_tiles tiles ahead
    generalize splitAtUrls source run start (runUrls source true start stop) = nodes
      at tiles ahead copies longer ⊢
    obtain rfl : whole = text ++ rest := Option.some.inj (sliced.symm.trans split)
    by_cases empty : nodes.1 = []
    · left
      rw [empty] at tiles
      cases tiles
      simp [empty]
    · have some := copies.text_ne_nil empty
      refine .inr ⟨stop, _, text ++ rest, rfl, sliced, by simp [some], ?_⟩
      by_cases complete : rest = []
      · subst complete
        have atEnd : ¬ nodes.2 < stop := by
          have length := Source.length_slice? ahead
          simp at length
          omega
        simpa [atEnd, empty] using copies
      · simpa [Source.lt_of_slice? ahead complete] using longer complete _

theorem Copies.isInline (copies : Copies source start nodes text) :
    ∀ node ∈ nodes, node.kind.isBlock = false := by
  induction copies with
  | nil => simp
  | text _ _ _ ih | url _ _ _ ih => exact List.forall_mem_cons.mpr ⟨rfl, ih⟩

end copies

section endRun

variable {nodes : List Node}

theorem addBreak_ne_nil (nodes : List Node) (lineBreak : LineBreak) : addBreak nodes lineBreak ≠ [] := by
  unfold addBreak
  split <;> simp

theorem isInline_addBreak (inline : ∀ node ∈ nodes, node.kind.isBlock = false)
    (lineBreak : LineBreak) : ∀ node ∈ addBreak nodes lineBreak, node.kind.isBlock = false := by
  intro node member
  unfold addBreak at member
  split at member
  · rcases List.mem_append.mp member with member | member
    · exact inline node (List.dropLast_subset nodes member)
    · rw [List.mem_singleton.mp member]
      rfl
  · rcases List.mem_append.mp member with member | member
    · exact inline node member
    · rw [List.mem_singleton.mp member]
      rfl

theorem endRun_ne_nil (some : nodes ≠ []) (lineBreak : Option LineBreak) :
    endRun nodes lineBreak ≠ [] := by
  cases lineBreak with
  | none => exact some
  | some lineBreak => exact addBreak_ne_nil nodes lineBreak

theorem isInline_endRun (inline : ∀ node ∈ nodes, node.kind.isBlock = false)
    (lineBreak : Option LineBreak) : ∀ node ∈ endRun nodes lineBreak, node.kind.isBlock = false := by
  cases lineBreak with
  | none => exact inline
  | some lineBreak => exact isInline_addBreak inline lineBreak

end endRun

section emphasis

variable {source : Source} {node left right : Node}

theorem delimiterOf_congr (span : left.span = right.span)
    (head : left.children.head?.map (·.payload) = right.children.head?.map (·.payload)) :
    delimiterOf source left = delimiterOf source right := by
  have offset : offsetBeforeText? left = offsetBeforeText? right := by
    unfold offsetBeforeText?
    cases below : left.children with
    | nil =>
      rw [below] at head
      cases others : right.children with
      | nil => rfl
      | cons => simp [others] at head
    | cons first rest =>
      rw [below] at head
      cases others : right.children with
      | nil => simp [others] at head
      | cons other more =>
        obtain ⟨payload, span, attributes, children⟩ := first
        obtain ⟨_, _, _, _⟩ := other
        obtain rfl : payload = _ := by simpa [others] using head
        cases payload <;> rfl
  rw [delimiterOf, delimiterOf, offset, span]

theorem delimiterOf_append {payload : Payload} {span : Span} {attributes : Attributes}
    {children : List Node} (some : children ≠ []) (more : List Node) :
    delimiterOf source ⟨payload, span, attributes, children ++ more⟩ =
      delimiterOf source ⟨payload, span, attributes, children⟩ := by
  obtain ⟨first, rest, rfl⟩ := List.exists_cons_of_ne_nil some
  exact delimiterOf_congr rfl rfl

/-- A node starts with as many emphasis marks of one kind as its level says, and its text stands
    right behind them. -/
def startsWithMarks (source : Source) (span : Span) (level start : Nat) : Bool :=
  start = span.start + level && ['*', '_'].any fun mark =>
    source.slice? ⟨span.start, start⟩ = some (List.replicate level mark)

def StartsAt (offset : Nat) (nodes : List Node) : Prop :=
  ∀ node ∈ nodes.head?, node.kind = .autoLink ∨
    ∃ run, node.payload = .text run ∧ run.segment.start = offset

theorem charAt?_of_slice? {start stop : Nat} {c : Char} {rest : List Char}
    (sliced : source.slice? ⟨start, stop⟩ = some (c :: rest)) : source.charAt? start = some c := by
  obtain ⟨before, after, split, rfl, _⟩ := Source.slice?_eq_some_iff.mp sliced
  simp [Source.charAt?, Source.after, split]

theorem offsetBeforeText?_of_startsAt {start : Nat} (some : 0 < start)
    (starts : StartsAt start node.children) :
    offsetBeforeText? node = none ∨ offsetBeforeText? node = .some (start - 1) := by
  unfold offsetBeforeText?
  cases below : node.children with
  | nil => exact .inl rfl
  | cons first rest =>
    obtain ⟨payload, span, attributes, children⟩ := first
    rw [below] at starts
    cases payload with
    | text run =>
      rcases starts _ rfl with link | ⟨_, same, rfl⟩
      · contradiction
      · obtain rfl := Payload.text.inj same
        right
        exact if_neg (by omega)
    | _ => exact .inl rfl

theorem Copies.startsAt {start : Nat} {nodes : List Node} {text : List Char}
    (copies : Copies source start nodes text) (some : nodes ≠ []) (lineBreak : Option LineBreak) :
    StartsAt start (endRun nodes lineBreak) := by
  cases copies with
  | nil => contradiction
  | @text _ stop _ _ literal rest =>
    have isText (run : TextRun) (starts : run.segment.start = start) (more : List Node) :
        StartsAt start (.leaf (.text run) ⟨start, stop⟩ :: more) := by
      rintro node ⟨⟩
      exact .inr ⟨run, rfl, starts⟩
    cases lineBreak with
    | none => exact isText _ rfl rest
    | some lineBreak =>
      by_cases last : rest = []
      · subst last
        refine isText _ ?_ []
        unfold TextRun.withBreak
        split <;> rfl
      · rw [endRun, addBreak_cons last]
        exact isText _ rfl _
  | @url _ stop _ _ literal rest =>
    have isUrl (more : List Node) :
        StartsAt start (Node.ofBareUrl ⟨start, stop⟩ literal :: more) := by
      rintro node ⟨⟩
      exact .inl rfl
    cases lineBreak with
    | none => exact isUrl rest
    | some lineBreak =>
      by_cases last : rest = []
      · subst last
        exact isUrl _
      · rw [endRun, addBreak_cons last]
        exact isUrl _

theorem delimiterOf_of_marks {span : Span} {level start : Nat} (some : 0 < level)
    (marks : startsWithMarks source span level start = true) :
    ∃ mark, ∀ node : Node, node.span = span → StartsAt start node.children →
      delimiterOf source node = mark := by
  simp only [startsWithMarks, Bool.and_eq_true, decide_eq_true_eq, List.any_eq_true] at marks
  obtain ⟨rfl, mark, member, sliced⟩ := marks
  have isMark : isEmphasisMark mark = true ∧ Text.byteLength [mark] = 1 := by
    simp only [List.mem_cons, List.not_mem_nil, or_false] at member
    rcases member with rfl | rfl <;> decide
  obtain ⟨count, rfl⟩ : ∃ count, level = count + 1 := ⟨level - 1, by omega⟩
  have first : source.charAt? span.start = .some mark := charAt?_of_slice? sliced
  have last : source.charAt? (span.start + (count + 1) - 1) = .some mark := by
    rw [List.replicate_succ'] at sliced
    have behind := (Source.slice?_split sliced).2
    have length := Source.length_slice? behind
    rw [show span.start + (count + 1) - 1 =
      span.start + Text.byteLength (List.replicate count mark) by omega]
    exact charAt?_of_slice? behind
  have kept : (Option.some mark).filter isEmphasisMark = .some mark := by
    simp [Option.filter, isMark.1]
  refine ⟨mark, fun node same starts => ?_⟩
  rw [delimiterOf, same, first, kept]
  rcases offsetBeforeText?_of_startsAt (by omega) starts with none | offset
  · rw [none]
    rfl
  · rw [offset, Option.bind_some, last, kept]
    rfl

end emphasis

/-- The second list is the first with bare addresses linked. Where texts stand directly in a list of
    items, none of them is `parted`. -/
inductive Linkified (source : Source) : Bool → List Node → List Node → Prop
  | nil {parted : Bool} : Linkified source parted [] []
  | node {parted : Bool} {payload : Payload} {left right : Span} {attributes : Attributes}
      {children others rest more : List Node} :
      (payload.kind ≠ .paragraph → left = right) →
      (payload.kind = .emphasis → delimiterOf source ⟨payload, left, attributes, children⟩ =
        delimiterOf source ⟨payload, right, attributes, others⟩) →
      (payload.kind = .image ∨ payload.kind = .codeSpan → children = others) →
      Linkified source (payload.kind ≠ .list) children others → Linkified source parted rest more →
      Linkified source parted (⟨payload, left, attributes, children⟩ :: rest)
        (⟨payload, right, attributes, others⟩ :: more)
  | run {start stop : Nat} {literal : String} {text : List Char} {nodes rest more : List Node}
      {lineBreak : Option LineBreak} :
      source.slice? ⟨start, stop⟩ = some text → text ≠ [] → Copies source start nodes text →
      Linkified source true rest more →
      Linkified source true (endRun [.ofText ⟨start, stop⟩ literal] lineBreak ++ rest)
        (endRun nodes lineBreak ++ more)

namespace Linkified

variable {source : Source} {parted : Bool} {left right : List Node}

theorem alone {start stop : Nat} {literal : String} {text : List Char} {nodes : List Node}
    {lineBreak : Option LineBreak} (sliced : source.slice? ⟨start, stop⟩ = some text)
    (some : text ≠ []) (copies : Copies source start nodes text) :
    Linkified source true (endRun [.ofText ⟨start, stop⟩ literal] lineBreak)
      (endRun nodes lineBreak) := by
  rw [← List.append_nil (endRun [_] _), ← List.append_nil (endRun nodes _)]
  exact .run sliced some copies .nil

theorem refl : ∀ (nodes : List Node) (parted : Bool), Linkified source parted nodes nodes
  | [], _ => .nil
  | ⟨_, _, _, children⟩ :: rest, parted =>
    .node (fun _ => rfl) (fun _ => rfl) (fun _ => rfl) (refl children _) (refl rest parted)

theorem append {more others : List Node} (first : Linkified source parted left right)
    (second : Linkified source parted more others) :
    Linkified source parted (left ++ more) (right ++ others) := by
  induction first with
  | nil => exact second
  | node span mark copied below _ _ ih => exact .node span mark copied below (ih second)
  | run sliced some copies _ ih =>
    rw [List.append_assoc, List.append_assoc]
    exact .run sliced some copies (ih second)

theorem eq_nil_iff (linkified : Linkified source parted left right) : left = [] ↔ right = [] := by
  cases linkified with
  | nil => rfl
  | node => simp
  | run _ some copies => simp [endRun_ne_nil (copies.ne_nil some), endRun_ne_nil]

theorem ofRun (source : Source) (run : List Piece) (lineBreak : Option LineBreak) :
    Linkified source true (inlineNodes source false run lineBreak)
      (inlineNodes source true run lineBreak) := by
  rw [inlineNodes_eq, inlineNodes_eq]
  cases head : run.head? with
  | none =>
    rw [List.head?_eq_none_iff.mp head]
    exact refl _ _
  | some first =>
    rcases runNodes_linkified source head with same | ⟨stop, literal, text, one, sliced, some, copies⟩
    · rw [same]
      exact refl _ _
    · rw [one]
      exact .alone sliced some copies

theorem paragraphAround_eq {inlines : List Node} (some : inlines ≠ []) :
    ∃ span, paragraphAround inlines = [⟨.paragraph, span, {}, inlines⟩] := by
  cases inlines with
  | nil => contradiction
  | cons first rest =>
    unfold paragraphAround
    rw [List.head?_cons, List.getLast?_cons]
    exact ⟨_, rfl⟩

theorem wrapped (linkified : Linkified source true left right) :
    Linkified source parted (paragraphAround left) (paragraphAround right) := by
  by_cases empty : left = []
  · obtain rfl := linkified.eq_nil_iff.mp empty
    subst empty
    exact .nil
  · obtain ⟨span, same⟩ := paragraphAround_eq empty
    obtain ⟨other, sameOther⟩ := paragraphAround_eq (mt linkified.eq_nil_iff.mpr empty)
    rw [same, sameOther]
    refine .node (fun isNot => absurd rfl isNot) ?_ ?_ linkified .nil
    · exact fun isEmphasis => by cases isEmphasis
    · exact fun isOther => by cases isOther <;> contradiction

theorem gatherParagraphs_append {inlines : List Node}
    (inline : ∀ node ∈ inlines, node.kind.isBlock = false) (pending rest : List Node) :
    gatherParagraphs pending (inlines ++ rest) =
      gatherParagraphs (pending ++ inlines) rest := by
  induction inlines generalizing pending with
  | nil => rw [List.nil_append, List.append_nil]
  | cons node more ih =>
    obtain ⟨here, others⟩ := List.forall_mem_cons.mp inline
    rw [List.cons_append, gatherParagraphs, here, if_neg Bool.false_ne_true,
      ih others, List.append_assoc]
    rfl

theorem gathered {pending waiting : List Node}
    (before : Linkified source true pending waiting) (linkified : Linkified source true left right) :
    Linkified source true (gatherParagraphs pending left) (gatherParagraphs waiting right) := by
  generalize parts : true = parted at linkified
  induction linkified generalizing pending waiting with
  | nil => exact before.wrapped
  | @node _ payload span other attributes children others rest more same mark copied below _ _ ih =>
    subst parts
    by_cases block : payload.kind.isBlock = true
    · simp only [gatherParagraphs, Node.kind, block, if_true]
      exact before.wrapped.append (.node same mark copied below (ih .nil rfl))
    · simp only [gatherParagraphs, Node.kind, block]
      exact ih (before.append (.node same mark copied below .nil)) rfl
  | run sliced some copies _ ih =>
    have one := Copies.single sliced some
    rw [gatherParagraphs_append (isInline_endRun copies.isInline _),
      gatherParagraphs_append (isInline_endRun (one _).isInline _)]
    exact ih (before.append (.alone sliced some copies)) rfl

end Linkified

end CanonicalMarkdown.Markdown
