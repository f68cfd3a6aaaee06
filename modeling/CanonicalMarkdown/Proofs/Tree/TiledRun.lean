import CanonicalMarkdown.Proofs.Tree.UrlText

namespace CanonicalMarkdown

open Text

def Payload.piece? : Payload → Option Piece
  | .text run => some ⟨run.segment, run.literal⟩
  | _ => none

mutual

/-- The texts at and below a node, in the order of the document, as pieces of the source. -/
def Node.pieces : Node → List Piece
  | ⟨payload, _, _, children⟩ => payload.piece?.toList ++ allPieces children

def allPieces : List Node → List Piece
  | [] => []
  | node :: rest => node.pieces ++ allPieces rest

end

theorem allPieces_append (left right : List Node) :
    allPieces (left ++ right) = allPieces left ++ allPieces right := by
  induction left with
  | nil => rfl
  | cons node rest ih => simp [allPieces, ih]

@[simp] theorem pieces_ofText (span : Span) (literal : String) :
    (Node.ofText span literal).pieces = [⟨span, literal⟩] := rfl

@[simp] theorem pieces_ofBareUrl (span : Span) (url : String) :
    (Node.ofBareUrl span url).pieces = [⟨span, url⟩] := rfl

theorem allPieces_addBreak (nodes : List Node) (lineBreak : LineBreak) :
    ∃ carrier, (carrier = [] ∨ carrier = [⟨⟨lineBreak.offset, lineBreak.offset⟩, ""⟩]) ∧
      allPieces (addBreak nodes lineBreak) = allPieces nodes ++ carrier := by
  have kept (run : TextRun) : (Payload.text (run.withBreak lineBreak.hard)).piece? =
      (Payload.text run).piece? := by
    cases lineBreak.hard <;> rfl
  unfold addBreak
  split
  · rename_i run span attributes children last
    obtain ⟨front, rfl⟩ := List.getLast?_eq_some_iff.mp last
    refine ⟨[], .inl rfl, ?_⟩
    rw [List.dropLast_concat, allPieces_append, allPieces_append, List.append_nil]
    simp only [allPieces, Node.pieces, kept]
  · refine ⟨_, .inr rfl, ?_⟩
    rw [allPieces_append]
    simp only [allPieces, Node.pieces, Node.leaf, kept]
    rfl

theorem allPieces_inlineNodes (source : Source) (linkify : Bool) (run : List Piece)
    (lineBreak : Option LineBreak) :
    ∃ offset carrier, (carrier = [] ∨ carrier = [⟨⟨offset, offset⟩, ""⟩]) ∧
      allPieces (inlineNodes source linkify run lineBreak) =
        allPieces (runNodes source linkify run) ++ carrier := by
  cases lineBreak with
  | none => exact ⟨0, [], .inl rfl, (List.append_nil _).symm⟩
  | some lineBreak => exact ⟨lineBreak.offset, allPieces_addBreak _ lineBreak⟩

/-- Pieces that are not empty, each from where the one before ends, on character boundaries. -/
inductive Covers (source : Source) : Nat → List Piece → Nat → Prop
  | nil {offset : Nat} : source.IsBoundary offset → Covers source offset [] offset
  | cons {start middle stop : Nat} {literal : String} {rest : List Piece} :
      source.IsBoundary start → start < middle → Covers source middle rest stop →
      Covers source start (⟨⟨start, middle⟩, literal⟩ :: rest) stop

def filled (pieces : List Piece) : List Piece :=
  pieces.filter fun piece => piece.span.start ≠ piece.span.stop

theorem filled_concat_empty (pieces : List Piece) (offset : Nat) (literal : String) :
    filled (pieces ++ [⟨⟨offset, offset⟩, literal⟩]) = filled pieces := by
  simp [filled]

section tiles

variable {source : Source} {run : List Piece} {start middle stop : Nat} {nodes more : List Node}

theorem Covers.filled_eq {pieces : List Piece} (covers : Covers source start pieces stop) :
    filled pieces = pieces := by
  refine List.filter_eq_self.mpr ?_
  induction covers with
  | nil _ => simp
  | cons _ forward _ ih =>
    refine List.forall_mem_cons.mpr ⟨?_, ih⟩
    simpa using Nat.ne_of_lt forward

theorem Tiles.eq_of_nil (tiles : Tiles source run start [] stop) : start = stop := by
  cases tiles
  rfl

theorem Tiles.append (first : Tiles source run start nodes middle)
    (second : Tiles source run middle more stop) : Tiles source run start (nodes ++ more) stop := by
  induction first with
  | nil => exact second
  | text sliced some read _ ih => exact .text sliced some read (ih second)
  | url sliced some read _ ih => exact .url sliced some read (ih second)

theorem Tiles.covers (tiles : Tiles source run start nodes stop) (begins : source.IsBoundary start) :
    Covers source start (allPieces nodes) stop := by
  induction tiles with
  | nil => exact .nil begins
  | text sliced some _ _ ih =>
    exact .cons begins (Source.lt_of_slice? sliced some) (ih (Source.IsBoundary.of_slice? sliced).2)
  | url sliced some _ _ ih =>
    exact .cons begins (Source.lt_of_slice? sliced some) (ih (Source.IsBoundary.of_slice? sliced).2)

theorem Tiles.textBetween_of_mem (tiles : Tiles source run start nodes stop) :
    ∀ piece ∈ allPieces nodes,
      textBetween source run piece.span.start piece.span.stop = some piece.literal := by
  induction tiles with
  | nil => simp [allPieces]
  | text _ _ read _ ih => exact List.forall_mem_cons.mpr ⟨read, ih⟩
  | url _ _ read _ ih => exact List.forall_mem_cons.mpr ⟨read, ih⟩

theorem Tiles.children_of_mem {node : Node} {url : String} {email : Bool}
    (tiles : Tiles source run start nodes stop) (member : node ∈ nodes)
    (address : node.payload = .autoLink url email) :
    email = false ∧ node.children = [.ofText node.span url] := by
  induction tiles with
  | nil => simp at member
  | text _ _ _ _ ih =>
    rcases List.mem_cons.mp member with rfl | member
    · cases address
    · exact ih member
  | url _ _ _ _ ih =>
    rcases List.mem_cons.mp member with rfl | member
    · cases address
      exact ⟨rfl, rfl⟩
    · exact ih member

theorem Reads.literals {chars : List Char} (reads : Reads nodes chars) :
    (allPieces nodes).flatMap (·.literal.toList) = chars := by
  induction reads with
  | nil => rfl
  | text _ ih => simp [allPieces, ih]
  | url _ ih => simp [allPieces, ih]

end tiles

section run

variable {source : Source} {run : List Piece} {first last : Piece}

theorem textBetween_empty (source : Source) (run : List Piece) (offset : Nat) :
    textBetween source run offset offset = some "" := by
  induction run with
  | nil => simp [textBetween]
  | cons piece rest ih =>
    have nothing : Piece.between source piece offset offset = some "" := by
      unfold Piece.between
      exact if_pos (Nat.le_trans (Nat.min_le_right ..) (Nat.le_max_right ..))
    rw [textBetween_cons, nothing, ih]
    rfl

theorem Orderly.first_lt_last (orderly : Orderly run) (head : run.head? = some first)
    (final : run.getLast? = some last) : first.span.start < last.span.stop :=
  Nat.lt_of_le_of_lt (orderly.first_le head last (List.mem_of_getLast? final))
    (orderly.nonempty last (List.mem_of_getLast? final))

theorem tiles_runNodes (linkify : Bool) (orderly : Orderly run) (sliced : Sliced source run)
    (head : run.head? = some first) (final : run.getLast? = some last) :
    Tiles source run first.span.start (runNodes source linkify run) last.span.stop := by
  have forward := orderly.first_lt_last head final
  obtain ⟨_, writtenFirst⟩ := sliced first (List.mem_of_head? head)
  obtain ⟨_, writtenLast⟩ := sliced last (List.mem_of_getLast? final)
  have begins : source.IsBoundary first.span.start := (Source.IsBoundary.of_slice? writtenFirst).1
  have ends : source.IsBoundary last.span.stop := (Source.IsBoundary.of_slice? writtenLast).2
  obtain ⟨text, whole⟩ := begins.slice? ends (Nat.le_of_lt forward)
  obtain ⟨tiles, rest, ahead⟩ := tiles_of_slice? whole linkify run
  obtain ⟨literal, between, _⟩ := textBetween_rest source orderly (orderly.first_le head)
    (orderly.le_last final) (Nat.le_of_lt forward) linkify
  rw [runNodes_eq source linkify head final]
  dsimp only
  rw [Nat.max_eq_left (Nat.le_of_lt forward)]
  generalize splitAtUrls source run first.span.start
    (runUrls source linkify first.span.start last.span.stop) = split at tiles ahead between ⊢
  have length := Source.length_slice? ahead
  split
  · rename_i unfinished
    have behind : split.2 < last.span.stop := by
      rw [Bool.or_eq_true, decide_eq_true_eq, List.isEmpty_iff] at unfinished
      rcases unfinished with behind | none
      · exact behind
      -- nothing is cut out, so all of the run is left
      · rw [none] at tiles
        rwa [← tiles.eq_of_nil]
    have some : rest ≠ [] := by
      rintro rfl
      rw [byteLength_nil] at length
      omega
    rw [between, Option.getD_some]
    exact tiles.append (.text ahead some between .nil)
  · rename_i complete
    rw [Bool.or_eq_true, decide_eq_true_eq, not_or] at complete
    rwa [show split.2 = last.span.stop by omega] at tiles

theorem exists_tiles_runNodes (linkify : Bool) (orderly : Orderly run) (sliced : Sliced source run) :
    ∃ start stop, Tiles source run start (runNodes source linkify run) stop := by
  cases head : run.head? with
  | none =>
    rw [List.head?_eq_none_iff.mp head]
    exact ⟨0, 0, .nil⟩
  | some first =>
    obtain ⟨last, final⟩ : ∃ last, run.getLast? = some last :=
      ⟨_, List.getLast?_eq_some_getLast (by rintro rfl; contradiction)⟩
    exact ⟨_, _, tiles_runNodes linkify orderly sliced head final⟩

theorem literals_runNodes (source : Source) (linkify : Bool) (orderly : Orderly run) :
    (allPieces (runNodes source linkify run)).flatMap (·.literal.toList) =
      run.flatMap (·.literal.toList) := by
  by_cases empty : run = []
  · rw [empty]
    rfl
  · exact (reads_runNodes source linkify orderly empty).2.literals

end run

/-- The texts of an orderly run cover it from the start of its first piece to the end of its last,
    cut on character boundaries of the source, and each shows what the pieces have there, down to
    the rest behind the last address. A line break takes an empty text at most. An address has one
    text, which shows it. Together the texts show what the pieces show. -/
theorem inlineNodes_cover (source : Source) (run : List Piece) (linkify : Bool)
    (lineBreak : Option LineBreak) (orderly : Orderly run) (sliced : Sliced source run) :
    let nodes := inlineNodes source linkify run lineBreak
    (∀ first last, run.head? = some first → run.getLast? = some last →
      Covers source first.span.start (filled (allPieces nodes)) last.span.stop ∧
      (textBetween source run (splitAtUrls source run first.span.start
        (runUrls source linkify first.span.start last.span.stop)).2 last.span.stop).isSome) ∧
    (run = [] → filled (allPieces nodes) = []) ∧
    (∀ piece ∈ allPieces nodes,
      textBetween source run piece.span.start piece.span.stop = some piece.literal) ∧
    (∀ node ∈ nodes, ∀ url email, node.payload = .autoLink url email →
      email = false ∧ node.children = [.ofText node.span url]) ∧
    (allPieces nodes).flatMap (·.literal.toList) = run.flatMap (·.literal.toList) := by
  intro nodes
  obtain ⟨start, stop, tiles⟩ := exists_tiles_runNodes linkify orderly sliced
  obtain ⟨offset, carrier, among, pieces⟩ :=
    allPieces_inlineNodes source linkify run lineBreak
  have kept : filled (allPieces nodes) = filled (allPieces (runNodes source linkify run)) := by
    rcases among with rfl | rfl
    · rw [pieces, List.append_nil]
    · rw [pieces, filled_concat_empty]
  refine ⟨fun first last head final => ⟨?_, ?_⟩, ?_, ?_, ?_, ?_⟩
  · obtain ⟨_, written⟩ := sliced first (List.mem_of_head? head)
    have covers := (tiles_runNodes linkify orderly sliced head final).covers
      (Source.IsBoundary.of_slice? written).1
    rw [kept, covers.filled_eq]
    exact covers
  · obtain ⟨literal, between, _⟩ := textBetween_rest source orderly (orderly.first_le head)
      (orderly.le_last final) (Nat.le_of_lt (orderly.first_lt_last head final)) linkify
    exact Option.isSome_of_eq_some between
  · rintro rfl
    exact kept
  · intro piece member
    rw [pieces] at member
    rcases List.mem_append.mp member with member | member
    · exact tiles.textBetween_of_mem piece member
    · rcases among with rfl | rfl
      · simp at member
      · rw [List.mem_singleton.mp member]
        exact textBetween_empty source run offset
  · intro node member url email address
    exact tiles.children_of_mem (mem_runNodes_of_mem_inlineNodes member address) address
  · rw [pieces, List.flatMap_append, literals_runNodes source linkify orderly]
    rcases among with rfl | rfl <;> simp

def escapedAddress : List Piece :=
  [⟨⟨0, 3⟩, "é "⟩, ⟨⟨3, 8⟩, "&"⟩, ⟨⟨8, 19⟩, " http://a.b"⟩, ⟨⟨20, 22⟩, "_c"⟩]

theorem inlineNodes_cover_escapedAddress :
    let source := Source.ofString "é &amp; http://a.b\\_c\n"
    let nodes := inlineNodes source true escapedAddress (some ⟨22, false⟩)
    Orderly escapedAddress ∧ Sliced source escapedAddress ∧
    allPieces nodes =
      [⟨⟨0, 9⟩, "é & "⟩, ⟨⟨9, 22⟩, "http://a.b_c"⟩, ⟨⟨22, 22⟩, ""⟩] ∧
    Covers source 0 [⟨⟨0, 9⟩, "é & "⟩, ⟨⟨9, 22⟩, "http://a.b_c"⟩] 22 := by
  intro source nodes
  have orderly : Orderly escapedAddress := ⟨by decide, by decide⟩
  have sliced : Sliced source escapedAddress := by
    simp only [Sliced, escapedAddress, List.forall_mem_cons]
    exact ⟨⟨_, rfl⟩, ⟨_, rfl⟩, ⟨_, rfl⟩, ⟨_, rfl⟩, by simp⟩
  have pieces : allPieces nodes =
      [⟨⟨0, 9⟩, "é & "⟩, ⟨⟨9, 22⟩, "http://a.b_c"⟩, ⟨⟨22, 22⟩, ""⟩] := by decide +kernel
  obtain ⟨ends, -⟩ := inlineNodes_cover source escapedAddress true (some ⟨22, false⟩) orderly sliced
  have covers := (ends _ _ rfl rfl).1
  change Covers source 0 (filled (allPieces nodes)) 22 at covers
  rw [pieces] at covers
  exact ⟨orderly, sliced, pieces, covers⟩

end CanonicalMarkdown
