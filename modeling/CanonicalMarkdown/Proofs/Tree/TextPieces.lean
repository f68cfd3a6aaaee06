import CanonicalMarkdown.Proofs.Tree.BareUrl
import CanonicalMarkdown.Tree.TextPieces

namespace CanonicalMarkdown

open Text

/-- Texts and bare addresses that follow each other in the source from one offset to another. -/
inductive Tiles (source : Source) (run : List Piece) : Nat → List Node → Nat → Prop
  | nil {offset : Nat} : Tiles source run offset [] offset
  | text {start middle stop : Nat} {part : List Char} {literal : String} {rest : List Node} :
      source.slice? ⟨start, middle⟩ = some part → part ≠ [] →
      textBetween source run start middle = some literal → Tiles source run middle rest stop →
      Tiles source run start (Node.ofText ⟨start, middle⟩ literal :: rest) stop
  | url {start middle stop : Nat} {part : List Char} {literal : String} {rest : List Node} :
      source.slice? ⟨start, middle⟩ = some part → part ≠ [] →
      textBetween source run start middle = some literal → Tiles source run middle rest stop →
      Tiles source run start (Node.ofBareUrl ⟨start, middle⟩ literal :: rest) stop

theorem tiles_splitAtUrls {source : Source} {run : List Piece} {cursor offset stop : Nat}
    {skipped text : List Char} {urls : List Span}
    (behind : source.slice? ⟨cursor, offset⟩ = some skipped)
    (ahead : source.slice? ⟨offset, stop⟩ = some text)
    (parts : BareUrl.PartsOf offset text urls) :
    Tiles source run cursor (splitAtUrls source run cursor urls).1
        (splitAtUrls source run cursor urls).2 ∧
      ∃ rest, source.slice? ⟨(splitAtUrls source run cursor urls).2, stop⟩ = some rest := by
  -- The addresses lie in the `text` from `offset` on; `skipped` is what lies between the cursor
  -- and the offset.
  induction parts generalizing cursor skipped with
  | nil => exact ⟨.nil, _, Source.slice?_append behind ahead⟩
  | @cons offset before part after more some _ ih =>
    obtain ⟨front, ahead⟩ := Source.slice?_split ahead
    obtain ⟨address, ahead⟩ := Source.slice?_split ahead
    have unread := Source.slice?_append behind front
    rw [splitAtUrls]
    split
    · rename_i label text read readBefore
      have nothing : source.slice? ⟨offset + byteLength before + byteLength part,
          offset + byteLength before + byteLength part⟩ = .some [] := by
        rw [← List.append_nil part] at address
        simpa using (Source.slice?_split address).2
      obtain ⟨tiles, rest⟩ := ih nothing ahead
      have length := Source.length_slice? unread
      refine ⟨?_, rest⟩
      dsimp only
      split
      · rename_i gap
        have someText : skipped ++ before ≠ [] := by
          intro empty
          rw [empty, byteLength_nil] at length
          omega
        exact .text unread someText readBefore (.url address some read tiles)
      · rename_i noGap
        obtain rfl : cursor = offset + byteLength before := by omega
        exact .url address some read tiles
    · exact ih (Source.slice?_append unread address) ahead

namespace Piece

/-- A piece that an offset falls into can be cut there. -/
def CutsAt (source : Source) (piece : Piece) (offset : Nat) : Prop :=
  piece.span.start < offset → offset < piece.span.stop →
    source.slice? piece.span = some piece.literal.toList ∧
      ∃ front back, piece.literal.toList = front ++ back ∧
        piece.span.start + byteLength front = offset

def before (piece : Piece) (offset : Nat) : List Char :=
  if offset ≤ piece.span.start then []
  else if piece.span.stop ≤ offset then piece.literal.toList
  else (takeBytes (offset - piece.span.start) piece.literal.toList).getD []

variable {source : Source} {piece : Piece} {start stop : Nat}

theorem before_of_le (behind : stop ≤ piece.span.start) : piece.before stop = [] := if_pos behind

theorem before_of_ge (some : piece.span.start < piece.span.stop) (within : piece.span.stop ≤ stop) :
    piece.before stop = piece.literal.toList := by
  rw [before, if_neg (by omega), if_pos within]

theorem before_of_cut {front back : List Char} (split : piece.literal.toList = front ++ back)
    (length : piece.span.start + byteLength front = stop) (inside : stop < piece.span.stop) :
    piece.before stop = front := by
  have count : stop - piece.span.start = byteLength front := by omega
  by_cases empty : front = []
  · subst empty
    exact before_of_le (by simp at length; omega)
  · have positive := byteLength_pos empty
    rw [before, if_neg (by omega), if_neg (by omega), split, count]
    simp

theorem CutsAt.split (cuts : piece.CutsAt source stop) (some : piece.span.start < piece.span.stop) :
    ∃ back, piece.literal.toList = piece.before stop ++ back := by
  by_cases behind : stop ≤ piece.span.start
  · exact ⟨_, by rw [before_of_le behind]; rfl⟩
  · by_cases within : piece.span.stop ≤ stop
    · exact ⟨[], by rw [before_of_ge some within, List.append_nil]⟩
    · obtain ⟨_, front, back, split, length⟩ := cuts (by omega) (by omega)
      exact ⟨back, by rw [before_of_cut split length (by omega), split]⟩

theorem CutsAt.length (cuts : piece.CutsAt source stop) (some : piece.span.start < piece.span.stop)
    (sliced : source.slice? piece.span = .some piece.literal.toList) :
    piece.span.start + byteLength (piece.before stop) =
      min piece.span.stop (max piece.span.start stop) := by
  have whole : piece.span.start + byteLength piece.literal.toList = piece.span.stop :=
    Source.length_slice? sliced
  by_cases behind : stop ≤ piece.span.start
  · rw [before_of_le behind, byteLength_nil]
    omega
  · by_cases within : piece.span.stop ≤ stop
    · rw [before_of_ge some within]
      omega
    · obtain ⟨_, front, back, split, length⟩ := cuts (by omega) (by omega)
      rw [before_of_cut split length (by omega)]
      omega

theorem before_prefix (cutsStart : piece.CutsAt source start) (cutsStop : piece.CutsAt source stop)
    (some : piece.span.start < piece.span.stop) (ordered : start ≤ stop) :
    piece.before start <+: piece.before stop := by
  obtain ⟨backStart, splitStart⟩ := cutsStart.split some
  obtain ⟨backStop, splitStop⟩ := cutsStop.split some
  by_cases behind : start ≤ piece.span.start
  · rw [before_of_le behind]
    exact List.nil_prefix
  · by_cases within : piece.span.stop ≤ stop
    · rw [before_of_ge some within]
      exact ⟨backStart, splitStart.symm⟩
    · have sliced := (cutsStart (by omega) (by omega)).1
      have lengthStart := cutsStart.length some sliced
      have lengthStop := cutsStop.length some sliced
      exact prefix_of_byteLength_le (splitStart.symm.trans splitStop) (by omega)

theorem between_of_cuts (cutsStart : piece.CutsAt source start) (cutsStop : piece.CutsAt source stop)
    (some : piece.span.start < piece.span.stop) (ordered : start ≤ stop) :
    ∃ text, Piece.between source piece start stop = .some text ∧
      piece.before start ++ text.toList = piece.before stop := by
  obtain ⟨part, split⟩ := before_prefix cutsStart cutsStop some ordered
  unfold Piece.between
  dsimp only
  split
  · refine ⟨"", rfl, ?_⟩
    rw [String.toList_empty, List.append_nil]
    by_cases behind : stop ≤ piece.span.start
    · rw [before_of_le behind, before_of_le (Nat.le_trans ordered behind)]
    · by_cases within : piece.span.stop ≤ start
      · rw [before_of_ge some within, before_of_ge some (Nat.le_trans within ordered)]
      · rw [show start = stop by omega]
  · split
    · rename_i whole
      refine ⟨piece.literal, rfl, ?_⟩
      rw [before_of_le (by omega), before_of_ge some (by omega), List.nil_append]
    · have sliced : source.slice? piece.span = .some piece.literal.toList := by
        by_cases inside : piece.span.start < start
        · exact (cutsStart inside (by omega)).1
        · exact (cutsStop (by omega) (by omega)).1
      have lengthStart := cutsStart.length some sliced
      have lengthStop := cutsStop.length some sliced
      obtain ⟨back, splitStop⟩ := cutsStop.split some
      rw [← split, byteLength_append] at lengthStop
      have cut : slice? piece.literal.toList (max piece.span.start start - piece.span.start)
          (min piece.span.stop stop - piece.span.start) = .some part := by
        rw [slice?_eq_some_iff]
        exact ⟨piece.before start, back, by rw [splitStop, ← split, List.append_assoc],
          by omega, by omega⟩
      rw [if_pos sliced, cut]
      exact ⟨String.ofList part, rfl, by rw [String.toList_ofList, split]⟩

theorem cuts_of_between {text : String} (read : Piece.between source piece start stop = some text)
    (ordered : start < stop) : piece.CutsAt source start ∧ piece.CutsAt source stop := by
  unfold Piece.between at read
  dsimp only at read
  split at read
  · exact ⟨fun _ _ => by omega, fun _ _ => by omega⟩
  · split at read
    · exact ⟨fun _ _ => by omega, fun _ _ => by omega⟩
    · split at read
      · rename_i sliced
        obtain ⟨part, cut, _⟩ := Option.map_eq_some_iff.mp read
        obtain ⟨front, back, split, lengthStart, lengthStop⟩ := slice?_eq_some_iff.mp cut
        refine ⟨fun _ _ => ⟨sliced, front, _, split, by omega⟩, fun _ _ => ⟨sliced, ?_⟩⟩
        refine ⟨front ++ part, back, by rw [split, List.append_assoc], ?_⟩
        rw [byteLength_append]
        omega
      · contradiction

end Piece

/-- The pieces of a run cover nonempty spans, one behind the other. -/
structure Orderly (run : List Piece) : Prop where
  nonempty : ∀ piece ∈ run, piece.span.start < piece.span.stop
  ordered : run.Pairwise fun left right => left.span.stop ≤ right.span.start

theorem Orderly.tail {piece : Piece} {rest : List Piece} (orderly : Orderly (piece :: rest)) :
    Orderly rest :=
  ⟨fun other member => orderly.nonempty other (List.mem_cons_of_mem _ member),
    (List.pairwise_cons.mp orderly.ordered).2⟩

theorem Orderly.concat {run : List Piece} {piece : Piece} (orderly : Orderly run)
    (some : piece.span.start < piece.span.stop)
    (behind : ∀ earlier ∈ run, earlier.span.stop ≤ piece.span.start) : Orderly (run ++ [piece]) := by
  refine ⟨?_, List.pairwise_append.mpr ⟨orderly.ordered, List.pairwise_singleton .., ?_⟩⟩
  · intro other member
    rcases List.mem_append.mp member with member | member
    · exact orderly.nonempty other member
    · rw [List.mem_singleton.mp member]
      exact some
  · intro earlier member other last
    rw [List.mem_singleton.mp last]
    exact behind earlier member

def RunCutsAt (source : Source) (run : List Piece) (offset : Nat) : Prop :=
  ∀ piece ∈ run, piece.CutsAt source offset

def textBefore (run : List Piece) (offset : Nat) : List Char := run.flatMap (·.before offset)

section run

variable {source : Source} {run : List Piece} {start stop : Nat}

theorem textBetween_cons (piece : Piece) (rest : List Piece) :
    textBetween source (piece :: rest) start stop =
      (Piece.between source piece start stop).bind fun text =>
        (textBetween source rest start stop).map (text ++ ·) := by
  unfold textBetween
  rw [List.mapM_cons]
  cases Piece.between source piece start stop with
  | none => rfl
  | some text =>
    cases rest.mapM fun piece => Piece.between source piece start stop <;> simp

theorem cuts_of_textBetween {text : String} (read : textBetween source run start stop = some text)
    (ordered : start < stop) : RunCutsAt source run start ∧ RunCutsAt source run stop := by
  induction run generalizing text with
  | nil => simp [RunCutsAt]
  | cons piece rest ih =>
    rw [textBetween_cons] at read
    obtain ⟨first, here, more⟩ := Option.bind_eq_some_iff.mp read
    obtain ⟨others, behind, _⟩ := Option.map_eq_some_iff.mp more
    obtain ⟨cutsStart, cutsStop⟩ := Piece.cuts_of_between here ordered
    obtain ⟨restStart, restStop⟩ := ih behind
    exact ⟨List.forall_mem_cons.mpr ⟨cutsStart, restStart⟩,
      List.forall_mem_cons.mpr ⟨cutsStop, restStop⟩⟩

theorem textBefore_of_le (behind : ∀ piece ∈ run, stop ≤ piece.span.start) :
    textBefore run stop = [] := by
  rw [textBefore, List.flatMap_eq_nil_iff]
  exact fun piece member => Piece.before_of_le (behind piece member)

theorem textBefore_of_ge (orderly : Orderly run) (within : ∀ piece ∈ run, piece.span.stop ≤ stop) :
    textBefore run stop = run.flatMap (·.literal.toList) := by
  induction run with
  | nil => rfl
  | cons piece rest ih =>
    obtain ⟨here, behind⟩ := List.forall_mem_cons.mp within
    have some := orderly.nonempty piece (List.mem_cons_self ..)
    rw [textBefore, List.flatMap_cons, List.flatMap_cons, Piece.before_of_ge some here,
      ← ih orderly.tail behind]
    rfl

theorem textBetween_of_cuts (orderly : Orderly run) (cutsStart : RunCutsAt source run start)
    (cutsStop : RunCutsAt source run stop) (ordered : start ≤ stop) :
    ∃ text, textBetween source run start stop = some text ∧
      textBefore run start ++ text.toList = textBefore run stop := by
  induction run with
  | nil => exact ⟨"", by simp [textBetween], rfl⟩
  | cons piece rest ih =>
    obtain ⟨hereStart, restStart⟩ := List.forall_mem_cons.mp cutsStart
    obtain ⟨hereStop, restStop⟩ := List.forall_mem_cons.mp cutsStop
    have some := orderly.nonempty piece (List.mem_cons_self ..)
    obtain ⟨first, here, splitHere⟩ := Piece.between_of_cuts hereStart hereStop some ordered
    obtain ⟨others, behind, splitBehind⟩ := ih orderly.tail restStart restStop
    refine ⟨first ++ others, by rw [textBetween_cons, here, behind]; rfl, ?_⟩
    have swap : textBefore rest start ++ first.toList = first.toList ++ textBefore rest start := by
      by_cases within : piece.span.stop ≤ start
      · have nothing : first.toList = [] := by
          rw [Piece.before_of_ge some within, Piece.before_of_ge some (Nat.le_trans within ordered)]
            at splitHere
          simpa using splitHere
        rw [nothing, List.append_nil, List.nil_append]
      · have nothing : textBefore rest start = [] := textBefore_of_le fun other member => by
          have after := (List.pairwise_cons.mp orderly.ordered).1 other member
          omega
        rw [nothing, List.append_nil, List.nil_append]
    rw [textBefore, textBefore, List.flatMap_cons, List.flatMap_cons]
    change piece.before start ++ textBefore rest start ++ _ =
      piece.before stop ++ textBefore rest stop
    rw [String.toList_append, ← splitHere, ← splitBehind]
    simp only [List.append_assoc]
    rw [← List.append_assoc (textBefore rest start), swap, List.append_assoc]

end run

inductive Reads : List Node → List Char → Prop
  | nil : Reads [] []
  | text {span : Span} {literal : String} {rest : List Node} {chars : List Char} :
      Reads rest chars → Reads (Node.ofText span literal :: rest) (literal.toList ++ chars)
  | url {span : Span} {literal : String} {rest : List Node} {chars : List Char} :
      Reads rest chars → Reads (Node.ofBareUrl span literal :: rest) (literal.toList ++ chars)

theorem Reads.concat {nodes : List Node} {chars : List Char} (reads : Reads nodes chars)
    (span : Span) (literal : String) :
    Reads (nodes ++ [Node.ofText span literal]) (chars ++ literal.toList) := by
  induction reads with
  | nil =>
    have single : Reads [Node.ofText span literal] (literal.toList ++ []) := .text .nil
    rwa [List.append_nil] at single
  | text _ ih =>
    rw [List.append_assoc]
    exact ih.text
  | url _ ih =>
    rw [List.append_assoc]
    exact ih.url

theorem Tiles.reads {source : Source} {run : List Piece} {start stop : Nat} {nodes : List Node}
    (tiles : Tiles source run start nodes stop) (orderly : Orderly run)
    (cuts : RunCutsAt source run start) :
    RunCutsAt source run stop ∧
      ∃ chars, Reads nodes chars ∧ textBefore run start ++ chars = textBefore run stop := by
  induction tiles with
  | nil => exact ⟨cuts, [], .nil, by simp⟩
  | text sliced some read _ ih =>
    have forward := Source.lt_of_slice? sliced some
    obtain ⟨_, cutsMiddle⟩ := cuts_of_textBetween read forward
    obtain ⟨literal, same, split⟩ := textBetween_of_cuts orderly cuts cutsMiddle (by omega)
    obtain rfl := Option.some.inj (read.symm.trans same)
    obtain ⟨cutsStop, chars, reads, splitRest⟩ := ih cutsMiddle
    exact ⟨cutsStop, _, reads.text, by rw [← splitRest, ← split, List.append_assoc]⟩
  | url sliced some read _ ih =>
    have forward := Source.lt_of_slice? sliced some
    obtain ⟨_, cutsMiddle⟩ := cuts_of_textBetween read forward
    obtain ⟨literal, same, split⟩ := textBetween_of_cuts orderly cuts cutsMiddle (by omega)
    obtain rfl := Option.some.inj (read.symm.trans same)
    obtain ⟨cutsStop, chars, reads, splitRest⟩ := ih cutsMiddle
    exact ⟨cutsStop, _, reads.url, by rw [← splitRest, ← split, List.append_assoc]⟩

def runUrls (source : Source) (linkify : Bool) (start stop : Nat) : List Span :=
  if linkify then BareUrl.find source ⟨start, stop⟩ else []

theorem runUrls_eq_nil {source : Source} {linkify : Bool} {start stop : Nat}
    (off : linkify = false ∨ source.slice? ⟨start, stop⟩ = none) :
    runUrls source linkify start stop = [] := by
  rcases off with rfl | unsliced
  · rfl
  · simp [runUrls, BareUrl.find, unsliced]

theorem tiles_of_slice? {source : Source} {start stop : Nat} {text : List Char}
    (sliced : source.slice? ⟨start, stop⟩ = some text) (linkify : Bool) (run : List Piece) :
    Tiles source run start (splitAtUrls source run start (runUrls source linkify start stop)).1
        (splitAtUrls source run start (runUrls source linkify start stop)).2 ∧
      ∃ rest, source.slice?
        ⟨(splitAtUrls source run start (runUrls source linkify start stop)).2, stop⟩ = some rest := by
  cases linkify with
  | false => exact ⟨.nil, text, sliced⟩
  | true =>
    exact tiles_splitAtUrls (Source.slice?_empty sliced) sliced (BareUrl.partsOf_find sliced)

theorem tiles_runUrls (source : Source) (linkify : Bool) (run : List Piece) {start stop : Nat}
    (ordered : start ≤ stop) :
    Tiles source run start (splitAtUrls source run start (runUrls source linkify start stop)).1
        (splitAtUrls source run start (runUrls source linkify start stop)).2 ∧
      (splitAtUrls source run start (runUrls source linkify start stop)).2 ≤ stop := by
  cases sliced : source.slice? ⟨start, stop⟩ with
  | none =>
    rw [runUrls_eq_nil (.inr sliced)]
    exact ⟨.nil, ordered⟩
  | some text =>
    obtain ⟨tiles, rest, unread⟩ := tiles_of_slice? sliced linkify run
    have length := Source.length_slice? unread
    exact ⟨tiles, by omega⟩

theorem runNodes_eq (source : Source) (linkify : Bool) {run : List Piece} {first last : Piece}
    (head : run.head? = some first) (final : run.getLast? = some last) :
    runNodes source linkify run =
      let start := first.span.start
      let stop := max last.span.stop start
      let split := splitAtUrls source run start (runUrls source linkify start stop)
      if split.2 < stop || split.1.isEmpty then
        split.1 ++ [.ofText ⟨split.2, stop⟩
          ((textBetween source run split.2 stop).getD (textFrom run split.2))]
      else split.1 := by
  rw [runNodes, head, final]
  rfl

namespace Orderly

variable {source : Source} {run : List Piece}

theorem first_le (orderly : Orderly run) {first : Piece} (head : run.head? = some first) :
    ∀ piece ∈ run, first.span.start ≤ piece.span.start := by
  obtain ⟨rest, rfl⟩ := List.head?_eq_some_iff.mp head
  intro piece member
  rcases List.mem_cons.mp member with rfl | member
  · exact Nat.le_refl _
  · have some := orderly.nonempty first (List.mem_cons_self ..)
    have after := (List.pairwise_cons.mp orderly.ordered).1 piece member
    omega

theorem le_last (orderly : Orderly run) {last : Piece} (final : run.getLast? = some last) :
    ∀ piece ∈ run, piece.span.stop ≤ last.span.stop := by
  obtain ⟨front, rfl⟩ := List.getLast?_eq_some_iff.mp final
  intro piece member
  rcases List.mem_append.mp member with member | member
  · have after := (List.pairwise_append.mp orderly.ordered).2.2 piece member last (by simp)
    have some := orderly.nonempty last (by simp)
    omega
  · exact Nat.le_of_eq (congrArg (·.span.stop) (List.mem_singleton.mp member))

end Orderly

section rest

variable (source : Source) {run : List Piece} {start stop : Nat}

theorem reads_splitAtUrls (orderly : Orderly run)
    (starts : ∀ piece ∈ run, start ≤ piece.span.start) (ordered : start ≤ stop) (linkify : Bool) :
    RunCutsAt source run (splitAtUrls source run start (runUrls source linkify start stop)).2 ∧
      (splitAtUrls source run start (runUrls source linkify start stop)).2 ≤ stop ∧
      Reads (splitAtUrls source run start (runUrls source linkify start stop)).1
        (textBefore run (splitAtUrls source run start (runUrls source linkify start stop)).2) := by
  obtain ⟨tiles, inside⟩ := tiles_runUrls source linkify run ordered
  -- no piece reaches over the start of the run
  have cutsStart : RunCutsAt source run start := fun piece member within _ => by
    have from_start := starts piece member
    omega
  obtain ⟨cuts, chars, reads, read⟩ := tiles.reads orderly cutsStart
  rw [textBefore_of_le starts, List.nil_append] at read
  exact ⟨cuts, inside, read ▸ reads⟩

theorem textBetween_rest (orderly : Orderly run)
    (starts : ∀ piece ∈ run, start ≤ piece.span.start)
    (stops : ∀ piece ∈ run, piece.span.stop ≤ stop) (ordered : start ≤ stop) (linkify : Bool) :
    ∃ literal, textBetween source run
        (splitAtUrls source run start (runUrls source linkify start stop)).2 stop = some literal ∧
      textBefore run (splitAtUrls source run start (runUrls source linkify start stop)).2 ++
        literal.toList = run.flatMap (·.literal.toList) := by
  obtain ⟨cuts, inside, _⟩ := reads_splitAtUrls source orderly starts ordered linkify
  -- no piece reaches over the end of the run
  have cutsStop : RunCutsAt source run stop := fun piece member _ within => by
    have to_stop := stops piece member
    omega
  obtain ⟨literal, between, whole⟩ := textBetween_of_cuts orderly cuts cutsStop inside
  exact ⟨literal, between, whole.trans (textBefore_of_ge orderly stops)⟩

end rest

/-- The nodes of an orderly run read as its pieces, one after the other. -/
theorem reads_runNodes (source : Source) (linkify : Bool) {run : List Piece}
    (orderly : Orderly run) (some : run ≠ []) :
    runNodes source linkify run ≠ [] ∧
      Reads (runNodes source linkify run) (run.flatMap (·.literal.toList)) := by
  obtain ⟨first, rest, cons⟩ := List.exists_cons_of_ne_nil some
  have head : run.head? = .some first := by rw [cons]; rfl
  obtain ⟨last, final⟩ : ∃ last, run.getLast? = .some last :=
    ⟨_, List.getLast?_eq_some_getLast some⟩
  rw [runNodes_eq source linkify head final]
  dsimp only
  have starts := orderly.first_le head
  have stops : ∀ piece ∈ run, piece.span.stop ≤ max last.span.stop first.span.start :=
    fun piece member => Nat.le_trans (orderly.le_last final piece member) (Nat.le_max_left ..)
  generalize first.span.start = start at starts stops ⊢
  generalize stopEq : max last.span.stop start = stop at stops ⊢
  have ordered : start ≤ stop := by omega
  obtain ⟨_, inside, reads⟩ := reads_splitAtUrls source orderly starts ordered linkify
  obtain ⟨literal, between, whole⟩ := textBetween_rest source orderly starts stops ordered linkify
  generalize splitAtUrls source run start (runUrls source linkify start stop) = split
    at inside reads between whole ⊢
  split
  · rw [between, Option.getD_some, ← whole]
    exact ⟨by simp, reads.concat _ _⟩
  · rename_i complete
    rw [Bool.or_eq_true, decide_eq_true_eq, not_or] at complete
    have atEnd : split.2 = stop := by omega
    rw [← textBefore_of_ge orderly stops, ← atEnd]
    exact ⟨by simpa using complete.2, reads⟩

theorem addBreak_cons {node : Node} {rest : List Node} (some : rest ≠ []) (lineBreak : LineBreak) :
    addBreak (node :: rest) lineBreak = node :: addBreak rest lineBreak := by
  obtain ⟨next, more, rfl⟩ := List.exists_cons_of_ne_nil some
  unfold addBreak
  rw [List.getLast?_cons_cons, List.dropLast_cons_cons]
  split <;> rfl

end CanonicalMarkdown
