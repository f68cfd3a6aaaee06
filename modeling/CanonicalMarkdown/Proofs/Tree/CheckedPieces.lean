import CanonicalMarkdown.Proofs.Tree.CheckedSource
import CanonicalMarkdown.Proofs.Tree.TextPieces
import Mathlib.Data.List.Induction

namespace CanonicalMarkdown

open Text

theorem Text.takeBytes_concat (front : List Char) (last : Char) :
    takeBytes (byteLength (front ++ [last]) - last.utf8Size) (front ++ [last]) = some front := by
  simp

namespace Checked

def trimUrl (url : List Char) : Checked (List Char) :=
  match _ends : url.getLast? with
  | none => .ok url
  | some last =>
    if BareUrl.isTrailing last || (last = ')' && url.count '(' < url.count ')') then
      match _cut : takeBytes (byteLength url - last.utf8Size) url with
      | none => .error .slice
      | some shorter => trimUrl shorter
    else .ok url
termination_by url.length
decreasing_by
  obtain ⟨front, rfl⟩ := List.getLast?_eq_some_iff.mp _ends
  rw [takeBytes_concat] at _cut
  obtain rfl := Option.some.inj _cut
  simp

def url? (offset : Nat) (text : List Char) (candidate : BareUrl.Candidate) :
    Checked (Option Span) := do
  let before ← upTo (candidate.offset - offset) text
  let url ← trimUrl candidate.text
  return if before.getLast?.all BareUrl.mayPrecede && BareUrl.schemeLength url < byteLength url then
    some ⟨candidate.offset, candidate.offset + byteLength url⟩ else none

def urls (offset : Nat) (text : List Char) : List BareUrl.Candidate → Checked (List Span)
  | [] => return []
  | candidate :: rest => do
    let url? ← url? offset text candidate
    return url?.toList ++ (← urls offset text rest)

def findUrls (source : Source) (span : Span) : Checked (List Span) := do
  let text ← sliceOf source span
  urls span.start text (BareUrl.candidates span.start none false text)

def runUrls (source : Source) (linkify : Bool) (start stop : Nat) : Checked (List Span) :=
  if linkify then findUrls source ⟨start, stop⟩ else return []

def between (source : Source) (piece : Piece) (start stop : Nat) : Checked (Option String) :=
  let first := max piece.span.start start
  let last := min piece.span.stop stop
  if last ≤ first then return some ""
  else if first = piece.span.start ∧ last = piece.span.stop then return some piece.literal
  else do
    let written ← sliceOf source piece.span
    if written = piece.literal.toList then
      let part ← ofSlice
        (slice? piece.literal.toList (first - piece.span.start) (last - piece.span.start))
      return some (String.ofList part)
    else return none

def textBetween (source : Source) (start stop : Nat) : List Piece → Checked (Option String)
  | [] => return some ""
  | piece :: rest => do
    match ← between source piece start stop with
    | none => return none
    | some text => return (← textBetween source start stop rest).map (text ++ ·)

def splitAtUrls (source : Source) (run : List Piece) (cursor : Nat) :
    List Span → Checked (List Node × Nat)
  | [] => return ([], cursor)
  | url :: more => do
    match ← textBetween source url.start url.stop run,
        ← textBetween source cursor url.start run with
    | some label, some before =>
      let (nodes, last) ← splitAtUrls source run url.stop more
      let text := if cursor < url.start then [Node.ofText ⟨cursor, url.start⟩ before] else []
      return (text ++ .ofBareUrl url label :: nodes, last)
    | _, _ => splitAtUrls source run cursor more

def runNodes (source : Source) (linkify : Bool) (run : List Piece) : Checked (List Node) :=
  match run.head?, run.getLast? with
  | some first, some last => do
    let start := first.span.start
    let stop := max last.span.stop start
    let urls ← runUrls source linkify start stop
    let (nodes, cursor) ← splitAtUrls source run start urls
    if cursor < stop || nodes.isEmpty then
      let literal := (← textBetween source cursor stop run).getD (textFrom run cursor)
      return nodes ++ [.ofText ⟨cursor, stop⟩ literal]
    else return nodes
  | _, _ => return []

def inlineNodes (source : Source) (linkify : Bool) (run : List Piece)
    (lineBreak : Option LineBreak) : Checked (List Node) := do
  let nodes ← runNodes source linkify run
  match lineBreak with
  | some lineBreak => return addBreak nodes lineBreak
  | none => return nodes

end Checked

namespace BareUrl

theorem trimUrl_eq (url : List Char) : Checked.trimUrl url = .ok (withoutTrailing url) := by
  induction url using List.reverseRecOn with
  | nil =>
    rw [Checked.trimUrl]
    rfl
  | append_singleton front last ih =>
    rw [Checked.trimUrl, withoutTrailing_concat]
    split
    · rename_i empty
      simp at empty
    · rename_i c ends
      obtain rfl : last = c := by simpa using ends
      split
      · split
        · rename_i cut
          rw [takeBytes_concat] at cut
          contradiction
        · rename_i cut
          rw [takeBytes_concat] at cut
          rw [← Option.some.inj cut, ih]
      · rfl

theorem candidates_stand (offset : Nat) (before? : Option Char) (inside : Bool)
    (text : List Char) : ∀ candidate ∈ candidates offset before? inside text,
      ∃ front rest, text = front ++ rest ∧ candidate.offset = offset + byteLength front ∧
        candidate.before? = front.getLast?.or before? := by
  have later {offset : Nat} {before? : Option Char} {c : Char} {rest : List Char}
      {candidate : Candidate} (stands : ∃ front more, rest = front ++ more ∧
        candidate.offset = offset + c.utf8Size + byteLength front ∧
        candidate.before? = front.getLast?.or (some c)) :
      ∃ front more, c :: rest = front ++ more ∧ candidate.offset = offset + byteLength front ∧
        candidate.before? = front.getLast?.or before? := by
    obtain ⟨front, more, rfl, place, before⟩ := stands
    refine ⟨c :: front, more, rfl, by rw [place, byteLength_cons, Nat.add_assoc], ?_⟩
    rw [before, List.getLast?_cons]
    cases front.getLast? <;> rfl
  fun_induction candidates offset before? inside text with
  | case1 => simp
  | case2 offset before? inside c rest _ ih =>
    exact fun candidate member => later (ih candidate member)
  | case3 offset before? c rest _ ih =>
    exact fun candidate member => later (ih candidate member)
  | case4 offset before? inside c rest _ _ _ ih =>
    intro candidate member
    rcases List.mem_cons.mp member with rfl | member
    · exact ⟨[], c :: rest, rfl, rfl, rfl⟩
    · exact later (ih candidate member)
  | case5 offset before? inside c rest _ _ _ ih =>
    exact fun candidate member => later (ih candidate member)

theorem url?_eq {offset : Nat} {text : List Char} {candidate : Candidate}
    (stands : ∃ front rest, text = front ++ rest ∧
      candidate.offset = offset + byteLength front ∧ candidate.before? = front.getLast?.or none) :
    Checked.url? offset text candidate = .ok (url? candidate) := by
  obtain ⟨front, rest, rfl, place, before⟩ := stands
  have cut : takeBytes (candidate.offset - offset) (front ++ rest) = some front := by
    rw [place, Nat.add_sub_cancel_left, takeBytes_byteLength_append]
  rw [Option.or_none] at before
  simp only [Checked.url?, Checked.upTo, cut, Checked.ofSlice_some, Checked.ok_bind, trimUrl_eq,
    Checked.pure_eq, url?, before]

theorem urls_eq {offset : Nat} {text : List Char} {candidates : List Candidate}
    (stand : ∀ candidate ∈ candidates, ∃ front rest, text = front ++ rest ∧
      candidate.offset = offset + byteLength front ∧ candidate.before? = front.getLast?.or none) :
    Checked.urls offset text candidates = .ok (candidates.filterMap url?) := by
  induction candidates with
  | nil => rfl
  | cons candidate rest ih =>
    rw [Checked.urls, url?_eq (stand candidate (by simp)),
      ih fun other member => stand other (by simp [member])]
    cases found : url? candidate <;> simp [found]

theorem findUrls_eq {source : Source} {span : Span} {text : List Char}
    (sliced : source.slice? span = some text) :
    Checked.findUrls source span = .ok (find source span) := by
  simp only [Checked.findUrls, Checked.sliceOf, sliced, Checked.ofSlice_some, Checked.ok_bind,
    find, urls_eq (candidates_stand span.start none false text)]

theorem PartsOf.isBoundary {source : Source} {offset stop : Nat} {text : List Char}
    {spans : List Span} (parts : PartsOf offset text spans)
    (sliced : source.slice? ⟨offset, stop⟩ = some text) :
    ∀ span ∈ spans, source.IsBoundary span.start ∧ source.IsBoundary span.stop := by
  induction parts with
  | nil => simp
  | @cons offset before part after more _ _ ih =>
    obtain ⟨_, ahead⟩ := Source.slice?_split sliced
    obtain ⟨address, behind⟩ := Source.slice?_split ahead
    intro span member
    rcases List.mem_cons.mp member with rfl | member
    · exact Source.IsBoundary.of_slice? address
    · exact ih behind span member

end BareUrl

/-- The pieces lie inside the source on character boundaries. -/
def Sliced (source : Source) (run : List Piece) : Prop :=
  ∀ piece ∈ run, ∃ text, source.slice? piece.span = some text

variable {source : Source} {start stop : Nat}

theorem Source.slice?_inside {first last : Nat} {text : List Char}
    (sliced : source.slice? ⟨start, stop⟩ = some text) (from_start : start ≤ first)
    (ordered : first ≤ last) (to_stop : last ≤ stop) (cutsFirst : source.IsBoundary first)
    (cutsLast : source.IsBoundary last) :
    ∃ part, Text.slice? text (first - start) (last - start) = some part := by
  obtain ⟨cutsStart, cutsStop⟩ := IsBoundary.of_slice? sliced
  obtain ⟨front, sliceFront⟩ := cutsStart.slice? cutsFirst from_start
  obtain ⟨part, slicePart⟩ := cutsFirst.slice? cutsLast ordered
  obtain ⟨back, sliceBack⟩ := cutsLast.slice? cutsStop to_stop
  have whole := slice?_append sliceFront (slice?_append slicePart sliceBack)
  obtain rfl := Option.some.inj (sliced.symm.trans whole)
  have lengthFront := length_slice? sliceFront
  have lengthPart := length_slice? slicePart
  have place : first - start = byteLength front := by omega
  have placeEnd : last - start = byteLength front + byteLength part := by omega
  rw [place, placeEnd]
  exact ⟨part, Text.slice?_append front part back⟩

theorem Piece.between_eq {piece : Piece} (sliced : ∃ text, source.slice? piece.span = some text)
    (cutsStart : source.IsBoundary start) (cutsStop : source.IsBoundary stop) :
    Checked.between source piece start stop = .ok (Piece.between source piece start stop) := by
  obtain ⟨text, written⟩ := sliced
  obtain ⟨pieceStart, pieceStop⟩ := Source.IsBoundary.of_slice? written
  unfold Checked.between Piece.between
  by_cases apart : min piece.span.stop stop ≤ max piece.span.start start
  · simp only [if_pos apart, Checked.pure_eq]
  by_cases whole : max piece.span.start start = piece.span.start ∧
      min piece.span.stop stop = piece.span.stop
  · simp only [if_neg apart, if_pos whole, Checked.pure_eq]
  simp only [if_neg apart, if_neg whole, Checked.sliceOf, written, Checked.ofSlice_some,
    Checked.ok_bind, Option.some.injEq]
  by_cases same : text = piece.literal.toList
  · subst same
    obtain ⟨part, cut⟩ := Source.slice?_inside written (Nat.le_max_left _ _)
      (Nat.le_of_not_le apart) (Nat.min_le_left _ _) (pieceStart.larger cutsStart)
      (pieceStop.smaller cutsStop)
    simp only [if_true, cut, Checked.ofSlice_some, Checked.ok_bind, Checked.pure_eq,
      Option.map_some]
  · simp only [if_neg same, Checked.pure_eq]

section Run

variable {run : List Piece}

theorem Sliced.textBetween_eq (sliced : Sliced source run) (cutsStart : source.IsBoundary start)
    (cutsStop : source.IsBoundary stop) :
    Checked.textBetween source start stop run = .ok (textBetween source run start stop) := by
  induction run with
  | nil => simp [Checked.textBetween, textBetween]
  | cons piece rest ih =>
    rw [Checked.textBetween, Piece.between_eq (sliced piece (by simp)) cutsStart cutsStop,
      ih fun other member => sliced other (by simp [member]), textBetween_cons]
    cases Piece.between source piece start stop <;> rfl

theorem Sliced.splitAtUrls_eq (sliced : Sliced source run) {urls : List Span}
    (cuts : ∀ url ∈ urls, source.IsBoundary url.start ∧ source.IsBoundary url.stop)
    {cursor : Nat} (cutsCursor : source.IsBoundary cursor) :
    Checked.splitAtUrls source run cursor urls = .ok (splitAtUrls source run cursor urls) ∧
      source.IsBoundary (splitAtUrls source run cursor urls).2 := by
  induction urls generalizing cursor with
  | nil => exact ⟨rfl, cutsCursor⟩
  | cons url more ih =>
    obtain ⟨cutsStart, cutsStop⟩ := cuts url (by simp)
    have cutsMore := fun other (member : other ∈ more) => cuts other (by simp [member])
    rw [Checked.splitAtUrls, splitAtUrls, sliced.textBetween_eq cutsStart cutsStop,
      sliced.textBetween_eq cutsCursor cutsStart]
    have skipped := ih cutsMore cutsCursor
    cases textBetween source run url.start url.stop with
    | none => exact skipped
    | some label =>
      cases textBetween source run cursor url.start with
      | none => exact skipped
      | some before =>
        obtain ⟨same, behind⟩ := ih cutsMore cutsStop
        simp only [Checked.ok_bind, same, Checked.pure_eq]
        exact ⟨trivial, behind⟩

theorem runUrls_eq {source : Source} (linkify : Bool) {start stop : Nat} {text : List Char}
    (sliced : source.slice? ⟨start, stop⟩ = some text) :
    Checked.runUrls source linkify start stop = .ok (runUrls source linkify start stop) ∧
      ∀ url ∈ runUrls source linkify start stop,
        source.IsBoundary url.start ∧ source.IsBoundary url.stop := by
  cases linkify with
  | false => exact ⟨rfl, by simp [runUrls]⟩
  | true => exact ⟨BareUrl.findUrls_eq sliced, (BareUrl.partsOf_find sliced).isBoundary sliced⟩

theorem Sliced.runNodes_eq (sliced : Sliced source run) (linkify : Bool) :
    Checked.runNodes source linkify run = .ok (runNodes source linkify run) := by
  cases head : run.head? with
  | none => simp only [Checked.runNodes, runNodes, head, Checked.pure_eq]
  | some first =>
    cases final : run.getLast? with
    | none => simp only [Checked.runNodes, runNodes, head, final, Checked.pure_eq]
    | some last =>
      obtain ⟨_, writtenFirst⟩ := sliced first (List.mem_of_head? head)
      obtain ⟨_, writtenLast⟩ := sliced last (List.mem_of_getLast? final)
      have cutsStart : source.IsBoundary first.span.start :=
        (Source.IsBoundary.of_slice? writtenFirst).1
      have cutsStop : source.IsBoundary (max last.span.stop first.span.start) :=
        (Source.IsBoundary.of_slice? writtenLast).2.larger cutsStart
      obtain ⟨text, whole⟩ := cutsStart.slice? cutsStop (Nat.le_max_right _ _)
      obtain ⟨found, cutsUrls⟩ := runUrls_eq linkify whole
      obtain ⟨split, cutsCursor⟩ := sliced.splitAtUrls_eq cutsUrls cutsStart
      have literal := sliced.textBetween_eq cutsCursor cutsStop
      rw [CanonicalMarkdown.runNodes_eq source linkify head final]
      simp only [Checked.runNodes, head, final, found, Checked.ok_bind, split, literal,
        Checked.pure_eq]
      split <;> rfl

theorem Sliced.inlineNodes_eq (sliced : Sliced source run) (linkify : Bool)
    (lineBreak : Option LineBreak) :
    Checked.inlineNodes source linkify run lineBreak =
      .ok (inlineNodes source linkify run lineBreak) := by
  rw [Checked.inlineNodes, sliced.runNodes_eq]
  cases lineBreak <;> rfl

end Run

end CanonicalMarkdown
