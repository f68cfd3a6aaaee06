import CanonicalMarkdown.Proofs.Html.RuleSet
import CanonicalMarkdown.Sink

namespace CanonicalMarkdown

theorem Text.bytes_append (left right : List Char) :
    bytes (left ++ right) = bytes left ++ bytes right := by
  rw [bytes, List.flatMap_append]
  rfl

theorem Text.bytes_join (pieces : List String) :
    bytes (String.join pieces).toList = (pieces.map fun piece => bytes piece.toList).flatten := by
  induction pieces with
  | nil => rfl
  | cons piece rest ih =>
    have joined : String.join (piece :: rest) = piece ++ String.join rest := by simp
    rw [joined, String.toList_append, bytes_append, ih]
    rfl

namespace Sink

/-- The sink has room for the bytes, and the other sink is what becomes of it when it takes them. -/
structure Takes (sink next : Sink) (bytes : List UInt8) : Prop where
  received : next.received = sink.received ++ bytes
  room : next.room = sink.room.map (· - bytes.length)
  fits : ∀ room, sink.room = some room → bytes.length ≤ room

variable {sink between next : Sink} {bytes more rest : List UInt8}

theorem Takes.refl (sink : Sink) : sink.Takes sink [] where
  received := (List.append_nil _).symm
  room := by cases sink.room <;> rfl
  fits _ _ := Nat.zero_le _

theorem Takes.trans (first : sink.Takes between bytes) (second : between.Takes next more) :
    sink.Takes next (bytes ++ more) where
  received := by rw [second.received, first.received, List.append_assoc]
  room := by
    rw [second.room, first.room, Option.map_map, List.length_append]
    congr 1
    funext room
    exact Nat.sub_sub ..
  fits room limited := by
    have before := first.fits room limited
    have after := second.fits (room - bytes.length) (by rw [first.room, limited]; rfl)
    rw [List.length_append]
    omega

theorem Takes.eq_nil (takes : sink.Takes next bytes) (full : sink.room = some 0) : bytes = [] :=
  List.eq_nil_of_length_eq_zero (Nat.le_zero.mp (takes.fits 0 full))

theorem write_eq_none (refused : sink.write bytes = none) : sink.room = some 0 ∧ bytes ≠ [] := by
  unfold write at refused
  split at refused
  · assumption
  · contradiction

theorem write_eq_some (written : sink.write bytes = some (next, rest)) :
    ∃ taken, bytes = taken ++ rest ∧ sink.Takes next taken := by
  unfold write at written
  split at written
  · contradiction
  · cases written
    obtain ⟨rest, split⟩ := share_begins sink bytes
    have left : bytes.drop (sink.share bytes).length = rest :=
      calc bytes.drop (sink.share bytes).length
        _ = (sink.share bytes ++ rest).drop (sink.share bytes).length := by rw [split]
        _ = rest := List.drop_left
    refine ⟨sink.share bytes, by rw [left, split], rfl, rfl, fun room limited => ?_⟩
    simp only [share, limited, List.length_take]
    exact Nat.min_le_left ..

theorem drain_takes (sink : Sink) (bytes : List UInt8) :
    ∃ taken, bytes = taken ++ (sink.drain bytes).2 ∧ sink.Takes (sink.drain bytes).1 taken ∧
      ((sink.drain bytes).2 ≠ [] → (sink.drain bytes).1.room = some 0) := by
  fun_induction drain sink bytes with
  | case1 sink => exact ⟨[], rfl, .refl sink, fun left => absurd rfl left⟩
  | case2 sink bytes _ refused => exact ⟨[], rfl, .refl sink, fun _ => (write_eq_none refused).1⟩
  | case3 sink bytes _ next rest written ih =>
    obtain ⟨taken, split, takes⟩ := write_eq_some written
    obtain ⟨more, splitRest, takesMore, full⟩ := ih
    exact ⟨taken ++ more, by rw [List.append_assoc, ← splitRest, split], takes.trans takesMore, full⟩

end Sink

namespace BufferedSink

variable {start : Sink} {writer : BufferedSink} {text bytes more : List UInt8}

/-- Of the text handed over, the sink has taken the beginning, and the buffer holds the rest. -/
def Holds (start : Sink) (writer : BufferedSink) (text : List UInt8) : Prop :=
  ∃ sent, start.Takes writer.sink sent ∧ text = sent ++ writer.buffer

/-- The sink is full, and there is more of the text than it has taken. -/
def Refuses (start : Sink) (writer : BufferedSink) (text : List UInt8) : Prop :=
  ∃ sent lost, start.Takes writer.sink sent ∧ text = sent ++ lost ∧ lost ≠ [] ∧
    writer.sink.room = some 0

def Answers (start : Sink) (outcome : BufferedSink × Bool) (text : List UInt8) : Prop :=
  if outcome.2 then Holds start outcome.1 text else Refuses start outcome.1 text

theorem Holds.append (holds : Holds start writer text) (bytes : List UInt8) :
    Holds start (writer.append bytes) (text ++ bytes) := by
  obtain ⟨sent, takes, rfl⟩ := holds
  exact ⟨sent, takes, List.append_assoc ..⟩

theorem Holds.flush (holds : Holds start writer text) : Holds start writer.flush text ∧
    (writer.flush.buffer ≠ [] → writer.flush.sink.room = some 0) := by
  obtain ⟨sent, takes, rfl⟩ := holds
  obtain ⟨taken, split, takesMore, full⟩ := writer.sink.drain_takes writer.buffer
  exact ⟨⟨sent ++ taken, takes.trans takesMore, by rw [List.append_assoc, flush, ← split]⟩, full⟩

theorem Holds.refuses (holds : Holds start writer text) (full : writer.sink.room = some 0)
    (lost : writer.buffer ++ bytes ≠ []) : Refuses start writer (text ++ bytes) := by
  obtain ⟨sent, takes, rfl⟩ := holds
  exact ⟨sent, _, takes, List.append_assoc .., lost, full⟩

theorem Refuses.append (refuses : Refuses start writer text) (bytes : List UInt8) :
    Refuses start writer (text ++ bytes) := by
  obtain ⟨sent, lost, takes, rfl, some, full⟩ := refuses
  exact ⟨sent, lost ++ bytes, takes, List.append_assoc .., by simp [some], full⟩

theorem Holds.flushed {flushed : BufferedSink} {full : Prop} [Decidable full]
    (holds : Holds start writer text)
    (flushes : flushed = if full then writer.flush else writer) :
    Holds start flushed text ∧ (full → flushed.buffer ≠ [] → flushed.sink.room = some 0) := by
  subst flushes
  by_cases now : full
  · rw [if_pos now]
    exact ⟨holds.flush.1, fun _ => holds.flush.2⟩
  · rw [if_neg now]
    exact ⟨holds, fun full => absurd full now⟩

theorem Holds.write (holds : Holds start writer text) (bytes : List UInt8) :
    Answers start (writer.write bytes) (text ++ bytes) := by
  fun_induction BufferedSink.write writer bytes generalizing text with
  | case1 writer =>
    show Holds start writer (text ++ [])
    rwa [List.append_nil]
  | case2 writer bytes => exact holds.append bytes
  | case3 writer bytes nonempty spare _ flushed =>
    rename_i kept
    have flushes : flushed = if spare < bytes.length then writer.flush else writer := rfl
    obtain ⟨after, full⟩ := holds.flushed flushes
    exact after.refuses (full kept.1 kept.2) (by simp [nonempty])
  | case4 writer bytes _ spare _ flushed =>
    have flushes : flushed = if spare < bytes.length then writer.flush else writer := rfl
    exact (holds.flushed flushes).1.append bytes
  | case5 writer bytes _ spare _ flushed =>
    rename_i refused
    have flushes : flushed = if spare < bytes.length then writer.flush else writer := rfl
    obtain ⟨full, nonempty⟩ := Sink.write_eq_none refused
    exact (holds.flushed flushes).1.refuses full (by simp [nonempty])
  | case6 writer bytes _ spare tooLong flushed emptied large next rest written =>
    rename_i ih
    have flushes : flushed = if spare < bytes.length then writer.flush else writer := rfl
    obtain ⟨⟨sent, takes, handed⟩, -⟩ := holds.flushed flushes
    obtain ⟨taken, split, takesMore⟩ := Sink.write_eq_some written
    -- a piece as large as the buffer bypasses it, which keeps the order only if nothing is buffered
    have bare : flushed.buffer = [] := by
      by_cases full : spare < bytes.length
      · exact Classical.byContradiction fun kept => emptied ⟨full, kept⟩
      · have positive : 0 < capacity := by decide
        have unused : writer.buffer.length = 0 := by omega
        rw [flushes, if_neg full]
        exact List.length_eq_zero_iff.mp unused
    have after : Holds start { flushed with sink := next } (text ++ taken) :=
      ⟨sent ++ taken, takes.trans takesMore, by simp [handed, bare]⟩
    have answer := ih after
    rwa [List.append_assoc, ← split] at answer

theorem Holds.writeAll (holds : Holds start writer text) (pieces : List (List UInt8)) :
    Answers start (writer.writeAll pieces) (text ++ pieces.flatten) := by
  induction pieces generalizing writer text with
  | nil =>
    show Holds start writer (text ++ [])
    rwa [List.append_nil]
  | cons bytes rest ih =>
    have answer := holds.write bytes
    rw [List.flatten_cons, ← List.append_assoc, BufferedSink.writeAll]
    rcases outcome : writer.write bytes with ⟨next, _ | _⟩
    · rw [outcome] at answer
      exact Refuses.append answer rest.flatten
    · rw [outcome] at answer
      exact ih answer

end BufferedSink

namespace Sink

variable {sink : Sink}

theorem deliver_sends (sink : Sink) (page : Page) (error : Option RenderError) :
    ∃ next sent lost, Text.bytes page.text.toList = sent ++ lost ∧ sink.Takes next sent ∧
      (lost ≠ [] → next.room = some 0) ∧ (sink.deliver page error).received = next.received ∧
      ((sink.deliver page error).error = error ∧ (error = none → lost = []) ∨
        (sink.deliver page error).error = some (.refused "sink closed") ∧ lost ≠ []) := by
  let pieces := page.pieces.reverse.map fun piece => Text.bytes piece.toList
  have written : Text.bytes page.text.toList = pieces.flatten := by rw [Page.text, Text.bytes_join]
  have start : BufferedSink.Holds sink { sink } [] := ⟨[], .refl sink, rfl⟩
  have answer := start.writeAll pieces
  rw [List.nil_append] at answer
  rw [written]
  unfold deliver
  rcases outcome : BufferedSink.writeAll { sink } pieces with ⟨writer, _ | _⟩
  · rw [outcome] at answer
    obtain ⟨sent, lost, takes, split, nonempty, full⟩ := answer
    -- the last flush finds the sink full
    obtain ⟨taken, -, takesMore, -⟩ := writer.sink.drain_takes writer.buffer
    obtain rfl := takesMore.eq_nil full
    have takes := takes.trans takesMore
    rw [List.append_nil] at takes
    have room : writer.flush.sink.room = some 0 := by
      rw [BufferedSink.flush, takesMore.room, full]
      rfl
    refine ⟨writer.flush.sink, sent, lost, split, takes, fun _ => room, ?_⟩
    simp only [outcome, pieces] at *
    exact ⟨rfl, .inr ⟨rfl, nonempty⟩⟩
  · rw [outcome] at answer
    obtain ⟨⟨sent, takes, split⟩, full⟩ := BufferedSink.Holds.flush answer
    refine ⟨writer.flush.sink, sent, writer.flush.buffer, split, takes, full, ?_⟩
    simp only [outcome, pieces] at *
    cases error with
    | some error => exact ⟨rfl, .inl ⟨rfl, fun absent => absurd absent (Option.some_ne_none error)⟩⟩
    | none =>
      by_cases kept : writer.flush.buffer = []
      · exact ⟨rfl, .inl ⟨by simp [kept], fun _ => kept⟩⟩
      · exact ⟨rfl, .inr ⟨by simp [kept], kept⟩⟩

theorem deliver_unlimited {sink : Sink} (unlimited : sink.room = none) (page : Page)
    (error : Option RenderError) :
    sink.deliver page error = ⟨sink.received ++ Text.bytes page.text.toList, error⟩ := by
  obtain ⟨next, sent, lost, split, takes, full, received, outcome⟩ := sink.deliver_sends page error
  have nothingLost : lost = [] := by
    have room := takes.room
    rw [unlimited] at room
    exact Classical.byContradiction fun some => nomatch (full some).symm.trans room
  have calm : (sink.deliver page error).error = error := by
    rcases outcome with ⟨calm, -⟩ | ⟨-, some⟩
    · exact calm
    · exact absurd nothingLost some
  have whole : (sink.deliver page error).received = sink.received ++ Text.bytes page.text.toList := by
    rw [received, takes.received, split, nothingLost, List.append_nil]
  calc sink.deliver page error
    _ = ⟨(sink.deliver page error).received, (sink.deliver page error).error⟩ := rfl
    _ = ⟨sink.received ++ Text.bytes page.text.toList, error⟩ := by rw [whole, calm]

theorem deliver_limited {limit : Nat} (limited : sink.room = some limit) (page : Page)
    (error : Option RenderError) :
    (sink.deliver page error).received =
      sink.received ++ (Text.bytes page.text.toList).take limit ∧
    ((sink.deliver page error).error = error ∧
        (error = none → (Text.bytes page.text.toList).length ≤ limit) ∨
      (sink.deliver page error).error = some (.refused "sink closed") ∧
        limit < (Text.bytes page.text.toList).length) := by
  obtain ⟨next, sent, lost, split, takes, full, received, outcome⟩ := sink.deliver_sends page error
  have fits : sent.length ≤ limit := takes.fits limit limited
  have exhausted (some : lost ≠ []) : sent.length = limit := by
    have room := takes.room
    rw [full some, limited] at room
    simp only [Option.map_some, Option.some.injEq] at room
    omega
  have sentIsPrefix : (Text.bytes page.text.toList).take limit = sent := by
    rw [split]
    by_cases nothingLost : lost = []
    · rw [nothingLost, List.append_nil, List.take_of_length_le fits]
    · rw [← exhausted nothingLost, List.take_left]
  refine ⟨by rw [received, takes.received, sentIsPrefix], ?_⟩
  rcases outcome with ⟨same, calm⟩ | ⟨refused, some⟩
  · refine .inl ⟨same, fun absent => ?_⟩
    rw [split, calm absent, List.append_nil]
    exact fits
  · have positive := List.length_pos_iff.mpr some
    have before := exhausted some
    refine .inr ⟨refused, ?_⟩
    rw [split, List.length_append]
    omega

end Sink

theorem Renderer.renderTo_of_render {renderer : Renderer} {document : Document} {text : String}
    (rendered : renderer.render document = .ok text) (sink : Sink) :
    ∃ page : Page, page.text = text ∧ renderer.renderTo document sink = sink.deliver page none := by
  unfold render at rendered
  unfold renderTo
  cases walked : renderer.run document with
  | done page | stopped page =>
    rw [walked] at rendered
    exact ⟨page, Except.ok.inj rendered, rfl⟩
  | failed page error =>
    rw [walked] at rendered
    contradiction

/-- However a sink cuts what it is offered, it gets the beginning of the text for which it has room,
    and the rendering succeeds just if that is all of it. After a rule error it gets the beginning of
    what was written before, and it hides the error only if that was too long for it. -/
theorem Renderer.renderTo_limited {renderer : Renderer} {document : Document} {sink : Sink}
    {limit : Nat} (limited : sink.room = some limit) :
    (∀ text, renderer.render document = .ok text →
      renderer.renderTo document sink =
        { received := sink.received ++ (Text.bytes text.toList).take limit
          error :=
            if (Text.bytes text.toList).length ≤ limit then none else some (.refused "sink closed") }) ∧
    (∀ page error, renderer.run document = .failed page error →
      let written := Text.bytes page.text.toList
      let delivery := renderer.renderTo document sink
      delivery.received = sink.received ++ written.take limit ∧
      (delivery.error = some error ∨
        delivery.error = some (.refused "sink closed") ∧ limit < written.length)) := by
  constructor
  · intro text rendered
    obtain ⟨page, rfl, delivered⟩ := renderTo_of_render rendered sink
    obtain ⟨received, outcome⟩ := Sink.deliver_limited limited page none
    have error : (sink.deliver page none).error =
        if (Text.bytes page.text.toList).length ≤ limit then none
        else some (.refused "sink closed") := by
      rcases outcome with ⟨calm, fits⟩ | ⟨refused, long⟩
      · rw [calm, if_pos (fits rfl)]
      · rw [refused, if_neg (Nat.not_le.mpr long)]
    rw [delivered, ← received, ← error]
  · intro page error failed
    have delivered : renderer.renderTo document sink = sink.deliver page (some error) := by
      rw [renderTo, failed]
    obtain ⟨received, outcome⟩ := Sink.deliver_limited limited page (some error)
    simp only [delivered]
    exact ⟨received, outcome.imp_left And.left⟩

theorem Renderer.renderTo_limited_shortWrites :
    let renderer : Renderer := { table := Html.table }
    let line : Document := ⟨⟨[]⟩, .leaf (.text { segment := ⟨0, 0⟩, literal := "a<b" }) ⟨0, 0⟩⟩
    let stray : Document := ⟨⟨[]⟩, ⟨.paragraph, ⟨0, 0⟩, {}, [.leaf (.listItem 2) ⟨0, 0⟩]⟩⟩
    let sink : Sink := { room := some 3, portions := [2, 0] }
    renderer.renderTo line sink = ⟨Text.bytes "a&l".toList, some (.refused "sink closed")⟩ ∧
      (renderer.renderTo stray sink).received = Text.bytes "<p>".toList ∧
      (renderer.renderTo stray sink).error =
        some (.misplaced .listItem "list item outside a list") := by
  intro renderer line stray sink
  have rendered : renderer.render line = .ok "a&lt;b" := by rfl
  obtain ⟨page, failed, written⟩ : ∃ page,
      renderer.run stray = .failed page (.misplaced .listItem "list item outside a list") ∧
      page.text = "<p>" := ⟨_, rfl, by rfl⟩
  have room : sink.room = some 3 := rfl
  obtain ⟨received, error⟩ := (renderTo_limited room).2 page _ failed
  refine ⟨(renderTo_limited room).1 _ rendered, ?_, ?_⟩
  · rw [received, written]
    rfl
  · refine error.resolve_right fun refused => absurd refused.2 ?_
    rw [written]
    decide

end CanonicalMarkdown
