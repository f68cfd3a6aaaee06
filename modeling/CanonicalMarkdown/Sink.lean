import CanonicalMarkdown.Renderer

namespace CanonicalMarkdown

structure Sink where
  /-- How many more bytes the sink takes; without a limit, any number. -/
  room : Option Nat := none
  received : List UInt8 := []
  /-- The most bytes that each of the next writes takes, though at least one; later writes take all
      for which there is room. -/
  portions : List Nat := []
deriving DecidableEq, Repr, Inhabited

namespace Sink

def portion (sink : Sink) (bytes : List UInt8) : List UInt8 :=
  match sink.portions with
  | [] => bytes
  | most :: _ => bytes.take (max most 1)

def share (sink : Sink) (bytes : List UInt8) : List UInt8 :=
  match sink.room with
  | none => sink.portion bytes
  | some room => (sink.portion bytes).take room

def take (sink : Sink) (bytes : List UInt8) : Sink where
  room := sink.room.map (· - bytes.length)
  received := sink.received ++ bytes
  portions := sink.portions.tail

/-- One write: the sink after it, and the bytes left over. A write of something into a full sink is
    refused. -/
def write (sink : Sink) (bytes : List UInt8) : Option (Sink × List UInt8) :=
  if sink.room = some 0 ∧ bytes ≠ [] then none
  else
    let share := sink.share bytes
    some (sink.take share, bytes.drop share.length)

theorem share_begins (sink : Sink) (bytes : List UInt8) : sink.share bytes <+: bytes := by
  have portioned : sink.portion bytes <+: bytes := by
    unfold portion
    split
    · exact List.prefix_refl bytes
    · exact List.take_prefix _ bytes
  unfold share
  split
  · exact portioned
  · exact (List.take_prefix _ _).trans portioned

theorem share_ne_nil {sink : Sink} {bytes : List UInt8} (someBytes : bytes ≠ [])
    (notFull : sink.room ≠ some 0) : sink.share bytes ≠ [] := by
  have portioned : sink.portion bytes ≠ [] := by
    unfold portion
    split
    · exact someBytes
    · simp [someBytes]
  unfold share
  split
  · exact portioned
  · rename_i room limited
    have positive : room ≠ 0 := fun zero => notFull (by rw [limited, zero])
    simp [positive, portioned]

theorem length_of_write {sink next : Sink} {bytes rest : List UInt8} (someBytes : bytes ≠ [])
    (written : sink.write bytes = some (next, rest)) : rest.length < bytes.length := by
  unfold write at written
  split at written
  · contradiction
  · rename_i notFull
    cases written
    have taken := share_ne_nil someBytes fun full => notFull ⟨full, someBytes⟩
    have positive := List.length_pos_iff.mpr taken
    have bounded := (share_begins sink bytes).length_le
    rw [List.length_drop]
    omega

def drain (sink : Sink) (bytes : List UInt8) : Sink × List UInt8 :=
  if _empty : bytes = [] then (sink, [])
  else
    match _written : sink.write bytes with
    | none => (sink, bytes)
    | some (next, rest) => next.drain rest
termination_by bytes.length
decreasing_by exact length_of_write _empty _written

end Sink

structure BufferedSink where
  sink : Sink
  buffer : List UInt8 := []
deriving DecidableEq, Repr, Inhabited

namespace BufferedSink

def capacity : Nat := 8192

/-- Hands the buffer to the sink; what the sink refuses stays buffered. -/
def flush (writer : BufferedSink) : BufferedSink :=
  let (sink, buffer) := writer.sink.drain writer.buffer
  { sink, buffer }

def append (writer : BufferedSink) (bytes : List UInt8) : BufferedSink :=
  { writer with buffer := writer.buffer ++ bytes }

/-- Writes all bytes, and tells whether they were accepted. They are buffered while there is space;
    when there is not, the buffer is flushed first, and a piece as large as the buffer goes to the
    sink directly. -/
def write (writer : BufferedSink) (bytes : List UInt8) : BufferedSink × Bool :=
  if bytes = [] then (writer, true)
  else
    let spare := capacity - writer.buffer.length
    if bytes.length < spare then (writer.append bytes, true)
    else
      let flushed := if spare < bytes.length then writer.flush else writer
      if spare < bytes.length ∧ flushed.buffer ≠ [] then (flushed, false)
      else if bytes.length < capacity then (flushed.append bytes, true)
      else
        match _written : flushed.sink.write bytes with
        | none => (flushed, false)
        | some (sink, rest) => write { flushed with sink } rest
termination_by bytes.length
decreasing_by exact Sink.length_of_write (by assumption) _written

def writeAll (writer : BufferedSink) : List (List UInt8) → BufferedSink × Bool
  | [] => (writer, true)
  | bytes :: rest =>
    match writer.write bytes with
    | (next, true) => next.writeAll rest
    | (next, false) => (next, false)

end BufferedSink

structure Delivery where
  received : List UInt8
  error : Option RenderError
deriving DecidableEq, Repr, Inhabited

def Sink.deliver (sink : Sink) (page : Page) (error : Option RenderError) : Delivery :=
  let pieces := page.pieces.reverse.map fun piece => Text.bytes piece.toList
  let (writer, accepted) := BufferedSink.writeAll { sink } pieces
  let flushed := writer.flush
  let refused := RenderError.refused "sink closed"
  if !accepted then ⟨flushed.sink.received, some refused⟩
  else match error with
    | some error => ⟨flushed.sink.received, some error⟩
    | none => ⟨flushed.sink.received, if flushed.buffer = [] then none else some refused⟩

def Renderer.renderTo (renderer : Renderer) (document : Document) (sink : Sink) : Delivery :=
  match renderer.run document with
  | .done page | .stopped page => sink.deliver page none
  | .failed page error => sink.deliver page (some error)

end CanonicalMarkdown
