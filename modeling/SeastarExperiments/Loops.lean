import SeastarExperiments.Measurement

/-! The loops of `handle_connection`, as the functions their continuations compute. A loop is
either at the top of `seastar::repeat`, or suspended in one operation on a stream, or over. The
first turn of a `repeat` runs inside the call that starts it; a later turn is a step of its own, so
that `stop()` may come between two turns. What the streams do in between is left to the models
that use these loops. -/

namespace SeastarExperiments

/-- How a step of the writing loop begins. -/
inductive WriteEvent
  /-- `repeat` runs the loop body once more. -/
  | top
  /-- The future of `output.write` resolves and its continuation runs. -/
  | written
  /-- The future of `output.close` resolves and its continuation runs. -/
  | closed
  /-- The pending operation resolves with an exception. -/
  | failed
  deriving DecidableEq

inductive ReadEvent
  | top
  /-- The future of `input.read_exactly` resolves with a buffer of this size. -/
  | read (size : Nat)
  | failed
  deriving DecidableEq

inductive LoopEvent
  | write (e : WriteEvent)
  | read (e : ReadEvent)
  deriving DecidableEq

/-- The writing loop of the duplex `handle_connection`. -/
inductive WriteLoop
  | top
  | writing
  | closing
  | stopped
  | failed
  deriving DecidableEq

/-- The reading loop of the duplex `handle_connection`; a stopped one remembers whether it stopped
on an empty buffer or because of the interrupt flag. -/
inductive ReadLoop
  | top
  | reading
  | stopped (endOfStream : Bool)
  | failed
  deriving DecidableEq

namespace WriteLoop

def body (interrupted : Bool) : WriteLoop := if interrupted then .closing else .writing

def step (interrupted : Bool) : WriteLoop → WriteEvent → Option WriteLoop
  | .top, .top => some (body interrupted)
  | .writing, .written => some .top
  | .closing, .closed => some .stopped
  | .writing, .failed => some .failed
  | .closing, .failed => some .failed
  | _, _ => none

/-- The future of the loop has resolved, normally or with an exception. -/
def finished : WriteLoop → Bool
  | .stopped => true
  | .failed => true
  | _ => false

theorem step_finished {loop : WriteLoop} (h : loop.finished = true) (interrupted : Bool)
    (e : WriteEvent) : loop.step interrupted e = none := by
  cases loop <;> simp_all [finished, step]

end WriteLoop

namespace ReadLoop

def body (interrupted : Bool) : ReadLoop := if interrupted then .stopped false else .reading

/-- The continuation of `read_exactly`: an empty buffer ends the loop. -/
def onRead (size : Nat) : ReadLoop := if size > 0 then .top else .stopped true

def step (interrupted : Bool) : ReadLoop → ReadEvent → Option ReadLoop
  | .top, .top => some (body interrupted)
  | .reading, .read size => some (onRead size)
  | .reading, .failed => some .failed
  | _, _ => none

def finished : ReadLoop → Bool
  | .stopped _ => true
  | .failed => true
  | _ => false

theorem step_finished {loop : ReadLoop} (h : loop.finished = true) (interrupted : Bool)
    (e : ReadEvent) : loop.step interrupted e = none := by
  cases loop <;> simp_all [finished, step]

end ReadLoop

/-- One call of the duplex `handle_connection`, the overload without a task number. -/
structure Handler where
  writer : WriteLoop
  reader : ReadLoop
  deriving DecidableEq

/-- Both loops run their first turn before the call returns. -/
def handleConnection (interrupted : Bool) : Handler where
  writer := WriteLoop.body interrupted
  reader := ReadLoop.body interrupted

namespace Handler

def step (interrupted : Bool) (h : Handler) : LoopEvent → Option Handler
  | .write e => (h.writer.step interrupted e).map fun w => { h with writer := w }
  | .read e => (h.reader.step interrupted e).map fun r => { h with reader := r }

/-- `when_all_succeed` waits for both loops, whichever way they end. -/
def resolved (h : Handler) : Bool := h.writer.finished && h.reader.finished

theorem step_resolved {h : Handler} (hr : h.resolved = true) (interrupted : Bool)
    (e : LoopEvent) : h.step interrupted e = none := by
  obtain ⟨hw, hd⟩ := Bool.and_eq_true_iff.mp hr
  cases e with
  | write e => rw [step, WriteLoop.step_finished hw, Option.map_none]
  | read e => rw [step, ReadLoop.step_finished hd, Option.map_none]

end Handler

/-- The one loop of the ping-pong client's `handle_connection`. -/
inductive PingLoop
  | top
  | writing
  | reading
  | closing
  | stopped
  | failed
  deriving DecidableEq

namespace PingLoop

def body (interrupted : Bool) : PingLoop := if interrupted then .closing else .writing

/-- The continuation of `output.write`: an interrupt seen here ends the loop without a close. -/
def onWritten (interrupted : Bool) : PingLoop := if interrupted then .stopped else .reading

def onRead (size : Nat) : PingLoop := if size > 0 then .top else .stopped

def step (interrupted : Bool) : PingLoop → LoopEvent → Option PingLoop
  | .top, .write .top => some (body interrupted)
  | .writing, .write .written => some (onWritten interrupted)
  | .reading, .read (.read size) => some (onRead size)
  | .closing, .write .closed => some .stopped
  | .writing, .write .failed => some .failed
  | .closing, .write .failed => some .failed
  | .reading, .read .failed => some .failed
  | _, _ => none

def resolved : PingLoop → Bool
  | .stopped => true
  | .failed => true
  | _ => false

theorem step_resolved {loop : PingLoop} (h : loop.resolved = true) (interrupted : Bool)
    (e : LoopEvent) : loop.step interrupted e = none := by
  cases loop <;> simp_all [resolved, step]

/-- What a step of the loop can be. -/
inductive Moves (interrupted : Bool) : PingLoop → LoopEvent → PingLoop → Prop
  | top : Moves interrupted .top (.write .top) (body interrupted)
  | written : Moves interrupted .writing (.write .written) (onWritten interrupted)
  | read (size : Nat) : Moves interrupted .reading (.read (.read size)) (onRead size)
  | closed : Moves interrupted .closing (.write .closed) .stopped
  | writeFailed : Moves interrupted .writing (.write .failed) .failed
  | closeFailed : Moves interrupted .closing (.write .failed) .failed
  | readFailed : Moves interrupted .reading (.read .failed) .failed

theorem moves_of_step {loop loop' : PingLoop} {interrupted : Bool} {e : LoopEvent}
    (h : loop.step interrupted e = some loop') : Moves interrupted loop e loop' := by
  unfold step at h
  split at h <;> cases h
  · exact .top
  · exact .written
  · exact .read _
  · exact .closed
  · exact .writeFailed
  · exact .closeFailed
  · exact .readFailed

end PingLoop

/-- A `handle_connection` as the rest of the service sees it: what the call leaves behind, how its
continuations move it on, and when its future has resolved. -/
structure HandlerProgram (State : Type) where
  start : Bool → State
  step : Bool → State → LoopEvent → Option State
  resolved : State → Bool
  start_unresolved : ∀ interrupted, resolved (start interrupted) = false
  step_resolved : ∀ interrupted h e, resolved h = true → step interrupted h e = none

/-- `handle_connection` of `tcp_server`, of `tcp_client`, and the overload with one argument of
`tcp_server_pingpong`. -/
def duplexHandler : HandlerProgram Handler where
  start := handleConnection
  step := Handler.step
  resolved := Handler.resolved
  start_unresolved := by decide
  step_resolved interrupted _ e h := Handler.step_resolved h interrupted e

/-- `handle_connection` of `tcp_client_pingpong`. -/
def pingHandler : HandlerProgram PingLoop where
  start := PingLoop.body
  step := PingLoop.step
  resolved := PingLoop.resolved
  start_unresolved := by decide
  step_resolved interrupted _ e h := PingLoop.step_resolved h interrupted e

namespace LoopEvent

/-! ### What a continuation counts

The continuation of a write counts `DATA_SIZE` bytes and one packet; the continuation of a read
counts the size of its buffer and one packet, unless the buffer is empty. -/

def bytesWritten (dataSize : Nat) : LoopEvent → Nat
  | .write .written => dataSize
  | _ => 0

def packetsWritten : LoopEvent → Nat
  | .write .written => 1
  | _ => 0

def bytesRead : LoopEvent → Nat
  | .read (.read size) => size
  | _ => 0

def packetsRead : LoopEvent → Nat
  | .read (.read size) => if size > 0 then 1 else 0
  | _ => 0

end LoopEvent

/-- The two measuring devices of a shard. -/
structure Devices where
  readMeasurements : MeasurementDevice := {}
  writeMeasurements : MeasurementDevice := {}
  deriving DecidableEq

/-- What the clock shows when the timer's callback ticks one device and then the other. -/
structure TickTimes where
  read : Int
  write : Int
  deriving DecidableEq

namespace Devices

/-- The calls a loop's continuation makes on the devices. -/
def count (dataSize : Nat) (d : Devices) : LoopEvent → Devices
  | .write .written =>
      { d with
        writeMeasurements :=
          (d.writeMeasurements.addBytes (UInt64.ofNat dataSize)).addPackets 1 }
  | .read (.read size) =>
      if size > 0 then
        { d with
          readMeasurements :=
            (d.readMeasurements.addBytes (UInt64.ofNat size)).addPackets 1 }
      else d
  | _ => d

/-- The timer's callback. -/
def tick (d : Devices) (thisShardId : Nat) (now : TickTimes) : Devices where
  readMeasurements := d.readMeasurements.tick thisShardId now.read
  writeMeasurements := d.writeMeasurements.tick thisShardId now.write

theorem count_read (dataSize size : Nat) (d : Devices) :
    d.count dataSize (.read (.read size)) =
      if size > 0 then
        { d with
          readMeasurements :=
            (d.readMeasurements.addBytes (UInt64.ofNat size)).addPackets 1 }
      else d := rfl

theorem count_writeMeasurements (dataSize : Nat) (d : Devices) (e : LoopEvent) :
    (d.count dataSize e).writeMeasurements =
      (d.writeMeasurements.addBytes (UInt64.ofNat (e.bytesWritten dataSize))).addPackets
        (UInt64.ofNat e.packetsWritten) := by
  match e with
  | .write .written => rfl
  | .write .top | .write .closed | .write .failed | .read .top | .read .failed =>
      simp [count, LoopEvent.bytesWritten, LoopEvent.packetsWritten, MeasurementDevice.addBytes,
        MeasurementDevice.addPackets]
  | .read (.read size) =>
      rw [count_read]
      split <;> simp [LoopEvent.bytesWritten, LoopEvent.packetsWritten, MeasurementDevice.addBytes,
        MeasurementDevice.addPackets]

theorem count_readMeasurements (dataSize : Nat) (d : Devices) (e : LoopEvent) :
    (d.count dataSize e).readMeasurements =
      (d.readMeasurements.addBytes (UInt64.ofNat e.bytesRead)).addPackets
        (UInt64.ofNat e.packetsRead) := by
  match e with
  | .write .top | .write .written | .write .closed | .write .failed | .read .top | .read .failed =>
      simp [count, LoopEvent.bytesRead, LoopEvent.packetsRead, MeasurementDevice.addBytes,
        MeasurementDevice.addPackets]
  | .read (.read size) =>
      rw [count_read]
      by_cases hsize : size > 0
      · simp [LoopEvent.bytesRead, LoopEvent.packetsRead, hsize]
      · obtain rfl : size = 0 := by omega
        simp [LoopEvent.bytesRead, LoopEvent.packetsRead, MeasurementDevice.addBytes,
          MeasurementDevice.addPackets]

end Devices

end SeastarExperiments
