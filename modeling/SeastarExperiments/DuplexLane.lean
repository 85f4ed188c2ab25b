import Mathlib.Algebra.Order.Floor.Div
import SeastarExperiments.BasePipe
import SeastarExperiments.BaseTransition
import SeastarExperiments.Loops

/-! One direction of a connection between two duplex `handle_connection`s: the writing loop of one
end, the byte stream, and the reading loop of the other end. The interrupt flags of the two ends
are inputs of a step. No operation fails with an I/O error here. -/

namespace SeastarExperiments

open ByteStream

/-- The two ends' `DATA_SIZE` and the limits of the stream between them. -/
structure LaneConfig where
  writeSize : Nat
  readSize : Nat
  limits : Limits

/-- Both loops with the stream between them, the totals each end has counted, and the measuring
device each end has counted them in. -/
structure Lane where
  writer : WriteLoop
  pipe : Pipe
  reader : ReadLoop
  bytesWritten : Nat := 0
  bytesRead : Nat := 0
  packetsRead : Nat := 0
  writeMeasurements : MeasurementDevice := {}
  readMeasurements : MeasurementDevice := {}
  deriving DecidableEq

inductive LaneEvent
  | write (e : WriteEvent)
  /-- The channel takes this many of the unsent bytes. -/
  | accept (n : Nat)
  /-- The pending read takes this many bytes from the channel. -/
  | deliver (n : Nat)
  | read (e : ReadEvent)
  deriving DecidableEq

namespace Lane

/-- What a step of the writing loop does to the stream. -/
def writeEffect (cfg : LaneConfig) (interrupted : Bool) (p : Pipe) : WriteEvent → Option Pipe
  | .top => some (if interrupted then p else p.write cfg.writeSize)
  | .written => if p.Flushed cfg.limits then some p else none
  | .closed => p.close
  | .failed => none

/-- What a step of the reading loop does to the stream. -/
def readEffect (cfg : LaneConfig) (p : Pipe) : ReadEvent → Option Pipe
  | .top => some p
  | .read size => (p.complete cfg.readSize).bind fun r => if r.1 = size then some r.2 else none
  | .failed => none

/-- Neither loop has run its first turn. -/
def start : Lane where
  writer := .top
  pipe := {}
  reader := .top

def step (cfg : LaneConfig) (writerInterrupted readerInterrupted : Bool) (l : Lane) :
    LaneEvent → Option Lane
  | .write e => do
      let writer ← l.writer.step writerInterrupted e
      let pipe ← writeEffect cfg writerInterrupted l.pipe e
      some { l with
        writer
        pipe
        bytesWritten := l.bytesWritten + (LoopEvent.write e).bytesWritten cfg.writeSize
        writeMeasurements := (Devices.count cfg.writeSize
          { writeMeasurements := l.writeMeasurements } (.write e)).writeMeasurements }
  | .accept n => (l.pipe.accept cfg.limits n).map fun pipe => { l with pipe }
  | .deliver n =>
      if l.reader = .reading then
        (l.pipe.deliver cfg.readSize n).map fun pipe => { l with pipe }
      else none
  | .read e => do
      let reader ← l.reader.step readerInterrupted e
      let pipe ← readEffect cfg l.pipe e
      some { l with
        pipe
        reader
        bytesRead := l.bytesRead + (LoopEvent.read e).bytesRead
        packetsRead := l.packetsRead + (LoopEvent.read e).packetsRead
        readMeasurements := (Devices.count cfg.readSize
          { readMeasurements := l.readMeasurements } (.read e)).readMeasurements }

/-- What a step of a lane can be, with everything it changes. -/
inductive Moves (cfg : LaneConfig) (writerInterrupted readerInterrupted : Bool) (l : Lane) :
    LaneEvent → Lane → Prop
  | beginClose (hwriter : l.writer = .top) (hflag : writerInterrupted = true) :
      Moves cfg writerInterrupted readerInterrupted l (.write .top) { l with writer := .closing }
  | beginWrite (hwriter : l.writer = .top) (hflag : writerInterrupted = false) :
      Moves cfg writerInterrupted readerInterrupted l (.write .top)
        { l with writer := .writing, pipe := l.pipe.write cfg.writeSize }
  | endWrite (hwriter : l.writer = .writing) (hflushed : l.pipe.Flushed cfg.limits) :
      Moves cfg writerInterrupted readerInterrupted l (.write .written)
        { l with
          writer := .top
          bytesWritten := l.bytesWritten + cfg.writeSize
          writeMeasurements :=
            (l.writeMeasurements.addBytes (UInt64.ofNat cfg.writeSize)).addPackets 1 }
  | endClose (hwriter : l.writer = .closing) (hflushed : l.pipe.unsent = 0) :
      Moves cfg writerInterrupted readerInterrupted l (.write .closed)
        { l with writer := .stopped, pipe := { l.pipe with closed := true } }
  | accept (n : Nat) (hpos : 0 < n) (hunsent : n ≤ l.pipe.unsent)
      (hroom : Within (l.pipe.queued + n) cfg.limits.capacity) :
      Moves cfg writerInterrupted readerInterrupted l (.accept n)
        { l with
          pipe := { l.pipe with unsent := l.pipe.unsent - n, queued := l.pipe.queued + n } }
  | deliver (n : Nat) (hreader : l.reader = .reading) (hpos : 0 < n) (hqueued : n ≤ l.pipe.queued)
      (hneed : l.pipe.held + n ≤ cfg.readSize) :
      Moves cfg writerInterrupted readerInterrupted l (.deliver n)
        { l with pipe := { l.pipe with queued := l.pipe.queued - n, held := l.pipe.held + n } }
  | leave (hreader : l.reader = .top) (hflag : readerInterrupted = true) :
      Moves cfg writerInterrupted readerInterrupted l (.read .top)
        { l with reader := .stopped false }
  | beginRead (hreader : l.reader = .top) (hflag : readerInterrupted = false) :
      Moves cfg writerInterrupted readerInterrupted l (.read .top) { l with reader := .reading }
  | endRead (hreader : l.reader = .reading) (hpos : 0 < l.pipe.held)
      (hfull : l.pipe.held = cfg.readSize ∨ (l.pipe.closed = true ∧ l.pipe.queued = 0)) :
      Moves cfg writerInterrupted readerInterrupted l (.read (.read l.pipe.held))
        { l with
          reader := .top
          pipe := { l.pipe with held := 0 }
          bytesRead := l.bytesRead + l.pipe.held
          packetsRead := l.packetsRead + 1
          readMeasurements :=
            (l.readMeasurements.addBytes (UInt64.ofNat l.pipe.held)).addPackets 1 }
  | endOfStream (hreader : l.reader = .reading) (hempty : l.pipe.held = 0)
      (hfull : l.pipe.held = cfg.readSize ∨ (l.pipe.closed = true ∧ l.pipe.queued = 0)) :
      Moves cfg writerInterrupted readerInterrupted l (.read (.read 0))
        { l with reader := .stopped true }

theorem moves_write {cfg : LaneConfig} {wi ri : Bool} {l l' : Lane} {e : WriteEvent}
    (h : l.step cfg wi ri (.write e) = some l') : l.Moves cfg wi ri (.write e) l' := by
  simp only [step, Option.bind_eq_bind, Option.bind_eq_some_iff, Option.some.injEq] at h
  obtain ⟨writer, hwriter, pipe, hpipe, rfl⟩ := h
  cases e with
  | top =>
      cases hl : l.writer <;> simp only [hl, WriteLoop.step, reduceCtorEq, Option.some.injEq]
        at hwriter
      subst hwriter
      cases wi <;> simp only [writeEffect, Bool.false_eq_true, if_true, if_false,
        Option.some.injEq] at hpipe <;> subst hpipe
      · exact .beginWrite hl rfl
      · exact .beginClose hl rfl
  | written =>
      cases hl : l.writer <;> simp only [hl, WriteLoop.step, reduceCtorEq, Option.some.injEq]
        at hwriter
      subst hwriter
      simp only [writeEffect] at hpipe
      split at hpipe
      · rename_i hflushed
        cases hpipe
        exact .endWrite hl hflushed
      · cases hpipe
  | closed =>
      cases hl : l.writer <;> simp only [hl, WriteLoop.step, reduceCtorEq, Option.some.injEq]
        at hwriter
      subst hwriter
      obtain ⟨hflushed, rfl⟩ := Pipe.close_some hpipe
      exact .endClose hl hflushed
  | failed => cases hpipe

theorem moves_read {cfg : LaneConfig} {wi ri : Bool} {l l' : Lane} {e : ReadEvent}
    (h : l.step cfg wi ri (.read e) = some l') : l.Moves cfg wi ri (.read e) l' := by
  simp only [step, Option.bind_eq_bind, Option.bind_eq_some_iff, Option.some.injEq] at h
  obtain ⟨reader, hreader, pipe, hpipe, rfl⟩ := h
  cases e with
  | top =>
      cases hl : l.reader <;> simp only [hl, ReadLoop.step, reduceCtorEq, Option.some.injEq]
        at hreader
      subst hreader
      cases hpipe
      cases ri
      · exact .beginRead hl rfl
      · exact .leave hl rfl
  | read size =>
      cases hl : l.reader <;> simp only [hl, ReadLoop.step, reduceCtorEq, Option.some.injEq]
        at hreader
      subst hreader
      simp only [readEffect, Option.bind_eq_some_iff] at hpipe
      obtain ⟨⟨held, q⟩, hcomplete, hsize⟩ := hpipe
      obtain ⟨hfull, rfl, rfl⟩ := Pipe.complete_some hcomplete
      simp only [Option.ite_none_right_eq_some, Option.some.injEq] at hsize
      obtain ⟨rfl, rfl⟩ := hsize
      by_cases hpos : 0 < l.pipe.held
      · have hmove : l.Moves cfg wi ri _ _ := .endRead hl hpos hfull
        simpa [ReadLoop.onRead, LoopEvent.bytesRead, LoopEvent.packetsRead, hpos,
          Devices.count_read] using hmove
      · have hempty : l.pipe.held = 0 := by omega
        have hmove : l.Moves cfg wi ri _ _ := .endOfStream hl hempty hfull
        have hpipe : { l.pipe with held := 0 } = l.pipe := by rw [← hempty]
        rw [hpipe, hempty]
        exact hmove
  | failed => cases hpipe

theorem moves_of_step {cfg : LaneConfig} {wi ri : Bool} {l l' : Lane} {e : LaneEvent}
    (h : l.step cfg wi ri e = some l') : l.Moves cfg wi ri e l' := by
  cases e with
  | write e => exact moves_write h
  | read e => exact moves_read h
  | accept n =>
      obtain ⟨q, hq, rfl⟩ := Option.map_eq_some_iff.mp h
      obtain ⟨hpos, hunsent, hroom, rfl⟩ := Pipe.accept_some hq
      exact .accept n hpos hunsent hroom
  | deliver n =>
      simp only [step] at h
      split at h
      · rename_i hreader
        obtain ⟨q, hq, rfl⟩ := Option.map_eq_some_iff.mp h
        obtain ⟨hpos, hqueued, hneed, rfl⟩ := Pipe.deliver_some hq
        exact .deliver n hreader hpos hqueued hneed
      · cases h

end Lane

end SeastarExperiments
