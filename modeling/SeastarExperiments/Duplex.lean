import Mathlib.Logic.Function.Basic
import SeastarExperiments.DuplexLane

/-! One TCP connection between `tcp_client` and `tcp_server`: at each end a duplex
`handle_connection` with its own `DATA_SIZE` and its own interrupt flag, and one lane for each
direction. A step is a step of one lane or a call of `stop()` at one end. -/

namespace SeastarExperiments

open ByteStream Transition

inductive Side
  | server
  | client
  deriving DecidableEq

namespace Side

def other : Side → Side
  | server => client
  | client => server

@[simp]
theorem other_other (side : Side) : side.other.other = side := by cases side <;> rfl

@[simp]
theorem other_ne (side : Side) : side.other ≠ side := by cases side <;> decide

end Side

/-- The option `data_size` of each process, and the limits of the stream each end writes. -/
structure DuplexConfig where
  dataSize : Side → Nat
  limits : Side → Limits

def DuplexConfig.lane (cfg : DuplexConfig) (writer : Side) : LaneConfig where
  writeSize := cfg.dataSize writer
  readSize := cfg.dataSize writer.other
  limits := cfg.limits writer

/-- Each lane is named after its writing end. -/
structure Duplex where
  lane : Side → Lane
  interrupted : Side → Bool

inductive DuplexEvent
  | lane (writer : Side) (e : LaneEvent)
  /-- `stop()` runs at this end. -/
  | stop (side : Side)
  deriving DecidableEq

namespace Duplex

/-- The ends are connected, and their handlers run their first turns when they get to it. -/
def start : Duplex where
  lane _ := Lane.start
  interrupted _ := false

def step (cfg : DuplexConfig) (d : Duplex) : DuplexEvent → Option Duplex
  | .lane writer e =>
      ((d.lane writer).step (cfg.lane writer) (d.interrupted writer)
        (d.interrupted writer.other) e).map fun l =>
          { d with lane := Function.update d.lane writer l }
  | .stop side => some { d with interrupted := Function.update d.interrupted side true }

def system (cfg : DuplexConfig) : System Duplex DuplexEvent where
  init := start
  step := step cfg

/-- The `handle_connection` running at one end. -/
def handler (d : Duplex) (side : Side) : Handler where
  writer := (d.lane side).writer
  reader := (d.lane side.other).reader

/-- The first turns of both loops are what the call of `handle_connection` runs. -/
theorem start_handler (interrupted : Bool) (side : Side) :
    (((start.handler side).step interrupted (.write .top)).bind fun h =>
      h.step interrupted (.read .top)) = some (handleConnection interrupted) := rfl

theorem step_lane {cfg : DuplexConfig} {d d' : Duplex} {writer : Side} {e : LaneEvent}
    (h : d.step cfg (.lane writer e) = some d') :
    ∃ l, (d.lane writer).Moves (cfg.lane writer) (d.interrupted writer)
        (d.interrupted writer.other) e l ∧
      d' = { d with lane := Function.update d.lane writer l } := by
  obtain ⟨l, hl, rfl⟩ := Option.map_eq_some_iff.mp h
  exact ⟨l, Lane.moves_of_step hl, rfl⟩

theorem step_stop {cfg : DuplexConfig} {d d' : Duplex} {side : Side}
    (h : d.step cfg (.stop side) = some d') :
    d' = { d with interrupted := Function.update d.interrupted side true } := by
  simpa [step] using h.symm

/-- The handler of an end moves by its own program: a loop event of a lane is a step of the
handler at the end whose loop it is. -/
theorem handler_step {cfg : DuplexConfig} {d d' : Duplex} {writer : Side} {e : LaneEvent}
    (h : d.step cfg (.lane writer e) = some d') :
    (∀ ev, e = .write ev →
      (d.handler writer).step (d.interrupted writer) (.write ev) = some (d'.handler writer)) ∧
    (∀ ev, e = .read ev →
      (d.handler writer.other).step (d.interrupted writer.other) (.read ev) =
        some (d'.handler writer.other)) := by
  obtain ⟨l, hmoves, rfl⟩ := step_lane h
  cases hmoves <;> simp_all [handler, Handler.step, WriteLoop.step, ReadLoop.step, WriteLoop.body,
    ReadLoop.body, ReadLoop.onRead]

/-- A property of single lanes that holds at the start and survives each move holds of both lanes
in every reachable state. -/
theorem lane_invariant {cfg : DuplexConfig}
    (Inv : Side → Lane → Prop)
    (hstart : ∀ w, Inv w Lane.start)
    (hmoves : ∀ w wi ri l e l', Inv w l → l.Moves (cfg.lane w) wi ri e l' → Inv w l')
    {d : Duplex} (h : (system cfg).Reachable d) (writer : Side) :
    Inv writer (d.lane writer) := by
  apply System.Reachable.invariant (fun d => ∀ writer, Inv writer (d.lane writer))
    hstart ?_ h writer
  intro d e d' hinv hstep side
  cases e with
  | stop stopped =>
      change d.step cfg (.stop stopped) = some d' at hstep
      rw [step_stop hstep]
      exact hinv side
  | lane w e =>
      obtain ⟨l, hl, rfl⟩ := step_lane hstep
      by_cases hside : side = w
      · subst side
        simpa using hmoves _ _ _ _ _ _ (hinv w) hl
      · simpa [Function.update_of_ne hside] using hinv side

end Duplex

/-! ### Accounting of one direction -/

namespace Lane

/-- The bytes of the write that has not been counted yet. -/
def uncounted (cfg : LaneConfig) (l : Lane) : Nat :=
  if l.writer = .writing then cfg.writeSize else 0

/-- What ties the counted, issued, in-flight and consumed bytes of a lane together. -/
structure Accounted (cfg : LaneConfig) (l : Lane) : Prop where
  /-- Every issued byte is in transit or has been counted by the reader. -/
  conserved : l.bytesWritten + l.uncounted cfg = l.pipe.inTransit + l.bytesRead
  held_le : l.pipe.held ≤ cfg.readSize
  held_reading : l.reader ≠ .reading → l.pipe.held = 0
  closed_iff : l.pipe.closed = true ↔ l.writer = .stopped
  closed_flushed : l.pipe.closed = true → l.pipe.unsent = 0
  packets_le : l.bytesRead ≤ cfg.readSize * l.packetsRead
  packets_lt : 0 < l.packetsRead → cfg.readSize * l.packetsRead < l.bytesRead + cfg.readSize
  /-- Only the last packet is short, and after it the stream is empty for good. -/
  whole : l.bytesRead = cfg.readSize * l.packetsRead ∨
    (l.pipe.closed = true ∧ l.pipe.queued = 0 ∧ l.pipe.held = 0)
  ended : l.reader = .stopped true → l.pipe.closed = true ∧ l.pipe.queued = 0
  /-- The devices hold these totals in 64 bits. -/
  writeDevice : l.writeMeasurements.bytesReceived = UInt64.ofNat l.bytesWritten
  readDevice : l.readMeasurements.bytesReceived = UInt64.ofNat l.bytesRead
  readDevicePackets : l.readMeasurements.packetsReceived = UInt64.ofNat l.packetsRead

theorem accounted_start (cfg : LaneConfig) : Accounted cfg start := by
  constructor <;> simp [start, uncounted, Pipe.inTransit]

/-- The writing loop keeps the account. -/
theorem accounted_write {cfg : LaneConfig} {wi ri : Bool} {l l' : Lane} {e : WriteEvent}
    (hacc : Accounted cfg l) (hmoves : l.Moves cfg wi ri (.write e) l') : Accounted cfg l' := by
  have hcons := hacc.conserved
  have hclosed := hacc.closed_iff
  simp only [uncounted, Pipe.inTransit] at hcons
  cases hmoves with
  | beginClose hwriter hflag =>
      rw [hwriter] at hcons hclosed
      exact { hacc with
        conserved := by simpa [uncounted, Pipe.inTransit] using hcons
        closed_iff := by simpa using hclosed }
  | beginWrite hwriter hflag =>
      rw [hwriter] at hcons hclosed
      have hopen : l.pipe.closed = false := by simpa using hclosed
      exact { hacc with
        conserved := by
          simp only [uncounted, Pipe.inTransit, Pipe.write] at hcons ⊢
          simp at hcons ⊢
          omega
        closed_iff := by simpa [Pipe.write] using hclosed
        closed_flushed := by simp [Pipe.write, hopen] }
  | endWrite hwriter hflushed =>
      rw [hwriter] at hcons hclosed
      exact { hacc with
        conserved := by
          simp only [uncounted, Pipe.inTransit] at hcons ⊢
          simp at hcons ⊢
          omega
        closed_iff := by simpa using hclosed
        writeDevice := by
          simp [MeasurementDevice.addBytes, MeasurementDevice.addPackets, hacc.writeDevice] }
  | endClose hwriter hflushed =>
      rw [hwriter] at hcons
      exact { hacc with
        conserved := by simpa [uncounted, Pipe.inTransit] using hcons
        closed_iff := by simp
        closed_flushed := fun _ => hflushed
        whole := by
          rcases hacc.whole with h | ⟨-, h⟩
          · exact Or.inl h
          · exact Or.inr ⟨rfl, h⟩
        ended := fun h => ⟨rfl, (hacc.ended h).2⟩ }

/-- The reading loop keeps the account. -/
theorem accounted_read {cfg : LaneConfig} (hsize : 0 < cfg.readSize) {wi ri : Bool} {l l' : Lane}
    {e : ReadEvent} (hacc : Accounted cfg l) (hmoves : l.Moves cfg wi ri (.read e) l') :
    Accounted cfg l' := by
  have hcons := hacc.conserved
  have hpackets := hacc.packets_le
  have hlast := hacc.packets_lt
  simp only [uncounted, Pipe.inTransit] at hcons
  cases hmoves with
  | leave hreader hflag =>
      exact { hacc with
        held_reading := fun _ => hacc.held_reading (by rw [hreader]; simp)
        ended := fun h => by cases h }
  | beginRead hreader hflag =>
      exact { hacc with
        held_reading := fun h => absurd rfl h
        ended := fun h => by cases h }
  | endRead hreader hpos hfull =>
      have hbefore : l.bytesRead = cfg.readSize * l.packetsRead := by
        rcases hacc.whole with h | ⟨-, -, hempty⟩
        · exact h
        · omega
      have hle := hacc.held_le
      exact { hacc with
        conserved := by
          simp only [uncounted, Pipe.inTransit]
          omega
        held_le := Nat.zero_le _
        held_reading := fun _ => rfl
        packets_le := by
          simp only [Nat.mul_add, Nat.mul_one]
          omega
        packets_lt := fun _ => by
          simp only [Nat.mul_add, Nat.mul_one]
          omega
        whole := by
          rcases hfull with hfull | hdrained
          · exact Or.inl (by simp only [Nat.mul_add, Nat.mul_one]; omega)
          · exact Or.inr ⟨hdrained.1, hdrained.2, rfl⟩
        ended := fun h => by cases h
        readDevice := by
          simp [MeasurementDevice.addBytes, MeasurementDevice.addPackets, hacc.readDevice]
        readDevicePackets := by
          simp [MeasurementDevice.addBytes, MeasurementDevice.addPackets, hacc.readDevicePackets] }
  | endOfStream hreader hempty hfull =>
      have hdrained : l.pipe.closed = true ∧ l.pipe.queued = 0 := by
        rcases hfull with hfull | hdrained
        · omega
        · exact hdrained
      exact { hacc with
        held_reading := fun _ => hempty
        ended := fun _ => hdrained }

/-- Each move keeps the account. -/
theorem accounted_moves {cfg : LaneConfig} (hsize : 0 < cfg.readSize) {wi ri : Bool} {l l' : Lane}
    {e : LaneEvent} (hacc : Accounted cfg l) (hmoves : l.Moves cfg wi ri e l') :
    Accounted cfg l' := by
  have hcons := hacc.conserved
  have hwhole := hacc.whole
  simp only [uncounted, Pipe.inTransit] at hcons
  cases e with
  | write e => exact accounted_write hacc hmoves
  | read e => exact accounted_read hsize hacc hmoves
  | accept n =>
      cases hmoves with
      | accept _ hpos hunsent hroom =>
          have hopen : l.pipe.closed ≠ true := fun h => by
            have := hacc.closed_flushed h
            omega
          exact { hacc with
            conserved := by
              simp only [uncounted, Pipe.inTransit]
              omega
            closed_flushed := fun h => absurd h hopen
            whole := hwhole.imp_right fun h => absurd h.1 hopen
            ended := fun h => absurd (hacc.ended h).1 hopen }
  | deliver n =>
      cases hmoves with
      | deliver _ hreader hpos hqueued hneed =>
          exact { hacc with
            conserved := by
              simp only [uncounted, Pipe.inTransit]
              omega
            held_le := hneed
            held_reading := fun h => absurd hreader h
            whole := hwhole.imp_right fun h => by omega
            ended := fun h => by rw [hreader] at h; cases h }

theorem accounted_packets {cfg : LaneConfig} (hsize : 0 < cfg.readSize) {l : Lane}
    (hacc : Accounted cfg l) : l.packetsRead = l.bytesRead ⌈/⌉ cfg.readSize :=
  reads_eq_ceilDiv hsize hacc.packets_le hacc.packets_lt

end Lane

namespace Duplex

variable {cfg : DuplexConfig} {d : Duplex}

theorem reachable_accounted (hsize : ∀ side, 0 < cfg.dataSize side)
    (h : (system cfg).Reachable d) (writer : Side) :
    (d.lane writer).Accounted (cfg.lane writer) :=
  lane_invariant (fun w => Lane.Accounted (cfg.lane w)) (fun _ => Lane.accounted_start _)
    (fun w _ _ _ _ _ => Lane.accounted_moves (hsize w.other)) h writer

/-- In every reachable state the reader of a direction has counted at most one packet more than the
writer; once the writer has closed and the reader has stopped at the end of the stream, both have
counted the same bytes, and the reader one packet for each `DATA_SIZE` bytes begun. The devices hold
these counts in 64 bits. -/
theorem direction_accounting (hsize : ∀ side, 0 < cfg.dataSize side)
    (h : (system cfg).Reachable d) (writer : Side) :
    (d.lane writer).bytesRead ≤ (d.lane writer).bytesWritten + cfg.dataSize writer ∧
    ((d.handler writer).writer = .stopped → (d.handler writer.other).reader = .stopped true →
      (d.lane writer).bytesRead = (d.lane writer).bytesWritten ∧
      (d.lane writer).packetsRead = (d.lane writer).bytesWritten ⌈/⌉ cfg.dataSize writer.other) ∧
    (d.lane writer).writeMeasurements.bytesReceived = UInt64.ofNat (d.lane writer).bytesWritten ∧
    (d.lane writer).readMeasurements.bytesReceived = UInt64.ofNat (d.lane writer).bytesRead ∧
    (d.lane writer).readMeasurements.packetsReceived =
      UInt64.ofNat (d.lane writer).packetsRead := by
  have hacc := reachable_accounted hsize h writer
  have hcons := hacc.conserved
  refine ⟨?_, ?_, hacc.writeDevice, hacc.readDevice, hacc.readDevicePackets⟩
  · simp only [Lane.uncounted, DuplexConfig.lane] at hcons
    split at hcons <;> omega
  · intro hwriter hreader
    simp only [handler, Side.other_other] at hwriter hreader
    obtain ⟨hclosed, hqueued⟩ := hacc.ended hreader
    have hunsent := hacc.closed_flushed hclosed
    have hheld := hacc.held_reading (by rw [hreader]; simp)
    have hequal : (d.lane writer).bytesRead = (d.lane writer).bytesWritten := by
      simp [Lane.uncounted, Pipe.inTransit, hwriter, hunsent, hqueued, hheld] at hcons
      exact hcons.symm
    exact ⟨hequal, hequal ▸ Lane.accounted_packets (hsize writer.other) hacc⟩

/-- A server sending packets of 3 bytes to a client that reads packets of 2. -/
def threeToTwo : DuplexConfig where
  dataSize
    | .server => 3
    | .client => 2
  limits _ := ⟨none, none⟩

/-- The server is stopped after one packet, which the client reads in two pieces. -/
def shortLastPacket : List DuplexEvent :=
  [.lane .server (.write .top), .lane .client (.write .top), .lane .server (.read .top),
    .lane .client (.read .top), .lane .server (.accept 3), .lane .server (.write .written), .stop .server,
    .lane .server (.write .top), .lane .server (.write .closed), .lane .server (.deliver 2),
    .lane .server (.read (.read 2)), .lane .server (.read .top), .lane .server (.deliver 1),
    .lane .server (.read (.read 1)), .lane .server (.read .top), .lane .server (.read (.read 0))]

def afterShortLastPacket : Duplex :=
  ((system threeToTwo).exec start shortLastPacket).get (by decide +kernel)

theorem direction_accounting_shortLastPacket :
    (system threeToTwo).Reachable afterShortLastPacket ∧
      (afterShortLastPacket.lane .server).bytesRead =
        (afterShortLastPacket.lane .server).bytesWritten ∧
      (afterShortLastPacket.lane .server).packetsRead = 2 := by
  have hreach : (system threeToTwo).Reachable afterShortLastPacket :=
    ⟨shortLastPacket, (Option.some_get _).symm⟩
  have haccount := (direction_accounting (fun side => by cases side <;> decide) hreach
    .server).2.1 (by decide +kernel) (by decide +kernel)
  exact ⟨hreach, haccount.1, haccount.2.trans (by decide +kernel)⟩

end Duplex

end SeastarExperiments
