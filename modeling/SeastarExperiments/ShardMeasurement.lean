import SeastarExperiments.BaseTransition
import SeastarExperiments.Loops

/-! The measurements of one shard of `tcp_server` or `tcp_client`: any number of connections, each
with its duplex handler, count in the shard's two devices, and the reporter's timer ticks both.
The streams are seen only through what their reads return. -/

namespace SeastarExperiments

open Transition

/-- A connection of the shard: its handler, whether a read has come back short or empty, and whether
a short non-empty one has. -/
structure ShardConnection where
  handler : Handler
  ended : Bool := false
  short : Bool := false
  deriving DecidableEq

namespace ShardConnection

/-- What a read may return: `DATA_SIZE` bytes, or fewer as the last bytes of the stream, or none
after them. Nothing else happens to the stream here. -/
def receive (dataSize : Nat) (c : ShardConnection) : LoopEvent → Option ShardConnection
  | .read (.read size) =>
      if size ≤ dataSize ∧ (c.ended = true → size = 0) then
        some { c with
          ended := c.ended || decide (size < dataSize)
          short := c.short || decide (0 < size ∧ size < dataSize) }
      else none
  | _ => some c

def step (dataSize : Nat) (interrupted : Bool) (c : ShardConnection) (e : LoopEvent) :
    Option ShardConnection := do
  let handler ← c.handler.step interrupted e
  let c ← c.receive dataSize e
  some { c with handler }

end ShardConnection

structure Shard where
  thisShardId : Nat
  interrupted : Bool := false
  devices : Devices := {}
  connections : List ShardConnection := []
  deriving DecidableEq

inductive ShardEvent
  /-- A connection is handed to `handle_connection`. -/
  | connect
  /-- A continuation of the handler of this connection runs. -/
  | loop (connection : Nat) (e : LoopEvent)
  /-- The reporter's timer fires. -/
  | tick (now : TickTimes)
  | stop
  deriving DecidableEq

namespace Shard

def step (dataSize : Nat) (s : Shard) : ShardEvent → Option Shard
  | .connect =>
      some { s with connections := s.connections ++ [{ handler := handleConnection s.interrupted }] }
  | .loop j e => do
      let c ← s.connections[j]?
      let c ← c.step dataSize s.interrupted e
      some { s with connections := s.connections.set j c, devices := s.devices.count dataSize e }
  | .tick now => some { s with devices := s.devices.tick s.thisShardId now }
  | .stop => some { s with interrupted := true }

def system (dataSize thisShardId : Nat) : System Shard ShardEvent where
  init := { thisShardId }
  step := step dataSize

end Shard

namespace ShardEvent

def isTick : ShardEvent → Bool
  | .tick _ => true
  | _ => false

/-- What the event counts of a quantity that a loop's continuation counts. -/
def counts (quantity : LoopEvent → Nat) : ShardEvent → Nat
  | .loop _ e => quantity e
  | _ => 0

theorem counts_tick (quantity : LoopEvent → Nat) (e : ShardEvent) (h : e.isTick = true) :
    e.counts quantity = 0 := by
  cases e <;> simp_all [isTick, counts]

end ShardEvent

/-- The log of a shard's events as its write device sees it. -/
def writeMeter (dataSize : Nat) : Meter ShardEvent where
  isTick := ShardEvent.isTick
  bytes := ShardEvent.counts (LoopEvent.bytesWritten dataSize)
  packets := ShardEvent.counts LoopEvent.packetsWritten
  bytes_tick := ShardEvent.counts_tick _
  packets_tick := ShardEvent.counts_tick _

/-- The log of a shard's events as its read device sees it. -/
def readMeter : Meter ShardEvent where
  isTick := ShardEvent.isTick
  bytes := ShardEvent.counts LoopEvent.bytesRead
  packets := ShardEvent.counts LoopEvent.packetsRead
  bytes_tick := ShardEvent.counts_tick _
  packets_tick := ShardEvent.counts_tick _

namespace Shard

variable {dataSize thisShardId : Nat} {s t : Shard} {es : List ShardEvent}

theorem step_loop {j : Nat} {e : LoopEvent} (h : s.step dataSize (.loop j e) = some t) :
    ∃ c c', s.connections[j]? = some c ∧ c.step dataSize s.interrupted e = some c' ∧
      t = { s with
        connections := s.connections.set j c', devices := s.devices.count dataSize e } := by
  simp only [step, Option.bind_eq_bind, Option.bind_eq_some_iff, Option.some.injEq] at h
  obtain ⟨c, hc, c', hc', rfl⟩ := h
  exact ⟨c, c', hc, hc', rfl⟩

/-- Both devices measure exactly the run's log. -/
theorem measures (h : (system dataSize thisShardId).exec { thisShardId } es = some s) :
    (writeMeter dataSize).Measures s.devices.writeMeasurements es ∧
      readMeter.Measures s.devices.readMeasurements es := by
  apply System.exec_induction (S := system dataSize thisShardId)
    (motive := fun es s => (writeMeter dataSize).Measures s.devices.writeMeasurements es ∧
      readMeter.Measures s.devices.readMeasurements es)
    ⟨Meter.measures_nil, Meter.measures_nil⟩ ?_ h
  rintro es s e t - ⟨hwrite, hread⟩ hstep
  change s.step dataSize e = some t at hstep
  cases e with
  | connect =>
      cases hstep
      exact ⟨hwrite.skip rfl rfl rfl, hread.skip rfl rfl rfl⟩
  | loop j e =>
      obtain ⟨c, c', -, -, rfl⟩ := step_loop hstep
      simp only [Devices.count_writeMeasurements, Devices.count_readMeasurements]
      exact ⟨hwrite.add (e := ShardEvent.loop j e) rfl, hread.add (e := ShardEvent.loop j e) rfl⟩
  | tick now =>
      cases hstep
      exact ⟨hwrite.tick rfl _ now.write, hread.tick rfl _ now.read⟩
  | stop =>
      cases hstep
      exact ⟨hwrite.skip rfl rfl rfl, hread.skip rfl rfl rfl⟩

/-! ### What the windows hold -/

theorem bytesWritten_eq (dataSize : Nat) (w : List ShardEvent) :
    (writeMeter dataSize).totalBytes w = dataSize * (writeMeter dataSize).totalPackets w := by
  have hevent (e : ShardEvent) : (writeMeter dataSize).bytes e =
      dataSize * (writeMeter dataSize).packets e := by
    match e with
    | .connect | .tick _ | .stop | .loop _ (.read _) | .loop _ (.write .top)
    | .loop _ (.write .closed) | .loop _ (.write .failed) => rfl
    | .loop _ (.write .written) => exact (Nat.mul_one dataSize).symm
  induction w with
  | nil => rfl
  | cons e w ih =>
      simp only [Meter.totalBytes, Meter.totalPackets, List.map_cons, List.sum_cons] at ih ⊢
      rw [ih, hevent, Nat.mul_add]

theorem packetsRead_le (w : List ShardEvent) : readMeter.totalPackets w ≤ readMeter.totalBytes w := by
  have hevent (e : ShardEvent) : readMeter.packets e ≤ readMeter.bytes e := by
    match e with
    | .connect | .tick _ | .stop | .loop _ (.write _) | .loop _ (.read .top)
    | .loop _ (.read .failed) => exact le_rfl
    | .loop _ (.read (.read size)) =>
        simp only [readMeter, ShardEvent.counts, LoopEvent.packetsRead, LoopEvent.bytesRead]
        split <;> omega
  induction w with
  | nil => exact le_rfl
  | cons e w ih =>
      simp only [Meter.totalBytes, Meter.totalPackets, List.map_cons, List.sum_cons] at ih ⊢
      exact Nat.add_le_add (hevent e) ih

/-- The bytes of a read never exceed its packet. -/
def Fits (dataSize : Nat) (e : ShardEvent) : Prop :=
  readMeter.bytes e ≤ dataSize * readMeter.packets e

theorem bytesRead_le {w : List ShardEvent} (h : ∀ e ∈ w, Fits dataSize e) :
    readMeter.totalBytes w ≤ dataSize * readMeter.totalPackets w := by
  induction w with
  | nil => exact le_rfl
  | cons e w ih =>
      have hhead := h e List.mem_cons_self
      have htail := ih fun f hf => h f (List.mem_cons_of_mem e hf)
      simp only [Meter.totalBytes, Meter.totalPackets, List.map_cons, List.sum_cons, Nat.mul_add]
        at htail ⊢
      exact Nat.add_le_add hhead htail

end Shard

namespace ShardConnection

variable {dataSize : Nat} {c c' : ShardConnection} {e : LoopEvent}

theorem step_some {interrupted : Bool} (h : c.step dataSize interrupted e = some c') :
    ∃ d, c.receive dataSize e = some d ∧ c'.ended = d.ended ∧ c'.short = d.short := by
  simp only [step, Option.bind_eq_bind, Option.bind_eq_some_iff, Option.some.injEq] at h
  obtain ⟨_, -, d, hd, rfl⟩ := h
  exact ⟨d, hd, rfl, rfl⟩

/-- A read fits its packet; it leaves a deficit, of at most `DATA_SIZE - 1` bytes, only when it is
the short read of its connection. -/
theorem receive_account (hsize : 0 < dataSize) (h : c.receive dataSize e = some c')
    (hended : c.short = true → c.ended = true) :
    e.bytesRead ≤ dataSize * e.packetsRead ∧
    dataSize * e.packetsRead + (dataSize - 1) * (if c.short then 1 else 0) ≤
      e.bytesRead + (dataSize - 1) * (if c'.short then 1 else 0) ∧
    (c'.short = true → c'.ended = true) := by
  match e with
  | .write _ | .read .top | .read .failed =>
      cases h
      exact ⟨Nat.zero_le _, by simp [LoopEvent.packetsRead], hended⟩
  | .read (.read size) =>
      simp only [receive, Option.ite_none_right_eq_some, Option.some.injEq] at h
      obtain ⟨⟨hle, hlast⟩, rfl⟩ := h
      simp only [LoopEvent.bytesRead, LoopEvent.packetsRead]
      by_cases hzero : size = 0
      · subst hzero
        simp_all
      · have hopen : c.ended = false := by
          by_contra hc
          exact hzero (hlast (by simpa using hc))
        have hfirst : c.short = false := by
          by_contra hc
          rw [hended (by simpa using hc)] at hopen
          cases hopen
        have hpos : 0 < size := Nat.pos_of_ne_zero hzero
        by_cases hshort : size < dataSize
        · simp only [hpos, hshort, hopen, hfirst]
          simp
          omega
        · obtain rfl : size = dataSize := by omega
          simp [hpos, hopen, hfirst]

end ShardConnection

namespace Shard

variable {dataSize thisShardId : Nat} {s : Shard} {es : List ShardEvent}

/-- The connections that have delivered a short read. -/
def shortConnections (s : Shard) : Nat := s.connections.countP ShardConnection.short

/-- Every read of the run fits its packet, and the deficit of all reads together is paid by the
connections that delivered a short one. -/
structure ReadAccount (dataSize : Nat) (es : List ShardEvent) (s : Shard) : Prop where
  fits : ∀ e ∈ es, Fits dataSize e
  deficit : dataSize * readMeter.totalPackets es ≤
    readMeter.totalBytes es + (dataSize - 1) * s.shortConnections
  short_ended : ∀ c ∈ s.connections, c.short = true → c.ended = true

/-- An event other than a loop's leaves the account as it is, when it opens no short connection. -/
theorem ReadAccount.quiet {t : Shard} {e : ShardEvent} (h : ReadAccount dataSize es s)
    (hbytes : readMeter.bytes e = 0) (hpackets : readMeter.packets e = 0)
    (hconnections : t.connections = s.connections ∨
      t.connections = s.connections ++ [{ handler := handleConnection s.interrupted }]) :
    ReadAccount dataSize (es ++ [e]) t where
  fits f hf := by
    rcases List.mem_append.mp hf with hf | hf
    · exact h.fits f hf
    · obtain rfl := List.mem_singleton.mp hf
      simp [Fits, hbytes]
  deficit := by
    have hshort : t.shortConnections = s.shortConnections := by
      rcases hconnections with hc | hc <;> simp [shortConnections, hc]
    rw [Meter.totalPackets_concat, Meter.totalBytes_concat, hbytes, hpackets, hshort]
    exact h.deficit
  short_ended c hc hshort := by
    rcases hconnections with heq | heq <;> rw [heq] at hc
    · exact h.short_ended c hc hshort
    · rcases List.mem_append.mp hc with hc | hc
      · exact h.short_ended c hc hshort
      · obtain rfl := List.mem_singleton.mp hc
        cases hshort

theorem readAccount (hsize : 0 < dataSize)
    (h : (system dataSize thisShardId).exec { thisShardId } es = some s) :
    ReadAccount dataSize es s := by
  apply System.exec_induction (S := system dataSize thisShardId)
    (motive := fun es s => ReadAccount dataSize es s) ⟨by simp, by simp, by simp⟩ ?_ h
  intro es s e t _ hacc hstep
  change s.step dataSize e = some t at hstep
  cases e with
  | connect =>
      cases hstep
      exact hacc.quiet rfl rfl (Or.inr rfl)
  | tick now =>
      cases hstep
      exact hacc.quiet rfl rfl (Or.inl rfl)
  | stop =>
      cases hstep
      exact hacc.quiet rfl rfl (Or.inl rfl)
  | loop j e =>
      obtain ⟨c, c', hc, hmove, rfl⟩ := step_loop hstep
      obtain ⟨d, hd, hended, hshort⟩ := ShardConnection.step_some hmove
      have hbefore := hacc.short_ended c (List.mem_of_getElem? hc)
      obtain ⟨hfits, hdeficit, hafter⟩ := ShardConnection.receive_account hsize hd hbefore
      have hcount := Table.countP_set ShardConnection.short hc c'
      refine ⟨?_, ?_, ?_⟩
      · intro f hf
        rcases List.mem_append.mp hf with hf | hf
        · exact hacc.fits f hf
        · obtain rfl := List.mem_singleton.mp hf
          exact hfits
      · have hscaled := congrArg (fun n => (dataSize - 1) * n) hcount
        have htotal := hacc.deficit
        rw [← hshort] at hdeficit
        rw [Meter.totalPackets_concat, Meter.totalBytes_concat, Nat.mul_add]
        simp only [Nat.mul_add] at hscaled
        simp only [shortConnections] at htotal ⊢
        change _ + dataSize * e.packetsRead ≤ _ + e.bytesRead + _
        omega
      · refine Table.forall_mem_set hacc.short_ended ?_
        rw [hended, hshort]
        exact hafter

/-- What a shard has reported after a run. A window is the list of events between two ticks; the
events since the last tick are the window that a tick taken now would report. -/
structure Report (dataSize : Nat) (es : List ShardEvent) (s : Shard) : Prop where
  /-- Every event but the ticks is in exactly one closed window or came after the last tick. -/
  partition : (readMeter.windows es).flatten ++ readMeter.sinceTick es =
    es.filter fun e => !e.isTick
  /-- The write history lists the closed windows, each with `DATA_SIZE` bytes a packet. -/
  write_history :
    s.devices.writeMeasurements.getHistory.map (fun m => (m.gbits, m.pps.toNat)) =
      (readMeter.windows es).map fun w =>
        (MeasurementDevice.throughputInGbps
          (UInt64.ofNat (dataSize * (writeMeter dataSize).totalPackets w)),
          (writeMeter dataSize).totalPackets w)
  write_now : s.devices.writeMeasurements.bytesInLastSecond.toNat =
    dataSize * s.devices.writeMeasurements.packetsInLastSecond.toNat
  write_now_packets : s.devices.writeMeasurements.packetsInLastSecond.toNat =
    (writeMeter dataSize).totalPackets (readMeter.sinceTick es)
  read_history :
    s.devices.readMeasurements.getHistory.map (fun m => (m.gbits, m.pps.toNat)) =
      (readMeter.windows es).map fun w =>
        (MeasurementDevice.throughputInGbps (UInt64.ofNat (readMeter.totalBytes w)),
          readMeter.totalPackets w)
  /-- A closed window covers between one byte and `DATA_SIZE` bytes for each packet read. -/
  read_windows : ∀ w ∈ readMeter.windows es,
    readMeter.totalPackets w ≤ readMeter.totalBytes w ∧
      readMeter.totalBytes w ≤ dataSize * readMeter.totalPackets w
  read_now : s.devices.readMeasurements.packetsInLastSecond.toNat ≤
      s.devices.readMeasurements.bytesInLastSecond.toNat ∧
    s.devices.readMeasurements.bytesInLastSecond.toNat ≤
      dataSize * s.devices.readMeasurements.packetsInLastSecond.toNat
  read_now_packets : s.devices.readMeasurements.packetsInLastSecond.toNat =
    readMeter.totalPackets (readMeter.sinceTick es)
  read_now_bytes : s.devices.readMeasurements.bytesInLastSecond.toNat =
    readMeter.totalBytes (readMeter.sinceTick es)
  /-- The counted read packets lack at most `DATA_SIZE - 1` bytes for each connection that
  delivered a short read. -/
  deficit : dataSize * s.devices.readMeasurements.packetsReceived.toNat -
      s.devices.readMeasurements.bytesReceived.toNat ≤ (dataSize - 1) * s.shortConnections
  no_excess : s.devices.readMeasurements.bytesReceived.toNat ≤
    dataSize * s.devices.readMeasurements.packetsReceived.toNat

/-- On every shard, for every interleaving of its connections' continuations and its reporter's
ticks: as long as the byte totals fit the counters, what the ticks report is exact. -/
theorem measurement_consistency (hsize : 0 < dataSize)
    (h : (system dataSize thisShardId).exec { thisShardId } es = some s)
    (hwritten : (writeMeter dataSize).totalBytes es < 2 ^ 64)
    (hread : readMeter.totalBytes es < 2 ^ 64) : Report dataSize es s := by
  obtain ⟨hwrite, hreads⟩ := measures h
  have hacc := readAccount hsize h
  have hwpackets : (writeMeter dataSize).totalPackets es < 2 ^ 64 := by
    have hle : (writeMeter dataSize).totalPackets es ≤ (writeMeter dataSize).totalBytes es := by
      rw [bytesWritten_eq]
      exact Nat.le_mul_of_pos_left _ hsize
    omega
  have hrpackets : readMeter.totalPackets es < 2 ^ 64 := by
    have hle := packetsRead_le es
    omega
  have hsince : ∀ e ∈ readMeter.sinceTick es, Fits dataSize e := fun e he =>
    hacc.fits e (Windows.mem_of_mem_current _ he)
  have hwritten_now := (Meter.totalBytes_sinceTick_le _ es).trans_lt hwritten
  have hwpackets_now := (Meter.totalPackets_sinceTick_le _ es).trans_lt hwpackets
  have hread_now := (Meter.totalBytes_sinceTick_le _ es).trans_lt hread
  have hrpackets_now := (Meter.totalPackets_sinceTick_le _ es).trans_lt hrpackets
  refine
    { partition := Windows.flatten_closed_append_current _ es
      write_history := ?_
      write_now := ?_
      write_now_packets := hwrite.packetsInLastSecond_toNat hwpackets_now
      read_history := hreads.history_exact fun w hw =>
        (Meter.totalPackets_window_le _ hw).trans_lt hrpackets
      read_windows := ?_
      read_now := ?_
      read_now_packets := hreads.packetsInLastSecond_toNat hrpackets_now
      read_now_bytes := hreads.bytesInLastSecond_toNat hread_now
      deficit := ?_
      no_excess := ?_ }
  · have hexact := hwrite.history_exact fun w hw =>
      (Meter.totalPackets_window_le _ hw).trans_lt hwpackets
    apply hexact.trans (List.map_congr_left fun w _ => ?_)
    rw [bytesWritten_eq]
  · rw [hwrite.bytesInLastSecond_toNat hwritten_now, hwrite.packetsInLastSecond_toNat hwpackets_now]
    exact bytesWritten_eq dataSize _
  · intro w hw
    refine ⟨packetsRead_le w, bytesRead_le fun e he => ?_⟩
    exact hacc.fits e (Windows.mem_of_mem_closed _ hw he)
  · rw [hreads.bytesInLastSecond_toNat hread_now, hreads.packetsInLastSecond_toNat hrpackets_now]
    exact ⟨packetsRead_le _, bytesRead_le hsince⟩
  · rw [hreads.bytesReceived_toNat hread, hreads.packetsReceived_toNat hrpackets]
    have hdeficit := hacc.deficit
    omega
  · rw [hreads.bytesReceived_toNat hread, hreads.packetsReceived_toNat hrpackets]
    exact bytesRead_le hacc.fits

/-- Two connections; each writes a packet and reads a full one, one of them before the tick and the
other one after it, and reads a short last one. -/
def shortReadRun : List ShardEvent :=
  [.connect, .loop 0 (.write .written), .loop 0 (.read (.read 64)), .connect,
    .tick ⟨1000, 1001⟩, .loop 1 (.write .written), .loop 0 (.read .top), .loop 1 (.read (.read 64)),
    .loop 1 (.read .top), .loop 0 (.read (.read 10)), .loop 0 (.read .top),
    .loop 1 (.read (.read 5)), .loop 0 (.read (.read 0))]

def afterShortRead : Shard :=
  ((system 64 0).exec { thisShardId := 0 } shortReadRun).get (by decide +kernel)

theorem measurement_consistency_shortRead :
    Report 64 shortReadRun afterShortRead ∧ afterShortRead.shortConnections = 2 ∧
      afterShortRead.devices.readMeasurements.packetsReceived = 4 ∧
      afterShortRead.devices.readMeasurements.bytesReceived = 143 :=
  ⟨measurement_consistency (by decide) (Option.some_get _).symm (by decide +kernel)
    (by decide +kernel), by decide +kernel, by decide +kernel, by decide +kernel⟩

end Shard

end SeastarExperiments
