import SeastarExperiments.ClientProcess

/-! The ping-pong client alternates: no connection writes a packet while its last one is unanswered,
so that the packets written and read on a shard differ by at most one for each connection, in the
counters at any time and in what the devices report between any two ticks. -/

namespace SeastarExperiments

open Transition

/-- A connection is ahead by one packet while it waits for an answer, and may be after its end. -/
def ClientTask.Alternates (task : ClientTask PingLoop) : Prop :=
  match task.phase with
  | .handling .reading => task.packetsWritten = task.packetsRead + 1
  | .handling .stopped | .handling .failed =>
      task.packetsRead ≤ task.packetsWritten ∧ task.packetsWritten ≤ task.packetsRead + 1
  | _ => task.packetsWritten = task.packetsRead

namespace ClientTask

variable {task : ClientTask PingLoop}

theorem Alternates.bounds (h : task.Alternates) :
    task.packetsRead ≤ task.packetsWritten ∧ task.packetsWritten ≤ task.packetsRead + 1 := by
  unfold Alternates at h
  split at h <;> omega

theorem alternates_start {interrupted : Bool} (hphase : task.phase = .connecting)
    (h : task.Alternates) :
    { task with phase := .handling (pingHandler.start interrupted) }.Alternates := by
  unfold Alternates at h
  rw [hphase] at h
  cases interrupted <;> exact h

theorem Alternates.step {loop loop' : PingLoop} {interrupted : Bool} {e : LoopEvent}
    (hphase : task.phase = .handling loop) (h : task.Alternates)
    (hstep : pingHandler.step interrupted loop e = some loop') :
    ClientTask.Alternates
      { phase := .handling loop'
        packetsWritten := task.packetsWritten + e.packetsWritten
        packetsRead := task.packetsRead + e.packetsRead } := by
  have hbounds := h.bounds
  unfold Alternates at h
  rw [hphase] at h
  cases PingLoop.moves_of_step hstep with
  | top => cases interrupted <;> exact h
  | written =>
      cases interrupted with
      | true =>
          show task.packetsRead + 0 ≤ task.packetsWritten + 1 ∧
            task.packetsWritten + 1 ≤ task.packetsRead + 0 + 1
          omega
      | false => exact congrArg (· + 1) h
  | read size =>
      by_cases hsize : size > 0
      · simp [PingLoop.onRead, Alternates, LoopEvent.packetsWritten, LoopEvent.packetsRead, hsize, h]
      · simp [PingLoop.onRead, Alternates, LoopEvent.packetsWritten, LoopEvent.packetsRead, hsize, h]
  | closed | writeFailed | closeFailed | readFailed => exact hbounds

end ClientTask

namespace ClientShard

variable {dataSize : Nat} {connections : UInt16} {s t : ClientShard PingLoop}

/-- Every task alternates, and an instance never has more tasks than connections: `run_tcp` leaves
the gate closed. -/
structure Alternating (connections : UInt16) (s : ClientShard PingLoop) : Prop where
  each : ∀ task ∈ s.tasks.tasks, task.Alternates
  fresh : s.tasks.gate.closed = false → s.tasks.tasks = []
  few : s.tasks.tasks.length ≤ connections.toNat

theorem Alternating.runTcp (h : Alternating connections s) :
    Alternating connections (s.runTcp pingHandler connections) := by
  refine ⟨forall_tasks_runTcp h.each rfl, fun hopen => (by cases hopen), ?_⟩
  show (s.tasks.withGateEach _ _).tasks.length ≤ _
  cases hclosed : s.tasks.gate.closed with
  | true =>
      rw [Gated.withGateEach_closed hclosed]
      exact h.few
  | false =>
      rw [(Gated.withGateEach_open hclosed _).1, h.fresh hclosed]
      simp [connectionTasks]

theorem Alternating.moves {e : ClientEvent} (h : Alternating connections s)
    (hmoves : s.Moves pingHandler dataSize e t) : Alternating connections t := by
  obtain ⟨hlength, hgate⟩ := hmoves.length_tasks
  refine ⟨?_, fun hopen => ?_, by rw [hlength]; exact h.few⟩
  · apply hmoves.forall_tasks h.each
    · intro task htask hphase
      exact ClientTask.alternates_start hphase htask
    · intro task htask hphase
      unfold ClientTask.Alternates at htask ⊢
      rw [hphase] at htask
      exact htask
    · intro j f task loop loop' _ htask hphase hstep
      exact htask.step hphase hstep
  · rw [hgate] at hopen
    apply List.eq_nil_of_length_eq_zero
    rw [hlength, h.fresh hopen]
    rfl

theorem Alternating.call {e : ServiceEvent ClientEvent Unit} (h : Alternating connections s)
    (hcall : (clientService pingHandler dataSize connections).call s e = some t) :
    Alternating connections t := by
  cases e with
  | armTimer | stop =>
      cases hcall
      exact ⟨h.each, h.fresh, h.few⟩
  | run =>
      cases hcall
      exact h.runTcp
  | continuation e => exact h.moves (moves_of_step hcall)

theorem alternating {i : Nat} {log : List (ServiceEvent ClientEvent Unit)}
    (h : ((clientService pingHandler dataSize connections).system i).exec
      ((clientService pingHandler dataSize connections).start i) log = some s) :
    Alternating connections s := by
  apply System.exec_invariant (Alternating connections) (fun s e t hs hstep => hs.call hstep) ?_ h
  exact ⟨fun task htask => (by cases htask), fun _ => rfl, Nat.zero_le _⟩

/-- The packets of all connections of the shard. -/
theorem Alternating.packets (h : Alternating connections s) :
    s.packetsRead ≤ s.packetsWritten ∧
      s.packetsWritten ≤ s.packetsRead + connections.toNat := by
  obtain ⟨hle, hge⟩ := Table.sum_le_sum_add_length (f := ClientTask.packetsRead)
    (g := ClientTask.packetsWritten) fun task htask => (h.each task htask).bounds
  have hfew := h.few
  unfold packetsRead packetsWritten
  omega

/-! ### Between ticks -/

/-- The packets that a history reports for its ticks `j + 1` to `k`. -/
def reportedPackets (history : List Measurement) (j k : Nat) : Nat :=
  (((history.take k).drop j).map fun m => m.pps.toNat).sum

theorem reportedPackets_eq (history : List Measurement) {j k : Nat} (hjk : j ≤ k) :
    ((history.take j).map fun m => m.pps.toNat).sum + reportedPackets history j k =
      ((history.take k).map fun m => m.pps.toNat).sum := by
  have hfirst : (history.take k).take j = history.take j := by
    rw [List.take_take, Nat.min_eq_left hjk]
  calc ((history.take j).map fun m => m.pps.toNat).sum + reportedPackets history j k
    _ = ((((history.take k).take j) ++ (history.take k).drop j).map fun m => m.pps.toNat).sum := by
        rw [hfirst, List.map_append, List.sum_append]
        rfl
    _ = ((history.take k).map fun m => m.pps.toNat).sum := by rw [List.take_append_drop]

/-- At each of its ticks the connections of an instance have alternated so far. -/
theorem ticked {i : Nat} {log : List (ServiceEvent ClientEvent Unit)}
    (h : ((clientService pingHandler dataSize connections).system i).exec
      ((clientService pingHandler dataSize connections).start i) log = some s) (k : Nat) :
    readMeter.totalPackets ((readMeter.windows log).take k).flatten ≤
        (writeMeter dataSize).totalPackets (((writeMeter dataSize).windows log).take k).flatten ∧
      (writeMeter dataSize).totalPackets (((writeMeter dataSize).windows log).take k).flatten ≤
        readMeter.totalPackets ((readMeter.windows log).take k).flatten + connections.toNat := by
  obtain ⟨pre, ⟨rest, rfl⟩, hwindows⟩ := Windows.take_closed ClientEvent.isTick log k
  have hread : readMeter.totalPackets ((readMeter.windows (pre ++ rest)).take k).flatten =
      readMeter.totalPackets pre := by
    rw [← readMeter.totalPackets_filter pre]
    exact congrArg readMeter.totalPackets hwindows
  have hwrite : (writeMeter dataSize).totalPackets
      (((writeMeter dataSize).windows (pre ++ rest)).take k).flatten =
        (writeMeter dataSize).totalPackets pre := by
    rw [← (writeMeter dataSize).totalPackets_filter pre]
    exact congrArg (writeMeter dataSize).totalPackets hwindows
  obtain ⟨u, hu, -⟩ := System.exec_append_some _ h
  have hmeasured : Measured dataSize pre u := measured hu
  rw [hread, hwrite, hmeasured.received, hmeasured.written]
  exact (alternating hu).packets

end ClientShard

namespace Client

variable {dataSize : Nat} {connections : UInt16} {n : Nat}
  {p : Process n (ClientShard PingLoop)}

/-- On every shard of the ping-pong client the packets written are as many as the packets read, or
more by at most one for each connection, by the counters in every reachable state and by the reports
between any two ticks. -/
theorem ping_alternates (h : (system pingHandler dataSize connections n).Reachable p) (i : Fin n)
    (hfits : (p.shard i).packetsWritten < 2 ^ 64) :
    (p.shard i).devices.readMeasurements.packetsReceived.toNat ≤
        (p.shard i).devices.writeMeasurements.packetsReceived.toNat ∧
      (p.shard i).devices.writeMeasurements.packetsReceived.toNat ≤
        (p.shard i).devices.readMeasurements.packetsReceived.toNat + connections.toNat ∧
      ∀ j k, j < k →
        ClientShard.reportedPackets (p.shard i).devices.writeMeasurements.getHistory j k ≤
            ClientShard.reportedPackets (p.shard i).devices.readMeasurements.getHistory j k +
              connections.toNat ∧
          ClientShard.reportedPackets (p.shard i).devices.readMeasurements.getHistory j k ≤
            ClientShard.reportedPackets (p.shard i).devices.writeMeasurements.getHistory j k +
              connections.toNat := by
  obtain ⟨es, hes⟩ := h
  have hlog := (Process.projects_shard _ i).exec hes
  have hmeasured : ClientShard.Measured dataSize (es.filterMap (Process.onShard i)) (p.shard i) :=
    ClientShard.measured hlog
  obtain ⟨hle, hge⟩ := (ClientShard.alternating hlog).packets
  have hwritten := hmeasured.written
  have hreceived := hmeasured.received
  refine ⟨?_, ?_, ?_⟩
  · rw [hmeasured.read.packetsReceived_toNat (by omega),
      hmeasured.write.packetsReceived_toNat (by omega)]
    omega
  · rw [hmeasured.read.packetsReceived_toNat (by omega),
      hmeasured.write.packetsReceived_toNat (by omega)]
    omega
  · intro j k hjk
    have hwrite (k : Nat) := hmeasured.write.sum_take_pps
      (fun w hw => by have := Meter.totalPackets_window_le _ hw; omega) k
    have hread (k : Nat) := hmeasured.read.sum_take_pps
      (fun w hw => by have := Meter.totalPackets_window_le _ hw; omega) k
    have hj := ClientShard.ticked hlog j
    have hk := ClientShard.ticked hlog k
    rw [← hwrite, ← hread] at hj hk
    have hwindow := ClientShard.reportedPackets_eq
      (p.shard i).devices.writeMeasurements.getHistory hjk.le
    have hwindow' := ClientShard.reportedPackets_eq
      (p.shard i).devices.readMeasurements.getHistory hjk.le
    omega

/-- One connection whose first ping is out at the first tick and answered at the second one. -/
def pingRun : List (ProcessEvent 1 ClientEvent Unit) :=
  [.reporterSet shardZero true, .advance, .callRun shardZero (),
    .continuation shardZero (.connected 0 true),
    .continuation shardZero (.handler 0 (.write .written)),
    .continuation shardZero (.tick ⟨1000, 1001⟩),
    .continuation shardZero (.handler 0 (.read (.read 64))),
    .continuation shardZero (.tick ⟨2000, 2001⟩)]

def afterPing : Process 1 (ClientShard PingLoop) :=
  ((system pingHandler 64 1 1).exec (start pingHandler 64 1 1) pingRun).get (by decide +kernel)

theorem ping_alternates_onePing :
    ClientShard.reportedPackets (afterPing.shard 0).devices.writeMeasurements.getHistory 0 1 ≤
      ClientShard.reportedPackets (afterPing.shard 0).devices.readMeasurements.getHistory 0 1 + 1 := by
  have hreach : (system pingHandler 64 1 1).Reachable afterPing :=
    ⟨pingRun, (Option.some_get _).symm⟩
  exact ((ping_alternates hreach shardZero (by decide +kernel)).2.2 0 1 (by decide)).1

end Client

end SeastarExperiments
