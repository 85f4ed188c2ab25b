import SeastarExperiments.BaseGate
import SeastarExperiments.Loops
import SeastarExperiments.ServiceProcess

/-! The `throughput_service` of `tcp_client` and of `tcp_client_pingpong`: `run_tcp` puts one task for
each connection through the gate and returns the future of the gate's close. The two programs
differ in `handle_connection` only, which is a parameter here. The report is read after all tasks
of all shards have ended. -/

namespace SeastarExperiments

open Transition

inductive ClientPhase (State : Type)
  /-- The future of `seastar::connect` is pending. -/
  | connecting
  | connectFailed
  | handling (h : State)
  deriving DecidableEq

/-- One connection task, with the packets that its connection has completed. -/
structure ClientTask (State : Type) where
  phase : ClientPhase State := .connecting
  packetsWritten : Nat := 0
  packetsRead : Nat := 0
  deriving DecidableEq

structure ClientShard (State : Type) where
  thisShardId : Nat
  interrupted : Bool := false
  timerArmed : Bool := false
  devices : Devices := {}
  tasks : Gated (ClientTask State) := {}
  deriving DecidableEq

inductive ClientEvent
  /-- The future of `seastar::connect` resolves, and its continuation runs. -/
  | connected (j : Nat) (succeeded : Bool)
  /-- A continuation of this task's handler runs. -/
  | handler (j : Nat) (e : LoopEvent)
  /-- The reporter's timer fires. -/
  | tick (now : TickTimes)
  deriving DecidableEq

section

variable {State : Type} (program : HandlerProgram State)

def ClientTask.resolved (task : ClientTask State) : Bool :=
  match task.phase with
  | .connecting => false
  | .connectFailed => true
  | .handling h => program.resolved h

namespace ClientShard

/-- The tasks of the loop in `run_tcp`, with the option `connections`. -/
def connectionTasks (connections : UInt16) : List (ClientTask State) :=
  (List.range connections.toNat).map fun _ => {}

def runTcp (connections : UInt16) (s : ClientShard State) : ClientShard State :=
  { s with
    tasks := (s.tasks.withGateEach (ClientTask.resolved program)
      (connectionTasks connections)).close }

/-- `stop` does not touch the gate. -/
def stop (s : ClientShard State) : ClientShard State := { s with interrupted := true }

/-- A continuation on the shard. A read returns at most `DATA_SIZE` bytes. -/
def step (dataSize : Nat) (s : ClientShard State) : ClientEvent → Option (ClientShard State)
  | .connected j succeeded => do
      let task ← s.tasks.tasks[j]?
      match task.phase with
      | .connecting =>
          let phase := if succeeded then .handling (program.start s.interrupted) else .connectFailed
          some { s with
            tasks := s.tasks.advance (ClientTask.resolved program) j { task with phase } }
      | .connectFailed => none
      | .handling _ => none
  | .handler j e => do
      let task ← s.tasks.tasks[j]?
      match task.phase with
      | .handling h =>
          let h ← program.step s.interrupted h e
          if e.bytesRead ≤ dataSize then
            some { s with
              tasks := s.tasks.advance (ClientTask.resolved program) j
                { phase := .handling h
                  packetsWritten := task.packetsWritten + e.packetsWritten
                  packetsRead := task.packetsRead + e.packetsRead }
              devices := s.devices.count dataSize e }
          else none
      | .connecting => none
      | .connectFailed => none
  | .tick now =>
      if s.timerArmed then some { s with devices := s.devices.tick s.thisShardId now } else none

/-- `run_tcp` returns the future of `gate_.close()`. -/
def runFuture (s : ClientShard State) : Outcome :=
  if s.tasks.gate.closeResolved then .resolved else .pending

end ClientShard

def clientService (dataSize : Nat) (connections : UInt16) :
    Service (ClientShard State) ClientEvent Unit where
  start i := { thisShardId := i }
  armTimer s := { s with timerArmed := true }
  run s _ := s.runTcp program connections
  stop := ClientShard.stop
  step := ClientShard.step program dataSize
  runFuture := ClientShard.runFuture
  stopFuture _ := .resolved
  histories s := (s.devices.readMeasurements.getHistory, s.devices.writeMeasurements.getHistory)

end

/-- What a turn of its handler does to a task; the first one is the call of `handle_connection`. -/
inductive ClientPhase.Turns {State : Type} (program : HandlerProgram State) (interrupted : Bool) :
    ClientPhase State → LoopEvent → ClientPhase State → Prop
  | begins : ClientPhase.Turns program interrupted .connecting (.write .top)
      (.handling (program.start interrupted))
  | goesOn (h h' : State) (f : LoopEvent) (hstep : program.step interrupted h f = some h') :
      ClientPhase.Turns program interrupted (.handling h) f (.handling h')

namespace ClientShard

variable {State : Type} {program : HandlerProgram State} {dataSize : Nat} {connections : UInt16}
  {s t : ClientShard State}

/-- What a continuation can be, with everything it changes. -/
inductive Moves (program : HandlerProgram State) (dataSize : Nat) (s : ClientShard State) :
    ClientEvent → ClientShard State → Prop
  | connected (j : Nat) (task : ClientTask State) (hold : s.tasks.tasks[j]? = some task)
      (hphase : task.phase = .connecting) :
      Moves program dataSize s (.connected j true)
        { s with
          tasks := s.tasks.advance (ClientTask.resolved program) j
            { task with phase := .handling (program.start s.interrupted) } }
  | connectFailed (j : Nat) (task : ClientTask State) (hold : s.tasks.tasks[j]? = some task)
      (hphase : task.phase = .connecting) :
      Moves program dataSize s (.connected j false)
        { s with
          tasks := s.tasks.advance (ClientTask.resolved program) j
            { task with phase := .connectFailed } }
  | handler (j : Nat) (e : LoopEvent) (task : ClientTask State) (h h' : State)
      (hold : s.tasks.tasks[j]? = some task) (hphase : task.phase = .handling h)
      (hstep : program.step s.interrupted h e = some h') (hsize : e.bytesRead ≤ dataSize) :
      Moves program dataSize s (.handler j e)
        { s with
          tasks := s.tasks.advance (ClientTask.resolved program) j
            { phase := .handling h'
              packetsWritten := task.packetsWritten + e.packetsWritten
              packetsRead := task.packetsRead + e.packetsRead }
          devices := s.devices.count dataSize e }
  | tick (now : TickTimes) (harmed : s.timerArmed = true) :
      Moves program dataSize s (.tick now)
        { s with devices := s.devices.tick s.thisShardId now }

theorem moves_of_step {e : ClientEvent}
    (h : (clientService program dataSize connections).step s e = some t) :
    s.Moves program dataSize e t := by
  change s.step program dataSize e = some t at h
  cases e with
  | connected j succeeded =>
      simp only [step, Option.bind_eq_bind, Option.bind_eq_some_iff] at h
      obtain ⟨task, hold, h⟩ := h
      cases hphase : task.phase with
      | connecting =>
          rw [hphase] at h
          cases succeeded with
          | true =>
              cases h
              exact .connected j task hold hphase
          | false =>
              cases h
              exact .connectFailed j task hold hphase
      | connectFailed | handling =>
          rw [hphase] at h
          cases h
  | handler j e =>
      simp only [step, Option.bind_eq_bind, Option.bind_eq_some_iff] at h
      obtain ⟨task, hold, h⟩ := h
      cases hphase : task.phase with
      | handling handler =>
          rw [hphase] at h
          simp only [Option.bind_eq_some_iff, Option.ite_none_right_eq_some, Option.some.injEq] at h
          obtain ⟨handler', hstep, hsize, rfl⟩ := h
          exact .handler j e task handler handler' hold hphase hstep hsize
      | connecting | connectFailed =>
          rw [hphase] at h
          cases h
  | tick now =>
      simp only [step, Option.ite_none_right_eq_some, Option.some.injEq] at h
      obtain ⟨harmed, rfl⟩ := h
      exact .tick now harmed

/-- A task that takes a step was unfinished. -/
theorem unresolved_of_handler {task : ClientTask State} {h h' : State} {e : LoopEvent}
    {interrupted : Bool} (hphase : task.phase = .handling h)
    (hstep : program.step interrupted h e = some h') : task.resolved program = false := by
  by_contra hr
  rw [ClientTask.resolved, hphase, Bool.not_eq_false] at hr
  rw [program.step_resolved interrupted h e hr] at hstep
  cases hstep

theorem unresolved_of_connecting {task : ClientTask State} (hphase : task.phase = .connecting) :
    task.resolved program = false := by
  rw [ClientTask.resolved, hphase]

/-- Only `stop()` raises the flag. -/
theorem interrupted_of_call {e : ServiceEvent ClientEvent Unit} (he : e ≠ .stop)
    (h : (clientService program dataSize connections).call s e = some t) :
    t.interrupted = s.interrupted := by
  cases e with
  | armTimer | run =>
      cases h
      rfl
  | stop => exact absurd rfl he
  | continuation e =>
      have hmoves := moves_of_step h
      cases hmoves <;> rfl

/-- Apart from the events of a connected task, a task stays as it is, or its connect fails. -/
theorem task_of_call {e : ServiceEvent ClientEvent Unit} {j : Nat} {task : ClientTask State}
    (h : (clientService program dataSize connections).call s e = some t)
    (hconnected : ∀ i, e ≠ .continuation (.connected i true))
    (hhandler : ∀ i f, e ≠ .continuation (.handler i f)) (hold : s.tasks.tasks[j]? = some task) :
    ∃ task', t.tasks.tasks[j]? = some task' ∧
      (task' = task ∨ e = .continuation (.connected j false) ∧
        task.phase = .connecting ∧ task'.phase = .connectFailed) := by
  cases e with
  | armTimer | stop =>
      cases h
      exact ⟨task, hold, Or.inl rfl⟩
  | run =>
      cases h
      refine ⟨task, ?_, Or.inl rfl⟩
      show (s.tasks.withGateEach _ _).tasks[j]? = some task
      obtain ⟨hj, -⟩ := List.getElem?_eq_some_iff.mp hold
      cases hclosed : s.tasks.gate.closed with
      | true => rw [Gated.withGateEach_closed hclosed, hold]
      | false => rw [(Gated.withGateEach_open hclosed _).1, List.getElem?_append_left hj, hold]
  | continuation e =>
      have hmoves := moves_of_step h
      cases hmoves with
      | connected i => exact absurd rfl (hconnected i)
      | handler i f => exact absurd rfl (hhandler i f)
      | tick => exact ⟨task, hold, Or.inl rfl⟩
      | connectFailed i old hi hphase =>
          show ∃ task', (s.tasks.tasks.set i _)[j]? = some task' ∧ _
          by_cases hij : i = j
          · subst hij
            rw [hold] at hi
            cases hi
            exact ⟨_, Table.get_set_self hold _, Or.inr ⟨rfl, hphase, rfl⟩⟩
          · exact ⟨task, by rw [List.getElem?_set_ne hij, hold], Or.inl rfl⟩

/-- What all tasks of an instance have is kept by a step that keeps it of each of them. -/
theorem Moves.forall_tasks {P : ClientTask State → Prop} {e : ClientEvent}
    (hmoves : s.Moves program dataSize e t) (h : ∀ task ∈ s.tasks.tasks, P task)
    (hconnected : ∀ task, P task → task.phase = .connecting →
      P { task with phase := .handling (program.start s.interrupted) })
    (hfailed : ∀ task, P task → task.phase = .connecting → P { task with phase := .connectFailed })
    (hhandler : ∀ j f task loop loop', e = .handler j f → P task → task.phase = .handling loop →
      program.step s.interrupted loop f = some loop' →
      P { phase := .handling loop'
          packetsWritten := task.packetsWritten + f.packetsWritten
          packetsRead := task.packetsRead + f.packetsRead }) :
    ∀ task ∈ t.tasks.tasks, P task := by
  cases hmoves with
  | connected j task hold hphase =>
      exact Table.forall_mem_set h (hconnected task (h task (List.mem_of_getElem? hold)) hphase)
  | connectFailed j task hold hphase =>
      exact Table.forall_mem_set h (hfailed task (h task (List.mem_of_getElem? hold)) hphase)
  | handler j e task loop loop' hold hphase hstep =>
      exact Table.forall_mem_set h
        (hhandler j e task loop loop' rfl (h task (List.mem_of_getElem? hold)) hphase hstep)
  | tick => exact h

/-- A continuation changes a task that is there, and leaves the gate as open as it was. -/
theorem Moves.length_tasks {e : ClientEvent} (h : s.Moves program dataSize e t) :
    t.tasks.tasks.length = s.tasks.tasks.length ∧ t.tasks.gate.closed = s.tasks.gate.closed := by
  cases h with
  | connected j task | connectFailed j task | handler j e task =>
      exact ⟨List.length_set, Gated.advance_gate_closed j _⟩
  | tick => exact ⟨rfl, rfl⟩

theorem forall_tasks_runTcp {P : ClientTask State → Prop} (h : ∀ task ∈ s.tasks.tasks, P task)
    (hnew : P {}) : ∀ task ∈ (s.runTcp program connections).tasks.tasks, P task := by
  intro task htask
  change task ∈ (s.tasks.withGateEach _ _).tasks at htask
  cases hclosed : s.tasks.gate.closed with
  | true =>
      rw [Gated.withGateEach_closed hclosed] at htask
      exact h task htask
  | false =>
      rw [(Gated.withGateEach_open hclosed _).1] at htask
      rcases List.mem_append.mp htask with htask | htask
      · exact h task htask
      · obtain ⟨k, -, rfl⟩ := List.mem_map.mp htask
        exact hnew

/-- The first task of `run_tcp` is connected. -/
theorem connected_first (hempty : s.tasks = {}) (hconnections : connections ≠ 0) :
    ∃ t, (clientService program dataSize connections).step (s.runTcp program connections)
        (.connected 0 true) = some t ∧
      t.interrupted = s.interrupted ∧
      t.tasks.tasks[0]? = some { phase := .handling (program.start s.interrupted) } := by
  have hpos : 0 < connections.toNat := by
    apply Nat.pos_of_ne_zero
    intro hzero
    exact hconnections (UInt16.toNat_inj.mp hzero)
  have hopen : s.tasks.gate.closed = false := by rw [hempty]
  have hold : (s.runTcp program connections).tasks.tasks[0]? = some ({} : ClientTask State) := by
    show (s.tasks.withGateEach _ _).tasks[0]? = _
    rw [(Gated.withGateEach_open hopen _).1, hempty]
    simp [connectionTasks, hpos]
  refine ⟨{ s.runTcp program connections with
    tasks := (s.runTcp program connections).tasks.advance (ClientTask.resolved program) 0
      { phase := .handling (program.start s.interrupted) } }, ?_, rfl, ?_⟩
  · change (s.runTcp program connections).step program dataSize (.connected 0 true) = _
    simp only [step, hold, Option.bind_eq_bind, Option.bind_some]
    rfl
  · exact Table.get_set_self hold _

/-! ### The run stage -/

/-- All connection tasks have entered the gate and hold it until they end. -/
structure Spawned (program : HandlerProgram State) (connections : UInt16) (s : ClientShard State) :
    Prop where
  entered : s.tasks.tasks.length = connections.toNat
  never_refused : s.tasks.refused = 0
  balanced : s.tasks.Balanced (ClientTask.resolved program) 0

/-- All connection tasks have entered the gate and are over. -/
structure Complete (program : HandlerProgram State) (connections : UInt16) (s : ClientShard State) :
    Prop where
  entered : s.tasks.tasks.length = connections.toNat
  never_refused : s.tasks.refused = 0
  finished : ∀ task ∈ s.tasks.tasks, task.resolved program = true

theorem spawned_runTcp (hempty : s.tasks = {}) :
    Spawned program connections (s.runTcp program connections) := by
  have hopen : s.tasks.gate.closed = false := by rw [hempty]
  have hbalanced : s.tasks.Balanced (ClientTask.resolved program) 0 := by
    rw [hempty]
    exact Gated.balanced_empty
  have hspawned (tasks : List (ClientTask State)) :
      (s.tasks.withGateEach (ClientTask.resolved program) tasks).tasks = s.tasks.tasks ++ tasks ∧
        (s.tasks.withGateEach (ClientTask.resolved program) tasks).refused = s.tasks.refused :=
    Gated.withGateEach_open hopen tasks
  refine ⟨?_, ?_, ?_⟩
  · show (s.tasks.withGateEach _ _).tasks.length = _
    rw [(hspawned _).1, hempty]
    simp [connectionTasks]
  · show (s.tasks.withGateEach _ _).refused = 0
    rw [(hspawned _).2, hempty]
  · exact (hbalanced.withGateEach _).close

theorem Spawned.moves {e : ClientEvent} (h : Spawned program connections s)
    (hmoves : s.Moves program dataSize e t) : Spawned program connections t := by
  cases hmoves with
  | connected j task hold hphase | connectFailed j task hold hphase =>
      exact ⟨by simpa [Gated.advance] using h.entered, h.never_refused,
        h.balanced.advance hold (unresolved_of_connecting hphase) _⟩
  | handler j e task handler handler' hold hphase hstep hsize =>
      exact ⟨by simpa [Gated.advance] using h.entered, h.never_refused,
        h.balanced.advance hold (unresolved_of_handler hphase hstep) _⟩
  | tick => exact ⟨h.entered, h.never_refused, h.balanced⟩

/-- A shard whose tasks are all over makes ticks only. -/
theorem Complete.moves {e : ClientEvent} (h : Complete program connections s)
    (hmoves : s.Moves program dataSize e t) : ∃ now, e = .tick now := by
  cases hmoves with
  | connected j task hold hphase | connectFailed j task hold hphase =>
      have hbusy : task.resolved program = false := unresolved_of_connecting hphase
      rw [h.finished task (List.mem_of_getElem? hold)] at hbusy
      cases hbusy
  | handler j e task handler handler' hold hphase hstep hsize =>
      have hbusy := unresolved_of_handler hphase hstep
      rw [h.finished task (List.mem_of_getElem? hold)] at hbusy
      cases hbusy
  | tick now => exact ⟨now, rfl⟩

/-- The run stage of a client: no task before it, all tasks in the gate from then on, and all of
them over once the future of `run_tcp` has resolved. -/
theorem phases :
    Process.RunPhases (clientService program dataSize connections) (fun s => s.tasks = {})
      (Spawned program connections) (Complete program connections) where
  start _ := rfl
  call _ _ h := spawned_runTcp h
  ended s h hfuture := by
    refine ⟨h.entered, h.never_refused, ?_⟩
    change s.runFuture = .resolved at hfuture
    unfold runFuture at hfuture
    split at hfuture
    · rename_i hclose
      exact h.balanced.all_finished (Gate.closeResolved_iff.mp hclose).2
    · cases hfuture
  before_kept :=
    { armTimer _ h := h
      stop _ h := h
      step s e t h hstep := by
        cases moves_of_step hstep with
        | connected j task hold | connectFailed j task hold | handler j e task _ _ hold =>
            rw [h] at hold
            cases hold
        | tick => exact h }
  after_kept :=
    { armTimer _ h := ⟨h.entered, h.never_refused, h.balanced⟩
      stop _ h := ⟨h.entered, h.never_refused, h.balanced⟩
      step _ _ _ h hstep := h.moves (moves_of_step hstep) }
  ended_kept :=
    { armTimer _ h := ⟨h.entered, h.never_refused, h.finished⟩
      stop _ h := ⟨h.entered, h.never_refused, h.finished⟩
      step _ _ _ h hstep := by
        have hmoves := moves_of_step hstep
        obtain ⟨now, rfl⟩ := h.moves hmoves
        cases hmoves with
        | tick => exact ⟨h.entered, h.never_refused, h.finished⟩ }

/-- The four counters of a shard's devices, as a tick leaves them. -/
def counters (s : ClientShard State) : List UInt64 :=
  [s.devices.readMeasurements.bytesReceived, s.devices.readMeasurements.packetsReceived,
    s.devices.writeMeasurements.bytesReceived, s.devices.writeMeasurements.packetsReceived]

/-- The counters of a shard whose tasks are all over do not change any more. -/
theorem kept_counters (values : List UInt64) :
    Process.Kept (clientService program dataSize connections)
      (fun s => Complete program connections s ∧ s.counters = values) where
  armTimer _ h := ⟨phases.ended_kept.armTimer _ h.1, h.2⟩
  stop _ h := ⟨phases.ended_kept.stop _ h.1, h.2⟩
  step _ _ _ h hstep := by
    refine ⟨phases.ended_kept.step _ _ _ h.1 hstep, ?_⟩
    have hmoves := moves_of_step hstep
    obtain ⟨now, rfl⟩ := h.1.moves hmoves
    cases hmoves with
    | tick => exact h.2

/-! ### The packets of a shard -/

end ClientShard

/-- What an event counts of a quantity that a loop's continuation counts. -/
def ClientEvent.counts (quantity : LoopEvent → Nat) : ServiceEvent ClientEvent Unit → Nat
  | .continuation (.handler _ e) => quantity e
  | _ => 0

def ClientEvent.isTick : ServiceEvent ClientEvent Unit → Bool
  | .continuation (.tick _) => true
  | _ => false

/-- The log of an instance as a device sees it that counts these bytes and packets of each loop's
continuation. -/
def clientMeter (bytes packets : LoopEvent → Nat) : Meter (ServiceEvent ClientEvent Unit) where
  isTick := ClientEvent.isTick
  bytes := ClientEvent.counts bytes
  packets := ClientEvent.counts packets
  bytes_tick e h := by
    unfold ClientEvent.isTick at h
    split at h
    · rfl
    · cases h
  packets_tick e h := by
    unfold ClientEvent.isTick at h
    split at h
    · rfl
    · cases h

namespace ClientShard

variable {State : Type} {program : HandlerProgram State} {dataSize : Nat} {connections : UInt16}
  {s t : ClientShard State}

def writeMeter (dataSize : Nat) : Meter (ServiceEvent ClientEvent Unit) :=
  clientMeter (LoopEvent.bytesWritten dataSize) LoopEvent.packetsWritten

def readMeter : Meter (ServiceEvent ClientEvent Unit) :=
  clientMeter LoopEvent.bytesRead LoopEvent.packetsRead

/-- The packets that the connections of the shard have completed. -/
def packetsWritten (s : ClientShard State) : Nat := (s.tasks.tasks.map ClientTask.packetsWritten).sum

def packetsRead (s : ClientShard State) : Nat := (s.tasks.tasks.map ClientTask.packetsRead).sum

/-- The devices measure the instance's log, and the log's packets are those of the connections. -/
structure Measured (dataSize : Nat) (log : List (ServiceEvent ClientEvent Unit))
    (s : ClientShard State) : Prop where
  write : (writeMeter dataSize).Measures s.devices.writeMeasurements log
  read : readMeter.Measures s.devices.readMeasurements log
  written : (writeMeter dataSize).totalPackets log = s.packetsWritten
  received : readMeter.totalPackets log = s.packetsRead

variable {log : List (ServiceEvent ClientEvent Unit)}

/-- An event that neither ticks nor counts, and leaves devices and packets as they are. -/
theorem Measured.skip {e : ServiceEvent ClientEvent Unit} (h : Measured dataSize log s)
    (htick : ClientEvent.isTick e = false) (hquiet : ∀ quantity, ClientEvent.counts quantity e = 0)
    (hdevices : t.devices = s.devices) (hwritten : t.packetsWritten = s.packetsWritten)
    (hread : t.packetsRead = s.packetsRead) : Measured dataSize (log ++ [e]) t := by
  refine ⟨?_, ?_, ?_, ?_⟩
  · rw [hdevices]
    exact h.write.skip htick (hquiet _) (hquiet _)
  · rw [hdevices]
    exact h.read.skip htick (hquiet _) (hquiet _)
  · rw [Meter.totalPackets_concat, h.written, hwritten]
    exact congrArg (s.packetsWritten + ·) (hquiet _)
  · rw [Meter.totalPackets_concat, h.received, hread]
    exact congrArg (s.packetsRead + ·) (hquiet _)

theorem Measured.moves {e : ClientEvent} (h : Measured dataSize log s)
    (hmoves : s.Moves program dataSize e t) : Measured dataSize (log ++ [.continuation e]) t := by
  cases hmoves with
  | connected j task hold | connectFailed j task hold =>
      refine h.skip rfl (fun _ => rfl) rfl ?_ ?_
      · exact congrArg List.sum (Table.map_set_same ClientTask.packetsWritten hold rfl)
      · exact congrArg List.sum (Table.map_set_same ClientTask.packetsRead hold rfl)
  | handler j e task handler handler' hold hphase hstep hsize =>
      have hwritten := Table.sum_map_set ClientTask.packetsWritten hold
        { phase := .handling handler'
          packetsWritten := task.packetsWritten + e.packetsWritten
          packetsRead := task.packetsRead + e.packetsRead }
      have hread := Table.sum_map_set ClientTask.packetsRead hold
        { phase := .handling handler'
          packetsWritten := task.packetsWritten + e.packetsWritten
          packetsRead := task.packetsRead + e.packetsRead }
      have hbefore := h.written
      have hbefore' := h.received
      unfold packetsWritten at hbefore
      unfold packetsRead at hbefore'
      simp only at hwritten hread
      refine ⟨?_, ?_, ?_, ?_⟩
      · rw [Devices.count_writeMeasurements]
        exact h.write.add (e := ServiceEvent.continuation (ClientEvent.handler j e)) rfl
      · rw [Devices.count_readMeasurements]
        exact h.read.add (e := ServiceEvent.continuation (ClientEvent.handler j e)) rfl
      · rw [Meter.totalPackets_concat]
        show _ + e.packetsWritten = List.sum (List.map _ (s.tasks.tasks.set j _))
        omega
      · rw [Meter.totalPackets_concat]
        show _ + e.packetsRead = List.sum (List.map _ (s.tasks.tasks.set j _))
        omega
  | tick now =>
      refine ⟨h.write.tick rfl _ now.write, h.read.tick rfl _ now.read, ?_, ?_⟩
      · rw [Meter.totalPackets_concat]
        exact h.written
      · rw [Meter.totalPackets_concat]
        exact h.received

/-- Spawning tasks completes no packet. -/
theorem runTcp_packets (s : ClientShard State) :
    (s.runTcp program connections).packetsWritten = s.packetsWritten ∧
      (s.runTcp program connections).packetsRead = s.packetsRead := by
  have hnew (packets : ClientTask State → Nat) (hzero : packets {} = 0) :
      ((s.runTcp program connections).tasks.tasks.map packets).sum =
        (s.tasks.tasks.map packets).sum := by
    show ((s.tasks.withGateEach _ _).tasks.map packets).sum = _
    cases hclosed : s.tasks.gate.closed with
    | true => rw [Gated.withGateEach_closed hclosed]
    | false =>
        rw [(Gated.withGateEach_open hclosed _).1, List.map_append, List.sum_append]
        simp [connectionTasks, hzero]
  exact ⟨hnew ClientTask.packetsWritten rfl, hnew ClientTask.packetsRead rfl⟩

theorem measured {i : Nat}
    (h : ((clientService program dataSize connections).system i).exec
      ((clientService program dataSize connections).start i) log = some s) :
    Measured dataSize log s := by
  apply System.exec_induction (S := (clientService program dataSize connections).system i)
    (motive := fun log s => Measured dataSize log s)
    ⟨Meter.measures_nil, Meter.measures_nil, rfl, rfl⟩ ?_ h
  intro log s e t _ ih hstep
  cases e with
  | armTimer =>
      cases hstep
      exact ih.skip rfl (fun _ => rfl) rfl rfl rfl
  | run input =>
      cases hstep
      obtain ⟨hwritten, hread⟩ : (s.runTcp program connections).packetsWritten = s.packetsWritten ∧
          (s.runTcp program connections).packetsRead = s.packetsRead := runTcp_packets s
      exact ih.skip rfl (fun _ => rfl) rfl hwritten hread
  | stop =>
      cases hstep
      exact ih.skip rfl (fun _ => rfl) rfl rfl rfl
  | continuation e =>
      have hmove : (clientService program dataSize connections).step s e = some t := hstep
      exact ih.moves (moves_of_step hmove)

end ClientShard

namespace Client

variable {State : Type} {program : HandlerProgram State} {dataSize : Nat} {connections : UInt16}
  {n : Nat} {p q : Process n (ClientShard State)}

abbrev system (program : HandlerProgram State) (dataSize : Nat) (connections : UInt16) (n : Nat) :
    System (Process n (ClientShard State)) (ProcessEvent n ClientEvent Unit) :=
  Process.system (clientService program dataSize connections) n

abbrev start (program : HandlerProgram State) (dataSize : Nat) (connections : UInt16) (n : Nat) :
    Process n (ClientShard State) :=
  Process.start (clientService program dataSize connections) n

/-- The task whose handler goes on, and how. The first turn of a handler runs in the continuation of
`seastar::connect`. -/
def turn : ClientEvent → Option (Nat × LoopEvent)
  | .connected j true => some (j, .write .top)
  | .handler j e => some (j, e)
  | .connected _ false => none
  | .tick _ => none

/-- A step that gives no handler a turn. -/
def Idles (e : ProcessEvent n ClientEvent Unit) : Prop :=
  ∀ i f, e = .continuation i f → turn f = none

theorem turns_or_idles (e : ProcessEvent n ClientEvent Unit) :
    (∃ i f j g, e = .continuation i f ∧ turn f = some (j, g)) ∨ Idles e := by
  by_cases hturns : ∃ i f j g, e = .continuation i f ∧ turn f = some (j, g)
  · exact Or.inl hturns
  · right
    intro i f he
    rw [Option.eq_none_iff_forall_ne_some]
    rintro ⟨j, g⟩ hf
    exact hturns ⟨i, f, j, g, he, hf⟩

def taskAt (p : Process n (ClientShard State)) (x : Fin n × Nat) : Option (ClientTask State) :=
  (p.shard x.1).tasks.tasks[x.2]?

/-- A step that gives no handler a turn leaves the tasks as they are, but that a connect may fail. -/
theorem taskAt_idle {e : ProcessEvent n ClientEvent Unit}
    (hstep : (system program dataSize connections n).step p e = some q) (hidles : Idles e)
    {x : Fin n × Nat} {task : ClientTask State} (hold : taskAt p x = some task) :
    ∃ task', taskAt q x = some task' ∧
      (task' = task ∨ e = .continuation x.1 (.connected x.2 false) ∧
        task.phase = .connecting ∧ task'.phase = .connectFailed) := by
  rcases (Process.moves_of_step hstep).same_or_call x.1 with hsame | ⟨f, hf, hcall⟩
  · exact ⟨task, by rw [taskAt, hsame]; exact hold, Or.inl rfl⟩
  · obtain ⟨task', hnew, hkept⟩ := ClientShard.task_of_call hcall
      (fun j hj => by cases hidles x.1 _ (Process.eq_continuation_of_onShard (hj ▸ hf)))
      (fun j g hj => by cases hidles x.1 _ (Process.eq_continuation_of_onShard (hj ▸ hf))) hold
    refine ⟨task', hnew, hkept.imp_right ?_⟩
    rintro ⟨rfl, hphases⟩
    exact ⟨Process.eq_continuation_of_onShard hf, hphases⟩

/-- A turn of a handler is a turn of one task, and leaves the others as they are. -/
theorem taskAt_turn {i : Fin n} {j : Nat} {e : ClientEvent} {f : LoopEvent}
    (hturns : turn e = some (j, f))
    (hstep : (system program dataSize connections n).step p (.continuation i e) = some q) :
    ∃ task task', taskAt p (i, j) = some task ∧ taskAt q (i, j) = some task' ∧
      task.phase.Turns program (p.shard i).interrupted f task'.phase ∧
      ∀ x, x ≠ (i, j) → taskAt q x = taskAt p x := by
  have hset {s : ClientShard State} {old new : ClientTask State}
      (hold : (p.shard i).tasks.tasks[j]? = some old)
      (hs : s.tasks.tasks = (p.shard i).tasks.tasks.set j new)
      (hphase : old.phase.Turns program (p.shard i).interrupted f new.phase) :
      ∃ task task', taskAt p (i, j) = some task ∧
        taskAt { p with shard := Function.update p.shard i s } (i, j) = some task' ∧
        task.phase.Turns program (p.shard i).interrupted f task'.phase ∧
        ∀ x, x ≠ (i, j) →
          taskAt { p with shard := Function.update p.shard i s } x = taskAt p x := by
    refine ⟨old, new, hold, ?_, hphase, fun x hx => ?_⟩
    · simp only [taskAt, Function.update_self, hs]
      exact Table.get_set_self hold new
    · by_cases hi : x.1 = i
      · have hj : j ≠ x.2 := fun hj => hx (Prod.ext hi hj.symm)
        simp only [taskAt, hi, Function.update_self, hs, List.getElem?_set_ne hj]
      · simp only [taskAt, Function.update_of_ne hi]
  cases Process.moves_of_step hstep with
  | continuation _ _ s hs =>
      have hmoves : (p.shard i).Moves program dataSize e s := ClientShard.moves_of_step hs
      cases hmoves with
      | connected _ task hold hphase =>
          cases hturns
          exact hset hold rfl (by rw [hphase]; exact .begins)
      | connectFailed | tick => cases hturns
      | handler _ _ task h h' hold hphase hmove =>
          cases hturns
          exact hset hold rfl (by rw [hphase]; exact .goesOn h h' f hmove)

/-- No shard has more tasks than connections. -/
theorem few_tasks (h : (system program dataSize connections n).Reachable p) (i : Fin n) :
    (p.shard i).tasks.tasks.length ≤ connections.toNat := by
  have hkept : Process.Kept (clientService program dataSize connections)
      (fun s => s.tasks.tasks.length ≤ connections.toNat) :=
    ⟨fun _ hs => hs, fun _ hs => hs, fun s e t hs hstep => by
      rw [(ClientShard.moves_of_step hstep).length_tasks.1]
      exact hs⟩
  exact ClientShard.phases.everywhere (fun _ => Nat.zero_le _) hkept
    (fun s _ hempty _ => (ClientShard.spawned_runTcp hempty).entered.le) h i

/-- What all tasks of a process have is kept by a step that keeps it of each of them. -/
theorem forall_tasks_step {P : ClientTask State → Prop} {e : ProcessEvent n ClientEvent Unit}
    (hstep : (system program dataSize connections n).step p e = some q)
    (h : ∀ i, ∀ task ∈ (p.shard i).tasks.tasks, P task) (hnew : P {})
    (hconnected : ∀ task interrupted, P task → task.phase = .connecting →
      P { task with phase := .handling (program.start interrupted) })
    (hfailed : ∀ task, P task → task.phase = .connecting → P { task with phase := .connectFailed })
    (hhandler : ∀ i j f task loop loop', e = .continuation i (.handler j f) → P task →
      task.phase = .handling loop → program.step (p.shard i).interrupted loop f = some loop' →
      P { phase := .handling loop'
          packetsWritten := task.packetsWritten + f.packetsWritten
          packetsRead := task.packetsRead + f.packetsRead }) :
    ∀ i, ∀ task ∈ (q.shard i).tasks.tasks, P task := by
  intro i
  rcases (Process.moves_of_step hstep).same_or_call i with hsame | ⟨f, hf, hcall⟩
  · rw [hsame]
    exact h i
  · cases f with
    | armTimer | stop =>
        rw [← Option.some.inj hcall]
        exact h i
    | run =>
        rw [← Option.some.inj hcall]
        exact ClientShard.forall_tasks_runTcp (h i) hnew
    | continuation f =>
        have he := Process.eq_continuation_of_onShard hf
        apply (ClientShard.moves_of_step hcall).forall_tasks (h i)
          (fun task => hconnected task _) hfailed ?_
        rintro j g task loop loop' rfl
        exact hhandler i j g task loop loop' he

/-- A client with connections can come to a state in which one of them has been made, the flag is
down, and its handler has just started. -/
theorem exists_connected (program : HandlerProgram State) (dataSize : Nat) (hn : 0 < n)
    (hconnections : connections ≠ 0) :
    ∃ p i, (system program dataSize connections n).Reachable p ∧
      (p.shard i).interrupted = false ∧
      (p.shard i).tasks.tasks[0]? = some { phase := .handling (program.start false) } := by
  obtain ⟨p, hp, hstage, hcalled, hshard⟩ :=
    Process.exists_run_stage (clientService program dataSize connections) n
  let i : Fin n := ⟨0, hn⟩
  obtain ⟨q, hrun, hcalled⟩ :
      ∃ q, (system program dataSize connections n).step p (.callRun i ()) = some q ∧
        q.shard i = (p.shard i).runTcp program connections :=
    Process.exists_callRun hstage (hcalled i) ()
  have hempty : (p.shard i).tasks = {} := by
    rw [hshard i]
    rfl
  have hdown : (p.shard i).interrupted = false := by
    rw [hshard i]
    rfl
  obtain ⟨t, hconnected, hflag, htask⟩ :
      ∃ t, (clientService program dataSize connections).step
          ((p.shard i).runTcp program connections) (.connected 0 true) = some t ∧
        t.interrupted = (p.shard i).interrupted ∧
        t.tasks.tasks[0]? = some { phase := .handling (program.start (p.shard i).interrupted) } :=
    ClientShard.connected_first hempty hconnections
  rw [hdown] at hflag htask
  have hstep : (clientService program dataSize connections).step (q.shard i) (.connected 0 true) =
      some t := by
    rw [hcalled]
    exact hconnected
  obtain ⟨r, hr, hshard⟩ := Process.exists_continuation hstep
  refine ⟨r, i, (hp.step hrun).step hr, ?_, ?_⟩
  · rw [hshard]
    exact hflag
  · rw [hshard]
    exact htask

/-- A step of a handler whose read returns no more than `DATA_SIZE` bytes is one of the process. -/
theorem exists_handler_step {i : Fin n} {j : Nat} {task : ClientTask State} {loop loop' : State}
    {e : LoopEvent} (hold : (p.shard i).tasks.tasks[j]? = some task)
    (hphase : task.phase = .handling loop)
    (hstep : program.step (p.shard i).interrupted loop e = some loop')
    (hsize : e.bytesRead ≤ dataSize) :
    ∃ q, (system program dataSize connections n).step p (.continuation i (.handler j e)) = some q ∧
      (q.shard i).interrupted = (p.shard i).interrupted ∧
      (q.shard i).tasks.tasks[j]? = some
        { phase := .handling loop'
          packetsWritten := task.packetsWritten + e.packetsWritten
          packetsRead := task.packetsRead + e.packetsRead } := by
  have hshard : (clientService program dataSize connections).step (p.shard i) (.handler j e) =
      some { p.shard i with
        tasks := (p.shard i).tasks.advance (ClientTask.resolved program) j
          { phase := .handling loop'
            packetsWritten := task.packetsWritten + e.packetsWritten
            packetsRead := task.packetsRead + e.packetsRead }
        devices := (p.shard i).devices.count dataSize e } := by
    change (p.shard i).step program dataSize (.handler j e) = _
    simp [ClientShard.step, hold, hphase, hstep, hsize]
  obtain ⟨q, hq, hafter⟩ := Process.exists_continuation hshard
  refine ⟨q, hq, ?_, ?_⟩
  · rw [hafter]
  · rw [hafter]
    exact Table.get_set_self hold _

/-- A step of a handler in a process, at the row of its task. -/
theorem handler_step_some {i : Fin n} {j : Nat} {e : LoopEvent}
    (h : (system program dataSize connections n).step p (.continuation i (.handler j e)) = some q) :
    ∃ task loop loop', (p.shard i).tasks.tasks[j]? = some task ∧ task.phase = .handling loop ∧
      program.step (p.shard i).interrupted loop e = some loop' ∧
      (q.shard i).tasks.tasks[j]? = some
        { phase := .handling loop'
          packetsWritten := task.packetsWritten + e.packetsWritten
          packetsRead := task.packetsRead + e.packetsRead } := by
  cases Process.moves_of_step h with
  | continuation _ _ s hs =>
      simp only [Function.update_self]
      cases ClientShard.moves_of_step hs with
      | handler _ _ task loop loop' hold hphase hstep =>
          exact ⟨task, loop, loop', hold, hphase, hstep, Table.get_set_self hold _⟩

/-- A shard whose tasks are all over has no handler event in its future. -/
theorem no_handler_event {i : Fin n} {after : List (ProcessEvent n ClientEvent Unit)}
    (hpast : p.stage.pastRun = true)
    (hcomplete : ClientShard.Complete program connections (p.shard i))
    (hexec : (system program dataSize connections n).exec p after = some q) (j : Nat)
    (e : LoopEvent) : .continuation i (.handler j e) ∉ after := by
  intro hmem
  obtain ⟨s, t, hquiet, hstep⟩ :=
    ClientShard.phases.ended_kept.of_continuation hpast hcomplete hexec hmem
  obtain ⟨now, hnow⟩ := hquiet.moves (ClientShard.moves_of_step hstep)
  cases hnow

/-- In every run of a client, when the report reads the histories of a shard: on every shard
exactly `connections` tasks have entered the gate, none was refused and all are over; no handler
continues and no counter changes afterwards; and what each device has reported and counted since
its last tick are the packets that the connections of its shard completed. -/
theorem reports_quiescent {i : Fin n} {before after : List (ProcessEvent n ClientEvent Unit)}
    (h : (system program dataSize connections n).exec (start program dataSize connections n)
      (before ++ .snapshot i :: after) = some q) :
    ∃ p, (system program dataSize connections n).exec (start program dataSize connections n) before =
        some p ∧
      ∀ k, ClientShard.Complete program connections (p.shard k) ∧
        (∀ j e, .continuation k (.handler j e) ∉ after) ∧
        (q.shard k).counters = (p.shard k).counters ∧
        Meter.Reported (ClientShard.writeMeter dataSize) (before.filterMap (Process.onShard k))
          (p.shard k).devices.writeMeasurements (p.shard k).packetsWritten ∧
        Meter.Reported ClientShard.readMeter (before.filterMap (Process.onShard k))
          (p.shard k).devices.readMeasurements (p.shard k).packetsRead := by
  obtain ⟨p, hp, hrest⟩ := System.exec_append_some _ h
  refine ⟨p, hp, fun k => ?_⟩
  have hreach : (system program dataSize connections n).Reachable p := ⟨before, hp⟩
  have hstage : p.stage = .report := by
    obtain ⟨r, hstep, -⟩ := System.exec_cons_some _ hrest
    cases Process.moves_of_step hstep with
    | snapshot _ hstage => exact hstage
  have hpast : p.stage.pastRun = true := by rw [hstage]; rfl
  have hcomplete := ClientShard.phases.ended_of_afterRun hreach (by rw [hstage]; rfl) k
  have hmeasured := ClientShard.measured ((Process.projects_shard _ k).exec hp)
  refine ⟨hcomplete, fun j e hmem => ?_, ?_, hmeasured.write.reported hmeasured.written,
    hmeasured.read.reported hmeasured.received⟩
  · exact no_handler_event hpast hcomplete hrest j e (List.mem_cons_of_mem _ hmem)
  · exact ((ClientShard.kept_counters (p.shard k).counters).exec hpast ⟨hcomplete, rfl⟩ hrest).2.2

/-- A client with two connections: one is refused by the server, the other one writes and reads a
packet and ends on the end of its stream after the interrupt. -/
def refusedRun : List (ProcessEvent 1 ClientEvent Unit) :=
  [.reporterSet shardZero true, .advance, .callRun shardZero (),
    .continuation shardZero (.connected 1 false), .continuation shardZero (.connected 0 true),
    .continuation shardZero (.handler 0 (.write .written)),
    .continuation shardZero (.tick ⟨1000, 1001⟩),
    .continuation shardZero (.handler 0 (.read (.read 64))), .signal, .exitStop shardZero,
    .continuation shardZero (.handler 0 (.write .top)),
    .continuation shardZero (.handler 0 (.write .closed)),
    .continuation shardZero (.handler 0 (.read .top)), .advance]

def afterRefused : Process 1 (ClientShard Handler) :=
  ((system duplexHandler 64 2 1).exec (start duplexHandler 64 2 1)
    (refusedRun ++ [.snapshot shardZero, .continuation shardZero (.tick ⟨2000, 2001⟩)])).get
    (by decide +kernel)

theorem reports_quiescent_refused :
    ∃ p, (system duplexHandler 64 2 1).exec (start duplexHandler 64 2 1) refusedRun = some p ∧
      ClientShard.Complete duplexHandler 2 (p.shard 0) ∧
      (afterRefused.shard 0).counters = (p.shard 0).counters := by
  have hexec : (system duplexHandler 64 2 1).exec (start duplexHandler 64 2 1)
      (refusedRun ++ .snapshot shardZero :: [.continuation shardZero (.tick ⟨2000, 2001⟩)]) =
        some afterRefused := (Option.some_get _).symm
  obtain ⟨p, hp, hquiet⟩ := reports_quiescent hexec
  exact ⟨p, hp, (hquiet 0).1, (hquiet 0).2.2.1⟩

end Client

end SeastarExperiments
