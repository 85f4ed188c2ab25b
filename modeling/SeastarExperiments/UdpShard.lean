import SeastarExperiments.BaseGate
import SeastarExperiments.Loops
import SeastarExperiments.ServiceProcess

/-! The `throughput_service` of `udp_duplex`: `run_udp` puts one flow for each connection through the
gate and returns the future of the gate's close. A flow starts its send loop before it binds the
receive socket. If the bind throws, the flow has failed and leaves the gate, while the send loop it
has started goes on. If there is no socket to send from, the flow has failed with no loop. -/

namespace SeastarExperiments

open Transition

inductive SendEvent
  /-- `repeat` runs the loop body once more. -/
  | top
  /-- The future of `channel.send` resolves and its continuation runs. -/
  | sent
  | failed
  deriving DecidableEq

inductive ReceiveEvent
  | top
  /-- The future of `recv_channel.receive` resolves with a datagram of this length. -/
  | received (len : Nat)
  | failed
  deriving DecidableEq

inductive FlowEvent
  | send (e : SendEvent)
  | receive (e : ReceiveEvent)
  deriving DecidableEq

inductive SendLoop
  | top
  | sending
  | stopped
  | failed
  deriving DecidableEq

inductive ReceiveLoop
  | top
  | receiving
  | stopped
  | failed
  deriving DecidableEq

namespace SendLoop

def body (interrupted : Bool) : SendLoop := if interrupted then .stopped else .sending

def step (interrupted : Bool) : SendLoop → SendEvent → Option SendLoop
  | .top, .top => some (body interrupted)
  | .sending, .sent => some .top
  | .sending, .failed => some .failed
  | _, _ => none

def finished : SendLoop → Bool
  | .stopped => true
  | .failed => true
  | _ => false

theorem unfinished_of_step {loop loop' : SendLoop} {interrupted : Bool} {e : SendEvent}
    (h : loop.step interrupted e = some loop') : loop.finished = false := by
  cases loop with
  | top | sending => rfl
  | stopped | failed => cases h

end SendLoop

namespace ReceiveLoop

def body (interrupted : Bool) : ReceiveLoop := if interrupted then .stopped else .receiving

def step (interrupted : Bool) : ReceiveLoop → ReceiveEvent → Option ReceiveLoop
  | .top, .top => some (body interrupted)
  | .receiving, .received _ => some .top
  | .receiving, .failed => some .failed
  | _, _ => none

def finished : ReceiveLoop → Bool
  | .stopped => true
  | .failed => true
  | _ => false

theorem unfinished_of_step {loop loop' : ReceiveLoop} {interrupted : Bool} {e : ReceiveEvent}
    (h : loop.step interrupted e = some loop') : loop.finished = false := by
  cases loop with
  | top | receiving => rfl
  | stopped | failed => cases h

end ReceiveLoop

/-- How far a call of `handle_connection` gets with its two sockets. -/
inductive Channels
  /-- `make_unbound_datagram_channel` throws. -/
  | neither
  /-- `make_bound_datagram_channel` throws. -/
  | sendOnly
  | both
  deriving DecidableEq

/-- One call of `handle_connection`: the ports it was given, and its two loops as far as they have
been started. -/
structure UdpFlow where
  myPort : UInt16
  otherPort : UInt16
  send : Option SendLoop
  receive : Option ReceiveLoop
  deriving DecidableEq

namespace UdpFlow

/-- The first turns of both loops run before the call returns, that of the send loop before
`make_bound_datagram_channel`. -/
def handleConnection (interrupted : Bool) (myPort otherPort : UInt16) (opened : Channels) :
    UdpFlow where
  myPort
  otherPort
  send :=
    match opened with
    | .neither => none
    | .sendOnly | .both => some (SendLoop.body interrupted)
  receive :=
    match opened with
    | .neither | .sendOnly => none
    | .both => some (ReceiveLoop.body interrupted)

def step (interrupted : Bool) (flow : UdpFlow) : FlowEvent → Option UdpFlow
  | .send e => do
      let send ← flow.send
      let send ← send.step interrupted e
      some { flow with send := some send }
  | .receive e => do
      let receive ← flow.receive
      let receive ← receive.step interrupted e
      some { flow with receive := some receive }

/-- The future of the call has resolved: `when_all_succeed` waits for both loops, but a socket that
cannot be made leaves a failed future at once. -/
def resolved (flow : UdpFlow) : Bool :=
  match flow.receive with
  | none => true
  | some receive => flow.send.all SendLoop.finished && receive.finished

/-- One of the loops that the call has started is still there. -/
def running (flow : UdpFlow) : Bool :=
  (flow.send.any fun send => !send.finished) || flow.receive.any fun receive => !receive.finished

end UdpFlow

/-- The command line of a process. -/
structure UdpConfig where
  connections : UInt16
  myPortOffset : UInt16
  otherPortOffset : UInt16
  dataSize : Nat

def startPort : UInt32 := 1300

namespace UdpConfig

/-- `target_port`: a 32-bit sum, truncated. -/
def targetPort (cfg : UdpConfig) (thisShardId i : Nat) : UInt16 :=
  (startPort + UInt32.ofNat thisShardId * cfg.connections.toUInt32 + UInt32.ofNat i).toUInt16

def myPort (cfg : UdpConfig) (thisShardId i : Nat) : UInt16 :=
  cfg.targetPort thisShardId i + cfg.myPortOffset

def otherPort (cfg : UdpConfig) (thisShardId i : Nat) : UInt16 :=
  cfg.targetPort thisShardId i + cfg.otherPortOffset

end UdpConfig

structure UdpShard where
  thisShardId : Nat
  interrupted : Bool := false
  timerArmed : Bool := false
  devices : Devices := {}
  flows : Gated UdpFlow := {}
  deriving DecidableEq

inductive UdpEvent
  /-- A continuation of one of this flow's loops runs. -/
  | flow (j : Nat) (e : FlowEvent)
  /-- The reporter's timer fires. -/
  | tick (now : TickTimes)
  deriving DecidableEq

namespace UdpShard

/-- The calls a loop's continuation makes on the devices. A datagram counts whatever its length. -/
def count (dataSize : Nat) (d : Devices) : FlowEvent → Devices
  | .send .sent =>
      { d with
        writeMeasurements :=
          (d.writeMeasurements.addBytes (UInt64.ofNat dataSize)).addPackets 1 }
  | .receive (.received len) =>
      { d with
        readMeasurements :=
          (d.readMeasurements.addPackets 1).addBytes (UInt64.ofNat len) }
  | _ => d

/-- The flows that `run_udp` starts, given the sockets that each of them opens. -/
def startFlows (cfg : UdpConfig) (s : UdpShard) (opened : Nat → Channels) : List UdpFlow :=
  (List.range cfg.connections.toNat).map fun i =>
    UdpFlow.handleConnection s.interrupted (cfg.myPort s.thisShardId i)
      (cfg.otherPort s.thisShardId i) (opened i)

def runUdp (cfg : UdpConfig) (s : UdpShard) (opened : Nat → Channels) : UdpShard :=
  { s with flows := (s.flows.withGateEach UdpFlow.resolved (s.startFlows cfg opened)).close }

/-- `stop` does not wake a pending receive. -/
def stop (s : UdpShard) : UdpShard := { s with interrupted := true }

def step (cfg : UdpConfig) (s : UdpShard) : UdpEvent → Option UdpShard
  | .flow j e => do
      let flow ← s.flows.tasks[j]?
      let flow' ← flow.step s.interrupted e
      some { s with
        flows :=
          -- a send loop whose bind has failed is outside the gate
          if flow.resolved then s.flows.replace j flow'
          else s.flows.advance UdpFlow.resolved j flow'
        devices := count cfg.dataSize s.devices e }
  | .tick now =>
      if s.timerArmed then some { s with devices := s.devices.tick s.thisShardId now } else none

/-- `run_udp` returns the future of `gate_.close()`. -/
def runFuture (s : UdpShard) : Outcome :=
  if s.flows.gate.closeResolved then .resolved else .pending

end UdpShard

def udpService (cfg : UdpConfig) : Service UdpShard UdpEvent (Nat → Channels) where
  start i := { thisShardId := i }
  armTimer s := { s with timerArmed := true }
  run s opened := s.runUdp cfg opened
  stop := UdpShard.stop
  step := UdpShard.step cfg
  runFuture := UdpShard.runFuture
  stopFuture _ := .resolved
  histories s := (s.devices.readMeasurements.getHistory, s.devices.writeMeasurements.getHistory)

namespace UdpFlow

variable {flow flow' : UdpFlow} {interrupted : Bool} {e : FlowEvent}

theorem step_send_some {f : SendEvent} (h : flow.step interrupted (.send f) = some flow') :
    ∃ old new, flow.send = some old ∧ old.step interrupted f = some new ∧
      flow' = { flow with send := some new } := by
  simp only [step, Option.bind_eq_bind, Option.bind_eq_some_iff, Option.some.injEq] at h
  obtain ⟨old, hold, new, hnew, rfl⟩ := h
  exact ⟨old, new, hold, hnew, rfl⟩

theorem step_receive_some {f : ReceiveEvent} (h : flow.step interrupted (.receive f) = some flow') :
    ∃ old new, flow.receive = some old ∧ old.step interrupted f = some new ∧
      flow' = { flow with receive := some new } := by
  simp only [step, Option.bind_eq_bind, Option.bind_eq_some_iff, Option.some.injEq] at h
  obtain ⟨old, hold, new, hnew, rfl⟩ := h
  exact ⟨old, new, hold, hnew, rfl⟩

/-- A flow that has bound its socket is over exactly when none of its loops runs. -/
theorem resolved_iff (hbound : flow.receive.isSome = true) :
    flow.resolved = true ↔ flow.running = false := by
  obtain ⟨receive, hreceive⟩ := Option.isSome_iff_exists.mp hbound
  cases hsend : flow.send <;> simp [resolved, running, hreceive, hsend]

theorem step_isSome (h : flow.step interrupted e = some flow') :
    flow'.receive.isSome = flow.receive.isSome := by
  cases e with
  | send f =>
      obtain ⟨old, new, -, -, rfl⟩ := step_send_some h
      rfl
  | receive f =>
      obtain ⟨old, new, hold, -, rfl⟩ := step_receive_some h
      rw [hold]
      rfl

/-- A flow that is over makes no step, unless its bind has failed. -/
theorem unresolved_of_step (h : flow.step interrupted e = some flow')
    (hbound : flow.receive.isSome = true) : flow.resolved = false := by
  obtain ⟨receive, hreceive⟩ := Option.isSome_iff_exists.mp hbound
  cases e with
  | send f =>
      obtain ⟨old, new, hold, hnew, -⟩ := step_send_some h
      simp [resolved, hreceive, hold, SendLoop.unfinished_of_step hnew]
  | receive f =>
      obtain ⟨old, new, hold, hnew, -⟩ := step_receive_some h
      simp [resolved, hold, ReceiveLoop.unfinished_of_step hnew]

/-- A detached flow stays what it is to the gate. -/
theorem resolved_of_step (h : flow.step interrupted e = some flow')
    (hover : flow.resolved = true) : flow'.resolved = true := by
  have hdetached : flow.receive = none := by
    by_contra hbound
    have hbusy := unresolved_of_step h (Option.isSome_iff_ne_none.mpr hbound)
    rw [hover] at hbusy
    cases hbusy
  have hdetached' : flow'.receive = none := by
    have hsome := step_isSome h
    simpa [hdetached] using hsome
  simp [resolved, hdetached']

end UdpFlow

namespace UdpShard

variable {cfg : UdpConfig} {s t : UdpShard} {opened : Nat → Channels}

inductive Moves (cfg : UdpConfig) (s : UdpShard) : UdpEvent → UdpShard → Prop
  | detached (j : Nat) (e : FlowEvent) (flow flow' : UdpFlow)
      (hold : s.flows.tasks[j]? = some flow) (hstep : flow.step s.interrupted e = some flow')
      (hover : flow.resolved = true) :
      Moves cfg s (.flow j e)
        { s with
          flows := s.flows.replace j flow', devices := count cfg.dataSize s.devices e }
  | flow (j : Nat) (e : FlowEvent) (flow flow' : UdpFlow)
      (hold : s.flows.tasks[j]? = some flow) (hstep : flow.step s.interrupted e = some flow')
      (hbusy : flow.resolved = false) :
      Moves cfg s (.flow j e)
        { s with
          flows := s.flows.advance UdpFlow.resolved j flow'
          devices := count cfg.dataSize s.devices e }
  | tick (now : TickTimes) (harmed : s.timerArmed = true) :
      Moves cfg s (.tick now) { s with devices := s.devices.tick s.thisShardId now }

theorem moves_of_step {e : UdpEvent} (h : (udpService cfg).step s e = some t) : s.Moves cfg e t := by
  change s.step cfg e = some t at h
  cases e with
  | flow j e =>
      simp only [step, Option.bind_eq_bind, Option.bind_eq_some_iff, Option.some.injEq] at h
      obtain ⟨flow, hold, flow', hstep, rfl⟩ := h
      by_cases hover : flow.resolved = true
      · rw [if_pos hover]
        exact .detached j e flow flow' hold hstep hover
      · rw [if_neg hover]
        exact .flow j e flow flow' hold hstep (by simpa using hover)
  | tick now =>
      simp only [step, Option.ite_none_right_eq_some, Option.some.injEq] at h
      obtain ⟨harmed, rfl⟩ := h
      exact .tick now harmed

/-- A flow whose continuation is not enabled on its shard cannot make the step itself. -/
theorem step_flow_none {j : Nat} {e : FlowEvent} {flow : UdpFlow}
    (hold : s.flows.tasks[j]? = some flow)
    (h : (udpService cfg).step s (.flow j e) = none) : flow.step s.interrupted e = none := by
  by_contra hsome
  obtain ⟨flow', hstep⟩ := Option.ne_none_iff_exists'.mp hsome
  change s.step cfg (.flow j e) = none at h
  simp [step, hold, hstep] at h

/-- A continuation of a flow changes that flow's row and no other, by a step of the flow. -/
theorem Moves.row {j : Nat} {e : FlowEvent} (h : s.Moves cfg (.flow j e) t) :
    ∃ flow flow', s.flows.tasks[j]? = some flow ∧ flow.step s.interrupted e = some flow' ∧
      t.flows.tasks = s.flows.tasks.set j flow' ∧ t.interrupted = s.interrupted := by
  cases h with
  | detached _ _ flow flow' hold hstep | flow _ _ flow flow' hold hstep =>
      exact ⟨flow, flow', hold, hstep, rfl, rfl⟩

/-- The flow table after a continuation: one row changed by a step of that flow, or none. -/
theorem Moves.tasks {e : UdpEvent} (h : s.Moves cfg e t) :
    t.interrupted = s.interrupted ∧ t.flows.gate.closed = s.flows.gate.closed ∧
      t.flows.refused = s.flows.refused ∧
      (t.flows.tasks = s.flows.tasks ∨ ∃ j f flow flow', e = .flow j f ∧
        s.flows.tasks[j]? = some flow ∧ flow.step s.interrupted f = some flow' ∧
        t.flows.tasks = s.flows.tasks.set j flow') := by
  cases h with
  | detached j e flow flow' hold hstep =>
      exact ⟨rfl, rfl, rfl, Or.inr ⟨j, e, flow, flow', rfl, hold, hstep, rfl⟩⟩
  | flow j e flow flow' hold hstep =>
      exact ⟨rfl, Gated.advance_gate_closed j flow', rfl,
        Or.inr ⟨j, e, flow, flow', rfl, hold, hstep, rfl⟩⟩
  | tick => exact ⟨rfl, rfl, rfl, Or.inl rfl⟩

theorem balanced_moves {e : UdpEvent} (h : s.flows.Balanced UdpFlow.resolved 0)
    (hmoves : s.Moves cfg e t) : t.flows.Balanced UdpFlow.resolved 0 := by
  cases hmoves with
  | detached j e flow flow' hold hstep hover =>
      exact h.replace hold ((UdpFlow.resolved_of_step hstep hover).trans hover.symm)
  | flow j e flow flow' hold hstep hbusy => exact h.advance hold hbusy flow'
  | tick => exact h

/-! ### The run stage -/

/-- The flows have entered the gate, which the unfinished ones hold. -/
structure Spawned (cfg : UdpConfig) (s : UdpShard) : Prop where
  entered : s.flows.tasks.length = cfg.connections.toNat
  never_refused : s.flows.refused = 0
  closed : s.flows.gate.closed = true
  balanced : s.flows.Balanced UdpFlow.resolved 0

theorem runUdp_tasks (cfg : UdpConfig) (opened : Nat → Channels) (hempty : s.flows = {}) :
    (s.runUdp cfg opened).flows.tasks = s.startFlows cfg opened ∧
      (s.runUdp cfg opened).flows.refused = 0 := by
  have hopen : s.flows.gate.closed = false := by rw [hempty]
  show (s.flows.withGateEach _ _).tasks = _ ∧ (s.flows.withGateEach _ _).refused = 0
  rw [(Gated.withGateEach_open hopen _).1, (Gated.withGateEach_open hopen _).2, hempty]
  exact ⟨List.nil_append _, rfl⟩

theorem spawned_runUdp (hempty : s.flows = {}) : Spawned cfg (s.runUdp cfg opened) := by
  obtain ⟨htasks, hrefused⟩ := runUdp_tasks cfg opened hempty
  have hbalanced : s.flows.Balanced UdpFlow.resolved 0 := by
    rw [hempty]
    exact Gated.balanced_empty
  refine ⟨?_, hrefused, rfl, (hbalanced.withGateEach _).close⟩
  rw [htasks]
  simp [startFlows]

theorem Spawned.moves {e : UdpEvent} (h : Spawned cfg s) (hmoves : s.Moves cfg e t) :
    Spawned cfg t := by
  obtain ⟨-, hclosed, hrefused, htasks⟩ := hmoves.tasks
  refine ⟨?_, hrefused.trans h.never_refused, hclosed.trans h.closed, balanced_moves h.balanced hmoves⟩
  rcases htasks with htasks | ⟨j, f, flow, flow', -, -, -, htasks⟩
  · rw [htasks]
    exact h.entered
  · rw [htasks, List.length_set]
    exact h.entered

/-- `run_udp` has resolved exactly when every flow is over for the gate. -/
theorem Spawned.runFuture_iff (h : Spawned cfg s) :
    s.runFuture = .resolved ↔ ∀ flow ∈ s.flows.tasks, flow.resolved = true := by
  have hbalanced := h.balanced
  unfold Gated.Balanced at hbalanced
  unfold runFuture
  constructor
  · intro hfuture
    split at hfuture
    · rename_i hclose
      exact h.balanced.all_finished (Gate.closeResolved_iff.mp hclose).2
    · cases hfuture
  · intro hall
    have hnone : s.flows.unfinished UdpFlow.resolved = 0 := by
      apply List.countP_eq_zero.mpr
      intro flow hflow
      simp [hall flow hflow]
    rw [if_pos (Gate.closeResolved_iff.mpr ⟨h.closed, by omega⟩)]

end UdpShard

end SeastarExperiments
