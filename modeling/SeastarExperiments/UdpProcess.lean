import SeastarExperiments.UdpShard

/-! The loops of `udp_duplex` against the gate. Main's chain waits for the flows that hold the gate;
a send loop whose flow has failed in its bind does not, and may still run when `run_udp` has
resolved and the service is destroyed. -/

namespace SeastarExperiments

open Transition

namespace UdpShard

variable {cfg : UdpConfig} {s t : UdpShard} {opened : Nat → Channels}

/-- No loop that `run_udp` has started is still there. -/
def Idle (s : UdpShard) : Prop := ∀ flow ∈ s.flows.tasks, flow.running = false

/-- A flow that has left the gate has left no loop behind. -/
def Anchored (s : UdpShard) : Prop :=
  ∀ flow ∈ s.flows.tasks, flow.resolved = true → flow.running = false

theorem anchored_startFlows
    (h : s.interrupted = true ∨ ∀ k < cfg.connections.toNat, opened k ≠ .sendOnly) :
    ∀ flow ∈ s.startFlows cfg opened, flow.resolved = true → flow.running = false := by
  intro flow hflow hresolved
  obtain ⟨k, hk, rfl⟩ := List.mem_map.mp hflow
  cases hopened : opened k with
  | neither =>
      simp [UdpFlow.handleConnection, UdpFlow.running, SendLoop.finished]
  | sendOnly =>
      rcases h with hflag | hbinds
      · simp [UdpFlow.handleConnection, UdpFlow.running, SendLoop.body, SendLoop.finished, hflag]
      · exact absurd hopened (hbinds k (List.mem_range.mp hk))
  | both =>
      rw [hopened] at hresolved
      exact (UdpFlow.resolved_iff rfl).mp hresolved

/-- A loop that runs is one of a flow still in the gate, and it stays so. -/
theorem Anchored.moves {e : UdpEvent} (h : s.Anchored) (hmoves : s.Moves cfg e t) : t.Anchored := by
  obtain ⟨-, -, -, htasks | ⟨j, f, flow, flow', -, hold, hstep, htasks⟩⟩ := hmoves.tasks
  · unfold Anchored
    rw [htasks]
    exact h
  · unfold Anchored
    rw [htasks]
    apply Table.forall_mem_set h
    intro hresolved
    cases hbound : flow.receive.isSome with
    | true =>
        apply (UdpFlow.resolved_iff ?_).mp hresolved
        rw [UdpFlow.step_isSome hstep, hbound]
    | false =>
        -- an unbound flow that makes a step has its send loop running, outside the gate
        have hnone : flow.receive = none := by simpa using hbound
        have hstopped := h flow (List.mem_of_getElem? hold) (by simp [UdpFlow.resolved, hnone])
        cases f with
        | send f =>
            obtain ⟨old, new, hsend, hnew, -⟩ := UdpFlow.step_send_some hstep
            simp [UdpFlow.running, hsend, SendLoop.unfinished_of_step hnew] at hstopped
        | receive f =>
            obtain ⟨old, -, hsome, -, -⟩ := UdpFlow.step_receive_some hstep
            rw [hnone] at hsome
            cases hsome

theorem kept_anchored : Process.Kept (udpService cfg) Anchored where
  armTimer _ h := h
  stop _ h := h
  step _ _ _ h hstep := h.moves (moves_of_step hstep)

/-- The run stage of `udp_duplex`. -/
theorem phases :
    Process.RunPhases (udpService cfg) (fun s => s.flows = {}) (Spawned cfg)
      (fun s => Spawned cfg s ∧ ∀ flow ∈ s.flows.tasks, flow.resolved = true) where
  start _ := rfl
  call _ _ h := spawned_runUdp h
  ended _ h hfuture := ⟨h, h.runFuture_iff.mp hfuture⟩
  before_kept :=
    { armTimer _ h := h
      stop _ h := h
      step s e t h hstep := by
        cases moves_of_step hstep with
        | detached j f flow flow' hold | flow j f flow flow' hold =>
            rw [h] at hold
            cases hold
        | tick => exact h }
  after_kept :=
    { armTimer _ h := ⟨h.entered, h.never_refused, h.closed, h.balanced⟩
      stop _ h := ⟨h.entered, h.never_refused, h.closed, h.balanced⟩
      step _ _ _ h hstep := h.moves (moves_of_step hstep) }
  ended_kept :=
    { armTimer _ h := ⟨⟨h.1.entered, h.1.never_refused, h.1.closed, h.1.balanced⟩, h.2⟩
      stop _ h := ⟨⟨h.1.entered, h.1.never_refused, h.1.closed, h.1.balanced⟩, h.2⟩
      step s e t h hstep := by
        have hmoves := moves_of_step hstep
        refine ⟨h.1.moves hmoves, ?_⟩
        obtain ⟨-, -, -, htasks | ⟨j, f, flow, flow', -, hold, hmove, htasks⟩⟩ := hmoves.tasks
        · rw [htasks]
          exact h.2
        · rw [htasks]
          apply Table.forall_mem_set h.2 (UdpFlow.resolved_of_step hmove ?_)
          exact h.2 flow (List.mem_of_getElem? hold) }

/-! ### A call in which a bind throws

From such a call the pending operations of all other flows may fail, which ends these flows. The
send loop behind the failed bind is then alone, and outside the gate. -/

/-- The loops of a flow that have not ended yet. -/
def unended (flow : UdpFlow) : Nat :=
  (if flow.send.any fun send => !send.finished then 1 else 0) +
    (if flow.receive.any fun receive => !receive.finished then 1 else 0)

/-- A flow as the call has left it, or with loops that have failed since if it was bound. -/
def Waiting (flow : UdpFlow) : Channels → Prop
  | .neither => flow.send = none ∧ flow.receive = none
  | .sendOnly => flow.send = some .sending ∧ flow.receive = none
  | .both =>
      (flow.send = some .sending ∨ flow.send = some .failed) ∧
        (flow.receive = some .receiving ∨ flow.receive = some .failed)

theorem waiting_handleConnection (opened : Channels) (myPort otherPort : UInt16) :
    Waiting (UdpFlow.handleConnection false myPort otherPort opened) opened := by
  cases opened with
  | neither | sendOnly => exact ⟨rfl, rfl⟩
  | both => exact ⟨Or.inl rfl, Or.inl rfl⟩

/-- A pending operation of a bound flow may fail, and this ends its loop. -/
theorem waiting_failed {flow flow' : UdpFlow} {interrupted : Bool} {e : FlowEvent}
    (h : Waiting flow .both) (he : e = .send .failed ∨ e = .receive .failed)
    (hstep : flow.step interrupted e = some flow') :
    Waiting flow' .both ∧ unended flow' < unended flow := by
  obtain ⟨hsend, hreceive⟩ := h
  rcases he with rfl | rfl
  · obtain ⟨old, new, hold, hnew, rfl⟩ := UdpFlow.step_send_some hstep
    rcases hsend with hsend | hsend <;> rw [hsend] at hold <;> cases hold <;> cases hnew
    refine ⟨⟨Or.inr rfl, hreceive⟩, ?_⟩
    simp [unended, hsend, SendLoop.finished]
  · obtain ⟨old, new, hold, hnew, rfl⟩ := UdpFlow.step_receive_some hstep
    rcases hreceive with hreceive | hreceive <;> rw [hreceive] at hold <;> cases hold <;> cases hnew
    refine ⟨⟨hsend, Or.inr rfl⟩, ?_⟩
    simp [unended, hreceive, ReceiveLoop.finished]

/-- A bound flow none of whose operations can fail any more is over. -/
theorem resolved_of_dry {flow : UdpFlow} {interrupted : Bool} (h : Waiting flow .both)
    (hsend : flow.step interrupted (.send .failed) = none)
    (hreceive : flow.step interrupted (.receive .failed) = none) : flow.resolved = true := by
  obtain ⟨hs, hr⟩ := h
  rcases hs with hs | hs
  · simp [UdpFlow.step, SendLoop.step, hs] at hsend
  · rcases hr with hr | hr
    · simp [UdpFlow.step, ReceiveLoop.step, hr] at hreceive
    · simp [UdpFlow.resolved, hs, hr, SendLoop.finished, ReceiveLoop.finished]

/-- The flows of the shard, each waiting in the way its sockets allow. -/
structure Pending (cfg : UdpConfig) (opened : Nat → Channels) (s : UdpShard) : Prop where
  spawned : Spawned cfg s
  waiting : ∀ j flow, s.flows.tasks[j]? = some flow → Waiting flow (opened j)

theorem pending_runUdp (hempty : s.flows = {}) (hflag : s.interrupted = false) :
    Pending cfg opened (s.runUdp cfg opened) := by
  refine ⟨spawned_runUdp hempty, fun j flow hflow => ?_⟩
  rw [(runUdp_tasks cfg opened hempty).1, startFlows, List.getElem?_map] at hflow
  obtain ⟨k, hk, rfl⟩ := Option.map_eq_some_iff.mp hflow
  obtain rfl : j = k := by
    obtain ⟨hlt, hget⟩ := List.getElem?_eq_some_iff.mp hk
    simpa using hget
  rw [hflag]
  exact waiting_handleConnection _ _ _

/-- The measure of what may still fail on the shard. -/
def unendedLoops (s : UdpShard) : Nat := (s.flows.tasks.map unended).sum

theorem Pending.failed {j : Nat} {e : FlowEvent} (h : Pending cfg opened s)
    (hbound : opened j = .both) (he : e = .send .failed ∨ e = .receive .failed)
    (hstep : (udpService cfg).step s (.flow j e) = some t) :
    Pending cfg opened t ∧ t.unendedLoops < s.unendedLoops := by
  have hmoves := moves_of_step hstep
  have hspawned := h.spawned.moves hmoves
  obtain ⟨flow, flow', hold, hmove, htasks, -⟩ := hmoves.row
  have hwaiting := h.waiting j flow hold
  rw [hbound] at hwaiting
  obtain ⟨hwaiting', hlt⟩ := waiting_failed hwaiting he hmove
  refine ⟨⟨hspawned, fun k other hother => ?_⟩, ?_⟩
  · rw [htasks] at hother
    by_cases hjk : j = k
    · subst hjk
      rw [Table.get_set_self hold] at hother
      cases hother
      rw [hbound]
      exact hwaiting'
    · rw [List.getElem?_set_ne hjk] at hother
      exact h.waiting k other hother
  · have hsum := Table.sum_map_set unended hold flow'
    unfold unendedLoops
    rw [htasks]
    omega

/-- Once nothing can fail any more, the future of `run_udp` has resolved. -/
theorem Pending.runFuture_resolved (h : Pending cfg opened s)
    (hdry : ∀ j f, opened j = .both → f = .send .failed ∨ f = .receive .failed →
      (udpService cfg).step s (.flow j f) = none) : s.runFuture = .resolved := by
  apply h.spawned.runFuture_iff.mpr
  intro flow hflow
  obtain ⟨j, hold⟩ := List.getElem?_of_mem hflow
  have hwaiting := h.waiting j flow hold
  cases hbound : opened j with
  | neither | sendOnly =>
      rw [hbound] at hwaiting
      simp [UdpFlow.resolved, hwaiting.2]
  | both =>
      rw [hbound] at hwaiting
      apply resolved_of_dry hwaiting
      · exact step_flow_none hold (hdry j _ hbound (Or.inl rfl))
      · exact step_flow_none hold (hdry j _ hbound (Or.inr rfl))

/-- The send loop behind a failed bind runs on. -/
theorem Pending.not_idle (h : Pending cfg opened s) {k : Nat} (hk : k < cfg.connections.toNat)
    (hthrows : opened k = .sendOnly) : ¬s.Idle := by
  intro hidle
  have hlength := h.spawned.entered
  obtain ⟨flow, hold⟩ : ∃ flow, s.flows.tasks[k]? = some flow :=
    ⟨_, List.getElem?_eq_getElem (by omega)⟩
  have hwaiting := h.waiting k flow hold
  rw [hthrows] at hwaiting
  have hrunning := hidle flow (List.mem_of_getElem? hold)
  simp [UdpFlow.running, hwaiting.1, SendLoop.finished] at hrunning

end UdpShard

namespace Udp

variable {cfg : UdpConfig} {n : Nat} {p q : Process n UdpShard}
  {es : List (ProcessEvent n UdpEvent (Nat → Channels))}

abbrev system (cfg : UdpConfig) (n : Nat) :
    System (Process n UdpShard) (ProcessEvent n UdpEvent (Nat → Channels)) :=
  Process.system (udpService cfg) n

abbrev start (cfg : UdpConfig) (n : Nat) : Process n UdpShard := Process.start (udpService cfg) n

/-- No loop outlives the future of `run_udp` on its shard, nor the service. -/
def Confined (p : Process n UdpShard) : Prop :=
  (∀ i, (p.shard i).runFuture = .resolved → (p.shard i).Idle) ∧
    (p.stage = .done → ∀ i, (p.shard i).Idle)

/-- The step is no call of `run_udp` in which a bind throws after its send loop has started. -/
def BindsAll (cfg : UdpConfig) (p : Process n UdpShard) :
    ProcessEvent n UdpEvent (Nat → Channels) → Prop
  | .callRun i opened =>
      (p.shard i).interrupted = true ∨ ∀ k < cfg.connections.toNat, opened k ≠ .sendOnly
  | _ => True

instance (cfg : UdpConfig) (p : Process n UdpShard) (e : ProcessEvent n UdpEvent (Nat → Channels)) :
    Decidable (BindsAll cfg p e) :=
  match e with
  | .callRun _ _ => inferInstanceAs (Decidable (_ ∨ _))
  | .reporterSet _ _ | .snapshot _ | .mainStop _ | .advance | .signal | .exitStop _
  | .continuation _ _ => inferInstanceAs (Decidable True)

theorem empty_or_spawned (h : (system cfg n).Reachable p) (i : Fin n) :
    (p.shard i).flows = {} ∨ (p.shard i).Spawned cfg := by
  have hkept : Process.Kept (udpService cfg) (fun s => s.flows = {} ∨ s.Spawned cfg) := by
    refine ⟨fun s hs => ?_, fun s hs => ?_, fun s e t hs hstep => ?_⟩
    · exact hs.imp_right (UdpShard.phases.after_kept.armTimer s)
    · exact hs.imp_right (UdpShard.phases.after_kept.stop s)
    · rcases hs with hempty | hspawned
      · exact Or.inl (UdpShard.phases.before_kept.step s e t hempty hstep)
      · exact Or.inr (UdpShard.phases.after_kept.step s e t hspawned hstep)
  exact UdpShard.phases.everywhere (fun _ => Or.inl rfl) hkept
    (fun s opened hempty _ => Or.inr (UdpShard.spawned_runUdp hempty)) h i

theorem confined_of_anchored (hreach : (system cfg n).Reachable p)
    (h : ∀ i, (p.shard i).Anchored) : Confined p := by
  refine ⟨fun i hfuture => ?_, fun hdone i => ?_⟩
  · rcases empty_or_spawned hreach i with hempty | hspawned
    · simp [UdpShard.Idle, hempty]
    · intro flow hflow
      exact h i flow hflow (hspawned.runFuture_iff.mp hfuture flow hflow)
  · obtain ⟨-, hresolved⟩ :=
      UdpShard.phases.ended_of_afterRun hreach (by rw [hdone]; rfl) i
    intro flow hflow
    exact h i flow hflow (hresolved flow hflow)

theorem anchored_step {e : ProcessEvent n UdpEvent (Nat → Channels)}
    (hreach : (system cfg n).Reachable p) (h : ∀ i, (p.shard i).Anchored)
    (hbinds : BindsAll cfg p e) (hstep : (system cfg n).step p e = some q) (i : Fin n) :
    (q.shard i).Anchored := by
  have hmoves := Process.moves_of_step hstep
  by_cases hcall : ∃ opened, e = .callRun i opened
  · obtain ⟨opened, rfl⟩ := hcall
    cases hmoves with
    | callRun _ _ hstage hcalled =>
        have hempty := UdpShard.phases.before hreach (i := i) (Or.inr ⟨hstage, hcalled⟩)
        simp only [Function.update_self]
        intro flow hflow
        change flow ∈ ((p.shard i).runUdp cfg opened).flows.tasks at hflow
        rw [(UdpShard.runUdp_tasks cfg opened hempty).1] at hflow
        exact UdpShard.anchored_startFlows hbinds flow hflow
  · push Not at hcall
    exact UdpShard.kept_anchored.moves hmoves hcall (h i)

/-- A run in which no bind throws keeps all its loops inside the gate. -/
theorem confined_of_binds
    (hbinds : (system cfg n).EachStep (BindsAll cfg) (start cfg n) es) :
    (system cfg n).Always Confined (start cfg n) es := by
  have hboth : (system cfg n).Always
      (fun p => (system cfg n).Reachable p ∧ ∀ i, (p.shard i).Anchored) (start cfg n) es := by
    apply hbinds.always
    · rintro p e q ⟨hreach, hanchored⟩ hC hstep
      exact ⟨hreach.step hstep, anchored_step hreach hanchored hC hstep⟩
    · refine ⟨.init _, fun i flow hflow => ?_⟩
      cases hflow
  exact hboth.mono fun p hp => confined_of_anchored hp.1 hp.2

/-- From a call of `run_udp` in which a bind throws, continuations of that shard alone lead to a
state in which `run_udp` has resolved and a send loop still runs. -/
theorem escape_of_unbound {i : Fin n} {opened : Nat → Channels} (hreach : (system cfg n).Reachable p)
    (hbinds : ¬BindsAll cfg p (.callRun i opened))
    (hstep : (system cfg n).step p (.callRun i opened) = some q) :
    ∃ es t, (system cfg n).exec q es = some t ∧ (∀ f ∈ es, ∃ e, f = .continuation i e) ∧
      (t.shard i).runFuture = .resolved ∧ ¬(t.shard i).Idle := by
  obtain ⟨hflag, k, hk, hthrows⟩ : (p.shard i).interrupted = false ∧
      ∃ k < cfg.connections.toNat, opened k = .sendOnly := by
    simpa [BindsAll] using hbinds
  have hpending : UdpShard.Pending cfg opened (q.shard i) := by
    cases Process.moves_of_step hstep with
    | callRun _ _ hstage hcalled =>
        have hempty := UdpShard.phases.before hreach (i := i) (Or.inr ⟨hstage, hcalled⟩)
        simp only [Function.update_self]
        exact UdpShard.pending_runUdp hempty hflag
  obtain ⟨es, t, hkind, hexec, ht, hdry⟩ := System.exists_exhausted (S := system cfg n)
    (fun e => ∃ j f, opened j = .both ∧
      (f = FlowEvent.send .failed ∨ f = FlowEvent.receive .failed) ∧ e = .continuation i (.flow j f))
    (fun p => UdpShard.Pending cfg opened (p.shard i)) (fun p => (p.shard i).unendedLoops)
    (by
      rintro p e q hpending ⟨j, f, hbound, hf, rfl⟩ hstep
      cases Process.moves_of_step hstep with
      | continuation _ _ s hs => simpa using hpending.failed hbound hf hs)
    hpending
  refine ⟨es, t, hexec, ?_, ?_, ht.not_idle hk hthrows⟩
  · intro f hf
    obtain ⟨j, e, -, -, rfl⟩ := hkind f hf
    exact ⟨_, rfl⟩
  · apply ht.runFuture_resolved
    intro j f hbound hf
    exact Option.map_eq_none_iff.mp (hdry _ ⟨j, f, hbound, hf, rfl⟩)

/-- No loop escapes the gate in a run without a call in which a bind throws after its send loop has
started; and from every such call a loop may escape. -/
theorem confined_unless_unbound :
    (∀ es, (system cfg n).EachStep (BindsAll cfg) (start cfg n) es →
      (system cfg n).Always Confined (start cfg n) es) ∧
    (∀ p q i opened, (system cfg n).Reachable p → ¬BindsAll cfg p (.callRun i opened) →
      (system cfg n).step p (.callRun i opened) = some q →
      ∃ es t, (system cfg n).exec q es = some t ∧ (∀ f ∈ es, ∃ e, f = .continuation i e) ∧
        ¬Confined t) := by
  refine ⟨fun es => confined_of_binds, fun p q i opened hreach hbinds hstep => ?_⟩
  obtain ⟨es, t, hexec, hkind, hfuture, hescaped⟩ := escape_of_unbound hreach hbinds hstep
  exact ⟨es, t, hexec, hkind, fun hconfined => hescaped (hconfined.1 i hfuture)⟩

/-- The defaults, one connection on one shard. -/
def defaultConfig : UdpConfig where
  connections := 1
  myPortOffset := 1024
  otherPortOffset := 2048
  dataSize := 64

/-- The socket is bound, the flow ends on the signal, and the service is stopped. -/
def boundRun : List (ProcessEvent 1 UdpEvent (Nat → Channels)) :=
  [.reporterSet shardZero true, .advance, .callRun shardZero fun _ => .both,
    .continuation shardZero (.flow 0 (.send .sent)), .signal, .exitStop shardZero,
    .continuation shardZero (.flow 0 (.send .top)),
    .continuation shardZero (.flow 0 (.receive (.received 64))),
    .continuation shardZero (.flow 0 (.receive .top)), .advance, .snapshot shardZero, .advance,
    .mainStop shardZero, .advance]

theorem confined_unless_unbound_bound :
    (system defaultConfig 1).Always Confined (start defaultConfig 1) boundRun :=
  confined_unless_unbound.1 boundRun (by decide +kernel)

/-- The bind throws, and main's chain runs to its end past the send loop. -/
def unboundRun : List (ProcessEvent 1 UdpEvent (Nat → Channels)) :=
  [.reporterSet shardZero true, .advance, .callRun shardZero fun _ => .sendOnly, .advance,
    .snapshot shardZero, .advance, .mainStop shardZero, .advance]

def afterUnbound : Process 1 UdpShard :=
  ((system defaultConfig 1).exec (start defaultConfig 1) unboundRun).get (by decide +kernel)

theorem send_loop_outlives_service :
    ¬∀ p, (system defaultConfig 1).Reachable p → Confined p := by
  intro hconfined
  have hreach : (system defaultConfig 1).Reachable afterUnbound :=
    ⟨unboundRun, (Option.some_get _).symm⟩
  have hescaped : afterUnbound.stage = .done ∧
      ∃ flow ∈ (afterUnbound.shard 0).flows.tasks, flow.running = true := by decide +kernel
  obtain ⟨hdone, flow, hflow, hrunning⟩ := hescaped
  rw [(hconfined _ hreach).2 hdone 0 flow hflow] at hrunning
  cases hrunning

end Udp

end SeastarExperiments
