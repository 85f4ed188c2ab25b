import SeastarExperiments.ServerShard

/-! The shutdown of `tcp_server` and `tcp_server_pingpong`. `stop()` is called by the `at_exit`
callback and again by `service->stop()` at the end of main's chain, closing the gate each time and
following `listener_` each time; and the report between the two waits for the accept loops only,
not for the future of `gate_.close()`. -/

namespace SeastarExperiments

open Transition

namespace ServerShard

variable {dataSize : Nat} {s t : ServerShard}

/-- The flag, the listener pointer and the accept loop of an instance against each other. -/
structure Consistent (s : ServerShard) : Prop where
  guarded : s.Guarded
  interrupted_iff : s.interrupted = true ↔ 0 < s.closeCalls
  listener_iff :
    s.listener = true ↔ s.accept = .accepting ∨ s.accept = .stopped ∨ s.accept = .failed
  stopped_interrupted : s.accept = .stopped → s.interrupted = true

theorem Consistent.start (i : Nat) : Consistent { thisShardId := i } :=
  ⟨.start i, by simp, by simp, by simp⟩

theorem Consistent.runTcp (h : s.Consistent) (hidle : s.accept = .idle) (listens : Bool) :
    (s.runTcp listens).Consistent := by
  refine ⟨h.guarded.runTcp hidle listens, ?_, ?_, ?_⟩
  · rw [runTcp_interrupted, h.interrupted_iff]
    unfold ServerShard.runTcp
    cases s.handlers.gate.enter with
    | none => rfl
    | some gate => cases listens <;> rfl
  · have hlistener : s.listener = false := by
      have hnone := h.listener_iff
      simpa [hidle] using hnone
    unfold ServerShard.runTcp
    cases s.handlers.gate.enter with
    | none => simp [hlistener]
    | some gate => cases listens <;> simp [hlistener]
  · unfold ServerShard.runTcp
    cases s.handlers.gate.enter with
    | none => simp
    | some gate => cases listens <;> simp

theorem Consistent.stop (h : s.Consistent) : s.stop.Consistent :=
  ⟨h.guarded.stop, by simp [ServerShard.stop], h.listener_iff, fun _ => rfl⟩

theorem Consistent.moves {e : ServerEvent} (h : s.Consistent) (hmoves : s.Moves dataSize e t) :
    t.Consistent := by
  have hguarded := h.guarded.moves hmoves
  cases hmoves with
  | stopAccept connection haccept hflag =>
      refine ⟨hguarded, h.interrupted_iff, ?_, fun _ => hflag⟩
      simp [endAccept, h.listener_iff, haccept]
  | failAccept haccept hflag =>
      refine ⟨hguarded, h.interrupted_iff, ?_, fun hstopped => by cases hstopped⟩
      simp [endAccept, h.listener_iff, haccept]
  | handOver | handler | tick =>
      exact ⟨hguarded, h.interrupted_iff, h.listener_iff, h.stopped_interrupted⟩

theorem Moves.counts {e : ServerEvent} (hmoves : s.Moves dataSize e t) :
    t.closeCalls = s.closeCalls ∧ t.danglingAborts = s.danglingAborts := by
  cases hmoves <;> exact ⟨rfl, rfl⟩

theorem runTcp_counts (s : ServerShard) (listens : Bool) :
    (s.runTcp listens).closeCalls = s.closeCalls ∧
      (s.runTcp listens).danglingAborts = s.danglingAborts := by
  unfold runTcp
  cases s.handlers.gate.enter with
  | none => exact ⟨rfl, rfl⟩
  | some gate => cases listens <;> exact ⟨rfl, rfl⟩

/-- The future of `gate_.close()` has resolved once accept loop and handlers are over. -/
theorem Consistent.stopFuture_resolved (h : s.Consistent) (hstopped : s.accept = .stopped)
    (hresolved : ∀ c ∈ s.handlers.tasks, c.resolved = true) : s.stopFuture = .resolved := by
  have hclosed : s.handlers.gate.closed = true := by
    rw [h.guarded.closed_eq]
    exact h.stopped_interrupted hstopped
  have hnone : s.handlers.unfinished ServerConnection.resolved = 0 := by
    apply List.countP_eq_zero.mpr
    intro c hc
    simp [hresolved c hc]
  have hcount : s.handlers.gate.count = 0 := by
    have hbalanced := h.guarded.balanced
    unfold Gated.Balanced at hbalanced
    simpa [hstopped, hnone] using hbalanced
  unfold stopFuture
  rw [if_pos (Gate.closeResolved_iff.mpr ⟨hclosed, hcount⟩)]

theorem Consistent.resolved_of_stopFuture (h : s.Consistent) (hfuture : s.stopFuture = .resolved) :
    ∀ c ∈ s.handlers.tasks, c.resolved = true := by
  unfold stopFuture at hfuture
  split at hfuture
  · rename_i hclose
    exact (h.guarded.close_resolved hclose).2
  · cases hfuture

theorem kept_consistent :
    Process.Kept (serverService dataSize) Consistent where
  armTimer _ h := ⟨⟨h.guarded.closed_eq, h.guarded.never_refused, h.guarded.balanced⟩,
    h.interrupted_iff, h.listener_iff, h.stopped_interrupted⟩
  stop _ h := h.stop
  step _ _ _ h hstep := h.moves (moves_of_step hstep)

/-- The run stage of a server: the accept loop is idle before it, and stopped once the future of
`run_tcp` has resolved. -/
theorem phases :
    Process.RunPhases (serverService dataSize) (fun s => s.Consistent ∧ s.accept = .idle) Consistent
      (fun s => s.Consistent ∧ s.accept = .stopped) where
  start i := ⟨.start i, rfl⟩
  call _ listens h := h.1.runTcp h.2 listens
  ended s h hfuture := by
    refine ⟨h, ?_⟩
    change s.runFuture = .resolved at hfuture
    unfold runFuture at hfuture
    cases haccept : s.accept <;> simp_all
  before_kept :=
    { armTimer _ h := ⟨kept_consistent.armTimer _ h.1, h.2⟩
      stop _ h := ⟨h.1.stop, h.2⟩
      step _ _ _ h hstep := by
        refine ⟨kept_consistent.step _ _ _ h.1 hstep, ?_⟩
        obtain ⟨-, hidle⟩ := h
        cases moves_of_step hstep with
        | stopAccept _ haccept | failAccept haccept =>
            rw [hidle] at haccept
            cases haccept
        | handOver | handler | tick => exact hidle }
  after_kept := kept_consistent
  ended_kept :=
    { armTimer _ h := ⟨kept_consistent.armTimer _ h.1, h.2⟩
      stop _ h := ⟨h.1.stop, h.2⟩
      step _ _ _ h hstep := by
        refine ⟨kept_consistent.step _ _ _ h.1 hstep, ?_⟩
        obtain ⟨-, hstopped⟩ := h
        cases moves_of_step hstep with
        | stopAccept => rfl
        | failAccept haccept =>
            rw [hstopped] at haccept
            cases haccept
        | handOver | handler | tick => exact hstopped }

/-- A stopped accept loop and handlers that are all over stay so. -/
theorem kept_quiet :
    Process.Kept (serverService dataSize)
      (fun s => s.accept = .stopped ∧ ∀ c ∈ s.handlers.tasks, c.resolved = true) where
  armTimer _ h := h
  stop _ h := h
  step s e t h hstep := by
    obtain ⟨hstopped, hresolved⟩ := h
    cases moves_of_step hstep with
    | stopAccept _ haccept | failAccept haccept | handOver _ haccept =>
        rw [hstopped] at haccept
        cases haccept
    | handler j e c h' hold hmove =>
        have hbusy := unresolved_of_step hmove
        rw [hresolved c (List.mem_of_getElem? hold)] at hbusy
        cases hbusy
    | tick => exact ⟨hstopped, hresolved⟩

end ServerShard

namespace Server

variable {n dataSize : Nat} {p q : Process n ServerShard}
  {es : List (ProcessEvent n ServerEvent Bool)}

abbrev system (dataSize n : Nat) : System (Process n ServerShard) (ProcessEvent n ServerEvent Bool) :=
  Process.system (serverService dataSize) n

abbrev start (dataSize n : Nat) : Process n ServerShard := Process.start (serverService dataSize) n

/-- A step that gives no handler a turn and takes no connection. -/
def Idles (e : ProcessEvent n ServerEvent Bool) : Prop :=
  (∀ i j f, e ≠ .continuation i (.handler j f)) ∧ ∀ i c, e ≠ .continuation i (.accept (some c))

theorem accepts_or_turns_or_idles (e : ProcessEvent n ServerEvent Bool) :
    (∃ i c, e = .continuation i (.accept (some c))) ∨
      (∃ i j f, e = .continuation i (.handler j f)) ∨ Idles e := by
  by_cases haccept : ∃ i c, e = .continuation i (.accept (some c))
  · exact Or.inl haccept
  · by_cases hturns : ∃ i j f, e = .continuation i (.handler j f)
    · exact Or.inr (Or.inl hturns)
    · push Not at haccept hturns
      exact Or.inr (Or.inr ⟨hturns, haccept⟩)

theorem consistent (h : (system dataSize n).Reachable p) (i : Fin n) : (p.shard i).Consistent :=
  ServerShard.phases.everywhere (fun i => .start i) ServerShard.kept_consistent
    (fun _ listens hidle h => h.runTcp hidle.2 listens) h i

/-! ### The one-shot calls of `stop()` -/

/-- No gate has been closed twice, and no listener has been followed after its end. -/
def Safe (p : Process n ServerShard) : Prop :=
  ∀ i, (p.shard i).closeCalls ≤ 1 ∧ (p.shard i).danglingAborts = 0

/-- The step is no `stop()` of main's chain, and no `stop()` of the callback on a shard whose accept
loop has failed. -/
def Orderly (p : Process n ServerShard) : ProcessEvent n ServerEvent Bool → Prop
  | .mainStop _ => False
  | .exitStop i => (p.shard i).accept ≠ .failed
  | _ => True

instance (p : Process n ServerShard) (e : ProcessEvent n ServerEvent Bool) :
    Decidable (Orderly p e) :=
  match e with
  | .mainStop _ => inferInstanceAs (Decidable False)
  | .exitStop _ => inferInstanceAs (Decidable (_ ≠ _))
  | .reporterSet _ _ | .callRun _ _ | .snapshot _ | .advance | .signal | .continuation _ _ =>
      inferInstanceAs (Decidable True)

/-- As long as the steps are orderly, each gate has been closed once if the callback has called
`stop()` on its shard, and not at all otherwise. -/
def ClosedByExit (p : Process n ServerShard) : Prop :=
  ∀ i, (p.shard i).closeCalls = (if p.exitCalled i then 1 else 0) ∧ (p.shard i).danglingAborts = 0

theorem ClosedByExit.step {e : ProcessEvent n ServerEvent Bool}
    (hreach : (system dataSize n).Reachable p) (h : ClosedByExit p) (horderly : Orderly p e)
    (hstep : (system dataSize n).step p e = some q) : ClosedByExit q := by
  intro i
  obtain ⟨hclose, habort⟩ := h i
  cases Process.moves_of_step hstep with
  | armed j =>
      by_cases hij : i = j
      · subst hij
        simpa [serverService] using h i
      · simpa [Function.update_of_ne hij] using h i
  | callRun j listens =>
      by_cases hij : i = j
      · subst hij
        obtain ⟨hc, ha⟩ := ServerShard.runTcp_counts (p.shard i) listens
        simpa [serverService, hc, ha] using h i
      · simpa [Function.update_of_ne hij] using h i
  | continuation j f s hf =>
      by_cases hij : i = j
      · subst hij
        obtain ⟨hc, ha⟩ := (ServerShard.moves_of_step hf).counts
        simpa [hc, ha] using h i
      · simpa [Function.update_of_ne hij] using h i
  | mainStop => exact horderly.elim
  | exitStop j hsignalled hcalled hstage =>
      by_cases hij : i = j
      · subst hij
        have hcons := consistent hreach i
        have hzero : (p.shard i).closeCalls = 0 := by simpa [hcalled] using hclose
        -- a listener that is gone would be that of a loop stopped by an earlier `stop()`, or failed
        have halive : ((p.shard i).listener && !(p.shard i).listenerAlive) = false := by
          by_contra hgone
          rw [Bool.not_eq_false, Bool.and_eq_true] at hgone
          obtain ⟨hlistener, hdead⟩ := hgone
          rcases hcons.listener_iff.mp hlistener with haccept | haccept | haccept
          · simp [ServerShard.listenerAlive, haccept] at hdead
          · have hpos := hcons.interrupted_iff.mp (hcons.stopped_interrupted haccept)
            omega
          · exact horderly haccept
        simp [serverService, ServerShard.stop, hzero, habort, halive]
      · simpa [Function.update_of_ne hij] using h i
  | notArmed | snapshot | goOn | giveUp | signal => exact h i

/-- In a run of a server each gate is closed at most once and no destroyed listener is followed,
in every state, exactly if no `stop()` comes from main's chain and none from the callback after
the accept loop of the shard has failed. -/
theorem shutdown_safe_iff (h : (system dataSize n).exec (start dataSize n) es = some p) :
    (system dataSize n).Always Safe (start dataSize n) es ↔
      (system dataSize n).EachStep Orderly (start dataSize n) es := by
  constructor
  · intro hsafe
    refine hsafe.eachStep h ?_
    intro pre t e t' ht hstep hsafe'
    have hreach : (system dataSize n).Reachable t := ⟨pre, ht⟩
    cases Process.moves_of_step hstep with
    | mainStop i hstage =>
        -- the chain gets here only after `stop()` has ended the accept loop of every shard
        obtain ⟨hcons, hstopped⟩ :=
          ServerShard.phases.ended_of_afterRun hreach (by rw [hstage]; rfl) i
        have hpos := hcons.interrupted_iff.mp (hcons.stopped_interrupted hstopped)
        have hone := (hsafe' i).1
        simp only [Function.update_self] at hone
        change (t.shard i).closeCalls + 1 ≤ 1 at hone
        omega
    | exitStop i =>
        intro hfailed
        have hlistener := (consistent hreach i).listener_iff.mpr (Or.inr (Or.inr hfailed))
        have hzero := (hsafe' i).2
        simp [serverService, ServerShard.stop, ServerShard.listenerAlive, hlistener, hfailed]
          at hzero
    | armed | notArmed | callRun | snapshot | goOn | giveUp | signal | continuation => trivial
  · intro horderly
    have hboth : (system dataSize n).Always
        (fun p => (system dataSize n).Reachable p ∧ ClosedByExit p) (start dataSize n) es :=
      horderly.always _ (fun s e t hs hC hst => ⟨hs.1.step hst, hs.2.step hs.1 hC hst⟩)
        ⟨.init _, fun i => ⟨rfl, rfl⟩⟩
    refine hboth.mono ?_
    rintro s ⟨-, hclosed⟩ i
    obtain ⟨hclose, habort⟩ := hclosed i
    refine ⟨?_, habort⟩
    rw [hclose]
    split <;> omega

/-- One shard is interrupted by the signal, and its accept loop ends. -/
def signalRun : List (ProcessEvent 1 ServerEvent Bool) :=
  [.reporterSet shardZero true, .advance, .callRun shardZero true, .signal, .exitStop shardZero,
    .continuation shardZero (.accept none)]

def afterSignal : Process 1 ServerShard :=
  ((system 64 1).exec (start 64 1) signalRun).get (by decide +kernel)

theorem shutdown_safe_iff_signal : (system 64 1).Always Safe (start 64 1) signalRun := by
  have hexec : (system 64 1).exec (start 64 1) signalRun = some afterSignal :=
    (Option.some_get _).symm
  exact (shutdown_safe_iff hexec).mpr (by decide +kernel)

/-- Main's chain then writes its report and stops the service. -/
def afterServiceStop : Process 1 ServerShard :=
  ((system 64 1).exec (start 64 1)
    (signalRun ++ [.advance, .snapshot shardZero, .advance, .mainStop shardZero])).get
    (by decide +kernel)

theorem service_stop_closes_twice : ¬∀ p, (system 64 1).Reachable p → Safe p := by
  intro hsafe
  have hreach : (system 64 1).Reachable afterServiceStop := ⟨_, (Option.some_get _).symm⟩
  have htwice : (afterServiceStop.shard 0).closeCalls = 2 ∧
      (afterServiceStop.shard 0).danglingAborts = 1 := by decide +kernel
  have hone := (hsafe _ hreach 0).1
  omega

/-! ### The report and the handlers -/

/-- When the report reads the histories of a shard its handlers are over, and none of them counts
anything there afterwards. -/
def ReportsQuiescent (dataSize : Nat) (es : List (ProcessEvent n ServerEvent Bool)) : Prop :=
  ∀ before i after, es = before ++ .snapshot i :: after →
    ∀ p, (system dataSize n).exec (start dataSize n) before = some p →
      (∀ c ∈ (p.shard i).handlers.tasks, c.resolved = true) ∧
      ∀ j e, .continuation i (.handler j e) ∈ after → e.packetsWritten = 0 ∧ e.packetsRead = 0

/-- The step does not read the histories of a shard before the future of its `gate_.close()` has
resolved. -/
def AwaitsGate (p : Process n ServerShard) : ProcessEvent n ServerEvent Bool → Prop
  | .snapshot i => (p.shard i).stopFuture = .resolved
  | _ => True

instance (p : Process n ServerShard) (e : ProcessEvent n ServerEvent Bool) :
    Decidable (AwaitsGate p e) :=
  match e with
  | .snapshot _ => inferInstanceAs (Decidable (_ = _))
  | .reporterSet _ _ | .callRun _ _ | .mainStop _ | .exitStop _ | .advance | .signal
  | .continuation _ _ => inferInstanceAs (Decidable True)

/-- A shard whose accept loop and handlers are all over starts nothing any more. -/
theorem no_handler_event {i : Fin n} {after : List (ProcessEvent n ServerEvent Bool)}
    (hpast : p.stage.pastRun = true)
    (hquiet : (p.shard i).accept = .stopped ∧ ∀ c ∈ (p.shard i).handlers.tasks, c.resolved = true)
    (hexec : (system dataSize n).exec p after = some q) (j : Nat) (e : LoopEvent) :
    .continuation i (.handler j e) ∉ after := by
  intro hmem
  obtain ⟨s, t, ⟨-, hresolved⟩, hstep⟩ :=
    ServerShard.kept_quiet.of_continuation hpast hquiet hexec hmem
  cases ServerShard.moves_of_step hstep with
  | handler _ _ c h hold hmove =>
      have hbusy := ServerShard.unresolved_of_step hmove
      rw [hresolved c (List.mem_of_getElem? hold)] at hbusy
      cases hbusy

/-- The reports of a server are taken after quiescence exactly if each of them awaits the gate of
its shard, which main's chain does not. -/
theorem reports_quiescent_iff (h : (system dataSize n).exec (start dataSize n) es = some p) :
    ReportsQuiescent dataSize es ↔
      (system dataSize n).EachStep AwaitsGate (start dataSize n) es := by
  constructor
  · rintro hquiet before e ⟨after, rfl⟩ t ht
    obtain ⟨t', hstep, -⟩ := System.exec_step _ ht h
    have hreach : (system dataSize n).Reachable t := ⟨before, ht⟩
    cases Process.moves_of_step hstep with
    | snapshot i hstage =>
        obtain ⟨hresolved, -⟩ := hquiet before i after (by simp) t ht
        obtain ⟨hcons, hstopped⟩ :=
          ServerShard.phases.ended_of_afterRun hreach (by rw [hstage]; rfl) i
        exact hcons.stopFuture_resolved hstopped hresolved
    | armed | notArmed | callRun | mainStop | goOn | giveUp | signal | exitStop | continuation =>
        trivial
  · rintro hawaits before i after rfl t ht
    have hawait : (t.shard i).stopFuture = .resolved :=
      hawaits before (.snapshot i) ⟨after, by simp⟩ t ht
    have hreach : (system dataSize n).Reachable t := ⟨before, ht⟩
    have hresolved := (consistent hreach i).resolved_of_stopFuture hawait
    refine ⟨hresolved, fun j e hmem => ?_⟩
    exfalso
    obtain ⟨t', hstep, hafter⟩ := System.exec_cons_some _ (System.exec_after _ ht h)
    cases Process.moves_of_step hstep with
    | snapshot _ hstage =>
        have hpast : t.stage.pastRun = true := by rw [hstage]; rfl
        obtain ⟨-, hstopped⟩ :=
          ServerShard.phases.ended_of_afterRun hreach (by rw [hstage]; rfl) i
        apply no_handler_event ?_ ?_ hafter j e hmem
        · exact hpast
        · exact ⟨hstopped, hresolved⟩

/-- A connection is accepted before the signal; its handler ends before the report. -/
def handledRun : List (ProcessEvent 1 ServerEvent Bool) :=
  [.reporterSet shardZero true, .advance, .callRun shardZero true,
    .continuation shardZero (.accept (some 7)), .signal, .exitStop shardZero,
    .continuation shardZero (.accept none), .continuation shardZero (.handler 0 (.write .written)),
    .continuation shardZero (.handler 0 (.write .top)),
    .continuation shardZero (.handler 0 (.write .closed)),
    .continuation shardZero (.handler 0 (.read (.read 0))), .advance, .snapshot shardZero]

def afterHandled : Process 1 ServerShard :=
  ((system 64 1).exec (start 64 1) handledRun).get (by decide +kernel)

theorem reports_quiescent_iff_handled : ReportsQuiescent 64 handledRun := by
  have hexec : (system 64 1).exec (start 64 1) handledRun = some afterHandled :=
    (Option.some_get _).symm
  exact (reports_quiescent_iff hexec).mpr (by decide +kernel)

/-- The same shutdown, with the report overtaking the handler. -/
def overtakenRun : List (ProcessEvent 1 ServerEvent Bool) :=
  [.reporterSet shardZero true, .advance, .callRun shardZero true,
    .continuation shardZero (.accept (some 7)), .signal, .exitStop shardZero,
    .continuation shardZero (.accept none), .advance, .snapshot shardZero,
    .continuation shardZero (.handler 0 (.write .written))]

theorem report_overtakes_handler :
    ¬∀ es p, (system 64 1).exec (start 64 1) es = some p → ReportsQuiescent 64 es := by
  intro hquiet
  have hexec : (system 64 1).exec (start 64 1) overtakenRun =
      some (((system 64 1).exec (start 64 1) overtakenRun).get (by decide +kernel)) :=
    (Option.some_get _).symm
  have hreport : (system 64 1).exec (start 64 1) (overtakenRun.take 8) =
      some (((system 64 1).exec (start 64 1) (overtakenRun.take 8)).get (by decide +kernel)) :=
    (Option.some_get _).symm
  obtain ⟨-, hlater⟩ := hquiet _ _ hexec (overtakenRun.take 8) 0
    [.continuation shardZero (.handler 0 (.write .written))] rfl _ hreport
  have hcounts := (hlater 0 (.write .written) (by simp)).1
  cases hcounts

end Server

end SeastarExperiments
