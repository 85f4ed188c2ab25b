import SeastarExperiments.DatagramService

/-! The calls that main's chain and the `at_exit` callback make, whatever the service is and however
the steps of the shards and the signal fall. Each stage of the chain calls once on each shard, and a
later stage calls nowhere before the earlier one has called everywhere. -/

namespace SeastarExperiments

open Transition

/-- What main's chain calls on each shard: `run_tcp` or `run_udp`, the getters of the histories, and
the `stop()` of `service->stop()`. -/
inductive ChainCall
  | run
  | snapshot
  | stop

namespace ChainCall

/-- The stage that makes the call. -/
def stage : ChainCall → Stage
  | run => .run
  | snapshot => .report
  | stop => .stop

end ChainCall

namespace ProcessEvent

variable {n : Nat} {Event Input : Type}

/-- The event is this call of the chain on this shard. -/
def makes (call : ChainCall) (i : Fin n) : ProcessEvent n Event Input → Bool
  | .callRun j _ => match call with
      | .run => j = i
      | _ => false
  | .snapshot j => match call with
      | .snapshot => j = i
      | _ => false
  | .mainStop j => match call with
      | .stop => j = i
      | _ => false
  | _ => false

/-- The event is the callback's call of `stop()` on this shard. -/
def exits (i : Fin n) : ProcessEvent n Event Input → Bool
  | .exitStop j => j = i
  | _ => false

end ProcessEvent

namespace Stage

/-- The calls that a shard has seen by this stage, which has itself called there or not. -/
def calls (stage : Stage) (called : Bool) : ChainCall → Nat
  | .run => match stage with
      | setupReporter => 0
      | run => called.toNat
      | _ => 1
  | .snapshot => match stage with
      | setupReporter => 0
      | run => 0
      | report => called.toNat
      | _ => 1
  | .stop => match stage with
      | stop => called.toNat
      | done => 1
      | _ => 0

theorem calls_le_one (stage : Stage) (called : Bool) (call : ChainCall) :
    stage.calls called call ≤ 1 := by
  cases stage <;> cases called <;> cases call <;> decide

/-- The order of the stages, across shards. -/
theorem calls_ordered (stage : Stage) (here there : Bool) :
    stage.calls here .snapshot ≤ stage.calls there .run ∧
      stage.calls here .stop ≤ stage.calls there .snapshot := by
  cases stage <;> cases here <;> cases there <;> decide

theorem calls_of_ne {stage : Stage} {call : ChainCall} (h : stage ≠ call.stage)
    (here there : Bool) : stage.calls here call = stage.calls there call := by
  cases call <;> cases stage <;> first | rfl | exact absurd rfl h

theorem calls_own (call : ChainCall) (called : Bool) :
    call.stage.calls called call = called.toNat := by
  cases call <;> rfl

theorem calls_next {stage : Stage} (h : stage ≠ .done ∧ stage ≠ .failed) (call : ChainCall)
    {called : Bool} (hcalled : stage ≠ .setupReporter → called = true) :
    stage.next.calls false call = stage.calls called call := by
  cases stage with
  | setupReporter => cases call <;> rfl
  | run | report | stop =>
      rw [hcalled (by decide)]
      cases call <;> rfl
  | done => exact absurd rfl h.1
  | failed => exact absurd rfl h.2

end Stage

namespace Process

variable {n : Nat} {Shard Event Input : Type} {svc : Service Shard Event Input}
  {p q : Process n Shard} {es : List (ProcessEvent n Event Input)}

/-- How often the chain has made a call on a shard. -/
def callCount (call : ChainCall) (i : Fin n) (es : List (ProcessEvent n Event Input)) : Nat :=
  es.countP (ProcessEvent.makes call i)

def exitCount (i : Fin n) (es : List (ProcessEvent n Event Input)) : Nat :=
  es.countP (ProcessEvent.exits i)

/-- The calls made so far are those of this stage and of the stages before it. -/
def CallsOf (es : List (ProcessEvent n Event Input)) (stage : Stage) (called : Fin n → Bool) :
    Prop :=
  ∀ call i, callCount call i es = stage.calls (called i) call

/-- The calls of a run that has come to this state; a chain that has failed has made the calls of the
stage it failed in. -/
def Accounts (es : List (ProcessEvent n Event Input)) (p : Process n Shard) : Prop :=
  CallsOf es p.stage p.called ∨ p.stage = .failed ∧ ∃ stage called, CallsOf es stage called

theorem countP_concat (f : ProcessEvent n Event Input → Bool)
    (es : List (ProcessEvent n Event Input)) (e : ProcessEvent n Event Input) :
    (es ++ [e]).countP f = es.countP f + (f e).toNat := by
  cases he : f e <;> simp [he]

/-- An event that is no call of main's chain. -/
theorem CallsOf.skip {stage : Stage} {called : Fin n → Bool} {e : ProcessEvent n Event Input}
    (h : CallsOf es stage called) (he : ∀ call i, e.makes call i = false) :
    CallsOf (es ++ [e]) stage called := by
  intro call i
  rw [callCount, countP_concat, he call i]
  exact h call i

/-- A first call on a shard, by the stage that makes it. -/
theorem CallsOf.call {c : ChainCall} {called : Fin n → Bool} {i : Fin n}
    {e : ProcessEvent n Event Input} (h : CallsOf es c.stage called) (hfirst : called i = false)
    (hown : ∀ j, e.makes c j = decide (i = j))
    (hother : ∀ call j, call.stage ≠ c.stage → e.makes call j = false) :
    CallsOf (es ++ [e]) c.stage (Function.update called i true) := by
  intro call j
  rw [callCount, countP_concat]
  by_cases hcall : call.stage = c.stage
  · obtain rfl : call = c := by cases call <;> cases c <;> first | rfl | cases hcall
    have hbefore := h call j
    rw [callCount, Stage.calls_own] at hbefore
    rw [hbefore, hown j, Stage.calls_own]
    by_cases hij : i = j
    · subst hij
      simp [hfirst]
    · simp [Function.update_of_ne (Ne.symm hij), hij]
  · rw [hother call j hcall]
    exact (h call j).trans (Stage.calls_of_ne (Ne.symm hcall) _ _)

theorem called_of_resolved (hresolved : p.future svc i = .resolved)
    (hstage : p.stage ≠ .setupReporter) : p.called i = true := by
  by_contra hcalled
  unfold future at hresolved
  cases hp : p.stage <;> simp_all

theorem Accounts.step {e : ProcessEvent n Event Input} (h : Accounts es p)
    (hstep : (system svc n).step p e = some q) : Accounts (es ++ [e]) q := by
  have hmoves := moves_of_step hstep
  have hskip (he : ∀ call i, e.makes call i = false) (hstage : q.stage = p.stage)
      (hcalled : q.called = p.called) : Accounts (es ++ [e]) q := by
    rcases h with h | ⟨hfailed, stage, called, h⟩
    · left
      rw [hstage, hcalled]
      exact h.skip he
    · right
      exact ⟨hstage.trans hfailed, stage, called, h.skip he⟩
  have hlive (hgoing : p.stage ≠ .failed) : CallsOf es p.stage p.called := by
    rcases h with h | ⟨hfailed, -⟩
    · exact h
    · exact absurd hfailed hgoing
  cases hmoves with
  | callRun i input hstage hfirst =>
      left
      have hbefore := hlive (by rw [hstage]; decide)
      rw [hstage] at hbefore ⊢
      refine CallsOf.call (c := .run) hbefore hfirst (fun j => rfl) ?_
      intro call j hcall
      cases call <;> first | rfl | exact absurd rfl hcall
  | snapshot i hstage hfirst =>
      left
      have hbefore := hlive (by rw [hstage]; decide)
      rw [hstage] at hbefore ⊢
      refine CallsOf.call (c := .snapshot) hbefore hfirst (fun j => rfl) ?_
      intro call j hcall
      cases call <;> first | rfl | exact absurd rfl hcall
  | mainStop i hstage hfirst =>
      left
      have hbefore := hlive (by rw [hstage]; decide)
      rw [hstage] at hbefore ⊢
      refine CallsOf.call (c := .stop) hbefore hfirst (fun j => rfl) ?_
      intro call j hcall
      cases call <;> first | rfl | exact absurd rfl hcall
  | goOn hgoing hresolved =>
      left
      intro call i
      have hbefore := (hlive hgoing.2).skip (e := .advance) (fun _ _ => rfl) call i
      rw [hbefore]
      exact (Stage.calls_next hgoing call (called_of_resolved (hresolved i))).symm
  | giveUp hgoing => exact Or.inr ⟨rfl, p.stage, p.called, (hlive hgoing.2).skip fun _ _ => rfl⟩
  | armed | notArmed | signal | exitStop | continuation => exact hskip (fun _ _ => rfl) rfl rfl

theorem accounts (h : (system svc n).exec (start svc n) es = some p) : Accounts es p :=
  System.exec_induction (S := system svc n) (motive := Accounts)
    (Or.inl fun call i => by cases call <;> rfl) (fun _ _ _ _ _ ih hstep => ih.step hstep) h

theorem exitCount_eq (h : (system svc n).exec (start svc n) es = some p) (i : Fin n) :
    exitCount i es = (p.exitCalled i).toNat := by
  apply System.exec_induction (S := system svc n)
    (motive := fun es p => exitCount i es = (p.exitCalled i).toNat) rfl ?_ h
  intro es p e q _ ih hstep
  rw [exitCount, countP_concat]
  rw [exitCount] at ih
  rw [ih]
  cases moves_of_step hstep with
  | exitStop j hsignalled hfirst =>
      show _ + (decide (j = i)).toNat = (Function.update p.exitCalled j true i).toNat
      by_cases hij : j = i
      · subst hij
        simp [hfirst]
      · simp [Function.update_of_ne (Ne.symm hij), hij]
  | armed | notArmed | callRun | snapshot | mainStop | goOn | giveUp | signal | continuation => rfl

/-- A history has been read on exactly the shards on which the chain has called for it. -/
theorem snapshot_isSome (h : (system svc n).exec (start svc n) es = some p) (i : Fin n) :
    callCount .snapshot i es = (p.snapshots i).isSome.toNat := by
  apply System.exec_induction (S := system svc n)
    (motive := fun es p => callCount .snapshot i es = (p.snapshots i).isSome.toNat) rfl ?_ h
  intro es p e q hp ih hstep
  rw [callCount, countP_concat, ← callCount]
  cases moves_of_step hstep with
  | snapshot j hstage hfirst =>
      by_cases hij : j = i
      · subst hij
        have hnone : callCount .snapshot j es = 0 := by
          rcases accounts hp with hcalls | ⟨hfailed, -⟩
          · rw [hcalls, hstage, hfirst]
            rfl
          · rw [hstage] at hfailed
            cases hfailed
        simp [hnone, ProcessEvent.makes]
      · simpa [ProcessEvent.makes, hij, Function.update_of_ne (Ne.symm hij)] using ih
  | armed | notArmed | callRun | mainStop | goOn | giveUp | signal | exitStop | continuation =>
      exact ih

/-- Once the report is through, it has read every shard. -/
theorem snapshots_isSome (h : (system svc n).Reachable p)
    (hstage : p.stage = .stop ∨ p.stage = .done) (i : Fin n) : (p.snapshots i).isSome = true := by
  obtain ⟨es, hes⟩ := h
  have hcount : callCount .snapshot i es = 1 := by
    rcases accounts hes with hcalls | ⟨hfailed, -⟩
    · rw [hcalls]
      rcases hstage with hstage | hstage <;> rw [hstage] <;> rfl
    · rcases hstage with hstage | hstage <;> rw [hstage] at hfailed <;> cases hfailed
  rw [snapshot_isSome hes i] at hcount
  exact Bool.toNat_eq_one.mp hcount

/-- What main's chain and the callback have called by now. -/
structure Ordered (es : List (ProcessEvent n Event Input)) (p : Process n Shard) : Prop where
  /-- No call is made twice on a shard, the callback's `stop()` included. -/
  once : ∀ i, (∀ call, callCount call i es ≤ 1) ∧ exitCount i es ≤ 1
  /-- No history is read before the service runs everywhere. -/
  runs_first : ∀ i j, callCount .snapshot i es ≤ callCount .run j es
  /-- No instance is stopped by the chain before every history has been read. -/
  stops_last : ∀ i j, callCount .stop i es ≤ callCount .snapshot j es
  all_called : p.stage = .done → ∀ i call, callCount call i es = 1

/-- In every run of every service the calls of the chain are ordered, on each shard and across the
shards. -/
theorem chain_ordered (h : (system svc n).exec (start svc n) es = some p) : Ordered es p := by
  have hexit (i : Fin n) : exitCount i es ≤ 1 := by
    rw [exitCount_eq h i]
    exact Bool.toNat_le _
  have hof {stage : Stage} {called : Fin n → Bool} (hcalls : CallsOf es stage called) :
      (∀ i, (∀ call, callCount call i es ≤ 1) ∧ exitCount i es ≤ 1) ∧
        (∀ i j, callCount .snapshot i es ≤ callCount .run j es) ∧
        ∀ i j, callCount .stop i es ≤ callCount .snapshot j es := by
    refine ⟨fun i => ⟨fun call => ?_, hexit i⟩, fun i j => ?_, fun i j => ?_⟩
    · rw [hcalls call i]
      exact stage.calls_le_one _ _
    · rw [hcalls, hcalls]
      exact (stage.calls_ordered _ _).1
    · rw [hcalls, hcalls]
      exact (stage.calls_ordered _ _).2
  rcases accounts h with hcalls | ⟨hfailed, stage, called, hcalls⟩
  · obtain ⟨honce, hruns, hstops⟩ := hof hcalls
    refine ⟨honce, hruns, hstops, fun hdone i call => ?_⟩
    rw [hcalls call i, hdone]
    cases call <;> rfl
  · obtain ⟨honce, hruns, hstops⟩ := hof hcalls
    exact ⟨honce, hruns, hstops, fun hdone => by rw [hfailed] at hdone; cases hdone⟩

/-- Two shards of `server`, called in the other order and stopped one after the other. -/
def twoShardRun : List (ProcessEvent 2 (DatagramEvent ReceiveEvent) Bool) :=
  [.reporterSet 1 true, .reporterSet 0 true, .advance, .callRun 1 true, .callRun 0 true,
    .continuation 0 (.loop (.received 16)), .signal, .exitStop 1,
    .continuation 1 (.loop (.received 16)), .continuation 1 (.loop .top), .exitStop 0,
    .continuation 0 (.loop .top), .advance, .snapshot 1, .snapshot 0, .advance, .mainStop 0,
    .mainStop 1, .advance]

def afterTwoShards : Process 2 (DatagramShard ReceiveLoop) :=
  ((system (datagramService serverLoop) 2).exec (start (datagramService serverLoop) 2)
    twoShardRun).get (by decide +kernel)

theorem two_shards_ordered : Ordered twoShardRun afterTwoShards :=
  chain_ordered (Option.some_get _).symm

/-- The call of the run stage finds the instance as it was before the run stage. -/
theorem RunPhases.before_of_onShard {Before After Ended : Shard → Prop}
    (phases : RunPhases svc Before After Ended) (hreach : (system svc n).Reachable p)
    {e : ProcessEvent n Event Input} (h : p.Moves svc e q) {i : Fin n} {input : Input}
    (hcall : onShard i e = some (.run input)) : Before (p.shard i) := by
  cases h with
  | callRun j input' hstage hfirst =>
      obtain ⟨rfl, -⟩ := Option.ite_none_right_eq_some.mp hcall
      exact phases.before hreach (Or.inr ⟨hstage, hfirst⟩)
  | armed | notArmed | snapshot | mainStop | goOn | giveUp | signal | exitStop | continuation =>
      simp [onShard] at hcall

end Process

end SeastarExperiments
