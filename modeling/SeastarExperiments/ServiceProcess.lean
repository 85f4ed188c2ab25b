import Mathlib.Data.Fintype.Basic
import Mathlib.Logic.Function.Basic
import SeastarExperiments.BaseTransition
import SeastarExperiments.Measurement

/-! The process around a `throughput_service`: one instance on each shard, main's future chain, and
the callback that `at_exit` runs on a signal. The chain sets up the reporters, runs the service,
writes the report and stops the service, each stage on all shards and each waiting for all shards
of the one before; the callback calls `stop()` on every shard alongside it. -/

namespace SeastarExperiments

open Transition

/-- What has become of a future. -/
inductive Outcome
  | pending
  | resolved
  | failed
  deriving DecidableEq

/-- One program's `throughput_service`: an instance's state on its shard, what the calls made on it
do, and the futures two of them return. `Input` is what a call of `run_tcp` or `run_udp` finds in
its environment, `Event` a continuation that runs later on the shard. -/
structure Service (Shard Event Input : Type) where
  start : Nat → Shard
  /-- The continuation of `setup_reporter`. -/
  armTimer : Shard → Shard
  run : Shard → Input → Shard
  stop : Shard → Shard
  step : Shard → Event → Option Shard
  runFuture : Shard → Outcome
  stopFuture : Shard → Outcome
  /-- `get_read_measurements` and `get_write_measurements`. -/
  histories : Shard → List Measurement × List Measurement

/-- What happens to one instance. -/
inductive ServiceEvent (Event Input : Type)
  | armTimer
  | run (input : Input)
  | stop
  | continuation (e : Event)
  deriving DecidableEq

namespace Service

variable {Shard Event Input : Type} (svc : Service Shard Event Input)

def call (s : Shard) : ServiceEvent Event Input → Option Shard
  | .armTimer => some (svc.armTimer s)
  | .run input => some (svc.run s input)
  | .stop => some (svc.stop s)
  | .continuation e => svc.step s e

/-- One instance by itself, with every order of the calls on it. -/
def system (shardId : Nat) : System Shard (ServiceEvent Event Input) where
  init := svc.start shardId
  step := svc.call

end Service

/-- The one shard of a process on one shard. -/
abbrev shardZero : Fin 1 := 0

/-- The stages of main's chain. -/
inductive Stage
  | setupReporter
  | run
  | report
  | stop
  | done
  | failed
  deriving DecidableEq

namespace Stage

def next : Stage → Stage
  | setupReporter => run
  | run => report
  | report => stop
  | stop => done
  | done => done
  | failed => failed

/-- Main's chain has come past the stage that runs the service. -/
def afterRun : Stage → Bool
  | report => true
  | stop => true
  | done => true
  | _ => false

/-- No call of the run stage comes any more. -/
def pastRun : Stage → Bool
  | setupReporter => false
  | run => false
  | _ => true

end Stage

/-- The state of a process on `n` shards. -/
structure Process (n : Nat) (Shard : Type) where
  shard : Fin n → Shard
  stage : Stage := .setupReporter
  /-- The shards on which the present stage has made its call. -/
  called : Fin n → Bool := fun _ => false
  /-- The futures of `setup_reporter`. -/
  setUp : Fin n → Outcome := fun _ => .pending
  signalled : Bool := false
  /-- The shards on which the `at_exit` callback has called `stop()`. -/
  exitCalled : Fin n → Bool := fun _ => false
  /-- The histories that the report has read. -/
  snapshots : Fin n → Option (List Measurement × List Measurement) := fun _ => none

inductive ProcessEvent (n : Nat) (Event Input : Type)
  /-- `setup_reporter` ends on this shard, with the timer armed or with an exception. -/
  | reporterSet (i : Fin n) (succeeded : Bool)
  /-- `invoke_on_all` calls `run_tcp` or `run_udp` on this shard. -/
  | callRun (i : Fin n) (input : Input)
  /-- `write_throughput_report` reads the histories of this shard. -/
  | snapshot (i : Fin n)
  /-- `service->stop()` calls `stop()` on this shard. -/
  | mainStop (i : Fin n)
  /-- The futures of the present stage are there on every shard, and the chain goes on. -/
  | advance
  | signal
  /-- The `at_exit` callback calls `stop()` on this shard. -/
  | exitStop (i : Fin n)
  | continuation (i : Fin n) (e : Event)
  deriving DecidableEq

/-- The event leads to a `stop()`. -/
def ProcessEvent.stops {n : Nat} {Event Input : Type} : ProcessEvent n Event Input → Bool
  | .mainStop _ => true
  | .signal => true
  | .exitStop _ => true
  | _ => false

namespace Process

variable {n : Nat} {Shard Event Input : Type} (svc : Service Shard Event Input)

/-- The future that the present stage waits for on a shard. -/
def future (p : Process n Shard) (i : Fin n) : Outcome :=
  match p.stage with
  | .setupReporter => p.setUp i
  | .run => if p.called i then svc.runFuture (p.shard i) else .pending
  | .report => if p.called i then .resolved else .pending
  | .stop => if p.called i then svc.stopFuture (p.shard i) else .pending
  | .done => .pending
  | .failed => .pending

/-- The present stage calls on this shard, for the first time. -/
def callOn (p : Process n Shard) (stage : Stage) (i : Fin n) (s : Shard) :
    Option (Process n Shard) :=
  if p.stage = stage ∧ p.called i = false then
    some { p with
      called := Function.update p.called i true
      shard := Function.update p.shard i s }
  else none

def step (p : Process n Shard) : ProcessEvent n Event Input → Option (Process n Shard)
  | .reporterSet i succeeded =>
      if p.stage = .setupReporter ∧ p.setUp i = .pending then
        some (if succeeded then
          { p with
            setUp := Function.update p.setUp i .resolved
            shard := Function.update p.shard i (svc.armTimer (p.shard i)) }
        else { p with setUp := Function.update p.setUp i .failed })
      else none
  | .callRun i input => p.callOn .run i (svc.run (p.shard i) input)
  | .snapshot i => (p.callOn .report i (p.shard i)).map fun q =>
      { q with snapshots := Function.update q.snapshots i (some (svc.histories (p.shard i))) }
  | .mainStop i => p.callOn .stop i (svc.stop (p.shard i))
  | .advance =>
      if p.stage = .done ∨ p.stage = .failed ∨ ∃ i, p.future svc i = .pending then none
      else if ∀ i, p.future svc i = .resolved then
        some { p with stage := p.stage.next, called := fun _ => false }
      else some { p with stage := .failed, called := fun _ => false }
  | .signal => if p.signalled then none else some { p with signalled := true }
  | .exitStop i =>
      -- once the chain is done the instances are gone
      if p.signalled = true ∧ p.exitCalled i = false ∧ p.stage ≠ .done then
        some { p with
          exitCalled := Function.update p.exitCalled i true
          shard := Function.update p.shard i (svc.stop (p.shard i)) }
      else none
  | .continuation i e => (svc.step (p.shard i) e).map fun s =>
      { p with shard := Function.update p.shard i s }

/-- Every shard has its instance, and main's chain begins. -/
def start (n : Nat) : Process n Shard where
  shard i := svc.start i

def system (n : Nat) : System (Process n Shard) (ProcessEvent n Event Input) where
  init := start svc n
  step := step svc

/-- What a step of a process can be, with everything it changes. -/
inductive Moves (p : Process n Shard) : ProcessEvent n Event Input → Process n Shard → Prop
  | armed (i : Fin n) (hstage : p.stage = .setupReporter) (hpending : p.setUp i = .pending) :
      Moves p (.reporterSet i true)
        { p with
          setUp := Function.update p.setUp i .resolved
          shard := Function.update p.shard i (svc.armTimer (p.shard i)) }
  | notArmed (i : Fin n) (hstage : p.stage = .setupReporter) (hpending : p.setUp i = .pending) :
      Moves p (.reporterSet i false) { p with setUp := Function.update p.setUp i .failed }
  | callRun (i : Fin n) (input : Input) (hstage : p.stage = .run) (hcalled : p.called i = false) :
      Moves p (.callRun i input)
        { p with
          called := Function.update p.called i true
          shard := Function.update p.shard i (svc.run (p.shard i) input) }
  | snapshot (i : Fin n) (hstage : p.stage = .report) (hcalled : p.called i = false) :
      Moves p (.snapshot i)
        { p with
          called := Function.update p.called i true
          snapshots := Function.update p.snapshots i (some (svc.histories (p.shard i))) }
  | mainStop (i : Fin n) (hstage : p.stage = .stop) (hcalled : p.called i = false) :
      Moves p (.mainStop i)
        { p with
          called := Function.update p.called i true
          shard := Function.update p.shard i (svc.stop (p.shard i)) }
  | goOn (hstage : p.stage ≠ .done ∧ p.stage ≠ .failed)
      (hresolved : ∀ i, p.future svc i = .resolved) :
      Moves p .advance { p with stage := p.stage.next, called := fun _ => false }
  | giveUp (hstage : p.stage ≠ .done ∧ p.stage ≠ .failed)
      (hfailed : ∃ i, p.future svc i = .failed) :
      Moves p .advance { p with stage := .failed, called := fun _ => false }
  | signal (hfirst : p.signalled = false) : Moves p .signal { p with signalled := true }
  | exitStop (i : Fin n) (hsignalled : p.signalled = true) (hcalled : p.exitCalled i = false)
      (hstage : p.stage ≠ .done) :
      Moves p (.exitStop i)
        { p with
          exitCalled := Function.update p.exitCalled i true
          shard := Function.update p.shard i (svc.stop (p.shard i)) }
  | continuation (i : Fin n) (e : Event) (s : Shard) (hstep : svc.step (p.shard i) e = some s) :
      Moves p (.continuation i e) { p with shard := Function.update p.shard i s }

variable {svc} {p q : Process n Shard}

theorem callOn_some {stage : Stage} {i : Fin n} {s : Shard} (h : p.callOn stage i s = some q) :
    p.stage = stage ∧ p.called i = false ∧
      q = { p with
        called := Function.update p.called i true
        shard := Function.update p.shard i s } := by
  unfold callOn at h
  split at h
  · rename_i hcond
    exact ⟨hcond.1, hcond.2, by simpa using h.symm⟩
  · cases h

theorem moves_of_step {e : ProcessEvent n Event Input} (h : (system svc n).step p e = some q) :
    p.Moves svc e q := by
  change p.step svc e = some q at h
  cases e with
  | reporterSet i succeeded =>
      simp only [step] at h
      split at h
      · rename_i hcond
        cases succeeded with
        | true =>
            cases h
            exact .armed i hcond.1 hcond.2
        | false =>
            cases h
            exact .notArmed i hcond.1 hcond.2
      · cases h
  | callRun i input =>
      obtain ⟨hstage, hcalled, rfl⟩ := callOn_some h
      exact .callRun i input hstage hcalled
  | snapshot i =>
      obtain ⟨r, hr, rfl⟩ := Option.map_eq_some_iff.mp h
      obtain ⟨hstage, hcalled, rfl⟩ := callOn_some hr
      rw [Function.update_eq_self]
      exact .snapshot i hstage hcalled
  | mainStop i =>
      obtain ⟨hstage, hcalled, rfl⟩ := callOn_some h
      exact .mainStop i hstage hcalled
  | advance =>
      simp only [step] at h
      split at h
      · cases h
      · rename_i hcond
        push Not at hcond
        obtain ⟨hdone, hfailed, hsettled⟩ := hcond
        split at h
        · rename_i hresolved
          cases h
          exact .goOn ⟨hdone, hfailed⟩ hresolved
        · rename_i hresolved
          cases h
          push Not at hresolved
          obtain ⟨i, hi⟩ := hresolved
          refine .giveUp ⟨hdone, hfailed⟩ ⟨i, ?_⟩
          have hnot := hsettled i
          cases hf : p.future svc i <;> simp_all
  | signal =>
      simp only [step] at h
      split at h
      · cases h
      · rename_i hfirst
        cases h
        exact .signal (by simpa using hfirst)
  | exitStop i =>
      simp only [step] at h
      split at h
      · rename_i hcond
        cases h
        exact .exitStop i hcond.1 hcond.2.1 hcond.2.2
      · cases h
  | continuation i e =>
      obtain ⟨s, hs, rfl⟩ := Option.map_eq_some_iff.mp h
      exact .continuation i e s hs

theorem exists_callRun {i : Fin n} (hstage : p.stage = .run) (hcalled : p.called i = false)
    (input : Input) :
    ∃ q, (system svc n).step p (.callRun i input) = some q ∧
      q.shard i = svc.run (p.shard i) input :=
  ⟨_, if_pos ⟨hstage, hcalled⟩, Function.update_self _ _ p.shard⟩

theorem exists_continuation {i : Fin n} {e : Event} {s : Shard}
    (h : svc.step (p.shard i) e = some s) :
    ∃ q, (system svc n).step p (.continuation i e) = some q ∧ q.shard i = s :=
  ⟨_, congrArg (Option.map _) h, Function.update_self _ _ p.shard⟩

/-- The reporters of these shards can be set up, and of no others. -/
theorem exists_reporters_set (svc : Service Shard Event Input) {l : List (Fin n)} (hl : l.Nodup) :
    ∃ p, (system svc n).exec (start svc n) (l.map fun i => .reporterSet i true) = some p ∧
      p.stage = .setupReporter ∧
      ∀ i, (i ∈ l → p.setUp i = .resolved ∧ p.shard i = svc.armTimer (svc.start i)) ∧
        (i ∉ l → p.setUp i = .pending ∧ p.shard i = svc.start i) := by
  induction l using List.reverseRecOn with
  | nil => exact ⟨start svc n, rfl, rfl, fun i => ⟨by simp, fun _ => ⟨rfl, rfl⟩⟩⟩
  | append_singleton l j ih =>
      rw [List.nodup_append] at hl
      obtain ⟨hnodup, -, hfresh⟩ := hl
      obtain ⟨p, hp, hstage, hset⟩ := ih hnodup
      have hj : j ∉ l := fun hmem => hfresh j hmem j List.mem_cons_self rfl
      obtain ⟨hpending, hshard⟩ := (hset j).2 hj
      have hstep : (system svc n).step p (.reporterSet j true) = some
          { p with
            setUp := Function.update p.setUp j .resolved
            shard := Function.update p.shard j (svc.armTimer (p.shard j)) } :=
        if_pos ⟨hstage, hpending⟩
      refine ⟨{ p with
        setUp := Function.update p.setUp j .resolved
        shard := Function.update p.shard j (svc.armTimer (p.shard j)) }, ?_, hstage, fun i => ?_⟩
      · rw [List.map_append]
        exact System.exec_trans _ hp ((System.exec_singleton _ _ _).trans hstep)
      · by_cases hij : i = j
        · subst hij
          simp [hshard]
        · simpa [Function.update_of_ne hij, hij] using hset i

/-- Every process can come to its run stage with its timers armed and nothing else done. -/
theorem exists_run_stage (svc : Service Shard Event Input) (n : Nat) :
    ∃ p, (system svc n).Reachable p ∧ p.stage = .run ∧ (∀ i, p.called i = false) ∧
      ∀ i, p.shard i = svc.armTimer (svc.start i) := by
  obtain ⟨p, hp, hstage, hset⟩ := exists_reporters_set svc (List.nodup_finRange n)
  have hall (i : Fin n) := (hset i).1 (List.mem_finRange i)
  have hfuture (i : Fin n) : p.future svc i = .resolved := by
    rw [future, hstage]
    exact (hall i).1
  have hstep : (system svc n).step p .advance =
      some { p with stage := .run, called := fun _ => false } := by
    change p.step svc .advance = _
    simp [step, hstage, hfuture, Stage.next]
  exact ⟨_, System.Reachable.step ⟨_, hp⟩ hstep, rfl, fun _ => rfl, fun i => (hall i).2⟩

/-- The step of the instance on one shard that a step of the process is, if it is one. -/
def onShard (i : Fin n) : ProcessEvent n Event Input → Option (ServiceEvent Event Input)
  | .reporterSet j succeeded => if j = i ∧ succeeded = true then some .armTimer else none
  | .callRun j input => if j = i then some (.run input) else none
  | .mainStop j => if j = i then some .stop else none
  | .exitStop j => if j = i then some .stop else none
  | .continuation j e => if j = i then some (.continuation e) else none
  | .snapshot _ => none
  | .advance => none
  | .signal => none

theorem Moves.onShard {e : ProcessEvent n Event Input} (h : p.Moves svc e q) (i : Fin n) :
    (svc.system i).exec (p.shard i) (Process.onShard i e).toList = some (q.shard i) := by
  have hupdate (j : Fin n) (s : Shard) (f : ServiceEvent Event Input)
      (hf : svc.call (p.shard j) f = some s) :
      (svc.system i).exec (p.shard i) (if j = i then some f else none).toList =
        some (Function.update p.shard j s i) := by
    by_cases hji : j = i
    · subst hji
      rw [if_pos rfl, Function.update_self]
      exact (System.exec_singleton _ _ _).trans hf
    · rw [if_neg hji, Function.update_of_ne (Ne.symm hji)]
      rfl
  cases h with
  | armed j =>
      simp only [Process.onShard, and_true]
      exact hupdate j _ .armTimer rfl
  | notArmed j =>
      simp only [Process.onShard, Bool.false_eq_true, and_false, if_false]
      rfl
  | callRun j input => exact hupdate j _ (.run input) rfl
  | mainStop j => exact hupdate j _ .stop rfl
  | exitStop j => exact hupdate j _ .stop rfl
  | continuation j e s hstep => exact hupdate j s (.continuation e) hstep
  | snapshot | goOn | giveUp | signal => rfl

/-- A step of the process leaves an instance alone or is a call on it. -/
theorem Moves.same_or_call {e : ProcessEvent n Event Input} (h : p.Moves svc e q) (i : Fin n) :
    q.shard i = p.shard i ∨
      ∃ f, Process.onShard i e = some f ∧ svc.call (p.shard i) f = some (q.shard i) := by
  have hmove := h.onShard i
  cases he : Process.onShard i e with
  | none =>
      rw [he] at hmove
      exact Or.inl (Option.some.inj hmove).symm
  | some f =>
      rw [he, Option.toList_some, System.exec_singleton] at hmove
      exact Or.inr ⟨f, rfl, hmove⟩

theorem onShard_ne_stop {e : ProcessEvent n Event Input} (h : e.stops = false) (i : Fin n) :
    Process.onShard i e ≠ some .stop := by
  cases e <;> simp_all [Process.onShard, ProcessEvent.stops]

theorem eq_continuation_of_onShard {e : ProcessEvent n Event Input} {i : Fin n} {f : Event}
    (h : Process.onShard i e = some (.continuation f)) : e = .continuation i f := by
  cases e <;> simp [Process.onShard] at h
  obtain ⟨rfl, rfl⟩ := h
  rfl

/-- What every call but `stop()` keeps is kept by every step that leads to no `stop()`. -/
theorem Moves.unstopped {P : Shard → Prop}
    (hcall : ∀ s f t, P s → f ≠ .stop → svc.call s f = some t → P t)
    {e : ProcessEvent n Event Input} (h : p.Moves svc e q) (he : e.stops = false) {i : Fin n}
    (hp : P (p.shard i)) : P (q.shard i) := by
  rcases h.same_or_call i with hsame | ⟨f, hf, hstep⟩
  · rw [hsame]
    exact hp
  · refine hcall _ f _ hp ?_ hstep
    rintro rfl
    exact onShard_ne_stop he i hf

/-- A run of the process is, on each shard, a run of the instance there. -/
theorem projects_shard (svc : Service Shard Event Input) (i : Fin n) :
    (system svc n).Projects (svc.system i) (fun p => p.shard i) (onShard i) where
  init := rfl
  step _ _ _ hstep := (moves_of_step hstep).onShard i

theorem future_run_resolved {i : Fin n} (hstage : p.stage = .run)
    (h : p.future svc i = .resolved) :
    p.called i = true ∧ svc.runFuture (p.shard i) = .resolved := by
  unfold future at h
  rw [hstage] at h
  simp only at h
  split at h
  · rename_i hcalled
    exact ⟨hcalled, h⟩
  · cases h

/-! ### The call of the run stage

Main calls `run_tcp` or `run_udp` once on each shard: what holds of an instance until that call,
and what holds of it from then on, are two properties that the rest of the process keeps. -/

/-- The call has been made on this shard. -/
def HasRun (p : Process n Shard) (i : Fin n) : Prop :=
  (p.stage = .run ∧ p.called i = true) ∨ p.stage.afterRun = true

/-- The call is still to be made on this shard, or will not be made any more. -/
def Unrun (p : Process n Shard) (i : Fin n) : Prop :=
  p.stage = .setupReporter ∨ (p.stage = .run ∧ p.called i = false)

/-- Properties of instances that every event but the call of the run stage keeps. -/
structure Kept (svc : Service Shard Event Input) (P : Shard → Prop) : Prop where
  armTimer : ∀ s, P s → P (svc.armTimer s)
  stop : ∀ s, P s → P (svc.stop s)
  step : ∀ s e t, P s → svc.step s e = some t → P t

theorem Kept.moves {P : Shard → Prop} (hkept : Kept svc P) {e : ProcessEvent n Event Input}
    (h : p.Moves svc e q) {i : Fin n} (hrun : ∀ input, e ≠ .callRun i input)
    (hp : P (p.shard i)) : P (q.shard i) := by
  have hupdate (j : Fin n) (s : Shard) (hs : i = j → P s) : P (Function.update p.shard j s i) := by
    by_cases hij : i = j
    · subst hij
      rw [Function.update_self]
      exact hs rfl
    · rw [Function.update_of_ne hij]
      exact hp
  cases h with
  | armed j => exact hupdate j _ fun hij => hij ▸ hkept.armTimer _ hp
  | mainStop j => exact hupdate j _ fun hij => hij ▸ hkept.stop _ hp
  | exitStop j => exact hupdate j _ fun hij => hij ▸ hkept.stop _ hp
  | continuation j e s hstep =>
      apply hupdate j s
      intro hij
      subst hij
      exact hkept.step _ _ _ hp hstep
  | callRun j input =>
      apply hupdate j _
      intro hij
      subst hij
      exact absurd rfl (hrun input)
  | notArmed | snapshot | goOn | giveUp | signal => exact hp

theorem Moves.pastRun {e : ProcessEvent n Event Input} (h : p.Moves svc e q)
    (hpast : p.stage.pastRun = true) :
    q.stage.pastRun = true ∧ ∀ i input, e ≠ .callRun i input := by
  cases h with
  | callRun i input hstage =>
      rw [hstage] at hpast
      cases hpast
  | goOn =>
      refine ⟨?_, by simp⟩
      cases hp : p.stage <;> simp_all [Stage.pastRun, Stage.next]
  | giveUp => exact ⟨rfl, by simp⟩
  | armed | notArmed | snapshot | mainStop | signal | exitStop | continuation =>
      exact ⟨hpast, by simp⟩

/-- Past the run stage an instance keeps, in all runs, what every other event keeps. -/
theorem Kept.exec {P : Shard → Prop} (hkept : Kept svc P) {i : Fin n}
    {es : List (ProcessEvent n Event Input)} (hpast : p.stage.pastRun = true)
    (hp : P (p.shard i)) (h : (system svc n).exec p es = some q) :
    q.stage.pastRun = true ∧ P (q.shard i) := by
  apply System.exec_invariant (fun p : Process n Shard => p.stage.pastRun = true ∧ P (p.shard i))
    ?_ ⟨hpast, hp⟩ h
  rintro p e q ⟨hpast, hp⟩ hstep
  have hmoves := moves_of_step hstep
  obtain ⟨hq, hrun⟩ := hmoves.pastRun hpast
  exact ⟨hq, hkept.moves hmoves (hrun i) hp⟩

/-- Past the run stage every continuation of an instance finds it as the others have kept it. -/
theorem Kept.of_continuation {P : Shard → Prop} (hkept : Kept svc P) {i : Fin n} {e : Event}
    {es : List (ProcessEvent n Event Input)} (hpast : p.stage.pastRun = true)
    (hp : P (p.shard i)) (h : (system svc n).exec p es = some q)
    (hmem : .continuation i e ∈ es) : ∃ s t, P s ∧ svc.step s e = some t := by
  obtain ⟨us, vs, rfl⟩ := List.append_of_mem hmem
  obtain ⟨r, hr, hrest⟩ := System.exec_append_some _ h
  obtain ⟨r', hstep, -⟩ := System.exec_cons_some _ hrest
  cases moves_of_step hstep with
  | continuation _ _ t ht => exact ⟨r.shard i, t, (hkept.exec hpast hp hr).2, ht⟩

/-- Apart from the call itself no step takes a shard from before it to after it. -/
theorem Moves.unrun {e : ProcessEvent n Event Input} (h : p.Moves svc e q) {i : Fin n}
    (hq : q.Unrun i) : p.Unrun i := by
  cases h with
  | armed j hstage | notArmed j hstage => exact Or.inl hstage
  | callRun j input hstage hcalled =>
      right
      refine ⟨hstage, ?_⟩
      by_cases hij : i = j
      · rw [hij]
        exact hcalled
      · rcases hq with hq | ⟨-, hq⟩
        · rw [hstage] at hq
          cases hq
        · simpa [Function.update_of_ne hij] using hq
  | snapshot j hstage | mainStop j hstage =>
      rcases hq with hq | ⟨hq, -⟩ <;> rw [hstage] at hq <;> cases hq
  | goOn hstage =>
      rcases hq with hq | ⟨hq, -⟩ <;> cases hp : p.stage <;> simp_all [Stage.next, Unrun]
  | giveUp => rcases hq with hq | ⟨hq, -⟩ <;> cases hq
  | signal | exitStop | continuation => exact hq

theorem Moves.hasRun {e : ProcessEvent n Event Input} (h : p.Moves svc e q) {i : Fin n}
    (hrun : ∀ input, e ≠ .callRun i input) (hq : q.HasRun i) : p.HasRun i := by
  cases h with
  | armed j hstage | notArmed j hstage =>
      rcases hq with ⟨hq, -⟩ | hq <;> simp [hstage, Stage.afterRun] at hq
  | callRun j input hstage hcalled =>
      have hij : i ≠ j := fun hij => hrun input (by rw [hij])
      rcases hq with ⟨-, hq⟩ | hq
      · exact Or.inl ⟨hstage, by simpa [Function.update_of_ne hij] using hq⟩
      · exact Or.inr hq
  | snapshot j hstage | mainStop j hstage =>
      right
      rw [hstage]
      rfl
  | goOn hstage hresolved =>
      rcases hq with ⟨-, hq⟩ | hq
      · cases hq
      · cases hp : p.stage with
        | run => exact Or.inl ⟨hp, (future_run_resolved hp (hresolved i)).1⟩
        | report | stop | done =>
            right
            rw [hp]
            rfl
        | setupReporter | failed =>
            simp only [hp] at hq
            cases hq
  | giveUp => rcases hq with ⟨hq, -⟩ | hq <;> cases hq
  | signal | exitStop | continuation => exact hq

/-- How an instance goes through the run stage: `Before` holds until the call, `After` from then
on, and `Ended` once the future of the call has resolved. -/
structure RunPhases (svc : Service Shard Event Input) (Before After Ended : Shard → Prop) : Prop where
  start : ∀ i, Before (svc.start i)
  call : ∀ s input, Before s → After (svc.run s input)
  ended : ∀ s, After s → svc.runFuture s = .resolved → Ended s
  before_kept : Kept svc Before
  after_kept : Kept svc After
  ended_kept : Kept svc Ended

namespace RunPhases

variable {Before After Ended : Shard → Prop} (phases : RunPhases svc Before After Ended)

include phases

theorem invariant (h : (system svc n).Reachable p) :
    ∀ i, (p.Unrun i → Before (p.shard i)) ∧ (p.HasRun i → After (p.shard i)) ∧
      (p.stage.afterRun = true → Ended (p.shard i)) := by
  apply System.Reachable.invariant (fun p : Process n Shard =>
    ∀ i, (p.Unrun i → Before (p.shard i)) ∧ (p.HasRun i → After (p.shard i)) ∧
      (p.stage.afterRun = true → Ended (p.shard i))) ?_ ?_ h
  · intro i
    refine ⟨fun _ => phases.start i, ?_, fun hstage => by cases hstage⟩
    rintro (⟨hstage, -⟩ | hstage) <;> cases hstage
  · intro p e q hinv hstep i
    obtain ⟨hbefore, hafter, hended⟩ := hinv i
    have hmoves := moves_of_step hstep
    by_cases hcall : ∃ input, e = .callRun i input
    · obtain ⟨input, rfl⟩ := hcall
      have hunrun : p.Unrun i := by
        cases hmoves with
        | callRun _ _ hstage hcalled => exact Or.inr ⟨hstage, hcalled⟩
      cases hmoves with
      | callRun _ _ hstage hcalled =>
          simp only [Function.update_self, Unrun, HasRun, hstage, Stage.afterRun]
          exact ⟨by simp, fun _ => phases.call _ input (hbefore hunrun), by simp⟩
    · push Not at hcall
      refine ⟨fun hq => ?_, fun hq => ?_, fun hq => ?_⟩
      · exact phases.before_kept.moves hmoves hcall (hbefore (hmoves.unrun hq))
      · exact phases.after_kept.moves hmoves hcall (hafter (hmoves.hasRun hcall hq))
      · by_cases hp : p.stage.afterRun = true
        · exact phases.ended_kept.moves hmoves hcall (hended hp)
        · -- the chain has just come past the run stage
          cases hmoves with
          | goOn hstage hresolved =>
              have hpstage : p.stage = .run := by
                cases hpstage : p.stage <;> simp_all [Stage.next, Stage.afterRun]
              obtain ⟨hcalled, hfuture⟩ := future_run_resolved hpstage (hresolved i)
              exact phases.ended _ (hafter (Or.inl ⟨hpstage, hcalled⟩)) hfuture
          | giveUp => cases hq
          | armed | notArmed | callRun | snapshot | mainStop | signal | exitStop | continuation =>
              exact absurd hq hp

theorem before (h : (system svc n).Reachable p) {i : Fin n} (hi : p.Unrun i) :
    Before (p.shard i) := (phases.invariant h i).1 hi

theorem ended_of_afterRun (h : (system svc n).Reachable p) (hstage : p.stage.afterRun = true)
    (i : Fin n) : Ended (p.shard i) := (phases.invariant h i).2.2 hstage

/-- What every event keeps, the call of the run stage included when it finds the instance as
`Before` says, holds of every instance in every reachable state. -/
theorem everywhere {P : Shard → Prop} (hstart : ∀ i, P (svc.start i)) (hkept : Kept svc P)
    (hcall : ∀ s input, Before s → P s → P (svc.run s input)) (h : (system svc n).Reachable p) :
    ∀ i, P (p.shard i) := by
  have hidle : ∀ p, (system svc n).Reachable p → ∀ i, p.Unrun i → Before (p.shard i) :=
    fun _ hp _ hi => phases.before hp hi
  apply System.Reachable.invariant_of (fun p : Process n Shard => ∀ i, P (p.shard i)) hidle
    (fun i => hstart i) ?_ h
  intro p e q hknown hinv hstep i
  have hmoves := moves_of_step hstep
  by_cases hrun : ∃ input, e = .callRun i input
  · obtain ⟨input, rfl⟩ := hrun
    cases hmoves with
    | callRun _ _ hstage hcalled =>
        simp only [Function.update_self]
        exact hcall _ input (hknown i (Or.inr ⟨hstage, hcalled⟩)) (hinv i)
  · push Not at hrun
    exact hkept.moves hmoves hrun (hinv i)

end RunPhases

end Process

end SeastarExperiments
