import SeastarExperiments.DatagramService
import SeastarExperiments.ServerShard

/-! Whether main's chain stops its service. The chain is built of `then` continuations only: when a
future of its first two stages fails, no later stage runs, `service->stop()` is not invoked, and the
instances are destroyed without it. -/

namespace SeastarExperiments

open Transition

theorem Stage.next_ne {stage : Stage} (h : stage ≠ .done ∧ stage ≠ .failed) :
    stage.next ≠ stage := by
  obtain ⟨hdone, hfailed⟩ := h
  cases stage with
  | setupReporter | run | report | stop => exact Stage.noConfusion
  | done => exact absurd rfl hdone
  | failed => exact absurd rfl hfailed

namespace Process

section

variable {n : Nat} {Shard Event Input : Type} (svc : Service Shard Event Input)

/-- The step of the chain that invokes `service->stop()`. -/
def invokesStop (p q : Process n Shard) : Bool := p.stage != .stop && q.stage == .stop

/-- How often the chain invokes `service->stop()` in a run. -/
def stopInvocations (es : List (ProcessEvent n Event Input)) : Nat :=
  (system svc n).countSteps invokesStop (start svc n) es

/-- No future that the chain waits for has failed, of `setup_reporter` or of `run_udp` and `run_tcp`
on any shard. -/
def Healthy (p : Process n Shard) : Prop :=
  p.stage = .setupReporter ∨ p.stage = .run → ∀ i, p.future svc i ≠ .failed

instance (p : Process n Shard) : Decidable (Healthy svc p) := inferInstanceAs (Decidable (_ → _))

/-- A run stage whose future has failed on this shard, or the end that this leads to. -/
def Doomed (i : Fin n) (p : Process n Shard) : Prop :=
  (p.stage = .setupReporter ∧ p.setUp i = .failed) ∨
    (p.stage = .run ∧ p.called i = true ∧ svc.runFuture (p.shard i) = .failed) ∨
    p.stage = .failed

end

variable {n : Nat} {Shard Event Input : Type} {svc : Service Shard Event Input}
  {p q : Process n Shard} {es : List (ProcessEvent n Event Input)}

theorem Moves.stage {e : ProcessEvent n Event Input} (h : p.Moves svc e q) :
    q.stage = p.stage ∨ (q.stage = p.stage.next ∧ ∀ i, p.future svc i = .resolved) ∨
      (q.stage = .failed ∧ ∃ i, p.future svc i = .failed) := by
  cases h with
  | goOn hstage hresolved => exact Or.inr (Or.inl ⟨rfl, hresolved⟩)
  | giveUp hstage hfailed => exact Or.inr (Or.inr ⟨rfl, hfailed⟩)
  | armed | notArmed | callRun | snapshot | mainStop | signal | exitStop | continuation =>
      exact Or.inl rfl

theorem Moves.setUp {e : ProcessEvent n Event Input} (h : p.Moves svc e q) {i : Fin n}
    (hset : p.setUp i ≠ .pending) : q.setUp i = p.setUp i := by
  cases h with
  | armed j hstage hpending | notArmed j hstage hpending =>
      have hij : i ≠ j := fun hij => hset (hij ▸ hpending)
      exact Function.update_of_ne hij _ _
  | callRun | snapshot | mainStop | goOn | giveUp | signal | exitStop | continuation => rfl

theorem Moves.called {e : ProcessEvent n Event Input} (h : p.Moves svc e q) {i : Fin n}
    (hstage : q.stage = p.stage) (hcalled : p.called i = true) : q.called i = true := by
  cases h with
  | callRun j | snapshot j | mainStop j =>
      show Function.update p.called j true i = true
      by_cases hij : i = j
      · rw [hij, Function.update_self]
      · rw [Function.update_of_ne hij]
        exact hcalled
  | goOn hgoing => exact absurd hstage (Stage.next_ne hgoing)
  | giveUp hgoing => exact absurd hstage.symm hgoing.2
  | armed | notArmed | signal | exitStop | continuation => exact hcalled

theorem Doomed.invokesStop {i : Fin n} (h : Doomed svc i q) (p : Process n Shard) :
    p.invokesStop q = false := by
  rcases h with ⟨hstage, -⟩ | ⟨hstage, -⟩ | hstage <;> simp [Process.invokesStop, hstage]

/-- A failed future of the first two stages stays failed, and the chain ends with it. -/
theorem Doomed.step {i : Fin n} {e : ProcessEvent n Event Input}
    (hkept : Kept svc fun s => svc.runFuture s = .failed) (h : Doomed svc i p)
    (hstep : (system svc n).step p e = some q) : Doomed svc i q := by
  have hmoves := moves_of_step hstep
  rcases h with ⟨hstage, hfailed⟩ | ⟨hstage, hcalled, hfailed⟩ | hstage
  · have hset := hmoves.setUp (by rw [hfailed]; decide)
    rcases hmoves.stage with hsame | ⟨-, hresolved⟩ | ⟨hend, -⟩
    · exact Or.inl ⟨hsame.trans hstage, hset.trans hfailed⟩
    · have hi := hresolved i
      rw [future, hstage] at hi
      simp only at hi
      rw [hfailed] at hi
      cases hi
    · exact Or.inr (Or.inr hend)
  · rcases hmoves.stage with hsame | ⟨-, hresolved⟩ | ⟨hend, -⟩
    · have hrun : ∀ input, e ≠ .callRun i input := by
        rintro input rfl
        cases hmoves with
        | callRun _ _ _ hfirst =>
            rw [hcalled] at hfirst
            cases hfirst
      exact Or.inr (Or.inl ⟨hsame.trans hstage, hmoves.called hsame hcalled,
        hkept.moves hmoves hrun hfailed⟩)
    · obtain ⟨-, hi⟩ := future_run_resolved hstage (hresolved i)
      rw [hfailed] at hi
      cases hi
    · exact Or.inr (Or.inr hend)
  · right
    right
    cases hmoves with
    | goOn hgoing | giveUp hgoing => exact absurd hstage hgoing.2
    | armed | notArmed | callRun | snapshot | mainStop | signal | exitStop | continuation =>
        exact hstage

/-- A state that is not healthy is doomed on some shard. -/
theorem doomed_of_not_healthy (h : ¬Healthy svc p) : ∃ i, Doomed svc i p := by
  unfold Healthy at h
  push Not at h
  obtain ⟨hstage, i, hfailed⟩ := h
  refine ⟨i, ?_⟩
  unfold future at hfailed
  rcases hstage with hstage | hstage
  · rw [hstage] at hfailed
    exact Or.inl ⟨hstage, hfailed⟩
  · rw [hstage] at hfailed
    simp only at hfailed
    split at hfailed
    · rename_i hcalled
      exact Or.inr (Or.inl ⟨hstage, hcalled, hfailed⟩)
    · cases hfailed

/-- The invocations, by the stage that a run has come to: none before the stop stage, one from then
on, and one at the end of a run that was always healthy. -/
structure StopsOnce (svc : Service Shard Event Input) (es : List (ProcessEvent n Event Input))
    (p : Process n Shard) : Prop where
  before : p.stage = .setupReporter ∨ p.stage = .run ∨ p.stage = .report →
    stopInvocations svc es = 0
  after : p.stage = .stop ∨ p.stage = .done → stopInvocations svc es = 1
  failed : p.stage = .failed →
    (system svc n).EachStep (fun p _ => Healthy svc p) (start svc n) es →
      stopInvocations svc es = 1

theorem future_report_ne_failed (hstage : p.stage = .report) (i : Fin n) :
    p.future svc i ≠ .failed := by
  rw [future, hstage]
  simp only
  split <;> decide

section

variable {e : ProcessEvent n Event Input}

theorem stopInvocations_concat (hp : (system svc n).exec (start svc n) es = some p)
    (hstep : (system svc n).step p e = some q) :
    stopInvocations svc (es ++ [e]) =
      stopInvocations svc es + if p.invokesStop q then 1 else 0 :=
  System.countSteps_concat hp hstep

/-- A step that leaves the chain where it is. -/
theorem StopsOnce.stay (h : StopsOnce svc es p) (hsame : q.stage = p.stage)
    (hequal : stopInvocations svc (es ++ [e]) = stopInvocations svc es) :
    StopsOnce svc (es ++ [e]) q := by
  refine ⟨?_, ?_, ?_⟩
  · rw [hsame, hequal]
    exact h.before
  · rw [hsame, hequal]
    exact h.after
  · rw [hsame, hequal]
    exact fun hstage hhealthy => h.failed hstage hhealthy.concat

/-- The chain goes on to its next stage. -/
theorem StopsOnce.goOn (h : StopsOnce svc es p) (hnext : q.stage = p.stage.next)
    (hcount : stopInvocations svc (es ++ [e]) =
      stopInvocations svc es + if p.invokesStop q then 1 else 0) :
    StopsOnce svc (es ++ [e]) q := by
  rw [invokesStop, hnext] at hcount
  cases hstage : p.stage with
  | setupReporter | run =>
      rw [hstage, h.before (by simp [hstage])] at hcount
      refine ⟨fun _ => hcount, ?_, ?_⟩ <;> simp [hnext, hstage, Stage.next]
  | report =>
      rw [hstage, h.before (by simp [hstage])] at hcount
      refine ⟨?_, fun _ => hcount, ?_⟩ <;> simp [hnext, hstage, Stage.next]
  | stop | done =>
      rw [hstage, h.after (by simp [hstage])] at hcount
      refine ⟨?_, fun _ => hcount, ?_⟩ <;> simp [hnext, hstage, Stage.next]
  | failed =>
      rw [hstage] at hcount
      apply h.stay ?_ hcount
      rw [hnext, hstage]
      rfl

/-- A future of the stage has failed, and the chain ends with it. -/
theorem StopsOnce.giveUp (h : StopsOnce svc es p)
    (hp : (system svc n).exec (start svc n) es = some p) (hend : q.stage = .failed) {i : Fin n}
    (hi : p.future svc i = .failed)
    (hequal : stopInvocations svc (es ++ [e]) = stopInvocations svc es) :
    StopsOnce svc (es ++ [e]) q := by
  refine ⟨by simp [hend], by simp [hend], fun _ hhealthy => ?_⟩
  rw [hequal]
  have hlast : Healthy svc p := hhealthy.last hp
  cases hstage : p.stage with
  | setupReporter => exact absurd hi (hlast (Or.inl hstage) i)
  | run => exact absurd hi (hlast (Or.inr hstage) i)
  | report => exact absurd hi (future_report_ne_failed hstage i)
  | stop => exact h.after (Or.inl hstage)
  | done | failed =>
      rw [future, hstage] at hi
      cases hi

end

theorem stopsOnce (h : (system svc n).exec (start svc n) es = some p) : StopsOnce svc es p := by
  apply System.exec_induction (S := system svc n) (motive := StopsOnce svc)
    ⟨fun _ => rfl, fun hstage => (by rcases hstage with hstage | hstage <;> cases hstage),
      fun hstage => (by cases hstage)⟩ ?_ h
  intro es p e q hp ih hstep
  have hcount := stopInvocations_concat hp hstep
  have hequal (hquiet : p.invokesStop q = false) :
      stopInvocations svc (es ++ [e]) = stopInvocations svc es := by
    rw [hcount, hquiet]
    rfl
  rcases (moves_of_step hstep).stage with hsame | ⟨hnext, -⟩ | ⟨hend, i, hi⟩
  · refine ih.stay hsame (hequal ?_)
    rw [invokesStop, hsame]
    cases p.stage <;> rfl
  · exact ih.goOn hnext hcount
  · refine ih.giveUp hp hend hi (hequal ?_)
    simp [invokesStop, hend]

/-- When the final future of the chain has resolved, `service->stop()` has been invoked, once,
exactly if the run was always healthy. -/
theorem stopInvocations_eq_one_iff (hkept : Kept svc fun s => svc.runFuture s = .failed)
    (h : (system svc n).exec (start svc n) es = some p)
    (hfinal : p.stage = .done ∨ p.stage = .failed) :
    stopInvocations svc es = 1 ↔
      (system svc n).EachStep (fun p _ => Healthy svc p) (start svc n) es := by
  constructor
  · intro hone pre e hpre t ht
    by_contra hhealthy
    obtain ⟨i, hdoomed⟩ := doomed_of_not_healthy hhealthy
    obtain ⟨rest, rfl⟩ := hpre
    rw [List.append_assoc] at h hone
    have hsplit : stopInvocations svc (pre ++ ([e] ++ rest)) =
        stopInvocations svc pre + (system svc n).countSteps invokesStop t ([e] ++ rest) :=
      System.countSteps_append ht _
    have hearly : t.stage = .setupReporter ∨ t.stage = .run := by
      by_contra hlate
      exact hhealthy fun hstage => absurd hstage hlate
    have hbefore : stopInvocations svc pre = 0 :=
      (stopsOnce ht).before (by rcases hearly with hstage | hstage <;> simp [hstage])
    have hafter : (system svc n).countSteps invokesStop t ([e] ++ rest) = 0 := by
      apply System.countSteps_eq_zero (Doomed svc i) ?_ hdoomed (System.exec_after _ ht h)
      intro s f u hs hstep
      have hu := hs.step hkept hstep
      exact ⟨hu, hu.invokesStop s⟩
    omega
  · intro hhealthy
    rcases hfinal with hdone | hfailed
    · exact (stopsOnce h).after (Or.inr hdone)
    · exact (stopsOnce h).failed hfailed hhealthy

end Process

/-! ### The programs -/

/-- A `run_udp` that has failed stays so. -/
theorem DatagramShard.kept_failed {Loop Event : Type} (program : DatagramLoop Loop Event) :
    Process.Kept (datagramService program)
      fun s => (datagramService program).runFuture s = .failed where
  armTimer _ h := h
  stop _ h := h
  step s e t h hstep := by
    change s.step program e = some t at hstep
    cases e with
    | loop e =>
        change s.runFuture program = .failed at h
        unfold runFuture at h
        cases hrun : s.run with
        | idle | threw => simp [step, hrun] at hstep
        | looping port loop =>
            rw [hrun] at h
            have hfailed : program.future loop = .failed := h
            have hnone := program.step_settled s.interrupted loop e (by rw [hfailed]; decide)
            simp [step, hrun, hnone] at hstep
    | tick now =>
        simp only [step, Option.ite_none_right_eq_some, Option.some.injEq] at hstep
        obtain ⟨-, rfl⟩ := hstep
        exact h

theorem ServerShard.kept_failed (dataSize : Nat) :
    Process.Kept (serverService dataSize)
      fun s => (serverService dataSize).runFuture s = .failed where
  armTimer _ h := h
  stop _ h := h
  step s e t h hstep := by
    change s.runFuture = .failed at h
    unfold runFuture at h
    cases moves_of_step hstep with
    | stopAccept _ haccept | failAccept haccept | handOver _ haccept =>
        rw [haccept] at h
        cases h
    | handler | tick => exact h

/-- The future of `gate_.close()` does not fail. -/
theorem UdpShard.kept_failed (cfg : UdpConfig) :
    Process.Kept (udpService cfg) fun s => (udpService cfg).runFuture s = .failed := by
  have hnever (s : UdpShard) : (udpService cfg).runFuture s ≠ .failed := by
    change s.runFuture ≠ .failed
    unfold runFuture
    split <;> decide
  exact ⟨fun s h => absurd h (hnever s), fun s h => absurd h (hnever s),
    fun s _ _ h => absurd h (hnever s)⟩

/-- The programs that main's chain is the same in. -/
inductive Program
  | server
  | client
  | tcpServer (dataSize : Nat)
  | tcpServerPingpong (dataSize : Nat)
  | udpDuplex (cfg : UdpConfig)

namespace Program

def Shard : Program → Type
  | server => DatagramShard ReceiveLoop
  | client => DatagramShard SendLoop
  | tcpServer _ => ServerShard
  | tcpServerPingpong _ => ServerShard
  | udpDuplex _ => UdpShard

def Event : Program → Type
  | server => DatagramEvent ReceiveEvent
  | client => DatagramEvent SendEvent
  | tcpServer _ => ServerEvent
  | tcpServerPingpong _ => ServerEvent
  | udpDuplex _ => UdpEvent

def Input : Program → Type
  | server => Bool
  | client => Bool
  | tcpServer _ => Bool
  | tcpServerPingpong _ => Bool
  | udpDuplex _ => Nat → Channels

def service : (program : Program) → Service program.Shard program.Event program.Input
  | server => datagramService serverLoop
  | client => datagramService clientLoop
  | tcpServer dataSize => serverService dataSize
  | tcpServerPingpong dataSize => serverService dataSize
  | udpDuplex cfg => udpService cfg

theorem kept_failed (program : Program) :
    Process.Kept program.service fun s => program.service.runFuture s = .failed := by
  cases program with
  | server => exact DatagramShard.kept_failed serverLoop
  | client => exact DatagramShard.kept_failed clientLoop
  | tcpServer dataSize | tcpServerPingpong dataSize => exact ServerShard.kept_failed dataSize
  | udpDuplex cfg => exact UdpShard.kept_failed cfg

variable {program : Program} {n : Nat} {p : Process n program.Shard}
  {es : List (ProcessEvent n program.Event program.Input)}

/-- In each program, when the final future of main's chain has resolved, `service->stop()` has been
invoked exactly once if and only if no future of `setup_reporter`, and none of `run_udp` or `run_tcp`,
has failed on any shard. -/
theorem stop_invoked_once_iff
    (h : (Process.system program.service n).exec (Process.start program.service n) es = some p)
    (hfinal : p.stage = .done ∨ p.stage = .failed) :
    Process.stopInvocations program.service es = 1 ↔
      (Process.system program.service n).EachStep (fun p _ => Process.Healthy program.service p)
        (Process.start program.service n) es :=
  Process.stopInvocations_eq_one_iff program.kept_failed h hfinal

/-- The server binds its port, receives a datagram after the signal, and is stopped. -/
def stoppedRun : List (ProcessEvent 1 (Event server) (Input server)) :=
  [.reporterSet shardZero true, .advance, .callRun shardZero true, .signal, .exitStop shardZero,
    .continuation shardZero (.loop (.received 16)), .continuation shardZero (.loop .top), .advance,
    .snapshot shardZero, .advance, .mainStop shardZero, .advance]

def afterStopped : Process 1 (Shard server) :=
  ((Process.system server.service 1).exec (Process.start server.service 1) stoppedRun).get
    (by decide +kernel)

theorem stop_invoked_once_iff_stopped : Process.stopInvocations server.service stoppedRun = 1 := by
  have hexec : (Process.system server.service 1).exec (Process.start server.service 1) stoppedRun =
      some afterStopped := (Option.some_get _).symm
  exact (stop_invoked_once_iff hexec (by decide +kernel)).mpr (by decide +kernel)

/-- `seastar::listen` throws on the only shard. -/
def listenFailedRun : List (ProcessEvent 1 (Event (tcpServer 64)) (Input (tcpServer 64))) :=
  [.reporterSet shardZero true, .advance, .callRun shardZero false, .advance]

def afterListenFailed : Process 1 (Shard (tcpServer 64)) :=
  ((Process.system (tcpServer 64).service 1).exec (Process.start (tcpServer 64).service 1)
    listenFailedRun).get (by decide +kernel)

theorem failed_listen_leaves_service_running :
    ¬∀ es p, (Process.system (tcpServer 64).service 1).exec
        (Process.start (tcpServer 64).service 1) es = some p →
      p.stage = .done ∨ p.stage = .failed →
      Process.stopInvocations (tcpServer 64).service es = 1 := by
  intro honce
  have hexec : (Process.system (tcpServer 64).service 1).exec
      (Process.start (tcpServer 64).service 1) listenFailedRun = some afterListenFailed :=
    (Option.some_get _).symm
  have hnone : Process.stopInvocations (tcpServer 64).service listenFailedRun = 0 := by
    decide +kernel
  have hone := honce listenFailedRun afterListenFailed hexec (by decide +kernel)
  rw [hnone] at hone
  cases hone

end Program

end SeastarExperiments
