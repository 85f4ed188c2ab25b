import Mathlib.Data.List.TakeWhile
import SeastarExperiments.BaseGate
import SeastarExperiments.Loops
import SeastarExperiments.ServiceProcess

/-! One instance of the `throughput_service` of `tcp_server` and of `tcp_server_pingpong`: the accept
loop that `run_tcp` runs inside the gate, the detached handlers it puts through the gate, and
`stop()`. The two programs share this code; the handler that their accept loops call is the duplex
`handle_connection`, in `tcp_server_pingpong` the overload with one argument. -/

namespace SeastarExperiments

open Transition

/-- The future of `run_tcp` and the loop behind it. -/
inductive AcceptLoop
  /-- `run_tcp` has not been called. -/
  | idle
  /-- The gate was closed already. -/
  | refused
  /-- `seastar::listen` threw. -/
  | listenFailed
  | accepting
  | stopped
  /-- `f.get()` threw what `accept` had failed with. -/
  | failed
  deriving DecidableEq

def AcceptLoop.finished : AcceptLoop → Bool
  | idle => false
  | accepting => false
  | _ => true

/-- A handler and the connection it was given. -/
structure ServerConnection where
  connection : Nat
  handler : Handler
  deriving DecidableEq

def ServerConnection.resolved (c : ServerConnection) : Bool := c.handler.resolved

structure ServerShard where
  thisShardId : Nat
  interrupted : Bool := false
  timerArmed : Bool := false
  devices : Devices := {}
  accept : AcceptLoop := .idle
  /-- `listener_` has been set. It is never reset. -/
  listener : Bool := false
  handlers : Gated ServerConnection := {}
  /-- The calls of `gate_.close()`. -/
  closeCalls : Nat := 0
  /-- The calls of `abort_accept` on a listener that is no more. -/
  danglingAborts : Nat := 0
  deriving DecidableEq

inductive ServerEvent
  /-- The future of `listener.accept` resolves, with a connection or an exception, and its
  continuation runs. -/
  | accept (connection : Option Nat)
  /-- A continuation of this handler runs. -/
  | handler (j : Nat) (e : LoopEvent)
  /-- The reporter's timer fires. -/
  | tick (now : TickTimes)
  deriving DecidableEq

namespace ServerShard

/-- `do_with` keeps the listener until the future of the accept loop resolves. -/
def listenerAlive (s : ServerShard) : Bool := s.accept == .accepting

/-- `run_tcp`, where `seastar::listen` succeeds or throws. -/
def runTcp (s : ServerShard) (listens : Bool) : ServerShard :=
  match s.handlers.gate.enter with
  | none => { s with accept := .refused }
  | some gate =>
      if listens then
        { s with accept := .accepting, listener := true, handlers := { s.handlers with gate } }
      else { s with accept := .listenFailed, handlers := { s.handlers with gate := gate.leave } }

/-- The accept loop ends, and `with_gate` leaves the gate. -/
def endAccept (s : ServerShard) (accept : AcceptLoop) : ServerShard :=
  { s with accept, handlers := { s.handlers with gate := s.handlers.gate.leave } }

/-- The continuation of `listener.accept`. -/
def onAccept (s : ServerShard) (connection : Option Nat) : ServerShard :=
  if s.interrupted then s.endAccept .stopped
  else
    match connection with
    | none => s.endAccept .failed
    | some connection =>
        { s with
          handlers := s.handlers.withGate ServerConnection.resolved
            { connection, handler := handleConnection s.interrupted } }

def stop (s : ServerShard) : ServerShard :=
  { s with
    interrupted := true
    danglingAborts := s.danglingAborts + if s.listener && !s.listenerAlive then 1 else 0
    handlers := s.handlers.close
    closeCalls := s.closeCalls + 1 }

/-- A continuation on the shard. A read returns at most `DATA_SIZE` bytes. -/
def step (dataSize : Nat) (s : ServerShard) : ServerEvent → Option ServerShard
  | .accept connection => if s.accept = .accepting then some (s.onAccept connection) else none
  | .handler j e => do
      let c ← s.handlers.tasks[j]?
      let handler ← c.handler.step s.interrupted e
      if e.bytesRead ≤ dataSize then
        some { s with
          handlers := s.handlers.advance ServerConnection.resolved j { c with handler }
          devices := s.devices.count dataSize e }
      else none
  | .tick now =>
      if s.timerArmed then some { s with devices := s.devices.tick s.thisShardId now } else none

def runFuture (s : ServerShard) : Outcome :=
  match s.accept with
  | .idle => .pending
  | .accepting => .pending
  | .stopped => .resolved
  | .refused => .failed
  | .listenFailed => .failed
  | .failed => .failed

/-- `stop` returns the future of `gate_.close()`. -/
def stopFuture (s : ServerShard) : Outcome :=
  if s.handlers.gate.closeResolved then .resolved else .pending

end ServerShard

/-- The `throughput_service` of both servers. -/
def serverService (dataSize : Nat) : Service ServerShard ServerEvent Bool where
  start i := { thisShardId := i }
  armTimer s := { s with timerArmed := true }
  run := ServerShard.runTcp
  stop := ServerShard.stop
  step := ServerShard.step dataSize
  runFuture := ServerShard.runFuture
  stopFuture := ServerShard.stopFuture
  histories s := (s.devices.readMeasurements.getHistory, s.devices.writeMeasurements.getHistory)

namespace ServerShard

variable {dataSize : Nat} {s t : ServerShard}

/-- What a continuation can be, with everything it changes. -/
inductive Moves (dataSize : Nat) (s : ServerShard) : ServerEvent → ServerShard → Prop
  | stopAccept (connection : Option Nat) (haccept : s.accept = .accepting)
      (hflag : s.interrupted = true) :
      Moves dataSize s (.accept connection) (s.endAccept .stopped)
  | failAccept (haccept : s.accept = .accepting) (hflag : s.interrupted = false) :
      Moves dataSize s (.accept none) (s.endAccept .failed)
  | handOver (connection : Nat) (haccept : s.accept = .accepting) (hflag : s.interrupted = false) :
      Moves dataSize s (.accept (some connection))
        { s with
          handlers := s.handlers.withGate ServerConnection.resolved
            { connection, handler := handleConnection s.interrupted } }
  | handler (j : Nat) (e : LoopEvent) (c : ServerConnection) (h : Handler)
      (hold : s.handlers.tasks[j]? = some c) (hstep : c.handler.step s.interrupted e = some h)
      (hsize : e.bytesRead ≤ dataSize) :
      Moves dataSize s (.handler j e)
        { s with
          handlers := s.handlers.advance ServerConnection.resolved j { c with handler := h }
          devices := s.devices.count dataSize e }
  | tick (now : TickTimes) (harmed : s.timerArmed = true) :
      Moves dataSize s (.tick now) { s with devices := s.devices.tick s.thisShardId now }

theorem moves_of_step {e : ServerEvent} (h : (serverService dataSize).step s e = some t) :
    s.Moves dataSize e t := by
  change s.step dataSize e = some t at h
  cases e with
  | accept connection =>
      simp only [step, Option.ite_none_right_eq_some, Option.some.injEq] at h
      obtain ⟨haccept, rfl⟩ := h
      unfold onAccept
      by_cases hflag : s.interrupted = true
      · rw [if_pos hflag]
        exact .stopAccept connection haccept hflag
      · rw [if_neg hflag]
        have hdown : s.interrupted = false := by simpa using hflag
        cases connection with
        | none => exact .failAccept haccept hdown
        | some connection => exact .handOver connection haccept hdown
  | handler j e =>
      simp only [step, Option.bind_eq_bind, Option.bind_eq_some_iff, Option.ite_none_right_eq_some,
        Option.some.injEq] at h
      obtain ⟨c, hold, h, hstep, hsize, rfl⟩ := h
      exact .handler j e c h hold hstep hsize
  | tick now =>
      simp only [step, Option.ite_none_right_eq_some, Option.some.injEq] at h
      obtain ⟨harmed, rfl⟩ := h
      exact .tick now harmed

/-- A handler that takes a step was unfinished. -/
theorem unresolved_of_step {c : ServerConnection} {h : Handler} {e : LoopEvent} {interrupted : Bool}
    (hstep : c.handler.step interrupted e = some h) : c.resolved = false := by
  by_contra hc
  have hnone := Handler.step_resolved (by simpa [ServerConnection.resolved] using hc) interrupted e
  rw [hstep] at hnone
  cases hnone

/-- The gate against the flag, the accept loop and the handlers. -/
structure Guarded (s : ServerShard) : Prop where
  closed_eq : s.handlers.gate.closed = s.interrupted
  never_refused : s.handlers.refused = 0
  balanced : s.handlers.Balanced ServerConnection.resolved (if s.accept = .accepting then 1 else 0)

theorem Guarded.start (i : Nat) : Guarded { thisShardId := i } := ⟨rfl, rfl, rfl⟩

theorem Guarded.runTcp (h : s.Guarded) (hidle : s.accept = .idle) (listens : Bool) :
    (s.runTcp listens).Guarded := by
  obtain ⟨hclosed, hrefused, hbalanced⟩ := h
  unfold ServerShard.runTcp
  cases hopen : s.handlers.gate.closed with
  | true =>
      rw [Gate.enter_closed hopen]
      refine ⟨hclosed, hrefused, ?_⟩
      simpa [hidle] using hbalanced
  | false =>
      rw [Gate.enter_open hopen]
      simp only [hidle, reduceCtorEq, if_false] at hbalanced
      unfold Gated.Balanced at hbalanced
      cases listens with
      | true =>
          refine ⟨by simpa using hclosed, hrefused, ?_⟩
          show s.handlers.gate.count + 1 = 1 + s.handlers.unfinished _
          omega
      | false =>
          refine ⟨by simpa using hclosed, hrefused, ?_⟩
          show s.handlers.gate.count + 1 - 1 = 0 + s.handlers.unfinished _
          omega

theorem Guarded.stop (h : s.Guarded) : s.stop.Guarded :=
  ⟨rfl, h.never_refused, h.balanced.close⟩

theorem Guarded.endAccept (h : s.Guarded) (haccept : s.accept = .accepting) {accept : AcceptLoop}
    (hended : accept ≠ .accepting) : (s.endAccept accept).Guarded := by
  refine ⟨h.closed_eq, h.never_refused, ?_⟩
  have hbalanced := h.balanced
  rw [if_pos haccept] at hbalanced
  unfold Gated.Balanced at hbalanced ⊢
  show s.handlers.gate.count - 1 = (if accept = .accepting then 1 else 0) + s.handlers.unfinished _
  rw [if_neg hended]
  omega

theorem Guarded.moves {e : ServerEvent} (h : s.Guarded) (hmoves : s.Moves dataSize e t) :
    t.Guarded := by
  cases hmoves with
  | stopAccept connection haccept hflag => exact h.endAccept haccept (by decide)
  | failAccept haccept hflag => exact h.endAccept haccept (by decide)
  | handOver connection haccept hflag =>
      -- the flag is down, so the gate is open and takes the handler in
      have hopen : s.handlers.gate.closed = false := h.closed_eq.trans hflag
      refine ⟨?_, ?_, h.balanced.withGate _⟩
      · rw [← h.closed_eq]
        exact Gated.withGate_gate_closed _
      · rw [Gated.withGate_open hopen]
        exact h.never_refused
  | handler j e c h' hold hstep hsize =>
      refine ⟨?_, h.never_refused, h.balanced.advance hold (unresolved_of_step hstep) _⟩
      rw [← h.closed_eq]
      exact Gated.advance_gate_closed j _
  | tick now harmed => exact ⟨h.closed_eq, h.never_refused, h.balanced⟩

/-- Once the future of `gate_.close()` has resolved, neither the accept loop nor a handler runs. -/
theorem Guarded.close_resolved (h : s.Guarded)
    (hresolved : s.handlers.gate.closeResolved = true) :
    s.accept ≠ .accepting ∧ ∀ c ∈ s.handlers.tasks, c.resolved = true := by
  obtain ⟨-, hcount⟩ := Gate.closeResolved_iff.mp hresolved
  have hbalanced := h.balanced
  by_cases haccept : s.accept = .accepting
  · rw [if_pos haccept] at hbalanced
    unfold Gated.Balanced at hbalanced
    omega
  · exact ⟨haccept, hbalanced.all_finished hcount⟩

/-! ### Whole runs of one instance -/

/-- The connections whose accept continuation ran before the first `stop()`, in their order. -/
def acceptedBeforeStop (es : List (ServiceEvent ServerEvent Bool)) : List Nat :=
  (es.takeWhile fun e => e != .stop).filterMap fun e =>
    match e with
    | .continuation (.accept connection) => connection
    | _ => none

theorem acceptedBeforeStop_after {es : List (ServiceEvent ServerEvent Bool)} (h : .stop ∈ es)
    (e : ServiceEvent ServerEvent Bool) :
    acceptedBeforeStop (es ++ [e]) = acceptedBeforeStop es := by
  unfold acceptedBeforeStop
  rw [List.takeWhile_append, if_neg]
  intro hlength
  have hself := (List.takeWhile_prefix (l := es) fun e => e != ServiceEvent.stop).eq_of_length
    hlength
  have hne := List.takeWhile_eq_self_iff.mp hself _ h
  simp at hne

theorem acceptedBeforeStop_before {es : List (ServiceEvent ServerEvent Bool)} (h : .stop ∉ es)
    (e : ServiceEvent ServerEvent Bool) :
    acceptedBeforeStop (es ++ [e]) = acceptedBeforeStop es ++ acceptedBeforeStop [e] := by
  have hself : es.takeWhile (fun e => e != .stop) = es := by
    apply List.takeWhile_eq_self_iff.mpr
    intro f hf
    have hne : f ≠ .stop := fun heq => h (heq ▸ hf)
    simpa using hne
  unfold acceptedBeforeStop
  rw [List.takeWhile_append, if_pos (by rw [hself]), hself, List.filterMap_append]

theorem acceptedBeforeStop_quiet {e : ServiceEvent ServerEvent Bool}
    (he : acceptedBeforeStop [e] = []) (es : List (ServiceEvent ServerEvent Bool)) :
    acceptedBeforeStop (es ++ [e]) = acceptedBeforeStop es := by
  by_cases hstop : .stop ∈ es
  · exact acceptedBeforeStop_after hstop e
  · rw [acceptedBeforeStop_before hstop, he, List.append_nil]

def isRun : ServiceEvent ServerEvent Bool → Bool
  | .run _ => true
  | _ => false

theorem countP_isRun_quiet {e : ServiceEvent ServerEvent Bool} (he : isRun e = false)
    (es : List (ServiceEvent ServerEvent Bool)) :
    (es ++ [e]).countP isRun = es.countP isRun := by
  rw [List.countP_append, List.countP_cons_of_neg (by simp [he]), List.countP_nil, Nat.add_zero]

/-- The state of an instance against the run that led to it. -/
structure Logged (es : List (ServiceEvent ServerEvent Bool)) (s : ServerShard) : Prop where
  guarded : s.Guarded
  interrupted_iff : s.interrupted = true ↔ .stop ∈ es
  idle_iff : s.accept = .idle ↔ es.countP isRun = 0
  owners : s.handlers.tasks.map ServerConnection.connection = acceptedBeforeStop es

theorem runTcp_accept_ne_idle (s : ServerShard) (listens : Bool) :
    (s.runTcp listens).accept ≠ .idle := by
  unfold runTcp
  cases s.handlers.gate.enter with
  | none => simp
  | some gate => cases listens <;> simp

theorem runTcp_tasks (s : ServerShard) (listens : Bool) :
    (s.runTcp listens).handlers.tasks = s.handlers.tasks := by
  unfold runTcp
  cases s.handlers.gate.enter with
  | none => rfl
  | some gate => cases listens <;> rfl

theorem runTcp_interrupted (s : ServerShard) (listens : Bool) :
    (s.runTcp listens).interrupted = s.interrupted := by
  unfold runTcp
  cases s.handlers.gate.enter with
  | none => rfl
  | some gate => cases listens <;> rfl

/-- Only `stop()` raises the flag. -/
theorem interrupted_of_call {e : ServiceEvent ServerEvent Bool} (he : e ≠ .stop)
    (h : (serverService dataSize).call s e = some t) : t.interrupted = s.interrupted := by
  cases e with
  | armTimer =>
      cases h
      rfl
  | run listens =>
      cases h
      exact runTcp_interrupted s listens
  | stop => exact absurd rfl he
  | continuation e =>
      have hmoves := moves_of_step h
      cases hmoves <;> rfl

/-- A handler's connection has been accepted. -/
theorem mem_connections_of_call {e : ServiceEvent ServerEvent Bool} {c : Nat}
    (h : (serverService dataSize).call s e = some t)
    (hc : c ∈ t.handlers.tasks.map ServerConnection.connection) :
    c ∈ s.handlers.tasks.map ServerConnection.connection ∨
      e = .continuation (.accept (some c)) := by
  cases e with
  | armTimer | stop =>
      cases h
      exact Or.inl hc
  | run listens =>
      cases h
      change c ∈ (s.runTcp listens).handlers.tasks.map ServerConnection.connection at hc
      rw [runTcp_tasks] at hc
      exact Or.inl hc
  | continuation e =>
      have hmoves := moves_of_step h
      cases hmoves with
      | stopAccept | failAccept | tick => exact Or.inl hc
      | handler j e row h' hold =>
          left
          have hsame : (s.handlers.tasks.set j { row with handler := h' }).map
              ServerConnection.connection = _ := Table.map_set_same _ hold rfl
          rw [← hsame]
          exact hc
      | handOver connection =>
          cases hclosed : s.handlers.gate.closed with
          | true =>
              left
              rw [Gated.withGate_closed hclosed] at hc
              exact hc
          | false =>
              simp only [Gated.withGate_open hclosed, List.map_append, List.mem_append,
                List.map_cons, List.map_nil, List.mem_singleton] at hc
              rcases hc with hc | rfl
              · exact Or.inl hc
              · exact Or.inr rfl

theorem Logged.start (i : Nat) : Logged [] { thisShardId := i } := by
  refine ⟨.start i, ?_, ?_, rfl⟩ <;> simp

/-- An event that starts nothing, stops nothing and accepts nothing changes none of the log's facts. -/
theorem Logged.quiet {es : List (ServiceEvent ServerEvent Bool)} {e : ServiceEvent ServerEvent Bool}
    (h : Logged es s) (hguarded : t.Guarded) (hstop : e ≠ .stop) (hrun : isRun e = false)
    (hquiet : acceptedBeforeStop [e] = []) (hflag : t.interrupted = s.interrupted)
    (hidle : t.accept = .idle ↔ s.accept = .idle)
    (howners : t.handlers.tasks.map ServerConnection.connection =
      s.handlers.tasks.map ServerConnection.connection) : Logged (es ++ [e]) t := by
  refine ⟨hguarded, ?_, ?_, ?_⟩
  · rw [hflag, h.interrupted_iff, List.mem_append, List.mem_singleton]
    exact (or_iff_left hstop.symm).symm
  · rw [hidle, countP_isRun_quiet hrun]
    exact h.idle_iff
  · rw [howners, acceptedBeforeStop_quiet hquiet]
    exact h.owners

theorem Logged.continuation {es : List (ServiceEvent ServerEvent Bool)} {e : ServerEvent}
    (h : Logged es s) (hmoves : s.Moves dataSize e t) :
    Logged (es ++ [.continuation e]) t := by
  have hguarded := h.guarded.moves hmoves
  have hidle_iff : s.accept = .idle ↔ (es ++ [ServiceEvent.continuation e]).countP isRun = 0 := by
    rw [countP_isRun_quiet rfl]
    exact h.idle_iff
  have hstop_iff : s.interrupted = true ↔ .stop ∈ es ++ [.continuation e] := by
    rw [List.mem_append, h.interrupted_iff]
    simp
  cases hmoves with
  | stopAccept connection haccept hflag =>
      refine ⟨hguarded, hstop_iff, ?_, ?_⟩
      · rw [← hidle_iff, haccept]
        simp [endAccept]
      · rw [acceptedBeforeStop_after (h.interrupted_iff.mp hflag)]
        exact h.owners
  | failAccept haccept hflag =>
      exact h.quiet hguarded (by simp) rfl rfl rfl (by simp [endAccept, haccept]) rfl
  | handOver connection haccept hflag =>
      have hopen : s.handlers.gate.closed = false := h.guarded.closed_eq.trans hflag
      refine ⟨hguarded, hstop_iff, hidle_iff, ?_⟩
      have hbefore : .stop ∉ es := fun hmem => by
        rw [h.interrupted_iff.mpr hmem] at hflag
        cases hflag
      rw [acceptedBeforeStop_before hbefore, ← h.owners, Gated.withGate_open hopen, List.map_append]
      rfl
  | handler j e c h' hold hstep hsize =>
      exact h.quiet hguarded (by simp) rfl rfl rfl Iff.rfl (Table.map_set_same _ hold rfl)
  | tick now harmed => exact h.quiet hguarded (by simp) rfl rfl rfl Iff.rfl rfl

theorem Logged.concat {es : List (ServiceEvent ServerEvent Bool)}
    {e : ServiceEvent ServerEvent Bool} (h : Logged es s)
    (hstep : (serverService dataSize).call s e = some t) (hrun : (es ++ [e]).countP isRun ≤ 1) :
    Logged (es ++ [e]) t := by
  rw [List.countP_append] at hrun
  cases e with
  | armTimer =>
      cases hstep
      have hguarded : Guarded { s with timerArmed := true } :=
        ⟨h.guarded.closed_eq, h.guarded.never_refused, h.guarded.balanced⟩
      exact h.quiet hguarded (by simp) rfl rfl rfl Iff.rfl rfl
  | run listens =>
      cases hstep
      have hidle : s.accept = .idle := by
        rw [h.idle_iff]
        have hone : [ServiceEvent.run listens].countP isRun = 1 := rfl
        omega
      refine ⟨h.guarded.runTcp hidle listens, ?_, ?_, ?_⟩
      · show (s.runTcp listens).interrupted = true ↔ _
        rw [runTcp_interrupted, h.interrupted_iff]
        simp
      · have hrun : (s.runTcp listens).accept ≠ .idle := runTcp_accept_ne_idle s listens
        simpa [isRun, serverService] using hrun
      · show (s.runTcp listens).handlers.tasks.map _ = _
        rw [runTcp_tasks, acceptedBeforeStop_quiet rfl]
        exact h.owners
  | stop =>
      cases hstep
      refine ⟨h.guarded.stop, ?_, ?_, ?_⟩
      · show true = true ↔ _
        simp
      · show s.accept = .idle ↔ _
        rw [countP_isRun_quiet rfl]
        exact h.idle_iff
      · rw [acceptedBeforeStop_quiet rfl]
        exact h.owners
  | continuation e => exact h.continuation (moves_of_step hstep)

theorem logged {shardId : Nat} {es : List (ServiceEvent ServerEvent Bool)}
    (h : ((serverService dataSize).system shardId).exec ((serverService dataSize).start shardId) es =
      some s) (hrun : es.countP isRun ≤ 1) : Logged es s := by
  apply System.exec_induction (S := (serverService dataSize).system shardId)
    (motive := fun es s => es.countP isRun ≤ 1 → Logged es s) (fun _ => .start shardId) ?_ h hrun
  intro es s e t _ ih hstep hrun
  have hbefore : es.countP isRun ≤ 1 := by
    rw [List.countP_append] at hrun
    omega
  exact (ih hbefore).concat hstep hrun

/-- In a run in which `run_tcp` enters the gate, once, before the first `stop()`: the gate is closed
only after an interrupt and never refuses a handler, the handlers are those of the connections
accepted before, the count is theirs and the accept loop's, and the future of `gate_.close()`
resolves only when all of them are over. -/
theorem accept_gate_invariant {shardId : Nat} {listens : Bool}
    {before after : List (ServiceEvent ServerEvent Bool)}
    (h : ((serverService dataSize).system shardId).exec ((serverService dataSize).start shardId)
      (before ++ .run listens :: after) = some s)
    (hbefore : ∀ e ∈ before, e ≠ .stop ∧ isRun e = false) (hafter : ∀ e ∈ after, isRun e = false) :
    (s.handlers.gate.closed = true → s.interrupted = true) ∧
    s.handlers.refused = 0 ∧
    s.handlers.tasks.map ServerConnection.connection =
      acceptedBeforeStop (before ++ .run listens :: after) ∧
    s.handlers.gate.count = s.handlers.unfinished ServerConnection.resolved +
      (if s.accept.finished then 0 else 1) ∧
    (s.handlers.gate.closeResolved = true →
      s.accept.finished = true ∧ ∀ c ∈ s.handlers.tasks, c.resolved = true) := by
  have hone : (before ++ .run listens :: after).countP isRun = 1 := by
    rw [List.countP_append, List.countP_cons_of_pos rfl,
      List.countP_eq_zero.mpr fun e he => by simp [(hbefore e he).2],
      List.countP_eq_zero.mpr fun e he => by simp [hafter e he]]
  have hlogged := logged h hone.le
  have hguarded := hlogged.guarded
  have hrunning : s.accept.finished = false ↔ s.accept = .accepting := by
    have hidle : s.accept ≠ .idle := fun hidle => by
      rw [hlogged.idle_iff.mp hidle] at hone
      cases hone
    cases haccept : s.accept <;> simp_all [AcceptLoop.finished]
  refine ⟨fun hclosed => hguarded.closed_eq ▸ hclosed, hguarded.never_refused, hlogged.owners, ?_,
    fun hresolved => ?_⟩
  · have hbalanced := hguarded.balanced
    unfold Gated.Balanced at hbalanced
    rw [hbalanced, Nat.add_comm]
    congr 1
    cases hfinished : s.accept.finished with
    | false => simp [hrunning.mp hfinished]
    | true =>
        have hnot : s.accept ≠ .accepting := fun haccept => by
          rw [hrunning.mpr haccept] at hfinished
          cases hfinished
        simp [hnot]
  · obtain ⟨hnot, hall⟩ := hguarded.close_resolved hresolved
    refine ⟨?_, hall⟩
    cases hfinished : s.accept.finished with
    | false => exact absurd (hrunning.mp hfinished) hnot
    | true => rfl

/-- A connection is accepted and served; `stop()` races with a second one, which gets no handler; the
first handler's loops end one after the other. -/
def stopRace : List (ServiceEvent ServerEvent Bool) :=
  [.continuation (.accept (some 7)), .continuation (.handler 0 (.read (.read 64))), .stop,
    .continuation (.accept (some 8)), .continuation (.handler 0 (.read .top)),
    .continuation (.handler 0 (.write .written)), .continuation (.handler 0 (.write .top))]

def afterStopRace : ServerShard :=
  (((serverService 64).system 0).exec ((serverService 64).start 0)
    ([.armTimer] ++ .run true :: stopRace)).get (by decide +kernel)

theorem accept_gate_invariant_stopRace :
    afterStopRace.handlers.tasks.map ServerConnection.connection = [7] ∧
      afterStopRace.handlers.refused = 0 ∧ afterStopRace.handlers.gate.count = 1 := by
  have hexec : ((serverService 64).system 0).exec ((serverService 64).start 0)
      ([.armTimer] ++ .run true :: stopRace) = some afterStopRace := (Option.some_get _).symm
  have h := accept_gate_invariant hexec (by decide) (by decide)
  refine ⟨h.2.2.1.trans (by decide +kernel), h.2.1, h.2.2.2.1.trans (by decide +kernel)⟩

end ServerShard

end SeastarExperiments
