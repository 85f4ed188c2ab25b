import SeastarExperiments.PingPong

/-! Lock-step between `tcp_client_pingpong` and `tcp_server_pingpong`. The client's loop answers for
its half: it never has two pings outstanding. The server's half is missing. Its accept loop calls the
`handle_connection` with one argument, whose two loops do not wait for each other. -/

namespace SeastarExperiments

open ByteStream Transition

/-- The pings whose answers the loop has not read. -/
def PingLoop.pending : PingLoop → Nat
  | .top => 0
  | _ => 1

theorem PingLoop.step_pending {loop loop' : PingLoop} {e : LoopEvent}
    (h : loop.step false e = some loop') :
    loop'.pending + e.packetsRead = loop.pending + e.packetsIssued := by
  unfold step at h
  split at h <;> cases h
  case h_3 size =>
      unfold onRead
      split <;> simp_all [pending, LoopEvent.packetsRead, LoopEvent.packetsIssued]
  all_goals rfl

def ClientPhase.pending : ClientPhase PingLoop → Nat
  | .connecting => 0
  | .connectFailed => 0
  | .handling loop => loop.pending

/-- A turn of a handler that nobody interrupts issues what becomes pending, and reads the rest. -/
theorem ClientPhase.Turns.pending {phase phase' : ClientPhase PingLoop} {e : LoopEvent}
    (h : phase.Turns pingHandler false e phase') :
    phase'.pending + e.packetsRead = phase.pending + e.packetsIssued := by
  cases h with
  | begins => rfl
  | goesOn loop loop' _ hstep => exact PingLoop.step_pending hstep

namespace PingPong

variable {shards : Side → Nat} {cfg : PingPongConfig} {d d' : PingPong shards}
  {es : List (PingPongEvent shards)}

/-! ### The client's half -/

/-- Each connection belongs to a task of its own, and its pings are answered but for those that the
task's loop waits for. -/
structure Paced (client : Process (shards .client) (ClientShard PingLoop))
    (links : List (Link shards)) : Prop where
  distinct : (links.map Link.task).Nodup
  paced : ∀ link ∈ links, ∃ task, Client.taskAt client link.task = some task ∧
    (link.direction .client).issued = (link.direction .server).read + task.phase.pending

variable {client client' : Process (shards .client) (ClientShard PingLoop)}
  {links : List (Link shards)}

/-- One connection goes on, perhaps with its task. -/
theorem Paced.set (h : Paced client links) {c : Nat} {link new : Link shards}
    (hlink : links[c]? = some link) (htask : new.task = link.task)
    (hothers : ∀ x, x ≠ link.task → Client.taskAt client' x = Client.taskAt client x)
    (hnew : ∃ task, Client.taskAt client' link.task = some task ∧
      (new.direction .client).issued = (new.direction .server).read + task.phase.pending) :
    Paced client' (links.set c new) := by
  refine ⟨?_, ?_⟩
  · rw [Table.map_set_same Link.task hlink htask]
    exact h.distinct
  · intro l hl
    obtain ⟨k, hk⟩ := List.getElem?_of_mem hl
    by_cases hck : c = k
    · subst hck
      rw [Table.get_set_self hlink] at hk
      cases hk
      rw [htask]
      exact hnew
    · rw [List.getElem?_set_ne hck] at hk
      have hdistinct : l.task ≠ link.task := by
        intro heq
        obtain ⟨hlength, -⟩ := List.getElem?_eq_some_iff.mp hlink
        apply hck
        apply (List.getElem?_inj (by rwa [List.length_map]) h.distinct).mp
        rw [List.getElem?_map, List.getElem?_map, hk, hlink, Option.map_some, Option.map_some, heq]
      rw [hothers l.task hdistinct]
      exact h.paced l (List.mem_of_getElem? hk)

/-- A step that keeps the tasks' phases, or lets a connect fail, keeps every count. -/
theorem Paced.kept (h : Paced client links)
    (hkept : ∀ x task, Client.taskAt client x = some task →
      ∃ task', Client.taskAt client' x = some task' ∧ task'.phase.pending = task.phase.pending) :
    Paced client' links := by
  refine ⟨h.distinct, ?_⟩
  intro link hlink
  obtain ⟨task, htask, hcount⟩ := h.paced link hlink
  obtain ⟨task', htask', hpending⟩ := hkept _ task htask
  exact ⟨task', htask', by rw [hcount, hpending]⟩

theorem Paced.handshake (h : Paced client links) {x : Fin (shards .client) × Nat}
    {task : ClientTask PingLoop} (htask : Client.taskAt client x = some task)
    (hphase : task.phase = .connecting) (hnew : ∀ link ∈ links, link.task ≠ x) :
    Paced client (links ++ [{ task := x }]) := by
  refine ⟨?_, ?_⟩
  · rw [List.map_append, List.nodup_append]
    refine ⟨h.distinct, by simp, ?_⟩
    intro y hy z hz
    obtain ⟨link, hlink, rfl⟩ := List.mem_map.mp hy
    obtain rfl : z = x := by simpa using hz
    exact hnew link hlink
  · intro link hlink
    rcases List.mem_append.mp hlink with hlink | hlink
    · exact h.paced link hlink
    · rw [List.mem_singleton.mp hlink]
      exact ⟨task, htask, by simp [hphase, ClientPhase.pending]⟩

/-- The client's side of one connection goes on with its task. -/
theorem Paced.clientHandler (h : Paced client links) {i : Fin (shards .client)} {j c : Nat}
    {e : ClientEvent} {f : LoopEvent} {link link' : Link shards}
    (hflag : (client.shard i).interrupted = false) (hturns : Client.turn e = some (j, f))
    (hlink : links[c]? = some link) (htask : link.task = (i, j))
    (hmoved : link.continuation cfg .client f = some link')
    (hclient : (Client.system pingHandler cfg.dataSize cfg.connections _).step client
      (.continuation i e) = some client') :
    Paced client' (links.set c link') := by
  obtain ⟨task, task', hold, hnew, hphase, hothers⟩ := Client.taskAt_turn hturns hclient
  obtain ⟨same, hsame, hbefore⟩ := h.paced link (List.mem_of_getElem? hlink)
  rw [htask, hold] at hsame
  cases hsame
  rw [hflag] at hphase
  have hpending := hphase.pending
  have hcontinued := Link.continued hmoved
  have hissued : (link'.direction .client).issued =
      (link.direction .client).issued + f.packetsIssued := hcontinued.issued
  have hread : (link'.direction .server).read = (link.direction .server).read + f.packetsRead :=
    hcontinued.read
  apply h.set hlink hcontinued.task
  · rw [htask]
    exact hothers
  · rw [htask]
    refine ⟨task', hnew, ?_⟩
    omega

theorem Paced.clientOther (h : Paced client links)
    {e : ProcessEvent (shards .client) ClientEvent Unit} (hidles : Client.Idles e)
    (hclient : (Client.system pingHandler cfg.dataSize cfg.connections _).step client e =
      some client') : Paced client' links := by
  apply h.kept
  intro x task hold
  obtain ⟨task', htask', hkept⟩ := Client.taskAt_idle hclient hidles hold
  refine ⟨task', htask', ?_⟩
  rcases hkept with rfl | ⟨-, hphase, hphase'⟩
  · rfl
  · rw [hphase, hphase']
    rfl

/-- Each move keeps the client's pace, the moves of the server among them. -/
theorem Paced.moves {e : PingPongEvent shards} (hd : Paced d.client d.links)
    (hflag : ∀ i, (d.client.shard i).interrupted = false) (h : d.Moves cfg e d') :
    Paced d'.client d'.links := by
  have hcount {c : Nat} {link : Link shards} (hlink : d.links[c]? = some link) :=
    hd.paced link (List.mem_of_getElem? hlink)
  cases h with
  | handOver _ _ _ link link' _ hlink _ hmoved =>
      have hcontinued := Link.continued hmoved
      apply hd.set hlink hcontinued.task (fun _ _ => rfl)
      have hissued : (link'.direction .client).issued = _ := hcontinued.other_issued
      rw [hissued, hcontinued.other_read]
      exact hcount hlink
  | serverHandler _ _ _ _ _ link link' _ _ hlink hmoved =>
      have hcontinued := Link.continued hmoved
      apply hd.set hlink hcontinued.task (fun _ _ => rfl)
      have hissued : (link'.direction .client).issued = _ := hcontinued.other_issued
      rw [hissued, hcontinued.other_read]
      exact hcount hlink
  | segment _ _ link writer pipe _ hlink =>
      refine hd.set hlink rfl (fun _ _ => rfl) ?_
      cases writer <;> simpa [Link.update] using hcount hlink
  | serverOther => exact hd
  | handshake i j task htask hphase hnew => exact hd.handshake htask hphase hnew
  | clientHandler i j c e f client link link' hturns hclient hlink htask hmoved =>
      exact hd.clientHandler (hflag i) hturns hlink htask hmoved hclient
  | clientOther f client hclient hstops hidles => exact hd.clientOther hidles hclient

theorem paced (h : (system cfg).Reachable d) : Paced d.client d.links := by
  have hknown : ∀ d : PingPong shards, (system cfg).Reachable d → d.Uninterrupted :=
    fun _ => uninterrupted
  apply System.Reachable.invariant_of (fun d : PingPong shards => Paced d.client d.links) hknown
    ?_ ?_ h
  · refine ⟨List.nodup_nil, fun link hlink => ?_⟩
    cases hlink
  · intro d e d' hknown hd hstep
    exact hd.moves hknown.2 (moves_of_step hstep)

/-- The client never has two pings outstanding on a connection. -/
theorem client_one_outstanding (h : (system cfg).Reachable d) :
    ∀ link ∈ d.links, (link.direction .server).read ≤ (link.direction .client).issued ∧
      (link.direction .client).issued ≤ (link.direction .server).read + 1 := by
  intro link hlink
  obtain ⟨task, -, hcount⟩ := (paced h).paced link hlink
  have hpending : task.phase.pending ≤ 1 := by
    unfold ClientPhase.pending PingLoop.pending
    split
    · exact Nat.zero_le 1
    · exact Nat.zero_le 1
    · split <;> omega
  omega

/-! ### The server's half -/

/-- Accepted connections stay accepted. -/
theorem Moves.accepted {e : PingPongEvent shards} (h : d.Moves cfg e d') {c : Nat}
    {link : Link shards} (hlink : d.links[c]? = some link) (haccepted : link.accepted = true) :
    ∃ link', d'.links[c]? = some link' ∧ link'.accepted = true := by
  have hset {k : Nat} {old new : Link shards} (hold : d.links[k]? = some old)
      (hnew : old.accepted = true → new.accepted = true) :
      ∃ link', (d.links.set k new)[c]? = some link' ∧ link'.accepted = true := by
    by_cases hkc : k = c
    · subst hkc
      rw [hold] at hlink
      cases hlink
      exact ⟨new, Table.get_set_self hold new, hnew haccepted⟩
    · exact ⟨link, by rw [List.getElem?_set_ne hkc, hlink], haccepted⟩
  cases h with
  | handOver _ _ _ _ _ _ hold _ hmoved => exact hset hold fun _ => (Link.continued hmoved).accepted
  | serverHandler _ _ _ _ _ _ _ _ _ hold hmoved | clientHandler _ _ _ _ _ _ _ _ _ _ hold _ hmoved =>
      exact hset hold fun h => (Link.continued hmoved).accepted.trans h
  | segment _ _ _ _ _ _ hold => exact hset hold id
  | serverOther | clientOther => exact ⟨link, hlink, haccepted⟩
  | handshake =>
      obtain ⟨hlength, -⟩ := List.getElem?_eq_some_iff.mp hlink
      exact ⟨link, by rw [List.getElem?_append_left hlength, hlink], haccepted⟩

/-- The server has accepted what it handles, and has read from nothing else. -/
structure Handed (d : PingPong shards) : Prop where
  owned : ∀ i, ∀ c ∈ d.handled i, ∃ link, d.links[c]? = some link ∧ link.accepted = true
  fresh : ∀ link ∈ d.links, link.accepted = false → (link.direction .client).read = 0

theorem Handed.owned_moves {e : PingPongEvent shards} (hd : d.Handed) (h : d.Moves cfg e d') :
    ∀ i, ∀ c ∈ d'.handled i, ∃ link, d'.links[c]? = some link ∧ link.accepted = true := by
  intro i c hc
  rcases h.handled hc with hc | rfl
  · obtain ⟨link, hlink, haccepted⟩ := hd.owned i c hc
    exact h.accepted hlink haccepted
  · cases h with
    | handOver _ _ _ link _ _ hlink _ hmoved =>
        exact ⟨_, Table.get_set_self hlink _, (Link.continued hmoved).accepted⟩
    | serverOther _ _ _ _ hidles => exact absurd rfl (hidles.2 i c)
    | segment _ _ _ _ _ hevent => cases hevent

theorem Handed.fresh_moves {e : PingPongEvent shards} (hd : d.Handed) (h : d.Moves cfg e d') :
    ∀ link ∈ d'.links, link.accepted = false → (link.direction .client).read = 0 := by
  have hold {c : Nat} {link : Link shards} (hlink : d.links[c]? = some link) :=
    hd.fresh link (List.mem_of_getElem? hlink)
  cases h with
  | handOver _ _ _ _ _ _ _ _ hmoved =>
      apply Table.forall_mem_set hd.fresh
      intro haccepted
      rw [(Link.continued hmoved).accepted] at haccepted
      cases haccepted
  | serverHandler i j e server handler link link' hserver hhandler hlink hmoved =>
      -- the handler's connection has been accepted
      apply Table.forall_mem_set hd.fresh
      intro haccepted
      have hmem : handler.connection ∈ d.handled i :=
        List.mem_map_of_mem (List.mem_of_getElem? hhandler)
      obtain ⟨owned, howned, htrue⟩ := hd.owned i _ hmem
      rw [hlink] at howned
      cases howned
      rw [(Link.continued hmoved).accepted, htrue] at haccepted
      cases haccepted
  | clientHandler _ _ _ _ _ _ _ _ _ _ hlink _ hmoved =>
      apply Table.forall_mem_set hd.fresh
      intro haccepted
      have hcontinued := Link.continued hmoved
      rw [hcontinued.other_read]
      exact hold hlink (hcontinued.accepted.symm.trans haccepted)
  | segment _ c link writer pipe _ hlink =>
      apply Table.forall_mem_set hd.fresh
      intro haccepted
      have hread := hold hlink haccepted
      cases writer <;> simpa [Link.update] using hread
  | serverOther | clientOther => exact hd.fresh
  | handshake =>
      intro link hmem haccepted
      rcases List.mem_append.mp hmem with hmem | hmem
      · exact hd.fresh link hmem haccepted
      · rw [List.mem_singleton.mp hmem]

theorem handed (h : (system cfg).Reachable d) : d.Handed := by
  apply System.Reachable.invariant Handed ⟨?_, ?_⟩ ?_ h
  · intro i c hc
    cases hc
  · intro link hmem
    cases hmem
  · intro d e d' hd hstep
    have hmoves := moves_of_step hstep
    exact ⟨hd.owned_moves hmoves, hd.fresh_moves hmoves⟩

/-- An accepted connection gets a handler: nobody is interrupted, and the gate is open. -/
theorem handled_of_accept (h : (system cfg).Reachable d) {i : Fin (shards .server)} {c : Nat}
    {server : Process (shards .server) ServerShard}
    (hserver : (Server.system cfg.dataSize _).step d.server (.continuation i (.accept (some c))) =
      some server) :
    ∃ handler ∈ (server.shard i).handlers.tasks, handler.connection = c := by
  have hflag := (uninterrupted h).1 i
  have hopen : (d.server.shard i).handlers.gate.closed = false :=
    (Server.consistent (projects_server.reachable h) i).guarded.closed_eq.trans hflag
  cases Process.moves_of_step hserver with
  | continuation _ _ s hs =>
      simp only [Function.update_self]
      cases ServerShard.moves_of_step hs with
      | stopAccept _ _ hup =>
          rw [hflag] at hup
          cases hup
      | handOver =>
          rw [Gated.withGate_open hopen]
          exact ⟨_, List.mem_append_right _ (List.mem_singleton_self _), rfl⟩

/-- With the hand-over the server has issued a packet on the connection and read none from it. -/
theorem not_lockStep_of_handOver (h : (system cfg).Reachable d) {e : PingPongEvent shards}
    (hstep : (system cfg).step d e = some d') (he : e.handsOver = true) : ¬d'.LockStep := by
  intro hlock
  obtain ⟨i, c, rfl⟩ := PingPongEvent.handsOver_iff.mp he
  cases moves_of_step hstep with
  | handOver _ _ server link link' hserver hlink hfirst hmoved =>
      obtain ⟨handler, hhandler, hconnection⟩ := handled_of_accept h hserver
      have hcontinued := Link.continued hmoved
      have hafter := (hlock i handler hhandler link'
        (by rw [hconnection]; exact Table.get_set_self hlink _)).1
      have hread : (link'.direction .client).read = 0 := by
        have hfresh := (handed h).fresh link (List.mem_of_getElem? hlink) hfirst
        exact hcontinued.read.trans hfresh
      have hissued : 0 < (link'.direction .server).issued := by
        rw [hcontinued.issued]
        exact Nat.succ_pos _
      apply absurd hissued
      apply Nat.not_lt.mpr
      exact hafter.trans hread.le
  | serverOther _ _ _ _ hidles => exact hidles.2 i c rfl
  | segment _ _ _ _ _ hevent => cases hevent

/-- A server that has handed over nothing handles nothing. -/
def Unhanded (d : PingPong shards) : Prop := ∀ i, d.handled i = []

theorem Unhanded.step {e : PingPongEvent shards} (hd : d.Unhanded) (he : e.handsOver = false)
    (hstep : (system cfg).step d e = some d') : d'.Unhanded := by
  intro i
  rw [List.eq_nil_iff_forall_not_mem]
  intro c hc
  rcases (moves_of_step hstep).handled hc with hc | rfl
  · rw [hd i] at hc
    cases hc
  · cases he

theorem Unhanded.lockStep (hd : d.Unhanded) : d.LockStep := by
  intro i handler hhandler
  have hmem : handler.connection ∈ d.handled i := List.mem_map_of_mem hhandler
  rw [hd i] at hmem
  cases hmem

/-- A run keeps all connections of the server in lock-step exactly when the server is handed none:
the writing loop that each of them gets begins before anything is read. -/
theorem lockStep_iff_unhanded (h : (system cfg).exec (start cfg) es = some d) :
    (system cfg).Always LockStep (start cfg) es ↔ ∀ e ∈ es, e.handsOver = false := by
  constructor
  · intro hlock
    apply (System.eachStep_iff_forall_mem (C := fun e => e.handsOver = false) h).mp
    refine hlock.eachStep h fun pre t e t' ht hstep hafter => ?_
    by_contra he
    exact not_lockStep_of_handOver ⟨pre, ht⟩ hstep (by simpa using he) hafter
  · intro hnone
    have hunhanded : (system cfg).Always Unhanded (start cfg) es :=
      ((System.eachStep_iff_forall_mem h).mpr hnone).always Unhanded
        (fun _ _ _ hd he hstep => hd.step he hstep) fun _ => rfl
    exact hunhanded.mono fun _ => Unhanded.lockStep

/-- The option defaults, over streams without limits. -/
def defaultConfig : PingPongConfig where
  dataSize := 64
  connections := 1
  limits _ := ⟨none, none⟩

/-- The one task of the client has written its first ping. -/
def firstPing : List (PingPongEvent fun _ => 1) :=
  [.server (.reporterSet shardZero true), .server .advance, .server (.callRun shardZero true),
    .client (.reporterSet shardZero true), .client .advance, .client (.callRun shardZero ()),
    .handshake shardZero 0, .client (.continuation shardZero (.connected 0 true)),
    .accept 0 .client 64, .client (.continuation shardZero (.handler 0 (.write .written))),
    .client (.continuation shardZero (.tick ⟨1000, 1001⟩))]

def afterFirstPing : PingPong fun _ => 1 :=
  ((system defaultConfig).exec (start defaultConfig) firstPing).get (by decide +kernel)

theorem lockStep_iff_unhanded_firstPing :
    (system defaultConfig).Always LockStep (start defaultConfig) firstPing := by
  have hexec : (system defaultConfig).exec (start defaultConfig) firstPing = some afterFirstPing :=
    (Option.some_get _).symm
  exact (lockStep_iff_unhanded hexec).mpr (by decide)

/-- The server accepts the connection, with the ping still on its way. -/
def firstAccept : List (PingPongEvent fun _ => 1) :=
  firstPing ++ [.server (.continuation shardZero (.accept (some 0)))]

def afterFirstAccept : PingPong fun _ => 1 :=
  ((system defaultConfig).exec (start defaultConfig) firstAccept).get (by decide +kernel)

theorem server_writes_before_ping :
    ¬∀ d : PingPong fun _ => 1, (system defaultConfig).Reachable d → d.LockStep := by
  intro hlock
  have hreach : (system defaultConfig).Reachable afterFirstAccept :=
    ⟨firstAccept, (Option.some_get _).symm⟩
  have hfirst := (hlock afterFirstAccept hreach 0 ⟨0, handleConnection false⟩ (by decide +kernel)
    (afterFirstAccept.links.get ⟨0, by decide +kernel⟩)
    (List.getElem?_eq_getElem (by decide +kernel))).1
  exact absurd hfirst (by decide +kernel)

end PingPong

end SeastarExperiments
