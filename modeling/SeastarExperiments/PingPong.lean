import SeastarExperiments.ClientProcess
import SeastarExperiments.Duplex
import SeastarExperiments.ServerShutdown

/-! `tcp_client_pingpong` against `tcp_server_pingpong`: both processes with all their shards, and the
byte streams of the connections between them. The client runs one loop on a connection, the server
the duplex `handle_connection`. No `stop()` is called here, and no operation on a connection fails
with an I/O error. -/

namespace SeastarExperiments

open ByteStream Transition

/-- The option `data_size` of both processes, the option `connections` of the client, and the limits
of the stream each end writes. -/
structure PingPongConfig where
  dataSize : Nat
  connections : UInt16
  limits : Side → Limits

def PingPongConfig.lane (cfg : PingPongConfig) (writer : Side) : LaneConfig where
  writeSize := cfg.dataSize
  readSize := cfg.dataSize
  limits := cfg.limits writer

/-- The packets that a loop issues with this event. -/
def LoopEvent.packetsIssued : LoopEvent → Nat
  | .write .top => 1
  | _ => 0

/-- One direction of a connection, with the packets issued into it and the packets read from it. -/
structure Direction where
  pipe : Pipe := {}
  issued : Nat := 0
  read : Nat := 0
  deriving DecidableEq

namespace Direction

/-- What a step of the writing end does. A packet is issued when `output.write` is called. -/
def write (cfg : LaneConfig) (d : Direction) (e : WriteEvent) : Option Direction :=
  (Lane.writeEffect cfg false d.pipe e).map fun pipe =>
    { d with pipe, issued := d.issued + (LoopEvent.write e).packetsIssued }

/-- What a step of the reading end does. -/
def receive (cfg : LaneConfig) (d : Direction) (e : ReadEvent) : Option Direction :=
  (Lane.readEffect cfg d.pipe e).map fun pipe =>
    { d with pipe, read := d.read + (LoopEvent.read e).packetsRead }

end Direction

/-- A connection: the client's task, whether the server has accepted it, and its two directions,
each named after its writing end. -/
structure Link (shards : Side → Nat) where
  task : Fin (shards .client) × Nat
  accepted : Bool := false
  direction : Side → Direction := fun _ => {}

namespace Link

variable {shards : Side → Nat}

def update (l : Link shards) (writer : Side) (d : Direction) : Link shards :=
  { l with direction := Function.update l.direction writer d }

/-- What a continuation of the handler at one end does to the connection. -/
def continuation (cfg : PingPongConfig) (l : Link shards) (side : Side) :
    LoopEvent → Option (Link shards)
  | .write e => ((l.direction side).write (cfg.lane side) e).map (l.update side)
  | .read e =>
      ((l.direction side.other).receive (cfg.lane side.other) e).map (l.update side.other)

/-- The server accepts the connection, and the call of its `handle_connection` runs the first turns
of both loops, of which only that of the writing loop touches the streams. -/
def handOver (cfg : PingPongConfig) (l : Link shards) : Option (Link shards) :=
  { l with accepted := true }.continuation cfg .server (.write .top)

/-- The channel takes or delivers a segment of what this end writes. -/
def segment (l : Link shards) (writer : Side) (move : Pipe → Option Pipe) : Option (Link shards) :=
  (move (l.direction writer).pipe).map fun pipe =>
    l.update writer { l.direction writer with pipe }

/-- Every server packet answers a ping, and one packet at most is outstanding. -/
def LockStep (l : Link shards) : Prop :=
  (l.direction .server).issued ≤ (l.direction .client).read ∧
    (l.direction .client).issued + (l.direction .server).issued ≤
      (l.direction .client).read + (l.direction .server).read + 1

/-- What a continuation at one end leaves of a connection, and what it counts. -/
structure Continued (side : Side) (e : LoopEvent) (l l' : Link shards) : Prop where
  task : l'.task = l.task
  accepted : l'.accepted = l.accepted
  issued : (l'.direction side).issued = (l.direction side).issued + e.packetsIssued
  read : (l'.direction side.other).read = (l.direction side.other).read + e.packetsRead
  other_issued : (l'.direction side.other).issued = (l.direction side.other).issued
  other_read : (l'.direction side).read = (l.direction side).read

theorem continued {cfg : PingPongConfig} {l l' : Link shards} {side : Side} {e : LoopEvent}
    (h : l.continuation cfg side e = some l') : Continued side e l l' := by
  have hother : side ≠ side.other := (Side.other_ne side).symm
  cases e with
  | write e =>
      simp only [continuation, Direction.write, Option.map_map, Option.map_eq_some_iff] at h
      obtain ⟨pipe, -, rfl⟩ := h
      constructor <;> simp [update, LoopEvent.packetsRead]
  | read e =>
      simp only [continuation, Direction.receive, Option.map_map, Option.map_eq_some_iff] at h
      obtain ⟨pipe, -, rfl⟩ := h
      constructor <;> simp [update, LoopEvent.packetsIssued, hother]

end Link

structure PingPong (shards : Side → Nat) where
  server : Process (shards .server) ServerShard
  client : Process (shards .client) (ClientShard PingLoop)
  links : List (Link shards) := []

inductive PingPongEvent (shards : Side → Nat)
  | server (e : ProcessEvent (shards .server) ServerEvent Bool)
  | client (e : ProcessEvent (shards .client) ClientEvent Unit)
  /-- The connection of this client's task is established. -/
  | handshake (i : Fin (shards .client)) (j : Nat)
  /-- The channel takes this many of the bytes that this end of a connection has written. -/
  | accept (c : Nat) (writer : Side) (n : Nat)
  /-- This many bytes reach the input stream of the other end. -/
  | deliver (c : Nat) (writer : Side) (n : Nat)

/-- The event hands an accepted connection to the server's `handle_connection`. -/
def PingPongEvent.handsOver {shards : Side → Nat} : PingPongEvent shards → Bool
  | .server (.continuation _ (.accept (some _))) => true
  | _ => false

theorem PingPongEvent.handsOver_iff {shards : Side → Nat} {e : PingPongEvent shards} :
    e.handsOver = true ↔ ∃ i c, e = .server (.continuation i (.accept (some c))) := by
  constructor
  · intro he
    unfold handsOver at he
    split at he
    · exact ⟨_, _, rfl⟩
    · cases he
  · rintro ⟨i, c, rfl⟩
    rfl

namespace PingPong

variable {shards : Side → Nat}

def start (cfg : PingPongConfig) : PingPong shards where
  server := Process.start (serverService cfg.dataSize) _
  client := Process.start (clientService pingHandler cfg.dataSize cfg.connections) _

/-- The connections after an event of the server's process. -/
def serverLinks (cfg : PingPongConfig) (d : PingPong shards) :
    ProcessEvent (shards .server) ServerEvent Bool → Option (List (Link shards))
  | .continuation _ (.accept (some c)) => do
      let link ← d.links[c]?
      if link.accepted then none
      else
        let link ← link.handOver cfg
        some (d.links.set c link)
  | .continuation i (.handler j e) => do
      let handler ← (d.server.shard i).handlers.tasks[j]?
      let link ← d.links[handler.connection]?
      let link ← link.continuation cfg .server e
      some (d.links.set handler.connection link)
  | _ => some d.links

/-- The connection of a client's task. -/
def linkOf (d : PingPong shards) (task : Fin (shards .client) × Nat) : Option Nat :=
  d.links.findIdx? fun link => link.task = task

/-- The connections after an event of the client's process. -/
def clientLinks (cfg : PingPongConfig) (d : PingPong shards) :
    ProcessEvent (shards .client) ClientEvent Unit → Option (List (Link shards))
  | .continuation i e =>
      match Client.turn e with
      | some (j, f) => do
          let c ← d.linkOf (i, j)
          let link ← d.links[c]?
          let link ← link.continuation cfg .client f
          some (d.links.set c link)
      | none => some d.links
  | _ => some d.links

def step (cfg : PingPongConfig) (d : PingPong shards) :
    PingPongEvent shards → Option (PingPong shards)
  | .server e =>
      if e.stops then none
      else do
        let server ← d.server.step (serverService cfg.dataSize) e
        let links ← d.serverLinks cfg e
        some { d with server, links }
  | .client e =>
      if e.stops then none
      else do
        let client ← d.client.step (clientService pingHandler cfg.dataSize cfg.connections) e
        let links ← d.clientLinks cfg e
        some { d with client, links }
  | .handshake i j => do
      let task ← Client.taskAt d.client (i, j)
      if task.phase = .connecting ∧ d.linkOf (i, j) = none then
        some { d with links := d.links ++ [{ task := (i, j) }] }
      else none
  | .accept c writer n => do
      let link ← d.links[c]?
      let link ← link.segment writer fun p => p.accept (cfg.limits writer) n
      some { d with links := d.links.set c link }
  | .deliver c writer n => do
      let link ← d.links[c]?
      let link ← link.segment writer fun p => p.deliver cfg.dataSize n
      some { d with links := d.links.set c link }

def system (cfg : PingPongConfig) : System (PingPong shards) (PingPongEvent shards) where
  init := start cfg
  step := step cfg

/-- The connections that the server has handed over are in lock-step. -/
def LockStep (d : PingPong shards) : Prop :=
  ∀ i, ∀ handler ∈ (d.server.shard i).handlers.tasks, ∀ link,
    d.links[handler.connection]? = some link → link.LockStep

/-- The step of the server's process that a step is. -/
def serverEvent : PingPongEvent shards → Option (ProcessEvent (shards .server) ServerEvent Bool)
  | .server e => some e
  | _ => none

/-- What a step can be, with what it does to the connections. -/
inductive Moves (cfg : PingPongConfig) (d : PingPong shards) :
    PingPongEvent shards → PingPong shards → Prop
  | handOver (i : Fin (shards .server)) (c : Nat) (server : Process (shards .server) ServerShard)
      (link link' : Link shards)
      (hserver : (Server.system cfg.dataSize _).step d.server (.continuation i (.accept (some c))) =
        some server)
      (hlink : d.links[c]? = some link) (hfirst : link.accepted = false)
      (hmoved : link.handOver cfg = some link') :
      Moves cfg d (.server (.continuation i (.accept (some c))))
        { d with server, links := d.links.set c link' }
  | serverHandler (i : Fin (shards .server)) (j : Nat) (e : LoopEvent)
      (server : Process (shards .server) ServerShard) (handler : ServerConnection)
      (link link' : Link shards)
      (hserver : (Server.system cfg.dataSize _).step d.server (.continuation i (.handler j e)) =
        some server)
      (hhandler : (d.server.shard i).handlers.tasks[j]? = some handler)
      (hlink : d.links[handler.connection]? = some link)
      (hmoved : link.continuation cfg .server e = some link') :
      Moves cfg d (.server (.continuation i (.handler j e)))
        { d with server, links := d.links.set handler.connection link' }
  | serverOther (e : ProcessEvent (shards .server) ServerEvent Bool)
      (server : Process (shards .server) ServerShard)
      (hserver : (Server.system cfg.dataSize _).step d.server e = some server)
      (hstops : e.stops = false) (hidles : Server.Idles e) :
      Moves cfg d (.server e) { d with server }
  | clientHandler (i : Fin (shards .client)) (j c : Nat) (e : ClientEvent) (f : LoopEvent)
      (client : Process (shards .client) (ClientShard PingLoop)) (link link' : Link shards)
      (hturns : Client.turn e = some (j, f))
      (hclient : (Client.system pingHandler cfg.dataSize cfg.connections _).step d.client
        (.continuation i e) = some client)
      (hlink : d.links[c]? = some link) (htask : link.task = (i, j))
      (hmoved : link.continuation cfg .client f = some link') :
      Moves cfg d (.client (.continuation i e)) { d with client, links := d.links.set c link' }
  | clientOther (e : ProcessEvent (shards .client) ClientEvent Unit)
      (client : Process (shards .client) (ClientShard PingLoop))
      (hclient : (Client.system pingHandler cfg.dataSize cfg.connections _).step d.client e =
        some client)
      (hstops : e.stops = false) (hidles : Client.Idles e) :
      Moves cfg d (.client e) { d with client }
  | handshake (i : Fin (shards .client)) (j : Nat) (task : ClientTask PingLoop)
      (htask : Client.taskAt d.client (i, j) = some task) (hphase : task.phase = .connecting)
      (hnew : ∀ link ∈ d.links, link.task ≠ (i, j)) :
      Moves cfg d (.handshake i j) { d with links := d.links ++ [{ task := (i, j) }] }
  | segment (e : PingPongEvent shards) (c : Nat) (link : Link shards) (writer : Side) (pipe : Pipe)
      (hevent : serverEvent e = none) (hlink : d.links[c]? = some link) :
      Moves cfg d e
        { d with
          links := d.links.set c (link.update writer { link.direction writer with pipe }) }

variable {cfg : PingPongConfig} {d d' : PingPong shards} {es : List (PingPongEvent shards)}

theorem moves_server {e : ProcessEvent (shards .server) ServerEvent Bool}
    (h : d.step cfg (.server e) = some d') : d.Moves cfg (.server e) d' := by
  simp only [step, Option.bind_eq_bind, Option.ite_none_left_eq_some, Option.bind_eq_some_iff,
    Option.some.injEq] at h
  obtain ⟨hstops, server, hserver, links, hlinks, rfl⟩ := h
  rcases Server.accepts_or_turns_or_idles e with ⟨i, c, rfl⟩ | ⟨i, j, e, rfl⟩ | hidles
  · simp only [serverLinks, Option.bind_eq_bind, Option.bind_eq_some_iff,
      Option.ite_none_left_eq_some, Option.some.injEq] at hlinks
    obtain ⟨link, hlink, hfirst, link', hmoved, rfl⟩ := hlinks
    exact .handOver i c server link link' hserver hlink (by simpa using hfirst) hmoved
  · simp only [serverLinks, Option.bind_eq_bind, Option.bind_eq_some_iff,
      Option.some.injEq] at hlinks
    obtain ⟨handler, hhandler, link, hlink, link', hmoved, rfl⟩ := hlinks
    exact .serverHandler i j e server handler link link' hserver hhandler hlink hmoved
  · unfold serverLinks at hlinks
    split at hlinks
    · exact absurd rfl (hidles.2 _ _)
    · exact absurd rfl (hidles.1 _ _ _)
    · cases hlinks
      exact .serverOther e server hserver (by simpa using hstops) hidles

theorem moves_client {e : ProcessEvent (shards .client) ClientEvent Unit}
    (h : d.step cfg (.client e) = some d') : d.Moves cfg (.client e) d' := by
  simp only [step, Option.bind_eq_bind, Option.ite_none_left_eq_some, Option.bind_eq_some_iff,
    Option.some.injEq] at h
  obtain ⟨hstops, client, hclient, links, hlinks, rfl⟩ := h
  rcases Client.turns_or_idles e with ⟨i, e, j, f, rfl, hturns⟩ | hidles
  · simp only [clientLinks, hturns, Option.bind_eq_bind, Option.bind_eq_some_iff,
      Option.some.injEq] at hlinks
    obtain ⟨c, hc, link, hlink, link', hmoved, rfl⟩ := hlinks
    exact .clientHandler i j c e f client link link' hturns hclient hlink
      (Table.key_of_findIdx hc hlink) hmoved
  · have hsame : d.clientLinks cfg e = some d.links := by
      unfold clientLinks
      split
      · rw [hidles _ _ rfl]
      · rfl
    rw [hsame] at hlinks
    cases hlinks
    exact .clientOther e client hclient (by simpa using hstops) hidles

theorem moves_of_step {e : PingPongEvent shards} (h : (system cfg).step d e = some d') :
    d.Moves cfg e d' := by
  change d.step cfg e = some d' at h
  cases e with
  | server e => exact moves_server h
  | client e => exact moves_client h
  | handshake i j =>
      simp only [step, Option.bind_eq_bind, Option.bind_eq_some_iff, Option.ite_none_right_eq_some,
        Option.some.injEq] at h
      obtain ⟨task, htask, ⟨hphase, hnew⟩, rfl⟩ := h
      exact .handshake i j task htask hphase (by simpa [linkOf] using hnew)
  | accept c writer n | deliver c writer n =>
      simp only [step, Link.segment, Option.bind_eq_bind, Option.bind_eq_some_iff,
        Option.map_eq_some_iff, Option.some.injEq] at h
      obtain ⟨link, hlink, -, ⟨pipe, -, rfl⟩, rfl⟩ := h
      exact .segment _ c link writer pipe rfl hlink

/-! ### The two ends by themselves -/

theorem Moves.server_step {e : PingPongEvent shards} (h : d.Moves cfg e d') :
    d'.server = d.server ∨ ∃ f, f.stops = false ∧
      (Server.system cfg.dataSize _).step d.server f = some d'.server := by
  cases h with
  | handOver _ _ _ _ _ hserver | serverHandler _ _ _ _ _ _ _ hserver =>
      exact Or.inr ⟨_, rfl, hserver⟩
  | serverOther f _ hserver hstops => exact Or.inr ⟨f, hstops, hserver⟩
  | clientHandler | clientOther | handshake | segment => exact Or.inl rfl

theorem Moves.client_step {e : PingPongEvent shards} (h : d.Moves cfg e d') :
    d'.client = d.client ∨ ∃ f, f.stops = false ∧
      (Client.system pingHandler cfg.dataSize cfg.connections _).step d.client f =
        some d'.client := by
  cases h with
  | clientHandler _ _ _ _ _ _ _ _ _ hclient => exact Or.inr ⟨_, rfl, hclient⟩
  | clientOther f _ hclient hstops => exact Or.inr ⟨f, hstops, hclient⟩
  | handOver | serverHandler | serverOther | handshake | segment => exact Or.inl rfl

theorem projects_server : (system cfg).Projects (Server.system cfg.dataSize _)
    (fun d : PingPong shards => d.server) serverEvent where
  init := rfl
  step d e d' hstep := by
    cases moves_of_step hstep with
    | handOver _ _ _ _ _ hserver | serverHandler _ _ _ _ _ _ _ hserver | serverOther _ _ hserver =>
        exact (System.exec_singleton _ _ _).trans hserver
    | clientHandler | clientOther | handshake => rfl
    | segment _ _ _ _ _ hevent =>
        rw [hevent]
        rfl

/-- Nobody is interrupted. -/
def Uninterrupted (d : PingPong shards) : Prop :=
  (∀ i, (d.server.shard i).interrupted = false) ∧ ∀ i, (d.client.shard i).interrupted = false

theorem uninterrupted (h : (system cfg).Reachable d) : d.Uninterrupted := by
  apply System.Reachable.invariant Uninterrupted ⟨fun _ => rfl, fun _ => rfl⟩ ?_ h
  rintro d e d' ⟨hserver, hclient⟩ hstep
  have hmoves := moves_of_step hstep
  constructor
  · intro i
    rcases hmoves.server_step with hsame | ⟨f, hstops, hf⟩
    · rw [hsame]
      exact hserver i
    · refine (Process.moves_of_step hf).unstopped (P := fun s => s.interrupted = false) ?_ hstops
        (hserver i)
      intro s f t hs hne hcall
      rw [ServerShard.interrupted_of_call hne hcall, hs]
  · intro i
    rcases hmoves.client_step with hsame | ⟨f, hstops, hf⟩
    · rw [hsame]
      exact hclient i
    · refine (Process.moves_of_step hf).unstopped (P := fun s => s.interrupted = false) ?_ hstops
        (hclient i)
      intro s f t hs hne hcall
      rw [ClientShard.interrupted_of_call hne hcall, hs]

/-- The connections of the handlers on a shard of the server. -/
def handled (d : PingPong shards) (i : Fin (shards .server)) : List Nat :=
  (d.server.shard i).handlers.tasks.map ServerConnection.connection

/-- A handler's connection has been handed over. -/
theorem Moves.handled {e : PingPongEvent shards} (h : d.Moves cfg e d')
    {i : Fin (shards .server)} {c : Nat} (hc : c ∈ d'.handled i) :
    c ∈ d.handled i ∨ e = .server (.continuation i (.accept (some c))) := by
  have hprocess {f : ProcessEvent (shards .server) ServerEvent Bool}
      {server : Process (shards .server) ServerShard}
      (hserver : (Server.system cfg.dataSize _).step d.server f = some server)
      (hc : c ∈ (server.shard i).handlers.tasks.map ServerConnection.connection) :
      c ∈ d.handled i ∨ f = .continuation i (.accept (some c)) := by
    rcases (Process.moves_of_step hserver).same_or_call i with hsame | ⟨g, hg, hcall⟩
    · rw [hsame] at hc
      exact Or.inl hc
    · refine (ServerShard.mem_connections_of_call hcall hc).imp_right ?_
      rintro rfl
      exact Process.eq_continuation_of_onShard hg
  cases h with
  | handOver _ _ _ _ _ hserver | serverHandler _ _ _ _ _ _ _ hserver | serverOther _ _ hserver =>
      exact (hprocess hserver hc).imp_right fun he => by rw [he]
  | clientHandler | clientOther | handshake | segment => exact Or.inl hc

end PingPong

end SeastarExperiments
