import SeastarExperiments.ClientProcess
import SeastarExperiments.Duplex
import SeastarExperiments.ServerShutdown
import SeastarExperiments.TcpStream

/-! A TCP server against its clients' process over the whole life of both: `tcp_client` against
`tcp_server`, and `tcp_client_pingpong` against `tcp_server_pingpong`. The two pairs differ in the
`handle_connection` of the client only, which is a parameter. Either process may be interrupted or
stopped at any time, connects and operations on a connection may fail, and a socket goes away when
its handler is over, or with the accept loop's turn that gets it behind the interrupt. -/

namespace SeastarExperiments

open ByteStream Transition

/-- The options of the two processes, and the limits of the stream each end writes. -/
structure TcpConfig extends DuplexConfig where
  connections : UInt16

/-- Where the server's end of a connection is. -/
inductive TcpSite (Place : Type)
  /-- No accept loop has taken the connection. -/
  | listening
  /-- An accept loop has taken it when the flag was up, and has destroyed its socket. -/
  | destroyed
  | handler (x : Place)
  deriving DecidableEq

namespace TcpSite

variable {Place : Type} {site : TcpSite Place} {x : Place}

def place : TcpSite Place → Option Place
  | listening => none
  | destroyed => none
  | handler x => some x

@[simp]
theorem place_listening : (listening : TcpSite Place).place = none := rfl

@[simp]
theorem place_destroyed : (destroyed : TcpSite Place).place = none := rfl

@[simp]
theorem place_handler : (handler x).place = some x := rfl

theorem place_eq_some (h : site.place = some x) : site = .handler x := by
  cases site with
  | listening | destroyed => cases h
  | handler y => exact congrArg handler (Option.some.inj h)

end TcpSite

/-- A connection: the client's task, where the server's end of it is, and its two directions, each
named after its writing end. -/
structure TcpLink (shards : Side → Nat) where
  task : Fin (shards .client) × Nat
  site : TcpSite (Fin (shards .server) × Nat) := .listening
  stream : Side → TcpStream := fun _ => {}

namespace TcpLink

variable {shards : Side → Nat}

def update (l : TcpLink shards) (writer : Side) (s : TcpStream) : TcpLink shards :=
  { l with stream := Function.update l.stream writer s }

/-- What a continuation of the handler at one end does to the connection. -/
def continuation (cfg : DuplexConfig) (interrupted : Bool) (l : TcpLink shards) (side : Side) :
    LoopEvent → Option (TcpLink shards)
  | .write e => ((l.stream side).write (cfg.lane side) interrupted e).map (l.update side)
  | .read e => ((l.stream side.other).read (cfg.lane side.other) e).map (l.update side.other)

/-- The channel takes or delivers a segment of what this end writes. -/
def segment (l : TcpLink shards) (writer : Side) (move : Pipe → Option Pipe) :
    Option (TcpLink shards) :=
  ((l.stream writer).segment move).map (l.update writer)

def hangUp (l : TcpLink shards) (writer : Side) : TcpLink shards :=
  l.update writer (l.stream writer).hangUp

/-- The socket that the accept loop has got goes away without a handler. -/
def destroy (l : TcpLink shards) : TcpLink shards := { l.hangUp .server with site := .destroyed }

/-- What a continuation at one end leaves of a connection, and what it counts. -/
structure Continued (side : Side) (e : LoopEvent) (l l' : TcpLink shards) : Prop where
  task : l'.task = l.task
  site : l'.site = l.site
  counted : (l'.stream side).counted = (l.stream side).counted + e.packetsWritten
  bytesRead : (l'.stream side.other).bytesRead = (l.stream side.other).bytesRead + e.bytesRead
  packetsRead : (l'.stream side.other).packetsRead =
    (l.stream side.other).packetsRead + e.packetsRead
  other_counted : (l'.stream side.other).counted = (l.stream side.other).counted
  other_bytesRead : (l'.stream side).bytesRead = (l.stream side).bytesRead
  other_packetsRead : (l'.stream side).packetsRead = (l.stream side).packetsRead

theorem continued {cfg : DuplexConfig} {interrupted : Bool} {l l' : TcpLink shards} {side : Side}
    {e : LoopEvent} (h : l.continuation cfg interrupted side e = some l') :
    Continued side e l l' := by
  cases e with
  | write e =>
      obtain ⟨s, hs, rfl⟩ := Option.map_eq_some_iff.mp h
      have hkept : s.counted = (l.stream side).counted + (LoopEvent.write e).packetsWritten ∧
          s.bytesRead = (l.stream side).bytesRead ∧
          s.packetsRead = (l.stream side).packetsRead := by
        by_cases hfailed : e = .failed
        · subst hfailed
          cases hs
          exact ⟨rfl, rfl, rfl⟩
        · obtain ⟨pipe, -, rfl⟩ := TcpStream.write_some hfailed hs
          exact ⟨rfl, rfl, rfl⟩
      constructor <;> simp [update, hkept, LoopEvent.bytesRead, LoopEvent.packetsRead]
  | read e =>
      have hother : side ≠ side.other := (Side.other_ne side).symm
      obtain ⟨s, hs, rfl⟩ := Option.map_eq_some_iff.mp h
      have hkept : s.counted = (l.stream side.other).counted ∧
          s.bytesRead = (l.stream side.other).bytesRead + (LoopEvent.read e).bytesRead ∧
          s.packetsRead = (l.stream side.other).packetsRead + (LoopEvent.read e).packetsRead := by
        by_cases hfailed : e = .failed
        · subst hfailed
          cases hs
          exact ⟨rfl, rfl, rfl⟩
        · obtain ⟨pipe, -, rfl⟩ := TcpStream.read_some hfailed hs
          exact ⟨rfl, rfl, rfl⟩
      constructor <;> simp [update, hkept, hother, LoopEvent.packetsWritten]

end TcpLink

structure TcpExchange (State : Type) (shards : Side → Nat) where
  server : Process (shards .server) ServerShard
  client : Process (shards .client) (ClientShard State)
  links : List (TcpLink shards) := []

inductive TcpExchangeEvent (shards : Side → Nat)
  | server (e : ProcessEvent (shards .server) ServerEvent Bool)
  | client (e : ProcessEvent (shards .client) ClientEvent Unit)
  /-- The connection of this client's task is established. -/
  | handshake (i : Fin (shards .client)) (j : Nat)
  /-- The channel takes this many of the bytes that this end of a connection has written. -/
  | accept (c : Nat) (writer : Side) (n : Nat)
  /-- The pending read at the other end takes this many bytes from the channel. -/
  | deliver (c : Nat) (writer : Side) (n : Nat)
  /-- This end of a connection goes away. -/
  | hangUp (c : Nat) (writer : Side)

namespace TcpExchange

variable {State : Type} {shards : Side → Nat}

def handlerAt (server : Process (shards .server) ServerShard) (x : Fin (shards .server) × Nat) :
    Option ServerConnection :=
  (server.shard x.1).handlers.tasks[x.2]?

variable (program : ClientProgram State) (cfg : TcpConfig)

def start : TcpExchange State shards where
  server := Process.start (serverService (cfg.dataSize .server)) _
  client := Process.start (clientService program (cfg.dataSize .client) cfg.connections) _

/-- The connections after an event of the server's process. -/
def serverLinks (d : TcpExchange State shards) :
    ProcessEvent (shards .server) ServerEvent Bool → Option (List (TcpLink shards))
  | .continuation i (.accept (some c)) => do
      let link ← d.links[c]?
      if link.site = .listening then
        if (d.server.shard i).interrupted then some (d.links.set c link.destroy)
        else
          let site := .handler (i, (d.server.shard i).handlers.tasks.length)
          let link ← { link with site }.continuation cfg.toDuplexConfig false .server (.write .top)
          some (d.links.set c link)
      else none
  | .continuation i (.handler j e) => do
      let handler ← handlerAt d.server (i, j)
      let link ← d.links[handler.connection]?
      let link ← link.continuation cfg.toDuplexConfig (d.server.shard i).interrupted .server e
      some (d.links.set handler.connection link)
  | _ => some d.links

/-- The connection of a client's task. -/
def linkOf (d : TcpExchange State shards) (task : Fin (shards .client) × Nat) : Option Nat :=
  d.links.findIdx? fun link => link.task = task

/-- The connections after an event of the client's process. -/
def clientLinks (d : TcpExchange State shards) :
    ProcessEvent (shards .client) ClientEvent Unit → Option (List (TcpLink shards))
  | .continuation i e =>
      match Client.turn e with
      | some (j, f) => do
          let c ← d.linkOf (i, j)
          let link ← d.links[c]?
          let link ← link.continuation cfg.toDuplexConfig (d.client.shard i).interrupted .client f
          some (d.links.set c link)
      | none => some d.links
  | _ => some d.links

/-- The handler at this end of the connection is over. -/
def ended (d : TcpExchange State shards) (link : TcpLink shards) : Side → Bool
  | .server => (link.site.place.bind (handlerAt d.server)).any ServerConnection.resolved
  | .client => (Client.taskAt d.client link.task).any (ClientTask.resolved program)

/-- The handler at this end of the connection awaits a read. -/
def reads (d : TcpExchange State shards) (link : TcpLink shards) : Side → Bool
  | .server => (link.site.place.bind (handlerAt d.server)).any fun c => c.handler.reader = .reading
  | .client => (Client.taskAt d.client link.task).any fun task =>
      match task.phase with
      | .connecting => false
      | .connectFailed => false
      | .handling h => program.reading h

def step (d : TcpExchange State shards) :
    TcpExchangeEvent shards → Option (TcpExchange State shards)
  | .server e => do
      let server ← d.server.step (serverService (cfg.dataSize .server)) e
      let links ← d.serverLinks cfg e
      some { d with server, links }
  | .client e => do
      let client ← d.client.step (clientService program (cfg.dataSize .client) cfg.connections) e
      let links ← d.clientLinks cfg e
      some { d with client, links }
  | .handshake i j => do
      let task ← Client.taskAt d.client (i, j)
      match task.phase with
      | .connecting =>
          if d.linkOf (i, j) = none then some { d with links := d.links ++ [{ task := (i, j) }] }
          else none
      | .connectFailed => none
      | .handling _ => none
  | .accept c writer n => do
      let link ← d.links[c]?
      let link ← link.segment writer fun p => p.accept (cfg.limits writer) n
      some { d with links := d.links.set c link }
  | .deliver c writer n => do
      let link ← d.links[c]?
      if d.reads program link writer.other then
        let link ← link.segment writer fun p => p.deliver (cfg.dataSize writer.other) n
        some { d with links := d.links.set c link }
      else none
  | .hangUp c writer => do
      let link ← d.links[c]?
      if d.ended program link writer then some { d with links := d.links.set c (link.hangUp writer) }
      else none

def system : System (TcpExchange State shards) (TcpExchangeEvent shards) where
  init := start program cfg
  step := step program cfg

variable {program} {cfg} {d d' : TcpExchange State shards} {es : List (TcpExchangeEvent shards)}

/-- What a step can be, with what it does to the connections. -/
inductive Moves (program : ClientProgram State) (cfg : TcpConfig) (d : TcpExchange State shards) :
    TcpExchangeEvent shards → TcpExchange State shards → Prop
  | handOver (i : Fin (shards .server)) (c : Nat) (server : Process (shards .server) ServerShard)
      (link link' : TcpLink shards)
      (hserver : (Server.system (cfg.dataSize .server) _).step d.server
        (.continuation i (.accept (some c))) = some server)
      (hflag : (d.server.shard i).interrupted = false) (hlink : d.links[c]? = some link)
      (hfresh : link.site = .listening)
      (hturn : { link with
          site := .handler (i, (d.server.shard i).handlers.tasks.length) }.continuation
        cfg.toDuplexConfig false .server (.write .top) = some link') :
      Moves program cfg d (.server (.continuation i (.accept (some c))))
        { d with server, links := d.links.set c link' }
  | destroy (i : Fin (shards .server)) (c : Nat) (server : Process (shards .server) ServerShard)
      (link : TcpLink shards)
      (hserver : (Server.system (cfg.dataSize .server) _).step d.server
        (.continuation i (.accept (some c))) = some server)
      (hflag : (d.server.shard i).interrupted = true) (hlink : d.links[c]? = some link)
      (hfresh : link.site = .listening) :
      Moves program cfg d (.server (.continuation i (.accept (some c))))
        { d with server, links := d.links.set c link.destroy }
  | serverHandler (i : Fin (shards .server)) (j : Nat) (e : LoopEvent)
      (server : Process (shards .server) ServerShard) (handler : ServerConnection)
      (link link' : TcpLink shards)
      (hserver : (Server.system (cfg.dataSize .server) _).step d.server
        (.continuation i (.handler j e)) = some server)
      (hhandler : handlerAt d.server (i, j) = some handler)
      (hlink : d.links[handler.connection]? = some link)
      (hturn : link.continuation cfg.toDuplexConfig (d.server.shard i).interrupted .server e =
        some link') :
      Moves program cfg d (.server (.continuation i (.handler j e)))
        { d with server, links := d.links.set handler.connection link' }
  | serverOther (e : ProcessEvent (shards .server) ServerEvent Bool)
      (server : Process (shards .server) ServerShard)
      (hserver : (Server.system (cfg.dataSize .server) _).step d.server e = some server)
      (hidles : Server.Idles e) :
      Moves program cfg d (.server e) { d with server }
  | clientHandler (i : Fin (shards .client)) (j c : Nat) (e : ClientEvent) (f : LoopEvent)
      (client : Process (shards .client) (ClientShard State)) (link link' : TcpLink shards)
      (hturns : Client.turn e = some (j, f))
      (hclient : (Client.system program (cfg.dataSize .client) cfg.connections _).step d.client
        (.continuation i e) = some client)
      (hlink : d.links[c]? = some link) (htask : link.task = (i, j))
      (hturn : link.continuation cfg.toDuplexConfig (d.client.shard i).interrupted .client f =
        some link') :
      Moves program cfg d (.client (.continuation i e))
        { d with client, links := d.links.set c link' }
  | clientOther (e : ProcessEvent (shards .client) ClientEvent Unit)
      (client : Process (shards .client) (ClientShard State))
      (hclient : (Client.system program (cfg.dataSize .client) cfg.connections _).step d.client e =
        some client)
      (hidles : Client.Idles e) :
      Moves program cfg d (.client e) { d with client }
  | handshake (i : Fin (shards .client)) (j : Nat) (task : ClientTask State)
      (htask : Client.taskAt d.client (i, j) = some task) (hphase : task.phase = .connecting)
      (hnew : ∀ link ∈ d.links, link.task ≠ (i, j)) :
      Moves program cfg d (.handshake i j) { d with links := d.links ++ [{ task := (i, j) }] }
  | accept (c : Nat) (writer : Side) (n : Nat) (link : TcpLink shards) (s : TcpStream)
      (hlink : d.links[c]? = some link)
      (hs : (link.stream writer).segment (fun p => p.accept (cfg.limits writer) n) = some s) :
      Moves program cfg d (.accept c writer n) { d with links := d.links.set c (link.update writer s) }
  | deliver (c : Nat) (writer : Side) (n : Nat) (link : TcpLink shards) (s : TcpStream)
      (hlink : d.links[c]? = some link) (hreads : d.reads program link writer.other = true)
      (hs : (link.stream writer).segment (fun p => p.deliver (cfg.dataSize writer.other) n) =
        some s) :
      Moves program cfg d (.deliver c writer n)
        { d with links := d.links.set c (link.update writer s) }
  | hangUp (c : Nat) (writer : Side) (link : TcpLink shards) (hlink : d.links[c]? = some link)
      (hended : d.ended program link writer = true) :
      Moves program cfg d (.hangUp c writer) { d with links := d.links.set c (link.hangUp writer) }

theorem moves_server {e : ProcessEvent (shards .server) ServerEvent Bool}
    (h : d.step program cfg (.server e) = some d') : d.Moves program cfg (.server e) d' := by
  simp only [step, Option.bind_eq_bind, Option.bind_eq_some_iff, Option.some.injEq] at h
  obtain ⟨server, hserver, links, hlinks, rfl⟩ := h
  rcases Server.accepts_or_turns_or_idles e with ⟨i, c, rfl⟩ | ⟨i, j, e, rfl⟩ | hidles
  · simp only [serverLinks, Option.bind_eq_bind, Option.bind_eq_some_iff,
      Option.ite_none_right_eq_some] at hlinks
    obtain ⟨link, hlink, hfresh, hlinks⟩ := hlinks
    cases hflag : (d.server.shard i).interrupted with
    | true =>
        rw [hflag, if_pos rfl] at hlinks
        cases hlinks
        exact .destroy i c server link hserver hflag hlink hfresh
    | false =>
        simp only [hflag, Bool.false_eq_true, if_false, Option.bind_eq_some_iff,
          Option.some.injEq] at hlinks
        obtain ⟨link', hturn, rfl⟩ := hlinks
        exact .handOver i c server link link' hserver hflag hlink hfresh hturn
  · simp only [serverLinks, Option.bind_eq_bind, Option.bind_eq_some_iff,
      Option.some.injEq] at hlinks
    obtain ⟨handler, hhandler, link, hlink, link', hturn, rfl⟩ := hlinks
    exact .serverHandler i j e server handler link link' hserver hhandler hlink hturn
  · unfold serverLinks at hlinks
    split at hlinks
    · exact absurd rfl (hidles.2 _ _)
    · exact absurd rfl (hidles.1 _ _ _)
    · cases hlinks
      exact .serverOther e server hserver hidles

theorem moves_client {e : ProcessEvent (shards .client) ClientEvent Unit}
    (h : d.step program cfg (.client e) = some d') : d.Moves program cfg (.client e) d' := by
  simp only [step, Option.bind_eq_bind, Option.bind_eq_some_iff, Option.some.injEq] at h
  obtain ⟨client, hclient, links, hlinks, rfl⟩ := h
  rcases Client.turns_or_idles e with ⟨i, e, j, f, rfl, hturns⟩ | hidles
  · simp only [clientLinks, hturns, Option.bind_eq_bind, Option.bind_eq_some_iff,
      Option.some.injEq] at hlinks
    obtain ⟨c, hc, link, hlink, link', hturn, rfl⟩ := hlinks
    exact .clientHandler i j c e f client link link' hturns hclient hlink
      (Table.key_of_findIdx hc hlink) hturn
  · have hsame : d.clientLinks cfg e = some d.links := by
      unfold clientLinks
      split
      · rw [hidles _ _ rfl]
      · rfl
    rw [hsame] at hlinks
    cases hlinks
    exact .clientOther e client hclient hidles

theorem moves_of_step {e : TcpExchangeEvent shards} (h : (system program cfg).step d e = some d') :
    d.Moves program cfg e d' := by
  change d.step program cfg e = some d' at h
  cases e with
  | server e => exact moves_server h
  | client e => exact moves_client h
  | handshake i j =>
      simp only [step, Option.bind_eq_bind, Option.bind_eq_some_iff] at h
      obtain ⟨task, htask, h⟩ := h
      cases hphase : task.phase with
      | connecting =>
          rw [hphase] at h
          obtain ⟨hnew, hsame⟩ := Option.ite_none_right_eq_some.mp h
          cases hsame
          exact .handshake i j task htask hphase (by simpa [linkOf] using hnew)
      | connectFailed | handling =>
          rw [hphase] at h
          cases h
  | accept c writer n =>
      simp only [step, TcpLink.segment, Option.bind_eq_bind, Option.bind_eq_some_iff,
        Option.map_eq_some_iff, Option.some.injEq] at h
      obtain ⟨link, hlink, -, ⟨s, hs, rfl⟩, rfl⟩ := h
      exact .accept c writer n link s hlink hs
  | deliver c writer n =>
      simp only [step, TcpLink.segment, Option.bind_eq_bind, Option.bind_eq_some_iff,
        Option.ite_none_right_eq_some, Option.map_eq_some_iff, Option.some.injEq] at h
      obtain ⟨link, hlink, hreads, -, ⟨s, hs, rfl⟩, rfl⟩ := h
      exact .deliver c writer n link s hlink hreads hs
  | hangUp c writer =>
      simp only [step, Option.bind_eq_bind, Option.bind_eq_some_iff, Option.ite_none_right_eq_some,
        Option.some.injEq] at h
      obtain ⟨link, hlink, hended, rfl⟩ := h
      exact .hangUp c writer link hlink hended

/-! ### The two processes by themselves -/

def serverEvent : TcpExchangeEvent shards →
    Option (ProcessEvent (shards .server) ServerEvent Bool)
  | .server e => some e
  | _ => none

def clientEvent : TcpExchangeEvent shards →
    Option (ProcessEvent (shards .client) ClientEvent Unit)
  | .client e => some e
  | _ => none

theorem projects_server : (system program cfg).Projects (Server.system (cfg.dataSize .server) _)
    (fun d : TcpExchange State shards => d.server) serverEvent where
  init := rfl
  step d e d' hstep := by
    cases moves_of_step hstep with
    | handOver i c server link link' hserver | destroy i c server link hserver
    | serverHandler i j e server handler link link' hserver | serverOther e server hserver =>
        exact (System.exec_singleton _ _ _).trans hserver
    | clientHandler | clientOther | handshake | accept | deliver | hangUp => rfl

theorem projects_client : (system program cfg).Projects
    (Client.system program (cfg.dataSize .client) cfg.connections _)
    (fun d : TcpExchange State shards => d.client) clientEvent where
  init := rfl
  step d e d' hstep := by
    cases moves_of_step hstep with
    | clientHandler i j c e f client link link' hturns hclient | clientOther e client hclient =>
        exact (System.exec_singleton _ _ _).trans hclient
    | handOver | destroy | serverHandler | serverOther | handshake | accept | deliver | hangUp => rfl

end TcpExchange

end SeastarExperiments
