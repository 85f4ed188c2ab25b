import SeastarExperiments.DuplexDeadlock
import SeastarExperiments.TcpWiring

/-! A connection between `tcp_client` and `tcp_server`, with both processes around it and all their
other connections, goes through the states of the single connection `Duplex`, as long as no operation
on it fails: what is proved of the one holds of the other. -/

namespace SeastarExperiments

open ByteStream Transition

theorem Side.eq_or_eq_other (a b : Side) : a = b ∨ a = b.other := by
  cases a <;> cases b <;> simp [Side.other]

/-- The continuation of an operation that has failed. -/
def LoopEvent.failed : LoopEvent → Bool
  | .write .failed => true
  | .read .failed => true
  | _ => false

/-- The lane runs these two loops over this stream. -/
structure Lane.Shows (writeSize : Nat) (l : Lane) (writer : WriteLoop) (reader : ReadLoop)
    (s : TcpStream) : Prop where
  writer : l.writer = writer
  reader : l.reader = reader
  pipe : l.pipe = s.pipe
  bytesWritten : l.bytesWritten = writeSize * s.counted
  bytesRead : l.bytesRead = s.bytesRead
  packetsRead : l.packetsRead = s.packetsRead

namespace Lane.Shows

variable {cfg : LaneConfig} {interrupted other : Bool} {l : Lane} {w w' : WriteLoop}
  {r r' : ReadLoop} {s s' : TcpStream}

theorem write (h : l.Shows cfg.writeSize w r s) {e : WriteEvent} (he : e ≠ .failed)
    (hw : w.step interrupted e = some w') (hs : s.write cfg interrupted e = some s') :
    ∃ l', l.step cfg interrupted other (.write e) = some l' ∧ l'.Shows cfg.writeSize w' r s' := by
  obtain ⟨pipe, hpipe, rfl⟩ := TcpStream.write_some he hs
  refine ⟨_, by rw [Lane.step, h.writer, hw, h.pipe, hpipe]; rfl, ?_⟩
  exact { h with
    writer := rfl
    pipe := rfl
    bytesWritten := by
      rw [h.bytesWritten, Nat.mul_add]
      cases e <;> simp [LoopEvent.bytesWritten, LoopEvent.packetsWritten] }

theorem read (h : l.Shows cfg.writeSize w r s) {e : ReadEvent} (he : e ≠ .failed)
    (hr : r.step interrupted e = some r') (hs : s.read cfg e = some s') :
    ∃ l', l.step cfg other interrupted (.read e) = some l' ∧ l'.Shows cfg.writeSize w r' s' := by
  obtain ⟨pipe, hpipe, rfl⟩ := TcpStream.read_some he hs
  refine ⟨_, by rw [Lane.step, h.reader, hr, h.pipe, hpipe]; rfl, ?_⟩
  exact { h with
    reader := rfl
    pipe := rfl
    bytesRead := by rw [h.bytesRead]
    packetsRead := by rw [h.packetsRead] }

theorem accept (h : l.Shows cfg.writeSize w r s) {n : Nat}
    (hs : s.segment (fun p => p.accept cfg.limits n) = some s') :
    ∃ l', l.step cfg interrupted other (.accept n) = some l' ∧ l'.Shows cfg.writeSize w r s' := by
  obtain ⟨pipe, hpipe, rfl⟩ := Option.map_eq_some_iff.mp hs
  change s.pipe.accept cfg.limits n = some pipe at hpipe
  exact ⟨{ l with pipe }, by rw [Lane.step, h.pipe, hpipe]; rfl, { h with pipe := rfl }⟩

theorem deliver (h : l.Shows cfg.writeSize w r s) (hr : r = .reading) {n : Nat}
    (hs : s.segment (fun p => p.deliver cfg.readSize n) = some s') :
    ∃ l', l.step cfg interrupted other (.deliver n) = some l' ∧ l'.Shows cfg.writeSize w r s' := by
  obtain ⟨pipe, hpipe, rfl⟩ := Option.map_eq_some_iff.mp hs
  change s.pipe.deliver cfg.readSize n = some pipe at hpipe
  exact ⟨{ l with pipe }, by rw [Lane.step, if_pos (h.reader.trans hr), h.pipe, hpipe]; rfl,
    { h with pipe := rfl }⟩

end Lane.Shows

namespace Duplex

variable {cfg : DuplexConfig} {D : Duplex} {handlers handlers' : Side → Handler}
  {streams : Side → TcpStream} {w : Side}

/-- The connection has these handlers at its ends, and these streams between them. -/
def Shows (cfg : DuplexConfig) (D : Duplex) (handlers : Side → Handler)
    (streams : Side → TcpStream) : Prop :=
  ∀ w, (D.lane w).Shows (cfg.dataSize w) (handlers w).writer (handlers w.other).reader (streams w)

theorem shows_start (cfg : DuplexConfig) : Shows cfg start (fun _ => ⟨.top, .top⟩) fun _ => {} :=
  fun _ => ⟨rfl, rfl, rfl, rfl, rfl, rfl⟩

/-- One lane takes a step, and the other does not. -/
theorem Shows.lane (h : Shows cfg D handlers streams) {e : LaneEvent} {s : TcpStream}
    (hstep : ∃ l, (D.lane w).step (cfg.lane w) (D.interrupted w) (D.interrupted w.other) e =
        some l ∧
      l.Shows (cfg.dataSize w) (handlers' w).writer (handlers' w.other).reader s)
    (hwriter : (handlers' w.other).writer = (handlers w.other).writer)
    (hreader : (handlers' w).reader = (handlers w).reader) :
    ∃ D', (system cfg).exec D [.lane w e] = some D' ∧ D'.interrupted = D.interrupted ∧
      Shows cfg D' handlers' (Function.update streams w s) := by
  obtain ⟨l, hl, hlane⟩ := hstep
  have hne := Side.other_ne w
  refine ⟨{ D with lane := Function.update D.lane w l }, ?_, rfl, fun v => ?_⟩
  · rw [System.exec_singleton]
    exact Option.map_eq_some_iff.mpr ⟨l, hl, rfl⟩
  · rcases Side.eq_or_eq_other v w with rfl | rfl
    · simpa using hlane
    · simp only [Function.update_of_ne hne, hwriter, Side.other_other, hreader]
      simpa using h w.other

/-- A turn of the handler at one end. -/
theorem Shows.turn (h : Shows cfg D handlers streams) {side : Side} {e : LoopEvent}
    (he : e.failed = false) {handler : Handler}
    (hstep : (handlers side).step (D.interrupted side) e = some handler) {shards : Side → Nat}
    {link link' : TcpLink shards} (hlink : link.stream = streams)
    (hturn : link.continuation cfg (D.interrupted side) side e = some link') :
    ∃ es D', (system cfg).exec D es = some D' ∧ D'.interrupted = D.interrupted ∧
      Shows cfg D' (Function.update handlers side handler) link'.stream := by
  have hne := Side.other_ne side
  subst hlink
  cases e with
  | write e =>
      obtain ⟨s, hs, rfl⟩ := Option.map_eq_some_iff.mp hturn
      obtain ⟨writer, hwriter, rfl⟩ := Option.map_eq_some_iff.mp hstep
      have hok : e ≠ .failed := by
        rintro rfl
        cases he
      refine ⟨_, h.lane (w := side) (e := .write e) ?_ ?_ ?_⟩
      · rw [Function.update_self, Function.update_of_ne hne]
        have hlane : (D.lane side).Shows (cfg.lane side).writeSize _ _ _ := h side
        exact hlane.write hok hwriter hs
      · rw [Function.update_of_ne hne]
      · rw [Function.update_self]
  | read e =>
      obtain ⟨s, hs, rfl⟩ := Option.map_eq_some_iff.mp hturn
      obtain ⟨reader, hreader, rfl⟩ := Option.map_eq_some_iff.mp hstep
      have hok : e ≠ .failed := by
        rintro rfl
        cases he
      refine ⟨_, h.lane (w := side.other) (e := .read e) ?_ ?_ ?_⟩
      · have hlane : (D.lane side.other).Shows (cfg.lane side.other).writeSize _ _ _ :=
          h side.other
        rw [Side.other_other] at hlane ⊢
        rw [Function.update_self, Function.update_of_ne hne]
        exact hlane.read hok hreader hs
      · rw [Side.other_other, Function.update_self]
      · rw [Function.update_of_ne hne]

/-- The first turns of both loops of a handler, which the call of `handle_connection` runs. -/
theorem Shows.firstTurns (h : Shows cfg D handlers streams) {side : Side}
    (htop : handlers side = ⟨.top, .top⟩) {shards : Side → Nat} {link link' : TcpLink shards}
    (hlink : link.stream = streams)
    (hturn : link.continuation cfg (D.interrupted side) side (.write .top) = some link') :
    ∃ es D', (system cfg).exec D es = some D' ∧ D'.interrupted = D.interrupted ∧
      Shows cfg D' (Function.update handlers side (handleConnection (D.interrupted side)))
        link'.stream := by
  obtain ⟨es, D', hes, hflags, hshows⟩ := h.turn rfl (by rw [htop]; rfl) hlink hturn
  -- the first turn of the reading loop moves nothing
  have hread : link'.continuation cfg (D'.interrupted side) side (.read .top) =
      some (link'.update side.other (link'.stream side.other)) := rfl
  obtain ⟨fs, D'', hfs, hflags', hshows'⟩ := hshows.turn rfl
    (by rw [Function.update_self]; rfl) rfl hread
  refine ⟨es ++ fs, D'', System.exec_trans _ hes hfs, hflags'.trans hflags, ?_⟩
  have hsame : (link'.update side.other (link'.stream side.other)).stream = link'.stream :=
    Function.update_eq_self _ _
  rw [Function.update_idem, hflags, hsame] at hshows'
  exact hshows'

/-- `stop()` may run at either end. -/
theorem exec_stops {flags : Side → Bool}
    (hflags : ∀ side, flags side = D.interrupted side ∨ flags side = true) :
    ∃ es, (system cfg).exec D es = some { D with interrupted := flags } := by
  have hstop (D : Duplex) (side : Side)
      (hflag : flags side = D.interrupted side ∨ flags side = true) :
      ∃ es, (system cfg).exec D es =
        some { D with interrupted := Function.update D.interrupted side (flags side) } := by
    rcases hflag with hsame | htrue
    · exact ⟨[], by rw [hsame, Function.update_eq_self]; rfl⟩
    · exact ⟨[.stop side], by rw [htrue]; rfl⟩
  obtain ⟨es, hes⟩ := hstop D .server (hflags .server)
  obtain ⟨fs, hfs⟩ := hstop
    { D with interrupted := Function.update D.interrupted .server (flags .server) } .client
    (by simpa using hflags .client)
  refine ⟨es ++ fs, (System.exec_trans _ hes hfs).trans ?_⟩
  congr 2
  funext side
  cases side <;> simp

/-- A writing loop that is over without a failure has closed its stream. -/
theorem closed_of_finished (h : (system cfg).Reachable D) (w : Side)
    (hfinished : (D.lane w).writer.finished = true) :
    (D.lane w).pipe.closed = true ∧ (D.lane w).pipe.unsent = 0 := by
  refine lane_invariant (fun _ l => l.writer.finished = true →
    l.pipe.closed = true ∧ l.pipe.unsent = 0) (fun _ h => by cases h) ?_ h w hfinished
  intro _ wi ri l e l' hl hmoves hdone
  cases hmoves with
  | beginClose | beginWrite | endWrite => cases hdone
  | endClose _ hflushed => exact ⟨rfl, hflushed⟩
  | accept n hpos hunsent =>
      have := (hl hdone).2
      omega
  | deliver | leave | beginRead | endRead | endOfStream => exact hl hdone

/-- An end goes away whose writing loop is over: nothing is left there. -/
theorem Shows.hangUp (h : Shows cfg D handlers streams) (hreach : (system cfg).Reachable D)
    (hfinished : (handlers w).writer.finished = true) :
    Shows cfg D handlers (Function.update streams w (streams w).hangUp) := by
  have hlane := h w
  obtain ⟨hclosed, hflushed⟩ := closed_of_finished hreach w (by rw [hlane.writer, hfinished])
  intro v
  rcases Side.eq_or_eq_other v w with rfl | rfl
  · rw [Function.update_self]
    refine { hlane with pipe := ?_ }
    rw [hlane.pipe] at hclosed hflushed ⊢
    simp only [TcpStream.hangUp, ← hclosed, ← hflushed]
  · rw [Function.update_of_ne (Side.other_ne w)]
    exact h w.other

end Duplex

/-- The handler of a client's task; before it is called, both its loops are at the top. -/
def ClientPhase.handler : ClientPhase Handler → Handler
  | .connecting => ⟨.top, .top⟩
  | .connectFailed => ⟨.top, .top⟩
  | .handling h => h

namespace TcpExchange

variable {shards : Side → Nat} {cfg : TcpConfig} {d d' : TcpExchange Handler shards}
  {link link' : TcpLink shards} {links : List (TcpLink shards)} {D D' : Duplex}

def handlersOf (d : TcpExchange Handler shards) (link : TcpLink shards) : Side → Handler
  | .server => (link.site.place.bind (handlerAt d.server)).elim ⟨.top, .top⟩ ServerConnection.handler
  | .client => (Client.taskAt d.client link.task).elim ⟨.top, .top⟩ fun task => task.phase.handler

/-- The flags that the handlers of a connection see. -/
def flagsOf (d : TcpExchange Handler shards) (link : TcpLink shards) : Side → Bool
  | .server => link.site.place.any fun x => (d.server.shard x.1).interrupted
  | .client => (d.client.shard link.task.1).interrupted

/-- The single connection has come to the same state as this one of the two processes. -/
structure Shown (cfg : TcpConfig) (d : TcpExchange Handler shards) (link : TcpLink shards)
    (D : Duplex) : Prop where
  reachable : (Duplex.system cfg.toDuplexConfig).Reachable D
  shows : D.Shows cfg.toDuplexConfig (handlersOf d link) link.stream
  flags : D.interrupted = flagsOf d link
  connects : ∀ task, Client.taskAt d.client link.task = some task → task.phase ≠ .connectFailed

/-- What happens to the other connections is not seen. -/
theorem Shown.keep (h : Shown cfg d link D) : Shown cfg { d with links } link D :=
  ⟨h.reachable, h.shows, h.flags, h.connects⟩

/-- The single connection follows, and then its flags. -/
theorem shown_follow (h : (Duplex.system cfg.toDuplexConfig).Reachable D) {es : List DuplexEvent}
    (hes : (Duplex.system cfg.toDuplexConfig).exec D es = some D')
    (hshows : D'.Shows cfg.toDuplexConfig (handlersOf d' link') link'.stream)
    (hflags : ∀ side, flagsOf d' link' side = D'.interrupted side ∨ flagsOf d' link' side = true)
    (hconnects : ∀ task, Client.taskAt d'.client link'.task = some task → task.phase ≠ .connectFailed) :
    ∃ es' D'', (Duplex.system cfg.toDuplexConfig).exec D es' = some D'' ∧
      Shown cfg d' link' D'' := by
  obtain ⟨fs, hfs⟩ : ∃ fs, (Duplex.system cfg.toDuplexConfig).exec D' fs = some _ :=
    Duplex.exec_stops hflags
  obtain ⟨before, hbefore⟩ := h
  have hexec := System.exec_trans _ hes hfs
  exact ⟨es ++ fs, _, hexec, ⟨before ++ (es ++ fs), System.exec_trans _ hbefore hexec⟩, hshows, rfl,
    hconnects⟩

section

variable {dataSize : Nat}

theorem server_flag {server server' : Process (shards .server) ServerShard}
    {e : ProcessEvent (shards .server) ServerEvent Bool}
    (hserver : (Server.system dataSize _).step server e = some server') (i : Fin (shards .server)) :
    (server'.shard i).interrupted = (server.shard i).interrupted ∨
      (server'.shard i).interrupted = true := by
  rcases (Process.moves_of_step hserver).same_or_call i with hsame | ⟨f, -, hcall⟩
  · exact Or.inl (by rw [hsame])
  · by_cases hf : f = .stop
    · subst hf
      refine Or.inr ?_
      rw [← Option.some.inj hcall]
      rfl
    · exact Or.inl (ServerShard.interrupted_of_call hf hcall)

theorem client_flag {connections : UInt16}
    {client client' : Process (shards .client) (ClientShard Handler)}
    {e : ProcessEvent (shards .client) ClientEvent Unit}
    (hclient : (Client.system duplexHandler dataSize connections _).step client e = some client')
    (i : Fin (shards .client)) :
    (client'.shard i).interrupted = (client.shard i).interrupted ∨
      (client'.shard i).interrupted = true := by
  rcases (Process.moves_of_step hclient).same_or_call i with hsame | ⟨f, -, hcall⟩
  · exact Or.inl (by rw [hsame])
  · by_cases hf : f = .stop
    · subst hf
      refine Or.inr ?_
      rw [← Option.some.inj hcall]
      rfl
    · exact Or.inl (ClientShard.interrupted_of_call hf hcall)

end

/-- The server goes on elsewhere. -/
theorem Shown.serverOther (h : Shown cfg d link D)
    {e : ProcessEvent (shards .server) ServerEvent Bool}
    {server : Process (shards .server) ServerShard}
    (hserver : (Server.system (cfg.dataSize .server) _).step d.server e = some server)
    (hsame : ∀ x, link.site = .handler x → handlerAt server x = handlerAt d.server x) :
    ∃ es D', (Duplex.system cfg.toDuplexConfig).exec D es = some D' ∧
      Shown cfg { d with server, links } link D' := by
  have hhandlers : handlersOf { d with server, links } link = handlersOf d link := by
    funext side
    cases side with
    | server =>
        cases hsite : link.site with
        | listening | destroyed => simp [handlersOf, hsite]
        | handler x => simp [handlersOf, hsite, hsame x hsite]
    | client => rfl
  refine shown_follow h.reachable (show (Duplex.system _).exec D [] = some D from rfl)
    (by rw [hhandlers]; exact h.shows) (fun side => ?_) h.connects
  rw [h.flags]
  cases side with
  | server =>
      cases hsite : link.site with
      | listening | destroyed => simp [flagsOf, hsite]
      | handler x => simpa [flagsOf, hsite] using server_flag hserver x.1
  | client => exact Or.inl rfl

/-- So does the client. -/
theorem Shown.clientOther (h : Shown cfg d link D)
    {e : ProcessEvent (shards .client) ClientEvent Unit}
    {client : Process (shards .client) (ClientShard Handler)}
    (hclient : (Client.system duplexHandler (cfg.dataSize .client) cfg.connections _).step d.client
      e = some client)
    (hsame : Client.taskAt client link.task = Client.taskAt d.client link.task) :
    ∃ es D', (Duplex.system cfg.toDuplexConfig).exec D es = some D' ∧
      Shown cfg { d with client, links } link D' := by
  have hhandlers : handlersOf { d with client, links } link = handlersOf d link := by
    funext side
    cases side with
    | server => rfl
    | client => simp only [handlersOf, hsame]
  refine shown_follow h.reachable (show (Duplex.system _).exec D [] = some D from rfl)
    (by rw [hhandlers]; exact h.shows) (fun side => ?_) (by rw [hsame]; exact h.connects)
  rw [h.flags]
  cases side with
  | server => exact Or.inl rfl
  | client => exact client_flag hclient link.task.1

/-- The handler at the server's end takes a turn. -/
theorem Shown.serverTurn (h : Shown cfg d link D) {i : Fin (shards .server)} {j : Nat}
    {e : LoopEvent} {server : Process (shards .server) ServerShard} {handler : ServerConnection}
    (hserver : (Server.system (cfg.dataSize .server) _).step d.server
      (.continuation i (.handler j e)) = some server)
    (hhandler : handlerAt d.server (i, j) = some handler) (hsite : link.site = .handler (i, j))
    (hok : e.failed = false)
    (hturn : link.continuation cfg.toDuplexConfig (d.server.shard i).interrupted .server e =
      some link') :
    ∃ es D', (Duplex.system cfg.toDuplexConfig).exec D es = some D' ∧
      Shown cfg { d with server, links } link' D' := by
  obtain ⟨h', hstep, hnew, -⟩ := handlerAt_turn hserver hhandler
  have hcontinued := TcpLink.continued hturn
  have hflag : (d.server.shard i).interrupted = D.interrupted .server := by
    simp [h.flags, flagsOf, hsite]
  have hcurrent : handlersOf d link .server = handler.handler := by
    simp [handlersOf, hsite, hhandler]
  rw [hflag] at hstep hturn
  rw [← hcurrent] at hstep
  obtain ⟨es, D₁, hes, hflags, hshows⟩ := h.shows.turn hok hstep rfl hturn
  have hhandlers : handlersOf { d with server, links } link' =
      Function.update (handlersOf d link) .server h' := by
    funext side
    cases side with
    | server => simp [handlersOf, hcontinued.site, hsite, hnew]
    | client => simp [handlersOf, hcontinued.task]
  refine shown_follow h.reachable hes (by rw [hhandlers]; exact hshows) (fun side => ?_) ?_
  · rw [hflags, h.flags]
    cases side with
    | server => simpa [flagsOf, hcontinued.site, hsite] using server_flag hserver i
    | client => exact Or.inl (by simp [flagsOf, hcontinued.task])
  · rw [hcontinued.task]
    exact h.connects

/-- The accept loop hands the connection over. -/
theorem Shown.handOver (h : Shown cfg d link D) {i : Fin (shards .server)} {c : Nat}
    {server : Process (shards .server) ServerShard}
    (hreach : (Server.system (cfg.dataSize .server) _).Reachable d.server)
    (hserver : (Server.system (cfg.dataSize .server) _).step d.server
      (.continuation i (.accept (some c))) = some server)
    (hflag : (d.server.shard i).interrupted = false) (hfresh : link.site = .listening)
    (hturn : { link with
        site := .handler (i, (d.server.shard i).handlers.tasks.length) }.continuation
      cfg.toDuplexConfig false .server (.write .top) = some link') :
    ∃ es D', (Duplex.system cfg.toDuplexConfig).exec D es = some D' ∧
      Shown cfg { d with server, links } link' D' := by
  obtain ⟨-, hnew, -⟩ := handlerAt_handOver hreach hserver hflag
  have hcontinued := TcpLink.continued hturn
  have hdown : D.interrupted .server = false := by simp [h.flags, flagsOf, hfresh]
  rw [← hdown] at hturn
  obtain ⟨es, D₁, hes, hflags, hshows⟩ := h.shows.firstTurns
    (by simp [handlersOf, hfresh]) (by rfl) hturn
  have hhandlers : handlersOf { d with server, links } link' =
      Function.update (handlersOf d link) .server (handleConnection (D.interrupted .server)) := by
    funext side
    cases side with
    | server => simp [handlersOf, hcontinued.site, hnew, hdown]
    | client => simp [handlersOf, hcontinued.task]
  refine shown_follow h.reachable hes (by rw [hhandlers]; exact hshows) (fun side => ?_) ?_
  · rw [hflags]
    cases side with
    | server =>
        rw [hdown, ← hflag]
        simpa [flagsOf, hcontinued.site] using server_flag hserver i
    | client => exact Or.inl (by simp [h.flags, flagsOf, hcontinued.task])
  · rw [hcontinued.task]
    exact h.connects

/-- The handler at the client's end takes a turn, its first one perhaps. -/
theorem Shown.clientTurn (h : Shown cfg d link D) {i : Fin (shards .client)} {j : Nat}
    {e : ClientEvent} {f : LoopEvent} {client : Process (shards .client) (ClientShard Handler)}
    (hturns : Client.turn e = some (j, f)) (hok : f.failed = false)
    (hclient : (Client.system duplexClient.toHandlerProgram (cfg.dataSize .client)
      cfg.connections _).step d.client (.continuation i e) = some client) (htask : link.task = (i, j))
    (hturn : link.continuation cfg.toDuplexConfig (d.client.shard i).interrupted .client f =
      some link') :
    ∃ es D', (Duplex.system cfg.toDuplexConfig).exec D es = some D' ∧
      Shown cfg { d with client, links } link' D' := by
  obtain ⟨task, task', hold, hnew, hphase, -⟩ := Client.taskAt_turn hturns hclient
  have hcontinued := TcpLink.continued hturn
  have hflag : (d.client.shard i).interrupted = D.interrupted .client := by
    simp [h.flags, flagsOf, htask]
  have hcurrent : handlersOf d link .client = task.phase.handler := by
    simp [handlersOf, htask, hold]
  have hhandlers : handlersOf { d with client, links } link' =
      Function.update (handlersOf d link) .client task'.phase.handler := by
    funext side
    cases side with
    | server => simp [handlersOf, hcontinued.site]
    | client => simp [handlersOf, hcontinued.task, htask, hnew]
  rw [hflag] at hphase hturn
  have hconnects : task'.phase ≠ .connectFailed := by
    generalize task.phase = phase at hphase
    generalize task'.phase = phase' at hphase
    cases hphase <;> simp
  have hfollows : ∃ es D₁, (Duplex.system cfg.toDuplexConfig).exec D es = some D₁ ∧
      D₁.interrupted = D.interrupted ∧ D₁.Shows cfg.toDuplexConfig
        (Function.update (handlersOf d link) .client task'.phase.handler) link'.stream := by
    generalize task.phase = phase at hphase hcurrent
    generalize task'.phase = phase' at hphase ⊢
    cases hphase with
    | begins => exact h.shows.firstTurns hcurrent rfl hturn
    | goesOn handler handler' _ hstep =>
        change handlersOf d link .client = handler at hcurrent
        rw [← hcurrent] at hstep
        exact h.shows.turn hok hstep rfl hturn
  obtain ⟨es, D₁, hes, hflags, hshows⟩ := hfollows
  refine shown_follow h.reachable hes (by rw [hhandlers]; exact hshows) (fun side => ?_) fun t ht => ?_
  · rw [hflags, h.flags]
    cases side with
    | server => exact Or.inl (by simp [flagsOf, hcontinued.site])
    | client => simpa [flagsOf, hcontinued.task, htask] using client_flag hclient i
  · rw [hcontinued.task, htask] at ht
    rw [hnew] at ht
    cases ht
    exact hconnects

theorem Shown.accept (h : Shown cfg d link D) {w : Side} {n : Nat} {s : TcpStream}
    (hs : (link.stream w).segment (fun p => p.accept (cfg.limits w) n) = some s) :
    ∃ es D', (Duplex.system cfg.toDuplexConfig).exec D es = some D' ∧
      Shown cfg { d with links } (link.update w s) D' := by
  have hlane : (D.lane w).Shows (cfg.lane w).writeSize _ _ _ := h.shows w
  obtain ⟨D₁, hexec, hflags, hshows⟩ := h.shows.lane (hlane.accept hs) rfl rfl
  refine shown_follow h.reachable hexec hshows (fun side => Or.inl ?_) h.connects
  rw [hflags, h.flags]
  cases side <;> rfl

theorem reading_of_reads {side : Side} (h : d.reads duplexClient link side = true) :
    (handlersOf d link side).reader = .reading := by
  cases side with
  | server =>
      obtain ⟨handler, hhandler, hreader⟩ := (Option.any_eq_true _ _).mp h
      simpa [handlersOf, hhandler] using hreader
  | client =>
      obtain ⟨task, htask, hreader⟩ := (Option.any_eq_true _ _).mp h
      simp only [handlersOf, htask, Option.elim_some]
      cases hphase : task.phase with
      | connecting | connectFailed => simp [hphase] at hreader
      | handling handler =>
          rw [hphase] at hreader
          exact of_decide_eq_true hreader

theorem Shown.deliver (h : Shown cfg d link D) {w : Side} {n : Nat} {s : TcpStream}
    (hreads : d.reads duplexClient link w.other = true)
    (hs : (link.stream w).segment (fun p => p.deliver (cfg.dataSize w.other) n) = some s) :
    ∃ es D', (Duplex.system cfg.toDuplexConfig).exec D es = some D' ∧
      Shown cfg { d with links } (link.update w s) D' := by
  have hlane : (D.lane w).Shows (cfg.lane w).writeSize _ _ _ := h.shows w
  obtain ⟨D₁, hexec, hflags, hshows⟩ :=
    h.shows.lane (hlane.deliver (reading_of_reads hreads) hs) rfl rfl
  refine shown_follow h.reachable hexec hshows (fun side => Or.inl ?_) h.connects
  rw [hflags, h.flags]
  cases side <;> rfl

theorem Shown.hangUp (h : Shown cfg d link D) {w : Side}
    (hended : d.ended duplexClient link w = true) :
    Shown cfg { d with links } (link.hangUp w) D := by
  have hfinished : (handlersOf d link w).writer.finished = true := by
    cases w with
    | server =>
        obtain ⟨handler, hhandler, hresolved⟩ := (Option.any_eq_true _ _).mp hended
        simpa [handlersOf, hhandler] using ServerConnection.writer_finished hresolved
    | client =>
        obtain ⟨task, htask, hresolved⟩ := (Option.any_eq_true _ _).mp hended
        have hconnects := h.connects task htask
        simp only [handlersOf, htask, Option.elim_some]
        unfold ClientTask.resolved at hresolved
        cases hphase : task.phase with
        | connecting => simp [hphase] at hresolved
        | connectFailed => exact absurd hphase hconnects
        | handling handler =>
            rw [hphase] at hresolved
            exact duplexWrites.resolved handler hresolved
  exact ⟨h.reachable, h.shows.hangUp h.reachable hfinished, h.flags, h.connects⟩

/-- An operation on this connection fails, its connect among them, or its socket is destroyed in the
accept loop. -/
def fails (c : Nat) (d : TcpExchange Handler shards) (e : TcpExchangeEvent shards) : Bool :=
  (d.links[c]?).any fun link =>
    match e with
    | .server (.continuation i (.handler j f)) => link.site = .handler (i, j) && f.failed
    | .server (.continuation i (.accept (some k))) => k = c && (d.server.shard i).interrupted
    | .client (.continuation i (.handler j f)) => link.task = (i, j) && f.failed
    | .client (.continuation i (.connected j succeeded)) => link.task = (i, j) && !succeeded
    | _ => false

/-- The single connection is where this one is; before there is one, it is at its start. -/
structure Follows (cfg : TcpConfig) (c : Nat) (d : TcpExchange Handler shards) (D : Duplex) :
    Prop where
  reachable : (system duplexClient cfg).Reachable d
  fresh : d.links[c]? = none → D = Duplex.start
  shown : ∀ link, d.links[c]? = some link → Shown cfg d link D

theorem set_cases {c k : Nat} {new : TcpLink shards} (h : (links.set k new)[c]? = some link) :
    (k = c ∧ link = new) ∨ (k ≠ c ∧ links[c]? = some link) := by
  by_cases hk : k = c
  · subst hk
    obtain ⟨hlength, hlink⟩ := List.getElem?_eq_some_iff.mp h
    rw [List.getElem_set_self] at hlink
    exact Or.inl ⟨rfl, hlink.symm⟩
  · rw [List.getElem?_set_ne hk] at h
    exact Or.inr ⟨hk, h⟩

/-- The other tasks stay as they are, and a task whose connect is pending waits on. -/
theorem taskAt_kept {dataSize : Nat} {connections : UInt16}
    {client client' : Process (shards .client) (ClientShard Handler)}
    {e : ProcessEvent (shards .client) ClientEvent Unit} {x : Fin (shards .client) × Nat}
    (hclient : (Client.system duplexClient.toHandlerProgram dataSize connections _).step client e =
      some client')
    (hidles : Client.Idles e) (hfailed : e ≠ .continuation x.1 (.connected x.2 false))
    {task : ClientTask Handler} (hold : Client.taskAt client x = some task) :
    Client.taskAt client' x = some task := by
  obtain ⟨task', hnew, rfl | ⟨he, -⟩⟩ := Client.taskAt_idle hclient hidles hold
  · exact hnew
  · exact absurd he hfailed

/-- A step of the two processes is followed by the single connection. -/
theorem Follows.step {c : Nat} (h : Follows cfg c d D) {e : TcpExchangeEvent shards}
    (hok : d.fails c e = false) (hstep : (system duplexClient cfg).step d e = some d') :
    ∃ es D', (Duplex.system cfg.toDuplexConfig).exec D es = some D' ∧ Follows cfg c d' D' := by
  have hmoves := moves_of_step hstep
  have hwired := wired duplexWrites h.reachable
  have hreach := h.reachable.step hstep
  -- a connection that is there is followed, and none goes away
  have hshown : (∀ link, d'.links[c]? = some link →
      ∃ es D', (Duplex.system cfg.toDuplexConfig).exec D es = some D' ∧ Shown cfg d' link D') ∧
      (d'.links[c]? = none → d.links[c]? = none) := by
    cases hmoves with
    | handOver i k server link link' hserver hflag hlink hfresh hturn =>
        refine ⟨fun l hl => ?_, by simp⟩
        obtain ⟨rfl, rfl⟩ | ⟨hk, hl⟩ := set_cases hl
        · exact (h.shown link hlink).handOver (projects_server.reachable h.reachable) hserver hflag
            hfresh
            hturn
        · refine (h.shown l hl).serverOther hserver fun x hx => ?_
          obtain ⟨hnone, -, hothers⟩ :=
            handlerAt_handOver (projects_server.reachable h.reachable) hserver hflag
          refine hothers x ?_
          rintro rfl
          obtain ⟨w, hw, -⟩ := hwired.server.tied l (List.mem_of_getElem? hl)
          rw [hx, loopAt, serverWriter, hnone] at hw
          cases hw
    | destroy i k server link hserver hflag hlink hfresh =>
        refine ⟨fun l hl => ?_, by simp⟩
        have hlinks := hl
        obtain ⟨rfl, rfl⟩ | ⟨hk, hl⟩ := set_cases hl
        · simp [fails, hlink, hflag] at hok
        · refine (h.shown l hl).serverOther hserver fun x _ => ?_
          exact congrFun (handlerAt_other hserver (by simp) fun _ _ he => by cases he; exact hflag) x
    | serverHandler i j f server handler link link' hserver hhandler hlink hturn =>
        obtain ⟨owned, howned, hplace⟩ := hwired.owned (i, j) handler hhandler
        rw [hlink] at howned
        cases howned
        refine ⟨fun l hl => ?_, by simp⟩
        obtain ⟨rfl, rfl⟩ | ⟨hk, hl⟩ := set_cases hl
        · have hfine : f.failed = false := by simpa [fails, hlink, hplace] using hok
          exact (h.shown link hlink).serverTurn hserver hhandler hplace hfine hturn
        · refine (h.shown l hl).serverOther hserver fun x hx => ?_
          obtain ⟨-, -, -, hothers⟩ := handlerAt_turn hserver hhandler
          refine hothers x ?_
          rintro rfl
          exact hk (hwired.server.distinct _ _ _ _ _ hlink hl hplace hx)
    | serverOther f server hserver hidles =>
        refine ⟨fun l hl => (h.shown l hl).serverOther hserver fun x _ => ?_, id⟩
        exact congrFun (handlerAt_other hserver hidles.1 fun _ _ he =>
          absurd he (hidles.2 _ _)) x
    | clientHandler i j k f g client link link' hturns hclient hlink htask hturn =>
        refine ⟨fun l hl => ?_, by simp⟩
        obtain ⟨rfl, rfl⟩ | ⟨hk, hl⟩ := set_cases hl
        · have hfine : g.failed = false := by
            cases f with
            | connected m succeeded =>
                cases succeeded with
                | true =>
                    cases hturns
                    rfl
                | false => cases hturns
            | handler m g =>
                cases hturns
                simpa [fails, hlink, htask] using hok
            | tick => cases hturns
          exact (h.shown link hlink).clientTurn hturns hfine hclient htask hturn
        · obtain ⟨-, -, -, -, -, hothers⟩ := Client.taskAt_turn hturns hclient
          refine (h.shown l hl).clientOther hclient (hothers l.task fun hl' => ?_)
          exact hk (hwired.client.distinct _ _ _ _ _ hlink hl (congrArg TcpSite.handler htask)
            (congrArg TcpSite.handler hl'))
    | clientOther f client hclient hidles =>
        refine ⟨fun l hl => (h.shown l hl).clientOther hclient ?_, id⟩
        obtain ⟨w, hw, -⟩ := hwired.client.tied l (List.mem_of_getElem? hl)
        obtain ⟨task, htask, -⟩ := Option.map_eq_some_iff.mp hw
        rw [htask]
        refine taskAt_kept hclient hidles ?_ htask
        rintro rfl
        simp [fails, hl] at hok
    | handshake i j task htask hphase hnew =>
        refine ⟨fun l hl => ?_, fun hnone => ?_⟩
        · rw [List.getElem?_append] at hl
          split at hl
          · exact ⟨[], D, rfl, (h.shown l hl).keep⟩
          · rename_i hlength
            obtain rfl := List.mem_singleton.mp (List.mem_of_getElem? hl)
            obtain rfl := h.fresh (List.getElem?_eq_none (not_lt.mp hlength))
            refine shown_follow (.init _)
              (show (Duplex.system _).exec Duplex.start [] = some Duplex.start from rfl) ?_
              (fun side => ?_) ?_
            · have htop : handlersOf { d with links := d.links ++ [{ task := (i, j) }] }
                  { task := (i, j) } = fun _ => ⟨.top, .top⟩ := by
                funext side
                cases side with
                | server => rfl
                | client => simp [handlersOf, htask, hphase, ClientPhase.handler]
              rw [htop]
              exact Duplex.shows_start _
            · exact (Bool.eq_false_or_eq_true _).symm
            · intro task' htask'
              change Client.taskAt d.client (i, j) = some task' at htask'
              rw [htask] at htask'
              cases htask'
              simp [hphase]
        · rw [List.getElem?_eq_none_iff, List.length_append] at hnone
          exact List.getElem?_eq_none (by omega)
    | accept k w n link s hlink hs =>
        refine ⟨fun l hl => ?_, by simp⟩
        obtain ⟨rfl, rfl⟩ | ⟨-, hl⟩ := set_cases hl
        · exact (h.shown link hlink).accept hs
        · exact ⟨[], D, rfl, (h.shown l hl).keep⟩
    | deliver k w n link s hlink hreads hs =>
        refine ⟨fun l hl => ?_, by simp⟩
        obtain ⟨rfl, rfl⟩ | ⟨-, hl⟩ := set_cases hl
        · exact (h.shown link hlink).deliver hreads hs
        · exact ⟨[], D, rfl, (h.shown l hl).keep⟩
    | hangUp k w link hlink hended =>
        refine ⟨fun l hl => ?_, by simp⟩
        obtain ⟨rfl, rfl⟩ | ⟨-, hl⟩ := set_cases hl
        · exact ⟨[], D, rfl, (h.shown link hlink).hangUp hended⟩
        · exact ⟨[], D, rfl, (h.shown l hl).keep⟩
  cases hl : d'.links[c]? with
  | none =>
      exact ⟨[], D, rfl, hreach, fun _ => h.fresh (hshown.2 hl), fun l hsome => by
        rw [hl] at hsome
        cases hsome⟩
  | some link =>
      obtain ⟨es, D', hes, hD'⟩ := hshown.1 link hl
      refine ⟨es, D', hes, hreach, fun hnone => ?_, fun l hsome => ?_⟩
      · rw [hl] at hnone
        cases hnone
      · rw [hl] at hsome
        cases hsome
        exact hD'

theorem follows {c : Nat} {es : List (TcpExchangeEvent shards)} (h : Follows cfg c d D)
    (hok : (system duplexClient cfg).EachStep (fun d e => d.fails c e = false) d es)
    (hes : (system duplexClient cfg).exec d es = some d') :
    ∃ fs D', (Duplex.system cfg.toDuplexConfig).exec D fs = some D' ∧ Follows cfg c d' D' :=
  System.EachStep.simulated (S := system duplexClient cfg) (T := Duplex.system cfg.toDuplexConfig)
    (Follows cfg c) (fun _ _ _ _ hR hC hstep => hR.step hC hstep) h hok hes

theorem follows_start (cfg : TcpConfig) (c : Nat) :
    Follows cfg c (start duplexClient cfg : TcpExchange Handler shards) Duplex.start :=
  ⟨.init _, fun _ => rfl, fun _ hnone => by cases hnone⟩

/-- In every run of the two processes in which no operation on a connection fails, the connection
goes through a run of the single connection, whatever the other connections do. -/
theorem connection_follows {c : Nat} {es : List (TcpExchangeEvent shards)}
    (h : (system duplexClient cfg).exec (start duplexClient cfg) es = some d)
    (hok : (system duplexClient cfg).EachStep (fun d e => d.fails c e = false)
      (start duplexClient cfg) es) (hlink : d.links[c]? = some link) :
    ∃ D, (Duplex.system cfg.toDuplexConfig).Reachable D ∧ D.interrupted = flagsOf d link ∧
      ∀ side, D.handler side = handlersOf d link side ∧
        (D.lane side).pipe = (link.stream side).pipe ∧
        (D.lane side).bytesWritten = cfg.dataSize side * (link.stream side).counted ∧
        (D.lane side).bytesRead = (link.stream side).bytesRead ∧
        (D.lane side).packetsRead = (link.stream side).packetsRead := by
  obtain ⟨fs, D, hfs, hD⟩ := follows (follows_start cfg c) hok h
  have hshown := hD.shown link hlink
  refine ⟨D, hshown.reachable, hshown.flags, fun side => ?_⟩
  have hlane := hshown.shows side
  have hother := hshown.shows side.other
  rw [Side.other_other] at hother
  refine ⟨?_, hlane.pipe, hlane.bytesWritten, hlane.bytesRead, hlane.packetsRead⟩
  rw [Duplex.handler, hlane.writer, hother.reader]

end TcpExchange

end SeastarExperiments
