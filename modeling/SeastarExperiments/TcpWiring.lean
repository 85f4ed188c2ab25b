import SeastarExperiments.TcpExchange

/-! Each direction of a connection belongs to one handler at its writing end, and keeps its account
with the writing half of that handler. A connection has its place at the client from the start; at
the server it gets one when the accept loop hands it over. -/

namespace SeastarExperiments

open ByteStream Transition

variable {State : Type}

namespace ClientPhase

/-- The writing half of a task. -/
def writer {program : ClientProgram State} (writes : WriteView program) :
    ClientPhase State → WriteLoop
  | .connecting => .top
  | .connectFailed => .stopped
  | .handling h => writes.view h

/-- A turn of a handler is a turn of its writing half. -/
theorem Turns.next {program : ClientProgram State} (writes : WriteView program)
    {interrupted : Bool} {phase phase' : ClientPhase State} {f : LoopEvent}
    (h : Turns program.toHandlerProgram interrupted phase f phase') :
    WriteLoop.Next interrupted (phase.writer writes) f (phase'.writer writes) := by
  cases h with
  | begins =>
      show WriteLoop.Next _ .top _ (writes.view (program.start _))
      rw [writes.start]
      exact WriteLoop.next_body _
  | goesOn h h' _ hstep => exact writes.next _ h f h' hstep

end ClientPhase

theorem ClientTask.writer_finished {program : ClientProgram State} {writes : WriteView program}
    {task : ClientTask State} (h : task.resolved program.toHandlerProgram = true) :
    (task.phase.writer writes).finished = true := by
  unfold ClientTask.resolved at h
  split at h
  · cases h
  · rename_i hphase
    rw [hphase]
    rfl
  · rename_i handler hphase
    rw [hphase]
    exact writes.resolved handler h

theorem ServerConnection.writer_finished {c : ServerConnection} (h : c.resolved = true) :
    c.handler.writer.finished = true := duplexWrites.resolved c.handler h

/-! ### One end of all connections -/

section

variable {shards : Side → Nat} {Place : Type} {cfg : LaneConfig} {side : Side}
  {siteOf : TcpLink shards → TcpSite Place} {writerAt writerAt' : Place → Option WriteLoop}
  {links : List (TcpLink shards)}

/-- The writing half at a connection's place; without one there is none yet, or none any more. -/
def loopAt (writerAt : Place → Option WriteLoop) : TcpSite Place → Option WriteLoop
  | .listening => some .top
  | .destroyed => some .stopped
  | .handler x => writerAt x

/-- No two connections have the same place at this end, and what this end writes keeps its account
with the writing half at that place. -/
structure TcpEnd (cfg : LaneConfig) (side : Side) (siteOf : TcpLink shards → TcpSite Place)
    (writerAt : Place → Option WriteLoop) (links : List (TcpLink shards)) : Prop where
  distinct : ∀ (a b : Nat) (la lb : TcpLink shards) (x : Place), links[a]? = some la →
    links[b]? = some lb → siteOf la = .handler x → siteOf lb = .handler x → a = b
  tied : ∀ link ∈ links, ∃ w, loopAt writerAt (siteOf link) = some w ∧
    (link.stream side).Accounted cfg w

namespace TcpEnd

/-- One connection goes on, perhaps with the handler at its place, and perhaps it gets a place. -/
theorem set (h : TcpEnd cfg side siteOf writerAt links) {c : Nat} {old new : TcpLink shards}
    (hlink : links[c]? = some old)
    (hsite : siteOf new = siteOf old ∨ ∀ x, siteOf new = .handler x → writerAt x = none)
    (hothers : ∀ x, siteOf old ≠ .handler x → ∀ w, writerAt x = some w → writerAt' x = some w)
    (hnew : ∃ w, loopAt writerAt' (siteOf new) = some w ∧ (new.stream side).Accounted cfg w) :
    TcpEnd cfg side siteOf writerAt' (links.set c new) := by
  -- the place of the changed connection is nobody else's
  have hfree {b : Nat} {lb : TcpLink shards} {x : Place} (hb : links[b]? = some lb) (hcb : c ≠ b)
      (hx : siteOf new = .handler x) : siteOf lb ≠ .handler x := by
    intro hlb
    rcases hsite with hsame | hnone
    · exact hcb (h.distinct c b old lb x hlink hb (hsame ▸ hx) hlb)
    · obtain ⟨w, hw, -⟩ := h.tied lb (List.mem_of_getElem? hb)
      rw [hlb] at hw
      change writerAt x = some w at hw
      rw [hnone x hx] at hw
      cases hw
  constructor
  · intro a b la lb x ha hb hla hlb
    by_cases hca : c = a
    · subst hca
      rw [Table.get_set_self hlink] at ha
      cases ha
      by_contra hcb
      rw [List.getElem?_set_ne hcb] at hb
      exact hfree hb hcb hla hlb
    · rw [List.getElem?_set_ne hca] at ha
      by_cases hcb : c = b
      · subst hcb
        rw [Table.get_set_self hlink] at hb
        cases hb
        exact absurd hla (hfree ha hca hlb)
      · rw [List.getElem?_set_ne hcb] at hb
        exact h.distinct a b la lb x ha hb hla hlb
  · intro link hmem
    obtain ⟨b, hb⟩ := List.getElem?_of_mem hmem
    by_cases hcb : c = b
    · subst hcb
      rw [Table.get_set_self hlink] at hb
      cases hb
      exact hnew
    · rw [List.getElem?_set_ne hcb] at hb
      obtain ⟨w, hw, hacc⟩ := h.tied link (List.mem_of_getElem? hb)
      refine ⟨w, ?_, hacc⟩
      cases hx : siteOf link with
      | listening | destroyed => rwa [hx] at hw
      | handler x =>
          rw [hx] at hw
          refine hothers x (fun hold => hcb ?_) w hw
          exact h.distinct c b old link x hlink hb hold hx

/-- What the other end of one connection does keeps the account with this one. -/
theorem other (h : TcpEnd cfg side siteOf writerAt links) {c : Nat} {old new : TcpLink shards}
    (hlink : links[c]? = some old) (hsite : siteOf new = siteOf old)
    (hacc : ∀ w, (old.stream side).Accounted cfg w → (new.stream side).Accounted cfg w) :
    TcpEnd cfg side siteOf writerAt (links.set c new) := by
  obtain ⟨w, hw, hold⟩ := h.tied old (List.mem_of_getElem? hlink)
  exact h.set hlink (Or.inl hsite) (fun _ _ _ => id) ⟨w, by rw [hsite, hw], hacc w hold⟩

/-- The handlers go on without a connection. -/
theorem kept (h : TcpEnd cfg side siteOf writerAt links)
    (hkept : ∀ x w, writerAt x = some w → ∃ w', writerAt' x = some w' ∧
      ∀ s : TcpStream, s.Accounted cfg w → s.Accounted cfg w') :
    TcpEnd cfg side siteOf writerAt' links := by
  refine ⟨h.distinct, fun link hmem => ?_⟩
  obtain ⟨w, hw, hacc⟩ := h.tied link hmem
  cases hx : siteOf link with
  | listening | destroyed =>
      rw [hx] at hw
      exact ⟨w, hw, hacc⟩
  | handler x =>
      rw [hx] at hw
      obtain ⟨w', hw', himp⟩ := hkept x w hw
      exact ⟨w', hw', himp _ hacc⟩

theorem append (h : TcpEnd cfg side siteOf writerAt links) {new : TcpLink shards}
    (hfree : ∀ x, siteOf new = .handler x → ∀ link ∈ links, siteOf link ≠ .handler x)
    (hnew : ∃ w, loopAt writerAt (siteOf new) = some w ∧ (new.stream side).Accounted cfg w) :
    TcpEnd cfg side siteOf writerAt (links ++ [new]) := by
  constructor
  · intro a b la lb x ha hb hla hlb
    rw [List.getElem?_append] at ha hb
    split at ha <;> split at hb
    · exact h.distinct a b la lb x ha hb hla hlb
    · obtain rfl := List.mem_singleton.mp (List.mem_of_getElem? hb)
      exact absurd hla (hfree x hlb la (List.mem_of_getElem? ha))
    · obtain rfl := List.mem_singleton.mp (List.mem_of_getElem? ha)
      exact absurd hlb (hfree x hla lb (List.mem_of_getElem? hb))
    · obtain ⟨ha, -⟩ := List.getElem?_eq_some_iff.mp ha
      obtain ⟨hb, -⟩ := List.getElem?_eq_some_iff.mp hb
      rw [List.length_singleton] at ha hb
      omega
  · intro link hmem
    rcases List.mem_append.mp hmem with hmem | hmem
    · exact h.tied link hmem
    · rw [List.mem_singleton.mp hmem]
      exact hnew

end TcpEnd

/-- The writing half of a handler that takes its turn goes on with what it writes. -/
theorem TcpLink.own_accounted {cfg : DuplexConfig} {interrupted : Bool} {l l' : TcpLink shards}
    {e : LoopEvent} {w w' : WriteLoop}
    (h : l.continuation cfg interrupted side e = some l')
    (hnext : WriteLoop.Next interrupted w e w') (hacc : (l.stream side).Accounted (cfg.lane side) w) :
    (l'.stream side).Accounted (cfg.lane side) w' := by
  cases e with
  | write e =>
      obtain ⟨s, hs, rfl⟩ := Option.map_eq_some_iff.mp h
      simpa [update] using hacc.write hnext hs
  | read e =>
      obtain ⟨s, -, rfl⟩ := Option.map_eq_some_iff.mp h
      simpa [update, (Side.other_ne side).symm] using hacc.other hnext

/-- What it reads keeps the account of the other end. -/
theorem TcpLink.other_accounted {cfg : DuplexConfig} {interrupted : Bool} {l l' : TcpLink shards}
    {e : LoopEvent} {w : WriteLoop} (h : l.continuation cfg interrupted side e = some l')
    (hacc : (l.stream side.other).Accounted (cfg.lane side.other) w) :
    (l'.stream side.other).Accounted (cfg.lane side.other) w := by
  cases e with
  | write e =>
      obtain ⟨s, -, rfl⟩ := Option.map_eq_some_iff.mp h
      simpa [update] using hacc
  | read e =>
      obtain ⟨s, hs, rfl⟩ := Option.map_eq_some_iff.mp h
      simpa [update] using hacc.read hs

end

namespace TcpExchange

variable {program : ClientProgram State} {shards : Side → Nat} {cfg : TcpConfig}
  {d d' : TcpExchange State shards}
  {es : List (TcpExchangeEvent shards)}

/-! ### The handlers of the server -/

section

variable {dataSize : Nat} {server server' : Process (shards .server) ServerShard}

/-- A call that gives no handler a turn leaves them all as they are. -/
theorem handlers_of_call {s t : ServerShard} {e : ServiceEvent ServerEvent Bool}
    (hcall : (serverService dataSize).call s e = some t)
    (hhandler : ∀ j f, e ≠ .continuation (.handler j f))
    (haccept : ∀ c, e = .continuation (.accept (some c)) → s.interrupted = true) :
    t.handlers.tasks = s.handlers.tasks := by
  cases e with
  | armTimer | stop =>
      cases hcall
      rfl
  | run listens =>
      cases hcall
      exact ServerShard.runTcp_tasks s listens
  | continuation e =>
      have hmoves := ServerShard.moves_of_step hcall
      cases hmoves with
      | stopAccept | failAccept | tick => rfl
      | handOver c _ hflag =>
          rw [haccept c rfl] at hflag
          cases hflag
      | handler j f => exact absurd rfl (hhandler j f)

theorem handlerAt_other {e : ProcessEvent (shards .server) ServerEvent Bool}
    (hserver : (Server.system dataSize _).step server e = some server')
    (hhandler : ∀ i j f, e ≠ .continuation i (.handler j f))
    (haccept : ∀ i c, e = .continuation i (.accept (some c)) →
      (server.shard i).interrupted = true) :
    handlerAt server' = handlerAt server := by
  funext x
  rcases (Process.moves_of_step hserver).same_or_call x.1 with hsame | ⟨f, hf, hcall⟩
  · rw [handlerAt, handlerAt, hsame]
  · rw [handlerAt, handlerAt, handlers_of_call hcall]
    · rintro j g rfl
      exact hhandler x.1 j g (Process.eq_continuation_of_onShard hf)
    · rintro c rfl
      exact haccept x.1 c (Process.eq_continuation_of_onShard hf)

/-- A change of one shard's handlers is seen on that shard only. -/
theorem handlerAt_update {i : Fin (shards .server)} {s : ServerShard}
    {x : Fin (shards .server) × Nat} :
    handlerAt { server with shard := Function.update server.shard i s } x =
      if x.1 = i then s.handlers.tasks[x.2]? else handlerAt server x := by
  unfold handlerAt
  split
  · rename_i hx
    simp only [hx, Function.update_self]
  · rename_i hx
    simp only [Function.update_of_ne hx]

theorem handlerAt_turn {i : Fin (shards .server)} {j : Nat} {e : LoopEvent} {c : ServerConnection}
    (hserver : (Server.system dataSize _).step server (.continuation i (.handler j e)) =
      some server') (hold : handlerAt server (i, j) = some c) :
    ∃ h, c.handler.step (server.shard i).interrupted e = some h ∧
      handlerAt server' (i, j) = some { c with handler := h } ∧
      ∀ x, x ≠ (i, j) → handlerAt server' x = handlerAt server x := by
  cases Process.moves_of_step hserver with
  | continuation _ _ s hs =>
      have hmoves := ServerShard.moves_of_step hs
      cases hmoves with
      | handler _ _ row h hrow hstep =>
          rw [handlerAt, hrow] at hold
          cases hold
          refine ⟨h, hstep, ?_, fun x hx => ?_⟩
          · rw [handlerAt_update, if_pos rfl]
            exact Table.get_set_self hrow _
          · rw [handlerAt_update]
            split
            · rename_i hi
              have hj : j ≠ x.2 := fun hj => hx (Prod.ext hi hj.symm)
              show ((server.shard i).handlers.tasks.set j _)[x.2]? = _
              rw [List.getElem?_set_ne hj, handlerAt, hi]
            · rfl

/-- The accept loop puts a new handler behind the others. -/
theorem handlerAt_handOver {i : Fin (shards .server)} {c : Nat}
    (hreach : (Server.system dataSize _).Reachable server)
    (hserver : (Server.system dataSize _).step server (.continuation i (.accept (some c))) =
      some server') (hflag : (server.shard i).interrupted = false) :
    let site := (i, (server.shard i).handlers.tasks.length)
    handlerAt server site = none ∧
      handlerAt server' site = some ⟨c, handleConnection false⟩ ∧
      ∀ x, x ≠ site → handlerAt server' x = handlerAt server x := by
  have hopen : (server.shard i).handlers.gate.closed = false :=
    (Server.consistent hreach i).guarded.closed_eq.trans hflag
  cases Process.moves_of_step hserver with
  | continuation _ _ s hs =>
      have hmoves := ServerShard.moves_of_step hs
      cases hmoves with
      | stopAccept _ _ hup =>
          rw [hup] at hflag
          cases hflag
      | handOver =>
          rw [Gated.withGate_open hopen, hflag]
          refine ⟨List.getElem?_eq_none le_rfl, ?_, fun x hx => ?_⟩
          · rw [handlerAt_update, if_pos rfl]
            exact List.getElem?_concat_length
          · rw [handlerAt_update]
            split
            · rename_i hi
              have hj : x.2 ≠ (server.shard i).handlers.tasks.length :=
                fun hj => hx (Prod.ext hi hj)
              show ((server.shard i).handlers.tasks ++ [_])[x.2]? = _
              rw [handlerAt, hi]
              rcases Nat.lt_or_gt_of_ne hj with hlt | hgt
              · exact List.getElem?_append_left hlt
              · rw [List.getElem?_eq_none hgt.le, List.getElem?_eq_none]
                rw [List.length_append, List.length_singleton]
                exact hgt
            · rfl

end

/-! ### Every step keeps the wiring -/

def serverWriter (server : Process (shards .server) ServerShard) (x : Fin (shards .server) × Nat) :
    Option WriteLoop :=
  (handlerAt server x).map fun c => c.handler.writer

def clientWriter (writes : WriteView program) (client : Process (shards .client) (ClientShard State))
    (x : Fin (shards .client) × Nat) : Option WriteLoop :=
  (Client.taskAt client x).map fun task => task.phase.writer writes

structure Wired (writes : WriteView program) (cfg : TcpConfig) (d : TcpExchange State shards) :
    Prop where
  server : TcpEnd (cfg.lane .server) .server TcpLink.site (serverWriter d.server) d.links
  client : TcpEnd (cfg.lane .client) .client (fun link => .handler link.task)
    (clientWriter writes d.client) d.links
  /-- A handler's connection has its place there. -/
  owned : ∀ x c, handlerAt d.server x = some c →
    ∃ link, d.links[c.connection]? = some link ∧ link.site = .handler x

variable {writes : WriteView program}

theorem wired_start : Wired writes cfg (start program cfg : TcpExchange State shards) where
  server := ⟨by simp [start], by simp [start]⟩
  client := ⟨by simp [start], by simp [start]⟩
  owned x c hc := by cases hc

/-- The places of the connections stay where they are. -/
theorem Wired.owned_set (h : Wired writes cfg d) {c : Nat} {old new : TcpLink shards}
    (hlink : d.links[c]? = some old) (hsite : new.site = old.site)
    {x : Fin (shards .server) × Nat} {handler : ServerConnection}
    (hhandler : handlerAt d.server x = some handler) :
    ∃ link, (d.links.set c new)[handler.connection]? = some link ∧ link.site = .handler x := by
  obtain ⟨link, hl, hx⟩ := h.owned x handler hhandler
  by_cases hc : c = handler.connection
  · subst hc
    rw [hlink] at hl
    cases hl
    exact ⟨new, Table.get_set_self hlink new, hsite.trans hx⟩
  · exact ⟨link, by rw [List.getElem?_set_ne hc, hl], hx⟩

theorem Wired.handOver (h : Wired writes cfg d)
    (hreach : (Server.system (cfg.dataSize .server) _).Reachable d.server)
    {i : Fin (shards .server)} {c : Nat} {server : Process (shards .server) ServerShard}
    {link link' : TcpLink shards}
    (hserver : (Server.system (cfg.dataSize .server) _).step d.server
      (.continuation i (.accept (some c))) = some server)
    (hflag : (d.server.shard i).interrupted = false) (hlink : d.links[c]? = some link)
    (hfresh : link.site = .listening)
    (hturn : { link with
        site := .handler (i, (d.server.shard i).handlers.tasks.length) }.continuation
      cfg.toDuplexConfig false .server (.write .top) = some link') :
    Wired writes cfg { d with server, links := d.links.set c link' } := by
  obtain ⟨hnone, hnew, hothers⟩ := handlerAt_handOver hreach hserver hflag
  have hcontinued := TcpLink.continued hturn
  have hsite : link'.site = .handler (i, (d.server.shard i).handlers.tasks.length) :=
    hcontinued.site
  obtain ⟨w, hw, hacc⟩ := h.server.tied link (List.mem_of_getElem? hlink)
  rw [hfresh] at hw
  cases hw
  refine ⟨h.server.set hlink ?_ ?_ ?_, h.client.other hlink ?_ ?_, ?_⟩
  · right
    intro x hx
    rw [hsite] at hx
    cases hx
    rw [serverWriter, hnone, Option.map_none]
  · intro x _ v hv
    by_cases hx : x = (i, (d.server.shard i).handlers.tasks.length)
    · rw [hx, serverWriter, hnone] at hv
      cases hv
    · rwa [serverWriter, hothers x hx]
  · refine ⟨.writing, ?_, ?_⟩
    · rw [hsite, loopAt, serverWriter, hnew]
      rfl
    · exact TcpLink.own_accounted hturn (.beginWrite rfl) hacc
  · exact congrArg TcpSite.handler hcontinued.task
  · exact fun v hv => TcpLink.other_accounted hturn hv
  · intro x handler hx
    by_cases hsame : x = (i, (d.server.shard i).handlers.tasks.length)
    · subst hsame
      change handlerAt server _ = some handler at hx
      rw [hnew] at hx
      cases hx
      exact ⟨link', Table.get_set_self hlink link', hsite⟩
    · change handlerAt server x = some handler at hx
      rw [hothers x hsame] at hx
      obtain ⟨old, hold, hplace⟩ := h.owned x handler hx
      have hne : c ≠ handler.connection := by
        rintro rfl
        rw [hlink] at hold
        cases hold
        rw [hfresh] at hplace
        cases hplace
      exact ⟨old, by rw [List.getElem?_set_ne hne, hold], hplace⟩

/-- The server's end of the connection is over before it has begun. -/
theorem Wired.destroy (h : Wired writes cfg d) {i : Fin (shards .server)} {c : Nat}
    {server : Process (shards .server) ServerShard} {link : TcpLink shards}
    (hserver : (Server.system (cfg.dataSize .server) _).step d.server
      (.continuation i (.accept (some c))) = some server)
    (hflag : (d.server.shard i).interrupted = true) (hlink : d.links[c]? = some link)
    (hfresh : link.site = .listening) :
    Wired writes cfg { d with server, links := d.links.set c link.destroy } := by
  have hsame : handlerAt server = handlerAt d.server :=
    handlerAt_other hserver (by simp) (fun k _ he => by cases he; exact hflag)
  have hwriter : serverWriter server = serverWriter d.server := by
    funext x
    rw [serverWriter, serverWriter, hsame]
  obtain ⟨w, hw, hacc⟩ := h.server.tied link (List.mem_of_getElem? hlink)
  rw [hfresh] at hw
  cases hw
  have hstopped : WriteLoop.Next false .top (.read .failed) .stopped := .readEnds _ _ rfl
  refine ⟨?_, h.client.other hlink rfl ?_, ?_⟩
  · show TcpEnd _ _ _ (serverWriter server) _
    rw [hwriter]
    refine h.server.set hlink (Or.inr fun x hx => ?_) (fun _ _ _ => id) ⟨.stopped, rfl, ?_⟩
    · cases hx
    · simpa [TcpLink.destroy, TcpLink.hangUp, TcpLink.update] using
        (hacc.other hstopped).hangUp rfl
  · intro w hw
    simpa [TcpLink.destroy, TcpLink.hangUp, TcpLink.update] using hw
  · intro x handler hx
    change handlerAt server x = some handler at hx
    rw [hsame] at hx
    obtain ⟨old, hold, hplace⟩ := h.owned x handler hx
    have hne : c ≠ handler.connection := by
      rintro rfl
      rw [hlink] at hold
      cases hold
      rw [hfresh] at hplace
      cases hplace
    exact ⟨old, by rw [List.getElem?_set_ne hne, hold], hplace⟩

theorem Wired.serverHandler (h : Wired writes cfg d) {i : Fin (shards .server)} {j : Nat}
    {e : LoopEvent} {server : Process (shards .server) ServerShard} {handler : ServerConnection}
    {link link' : TcpLink shards}
    (hserver : (Server.system (cfg.dataSize .server) _).step d.server
      (.continuation i (.handler j e)) = some server)
    (hhandler : handlerAt d.server (i, j) = some handler)
    (hlink : d.links[handler.connection]? = some link)
    (hturn : link.continuation cfg.toDuplexConfig (d.server.shard i).interrupted .server e =
      some link') :
    Wired writes cfg { d with server, links := d.links.set handler.connection link' } := by
  obtain ⟨h', hstep, hnew, hothers⟩ := handlerAt_turn hserver hhandler
  have hcontinued := TcpLink.continued hturn
  obtain ⟨owned, howned, hplace⟩ := h.owned (i, j) handler hhandler
  rw [hlink] at howned
  cases howned
  obtain ⟨w, hw, hacc⟩ := h.server.tied link (List.mem_of_getElem? hlink)
  rw [hplace, loopAt, serverWriter, hhandler] at hw
  cases hw
  refine ⟨h.server.set hlink (Or.inl hcontinued.site) ?_ ?_, h.client.other hlink ?_ ?_, ?_⟩
  · intro x hx v hv
    have hne : x ≠ (i, j) := fun hsame => hx (hsame ▸ hplace)
    rwa [serverWriter, hothers x hne]
  · refine ⟨h'.writer, ?_, ?_⟩
    · rw [hcontinued.site, hplace, loopAt, serverWriter, hnew]
      rfl
    · exact TcpLink.own_accounted hturn (duplexWrites.next _ _ _ _ hstep) hacc
  · exact congrArg TcpSite.handler hcontinued.task
  · exact fun v hv => TcpLink.other_accounted hturn hv
  · intro x c hx
    change handlerAt server x = some c at hx
    by_cases hsame : x = (i, j)
    · subst hsame
      rw [hnew] at hx
      cases hx
      show ∃ l, (d.links.set handler.connection link')[handler.connection]? = some l ∧ _
      exact h.owned_set hlink hcontinued.site hhandler
    · rw [hothers x hsame] at hx
      exact h.owned_set hlink hcontinued.site hx

theorem Wired.clientHandler (h : Wired writes cfg d) {i : Fin (shards .client)} {j c : Nat}
    {e : ClientEvent} {f : LoopEvent} {client : Process (shards .client) (ClientShard State)}
    {link link' : TcpLink shards} (hturns : Client.turn e = some (j, f))
    (hclient : (Client.system program (cfg.dataSize .client) cfg.connections _).step d.client
      (.continuation i e) = some client)
    (hlink : d.links[c]? = some link) (htask : link.task = (i, j))
    (hturn : link.continuation cfg.toDuplexConfig (d.client.shard i).interrupted .client f =
      some link') : Wired writes cfg { d with client, links := d.links.set c link' } := by
  obtain ⟨task, task', hold, hnew, hphase, hothers⟩ := Client.taskAt_turn hturns hclient
  have hcontinued := TcpLink.continued hturn
  obtain ⟨w, hw, hacc⟩ := h.client.tied link (List.mem_of_getElem? hlink)
  rw [htask, loopAt, clientWriter, hold] at hw
  cases hw
  refine ⟨h.server.other hlink hcontinued.site ?_, h.client.set hlink (Or.inl ?_) ?_ ?_, ?_⟩
  · exact fun v hv => TcpLink.other_accounted hturn hv
  · exact congrArg TcpSite.handler hcontinued.task
  · intro x hx v hv
    have hne : x ≠ (i, j) := fun hsame => hx (by rw [htask, hsame])
    rwa [clientWriter, hothers x hne]
  · refine ⟨task'.phase.writer writes, ?_, TcpLink.own_accounted hturn (hphase.next writes) hacc⟩
    rw [hcontinued.task, htask, loopAt, clientWriter, hnew]
    rfl
  · exact fun x handler hx => h.owned_set hlink hcontinued.site hx

/-- What happens to one direction between its two ends keeps both accounts. -/
theorem Wired.between (h : Wired writes cfg d) {c : Nat} {writer : Side} {link : TcpLink shards}
    {s : TcpStream} (hlink : d.links[c]? = some link)
    (hacc : ∀ w, loopAt (serverWriter d.server) link.site = some w ∧ writer = .server ∨
        clientWriter writes d.client link.task = some w ∧ writer = .client →
      (link.stream writer).Accounted (cfg.lane writer) w → s.Accounted (cfg.lane writer) w) :
    Wired writes cfg { d with links := d.links.set c (link.update writer s) } := by
  have hmem := List.mem_of_getElem? hlink
  obtain ⟨v, hv, hserver⟩ := h.server.tied link hmem
  obtain ⟨w, hw, hclient⟩ := h.client.tied link hmem
  refine ⟨h.server.set hlink (Or.inl rfl) (fun _ _ _ => id) ⟨v, hv, ?_⟩,
    h.client.set hlink (Or.inl rfl) (fun _ _ _ => id) ⟨w, hw, ?_⟩,
    fun x handler hx => h.owned_set hlink (show (link.update writer s).site = _ from rfl) hx⟩
  · cases writer with
    | server => simpa [TcpLink.update] using hacc v (Or.inl ⟨hv, rfl⟩) hserver
    | client => simpa [TcpLink.update] using hserver
  · cases writer with
    | server => simpa [TcpLink.update] using hclient
    | client => simpa [TcpLink.update] using hacc w (Or.inr ⟨hw, rfl⟩) hclient

/-- Each step keeps the wiring. -/
theorem Wired.moves (h : Wired writes cfg d) (hreach : (system program cfg).Reachable d)
    {e : TcpExchangeEvent shards} (hmoves : d.Moves program cfg e d') : Wired writes cfg d' := by
  cases hmoves with
  | handOver i c server link link' hserver hflag hlink hfresh hturn =>
      exact h.handOver (projects_server.reachable hreach) hserver hflag hlink hfresh hturn
  | destroy i c server link hserver hflag hlink hfresh =>
      exact h.destroy hserver hflag hlink hfresh
  | serverHandler i j e server handler link link' hserver hhandler hlink hturn =>
      exact h.serverHandler hserver hhandler hlink hturn
  | serverOther e server hserver hidles =>
      have hsame := handlerAt_other hserver hidles.1 fun i c he => absurd he (hidles.2 i c)
      have hwriter : serverWriter server = serverWriter d.server := by
        funext x
        rw [serverWriter, serverWriter, hsame]
      refine ⟨?_, h.client, ?_⟩
      · show TcpEnd _ _ _ (serverWriter server) _
        rw [hwriter]
        exact h.server
      · show ∀ x c, handlerAt server x = some c → _
        rw [hsame]
        exact h.owned
  | clientHandler i j c e f client link link' hturns hclient hlink htask hturn =>
      exact h.clientHandler hturns hclient hlink htask hturn
  | clientOther e client hclient hidles =>
      refine ⟨h.server, h.client.kept ?_, h.owned⟩
      intro x w hw
      obtain ⟨task, hold, rfl⟩ := Option.map_eq_some_iff.mp hw
      obtain ⟨task', hnew, hkept⟩ := Client.taskAt_idle hclient hidles hold
      refine ⟨task'.phase.writer writes, by rw [clientWriter, hnew]; rfl, fun s hs => ?_⟩
      rcases hkept with rfl | ⟨-, hbefore, hafter⟩
      · exact hs
      · have hnext : WriteLoop.Next false .top (.read .failed) .stopped := .readEnds _ _ rfl
        rw [hbefore] at hs
        rw [hafter]
        exact hs.other hnext
  | handshake i j task htask hphase hnew =>
      refine ⟨h.server.append (by simp) ⟨.top, rfl, TcpStream.accounted_fresh _⟩,
        h.client.append ?_ ⟨.top, ?_, TcpStream.accounted_fresh _⟩, ?_⟩
      · rintro x hx link hlink hl
        cases hx
        exact hnew link hlink (TcpSite.handler.inj hl)
      · rw [loopAt, clientWriter, htask, Option.map_some, hphase]
        rfl
      · intro x c hx
        obtain ⟨link, hl, hplace⟩ := h.owned x c hx
        obtain ⟨hlength, -⟩ := List.getElem?_eq_some_iff.mp hl
        exact ⟨link, by rw [List.getElem?_append_left hlength, hl], hplace⟩
  | accept c writer n link s hlink hs => exact h.between hlink fun w _ hacc => hacc.accept hs
  | deliver c writer n link s hlink hreads hs => exact h.between hlink fun w _ hacc => hacc.deliver hs
  | hangUp c writer link hlink hended =>
      refine h.between hlink fun w hw hacc => hacc.hangUp ?_
      rcases hw with ⟨hw, rfl⟩ | ⟨hw, rfl⟩
      · obtain ⟨c, hc, hresolved⟩ := (Option.any_eq_true _ _).mp hended
        obtain ⟨x, hplace, hhandler⟩ := Option.bind_eq_some_iff.mp hc
        rw [TcpSite.place_eq_some hplace, loopAt, serverWriter, hhandler] at hw
        cases hw
        exact ServerConnection.writer_finished hresolved
      · obtain ⟨task, htask, hresolved⟩ := (Option.any_eq_true _ _).mp hended
        rw [clientWriter, htask] at hw
        cases hw
        exact ClientTask.writer_finished hresolved

theorem wired (writes : WriteView program) (h : (system program cfg).Reachable d) :
    Wired writes cfg d := by
  apply System.Reachable.invariant_of (S := system program cfg) (fun d => Wired writes cfg d)
    (fun d (hd : (system program cfg).Reachable d) => hd) wired_start ?_ h
  intro d e d' hreach hd hstep
  exact hd.moves hreach (moves_of_step hstep)

end TcpExchange

end SeastarExperiments
