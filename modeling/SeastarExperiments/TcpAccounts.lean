import Mathlib.Algebra.Order.BigOperators.Group.Finset
import Mathlib.Algebra.Order.BigOperators.Group.List
import SeastarExperiments.Benchmarks
import SeastarExperiments.TcpWiring

/-! What a TCP server and its clients count of each other, over the whole run of both processes and
all their connections: every byte of a write that has begun is counted by the other process, is in
transit or went away with its end, and a write that has begun is counted but for one a connection. -/

namespace SeastarExperiments

open ByteStream Transition

namespace TcpStream

variable {cfg : LaneConfig} {w : WriteLoop} {s : TcpStream}

theorem Accounted.begun_eq (h : s.Accounted cfg w) : s.begun = s.counted + s.uncounted :=
  (Nat.add_sub_of_le h.counted_le).symm

theorem Accounted.uncounted_le (h : s.Accounted cfg w) : s.uncounted ≤ 1 := by
  have := h.begun_le
  unfold uncounted
  omega

/-- Only a write that has failed is never counted. -/
theorem Accounted.uncounted_of_finished (h : s.Accounted cfg w) (hw : w.finished = true) :
    s.uncounted ≤ if w = .failed then 1 else 0 := by
  split
  · exact h.uncounted_le
  · rename_i hfailed
    have hsettled := h.settled (by rintro rfl; cases hw) hfailed
    rw [uncounted, hsettled, Nat.sub_self]

/-- With equal `DATA_SIZE`s a reader has no more packets than have begun. -/
theorem Accounted.packetsRead_le (h : s.Accounted cfg w) (hsize : cfg.readSize = cfg.writeSize) :
    s.packetsRead ≤ s.begun := by
  rcases Nat.eq_zero_or_pos s.packetsRead with hzero | hpos
  · rw [hzero]
    exact Nat.zero_le _
  · have hlt : cfg.writeSize * s.packetsRead < cfg.writeSize * (s.begun + 1) :=
      calc cfg.writeSize * s.packetsRead
          = cfg.readSize * s.packetsRead := by rw [hsize]
        _ < s.bytesRead + cfg.readSize := h.packets_lt hpos
        _ ≤ cfg.writeSize * s.begun + cfg.writeSize := by
            rw [h.conserved, hsize]
            omega
        _ = cfg.writeSize * (s.begun + 1) := by rw [Nat.mul_add, Nat.mul_one]
    exact Nat.lt_succ_iff.mp (Nat.lt_of_mul_lt_mul_left hlt)

/-- Of the bytes of counted writes a bounded stream keeps no more back than its limits and the
pending read. -/
theorem Accounted.written_le (h : s.Accounted cfg w) {slack capacity : Nat}
    (hlimits : cfg.limits = ⟨some capacity, some slack⟩) :
    cfg.writeSize * s.counted ≤ s.bytesRead + (slack + capacity + cfg.readSize) := by
  have hkept := h.kept_within
  have hqueued := h.queued_within
  rw [hlimits, within_some] at hkept hqueued
  have hconserved : cfg.writeSize * s.counted + cfg.writeSize * s.uncounted =
      s.pipe.unsent + s.pipe.queued + s.pipe.held + s.bytesRead + s.dropped := by
    rw [← Nat.mul_add, ← h.begun_eq]
    exact h.conserved
  have hheld := h.held_le
  omega

end TcpStream

namespace TcpExchange

variable {State : Type} {program : ClientProgram State} {shards : Side → Nat} {cfg : TcpConfig}
  {d d' : TcpExchange State shards} {es : List (TcpExchangeEvent shards)}

/-! ### Sums over the connections -/

/-- A quantity of one direction, over all connections. -/
def overLinks (quantity : TcpStream → Nat) (writer : Side) (d : TcpExchange State shards) : Nat :=
  (d.links.map fun link => quantity (link.stream writer)).sum

/-- What an event counts of a quantity that the continuations of the handlers at one end count. -/
def counts (quantity : LoopEvent → Nat) : Side → TcpExchangeEvent shards → Nat
  | .server, .server (.continuation _ (.handler _ e)) => quantity e
  | .client, .client (.continuation _ (.handler _ e)) => quantity e
  | _, _ => 0

/-- A quantity of a direction that grows with the turns of the handlers at one end. -/
structure Tally (shards : Side → Nat) (stream : TcpStream → Nat) (quantity : LoopEvent → Nat)
    (writer counter : Side) : Prop where
  fresh : stream {} = 0
  first_turn : quantity (.write .top) = 0
  turn : ∀ (cfg : DuplexConfig) interrupted (l l' : TcpLink shards) side e,
    l.continuation cfg interrupted side e = some l' →
      stream (l'.stream writer) =
        stream (l.stream writer) + if side = counter then quantity e else 0
  between : ∀ (s : TcpStream) pipe dropped, stream { s with pipe, dropped } = stream s

theorem tally_counted (writer : Side) :
    Tally shards TcpStream.counted LoopEvent.packetsWritten writer writer where
  fresh := rfl
  first_turn := rfl
  turn cfg interrupted l l' side e h := by
    have hcontinued := TcpLink.continued h
    by_cases hside : side = writer
    · subst hside
      rw [if_pos rfl, hcontinued.counted]
    · obtain rfl : writer = side.other := by cases side <;> cases writer <;> simp_all [Side.other]
      rw [if_neg hside, hcontinued.other_counted, Nat.add_zero]
  between _ _ _ := rfl

theorem tally_bytesRead (writer : Side) :
    Tally shards TcpStream.bytesRead LoopEvent.bytesRead writer writer.other where
  fresh := rfl
  first_turn := rfl
  turn cfg interrupted l l' side e h := by
    have hcontinued := TcpLink.continued h
    by_cases hside : side = writer
    · subst hside
      rw [if_neg (Side.other_ne side).symm, hcontinued.other_bytesRead, Nat.add_zero]
    · obtain rfl : writer = side.other := by cases side <;> cases writer <;> simp_all [Side.other]
      rw [if_pos (Side.other_other side).symm, hcontinued.bytesRead]
  between _ _ _ := rfl

theorem tally_packetsRead (writer : Side) :
    Tally shards TcpStream.packetsRead LoopEvent.packetsRead writer writer.other where
  fresh := rfl
  first_turn := rfl
  turn cfg interrupted l l' side e h := by
    have hcontinued := TcpLink.continued h
    by_cases hside : side = writer
    · subst hside
      rw [if_neg (Side.other_ne side).symm, hcontinued.other_packetsRead, Nat.add_zero]
    · obtain rfl : writer = side.other := by cases side <;> cases writer <;> simp_all [Side.other]
      rw [if_pos (Side.other_other side).symm, hcontinued.packetsRead]
  between _ _ _ := rfl

/-- A stream that goes on between the turns of the handlers keeps what they count. -/
theorem Tally.update {stream : TcpStream → Nat} {quantity : LoopEvent → Nat}
    {writer counter : Side} (ht : Tally shards stream quantity writer counter) (w : Side)
    (link : TcpLink shards) (pipe : Pipe) (dropped : Nat) :
    stream ((link.update w { link.stream w with pipe, dropped }).stream writer) =
      stream (link.stream writer) := by
  by_cases hw : writer = w
  · subst hw
    simp [TcpLink.update, ht.between]
  · simp [TcpLink.update, Function.update_of_ne hw]

/-- One connection goes on, and the quantity grows there. -/
theorem overLinks_set {stream : TcpStream → Nat} {writer : Side} {c k : Nat}
    {old new : TcpLink shards} (hlink : d.links[c]? = some old)
    (hnew : stream (new.stream writer) = stream (old.stream writer) + k) :
    ((d.links.set c new).map fun link => stream (link.stream writer)).sum =
      overLinks stream writer d + k := by
  have hsum := Table.sum_map_set (fun link => stream (link.stream writer)) hlink new
  rw [hnew] at hsum
  unfold overLinks
  omega

theorem counts_accept (quantity : LoopEvent → Nat) (counter : Side) (i : Fin (shards .server))
    (c : Nat) : counts quantity counter (.server (.continuation i (.accept (some c)))) = 0 := by
  cases counter <;> rfl

theorem counts_serverIdles (quantity : LoopEvent → Nat) (counter : Side)
    {e : ProcessEvent (shards .server) ServerEvent Bool} (hidles : Server.Idles e) :
    counts quantity counter (.server e) = 0 := by
  unfold counts
  split
  · rename_i hevent
    cases hevent
    exact absurd rfl (hidles.1 _ _ _)
  · rename_i hevent
    cases hevent
  · rfl

theorem counts_clientIdles (quantity : LoopEvent → Nat) (counter : Side)
    {e : ProcessEvent (shards .client) ClientEvent Unit} (hidles : Client.Idles e) :
    counts quantity counter (.client e) = 0 := by
  unfold counts
  split
  · rename_i hevent
    cases hevent
  · rename_i hevent
    cases hevent
    cases hidles _ _ rfl
  · rfl

/-- The first turn of a client's handler counts nothing. -/
theorem counts_clientTurn {quantity : LoopEvent → Nat} (hfirst : quantity (.write .top) = 0)
    (counter : Side) (i : Fin (shards .client)) {e : ClientEvent} {j : Nat} {f : LoopEvent}
    (hturns : Client.turn e = some (j, f)) :
    counts quantity counter (.client (.continuation i e)) =
      if Side.client = counter then quantity f else 0 := by
  cases e with
  | connected k succeeded =>
      cases succeeded with
      | true =>
          cases hturns
          rw [hfirst, ite_self]
          cases counter <;> rfl
      | false => cases hturns
  | handler k g =>
      cases hturns
      cases counter <;> rfl
  | tick => cases hturns

/-- The connections have between them what their handlers have counted. -/
theorem Tally.overLinks_eq {stream : TcpStream → Nat} {quantity : LoopEvent → Nat}
    {writer counter : Side} (ht : Tally shards stream quantity writer counter)
    (h : (system program cfg).exec (start program cfg) es = some d) :
    overLinks stream writer d = (es.map (counts quantity counter)).sum := by
  apply System.exec_induction (S := system program cfg) (motive := fun es d =>
    overLinks stream writer d = (es.map (counts quantity counter)).sum) rfl ?_ h
  intro es d e d' hes ih hstep
  rw [List.map_append, List.sum_append, ← ih, List.map_singleton, List.sum_singleton]
  cases moves_of_step hstep with
  | handOver i c server link link' hserver hflag hlink hfresh hturn =>
      have hnew := ht.turn _ _ _ _ _ _ hturn
      rw [ht.first_turn, ite_self, Nat.add_zero] at hnew
      rw [counts_accept]
      exact overLinks_set hlink hnew
  | destroy i c server link hserver hflag hlink hfresh =>
      rw [counts_accept]
      exact overLinks_set hlink (ht.update .server link _ _)
  | serverHandler i j e server handler link link' hserver hhandler hlink hturn =>
      have hcounts : counts quantity counter (.server (.continuation i (.handler j e))) =
          if Side.server = counter then quantity e else 0 := by cases counter <;> rfl
      rw [hcounts]
      exact overLinks_set hlink (ht.turn _ _ _ _ _ _ hturn)
  | serverOther e server hserver hidles =>
      rw [counts_serverIdles quantity counter hidles]
      rfl
  | clientHandler i j c e f client link link' hturns hclient hlink htask hturn =>
      rw [counts_clientTurn ht.first_turn counter i hturns]
      exact overLinks_set hlink (ht.turn _ _ _ _ _ _ hturn)
  | clientOther e client hclient hidles =>
      rw [counts_clientIdles quantity counter hidles]
      rfl
  | handshake i j task htask hphase hnew =>
      have hcounts : counts quantity counter (.handshake i j) = 0 := by cases counter <;> rfl
      rw [hcounts, overLinks, List.map_append, List.sum_append, List.map_singleton,
        List.sum_singleton, ht.fresh]
      rfl
  | accept c w n link s hlink hs | deliver c w n link s hlink _ hs =>
      obtain ⟨pipe, -, rfl⟩ := Option.map_eq_some_iff.mp hs
      rw [show counts quantity counter _ = 0 by cases counter <;> rfl]
      exact overLinks_set hlink (ht.update w link pipe _)
  | hangUp c w link hlink hended =>
      rw [show counts quantity counter _ = 0 by cases counter <;> rfl]
      exact overLinks_set hlink (ht.update w link _ _)

/-! ### What the devices of the two processes have counted -/

abbrev serverRun (es : List (TcpExchangeEvent shards)) :
    List (ProcessEvent (shards .server) ServerEvent Bool) := es.filterMap serverEvent

abbrev clientRun (es : List (TcpExchangeEvent shards)) :
    List (ProcessEvent (shards .client) ClientEvent Unit) := es.filterMap clientEvent

theorem sum_serverLog {quantity : ServiceEvent ServerEvent Bool → Nat} {ofLoop : LoopEvent → Nat}
    (hcalls : quantity .armTimer = 0 ∧ (∀ listens, quantity (.run listens) = 0) ∧
      quantity .stop = 0)
    (hhandler : ∀ j e, quantity (.continuation (.handler j e)) = ofLoop e)
    (haccept : ∀ c, quantity (.continuation (.accept c)) = 0)
    (htick : ∀ now, quantity (.continuation (.tick now)) = 0)
    (es : List (TcpExchangeEvent shards)) :
    ∑ i, ((Process.log i (serverRun es)).map quantity).sum =
      (es.map (counts ofLoop .server)).sum := by
  rw [Process.sum_log hcalls.1 hcalls.2.1 hcalls.2.2]
  induction es with
  | nil => rfl
  | cons e es ih =>
      rw [List.map_cons, List.sum_cons, ← ih]
      rcases e with (_ | _ | _ | _ | _ | _ | _ | ⟨i, (_ | _ | _)⟩) | _ | _ | _ | _ | _ <;>
        simp [List.filterMap_cons, serverEvent, counts, Process.ofContinuation, hhandler, haccept,
          htick]

theorem sum_clientLog (quantity : LoopEvent → Nat) (es : List (TcpExchangeEvent shards)) :
    ∑ i, ((Process.log i (clientRun es)).map (ClientEvent.counts quantity)).sum =
      (es.map (counts quantity .client)).sum := by
  rw [Process.sum_log rfl (fun _ => rfl) rfl]
  induction es with
  | nil => rfl
  | cons e es ih =>
      rw [List.map_cons, List.sum_cons, ← ih]
      rcases e with _ | (_ | _ | _ | _ | _ | _ | _ | ⟨i, (_ | _ | _)⟩) | _ | _ | _ | _ <;>
        simp [List.filterMap_cons, clientEvent, counts, Process.ofContinuation, ClientEvent.counts]

section

variable (program) (cfg) (es)

def bytesRead : Side → Nat
  | .server => ∑ i, (serverReadReport (cfg.dataSize .server)).meter.totalBytes
      (Process.log i (serverRun es))
  | .client => ∑ i,
      (clientReadReport program.toHandlerProgram (cfg.dataSize .client)
        cfg.connections).meter.totalBytes (Process.log i (clientRun es))

def packetsRead : Side → Nat
  | .server => ∑ i, (serverReadReport (cfg.dataSize .server)).counted i (serverRun es)
  | .client => ∑ i,
      (clientReadReport program.toHandlerProgram (cfg.dataSize .client)
        cfg.connections).counted i (clientRun es)

def bytesWritten : Side → Nat
  | .server => ∑ i, (serverWriteReport (cfg.dataSize .server)).meter.totalBytes
      (Process.log i (serverRun es))
  | .client => ∑ i,
      (clientWriteReport program.toHandlerProgram (cfg.dataSize .client)
        cfg.connections).meter.totalBytes (Process.log i (clientRun es))

def packetsWritten : Side → Nat
  | .server => ∑ i, (serverWriteReport (cfg.dataSize .server)).counted i (serverRun es)
  | .client => ∑ i,
      (clientWriteReport program.toHandlerProgram (cfg.dataSize .client)
        cfg.connections).counted i (clientRun es)

end

theorem bytesRead_eq (side : Side) :
    bytesRead program cfg es side = (es.map (counts LoopEvent.bytesRead side)).sum := by
  cases side with
  | server =>
      exact sum_serverLog ⟨rfl, fun _ => rfl, rfl⟩ (fun _ _ => rfl) (fun _ => rfl) (fun _ => rfl) es
  | client => exact sum_clientLog LoopEvent.bytesRead es

theorem packetsRead_eq (side : Side) :
    packetsRead program cfg es side = (es.map (counts LoopEvent.packetsRead side)).sum := by
  cases side with
  | server =>
      exact sum_serverLog ⟨rfl, fun _ => rfl, rfl⟩ (fun _ _ => rfl) (fun _ => rfl) (fun _ => rfl) es
  | client => exact sum_clientLog LoopEvent.packetsRead es

theorem packetsWritten_eq (side : Side) :
    packetsWritten program cfg es side = (es.map (counts LoopEvent.packetsWritten side)).sum := by
  cases side with
  | server =>
      exact sum_serverLog ⟨rfl, fun _ => rfl, rfl⟩ (fun _ _ => rfl) (fun _ => rfl) (fun _ => rfl) es
  | client => exact sum_clientLog LoopEvent.packetsWritten es

theorem bytesWritten_eq (side : Side) :
    bytesWritten program cfg es side =
      cfg.dataSize side * packetsWritten program cfg es side := by
  have hbytes : bytesWritten program cfg es side =
      (es.map (counts (LoopEvent.bytesWritten (cfg.dataSize side)) side)).sum := by
    cases side with
    | server =>
        exact sum_serverLog ⟨rfl, fun _ => rfl, rfl⟩ (fun _ _ => rfl) (fun _ => rfl) (fun _ => rfl)
          es
    | client => exact sum_clientLog (LoopEvent.bytesWritten (cfg.dataSize .client)) es
  have hevent (e : TcpExchangeEvent shards) :
      counts (LoopEvent.bytesWritten (cfg.dataSize side)) side e =
        cfg.dataSize side * counts LoopEvent.packetsWritten side e := by
    have hloop (f : LoopEvent) : f.bytesWritten (cfg.dataSize side) =
        cfg.dataSize side * f.packetsWritten := by
      rcases f with (_ | _ | _ | _) | _ <;> simp [LoopEvent.bytesWritten, LoopEvent.packetsWritten]
    unfold counts
    split
    · exact hloop _
    · exact hloop _
    · rfl
  rw [hbytes, packetsWritten_eq, ← List.sum_map_mul_left]
  exact congrArg List.sum (List.map_congr_left fun e _ => hevent e)

/-! ### Every byte is accounted for -/

/-- A connection belongs to a task of the client that no other has. -/
theorem length_links (writes : WriteView program) (h : (system program cfg).Reachable d) :
    d.links.length ≤ shards .client * cfg.connections.toNat := by
  have hwired := wired writes h
  have hnodup : (d.links.map TcpLink.task).Nodup := by
    rw [List.nodup_iff_injective_getElem]
    intro a b hab
    simp only [List.getElem_map] at hab
    apply Fin.ext
    exact hwired.client.distinct a b _ _ d.links[a].task (List.getElem?_eq_getElem _)
      (List.getElem?_eq_getElem _) rfl (congrArg TcpSite.handler hab.symm)
  have hsubset : (d.links.map TcpLink.task).toFinset ⊆
      Finset.univ ×ˢ Finset.range cfg.connections.toNat := by
    intro x hx
    obtain ⟨link, hlink, rfl⟩ := List.mem_map.mp (List.mem_toFinset.mp hx)
    obtain ⟨w, hw, -⟩ := hwired.client.tied link hlink
    obtain ⟨task, htask, -⟩ := Option.map_eq_some_iff.mp hw
    obtain ⟨hlength, -⟩ := List.getElem?_eq_some_iff.mp htask
    have hfew := Client.few_tasks (projects_client.reachable h) link.task.1
    simp only [Finset.mem_product, Finset.mem_univ, Finset.mem_range, true_and]
    exact hlength.trans_le hfew
  calc d.links.length
      = (d.links.map TcpLink.task).toFinset.card := by
        rw [List.toFinset_card_of_nodup hnodup, List.length_map]
    _ ≤ (Finset.univ ×ˢ Finset.range cfg.connections.toNat :
          Finset (Fin (shards .client) × Nat)).card := Finset.card_le_card hsubset
    _ = shards .client * cfg.connections.toNat := by
        rw [Finset.card_product, Finset.card_univ, Fintype.card_fin, Finset.card_range]

/-- The writing half at this end of a connection. -/
def writerOf (writes : WriteView program) (d : TcpExchange State shards) (link : TcpLink shards) :
    Side → Option WriteLoop
  | .server => loopAt (serverWriter d.server) link.site
  | .client => clientWriter writes d.client link.task

/-- Each direction keeps its account. -/
theorem stream_accounted (writes : WriteView program) (h : (system program cfg).Reachable d)
    {link : TcpLink shards} (hlink : link ∈ d.links) (writer : Side) :
    ∃ w, writerOf writes d link writer = some w ∧
      (link.stream writer).Accounted (cfg.lane writer) w := by
  cases writer with
  | server => exact (wired writes h).server.tied link hlink
  | client => exact (wired writes h).client.tied link hlink

/-- The two processes of a run, and the connections between them. -/
structure Accounted (program : ClientProgram State) (cfg : TcpConfig)
    (es : List (TcpExchangeEvent shards)) (d : TcpExchange State shards) : Prop where
  /-- The devices have measured what the shards have counted. -/
  server : ∀ i, ∀ r ∈ serverReports (cfg.dataSize .server),
    r.meter.Measures (r.device (d.server.shard i)) (Process.log i (serverRun es))
  client : ∀ i, ∀ r ∈ clientReports program.toHandlerProgram (cfg.dataSize .client) cfg.connections,
    r.meter.Measures (r.device (d.client.shard i)) (Process.log i (clientRun es))
  /-- Every byte of a write that has begun has been counted by the other process, is in transit or
  went away with its end. -/
  bytes : ∀ writer, bytesRead program cfg es writer.other +
      overLinks (fun s => s.pipe.inTransit) writer d + overLinks TcpStream.dropped writer d =
    bytesWritten program cfg es writer + cfg.dataSize writer * overLinks TcpStream.uncounted writer d
  uncounted_le : ∀ link ∈ d.links, ∀ writer, (link.stream writer).uncounted ≤ 1
  /-- On each connection the reader has counted one packet for each of its `DATA_SIZE` bytes begun. -/
  packets : ∀ writer, packetsRead program cfg es writer.other =
    overLinks (fun s => s.bytesRead ⌈/⌉ cfg.dataSize writer.other) writer d
  length_le : d.links.length ≤ shards .client * cfg.connections.toNat

/-- Every byte of a run is accounted for, in both directions at once, whatever fails and whenever the
two processes are stopped. -/
theorem bytes_accounted (writes : WriteView program)
    (h : (system program cfg).exec (start program cfg) es = some d) :
    Accounted program cfg es d where
  server i r _ := Process.measures r.metered (projects_server.exec h) i
  client i r _ := Process.measures r.metered (projects_client.exec h) i
  bytes writer := by
    have hread := (tally_bytesRead writer).overLinks_eq h
    have hcounted := (tally_counted writer).overLinks_eq h
    have hlinks : (d.links.map fun link => (link.stream writer).bytesRead +
          (link.stream writer).pipe.inTransit + (link.stream writer).dropped).sum =
        (d.links.map fun link => cfg.dataSize writer *
          ((link.stream writer).counted + (link.stream writer).uncounted)).sum := by
      refine congrArg List.sum (List.map_congr_left fun link hlink => ?_)
      obtain ⟨w, -, hacc⟩ := stream_accounted writes ⟨es, h⟩ hlink writer
      have hconserved : cfg.dataSize writer * (link.stream writer).begun = _ := hacc.conserved
      rw [← hacc.begun_eq, hconserved]
      omega
    rw [List.sum_map_add, List.sum_map_add, List.sum_map_mul_left, List.sum_map_add] at hlinks
    calc bytesRead program cfg es writer.other + overLinks (fun s => s.pipe.inTransit) writer d +
          overLinks TcpStream.dropped writer d
        = overLinks TcpStream.bytesRead writer d + overLinks (fun s => s.pipe.inTransit) writer d +
            overLinks TcpStream.dropped writer d := by rw [bytesRead_eq, ← hread]
      _ = cfg.dataSize writer *
            (overLinks TcpStream.counted writer d + overLinks TcpStream.uncounted writer d) := hlinks
      _ = bytesWritten program cfg es writer +
            cfg.dataSize writer * overLinks TcpStream.uncounted writer d := by
          rw [bytesWritten_eq, packetsWritten_eq, ← hcounted, Nat.mul_add]
  uncounted_le link hlink writer := by
    obtain ⟨w, -, hacc⟩ := stream_accounted writes ⟨es, h⟩ hlink writer
    exact hacc.uncounted_le
  packets writer := by
    rw [packetsRead_eq, ← (tally_packetsRead writer).overLinks_eq h]
    refine congrArg List.sum (List.map_congr_left fun link hlink => ?_)
    obtain ⟨w, -, hacc⟩ := stream_accounted writes ⟨es, h⟩ hlink writer
    exact hacc.packetsRead_eq
  length_le := length_links writes ⟨es, h⟩

/-- One connection between two shards, with equal `DATA_SIZE`s and no limits on the streams. -/
def plainConfig : TcpConfig where
  dataSize _ := 64
  limits _ := ⟨none, none⟩
  connections := 1

def oneShard : Side → Nat := fun _ => 1

/-- The client of a ping-pong pair is interrupted while its first ping is being written, and goes
away with 24 bytes of it; the server reads the other 40. -/
def leavingRun : List (TcpExchangeEvent oneShard) :=
  let server (e : ProcessEvent 1 ServerEvent Bool) : TcpExchangeEvent oneShard := .server e
  let client (e : ProcessEvent 1 ClientEvent Unit) : TcpExchangeEvent oneShard := .client e
  [server (.reporterSet shardZero true), server .advance, server (.callRun shardZero true),
   client (.reporterSet shardZero true), client .advance, client (.callRun shardZero ()),
   .handshake shardZero 0, client (.continuation shardZero (.connected 0 true)),
   server (.continuation shardZero (.accept (some 0))), .accept 0 .client 40,
   client .signal, client (.exitStop shardZero),
   client (.continuation shardZero (.handler 0 (.write .written))), .hangUp 0 .client,
   .deliver 0 .client 40, server (.continuation shardZero (.handler 0 (.read (.read 40))))]

def afterLeaving : TcpExchange PingLoop oneShard :=
  ((system pingClient plainConfig).exec (start pingClient plainConfig) leavingRun).get
    (by decide +kernel)

theorem leaving_accounted : Accounted pingClient plainConfig leavingRun afterLeaving :=
  bytes_accounted pingWrites (Option.some_get _).symm

/-- Neither process gets ahead of the other: at any time of any run a reader has counted at most one
write a connection more than the writer, and the writer more than the reader by at most what the
streams can hold. -/
theorem drift_bounded (writes : WriteView program)
    (h : (system program cfg).exec (start program cfg) es = some d) (writer : Side)
    {slack capacity : Nat} (hlimits : cfg.limits writer = ⟨some capacity, some slack⟩) :
    bytesRead program cfg es writer.other ≤
        bytesWritten program cfg es writer +
          shards .client * cfg.connections.toNat * cfg.dataSize writer ∧
      bytesWritten program cfg es writer ≤
        bytesRead program cfg es writer.other +
          shards .client * cfg.connections.toNat *
            (slack + capacity + cfg.dataSize writer.other) := by
  have hacc := bytes_accounted writes h
  have hbytes := hacc.bytes writer
  constructor
  · have huncounted : overLinks TcpStream.uncounted writer d ≤
        shards .client * cfg.connections.toNat :=
      calc overLinks TcpStream.uncounted writer d
          ≤ (d.links.map fun _ => 1).sum :=
            List.sum_le_sum fun link hlink => hacc.uncounted_le link hlink writer
        _ = d.links.length := by simp
        _ ≤ shards .client * cfg.connections.toNat := hacc.length_le
    calc bytesRead program cfg es writer.other
        ≤ bytesWritten program cfg es writer +
            cfg.dataSize writer * overLinks TcpStream.uncounted writer d := by omega
      _ ≤ bytesWritten program cfg es writer +
            cfg.dataSize writer * (shards .client * cfg.connections.toNat) :=
          Nat.add_le_add_left (Nat.mul_le_mul_left _ huncounted) _
      _ = _ := by rw [Nat.mul_comm (cfg.dataSize writer)]
  · have hlanes : (cfg.lane writer).limits = ⟨some capacity, some slack⟩ := hlimits
    calc bytesWritten program cfg es writer
        = (d.links.map fun link => cfg.dataSize writer * (link.stream writer).counted).sum := by
          rw [List.sum_map_mul_left, bytesWritten_eq, packetsWritten_eq,
            ← (tally_counted writer).overLinks_eq h]
          rfl
      _ ≤ (d.links.map fun link => (link.stream writer).bytesRead +
            (slack + capacity + cfg.dataSize writer.other)).sum := by
          refine List.sum_le_sum fun link hlink => ?_
          obtain ⟨w, -, hstream⟩ := stream_accounted writes ⟨es, h⟩ hlink writer
          exact hstream.written_le hlanes
      _ = bytesRead program cfg es writer.other +
            d.links.length * (slack + capacity + cfg.dataSize writer.other) := by
          rw [List.sum_map_add, bytesRead_eq, ← (tally_bytesRead writer).overLinks_eq h,
            List.map_const', List.sum_replicate, smul_eq_mul]
          rfl
      _ ≤ _ := Nat.add_le_add_left (Nat.mul_le_mul_right _ hacc.length_le) _

/-- Channels of one packet; a write completes once 16 bytes of it are left. -/
def narrowConfig : TcpConfig where
  dataSize _ := 64
  limits _ := ⟨some 64, some 16⟩
  connections := 1

/-- The server has not read a byte yet when the client counts its first packet. -/
def aheadRun : List (TcpExchangeEvent oneShard) :=
  leavingRun.take 9 ++ [.accept 0 .client 48,
    .client (.continuation shardZero (.handler 0 (.write .written)))]

def afterAhead : TcpExchange Handler oneShard :=
  ((system duplexClient narrowConfig).exec (start duplexClient narrowConfig) aheadRun).get
    (by decide +kernel)

theorem ahead_bounded :
    bytesRead duplexClient narrowConfig aheadRun .server ≤
        bytesWritten duplexClient narrowConfig aheadRun .client + 1 * 1 * 64 ∧
      bytesWritten duplexClient narrowConfig aheadRun .client ≤
        bytesRead duplexClient narrowConfig aheadRun .server + 1 * 1 * (16 + 64 + 64) :=
  drift_bounded duplexWrites (d := afterAhead) (Option.some_get _).symm .client rfl

/-! ### The reports of the two processes -/

/-- The connections on which a write at this end has failed. -/
def failedWriters (writes : WriteView program) (writer : Side) (d : TcpExchange State shards) : Nat :=
  d.links.countP fun link => writerOf writes d link writer = some .failed

/-- Where the handlers of a process are over, all its packets are counted but those of failed
writes. -/
theorem uncounted_le_failed (writes : WriteView program) (h : (system program cfg).Reachable d)
    (writer : Side) (hover : ∀ link ∈ d.links, ∀ w, writerOf writes d link writer = some w →
      w = .top ∨ w.finished = true) :
    overLinks TcpStream.uncounted writer d ≤ failedWriters writes writer d := by
  refine Table.sum_le_countP fun link hlink => ?_
  obtain ⟨w, hw, hacc⟩ := stream_accounted writes h hlink writer
  rw [hw]
  rcases hover link hlink w hw with rfl | hfinished
  · have hsettled := hacc.settled (by simp) (by simp)
    rw [TcpStream.uncounted, hsettled, Nat.sub_self]
    exact Nat.zero_le _
  · have hle := hacc.uncounted_of_finished hfinished
    by_cases hfailed : w = .failed
    · simpa [hfailed] using hle
    · simpa [hfailed] using hle

/-- The packets that one process has read, against those that the other has written. -/
theorem packets_le (writes : WriteView program) (hsize : cfg.dataSize .server = cfg.dataSize .client)
    (h : (system program cfg).exec (start program cfg) es = some d) (writer : Side) :
    packetsRead program cfg es writer.other ≤
      packetsWritten program cfg es writer + overLinks TcpStream.uncounted writer d := by
  have hsizes : (cfg.lane writer).readSize = (cfg.lane writer).writeSize := by
    cases writer with
    | server => exact hsize.symm
    | client => exact hsize
  calc packetsRead program cfg es writer.other
      = overLinks TcpStream.packetsRead writer d := by
        rw [packetsRead_eq, ← (tally_packetsRead writer).overLinks_eq h]
    _ ≤ (d.links.map fun link =>
          (link.stream writer).counted + (link.stream writer).uncounted).sum := by
        refine List.sum_le_sum fun link hlink => ?_
        obtain ⟨w, -, hacc⟩ := stream_accounted writes ⟨es, h⟩ hlink writer
        rw [← hacc.begun_eq]
        exact hacc.packetsRead_le hsizes
    _ = packetsWritten program cfg es writer + overLinks TcpStream.uncounted writer d := by
        rw [List.sum_map_add, packetsWritten_eq, ← (tally_counted writer).overLinks_eq h]
        rfl

/-- Once the histories of the clients have been read, all their handlers are over. -/
theorem client_over {writes : WriteView program} (h : (system program cfg).Reachable d)
    (hstage : d.client.stage = .stop ∨ d.client.stage = .done) :
    ∀ link ∈ d.links, ∀ w, writerOf writes d link .client = some w → w.finished = true := by
  intro link _ w hw
  have hpast : d.client.stage.afterRun = true := by
    rcases hstage with hstage | hstage <;> rw [hstage] <;> rfl
  obtain ⟨task, htask, rfl⟩ := Option.map_eq_some_iff.mp hw
  have hcomplete := ClientShard.phases.ended_of_afterRun (projects_client.reachable h) hpast link.task.1
  exact ClientTask.writer_finished (hcomplete.finished task (List.mem_of_getElem? htask))

/-- Those of a server that awaits the gate are over as well. -/
theorem server_over (h : (system program cfg).exec (start program cfg) es = some d)
    (hawaits : (Server.system (cfg.dataSize .server) _).EachStep Server.AwaitsGate
      (Server.start (cfg.dataSize .server) _) (serverRun es))
    (hstage : d.server.stage = .stop ∨ d.server.stage = .done) (i : Fin (shards .server)) :
    ∀ c ∈ (d.server.shard i).handlers.tasks, c.resolved = true := by
  have hserver := projects_server.exec h
  obtain ⟨histories, hread⟩ :=
    Option.isSome_iff_exists.mp (Process.snapshots_isSome ⟨_, hserver⟩ hstage i)
  obtain ⟨after, q, hsplit, hq, hreport, -⟩ := Process.exists_snapshot hserver hread
  have hquiet := Benchmark.quiet_when_read hawaits hserver hstage hq hreport
  rw [hsplit] at hserver
  have hrest := System.exec_after _ hq hserver
  exact (ServerShard.kept_quiet.exec (by rw [hreport]; rfl) hquiet hrest).2.2

/-- Where both processes have reported and have one `DATA_SIZE`, the server reports no more packets
as read than its clients report as written, but for what was counted after a last tick and for one
packet of each write that has failed; and if its report awaits the gate, so do the clients of it. -/
theorem tcp_reports_bounded (writes : WriteView program)
    (hsize : cfg.dataSize .server = cfg.dataSize .client)
    (h : (system program cfg).exec (start program cfg) es = some d)
    (hserver : d.server.stage = .stop ∨ d.server.stage = .done)
    (hclient : d.client.stage = .stop ∨ d.client.stage = .done)
    (hserverFits : ∀ r ∈ serverReports (cfg.dataSize .server), ∀ i,
      r.counted i (serverRun es) < 2 ^ 64)
    (hclientFits : ∀ r ∈ clientReports program.toHandlerProgram (cfg.dataSize .client)
      cfg.connections, ∀ i, r.counted i (clientRun es) < 2 ^ 64) :
    let serverRead := serverReadReport (cfg.dataSize .server)
    let serverWrite := serverWriteReport (cfg.dataSize .server)
    let clientRead :=
      clientReadReport program.toHandlerProgram (cfg.dataSize .client) cfg.connections
    let clientWrite :=
      clientWriteReport program.toHandlerProgram (cfg.dataSize .client) cfg.connections
    ((serverRead.shardMeasurements d.server).flatten.map fun m => m.pps.toNat).sum +
        ∑ i, serverRead.unreported i (serverRun es) ≤
      ((clientWrite.shardMeasurements d.client).flatten.map fun m => m.pps.toNat).sum +
        ∑ i, clientWrite.unreported i (clientRun es) + failedWriters writes .client d ∧
    ((Server.system (cfg.dataSize .server) _).EachStep Server.AwaitsGate
        (Server.start (cfg.dataSize .server) _) (serverRun es) →
      ((clientRead.shardMeasurements d.client).flatten.map fun m => m.pps.toNat).sum +
          ∑ i, clientRead.unreported i (clientRun es) ≤
        ((serverWrite.shardMeasurements d.server).flatten.map fun m => m.pps.toNat).sum +
          ∑ i, serverWrite.unreported i (serverRun es) + failedWriters writes .server d) := by
  intro serverRead serverWrite clientRead clientWrite
  have hreach : (system program cfg).Reachable d := ⟨es, h⟩
  have hserverRead : serverRead ∈ serverReports (cfg.dataSize .server) := List.mem_cons_self
  have hserverWrite : serverWrite ∈ serverReports (cfg.dataSize .server) :=
    List.mem_cons_of_mem _ List.mem_cons_self
  have hclientRead : clientRead ∈ clientReports program.toHandlerProgram (cfg.dataSize .client)
      cfg.connections := List.mem_cons_self
  have hclientWrite : clientWrite ∈ clientReports program.toHandlerProgram (cfg.dataSize .client)
      cfg.connections := List.mem_cons_of_mem _ List.mem_cons_self
  rw [serverRead.sum_shardMeasurements (projects_server.exec h) hserver (hserverFits _ hserverRead),
    serverWrite.sum_shardMeasurements (projects_server.exec h) hserver (hserverFits _ hserverWrite),
    clientRead.sum_shardMeasurements (projects_client.exec h) hclient (hclientFits _ hclientRead),
    clientWrite.sum_shardMeasurements (projects_client.exec h) hclient (hclientFits _ hclientWrite),
    ← Finset.sum_add_distrib, ← Finset.sum_add_distrib, ← Finset.sum_add_distrib,
    ← Finset.sum_add_distrib]
  constructor
  · have hover := uncounted_le_failed writes hreach .client
      fun link hlink w hw => Or.inr (client_over hreach hclient link hlink w hw)
    calc ∑ i, (serverRead.reported i (serverRun es) + serverRead.unreported i (serverRun es))
        ≤ packetsRead program cfg es .server :=
          Finset.sum_le_sum fun i _ => serverRead.reported_add_unreported_le i _
      _ ≤ packetsWritten program cfg es .client + overLinks TcpStream.uncounted .client d :=
          packets_le writes hsize h .client
      _ ≤ packetsWritten program cfg es .client + failedWriters writes .client d :=
          Nat.add_le_add_left hover _
      _ = _ := congrArg (· + _) (Finset.sum_congr rfl fun i _ =>
          (Benchmark.settled_client (projects_client.exec h) hclient hclientWrite).symm)
  · intro hawaits
    have hover := uncounted_le_failed writes hreach .server fun link _ w hw => by
      change loopAt (serverWriter d.server) link.site = some w at hw
      cases hsite : link.site with
      | listening =>
          rw [hsite] at hw
          exact Or.inl (Option.some.inj hw).symm
      | destroyed =>
          rw [hsite] at hw
          exact Or.inr (by rw [← Option.some.inj hw]; rfl)
      | handler x =>
          rw [hsite] at hw
          obtain ⟨c, hc, rfl⟩ := Option.map_eq_some_iff.mp hw
          exact Or.inr (ServerConnection.writer_finished
            (server_over h hawaits hserver x.1 c (List.mem_of_getElem? hc)))
    calc ∑ i, (clientRead.reported i (clientRun es) + clientRead.unreported i (clientRun es))
        ≤ packetsRead program cfg es .client :=
          Finset.sum_le_sum fun i _ => clientRead.reported_add_unreported_le i _
      _ ≤ packetsWritten program cfg es .server + overLinks TcpStream.uncounted .server d :=
          packets_le writes hsize h .server
      _ ≤ packetsWritten program cfg es .server + failedWriters writes .server d :=
          Nat.add_le_add_left hover _
      _ = _ := congrArg (· + _) (Finset.sum_congr rfl fun i _ =>
          (Benchmark.settled_server hawaits (projects_server.exec h) hserver hserverWrite).symm)

/-- The duplex pair: each end counts one packet of the other, the client its own after its tick. -/
def duplexPairRun : List (TcpExchangeEvent oneShard) :=
  let server (e : ProcessEvent 1 ServerEvent Bool) : TcpExchangeEvent oneShard := .server e
  let client (e : ProcessEvent 1 ClientEvent Unit) : TcpExchangeEvent oneShard := .client e
  let serverTurn (e : LoopEvent) : TcpExchangeEvent oneShard :=
    server (.continuation shardZero (.handler 0 e))
  let clientTurn (e : LoopEvent) : TcpExchangeEvent oneShard :=
    client (.continuation shardZero (.handler 0 e))
  [server (.reporterSet shardZero true), server .advance, server (.callRun shardZero true),
   client (.reporterSet shardZero true), client .advance, client (.callRun shardZero ()),
   .handshake shardZero 0, client (.continuation shardZero (.connected 0 true)),
   server (.continuation shardZero (.accept (some 0))),
   .accept 0 .client 64, .deliver 0 .client 64, serverTurn (.read (.read 64)),
   clientTurn (.write .written), serverTurn (.write .written), .accept 0 .server 64,
   server (.continuation shardZero (.tick ⟨1000, 1001⟩)),
   client (.continuation shardZero (.tick ⟨1000, 1001⟩)),
   client .signal, client (.exitStop shardZero), server .signal, server (.exitStop shardZero),
   .deliver 0 .server 64, clientTurn (.read (.read 64)), clientTurn (.read .top),
   clientTurn (.write .top), clientTurn (.write .closed),
   serverTurn (.read .top), serverTurn (.write .top), serverTurn (.write .closed),
   server (.continuation shardZero (.accept none)),
   server .advance, server (.snapshot shardZero), server .advance,
   client .advance, client (.snapshot shardZero), client .advance]

def afterDuplexPair : TcpExchange Handler oneShard :=
  ((system duplexClient plainConfig).exec (start duplexClient plainConfig) duplexPairRun).get
    (by decide +kernel)

theorem duplex_pair_bounded :
    1 + 0 ≤ 1 + 0 + failedWriters duplexWrites .client afterDuplexPair ∧
    0 + 1 ≤ 1 + 0 + failedWriters duplexWrites .server afterDuplexPair := by
  have hrun : (system duplexClient plainConfig).exec (start duplexClient plainConfig)
      duplexPairRun = some afterDuplexPair := (Option.some_get _).symm
  have hserverFits : ∀ r ∈ serverReports 64, ∀ i, r.counted i (serverRun duplexPairRun) < 2 ^ 64 := by
    intro r hr
    rcases List.mem_pair.mp hr with rfl | rfl <;> decide +kernel
  have hclientFits : ∀ r ∈ clientReports duplexClient.toHandlerProgram 64 1, ∀ i,
      r.counted i (clientRun duplexPairRun) < 2 ^ 64 := by
    intro r hr
    rcases List.mem_pair.mp hr with rfl | rfl <;> decide +kernel
  have hawaits : (Server.system 64 (oneShard .server)).EachStep Server.AwaitsGate
      (Server.start 64 _) (serverRun duplexPairRun) := by decide +kernel
  have hserverRead : (((serverReadReport 64).shardMeasurements
      afterDuplexPair.server).flatten.map fun m => m.pps.toNat).sum = 1 := by decide +kernel
  have hclientWritten : (((clientWriteReport duplexClient.toHandlerProgram 64 1).shardMeasurements
      afterDuplexPair.client).flatten.map fun m => m.pps.toNat).sum = 1 := by decide +kernel
  have hclientRead : (((clientReadReport duplexClient.toHandlerProgram 64 1).shardMeasurements
      afterDuplexPair.client).flatten.map fun m => m.pps.toNat).sum = 0 := by decide +kernel
  have hserverWritten : (((serverWriteReport 64).shardMeasurements
      afterDuplexPair.server).flatten.map fun m => m.pps.toNat).sum = 1 := by decide +kernel
  have hserverRest : ∑ i, (serverReadReport 64).unreported i (serverRun duplexPairRun) = 0 := by
    decide +kernel
  have hclientRest : ∑ i, (clientReadReport duplexClient.toHandlerProgram 64 1).unreported i
      (clientRun duplexPairRun) = 1 := by decide +kernel
  have hserverRest' : ∑ i, (serverWriteReport 64).unreported i (serverRun duplexPairRun) = 0 := by
    decide +kernel
  have hclientRest' : ∑ i, (clientWriteReport duplexClient.toHandlerProgram 64 1).unreported i
      (clientRun duplexPairRun) = 0 := by decide +kernel
  obtain ⟨hserver, hclient⟩ := tcp_reports_bounded duplexWrites rfl hrun
    (Or.inl (by decide +kernel)) (Or.inl (by decide +kernel)) hserverFits hclientFits
  have hclient := hclient hawaits
  simp only [plainConfig, hserverRead, hserverRest, hclientWritten, hclientRest'] at hserver
  simp only [plainConfig, hclientRead, hclientRest, hserverWritten, hserverRest'] at hclient
  exact ⟨hserver, hclient⟩

end TcpExchange

end SeastarExperiments
