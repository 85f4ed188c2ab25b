import SeastarExperiments.DatagramPeers

/-! What `server` and `client` count of each other, over the whole run of both. Each shard of the
server hears from the shard of the client that has its number, and from no other; what the two report
differs by what the network lost or duplicated and by what was counted after a last tick. A server
that is stopped after its client waits for ever. -/

namespace SeastarExperiments

open Transition

namespace UdpServer

abbrev receiveMeter : Meter (ServiceEvent (DatagramEvent ReceiveEvent) Bool) :=
  (DatagramShard.counting ReceiveEvent.bytes ReceiveEvent.packets).meter

theorem totalPackets_onShard {n : Nat} {e : ProcessEvent n (DatagramEvent ReceiveEvent) Bool}
    (h : receives e = false) (i : Fin n) :
    receiveMeter.totalPackets (Process.onShard i e).toList = 0 := by
  cases hcall : Process.onShard i e with
  | none => rfl
  | some f =>
      cases f with
      | armTimer | run | stop => rfl
      | continuation e' =>
          obtain rfl := Process.eq_continuation_of_onShard hcall
          rcases e' with (_ | _ | _) | _
          · rfl
          · cases h
          · rfl
          · rfl

theorem port_of_boundPort {s : DatagramShard ReceiveLoop} {i : Nat} {port : UInt16}
    (hported : s.Ported i) (h : boundPort s = some port) : port = DatagramShard.port i := by
  unfold boundPort at h
  split at h
  · rename_i loop hrun
    cases h
    exact hported.2 _ loop hrun
  · cases h

end UdpServer

namespace DatagramPeers

variable {servers clients : Nat} {d d' : DatagramPeers servers clients}
  {es : List (DatagramPeersEvent servers clients)}

/-- The calls on the instance of one shard of the server. -/
abbrev serverLog (i : Fin servers) (es : List (DatagramPeersEvent servers clients)) :
    List (ServiceEvent (DatagramEvent ReceiveEvent) Bool) :=
  Process.log i (es.filterMap serverEvent)

abbrev clientLog (j : Fin clients) (es : List (DatagramPeersEvent servers clients)) :
    List (ServiceEvent (DatagramEvent SendEvent) Bool) :=
  Process.log j (es.filterMap clientEvent)

/-- The datagrams that go to the port of one shard. -/
def toShard (i : Nat) (datagrams : Multiset UdpDatagram) : Nat :=
  datagrams.countP (·.port = DatagramShard.port i)

theorem serverLog_concat (i : Fin servers) (es : List (DatagramPeersEvent servers clients))
    (e : DatagramPeersEvent servers clients) :
    serverLog i (es ++ [e]) =
      serverLog i es ++ ((serverEvent e).bind (Process.onShard i)).toList := by
  rw [serverLog, List.filterMap_append, List.filterMap_cons, List.filterMap_nil]
  cases serverEvent e with
  | none => rw [List.append_nil, Option.bind_none, Option.toList_none, List.append_nil]
  | some f => exact Process.log_concat i _ f

theorem clientLog_concat (j : Fin clients) (es : List (DatagramPeersEvent servers clients))
    (e : DatagramPeersEvent servers clients) :
    clientLog j (es ++ [e]) =
      clientLog j es ++ ((clientEvent e).bind (Process.onShard j)).toList := by
  rw [clientLog, List.filterMap_append, List.filterMap_cons, List.filterMap_nil]
  cases clientEvent e with
  | none => rw [List.append_nil, Option.bind_none, Option.toList_none, List.append_nil]
  | some f => exact Process.log_concat j _ f

/-- What a step of the client does to the account of one of its shards. -/
theorem posted_client {client : Process clients (DatagramShard SendLoop)}
    {e : ProcessEvent clients (DatagramEvent SendEvent) Bool} (hclients : clients ≤ 65536)
    (hreach : (UdpClient.system clients).Reachable d.client)
    (hclient : (UdpClient.system clients).step d.client e = some client) (j : Fin clients) :
    toShard j (d.network.postEach (UdpClient.issued client e)).posted +
        UdpClient.unconfirmed (d.client.shard j) =
      toShard j d.network.posted +
        UdpClient.sendMeter.totalPackets (Process.onShard j e).toList +
        UdpClient.unconfirmed (client.shard j) := by
  have hmoves := Process.moves_of_step hclient
  have hmove := hmoves.onShard j
  rw [(d.network.postEach_eq _).1, toShard, Multiset.countP_add, Multiset.coe_countP,
    UdpClient.countP_issued hclients (DatagramShard.ported (hreach.step hclient)) j]
  cases hcall : Process.onShard j e with
  | none =>
      rw [hcall] at hmove
      rw [show d.client.shard j = client.shard j from Option.some.inj hmove]
      rfl
  | some f =>
      rw [hcall, Option.toList_some, System.exec_singleton] at hmove
      have hidle : ∀ opens, f = .run opens → (d.client.shard j).run = .idle := by
        rintro opens rfl
        exact DatagramShard.phases.before_of_onShard hreach hmoves hcall
      have hissued := UdpClient.issued_call hidle hmove
      rw [Option.map_some, Option.getD_some, Option.toList_some, ← List.nil_append [f],
        Meter.totalPackets_concat, Meter.totalPackets_nil, toShard]
      omega

/-- What has been posted to a port has been counted by the client's shard of that port, or is
unconfirmed there. -/
theorem posted_toShard (hclients : clients ≤ 65536)
    (h : (system servers clients).exec start es = some d) (j : Fin clients) :
    toShard j d.network.posted =
      UdpClient.sendMeter.totalPackets (clientLog j es) +
        UdpClient.unconfirmed (d.client.shard j) := by
  apply System.exec_induction (S := system servers clients) (motive := fun es d =>
    toShard j d.network.posted = UdpClient.sendMeter.totalPackets (clientLog j es) +
      UdpClient.unconfirmed (d.client.shard j)) rfl ?_ h
  intro es d e d' hes ih hstep
  rw [clientLog_concat, Meter.totalPackets_append]
  cases moves_of_step hstep with
  | client e client hclient =>
      have hposted := posted_client hclients (projects_client.reachable ⟨es, hes⟩) hclient j
      show toShard j (d.network.postEach (UdpClient.issued client e)).posted = _ +
        UdpClient.sendMeter.totalPackets (Process.onShard j e).toList +
          UdpClient.unconfirmed (client.shard j)
      omega
  | server => exact ih
  | receive i datagram network server hnetwork =>
      rw [(Network.deliver_some hnetwork).2.2.1]
      exact ih
  | lose datagram network hnetwork =>
      rw [(Network.lose_some hnetwork).2.2.1]
      exact ih
  | duplicate datagram network hnetwork =>
      rw [(Network.duplicate_some hnetwork).2.2.1]
      exact ih

/-- What has been delivered to a port has been counted by the server's shard of that port. -/
theorem delivered_toShard (hservers : servers ≤ 65536)
    (h : (system servers clients).exec start es = some d) (i : Fin servers) :
    toShard i d.network.delivered = UdpServer.receiveMeter.totalPackets (serverLog i es) := by
  apply System.exec_induction (S := system servers clients) (motive := fun es d =>
    toShard i d.network.delivered = UdpServer.receiveMeter.totalPackets (serverLog i es)) rfl ?_ h
  intro es d e d' hes ih hstep
  rw [serverLog_concat, Meter.totalPackets_append]
  cases moves_of_step hstep with
  | client e client hclient =>
      rw [(d.network.postEach_eq _).2.2]
      exact ih
  | server e server hquiet =>
      show toShard i d.network.delivered =
        _ + UdpServer.receiveMeter.totalPackets (Process.onShard i e).toList
      rw [UdpServer.totalPackets_onShard hquiet]
      exact ih
  | receive k datagram network server hnetwork hport hserver =>
      have hdatagram : datagram.port = DatagramShard.port k :=
        UdpServer.port_of_boundPort (DatagramShard.ported (projects_server.reachable ⟨es, hes⟩) k) hport
      have hpackets : UdpServer.receiveMeter.totalPackets (Process.onShard i
          (.continuation k (.loop (.received datagram.len)))).toList = if k = i then 1 else 0 := by
        rw [Process.onShard]
        split <;> rfl
      have hsame : (datagram.port = DatagramShard.port i) = (k = i) := by
        rw [hdatagram, DatagramShard.port_inj (by omega) (by omega), Fin.val_inj]
      show toShard i network.delivered = _ + UdpServer.receiveMeter.totalPackets
        (Process.onShard i (.continuation k (.loop (.received datagram.len)))).toList
      rw [(Network.deliver_some hnetwork).2.2.2, toShard, Multiset.countP_cons, hpackets, ← ih]
      simp only [hsame]
      rfl
  | lose datagram network hnetwork =>
      rw [(Network.lose_some hnetwork).2.2.2]
      exact ih
  | duplicate datagram network hnetwork =>
      rw [(Network.duplicate_some hnetwork).2.2.2]
      exact ih

theorem posted_len (h : (system servers clients).Reachable d) :
    ∀ m ∈ d.network.posted, m.len = packetSize.toNat := by
  apply System.Reachable.invariant (S := system servers clients)
    (fun d => ∀ m ∈ d.network.posted, m.len = packetSize.toNat) ?_ ?_ h
  · intro m hm
    exact absurd hm (Multiset.notMem_zero m)
  · intro d e d' ih hstep
    cases moves_of_step hstep with
    | client e client hclient =>
        rw [(d.network.postEach_eq _).1]
        intro m hm
        rcases Multiset.mem_add.mp hm with hm | hm
        · exact ih m hm
        · obtain ⟨j, f, -, hf⟩ := UdpClient.exists_issuedHere (Multiset.mem_coe.mp hm)
          exact (UdpClient.mem_issuedHere hf).1
    | server => exact ih
    | receive i datagram network server hnetwork =>
        rw [(Network.deliver_some hnetwork).2.2.1]
        exact ih
    | lose datagram network hnetwork =>
        rw [(Network.lose_some hnetwork).2.2.1]
        exact ih
    | duplicate datagram network hnetwork =>
        rw [(Network.duplicate_some hnetwork).2.2.1]
        exact ih

/-- Every packet that either side counts has 16 bytes. -/
theorem bytes_of_serverLog (h : (system servers clients).exec start es = some d) (i : Fin servers) :
    ∀ f ∈ serverLog i es,
      UdpServer.receiveMeter.bytes f = packetSize.toNat * UdpServer.receiveMeter.packets f := by
  apply System.exec_induction (S := system servers clients) (motive := fun es _ =>
    ∀ f ∈ serverLog i es, UdpServer.receiveMeter.bytes f =
      packetSize.toNat * UdpServer.receiveMeter.packets f) (fun f hf => by cases hf) ?_ h
  intro es d e d' hes ih hstep f hf
  rw [serverLog_concat] at hf
  rcases List.mem_append.mp hf with hf | hf
  · exact ih f hf
  · rw [Option.mem_toList] at hf
    cases moves_of_step hstep with
    | server e server hquiet =>
        have hf : Process.onShard i e = some f := hf
        cases f with
        | armTimer | run | stop => rfl
        | continuation g =>
            obtain rfl := Process.eq_continuation_of_onShard hf
            rcases g with (_ | _ | _) | _
            · rfl
            · cases hquiet
            · rfl
            · rfl
    | receive k datagram network server hnetwork =>
        have hf : (if k = i then some _ else none) = some f := hf
        obtain ⟨-, hf⟩ := Option.ite_none_right_eq_some.mp hf
        cases hf
        have hposted := d.network.posted_of_inFlight (Network.deliver_some hnetwork).1
        exact posted_len ⟨es, hes⟩ datagram hposted
    | client | lose | duplicate => cases hf

theorem bytes_of_call (f : ServiceEvent (DatagramEvent SendEvent) Bool) :
    UdpClient.sendMeter.bytes f = packetSize.toNat * UdpClient.sendMeter.packets f := by
  rcases f with _ | _ | _ | ((_ | _ | _) | _) <;> rfl

/-- The two sides of a run, and the network between them. -/
structure Accounted (es : List (DatagramPeersEvent servers clients))
    (d : DatagramPeers servers clients) : Prop where
  receives : ∀ i, UdpServer.receiveMeter.Measures (d.server.shard i).measurements (serverLog i es)
  sends : ∀ j, UdpClient.sendMeter.Measures (d.client.shard j).measurements (clientLog j es)
  /-- What shard `j` of the client has sent is counted by shard `j` of the server, has been lost or is
  still under way; what shard `j` of the server has counted was sent by shard `j` of the client. -/
  paired : ∀ (i : Fin servers) (j : Fin clients), i.val = j.val →
    UdpServer.receiveMeter.totalPackets (serverLog i es) + toShard i d.network.lost +
        toShard i d.network.inFlight =
      UdpClient.sendMeter.totalPackets (clientLog j es) +
        UdpClient.unconfirmed (d.client.shard j) + toShard j d.network.duplicated
  /-- A shard of the server that has no counterpart counts nothing. -/
  unsent : ∀ i : Fin servers, clients ≤ i →
    UdpServer.receiveMeter.totalPackets (serverLog i es) = 0
  received_size : ∀ i : Fin servers, ∀ m ∈ (d.server.shard i).measurements.getHistory,
    m.gbits = MeasurementDevice.throughputInGbps (16 * m.pps)
  sent_size : ∀ j : Fin clients, ∀ m ∈ (d.client.shard j).measurements.getHistory,
    m.gbits = MeasurementDevice.throughputInGbps (16 * m.pps)

/-- A port of the network belongs to a shard of the client. -/
theorem posted_port (h : (system servers clients).Reachable d) :
    ∀ m ∈ d.network.posted, ∃ j : Fin clients, m.port = DatagramShard.port j := by
  apply System.Reachable.invariant_of (S := system servers clients)
    (fun d => ∀ m ∈ d.network.posted, ∃ j : Fin clients, m.port = DatagramShard.port j)
    (fun _ => projects_client.reachable) ?_ ?_ h
  · intro m hm
    exact absurd hm (Multiset.notMem_zero m)
  · intro d e d' hreach ih hstep
    cases moves_of_step hstep with
    | client e client hclient =>
        rw [(d.network.postEach_eq _).1]
        intro m hm
        rcases Multiset.mem_add.mp hm with hm | hm
        · exact ih m hm
        · obtain ⟨j, f, -, hf⟩ := UdpClient.exists_issuedHere (Multiset.mem_coe.mp hm)
          obtain ⟨-, loop, hrun⟩ := UdpClient.mem_issuedHere hf
          exact ⟨j, (DatagramShard.ported (hreach.step hclient) j).2 _ _ hrun⟩
    | server => exact ih
    | receive i datagram network server hnetwork =>
        rw [(Network.deliver_some hnetwork).2.2.1]
        exact ih
    | lose datagram network hnetwork =>
        rw [(Network.lose_some hnetwork).2.2.1]
        exact ih
    | duplicate datagram network hnetwork =>
        rw [(Network.duplicate_some hnetwork).2.2.1]
        exact ih

theorem receives_measured (h : (system servers clients).exec start es = some d) (i : Fin servers) :
    UdpServer.receiveMeter.Measures (d.server.shard i).measurements (serverLog i es) :=
  Process.measures (DatagramShard.metered ReceiveEvent.serverLoop_count) (projects_server.exec h) i

theorem sends_measured (h : (system servers clients).exec start es = some d) (j : Fin clients) :
    UdpClient.sendMeter.Measures (d.client.shard j).measurements (clientLog j es) :=
  Process.measures (DatagramShard.metered SendEvent.clientLoop_count) (projects_client.exec h) j

theorem paired (hservers : servers ≤ 65536) (hclients : clients ≤ 65536)
    (h : (system servers clients).exec start es = some d) {i : Fin servers} {j : Fin clients}
    (hij : i.val = j.val) :
    UdpServer.receiveMeter.totalPackets (serverLog i es) + toShard i d.network.lost +
        toShard i d.network.inFlight =
      UdpClient.sendMeter.totalPackets (clientLog j es) +
        UdpClient.unconfirmed (d.client.shard j) + toShard j d.network.duplicated := by
  have hconserved := d.network.conserved_countP (·.port = DatagramShard.port j)
  change toShard j _ + toShard j _ = toShard j _ + toShard j _ + toShard j _ at hconserved
  rw [← delivered_toShard hservers h, ← posted_toShard hclients h, hij, hconserved]

/-- Every datagram of a run is accounted for, shard by shard, whatever the network does to it and
whenever the two processes are stopped. -/
theorem datagrams_accounted (hservers : servers ≤ 65536) (hclients : clients ≤ 65536)
    (h : (system servers clients).exec start es = some d) : Accounted es d where
  receives := receives_measured h
  sends := sends_measured h
  paired i j := paired hservers hclients h
  unsent i hi := by
    rw [← delivered_toShard hservers h, toShard, Multiset.countP_eq_zero]
    intro m hm hport
    obtain ⟨j, hj⟩ := posted_port ⟨es, h⟩ m (d.network.posted_of_delivered hm)
    rw [hport, DatagramShard.port_inj (by omega) (by omega)] at hj
    omega
  received_size i := (receives_measured h i).gbits_of_size (bytes_of_serverLog h i)
  sent_size j := (sends_measured h j).gbits_of_size fun f _ => bytes_of_call f

/-- One shard on each side. The client sends twice and the first datagram is lost; the server counts
the second, and takes a third, of the client's last turn, after the signal. -/
def oneShardRun : List (DatagramPeersEvent 1 1) :=
  let datagram : UdpDatagram := ⟨1200, 16⟩
  [.server (.reporterSet shardZero true), .server .advance, .server (.callRun shardZero true),
   .client (.reporterSet shardZero true), .client .advance, .client (.callRun shardZero true),
   .client (.continuation shardZero (.loop .sent)), .lose datagram,
   .client (.continuation shardZero (.loop .top)),
   .client (.continuation shardZero (.loop .sent)), .receive shardZero datagram,
   .server (.continuation shardZero (.tick 1000)), .client (.continuation shardZero (.tick 1000)),
   .server (.continuation shardZero (.loop .top)),
   .client (.continuation shardZero (.loop .top)),
   .client .signal, .client (.exitStop shardZero), .server .signal, .server (.exitStop shardZero),
   .client (.continuation shardZero (.loop .sent)),
   .client (.continuation shardZero (.loop .top)), .receive shardZero datagram,
   .server (.continuation shardZero (.loop .top)), .server .advance, .server (.snapshot shardZero),
   .client .advance, .client (.snapshot shardZero)]

def afterOneShard : DatagramPeers 1 1 :=
  ((system 1 1).exec start oneShardRun).get (by decide +kernel)

theorem one_shard_accounted : Accounted oneShardRun afterOneShard :=
  datagrams_accounted (by decide) (by decide) (Option.some_get _).symm

/-! ### The two reports -/

theorem unconfirmed_of_over {s : DatagramShard SendLoop} (h : s.Over clientLoop) :
    UdpClient.unconfirmed s = 0 := by
  obtain ⟨port, loop, hrun, hresolved⟩ := h
  unfold UdpClient.unconfirmed
  rw [hrun]
  cases loop with
  | stopped => rfl
  | top | sending | failed => cases hresolved

/-- The loop of `server` or of `client` is over when a history is read. -/
theorem over_of_report {n : Nat} {Loop Event : Type} {program : DatagramLoop Loop Event}
    {us : List (ProcessEvent n (DatagramEvent Event) Bool)} {p : Process n (DatagramShard Loop)}
    (h : (Process.system (datagramService program) n).exec
      (Process.start (datagramService program) n) us = some p) (hstage : p.stage = .report)
    (i : Fin n) : (p.shard i).Over program :=
  DatagramShard.phases.ended_of_afterRun ⟨us, h⟩ (by rw [hstage]; rfl) i

/-- What a shard of the server has counted since the last tick that its report shows. -/
def unreportedReceives (i : Fin servers) (es : List (DatagramPeersEvent servers clients)) : Nat :=
  UdpServer.receiveMeter.totalPackets (UdpServer.receiveMeter.sinceTick
    (Process.log i (Process.untilRead i (es.filterMap serverEvent))))

def unreportedSends (j : Fin clients) (es : List (DatagramPeersEvent servers clients)) : Nat :=
  UdpClient.sendMeter.totalPackets (UdpClient.sendMeter.sinceTick
    (Process.log j (Process.untilRead j (es.filterMap clientEvent))))

/-- Where both sides have reported, the reports of a shard differ by what each of the two shards has
counted since its last tick and by what the network did. -/
theorem reports_balance (hservers : servers ≤ 65536) (hclients : clients ≤ 65536)
    (h : (system servers clients).exec start es = some d) {i : Fin servers} {j : Fin clients}
    (hij : i.val = j.val) {received sent : List Measurement × List Measurement}
    (hserver : d.server.snapshots i = some received) (hclient : d.client.snapshots j = some sent)
    (hreceived : UdpServer.receiveMeter.totalPackets (serverLog i es) < 2 ^ 64)
    (hsent : UdpClient.sendMeter.totalPackets (clientLog j es) < 2 ^ 64) :
    (received.1.map fun m => m.pps.toNat).sum + unreportedReceives i es +
        toShard i d.network.lost + toShard i d.network.inFlight =
      (sent.1.map fun m => m.pps.toNat).sum + unreportedSends j es +
        toShard j d.network.duplicated := by
  have hserverReport := Process.report_lacks DatagramShard.kept_over
    (fun _ _ _ => DatagramShard.quiet_of_over)
    (DatagramShard.metered ReceiveEvent.serverLoop_count) Prod.fst (fun _ => rfl)
    (projects_server.exec h) hserver (fun q hq hstage => over_of_report hq hstage i) hreceived
  have hclientReport := Process.report_lacks DatagramShard.kept_over
    (fun _ _ _ => DatagramShard.quiet_of_over) (DatagramShard.metered SendEvent.clientLoop_count)
    Prod.fst (fun _ => rfl) (projects_client.exec h) hclient
    (fun q hq hstage => over_of_report hq hstage j) hsent
  have hover : (d.client.shard j).Over clientLoop :=
    Process.ended_of_snapshot DatagramShard.phases (projects_client.exec h)
      (Option.ne_none_iff_exists'.mpr ⟨sent, hclient⟩) j
  have hpaired := paired hservers hclients h hij
  rw [unconfirmed_of_over hover, Nat.add_zero] at hpaired
  calc (received.1.map fun m => m.pps.toNat).sum + unreportedReceives i es +
        toShard i d.network.lost + toShard i d.network.inFlight
      = UdpServer.receiveMeter.totalPackets (serverLog i es) + toShard i d.network.lost +
          toShard i d.network.inFlight := by rw [← hserverReport]; rfl
    _ = UdpClient.sendMeter.totalPackets (clientLog j es) + toShard j d.network.duplicated :=
        hpaired
    _ = (sent.1.map fun m => m.pps.toNat).sum + unreportedSends j es +
          toShard j d.network.duplicated := by rw [← hclientReport]; rfl

/-- The two reports of the run above: one packet received, two sent, and one on each side since its
last tick. -/
theorem one_shard_balance :
    1 + unreportedReceives shardZero oneShardRun + 1 + 0 =
      2 + unreportedSends shardZero oneShardRun + 0 := by
  have hrun : (system 1 1).exec start oneShardRun = some afterOneShard := (Option.some_get _).symm
  have hserver : afterOneShard.server.snapshots shardZero =
      some ([⟨0, 1000, MeasurementDevice.throughputInGbps 16, 1⟩], []) := by decide +kernel
  have hclient : afterOneShard.client.snapshots shardZero =
      some ([⟨0, 1000, MeasurementDevice.throughputInGbps 32, 2⟩], []) := by decide +kernel
  exact reports_balance (by decide) (by decide) hrun rfl hserver hclient (by decide +kernel)
    (by decide +kernel)

/-! ### A server that nobody sends to any more -/

theorem issuedHere_of_settled {s t : DatagramShard SendLoop}
    {f : ServiceEvent (DatagramEvent SendEvent) Bool} (h : s.runFuture clientLoop ≠ .pending)
    (hf : ∀ opens, f ≠ .run opens) (hcall : (datagramService clientLoop).call s f = some t) :
    UdpClient.issuedHere t f = [] ∧ t.runFuture clientLoop ≠ .pending := by
  cases f with
  | armTimer | stop =>
      rw [← Option.some.inj hcall]
      exact ⟨rfl, h⟩
  | run opens => exact absurd rfl (hf opens)
  | continuation e =>
      have hmoves : s.Moves clientLoop e t := DatagramShard.moves_of_step hcall
      cases hmoves with
      | loop e port loop loop' hrun hstep =>
          have hsettled : clientLoop.future loop ≠ .pending := by
            simpa [DatagramShard.runFuture, hrun] using h
          rw [clientLoop.step_settled _ _ _ hsettled] at hstep
          cases hstep
      | tick => exact ⟨rfl, h⟩

/-- Nothing goes to this port any more. -/
structure Dry (port : UInt16) (d : DatagramPeers servers clients) : Prop where
  inFlight : ∀ m ∈ d.network.inFlight, m.port ≠ port
  settled : ∀ j : Fin clients, DatagramShard.port j = port →
    (d.client.shard j).runFuture clientLoop ≠ .pending

theorem Dry.step {port : UInt16} {e : DatagramPeersEvent servers clients} (h : Dry port d)
    (hreach : (system servers clients).Reachable d)
    (hstep : (system servers clients).step d e = some d') :
    Dry port d' ∧ ∀ i : Fin servers, DatagramShard.port i = port →
      ∀ len, serverEvent e ≠ some (.continuation i (.loop (.received len))) := by
  have herase {m : UdpDatagram} : ∀ m' ∈ d.network.inFlight.erase m, m'.port ≠ port :=
    fun m' hm' => h.inFlight m' (Multiset.mem_of_mem_erase hm')
  cases moves_of_step hstep with
  | server e server hquiet hserver =>
      refine ⟨⟨h.inFlight, h.settled⟩, ?_⟩
      rintro i - len he
      obtain rfl := Option.some.inj he
      cases hquiet
  | client e client hclient =>
      have hmoves := Process.moves_of_step hclient
      have hclientReach := projects_client.reachable hreach
      have hrun {j : Fin clients} {f : ServiceEvent (DatagramEvent SendEvent) Bool}
          (hj : DatagramShard.port j = port) (hf : Process.onShard j e = some f) :
          ∀ opens, f ≠ .run opens := by
        rintro opens rfl
        have hidle := DatagramShard.phases.before_of_onShard hclientReach hmoves hf
        exact h.settled j hj (by rw [DatagramShard.runFuture, hidle])
      refine ⟨⟨fun m hm => ?_, fun j hj => ?_⟩, fun _ _ _ he => by cases he⟩
      · change m ∈ (d.network.postEach (UdpClient.issued client e)).inFlight at hm
        rw [(d.network.postEach_eq _).2.1] at hm
        rcases Multiset.mem_add.mp hm with hm | hm
        · exact h.inFlight m hm
        · obtain ⟨j, f, hf, hmem⟩ := UdpClient.exists_issuedHere (Multiset.mem_coe.mp hm)
          obtain ⟨-, loop, hlooping⟩ := UdpClient.mem_issuedHere hmem
          have hport := (DatagramShard.ported (hclientReach.step hclient) j).2 _ _ hlooping
          intro hj
          rw [hport] at hj
          have hmove := hmoves.onShard j
          rw [hf, Option.toList_some, System.exec_singleton] at hmove
          rw [(issuedHere_of_settled (h.settled j hj) (hrun hj hf) hmove).1] at hmem
          cases hmem
      · rcases hmoves.same_or_call j with hsame | ⟨f, hf, hcall⟩
        · change (client.shard j).runFuture clientLoop ≠ .pending
          rw [hsame]
          exact h.settled j hj
        · exact (issuedHere_of_settled (h.settled j hj) (hrun hj hf) hcall).2
  | receive k datagram network server hnetwork hport hserver =>
      obtain ⟨hmem, hinFlight, -, -⟩ := Network.deliver_some hnetwork
      refine ⟨⟨by rw [hinFlight]; exact herase, h.settled⟩, ?_⟩
      rintro i hi len he
      obtain ⟨rfl, -⟩ := ProcessEvent.continuation.inj (Option.some.inj he)
      have hk := UdpServer.port_of_boundPort
        (DatagramShard.ported (projects_server.reachable hreach) k) hport
      exact h.inFlight datagram hmem (hk.trans hi)
  | lose datagram network hnetwork =>
      obtain ⟨-, hinFlight, -, -⟩ := Network.lose_some hnetwork
      exact ⟨⟨by rw [hinFlight]; exact herase, h.settled⟩, fun _ _ _ he => by cases he⟩
  | duplicate datagram network hnetwork =>
      obtain ⟨hmem, hinFlight, -, -⟩ := Network.duplicate_some hnetwork
      refine ⟨⟨fun m hm => ?_, h.settled⟩, fun _ _ _ he => by cases he⟩
      rw [hinFlight] at hm
      rcases Multiset.mem_cons.mp hm with rfl | hm
      · exact h.inFlight _ hmem
      · exact h.inFlight m hm

/-- When the client's shard is through and nothing of it is in flight, a shard of the server that
waits in `receive`, or has been left by an exception there, never comes to its end, `stop()` or not,
and no shard's history is ever read. -/
theorem stuck_of_dry {i : Fin servers} (hreach : (system servers clients).Reachable d)
    (hwaiting : (d.server.shard i).WaitingOrFailed) (hdry : Dry (DatagramShard.port i) d)
    (h : (system servers clients).exec d es = some d') :
    (d'.server.shard i).WaitingOrFailed ∧ ∀ k, d'.server.snapshots k = none := by
  have hall : (system servers clients).Reachable d' ∧ Dry (DatagramShard.port i) d' ∧
      ∀ len, .continuation i (.loop (.received len)) ∉ es.filterMap serverEvent := by
    apply System.exec_induction (S := system servers clients) (motive := fun es d' =>
      (system servers clients).Reachable d' ∧ Dry (DatagramShard.port i) d' ∧
        ∀ len, .continuation i (.loop (.received len)) ∉ es.filterMap serverEvent)
      ⟨hreach, hdry, by simp⟩ ?_ h
    rintro es d' e d'' - ⟨hd', hdry', hnone⟩ hstep
    obtain ⟨hdry'', hquiet⟩ := hdry'.step hd' hstep
    refine ⟨hd'.step hstep, hdry'', fun len hmem => ?_⟩
    rw [List.filterMap_append, List.mem_append] at hmem
    rcases hmem with hmem | hmem
    · exact hnone len hmem
    · obtain ⟨e', he', hsame⟩ := List.mem_filterMap.mp hmem
      obtain rfl := List.mem_singleton.mp he'
      exact hquiet i rfl len hsame
  exact UdpServer.no_report_while_waiting (projects_server.reachable hreach) hwaiting
    (projects_server.exec h) hall.2.2

/-- The client is stopped first: its shard ends after one datagram, which is lost, and then the
server is stopped. -/
def clientFirstRun : List (DatagramPeersEvent 1 1) :=
  [.server (.reporterSet shardZero true), .server .advance, .server (.callRun shardZero true),
   .client (.reporterSet shardZero true), .client .advance, .client (.callRun shardZero true),
   .client .signal, .client (.exitStop shardZero), .lose ⟨1200, 16⟩,
   .client (.continuation shardZero (.loop .sent)),
   .client (.continuation shardZero (.loop .top)),
   .server .signal, .server (.exitStop shardZero)]

def afterClientFirst : DatagramPeers 1 1 :=
  ((system 1 1).exec start clientFirstRun).get (by decide +kernel)

def afterLaterTick : DatagramPeers 1 1 :=
  ((system 1 1).exec afterClientFirst [.server (.continuation shardZero (.tick 2000))]).get
    (by decide +kernel)

/-- The server of that run, interrupted, is no further when its timer has fired. -/
theorem client_first_stuck : (afterLaterTick.server.shard shardZero).WaitingOrFailed ∧
    ∀ k, afterLaterTick.server.snapshots k = none := by
  have hdry : Dry (DatagramShard.port shardZero) afterClientFirst := by
    refine ⟨?_, fun j _ => ?_⟩
    · have hnone : afterClientFirst.network.inFlight = 0 := by decide +kernel
      rw [hnone]
      exact fun m hm => absurd hm (Multiset.notMem_zero m)
    · obtain rfl := Subsingleton.elim j shardZero
      decide +kernel
  have hwaiting : (afterClientFirst.server.shard shardZero).WaitingOrFailed :=
    ⟨1200, Or.inl (by decide +kernel)⟩
  have hreach : (system 1 1).Reachable afterClientFirst :=
    ⟨clientFirstRun, (Option.some_get _).symm⟩
  exact stuck_of_dry hreach hwaiting hdry (Option.some_get _).symm

end DatagramPeers

end SeastarExperiments
