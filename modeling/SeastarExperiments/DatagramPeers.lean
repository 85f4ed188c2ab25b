import SeastarExperiments.BaseNetwork
import SeastarExperiments.DatagramProcess

/-! `client` against `server`: both processes, and a network that loses, duplicates and reorders the
datagrams between them. Shard `i` of the client sends to the port that shard `i` of the server has
bound. A datagram is on its way from the call of `channel.send` on, whether or not the client gets to
count it. -/

namespace SeastarExperiments

open Transition

structure UdpDatagram where
  port : UInt16
  len : Nat
  deriving DecidableEq

structure DatagramPeers (servers clients : Nat) where
  server : Process servers (DatagramShard ReceiveLoop)
  client : Process clients (DatagramShard SendLoop)
  network : Network UdpDatagram := {}

inductive DatagramPeersEvent (servers clients : Nat)
  | server (e : ProcessEvent servers (DatagramEvent ReceiveEvent) Bool)
  | client (e : ProcessEvent clients (DatagramEvent SendEvent) Bool)
  /-- A shard of the server receives this datagram. -/
  | receive (i : Fin servers) (datagram : UdpDatagram)
  | lose (datagram : UdpDatagram)
  | duplicate (datagram : UdpDatagram)

namespace UdpClient

abbrev system (n : Nat) : System (Process n (DatagramShard SendLoop))
    (ProcessEvent n (DatagramEvent SendEvent) Bool) :=
  Process.system (datagramService clientLoop) n

abbrev start (n : Nat) : Process n (DatagramShard SendLoop) :=
  Process.start (datagramService clientLoop) n

/-- The datagram of a send that is pending on this shard. -/
def sending (s : DatagramShard SendLoop) : List UdpDatagram :=
  match s.run with
  | .looping port .sending => [⟨port, packetSize.toNat⟩]
  | _ => []

/-- What an event that has led to this state has handed to `channel.send`: the first turn of the loop
runs in the call of `run_udp`. -/
def issued {n : Nat} (p : Process n (DatagramShard SendLoop)) :
    ProcessEvent n (DatagramEvent SendEvent) Bool → List UdpDatagram
  | .callRun i _ => sending (p.shard i)
  | .continuation i (.loop .top) => sending (p.shard i)
  | _ => []

end UdpClient

namespace UdpServer

/-- The port of the channel on this shard. -/
def boundPort (s : DatagramShard ReceiveLoop) : Option UInt16 :=
  match s.run with
  | .looping port _ => some port
  | _ => none

/-- The event resolves a pending `receive`. -/
def receives {n : Nat} : ProcessEvent n (DatagramEvent ReceiveEvent) Bool → Bool
  | .continuation _ (.loop (.received _)) => true
  | _ => false

end UdpServer

namespace DatagramPeers

variable {servers clients : Nat}

def start : DatagramPeers servers clients where
  server := UdpServer.start servers
  client := UdpClient.start clients

def step (d : DatagramPeers servers clients) :
    DatagramPeersEvent servers clients → Option (DatagramPeers servers clients)
  | .server e =>
      if UdpServer.receives e then none
      else (d.server.step (datagramService serverLoop) e).map fun server => { d with server }
  | .client e => (d.client.step (datagramService clientLoop) e).map fun client =>
      { d with client, network := d.network.postEach (UdpClient.issued client e) }
  | .receive i datagram => do
      let network ← d.network.deliver datagram
      if UdpServer.boundPort (d.server.shard i) = some datagram.port then
        let server ← d.server.step (datagramService serverLoop)
          (.continuation i (.loop (.received datagram.len)))
        some { d with server, network }
      else none
  | .lose datagram => (d.network.lose datagram).map fun network => { d with network }
  | .duplicate datagram => (d.network.duplicate datagram).map fun network => { d with network }

def system (servers clients : Nat) :
    System (DatagramPeers servers clients) (DatagramPeersEvent servers clients) where
  init := start
  step := step

/-- What a step can be. -/
inductive Moves (d : DatagramPeers servers clients) :
    DatagramPeersEvent servers clients → DatagramPeers servers clients → Prop
  | server (e : ProcessEvent servers (DatagramEvent ReceiveEvent) Bool)
      (server : Process servers (DatagramShard ReceiveLoop))
      (hquiet : UdpServer.receives e = false)
      (hserver : (UdpServer.system servers).step d.server e = some server) :
      Moves d (.server e) { d with server }
  | client (e : ProcessEvent clients (DatagramEvent SendEvent) Bool)
      (client : Process clients (DatagramShard SendLoop))
      (hclient : (UdpClient.system clients).step d.client e = some client) :
      Moves d (.client e)
        { d with client, network := d.network.postEach (UdpClient.issued client e) }
  | receive (i : Fin servers) (datagram : UdpDatagram) (network : Network UdpDatagram)
      (server : Process servers (DatagramShard ReceiveLoop))
      (hnetwork : d.network.deliver datagram = some network)
      (hport : UdpServer.boundPort (d.server.shard i) = some datagram.port)
      (hserver : (UdpServer.system servers).step d.server
        (.continuation i (.loop (.received datagram.len))) = some server) :
      Moves d (.receive i datagram) { d with server, network }
  | lose (datagram : UdpDatagram) (network : Network UdpDatagram)
      (hnetwork : d.network.lose datagram = some network) :
      Moves d (.lose datagram) { d with network }
  | duplicate (datagram : UdpDatagram) (network : Network UdpDatagram)
      (hnetwork : d.network.duplicate datagram = some network) :
      Moves d (.duplicate datagram) { d with network }

variable {d d' : DatagramPeers servers clients} {es : List (DatagramPeersEvent servers clients)}

theorem moves_of_step {e : DatagramPeersEvent servers clients}
    (h : (system servers clients).step d e = some d') : d.Moves e d' := by
  change d.step e = some d' at h
  cases e with
  | server e =>
      obtain ⟨hquiet, h⟩ := Option.ite_none_left_eq_some.mp h
      obtain ⟨server, hserver, rfl⟩ := Option.map_eq_some_iff.mp h
      exact .server e server (by simpa using hquiet) hserver
  | client e =>
      obtain ⟨client, hclient, rfl⟩ := Option.map_eq_some_iff.mp h
      exact .client e client hclient
  | receive i datagram =>
      simp only [step, Option.bind_eq_bind, Option.bind_eq_some_iff, Option.ite_none_right_eq_some,
        Option.some.injEq] at h
      obtain ⟨network, hnetwork, hport, server, hserver, rfl⟩ := h
      exact .receive i datagram network server hnetwork hport hserver
  | lose datagram =>
      obtain ⟨network, hnetwork, rfl⟩ := Option.map_eq_some_iff.mp h
      exact .lose datagram network hnetwork
  | duplicate datagram =>
      obtain ⟨network, hnetwork, rfl⟩ := Option.map_eq_some_iff.mp h
      exact .duplicate datagram network hnetwork

/-! ### Each party by itself -/

/-- The step of the server's process that a step is. -/
def serverEvent : DatagramPeersEvent servers clients →
    Option (ProcessEvent servers (DatagramEvent ReceiveEvent) Bool)
  | .server e => some e
  | .receive i datagram => some (.continuation i (.loop (.received datagram.len)))
  | _ => none

def clientEvent : DatagramPeersEvent servers clients →
    Option (ProcessEvent clients (DatagramEvent SendEvent) Bool)
  | .client e => some e
  | _ => none

theorem projects_server : (system servers clients).Projects (UdpServer.system servers)
    DatagramPeers.server serverEvent where
  init := rfl
  step d e d' hstep := by
    cases moves_of_step hstep with
    | server e server _ hserver => exact (System.exec_singleton _ _ _).trans hserver
    | receive i datagram network server _ _ hserver =>
        exact (System.exec_singleton _ _ _).trans hserver
    | client | lose | duplicate => rfl

theorem projects_client : (system servers clients).Projects (UdpClient.system clients)
    DatagramPeers.client clientEvent where
  init := rfl
  step d e d' hstep := by
    cases moves_of_step hstep with
    | client e client hclient => exact (System.exec_singleton _ _ _).trans hclient
    | server | receive | lose | duplicate => rfl

end DatagramPeers

/-! ### The datagrams of one shard of the client -/

namespace UdpClient

variable {s t : DatagramShard SendLoop}

/-- The sends that have been issued on this shard and not been counted: one that is pending, or one
that has failed. -/
def unconfirmed (s : DatagramShard SendLoop) : Nat :=
  match s.run with
  | .looping _ .sending => 1
  | .looping _ .failed => 1
  | _ => 0

/-- What a call on an instance that has led to this state has handed to `channel.send`. -/
def issuedHere (t : DatagramShard SendLoop) :
    ServiceEvent (DatagramEvent SendEvent) Bool → List UdpDatagram
  | .run _ => sending t
  | .continuation (.loop .top) => sending t
  | _ => []

theorem mem_issuedHere {e : ServiceEvent (DatagramEvent SendEvent) Bool} {m : UdpDatagram}
    (h : m ∈ issuedHere t e) : m.len = packetSize.toNat ∧ ∃ loop, t.run = .looping m.port loop := by
  have hsending : m ∈ sending t := by
    unfold issuedHere at h
    split at h
    · exact h
    · exact h
    · cases h
  unfold sending at hsending
  split at hsending
  · rename_i port hrun
    obtain rfl := List.mem_singleton.mp hsending
    exact ⟨rfl, .sending, hrun⟩
  · cases hsending

abbrev sendMeter : Meter (ServiceEvent (DatagramEvent SendEvent) Bool) :=
  (DatagramShard.counting SendEvent.bytes SendEvent.packets).meter

/-- A send is issued, then it is unconfirmed, and then it is counted or has failed. -/
theorem issued_call {e : ServiceEvent (DatagramEvent SendEvent) Bool}
    (hidle : ∀ opens, e = .run opens → s.run = .idle)
    (hcall : (datagramService clientLoop).call s e = some t) :
    (issuedHere t e).length + unconfirmed s = sendMeter.packets e + unconfirmed t := by
  cases e with
  | armTimer | stop =>
      rw [← Option.some.inj hcall]
      exact rfl
  | run opens =>
      have hrun := hidle opens rfl
      rw [← Option.some.inj hcall]
      show (sending (s.runUdp clientLoop opens)).length + unconfirmed s =
        0 + unconfirmed (s.runUdp clientLoop opens)
      cases opens with
      | false => simp [sending, unconfirmed, DatagramShard.runUdp, hrun]
      | true =>
          cases hflag : s.interrupted <;>
            simp [sending, unconfirmed, DatagramShard.runUdp, clientLoop, SendLoop.body, hrun, hflag]
  | continuation e =>
      have hmoves : s.Moves clientLoop e t := DatagramShard.moves_of_step hcall
      cases hmoves with
      | loop e port loop loop' hrun hstep =>
          change loop.step s.interrupted e = some loop' at hstep
          cases loop with
          | top =>
              cases e with
              | top =>
                  cases hstep
                  cases hflag : s.interrupted <;>
                    simp [issuedHere, sending, unconfirmed, SendLoop.body, hrun]
                  all_goals rfl
              | sent | failed => cases hstep
          | sending =>
              cases e with
              | top => cases hstep
              | sent | failed =>
                  cases hstep
                  simp [issuedHere, unconfirmed, hrun]
                  all_goals rfl
          | stopped | failed => cases e <;> cases hstep
      | tick => rfl

variable {n : Nat} {e : ProcessEvent n (DatagramEvent SendEvent) Bool} {i : Fin n}

theorem issued_of_onShard {q : Process n (DatagramShard SendLoop)}
    {f : ServiceEvent (DatagramEvent SendEvent) Bool} (h : Process.onShard i e = some f) :
    issued q e = issuedHere (q.shard i) f := by
  cases e with
  | reporterSet j succeeded =>
      obtain ⟨-, hf⟩ := Option.ite_none_right_eq_some.mp h
      cases hf
      exact rfl
  | callRun j opens | mainStop j | exitStop j =>
      obtain ⟨rfl, hf⟩ := Option.ite_none_right_eq_some.mp h
      cases hf
      exact rfl
  | continuation j e =>
      obtain ⟨rfl, hf⟩ := Option.ite_none_right_eq_some.mp h
      cases hf
      rcases e with (_ | _ | _) | _ <;> exact rfl
  | snapshot | advance | signal => cases h

theorem exists_issuedHere {q : Process n (DatagramShard SendLoop)} {m : UdpDatagram}
    (h : m ∈ issued q e) :
    ∃ i f, Process.onShard i e = some f ∧ m ∈ issuedHere (q.shard i) f := by
  unfold issued at h
  split at h
  · rename_i i opens
    exact ⟨i, .run opens, if_pos rfl, h⟩
  · rename_i i
    exact ⟨i, .continuation (.loop .top), if_pos rfl, h⟩
  · cases h

/-- A step issues to the port of a shard what the call on that shard issues. -/
theorem countP_issued {q : Process n (DatagramShard SendLoop)} (hn : n ≤ 65536)
    (hported : ∀ i, (q.shard i).Ported i) (i : Fin n) :
    (issued q e).countP (·.port = DatagramShard.port i) =
      ((Process.onShard i e).map fun f => (issuedHere (q.shard i) f).length).getD 0 := by
  have hport {k : Fin n} {f : ServiceEvent (DatagramEvent SendEvent) Bool} {m : UdpDatagram}
      (hm : m ∈ issuedHere (q.shard k) f) : m.port = DatagramShard.port k := by
    obtain ⟨-, loop, hrun⟩ := mem_issuedHere hm
    exact (hported k).2 _ _ hrun
  cases hcall : Process.onShard i e with
  | some f =>
      rw [issued_of_onShard hcall, List.countP_eq_length.mpr fun m hm => by simpa using hport hm]
      rfl
  | none =>
      apply List.countP_eq_zero.mpr
      intro m hm
      obtain ⟨k, f, hk, hmem⟩ := exists_issuedHere hm
      have hki : k ≠ i := by
        rintro rfl
        rw [hk] at hcall
        cases hcall
      have hne : DatagramShard.port k ≠ DatagramShard.port i := by
        rw [Ne, DatagramShard.port_inj (by omega) (by omega)]
        exact Fin.val_ne_of_ne hki
      simpa [hport hmem] using hne

end UdpClient

end SeastarExperiments
