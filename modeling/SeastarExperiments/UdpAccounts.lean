import SeastarExperiments.Benchmarks
import SeastarExperiments.UdpExchange

/-! What two mirrored `udp_duplex` processes with equally many flows count of each other. Each flow
hears from its partner and from no other, also when the flows are split differently over the shards;
the read report of one process and the write report of the other differ by what the network lost or
duplicated and by what was counted after a last tick. -/

namespace SeastarExperiments

open Transition

namespace Udp

variable {cfg : UdpConfig} {n : Nat} {p : Process n UdpShard}
  {us : List (ProcessEvent n UdpEvent (Nat → Channels))}

/-- A device of a shard counts what its flows count. -/
theorem totalPackets_log {kind : FlowEvent → Bool} {bytes packets : FlowEvent → Nat}
    (hpackets : ∀ f, packets f = (kind f).toNat)
    (h : (system cfg n).exec (start cfg n) us = some p) (i : Fin n) :
    (UdpShard.counting bytes packets).meter.totalPackets (Process.log i us) =
      ∑ j : Fin cfg.connections.toNat, us.countP (ofFlow kind i j) := by
  apply System.exec_induction (S := system cfg n) (motive := fun us _ =>
    (UdpShard.counting bytes packets).meter.totalPackets (Process.log i us) =
      ∑ j : Fin cfg.connections.toNat, us.countP (ofFlow kind i j)) (by simp) ?_ h
  intro us p e q hus ih hstep
  have hconcat : ∑ j : Fin cfg.connections.toNat, (us ++ [e]).countP (ofFlow kind i j) =
      ∑ j : Fin cfg.connections.toNat, us.countP (ofFlow kind i j) +
        ∑ j : Fin cfg.connections.toNat, (ofFlow kind i j e).toNat := by
    rw [← Finset.sum_add_distrib]
    refine Finset.sum_congr rfl fun j _ => ?_
    rw [List.countP_append, List.countP_singleton]
    cases ofFlow kind i j e <;> rfl
  rw [hconcat, Process.log_concat, Meter.totalPackets_append, ih]
  refine congrArg (_ + ·) ?_
  cases Process.moves_of_step hstep with
  | continuation k e s hs =>
      cases e with
      | tick now =>
          rw [Process.onShard]
          split <;> simp [ofFlow, Meter.totalPackets, UdpShard.counting, Counting.meter,
            Counting.ofCall]
      | flow l f =>
          obtain ⟨flow, -, hold, -, -, -⟩ := (UdpShard.moves_of_step hs).row
          obtain ⟨hl, -⟩ := flow_ports ⟨us, hus⟩ hold
          by_cases hki : k = i
          · rw [Process.onShard, if_pos hki, Finset.sum_eq_single ⟨l, hl⟩]
            · simp [Meter.totalPackets, UdpShard.counting, Counting.meter, Counting.ofCall, ofFlow,
                hki, hpackets]
            · intro j _ hj
              have hlj : l ≠ j := fun hlj => hj (Fin.ext hlj.symm)
              simp [ofFlow, hlj]
            · exact fun hnot => absurd (Finset.mem_univ _) hnot
          · rw [Process.onShard, if_neg hki]
            simp [ofFlow, hki]
  | snapshot | goOn | giveUp | signal => simp [ofFlow, Process.onShard]
  | armed | notArmed | callRun | mainStop | exitStop =>
      rw [Process.onShard]
      split <;> simp [ofFlow, Meter.totalPackets, UdpShard.counting, Counting.meter,
        Counting.ofCall]

end Udp

namespace UdpExchange

variable {shards : Side → Nat} {cfg : Side → UdpConfig} {d d' : UdpExchange shards}
  {es : List (UdpExchangeEvent shards)}

/-- The two processes send to each other's ports, and have a port for each of their flows. -/
structure Matched (cfg : Side → UdpConfig) (shards : Side → Nat) : Prop where
  mirrored : ∀ side, (cfg side).Mirrored (cfg side.other)
  flows : ∀ side, shards side * (cfg side).connections.toNat =
    shards side.other * (cfg side.other).connections.toNat
  fits : ∀ side, shards side * (cfg side).connections.toNat ≤ 65536

namespace Matched

variable {side : Side}

/-- The flow of the other process that sends to this one. -/
def partner (h : Matched cfg shards) (side : Side) :
    (cfg side).Flow (shards side) ≃ (cfg side.other).Flow (shards side.other) :=
  UdpConfig.counterpart (h.flows side)

theorem partner_sends (h : Matched cfg shards) (g : (cfg side).Flow (shards side)) :
    (cfg side.other).otherPort (h.partner side g).1 (h.partner side g).2 =
      (cfg side).myPort g.1 g.2 :=
  (h.mirrored side).sends_back (h.flows side) g

theorem myPort_iff (h : Matched cfg shards) (f g : (cfg side).Flow (shards side)) :
    (cfg side).myPort f.1 f.2 = (cfg side).myPort g.1 g.2 ↔ f = g :=
  ((UdpConfig.boundPort_injective_iff _ _).mpr (h.fits side)).eq_iff

end Matched

/-- How many of these datagrams go to this flow. -/
def toFlow (cfg : Side → UdpConfig) (side : Side) (g : (cfg side).Flow (shards side))
    (datagrams : Multiset Datagram) : Nat :=
  datagrams.countP fun m => m.destination = side ∧ m.port = (cfg side).myPort g.1 g.2

/-- How many of them go to a flow of this process. -/
def toFlows (cfg : Side → UdpConfig) (shards : Side → Nat) (side : Side)
    (datagrams : Multiset Datagram) : Nat :=
  ∑ g : (cfg side).Flow (shards side), toFlow cfg side g datagrams

theorem destination_of_issued {config : UdpConfig} {n : Nat} {p : Process n UdpShard}
    {destination : Side} {e : ProcessEvent n UdpEvent (Nat → Channels)} {m : Datagram}
    (h : m ∈ Udp.issued config destination p e) :
    m.destination = destination ∧ m.len = config.dataSize := by
  have hsent {flow : UdpFlow} (hm : m ∈ Udp.sending config destination flow) :
      m.destination = destination ∧ m.len = config.dataSize := by
    rw [Udp.mem_sending hm]
    exact ⟨rfl, rfl⟩
  unfold Udp.issued at h
  split at h
  · obtain ⟨flow, -, hm⟩ := List.mem_flatMap.mp h
    exact hsent hm
  · rename_i i j
    cases hflow : (p.shard i).flows.tasks[j]? with
    | none =>
        rw [hflow] at h
        cases h
    | some flow =>
        rw [hflow] at h
        exact hsent h
  · cases h

/-- What a step of the sending process posts to a flow is what its partner issues. -/
theorem countP_issued (hmatched : Matched cfg shards) (side : Side)
    {p : Process (shards side.other) UdpShard}
    (hreach : (Udp.system (cfg side.other) (shards side.other)).Reachable p)
    (g : (cfg side).Flow (shards side))
    (e : ProcessEvent (shards side.other) UdpEvent (Nat → Channels)) :
    (Udp.issued (cfg side.other) side.other.other p e).countP
        (fun m => m.destination = side ∧ m.port = (cfg side).myPort g.1 g.2) =
      (Udp.issuedIn (cfg side.other) side.other.other p (hmatched.partner side g).1
        (hmatched.partner side g).2 e).length := by
  rw [← Udp.countP_issued hreach (hmatched.fits side.other) (hmatched.partner side g).2.isLt]
  apply List.countP_congr
  intro m hm
  have hdestination : m.destination = side :=
    (destination_of_issued hm).1.trans side.other_other
  simp [hdestination, hmatched.partner_sends g]

/-- What has been posted to a flow has been counted by its partner, or is unconfirmed there. -/
theorem posted_toFlow (hmatched : Matched cfg shards) (side : Side)
    (h : (system cfg).exec (start cfg) es = some d) (g : (cfg side).Flow (shards side)) :
    toFlow cfg side g d.network.posted =
      (sideRun side.other es).countP
          (Udp.sends (hmatched.partner side g).1 (hmatched.partner side g).2) +
        Udp.unconfirmedOf (d.process side.other) (hmatched.partner side g).1
          (hmatched.partner side g).2 := by
  apply System.exec_induction (S := system cfg) (motive := fun es d =>
    toFlow cfg side g d.network.posted =
      (sideRun side.other es).countP
          (Udp.sends (hmatched.partner side g).1 (hmatched.partner side g).2) +
        Udp.unconfirmedOf (d.process side.other) (hmatched.partner side g).1
          (hmatched.partner side g).2) (by cases side <;> rfl) ?_ h
  intro es d e d' hes ih hstep
  have hreach := (projects_side side.other).reachable ⟨es, hes⟩
  rw [sideRun_concat, List.countP_append]
  cases moves_of_step hstep with
  | process sender e p hquiet hp =>
      rw [(d.network.postEach_eq _).1, toFlow, Multiset.countP_add, Multiset.coe_countP]
      rcases eq_or_ne sender side.other with rfl | hne
      · have hbalance := Udp.issued_step side.other.other hreach hp
          (hmatched.partner side g).1 (hmatched.partner side g).2
        rw [countP_issued hmatched side (hreach.step hp) g, sideEvent_process, Option.toList_some,
          List.countP_singleton]
        simp only [Function.update_self]
        rw [toFlow] at ih
        cases hsent : Udp.sends (hmatched.partner side g).1 (hmatched.partner side g).2 e <;>
          simp only [hsent, Bool.toNat_true, Bool.toNat_false, if_true, if_false,
            Bool.false_eq_true] at hbalance ⊢ <;> omega
      · have hnone : (Udp.issued (cfg sender) sender.other p e).countP
            (fun m => m.destination = side ∧ m.port = (cfg side).myPort g.1 g.2) = 0 := by
          apply List.countP_eq_zero.mpr
          intro m hm hp
          have hdestination := (destination_of_issued hm).1
          have hside : m.destination = side := (of_decide_eq_true hp).1
          exact hne (by rw [← hside, hdestination, Side.other_other])
        rw [hnone, sideEvent_process_ne hne]
        simp only [Function.update_of_ne (Ne.symm hne)]
        exact ih
  | receive receiver i j datagram flow p network hnetwork hflow hdestination hport hp =>
      rw [(Network.deliver_some hnetwork).2.2.1]
      rcases eq_or_ne receiver side.other with rfl | hne
      · have hbalance := Udp.issued_step side.other.other hreach hp
          (hmatched.partner side g).1 (hmatched.partner side g).2
        rw [sideEvent_receive, ih]
        simp only [Function.update_self]
        simpa [Udp.issuedIn, Udp.sends, Udp.ofFlow, FlowEvent.isSent] using hbalance
      · rw [sideEvent_receive_ne hne]
        simp only [Function.update_of_ne (Ne.symm hne)]
        exact ih
  | lose datagram network hnetwork =>
      rw [(Network.lose_some hnetwork).2.2.1]
      cases side <;> exact ih
  | duplicate datagram network hnetwork =>
      rw [(Network.duplicate_some hnetwork).2.2.1]
      cases side <;> exact ih

theorem receives_of_quiet {n : Nat} {e : ProcessEvent n UdpEvent (Nat → Channels)}
    (h : Udp.resolvesReceive e = false) (i : Fin n) (j : Nat) : Udp.receives i j e = false := by
  unfold Udp.receives Udp.ofFlow
  split
  · rename_i k l f
    rcases f with (_ | _ | _) | (_ | _ | _)
    case receive.received => cases h
    all_goals simp [FlowEvent.isReceived]
  · rfl

/-- What has been delivered to a flow has been counted by it. -/
theorem delivered_toFlow (hmatched : Matched cfg shards) (side : Side)
    (h : (system cfg).exec (start cfg) es = some d) (g : (cfg side).Flow (shards side)) :
    toFlow cfg side g d.network.delivered =
      (sideRun side es).countP (Udp.receives g.1 g.2) := by
  apply System.exec_induction (S := system cfg) (motive := fun es d =>
    toFlow cfg side g d.network.delivered =
      (sideRun side es).countP (Udp.receives g.1 g.2)) (by cases side <;> rfl) ?_ h
  intro es d e d' hes ih hstep
  rw [sideRun_concat, List.countP_append]
  cases moves_of_step hstep with
  | process sender e p hquiet hp =>
      rw [(d.network.postEach_eq _).2.2, ih]
      rcases eq_or_ne sender side with rfl | hne
      · rw [sideEvent_process, Option.toList_some, List.countP_singleton,
          receives_of_quiet hquiet]
        rfl
      · rw [sideEvent_process_ne hne]
        rfl
  | receive receiver i j datagram flow p network hnetwork hflow hdestination hport hp =>
      rw [(Network.deliver_some hnetwork).2.2.2, toFlow, Multiset.countP_cons]
      rcases eq_or_ne receiver side with rfl | hne
      · obtain ⟨hj, hmine, -⟩ := Udp.flow_ports ((projects_side receiver).reachable ⟨es, hes⟩) hflow
        have hsame : (datagram.destination = receiver ∧
            datagram.port = (cfg receiver).myPort g.1 g.2) = ((i, ⟨j, hj⟩) = g) := by
          rw [hdestination, hport, hmine, ← hmatched.myPort_iff]
          simp
        have hreceived : Udp.receives g.1 g.2
            (.continuation i (.flow j (.receive (.received datagram.len)))) =
              ((i, ⟨j, hj⟩) = g : Bool) := by
          simp [Udp.receives, Udp.ofFlow, FlowEvent.isReceived, Prod.ext_iff, Fin.ext_iff]
        rw [sideEvent_receive, Option.toList_some, List.countP_singleton, hreceived, ← ih, toFlow]
        simp only [hsame, decide_eq_true_eq]
      · have hother : ¬(datagram.destination = side ∧
            datagram.port = (cfg side).myPort g.1 g.2) :=
          fun hboth => hne (hdestination.symm.trans hboth.1)
        rw [if_neg hother, sideEvent_receive_ne hne]
        exact ih
  | lose datagram network hnetwork =>
      rw [(Network.lose_some hnetwork).2.2.2]
      cases side <;> exact ih
  | duplicate datagram network hnetwork =>
      rw [(Network.duplicate_some hnetwork).2.2.2]
      cases side <;> exact ih

/-! ### Every datagram is accounted for -/

theorem posted_len (h : (system cfg).Reachable d) :
    ∀ m ∈ d.network.posted, m.len = (cfg m.destination.other).dataSize := by
  apply System.Reachable.invariant (S := system cfg)
    (fun d => ∀ m ∈ d.network.posted, m.len = (cfg m.destination.other).dataSize) ?_ ?_ h
  · intro m hm
    exact absurd hm (Multiset.notMem_zero m)
  · intro d e d' ih hstep
    cases moves_of_step hstep with
    | process side e p hquiet hp =>
        rw [(d.network.postEach_eq _).1]
        intro m hm
        rcases Multiset.mem_add.mp hm with hm | hm
        · exact ih m hm
        · obtain ⟨hdestination, hlen⟩ := destination_of_issued (Multiset.mem_coe.mp hm)
          rw [hdestination, Side.other_other]
          exact hlen
    | receive side i j datagram flow p network hnetwork =>
        rw [(Network.deliver_some hnetwork).2.2.1]
        exact ih
    | lose datagram network hnetwork =>
        rw [(Network.lose_some hnetwork).2.2.1]
        exact ih
    | duplicate datagram network hnetwork =>
        rw [(Network.duplicate_some hnetwork).2.2.1]
        exact ih

/-- The calls on the instance of one shard. -/
abbrev sideLog (side : Side) (i : Fin (shards side)) (es : List (UdpExchangeEvent shards)) :
    List (ServiceEvent UdpEvent (Nat → Channels)) :=
  Process.log i (sideRun side es)

/-- Every datagram that a process counts has the size that the other one sends. -/
theorem bytes_of_read (h : (system cfg).exec (start cfg) es = some d) (side : Side)
    (i : Fin (shards side)) :
    ∀ f ∈ sideLog side i es, (udpReadReport (cfg side)).meter.bytes f =
      (cfg side.other).dataSize * (udpReadReport (cfg side)).meter.packets f := by
  apply System.exec_induction (S := system cfg) (motive := fun es _ =>
    ∀ f ∈ sideLog side i es, (udpReadReport (cfg side)).meter.bytes f =
      (cfg side.other).dataSize * (udpReadReport (cfg side)).meter.packets f)
    (fun f hf => by cases side <;> cases hf) ?_ h
  intro es d e d' hes ih hstep f hf
  rw [sideLog, sideRun_concat, Process.log, List.filterMap_append] at hf
  rcases List.mem_append.mp hf with hf | hf
  · exact ih f hf
  · obtain ⟨e', he', hf⟩ := List.mem_filterMap.mp hf
    rw [Option.mem_toList] at he'
    cases moves_of_step hstep with
    | process sender e p hquiet hp =>
        rcases eq_or_ne sender side with rfl | hne
        · rw [sideEvent_process] at he'
          obtain rfl := Option.some.inj he'
          cases f with
          | armTimer | run | stop => rfl
          | continuation g =>
              obtain rfl := Process.eq_continuation_of_onShard hf
              rcases g with ⟨j, (_ | _ | _) | (_ | _ | _)⟩ | _
              case flow.receive.received => cases hquiet
              all_goals rfl
        · rw [sideEvent_process_ne hne] at he'
          cases he'
    | receive receiver k j datagram flow p network hnetwork hflow hdestination =>
        rcases eq_or_ne receiver side with rfl | hne
        · rw [sideEvent_receive] at he'
          obtain rfl := Option.some.inj he'
          obtain ⟨-, hf⟩ := Option.ite_none_right_eq_some.mp hf
          cases hf
          have hposted := d.network.posted_of_inFlight (Network.deliver_some hnetwork).1
          have hlen := posted_len ⟨es, hes⟩ datagram hposted
          rw [hdestination] at hlen
          exact hlen.trans (Nat.mul_one _).symm
        · rw [sideEvent_receive_ne hne] at he'
          cases he'
    | lose | duplicate => cases side <;> cases he'

theorem bytes_of_write (config : UdpConfig) (f : ServiceEvent UdpEvent (Nat → Channels)) :
    (udpWriteReport config).meter.bytes f =
      config.dataSize * (udpWriteReport config).meter.packets f := by
  rcases f with _ | _ | _ | (⟨j, (_ | _ | _) | (_ | _ | _)⟩ | _) <;>
    first
      | rfl
      | exact (Nat.mul_one _).symm

/-- The two sides of a run, flow by flow, and the network between them. -/
structure Accounted (hmatched : Matched cfg shards) (es : List (UdpExchangeEvent shards))
    (d : UdpExchange shards) : Prop where
  /-- What the partner of a flow has sent is counted by the flow, has been lost or is still under
  way; what the flow has counted was sent by its partner. -/
  paired : ∀ side (g : (cfg side).Flow (shards side)),
    (sideRun side es).countP (Udp.receives g.1 g.2) + toFlow cfg side g d.network.lost +
        toFlow cfg side g d.network.inFlight =
      (sideRun side.other es).countP
          (Udp.sends (hmatched.partner side g).1 (hmatched.partner side g).2) +
        Udp.unconfirmedOf (d.process side.other) (hmatched.partner side g).1
          (hmatched.partner side g).2 + toFlow cfg side g d.network.duplicated
  received : ∀ side (i : Fin (shards side)),
    (udpReadReport (cfg side)).meter.Measures
        ((d.process side).shard i).devices.readMeasurements (sideLog side i es) ∧
      (udpReadReport (cfg side)).meter.totalPackets (sideLog side i es) =
        ∑ j : Fin (cfg side).connections.toNat, (sideRun side es).countP (Udp.receives i j)
  sent : ∀ side (i : Fin (shards side)),
    (udpWriteReport (cfg side)).meter.Measures
        ((d.process side).shard i).devices.writeMeasurements (sideLog side i es) ∧
      (udpWriteReport (cfg side)).meter.totalPackets (sideLog side i es) =
        ∑ j : Fin (cfg side).connections.toNat, (sideRun side es).countP (Udp.sends i j)
  received_size : ∀ side (i : Fin (shards side)),
    ∀ m ∈ ((d.process side).shard i).devices.readMeasurements.getHistory,
      m.gbits = MeasurementDevice.throughputInGbps
        (UInt64.ofNat (cfg side.other).dataSize * m.pps)
  sent_size : ∀ side (i : Fin (shards side)),
    ∀ m ∈ ((d.process side).shard i).devices.writeMeasurements.getHistory,
      m.gbits = MeasurementDevice.throughputInGbps (UInt64.ofNat (cfg side).dataSize * m.pps)

theorem totalPackets_read (h : (system cfg).exec (start cfg) es = some d) (side : Side)
    (i : Fin (shards side)) :
    (udpReadReport (cfg side)).meter.totalPackets (sideLog side i es) =
      ∑ j : Fin (cfg side).connections.toNat, (sideRun side es).countP (Udp.receives i j) :=
  Udp.totalPackets_log (by rintro ((_ | _ | _) | (_ | _ | _)) <;> rfl) ((projects_side side).exec h) i

theorem totalPackets_write (h : (system cfg).exec (start cfg) es = some d) (side : Side)
    (i : Fin (shards side)) :
    (udpWriteReport (cfg side)).meter.totalPackets (sideLog side i es) =
      ∑ j : Fin (cfg side).connections.toNat, (sideRun side es).countP (Udp.sends i j) :=
  Udp.totalPackets_log (by rintro ((_ | _ | _) | (_ | _ | _)) <;> rfl) ((projects_side side).exec h) i

theorem paired (hmatched : Matched cfg shards) (h : (system cfg).exec (start cfg) es = some d)
    (side : Side) (g : (cfg side).Flow (shards side)) :
    (sideRun side es).countP (Udp.receives g.1 g.2) + toFlow cfg side g d.network.lost +
        toFlow cfg side g d.network.inFlight =
      (sideRun side.other es).countP
          (Udp.sends (hmatched.partner side g).1 (hmatched.partner side g).2) +
        Udp.unconfirmedOf (d.process side.other) (hmatched.partner side g).1
          (hmatched.partner side g).2 + toFlow cfg side g d.network.duplicated := by
  have hconserved := d.network.conserved_countP fun m =>
    m.destination = side ∧ m.port = (cfg side).myPort g.1 g.2
  change toFlow cfg side g _ + toFlow cfg side g _ =
    toFlow cfg side g _ + toFlow cfg side g _ + toFlow cfg side g _ at hconserved
  have hposted := posted_toFlow hmatched side h g
  have hdelivered := delivered_toFlow hmatched side h g
  omega

/-- Every datagram of a run is accounted for, flow by flow, in both directions at once, whatever the
network does to it and whatever happens to the two processes. -/
theorem flows_accounted (hmatched : Matched cfg shards)
    (h : (system cfg).exec (start cfg) es = some d) : Accounted hmatched es d where
  paired := paired hmatched h
  received side i :=
    ⟨Process.measures (udpReadReport (cfg side)).metered ((projects_side side).exec h) i,
      totalPackets_read h side i⟩
  sent side i :=
    ⟨Process.measures (udpWriteReport (cfg side)).metered ((projects_side side).exec h) i,
      totalPackets_write h side i⟩
  received_size side i :=
    (Process.measures (udpReadReport (cfg side)).metered ((projects_side side).exec h) i).gbits_of_size
      (bytes_of_read h side i)
  sent_size side i :=
    (Process.measures (udpWriteReport (cfg side)).metered ((projects_side side).exec h) i).gbits_of_size
      fun f _ => bytes_of_write (cfg side) f

/-- A `udp_duplex` with one connection on each of two shards, and one with two on its only shard. -/
def splitConfig : Side → UdpConfig
  | .server => ⟨1, 1024, 2048, 64⟩
  | .client => ⟨2, 2048, 1024, 32⟩

def splitShards : Side → Nat
  | .server => 2
  | .client => 1

theorem splitMatched : Matched splitConfig splitShards where
  mirrored side := by cases side <;> exact ⟨rfl, rfl⟩
  flows side := by cases side <;> rfl
  fits side := by cases side <;> decide

/-- The client's two flows hear from one shard of the server each. The second datagram to the client
is duplicated; one copy is lost and the other, like the datagram to the server's first flow, is
received after the signals. -/
def splitRun : List (UdpExchangeEvent splitShards) :=
  let first : Fin 2 := ⟨0, by decide⟩
  let second : Fin 2 := ⟨1, by decide⟩
  let server (e : ProcessEvent 2 UdpEvent (Nat → Channels)) : UdpExchangeEvent splitShards :=
    .process .server e
  let client (e : ProcessEvent 1 UdpEvent (Nat → Channels)) : UdpExchangeEvent splitShards :=
    .process .client e
  [server (.reporterSet first true), server (.reporterSet second true), server .advance,
   server (.callRun first fun _ => .both), server (.callRun second fun _ => .both),
   client (.reporterSet shardZero true), client .advance, client (.callRun shardZero fun _ => .both),
   .receive .server second 0 ⟨.server, 2325, 32⟩,
   client (.continuation shardZero (.flow 1 (.send .sent))),
   server (.continuation second (.flow 0 (.send .sent))),
   .receive .client shardZero 0 ⟨.client, 3348, 64⟩,
   server (.continuation second (.tick ⟨1000, 1001⟩)),
   client (.continuation shardZero (.tick ⟨1000, 1001⟩)),
   .duplicate ⟨.client, 3349, 64⟩, .lose ⟨.client, 3349, 64⟩,
   server .signal, server (.exitStop first), server (.exitStop second),
   client .signal, client (.exitStop shardZero),
   .receive .server first 0 ⟨.server, 2324, 32⟩,
   .receive .client shardZero 1 ⟨.client, 3349, 64⟩,
   server (.continuation first (.flow 0 (.receive .top))),
   server (.continuation first (.flow 0 (.send .sent))),
   server (.continuation first (.flow 0 (.send .top))),
   server (.continuation second (.flow 0 (.receive .top))),
   server (.continuation second (.flow 0 (.send .top))),
   client (.continuation shardZero (.flow 0 (.receive .top))),
   client (.continuation shardZero (.flow 0 (.send .sent))),
   client (.continuation shardZero (.flow 0 (.send .top))),
   client (.continuation shardZero (.flow 1 (.receive .top))),
   client (.continuation shardZero (.flow 1 (.send .top))),
   server .advance, server (.snapshot first), server (.snapshot second), server .advance,
   client .advance, client (.snapshot shardZero), client .advance]

def afterSplit : UdpExchange splitShards :=
  ((system splitConfig).exec (start splitConfig) splitRun).get (by decide +kernel)

theorem split_accounted : Accounted splitMatched splitRun afterSplit :=
  flows_accounted splitMatched (Option.some_get _).symm

/-! ### The reports of the two processes -/

/-- The send of this flow has failed. -/
def sendFailed {n : Nat} (p : Process n UdpShard) (i : Fin n) (j : Nat) : Bool :=
  (p.shard i).flows.tasks[j]?.elim false (·.send = some .failed)

theorem unconfirmedOf_of_idle {n : Nat} {p : Process n UdpShard} {i : Fin n}
    (h : (p.shard i).Idle) (j : Nat) : Udp.unconfirmedOf p i j = (sendFailed p i j).toNat := by
  unfold Udp.unconfirmedOf sendFailed
  cases hflow : (p.shard i).flows.tasks[j]? with
  | none => rfl
  | some flow =>
      have hidle := h flow (List.mem_of_getElem? hflow)
      cases hsend : flow.send with
      | none => simp [Udp.unconfirmed, hsend]
      | some send =>
          cases send with
          | sending => simp [UdpFlow.running, SendLoop.finished, hsend] at hidle
          | top | stopped | failed => simp [Udp.unconfirmed, hsend]

/-- Once the histories have been read, no loop of the process is left behind. -/
theorem idle_of_reported {config : UdpConfig} {n : Nat} {p : Process n UdpShard}
    {us : List (ProcessEvent n UdpEvent (Nat → Channels))}
    (hbinds : (Udp.system config n).EachStep (Udp.BindsAll config) (Udp.start config n) us)
    (h : (Udp.system config n).exec (Udp.start config n) us = some p)
    (hstage : p.stage = .stop ∨ p.stage = .done) (i : Fin n) : (p.shard i).Idle := by
  have hpast : p.stage.afterRun = true := by
    rcases hstage with hstage | hstage <;> rw [hstage] <;> rfl
  obtain ⟨hspawned, hresolved⟩ := UdpShard.phases.ended_of_afterRun ⟨us, h⟩ hpast i
  have hconfined := Udp.confined_of_binds hbinds us (List.prefix_refl us) p h
  exact hconfined.1 i (hspawned.runFuture_iff.mpr hresolved)

theorem sum_counted {config : UdpConfig} {n : Nat} {p : Process n UdpShard}
    {us : List (ProcessEvent n UdpEvent (Nat → Channels))}
    (hbinds : (Udp.system config n).EachStep (Udp.BindsAll config) (Udp.start config n) us)
    (h : (Udp.system config n).exec (Udp.start config n) us = some p)
    (hstage : p.stage = .stop ∨ p.stage = .done) {r : ReportFile (udpService config)}
    (hr : r ∈ udpReports config) (hfits : ∀ i, r.counted i us < 2 ^ 64) :
    ((r.shardMeasurements p).flatten.map fun m => m.pps.toNat).sum + ∑ i, r.unreported i us =
      ∑ i, r.counted i us := by
  rw [r.sum_shardMeasurements h hstage hfits, ← Finset.sum_add_distrib]
  exact Finset.sum_congr rfl fun i _ => Benchmark.settled_udp hbinds h hstage hr

/-- Where both processes have reported and no bind has thrown, the packets that one of them reports
as read and those that the other reports as written differ by what the shards have counted since
their last ticks, by the sends that have failed and by what the network did. -/
theorem duplex_reports_balance (hmatched : Matched cfg shards)
    (h : (system cfg).exec (start cfg) es = some d)
    (hbinds : ∀ side, (Udp.system (cfg side) (shards side)).EachStep (Udp.BindsAll (cfg side))
      (Udp.start (cfg side) (shards side)) (sideRun side es))
    (hstage : ∀ side, (d.process side).stage = .stop ∨ (d.process side).stage = .done)
    (hfits : ∀ side, ∀ r ∈ udpReports (cfg side), ∀ i, r.counted i (sideRun side es) < 2 ^ 64)
    (side : Side) :
    (((udpReadReport (cfg side)).shardMeasurements (d.process side)).flatten.map
          fun m => m.pps.toNat).sum +
        ∑ i, (udpReadReport (cfg side)).unreported i (sideRun side es) +
        toFlows cfg shards side d.network.lost + toFlows cfg shards side d.network.inFlight =
      (((udpWriteReport (cfg side.other)).shardMeasurements (d.process side.other)).flatten.map
          fun m => m.pps.toNat).sum +
        ∑ i, (udpWriteReport (cfg side.other)).unreported i (sideRun side.other es) +
        ∑ g : (cfg side.other).Flow (shards side.other),
          (sendFailed (d.process side.other) g.1 g.2).toNat +
        toFlows cfg shards side d.network.duplicated := by
  have hread : udpReadReport (cfg side) ∈ udpReports (cfg side) := List.mem_cons_self
  have hwrite : udpWriteReport (cfg side.other) ∈ udpReports (cfg side.other) :=
    List.mem_cons_of_mem _ List.mem_cons_self
  have hreceived := sum_counted (hbinds side) ((projects_side side).exec h) (hstage side) hread
    (hfits side _ hread)
  have hsent := sum_counted (hbinds side.other) ((projects_side side.other).exec h)
    (hstage side.other) hwrite
    (hfits side.other _ hwrite)
  have hreceives : ∑ i, (udpReadReport (cfg side)).counted i (sideRun side es) =
      ∑ g : (cfg side).Flow (shards side), (sideRun side es).countP (Udp.receives g.1 g.2) := by
    rw [Fintype.sum_prod_type]
    exact Finset.sum_congr rfl fun i _ => totalPackets_read h side i
  have hsends : ∑ i, (udpWriteReport (cfg side.other)).counted i (sideRun side.other es) =
      ∑ g, (sideRun side.other es).countP
        (Udp.sends (hmatched.partner side g).1 (hmatched.partner side g).2) := by
    rw [Equiv.sum_comp (hmatched.partner side) fun g =>
      (sideRun side.other es).countP (Udp.sends g.1 g.2), Fintype.sum_prod_type]
    exact Finset.sum_congr rfl fun i _ => totalPackets_write h side.other i
  have hfailed : ∑ g, Udp.unconfirmedOf (d.process side.other) (hmatched.partner side g).1
        (hmatched.partner side g).2 =
      ∑ g : (cfg side.other).Flow (shards side.other),
        (sendFailed (d.process side.other) g.1 g.2).toNat := by
    rw [Equiv.sum_comp (hmatched.partner side) fun g =>
      Udp.unconfirmedOf (d.process side.other) g.1 g.2]
    refine Finset.sum_congr rfl fun g _ => unconfirmedOf_of_idle ?_ _
    exact idle_of_reported (hbinds side.other) ((projects_side side.other).exec h)
      (hstage side.other) g.1
  have hpaired := Finset.sum_congr (rfl : Finset.univ = Finset.univ) fun g _ =>
    paired hmatched h side g
  simp only [Finset.sum_add_distrib] at hpaired
  rw [hreceived, hreceives, hsent, hsends, ← hfailed]
  exact hpaired

/-- Of the two datagrams that the client of that run has received its report shows one, and of those
that the server has sent its report shows one. -/
theorem split_reports_balance :
    1 + 1 + toFlows splitConfig splitShards .client afterSplit.network.lost +
        toFlows splitConfig splitShards .client afterSplit.network.inFlight =
      1 + 1 + 0 + toFlows splitConfig splitShards .client afterSplit.network.duplicated := by
  have hbinds : ∀ side, (Udp.system (splitConfig side) (splitShards side)).EachStep
      (Udp.BindsAll (splitConfig side)) (Udp.start (splitConfig side) (splitShards side))
      (sideRun side splitRun) := by
    intro side
    cases side <;> decide +kernel
  have hstage : ∀ side, (afterSplit.process side).stage = .stop ∨
      (afterSplit.process side).stage = .done := by
    intro side
    cases side <;> exact Or.inl (by decide +kernel)
  have hfits : ∀ side, ∀ r ∈ udpReports (splitConfig side), ∀ i,
      r.counted i (sideRun side splitRun) < 2 ^ 64 := by
    intro side r hr
    cases side <;> rcases List.mem_pair.mp hr with rfl | rfl <;> decide +kernel
  have hread : (((udpReadReport (splitConfig .client)).shardMeasurements
      (afterSplit.process .client)).flatten.map fun m => m.pps.toNat).sum = 1 := by decide +kernel
  have hwritten : (((udpWriteReport (splitConfig .server)).shardMeasurements
      (afterSplit.process .server)).flatten.map fun m => m.pps.toNat).sum = 1 := by decide +kernel
  have hread' : ∑ i, (udpReadReport (splitConfig .client)).unreported i
      (sideRun .client splitRun) = 1 := by decide +kernel
  have hwritten' : ∑ i, (udpWriteReport (splitConfig .server)).unreported i
      (sideRun .server splitRun) = 1 := by decide +kernel
  have hfailed : ∑ g : (splitConfig .server).Flow (splitShards .server),
      (sendFailed (afterSplit.process .server) g.1 g.2).toNat = 0 := by decide +kernel
  have hrun : (system splitConfig).exec (start splitConfig) splitRun = some afterSplit :=
    (Option.some_get _).symm
  have hbalance := duplex_reports_balance splitMatched hrun hbinds hstage hfits .client
  rw [show Side.client.other = .server from rfl, hread, hread', hwritten, hwritten', hfailed]
    at hbalance
  exact hbalance

end UdpExchange

end SeastarExperiments
