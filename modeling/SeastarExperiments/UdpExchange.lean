import SeastarExperiments.BaseNetwork
import SeastarExperiments.MainChain
import SeastarExperiments.UdpPeers
import SeastarExperiments.UdpPorts

/-! Two whole `udp_duplex` processes over a network that loses, duplicates and reorders datagrams. A
datagram is on its way from the call of `channel.send` on: a send that a flow has issued is
unconfirmed until the flow counts it, or for ever when it fails. -/

namespace SeastarExperiments

open Transition

namespace FlowEvent

def isSent : FlowEvent → Bool
  | send .sent => true
  | _ => false

def isReceived : FlowEvent → Bool
  | receive (.received _) => true
  | _ => false

end FlowEvent

namespace Udp

/-! ### The datagrams of one process -/

variable {cfg : UdpConfig} {n : Nat} {p q : Process n UdpShard}

/-- The datagram of a send that is pending in this flow. -/
def sending (cfg : UdpConfig) (destination : Side) (flow : UdpFlow) : List Datagram :=
  match flow.send with
  | some .sending => [⟨destination, flow.otherPort, cfg.dataSize⟩]
  | _ => []

/-- What an event that has led to this state has handed to `channel.send`: the first turns of the
send loops run in the call of `run_udp`. -/
def issued (cfg : UdpConfig) (destination : Side) (p : Process n UdpShard) :
    ProcessEvent n UdpEvent (Nat → Channels) → List Datagram
  | .callRun i _ => (p.shard i).flows.tasks.flatMap (sending cfg destination)
  | .continuation i (.flow j (.send .top)) =>
      ((p.shard i).flows.tasks[j]?).elim [] (sending cfg destination)
  | _ => []

/-- The event is a continuation of this flow, of this kind. -/
def ofFlow (kind : FlowEvent → Bool) (i : Fin n) (j : Nat) :
    ProcessEvent n UdpEvent (Nat → Channels) → Bool
  | .continuation k (.flow l f) => k = i && (l = j && kind f)
  | _ => false

/-- The event counts a packet that this flow has sent. -/
def sends (i : Fin n) (j : Nat) : ProcessEvent n UdpEvent (Nat → Channels) → Bool :=
  ofFlow FlowEvent.isSent i j

/-- The event counts a packet that this flow has received. -/
def receives (i : Fin n) (j : Nat) : ProcessEvent n UdpEvent (Nat → Channels) → Bool :=
  ofFlow FlowEvent.isReceived i j

/-- The event resolves a pending `receive`. -/
def resolvesReceive : ProcessEvent n UdpEvent (Nat → Channels) → Bool
  | .continuation _ (.flow _ (.receive (.received _))) => true
  | _ => false

/-- The sends that have been issued in this flow and not been counted: one that is pending, or one
that has failed. -/
def unconfirmed (flow : UdpFlow) : Nat :=
  match flow.send with
  | some .sending => 1
  | some .failed => 1
  | _ => 0

/-- The same of a flow that may not be there yet. -/
def unconfirmedOf (p : Process n UdpShard) (i : Fin n) (j : Nat) : Nat :=
  ((p.shard i).flows.tasks[j]?).elim 0 unconfirmed

end Udp

/-! ### The account of one flow -/

namespace Udp

variable {cfg : UdpConfig} {n : Nat} {p q : Process n UdpShard} {destination : Side}

theorem mem_sending {flow : UdpFlow} {m : Datagram} (h : m ∈ sending cfg destination flow) :
    m = ⟨destination, flow.otherPort, cfg.dataSize⟩ := by
  unfold sending at h
  split at h
  · exact List.mem_singleton.mp h
  · cases h

/-- What this event has issued in this flow. -/
def issuedIn (cfg : UdpConfig) (destination : Side) (p : Process n UdpShard) (i : Fin n) (j : Nat) :
    ProcessEvent n UdpEvent (Nat → Channels) → List Datagram
  | .callRun k _ =>
      if k = i then ((p.shard i).flows.tasks[j]?).elim [] (sending cfg destination) else []
  | .continuation k (.flow l (.send .top)) =>
      if k = i ∧ l = j then ((p.shard i).flows.tasks[j]?).elim [] (sending cfg destination) else []
  | _ => []

/-- While there are no more flows than ports, each of them sends to a port of its own. -/
theorem otherPort_inj (hfit : n * cfg.connections.toNat ≤ 65536) {i k : Fin n} {j l : Nat}
    (hl : l < cfg.connections.toNat) (hj : j < cfg.connections.toNat) :
    cfg.otherPort k l = cfg.otherPort i j ↔ k = i ∧ l = j := by
  have hdestination (f g : cfg.Flow n) :
      cfg.destinationPort n f = cfg.destinationPort n g ↔ f = g := by
    have hf := (UdpConfig.number f).isLt
    have hg := (UdpConfig.number g).isLt
    rw [UdpConfig.destinationPort_eq, UdpConfig.destinationPort_eq,
      UdpConfig.shifted_inj (by omega) (by omega), ← Fin.ext_iff,
      UdpConfig.number_injective.eq_iff]
  exact (hdestination (k, ⟨l, hl⟩) (i, ⟨j, hj⟩)).trans (by simp)

/-- The datagrams to the port of a flow are those of the flow. -/
theorem countP_issued {e : ProcessEvent n UdpEvent (Nat → Channels)}
    (hreach : (system cfg n).Reachable p) (hfit : n * cfg.connections.toNat ≤ 65536)
    {i : Fin n} {j : Nat} (hj : j < cfg.connections.toNat) :
    (issued cfg destination p e).countP (fun m => m.port = cfg.otherPort i j) =
      (issuedIn cfg destination p i j e).length := by
  have hport {k : Fin n} {l : Nat} {flow : UdpFlow} {m : Datagram}
      (hflow : (p.shard k).flows.tasks[l]? = some flow) (hm : m ∈ sending cfg destination flow) :
      m.port = cfg.otherPort i j ↔ k = i ∧ l = j := by
    obtain ⟨hl, -, hother⟩ := flow_ports hreach hflow
    rw [mem_sending hm, hother, otherPort_inj hfit hl hj]
  cases e with
  | callRun k opened =>
      by_cases hki : k = i
      · subst hki
        rw [issuedIn, if_pos rfl]
        apply Table.countP_flatMap_eq
        intro l flow hflow m hm
        simpa using hport hflow hm
      · rw [issuedIn, if_neg hki]
        apply List.countP_eq_zero.mpr
        intro m hm hp
        obtain ⟨flow, hmem, hm⟩ := List.mem_flatMap.mp hm
        obtain ⟨l, hflow⟩ := List.getElem?_of_mem hmem
        exact hki ((hport hflow hm).mp (by simpa using hp)).1
  | continuation k e =>
      rcases e with ⟨l, (_ | _ | _) | _⟩ | _
      · show List.countP _ (((p.shard k).flows.tasks[l]?).elim [] (sending cfg destination)) = _
        cases hflow : (p.shard k).flows.tasks[l]? with
        | none =>
            rw [issuedIn]
            split
            · rename_i hsame
              rw [← hsame.1, ← hsame.2, hflow]
              rfl
            · rfl
        | some flow =>
            rw [issuedIn, Option.elim_some]
            by_cases hsame : k = i ∧ l = j
            · obtain ⟨rfl, rfl⟩ := hsame
              rw [if_pos ⟨rfl, rfl⟩, hflow, Option.elim_some]
              apply List.countP_eq_length.mpr
              intro m hm
              simpa using (hport hflow hm).mpr ⟨rfl, rfl⟩
            · rw [if_neg hsame]
              apply List.countP_eq_zero.mpr
              intro m hm hp
              exact hsame ((hport hflow hm).mp (by simpa using hp))
      all_goals rfl
  | reporterSet | snapshot | mainStop | advance | signal | exitStop => rfl

theorem flow_step_balance (cfg : UdpConfig) (destination : Side) {flow flow' : UdpFlow}
    {interrupted : Bool} {f : FlowEvent} (h : flow.step interrupted f = some flow') :
    (if f = .send .top then (sending cfg destination flow').length else 0) + unconfirmed flow =
      (if f = .send .sent then 1 else 0) + unconfirmed flow' := by
  cases f with
  | send f =>
      obtain ⟨old, new, hold, hnew, rfl⟩ := UdpFlow.step_send_some h
      cases old with
      | top =>
          cases f with
          | top =>
              cases hnew
              cases interrupted <;> simp [sending, unconfirmed, hold, SendLoop.body]
          | sent | failed => cases hnew
      | sending =>
          cases f with
          | top => cases hnew
          | sent | failed =>
              cases hnew
              simp [unconfirmed, hold]
      | stopped | failed => cases f <;> cases hnew
  | receive f =>
      obtain ⟨old, new, -, -, rfl⟩ := UdpFlow.step_receive_some h
      simp [unconfirmed]

theorem flows_update {s : UdpShard} {k : Fin n} (h : s.flows = (p.shard k).flows) (i : Fin n) :
    (Function.update p.shard k s i).flows = (p.shard i).flows := by
  by_cases hik : i = k
  · rw [hik, Function.update_self, h]
  · rw [Function.update_of_ne hik]

/-- The flows that `run_udp` starts have issued what they have not confirmed. -/
theorem started_balance (cfg : UdpConfig) (destination : Side) {s : UdpShard}
    (hempty : s.flows = {}) (opened : Nat → Channels) (j : Nat) :
    (((s.runUdp cfg opened).flows.tasks[j]?).elim [] (sending cfg destination)).length =
      ((s.runUdp cfg opened).flows.tasks[j]?).elim 0 unconfirmed := by
  rw [(UdpShard.runUdp_tasks cfg opened hempty).1, UdpShard.startFlows, List.getElem?_map]
  cases (List.range cfg.connections.toNat)[j]? with
  | none => rfl
  | some k =>
      show List.length (sending cfg destination (UdpFlow.handleConnection _ _ _ (opened k))) =
        unconfirmed (UdpFlow.handleConnection _ _ _ (opened k))
      cases opened k <;> cases s.interrupted <;> rfl

/-- A send is issued in a flow, then it is unconfirmed, and then it is counted or has failed. -/
theorem issued_step (destination : Side) {e : ProcessEvent n UdpEvent (Nat → Channels)}
    (hreach : (system cfg n).Reachable p) (hstep : (system cfg n).step p e = some q)
    (i : Fin n) (j : Nat) :
    (issuedIn cfg destination q i j e).length + unconfirmedOf p i j =
      (sends i j e).toNat + unconfirmedOf q i j := by
  have hsame (h : (q.shard i).flows = (p.shard i).flows) :
      unconfirmedOf p i j = unconfirmedOf q i j := by
    rw [unconfirmedOf, unconfirmedOf, h]
  cases Process.moves_of_step hstep with
  | armed k | mainStop k | exitStop k =>
      rw [hsame (flows_update (by rfl) i)]
      rfl
  | notArmed | snapshot | goOn | giveUp | signal =>
      rw [hsame rfl]
      rfl
  | callRun k opened hstage hcalled =>
      by_cases hki : k = i
      · subst hki
        have hempty := UdpShard.phases.before hreach (i := k) (Or.inr ⟨hstage, hcalled⟩)
        have hnone : unconfirmedOf p k j = 0 := by
          rw [unconfirmedOf, hempty]
          rfl
        have hstarted := started_balance cfg destination hempty opened j
        rw [hnone, issuedIn, if_pos rfl, unconfirmedOf]
        simp only [Function.update_self]
        exact hstarted.trans (Nat.zero_add _).symm
      · rw [hsame (by simp [Function.update_of_ne (Ne.symm hki)]), issuedIn, if_neg hki]
        rfl
  | continuation k e s hs =>
      by_cases hki : k = i
      · subst hki
        have hmoves : (p.shard k).Moves cfg e s := UdpShard.moves_of_step hs
        cases e with
        | tick now =>
            cases hmoves with
            | tick =>
                rw [hsame (flows_update (by rfl) k)]
                rfl
        | flow l f =>
            obtain ⟨flow, flow', hold, hflow, htasks, -⟩ := hmoves.row
            have hbalance := flow_step_balance cfg destination hflow
            by_cases hlj : l = j
            · subst hlj
              have hbefore : unconfirmedOf p k l = unconfirmed flow := by
                rw [unconfirmedOf, hold]
                rfl
              have hrow : s.flows.tasks[l]? = some flow' := by rw [htasks, Table.get_set_self hold]
              rw [hbefore, unconfirmedOf]
              simp only [Function.update_self, hrow]
              rcases f with (_ | _ | _) | _ <;>
                simpa [issuedIn, sends, ofFlow, FlowEvent.isSent, hrow] using hbalance
            · have hrow : s.flows.tasks[j]? = (p.shard k).flows.tasks[j]? := by
                rw [htasks, List.getElem?_set_ne hlj]
              rw [unconfirmedOf, unconfirmedOf]
              simp only [Function.update_self, hrow]
              rcases f with (_ | _ | _) | _ <;> simp [issuedIn, sends, ofFlow, hlj]
      · rw [hsame (by simp [Function.update_of_ne (Ne.symm hki)])]
        rcases e with ⟨l, (_ | _ | _) | _⟩ | _ <;> simp [issuedIn, sends, ofFlow, hki]

end Udp

structure UdpExchange (shards : Side → Nat) where
  process : (side : Side) → Process (shards side) UdpShard
  network : Network Datagram := {}

inductive UdpExchangeEvent (shards : Side → Nat)
  | process (side : Side) (e : ProcessEvent (shards side) UdpEvent (Nat → Channels))
  /-- A flow of this process receives this datagram. -/
  | receive (side : Side) (i : Fin (shards side)) (j : Nat) (datagram : Datagram)
  | lose (datagram : Datagram)
  | duplicate (datagram : Datagram)

namespace UdpExchange

variable {shards : Side → Nat} (cfg : Side → UdpConfig)

def start : UdpExchange shards where
  process side := Udp.start (cfg side) (shards side)

/-- A step of one of the two processes. -/
def stepProcess (d : UdpExchange shards) (side : Side)
    (e : ProcessEvent (shards side) UdpEvent (Nat → Channels)) : Option (UdpExchange shards) :=
  ((d.process side).step (udpService (cfg side)) e).map fun p =>
    { process := Function.update d.process side p
      network := d.network.postEach (Udp.issued (cfg side) side.other p e) }

def step (d : UdpExchange shards) : UdpExchangeEvent shards → Option (UdpExchange shards)
  | .process side e => if Udp.resolvesReceive e then none else d.stepProcess cfg side e
  | .receive side i j datagram => do
      let network ← d.network.deliver datagram
      let flow ← ((d.process side).shard i).flows.tasks[j]?
      if datagram.destination = side ∧ datagram.port = flow.myPort then
        stepProcess cfg { d with network } side
          (.continuation i (.flow j (.receive (.received datagram.len))))
      else none
  | .lose datagram => (d.network.lose datagram).map fun network => { d with network }
  | .duplicate datagram => (d.network.duplicate datagram).map fun network => { d with network }

def system : System (UdpExchange shards) (UdpExchangeEvent shards) where
  init := start cfg
  step := step cfg

variable {cfg} {d d' : UdpExchange shards} {es : List (UdpExchangeEvent shards)}

/-- What a step can be. -/
inductive Moves (cfg : Side → UdpConfig) (d : UdpExchange shards) :
    UdpExchangeEvent shards → UdpExchange shards → Prop
  | process (side : Side) (e : ProcessEvent (shards side) UdpEvent (Nat → Channels))
      (p : Process (shards side) UdpShard) (hquiet : Udp.resolvesReceive e = false)
      (hstep : (Udp.system (cfg side) (shards side)).step (d.process side) e = some p) :
      Moves cfg d (.process side e)
        { process := Function.update d.process side p
          network := d.network.postEach (Udp.issued (cfg side) side.other p e) }
  | receive (side : Side) (i : Fin (shards side)) (j : Nat) (datagram : Datagram) (flow : UdpFlow)
      (p : Process (shards side) UdpShard) (network : Network Datagram)
      (hnetwork : d.network.deliver datagram = some network)
      (hflow : ((d.process side).shard i).flows.tasks[j]? = some flow)
      (hdestination : datagram.destination = side) (hport : datagram.port = flow.myPort)
      (hstep : (Udp.system (cfg side) (shards side)).step (d.process side)
        (.continuation i (.flow j (.receive (.received datagram.len)))) = some p) :
      Moves cfg d (.receive side i j datagram)
        { process := Function.update d.process side p, network := network }
  | lose (datagram : Datagram) (network : Network Datagram)
      (hnetwork : d.network.lose datagram = some network) :
      Moves cfg d (.lose datagram) { d with network }
  | duplicate (datagram : Datagram) (network : Network Datagram)
      (hnetwork : d.network.duplicate datagram = some network) :
      Moves cfg d (.duplicate datagram) { d with network }

theorem moves_of_step {e : UdpExchangeEvent shards} (h : (system cfg).step d e = some d') :
    d.Moves cfg e d' := by
  change d.step cfg e = some d' at h
  cases e with
  | process side e =>
      obtain ⟨hquiet, h⟩ := Option.ite_none_left_eq_some.mp h
      obtain ⟨p, hp, rfl⟩ := Option.map_eq_some_iff.mp h
      exact .process side e p (by simpa using hquiet) hp
  | receive side i j datagram =>
      simp only [step, Option.bind_eq_bind, Option.bind_eq_some_iff,
        Option.ite_none_right_eq_some] at h
      obtain ⟨network, hnetwork, flow, hflow, ⟨hdestination, hport⟩, h⟩ := h
      obtain ⟨p, hp, rfl⟩ := Option.map_eq_some_iff.mp h
      exact .receive side i j datagram flow p network hnetwork hflow hdestination hport hp
  | lose datagram =>
      obtain ⟨network, hnetwork, rfl⟩ := Option.map_eq_some_iff.mp h
      exact .lose datagram network hnetwork
  | duplicate datagram =>
      obtain ⟨network, hnetwork, rfl⟩ := Option.map_eq_some_iff.mp h
      exact .duplicate datagram network hnetwork

/-- The step of one of the processes that a step is. -/
def sideEvent : (side : Side) → UdpExchangeEvent shards →
    Option (ProcessEvent (shards side) UdpEvent (Nat → Channels))
  | .server, .process .server e => some e
  | .client, .process .client e => some e
  | .server, .receive .server i j datagram =>
      some (.continuation i (.flow j (.receive (.received datagram.len))))
  | .client, .receive .client i j datagram =>
      some (.continuation i (.flow j (.receive (.received datagram.len))))
  | _, _ => none

theorem projects_side (side : Side) : (system cfg).Projects (Udp.system (cfg side) (shards side))
    (fun d : UdpExchange shards => d.process side) (sideEvent side) where
  init := rfl
  step d e d' hstep := by
    cases moves_of_step hstep with
    | process side' e p _ hp =>
        cases side <;> cases side' <;> first
          | exact (System.exec_singleton _ _ _).trans hp
          | rfl
    | receive side' i j datagram flow p network _ _ _ _ hp =>
        cases side <;> cases side' <;> first
          | exact (System.exec_singleton _ _ _).trans hp
          | rfl
    | lose | duplicate => cases side <;> rfl

theorem sideEvent_process (side : Side) (e : ProcessEvent (shards side) UdpEvent (Nat → Channels)) :
    sideEvent side (.process side e) = some e := by cases side <;> rfl

theorem sideEvent_process_ne {side side' : Side} (h : side' ≠ side)
    (e : ProcessEvent (shards side') UdpEvent (Nat → Channels)) :
    sideEvent side (.process side' e) = none := by
  cases side <;> cases side' <;> first
    | exact absurd rfl h
    | rfl

theorem sideEvent_receive (side : Side) (i : Fin (shards side)) (j : Nat) (datagram : Datagram) :
    sideEvent side (.receive side i j datagram) =
      some (.continuation i (.flow j (.receive (.received datagram.len)))) := by cases side <;> rfl

theorem sideEvent_receive_ne {side side' : Side} (h : side' ≠ side) (i : Fin (shards side'))
    (j : Nat) (datagram : Datagram) : sideEvent side (.receive side' i j datagram) = none := by
  cases side <;> cases side' <;> first
    | exact absurd rfl h
    | rfl

/-- The run of one of the processes. -/
abbrev sideRun (side : Side) (es : List (UdpExchangeEvent shards)) :
    List (ProcessEvent (shards side) UdpEvent (Nat → Channels)) :=
  es.filterMap (sideEvent side)

theorem sideRun_concat (side : Side) (es : List (UdpExchangeEvent shards))
    (e : UdpExchangeEvent shards) :
    sideRun side (es ++ [e]) = sideRun side es ++ (sideEvent side e).toList := by
  rw [sideRun, List.filterMap_append, List.filterMap_cons, List.filterMap_nil]
  cases sideEvent side e <;> rfl

end UdpExchange

end SeastarExperiments
