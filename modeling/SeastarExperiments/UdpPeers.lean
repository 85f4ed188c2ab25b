import SeastarExperiments.Duplex
import SeastarExperiments.UdpShard

/-! Two `udp_duplex` processes over a network that loses and reorders datagrams. `stop()` sets the
interrupt flag of a shard and wakes nobody: a receive loop that is suspended in `receive` by then
ends only when one more datagram arrives. No send or receive fails with an I/O error here, but the
calls that make the sockets may throw. -/

namespace SeastarExperiments

open Transition

/-- A shard of one of the two processes. -/
abbrev Site (shards : Side → Nat) := (side : Side) × Fin (shards side)

structure Datagram where
  destination : Side
  port : UInt16
  len : Nat
  deriving DecidableEq

structure UdpPeers (shards : Side → Nat) where
  shard : Site shards → UdpShard
  /-- The shards on which `run_udp` has been called. -/
  called : Site shards → Bool
  /-- What has been sent and not been received: in flight, or queued at a socket. -/
  datagrams : List Datagram

inductive PeerEvent (shards : Side → Nat)
  | run (site : Site shards) (opened : Nat → Channels)
  | stop (site : Site shards)
  /-- The send loop of a flow is run once more, or its send completes. -/
  | sendTop (site : Site shards) (j : Nat)
  | sent (site : Site shards) (j : Nat)
  /-- The receive loop of a flow is run once more, or receives this one of the datagrams. -/
  | receiveTop (site : Site shards) (j : Nat)
  | received (site : Site shards) (j k : Nat)
  /-- This one of the datagrams is lost. -/
  | lose (k : Nat)

namespace PeerEvent

/-- The event is a step of a send or receive loop. -/
def isLoopStep {shards : Side → Nat} : PeerEvent shards → Bool
  | .sendTop _ _ => true
  | .sent _ _ => true
  | .receiveTop _ _ => true
  | .received _ _ _ => true
  | .run _ _ => false
  | .stop _ => false
  | .lose _ => false

end PeerEvent

namespace UdpPeers

variable {shards : Side → Nat}

def start : UdpPeers shards where
  shard site := { thisShardId := site.2 }
  called _ := false
  datagrams := []

/-- A continuation of one flow on one shard. -/
def stepFlow (cfg : Side → UdpConfig) (d : UdpPeers shards) (site : Site shards) (j : Nat)
    (e : FlowEvent) : Option (UdpPeers shards) :=
  ((d.shard site).step (cfg site.1) (.flow j e)).map fun s =>
    { d with shard := Function.update d.shard site s }

def step (cfg : Side → UdpConfig) (d : UdpPeers shards) :
    PeerEvent shards → Option (UdpPeers shards)
  | .run site opened =>
      if d.called site then none
      else some { d with
        called := Function.update d.called site true
        shard := Function.update d.shard site ((d.shard site).runUdp (cfg site.1) opened) }
  | .stop site => some { d with shard := Function.update d.shard site (d.shard site).stop }
  | .sendTop site j => d.stepFlow cfg site j (.send .top)
  | .sent site j => do
      let flow ← (d.shard site).flows.tasks[j]?
      let d ← d.stepFlow cfg site j (.send .sent)
      some { d with
        datagrams := d.datagrams ++ [⟨site.1.other, flow.otherPort, (cfg site.1).dataSize⟩] }
  | .receiveTop site j => d.stepFlow cfg site j (.receive .top)
  | .received site j k => do
      let datagram ← d.datagrams[k]?
      let flow ← (d.shard site).flows.tasks[j]?
      if datagram.destination = site.1 ∧ datagram.port = flow.myPort then
        let d ← d.stepFlow cfg site j (.receive (.received datagram.len))
        some { d with datagrams := d.datagrams.eraseIdx k }
      else none
  | .lose k =>
      if k < d.datagrams.length then some { d with datagrams := d.datagrams.eraseIdx k } else none

def system (cfg : Side → UdpConfig) : System (UdpPeers shards) (PeerEvent shards) where
  init := start
  step := step cfg

/-- Both peers are interrupted on every shard, the network is empty, and no loop can move. -/
structure Quiet (cfg : Side → UdpConfig) (d : UdpPeers shards) : Prop where
  interrupted : ∀ site, (d.shard site).interrupted = true
  empty : d.datagrams = []
  dry : ∀ e, e.isLoopStep = true → d.step cfg e = none

/-- The futures of all calls of `run_udp` have resolved. -/
def AllResolved (d : UdpPeers shards) : Prop :=
  ∀ site, d.called site = true → (d.shard site).runFuture = .resolved

/-- The receive loop of this flow is suspended in `receive`. -/
def Suspended (d : UdpPeers shards) (site : Site shards) (j : Nat) : Prop :=
  ∃ flow, (d.shard site).flows.tasks[j]? = some flow ∧ flow.receive = some .receiving

/-- Every receive loop that was suspended in `receive` when a `stop()` reached its shard was handed
a datagram afterwards. -/
def HandedAfterStop (cfg : Side → UdpConfig) (es : List (PeerEvent shards)) : Prop :=
  ∀ before site after, es = before ++ .stop site :: after →
    ∀ d, (system cfg).exec start before = some d →
      ∀ j, d.Suspended site j → ∃ k, .received site j k ∈ after

/-- A loop event with the flow that it moves. -/
inductive LoopStep : PeerEvent shards → Site shards → Nat → FlowEvent → Prop
  | sendTop (site : Site shards) (j : Nat) : LoopStep (.sendTop site j) site j (.send .top)
  | sent (site : Site shards) (j : Nat) : LoopStep (.sent site j) site j (.send .sent)
  | receiveTop (site : Site shards) (j : Nat) :
      LoopStep (.receiveTop site j) site j (.receive .top)
  | received (site : Site shards) (j k len : Nat) :
      LoopStep (.received site j k) site j (.receive (.received len))

theorem LoopStep.unique {e : PeerEvent shards} {site site' : Site shards} {j j' : Nat}
    {f f' : FlowEvent} (h : LoopStep e site j f) (h' : LoopStep e site' j' f') :
    site = site' ∧ j = j' := by
  cases h <;> cases h' <;> exact ⟨rfl, rfl⟩

/-- What a step of the two processes can be. -/
inductive Moves (cfg : Side → UdpConfig) (d : UdpPeers shards) :
    PeerEvent shards → UdpPeers shards → Prop
  | run (site : Site shards) (opened : Nat → Channels) (hcalled : d.called site = false) :
      Moves cfg d (.run site opened)
        { d with
          called := Function.update d.called site true
          shard := Function.update d.shard site ((d.shard site).runUdp (cfg site.1) opened) }
  | stop (site : Site shards) :
      Moves cfg d (.stop site)
        { d with shard := Function.update d.shard site (d.shard site).stop }
  | loop (e : PeerEvent shards) (site : Site shards) (j : Nat) (f : FlowEvent) (s : UdpShard)
      (datagrams : List Datagram) (hloop : LoopStep e site j f)
      (hstep : (udpService (cfg site.1)).step (d.shard site) (.flow j f) = some s) :
      Moves cfg d e { d with shard := Function.update d.shard site s, datagrams := datagrams }
  | lose (k : Nat) (hk : k < d.datagrams.length) :
      Moves cfg d (.lose k) { d with datagrams := d.datagrams.eraseIdx k }

variable {cfg : Side → UdpConfig} {d d' : UdpPeers shards} {es : List (PeerEvent shards)}

theorem stepFlow_some {site : Site shards} {j : Nat} {f : FlowEvent}
    (h : d.stepFlow cfg site j f = some d') :
    ∃ s, (udpService (cfg site.1)).step (d.shard site) (.flow j f) = some s ∧
      d' = { d with shard := Function.update d.shard site s } := by
  obtain ⟨s, hs, rfl⟩ := Option.map_eq_some_iff.mp h
  exact ⟨s, hs, rfl⟩

theorem moves_of_step {e : PeerEvent shards} (h : (system cfg).step d e = some d') :
    d.Moves cfg e d' := by
  change d.step cfg e = some d' at h
  cases e with
  | run site opened =>
      simp only [step] at h
      split at h
      · cases h
      · rename_i hcalled
        cases h
        exact .run site opened (by simpa using hcalled)
  | stop site =>
      cases h
      exact .stop site
  | sendTop site j =>
      obtain ⟨s, hs, rfl⟩ := stepFlow_some h
      exact .loop _ site j _ s d.datagrams (.sendTop site j) hs
  | receiveTop site j =>
      obtain ⟨s, hs, rfl⟩ := stepFlow_some h
      exact .loop _ site j _ s d.datagrams (.receiveTop site j) hs
  | sent site j =>
      simp only [step, Option.bind_eq_bind, Option.bind_eq_some_iff, Option.some.injEq] at h
      obtain ⟨flow, -, r, hr, rfl⟩ := h
      obtain ⟨s, hs, rfl⟩ := stepFlow_some hr
      exact .loop _ site j _ s _ (.sent site j) hs
  | received site j k =>
      simp only [step, Option.bind_eq_bind, Option.bind_eq_some_iff, Option.ite_none_right_eq_some,
        Option.some.injEq] at h
      obtain ⟨datagram, -, flow, -, -, r, hr, rfl⟩ := h
      obtain ⟨s, hs, rfl⟩ := stepFlow_some hr
      exact .loop _ site j _ s _ (.received site j k datagram.len) hs
  | lose k =>
      simp only [step, Option.ite_none_right_eq_some, Option.some.injEq] at h
      obtain ⟨hk, rfl⟩ := h
      exact .lose k hk

/-- What a step does on one shard: nothing, the call of `run_udp`, `stop()`, or a step of one flow. -/
theorem Moves.onSite {e : PeerEvent shards} (h : d.Moves cfg e d') (site : Site shards) :
    (d'.shard site = d.shard site ∧ d'.called site = d.called site ∧
      ∀ j f, ¬LoopStep e site j f) ∨
    (∃ opened, e = .run site opened ∧ d.called site = false ∧ d'.called site = true ∧
      d'.shard site = (d.shard site).runUdp (cfg site.1) opened) ∨
    (e = .stop site ∧ d'.called site = d.called site ∧ d'.shard site = (d.shard site).stop) ∨
    (∃ j f, LoopStep e site j f ∧ d'.called site = d.called site ∧
      (d.shard site).Moves (cfg site.1) (.flow j f) (d'.shard site)) := by
  cases h with
  | run site' opened hcalled =>
      by_cases hsite : site = site'
      · subst hsite
        exact Or.inr (Or.inl ⟨opened, rfl, hcalled, by simp, by simp⟩)
      · refine Or.inl ⟨by simp [Function.update_of_ne hsite], by simp [Function.update_of_ne hsite], ?_⟩
        intro j f hloop
        cases hloop
  | stop site' =>
      by_cases hsite : site = site'
      · subst hsite
        exact Or.inr (Or.inr (Or.inl ⟨rfl, rfl, by simp⟩))
      · refine Or.inl ⟨by simp [Function.update_of_ne hsite], rfl, ?_⟩
        intro j f hloop
        cases hloop
  | loop _ site' j f s datagrams hloop hstep =>
      by_cases hsite : site = site'
      · subst hsite
        refine Or.inr (Or.inr (Or.inr ⟨j, f, hloop, rfl, ?_⟩))
        simpa using UdpShard.moves_of_step hstep
      · refine Or.inl ⟨by simp [Function.update_of_ne hsite], rfl, ?_⟩
        intro j' f' hloop'
        exact hsite (hloop'.unique hloop).1
  | lose =>
      refine Or.inl ⟨rfl, rfl, ?_⟩
      intro j f hloop
      cases hloop

/-- A shard has its flows in the gate once `run_udp` has been called on it, and none before. -/
theorem spawned (h : (system cfg).Reachable d) (site : Site shards) :
    (d.called site = false → (d.shard site).flows = {}) ∧
      (d.called site = true → (d.shard site).Spawned (cfg site.1)) := by
  apply System.Reachable.invariant (fun d : UdpPeers shards =>
    (d.called site = false → (d.shard site).flows = {}) ∧
      (d.called site = true → (d.shard site).Spawned (cfg site.1))) ?_ ?_ h
  · exact ⟨fun _ => rfl, fun hcalled => by cases hcalled⟩
  · rintro d e d' ⟨hempty, hspawned⟩ hstep
    rcases (moves_of_step hstep).onSite site with ⟨hshard, hcalled, -⟩ |
      ⟨opened, -, hbefore, hafter, hshard⟩ | ⟨-, hcalled, hshard⟩ | ⟨j, f, -, hcalled, hmoves⟩
    · rw [hshard, hcalled]
      exact ⟨hempty, hspawned⟩
    · rw [hshard, hafter]
      exact ⟨fun hfalse => (by cases hfalse), fun _ => UdpShard.spawned_runUdp (hempty hbefore)⟩
    · rw [hshard, hcalled]
      refine ⟨hempty, fun h => ?_⟩
      have hs := hspawned h
      exact ⟨hs.entered, hs.never_refused, hs.closed, hs.balanced⟩
    · rw [hcalled]
      refine ⟨fun h => ?_, fun h => (hspawned h).moves hmoves⟩
      obtain ⟨flow, -, hold, -, -, -⟩ := hmoves.row
      rw [hempty h] at hold
      cases hold

/-- A flow's receive loop begins to wait only while its shard is not interrupted. -/
theorem receive_of_step {flow flow' : UdpFlow} {f : FlowEvent}
    (hstep : flow.step true f = some flow') (hreceive : flow'.receive = some .receiving) :
    flow.receive = some .receiving ∧ ∀ len, f ≠ .receive (.received len) := by
  cases f with
  | send f =>
      obtain ⟨old, new, -, -, rfl⟩ := UdpFlow.step_send_some hstep
      exact ⟨hreceive, by simp⟩
  | receive f =>
      obtain ⟨old, new, -, hnew, rfl⟩ := UdpFlow.step_receive_some hstep
      simp only [Option.some.injEq] at hreceive
      subst hreceive
      cases old <;> cases f <;> simp [ReceiveLoop.step, ReceiveLoop.body] at hnew

/-- Only a datagram takes a waiting receive loop out of its wait. -/
theorem receiving_of_step {flow flow' : UdpFlow} {interrupted : Bool} {f : FlowEvent}
    {e : PeerEvent shards} {site : Site shards} {j : Nat} (hloop : LoopStep e site j f)
    (hstep : flow.step interrupted f = some flow') (hreceive : flow.receive = some .receiving) :
    flow'.receive = some .receiving ∨ ∃ k, e = .received site j k := by
  cases hloop with
  | sendTop | sent =>
      obtain ⟨old, new, -, -, rfl⟩ := UdpFlow.step_send_some hstep
      exact Or.inl hreceive
  | receiveTop =>
      obtain ⟨old, new, hold, hnew, -⟩ := UdpFlow.step_receive_some hstep
      rw [hreceive] at hold
      cases hold
      cases hnew
  | received _ _ k => exact Or.inr ⟨k, rfl⟩

/-- On an interrupted shard a receive loop that waits after a step has waited before it, and the
step was no receipt of its own. -/
theorem suspended_before {e : PeerEvent shards} {site : Site shards} {j : Nat}
    (h : d.Moves cfg e d') (hempty : d.called site = false → (d.shard site).flows = {})
    (hne : e ≠ .stop site) (hflag : (d'.shard site).interrupted = true)
    (hsuspended : d'.Suspended site j) :
    (d.shard site).interrupted = true ∧ d.Suspended site j ∧ ∀ k, e ≠ .received site j k := by
  obtain ⟨flow, hflow, hreceive⟩ := hsuspended
  rcases h.onSite site with ⟨hshard, -, hquiet⟩ | ⟨opened, rfl, hbefore, -, hshard⟩ | ⟨hstop, -, -⟩ |
    ⟨i, f, hloop, -, hmoves⟩
  · rw [hshard] at hflag hflow
    refine ⟨hflag, ⟨flow, hflow, hreceive⟩, ?_⟩
    rintro k rfl
    exact hquiet j _ (.received site j k 0)
  · -- the flows of a call on an interrupted shard do not begin to wait
    exfalso
    rw [hshard] at hflag hflow
    change (d.shard site).interrupted = true at hflag
    rw [(UdpShard.runUdp_tasks _ opened (hempty hbefore)).1, UdpShard.startFlows,
      List.getElem?_map] at hflow
    obtain ⟨k, -, rfl⟩ := Option.map_eq_some_iff.mp hflow
    cases hopened : opened k <;>
      simp [UdpFlow.handleConnection, ReceiveLoop.body, hflag, hopened] at hreceive
  · exact absurd hstop hne
  · obtain ⟨old, new, hold, hstep, htasks, hsame⟩ := hmoves.row
    rw [hsame] at hflag
    rw [hflag] at hstep
    rw [htasks] at hflow
    by_cases hij : i = j
    · subst hij
      rw [Table.get_set_self hold] at hflow
      cases hflow
      obtain ⟨hbefore, hnot⟩ := receive_of_step hstep hreceive
      refine ⟨hflag, ⟨old, hold, hbefore⟩, ?_⟩
      rintro k rfl
      cases hloop with
      | received _ _ _ len => exact hnot len rfl
    · rw [List.getElem?_set_ne hij] at hflow
      refine ⟨hflag, ⟨flow, hflow, hreceive⟩, ?_⟩
      rintro k rfl
      exact hij (hloop.unique (.received site j k 0)).2

/-- A waiting receive loop waits on, until it receives a datagram. -/
theorem suspended_after {e : PeerEvent shards} {site : Site shards} {j : Nat}
    (h : d.Moves cfg e d') (hempty : d.called site = false → (d.shard site).flows = {})
    (hsuspended : d.Suspended site j) : d'.Suspended site j ∨ ∃ k, e = .received site j k := by
  obtain ⟨flow, hflow, hreceive⟩ := hsuspended
  rcases h.onSite site with ⟨hshard, -, -⟩ | ⟨opened, -, hbefore, -, -⟩ | ⟨-, -, hshard⟩ |
    ⟨i, f, hloop, -, hmoves⟩
  · left
    refine ⟨flow, ?_, hreceive⟩
    rw [hshard]
    exact hflow
  · rw [hempty hbefore] at hflow
    cases hflow
  · left
    refine ⟨flow, ?_, hreceive⟩
    rw [hshard]
    exact hflow
  · obtain ⟨old, new, hold, hstep, htasks, -⟩ := hmoves.row
    by_cases hij : i = j
    · subst hij
      rw [hflow] at hold
      cases hold
      refine (receiving_of_step hloop hstep hreceive).imp_left fun hnew => ⟨new, ?_, hnew⟩
      rw [htasks, Table.get_set_self hflow]
    · left
      refine ⟨flow, ?_, hreceive⟩
      rw [htasks, List.getElem?_set_ne hij]
      exact hflow

/-- A receive loop that waits on an interrupted shard has waited since a `stop()` and received
nothing. -/
theorem waited_since_stop (h : (system cfg).exec start es = some d) {site : Site shards} {j : Nat}
    (hflag : (d.shard site).interrupted = true) (hsuspended : d.Suspended site j) :
    ∃ before after t, es = before ++ .stop site :: after ∧
      (system cfg).exec start before = some t ∧ t.Suspended site j ∧
      ∀ k, .received site j k ∉ after := by
  refine System.exec_induction (S := system cfg) (motive := fun es d =>
    (d.shard site).interrupted = true → d.Suspended site j →
      ∃ before after t, es = before ++ .stop site :: after ∧
        (system cfg).exec start before = some t ∧ t.Suspended site j ∧
        ∀ k, .received site j k ∉ after) ?_ ?_ h hflag hsuspended
  · intro hflag
    cases hflag
  · intro es d e d' hexec ih hstep hflag hsuspended
    have hempty := (spawned ⟨es, hexec⟩ site).1
    have hmoves := moves_of_step hstep
    by_cases hstop : e = .stop site
    · subst hstop
      refine ⟨es, [], d, rfl, hexec, ?_, by simp⟩
      obtain ⟨flow, hflow, hreceive⟩ := hsuspended
      refine ⟨flow, ?_, hreceive⟩
      cases hmoves with
      | stop =>
          simp only [Function.update_self] at hflow
          exact hflow
      | loop _ _ _ _ _ _ hloop => cases hloop
    · obtain ⟨hbefore, hsuspended', hnot⟩ := suspended_before hmoves hempty hstop hflag hsuspended
      obtain ⟨before, after, t, rfl, ht, hwaits, hnone⟩ := ih hbefore hsuspended'
      refine ⟨before, after ++ [e], t, by simp, ht, hwaits, fun k hmem => ?_⟩
      rcases List.mem_append.mp hmem with hmem | hmem
      · exact hnone k hmem
      · exact hnot k (List.mem_singleton.mp hmem).symm

/-- A waiting receive loop still waits after a run in which it receives nothing. -/
theorem waits_on {t : UdpPeers shards} (hreach : (system cfg).Reachable t) {site : Site shards}
    {j : Nat} (hsuspended : t.Suspended site j) (hnone : ∀ k, .received site j k ∉ es)
    (h : (system cfg).exec t es = some d) : d.Suspended site j := by
  apply (System.exec_induction (S := system cfg) (motive := fun es d =>
    (∀ k, .received site j k ∉ es) → (system cfg).Reachable d ∧ d.Suspended site j)
    (fun _ => ⟨hreach, hsuspended⟩) ?_ h hnone).2
  intro es d e d' _ ih hstep hnone
  obtain ⟨hr, hs⟩ := ih fun k hmem => hnone k (List.mem_append_left _ hmem)
  refine ⟨hr.step hstep, ?_⟩
  rcases suspended_after (moves_of_step hstep) (spawned hr site).1 hs with hs' | ⟨k, rfl⟩
  · exact hs'
  · exact absurd (List.mem_append_right es (List.mem_singleton_self _)) (hnone k)

theorem step_of_stepFlow_none {site : Site shards} {j : Nat} {f : FlowEvent} {flow : UdpFlow}
    (hflow : (d.shard site).flows.tasks[j]? = some flow) (h : d.stepFlow cfg site j f = none) :
    flow.step (d.shard site).interrupted f = none :=
  UdpShard.step_flow_none hflow (Option.map_eq_none_iff.mp h)

/-- In a quiet state a flow is over unless its receive loop waits. -/
theorem Quiet.resolved_or_suspended (hquiet : d.Quiet cfg) {site : Site shards} {j : Nat}
    {flow : UdpFlow} (hflow : (d.shard site).flows.tasks[j]? = some flow) :
    flow.resolved = true ∨ flow.receive = some .receiving := by
  have hsendTop := step_of_stepFlow_none hflow (hquiet.dry (.sendTop site j) rfl)
  have hreceiveTop := step_of_stepFlow_none hflow (hquiet.dry (.receiveTop site j) rfl)
  have hsent : flow.step (d.shard site).interrupted (.send .sent) = none := by
    apply step_of_stepFlow_none hflow
    have hnone := hquiet.dry (.sent site j) rfl
    rw [Option.eq_none_iff_forall_ne_some]
    simpa [step, hflow] using hnone
  have hsend : flow.send.all SendLoop.finished = true := by
    cases hs : flow.send with
    | none => rfl
    | some send =>
        cases send with
        | top => simp [UdpFlow.step, SendLoop.step, hs] at hsendTop
        | sending => simp [UdpFlow.step, SendLoop.step, hs] at hsent
        | stopped | failed => rfl
  cases hreceive : flow.receive with
  | none =>
      left
      simp [UdpFlow.resolved, hreceive]
  | some receive =>
      cases hr : receive with
      | top =>
          subst hr
          simp [UdpFlow.step, ReceiveLoop.step, hreceive] at hreceiveTop
      | receiving => exact Or.inr rfl
      | stopped | failed =>
          left
          simp [UdpFlow.resolved, hreceive, hsend, hr, ReceiveLoop.finished]

/-- The loops of a state without datagrams are dry once every send loop is over and no receive loop
is about to be run once more. -/
theorem dry_of_loops (hempty : d.datagrams = [])
    (hloops : ∀ site, ∀ flow ∈ (d.shard site).flows.tasks,
      flow.send.all SendLoop.finished = true ∧ flow.receive ≠ some .top)
    {e : PeerEvent shards} (he : e.isLoopStep = true) : d.step cfg e = none := by
  rw [Option.eq_none_iff_forall_ne_some]
  intro d' hstep
  obtain ⟨site, j, f, s, hloop, hs⟩ : ∃ site j f s, LoopStep e site j f ∧
      (udpService (cfg site.1)).step (d.shard site) (.flow j f) = some s := by
    cases moves_of_step hstep with
    | loop _ site j f s _ hloop hs => exact ⟨site, j, f, s, hloop, hs⟩
    | run | stop | lose => cases he
  obtain ⟨flow, flow', hflow, hmove, -⟩ := (UdpShard.moves_of_step hs).row
  obtain ⟨hsend, hreceive⟩ := hloops site flow (List.mem_of_getElem? hflow)
  cases hloop with
  | sendTop | sent =>
      obtain ⟨old, new, hold, hnew, -⟩ := UdpFlow.step_send_some hmove
      rw [hold, Option.all_some, SendLoop.unfinished_of_step hnew] at hsend
      cases hsend
  | receiveTop =>
      obtain ⟨old, new, hold, hnew, -⟩ := UdpFlow.step_receive_some hmove
      cases old with
      | top => exact hreceive hold
      | receiving | stopped | failed => cases hnew
  | received _ _ k =>
      change d.step cfg (.received site j k) = some d' at hstep
      simp [step, hempty] at hstep

/-- In a quiet state all calls of `run_udp` have resolved exactly when no receive loop waits. -/
theorem Quiet.allResolved_iff (hreach : (system cfg).Reachable d) (hquiet : d.Quiet cfg) :
    d.AllResolved ↔ ∀ site j, ¬d.Suspended site j := by
  constructor
  · rintro hall site j ⟨flow, hflow, hreceive⟩
    obtain ⟨hempty, hspawned⟩ := spawned hreach site
    cases hcalled : d.called site with
    | false =>
        rw [hempty hcalled] at hflow
        cases hflow
    | true =>
        have hresolved := (hspawned hcalled).runFuture_iff.mp (hall site hcalled) flow
          (List.mem_of_getElem? hflow)
        simp [UdpFlow.resolved, hreceive, ReceiveLoop.finished] at hresolved
  · intro hnone site hcalled
    apply ((spawned hreach site).2 hcalled).runFuture_iff.mpr
    intro flow hmem
    obtain ⟨j, hflow⟩ := List.getElem?_of_mem hmem
    rcases hquiet.resolved_or_suspended hflow with hresolved | hreceive
    · exact hresolved
    · exact absurd ⟨flow, hflow, hreceive⟩ (hnone site j)

/-- In a run that ends quiet, all calls of `run_udp` have resolved exactly when every receive loop
that was waiting when `stop()` reached its shard was handed a datagram afterwards. -/
theorem resolved_iff_handed (h : (system cfg).exec start es = some d) (hquiet : d.Quiet cfg) :
    d.AllResolved ↔ HandedAfterStop cfg es := by
  have hreach : (system cfg).Reachable d := ⟨es, h⟩
  rw [hquiet.allResolved_iff hreach]
  constructor
  · rintro hnone before site after rfl t ht j hsuspended
    by_contra hlost
    push Not at hlost
    apply hnone site j (waits_on ⟨before, ht⟩ hsuspended ?_ (System.exec_after _ ht h))
    intro k hmem
    rcases List.mem_cons.mp hmem with hstop | hmem
    · cases hstop
    · exact hlost k hmem
  · intro hhanded site j hsuspended
    obtain ⟨before, after, t, rfl, ht, hwaits, hlost⟩ :=
      waited_since_stop h (hquiet.interrupted site) hsuspended
    obtain ⟨k, hmem⟩ := hhanded before site after rfl t ht j hwaits
    exact hlost k hmem

/-- The offsets of the two scripts and the default data size, one shard with one connection each. -/
def scriptConfig : Side → UdpConfig
  | .server => ⟨1, 1024, 2048, 64⟩
  | .client => ⟨1, 2048, 1024, 64⟩

/-- The shards of two processes with one shard each. -/
abbrev OneEach : Side → Nat := fun _ => 1

/-- Each peer sends one datagram, and both are stopped. -/
def stopBoth : List (PeerEvent OneEach) :=
  [.run ⟨.server, shardZero⟩ fun _ => .both, .run ⟨.client, shardZero⟩ fun _ => .both,
    .sent ⟨.server, shardZero⟩ 0, .sent ⟨.client, shardZero⟩ 0, .stop ⟨.server, shardZero⟩,
    .stop ⟨.client, shardZero⟩, .sendTop ⟨.server, shardZero⟩ 0, .sendTop ⟨.client, shardZero⟩ 0]

/-- Both datagrams arrive, and the receive loops leave. -/
def handedRun : List (PeerEvent OneEach) :=
  stopBoth ++ [.received ⟨.client, shardZero⟩ 0 0, .received ⟨.server, shardZero⟩ 0 0,
    .receiveTop ⟨.client, shardZero⟩ 0, .receiveTop ⟨.server, shardZero⟩ 0]

def afterHanded : UdpPeers OneEach :=
  ((system scriptConfig).exec start handedRun).get (by decide +kernel)

/-- Both datagrams are lost. -/
def lostRun : List (PeerEvent OneEach) := stopBoth ++ [.lose 0, .lose 0]

def afterLost : UdpPeers OneEach :=
  ((system scriptConfig).exec start lostRun).get (by decide +kernel)

theorem forall_site {P : Site OneEach → Prop} (hserver : P ⟨.server, shardZero⟩)
    (hclient : P ⟨.client, shardZero⟩) (site : Site OneEach) : P site := by
  obtain ⟨side, i⟩ := site
  obtain rfl : i = shardZero := Subsingleton.elim _ _
  cases side with
  | server => exact hserver
  | client => exact hclient

theorem quiet_afterHanded : afterHanded.Quiet scriptConfig where
  interrupted := forall_site (by decide +kernel) (by decide +kernel)
  empty := by decide +kernel
  dry _ := dry_of_loops (by decide +kernel) (forall_site (by decide +kernel) (by decide +kernel))

theorem quiet_afterLost : afterLost.Quiet scriptConfig where
  interrupted := forall_site (by decide +kernel) (by decide +kernel)
  empty := by decide +kernel
  dry _ := dry_of_loops (by decide +kernel) (forall_site (by decide +kernel) (by decide +kernel))

theorem resolved_iff_handed_handed : HandedAfterStop scriptConfig handedRun := by
  have hexec : (system scriptConfig).exec start handedRun = some afterHanded :=
    (Option.some_get _).symm
  apply (resolved_iff_handed hexec quiet_afterHanded).mp
  exact forall_site (fun _ => by decide +kernel) (fun _ => by decide +kernel)

theorem lost_datagrams_strand_receivers :
    ¬∀ d : UdpPeers OneEach, (system scriptConfig).Reachable d → d.Quiet scriptConfig →
      d.AllResolved := by
  intro hresolved
  have hreach : (system scriptConfig).Reachable afterLost := ⟨lostRun, (Option.some_get _).symm⟩
  have hserver := hresolved afterLost hreach quiet_afterLost ⟨.server, shardZero⟩ (by decide +kernel)
  have hpending : (afterLost.shard ⟨.server, shardZero⟩).runFuture = .pending := by decide +kernel
  rw [hpending] at hserver
  cases hserver

end UdpPeers

end SeastarExperiments
