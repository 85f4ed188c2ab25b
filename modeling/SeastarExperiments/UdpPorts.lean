import Mathlib.Data.Fintype.Prod
import Mathlib.Logic.Equiv.Fin.Basic
import SeastarExperiments.Duplex
import SeastarExperiments.UdpProcess

/-! The ports of `udp_duplex`. The flows of a process are numbered row by row, shard after shard, and
a flow's port is its number shifted by the start port and an offset, modulo 2^16. Two processes with
swapped offsets pair their flows by these numbers; two of them on one host share the ports where
their two ranges overlap. -/

namespace SeastarExperiments

open Transition

namespace UdpConfig

variable (cfg : UdpConfig) (shards : Nat)

/-- The flows of a process: a connection on a shard. -/
abbrev Flow := Fin shards × Fin cfg.connections.toNat

/-- The port a flow binds. -/
def boundPort (f : cfg.Flow shards) : UInt16 := cfg.myPort f.1 f.2

/-- The port a flow sends to. -/
def destinationPort (f : cfg.Flow shards) : UInt16 := cfg.otherPort f.1 f.2

variable {cfg shards}

/-- The number of a flow, row by row. -/
def number (f : cfg.Flow shards) : Fin (shards * cfg.connections.toNat) := finProdFinEquiv f

theorem number_val (f : cfg.Flow shards) :
    (number f : Nat) = f.1 * cfg.connections.toNat + f.2 := by
  show (f.2 : Nat) + cfg.connections.toNat * f.1 = _
  rw [Nat.mul_comm, Nat.add_comm]

theorem number_injective : Function.Injective (number : cfg.Flow shards → _) :=
  finProdFinEquiv.injective

/-- The 32-bit product and sum wrap at a multiple of 2^16, so that only the truncation shows. -/
theorem targetPort_eq (cfg : UdpConfig) (thisShardId i : Nat) :
    cfg.targetPort thisShardId i =
      UInt16.ofNat (1300 + (thisShardId * cfg.connections.toNat + i)) := by
  have hstart : startPort.toUInt16 = UInt16.ofNat 1300 := rfl
  rw [targetPort, UInt32.toUInt16_add, UInt32.toUInt16_add, UInt32.toUInt16_mul,
    UInt32.toUInt16_ofNat', UInt32.toUInt16_ofNat', UInt16.toUInt16_toUInt32, hstart,
    UInt16.ofNat_add, UInt16.ofNat_add, UInt16.ofNat_mul, UInt16.ofNat_toNat, UInt16.add_assoc]

theorem boundPort_eq (f : cfg.Flow shards) :
    cfg.boundPort shards f = UInt16.ofNat (1300 + number f + cfg.myPortOffset.toNat) := by
  rw [boundPort, myPort, targetPort_eq, ← number_val, UInt16.ofNat_add (1300 + _),
    UInt16.ofNat_toNat]

theorem destinationPort_eq (f : cfg.Flow shards) :
    cfg.destinationPort shards f = UInt16.ofNat (1300 + number f + cfg.otherPortOffset.toNat) := by
  rw [destinationPort, otherPort, targetPort_eq, ← number_val, UInt16.ofNat_add (1300 + _),
    UInt16.ofNat_toNat]

/-- Two numbers below 2^16 that are shifted alike wrap to the same port only if they are equal. -/
theorem shifted_inj {start a b offset : Nat} (ha : a < 65536) (hb : b < 65536) :
    UInt16.ofNat (start + a + offset) = UInt16.ofNat (start + b + offset) ↔ a = b := by
  constructor
  · intro h
    have hmod := congrArg UInt16.toNat h
    rw [UInt16.toNat_ofNat', UInt16.toNat_ofNat'] at hmod
    omega
  · rintro rfl
    rfl

/-- No two flows of a process bind one port exactly when there are no more flows than ports. -/
theorem boundPort_injective_iff (cfg : UdpConfig) (shards : Nat) :
    Function.Injective (cfg.boundPort shards) ↔ shards * cfg.connections.toNat ≤ 65536 := by
  constructor
  · intro hinjective
    have hfin : Function.Injective fun f : cfg.Flow shards => (cfg.boundPort shards f).toFin := by
      intro f g hfg
      exact hinjective (UInt16.toFin_inj.mp hfg)
    have hcard := Fintype.card_le_of_injective _ hfin
    rw [Fintype.card_prod, Fintype.card_fin, Fintype.card_fin, Fintype.card_fin] at hcard
    exact hcard
  · intro hfit f g hfg
    rw [boundPort_eq, boundPort_eq] at hfg
    have hf := (number f).isLt
    have hg := (number g).isLt
    exact number_injective (Fin.ext ((shifted_inj (by omega) (by omega)).mp hfg))

/-- The two processes send to each other's ports. -/
structure Mirrored (cfg other : UdpConfig) : Prop where
  mine : cfg.myPortOffset = other.otherPortOffset
  theirs : cfg.otherPortOffset = other.myPortOffset

/-- The flows of two processes that have equally many, paired by their numbers. -/
def counterpart {other : UdpConfig} {otherShards : Nat}
    (h : shards * cfg.connections.toNat = otherShards * other.connections.toNat) :
    cfg.Flow shards ≃ other.Flow otherShards :=
  finProdFinEquiv.trans ((finCongr h).trans finProdFinEquiv.symm)

theorem number_counterpart {other : UdpConfig} {otherShards : Nat}
    (h : shards * cfg.connections.toNat = otherShards * other.connections.toNat)
    (f : cfg.Flow shards) : (number (counterpart h f) : Nat) = number f := by
  show (finProdFinEquiv (finProdFinEquiv.symm (finCongr h (finProdFinEquiv f))) : Nat) = _
  rw [Equiv.apply_symm_apply]
  rfl

theorem Mirrored.sends_to {other : UdpConfig} (hmirrored : cfg.Mirrored other) {otherShards : Nat}
    (h : shards * cfg.connections.toNat = otherShards * other.connections.toNat)
    (hfit : shards * cfg.connections.toNat ≤ 65536) (f : cfg.Flow shards)
    (g : other.Flow otherShards) :
    other.boundPort otherShards g = cfg.destinationPort shards f ↔ g = counterpart h f := by
  have hf := (number f).isLt
  have hg := (number g).isLt
  rw [boundPort_eq, destinationPort_eq, hmirrored.theirs, shifted_inj (by omega) (by omega),
    ← number_counterpart h, ← Fin.ext_iff, number_injective.eq_iff]

theorem Mirrored.sends_back {other : UdpConfig} (hmirrored : cfg.Mirrored other) {otherShards : Nat}
    (h : shards * cfg.connections.toNat = otherShards * other.connections.toNat)
    (f : cfg.Flow shards) :
    other.destinationPort otherShards (counterpart h f) = cfg.boundPort shards f := by
  rw [boundPort_eq, destinationPort_eq, hmirrored.mine, number_counterpart]

/-- The ports of a process are distinct exactly when there are enough of them, and then two mirrored
processes, however their flows are split over the shards, pair these one to one: each flow sends to
a port that its partner alone binds, and the partner sends back to the port that the flow binds. -/
theorem ports_pair_flows (cfg : UdpConfig) (shards : Nat) :
    (Function.Injective (cfg.boundPort shards) ↔ shards * cfg.connections.toNat ≤ 65536) ∧
    ∀ (other : UdpConfig) (otherShards : Nat), cfg.Mirrored other →
      shards * cfg.connections.toNat = otherShards * other.connections.toNat →
      shards * cfg.connections.toNat ≤ 65536 →
      ∃ partner : cfg.Flow shards ≃ other.Flow otherShards, ∀ f,
        (∀ g, other.boundPort otherShards g = cfg.destinationPort shards f ↔ g = partner f) ∧
        other.destinationPort otherShards (partner f) = cfg.boundPort shards f := by
  refine ⟨boundPort_injective_iff cfg shards, ?_⟩
  intro other otherShards hmirrored hequal hfit
  refine ⟨counterpart hequal, fun f => ⟨?_, hmirrored.sends_back hequal f⟩⟩
  exact hmirrored.sends_to hequal hfit f

/-- Two shards with three connections each against three with two, at offsets that wrap. -/
theorem ports_pair_flows_wrapped :
    ∃ partner : (UdpConfig.mk 3 64240 65000 64).Flow 2 ≃ (UdpConfig.mk 2 65000 64240 64).Flow 3,
      ∀ f,
        (∀ g, (UdpConfig.mk 2 65000 64240 64).boundPort 3 g =
            (UdpConfig.mk 3 64240 65000 64).destinationPort 2 f ↔ g = partner f) ∧
        (UdpConfig.mk 2 65000 64240 64).destinationPort 3 (partner f) =
          (UdpConfig.mk 3 64240 65000 64).boundPort 2 f :=
  (ports_pair_flows ⟨3, 64240, 65000, 64⟩ 2).2 ⟨2, 65000, 64240, 64⟩ 3 ⟨rfl, rfl⟩ (by decide)
    (by decide)

/-! ### Two processes on one host -/

/-- What `udp_run_server.sh` and `udp_run_client.sh` start, given a number of connections. -/
def ofScript (connections : UInt16) : Side → UdpConfig
  | .server => ⟨connections, 1024, 2048, 64000⟩
  | .client => ⟨connections, 2048, 1024, 64000⟩

/-- No port is bound in both processes of a host, and none of them sends to a port of its own. -/
structure Apart (cfg : Side → UdpConfig) (shards : Nat) : Prop where
  unshared : ∀ f g, (cfg .server).boundPort shards f ≠ (cfg .client).boundPort shards g
  no_return : ∀ side f g, (cfg side).destinationPort shards f ≠ (cfg side).boundPort shards g

/-- Two ranges of ports that lie a whole range apart, below 2^16, share no port. -/
theorem ofNat_ne_of_gap {a b total low high : Nat} (ha : a < total) (hgap : low + total ≤ high)
    (hb : b < total) (hhigh : 1300 + high + total ≤ 65536) :
    UInt16.ofNat (1300 + a + low) ≠ UInt16.ofNat (1300 + b + high) := by
  intro h
  have hmod := congrArg UInt16.toNat h
  rw [UInt16.toNat_ofNat', UInt16.toNat_ofNat'] at hmod
  omega

theorem apart_ofScript {connections : UInt16}
    (hgap : shards * connections.toNat ≤ 1024) : Apart (ofScript connections) shards := by
  have hlt (side : Side) (f : (ofScript connections side).Flow shards) :
      (number f : Nat) < shards * connections.toNat := by
    cases side <;> exact (number f).isLt
  refine ⟨fun f g => ?_, fun side f g => ?_⟩
  · rw [boundPort_eq, boundPort_eq]
    apply ofNat_ne_of_gap (hlt .server f) _ (hlt .client g)
    · show 1300 + 2048 + _ ≤ 65536
      omega
    · show 1024 + _ ≤ 2048
      omega
  · rw [boundPort_eq, destinationPort_eq]
    have hgap' : 1024 + shards * connections.toNat ≤ 2048 := by omega
    have hhigh : 1300 + 2048 + shards * connections.toNat ≤ 65536 := by omega
    cases side with
    | server => exact (ofNat_ne_of_gap (hlt .server g) hgap' (hlt .server f) hhigh).symm
    | client => exact ofNat_ne_of_gap (hlt .client f) hgap' (hlt .client g) hhigh

/-- The flow number 1024 of the server process binds the first port of the client process. -/
theorem shared_ofScript {connections : UInt16} (hmany : 1024 < shards * connections.toNat) :
    ∃ f g, (ofScript connections .server).boundPort shards f =
      (ofScript connections .client).boundPort shards g := by
  have hpos : 0 < shards * connections.toNat := by omega
  obtain ⟨f, hf⟩ : ∃ f : (ofScript connections .server).Flow shards, (number f : Nat) = 1024 :=
    ⟨finProdFinEquiv.symm ⟨1024, hmany⟩, by rw [number, Equiv.apply_symm_apply]⟩
  obtain ⟨g, hg⟩ : ∃ g : (ofScript connections .client).Flow shards, (number g : Nat) = 0 :=
    ⟨finProdFinEquiv.symm ⟨0, hpos⟩, by rw [number, Equiv.apply_symm_apply]⟩
  refine ⟨f, g, ?_⟩
  rw [boundPort_eq, boundPort_eq, hf, hg]
  rfl

/-- The two scripts start processes that share no port exactly up to 1024 flows each. -/
theorem scripts_apart_iff (shards : Nat) (connections : UInt16) :
    Apart (ofScript connections) shards ↔ shards * connections.toNat ≤ 1024 := by
  constructor
  · intro hapart
    by_contra hmany
    obtain ⟨f, g, hfg⟩ := shared_ofScript (Nat.lt_of_not_le hmany)
    exact hapart.unshared f g hfg
  · exact apart_ofScript

/-- One shard with 1025 connections. -/
theorem scripts_share_port :
    ¬∀ (shards : Nat) (connections : UInt16), 1 ≤ shards → 1 ≤ connections.toNat →
      1300 + 2048 + shards * connections.toNat ≤ 65536 → Apart (ofScript connections) shards := by
  intro hall
  have hapart := hall 1 1025 (by decide) (by decide) (by decide)
  have hshared : (ofScript 1025 .server).boundPort 1 (shardZero, ⟨1024, by decide⟩) =
      (ofScript 1025 .client).boundPort 1 (shardZero, ⟨0, by decide⟩) := by decide +kernel
  exact hapart.unshared _ _ hshared

end UdpConfig

namespace UdpShard

variable {cfg : UdpConfig} {s t : UdpShard}

/-- The ports of every flow are those that `run_udp` has computed for it. -/
def Ported (cfg : UdpConfig) (s : UdpShard) : Prop :=
  ∀ j flow, s.flows.tasks[j]? = some flow →
    flow.myPort = cfg.myPort s.thisShardId j ∧ flow.otherPort = cfg.otherPort s.thisShardId j

theorem ported_runUdp (hempty : s.flows = {}) (opened : Nat → Channels) :
    Ported cfg (s.runUdp cfg opened) := by
  intro j flow hflow
  rw [(runUdp_tasks cfg opened hempty).1, startFlows, List.getElem?_map] at hflow
  obtain ⟨k, hk, rfl⟩ := Option.map_eq_some_iff.mp hflow
  obtain ⟨hlt, hget⟩ := List.getElem?_eq_some_iff.mp hk
  rw [List.getElem_range] at hget
  subst hget
  exact ⟨rfl, rfl⟩

theorem ports_of_step {flow flow' : UdpFlow} {interrupted : Bool} {e : FlowEvent}
    (h : flow.step interrupted e = some flow') :
    flow'.myPort = flow.myPort ∧ flow'.otherPort = flow.otherPort := by
  cases e with
  | send f =>
      obtain ⟨old, new, -, -, rfl⟩ := UdpFlow.step_send_some h
      exact ⟨rfl, rfl⟩
  | receive f =>
      obtain ⟨old, new, -, -, rfl⟩ := UdpFlow.step_receive_some h
      exact ⟨rfl, rfl⟩

theorem Moves.thisShardId {e : UdpEvent} (h : s.Moves cfg e t) :
    t.thisShardId = s.thisShardId := by
  cases h <;> rfl

theorem Ported.moves {e : UdpEvent} (h : Ported cfg s) (hmoves : s.Moves cfg e t) :
    Ported cfg t := by
  intro j flow hflow
  rw [hmoves.thisShardId]
  obtain ⟨-, -, -, htasks | ⟨k, f, old, new, -, hold, hstep, htasks⟩⟩ := hmoves.tasks
  · rw [htasks] at hflow
    exact h j flow hflow
  · rw [htasks] at hflow
    by_cases hkj : k = j
    · subst hkj
      rw [Table.get_set_self hold] at hflow
      cases hflow
      rw [(ports_of_step hstep).1, (ports_of_step hstep).2]
      exact h k old hold
    · rw [List.getElem?_set_ne hkj] at hflow
      exact h j flow hflow

end UdpShard

namespace Udp

variable {cfg : UdpConfig} {n : Nat} {p : Process n UdpShard}

theorem thisShardId_eq (h : (system cfg n).Reachable p) (i : Fin n) :
    (p.shard i).thisShardId = i := by
  apply System.Reachable.invariant
    (fun p : Process n UdpShard => (p.shard i).thisShardId = i) rfl ?_ h
  intro p e q hid hstep
  rcases (Process.moves_of_step hstep).same_or_call i with hsame | ⟨f, -, hcall⟩
  · rw [hsame]
    exact hid
  · cases f with
    | armTimer | run | stop =>
        rw [← Option.some.inj hcall]
        exact hid
    | continuation f => exact (UdpShard.moves_of_step hcall).thisShardId.trans hid

/-- In every reachable state of a process the flow `j` of shard `i` has the ports of `(i, j)`. -/
theorem flow_ports (h : (system cfg n).Reachable p) {i : Fin n} {j : Nat} {flow : UdpFlow}
    (hflow : (p.shard i).flows.tasks[j]? = some flow) :
    j < cfg.connections.toNat ∧ flow.myPort = cfg.myPort i j ∧
      flow.otherPort = cfg.otherPort i j := by
  have hkept : Process.Kept (udpService cfg) (UdpShard.Ported cfg) :=
    ⟨fun _ hs => hs, fun _ hs => hs, fun _ _ _ hs hstep => hs.moves (UdpShard.moves_of_step hstep)⟩
  have hported : UdpShard.Ported cfg (p.shard i) :=
    UdpShard.phases.everywhere (fun _ j flow hflow => by cases hflow) hkept
      (fun _ binds hempty _ => UdpShard.ported_runUdp hempty binds) h i
  have hports := hported j flow hflow
  rw [thisShardId_eq h] at hports
  refine ⟨?_, hports⟩
  obtain ⟨hlt, -⟩ := List.getElem?_eq_some_iff.mp hflow
  rcases empty_or_spawned h i with hempty | hspawned
  · simp [hempty] at hlt
  · rwa [hspawned.entered] at hlt

/-- Up to 1024 flows each, two processes that the scripts start on one host never have two flows
with the same bound port, and none has a flow that sends to one of its own. -/
theorem scripts_never_share {connections : UInt16} (hfew : n * connections.toNat ≤ 1024)
    {p : Side → Process n UdpShard}
    (h : ∀ side, (system (UdpConfig.ofScript connections side) n).Reachable (p side))
    {side side' : Side} {i i' : Fin n} {j j' : Nat} {flow flow' : UdpFlow}
    (hflow : ((p side).shard i).flows.tasks[j]? = some flow)
    (hflow' : ((p side').shard i').flows.tasks[j']? = some flow') :
    (side ≠ side' → flow.myPort ≠ flow'.myPort) ∧
      (side = side' → flow.otherPort ≠ flow'.myPort) := by
  have hapart := UdpConfig.apart_ofScript hfew
  obtain ⟨hj, hmine, hother⟩ := flow_ports (h side) hflow
  obtain ⟨hj', hmine', -⟩ := flow_ports (h side') hflow'
  refine ⟨fun hsides => ?_, fun hsame => ?_⟩
  · rw [hmine, hmine']
    cases side <;> cases side'
    · exact absurd rfl hsides
    · exact hapart.unshared (i, ⟨j, hj⟩) (i', ⟨j', hj'⟩)
    · exact (hapart.unshared (i', ⟨j', hj'⟩) (i, ⟨j, hj⟩)).symm
    · exact absurd rfl hsides
  · subst hsame
    rw [hother, hmine']
    exact hapart.no_return side (i, ⟨j, hj⟩) (i', ⟨j', hj'⟩)

end Udp

end SeastarExperiments
