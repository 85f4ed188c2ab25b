import Mathlib.Algebra.BigOperators.Fin
import SeastarExperiments.MainChain

/-! What a process reports of its devices, whatever its service does between the calls. A device of
the service is driven by the calls on its instance; main's chain reads its history once on each
shard. Where the loops of the service are over by then, the report lacks exactly what was counted
since the shard's last tick. -/

namespace SeastarExperiments

open Transition

section

variable {Shard Event Input : Type}

/-- A device of the service: fresh at the start, ticked by the events that the meter names, and
otherwise added to as the meter says. -/
structure Metered (svc : Service Shard Event Input) (device : Shard → MeasurementDevice)
    (meter : Meter (ServiceEvent Event Input)) : Prop where
  start : ∀ i, device (svc.start i) = {}
  ticked : ∀ s e t, svc.call s e = some t → meter.isTick e = true →
    ∃ thisShardId now, device t = (device s).tick thisShardId now
  added : ∀ s e t, svc.call s e = some t → meter.isTick e = false →
    device t = ((device s).addBytes (UInt64.ofNat (meter.bytes e))).addPackets
      (UInt64.ofNat (meter.packets e))

/-- How the continuations of an instance act on a device; the calls from outside leave it alone. -/
structure Counting (Event : Type) where
  isTick : Event → Bool
  bytes : Event → Nat
  packets : Event → Nat
  bytes_tick : ∀ e, isTick e = true → bytes e = 0
  packets_tick : ∀ e, isTick e = true → packets e = 0

namespace Counting

variable (counting : Counting Event)

def ofCall (quantity : Event → Nat) : ServiceEvent Event Input → Nat
  | .continuation e => quantity e
  | _ => 0

def meter : Meter (ServiceEvent Event Input) where
  isTick
    | .continuation e => counting.isTick e
    | _ => false
  bytes := ofCall counting.bytes
  packets := ofCall counting.packets
  bytes_tick
    | .continuation e, h => counting.bytes_tick e h
  packets_tick
    | .continuation e, h => counting.packets_tick e h

end Counting

theorem MeasurementDevice.add_nothing (device : MeasurementDevice) :
    (device.addBytes (UInt64.ofNat 0)).addPackets (UInt64.ofNat 0) = device := by
  simp [MeasurementDevice.addBytes, MeasurementDevice.addPackets]

variable {svc : Service Shard Event Input} {device : Shard → MeasurementDevice}

theorem metered_of_counting {counting : Counting Event} (hstart : ∀ i, device (svc.start i) = {})
    (harm : ∀ s, device (svc.armTimer s) = device s)
    (hrun : ∀ s input, device (svc.run s input) = device s)
    (hstop : ∀ s, device (svc.stop s) = device s)
    (htick : ∀ s e t, svc.step s e = some t → counting.isTick e = true →
      ∃ thisShardId now, device t = (device s).tick thisShardId now)
    (hadd : ∀ s e t, svc.step s e = some t → counting.isTick e = false →
      device t = ((device s).addBytes (UInt64.ofNat (counting.bytes e))).addPackets
        (UInt64.ofNat (counting.packets e))) :
    Metered svc device counting.meter := by
  refine ⟨hstart, fun s e t hcall he => ?_, fun s e t hcall he => ?_⟩
  · cases e with
    | continuation e => exact htick s e t hcall he
    | armTimer | run | stop => cases he
  · cases e with
    | continuation e => exact hadd s e t hcall he
    | armTimer =>
        cases hcall
        exact (harm s).trans (device s).add_nothing.symm
    | run input =>
        cases hcall
        exact (hrun s input).trans (device s).add_nothing.symm
    | stop =>
        cases hcall
        exact (hstop s).trans (device s).add_nothing.symm

variable {meter : Meter (ServiceEvent Event Input)}

/-- Where all packets of a log have one size, so have they in every window. -/
theorem Meter.totalBytes_of_size {Event : Type} {meter : Meter Event} {size : Nat} {es : List Event}
    (h : ∀ e ∈ es, meter.bytes e = size * meter.packets e) :
    meter.totalBytes es = size * meter.totalPackets es := by
  induction es with
  | nil => rfl
  | cons e es ih =>
      obtain ⟨he, hes⟩ := List.forall_mem_cons.mp h
      calc meter.totalBytes (e :: es)
          = meter.bytes e + meter.totalBytes es := by simp [totalBytes]
        _ = size * meter.packets e + size * meter.totalPackets es := by rw [he, ih hes]
        _ = size * meter.totalPackets (e :: es) := by simp [totalPackets, Nat.mul_add]

/-- The two columns of every row then say the same. -/
theorem Meter.Measures.gbits_of_size {Event : Type} {meter : Meter Event} {size : Nat}
    {device : MeasurementDevice} {es : List Event} (h : meter.Measures device es)
    (hsize : ∀ e ∈ es, meter.bytes e = size * meter.packets e) :
    ∀ m ∈ device.getHistory,
      m.gbits = MeasurementDevice.throughputInGbps (UInt64.ofNat size * m.pps) := by
  intro m hm
  have hrow : (m.gbits, m.pps) ∈ device.measurements.map fun m => (m.gbits, m.pps) :=
    List.mem_map_of_mem hm
  rw [h.history] at hrow
  obtain ⟨w, hw, hcells⟩ := List.mem_map.mp hrow
  obtain ⟨hgbits, hpps⟩ := Prod.mk.inj hcells
  rw [← hgbits, ← hpps, ← UInt64.ofNat_mul,
    totalBytes_of_size fun e he => hsize e (Windows.mem_of_mem_closed _ hw he)]

/-- The device of an instance has measured the calls on it. -/
theorem Metered.measures (h : Metered svc device meter) {i : Nat} {s : Shard}
    {log : List (ServiceEvent Event Input)}
    (hlog : (svc.system i).exec (svc.start i) log = some s) : meter.Measures (device s) log := by
  apply System.exec_induction (S := svc.system i)
    (motive := fun log s => meter.Measures (device s) log) ?_ ?_ hlog
  · rw [h.start i]
    exact Meter.measures_nil
  · intro log s e t _ ih hstep
    cases he : meter.isTick e with
    | true =>
        obtain ⟨thisShardId, now, hdevice⟩ := h.ticked s e t hstep he
        rw [hdevice]
        exact ih.tick he thisShardId now
    | false =>
        rw [h.added s e t hstep he]
        exact ih.add he

end

namespace Process

variable {n : Nat} {Shard Event Input : Type} {svc : Service Shard Event Input}
  {p q : Process n Shard} {es : List (ProcessEvent n Event Input)}
  {device : Shard → MeasurementDevice} {meter : Meter (ServiceEvent Event Input)}

/-- The calls on the instance of one shard, in their order. -/
abbrev log (i : Fin n) (es : List (ProcessEvent n Event Input)) : List (ServiceEvent Event Input) :=
  es.filterMap (onShard i)

/-- What a continuation amounts to; the calls from outside amount to nothing. -/
def ofContinuation (quantity : Event → Nat) : ProcessEvent n Event Input → Nat
  | .continuation _ e => quantity e
  | _ => 0

/-- The logs of the shards share out the continuations of a run. -/
theorem sum_log {quantity : ServiceEvent Event Input → Nat} (harm : quantity .armTimer = 0)
    (hrun : ∀ input, quantity (.run input) = 0) (hstop : quantity .stop = 0)
    (es : List (ProcessEvent n Event Input)) :
    ∑ i : Fin n, ((log i es).map quantity).sum =
      (es.map (ofContinuation fun e => quantity (.continuation e))).sum := by
  induction es with
  | nil => simp
  | cons e es ih =>
      have hcons (i : Fin n) : ((log i (e :: es)).map quantity).sum =
          (onShard i e).elim 0 quantity + ((log i es).map quantity).sum := by
        rw [log, List.filterMap_cons]
        cases onShard i e with
        | none => exact (Nat.zero_add _).symm
        | some f => rfl
      have hone : ∑ i : Fin n, (onShard i e).elim 0 quantity =
          ofContinuation (fun e => quantity (.continuation e)) e := by
        cases e with
        | continuation k e =>
            rw [Finset.sum_eq_single k]
            · simp [onShard, ofContinuation]
            · intro i _ hik
              simp [onShard, Ne.symm hik]
            · exact fun hnot => absurd (Finset.mem_univ k) hnot
        | reporterSet | callRun | mainStop | exitStop =>
            apply Finset.sum_eq_zero
            intro i _
            rw [onShard]
            split <;> simp [harm, hrun, hstop]
        | snapshot | advance | signal => simp [onShard, ofContinuation]
      calc ∑ i : Fin n, ((log i (e :: es)).map quantity).sum
          = ∑ i : Fin n, ((onShard i e).elim 0 quantity + ((log i es).map quantity).sum) :=
            Finset.sum_congr rfl fun i _ => hcons i
        _ = ((e :: es).map (ofContinuation fun e => quantity (.continuation e))).sum := by
            rw [Finset.sum_add_distrib, hone, ih, List.map_cons, List.sum_cons]

theorem measures (h : Metered svc device meter)
    (hexec : (system svc n).exec (start svc n) es = some p) (i : Fin n) :
    meter.Measures (device (p.shard i)) (log i es) :=
  h.measures ((projects_shard svc i).exec hexec)

/-! ### The histories that the report reads -/

/-- What a step does to the histories that have been read. -/
theorem Moves.snapshots {e : ProcessEvent n Event Input} (h : p.Moves svc e q) (i : Fin n) :
    q.snapshots i = p.snapshots i ∨
      e = .snapshot i ∧ p.stage = .report ∧ q.snapshots i = some (svc.histories (p.shard i)) := by
  cases h with
  | snapshot j hstage =>
      by_cases hij : i = j
      · subst hij
        exact Or.inr ⟨rfl, hstage, Function.update_self _ _ _⟩
      · exact Or.inl (Function.update_of_ne hij _ _)
  | armed | notArmed | callRun | mainStop | goOn | giveUp | signal | exitStop | continuation =>
      exact Or.inl rfl

/-- The run up to the reading of this shard's history. -/
def untilRead (i : Fin n) (es : List (ProcessEvent n Event Input)) :
    List (ProcessEvent n Event Input) :=
  es.takeWhile fun e => !e.makes .snapshot i

theorem untilRead_eq {i : Fin n} {before after : List (ProcessEvent n Event Input)}
    (h : (system svc n).exec (start svc n) (before ++ .snapshot i :: after) = some p) :
    untilRead i (before ++ .snapshot i :: after) = before := by
  have honce : callCount .snapshot i (before ++ .snapshot i :: after) ≤ 1 := by
    rw [snapshot_isSome h i]
    exact Bool.toNat_le _
  have hmakes : ProcessEvent.makes .snapshot i
      (.snapshot i : ProcessEvent n Event Input) = true := by simp [ProcessEvent.makes]
  have hnone : before.countP (ProcessEvent.makes .snapshot i) = 0 := by
    rw [callCount, List.countP_append, List.countP_cons_of_pos hmakes] at honce
    omega
  rw [untilRead, List.takeWhile_append_of_pos, List.takeWhile_cons_of_neg, List.append_nil]
  · simp [hmakes]
  · intro e he
    simpa using List.countP_eq_zero.mp hnone e he

/-- A history in the report is the shard's history at the moment at which it was read. -/
theorem exists_snapshot (h : (system svc n).exec (start svc n) es = some p) {i : Fin n}
    {histories : List Measurement × List Measurement} (hread : p.snapshots i = some histories) :
    ∃ after q, es = untilRead i es ++ .snapshot i :: after ∧
      (system svc n).exec (start svc n) (untilRead i es) = some q ∧ q.stage = .report ∧
      histories = svc.histories (q.shard i) := by
  have hsplit : ∃ before after q, es = before ++ .snapshot i :: after ∧
      (system svc n).exec (start svc n) before = some q ∧ q.stage = .report ∧
      histories = svc.histories (q.shard i) := by
    refine System.exec_induction (S := system svc n) (motive := fun es p =>
      p.snapshots i = some histories → ∃ before after q, es = before ++ .snapshot i :: after ∧
        (system svc n).exec (start svc n) before = some q ∧ q.stage = .report ∧
        histories = svc.histories (q.shard i)) ?_ ?_ h hread
    · intro hread
      cases hread
    · intro es p e q hp ih hstep hread
      rcases (moves_of_step hstep).snapshots i with hsame | ⟨rfl, hstage, hnew⟩
      · rw [hsame] at hread
        obtain ⟨before, after, r, rfl, hr⟩ := ih hread
        exact ⟨before, after ++ [e], r, by simp, hr⟩
      · rw [hnew, Option.some.injEq] at hread
        exact ⟨es, [], p, rfl, hp, hstage, hread.symm⟩
  obtain ⟨before, after, q, rfl, hq⟩ := hsplit
  rw [untilRead_eq h]
  exact ⟨after, q, rfl, hq⟩

/-! ### What the report lacks -/

theorem log_concat (i : Fin n) (es : List (ProcessEvent n Event Input))
    (e : ProcessEvent n Event Input) : log i (es ++ [e]) = log i es ++ (onShard i e).toList := by
  rw [log, List.filterMap_append, List.filterMap_cons, List.filterMap_nil]
  cases onShard i e <;> rfl

/-- While no call on an instance counts, a run past the run stage counts nothing there. -/
theorem Kept.quiet {P : Shard → Prop} (hkept : Kept svc P)
    (hquiet : ∀ s e t, P s → svc.call s e = some t → meter.packets e = 0) {i : Fin n}
    (hpast : p.stage.pastRun = true) (hp : P (p.shard i))
    (h : (system svc n).exec p es = some q) : meter.totalPackets (log i es) = 0 := by
  have hall : (q.stage.pastRun = true ∧ P (q.shard i)) ∧ meter.totalPackets (log i es) = 0 := by
    apply System.exec_induction (S := system svc n) (motive := fun es q =>
      (q.stage.pastRun = true ∧ P (q.shard i)) ∧ meter.totalPackets (log i es) = 0)
      ⟨⟨hpast, hp⟩, rfl⟩ ?_ h
    rintro es q e r hq ⟨⟨hpast, hkeeps⟩, hzero⟩ hstep
    refine ⟨hkept.exec hpast hkeeps ((System.exec_singleton _ _ _).trans hstep), ?_⟩
    have hmove := (moves_of_step hstep).onShard i
    rw [log_concat, Meter.totalPackets_append, hzero]
    cases he : onShard i e with
    | none => rfl
    | some f =>
        rw [he, Option.toList_some, System.exec_singleton] at hmove
        rw [Option.toList_some, ← List.nil_append [f], Meter.totalPackets_concat,
          hquiet _ f _ hkeeps hmove]
        rfl
  exact hall.2

/-- Once a history has been read anywhere, the service is through everywhere. -/
theorem ended_of_snapshot {Before After Ended : Shard → Prop}
    (phases : RunPhases svc Before After Ended)
    (h : (system svc n).exec (start svc n) es = some p) {k : Fin n}
    (hread : p.snapshots k ≠ none) (i : Fin n) : Ended (p.shard i) := by
  obtain ⟨histories, hsome⟩ := Option.ne_none_iff_exists'.mp hread
  obtain ⟨after, q, hsplit, hq, hstage, -⟩ := exists_snapshot h hsome
  have hended := phases.ended_of_afterRun ⟨_, hq⟩ (by rw [hstage]; rfl) i
  rw [hsplit] at h
  exact (phases.ended_kept.exec (by rw [hstage]; rfl) hended (System.exec_after _ hq h)).2

theorem totalPackets_untilRead_le {i : Fin n} :
    meter.totalPackets (log i (untilRead i es)) ≤ meter.totalPackets (log i es) := by
  obtain ⟨rest, hrest⟩ : untilRead i es <+: es := List.takeWhile_prefix _
  calc meter.totalPackets (log i (untilRead i es))
      ≤ meter.totalPackets (log i (untilRead i es)) + meter.totalPackets (log i rest) :=
        Nat.le_add_right _ _
    _ = meter.totalPackets (log i (untilRead i es ++ rest)) := by
        rw [log, log, log, List.filterMap_append, Meter.totalPackets_append]
    _ = meter.totalPackets (log i es) := by rw [hrest]

/-- A history in the report has the packets of its shard up to the last tick before the reading. -/
theorem reported_packets (hmetered : Metered svc device meter)
    (pick : List Measurement × List Measurement → List Measurement)
    (hpick : ∀ s, pick (svc.histories s) = (device s).getHistory)
    (h : (system svc n).exec (start svc n) es = some p) {i : Fin n}
    {histories : List Measurement × List Measurement} (hread : p.snapshots i = some histories)
    (hfits : meter.totalPackets (log i es) < 2 ^ 64) :
    ((pick histories).map fun m => m.pps.toNat).sum =
      meter.totalPackets (meter.windows (log i (untilRead i es))).flatten := by
  obtain ⟨after, q, -, hq, -, rfl⟩ := exists_snapshot h hread
  have hmeasures := measures hmetered hq i
  have hwindows : ∀ w ∈ meter.windows (log i (untilRead i es)), meter.totalPackets w < 2 ^ 64 :=
    fun w hw => (meter.totalPackets_window_le hw).trans_lt
      (totalPackets_untilRead_le.trans_lt hfits)
  rw [hpick, hmeasures.map_pps_toNat hwindows, Meter.totalPackets_flatten]

/-- Where the loops of a shard are over by the time its history is read, it counts nothing from then
on. -/
theorem totalPackets_untilRead {P : Shard → Prop} (hkept : Kept svc P)
    (hquiet : ∀ s e t, P s → svc.call s e = some t → meter.packets e = 0)
    (h : (system svc n).exec (start svc n) es = some p) {i : Fin n}
    {histories : List Measurement × List Measurement} (hread : p.snapshots i = some histories)
    (hover : ∀ q, (system svc n).exec (start svc n) (untilRead i es) = some q →
      q.stage = .report → P (q.shard i)) :
    meter.totalPackets (log i (untilRead i es)) = meter.totalPackets (log i es) := by
  obtain ⟨after, q, hsplit, hq, hstage, -⟩ := exists_snapshot h hread
  have hrest : (system svc n).exec q (.snapshot i :: after) = some p := by
    rw [hsplit] at h
    exact System.exec_after _ hq h
  have hzero : meter.totalPackets (log i (.snapshot i :: after)) = 0 :=
    hkept.quiet hquiet (by rw [hstage]; rfl) (hover q hq hstage) hrest
  calc meter.totalPackets (log i (untilRead i es))
      = meter.totalPackets (log i (untilRead i es)) +
          meter.totalPackets (log i (.snapshot i :: after)) := by rw [hzero, Nat.add_zero]
    _ = meter.totalPackets (log i (untilRead i es ++ .snapshot i :: after)) := by
        rw [log, log, log, List.filterMap_append, Meter.totalPackets_append]
    _ = meter.totalPackets (log i es) := by rw [← hsplit]

/-- The report then has all packets of the whole run but those between the shard's last tick and the
reading. -/
theorem report_lacks {P : Shard → Prop} (hkept : Kept svc P)
    (hquiet : ∀ s e t, P s → svc.call s e = some t → meter.packets e = 0)
    (hmetered : Metered svc device meter)
    (pick : List Measurement × List Measurement → List Measurement)
    (hpick : ∀ s, pick (svc.histories s) = (device s).getHistory)
    (h : (system svc n).exec (start svc n) es = some p) {i : Fin n}
    {histories : List Measurement × List Measurement} (hread : p.snapshots i = some histories)
    (hover : ∀ q, (system svc n).exec (start svc n) (untilRead i es) = some q →
      q.stage = .report → P (q.shard i))
    (hfits : meter.totalPackets (log i es) < 2 ^ 64) :
    ((pick histories).map fun m => m.pps.toNat).sum +
      meter.totalPackets (meter.sinceTick (log i (untilRead i es))) =
        meter.totalPackets (log i es) := by
  rw [reported_packets hmetered pick hpick h hread hfits,
    ← totalPackets_untilRead hkept hquiet h hread hover]
  exact (Meter.totalPackets_split _ _).symm

end Process

end SeastarExperiments
