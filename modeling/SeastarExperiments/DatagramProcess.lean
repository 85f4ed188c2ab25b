import SeastarExperiments.DatagramService
import SeastarExperiments.ServiceMeasurement

/-! `server` and `client` as processes. The loop that `run_udp` starts is over by the time main's chain
reads the histories, and it is over only after it has found the flag set at the top of a turn: a
loop of the server that is suspended in `receive` when the signal comes must be handed one more
datagram first. -/

namespace SeastarExperiments

open Transition

namespace DatagramShard

variable {Loop Event : Type} {program : DatagramLoop Loop Event} {s t : DatagramShard Loop}

/-- What a continuation can be, with everything it changes. -/
inductive Moves (program : DatagramLoop Loop Event) (s : DatagramShard Loop) :
    DatagramEvent Event → DatagramShard Loop → Prop
  | loop (e : Event) (port : UInt16) (loop loop' : Loop) (hrun : s.run = .looping port loop)
      (hstep : program.step s.interrupted loop e = some loop') :
      Moves program s (.loop e)
        { s with run := .looping port loop', measurements := program.count s.measurements e }
  | tick (now : Int) (harmed : s.timerArmed = true) :
      Moves program s (.tick now)
        { s with measurements := s.measurements.tick s.thisShardId now }

theorem moves_of_step {e : DatagramEvent Event}
    (h : (datagramService program).step s e = some t) : s.Moves program e t := by
  change s.step program e = some t at h
  cases e with
  | loop e =>
      cases hrun : s.run with
      | idle | threw => simp [step, hrun] at h
      | looping port loop =>
          simp only [step, hrun, Option.bind_eq_bind, Option.bind_eq_some_iff,
            Option.some.injEq] at h
          obtain ⟨loop', hstep, rfl⟩ := h
          exact .loop e port loop loop' hrun hstep
  | tick now =>
      simp only [step, Option.ite_none_right_eq_some, Option.some.injEq] at h
      obtain ⟨harmed, rfl⟩ := h
      exact .tick now harmed

/-! ### The run stage -/

/-- The loop of `run_udp` has ended without an exception. -/
def Over (program : DatagramLoop Loop Event) (s : DatagramShard Loop) : Prop :=
  ∃ port loop, s.run = .looping port loop ∧ program.future loop = .resolved

theorem runFuture_resolved_iff : s.runFuture program = .resolved ↔ s.Over program := by
  unfold runFuture Over
  cases s.run with
  | idle | threw => simp
  | looping port loop => simp

/-- A shard whose loop is over makes ticks only. -/
theorem Over.moves {e : DatagramEvent Event} (h : s.Over program) (hmoves : s.Moves program e t) :
    ∃ now, e = .tick now := by
  obtain ⟨port, loop, hrun, hresolved⟩ := h
  cases hmoves with
  | loop e port' loop' _ hrun' hstep =>
      rw [hrun] at hrun'
      cases hrun'
      rw [program.step_settled _ _ _ (by rw [hresolved]; decide)] at hstep
      cases hstep
  | tick now => exact ⟨now, rfl⟩

theorem kept_over : Process.Kept (datagramService program) (Over program) where
  armTimer _ h := h
  stop _ h := h
  step s e t h hstep := by
    have hmoves := moves_of_step hstep
    obtain ⟨now, rfl⟩ := h.moves hmoves
    cases hmoves with
    | tick => exact h

/-- The run stage of `server` and of `client`. -/
theorem phases :
    Process.RunPhases (datagramService program) (fun s => s.run = .idle) (fun _ => True)
      (Over program) where
  start _ := rfl
  call _ _ _ := trivial
  ended _ _ hfuture := runFuture_resolved_iff.mp hfuture
  before_kept :=
    { armTimer _ h := h
      stop _ h := h
      step s e t h hstep := by
        cases moves_of_step hstep with
        | loop e port loop loop' hrun =>
            rw [h] at hrun
            cases hrun
        | tick => exact h }
  after_kept := ⟨fun _ _ => trivial, fun _ _ => trivial, fun _ _ _ _ _ => trivial⟩
  ended_kept := kept_over

/-! ### What the device counts -/

/-- The loop's continuations count these bytes and packets. -/
def counting (bytes packets : Event → Nat) : Counting (DatagramEvent Event) where
  isTick
    | .tick _ => true
    | .loop _ => false
  bytes
    | .loop e => bytes e
    | .tick _ => 0
  packets
    | .loop e => packets e
    | .tick _ => 0
  bytes_tick
    | .tick _, _ => rfl
  packets_tick
    | .tick _, _ => rfl

theorem metered {bytes packets : Event → Nat}
    (hcount : ∀ device e, program.count device e =
      (device.addBytes (UInt64.ofNat (bytes e))).addPackets (UInt64.ofNat (packets e))) :
    Metered (datagramService program) measurements (counting bytes packets).meter := by
  apply metered_of_counting (fun _ => rfl) (fun _ => rfl) (fun _ _ => rfl) (fun _ => rfl)
  · intro s e t hstep he
    cases moves_of_step hstep with
    | loop e => cases he
    | tick now => exact ⟨s.thisShardId, now, rfl⟩
  · intro s e t hstep he
    cases moves_of_step hstep with
    | loop e => exact hcount s.measurements e
    | tick now => cases he

/-- A shard whose loop is over counts nothing more. -/
theorem quiet_of_over {bytes packets : Event → Nat} {e : ServiceEvent (DatagramEvent Event) Bool}
    (h : s.Over program) (hcall : (datagramService program).call s e = some t) :
    (counting bytes packets).meter.packets e = 0 := by
  cases e with
  | armTimer | run | stop => rfl
  | continuation e =>
      obtain ⟨now, rfl⟩ := h.moves (moves_of_step hcall)
      rfl

/-! ### The ports -/

/-- A running loop has the port of its shard. -/
def Ported (i : Nat) (s : DatagramShard Loop) : Prop :=
  s.thisShardId = i ∧ ∀ p loop, s.run = .looping p loop → p = port i

theorem Ported.call {i : Nat} {e : ServiceEvent (DatagramEvent Event) Bool} (h : s.Ported i)
    (hcall : (datagramService program).call s e = some t) : t.Ported i := by
  obtain ⟨hid, hport⟩ := h
  cases e with
  | armTimer | stop =>
      rw [← Option.some.inj hcall]
      exact ⟨hid, hport⟩
  | run opens =>
      rw [← Option.some.inj hcall]
      refine ⟨hid, fun p loop hrun => ?_⟩
      change (if opens then _ else _) = _ at hrun
      cases opens with
      | true =>
          cases hrun
          rw [hid]
      | false => cases hrun
  | continuation e =>
      have hmoves : s.Moves program e t := moves_of_step hcall
      cases hmoves with
      | loop e p loop loop' hrun hstep =>
          refine ⟨hid, fun p' loop'' hrun' => ?_⟩
          cases hrun'
          exact hport p loop hrun
      | tick => exact ⟨hid, hport⟩

theorem ported {n : Nat} {p : Process n (DatagramShard Loop)}
    (h : (Process.system (datagramService program) n).Reachable p) (i : Fin n) :
    (p.shard i).Ported i := by
  apply System.Reachable.invariant (fun p : Process n (DatagramShard Loop) => (p.shard i).Ported i)
    ⟨rfl, fun _ _ hrun => by cases hrun⟩ ?_ h
  intro p e q hp hstep
  rcases (Process.moves_of_step hstep).same_or_call i with hsame | ⟨f, -, hcall⟩
  · rw [hsame]
    exact hp
  · exact hp.call hcall

/-- Up to 65536 shards no two have the same port. -/
theorem port_inj {i j : Nat} (hi : i < 65536) (hj : j < 65536) : port i = port j ↔ i = j := by
  constructor
  · intro h
    have hmod := congrArg UInt16.toNat h
    have hport (k : Nat) : (port k).toNat = (1200 + k) % 65536 := by
      rw [port, UInt32.toUInt16_add, UInt32.toUInt16_ofNat', UInt16.toNat_add,
        UInt16.toNat_ofNat']
      have hstart : (UInt32.toUInt16 1200).toNat = 1200 := rfl
      rw [hstart]
      omega
    rw [hport, hport] at hmod
    omega
  · rintro rfl
    rfl

end DatagramShard

namespace ReceiveEvent

def bytes : ReceiveEvent → Nat
  | received len => len
  | _ => 0

def packets : ReceiveEvent → Nat
  | received _ => 1
  | _ => 0

theorem serverLoop_count (device : MeasurementDevice) (e : ReceiveEvent) :
    serverLoop.count device e =
      (device.addBytes (UInt64.ofNat e.bytes)).addPackets (UInt64.ofNat e.packets) := by
  cases e with
  | received len => rfl
  | top | failed => exact device.add_nothing.symm

end ReceiveEvent

namespace SendEvent

def bytes : SendEvent → Nat
  | sent => packetSize.toNat
  | _ => 0

def packets : SendEvent → Nat
  | sent => 1
  | _ => 0

theorem clientLoop_count (device : MeasurementDevice) (e : SendEvent) :
    clientLoop.count device e =
      (device.addBytes (UInt64.ofNat e.bytes)).addPackets (UInt64.ofNat e.packets) := by
  cases e with
  | sent => rfl
  | top | failed => exact device.add_nothing.symm

end SendEvent

/-! ### The server's wait -/

namespace DatagramShard

variable {s t : DatagramShard ReceiveLoop}

/-- The loop is suspended in `receive`, or has been left by an exception there. -/
def WaitingOrFailed (s : DatagramShard ReceiveLoop) : Prop :=
  ∃ port, s.run = .looping port .receiving ∨ s.run = .looping port .failed

theorem WaitingOrFailed.not_over (h : s.WaitingOrFailed) : ¬s.Over serverLoop := by
  rintro ⟨port, loop, hrun, hresolved⟩
  obtain ⟨port', h | h⟩ := h <;> rw [h] at hrun <;> cases hrun <;> cases hresolved

/-- Only a datagram ends the wait. -/
theorem WaitingOrFailed.moves {e : DatagramEvent ReceiveEvent} (h : s.WaitingOrFailed)
    (hmoves : s.Moves serverLoop e t) (he : ∀ len, e ≠ .loop (.received len)) : t.WaitingOrFailed := by
  obtain ⟨port, h⟩ := h
  cases hmoves with
  | loop e port' loop loop' hrun hstep =>
      rcases h with h | h <;> rw [h] at hrun <;> cases hrun
      · cases e with
        | top => cases hstep
        | received len => exact absurd rfl (he len)
        | failed =>
            cases hstep
            exact ⟨port, Or.inr rfl⟩
      · cases e <;> cases hstep
  | tick => exact ⟨port, h⟩

end DatagramShard

namespace UdpServer

variable {n : Nat} {p q : Process n (DatagramShard ReceiveLoop)}
  {es : List (ProcessEvent n (DatagramEvent ReceiveEvent) Bool)}

abbrev system (n : Nat) : System (Process n (DatagramShard ReceiveLoop))
    (ProcessEvent n (DatagramEvent ReceiveEvent) Bool) :=
  Process.system (datagramService serverLoop) n

abbrev start (n : Nat) : Process n (DatagramShard ReceiveLoop) :=
  Process.start (datagramService serverLoop) n

theorem waitingOrFailed_step {e : ProcessEvent n (DatagramEvent ReceiveEvent) Bool} {i : Fin n}
    (hreach : (system n).Reachable p) (h : (p.shard i).WaitingOrFailed)
    (he : ∀ len, e ≠ .continuation i (.loop (.received len)))
    (hstep : (system n).step p e = some q) : (q.shard i).WaitingOrFailed := by
  have hmoves := Process.moves_of_step hstep
  rcases hmoves.same_or_call i with hsame | ⟨f, hf, hcall⟩
  · rw [hsame]
    exact h
  · cases f with
    | armTimer | stop =>
        rw [← Option.some.inj hcall]
        exact h
    | run input =>
        -- the call has been made already, or no loop would be there
        have hidle := DatagramShard.phases.before_of_onShard hreach hmoves hf
        obtain ⟨port, h | h⟩ := h <;> rw [hidle] at h <;> cases h
    | continuation f =>
        refine h.moves (DatagramShard.moves_of_step hcall) fun len hlen => ?_
        subst hlen
        exact he len (Process.eq_continuation_of_onShard hf)

/-- While a shard waits in `receive`, with the flag set or not, and after an exception there, no
history is read on any shard. -/
theorem no_report_while_waiting {i : Fin n} (hreach : (system n).Reachable p)
    (hwaiting : (p.shard i).WaitingOrFailed) (h : (system n).exec p es = some q)
    (hnone : ∀ len, .continuation i (.loop (.received len)) ∉ es) :
    (q.shard i).WaitingOrFailed ∧ ∀ k, q.snapshots k = none := by
  have hboth : (system n).Reachable q ∧ (q.shard i).WaitingOrFailed := by
    apply System.exec_induction (S := system n) (motive := fun es q =>
      (∀ len, .continuation i (.loop (.received len)) ∉ es) →
        (system n).Reachable q ∧ (q.shard i).WaitingOrFailed) (fun _ => ⟨hreach, hwaiting⟩) ?_ h hnone
    intro es q e r _ ih hstep hnone
    obtain ⟨hq, hwaits⟩ := ih fun len hmem => hnone len (List.mem_append_left _ hmem)
    refine ⟨hq.step hstep, waitingOrFailed_step hq hwaits (fun len hlen => hnone len ?_) hstep⟩
    rw [hlen]
    exact List.mem_append_right _ (List.mem_singleton_self _)
  obtain ⟨⟨fs, hfs⟩, hwaits⟩ := hboth
  refine ⟨hwaits, fun k => ?_⟩
  by_contra hread
  exact hwaits.not_over (Process.ended_of_snapshot DatagramShard.phases hfs hread i)

end UdpServer

end SeastarExperiments
