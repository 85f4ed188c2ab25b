import Mathlib.Algebra.Order.Floor.Div

/-! One direction of a reliable FIFO byte stream, by byte counts: what a writer has handed over and
the channel has not taken yet, what the channel holds, what the pending exact read has collected so
far, and whether the writing end is closed. A channel may have a capacity and the writer's stream
may keep bytes back; both are parameters, `none` standing for no limit. -/

namespace ByteStream

structure Pipe where
  unsent : Nat := 0
  queued : Nat := 0
  held : Nat := 0
  closed : Bool := false
  deriving DecidableEq

/-- The bytes the channel holds at most, and the bytes a writer may leave unsent behind a write that
has completed. -/
structure Limits where
  capacity : Option Nat
  slack : Option Nat

def Within (n : Nat) : Option Nat → Prop
  | none => True
  | some bound => n ≤ bound

instance (n : Nat) (bound : Option Nat) : Decidable (Within n bound) :=
  match bound with
  | none => inferInstanceAs (Decidable True)
  | some bound => inferInstanceAs (Decidable (n ≤ bound))

@[simp]
theorem within_some {n bound : Nat} : Within n (some bound) ↔ n ≤ bound := Iff.rfl

@[simp]
theorem within_zero (bound : Option Nat) : Within 0 bound := by
  cases bound with
  | none => trivial
  | some bound => exact Nat.zero_le bound

theorem Within.mono {m n : Nat} {bound : Option Nat} (h : Within n bound) (hle : m ≤ n) :
    Within m bound := by
  cases bound with
  | none => trivial
  | some bound => exact hle.trans h

namespace Pipe

def write (p : Pipe) (n : Nat) : Pipe := { p with unsent := p.unsent + n }

/-- A write of all these bytes may complete. -/
def Flushed (limits : Limits) (p : Pipe) : Prop := Within p.unsent limits.slack

instance (limits : Limits) (p : Pipe) : Decidable (p.Flushed limits) :=
  inferInstanceAs (Decidable (Within p.unsent limits.slack))

/-- The channel takes a segment of the unsent bytes, as far as it has room. -/
def accept (limits : Limits) (p : Pipe) (n : Nat) : Option Pipe :=
  if 0 < n ∧ n ≤ p.unsent ∧ Within (p.queued + n) limits.capacity then
    some { p with unsent := p.unsent - n, queued := p.queued + n }
  else none

/-- Closing flushes first: it completes when no byte is unsent. -/
def close (p : Pipe) : Option Pipe := if p.unsent = 0 then some { p with closed := true } else none

/-- The pending read of `need` bytes takes a segment from the channel. -/
def deliver (need : Nat) (p : Pipe) (n : Nat) : Option Pipe :=
  if 0 < n ∧ n ≤ p.queued ∧ p.held + n ≤ need then
    some { p with queued := p.queued - n, held := p.held + n }
  else none

/-- The pending read of `need` bytes resolves with what it holds: all of them, or fewer when the
stream has ended. -/
def complete (need : Nat) (p : Pipe) : Option (Nat × Pipe) :=
  if p.held = need ∨ (p.closed = true ∧ p.queued = 0) then some (p.held, { p with held := 0 })
  else none

/-- The bytes handed over by the writer and not yet returned by a read. -/
def inTransit (p : Pipe) : Nat := p.unsent + p.queued + p.held

theorem accept_some {limits : Limits} {p q : Pipe} {n : Nat} (h : p.accept limits n = some q) :
    0 < n ∧ n ≤ p.unsent ∧ Within (p.queued + n) limits.capacity ∧
      q = { p with unsent := p.unsent - n, queued := p.queued + n } := by
  unfold accept at h
  split at h
  · rename_i hn
    exact ⟨hn.1, hn.2.1, hn.2.2, by simpa using h.symm⟩
  · cases h

theorem close_some {p q : Pipe} (h : p.close = some q) :
    p.unsent = 0 ∧ q = { p with closed := true } := by
  unfold close at h
  split at h
  · rename_i hn
    exact ⟨hn, by simpa using h.symm⟩
  · cases h

theorem deliver_some {need : Nat} {p q : Pipe} {n : Nat} (h : p.deliver need n = some q) :
    0 < n ∧ n ≤ p.queued ∧ p.held + n ≤ need ∧
      q = { p with queued := p.queued - n, held := p.held + n } := by
  unfold deliver at h
  split at h
  · rename_i hn
    exact ⟨hn.1, hn.2.1, hn.2.2, by simpa using h.symm⟩
  · cases h

theorem complete_some {need size : Nat} {p q : Pipe} (h : p.complete need = some (size, q)) :
    (p.held = need ∨ (p.closed = true ∧ p.queued = 0)) ∧ size = p.held ∧
      q = { p with held := 0 } := by
  unfold complete at h
  split at h
  · rename_i hn
    simp only [Option.some.injEq, Prod.mk.injEq] at h
    exact ⟨hn, h.1.symm, h.2.symm⟩
  · cases h

/-- A pending read is never stuck against a channel that holds bytes or has ended. -/
theorem deliver_or_complete {need : Nat} {p : Pipe} (hheld : p.held ≤ need)
    (h : 0 < p.queued ∨ p.closed = true) :
    (∃ n q, p.deliver need n = some q) ∨ ∃ size q, p.complete need = some (size, q) := by
  by_cases hfull : p.held = need
  · exact Or.inr ⟨_, _, if_pos (Or.inl hfull)⟩
  · by_cases hqueued : 0 < p.queued
    · exact Or.inl ⟨1, _, if_pos ⟨Nat.one_pos, hqueued, by omega⟩⟩
    · rcases h with hpos | hclosed
      · exact absurd hpos hqueued
      · exact Or.inr ⟨_, _, if_pos (Or.inr ⟨hclosed, by omega⟩)⟩

/-- Unsent bytes move as long as the channel has room. -/
theorem accept_of_room {limits : Limits} {p : Pipe} (hunsent : 0 < p.unsent)
    (hroom : Within (p.queued + 1) limits.capacity) : ∃ q, p.accept limits 1 = some q :=
  ⟨_, if_pos ⟨Nat.one_pos, hunsent, hroom⟩⟩

end Pipe

/-- Reads of `size` bytes of which only the last one came back short: each of them began another
`size` bytes. -/
theorem reads_eq_ceilDiv {size bytes reads : Nat} (hsize : 0 < size) (hle : bytes ≤ size * reads)
    (hlt : 0 < reads → size * reads < bytes + size) : reads = bytes ⌈/⌉ size := by
  apply le_antisymm
  · rcases Nat.eq_zero_or_pos reads with hzero | hpos
    · rw [hzero]
      exact Nat.zero_le _
    · have hceil : bytes ≤ size * (bytes ⌈/⌉ size) := (ceilDiv_le_iff_le_mul hsize).mp le_rfl
      have hnext : size * reads < size * (bytes ⌈/⌉ size + 1) := by
        have hread := hlt hpos
        rw [Nat.mul_add, Nat.mul_one]
        omega
      have := Nat.lt_of_mul_lt_mul_left hnext
      omega
  · exact (ceilDiv_le_iff_le_mul hsize).mpr hle

end ByteStream
