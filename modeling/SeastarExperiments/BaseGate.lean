import SeastarExperiments.BaseWindows

/-! A gate and the tasks that have entered it. A gate counts its holders; closing it refuses later
entries, and the future of the close resolves when the last holder has left. A task run through
`withGate` holds the gate until it is over, whichever way it ends. -/

structure Gate where
  count : Nat := 0
  closed : Bool := false
  deriving DecidableEq

namespace Gate

def enter (g : Gate) : Option Gate := if g.closed then none else some { g with count := g.count + 1 }

def leave (g : Gate) : Gate := { g with count := g.count - 1 }

def close (g : Gate) : Gate := { g with closed := true }

/-- The future returned by `close` has resolved. -/
def closeResolved (g : Gate) : Bool := g.closed && g.count == 0

@[simp]
theorem leave_closed (g : Gate) : g.leave.closed = g.closed := rfl

theorem enter_open {g : Gate} (h : g.closed = false) :
    g.enter = some { g with count := g.count + 1 } := by
  rw [enter, h]
  rfl

theorem enter_closed {g : Gate} (h : g.closed = true) : g.enter = none := by
  rw [enter, h]
  rfl

theorem closeResolved_iff {g : Gate} : g.closeResolved = true ↔ g.closed = true ∧ g.count = 0 := by
  rw [closeResolved, Bool.and_eq_true, beq_iff_eq]

end Gate

/-- A gate with the tasks that have entered it, each by its present state, and the number of tasks
it has refused. -/
structure Gated (Task : Type*) where
  gate : Gate := {}
  tasks : List Task := []
  refused : Nat := 0
  deriving DecidableEq

namespace Gated

variable {Task : Type*} (finished : Task → Bool)

/-- `with_gate`. A task that is over when its function returns has already left. -/
def withGate (g : Gated Task) (task : Task) : Gated Task :=
  match g.gate.enter with
  | none => { g with refused := g.refused + 1 }
  | some gate =>
      { g with
        gate := if finished task then gate.leave else gate
        tasks := g.tasks ++ [task] }

/-- A loop that runs one task after the other through the gate, without waiting. -/
def withGateEach (g : Gated Task) (tasks : List Task) : Gated Task :=
  tasks.foldl (fun g task => g.withGate finished task) g

/-- A task goes on, and leaves the gate when it is over. -/
def advance (g : Gated Task) (j : Nat) (task : Task) : Gated Task :=
  { g with
    gate := if finished task then g.gate.leave else g.gate
    tasks := g.tasks.set j task }

/-- Something that was started by a task goes on behind the gate's back. -/
def replace (g : Gated Task) (j : Nat) (task : Task) : Gated Task :=
  { g with tasks := g.tasks.set j task }

def close (g : Gated Task) : Gated Task := { g with gate := g.gate.close }

/-- The tasks that still hold the gate. -/
def unfinished (g : Gated Task) : Nat := g.tasks.countP fun task => !finished task

/-- The gate is held by the unfinished tasks and by this many holders besides. -/
def Balanced (others : Nat) (g : Gated Task) : Prop := g.gate.count = others + g.unfinished finished

variable {finished} {g : Gated Task} {others : Nat}

theorem withGate_open (h : g.gate.closed = false) (task : Task) :
    g.withGate finished task =
      { g with
        gate := if finished task then g.gate else { g.gate with count := g.gate.count + 1 }
        tasks := g.tasks ++ [task] } := by
  unfold withGate
  rw [Gate.enter_open h]
  rfl

theorem withGate_closed (h : g.gate.closed = true) (task : Task) :
    g.withGate finished task = { g with refused := g.refused + 1 } := by
  unfold withGate
  rw [Gate.enter_closed h]

@[simp]
theorem withGate_gate_closed (task : Task) :
    (g.withGate finished task).gate.closed = g.gate.closed := by
  cases h : g.gate.closed with
  | true => rw [withGate_closed h, h]
  | false =>
      rw [withGate_open h]
      by_cases hf : finished task = true <;> simp [hf, h]

@[simp]
theorem advance_gate_closed (j : Nat) (task : Task) :
    (g.advance finished j task).gate.closed = g.gate.closed := by
  unfold advance
  split <;> rfl

theorem balanced_empty : Balanced finished 0 ({} : Gated Task) := rfl

theorem Balanced.withGate (h : g.Balanced finished others) (task : Task) :
    (g.withGate finished task).Balanced finished others := by
  cases hclosed : g.gate.closed with
  | true =>
      rw [withGate_closed hclosed]
      exact h
  | false =>
      rw [withGate_open hclosed]
      unfold Balanced unfinished at h ⊢
      rw [List.countP_append]
      cases hf : finished task with
      | true => simpa [hf] using h
      | false =>
          simp [hf, h]
          omega

theorem withGateEach_cons (task : Task) (tasks : List Task) :
    g.withGateEach finished (task :: tasks) = (g.withGate finished task).withGateEach finished tasks :=
  rfl

theorem Balanced.withGateEach (h : g.Balanced finished others) (tasks : List Task) :
    (g.withGateEach finished tasks).Balanced finished others := by
  induction tasks generalizing g with
  | nil => exact h
  | cons task tasks ih =>
      rw [withGateEach_cons]
      exact ih (h.withGate task)

/-- An open gate takes all of them in, in their order. -/
theorem withGateEach_open (h : g.gate.closed = false) (tasks : List Task) :
    (g.withGateEach finished tasks).tasks = g.tasks ++ tasks ∧
      (g.withGateEach finished tasks).refused = g.refused := by
  induction tasks generalizing g with
  | nil => exact ⟨(List.append_nil _).symm, rfl⟩
  | cons task tasks ih =>
      rw [withGateEach_cons]
      obtain ⟨htasks, hrefused⟩ := ih (g := g.withGate finished task)
        (by rw [withGate_gate_closed, h])
      rw [htasks, hrefused, withGate_open h]
      exact ⟨by rw [List.append_assoc]; rfl, rfl⟩

theorem withGateEach_closed (h : g.gate.closed = true) (tasks : List Task) :
    (g.withGateEach finished tasks).tasks = g.tasks := by
  induction tasks generalizing g with
  | nil => rfl
  | cons task tasks ih =>
      rw [withGateEach_cons, ih (by rw [withGate_gate_closed, h]), withGate_closed h]

/-- The task that goes on was unfinished; with its last step it gives its hold back. -/
theorem Balanced.advance (h : g.Balanced finished others) {j : Nat} {old : Task}
    (hold : g.tasks[j]? = some old) (hbusy : finished old = false) (new : Task) :
    (g.advance finished j new).Balanced finished others := by
  have hcount := Table.countP_set (fun task => !finished task) hold new
  unfold Balanced unfinished at h ⊢
  unfold Gated.advance
  cases hf : finished new with
  | true =>
      simp only [hbusy, hf, Bool.not_false, Bool.not_true, if_true, Bool.false_eq_true, if_false]
        at hcount ⊢
      simp only [Gate.leave]
      omega
  | false =>
      simp only [hbusy, hf, Bool.not_false, if_true, Bool.false_eq_true, if_false] at hcount ⊢
      omega

theorem Balanced.replace (h : g.Balanced finished others) {j : Nat} {old : Task}
    (hold : g.tasks[j]? = some old) {new : Task} (hsame : finished new = finished old) :
    (g.replace j new).Balanced finished others := by
  have hcount := Table.countP_set (fun task => !finished task) hold new
  rw [hsame] at hcount
  unfold Balanced unfinished at h ⊢
  unfold Gated.replace
  simp only
  omega

theorem Balanced.close (h : g.Balanced finished others) : g.close.Balanced finished others := h

/-- Once nobody holds the gate, every task that entered it is over. -/
theorem Balanced.all_finished (h : g.Balanced finished others) (hcount : g.gate.count = 0) :
    ∀ task ∈ g.tasks, finished task = true := by
  intro task htask
  by_contra hf
  have hpos : 0 < g.unfinished finished :=
    List.countP_pos_iff.mpr ⟨task, htask, by simpa using hf⟩
  unfold Balanced at h
  omega

end Gated
