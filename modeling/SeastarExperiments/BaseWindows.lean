import Mathlib.Algebra.BigOperators.Group.List.Basic
import Mathlib.Algebra.GroupWithZero.Nat
import Mathlib.Data.List.Induction

/-! Two facts about lists that any counted log needs: a log cut at its tick events into one window
per tick and a remainder, and the change of a sum over a table when one row is replaced. -/

namespace Windows

variable {Event : Type*} (tick : Event → Bool)

/-- One step of the cut: a tick closes the current window, another event joins it. -/
def extend (w : List (List Event) × List Event) (e : Event) : List (List Event) × List Event :=
  if tick e then (w.1 ++ [w.2], []) else (w.1, w.2 ++ [e])

/-- The windows closed by a tick, in tick order. -/
def closed (es : List Event) : List (List Event) := (es.foldl (extend tick) ([], [])).1

/-- The events since the last tick. -/
def current (es : List Event) : List Event := (es.foldl (extend tick) ([], [])).2

theorem closed_concat_tick {e : Event} (h : tick e = true) (es : List Event) :
    closed tick (es ++ [e]) = closed tick es ++ [current tick es] := by
  simp [closed, current, extend, h]

theorem current_concat_tick {e : Event} (h : tick e = true) (es : List Event) :
    current tick (es ++ [e]) = [] := by
  simp [current, extend, h]

theorem closed_concat_other {e : Event} (h : tick e = false) (es : List Event) :
    closed tick (es ++ [e]) = closed tick es := by
  simp [closed, extend, h]

theorem current_concat_other {e : Event} (h : tick e = false) (es : List Event) :
    current tick (es ++ [e]) = current tick es ++ [e] := by
  simp [current, extend, h]

/-- The windows and the remainder are the log itself without its ticks: no event is lost and none
is in two windows. -/
theorem flatten_closed_append_current (es : List Event) :
    (closed tick es).flatten ++ current tick es = es.filter fun e => !tick e := by
  induction es using List.reverseRecOn with
  | nil => rfl
  | append_singleton es e ih =>
      cases h : tick e with
      | true =>
          rw [closed_concat_tick tick h, current_concat_tick tick h, List.filter_append]
          simp [h, ← ih]
      | false =>
          rw [closed_concat_other tick h, current_concat_other tick h, List.filter_append]
          simp [h, ← ih]

theorem mem_of_mem_closed {es w : List Event} {e : Event} (hw : w ∈ closed tick es) (he : e ∈ w) :
    e ∈ es := by
  have hflat : e ∈ (closed tick es).flatten ++ current tick es :=
    List.mem_append_left _ (List.mem_flatten.mpr ⟨w, hw, he⟩)
  rw [flatten_closed_append_current] at hflat
  exact List.mem_of_mem_filter hflat

theorem mem_of_mem_current {es : List Event} {e : Event} (he : e ∈ current tick es) : e ∈ es := by
  have hflat : e ∈ (closed tick es).flatten ++ current tick es := List.mem_append_right _ he
  rw [flatten_closed_append_current] at hflat
  exact List.mem_of_mem_filter hflat

/-- The first windows are the log up to one of its ticks, without the ticks. -/
theorem take_closed (es : List Event) (k : Nat) :
    ∃ pre, pre <+: es ∧ ((closed tick es).take k).flatten = pre.filter fun e => !tick e := by
  induction es using List.reverseRecOn with
  | nil => exact ⟨[], List.prefix_rfl, by cases k <;> rfl⟩
  | append_singleton es e ih =>
      obtain ⟨pre, hpre, hwindows⟩ := ih
      cases h : tick e with
      | false =>
          rw [closed_concat_other tick h]
          exact ⟨pre, hpre.trans (List.prefix_append es [e]), hwindows⟩
      | true =>
          rw [closed_concat_tick tick h]
          by_cases hk : k ≤ (closed tick es).length
          · rw [List.take_append_of_le_length hk]
            exact ⟨pre, hpre.trans (List.prefix_append es [e]), hwindows⟩
          · refine ⟨es, List.prefix_append es [e], ?_⟩
            rw [List.take_of_length_le (by simp; omega), List.flatten_append,
              ← flatten_closed_append_current]
            simp

end Windows

namespace Table

variable {Row : Type*}

/-- Replacing one row changes a sum over the table by the difference of the two rows. -/
theorem sum_map_set (f : Row → Nat) {rows : List Row} {j : Nat} {old : Row}
    (h : rows[j]? = some old) (new : Row) :
    ((rows.set j new).map f).sum + f old = (rows.map f).sum + f new := by
  induction rows generalizing j with
  | nil => simp at h
  | cons row rows ih =>
      cases j with
      | zero =>
          cases h
          simp only [List.set_cons_zero, List.map_cons, List.sum_cons]
          omega
      | succ j =>
          have hrest := ih (j := j) (by simpa using h)
          simp only [List.set_cons_succ, List.map_cons, List.sum_cons]
          omega

theorem countP_set (p : Row → Bool) {rows : List Row} {j : Nat} {old : Row}
    (h : rows[j]? = some old) (new : Row) :
    (rows.set j new).countP p + (if p old then 1 else 0) =
      rows.countP p + (if p new then 1 else 0) := by
  obtain ⟨hj, hold⟩ := List.getElem?_eq_some_iff.mp h
  have hpos : p old = true → 0 < rows.countP p := fun hp =>
    List.countP_pos_iff.mpr ⟨old, hold ▸ List.getElem_mem hj, hp⟩
  rw [List.countP_set hj, hold]
  cases hp : p old with
  | false => simp
  | true =>
      have := hpos hp
      simp only [if_true]
      omega

/-- The row that a search by key finds has the key. -/
theorem key_of_findIdx {Key : Type*} [DecidableEq Key] {key : Row → Key} {rows : List Row} {k : Key}
    {j : Nat} {row : Row} (h : rows.findIdx? (fun row => key row = k) = some j)
    (hrow : rows[j]? = some row) : key row = k := by
  obtain ⟨hj, hkey, -⟩ := List.findIdx?_eq_some_iff_getElem.mp h
  rw [List.getElem?_eq_getElem hj, Option.some.injEq] at hrow
  subst hrow
  simpa using hkey

theorem get_set_self {rows : List Row} {j : Nat} {old : Row} (h : rows[j]? = some old)
    (new : Row) : (rows.set j new)[j]? = some new := by
  obtain ⟨hj, -⟩ := List.getElem?_eq_some_iff.mp h
  exact List.getElem?_set_self hj

/-- A column that the new row shares with the old one stays as it is. -/
theorem map_set_same {Cell : Type*} (f : Row → Cell) {rows : List Row} {j : Nat} {old new : Row}
    (h : rows[j]? = some old) (hsame : f new = f old) : (rows.set j new).map f = rows.map f := by
  rw [List.map_set]
  apply List.ext_getElem?
  intro k
  rw [List.getElem?_set]
  split
  · rename_i hk
    subst hk
    split
    · rw [List.getElem?_map, h, hsame]
      rfl
    · rename_i hlength
      rw [List.getElem?_eq_none (by omega)]
  · rfl

/-- A property of every row survives a replacement by a row that has it. -/
theorem forall_mem_set {P : Row → Prop} {rows : List Row} {j : Nat} {new : Row}
    (h : ∀ row ∈ rows, P row) (hnew : P new) : ∀ row ∈ rows.set j new, P row := by
  intro row hrow
  rcases List.mem_or_eq_of_mem_set hrow with hold | rfl
  · exact h row hold
  · exact hnew

/-- A column of zeros and ones, the ones in rows of this kind only. -/
theorem sum_le_countP {f : Row → Nat} {p : Row → Bool} {rows : List Row}
    (h : ∀ row ∈ rows, f row ≤ (p row).toNat) : (rows.map f).sum ≤ rows.countP p := by
  induction rows with
  | nil => exact Nat.le_refl 0
  | cons row rows ih =>
      have hrest := ih fun other hother => h other (List.mem_cons_of_mem _ hother)
      have hrow := h row List.mem_cons_self
      rw [List.map_cons, List.sum_cons, List.countP_cons]
      cases hp : p row <;> simp [hp] at hrow ⊢ <;> omega

/-- Two columns that differ by at most one in each row differ by at most the number of rows. -/
theorem sum_le_sum_add_length {f g : Row → Nat} {rows : List Row}
    (h : ∀ row ∈ rows, f row ≤ g row ∧ g row ≤ f row + 1) :
    (rows.map f).sum ≤ (rows.map g).sum ∧ (rows.map g).sum ≤ (rows.map f).sum + rows.length := by
  induction rows with
  | nil => exact ⟨Nat.le_refl 0, Nat.le_refl 0⟩
  | cons row rows ih =>
      obtain ⟨hle, hge⟩ := ih fun other hother => h other (List.mem_cons_of_mem _ hother)
      obtain ⟨hrow, hrow'⟩ := h row List.mem_cons_self
      simp only [List.map_cons, List.sum_cons, List.length_cons]
      omega

/-- Where the items of each row tell the row they come from, those of one row can be counted in the
whole. -/
theorem countP_flatMap_eq {Item : Type*} {f : Row → List Item} {p : Item → Bool} {rows : List Row}
    {j : Nat} (h : ∀ k row, rows[k]? = some row → ∀ m ∈ f row, p m = true ↔ k = j) :
    (rows.flatMap f).countP p = ((rows[j]?).elim [] f).length := by
  induction rows generalizing j with
  | nil => rfl
  | cons row rows ih =>
      have hrow := h 0 row rfl
      have hrest := fun k other hother => h (k + 1) other hother
      rw [List.flatMap_cons, List.countP_append]
      cases j with
      | zero =>
          have hfirst : (f row).countP p = (f row).length :=
            List.countP_eq_length.mpr fun m hm => (hrow m hm).mpr rfl
          have hnone : (rows.flatMap f).countP p = 0 := by
            apply List.countP_eq_zero.mpr
            intro m hm hp
            obtain ⟨other, hmem, hm⟩ := List.mem_flatMap.mp hm
            obtain ⟨k, hk⟩ := List.getElem?_of_mem hmem
            exact absurd ((hrest k other hk m hm).mp hp) (Nat.succ_ne_zero k)
          rw [hfirst, hnone]
          rfl
      | succ j =>
          have hnone : (f row).countP p = 0 :=
            List.countP_eq_zero.mpr fun m hm hp => absurd ((hrow m hm).mp hp) (Nat.succ_ne_zero j).symm
          rw [hnone, Nat.zero_add, List.getElem?_cons_succ]
          exact ih fun k other hother m hm => (hrest k other hother m hm).trans Nat.succ_inj

end Table
