import Mathlib.Algebra.BigOperators.Group.List.Basic
import Mathlib.Data.List.Dedup
import Mathlib.Data.List.Sort

/-! Rows grouped by a key, the groups in the order of their keys: what a query computes that groups
and orders by one column. Every row is in the group of its key and in no other one, so sums over
the groups add up to the sum over all rows, and the order of the rows does not matter to them. -/

namespace GroupBy

variable {Row Key M : Type*} [LinearOrder Key] [AddCommMonoid M] (key : Row → Key)

def keys (rows : List Row) : List Key := (rows.map key).dedup.insertionSort (· ≤ ·)

def group (rows : List Row) (k : Key) : List Row := rows.filter fun row => key row = k

variable {key} {rows rows' : List Row}

@[simp]
theorem mem_keys {k : Key} : k ∈ keys key rows ↔ ∃ row ∈ rows, key row = k := by
  rw [keys, (List.perm_insertionSort _ _).mem_iff, List.mem_dedup, List.mem_map]

theorem nodup_keys : (keys key rows).Nodup :=
  (List.perm_insertionSort _ _).nodup_iff.mpr (List.nodup_dedup _)

theorem keys_strict : (keys key rows).Pairwise (· < ·) := by
  have hsorted : (keys key rows).Pairwise (· ≤ ·) := List.pairwise_insertionSort _ _
  exact (hsorted.and nodup_keys).imp fun h => lt_of_le_of_ne h.1 h.2

theorem keys_perm (h : rows.Perm rows') : keys key rows = keys key rows' := by
  have hdedup : (rows.map key).dedup.Perm (rows'.map key).dedup := (h.map key).dedup
  have hperm : (keys key rows).Perm (keys key rows') :=
    calc (keys key rows).Perm (rows.map key).dedup := List.perm_insertionSort _ _
      List.Perm _ (rows'.map key).dedup := hdedup
      List.Perm _ (keys key rows') := (List.perm_insertionSort _ _).symm
  apply hperm.eq_of_pairwise _ keys_strict keys_strict
  intro a b _ _ hab hba
  exact absurd (hab.trans hba) (lt_irrefl a)

theorem group_perm (h : rows.Perm rows') (k : Key) :
    (group key rows k).Perm (group key rows' k) := h.filter _

/-- What is nothing for all keys but one sums up to its value there. -/
theorem sum_single {ks : List Key} (hnodup : ks.Nodup) {k : Key} (hk : k ∈ ks) (x : M) :
    (ks.map fun j => if k = j then x else 0).sum = x := by
  induction ks with
  | nil => cases hk
  | cons j ks ih =>
      obtain ⟨hj, hks⟩ := List.nodup_cons.mp hnodup
      rw [List.map_cons, List.sum_cons]
      rcases List.mem_cons.mp hk with rfl | htail
      · have hzero : (ks.map fun j => if k = j then x else 0).sum = 0 := by
          apply List.sum_eq_zero
          intro y hy
          obtain ⟨j, hmem, rfl⟩ := List.mem_map.mp hy
          apply if_neg
          intro heq
          rw [← heq] at hmem
          exact hj hmem
        rw [if_pos rfl, hzero, add_zero]
      · have hne : k ≠ j := by
          rintro rfl
          exact hj htail
        rw [if_neg hne, zero_add, ih hks htail]

/-- Each row is in one group of any list of distinct keys that has its key. -/
theorem sum_groups_of_nodup (value : Row → M) {ks : List Key} (hnodup : ks.Nodup)
    (hkeys : ∀ row ∈ rows, key row ∈ ks) :
    (ks.map fun k => ((group key rows k).map value).sum).sum = (rows.map value).sum := by
  induction rows with
  | nil => simp [group]
  | cons row rows ih =>
      have hrow : key row ∈ ks := hkeys row List.mem_cons_self
      have hrest := ih fun row hmem => hkeys row (List.mem_cons_of_mem _ hmem)
      have hsplit : ∀ k, ((group key (row :: rows) k).map value).sum =
          (if key row = k then value row else 0) + ((group key rows k).map value).sum := by
        intro k
        by_cases hk : key row = k <;> simp [group, hk]
      simp only [hsplit]
      rw [List.sum_map_add, sum_single hnodup hrow, hrest, List.map_cons, List.sum_cons]

/-- The sums over the groups add up to the sum over all rows. -/
theorem sum_groups (value : Row → M) :
    ((keys key rows).map fun k => ((group key rows k).map value).sum).sum =
      (rows.map value).sum :=
  sum_groups_of_nodup value nodup_keys fun row hrow => mem_keys.mpr ⟨row, hrow, rfl⟩

end GroupBy
