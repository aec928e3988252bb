import Mathlib.Algebra.BigOperators.Group.Finset.Piecewise
import Mathlib.Data.List.Dedup
import Mathlib.Data.List.ReduceOption

/-!
# Grouped rows

The rows of a table by a key, and the sum of a column with nulls.

* `sum_groups`: what is summed up in each group comes to the sum over all rows.
* `groups_filter`, `groups_map`: the groups of some of the keys, and of keys under another name.
* `filter_groups_pair`: groups by two keys, one of which is given.
* `sumColumn_getD`: a sum with its nulls left out.

Nothing here knows what the rows or the keys are.
-/

namespace Grouped

variable {α κ ι : Type*} [DecidableEq κ] [DecidableEq ι] (key : α → κ) (rows : List α)

/-- `GROUP BY`: each key with its rows. -/
def groups : List (κ × List α) :=
  (rows.map key).dedup.map fun k ↦ (k, rows.filter fun row ↦ key row = k)

variable {key rows}

/-- The groups are the rows of the keys that occur. -/
theorem mem_groups_iff {g : κ × List α} :
    g ∈ groups key rows ↔ (∃ row ∈ rows, key row = g.1) ∧ g.2 = rows.filter fun row ↦ key row = g.1 := by
  rw [groups, List.mem_map]
  simp only [List.mem_dedup, List.mem_map]
  constructor
  · rintro ⟨k, hk, rfl⟩
    exact ⟨hk, rfl⟩
  · rintro ⟨hk, hg⟩
    exact ⟨g.1, hk, Prod.ext rfl hg.symm⟩

/-- What is looked up for a key is of its rows; for a key that does not occur there are none. -/
theorem lookup_groups [BEq κ] [LawfulBEq κ] {β : Type*} (f : List α → β) (k : κ) :
    (((groups key rows).map fun g ↦ (g.1, f g.2)).lookup k).getD (f []) =
      f (rows.filter fun row ↦ key row = k) := by
  rw [groups, List.map_map]
  by_cases hk : k ∈ (rows.map key).dedup
  · exact congrArg (·.getD (f [])) (List.lookup_graph (fun k ↦ f (rows.filter fun row ↦ key row = k)) hk)
  · have hnone : ((rows.map key).dedup.map fun k ↦ (k, f (rows.filter fun row ↦ key row = k))).lookup k = none := by
      rw [List.lookup_eq_none_iff]
      rintro ⟨k', b⟩ hmem
      obtain ⟨l, hl, heq⟩ := List.mem_map.1 hmem
      obtain ⟨rfl, -⟩ := Prod.mk.inj heq
      have hne : k ≠ l := fun heq ↦ hk (by rwa [heq])
      simpa using hne
    have hrows : (rows.filter fun row ↦ key row = k) = [] := by
      rw [List.filter_eq_nil_iff]
      intro row hrow
      have hne : key row ≠ k := fun heq ↦ hk (List.mem_dedup.2 (heq ▸ List.mem_map_of_mem hrow))
      simpa using hne
    rw [hrows]
    exact congrArg (·.getD (f [])) hnone

theorem dedup_filter (p : κ → Bool) (l : List κ) : (l.filter p).dedup = l.dedup.filter p := by
  induction l with
  | nil => rfl
  | cons a l ih =>
    rcases hp : p a with - | - <;> rw [List.filter_cons, hp, List.dedup_cons]
    · rw [if_neg Bool.false_ne_true, ih]
      split_ifs
      · rfl
      · rw [List.filter_cons, hp, if_neg Bool.false_ne_true]
    · rw [if_pos rfl, List.dedup_cons, ih]
      by_cases hmem : a ∈ l
      · rw [if_pos hmem, if_pos (List.mem_filter.2 ⟨hmem, hp⟩)]
      · rw [if_neg hmem, if_neg fun h ↦ hmem (List.mem_filter.1 h).1, List.filter_cons, hp, if_pos rfl]

/-- The groups of the keys with a property. -/
theorem groups_filter (p : κ → Bool) :
    (groups key rows).filter (fun g ↦ p g.1) = groups key (rows.filter fun row ↦ p (key row)) := by
  have hkeys : (rows.filter fun row ↦ p (key row)).map key = (rows.map key).filter p := by
    rw [List.filter_map]
    rfl
  rw [groups, groups, hkeys, dedup_filter, List.filter_map]
  refine List.map_congr_left fun k hk ↦ Prod.ext rfl ?_
  have hp : p k = true := (List.mem_filter.1 hk).2
  rw [List.filter_filter]
  refine List.filter_congr fun row _ ↦ ?_
  by_cases hrow : key row = k <;> simp [hrow, hp]

/-- The groups of keys under another name. -/
theorem groups_map {f : κ → ι} (hf : Function.Injective f) :
    groups (fun row ↦ f (key row)) rows = (groups key rows).map fun g ↦ (f g.1, g.2) := by
  have hkeys : rows.map (fun row ↦ f (key row)) = (rows.map key).map f := (List.map_map ..).symm
  rw [groups, groups, hkeys, List.dedup_map_of_injective hf, List.map_map, List.map_map]
  exact List.map_congr_left fun k _ ↦ Prod.ext rfl (List.filter_congr fun row _ ↦ by simp [hf.eq_iff])

/-- Rows with one key in common are grouped alike. -/
theorem groups_congr {key' : α → κ} (h : ∀ row ∈ rows, key row = key' row) : groups key rows = groups key' rows := by
  rw [groups, groups, List.map_congr_left h]
  exact List.map_congr_left fun k _ ↦ Prod.ext rfl (List.filter_congr fun row hrow ↦ by rw [h row hrow])

/-- The groups of a pair of keys with one of the two given are those of the other key, among the rows of the first. -/
theorem filter_groups_pair (a : α → ι) (b : α → κ) (k : κ) :
    ((groups (fun row ↦ (a row, b row)) rows).filter fun g ↦ g.1.2 = k) =
      (groups a (rows.filter fun row ↦ b row = k)).map fun g ↦ ((g.1, k), g.2) := by
  rw [groups_filter fun l : ι × κ ↦ decide (l.2 = k), ← groups_map (Prod.mk_left_injective k)]
  refine groups_congr fun row hrow ↦ Prod.ext rfl ?_
  simpa using (List.mem_filter.1 hrow).2

section Sum

variable {M : Type*} [AddCommMonoid M]

/-- The sums over the rows of each of some keys that occur. -/
theorem sum_filter_keys (f : α → M) (s : Finset κ) (h : ∀ row ∈ rows, key row ∈ s) :
    (∑ k ∈ s, ((rows.filter fun row ↦ key row = k).map f).sum) = (rows.map f).sum := by
  induction rows with
  | nil => simp
  | cons row rows ih =>
    have hstep (k : κ) : (((row :: rows).filter fun row ↦ key row = k).map f).sum =
        (if key row = k then f row else 0) + ((rows.filter fun row ↦ key row = k).map f).sum := by
      by_cases hk : key row = k <;> simp [hk]
    rw [Finset.sum_congr rfl fun k _ ↦ hstep k, Finset.sum_add_distrib, Finset.sum_ite_eq,
      if_pos (h row List.mem_cons_self), ih fun row hrow ↦ h row (List.mem_cons_of_mem _ hrow), List.map_cons,
      List.sum_cons]

/-- **The sum of the sums of the groups.** -/
theorem sum_groups (f : α → M) : ((groups key rows).map fun g ↦ (g.2.map f).sum).sum = (rows.map f).sum := by
  have hkeys : ∀ row ∈ rows, key row ∈ (rows.map key).dedup.toFinset := fun row hrow ↦
    List.mem_toFinset.2 (List.mem_dedup.2 (List.mem_map_of_mem hrow))
  rw [← sum_filter_keys f _ hkeys, List.sum_toFinset _ (List.nodup_dedup _), groups, List.map_map]
  rfl

/-- `SUM` of a column: nothing if there are only nulls. -/
def sumColumn (column : List (Option M)) : Option M :=
  if column.reduceOption.isEmpty then none else some column.reduceOption.sum

/-- Where nothing counts as zero, nulls do not matter. -/
theorem sumColumn_getD (column : List (Option M)) : (sumColumn column).getD 0 = column.reduceOption.sum := by
  rcases hcolumn : column.reduceOption with - | ⟨a, as⟩ <;> simp [sumColumn, hcolumn]

theorem sum_reduceOption (f : α → Option M) :
    (rows.map f).reduceOption.sum = (rows.map fun row ↦ (f row).getD 0).sum := by
  induction rows with
  | nil => rfl
  | cons row rows ih =>
    rcases hrow : f row with - | a
    · simp [hrow, List.reduceOption_cons_of_none, ih]
    · simp [hrow, List.reduceOption_cons_of_some, ih]

end Sum

end Grouped
