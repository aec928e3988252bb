import Mathlib.Algebra.GroupWithZero.Nat
import Mathlib.Data.List.Nodup

/-!
# Dictionaries

A dictionary keeps its items in the order in which their keys were inserted, each key once. A value
is replaced at the place of its key; a new key goes to the end.

* `get?_alter`, `get?_erase`: what is found under a key after a change.
* `find_items`: the items with a given key are what is found under it.
-/

/-- A dictionary: its items, in the order of the insertion of their keys. -/
structure Dict (κ α : Type*) where
  items : List (κ × α)
  nodup : (items.map Prod.fst).Nodup

namespace Dict

variable {κ α β : Type*} [DecidableEq κ]

/-- `{}`. -/
def empty : Dict κ α :=
  ⟨[], .nil⟩

/-- `d.get(k)`. -/
def get? (d : Dict κ α) (k : κ) : Option α :=
  d.items.lookup k

/-- The items after `d[k] = f(d.get(k))`. -/
def alterItems (k : κ) (f : Option α → α) : List (κ × α) → List (κ × α)
  | [] => [(k, f none)]
  | e :: items => if e.1 = k then (k, f (some e.2)) :: items else e :: alterItems k f items

theorem map_fst_alterItems (k : κ) (f : Option α → α) (items : List (κ × α)) :
    (alterItems k f items).map Prod.fst =
      if k ∈ items.map Prod.fst then items.map Prod.fst else items.map Prod.fst ++ [k] := by
  induction items with
  | nil => simp [alterItems]
  | cons e items ih =>
    rw [alterItems]
    split_ifs with he hmem hmem
    · simp [he]
    · simp [he] at hmem
    · have htail : k ∈ items.map Prod.fst := by simpa [Ne.symm he] using hmem
      rw [List.map_cons, ih, if_pos htail, List.map_cons]
    · have htail : k ∉ items.map Prod.fst := by simpa [Ne.symm he] using hmem
      rw [List.map_cons, ih, if_neg htail, List.map_cons, List.cons_append]

/-- `d[k] = f(d.get(k))`. -/
def alter (d : Dict κ α) (k : κ) (f : Option α → α) : Dict κ α where
  items := alterItems k f d.items
  nodup := by
    rw [map_fst_alterItems]
    split_ifs with hmem
    · exact d.nodup
    · rw [← List.concat_eq_append]
      exact d.nodup.concat hmem

/-- `del d[k]`, where a key that is not there is no error. -/
def erase (d : Dict κ α) (k : κ) : Dict κ α where
  items := d.items.filter (·.1 ≠ k)
  nodup := d.nodup.sublist (List.filter_sublist.map _)

/-- The items that pass a test. -/
def filter (d : Dict κ α) (p : κ × α → Bool) : Dict κ α where
  items := d.items.filter p
  nodup := d.nodup.sublist (List.filter_sublist.map _)

/-- `{k: f(v) for k, v in d.items()}`. -/
def mapValues (d : Dict κ α) (f : α → β) : Dict κ β where
  items := d.items.map fun e ↦ (e.1, f e.2)
  nodup := by
    rw [List.map_map]
    exact d.nodup

/-! ### What is found under a key -/

variable {d : Dict κ α} {k l : κ}

@[simp] theorem get?_empty : (empty : Dict κ α).get? k = none := rfl

theorem lookup_cons_eq [BEq κ] [LawfulBEq κ] {e : κ × α} {items : List (κ × α)} :
    (e :: items).lookup k = if e.1 = k then some e.2 else items.lookup k := by
  rw [List.lookup_cons]
  split_ifs with h
  · rw [h, beq_self_eq_true]
  · rw [beq_false_of_ne (Ne.symm h)]

theorem lookup_map_values [BEq κ] [LawfulBEq κ] {β : Type*} (f : α → β) (d : List (κ × α)) (k : κ) :
    (d.map fun e ↦ (e.1, f e.2)).lookup k = (d.lookup k).map f := by
  induction d with
  | nil => rfl
  | cons e d ih =>
    rw [List.map_cons, lookup_cons_eq, lookup_cons_eq, ih]
    split_ifs <;> rfl

theorem lookup_alterItems (f : Option α → α) (items : List (κ × α)) :
    (alterItems l f items).lookup k = if k = l then some (f (items.lookup l)) else items.lookup k := by
  induction items with
  | nil =>
    rw [alterItems, lookup_cons_eq]
    simp only [eq_comm (a := l), List.lookup_nil]
  | cons e items ih =>
    obtain ⟨m, v⟩ := e
    rw [alterItems]
    rcases eq_or_ne m l with rfl | hm
    · rw [if_pos rfl, lookup_cons_eq, lookup_cons_eq, lookup_cons_eq, if_pos rfl]
      simp only [eq_comm (a := m)]
      split_ifs <;> rfl
    · rw [if_neg hm, lookup_cons_eq, ih, lookup_cons_eq, lookup_cons_eq, if_neg hm]
      split_ifs with hmk hkl
      · exact absurd (hmk.trans hkl) hm
      all_goals rfl

/-- What is found after a change of the value of `l`. -/
theorem get?_alter (d : Dict κ α) (f : Option α → α) :
    (d.alter l f).get? k = if k = l then some (f (d.get? l)) else d.get? k :=
  lookup_alterItems f d.items

@[simp] theorem get?_alter_self (d : Dict κ α) (k : κ) (f : Option α → α) :
    (d.alter k f).get? k = some (f (d.get? k)) := by
  rw [get?_alter, if_pos rfl]

theorem get?_alter_of_ne (d : Dict κ α) (f : Option α → α) (h : k ≠ l) :
    (d.alter l f).get? k = d.get? k := by
  rw [get?_alter, if_neg h]

/-- The items with a key are what is found under it. -/
theorem find_items (d : Dict κ α) (k : κ) :
    (d.items.filter (·.1 = k)).map Prod.snd = (d.get? k).toList := by
  obtain ⟨items, hnodup⟩ := d
  show (items.filter (·.1 = k)).map Prod.snd = (items.lookup k).toList
  induction items with
  | nil => rfl
  | cons e items ih =>
    obtain ⟨hmem, hrest⟩ := List.nodup_cons.1 hnodup
    rw [lookup_cons_eq, List.filter_cons]
    simp only [decide_eq_true_eq]
    split_ifs with he
    · -- no other item has the key
      have hnone : items.filter (·.1 = k) = [] := by
        rw [List.filter_eq_nil_iff]
        rintro e' he' hk
        exact hmem (List.mem_map.2 ⟨e', he', (of_decide_eq_true hk).trans he.symm⟩)
      rw [hnone]
      rfl
    · exact ih hrest

theorem mem_items_iff {v : α} : (k, v) ∈ d.items ↔ d.get? k = some v := by
  have hmem : v ∈ (d.items.filter (·.1 = k)).map Prod.snd ↔ (k, v) ∈ d.items := by
    simp
  rw [← hmem, find_items, Option.mem_toList]

theorem get?_eq_none_iff : d.get? k = none ↔ ∀ v, (k, v) ∉ d.items := by
  simp [Option.eq_none_iff_forall_ne_some, mem_items_iff]

theorem get?_filter (d : Dict κ α) (p : κ × α → Bool) (k : κ) :
    (d.filter p).get? k = (d.get? k).filter fun v ↦ p (k, v) := by
  refine Option.ext fun v ↦ ?_
  rw [← mem_items_iff, Option.filter_eq_some_iff, ← mem_items_iff]
  exact List.mem_filter

theorem get?_mapValues (d : Dict κ α) (f : α → β) (k : κ) :
    (d.mapValues f).get? k = (d.get? k).map f := by
  refine Option.ext fun v ↦ ?_
  rw [← mem_items_iff, Option.map_eq_some_iff]
  simp only [← mem_items_iff]
  simp [mapValues]

theorem get?_erase (d : Dict κ α) (l k : κ) :
    (d.erase l).get? k = if k = l then none else d.get? k := by
  have h := get?_filter d (fun e ↦ e.1 ≠ l) k
  rw [erase, ← filter, h]
  split_ifs with hk <;> cases d.get? k <;> simp [Option.filter, hk]

/-! ### Sizes -/

section Sizes

variable (g : κ × α → ℕ)

/-- With a changed value its size changes, and no other. -/
theorem sum_alter_add (d : Dict κ α) (f : Option α → α) :
    ((d.alter k f).items.map g).sum + ((d.get? k).elim 0 fun v ↦ g (k, v)) =
      (d.items.map g).sum + g (k, f (d.get? k)) := by
  show ((alterItems k f d.items).map g).sum + ((d.items.lookup k).elim 0 fun v ↦ g (k, v)) =
    (d.items.map g).sum + g (k, f (d.items.lookup k))
  generalize d.items = items
  induction items with
  | nil => simp [alterItems]
  | cons e items ih =>
    obtain ⟨l, v⟩ := e
    rw [alterItems, lookup_cons_eq]
    split_ifs with hl
    · obtain rfl : l = k := hl
      simp only [List.map_cons, List.sum_cons, Option.elim_some]
      omega
    · simp only [List.map_cons, List.sum_cons]
      omega

/-- What is erased is missing from the sizes. -/
theorem sum_erase_add (d : Dict κ α) {v : α} (h : d.get? k = some v) :
    ((d.erase k).items.map g).sum + g (k, v) = (d.items.map g).sum := by
  obtain ⟨items, hnodup⟩ := d
  replace h : items.lookup k = some v := h
  show ((items.filter (·.1 ≠ k)).map g).sum + g (k, v) = (items.map g).sum
  induction items with
  | nil => cases h
  | cons e items ih =>
    obtain ⟨hmem, hrest⟩ := List.nodup_cons.1 hnodup
    obtain ⟨l, w⟩ := e
    rw [lookup_cons_eq] at h
    by_cases hl : l = k
    · -- no other item has the key
      obtain rfl : w = v := by simpa [hl] using h
      have hall : items.filter (·.1 ≠ k) = items := List.filter_eq_self.2 fun e he ↦ by
        refine decide_eq_true fun hk ↦ hmem (List.mem_map.2 ⟨e, he, ?_⟩)
        rw [hk, hl]
      rw [List.filter_cons_of_neg (by simp [hl]), hall, List.map_cons, List.sum_cons, hl, Nat.add_comm]
    · have ih := ih hrest (by simpa [hl] using h)
      rw [List.filter_cons_of_pos (by simpa using hl), List.map_cons, List.sum_cons, List.map_cons, List.sum_cons,
        ← ih, Nat.add_assoc]

/-- A change keeps the number of the items, or adds one. -/
theorem length_alter_add (d : Dict κ α) (f : Option α → α) :
    (d.alter k f).items.length + ((d.get? k).elim 0 fun _ ↦ 1) = d.items.length + 1 := by
  have hsize := sum_alter_add (k := k) (fun _ ↦ 1) d f
  rwa [List.map_const', List.map_const', List.sum_replicate_nat, List.sum_replicate_nat, Nat.mul_one,
    Nat.mul_one] at hsize

/-- What is erased is one item. -/
theorem length_erase_add (d : Dict κ α) {v : α} (h : d.get? k = some v) :
    (d.erase k).items.length + 1 = d.items.length := by
  have hsize := sum_erase_add (fun _ ↦ 1) d h
  rwa [List.map_const', List.map_const', List.sum_replicate_nat, List.sum_replicate_nat, Nat.mul_one,
    Nat.mul_one] at hsize

end Sizes

/-! ### What is read off all items -/

section FilterMap

variable {g : κ × α → Option β}

/-- A change that the reader does not see. -/
theorem filterMap_alter (d : Dict κ α) {f : Option α → α} (hnew : g (k, f none) = none)
    (hold : ∀ v, g (k, f (some v)) = g (k, v)) :
    (d.alter k f).items.filterMap g = d.items.filterMap g := by
  obtain ⟨items, hnodup⟩ := d
  show (alterItems k f items).filterMap g = items.filterMap g
  clear hnodup
  induction items with
  | nil => simp [alterItems, hnew]
  | cons e items ih =>
    obtain ⟨l, v⟩ := e
    rw [alterItems]
    split_ifs with hl
    · obtain rfl : l = k := hl
      rw [List.filterMap_cons, List.filterMap_cons, hold]
    · rw [List.filterMap_cons, ih, List.filterMap_cons]

/-- The reader sees nothing of what is erased. -/
theorem filterMap_erase (d : Dict κ α) (h : ∀ v, d.get? k = some v → g (k, v) = none) :
    (d.erase k).items.filterMap g = d.items.filterMap g := by
  rw [erase, List.filterMap_filter]
  refine List.filterMap_congr ?_
  rintro ⟨l, v⟩ hmem
  rcases eq_or_ne l k with rfl | hl
  · simp [h v (mem_items_iff.1 hmem)]
  · simp [hl]

end FilterMap

end Dict
