import Mathlib.Data.List.Nodup

/-!
# Lists with a key for each element

Elements of a list are found by a key. As long as no two of them share it, a key stands for one place.

* `nodup_concat_iff`, `nodup_set_iff`: which new elements leave it so.
* `filter_ne_eq_eraseIdx`: taking away the elements of a key takes away one.

Nothing here knows what the elements or the keys are.
-/

namespace Keyed

variable {α ν : Type*} {key : α → ν} {l : List α} {i : ℕ} {a b : α}

/-- A list around one of its places. -/
theorem take_cons_drop (h : l[i]? = some a) : l.take i ++ a :: l.drop (i + 1) = l := by
  obtain ⟨hlt, rfl⟩ := List.getElem?_eq_some_iff.1 h
  rw [← List.drop_eq_getElem_cons hlt, List.take_append_drop]

theorem exists_split (h : l[i]? = some a) :
    ∃ before after, l = before ++ a :: after ∧ before.length = i :=
  ⟨l.take i, l.drop (i + 1), (take_cons_drop h).symm,
    List.length_take_of_le (Nat.le_of_lt (List.getElem?_eq_some_iff.1 h).1)⟩

theorem nodup_map_middle_iff {before after : List α} :
    ((before ++ a :: after).map key).Nodup ↔
      key a ∉ (before ++ after).map key ∧ ((before ++ after).map key).Nodup := by
  rw [List.map_append, List.map_cons, List.nodup_middle, List.nodup_cons, List.map_append]

theorem nodup_concat_iff (hnodup : (l.map key).Nodup) :
    ((l ++ [a]).map key).Nodup ↔ key a ∉ l.map key := by
  rw [nodup_map_middle_iff, List.append_nil]
  exact and_iff_left hnodup

/-- An element in the place of another. -/
theorem nodup_set_iff (hnodup : (l.map key).Nodup) (h : l[i]? = some a) :
    ((l.set i b).map key).Nodup ↔ key b = key a ∨ key b ∉ l.map key := by
  obtain ⟨before, after, rfl, rfl⟩ := exists_split h
  obtain ⟨hold, hrest⟩ := nodup_map_middle_iff.1 hnodup
  have hmem : key b ∈ (before ++ a :: after).map key ↔
      key b = key a ∨ key b ∈ (before ++ after).map key := by
    simp only [List.map_append, List.map_cons, List.mem_append, List.mem_cons]
    exact or_left_comm
  rw [List.set_append_right _ _ (Nat.le_refl _), Nat.sub_self, List.set_cons_zero, nodup_map_middle_iff,
    and_iff_left hrest, hmem]
  constructor
  · intro hnew
    by_cases hsame : key b = key a
    · exact .inl hsame
    · exact .inr (not_or.2 ⟨hsame, hnew⟩)
  · rintro (hsame | hnew)
    · exact hsame ▸ hold
    · exact (not_or.1 hnew).2

/-- Without the elements of a key. -/
theorem filter_ne_eq_eraseIdx [DecidableEq ν] (hnodup : (l.map key).Nodup) (h : l[i]? = some a) :
    l.filter (fun x ↦ key x ≠ key a) = l.eraseIdx i := by
  obtain ⟨before, after, rfl, rfl⟩ := exists_split h
  have hother : ∀ x ∈ before ++ after, decide (key x ≠ key a) = true := fun x hx ↦
    decide_eq_true fun heq ↦ (nodup_map_middle_iff.1 hnodup).1 (heq ▸ List.mem_map_of_mem hx)
  rw [List.eraseIdx_append_of_length_le (Nat.le_refl _), Nat.sub_self, List.eraseIdx_cons_zero, List.filter_append,
    List.filter_cons_of_neg (by simp), ← List.filter_append, List.filter_eq_self.2 hother]

end Keyed
