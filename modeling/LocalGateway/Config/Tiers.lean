import Mathlib.Data.Int.ConditionallyCompleteOrder
import LocalGateway.Routing.Guarantees

/-!
# The tiers of a model

The priority of a backend is the number of its tier: backends of one number share a tier, and a tier is a
fallback of those with smaller numbers. `set_backends_tiers` gives any backend any tier and leaves the list
as it is, so that its order says nothing about the tiers. `remove_backend` numbers what is left by its
order.

* `removeBackend_keepsTiers_iff`: when the tiers of the others survive that.
-/

namespace LocalGateway

open Py Json

/-- The backends are the same, in the same order, and of any two of them the first is in an earlier tier
than the second exactly if it was. -/
structure KeepsTiers (before after : List BackendConfig) : Prop where
  same : after.map BackendConfig.fields = before.map BackendConfig.fields
  tiers : ∀ (i j : ℕ) (a b a' b' : BackendConfig), before[i]? = some a → before[j]? = some b →
    after[i]? = some a' → after[j]? = some b' → (a'.priority < b'.priority ↔ a.priority < b.priority)

/-- Numbers that grow with the place keep the tiers exactly if the tiers have grown with it already. -/
theorem keepsTiers_numbered_iff {number : ℕ → ℤ} (hnumber : StrictMono number) {bs : List BackendConfig} :
    KeepsTiers bs (bs.mapIdx fun i b ↦ { b with priority := number i }) ↔
      (bs.map BackendConfig.priority).Pairwise (· < ·) := by
  have hget : ∀ {i : ℕ} {b : BackendConfig}, bs[i]? = some b →
      (bs.mapIdx fun i b ↦ { b with priority := number i })[i]? = some { b with priority := number i } := by
    intro i b hb
    rw [List.getElem?_mapIdx, hb]
    rfl
  rw [List.pairwise_map, List.pairwise_iff_getElem]
  constructor
  · rintro ⟨-, htiers⟩ i j hi hj hij
    have hbi := List.getElem?_eq_getElem hi
    have hbj := List.getElem?_eq_getElem hj
    exact (htiers i j _ _ _ _ hbi hbj (hget hbi) (hget hbj)).1 (hnumber hij)
  · intro hsorted
    refine ⟨?_, fun i j a b a' b' ha hb ha' hb' ↦ ?_⟩
    · refine List.ext_getElem? fun i ↦ ?_
      rw [List.getElem?_map, List.getElem?_map, List.getElem?_mapIdx, Option.map_map]
      rfl
    · obtain rfl := Option.some.inj ((hget ha).symm.trans ha')
      obtain rfl := Option.some.inj ((hget hb).symm.trans hb')
      obtain ⟨hi, rfl⟩ := List.getElem?_eq_some_iff.1 ha
      obtain ⟨hj, rfl⟩ := List.getElem?_eq_some_iff.1 hb
      show number i < number j ↔ _
      rw [hnumber.lt_iff_lt]
      -- both orders are that of the places
      rcases lt_trichotomy i j with hij | rfl | hji
      · exact iff_of_true hij (hsorted i j hi hj hij)
      · exact iff_of_false (lt_irrefl i) (lt_irrefl _)
      · exact iff_of_false hji.not_gt (hsorted j i hj hi hji).not_gt

/-- **When removing a backend keeps the tiers of the others**: if no two of them share one, and the list has
them in the order of their tiers. -/
theorem removeBackend_keepsTiers_iff {m : ModelConfig} {index : ℤ} (hindex : 0 ≤ index)
    (hlength : index < m.backends.length) :
    (removeBackend index m).2 = .save ∧
        KeepsTiers (m.backends.eraseIdx index.toNat) (removeBackend index m).1.backends ↔
      ((m.backends.eraseIdx index.toNat).map BackendConfig.priority).Pairwise (· < ·) := by
  have hlt : index.toNat < m.backends.length := by omega
  have hat : backendAt m index = some m.backends[index.toNat] := by
    rw [backendAt, if_neg hindex.not_gt, List.getElem?_eq_getElem hlt]
  have hnumber : StrictMono fun i : ℕ ↦ (i : ℤ) + 1 := fun i j hij ↦ by
    show (i : ℤ) + 1 < j + 1
    omega
  rw [removeBackend, hat]
  exact (and_iff_right rfl).trans (keepsTiers_numbered_iff hnumber)

/-- A model with backends of these tiers. -/
def tieredModel (priorities : List ℤ) : ModelConfig :=
  ⟨py "m", priorities.map (plainBackend (py "a")), .empty, defaultFields modelClass.specs⟩

/-- One backend in each tier. -/
theorem removeBackend_keepsTiers_chain :
    (removeBackend 0 (tieredModel [1, 2, 3])).2 = .save ∧
      KeepsTiers ((tieredModel [1, 2, 3]).backends.eraseIdx 0) (removeBackend 0 (tieredModel [1, 2, 3])).1.backends :=
  (removeBackend_keepsTiers_iff (m := tieredModel [1, 2, 3]) (by decide) (by decide)).2 (by decide)

/-- **Two backends of one tier are torn apart** when a third one is removed. -/
theorem not_keepsTiers_shared :
    ¬ KeepsTiers ((tieredModel [1, 1, 2]).backends.eraseIdx 2) (removeBackend 2 (tieredModel [1, 1, 2])).1.backends := by
  intro h
  have hiff := h.tiers 0 1 _ _ _ _ rfl rfl rfl rfl
  exact absurd (hiff.1 (by decide)) (by decide)

end LocalGateway
