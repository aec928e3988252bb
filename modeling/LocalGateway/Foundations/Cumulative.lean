import Mathlib.Algebra.BigOperators.Group.List.Basic
import Mathlib.Algebra.Order.BigOperators.Group.List
import Mathlib.Algebra.Order.Group.Unbundled.Basic

/-!
# Cumulative weights

Weights laid end to end divide the numbers below their sum into intervals, one for each weight. `pick` is the loop that
looks for the interval a number is in.

* `Lands.eq`: a number is in one interval at most, if no weight is negative.
* `lands_pick`: the loop finds it.
* `Lands.pos`: it is that of a positive weight.
-/

namespace Cumulative

variable {K : Type*}

section Intervals

variable [LinearOrder K]

/-- Among ascending bounds, at most one interval contains a number. -/
theorem interval_unique {bound : ℕ → K} (hmono : Monotone bound) {x : K} {i j : ℕ}
    (hi : bound i ≤ x ∧ x < bound (i + 1)) (hj : bound j ≤ x ∧ x < bound (j + 1)) : i = j := by
  have hle : ∀ {i j : ℕ}, bound i ≤ x → x < bound (j + 1) → i ≤ j := fun {i j} hlow hhigh ↦ by
    by_contra hlt
    exact absurd (hhigh.trans_le (hmono (show j + 1 ≤ i by omega))) hlow.not_gt
  exact le_antisymm (hle hi.1 hj.2) (hle hj.1 hi.2)

end Intervals

variable [AddCommGroup K] [LinearOrder K]

/-- The first index at which the running sum exceeds `x`, and 0 if there is none. -/
def pick (x acc : K) (i : ℕ) : List K → ℕ
  | [] => 0
  | w :: ws => if x < acc + w then i else pick x (acc + w) (i + 1) ws

/-- A number is in the interval of a weight. -/
def Lands (ws : List K) (x : K) (i : ℕ) : Prop :=
  (ws.take i).sum ≤ x ∧ x < (ws.take (i + 1)).sum

variable {ws : List K} {x : K} {i j : ℕ}

theorem Lands.lt_length (h : Lands ws x i) : i < ws.length := by
  by_contra hle
  have hall := h.1.trans_lt h.2
  rw [List.take_of_length_le (by omega), List.take_of_length_le (by omega)] at hall
  exact lt_irrefl _ hall

/-- The loop finds the interval of a number below the sum. -/
theorem pick_spec (i : ℕ) (ws : List K) {acc : K} (hle : acc ≤ x) (hlt : x < acc + ws.sum) :
    ∃ j < ws.length, pick x acc i ws = i + j ∧ acc + (ws.take j).sum ≤ x ∧ x < acc + (ws.take (j + 1)).sum := by
  induction ws generalizing i acc with
  | nil =>
    rw [List.sum_nil, add_zero] at hlt
    exact absurd hlt hle.not_gt
  | cons w ws ih =>
    rw [pick]
    split_ifs with hfirst
    · exact ⟨0, Nat.succ_pos _, rfl, by simpa using hle, by simpa using hfirst⟩
    · rw [List.sum_cons, ← add_assoc] at hlt
      obtain ⟨j, hj, hpick, hlow, hhigh⟩ := ih (i + 1) (not_lt.1 hfirst) hlt
      refine ⟨j + 1, Nat.succ_lt_succ hj, by rw [hpick]; omega, ?_, ?_⟩
      · rwa [List.take_succ_cons, List.sum_cons, ← add_assoc]
      · rwa [List.take_succ_cons, List.sum_cons, ← add_assoc]

theorem lands_pick (hx : 0 ≤ x) (hlt : x < ws.sum) : Lands ws x (pick x 0 0 ws) := by
  obtain ⟨j, -, hpick, hlow, hhigh⟩ := pick_spec 0 ws hx (by rwa [zero_add])
  rw [zero_add] at hpick hlow hhigh
  rw [hpick]
  exact ⟨hlow, hhigh⟩

variable [IsOrderedAddMonoid K]

theorem monotone_sum_take (h : ∀ w ∈ ws, 0 ≤ w) : Monotone fun i ↦ (ws.take i).sum := by
  refine monotone_nat_of_le_succ fun i ↦ ?_
  rcases lt_or_ge i ws.length with hi | hi
  · rw [List.sum_take_succ _ _ hi]
    exact le_add_of_nonneg_right (h _ (List.getElem_mem hi))
  · rw [List.take_of_length_le hi, List.take_of_length_le (by omega)]

theorem Lands.eq (h : ∀ w ∈ ws, 0 ≤ w) (hi : Lands ws x i) (hj : Lands ws x j) : i = j :=
  interval_unique (monotone_sum_take h) hi hj

/-- An interval with a number in it is that of a positive weight. -/
theorem Lands.pos (h : Lands ws x i) : ∃ w, ws[i]? = some w ∧ 0 < w := by
  have hi := h.lt_length
  have hgrows := h.1.trans_lt h.2
  rw [List.sum_take_succ _ _ hi] at hgrows
  exact ⟨ws[i], List.getElem?_eq_getElem hi, pos_of_lt_add_right hgrows⟩

end Cumulative
