import Mathlib.Algebra.Order.Floor.Semiring
import Mathlib.Data.List.Count
import Mathlib.Data.List.Sort
import Mathlib.Order.Interval.Set.Defs
import Mathlib.Tactic.Linarith

/-!
# Quantiles

What is read off a list of numbers by rank: its order statistics, and on the lines between two adjacent ones.

* `IsOrderStatistic`: the number of a rank, told by how many are smaller; it does not depend on the order of the list,
  and `isOrderStatistic_insertionSort` finds it in the sorted one.
* `interpolate`: a sequence, continued by lines. It is the sequence at the natural numbers (`interpolate_natCast`), lies
  between the adjacent values (`le_interpolate`, `interpolate_le`) and ascends if the sequence does
  (`monotoneOn_interpolate`).
-/

namespace Quantiles

/-! ### Order statistics -/

section OrderStatistic

variable {α : Type*} [LinearOrder α] {as bs : List α} {k : ℕ} {a b : α}

/-- The number of rank `k`, counted from 0: at most `k` are smaller, and more are not greater. -/
def IsOrderStatistic (as : List α) (k : ℕ) (a : α) : Prop :=
  as.countP (· < a) ≤ k ∧ k < as.countP (· ≤ a)

theorem isOrderStatistic_perm (h : as.Perm bs) : IsOrderStatistic as k a ↔ IsOrderStatistic bs k a := by
  rw [IsOrderStatistic, IsOrderStatistic, h.countP_eq, h.countP_eq]

/-- There is one number of each rank. -/
theorem IsOrderStatistic.eq (ha : IsOrderStatistic as k a) (hb : IsOrderStatistic as k b) : a = b := by
  have hle : ∀ {a b : α}, IsOrderStatistic as k a → IsOrderStatistic as k b → b ≤ a := fun {a b} ha hb ↦ by
    by_contra hlt
    have hcount : as.countP (· ≤ a) ≤ as.countP (· < b) := List.countP_mono_left fun c _ hc ↦
      decide_eq_true (lt_of_le_of_lt (of_decide_eq_true hc) (not_le.1 hlt))
    exact absurd (ha.2.trans_le (hcount.trans hb.1)) (lt_irrefl k)
  exact le_antisymm (hle hb ha) (hle ha hb)

/-- In a sorted list the number of a rank stands at it. -/
theorem isOrderStatistic_of_pairwise (h : as.Pairwise (· ≤ ·)) (hget : as[k]? = some a) : IsOrderStatistic as k a := by
  obtain ⟨front, rest, rfl, rfl⟩ : ∃ front rest, as = front ++ a :: rest ∧ front.length = k := by
    obtain ⟨hk, rfl⟩ := List.getElem?_eq_some_iff.1 hget
    exact ⟨as.take k, as.drop (k + 1), by rw [List.getElem_cons_drop hk, List.take_append_drop], by simp [hk.le]⟩
  rw [List.pairwise_append, List.pairwise_cons] at h
  obtain ⟨-, ⟨hafter, -⟩, hbefore⟩ := h
  have hnone : rest.countP (· < a) = 0 := List.countP_eq_zero.2 fun c hc ↦ by simpa using hafter c hc
  have hall : front.countP (· ≤ a) = front.length :=
    List.countP_eq_length.2 fun c hc ↦ by simpa using hbefore c hc a List.mem_cons_self
  have hfront := List.countP_le_length (p := (· < a)) (l := front)
  rw [IsOrderStatistic, List.countP_append, List.countP_append, List.countP_cons, List.countP_cons, hnone, hall]
  simp only [lt_irrefl, le_refl, decide_false, decide_true, Bool.false_eq_true, if_false, if_true]
  omega

theorem isOrderStatistic_insertionSort (h : (as.insertionSort (· ≤ ·))[k]? = some a) : IsOrderStatistic as k a :=
  (isOrderStatistic_perm (List.perm_insertionSort _ as)).1
    (isOrderStatistic_of_pairwise (List.pairwise_insertionSort _ as) h)

theorem insertionSort_eq_of_perm (h : as.Perm bs) : as.insertionSort (· ≤ ·) = bs.insertionSort (· ≤ ·) :=
  List.Perm.eq_of_pairwise' (List.pairwise_insertionSort _ as) (List.pairwise_insertionSort _ bs)
    ((List.perm_insertionSort _ as).trans (h.trans (List.perm_insertionSort _ bs).symm))

end OrderStatistic

/-! ### Between the natural numbers -/

section Interpolate

variable {K : Type*} [Field K] [LinearOrder K] [IsStrictOrderedRing K] [FloorSemiring K]

/-- A sequence, continued by the lines between adjacent values. -/
def interpolate (s : ℕ → K) (x : K) : K :=
  s ⌊x⌋₊ + (s (⌊x⌋₊ + 1) - s ⌊x⌋₊) * (x - ⌊x⌋₊)

variable {s : ℕ → K} {x : K}

theorem interpolate_natCast (s : ℕ → K) (n : ℕ) : interpolate s n = s n := by
  rw [interpolate, Nat.floor_natCast, sub_self, mul_zero, add_zero]

theorem le_interpolate (hs : Monotone s) (hx : 0 ≤ x) : s ⌊x⌋₊ ≤ interpolate s x := by
  refine le_add_of_nonneg_right (mul_nonneg (sub_nonneg.2 (hs (Nat.le_succ _))) ?_)
  exact sub_nonneg.2 (Nat.floor_le hx)

theorem interpolate_le (hs : Monotone s) (x : K) : interpolate s x ≤ s (⌊x⌋₊ + 1) := by
  have hpart : x - ⌊x⌋₊ ≤ 1 := sub_le_iff_le_add'.2 (Nat.lt_floor_add_one x).le
  have hstep := mul_le_of_le_one_right (sub_nonneg.2 (hs (Nat.le_succ ⌊x⌋₊))) hpart
  rw [interpolate]
  linarith

/-- **It ascends with the sequence**: within a step along a line, and from one step to another over a value between. -/
theorem monotoneOn_interpolate (hs : Monotone s) : MonotoneOn (interpolate s) (Set.Ici 0) := by
  intro x hx y hy hxy
  rcases (Nat.floor_mono hxy).eq_or_lt with heq | hlt
  · have hslope : 0 ≤ s (⌊x⌋₊ + 1) - s ⌊x⌋₊ := sub_nonneg.2 (hs (Nat.le_succ _))
    have hline := mul_le_mul_of_nonneg_left (sub_le_sub_right hxy (⌊x⌋₊ : K)) hslope
    rw [interpolate, interpolate, ← heq]
    exact add_le_add_right hline _
  · calc interpolate s x ≤ s (⌊x⌋₊ + 1) := interpolate_le hs x
      _ ≤ s ⌊y⌋₊ := hs hlt
      _ ≤ interpolate s y := le_interpolate hs hy

end Interpolate

end Quantiles
