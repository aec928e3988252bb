import LocalGateway.Foundations.Quantiles
import LocalGateway.Routing.RenameTables
import LocalGateway.Routing.WarmFirst
import Mathlib.Algebra.Order.Floor.Ring
import Mathlib.Algebra.Order.Floor.Semifield
import Mathlib.Data.List.GetD
import Mathlib.Data.Rat.Floor

/-!
# Percentiles

`percentile` of `usage.py`, over the numbers of any ordered field, with any function in the place of `round(x, 2)`.

* `percentile_eq`: the sorted values, interpolated at `(n - 1) * p`.
* `percentile_laws`: the indexes are within the list, the result is between the rounded extremes, the rounded order
  statistic at an integer and the same for every order of the values, and it ascends with `p`.
* `median_exact`: the median that routing uses is the percentile of one half.
-/

namespace LocalGateway

open Quantiles

/-! ### Lists -/

/-- `s[i]`: a negative index counts from the end, and `none` is an `IndexError`. -/
def itemAt {α : Type*} (s : List α) (i : ℤ) : Option α :=
  if 0 ≤ i then s[i.toNat]?
  else if 0 ≤ s.length + i then s[(s.length + i).toNat]?
  else none

theorem itemAt_natCast {α : Type*} (s : List α) (i : ℕ) : itemAt s i = s[i]? := by
  rw [itemAt, if_pos (Int.natCast_nonneg i), Int.toNat_natCast]

section Held

variable {K : Type*} [Zero K]

/-- The entries of a list, the last of which goes on. -/
def held (s : List K) (i : ℕ) : K :=
  s.getD (min i (s.length - 1)) 0

theorem getElem?_held {s : List K} {i : ℕ} (h : i < s.length) : s[i]? = some (held s i) := by
  rw [held, min_eq_left (by omega), List.getD_eq_getElem _ _ h, List.getElem?_eq_getElem h]

theorem held_mem {s : List K} (h : s ≠ []) (i : ℕ) : held s i ∈ s := by
  have hpos := List.length_pos_iff.2 h
  have hi : min i (s.length - 1) < s.length := by omega
  rw [held, List.getD_eq_getElem _ _ hi]
  exact List.getElem_mem hi

theorem monotone_held [LinearOrder K] {s : List K} (h : s.Pairwise (· ≤ ·)) : Monotone (held s) := by
  intro i j hij
  rcases eq_or_ne s [] with rfl | hne
  · exact le_rfl
  · have hpos := List.length_pos_iff.2 hne
    have hi : min i (s.length - 1) < s.length := by omega
    have hj : min j (s.length - 1) < s.length := by omega
    rw [held, held, List.getD_eq_getElem _ _ hi, List.getD_eq_getElem _ _ hj]
    exact List.sortedLE_iff_getElem_le_getElem_of_le.1 h.sortedLE (min_le_min_right _ hij)

end Held

/-! ### The function -/

variable {K : Type*} [Field K] [LinearOrder K] [FloorRing K]

/-- `int(x)`, toward zero. -/
def truncate (x : K) : ℤ :=
  if 0 ≤ x then ⌊x⌋ else ⌈x⌉

/-- `k`: where among `n` values the percentile is. -/
def rankOf (n : ℕ) (p : K) : K :=
  ((n - 1 : ℤ) : K) * p

/-- `f`. -/
def lowerIndex (n : ℕ) (p : K) : ℤ :=
  truncate (rankOf n p)

/-- `c`. -/
def upperIndex (n : ℕ) (p : K) : ℤ :=
  min (lowerIndex n p + 1) (n - 1)

/-- `percentile`; the outer `none` is an `IndexError`, the inner one what there is of no values. -/
def percentile (round : K → K) (values : List K) (p : K) : Option (Option K) :=
  if values = [] then some none
  else
    let s := values.insertionSort (· ≤ ·)
    let k := rankOf s.length p
    let f := lowerIndex s.length p
    let c := upperIndex s.length p
    if f = c then (itemAt s f).map fun x ↦ some (round x)
    else (itemAt s f).bind fun x ↦ (itemAt s c).map fun y ↦ some (round (x + (y - x) * (k - f)))

/-- What is known of a percentile. -/
structure PercentileLaws (round : K → K) (values : List K) (p x : K) : Prop where
  returned : percentile round values p = some (some x)
  indexes : 0 ≤ lowerIndex values.length p ∧ lowerIndex values.length p ≤ upperIndex values.length p ∧
    upperIndex values.length p < values.length
  least : ∀ lo, IsLeast {v | v ∈ values} lo → round lo ≤ x
  greatest : ∀ hi, IsGreatest {v | v ∈ values} hi → x ≤ round hi
  orderStatistic : ∀ m : ℕ, rankOf values.length p = m → ∃ v, IsOrderStatistic values m v ∧ x = round v
  order : ∀ values' : List K, values'.Perm values → percentile round values' p = some (some x)

theorem percentile_perm (round : K → K) {values values' : List K} (h : values'.Perm values) (p : K) :
    percentile round values' p = percentile round values p := by
  have hnil : values' = [] ↔ values = [] := ⟨fun hnil ↦ (hnil ▸ h).nil_eq.symm, fun hnil ↦ (hnil ▸ h).eq_nil⟩
  rw [percentile, percentile, insertionSort_eq_of_perm h]
  exact if_congr hnil rfl rfl

variable [IsStrictOrderedRing K]

section Laws

variable {n : ℕ} {p : K} (hn : 0 < n) (hp : 0 ≤ p) (hp' : p ≤ 1)

omit [LinearOrder K] [FloorRing K] [IsStrictOrderedRing K] in
include hn in
theorem cast_pred : ((n - 1 : ℤ) : K) = (n - 1 : ℕ) := by
  rw [Nat.cast_sub (by omega)]
  push_cast
  rfl

omit [FloorRing K] in
include hn hp in
theorem rankOf_nonneg : 0 ≤ rankOf n p := by
  rw [rankOf, cast_pred hn]
  exact mul_nonneg (Nat.cast_nonneg _) hp

omit [FloorRing K] in
include hn hp' in
theorem rankOf_le : rankOf n p ≤ (n - 1 : ℕ) := by
  rw [rankOf, cast_pred hn]
  exact mul_le_of_le_one_right (Nat.cast_nonneg _) hp'

include hn hp in
theorem lowerIndex_eq : lowerIndex n p = ⌊rankOf n p⌋₊ := by
  rw [lowerIndex, truncate, if_pos (rankOf_nonneg hn hp), Int.natCast_floor_eq_floor (rankOf_nonneg hn hp)]

include hn hp' in
theorem floor_rankOf_lt : ⌊rankOf n p⌋₊ < n := by
  have hfloor : ⌊rankOf n p⌋₊ ≤ n - 1 := Nat.floor_le_of_le (rankOf_le hn hp')
  omega

include hn hp hp' in
/-- The indexes are within the list. -/
theorem indexes_within : 0 ≤ lowerIndex n p ∧ lowerIndex n p ≤ upperIndex n p ∧ upperIndex n p < n := by
  have hlt := floor_rankOf_lt hn hp'
  rw [upperIndex, lowerIndex_eq hn hp]
  omega

end Laws

/-- **The percentile is read off the sorted values**, or off the line between two of them. -/
theorem percentile_eq (round : K → K) {values : List K} (hne : values ≠ []) {p : K} (hp : 0 ≤ p) (hp' : p ≤ 1) :
    percentile round values p =
      some (some (round (interpolate (held (values.insertionSort (· ≤ ·))) (rankOf values.length p)))) := by
  have hn : 0 < values.length := List.length_pos_iff.2 hne
  have hlt := floor_rankOf_lt hn hp'
  have hrank := rankOf_le hn hp'
  rw [percentile, if_neg hne]
  simp only [List.length_insertionSort, upperIndex, lowerIndex_eq hn hp]
  set s := values.insertionSort (· ≤ ·) with hs
  have hlength : s.length = values.length := List.length_insertionSort _ _
  set m := ⌊rankOf values.length p⌋₊ with hm
  have hget : itemAt s m = some (held s m) := by rw [itemAt_natCast, getElem?_held (by omega)]
  by_cases hlast : m = values.length - 1
  · -- only the greatest value is at the end
    have heq : rankOf values.length p = m :=
      le_antisymm (hlast ▸ hrank) (Nat.floor_le (rankOf_nonneg hn hp))
    rw [if_pos (by omega), hget, heq, interpolate_natCast]
    rfl
  · have hupper : min ((m : ℤ) + 1) (values.length - 1) = ((m + 1 : ℕ) : ℤ) := by omega
    rw [if_neg (by omega), hupper, hget, Option.bind_some, itemAt_natCast, getElem?_held (by omega), interpolate, ← hm]
    simp

/-- **Percentile laws.** For values in any number and order and `0 ≤ p ≤ q ≤ 1`, with a monotone rounding: the laws of
each percentile, and that of `p` is at most that of `q`. -/
theorem percentile_laws {round : K → K} (hround : Monotone round) {values : List K} (hne : values ≠ []) {p q : K}
    (hp : 0 ≤ p) (hpq : p ≤ q) (hq : q ≤ 1) :
    ∃ x y, PercentileLaws round values p x ∧ PercentileLaws round values q y ∧ x ≤ y := by
  have hn : 0 < values.length := List.length_pos_iff.2 hne
  have hmono := monotone_held (List.pairwise_insertionSort (· ≤ ·) values)
  have hlength : (values.insertionSort (· ≤ ·)).length = values.length := List.length_insertionSort _ _
  have hmem : ∀ i, held (values.insertionSort (· ≤ ·)) i ∈ values := fun i ↦
    (List.mem_insertionSort (· ≤ ·)).1 (held_mem (List.length_pos_iff.1 (by omega)) i)
  have hlaws : ∀ {p : K}, 0 ≤ p → p ≤ 1 → PercentileLaws round values p
      (round (interpolate (held (values.insertionSort (· ≤ ·))) (rankOf values.length p))) := fun {p} hp hp' ↦ by
    refine ⟨percentile_eq round hne hp hp', indexes_within hn hp hp', fun lo hlo ↦ ?_, fun hi hhi ↦ ?_,
      fun m hm ↦ ?_, fun values' h ↦ ?_⟩
    · exact hround ((hlo.2 (hmem _)).trans (le_interpolate hmono (rankOf_nonneg hn hp)))
    · exact hround ((interpolate_le hmono _).trans (hhi.2 (hmem _)))
    · have hlt := floor_rankOf_lt hn hp'
      rw [hm, Nat.floor_natCast] at hlt
      refine ⟨_, isOrderStatistic_insertionSort (getElem?_held (by omega)), ?_⟩
      rw [hm, interpolate_natCast]
    · rw [percentile_perm round h]
      exact percentile_eq round hne hp hp'
  refine ⟨_, _, hlaws hp (hpq.trans hq), hlaws (hp.trans hpq) hq, hround ?_⟩
  refine monotoneOn_interpolate hmono (rankOf_nonneg hn hp) (rankOf_nonneg hn (hp.trans hpq)) ?_
  rw [rankOf, rankOf, cast_pred hn]
  exact mul_le_mul_of_nonneg_left hpq (Nat.cast_nonneg _)

/-- The throughput of three requests, at the median and the fast tail. -/
theorem percentile_laws_sample : ∃ x y, PercentileLaws (PyFloat.roundTo 2) [190, 10, 100] (1 / 2) x ∧
    PercentileLaws (PyFloat.roundTo 2) [190, 10, 100] (9 / 10) y ∧ x ≤ y :=
  percentile_laws (fun _ _ h ↦ roundTo_mono 2 h) (by decide) (by norm_num) (by norm_num) (by norm_num)

example : percentile (PyFloat.roundTo 2) [190, 10, 100] (9 / 10) = some (some 172) := by decide +kernel

/-! ### The median -/

theorem exactFloats_sub (a b : ℚ) : exactFloats.add (.fin a) (PyFloat.fin b).neg = .fin (a - b) := by
  rcases eq_or_ne b 0 with rfl | hb
  · show PyFloat.fin (a + 0) = _
    rw [add_zero, sub_zero]
  · rw [PyFloat.neg, if_neg hb, sub_eq_add_neg]
    rfl

/-- **The median is the percentile of one half**, where nothing is rounded but the result. -/
theorem median_exact {fl : Rounding} (hexact : fl.toFloats = exactFloats) {round : ℚ → ℚ}
    (hround : ∀ x, fl.roundCents (.fin x) = .fin (round x)) (values : List ℚ) :
    some (median fl (values.map .fin)) = (percentile round values (1 / 2)).map (Option.map .fin) := by
  rcases eq_or_ne values [] with rfl | hne
  · rfl
  have hsort : (values.map PyFloat.fin).insertionSort (fun a b ↦ b.lt a = false) =
      (values.insertionSort (· ≤ ·)).map .fin := by
    refine (List.map_insertionSort _ _ _ _ fun a _ b _ ↦ ?_).symm
    show a ≤ b ↔ decide (b < a) = false
    rw [decide_eq_false_iff_not, not_lt]
  rw [percentile_eq round hne (by norm_num) (by norm_num)]
  have hn : 0 < values.length := List.length_pos_iff.2 hne
  have hlength : (values.insertionSort (· ≤ ·)).length = values.length := List.length_insertionSort _ _
  have hrank : rankOf values.length (1 / 2 : ℚ) = ((values.length - 1 : ℕ) : ℚ) / 2 := by
    rw [rankOf, cast_pred hn, mul_one_div]
  set sorted := values.insertionSort (· ≤ ·)
  set last := values.length - 1 with hlast
  have hfloor : ⌊(last : ℚ) / 2⌋₊ = last / 2 := by simpa using Nat.floor_div_eq_div (K := ℚ) last 2
  have hpart : (last : ℚ) / 2 - (last / 2 : ℕ) = if last % 2 = 0 then 0 else 1 / 2 := by
    have hdiv : (last : ℚ) = 2 * (last / 2 : ℕ) + (last % 2 : ℕ) := by exact_mod_cast (Nat.div_add_mod last 2).symm
    rcases Nat.mod_two_eq_zero_or_one last with hmod | hmod <;> rw [hmod] at hdiv ⊢ <;> simp <;> linarith
  have hlow : sorted.getD (last / 2) 0 = held sorted (last / 2) := by
    rw [held, hlength, min_eq_left (by omega)]
  have hhigh : sorted.getD (min (last / 2 + 1) last) 0 = held sorted (last / 2 + 1) := by
    rw [held, hlength]
  have hline : interpolate (held sorted) ((last : ℚ) / 2) = held sorted (last / 2) +
      (held sorted (last / 2 + 1) - held sorted (last / 2)) * if last % 2 = 0 then 0 else 1 / 2 := by
    rw [interpolate, hfloor, hpart]
  unfold median
  simp only [hsort, List.map_eq_nil_iff, if_neg hne, List.length_map, hlength, List.getD_map, hrank, hline]
  rw [hlow, hhigh]
  split_ifs with hend hmod hmod
  · rw [hround, mul_zero, add_zero]
    rfl
  · omega
  all_goals
    rw [hexact, exactFloats_sub]
    exact congrArg (some ∘ some) (hround _)

end LocalGateway
