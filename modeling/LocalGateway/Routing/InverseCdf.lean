import LocalGateway.Python.Dict
import LocalGateway.Routing.Drain
import Mathlib.Algebra.Order.Field.Basic

/-!
# The weighted pick

`_static_weight_rotation` and `_weighted_rotation` without rounding, over the numbers of any ordered field: the order of
the items starts at the one in whose share of the total weight the draw lies.

* `Exact.inverseCdf_rotations`: both are the inverse of the cumulative weights.
* `staticWeightRotation_exact`, `weightedRotation_exact`: the functions that routing uses are these, where their
  arithmetic is exact.
-/

namespace LocalGateway

open Py Cumulative

namespace Exact

variable {α K : Type*} [Field K] [LinearOrder K]

/-- `items[start:] + items[:start]`. -/
def rotate (start : ℕ) (items : List α) : List α :=
  items.drop start ++ items.take start

/-- `_static_weight_rotation`. -/
def staticWeightRotation (items : List α) (weights : List K) (rotation : ℕ) (draw : K) : List α :=
  if items.length ≤ 1 then items
  else
    let total := (weights.map (max · 0)).sum
    if total ≤ 0 then rotate (rotation % items.length) items
    else rotate (pick (draw * total) 0 0 (weights.map (max · 0))) items

/-- The weights of items: what was measured of each, and the average of that for the others. -/
def measuredWeights (key : α → PyStr) (items : List α) (tpsMap : List (PyStr × K)) : List K :=
  let measured := items.filterMap fun s ↦ tpsMap.lookup (key s)
  items.map fun s ↦ (tpsMap.lookup (key s)).getD (measured.sum / measured.length)

/-- `_weighted_rotation`; an item is looked up by its key. -/
def weightedRotation (key : α → PyStr) (items : List α) (tpsMap : List (PyStr × K)) (rotation : ℕ) (draw : K) :
    List α :=
  if items.length ≤ 1 then items
  else if (items.filterMap fun s ↦ tpsMap.lookup (key s)) = [] then rotate (rotation % items.length) items
  else
    let weights := measuredWeights key items tpsMap
    rotate (pick (draw * weights.sum) 0 0 weights) items

/-- Items in an order that starts at the one in whose share of the weights the draw lies; no other share contains it,
and this one is not empty. -/
def InverseCdf (items : List α) (weights : List K) (draw : K) (result : List α) : Prop :=
  ∃ i, (∀ j, Lands weights (draw * weights.sum) j ↔ j = i) ∧ result = items.rotate i ∧ result.Perm items ∧
    ∃ x w, result.head? = some x ∧ items[i]? = some x ∧ weights[i]? = some w ∧ 0 < w

variable [IsStrictOrderedRing K]

/-- The order that the loop finds. -/
theorem inverseCdf_rotate {items : List α} {weights : List K} {draw : K} (hlength : weights.length = items.length)
    (hnonneg : ∀ w ∈ weights, 0 ≤ w) (htotal : 0 < weights.sum) (hdraw : 0 ≤ draw ∧ draw < 1) :
    InverseCdf items weights draw (rotate (pick (draw * weights.sum) 0 0 weights) items) := by
  have hlands := lands_pick (mul_nonneg hdraw.1 htotal.le) (mul_lt_of_lt_one_left htotal hdraw.2)
  have hi := hlength ▸ hlands.lt_length
  obtain ⟨w, hw, hpos⟩ := hlands.pos
  have hrotate : rotate (pick (draw * weights.sum) 0 0 weights) items =
      items.rotate (pick (draw * weights.sum) 0 0 weights) := (List.rotate_eq_drop_append_take hi.le).symm
  rw [hrotate]
  refine ⟨_, fun j ↦ ⟨fun hj ↦ hj.eq hnonneg hlands, fun hj ↦ hj ▸ hlands⟩, rfl, List.rotate_perm items _, ?_⟩
  have hget := List.getElem?_eq_getElem hi
  exact ⟨_, w, (List.head?_rotate hi).trans hget, hget, hw, hpos⟩

/-- **Weighted pick is an inverse CDF.** For at least two items, weights that are not negative and of which one is
positive, and any draw: the order starts at the one item in whose share of the total weight the draw lies. The items
are those that were given, and the first of them has a positive weight. -/
theorem inverseCdf_rotations {items : List α} (hitems : 2 ≤ items.length) {draw : K} (hdraw : 0 ≤ draw ∧ draw < 1)
    (rotation : ℕ) :
    (∀ weights : List K, weights.length = items.length → (∀ w ∈ weights, 0 ≤ w) → 0 < weights.sum →
      InverseCdf items weights draw (staticWeightRotation items weights rotation draw)) ∧
    ∀ (key : α → PyStr) (tpsMap : List (PyStr × K)), (∀ w ∈ measuredWeights key items tpsMap, 0 ≤ w) →
      0 < (measuredWeights key items tpsMap).sum →
        InverseCdf items (measuredWeights key items tpsMap) draw
          (weightedRotation key items tpsMap rotation draw) := by
  refine ⟨fun weights hlength hnonneg htotal ↦ ?_, fun key tpsMap hnonneg htotal ↦ ?_⟩
  · have hclipped : weights.map (max · 0) = weights :=
      (List.map_congr_left fun w hw ↦ max_eq_left (hnonneg w hw)).trans (List.map_id weights)
    rw [staticWeightRotation, if_neg (by omega)]
    simp only [hclipped, if_neg htotal.not_ge]
    exact inverseCdf_rotate hlength hnonneg htotal hdraw
  · have hmeasured : (items.filterMap fun s ↦ tpsMap.lookup (key s)) ≠ [] := fun hnil ↦ by
      have hzero : ∀ w ∈ measuredWeights key items tpsMap, w = 0 := fun w hw ↦ by
        obtain ⟨s, hs, rfl⟩ := List.mem_map.1 hw
        rw [List.filterMap_eq_nil_iff.1 hnil s hs, hnil]
        simp
      rw [List.sum_eq_zero hzero] at htotal
      exact lt_irrefl _ htotal
    rw [weightedRotation, if_neg (by omega), if_neg hmeasured]
    exact inverseCdf_rotate (List.length_map _) hnonneg htotal hdraw

/-- A drained backend, and one that has not been measured. -/
theorem inverseCdf_rotations_sample :
    InverseCdf [97, 98, 99] [0, 3, 1] (4 / 5 : ℚ) (staticWeightRotation (K := ℚ) [97, 98, 99] [0, 3, 1] 7 (4 / 5)) ∧
      InverseCdf [97, 98, 99] (measuredWeights List.singleton [97, 98, 99] [([97], 3), ([98], 1)]) (4 / 5 : ℚ)
        (weightedRotation (K := ℚ) List.singleton [97, 98, 99] [([97], 3), ([98], 1)] 7 (4 / 5)) := by
  have hrotations := inverseCdf_rotations (K := ℚ) (show 2 ≤ [97, 98, 99].length by decide)
    (show 0 ≤ (4 / 5 : ℚ) ∧ (4 / 5 : ℚ) < 1 by norm_num) 7
  exact ⟨hrotations.1 [0, 3, 1] rfl (by decide +kernel) (by decide +kernel),
    hrotations.2 List.singleton [([97], 3), ([98], 1)] (by decide +kernel) (by decide +kernel)⟩

end Exact

/-! ### The functions of the routing -/

section Link

variable {now : Moment} (hexact : now.floats = exactFloats) (draw : ℚ)

theorem exactFloats_sum (ws : List ℚ) : exactFloats.sum (ws.map .fin) = .fin ws.sum := by
  show PyFloat.fin ((ws.map PyFloat.fin).map PyFloat.rat).sum = _
  rw [List.map_map]
  exact congrArg PyFloat.fin (congrArg List.sum (List.map_id _))

include hexact in
/-- Finite static weights, without rounding. -/
theorem staticWeightRotation_exact {es : List Entry} (hfinite : ∀ e ∈ es, ∃ w, e.weight = .fin w) :
    staticWeightRotation now (.fin draw) es =
      Exact.staticWeightRotation es (es.map fun e ↦ e.weight.rat) now.rotation draw := by
  have hweights : (es.map fun e ↦ e.weight.max (.fin 0)) =
      ((es.map fun e ↦ e.weight.rat).map (max · 0)).map .fin := by
    rw [List.map_map, List.map_map]
    refine List.map_congr_left fun e he ↦ ?_
    obtain ⟨w, hw⟩ := hfinite e he
    simp [hw, max_fin, PyFloat.rat]
  unfold staticWeightRotation Exact.staticWeightRotation
  simp only [hweights, hexact, exactFloats_sum]
  set total := ((es.map fun e ↦ e.weight.rat).map (max · 0)).sum
  have hzero : ((PyFloat.fin total).lt (.fin 0) || (PyFloat.fin total).isZero) = true ↔ total ≤ 0 := by
    rw [Bool.or_eq_true, le_iff_lt_or_eq]
    refine or_congr decide_eq_true_iff ?_
    simp [PyFloat.isZero]
  have hpick : pickIndex now (exactFloats.mul (.fin draw) (.fin total)) (.fin 0) 0
      (((es.map fun e ↦ e.weight.rat).map (max · 0)).map .fin) =
        pick (draw * total) 0 0 ((es.map fun e ↦ e.weight.rat).map (max · 0)) := pickIndex_fin hexact ..
  rw [hpick]
  exact if_congr Iff.rfl rfl (if_congr hzero rfl rfl)

include hexact in
/-- Finite measurements, without rounding. -/
theorem weightedRotation_exact (es : List Entry) (tps : List (PyStr × ℚ))
    (htps : now.tps = tps.map fun e ↦ (e.1, .fin e.2)) :
    weightedRotation now (.fin draw) es = Exact.weightedRotation Entry.key es tps now.rotation draw := by
  have hlookup : ∀ k, now.tps.lookup k = (tps.lookup k).map .fin := fun k ↦ by
    rw [htps]
    exact Dict.lookup_map_values PyFloat.fin tps k
  have hmeasured : (es.filterMap fun e ↦ now.tps.lookup e.key) =
      (es.filterMap fun e ↦ tps.lookup e.key).map .fin := by
    simp only [hlookup, List.map_filterMap]
  set measured := es.filterMap fun e ↦ tps.lookup e.key with hm
  have havg : now.floats.div (now.floats.sum (measured.map .fin)) (.fin (measured.map PyFloat.fin).length) =
      .fin (measured.sum / measured.length) := by
    rw [hexact, exactFloats_sum, List.length_map]
    rfl
  have hweights : (es.map fun e ↦ (now.tps.lookup e.key).getD (.fin (measured.sum / measured.length))) =
      (Exact.measuredWeights Entry.key es tps).map .fin := by
    rw [Exact.measuredWeights, List.map_map]
    refine List.map_congr_left fun e _ ↦ ?_
    rw [hlookup, Option.getD_map]
    rfl
  unfold weightedRotation Exact.weightedRotation
  simp only [hmeasured, List.map_eq_nil_iff, havg, hweights]
  rw [hexact, exactFloats_sum]
  have hpick : pickIndex now (exactFloats.mul (.fin draw) (.fin (Exact.measuredWeights Entry.key es tps).sum)) (.fin 0)
      0 ((Exact.measuredWeights Entry.key es tps).map .fin) =
        pick (draw * (Exact.measuredWeights Entry.key es tps).sum) 0 0 (Exact.measuredWeights Entry.key es tps) :=
    pickIndex_fin hexact ..
  rw [hpick]
  rfl

end Link

end LocalGateway
