import LocalGateway.Routing.Fairness

/-!
# Drained backends

A backend of weight 0 is not to come first in its tier while another one can be routed to.
`_static_weight_rotation` sees to it; `_weighted_rotation`, which takes its place in the mode `explore` as soon as
throughput has been measured, does not know the weights.

* `StartsAt`: the place at which the order of a tier starts; `StartsAt.positive`: without rounding, that of a
  backend with a positive weight, if the weights are static.
* `drains_iff`: when drained backends do not come first.
-/

namespace LocalGateway

open Py Json

section Weights

variable (now : Moment)

/-- The running sums of weights, from a start on. -/
def runningSums (acc : PyFloat) : List PyFloat → List PyFloat
  | [] => []
  | w :: ws => now.floats.add acc w :: runningSums (now.floats.add acc w) ws

/-- The pick lands on the first weight whose running sum exceeds it, or on the first of all if none does. -/
def LandsOn (pick : PyFloat) (ws : List PyFloat) (i : ℕ) : Prop :=
  (runningSums now (.fin 0) ws).findIdx? pick.lt = some i ∨
    (runningSums now (.fin 0) ws).findIdx? pick.lt = none ∧ i = 0

theorem pickIndex_eq (pick acc : PyFloat) (i : ℕ) (ws : List PyFloat) :
    pickIndex now pick acc i ws = (((runningSums now acc ws).findIdx? pick.lt).map (i + ·)).getD 0 := by
  induction ws generalizing acc i with
  | nil => rfl
  | cons w ws ih =>
    rw [pickIndex, runningSums, List.findIdx?_cons]
    split_ifs
    · rfl
    · rw [ih, Option.map_map]
      congr 2
      funext j
      exact Nat.add_right_comm i 1 j

theorem landsOn_iff {pick : PyFloat} {ws : List PyFloat} {i : ℕ} :
    LandsOn now pick ws i ↔ pickIndex now pick (.fin 0) 0 ws = i := by
  rw [pickIndex_eq, LandsOn]
  rcases (runningSums now (.fin 0) ws).findIdx? pick.lt with - | j
  · simp [eq_comm]
  · simp

theorem length_runningSums (acc : PyFloat) (ws : List PyFloat) :
    (runningSums now acc ws).length = ws.length := by
  induction ws generalizing acc with
  | nil => rfl
  | cons w ws ih => rw [runningSums, List.length_cons, ih, List.length_cons]

theorem head?_rotate {i : ℕ} {es : List Entry} (h : i < es.length) : (rotate i es).head? = es[i]? := by
  rw [rotate, List.head?_append, List.head?_drop, List.getElem?_eq_getElem h]
  rfl

theorem pickIndex_lt {pick : PyFloat} {ws : List PyFloat} (h : ws ≠ []) :
    pickIndex now pick (.fin 0) 0 ws < ws.length := by
  rw [pickIndex_eq]
  rcases hfind : (runningSums now (.fin 0) ws).findIdx? pick.lt with - | j
  · exact List.length_pos_iff.2 h
  · obtain ⟨hj, -⟩ := List.findIdx?_eq_some_iff_findIdx_eq.1 hfind
    rw [length_runningSums] at hj
    simpa using hj

end Weights

section Start

variable (c : GatewayConfig) (now : Moment) (prefs : ProviderPrefs) (cacheKey : PyStr)

/-- The place in a tier at which its order starts, where one of its weights is not 1: in the mode `explore` that
on which the draw lands by measured throughput, if any is in use, else that on which it lands by static
weights; where nothing is to be weighed, that of the rotation. -/
def StartsAt (draw : PyFloat) (es : List Entry) (i : ℕ) : Prop :=
  let now := seen c now prefs
  let rotated := i = now.rotation % es.length
  if now.tps ≠ [] ∧ routingMode c = py "explore" then
    let measured := es.filterMap fun e ↦ now.tps.lookup e.key
    let weights := es.map fun e ↦
      (now.tps.lookup e.key).getD (now.floats.div (now.floats.sum measured) (.fin measured.length))
    if measured = [] then rotated else LandsOn now (now.floats.mul draw (now.floats.sum weights)) weights i
  else
    let weights := es.map fun e ↦ e.weight.max (.fin 0)
    let total := now.floats.sum weights
    if total.lt (.fin 0) = true ∨ total.isZero = true then rotated
    else LandsOn now (now.floats.mul draw total) weights i

/-- **The order of a tier starts at one place.** -/
theorem exists_startsAt (draw : PyFloat) {es : List Entry} (hsort : prefs.sort = none) (hlength : 1 < es.length)
    (hweight : ∃ e ∈ es, e.weight ≠ .fin 1) :
    ∃ i, (∀ j, StartsAt c now prefs draw es j ↔ j = i) ∧
      (arrange c now prefs cacheKey draw es).head? = es[i]? := by
  have hpos : 0 < es.length := by omega
  have hne : es ≠ [] := List.length_pos_iff.1 hpos
  have hany : (es.any fun e ↦ e.weight ≠ .fin 1) = true := by
    obtain ⟨e, he, hw⟩ := hweight
    exact List.any_eq_true.2 ⟨e, he, by simpa using hw⟩
  have hmod : (seen c now prefs).rotation % es.length < es.length := Nat.mod_lt _ hpos
  unfold StartsAt arrange
  simp only [hsort, if_neg hne, hany, if_true]
  -- the measurements take the place of the weights as soon as there are any
  by_cases hexplore : (seen c now prefs).tps ≠ [] ∧ routingMode c = py "explore"
  · have hbool : (!(seen c now prefs).tps.isEmpty && routingMode c = py "explore") = true := by
      simpa using hexplore
    simp only [if_pos hexplore, hbool, if_true, weightedRotation, if_neg hlength.not_ge]
    split_ifs with hmeasured
    · exact ⟨_, fun j ↦ Iff.rfl, head?_rotate hmod⟩
    · refine ⟨_, fun j ↦ (landsOn_iff _).trans eq_comm, head?_rotate ?_⟩
      simpa using pickIndex_lt (seen c now prefs) (List.map_eq_nil_iff.not.2 hne)
  · have hbool : ¬ (!(seen c now prefs).tps.isEmpty && routingMode c = py "explore") = true := by
      simpa using hexplore
    simp only [if_neg hexplore, if_neg hbool, staticWeightRotation, if_neg hlength.not_ge, Bool.or_eq_true]
    split_ifs with htotal
    · exact ⟨_, fun j ↦ Iff.rfl, head?_rotate hmod⟩
    · refine ⟨_, fun j ↦ (landsOn_iff _).trans eq_comm, head?_rotate ?_⟩
      simpa using pickIndex_lt (seen c now prefs) (List.map_eq_nil_iff.not.2 hne)

/-- Without rounding, static weights never start at a drained backend while there is another one. -/
theorem StartsAt.positive {draw : ℚ} {es : List Entry} {i : ℕ} {e : Entry}
    (h : StartsAt c now prefs (.fin draw) es i) (hexact : now.floats = exactFloats) (hdraw : 0 ≤ draw ∧ draw < 1)
    (hstatic : ¬ ((seen c now prefs).tps ≠ [] ∧ routingMode c = py "explore"))
    (hfinite : ∀ e ∈ es, ∃ w, e.weight = .fin w) (hpos : ∃ e ∈ es, (PyFloat.fin 0).lt e.weight = true)
    (he : es[i]? = some e) : (PyFloat.fin 0).lt e.weight = true := by
  have hfloats : (seen c now prefs).floats = exactFloats := by
    rw [← hexact, seen]
    split_ifs <;> rfl
  have hweights : (es.map fun e ↦ e.weight.max (.fin 0)) = (es.map fun e ↦ max e.weight.rat 0).map .fin := by
    rw [List.map_map]
    refine List.map_congr_left fun e he ↦ ?_
    obtain ⟨w, hw⟩ := hfinite e he
    simp [hw, max_fin, PyFloat.rat]
  have hsum : (exactFloats.sum ((es.map fun e ↦ max e.weight.rat 0).map .fin)) =
      .fin (es.map fun e ↦ max e.weight.rat 0).sum := by
    show PyFloat.fin (((es.map fun e ↦ max e.weight.rat 0).map PyFloat.fin).map PyFloat.rat).sum = _
    rw [List.map_map]
    exact congrArg PyFloat.fin (congrArg List.sum (List.map_id _))
  have htotal : 0 < (es.map fun e ↦ max e.weight.rat 0).sum := by
    obtain ⟨e', he', hlt⟩ := hpos
    obtain ⟨w, hw⟩ := hfinite e' he'
    have hw0 : 0 < w := by
      rw [hw] at hlt
      exact of_decide_eq_true hlt
    refine lt_of_lt_of_le ?_ (List.single_le_sum (fun x hx ↦ ?_) _ (List.mem_map_of_mem he'))
    · rw [hw]
      exact lt_max_of_lt_left hw0
    · obtain ⟨e'', -, rfl⟩ := List.mem_map.1 hx
      exact le_max_right _ _
  unfold StartsAt at h
  simp only [if_neg hstatic, hfloats, hweights, hsum] at h
  have hnot : ¬ ((PyFloat.fin (es.map fun e ↦ max e.weight.rat 0).sum).lt (.fin 0) = true ∨
      (PyFloat.fin (es.map fun e ↦ max e.weight.rat 0).sum).isZero = true) := by
    rintro (hneg | hzero)
    · exact absurd (of_decide_eq_true hneg) htotal.not_gt
    · simp [PyFloat.isZero, htotal.ne'] at hzero
  rw [if_neg hnot, landsOn_iff] at h
  obtain ⟨j, hj, hpick, hlow, hhigh⟩ := pickIndex_exact hfloats 0 (es.map fun e ↦ max e.weight.rat 0) 0
    (mul_nonneg hdraw.1 htotal.le) (by rw [zero_add]; exact mul_lt_of_lt_one_left htotal hdraw.2)
  obtain rfl : j = i := by
    rw [← h, ← Nat.zero_add j]
    exact hpick.symm
  -- the running sum grows there, so the weight is positive
  rw [List.sum_take_succ _ _ hj] at hhigh
  obtain ⟨hlt, rfl⟩ := List.getElem?_eq_some_iff.1 he
  rw [List.getElem_map] at hhigh
  obtain ⟨w, hw⟩ := hfinite _ (List.getElem_mem hlt)
  rw [hw] at hhigh ⊢
  have hmax : 0 < max w 0 := by
    show 0 < max (PyFloat.fin w).rat 0
    linarith
  exact decide_eq_true ((lt_max_iff.1 hmax).resolve_right (lt_irrefl 0))

variable (A : Answers Entry) (modelId : PyStr) (d : Demand)

/-- No tier starts with a backend of weight 0 among those that can be routed to, while one of these has a positive
weight. -/
def Drains : Prop :=
  ∀ es, candidates c now prefs modelId d = some es → ∀ key e,
    firstIn key (selectBackends c now prefs cacheKey A modelId d).emitted = some e →
      e ∈ routableIn A es key → e.weight.isZero = true →
        ∀ e' ∈ routableIn A es key, (PyFloat.fin 0).lt e'.weight = false

/-- A selection that raises has emitted nothing. -/
theorem emitted_of_not_samples {es : List Entry} (horder : prefs.order = [])
    (h : ¬ SamplesTiers c now prefs cacheKey es) : (emit c now prefs cacheKey A es).emitted = [] := by
  rw [← raised_eq_false_iff c now prefs cacheKey A, Bool.not_eq_false, raised_iff] at h
  obtain ⟨hes, hpinned, haff, hnone⟩ := h
  have hsorted : sorted c now prefs cacheKey [] = [] := List.perm_nil.1 (sorted_perm ..)
  simp [emit, hes, hpinned, haff, hnone, preferredEntries_nil prefs horder, hsorted, tagReason]

theorem lt_zero_of_isZero {w : PyFloat} (h : w.isZero = true) : (PyFloat.fin 0).lt w = false := by
  rcases Bool.or_eq_true_iff.1 h with h | h <;> rw [of_decide_eq_true h] <;> decide +kernel

theorem one_lt_length_of_ne {α : Type*} {as : List α} {a b : α} (ha : a ∈ as) (hb : b ∈ as) (h : a ≠ b) :
    1 < as.length := by
  rcases as with - | ⟨x, - | ⟨y, as⟩⟩
  · cases ha
  · exact absurd ((List.mem_singleton.1 ha).trans (List.mem_singleton.1 hb).symm) h
  · simp

/-- **When drained backends do not come first.** -/
theorem drains_iff (haff : affinityActive c cacheKey = false) (horder : prefs.order = []) (hsort : prefs.sort = none) :
    Drains c now prefs cacheKey A modelId d ↔
      ∀ es, candidates c now prefs modelId d = some es → SamplesTiers c now prefs cacheKey es → ∀ key,
        (∃ e ∈ routableIn A es key, (PyFloat.fin 0).lt e.weight = true) →
          ∀ i e, StartsAt c now prefs (tierDraw now es key) (routableIn A es key) i →
            (routableIn A es key)[i]? = some e → e.weight.isZero = false := by
  unfold Drains
  refine forall₂_congr fun es hes ↦ ?_
  rw [selectBackends_eq, hes]
  dsimp only
  -- where a tier has a drained backend and another one, it starts at one place
  have hstart : ∀ {key e e'}, e ∈ routableIn A es key → e.weight.isZero = true →
      e' ∈ routableIn A es key → (PyFloat.fin 0).lt e'.weight = true →
        SamplesTiers c now prefs cacheKey es → ∃ i,
          (∀ j, StartsAt c now prefs (tierDraw now es key) (routableIn A es key) j ↔ j = i) ∧
            firstIn key (emit c now prefs cacheKey A es).emitted = (routableIn A es key)[i]? := by
    intro key e e' he hzero he' hpos hsamples
    have hne : e ≠ e' := by
      rintro rfl
      exact absurd hpos (Bool.not_eq_true _ ▸ lt_zero_of_isZero hzero)
    have hlength : 1 < (routableIn A es key).length := one_lt_length_of_ne he he' hne
    obtain ⟨i, honly, hhead⟩ := exists_startsAt c now prefs cacheKey (tierDraw now es key) hsort hlength
      ⟨e, he, fun hone ↦ by rw [hone] at hzero; exact absurd hzero (by decide)⟩
    refine ⟨i, honly, ?_⟩
    rw [firstIn_emit_arrange c now prefs cacheKey A haff horder (List.ne_nil_of_mem he) hsamples, hhead]
  constructor
  · rintro hdrains hsamples key ⟨e', he', hpos⟩ i e hi hget
    by_contra hzero
    rw [Bool.not_eq_false] at hzero
    have he := List.mem_of_getElem? hget
    obtain ⟨j, honly, hfirst⟩ := hstart he hzero he' hpos hsamples
    obtain rfl := (honly i).1 hi
    rw [hdrains key e (hfirst.trans hget) he hzero e' he'] at hpos
    cases hpos
  · intro hstarts key e hfirst he hzero e' he'
    by_contra hpos
    rw [Bool.not_eq_false] at hpos
    have hsamples : SamplesTiers c now prefs cacheKey es := by
      by_contra hnot
      rw [emitted_of_not_samples c now prefs cacheKey A horder hnot] at hfirst
      cases hfirst
    obtain ⟨i, honly, hplace⟩ := hstart he hzero he' hpos hsamples
    have hnot := hstarts hsamples key ⟨e', he', hpos⟩ i e ((honly i).2 rfl) (hplace.symm.trans hfirst)
    rw [hnot] at hzero
    cases hzero

end Start

/-- A drained backend, and another one of the same tier. -/
def drainedPair : GatewayConfig :=
  plainGateway plainServer [weighted (py "a") 0, weighted (py "b") 1]

/-- Their entries. -/
def drainedEntries : List Entry :=
  [⟨0, plainProvider (py "a"), weighted (py "a") 0⟩, ⟨1, plainProvider (py "b"), weighted (py "b") 1⟩]

example : candidates drainedPair quietMoment .none (py "m") plainDemand = some drainedEntries := by
  decide +kernel

/-- Before any throughput has been measured. -/
theorem drains_sample : Drains drainedPair quietMoment .none [] (.frozen fun _ ↦ true) (py "m") plainDemand := by
  refine (drains_iff drainedPair quietMoment .none [] _ (py "m") plainDemand (by decide +kernel) rfl rfl).2 ?_
  rintro es hes - key hpos i e hi hget
  have hcandidates : candidates drainedPair quietMoment .none (py "m") plainDemand = some drainedEntries := by
    decide +kernel
  obtain rfl : drainedEntries = es := Option.some.inj (hcandidates.symm.trans hes)
  have hfinite : ∀ e ∈ routableIn (.frozen fun _ ↦ true) drainedEntries key, ∃ w, e.weight = .fin w := fun e he ↦ by
    have hmem := (mem_tier.1 (mem_tier_of_mem_routableIn _ he)).1
    simp only [drainedEntries, List.mem_cons, List.not_mem_nil, or_false] at hmem
    rcases hmem with rfl | rfl
    · exact ⟨0, by decide +kernel⟩
    · exact ⟨1, by decide +kernel⟩
  have hlt := hi.positive drainedPair quietMoment .none rfl (by norm_num) (fun h ↦ h.1 (by decide +kernel)) hfinite
    hpos hget
  cases hzero : e.weight.isZero with
  | false => rfl
  | true =>
    rw [lt_zero_of_isZero hzero] at hlt
    cases hlt

/-- A moment at which throughput has been measured. -/
def measuredMoment : Moment :=
  { quietMoment with tps := [(py "a:x", .fin 10), (py "b:x", .fin 10)] }

/-- **The drained backend comes first** as soon as the mode `explore` goes by measured throughput. -/
theorem not_drains_measured :
    affinityActive drainedPair [] = false ∧
      ¬ Drains drainedPair measuredMoment .none [] (.frozen fun _ ↦ true) (py "m") plainDemand := by
  refine ⟨by decide +kernel, fun h ↦ ?_⟩
  have hfirst := h drainedEntries (by decide +kernel) 1 ⟨0, plainProvider (py "a"), weighted (py "a") 0⟩
    (by decide +kernel) (by decide +kernel) (by decide +kernel) ⟨1, plainProvider (py "b"), weighted (py "b") 1⟩
    (by decide +kernel)
  exact absurd hfirst (by decide +kernel)

end LocalGateway
