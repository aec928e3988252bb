import Mathlib.Algebra.BigOperators.Field
import Mathlib.Data.List.Rotate
import LocalGateway.Foundations.Cumulative
import LocalGateway.Routing.Totality

/-!
# The order of the tiers

What `select_backends` emits when nothing but the configuration, the rotation and a draw decide:
without cache affinity, listed providers, a sort or measurements, and with all weights one.

* `TiersInOrder`: the whole list. In failover mode the tiers ascend, what can be routed to rotated and
  what cannot deferred; in explore mode one tier is moved to the front, and without rounding it is the
  one whose share of the powers of the decay contains the draw.
* `tiersInOrder_iff`: it is what is emitted unless the selection raises.
-/

namespace LocalGateway

open Py

/-! ### Picking an index -/

/-- The share of the first `j` of `k` tiers in the powers of the decay. -/
def tierShare (decay : ℚ) (k j : ℕ) : ℚ :=
  (∑ i ∈ Finset.range j, decay ^ i) / ∑ i ∈ Finset.range k, decay ^ i

section Pick

variable {now : Moment} (hexact : now.floats = exactFloats)

include hexact in
/-- Without rounding, the loop is that over cumulative weights. -/
theorem pickIndex_fin (pick acc : ℚ) (i : ℕ) (ws : List ℚ) :
    pickIndex now (.fin pick) (.fin acc) i (ws.map .fin) = Cumulative.pick pick acc i ws := by
  induction ws generalizing i acc with
  | nil => rfl
  | cons w ws ih =>
    have hadd : now.floats.add (.fin acc) (.fin w) = .fin (acc + w) := by
      rw [hexact]
      rfl
    have hcomp : PyFloat.lt (.fin pick) (.fin (acc + w)) = decide (pick < acc + w) := rfl
    rw [List.map_cons, pickIndex, hadd, hcomp, ih, Cumulative.pick]
    simp only [decide_eq_true_eq]

include hexact in
/-- Without rounding, the index is picked whose interval contains the pick. -/
theorem pickIndex_exact {pick : ℚ} (i : ℕ) (ws : List ℚ) (acc : ℚ) (hle : acc ≤ pick)
    (hlt : pick < acc + ws.sum) :
    ∃ j < ws.length, pickIndex now (.fin pick) (.fin acc) i (ws.map .fin) = i + j ∧
      acc + (ws.take j).sum ≤ pick ∧ pick < acc + (ws.take (j + 1)).sum := by
  rw [pickIndex_fin hexact]
  exact Cumulative.pick_spec i ws hle hlt

theorem tierShare_mono {decay : ℚ} (hpos : 0 < decay) (k : ℕ) : Monotone (tierShare decay k) := by
  intro i j hij
  have hsum : ∀ n, 0 ≤ ∑ i ∈ Finset.range n, decay ^ i := fun n ↦
    Finset.sum_nonneg fun i _ ↦ (pow_pos hpos i).le
  refine div_le_div_of_nonneg_right ?_ (hsum k)
  exact Finset.sum_le_sum_of_subset_of_nonneg (Finset.range_mono hij)
    fun i _ _ ↦ (pow_pos hpos i).le

include hexact in
/-- **The tier that is drawn.** Without rounding, it is the one whose interval contains the draw. -/
theorem sampleTierOrder_exact {decay draw : ℚ} (hpos : 0 < decay) (hdraw : 0 ≤ draw ∧ draw < 1)
    {keys : List ℤ} (hkeys : keys ≠ []) :
    ∃ i < keys.length,
      sampleTierOrder now (.fin decay) (.fin draw) keys =
        some (keys.getD i 0 :: keys.filter (· ≠ keys.getD i 0)) ∧
      tierShare decay keys.length i ≤ draw ∧ draw < tierShare decay keys.length (i + 1) := by
  have hpowers : (List.range keys.length).mapM (now.floats.pow (.fin decay)) =
      some ((List.range keys.length).map fun i ↦ .fin (decay ^ i)) := by
    rw [hexact]
    exact List.mapM_pure
  set total := ∑ i ∈ Finset.range keys.length, decay ^ i with htotal
  have hpositive : 0 < total :=
    Finset.sum_pos (fun i _ ↦ pow_pos hpos i)
      (Finset.nonempty_range_iff.2 (List.length_pos_iff.2 hkeys).ne')
  have hsum : now.floats.sum ((List.range keys.length).map fun i ↦ .fin (decay ^ i)) = .fin total := by
    rw [hexact]
    show PyFloat.fin (List.map PyFloat.rat _).sum = _
    rw [List.map_map]
    rfl
  have hprobs : (((List.range keys.length).map fun i ↦ PyFloat.fin (decay ^ i)).map fun w ↦
      now.floats.div w (.fin total)) =
        ((List.range keys.length).map fun i ↦ decay ^ i / total).map PyFloat.fin := by
    rw [hexact, List.map_map, List.map_map]
    rfl
  -- the sums of the first probabilities are the bounds of the intervals
  have hshare : ∀ j ≤ keys.length,
      (((List.range keys.length).map fun i ↦ decay ^ i / total).take j).sum =
        tierShare decay keys.length j := fun j hj ↦ by
    rw [← List.map_take, List.take_range, min_eq_left hj, tierShare, Finset.sum_div]
    rfl
  have hone : ((List.range keys.length).map fun i ↦ decay ^ i / total).sum = 1 := by
    have := hshare keys.length le_rfl
    rw [List.take_of_length_le (by simp)] at this
    rw [this, tierShare]
    exact div_self hpositive.ne'
  obtain ⟨i, hi, hpick, hlow, hhigh⟩ := pickIndex_exact hexact 0
    ((List.range keys.length).map fun i ↦ decay ^ i / total) 0 hdraw.1
    (by rw [hone, zero_add]; exact hdraw.2)
  rw [List.length_map, List.length_range] at hi
  rw [zero_add, hshare _ hi.le] at hlow
  rw [zero_add, hshare _ hi] at hhigh
  refine ⟨i, hi, ?_, hlow, hhigh⟩
  unfold sampleTierOrder
  rw [hpowers]
  have hnonzero : (PyFloat.fin total).isZero = false := by
    simp [PyFloat.isZero, hpositive.ne']
  show (if (now.floats.sum _).isZero = true then none else _) = _
  rw [hsum, hnonzero, if_neg Bool.false_ne_true, hprobs, hpick, zero_add]

end Pick

/-! ### Tiers of a list -/

/-- What can be routed to in a tier, rotated. -/
def tierBlock (available : Entry → Bool) (rotation : ℕ) (es : List Entry) (key : ℤ) : List Entry :=
  ((tier es key).filter available).rotate rotation

/-- What cannot be routed to in a tier. -/
def deferred (available : Entry → Bool) (es : List Entry) (key : ℤ) : List Entry :=
  (tier es key).filter fun e ↦ !available e

/-- The blocks of the tiers in an order, and what cannot be routed to in that of the keys. -/
def tiered (available : Entry → Bool) (rotation : ℕ) (es : List Entry) (keys order : List ℤ) :
    List Entry :=
  order.flatMap (tierBlock available rotation es) ++ keys.flatMap (deferred available es)

section Frozen

variable (c : GatewayConfig) (now : Moment) (prefs : ProviderPrefs) (cacheKey : PyStr)
  {available : Entry → Bool} {es : List Entry}

/-- Nothing but the rotation orders the entries: no sort, no measurements, and all weights one. -/
structure Plain (es : List Entry) : Prop where
  sort : prefs.sort = none
  tps : now.tps = []
  weight : ∀ e ∈ es, e.weight = .fin 1

theorem Plain.mono {es' : List Entry} (h : Plain now prefs es) (hsub : es' ⊆ es) :
    Plain now prefs es' :=
  ⟨h.sort, h.tps, fun e he ↦ h.weight e (hsub he)⟩

theorem seen_of_tps (h : now.tps = []) : seen c now prefs = now := by
  unfold seen
  split_ifs
  · rfl
  · rw [← h]

theorem rotate_mod (r : ℕ) (es : List Entry) : rotate (r % es.length) es = es.rotate r :=
  List.rotate_eq_drop_append_take_mod.symm

theorem arrange_plain (draw : PyFloat) (h : Plain now prefs es) :
    arrange c now prefs cacheKey draw es = es.rotate now.rotation := by
  have hweights : (es.any fun e ↦ e.weight ≠ .fin 1) = false :=
    List.any_eq_false.2 fun e he ↦ by simp [h.weight e he]
  unfold arrange
  simp only [h.sort, seen_of_tps c now prefs h.tps, h.tps]
  split_ifs with hnil hmeasured
  · rw [hnil, List.rotate_nil]
  · simp at hmeasured
  · rw [hweights] at *
    contradiction
  · exact rotate_mod ..

/-- The loop over the tiers, with answers that stay as they are. -/
theorem splitTiers_plain (k i : ℕ) (groups : List (ℤ × List Entry))
    (h : ∀ g ∈ groups, Plain now prefs g.2) :
    splitTiers c now prefs cacheKey (.frozen available) k i groups = groups.map fun g ↦
      ⟨g.1, (g.2.filter available).rotate now.rotation, g.2.filter fun e ↦ !available e⟩ := by
  induction groups generalizing k i with
  | nil => rfl
  | cons g groups ih =>
    have hg := h g List.mem_cons_self
    have hsub : (Answers.frozen available).pass true k g.2 ⊆ g.2 :=
      ((Answers.frozen available).pass_sublist true k g.2).subset
    rw [splitTiers, ih _ _ fun g' hg' ↦ h g' (List.mem_cons_of_mem _ hg'), List.map_cons,
      arrange_plain c now prefs cacheKey _ (hg.mono now prefs hsub), sorted, hg.sort]
    simp [Answers.pass_frozen]

theorem tierGroups_of_no_order (horder : prefs.order = []) (es : List Entry) :
    tierGroups c prefs cacheKey es = (tierKeys es).map fun key ↦ (key, tier es key) := by
  have hnone : ∀ e, isPreferred prefs es e = false := fun e ↦ by
    simp [isPreferred, preferredKeys, preferredEntries_nil prefs horder]
  simp [tierGroups, hnone]

/-- What is emitted of candidates, tiers in an order. -/
theorem emit_plain (hes : es ≠ []) (haff : affinityActive c cacheKey = false)
    (horder : prefs.order = []) (hplain : Plain now prefs es) {order : List ℤ}
    (hdrawn : tierOrder c now prefs (tierKeys es) = some order) :
    (emit c now prefs cacheKey (.frozen available) es).emitted.map SelectedBackend.entry =
      tiered available now.rotation es (tierKeys es) order := by
  have hpreferred := preferredEntries_nil prefs horder es
  have hpinned : ¬ Pinned c prefs cacheKey es := fun h ↦ h.1 hpreferred
  have hperm := tierOrder_perm c now prefs (tierKeys_nodup es) hdrawn
  have hgroups : ∀ g ∈ (tierKeys es).map fun key ↦ (key, tier es key), Plain now prefs g.2 := by
    intro g hg
    obtain ⟨key, -, rfl⟩ := List.mem_map.1 hg
    exact hplain.mono now prefs (List.filter_subset_self es)
  have hone : ∀ key ∈ order, (tierKeys es).filter (· = key) = [key] := fun key hkey ↦ by
    rw [List.filter_eq, List.count_eq_one_of_mem (tierKeys_nodup es) (hperm.mem_iff.1 hkey)]
    rfl
  rw [emit_of_tiers c now prefs cacheKey _ hes hpinned haff hdrawn, hpreferred,
    tierGroups_of_no_order c prefs cacheKey horder]
  simp only [emitTiers, splitTiers_plain c now prefs cacheKey 0 0 _ hgroups, Answers.pass_nil,
    List.map_append, List.map_flatMap, map_entry_tagReason, List.map_map, List.append_nil]
  have hsorted : sorted c now prefs cacheKey [] = [] := List.perm_nil.1 (sorted_perm ..)
  rw [hsorted, List.nil_append, tiered]
  congr 1
  · refine List.flatMap_congr fun key hkey ↦ ?_
    have hsplit := hone key hkey
    rw [List.filter_map]
    show List.flatMap _ (((tierKeys es).filter (· = key)).map _) = _
    rw [hsplit]
    exact List.append_nil _
  · exact List.flatMap_map ..

/-! ### The keys -/

theorem tierKeys_ascending (es : List Entry) : (tierKeys es).Pairwise (· < ·) :=
  ((List.pairwise_insertionSort (· ≤ ·) _).and (tierKeys_nodup es)).imp fun h ↦ lt_of_le_of_ne h.1 h.2

theorem mem_tierKeys_iff {key : ℤ} : key ∈ tierKeys es ↔ ∃ e ∈ es, e.backend.priority = key := by
  rw [tierKeys, List.mem_insertionSort, List.mem_dedup, List.mem_map]

/-- Nothing is rounded, the decay is positive, and the draw is at least zero and below one. -/
structure DrawnExactly (keys : List ℤ) (decay draw : ℚ) : Prop where
  exact : now.floats = exactFloats
  decay_eq : routingDecay c = .fin decay
  decay_pos : 0 < decay
  draw_eq : now.draw keys.length = .fin draw
  draw_nonneg : 0 ≤ draw
  draw_lt : draw < 1

/-- In explore mode, one tier is moved to the front. -/
theorem tierOrder_explore (hmode : routingMode c = py "explore") (horder : prefs.order = [])
    {keys order : List ℤ} (hkeys : keys ≠ []) (h : tierOrder c now prefs keys = some order) :
    ∃ i key, keys[i]? = some key ∧ order = key :: keys.filter (· ≠ key) ∧
      ∀ decay draw, DrawnExactly c now keys decay draw →
        tierShare decay keys.length i ≤ draw ∧ draw < tierShare decay keys.length (i + 1) := by
  have hget : ∀ i < keys.length, keys[i]? = some (keys.getD i 0) := fun i hi ↦ by
    rw [List.getD_eq_getElem?_getD, List.getElem?_eq_getElem hi, Option.getD_some]
  rcases Nat.lt_or_ge 1 keys.length with hlength | hlength
  · rw [tierOrder, if_pos ⟨hmode, hlength, horder⟩] at h
    by_cases hexact : ∃ decay draw, DrawnExactly c now keys decay draw
    · obtain ⟨decay, draw, hdrawn⟩ := hexact
      obtain ⟨i, hi, hsample, hlow, hhigh⟩ := sampleTierOrder_exact hdrawn.exact hdrawn.decay_pos
        ⟨hdrawn.draw_nonneg, hdrawn.draw_lt⟩ hkeys
      rw [hdrawn.decay_eq, hdrawn.draw_eq, hsample] at h
      refine ⟨i, _, hget i hi, (Option.some.inj h).symm, fun decay' draw' hdrawn' ↦ ?_⟩
      obtain rfl := PyFloat.fin.inj (hdrawn.decay_eq.symm.trans hdrawn'.decay_eq)
      obtain rfl := PyFloat.fin.inj (hdrawn.draw_eq.symm.trans hdrawn'.draw_eq)
      exact ⟨hlow, hhigh⟩
    · obtain ⟨i, hi, rfl⟩ := sampleTierOrder_start now h (by omega)
      exact ⟨i, _, hget i hi, rfl, fun decay draw hdrawn ↦ absurd ⟨decay, draw, hdrawn⟩ hexact⟩
  · obtain ⟨key, rfl⟩ := List.length_eq_one_iff.1 (show keys.length = 1 by
      have := List.length_pos_iff.2 hkeys
      omega)
    rw [tierOrder, if_neg (by simp)] at h
    obtain rfl := Option.some.inj h
    refine ⟨0, key, rfl, by simp, fun decay draw hdrawn ↦ ?_⟩
    simpa [tierShare] using ⟨hdrawn.draw_nonneg, hdrawn.draw_lt⟩

end Frozen

/-! ### The whole emission -/

section Emission

variable (c : GatewayConfig) (now : Moment) (prefs : ProviderPrefs) (cacheKey modelId : PyStr)
  (d : Demand) (r : Registry) (s : Breaker)

theorem candidates_pairwise {es : List Entry} (h : candidates c now prefs modelId d = some es) :
    es.Pairwise (·.index < ·.index) := by
  unfold candidates at h
  split at h
  · exact Option.some.inj h ▸ List.Pairwise.nil
  · rename_i m _
    split_ifs at h with henabled
    · exact Option.some.inj h ▸ List.Pairwise.nil
    · obtain ⟨slot, -, rfl⟩ := Option.map_eq_some_iff.1 h
      exact (index_lt_reduceOption (k := 0) (fun _ _ _ he ↦ index_candidate he) m.backends).1

/-- **The tiers in order.** The selection returns. What it emits of the eligible entries, which are taken in
the order of the configuration: the blocks of the tiers in ascending order of their keys, or in explore
mode with one of them moved to the front, and then what cannot be routed to. Without rounding, the one
that is moved is the one whose interval contains the draw. -/
def TiersInOrder (t : ℚ) : Prop :=
  (selectAt c now prefs cacheKey modelId d r s (fun _ ↦ t) monotone_const).raised = false ∧
    ∃ (es : List Entry) (keys : List ℤ),
      (∀ e, e ∈ es ↔ Eligible c now prefs modelId d e) ∧ es.Pairwise (·.index < ·.index) ∧
      (∀ key, key ∈ keys ↔ ∃ e ∈ es, e.backend.priority = key) ∧ keys.Pairwise (· < ·) ∧
      (routingMode c ≠ py "explore" →
        routed c now prefs cacheKey modelId d r s (fun _ ↦ t) monotone_const =
          tiered (availableAt r s t) now.rotation es keys keys) ∧
      (routingMode c = py "explore" → keys ≠ [] →
        ∃ i key, keys[i]? = some key ∧
          routed c now prefs cacheKey modelId d r s (fun _ ↦ t) monotone_const =
            tiered (availableAt r s t) now.rotation es keys (key :: keys.filter (· ≠ key)) ∧
          ∀ decay draw, DrawnExactly c now keys decay draw → ∀ j < keys.length,
            (j = i ↔ tierShare decay keys.length j ≤ draw ∧
              draw < tierShare decay keys.length (j + 1))) ∧
      (keys = [] → routed c now prefs cacheKey modelId d r s (fun _ ↦ t) monotone_const = [])

/-- **The tiers come in order, without cache affinity, listed providers, a sort or measurements and with
all weights one, exactly if** the time zone of the model can be read and the order of the tiers can be
drawn. -/
theorem tiersInOrder_iff (t : ℚ) (haff : affinityActive c cacheKey = false) (horder : prefs.order = [])
    (hsort : prefs.sort = none) (htps : now.tps = [])
    (hweight : ∀ e, Eligible c now prefs modelId d e → e.weight = .fin 1) :
    TiersInOrder c now prefs cacheKey modelId d r s t ↔
      ∃ es, candidates c now prefs modelId d = some es ∧ SamplesTiers c now prefs cacheKey es := by
  unfold TiersInOrder routed
  rcases hes : candidates c now prefs modelId d with - | es
  · rw [selectAt_of_none c now prefs cacheKey modelId d r s hes]
    simp
  have hemit := selectAt_of_some c now prefs cacheKey modelId d r s hes (fun _ ↦ t) monotone_const
  rw [hemit, answersAt_const]
  constructor
  · rintro ⟨hraised, -⟩
    exact ⟨es, rfl, (raised_eq_false_iff c now prefs cacheKey _).1 hraised⟩
  rintro ⟨_, ⟨⟩, hsamples⟩
  have hplain : Plain now prefs es :=
    ⟨hsort, htps, fun e he ↦ hweight e ((mem_candidates_iff c now prefs modelId d hes e).1 he)⟩
  have hraised := (raised_eq_false_iff c now prefs cacheKey (.frozen (availableAt r s t))).2 hsamples
  refine ⟨hraised, es, tierKeys es, mem_candidates_iff c now prefs modelId d hes,
    candidates_pairwise c now prefs modelId d hes, fun _ ↦ mem_tierKeys_iff, tierKeys_ascending es, ?_⟩
  rcases eq_or_ne es [] with rfl | hne
  · rw [emit_nil]
    exact ⟨fun _ ↦ rfl, fun _ h ↦ absurd rfl h, fun _ ↦ rfl⟩
  have hkeys : tierKeys es ≠ [] := by
    obtain ⟨e, he⟩ := List.exists_mem_of_ne_nil _ hne
    exact List.ne_nil_of_mem (mem_tierKeys he)
  have hpinned : ¬ Pinned c prefs cacheKey es := fun h ↦ h.1 (preferredEntries_nil prefs horder es)
  have hdrawn : ∃ order, tierOrder c now prefs (tierKeys es) = some order := by
    rw [← Option.isSome_iff_exists, Option.isSome_iff_ne_none]
    intro hnone
    exact Bool.false_ne_true (hraised.symm.trans
      ((raised_iff c now prefs cacheKey _).2 ⟨hne, hpinned, haff, hnone⟩))
  obtain ⟨order, hdrawn⟩ := hdrawn
  -- with nothing to sort by and equal weights, a tier is emitted in its rotation
  have hout : (emit c now prefs cacheKey (.frozen (availableAt r s t)) es).emitted.map
      SelectedBackend.entry = tiered (availableAt r s t) now.rotation es (tierKeys es) order :=
    emit_plain c now prefs cacheKey hne haff horder hplain hdrawn
  refine ⟨fun hmode ↦ ?_, fun hmode _ ↦ ?_, fun hnil ↦ absurd hnil hkeys⟩
  · rw [tierOrder, if_neg fun h ↦ hmode h.1] at hdrawn
    obtain rfl := Option.some.inj hdrawn
    exact hout
  · obtain ⟨i, key, hkey, rfl, hshare⟩ := tierOrder_explore c now prefs hmode horder hkeys hdrawn
    refine ⟨i, key, hkey, hout, fun decay draw hexact j hj ↦ ⟨?_, fun hinside ↦ ?_⟩⟩
    · rintro rfl
      exact hshare decay draw hexact
    · exact Cumulative.interval_unique (tierShare_mono hexact.decay_pos _) hinside (hshare decay draw hexact)

end Emission

/-- Two backends of one tier, and one of another. -/
def twoTiers : GatewayConfig :=
  plainGateway plainServer [plainBackend (py "b") 2, plainBackend (py "a") 1, plainBackend (py "b") 1]

/-- The second selection for a model, with a draw beyond the share of the first of two tiers. -/
def secondTierDrawn : Moment :=
  { quietMoment with rotation := 1, draw := fun _ ↦ .fin (4 / 5) }

theorem candidates_twoTiers :
    candidates twoTiers secondTierDrawn .none (py "m") plainDemand =
      some [plainEntry 0 (py "b") 2, plainEntry 1 (py "a") 1, plainEntry 2 (py "b") 1] := by
  decide +kernel

theorem tiersInOrder_sample :
    (∀ e, Eligible twoTiers secondTierDrawn .none (py "m") plainDemand e → e.weight = .fin 1) ∧
      TiersInOrder twoTiers secondTierDrawn .none [] (py "m") plainDemand .empty .initial 0 := by
  have hweight : ∀ e, Eligible twoTiers secondTierDrawn .none (py "m") plainDemand e →
      e.weight = .fin 1 := fun e he ↦ by
    have hmem := (mem_candidates_iff twoTiers secondTierDrawn .none (py "m") plainDemand
      candidates_twoTiers e).2 he
    simp only [List.mem_cons, List.not_mem_nil, or_false] at hmem
    rcases hmem with rfl | rfl | rfl <;> decide +kernel
  refine ⟨hweight, (tiersInOrder_iff twoTiers secondTierDrawn .none [] (py "m") plainDemand .empty .initial 0
    (by decide +kernel) rfl rfl rfl hweight).2 ⟨_, candidates_twoTiers, ?_⟩⟩
  refine (samplesTiers_exact_iff twoTiers secondTierDrawn .none [] _ rfl).2 fun _ _ _ _ h ↦ ?_
  exact absurd h.1 (by decide +kernel)

/-- The second tier is moved to the front, and the first one rotated. -/
example : routed twoTiers secondTierDrawn .none [] (py "m") plainDemand .empty .initial (fun _ ↦ 0)
    monotone_const = [plainEntry 0 (py "b") 2, plainEntry 2 (py "b") 1, plainEntry 1 (py "a") 1] := by
  decide +kernel

/-- With a decay whose powers add up to zero, nothing is emitted. -/
theorem not_tiersInOrder_alternatingDecay :
    affinityActive alternatingDecay [] = false ∧
      (∃ es, candidates alternatingDecay quietMoment .none (py "m") plainDemand = some es ∧
        ∀ e ∈ es, e.weight = .fin 1) ∧
      ¬ TiersInOrder alternatingDecay quietMoment .none [] (py "m") plainDemand .empty .initial 0 :=
  ⟨by decide +kernel, ⟨[plainEntry 0 (py "a") 1, plainEntry 1 (py "b") 2], by decide +kernel,
    by decide +kernel⟩, fun h ↦ absurd h.1 (by decide +kernel)⟩

end LocalGateway
