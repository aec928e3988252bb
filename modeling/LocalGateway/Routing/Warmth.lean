import LocalGateway.Routing.Parametric
import LocalGateway.Routing.Requests

/-!
# What a selection reads of the warmth

Without cache affinity a selection looks at the cache key and at the warmth entries only to sort by the
cache, and there only at the hit rates of its entries. So two selections with different keys and different
warmth agree if the hit rates do (`emit_warmth`). Of the estimate of the input a selection sees whether it
fits into the contexts that are configured (`candidates_demand`).
-/

/-- Sorting looks at nothing but the elements. -/
theorem List.insertionSort_congr {α : Type} {r r' : α → α → Prop} [DecidableRel r] [DecidableRel r']
    {l : List α} (h : ∀ a ∈ l, ∀ b ∈ l, r a b ↔ r' a b) : l.insertionSort r = l.insertionSort r' := by
  have hinsert : ∀ (a : α) (l : List α), (∀ b ∈ l, r a b ↔ r' a b) →
      l.orderedInsert r a = l.orderedInsert r' a := by
    intro a l hl
    induction l with
    | nil => rfl
    | cons b l ih =>
      rw [List.orderedInsert_cons, List.orderedInsert_cons, ih fun c hc ↦ hl c (.tail b hc)]
      exact if_congr (hl b (.head l)) rfl rfl
  induction l with
  | nil => rfl
  | cons a l ih =>
    rw [List.insertionSort_cons, List.insertionSort_cons,
      ih fun b hb c hc ↦ h b (.tail a hb) c (.tail a hc)]
    exact hinsert a _ fun b hb ↦ h a (.head l) b (.tail a ((List.mem_insertionSort _).1 hb))

namespace LocalGateway

open Py Json

/-- The hit rate that the sort by the cache gives an entry. -/
def hitRateOf (c : GatewayConfig) (now : Moment) (cacheKey : PyStr) (e : Entry) : PyFloat :=
  (((liveWarmth c now cacheKey).lookup e.key).map Warmth.hitRate).getD (.fin 0)

section Warmth

variable {c : GatewayConfig} {now : Moment} {prefs : ProviderPrefs} {key key' : PyStr}
  {warmth : PyStr → List (PyStr × Warmth)} {es l : List Entry}

/-- The moment as it would be with other warmth entries. -/
def Moment.withWarmth (now : Moment) (warmth : PyStr → List (PyStr × Warmth)) : Moment :=
  { now with warmth := warmth }

theorem seen_withWarmth : seen c (now.withWarmth warmth) prefs = (seen c now prefs).withWarmth warmth := by
  unfold seen
  split_ifs <;> rfl

theorem liveWarmth_seen (now : Moment) (prefs : ProviderPrefs) :
    liveWarmth c (seen c now prefs) key = liveWarmth c now key := by
  unfold seen
  split_ifs <;> rfl

/-- A sort that is not by the cache reads no hit rate. -/
theorem sortKey_warmth (sort : PyStr) {e : Entry}
    (h : sort = py "cache" → hitRateOf c (now.withWarmth warmth) key' e = hitRateOf c now key e) :
    sortKey c (now.withWarmth warmth) sort key' e = sortKey c now sort key e := by
  unfold sortKey
  by_cases hcache : sort = py "cache"
  · have hrate := h hcache
    unfold hitRateOf at hrate
    obtain rfl := hcache
    simp only [hrate]
    rfl
  · simp only [if_neg hcache]
    rfl

/-- The hit rates of the entries agree, as far as they are read. -/
def SameRates (c : GatewayConfig) (now now' : Moment) (prefs : ProviderPrefs) (key key' : PyStr)
    (es : List Entry) : Prop :=
  prefs.sort = some (py "cache") → ∀ e ∈ es, hitRateOf c now' key' e = hitRateOf c now key e

theorem SameRates.subset (h : SameRates c now (now.withWarmth warmth) prefs key key' es)
    (hl : ∀ e ∈ l, e ∈ es) : SameRates c now (now.withWarmth warmth) prefs key key' l :=
  fun hsort e he ↦ h hsort e (hl e he)

theorem sortEntries_warmth {sort : PyStr} (hsort : prefs.sort = some sort)
    (h : SameRates c now (now.withWarmth warmth) prefs key key' l) :
    sortEntries c (seen c (now.withWarmth warmth) prefs) sort key' l =
      sortEntries c (seen c now prefs) sort key l := by
  have hkey : ∀ e ∈ l, sortKey c (seen c (now.withWarmth warmth) prefs) sort key' e =
      sortKey c (seen c now prefs) sort key e := by
    intro e he
    rw [seen_withWarmth]
    refine sortKey_warmth sort fun hcache ↦ ?_
    have hrate := h (hcache ▸ hsort) e he
    rwa [hitRateOf, hitRateOf, ← liveWarmth_seen _ prefs, seen_withWarmth,
      ← liveWarmth_seen now prefs] at hrate
  exact List.insertionSort_congr fun a ha b hb ↦ by rw [hkey a ha, hkey b hb]

theorem sorted_warmth (h : SameRates c now (now.withWarmth warmth) prefs key key' l) :
    sorted c (now.withWarmth warmth) prefs key' l = sorted c now prefs key l := by
  unfold sorted
  rcases hsort : prefs.sort with - | sort
  · rfl
  · exact sortEntries_warmth hsort h

/-- Without a cache key no entry is warm, so that all entries are their own twins. -/
theorem twin_of_eq (A : Answers Entry) {e e' : Entry} (h : e = e') :
    Twin id c c now (now.withWarmth warmth) [] A A e e' := by
  subst h
  exact ⟨rfl, rfl, rfl, rfl, rfl, rfl, rfl, rfl, fun _ ↦ rfl⟩

theorem mirror_withWarmth (warmth : PyStr → List (PyStr × Warmth)) :
    Mirror id c c now (now.withWarmth warmth) prefs prefs where
  injective := Function.injective_id
  server := rfl
  floats := rfl
  rotation := rfl
  draw := rfl
  measured := rfl
  order := (List.map_id _).symm
  allowFallbacks := rfl
  sort := rfl

theorem arrange_warmth (draw : PyFloat)
    (h : SameRates c now (now.withWarmth warmth) prefs key key' l) :
    arrange c (now.withWarmth warmth) prefs key' draw l = arrange c now prefs key draw l := by
  rcases hsort : prefs.sort with - | sort
  · -- the key is not read here
    have hnone : ∀ now key, arrange c now prefs key draw l = arrange c now prefs [] draw l := by
      intro now key
      unfold arrange
      rw [hsort]
    rw [hnone, hnone now key]
    exact (List.forall₂_eq_eq_eq.le _ _ (forall₂_arrange (mirror_withWarmth warmth)
      (twin_of_eq (.frozen fun _ ↦ true)) draw (List.forall₂_refl l))).symm
  · unfold arrange
    rw [hsort]
    exact sortEntries_warmth hsort h

variable (A : Answers Entry)

theorem splitTiers_warmth {groups : List (ℤ × List Entry)} (k i : ℕ)
    (h : ∀ g ∈ groups, SameRates c now (now.withWarmth warmth) prefs key key' g.2) :
    splitTiers c (now.withWarmth warmth) prefs key' A k i groups =
      splitTiers c now prefs key A k i groups := by
  induction groups generalizing k i with
  | nil => rfl
  | cons g groups ih =>
    obtain ⟨tierKey, group⟩ := g
    have hgroup : ∀ want k, SameRates c now (now.withWarmth warmth) prefs key key'
        (A.pass want k group) :=
      fun want k ↦ (h _ (.head _)).subset fun e he ↦ (A.pass_sublist want k group).subset he
    rw [splitTiers, splitTiers, ih _ _ fun g hg ↦ h g (.tail _ hg),
      arrange_warmth _ (hgroup true _), sorted_warmth (hgroup false _)]
    rfl

/-- **Without cache affinity a selection depends on the cache key and on the warmth through the hit rates
of its entries alone**, and on these only if it sorts by the cache. -/
theorem emit_warmth (haff : affinityActive c key = false) (haff' : affinityActive c key' = false)
    (h : SameRates c now (now.withWarmth warmth) prefs key key' es) :
    emit c (now.withWarmth warmth) prefs key' A es = emit c now prefs key A es := by
  have hpinned : Pinned c prefs key' es ↔ Pinned c prefs key es := by
    rw [Pinned, Pinned, haff, haff']
  have hgroups : tierGroups c prefs key' es = tierGroups c prefs key es := by
    rw [tierGroups, tierGroups, haff, haff']
  have hpreferred : ∀ want k, SameRates c now (now.withWarmth warmth) prefs key key'
      (A.pass want k (preferredEntries prefs es)) :=
    fun want k ↦ h.subset fun e he ↦
      ((mem_preferredEntries prefs).1 ((A.pass_sublist want k _).subset he)).2
  have hsplits : splitTiers c (now.withWarmth warmth) prefs key' A 0 0 (tierGroups c prefs key es) =
      splitTiers c now prefs key A 0 0 (tierGroups c prefs key es) := by
    refine splitTiers_warmth A 0 0 fun g hg ↦ h.subset fun e he ↦ ?_
    obtain ⟨tierKey, -, rfl⟩ := List.mem_map.1 hg
    rw [haff, if_neg Bool.false_ne_true] at he
    exact (List.mem_filter.1 (List.mem_filter.1 he).1).1
  have horder : ∀ keys, tierOrder c (now.withWarmth warmth) prefs keys = tierOrder c now prefs keys :=
    (mirror_withWarmth warmth).tierOrder_eq
  unfold emit
  simp only [hpinned, hgroups, haff, haff', horder, hsplits, Bool.false_eq_true, if_false]
  unfold emitPinned emitTiers
  simp only [sorted_warmth (hpreferred _ _)]

end Warmth

/-! ### The estimate -/

/-- No enabled backend of the model has a configured context. -/
def ModelConfig.Contextless (m : ModelConfig) : Prop :=
  ∀ b ∈ m.backends, attrBool b.fields (py "enabled") = true →
    attrInt b.fields (py "context_length") = none

/-- The estimate is not needed exactly if no context is configured and the response cache is not asked. -/
theorem inputEstimateNeeded_eq_false_iff {m : ModelConfig} {useCache : Bool} :
    inputEstimateNeeded (some m) useCache = false ↔ useCache = false ∧ m.Contextless := by
  rw [inputEstimateNeeded, Bool.or_eq_false_iff, Option.any_some, List.any_eq_false]
  refine and_congr_right fun _ ↦ forall₂_congr fun b _ ↦ ?_
  rw [Bool.and_eq_true, not_and, Option.not_isSome_iff_eq_none]

/-- Where no context is configured, every request fits. -/
theorem eligible_contextless {c : GatewayConfig} {m : ModelConfig} (h : m.Contextless)
    (d : Demand) (inputTokens : Option ℤ) (ignore : List PyStr) (slot : Option TimeSlot) :
    eligible c m { d with inputTokens := inputTokens } ignore slot = eligible c m d ignore slot := by
  have hcandidate : ∀ i, ∀ b ∈ m.backends,
      candidate c m { d with inputTokens := inputTokens } ignore slot i b =
        candidate c m d ignore slot i b := by
    intro i b hb
    unfold candidate
    by_cases henabled : attrBool b.fields (py "enabled") = true
    · have hfits : ∀ d, fitsContext b d = true := by
        intro d
        unfold fitsContext
        rw [h b hb henabled]
        rcases d.inputTokens with - | n <;> rfl
      simp only [hfits]
      rfl
    · simp [henabled]
  unfold eligible
  congr 1
  refine List.ext_getElem? fun i ↦ ?_
  rw [List.getElem?_mapIdx, List.getElem?_mapIdx]
  rcases hb : m.backends[i]? with - | b
  · rfl
  · exact congrArg some (hcandidate i b (List.mem_of_getElem? hb))

/-- The candidates do not depend on an estimate that is not needed. -/
theorem candidates_demand {c : GatewayConfig} {now : Moment} {prefs : ProviderPrefs} {id : PyStr}
    (warmth : PyStr → List (PyStr × Warmth)) (d : Demand) (inputTokens : Option ℤ)
    (h : ∀ m, c.modelById id = some m → inputTokens = d.inputTokens ∨ m.Contextless) :
    candidates c (now.withWarmth warmth) prefs id { d with inputTokens := inputTokens } =
      candidates c now prefs id d := by
  unfold candidates
  rcases hm : c.modelById id with - | m
  · rfl
  · rcases h m hm with rfl | hless
    · rfl
    · have heligible : eligible c m { d with inputTokens := inputTokens } prefs.ignore =
          eligible c m d prefs.ignore :=
        funext fun slot ↦ eligible_contextless hless d inputTokens prefs.ignore slot
      simp only [heligible]
      rfl

end LocalGateway
