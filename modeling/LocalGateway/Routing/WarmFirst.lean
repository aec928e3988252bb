import Mathlib.Data.Prod.Lex
import LocalGateway.Foundations.StableSort
import LocalGateway.Routing.Gating

/-!
# Sorting by the cache

With `sort=cache`, a backend with a warmth entry is to come before one without, and of two with an entry the one
with the higher hit rate. What is sorted by is the hit rate to three places, as `warmth_snapshot` gives it; one
that is 0 counts like none, and where they are the same the latency decides.

* `Warmer`: what should decide, from the registry as it is; `cacheRank`: what does.
* `lexLt_sortKey_cache`: the sort keys are compared by the ranks.
* `prefersWarm_iff`: when the sorted group is as it should be.
-/

/-- Every way to compare keys finds the same. -/
theorem Dict.lookup_items {κ α : Type} [DecidableEq κ] [BEq κ] [LawfulBEq κ] (d : Dict κ α) (k : κ) :
    d.items.lookup k = d.get? k := by
  obtain ⟨items, hnodup⟩ := d
  show items.lookup k = @List.lookup κ α instBEqOfDecidableEq k items
  clear hnodup
  induction items with
  | nil => rfl
  | cons e items ih =>
    rw [Dict.lookup_cons_eq, ih]
    exact (@Dict.lookup_cons_eq κ α _ k instBEqOfDecidableEq _ e items).symm

namespace LocalGateway

open Py Json

/-- The moment of a selection whose statistics and warmth are those of a registry at a time. -/
def Moment.reading (now : Moment) (s : StatsRegistry) (time : ℚ) : Moment :=
  { now with
    stats := s.snapshot.items.map fun e ↦ (e.1, e.2.stat)
    warmth := warmthAt s.warmth time }

theorem RouterState.moment_eq_reading (s : RouterState) (plan : Plan) (a : Arrival) :
    s.moment plan a = (s.moment plan a).reading s.registries.stats a.time := rfl

section Rank

variable (c : GatewayConfig) (s : StatsRegistry) (time : ℚ) (cacheKey : PyStr)

/-- The last hit rate of a backend and the cache key, if there is an entry that is not expired. -/
def warmRate (e : Entry) : Option ℚ :=
  if cacheKey = [] then none
  else ((StatsRegistry.entryOf s.warmth cacheKey e.key).filter
    fun w ↦ !StatsRegistry.expired (cacheTtl c) time w).map WarmthEntry.lastHitRate

/-- The first backend is warm, and the second one is not, or has a lower hit rate. -/
def Warmer (a b : Entry) : Prop :=
  ∃ x ∈ warmRate c s time cacheKey a, ∀ y ∈ warmRate c s time cacheKey b, y < x

/-- No backend of the group comes after one that it is warmer than. -/
def PrefersWarm (es : List Entry) : Prop :=
  es.Pairwise fun a b ↦ ¬ Warmer c s time cacheKey b a

/-- The hit rate as it is sorted by. -/
def roundedRate (e : Entry) : ℚ :=
  PyFloat.roundTo 3 ((warmRate c s time cacheKey e).getD 0)

/-- The average latency as it is sorted by, where none and 0 are a long one. -/
def sortLatency (e : Entry) : ℚ :=
  match (s.stats.get? e.key).bind fun st ↦ average st.latencies with
  | some latency => if latency = 0 then 999999 else latency
  | none => 999999

/-- The hit rates differ after rounding. No hit rate is negative, so that the second half is idle. -/
def Apart (a b : Entry) : Prop :=
  roundedRate c s time cacheKey a ≠ roundedRate c s time cacheKey b ∧
    (roundedRate c s time cacheKey a = 0 → 0 ≤ roundedRate c s time cacheKey b)

/-- What the group is sorted by: whether the rate is 0, the rate from high to low, and the latency. -/
def cacheRank (e : Entry) : ℚ ×ₗ ℚ ×ₗ ℚ :=
  toLex (if roundedRate c s time cacheKey e = 0 then 1 else 0,
    toLex (-roundedRate c s time cacheKey e, sortLatency s e))

end Rank

/-! ### The sort key -/

section Key

variable {c : GatewayConfig} {now : Moment} {s : StatsRegistry} {time : ℚ} {cacheKey : PyStr}

/-- The number is finite, with this value. -/
def HasValue (a : PyFloat) (q : ℚ) : Prop :=
  a = .fin q ∨ a = .negZero ∧ q = 0

theorem lt_of_hasValue {a b : PyFloat} {x y : ℚ} (ha : HasValue a x) (hb : HasValue b y) :
    a.lt b = decide (x < y) := by
  rcases ha with rfl | ⟨rfl, rfl⟩ <;> rcases hb with rfl | ⟨rfl, rfl⟩ <;> rfl

theorem hasValue_neg (q : ℚ) : HasValue (PyFloat.fin q).neg (-q) := by
  by_cases h : q = 0
  · exact .inr ⟨if_pos h, by rw [h, neg_zero]⟩
  · exact .inl (if_neg h)

theorem lexLt_iff {x y z x' y' z' : PyFloat} {a b d a' b' d' : ℚ} (hx : HasValue x a) (hy : HasValue y b)
    (hz : HasValue z d) (hx' : HasValue x' a') (hy' : HasValue y' b') (hz' : HasValue z' d') :
    lexLt [x, y, z] [x', y', z'] = true ↔
      (toLex (a, toLex (b, d)) : ℚ ×ₗ ℚ ×ₗ ℚ) < toLex (a', toLex (b', d')) := by
  have hstep : ∀ (q q' : ℚ) (R : Prop), q < q' ∨ q ≤ q' ∧ R ↔ q < q' ∨ q = q' ∧ R := fun q q' R ↦ by
    rw [le_iff_lt_or_eq]
    tauto
  simp only [lexLt, lt_of_hasValue hx hx', lt_of_hasValue hx' hx, lt_of_hasValue hy hy', lt_of_hasValue hy' hy,
    lt_of_hasValue hz hz', lt_of_hasValue hz' hz, Bool.or_eq_true, Bool.and_eq_true, Bool.not_eq_true',
    decide_eq_true_eq, decide_eq_false_iff_not, not_lt, Bool.false_eq_true, and_false, or_false, hstep,
    Prod.Lex.toLex_lt_toLex]

theorem isZero_fin (q : ℚ) : (PyFloat.fin q).isZero = decide (q = 0) := by
  simp [PyFloat.isZero]

theorem roundTo_zero : PyFloat.roundTo 3 0 = 0 := by
  decide +kernel

/-- The warmth that the sort finds is that of the registry, with the rounded hit rate. -/
theorem lookup_liveWarmth_reading (key : PyStr) :
    ((liveWarmth c (now.reading s time) cacheKey).lookup key).map Warmth.hitRate =
      if cacheKey = [] then none
      else ((StatsRegistry.entryOf s.warmth cacheKey key).filter
        fun w ↦ !StatsRegistry.expired (cacheTtl c) time w).map fun w ↦ .fin (PyFloat.roundTo 3 w.lastHitRate) := by
  unfold liveWarmth
  split_ifs
  · rfl
  · have hdict : ((now.reading s time).warmth cacheKey).filter (fun e ↦ !(PyFloat.fin (cacheTtl c)).lt e.2.age) =
        ((((s.warmth.get? cacheKey).getD .empty).mapValues fun w ↦
          (⟨.fin (time - w.lastSeenTs), .fin w.rounded.lastHitRate⟩ : Warmth)).filter
            fun e ↦ !(PyFloat.fin (cacheTtl c)).lt e.2.age).items := rfl
    have hentry : ((s.warmth.get? cacheKey).getD .empty).get? key =
        StatsRegistry.entryOf s.warmth cacheKey key := by
      rw [StatsRegistry.entryOf]
      cases s.warmth.get? cacheKey <;> rfl
    rw [hdict, Dict.lookup_items, Dict.get?_filter, Dict.get?_mapValues, hentry]
    cases StatsRegistry.entryOf s.warmth cacheKey key with
    | none => rfl
    | some w =>
      have hexpired : (!(PyFloat.fin (cacheTtl c)).lt (.fin (time - w.lastSeenTs))) =
          !StatsRegistry.expired (cacheTtl c) time w := rfl
      simp only [Option.map_some, Option.filter_some, hexpired]
      split_ifs <;> rfl

theorem latency_reading (key : PyStr) :
    (((now.reading s time).stats.lookup key).bind BackendStat.avgLatency) =
      ((s.stats.get? key).bind fun st ↦ average st.latencies).map .fin := by
  have hdict : (now.reading s time).stats = (s.snapshot.mapValues StatsReport.stat).items := rfl
  rw [hdict, Dict.lookup_items, Dict.get?_mapValues, StatsRegistry.snapshot, Dict.get?_mapValues]
  cases s.stats.get? key <;> rfl

theorem sortKey_cache (prefs : ProviderPrefs) (e : Entry) :
    sortKey c (seen c (now.reading s time) prefs) (py "cache") cacheKey e =
      [flag (decide (roundedRate c s time cacheKey e = 0)), (PyFloat.fin (roundedRate c s time cacheKey e)).neg,
        .fin (sortLatency s e)] := by
  have hrate : (((liveWarmth c (now.reading s time) cacheKey).lookup e.key).map Warmth.hitRate).getD (.fin 0) =
      .fin (roundedRate c s time cacheKey e) := by
    rw [lookup_liveWarmth_reading, roundedRate, warmRate]
    split_ifs
    · rw [Option.getD_none, Option.getD_none, roundTo_zero]
    · cases (StatsRegistry.entryOf s.warmth cacheKey e.key).filter fun w ↦
          !StatsRegistry.expired (cacheTtl c) time w with
      | none => rw [Option.map_none, Option.getD_none, Option.map_none, Option.getD_none, roundTo_zero]
      | some w => rfl
  have hlatency : ((((now.reading s time).stats.lookup e.key).bind BackendStat.avgLatency).getD (.fin 0)).orElse
      (.fin 999999) = .fin (sortLatency s e) := by
    rw [latency_reading, sortLatency]
    rcases (s.stats.get? e.key).bind fun st ↦ average st.latencies with - | latency
    · rfl
    · simp only [Option.map_some, Option.getD_some, PyFloat.orElse, isZero_fin, decide_eq_true_eq]
      split_ifs <;> rfl
  have hstats : (seen c (now.reading s time) prefs).stats = (now.reading s time).stats := by
    unfold seen
    split_ifs <;> rfl
  -- the last of the names of a sort
  simp only [sortKey, if_neg (show py "cache" ≠ py "latency" by decide),
    if_neg (show py "cache" ≠ py "throughput" by decide), if_neg (show py "cache" ≠ py "price" by decide),
    if_neg (show py "cache" ≠ py "value" by decide), if_true, liveWarmth_seen, hstats, hrate, hlatency, isZero_fin]

/-- Sort keys are compared by the ranks. -/
theorem lexLt_sortKey_cache (prefs : ProviderPrefs) (a b : Entry) :
    lexLt (sortKey c (seen c (now.reading s time) prefs) (py "cache") cacheKey b)
        (sortKey c (seen c (now.reading s time) prefs) (py "cache") cacheKey a) = false ↔
      cacheRank c s time cacheKey a ≤ cacheRank c s time cacheKey b := by
  have hflag : ∀ e, HasValue (flag (decide (roundedRate c s time cacheKey e = 0)))
      (if roundedRate c s time cacheKey e = 0 then 1 else 0) := fun e ↦ .inl (by simp [flag])
  rw [sortKey_cache, sortKey_cache, ← not_lt, ← Bool.not_eq_true, not_iff_not]
  exact lexLt_iff (hflag b) (hasValue_neg _) (.inl rfl) (hflag a) (hasValue_neg _) (.inl rfl)

end Key

/-! ### What rounding does to the order -/

/-- Rounding keeps the order. -/
theorem roundTo_mono (digits : ℕ) {x y : ℚ} (h : x ≤ y) : PyFloat.roundTo digits x ≤ PyFloat.roundTo digits y := by
  have hpow : (0 : ℚ) < 10 ^ digits := by positivity
  have hscaled : x * 10 ^ digits ≤ y * 10 ^ digits := mul_le_mul_of_nonneg_right h hpow.le
  unfold PyFloat.roundTo
  refine div_le_div_of_nonneg_right (Int.cast_le.2 ?_) hpow.le
  generalize x * 10 ^ digits = x' at hscaled ⊢
  generalize y * 10 ^ digits = y' at hscaled ⊢
  rcases (Rat.floor_monotone hscaled).lt_or_eq with hlt | heq
  · -- one is rounded up to the floor of the other at most
    split_ifs <;> omega
  · rw [heq]
    split_ifs with hx hy hy
    · exact le_rfl
    · omega
    · rcases hy with hy | ⟨hy, heven⟩
      · exact absurd (.inl (by linarith)) hx
      · rcases lt_or_eq_of_le hscaled with hlt | rfl
        · exact absurd (.inl (by linarith)) hx
        · exact absurd (.inr ⟨hy, heven⟩) hx
    · exact le_rfl

section Order

variable {c : GatewayConfig} {s : StatsRegistry} {time : ℚ} {cacheKey : PyStr} {a b : Entry}

theorem cacheRank_of_eq (h : roundedRate c s time cacheKey a = roundedRate c s time cacheKey b) :
    (cacheRank c s time cacheKey a < cacheRank c s time cacheKey b ↔ sortLatency s a < sortLatency s b) ∧
      (cacheRank c s time cacheKey a ≤ cacheRank c s time cacheKey b ↔ sortLatency s a ≤ sortLatency s b) := by
  unfold cacheRank
  rw [h]
  simp [Prod.Lex.toLex_lt_toLex, Prod.Lex.toLex_le_toLex]

/-- A warmer backend has no lower rounded rate, if the other one is warm at all. -/
theorem Warmer.rate_le (h : Warmer c s time cacheKey a b) :
    roundedRate c s time cacheKey b ≤ roundedRate c s time cacheKey a ∨ roundedRate c s time cacheKey b = 0 := by
  obtain ⟨x, hx, hlt⟩ := h
  unfold roundedRate
  rw [Option.mem_def.1 hx]
  rcases hb : warmRate c s time cacheKey b with - | y
  · exact .inr roundTo_zero
  · exact .inl (roundTo_mono 3 (hlt y (by rw [hb]; rfl)).le)

theorem cacheRank_of_ne (hwarmer : Warmer c s time cacheKey a b)
    (h : roundedRate c s time cacheKey a ≠ roundedRate c s time cacheKey b) :
    cacheRank c s time cacheKey a < cacheRank c s time cacheKey b ↔ Apart c s time cacheKey a b := by
  rw [Apart, and_iff_right h, cacheRank, cacheRank, Prod.Lex.toLex_lt_toLex, Prod.Lex.toLex_lt_toLex]
  have hrate := hwarmer.rate_le
  generalize roundedRate c s time cacheKey a = x at h hrate ⊢
  generalize roundedRate c s time cacheKey b = y at h hrate ⊢
  rcases eq_or_ne x 0 with rfl | hx
  · have hy : y < 0 := lt_of_le_of_ne (hrate.elim id Eq.le) h.symm
    simp [hy.ne, hy.not_ge]
  · have hlt : y ≠ 0 → y < x := fun hy ↦ lt_of_le_of_ne (hrate.resolve_right hy) h.symm
    rcases eq_or_ne y 0 with rfl | hy
    · simp [hx]
    · simp [hx, hy, hlt hy]

/-- A warmer backend is sorted before the other one. -/
theorem cacheRank_lt_iff (hwarmer : Warmer c s time cacheKey a b) :
    cacheRank c s time cacheKey a < cacheRank c s time cacheKey b ↔ Apart c s time cacheKey a b ∨
      roundedRate c s time cacheKey a = roundedRate c s time cacheKey b ∧ sortLatency s a < sortLatency s b := by
  by_cases h : roundedRate c s time cacheKey a = roundedRate c s time cacheKey b
  · rw [(cacheRank_of_eq h).1, and_iff_right h, or_iff_right fun hapart ↦ hapart.1 h]
  · rw [cacheRank_of_ne hwarmer h, or_iff_left fun hsame ↦ h hsame.1]

theorem cacheRank_le_iff (hwarmer : Warmer c s time cacheKey a b) :
    cacheRank c s time cacheKey a ≤ cacheRank c s time cacheKey b ↔ Apart c s time cacheKey a b ∨
      roundedRate c s time cacheKey a = roundedRate c s time cacheKey b ∧ sortLatency s a ≤ sortLatency s b := by
  by_cases h : roundedRate c s time cacheKey a = roundedRate c s time cacheKey b
  · rw [(cacheRank_of_eq h).2, and_iff_right h, or_iff_right fun hapart ↦ hapart.1 h]
  · have hne : cacheRank c s time cacheKey a ≠ cacheRank c s time cacheKey b := fun heq ↦ by
      have hrates := congrArg (fun r ↦ (ofLex (ofLex r).2).1) heq
      exact h (neg_injective hrates)
    rw [← lt_iff_le_and_ne.trans (and_iff_left hne), cacheRank_of_ne hwarmer h, or_iff_left fun hsame ↦ h hsame.1]

end Order

/-- **When `sort=cache` prefers warm backends.** Of two backends of the group, one of which is warmer than the
other, their hit rates must differ after rounding, or be the same and the latency or else the order of the group
put the warmer one first. -/
theorem prefersWarm_iff {c : GatewayConfig} {now : Moment} {s : StatsRegistry} {time : ℚ} {prefs : ProviderPrefs}
    {cacheKey : PyStr} {es : List Entry} (hsort : prefs.sort = some (py "cache")) :
    PrefersWarm c s time cacheKey (sorted c (now.reading s time) prefs cacheKey es) ↔
      es.Pairwise fun a b ↦
        (Warmer c s time cacheKey a b → Apart c s time cacheKey a b ∨
          roundedRate c s time cacheKey a = roundedRate c s time cacheKey b ∧ sortLatency s a ≤ sortLatency s b) ∧
        (Warmer c s time cacheKey b a → Apart c s time cacheKey b a ∨
          roundedRate c s time cacheKey b = roundedRate c s time cacheKey a ∧ sortLatency s b < sortLatency s a) := by
  unfold PrefersWarm sorted sortEntries
  rw [hsort, StableSort.pairwise_insertionSort_iff (lexLt_sortKey_cache prefs)]
  refine List.Pairwise.iff fun a b ↦ ?_
  rw [← not_lt, not_imp_not, and_comm, imp_not_comm, not_lt]
  exact and_congr (forall_congr' cacheRank_le_iff) (forall_congr' cacheRank_lt_iff)

/-- A cold backend, and a warm one. -/
def coldAndWarm : List Entry :=
  [plainEntry 0 (py "a") 1, plainEntry 1 (py "b") 1]

/-- Their configuration. -/
def coldAndWarmGateway : GatewayConfig :=
  plainGateway plainServer (coldAndWarm.map Entry.backend)

/-- The registry after an answer of the second one. -/
def afterAnswer (use : CacheUse) : StatsRegistry :=
  StatsRegistry.initial.recordCacheActivity (py "b:x") (some (py "k")) use (some true) 0

/-- The preference for warm backends. -/
def sortByCache : ProviderPrefs :=
  { ProviderPrefs.none with sort := some (py "cache") }

/-- A backend that has answered from its cache comes first. -/
theorem prefersWarm_hit :
    PrefersWarm coldAndWarmGateway (afterAnswer ⟨some 10, none, some 20⟩) 1 (py "k")
      (sorted coldAndWarmGateway (quietMoment.reading (afterAnswer ⟨some 10, none, some 20⟩) 1) sortByCache (py "k")
        coldAndWarm) := by
  refine (prefersWarm_iff rfl).2 ?_
  have hcold : warmRate coldAndWarmGateway (afterAnswer ⟨some 10, none, some 20⟩) 1 (py "k")
      (plainEntry 0 (py "a") 1) = none := by decide +kernel
  refine List.pairwise_pair.2 ⟨fun hwarmer ↦ ?_, fun _ ↦ .inl ⟨by decide +kernel, fun _ ↦ by decide +kernel⟩⟩
  obtain ⟨x, hx, -⟩ := hwarmer
  rw [hcold] at hx
  cases hx

/-- **A warm backend comes last** if it has only written to its cache: its hit rate is 0. -/
theorem not_prefersWarm_written :
    ¬ PrefersWarm coldAndWarmGateway (afterAnswer ⟨none, some 10, some 20⟩) 1 (py "k")
      (sorted coldAndWarmGateway (quietMoment.reading (afterAnswer ⟨none, some 10, some 20⟩) 1) sortByCache (py "k")
        coldAndWarm) := by
  have hsorted : sorted coldAndWarmGateway (quietMoment.reading (afterAnswer ⟨none, some 10, some 20⟩) 1) sortByCache
      (py "k") coldAndWarm = coldAndWarm := by decide +kernel
  have hwarm : warmRate coldAndWarmGateway (afterAnswer ⟨none, some 10, some 20⟩) 1 (py "k")
      (plainEntry 1 (py "b") 1) = some 0 := by decide +kernel
  have hcold : warmRate coldAndWarmGateway (afterAnswer ⟨none, some 10, some 20⟩) 1 (py "k")
      (plainEntry 0 (py "a") 1) = none := by decide +kernel
  rw [hsorted]
  intro h
  refine List.pairwise_pair.1 h ⟨0, hwarm, fun y hy ↦ ?_⟩
  rw [hcold] at hy
  cases hy

end LocalGateway
