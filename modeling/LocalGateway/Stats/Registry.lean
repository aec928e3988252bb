import Mathlib.Data.List.DropRight
import Mathlib.Data.List.MinMax
import LocalGateway.Python.Dict
import LocalGateway.Routing.Candidates

/-!
# The registry of statistics

What one process remembers of its backends (`stats.py`): their latencies, successes and failures,
the requests in flight on them, and for each cache key the backends whose cache is warm. A backend
is named by `provider:model`.

Times are rational numbers of seconds, and the quotients that a report rounds are exact before.
-/

namespace LocalGateway

open Py

/-! ### Statistics -/

/-- `WINDOW`. -/
def statsWindow : ℕ :=
  50

/-- `deque.append`, which drops the oldest item of a full deque. -/
def pushWindow {α : Type} (items : List α) (x : α) : List α :=
  (items ++ [x]).rtake statsWindow

/-- `_BackendStats`. -/
structure BackendStats where
  latencies : List ℤ
  ttfts : List ℤ
  successes : ℕ
  failures : ℕ
  lastError : Option PyStr
  lastErrorTs : Option ℚ
  lastSuccessTs : Option ℚ
  inFlight : ℕ
deriving DecidableEq

/-- `_BackendStats()`. -/
def BackendStats.new : BackendStats where
  latencies := []
  ttfts := []
  successes := 0
  failures := 0
  lastError := none
  lastErrorTs := none
  lastSuccessTs := none
  inFlight := 0

/-- `WarmthEntry`. -/
structure WarmthEntry where
  lastSeenTs : ℚ
  hitCount : ℕ
  writeCount : ℕ
  missCount : ℕ
  lastHitRate : ℚ
deriving DecidableEq

/-- `WarmthEntry(last_seen_ts=now)`. -/
def WarmthEntry.new (now : ℚ) : WarmthEntry :=
  ⟨now, 0, 0, 0, 0⟩

/-- `_WARMTH_MAX_KEYS`. -/
def warmthMaxKeys : ℕ :=
  2000

/-- `_WARMTH_MAX_ENTRIES`. -/
def warmthMaxEntries : ℕ :=
  20000

/-- The warm backends of a cache key. -/
abbrev Bucket := Dict PyStr WarmthEntry

/-- The state of the module: `_stats` and `_warmth`. -/
structure StatsRegistry where
  stats : Dict PyStr BackendStats
  warmth : Dict PyStr Bucket

/-- What an answer says of the cache. -/
structure CacheUse where
  cachedTokens : Option ℤ
  cacheWriteTokens : Option ℤ
  inputTokens : Option ℤ
deriving DecidableEq

namespace StatsRegistry

variable (s : StatsRegistry)

/-- The module after its import. -/
def initial : StatsRegistry :=
  ⟨.empty, .empty⟩

/-- A change of `_get(key)`. -/
def modify (key : PyStr) (f : BackendStats → BackendStats) : StatsRegistry :=
  { s with stats := s.stats.alter key fun st ↦ f (st.getD .new) }

/-- `start_request`. -/
def startRequest (key : PyStr) : StatsRegistry :=
  s.modify key fun st ↦ { st with inFlight := st.inFlight + 1 }

/-- `end_request`. -/
def endRequest (key : PyStr) : StatsRegistry :=
  s.modify key fun st ↦ if 0 < st.inFlight then { st with inFlight := st.inFlight - 1 } else st

/-- `record_success`. -/
def recordSuccess (key : PyStr) (latencyMs ttftMs : Option ℤ) (now : ℚ) : StatsRegistry :=
  s.modify key fun st ↦ { st with
    successes := st.successes + 1
    lastSuccessTs := some now
    latencies := latencyMs.elim st.latencies (pushWindow st.latencies)
    ttfts := ttftMs.elim st.ttfts (pushWindow st.ttfts) }

/-- `record_failure`. -/
def recordFailure (key : PyStr) (error : Option PyStr) (now : ℚ) : StatsRegistry :=
  s.modify key fun st ↦ { st with
    failures := st.failures + 1
    lastError := some ((error.getD []).take 300)
    lastErrorTs := some now }

/-! ### Warmth -/

/-- A number of tokens, where none counts as zero. -/
def tokens (n : Option ℤ) : ℤ :=
  n.getD 0

/-- The backend takes part in cache affinity: it is said to, or its answer mentions the cache. -/
def supportsCache (cacheSupported : Option Bool) (use : CacheUse) : Bool :=
  cacheSupported.getD (tokens use.cachedTokens ≠ 0 || tokens use.cacheWriteTokens ≠ 0)

/-- The entry of a backend after an answer. -/
def observe (use : CacheUse) (now : ℚ) (entry : Option WarmthEntry) : WarmthEntry :=
  let e := { entry.getD (.new now) with lastSeenTs := now }
  let e :=
    if 0 < tokens use.cachedTokens then { e with hitCount := e.hitCount + 1 }
    else if 0 < tokens use.cacheWriteTokens then { e with writeCount := e.writeCount + 1 }
    else if 0 < tokens use.inputTokens then { e with missCount := e.missCount + 1 }
    else e
  let total := e.hitCount + e.missCount
  { e with lastHitRate := if total = 0 then 0 else e.hitCount / total }

/-- When a backend of a bucket was last seen. -/
def lastSeen (bucket : Bucket) : ℚ :=
  (bucket.items.map fun e ↦ e.2.lastSeenTs).max?.getD 0

/-- The bucket that was seen least recently: the first of those with the least time. -/
def oldestKey (warmth : Dict PyStr Bucket) : Option PyStr :=
  (warmth.items.argmin fun e ↦ lastSeen e.2).map Prod.fst

/-- The registry exceeds its limits. -/
def overfull (warmth : Dict PyStr Bucket) : Bool :=
  warmthMaxKeys < warmth.items.length ||
    warmthMaxEntries < (warmth.items.map fun e ↦ e.2.items.length).sum

/-- The warmth entries with the one of a backend that has answered. -/
def warmed (key cacheKey : PyStr) (use : CacheUse) (now : ℚ) : Dict PyStr Bucket :=
  s.warmth.alter cacheKey fun bucket ↦ (bucket.getD .empty).alter key (observe use now)

/-- The cache key whose bucket is evicted. -/
def evicted (warmth : Dict PyStr Bucket) : Option PyStr :=
  if overfull warmth then oldestKey warmth else none

/-- `record_cache_activity`. -/
def recordCacheActivity (key : PyStr) (cacheKey : Option PyStr) (use : CacheUse)
    (cacheSupported : Option Bool) (now : ℚ) : StatsRegistry :=
  match cacheKey with
  | none => s
  | some cacheKey =>
    if cacheKey = [] || !supportsCache cacheSupported use then s
    else
      let warmth := s.warmed key cacheKey use now
      { s with warmth := (evicted warmth).elim warmth warmth.erase }

/-- An entry is expired. -/
def expired (ttlSec now : ℚ) (e : WarmthEntry) : Bool :=
  ttlSec < now - e.lastSeenTs

/-- `warm_backends_for`, with the registry after it: the expired entries of the cache key are
dropped. -/
def warmBackendsFor (cacheKey : PyStr) (candidates : List PyStr) (ttlSec now : ℚ) :
    StatsRegistry × List PyStr :=
  if cacheKey = [] ∨ candidates = [] then (s, [])
  else
    match s.warmth.get? cacheKey with
    | none => (s, [])
    | some bucket =>
      if bucket.items = [] then (s, [])
      else
        let live := bucket.filter fun e ↦ !expired ttlSec now e.2
        -- the cache key goes with its last entry
        if live.items = [] then ({ s with warmth := s.warmth.erase cacheKey }, [])
        else
          let warm := (live.items.filter fun e ↦ candidates.contains e.1).insertionSort fun a b ↦
            b.2.lastHitRate < a.2.lastHitRate ∨
              b.2.lastHitRate = a.2.lastHitRate ∧ b.2.lastSeenTs ≤ a.2.lastSeenTs
          ({ s with warmth := s.warmth.alter cacheKey fun _ ↦ live }, warm.map Prod.fst)

/-- `clear_warmth`. -/
def clearWarmth : StatsRegistry :=
  { s with warmth := .empty }

/-- `reset`. -/
def reset : StatsRegistry :=
  .initial

end StatsRegistry

/-! ### Reports -/

/-- `_avg`. -/
def average (items : List ℤ) : Option ℚ :=
  if items = [] then none else some (PyFloat.roundTo 1 ((items.sum : ℚ) / items.length))

/-- An entry of `snapshot`. -/
structure StatsReport where
  requests : ℕ
  successes : ℕ
  failures : ℕ
  successRate : Option ℚ
  avgLatencyMs : Option ℚ
  avgTtftMs : Option ℚ
  lastError : Option PyStr
  lastErrorTs : Option ℚ
  lastSuccessTs : Option ℚ
  inFlight : ℕ
deriving DecidableEq

/-- The entry of a backend. -/
def BackendStats.report (st : BackendStats) : StatsReport where
  requests := st.successes + st.failures
  successes := st.successes
  failures := st.failures
  successRate :=
    let total := st.successes + st.failures
    if total = 0 then none else some (PyFloat.roundTo 1 ((st.successes : ℚ) / total * 100))
  avgLatencyMs := average st.latencies
  avgTtftMs := average st.ttfts
  lastError := st.lastError
  lastErrorTs := st.lastErrorTs
  lastSuccessTs := st.lastSuccessTs
  inFlight := st.inFlight

/-- An entry of `warmth_for_backends`; it is warm if it is there. -/
structure WarmthSummary where
  lastHitRate : ℚ
  lastSeenTs : ℚ
  fingerprints : ℕ
deriving DecidableEq

/-- A summary with one entry more. -/
def WarmthSummary.add (e : WarmthEntry) (summary : Option WarmthSummary) : WarmthSummary :=
  let entry := summary.getD ⟨0, 0, 0⟩
  let entry := { entry with fingerprints := entry.fingerprints + 1 }
  if entry.lastSeenTs < e.lastSeenTs then
    { entry with lastSeenTs := e.lastSeenTs, lastHitRate := e.lastHitRate }
  else entry

/-- An entry of `warmth_snapshot`. -/
def WarmthEntry.rounded (e : WarmthEntry) : WarmthEntry :=
  { e with lastHitRate := PyFloat.roundTo 3 e.lastHitRate }

namespace StatsRegistry

variable (s : StatsRegistry)

/-- `snapshot`. -/
def snapshot : Dict PyStr StatsReport :=
  s.stats.mapValues BackendStats.report

/-- The inner loop of `warmth_for_backends`, over the entries of a bucket. -/
def summarize (candidates : List PyStr) (ttlSec now : ℚ) (out : Dict PyStr WarmthSummary)
    (items : List (PyStr × WarmthEntry)) : Dict PyStr WarmthSummary :=
  items.foldl (fun out e ↦
    if !candidates.contains e.1 || expired ttlSec now e.2 then out
    else out.alter e.1 (WarmthSummary.add e.2)) out

/-- `warmth_for_backends`. -/
def warmthForBackends (candidates : List PyStr) (ttlSec now : ℚ) : Dict PyStr WarmthSummary :=
  s.warmth.items.foldl (fun out bucket ↦ summarize candidates ttlSec now out bucket.2.items) .empty

/-- `warmth_snapshot`. -/
def warmthSnapshot : Dict PyStr Bucket :=
  s.warmth.mapValues fun bucket ↦ bucket.mapValues WarmthEntry.rounded

/-- The requests in flight on a backend. -/
def inFlight (key : PyStr) : ℕ :=
  (s.stats.get? key).elim 0 BackendStats.inFlight

end StatsRegistry

/-! ### One backend after a change of another -/

namespace StatsRegistry

variable {s : StatsRegistry} {key k l : PyStr}

theorem get?_modify_of_ne (f : BackendStats → BackendStats) (h : key ≠ k) :
    (s.modify k f).stats.get? key = s.stats.get? key :=
  Dict.get?_alter_of_ne s.stats _ h

theorem inFlight_modify_of_ne (f : BackendStats → BackendStats) (h : key ≠ k) :
    (s.modify k f).inFlight key = s.inFlight key := by
  rw [inFlight, get?_modify_of_ne f h, inFlight]

theorem inFlight_modify_self (f : BackendStats → BackendStats) :
    (s.modify key f).inFlight key = (f ((s.stats.get? key).getD .new)).inFlight := by
  rw [inFlight, modify, Dict.get?_alter_self]
  rfl

theorem inFlight_eq : s.inFlight key = ((s.stats.get? key).getD .new).inFlight := by
  rw [inFlight]
  cases s.stats.get? key <;> rfl

@[simp] theorem inFlight_startRequest_self : (s.startRequest key).inFlight key = s.inFlight key + 1 := by
  rw [startRequest, inFlight_modify_self, inFlight_eq]

@[simp] theorem inFlight_endRequest_self : (s.endRequest key).inFlight key = s.inFlight key - 1 := by
  rw [endRequest, inFlight_modify_self, inFlight_eq]
  split_ifs with h
  · rfl
  · omega

/-! ### The warmth of one backend -/

/-- What is known of a backend and a cache key. -/
def entryOf (warmth : Dict PyStr Bucket) (cacheKey key : PyStr) : Option WarmthEntry :=
  (warmth.get? cacheKey).bind fun bucket ↦ bucket.get? key

/-- What is known of a backend, over all cache keys. -/
def entriesOf (warmth : Dict PyStr Bucket) (key : PyStr) : List WarmthEntry :=
  warmth.items.filterMap fun e ↦ e.2.get? key

section Warmth

variable {warmth : Dict PyStr Bucket} {cacheKey : PyStr} {ttlSec now : ℚ} {candidates : List PyStr}

/-- A backend is warm for a cache key if it is a candidate with an entry that is not expired. -/
theorem mem_warmBackendsFor_iff :
    key ∈ (s.warmBackendsFor cacheKey candidates ttlSec now).2 ↔
      cacheKey ≠ [] ∧ key ∈ candidates ∧
        ∃ e, entryOf s.warmth cacheKey key = some e ∧ expired ttlSec now e = false := by
  unfold warmBackendsFor entryOf
  split_ifs with hnil
  · refine iff_of_false (by simp) ?_
    rintro ⟨hkey, hmem, -⟩
    exact hnil.elim hkey fun h ↦ by simp [h] at hmem
  obtain ⟨hkey, -⟩ := not_or.1 hnil
  rcases s.warmth.get? cacheKey with - | bucket
  · simp
  simp only [Option.bind_some]
  have hlive : ∀ e, (key, e) ∈ (bucket.filter fun e ↦ !expired ttlSec now e.2).items ↔
      bucket.get? key = some e ∧ expired ttlSec now e = false := by
    intro e
    rw [← Dict.mem_items_iff, Dict.filter, List.mem_filter, Bool.not_eq_true']
  simp only [← hlive]
  split_ifs with hbucket hempty
  · simp [Dict.filter, hbucket]
  · simp [hempty]
  · simp only [List.mem_map, List.mem_insertionSort, List.mem_filter, List.contains_iff_mem, hkey,
      ne_eq, not_false_eq_true, true_and]
    constructor
    · rintro ⟨⟨k, e⟩, ⟨hmem, hcandidate⟩, rfl⟩
      exact ⟨hcandidate, e, hmem⟩
    · rintro ⟨hcandidate, e, hmem⟩
      exact ⟨(key, e), ⟨hmem, hcandidate⟩, rfl⟩

/-- One entry of a backend goes into its summary. -/
def summarizeEntry (ttlSec now : ℚ) (summary : Option WarmthSummary) (e : WarmthEntry) :
    Option WarmthSummary :=
  if expired ttlSec now e then summary else some (.add e summary)

theorem get?_summarize (items : List (PyStr × WarmthEntry)) (out : Dict PyStr WarmthSummary)
    (hkey : key ∈ candidates) :
    (summarize candidates ttlSec now out items).get? key =
      ((items.filter (·.1 = key)).map Prod.snd).foldl (summarizeEntry ttlSec now) (out.get? key) := by
  induction items generalizing out with
  | nil => rfl
  | cons e items ih =>
    obtain ⟨k, e⟩ := e
    rw [summarize, List.foldl_cons, ← summarize, ih, List.filter_cons]
    simp only [decide_eq_true_eq]
    by_cases hk : k = key
    · subst hk
      rw [if_pos rfl, List.map_cons, List.foldl_cons, summarizeEntry]
      congr 1
      by_cases he : expired ttlSec now e = true
      · simp [he]
      · simp [he, hkey]
    · rw [if_neg hk]
      congr 1
      split_ifs
      · rfl
      · exact Dict.get?_alter_of_ne out _ (Ne.symm hk)

theorem get?_summarize_of_not_mem (items : List (PyStr × WarmthEntry))
    (out : Dict PyStr WarmthSummary) (hkey : key ∉ candidates) :
    (summarize candidates ttlSec now out items).get? key = out.get? key := by
  induction items generalizing out with
  | nil => rfl
  | cons e items ih =>
    obtain ⟨k, e⟩ := e
    rw [summarize, List.foldl_cons, ← summarize, ih]
    split_ifs with hskip
    · rfl
    · refine Dict.get?_alter_of_ne out _ ?_
      rintro rfl
      simp [hkey] at hskip

/-- The summary of a backend is made of its entries alone. -/
theorem get?_warmthForBackends :
    (s.warmthForBackends candidates ttlSec now).get? key =
      if key ∈ candidates then
        (entriesOf s.warmth key).foldl (summarizeEntry ttlSec now) none
      else none := by
  have hfold : ∀ (buckets : List (PyStr × Bucket)) (out : Dict PyStr WarmthSummary),
      (buckets.foldl (fun out bucket ↦ summarize candidates ttlSec now out bucket.2.items) out).get? key =
        if key ∈ candidates then
          (buckets.filterMap fun e ↦ e.2.get? key).foldl (summarizeEntry ttlSec now) (out.get? key)
        else out.get? key := by
    intro buckets
    induction buckets with
    | nil =>
      intro out
      split_ifs <;> rfl
    | cons b buckets ih =>
      intro out
      rw [List.foldl_cons, ih]
      split_ifs with hkey
      · rw [get?_summarize _ _ hkey, Dict.find_items, List.filterMap_cons]
        rcases b.2.get? key with - | e <;> rfl
      · exact get?_summarize_of_not_mem _ _ hkey
  exact hfold s.warmth.items .empty

variable {k : PyStr} {use : CacheUse}

/-- An answer of another backend adds nothing to what is known of a backend. -/
theorem entryOf_warmed_of_ne (h : key ≠ k) (l : PyStr) :
    entryOf (s.warmed k cacheKey use now) l key = entryOf s.warmth l key := by
  rw [entryOf, warmed, Dict.get?_alter, entryOf]
  split_ifs with hl
  · subst hl
    rw [Option.bind_some, Dict.get?_alter_of_ne _ _ h]
    cases s.warmth.get? l <;> rfl
  · rfl

theorem entriesOf_warmed_of_ne (h : key ≠ k) :
    entriesOf (s.warmed k cacheKey use now) key = entriesOf s.warmth key := by
  refine Dict.filterMap_alter s.warmth ?_ fun bucket ↦ ?_
  · exact Dict.get?_alter_of_ne _ _ h
  · exact Dict.get?_alter_of_ne _ _ h

/-- What is erased with a bucket that does not know a backend. -/
theorem entryOf_erase (h : entryOf warmth l key = none) (cacheKey : PyStr) :
    entryOf (warmth.erase l) cacheKey key = entryOf warmth cacheKey key := by
  rw [entryOf, Dict.get?_erase]
  split_ifs with hl
  · rw [hl, h]
    rfl
  · rfl

theorem entriesOf_erase (h : entryOf warmth l key = none) :
    entriesOf (warmth.erase l) key = entriesOf warmth key := by
  refine Dict.filterMap_erase warmth fun bucket hbucket ↦ ?_
  rwa [entryOf, hbucket] at h

end Warmth

end StatsRegistry

/-! ### What lookups and records leave alone -/

namespace StatsRegistry

variable (s : StatsRegistry) {k l : PyStr} {candidates : List PyStr} {ttlSec now : ℚ}

theorem warmBackendsFor_nil : (s.warmBackendsFor k [] ttlSec now).1 = s := by
  simp [warmBackendsFor]

theorem warmBackendsFor_no_key : (s.warmBackendsFor [] candidates ttlSec now).1 = s := by
  simp [warmBackendsFor]

theorem stats_warmBackendsFor : (s.warmBackendsFor k candidates ttlSec now).1.stats = s.stats := by
  unfold warmBackendsFor
  split_ifs
  · rfl
  · split
    · rfl
    · simp only
      split_ifs <;> rfl

/-- A lookup leaves the buckets of other keys alone. -/
theorem get?_warmBackendsFor_of_ne (h : l ≠ k) :
    (s.warmBackendsFor k candidates ttlSec now).1.warmth.get? l = s.warmth.get? l := by
  unfold warmBackendsFor
  split_ifs
  · rfl
  · split
    · rfl
    · simp only
      split_ifs
      · rfl
      · rw [Dict.get?_erase, if_neg h]
      · exact Dict.get?_alter_of_ne _ _ h

/-- What a lookup leaves of the bucket of its key depends on this bucket alone. -/
theorem get?_warmBackendsFor_self {s' : StatsRegistry} (h : s'.warmth.get? k = s.warmth.get? k) :
    (s'.warmBackendsFor k candidates ttlSec now).1.warmth.get? k =
      (s.warmBackendsFor k candidates ttlSec now).1.warmth.get? k := by
  unfold warmBackendsFor
  rw [h]
  split_ifs
  · exact h
  · rcases hk : s.warmth.get? k with - | bucket
    · exact h
    · simp only
      split_ifs
      · exact h
      · rw [Dict.get?_erase, Dict.get?_erase, if_pos rfl, if_pos rfl]
      · rw [Dict.get?_alter_self, Dict.get?_alter_self]

theorem stats_recordCacheActivity {key : PyStr} {cacheKey : Option PyStr} {use : CacheUse}
    {cacheSupported : Option Bool} :
    (s.recordCacheActivity key cacheKey use cacheSupported now).stats = s.stats := by
  unfold recordCacheActivity
  split
  · rfl
  · split_ifs <;> rfl

/-- A record that does not evict a bucket changes it only if it is that of its key. -/
theorem get?_recordCacheActivity {key : PyStr} {cacheKey : Option PyStr} {use : CacheUse}
    {cacheSupported : Option Bool} (hl : l ≠ [])
    (hkept : ∀ k, cacheKey = some k → k ≠ [] → supportsCache cacheSupported use = true →
      evicted (s.warmed key k use now) ≠ some l) :
    (s.recordCacheActivity key cacheKey use cacheSupported now).warmth.get? l =
      if cacheKey = some l ∧ supportsCache cacheSupported use = true then
        some (((s.warmth.get? l).getD .empty).alter key (observe use now))
      else s.warmth.get? l := by
  unfold recordCacheActivity
  rcases cacheKey with - | k
  · rw [if_neg (by simp)]
  by_cases hskip : (k = [] || !supportsCache cacheSupported use) = true
  · rw [if_neg]
    · simp only [hskip, if_true]
    · rintro ⟨hk, hsupports⟩
      simp [Option.some.inj hk, hl, hsupports] at hskip
  have hrecords : k ≠ [] ∧ supportsCache cacheSupported use = true := by
    simpa using hskip
  have hwarmed : (s.warmed key k use now).get? l =
      if l = k then some (((s.warmth.get? k).getD .empty).alter key (observe use now))
      else s.warmth.get? l :=
    Dict.get?_alter ..
  have herased : ((evicted (s.warmed key k use now)).elim (s.warmed key k use now)
      (s.warmed key k use now).erase).get? l = (s.warmed key k use now).get? l := by
    have hne := hkept k rfl hrecords.1 hrecords.2
    rcases hevicted : evicted (s.warmed key k use now) with - | l'
    · rfl
    · rw [hevicted] at hne
      exact (Dict.get?_erase ..).trans (if_neg fun heq ↦ hne (congrArg some heq.symm))
  simp only [hskip]
  rw [if_neg Bool.false_ne_true]
  simp only [herased, hwarmed, hrecords.2, and_true, Option.some.injEq]
  by_cases hlk : l = k
  · subst hlk
    rw [if_pos rfl]
  · rw [if_neg hlk, if_neg (Ne.symm hlk)]

end StatsRegistry

end LocalGateway
