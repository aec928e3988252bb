import LocalGateway.Foundations.Passes
import LocalGateway.Routing.Candidates

/-!
# `select_backends`

The emission of backends. Every path splits lists of eligible entries in two with two passes, each
of which asks again whether an entry is available; the clock may move between any two questions. The
questions of a call are numbered in the order in which they are asked: the tiers in their order, two
passes each, then the preferred entries.
-/

namespace LocalGateway

open Py

/-! ### Emissions -/

/-- `SelectedBackend`. -/
structure SelectedBackend where
  entry : Entry
  reason : PyStr
deriving DecidableEq

/-- What a call of `select_backends` yields, and whether it ends with an exception. -/
structure Selection where
  emitted : List SelectedBackend
  raised : Bool
deriving DecidableEq

/-- `_tag_reason`. -/
def tagReason (reason : PyStr) (es : List Entry) : List SelectedBackend :=
  es.map fun e ↦ ⟨e, reason⟩

/-- `_sort_suffix`. -/
def sortSuffix : Option PyStr → PyStr
  | some s => py " sort:" ++ s
  | none => []

/-- The last position of an id in `order`, and its length for an id that is not in it. -/
def orderRank (order : List PyStr) (id : PyStr) : ℕ :=
  match order.reverse.findIdx? (· = id) with
  | some j => order.length - 1 - j
  | none => order.length

/-- `_apply_tiebreak`. -/
def applyTiebreak (order : List PyStr) (es : List Entry) : List Entry :=
  if order = [] then es
  else es.insertionSort fun a b ↦ orderRank order a.provider.id ≤ orderRank order b.provider.id

section Select

variable (c : GatewayConfig) (now : Moment) (prefs : ProviderPrefs) (cacheKey : PyStr)

/-- `routing_mode`, or its default. -/
def routingMode : PyStr :=
  let mode := attrStr c.server.attrs.fields (py "routing_mode")
  if mode = [] then py "failover" else mode

/-- `routing_decay`, or its default. -/
def routingDecay : PyFloat :=
  ((attrFloat c.server.attrs.fields (py "routing_decay")).getD (.fin fourTenths)).orElse
    (.fin fourTenths)

/-- Cache affinity is on for the request. -/
def affinityActive : Bool :=
  attrBool c.server.attrs.fields (py "cache_affinity_enabled") && cacheKey ≠ []

/-- The throughput map, read only where it is used. -/
def tpsInUse : Bool :=
  attrBool c.server.attrs.fields (py "stats_routing_enabled") &&
    (prefs.sort = some (py "throughput") || prefs.sort = some (py "value") ||
      routingMode c = py "explore")

/-- The moment as `select_backends` sees it. -/
def seen : Moment :=
  if tpsInUse c prefs then now else { now with tps := [] }

/-- A list in the order of the sort, if there is one. -/
def sorted (es : List Entry) : List Entry :=
  match prefs.sort with
  | some sort => sortEntries c (seen c now prefs) sort cacheKey es
  | none => es

/-- The available entries of a tier in the order in which they are tried. -/
def arrange (draw : PyFloat) (es : List Entry) : List Entry :=
  let now := seen c now prefs
  match prefs.sort with
  | some sort => sortEntries c now sort cacheKey es
  | none =>
    if es = [] then es
    else if !now.tps.isEmpty && routingMode c = py "explore" then weightedRotation now draw es
    else if es.any fun e ↦ e.weight ≠ .fin 1 then staticWeightRotation now draw es
    else rotate (now.rotation % es.length) es

variable (A : Answers Entry)

/-- A tier after the split: its key, its available entries and its limited ones. -/
structure TierSplit where
  key : ℤ
  available : List Entry
  limited : List Entry

/-- The loop over the tiers. `k` is the number of the next question, `i` that of the next draw. -/
def splitTiers : ℕ → ℕ → List (ℤ × List Entry) → List TierSplit
  | _, _, [] => []
  | k, i, (key, group) :: groups =>
    ⟨key, arrange c now prefs cacheKey (now.draw i) (A.pass true k group),
      sorted c now prefs cacheKey (A.pass false (k + group.length) group)⟩ ::
        splitTiers (k + 2 * group.length) (i + 1) groups

/-- The number of questions asked for groups. -/
def questions (groups : List (ℤ × List Entry)) : ℕ :=
  (groups.map fun g ↦ 2 * g.2.length).sum

/-- The entries of each provider of `order` in turn, each provider's by tier. -/
def preferredEntries (es : List Entry) : List Entry :=
  prefs.order.flatMap fun id ↦
    ((tierKeys es).flatMap (tier es)).filter fun e ↦ e.provider.id = id

/-- The keys of the preferred entries. -/
def preferredKeys (es : List Entry) : List (PyStr × PyStr) :=
  (preferredEntries prefs es).map fun e ↦ (e.provider.id, e.backend.model)

/-- The entry is emitted with the preferred ones. -/
def isPreferred (es : List Entry) (e : Entry) : Bool :=
  (preferredKeys prefs es).contains (e.provider.id, e.backend.model)

/-- The request is pinned to the providers of `order`, one of which has an eligible entry. -/
def Pinned (es : List Entry) : Prop :=
  preferredEntries prefs es ≠ [] ∧ !prefs.allowFallbacks ∧ !affinityActive c cacheKey

instance (es : List Entry) : Decidable (Pinned c prefs cacheKey es) :=
  inferInstanceAs (Decidable (_ ∧ _ ∧ _))

/-- The groups that the loop over the tiers splits. -/
def tierGroups (es : List Entry) : List (ℤ × List Entry) :=
  (tierKeys es).map fun key ↦
    (key, if affinityActive c cacheKey then tier es key
      else (tier es key).filter fun e ↦ !isPreferred prefs es e)

/-- The path of a request that is pinned to the providers of `order`. -/
def emitPinned (preferred : List Entry) : List SelectedBackend :=
  tagReason (py "order-pref" ++ sortSuffix prefs.sort)
      (sorted c now prefs cacheKey (A.pass true 0 preferred)) ++
    tagReason (py "ratelimited-fallback")
      (sorted c now prefs cacheKey (A.pass false preferred.length preferred))

/-- The path without cache affinity, for tiers in a given order. -/
def emitTiers (k : ℕ) (preferred : List Entry) (splits : List TierSplit) (order : List ℤ) :
    List SelectedBackend :=
  tagReason (py "order-pref" ++ sortSuffix prefs.sort)
      (sorted c now prefs cacheKey (A.pass true k preferred)) ++
    (order.flatMap fun key ↦
      tagReason (py "tier-" ++ Json.intRepr key ++ sortSuffix prefs.sort)
        ((splits.filter fun t ↦ t.key = key).flatMap TierSplit.available)) ++
    tagReason (py "ratelimited-fallback") (A.pass false (k + 2 * preferred.length) preferred) ++
    splits.flatMap fun t ↦ tagReason (py "ratelimited-fallback") t.limited

/-- The requests in flight on an entry. -/
def inflight (e : Entry) : ℕ :=
  ((now.stats.lookup e.key).map BackendStat.inFlight).getD 0

/-- Idle entries, and busy ones with the least busy first. -/
def splitIdleBusy (es : List Entry) : List Entry × List Entry :=
  (es.filter fun e ↦ inflight now e = 0,
    (es.filter fun e ↦ inflight now e ≠ 0).insertionSort fun a b ↦ inflight now a ≤ inflight now b)

/-- The bands of `_emit_cache_affinity` before the limited entries. -/
def emitBands (flat : List Entry) : List SelectedBackend :=
  let isWarm (e : Entry) := ((liveWarmth c now cacheKey).lookup e.key).isSome
  let warm := splitIdleBusy now (flat.filter isWarm)
  let cold := splitIdleBusy now (flat.filter fun e ↦ !isWarm e)
  let tie := applyTiebreak prefs.order
  let warmBusy := tagReason (py "warm-busy") (tie warm.2)
  let coldBusy := tagReason (py "cold-busy") (tie cold.2)
  let busy := match attrInt c.server.attrs.fields (py "max_inflight_before_spill") with
    | none => (warmBusy, coldBusy)
    | some cap =>
      if warmBusy = [] then (warmBusy, coldBusy)
      else
        let spills (s : SelectedBackend) := cap ≤ (inflight now s.entry : ℤ)
        (warmBusy.filter fun s ↦ !spills s,
          -- what spills keeps its tag
          ((warmBusy.filter fun s ↦ spills s) ++ coldBusy).insertionSort fun a b ↦
            prefs.order = [] ∨
              orderRank prefs.order a.entry.provider.id ≤ orderRank prefs.order b.entry.provider.id)
  tagReason (py "warm-idle") (tie warm.1) ++ busy.1 ++ tagReason (py "cold-idle") (tie cold.1) ++
    busy.2

/-- `_emit_cache_affinity`, with the suffix its caller adds. -/
def emitCacheAffinity (k : ℕ) (preferred : List Entry) (splits : List TierSplit)
    (isPref : Entry → Bool) : List SelectedBackend :=
  let flat := A.pass true k preferred ++
    (splits.flatMap TierSplit.available).filter fun e ↦ !isPref e
  let bands := emitBands c (seen c now prefs) prefs cacheKey flat
  (bands.map fun s ↦ { s with reason := s.reason ++ sortSuffix prefs.sort }) ++
    tagReason (py "ratelimited-fallback")
      (A.pass false (k + preferred.length) preferred ++
        (splits.flatMap TierSplit.limited).filter fun e ↦ !isPref e)

/-- The order in which the tiers are tried; `none` is an exception. -/
def tierOrder (keys : List ℤ) : Option (List ℤ) :=
  if routingMode c = py "explore" ∧ 1 < keys.length ∧ prefs.order = [] then
    sampleTierOrder now (routingDecay c) (now.draw keys.length) keys
  else some keys

/-- What is emitted of eligible entries. -/
def emit (es : List Entry) : Selection :=
  let preferred := preferredEntries prefs es
  let groups := tierGroups c prefs cacheKey es
  let splits := splitTiers c now prefs cacheKey A 0 0 groups
  if es = [] then ⟨[], false⟩
  else if Pinned c prefs cacheKey es then
    ⟨emitPinned c now prefs cacheKey A preferred, false⟩
  else if affinityActive c cacheKey then
    ⟨emitCacheAffinity c now prefs cacheKey A (questions groups) preferred splits
      (isPreferred prefs es), false⟩
  else
    match tierOrder c now prefs (tierKeys es) with
    | some order => ⟨emitTiers c now prefs cacheKey A (questions groups) preferred splits order, false⟩
    | none =>
      -- the preferred entries have been yielded by then
      ⟨tagReason (py "order-pref" ++ sortSuffix prefs.sort)
        (sorted c now prefs cacheKey (A.pass true (questions groups) preferred)), true⟩

/-- `select_backends`. -/
def selectBackends (modelId : PyStr) (d : Demand) : Selection :=
  match c.modelById modelId with
  | none => ⟨[], false⟩
  | some m =>
    if !attrBool m.fields (py "enabled") then ⟨[], false⟩
    else
      match activeSlot now.zone m.timeRouting with
      | none => ⟨[], true⟩
      | some slot => emit c now prefs cacheKey A (eligible c m d prefs.ignore slot)

end Select

end LocalGateway
