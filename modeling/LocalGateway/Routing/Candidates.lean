import Mathlib.Data.List.Sort
import LocalGateway.Config.Admin

/-!
# Candidates

What `select_backends` has before it asks anyone whether a backend is available: the preferences of
the request (`ProviderPrefs`), the active time slot, the entries that can serve the request
(`eligible`), their tiers, and the orders in which the entries of a tier may be put (`sortKey`, the
rotations). All of these depend on the configuration and on a `Moment`, the state of the gateway at
the time of the call; none of them adds or drops an entry once it is eligible.
-/

/-! ### Numbers -/

namespace PyFloat

/-- The value of a finite number. -/
def rat : PyFloat → ℚ
  | .fin q => q
  | _ => 0

/-- `a < b`. -/
def lt : PyFloat → PyFloat → Bool
  | .nan, _ | _, .nan => false
  | .inf true, b => b ≠ .inf true
  | _, .inf true => false
  | .inf false, _ => false
  | _, .inf false => true
  | a, b => a.rat < b.rat

/-- `-a`. -/
def neg : PyFloat → PyFloat
  | .fin q => if q = 0 then .negZero else .fin (-q)
  | .negZero => .fin 0
  | .inf n => .inf !n
  | .nan => .nan

/-- The number is a zero. -/
def isZero (a : PyFloat) : Bool :=
  a = .fin 0 || a = .negZero

/-- `max(a, b)`. -/
def max (a b : PyFloat) : PyFloat :=
  if lt a b then b else a

/-- `a or b`. -/
def orElse (a b : PyFloat) : PyFloat :=
  if a.isZero then b else a

/-- `round(q, digits)`, of an exact number: to the nearest decimal, and to the even one of two. -/
def roundTo (digits : ℕ) (q : ℚ) : ℚ :=
  let scaled := q * 10 ^ digits
  let rest := scaled - scaled.floor
  (if rest < 1 / 2 ∨ rest = 1 / 2 ∧ scaled.floor % 2 = 0 then scaled.floor else scaled.floor + 1) /
    10 ^ digits

end PyFloat

namespace LocalGateway

open Py Json

/-- The operations on floats that round. -/
structure Floats where
  add : PyFloat → PyFloat → PyFloat
  mul : PyFloat → PyFloat → PyFloat
  /-- `a / b` for a `b` that is not zero. -/
  div : PyFloat → PyFloat → PyFloat
  /-- `a ** n`; `none` is the `OverflowError`. -/
  pow : PyFloat → ℕ → Option PyFloat
  sum : List PyFloat → PyFloat

/-- Lexicographic comparison of tuples. -/
def lexLt : List PyFloat → List PyFloat → Bool
  | a :: as, b :: bs => a.lt b || (!b.lt a && lexLt as bs)
  | [], _ :: _ => true
  | _, [] => false

/-! ### Attributes -/

/-- A boolean attribute. -/
def attrBool (d : PyDict) (name : PyStr) : Bool :=
  (get? d name).any truthy

/-- A string attribute. -/
def attrStr (d : PyDict) (name : PyStr) : PyStr :=
  match get? d name with
  | some (.str s) => s
  | _ => []

/-- An integer attribute, `None` included; a `bool` counts as a number. -/
def attrInt (d : PyDict) (name : PyStr) : Option ℤ :=
  match get? d name with
  | some (.int n) => some n
  | some (.bool b) => some (if b then 1 else 0)
  | _ => none

/-- A float attribute, `None` included. -/
def attrFloat (d : PyDict) (name : PyStr) : Option PyFloat :=
  match get? d name with
  | some (.float x) => some x
  | _ => none

/-- A list attribute. -/
def attrList (d : PyDict) (name : PyStr) : List Json :=
  match get? d name with
  | some (.arr xs) => xs
  | _ => []

/-- The provider a backend entry names. -/
def BackendConfig.provider (b : BackendConfig) : PyStr :=
  attrStr b.fields (py "provider")

/-- The model a backend entry names. -/
def BackendConfig.model (b : BackendConfig) : PyStr :=
  attrStr b.fields (py "model")

/-! ### Preferences -/

/-- `ProviderPrefs`. -/
structure ProviderPrefs where
  order : List PyStr
  ignore : List PyStr
  allowFallbacks : Bool
  sort : Option PyStr
deriving DecidableEq

/-- The sorts there are. -/
def sortNames : List PyStr :=
  [py "latency", py "throughput", py "price", py "cache", py "value"]

/-- `ProviderPrefs.from_request`. An empty list and none are the same; `str` is `str(x)`. -/
def ProviderPrefs.fromRequest (str : Json → PyStr) (body : PyDict) : Option ProviderPrefs :=
  match get? body (py "provider") with
  | some (.obj raw) =>
    some
      { order := (attrList raw (py "order")).map str
        ignore := (attrList raw (py "ignore")).map str
        allowFallbacks := match get? raw (py "allow_fallbacks") with
          | some (.bool b) => b
          | _ => true
        sort := match get? raw (py "sort") with
          | some (.str s) => if sortNames.contains s then some s else none
          | _ => none }
  | _ => none

/-- No preferences. -/
def ProviderPrefs.none : ProviderPrefs where
  order := []
  ignore := []
  allowFallbacks := true
  sort := .none

/-! ### The moment of a selection -/

/-- What `stats.snapshot` says of a backend, as far as routing reads it. -/
structure BackendStat where
  successRate : Option PyFloat
  avgLatency : Option PyFloat
  inFlight : ℕ

/-- A warmth entry: how long ago it was seen, and its hit rate. -/
structure Warmth where
  age : PyFloat
  hitRate : PyFloat

/-- The state of the gateway while a selection runs, availability apart. -/
structure Moment where
  floats : Floats
  /-- Weekday and hour in a time zone; `none` is an exception of `ZoneInfo`. -/
  zone : PyStr → Option (ℕ × ℕ)
  /-- `get_backend_tps_map`, empty if it fails. -/
  tps : List (PyStr × PyFloat)
  stats : List (PyStr × BackendStat)
  /-- The warmth entries of a cache key. -/
  warmth : PyStr → List (PyStr × Warmth)
  rotation : ℕ
  /-- The results of `rng.random()`. -/
  draw : ℕ → PyFloat

/-! ### Time slots -/

/-- `_hour_in_range`. -/
def hourInRange (hour start finish : ℕ) : Bool :=
  if start ≤ finish then start ≤ hour && hour ≤ finish else start ≤ hour || hour ≤ finish

/-- `slot_matches`. -/
def slotMatches (slot : TimeSlot) (weekday hour : ℕ) : Bool :=
  let days := attrList slot.attrs.fields (py "days_of_week")
  attrBool slot.attrs.fields (py "enabled") && (days.isEmpty || days.contains (.int weekday)) &&
    hourInRange hour slot.startHour slot.endHour

/-- The active slot of a model, if time routing is on; the outer `none` is an exception. -/
def activeSlot (zone : PyStr → Option (ℕ × ℕ)) (t : TimeRoutingConfig) : Option (Option TimeSlot) :=
  if attrBool t.attrs.fields (py "enabled") && !t.slots.isEmpty then
    (zone (attrStr t.attrs.fields (py "timezone"))).map fun now ↦
      t.slots.find? fun slot ↦ slotMatches slot now.1 now.2
  else some none

/-- `f"{provider}:{model}"`. -/
def backendKey (provider model : PyStr) : PyStr :=
  provider ++ py ":" ++ model

/-- `filter_backends_for_slot`, for one backend. -/
def slotAllows (slot : TimeSlot) (provider model : PyStr) : Bool :=
  let active := attrList slot.attrs.fields (py "active_providers")
  active.isEmpty || active.contains (.str (backendKey provider model))

/-! ### Eligible entries -/

/-- A backend entry of a model with the provider it names; `index` is its place in the model. -/
structure Entry where
  index : ℕ
  provider : ProviderConfig
  backend : BackendConfig
deriving DecidableEq

/-- The key of an entry in the registries. -/
def Entry.key (e : Entry) : PyStr :=
  backendKey e.provider.id e.backend.model

/-- `provider_by_id`. -/
def GatewayConfig.providerById (c : GatewayConfig) (id : PyStr) : Option ProviderConfig :=
  c.providers.find? (·.id = id)

/-- `model_by_id`. -/
def GatewayConfig.modelById (c : GatewayConfig) (id : PyStr) : Option ModelConfig :=
  (c.models.find? (·.id = id)).or (c.models.find? (·.hasAlias id))

/-- `min(backend, model)` of the output caps, where none is no cap. -/
def outputCap (backend model : Option ℤ) : Option ℤ :=
  match backend, model with
  | some b, some m => some (if m < b then m else b)
  | none, some m => some m
  | b, none => b

/-- What a request asks of a backend. -/
structure Demand where
  maxTokens : Option ℤ
  inputTokens : Option ℤ
deriving DecidableEq

/-- The output cap is enough. -/
def fitsOutput (m : ModelConfig) (b : BackendConfig) (d : Demand) : Bool :=
  match d.maxTokens, outputCap (attrInt b.fields (py "max_output_tokens"))
      (attrInt m.fields (py "max_output_tokens")) with
  | some n, some cap => n ≤ cap
  | _, _ => true

/-- The context is long enough for the prompt and the completion. -/
def fitsContext (b : BackendConfig) (d : Demand) : Bool :=
  match d.inputTokens, attrInt b.fields (py "context_length") with
  | some n, some length => n + d.maxTokens.getD 0 ≤ length
  | _, _ => true

/-- The entry of a backend, if it can serve the request. -/
def candidate (c : GatewayConfig) (m : ModelConfig) (d : Demand) (ignore : List PyStr)
    (slot : Option TimeSlot) (index : ℕ) (b : BackendConfig) : Option Entry :=
  if !attrBool b.fields (py "enabled") || ignore.contains b.provider then none
  else
    match c.providerById b.provider with
    | none => none
    | some p =>
      if !attrBool p.attrs.fields (py "enabled") || !fitsOutput m b d || !fitsContext b d ||
          !slot.all fun s ↦ slotAllows s b.provider b.model then none
      else some ⟨index, p, b⟩

/-- The entries that can serve the request, in the order of the model. -/
def eligible (c : GatewayConfig) (m : ModelConfig) (d : Demand) (ignore : List PyStr)
    (slot : Option TimeSlot) : List Entry :=
  (m.backends.mapIdx (candidate c m d ignore slot)).reduceOption

/-- `sorted(tiers.keys())`. -/
def tierKeys (es : List Entry) : List ℤ :=
  (es.map fun e ↦ e.backend.priority).dedup.insertionSort (· ≤ ·)

/-- The entries of a tier. -/
def tier (es : List Entry) (key : ℤ) : List Entry :=
  es.filter fun e ↦ e.backend.priority = key

/-! ### Orders -/

/-- `pricing_for`. -/
def GatewayConfig.pricingFor (c : GatewayConfig) (provider model : PyStr) : Attrs pricingClass :=
  (c.pricing.lookup (backendKey provider model)).getD (pricingClass.make (by decide))

section Order

variable (c : GatewayConfig) (now : Moment)

/-- `_blended_price`. -/
def blendedPrice (provider model : PyStr) : Option PyFloat :=
  let pricing := (c.pricingFor provider model).fields
  let input := (attrFloat pricing (py "input")).getD (.fin 0)
  let output := (attrFloat pricing (py "output")).getD (.fin 0)
  if input.isZero && output.isZero then none
  else some (now.floats.add (input.orElse (.fin 0)) (output.orElse (.fin 0)))

/-- `cache_affinity_ttl_sec`, or its default. -/
def cacheTtl : ℤ :=
  match attrInt c.server.attrs.fields (py "cache_affinity_ttl_sec") with
  | some n => if n = 0 then 300 else n
  | none => 300

/-- The warmth entries of a cache key that are not expired. -/
def liveWarmth (cacheKey : PyStr) : List (PyStr × Warmth) :=
  if cacheKey = [] then []
  else (now.warmth cacheKey).filter fun e ↦ !(PyFloat.fin (cacheTtl c)).lt e.2.age

/-- A flag in a sort key. -/
def flag (b : Bool) : PyFloat :=
  .fin (if b then 1 else 0)

/-- `1e-12`, the double. -/
def tinyPrice : ℚ :=
  4951760157141521 / 4951760157141521099596496896

/-- `_sort_key`. -/
def sortKey (sort cacheKey : PyStr) (e : Entry) : List PyFloat :=
  let stat := now.stats.lookup e.key
  let latency := stat.bind BackendStat.avgLatency
  let latencyOr := ((latency.getD (.fin 0)).orElse (.fin 999999))
  let tps := now.tps.lookup e.key
  let price := blendedPrice c now e.provider.id e.backend.model
  if sort = py "latency" then [flag latency.isNone, latency.getD (.fin 0)]
  else if sort = py "throughput" then
    if !now.tps.isEmpty then [flag tps.isNone, (tps.getD (.fin 0)).neg]
    else
      -- with nothing measured the success rate stands in for the throughput
      let rate := stat.bind BackendStat.successRate
      [flag rate.isNone, (rate.getD (.fin 0)).neg, latencyOr]
  else if sort = py "price" then [flag price.isNone, price.getD (.fin 0)]
  else if sort = py "value" then
    match tps, price with
    | some tps, some price =>
      [flag false, (now.floats.div tps (price.max (.fin tinyPrice))).neg]
    | _, _ => [flag true, .fin 0]
  else if sort = py "cache" then
    let rate := (((liveWarmth c now cacheKey).lookup e.key).map Warmth.hitRate).getD (.fin 0)
    -- a rate of zero is as good as none
    [flag rate.isZero, rate.neg, latencyOr]
  else [.fin 0]

/-- `items.sort(key=...)`, a stable sort. -/
def sortEntries (sort cacheKey : PyStr) (es : List Entry) : List Entry :=
  es.insertionSort fun a b ↦
    lexLt (sortKey c now sort cacheKey b) (sortKey c now sort cacheKey a) = false

/-- `items[r:] + items[:r]`. -/
def rotate (r : ℕ) (es : List Entry) : List Entry :=
  es.drop r ++ es.take r

/-- The index whose share of the total contains the pick; the first one if none does. -/
def pickIndex (pick acc : PyFloat) (i : ℕ) : List PyFloat → ℕ
  | [] => 0
  | w :: ws =>
    if pick.lt (now.floats.add acc w) then i else pickIndex pick (now.floats.add acc w) (i + 1) ws

/-- `_weighted_rotation`. -/
def weightedRotation (draw : PyFloat) (es : List Entry) : List Entry :=
  if es.length ≤ 1 then es
  else
    let measured := es.filterMap fun e ↦ now.tps.lookup e.key
    if measured = [] then rotate (now.rotation % es.length) es
    else
      let avg := now.floats.div (now.floats.sum measured) (.fin measured.length)
      let weights := es.map fun e ↦ (now.tps.lookup e.key).getD avg
      rotate (pickIndex now (now.floats.mul draw (now.floats.sum weights)) (.fin 0) 0 weights) es

/-- The static weight of an entry. -/
def Entry.weight (e : Entry) : PyFloat :=
  (attrFloat e.backend.fields (py "weight")).getD (.fin 1)

/-- `_static_weight_rotation`. -/
def staticWeightRotation (draw : PyFloat) (es : List Entry) : List Entry :=
  if es.length ≤ 1 then es
  else
    let weights := es.map fun e ↦ e.weight.max (.fin 0)
    let total := now.floats.sum weights
    if total.lt (.fin 0) || total.isZero then rotate (now.rotation % es.length) es
    else rotate (pickIndex now (now.floats.mul draw total) (.fin 0) 0 weights) es

/-- `_sample_tier_order`; `none` is an exception, of the power or of the division. -/
def sampleTierOrder (decay draw : PyFloat) (keys : List ℤ) : Option (List ℤ) := do
  let weights ← (List.range keys.length).mapM (now.floats.pow decay)
  let total := now.floats.sum weights
  if total.isZero then none
  else
    let probs := weights.map fun w ↦ now.floats.div w total
    let start := keys.getD (pickIndex now draw (.fin 0) 0 probs) 0
    some (start :: keys.filter (· ≠ start))

end Order

end LocalGateway
