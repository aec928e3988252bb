import LocalGateway.Config.Redaction
import LocalGateway.Routing.Candidates

/-!
# The views of the configuration

The handlers of `endpoints/admin.py` that show parts of the configuration and change nothing: the pages
of the models, of one model, of the health of the backends, of the spending of the keys. What they show
beside the configuration comes from elsewhere in the gateway and is a parameter (`Telemetry`).

None of them shows a key: each is the same for the configuration and for the redacted one
(`view_redacted`).
-/

namespace LocalGateway

open Py Json

/-! ### Values -/

/-- An attribute as it is. -/
def attr (d : PyDict) (name : PyStr) : Json :=
  (get? d name).getD .null

/-- `v or w`. -/
def orElse (v w : Json) : Json :=
  if truthy v then v else w

/-- `d.get(name, v)`. -/
def getOr (d : PyDict) (name : PyStr) (v : Json) : Json :=
  (get? d name).getD v

/-- `d.get(name, {})`, of a table of objects. -/
def getObj (d : PyDict) (name : PyStr) : PyDict :=
  match get? d name with
  | some (.obj e) => e
  | _ => []

/-- `{**d, **e}`. -/
def spread (d e : PyDict) : PyDict :=
  e.foldl (fun d kv ↦ setKey d kv.1 kv.2) d

/-- A number. -/
def number : Json → PyFloat
  | .bool b => .fin (if b then 1 else 0)
  | .int n => .fin n
  | .float x => x
  | _ => .nan

/-- `min(xs)`, or `None`: the first of the least. -/
def leastOf : List Json → Json
  | [] => .null
  | x :: xs => xs.foldl (fun a b ↦ if (number b).lt (number a) then b else a) x

/-- `max(xs)`, or `None`: the first of the greatest. -/
def greatestOf : List Json → Json
  | [] => .null
  | x :: xs => xs.foldl (fun a b ↦ if (number a).lt (number b) then b else a) x

/-! ### Parts of the configuration -/

section Parts

variable (c : GatewayConfig)

/-- The provider of a backend is there and enabled. -/
def GatewayConfig.serves (b : BackendConfig) : Bool :=
  (c.providerById b.provider).any fun pr ↦ attrBool pr.attrs.fields (py "enabled")

/-- The backends of a model that are enabled and have an enabled provider. -/
def GatewayConfig.activeBackends (m : ModelConfig) : List BackendConfig :=
  m.backends.filter fun b ↦ attrBool b.fields (py "enabled") && c.serves b

/-- `(provider.name or provider.id) if provider else b.provider`. -/
def GatewayConfig.providerName (b : BackendConfig) : Json :=
  match c.providerById b.provider with
  | some pr => orElse (attr pr.attrs.fields (py "name")) (.str pr.id)
  | none => .str b.provider

/-- `(provider.avatar if provider else "") or ""`. -/
def GatewayConfig.providerAvatar (b : BackendConfig) : Json :=
  match c.providerById b.provider with
  | some pr => orElse (attr pr.attrs.fields (py "avatar")) (.str [])
  | none => .str []

/-- An attribute of the pricing of a backend. -/
def GatewayConfig.price (b : BackendConfig) (name : PyStr) : Json :=
  attr (c.pricingFor b.provider b.model).fields name

/-- The prices of the active backends of a model that have a price. -/
def GatewayConfig.prices (m : ModelConfig) (name : PyStr) : List Json :=
  ((c.activeBackends m).filter fun b ↦
    truthy (c.price b (py "input")) || truthy (c.price b (py "output"))).map (c.price · name)

/-- The context lengths of the active backends of a model. -/
def GatewayConfig.contextLengths (m : ModelConfig) : List Json :=
  ((c.activeBackends m).map fun b ↦ attr b.fields (py "context_length")).filter truthy

/-- A bound of the context lengths, or the one of the model. -/
def GatewayConfig.contextBound (m : ModelConfig) (bound : List Json → Json) : Json :=
  if (c.contextLengths m).isEmpty then orElse (attr m.fields (py "context_length")) .null
  else bound (c.contextLengths m)

end Parts

/-! ### What is shown beside it -/

/-- What the views show that is not in the configuration. -/
structure Telemetry where
  /-- `get_model_aggregates(hours).get(model, {})`. -/
  aggregates : ℤ → PyStr → PyDict
  /-- `get_backend_percentiles(model, hours, PERCENTILES.get(p, 0.5)).get(key, {})`. -/
  percentiles : PyStr → ℤ → PyStr → PyStr → PyDict
  /-- `get_model_totals`. -/
  totals : PyStr → ℤ → Json
  /-- `get_backend_series`. -/
  series : PyStr → ℤ → Json
  /-- `circuitbreaker.snapshot()` after `configure_from_config`, which reads the attributes of the
  server. -/
  circuits : Attrs serverClass → PyDict
  /-- `stats.warmth_for_backends(keys, ttl).get(key)`. -/
  warmth : List PyStr → Json → PyStr → Option PyDict
  /-- `round(ratelimit.remaining(provider, model), 1)`. -/
  remaining : PyStr → PyStr → Json
  /-- `ratelimit.snapshot()`. -/
  rateLimits : Json
  /-- `stats.snapshot()`. -/
  stats : Json
  /-- `get_all_key_spend()`. -/
  spend : List (PyStr × PyDict)
  /-- `clientquota.current_rpm`. -/
  currentRpm : PyStr → Json
  /-- `respcache.stats()`. -/
  cacheStats : PyDict
  /-- `export_rows(hours, include_probes)`. -/
  rows : ℤ → Bool → List Json
  /-- The rows as `csv.DictWriter` writes them. -/
  csv : List Json → PyStr
  /-- `round(x / y * 100, 1)`. -/
  percent : Json → Json → Json
  /-- `round(x, 3)`. -/
  roundRate : Json → Json

/-! ### Answers -/

/-- What a handler answers: content handed to `JSONResponse` with a status, a text, or an exception. -/
inductive AdminAnswer
  | json (status : ℕ) (content : Json)
  | text (content : PyStr)
  | raised
deriving DecidableEq

/-- `JSONResponse({"error": message}, status)`. -/
def adminError (status : ℕ) (message : PyStr) : AdminAnswer :=
  .json status (.obj [(py "error", .str message)])

/-- `Model '…' not found`. -/
def noModel (id : PyStr) : AdminAnswer :=
  adminError 404 (py "Model '" ++ id ++ py "' not found")

/-! ### The views -/

section Views

variable (t : Telemetry) (c : GatewayConfig)

/-- What a view shows of the use of a model: `success_rate` and the like. -/
def usageOf (a : PyDict) : PyDict :=
  let requests := getOr a (py "requests") (.int 0)
  [(py "requests", requests),
    (py "success_rate", if truthy requests then t.percent (getOr a (py "successes") (.int 0)) requests
      else .null),
    (py "tokens", getOr a (py "tokens") (.int 0)),
    (py "cost", getOr a (py "cost") (.float (.fin 0))), (py "tps_p50", attr a (py "tps_p50"))]

/-- The entry of a model in `models_overview`. -/
def overviewEntry (hours : ℤ) (m : ModelConfig) : Json :=
  .obj ([(py "id", .str m.id), (py "display_name", orElse (attr m.fields (py "display_name")) .null),
      (py "avatar", orElse (attr m.fields (py "avatar")) .null),
      (py "description", orElse (attr m.fields (py "description")) .null),
      (py "modality", orElse (attr m.fields (py "modality")) .null),
      (py "tags", orElse (attr m.fields (py "tags")) (.arr [])),
      (py "context_length", attr m.fields (py "context_length")),
      (py "context_min", c.contextBound m leastOf), (py "context_max", c.contextBound m greatestOf),
      (py "enabled", attr m.fields (py "enabled")),
      (py "backend_count", .int (c.activeBackends m).length)] ++
    usageOf t (t.aggregates hours m.id) ++
    [(py "input_price", leastOf (c.prices m (py "input"))),
      (py "output_price", leastOf (c.prices m (py "output")))])

/-- `models_overview`. -/
def modelsOverview (hours : ℤ) : AdminAnswer :=
  .json 200 (.obj [(py "hours", .int hours), (py "models", .arr (c.models.map (overviewEntry t c hours)))])

/-- The key of a backend in the registries. -/
def BackendConfig.key (b : BackendConfig) : PyStr :=
  backendKey b.provider b.model

/-- `getattr(config.server, "cache_affinity_ttl_sec", 300) or 300`. -/
def warmthTtl : Json :=
  orElse (getOr c.server.attrs.fields (py "cache_affinity_ttl_sec") (.int 300)) (.int 300)

/-- The entry of a backend in `model_stats`; `id` is the id of the path, which may be an alias. -/
def statsEntry (id : PyStr) (m : ModelConfig) (hours : ℤ) (p : PyStr) (b : BackendConfig) : Json :=
  let s := t.percentiles id hours p b.key
  let circ := getObj (t.circuits c.server.attrs) b.key
  let warm := t.warmth (m.backends.map BackendConfig.key) (warmthTtl c) b.key
  .obj [(py "provider", .str b.provider), (py "provider_name", c.providerName b),
    (py "provider_avatar", c.providerAvatar b), (py "backend_model", .str b.model),
    (py "priority", .int b.priority),
    (py "enabled", .bool (attrBool b.fields (py "enabled") && c.serves b)),
    (py "cache_supported", attr b.fields (py "cache_supported")),
    (py "context_length", attr b.fields (py "context_length")),
    (py "max_output_tokens", attr b.fields (py "max_output_tokens")),
    (py "input_price", c.price b (py "input")), (py "output_price", c.price b (py "output")),
    (py "cache_read_price", c.price b (py "cache_read")),
    (py "cache_write_price", c.price b (py "cache_write")),
    (py "cooldown_remaining", t.remaining b.provider b.model),
    (py "circuit_open", getOr circ (py "open") (.bool false)),
    (py "circuit_failures", getOr circ (py "consecutive_failures") (.int 0)),
    (py "circuit_open_remaining_s", getOr circ (py "open_remaining_s") (.float (.fin 0))),
    (py "warm", .bool (warm.any fun w ↦ !w.isEmpty)),
    (py "warm_hit_rate", match warm with
      | some w => if w.isEmpty then .null else t.roundRate (attr w (py "last_hit_rate"))
      | none => .null),
    (py "warm_fingerprints", match warm with
      | some w => if w.isEmpty then .int 0 else attr w (py "fingerprints")
      | none => .int 0),
    (py "requests", getOr s (py "requests") (.int 0)), (py "success_rate", attr s (py "success_rate")),
    (py "ttft_ms", attr s (py "ttft_ms")), (py "tps", attr s (py "tps")),
    (py "tps_p50", attr s (py "tps_p50")), (py "tps_p90", attr s (py "tps_p90")),
    (py "tps_p99", attr s (py "tps_p99")), (py "latency_ms", attr s (py "latency_ms"))]

/-- `model_stats`. -/
def modelStats (id : PyStr) (hours : ℤ) (p : PyStr) : AdminAnswer :=
  match c.modelById id with
  | none => noModel id
  | some m =>
    let backends := m.backends.insertionSort (·.priority ≤ ·.priority)
    .json 200 (.obj [(py "model", .str id), (py "hours", .int hours), (py "percentile", .str p),
      (py "backends", .arr (backends.map (statsEntry t c id m hours p))),
      (py "totals", t.totals id hours)])

/-- `model_series`. -/
def modelSeries (id : PyStr) (hours : ℤ) : AdminAnswer :=
  match c.modelById id with
  | none => noModel id
  | some _ => .json 200 (t.series id hours)

/-- The entry of a model in `models_compare`. -/
def compareEntry (m : ModelConfig) : Json :=
  .obj ([(py "id", .str m.id),
      (py "display_name", orElse (attr m.fields (py "display_name")) (.str m.id)),
      (py "description", orElse (attr m.fields (py "description")) .null),
      (py "context_length", attr m.fields (py "context_length")),
      (py "max_output_tokens", attr m.fields (py "max_output_tokens")),
      (py "modality", orElse (attr m.fields (py "modality")) .null),
      (py "capabilities", attr m.fields (py "capabilities")), (py "tags", attr m.fields (py "tags")),
      (py "aliases", attr m.fields (py "aliases")),
      (py "default_params", attr m.fields (py "default_params")),
      (py "enabled", attr m.fields (py "enabled")),
      (py "backend_count", .int (c.activeBackends m).length)] ++
    usageOf t (t.aggregates 168 m.id) ++
    [(py "input_price", leastOf (c.prices m (py "input"))),
      (py "output_price", leastOf (c.prices m (py "output"))),
      (py "backends", .arr (m.backends.map fun b ↦
        .obj [(py "provider", .str b.provider), (py "model", .str b.model),
          (py "priority", .int b.priority), (py "enabled", attr b.fields (py "enabled")),
          (py "context_length", attr b.fields (py "context_length")),
          (py "max_output_tokens", attr b.fields (py "max_output_tokens")),
          (py "input_price", c.price b (py "input")), (py "output_price", c.price b (py "output"))]))])

/-- The loop of `models_compare`, which ends at the first id that is not found. -/
def compareEntries : List PyStr → Except PyStr (List Json)
  | [] => .ok []
  | id :: ids =>
    match c.modelById id with
    | none => .error id
    | some m => (compareEntries ids).map (compareEntry t c m :: ·)

/-- `models_compare`. -/
def modelsCompare (ids : PyStr) : AdminAnswer :=
  let ids := ((ids.splitOn 44).map strip).filter (· ≠ [])
  if ids = [] then adminError 422 (py "ids query param required (comma-separated)")
  else if 3 < ids.length then adminError 422 (py "Max 3 models for comparison")
  else
    match compareEntries t c ids with
    | .error id => noModel id
    | .ok entries => .json 200 (.obj [(py "models", .arr entries)])

/-- `get_model`. -/
def getModel (id : PyStr) : AdminAnswer :=
  match c.modelById id with
  | none => noModel id
  | some m =>
    .json 200 (.obj ([(py "id", .str m.id),
        (py "display_name", orElse (attr m.fields (py "display_name")) (.str m.id)),
        (py "description", orElse (attr m.fields (py "description")) .null),
        (py "context_length", attr m.fields (py "context_length")),
        (py "max_output_tokens", attr m.fields (py "max_output_tokens")),
        (py "modality", orElse (attr m.fields (py "modality")) .null),
        (py "capabilities", attr m.fields (py "capabilities")), (py "tags", attr m.fields (py "tags")),
        (py "aliases", attr m.fields (py "aliases")),
        (py "default_params", attr m.fields (py "default_params")),
        (py "enabled", attr m.fields (py "enabled"))] ++
      usageOf t (t.aggregates 168 id) ++
      [(py "backends", .arr (m.backends.map fun b ↦
        .obj [(py "provider", .str b.provider), (py "provider_name", c.providerName b),
          (py "model", .str b.model), (py "priority", .int b.priority),
          (py "enabled", .bool (attrBool b.fields (py "enabled") && c.serves b)),
          (py "cache_supported", attr b.fields (py "cache_supported")),
          (py "context_length", attr b.fields (py "context_length")),
          (py "max_output_tokens", attr b.fields (py "max_output_tokens")),
          (py "input_price", c.price b (py "input")), (py "output_price", c.price b (py "output"))]))]))

/-- `get_time_routing`. -/
def getTimeRouting (id : PyStr) : AdminAnswer :=
  match c.modelById id with
  | none => noModel id
  | some m => .json 200 m.timeRouting.dump

/-- What is shown of the circuits. -/
def circuitsOf : Json :=
  .obj [(py "enabled", .bool (attrBool c.server.attrs.fields (py "circuit_breaker_enabled"))),
    (py "circuits", .obj (t.circuits c.server.attrs))]

/-- `health_endpoint`. -/
def healthView : AdminAnswer :=
  .json 200 (.obj [
    (py "providers", .arr (c.providers.map fun pr ↦
      .obj [(py "id", .str pr.id), (py "name", orElse (attr pr.attrs.fields (py "name")) (.str pr.id)),
        (py "base_url", attr pr.attrs.fields (py "base_url")),
        (py "enabled", attr pr.attrs.fields (py "enabled"))])),
    (py "backends", .arr (c.models.flatMap fun m ↦ m.backends.map fun b ↦
      .obj [(py "model", .str m.id), (py "provider", .str b.provider),
        (py "provider_name", c.providerName b), (py "backend_model", .str b.model),
        (py "priority", .int b.priority), (py "enabled", attr b.fields (py "enabled")),
        (py "provider_enabled", .bool (c.serves b)),
        (py "cooldown_remaining", t.remaining b.provider b.model)])),
    (py "rate_limits", t.rateLimits), (py "stats", t.stats), (py "circuit", circuitsOf t c)])

/-- What is shown of the spending of a key that has none. -/
def noSpend : PyDict :=
  [(py "day_cost", .float (.fin 0)), (py "day_requests", .int 0), (py "month_cost", .float (.fin 0)),
    (py "month_requests", .int 0)]

/-- An entry without limits. -/
def unlimited (id : PyStr) (label : String) (enabled : Bool) (s : PyDict) : Json :=
  .obj (spread [(py "id", .str id), (py "label", .str (py label)), (py "enabled", .bool enabled),
    (py "rpm", .null), (py "daily_budget_usd", .null), (py "monthly_budget_usd", .null),
    (py "model_allowlist", .arr []), (py "current_rpm", .int 0)] s)

/-- `keys_spend`. Of the keys themselves it matters only whether there is a key of the server. -/
def keysSpend : AdminAnswer :=
  let spent (id : PyStr) := (t.spend.lookup id).getD noSpend
  let gate := c.server.apiKey.any (· ≠ [])
  let configured := c.server.apiKeys.map fun k ↦
    .obj (spread [(py "id", .str k.id), (py "label", attr k.attrs.fields (py "label")),
      (py "enabled", attr k.attrs.fields (py "enabled")), (py "rpm", attr k.attrs.fields (py "rpm")),
      (py "daily_budget_usd", attr k.attrs.fields (py "daily_budget_usd")),
      (py "monthly_budget_usd", attr k.attrs.fields (py "monthly_budget_usd")),
      (py "model_allowlist", attr k.attrs.fields (py "model_allowlist")),
      (py "current_rpm", t.currentRpm k.id)] (spent k.id))
  let legacy := if gate then [unlimited (py "default") "Legacy default key" true (spent (py "default"))]
    else []
  let deleted := (t.spend.filter fun e ↦ e.1 ≠ [] ∧ e.1 ∉ c.server.apiKeys.map (·.id) ∧
    ¬ (e.1 = py "default" ∧ gate)).map fun e ↦ unlimited e.1 "(deleted key)" false e.2
  .json 200 (.obj [(py "keys", .arr (configured ++ legacy ++ deleted))])

/-- `response_cache_stats`. -/
def cacheView : AdminAnswer :=
  .json 200 (.obj (setKey t.cacheStats (py "enabled")
    (.bool (attrBool c.server.attrs.fields (py "response_cache_enabled")))))

/-- `usage_export`. -/
def usageExport (hours : ℤ) (csv probes : Bool) : AdminAnswer :=
  let hours := max 1 (min hours (24 * 365))
  let rows := t.rows hours probes
  if csv then .text (t.csv rows)
  else .json 200 (.obj [(py "hours", .int hours), (py "count", .int rows.length), (py "rows", .arr rows)])

/-- A request for a view, with the parameters of its path and its query. -/
inductive View
  | modelsOverview (hours : ℤ)
  | modelStats (id : PyStr) (hours : ℤ) (p : PyStr)
  | modelSeries (id : PyStr) (hours : ℤ)
  | modelsCompare (ids : PyStr)
  | getModel (id : PyStr)
  | getTimeRouting (id : PyStr)
  | health
  | circuits
  | keysSpend
  | cache
  | usageExport (hours : ℤ) (csv probes : Bool)
deriving DecidableEq

/-- The handler of a view. -/
def view : View → AdminAnswer
  | .modelsOverview hours => modelsOverview t c hours
  | .modelStats id hours p => modelStats t c id hours p
  | .modelSeries id hours => modelSeries t c id hours
  | .modelsCompare ids => modelsCompare t c ids
  | .getModel id => getModel t c id
  | .getTimeRouting id => getTimeRouting c id
  | .health => healthView t c
  | .circuits => .json 200 (circuitsOf t c)
  | .keysSpend => keysSpend t c
  | .cache => cacheView t c
  | .usageExport hours csv probes => usageExport t hours csv probes

end Views

/-! ### No view shows a key -/

section Redacted

variable (t : Telemetry) (c : GatewayConfig)

theorem providerById_redacted (id : PyStr) :
    c.redacted.providerById id = (c.providerById id).map ProviderConfig.redacted := by
  show (c.providers.map ProviderConfig.redacted).find? (·.id = id) = _
  rw [List.find?_map]
  rfl

theorem serves_redacted (b : BackendConfig) : c.redacted.serves b = c.serves b := by
  rw [GatewayConfig.serves, providerById_redacted, Option.any_map]
  rfl

theorem activeBackends_redacted (m : ModelConfig) : c.redacted.activeBackends m = c.activeBackends m := by
  simp only [GatewayConfig.activeBackends, serves_redacted]

theorem providerName_redacted (b : BackendConfig) : c.redacted.providerName b = c.providerName b := by
  rw [GatewayConfig.providerName, GatewayConfig.providerName, providerById_redacted]
  cases c.providerById b.provider <;> rfl

theorem providerAvatar_redacted (b : BackendConfig) :
    c.redacted.providerAvatar b = c.providerAvatar b := by
  rw [GatewayConfig.providerAvatar, GatewayConfig.providerAvatar, providerById_redacted]
  cases c.providerById b.provider <;> rfl

theorem price_redacted (b : BackendConfig) (name : PyStr) : c.redacted.price b name = c.price b name :=
  rfl

theorem prices_redacted (m : ModelConfig) (name : PyStr) : c.redacted.prices m name = c.prices m name := by
  simp only [GatewayConfig.prices, activeBackends_redacted, price_redacted]

theorem contextBound_redacted (m : ModelConfig) (bound : List Json → Json) :
    c.redacted.contextBound m bound = c.contextBound m bound := by
  have hlengths : c.redacted.contextLengths m = c.contextLengths m := by
    rw [GatewayConfig.contextLengths, GatewayConfig.contextLengths, activeBackends_redacted]
  rw [GatewayConfig.contextBound, GatewayConfig.contextBound, hlengths]

theorem overviewEntry_redacted (hours : ℤ) :
    overviewEntry t c.redacted hours = overviewEntry t c hours := by
  funext m
  simp only [overviewEntry, contextBound_redacted, activeBackends_redacted, prices_redacted]

theorem statsEntry_redacted (id : PyStr) (m : ModelConfig) (hours : ℤ) (p : PyStr) :
    statsEntry t c.redacted id m hours p = statsEntry t c id m hours p := by
  funext b
  simp only [statsEntry, providerName_redacted, providerAvatar_redacted, serves_redacted,
    price_redacted]
  rfl

theorem compareEntry_redacted (m : ModelConfig) : compareEntry t c.redacted m = compareEntry t c m := by
  simp only [compareEntry, activeBackends_redacted, prices_redacted, price_redacted]

theorem compareEntries_redacted (ids : List PyStr) :
    compareEntries t c.redacted ids = compareEntries t c ids := by
  induction ids with
  | nil => rfl
  | cons id ids ih =>
    rw [compareEntries, compareEntries, ih, show c.redacted.modelById id = c.modelById id from rfl]
    simp only [compareEntry_redacted]

theorem getModel_redacted (id : PyStr) : getModel t c.redacted id = getModel t c id := by
  rw [getModel, getModel, show c.redacted.modelById id = c.modelById id from rfl]
  simp only [providerName_redacted, serves_redacted, price_redacted]

theorem healthView_redacted : healthView t c.redacted = healthView t c := by
  have hproviders (f : ProviderConfig → Json) (hf : ∀ pr, f pr.redacted = f pr) :
      c.redacted.providers.map f = c.providers.map f := by
    show (c.providers.map ProviderConfig.redacted).map f = _
    rw [List.map_map]
    exact List.map_congr_left fun pr _ ↦ hf pr
  rw [healthView, healthView, hproviders _ fun _ ↦ rfl]
  simp only [providerName_redacted, serves_redacted]
  rfl

theorem keysSpend_redacted : keysSpend t c.redacted = keysSpend t c := by
  have hgate : c.redacted.server.apiKey.any (· ≠ []) = c.server.apiKey.any (· ≠ []) := by
    show (c.server.apiKey.map shownText).any (· ≠ []) = _
    rcases c.server.apiKey with - | (- | ⟨x, xs⟩) <;> rfl
  have hids : c.redacted.server.apiKeys.map (·.id) = c.server.apiKeys.map (·.id) := by
    show (c.server.apiKeys.map ApiKeyConfig.redacted).map (·.id) = _
    rw [List.map_map]
    rfl
  simp only [keysSpend, hgate, hids]
  rw [show c.redacted.server.apiKeys = c.server.apiKeys.map ApiKeyConfig.redacted from rfl, List.map_map]
  rfl

/-- **Views.** Each is the same for the redacted configuration. -/
theorem view_redacted (v : View) : view t c.redacted v = view t c v := by
  cases v with
  | modelsOverview hours =>
    show modelsOverview t c.redacted hours = modelsOverview t c hours
    rw [modelsOverview, overviewEntry_redacted]
    rfl
  | modelStats id hours p =>
    show modelStats t c.redacted id hours p = modelStats t c id hours p
    rw [modelStats, modelStats, show c.redacted.modelById id = c.modelById id from rfl]
    simp only [statsEntry_redacted]
  | modelSeries id hours => rfl
  | modelsCompare ids =>
    show modelsCompare t c.redacted ids = modelsCompare t c ids
    simp only [modelsCompare, compareEntries_redacted]
  | getModel id => exact getModel_redacted t c id
  | getTimeRouting id => rfl
  | health => exact healthView_redacted t c
  | circuits => rfl
  | keysSpend => exact keysSpend_redacted t c
  | cache => rfl
  | usageExport hours csv probes => rfl

end Redacted

end LocalGateway
