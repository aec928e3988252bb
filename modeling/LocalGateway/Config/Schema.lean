import LocalGateway.Python.Pydantic

/-!
# The configuration

The classes of `config.py`, what `model_dump` writes for them and what `_parse` reads.

Objects that are only made by validation carry their well-formedness (`Attrs`, hours as `Fin 24`).
The attributes of models and backends and the key of a provider are assigned by the admin handlers
without the schema being asked, so nothing is built into them; `GatewayConfig.Typed` is the
property that they have their declared types, and `parse_dump` says what it is for: a typed
configuration that can be written is read back as it is.
-/

namespace LocalGateway

open Py Json

/-! ### Classes -/

/-- The attributes of `ApiKeyConfig` beside `id` and `key`. -/
def apiKeyClass : ClassSpec where
  specs :=
    [⟨py "label", .str, some (.str [])⟩, ⟨py "enabled", .bool, some (.bool true)⟩,
      ⟨py "rpm", .optInt, some .null⟩, ⟨py "daily_budget_usd", .optFloat, some .null⟩,
      ⟨py "monthly_budget_usd", .optFloat, some .null⟩,
      ⟨py "model_allowlist", .listStr, some (.arr [])⟩]
  defaults := by decide
  distinct := by decide +kernel

/-- `ApiKeyConfig`. -/
structure ApiKeyConfig where
  id : PyStr
  key : PyStr
  attrs : Attrs apiKeyClass
deriving DecidableEq

/-- `0.4`, the double. -/
def fourTenths : ℚ :=
  3602879701896397 / 9007199254740992

/-- The attributes of `ServerConfig` beside `api_key` and `api_keys`. -/
def serverClass : ClassSpec where
  specs :=
    [⟨py "host", .str, some (.str (py "127.0.0.1"))⟩, ⟨py "port", .int, some (.int 3456)⟩,
      ⟨py "routing_mode", .str, some (.str (py "explore"))⟩,
      ⟨py "routing_decay", .float, some (.float (.fin fourTenths))⟩,
      ⟨py "stats_routing_enabled", .bool, some (.bool true)⟩,
      ⟨py "circuit_breaker_enabled", .bool, some (.bool false)⟩,
      ⟨py "circuit_breaker_threshold", .int, some (.int 3)⟩,
      ⟨py "circuit_breaker_backoff_s", .float, some (.float (.fin 60))⟩,
      ⟨py "probe_enabled", .bool, some (.bool true)⟩,
      ⟨py "probe_interval_s", .float, some (.float (.fin 3600))⟩,
      ⟨py "probe_max_tokens", .int, some (.int 64)⟩, ⟨py "chart_enabled", .bool, some (.bool true)⟩,
      ⟨py "cache_affinity_enabled", .bool, some (.bool false)⟩,
      ⟨py "cache_affinity_ttl_sec", .int, some (.int 300)⟩,
      ⟨py "max_inflight_before_spill", .optInt, some .null⟩,
      ⟨py "usage_retention_days", .int, some (.int 30)⟩,
      ⟨py "log_retention_lines", .int, some (.int 10000)⟩,
      ⟨py "tokenizer", .str, some (.str (py "auto"))⟩,
      ⟨py "alert_webhook_url", .optStr, some .null⟩,
      ⟨py "response_cache_enabled", .bool, some (.bool false)⟩,
      ⟨py "response_cache_ttl_sec", .int, some (.int 3600)⟩,
      ⟨py "response_cache_max_entries", .int, some (.int 1000)⟩]
  defaults := by decide
  distinct := by
    simp (disch := rfl) only [List.map_cons, List.map_nil, py_eq]
    decide +kernel

/-- `ServerConfig`. -/
structure ServerConfig where
  apiKey : Option PyStr
  apiKeys : List ApiKeyConfig
  attrs : Attrs serverClass
deriving DecidableEq

/-- The attributes of `ProviderConfig` beside `id` and `api_key`. -/
def providerClass : ClassSpec where
  specs :=
    [⟨py "name", .str, some (.str [])⟩, ⟨py "base_url", .str, none⟩,
      ⟨py "headers", .dictStr, some (.obj [])⟩, ⟨py "timeout", .float, some (.float (.fin 120))⟩,
      ⟨py "enabled", .bool, some (.bool true)⟩,
      ⟨py "stream_idle_timeout", .optFloat, some (.float (.fin 60))⟩,
      ⟨py "avatar", .str, some (.str [])⟩]
  defaults := by decide
  distinct := by decide +kernel

/-- `ProviderConfig`. The key is whatever `set_provider_api_key` was given. -/
structure ProviderConfig where
  id : PyStr
  apiKey : Json
  attrs : Attrs providerClass
deriving DecidableEq

/-- The attributes of `BackendConfig` beside `priority`. -/
def backendClass : ClassSpec where
  specs :=
    [⟨py "provider", .str, none⟩, ⟨py "model", .str, none⟩,
      ⟨py "enabled", .bool, some (.bool true)⟩, ⟨py "context_length", .optInt, some .null⟩,
      ⟨py "max_output_tokens", .optInt, some .null⟩, ⟨py "cache_supported", .optBool, some .null⟩,
      ⟨py "weight", .float, some (.float (.fin 1))⟩]
  defaults := by decide
  distinct := by decide +kernel

/-- `BackendConfig`. The attributes are assigned by `_apply_fields`. -/
structure BackendConfig where
  priority : ℤ
  fields : PyDict
deriving DecidableEq

/-- The attributes of `TimeSlot` beside `id`, `name` and the hours. -/
def timeSlotClass : ClassSpec where
  specs :=
    [⟨py "days_of_week", .listInt, some (.arr [])⟩, ⟨py "active_providers", .listStr, some (.arr [])⟩,
      ⟨py "enabled", .bool, some (.bool true)⟩]
  defaults := by decide
  distinct := by decide +kernel

instance neZero_hours : NeZero 24 :=
  ⟨by decide⟩

/-- `TimeSlot`. -/
structure TimeSlot where
  id : PyStr
  name : PyStr
  startHour : Fin 24
  endHour : Fin 24
  attrs : Attrs timeSlotClass
deriving DecidableEq

/-- The attributes of `TimeRoutingConfig` beside the slots. -/
def timeRoutingClass : ClassSpec where
  specs :=
    [⟨py "enabled", .bool, some (.bool false)⟩, ⟨py "timezone", .str, some (.str (py "UTC"))⟩]
  defaults := by decide
  distinct := by decide +kernel

/-- `TimeRoutingConfig`. -/
structure TimeRoutingConfig where
  attrs : Attrs timeRoutingClass
  slots : List TimeSlot
deriving DecidableEq

/-- The attributes of `ModelConfig` beside `id`, the backends and the time routing. -/
def modelClass : ClassSpec where
  specs :=
    [⟨py "description", .optStr, some (.str [])⟩, ⟨py "context_length", .optInt, some .null⟩,
      ⟨py "enabled", .bool, some (.bool true)⟩, ⟨py "capabilities", .dictBool, some (.obj [])⟩,
      ⟨py "modality", .str, some (.str [])⟩, ⟨py "max_output_tokens", .optInt, some .null⟩,
      ⟨py "endpoint", .str, some (.str (py "chat"))⟩, ⟨py "tags", .listStr, some (.arr [])⟩,
      ⟨py "aliases", .listStr, some (.arr [])⟩, ⟨py "default_params", .dictAny, some (.obj [])⟩,
      ⟨py "display_name", .str, some (.str [])⟩, ⟨py "avatar", .str, some (.str [])⟩,
      ⟨py "probe_interval_s", .optFloat, some .null⟩,
      ⟨py "cache_responses", .bool, some (.bool false)⟩]
  defaults := by decide
  distinct := by decide +kernel

/-- `ModelConfig`. The attributes are assigned by `_apply_fields`. -/
structure ModelConfig where
  id : PyStr
  backends : List BackendConfig
  timeRouting : TimeRoutingConfig
  fields : PyDict
deriving DecidableEq

/-- The attributes of `PricingEntry`. -/
def pricingClass : ClassSpec where
  specs :=
    [⟨py "input", .float, some (.float (.fin 0))⟩, ⟨py "output", .float, some (.float (.fin 0))⟩,
      ⟨py "cache_read", .optFloat, some .null⟩, ⟨py "cache_write", .optFloat, some .null⟩]
  defaults := by decide
  distinct := by decide +kernel

/-- `GatewayConfig`. -/
structure GatewayConfig where
  server : ServerConfig
  providers : List ProviderConfig
  models : List ModelConfig
  pricing : List (PyStr × Attrs pricingClass)
  version : ℤ
deriving DecidableEq

theorem serverClass_default : ∀ spec ∈ serverClass.specs, spec.default.isSome = true := by
  decide

/-- `ServerConfig()`. -/
def ServerConfig.empty : ServerConfig :=
  ⟨none, [], serverClass.make serverClass_default⟩

/-- `TimeRoutingConfig()`. -/
def TimeRoutingConfig.empty : TimeRoutingConfig :=
  ⟨timeRoutingClass.make (by decide), []⟩

/-- `GatewayConfig()`, the configuration of a gateway that finds none. -/
def GatewayConfig.empty : GatewayConfig :=
  ⟨.empty, [], [], [], 0⟩

/-! ### `model_dump` -/

def ApiKeyConfig.dump (k : ApiKeyConfig) : Json :=
  .obj ([(py "id", .str k.id), (py "key", .str k.key)] ++ k.attrs.fields)

/-- An optional string. -/
def dumpOpt : Option PyStr → Json
  | none => .null
  | some s => .str s

def ServerConfig.dump (s : ServerConfig) : Json :=
  .obj ([(py "api_key", dumpOpt s.apiKey), (py "api_keys", .arr (s.apiKeys.map ApiKeyConfig.dump))] ++
    s.attrs.fields)

def ProviderConfig.dump (pr : ProviderConfig) : Json :=
  .obj ([(py "id", .str pr.id), (py "api_key", pr.apiKey)] ++ pr.attrs.fields)

def BackendConfig.dump (b : BackendConfig) : Json :=
  .obj ([(py "priority", .int b.priority)] ++ b.fields)

def TimeSlot.dump (t : TimeSlot) : Json :=
  .obj ([(py "id", .str t.id), (py "name", .str t.name), (py "start_hour", .int t.startHour),
    (py "end_hour", .int t.endHour)] ++ t.attrs.fields)

def TimeRoutingConfig.dump (t : TimeRoutingConfig) : Json :=
  .obj ([(py "slots", .arr (t.slots.map TimeSlot.dump))] ++ t.attrs.fields)

def ModelConfig.dump (m : ModelConfig) : Json :=
  .obj ([(py "id", .str m.id), (py "backends", .arr (m.backends.map BackendConfig.dump)),
    (py "time_routing", m.timeRouting.dump)] ++ m.fields)

/-- `model_dump` of a configuration. The entries of an object are not in the order of the class,
which no reader depends on. -/
def GatewayConfig.dump (c : GatewayConfig) : Json :=
  .obj [(py "server", c.server.dump), (py "providers", .arr (c.providers.map ProviderConfig.dump)),
    (py "models", .arr (c.models.map ModelConfig.dump)),
    (py "pricing", .obj (c.pricing.map fun e ↦ (e.1, .obj e.2.fields))),
    (py "version", .int c.version)]

/-! ### Validation -/

section Validate

variable (p : Pydantic)

def validateApiKey : Json → Option ApiKeyConfig
  | .obj d => do
    let id ← validateStr p d (py "id") none
    let key ← validateStr p d (py "key") none
    let attrs ← validateAttrs p d apiKeyClass
    pure ⟨id, key, attrs⟩
  | _ => none

/-- An optional string attribute whose default is `None`. -/
def validateOptStr (d : PyDict) (name : PyStr) : Option (Option PyStr) :=
  match validateField p d ⟨name, .optStr, some .null⟩ with
  | some .null => some none
  | some (.str s) => some (some s)
  | _ => none

def validateServer : Json → Option ServerConfig
  | .obj d => do
    let apiKey ← validateOptStr p d (py "api_key")
    let apiKeys ← validateList d (py "api_keys") (validateApiKey p)
    let attrs ← validateAttrs p d serverClass
    pure ⟨apiKey, apiKeys, attrs⟩
  | _ => none

def validateProvider : Json → Option ProviderConfig
  | .obj d => do
    let id ← validateStr p d (py "id") none
    let apiKey ← validateStr p d (py "api_key") (some [])
    let attrs ← validateAttrs p d providerClass
    pure ⟨id, .str apiKey, attrs⟩
  | _ => none

def validateBackend : Json → Option BackendConfig
  | .obj d => do
    let priority ← validateInt p d (py "priority") .int (some 1)
    let fields ← validateFields p d backendClass.specs
    pure ⟨priority, fields⟩
  | _ => none

/-- An hour: `ge=0, le=23`. -/
def validateHour (d : PyDict) (name : PyStr) (default : ℤ) : Option (Fin 24) := do
  let n ← validateInt p d name (.intIn 0 23) (some default)
  if h : n.toNat < 24 then pure ⟨n.toNat, h⟩ else none

def validateTimeSlot : Json → Option TimeSlot
  | .obj d => do
    let id ← validateStr p d (py "id") (some [])
    let name ← validateStr p d (py "name") (some [])
    let startHour ← validateHour p d (py "start_hour") 0
    let endHour ← validateHour p d (py "end_hour") 23
    let attrs ← validateAttrs p d timeSlotClass
    pure ⟨id, name, startHour, endHour, attrs⟩
  | _ => none

def validateTimeRouting : Json → Option TimeRoutingConfig
  | .obj d => do
    let slots ← validateList d (py "slots") (validateTimeSlot p)
    let attrs ← validateAttrs p d timeRoutingClass
    pure ⟨attrs, slots⟩
  | _ => none

/-- `_normalize_modality`, which runs before the attribute is validated. -/
def normalizeModality (d : PyDict) : PyDict :=
  if get? d (py "modality") = some (.str (py "text+vision")) then
    setKey d (py "modality") (.str (py "multimodal"))
  else d

def validateModel : Json → Option ModelConfig
  | .obj d => do
    let id ← validateStr p d (py "id") none
    let backends ← validateList d (py "backends") (validateBackend p)
    let timeRouting ← validateTimeRouting p ((get? d (py "time_routing")).getD (.obj []))
    let fields ← validateFields p (normalizeModality d) modelClass.specs
    pure ⟨id, backends, timeRouting, fields⟩
  | _ => none

def validatePricingEntry : Json → Option (Attrs pricingClass)
  | .obj d => validateAttrs p d pricingClass
  | _ => none

/-- The entries of `pricing`; a key has to be a string that can be encoded. -/
def validatePricingEntries : PyDict → Option (List (PyStr × Attrs pricingClass))
  | [] => some []
  | (k, v) :: d => do
    if textOk k then
      let entry ← validatePricingEntry p v
      let rest ← validatePricingEntries d
      pure ((k, entry) :: rest)
    else none

def validatePricing : Json → Option (List (PyStr × Attrs pricingClass))
  | .obj d => validatePricingEntries p d
  | _ => none

/-- `GatewayConfig.model_validate`. -/
def validateGateway : Json → Option GatewayConfig
  | .obj d => do
    let server ← validateServer p ((get? d (py "server")).getD (.obj []))
    let providers ← validateList d (py "providers") (validateProvider p)
    let models ← validateList d (py "models") (validateModel p)
    let pricing ← validatePricing p ((get? d (py "pricing")).getD (.obj []))
    let version ← validateInt p d (py "version") .int (some 0)
    pure ⟨server, providers, models, pricing, version⟩
  | _ => none

end Validate

/-- Drop the attribute `reasoning_mode`, which providers no longer have. -/
def stripReasoningMode : Json → Json
  | .obj d => .obj (d.filter (·.1 ≠ py "reasoning_mode"))
  | v => v

/-- How reading a configuration fails: it is no JSON or not valid, which `load_config` catches, or
its `providers` cannot be iterated, which it does not. -/
inductive ParseError
  | invalid
  | typeError
deriving DecidableEq

/-- Whether `for p in v` raises. -/
def notIterable : Json → Bool
  | .null | .bool _ | .int _ | .float _ => true
  | _ => false

/-- `_parse`. -/
def parseConfig (p : Pydantic) (raw : Json) : Except ParseError GatewayConfig :=
  let validated (raw : Json) := match validateGateway p raw with
    | some c => .ok c
    | none => .error ParseError.invalid
  match raw with
  | .obj d =>
    match get? d (py "providers") with
    | none => validated raw
    | some (.arr ps) =>
      validated (.obj (setKey d (py "providers") (.arr (ps.map stripReasoningMode))))
    -- the migration iterates over the providers; over a text or a dictionary that finds nothing to change
    | some v => if notIterable v then .error .typeError else validated raw
  | _ => validated raw

/-! ### Typed configurations -/

/-- The assigned attributes have their declared types. -/
def BackendConfig.Typed (b : BackendConfig) : Prop :=
  FieldsTyped backendClass.specs b.fields

/-- The assigned attributes have their declared types, and the modality is not the one that
validation rewrites. -/
structure ModelConfig.Typed (m : ModelConfig) : Prop where
  fields : FieldsTyped modelClass.specs m.fields
  modality : get? m.fields (py "modality") ≠ some (.str (py "text+vision"))
  backends : ∀ b ∈ m.backends, b.Typed

/-- Everything that is assigned without validation is what validation would leave alone. -/
structure GatewayConfig.Typed (c : GatewayConfig) : Prop where
  keys : ∀ pr ∈ c.providers, pr.apiKey.isStr = true
  models : ∀ m ∈ c.models, m.Typed

/-! ### Reading back what was written -/

section RoundTrip

variable (p : Pydantic)

theorem validateApiKey_dump (k : ApiKeyConfig) (h : k.dump.encodable = true) :
    validateApiKey p k.dump = some k := by
  obtain ⟨id, key, attrs⟩ := k
  simp only [ApiKeyConfig.dump, encodable, encodableDict_append, encodableDict, Bool.and_eq_true,
    Bool.and_true] at h
  obtain ⟨⟨⟨-, hid⟩, -, hkey⟩, hattrs⟩ := h
  rw [ApiKeyConfig.dump, validateApiKey, validateStr_eq p none rfl hid, validateStr_eq p none rfl hkey,
    validateAttrs_self p attrs hattrs _ [py "id", py "key"] rfl (by decide)]
  rfl

theorem validateOptStr_eq {d : PyDict} {name : PyStr} {s : Option PyStr}
    (h : get? d name = some (dumpOpt s)) (henc : (dumpOpt s).encodable = true) :
    validateOptStr p d name = some s := by
  have haccept : p.coerce .optStr (dumpOpt s) = some (dumpOpt s) :=
    p.accepts _ _ (by cases s <;> rfl) henc
  rw [validateOptStr, validateField, h]
  simp only [haccept]
  cases s <;> rfl

theorem encodable_of_mem_map {α : Type} {dump : α → Json} {xs : List α}
    (h : encodableList (xs.map dump) = true) : ∀ x ∈ xs, (dump x).encodable = true := fun _ hx ↦
  encodable_of_mem_list h (List.mem_map_of_mem hx)

theorem validateList_eq {α : Type} {d : PyDict} {name : PyStr} {f : Json → Option α}
    {dump : α → Json} {xs : List α} (h : get? d name = some (.arr (xs.map dump)))
    (hf : ∀ x ∈ xs, f (dump x) = some x) : validateList d name f = some xs := by
  rw [validateList, h]
  exact validateItems_self hf

theorem validateServer_dump (s : ServerConfig) (h : s.dump.encodable = true) :
    validateServer p s.dump = some s := by
  obtain ⟨apiKey, apiKeys, attrs⟩ := s
  simp only [ServerConfig.dump, encodable, encodableDict_append, encodableDict, Bool.and_eq_true,
    Bool.and_true] at h
  obtain ⟨⟨⟨-, hkey⟩, -, hkeys⟩, hattrs⟩ := h
  rw [ServerConfig.dump, validateServer, validateOptStr_eq p rfl hkey,
    validateList_eq rfl fun k hk ↦ validateApiKey_dump p k (encodable_of_mem_map hkeys k hk),
    validateAttrs_self p attrs hattrs _ [py "api_key", py "api_keys"] rfl (by decide +kernel)]
  rfl

theorem validateProvider_dump (pr : ProviderConfig) (hkey : pr.apiKey.isStr = true)
    (h : pr.dump.encodable = true) : validateProvider p pr.dump = some pr := by
  obtain ⟨id, apiKey, attrs⟩ := pr
  obtain ⟨key, rfl⟩ : ∃ key, apiKey = .str key := by
    cases apiKey <;> simp [isStr] at hkey
    exact ⟨_, rfl⟩
  simp only [ProviderConfig.dump, encodable, encodableDict_append, encodableDict, Bool.and_eq_true,
    Bool.and_true] at h
  obtain ⟨⟨⟨-, hid⟩, -, hkey⟩, hattrs⟩ := h
  rw [ProviderConfig.dump, validateProvider, validateStr_eq p none rfl hid,
    validateStr_eq p (some []) rfl hkey, validateAttrs_self p attrs hattrs _ [py "id", py "api_key"] rfl (by decide)]
  rfl

theorem validateBackend_dump (b : BackendConfig) (hb : b.Typed) (h : b.dump.encodable = true) :
    validateBackend p b.dump = some b := by
  obtain ⟨priority, fields⟩ := b
  simp only [BackendConfig.dump, encodable, encodableDict_append, encodableDict, Bool.and_eq_true,
    Bool.and_true] at h
  rw [BackendConfig.dump, validateBackend, validateInt_eq p (some 1) rfl rfl,
    validateFields_self p hb backendClass.distinct h.2 _ [py "priority"] rfl (by decide)]
  rfl

theorem validateHour_eq {d : PyDict} {name : PyStr} {hour : Fin 24} (default : ℤ)
    (h : get? d name = some (.int hour)) : validateHour p d name default = some hour := by
  have hlt := hour.isLt
  have htype : (FieldType.intIn 0 23).hasType (.int hour) = true := by
    simp only [FieldType.hasType, Bool.and_eq_true, decide_eq_true_eq]
    omega
  rw [validateHour, validateInt_eq p (some default) h htype]
  simp

theorem validateTimeSlot_dump (t : TimeSlot) (h : t.dump.encodable = true) :
    validateTimeSlot p t.dump = some t := by
  obtain ⟨id, name, startHour, endHour, attrs⟩ := t
  simp only [TimeSlot.dump, encodable, encodableDict_append, encodableDict, Bool.and_eq_true,
    Bool.and_true] at h
  obtain ⟨⟨⟨-, hid⟩, ⟨-, hname⟩, -⟩, hattrs⟩ := h
  rw [TimeSlot.dump, validateTimeSlot, validateStr_eq p (some []) rfl hid,
    validateStr_eq p (some []) rfl hname, validateHour_eq p 0 rfl, validateHour_eq p 23 rfl,
    validateAttrs_self p attrs hattrs _ 
      [py "id", py "name", py "start_hour", py "end_hour"] rfl (by decide)]
  rfl

theorem validateTimeRouting_dump (t : TimeRoutingConfig) (h : t.dump.encodable = true) :
    validateTimeRouting p t.dump = some t := by
  obtain ⟨attrs, slots⟩ := t
  simp only [TimeRoutingConfig.dump, encodable, encodableDict_append, encodableDict,
    Bool.and_eq_true, Bool.and_true] at h
  obtain ⟨⟨-, hslots⟩, hattrs⟩ := h
  rw [TimeRoutingConfig.dump, validateTimeRouting,
    validateList_eq rfl fun t ht ↦ validateTimeSlot_dump p t (encodable_of_mem_map hslots t ht),
    validateAttrs_self p attrs hattrs _ [py "slots"] rfl (by decide)]
  rfl

theorem validateModel_dump (m : ModelConfig) (hm : m.Typed) (h : m.dump.encodable = true) :
    validateModel p m.dump = some m := by
  obtain ⟨id, backends, timeRouting, fields⟩ := m
  obtain ⟨hty, hmodality, hbackends⟩ := hm
  simp only [ModelConfig.dump, encodable, encodableDict_append, encodableDict, Bool.and_eq_true,
    Bool.and_true] at h
  obtain ⟨⟨⟨-, hid⟩, ⟨-, hbs⟩, -, htr⟩, hfields⟩ := h
  have hnormal : ∀ d : PyDict, d.map Prod.fst = [py "id", py "backends", py "time_routing"] →
      normalizeModality (d ++ fields) = d ++ fields := fun d hd ↦ by
    have hget : get? (d ++ fields) (py "modality") = get? fields (py "modality") := by
      rw [get?_append, get?_eq_none_iff.2 (by rw [hd]; decide)]
      rfl
    rw [normalizeModality, hget, if_neg hmodality]
  have htr := validateTimeRouting_dump p timeRouting htr
  rw [ModelConfig.dump, validateModel, validateStr_eq p none rfl hid,
    validateList_eq rfl fun b hb ↦
      validateBackend_dump p b (hbackends b hb) (encodable_of_mem_map hbs b hb),
    show get? _ (py "time_routing") = some timeRouting.dump from rfl, Option.getD_some, htr,
    hnormal _ rfl, validateFields_self p hty modelClass.distinct hfields _
      [py "id", py "backends", py "time_routing"] rfl (by decide)]
  rfl

theorem validatePricing_dump {pricing : List (PyStr × Attrs pricingClass)}
    (h : encodableDict (pricing.map fun e ↦ (e.1, .obj e.2.fields)) = true) :
    validatePricing p (.obj (pricing.map fun e ↦ (e.1, .obj e.2.fields))) = some pricing := by
  rw [validatePricing]
  induction pricing with
  | nil => rfl
  | cons e pricing ih =>
    obtain ⟨k, attrs⟩ := e
    simp only [List.map_cons, encodableDict, encodable, Bool.and_eq_true] at h
    obtain ⟨⟨hk, hattrs⟩, hrest⟩ := h
    have hentry := validateAttrs_self p attrs hattrs [] [] rfl (by simp)
    rw [List.nil_append] at hentry
    rw [List.map_cons, validatePricingEntries, if_pos hk, validatePricingEntry, hentry, ih hrest]
    rfl

/-- A typed configuration that can be written validates to itself. -/
theorem validateGateway_dump (c : GatewayConfig) (hc : c.Typed) (h : c.dump.encodable = true) :
    validateGateway p c.dump = some c := by
  obtain ⟨server, providers, models, pricing, version⟩ := c
  simp only [GatewayConfig.dump, encodable, encodableDict, Bool.and_eq_true, Bool.and_true] at h
  obtain ⟨⟨-, hserver⟩, ⟨-, hproviders⟩, ⟨-, hmodels⟩, ⟨-, hpricing⟩, -⟩ := h
  have hserver := validateServer_dump p server hserver
  have hpricing := validatePricing_dump p hpricing
  rw [GatewayConfig.dump, validateGateway,
    show get? _ (py "server") = some server.dump from rfl, Option.getD_some, hserver,
    validateList_eq rfl fun pr hpr ↦
      validateProvider_dump p pr (hc.keys pr hpr) (encodable_of_mem_map hproviders pr hpr),
    validateList_eq rfl fun m hm ↦
      validateModel_dump p m (hc.models m hm) (encodable_of_mem_map hmodels m hm),
    show get? _ (py "pricing") = some (.obj (pricing.map fun e ↦ (e.1, .obj e.2.fields))) from rfl,
    Option.getD_some, hpricing, validateInt_eq p (some 0) rfl rfl]
  rfl

/-- The attributes of a provider do not include the one that `_parse` drops. -/
theorem stripReasoningMode_dump (pr : ProviderConfig) : stripReasoningMode pr.dump = pr.dump := by
  have hnames := pr.attrs.typed.map_fst
  have hclass : py "reasoning_mode" ∉ providerClass.specs.map FieldSpec.name := by decide
  simp only [ProviderConfig.dump, stripReasoningMode, Json.obj.injEq, List.filter_eq_self]
  intro e he
  have hmem : e.1 ∈ py "id" :: py "api_key" :: providerClass.specs.map FieldSpec.name := by
    rw [← hnames]
    exact List.mem_map_of_mem (f := Prod.fst) he
  have hne : py "reasoning_mode" ∉ py "id" :: py "api_key" :: providerClass.specs.map FieldSpec.name := by
    decide
  simpa using fun h : e.1 = py "reasoning_mode" ↦ hne (h ▸ hmem)

/-- What was written is validated as it is. -/
theorem parseConfig_dump_eq (c : GatewayConfig) :
    parseConfig p c.dump = match validateGateway p c.dump with
      | some c => .ok c
      | none => .error ParseError.invalid := by
  have hstrip : (c.providers.map ProviderConfig.dump).map stripReasoningMode =
      c.providers.map ProviderConfig.dump := by
    rw [List.map_map]
    exact List.map_congr_left fun pr _ ↦ stripReasoningMode_dump pr
  have hset : setKey [(py "server", c.server.dump),
      (py "providers", .arr (c.providers.map ProviderConfig.dump)),
      (py "models", .arr (c.models.map ModelConfig.dump)),
      (py "pricing", .obj (c.pricing.map fun e ↦ (e.1, .obj e.2.fields))),
      (py "version", .int c.version)] (py "providers")
        (.arr ((c.providers.map ProviderConfig.dump).map stripReasoningMode)) =
      [(py "server", c.server.dump), (py "providers", .arr (c.providers.map ProviderConfig.dump)),
        (py "models", .arr (c.models.map ModelConfig.dump)),
        (py "pricing", .obj (c.pricing.map fun e ↦ (e.1, .obj e.2.fields))),
        (py "version", .int c.version)] := by
    rw [hstrip]
    rfl
  show (match validateGateway p (.obj (setKey _ _ _)) with
    | some c => Except.ok c
    | none => .error ParseError.invalid) = _
  rw [hset, ← GatewayConfig.dump]

/-- **What was written is read back.** -/
theorem parseConfig_dump (c : GatewayConfig) (hc : c.Typed) (h : c.dump.encodable = true) :
    parseConfig p c.dump = .ok c := by
  rw [parseConfig_dump_eq, validateGateway_dump p c hc h]

/-! ### What is read is typed -/

variable {p}

theorem validateProvider_typed {v : Json} {pr : ProviderConfig} (h : validateProvider p v = some pr) :
    pr.apiKey.isStr = true := by
  unfold validateProvider at h
  split at h
  · simp only [Option.bind_eq_bind, Option.bind_eq_some_iff, Option.pure_def, Option.some.injEq] at h
    obtain ⟨id, -, apiKey, -, attrs, -, rfl⟩ := h
    rfl
  · cases h

theorem validateBackend_typed {v : Json} {b : BackendConfig} (h : validateBackend p v = some b) :
    b.Typed := by
  unfold validateBackend at h
  split at h
  · simp only [Option.bind_eq_bind, Option.bind_eq_some_iff, Option.pure_def, Option.some.injEq] at h
    obtain ⟨priority, -, fields, hfields, rfl⟩ := h
    exact validateFields_typed backendClass.defaults hfields
  · cases h

theorem get?_normalizeModality (d : PyDict) :
    get? (normalizeModality d) (py "modality") ≠ some (.str (py "text+vision")) := by
  unfold normalizeModality
  split_ifs with h
  · rw [get?_setKey, if_pos rfl]
    decide
  · exact h

theorem validateModel_typed {v : Json} {m : ModelConfig} (h : validateModel p v = some m) :
    m.Typed := by
  unfold validateModel at h
  split at h
  · next d =>
    simp only [Option.bind_eq_bind, Option.bind_eq_some_iff, Option.pure_def,
      Option.some.injEq] at h
    obtain ⟨id, -, backends, hbackends, timeRouting, -, fields, hfields, rfl⟩ := h
    refine ⟨validateFields_typed modelClass.defaults hfields, ?_,
      validateList_forall (fun _ _ ↦ validateBackend_typed) hbackends⟩
    have hget := get?_validateFields hfields modelClass.distinct
      ⟨py "modality", .str, some (.str [])⟩ (by decide)
    rw [hget, validateField]
    split
    · -- a modality that is given is taken over as it is after the rewriting
      next v hv =>
      intro hcoerce
      exact get?_normalizeModality d (p.str_exact v _ hcoerce ▸ hv)
    · decide
  · cases h

theorem validateGateway_typed {v : Json} {c : GatewayConfig} (h : validateGateway p v = some c) :
    c.Typed := by
  unfold validateGateway at h
  split at h
  · simp only [Option.bind_eq_bind, Option.bind_eq_some_iff, Option.pure_def, Option.some.injEq] at h
    obtain ⟨_, -, providers, hproviders, models, hmodels, _, -, _, -, rfl⟩ := h
    exact ⟨validateList_forall (fun _ _ ↦ validateProvider_typed) hproviders,
      validateList_forall (fun _ _ ↦ validateModel_typed) hmodels⟩
  · cases h

/-- **What is read is typed.** -/
theorem parseConfig_typed {v : Json} {c : GatewayConfig} (h : parseConfig p v = .ok c) : c.Typed := by
  have hvalid : ∀ {v}, (match validateGateway p v with
      | some c => Except.ok c
      | none => .error ParseError.invalid) = .ok c → c.Typed := fun {v} h ↦ by
    split at h
    · next c' hc' =>
      obtain rfl : c' = c := by simpa using h
      exact validateGateway_typed hc'
    · cases h
  unfold parseConfig at h
  simp only at h
  split at h
  · split at h
    · exact hvalid h
    · exact hvalid h
    · split_ifs at h
      exact hvalid h
  · exact hvalid h

end RoundTrip

end LocalGateway
