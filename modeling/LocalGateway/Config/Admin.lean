import Mathlib.Data.List.Lex
import LocalGateway.Config.Schema

/-!
# The admin handlers

The handlers of `endpoints/admin.py` that edit the configuration, as functions of the live
configuration object and the decoded request body. A handler changes the object in place and then
answers, so its outcome is the object afterwards together with the verdict: save it, reject the
request with a status and a message, or fail with an exception.

Handlers that work on one model are functions of that model (`withModel`); the loop that assigns
attributes is `applyFields`, for every class and whitelist.
-/

namespace LocalGateway

open Py Json

/-! ### Outcomes -/

/-- What a handler does after it has worked on the live object. -/
inductive Verdict
  /-- The live object is saved and the answer is a success. -/
  | save
  /-- Another object is saved in its place. -/
  | saveNew (c : GatewayConfig)
  /-- An error answer. -/
  | reject (status : ℕ) (message : PyStr)
  /-- An exception the handler does not catch. -/
  | crash
deriving DecidableEq

/-- The live object after a handler, and its verdict. -/
structure Outcome where
  live : GatewayConfig
  verdict : Verdict
deriving DecidableEq

/-- A 422 answer. -/
def unprocessable (message : String) : Verdict :=
  .reject 422 (py message)

/-- `f"Model '{model_id}' not found"`. -/
def modelNotFound (id : PyStr) : Verdict :=
  .reject 404 (py "Model '" ++ id ++ py "' not found")

/-! ### Assigning attributes -/

/-- The Python types the whitelists name. -/
inductive PyType
  | str
  | int
  | float
  | bool
  | list
  | dict
  | noneType
deriving DecidableEq

/-- `__name__`. -/
def PyType.name : PyType → PyStr
  | .str => py "str"
  | .int => py "int"
  | .float => py "float"
  | .bool => py "bool"
  | .list => py "list"
  | .dict => py "dict"
  | .noneType => py "NoneType"

/-- `isinstance(v, t)`; a `bool` is an `int`. -/
def isInstance (v : Json) : PyType → Bool
  | .str => v.isStr
  | .int => v.isInt || v.isBool
  | .float => v.isFloat
  | .bool => v.isBool
  | .list => match v with
    | .arr _ => true
    | _ => false
  | .dict => match v with
    | .obj _ => true
    | _ => false
  | .noneType => v = .null

/-- The attributes that may be assigned, in order, each with the types it may have. -/
abbrev Whitelist := List (PyStr × List PyType)

/-- `MODEL_SETTABLE`. -/
def modelSettable : Whitelist :=
  [(py "description", [.str]), (py "context_length", [.int, .noneType]), (py "enabled", [.bool]),
    (py "capabilities", [.dict]), (py "modality", [.str]),
    (py "max_output_tokens", [.int, .noneType]), (py "tags", [.list]), (py "aliases", [.list]),
    (py "default_params", [.dict]), (py "display_name", [.str]), (py "avatar", [.str]),
    (py "probe_interval_s", [.float, .noneType]), (py "cache_responses", [.bool]),
    (py "endpoint", [.str])]

/-- `BACKEND_SETTABLE`. -/
def backendSettable : Whitelist :=
  [(py "provider", [.str]), (py "model", [.str]), (py "enabled", [.bool]),
    (py "context_length", [.int, .noneType]), (py "max_output_tokens", [.int, .noneType]),
    (py "cache_supported", [.bool, .noneType]), (py "weight", [.float])]

/-- `", ".join(names)`. -/
def commaJoin (names : List PyStr) : PyStr :=
  (py ", ").intercalate names

/-- The keys of the body that are not in the whitelist, sorted. -/
def unknownFields (body : PyDict) (whitelist : Whitelist) : List PyStr :=
  ((body.map Prod.fst).filter (· ∉ whitelist.map Prod.fst)).insertionSort (· ≤ ·)

/-- `field '…' must be …`. -/
def typeMessage (field : PyStr) (types : List PyType) : PyStr :=
  py "field '" ++ field ++ py "' must be " ++
    match types with
    | [t] => t.name
    | _ => py "one of " ++ commaJoin (types.map PyType.name)

/-- The loop of `_apply_fields`: the attributes after it, and the message if it raised. -/
def applyLoop (obj body : PyDict) : Whitelist → PyDict × Option PyStr
  | [] => (obj, none)
  | (field, types) :: whitelist =>
    match get? body field with
    | none => applyLoop obj body whitelist
    | some value =>
      if types.any (isInstance value) then applyLoop (setKey obj field value) body whitelist
      else (obj, some (typeMessage field types))

/-- `_apply_fields`. -/
def applyFields (obj body : PyDict) (whitelist : Whitelist) : PyDict × Option PyStr :=
  let unknown := unknownFields body whitelist
  if unknown ≠ [] then (obj, some (py "unknown fields: " ++ commaJoin unknown))
  else applyLoop obj body whitelist

/-! ### Handlers of one model -/

/-- `model_id in m.aliases`. -/
def ModelConfig.hasAlias (m : ModelConfig) (id : PyStr) : Bool :=
  match get? m.fields (py "aliases") with
  | some (.arr xs) => xs.contains (.str id)
  | _ => false

/-- Where `model_by_id` finds the model: by its id, else by an alias. -/
def GatewayConfig.modelIndex (c : GatewayConfig) (id : PyStr) : Option ℕ :=
  (c.models.findIdx? (·.id = id)).or (c.models.findIdx? (·.hasAlias id))

/-- A handler that looks a model up and works on it. -/
def withModel (c : GatewayConfig) (id : PyStr) (f : ModelConfig → ModelConfig × Verdict) : Outcome :=
  match c.modelIndex id with
  | none => ⟨c, modelNotFound id⟩
  | some i =>
    match c.models[i]? with
    | none => ⟨c, modelNotFound id⟩
    | some m => ⟨{ c with models := c.models.set i (f m).1 }, (f m).2⟩

section Model

variable (p : Pydantic)

/-- `update_model`. -/
def updateModel (body : Json) (m : ModelConfig) : ModelConfig × Verdict :=
  match body with
  | .obj d =>
    let rest := d.filter (·.1 ≠ py "time_routing")
    let assign (m : ModelConfig) : ModelConfig × Verdict :=
      let r := applyFields m.fields rest modelSettable
      ({ m with fields := r.1 }, match r.2 with
        | some message => .reject 422 message
        | none => .save)
    match get? d (py "time_routing") with
    | none | some .null => assign m
    | some v =>
      match validateTimeRouting p v with
      | none => (m, .reject 422 (p.errorText (py "TimeRoutingConfig") v))
      -- a field that is rejected afterwards leaves the new time routing in place
      | some t => assign { m with timeRouting := t }
  | _ => (m, .crash)

/-- The value of a tier index: `True` counts as `1`. -/
def indexValue : Json → Option ℚ
  | .bool b => some (if b then 1 else 0)
  | .int n => some n
  | .float (.fin q) => some q
  | .float .negZero => some 0
  | _ => none

/-- `sorted(all_indices)` raises on values that cannot be compared. -/
def sortable (xs : List Json) : Bool :=
  xs.length ≤ 1 || xs.all (fun v ↦ v.isInt || v.isBool || v.isFloat) || xs.all isStr ||
    xs.all fun v ↦ isInstance v .list

/-- `sorted(all_indices) == list(range(n))`. -/
def isRange (xs : List Json) (n : ℕ) : Bool :=
  match xs.mapM indexValue with
  | some qs => qs.insertionSort (· ≤ ·) = (List.range n).map fun k ↦ (k : ℚ)
  | none => false

/-- Give the backends of one tier its number; an index that is no `int` raises. -/
def setTier (tier : ℕ) : List Json → List BackendConfig → List BackendConfig × Bool
  | [], bs => (bs, true)
  | v :: vs, bs =>
    let assign (i : ℕ) := setTier tier vs (bs.modify i fun b ↦ { b with priority := tier })
    match v with
    | .int n => assign n.toNat
    | .bool b => assign (if b then 1 else 0)
    | _ => (bs, false)

/-- The loop of `set_backends_tiers`. -/
def setTiers (tier : ℕ) : List (List Json) → List BackendConfig → List BackendConfig × Bool
  | [], bs => (bs, true)
  | t :: ts, bs =>
    match setTier tier t bs with
    | (bs, true) => setTiers (tier + 1) ts bs
    | (bs, false) => (bs, false)

/-- The tiers of the body, if it is a list of lists. -/
def tierLists : List Json → Option (List (List Json))
  | [] => some []
  | .arr t :: ts => (tierLists ts).map (t :: ·)
  | _ :: _ => none

/-- `set_backends_tiers`. -/
def setBackendsTiers (body : Json) (m : ModelConfig) : ModelConfig × Verdict :=
  match body with
  | .obj d =>
    match (get? d (py "tiers")).getD (.arr []) with
    | .arr ts =>
      match tierLists ts with
      | none => (m, unprocessable "each tier must be a list of indices")
      | some tiers =>
        -- `sorted` raises on values that cannot be compared
        if !sortable tiers.flatten then (m, .crash)
        else if !isRange tiers.flatten m.backends.length then
          (m, unprocessable "tiers must contain all backend indices exactly once")
        else
          let r := setTiers 1 tiers m.backends
          ({ m with backends := r.1 }, if r.2 then .save else .crash)
    | _ => (m, unprocessable "tiers must be a list of lists")
  | _ => (m, .crash)

/-- `max((b.priority for b in model.backends), default=0)`. -/
def maxPriority : List BackendConfig → ℤ
  | [] => 0
  | b :: bs => bs.foldl (fun n b ↦ max n b.priority) b.priority

/-- `add_backend`. -/
def addBackend (body : Json) (m : ModelConfig) : ModelConfig × Verdict :=
  match validateBackend p body with
  | none => (m, .reject 422 (p.errorText (py "BackendConfig") body))
  | some b =>
    ({ m with backends := m.backends ++ [{ b with priority := maxPriority m.backends + 1 }] }, .save)

/-- The backend at an index of the path. -/
def backendAt (m : ModelConfig) (index : ℤ) : Option BackendConfig :=
  if index < 0 then none else m.backends[index.toNat]?

/-- `update_backend`. -/
def updateBackend (index : ℤ) (body : Json) (m : ModelConfig) : ModelConfig × Verdict :=
  match backendAt m index with
  | none => (m, .reject 400 (py "Invalid backend index"))
  | some b =>
    match body with
    | .obj d =>
      let r := applyFields b.fields d backendSettable
      ({ m with backends := m.backends.set index.toNat { b with fields := r.1 } }, match r.2 with
        | some message => .reject 422 message
        | none => .save)
    | _ => (m, .crash)

/-- `remove_backend`. -/
def removeBackend (index : ℤ) (m : ModelConfig) : ModelConfig × Verdict :=
  match backendAt m index with
  | none => (m, .reject 400 (py "Invalid backend index"))
  | some _ =>
    let rest := m.backends.eraseIdx index.toNat
    ({ m with backends := rest.mapIdx fun i b ↦ { b with priority := i + 1 } }, .save)

/-- `put_time_routing`. -/
def putTimeRouting (body : Json) (m : ModelConfig) : ModelConfig × Verdict :=
  match validateTimeRouting p body with
  | none => (m, .reject 422 (p.errorText (py "TimeRoutingConfig") body))
  | some t => ({ m with timeRouting := t }, .save)

/-- The characters of `str.lower()` that matter to a slug. The two letters outside ASCII whose
lower case has an ASCII letter are spelled out. -/
def slugLower (c : ℕ) : List ℕ :=
  if 65 ≤ c ∧ c ≤ 90 then [c + 32]
  else if c = 0x212A then [107]
  else if c = 0x130 then [105, 0x307]
  else [c]

/-- `re.sub(r"[^a-z0-9]+", "-", s)`. -/
def dashRuns : Bool → PyStr → PyStr
  | _, [] => []
  | inRun, c :: s =>
    if (97 ≤ c && c ≤ 122) || isDigit c then c :: dashRuns false s
    else if inRun then dashRuns true s
    else 45 :: dashRuns true s

/-- `_slot_id`. -/
def slotId (t : TimeSlot) : PyStr :=
  let stem := ((dashRuns false (t.name.flatMap slugLower)).dropWhile (· = 45)).rdropWhile (· = 45)
  (if stem = [] then py "slot" else stem) ++ py "-" ++ natRepr t.startHour ++ py "-" ++
    natRepr t.endHour

/-- The model with other time slots. -/
def ModelConfig.setSlots (m : ModelConfig) (slots : List TimeSlot) : ModelConfig :=
  { m with timeRouting := { m.timeRouting with slots := slots } }

/-- `create_time_slot`. -/
def createTimeSlot (body : Json) (m : ModelConfig) : ModelConfig × Verdict :=
  match validateTimeSlot p body with
  | none => (m, .reject 422 (p.errorText (py "TimeSlot") body))
  | some t =>
    let t := if t.id = [] then { t with id := slotId t } else t
    (m.setSlots (m.timeRouting.slots ++ [t]), .save)

/-- `f"Time slot '{slot_id}' not found"`. -/
def slotNotFound (id : PyStr) : Verdict :=
  .reject 404 (py "Time slot '" ++ id ++ py "' not found")

/-- `update_time_slot`. -/
def updateTimeSlot (slot : PyStr) (body : Json) (m : ModelConfig) : ModelConfig × Verdict :=
  match m.timeRouting.slots.findIdx? (·.id = slot) with
  | none => (m, slotNotFound slot)
  | some i =>
    match validateTimeSlot p body with
    | none => (m, .reject 422 (p.errorText (py "TimeSlot") body))
    | some t =>
      let t := if t.id = [] then { t with id := slot } else t
      (m.setSlots (m.timeRouting.slots.set i t), .save)

/-- `delete_time_slot`. -/
def deleteTimeSlot (slot : PyStr) (m : ModelConfig) : ModelConfig × Verdict :=
  let rest := m.timeRouting.slots.filter (·.id ≠ slot)
  if rest.length = m.timeRouting.slots.length then (m, slotNotFound slot)
  else (m.setSlots rest, .save)

end Model

/-! ### Handlers of the whole configuration -/

/-- `REDACTED_KEY`. -/
def redactedKey : PyStr :=
  List.replicate 6 0x2022

/-- `(v or "").strip()`; `none` is the exception on a value that is no string. -/
def strippedText : Option Json → Option PyStr
  | none => some []
  | some (.str s) => some (strip s)
  | some v => if truthy v then none else some []

/-- `provider_by_id`. -/
def GatewayConfig.providerIndex (c : GatewayConfig) (id : PyStr) : Option ℕ :=
  c.providers.findIdx? (·.id = id)

/-- `f"Provider '{provider_id}' not found"`. -/
def providerNotFound (id : PyStr) : Verdict :=
  .reject 404 (py "Provider '" ++ id ++ py "' not found")

section Config

variable (p : Pydantic) (c : GatewayConfig)

/-- `create_model`. An id that is no string has no `strip`. -/
def createModel (body : Json) : Outcome :=
  match body with
  | .obj d =>
    match (get? d (py "id")).getD (.str []) with
    | .str id =>
      if strip id = [] then ⟨c, unprocessable "id is required"⟩
      else if (c.modelIndex (strip id)).isSome then
        ⟨c, .reject 409 (py "Model '" ++ strip id ++ py "' already exists")⟩
      else
        match validateModel p body with
        | none => ⟨c, .reject 422 (p.errorText (py "ModelConfig") body)⟩
        | some m => ⟨{ c with models := c.models ++ [m] }, .save⟩
    | _ => ⟨c, .crash⟩
  | _ => ⟨c, .crash⟩

/-- `delete_model`. -/
def deleteModel (id : PyStr) : Outcome :=
  match c.models.findIdx? (·.id = id) with
  | none => ⟨c, modelNotFound id⟩
  | some i => ⟨{ c with models := c.models.eraseIdx i }, .save⟩

/-- `set_provider_api_key`. -/
def setProviderApiKey (body : Json) : Outcome :=
  match body with
  | .obj d =>
    match strippedText (get? d (py "provider")) with
    | none => ⟨c, .crash⟩
    | some id =>
      if id = [] then ⟨c, unprocessable "provider is required"⟩
      else
        match c.providerIndex id with
        | none => ⟨c, providerNotFound id⟩
        | some i =>
          let value := (get? d (py "api_key")).getD .null
          if value = .str redactedKey then
            ⟨c, .reject 422 (py "refusing to save the redacted placeholder as an API key — enter the real key")⟩
          else
            -- any other value is taken as the key, of whatever type
            let key := if value = .null then .str [] else value
            ⟨{ c with providers := c.providers.modify i fun pr ↦ { pr with apiKey := key } }, .save⟩
  | _ => ⟨c, .crash⟩

/-- `current.version == incoming_version`, across Python's number types. -/
def versionEq (version : ℤ) (v : Json) : Bool :=
  indexValue v = some (version : ℚ)

/-- The provider with its key, which is the live one where the body has the placeholder; the id of a
provider that has none is the error. -/
def restoreProviderKey (pr : ProviderConfig) : Except PyStr ProviderConfig :=
  if pr.apiKey = .str redactedKey then
    match c.providers.find? (·.id = pr.id) with
    | some existing => .ok { pr with apiKey := existing.apiKey }
    | none => .error pr.id
  else .ok pr

/-- A client key, likewise. -/
def restoreClientKey (k : ApiKeyConfig) : Except PyStr ApiKeyConfig :=
  if k.key = redactedKey then
    match c.server.apiKeys.find? (·.id = k.id) with
    | some existing => .ok { k with key := existing.key }
    | none => .error k.id
  else .ok k

/-- All of them, up to the first error. -/
def restoreAll {α : Type} (restore : α → Except PyStr α) : List α → Except PyStr (List α)
  | [] => .ok []
  | x :: xs => do
    let y ← restore x
    let ys ← restoreAll restore xs
    pure (y :: ys)

/-- `put_config`. -/
def putConfig (body : Json) : Outcome :=
  let incoming := match body with
    | .obj d => (get? d (py "version")).getD .null
    | _ => .null
  -- a body without a version is not checked for a conflict
  if incoming ≠ .null ∧ versionEq c.version incoming = false then
    ⟨c, .reject 409 (py "config changed since load (conflict)")⟩
  else
    match validateGateway p body with
    | none => ⟨c, .reject 422 (p.errorText (py "GatewayConfig") body)⟩
    | some cfg =>
      match restoreAll (restoreProviderKey c) cfg.providers with
      | .error id => ⟨c, .reject 422 (py "refusing to save the redacted placeholder as API key for provider '"
          ++ id ++ py "' — enter the real key")⟩
      | .ok providers =>
        match restoreAll (restoreClientKey c) cfg.server.apiKeys with
        | .error id => ⟨c, .reject 422 (py "refusing to save the redacted placeholder as key for API key entry '"
            ++ id ++ py "' — enter the real key")⟩
        | .ok apiKeys =>
          let apiKey := if cfg.server.apiKey = some redactedKey then c.server.apiKey
            else cfg.server.apiKey
          -- the version goes on from that of the live configuration, whatever the body has
          ⟨c, .saveNew { cfg with
            providers := providers
            server := { cfg.server with apiKey := apiKey, apiKeys := apiKeys }
            version := c.version }⟩

/-- The loop over the pricing keys of a renamed provider. -/
def movePricing {α : Type} (old new : PyStr) (pricing : List (PyStr × α)) : List PyStr → List (PyStr × α)
  | [] => pricing
  | k :: ks =>
    match pricing.lookup k with
    | some v =>
      if startsWith k (old ++ py ":") then
        let target := new ++ py ":" ++ k.drop (old ++ py ":").length
        let rest := pricing.filter (·.1 ≠ k)
        -- a price under the new key is overwritten in its place
        let moved := if (rest.lookup target).isSome then
            rest.map fun e ↦ if e.1 = target then (target, v) else e
          else rest ++ [(target, v)]
        movePricing old new moved ks
      else movePricing old new pricing ks
    | none => movePricing old new pricing ks

/-- The backend follows a renamed provider. -/
def BackendConfig.renameProvider (old new : PyStr) (b : BackendConfig) : BackendConfig :=
  if get? b.fields (py "provider") = some (.str old) then
    { b with fields := setKey b.fields (py "provider") (.str new) }
  else b

/-- `rename_entity`, as far as the configuration goes. -/
def renameEntity (body : Json) : Outcome :=
  match body with
  | .obj d =>
    match strippedText (get? d (py "old_id")), strippedText (get? d (py "new_id")) with
    | some old, some new =>
      let type := get? d (py "type")
      if type ≠ some (.str (py "model")) ∧ type ≠ some (.str (py "provider")) then
        ⟨c, unprocessable "type must be 'model' or 'provider'"⟩
      else if old = [] ∨ new = [] then ⟨c, unprocessable "old_id and new_id are required"⟩
      else if old = new then ⟨c, unprocessable "old_id and new_id are the same"⟩
      else if type = some (.str (py "model")) then
        match c.modelIndex old with
        | none => ⟨c, modelNotFound old⟩
        | some i =>
          -- an alias of a model is taken, too
          if (c.modelIndex new).isSome then
            ⟨c, .reject 409 (py "Model '" ++ new ++ py "' already exists")⟩
          else ⟨{ c with models := c.models.modify i fun m ↦ { m with id := new } }, .save⟩
      else
        match c.providerIndex old with
        | none => ⟨c, providerNotFound old⟩
        | some i =>
          if (c.providerIndex new).isSome then
            ⟨c, .reject 409 (py "Provider '" ++ new ++ py "' already exists")⟩
          else
            ⟨{ c with
                providers := c.providers.modify i fun pr ↦ { pr with id := new }
                models := c.models.map fun m ↦
                  { m with backends := m.backends.map (BackendConfig.renameProvider old new) }
                pricing := movePricing old new c.pricing (c.pricing.map Prod.fst) }, .save⟩
    | _, _ => ⟨c, .crash⟩
  | _ => ⟨c, .crash⟩

/-! ### All edits -/

/-- A request that edits the configuration, with its path parameters and its decoded body. -/
inductive Edit
  | createModel (body : Json)
  | updateModel (id : PyStr) (body : Json)
  | deleteModel (id : PyStr)
  | setBackendsTiers (id : PyStr) (body : Json)
  | addBackend (id : PyStr) (body : Json)
  | updateBackend (id : PyStr) (index : ℤ) (body : Json)
  | removeBackend (id : PyStr) (index : ℤ)
  | putTimeRouting (id : PyStr) (body : Json)
  | createTimeSlot (id : PyStr) (body : Json)
  | updateTimeSlot (id slot : PyStr) (body : Json)
  | deleteTimeSlot (id slot : PyStr)
  | setProviderApiKey (body : Json)
  | putConfig (body : Json)
  | rename (body : Json)
deriving DecidableEq

/-- The handler of an edit. -/
def handle : Edit → Outcome
  | .createModel body => createModel p c body
  | .updateModel id body => withModel c id (updateModel p body)
  | .deleteModel id => deleteModel c id
  | .setBackendsTiers id body => withModel c id (setBackendsTiers body)
  | .addBackend id body => withModel c id (addBackend p body)
  | .updateBackend id index body => withModel c id (updateBackend index body)
  | .removeBackend id index => withModel c id (removeBackend index)
  | .putTimeRouting id body => withModel c id (putTimeRouting p body)
  | .createTimeSlot id body => withModel c id (createTimeSlot p body)
  | .updateTimeSlot id slot body => withModel c id (updateTimeSlot p slot body)
  | .deleteTimeSlot id slot => withModel c id (deleteTimeSlot slot)
  | .setProviderApiKey body => setProviderApiKey c body
  | .putConfig body => putConfig p c body
  | .rename body => renameEntity c body

end Config

end LocalGateway
