import LocalGateway.Cache.Fingerprint
import LocalGateway.Routing.Guarantees
import LocalGateway.Routing.Tokens

/-!
# What the endpoints ask of the router

The part of the three endpoints that goes before the attempts: the model a request means, its default
parameters, its preferences, the estimate of its input, its output limit and its cache key. What comes out
is a `Plan`, the arguments of `select_backends`.

The endpoints differ in what they put there. The chat endpoint skips the estimate and the fingerprint where
it takes them for useless; the responses endpoint takes the estimate of a field that a responses request
does not have; the embeddings endpoint asks for no output limit.
-/

namespace LocalGateway

open Py Json RespCache

/-! ### The fingerprint -/

/-- What the endpoints use of other libraries: the encoder, the decimal digits of Unicode, `str` of a
value, and the digest. -/
structure Primitives where
  encode : PyStr → Option ℕ
  decimal : ℕ → Option ℕ
  str : Json → PyStr
  sha1 : PyBytes → PyBytes

/-- `hexdigest` of a digest. -/
def hexdigest (digest : PyBytes) : PyStr :=
  digest.flatMap fun x ↦ [hexDigit (x.toNat / 16), hexDigit (x.toNat % 16)]

/-- `text.encode("utf-8", errors="replace")`. -/
def encodeReplace (text : PyStr) : PyBytes :=
  text.flatMap fun c ↦ if IsScalar c then encodeChar c else [63]

section Fingerprint

variable (lib : Primitives)

/-- The text of a part of a message; what has none is printed. -/
def partTextOr (part : Json) : PyStr :=
  (partText part).getD (lib.str part)

/-- `_msg_text`. -/
def msgText : Json → PyStr
  | .obj msg =>
    match (get? msg (py "content")).getD (.str []) with
    | .str s => s
    | .arr parts => joinLines (parts.map (partTextOr lib))
    | v => lib.str v
  | _ => []

/-- `_PREFIX_TRUNCATE`. -/
def truncateLength : ℕ :=
  2000

/-- `_truncate`. -/
def truncateText (text : PyStr) : PyStr :=
  if truncateLength < text.length then
    text.take truncateLength ++ py "…[" ++ natRepr text.length ++ py ":" ++
      (hexdigest (lib.sha1 (encodeReplace text))).take 10 ++ py "]"
  else text

/-- The role of a message, printed. -/
def roleText : Json → PyStr
  | .obj msg =>
    match get? msg (py "role") with
    | none => []
    | some (.str s) => s
    | some v => lib.str v
  | _ => []

/-- `isinstance(m, dict) and m.get("role") == role`. -/
def hasRole (role : String) : Json → Bool
  | .obj msg => get? msg (py "role") = some (.str (py role))
  | _ => false

/-- The messages that were sent before the new turn of the user, or all of them. -/
def sentMessages (convo : List Json) : List Json :=
  let sent := if (convo.getLast?.map (hasRole "user")).getD false then convo.dropLast else convo
  if sent = [] then convo else sent

/-- `fingerprint`. -/
def fingerprint (body : PyDict) : Option PyStr :=
  match get? body (py "messages") with
  | some (.arr messages) =>
    if messages = [] then none
    else
      let system := (match get? body (py "system") with
        | some (.str s) => [s]
        | _ => []) ++ (messages.filter (hasRole "system")).map (msgText lib)
      let sent := sentMessages (messages.filter fun m ↦ !hasRole "system" m)
      let hasContent := (system ++ sent.map (msgText lib)).any fun s ↦ strip s ≠ []
      if !hasContent then none
      else
        let pieces := system.map (truncateText lib) ++ sent.map fun m ↦
          roleText lib m ++ py ":" ++ truncateText lib (msgText lib m)
        some ((hexdigest (lib.sha1 (encodeReplace ([10, 0, 10].intercalate pieces)))).take 16)
  | _ => none

end Fingerprint

/-! ### Plans -/

/-- `model_by_id` of a value; what is no string is no model's id. -/
def GatewayConfig.modelByValue (c : GatewayConfig) : Json → Option ModelConfig
  | .str id => c.modelById id
  | _ => none

/-- `body.get("model", "")`. -/
def requestedModel (body : PyDict) : Json :=
  (get? body (py "model")).getD (.str [])

/-- The arguments of `select_backends`. -/
structure Plan where
  model : Json
  prefs : ProviderPrefs
  demand : Demand
  cacheKey : Option PyStr

section Plans

variable (lib : Primitives) (c : GatewayConfig) (body : PyDict)

/-- `model_cfg`. -/
def modelCfg : Option ModelConfig :=
  c.modelByValue (requestedModel body)

/-- `logical_model`. -/
def logicalModel : Json :=
  match modelCfg c body with
  | some m => .str m.id
  | none => requestedModel body

/-- `model_cfg.default_params`. -/
def ModelConfig.defaultParams (m : ModelConfig) : PyDict :=
  match get? m.fields (py "default_params") with
  | some (.obj d) => d
  | _ => []

/-- The body with the default parameters of the model. -/
def filledBody : PyDict :=
  applyDefaultParams body ((modelCfg c body).map ModelConfig.defaultParams)

/-- The preferences of the request. -/
def requestPrefs : ProviderPrefs :=
  (ProviderPrefs.fromRequest lib.str body).getD .none

/-- `_cache_enabled`. -/
def cacheEnabled (m : Option ModelConfig) : Bool :=
  m.any fun m ↦ attrBool c.server.attrs.fields (py "response_cache_enabled") &&
    attrBool m.fields (py "cache_responses")

/-- `use_cache`. -/
def useCache : Bool :=
  cacheEnabled c (modelCfg c body) && isCacheable (filledBody c body)

/-- `_input_estimate_needed`. -/
def inputEstimateNeeded (m : Option ModelConfig) (useCache : Bool) : Bool :=
  useCache || m.any fun m ↦ m.backends.any fun b ↦
    attrBool b.fields (py "enabled") && (attrInt b.fields (py "context_length")).isSome

/-- `_estimate_input_tokens`. -/
def estimateInputTokens : Option ℕ :=
  countMessages lib.encode c.tokenizer (get? (filledBody c body) (py "messages"))

/-- `cache_affinity_enabled`. -/
def GatewayConfig.cacheAffinity (c : GatewayConfig) : Bool :=
  attrBool c.server.attrs.fields (py "cache_affinity_enabled")

/-- The cache key of a conversation. -/
def conversationKey (conversation : Option PyStr) : Option PyStr :=
  (conversation.filter (· ≠ [])).map fun id ↦ py "conv:" ++ id

/-- `cache_key` of the chat endpoint. -/
def chatCacheKey (conversation : Option PyStr) : Option PyStr :=
  match conversationKey conversation with
  | some key => some key
  | none =>
    if c.cacheAffinity && (modelCfg c body).isSome then fingerprint lib (filledBody c body) else none

/-- `input_tokens` of the chat endpoint. -/
def chatInputTokens : Option ℕ :=
  if inputEstimateNeeded (modelCfg c body) (useCache c body) then estimateInputTokens lib c body
  else none

/-- The chat endpoint, streaming or not; `none` is an exception. -/
def chatPlan (conversation : Option PyStr) : Option Plan :=
  (requestedMaxTokens lib.decimal (filledBody c body)).map fun maxTokens ↦
    { model := logicalModel c body
      prefs := requestPrefs lib body
      demand := ⟨maxTokens, (chatInputTokens lib c body).map (↑)⟩
      cacheKey := chatCacheKey lib c body conversation }

/-- The responses endpoint. -/
def responsesPlan : Option Plan :=
  (requestedMaxTokens lib.decimal (filledBody c body)).map fun maxTokens ↦
    { model := logicalModel c body
      prefs := requestPrefs lib body
      demand := ⟨maxTokens, (estimateInputTokens lib c body).map (↑)⟩
      cacheKey := fingerprint lib (filledBody c body) }

/-- The embeddings endpoint. -/
def embeddingsPlan : Plan where
  model := logicalModel c body
  prefs := requestPrefs lib body
  demand := ⟨none, (countEmbeddingInput lib.encode c.tokenizer (get? body (py "input"))).map (↑)⟩
  cacheKey := none

end Plans

/-! ### Resolving a plan -/

/-- An error answer to a request that is not routed. -/
structure RouteError where
  message : PyStr
  type : PyStr
  code : PyStr
  status : ℕ
deriving DecidableEq

/-- `list(select_backends(...))`; without a value, it raises. -/
def Plan.selection (plan : Plan) (c : GatewayConfig) (now : Moment) (A : Answers Entry) :
    Option (List SelectedBackend) :=
  match plan.model with
  | .str id =>
    let s := selectBackends c now plan.prefs (plan.cacheKey.getD []) A id plan.demand
    if s.raised then none else some s.emitted
  | _ => some []

section Resolve

variable (lib : Primitives) (c : GatewayConfig)

/-- The enabled backends of a model whose provider is enabled. -/
def servingBackends (m : ModelConfig) : List BackendConfig :=
  m.backends.filter fun b ↦ attrBool b.fields (py "enabled") &&
    (c.providerById b.provider).any fun pr ↦ attrBool pr.attrs.fields (py "enabled")

/-- The error for a model that is not there. -/
def modelMissing (model : Json) : RouteError where
  message := py "Model '" ++ lib.str model ++ py "' not found or has no configured backends"
  type := py "invalid_request_error"
  code := py "model_not_found"
  status := 404

/-- `_context_too_small_error`. -/
def contextTooSmall (m : ModelConfig) (d : Demand) : Option RouteError :=
  d.inputTokens.bind fun inputTokens ↦
    let needed := inputTokens + d.maxTokens.getD 0
    -- a backend that names no context length is left out of the comparison
    match ((servingBackends c m).filterMap fun b ↦ attrInt b.fields (py "context_length")).max? with
    | some largest =>
      if largest < needed then
        some
          { message := py "Prompt + requested completion (" ++ intRepr needed ++
              py " tokens) exceeds the largest backend context for '" ++ m.id ++ py "' (" ++
              intRepr largest ++ py ")"
            type := py "invalid_request_error"
            code := py "context_length_exceeded"
            status := 400 }
      else none
    | none => none

/-- The error for a limit that no backend has. -/
def limitExceeded (model : Json) (m : ModelConfig) (maxTokens : ℤ) : RouteError where
  message := py "Requested max_tokens=" ++ intRepr maxTokens ++
    py " exceeds the output limit of every backend for '" ++ lib.str model ++ py "'" ++
    match ((servingBackends c m).filterMap fun b ↦
        attrInt b.fields (py "max_output_tokens")).max? with
    | some largest => py " (max available: " ++ intRepr largest ++ py ")"
    | none => []
  type := py "invalid_request_error"
  code := py "output_limit_exceeded"
  status := 400

/-- How `_resolve_backends` ends. -/
inductive Resolution
  | routed (backends : List SelectedBackend)
  | rejected (error : RouteError)
  | raised
deriving DecidableEq

/-- `_resolve_backends`. -/
def Plan.resolve (plan : Plan) (now : Moment) (A : Answers Entry) : Resolution :=
  match c.modelByValue plan.model with
  | none => .rejected (modelMissing lib plan.model)
  | some m =>
    -- a model that is switched off is answered like one that is missing
    if !attrBool m.fields (py "enabled") then .rejected (modelMissing lib plan.model)
    else
      match plan.selection c now A with
      | none => .raised
      | some (s :: selected) => .routed (s :: selected)
      | some [] =>
        match contextTooSmall c m plan.demand, plan.demand.maxTokens with
        | some error, _ => .rejected error
        | none, some maxTokens => .rejected (limitExceeded lib c plan.model m maxTokens)
        | none, none => .rejected (modelMissing lib plan.model)

end Resolve

end LocalGateway
