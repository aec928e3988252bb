import LocalGateway.Routing.Requests

/-!
# Context capacity

A backend with a configured `context_length` may be attempted only if the input of the request and the
output it asks for fit into it. The router compares the length with what the endpoint gives it, so the
question is what the endpoints count.

* `Endpoint.tokensIn`: the tokens of the whole text input of a request.
* `Plan.Reaches`: the entries that some state of the registries lets a plan attempt.
* `Endpoint.Misjudges`: the lengths that pass the check of an endpoint and are too short.
* `respectsContext_iff`: the capacity is respected exactly if no backend within reach has such a length.
* `chat_respectsContext`: on the chat endpoint there is none if the ids of the models are unique.
-/

namespace LocalGateway

open Py Json RespCache

/-! ### Reach -/

section Reach

variable (plan : Plan) (c : GatewayConfig) (now : Moment)

/-- The entry is a candidate of the plan; the selection does not raise, and it is not pinned to other
providers. -/
def Plan.Reaches (e : Entry) : Prop :=
  ∃ id es, plan.model = .str id ∧ candidates c now plan.prefs id plan.demand = some es ∧
    SamplesTiers c now plan.prefs (plan.cacheKey.getD []) es ∧ e ∈ es ∧
    (Pinned c plan.prefs (plan.cacheKey.getD []) es → e.provider.id ∈ plan.prefs.order)

/-- The model of a plan is named by a string, or there is nothing to select. -/
theorem Plan.selection_cases (A : Answers Entry) :
    (∃ id, plan.model = .str id) ∨ plan.selection c now A = some [] := by
  unfold Plan.selection
  rcases plan.model with - | - | - | - | id | - | -
  case str => exact .inl ⟨id, rfl⟩
  all_goals exact .inr rfl

/-- The selection of a plan for a model. -/
theorem Plan.selection_of_str {id : PyStr} (h : plan.model = .str id) (A : Answers Entry) :
    plan.selection c now A =
      (candidates c now plan.prefs id plan.demand).bind fun es ↦
        let s := emit c now plan.prefs (plan.cacheKey.getD []) A es
        if s.raised then none else some s.emitted := by
  unfold Plan.selection
  rw [h]
  simp only
  rw [selectBackends_eq]
  rcases candidates c now plan.prefs id plan.demand with - | es <;> rfl

/-- A selection stays among the entries within reach. -/
theorem Plan.reaches_of_mem {A : Answers Entry} {l : List SelectedBackend}
    (h : plan.selection c now A = some l) {e : Entry} (he : e ∈ l.map SelectedBackend.entry) :
    plan.Reaches c now e := by
  rcases plan.selection_cases c now A with ⟨id, hmodel⟩ | hnone
  · rw [plan.selection_of_str c now hmodel] at h
    obtain ⟨es, hes, h⟩ := Option.bind_eq_some_iff.1 h
    simp only at h
    split_ifs at h with hraised
    obtain rfl := Option.some.inj h
    have hreturns := Bool.not_eq_true _ ▸ hraised
    have hmem := (emit_perm c now plan.prefs _ A hreturns).mem_iff.1 he
    have hmem := (A.kept_sublist _).subset hmem
    rw [(map_item_decided_perm ..).mem_iff, List.mem_append, mem_preferredEntries] at hmem
    refine ⟨id, es, hmodel, hes, (raised_eq_false_iff ..).1 hreturns, ?_, fun hpinned ↦ ?_⟩
    · rcases hmem with hmem | hmem
      · exact hmem.2
      · split_ifs at hmem
        · cases hmem
        · exact (List.mem_filter.1 hmem).1
    · rw [if_pos hpinned] at hmem
      rcases hmem with hmem | hmem
      · exact hmem.1
      · cases hmem
  · rw [hnone] at h
    obtain rfl := Option.some.inj h
    cases he

/-- While the clock stands still, a selection comes to every entry within reach. -/
theorem Plan.mem_of_reaches {e : Entry} (h : plan.Reaches c now e) (r : Registry) (s : Breaker)
    (t : ℚ) :
    ∃ l, plan.selection c now (answersAt r s (fun _ ↦ t) monotone_const) = some l ∧
      e ∈ l.map SelectedBackend.entry := by
  obtain ⟨id, es, hmodel, hes, hsamples, he, hpinned⟩ := h
  rw [answersAt_const, plan.selection_of_str c now hmodel, hes]
  have hreturns := (raised_eq_false_iff c now plan.prefs (plan.cacheKey.getD [])
    (.frozen fun e ↦ (r.isAvailable t e.key).2 && !s.isOpen t e.key)).2 hsamples
  refine ⟨_, if_neg (by rw [hreturns]; exact Bool.false_ne_true), ?_⟩
  rw [(count_emit_frozen c now plan.prefs _ hreturns).mem_iff, (map_item_decided_perm ..).mem_iff,
    List.mem_append, mem_preferredEntries]
  by_cases horder : e.provider.id ∈ plan.prefs.order
  · exact .inl ⟨horder, he⟩
  · rw [if_neg fun h ↦ horder (hpinned h)]
    refine .inr (List.mem_filter.2 ⟨he, ?_⟩)
    rw [Bool.not_eq_true', ← Bool.not_eq_true, isPreferred_iff plan.prefs he]
    exact horder

/-- What is within reach has the context that the plan asks for. -/
theorem Plan.fits_of_reaches {e : Entry} (h : plan.Reaches c now e) {n length : ℤ}
    (hn : plan.demand.inputTokens = some n)
    (hlength : attrInt e.backend.fields (py "context_length") = some length) :
    n + plan.demand.maxTokens.getD 0 ≤ length := by
  obtain ⟨id, es, -, hes, -, he, -⟩ := h
  obtain ⟨m, slot, -, -, -, hserves⟩ := (mem_candidates_iff c now plan.prefs id _ hes e).1 he
  exact hserves.context n length hn hlength

/-- Something is selected only for a model that is there and enabled. -/
theorem Plan.model_of_selection {A : Answers Entry} {l : List SelectedBackend}
    (h : plan.selection c now A = some l) (hl : l ≠ []) :
    ∃ m, c.modelByValue plan.model = some m ∧ attrBool m.fields (py "enabled") = true := by
  obtain ⟨b, l, rfl⟩ := List.exists_cons_of_ne_nil hl
  obtain ⟨id, es, hmodel, hes, -, he, -⟩ := plan.reaches_of_mem c now h List.mem_cons_self
  obtain ⟨m, slot, hm, henabled, -, -⟩ := (mem_candidates_iff c now plan.prefs id _ hes _).1 he
  exact ⟨m, by rw [hmodel]; exact hm, henabled⟩

/-- What is selected is routed. -/
theorem Plan.resolve_eq_routed_iff (lib : Primitives) {A : Answers Entry} {l : List SelectedBackend} :
    plan.resolve lib c now A = .routed l ↔ plan.selection c now A = some l ∧ l ≠ [] := by
  unfold Plan.resolve
  constructor
  · intro h
    rcases hm : c.modelByValue plan.model with - | m <;> rw [hm] at h <;> simp only at h
    · cases h
    · split_ifs at h
      rcases hs : plan.selection c now A with - | - | ⟨s, l'⟩ <;> rw [hs] at h <;> simp only at h
      · cases h
      · split at h <;> cases h
      · cases h
        exact ⟨rfl, List.cons_ne_nil _ _⟩
  · rintro ⟨hs, hl⟩
    obtain ⟨m, hm, henabled⟩ := plan.model_of_selection c now hs hl
    obtain ⟨s, l, rfl⟩ := List.exists_cons_of_ne_nil hl
    rw [hm, hs]
    simp [henabled]

end Reach

/-! ### Endpoints -/

/-- A field that is no parameter is not filled in. -/
theorem get?_applyDefaultParams (body : PyDict) (defaults : Option PyDict) {field : PyStr}
    (h : field ∉ defaultParamKeys) :
    get? (applyDefaultParams body defaults) field = get? body field := by
  have hone : ∀ out entry, get? (applyDefault out entry) field = get? out field := by
    intro out entry
    unfold applyDefault
    split_ifs with _ hkey
    · rfl
    · rw [get?_setKey, if_neg]
      rintro rfl
      exact h hkey
    · rfl
    · rfl
  unfold applyDefaultParams
  induction defaults.getD [] generalizing body with
  | nil => rfl
  | cons entry entries ih => rw [List.foldl_cons, ih, hone]

/-- The endpoints that route a request. -/
inductive Endpoint
  | chat
  | responses
  | embeddings
deriving DecidableEq

section Endpoints

variable (ep : Endpoint) (lib : Primitives) (c : GatewayConfig) (body : PyDict)
  (conversation : Option PyStr)

/-- The model of the request is there, enabled, and configured for the endpoint. -/
def configuredFor (endpoint : PyStr) : Bool :=
  (modelCfg c body).any fun m ↦
    attrBool m.fields (py "enabled") && attrStr m.fields (py "endpoint") = endpoint

/-- What the endpoint asks of the router; `none` is an error answer or an exception. -/
def Endpoint.plan : Option Plan :=
  match ep with
  | .chat => chatPlan lib c body conversation
  | .responses => if configuredFor c body (py "responses") then responsesPlan lib c body else none
  | .embeddings =>
    if configuredFor c body (py "embeddings") then some (embeddingsPlan lib c body) else none

/-- The backends that the loop of the endpoint goes through, for as long as the ones before fail; a
response from the cache has none. -/
def Endpoint.attempted (now : Moment) (A : Answers Entry) : List Entry :=
  match ep.plan lib c body conversation with
  | none => []
  | some plan =>
    match ep with
    | .chat =>
      match plan.resolve lib c now A with
      | .routed l => l.map SelectedBackend.entry
      | _ => []
    | _ => ((plan.selection c now A).getD []).map SelectedBackend.entry

/-- The tokens of a field: of a text, or of a list of messages. -/
def fieldTokens (mode : PyStr) : Option Json → ℕ
  | some (.str s) => countText lib.encode mode s
  | some (.arr items) => (items.map (messageTokens lib.encode mode)).sum
  | _ => 0

/-- The gateway's count of the whole text input of the request. -/
def Endpoint.tokensIn : Option ℕ :=
  match ep with
  | .chat => countMessages lib.encode c.tokenizer (get? body (py "messages"))
  | .responses =>
    orNone (fieldTokens lib c.tokenizer (get? body (py "instructions")) +
      fieldTokens lib c.tokenizer (get? body (py "input")))
  | .embeddings => countEmbeddingInput lib.encode c.tokenizer (get? body (py "input"))

/-- The output limit that the request asks for. -/
def outputLimit : ℤ :=
  (requestedMaxTokens lib.decimal (filledBody c body)).join.getD 0

/-- Whatever the state of the registries, a backend that is attempted has room for the whole input and
the output. -/
def Endpoint.RespectsContext (now : Moment) : Prop :=
  ∀ (r : Registry) (s : Breaker) (clock : ℕ → ℚ) (hclock : Monotone clock),
    ∀ e ∈ ep.attempted lib c body conversation now (answersAt r s clock hclock), ∀ whole length,
      ep.tokensIn lib c body = some whole →
      attrInt e.backend.fields (py "context_length") = some length →
      whole + outputLimit lib c body ≤ length

/-- The length is too short for the request and passes the check of the endpoint all the same: there is
no check without an estimate, on the responses endpoint the estimate is that of the messages, and on
the embeddings endpoint it is compared without the output. -/
def Endpoint.Misjudges (whole : ℕ) (length : ℤ) : Prop :=
  length < whole + outputLimit lib c body ∧
    match ep with
    | .chat => inputEstimateNeeded (modelCfg c body) (useCache c body) = false
    | .responses => ∀ n, countMessages lib.encode c.tokenizer (get? body (py "messages")) = some n →
      n + outputLimit lib c body ≤ length
    | .embeddings => whole ≤ length

variable {ep lib c body conversation}

/-- What an endpoint attempts is what its plan selects. -/
theorem Endpoint.attempted_eq {plan : Plan} (h : ep.plan lib c body conversation = some plan)
    (now : Moment) (A : Answers Entry) :
    ep.attempted lib c body conversation now A =
      ((plan.selection c now A).getD []).map SelectedBackend.entry := by
  unfold Endpoint.attempted
  rw [h]
  cases ep with
  | chat =>
    simp only
    rcases hs : (plan.selection c now A).getD [] with - | ⟨b, l⟩
    · have hnot : ∀ l, plan.resolve lib c now A ≠ .routed l := by
        intro l hl
        obtain ⟨hs', hl⟩ := (plan.resolve_eq_routed_iff c now lib).1 hl
        rw [hs'] at hs
        exact hl hs
      split
      · next l hl => exact absurd hl (hnot l)
      · rfl
    · have hsome : plan.selection c now A = some (b :: l) := by
        rcases hsel : plan.selection c now A with - | l'
        · rw [hsel] at hs
          cases hs
        · rw [hsel] at hs
          exact congrArg some hs
      rw [(plan.resolve_eq_routed_iff c now lib).2 ⟨hsome, List.cons_ne_nil _ _⟩]
  | responses => rfl
  | embeddings => rfl

/-- What an endpoint may attempt is within the reach of its plan. -/
theorem Endpoint.exists_attempted_iff {plan : Plan}
    (h : ep.plan lib c body conversation = some plan) (now : Moment) (e : Entry) :
    (∃ r s clock, ∃ hclock : Monotone clock,
      e ∈ ep.attempted lib c body conversation now (answersAt r s clock hclock)) ↔
      plan.Reaches c now e := by
  simp only [Endpoint.attempted_eq h]
  constructor
  · rintro ⟨r, s, clock, hclock, he⟩
    rcases hl : plan.selection c now (answersAt r s clock hclock) with - | l <;> rw [hl] at he
    · cases he
    · exact plan.reaches_of_mem c now hl he
  · intro hreaches
    obtain ⟨l, hl, he⟩ := plan.mem_of_reaches c now hreaches .empty .initial 0
    exact ⟨.empty, .initial, fun _ ↦ 0, monotone_const, by rw [hl]; exact he⟩

/-- A length that the router lets pass is misjudged exactly if it is too short. -/
theorem Endpoint.misjudges_iff {plan : Plan} (h : ep.plan lib c body conversation = some plan)
    {now : Moment} {e : Entry} (he : plan.Reaches c now e) {whole : ℕ} {length : ℤ}
    (hwhole : ep.tokensIn lib c body = some whole)
    (hlength : attrInt e.backend.fields (py "context_length") = some length) :
    ep.Misjudges lib c body whole length ↔ length < whole + outputLimit lib c body := by
  refine and_iff_left_of_imp fun hshort ↦ ?_
  have hmessages : get? (filledBody c body) (py "messages") = get? body (py "messages") :=
    get?_applyDefaultParams _ _ (by decide)
  cases ep with
  | chat =>
    obtain ⟨maxTokens, hmax, rfl⟩ := Option.map_eq_some_iff.1 h
    by_contra hneeded
    have hinput : chatInputTokens lib c body = some whole := by
      rw [chatInputTokens, if_pos (by simpa using hneeded), estimateInputTokens, hmessages]
      exact hwhole
    have hfits := Plan.fits_of_reaches _ c now he (congrArg (Option.map _) hinput) hlength
    rw [outputLimit, hmax] at hshort
    exact absurd hfits (not_le.2 hshort)
  | responses =>
    obtain ⟨-, hplan⟩ := Option.ite_none_right_eq_some.1 h
    obtain ⟨maxTokens, hmax, rfl⟩ := Option.map_eq_some_iff.1 hplan
    intro n hn
    have hinput : estimateInputTokens lib c body = some n := by
      rw [estimateInputTokens, hmessages]
      exact hn
    have hfits := Plan.fits_of_reaches _ c now he (congrArg (Option.map _) hinput) hlength
    rw [outputLimit, hmax]
    exact hfits
  | embeddings =>
    obtain ⟨-, hplan⟩ := Option.ite_none_right_eq_some.1 h
    obtain rfl := Option.some.inj hplan
    have hfits := Plan.fits_of_reaches _ c now he (congrArg (Option.map _) hwhole) hlength
    exact (add_zero (whole : ℤ)).symm.trans_le hfits

variable (ep lib c body conversation)

/-- **The context capacity is respected exactly if no backend within reach has a length that the
endpoint misjudges.** -/
theorem respectsContext_iff (now : Moment) :
    ep.RespectsContext lib c body conversation now ↔
      ∀ plan, ep.plan lib c body conversation = some plan → ∀ e, plan.Reaches c now e →
        ∀ whole length, ep.tokensIn lib c body = some whole →
          attrInt e.backend.fields (py "context_length") = some length →
          ¬ ep.Misjudges lib c body whole length := by
  constructor
  · intro h plan hplan e he whole length hwhole hlength
    rw [Endpoint.misjudges_iff hplan he hwhole hlength, not_lt]
    obtain ⟨r, s, clock, hclock, hattempted⟩ := (Endpoint.exists_attempted_iff hplan now e).2 he
    exact h r s clock hclock e hattempted whole length hwhole hlength
  · intro h r s clock hclock e hattempted whole length hwhole hlength
    rcases hplan : ep.plan lib c body conversation with - | plan
    · rw [Endpoint.attempted, hplan] at hattempted
      cases hattempted
    · have he := (Endpoint.exists_attempted_iff hplan now e).1 ⟨r, s, clock, hclock, hattempted⟩
      have hjudged := h plan hplan e he whole length hwhole hlength
      rwa [Endpoint.misjudges_iff hplan he hwhole hlength, not_lt] at hjudged

/-- If the logical model is there, it is the id of the model that the request means. -/
theorem modelCfg_of_logicalModel {c : GatewayConfig} {body : PyDict} {id : PyStr} {m : ModelConfig}
    (hid : logicalModel c body = .str id) (hm : c.modelById id = some m) :
    ∃ m', modelCfg c body = some m' ∧ m'.id = id := by
  unfold logicalModel at hid
  rcases hcfg : modelCfg c body with - | m' <;> rw [hcfg] at hid <;> simp only at hid
  · rw [modelCfg, hid, GatewayConfig.modelByValue, hm] at hcfg
    cases hcfg
  · exact ⟨m', rfl, Json.str.inj hid⟩

/-- On the chat endpoint the context capacity is respected if the model of a request is the one that its
id stands for. -/
theorem chat_respectsContext (now : Moment)
    (hids : ∀ m, modelCfg c body = some m → c.modelById m.id = some m) :
    Endpoint.chat.RespectsContext lib c body conversation now := by
  refine (respectsContext_iff ..).2 fun plan hplan e he whole length _ hlength hjudged ↦ ?_
  obtain ⟨id, es, hmodel, hes, -, hmem, -⟩ := he
  obtain ⟨m, slot, hm, -, -, hserves⟩ := (mem_candidates_iff c now plan.prefs id _ hes e).1 hmem
  have hcfg : modelCfg c body = some m := by
    obtain ⟨maxTokens, -, rfl⟩ := Option.map_eq_some_iff.1 hplan
    obtain ⟨m', hcfg, rfl⟩ := modelCfg_of_logicalModel hmodel hm
    rw [hcfg, ← hm, hids m' hcfg]
  have hneeded : inputEstimateNeeded (modelCfg c body) (useCache c body) = true := by
    rw [inputEstimateNeeded, hcfg, Bool.or_eq_true, Option.any_some, List.any_eq_true]
    refine .inr ⟨e.backend, List.mem_of_getElem? hserves.configured, ?_⟩
    rw [hserves.enabled, hlength]
    rfl
  exact absurd hjudged.2 (by simp only [hneeded]; decide)

end Endpoints

/-- A backend with a context of four tokens. -/
def smallBackend : BackendConfig :=
  ⟨1, setKey (plainBackend (py "a") 1).fields (py "context_length") (.int 4)⟩

/-- A responses model whose only backend it is. -/
def shortContext : GatewayConfig :=
  { GatewayConfig.empty with
    providers := [plainProvider (py "a")]
    models := [⟨py "m", [smallBackend], .empty,
      setKey (defaultFields modelClass.specs) (py "endpoint") (.str (py "responses"))⟩] }

/-- Primitives to run the model with. -/
def plainPrimitives : Primitives where
  encode _ := none
  decimal := asciiDecimal
  str _ := []
  sha1 b := b

/-- A request for the model whose input is of ten tokens, by the heuristic. -/
def longInput : PyDict :=
  [(py "model", .str (py "m")), (py "input", .str (py "summarise all of this for me, if you will."))]

/-- It is sent to the backend: the estimate is that of its messages, of which it has none. -/
theorem not_respectsContext_longInput :
    ¬ Endpoint.responses.RespectsContext plainPrimitives shortContext longInput none quietMoment :=
  fun h ↦ absurd
    (h .empty .initial (fun _ ↦ 0) monotone_const ⟨0, plainProvider (py "a"), smallBackend⟩
      (by decide +kernel) 10 4 (by decide +kernel) (by decide +kernel))
    (by decide +kernel)

end LocalGateway
