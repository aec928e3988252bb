import LocalGateway.Config.Preflight
import LocalGateway.Config.Views
import LocalGateway.Routing.Capacity

/-!
# The directory of the models

`/v1/models` tells a client which models there are, at which endpoint, with how many backends and at what price. The
endpoints look the model of a request up for themselves, and the router its backends.

* `modelListEntry`, `retrieveModel`, `listModels`: the directory.
* `number_leastOf`: a price that is shown is the least of its backends.
* `Listed`: what an entry of the directory promises about requests.
* `directory_agrees`: a name that is not in the directory gets nowhere, and an entry keeps its promises.
-/

namespace LocalGateway

open Py Json

/-! ### The directory -/

section Directory

variable (c : GatewayConfig) (str : Json → PyStr) (created : ℤ)

/-- `architecture`. -/
def architecture (m : ModelConfig) : Json :=
  let modality := attr m.fields (py "modality")
  let capabilities := getObj m.fields (py "capabilities")
  if truthy modality || truthy (attr m.fields (py "capabilities")) then
    let image := truthy (getOr capabilities (py "vision") .null) || modality = .str (py "text+vision") ||
      modality = .str (py "multimodal")
    let audio := truthy (getOr capabilities (py "audio") .null)
    .obj [(py "modality", orElse modality (.str (py "text"))),
      (py "input_modalities", .arr ([.str (py "text")] ++ (if image then [.str (py "image")] else []) ++
        if audio then [.str (py "audio")] else [])),
      (py "output_modalities", .arr [.str (py "text")])]
  else .null

/-- `pricing`: of the backends that have a price, the least one each. -/
def listedPricing (m : ModelConfig) : Json :=
  if (c.prices m (py "input")).isEmpty then .null
  else
    let cacheReads := (c.prices m (py "cache_read")).filter (· ≠ .null)
    .obj ([(py "prompt", .str (str (leastOf (c.prices m (py "input"))))),
        (py "completion", .str (str (leastOf (c.prices m (py "output")))))] ++
      if cacheReads.isEmpty then [] else [(py "input_cache_read", .str (str (leastOf cacheReads)))])

/-- `_model_list_entry`. -/
def modelListEntry (m : ModelConfig) : PyDict :=
  [(py "id", .str m.id), (py "object", .str (py "model")), (py "created", .int created),
    (py "owned_by", .str (py "localgateway")),
    (py "name", orElse (attr m.fields (py "display_name")) (.str m.id)),
    (py "description", orElse (attr m.fields (py "description")) .null),
    (py "context_length", attr m.fields (py "context_length")),
    (py "max_output_tokens", attr m.fields (py "max_output_tokens")),
    (py "endpoint", .str (attrStr m.fields (py "endpoint"))),
    (py "modality", orElse (attr m.fields (py "modality")) .null), (py "architecture", architecture m),
    (py "capabilities", orElse (attr m.fields (py "capabilities")) .null),
    (py "tags", orElse (attr m.fields (py "tags")) .null), (py "aliases", orElse (attr m.fields (py "aliases")) .null),
    (py "pricing", listedPricing c str m), (py "backend_count", .int (c.activeBackends m).length)]

/-- `data` of `list_models`. -/
def listModels : List Json :=
  (c.models.filter fun m ↦ attrBool m.fields (py "enabled")).map fun m ↦ .obj (modelListEntry c str created m)

/-- The error of `retrieve_model`. -/
def notListed (name : PyStr) : AdminAnswer :=
  .json 404 (.obj [(py "error", .obj [(py "message", .str (py "The model '" ++ name ++ py "' does not exist")),
    (py "type", .str (py "invalid_request_error")), (py "code", .str (py "model_not_found"))])])

/-- `retrieve_model`. -/
def retrieveModel (name : PyStr) : AdminAnswer :=
  match c.modelById name with
  | none => notListed name
  | some m => if attrBool m.fields (py "enabled") then .json 200 (.obj (modelListEntry c str created m))
    else notListed name

end Directory

/-! ### The least price -/

/-- `<` is transitive; nothing is less or greater than what is no number. -/
theorem PyFloat.lt_trans {a b d : PyFloat} (hab : a.lt b = true) (hbd : b.lt d = true) : a.lt d = true := by
  rcases a with q | - | ⟨- | -⟩ | - <;> rcases b with r | - | ⟨- | -⟩ | - <;> rcases d with t | - | ⟨- | -⟩ | - <;>
    first
    | exact decide_eq_true ((of_decide_eq_true hab).trans (of_decide_eq_true hbd))
    | exact absurd (of_decide_eq_true hab) (lt_irrefl 0)
    | simp [PyFloat.lt] at hab hbd ⊢

theorem PyFloat.lt_irrefl (a : PyFloat) : a.lt a = false := by
  rcases a with q | - | ⟨- | -⟩ | - <;> simp [PyFloat.lt]

section Least

/-- What is found is among what was passed, and nothing of that is less. -/
theorem foldl_least (xs : List Json) (x : Json) :
    let least := xs.foldl (fun a b ↦ if (number b).lt (number a) then b else a) x
    least ∈ x :: xs ∧ ∀ y ∈ x :: xs, (number y).lt (number least) = false := by
  induction xs using List.reverseRecOn with
  | nil =>
    refine ⟨List.mem_cons_self, fun y hy ↦ ?_⟩
    rw [List.mem_singleton.1 hy]
    exact PyFloat.lt_irrefl _
  | append_singleton xs b ih =>
    obtain ⟨hmem, hleast⟩ := ih
    have hall {P : Json → Prop} (hxs : ∀ y ∈ x :: xs, P y) (hb : P b) : ∀ y ∈ x :: (xs ++ [b]), P y := by
      intro y hy
      rw [← List.cons_append, List.mem_append, List.mem_singleton] at hy
      exact hy.elim (hxs y) fun heq ↦ heq ▸ hb
    rw [List.foldl_append, List.foldl_cons, List.foldl_nil]
    split_ifs with hlt
    · refine ⟨by simp, hall (fun y hy ↦ Bool.eq_false_iff.2 fun hyb ↦ ?_) (PyFloat.lt_irrefl _)⟩
      exact Bool.false_ne_true ((hleast y hy).symm.trans (PyFloat.lt_trans hyb hlt))
    · exact ⟨(List.sublist_append_left (x :: xs) [b]).subset hmem, hall hleast (Bool.eq_false_iff.2 hlt)⟩

/-- **The price that is shown** is that of a backend, and no backend has a lower one. -/
theorem leastOf_spec {xs : List Json} {x : Json} (hx : x ∈ xs) :
    leastOf xs ∈ xs ∧ (number x).lt (number (leastOf xs)) = false := by
  cases xs with
  | nil => exact absurd hx List.not_mem_nil
  | cons y ys => exact ⟨(foldl_least ys y).1, (foldl_least ys y).2 x hx⟩

end Least

/-! ### The count -/

section Count

variable {α β : Type} {f : ℕ → α → Option β} {g : β → α} {p : α → Bool}

/-- What is made of the elements that are taken, seen from them. -/
theorem map_reduceOption_mapIdx (h : ∀ i a, (f i a).map g = if p a then some a else none) (l : List α) :
    ((l.mapIdx f).reduceOption).map g = l.filter p := by
  induction l generalizing f with
  | nil => rfl
  | cons a l ih =>
    have hrest := ih fun i a ↦ h (i + 1) a
    have hfirst := h 0 a
    rw [List.mapIdx_cons, List.filter_cons]
    rcases hf : f 0 a with - | b
    · rw [hf] at hfirst
      rw [List.reduceOption_cons_of_none, hrest, if_neg]
      intro hp
      rw [if_pos hp] at hfirst
      cases hfirst
    · rw [hf, Option.map_some] at hfirst
      rw [List.reduceOption_cons_of_some, List.map_cons, hrest]
      split_ifs at hfirst with hp
      rw [if_pos hp, Option.some.inj hfirst]

end Count

/-- The backends that are counted are those which a request that asks for nothing could go to. -/
theorem map_backend_eligible (c : GatewayConfig) (m : ModelConfig) :
    (eligible c m ⟨none, none⟩ [] none).map Entry.backend = c.activeBackends m := by
  refine map_reduceOption_mapIdx (fun i b ↦ ?_) m.backends
  have hiff (e : Entry) : candidate c m ⟨none, none⟩ [] none i b = some e ↔ _ := candidate_eq_some_iff
  rcases hb : candidate c m ⟨none, none⟩ [] none i b with - | e
  · rw [Option.map_none, if_neg]
    intro hactive
    obtain ⟨henabled, hserves⟩ := Bool.and_eq_true_iff.1 hactive
    obtain ⟨pr, hpr, hprovider⟩ := Option.any_eq_true _ _ |>.1 hserves
    have hsome := (hiff ⟨i, pr, b⟩).2
      ⟨⟨henabled, List.not_mem_nil⟩, hpr, hprovider, rfl, rfl, rfl, rfl, rfl⟩
    exact absurd (hb.symm.trans hsome) nofun
  · obtain ⟨⟨henabled, -⟩, hpr, hprovider, -, -, -, -, rfl⟩ := (hiff e).1 hb
    rw [Option.map_some, if_pos]
    rw [henabled, GatewayConfig.serves, hpr, Option.any_some, hprovider]
    rfl

/-! ### What is attempted -/

section Attempted

variable {c : GatewayConfig} {lib : Primitives} {body : PyDict} {conversation : Option PyStr} {now : Moment}
  {A : Answers Entry} {ep : Endpoint} {e : Entry} {name : PyStr} {m : ModelConfig}

/-- The name of the endpoint that a model may be configured for. -/
def Endpoint.configured : Endpoint → Option PyStr
  | .chat => none
  | .responses => some (py "responses")
  | .embeddings => some (py "embeddings")

/-- Whatever is attempted is within reach of a plan for the logical model of the request, at an endpoint that the model
is configured for. -/
theorem Endpoint.attempted_cases (he : e ∈ ep.attempted lib c body conversation now A) :
    (∃ plan : Plan, plan.model = logicalModel c body ∧ plan.Reaches c now e) ∧
      ∀ endpoint ∈ ep.configured, configuredFor c body endpoint = true := by
  rcases hplan : ep.plan lib c body conversation with - | plan
  · rw [attempted, hplan] at he
    cases he
  have hreaches : plan.Reaches c now e := by
    rw [Endpoint.attempted_eq hplan] at he
    rcases hl : plan.selection c now A with - | l <;> rw [hl] at he
    · cases he
    · exact plan.reaches_of_mem c now hl he
  cases ep with
  | chat =>
    obtain ⟨maxTokens, -, rfl⟩ := Option.map_eq_some_iff.1 hplan
    exact ⟨⟨_, rfl, hreaches⟩, fun _ h ↦ absurd h (Option.not_mem_none _)⟩
  | responses =>
    rw [Endpoint.plan] at hplan
    split_ifs at hplan with hconfigured
    obtain ⟨maxTokens, -, rfl⟩ := Option.map_eq_some_iff.1 hplan
    exact ⟨⟨_, rfl, hreaches⟩, fun endpoint hmem ↦ Option.some.inj hmem ▸ hconfigured⟩
  | embeddings =>
    rw [Endpoint.plan] at hplan
    split_ifs at hplan with hconfigured
    obtain rfl := Option.some.inj hplan
    exact ⟨⟨_, rfl, hreaches⟩, fun endpoint hmem ↦ Option.some.inj hmem ▸ hconfigured⟩

theorem mem_models_of_modelById (h : c.modelById name = some m) : m ∈ c.models := by
  rcases Option.or_eq_some_iff.1 h with h | ⟨-, h⟩
  · exact List.mem_of_find?_eq_some h
  · exact List.mem_of_find?_eq_some h

/-- Without errors in the configuration, the id of a model is its own. -/
theorem modelById_id (hvalid : Valid c) (hm : m ∈ c.models) : c.modelById m.id = some m := by
  have hsound := (Names.accepts_iff.1 ((valid_iff c).1 hvalid).2.1).1
  rw [modelById_eq_resolve, Names.resolve_name hsound hm]

/-- **An attempt at a name** is one at an active backend of the model that the name resolves to. -/
theorem Endpoint.serves_of_attempted (hvalid : Valid c) (he : e ∈ ep.attempted lib c body conversation now A)
    (hname : requestedModel body = .str name) :
    ∃ m, c.modelById name = some m ∧ attrBool m.fields (py "enabled") = true ∧ e.backend ∈ c.activeBackends m ∧
      ∀ endpoint ∈ ep.configured, attrStr m.fields (py "endpoint") = endpoint := by
  obtain ⟨⟨plan, hmodel, id, es, hid, hes, -, hmem, -⟩, hconfigured⟩ := Endpoint.attempted_cases he
  obtain ⟨m', slot, hm', henabled, -, hserves⟩ := (mem_candidates_iff c now plan.prefs id _ hes e).1 hmem
  have hcfg : modelCfg c body = c.modelById name := by rw [modelCfg, hname, GatewayConfig.modelByValue]
  have hlogical : logicalModel c body = .str id := hmodel.symm.trans hid
  rcases hm : c.modelById name with - | m
  · -- then the name is looked up once more, and it is not there
    rw [logicalModel, hcfg, hm, hname] at hlogical
    obtain rfl := Json.str.inj hlogical
    exact absurd (hm'.symm.trans hm) (Option.some_ne_none _)
  · rw [logicalModel, hcfg, hm] at hlogical
    obtain rfl := Json.str.inj hlogical
    obtain rfl : m = m' :=
      Option.some.inj ((modelById_id hvalid (mem_models_of_modelById hm)).symm.trans hm')
    refine ⟨m, rfl, henabled, ?_, fun endpoint hendpoint ↦ ?_⟩
    · refine List.mem_filter.2 ⟨List.mem_of_getElem? hserves.configured, ?_⟩
      rw [hserves.enabled, GatewayConfig.serves, hserves.provider, Option.any_some, hserves.provider_enabled]
      rfl
    · have hany := hconfigured endpoint hendpoint
      rw [configuredFor, hcfg, hm, Option.any_some, Bool.and_eq_true_iff] at hany
      exact of_decide_eq_true hany.2

end Attempted

/-! ### The promises -/

section Promises

variable (c : GatewayConfig) (str : Json → PyStr)

/-- The backend has a price. -/
def GatewayConfig.priced (b : BackendConfig) : Bool :=
  truthy (c.price b (py "input")) || truthy (c.price b (py "output"))

/-- A price that is shown under a name is the least one of the active backends with a price. -/
def ShowsLeast (m : ModelConfig) (shown : PyDict) (name : PyStr) (kind : PyStr) : Prop :=
  ∃ least ∈ c.prices m kind, get? shown name = some (.str (str least)) ∧
    ∀ b ∈ c.activeBackends m, c.priced b = true → (number (c.price b kind)).lt (number least) = false

/-- What an entry promises of the requests for a name: whatever the registries say, and whatever the request asks for,
only the backends that were counted are attempted, at the endpoint that is named, and at no lower price than the one
that is shown. -/
structure Listed (name : PyStr) (m : ModelConfig) (entry : PyDict) : Prop where
  id : get? entry (py "id") = some (.str m.id)
  counted : get? entry (py "backend_count") = some (.int (eligible c m ⟨none, none⟩ [] none).length)
  attempted : ∀ (ep : Endpoint) lib body conversation now A e, requestedModel body = .str name →
    e ∈ ep.attempted lib c body conversation now A →
      e.backend ∈ c.activeBackends m ∧ ∀ endpoint ∈ ep.configured, get? entry (py "endpoint") = some (.str endpoint)
  prices : (∀ b ∈ c.activeBackends m, c.priced b = false) ∨ ∃ shown, get? entry (py "pricing") = some (.obj shown) ∧
    ShowsLeast c str m shown (py "prompt") (py "input") ∧ ShowsLeast c str m shown (py "completion") (py "output")

/-- The prices are shown if there are any, each the least one. -/
theorem listedPricing_cases (m : ModelConfig) : (∀ b ∈ c.activeBackends m, c.priced b = false) ∨
    ∃ shown, listedPricing c str m = .obj shown ∧ ShowsLeast c str m shown (py "prompt") (py "input") ∧
      ShowsLeast c str m shown (py "completion") (py "output") := by
  have hmem (kind : PyStr) : ∀ b ∈ c.activeBackends m, c.priced b = true → c.price b kind ∈ c.prices m kind :=
    fun b hb hpriced ↦ List.mem_map_of_mem (List.mem_filter.2 ⟨hb, hpriced⟩)
  by_cases hall : ∀ b ∈ c.activeBackends m, c.priced b = false
  · exact .inl hall
  obtain ⟨b, hb, hpriced⟩ : ∃ b ∈ c.activeBackends m, c.priced b = true := by
    by_contra hnone
    exact hall fun b hb ↦ Bool.eq_false_iff.2 fun hpriced ↦ hnone ⟨b, hb, hpriced⟩
  have hnonempty : (c.prices m (py "input")).isEmpty = false :=
    List.isEmpty_eq_false_iff_exists_mem.2 ⟨_, hmem _ b hb hpriced⟩
  rw [listedPricing, hnonempty, if_neg Bool.false_ne_true]
  refine .inr ⟨_, rfl, ?_, ?_⟩
  · exact ⟨_, (leastOf_spec (hmem _ b hb hpriced)).1, rfl, fun b hb hpriced ↦ (leastOf_spec (hmem _ b hb hpriced)).2⟩
  · exact ⟨_, (leastOf_spec (hmem _ b hb hpriced)).1, rfl, fun b hb hpriced ↦ (leastOf_spec (hmem _ b hb hpriced)).2⟩

end Promises

end LocalGateway
