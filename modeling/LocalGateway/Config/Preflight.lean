import LocalGateway.Foundations.Names
import LocalGateway.Routing.Candidates

/-!
# Preflight validation

`validate_config`, which goes over a configuration that has just been validated and lists what is
wrong with it. The model is of the whole list; what is proved is about its errors.

The part on names is one pass over the models (`nameIssues`), and `model_by_id` is the resolver that
goes with it, so both are instances of the library. A pass sees an alias that is the id of an earlier
model, but not one that is the id of a later model: `namesClear_iff` says for which configurations that
makes no difference.
-/

namespace LocalGateway

open Py Json

/-! ### Issues -/

/-- How bad an issue is. -/
inductive Severity
  | error
  | warning
deriving DecidableEq

/-- An entry of the list that `validate_config` returns. -/
structure Issue where
  severity : Severity
  code : PyStr
  path : PyStr
  message : PyStr
deriving DecidableEq

/-- `f"models[{m.id}]"`. -/
def ModelConfig.path (m : ModelConfig) : PyStr :=
  py "models[" ++ m.id ++ py "]"

/-- `f"providers[{p.id}]"`. -/
def ProviderConfig.path (pr : ProviderConfig) : PyStr :=
  py "providers[" ++ pr.id ++ py "]"

/-- A string. -/
def asStr : Json → Option PyStr
  | .str s => some s
  | _ => none

/-- `m.aliases`, the strings they are once validated. -/
def ModelConfig.aliases (m : ModelConfig) : List PyStr :=
  (attrList m.fields (py "aliases")).filterMap asStr

/-! ### Duplicates -/

/-- The loop over the providers. -/
def providerIssues : List PyStr → List ProviderConfig → List Issue
  | _, [] => []
  | seen, pr :: prs =>
    (if pr.id ∈ seen then
      [⟨.error, py "duplicate_provider_id", pr.path, py "Duplicate provider id '" ++ pr.id ++ py "'"⟩]
    else []) ++ providerIssues (pr.id :: seen) prs

/-- The loop over the aliases of a model. -/
def aliasIssues (m : ModelConfig) (mids : List PyStr) : List PyStr → List PyStr → List Issue
  | _, [] => []
  | seen, a :: as =>
    (if a ∈ mids ∨ a ∈ seen then
      [⟨.error, py "alias_collision", m.path ++ py ".aliases",
        py "Alias '" ++ a ++ py "' collides with another model id or alias"⟩]
    else []) ++ aliasIssues m mids (a :: seen) as

/-- The loop over the models; `seen` are the keys of `all_aliases`. -/
def nameIssues : List PyStr → List PyStr → List ModelConfig → List Issue
  | _, _, [] => []
  | mids, seen, m :: ms =>
    (if m.id ∈ mids then
      [⟨.error, py "duplicate_model_id", m.path, py "Duplicate model id '" ++ m.id ++ py "'"⟩]
    else []) ++ aliasIssues m (m.id :: mids) seen m.aliases ++
      nameIssues (m.id :: mids) (m.aliases ++ seen) ms

/-! ### Backends -/

/-- A loop over the backends of all models, with the message for those that have an issue. -/
def backendIssues (severity : Severity) (code : PyStr)
    (message : ModelConfig → BackendConfig → Option PyStr) (ms : List ModelConfig) : List Issue :=
  ms.flatMap fun m ↦ m.backends.zipIdx.filterMap fun e ↦
    (message m e.1).map fun text ↦
      ⟨severity, code, m.path ++ py ".backends[" ++ natRepr e.2 ++ py "]", text⟩

/-- A backend whose provider is missing. -/
def orphanIssues (c : GatewayConfig) : List Issue :=
  backendIssues .error (py "orphan_backend") (fun _ b ↦
    if b.provider ∈ c.providers.map (·.id) then none
    else some (py "Backend references unknown provider '" ++ b.provider ++ py "'")) c.models

/-- `pid_enabled`, where the last provider of an id counts. -/
def pidEnabled (c : GatewayConfig) (id : PyStr) : Option Bool :=
  (c.providers.reverse.find? (·.id = id)).map fun pr ↦ attrBool pr.attrs.fields (py "enabled")

/-- An enabled backend whose provider is disabled. -/
def disabledIssues (c : GatewayConfig) : List Issue :=
  backendIssues .warning (py "disabled_provider_referenced") (fun _ b ↦
    if attrBool b.fields (py "enabled") ∧ pidEnabled c b.provider = some false then
      some (py "Backend references disabled provider '" ++ b.provider ++ py "'")
    else none) c.models

/-- A backend without prices. -/
def pricingIssues (c : GatewayConfig) : List Issue :=
  backendIssues .warning (py "pricing_gap") (fun _ b ↦
    if (c.pricing.lookup (backendKey b.provider b.model)).isSome then none
    else some (py "No pricing for '" ++ backendKey b.provider b.model ++
      py "' — cost tracking will show $0")) c.models

/-- `n or m` of optional numbers. -/
def orLength (n m : Option ℤ) : Option ℤ :=
  if n = none ∨ n = some 0 then m else n

/-- An output cap above the context. -/
def contextIssues (c : GatewayConfig) : List Issue :=
  backendIssues .warning (py "mot_exceeds_context") (fun m b ↦
    match attrInt m.fields (py "max_output_tokens"),
        orLength (attrInt b.fields (py "context_length")) (attrInt m.fields (py "context_length")) with
    | some mot, some ctx =>
      if mot ≠ 0 ∧ ctx ≠ 0 ∧ mot > ctx then
        some (py "max_output_tokens (" ++ intRepr mot ++ py ") exceeds context_length (" ++
          intRepr ctx ++ py ")")
      else none
    | _, _ => none) c.models

/-! ### Keys -/

/-- The key of a provider. `encode("ascii")` fails beyond the first 128 code points. -/
def keyIssue (pr : ProviderConfig) : Option Issue :=
  if pr.apiKey = .str redactedKey then
    some ⟨.error, py "placeholder_key", pr.path ++ py ".api_key",
      py "Provider '" ++ pr.id ++ py "' has the redacted placeholder key — re-enter the real key"⟩
  else
    match pr.apiKey with
    | .str key =>
      if key.all (· < 128) then none
      else some ⟨.error, py "non_ascii_key", pr.path ++ py ".api_key",
        py "Provider '" ++ pr.id ++ py "' key contains non-ASCII characters (likely corrupted)"⟩
    | _ => none

/-- Models without backends. -/
def emptyIssues (c : GatewayConfig) : List Issue :=
  (c.models.filter (·.backends.isEmpty)).map fun m ↦
    ⟨.warning, py "model_no_backends", m.path, py "Model '" ++ m.id ++ py "' has no backends"⟩

/-- `validate_config`. -/
def validateConfig (c : GatewayConfig) : List Issue :=
  providerIssues [] c.providers ++ nameIssues [] [] c.models ++ orphanIssues c ++
    c.providers.filterMap keyIssue ++ emptyIssues c ++ disabledIssues c ++ pricingIssues c ++
    contextIssues c

/-- The configuration has no errors. -/
def Valid (c : GatewayConfig) : Prop :=
  ∀ i ∈ validateConfig c, i.severity ≠ .error

instance (c : GatewayConfig) : Decidable (Valid c) :=
  inferInstanceAs (Decidable (∀ i ∈ validateConfig c, _))

/-- The errors that are about the names of models. -/
def nameErrors (c : GatewayConfig) : List Issue :=
  (validateConfig c).filter fun i ↦
    i.code = py "duplicate_model_id" ∨ i.code = py "alias_collision"

/-! ### What the loops report -/

section Loops

variable {c : GatewayConfig}

theorem mem_backendIssues {severity : Severity} {code : PyStr}
    {message : ModelConfig → BackendConfig → Option PyStr} {ms : List ModelConfig} {i : Issue}
    (h : i ∈ backendIssues severity code message ms) : i.severity = severity ∧ i.code = code := by
  obtain ⟨m, -, hi⟩ := List.mem_flatMap.1 h
  obtain ⟨e, -, hi⟩ := List.mem_filterMap.1 hi
  obtain ⟨text, -, rfl⟩ := Option.map_eq_some_iff.1 hi
  exact ⟨rfl, rfl⟩

theorem providerIssues_error {seen : List PyStr} {prs : List ProviderConfig} {i : Issue}
    (h : i ∈ providerIssues seen prs) :
    i.severity = .error ∧ i.code = py "duplicate_provider_id" := by
  induction prs generalizing seen with
  | nil => cases h
  | cons pr prs ih =>
    rcases List.mem_append.1 h with h | h
    · split_ifs at h
      · rw [List.mem_singleton.1 h]
        exact ⟨rfl, rfl⟩
      · cases h
    · exact ih h

theorem keyIssue_error {pr : ProviderConfig} {i : Issue} (h : keyIssue pr = some i) :
    i.severity = .error ∧ (i.code = py "placeholder_key" ∨ i.code = py "non_ascii_key") := by
  unfold keyIssue at h
  split_ifs at h
  · obtain rfl := Option.some.inj h
    exact ⟨rfl, .inl rfl⟩
  · split at h
    · split_ifs at h
      obtain rfl := Option.some.inj h
      exact ⟨rfl, .inr rfl⟩
    · cases h

theorem aliasIssues_error {m : ModelConfig} {mids seen as : List PyStr} {i : Issue}
    (h : i ∈ aliasIssues m mids seen as) : i.severity = .error ∧ i.code = py "alias_collision" := by
  induction as generalizing seen with
  | nil => cases h
  | cons a as ih =>
    rcases List.mem_append.1 h with h | h
    · split_ifs at h
      · rw [List.mem_singleton.1 h]
        exact ⟨rfl, rfl⟩
      · cases h
    · exact ih h

theorem nameIssues_error {mids seen : List PyStr} {ms : List ModelConfig} {i : Issue}
    (h : i ∈ nameIssues mids seen ms) :
    i.severity = .error ∧ (i.code = py "duplicate_model_id" ∨ i.code = py "alias_collision") := by
  induction ms generalizing mids seen with
  | nil => cases h
  | cons m ms ih =>
    rcases List.mem_append.1 h with h | h
    · rcases List.mem_append.1 h with h | h
      · split_ifs at h
        · rw [List.mem_singleton.1 h]
          exact ⟨rfl, .inl rfl⟩
        · cases h
      · exact (aliasIssues_error h).imp_right .inr
    · exact ih h

/-- The errors about names are those of the loop over the models. -/
theorem nameErrors_eq (c : GatewayConfig) : nameErrors c = nameIssues [] [] c.models := by
  have hother : ∀ l : List Issue, (∀ i ∈ l, i.code ≠ py "duplicate_model_id" ∧
      i.code ≠ py "alias_collision") → l.filter (fun i ↦
        i.code = py "duplicate_model_id" ∨ i.code = py "alias_collision") = [] := by
    intro l h
    rw [List.filter_eq_nil_iff]
    intro i hi
    simpa using h i hi
  have hbackend : ∀ {severity code message}, code ≠ py "duplicate_model_id" →
      code ≠ py "alias_collision" →
      ∀ i ∈ backendIssues severity code message c.models, i.code ≠ py "duplicate_model_id" ∧
        i.code ≠ py "alias_collision" := fun h₁ h₂ i hi ↦ by
    rw [(mem_backendIssues hi).2]
    exact ⟨h₁, h₂⟩
  have hnames : (nameIssues [] [] c.models).filter (fun i ↦
      i.code = py "duplicate_model_id" ∨ i.code = py "alias_collision") = nameIssues [] [] c.models :=
    List.filter_eq_self.2 fun i hi ↦ by simpa using (nameIssues_error hi).2
  unfold nameErrors validateConfig
  simp only [List.filter_append]
  rw [hnames, hother (providerIssues [] c.providers) ?_, hother (orphanIssues c) ?_,
    hother (c.providers.filterMap keyIssue) ?_, hother (emptyIssues c) ?_,
    hother (disabledIssues c) ?_, hother (pricingIssues c) ?_, hother (contextIssues c) ?_]
  · simp
  · exact hbackend (by decide) (by decide)
  · exact hbackend (by decide) (by decide)
  · exact hbackend (by decide) (by decide)
  · intro i hi
    obtain ⟨m, -, rfl⟩ := List.mem_map.1 hi
    show py "model_no_backends" ≠ _ ∧ py "model_no_backends" ≠ _
    exact ⟨by decide, by decide⟩
  · intro i hi
    obtain ⟨pr, -, hi⟩ := List.mem_filterMap.1 hi
    rcases (keyIssue_error hi).2 with h | h <;> rw [h] <;> exact ⟨by decide, by decide⟩
  · exact hbackend (by decide) (by decide)
  · intro i hi
    rw [(providerIssues_error hi).2]
    exact ⟨by decide, by decide⟩

theorem aliasIssues_eq_nil_iff {m : ModelConfig} {mids seen as : List PyStr} :
    aliasIssues m mids seen as = [] ↔ Names.aliasesNew mids seen as = true := by
  induction as generalizing seen with
  | nil => simp [aliasIssues, Names.aliasesNew]
  | cons a as ih =>
    rw [aliasIssues, Names.aliasesNew_cons, List.append_eq_nil_iff, ih]
    refine and_congr_left' ?_
    split_ifs with h
    · exact iff_of_false (by simp) (by tauto)
    · exact iff_of_true rfl (by tauto)

/-- The loop over the models is the library's pass. -/
theorem nameIssues_eq_nil_iff {mids seen : List PyStr} {ms : List ModelConfig} :
    nameIssues mids seen ms = [] ↔
      Names.accepts ModelConfig.id ModelConfig.aliases mids seen ms = true := by
  induction ms generalizing mids seen with
  | nil => simp [nameIssues, Names.accepts]
  | cons m ms ih =>
    rw [nameIssues, Names.accepts_cons, List.append_eq_nil_iff, List.append_eq_nil_iff, ih,
      aliasIssues_eq_nil_iff]
    refine and_congr_left' (and_congr_left' ?_)
    split_ifs with h
    · exact iff_of_false (by simp) (not_not.2 h)
    · exact iff_of_true rfl h

theorem providerIssues_eq_nil_iff {seen : List PyStr} {prs : List ProviderConfig} :
    providerIssues seen prs = [] ↔ (prs.map (·.id)).Nodup ∧ ∀ pr ∈ prs, pr.id ∉ seen := by
  induction prs generalizing seen with
  | nil => simp [providerIssues]
  | cons pr prs ih =>
    rw [providerIssues, List.append_eq_nil_iff, ih, List.map_cons, List.nodup_cons,
      List.forall_mem_cons]
    have hif : (if pr.id ∈ seen then
        [(⟨.error, py "duplicate_provider_id", pr.path,
          py "Duplicate provider id '" ++ pr.id ++ py "'"⟩ : Issue)] else []) = [] ↔ pr.id ∉ seen := by
      split_ifs with h <;> simp [h]
    rw [hif]
    simp only [List.mem_map, List.mem_cons, not_or, not_exists, not_and]
    constructor
    · rintro ⟨hpr, hnodup, hprs⟩
      exact ⟨⟨fun q hq ↦ (hprs q hq).1, hnodup⟩, hpr, fun q hq ↦ (hprs q hq).2⟩
    · rintro ⟨⟨hnew, hnodup⟩, hpr, hprs⟩
      exact ⟨hpr, hnodup, fun q hq ↦ ⟨hnew q hq, hprs q hq⟩⟩

theorem orphanIssues_eq_nil_iff :
    orphanIssues c = [] ↔
      ∀ m ∈ c.models, ∀ b ∈ m.backends, b.provider ∈ c.providers.map (·.id) := by
  have hmessage : ∀ b : BackendConfig, (if b.provider ∈ c.providers.map (·.id) then none
      else some (py "Backend references unknown provider '" ++ b.provider ++ py "'")) = none ↔
        b.provider ∈ c.providers.map (·.id) := fun b ↦ by
    split_ifs with h
    · exact iff_of_true rfl h
    · exact iff_of_false nofun h
  unfold orphanIssues backendIssues
  rw [List.flatMap_eq_nil_iff]
  refine forall₂_congr fun m _ ↦ ?_
  rw [List.filterMap_eq_nil_iff]
  simp only [Option.map_eq_none_iff, hmessage]
  constructor
  · intro h b hb
    obtain ⟨i, hi, rfl⟩ := List.getElem_of_mem hb
    exact h (m.backends[i], i) (List.mk_mem_zipIdx_iff_getElem?.2 (List.getElem?_eq_getElem hi))
  · exact fun h e he ↦ h e.1 (List.fst_mem_of_mem_zipIdx he)

theorem keyIssue_eq_none_iff {pr : ProviderConfig} :
    keyIssue pr = none ↔ pr.apiKey ≠ .str redactedKey ∧
      ∀ key, pr.apiKey = .str key → ∀ x ∈ key, x < 128 := by
  unfold keyIssue
  split_ifs with hkey
  · exact iff_of_false nofun fun h ↦ h.1 hkey
  · split
    · rename_i key heq
      split_ifs with hascii
      · refine iff_of_true rfl ⟨hkey, fun key' h x hx ↦ ?_⟩
        obtain rfl := Json.str.inj (heq.symm.trans h)
        simpa using List.all_eq_true.1 hascii x hx
      · exact iff_of_false nofun fun h ↦ hascii (by simpa using h.2 key heq)
    · rename_i hnot
      exact iff_of_true rfl ⟨hkey, fun key h ↦ absurd h (hnot key)⟩

/-- **What it means to have no errors.** -/
theorem valid_iff (c : GatewayConfig) :
    Valid c ↔ (c.providers.map (·.id)).Nodup ∧
      Names.accepts ModelConfig.id ModelConfig.aliases [] [] c.models = true ∧
      (∀ m ∈ c.models, ∀ b ∈ m.backends, b.provider ∈ c.providers.map (·.id)) ∧
      ∀ pr ∈ c.providers, pr.apiKey ≠ .str redactedKey ∧
        ∀ key, pr.apiKey = .str key → ∀ x ∈ key, x < 128 := by
  have herrors : ∀ {l : List Issue}, (∀ i ∈ l, i.severity = .error) →
      ((∀ i ∈ l, i.severity ≠ .error) ↔ l = []) := fun {l} hl ↦ by
    rw [List.eq_nil_iff_forall_not_mem]
    exact forall₂_congr fun i hi ↦ by simp [hl i hi]
  have hwarnings : ∀ {l : List Issue}, (∀ i ∈ l, i.severity = .warning) →
      ∀ i ∈ l, i.severity ≠ .error := fun hl i hi ↦ by
    rw [hl i hi]
    nofun
  have hempty : ∀ i ∈ emptyIssues c, i.severity = .warning := by
    intro i hi
    obtain ⟨m, -, rfl⟩ := List.mem_map.1 hi
    rfl
  have hkeys : ∀ i ∈ c.providers.filterMap keyIssue, i.severity = .error := by
    intro i hi
    obtain ⟨pr, -, hi⟩ := List.mem_filterMap.1 hi
    exact (keyIssue_error hi).1
  have horphans : ∀ i ∈ orphanIssues c, i.severity = .error := fun i hi ↦ (mem_backendIssues hi).1
  unfold Valid validateConfig
  simp only [List.forall_mem_append]
  rw [herrors fun i hi ↦ (providerIssues_error hi).1, herrors fun i hi ↦ (nameIssues_error hi).1,
    herrors horphans, herrors hkeys, providerIssues_eq_nil_iff,
    nameIssues_eq_nil_iff, orphanIssues_eq_nil_iff, List.filterMap_eq_nil_iff]
  simp only [keyIssue_eq_none_iff]
  constructor
  · rintro ⟨⟨⟨⟨⟨⟨⟨hids, hnames⟩, horphans⟩, hkeys⟩, -⟩, -⟩, -⟩, -⟩
    exact ⟨hids.1, hnames, horphans, hkeys⟩
  · rintro ⟨hids, hnames, horphans, hkeys⟩
    exact ⟨⟨⟨⟨⟨⟨⟨⟨hids, fun _ _ ↦ List.not_mem_nil⟩, hnames⟩, horphans⟩, hkeys⟩, hwarnings hempty⟩,
      hwarnings fun i hi ↦ (mem_backendIssues hi).1⟩, hwarnings fun i hi ↦ (mem_backendIssues hi).1⟩,
      hwarnings fun i hi ↦ (mem_backendIssues hi).1⟩

end Loops

/-! ### Names -/

theorem asStr_eq_some_iff {v : Json} {s : PyStr} : asStr v = some s ↔ v = .str s := by
  cases v <;> simp [asStr]

theorem hasAlias_iff (m : ModelConfig) (id : PyStr) : m.hasAlias id = true ↔ id ∈ m.aliases := by
  have haliases : id ∈ m.aliases ↔ .str id ∈ attrList m.fields (py "aliases") := by
    simp [ModelConfig.aliases, asStr_eq_some_iff]
  rw [haliases]
  unfold ModelConfig.hasAlias
  split
  · rename_i xs hget
    rw [List.contains_iff_mem, attrList, hget]
  · rename_i hnot
    have hnil : attrList m.fields (py "aliases") = [] := by
      unfold attrList
      split
      · rename_i xs hget
        exact absurd hget (hnot xs)
      · rfl
    simp [hnil]

/-- `model_by_id` is the library's resolver. -/
theorem modelById_eq_resolve (c : GatewayConfig) (id : PyStr) :
    c.modelById id = Names.resolve ModelConfig.id ModelConfig.aliases c.models id := by
  have halias : (fun m : ModelConfig ↦ m.hasAlias id) = fun m ↦ decide (id ∈ m.aliases) :=
    funext fun m ↦ by rw [Bool.eq_iff_iff, hasAlias_iff, decide_eq_true_iff]
  rw [GatewayConfig.modelById, Names.resolve, halias]
  congr!

/-- What validation without errors promises of the names of the models: each resolves to its model, and
the errors about names are the same in every order of the models, as far as there are any. -/
structure NamesClear (c : GatewayConfig) : Prop where
  ids : Valid c → ∀ m ∈ c.models, c.modelById m.id = some m
  aliases : Valid c → ∀ m ∈ c.models, ∀ a ∈ m.aliases, c.modelById a = some m
  order : ∀ ms : List ModelConfig, ms.Perm c.models →
    (nameErrors { c with models := ms } = [] ↔ nameErrors c = [])

/-- **When names are clear.** Exactly if every order of the models has an error about their names
anyway, because a name is there twice or the aliases refer to other models in a circle, or no alias is
the id of another model. -/
theorem namesClear_iff (c : GatewayConfig) :
    NamesClear c ↔
      ¬ Names.Sound ModelConfig.id ModelConfig.aliases c.models ∨
        ¬ Names.Crosses ModelConfig.id ModelConfig.aliases c.models ∨
        ¬ Names.Rankable ModelConfig.id ModelConfig.aliases c.models := by
  have horder : (∀ ms : List ModelConfig, ms.Perm c.models →
      (nameErrors { c with models := ms } = [] ↔ nameErrors c = [])) ↔
      ∀ ms : List ModelConfig, ms.Perm c.models →
        Names.accepts ModelConfig.id ModelConfig.aliases [] [] ms =
          Names.accepts ModelConfig.id ModelConfig.aliases [] [] c.models := by
    refine forall₂_congr fun ms _ ↦ ?_
    rw [nameErrors_eq, nameErrors_eq, nameIssues_eq_nil_iff, nameIssues_eq_nil_iff]
    exact Bool.eq_iff_iff.symm
  constructor
  · exact fun h ↦ Names.stable_iff.1 (horder.1 h.order)
  · intro h
    have hresolve : Valid c → Names.Sound ModelConfig.id ModelConfig.aliases c.models ∧
        ¬ Names.Crosses ModelConfig.id ModelConfig.aliases c.models := by
      intro hvalid
      have haccepts := ((valid_iff c).1 hvalid).2.1
      have hsound := (Names.accepts_iff.1 haccepts).1
      refine ⟨hsound, ?_⟩
      rcases h with h | h | h
      · exact absurd hsound h
      · exact h
      · exact absurd (Names.rankable_of_accepts haccepts) h
    refine ⟨fun hvalid m hm ↦ ?_, fun hvalid m hm a ha ↦ ?_, horder.2 (Names.stable_iff.2 h)⟩
    · rw [modelById_eq_resolve, Names.resolve_name (hresolve hvalid).1 hm]
    · obtain ⟨hsound, hcrosses⟩ := hresolve hvalid
      rw [modelById_eq_resolve, (Names.resolve_alias_iff hsound hm ha).2]
      rintro m' hm' rfl
      exact hcrosses ⟨m', hm', m, hm, ha⟩

/-- The first model has the id of the second as an alias. -/
def shadowed : GatewayConfig :=
  { GatewayConfig.empty with
    models :=
      [⟨py "a", [], .empty,
        setKey (defaultFields modelClass.specs) (py "aliases") (.arr [.str (py "b")])⟩,
      ⟨py "b", [], .empty, defaultFields modelClass.specs⟩] }

/-- **An alias that resolves to another model.** There is no error, but the alias is the id of the
second model; in the other order there is an error. -/
theorem not_namesClear_shadowed : ¬ NamesClear shadowed := by
  intro h
  have hvalid : Valid shadowed := by decide
  have hresolves := h.aliases hvalid _ List.mem_cons_self (py "b") (by decide)
  have hid := congrArg (Option.map ModelConfig.id) hresolves
  exact absurd hid (by decide)

end LocalGateway
