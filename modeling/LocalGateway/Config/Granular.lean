import LocalGateway.Config.Interleaving
import LocalGateway.Config.Preflight
import LocalGateway.Foundations.Keyed
import LocalGateway.Routing.Guarantees
import LocalGateway.Routing.ProviderRename

/-!
# Granular edits

The handlers other than `put_config` change a part of the live configuration and save it, each with its
own checks of the body. `validate_config` of the live object is what a later preflight reports; the object
may have values that no validation has seen, so it can also raise (`liveIssues`).

`noError_handle_iff` goes through the handlers: after a successful one there is no error exactly if the
body had what the handler does not check (`Edit.Fits`). Four of them leave something out: `create_model`
checks the stripped id only, and neither the aliases nor the providers of the backends; `update_model` does
not look at the aliases; `add_backend` and `update_backend` take any provider; `set_provider_api_key` any
characters. The others, `rename_entity` among them, need nothing.

`staysValid_iff` says it of runs.
-/

namespace LocalGateway

open Py Json

/-! ### Validating the live object -/

/-- What `hash` and `==` make of a value: numbers are compared by value, and lists and dictionaries
have no hash. -/
def hashKey : Json → Option Json
  | .arr _ | .obj _ => none
  | v =>
    match indexValue v with
    | some q => some (.float (.fin q))
    | none => some v

/-- `m.aliases or []`. -/
def ModelConfig.aliasValues (m : ModelConfig) : List Json :=
  attrList m.fields (py "aliases")

/-- The aliases as they are compared. -/
def ModelConfig.aliasKeys (m : ModelConfig) : List (Option Json) :=
  m.aliasValues.map hashKey

/-- The id, likewise. -/
def ModelConfig.idKey (m : ModelConfig) : Option Json :=
  some (.str m.id)

section Live

variable (text : Json → PyStr)

/-- The loop over the aliases of a model, with the exception on a value that has no hash. -/
def liveAliasIssues (m : ModelConfig) (mids : List (Option Json)) :
    List (Option Json) → List Json → Option (List Issue)
  | _, [] => some []
  | seen, a :: as =>
    if hashKey a = none then none
    else do
      let rest ← liveAliasIssues m mids (hashKey a :: seen) as
      some ((if hashKey a ∈ mids ∨ hashKey a ∈ seen then
        [⟨.error, py "alias_collision", m.path ++ py ".aliases",
          py "Alias '" ++ text a ++ py "' collides with another model id or alias"⟩]
      else []) ++ rest)

/-- The loop over the models. -/
def liveNameIssues : List (Option Json) → List (Option Json) → List ModelConfig → Option (List Issue)
  | _, _, [] => some []
  | mids, seen, m :: ms => do
    let aliases ← liveAliasIssues text m (m.idKey :: mids) seen m.aliasValues
    let rest ← liveNameIssues (m.idKey :: mids) (m.aliasKeys ++ seen) ms
    some ((if m.idKey ∈ mids then
      [⟨.error, py "duplicate_model_id", m.path, py "Duplicate model id '" ++ m.id ++ py "'"⟩]
    else []) ++ aliases ++ rest)

/-- The loop over the keys. A key that is no string has no `encode`. -/
def liveKeyIssues : List ProviderConfig → Option (List Issue)
  | [] => some []
  | pr :: prs => do
    let rest ← liveKeyIssues prs
    if pr.apiKey.isStr || !pr.apiKey.truthy then some ((keyIssue pr).toList ++ rest) else none

/-- `validate_config` on values of any kind; `text` is `str`. -/
def liveIssues (c : GatewayConfig) : Option (List Issue) := do
  let names ← liveNameIssues text [] [] c.models
  let keys ← liveKeyIssues c.providers
  some (providerIssues [] c.providers ++ names ++ orphanIssues c ++ keys ++ emptyIssues c ++
    disabledIssues c ++ pricingIssues c ++ contextIssues c)

/-- `validate_config` reports no error. -/
def NoError (c : GatewayConfig) : Prop :=
  ∃ issues, liveIssues text c = some issues ∧ ∀ i ∈ issues, i.severity ≠ .error

instance (c : GatewayConfig) : Decidable (NoError text c) :=
  match h : liveIssues text c with
  | none => .isFalse fun ⟨_, hsome, _⟩ ↦ nomatch h.symm.trans hsome
  | some issues => decidable_of_iff (∀ i ∈ issues, i.severity ≠ .error)
      ⟨fun hi ↦ ⟨issues, h, hi⟩, fun ⟨_, hsome, hi⟩ ↦ Option.some.inj (h.symm.trans hsome) ▸ hi⟩

end Live

/-! ### What it means to have no error -/

/-- A key that is there and has no more than ASCII, or no key. -/
def AsciiKey : Json → Prop
  | .str key => Json.str key ≠ .str redactedKey ∧ ∀ x ∈ key, x < 128
  | v => v.truthy = false

/-- What `validate_config` looks for. -/
structure GatewayConfig.Sane (c : GatewayConfig) : Prop where
  ids : (c.providers.map (·.id)).Nodup
  hashes : ∀ m ∈ c.models, none ∉ m.aliasKeys
  names : Names.accepts ModelConfig.idKey ModelConfig.aliasKeys [] [] c.models = true
  known : ∀ m ∈ c.models, ∀ b ∈ m.backends, b.provider ∈ c.providers.map (·.id)
  keys : ∀ pr ∈ c.providers, AsciiKey pr.apiKey

section Sane

variable {text : Json → PyStr}

/-- The loop over the aliases: what it raises on, and what it finds. -/
theorem liveAliasIssues_cases (text : Json → PyStr) (m : ModelConfig) (mids seen : List (Option Json))
    (as : List Json) : (none ∈ as.map hashKey ∧ liveAliasIssues text m mids seen as = none) ∨
      none ∉ as.map hashKey ∧ ∃ issues, liveAliasIssues text m mids seen as = some issues ∧
        (∀ i ∈ issues, i.severity = .error) ∧
        (issues = [] ↔ Names.aliasesNew mids seen (as.map hashKey) = true) := by
  induction as generalizing seen with
  | nil => exact .inr ⟨by simp, [], rfl, by simp, by simp [Names.aliasesNew]⟩
  | cons a as ih =>
    rw [List.map_cons, liveAliasIssues]
    by_cases hhash : hashKey a = none
    · exact .inl ⟨by simp [hhash], if_pos hhash⟩
    · rw [if_neg hhash]
      rcases ih (hashKey a :: seen) with ⟨hnone, heq⟩ | ⟨hnone, issues, heq, herror, hnil⟩
      · exact .inl ⟨List.mem_cons_of_mem _ hnone, by rw [heq]; rfl⟩
      · refine .inr ⟨by simp [hnone, Ne.symm hhash], _, by rw [heq]; rfl, ?_, ?_⟩
        · intro i hi
          rcases List.mem_append.1 hi with hi | hi
          · split_ifs at hi
            · rw [List.mem_singleton.1 hi]
            · cases hi
          · exact herror i hi
        · rw [List.append_eq_nil_iff, hnil, Names.aliasesNew_cons]
          refine and_congr_left' ?_
          split_ifs with h
          · exact iff_of_false (by simp) (by tauto)
          · exact iff_of_true rfl (by tauto)

/-- The loop over the models. -/
theorem liveNameIssues_cases (text : Json → PyStr) (mids seen : List (Option Json)) (ms : List ModelConfig) :
    ((∃ m ∈ ms, none ∈ m.aliasKeys) ∧ liveNameIssues text mids seen ms = none) ∨
      (∀ m ∈ ms, none ∉ m.aliasKeys) ∧ ∃ issues, liveNameIssues text mids seen ms = some issues ∧
        (∀ i ∈ issues, i.severity = .error) ∧
        (issues = [] ↔
          Names.accepts ModelConfig.idKey ModelConfig.aliasKeys mids seen ms = true) := by
  induction ms generalizing mids seen with
  | nil => exact .inr ⟨by simp, [], rfl, by simp, by simp [Names.accepts]⟩
  | cons m ms ih =>
    rw [liveNameIssues]
    rcases liveAliasIssues_cases text m (m.idKey :: mids) seen m.aliasValues with
      ⟨hnone, heq⟩ | ⟨hnone, aliases, heq, herror, hnil⟩
    · exact .inl ⟨⟨m, List.mem_cons_self, hnone⟩, by rw [heq]; rfl⟩
    rcases ih (m.idKey :: mids) (m.aliasKeys ++ seen) with
      ⟨⟨m', hm', hnone'⟩, heq'⟩ | ⟨hnone', rest, heq', herror', hnil'⟩
    · exact .inl ⟨⟨m', List.mem_cons_of_mem m hm', hnone'⟩, by rw [heq, heq']; rfl⟩
    · refine .inr ⟨List.forall_mem_cons.2 ⟨hnone, hnone'⟩, _, by rw [heq, heq']; rfl, ?_, ?_⟩
      · intro i hi
        rcases List.mem_append.1 hi with hi | hi
        · rcases List.mem_append.1 hi with hi | hi
          · split_ifs at hi
            · rw [List.mem_singleton.1 hi]
            · cases hi
          · exact herror i hi
        · exact herror' i hi
      · rw [List.append_eq_nil_iff, List.append_eq_nil_iff, hnil, hnil', Names.accepts_cons]
        refine and_congr_left' (and_congr_left' ?_)
        split_ifs with h
        · exact iff_of_false (by simp) (not_not.2 h)
        · exact iff_of_true rfl h

theorem asciiKey_iff {v : Json} :
    AsciiKey v ↔ (v.isStr || !v.truthy) = true ∧ v ≠ .str redactedKey ∧
      ∀ key, v = .str key → ∀ x ∈ key, x < 128 := by
  cases v <;> simp [AsciiKey, isStr]

/-- The loop over the keys. -/
theorem liveKeyIssues_cases (prs : List ProviderConfig) :
    ((∃ pr ∈ prs, ¬ AsciiKey pr.apiKey) ∧ liveKeyIssues prs = none) ∨
      ∃ issues, liveKeyIssues prs = some issues ∧ (∀ i ∈ issues, i.severity = .error) ∧
        (issues = [] ↔ ∀ pr ∈ prs, AsciiKey pr.apiKey) := by
  induction prs with
  | nil => exact .inr ⟨[], rfl, by simp, by simp⟩
  | cons pr prs ih =>
    rw [liveKeyIssues]
    rcases ih with ⟨⟨pr', hpr', hkey⟩, heq⟩ | ⟨rest, heq, herror, hnil⟩
    · exact .inl ⟨⟨pr', List.mem_cons_of_mem pr hpr', hkey⟩, by rw [heq]; rfl⟩
    · rw [heq]
      by_cases hkind : (pr.apiKey.isStr || !pr.apiKey.truthy) = true
      · refine .inr ⟨_, if_pos hkind, ?_, ?_⟩
        · intro i hi
          rcases List.mem_append.1 hi with hi | hi
          · exact (keyIssue_error (Option.mem_toList.1 hi)).1
          · exact herror i hi
        · rw [List.append_eq_nil_iff, hnil, List.forall_mem_cons, Option.toList_eq_nil_iff,
            keyIssue_eq_none_iff, asciiKey_iff]
          exact and_congr_left' (and_iff_right hkind).symm
      · exact .inl ⟨⟨pr, List.mem_cons_self, fun h ↦ hkind (asciiKey_iff.1 h).1⟩, if_neg hkind⟩

/-- **What it means that there is no error.** -/
theorem noError_iff {c : GatewayConfig} : NoError text c ↔ c.Sane := by
  have herrors : ∀ {l : List Issue}, (∀ i ∈ l, i.severity = .error) →
      ((∀ i ∈ l, i.severity ≠ .error) ↔ l = []) := fun {l} hl ↦ by
    rw [List.eq_nil_iff_forall_not_mem]
    exact forall₂_congr fun i hi ↦ by simp [hl i hi]
  have hwarnings : ∀ i ∈ emptyIssues c ++ disabledIssues c ++ pricingIssues c ++ contextIssues c,
      i.severity ≠ .error := by
    have hwarning : ∀ {code message}, ∀ i ∈ backendIssues .warning code message c.models,
        i.severity ≠ .error := fun i hi ↦ by
      rw [(mem_backendIssues hi).1]
      nofun
    intro i hi
    rcases List.mem_append.1 hi with hi | hi
    · rcases List.mem_append.1 hi with hi | hi
      · rcases List.mem_append.1 hi with hi | hi
        · obtain ⟨m, -, rfl⟩ := List.mem_map.1 hi
          nofun
        · exact hwarning i hi
      · exact hwarning i hi
    · exact hwarning i hi
  -- the checks of names and keys can raise; then there is no list of issues at all
  rcases liveNameIssues_cases text [] [] c.models with
    ⟨⟨m, hm, hnone⟩, heq⟩ | ⟨hhashes, names, heq, herror, hnil⟩
  · refine iff_of_false ?_ fun h ↦ h.hashes m hm hnone
    rintro ⟨issues, hissues, -⟩
    rw [liveIssues, heq] at hissues
    cases hissues
  rcases liveKeyIssues_cases c.providers with ⟨⟨pr, hpr, hkey⟩, heq'⟩ | ⟨keys, heq', herror', hnil'⟩
  · refine iff_of_false ?_ fun h ↦ hkey (h.keys pr hpr)
    rintro ⟨issues, hissues, -⟩
    rw [liveIssues, heq, heq'] at hissues
    cases hissues
  have hissues : liveIssues text c = some (providerIssues [] c.providers ++ names ++ orphanIssues c ++
      keys ++ emptyIssues c ++ disabledIssues c ++ pricingIssues c ++ contextIssues c) := by
    rw [liveIssues, heq, heq']
    rfl
  have hsplit : NoError text c ↔ (∀ i ∈ providerIssues [] c.providers, i.severity ≠ .error) ∧
      (∀ i ∈ names, i.severity ≠ .error) ∧ (∀ i ∈ orphanIssues c, i.severity ≠ .error) ∧
      ∀ i ∈ keys, i.severity ≠ .error := by
    simp only [NoError, hissues, Option.some.injEq, exists_eq_left']
    simp only [List.forall_mem_append] at hwarnings ⊢
    obtain ⟨⟨⟨hempty, hdisabled⟩, hpricing⟩, hcontext⟩ := hwarnings
    exact ⟨fun ⟨⟨⟨⟨⟨⟨⟨hids, hnames⟩, horphans⟩, hkeys⟩, _⟩, _⟩, _⟩, _⟩ ↦ ⟨hids, hnames, horphans, hkeys⟩,
      fun ⟨hids, hnames, horphans, hkeys⟩ ↦
        ⟨⟨⟨⟨⟨⟨⟨hids, hnames⟩, horphans⟩, hkeys⟩, hempty⟩, hdisabled⟩, hpricing⟩, hcontext⟩⟩
  have horphans : ∀ i ∈ orphanIssues c, i.severity = .error := fun i hi ↦ (mem_backendIssues hi).1
  rw [hsplit, herrors fun i hi ↦ (providerIssues_error hi).1, herrors herror,
    herrors horphans, herrors herror', providerIssues_eq_nil_iff, hnil,
    orphanIssues_eq_nil_iff, hnil']
  constructor
  · rintro ⟨⟨hids, -⟩, hnames, hknown, hkeys⟩
    exact ⟨hids, hhashes, hnames, hknown, hkeys⟩
  · intro h
    exact ⟨⟨h.ids, by simp⟩, h.names, h.known, h.keys⟩

/-- The keys of strings. -/
def strKeys (names : List PyStr) : List (Option Json) :=
  names.map fun s ↦ some (.str s)

theorem mem_strKeys {names : List PyStr} {s : PyStr} : some (.str s) ∈ strKeys names ↔ s ∈ names := by
  simp [strKeys]

theorem liveAliasIssues_str (htext : ∀ s, text (.str s) = s) (m : ModelConfig)
    (mids seen as : List PyStr) :
    liveAliasIssues text m (strKeys mids) (strKeys seen) (as.map .str) =
      some (aliasIssues m mids seen as) := by
  induction as generalizing seen with
  | nil => rfl
  | cons a as ih =>
    have hkey : hashKey (.str a) = some (.str a) := rfl
    have hseen : some (.str a) :: strKeys seen = strKeys (a :: seen) := rfl
    rw [List.map_cons, liveAliasIssues, hkey, if_neg nofun, hseen, ih, aliasIssues]
    simp only [Option.bind_eq_bind, Option.bind_some, mem_strKeys, htext]

theorem map_filterMap_asStr {vs : List Json} (h : ∀ v ∈ vs, v.isStr = true) :
    (vs.filterMap asStr).map .str = vs := by
  induction vs with
  | nil => rfl
  | cons v vs ih =>
    obtain ⟨hv, hvs⟩ := List.forall_mem_cons.1 h
    cases v with
    | str s => rw [List.filterMap_cons, asStr, List.map_cons, ih hvs]
    | _ => cases hv

/-- On strings, as validation leaves them, nothing is raised and the issues are the ones that are known. -/
theorem liveIssues_eq (htext : ∀ s, text (.str s) = s) {c : GatewayConfig}
    (haliases : ∀ m ∈ c.models, ∀ a ∈ m.aliasValues, a.isStr = true)
    (hkeys : ∀ pr ∈ c.providers, pr.apiKey.isStr = true) :
    liveIssues text c = some (validateConfig c) := by
  have hnames : ∀ (ms : List ModelConfig) (mids seen : List PyStr),
      (∀ m ∈ ms, ∀ a ∈ m.aliasValues, a.isStr = true) →
      liveNameIssues text (strKeys mids) (strKeys seen) ms = some (nameIssues mids seen ms) := by
    intro ms
    induction ms with
    | nil => exact fun _ _ _ ↦ rfl
    | cons m ms ih =>
      intro mids seen h
      obtain ⟨hm, hms⟩ := List.forall_mem_cons.1 h
      have hvalues : m.aliasValues = m.aliases.map .str := (map_filterMap_asStr hm).symm
      have hkeys : m.aliasKeys ++ strKeys seen = strKeys (m.aliases ++ seen) := by
        rw [ModelConfig.aliasKeys, hvalues, strKeys, strKeys, List.map_append, List.map_map]
        rfl
      have hmids : m.idKey :: strKeys mids = strKeys (m.id :: mids) := rfl
      rw [liveNameIssues, hmids, hkeys, hvalues, liveAliasIssues_str htext, ih _ _ hms, nameIssues]
      simp only [Option.bind_eq_bind, Option.bind_some, ModelConfig.idKey, mem_strKeys]
  have hprs : ∀ prs : List ProviderConfig, (∀ pr ∈ prs, pr.apiKey.isStr = true) →
      liveKeyIssues prs = some (prs.filterMap keyIssue) := by
    intro prs
    induction prs with
    | nil => exact fun _ ↦ rfl
    | cons pr prs ih =>
      intro h
      obtain ⟨hpr, hprs⟩ := List.forall_mem_cons.1 h
      rw [liveKeyIssues, ih hprs, Option.bind_eq_bind, Option.bind_some, hpr, Bool.true_or, if_pos rfl,
        List.filterMap_cons]
      rcases keyIssue pr with - | i <;> rfl
  have hmodels : liveNameIssues text [] [] c.models = some (nameIssues [] [] c.models) :=
    hnames c.models [] [] haliases
  rw [liveIssues, hmodels, hprs c.providers hkeys]
  rfl

/-- One model among the others. -/
theorem sane_middle_iff {c : GatewayConfig} {before after : List ModelConfig} {m : ModelConfig} :
    ({ c with models := before ++ m :: after } : GatewayConfig).Sane ↔
      ({ c with models := before ++ after } : GatewayConfig).Sane ∧ none ∉ m.aliasKeys ∧
        Names.Fits ModelConfig.idKey ModelConfig.aliasKeys before after m ∧
        ∀ b ∈ m.backends, b.provider ∈ c.providers.map (·.id) := by
  have hall : ∀ P : ModelConfig → Prop,
      (∀ x ∈ before ++ m :: after, P x) ↔ P m ∧ ∀ x ∈ before ++ after, P x := fun P ↦ by
    rw [← List.forall_mem_cons]
    exact forall_congr' fun x ↦ imp_congr_left List.perm_middle.mem_iff
  constructor
  · intro h
    obtain ⟨hhash, hhashes⟩ := (hall _).1 h.hashes
    obtain ⟨hknown, hrest⟩ := (hall _).1 h.known
    obtain ⟨hnames, hfits⟩ := Names.accepts_middle_iff.1 h.names
    exact ⟨⟨h.ids, hhashes, hnames, hrest, h.keys⟩, hhash, hfits, hknown⟩
  · rintro ⟨h, hhash, hfits, hknown⟩
    exact ⟨h.ids, (hall _).2 ⟨hhash, h.hashes⟩, Names.accepts_middle_iff.2 ⟨h.names, hfits⟩,
      (hall _).2 ⟨hknown, h.known⟩, h.keys⟩

end Sane

/-! ### One model -/

/-- What may be the aliases of a model at a place, under an id: values with a hash, no two the same, none
of them this id, the id of an earlier model, or an alias of another model. -/
structure GatewayConfig.AliasesFit (c : GatewayConfig) (i : ℕ) (id : PyStr) (aliases : List Json) :
    Prop where
  hashes : none ∉ aliases.map hashKey
  distinct : (aliases.map hashKey).Nodup
  own : some (.str id) ∉ aliases.map hashKey
  earlier : ∀ m ∈ c.models.take i, m.idKey ∉ aliases.map hashKey
  others : ∀ m ∈ c.models.eraseIdx i, ∀ key ∈ m.aliasKeys, key ∉ aliases.map hashKey

section Model

variable {c : GatewayConfig} {i : ℕ} {m m' : ModelConfig}

/-- A configuration around one of its models. -/
theorem sane_around (h : c.Sane) (hm : c.models[i]? = some m) :
    ({ c with models := c.models.take i ++ m :: c.models.drop (i + 1) } : GatewayConfig).Sane := by
  rw [Keyed.take_cons_drop hm]
  exact h

/-- A model in the place of one with the same id. -/
theorem sane_set_iff (h : c.Sane) (hm : c.models[i]? = some m) (hid : m'.id = m.id) :
    ({ c with models := c.models.set i m' } : GatewayConfig).Sane ↔
      c.AliasesFit i m.id m'.aliasValues ∧ ∀ b ∈ m'.backends, b.provider ∈ c.providers.map (·.id) := by
  have hlt := (List.getElem?_eq_some_iff.1 hm).1
  have hkey : m'.idKey = m.idKey := congrArg (fun id ↦ some (Json.str id)) hid
  obtain ⟨hrest, -, hold, -⟩ := sane_middle_iff.1 (sane_around h hm)
  rw [List.set_eq_take_append_cons_drop, if_pos hlt, sane_middle_iff, and_iff_right hrest, ← and_assoc]
  refine and_congr_left' ⟨fun ⟨hhash, hfits⟩ ↦ ?_, fun hfit ↦ ?_⟩
  · refine ⟨hhash, hfits.aliases_nodup, ?_, hfits.earlier, ?_⟩
    · have hown := hfits.own
      rwa [hkey] at hown
    · rw [List.eraseIdx_eq_take_drop_succ]
      exact hfits.aliases_new
  · obtain ⟨hhash, hdistinct, hown, hearlier, hothers⟩ := hfit
    rw [List.eraseIdx_eq_take_drop_succ] at hothers
    refine ⟨hhash, ?_, hdistinct, hothers, ?_, hearlier, ?_⟩
    · rw [hkey]
      exact hold.name_new
    · rw [hkey]
      exact hown
    · rw [hkey]
      exact hold.later

/-- The aliases that are there fit. -/
theorem aliasesFit_self (h : c.Sane) (hm : c.models[i]? = some m) :
    c.AliasesFit i m.id m.aliasValues := by
  have hset := (sane_set_iff h hm (rfl : m.id = m.id)).1
  have hlt := (List.getElem?_eq_some_iff.1 hm)
  refine (hset ?_).1
  obtain ⟨hlt, rfl⟩ := hlt
  rw [List.set_getElem_self]
  exact h

/-- The model keeps its names, and its backends have known providers. -/
theorem sane_set_backends_iff (h : c.Sane) (hm : c.models[i]? = some m) (hid : m'.id = m.id)
    (haliases : m'.aliasValues = m.aliasValues) :
    ({ c with models := c.models.set i m' } : GatewayConfig).Sane ↔
      ∀ b ∈ m'.backends, b.provider ∈ c.providers.map (·.id) := by
  rw [sane_set_iff h hm hid, haliases]
  exact and_iff_right (aliasesFit_self h hm)

/-- The model keeps its names, and its backends have no new providers. -/
theorem sane_set (h : c.Sane) (hm : c.models[i]? = some m) (hid : m'.id = m.id)
    (haliases : m'.aliasValues = m.aliasValues)
    (hbackends : m'.backends.map (·.provider) ⊆ m.backends.map (·.provider)) :
    ({ c with models := c.models.set i m' } : GatewayConfig).Sane := by
  refine (sane_set_backends_iff h hm hid haliases).2 fun b hb ↦ ?_
  obtain ⟨b', hb', heq⟩ := List.mem_map.1 (hbackends (List.mem_map_of_mem hb))
  rw [← heq]
  exact h.known m (List.mem_of_getElem? hm) b' hb'

/-- Without a model. -/
theorem sane_eraseIdx (h : c.Sane) (i : ℕ) :
    ({ c with models := c.models.eraseIdx i } : GatewayConfig).Sane := by
  rcases hm : c.models[i]? with - | m
  · rw [List.eraseIdx_of_length_le (List.getElem?_eq_none_iff.1 hm)]
    exact h
  · rw [List.eraseIdx_eq_take_drop_succ]
    exact (sane_middle_iff.1 (sane_around h hm)).1

/-- With another model at the end. -/
theorem sane_concat_iff (h : c.Sane) :
    ({ c with models := c.models ++ [m] } : GatewayConfig).Sane ↔
      m.id ∉ c.models.map (·.id) ∧ c.AliasesFit c.models.length m.id m.aliasValues ∧
        ∀ b ∈ m.backends, b.provider ∈ c.providers.map (·.id) := by
  have hsane : ({ c with models := c.models ++ [] } : GatewayConfig).Sane := by
    rw [List.append_nil]
    exact h
  have hname : (∀ y ∈ c.models, y.idKey ≠ m.idKey) ↔ m.id ∉ c.models.map (·.id) := by
    simp [ModelConfig.idKey]
  rw [sane_middle_iff, and_iff_right hsane, ← hname]
  constructor
  · rintro ⟨hhash, hfits, hknown⟩
    obtain ⟨hnew, hdistinct, hothers, hown, hearlier, -⟩ := hfits
    rw [List.append_nil] at hnew hothers
    refine ⟨hnew, ⟨hhash, hdistinct, hown, ?_, ?_⟩, hknown⟩
    · rwa [List.take_length]
    · rwa [List.eraseIdx_of_length_le le_rfl]
  · rintro ⟨hnew, ⟨hhash, hdistinct, hown, hearlier, hothers⟩, hknown⟩
    rw [List.take_length] at hearlier
    rw [List.eraseIdx_of_length_le le_rfl] at hothers
    refine ⟨hhash, ⟨?_, hdistinct, ?_, hown, hearlier, by simp⟩, hknown⟩
    · rwa [List.append_nil]
    · rwa [List.append_nil]

/-- A handler of one model that saves has done so to the model it found. -/
theorem withModel_save {id : PyStr} {f : ModelConfig → ModelConfig × Verdict}
    (h : (withModel c id f).verdict = .save) :
    ∃ i m, c.modelIndex id = some i ∧ c.models[i]? = some m ∧ (f m).2 = .save ∧
      (withModel c id f).live = { c with models := c.models.set i (f m).1 } := by
  unfold withModel at h ⊢
  rcases hi : c.modelIndex id with - | i
  · simp [hi, modelNotFound] at h
  · rcases hm : c.models[i]? with - | m
    · simp [hi, hm, modelNotFound] at h
    · simp only [hi, hm] at h ⊢
      exact ⟨i, m, rfl, hm, h, rfl⟩

/-! ### What the handlers of a model do to it -/

/-- `_apply_fields` that succeeds assigns what is in the body. -/
theorem get?_applyFields {obj body : PyDict} {whitelist : Whitelist} {k : PyStr}
    (h : (applyFields obj body whitelist).2 = none) (hk : k ∈ whitelist.map Prod.fst) :
    get? (applyFields obj body whitelist).1 k = (get? body k).or (get? obj k) := by
  have hloop : ∀ (whitelist : Whitelist) (obj : PyDict), (applyLoop obj body whitelist).2 = none →
      get? (applyLoop obj body whitelist).1 k =
        if k ∈ whitelist.map Prod.fst then (get? body k).or (get? obj k) else get? obj k := by
    intro whitelist
    induction whitelist with
    | nil => exact fun _ _ ↦ rfl
    | cons e whitelist ih =>
      obtain ⟨field, types⟩ := e
      intro obj h
      rw [List.map_cons]
      rcases hget : get? body field with - | v
      · rw [applyLoop, hget] at h ⊢
        rw [ih obj h]
        by_cases hfield : k = field
        · subst hfield
          simp [hget]
        · simp only [List.mem_cons, hfield, false_or]
      · rw [applyLoop, hget] at h ⊢
        simp only at h ⊢
        split_ifs at h with htype
        rw [if_pos htype, ih _ h, get?_setKey]
        by_cases hfield : k = field
        · subst hfield
          simp [hget]
        · simp only [List.mem_cons, hfield, false_or, if_false]
  unfold applyFields at h ⊢
  simp only at h ⊢
  split_ifs at h ⊢ with hunknown
  rw [hloop whitelist obj h, if_pos hk]

/-- Nothing of a type that the whitelist does not have is assigned. -/
theorem isInstance_of_applyFields {obj body : PyDict} {whitelist : Whitelist} {k : PyStr}
    {types : List PyType} {v : Json} (h : (applyFields obj body whitelist).2 = none)
    (hk : (k, types) ∈ whitelist) (hv : get? body k = some v) : types.any (isInstance v) = true := by
  have hloop : ∀ (whitelist : Whitelist) (obj : PyDict), (applyLoop obj body whitelist).2 = none →
      (k, types) ∈ whitelist → types.any (isInstance v) = true := by
    intro whitelist
    induction whitelist with
    | nil => exact fun _ _ hk ↦ nomatch hk
    | cons e whitelist ih =>
      obtain ⟨field, kinds⟩ := e
      intro obj h hk
      rcases List.mem_cons.1 hk with heq | hk
      · obtain ⟨rfl, rfl⟩ := Prod.mk.inj heq
        by_contra hnot
        rw [applyLoop, hv] at h
        simp only [if_neg hnot] at h
        cases h
      · rcases hget : get? body field with - | w
        · rw [applyLoop, hget] at h
          exact ih obj h hk
        · rw [applyLoop, hget] at h
          simp only at h
          split_ifs at h
          exact ih _ h hk
  unfold applyFields at h
  simp only at h
  split_ifs at h
  exact hloop whitelist obj h hk

theorem hasAliases_modelSettable : (py "aliases", [PyType.list]) ∈ modelSettable := by decide

theorem hasProvider_backendSettable : (py "provider", [PyType.str]) ∈ backendSettable := by decide

variable {p : Pydantic}

/-- The aliases of a model whose attributes have been assigned: those of the body, which are a list, or the
old ones. -/
theorem aliasValues_applyFields {d : PyDict} {t : TimeRoutingConfig}
    (h : (applyFields m.fields (d.filter (·.1 ≠ py "time_routing")) modelSettable).2 = none) :
    let m' : ModelConfig := { m with
      timeRouting := t
      fields := (applyFields m.fields (d.filter (·.1 ≠ py "time_routing")) modelSettable).1 }
    (get? d (py "aliases") = none ∧ m'.aliasValues = m.aliasValues) ∨
      ∃ vs, get? d (py "aliases") = some (.arr vs) ∧ m'.aliasValues = vs := by
  intro m'
  have hrest : get? (d.filter (·.1 ≠ py "time_routing")) (py "aliases") = get? d (py "aliases") :=
    lookup_filter_ne (by decide)
  have haliases : get? m'.fields (py "aliases") =
      (get? d (py "aliases")).or (get? m.fields (py "aliases")) := by
    rw [← hrest]
    exact get?_applyFields h (List.mem_map_of_mem hasAliases_modelSettable)
  rcases hget : get? d (py "aliases") with - | v
  · rw [hget, Option.none_or] at haliases
    exact .inl ⟨rfl, by rw [ModelConfig.aliasValues, attrList, haliases]; rfl⟩
  · have htype := isInstance_of_applyFields h hasAliases_modelSettable (hrest.trans hget)
    rw [hget, Option.some_or] at haliases
    cases v with
    | arr vs => exact .inr ⟨vs, rfl, by rw [ModelConfig.aliasValues, attrList, haliases]⟩
    | _ => simp [isInstance] at htype

/-- `update_model` leaves the id and the backends alone, and the aliases become those of the body. -/
theorem updateModel_save {body : Json} (h : (updateModel p body m).2 = .save) :
    ∃ d, body = .obj d ∧ (updateModel p body m).1.id = m.id ∧
      (updateModel p body m).1.backends = m.backends ∧
      ((get? d (py "aliases") = none ∧ (updateModel p body m).1.aliasValues = m.aliasValues) ∨
        ∃ vs, get? d (py "aliases") = some (.arr vs) ∧
          (updateModel p body m).1.aliasValues = vs) := by
  cases body with
  | obj d =>
    refine ⟨d, rfl, ?_⟩
    unfold updateModel at h ⊢
    simp only at h ⊢
    rcases hrefused : (applyFields m.fields (d.filter (·.1 ≠ py "time_routing")) modelSettable).2 with - | message
    · split at h
      · exact ⟨rfl, rfl, aliasValues_applyFields hrefused⟩
      · exact ⟨rfl, rfl, aliasValues_applyFields hrefused⟩
      · split at h
        · cases h
        · exact ⟨rfl, rfl, aliasValues_applyFields hrefused⟩
    · rw [hrefused] at h
      split at h
      · cases h
      · cases h
      · split at h <;> cases h
  | _ => cases h

theorem map_modify_eq {α β : Type} {f : α → α} {g : α → β} (h : ∀ a, g (f a) = g a) (l : List α)
    (i : ℕ) : (l.modify i f).map g = l.map g := by
  refine List.ext_getElem (by simp) fun j hj _ ↦ ?_
  rw [List.getElem_map, List.getElem_map, List.getElem_modify]
  split_ifs
  · exact h _
  · rfl

/-- A tier number leaves the providers alone. -/
theorem setTier_providers (tier : ℕ) (vs : List Json) (bs : List BackendConfig) :
    (setTier tier vs bs).1.map (·.provider) = bs.map (·.provider) := by
  induction vs generalizing bs with
  | nil => rfl
  | cons v vs ih =>
    have hassign : ∀ i : ℕ, (setTier tier vs (bs.modify i fun b ↦ { b with priority := tier })).1.map
        (·.provider) = bs.map (·.provider) := fun i ↦
      (ih _).trans (map_modify_eq (f := fun b ↦ { b with priority := tier }) (fun _ ↦ rfl) bs i)
    cases v with
    | int n => exact hassign n.toNat
    | bool b => exact hassign _
    | _ => rfl

theorem setTiers_providers (tier : ℕ) (ts : List (List Json)) (bs : List BackendConfig) :
    (setTiers tier ts bs).1.map (·.provider) = bs.map (·.provider) := by
  induction ts generalizing tier bs with
  | nil => rfl
  | cons t ts ih =>
    have ht := setTier_providers tier t bs
    rw [setTiers]
    split
    · next bs' heq =>
      rw [heq] at ht
      exact (ih (tier + 1) bs').trans ht
    · next bs' heq =>
      rw [heq] at ht
      exact ht

theorem setBackendsTiers_providers (body : Json) (m : ModelConfig) :
    (setBackendsTiers body m).1.backends.map (·.provider) = m.backends.map (·.provider) := by
  unfold setBackendsTiers
  split <;> try rfl
  split <;> try rfl
  split <;> try rfl
  split_ifs
  · rfl
  · rfl
  · exact setTiers_providers 1 _ m.backends

theorem setBackendsTiers_names (body : Json) (m : ModelConfig) :
    (setBackendsTiers body m).1.id = m.id ∧ (setBackendsTiers body m).1.fields = m.fields := by
  unfold setBackendsTiers
  split <;> try exact ⟨rfl, rfl⟩
  split <;> try exact ⟨rfl, rfl⟩
  split <;> try exact ⟨rfl, rfl⟩
  split_ifs <;> exact ⟨rfl, rfl⟩

/-- The backends that are left had their providers before. -/
theorem removeBackend_save {index : ℤ} (h : (removeBackend index m).2 = .save) :
    (removeBackend index m).1.id = m.id ∧ (removeBackend index m).1.fields = m.fields ∧
      (removeBackend index m).1.backends.map (·.provider) ⊆ m.backends.map (·.provider) := by
  unfold removeBackend at h ⊢
  split at h
  · cases h
  · refine ⟨rfl, rfl, fun s hs ↦ ?_⟩
    obtain ⟨b, hb, rfl⟩ := List.mem_map.1 hs
    obtain ⟨i, hi, rfl⟩ := List.mem_mapIdx.1 hb
    have hmem : (m.backends.eraseIdx index.toNat)[i] ∈ m.backends :=
      (List.eraseIdx_sublist ..).subset (List.getElem_mem hi)
    show (m.backends.eraseIdx index.toNat)[i].provider ∈ m.backends.map (·.provider)
    exact List.mem_map_of_mem hmem

/-- The provider of the backend that `add_backend` adds is the one of the body. -/
theorem sane_addBackend_iff {body : Json} (h : c.Sane) (hm : c.models[i]? = some m)
    (hsave : (addBackend p body m).2 = .save) :
    ({ c with models := c.models.set i (addBackend p body m).1 } : GatewayConfig).Sane ↔
      ∀ b, validateBackend p body = some b → b.provider ∈ c.providers.map (·.id) := by
  rcases hb : validateBackend p body with - | b
  · simp [addBackend, hb] at hsave
  · have hadd : (addBackend p body m).1 = { m with
        backends := m.backends ++ [{ b with priority := maxPriority m.backends + 1 }] } := by
      rw [addBackend, hb]
    rw [sane_set_backends_iff h hm (by rw [hadd]) (by rw [hadd]; rfl), hadd]
    have hold := h.known m (List.mem_of_getElem? hm)
    constructor
    · rintro hknown b' heq
      obtain rfl := Option.some.inj heq
      exact hknown { b with priority := maxPriority m.backends + 1 } List.mem_concat_self
    · intro hknown b' hb'
      rcases List.mem_append.1 hb' with hb' | hb'
      · exact hold b' hb'
      · obtain rfl := List.mem_singleton.1 hb'
        exact hknown b rfl

/-- The provider of the backend after `update_backend` is the one of the body, or the old one. -/
theorem sane_updateBackend_iff {index : ℤ} {d : PyDict} (h : c.Sane) (hm : c.models[i]? = some m)
    (hsave : (updateBackend index (.obj d) m).2 = .save) :
    ({ c with models := c.models.set i (updateBackend index (.obj d) m).1 } : GatewayConfig).Sane ↔
      ∀ id, get? d (py "provider") = some (.str id) → id ∈ c.providers.map (·.id) := by
  rcases hb : backendAt m index with - | b
  · simp [updateBackend, hb] at hsave
  · have hget : m.backends[index.toNat]? = some b := by
      unfold backendAt at hb
      split_ifs at hb
      exact hb
    have hlt := (List.getElem?_eq_some_iff.1 hget).1
    have hold := h.known m (List.mem_of_getElem? hm)
    have hnone : (applyFields b.fields d backendSettable).2 = none := by
      simp only [updateBackend, hb] at hsave
      split at hsave
      · cases hsave
      · next hnone => exact hnone
    have hupdate : (updateBackend index (.obj d) m).1 = { m with
        backends := m.backends.set index.toNat
          { b with fields := (applyFields b.fields d backendSettable).1 } } := by
      rw [updateBackend, hb]
    have hprovider : get? (applyFields b.fields d backendSettable).1 (py "provider") =
        (get? d (py "provider")).or (get? b.fields (py "provider")) :=
      get?_applyFields hnone (List.mem_map_of_mem hasProvider_backendSettable)
    rw [sane_set_backends_iff h hm (by rw [hupdate]) (by rw [hupdate]; rfl), hupdate]
    constructor
    · intro hknown id hid
      have hmem := hknown _ (List.mem_set hlt _)
      rw [hid, Option.some_or] at hprovider
      rwa [BackendConfig.provider, attrStr, hprovider] at hmem
    · intro hknown b' hb'
      rcases List.mem_or_eq_of_mem_set hb' with hb' | rfl
      · exact hold b' hb'
      · rcases hid : get? d (py "provider") with - | v
        · rw [hid, Option.none_or] at hprovider
          rw [BackendConfig.provider, attrStr, hprovider]
          exact hold b (List.mem_of_getElem? hget)
        · -- the whitelist has checked that the provider of the body is a text
          have htype := isInstance_of_applyFields hnone hasProvider_backendSettable hid
          rw [hid, Option.some_or] at hprovider
          cases v with
          | str id =>
            rw [BackendConfig.provider, attrStr, hprovider]
            exact hknown id hid
          | _ => simp [isInstance, isStr] at htype

end Model

/-! ### The whole configuration -/

section Config

variable {p : Pydantic} {c : GatewayConfig}

/-- `create_model` that saves has validated the body and appended the result. -/
theorem createModel_save {body : Json} (h : (createModel p c body).verdict = .save) :
    ∃ m, validateModel p body = some m ∧
      (createModel p c body).live = { c with models := c.models ++ [m] } := by
  unfold createModel at h ⊢
  split at h
  · split at h
    · next id _ =>
      by_cases hempty : strip id = []
      · rw [if_pos hempty] at h
        cases h
      by_cases hexists : (c.modelIndex (strip id)).isSome
      · rw [if_neg hempty, if_pos hexists] at h
        cases h
      · rw [if_neg hempty, if_neg hexists] at h ⊢
        rcases hm : validateModel p _ with - | m
        · rw [hm] at h
          cases h
        · exact ⟨m, rfl, rfl⟩
    · cases h
  · cases h

theorem sane_createModel_iff {body : Json} (h : c.Sane)
    (hsave : (createModel p c body).verdict = .save) :
    (createModel p c body).live.Sane ↔ ∀ m, validateModel p body = some m →
      m.id ∉ c.models.map (·.id) ∧ c.AliasesFit c.models.length m.id m.aliasValues ∧
        ∀ b ∈ m.backends, b.provider ∈ c.providers.map (·.id) := by
  obtain ⟨m, hm, hlive⟩ := createModel_save hsave
  rw [hlive, sane_concat_iff h]
  constructor
  · intro hfits m' hm'
    obtain rfl := Option.some.inj (hm.symm.trans hm')
    exact hfits
  · exact fun hfits ↦ hfits m hm

theorem sane_deleteModel {id : PyStr} (h : c.Sane) : (deleteModel c id).live.Sane := by
  unfold deleteModel
  split
  · exact h
  · exact sane_eraseIdx h _

/-- `set_provider_api_key` that saves has given a provider the key of the body, or an empty one. -/
theorem setProviderApiKey_save {d : PyDict} (h : (setProviderApiKey c (.obj d)).verdict = .save) :
    ∃ i < c.providers.length, (get? d (py "api_key")).getD .null ≠ .str redactedKey ∧
      (setProviderApiKey c (.obj d)).live = { c with providers := c.providers.modify i fun pr ↦
        { pr with apiKey := if (get? d (py "api_key")).getD .null = .null then .str []
          else (get? d (py "api_key")).getD .null } } := by
  unfold setProviderApiKey at h ⊢
  simp only at h ⊢
  split at h
  · cases h
  · next id _ =>
    by_cases hempty : id = []
    · rw [if_pos hempty] at h
      cases h
    rw [if_neg hempty] at h ⊢
    rcases hi : c.providerIndex id with - | i
    · rw [hi] at h
      cases h
    · rw [hi] at h
      simp only at h ⊢
      by_cases hplaceholder : (get? d (py "api_key")).getD .null = .str redactedKey
      · rw [if_pos hplaceholder] at h
        cases h
      · have hlt : i < c.providers.length := (List.findIdx?_eq_some_iff_getElem.1 hi).1
        exact ⟨i, hlt, hplaceholder, by rw [if_neg hplaceholder]⟩

theorem sane_setProviderApiKey_iff {d : PyDict} (h : c.Sane)
    (hsave : (setProviderApiKey c (.obj d)).verdict = .save) :
    (setProviderApiKey c (.obj d)).live.Sane ↔ ∀ v, get? d (py "api_key") = some v → AsciiKey v := by
  obtain ⟨i, hlt, hplaceholder, hlive⟩ := setProviderApiKey_save hsave
  rw [hlive]
  generalize hkey : (if (get? d (py "api_key")).getD .null = .null then Json.str []
    else (get? d (py "api_key")).getD .null) = key
  have hascii : AsciiKey key ↔ ∀ v, get? d (py "api_key") = some v → AsciiKey v := by
    rcases hget : get? d (py "api_key") with - | v
    · rw [hget] at hkey
      obtain rfl : Json.str [] = key := hkey
      simp [AsciiKey, redactedKey]
    · rw [hget, Option.getD_some] at hkey
      by_cases hnull : v = .null
      · rw [if_pos hnull] at hkey
        subst hkey hnull
        simp [AsciiKey, redactedKey, truthy]
      · rw [if_neg hnull] at hkey
        subst hkey
        simp
  have hids : (c.providers.modify i fun pr ↦ { pr with apiKey := key }).map (·.id) =
      c.providers.map (·.id) :=
    map_modify_eq (f := fun pr : ProviderConfig ↦ { pr with apiKey := key }) (fun _ ↦ rfl) _ i
  rw [← hascii]
  constructor
  · intro hsane
    have hmem : { c.providers[i] with apiKey := key } ∈
        c.providers.modify i fun pr ↦ { pr with apiKey := key } := by
      rw [List.modify_eq_take_cons_drop hlt]
      simp
    exact hsane.keys _ hmem
  · intro hkey
    refine ⟨?_, h.hashes, h.names, ?_, ?_⟩
    · rw [hids]
      exact h.ids
    · rw [hids]
      exact h.known
    · exact forall_mem_modify (P := fun pr : ProviderConfig ↦ AsciiKey pr.apiKey) h.keys i fun _ _ ↦ hkey

/-- `rename_entity` that saves has renamed a model or a provider, to an id that nothing had. -/
theorem renameEntity_save {body : Json} (h : (renameEntity c body).verdict = .save) :
    ∃ (old new : PyStr) (i : ℕ), old ≠ [] ∧
      (c.modelIndex old = some i ∧ c.modelIndex new = none ∧
          (renameEntity c body).live =
            { c with models := c.models.modify i fun m ↦ { m with id := new } } ∨
        c.providerIndex old = some i ∧ c.providerIndex new = none ∧
          (renameEntity c body).live = { c with
            providers := c.providers.modify i fun pr ↦ { pr with id := new }
            models := c.models.map fun m ↦
              { m with backends := m.backends.map (BackendConfig.renameProvider old new) }
            pricing := movePricing old new c.pricing (c.pricing.map Prod.fst) }) := by
  unfold renameEntity at h ⊢
  split at h
  · next d =>
    split at h
    · next old new hold hnew =>
      simp only at h ⊢
      -- each check that fails answers without saving
      by_cases htype : get? d (py "type") ≠ some (.str (py "model")) ∧
          get? d (py "type") ≠ some (.str (py "provider"))
      · rw [if_pos htype] at h
        cases h
      by_cases hempty : old = [] ∨ new = []
      · rw [if_neg htype, if_pos hempty] at h
        cases h
      by_cases hsame : old = new
      · rw [if_neg htype, if_neg hempty, if_pos hsame] at h
        cases h
      rw [if_neg htype, if_neg hempty, if_neg hsame] at h ⊢
      refine ⟨old, new, ?_⟩
      by_cases hmodel : get? d (py "type") = some (.str (py "model"))
      · rw [if_pos hmodel] at h ⊢
        rcases hi : c.modelIndex old with - | i
        · simp [hi, modelNotFound] at h
        rcases hj : c.modelIndex new with - | j
        · exact ⟨i, (not_or.1 hempty).1, .inl ⟨rfl, rfl, by simp⟩⟩
        · simp [hi, hj] at h
      · rw [if_neg hmodel] at h ⊢
        rcases hi : c.providerIndex old with - | i
        · simp [hi, providerNotFound] at h
        rcases hj : c.providerIndex new with - | j
        · exact ⟨i, (not_or.1 hempty).1, .inr ⟨rfl, rfl, by simp⟩⟩
        · simp [hi, hj] at h
    · cases h
  · cases h

/-- No model has an id that is not found, nor an alias. -/
theorem not_found_iff {id : PyStr} :
    c.modelIndex id = none ↔
      (∀ m ∈ c.models, m.id ≠ id) ∧ ∀ m ∈ c.models, some (.str id) ∉ m.aliasKeys := by
  have hkey : ∀ v, hashKey v = some (.str id) ↔ v = .str id := by
    intro v
    cases v with
    | float x => cases x <;> simp [hashKey, indexValue]
    | _ => simp [hashKey, indexValue]
  have halias : ∀ m : ModelConfig, m.hasAlias id = true ↔ some (.str id) ∈ m.aliasKeys := by
    intro m
    rw [ModelConfig.hasAlias, ModelConfig.aliasKeys, ModelConfig.aliasValues, attrList]
    rcases get? m.fields (py "aliases") with - | v
    · simp
    · cases v with
      | arr xs => simp [hkey]
      | _ => simp
  rw [GatewayConfig.modelIndex, Option.or_eq_none_iff, List.findIdx?_eq_none_iff,
    List.findIdx?_eq_none_iff]
  simp only [Bool.eq_false_iff, ne_eq, halias, decide_eq_true_iff]

/-- An id that nothing has is a new name for any model. -/
theorem sane_renameModel {new : PyStr} {i : ℕ} (h : c.Sane) (hlt : i < c.models.length)
    (hnew : c.modelIndex new = none) :
    ({ c with models := c.models.modify i fun m ↦ { m with id := new } } : GatewayConfig).Sane := by
  obtain ⟨hids, haliases⟩ := not_found_iff.1 hnew
  have hm : c.models[i]? = some c.models[i] := List.getElem?_eq_getElem hlt
  have hmem : ∀ m ∈ c.models.take i ++ c.models.drop (i + 1), m ∈ c.models := by
    intro m hm
    rw [← List.eraseIdx_eq_take_drop_succ] at hm
    exact (List.eraseIdx_sublist ..).subset hm
  rw [List.modify_eq_take_cons_drop hlt]
  obtain ⟨hrest, hhash, hfits, hknown⟩ := sane_middle_iff.1 (sane_around h hm)
  refine sane_middle_iff.2 ⟨hrest, hhash, ⟨fun m hm ↦ ?_, hfits.aliases_nodup, hfits.aliases_new,
    haliases c.models[i] (List.getElem_mem hlt), hfits.earlier, fun m hm ↦ ?_⟩, hknown⟩
  · have hne := hids m (hmem m hm)
    simpa [ModelConfig.idKey] using hne
  · exact haliases m (hmem m (List.mem_append_right _ hm))

/-- The backends follow a renamed provider. -/
theorem sane_renameProvider {old new : PyStr} {i : ℕ} (h : c.Sane) (hold : old ≠ [])
    (hi : c.providerIndex old = some i) (hnew : c.providerIndex new = none) :
    ({ c with
      providers := c.providers.modify i fun pr ↦ { pr with id := new }
      models := c.models.map fun m ↦
        { m with backends := m.backends.map (BackendConfig.renameProvider old new) }
      pricing := movePricing old new c.pricing (c.pricing.map Prod.fst) } : GatewayConfig).Sane := by
  obtain ⟨hlt, hid, -⟩ := List.findIdx?_eq_some_iff_getElem.1 hi
  have hfresh : new ∉ c.providers.map (·.id) := by
    simpa [GatewayConfig.providerIndex] using hnew
  have hsplit : c.providers.map (·.id) = (c.providers.take i).map (·.id) ++
      old :: (c.providers.drop (i + 1)).map (·.id) := by
    have hid' : c.providers[i].id = old := by simpa using hid
    rw [← hid', ← List.map_cons (f := ProviderConfig.id), ← List.map_append,
      Keyed.take_cons_drop (List.getElem?_eq_getElem hlt)]
  have hids : (c.providers.modify i fun pr ↦ { pr with id := new }).map (·.id) =
      (c.providers.take i).map (·.id) ++ new :: (c.providers.drop (i + 1)).map (·.id) := by
    rw [List.modify_eq_take_cons_drop hlt, List.map_append, List.map_cons]
  -- the new id takes the place of the old one among the ids of the providers
  refine ⟨?_, ?_, ?_, ?_, ?_⟩
  · have hnodup := h.ids
    rw [hsplit, List.nodup_middle, List.nodup_cons] at hnodup
    rw [hids, List.nodup_middle, List.nodup_cons]
    refine ⟨fun hmem ↦ hfresh ?_, hnodup.2⟩
    rw [hsplit]
    rcases List.mem_append.1 hmem with hmem | hmem
    · exact List.mem_append_left _ hmem
    · exact List.mem_append_right _ (List.mem_cons_of_mem old hmem)
  · intro m hm
    obtain ⟨m', hm', rfl⟩ := List.mem_map.1 hm
    exact h.hashes m' hm'
  · have hmap : ∀ f : ModelConfig → ModelConfig, (∀ m, (f m).idKey = m.idKey) →
        (∀ m, (f m).aliasKeys = m.aliasKeys) →
        Names.accepts ModelConfig.idKey ModelConfig.aliasKeys [] [] (c.models.map f) = true :=
      fun _ hid haliases ↦ (Names.accepts_map hid haliases).trans h.names
    exact hmap _ (fun _ ↦ rfl) fun _ ↦ rfl
  · intro m hm b hb
    obtain ⟨m', hm', rfl⟩ := List.mem_map.1 hm
    obtain ⟨b', hb', rfl⟩ := List.mem_map.1 hb
    have hknown := h.known m' hm' b' hb'
    rw [hids, provider_renameProvider hold]
    rw [hsplit] at hknown
    -- a backend of the old provider moves along, the others find theirs where it was
    split_ifs with heq
    · simp
    · rcases List.mem_append.1 hknown with hmem | hmem
      · exact List.mem_append_left _ hmem
      · have hafter := (List.mem_cons.1 hmem).resolve_left heq
        exact List.mem_append_right _ (List.mem_cons_of_mem new hafter)
  · exact forall_mem_modify (P := fun pr : ProviderConfig ↦ AsciiKey pr.apiKey) h.keys i fun _ hkey ↦ hkey

theorem sane_renameEntity {body : Json} (h : c.Sane) (hsave : (renameEntity c body).verdict = .save) :
    (renameEntity c body).live.Sane := by
  obtain ⟨old, new, i, hold, ⟨hi, hnew, hlive⟩ | ⟨hi, hnew, hlive⟩⟩ := renameEntity_save hsave
  · have hlt : i < c.models.length := by
      rw [GatewayConfig.modelIndex, Option.or_eq_some_iff] at hi
      rcases hi with hi | ⟨-, hi⟩
      · exact (List.findIdx?_eq_some_iff_getElem.1 hi).1
      · exact (List.findIdx?_eq_some_iff_getElem.1 hi).1
    rw [hlive]
    exact sane_renameModel h hlt hnew
  · rw [hlive]
    exact sane_renameProvider h hold hi hnew

end Config

/-! ### Edits -/

/-- A handler other than `put_config`. -/
def Edit.Granular : Edit → Prop
  | .putConfig _ => False
  | _ => True

/-- What a body needs beyond what its handler checks. -/
def Edit.Fits (p : Pydantic) (c : GatewayConfig) : Edit → Prop
  | .createModel body => ∀ m, validateModel p body = some m →
      m.id ∉ c.models.map (·.id) ∧ c.AliasesFit c.models.length m.id m.aliasValues ∧
        ∀ b ∈ m.backends, b.provider ∈ c.providers.map (·.id)
  | .updateModel id (.obj d) => ∀ i m, c.modelIndex id = some i → c.models[i]? = some m →
      ∀ aliases, get? d (py "aliases") = some (.arr aliases) → c.AliasesFit i m.id aliases
  | .addBackend _ body => ∀ b, validateBackend p body = some b →
      b.provider ∈ c.providers.map (·.id)
  | .updateBackend _ _ (.obj d) => ∀ id, get? d (py "provider") = some (.str id) →
      id ∈ c.providers.map (·.id)
  | .setProviderApiKey (.obj d) => ∀ v, get? d (py "api_key") = some v → AsciiKey v
  | _ => True

section Edits

variable {p : Pydantic} {c : GatewayConfig} {e : Edit}

/-- A handler of one model that keeps its names and has no new providers. -/
theorem sane_withModel {id : PyStr} {f : ModelConfig → ModelConfig × Verdict} (h : c.Sane)
    (hsave : (withModel c id f).verdict = .save)
    (hf : ∀ m, (f m).2 = .save → (f m).1.id = m.id ∧ (f m).1.fields = m.fields ∧
      (f m).1.backends.map (·.provider) ⊆ m.backends.map (·.provider)) :
    (withModel c id f).live.Sane := by
  obtain ⟨i, m, -, hm, hsaved, hlive⟩ := withModel_save hsave
  obtain ⟨hid, hfields, hproviders⟩ := hf m hsaved
  rw [hlive]
  exact sane_set h hm hid (congrArg (attrList · (py "aliases")) hfields) hproviders

theorem sane_updateModel_iff {id : PyStr} {body : Json} (h : c.Sane)
    (hsave : (withModel c id (updateModel p body)).verdict = .save) :
    (withModel c id (updateModel p body)).live.Sane ↔ (Edit.updateModel id body).Fits p c := by
  obtain ⟨i, m, hi, hm, hsaved, hlive⟩ := withModel_save hsave
  obtain ⟨d, rfl, hid, hbackends, haliases⟩ := updateModel_save hsaved
  have hknown := h.known m (List.mem_of_getElem? hm)
  rw [hlive, sane_set_iff h hm hid, hbackends, and_iff_left hknown]
  rcases haliases with ⟨hnone, heq⟩ | ⟨vs, hsome, heq⟩
  · rw [heq]
    refine iff_of_true (aliasesFit_self h hm) fun _ _ _ _ vs hvs ↦ ?_
    rw [hnone] at hvs
    cases hvs
  · rw [heq]
    constructor
    · intro hfit i' m' hi' hm' vs' hvs'
      obtain rfl := Option.some.inj (hi.symm.trans hi')
      obtain rfl := Option.some.inj (hm.symm.trans hm')
      obtain rfl := Json.arr.inj (Option.some.inj (hsome.symm.trans hvs'))
      exact hfit
    · exact fun hfits ↦ hfits i m hi hm vs hsome

/-- **One edit.** After a handler that saves there is no error exactly if the body fits. -/
theorem sane_handle_iff (h : c.Sane) (he : e.Granular) (hsave : (handle p c e).verdict = .save) :
    (handle p c e).live.Sane ↔ e.Fits p c := by
  cases e with
  | createModel body => exact sane_createModel_iff h hsave
  | updateModel id body => exact sane_updateModel_iff h hsave
  | deleteModel id => exact iff_of_true (sane_deleteModel h) trivial
  | setBackendsTiers id body =>
    refine iff_of_true (sane_withModel h hsave fun m _ ↦ ?_) trivial
    obtain ⟨hid, hfields⟩ := setBackendsTiers_names body m
    exact ⟨hid, hfields, fun s hs ↦ setBackendsTiers_providers body m ▸ hs⟩
  | addBackend id body =>
    obtain ⟨i, m, -, hm, hsaved, hlive⟩ := withModel_save hsave
    show (withModel c id (addBackend p body)).live.Sane ↔ _
    rw [hlive]
    exact sane_addBackend_iff h hm hsaved
  | updateBackend id index body =>
    obtain ⟨i, m, -, hm, hsaved, hlive⟩ := withModel_save hsave
    show (withModel c id (updateBackend index body)).live.Sane ↔ _
    rw [hlive]
    cases body with
    | obj d => exact sane_updateBackend_iff h hm hsaved
    | _ =>
      unfold updateBackend at hsaved
      split at hsaved <;> cases hsaved
  | removeBackend id index =>
    exact iff_of_true (sane_withModel h hsave fun m ↦ removeBackend_save) trivial
  | putTimeRouting id body =>
    refine iff_of_true (sane_withModel h hsave fun m _ ↦ ?_) trivial
    unfold putTimeRouting
    split <;> exact ⟨rfl, rfl, List.Subset.refl _⟩
  | createTimeSlot id body =>
    refine iff_of_true (sane_withModel h hsave fun m _ ↦ ?_) trivial
    unfold createTimeSlot
    split <;> exact ⟨rfl, rfl, List.Subset.refl _⟩
  | updateTimeSlot id slot body =>
    refine iff_of_true (sane_withModel h hsave fun m _ ↦ ?_) trivial
    unfold updateTimeSlot
    split
    · exact ⟨rfl, rfl, List.Subset.refl _⟩
    · split <;> exact ⟨rfl, rfl, List.Subset.refl _⟩
  | deleteTimeSlot id slot =>
    refine iff_of_true (sane_withModel h hsave fun m _ ↦ ?_) trivial
    unfold deleteTimeSlot
    simp only
    split_ifs <;> exact ⟨rfl, rfl, List.Subset.refl _⟩
  | setProviderApiKey body =>
    cases body with
    | obj d => exact sane_setProviderApiKey_iff h hsave
    | _ => cases hsave
  | putConfig body => exact he.elim
  | rename body => exact iff_of_true (sane_renameEntity h hsave) trivial

end Edits

/-! ### Runs -/

/-- The store after an edit. -/
def Store.edited (p : Pydantic) (s : Store) (e : Edit) : Store :=
  (s.edit p e).1

/-- `validate_config` of the current configuration reports no error. -/
def Store.NoError (p : Pydantic) (text : Json → PyStr) (s : Store) : Prop :=
  ∃ c, s.current p = some c ∧ LocalGateway.NoError text c

/-- The body fits the current configuration. -/
def Store.Fits (p : Pydantic) (s : Store) (e : Edit) : Prop :=
  ∀ c, s.current p = some c → e.Fits p c

/-- An edit other than `put_config`, which succeeds. -/
def Store.Succeeds (p : Pydantic) (s : Store) (e : Edit) : Prop :=
  e.Granular ∧ (s.edit p e).2 = true

section Runs

variable {p : Pydantic} {text : Json → PyStr} {s : Store} {e : Edit}

/-- A granular edit that succeeds has written the live object. -/
theorem edited_of_succeeds (h : s.Succeeds p e) :
    ∃ c, s.current p = some c ∧ (handle p c e).verdict = .save ∧
      s.edited p e = s.written (handle p c e).live := by
  obtain ⟨hgranular, hok⟩ := h
  have hplace : ∀ c, (handle p c e).verdict.InPlace = true := fun c ↦
    handle_inPlace fun body heq ↦ by
      rw [heq] at hgranular
      exact hgranular
  unfold Store.edited
  rcases edit_cases p s e with ⟨-, heq⟩ | ⟨c, hc, ⟨hverdict, heq⟩ | ⟨c', hverdict, heq⟩ | ⟨-, heq⟩⟩
  · rw [heq] at hok
    cases hok
  · refine ⟨c, hc, hverdict, ?_⟩
    rw [heq] at hok ⊢
    cases henc : (handle p c e).live.bump.dump.encodable with
    | false =>
      rw [save_of_not_encodable henc] at hok
      cases hok
    | true => rw [save_of_encodable henc, loaded_eq hc, written_of_live]
  · have hnot := hplace c
    rw [hverdict] at hnot
    cases hnot
  · rw [heq] at hok
    cases hok

/-- **One step.** -/
theorem noError_edited_iff (h : s.NoError p text) (he : s.Succeeds p e) :
    (s.edited p e).NoError p text ↔ s.Fits p e := by
  obtain ⟨c, hc, hverdict, hedited⟩ := edited_of_succeeds he
  obtain ⟨c', hc', hsane⟩ := h
  obtain rfl := Option.some.inj (hc.symm.trans hc')
  have hstep := sane_handle_iff (noError_iff.1 hsane) he.1 hverdict
  have hafter : (s.edited p e).NoError p text ↔ (handle p c e).live.Sane := by
    rw [hedited]
    constructor
    · rintro ⟨c', hcurrent, herror⟩
      obtain rfl := Option.some.inj hcurrent
      have hbump := noError_iff.1 herror
      exact ⟨hbump.ids, hbump.hashes, hbump.names, hbump.known, hbump.keys⟩
    · intro hlive
      exact ⟨_, rfl, noError_iff.2 ⟨hlive.ids, hlive.hashes, hlive.names, hlive.known, hlive.keys⟩⟩
  rw [hafter, hstep]
  constructor
  · intro hfits c' hc'
    obtain rfl := Option.some.inj (hc.symm.trans hc')
    exact hfits
  · exact fun hfits ↦ hfits c hc

/-- **Which runs keep the configuration valid.** From a configuration without errors, after every one of a
series of successful edits there is no error exactly if every body fits the configuration it meets. -/
theorem every_noError_iff {es : List Edit} (h : s.NoError p text)
    (hes : Runs.Every (Store.edited p) (fun _ ↦ Store.Succeeds p) s es) :
    Runs.Every (Store.edited p) (fun _ s e ↦ (s.edited p e).NoError p text) s es ↔
      Runs.Every (Store.edited p) (fun _ ↦ Store.Fits p) s es := by
  refine Runs.every_iff_of_invariant (Store.NoError p text) (fun s e hs he ↦ noError_edited_iff hs he) ?_ h hes
  exact fun s e hs he hfits ↦ (noError_edited_iff hs he).2 hfits

end Runs

/-- The text of a string. -/
def plainText : Json → PyStr
  | .str s => s
  | _ => []

/-- A process that has loaded a configuration. -/
def loaded (c : GatewayConfig) : Store :=
  ⟨some c, true, none, fun _ ↦ none⟩

/-- A backend of a provider. -/
def backendOf (provider : String) : Json :=
  .obj [(py "provider", .str (py provider)), (py "model", .str (py "x"))]

/-- New aliases. -/
def aliasesSample (aliases : List Json) : Json :=
  .obj [(py "aliases", .arr aliases)]

/-- A backend of a known provider, and an alias that nothing else has. -/
theorem every_noError_sample :
    Runs.Every (Store.edited .strict) (fun _ s e ↦ (s.edited .strict e).NoError .strict plainText)
      (loaded oneBackend)
      [.addBackend (py "m") (backendOf "b"), .updateModel (py "m") (aliasesSample [.str (py "y")])] := by
  have hstart : (loaded oneBackend).NoError .strict plainText := ⟨oneBackend, rfl, by decide⟩
  refine (every_noError_iff hstart ?_).2 ?_
  · refine Runs.every_cons_iff.2 ⟨⟨trivial, by decide⟩, Runs.every_cons_iff.2 ⟨⟨trivial, by decide⟩, ?_⟩⟩
    exact Runs.every_nil _ _
  · refine Runs.every_cons_iff.2 ⟨?_, Runs.every_cons_iff.2 ⟨?_, Runs.every_nil _ _⟩⟩
    · rintro c hc b hb
      obtain rfl : oneBackend = c := Option.some.inj hc
      obtain rfl : plainBackend (py "b") 1 = b := Option.some.inj hb
      decide
    · rintro c hc i m hi hm aliases haliases
      obtain rfl := Option.some.inj hc
      obtain rfl : 0 = i := Option.some.inj hi
      obtain rfl := Option.some.inj hm
      obtain rfl : [.str (py "y")] = aliases := Json.arr.inj (Option.some.inj haliases)
      exact ⟨by decide, by decide, by decide, by decide, by decide⟩

/-- **A backend that refers to nothing.** `add_backend` takes any provider; `validate_config` finds the
backend afterwards. -/
theorem not_noError_unknownProvider :
    (loaded oneBackend).NoError .strict plainText ∧
      (loaded oneBackend).Succeeds .strict (.addBackend (py "m") (backendOf "z")) ∧
      ¬ ((loaded oneBackend).edited .strict (.addBackend (py "m") (backendOf "z"))).NoError .strict
        plainText := by
  have hstart : (loaded oneBackend).NoError .strict plainText := ⟨oneBackend, rfl, by decide⟩
  have hok : (loaded oneBackend).Succeeds .strict (.addBackend (py "m") (backendOf "z")) :=
    ⟨trivial, by decide⟩
  refine ⟨hstart, hok, fun hafter ↦ ?_⟩
  have hknown := (noError_edited_iff hstart hok).1 hafter oneBackend rfl (plainBackend (py "z") 1) rfl
  revert hknown
  decide

end LocalGateway
