import LocalGateway.Config.Views

/-!
# Secrecy

Configurations that differ in nothing but keys that are not empty (`Alike`). They are the same once
redacted, and only then (`alike_iff`), so a function shows nothing of the difference if it is the same
for a configuration and for the redacted one. That is so of the views, and up to keys of what the
handlers of edits do (`handle_redacted`): a handler moves keys, and it does not ask what they are.
-/

namespace LocalGateway

open Py Json

/-! ### Configurations that differ in keys -/

/-- The keys are the same, or neither is empty. -/
def AlikeKeys (v w : Json) : Prop :=
  v = w ∨ truthy v = true ∧ truthy w = true

structure ProviderConfig.Alike (pr pr' : ProviderConfig) : Prop where
  id : pr.id = pr'.id
  key : AlikeKeys pr.apiKey pr'.apiKey
  attrs : pr.attrs = pr'.attrs

structure ApiKeyConfig.Alike (k k' : ApiKeyConfig) : Prop where
  id : k.id = k'.id
  key : AlikeKeys (.str k.key) (.str k'.key)
  attrs : k.attrs = k'.attrs

structure ServerConfig.Alike (s s' : ServerConfig) : Prop where
  key : AlikeKeys (dumpOpt s.apiKey) (dumpOpt s'.apiKey)
  clients : List.Forall₂ ApiKeyConfig.Alike s.apiKeys s'.apiKeys
  attrs : s.attrs = s'.attrs

/-- The configurations differ in nothing but keys that are not empty. -/
structure GatewayConfig.Alike (c c' : GatewayConfig) : Prop where
  server : c.server.Alike c'.server
  providers : List.Forall₂ ProviderConfig.Alike c.providers c'.providers
  models : c.models = c'.models
  pricing : c.pricing = c'.pricing
  version : c.version = c'.version

theorem alikeKeys_iff {v w : Json} : AlikeKeys v w ↔ shownKey v = shownKey w := by
  unfold AlikeKeys shownKey
  constructor
  · rintro (rfl | ⟨hv, hw⟩)
    · rfl
    · rw [if_pos hv, if_pos hw]
  · intro h
    split_ifs at h with hv hw hw
    · exact .inr ⟨hv, hw⟩
    · exact absurd (h ▸ rfl : truthy w = true) hw
    · exact absurd (h ▸ rfl : truthy v = true) hv
    · exact .inl h

theorem shownKey_str (s : PyStr) : shownKey (.str s) = .str (shownText s) := by
  rcases s with - | ⟨x, xs⟩ <;> rfl

theorem shownKey_dumpOpt (s : Option PyStr) : shownKey (dumpOpt s) = dumpOpt (s.map shownText) := by
  cases s with
  | none => rfl
  | some s => exact shownKey_str s

theorem dumpOpt_inj {s s' : Option PyStr} : dumpOpt s = dumpOpt s' ↔ s = s' := by
  cases s <;> cases s' <;> simp [dumpOpt]

theorem ProviderConfig.alike_iff {pr pr' : ProviderConfig} :
    pr.Alike pr' ↔ pr.redacted = pr'.redacted := by
  obtain ⟨id, key, attrs⟩ := pr
  obtain ⟨id', key', attrs'⟩ := pr'
  constructor
  · rintro ⟨rfl, hkey, rfl⟩
    exact congrArg (ProviderConfig.mk _ · _) (alikeKeys_iff.1 hkey)
  · intro h
    obtain ⟨hid, hkey, hattrs⟩ := ProviderConfig.mk.inj h
    exact ⟨hid, alikeKeys_iff.2 hkey, hattrs⟩

theorem ApiKeyConfig.alike_iff {k k' : ApiKeyConfig} : k.Alike k' ↔ k.redacted = k'.redacted := by
  have hkey : AlikeKeys (.str k.key) (.str k'.key) ↔ shownText k.key = shownText k'.key := by
    rw [alikeKeys_iff, shownKey_str, shownKey_str, Json.str.injEq]
  constructor
  · rintro ⟨hid, h, hattrs⟩
    rw [ApiKeyConfig.redacted, ApiKeyConfig.redacted, hkey.1 h, hid, hattrs]
  · intro h
    obtain ⟨hid, h, hattrs⟩ := ApiKeyConfig.mk.inj h
    exact ⟨hid, hkey.2 h, hattrs⟩

theorem providers_alike_iff {prs prs' : List ProviderConfig} :
    List.Forall₂ ProviderConfig.Alike prs prs' ↔
      prs.map ProviderConfig.redacted = prs'.map ProviderConfig.redacted :=
  forall₂_iff_map_eq fun _ _ ↦ ProviderConfig.alike_iff

theorem clients_alike_iff {ks ks' : List ApiKeyConfig} :
    List.Forall₂ ApiKeyConfig.Alike ks ks' ↔
      ks.map ApiKeyConfig.redacted = ks'.map ApiKeyConfig.redacted :=
  forall₂_iff_map_eq fun _ _ ↦ ApiKeyConfig.alike_iff

theorem ServerConfig.alike_iff {s s' : ServerConfig} : s.Alike s' ↔ s.redacted = s'.redacted := by
  have hkey : AlikeKeys (dumpOpt s.apiKey) (dumpOpt s'.apiKey) ↔
      s.apiKey.map shownText = s'.apiKey.map shownText := by
    rw [alikeKeys_iff, shownKey_dumpOpt, shownKey_dumpOpt, dumpOpt_inj]
  constructor
  · rintro ⟨h, hcs, hattrs⟩
    rw [ServerConfig.redacted, ServerConfig.redacted, hkey.1 h, clients_alike_iff.1 hcs, hattrs]
  · intro h
    obtain ⟨h, hcs, hattrs⟩ := ServerConfig.mk.inj h
    exact ⟨hkey.2 h, clients_alike_iff.2 hcs, hattrs⟩

/-- Configurations are alike if and only if they are the same once redacted. -/
theorem alike_iff {c c' : GatewayConfig} : c.Alike c' ↔ c.redacted = c'.redacted := by
  constructor
  · rintro ⟨hserver, hprs, hmodels, hpricing, hversion⟩
    rw [GatewayConfig.redacted, GatewayConfig.redacted, ServerConfig.alike_iff.1 hserver,
      providers_alike_iff.1 hprs, hmodels, hpricing, hversion]
  · intro h
    obtain ⟨hserver, hprs, hmodels, hpricing, hversion⟩ := GatewayConfig.mk.inj h
    exact ⟨ServerConfig.alike_iff.2 hserver, providers_alike_iff.2 hprs, hmodels, hpricing, hversion⟩

/-- Configurations that are alike and have the same keys are the same. -/
theorem eq_of_alike {c c' : GatewayConfig} (h : c.Alike c') (hkeys : c.keys = c'.keys) : c = c' := by
  obtain ⟨hprs, hkey, hcs⟩ := Keys.mk.inj hkeys
  have hproviders : c.providers = c'.providers := by
    refine eq_of_map_eq (fun pr pr' h hkey ↦ ?_) (providers_alike_iff.1 h.providers) hprs
    obtain ⟨hid, -, hattrs⟩ := ProviderConfig.mk.inj h
    exact (ProviderConfig.mk.injEq ..).mpr ⟨hid, hkey, hattrs⟩
  have hclients : c.server.apiKeys = c'.server.apiKeys := by
    refine eq_of_map_eq (fun k k' h hkey ↦ ?_) (clients_alike_iff.1 h.server.clients) hcs
    obtain ⟨hid, -, hattrs⟩ := ApiKeyConfig.mk.inj h
    exact (ApiKeyConfig.mk.injEq ..).mpr ⟨hid, hkey, hattrs⟩
  have hserver : c.server = c'.server :=
    (ServerConfig.mk.injEq ..).mpr ⟨hkey, hclients, h.server.attrs⟩
  exact (GatewayConfig.mk.injEq ..).mpr ⟨hserver, hproviders, h.models, h.pricing, h.version⟩

/-! ### Redacting twice -/

theorem shownKey_shownKey (v : Json) : shownKey (shownKey v) = shownKey v := by
  unfold shownKey
  split_ifs <;> rfl

theorem shownText_shownText (s : PyStr) : shownText (shownText s) = shownText s := by
  rcases s with - | ⟨x, xs⟩ <;> rfl

theorem ProviderConfig.redacted_redacted (pr : ProviderConfig) : pr.redacted.redacted = pr.redacted :=
  congrArg (ProviderConfig.mk _ · _) (shownKey_shownKey pr.apiKey)

theorem ApiKeyConfig.redacted_redacted (k : ApiKeyConfig) : k.redacted.redacted = k.redacted :=
  congrArg (ApiKeyConfig.mk _ · _) (shownText_shownText k.key)

theorem ServerConfig.redacted_redacted (s : ServerConfig) : s.redacted.redacted = s.redacted := by
  have hkey : (s.apiKey.map shownText).map shownText = s.apiKey.map shownText := by
    rw [Option.map_map]
    exact congrArg (s.apiKey.map ·) (funext shownText_shownText)
  have hclients : (s.apiKeys.map ApiKeyConfig.redacted).map ApiKeyConfig.redacted =
      s.apiKeys.map ApiKeyConfig.redacted := by
    rw [List.map_map]
    exact List.map_congr_left fun k _ ↦ k.redacted_redacted
  rw [ServerConfig.redacted, ServerConfig.redacted, hkey, hclients]

theorem providers_redacted_redacted (prs : List ProviderConfig) :
    (prs.map ProviderConfig.redacted).map ProviderConfig.redacted = prs.map ProviderConfig.redacted := by
  rw [List.map_map]
  exact List.map_congr_left fun pr _ ↦ pr.redacted_redacted

theorem redacted_redacted (c : GatewayConfig) : c.redacted.redacted = c.redacted := by
  rw [GatewayConfig.redacted, GatewayConfig.redacted, ServerConfig.redacted_redacted,
    providers_redacted_redacted]

/-! ### What the handlers do -/

/-- The verdict without keys. -/
def Verdict.redacted : Verdict → Verdict
  | .saveNew c => .saveNew c.redacted
  | v => v

/-- The outcome without keys. -/
def Outcome.redacted (o : Outcome) : Outcome :=
  ⟨o.live.redacted, o.verdict.redacted⟩

section Handlers

variable (p : Pydantic) (c : GatewayConfig)

theorem modelIndex_redacted (id : PyStr) : c.redacted.modelIndex id = c.modelIndex id := by
  unfold GatewayConfig.modelIndex
  rfl

theorem providerIndex_redacted (id : PyStr) : c.redacted.providerIndex id = c.providerIndex id := by
  show (c.providers.map ProviderConfig.redacted).findIdx? _ = _
  rw [List.findIdx?_map]
  rfl

theorem unchanged_redacted (v : Verdict) :
    (Outcome.mk c.redacted v).redacted = (Outcome.mk c v).redacted := by
  rw [Outcome.redacted, redacted_redacted]
  rfl

theorem withModels_redacted (ms : List ModelConfig) (v : Verdict) :
    (Outcome.mk { c.redacted with models := ms } v).redacted =
      (Outcome.mk { c with models := ms } v).redacted :=
  unchanged_redacted { c with models := ms } v

theorem withModel_redacted (id : PyStr) (f : ModelConfig → ModelConfig × Verdict) :
    (withModel c.redacted id f).redacted = (withModel c id f).redacted := by
  rw [withModel, withModel, modelIndex_redacted, show c.redacted.models = c.models from rfl]
  split
  · exact unchanged_redacted c _
  · split
    · exact unchanged_redacted c _
    · exact withModels_redacted c _ _

theorem createModel_redacted (body : Json) :
    (createModel p c.redacted body).redacted = (createModel p c body).redacted := by
  unfold createModel
  simp only [modelIndex_redacted]
  split
  · split
    · split_ifs
      · exact unchanged_redacted c _
      · exact unchanged_redacted c _
      · split
        · exact unchanged_redacted c _
        · exact withModels_redacted c _ _
    · exact unchanged_redacted c _
  · exact unchanged_redacted c _

theorem deleteModel_redacted (id : PyStr) :
    (deleteModel c.redacted id).redacted = (deleteModel c id).redacted := by
  rw [deleteModel, deleteModel, show c.redacted.models = c.models from rfl]
  split
  · exact unchanged_redacted c _
  · exact withModels_redacted c _ _

/-- A change of one element that shows the same for what is shown already. -/
theorem map_modify_map {α : Type} {f g : α → α} (hg : ∀ x, g (g x) = g x)
    (hf : ∀ x, g (f (g x)) = g (f x)) (xs : List α) (i : ℕ) :
    ((xs.map g).modify i f).map g = (xs.modify i f).map g := by
  induction xs generalizing i with
  | nil => cases i <;> rfl
  | cons x xs ih =>
    cases i with
    | zero =>
      have hrest : (xs.map g).map g = xs.map g := by
        rw [List.map_map]
        exact List.map_congr_left fun x _ ↦ hg x
      exact congrArg₂ List.cons (hf x) hrest
    | succ i => exact congrArg₂ List.cons (hg x) (ih i)

/-- The providers are changed in one place. -/
theorem withProviders_redacted {f : ProviderConfig → ProviderConfig}
    (hf : ∀ pr, (f pr.redacted).redacted = (f pr).redacted) (i : ℕ) (models : List ModelConfig)
    (pricing : List (PyStr × Attrs pricingClass)) (v : Verdict) :
    (Outcome.mk (GatewayConfig.mk c.redacted.server (c.redacted.providers.modify i f) models pricing
        c.version) v).redacted =
      (Outcome.mk (GatewayConfig.mk c.server (c.providers.modify i f) models pricing c.version)
        v).redacted := by
  have hserver : c.redacted.server.redacted = c.server.redacted := ServerConfig.redacted_redacted _
  have hproviders : (c.redacted.providers.modify i f).map ProviderConfig.redacted =
      (c.providers.modify i f).map ProviderConfig.redacted :=
    map_modify_map ProviderConfig.redacted_redacted hf c.providers i
  show Outcome.mk (GatewayConfig.mk c.redacted.server.redacted
      ((c.redacted.providers.modify i f).map ProviderConfig.redacted) models pricing c.version)
      v.redacted = Outcome.mk (GatewayConfig.mk c.server.redacted
        ((c.providers.modify i f).map ProviderConfig.redacted) models pricing c.version) v.redacted
  rw [hserver, hproviders]

theorem setProviderApiKey_redacted (body : Json) :
    (setProviderApiKey c.redacted body).redacted = (setProviderApiKey c body).redacted := by
  unfold setProviderApiKey
  simp only [providerIndex_redacted]
  split
  · split
    · exact unchanged_redacted c _
    · split_ifs
      · exact unchanged_redacted c _
      all_goals split
      all_goals first
        | exact unchanged_redacted c _
        | exact withProviders_redacted c (fun _ ↦ rfl) _ _ _ _
  · exact unchanged_redacted c _

theorem renameEntity_redacted (body : Json) :
    (renameEntity c.redacted body).redacted = (renameEntity c body).redacted := by
  have hrename {id : PyStr} (pr : ProviderConfig) :
      ({ pr.redacted with id := id } : ProviderConfig).redacted =
        ({ pr with id := id } : ProviderConfig).redacted :=
    congrArg (ProviderConfig.mk _ · _) (shownKey_shownKey pr.apiKey)
  unfold renameEntity
  simp only [modelIndex_redacted, providerIndex_redacted]
  split
  · split
    · split_ifs
      all_goals first
        | exact unchanged_redacted c _
        | skip
      all_goals split
      all_goals first
        | exact unchanged_redacted c _
        | exact withModels_redacted c _ _
        | exact withProviders_redacted c hrename _ _ _ _
    · exact unchanged_redacted c _
  · exact unchanged_redacted c _

/-- The restored entries show the same if what is restored for each does. -/
theorem restoreAll_map_eq {α : Type} {f g : α → Except PyStr α} {shown : α → α}
    (h : ∀ x, (f x).map shown = (g x).map shown) (xs : List α) :
    (restoreAll f xs).map (List.map shown) = (restoreAll g xs).map (List.map shown) := by
  induction xs with
  | nil => rfl
  | cons x xs ih =>
    have hx := h x
    rw [restoreAll, restoreAll]
    rcases hf : f x with e | y <;> rcases hg : g x with e' | z <;> rw [hf, hg] at hx
    · exact congrArg Except.error (Except.error.inj hx)
    · cases hx
    · cases hx
    · rcases hfs : restoreAll f xs with e | ys <;> rcases hgs : restoreAll g xs with e' | zs <;>
        rw [hfs, hgs] at ih
      · exact congrArg Except.error (Except.error.inj ih)
      · cases ih
      · cases ih
      · exact congrArg Except.ok (congrArg₂ List.cons (Except.ok.inj hx) (Except.ok.inj ih))

theorem restoreProviderKey_map (pr : ProviderConfig) :
    (restoreProviderKey c.redacted pr).map ProviderConfig.redacted =
      (restoreProviderKey c pr).map ProviderConfig.redacted := by
  have hfind : c.redacted.providers.find? (·.id = pr.id) =
      (c.providers.find? (·.id = pr.id)).map ProviderConfig.redacted := providerById_redacted c pr.id
  unfold restoreProviderKey
  split_ifs
  · rw [hfind]
    generalize List.find? _ c.providers = found
    rcases found with - | existing
    · rfl
    · exact congrArg (fun v ↦ Except.ok (ProviderConfig.mk pr.id v pr.attrs))
        (shownKey_shownKey existing.apiKey)
  · rfl

theorem restoreClientKey_map (k : ApiKeyConfig) :
    (restoreClientKey c.redacted k).map ApiKeyConfig.redacted =
      (restoreClientKey c k).map ApiKeyConfig.redacted := by
  have hfind : c.redacted.server.apiKeys.find? (·.id = k.id) =
      (c.server.apiKeys.find? (·.id = k.id)).map ApiKeyConfig.redacted := by
    show (c.server.apiKeys.map ApiKeyConfig.redacted).find? (·.id = k.id) = _
    rw [List.find?_map]
    rfl
  unfold restoreClientKey
  split_ifs
  · rw [hfind]
    generalize List.find? _ c.server.apiKeys = found
    rcases found with - | existing
    · rfl
    · exact congrArg (fun s ↦ Except.ok (ApiKeyConfig.mk k.id s k.attrs))
        (shownText_shownText existing.key)
  · rfl

/-- A PUT takes keys from the configuration that is there, and puts them where keys are. -/
theorem putConfig_redacted (body : Json) :
    (putConfig p c.redacted body).redacted = (putConfig p c body).redacted := by
  unfold putConfig
  simp only [show c.redacted.version = c.version from rfl]
  split_ifs
  · exact unchanged_redacted c _
  split
  · exact unchanged_redacted c _
  next cfg _ =>
  have hproviders := restoreAll_map_eq (restoreProviderKey_map c) cfg.providers
  have hclients := restoreAll_map_eq (restoreClientKey_map c) cfg.server.apiKeys
  -- a redacted key without one to restore fails on both sides or on neither
  rcases hprs : restoreAll (restoreProviderKey c.redacted) cfg.providers with id | prs <;>
    rcases hprs' : restoreAll (restoreProviderKey c) cfg.providers with id' | prs' <;>
    rw [hprs, hprs'] at hproviders
  · obtain rfl := Except.error.inj hproviders
    exact unchanged_redacted c _
  · cases hproviders
  · cases hproviders
  rcases hks : restoreAll (restoreClientKey c.redacted) cfg.server.apiKeys with id | ks <;>
    rcases hks' : restoreAll (restoreClientKey c) cfg.server.apiKeys with id' | ks' <;>
    rw [hks, hks'] at hclients
  · obtain rfl := Except.error.inj hclients
    exact unchanged_redacted c _
  · cases hclients
  · cases hclients
  have hkey : (if cfg.server.apiKey = some redactedKey then c.redacted.server.apiKey
      else cfg.server.apiKey).map shownText =
        (if cfg.server.apiKey = some redactedKey then c.server.apiKey
          else cfg.server.apiKey).map shownText := by
    split_ifs
    · show (c.server.apiKey.map shownText).map shownText = _
      rw [Option.map_map]
      exact congrArg (c.server.apiKey.map ·) (funext shownText_shownText)
    · rfl
  show Outcome.mk c.redacted.redacted (.saveNew (GatewayConfig.mk (ServerConfig.mk
      ((if cfg.server.apiKey = some redactedKey then c.redacted.server.apiKey
        else cfg.server.apiKey).map shownText) (ks.map ApiKeyConfig.redacted) cfg.server.attrs)
      (prs.map ProviderConfig.redacted) cfg.models cfg.pricing c.version)) = _
  rw [hkey, Except.ok.inj hclients, Except.ok.inj hproviders, redacted_redacted]
  rfl

/-- **Handlers.** What they do is the same for the redacted configuration, up to keys. -/
theorem handle_redacted (e : Edit) : (handle p c.redacted e).redacted = (handle p c e).redacted := by
  cases e with
  | createModel body => exact createModel_redacted p c body
  | deleteModel id => exact deleteModel_redacted c id
  | setProviderApiKey body => exact setProviderApiKey_redacted c body
  | putConfig body => exact putConfig_redacted p c body
  | rename body => exact renameEntity_redacted c body
  | _ => exact withModel_redacted c _ _

end Handlers

end LocalGateway
