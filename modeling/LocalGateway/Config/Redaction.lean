import LocalGateway.Foundations.Related
import LocalGateway.Config.Contents
import LocalGateway.Config.Preflight

/-!
# Redacted keys

`GET /admin/config` writes a placeholder for every key, and `PUT /admin/config` takes the placeholder
for the key that is stored under the id of its entry. The page that edits the configuration sends back
the whole of what it was given, so every key of the gateway passes through the two.

What a PUT stores is said entry by entry (`Restores`); it holds of every accepted PUT whose entries with
the placeholder name a single key (`restores_iff`). The ids of providers and clients need not be
distinct: `validate_config` looks at those of providers only, and `put_config` does not ask it.
-/

namespace LocalGateway

open Py Json Runs

/-! ### `get_config` -/

/-- `e[name] = REDACTED_KEY` where `e.get(name)` is true. -/
def redactAt (name : PyStr) : Json → Json
  | .obj d =>
    match get? d name with
    | some v => if truthy v then .obj (setKey d name (.str redactedKey)) else .obj d
    | none => .obj d
  | v => v

/-- The entry of an object is rewritten in place. -/
def rewriteAt (name : PyStr) (f : Json → Json) : Json → Json
  | .obj d =>
    match get? d name with
    | some v => .obj (setKey d name (f v))
    | none => .obj d
  | v => v

/-- The items of a list are rewritten in place. -/
def rewriteItems (f : Json → Json) : Json → Json
  | .arr xs => .arr (xs.map f)
  | v => v

/-- `get_config`: the dump with the placeholder for every key. -/
def getConfig (c : GatewayConfig) : Json :=
  let dump := rewriteAt (py "providers") (rewriteItems (redactAt (py "api_key"))) c.dump
  rewriteAt (py "server") (fun server ↦ redactAt (py "api_key")
    (rewriteAt (py "api_keys") (rewriteItems (redactAt (py "key"))) server)) dump

/-- A key as it is shown. -/
def shownKey (v : Json) : Json :=
  if truthy v then .str redactedKey else v

/-- A key of a client as it is shown. -/
def shownText (s : PyStr) : PyStr :=
  if s = [] then [] else redactedKey

def ProviderConfig.redacted (pr : ProviderConfig) : ProviderConfig :=
  { pr with apiKey := shownKey pr.apiKey }

def ApiKeyConfig.redacted (k : ApiKeyConfig) : ApiKeyConfig :=
  { k with key := shownText k.key }

def ServerConfig.redacted (s : ServerConfig) : ServerConfig :=
  { s with apiKey := s.apiKey.map shownText, apiKeys := s.apiKeys.map ApiKeyConfig.redacted }

/-- The configuration with the placeholder for every key. -/
def GatewayConfig.redacted (c : GatewayConfig) : GatewayConfig :=
  { c with server := c.server.redacted, providers := c.providers.map ProviderConfig.redacted }

/-! ### The dump of what is redacted -/

theorem redactAt_provider (pr : ProviderConfig) :
    redactAt (py "api_key") pr.dump = pr.redacted.dump := by
  show (if truthy pr.apiKey then
      Json.obj (setKey ([(py "id", .str pr.id), (py "api_key", pr.apiKey)] ++ pr.attrs.fields)
        (py "api_key") (.str redactedKey))
    else pr.dump) = .obj ([(py "id", .str pr.id), (py "api_key", shownKey pr.apiKey)] ++
      pr.attrs.fields)
  unfold shownKey
  split_ifs <;> rfl

theorem redactAt_client (k : ApiKeyConfig) :
    redactAt (py "key") k.dump = k.redacted.dump := by
  show (if truthy (.str k.key) then
      Json.obj (setKey ([(py "id", .str k.id), (py "key", .str k.key)] ++ k.attrs.fields)
        (py "key") (.str redactedKey))
    else k.dump) = .obj ([(py "id", .str k.id), (py "key", .str (shownText k.key))] ++ k.attrs.fields)
  rcases hkey : k.key with - | ⟨x, xs⟩
  · rw [ApiKeyConfig.dump, hkey]
    rfl
  · rfl

theorem redactAt_server (s : ServerConfig) :
    redactAt (py "api_key") (rewriteAt (py "api_keys") (rewriteItems (redactAt (py "key"))) s.dump) =
      s.redacted.dump := by
  have hkeys : rewriteAt (py "api_keys") (rewriteItems (redactAt (py "key"))) s.dump =
      ({ s with apiKeys := s.apiKeys.map ApiKeyConfig.redacted } : ServerConfig).dump := by
    show Json.obj ([(py "api_key", dumpOpt s.apiKey),
      (py "api_keys", .arr ((s.apiKeys.map ApiKeyConfig.dump).map (redactAt (py "key"))))] ++
        s.attrs.fields) = .obj ([(py "api_key", dumpOpt s.apiKey),
          (py "api_keys", .arr ((s.apiKeys.map ApiKeyConfig.redacted).map ApiKeyConfig.dump))] ++
            s.attrs.fields)
    rw [List.map_map, List.map_map]
    simp only [Function.comp_def, redactAt_client]
  rw [hkeys, ServerConfig.redacted, ServerConfig.dump]
  rcases hkey : s.apiKey with - | (- | ⟨x, xs⟩) <;> rfl

/-- What `get_config` returns is the dump of the redacted configuration. -/
theorem getConfig_eq (c : GatewayConfig) : getConfig c = c.redacted.dump := by
  have hproviders : (c.providers.map ProviderConfig.dump).map (redactAt (py "api_key")) =
      (c.providers.map ProviderConfig.redacted).map ProviderConfig.dump := by
    rw [List.map_map, List.map_map]
    simp only [Function.comp_def, redactAt_provider]
  show Json.obj [(py "server", redactAt (py "api_key")
      (rewriteAt (py "api_keys") (rewriteItems (redactAt (py "key"))) c.server.dump)),
    (py "providers", .arr ((c.providers.map ProviderConfig.dump).map (redactAt (py "api_key")))),
    (py "models", .arr (c.models.map ModelConfig.dump)),
    (py "pricing", .obj (c.pricing.map fun e ↦ (e.1, .obj e.2.fields))),
    (py "version", .int c.version)] = _
  rw [redactAt_server, hproviders]
  rfl

/-! ### What is submitted -/

/-- `v.get(name)` of an object. -/
def field (v : Json) (name : PyStr) : Option Json :=
  match v with
  | .obj d => get? d name
  | _ => none

/-- The items of a list in an object. -/
def listAt (v : Json) (name : PyStr) : List Json :=
  match field v name with
  | some (.arr xs) => xs
  | _ => []

/-- The server section of a body. -/
def serverOf (body : Json) : Json :=
  (field body (py "server")).getD (.obj [])

variable {p : Pydantic}

theorem validateStr_eq_some {d : PyDict} {name s : PyStr} {default : Option PyStr}
    (h : validateStr p d name default = some s) :
    field (.obj d) name = some (.str s) ∨ field (.obj d) name = none ∧ default = some s := by
  unfold validateStr validateField at h
  rcases hfield : get? d name with - | v
  · simp only [hfield] at h
    refine .inr ⟨hfield, ?_⟩
    rcases default with - | s'
    · cases h
    · exact congrArg some (Option.some.inj h)
  · simp only [hfield] at h
    split at h
    · next s' hcoerce =>
      obtain rfl := Option.some.inj h
      rw [← p.str_exact v _ hcoerce] at hfield
      exact .inl hfield
    · cases h

theorem validateItems_of_list {α : Type} {d : PyDict} {name : PyStr} {f : Json → Option α}
    {xs : List α} (h : validateList d name f = some xs) :
    validateItems f (listAt (.obj d) name) = some xs := by
  have hlist : listAt (.obj d) name = match get? d name with
      | some (.arr xs) => xs
      | _ => [] := rfl
  unfold validateList at h
  rw [hlist]
  split at h
  · next hfield =>
    rw [hfield, ← Option.some.inj h]
    rfl
  · next ys hfield =>
    rw [hfield]
    exact h
  · cases h

theorem validateItems_forall₂ {α : Type} {f : Json → Option α} {vs : List Json} {xs : List α}
    (h : validateItems f vs = some xs) : List.Forall₂ (fun v x ↦ f v = some x) vs xs := by
  induction vs generalizing xs with
  | nil =>
    obtain rfl := Option.some.inj h
    exact .nil
  | cons v vs ih =>
    simp only [validateItems, Option.bind_eq_bind, Option.bind_eq_some_iff] at h
    obtain ⟨x, hx, xs', hxs, h⟩ := h
    obtain rfl := Option.some.inj h
    exact .cons hx (ih hxs)

/-- A provider is validated with its id and its key as they are. -/
theorem validateProvider_eq_some {v : Json} {pr : ProviderConfig}
    (h : validateProvider p v = some pr) :
    field v (py "id") = some (.str pr.id) ∧
      (field v (py "api_key") = some pr.apiKey ∨
        field v (py "api_key") = none ∧ pr.apiKey = .str []) := by
  unfold validateProvider at h
  split at h
  · next d =>
    simp only [Option.bind_eq_bind, Option.bind_eq_some_iff] at h
    obtain ⟨id, hid, key, hkey, attrs, -, h⟩ := h
    obtain rfl := Option.some.inj h
    refine ⟨(validateStr_eq_some hid).resolve_right (fun h ↦ by cases h.2), ?_⟩
    refine (validateStr_eq_some hkey).imp_right (And.imp_right fun h ↦ ?_)
    rw [← Option.some.inj h]
  · cases h

/-- A client key is validated with its id and its key as they are. -/
theorem validateApiKey_eq_some {v : Json} {k : ApiKeyConfig} (h : validateApiKey p v = some k) :
    field v (py "id") = some (.str k.id) ∧ field v (py "key") = some (.str k.key) := by
  unfold validateApiKey at h
  split at h
  · next d =>
    simp only [Option.bind_eq_bind, Option.bind_eq_some_iff] at h
    obtain ⟨id, hid, key, hkey, attrs, -, h⟩ := h
    obtain rfl := Option.some.inj h
    exact ⟨(validateStr_eq_some hid).resolve_right (fun h ↦ by cases h.2),
      (validateStr_eq_some hkey).resolve_right (fun h ↦ by cases h.2)⟩
  · cases h

/-- The server section is validated item by item. -/
theorem validateServer_eq_some {v : Json} {server : ServerConfig}
    (h : validateServer p v = some server) :
    validateItems (validateApiKey p) (listAt v (py "api_keys")) = some server.apiKeys ∧
      ∃ d, v = .obj d ∧ validateOptStr p d (py "api_key") = some server.apiKey := by
  unfold validateServer at h
  split at h
  · next d =>
    simp only [Option.bind_eq_bind, Option.bind_eq_some_iff] at h
    obtain ⟨apiKey, hkey, apiKeys, hkeys, attrs, -, h⟩ := h
    obtain rfl := Option.some.inj h
    exact ⟨validateItems_of_list hkeys, d, rfl, hkey⟩
  · cases h

theorem validateGateway_eq_some {v : Json} {c : GatewayConfig} (h : validateGateway p v = some c) :
    validateServer p (serverOf v) = some c.server ∧
      validateItems (validateProvider p) (listAt v (py "providers")) = some c.providers := by
  unfold validateGateway at h
  split at h
  · next d =>
    simp only [Option.bind_eq_bind, Option.bind_eq_some_iff] at h
    obtain ⟨server, hserver, providers, hproviders, models, -, pricing, -, version, -, h⟩ := h
    obtain rfl := Option.some.inj h
    exact ⟨hserver, validateItems_of_list hproviders⟩
  · cases h

/-! ### What is restored -/

theorem restoreProviderKey_eq_ok {c : GatewayConfig} {pr pr' : ProviderConfig}
    (h : restoreProviderKey c pr = .ok pr') :
    pr.apiKey = .str redactedKey ∧
        (∃ existing ∈ c.providers, existing.id = pr.id ∧
          pr' = { pr with apiKey := existing.apiKey }) ∨
      pr.apiKey ≠ .str redactedKey ∧ pr' = pr := by
  unfold restoreProviderKey at h
  split_ifs at h with hkey
  · split at h
    · next existing hfind =>
      exact .inl ⟨hkey, existing, List.mem_of_find?_eq_some hfind, by simpa using List.find?_some hfind,
        (Except.ok.inj h).symm⟩
    · cases h
  · exact .inr ⟨hkey, (Except.ok.inj h).symm⟩

theorem restoreClientKey_eq_ok {c : GatewayConfig} {k k' : ApiKeyConfig}
    (h : restoreClientKey c k = .ok k') :
    k.key = redactedKey ∧
        (∃ existing ∈ c.server.apiKeys, existing.id = k.id ∧ k' = { k with key := existing.key }) ∨
      k.key ≠ redactedKey ∧ k' = k := by
  unfold restoreClientKey at h
  split_ifs at h with hkey
  · split at h
    · next existing hfind =>
      exact .inl ⟨hkey, existing, List.mem_of_find?_eq_some hfind, by simpa using List.find?_some hfind,
        (Except.ok.inj h).symm⟩
    · cases h
  · exact .inr ⟨hkey, (Except.ok.inj h).symm⟩

/-- What `put_config` saves: the validated body with the keys restored. -/
theorem putConfig_saveNew {c c' : GatewayConfig} {body : Json}
    (h : (putConfig p c body).verdict = .saveNew c') :
    ∃ cfg, validateGateway p body = some cfg ∧
      restoreAll (restoreProviderKey c) cfg.providers = .ok c'.providers ∧
      restoreAll (restoreClientKey c) cfg.server.apiKeys = .ok c'.server.apiKeys ∧
      c'.server.apiKey = if cfg.server.apiKey = some redactedKey then c.server.apiKey
        else cfg.server.apiKey := by
  unfold putConfig at h
  simp only at h
  split_ifs at h
  split at h
  · cases h
  · next cfg hcfg =>
    split at h
    · cases h
    · next providers hproviders =>
      split at h
      · cases h
      · next apiKeys hkeys =>
        obtain rfl := Verdict.saveNew.inj h
        exact ⟨cfg, hcfg, hproviders, hkeys, rfl⟩

theorem restoreAll_forall₂ {α : Type} {restore : α → Except PyStr α} {xs ys : List α}
    (h : restoreAll restore xs = .ok ys) : List.Forall₂ (fun x y ↦ restore x = .ok y) xs ys := by
  induction xs generalizing ys with
  | nil =>
    obtain rfl := Except.ok.inj h
    exact .nil
  | cons x xs ih =>
    rw [restoreAll] at h
    rcases hy : restore x with e | y
    · rw [hy] at h
      cases h
    · rcases hys : restoreAll restore xs with e | ys'
      · rw [hy, hys] at h
        cases h
      · rw [hy, hys] at h
        obtain rfl := Except.ok.inj h
        exact .cons hy (ih hys)

/-! ### The keys of the entries -/

section Entries

variable {α : Type} (stored : List α) (id : α → PyStr) (key : α → Json) (name : PyStr)

/-- The entry that is stored for a submitted one: it has its id; for the placeholder it has the key of
every entry that was stored under the id, of which there are some; and any other key as it is. -/
structure Restored (v : Json) (x : α) : Prop where
  named : field v (py "id") = some (.str (id x))
  masked : field v name = some (.str redactedKey) →
    (∃ y ∈ stored, id y = id x) ∧ ∀ y ∈ stored, id y = id x → key x = key y
  plain : ∀ k, field v name = some k → k ≠ .str redactedKey → key x = k

/-- An entry that is submitted with the placeholder names one key only. -/
def NamesOne (v : Json) : Prop :=
  field v name = some (.str redactedKey) → ∀ y ∈ stored, ∀ z ∈ stored,
    field v (py "id") = some (.str (id y)) → id z = id y → key z = key y

variable {stored id key name}

/-- An entry whose key is taken from some entry of its id is restored if and only if that is the only
key there is. -/
theorem restored_iff {v : Json} {x : α} (hid : field v (py "id") = some (.str (id x)))
    (hmasked : field v name = some (.str redactedKey) → ∃ y ∈ stored, id y = id x ∧ key x = key y)
    (hplain : ∀ k, field v name = some k → k ≠ .str redactedKey → key x = k) :
    Restored stored id key name v x ↔ NamesOne stored id key name v := by
  constructor
  · intro h hmask y hy z hz hname hzy
    have hxy : id y = id x := Json.str.inj (Option.some.inj (hname.symm.trans hid))
    have hkeys := (h.masked hmask).2
    rw [← hkeys y hy hxy, hkeys z hz (hzy.trans hxy)]
  · intro h
    refine ⟨hid, fun hmask ↦ ?_, hplain⟩
    obtain ⟨y, hy, hyx, hkey⟩ := hmasked hmask
    refine ⟨⟨y, hy, hyx⟩, fun z hz hzx ↦ ?_⟩
    rw [hkey, h hmask y hy z hz (by rw [hid, hyx]) (hzx.trans hyx.symm)]

end Entries

theorem restored_provider_iff {c : GatewayConfig} {v : Json} {pr pr' : ProviderConfig}
    (hvalid : validateProvider p v = some pr) (hrestore : restoreProviderKey c pr = .ok pr') :
    Restored c.providers (·.id) (·.apiKey) (py "api_key") v pr' ↔
      NamesOne c.providers (·.id) (·.apiKey) (py "api_key") v := by
  obtain ⟨hid, hkey⟩ := validateProvider_eq_some hvalid
  have hapi : ∀ key, field v (py "api_key") = some key → pr.apiKey = key := fun key hfield ↦ by
    rcases hkey with h | ⟨h, -⟩
    · exact Option.some.inj (h.symm.trans hfield)
    · rw [h] at hfield
      cases hfield
  rcases restoreProviderKey_eq_ok hrestore with ⟨hmask, y, hy, hyid, rfl⟩ | ⟨hne, rfl⟩
  · exact restored_iff hid (fun _ ↦ ⟨y, hy, hyid, rfl⟩)
      fun key hfield hne ↦ absurd ((hapi key hfield).symm.trans hmask) hne
  · exact restored_iff hid (fun hmask ↦ absurd (hapi _ hmask) hne) fun key hfield _ ↦ hapi key hfield

theorem restored_client_iff {c : GatewayConfig} {v : Json} {k k' : ApiKeyConfig}
    (hvalid : validateApiKey p v = some k) (hrestore : restoreClientKey c k = .ok k') :
    Restored c.server.apiKeys (·.id) (fun k ↦ .str k.key) (py "key") v k' ↔
      NamesOne c.server.apiKeys (·.id) (fun k ↦ .str k.key) (py "key") v := by
  obtain ⟨hid, hkey⟩ := validateApiKey_eq_some hvalid
  have hapi : ∀ key, field v (py "key") = some key → .str k.key = key := fun key hfield ↦
    Option.some.inj (hkey.symm.trans hfield)
  rcases restoreClientKey_eq_ok hrestore with ⟨hmask, y, hy, hyid, rfl⟩ | ⟨hne, rfl⟩
  · exact restored_iff hid (fun _ ↦ ⟨y, hy, hyid, rfl⟩)
      fun key hfield hne ↦ absurd ((hapi key hfield).symm.trans (congrArg Json.str hmask)) hne
  · exact restored_iff hid (fun hmask ↦ absurd (Json.str.inj (hapi _ hmask)) hne)
      fun key hfield _ ↦ hapi key hfield

/-- What an accepted PUT stores: every entry restored, and the key of the server, where one is
submitted. -/
structure Restores (c : GatewayConfig) (body : Json) (c' : GatewayConfig) : Prop where
  providers : List.Forall₂ (Restored c.providers (·.id) (·.apiKey) (py "api_key"))
    (listAt body (py "providers")) c'.providers
  clients : List.Forall₂ (Restored c.server.apiKeys (·.id) (fun k ↦ .str k.key) (py "key"))
    (listAt (serverOf body) (py "api_keys")) c'.server.apiKeys
  masked : field (serverOf body) (py "api_key") = some (.str redactedKey) →
    c'.server.apiKey = c.server.apiKey
  plain : ∀ key, field (serverOf body) (py "api_key") = some (.str key) → key ≠ redactedKey →
    c'.server.apiKey = some key

/-- The entries that are submitted with the placeholder each name one key. -/
def Definite (c : GatewayConfig) (body : Json) : Prop :=
  (∀ v ∈ listAt body (py "providers"), NamesOne c.providers (·.id) (·.apiKey) (py "api_key") v) ∧
    ∀ v ∈ listAt (serverOf body) (py "api_keys"),
      NamesOne c.server.apiKeys (·.id) (fun k ↦ .str k.key) (py "key") v

/-- Optional strings are not turned into others. -/
def KeepsText (p : Pydantic) : Prop :=
  ∀ v w, p.coerce .optStr v = some w → w = v

theorem validateOptStr_eq_some (hp : KeepsText p) {d : PyDict} {name : PyStr} {s : Option PyStr}
    (h : validateOptStr p d name = some s) :
    ∀ key, field (.obj d) name = some (.str key) → s = some key := by
  intro key hkey
  unfold validateOptStr validateField at h
  rw [show get? d name = some (.str key) from hkey] at h
  simp only at h
  split at h
  · next hcoerce => cases hp _ _ hcoerce
  · next s' hcoerce =>
    obtain rfl := Option.some.inj h
    rw [Json.str.inj (hp _ _ hcoerce)]
  · cases h

/-- **What a PUT stores.** An accepted PUT restores the keys if and only if each entry with the
placeholder names one key. -/
theorem restores_iff (hp : KeepsText p) {c c' : GatewayConfig} {body : Json}
    (h : (putConfig p c body).verdict = .saveNew c') :
    Restores c body c' ↔ Definite c body := by
  obtain ⟨cfg, hcfg, hproviders, hclients, hserver⟩ := putConfig_saveNew h
  obtain ⟨hvalidServer, hvalidProviders⟩ := validateGateway_eq_some hcfg
  obtain ⟨hvalidClients, d, hobj, hkey⟩ := validateServer_eq_some hvalidServer
  have hentries := forall₂_iff_forall_mem (p := NamesOne c.providers (·.id) (·.apiKey) (py "api_key"))
    (forall₂_trans (validateItems_forall₂ hvalidProviders) (restoreAll_forall₂ hproviders))
    fun _ _ ⟨_, hvalid, hrestore⟩ ↦ restored_provider_iff hvalid hrestore
  have hkeys := forall₂_iff_forall_mem
    (p := NamesOne c.server.apiKeys (·.id) (fun k ↦ .str k.key) (py "key"))
    (forall₂_trans (validateItems_forall₂ hvalidClients) (restoreAll_forall₂ hclients))
    fun _ _ ⟨_, hvalid, hrestore⟩ ↦ restored_client_iff hvalid hrestore
  constructor
  · exact fun h ↦ ⟨hentries.1 h.providers, hkeys.1 h.clients⟩
  · intro h
    refine ⟨hentries.2 h.1, hkeys.2 h.2, fun hmask ↦ ?_, fun key hfield hne ↦ ?_⟩
    · rw [hserver, if_pos (validateOptStr_eq_some hp hkey _ (hobj ▸ hmask))]
    · have hapi := validateOptStr_eq_some hp hkey key (hobj ▸ hfield)
      rw [hserver, if_neg (by simpa [hapi] using hne), hapi]

/-- Where ids are distinct, a placeholder can name one key only. -/
theorem namesOne_of_nodup {α : Type} {stored : List α} {id : α → PyStr} {key : α → Json}
    {name : PyStr} (h : (stored.map id).Nodup) (v : Json) : NamesOne stored id key name v :=
  fun _ _ hy _ hz _ hzy ↦ congrArg key (List.inj_on_of_nodup_map h hz hy hzy)

theorem definite_of_nodup {c : GatewayConfig} (hproviders : (c.providers.map (·.id)).Nodup)
    (hclients : (c.server.apiKeys.map (·.id)).Nodup) (body : Json) : Definite c body :=
  ⟨fun v _ ↦ namesOne_of_nodup hproviders v, fun v _ ↦ namesOne_of_nodup hclients v⟩

/-! ### The keys of a configuration -/

/-- All keys, in the order of their entries. -/
structure Keys where
  providers : List Json
  server : Option PyStr
  clients : List PyStr
deriving DecidableEq

def GatewayConfig.keys (c : GatewayConfig) : Keys :=
  ⟨c.providers.map (·.apiKey), c.server.apiKey, c.server.apiKeys.map (·.key)⟩

/-- No key is the placeholder. -/
structure GatewayConfig.Unmasked (c : GatewayConfig) : Prop where
  providers : ∀ pr ∈ c.providers, pr.apiKey ≠ .str redactedKey
  server : c.server.apiKey ≠ some redactedKey
  clients : ∀ k ∈ c.server.apiKeys, k.key ≠ redactedKey

theorem unmasked_of_keys_eq {c c' : GatewayConfig} (h : c.Unmasked) (heq : c'.keys = c.keys) :
    c'.Unmasked := by
  obtain ⟨hproviders, hserver, hclients⟩ := Keys.mk.inj heq
  refine ⟨fun pr hpr ↦ ?_, hserver ▸ h.server, fun k hk ↦ ?_⟩
  · have hmem : pr.apiKey ∈ c.providers.map (·.apiKey) := hproviders ▸ List.mem_map_of_mem hpr
    obtain ⟨pr', hpr', heq⟩ := List.mem_map.1 hmem
    exact heq ▸ h.providers pr' hpr'
  · have hmem : k.key ∈ c.server.apiKeys.map (·.key) := hclients ▸ List.mem_map_of_mem hk
    obtain ⟨k', hk', heq⟩ := List.mem_map.1 hmem
    exact heq ▸ h.clients k' hk'

/-- What was written is read back with its keys. -/
theorem keys_of_parse {c c' : GatewayConfig} (henc : c.dump.encodable = true)
    (h : parseConfig p c.dump = .ok c') : c'.keys = c.keys := by
  have hvalid : validateGateway p c.dump = some c' := by
    rw [parseConfig_dump_eq] at h
    split at h
    · next c'' hc => rw [hc, Except.ok.inj h]
    · cases h
  obtain ⟨hserver, hproviders⟩ := validateGateway_eq_some hvalid
  have hencServer : c.server.dump.encodable = true := by
    simp only [GatewayConfig.dump, encodable, encodableDict, Bool.and_eq_true] at henc
    exact henc.1.2
  have hserver' : c'.server = c.server := by
    rw [show serverOf c.dump = c.server.dump from rfl, validateServer_dump p _ hencServer] at hserver
    exact (Option.some.inj hserver).symm
  have hkeys : c'.providers.map (·.apiKey) = c.providers.map (·.apiKey) := by
    refine map_eq_of_forall₂ (List.forall₂_map_left_iff.1 (validateItems_forall₂ hproviders)) ?_
    intro pr pr' hpr
    obtain ⟨-, hkey | ⟨hkey, -⟩⟩ := validateProvider_eq_some hpr
    · exact (Option.some.inj hkey).symm
    · cases hkey
  rw [GatewayConfig.keys, GatewayConfig.keys, hkeys, hserver']

theorem unmasked_lasting (p : Pydantic) : Lasting p GatewayConfig.Unmasked where
  empty := ⟨nofun, nofun, nofun⟩
  bump _ h := ⟨h.providers, h.server, h.clients⟩
  read _ _ h henc hparse := unmasked_of_keys_eq h (keys_of_parse henc hparse)

/-! ### What the handlers do to the keys -/

/-- The handlers of one model leave the keys alone. -/
theorem withModel_keys (c : GatewayConfig) (id : PyStr) (f : ModelConfig → ModelConfig × Verdict) :
    (withModel c id f).live.keys = c.keys := by
  unfold withModel
  split
  · rfl
  · split <;> rfl

theorem setProviderApiKey_unmasked {c : GatewayConfig} (h : c.Unmasked) (body : Json) :
    (setProviderApiKey c body).live.Unmasked := by
  unfold setProviderApiKey
  split <;> try exact h
  split <;> try exact h
  split_ifs <;> try exact h
  split <;> try exact h
  next d id _ _ i _ =>
  simp only
  split_ifs with hmask hnull
  · exact h
  · refine ⟨forall_mem_modify h.providers i fun pr _ ↦ nofun, h.server, h.clients⟩
  · exact ⟨forall_mem_modify h.providers i fun pr _ ↦ hmask, h.server, h.clients⟩

theorem renameEntity_unmasked {c : GatewayConfig} (h : c.Unmasked) (body : Json) :
    (renameEntity c body).live.Unmasked := by
  unfold renameEntity
  split <;> try exact h
  split <;> try exact h
  simp only
  split_ifs <;> try exact h
  all_goals split <;> try exact h
  · exact ⟨h.providers, h.server, h.clients⟩
  · exact ⟨forall_mem_modify h.providers _ fun pr hpr ↦ hpr, h.server, h.clients⟩

theorem handle_unmasked {c : GatewayConfig} (h : c.Unmasked) (e : Edit) :
    (handle p c e).live.Unmasked := by
  cases e with
  | setProviderApiKey body => exact setProviderApiKey_unmasked h body
  | rename body => exact renameEntity_unmasked h body
  | putConfig body =>
    rw [handle, putConfig_live]
    exact h
  | createModel body =>
    refine unmasked_of_keys_eq h ?_
    simp only [handle, createModel]
    repeat' split
    all_goals rfl
  | deleteModel id =>
    refine unmasked_of_keys_eq h ?_
    simp only [handle, deleteModel]
    split <;> rfl
  | _ => exact unmasked_of_keys_eq h (withModel_keys ..)

/-- A PUT stores a key of the current configuration, or one that is not the placeholder. -/
theorem putConfig_unmasked {c c' : GatewayConfig} (h : c.Unmasked) {body : Json}
    (hnew : (putConfig p c body).verdict = .saveNew c') : c'.Unmasked := by
  obtain ⟨cfg, -, hproviders, hclients, hserver⟩ := putConfig_saveNew hnew
  refine ⟨fun pr hpr ↦ ?_, ?_, fun k hk ↦ ?_⟩
  · obtain ⟨pr₀, -, hrestore⟩ := exists_of_mem_right (restoreAll_forall₂ hproviders) hpr
    rcases restoreProviderKey_eq_ok hrestore with ⟨-, existing, hmem, -, rfl⟩ | ⟨hne, rfl⟩
    · exact h.providers existing hmem
    · exact hne
  · rw [hserver]
    split_ifs with hmask
    · exact h.server
    · exact hmask
  · obtain ⟨k₀, -, hrestore⟩ := exists_of_mem_right (restoreAll_forall₂ hclients) hk
    rcases restoreClientKey_eq_ok hrestore with ⟨-, existing, hmem, -, rfl⟩ | ⟨hne, rfl⟩
    · exact h.clients existing hmem
    · exact hne

theorem edit_unmasked {c : GatewayConfig} (h : c.Unmasked) (e : Edit) :
    e.Keeps p GatewayConfig.Unmasked c := by
  refine ⟨handle_unmasked h e, fun c' hnew ↦ ?_⟩
  by_cases he : ∃ body, e = .putConfig body
  · obtain ⟨body, rfl⟩ := he
    exact putConfig_unmasked h hnew
  · have hplace := handle_inPlace (p := p) (c := c) fun body heq ↦ he ⟨body, heq⟩
    rw [hnew] at hplace
    cases hplace

/-! ### What can be written -/

/-- All keys are text that can be encoded, or other values of which that is true. -/
structure Keys.Encodable (ks : Keys) : Prop where
  providers : ∀ v ∈ ks.providers, v.encodable = true
  server : ∀ s ∈ ks.server, textOk s = true
  clients : ∀ s ∈ ks.clients, textOk s = true

theorem encodableList_map_iff {α : Type} {f : α → Json} {xs : List α} :
    encodableList (xs.map f) = true ↔ ∀ x ∈ xs, (f x).encodable = true := by
  induction xs with
  | nil => simp [encodableList]
  | cons x xs ih => rw [List.map_cons, encodableList, Bool.and_eq_true, ih, List.forall_mem_cons]

theorem shownKey_encodable (v : Json) (h : v.encodable = true) : (shownKey v).encodable = true := by
  unfold shownKey
  split_ifs
  · decide
  · exact h

theorem provider_encodable_iff (pr : ProviderConfig) :
    pr.dump.encodable = true ↔ pr.redacted.dump.encodable = true ∧ pr.apiKey.encodable = true := by
  have hshown := shownKey_encodable pr.apiKey
  simp only [ProviderConfig.dump, ProviderConfig.redacted, encodable, encodableDict_append,
    encodableDict, Bool.and_eq_true, Bool.and_true]
  constructor
  · rintro ⟨⟨hid, hname, hkey⟩, hattrs⟩
    exact ⟨⟨⟨hid, hname, hshown hkey⟩, hattrs⟩, hkey⟩
  · rintro ⟨⟨⟨hid, hname, -⟩, hattrs⟩, hkey⟩
    exact ⟨⟨hid, hname, hkey⟩, hattrs⟩

theorem client_encodable_iff (k : ApiKeyConfig) :
    k.dump.encodable = true ↔ k.redacted.dump.encodable = true ∧ textOk k.key = true := by
  have hshown : textOk k.key = true → textOk (shownText k.key) = true := fun h ↦ by
    unfold shownText
    split_ifs <;> decide
  simp only [ApiKeyConfig.dump, ApiKeyConfig.redacted, encodable, encodableDict_append,
    encodableDict, Bool.and_eq_true, Bool.and_true]
  constructor
  · rintro ⟨⟨hid, hname, hkey⟩, hattrs⟩
    exact ⟨⟨⟨hid, hname, hshown hkey⟩, hattrs⟩, hkey⟩
  · rintro ⟨⟨⟨hid, hname, -⟩, hattrs⟩, hkey⟩
    exact ⟨⟨hid, hname, hkey⟩, hattrs⟩

theorem server_encodable_iff (s : ServerConfig) :
    s.dump.encodable = true ↔ s.redacted.dump.encodable = true ∧
      (∀ key ∈ s.apiKey, textOk key = true) ∧ ∀ k ∈ s.apiKeys, textOk k.key = true := by
  have hapi : (dumpOpt s.apiKey).encodable = true ↔
      (dumpOpt (s.apiKey.map shownText)).encodable = true ∧ ∀ key ∈ s.apiKey, textOk key = true := by
    rcases s.apiKey with - | key
    · simp [dumpOpt, encodable]
    · simp only [dumpOpt, Option.map_some, encodable, Option.mem_def, Option.some.injEq, forall_eq']
      unfold shownText
      split_ifs with hnil
      · simp [hnil]
      · exact (and_iff_right (by decide)).symm
  have hclients : encodableList (s.apiKeys.map ApiKeyConfig.dump) = true ↔
      encodableList ((s.apiKeys.map ApiKeyConfig.redacted).map ApiKeyConfig.dump) = true ∧
        ∀ k ∈ s.apiKeys, textOk k.key = true := by
    rw [List.map_map, encodableList_map_iff, encodableList_map_iff, ← forall₂_and]
    exact forall₂_congr fun k _ ↦ client_encodable_iff k
  simp only [ServerConfig.dump, ServerConfig.redacted, encodable, encodableDict_append,
    encodableDict, Bool.and_eq_true, Bool.and_true, hapi, hclients]
  constructor
  · rintro ⟨⟨⟨hname, hapi, hkey⟩, hname', hclients, hkeys⟩, hattrs⟩
    exact ⟨⟨⟨⟨hname, hapi⟩, hname', hclients⟩, hattrs⟩, hkey, hkeys⟩
  · rintro ⟨⟨⟨⟨hname, hapi⟩, hname', hclients⟩, hattrs⟩, hkey, hkeys⟩
    exact ⟨⟨⟨hname, hapi, hkey⟩, hname', hclients, hkeys⟩, hattrs⟩

/-- A configuration can be written if it can be without its keys, and its keys can. -/
theorem dump_encodable_iff (c : GatewayConfig) :
    c.dump.encodable = true ↔ c.redacted.dump.encodable = true ∧ c.keys.Encodable := by
  have hproviders : encodableList (c.providers.map ProviderConfig.dump) = true ↔
      encodableList ((c.providers.map ProviderConfig.redacted).map ProviderConfig.dump) = true ∧
        ∀ pr ∈ c.providers, pr.apiKey.encodable = true := by
    rw [List.map_map, encodableList_map_iff, encodableList_map_iff, ← forall₂_and]
    exact forall₂_congr fun pr _ ↦ provider_encodable_iff pr
  have hkeys : c.keys.Encodable ↔ (∀ pr ∈ c.providers, pr.apiKey.encodable = true) ∧
      (∀ key ∈ c.server.apiKey, textOk key = true) ∧
        ∀ k ∈ c.server.apiKeys, textOk k.key = true := by
    refine ⟨fun h ↦ ⟨fun pr hpr ↦ h.providers _ (List.mem_map_of_mem hpr), h.server,
      fun k hk ↦ h.clients _ (List.mem_map_of_mem hk)⟩, fun ⟨h₁, h₂, h₃⟩ ↦ ⟨?_, h₂, ?_⟩⟩
    · exact List.forall_mem_map.2 h₁
    · exact List.forall_mem_map.2 h₃
  simp only [GatewayConfig.dump, GatewayConfig.redacted, encodable, encodableDict,
    Bool.and_eq_true, Bool.and_true, server_encodable_iff c.server, hproviders, hkeys]
  constructor
  · rintro ⟨⟨hname, hserver, hgate⟩, ⟨hname', hproviders, hkeys⟩, hrest⟩
    exact ⟨⟨⟨hname, hserver⟩, ⟨hname', hproviders⟩, hrest⟩, hkeys, hgate⟩
  · rintro ⟨⟨⟨hname, hserver⟩, ⟨hname', hproviders⟩, hrest⟩, hkeys, hgate⟩
    exact ⟨⟨hname, hserver, hgate⟩, ⟨hname', hproviders, hkeys⟩, hrest⟩

/-! ### Sending back what was given out -/

theorem shownKey_of_ne {v : Json} (h : shownKey v ≠ .str redactedKey) : shownKey v = v := by
  unfold shownKey at h ⊢
  split_ifs at h ⊢
  · exact absurd rfl h
  · rfl

theorem redacted_typed {c : GatewayConfig} (h : c.Typed) : c.redacted.Typed := by
  refine ⟨fun shown hshown ↦ ?_, h.models⟩
  obtain ⟨pr, hpr, rfl⟩ := List.mem_map.1 hshown
  show (shownKey pr.apiKey).isStr = true
  unfold shownKey
  split_ifs
  · rfl
  · exact h.keys pr hpr

theorem restoreAll_map {α : Type} {restore : α → Except PyStr α} {f : α → α} {xs : List α}
    (h : ∀ x ∈ xs, restore (f x) = .ok x) : restoreAll restore (xs.map f) = .ok xs := by
  induction xs with
  | nil => rfl
  | cons x xs ih =>
    rw [List.map_cons, restoreAll, h x List.mem_cons_self,
      ih fun y hy ↦ h y (List.mem_cons_of_mem x hy)]
    rfl

theorem restoreProviderKey_redacted {c : GatewayConfig} {pr : ProviderConfig} (hpr : pr ∈ c.providers)
    (h : NamesOne c.providers (·.id) (·.apiKey) (py "api_key") pr.redacted.dump) :
    restoreProviderKey c pr.redacted = .ok pr := by
  unfold restoreProviderKey
  split_ifs with hmask
  · obtain ⟨existing, hfind⟩ : ∃ existing, c.providers.find? (·.id = pr.redacted.id) = some existing :=
      Option.isSome_iff_exists.1 (List.find?_isSome.2 ⟨pr, hpr, by simp [ProviderConfig.redacted]⟩)
    have hid : existing.id = pr.redacted.id := by simpa using List.find?_some hfind
    have hkey : existing.apiKey = pr.apiKey :=
      h (congrArg some hmask) pr hpr existing (List.mem_of_find?_eq_some hfind) rfl hid
    rw [hfind]
    simp only [hkey]
    rfl
  · rw [ProviderConfig.redacted, shownKey_of_ne hmask]

theorem restoreClientKey_redacted {c : GatewayConfig} {k : ApiKeyConfig} (hk : k ∈ c.server.apiKeys)
    (h : NamesOne c.server.apiKeys (·.id) (fun k ↦ .str k.key) (py "key") k.redacted.dump) :
    restoreClientKey c k.redacted = .ok k := by
  unfold restoreClientKey
  split_ifs with hmask
  · obtain ⟨existing, hfind⟩ :
        ∃ existing, c.server.apiKeys.find? (·.id = k.redacted.id) = some existing :=
      Option.isSome_iff_exists.1 (List.find?_isSome.2 ⟨k, hk, by simp [ApiKeyConfig.redacted]⟩)
    have hid : existing.id = k.redacted.id := by simpa using List.find?_some hfind
    have hkey : existing.key = k.key := Json.str.inj
      (h (congrArg (some ∘ Json.str) hmask) k hk existing (List.mem_of_find?_eq_some hfind) rfl hid)
    rw [hfind]
    simp only [hkey]
    rfl
  · have hnil : k.key = [] := by
      by_contra hne
      exact hmask (if_neg hne)
    rw [ApiKeyConfig.redacted, shownText, if_pos hnil]
    obtain ⟨id, key, attrs⟩ := k
    obtain rfl : key = [] := hnil
    rfl

/-- **Sending back what was given out.** It is accepted, and what is saved is the configuration there
was. -/
theorem putConfig_getConfig {c : GatewayConfig} (hc : c.Typed) (henc : c.dump.encodable = true)
    (h : Definite c (getConfig c)) : (putConfig p c (getConfig c)).verdict = .saveNew c := by
  rw [getConfig_eq] at h ⊢
  have hvalid : validateGateway p c.redacted.dump = some c.redacted :=
    validateGateway_dump p _ (redacted_typed hc) ((dump_encodable_iff c).1 henc).1
  have hproviders : restoreAll (restoreProviderKey c) c.redacted.providers = .ok c.providers :=
    restoreAll_map fun pr hpr ↦ restoreProviderKey_redacted hpr
      (h.1 _ (List.mem_map_of_mem (List.mem_map_of_mem hpr)))
  have hclients : restoreAll (restoreClientKey c) c.redacted.server.apiKeys = .ok c.server.apiKeys :=
    restoreAll_map fun k hk ↦ restoreClientKey_redacted hk
      (h.2 _ (List.mem_map_of_mem (List.mem_map_of_mem hk)))
  have hserver : (if c.redacted.server.apiKey = some redactedKey then c.server.apiKey
      else c.redacted.server.apiKey) = c.server.apiKey := by
    split_ifs with hmask
    · rfl
    · show c.server.apiKey.map shownText = c.server.apiKey
      rcases hkey : c.server.apiKey with - | (- | ⟨x, xs⟩)
      · rfl
      · rfl
      · exact absurd (by rw [GatewayConfig.redacted, ServerConfig.redacted, hkey]; rfl) hmask
  have hversion : ¬ versionEq c.version (.int c.version) = false := by simp [versionEq, indexValue]
  simp only [putConfig, hvalid, hproviders, hclients, hserver]
  rw [if_neg fun hconflict ↦ hversion hconflict.2]
  rfl

/-! ### Every run -/

/-- What the claims of the two handlers come to for a PUT in a state of the store. -/
structure PutKeeps (p : Pydantic) (s : Store) (body : Json) : Prop where
  /-- An accepted PUT restores the keys. -/
  accepted : ∀ c, s.current p = some c → (s.edit p (.putConfig body)).2 = true →
    ∃ c', (s.edit p (.putConfig body)).1.current p = some c' ∧ Restores c body c'
  /-- A rejected PUT leaves the configuration as it is. -/
  rejected : ∀ c, s.current p = some c → (putConfig p c body).verdict.Rejects →
    (s.edit p (.putConfig body)).1.current p = some c
  /-- Sending back what was given out leaves the keys as they are. -/
  unmodified : ∀ c c', s.current p = some c → body = getConfig c →
    (s.edit p (.putConfig body)).1.current p = some c' → c'.keys = c.keys

/-- A PUT names one key for each placeholder. If it sends back what was given out, that is not valid, or
the configuration is typed and can be written. -/
def Op.NamesKeys (p : Pydantic) (s : Store) : Op → Prop
  | .edit (.putConfig body) => ∀ c, s.current p = some c → Definite c body ∧
      (body = getConfig c → validateGateway p body = none ∨ c.Typed ∧ c.dump.encodable = true)
  | _ => True

theorem written_current {s : Store} {c : GatewayConfig} : (s.written c).current p = some c.bump := rfl

theorem bump_encodable {c : GatewayConfig} (h : c.dump.encodable = true) :
    c.bump.dump.encodable = true := h

theorem putConfig_ne_save (c : GatewayConfig) (body : Json) :
    (putConfig p c body).verdict ≠ .save := by
  unfold putConfig
  simp only
  split_ifs
  · nofun
  · repeat' split
    all_goals nofun

theorem putConfig_of_invalid {c : GatewayConfig} {body : Json} (h : validateGateway p body = none) :
    (putConfig p c body).verdict.Saves = false := by
  simp only [putConfig, h]
  split_ifs <;> rfl

/-- A PUT that succeeds has written what the handler made of the body. -/
theorem edit_putConfig {s : Store} {c : GatewayConfig} {body : Json} (hc : s.current p = some c)
    (hok : (s.edit p (.putConfig body)).2 = true) :
    ∃ c', (putConfig p c body).verdict = .saveNew c' ∧
      (s.edit p (.putConfig body)).1 = s.written c' := by
  rcases edit_cases p s (.putConfig body) with ⟨-, heq⟩ | ⟨c₀, hc₀, hresult⟩
  · rw [heq] at hok
    cases hok
  · obtain rfl := Option.some.inj (hc.symm.trans hc₀)
    rcases hresult with ⟨hsave, -⟩ | ⟨c', hsave, heq⟩ | ⟨-, heq⟩
    · exact absurd hsave (putConfig_ne_save c body)
    · refine ⟨c', hsave, ?_⟩
      rw [heq, loaded_eq hc] at hok
      cases henc : c'.bump.dump.encodable with
      | true => rw [edit_of_saveNew hc hsave henc]
      | false =>
        rw [save_of_not_encodable henc] at hok
        cases hok
    · rw [heq] at hok
      cases hok

/-- A PUT that saves nothing leaves the configuration as it is. -/
theorem edit_putConfig_of_not_saves {s : Store} {c : GatewayConfig} {body : Json}
    (hc : s.current p = some c) (h : (putConfig p c body).verdict.Saves = false) :
    (s.edit p (.putConfig body)).1.current p = some c := by
  rcases edit_cases p s (.putConfig body) with ⟨hnone, -⟩ | ⟨c₀, hc₀, hresult⟩
  · rw [hnone] at hc
    cases hc
  · obtain rfl := Option.some.inj (hc.symm.trans hc₀)
    rcases hresult with ⟨hsave, -⟩ | ⟨c', hsave, -⟩ | ⟨-, heq⟩
    · exact absurd hsave (putConfig_ne_save c body)
    · rw [show (putConfig p c body).verdict = _ from hsave] at h
      cases h
    · rw [heq, loaded_eq hc]
      exact congrArg some (putConfig_live p c body)

/-- **One PUT.** -/
theorem putKeeps (hp : KeepsText p) {s : Store} {body : Json}
    (h : (Op.edit (.putConfig body)).NamesKeys p s) : PutKeeps p s body := by
  refine ⟨fun c hc hok ↦ ?_, fun c hc hverdict ↦ ?_, fun c c' hc hbody hc' ↦ ?_⟩
  · obtain ⟨c', hverdict, hwritten⟩ := edit_putConfig hc hok
    have hrestores := (restores_iff hp hverdict).2 (h c hc).1
    exact ⟨c'.bump, by rw [hwritten, written_current],
      ⟨hrestores.providers, hrestores.clients, hrestores.masked, hrestores.plain⟩⟩
  · obtain ⟨status, message, hverdict, -⟩ := hverdict
    exact edit_putConfig_of_not_saves hc (by rw [hverdict]; rfl)
  · obtain ⟨hdefinite, hvalid | ⟨htyped, henc⟩⟩ := (h c hc).imp_right (· hbody)
    · rw [edit_putConfig_of_not_saves hc (putConfig_of_invalid hvalid)] at hc'
      rw [Option.some.inj hc']
    · subst hbody
      have hverdict : (handle p c (.putConfig (getConfig c))).verdict = .saveNew c :=
        putConfig_getConfig htyped henc hdefinite
      rw [edit_of_saveNew hc hverdict (bump_encodable henc), written_current] at hc'
      rw [← Option.some.inj hc']
      rfl

/-- **Keys survive the page.** From files without the placeholder among their keys, in a run of edits,
restores, reloads and restarts whose PUTs each name one key for a placeholder: every PUT restores the
keys, and no key is ever the placeholder. -/
theorem puts_keep_keys (p : Pydantic) (hp : KeepsText p) {s₀ : Store}
    (hs₀ : s₀.AllOf p GatewayConfig.Unmasked) {ops : List Op}
    (h : Every (Store.next p) (fun _ s op ↦ op.NamesKeys p s) s₀ ops) :
    Every (Store.next p) (fun _ s op ↦ ∀ body, op = .edit (.putConfig body) → PutKeeps p s body) s₀ ops ∧
      ∀ c, (exec (Store.next p) s₀ ops).current p = some c → c.Unmasked := by
  refine ⟨fun past op future heq body hop ↦ ?_, fun c hc ↦ ?_⟩
  · have hnames := h past op future heq
    rw [hop] at hnames
    exact putKeeps hp hnames
  · have hall : (exec (Store.next p) s₀ ops).AllOf p GatewayConfig.Unmasked := by
      refine exec_invariant' (fun _ (s : Store) ↦ s.AllOf p GatewayConfig.Unmasked) hs₀
        (fun _ s op hs ↦ ?_) ops
      refine hs.next (unmasked_lasting p) fun e c _ hc ↦ edit_unmasked ?_ e
      exact hs.current (unmasked_lasting p).empty hc
    exact hall.current (unmasked_lasting p).empty hc

/-- A gateway key, and the keys of clients. -/
def clientKeys (clients : List (PyStr × PyStr)) : GatewayConfig :=
  { GatewayConfig.empty with
    server := ⟨some (py "gate"), clients.map fun e ↦ ⟨e.1, e.2, apiKeyClass.make (by decide)⟩,
      serverClass.make serverClass_default⟩ }

theorem clientKeys_typed (clients : List (PyStr × PyStr)) : (clientKeys clients).Typed :=
  ⟨fun _ h ↦ absurd h List.not_mem_nil, fun _ h ↦ absurd h List.not_mem_nil⟩

/-- A gateway that has this configuration, and no backups. -/
def holding (c : GatewayConfig) : Store :=
  .start (some (.json c.dump)) fun _ ↦ none

theorem holding_allOf {P : GatewayConfig → Prop} {c : GatewayConfig}
    (hread : parseConfig p c.dump = .ok c) (hc : P c) : (holding c).AllOf p P := by
  refine ⟨nofun, fun f c' hf hread' ↦ ?_⟩
  rcases hf with hf | ⟨i, hi⟩
  · obtain rfl := Option.some.inj hf
    rw [File.read, hread] at hread'
    exact Except.ok.inj hread' ▸ hc
  · cases hi

theorem strict_keepsText : KeepsText .strict := by
  intro v w h
  simp only [Pydantic.strict] at h
  split_ifs at h
  exact (Option.some.inj h).symm

/-- What was given out is sent back, and the backup of before is restored. -/
theorem puts_keep_keys_sample :
    let c := clientKeys [(py "a", py "k"), (py "b", py "l")]
    let ops := [.edit (.putConfig (getConfig c)), .restore 0]
    Every (Store.next .strict)
        (fun _ s op ↦ ∀ body, op = .edit (.putConfig body) → PutKeeps .strict s body) (holding c) ops ∧
      ∀ c', (exec (Store.next .strict) (holding c) ops).current .strict = some c' → c'.Unmasked := by
  intro c ops
  refine puts_keep_keys .strict strict_keepsText (holding_allOf rfl ?_) ?_
  · exact ⟨fun _ h ↦ absurd h List.not_mem_nil, by decide, by decide⟩
  refine every_cons_iff.2 ⟨fun c' hc' ↦ ?_, every_cons_iff.2 ⟨trivial, every_nil _ _⟩⟩
  obtain rfl : c = c' := Option.some.inj hc'
  exact ⟨definite_of_nodup (by decide) (by decide) _, fun _ ↦ .inr ⟨clientKeys_typed _, rfl⟩⟩

/-- **A key that is lost.** Two client keys have one id, which is no error; sending back what was given
out overwrites the second with the first. -/
theorem put_loses_key :
    let c := clientKeys [(py "a", py "k"), (py "a", py "l")]
    Valid c ∧ c.Unmasked ∧ ¬ PutKeeps .strict (holding c) (getConfig c) := by
  refine ⟨by decide, ⟨fun _ h ↦ absurd h List.not_mem_nil, by decide, by decide⟩, fun h ↦ ?_⟩
  have hkeys := h.unmodified _ _ rfl rfl rfl
  exact absurd (congrArg Keys.clients hkeys) (by decide)

end LocalGateway
