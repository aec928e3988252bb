import LocalGateway.Config.Atomicity
import LocalGateway.Config.Store

/-!
# What is saved can be loaded

A configuration that is saved can be read back as it is if it is typed (`parseConfig_dump`), and
whatever validation makes is. What breaks this are the values that are assigned without
validation: `isinstance(v, list)` accepts any list for `tags`, and `set_provider_api_key` any value
at all.

`Edit.Proper` says that the values an edit assigns have the types their attributes declare. In a run
of proper edits, restores, reloads and restarts, from any files, the live object is always typed
(`liveTyped_next`), and so every edit or restore that succeeds leaves a `config.json` that is read
back as the live configuration (`every_saved_loadable`).
-/

namespace LocalGateway

open Py Json

/-! ### Proper edits -/

/-- The value has the type its attribute declares. -/
def DeclaredType (specs : List FieldSpec) (e : PyStr × Json) : Prop :=
  ∀ spec ∈ specs, spec.name = e.1 → spec.type.hasType e.2 = true

instance (specs : List FieldSpec) (e : PyStr × Json) : Decidable (DeclaredType specs e) :=
  inferInstanceAs (Decidable (∀ spec ∈ specs, _))

/-- A value of a model's attribute that is read back as it was written: `text+vision` is rewritten
by the validator of `modality`. -/
def ModelValue (e : PyStr × Json) : Prop :=
  DeclaredType modelClass.specs e ∧ e ≠ (py "modality", .str (py "text+vision"))

instance (e : PyStr × Json) : Decidable (ModelValue e) :=
  inferInstanceAs (Decidable (_ ∧ _))

/-- What `_apply_fields` assigns satisfies `P`. -/
def Assigns (P : PyStr × Json → Prop) (body : PyDict) (whitelist : Whitelist) : Prop :=
  unknownFields body whitelist = [] → ∀ e ∈ assigned body whitelist, P e

/-- The values that `update_model` assigns are read back; it assigns none if the time routing of the
body is not valid. -/
def ProperUpdate (p : Pydantic) (d : PyDict) : Prop :=
  (∀ v, get? d (py "time_routing") = some v → v ≠ .null → (validateTimeRouting p v).isSome) →
    Assigns ModelValue (d.filter (·.1 ≠ py "time_routing")) modelSettable

/-- The values an edit assigns without validation have the declared types. -/
def Edit.Proper (p : Pydantic) (c : GatewayConfig) : Edit → Prop
  | .updateModel id (.obj d) => (c.modelIndex id).isSome → ProperUpdate p d
  | .updateBackend id index (.obj d) =>
    ∀ i m, c.modelIndex id = some i → c.models[i]? = some m → (backendAt m index).isSome →
      Assigns (DeclaredType backendClass.specs) d backendSettable
  | .setProviderApiKey (.obj d) =>
    ∀ id, strippedText (get? d (py "provider")) = some id → id ≠ [] → (c.providerIndex id).isSome →
      FieldType.optStr.hasType ((get? d (py "api_key")).getD .null) = true
  | _ => True

/-- An operation is proper if it is no edit, or a proper edit of the current configuration. -/
def Op.Proper (p : Pydantic) (s : Store) : Op → Prop
  | .edit e => ∀ c, s.current p = some c → e.Proper p c
  | _ => True

/-! ### Assignments keep the types -/

theorem setKey_typed {specs : List FieldSpec} {fields : PyDict} (h : FieldsTyped specs fields)
    {k : PyStr} {v : Json} (hk : k ∈ specs.map FieldSpec.name) (hv : DeclaredType specs (k, v)) :
    FieldsTyped specs (setKey fields k v) := by
  induction h with
  | nil => simp at hk
  | @cons spec e specs fields hhead hrest ih =>
    obtain ⟨l, w⟩ := e
    obtain ⟨rfl, htype⟩ := hhead
    rw [setKey]
    split_ifs with hl
    · exact .cons ⟨rfl, hv spec List.mem_cons_self hl⟩ hrest
    · refine .cons ⟨rfl, htype⟩ (ih ?_ fun spec' hspec' ↦ hv spec' (List.mem_cons_of_mem _ hspec'))
      simpa [Ne.symm hl] using hk

/-- The names `_apply_fields` assigns to are those of its whitelist. -/
theorem mem_names_of_mem_assigned {body : PyDict} {whitelist : Whitelist} {e : PyStr × Json}
    (h : e ∈ assigned body whitelist) : e.1 ∈ whitelist.map Prod.fst :=
  (assigned_map_fst_sublist body whitelist).subset (List.mem_map_of_mem h)

/-- An invariant that every assignment keeps is kept by `_apply_fields`. -/
theorem applyFields_invariant (Inv : PyDict → Prop) {P : PyStr × Json → Prop} {body : PyDict}
    {whitelist : Whitelist} (hbody : Assigns P body whitelist)
    (step : ∀ fields e, e.1 ∈ whitelist.map Prod.fst → P e → Inv fields →
      Inv (setKey fields e.1 e.2))
    {fields : PyDict} (h : Inv fields) : Inv (applyFields fields body whitelist).1 := by
  unfold applyFields
  simp only
  split_ifs with hunknown
  · exact h
  · rw [applyLoop_fst]
    have hassigned := hbody (not_not.1 hunknown)
    have hnames : ∀ e ∈ assigned body whitelist, e.1 ∈ whitelist.map Prod.fst :=
      fun e ↦ mem_names_of_mem_assigned
    generalize assigned body whitelist = es at hassigned hnames
    induction es generalizing fields with
    | nil => exact h
    | cons e es ih =>
      refine ih (step fields e (hnames e List.mem_cons_self) (hassigned e List.mem_cons_self) h) ?_ ?_
      · exact fun f hf ↦ hassigned f (List.mem_cons_of_mem e hf)
      · exact fun f hf ↦ hnames f (List.mem_cons_of_mem e hf)

theorem modelSettable_names :
    ∀ k ∈ modelSettable.map Prod.fst, k ∈ modelClass.specs.map FieldSpec.name := by
  decide

theorem backendSettable_names :
    ∀ k ∈ backendSettable.map Prod.fst, k ∈ backendClass.specs.map FieldSpec.name := by
  decide

/-- The attributes of a model are typed and have a modality that is read back. -/
def ModelFields (fields : PyDict) : Prop :=
  FieldsTyped modelClass.specs fields ∧
    get? fields (py "modality") ≠ some (.str (py "text+vision"))

theorem modelFields_applyFields {body fields : PyDict} (hbody : Assigns ModelValue body modelSettable)
    (h : ModelFields fields) : ModelFields (applyFields fields body modelSettable).1 := by
  refine applyFields_invariant ModelFields hbody ?_ h
  rintro fields ⟨k, v⟩ hk ⟨hv, hne⟩ ⟨htyped, hmodality⟩
  refine ⟨setKey_typed htyped (modelSettable_names k hk) hv, ?_⟩
  rw [get?_setKey]
  split_ifs with hkey
  · intro heq
    exact hne (Prod.ext hkey.symm (Option.some.inj heq))
  · exact hmodality

theorem backendFields_applyFields {body fields : PyDict}
    (hbody : Assigns (DeclaredType backendClass.specs) body backendSettable)
    (h : FieldsTyped backendClass.specs fields) :
    FieldsTyped backendClass.specs (applyFields fields body backendSettable).1 :=
  applyFields_invariant (FieldsTyped backendClass.specs) hbody
    (fun _ e he hv htyped ↦ setKey_typed htyped (backendSettable_names e.1 he) hv) h

/-! ### Handlers keep the types -/

theorem ModelConfig.Typed.withFields {m : ModelConfig} (h : m.Typed) {fields : PyDict}
    (hfields : ModelFields fields) (t : TimeRoutingConfig) :
    ({ m with timeRouting := t, fields := fields } : ModelConfig).Typed :=
  ⟨hfields.1, hfields.2, h.backends⟩

theorem updateModel_typed {p : Pydantic} {d : PyDict} (hd : ProperUpdate p d) {m : ModelConfig}
    (h : m.Typed) : (updateModel p (.obj d) m).1.Typed := by
  have hassign : ∀ t, Assigns ModelValue (d.filter (·.1 ≠ py "time_routing")) modelSettable →
      ({ m with timeRouting := t, fields := (applyFields m.fields
        (d.filter (·.1 ≠ py "time_routing")) modelSettable).1 } : ModelConfig).Typed :=
    fun t hbody ↦ h.withFields (modelFields_applyFields hbody ⟨h.fields, h.modality⟩) t
  unfold updateModel
  simp only
  split
  · next hnone =>
    refine hassign _ (hd fun v hv ↦ ?_)
    rw [hnone] at hv
    cases hv
  · next hnull =>
    refine hassign _ (hd fun v hv hne ↦ ?_)
    rw [hnull] at hv
    exact absurd (Option.some.inj hv).symm hne
  · next v hne hsome =>
    split
    · exact h
    · next t ht =>
      refine hassign t (hd fun w hw _ ↦ ?_)
      obtain rfl : v = w := Option.some.inj (hsome.symm.trans hw)
      rw [ht]
      rfl

theorem ModelConfig.Typed.withBackends {m : ModelConfig} (h : m.Typed) {bs : List BackendConfig}
    (hbs : ∀ b ∈ bs, b.Typed) : ({ m with backends := bs } : ModelConfig).Typed :=
  ⟨h.fields, h.modality, hbs⟩

theorem ModelConfig.Typed.withTimeRouting {m : ModelConfig} (h : m.Typed) (t : TimeRoutingConfig) :
    ({ m with timeRouting := t } : ModelConfig).Typed :=
  ⟨h.fields, h.modality, h.backends⟩

/-- A list in which one element is changed by `f` satisfies what the list and `f` satisfy. -/
theorem forall_mem_modify {α : Type} {P : α → Prop} {l : List α} (h : ∀ a ∈ l, P a) (i : ℕ)
    {f : α → α} (hf : ∀ a, P a → P (f a)) : ∀ a ∈ l.modify i f, P a := by
  intro a ha
  obtain ⟨j, hj, rfl⟩ := List.getElem_of_mem ha
  rw [List.getElem_modify]
  split_ifs
  · exact hf _ (h _ (List.getElem_mem _))
  · exact h _ (List.getElem_mem _)

theorem BackendConfig.Typed.withPriority {b : BackendConfig} (h : b.Typed) (n : ℤ) :
    ({ b with priority := n } : BackendConfig).Typed :=
  h

theorem setTier_typed (tier : ℕ) (vs : List Json) {bs : List BackendConfig}
    (h : ∀ b ∈ bs, b.Typed) : ∀ b ∈ (setTier tier vs bs).1, b.Typed := by
  have hassign : ∀ {bs : List BackendConfig} (i : ℕ), (∀ b ∈ bs, b.Typed) →
      ∀ b ∈ bs.modify i fun b ↦ { b with priority := tier }, b.Typed :=
    fun i h ↦ forall_mem_modify h i fun b hb ↦ hb.withPriority tier
  induction vs generalizing bs with
  | nil => exact h
  | cons v vs ih =>
    cases v with
    | int n => exact ih (hassign _ h)
    | bool b => exact ih (hassign _ h)
    | _ => exact h

theorem setTiers_typed (tier : ℕ) (ts : List (List Json)) {bs : List BackendConfig}
    (h : ∀ b ∈ bs, b.Typed) : ∀ b ∈ (setTiers tier ts bs).1, b.Typed := by
  induction ts generalizing tier bs with
  | nil => exact h
  | cons t ts ih =>
    have ht := setTier_typed tier t h
    rw [setTiers]
    split
    · next bs' heq => exact ih (tier + 1) (by simpa [heq] using ht)
    · next bs' heq => simpa [heq] using ht

theorem setBackendsTiers_typed {body : Json} {m : ModelConfig} (h : m.Typed) :
    (setBackendsTiers body m).1.Typed := by
  unfold setBackendsTiers
  split <;> try exact h
  split <;> try exact h
  split <;> try exact h
  split_ifs
  · exact h
  · exact h
  · exact h.withBackends (setTiers_typed 1 _ h.backends)

theorem addBackend_typed {p : Pydantic} {body : Json} {m : ModelConfig} (h : m.Typed) :
    (addBackend p body m).1.Typed := by
  unfold addBackend
  split
  · exact h
  · next b hb =>
    refine h.withBackends fun b' hb' ↦ ?_
    rcases List.mem_append.1 hb' with hb' | hb'
    · exact h.backends b' hb'
    · obtain rfl := List.mem_singleton.1 hb'
      exact (validateBackend_typed hb).withPriority _

theorem updateBackend_typed {index : ℤ} {d : PyDict} {m : ModelConfig}
    (hd : (backendAt m index).isSome → Assigns (DeclaredType backendClass.specs) d backendSettable)
    (h : m.Typed) : (updateBackend index (.obj d) m).1.Typed := by
  unfold updateBackend
  split
  · exact h
  · next b hb =>
    have hmem : b ∈ m.backends := by
      unfold backendAt at hb
      split_ifs at hb
      exact List.mem_of_getElem? hb
    have hfields := backendFields_applyFields (hd (by rw [hb]; rfl)) (h.backends b hmem)
    refine h.withBackends fun b' hb' ↦ ?_
    rcases List.mem_or_eq_of_mem_set hb' with hb' | rfl
    · exact h.backends b' hb'
    · exact hfields

theorem removeBackend_typed {index : ℤ} {m : ModelConfig} (h : m.Typed) :
    (removeBackend index m).1.Typed := by
  unfold removeBackend
  split
  · exact h
  · refine h.withBackends fun b hb ↦ ?_
    obtain ⟨i, hi, rfl⟩ := List.mem_mapIdx.1 hb
    have hmem := (List.eraseIdx_sublist m.backends index.toNat).subset (List.getElem_mem hi)
    exact (h.backends _ hmem).withPriority _

theorem putTimeRouting_typed {p : Pydantic} {body : Json} {m : ModelConfig} (h : m.Typed) :
    (putTimeRouting p body m).1.Typed := by
  unfold putTimeRouting
  split
  · exact h
  · exact h.withTimeRouting _

theorem createTimeSlot_typed {p : Pydantic} {body : Json} {m : ModelConfig} (h : m.Typed) :
    (createTimeSlot p body m).1.Typed := by
  unfold createTimeSlot
  split
  · exact h
  · exact h.withTimeRouting _

theorem updateTimeSlot_typed {p : Pydantic} {slot : PyStr} {body : Json} {m : ModelConfig}
    (h : m.Typed) : (updateTimeSlot p slot body m).1.Typed := by
  unfold updateTimeSlot
  split
  · exact h
  · split
    · exact h
    · exact h.withTimeRouting _

theorem deleteTimeSlot_typed {slot : PyStr} {m : ModelConfig} (h : m.Typed) :
    (deleteTimeSlot slot m).1.Typed := by
  unfold deleteTimeSlot
  simp only
  split_ifs
  · exact h
  · exact h.withTimeRouting _

theorem GatewayConfig.Typed.withModels {c : GatewayConfig} (h : c.Typed) {ms : List ModelConfig}
    (hms : ∀ m ∈ ms, m.Typed) : ({ c with models := ms } : GatewayConfig).Typed :=
  ⟨h.keys, hms⟩

theorem GatewayConfig.empty_typed : GatewayConfig.empty.Typed :=
  ⟨by simp [GatewayConfig.empty], by simp [GatewayConfig.empty]⟩

theorem withModel_typed {c : GatewayConfig} (h : c.Typed) {id : PyStr}
    {f : ModelConfig → ModelConfig × Verdict}
    (hf : ∀ i m, c.modelIndex id = some i → c.models[i]? = some m → m.Typed → (f m).1.Typed) :
    (withModel c id f).live.Typed := by
  unfold withModel
  split
  · exact h
  · next i hi =>
    split
    · exact h
    · next m hm =>
      refine h.withModels fun m' hm' ↦ ?_
      rcases List.mem_or_eq_of_mem_set hm' with hm' | rfl
      · exact h.models m' hm'
      · exact hf i m hi hm (h.models m (List.mem_of_getElem? hm))

theorem createModel_typed {p : Pydantic} {c : GatewayConfig} (h : c.Typed) (body : Json) :
    (createModel p c body).live.Typed := by
  unfold createModel
  split <;> try exact h
  split <;> try exact h
  split_ifs
  · exact h
  · exact h
  · split
    · exact h
    · next m hm =>
      refine h.withModels fun m' hm' ↦ ?_
      rcases List.mem_append.1 hm' with hm' | hm'
      · exact h.models m' hm'
      · obtain rfl := List.mem_singleton.1 hm'
        exact validateModel_typed hm

theorem deleteModel_typed {c : GatewayConfig} (h : c.Typed) (id : PyStr) :
    (deleteModel c id).live.Typed := by
  unfold deleteModel
  split
  · exact h
  · exact h.withModels fun m hm ↦ h.models m ((List.eraseIdx_sublist ..).subset hm)

theorem setProviderApiKey_typed {p : Pydantic} {c : GatewayConfig} (h : c.Typed) {d : PyDict}
    (hd : (Edit.setProviderApiKey (.obj d)).Proper p c) :
    (setProviderApiKey c (.obj d)).live.Typed := by
  unfold setProviderApiKey
  simp only
  split
  · exact h
  · next id hid =>
    split
    · exact h
    · next hne =>
      split
      · exact h
      · next i hi =>
        have hvalue := hd id hid hne (by rw [hi]; rfl)
        split
        · exact h
        · refine ⟨forall_mem_modify h.keys i fun pr _ ↦ ?_, h.models⟩
          split_ifs with hnull
          · rfl
          · simpa [FieldType.hasType, hnull] using hvalue

theorem renameProvider_typed {old new : PyStr} {b : BackendConfig} (h : b.Typed) :
    (b.renameProvider old new).Typed := by
  unfold BackendConfig.renameProvider
  split
  · refine setKey_typed h (by decide) ?_
    have hstr : ∀ spec ∈ backendClass.specs, spec.name = py "provider" → spec.type = .str := by
      decide
    intro spec hspec hname
    rw [hstr spec hspec hname]
    rfl
  · exact h

theorem renameEntity_typed {c : GatewayConfig} (h : c.Typed) (body : Json) :
    (renameEntity c body).live.Typed := by
  unfold renameEntity
  split <;> try exact h
  split <;> try exact h
  next d old new hold hnew =>
  simp only
  split_ifs <;> try exact h
  all_goals split <;> try exact h
  · exact h.withModels (forall_mem_modify h.models _ fun m hm ↦ ⟨hm.fields, hm.modality, hm.backends⟩)
  · refine ⟨forall_mem_modify h.keys _ fun pr hpr ↦ hpr, fun m hm ↦ ?_⟩
    obtain ⟨m', hm', rfl⟩ := List.mem_map.1 hm
    refine (h.models m' hm').withBackends fun b hb ↦ ?_
    obtain ⟨b', hb', rfl⟩ := List.mem_map.1 hb
    exact renameProvider_typed ((h.models m' hm').backends b' hb')

theorem restoreAll_forall {α : Type} {P : α → Prop} {restore : α → Except PyStr α}
    (hrestore : ∀ x y, P x → restore x = .ok y → P y) {xs ys : List α} (hxs : ∀ x ∈ xs, P x)
    (h : restoreAll restore xs = .ok ys) : ∀ y ∈ ys, P y := by
  induction xs generalizing ys with
  | nil =>
    obtain rfl := Except.ok.inj h
    simp
  | cons x xs ih =>
    rw [restoreAll] at h
    rcases hx : restore x with e | y
    · rw [hx] at h
      cases h
    · rcases hrest : restoreAll restore xs with e | rest
      · rw [hx, hrest] at h
        cases h
      · rw [hx, hrest] at h
        obtain rfl := Except.ok.inj h
        exact List.forall_mem_cons.2 ⟨hrestore x y (hxs x List.mem_cons_self) hx,
          ih (fun x' hx' ↦ hxs x' (List.mem_cons_of_mem x hx')) hrest⟩

/-- The key is the one of the body or that of the live provider. -/
theorem restoreProviderKey_isStr {c : GatewayConfig} (h : c.Typed) (pr pr' : ProviderConfig)
    (hpr : pr.apiKey.isStr = true) (hok : restoreProviderKey c pr = .ok pr') :
    pr'.apiKey.isStr = true := by
  unfold restoreProviderKey at hok
  split_ifs at hok
  · split at hok
    · next existing hfind =>
      obtain rfl := Except.ok.inj hok
      exact h.keys existing (List.mem_of_find?_eq_some hfind)
    · cases hok
  · obtain rfl := Except.ok.inj hok
    exact hpr

/-- What `put_config` saves is typed. -/
theorem putConfig_typed {p : Pydantic} {c : GatewayConfig} (h : c.Typed) (body : Json)
    {c' : GatewayConfig} (hnew : (putConfig p c body).verdict = .saveNew c') : c'.Typed := by
  unfold putConfig at hnew
  simp only at hnew
  split_ifs at hnew
  split at hnew
  · cases hnew
  · next cfg hcfg =>
    split at hnew
    · cases hnew
    · next providers hproviders =>
      split at hnew
      · cases hnew
      · obtain rfl := Verdict.saveNew.inj hnew
        have hcfg := validateGateway_typed hcfg
        exact ⟨restoreAll_forall (restoreProviderKey_isStr h) hcfg.keys hproviders, hcfg.models⟩

/-! ### All handlers -/

/-- The verdict is about the live object. -/
def Verdict.InPlace : Verdict → Bool
  | .saveNew _ => false
  | _ => true

theorem withModel_inPlace {c : GatewayConfig} {id : PyStr} {f : ModelConfig → ModelConfig × Verdict}
    (hf : ∀ m, (f m).2.InPlace = true) : (withModel c id f).verdict.InPlace = true := by
  unfold withModel
  split
  · rfl
  · split
    · rfl
    · exact hf _

/-- Only `put_config` saves another object. -/
theorem handle_inPlace {p : Pydantic} {c : GatewayConfig} {e : Edit}
    (he : ∀ body, e ≠ .putConfig body) : (handle p c e).verdict.InPlace = true := by
  cases e
  case putConfig body => exact absurd rfl (he body)
  case createModel | deleteModel | setProviderApiKey | rename =>
    simp only [handle, createModel, deleteModel, setProviderApiKey, renameEntity]
    repeat' split
    all_goals rfl
  all_goals
    refine withModel_inPlace fun m ↦ ?_
    simp only [updateModel, setBackendsTiers, addBackend, updateBackend, removeBackend,
      putTimeRouting, createTimeSlot, updateTimeSlot, deleteTimeSlot]
    repeat' split
    all_goals rfl

/-- A proper edit keeps the live configuration typed. -/
theorem handle_live_typed {p : Pydantic} {c : GatewayConfig} (h : c.Typed) {e : Edit}
    (he : e.Proper p c) : (handle p c e).live.Typed := by
  cases e with
  | createModel body => exact createModel_typed h body
  | updateModel id body =>
    refine withModel_typed h fun i m hi hm hmodel ↦ ?_
    cases body with
    | obj d => exact updateModel_typed (he (by rw [hi]; rfl)) hmodel
    | _ => exact hmodel
  | deleteModel id => exact deleteModel_typed h id
  | setBackendsTiers id body => exact withModel_typed h fun _ _ _ _ ↦ setBackendsTiers_typed
  | addBackend id body => exact withModel_typed h fun _ _ _ _ ↦ addBackend_typed
  | updateBackend id index body =>
    refine withModel_typed h fun i m hi hm hmodel ↦ ?_
    cases body with
    | obj d => exact updateBackend_typed (he i m hi hm) hmodel
    | _ =>
      unfold updateBackend
      split <;> exact hmodel
  | removeBackend id index => exact withModel_typed h fun _ _ _ _ ↦ removeBackend_typed
  | putTimeRouting id body => exact withModel_typed h fun _ _ _ _ ↦ putTimeRouting_typed
  | createTimeSlot id body => exact withModel_typed h fun _ _ _ _ ↦ createTimeSlot_typed
  | updateTimeSlot id slot body => exact withModel_typed h fun _ _ _ _ ↦ updateTimeSlot_typed
  | deleteTimeSlot id slot => exact withModel_typed h fun _ _ _ _ ↦ deleteTimeSlot_typed
  | setProviderApiKey body =>
    cases body with
    | obj d => exact setProviderApiKey_typed h he
    | _ => exact h
  | putConfig body =>
    show (putConfig p c body).live.Typed
    rw [putConfig_live]
    exact h
  | rename body => exact renameEntity_typed h body

/-- Another configuration that is saved in place of the live one is typed. -/
theorem handle_saveNew_typed {p : Pydantic} {c c' : GatewayConfig} (h : c.Typed) {e : Edit}
    (hnew : (handle p c e).verdict = .saveNew c') : c'.Typed := by
  by_cases he : ∃ body, e = .putConfig body
  · obtain ⟨body, rfl⟩ := he
    exact putConfig_typed h body hnew
  · have hplace := handle_inPlace (p := p) (c := c) fun body heq ↦ he ⟨body, heq⟩
    rw [hnew] at hplace
    cases hplace

/-! ### Runs -/

/-- The live configuration, if there is one, is typed. -/
def Store.LiveTyped (s : Store) : Prop :=
  ∀ c, s.live = some c → c.Typed

theorem firstValid_typed {p : Pydantic} {fs : List File} {c : GatewayConfig}
    (h : firstValid p fs = .ok (some c)) : c.Typed := by
  induction fs with
  | nil => cases h
  | cons f fs ih =>
    rw [firstValid] at h
    split at h
    · next c' hread =>
      obtain rfl : c' = c := by simpa using h
      cases f with
      | json v => exact parseConfig_typed hread
      | garbage => cases hread
    · exact ih h
    · cases h

/-- What `load_config` returns is typed. -/
theorem current_typed {p : Pydantic} {s : Store} (h : s.LiveTyped) {c : GatewayConfig}
    (hc : s.current p = some c) : c.Typed := by
  have hfiles : ∀ {c}, s.fromFiles p = some c → c.Typed := by
    intro c hc
    unfold Store.fromFiles at hc
    split at hc
    · next read hread =>
      obtain rfl := Option.some.inj hc
      rcases read with - | c
      · exact GatewayConfig.empty_typed
      · exact firstValid_typed hread
    · cases hc
  unfold Store.current at hc
  split at hc
  · next c' hlive _ =>
    obtain rfl := Option.some.inj hc
    exact h c' hlive
  · exact hfiles hc

theorem load_liveTyped {p : Pydantic} {s : Store} (h : s.LiveTyped) : (s.load p).LiveTyped := by
  unfold Store.load
  split
  · next c hc =>
    rintro c' heq
    obtain rfl := Option.some.inj heq
    exact current_typed h hc
  · exact h

theorem save_liveTyped {s : Store} (h : s.LiveTyped) {c : GatewayConfig} (hc : c.Typed)
    (shared : Bool) : (s.save c shared).1.LiveTyped := by
  have hbumped : ({ c with version := c.version + 1 } : GatewayConfig).Typed := ⟨hc.keys, hc.models⟩
  unfold Store.save
  simp only
  split_ifs
  · rintro c' heq
    obtain rfl := Option.some.inj heq
    exact hbumped
  · rintro c' heq
    obtain rfl := Option.some.inj heq
    exact hbumped
  · exact h

theorem reload_liveTyped (p : Pydantic) (s : Store) : (s.reload p).LiveTyped :=
  load_liveTyped fun c h ↦ by cases h

/-- The edit counts the version up. -/
def Verdict.Saves : Verdict → Bool
  | .save | .saveNew _ => true
  | _ => false

/-- What an edit does: it changes the live object, and then saves it or another one, or does not. -/
theorem edit_cases (p : Pydantic) (s : Store) (e : Edit) :
    (s.current p = none ∧ s.edit p e = (s, false)) ∨
      ∃ c, s.current p = some c ∧
        let s' := { s.load p with live := some (handle p c e).live }
        ((handle p c e).verdict = .save ∧ s.edit p e = s'.save (handle p c e).live true) ∨
          (∃ c', (handle p c e).verdict = .saveNew c' ∧ s.edit p e = s'.save c' false) ∨
          ((handle p c e).verdict.Saves = false ∧ s.edit p e = (s', false)) := by
  rcases hc : s.current p with - | c
  · exact .inl ⟨rfl, by rw [Store.edit, hc]⟩
  · refine .inr ⟨c, rfl, ?_⟩
    rcases hv : (handle p c e).verdict with - | c' | _ | -
    · exact .inl ⟨rfl, by simp only [Store.edit, hc, hv]⟩
    · exact .inr (.inl ⟨c', rfl, by simp only [Store.edit, hc, hv]⟩)
    · exact .inr (.inr ⟨rfl, by simp only [Store.edit, hc, hv]⟩)
    · exact .inr (.inr ⟨rfl, by simp only [Store.edit, hc, hv]⟩)

/-- A proper edit saves a typed configuration or nothing, and leaves a typed one in any case. -/
theorem edit_typed {p : Pydantic} {s : Store} (h : s.LiveTyped) {e : Edit}
    (he : (Op.edit e).Proper p s) :
    (∃ s' : Store, s'.LiveTyped ∧ s.edit p e = (s', false)) ∨
      ∃ (s' : Store) (c : GatewayConfig) (shared : Bool),
        s'.LiveTyped ∧ c.Typed ∧ s.edit p e = s'.save c shared := by
  rcases edit_cases p s e with ⟨-, heq⟩ | ⟨c, hc, hresult⟩
  · exact .inl ⟨s, h, heq⟩
  · have htyped := current_typed h hc
    have hlive := handle_live_typed htyped (he c hc)
    have hafter : ({ s.load p with live := some (handle p c e).live } : Store).LiveTyped := by
      rintro c' heq
      obtain rfl := Option.some.inj heq
      exact hlive
    rcases hresult with ⟨-, heq⟩ | ⟨c', hverdict, heq⟩ | ⟨-, heq⟩
    · exact .inr ⟨_, _, true, hafter, hlive, heq⟩
    · exact .inr ⟨_, c', false, hafter, handle_saveNew_typed htyped hverdict, heq⟩
    · exact .inl ⟨_, hafter, heq⟩

theorem restore_liveTyped {p : Pydantic} {s : Store} (h : s.LiveTyped) (slot : ℤ) :
    (s.restore p slot).1.LiveTyped := by
  unfold Store.restore
  split
  · exact h
  · split
    · exact h
    · simp only
      split
      · exact h
      · exact reload_liveTyped p _

/-- **One step.** A proper operation keeps the live configuration typed. -/
theorem liveTyped_next {p : Pydantic} {s : Store} (h : s.LiveTyped) {op : Op}
    (hop : op.Proper p s) : (s.next p op).LiveTyped := by
  cases op with
  | edit e =>
    show (s.edit p e).1.LiveTyped
    rcases edit_typed h hop with ⟨s', hs', heq⟩ | ⟨s', c, shared, hs', hc, heq⟩
    · rw [heq]
      exact hs'
    · rw [heq]
      exact save_liveTyped hs' hc shared
  | restore slot => exact restore_liveTyped h slot
  | reload => exact reload_liveTyped p s
  | restart => exact fun c hc ↦ by cases hc

/-- `config.json` is read back as the live configuration. -/
def Store.Loadable (p : Pydantic) (s : Store) : Prop :=
  ∃ v c, s.main = some (.json v) ∧ parseConfig p v = .ok c ∧ s.live = some c

theorem save_loadable {p : Pydantic} {s : Store} {c : GatewayConfig} (hc : c.Typed) {shared : Bool}
    (h : (s.save c shared).2 = true) : (s.save c shared).1.Loadable p := by
  have hbumped : ({ c with version := c.version + 1 } : GatewayConfig).Typed := ⟨hc.keys, hc.models⟩
  unfold Store.save at h ⊢
  simp only at h ⊢
  split_ifs at h ⊢ with henc
  exact ⟨_, _, rfl, parseConfig_dump p _ hbumped henc, rfl⟩

/-- A backup that is restored has been read before, and is what is read now. -/
theorem restore_loadable {p : Pydantic} {s : Store} {slot : ℤ} (h : (s.restore p slot).2 = true) :
    (s.restore p slot).1.Loadable p := by
  unfold Store.restore at h ⊢
  split at h
  · cases h
  · next f hf =>
    split at h
    · cases h
    · next c hread =>
      simp only at h
      split at h
      · cases h
      · next g hg =>
        obtain ⟨v, rfl⟩ : ∃ v, f = .json v := by
          cases f with
          | json v => exact ⟨v, rfl⟩
          | garbage => cases hread
        have hcurrent : ∀ backups, (⟨none, false, some (.json v), backups⟩ : Store).current p =
            some c := fun backups ↦ by
          simp [Store.current, Store.fromFiles, Store.candidates, firstValid, hread]
        simp only [Store.reload, Store.load, hcurrent]
        exact ⟨v, c, rfl, hread, rfl⟩

/-- An operation that succeeds leaves a loadable `config.json`. -/
theorem apply_loadable {p : Pydantic} {s : Store} (h : s.LiveTyped) {op : Op} (hop : op.Proper p s)
    (hok : (s.apply p op).2 = true) : (s.apply p op).1.Loadable p := by
  cases op with
  | edit e =>
    show (s.edit p e).1.Loadable p
    change (s.edit p e).2 = true at hok
    rcases edit_typed h hop with ⟨s', -, heq⟩ | ⟨s', c, shared, -, hc, heq⟩
    · rw [heq] at hok
      cases hok
    · rw [heq] at hok ⊢
      exact save_loadable hc hok
  | restore slot => exact restore_loadable hok
  | reload => cases hok
  | restart => cases hok

/-- **What is saved can be loaded.** From any files, in a run whose edits are proper, whatever the
restores, reloads and restarts between them: after each edit and each restore that succeeds,
`config.json` is read back without error as the live configuration. -/
theorem every_saved_loadable (p : Pydantic) (main : Option File) (backups : ℕ → Option File)
    (ops : List Op)
    (h : Runs.Every (Store.next p) (fun _ s op ↦ op.Proper p s) (.start main backups) ops) :
    Runs.Every (Store.next p)
      (fun _ s op ↦ (s.apply p op).2 = true → (s.apply p op).1.Loadable p) (.start main backups)
      ops := by
  refine Runs.every_of_invariant (fun _ s ↦ s.LiveTyped) (fun c hc ↦ by cases hc) ?_ ?_ h
  · exact fun _ _ _ hs hop ↦ liveTyped_next hs hop
  · exact fun _ _ _ hs hop ↦ apply_loadable hs hop

/-- The first model, in a gateway that has no files. -/
def createSample : Op :=
  .edit (.createModel (.obj [(py "id", .str (py "m"))]))

/-- New tags for the model. -/
def tagSample (tags : List Json) : Op :=
  .edit (.updateModel (py "m") (.obj [(py "tags", .arr tags)]))

theorem every_saved_loadable_sample :
    Runs.Every (Store.next .strict)
      (fun _ s op ↦ (s.apply .strict op).2 = true → (s.apply .strict op).1.Loadable .strict)
      (.start none fun _ ↦ none) [createSample, tagSample [.str (py "fast")], .restore 0] := by
  refine every_saved_loadable .strict none _ _ fun past op future heq ↦ ?_
  have hmem : op ∈ [createSample, tagSample [.str (py "fast")], .restore 0] := by
    rw [heq]
    simp
  simp only [List.mem_cons, List.not_mem_nil, or_false] at hmem
  rcases hmem with rfl | rfl | rfl
  · exact fun _ _ ↦ trivial
  · intro _ _ _ _
    show Assigns ModelValue [(py "tags", .arr [.str (py "fast")])] modelSettable
    unfold Assigns
    decide
  · trivial

/-- A store whose file is not valid. -/
theorem Store.not_loadable_of_read {s : Store} (h : (s.main.map fun f ↦ (f.read p).isOk) = some false) :
    ¬ s.Loadable p := by
  rintro ⟨v, c, hmain, hparse, -⟩
  rw [hmain, Option.map_some, File.read, hparse] at h
  cases h

/-- **What is saved need not be loadable.** The list of tags may hold anything; what is written then
is not valid, although the request succeeds. -/
theorem not_every_saved_loadable :
    ¬ Runs.Every (Store.next .strict)
      (fun _ s op ↦ (s.apply .strict op).2 = true → (s.apply .strict op).1.Loadable .strict)
      (.start none fun _ ↦ none) [createSample, tagSample [.int 1]] := by
  intro h
  have hrun : ((Runs.exec (Store.next .strict) (.start none fun _ ↦ none) [createSample]).apply .strict
        (tagSample [.int 1])).2 = true ∧
      (((Runs.exec (Store.next .strict) (.start none fun _ ↦ none) [createSample]).apply .strict
        (tagSample [.int 1])).1.main.map fun f ↦ (f.read .strict).isOk) = some false := by
    decide +kernel
  exact Store.not_loadable_of_read hrun.2 (h [createSample] (tagSample [.int 1]) [] rfl hrun.1)

end LocalGateway
