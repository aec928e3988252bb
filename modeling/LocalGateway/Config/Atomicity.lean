import LocalGateway.Config.Admin
import LocalGateway.Foundations.Related

/-!
# Rejected edits

What a rejected edit leaves behind. The handlers check before they change anything
(`handle_checksFirst`), except the two that assign attributes one after the other: `_apply_fields`
stops at the first value of a wrong type with the earlier ones assigned, and `update_model` replaces
the time routing before the attributes are looked at. `set_backends_tiers` is a third one: it does
not reject half way, but it can fail with an exception there.

`handle_live_eq_iff` is the exact statement: a rejected edit leaves the live configuration as it was
if and only if the values assigned before the failure are the ones that were there
(`Edit.Harmless`).
-/

namespace LocalGateway

open Py Json

/-! ### The assignments before a failure -/

/-- What the loop of `_apply_fields` assigns before it stops. -/
def assigned (body : PyDict) (whitelist : Whitelist) : List (PyStr × Json) :=
  (whitelist.takeWhile fun e ↦
    match get? body e.1 with
    | none => true
    | some v => e.2.any (isInstance v)).filterMap fun e ↦ (get? body e.1).map (e.1, ·)

/-- The loop assigns what it assigns in one go. -/
theorem applyLoop_fst (obj body : PyDict) (whitelist : Whitelist) :
    (applyLoop obj body whitelist).1 =
      (assigned body whitelist).foldl (fun d e ↦ setKey d e.1 e.2) obj := by
  induction whitelist generalizing obj with
  | nil => rfl
  | cons e whitelist ih =>
    obtain ⟨field, types⟩ := e
    rw [applyLoop, assigned]
    rcases hget : get? body field with - | v
    · simpa [hget, assigned] using ih obj
    · by_cases htype : types.any (isInstance v) = true
      · simpa [hget, htype, assigned] using ih (setKey obj field v)
      · simp [hget, htype]

theorem assigned_map_fst_sublist (body : PyDict) (whitelist : Whitelist) :
    ((assigned body whitelist).map Prod.fst).Sublist (whitelist.map Prod.fst) := by
  have hkeys : ∀ es : Whitelist, ((es.filterMap fun e ↦
      (get? body e.1).map (e.1, ·)).map Prod.fst).Sublist (es.map Prod.fst) := by
    intro es
    induction es with
    | nil => exact .slnil
    | cons e es ih =>
      rcases hget : get? body e.1 with - | v
      · simpa [hget] using ih.cons e.1
      · simpa [hget] using ih.cons_cons e.1
  exact (hkeys _).trans ((List.takeWhile_sublist _).map Prod.fst)

/-- The last assignment to a key is the one that counts; with distinct keys, each is. -/
theorem get?_foldl_setKey {es : List (PyStr × Json)} (hnodup : (es.map Prod.fst).Nodup) (d : PyDict) :
    ∀ e ∈ es, get? (es.foldl (fun d e ↦ setKey d e.1 e.2) d) e.1 = some e.2 := by
  have hother : ∀ (es : List (PyStr × Json)) (d : PyDict) (k : PyStr), k ∉ es.map Prod.fst →
      get? (es.foldl (fun d e ↦ setKey d e.1 e.2) d) k = get? d k := by
    intro es
    induction es with
    | nil => exact fun _ _ _ ↦ rfl
    | cons e es ih =>
      intro d k hk
      rw [List.map_cons, List.mem_cons, not_or] at hk
      rw [List.foldl_cons, ih _ k hk.2, get?_setKey, if_neg hk.1]
  induction es generalizing d with
  | nil => simp
  | cons e es ih =>
    obtain ⟨he, hnodup⟩ := List.nodup_cons.1 hnodup
    intro f hf
    rw [List.foldl_cons]
    rcases List.mem_cons.1 hf with rfl | hf
    · rw [hother es _ _ he, get?_setKey, if_pos rfl]
    · exact ih hnodup _ f hf

/-- Assignments to distinct keys leave a dictionary as it is if and only if each assigns what is
there. -/
theorem foldl_setKey_eq_iff {es : List (PyStr × Json)} (hnodup : (es.map Prod.fst).Nodup)
    (d : PyDict) :
    es.foldl (fun d e ↦ setKey d e.1 e.2) d = d ↔ ∀ e ∈ es, get? d e.1 = some e.2 := by
  constructor
  · intro h e he
    have hget := get?_foldl_setKey hnodup d e he
    rwa [h] at hget
  · intro h
    clear hnodup
    induction es with
    | nil => rfl
    | cons e es ih =>
      rw [List.foldl_cons, setKey_of_get? (h e List.mem_cons_self)]
      exact ih fun f hf ↦ h f (List.mem_cons_of_mem e hf)

/-- Either a key is unknown, and nothing is assigned, or every attribute that comes before the
first value of a wrong type is given the value it has. -/
def Idle (obj body : PyDict) (whitelist : Whitelist) : Prop :=
  unknownFields body whitelist = [] → ∀ e ∈ assigned body whitelist, get? obj e.1 = some e.2

instance (obj body : PyDict) (whitelist : Whitelist) : Decidable (Idle obj body whitelist) :=
  inferInstanceAs (Decidable (_ → _))

/-- **What `_apply_fields` leaves alone.** -/
theorem applyFields_fst_eq_iff {whitelist : Whitelist} (hnodup : (whitelist.map Prod.fst).Nodup)
    (obj body : PyDict) : (applyFields obj body whitelist).1 = obj ↔ Idle obj body whitelist := by
  have hassigned := (assigned_map_fst_sublist body whitelist).nodup hnodup
  unfold applyFields Idle
  by_cases hunknown : unknownFields body whitelist = []
  · simp only [hunknown, ne_eq, not_true_eq_false, if_false, true_imp_iff, applyLoop_fst]
    exact foldl_setKey_eq_iff hassigned obj
  · simp [hunknown]

theorem modelSettable_nodup : (modelSettable.map Prod.fst).Nodup := by decide

theorem backendSettable_nodup : (backendSettable.map Prod.fst).Nodup := by decide

/-! ### One model -/

/-- To replace an element is to change nothing if and only if it is replaced by itself. -/
theorem set_eq_self_iff {α : Type} {l : List α} {i : ℕ} {a b : α} (h : l[i]? = some a) :
    l.set i b = l ↔ b = a := by
  obtain ⟨hlt, hval⟩ := List.getElem?_eq_some_iff.1 h
  constructor
  · intro hset
    have hget := List.getElem?_set_self (a := b) hlt
    rw [hset, h] at hget
    exact (Option.some.inj hget).symm
  · rintro rfl
    rw [← hval, List.set_getElem_self]

/-- What `update_model` has written into the model when it fails was there already. -/
def ModelConfig.updateIdle (p : Pydantic) (d : PyDict) (m : ModelConfig) : Prop :=
  let rest := d.filter (·.1 ≠ py "time_routing")
  match get? d (py "time_routing") with
  | none | some .null => Idle m.fields rest modelSettable
  | some v =>
    ∀ t, validateTimeRouting p v = some t → m.timeRouting = t ∧ Idle m.fields rest modelSettable

/-- A model with other attributes is the same model if and only if they are its own. -/
theorem ModelConfig.assign_eq_iff (m : ModelConfig) (t : TimeRoutingConfig) (rest : PyDict) :
    ({ m with timeRouting := t, fields := (applyFields m.fields rest modelSettable).1 }
        : ModelConfig) = m ↔ m.timeRouting = t ∧ Idle m.fields rest modelSettable := by
  rw [← applyFields_fst_eq_iff modelSettable_nodup]
  obtain ⟨id, backends, timeRouting, fields⟩ := m
  simp only [ModelConfig.mk.injEq, true_and]
  exact and_congr_left fun _ ↦ eq_comm

theorem updateModel_fst_eq_iff (p : Pydantic) (d : PyDict) (m : ModelConfig) :
    (updateModel p (.obj d) m).1 = m ↔ m.updateIdle p d := by
  have hsame := m.assign_eq_iff m.timeRouting (d.filter (·.1 ≠ py "time_routing"))
  rw [eq_self_iff_true, true_and] at hsame
  unfold updateModel ModelConfig.updateIdle
  simp only
  rcases get? d (py "time_routing") with - | v
  · exact hsame
  · rcases hvalid : validateTimeRouting p v with - | t
    · cases v with
      | null => exact hsame
      | _ => simp [hvalid]
    · have hassign := m.assign_eq_iff t (d.filter (·.1 ≠ py "time_routing"))
      cases v with
      | null => exact hsame
      | _ => simpa [hvalid] using hassign

/-- What `update_backend` has written into the backend when it fails was there already. -/
def ModelConfig.backendIdle (index : ℤ) (d : PyDict) (m : ModelConfig) : Prop :=
  ∀ b, backendAt m index = some b → Idle b.fields d backendSettable

theorem updateBackend_fst_eq_iff (index : ℤ) (d : PyDict) (m : ModelConfig) :
    (updateBackend index (.obj d) m).1 = m ↔ m.backendIdle index d := by
  unfold updateBackend ModelConfig.backendIdle
  rcases hb : backendAt m index with - | b
  · simp
  · have hget : m.backends[index.toNat]? = some b := by
      rw [backendAt] at hb
      split at hb
      · cases hb
      · exact hb
    have hmodel : ∀ bs, ({ m with backends := bs } : ModelConfig) = m ↔ bs = m.backends := by
      obtain ⟨_, _, _, _⟩ := m
      simp
    have hbackend : ∀ fields, ({ b with fields := fields } : BackendConfig) = b ↔
        fields = b.fields := by
      obtain ⟨_, _⟩ := b
      simp
    simp only [hmodel, set_eq_self_iff hget, hbackend, applyFields_fst_eq_iff backendSettable_nodup,
      Option.some.injEq, forall_eq']

/-! ### Handlers that check first -/

/-- An error answer with a status of the 4xx class. -/
def Verdict.Rejects (v : Verdict) : Prop :=
  ∃ status message, v = .reject status message ∧ 400 ≤ status ∧ status < 500

/-- A result of a handler of one model that is the model itself unless it is to be saved. -/
def ChecksFirst (m : ModelConfig) (r : ModelConfig × Verdict) : Prop :=
  r.2 ≠ .save → r.1 = m

/-- Nothing has been written. -/
theorem ChecksFirst.unchanged {m : ModelConfig} (v : Verdict) : ChecksFirst m (m, v) :=
  fun _ ↦ rfl

/-- What has been written is saved. -/
theorem ChecksFirst.save {m m' : ModelConfig} : ChecksFirst m (m', .save) :=
  fun h ↦ absurd rfl h

theorem Verdict.Rejects.ne_save {v : Verdict} (h : v.Rejects) : v ≠ .save := by
  rintro rfl
  obtain ⟨_, _, h, -⟩ := h
  cases h

/-- No index of the tiers is a `float`: `1.0` passes the comparison with the range, and then is no
index. -/
def WholeTiers (d : PyDict) : Prop :=
  ∀ ts tiers, (get? d (py "tiers")).getD (.arr []) = .arr ts → tierLists ts = some tiers →
    ∀ v ∈ tiers.flatten, v.isFloat = false

theorem setTier_snd (tier : ℕ) {vs : List Json} (h : ∀ v ∈ vs, (v.isInt || v.isBool) = true)
    (bs : List BackendConfig) : (setTier tier vs bs).2 = true := by
  induction vs generalizing bs with
  | nil => rfl
  | cons v vs ih =>
    have hrest := ih fun w hw ↦ h w (List.mem_cons_of_mem v hw)
    have hv := h v List.mem_cons_self
    cases v with
    | int n => exact hrest _
    | bool b => exact hrest _
    | _ => cases hv

theorem setTiers_snd (tier : ℕ) {ts : List (List Json)}
    (h : ∀ v ∈ ts.flatten, (v.isInt || v.isBool) = true) (bs : List BackendConfig) :
    (setTiers tier ts bs).2 = true := by
  induction ts generalizing tier bs with
  | nil => rfl
  | cons t ts ih =>
    rw [List.flatten_cons] at h
    have ht := setTier_snd tier (fun v hv ↦ h v (List.mem_append_left _ hv)) bs
    rw [setTiers]
    split
    · exact ih (tier + 1) (fun v hv ↦ h v (List.mem_append_right _ hv)) _
    · next bs' heq =>
      rw [heq] at ht
      cases ht

/-- An index that can be compared with a number is one. -/
theorem isNumber_of_indexValue {v : Json} {q : ℚ} (h : indexValue v = some q) :
    (v.isInt || v.isBool || v.isFloat) = true := by
  cases v <;> first
    | rfl
    | cases h

theorem isNumber_of_isRange {xs : List Json} {n : ℕ} (h : isRange xs n = true) :
    ∀ v ∈ xs, (v.isInt || v.isBool || v.isFloat) = true := by
  unfold isRange at h
  split at h
  · next qs hqs =>
    intro v hv
    obtain ⟨_, -, hq⟩ := exists_of_mem_left (mapM_eq_some_iff.1 hqs) hv
    exact isNumber_of_indexValue hq
  · cases h

/-- The tiers are checked before the first priority is assigned; a failure after that is an
exception, not a rejection. -/
theorem setBackendsTiers_fst_of_rejects {body : Json} {m : ModelConfig}
    (h : (setBackendsTiers body m).2.Rejects) : (setBackendsTiers body m).1 = m := by
  unfold setBackendsTiers at h ⊢
  split <;> try rfl
  next d =>
  simp only at h
  split <;> try rfl
  next ts hts =>
  simp only [hts] at h
  split <;> try rfl
  next tiers htiers =>
  simp only [htiers] at h
  split_ifs at h ⊢ <;> try rfl
  all_goals
    obtain ⟨_, _, heq, -⟩ := h
    cases heq

/-- Without a `float` among the indices there is no failure after the check. -/
theorem setBackendsTiers_checksFirst {d : PyDict} (hd : WholeTiers d) (m : ModelConfig) :
    ChecksFirst m (setBackendsTiers (.obj d) m) := by
  unfold setBackendsTiers
  simp only
  split <;> try exact .unchanged _
  next ts hts =>
  split <;> try exact .unchanged _
  next tiers htiers =>
  split_ifs with hsortable hrange hall <;> first
    | exact .unchanged _
    | exact .save
    | skip
  refine absurd (setTiers_snd 1 (fun v hv ↦ ?_) m.backends) hall
  have hnumber := isNumber_of_isRange (by simpa using hrange) v hv
  rwa [hd ts tiers hts htiers v hv, Bool.or_false] at hnumber

theorem addBackend_checksFirst (p : Pydantic) (body : Json) (m : ModelConfig) :
    ChecksFirst m (addBackend p body m) := by
  unfold addBackend
  split
  · exact .unchanged _
  · exact .save

theorem removeBackend_checksFirst (index : ℤ) (m : ModelConfig) :
    ChecksFirst m (removeBackend index m) := by
  unfold removeBackend
  split
  · exact .unchanged _
  · exact .save

theorem putTimeRouting_checksFirst (p : Pydantic) (body : Json) (m : ModelConfig) :
    ChecksFirst m (putTimeRouting p body m) := by
  unfold putTimeRouting
  split
  · exact .unchanged _
  · exact .save

theorem createTimeSlot_checksFirst (p : Pydantic) (body : Json) (m : ModelConfig) :
    ChecksFirst m (createTimeSlot p body m) := by
  unfold createTimeSlot
  split
  · exact .unchanged _
  · exact .save

/-- The slot is looked up first, then the body is checked. -/
theorem updateTimeSlot_checksFirst (p : Pydantic) (slot : PyStr) (body : Json) (m : ModelConfig) :
    ChecksFirst m (updateTimeSlot p slot body m) := by
  unfold updateTimeSlot
  split
  · exact .unchanged _
  · split
    · exact .unchanged _
    · exact .save

/-- The slots are replaced before they are counted, but then the list is the same one. -/
theorem deleteTimeSlot_checksFirst (slot : PyStr) (m : ModelConfig) :
    ChecksFirst m (deleteTimeSlot slot m) := by
  unfold deleteTimeSlot
  simp only
  split_ifs
  · exact .unchanged _
  · exact .save

/-! ### All handlers -/

/-- A handler of one model leaves the configuration alone if and only if it leaves the model it
finds alone. -/
theorem withModel_live_eq_iff (c : GatewayConfig) (id : PyStr)
    (f : ModelConfig → ModelConfig × Verdict) :
    (withModel c id f).live = c ↔
      ∀ i m, c.modelIndex id = some i → c.models[i]? = some m → (f m).1 = m := by
  unfold withModel
  rcases hi : c.modelIndex id with - | i
  · simp
  · rcases hm : c.models[i]? with - | m
    · simp only [hm, Option.some.injEq, true_iff]
      rintro i m rfl hm'
      rw [hm] at hm'
      cases hm'
    · have hmodels : ∀ ms, ({ c with models := ms } : GatewayConfig) = c ↔ ms = c.models := by
        obtain ⟨_, _, _, _, _⟩ := c
        simp
      simp only [hm, hmodels, set_eq_self_iff hm, Option.some.injEq]
      constructor
      · rintro h i m' rfl hm'
        rw [hm] at hm'
        cases hm'
        exact h
      · exact fun h ↦ h i m rfl hm

theorem withModel_verdict {c : GatewayConfig} {id : PyStr} (f : ModelConfig → ModelConfig × Verdict)
    {i : ℕ} {m : ModelConfig} (hi : c.modelIndex id = some i) (hm : c.models[i]? = some m) :
    (withModel c id f).verdict = (f m).2 := by
  simp [withModel, hi, hm]

/-- An outcome that leaves the live configuration as it is unless it is to be saved. -/
def Outcome.ChecksFirst (c : GatewayConfig) (o : Outcome) : Prop :=
  o.verdict ≠ .save → o.live = c

theorem Outcome.ChecksFirst.unchanged {c : GatewayConfig} (v : Verdict) :
    Outcome.ChecksFirst c ⟨c, v⟩ :=
  fun _ ↦ rfl

theorem Outcome.ChecksFirst.save {c c' : GatewayConfig} : Outcome.ChecksFirst c ⟨c', .save⟩ :=
  fun h ↦ absurd rfl h

/-- A handler of one model that checks first leaves the configuration alone unless it is to be
saved. -/
theorem withModel_checksFirst {c : GatewayConfig} {id : PyStr}
    {f : ModelConfig → ModelConfig × Verdict} (hf : ∀ m, ChecksFirst m (f m)) :
    (withModel c id f).ChecksFirst c := by
  intro h
  rw [withModel_live_eq_iff]
  intro i m hi hm
  have hverdict := withModel_verdict f hi hm
  exact hf m (hverdict ▸ h)

theorem createModel_checksFirst (p : Pydantic) (c : GatewayConfig) (body : Json) :
    (createModel p c body).ChecksFirst c := by
  unfold createModel
  split <;> try exact .unchanged _
  split <;> try exact .unchanged _
  split_ifs
  · exact .unchanged _
  · exact .unchanged _
  · split
    · exact .unchanged _
    · exact .save

theorem deleteModel_checksFirst (c : GatewayConfig) (id : PyStr) :
    (deleteModel c id).ChecksFirst c := by
  unfold deleteModel
  split
  · exact .unchanged _
  · exact .save

theorem setProviderApiKey_checksFirst (c : GatewayConfig) (body : Json) :
    (setProviderApiKey c body).ChecksFirst c := by
  unfold setProviderApiKey
  split <;> try exact .unchanged _
  split <;> try exact .unchanged _
  split <;> try exact .unchanged _
  split <;> try exact .unchanged _
  simp only
  split_ifs
  · exact .unchanged _
  · exact .save
  · exact .save

/-- A new object is built from the body and takes the place of the live one only when it is saved. -/
theorem putConfig_live (p : Pydantic) (c : GatewayConfig) (body : Json) :
    (putConfig p c body).live = c := by
  unfold putConfig
  simp only
  split_ifs
  · rfl
  · split <;> try rfl
    split <;> try rfl
    split <;> rfl

/-- Both ids are checked before the first of them is used. -/
theorem renameEntity_checksFirst (c : GatewayConfig) (body : Json) :
    (renameEntity c body).ChecksFirst c := by
  unfold renameEntity
  split <;> try exact .unchanged _
  split <;> try exact .unchanged _
  simp only
  split_ifs <;> try exact .unchanged _
  all_goals
    split <;> first
      | exact .unchanged _
      | exact .save

/-- What a rejected edit has written before it failed was there already: the two handlers that
assign attributes one by one are the only ones that write before they check. -/
def Edit.Harmless (p : Pydantic) (c : GatewayConfig) : Edit → Prop
  | .updateModel id (.obj d) =>
    ∀ i m, c.modelIndex id = some i → c.models[i]? = some m → m.updateIdle p d
  | .updateBackend id index (.obj d) =>
    ∀ i m, c.modelIndex id = some i → c.models[i]? = some m → m.backendIdle index d
  | _ => True

/-- The handlers other than these three check first. -/
theorem handle_checksFirst {p : Pydantic} {c : GatewayConfig} {e : Edit}
    (hmodel : ∀ id d, e ≠ .updateModel id (.obj d))
    (hbackend : ∀ id index d, e ≠ .updateBackend id index (.obj d))
    (htiers : ∀ id d, e = .setBackendsTiers id (.obj d) → WholeTiers d) :
    (handle p c e).ChecksFirst c := by
  cases e with
  | createModel body => exact createModel_checksFirst p c body
  | updateModel id body =>
    refine withModel_checksFirst fun m ↦ ?_
    cases body with
    | obj d => exact absurd rfl (hmodel id d)
    | _ => exact .unchanged _
  | deleteModel id => exact deleteModel_checksFirst c id
  | setBackendsTiers id body =>
    refine withModel_checksFirst fun m ↦ ?_
    cases body with
    | obj d => exact setBackendsTiers_checksFirst (htiers id d rfl) m
    | _ => exact .unchanged _
  | addBackend id body => exact withModel_checksFirst (addBackend_checksFirst p body)
  | updateBackend id index body =>
    refine withModel_checksFirst fun m ↦ ?_
    cases body with
    | obj d => exact absurd rfl (hbackend id index d)
    | _ =>
      rw [updateBackend]
      split <;> exact .unchanged _
  | removeBackend id index => exact withModel_checksFirst (removeBackend_checksFirst index)
  | putTimeRouting id body => exact withModel_checksFirst (putTimeRouting_checksFirst p body)
  | createTimeSlot id body => exact withModel_checksFirst (createTimeSlot_checksFirst p body)
  | updateTimeSlot id slot body =>
    exact withModel_checksFirst (updateTimeSlot_checksFirst p slot body)
  | deleteTimeSlot id slot => exact withModel_checksFirst (deleteTimeSlot_checksFirst slot)
  | setProviderApiKey body => exact setProviderApiKey_checksFirst c body
  | putConfig body => exact fun _ ↦ putConfig_live p c body
  | rename body => exact renameEntity_checksFirst c body

/-- The three handlers that write before they have checked everything. -/
theorem Edit.writesFirst_cases (e : Edit) :
    (∃ id d, e = .updateModel id (.obj d)) ∨ (∃ id index d, e = .updateBackend id index (.obj d)) ∨
      (∃ id d, e = .setBackendsTiers id (.obj d)) ∨
      (∀ id d, e ≠ .updateModel id (.obj d)) ∧ (∀ id index d, e ≠ .updateBackend id index (.obj d)) ∧
        ∀ id d, e ≠ .setBackendsTiers id (.obj d) := by
  by_cases hmodel : ∃ id d, e = .updateModel id (.obj d)
  · exact .inl hmodel
  by_cases hbackend : ∃ id index d, e = .updateBackend id index (.obj d)
  · exact .inr (.inl hbackend)
  by_cases htiers : ∃ id d, e = .setBackendsTiers id (.obj d)
  · exact .inr (.inr (.inl htiers))
  simp only [not_exists] at hmodel hbackend htiers
  exact .inr (.inr (.inr ⟨hmodel, hbackend, htiers⟩))

theorem updateModel_live_eq_iff (p : Pydantic) (c : GatewayConfig) (id : PyStr) (d : PyDict) :
    (handle p c (.updateModel id (.obj d))).live = c ↔
      (Edit.updateModel id (.obj d)).Harmless p c := by
  show (withModel c id (updateModel p (.obj d))).live = c ↔ _
  simp only [withModel_live_eq_iff, updateModel_fst_eq_iff, Edit.Harmless]

theorem updateBackend_live_eq_iff (p : Pydantic) (c : GatewayConfig) (id : PyStr) (index : ℤ)
    (d : PyDict) :
    (handle p c (.updateBackend id index (.obj d))).live = c ↔
      (Edit.updateBackend id index (.obj d)).Harmless p c := by
  show (withModel c id (updateBackend index (.obj d))).live = c ↔ _
  simp only [withModel_live_eq_iff, updateBackend_fst_eq_iff, Edit.Harmless]

/-- The edit is harmless, and the tiers it sets, if it sets any, are integers. -/
def Edit.Clean (p : Pydantic) (c : GatewayConfig) (e : Edit) : Prop :=
  e.Harmless p c ∧ ∀ id d, e = .setBackendsTiers id (.obj d) → WholeTiers d

/-- What an edit leaves behind that is not saved, be it rejected or ended by an exception. -/
theorem live_of_clean {p : Pydantic} {c : GatewayConfig} {e : Edit} (h : e.Clean p c)
    (hsave : (handle p c e).verdict ≠ .save) : (handle p c e).live = c := by
  rcases e.writesFirst_cases with
    ⟨id, d, rfl⟩ | ⟨id, index, d, rfl⟩ | ⟨id, d, rfl⟩ | ⟨hmodel, hbackend, -⟩
  · exact (updateModel_live_eq_iff p c id d).2 h.1
  · exact (updateBackend_live_eq_iff p c id index d).2 h.1
  · exact withModel_checksFirst (setBackendsTiers_checksFirst (h.2 id d rfl)) hsave
  · exact handle_checksFirst hmodel hbackend h.2 hsave

/-- **What a rejected edit leaves behind.** An edit that is answered with an error of the 4xx class
leaves the live configuration as it was if and only if it is harmless. -/
theorem handle_live_eq_iff (p : Pydantic) (c : GatewayConfig) (e : Edit)
    (h : (handle p c e).verdict.Rejects) : (handle p c e).live = c ↔ e.Harmless p c := by
  rcases e.writesFirst_cases with
    ⟨id, d, rfl⟩ | ⟨id, index, d, rfl⟩ | ⟨id, d, rfl⟩ | ⟨hmodel, hbackend, htiers⟩
  · exact updateModel_live_eq_iff p c id d
  · exact updateBackend_live_eq_iff p c id index d
  · refine iff_of_true ((withModel_live_eq_iff ..).2 fun i m hi hm ↦ ?_) trivial
    have hverdict := withModel_verdict (setBackendsTiers (.obj d)) hi hm
    exact setBackendsTiers_fst_of_rejects (hverdict ▸ h)
  · refine iff_of_true (handle_checksFirst hmodel hbackend ?_ h.ne_save) ?_
    · exact fun id d heq ↦ absurd heq (htiers id d)
    · unfold Edit.Harmless
      split
      · exact absurd rfl (hmodel _ _)
      · exact absurd rfl (hbackend _ _ _)
      · trivial

/-- A gateway with one model, which has no backends. -/
def oneModel : GatewayConfig :=
  { GatewayConfig.empty with
    models := [⟨py "m", [], .empty, defaultFields modelClass.specs⟩] }

/-- A description, and a value of `enabled` that is no `bool`. -/
def halfValidBody : Json :=
  .obj [(py "description", .str (py "new")), (py "enabled", .str (py "yes"))]

/-- A rejected edit that assigns nothing before it fails. -/
theorem handle_live_eq_sample :
    (handle .strict oneModel (.updateModel (py "m") (.obj [(py "enabled", .null)]))).live =
      oneModel := by
  refine (handle_live_eq_iff .strict oneModel _ ⟨422, _, rfl, by decide, by decide⟩).2 ?_
  rintro i m hi hm
  obtain rfl : 0 = i := by simpa [oneModel, GatewayConfig.modelIndex] using hi
  obtain rfl : _ = m := by simpa [oneModel] using hm
  show Idle (defaultFields modelClass.specs) [(py "enabled", .null)] modelSettable
  decide

/-- **A rejected edit that is half done.** The answer is a 422 error, and the model has its new
description. -/
theorem handle_half_done :
    (handle .strict oneModel (.updateModel (py "m") halfValidBody)).verdict.Rejects ∧
      (handle .strict oneModel (.updateModel (py "m") halfValidBody)).live ≠ oneModel :=
  ⟨⟨422, _, rfl, by decide, by decide⟩, fun h ↦ absurd (congrArg GatewayConfig.models h) (by decide)⟩

end LocalGateway
