import LocalGateway.Config.Atomicity
import LocalGateway.Python.Lax

/-!
# Edits of one field and the schema

`_apply_fields` has its own idea of which values an attribute may have: the types of a whitelist, checked
with `isinstance`. The schema of the same attribute looks into lists and dictionaries, converts numbers and
truth values, and rewrites the old label of a modality.

* `applyFields_single`: what a body with one field does.
* `reads_iff`: for each type of an attribute, the values on which the whitelist and the schema agree.
* `fieldEdits_agree_iff`: the same for every settable attribute of a model and of a backend, through the
  handlers.
-/

namespace LocalGateway

open Py Json

/-! ### Bodies with one field -/

/-- An attribute that the body does not name is left alone. -/
theorem applyLoop_absent {body : PyDict} {whitelist : Whitelist}
    (h : ∀ e ∈ whitelist, get? body e.1 = none) (obj : PyDict) : applyLoop obj body whitelist = (obj, none) := by
  induction whitelist with
  | nil => rfl
  | cons e whitelist ih =>
    rw [applyLoop, h e List.mem_cons_self]
    exact ih fun e he ↦ h e (List.mem_cons_of_mem _ he)

theorem get?_single (field name : PyStr) (v : Json) :
    get? [(field, v)] name = if name = field then some v else none := by
  by_cases h : name = field
  · rw [if_pos h, h, get?_cons_self]
  · rw [if_neg h]
    exact get?_eq_none_iff.2 (by simpa using h)

theorem applyLoop_single {whitelist : Whitelist} (hnodup : (whitelist.map Prod.fst).Nodup) {field : PyStr}
    {types : List PyType} (hmem : (field, types) ∈ whitelist) (obj : PyDict) (v : Json) :
    applyLoop obj [(field, v)] whitelist =
      if types.any (isInstance v) then (setKey obj field v, none)
      else (obj, some (typeMessage field types)) := by
  induction whitelist with
  | nil => simp at hmem
  | cons e whitelist ih =>
    obtain ⟨name, ts⟩ := e
    obtain ⟨hname, hnodup⟩ := List.nodup_cons.1 hnodup
    rw [applyLoop, get?_single]
    rcases List.mem_cons.1 hmem with heq | hmem
    · obtain ⟨rfl, rfl⟩ := Prod.mk.inj heq
      rw [if_pos rfl]
      refine if_congr Iff.rfl (applyLoop_absent (fun e he ↦ ?_) _) rfl
      rw [get?_single, if_neg]
      rintro rfl
      exact hname (List.mem_map.2 ⟨e, he, rfl⟩)
    · have hne : name ≠ field := by
        rintro rfl
        exact hname (List.mem_map.2 ⟨(name, types), hmem, rfl⟩)
      rw [if_neg hne]
      exact ih hnodup hmem

/-- **What `_apply_fields` does with one field.** -/
theorem applyFields_single {whitelist : Whitelist} (hnodup : (whitelist.map Prod.fst).Nodup) {field : PyStr}
    {types : List PyType} (hmem : (field, types) ∈ whitelist) (obj : PyDict) (v : Json) :
    applyFields obj [(field, v)] whitelist =
      if types.any (isInstance v) then (setKey obj field v, none)
      else (obj, some (typeMessage field types)) := by
  have hknown : unknownFields [(field, v)] whitelist = [] := by
    have hname : field ∈ whitelist.map Prod.fst := List.mem_map_of_mem hmem
    simp [unknownFields, hname]
  rw [applyFields, hknown]
  exact applyLoop_single hnodup hmem obj v

/-! ### Agreement -/

/-- A handler agrees with the schema on a value: it accepts what the schema reads, and stores it as the
schema does. -/
structure EditAgrees (verdict : Verdict) (stored read : Option Json) : Prop where
  accepted : verdict = .save ↔ read.isSome = true
  stored : verdict = .save → stored = read

theorem editAgrees_save_iff {stored : Json} {read : Option Json} :
    EditAgrees .save (some stored) read ↔ read = some stored := by
  constructor
  · exact fun h ↦ (h.stored rfl).symm
  · rintro rfl
    exact ⟨by simp, fun _ ↦ rfl⟩

theorem editAgrees_reject_iff {status : ℕ} {message : PyStr} {stored read : Option Json} :
    EditAgrees (.reject status message) stored read ↔ read = none := by
  constructor
  · intro h
    rw [← Option.not_isSome_iff_eq_none]
    exact fun hsome ↦ nomatch h.accepted.2 hsome
  · rintro rfl
    exact ⟨by simp, nofun⟩

section Edits

variable (p : Pydantic)

/-- `update_model` with one field agrees with the schema of `ModelConfig`. -/
def ModelConfig.EditAgrees (m : ModelConfig) (spec : FieldSpec) (v : Json) : Prop :=
  LocalGateway.EditAgrees (updateModel p (.obj [(spec.name, v)]) m).2
    (get? (updateModel p (.obj [(spec.name, v)]) m).1.fields spec.name)
    (validateField p (normalizeModality [(spec.name, v)]) spec)

/-- `update_backend` with one field agrees with the schema of `BackendConfig`. -/
def ModelConfig.BackendEditAgrees (m : ModelConfig) (index : ℤ) (spec : FieldSpec) (v : Json) : Prop :=
  LocalGateway.EditAgrees (updateBackend index (.obj [(spec.name, v)]) m).2
    ((backendAt (updateBackend index (.obj [(spec.name, v)]) m).1 index).bind fun b ↦ get? b.fields spec.name)
    (validateField p [(spec.name, v)] spec)

/-- What the whitelists allow for an attribute of the type. -/
def whitelisted : FieldType → List PyType
  | .str | .optStr => [.str]
  | .optInt => [.int, .noneType]
  | .bool => [.bool]
  | .optBool => [.bool, .noneType]
  | .float => [.float]
  | .optFloat => [.float, .noneType]
  | .listStr => [.list]
  | .dictBool | .dictAny => [.dict]
  | _ => []

/-- The schema reads the value as the whitelist takes it: it rejects what is not of the whitelisted type,
and does not change or reject what is. -/
def ReadAlike (r : Readers) : FieldType → Json → Prop
  | .str, v => ∀ s, v = .str s → p.takesText s = true
  | .optStr, v => v ≠ .null ∧ ∀ s, v = .str s → p.takesText s = true
  | .optInt, v => r.convert .int v = none
  | .bool, v | .optBool, v => r.convert .bool v = none
  | .float, v | .optFloat, v => r.convert .float v = none
  | .listStr, v => ∀ xs, v = .arr xs → ∀ x ∈ xs, ∃ s, x = .str s ∧ p.takesText s = true
  | .dictBool, v => ∀ d, v = .obj d → ∀ e ∈ d, p.takesText e.1 = true ∧ e.2.isBool = true
  | .dictAny, v => ∀ d, v = .obj d → ∀ e ∈ d, p.takesText e.1 = true
  | _, _ => False

end Edits

/-! ### Values -/

section Values

variable {p : Pydantic} {r : Readers}

theorem takesText_iff {s : PyStr} : p.takesText s = true ↔ p.coerce .str (.str s) = some (.str s) := by
  rw [Pydantic.takesText, Option.isSome_iff_exists]
  constructor
  · rintro ⟨w, hw⟩
    rw [hw, p.str_exact _ _ hw]
  · exact fun h ↦ ⟨_, h⟩

/-- Only a text is taken for one. -/
theorem coerce_str_self_iff {v : Json} :
    p.coerce .str v = some v ↔ ∃ s, v = .str s ∧ p.takesText s = true := by
  constructor
  · intro h
    have htype := p.sound _ _ _ h
    cases v with
    | str s => exact ⟨s, rfl, takesText_iff.2 h⟩
    | _ => cases htype
  · rintro ⟨s, rfl, h⟩
    exact takesText_iff.1 h

theorem coerce_str_eq_none {v : Json} (hv : v.isStr = false) : p.coerce .str v = none := by
  rw [Option.eq_none_iff_forall_ne_some]
  intro w hw
  have htype : w.isStr = true := p.sound _ _ _ hw
  rw [p.str_exact _ _ hw, hv] at htype
  cases htype

theorem coerce_bool_self_iff {v : Json} : p.coerce .bool v = some v ↔ v.isBool = true := by
  refine ⟨p.sound _ _ _, fun h ↦ p.accepts _ _ h ?_⟩
  cases v with
  | bool b => rfl
  | _ => cases h

/-- A text is read as it is, if it is read. -/
theorem reads_str (v : Json) :
    p.coerce .str v = (if v.isStr then some v else none) ↔ ∀ s, v = .str s → p.takesText s = true := by
  cases hv : v.isStr with
  | true =>
    cases v with
    | str s => simp [takesText_iff]
    | _ => cases hv
  | false =>
    refine iff_of_true (coerce_str_eq_none hv) ?_
    rintro s rfl
    cases hv

/-- A value of the type is read as it is, and any other one if it is not converted. -/
theorem reads_scalar {t : FieldType} (hself : ∀ v, t.hasType v = true → v.encodable = true ∧ r.convert t v = none)
    (hconvert : ∀ v, t.hasType v = false → p.coerce t v = r.convert t v) (v : Json) :
    p.coerce t v = (if t.hasType v then some v else none) ↔ r.convert t v = none := by
  cases hv : t.hasType v with
  | true => exact iff_of_true (p.accepts t v hv (hself v hv).1) (hself v hv).2
  | false =>
    rw [hconvert v hv]
    exact Iff.rfl

theorem reads_bool (h : p.Lax r) (v : Json) :
    p.coerce .bool v = (if v.isBool then some v else none) ↔ r.convert .bool v = none := by
  refine reads_scalar (t := .bool) (fun v hv ↦ ?_) h.bool v
  cases v with
  | bool b => exact ⟨rfl, rfl⟩
  | _ => cases hv

theorem reads_float (h : p.Lax r) (v : Json) :
    p.coerce .float v = (if v.isFloat then some v else none) ↔ r.convert .float v = none := by
  refine reads_scalar (t := .float) (fun v hv ↦ ?_) h.float v
  cases v with
  | float x => exact ⟨rfl, rfl⟩
  | _ => cases hv

/-- A truth value is an `int` to `isinstance`, but is stored as a number by the schema. -/
theorem reads_int (h : p.Lax r) (v : Json) :
    p.coerce .int v = (if v.isInt || v.isBool then some v else none) ↔ r.convert .int v = none := by
  cases v with
  | bool b =>
    rw [h.int (.bool b) rfl]
    simp [Readers.convert, isInt, isBool]
  | int n => exact iff_of_true (p.accepts .int (.int n) rfl rfl) rfl
  | null | float | str | arr | obj =>
    rw [h.int _ rfl]
    exact Iff.rfl

/-- `None` is read as it is, if the attribute is optional, and anything else as for the type beneath. -/
theorem reads_optional (h : p.Lax r) {t : FieldType} (hnull : t.hasType .null = true) {f : Json → Bool}
    {P : Json → Prop} (hP : P .null)
    (hbase : ∀ v, p.coerce t.base v = (if f v then some v else none) ↔ P v) (v : Json) :
    p.coerce t v = (if f v || decide (v = .null) then some v else none) ↔ P v := by
  by_cases hv : v = .null
  · subst hv
    refine iff_of_true ?_ hP
    rw [decide_eq_true rfl, Bool.or_true, if_pos rfl]
    exact p.accepts t .null hnull rfl
  · rw [h.optional t v hv, decide_eq_false hv, Bool.or_false]
    exact hbase v

/-- **The values on which whitelist and schema agree**, by the type of the attribute. -/
theorem reads_iff (h : p.Lax r) {t : FieldType} (ht : whitelisted t ≠ []) (v : Json) :
    p.coerce t v = (if (whitelisted t).any (isInstance v) then some v else none) ↔ ReadAlike p r t v := by
  cases t with
  | str => simpa [whitelisted, isInstance, ReadAlike] using reads_str v
  | optStr =>
    -- the whitelist does not allow null for a text that may be null
    by_cases hv : v = .null
    · subst hv
      have hnull : p.coerce .optStr .null = some .null := p.accepts .optStr .null rfl rfl
      simp [whitelisted, isInstance, ReadAlike, hnull, isStr]
    · rw [h.optional .optStr v hv, FieldType.base]
      simpa [whitelisted, isInstance, ReadAlike, hv] using reads_str v
  | optInt =>
    have hreads := reads_optional h (t := .optInt) (P := fun v ↦ r.convert .int v = none) rfl rfl (reads_int h) v
    simpa [whitelisted, isInstance, ReadAlike] using hreads
  | bool => simpa [whitelisted, isInstance, ReadAlike] using reads_bool h v
  | optBool =>
    have hreads := reads_optional h (t := .optBool) (P := fun v ↦ r.convert .bool v = none) rfl rfl (reads_bool h) v
    simpa [whitelisted, isInstance, ReadAlike] using hreads
  | float => simpa [whitelisted, isInstance, ReadAlike] using reads_float h v
  | optFloat =>
    have hreads := reads_optional h (t := .optFloat) (P := fun v ↦ r.convert .float v = none) rfl rfl (reads_float h) v
    simpa [whitelisted, isInstance, ReadAlike] using hreads
  | listStr =>
    rw [h.listStr]
    cases v with
    | arr xs =>
      simp [whitelisted, isInstance, ReadAlike, coerceArray, validateItems_eq_self_iff, coerce_str_self_iff]
    | _ => simp [whitelisted, isInstance, ReadAlike, coerceArray]
  | dictBool =>
    rw [h.dictBool]
    cases v with
    | obj d =>
      simp [whitelisted, isInstance, ReadAlike, coerceObject, coerceEntries_eq_self_iff, coerce_bool_self_iff]
    | _ => simp [whitelisted, isInstance, ReadAlike, coerceObject]
  | dictAny =>
    rw [h.dictAny]
    cases v with
    | obj d => simp [whitelisted, isInstance, ReadAlike, coerceObject, coerceEntries_eq_self_iff]
    | _ => simp [whitelisted, isInstance, ReadAlike, coerceObject]
  -- no settable field has one of these types
  | int | intIn | listInt | dictStr => exact absurd rfl ht

end Values

/-! ### Settable attributes -/

/-- Every settable attribute of a model is one of the schema, and the whitelist has the types that go with
its type. -/
theorem modelSettable_declared : ∀ e ∈ modelSettable, ∃ spec ∈ modelClass.specs,
    spec.name = e.1 ∧ whitelisted spec.type = e.2 ∧ whitelisted spec.type ≠ [] ∧
      e.1 ≠ py "time_routing" ∧ (e.1 = py "modality" → spec.type = .str) := by
  decide +kernel

theorem backendSettable_declared : ∀ e ∈ backendSettable, ∃ spec ∈ backendClass.specs,
    spec.name = e.1 ∧ whitelisted spec.type = e.2 ∧ whitelisted spec.type ≠ [] := by
  decide +kernel

section Handlers

variable {p : Pydantic} {r : Readers}

/-- `update_model` with one settable field. -/
theorem updateModel_single {e : PyStr × List PyType} (he : e ∈ modelSettable) (hne : e.1 ≠ py "time_routing")
    (m : ModelConfig) (v : Json) :
    updateModel p (.obj [(e.1, v)]) m =
      if e.2.any (isInstance v) then ({ m with fields := setKey m.fields e.1 v }, .save)
      else (m, .reject 422 (typeMessage e.1 e.2)) := by
  have hrest : [(e.1, v)].filter (·.1 ≠ py "time_routing") = [(e.1, v)] := by simp [hne]
  unfold updateModel
  dsimp only
  rw [get?_single, if_neg hne.symm, hrest, applyFields_single modelSettable_nodup he]
  split_ifs <;> rfl

/-- `update_backend` with one settable field. -/
theorem updateBackend_single {e : PyStr × List PyType} (he : e ∈ backendSettable) {m : ModelConfig}
    {index : ℤ} {b : BackendConfig} (hb : backendAt m index = some b) (v : Json) :
    updateBackend index (.obj [(e.1, v)]) m =
      if e.2.any (isInstance v) then
        ({ m with backends := m.backends.set index.toNat { b with fields := setKey b.fields e.1 v } }, .save)
      else ({ m with backends := m.backends.set index.toNat b }, .reject 422 (typeMessage e.1 e.2)) := by
  unfold updateBackend
  rw [hb]
  dsimp only
  rw [applyFields_single backendSettable_nodup he]
  split_ifs <;> rfl

/-- What the schema reads for one field of a model. -/
theorem validateField_normalized (spec : FieldSpec) (v : Json) :
    validateField p (normalizeModality [(spec.name, v)]) spec =
      p.coerce spec.type
        (if spec.name = py "modality" ∧ v = .str (py "text+vision") then .str (py "multimodal") else v) := by
  unfold normalizeModality
  rw [get?_single]
  by_cases hlegacy : spec.name = py "modality" ∧ v = .str (py "text+vision")
  · obtain ⟨hname, rfl⟩ := hlegacy
    rw [if_pos hname.symm, if_pos rfl, if_pos ⟨hname, rfl⟩, validateField, get?_setKey, if_pos hname]
  · rw [if_neg hlegacy, if_neg, validateField, get?_cons_self]
    intro h
    split_ifs at h with hname
    exact hlegacy ⟨hname.symm, Option.some.inj h⟩

/-- **Edits of one field of a model.** -/
theorem modelEditAgrees_iff (h : p.Lax r) {e : PyStr × List PyType} (he : e ∈ modelSettable)
    {spec : FieldSpec} (hname : spec.name = e.1) (htypes : whitelisted spec.type = e.2)
    (hsome : whitelisted spec.type ≠ []) (hne : e.1 ≠ py "time_routing")
    (hmodality : e.1 = py "modality" → spec.type = .str) (m : ModelConfig) (v : Json) :
    m.EditAgrees p spec v ↔
      ReadAlike p r spec.type v ∧ ¬ (spec.name = py "modality" ∧ v = .str (py "text+vision")) := by
  have hreads := reads_iff h hsome v
  have hupdate := updateModel_single (p := p) he hne m v
  unfold ModelConfig.EditAgrees
  rw [validateField_normalized, hname, hupdate]
  rw [htypes] at hreads
  by_cases hlegacy : e.1 = py "modality" ∧ v = .str (py "text+vision")
  · -- the handler stores the old label, and the schema never does
    refine iff_of_false ?_ fun hboth ↦ hboth.2 hlegacy
    have hstr : spec.type = .str := hmodality hlegacy.1
    have haccepted : e.2.any (isInstance v) = true := by
      rw [← htypes, hstr, hlegacy.2]
      rfl
    rw [if_pos hlegacy, if_pos haccepted]
    dsimp only
    rw [get?_setKey, if_pos rfl, editAgrees_save_iff, hstr, hlegacy.2]
    intro hread
    exact absurd (p.str_exact _ _ hread) (by decide +kernel)
  · rw [if_neg hlegacy, and_iff_left hlegacy, ← hreads]
    by_cases haccepted : e.2.any (isInstance v) = true
    · rw [if_pos haccepted, if_pos haccepted]
      dsimp only
      rw [get?_setKey, if_pos rfl, editAgrees_save_iff]
    · rw [if_neg haccepted, if_neg haccepted]
      exact editAgrees_reject_iff

/-- A backend that is replaced is found in its place. -/
theorem backendAt_set {m : ModelConfig} {index : ℤ} {b : BackendConfig} (hb : backendAt m index = some b)
    (b' : BackendConfig) : backendAt { m with backends := m.backends.set index.toNat b' } index = some b' := by
  unfold backendAt at hb ⊢
  split_ifs at hb ⊢
  obtain ⟨hlt, -⟩ := List.getElem?_eq_some_iff.1 hb
  exact List.getElem?_set_self hlt

/-- **Edits of one field of a backend.** -/
theorem backendEditAgrees_iff (h : p.Lax r) {e : PyStr × List PyType} (he : e ∈ backendSettable)
    {spec : FieldSpec} (hname : spec.name = e.1) (htypes : whitelisted spec.type = e.2)
    (hsome : whitelisted spec.type ≠ []) {m : ModelConfig} {index : ℤ} {b : BackendConfig}
    (hb : backendAt m index = some b) (v : Json) :
    m.BackendEditAgrees p index spec v ↔ ReadAlike p r spec.type v := by
  have hreads := reads_iff h hsome v
  unfold ModelConfig.BackendEditAgrees
  rw [validateField, get?_cons_self, hname, updateBackend_single he hb, ← hreads, htypes]
  by_cases haccepted : e.2.any (isInstance v) = true
  · rw [if_pos haccepted, if_pos haccepted]
    dsimp only
    rw [backendAt_set hb, Option.bind_some, get?_setKey, if_pos rfl, editAgrees_save_iff]
  · rw [if_neg haccepted, if_neg haccepted]
    exact editAgrees_reject_iff

end Handlers

/-- **Field edits and the schema.** For every settable attribute, the handler agrees with the schema on
exactly the values that the schema reads as the whitelist takes them, and on no old label of a modality. -/
theorem fieldEdits_agree_iff {p : Pydantic} {r : Readers} (h : p.Lax r) :
    (∀ e ∈ modelSettable, ∃ spec ∈ modelClass.specs, spec.name = e.1 ∧
      ∀ (m : ModelConfig) (v : Json), m.EditAgrees p spec v ↔
        ReadAlike p r spec.type v ∧ ¬ (spec.name = py "modality" ∧ v = .str (py "text+vision"))) ∧
    ∀ e ∈ backendSettable, ∃ spec ∈ backendClass.specs, spec.name = e.1 ∧
      ∀ (m : ModelConfig) (index : ℤ) (v : Json), (backendAt m index).isSome = true →
        (m.BackendEditAgrees p index spec v ↔ ReadAlike p r spec.type v) := by
  constructor
  · intro e he
    obtain ⟨spec, hspec, hname, htypes, hsome, hne, hmodality⟩ := modelSettable_declared e he
    exact ⟨spec, hspec, hname, modelEditAgrees_iff h he hname htypes hsome hne hmodality⟩
  · intro e he
    obtain ⟨spec, hspec, hname, htypes, hsome⟩ := backendSettable_declared e he
    refine ⟨spec, hspec, hname, fun m index v hindex ↦ ?_⟩
    obtain ⟨b, hb⟩ := Option.isSome_iff_exists.1 hindex
    exact backendEditAgrees_iff h he hname htypes hsome hb v

/-! ### Single edits -/

/-- A library that reads no texts as numbers. -/
def plainReaders : Readers where
  whole
    | .fin q => if q.den = 1 then some q.num else none
    | .negZero => some 0
    | _ => none
  integer _ := none
  number _ := none
  truth _ := none
  real n := some (.fin n)

/-- A model with one backend. -/
def editedModel : ModelConfig :=
  ⟨py "m", [⟨1, (py "provider", .str (py "a")) :: (py "model", .str (py "x")) :: defaultFields backendClass.specs⟩],
    .empty, defaultFields modelClass.specs⟩

example : (updateModel (.lax plainReaders) (.obj [(py "tags", .arr [.str (py "fast")])]) editedModel).2 = .save := by
  decide +kernel

/-- A list of texts is stored as the schema stores it. -/
theorem editAgrees_tags : ∃ spec ∈ modelClass.specs, spec.name = py "tags" ∧
    editedModel.EditAgrees (.lax plainReaders) spec (.arr [.str (py "fast")]) := by
  obtain ⟨spec, hspec, hname, hagrees⟩ :=
    (fieldEdits_agree_iff (Pydantic.lax_lax plainReaders)).1 (py "tags", [.list]) (by decide +kernel)
  have htype : ∀ spec ∈ modelClass.specs, spec.name = py "tags" → spec.type = .listStr := by decide +kernel
  refine ⟨spec, hspec, hname, (hagrees _ _).2 ⟨?_, ?_⟩⟩
  · rw [htype spec hspec hname]
    rintro xs hxs x hx
    obtain rfl := Json.arr.inj hxs
    obtain rfl := List.mem_singleton.1 hx
    exact ⟨_, rfl, by decide +kernel⟩
  · rw [hname]
    decide +kernel

/-- A number among the tags is accepted and stored, although the schema rejects it, and a whole number as a
weight is rejected, although the schema takes it for a float. -/
theorem not_editAgrees_tags_weight :
    ¬ editedModel.EditAgrees (.lax plainReaders) ⟨py "tags", .listStr, some (.arr [])⟩ (.arr [.int 1]) ∧
      ¬ editedModel.BackendEditAgrees (.lax plainReaders) 0 ⟨py "weight", .float, some (.float (.fin 1))⟩ (.int 2) := by
  constructor
  · intro h
    exact absurd (h.accepted.1 (by decide +kernel)) (by decide +kernel)
  · intro h
    exact absurd (h.accepted.2 (by decide +kernel)) (by decide +kernel)

end LocalGateway
