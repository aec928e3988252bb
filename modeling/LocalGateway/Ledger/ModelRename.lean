import LocalGateway.Ledger.Usage

/-!
# Renaming a model

`rename_entity` for a model changes its id and relabels the rows that bear the id the request names
it by. Two things refer to a model besides: the allowlists of the client keys, which name models by
id or alias, and the rows, which name them by id.
-/

namespace LocalGateway

open Py Json

/-! ### What refers to a model -/

/-- `_check_model_allowlist` lets the key request the name. -/
def allows (c : GatewayConfig) (k : ApiKeyConfig) (requested : PyStr) : Bool :=
  let allowed := attrList k.attrs.fields (py "model_allowlist")
  let logical := ((c.modelById requested).map ModelConfig.id).getD requested
  allowed.isEmpty || allowed.contains (.str logical) || allowed.contains (.str requested)

/-- The key can use the model, under some name of it. -/
def CanUse (c : GatewayConfig) (k : ApiKeyConfig) (m : ModelConfig) : Prop :=
  ∃ name, c.modelById name = some m ∧ allows c k name = true

/-- The body of a request to rename. -/
def renameRequest (type old new : PyStr) : Json :=
  .obj [(py "type", .str type), (py "old_id", .str old), (py "new_id", .str new)]

/-- The configuration and the rows after a model is renamed, if the request is accepted. -/
def renameModel (c : GatewayConfig) (rows : List UsageRow) (old new : PyStr) :
    Option (GatewayConfig × List UsageRow) :=
  match renameEntity c (renameRequest (py "model") old new) with
  | ⟨c', .save⟩ => some (c', renameModelRows (strip old) (strip new) rows)
  | _ => none

/-- The rename keeps authorization and attribution: a key may use the model under its new id if it
could use it before, and the rows of the model, and no others, bear the new id. -/
structure KeepsModel (c : GatewayConfig) (rows : List UsageRow) (m : ModelConfig) (new : PyStr)
    (c' : GatewayConfig) (rows' : List UsageRow) : Prop where
  access : ∀ k ∈ c.server.apiKeys, allows c' k new = true ↔ CanUse c k m
  attribution : rows' = renameModelRows m.id new rows

/-! ### What a rename does -/

theorem find?_eq_bind_findIdx? {α : Type} (xs : List α) (p : α → Bool) :
    xs.find? p = (xs.findIdx? p).bind (xs[·]?) := by
  induction xs with
  | nil => rfl
  | cons x xs ih =>
    rw [List.find?_cons, List.findIdx?_cons]
    rcases p x with - | -
    · rw [ih, if_neg Bool.false_ne_true]
      rcases xs.findIdx? p with - | i <;> rfl
    · rfl

/-- An element of a list that alone has a property after it is changed. -/
theorem find?_modify {α : Type} {p : α → Bool} {f : α → α} {xs : List α} {i : ℕ} {x : α}
    (hx : xs[i]? = some x) (hp : p (f x) = true) (hall : ∀ y ∈ xs, p y = false) :
    (xs.modify i f).find? p = some (f x) := by
  induction xs generalizing i with
  | nil => simp at hx
  | cons y xs ih =>
    cases i with
    | zero =>
      obtain rfl : y = x := by simpa using hx
      rw [List.modify_zero_cons, List.find?_cons, hp]
    | succ i =>
      rw [List.modify_succ_cons, List.find?_cons, hall y List.mem_cons_self]
      exact ih (by simpa using hx) fun z hz ↦ hall z (List.mem_cons_of_mem _ hz)

section Rename

variable {c c' : GatewayConfig} {rows rows' : List UsageRow} {m : ModelConfig} {id old new : PyStr}

theorem modelById_eq_bind (c : GatewayConfig) (id : PyStr) :
    c.modelById id = (c.modelIndex id).bind (c.models[·]?) := by
  unfold GatewayConfig.modelById GatewayConfig.modelIndex
  rw [find?_eq_bind_findIdx?, find?_eq_bind_findIdx?]
  rcases h : c.models.findIdx? (·.id = id) with - | i <;> rw [h]
  · rfl
  · obtain ⟨hi, -⟩ := List.findIdx?_eq_some_iff_getElem.1 h
    rw [Option.bind_some, List.getElem?_eq_getElem hi]
    exact (List.getElem?_eq_getElem hi).symm

theorem exists_of_modelIndex {i : ℕ} (h : c.modelIndex id = some i) : ∃ m, c.models[i]? = some m := by
  have hlt : i < c.models.length := by
    rcases Option.or_eq_some_iff.1 h with h | ⟨-, h⟩
    · exact (List.findIdx?_eq_some_iff_getElem.1 h).1
    · exact (List.findIdx?_eq_some_iff_getElem.1 h).1
  exact ⟨_, List.getElem?_eq_getElem hlt⟩

theorem modelById_eq_none_iff :
    c.modelById id = none ↔ ∀ m ∈ c.models, m.id ≠ id ∧ m.hasAlias id = false := by
  unfold GatewayConfig.modelById
  simp [List.find?_eq_none, forall_and]

/-- What a rename that is accepted does. -/
theorem renameModel_eq_some (h : renameModel c rows old new = some (c', rows')) :
    ∃ i m, c.modelIndex (strip old) = some i ∧ c.models[i]? = some m ∧
      c.modelById (strip new) = none ∧ strip old ≠ strip new ∧
      c' = { c with models := c.models.modify i fun m ↦ { m with id := strip new } } ∧
      rows' = renameModelRows (strip old) (strip new) rows := by
  have htype : get? [(py "type", .str (py "model")), (py "old_id", .str old), (py "new_id", .str new)]
      (py "type") = some (.str (py "model")) := rfl
  have hold : strippedText (get? [(py "type", .str (py "model")), (py "old_id", .str old),
      (py "new_id", .str new)] (py "old_id")) = some (strip old) := rfl
  have hnew : strippedText (get? [(py "type", .str (py "model")), (py "old_id", .str old),
      (py "new_id", .str new)] (py "new_id")) = some (strip new) := rfl
  unfold renameModel renameEntity renameRequest at h
  simp only [htype, hold, hnew, ne_eq, not_true_eq_false, false_and, if_false, if_true] at h
  by_cases hempty : strip old = [] ∨ strip new = []
  · rw [if_pos hempty] at h
    cases h
  by_cases hsame : strip old = strip new
  · rw [if_neg hempty, if_pos hsame] at h
    cases h
  rw [if_neg hempty, if_neg hsame] at h
  rcases hindex : c.modelIndex (strip old) with - | i <;> rw [hindex] at h
  · cases h
  rcases htaken : c.modelIndex (strip new) with - | j
  · obtain ⟨m, hm⟩ := exists_of_modelIndex hindex
    rw [htaken] at h
    obtain ⟨rfl, rfl⟩ := Prod.mk.inj (Option.some.inj h)
    exact ⟨i, m, rfl, hm, by rw [modelById_eq_bind, htaken]; rfl, hsame, rfl, rfl⟩
  · rw [htaken] at h
    cases h

/-- Under its new id, the model is found. -/
theorem modelById_renamed {i : ℕ} (hm : c.models[i]? = some m) (hnew : c.modelById new = none) :
    GatewayConfig.modelById
      { c with models := c.models.modify i fun m ↦ { m with id := new } } new =
      some { m with id := new } := by
  have hfind := find?_modify (p := fun m : ModelConfig ↦ decide (m.id = new))
    (f := fun m ↦ { m with id := new }) hm (decide_eq_true rfl)
    fun y hy ↦ decide_eq_false (modelById_eq_none_iff.1 hnew y hy).1
  unfold GatewayConfig.modelById
  rw [hfind]
  rfl

/-- The names a key may request a model by. -/
theorem canUse_iff {k : ApiKeyConfig} (hname : c.modelById id = some m) :
    CanUse c k m ↔
      attrList k.attrs.fields (py "model_allowlist") = [] ∨
        Json.str m.id ∈ attrList k.attrs.fields (py "model_allowlist") ∨
        ∃ name, c.modelById name = some m ∧
          Json.str name ∈ attrList k.attrs.fields (py "model_allowlist") := by
  unfold CanUse allows
  simp only
  constructor
  · rintro ⟨name, hfound, h⟩
    rw [hfound] at h
    simp only [Option.map_some, Option.getD_some, Bool.or_eq_true, List.isEmpty_iff,
      List.contains_iff_mem] at h
    rcases h with (h | h) | h
    · exact .inl h
    · exact .inr (.inl h)
    · exact .inr (.inr ⟨name, hfound, h⟩)
  · rintro (h | h | ⟨name, hfound, h⟩)
    · exact ⟨id, hname, by simp [h]⟩
    · exact ⟨id, hname, by simp [hname, h]⟩
    · exact ⟨name, hfound, by simp [h]⟩

end Rename

/-- A client key that may use one model. -/
def restrictedKey : ApiKeyConfig :=
  ⟨py "k", py "secret",
    apiKeyClass.build [(py "model_allowlist", .arr [.str (py "m")])] (by decide)⟩

/-- A model without backends. -/
def bareModel (id : PyStr) : ModelConfig :=
  ⟨id, [], .empty, defaultFields modelClass.specs⟩

/-- A gateway with one model. -/
def bareGateway (keys : List ApiKeyConfig) (id : PyStr) : GatewayConfig :=
  { GatewayConfig.empty with
    server := ⟨none, keys, serverClass.make serverClass_default⟩
    models := [bareModel id] }

end LocalGateway
