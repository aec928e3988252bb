import LocalGateway.Foundations.Keyed
import LocalGateway.Foundations.Runs
import LocalGateway.Routing.Guarantees

/-!
# The time slots of a model

A time slot is found by its id. An id comes with the request, or is made of the name and the hours of the
slot; nothing asks whether there is such a slot already. Deleting removes every slot of an id, updating
replaces the first one.

* `SlotRequest`: the requests that edit the slots of one model; `SlotRequest.Identifies`: what they may rely on.
* `identifies_iff_fresh`: the step; an id stays the id of one slot exactly if the request brings a new one.
* `timeSlots_identified_iff`: the same of a run.
-/

namespace LocalGateway

open Py Json

/-- The ids of the time slots of a model. -/
def ModelConfig.slotIds (m : ModelConfig) : List PyStr :=
  m.timeRouting.slots.map TimeSlot.id

@[simp] theorem slots_setSlots (m : ModelConfig) (slots : List TimeSlot) :
    (m.setSlots slots).timeRouting.slots = slots := rfl

@[simp] theorem slotIds_setSlots (m : ModelConfig) (slots : List TimeSlot) :
    (m.setSlots slots).slotIds = slots.map TimeSlot.id := rfl

/-! ### Requests -/

/-- A request that edits the time slots of a model. -/
inductive SlotRequest where
  | create (body : Json)
  | update (slot : PyStr) (body : Json)
  | delete (slot : PyStr)

namespace SlotRequest

variable (p : Pydantic)

/-- The handler of a request. -/
def handle (m : ModelConfig) : SlotRequest → ModelConfig × Verdict
  | create body => createTimeSlot p body m
  | update slot body => updateTimeSlot p slot body m
  | delete slot => deleteTimeSlot slot m

/-- The model after a request. -/
def next (m : ModelConfig) (r : SlotRequest) : ModelConfig :=
  (r.handle p m).1

/-- The slots of the model have one id each after the request; an update that succeeds has replaced one slot
of the id, and a delete that succeeds has removed one. -/
structure Identifies (m : ModelConfig) (r : SlotRequest) : Prop where
  distinct : (next p m r).slotIds.Nodup
  updates : ∀ slot body, r = update slot body → (r.handle p m).2 = .save →
    ∃ i t u, m.timeRouting.slots[i]? = some t ∧ t.id = slot ∧
      (next p m r).timeRouting.slots = m.timeRouting.slots.set i u
  deletes : ∀ slot, r = delete slot → (r.handle p m).2 = .save →
    ∃ i t, m.timeRouting.slots[i]? = some t ∧ t.id = slot ∧
      (next p m r).timeRouting.slots = m.timeRouting.slots.eraseIdx i

/-- The request brings no id that another slot of the model has. -/
def Fresh (m : ModelConfig) : SlotRequest → Prop
  | create body => ∀ t, validateTimeSlot p body = some t →
    (if t.id = [] then slotId t else t.id) ∉ m.slotIds
  | update slot body => slot ∈ m.slotIds → ∀ t, validateTimeSlot p body = some t →
    t.id ≠ [] → t.id ≠ slot → t.id ∉ m.slotIds
  | delete _ => True

end SlotRequest

/-! ### Steps -/

section Steps

variable {p : Pydantic} {m : ModelConfig} {body : Json} {slot : PyStr}

/-- `create_time_slot` appends a slot, if the body is one. -/
theorem createTimeSlot_cases (p : Pydantic) (body : Json) (m : ModelConfig) :
    (∃ t, validateTimeSlot p body = some t ∧ createTimeSlot p body m =
        (m.setSlots (m.timeRouting.slots ++ [if t.id = [] then { t with id := slotId t } else t]), .save)) ∨
      validateTimeSlot p body = none ∧ ∃ v, createTimeSlot p body m = (m, v) ∧ v ≠ .save := by
  unfold createTimeSlot
  rcases hvalid : validateTimeSlot p body with - | t
  · exact .inr ⟨rfl, _, rfl, nofun⟩
  · exact .inl ⟨t, rfl, rfl⟩

/-- `delete_time_slot` keeps the slots of other ids. -/
theorem deleteTimeSlot_slots :
    (deleteTimeSlot slot m).1.timeRouting.slots = m.timeRouting.slots.filter (·.id ≠ slot) := by
  unfold deleteTimeSlot
  simp only
  split_ifs with hlength
  · exact (List.filter_eq_self.2 (List.length_filter_eq_length_iff.1 hlength)).symm
  · rfl

/-- `update_time_slot` puts a slot in the place of the first one with the id, if the body is one. -/
theorem updateTimeSlot_cases (p : Pydantic) (slot : PyStr) (body : Json) (m : ModelConfig) :
    (∃ i t u, m.timeRouting.slots[i]? = some t ∧ t.id = slot ∧ validateTimeSlot p body = some u ∧
      updateTimeSlot p slot body m =
        (m.setSlots (m.timeRouting.slots.set i (if u.id = [] then { u with id := slot } else u)), .save)) ∨
    (slot ∉ m.slotIds ∨ validateTimeSlot p body = none) ∧
      ∃ v, updateTimeSlot p slot body m = (m, v) ∧ v ≠ .save := by
  unfold updateTimeSlot
  split
  · next hnone =>
    refine .inr ⟨.inl fun hmem ↦ ?_, _, rfl, nofun⟩
    obtain ⟨t, ht, rfl⟩ := List.mem_map.1 hmem
    simpa using List.findIdx?_eq_none_iff.1 hnone t ht
  · next i hsome =>
    obtain ⟨hlt, hid, -⟩ := List.findIdx?_eq_some_iff_getElem.1 hsome
    split
    · next hinvalid => exact .inr ⟨.inr hinvalid, _, rfl, nofun⟩
    · next u hvalid => exact .inl ⟨i, _, u, List.getElem?_eq_getElem hlt, of_decide_eq_true hid, hvalid, rfl⟩

namespace SlotRequest

theorem identifies_create_iff (h : m.slotIds.Nodup) :
    (create body).Identifies p m ↔ (create body).Fresh p m := by
  show _ ↔ ∀ t, _
  rcases createTimeSlot_cases p body m with ⟨t, hvalid, heq⟩ | ⟨hvalid, v, heq, -⟩
  · have hnodup := Keyed.nodup_concat_iff (a := if t.id = [] then { t with id := slotId t } else t) h
    have hid : (if t.id = [] then { t with id := slotId t } else t).id = if t.id = [] then slotId t else t.id :=
      apply_ite TimeSlot.id ..
    have hnext : (next p m (create body)).slotIds =
        (m.timeRouting.slots ++ [if t.id = [] then { t with id := slotId t } else t]).map TimeSlot.id := by
      rw [next, handle, heq, slotIds_setSlots]
    rw [hid, ← hnext] at hnodup
    refine ⟨fun hident t' ht' ↦ ?_, fun hfresh ↦ ⟨hnodup.2 (hfresh t hvalid), nofun, nofun⟩⟩
    obtain rfl := Option.some.inj (hvalid.symm.trans ht')
    exact hnodup.1 hident.distinct
  · refine iff_of_true ⟨?_, nofun, nofun⟩ fun t ht ↦ ?_
    · rwa [next, handle, heq]
    · rw [hvalid] at ht
      cases ht

theorem identifies_update_iff (h : m.slotIds.Nodup) :
    (update slot body).Identifies p m ↔ (update slot body).Fresh p m := by
  show _ ↔ (slot ∈ m.slotIds → ∀ t, _)
  rcases updateTimeSlot_cases p slot body m with ⟨i, t, u, hi, rfl, hvalid, heq⟩ | ⟨hnone, v, heq, hv⟩
  · have hnodup := Keyed.nodup_set_iff (b := if u.id = [] then { u with id := t.id } else u) h hi
    have hid : (if u.id = [] then { u with id := t.id } else u).id = if u.id = [] then t.id else u.id :=
      apply_ite TimeSlot.id ..
    have hnext : (next p m (update t.id body)).timeRouting.slots =
        m.timeRouting.slots.set i (if u.id = [] then { u with id := t.id } else u) := by
      rw [next, handle, heq, slots_setSlots]
    rw [hid, ← hnext] at hnodup
    have hmem : t.id ∈ m.slotIds := List.mem_map_of_mem (List.mem_of_getElem? hi)
    constructor
    · rintro hident - u' hu' hne hother
      obtain rfl := Option.some.inj (hvalid.symm.trans hu')
      have hkept := hnodup.1 hident.distinct
      rw [if_neg hne] at hkept
      exact hkept.resolve_left hother
    · -- an update without an id keeps that of the path
      refine fun hfresh ↦ ⟨hnodup.2 ?_, ?_, nofun⟩
      · by_cases hne : u.id = []
        · exact .inl (if_pos hne)
        · rw [if_neg hne]
          exact or_iff_not_imp_left.2 (hfresh hmem u hvalid hne)
      · rintro slot body' heq' -
        obtain ⟨rfl, -⟩ := SlotRequest.update.inj heq'
        exact ⟨i, t, _, hi, rfl, hnext⟩
  · -- no slot is found, or the body is no slot: nothing changes
    refine iff_of_true ⟨?_, ?_, nofun⟩ fun hmem t ht ↦ ?_
    · rwa [next, handle, heq]
    · rintro slot' body' - hsave
      rw [handle, heq] at hsave
      exact absurd hsave hv
    · rw [hnone.resolve_left (not_not.2 hmem)] at ht
      cases ht

/-- Deleting never goes wrong while each id is that of one slot. -/
theorem identifies_delete (h : m.slotIds.Nodup) : (delete slot).Identifies p m := by
  refine ⟨?_, nofun, ?_⟩
  · rw [next, handle, ModelConfig.slotIds, deleteTimeSlot_slots]
    exact h.sublist (List.filter_sublist.map TimeSlot.id)
  · rintro slot' heq hsave
    obtain rfl := SlotRequest.delete.inj heq
    obtain ⟨t, ht, rfl⟩ : ∃ t ∈ m.timeRouting.slots, t.id = slot := by
      by_contra hnone
      simp only [not_exists, not_and] at hnone
      have hkept : m.timeRouting.slots.filter (·.id ≠ slot) = m.timeRouting.slots :=
        List.filter_eq_self.2 fun t ht ↦ decide_eq_true (hnone t ht)
      rw [handle, deleteTimeSlot, if_pos (congrArg List.length hkept)] at hsave
      cases hsave
    obtain ⟨i, hi⟩ := List.mem_iff_getElem?.1 ht
    refine ⟨i, t, hi, rfl, ?_⟩
    rw [next, handle, deleteTimeSlot_slots]
    exact Keyed.filter_ne_eq_eraseIdx h hi

/-- **One step.** From slots with one id each, a request may rely on them exactly if it brings no id that another
slot has. -/
theorem identifies_iff_fresh {r : SlotRequest} (h : m.slotIds.Nodup) : r.Identifies p m ↔ r.Fresh p m :=
  match r with
  | create _ => identifies_create_iff h
  | update _ _ => identifies_update_iff h
  | delete _ => iff_of_true (identifies_delete h) trivial

/-- **When time slots keep their ids apart.** On a model that starts with no slots, every request of a run
may rely on the ids exactly if every one brings no id that another slot has. -/
theorem timeSlots_identified_iff (hstart : m.timeRouting.slots = []) {requests : List SlotRequest} :
    Runs.Every (next p) (fun _ m r ↦ r.Identifies p m) m requests ↔
      Runs.Every (next p) (fun _ m r ↦ r.Fresh p m) m requests := by
  refine Runs.every_iff_of_invariant (fun m ↦ m.slotIds.Nodup) (A := fun _ _ ↦ True)
    (fun m r h _ ↦ identifies_iff_fresh h) (fun m r h _ hfresh ↦ ((identifies_iff_fresh h).2 hfresh).distinct) ?_
    fun _ _ _ _ ↦ trivial
  rw [ModelConfig.slotIds, hstart]
  exact List.nodup_nil

end SlotRequest

end Steps

/-- A time slot of these hours. -/
def slotBody (name : String) (first last : ℤ) : Json :=
  .obj [(py "name", .str (py name)), (py "start_hour", .int first), (py "end_hour", .int last)]

/-- A model without time slots. -/
def plainModel : ModelConfig :=
  ⟨py "m", [], .empty, defaultFields modelClass.specs⟩

namespace SlotRequest

/-- Two slots of different hours, one of which is moved and then deleted. -/
theorem timeSlots_identified_sample :
    Runs.Every (next .strict) (fun _ m r ↦ r.Identifies .strict m) plainModel
      [create (slotBody "Peak" 9 17), create (slotBody "Peak" 18 20),
        update (py "peak-9-17") (slotBody "Peak" 8 16), delete (py "peak-9-17")] := by
  refine (timeSlots_identified_iff rfl).2 ?_
  simp only [Runs.every_cons_iff]
  refine ⟨fun t ht ↦ ?_, fun t ht ↦ ?_, fun _ t ht hne _ ↦ ?_, trivial, Runs.every_nil _ _⟩
  · exact List.not_mem_nil
  · obtain rfl := Option.some.inj ht
    decide +kernel
  · obtain rfl := Option.some.inj ht
    exact absurd rfl hne

/-- **Two slots of one id.** Their name and hours are the same, and so is the id made of them; deleting it deletes
both. -/
theorem not_identified_twice :
    ¬ Runs.Every (next .strict) (fun _ m r ↦ r.Identifies .strict m) plainModel
      [create (slotBody "Peak" 9 17), create (slotBody "Peak" 9 17)] := by
  intro h
  have hdistinct := (h [create (slotBody "Peak" 9 17)] (create (slotBody "Peak" 9 17)) [] rfl).distinct
  revert hdistinct
  decide +kernel

end SlotRequest

end LocalGateway
