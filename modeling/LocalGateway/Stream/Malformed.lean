import LocalGateway.Foundations.Related
import LocalGateway.Ledger.Attempts

/-!
# Malformed replies

What an upstream sends with status 200 goes through five functions before a client sees it: the parser, the
accumulator, the extraction of the usage, the normalisation of reasoning fields and the shift of the usage.
Each checks some types at some depths. This file says on which JSON they raise. The parser and the
extraction never do: the first returns an event for every block of bytes, and the second catches what it
raises.

* `Measurable`: the text of the first delta has a length (`accumulate_ok_iff`).
* `Relayable`: an object that the normalisation can write again. The thinking blocks it reads are texts
  (`Legible`), and where a reasoning field is filled in (`Unfilled`) all strings can be encoded.
* `Shiftable`: an object whose counts can be added. The normalisation makes no difference to it
  (`shiftable_normalizeObj_iff`).
* `survives_iff`: the chain raises no exception exactly on bodies of which all that is true where it is
  needed.
-/

namespace LocalGateway

open Py Json

/-! ### Reasoning texts -/

/-- The parts of the thinking blocks of a field. -/
def thinkingParts : Option Json → List Json
  | some (.arr blocks) => blocks.filterMap thinkingPart
  | _ => []

/-- The field has no text. -/
def Textless : Option Json → Prop
  | some (.str s) => s = []
  | v => ∀ part ∈ thinkingParts v, part = .str []

/-- Up to the first of the fields that has a text, the parts of thinking blocks are texts. -/
def LegibleFrom (delta : PyDict) : List PyStr → Prop
  | [] => True
  | key :: keys =>
    (∀ part ∈ thinkingParts (get? delta key), ∃ s, part = .str s) ∧
      (Textless (get? delta key) → LegibleFrom delta keys)

/-- The reasoning fields of a delta can be read. -/
def Legible (delta : PyDict) : Prop :=
  LegibleFrom delta reasoningKeys

/-- The delta has a reasoning text, and not under both names. -/
def Unfilled (delta : PyDict) : Prop :=
  (∃ key ∈ reasoningKeys, ¬ Textless (get? delta key)) ∧
    ∃ target ∈ [py "reasoning_content", py "reasoning"], (get? delta target).any truthy = false

/-- The parts can be joined exactly if they are texts. -/
theorem joinParts_cases (parts : List Json) :
    (joinParts parts = none ∧ ¬ ∀ part ∈ parts, ∃ s, part = .str s) ∨
      ∃ t, joinParts parts = some t ∧ (∀ part ∈ parts, ∃ s, part = .str s) ∧
        (t = [] ↔ ∀ part ∈ parts, part = .str []) ∧
        ((∀ part ∈ parts, Encodable part) → ∀ c ∈ t, IsScalar c) := by
  induction parts with
  | nil => exact .inr ⟨[], rfl, by simp, by simp, by simp⟩
  | cons part parts ih =>
    by_cases hstr : ∃ s, part = .str s
    · obtain ⟨s, rfl⟩ := hstr
      rcases ih with ⟨hnone, hnot⟩ | ⟨t, ht, hall, hnil, hscalar⟩
      · exact .inl ⟨by rw [joinParts, hnone]; rfl, fun h ↦ hnot fun p hp ↦ h p (.tail _ hp)⟩
      · refine .inr ⟨s ++ t, by rw [joinParts, ht]; rfl, ?_, ?_, ?_⟩
        · simpa using hall
        · rw [List.append_eq_nil_iff, hnil]
          simp
        · intro h c hc
          obtain ⟨hs, hrest⟩ := List.forall_mem_cons.1 h
          rcases List.mem_append.1 hc with hc | hc
          · exact encodable_str_iff.1 hs c hc
          · exact hscalar hrest c hc
    · refine .inl ⟨?_, fun h ↦ hstr (h part (.head _))⟩
      cases part with
      | str s => exact absurd ⟨s, rfl⟩ hstr
      | _ => rfl

/-- A part comes from its block. -/
theorem encodable_thinkingPart {block part : Json} (h : thinkingPart block = some part)
    (hblock : Encodable block) : Encodable part := by
  cases block with
  | obj block =>
    rw [thinkingPart] at h
    split_ifs at h
    obtain ⟨hvalue, -⟩ := Option.filter_eq_some_iff.1 h
    unfold orValue at hvalue
    split_ifs at hvalue
    · exact hblock.of_get? hvalue
    · exact hblock.of_get? hvalue
  | str s =>
    obtain rfl := Option.some.inj h
    exact hblock
  | _ => cases h

/-- The text of a reasoning field. -/
theorem reasoningText_cases (v : Json) :
    (reasoningText v = none ∧ ¬ ∀ part ∈ thinkingParts (some v), ∃ s, part = .str s) ∨
      ∃ t, reasoningText v = some t ∧ (∀ part ∈ thinkingParts (some v), ∃ s, part = .str s) ∧
        (t = [] ↔ Textless (some v)) ∧ (Encodable v → ∀ c ∈ t, IsScalar c) := by
  cases v with
  | str s => exact .inr ⟨s, rfl, by simp [thinkingParts], Iff.rfl, encodable_str_iff.1⟩
  | arr blocks =>
    rcases joinParts_cases (blocks.filterMap thinkingPart) with h | ⟨t, ht, hall, hnil, hscalar⟩
    · exact .inl h
    · refine .inr ⟨t, ht, hall, hnil, fun h ↦ hscalar fun part hpart ↦ ?_⟩
      obtain ⟨block, hblock, hpart⟩ := List.mem_filterMap.1 hpart
      exact encodable_thinkingPart hpart (encodable_arr_iff.1 h block hblock)
  | _ => exact .inr ⟨[], rfl, by simp [thinkingParts], by simp [Textless, thinkingParts], by simp⟩

/-- The search for a reasoning text. -/
theorem findReasoning_cases (delta : PyDict) (keys : List PyStr) :
    (findReasoning delta keys = none ∧ ¬ LegibleFrom delta keys) ∨
      ∃ t, findReasoning delta keys = some t ∧ LegibleFrom delta keys ∧
        (t = [] ↔ ∀ key ∈ keys, Textless (get? delta key)) ∧
        (Encodable (.obj delta) → ∀ c ∈ t, IsScalar c) := by
  induction keys with
  | nil => exact .inr ⟨[], rfl, trivial, by simp, by simp⟩
  | cons key keys ih =>
    -- a field without a text passes the search on
    have hpass : (∀ part ∈ thinkingParts (get? delta key), ∃ s, part = .str s) →
        Textless (get? delta key) →
        (findReasoning delta keys = none ∧ ¬ LegibleFrom delta (key :: keys)) ∨
          ∃ t, findReasoning delta keys = some t ∧ LegibleFrom delta (key :: keys) ∧
            (t = [] ↔ ∀ k ∈ key :: keys, Textless (get? delta k)) ∧
            (Encodable (.obj delta) → ∀ c ∈ t, IsScalar c) := by
      intro hparts htextless
      rcases ih with ⟨hnone, hnot⟩ | ⟨t, ht, hlegible, hnil, hscalar⟩
      · exact .inl ⟨hnone, fun h ↦ hnot (h.2 htextless)⟩
      · refine .inr ⟨t, ht, ⟨hparts, fun _ ↦ hlegible⟩, ?_, hscalar⟩
        rw [hnil, List.forall_mem_cons, and_iff_right htextless]
    rw [findReasoning]
    rcases hv : get? delta key with - | v
    · rw [hv] at hpass
      exact hpass (by simp [thinkingParts]) (by simp [Textless, thinkingParts])
    · rw [hv] at hpass
      rcases reasoningText_cases v with ⟨hnone, hnot⟩ | ⟨t, ht, hparts, hnil, hscalar⟩
      · refine .inl ⟨by simp only [hnone], fun h ↦ hnot ?_⟩
        have hfirst := h.1
        rwa [hv] at hfirst
      · rcases t with - | ⟨c, t⟩
        · simp only [ht]
          exact hpass hparts (hnil.1 rfl)
        · have htext : ¬ Textless (some v) := fun h ↦ absurd (hnil.2 h) (List.cons_ne_nil _ _)
          refine .inr ⟨c :: t, by simp only [ht], ?_, ?_, fun h ↦ hscalar (h.of_get? hv)⟩
          · rw [LegibleFrom, hv]
            exact ⟨hparts, fun h ↦ absurd h htext⟩
          · refine iff_of_false (List.cons_ne_nil _ _) fun h ↦ htext ?_
            have hfirst := h key (.head _)
            rwa [hv] at hfirst

/-! ### Normalised objects -/

/-- What the normalisation makes of a value: it raises if something is not legible; it changes the value if
something is unfilled, and adds no character that was not there. -/
def Normalizes {α : Type} (json : α → Json) (legible unfilled : Prop) (a : α)
    (r : Option (α × Bool)) : Prop :=
  (r = none ∧ ¬ legible) ∨
    ∃ a' changed, r = some (a', changed) ∧ legible ∧ (changed = true ↔ unfilled) ∧
      (Encodable (json a') ↔ Encodable (json a))

namespace Normalizes

variable {α : Type} {json : α → Json} {legible unfilled legible' unfilled' : Prop} {a : α}
  {r : Option (α × Bool)}

theorem congr (h : Normalizes json legible unfilled a r) (hlegible : legible ↔ legible')
    (hunfilled : unfilled ↔ unfilled') : Normalizes json legible' unfilled' a r := by
  rwa [← propext hlegible, ← propext hunfilled]

/-- What is not changed. -/
theorem keep (json : α → Json) (a : α) : Normalizes json True False a (some (a, false)) :=
  .inr ⟨a, false, rfl, trivial, iff_of_false Bool.false_ne_true not_false, Iff.rfl⟩

/-- One change after the other. -/
theorem bind (h : Normalizes json legible unfilled a r) {f : α → Option (α × Bool)}
    (hf : ∀ a' changed, r = some (a', changed) → Normalizes json legible' unfilled' a' (f a')) :
    Normalizes json (legible ∧ legible') (unfilled ∨ unfilled') a
      (r.bind fun r ↦ (f r.1).map fun s ↦ (s.1, r.2 || s.2)) := by
  rcases h with ⟨rfl, hnot⟩ | ⟨a', changed, rfl, hlegible, hchanged, hencodable⟩
  · exact .inl ⟨rfl, fun h ↦ hnot h.1⟩
  · rw [Option.bind_some]
    rcases hf a' changed rfl with ⟨hnone, hnot⟩ | ⟨b, more, hsome, hlegible', hmore, hencodable'⟩
    · exact .inl ⟨by rw [hnone]; rfl, fun h ↦ hnot h.2⟩
    · refine .inr ⟨b, changed || more, by rw [hsome]; rfl, ⟨hlegible, hlegible'⟩, ?_, ?_⟩
      · rw [Bool.or_eq_true, hchanged, hmore]
      · rw [hencodable', hencodable]

/-- A change of the value under a key. -/
theorem setKey (h : Normalizes json legible unfilled a r) {d : PyDict} {k : PyStr}
    (hold : get? d k = some (json a)) :
    Normalizes .obj legible unfilled d (r.map fun r ↦ (setKey d k (json r.1), r.2)) := by
  rcases h with ⟨rfl, hnot⟩ | ⟨a', changed, rfl, hlegible, hchanged, hencodable⟩
  · exact .inl ⟨rfl, hnot⟩
  · refine .inr ⟨_, changed, rfl, hlegible, hchanged, ?_⟩
    have hswap := encodable_setKey_iff (v := json a') hold
    rw [hencodable] at hswap
    constructor
    · intro hnew
      have hvalue := hnew.of_get? (k := k) (v := json a') (by rw [get?_setKey, if_pos rfl])
      exact (hswap.1 ⟨hnew, hencodable.1 hvalue⟩).1
    · exact fun hd ↦ (hswap.2 ⟨hd, hd.of_get? hold⟩).1

/-- A change of the first item of a list, and of the others. -/
theorem cons (h : Normalizes json legible unfilled a r) {xs : List Json}
    {rest : Option (List Json × Bool)} (hrest : Normalizes .arr legible' unfilled' xs rest) :
    Normalizes .arr (legible ∧ legible') (unfilled ∨ unfilled') (json a :: xs)
      (r.bind fun r ↦ rest.map fun s ↦ (json r.1 :: s.1, r.2 || s.2)) := by
  rcases h with ⟨rfl, hnot⟩ | ⟨a', changed, rfl, hlegible, hchanged, hencodable⟩
  · exact .inl ⟨rfl, fun h ↦ hnot h.1⟩
  · rw [Option.bind_some]
    rcases hrest with ⟨rfl, hnot⟩ | ⟨ys, more, rfl, hlegible', hmore, hencodable'⟩
    · exact .inl ⟨rfl, fun h ↦ hnot h.2⟩
    · refine .inr ⟨_, _, rfl, ⟨hlegible, hlegible'⟩, ?_, ?_⟩
      · rw [Bool.or_eq_true, hchanged, hmore]
      · rw [encodable_arr_iff, encodable_arr_iff, List.forall_mem_cons, List.forall_mem_cons,
          ← encodable_arr_iff, ← encodable_arr_iff, hencodable, hencodable']

/-- The value can be written after the change. -/
theorem isSome_iff (h : Normalizes json legible unfilled a r) (write : α → Option PyBytes)
    (same : PyBytes) (hwrite : ∀ a', (write a').isSome ↔ Encodable (json a')) :
    (r.bind fun s ↦ if s.2 then write s.1 else some same).isSome ↔
      legible ∧ (unfilled → Encodable (json a)) := by
  rcases h with ⟨rfl, hnot⟩ | ⟨a', changed, rfl, hlegible, hiff, hencodable⟩
  · exact iff_of_false (by simp) fun h ↦ hnot h.1
  · rw [Option.bind_some, ← hiff, ← hencodable, and_iff_right hlegible]
    cases changed with
    | false => exact iff_of_true rfl fun h ↦ absurd h Bool.false_ne_true
    | true => rw [if_pos rfl, hwrite, forall_prop_of_true rfl]

end Normalizes

/-- A field that is filled in with a text. -/
theorem encodable_fillField_iff {value : PyStr} {delta : PyDict} {target : PyStr}
    (htarget : ∀ c ∈ target, IsScalar c) (hvalue : Encodable (.obj delta) → ∀ c ∈ value, IsScalar c) :
    Encodable (.obj (fillField value delta target)) ↔ Encodable (.obj delta) := by
  rw [fillField]
  split_ifs with hfull
  · rfl
  · rcases hold : get? delta target with - | w
    · rw [encodable_setKey_new_iff htarget hold, encodable_str_iff]
      exact and_iff_left_of_imp hvalue
    · have hw : Encodable w := by
        refine encodable_of_falsy (Bool.eq_false_iff.2 fun htrue ↦ hfull ?_)
        rw [hold]
        exact htrue
      have hswap := encodable_setKey_iff (v := .str value) hold
      rw [and_iff_left hw, encodable_str_iff] at hswap
      rw [hswap]
      exact and_iff_left_of_imp hvalue

theorem normalizeDelta_cases (delta : PyDict) :
    Normalizes .obj (Legible delta) (Unfilled delta) delta (normalizeDelta delta) := by
  unfold normalizeDelta Legible Unfilled
  rcases findReasoning_cases delta reasoningKeys with
    ⟨hnone, hnot⟩ | ⟨t, ht, hlegible, hnil, hscalar⟩
  · exact .inl ⟨by rw [hnone], hnot⟩
  · rcases t with - | ⟨c, t⟩
    · refine .inr ⟨delta, false, by rw [ht], hlegible, ?_, Iff.rfl⟩
      refine iff_of_false Bool.false_ne_true fun ⟨⟨key, hkey, htext⟩, _⟩ ↦ htext ?_
      exact hnil.1 rfl key hkey
    · have htext : ∃ key ∈ reasoningKeys, ¬ Textless (get? delta key) := by
        by_contra hall
        refine absurd (hnil.2 fun key hkey ↦ ?_) (List.cons_ne_nil c t)
        by_contra hnot
        exact hall ⟨key, hkey, hnot⟩
      refine .inr ⟨_, _, by rw [ht], hlegible, ?_, ?_⟩
      · rw [and_iff_right htext, List.any_eq_true]
        simp only [Bool.not_eq_true']
      · simp only [List.foldl_cons, List.foldl_nil]
        have hfirst : Encodable (.obj (fillField (c :: t) delta (py "reasoning_content"))) ↔
            Encodable (.obj delta) :=
          encodable_fillField_iff (by decide) hscalar
        rw [encodable_fillField_iff (by decide) (fun h ↦ hscalar (hfirst.1 h)), hfirst]

/-! ### The deltas of an object -/

/-- The fields of a choice that hold a delta. -/
def deltaFields : List PyStr :=
  [py "delta", py "message"]

/-- The deltas of a choice. -/
def choiceDeltas : Json → List PyDict
  | .obj choice => deltaFields.filterMap (dictAt choice)
  | _ => []

/-- The dictionaries of an object that may have reasoning fields: the deltas of its choices, and itself. -/
def deltas (d : PyDict) : List PyDict :=
  match get? d (py "choices") with
  | some (.arr choices) => choices.flatMap choiceDeltas ++ [d]
  | _ => [d]

/-- An object that the normalisation can write again. -/
def Relayable (d : PyDict) : Prop :=
  (∀ delta ∈ deltas d, Legible delta) ∧
    ((∃ delta ∈ deltas d, Unfilled delta) → Encodable (.obj d))

theorem normalizeField_cases (choice : PyDict) (field : PyStr) :
    Normalizes .obj (∀ delta ∈ dictAt choice field, Legible delta)
      (∃ delta ∈ dictAt choice field, Unfilled delta) choice (normalizeField choice field) := by
  unfold normalizeField dictAt
  rcases hfield : get? choice field with - | v
  · exact (Normalizes.keep .obj choice).congr (by simp) (by simp)
  · cases v with
    | obj delta => exact ((normalizeDelta_cases delta).setKey hfield).congr (by simp) (by simp)
    | _ => exact (Normalizes.keep .obj choice).congr (by simp) (by simp)

/-- A normalised field leaves the others as they are. -/
theorem get?_normalizeField {choice choice' : PyDict} {field k : PyStr} {changed : Bool}
    (h : normalizeField choice field = some (choice', changed)) (hk : k ≠ field) :
    get? choice' k = get? choice k := by
  unfold normalizeField at h
  split at h
  · rename_i delta _
    obtain ⟨r, -, heq⟩ := Option.map_eq_some_iff.1 h
    rw [← (Prod.mk.inj heq).1, get?_setKey, if_neg hk]
  · rw [← (Prod.mk.inj (Option.some.inj h)).1]

theorem normalizeChoice_cases (choice : PyDict) :
    Normalizes .obj (∀ delta ∈ choiceDeltas (.obj choice), Legible delta)
      (∃ delta ∈ choiceDeltas (.obj choice), Unfilled delta) choice
      ((normalizeField choice (py "delta")).bind fun r ↦
        (normalizeField r.1 (py "message")).map fun s ↦ (s.1, r.2 || s.2)) := by
  have hmessage : ∀ choice' changed, normalizeField choice (py "delta") = some (choice', changed) →
      dictAt choice' (py "message") = dictAt choice (py "message") := by
    intro choice' changed h
    rw [dictAt, dictAt, get?_normalizeField h (by decide)]
  have hboth := (normalizeField_cases choice (py "delta")).bind fun choice' changed h ↦ by
    have hsecond := normalizeField_cases choice' (py "message")
    rwa [hmessage choice' changed h] at hsecond
  refine hboth.congr ?_ ?_
  · simp [choiceDeltas, deltaFields, or_imp, forall_and]
  · simp [choiceDeltas, deltaFields, or_and_right, exists_or]

theorem normalizeChoices_cons_obj (choice : PyDict) (choices : List Json) :
    normalizeChoices (.obj choice :: choices) =
      ((normalizeField choice (py "delta")).bind fun r ↦
        (normalizeField r.1 (py "message")).map fun s ↦ (s.1, r.2 || s.2)).bind fun r ↦
          (normalizeChoices choices).map fun s ↦ (.obj r.1 :: s.1, r.2 || s.2) := by
  rw [normalizeChoices]
  rcases normalizeField choice (py "delta") with - | r
  · rfl
  · rcases hmessage : normalizeField r.1 (py "message") with - | s
    · simp [hmessage]
    · rcases normalizeChoices choices with - | rest
      · simp [hmessage]
      · simp [hmessage]

theorem normalizeChoices_cases (choices : List Json) :
    Normalizes .arr (∀ delta ∈ choices.flatMap choiceDeltas, Legible delta)
      (∃ delta ∈ choices.flatMap choiceDeltas, Unfilled delta) choices (normalizeChoices choices) := by
  induction choices with
  | nil => exact (Normalizes.keep .arr []).congr (by simp) (by simp)
  | cons choice choices ih =>
    rw [List.flatMap_cons]
    cases choice with
    | obj choice =>
      have hcons := (normalizeChoice_cases choice).cons ih
      rw [normalizeChoices_cons_obj]
      refine hcons.congr List.forall_mem_append.symm ?_
      simp only [List.mem_append, or_and_right, exists_or]
    | _ => exact ((Normalizes.keep id _).cons ih).congr (by simp [choiceDeltas]) (by simp [choiceDeltas])

/-- Whether a delta can be read depends on its reasoning fields. -/
theorem legibleFrom_congr {d e : PyDict} {keys : List PyStr}
    (h : ∀ key ∈ keys, get? d key = get? e key) : LegibleFrom d keys ↔ LegibleFrom e keys := by
  induction keys with
  | nil => exact Iff.rfl
  | cons key keys ih =>
    obtain ⟨hkey, hkeys⟩ := List.forall_mem_cons.1 h
    rw [LegibleFrom, LegibleFrom, hkey, ih hkeys]

/-- The reasoning fields of an object are not its choices. -/
theorem legible_setKey_choices (d : PyDict) (v : Json) :
    (Legible (setKey d (py "choices") v) ↔ Legible d) ∧
      (Unfilled (setKey d (py "choices") v) ↔ Unfilled d) := by
  have hget : ∀ key ∈ reasoningKeys, get? (setKey d (py "choices") v) key = get? d key := by
    intro key hkey
    rw [get?_setKey, if_neg]
    rintro rfl
    exact absurd hkey (by decide)
  refine ⟨legibleFrom_congr hget, and_congr ?_ ?_⟩
  · exact exists_congr fun key ↦ and_congr_right fun hkey ↦ by rw [hget key hkey]
  · have htargets : ∀ key ∈ [py "reasoning_content", py "reasoning"], key ∈ reasoningKeys := by
      decide
    exact exists_congr fun key ↦ and_congr_right fun hkey ↦ by rw [hget key (htargets key hkey)]

theorem normalizeObj_cases (d : PyDict) :
    Normalizes .obj (∀ delta ∈ deltas d, Legible delta) (∃ delta ∈ deltas d, Unfilled delta) d
      (normalizeObj d) := by
  have hself : ∀ {legible unfilled : Prop} {r : Option (PyDict × Bool)},
      Normalizes .obj legible unfilled d r →
      (∀ d' changed, r = some (d', changed) → d' = d ∨ ∃ v, d' = setKey d (py "choices") v) →
      Normalizes .obj (legible ∧ Legible d) (unfilled ∨ Unfilled d) d
        (r >>= fun r ↦ normalizeDelta r.1 >>= fun s ↦ pure (s.1, r.2 || s.2)) := by
    intro legible unfilled r h hkept
    simp only [bind_pure_comp]
    refine h.bind fun d' changed hsome ↦ ?_
    rcases hkept d' changed hsome with rfl | ⟨v, rfl⟩
    · exact normalizeDelta_cases d'
    · exact (normalizeDelta_cases _).congr (legible_setKey_choices d v).1 (legible_setKey_choices d v).2
  have hkeep := hself (Normalizes.keep .obj d) fun d' changed h ↦
    .inl (Prod.mk.inj (Option.some.inj h)).1.symm
  unfold normalizeObj deltas
  rcases hchoices : get? d (py "choices") with - | v
  · exact hkeep.congr (by simp) (by simp)
  · cases v with
    | arr choices =>
      refine (hself ((normalizeChoices_cases choices).setKey hchoices) fun d' changed h ↦ ?_).congr
        ?_ ?_
      · obtain ⟨r, -, heq⟩ := Option.map_eq_some_iff.1 h
        exact .inr ⟨_, (Prod.mk.inj heq).1.symm⟩
      · rw [List.forall_mem_append, List.forall_mem_singleton]
      · simp only [List.mem_append, List.mem_singleton, or_and_right, exists_or, exists_eq_left]
    | _ => exact hkeep.congr (by simp) (by simp)

theorem get?_fillField (value : PyStr) (delta : PyDict) {target k : PyStr} (hk : k ≠ target) :
    get? (fillField value delta target) k = get? delta k := by
  rw [fillField]
  split_ifs
  · rfl
  · rw [get?_setKey, if_neg hk]

theorem get?_normalizeDelta {delta delta' : PyDict} {changed : Bool}
    (h : normalizeDelta delta = some (delta', changed)) {k : PyStr} (hk : k ∉ reasoningKeys) :
    get? delta' k = get? delta k := by
  have hne : ∀ key ∈ reasoningKeys, k ≠ key := fun key hkey heq ↦ hk (heq ▸ hkey)
  rcases hfind : findReasoning delta reasoningKeys with - | ⟨- | ⟨c, t⟩⟩
  all_goals rw [normalizeDelta, hfind] at h
  · cases h
  · rw [← (Prod.mk.inj (Option.some.inj h)).1]
  · rw [← (Prod.mk.inj (Option.some.inj h)).1, List.foldl_cons, List.foldl_cons, List.foldl_nil,
      get?_fillField _ _ (hne _ (by decide)), get?_fillField _ _ (hne _ (by decide))]

/-- The normalisation changes no field but the choices and the reasoning fields. -/
theorem get?_normalizeObj {d d' : PyDict} {changed : Bool} (h : normalizeObj d = some (d', changed))
    {k : PyStr} (hchoices : k ≠ py "choices") (hk : k ∉ reasoningKeys) : get? d' k = get? d k := by
  -- the last step works on the object with its choices
  have hlast : ∀ {e : PyDict} {more : Bool},
      (normalizeDelta e >>= fun s ↦ pure (s.1, more || s.2)) = some (d', changed) →
        get? d' k = get? e k := by
    intro e more h
    obtain ⟨⟨e', more'⟩, hdelta, h⟩ := Option.bind_eq_some_iff.1 h
    rw [← (Prod.mk.inj (Option.some.inj h)).1, get?_normalizeDelta hdelta hk]
  unfold normalizeObj at h
  dsimp only at h
  split at h
  · obtain ⟨⟨e, more⟩, hfirst, h⟩ := Option.bind_eq_some_iff.1 h
    obtain ⟨r, -, heq⟩ := Option.map_eq_some_iff.1 hfirst
    rw [hlast h, ← (Prod.mk.inj heq).1, get?_setKey, if_neg hchoices]
  · exact hlast h

/-! ### Writing -/

section Writing

variable (loads : Decoder) (r : FloatRepr)

theorem normalizeResponseBody_eq {body : PyBytes} {d : PyDict}
    (hmentions : mentionsReasoning (body.map UInt8.toNat) = true)
    (hd : loads.body body = some (.obj d)) :
    normalizeResponseBody loads r body = (normalizeObj d).bind fun s ↦
      if s.2 then utf8Encode (dumps false r (.obj s.1)) else some body := by
  rcases hobj : normalizeObj d with - | ⟨d', - | -⟩
  · simp [normalizeResponseBody, hmentions, hd, hobj]
  · simp [normalizeResponseBody, hmentions, hd, hobj]
  · simp [normalizeResponseBody, hmentions, hd, hobj]

theorem renderNormalized_eq {ev : SSEEvent} {d : PyDict} (hd : loads.text ev.data = some (.obj d)) :
    renderNormalized loads r ev = (normalizeObj d).bind fun s ↦
      if s.2 then utf8Encode (py "data: " ++ dumps false r (.obj s.1) ++ py "\n\n")
      else some (renderEvent ev) := by
  rcases hobj : normalizeObj d with - | ⟨d', - | -⟩
  · simp [renderNormalized, hd, hobj]
  · simp [renderNormalized, hd, hobj]
  · simp [renderNormalized, hd, hobj]

/-- **When the normalisation of a body raises nothing.** -/
theorem isSome_normalizeResponseBody_iff (body : PyBytes) :
    (normalizeResponseBody loads r body).isSome ↔
      (mentionsReasoning (body.map UInt8.toNat) = true →
        ∀ d, loads.body body = some (.obj d) → Relayable d) := by
  rcases hmentions : mentionsReasoning (body.map UInt8.toNat) with - | -
  · simp [normalizeResponseBody, hmentions]
  · rw [forall_prop_of_true rfl]
    by_cases hobj : ∃ d, loads.body body = some (.obj d)
    · obtain ⟨d, hd⟩ := hobj
      have hiff := (normalizeObj_cases d).isSome_iff (fun d' ↦ utf8Encode (dumps false r (.obj d')))
        body fun d' ↦ by rw [utf8Encode_isSome_iff, forall_isScalar_dumps_iff]; simp
      rw [normalizeResponseBody_eq loads r hmentions hd, hiff, hd]
      exact ⟨fun h e he ↦ by cases he; exact h, fun h ↦ h d rfl⟩
    · refine iff_of_true ?_ fun d hd ↦ absurd ⟨d, hd⟩ hobj
      unfold normalizeResponseBody
      rw [hmentions]
      split
      · rfl
      · split
        · rename_i d hd
          exact absurd ⟨d, hd⟩ hobj
        · rfl

/-- **When an event is written again without an exception.** -/
theorem isSome_renderNormalized_iff (ev : SSEEvent) :
    (renderNormalized loads r ev).isSome ↔
      ∀ d, loads.text ev.data = some (.obj d) → Relayable d := by
  by_cases hobj : ∃ d, loads.text ev.data = some (.obj d)
  · obtain ⟨d, hd⟩ := hobj
    have hiff := (normalizeObj_cases d).isSome_iff
      (fun d' ↦ utf8Encode (py "data: " ++ dumps false r (.obj d') ++ py "\n\n")) (renderEvent ev)
      fun d' ↦ by
        rw [utf8Encode_isSome_iff, List.forall_mem_append, List.forall_mem_append,
          forall_isScalar_dumps_iff, and_iff_left (isScalar_of_ascii (by decide)),
          and_iff_right (isScalar_of_ascii (by decide))]
        simp
    rw [renderNormalized_eq loads r hd, hiff, hd]
    exact ⟨fun h e he ↦ by cases he; exact h, fun h ↦ h d rfl⟩
  · refine iff_of_true ?_ fun d hd ↦ absurd ⟨d, hd⟩ hobj
    unfold renderNormalized
    split
    · rename_i d hd
      exact absurd ⟨d, hd⟩ hobj
    · rfl

/-- What an event decodes to. -/
theorem eventObj_eq_some_iff {ev : SSEEvent} {d : PyDict} :
    eventObj loads ev = some d ↔ ev.done = false ∧ loads.text ev.data = some (.obj d) := by
  unfold eventObj
  rcases hdone : ev.done with - | -
  · rcases htext : loads.text ev.data with - | v
    · simp
    · cases v with
      | obj e => simp
      | _ => simp
  · simp

theorem isSome_transformEvent_iff (ev : SSEEvent) :
    (transformEvent loads r ev).isSome ↔
      (mentionsReasoning ev.data = true → ∀ d, eventObj loads ev = some d → Relayable d) := by
  simp only [eventObj_eq_some_iff]
  unfold transformEvent
  rcases hdone : ev.done with - | -
  · rcases hmentions : mentionsReasoning ev.data with - | -
    · simp
    · simp [isSome_renderNormalized_iff]
  · simp

/-- **When the end of a stream is written without an exception.** -/
theorem isSome_flushStreamChunk_iff (parser : SSEParser) :
    (flushStreamChunk loads r parser).isSome ↔
      ∀ ev, parser.flush.1 = some ev → ∀ d, eventObj loads ev = some d → Relayable d := by
  simp only [eventObj_eq_some_iff]
  unfold flushStreamChunk
  rcases parser.flush.1 with - | ev
  · simp
  · rcases hdone : ev.done with - | -
    · simp [isSome_renderNormalized_iff, hdone]
    · simp [hdone]

/-- **When the normalisation of a chunk raises nothing.** -/
theorem isSome_transformStreamChunk_iff (parser : SSEParser) (chunk : PyBytes) :
    (transformStreamChunk loads r parser chunk).isSome ↔
      ∀ ev ∈ (parser.feed chunk).1, mentionsReasoning ev.data = true →
        ∀ d, eventObj loads ev = some d → Relayable d := by
  rw [transformStreamChunk, Option.isSome_map, isSome_mapM_iff]
  exact forall₂_congr fun ev _ ↦ isSome_transformEvent_iff loads r ev

end Writing

/-! ### Shifted counts -/

section Shifting

variable (loads : Decoder) (r : FloatRepr) (fl : Arith)

/-- A number can be added to the count, and written: the count says nothing, or it is a number. -/
def Addable (v : Option Json) (n : ℤ) : Prop :=
  match v.filter truthy with
  | none => True
  | some (.int m) => Printable (m + n)
  | some (.bool _) => Printable (1 + n)
  | some (.float _) => (fl.ofInt n).isSome
  | some _ => False

/-- An object whose input tokens can be counted as cached. -/
def Shiftable (d : PyDict) : Prop :=
  ∀ usage, dictAt d (py "usage") = some usage →
    ∀ n, countOf (get? usage (py "prompt_tokens")) = some n → n ≠ 0 →
      Addable fl (get? ((dictAt usage (py "prompt_tokens_details")).getD []) (py "cached_tokens")) n ∧
        Addable fl (get? usage (py "cache_read_input_tokens")) n

theorem isSome_addCount_iff (v : Option Json) (n : ℤ) :
    (addCount fl v n).isSome ↔ Addable fl v n := by
  unfold addCount Addable
  rcases v.filter truthy with - | w
  · simp
  · cases w with
    | int m =>
      show (if Printable (m + n) then some (.int (m + n)) else none : Option Json).isSome ↔ _
      split_ifs with h
      · exact iff_of_true rfl h
      · exact iff_of_false (by simp) h
    | bool b =>
      show (if Printable (1 + n) then some (.int (1 + n)) else none : Option Json).isSome ↔ _
      split_ifs with h
      · exact iff_of_true rfl h
      · exact iff_of_false (by simp) h
    | float x => simp
    | _ => simp

/-- **When the shift of an object raises nothing.** -/
theorem isSome_shiftUsageObj_iff (d : PyDict) : (shiftUsageObj fl d).isSome ↔ Shiftable fl d := by
  unfold shiftUsageObj Shiftable
  rcases dictAt d (py "usage") with - | usage
  · simp
  · dsimp only
    split
    · rename_i hcount
      simp [hcount]
    · rename_i hcount
      simp [hcount]
    · rename_i n hn hcount
      have hne : n ≠ 0 := hn
      simp only [Option.some.injEq, forall_eq', hcount]
      rw [← isSome_addCount_iff, ← isSome_addCount_iff]
      rcases addCount fl _ n with - | cached
      · simp [hne]
      · rcases addCount fl (get? usage (py "cache_read_input_tokens")) n with - | read
        · simp [hne]
        · simp

/-- An object can be shifted after the normalisation exactly if it can before. -/
theorem shiftable_normalizeObj_iff {d d' : PyDict} {changed : Bool}
    (h : normalizeObj d = some (d', changed)) : Shiftable fl d' ↔ Shiftable fl d := by
  have husage : dictAt d' (py "usage") = dictAt d (py "usage") := by
    rw [dictAt, dictAt, get?_normalizeObj h (by decide) (by decide)]
  rw [Shiftable, Shiftable, husage]

/-- **When the shift of a body raises nothing.** A body that is no object has no usage to look up. -/
theorem isSome_shiftUsageToCached_iff (body : PyBytes) :
    (shiftUsageToCached loads r fl body).isSome ↔
      ∀ v, loads.body body = some v → ∃ d, v = .obj d ∧ Shiftable fl d := by
  unfold shiftUsageToCached
  rcases loads.body body with - | v
  · simp
  · cases v with
    | obj d =>
      simp only [Option.some.injEq, forall_eq', Json.obj.injEq, exists_eq_left']
      rw [← isSome_shiftUsageObj_iff]
      rcases shiftUsageObj fl d with - | - | e
      · simp
      · simp
      · refine iff_of_true (utf8Encode_isSome_iff.2 ?_) rfl
        exact (forall_isScalar_dumps_iff true r (.obj e)).2 (.inl rfl)
    | _ => simp

/-- The object on a line of a chunk. -/
def lineObj (line : PyStr) : Option PyDict :=
  if !startsWith line (py "data: ") || isDone (line.drop 6) then none
  else
    match loads.text (line.drop 6) with
    | some (.obj d) => some d
    | _ => none

/-- A shifted line has the characters of the line, or ASCII. -/
theorem shiftLine_cases (line : PyStr) :
    (shiftLine loads r fl line = none ∧ ∃ d, lineObj loads line = some d ∧ ¬ Shiftable fl d) ∨
      ∃ out changed, shiftLine loads r fl line = some (out, changed) ∧
        (∀ d, lineObj loads line = some d → Shiftable fl d) ∧
        ((∀ c ∈ line, IsScalar c) → ∀ c ∈ out, IsScalar c) := by
  unfold shiftLine lineObj
  split_ifs
  · exact .inr ⟨line, false, rfl, by simp, id⟩
  · rcases loads.text (line.drop 6) with - | v
    · exact .inr ⟨line, false, rfl, by simp, id⟩
    · cases v with
      | obj d =>
        have hiff := isSome_shiftUsageObj_iff fl d
        dsimp only
        rcases hshift : shiftUsageObj fl d with - | - | e
        · exact .inl ⟨rfl, d, rfl, fun h ↦ absurd (hiff.2 h) (by simp [hshift])⟩
        · refine .inr ⟨line, false, rfl, fun e he ↦ ?_, id⟩
          rw [← Option.some.inj he, ← hiff, hshift]
          rfl
        · refine .inr ⟨_, true, rfl, fun e he ↦ ?_, fun _ ↦ ?_⟩
          · rw [← Option.some.inj he, ← hiff, hshift]
            rfl
          · refine List.forall_mem_append.2 ⟨?_, ?_⟩
            · exact isScalar_of_ascii (by decide)
            · exact (forall_isScalar_dumps_iff true r (.obj e)).2 (.inl rfl)
      | _ => exact .inr ⟨line, false, rfl, by simp, id⟩

theorem isSome_shiftLine_iff (line : PyStr) :
    (shiftLine loads r fl line).isSome ↔ ∀ d, lineObj loads line = some d → Shiftable fl d := by
  rcases shiftLine_cases loads r fl line with ⟨hnone, d, hd, hnot⟩ | ⟨out, b, hout, hall, -⟩
  · exact iff_of_false (by simp [hnone]) fun h ↦ hnot (h d hd)
  · exact iff_of_true (by simp [hout]) hall

/-- The shifted lines of a text can be encoded. -/
theorem forall_isScalar_shiftLines {text : PyStr} (htext : ∀ c ∈ text, IsScalar c)
    {outs : List (PyStr × Bool)} (h : (text.splitOn 10).mapM (shiftLine loads r fl) = some outs) :
    ∀ c ∈ joinLines (outs.map Prod.fst) ++ [10], IsScalar c := by
  have hend : ∀ c ∈ ([10] : PyStr), IsScalar c := isScalar_of_ascii (by decide)
  refine List.forall_mem_append.2 ⟨fun c hc ↦ ?_, hend⟩
  rcases Lines.mem_intercalate hc with rfl | ⟨out, hout, hc⟩
  · exact hend 10 (.head _)
  · obtain ⟨⟨out, b⟩, hmem, rfl⟩ := List.mem_map.1 hout
    obtain ⟨line, hline, hshift⟩ := exists_of_mem_right (mapM_eq_some_iff.1 h) hmem
    rcases shiftLine_cases loads r fl line with ⟨hnone, -⟩ | ⟨out', b', hout', -, hkeep⟩
    · exact absurd (hnone.symm.trans hshift) nofun
    · obtain ⟨rfl, -⟩ := Prod.mk.inj (Option.some.inj (hout'.symm.trans hshift))
      exact hkeep (fun c hc ↦ htext c (Lines.mem_of_mem_splitOn hline hc)) c hc

/-- **When the shift of a chunk raises nothing.** -/
theorem isSome_shiftStreamUsageToCached_iff (chunk : PyBytes) :
    (shiftStreamUsageToCached loads r fl chunk).isSome ↔
      ∀ text, utf8DecodeStrict chunk = some text → contains text (py "\"usage\"") = true →
        ∀ line ∈ text.splitOn 10, ∀ d, lineObj loads line = some d → Shiftable fl d := by
  unfold shiftStreamUsageToCached
  rcases htext : utf8DecodeStrict chunk with - | text
  · simp
  · simp only [Option.some.injEq, forall_eq']
    rcases contains text (py "\"usage\"") with - | -
    · simp
    · have hscalar : ∀ c ∈ text, IsScalar c :=
        utf8Encode_isSome_iff.1 (by rw [utf8DecodeStrict_eq_some_iff.1 htext]; rfl)
      simp only [Bool.not_true, Bool.false_eq_true, if_false, forall_true_left,
        ← isSome_shiftLine_iff loads r fl]
      rw [← isSome_mapM_iff]
      rcases hmap : (text.splitOn 10).mapM (shiftLine loads r fl) with - | outs
      · simp
      · refine iff_of_true ?_ rfl
        dsimp only
        split_ifs
        · exact utf8Encode_isSome_iff.2 (forall_isScalar_shiftLines loads r fl hscalar hmap)
        · rfl

end Shifting

/-! ### Counted text -/

section Counting

variable (loads : Decoder)

/-- A value with a length. -/
def Sized : Json → Prop
  | .str _ | .arr _ | .obj _ => True
  | _ => False

/-- The text of the first delta has a length. -/
def Measurable (d : PyDict) : Prop :=
  ∀ content, deltaContent d = some content → Sized content

theorem pyLen_ok_iff (v : Json) : (∃ n, pyLen v = .ok n) ↔ Sized v := by
  cases v with
  | str s => exact iff_of_true ⟨_, rfl⟩ trivial
  | arr xs => exact iff_of_true ⟨_, rfl⟩ trivial
  | obj kvs => exact iff_of_true ⟨_, rfl⟩ trivial
  | _ => exact iff_of_false (fun ⟨_, h⟩ ↦ nomatch h) id

theorem eventLength_ok_iff (ev : SSEEvent) :
    (∃ n, eventLength loads ev = .ok n) ↔ ∀ d, eventObj loads ev = some d → Measurable d := by
  unfold eventLength Measurable
  rcases eventObj loads ev with - | d
  · exact iff_of_true ⟨0, rfl⟩ nofun
  · simp only [Option.bind_some, Option.some.injEq, forall_eq']
    rcases deltaContent d with - | content
    · exact iff_of_true ⟨0, rfl⟩ nofun
    · simp only [pyLen_ok_iff, Option.some.injEq, forall_eq']

/-- **When observing events raises nothing.** -/
theorem after_ok_iff (acc : StreamAccumulator) (p : SSEParser) (evs : List SSEEvent) :
    (∃ acc', acc.after loads p evs = .ok acc') ↔
      ∀ ev ∈ evs, ∀ d, eventObj loads ev = some d → Measurable d := by
  have hmap : (∃ lengths, evs.mapM (eventLength loads) = .ok lengths) ↔
      ∀ ev ∈ evs, ∃ n, eventLength loads ev = .ok n := by
    induction evs with
    | nil => exact iff_of_true ⟨[], rfl⟩ (by simp)
    | cons ev evs ih =>
      rw [List.mapM_cons, List.forall_mem_cons, ← ih]
      rcases eventLength loads ev with error | n
      · exact iff_of_false (fun ⟨_, h⟩ ↦ nomatch h) fun ⟨⟨_, h⟩, _⟩ ↦ nomatch h
      · rcases evs.mapM (eventLength loads) with error | lengths
        · exact iff_of_false (fun ⟨_, h⟩ ↦ nomatch h) fun ⟨_, _, h⟩ ↦ nomatch h
        · exact iff_of_true ⟨_, rfl⟩ ⟨⟨n, rfl⟩, _, rfl⟩
  rw [← forall₂_congr fun ev _ ↦ eventLength_ok_iff loads ev, ← hmap]
  unfold StreamAccumulator.after
  rcases evs.mapM (eventLength loads) with error | lengths
  · exact iff_of_false (fun ⟨_, h⟩ ↦ nomatch h) fun ⟨_, h⟩ ↦ nomatch h
  · exact iff_of_true ⟨_, rfl⟩ ⟨_, rfl⟩

/-- The events that are observed: those that the chunks complete, and the leftover of a response that ends. -/
def observed (chunks : List PyBytes) : StreamEnd → List SSEEvent
  | .eof => SSEParser.parse chunks
  | .broken _ => (SSEParser.feedAll .init chunks).1

/-- The accumulator over a whole stream. -/
def accumulate (chunks : List PyBytes) : StreamEnd → Except PyStr StreamAccumulator
  | .eof => do
    let acc ← chunks.foldlM (StreamAccumulator.feed loads) .init
    let r ← acc.finish loads
    pure r.2
  | .broken _ => chunks.foldlM (StreamAccumulator.feed loads) .init

theorem accumulate_eq (chunks : List PyBytes) (ending : StreamEnd) :
    ∃ p, accumulate loads chunks ending =
      StreamAccumulator.init.after loads p (observed chunks ending) := by
  cases ending with
  | broken error => exact ⟨_, StreamAccumulator.foldlM_feed loads .init chunks⟩
  | eof =>
    refine ⟨(SSEParser.feedAll .init chunks).2.flush.2, ?_⟩
    rw [observed, SSEParser.parse, ← StreamAccumulator.after_append loads .init
      (SSEParser.feedAll .init chunks).2, accumulate, StreamAccumulator.foldlM_feed,
      StreamAccumulator.init_parser]
    rcases hafter : StreamAccumulator.init.after loads (SSEParser.feedAll .init chunks).2
      (SSEParser.feedAll .init chunks).1 with error | acc
    · rfl
    · show (acc.finish loads >>= fun r ↦ pure r.2) = acc.after loads _ _
      rw [StreamAccumulator.finish_eq, StreamAccumulator.parser_of_after loads hafter]
      rcases acc.after loads (SSEParser.feedAll .init chunks).2.flush.2
        (SSEParser.feedAll .init chunks).2.flush.1.toList with error | acc'
      · rfl
      · rfl

/-- **When the accumulator raises nothing.** -/
theorem accumulate_ok_iff (chunks : List PyBytes) (ending : StreamEnd) :
    (∃ acc, accumulate loads chunks ending = .ok acc) ↔
      ∀ ev ∈ observed chunks ending, ∀ d, eventObj loads ev = some d → Measurable d := by
  obtain ⟨p, heq⟩ := accumulate_eq loads chunks ending
  rw [heq, after_ok_iff]

/-- The chunks of a stream that are passed on: those that hold something, and the leftover of a response
that ends. -/
def passedOn (chunks : List PyBytes) (ending : StreamEnd) : List PyBytes :=
  chunks.filter (· ≠ []) ++
    match ending with
    | .eof => (SSEParser.feedAll .init chunks).2.flush.1.toList.map renderEvent
    | .broken _ => []

/-- A chunk of no bytes is not observed. -/
theorem observe_no_chunk (acc : StreamAccumulator) : acc.feed loads [] = .ok acc := by
  obtain ⟨p, usage, sent, n⟩ := acc
  rw [StreamAccumulator.feed, feed_nil p]
  rfl

/-- The events of a stream whose chunks are observed without an exception. -/
theorem streamEvents_of_ok {acc acc' : StreamAccumulator} {chunks : List PyBytes} (first : Bool)
    (ending : StreamEnd) (h : chunks.foldlM (StreamAccumulator.feed loads) acc = .ok acc') :
    ∃ first', streamEvents loads acc first chunks ending =
      (chunks.filter (· ≠ [])).map .chunk ++ streamEvents loads acc' first' [] ending := by
  induction chunks generalizing acc first with
  | nil =>
    obtain rfl := Except.ok.inj h
    exact ⟨first, rfl⟩
  | cons chunk chunks ih =>
    rw [List.foldlM_cons] at h
    rw [streamEvents]
    split_ifs with hchunk
    · subst hchunk
      rw [observe_no_chunk] at h
      simpa using ih first h
    · rcases hfeed : acc.feed loads chunk with error | acc''
      · rw [hfeed] at h
        cases h
      · rw [hfeed] at h
        obtain ⟨first', heq⟩ := ih true h
        exact ⟨first', by simp [hchunk, heq]⟩

/-- **What is passed on of a stream** that is observed without an exception. -/
theorem callProviderStream_of_ok {chunks : List PyBytes} {ending : StreamEnd} {acc : StreamAccumulator}
    (h : accumulate loads chunks ending = .ok acc) :
    ∃ last : StreamEvent, callProviderStream loads (.streamed chunks ending) =
        (passedOn chunks ending).map .chunk ++ [last] ∧
      match ending with
      | .eof => ∃ usage sent, last = .done usage sent
      | .broken _ => ∃ error status retryable mid, last = .failed error status retryable mid := by
  cases ending with
  | broken error =>
    obtain ⟨first, heq⟩ := streamEvents_of_ok loads false (.broken error) h
    exact ⟨_, by rw [callProviderStream, heq, streamEvents, passedOn, List.append_nil], _, _, _, _, rfl⟩
  | eof =>
    rw [accumulate] at h
    rcases hfold : chunks.foldlM (StreamAccumulator.feed loads) .init with error | acc'
    · rw [hfold] at h
      cases h
    · rw [hfold] at h
      obtain ⟨first, heq⟩ := streamEvents_of_ok loads false .eof hfold
      have hparser : acc'.parser = (SSEParser.feedAll .init chunks).2 := by
        rw [StreamAccumulator.foldlM_feed] at hfold
        exact StreamAccumulator.parser_of_after loads hfold
      have hfinish := acc'.finish_eq loads
      rw [hparser] at hfinish
      rcases hafter : acc'.after loads (SSEParser.feedAll .init chunks).2.flush.2
        (SSEParser.feedAll .init chunks).2.flush.1.toList with error | acc''
      · have hraise : (acc'.finish loads >>= fun r ↦ pure r.2) = Except.ok acc := h
        rw [hfinish, hafter] at hraise
        cases hraise
      · rw [hafter] at hfinish
        refine ⟨.done acc''.finalUsage acc''.sawDone, ?_, _, _, rfl⟩
        have hlast : streamEvents loads acc' first [] .eof =
            ((SSEParser.feedAll .init chunks).2.flush.1.toList.map fun ev ↦ .chunk (renderEvent ev)) ++
              [.done acc''.finalUsage acc''.sawDone] := by
          rw [streamEvents, hfinish]
          rfl
        rw [callProviderStream, heq, hlast, passedOn, List.map_append, List.map_map, List.append_assoc]
        rfl

end Counting

/-! ### The chain -/

/-- The body of a response with status 200, read at once or as a stream. -/
inductive UpstreamBody
  | whole (body : PyBytes)
  | streamed (chunks : List PyBytes) (ending : StreamEnd)

namespace Service

variable (sv : Service)

/-- What `handle_request_stream` makes of the events of a backend. -/
def relayEvents (e : Entry) : SSEParser → List StreamEvent → Option (List PyBytes)
  | _, [] => some []
  | parser, .chunk data :: evs =>
    (sv.chatChunk e parser data).bind fun (out, parser) ↦ (relayEvents e parser evs).map (out :: ·)
  | parser, .done _ _ :: _ => (flushStreamChunk sv.loads sv.repr parser).map ([·])
  | _, .failed _ _ _ _ :: _ => some []

/-- No function on the way of the body raises an exception. -/
def Survives (e : Entry) : UpstreamBody → Prop
  | .whole body => (sv.relayBody e body).isSome
  | .streamed chunks ending => (∃ acc, accumulate sv.loads chunks ending = .ok acc) ∧
      (sv.relayEvents e .init (callProviderStream sv.loads (.streamed chunks ending))).isSome

/-- A body whose counts can be shifted: it is an object, if it is JSON. -/
def ShiftsBody (body : PyBytes) : Prop :=
  ∀ v, sv.loads.body body = some v → ∃ d, v = .obj d ∧ Shiftable sv.arith d

/-- A text whose counts can be shifted, line by line. -/
def ShiftsLines (out : PyBytes) : Prop :=
  ∀ text, utf8DecodeStrict out = some text → contains text (py "\"usage\"") = true →
    ∀ line ∈ text.splitOn 10, ∀ d, lineObj sv.loads line = some d → Shiftable sv.arith d

/-- The object of the body can be written, and the counts in what is written can be shifted. -/
def DigestsBody (e : Entry) (body : PyBytes) : Prop :=
  (mentionsReasoning (body.map UInt8.toNat) = true →
      ∀ d, sv.loads.body body = some (.obj d) → Relayable d) ∧
    (lacksCacheRead (sv.pricing e) = true →
      ∀ out, normalizeResponseBody sv.loads sv.repr body = some out → sv.ShiftsBody out)

/-- The events that a chunk completes can be written, and the counts in what is written can be shifted. -/
def DigestsChunk (e : Entry) (parser : SSEParser) (data : PyBytes) : Prop :=
  (∀ ev ∈ (parser.feed data).1, mentionsReasoning ev.data = true →
      ∀ d, eventObj sv.loads ev = some d → Relayable d) ∧
    (lacksCacheRead (sv.pricing e) = true →
      ∀ out p, transformStreamChunk sv.loads sv.repr parser data = some (out, p) → sv.ShiftsLines out)

/-- Every chunk can be digested, by the parser that the chunks before it leave. -/
def DigestsChunks (e : Entry) : SSEParser → List PyBytes → Prop
  | _, [] => True
  | parser, data :: datas =>
    sv.DigestsChunk e parser data ∧ DigestsChunks e (parser.feed data).2 datas

/-- The leftover of a stream can be written. -/
def DigestsEnd (parser : SSEParser) : StreamEnd → Prop
  | .eof => ∀ ev, parser.flush.1 = some ev → ∀ d, eventObj sv.loads ev = some d → Relayable d
  | .broken _ => True

/-- JSON that the functions on the way of the body take. -/
def Digestible (e : Entry) : UpstreamBody → Prop
  | .whole body => sv.DigestsBody e body
  | .streamed chunks ending =>
    (∀ ev ∈ observed chunks ending, ∀ d, eventObj sv.loads ev = some d → Measurable d) ∧
      sv.DigestsChunks e .init (passedOn chunks ending) ∧
        sv.DigestsEnd (SSEParser.feedAll .init (passedOn chunks ending)).2 ending

theorem isSome_relayBody_iff (e : Entry) (body : PyBytes) :
    (sv.relayBody e body).isSome ↔ sv.DigestsBody e body := by
  unfold relayBody DigestsBody
  rw [← isSome_normalizeResponseBody_iff sv.loads sv.repr]
  rcases normalizeResponseBody sv.loads sv.repr body with - | out
  · simp
  · simp only [Option.bind_some, Option.isSome_some, true_and, Option.some.injEq, forall_eq']
    split_ifs with hlacks
    · rw [isSome_shiftUsageToCached_iff, forall_prop_of_true hlacks]
      rfl
    · exact iff_of_true rfl fun h ↦ absurd h hlacks

/-- Nothing is shifted in an empty text. -/
theorem shiftsLines_nil : sv.ShiftsLines [] := by
  intro text htext hcontains
  obtain rfl : ([] : PyStr) = text := Option.some.inj (by rw [← htext]; rfl)
  exact absurd hcontains (by decide)

/-- The text of a normalised chunk is passed on, shifted if need be. -/
theorem isSome_chatChunk_iff (e : Entry) (parser : SSEParser) (data : PyBytes) :
    (sv.chatChunk e parser data).isSome ↔ sv.DigestsChunk e parser data := by
  unfold chatChunk DigestsChunk
  rw [← isSome_transformStreamChunk_iff sv.loads sv.repr]
  rcases transformStreamChunk sv.loads sv.repr parser data with - | ⟨out, p⟩
  · simp
  · simp only [Option.bind_some, Option.isSome_some, true_and, Option.some.injEq, Prod.mk.injEq]
    have hshift : (shiftStreamUsageToCached sv.loads sv.repr sv.arith out).isSome ↔
        sv.ShiftsLines out :=
      isSome_shiftStreamUsageToCached_iff sv.loads sv.repr sv.arith out
    have hall : (∀ out' p', out = out' ∧ p = p' → sv.ShiftsLines out') ↔ sv.ShiftsLines out :=
      ⟨fun h ↦ h out p ⟨rfl, rfl⟩, fun h _ _ heq ↦ heq.1 ▸ h⟩
    rw [hall]
    split_ifs with hboth
    · rw [Option.isSome_map, hshift, forall_prop_of_true hboth.2]
    · refine iff_of_true rfl fun hlacks ↦ ?_
      rcases eq_or_ne out [] with rfl | hout
      · exact sv.shiftsLines_nil
      · exact absurd ⟨hout, hlacks⟩ hboth

theorem parser_of_chatChunk {e : Entry} {parser p : SSEParser} {data out : PyBytes}
    (h : sv.chatChunk e parser data = some (out, p)) : p = (parser.feed data).2 := by
  obtain ⟨⟨out', p'⟩, htransform, h⟩ := Option.bind_eq_some_iff.1 h
  obtain ⟨outs, -, heq⟩ := Option.map_eq_some_iff.1 htransform
  have hp : p' = (parser.feed data).2 := (Prod.mk.inj heq).2.symm
  dsimp only at h
  split_ifs at h
  · obtain ⟨out'', -, heq⟩ := Option.map_eq_some_iff.1 h
    rw [← (Prod.mk.inj heq).2, hp]
  · rw [← (Prod.mk.inj (Option.some.inj h)).2, hp]

/-- **A run of chunks is passed on** if each of them can be digested. -/
theorem isSome_relayEvents_iff (e : Entry) (parser : SSEParser) (datas : List PyBytes)
    (evs : List StreamEvent) :
    (sv.relayEvents e parser (datas.map .chunk ++ evs)).isSome ↔
      sv.DigestsChunks e parser datas ∧
        (sv.relayEvents e (parser.feedAll datas).2 evs).isSome := by
  induction datas generalizing parser with
  | nil => exact (and_iff_right trivial).symm
  | cons data datas ih =>
    rw [List.map_cons, List.cons_append, relayEvents, DigestsChunks, ← isSome_chatChunk_iff,
      SSEParser.feedAll]
    rcases hchunk : sv.chatChunk e parser data with - | ⟨out, p⟩
    · simp
    · rw [Option.bind_some, Option.isSome_map, sv.parser_of_chatChunk hchunk, ih]
      simp

/-- **When malformed JSON is survived.** No function raises an exception exactly on a body that all of
them can take: texts to count have a length, thinking blocks that are read are texts, what is written again
can be encoded, and counts are only added to numbers. -/
theorem survives_iff (e : Entry) (b : UpstreamBody) : sv.Survives e b ↔ sv.Digestible e b := by
  cases b with
  | whole body => exact sv.isSome_relayBody_iff e body
  | streamed chunks ending =>
    rw [Survives, Digestible, accumulate_ok_iff]
    refine and_congr_right fun hmeasurable ↦ ?_
    obtain ⟨acc, hacc⟩ := (accumulate_ok_iff sv.loads chunks ending).2 hmeasurable
    obtain ⟨last, hevents, hlast⟩ := callProviderStream_of_ok sv.loads hacc
    rw [hevents, isSome_relayEvents_iff]
    refine and_congr_right fun _ ↦ ?_
    cases ending with
    | broken error =>
      obtain ⟨error, status, retryable, mid, rfl⟩ := hlast
      exact iff_of_true rfl trivial
    | eof =>
      obtain ⟨usage, sent, rfl⟩ := hlast
      rw [relayEvents, Option.isSome_map, isSome_flushStreamChunk_iff]
      rfl

/-- A list has no `get`: where nothing is charged for cached input, the shift raises on the body `[]`. -/
theorem not_survives_list :
    ¬ (pricedService (py "[]") (.arr [])).Survives (plainEntry 0 (py "a") 1) (.whole (pyb "[]")) := by
  show ¬ ((pricedService (py "[]") (.arr [])).relayBody (plainEntry 0 (py "a") 1) (pyb "[]")).isSome
  decide +kernel

end Service

end LocalGateway
