import LocalGateway.Stream.Malformed

/-!
# Reasoning fields filled in once

`normalize_delta` finds the reasoning text of a delta and puts it under the two names that have no value yet;
`_normalize_obj` does so for the deltas of the choices and for the object itself. This file says what is left of
an object: everything, but for empty values under the two names.

* `normalizeObj_settled`: a second pass changes nothing.
* `Filled`: entries keep their places and their values, unless they stand under one of the two names and are
  empty; new entries have one of the two names. `normalizeObj_filled` says so for each delta, for the choices that
  hold them and for the object.
-/

namespace LocalGateway

open Py Json

/-! ### A second pass -/

/-- The two names under which a client looks for the reasoning text. -/
def reasoningTargets : List PyStr :=
  [py "reasoning_content", py "reasoning"]

/-- A field that is filled in is true. -/
theorem truthy_fillField {value : PyStr} (hvalue : value ≠ []) (delta : PyDict) (target : PyStr) :
    (get? (fillField value delta target) target).any truthy = true := by
  rw [fillField]
  split_ifs with hfull
  · exact hfull
  · rw [get?_setKey, if_pos rfl]
    simpa [truthy] using hvalue

/-- A field that is true stays as it is. -/
theorem fillField_of_truthy {value : PyStr} {delta : PyDict} {target : PyStr}
    (h : (get? delta target).any truthy = true) : fillField value delta target = delta :=
  if_pos h

/-- What a field of a normalised delta is: what it was, or a text that is not empty. -/
theorem get?_fillField_cases {value : PyStr} (hvalue : value ≠ []) (delta : PyDict) (target k : PyStr) :
    get? (fillField value delta target) k = get? delta k ∨
      ∃ c t, get? (fillField value delta target) k = some (.str (c :: t)) := by
  rw [fillField]
  split_ifs
  · exact .inl rfl
  · rw [get?_setKey]
    split_ifs
    · obtain ⟨c, t, rfl⟩ := List.exists_cons_of_ne_nil hvalue
      exact .inr ⟨c, t, rfl⟩
    · exact .inl rfl

/-- Fields that are filled in with texts can be read. -/
theorem legibleFrom_of_filled {delta delta' : PyDict} {keys : List PyStr} (h : LegibleFrom delta keys)
    (hkeys : ∀ key ∈ keys, get? delta' key = get? delta key ∨ ∃ c t, get? delta' key = some (.str (c :: t))) :
    LegibleFrom delta' keys := by
  induction keys with
  | nil => trivial
  | cons key keys ih =>
    obtain ⟨hkey, hrest⟩ := List.forall_mem_cons.1 hkeys
    rcases hkey with hsame | ⟨c, t, htext⟩
    · rw [LegibleFrom, hsame]
      exact ⟨h.1, fun htextless ↦ ih (h.2 htextless) hrest⟩
    · rw [LegibleFrom, htext]
      exact ⟨fun part hpart ↦ absurd hpart List.not_mem_nil, fun htextless ↦ absurd htextless (List.cons_ne_nil c t)⟩

/-- What `normalize_delta` makes of a delta. -/
theorem normalizeDelta_eq_some {delta delta' : PyDict} {changed : Bool}
    (h : normalizeDelta delta = some (delta', changed)) : delta' = delta ∧ changed = false ∨
      ∃ value, value ≠ [] ∧ delta' = reasoningTargets.foldl (fillField value) delta ∧
        changed = reasoningTargets.any fun target ↦ !(get? delta target).any truthy := by
  rcases hfind : findReasoning delta reasoningKeys with - | ⟨- | ⟨c, t⟩⟩
  all_goals rw [normalizeDelta, hfind] at h
  · cases h
  · obtain ⟨rfl, rfl⟩ := Prod.mk.inj (Option.some.inj h)
    exact .inl ⟨rfl, rfl⟩
  · obtain ⟨rfl, rfl⟩ := Prod.mk.inj (Option.some.inj h)
    exact .inr ⟨c :: t, List.cons_ne_nil c t, rfl, rfl⟩

/-- A delta with both names filled in is not changed. -/
theorem normalizeDelta_of_full {delta : PyDict} (hlegible : Legible delta)
    (hfull : ∀ target ∈ reasoningTargets, (get? delta target).any truthy = true) :
    normalizeDelta delta = some (delta, false) := by
  rcases normalizeDelta_cases delta with ⟨-, hnot⟩ | ⟨delta', changed, h, -⟩
  · exact absurd hlegible hnot
  · rw [h]
    rcases normalizeDelta_eq_some h with ⟨rfl, rfl⟩ | ⟨value, -, rfl, rfl⟩
    · rfl
    · have hcontent := hfull (py "reasoning_content") (by decide)
      have hreasoning := hfull (py "reasoning") (by decide)
      simp only [reasoningTargets, List.foldl_cons, List.foldl_nil, List.any_cons, List.any_nil, hcontent, hreasoning,
        fillField_of_truthy hcontent, fillField_of_truthy hreasoning]
      rfl

/-- **A delta is normalised once.** -/
theorem normalizeDelta_settled {delta delta' : PyDict} {changed : Bool}
    (h : normalizeDelta delta = some (delta', changed)) : normalizeDelta delta' = some (delta', false) := by
  rcases normalizeDelta_eq_some h with ⟨rfl, rfl⟩ | ⟨value, hvalue, hdelta', -⟩
  · exact h
  · have hlegible : Legible delta := by
      rcases normalizeDelta_cases delta with ⟨hnone, -⟩ | ⟨-, -, -, hlegible, -⟩
      · rw [hnone] at h
        cases h
      · exact hlegible
    have hfill : delta' = fillField value (fillField value delta (py "reasoning_content")) (py "reasoning") := hdelta'
    rw [hfill]
    refine normalizeDelta_of_full (legibleFrom_of_filled hlegible fun key _ ↦ ?_) fun target htarget ↦ ?_
    · rcases get?_fillField_cases hvalue (fillField value delta (py "reasoning_content")) (py "reasoning") key with
        hsame | htext
      · rw [hsame]
        exact get?_fillField_cases hvalue delta (py "reasoning_content") key
      · exact .inr htext
    · rcases List.mem_pair.1 htarget with rfl | rfl
      · rw [get?_fillField _ _ (by decide)]
        exact truthy_fillField hvalue _ _
      · exact truthy_fillField hvalue _ _

/-- The delta under a field has been normalised. -/
def SettledField (choice : PyDict) (field : PyStr) : Prop :=
  ∀ delta, dictAt choice field = some delta → normalizeDelta delta = some (delta, false)

theorem dictAt_eq_some_iff {d : PyDict} {k : PyStr} {e : PyDict} : dictAt d k = some e ↔ get? d k = some (.obj e) := by
  unfold dictAt
  rcases get? d k with - | v
  · simp
  · cases v <;> simp

/-- A field that holds no delta is passed over. -/
theorem normalizeField_of_dictAt_none {choice : PyDict} {field : PyStr} (h : dictAt choice field = none) :
    normalizeField choice field = some (choice, false) := by
  unfold normalizeField
  split
  · rename_i delta hdelta
    rw [dictAt_eq_some_iff.2 hdelta] at h
    cases h
  · rfl

theorem normalizeField_of_dictAt {choice delta : PyDict} {field : PyStr} (h : dictAt choice field = some delta) :
    normalizeField choice field =
      (normalizeDelta delta).map fun r ↦ (setKey choice field (.obj r.1), r.2) := by
  rw [normalizeField, dictAt_eq_some_iff.1 h]

theorem SettledField.normalizeField {choice : PyDict} {field : PyStr} (h : SettledField choice field) :
    normalizeField choice field = some (choice, false) := by
  rcases hdelta : dictAt choice field with - | delta
  · exact normalizeField_of_dictAt_none hdelta
  · rw [normalizeField_of_dictAt hdelta, h delta hdelta, Option.map_some, setKey_of_get? (dictAt_eq_some_iff.1 hdelta)]

theorem settledField_of_normalizeField {choice choice' : PyDict} {field : PyStr} {changed : Bool}
    (h : normalizeField choice field = some (choice', changed)) : SettledField choice' field := by
  rcases hdelta : dictAt choice field with - | delta
  · rw [normalizeField_of_dictAt_none hdelta] at h
    obtain rfl := (Prod.mk.inj (Option.some.inj h)).1
    intro delta hdelta'
    rw [hdelta] at hdelta'
    cases hdelta'
  · rw [normalizeField_of_dictAt hdelta] at h
    obtain ⟨r, hr, heq⟩ := Option.map_eq_some_iff.1 h
    obtain rfl := (Prod.mk.inj heq).1
    intro delta' hdelta'
    rw [dictAt_eq_some_iff, get?_setKey, if_pos rfl] at hdelta'
    obtain rfl : r.1 = delta' := by simpa using hdelta'
    exact normalizeDelta_settled hr

/-- The choices are normalised once. -/
theorem normalizeChoices_settled {choices choices' : List Json} {changed : Bool}
    (h : normalizeChoices choices = some (choices', changed)) :
    normalizeChoices choices' = some (choices', false) := by
  induction choices generalizing choices' changed with
  | nil =>
    obtain rfl := (Prod.mk.inj (Option.some.inj h)).1
    rfl
  | cons choice choices ih =>
    cases choice with
    | obj choice =>
      rw [normalizeChoices_cons_obj] at h
      obtain ⟨r, hr, h⟩ := Option.bind_eq_some_iff.1 h
      obtain ⟨⟨first, more⟩, hfirst, hr⟩ := Option.bind_eq_some_iff.1 hr
      obtain ⟨⟨second, more'⟩, hsecond, rfl⟩ := Option.map_eq_some_iff.1 hr
      obtain ⟨⟨rest, more''⟩, hrest, heq⟩ := Option.map_eq_some_iff.1 h
      obtain rfl := (Prod.mk.inj heq).1
      -- the second field leaves the first as it is
      have hdelta : SettledField second (py "delta") := fun delta hdelta ↦ by
        rw [dictAt_eq_some_iff, get?_normalizeField hsecond (by decide), ← dictAt_eq_some_iff] at hdelta
        exact settledField_of_normalizeField hfirst delta hdelta
      rw [normalizeChoices_cons_obj, hdelta.normalizeField, Option.bind_some,
        (settledField_of_normalizeField hsecond).normalizeField, Option.map_some, Option.bind_some, ih hrest]
      rfl
    | _ =>
      obtain ⟨⟨rest, more⟩, hrest, heq⟩ := Option.map_eq_some_iff.1 h
      obtain rfl := (Prod.mk.inj heq).1
      rw [normalizeChoices, ih hrest]
      · rfl
      · intro choice hchoice
        cases hchoice

/-- The choices of an object, if it has a list of them. -/
def choicesOf (d : PyDict) : Option (List Json) :=
  match get? d (py "choices") with
  | some (.arr choices) => some choices
  | _ => none

theorem choicesOf_eq_some_iff {d : PyDict} {choices : List Json} :
    choicesOf d = some choices ↔ get? d (py "choices") = some (.arr choices) := by
  unfold choicesOf
  rcases get? d (py "choices") with - | v
  · simp
  · cases v <;> simp

theorem normalizeObj_of_choicesOf_none {d : PyDict} (h : choicesOf d = none) :
    normalizeObj d = normalizeDelta d := by
  have hnone : ∀ choices, get? d (py "choices") ≠ some (.arr choices) := fun choices hget ↦ by
    rw [choicesOf_eq_some_iff.2 hget] at h
    cases h
  unfold normalizeObj
  split
  · rename_i choices hget
    exact absurd hget (hnone choices)
  · rcases hdelta : normalizeDelta d with - | s <;> simp [hdelta]

theorem normalizeObj_of_choicesOf {d : PyDict} {choices : List Json} (h : choicesOf d = some choices) :
    normalizeObj d = (normalizeChoices choices).bind fun r ↦
      (normalizeDelta (setKey d (py "choices") (.arr r.1))).map fun s ↦ (s.1, r.2 || s.2) := by
  rw [normalizeObj, choicesOf_eq_some_iff.1 h]
  dsimp only
  rcases normalizeChoices choices with - | r
  · rfl
  · rcases hdelta : normalizeDelta (setKey d (py "choices") (.arr r.1)) with - | s <;> simp [hdelta]

/-- **An object is normalised once.** -/
theorem normalizeObj_settled {d d' : PyDict} {changed : Bool} (h : normalizeObj d = some (d', changed)) :
    normalizeObj d' = some (d', false) := by
  have hchoices : ∀ {e : PyDict} {changed : Bool}, normalizeDelta e = some (d', changed) →
      choicesOf d' = choicesOf e := fun {e changed} h ↦ by
    rw [choicesOf, choicesOf, get?_normalizeDelta h (by decide)]
  rcases hd : choicesOf d with - | choices
  · rw [normalizeObj_of_choicesOf_none hd] at h
    rw [normalizeObj_of_choicesOf_none ((hchoices h).trans hd), normalizeDelta_settled h]
  · rw [normalizeObj_of_choicesOf hd] at h
    obtain ⟨⟨choices', more⟩, hlist, h⟩ := Option.bind_eq_some_iff.1 h
    obtain ⟨⟨e, more'⟩, hself, heq⟩ := Option.map_eq_some_iff.1 h
    obtain rfl : e = d' := (Prod.mk.inj heq).1
    have hd' : choicesOf e = some choices' := by
      rw [hchoices hself, choicesOf_eq_some_iff, get?_setKey, if_pos rfl]
    rw [normalizeObj_of_choicesOf hd', normalizeChoices_settled hlist, Option.bind_some,
      setKey_of_get? (choicesOf_eq_some_iff.1 hd'), normalizeDelta_settled hself]
    rfl

/-! ### What a pass leaves -/

/-- What becomes of an entry: it is kept, or is empty under one of the two names and filled in. -/
def FilledEntry (e e' : PyStr × Json) : Prop :=
  e' = e ∨ e.1 ∈ reasoningTargets ∧ e.2.truthy = false ∧ ∃ text, e' = (e.1, .str text)

/-- What becomes of the entries of a dictionary that is filled in: they keep their places and their values, but for
empty ones under the two names, and the entries that are added have these names. -/
def Filled (delta delta' : PyDict) : Prop :=
  ∃ kept more, delta' = kept ++ more ∧ List.Forall₂ FilledEntry delta kept ∧
    ∀ e ∈ more, e.1 ∈ reasoningTargets ∧ hasKey delta e.1 = false ∧ ∃ text, e.2 = .str text

/-- A dictionary with a change that keeps the places of the entries. -/
def Replaced (R : PyStr → Json → Json → Prop) (d d' : PyDict) : Prop :=
  List.Forall₂ (fun e e' ↦ e' = e ∨ e'.1 = e.1 ∧ R e.1 e.2 e'.2) d d'

/-- What becomes of a choice: its deltas are filled in. -/
inductive FilledChoice : Json → Json → Prop
  | keep (choice : Json) : FilledChoice choice choice
  | fill {choice choice' : PyDict}
      (h : Replaced (fun key v v' ↦ key ∈ deltaFields ∧ ∃ delta delta', v = .obj delta ∧ v' = .obj delta' ∧
        Filled delta delta') choice choice') :
      FilledChoice (.obj choice) (.obj choice')

/-- What becomes of an object: the deltas of its choices are filled in, and it is itself. -/
def FilledObj (d d' : PyDict) : Prop :=
  ∃ e, Replaced (fun key v v' ↦ key = py "choices" ∧ ∃ choices choices', v = .arr choices ∧ v' = .arr choices' ∧
    List.Forall₂ FilledChoice choices choices') d e ∧ Filled e d'

theorem Replaced.refl (R : PyStr → Json → Json → Prop) (d : PyDict) : Replaced R d d :=
  List.forall₂_same.2 fun _ _ ↦ .inl rfl

/-- An entry that is set to another value. -/
theorem Replaced.setKey {R : PyStr → Json → Json → Prop} {d : PyDict} {k : PyStr} {v w : Json}
    (hold : get? d k = some v) (h : R k v w) : Replaced R d (setKey d k w) := by
  induction d with
  | nil => cases hold
  | cons e d ih =>
    obtain ⟨l, u⟩ := e
    rw [Json.setKey]
    by_cases hl : l = k
    · subst hl
      obtain rfl : u = v := by simpa [get?] using hold
      rw [if_pos rfl]
      exact .cons (.inr ⟨rfl, h⟩) (Replaced.refl R d)
    · have hne : (k == l) = false := by simpa using Ne.symm hl
      rw [if_neg hl]
      exact .cons (.inl rfl) (ih (by simpa [get?, List.lookup_cons, hne] using hold))

theorem FilledEntry.key {e e' : PyStr × Json} (h : FilledEntry e e') : e'.1 = e.1 := by
  rcases h with rfl | ⟨-, -, text, rfl⟩
  · rfl
  · rfl

theorem hasKey_cons (e : PyStr × Json) (d : PyDict) (k : PyStr) :
    hasKey (e :: d) k = (decide (e.1 = k) || hasKey d k) := by
  obtain ⟨l, w⟩ := e
  by_cases hl : k = l
  · subst hl
    simp [hasKey, get?]
  · have hne : (k == l) = false := by simpa using hl
    simp [hasKey, get?, List.lookup_cons, hne, Ne.symm hl]

/-- A field is set in the first of two parts that has it, or else in the second. -/
theorem setKey_append (d e : PyDict) (k : PyStr) (v : Json) :
    setKey (d ++ e) k v = if hasKey d k then setKey d k v ++ e else d ++ setKey e k v := by
  induction d with
  | nil => rfl
  | cons first d ih =>
    obtain ⟨l, w⟩ := first
    rw [List.cons_append, setKey, ih, hasKey_cons, setKey]
    by_cases hl : l = k
    · rw [if_pos hl, if_pos hl, if_pos (by simp [hl])]
      rfl
    · rw [if_neg hl, if_neg hl, decide_eq_false hl, Bool.false_or]
      split_ifs
      · rfl
      · rfl

/-- One field that is filled in among the entries that were there. -/
theorem forall₂_filledEntry_setKey {delta kept : PyDict} (h : List.Forall₂ FilledEntry delta kept) {target : PyStr}
    (htarget : target ∈ reasoningTargets) (hempty : (get? kept target).any truthy = false)
    (hkey : hasKey kept target = true) (text : PyStr) :
    List.Forall₂ FilledEntry delta (setKey kept target (.str text)) := by
  induction h with
  | nil => cases hkey
  | @cons e e' delta kept he hrest ih =>
    obtain ⟨k, v⟩ := e
    obtain ⟨l, w⟩ := e'
    obtain rfl : l = k := he.key
    rw [setKey]
    split_ifs with hl
    · -- the entry is empty, as it was or by the replacement before
      refine .cons (.inr ⟨hl ▸ htarget, ?_, text, rfl⟩) hrest
      rcases he with heq | ⟨-, hfalsy, -⟩
      · obtain rfl : w = v := congrArg Prod.snd heq
        subst hl
        simpa [get?] using hempty
      · exact hfalsy
    · have hne : (target == l) = false := by simpa using Ne.symm hl
      rw [hasKey_cons, decide_eq_false hl, Bool.false_or] at hkey
      exact .cons he (ih (by simpa [get?, List.lookup_cons, hne] using hempty) hkey)

theorem hasKey_of_forall₂ {delta kept : PyDict} (h : List.Forall₂ FilledEntry delta kept) (k : PyStr) :
    hasKey kept k = hasKey delta k := by
  induction h with
  | nil => rfl
  | cons he _ ih => rw [hasKey_cons, hasKey_cons, he.key, ih]

theorem mem_setKey {d : PyDict} {k : PyStr} {v : Json} {e : PyStr × Json} (h : e ∈ setKey d k v) :
    e ∈ d ∨ e = (k, v) := by
  induction d with
  | nil => exact .inr (List.mem_singleton.1 h)
  | cons first d ih =>
    obtain ⟨l, w⟩ := first
    rw [setKey] at h
    split_ifs at h with hl
    · rcases List.mem_cons.1 h with rfl | h
      · exact .inr (by rw [hl])
      · exact .inl (List.mem_cons_of_mem _ h)
    · rcases List.mem_cons.1 h with rfl | h
      · exact .inl List.mem_cons_self
      · exact (ih h).imp_left (List.mem_cons_of_mem _)

/-- One field that is filled in. -/
theorem Filled.fillField {delta delta' : PyDict} (h : Filled delta delta') (value : PyStr) {target : PyStr}
    (htarget : target ∈ reasoningTargets) : Filled delta (fillField value delta' target) := by
  unfold LocalGateway.fillField
  split_ifs with hfull
  · exact h
  · obtain ⟨kept, more, rfl, hkept, hmore⟩ := h
    rw [setKey_append]
    split_ifs with hkey
    · refine ⟨_, more, rfl, forall₂_filledEntry_setKey hkept htarget ?_ hkey value, hmore⟩
      rw [Bool.not_eq_true, get?, List.lookup_append] at hfull
      rcases hget : get? kept target with - | w
      · rw [hasKey, hget] at hkey
        cases hkey
      · have hlookup : kept.lookup target = some w := hget
        simpa [hlookup] using hfull
    · refine ⟨kept, _, rfl, hkept, fun e he ↦ ?_⟩
      rcases mem_setKey he with he | rfl
      · exact hmore e he
      · refine ⟨htarget, ?_, value, rfl⟩
        rw [← hasKey_of_forall₂ hkept]
        exact Bool.eq_false_iff.2 hkey

theorem Filled.refl (delta : PyDict) : Filled delta delta :=
  ⟨delta, [], (List.append_nil _).symm, List.forall₂_same.2 fun _ _ ↦ .inl rfl, fun _ h ↦ absurd h List.not_mem_nil⟩

theorem normalizeDelta_filled {delta delta' : PyDict} {changed : Bool}
    (h : normalizeDelta delta = some (delta', changed)) : Filled delta delta' := by
  rcases normalizeDelta_eq_some h with ⟨rfl, -⟩ | ⟨value, -, rfl, -⟩
  · exact Filled.refl delta'
  · exact ((Filled.refl delta).fillField value (by decide)).fillField value (by decide)

theorem normalizeField_filled {choice choice' : PyDict} {field : PyStr} {changed : Bool}
    (h : normalizeField choice field = some (choice', changed)) :
    Replaced (fun key v v' ↦ key = field ∧ ∃ delta delta', v = .obj delta ∧ v' = .obj delta' ∧ Filled delta delta')
      choice choice' := by
  rcases hdelta : dictAt choice field with - | delta
  · rw [normalizeField_of_dictAt_none hdelta] at h
    obtain rfl := (Prod.mk.inj (Option.some.inj h)).1
    exact Replaced.refl _ _
  · rw [normalizeField_of_dictAt hdelta] at h
    obtain ⟨r, hr, heq⟩ := Option.map_eq_some_iff.1 h
    obtain rfl := (Prod.mk.inj heq).1
    exact Replaced.setKey (dictAt_eq_some_iff.1 hdelta) ⟨rfl, delta, r.1, rfl, rfl, normalizeDelta_filled hr⟩

/-- One change after the other, of entries under different keys. -/
theorem Replaced.trans {R S T : PyStr → Json → Json → Prop} {c d e : PyDict} (h : Replaced R c d)
    (h' : Replaced S d e) (hleft : ∀ key v v', R key v v' → T key v v') (hright : ∀ key v v', S key v v' → T key v v')
    (hapart : ∀ key v v' w w', R key v v' → ¬ S key w w') : Replaced T c e := by
  refine (forall₂_trans h h').imp ?_
  rintro ⟨k, v⟩ ⟨l, w⟩ ⟨⟨m, u⟩, hfirst, hsecond⟩
  rcases hfirst with hfirst | ⟨hkey, hvalue⟩
  · obtain ⟨rfl, rfl⟩ := Prod.mk.inj hfirst
    exact hsecond.imp_right (And.imp_right (hright _ _ _))
  · dsimp only at hkey
    subst hkey
    rcases hsecond with hsecond | ⟨-, hvalue'⟩
    · obtain ⟨rfl, rfl⟩ := Prod.mk.inj hsecond
      exact .inr ⟨rfl, hleft _ _ _ hvalue⟩
    · exact absurd hvalue' (hapart _ _ _ _ _ hvalue)

theorem normalizeChoices_filled {choices choices' : List Json} {changed : Bool}
    (h : normalizeChoices choices = some (choices', changed)) : List.Forall₂ FilledChoice choices choices' := by
  induction choices generalizing choices' changed with
  | nil =>
    obtain rfl := (Prod.mk.inj (Option.some.inj h)).1
    exact .nil
  | cons choice choices ih =>
    cases choice with
    | obj choice =>
      rw [normalizeChoices_cons_obj] at h
      obtain ⟨r, hr, h⟩ := Option.bind_eq_some_iff.1 h
      obtain ⟨⟨first, more⟩, hfirst, hr⟩ := Option.bind_eq_some_iff.1 hr
      obtain ⟨⟨second, more'⟩, hsecond, rfl⟩ := Option.map_eq_some_iff.1 hr
      obtain ⟨⟨rest, more''⟩, hrest, heq⟩ := Option.map_eq_some_iff.1 h
      obtain rfl := (Prod.mk.inj heq).1
      refine .cons (.fill ((normalizeField_filled hfirst).trans (normalizeField_filled hsecond) ?_ ?_ ?_)) (ih hrest)
      · rintro key v v' ⟨rfl, h⟩
        exact ⟨by decide, h⟩
      · rintro key v v' ⟨rfl, h⟩
        exact ⟨by decide, h⟩
      · rintro key v v' w w' ⟨rfl, -⟩ ⟨h, -⟩
        exact absurd h (by decide)
    | _ =>
      obtain ⟨⟨rest, more⟩, hrest, heq⟩ := Option.map_eq_some_iff.1 h
      obtain rfl := (Prod.mk.inj heq).1
      exact .cons (.keep _) (ih hrest)

/-- **An object is filled in**, and nothing else becomes of it. -/
theorem normalizeObj_filled {d d' : PyDict} {changed : Bool} (h : normalizeObj d = some (d', changed)) :
    FilledObj d d' := by
  rcases hd : choicesOf d with - | choices
  · rw [normalizeObj_of_choicesOf_none hd] at h
    exact ⟨d, Replaced.refl _ d, normalizeDelta_filled h⟩
  · rw [normalizeObj_of_choicesOf hd] at h
    obtain ⟨⟨choices', more⟩, hlist, h⟩ := Option.bind_eq_some_iff.1 h
    obtain ⟨⟨e, more'⟩, hself, heq⟩ := Option.map_eq_some_iff.1 h
    obtain rfl : e = d' := (Prod.mk.inj heq).1
    exact ⟨_, Replaced.setKey (choicesOf_eq_some_iff.1 hd)
      ⟨rfl, choices, choices', rfl, rfl, normalizeChoices_filled hlist⟩, normalizeDelta_filled hself⟩

/-- An object with a reasoning field to be filled in, which can be read. -/
def Fillable (d : PyDict) : Prop :=
  (∀ delta ∈ deltas d, Legible delta) ∧ ∃ delta ∈ deltas d, Unfilled delta

theorem fillable_iff {d : PyDict} : Fillable d ↔ ∃ d', normalizeObj d = some (d', true) := by
  rcases normalizeObj_cases d with ⟨hnone, hnot⟩ | ⟨d', changed, hsome, hlegible, hchanged, -⟩
  · rw [hnone]
    exact iff_of_false (fun h ↦ hnot h.1) fun ⟨_, h⟩ ↦ by cases h
  · rw [hsome, Fillable, and_iff_right hlegible, ← hchanged]
    exact ⟨fun h ↦ ⟨d', by rw [h]⟩, fun ⟨_, h⟩ ↦ (Prod.mk.inj (Option.some.inj h)).2⟩

/-- An object whose reasoning fields are texts or blocks of texts is normalised. -/
theorem normalizeObj_isSome {d : PyDict} (h : ∀ delta ∈ deltas d, Legible delta) : (normalizeObj d).isSome := by
  rcases normalizeObj_cases d with ⟨-, hnot⟩ | ⟨d', changed, hsome, -⟩
  · exact absurd h hnot
  · rw [hsome]
    rfl

end LocalGateway
