import LocalGateway.Python.Pydantic

/-!
# Lax validation

What the validation library does with a value that does not have the declared type as it stands: for
numbers and truth values there is a table of conversions, an optional attribute takes `None` besides, and
the items of a list and the keys and values of a dictionary are validated one by one. Which texts are
numbers, and which floats are whole, the library decides (`Readers`).

* `Pydantic.Lax`: the library follows the table.
* `Pydantic.lax`: a library that does.
-/

open Py Json

/-! ### The table -/

/-- How the library reads numbers and truth values. -/
structure Readers where
  /-- The integer that a float without a fractional part is. -/
  whole : PyFloat → Option ℤ
  /-- The integer that a text is. -/
  integer : PyStr → Option ℤ
  /-- The float that a text is. -/
  number : PyStr → Option PyFloat
  /-- The truth value that a text is. -/
  truth : PyStr → Option Bool
  /-- The float that an integer is. -/
  real : ℤ → Option PyFloat

/-- What a value of another type is turned into. -/
def Readers.convert (r : Readers) : FieldType → Json → Option Json
  | .int, .bool b => some (.int (if b then 1 else 0))
  | .int, .float x => (r.whole x).map .int
  | .int, .str s => (r.integer s).map .int
  | .float, .bool b => some (.float (.fin (if b then 1 else 0)))
  | .float, .int n => (r.real n).map .float
  | .float, .str s => (r.number s).map .float
  | .bool, .int n => if n = 0 then some (.bool false) else if n = 1 then some (.bool true) else none
  | .bool, .float x =>
    if x = .fin 0 ∨ x = .negZero then some (.bool false) else if x = .fin 1 then some (.bool true) else none
  | .bool, .str s => (r.truth s).map .bool
  | _, _ => none

/-- The entries of a dictionary, each key and each value validated. -/
def coerceEntries (key : PyStr → Bool) (f : Json → Option Json) : PyDict → Option PyDict
  | [] => some []
  | (k, v) :: d =>
    if key k then do
      let w ← f v
      let rest ← coerceEntries key f d
      pure ((k, w) :: rest)
    else none

/-- The items of a JSON array. -/
def coerceArray (f : Json → Option Json) : Json → Option Json
  | .arr xs => (validateItems f xs).map .arr
  | _ => none

/-- The entries of a JSON object. -/
def coerceObject (key : PyStr → Bool) (f : Json → Option Json) : Json → Option Json
  | .obj d => (coerceEntries key f d).map .obj
  | _ => none

/-- The type that an optional attribute has if it is not `None`. -/
def FieldType.base : FieldType → FieldType
  | .optStr => .str
  | .optInt => .int
  | .optBool => .bool
  | .optFloat => .float
  | t => t

/-- The library takes the text. -/
def Pydantic.takesText (p : Pydantic) (s : PyStr) : Bool :=
  (p.coerce .str (.str s)).isSome

/-- The library follows the table. -/
structure Pydantic.Lax (p : Pydantic) (r : Readers) : Prop where
  int : ∀ v, v.isInt = false → p.coerce .int v = r.convert .int v
  float : ∀ v, v.isFloat = false → p.coerce .float v = r.convert .float v
  bool : ∀ v, v.isBool = false → p.coerce .bool v = r.convert .bool v
  optional : ∀ t v, v ≠ .null → p.coerce t v = p.coerce t.base v
  listStr : ∀ v, p.coerce .listStr v = coerceArray (p.coerce .str) v
  dictBool : ∀ v, p.coerce .dictBool v = coerceObject p.takesText (p.coerce .bool) v
  dictAny : ∀ v, p.coerce .dictAny v = coerceObject p.takesText some v

/-! ### Items and entries that are taken as they are -/

theorem validateItems_eq_self_iff {f : Json → Option Json} {xs : List Json} :
    validateItems f xs = some xs ↔ ∀ x ∈ xs, f x = some x := by
  induction xs with
  | nil => simp [validateItems]
  | cons x xs ih =>
    rw [List.forall_mem_cons, ← ih, validateItems]
    rcases f x with - | y <;> rcases validateItems f xs with - | ys <;> simp

theorem coerceEntries_eq_self_iff {key : PyStr → Bool} {f : Json → Option Json} {d : PyDict} :
    coerceEntries key f d = some d ↔ ∀ e ∈ d, key e.1 = true ∧ f e.2 = some e.2 := by
  induction d with
  | nil => simp [coerceEntries]
  | cons e d ih =>
    obtain ⟨k, v⟩ := e
    rw [List.forall_mem_cons, ← ih, coerceEntries]
    by_cases hk : key k = true
    · rw [if_pos hk]
      rcases f v with - | w <;> rcases coerceEntries key f d with - | rest <;> simp [hk]
    · rw [if_neg hk]
      simp [hk]

/-- What is true of every value is true of the validated entries. -/
theorem coerceEntries_forall {key : PyStr → Bool} {f : Json → Option Json} {P : Json → Prop}
    (hf : ∀ v w, f v = some w → P w) {d d' : PyDict} (h : coerceEntries key f d = some d') :
    ∀ e ∈ d', P e.2 := by
  induction d generalizing d' with
  | nil =>
    obtain rfl : [] = d' := by simpa [coerceEntries] using h
    simp
  | cons e d ih =>
    obtain ⟨k, v⟩ := e
    rw [coerceEntries] at h
    split_ifs at h
    simp only [Option.bind_eq_bind, Option.bind_eq_some_iff, Option.pure_def, Option.some.injEq] at h
    obtain ⟨w, hw, rest, hrest, rfl⟩ := h
    exact List.forall_mem_cons.2 ⟨hf v w hw, ih hrest⟩

/-! ### A lax library -/

section Library

variable (r : Readers)

/-- A number or a truth value. -/
def Readers.scalar (t : FieldType) (v : Json) : Option Json :=
  if t.hasType v then some v else r.convert t v

/-- A text. -/
def laxText (v : Json) : Option Json :=
  if v.isStr ∧ v.encodable then some v else none

/-- An optional value. -/
def orNull (f : Json → Option Json) (v : Json) : Option Json :=
  if v = .null then some .null else f v

/-- The value that an attribute takes, by its type. -/
def Readers.coerce : FieldType → Json → Option Json
  | .str => laxText
  | .optStr => orNull laxText
  | .int => r.scalar .int
  | .optInt => orNull (r.scalar .int)
  | .intIn lo hi => fun v ↦ (r.scalar .int v).filter (FieldType.intIn lo hi).hasType
  | .bool => r.scalar .bool
  | .optBool => orNull (r.scalar .bool)
  | .float => r.scalar .float
  | .optFloat => orNull (r.scalar .float)
  | .listStr => coerceArray laxText
  | .listInt => coerceArray (r.scalar .int)
  | .dictBool => coerceObject textOk (r.scalar .bool)
  | .dictStr => coerceObject textOk laxText
  | .dictAny => coerceObject textOk some

variable {r}

theorem laxText_eq_some_iff {v w : Json} :
    laxText v = some w ↔ v = w ∧ v.isStr = true ∧ v.encodable = true := by
  unfold laxText
  split_ifs with h
  · simp [h]
  · simp only [false_iff, not_and]
    exact fun _ hstr henc ↦ h ⟨hstr, henc⟩

theorem Readers.scalar_self {t : FieldType} {v : Json} (h : t.hasType v = true) :
    r.scalar t v = some v :=
  if_pos h

/-- A conversion yields a value of the type. -/
theorem Readers.hasType_of_convert {t : FieldType} {v w : Json} (h : r.convert t v = some w) :
    t.hasType w = true := by
  have hmap : ∀ {α : Type} {x : Option α} {f : α → Json}, (∀ a, t.hasType (f a) = true) →
      x.map f = some w → t.hasType w = true := by
    rintro α x f hf hx
    obtain ⟨a, -, rfl⟩ := Option.map_eq_some_iff.1 hx
    exact hf a
  unfold Readers.convert at h
  split at h
  · exact Option.some.inj h ▸ rfl
  · exact hmap (fun _ ↦ rfl) h
  · exact hmap (fun _ ↦ rfl) h
  · exact Option.some.inj h ▸ rfl
  · exact hmap (fun _ ↦ rfl) h
  · exact hmap (fun _ ↦ rfl) h
  · split_ifs at h <;> exact Option.some.inj h ▸ rfl
  · split_ifs at h <;> exact Option.some.inj h ▸ rfl
  · exact hmap (fun _ ↦ rfl) h
  · cases h

theorem Readers.hasType_of_scalar {t : FieldType} {v w : Json} (h : r.scalar t v = some w) :
    t.hasType w = true := by
  unfold Readers.scalar at h
  split_ifs at h with htype
  · exact Option.some.inj h ▸ htype
  · exact Readers.hasType_of_convert h

theorem hasType_of_orNull {f : Json → Option Json} {t base : FieldType} (hnull : t.hasType .null = true)
    (hbase : ∀ w, base.hasType w = true → t.hasType w = true) (hf : ∀ v w, f v = some w → base.hasType w = true)
    {v w : Json} (h : orNull f v = some w) : t.hasType w = true := by
  unfold orNull at h
  split_ifs at h
  · exact Option.some.inj h ▸ hnull
  · exact hbase w (hf v w h)

theorem orNull_self {f : Json → Option Json} {v : Json} (h : v ≠ .null → f v = some v) : orNull f v = some v := by
  unfold orNull
  split_ifs with hv
  · rw [hv]
  · exact h hv

/-- The items of a validated array. -/
theorem coerceArray_eq_some {f : Json → Option Json} {P : Json → Prop} (hf : ∀ v w, f v = some w → P w)
    {v w : Json} (h : coerceArray f v = some w) : ∃ ys, w = .arr ys ∧ ∀ y ∈ ys, P y := by
  unfold coerceArray at h
  split at h
  · obtain ⟨ys, hys, rfl⟩ := Option.map_eq_some_iff.1 h
    exact ⟨ys, rfl, validateItems_forall hf hys⟩
  · cases h

/-- The entries of a validated object. -/
theorem coerceObject_eq_some {key : PyStr → Bool} {f : Json → Option Json} {P : Json → Prop}
    (hf : ∀ v w, f v = some w → P w) {v w : Json} (h : coerceObject key f v = some w) :
    ∃ d, w = .obj d ∧ ∀ e ∈ d, P e.2 := by
  unfold coerceObject at h
  split at h
  · obtain ⟨d, hd, rfl⟩ := Option.map_eq_some_iff.1 h
    exact ⟨d, rfl, coerceEntries_forall hf hd⟩
  · cases h

theorem coerceArray_self {f : Json → Option Json} {xs : List Json} (h : ∀ x ∈ xs, f x = some x) :
    coerceArray f (.arr xs) = some (.arr xs) := by
  rw [coerceArray, validateItems_eq_self_iff.2 h]
  rfl

theorem coerceObject_self {key : PyStr → Bool} {f : Json → Option Json} {d : PyDict}
    (h : ∀ e ∈ d, key e.1 = true ∧ f e.2 = some e.2) : coerceObject key f (.obj d) = some (.obj d) := by
  rw [coerceObject, coerceEntries_eq_self_iff.2 h]
  rfl

/-- A value of the type that can be written is taken as it is. -/
theorem Readers.coerce_self {t : FieldType} {v : Json} (ht : t.hasType v = true)
    (he : v.encodable = true) : r.coerce t v = some v := by
  cases t with
  | str => exact laxText_eq_some_iff.2 ⟨rfl, ht, he⟩
  | optStr =>
    simp only [FieldType.hasType, Bool.or_eq_true, decide_eq_true_eq] at ht
    exact orNull_self fun hv ↦ laxText_eq_some_iff.2 ⟨rfl, ht.resolve_left hv, he⟩
  | int | bool | float => exact Readers.scalar_self ht
  | optInt | optBool | optFloat =>
    simp only [FieldType.hasType, Bool.or_eq_true, decide_eq_true_eq] at ht
    exact orNull_self fun hv ↦ Readers.scalar_self (ht.resolve_left hv)
  | intIn lo hi =>
    cases v with
    | int n => simp [Readers.coerce, Readers.scalar, FieldType.hasType, isInt, Option.filter] at ht ⊢; exact ht
    | _ => simp [FieldType.hasType] at ht
  | listStr =>
    cases v with
    | arr xs =>
      simp only [FieldType.hasType, List.all_eq_true] at ht
      exact coerceArray_self fun x hx ↦
        laxText_eq_some_iff.2 ⟨rfl, ht x hx, encodable_of_mem_list (by simpa [encodable] using he) hx⟩
    | _ => simp [FieldType.hasType] at ht
  | listInt =>
    cases v with
    | arr xs =>
      simp only [FieldType.hasType, List.all_eq_true] at ht
      exact coerceArray_self fun x hx ↦ Readers.scalar_self (ht x hx)
    | _ => simp [FieldType.hasType] at ht
  | dictBool =>
    cases v with
    | obj d =>
      simp only [FieldType.hasType, List.all_eq_true] at ht
      exact coerceObject_self fun e hmem ↦
        ⟨(encodable_of_mem_dict (by simpa [encodable] using he) hmem).1, Readers.scalar_self (ht e hmem)⟩
    | _ => simp [FieldType.hasType] at ht
  | dictStr =>
    cases v with
    | obj d =>
      simp only [FieldType.hasType, List.all_eq_true] at ht
      refine coerceObject_self fun e hmem ↦ ?_
      have hentry := encodable_of_mem_dict (by simpa [encodable] using he) hmem
      exact ⟨hentry.1, laxText_eq_some_iff.2 ⟨rfl, ht e hmem, hentry.2⟩⟩
    | _ => simp [FieldType.hasType] at ht
  | dictAny =>
    cases v with
    | obj d =>
      exact coerceObject_self fun e hmem ↦
        ⟨(encodable_of_mem_dict (by simpa [encodable] using he) hmem).1, rfl⟩
    | _ => simp [FieldType.hasType] at ht

/-- What is taken has the type. -/
theorem Readers.hasType_of_coerce {t : FieldType} {v w : Json} (h : r.coerce t v = some w) :
    t.hasType w = true := by
  have htext : ∀ v w, laxText v = some w → FieldType.str.hasType w = true := fun v w h ↦
    have hself := laxText_eq_some_iff.1 h
    hself.1 ▸ hself.2.1
  have hscalar : ∀ t v w, r.scalar t v = some w → t.hasType w = true := fun _ _ _ ↦
    Readers.hasType_of_scalar
  cases t with
  | str => exact htext v w h
  | optStr => exact hasType_of_orNull rfl (fun w hw ↦ by simp_all [FieldType.hasType]) htext h
  | int | bool | float => exact hscalar _ v w h
  | optInt => exact hasType_of_orNull rfl (fun w hw ↦ by simp_all [FieldType.hasType]) (hscalar .int) h
  | optBool => exact hasType_of_orNull rfl (fun w hw ↦ by simp_all [FieldType.hasType]) (hscalar .bool) h
  | optFloat =>
    exact hasType_of_orNull rfl (fun w hw ↦ by simp_all [FieldType.hasType]) (hscalar .float) h
  | intIn lo hi => exact (Option.filter_eq_some_iff.1 h).2
  | listStr =>
    obtain ⟨ys, rfl, hys⟩ := coerceArray_eq_some htext h
    exact List.all_eq_true.2 hys
  | listInt =>
    obtain ⟨ys, rfl, hys⟩ := coerceArray_eq_some (hscalar .int) h
    exact List.all_eq_true.2 hys
  | dictBool =>
    obtain ⟨d, rfl, hd⟩ := coerceObject_eq_some (hscalar .bool) h
    exact List.all_eq_true.2 hd
  | dictStr =>
    obtain ⟨d, rfl, hd⟩ := coerceObject_eq_some htext h
    exact List.all_eq_true.2 hd
  | dictAny =>
    obtain ⟨d, rfl, -⟩ := coerceObject_eq_some (P := fun _ ↦ True) (fun _ _ _ ↦ trivial) h
    rfl

variable (r)

/-- The library with these readers. -/
def Pydantic.lax : Pydantic where
  coerce := r.coerce
  errorText cls _ := cls
  accepts _ _ := Readers.coerce_self
  sound _ _ _ := Readers.hasType_of_coerce
  str_exact _ _ h := (laxText_eq_some_iff.1 h).1.symm

theorem Pydantic.lax_takesText (s : PyStr) : (Pydantic.lax r).takesText s = textOk s := by
  unfold Pydantic.takesText
  change (laxText (.str s)).isSome = textOk s
  unfold laxText
  split_ifs with h
  · simpa [isStr, encodable] using h.2.symm
  · simpa [isStr, encodable] using h

/-- **It follows the table.** -/
theorem Pydantic.lax_lax : (Pydantic.lax r).Lax r where
  int v h := if_neg (by simpa [FieldType.hasType] using h)
  float v h := if_neg (by simpa [FieldType.hasType] using h)
  bool v h := if_neg (by simpa [FieldType.hasType] using h)
  optional t v h := by cases t <;> first | rfl | exact if_neg h
  listStr v := rfl
  dictBool v := by
    rw [funext (Pydantic.lax_takesText r)]
    rfl
  dictAny v := by
    rw [funext (Pydantic.lax_takesText r)]
    rfl

end Library
