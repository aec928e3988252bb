import LocalGateway.Python.Json

/-!
# Validated objects

What the development relies on of the validation library. A class is a list of `FieldSpec`s; an
object of it is the dictionary of its attributes. Assigning to an attribute is not checked, so an
object need not satisfy its own class; validation from JSON is what produces one that does.

How a single value is accepted or coerced is the library's business and a parameter here,
`Pydantic`: its laws say that a value that already has the declared type, and can be written to a
file, is accepted as it is, and that what is accepted has the declared type.

`validateFields_self` is the round trip for one object: validating the dictionary of an object
whose attributes have their declared types gives the object back.
-/

open Py Json

/-! ### Types of attributes -/

/-- The types the configuration classes declare for single attributes. -/
inductive FieldType
  | str
  | optStr
  | int
  | optInt
  /-- `int` between two bounds. -/
  | intIn (lo hi : ℤ)
  | bool
  | optBool
  | float
  | optFloat
  | listStr
  | listInt
  | dictBool
  | dictStr
  | dictAny
deriving DecidableEq

namespace Json

def isStr : Json → Bool
  | .str _ => true
  | _ => false

def isInt : Json → Bool
  | .int _ => true
  | _ => false

def isBool : Json → Bool
  | .bool _ => true
  | _ => false

def isFloat : Json → Bool
  | .float _ => true
  | _ => false

end Json

/-- The value has the declared type as it stands. A `bool` is no `int` here: it is accepted for one,
but turned into a number. -/
def FieldType.hasType : FieldType → Json → Bool
  | .str, v => v.isStr
  | .optStr, v => v = .null || v.isStr
  | .int, v => v.isInt
  | .optInt, v => v = .null || v.isInt
  | .intIn lo hi, .int n => lo ≤ n && n ≤ hi
  | .intIn _ _, _ => false
  | .bool, v => v.isBool
  | .optBool, v => v = .null || v.isBool
  | .float, v => v.isFloat
  | .optFloat, v => v = .null || v.isFloat
  | .listStr, .arr xs => xs.all isStr
  | .listInt, .arr xs => xs.all isInt
  | .dictBool, .obj kvs => kvs.all (isBool ·.2)
  | .dictStr, .obj kvs => kvs.all (isStr ·.2)
  | .dictAny, .obj _ => true
  | _, _ => false

/-! ### Text that can be written -/

/-- The string has no lone surrogate, so it can be encoded. -/
def textOk (s : PyStr) : Bool :=
  s.all fun c ↦ decide (IsScalar c)

mutual

/-- Every string in the value can be encoded, so the value can be written to a file. -/
def Json.encodable : Json → Bool
  | .str s => textOk s
  | .arr xs => encodableList xs
  | .obj kvs => encodableDict kvs
  | _ => true

/-- `encodable` on the items of an array. -/
def Json.encodableList : List Json → Bool
  | [] => true
  | x :: xs => x.encodable && encodableList xs

/-- `encodable` on the entries of an object. -/
def Json.encodableDict : PyDict → Bool
  | [] => true
  | (k, x) :: xs => textOk k && x.encodable && encodableDict xs

end

theorem Json.encodableDict_append (d e : PyDict) :
    encodableDict (d ++ e) = (encodableDict d && encodableDict e) := by
  induction d with
  | nil => simp [encodableDict]
  | cons x d ih =>
    obtain ⟨k, v⟩ := x
    simp [encodableDict, ih, Bool.and_assoc]

theorem Json.encodable_of_mem_dict {d : PyDict} (hd : encodableDict d = true) {k : PyStr} {v : Json}
    (h : (k, v) ∈ d) : textOk k = true ∧ v.encodable = true := by
  induction d with
  | nil => simp at h
  | cons x d ih =>
    obtain ⟨l, w⟩ := x
    simp only [encodableDict, Bool.and_eq_true] at hd
    rcases List.mem_cons.1 h with heq | h
    · cases heq
      exact hd.1
    · exact ih hd.2 h

theorem Json.encodable_of_mem_list {xs : List Json} (hxs : encodableList xs = true) {x : Json}
    (h : x ∈ xs) : x.encodable = true := by
  induction xs with
  | nil => simp at h
  | cons y xs ih =>
    simp only [encodableList, Bool.and_eq_true] at hxs
    rcases List.mem_cons.1 h with rfl | h
    · exact hxs.1
    · exact ih hxs.2 h

/-! ### The library -/

/-- Validation of single values. -/
structure Pydantic where
  /-- The value an attribute of the type takes when given the JSON value, if it is accepted. -/
  coerce : FieldType → Json → Option Json
  /-- The text of a validation error for a class. -/
  errorText : PyStr → Json → PyStr
  /-- A value of the declared type is accepted as it is. -/
  accepts : ∀ t v, t.hasType v = true → v.encodable = true → coerce t v = some v
  /-- What is accepted has the declared type. -/
  sound : ∀ t v w, coerce t v = some w → t.hasType w = true
  /-- Nothing is turned into a string, and no string into another one. -/
  str_exact : ∀ v w, coerce .str v = some w → w = v

/-- A library without coercions. -/
def Pydantic.strict : Pydantic where
  coerce t v := if t.hasType v = true ∧ v.encodable = true then some v else none
  errorText cls _ := cls
  accepts t v ht he := by simp [ht, he]
  sound t v w h := by
    split_ifs at h with hv
    cases h
    exact hv.1
  str_exact v w h := by
    split_ifs at h
    exact (Option.some.inj h).symm

/-- An attribute of a class; without a default it is required. -/
structure FieldSpec where
  name : PyStr
  type : FieldType
  default : Option Json
deriving DecidableEq

section Validate

variable (p : Pydantic)

/-- An attribute from the dictionary of raw values. -/
def validateField (d : PyDict) (spec : FieldSpec) : Option Json :=
  match get? d spec.name with
  | some v => p.coerce spec.type v
  | none => spec.default

/-- The attributes of a class from the dictionary of raw values; keys it does not declare are
ignored. -/
def validateFields (d : PyDict) : List FieldSpec → Option PyDict
  | [] => some []
  | spec :: specs => do
    let v ← validateField p d spec
    let fields ← validateFields d specs
    pure ((spec.name, v) :: fields)

/-- A string attribute. -/
def validateStr (d : PyDict) (name : PyStr) (default : Option PyStr) : Option PyStr :=
  match validateField p d ⟨name, .str, default.map .str⟩ with
  | some (.str s) => some s
  | _ => none

/-- An integer attribute. -/
def validateInt (d : PyDict) (name : PyStr) (type : FieldType) (default : Option ℤ) : Option ℤ :=
  match validateField p d ⟨name, type, default.map .int⟩ with
  | some (.int n) => some n
  | _ => none

/-- The items of a list, each validated. -/
def validateItems {α : Type} (f : Json → Option α) : List Json → Option (List α)
  | [] => some []
  | x :: xs => do
    let y ← f x
    let ys ← validateItems f xs
    pure (y :: ys)

/-- An attribute that is a list of objects. -/
def validateList {α : Type} (d : PyDict) (name : PyStr) (f : Json → Option α) : Option (List α) :=
  match get? d name with
  | none => some []
  | some (.arr xs) => validateItems f xs
  | some _ => none

end Validate

/-! ### Round trips -/

/-- The attributes are those of the class, in its order, each of its declared type. -/
def FieldsTyped (specs : List FieldSpec) (fields : PyDict) : Prop :=
  List.Forall₂ (fun spec e ↦ e.1 = spec.name ∧ spec.type.hasType e.2 = true) specs fields

/-- Every default has the declared type of its attribute. -/
def DefaultsTyped (specs : List FieldSpec) : Prop :=
  ∀ spec ∈ specs, ∀ v ∈ spec.default, spec.type.hasType v = true

instance (specs : List FieldSpec) : Decidable (DefaultsTyped specs) :=
  inferInstanceAs (Decidable (∀ spec ∈ specs, ∀ v ∈ spec.default, _))

/-- What validation produces satisfies the class. -/
theorem validateFields_typed {p : Pydantic} {d : PyDict} {specs : List FieldSpec}
    (hdefault : DefaultsTyped specs) {fields : PyDict} (h : validateFields p d specs = some fields) :
    FieldsTyped specs fields := by
  induction specs generalizing fields with
  | nil =>
    obtain rfl : [] = fields := by simpa [validateFields] using h
    exact .nil
  | cons spec specs ih =>
    simp only [validateFields, Option.bind_eq_bind, Option.bind_eq_some_iff, Option.pure_def,
      Option.some.injEq] at h
    obtain ⟨v, hv, rest, hrest, rfl⟩ := h
    refine .cons ⟨rfl, ?_⟩ (ih (fun s hs ↦ hdefault s (List.mem_cons_of_mem _ hs)) hrest)
    unfold validateField at hv
    split at hv
    · exact p.sound _ _ _ hv
    · exact hdefault spec List.mem_cons_self v hv

theorem Json.get?_append (d e : PyDict) (k : PyStr) :
    get? (d ++ e) k = (get? d k).or (get? e k) :=
  List.lookup_append

theorem Json.get?_cons_self (k : PyStr) (v : Json) (d : PyDict) : get? ((k, v) :: d) k = some v := by
  simp [get?]

theorem Json.get?_eq_none_iff {d : PyDict} {k : PyStr} : get? d k = none ↔ k ∉ d.map Prod.fst := by
  rw [get?, List.lookup_eq_none_iff]
  simp only [List.mem_map, not_exists, not_and, bne_iff_ne, ne_eq]
  exact ⟨fun h e he heq ↦ h e he heq.symm, fun h e he heq ↦ h e he heq.symm⟩

/-- **Validating an object's own dictionary gives the object back.** The dictionary may hold other
keys before the attributes. -/
theorem validateFields_self (p : Pydantic) {specs : List FieldSpec} {fields : PyDict}
    (hty : FieldsTyped specs fields) (hnodup : (specs.map FieldSpec.name).Nodup)
    (henc : encodableDict fields = true) (before : PyDict) (names : List PyStr)
    (hnames : before.map Prod.fst = names)
    (hbefore : ∀ name ∈ specs.map FieldSpec.name, name ∉ names) :
    validateFields p (before ++ fields) specs = some fields := by
  induction hty generalizing before names with
  | nil => rfl
  | @cons spec e specs fields hhead htail ih =>
    obtain ⟨k, v⟩ := e
    obtain ⟨hname, htype⟩ := hhead
    obtain rfl : k = spec.name := hname
    obtain ⟨hspec, hnodup⟩ := List.nodup_cons.1 hnodup
    have hnone : get? before spec.name = none :=
      get?_eq_none_iff.2 (hnames ▸ hbefore spec.name List.mem_cons_self)
    simp only [encodableDict, Bool.and_eq_true] at henc
    have hget : get? (before ++ (spec.name, v) :: fields) spec.name = some v := by
      rw [get?_append, hnone, get?_cons_self]
      rfl
    have hrest : validateFields p (before ++ (spec.name, v) :: fields) specs = some fields := by
      have := ih hnodup henc.2 (before ++ [(spec.name, v)]) (names ++ [spec.name]) (by simp [hnames])
        fun name hname hmem ↦ by
          rcases List.mem_append.1 hmem with h | h
          · exact hbefore name (List.mem_cons_of_mem _ hname) h
          · obtain rfl : name = spec.name := by simpa using h
            exact hspec hname
      simpa using this
    have hfield : validateField p (before ++ (spec.name, v) :: fields) spec = some v := by
      rw [validateField, hget]
      exact p.accepts _ _ htype henc.1.2
    rw [validateFields, hfield, hrest]
    rfl

/-- The attribute of a validated object is the one that was validated for it. -/
theorem get?_validateFields {p : Pydantic} {d : PyDict} {specs : List FieldSpec} {fields : PyDict}
    (h : validateFields p d specs = some fields) (hnodup : (specs.map FieldSpec.name).Nodup)
    (spec : FieldSpec) (hspec : spec ∈ specs) :
    get? fields spec.name = validateField p d spec := by
  induction specs generalizing fields with
  | nil => simp at hspec
  | cons s specs ih =>
    simp only [validateFields, Option.bind_eq_bind, Option.bind_eq_some_iff, Option.pure_def,
      Option.some.injEq] at h
    obtain ⟨v, hv, rest, hrest, rfl⟩ := h
    obtain ⟨hs, hnodup⟩ := List.nodup_cons.1 hnodup
    rcases List.mem_cons.1 hspec with rfl | hspec
    · rw [get?_cons_self, hv]
    · have hne : (spec.name == s.name) = false := by
        simpa using fun heq : spec.name = s.name ↦ hs (heq ▸ List.mem_map_of_mem hspec)
      rw [← ih hrest hnodup hspec]
      simp [get?, List.lookup_cons, hne]

theorem validateStr_eq (p : Pydantic) {d : PyDict} {name s : PyStr} (default : Option PyStr)
    (h : get? d name = some (.str s)) (henc : textOk s = true) :
    validateStr p d name default = some s := by
  have haccept : p.coerce .str (.str s) = some (.str s) :=
    p.accepts _ _ rfl (by simpa [encodable] using henc)
  rw [validateStr, validateField, h]
  simp only [haccept]

theorem validateInt_eq (p : Pydantic) {d : PyDict} {name : PyStr} {n : ℤ} {type : FieldType}
    (default : Option ℤ) (h : get? d name = some (.int n)) (htype : type.hasType (.int n) = true) :
    validateInt p d name type default = some n := by
  have haccept : p.coerce type (.int n) = some (.int n) := p.accepts _ _ htype rfl
  rw [validateInt, validateField, h]
  simp only [haccept]

/-- A list of objects that are all given back is given back. -/
theorem validateItems_self {α : Type} {f : Json → Option α} {dump : α → Json} {xs : List α}
    (h : ∀ x ∈ xs, f (dump x) = some x) : validateItems f (xs.map dump) = some xs := by
  induction xs with
  | nil => rfl
  | cons x xs ih =>
    rw [List.map_cons, validateItems, h x List.mem_cons_self,
      ih fun y hy ↦ h y (List.mem_cons_of_mem x hy)]
    rfl

theorem validateItems_forall {α : Type} {f : Json → Option α} {P : α → Prop}
    (hf : ∀ v x, f v = some x → P x) {vs : List Json} {xs : List α}
    (h : validateItems f vs = some xs) : ∀ x ∈ xs, P x := by
  induction vs generalizing xs with
  | nil =>
    obtain rfl : [] = xs := by simpa [validateItems] using h
    simp
  | cons v vs ih =>
    simp only [validateItems, Option.bind_eq_bind, Option.bind_eq_some_iff, Option.pure_def,
      Option.some.injEq] at h
    obtain ⟨x, hx, rest, hrest, rfl⟩ := h
    exact List.forall_mem_cons.2 ⟨hf v x hx, ih hrest⟩

theorem validateList_forall {α : Type} {f : Json → Option α} {P : α → Prop}
    (hf : ∀ v x, f v = some x → P x) {d : PyDict} {name : PyStr} {xs : List α}
    (h : validateList d name f = some xs) : ∀ x ∈ xs, P x := by
  unfold validateList at h
  split at h
  · obtain rfl : [] = xs := by simpa using h
    simp
  · exact validateItems_forall hf h
  · cases h

/-! ### Classes and their objects -/

/-- The attributes a class declares: their names are distinct and each default has the type of its
attribute. -/
structure ClassSpec where
  specs : List FieldSpec
  defaults : DefaultsTyped specs
  distinct : (specs.map FieldSpec.name).Nodup

/-- The attributes of an object that is only ever made by validation, and so cannot be malformed. -/
structure Attrs (cls : ClassSpec) where
  fields : PyDict
  typed : FieldsTyped cls.specs fields

instance (cls : ClassSpec) : DecidableEq (Attrs cls) := fun a b ↦
  decidable_of_iff (a.fields = b.fields) (by cases a; cases b; simp)

/-- The defaults of a class. -/
def defaultFields (specs : List FieldSpec) : PyDict :=
  specs.filterMap fun spec ↦ spec.default.map (spec.name, ·)

theorem defaultFields_typed {specs : List FieldSpec} (hdefault : DefaultsTyped specs)
    (hall : ∀ spec ∈ specs, spec.default.isSome = true) :
    FieldsTyped specs (defaultFields specs) := by
  induction specs with
  | nil => exact .nil
  | cons spec specs ih =>
    obtain ⟨v, hv⟩ := Option.isSome_iff_exists.1 (hall spec List.mem_cons_self)
    rw [defaultFields, List.filterMap_cons, hv]
    refine .cons ⟨rfl, hdefault spec List.mem_cons_self v hv⟩ (ih ?_ ?_)
    · exact fun s hs ↦ hdefault s (List.mem_cons_of_mem _ hs)
    · exact fun s hs ↦ hall s (List.mem_cons_of_mem _ hs)

/-- The attributes of an object made without arguments, where every attribute has a default. -/
def ClassSpec.make (cls : ClassSpec) (hall : ∀ spec ∈ cls.specs, spec.default.isSome = true) :
    Attrs cls :=
  ⟨defaultFields cls.specs, defaultFields_typed cls.defaults hall⟩

/-- The attributes of an object made with the given values and the defaults of the others. -/
def ClassSpec.build (cls : ClassSpec) (given : PyDict)
    (h : ∀ spec ∈ cls.specs, ((get? given spec.name).or spec.default).any spec.type.hasType = true) :
    Attrs cls where
  fields := cls.specs.filterMap fun spec ↦
    ((get? given spec.name).or spec.default).map (spec.name, ·)
  typed := by
    generalize cls.specs = specs at h
    induction specs with
    | nil => exact .nil
    | cons spec specs ih =>
      have hspec := h spec List.mem_cons_self
      rw [Option.any_eq_true] at hspec
      obtain ⟨v, hv, htype⟩ := hspec
      rw [List.filterMap_cons, hv]
      exact .cons ⟨rfl, htype⟩ (ih fun s hs ↦ h s (List.mem_cons_of_mem _ hs))

/-- The attributes from the dictionary of raw values. -/
def validateAttrs (p : Pydantic) (d : PyDict) (cls : ClassSpec) : Option (Attrs cls) :=
  match h : validateFields p d cls.specs with
  | some fields => some ⟨fields, validateFields_typed cls.defaults h⟩
  | none => none

theorem validateAttrs_self (p : Pydantic) {cls : ClassSpec} (a : Attrs cls)
    (henc : encodableDict a.fields = true) (before : PyDict) (names : List PyStr)
    (hnames : before.map Prod.fst = names)
    (hbefore : ∀ name ∈ cls.specs.map FieldSpec.name, name ∉ names) :
    validateAttrs p (before ++ a.fields) cls = some a := by
  have hself := validateFields_self p a.typed cls.distinct henc before names hnames hbefore
  unfold validateAttrs
  split
  · next fields hfields =>
    obtain rfl : a.fields = fields := Option.some.inj (hself.symm.trans hfields)
    rfl
  · next hnone => exact absurd (hself.symm.trans hnone) (by simp)

theorem FieldsTyped.map_fst {specs : List FieldSpec} {fields : PyDict}
    (h : FieldsTyped specs fields) : fields.map Prod.fst = specs.map FieldSpec.name := by
  induction h with
  | nil => rfl
  | cons hhead _ ih => rw [List.map_cons, List.map_cons, hhead.1, ih]
