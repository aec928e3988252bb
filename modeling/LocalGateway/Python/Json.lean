import Mathlib.Data.Nat.Digits.Defs
import Mathlib.Data.Rat.Defs
import Mathlib.Data.List.Sort
import LocalGateway.Python.Text

/-!
# JSON values and `json.dumps`

The values `json.loads` produces and the text `json.dumps` writes for them. Dictionaries keep their
insertion order, integers are unbounded, and numbers keep Python's distinction between `1` and
`1.0`; the three float constants that strict JSON lacks (`NaN`, `Infinity`, `-Infinity`) are values
like any other, as they are for Python's codec.

The only thing not spelled out is `repr` of a finite float. It is a parameter, `FloatRepr`, whose
fields state what the rest relies on: it writes digits, a point or an exponent, and distinct floats
differently.

The main result is `dumps_append_inj`: a dumped value can be read off the front of a text that
continues with something a number cannot continue with, so `json.dumps` is injective and values
written one after the other are told apart.
-/

/-- A Python `float`: the finite ones by their value, negative zero apart. -/
inductive PyFloat
  | fin (q : ℚ)
  | negZero
  | inf (neg : Bool)
  | nan
deriving DecidableEq

/-- A value `json.loads` can produce. The entries of an object are in insertion order. -/
inductive Json
  | null
  | bool (b : Bool)
  | int (n : ℤ)
  | float (x : PyFloat)
  | str (s : PyStr)
  | arr (xs : List Json)
  | obj (kvs : List (PyStr × Json))

/-- A Python `dict` with string keys, in insertion order. -/
abbrev PyDict := List (PyStr × Json)

namespace Json

/-! ### Equality -/

mutual

/-- Equality of JSON values is decided along both trees. -/
def decEq : (a b : Json) → Decidable (a = b)
  | .null, .null => isTrue rfl
  | .bool a, .bool b => decidable_of_iff (a = b) (by simp)
  | .int a, .int b => decidable_of_iff (a = b) (by simp)
  | .float a, .float b => decidable_of_iff (a = b) (by simp)
  | .str a, .str b => decidable_of_iff (a = b) (by simp)
  | .arr a, .arr b => @decidable_of_iff _ (a = b) (by simp) (decEqList a b)
  | .obj a, .obj b => @decidable_of_iff _ (a = b) (by simp) (decEqDict a b)
  | .null, .bool _ | .null, .int _ | .null, .float _ | .null, .str _ | .null, .arr _
  | .null, .obj _ | .bool _, .null | .bool _, .int _ | .bool _, .float _ | .bool _, .str _
  | .bool _, .arr _ | .bool _, .obj _ | .int _, .null | .int _, .bool _ | .int _, .float _
  | .int _, .str _ | .int _, .arr _ | .int _, .obj _ | .float _, .null | .float _, .bool _
  | .float _, .int _ | .float _, .str _ | .float _, .arr _ | .float _, .obj _ | .str _, .null
  | .str _, .bool _ | .str _, .int _ | .str _, .float _ | .str _, .arr _ | .str _, .obj _
  | .arr _, .null | .arr _, .bool _ | .arr _, .int _ | .arr _, .float _ | .arr _, .str _
  | .arr _, .obj _ | .obj _, .null | .obj _, .bool _ | .obj _, .int _ | .obj _, .float _
  | .obj _, .str _ | .obj _, .arr _ => isFalse (by simp)

/-- `decEq` on the items of an array. -/
def decEqList : (a b : List Json) → Decidable (a = b)
  | [], [] => isTrue rfl
  | x :: xs, y :: ys =>
    @decidable_of_iff _ (x = y ∧ xs = ys) (by simp)
      (@instDecidableAnd _ _ (decEq x y) (decEqList xs ys))
  | [], _ :: _ | _ :: _, [] => isFalse (by simp)

/-- `decEq` on the entries of an object. -/
def decEqDict : (a b : PyDict) → Decidable (a = b)
  | [], [] => isTrue rfl
  | (k, x) :: xs, (l, y) :: ys =>
    @decidable_of_iff _ (k = l ∧ x = y ∧ xs = ys) (by simp [and_assoc])
      (@instDecidableAnd _ _ inferInstance
        (@instDecidableAnd _ _ (decEq x y) (decEqDict xs ys)))
  | [], _ :: _ | _ :: _, [] => isFalse (by simp)

end

instance : DecidableEq Json := decEq

/-! ### Dictionaries -/

/-- `d.get(k)`, with `none` for a key that is absent. -/
def get? (d : PyDict) (k : PyStr) : Option Json :=
  d.lookup k

/-- `k in d`. -/
def hasKey (d : PyDict) (k : PyStr) : Bool :=
  (get? d k).isSome

/-- `d[k] = v`: an entry that exists keeps its place. -/
def setKey (d : PyDict) (k : PyStr) (v : Json) : PyDict :=
  match d with
  | [] => [(k, v)]
  | (l, w) :: d => if l = k then (l, v) :: d else (l, w) :: setKey d k v

theorem get?_setKey (d : PyDict) (k l : PyStr) (v : Json) :
    get? (setKey d k v) l = if l = k then some v else get? d l := by
  induction d with
  | nil => by_cases h : l = k <;> simp [setKey, get?, h]
  | cons e d ih =>
    obtain ⟨m, w⟩ := e
    rw [setKey]
    by_cases hm : m = k
    · subst hm
      by_cases h : l = m
      · simp [get?, h]
      · have hne : (l == m) = false := by simpa using h
        simp [get?, List.lookup_cons, hne, h]
    · rw [if_neg hm]
      by_cases h : l = m
      · subst h
        simp [get?, hm]
      · have hne : (l == m) = false := by simpa using h
        simpa [get?, List.lookup_cons, hne] using ih

/-- An assignment of what is there changes nothing. -/
theorem setKey_of_get? {d : PyDict} {k : PyStr} {v : Json} (h : get? d k = some v) :
    setKey d k v = d := by
  induction d with
  | nil => simp [get?] at h
  | cons e d ih =>
    obtain ⟨l, w⟩ := e
    rw [setKey]
    by_cases hl : l = k
    · subst hl
      obtain rfl : w = v := by simpa [get?] using h
      rw [if_pos rfl]
    · have hne : (k == l) = false := by simpa using Ne.symm hl
      rw [if_neg hl, ih (by simpa [get?, List.lookup_cons, hne] using h)]

/-- `bool(v)`. -/
def truthy : Json → Bool
  | .null => false
  | .bool b => b
  | .int n => n ≠ 0
  | .float (.fin q) => q ≠ 0
  | .float .negZero => false
  | .float _ => true
  | .str s => s ≠ []
  | .arr xs => !xs.isEmpty
  | .obj kvs => !kvs.isEmpty

/-! ### `json.dumps` -/

/-- The decimal text of a natural number. -/
def natRepr (n : ℕ) : PyStr :=
  if n = 0 then [48] else (Nat.digits 10 n).reverse.map (48 + ·)

/-- `repr(n)`. -/
def intRepr : ℤ → PyStr
  | .ofNat n => natRepr n
  | .negSucc n => 45 :: natRepr (n + 1)

/-- The characters `repr` of a finite float uses beside the digits. -/
def isFloatMark (c : ℕ) : Bool :=
  c = 43 || c = 45 || c = 46 || c = 101

/-- A decimal digit. -/
def isDigit (c : ℕ) : Bool :=
  48 ≤ c && c ≤ 57

/-- `float.__repr__` on the finite floats other than negative zero. -/
structure FloatRepr where
  repr : ℚ → PyStr
  /-- Digits, signs, a point and an exponent mark are all it writes. -/
  chars : ∀ q, ∀ c ∈ repr q, isDigit c || isFloatMark c
  /-- It writes a point or an exponent mark, which no integer has. -/
  marked : ∀ q, 46 ∈ repr q ∨ 101 ∈ repr q
  /-- Distinct floats are written differently. -/
  inj : Function.Injective repr
  /-- `-0.0` is written for negative zero only. -/
  ne_negZero : ∀ q, repr q ≠ py "-0.0"

/-- The lower-case hexadecimal digit of a number below 16. -/
def hexDigit (n : ℕ) : ℕ :=
  if n < 10 then 48 + n else 87 + n

/-- `\uXXXX`. -/
def unicodeEscape (c : ℕ) : PyStr :=
  [92, 117, hexDigit (c / 4096 % 16), hexDigit (c / 256 % 16), hexDigit (c / 16 % 16),
    hexDigit (c % 16)]

/-- One character of a string literal. With `ascii`, what is not ASCII is written in `\uXXXX`
escapes, an astral character in two. -/
def escapeChar (ascii : Bool) (c : ℕ) : PyStr :=
  if c = 34 then [92, 34]
  else if c = 92 then [92, 92]
  else if c = 10 then [92, 110]
  else if c = 13 then [92, 114]
  else if c = 9 then [92, 116]
  else if c = 12 then [92, 102]
  else if c = 8 then [92, 98]
  else if c < 32 then unicodeEscape c
  else if ascii = true ∧ 126 < c then
    if c < 0x10000 then unicodeEscape c
    else
      unicodeEscape (0xD800 + (c - 0x10000) / 1024) ++ unicodeEscape (0xDC00 + (c - 0x10000) % 1024)
  else [c]

/-- A string literal. -/
def dumpsStr (ascii : Bool) (s : PyStr) : PyStr :=
  34 :: s.flatMap (escapeChar ascii) ++ [34]

/-- A float as the encoder writes it. -/
def dumpsFloat (r : FloatRepr) : PyFloat → PyStr
  | .fin q => r.repr q
  | .negZero => py "-0.0"
  | .inf false => py "Infinity"
  | .inf true => py "-Infinity"
  | .nan => py "NaN"

mutual

/-- `json.dumps(x, ensure_ascii=ascii)`. -/
def dumps (ascii : Bool) (r : FloatRepr) : Json → PyStr
  | .null => py "null"
  | .bool true => py "true"
  | .bool false => py "false"
  | .int n => intRepr n
  | .float x => dumpsFloat r x
  | .str s => dumpsStr ascii s
  | .arr [] => py "[]"
  | .arr (x :: xs) => 91 :: dumps ascii r x ++ dumpsItems ascii r xs
  | .obj [] => py "\x7b\x7d"
  | .obj ((k, x) :: xs) =>
    123 :: dumpsStr ascii k ++ py ": " ++ dumps ascii r x ++ dumpsEntries ascii r xs

/-- The items of an array after the first, and its end. -/
def dumpsItems (ascii : Bool) (r : FloatRepr) : List Json → PyStr
  | [] => [93]
  | x :: xs => py ", " ++ dumps ascii r x ++ dumpsItems ascii r xs

/-- The entries of an object after the first, and its end. -/
def dumpsEntries (ascii : Bool) (r : FloatRepr) : PyDict → PyStr
  | [] => [125]
  | (k, x) :: xs =>
    py ", " ++ dumpsStr ascii k ++ py ": " ++ dumps ascii r x ++ dumpsEntries ascii r xs

end

mutual

/-- The value with the keys of every object sorted, which is what `sort_keys=True` writes. -/
def sortKeys : Json → Json
  | .arr xs => .arr (sortKeysList xs)
  | .obj kvs => .obj ((sortKeysDict kvs).insertionSort fun a b ↦ a.1 ≤ b.1)
  | x => x

/-- `sortKeys` on the items of an array. -/
def sortKeysList : List Json → List Json
  | [] => []
  | x :: xs => sortKeys x :: sortKeysList xs

/-- `sortKeys` on the values of an object. -/
def sortKeysDict : PyDict → PyDict
  | [] => []
  | (k, x) :: xs => (k, sortKeys x) :: sortKeysDict xs

end

/-! ### Where a value ends -/

/-- The characters a constant or a number may continue with. -/
def isPlain (c : ℕ) : Bool :=
  isDigit c || isFloatMark c || (65 ≤ c && c ≤ 90) || (97 ≤ c && c ≤ 122)

/-- The text does not continue a constant or a number. -/
def Ends (s : PyStr) : Prop :=
  ∀ c ∈ s.head?, isPlain c = false

/-- Two words of plain characters that something else ends are told apart. -/
theorem plain_append_inj {v w s t : PyStr} (hv : ∀ c ∈ v, isPlain c) (hw : ∀ c ∈ w, isPlain c)
    (hs : Ends s) (ht : Ends t) (h : v ++ s = w ++ t) : v = w ∧ s = t := by
  have htake : ∀ {v s : PyStr}, (∀ c ∈ v, isPlain c) → Ends s →
      (v ++ s).takeWhile isPlain = v := by
    intro v s hv hs
    rw [List.takeWhile_append_of_pos hv]
    rcases s with - | ⟨c, s⟩
    · simp
    · simp [hs c rfl]
  have hvw : v = w := by rw [← htake hv hs, h, htake hw ht]
  subst hvw
  exact ⟨rfl, List.append_cancel_left h⟩

theorem natRepr_digits (n : ℕ) : ∀ c ∈ natRepr n, isDigit c := by
  intro c hc
  unfold natRepr at hc
  split_ifs at hc
  · obtain rfl : c = 48 := by simpa using hc
    rfl
  · obtain ⟨d, hd, rfl⟩ := List.mem_map.1 hc
    have hlt : d < 10 := Nat.digits_lt_base (by omega) (List.mem_reverse.1 hd)
    simp only [isDigit, Bool.and_eq_true, decide_eq_true_eq]
    omega

theorem natRepr_ne_nil (n : ℕ) : natRepr n ≠ [] := by
  unfold natRepr
  split_ifs with h
  · simp
  · simpa using Nat.digits_ne_nil_iff_ne_zero.2 h

/-- The digits of a natural number, read again. -/
theorem ofDigits_natRepr (n : ℕ) : Nat.ofDigits 10 ((natRepr n).map (· - 48)).reverse = n := by
  unfold natRepr
  split_ifs with h
  · simp [h]
  · have hcancel : (fun x ↦ x - 48) ∘ (fun x ↦ 48 + x) = id := by
      funext x
      simp
    rw [List.map_map, hcancel, List.map_id, List.reverse_reverse, Nat.ofDigits_digits]

theorem natRepr_injective : Function.Injective natRepr := by
  intro m n h
  rw [← ofDigits_natRepr m, h, ofDigits_natRepr n]

theorem intRepr_chars (n : ℤ) : ∀ c ∈ intRepr n, isDigit c ∨ c = 45 := by
  rintro c hc
  rcases n with n | n
  · exact .inl (natRepr_digits n c hc)
  · rcases List.mem_cons.1 hc with rfl | hc
    · exact .inr rfl
    · exact .inl (natRepr_digits _ c hc)

theorem intRepr_injective : Function.Injective intRepr := by
  have hsign : ∀ m n, natRepr m ≠ 45 :: natRepr n := fun m n h ↦ by
    simpa [isDigit] using natRepr_digits m 45 (h ▸ List.mem_cons_self)
  rintro (m | m) (n | n) h
  · rw [natRepr_injective h]
  · exact absurd h (hsign m _)
  · exact absurd h.symm (hsign n _)
  · have := natRepr_injective (List.cons.inj h).2
    obtain rfl : m = n := by omega
    rfl

/-- No integer is written with a point or an exponent mark, and every finite float is. -/
theorem intRepr_ne_repr (n : ℤ) (r : FloatRepr) (q : ℚ) : intRepr n ≠ r.repr q := by
  intro h
  rcases r.marked q with hmark | hmark
  · simpa [isDigit] using intRepr_chars n 46 (h ▸ hmark)
  · simpa [isDigit] using intRepr_chars n 101 (h ▸ hmark)

/-- A `FloatRepr` that writes the integral floats as Python does. -/
def FloatRepr.ofFraction : FloatRepr where
  repr q := intRepr q.num ++ 46 :: natRepr (q.den - 1)
  chars q c hc := by
    rcases List.mem_append.1 hc with hc | hc
    · rcases intRepr_chars _ c hc with h | rfl
      · simp [h]
      · simp [isFloatMark]
    · rcases List.mem_cons.1 hc with rfl | hc
      · simp [isFloatMark]
      · simp [natRepr_digits _ c hc]
  marked q := .inl (by simp)
  inj p q h := by
    have hpoint : ∀ n : ℤ, 46 ∉ intRepr n := fun n hn ↦ by
      simpa [isDigit] using intRepr_chars n 46 hn
    obtain ⟨hnum, hden⟩ := Lines.append_cons_inj (hpoint _) (hpoint _) h
    have hp := p.den_pos
    have hq := q.den_pos
    have hsub := natRepr_injective hden
    exact Rat.ext (intRepr_injective hnum) (by omega)
  ne_negZero q h := by
    have hpoint : (46 : ℕ) ∉ intRepr q.num := fun hn ↦ by
      simpa [isDigit] using intRepr_chars q.num 46 hn
    have hsplit : py "-0.0" = py "-0" ++ 46 :: py "0" := by decide
    obtain ⟨hnum, -⟩ := Lines.append_cons_inj hpoint (by decide) (h.trans hsplit)
    generalize q.num = num at hnum
    rcases num with n | n
    · have hnat : natRepr n = py "-0" := hnum
      have hmem : 45 ∈ natRepr n := by rw [hnat]; decide
      simpa [isDigit] using natRepr_digits n 45 hmem
    · have hcons : 45 :: natRepr (n + 1) = 45 :: natRepr 0 := hnum
      have hzero := (List.cons.inj hcons).2
      exact absurd (natRepr_injective hzero) (by omega)

/-! ### Constants and numbers -/

/-- The constants, with their texts. -/
def constants : List (Json × PyStr) :=
  [(.null, py "null"), (.bool true, py "true"), (.bool false, py "false"),
    (.float .negZero, py "-0.0"), (.float (.inf false), py "Infinity"),
    (.float (.inf true), py "-Infinity"), (.float .nan, py "NaN")]

/-- The values written without brackets or quotes. -/
inductive IsWord : Json → Prop
  | const {x : Json} {t : PyStr} (h : (x, t) ∈ constants) : IsWord x
  | int (n : ℤ) : IsWord (.int n)
  | fin (q : ℚ) : IsWord (.float (.fin q))

theorem dumps_const {x : Json} {t : PyStr} (h : (x, t) ∈ constants) (ascii : Bool) (r : FloatRepr) :
    dumps ascii r x = t := by
  simp only [constants, List.mem_cons, Prod.mk.injEq, List.not_mem_nil, or_false] at h
  rcases h with ⟨rfl, rfl⟩ | ⟨rfl, rfl⟩ | ⟨rfl, rfl⟩ | ⟨rfl, rfl⟩ | ⟨rfl, rfl⟩ | ⟨rfl, rfl⟩ |
    ⟨rfl, rfl⟩ <;> rfl

/-- A word is a run of plain characters. -/
theorem IsWord.plain {x : Json} (hx : IsWord x) (ascii : Bool) (r : FloatRepr) :
    dumps ascii r x ≠ [] ∧ ∀ c ∈ dumps ascii r x, isPlain c := by
  cases hx with
  | const h =>
    have htable : ∀ e ∈ constants, e.2 ≠ [] ∧ ∀ c ∈ e.2, isPlain c := by decide
    exact dumps_const h ascii r ▸ htable _ h
  | int n =>
    refine ⟨by rcases n with n | n <;> simp [dumps, intRepr, natRepr_ne_nil], fun c hc ↦ ?_⟩
    rcases intRepr_chars n c (by simpa [dumps] using hc) with h | rfl
    · simp [isPlain, h]
    · rfl
  | fin q =>
    refine ⟨fun h ↦ ?_, fun c hc ↦ ?_⟩
    · have hnil : r.repr q = [] := by simpa [dumps, dumpsFloat] using h
      simpa [hnil] using r.marked q
    · have := r.chars q c (by simpa [dumps, dumpsFloat] using hc)
      simp only [isPlain, Bool.or_eq_true] at this ⊢
      tauto

/-- A constant is written with a letter no number has, or it is negative zero. -/
theorem const_ne_number {x : Json} {t : PyStr} (h : (x, t) ∈ constants) (r : FloatRepr) :
    (∀ n, t ≠ intRepr n) ∧ ∀ q, t ≠ r.repr q := by
  have htable : ∀ e ∈ constants, e.2 = py "-0.0" ∨
      ∃ c ∈ e.2, isDigit c = false ∧ isFloatMark c = false := by decide
  rcases htable _ h with heq | ⟨c, hc, hdigit, hmark⟩
  · obtain rfl : t = py "-0.0" := heq
    refine ⟨fun n hn ↦ ?_, fun q hq ↦ r.ne_negZero q hq.symm⟩
    have h46 : (46 : ℕ) ∈ intRepr n := hn ▸ (by decide : 46 ∈ py "-0.0")
    simpa [isDigit] using intRepr_chars n 46 h46
  · refine ⟨fun n hn ↦ ?_, fun q hq ↦ ?_⟩
    · rcases intRepr_chars n c (hn ▸ hc) with hd | rfl
      · simp [hd] at hdigit
      · simp [isFloatMark] at hmark
    · simpa [hdigit, hmark] using r.chars q c (hq ▸ hc)

/-- **Constants and numbers are written differently.** -/
theorem IsWord.dumps_inj {x y : Json} (hx : IsWord x) (hy : IsWord y) {ascii : Bool}
    {r : FloatRepr} (h : dumps ascii r x = dumps ascii r y) : x = y := by
  have hint : ∀ n, dumps ascii r (.int n) = intRepr n := fun n ↦ by simp [dumps]
  have hfin : ∀ q, dumps ascii r (.float (.fin q)) = r.repr q := fun q ↦ by simp [dumps, dumpsFloat]
  cases hx with
  | const hx =>
    rw [dumps_const hx] at h
    cases hy with
    | const hy =>
      have htable : ∀ e ∈ constants, ∀ e' ∈ constants, e.2 = e'.2 → e.1 = e'.1 := by decide
      exact htable _ hx _ hy (h.trans (dumps_const hy ascii r))
    | int n => exact absurd (h.trans (hint n)) ((const_ne_number hx r).1 n)
    | fin q => exact absurd (h.trans (hfin q)) ((const_ne_number hx r).2 q)
  | int m =>
    rw [hint] at h
    cases hy with
    | const hy => exact absurd (h.trans (dumps_const hy ascii r)).symm ((const_ne_number hy r).1 m)
    | int n => rw [intRepr_injective (h.trans (hint n))]
    | fin q => exact absurd (h.trans (hfin q)) (intRepr_ne_repr m r q)
  | fin p =>
    rw [hfin] at h
    cases hy with
    | const hy => exact absurd (h.trans (dumps_const hy ascii r)).symm ((const_ne_number hy r).2 p)
    | int n => exact absurd (h.trans (hint n)).symm (intRepr_ne_repr n r p)
    | fin q => rw [r.inj (h.trans (hfin q))]

/-! ### String literals -/

/-- The value of a hexadecimal digit. -/
def hexValue (c : ℕ) : ℕ :=
  if c < 58 then c - 48 else c - 87

theorem hexValue_hexDigit {n : ℕ} (hn : n < 16) : hexValue (hexDigit n) = n := by
  unfold hexValue hexDigit
  split_ifs <;> omega

/-- Read one escaped character off a text. -/
def unescape : PyStr → Option (ℕ × PyStr)
  | [] => none
  | c :: s =>
    if c ≠ 92 then some (c, s)
    else
      match s with
      | 117 :: a :: b :: c :: d :: s =>
        some (((hexValue a * 16 + hexValue b) * 16 + hexValue c) * 16 + hexValue d, s)
      | 110 :: s => some (10, s)
      | 114 :: s => some (13, s)
      | 116 :: s => some (9, s)
      | 102 :: s => some (12, s)
      | 98 :: s => some (8, s)
      | c :: s => some (c, s)
      | [] => none

/-- The characters with an escape of their own, and its letter. -/
def shortEscapes : List (ℕ × ℕ) :=
  [(34, 34), (92, 92), (10, 110), (13, 114), (9, 116), (12, 102), (8, 98)]

/-- The ways to write a character. -/
inductive Escaped (ascii : Bool) (c : ℕ) : PyStr → Prop
  | short {d : ℕ} : (c, d) ∈ shortEscapes → Escaped ascii c [92, d]
  | unicode : c < 32 ∨ ascii = true ∧ 126 < c → Escaped ascii c (unicodeEscape c)
  | pair (m n : ℕ) : ascii = true → Escaped ascii c (unicodeEscape m ++ unicodeEscape n)
  | plain : c ≠ 34 → c ≠ 92 → 32 ≤ c → ¬ (ascii = true ∧ 126 < c) → Escaped ascii c [c]

theorem escapeChar_escaped (ascii : Bool) (c : ℕ) : Escaped ascii c (escapeChar ascii c) := by
  have hshort {a d : ℕ} (hmem : (a, d) ∈ shortEscapes) (h : c = a) : Escaped ascii c [92, d] :=
    .short (h ▸ hmem)
  unfold escapeChar
  refine iteInduction (hshort (by decide)) fun hquote ↦ iteInduction (hshort (by decide)) fun hslash ↦
    iteInduction (hshort (by decide)) fun _ ↦ iteInduction (hshort (by decide)) fun _ ↦
    iteInduction (hshort (by decide)) fun _ ↦ iteInduction (hshort (by decide)) fun _ ↦
    iteInduction (hshort (by decide)) fun _ ↦ iteInduction (fun h ↦ .unicode (.inl h)) fun hcontrol ↦ ?_
  refine iteInduction (fun hhigh ↦ ?_) fun hplain ↦ .plain hquote hslash (Nat.not_lt.1 hcontrol) hplain
  exact iteInduction (fun _ ↦ .unicode (.inr hhigh)) fun _ ↦ .pair _ _ hhigh.1

/-- An escaped character is read back. Only `ensure_ascii=False` has this property: with escapes an
astral character and its two surrogates are written alike. -/
theorem unescape_escapeChar (c : ℕ) (s : PyStr) :
    unescape (escapeChar false c ++ s) = some (c, s) := by
  have h := escapeChar_escaped false c
  generalize escapeChar false c = t at h ⊢
  cases h with
  | short hmem =>
    have htable : ∀ e ∈ shortEscapes, unescape (92 :: e.2 :: s) = some (e.1, s) := by
      simp only [shortEscapes, List.forall_mem_cons]
      exact ⟨rfl, rfl, rfl, rfl, rfl, rfl, rfl, nofun⟩
    exact htable _ hmem
  | unicode h =>
    have hc : c < 32 := h.resolve_right (by simp)
    have hdigit : ∀ k, hexValue (hexDigit (k % 16)) = k % 16 := fun k ↦
      hexValue_hexDigit (Nat.mod_lt k (by omega))
    simp only [unicodeEscape, List.cons_append, List.nil_append, unescape, hdigit]
    simp
    omega
  | pair m n h => cases h
  | plain _ hslash _ _ => simp [unescape, hslash]

theorem escapeChar_head (ascii : Bool) (c : ℕ) : (escapeChar ascii c).head? ≠ some 34 := by
  have h := escapeChar_escaped ascii c
  generalize escapeChar ascii c = t at h ⊢
  cases h with
  | short _ | unicode _ | pair _ _ _ => simp [unicodeEscape]
  | plain hquote _ _ _ => simpa using hquote

theorem escapeChar_ne_nil (ascii : Bool) (c : ℕ) : escapeChar ascii c ≠ [] := by
  have h := escapeChar_escaped ascii c
  generalize escapeChar ascii c = t at h ⊢
  cases h <;> exact List.cons_ne_nil _ _

/-- A string literal ends at its closing quote and nowhere before. -/
theorem dumpsStr_append_inj {k l s t : PyStr} (h : dumpsStr false k ++ s = dumpsStr false l ++ t) :
    k = l ∧ s = t := by
  have hbody : k.flatMap (escapeChar false) ++ 34 :: s = l.flatMap (escapeChar false) ++ 34 :: t := by
    simpa [dumpsStr] using h
  clear h
  have hquote : ∀ (c : ℕ) (u : PyStr), (escapeChar false c ++ u).head? ≠ some 34 := fun c u ↦ by
    rw [List.head?_append_of_ne_nil _ (escapeChar_ne_nil false c)]
    exact escapeChar_head false c
  induction k generalizing l with
  | nil =>
    rcases l with - | ⟨d, l⟩
    · exact ⟨rfl, by simpa using hbody⟩
    · rw [List.flatMap_cons, List.append_assoc] at hbody
      exact absurd (congrArg List.head? hbody).symm (hquote d _)
  | cons c k ih =>
    rcases l with - | ⟨d, l⟩
    · rw [List.flatMap_cons, List.append_assoc] at hbody
      exact absurd (congrArg List.head? hbody) (hquote c _)
    · rw [List.flatMap_cons, List.flatMap_cons, List.append_assoc, List.append_assoc] at hbody
      have hread := congrArg unescape hbody
      rw [unescape_escapeChar, unescape_escapeChar, Option.some.injEq, Prod.mk.injEq] at hread
      obtain ⟨rfl, hrest⟩ := hread
      obtain ⟨rfl, hs⟩ := ih hrest
      exact ⟨rfl, hs⟩

/-! ### Values -/

theorem ends_dumpsItems (ascii : Bool) (r : FloatRepr) (xs : List Json) (s : PyStr) :
    Ends (dumpsItems ascii r xs ++ s) := by
  rcases xs with - | ⟨x, xs⟩ <;> simp [Ends, dumpsItems, py, isPlain, isDigit, isFloatMark]

theorem ends_dumpsEntries (ascii : Bool) (r : FloatRepr) (xs : PyDict) (s : PyStr) :
    Ends (dumpsEntries ascii r xs ++ s) := by
  rcases xs with - | ⟨⟨k, x⟩, xs⟩ <;> simp [Ends, dumpsEntries, py, isPlain, isDigit, isFloatMark]

/-- The first character of a value tells strings, arrays, objects and words apart. -/
theorem dumps_head (ascii : Bool) (r : FloatRepr) (x : Json) :
    ∃ c rest, dumps ascii r x = c :: rest ∧
      (IsWord x ∧ isPlain c ∨ c = 34 ∧ (∃ s, x = .str s) ∨ c = 91 ∧ (∃ xs, x = .arr xs) ∨
        c = 123 ∧ ∃ kvs, x = .obj kvs) := by
  have hword : ∀ x, IsWord x → ∃ c rest, dumps ascii r x = c :: rest ∧ IsWord x ∧ isPlain c := by
    intro x hx
    obtain ⟨hne, hplain⟩ := hx.plain ascii r
    obtain ⟨c, rest, hcons⟩ := List.exists_cons_of_ne_nil hne
    exact ⟨c, rest, hcons, hx, hplain c (hcons ▸ List.mem_cons_self)⟩
  have hconst : ∀ x t, (x, t) ∈ constants → ∃ c rest, dumps ascii r x = c :: rest ∧ IsWord x ∧
      isPlain c := fun x t h ↦ hword x (.const h)
  rcases x with - | (- | -) | n | (q | - | (- | -) | -) | s | (- | ⟨x, xs⟩) | (- | ⟨⟨k, x⟩, xs⟩)
  · obtain ⟨c, rest, h, hw⟩ := hconst .null (py "null") (by decide)
    exact ⟨c, rest, h, .inl hw⟩
  · obtain ⟨c, rest, h, hw⟩ := hconst (.bool false) (py "false") (by decide)
    exact ⟨c, rest, h, .inl hw⟩
  · obtain ⟨c, rest, h, hw⟩ := hconst (.bool true) (py "true") (by decide)
    exact ⟨c, rest, h, .inl hw⟩
  · obtain ⟨c, rest, h, hw⟩ := hword _ (.int n)
    exact ⟨c, rest, h, .inl hw⟩
  · obtain ⟨c, rest, h, hw⟩ := hword _ (.fin q)
    exact ⟨c, rest, h, .inl hw⟩
  · obtain ⟨c, rest, h, hw⟩ := hconst (.float .negZero) (py "-0.0") (by decide)
    exact ⟨c, rest, h, .inl hw⟩
  · obtain ⟨c, rest, h, hw⟩ := hconst (.float (.inf false)) (py "Infinity") (by decide)
    exact ⟨c, rest, h, .inl hw⟩
  · obtain ⟨c, rest, h, hw⟩ := hconst (.float (.inf true)) (py "-Infinity") (by decide)
    exact ⟨c, rest, h, .inl hw⟩
  · obtain ⟨c, rest, h, hw⟩ := hconst (.float .nan) (py "NaN") (by decide)
    exact ⟨c, rest, h, .inl hw⟩
  · exact ⟨34, _, by simp only [dumps, dumpsStr, List.cons_append]; rfl, .inr (.inl ⟨rfl, s, rfl⟩)⟩
  · exact ⟨91, [93], by simp [dumps, py], .inr (.inr (.inl ⟨rfl, _, rfl⟩))⟩
  · exact ⟨91, _, by simp only [dumps, List.cons_append]; rfl, .inr (.inr (.inl ⟨rfl, _, rfl⟩))⟩
  · exact ⟨123, [125], by simp [dumps, py], .inr (.inr (.inr ⟨rfl, _, rfl⟩))⟩
  · exact ⟨123, _, by simp only [dumps, List.cons_append]; rfl, .inr (.inr (.inr ⟨rfl, _, rfl⟩))⟩

/-- A word is told apart from every value. -/
theorem IsWord.append_inj {x y : Json} (hx : IsWord x) {r : FloatRepr} {s t : PyStr} (hs : Ends s)
    (ht : Ends t) (h : dumps false r x ++ s = dumps false r y ++ t) : x = y ∧ s = t := by
  obtain ⟨hne, hplain⟩ := hx.plain false r
  obtain ⟨c, rest, hx', hc⟩ : ∃ c rest, dumps false r x = c :: rest ∧ isPlain c := by
    obtain ⟨c, rest, hcons⟩ := List.exists_cons_of_ne_nil hne
    exact ⟨c, rest, hcons, hplain c (hcons ▸ List.mem_cons_self)⟩
  obtain ⟨d, rest', hy', hd⟩ := dumps_head false r y
  have hcd : c = d := by
    rw [hx', hy'] at h
    exact (List.cons.inj h).1
  subst hcd
  rcases hd with ⟨hy, -⟩ | ⟨rfl, -⟩ | ⟨rfl, -⟩ | ⟨rfl, -⟩
  · obtain ⟨htext, hst⟩ := plain_append_inj hplain (hy.plain false r).2 hs ht h
    exact ⟨hx.dumps_inj hy htext, hst⟩
  all_goals simp [isPlain, isDigit, isFloatMark] at hc

/-- A value does not open with a closing bracket. -/
theorem dumps_head_ne (r : FloatRepr) (x : Json) (s t : PyStr) : dumps false r x ++ s ≠ 93 :: t := by
  intro h
  obtain ⟨c, rest, hx, hc⟩ := dumps_head false r x
  rw [hx] at h
  obtain rfl : c = 93 := (List.cons.inj h).1
  simp [isPlain, isDigit, isFloatMark] at hc

mutual

/-- **A dumped value can be read off the front of a text**, provided that what follows cannot
continue a number. -/
theorem dumps_append_inj (r : FloatRepr) (x y : Json) {s t : PyStr} (hs : Ends s) (ht : Ends t)
    (h : dumps false r x ++ s = dumps false r y ++ t) : x = y ∧ s = t := by
  -- the first character tells the kind of the value
  obtain ⟨d, rest, hy, hd⟩ := dumps_head false r y
  have hhead : (dumps false r x ++ s).head? = some d := by rw [h, hy]; rfl
  match x with
  | .null => exact IsWord.append_inj (.const (t := py "null") (by decide)) hs ht h
  | .bool true => exact IsWord.append_inj (.const (t := py "true") (by decide)) hs ht h
  | .bool false => exact IsWord.append_inj (.const (t := py "false") (by decide)) hs ht h
  | .int n => exact IsWord.append_inj (.int n) hs ht h
  | .float (.fin q) => exact IsWord.append_inj (.fin q) hs ht h
  | .float .negZero => exact IsWord.append_inj (.const (t := py "-0.0") (by decide)) hs ht h
  | .float (.inf false) => exact IsWord.append_inj (.const (t := py "Infinity") (by decide)) hs ht h
  | .float (.inf true) => exact IsWord.append_inj (.const (t := py "-Infinity") (by decide)) hs ht h
  | .float .nan => exact IsWord.append_inj (.const (t := py "NaN") (by decide)) hs ht h
  | .str k =>
    obtain rfl : d = 34 := by simpa [dumps, dumpsStr] using hhead.symm
    obtain ⟨l, rfl⟩ : ∃ l, y = .str l := by simpa [isPlain, isDigit, isFloatMark] using hd
    obtain ⟨rfl, hst⟩ := dumpsStr_append_inj (by simpa [dumps] using h)
    exact ⟨rfl, hst⟩
  | .arr [] =>
    obtain rfl : d = 91 := by simpa [dumps, py] using hhead.symm
    obtain ⟨ys, rfl⟩ : ∃ ys, y = .arr ys := by simpa [isPlain, isDigit, isFloatMark] using hd
    rcases ys with - | ⟨y, ys⟩
    · exact ⟨rfl, by simpa [dumps, py] using h⟩
    · exact absurd (by simpa [dumps, py, List.append_assoc] using h.symm)
        (dumps_head_ne r y (dumpsItems false r ys ++ t) s)
  | .arr (x :: xs) =>
    obtain rfl : d = 91 := by simpa [dumps] using hhead.symm
    obtain ⟨ys, rfl⟩ : ∃ ys, y = .arr ys := by simpa [isPlain, isDigit, isFloatMark] using hd
    rcases ys with - | ⟨y, ys⟩
    · exact absurd (by simpa [dumps, py, List.append_assoc] using h)
        (dumps_head_ne r x (dumpsItems false r xs ++ s) t)
    · obtain ⟨rfl, hrest⟩ := dumps_append_inj r x y (ends_dumpsItems _ _ _ _)
        (ends_dumpsItems _ _ _ _) (by simpa [dumps, List.append_assoc] using h)
      obtain ⟨rfl, hst⟩ := dumpsItems_append_inj r xs ys hrest
      exact ⟨rfl, hst⟩
  | .obj [] =>
    obtain rfl : d = 123 := by simpa [dumps, py] using hhead.symm
    obtain ⟨ys, rfl⟩ : ∃ ys, y = .obj ys := by simpa [isPlain, isDigit, isFloatMark] using hd
    rcases ys with - | ⟨⟨l, y⟩, ys⟩
    · exact ⟨rfl, by simpa [dumps, py] using h⟩
    · simp [dumps, dumpsStr, py] at h
  | .obj ((k, x) :: xs) =>
    obtain rfl : d = 123 := by simpa [dumps] using hhead.symm
    obtain ⟨ys, rfl⟩ : ∃ ys, y = .obj ys := by simpa [isPlain, isDigit, isFloatMark] using hd
    rcases ys with - | ⟨⟨l, y⟩, ys⟩
    · simp [dumps, dumpsStr, py] at h
    · have hkey : dumpsStr false k ++ (py ": " ++ dumps false r x ++ dumpsEntries false r xs ++ s) =
          dumpsStr false l ++ (py ": " ++ dumps false r y ++ dumpsEntries false r ys ++ t) := by
        simpa [dumps, List.append_assoc] using h
      -- the key, the value and the rest are read off one after the other
      obtain ⟨rfl, hvalue⟩ := dumpsStr_append_inj hkey
      obtain ⟨rfl, hrest⟩ := dumps_append_inj r x y (ends_dumpsEntries _ _ _ _)
        (ends_dumpsEntries _ _ _ _) (by simpa [List.append_assoc] using hvalue)
      obtain ⟨rfl, hst⟩ := dumpsEntries_append_inj r xs ys hrest
      exact ⟨rfl, hst⟩

/-- `dumps_append_inj` for the items of an array after the first. -/
theorem dumpsItems_append_inj (r : FloatRepr) (xs ys : List Json) {s t : PyStr}
    (h : dumpsItems false r xs ++ s = dumpsItems false r ys ++ t) : xs = ys ∧ s = t := by
  match xs, ys with
  | [], [] => exact ⟨rfl, by simpa [dumpsItems] using h⟩
  | [], y :: ys => simp [dumpsItems, py] at h
  | x :: xs, [] => simp [dumpsItems, py] at h
  | x :: xs, y :: ys =>
    obtain ⟨rfl, hrest⟩ := dumps_append_inj r x y (ends_dumpsItems _ _ _ _)
      (ends_dumpsItems _ _ _ _) (by simpa [dumpsItems, List.append_assoc] using h)
    obtain ⟨rfl, hst⟩ := dumpsItems_append_inj r xs ys hrest
    exact ⟨rfl, hst⟩

/-- `dumps_append_inj` for the entries of an object after the first. -/
theorem dumpsEntries_append_inj (r : FloatRepr) (xs ys : PyDict) {s t : PyStr}
    (h : dumpsEntries false r xs ++ s = dumpsEntries false r ys ++ t) : xs = ys ∧ s = t := by
  match xs, ys with
  | [], [] => exact ⟨rfl, by simpa [dumpsEntries] using h⟩
  | [], (l, y) :: ys => simp [dumpsEntries, py] at h
  | (k, x) :: xs, [] => simp [dumpsEntries, py] at h
  | (k, x) :: xs, (l, y) :: ys =>
    have hkey : dumpsStr false k ++ (py ": " ++ dumps false r x ++ dumpsEntries false r xs ++ s) =
        dumpsStr false l ++ (py ": " ++ dumps false r y ++ dumpsEntries false r ys ++ t) := by
      simpa [dumpsEntries, List.append_assoc] using h
    obtain ⟨rfl, hvalue⟩ := dumpsStr_append_inj hkey
    obtain ⟨rfl, hrest⟩ := dumps_append_inj r x y (ends_dumpsEntries _ _ _ _)
      (ends_dumpsEntries _ _ _ _) (by simpa [List.append_assoc] using hvalue)
    obtain ⟨rfl, hst⟩ := dumpsEntries_append_inj r xs ys hrest
    exact ⟨rfl, hst⟩

end

/-- **`json.dumps(..., ensure_ascii=False)` is injective.** -/
theorem dumps_injective (r : FloatRepr) : Function.Injective (dumps false r) := fun x y h ↦
  (dumps_append_inj r x y (s := []) (t := []) (by simp [Ends]) (by simp [Ends])
    (by simpa using h)).1

/-! ### No control characters -/

theorem hexDigit_printable (n : ℕ) : 32 ≤ hexDigit n := by
  unfold hexDigit
  split_ifs <;> omega

theorem escapeChar_printable (ascii : Bool) (c : ℕ) : ∀ d ∈ escapeChar ascii c, 32 ≤ d := by
  have hescape : ∀ n, ∀ d ∈ unicodeEscape n, 32 ≤ d := by
    intro n d hd
    simp only [unicodeEscape, List.mem_cons, List.not_mem_nil, or_false] at hd
    rcases hd with rfl | rfl | rfl | rfl | rfl | rfl <;>
      first | decide | exact hexDigit_printable _
  have h := escapeChar_escaped ascii c
  generalize escapeChar ascii c = t at h ⊢
  cases h with
  | short hmem =>
    have htable : ∀ e ∈ shortEscapes, 32 ≤ e.2 := by decide
    exact List.forall_mem_cons.2 ⟨by omega, by simpa using htable _ hmem⟩
  | unicode _ => exact hescape c
  | pair m n _ => exact fun d hd ↦ (List.mem_append.1 hd).elim (hescape m d) (hescape n d)
  | plain _ _ hc _ => simpa using hc

theorem dumpsStr_printable (ascii : Bool) (s : PyStr) : ∀ c ∈ dumpsStr ascii s, 32 ≤ c := by
  intro c hc
  rw [dumpsStr, List.cons_append, List.mem_cons, List.mem_append, List.mem_flatMap,
    List.mem_singleton] at hc
  rcases hc with rfl | ⟨d, -, hd⟩ | rfl
  · omega
  · exact escapeChar_printable ascii d c hd
  · omega

theorem IsWord.printable {x : Json} (hx : IsWord x) (ascii : Bool) (r : FloatRepr) :
    ∀ c ∈ dumps ascii r x, 32 ≤ c := by
  intro c hc
  have hplain := (hx.plain ascii r).2 c hc
  simp only [isPlain, isDigit, isFloatMark, Bool.or_eq_true, Bool.and_eq_true,
    decide_eq_true_eq] at hplain
  omega

mutual

/-- **A dumped value has no control character**, so no line end and no `NUL`. -/
theorem dumps_printable (ascii : Bool) (r : FloatRepr) (x : Json) :
    ∀ c ∈ dumps ascii r x, 32 ≤ c := by
  match x with
  | .null => exact IsWord.printable (.const (t := py "null") (by decide)) ascii r
  | .bool true => exact IsWord.printable (.const (t := py "true") (by decide)) ascii r
  | .bool false => exact IsWord.printable (.const (t := py "false") (by decide)) ascii r
  | .int n => exact IsWord.printable (.int n) ascii r
  | .float (.fin q) => exact IsWord.printable (.fin q) ascii r
  | .float .negZero => exact IsWord.printable (.const (t := py "-0.0") (by decide)) ascii r
  | .float (.inf false) => exact IsWord.printable (.const (t := py "Infinity") (by decide)) ascii r
  | .float (.inf true) => exact IsWord.printable (.const (t := py "-Infinity") (by decide)) ascii r
  | .float .nan => exact IsWord.printable (.const (t := py "NaN") (by decide)) ascii r
  | .str s => simpa only [dumps] using dumpsStr_printable ascii s
  | .arr [] => simp only [dumps]; decide
  | .arr (x :: xs) =>
    have hx := dumps_printable ascii r x
    have hxs := dumpsItems_printable ascii r xs
    simp only [dumps, List.cons_append, List.mem_cons, List.mem_append]
    rintro c (rfl | hc | hc)
    · omega
    · exact hx c hc
    · exact hxs c hc
  | .obj [] => simp only [dumps]; decide
  | .obj ((k, x) :: xs) =>
    have hx := dumps_printable ascii r x
    have hxs := dumpsEntries_printable ascii r xs
    simp only [dumps, List.cons_append, List.mem_cons, List.mem_append]
    rintro c (rfl | ((hc | hc) | hc) | hc)
    · omega
    · exact dumpsStr_printable ascii k c hc
    · exact (by decide : ∀ c ∈ py ": ", 32 ≤ c) c hc
    · exact hx c hc
    · exact hxs c hc

/-- `dumps_printable` for the items of an array after the first. -/
theorem dumpsItems_printable (ascii : Bool) (r : FloatRepr) (xs : List Json) :
    ∀ c ∈ dumpsItems ascii r xs, 32 ≤ c := by
  match xs with
  | [] => simp [dumpsItems]
  | x :: xs =>
    have hx := dumps_printable ascii r x
    have hxs := dumpsItems_printable ascii r xs
    simp only [dumpsItems, List.mem_append]
    rintro c ((hc | hc) | hc)
    · exact (by decide : ∀ c ∈ py ", ", 32 ≤ c) c hc
    · exact hx c hc
    · exact hxs c hc

/-- `dumps_printable` for the entries of an object after the first. -/
theorem dumpsEntries_printable (ascii : Bool) (r : FloatRepr) (xs : PyDict) :
    ∀ c ∈ dumpsEntries ascii r xs, 32 ≤ c := by
  match xs with
  | [] => simp [dumpsEntries]
  | (k, x) :: xs =>
    have hx := dumps_printable ascii r x
    have hxs := dumpsEntries_printable ascii r xs
    simp only [dumpsEntries, List.mem_append]
    rintro c ((((hc | hc) | hc) | hc) | hc)
    · exact (by decide : ∀ c ∈ py ", ", 32 ≤ c) c hc
    · exact dumpsStr_printable ascii k c hc
    · exact (by decide : ∀ c ∈ py ": ", 32 ≤ c) c hc
    · exact hx c hc
    · exact hxs c hc

end

end Json
