import LocalGateway.Python.Json

/-!
# What `json.dumps` writes can be encoded

A text that `json.loads` has read may hold half of a surrogate pair, which UTF-8 has no bytes for. With
`ensure_ascii` every character that is not ASCII is escaped, and the output can always be encoded; without
it, it can exactly if no string of the value has such a character (`forall_isScalar_dumps_iff`). An integer
with too many digits is not written at all.
-/

open Py

namespace Json

/-- `sys.get_int_max_str_digits()`. -/
def maxStrDigits : ℕ :=
  4300

/-- The integer has a decimal text. -/
def Printable (n : ℤ) : Prop :=
  (natRepr n.natAbs).length ≤ maxStrDigits

instance (n : ℤ) : Decidable (Printable n) :=
  inferInstanceAs (Decidable (_ ≤ _))

/-! ### Strings -/

mutual

/-- The strings of a value, keys included. -/
def strings : Json → List PyStr
  | .str s => [s]
  | .arr xs => stringsItems xs
  | .obj kvs => stringsEntries kvs
  | _ => []

/-- The strings of the items of an array. -/
def stringsItems : List Json → List PyStr
  | [] => []
  | x :: xs => strings x ++ stringsItems xs

/-- The strings of the entries of an object. -/
def stringsEntries : PyDict → List PyStr
  | [] => []
  | (k, x) :: xs => k :: strings x ++ stringsEntries xs

end

/-! ### Characters that are not ASCII -/

section High

variable {c : ℕ} (hc : 126 < c) (ascii : Bool) (r : FloatRepr)

include hc

theorem not_mem_unicodeEscape (n : ℕ) : c ∉ unicodeEscape n := by
  have hdigit : ∀ k, hexDigit (k % 16) < 103 := by
    intro k
    unfold hexDigit
    split_ifs <;> omega
  simp only [unicodeEscape, List.mem_cons, List.not_mem_nil, or_false, not_or]
  refine ⟨by omega, by omega, ?_, ?_, ?_, ?_⟩
  all_goals exact fun h ↦ absurd (h ▸ hdigit _) (by omega)

theorem mem_escapeChar_iff (d : ℕ) : c ∈ escapeChar ascii d ↔ ascii = false ∧ c = d := by
  have hescape := not_mem_unicodeEscape hc
  have h := escapeChar_escaped ascii d
  generalize escapeChar ascii d = t at h ⊢
  cases h with
  | @short e hmem =>
    have htable : ∀ e ∈ shortEscapes, e.1 ≤ 92 ∧ e.2 ≤ 116 := by decide
    obtain ⟨hd, he⟩ := htable _ hmem
    simp only [List.mem_cons, List.not_mem_nil, or_false]
    omega
  | unicode h =>
    simp only [hescape, false_iff]
    rintro ⟨rfl, rfl⟩
    rcases h with h | ⟨h, -⟩
    · omega
    · cases h
  | pair m n h => simp [hescape, h]
  | plain _ _ _ hplain =>
    rw [List.mem_singleton]
    refine ⟨fun h ↦ ⟨?_, h⟩, fun h ↦ h.2⟩
    subst h
    exact Bool.eq_false_iff.2 fun htrue ↦ hplain ⟨htrue, hc⟩

theorem mem_dumpsStr_iff (s : PyStr) : c ∈ dumpsStr ascii s ↔ ascii = false ∧ c ∈ s := by
  rw [dumpsStr, List.cons_append, List.mem_cons, List.mem_append, List.mem_flatMap,
    List.mem_singleton]
  simp only [mem_escapeChar_iff hc]
  constructor
  · rintro (rfl | ⟨d, hd, hascii, rfl⟩ | rfl)
    · omega
    · exact ⟨hascii, hd⟩
    · omega
  · exact fun ⟨hascii, hmem⟩ ↦ .inr (.inl ⟨c, hmem, hascii, rfl⟩)

theorem IsWord.not_mem {x : Json} (hx : IsWord x) : c ∉ dumps ascii r x := by
  intro hmem
  have hplain := (hx.plain ascii r).2 c hmem
  simp only [isPlain, isDigit, isFloatMark, Bool.or_eq_true, Bool.and_eq_true,
    decide_eq_true_eq] at hplain
  omega

/-- A word has no strings, and no character that is not ASCII. -/
theorem IsWord.mem_dumps_iff {x : Json} (hx : IsWord x) (hnone : strings x = []) :
    c ∈ dumps ascii r x ↔ ascii = false ∧ ∃ s ∈ strings x, c ∈ s := by
  rw [hnone]
  exact iff_of_false (hx.not_mem hc ascii r) (by simp)

/-- The text between values is ASCII. -/
theorem not_mem_ascii {t : PyStr} (ht : ∀ d ∈ t, d ≤ 126) : c ∉ t :=
  fun h ↦ absurd (ht c h) (by omega)

mutual

/-- **The characters of a dumped value that are not ASCII** are those of its strings, and there are none
with `ensure_ascii`. -/
theorem mem_dumps_iff (x : Json) :
    c ∈ dumps ascii r x ↔ ascii = false ∧ ∃ s ∈ strings x, c ∈ s := by
  match x with
  | .null => exact IsWord.mem_dumps_iff hc ascii r (.const (t := py "null") (by decide)) rfl
  | .bool true => exact IsWord.mem_dumps_iff hc ascii r (.const (t := py "true") (by decide)) rfl
  | .bool false => exact IsWord.mem_dumps_iff hc ascii r (.const (t := py "false") (by decide)) rfl
  | .int n => exact IsWord.mem_dumps_iff hc ascii r (.int n) rfl
  | .float (.fin q) => exact IsWord.mem_dumps_iff hc ascii r (.fin q) rfl
  | .float .negZero =>
    exact IsWord.mem_dumps_iff hc ascii r (.const (t := py "-0.0") (by decide)) rfl
  | .float (.inf false) =>
    exact IsWord.mem_dumps_iff hc ascii r (.const (t := py "Infinity") (by decide)) rfl
  | .float (.inf true) =>
    exact IsWord.mem_dumps_iff hc ascii r (.const (t := py "-Infinity") (by decide)) rfl
  | .float .nan => exact IsWord.mem_dumps_iff hc ascii r (.const (t := py "NaN") (by decide)) rfl
  | .str s => simp [dumps, strings, mem_dumpsStr_iff hc]
  | .arr [] => simp only [dumps, strings, stringsItems]; simp [not_mem_ascii hc (t := py "[]") (by decide)]
  | .arr (x :: xs) =>
    have hx := mem_dumps_iff x
    have hxs := mem_dumpsItems_iff xs
    simp only [dumps, strings, stringsItems, List.cons_append, List.mem_cons, List.mem_append, hx, hxs]
    have hne : c ≠ 91 := by omega
    grind
  | .obj [] =>
    simp only [dumps, strings, stringsEntries]
    simp [not_mem_ascii hc (t := py "\x7b\x7d") (by decide)]
  | .obj ((k, x) :: xs) =>
    have hx := mem_dumps_iff x
    have hxs := mem_dumpsEntries_iff xs
    have hk := mem_dumpsStr_iff hc ascii k
    have hcolon := not_mem_ascii hc (t := py ": ") (by decide)
    simp only [dumps, strings, stringsEntries, List.cons_append, List.mem_cons, List.mem_append, hx, hxs,
      hk, hcolon]
    have hne : c ≠ 123 := by omega
    grind

/-- `mem_dumps_iff` for the items of an array after the first. -/
theorem mem_dumpsItems_iff (xs : List Json) :
    c ∈ dumpsItems ascii r xs ↔ ascii = false ∧ ∃ s ∈ stringsItems xs, c ∈ s := by
  match xs with
  | [] =>
    have hne : c ≠ 93 := by omega
    simp [dumpsItems, stringsItems, hne]
  | x :: xs =>
    have hx := mem_dumps_iff x
    have hxs := mem_dumpsItems_iff xs
    have hcomma := not_mem_ascii hc (t := py ", ") (by decide)
    simp only [dumpsItems, stringsItems, List.mem_append, hx, hxs, hcomma]
    grind

/-- `mem_dumps_iff` for the entries of an object after the first. -/
theorem mem_dumpsEntries_iff (xs : PyDict) :
    c ∈ dumpsEntries ascii r xs ↔ ascii = false ∧ ∃ s ∈ stringsEntries xs, c ∈ s := by
  match xs with
  | [] =>
    have hne : c ≠ 125 := by omega
    simp [dumpsEntries, stringsEntries, hne]
  | (k, x) :: xs =>
    have hx := mem_dumps_iff x
    have hxs := mem_dumpsEntries_iff xs
    have hk := mem_dumpsStr_iff hc ascii k
    have hcomma := not_mem_ascii hc (t := py ", ") (by decide)
    have hcolon := not_mem_ascii hc (t := py ": ") (by decide)
    simp only [dumpsEntries, stringsEntries, List.cons_append, List.mem_cons, List.mem_append, hx, hxs, hk,
      hcomma, hcolon]
    grind

end

end High

/-! ### Encoding -/

/-- No string of the value has half of a surrogate pair. -/
def Encodable (x : Json) : Prop :=
  ∀ s ∈ strings x, ∀ c ∈ s, IsScalar c

/-- What is no scalar value is not ASCII. -/
theorem high_of_not_isScalar {c : ℕ} (h : ¬ IsScalar c) : 126 < c := by
  by_contra hle
  exact h (by unfold IsScalar; omega)

theorem isScalar_of_ascii {t : PyStr} (ht : ∀ d ∈ t, d ≤ 126) : ∀ c ∈ t, IsScalar c := by
  intro c hc
  by_contra h
  exact not_mem_ascii (high_of_not_isScalar h) ht hc

/-- **A dumped value can be encoded** with `ensure_ascii`, and otherwise exactly if its strings can. -/
theorem forall_isScalar_dumps_iff (ascii : Bool) (r : FloatRepr) (x : Json) :
    (∀ c ∈ dumps ascii r x, IsScalar c) ↔ ascii = true ∨ Encodable x := by
  constructor
  · intro h
    rcases hascii : ascii with - | -
    · refine .inr fun s hs c hcs ↦ ?_
      by_contra hnot
      exact hnot (h c ((mem_dumps_iff (high_of_not_isScalar hnot) ascii r x).2 ⟨hascii, s, hs, hcs⟩))
    · exact .inl rfl
  · intro h c hcx
    by_contra hnot
    obtain ⟨hascii, s, hs, hcs⟩ := (mem_dumps_iff (high_of_not_isScalar hnot) ascii r x).1 hcx
    rcases h with htrue | hencodable
    · exact absurd (hascii.symm.trans htrue) nofun
    · exact hnot (hencodable s hs c hcs)

/-! ### Encodable parts -/

theorem encodable_str_iff {s : PyStr} : Encodable (.str s) ↔ ∀ c ∈ s, IsScalar c := by
  simp [Encodable, strings]

theorem encodable_arr_iff {xs : List Json} : Encodable (.arr xs) ↔ ∀ x ∈ xs, Encodable x := by
  have hitems : ∀ s, s ∈ stringsItems xs ↔ ∃ x ∈ xs, s ∈ strings x := by
    intro s
    induction xs with
    | nil => simp [stringsItems]
    | cons x xs ih => simp [stringsItems, ih]
  simp only [Encodable, strings, hitems]
  exact ⟨fun h x hx s hs ↦ h s ⟨x, hx, hs⟩, fun h s ⟨x, hx, hs⟩ ↦ h x hx s hs⟩

theorem encodable_cons_iff {k : PyStr} {v : Json} {d : PyDict} :
    Encodable (.obj ((k, v) :: d)) ↔ (∀ c ∈ k, IsScalar c) ∧ Encodable v ∧ Encodable (.obj d) := by
  simp only [Encodable, strings, stringsEntries, List.cons_append, List.mem_cons, List.mem_append]
  grind

theorem Encodable.of_get? {d : PyDict} (h : Encodable (.obj d)) {k : PyStr} {v : Json}
    (hv : get? d k = some v) : Encodable v := by
  induction d with
  | nil => cases hv
  | cons e d ih =>
    obtain ⟨l, w⟩ := e
    obtain ⟨-, hw, hd⟩ := encodable_cons_iff.1 h
    rw [get?, List.lookup_cons] at hv
    split at hv
    · exact Option.some.inj hv ▸ hw
    · exact ih hd hv

/-- A value in the place of another. -/
theorem encodable_setKey_iff {d : PyDict} {k : PyStr} {v w : Json} (hw : get? d k = some w) :
    Encodable (.obj (setKey d k v)) ∧ Encodable w ↔ Encodable (.obj d) ∧ Encodable v := by
  induction d with
  | nil => cases hw
  | cons e d ih =>
    obtain ⟨l, u⟩ := e
    rw [setKey]
    by_cases hl : l = k
    · subst hl
      obtain rfl : u = w := by simpa [get?] using hw
      rw [if_pos rfl, encodable_cons_iff, encodable_cons_iff]
      grind
    · rw [if_neg hl, encodable_cons_iff, encodable_cons_iff]
      have hne : (k == l) = false := by simpa using Ne.symm hl
      have hd := ih (by simpa [get?, List.lookup_cons, hne] using hw)
      grind

/-- A value under a new key. -/
theorem encodable_setKey_new_iff {d : PyDict} {k : PyStr} {v : Json} (hk : ∀ c ∈ k, IsScalar c)
    (hnone : get? d k = none) :
    Encodable (.obj (setKey d k v)) ↔ Encodable (.obj d) ∧ Encodable v := by
  induction d with
  | nil =>
    rw [setKey, encodable_cons_iff]
    grind
  | cons e d ih =>
    obtain ⟨l, u⟩ := e
    by_cases hl : l = k
    · subst hl
      simp [get?] at hnone
    · rw [setKey, if_neg hl, encodable_cons_iff, encodable_cons_iff]
      have hne : (k == l) = false := by simpa using Ne.symm hl
      have hd := ih (by simpa [get?, List.lookup_cons, hne] using hnone)
      grind

/-- A value that is not true has no strings. -/
theorem encodable_of_falsy {v : Json} (h : v.truthy = false) : Encodable v := by
  cases v with
  | str s =>
    obtain rfl : s = [] := by simpa [truthy] using h
    simp [Encodable, strings]
  | arr xs =>
    obtain rfl : xs = [] := by simpa [truthy] using h
    simp [Encodable, strings, stringsItems]
  | obj d =>
    obtain rfl : d = [] := by simpa [truthy] using h
    simp [Encodable, strings, stringsEntries]
  | _ => simp [Encodable, strings]

end Json
