import LocalGateway.Python.Encode

/-!
# `json.dumps` without spaces

What `json.dumps` writes with the separators `","` and `":"`. Like the default, it escapes everything that is not ASCII
(`compact_ascii`), and every entry of an object stands in the text (`exists_entry`).
-/

open Py

namespace Json

mutual

/-- `json.dumps(x, separators=(",", ":"))`. -/
def compact (r : FloatRepr) : Json → PyStr
  | .null => py "null"
  | .bool true => py "true"
  | .bool false => py "false"
  | .int n => intRepr n
  | .float x => dumpsFloat r x
  | .str s => dumpsStr true s
  | .arr [] => py "[]"
  | .arr (x :: xs) => 91 :: compact r x ++ compactItems r xs
  | .obj [] => py "\x7b\x7d"
  | .obj ((k, x) :: xs) => 123 :: dumpsStr true k ++ 58 :: compact r x ++ compactEntries r xs

/-- The items of an array after the first, and its end. -/
def compactItems (r : FloatRepr) : List Json → PyStr
  | [] => [93]
  | x :: xs => 44 :: compact r x ++ compactItems r xs

/-- The entries of an object after the first, and its end. -/
def compactEntries (r : FloatRepr) : PyDict → PyStr
  | [] => [125]
  | (k, x) :: xs => 44 :: dumpsStr true k ++ 58 :: compact r x ++ compactEntries r xs

end

section Ascii

variable (r : FloatRepr) {c : ℕ} (hc : 126 < c)

include hc

theorem not_mem_dumpsStr (s : PyStr) : c ∉ dumpsStr true s := fun h ↦
  Bool.false_ne_true ((mem_dumpsStr_iff hc true s).1 h).1.symm

mutual

/-- **The text is ASCII.** -/
theorem compact_ascii (x : Json) : c ∉ compact r x := by
  match x with
  | .null => exact not_mem_ascii hc (t := py "null") (by decide)
  | .bool true => exact not_mem_ascii hc (t := py "true") (by decide)
  | .bool false => exact not_mem_ascii hc (t := py "false") (by decide)
  | .int n => exact (IsWord.int n).not_mem hc true r
  | .float (.fin q) => exact (IsWord.fin q).not_mem hc true r
  | .float .negZero => exact not_mem_ascii hc (t := py "-0.0") (by decide)
  | .float (.inf false) => exact not_mem_ascii hc (t := py "Infinity") (by decide)
  | .float (.inf true) => exact not_mem_ascii hc (t := py "-Infinity") (by decide)
  | .float .nan => exact not_mem_ascii hc (t := py "NaN") (by decide)
  | .str s => exact not_mem_dumpsStr hc s
  | .arr [] => exact not_mem_ascii hc (t := py "[]") (by decide)
  | .arr (x :: xs) =>
    have hx := compact_ascii x
    have hxs := compactItems_ascii xs
    have hne : c ≠ 91 := by omega
    simp [compact, hx, hxs, hne]
  | .obj [] => exact not_mem_ascii hc (t := py "\x7b\x7d") (by decide)
  | .obj ((k, x) :: xs) =>
    have hk := not_mem_dumpsStr hc k
    have hx := compact_ascii x
    have hxs := compactEntries_ascii xs
    have hopen : c ≠ 123 := by omega
    have hcolon : c ≠ 58 := by omega
    simp [compact, hk, hx, hxs, hopen, hcolon]

/-- `compact_ascii` for the items of an array after the first. -/
theorem compactItems_ascii (xs : List Json) : c ∉ compactItems r xs := by
  match xs with
  | [] => exact not_mem_ascii hc (t := [93]) (by decide)
  | x :: xs =>
    have hx := compact_ascii x
    have hxs := compactItems_ascii xs
    have hne : c ≠ 44 := by omega
    simp [compactItems, hx, hxs, hne]

/-- `compact_ascii` for the entries of an object after the first. -/
theorem compactEntries_ascii (xs : PyDict) : c ∉ compactEntries r xs := by
  match xs with
  | [] => exact not_mem_ascii hc (t := [125]) (by decide)
  | (k, x) :: xs =>
    have hk := not_mem_dumpsStr hc k
    have hx := compact_ascii x
    have hxs := compactEntries_ascii xs
    have hcomma : c ≠ 44 := by omega
    have hcolon : c ≠ 58 := by omega
    simp [compactEntries, hk, hx, hxs, hcomma, hcolon]

end

end Ascii

/-- An entry as it stands in the text of an object. -/
def entryText (r : FloatRepr) (k : PyStr) (x : Json) : PyStr :=
  dumpsStr true k ++ 58 :: compact r x

theorem exists_entryItems (r : FloatRepr) {d : PyDict} {k : PyStr} {x : Json} (h : (k, x) ∈ d) :
    entryText r k x <:+: compactEntries r d := by
  induction d with
  | nil => cases h
  | cons e d ih =>
    obtain ⟨l, y⟩ := e
    rcases List.mem_cons.1 h with heq | hmem
    · obtain ⟨rfl, rfl⟩ := Prod.mk.inj heq
      exact ⟨[44], compactEntries r d, by simp [compactEntries, entryText]⟩
    · obtain ⟨before, after, hd⟩ := ih hmem
      exact ⟨44 :: entryText r l y ++ before, after, by simp [compactEntries, entryText, ← hd]⟩

/-- **An entry of an object** stands in its text. -/
theorem exists_entry (r : FloatRepr) {d : PyDict} {k : PyStr} {x : Json} (h : (k, x) ∈ d) :
    entryText r k x <:+: compact r (.obj d) := by
  rcases d with - | ⟨⟨l, y⟩, d⟩
  · cases h
  · rcases List.mem_cons.1 h with heq | hmem
    · obtain ⟨rfl, rfl⟩ := Prod.mk.inj heq
      exact ⟨[123], compactEntries r d, by simp [compact, entryText]⟩
    · obtain ⟨before, after, hd⟩ := exists_entryItems r hmem
      exact ⟨123 :: entryText r l y ++ before, after, by simp [compact, entryText, ← hd]⟩

/-- A string of characters that are written as they are. -/
theorem dumpsStr_of_plain {s : PyStr} (h : ∀ c ∈ s, 32 ≤ c ∧ c ≤ 126 ∧ c ≠ 34 ∧ c ≠ 92) :
    dumpsStr true s = 34 :: s ++ [34] := by
  have hself : s.flatMap (escapeChar true) = s := by
    induction s with
    | nil => rfl
    | cons c s ih =>
      obtain ⟨hlow, hhigh, hquote, hslash⟩ := h c List.mem_cons_self
      have hchar : escapeChar true c = [c] := by
        unfold escapeChar
        rw [if_neg hquote, if_neg hslash, if_neg (by omega), if_neg (by omega), if_neg (by omega),
          if_neg (by omega), if_neg (by omega), if_neg (by omega), if_neg (by omega)]
      rw [List.flatMap_cons, hchar, ih fun d hd ↦ h d (List.mem_cons_of_mem c hd)]
      rfl
  rw [dumpsStr, hself]

end Json
