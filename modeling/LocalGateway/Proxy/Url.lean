import Mathlib.Algebra.GroupWithZero.Nat
import LocalGateway.Python.Text

/-!
# Paths and URLs

What a path goes through between a client and the worker. The server decodes its percent escapes
(`unquote`); `request.url` is put together from the pieces and split again (`urlsplit`); the HTTP
client that passes the request on reads it as a URL once more and removes dot segments
(`normalizePath`); and the server of the worker decodes what it gets.

None of these makes a path longer, and each makes it shorter unless it finds nothing to do. That is
what `arrives_eq_self_iff` rests on: a path comes through as it is exactly when it has no `?`, `#`,
dot segment or percent escape (`Clean`).
-/

namespace LocalGateway

open Py

/-! ### Percent escapes -/

/-- The value of a hexadecimal digit. -/
def hexDigitValue (c : ℕ) : Option ℕ :=
  if 48 ≤ c ∧ c ≤ 57 then some (c - 48)
  else if 65 ≤ c ∧ c ≤ 70 then some (c - 55)
  else if 97 ≤ c ∧ c ≤ 102 then some (c - 87)
  else none

/-- The octet of a percent escape. -/
def escapedOctet (c a b : ℕ) : Option UInt8 :=
  if c = 37 then
    match hexDigitValue a, hexDigitValue b with
    | some x, some y => some (UInt8.ofNat (16 * x + y))
    | _, _ => none
  else none

/-- `unquote_to_bytes`: an escape stands for its octet, any other character for its UTF-8 octets. -/
def unquoteToBytes : PyStr → PyBytes
  | [] => []
  | [c] => encodeChar c
  | [c, a] => encodeChar c ++ encodeChar a
  | c :: a :: b :: s =>
    match escapedOctet c a b with
    | some o => o :: unquoteToBytes s
    | none => encodeChar c ++ unquoteToBytes (a :: b :: s)

/-- `unquote`. -/
def unquote (s : PyStr) : PyStr :=
  utf8Decode (unquoteToBytes s)

/-- There is a percent escape in the text. -/
def hasEscape : PyStr → Bool
  | c :: a :: b :: s => (escapedOctet c a b).isSome || hasEscape (a :: b :: s)
  | _ => false

/-- Without escapes, the octets are those of the text. -/
theorem unquoteToBytes_of_no_escape {s : PyStr} (h : hasEscape s = false) :
    unquoteToBytes s = s.flatMap encodeChar := by
  induction s using unquoteToBytes.induct with
  | case1 => rfl
  | case2 c => simp [unquoteToBytes]
  | case3 c a => simp [unquoteToBytes]
  | case4 c a b s o ho ih =>
    rw [hasEscape, ho] at h
    cases h
  | case5 c a b s hnone ih =>
    rw [hasEscape, hnone] at h
    have hrest : unquoteToBytes (a :: b :: s) = (a :: b :: s).flatMap encodeChar :=
      ih (by simpa using h)
    have hstep : unquoteToBytes (c :: a :: b :: s) = encodeChar c ++ unquoteToBytes (a :: b :: s) := by
      simp only [unquoteToBytes, hnone]
    rw [hstep, hrest, List.flatMap_cons (x := c)]

theorem utf8Encode_eq_flatMap {s : PyStr} (h : ∀ c ∈ s, IsScalar c) :
    utf8Encode s = some (s.flatMap encodeChar) := by
  induction s with
  | nil => rfl
  | cons c s ih =>
    rw [utf8Encode_cons s (h c List.mem_cons_self), ih fun d hd ↦ h d (List.mem_cons_of_mem c hd)]
    rfl

theorem unquote_of_no_escape {s : PyStr} (hs : ∀ c ∈ s, IsScalar c) (h : hasEscape s = false) :
    unquote s = s := by
  rw [unquote, unquoteToBytes_of_no_escape h]
  exact utf8Decode_encode (utf8Encode_eq_flatMap hs)

/-! ### Decoding does not make text longer -/

/-- Whether a character is pending, as a number. -/
def pendingCount : Option Pending → ℕ
  | none => 0
  | some _ => 1

/-- The octets that continue a pending character are continuation octets. -/
def Continues (st : Option Pending) : Prop :=
  ∀ p ∈ st, p.hi ≤ 0xBF

theorem startChar_continues (b : UInt8) : Continues (startChar b).2 := by
  have h := startChar_starts b
  generalize startChar b = r at h ⊢
  cases h with
  | ascii _ | malformed _ => exact fun _ hp ↦ nomatch hp
  | lead _ hhi _ _ => exact fun p hp ↦ Option.some.inj hp ▸ UInt8.le_iff_toNat_le.2 hhi

theorem decodeStep_continues (st : Option Pending) (b : UInt8) : Continues (decodeStep st b).2 := by
  rcases st with - | p
  · exact startChar_continues b
  · rw [decodeStep]
    split_ifs
    · rcases p.need with - | n
      · exact fun q hq ↦ by cases hq
      · rintro q hq
        cases hq
        exact UInt8.le_refl _
    · exact startChar_continues b

/-- One octet gives one character or leaves one pending, never both. -/
theorem startChar_count (b : UInt8) : (startChar b).1.length + pendingCount (startChar b).2 = 1 := by
  have h := startChar_starts b
  generalize startChar b = r at h ⊢
  cases h <;> rfl

/-- What one octet gives, and what it leaves pending, is at most one character more than what was
pending. -/
theorem decodeStep_count (st : Option Pending) (b : UInt8) :
    (decodeStep st b).1.length + pendingCount (decodeStep st b).2 ≤ pendingCount st + 1 := by
  have hstart := startChar_count b
  rcases st with - | p
  · exact hstart.le.trans (by simp [pendingCount])
  · rw [decodeStep]
    split_ifs
    · rcases p.need with - | n <;> simp [pendingCount]
    · simp only [List.length_cons, pendingCount] at *
      omega

/-- The first octet of a character never continues another one. -/
theorem encodeChar_head {c : ℕ} (hc : IsScalar c) :
    ∃ b bs, encodeChar c = b :: bs ∧ (b < 0x80 ∨ 0xC2 ≤ b) := by
  unfold IsScalar at hc
  unfold encodeChar
  split_ifs with h1 h2 h3 <;> refine ⟨_, _, rfl, ?_⟩ <;>
    rw [UInt8.lt_iff_toNat_lt, UInt8.le_iff_toNat_le, toNat_ofNat_of_lt (by omega)]
  · exact .inl h1
  all_goals exact .inr (by simp; omega)

/-- An encoded character after anything: what was pending is given up as one U+FFFD. -/
theorem decodeFrom_encodeChar_of_continues {st : Option Pending} (hst : Continues st) {c : ℕ}
    (hc : IsScalar c) (bs : PyBytes) :
    decodeFrom st (encodeChar c ++ bs) = decodeFrom st [] ++ c :: decodeFrom none bs := by
  rcases st with - | p
  · exact decodeFrom_encodeChar hc bs
  · obtain ⟨b, rest, hb, hrange⟩ := encodeChar_head hc
    have hout : ¬ (p.lo ≤ b ∧ b ≤ p.hi) := by
      have hlo := p.lo_ge
      have hhi : p.hi ≤ 0xBF := hst p rfl
      simp only [UInt8.le_iff_toNat_le, UInt8.lt_iff_toNat_lt] at *
      simp at *
      omega
    -- the octet is read again from the start, as if nothing had been pending
    have hagain : decodeFrom (some p) (b :: (rest ++ bs)) =
        0xFFFD :: decodeFrom none (b :: (rest ++ bs)) := by
      have hstep : decodeStep (some p) b = (0xFFFD :: (startChar b).1, (startChar b).2) :=
        if_neg hout
      rw [decodeFrom_cons, decodeFrom_cons, hstep]
      rfl
    rw [hb, List.cons_append, hagain, ← List.cons_append, ← hb, decodeFrom_encodeChar hc]
    rfl

/-- The characters of the octets are no more than those of the text, and fewer when there is an
escape. -/
theorem length_decodeFrom_unquoteToBytes {s : PyStr} (hs : ∀ c ∈ s, IsScalar c)
    {st : Option Pending} (hst : Continues st) :
    (decodeFrom st (unquoteToBytes s)).length + (hasEscape s).toNat ≤
      pendingCount st + s.length := by
  have hnil (st : Option Pending) : (decodeFrom st []).length = pendingCount st := by
    cases st <;> rfl
  have hnone : Continues none := fun p hp ↦ by cases hp
  induction s using unquoteToBytes.induct generalizing st with
  | case1 => simp [unquoteToBytes, hasEscape, hnil]
  | case2 c =>
    have hc := decodeFrom_encodeChar_of_continues hst (hs c (by simp)) []
    rw [List.append_nil] at hc
    simp [unquoteToBytes, hasEscape, hc, hnil, pendingCount]
  | case3 c a =>
    have ha := decodeFrom_encodeChar_of_continues hnone (hs a (by simp)) []
    rw [List.append_nil] at ha
    simp [unquoteToBytes, hasEscape, decodeFrom_encodeChar_of_continues hst (hs c (by simp)), ha,
      hnil, pendingCount]
  | case4 c a b s o ho ih =>
    have hrest := ih (fun d hd ↦ hs d (by simp [hd])) (decodeStep_continues st o)
    have hstep := decodeStep_count st o
    have hone := Bool.toNat_le (hasEscape (c :: a :: b :: s))
    simp only [unquoteToBytes, ho, decodeFrom_cons, List.length_append, List.length_cons]
    omega
  | case5 c a b s hno ih =>
    have hrest := ih (fun d hd ↦ hs d (List.mem_cons_of_mem c hd)) hnone
    have hesc : hasEscape (c :: a :: b :: s) = hasEscape (a :: b :: s) := by
      rw [hasEscape, hno]
      rfl
    simp only [unquoteToBytes, hno, decodeFrom_encodeChar_of_continues hst (hs c (by simp)),
      List.length_append, List.length_cons, hnil, hesc, pendingCount] at *
    omega

theorem length_unquote {s : PyStr} (hs : ∀ c ∈ s, IsScalar c) :
    (unquote s).length + (hasEscape s).toNat ≤ s.length := by
  have hnone : Continues none := fun p hp ↦ by cases hp
  have h := length_decodeFrom_unquoteToBytes hs hnone
  simpa [pendingCount, unquote, utf8Decode] using h

/-! ### Dot segments -/

/-- A component that is `.` or `..`. -/
def isDot (component : PyStr) : Bool :=
  component = py "." || component = py ".."

/-- What one component does to the output of `normalize_path`. -/
def normalizeStep (output : List PyStr) (component : PyStr) : List PyStr :=
  if component = py "." then output
  else if component = py ".." then
    if output ≠ [] ∧ output ≠ [[]] then output.dropLast else output
  else output ++ [component]

/-- There is a dot segment in the path. -/
def hasDot (path : PyStr) : Bool :=
  (path.splitOn 47).any isDot

/-- `normalize_path` of the HTTP client. -/
def normalizePath (path : PyStr) : PyStr :=
  if hasDot path then [47].intercalate ((path.splitOn 47).foldl normalizeStep []) else path

/-- The length of the components with one slash each. -/
def weight (components : List PyStr) : ℕ :=
  (components.map fun c ↦ c.length + 1).sum

@[simp] theorem weight_nil : weight [] = 0 := rfl

@[simp] theorem weight_cons (c : PyStr) (cs : List PyStr) :
    weight (c :: cs) = c.length + 1 + weight cs := by
  simp [weight]

@[simp] theorem weight_append (cs ds : List PyStr) : weight (cs ++ ds) = weight cs + weight ds := by
  simp [weight]

theorem length_intercalate_slash (cs : List PyStr) :
    ([47].intercalate cs).length = weight cs - 1 := by
  induction cs with
  | nil => rfl
  | cons c cs ih =>
    rcases cs with - | ⟨d, cs⟩
    · simp [List.intercalate]
    · rw [List.intercalate_cons_cons]
      simp only [List.length_append, List.length_singleton, ih, weight_cons]
      omega

theorem weight_splitOn (path : PyStr) : weight (path.splitOn 47) = path.length + 1 := by
  have hjoin := length_intercalate_slash (path.splitOn 47)
  rw [List.intercalate_splitOn] at hjoin
  have hpos : 1 ≤ weight (path.splitOn 47) := by
    obtain ⟨c, cs, hcs⟩ := List.exists_cons_of_ne_nil (List.splitOn_ne_nil 47 path)
    rw [hcs, weight_cons]
    omega
  omega

theorem weight_dropLast_le (cs : List PyStr) : weight cs.dropLast ≤ weight cs := by
  rcases List.eq_nil_or_concat cs with rfl | ⟨ds, d, rfl⟩ <;> simp

/-- A component adds no more than itself to the output, and a dot segment adds nothing. -/
theorem weight_normalizeStep (output : List PyStr) (c : PyStr) :
    weight (normalizeStep output c) + (isDot c).toNat ≤ weight output + (c.length + 1) := by
  have hpop := weight_dropLast_le output
  have hone := Bool.toNat_le (isDot c)
  unfold normalizeStep
  split_ifs with h1 h2 h3
  · omega
  · omega
  · omega
  · have hdot : isDot c = false := by simp [isDot, h1, h2]
    simp [hdot]

theorem weight_foldl_normalizeStep (output cs : List PyStr) :
    weight (cs.foldl normalizeStep output) + (cs.any isDot).toNat ≤ weight output + weight cs := by
  induction cs generalizing output with
  | nil => simp
  | cons c cs ih =>
    have hstep := weight_normalizeStep output c
    have hrest := ih (normalizeStep output c)
    have hor : ((c :: cs).any isDot).toNat ≤ (isDot c).toNat + (cs.any isDot).toNat := by
      rw [List.any_cons]
      cases isDot c <;> cases cs.any isDot <;> decide
    rw [List.foldl_cons, weight_cons]
    omega

/-- Removing dot segments makes a path shorter. -/
theorem length_normalizePath (path : PyStr) :
    (normalizePath path).length + (hasDot path).toNat ≤ path.length := by
  unfold normalizePath
  split_ifs with h
  · have hfold := weight_foldl_normalizeStep [] (path.splitOn 47)
    have hsplit := weight_splitOn path
    have hne : path ≠ [] := by
      rintro rfl
      exact absurd h (by decide)
    have hlen := List.length_pos_iff.2 hne
    unfold hasDot at *
    rw [length_intercalate_slash, h]
    simp only [h, weight_nil, Bool.toNat_true] at *
    omega
  · simp [h]

/-- The components of the output are components of the path. -/
theorem mem_foldl_normalizeStep {output cs : List PyStr} {c : PyStr}
    (h : c ∈ cs.foldl normalizeStep output) : c ∈ output ∨ c ∈ cs := by
  induction cs generalizing output with
  | nil => exact .inl h
  | cons d cs ih =>
    rcases ih h with hout | hcs
    · unfold normalizeStep at hout
      split_ifs at hout
      · exact .inl hout
      · exact .inl ((List.dropLast_sublist output).subset hout)
      · exact .inl hout
      · rcases List.mem_append.1 hout with hout | hd
        · exact .inl hout
        · exact .inr (List.mem_cons.2 (.inl (List.mem_singleton.1 hd)))
    · exact .inr (List.mem_cons_of_mem d hcs)

/-- Nothing but slashes is put into a path. -/
theorem mem_normalizePath {path : PyStr} {c : ℕ} (h : c ∈ normalizePath path) :
    c = 47 ∨ c ∈ path := by
  unfold normalizePath at h
  split_ifs at h
  · refine (Lines.mem_intercalate h).imp_right ?_
    rintro ⟨d, hd, hc⟩
    have hsplit : d ∈ path.splitOn 47 := by simpa using mem_foldl_normalizeStep hd
    exact Lines.mem_of_mem_splitOn hsplit hc
  · exact .inr h

/-! ### The way of a path to the worker -/

/-- Text cut at a stop character. -/
theorem takeWhile_append_stop {p : ℕ → Bool} {a b : PyStr} (ha : ∀ c ∈ a, p c = true)
    (hb : ∀ c ∈ b.head?, p c = false) : (a ++ b).takeWhile p = a := by
  rw [List.takeWhile_append_of_pos ha]
  rcases b with - | ⟨c, b⟩
  · simp
  · simp [hb c rfl]

/-- The path of a URL whose text after the authority is given. -/
def targetPath (s : PyStr) : PyStr :=
  s.takeWhile fun c ↦ c ≠ 63 && c ≠ 35

/-- The query of that URL, without its question mark. -/
def targetQuery (s : PyStr) : PyStr :=
  ((s.takeWhile fun c ↦ c ≠ 35).drop ((targetPath s).length + 1))

/-- The path the client puts on the wire, before it quotes it. -/
def wirePath (s : PyStr) : PyStr :=
  if normalizePath (targetPath s) = [] then [47] else normalizePath (targetPath s)

/-- The path comes through as it is: nothing in it is taken for the end of the path, for a dot
segment or for a percent escape. -/
structure Clean (p : PyStr) : Prop where
  mark : 63 ∉ p
  hash : 35 ∉ p
  dot : hasDot p = false
  escape : hasEscape p = false

instance (p : PyStr) : Decidable (Clean p) :=
  decidable_of_iff (63 ∉ p ∧ 35 ∉ p ∧ hasDot p = false ∧ hasEscape p = false)
    ⟨fun h ↦ ⟨h.1, h.2.1, h.2.2.1, h.2.2.2⟩, fun h ↦ ⟨h.mark, h.hash, h.dot, h.escape⟩⟩

theorem targetPath_eq_self_iff {s : PyStr} : targetPath s = s ↔ 63 ∉ s ∧ 35 ∉ s := by
  rw [targetPath, List.takeWhile_eq_self_iff]
  constructor
  · exact fun h ↦ ⟨fun hc ↦ absurd (h 63 hc) (by decide), fun hc ↦ absurd (h 35 hc) (by decide)⟩
  · rintro ⟨h1, h2⟩ c hc
    simp only [ne_eq, Bool.and_eq_true, decide_eq_true_eq]
    exact ⟨fun h ↦ h1 (h ▸ hc), fun h ↦ h2 (h ▸ hc)⟩

/-- A query does not change the path in front of it. -/
theorem targetPath_append_query (s query : PyStr) : targetPath (s ++ 63 :: query) = targetPath s := by
  induction s with
  | nil => rfl
  | cons c s ih =>
    unfold targetPath at *
    rw [List.cons_append, List.takeWhile_cons, List.takeWhile_cons, ih]

/-- Only a path without dot segments reaches the wire at its full length. -/
theorem length_wirePath {s : PyStr} (hs : s.head? = some 47) :
    (wirePath s).length + (hasDot (targetPath s)).toNat ≤ (targetPath s).length := by
  have hnorm := length_normalizePath (targetPath s)
  obtain ⟨rest, rfl⟩ : ∃ rest, s = 47 :: rest := by
    rcases s with - | ⟨c, rest⟩
    · cases hs
    · exact ⟨rest, by simpa using hs⟩
  have hcons : targetPath (47 :: rest) = 47 :: targetPath rest := by simp [targetPath]
  unfold wirePath
  split_ifs with h
  · -- an empty path is sent as `/`: only a path with a dot segment can have become empty
    rw [hcons] at *
    rcases htail : targetPath rest with - | ⟨d, tail⟩
    · simp [show hasDot [47] = false by decide]
    · have hone := Bool.toNat_le (hasDot (47 :: d :: tail))
      simp only [List.length_cons, List.length_nil]
      omega
  · exact hnorm

theorem mem_wirePath {s : PyStr} {c : ℕ} (h : c ∈ wirePath s) : c = 47 ∨ c ∈ s := by
  unfold wirePath at h
  split_ifs at h
  · exact .inl (List.mem_singleton.1 h)
  · exact (mem_normalizePath h).imp_right fun hc ↦ (List.takeWhile_prefix _).subset hc

theorem wirePath_scalar {s : PyStr} (hs : ∀ c ∈ s, IsScalar c) : ∀ c ∈ wirePath s, IsScalar c := by
  intro c hc
  rcases mem_wirePath hc with rfl | hc
  · decide
  · exact hs c hc

/-- Nothing on the way makes the path longer. -/
theorem length_arrives_le {p : PyStr} (hp : p.head? = some 47) (hs : ∀ c ∈ p, IsScalar c) :
    (unquote (wirePath p)).length ≤ p.length := by
  have hdecode := length_unquote (wirePath_scalar hs)
  have hnorm := length_wirePath hp
  have hcut : (targetPath p).length ≤ p.length := (List.takeWhile_prefix _).length_le
  omega

/-- The query behind a path without special characters. -/
theorem targetQuery_append_query {s query : PyStr} (hmark : 63 ∉ s) (hhash : 35 ∉ s)
    (hquery : 35 ∉ query) : targetQuery (s ++ 63 :: query) = query := by
  have hpath : targetPath (s ++ 63 :: query) = s := by
    rw [targetPath_append_query]
    exact targetPath_eq_self_iff.2 ⟨hmark, hhash⟩
  have hall : (s ++ 63 :: query).takeWhile (· ≠ 35) = s ++ 63 :: query := by
    rw [List.takeWhile_eq_self_iff]
    intro c hc
    have hne : c ≠ 35 := by
      rintro rfl
      rcases List.mem_append.1 hc with hc | hc
      · exact hhash hc
      · exact (List.mem_cons.1 hc).elim (by decide) hquery
    simpa using hne
  rw [targetQuery, hpath, hall, ← List.drop_drop, List.drop_left]
  rfl

/-- The worker's server decodes the wire path back to the path exactly when the path is clean. -/
theorem arrives_eq_self_iff {p : PyStr} (hp : p.head? = some 47) (hs : ∀ c ∈ p, IsScalar c) :
    unquote (wirePath p) = p ↔ Clean p := by
  constructor
  · intro h
    -- three steps, none longer than the one before: all of them keep the length
    have hdecode := length_unquote (wirePath_scalar hs)
    have hnorm := length_wirePath hp
    have hcut : (targetPath p).length ≤ p.length := (List.takeWhile_prefix _).length_le
    rw [h] at hdecode
    have hself : targetPath p = p :=
      (List.takeWhile_prefix _).eq_of_length (show (targetPath p).length = p.length by omega)
    rw [hself] at hnorm
    have hdot : hasDot p = false := by
      rw [← Bool.toNat_eq_zero]
      omega
    have hwire : wirePath p = p := by
      simp only [wirePath, hself, normalizePath, hdot, Bool.false_eq_true, if_false, ite_eq_right_iff]
      rintro rfl
      cases hp
    have hescape : hasEscape p = false := by
      rw [← Bool.toNat_eq_zero, ← hwire]
      omega
    exact ⟨(targetPath_eq_self_iff.1 hself).1, (targetPath_eq_self_iff.1 hself).2, hdot, hescape⟩
  · intro h
    have hcut : targetPath p = p := targetPath_eq_self_iff.2 ⟨h.mark, h.hash⟩
    have hne : p ≠ [] := by
      rintro rfl
      cases hp
    have hwire : wirePath p = p := by
      simp only [wirePath, hcut, normalizePath, h.dot, Bool.false_eq_true, if_false, hne]
    rw [hwire, unquote_of_no_escape hs h.escape]

end LocalGateway
