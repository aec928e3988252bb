import Mathlib.Algebra.Group.Nat.Defs
import Mathlib.Data.List.Basic
import Mathlib.Data.List.DropRight
import LocalGateway.Foundations.Lines

/-!
# Python text: `bytes`, `str` and UTF-8

The part of Python's two string types that the development rests on. A `str` is a list of code
points and may hold lone surrogates, which is why encoding is partial; a `bytes` is a list of
octets.

* `utf8Decode` is `bytes.decode("utf-8", errors="replace")`: a machine that reads one octet at a
  time and holds at most one unfinished character. Every maximal ill-formed prefix becomes one
  U+FFFD, and the octet that broke it is read again from the start state.
* `utf8Encode` is `str.encode("utf-8")`, undefined on surrogates.
* `utf8DecodeStrict` is `bytes.decode("utf-8")`: it succeeds exactly on the octets that
  re-encoding the lenient reading gives back.

The laws the rest needs are `utf8Decode_append_lf` (a line feed is never part of a longer
character, so decoding commutes with cutting at line ends) and `utf8Decode_encode` (decoding undoes
encoding).
-/

/-- A Python `bytes` value. -/
abbrev PyBytes := List UInt8

/-- A Python `str`: its code points, lone surrogates included. -/
abbrev PyStr := List ℕ

instance : LawfulBEq PyStr :=
  inferInstance

/-- A string literal of the source as a `PyStr`. -/
def py (s : String) : PyStr :=
  s.toList.map Char.toNat

/-- The code points of a literal, without decoding its octets. -/
theorem py_eq {s : String} {l : List Char} (h : s = String.ofList l) : py s = l.map Char.toNat := by
  rw [h, py, String.toList_ofList]

/-- An ASCII `bytes` literal of the source. -/
def pyb (s : String) : PyBytes :=
  s.toList.map fun c ↦ UInt8.ofNat c.toNat

namespace Py

/-! ### Encoding -/

/-- The code points UTF-8 can encode: everything below `0x110000` but the surrogates. -/
def IsScalar (c : ℕ) : Prop :=
  c < 0xD800 ∨ 0xE000 ≤ c ∧ c < 0x110000

instance (c : ℕ) : Decidable (IsScalar c) :=
  inferInstanceAs (Decidable (_ ∨ _))

/-- The octets of one scalar value. -/
def encodeChar (c : ℕ) : PyBytes :=
  if c < 0x80 then [UInt8.ofNat c]
  else if c < 0x800 then [UInt8.ofNat (0xC0 + c / 64), UInt8.ofNat (0x80 + c % 64)]
  else if c < 0x10000 then
    [UInt8.ofNat (0xE0 + c / 4096), UInt8.ofNat (0x80 + c / 64 % 64), UInt8.ofNat (0x80 + c % 64)]
  else
    [UInt8.ofNat (0xF0 + c / 262144), UInt8.ofNat (0x80 + c / 4096 % 64),
      UInt8.ofNat (0x80 + c / 64 % 64), UInt8.ofNat (0x80 + c % 64)]

/-- `s.encode("utf-8")`; `none` is the `UnicodeEncodeError` of a lone surrogate. -/
def utf8Encode : PyStr → Option PyBytes
  | [] => some []
  | c :: s => if IsScalar c then (utf8Encode s).map (encodeChar c ++ ·) else none

@[simp] theorem utf8Encode_nil : utf8Encode [] = some [] := rfl

theorem utf8Encode_cons {c : ℕ} (s : PyStr) (hc : IsScalar c) :
    utf8Encode (c :: s) = (utf8Encode s).map (encodeChar c ++ ·) := by
  simp [utf8Encode, hc]

/-- Encoding succeeds exactly on strings without surrogates. -/
theorem utf8Encode_isSome_iff {s : PyStr} : (utf8Encode s).isSome ↔ ∀ c ∈ s, IsScalar c := by
  induction s with
  | nil => simp
  | cons c s ih =>
    by_cases hc : IsScalar c
    · simp [utf8Encode_cons s hc, hc, ih]
    · simp [utf8Encode, hc]

/-! ### Decoding -/

/-- A character that has begun and is not finished: how many octets are owed (`need + 1`), the range
the next octet must lie in, and the bits read so far. The last two fields say why a line feed never
continues it and why finishing it never gives a lone control character. -/
structure Pending where
  need : ℕ
  lo : UInt8
  hi : UInt8
  acc : ℕ
  lo_ge : 0x80 ≤ lo

/-- What the first octet of a character gives: the text it finishes and the character it begins. -/
def startChar (b : UInt8) : PyStr × Option Pending :=
  if b < 0x80 then ([b.toNat], none)
  else if b < 0xC2 then ([0xFFFD], none)
  else if b < 0xE0 then ([], some ⟨0, 0x80, 0xBF, b.toNat - 0xC0, by decide⟩)
  else if b = 0xE0 then ([], some ⟨1, 0xA0, 0xBF, 0, by decide⟩)
  else if b = 0xED then ([], some ⟨1, 0x80, 0x9F, 0xD, by decide⟩)
  else if b < 0xF0 then ([], some ⟨1, 0x80, 0xBF, b.toNat - 0xE0, by decide⟩)
  else if b = 0xF0 then ([], some ⟨2, 0x90, 0xBF, 0, by decide⟩)
  else if b < 0xF4 then ([], some ⟨2, 0x80, 0xBF, b.toNat - 0xF0, by decide⟩)
  else if b = 0xF4 then ([], some ⟨2, 0x80, 0x8F, 4, by decide⟩)
  else ([0xFFFD], none)

/-- One octet of the decoder: the text it gives and the character it leaves unfinished. -/
def decodeStep : Option Pending → UInt8 → PyStr × Option Pending
  | none, b => startChar b
  | some p, b =>
    if p.lo ≤ b ∧ b ≤ p.hi then
      let acc := p.acc * 64 + (b.toNat - 0x80)
      match p.need with
      | 0 => ([acc], none)
      | n + 1 => ([], some ⟨n, 0x80, 0xBF, acc, by decide⟩)
    else
      (0xFFFD :: (startChar b).1, (startChar b).2)

/-- The decoder from a state of the machine: an unfinished character at the end is one U+FFFD. -/
def decodeFrom : Option Pending → PyBytes → PyStr
  | none, [] => []
  | some _, [] => [0xFFFD]
  | st, b :: bs => (decodeStep st b).1 ++ decodeFrom (decodeStep st b).2 bs

/-- `b.decode("utf-8", errors="replace")`. -/
def utf8Decode (b : PyBytes) : PyStr :=
  decodeFrom none b

@[simp] theorem utf8Decode_nil : utf8Decode [] = [] := rfl

/-! ### First octets -/

/-- Whatever octets complete it, the pending character is above ASCII: overlong forms are ruled out
by the range of the second octet. -/
def Pending.AboveAscii (p : Pending) : Prop :=
  0x80 ≤ (p.acc * 64 + (p.lo.toNat - 0x80)) * 64 ^ p.need

/-- Whatever octets complete it, the pending character is a scalar value: the range of the second
octet keeps surrogates and values that are too large out. -/
def Pending.Fits (p : Pending) : Prop :=
  (p.acc * 64 + (p.hi.toNat - 0x80) + 1) * 64 ^ p.need ≤ 0xD800 ∨
    0xE000 ≤ (p.acc * 64 + (p.lo.toNat - 0x80)) * 64 ^ p.need ∧
      (p.acc * 64 + (p.hi.toNat - 0x80) + 1) * 64 ^ p.need ≤ 0x110000

/-- What a first octet can give: an ASCII character, the replacement of an octet that begins nothing, or a
pending character that is above ASCII, fits, and goes on with continuation octets. -/
inductive Starts (b : UInt8) : PyStr × Option Pending → Prop
  | ascii : b < 0x80 → Starts b ([b.toNat], none)
  | malformed : 0x80 ≤ b → Starts b ([0xFFFD], none)
  | lead {p : Pending} : 0x80 ≤ b → p.hi.toNat ≤ 0xBF → p.AboveAscii → p.Fits → Starts b ([], some p)

theorem startChar_starts (b : UInt8) : Starts b (startChar b) := by
  unfold startChar
  simp only [UInt8.lt_iff_toNat_lt, ← UInt8.toNat_inj, UInt8.reduceToNat]
  refine iteInduction (fun h ↦ .ascii (UInt8.lt_iff_toNat_lt.2 h)) fun h ↦ ?_
  have hb : 0x80 ≤ b := UInt8.not_lt.1 fun hlt ↦ h (UInt8.lt_iff_toNat_lt.1 hlt)
  refine iteInduction (fun _ ↦ .malformed hb) fun _ ↦ ?_
  refine iteInduction (fun _ ↦ .lead hb ?_ ?_ ?_) fun _ ↦ iteInduction (fun _ ↦ .lead hb ?_ ?_ ?_) fun _ ↦
    iteInduction (fun _ ↦ .lead hb ?_ ?_ ?_) fun _ ↦ iteInduction (fun _ ↦ .lead hb ?_ ?_ ?_) fun _ ↦
    iteInduction (fun _ ↦ .lead hb ?_ ?_ ?_) fun _ ↦ iteInduction (fun _ ↦ .lead hb ?_ ?_ ?_) fun _ ↦
    iteInduction (fun _ ↦ .lead hb ?_ ?_ ?_) fun _ ↦ .malformed hb
  -- in each of the seven ranges the bounds are those of the second octet
  all_goals
    dsimp only [Pending.AboveAscii, Pending.Fits, UInt8.reduceToNat]
    omega

/-! ### Octets one by one -/

theorem decodeFrom_cons (st : Option Pending) (b : UInt8) (bs : PyBytes) :
    decodeFrom st (b :: bs) = (decodeStep st b).1 ++ decodeFrom (decodeStep st b).2 bs := by
  cases st <;> rfl

/-- What has begun is replaced if it is not finished. -/
theorem decodeFrom_some_ne_nil (p : Pending) (bs : PyBytes) : decodeFrom (some p) bs ≠ [] := by
  induction bs generalizing p with
  | nil => simp [decodeFrom]
  | cons b bs ih =>
    rw [decodeFrom_cons, decodeStep]
    split_ifs
    · split
      · simp
      · exact fun h ↦ ih _ (List.append_eq_nil_iff.1 h).2
    · simp

/-- Only nothing decodes to nothing. -/
theorem utf8Decode_eq_nil_iff {b : PyBytes} : utf8Decode b = [] ↔ b = [] := by
  rcases b with - | ⟨x, b⟩
  · simp
  · have hstart := startChar_starts x
    rw [utf8Decode, decodeFrom_cons, decodeStep]
    generalize startChar x = r at hstart ⊢
    refine iff_of_false ?_ (List.cons_ne_nil _ _)
    cases hstart with
    | ascii _ | malformed _ => exact List.cons_ne_nil _ _
    | lead _ _ _ _ => exact decodeFrom_some_ne_nil _ b

/-- An ASCII octet is a character of its own, whatever was pending. -/
theorem decodeStep_ascii (st : Option Pending) {b : UInt8} (hb : b < 0x80) :
    decodeStep st b = (decodeFrom st [] ++ [b.toNat], none) := by
  have hstart : startChar b = ([b.toNat], none) := by simp [startChar, hb]
  cases st with
  | none => simpa [decodeStep, decodeFrom] using hstart
  | some p =>
    have hlo : ¬ p.lo ≤ b := by
      have := p.lo_ge
      simp only [UInt8.le_iff_toNat_le, UInt8.lt_iff_toNat_lt] at *
      omega
    simp [decodeStep, decodeFrom, hlo, hstart]

/-- **An ASCII octet ends whatever came before it.** Decoding commutes with cutting before one. -/
theorem decodeFrom_append_ascii (st : Option Pending) (a : PyBytes) {b : UInt8} (hb : b < 0x80)
    (bs : PyBytes) :
    decodeFrom st (a ++ b :: bs) = decodeFrom st a ++ b.toNat :: decodeFrom none bs := by
  induction a generalizing st with
  | nil =>
    rw [List.nil_append, decodeFrom_cons, decodeStep_ascii st hb]
    simp
  | cons x a ih =>
    rw [List.cons_append, decodeFrom_cons, decodeFrom_cons, ih, List.append_assoc]

/-- A line feed is never part of a longer character. -/
theorem utf8Decode_append_lf (a b : PyBytes) :
    utf8Decode (a ++ 10 :: b) = utf8Decode a ++ 10 :: utf8Decode b :=
  decodeFrom_append_ascii none a (by decide) b

theorem utf8Decode_cons_ascii {b : UInt8} (hb : b < 0x80) (bs : PyBytes) :
    utf8Decode (b :: bs) = b.toNat :: utf8Decode bs :=
  decodeFrom_append_ascii none [] hb bs

/-- Decoding commutes with putting a text that begins in ASCII after another. -/
theorem utf8Decode_append_cons {b : UInt8} (hb : b < 0x80) (a bs : PyBytes) :
    utf8Decode (a ++ b :: bs) = utf8Decode a ++ utf8Decode (b :: bs) := by
  rw [utf8Decode_cons_ascii hb]
  exact decodeFrom_append_ascii none a hb bs

/-- Texts are decoded one after the other, unless the first ends within a character. -/
theorem utf8Decode_append_cases (a b : PyBytes) :
    utf8Decode (a ++ b) = utf8Decode a ++ utf8Decode b ∨ (utf8Decode a).getLast? = some 0xFFFD := by
  have hfrom : ∀ st, decodeFrom st (a ++ b) = decodeFrom st a ++ utf8Decode b ∨
      (decodeFrom st a).getLast? = some 0xFFFD := by
    induction a with
    | nil =>
      intro st
      cases st with
      | none => exact .inl rfl
      | some p => exact .inr rfl
    | cons x a ih =>
      intro st
      rw [List.cons_append, decodeFrom_cons, decodeFrom_cons]
      rcases ih (decodeStep st x).2 with h | h
      · exact .inl (by rw [h, List.append_assoc])
      · exact .inr (by rw [List.getLast?_append, h]; rfl)
  exact hfrom none

/-! ### No character above ASCII decodes to a line feed -/

theorem startChar_aboveAscii {b : UInt8} (hb : b ≠ 10) :
    10 ∉ (startChar b).1 ∧ ∀ p ∈ (startChar b).2, p.AboveAscii := by
  have h := startChar_starts b
  generalize startChar b = r at h ⊢
  cases h with
  | ascii _ =>
    refine ⟨fun hmem ↦ hb (UInt8.toNat_inj.1 ?_), by simp⟩
    simpa using (List.mem_singleton.1 hmem).symm
  | malformed _ => simp
  | lead _ _ habove _ => exact ⟨by simp, fun p hp ↦ Option.some.inj hp ▸ habove⟩

/-- What one octet gives that is not a line feed itself: no line feed, and again a pending
character above ASCII. -/
theorem decodeStep_aboveAscii {st : Option Pending} {b : UInt8} (hst : ∀ p ∈ st, p.AboveAscii)
    (hb : b ≠ 10) :
    10 ∉ (decodeStep st b).1 ∧ ∀ p ∈ (decodeStep st b).2, p.AboveAscii := by
  have hstart := startChar_aboveAscii hb
  cases st with
  | none => exact hstart
  | some p =>
    have hp : p.AboveAscii := hst p rfl
    by_cases hr : p.lo ≤ b ∧ b ≤ p.hi
    · simp only [decodeStep, hr, and_self, if_true]
      have hlo : p.lo.toNat ≤ b.toNat := UInt8.le_iff_toNat_le.1 hr.1
      have hmono : p.acc * 64 + (p.lo.toNat - 0x80) ≤ p.acc * 64 + (b.toNat - 0x80) := by omega
      have hbig := Nat.le_trans hp (Nat.mul_le_mul_right (64 ^ p.need) hmono)
      rcases hn : p.need with - | n
      · rw [hn] at hbig
        refine ⟨?_, by simp⟩
        simp only [List.mem_singleton]
        omega
      · rw [hn, Nat.pow_succ, Nat.mul_comm (64 ^ n), ← Nat.mul_assoc] at hbig
        refine ⟨by simp, fun q hq ↦ ?_⟩
        simp only [Option.mem_def, Option.some.injEq] at hq
        subst hq
        simpa [Pending.AboveAscii] using hbig
    · simp only [decodeStep, hr, if_false]
      exact ⟨by simpa using hstart.1, hstart.2⟩

theorem decodeFrom_no_lf {st : Option Pending} {b : PyBytes} (hst : ∀ p ∈ st, p.AboveAscii)
    (hb : 10 ∉ b) : 10 ∉ decodeFrom st b := by
  induction b generalizing st with
  | nil => cases st <;> simp [decodeFrom]
  | cons x b ih =>
    have hx : x ≠ 10 := fun h ↦ hb (h ▸ List.mem_cons_self)
    have hb : 10 ∉ b := fun h ↦ hb (List.mem_cons_of_mem x h)
    obtain ⟨hout, hst'⟩ := decodeStep_aboveAscii hst hx
    rw [decodeFrom_cons, List.mem_append]
    exact fun h ↦ h.elim hout (ih hst' hb)

theorem utf8Decode_no_lf {b : PyBytes} (hb : 10 ∉ b) : 10 ∉ utf8Decode b :=
  decodeFrom_no_lf (by simp) hb

/-- **Decoding commutes with splitting into lines.** -/
theorem splitOn_utf8Decode (b : PyBytes) :
    (utf8Decode b).splitOn 10 = (b.splitOn 10).map utf8Decode := by
  induction b using Lines.induction_on (10 : UInt8) with
  | last l hl =>
    rw [List.splitOn_eq_singleton hl, List.splitOn_eq_singleton (utf8Decode_no_lf hl)]
    rfl
  | line l rest hl ih =>
    rw [utf8Decode_append_lf, List.splitOn_append_cons_self_of_not_mem (utf8Decode_no_lf hl),
      List.splitOn_append_cons_self_of_not_mem hl, ih]
    rfl

/-- What completes a character above ASCII, or replaces it, is above ASCII. -/
theorem decodeFrom_some_head {p : Pending} (hp : p.AboveAscii) (bs : PyBytes) :
    ∃ c s, decodeFrom (some p) bs = c :: s ∧ 0x80 ≤ c := by
  induction bs generalizing p with
  | nil => exact ⟨0xFFFD, [], rfl, by decide⟩
  | cons b bs ih =>
    rw [decodeFrom_cons]
    by_cases hr : p.lo ≤ b ∧ b ≤ p.hi
    · have hlo : p.lo.toNat ≤ b.toNat := UInt8.le_iff_toNat_le.1 hr.1
      have hbig := Nat.le_trans hp (Nat.mul_le_mul_right (64 ^ p.need)
        (show p.acc * 64 + (p.lo.toNat - 0x80) ≤ p.acc * 64 + (b.toNat - 0x80) by omega))
      simp only [decodeStep, hr, and_self, if_true]
      rcases hn : p.need with - | n
      · rw [hn] at hbig
        exact ⟨_, _, rfl, by omega⟩
      · rw [hn, Nat.pow_succ, Nat.mul_comm (64 ^ n), ← Nat.mul_assoc] at hbig
        exact ih (by simpa [Pending.AboveAscii] using hbig)
    · simp only [decodeStep, hr, if_false]
      exact ⟨0xFFFD, _, rfl, by decide⟩

/-- A text starts with ASCII characters exactly if its octets do. -/
theorem prefix_utf8Decode_iff {p : PyBytes} (hp : ∀ b ∈ p, b < 0x80) (l : PyBytes) :
    p.map UInt8.toNat <+: utf8Decode l ↔ p <+: l := by
  induction p generalizing l with
  | nil => simp
  | cons b p ih =>
    have hb : b < 0x80 := hp b List.mem_cons_self
    rcases l with - | ⟨x, l⟩
    · simp
    · by_cases hx : x < 0x80
      · rw [utf8Decode_cons_ascii hx, List.map_cons, List.cons_prefix_cons, List.cons_prefix_cons, UInt8.toNat_inj,
          ih fun b hb ↦ hp b (List.mem_cons_of_mem _ hb)]
      · -- the first character is above ASCII
        have hhead : ∃ c s, utf8Decode (x :: l) = c :: s ∧ 0x80 ≤ c := by
          have hstart := startChar_starts x
          rw [utf8Decode, decodeFrom_cons, decodeStep]
          generalize startChar x = r at hstart ⊢
          cases hstart with
          | ascii h => exact absurd h hx
          | malformed _ => exact ⟨0xFFFD, decodeFrom none l, rfl, by decide⟩
          | lead _ _ habove _ => exact decodeFrom_some_head habove l
        obtain ⟨c, s, hs, hc⟩ := hhead
        have hlt := UInt8.lt_iff_toNat_lt.1 hb
        have hne : b ≠ x := fun h ↦ hx (h ▸ hb)
        have hc' : b.toNat ≠ c := by
          have : (0x80 : UInt8).toNat = 128 := rfl
          omega
        rw [hs, List.map_cons, List.cons_prefix_cons, List.cons_prefix_cons]
        simp [hne, hc']

/-! ### What is decoded can be encoded -/

theorem startChar_scalar (b : UInt8) :
    (∀ c ∈ (startChar b).1, IsScalar c) ∧ ∀ p ∈ (startChar b).2, p.Fits := by
  have h := startChar_starts b
  generalize startChar b = r at h ⊢
  cases h with
  | ascii hb =>
    have hlt : b.toNat < 0x80 := UInt8.lt_iff_toNat_lt.1 hb
    refine ⟨fun c hc ↦ ?_, by simp⟩
    obtain rfl := List.mem_singleton.1 hc
    exact .inl (by omega)
  | malformed _ => simp [IsScalar]
  | lead _ _ _ hfits => exact ⟨by simp, fun p hp ↦ Option.some.inj hp ▸ hfits⟩

theorem decodeStep_scalar {st : Option Pending} (b : UInt8) (hst : ∀ p ∈ st, p.Fits) :
    (∀ c ∈ (decodeStep st b).1, IsScalar c) ∧ ∀ p ∈ (decodeStep st b).2, p.Fits := by
  rcases st with - | p
  · exact startChar_scalar b
  · have hp : p.Fits := hst p rfl
    by_cases hr : p.lo ≤ b ∧ b ≤ p.hi
    · simp only [decodeStep, hr, and_self, if_true]
      have hlo : p.lo.toNat ≤ b.toNat := UInt8.le_iff_toNat_le.1 hr.1
      have hhi : b.toNat ≤ p.hi.toNat := UInt8.le_iff_toNat_le.1 hr.2
      -- the octet narrows the range of the finished character
      have hlow : (p.acc * 64 + (p.lo.toNat - 0x80)) * 64 ^ p.need ≤
          (p.acc * 64 + (b.toNat - 0x80)) * 64 ^ p.need :=
        Nat.mul_le_mul_right _ (by omega)
      have hhigh : (p.acc * 64 + (b.toNat - 0x80) + 1) * 64 ^ p.need ≤
          (p.acc * 64 + (p.hi.toNat - 0x80) + 1) * 64 ^ p.need :=
        Nat.mul_le_mul_right _ (by omega)
      unfold Pending.Fits at hp
      rcases hn : p.need with - | n
      · refine ⟨?_, by simp⟩
        simp only [hn, Nat.pow_zero, Nat.mul_one] at hp hlow hhigh
        simp only [List.mem_singleton, forall_eq, IsScalar]
        omega
      · refine ⟨by simp, fun q hq ↦ ?_⟩
        cases hq
        rw [hn, Nat.pow_succ, Nat.mul_comm (64 ^ n), ← Nat.mul_assoc, ← Nat.mul_assoc] at hlow
        rw [hn, Nat.pow_succ, Nat.mul_comm (64 ^ n), ← Nat.mul_assoc, ← Nat.mul_assoc] at hhigh
        rw [hn, Nat.pow_succ, Nat.mul_comm (64 ^ n), ← Nat.mul_assoc, ← Nat.mul_assoc] at hp
        have hnext : (p.acc * 64 + (b.toNat - 0x80)) * 64 + 63 + 1 =
            (p.acc * 64 + (b.toNat - 0x80) + 1) * 64 := by omega
        have h63 : (0xBF : UInt8).toNat - 0x80 = 63 := by decide
        have h0 : (0x80 : UInt8).toNat - 0x80 = 0 := by decide
        simp only [Pending.Fits, h63, h0, Nat.add_zero, hnext]
        rcases hp with h | ⟨h1, h2⟩
        · exact .inl (Nat.le_trans hhigh h)
        · exact .inr ⟨Nat.le_trans h1 hlow, Nat.le_trans hhigh h2⟩
    · simp only [decodeStep, hr, if_false, List.mem_cons, forall_eq_or_imp]
      exact ⟨⟨by decide, (startChar_scalar b).1⟩, (startChar_scalar b).2⟩

theorem decodeFrom_scalar {st : Option Pending} {b : PyBytes} (hst : ∀ p ∈ st, p.Fits) :
    ∀ c ∈ decodeFrom st b, IsScalar c := by
  induction b generalizing st with
  | nil => cases st <;> simp [decodeFrom, IsScalar]
  | cons x b ih =>
    obtain ⟨hout, hst'⟩ := decodeStep_scalar x hst
    rw [decodeFrom_cons]
    exact fun c hc ↦ (List.mem_append.1 hc).elim (hout c) (ih hst' c)

theorem utf8Decode_scalar (b : PyBytes) : ∀ c ∈ utf8Decode b, IsScalar c :=
  decodeFrom_scalar (by simp)

/-! ### Decoding undoes encoding -/

theorem toNat_ofNat_of_lt {n : ℕ} (hn : n < 256) : (UInt8.ofNat n).toNat = n := by
  simp [Nat.mod_eq_of_lt hn]

/-- A pending character that owes exactly one more octet. -/
theorem decodeFrom_last (p : Pending) {d : ℕ} (bs : PyBytes) (hneed : p.need = 0) (hd : d < 64)
    (hlo : p.lo.toNat ≤ 0x80 + d) (hhi : 0x80 + d ≤ p.hi.toNat) :
    decodeFrom (some p) (UInt8.ofNat (0x80 + d) :: bs) = (p.acc * 64 + d) :: decodeFrom none bs := by
  have hb : (UInt8.ofNat (0x80 + d)).toNat = 0x80 + d := toNat_ofNat_of_lt (by omega)
  have hrange : p.lo ≤ UInt8.ofNat (0x80 + d) ∧ UInt8.ofNat (0x80 + d) ≤ p.hi := by
    simp only [UInt8.le_iff_toNat_le, hb]
    exact ⟨hlo, hhi⟩
  have hsub : 0x80 + d - 0x80 = d := by omega
  simp only [decodeFrom_cons, decodeStep, hrange, and_self, if_true, hneed, hb, hsub]
  rfl

/-- A pending character that owes more than one octet reads one and owes one fewer. -/
theorem decodeFrom_more (p : Pending) {d n : ℕ} (bs : PyBytes) (hneed : p.need = n + 1) (hd : d < 64)
    (hlo : p.lo.toNat ≤ 0x80 + d) (hhi : 0x80 + d ≤ p.hi.toNat) :
    decodeFrom (some p) (UInt8.ofNat (0x80 + d) :: bs) =
      decodeFrom (some ⟨n, 0x80, 0xBF, p.acc * 64 + d, by decide⟩) bs := by
  have hb : (UInt8.ofNat (0x80 + d)).toNat = 0x80 + d := toNat_ofNat_of_lt (by omega)
  have hrange : p.lo ≤ UInt8.ofNat (0x80 + d) ∧ UInt8.ofNat (0x80 + d) ≤ p.hi := by
    simp only [UInt8.le_iff_toNat_le, hb]
    exact ⟨hlo, hhi⟩
  have hsub : 0x80 + d - 0x80 = d := by omega
  simp only [decodeFrom_cons, decodeStep, hrange, and_self, if_true, hneed, hb, hsub]
  rfl

theorem startChar_ofNat_two {n : ℕ} (h1 : 0xC2 ≤ n) (h2 : n < 0xE0) :
    startChar (UInt8.ofNat n) = ([], some ⟨0, 0x80, 0xBF, n - 0xC0, by decide⟩) := by
  have hb : (UInt8.ofNat n).toNat = n := toNat_ofNat_of_lt (by omega)
  simp [startChar, UInt8.lt_iff_toNat_lt, hb, show ¬ n < 128 by omega, show ¬ n < 194 by omega, h2]

/-- The state after a three-octet lead. The range of the next octet is what keeps overlong forms
and surrogates out. -/
theorem startChar_ofNat_three {n : ℕ} (h1 : 0xE0 ≤ n) (h2 : n < 0xF0) :
    ∃ p : Pending, startChar (UInt8.ofNat n) = ([], some p) ∧ p.need = 1 ∧ p.acc = n - 0xE0 ∧
      p.lo.toNat = (if n = 0xE0 then 0xA0 else 0x80) ∧
      p.hi.toNat = (if n = 0xED then 0x9F else 0xBF) := by
  have hb : (UInt8.ofNat n).toNat = n := toNat_ofNat_of_lt (by omega)
  simp only [startChar, UInt8.lt_iff_toNat_lt, ← UInt8.toNat_inj, hb]
  rcases (by omega : n = 0xE0 ∨ n = 0xED ∨ n ≠ 0xE0 ∧ n ≠ 0xED) with rfl | rfl | ⟨hE0, hED⟩
  · exact ⟨⟨1, 0xA0, 0xBF, 0, by decide⟩, by simp⟩
  · exact ⟨⟨1, 0x80, 0x9F, 0xD, by decide⟩, by simp⟩
  · refine ⟨⟨1, 0x80, 0xBF, n - 0xE0, by decide⟩, ?_, by simp [hE0, hED]⟩
    simp [show ¬ n < 128 by omega, show ¬ n < 194 by omega, show ¬ n < 224 by omega, hE0, hED, h2]

/-- The state after a four-octet lead. -/
theorem startChar_ofNat_four {n : ℕ} (h1 : 0xF0 ≤ n) (h2 : n ≤ 0xF4) :
    ∃ p : Pending, startChar (UInt8.ofNat n) = ([], some p) ∧ p.need = 2 ∧ p.acc = n - 0xF0 ∧
      p.lo.toNat = (if n = 0xF0 then 0x90 else 0x80) ∧
      p.hi.toNat = (if n = 0xF4 then 0x8F else 0xBF) := by
  have hb : (UInt8.ofNat n).toNat = n := toNat_ofNat_of_lt (by omega)
  simp only [startChar, UInt8.lt_iff_toNat_lt, ← UInt8.toNat_inj, hb]
  rcases (by omega : n = 0xF0 ∨ n = 0xF4 ∨ 0xF0 < n ∧ n < 0xF4) with rfl | rfl | ⟨hlo, hhi⟩
  · exact ⟨⟨2, 0x90, 0xBF, 0, by decide⟩, by simp⟩
  · exact ⟨⟨2, 0x80, 0x8F, 4, by decide⟩, by simp⟩
  · refine ⟨⟨2, 0x80, 0xBF, n - 0xF0, by decide⟩, ?_,
      by simp [show n ≠ 240 by omega, show n ≠ 244 by omega]⟩
    simp [show ¬ n < 128 by omega, show ¬ n < 194 by omega, show ¬ n < 224 by omega,
      show ¬ n < 240 by omega, show n ≠ 224 by omega, show n ≠ 237 by omega,
      show n ≠ 240 by omega, hhi]

/-- The decoder reads back one encoded scalar value. -/
theorem decodeFrom_encodeChar {c : ℕ} (hc : IsScalar c) (bs : PyBytes) :
    decodeFrom none (encodeChar c ++ bs) = c :: decodeFrom none bs := by
  unfold IsScalar at hc
  unfold encodeChar
  split_ifs with h1 h2 h3
  · -- one octet
    have hb : (UInt8.ofNat c).toNat = c := toNat_ofNat_of_lt (by omega)
    have hlt : UInt8.ofNat c < 0x80 := by
      rw [UInt8.lt_iff_toNat_lt, hb]
      exact h1
    rw [List.singleton_append, decodeFrom_cons, decodeStep_ascii none hlt, hb]
    rfl
  · -- two octets
    have hlead := startChar_ofNat_two (n := 0xC0 + c / 64) (by omega) (by omega)
    simp only [List.cons_append, List.nil_append]
    rw [decodeFrom_cons, decodeStep, hlead,
      decodeFrom_last _ bs rfl (by omega) (by simp) (by simp; omega), List.nil_append]
    congr 1
    simp only
    omega
  · -- three octets
    obtain ⟨p, hlead, hneed, hacc, hlo, hhi⟩ :=
      startChar_ofNat_three (n := 0xE0 + c / 4096) (by omega) (by omega)
    simp only [List.cons_append, List.nil_append]
    rw [decodeFrom_cons, decodeStep, hlead,
      decodeFrom_more p _ hneed (by omega) (by rw [hlo]; split_ifs <;> omega)
        (by rw [hhi]; split_ifs <;> omega),
      decodeFrom_last _ bs rfl (by omega) (by simp) (by simp; omega), List.nil_append]
    congr 1
    simp only [hacc]
    omega
  · -- four octets
    obtain ⟨p, hlead, hneed, hacc, hlo, hhi⟩ :=
      startChar_ofNat_four (n := 0xF0 + c / 262144) (by omega) (by omega)
    simp only [List.cons_append, List.nil_append]
    rw [decodeFrom_cons, decodeStep, hlead,
      decodeFrom_more p _ hneed (by omega) (by rw [hlo]; split_ifs <;> omega)
        (by rw [hhi]; split_ifs <;> omega),
      decodeFrom_more _ _ rfl (by omega) (by simp) (by simp; omega),
      decodeFrom_last _ bs rfl (by omega) (by simp) (by simp; omega), List.nil_append]
    congr 1
    simp only [hacc]
    omega

/-- **Decoding undoes encoding.** -/
theorem utf8Decode_encode {s : PyStr} {b : PyBytes} (h : utf8Encode s = some b) :
    utf8Decode b = s := by
  induction s generalizing b with
  | nil =>
    obtain rfl : [] = b := by simpa using h
    rfl
  | cons c s ih =>
    have hc : IsScalar c := utf8Encode_isSome_iff.1 (by rw [h]; rfl) c List.mem_cons_self
    rw [utf8Encode_cons s hc, Option.map_eq_some_iff] at h
    obtain ⟨b', hb', rfl⟩ := h
    rw [utf8Decode, decodeFrom_encodeChar hc]
    exact congrArg (c :: ·) (ih hb')

/-- `b.decode("utf-8")`. The octets are well formed exactly when encoding the lenient reading gives
them back: a replacement character stands for octets other than its own three. -/
def utf8DecodeStrict (b : PyBytes) : Option PyStr :=
  if utf8Encode (utf8Decode b) = some b then some (utf8Decode b) else none

theorem utf8DecodeStrict_eq_some_iff {b : PyBytes} {s : PyStr} :
    utf8DecodeStrict b = some s ↔ utf8Encode s = some b := by
  unfold utf8DecodeStrict
  constructor
  · intro h
    split_ifs at h with hb
    cases h
    exact hb
  · intro h
    rw [utf8Decode_encode h, if_pos h]

theorem utf8Encode_append (s t : PyStr) :
    utf8Encode (s ++ t) = (utf8Encode s).bind fun a ↦ (utf8Encode t).map (a ++ ·) := by
  induction s with
  | nil => simp
  | cons c s ih =>
    by_cases hc : IsScalar c
    · rw [List.cons_append, utf8Encode_cons _ hc, utf8Encode_cons _ hc, ih]
      cases utf8Encode s <;> cases utf8Encode t <;> simp
    · simp [utf8Encode, hc]

/-- An ASCII character is encoded by itself, and only by itself. -/
theorem mem_encodeChar_iff {b : UInt8} {c : ℕ} (hb : b < 0x80) (hc : IsScalar c) :
    b ∈ encodeChar c ↔ c = b.toNat := by
  have hb : b.toNat < 128 := UInt8.lt_iff_toNat_lt.1 hb
  have hne : ∀ n, 128 ≤ n → n < 256 → b ≠ UInt8.ofNat n := fun n h1 h2 heq ↦ by
    rw [heq, toNat_ofNat_of_lt h2] at hb
    omega
  unfold IsScalar at hc
  unfold encodeChar
  split_ifs with h1 h2 h3
  · rw [List.mem_singleton, ← UInt8.toNat_inj, toNat_ofNat_of_lt (by omega)]
    exact eq_comm
  all_goals
    refine iff_of_false (fun hmem ↦ ?_) (by omega)
    simp only [List.mem_cons, List.not_mem_nil, or_false] at hmem
  · rcases hmem with h | h <;> exact hne _ (by omega) (by omega) h
  · rcases hmem with h | h | h <;> exact hne _ (by omega) (by omega) h
  · rcases hmem with h | h | h | h <;> exact hne _ (by omega) (by omega) h

theorem mem_utf8Encode_iff {s : PyStr} {t : PyBytes} {b : UInt8} (h : utf8Encode s = some t)
    (hb : b < 0x80) : b ∈ t ↔ b.toNat ∈ s := by
  induction s generalizing t with
  | nil =>
    obtain rfl : [] = t := by simpa using h
    simp
  | cons c s ih =>
    have hc : IsScalar c := utf8Encode_isSome_iff.1 (by rw [h]; rfl) c List.mem_cons_self
    rw [utf8Encode_cons s hc, Option.map_eq_some_iff] at h
    obtain ⟨t', ht', rfl⟩ := h
    rw [List.mem_append, mem_encodeChar_iff hb hc, ih ht', List.mem_cons, eq_comm]

/-! ### Whitespace, lines and prefixes -/

/-- The octets `bytes.strip()` removes. -/
def isSpaceByte (b : UInt8) : Bool :=
  b = 32 || (9 ≤ b && b ≤ 13)

/-- The code points `str.strip()` removes. -/
def isSpace (c : ℕ) : Bool :=
  c = 32 || (9 ≤ c && c ≤ 13) || (28 ≤ c && c ≤ 31) || c = 133 || c = 160 || c = 5760 ||
    (8192 ≤ c && c ≤ 8202) || c = 8232 || c = 8233 || c = 8239 || c = 8287 || c = 12288

/-- `b.strip()` on `bytes`. -/
def stripBytes (b : PyBytes) : PyBytes :=
  (b.dropWhile isSpaceByte).rdropWhile isSpaceByte

/-- `s.strip()` on `str`. -/
def strip (s : PyStr) : PyStr :=
  (s.dropWhile isSpace).rdropWhile isSpace

/-- `s.startswith(p)`. -/
def startsWith (s p : PyStr) : Bool :=
  p.isPrefixOf s

/-- A text does not begin with two prefixes that disagree. -/
theorem startsWith_eq_false {s p q : PyStr} (hp : startsWith s p = true)
    (hpq : startsWith p q = false) (hqp : startsWith q p = false) : startsWith s q = false := by
  rw [← Bool.not_eq_true] at *
  simp only [startsWith, List.isPrefixOf_iff_prefix] at *
  exact fun hq ↦ (List.prefix_or_prefix_of_prefix hp hq).elim hqp hpq

/-- `s.removeprefix(p)`. -/
def removePrefix (s p : PyStr) : PyStr :=
  if startsWith s p then s.drop p.length else s

/-- `p in s`: `p` occurs in `s`. -/
def contains : PyStr → PyStr → Bool
  | [], p => startsWith [] p
  | c :: s, p => startsWith (c :: s) p || contains s p

/-- `"\n".join(lines)`. -/
def joinLines (ls : List PyStr) : PyStr :=
  [10].intercalate ls

theorem joinLines_append {ls ms : List PyStr} (hl : ls ≠ []) (hm : ms ≠ []) :
    joinLines (ls ++ ms) = joinLines ls ++ 10 :: joinLines ms := by
  unfold joinLines
  induction ls with
  | nil => exact absurd rfl hl
  | cons l ls ih =>
    rcases eq_or_ne ls [] with rfl | hls
    · simp [List.intercalate_cons_of_ne_nil hm]
    · rw [List.cons_append, List.intercalate_cons_of_ne_nil (by simp [hls]), ih hls,
        List.intercalate_cons_of_ne_nil hls]
      simp

/-- Only whitespace is stripped. -/
theorem mem_strip {s : PyStr} {c : ℕ} (hc : isSpace c = false) (h : c ∈ s) : c ∈ strip s := by
  have hnot : ¬ isSpace c = true := by rw [hc]; exact Bool.false_ne_true
  have hdrop : c ∈ s.dropWhile isSpace := by
    rw [← List.takeWhile_append_dropWhile (p := isSpace) (l := s)] at h
    exact (List.mem_append.1 h).resolve_left fun hmem ↦ hnot (List.mem_takeWhile_imp hmem)
  rw [← List.rdropWhile_append_rtakeWhile (p := isSpace) (l := s.dropWhile isSpace)] at hdrop
  exact (List.mem_append.1 hdrop).resolve_right fun hmem ↦ hnot (List.mem_rtakeWhile_imp hmem)

end Py
