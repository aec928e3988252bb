import Mathlib.Algebra.Order.Field.Rat
import LocalGateway.Foundations.Related
import LocalGateway.Python.Json

/-!
# The Prometheus text format

A parser of the format, version 0.0.4, and what makes a text of it well formed: the lines of a metric are one group,
its `HELP` and `TYPE` lines come first and once, and no sample is given twice.

* `readQuoted_escape`: a label value is read as it was before it was escaped.
* `parseLine_writeSample`: a sample that is written is parsed.
* `parse_eq_some_iff`: a text is parsed line by line.
* `Contiguous`: equal names that follow each other.

The samples of a histogram or a summary bear names of their own here.
-/

namespace Exposition

open Json (isDigit natRepr)

/-! ### Lines -/

/-- The value of a sample. -/
inductive Value
  | num (q : ℚ)
  | inf (neg : Bool)
  | nan
deriving DecidableEq

/-- A sample of a metric. -/
structure Sample where
  name : PyStr
  labels : List (PyStr × PyStr)
  value : Value
  timestamp : Option ℤ
deriving DecidableEq

inductive Line
  | blank
  | comment
  | help (name doc : PyStr)
  | type (name kind : PyStr)
  | sample (s : Sample)
deriving DecidableEq

/-- The metric a line is about. -/
def Line.metric : Line → Option PyStr
  | .blank | .comment => none
  | .help name _ | .type name _ => some name
  | .sample s => some s.name

/-- The sample a line is. -/
def Line.sample? : Line → Option Sample
  | .sample s => some s
  | _ => none

/-! ### Tokens -/

def isBlank (c : ℕ) : Bool :=
  c = 32 || c = 9

def skipBlanks (s : PyStr) : PyStr :=
  s.dropWhile isBlank

/-- The words between blanks. -/
def words (s : PyStr) : List PyStr :=
  (s.splitOnP isBlank).filter (· ≠ [])

def isLetter (c : ℕ) : Bool :=
  65 ≤ c && c ≤ 90 || 97 ≤ c && c ≤ 122 || c = 95

/-- A character of the name of a label. -/
def isLabelChar (c : ℕ) : Bool :=
  isLetter c || isDigit c

/-- A character of the name of a metric. -/
def isMetricChar (c : ℕ) : Bool :=
  isLabelChar c || c = 58

def isLabelName : PyStr → Bool
  | [] => false
  | c :: cs => isLetter c && cs.all isLabelChar

def isMetricName : PyStr → Bool
  | [] => false
  | c :: cs => (isLetter c || c = 58) && cs.all isMetricChar

/-- A label value up to its closing quote, and what comes after it. -/
def readQuoted : PyStr → Option (PyStr × PyStr)
  | [] => none
  | 34 :: rest => some ([], rest)
  | 92 :: 92 :: rest => (readQuoted rest).map fun r ↦ (92 :: r.1, r.2)
  | 92 :: 34 :: rest => (readQuoted rest).map fun r ↦ (34 :: r.1, r.2)
  | 92 :: 110 :: rest => (readQuoted rest).map fun r ↦ (10 :: r.1, r.2)
  | 92 :: _ => none
  | c :: rest => (readQuoted rest).map fun r ↦ (c :: r.1, r.2)

/-- The text of a `HELP` line. -/
def readDoc : PyStr → Option PyStr
  | [] => some []
  | 92 :: 92 :: rest => (readDoc rest).map (92 :: ·)
  | 92 :: 110 :: rest => (readDoc rest).map (10 :: ·)
  | 92 :: _ => none
  | c :: rest => (readDoc rest).map (c :: ·)

/-! ### Numbers -/

/-- The sign in front of a number. -/
def readSign : PyStr → Bool × PyStr
  | 45 :: rest => (true, rest)
  | 43 :: rest => (false, rest)
  | s => (false, s)

/-- The number that digits stand for. -/
def digitsValue (s : PyStr) : ℕ :=
  Nat.ofDigits 10 (s.map (· - 48)).reverse

def signed {α : Type} [Neg α] (neg : Bool) (x : α) : α :=
  if neg then -x else x

/-- An integer, which is all there is. -/
def readInt (s : PyStr) : Option ℤ :=
  let (neg, digits) := readSign s
  if digits ≠ [] && digits.all isDigit then some (signed neg (digitsValue digits : ℤ)) else none

/-- The exponent after the digits of a number. -/
def readExponent : PyStr → Option ℤ
  | [] => some 0
  | c :: rest => if c = 101 || c = 69 then readInt rest else none

/-- A decimal number, which is all there is. -/
def readDecimal (s : PyStr) : Option ℚ :=
  let whole := s.takeWhile isDigit
  let rest := s.dropWhile isDigit
  let fraction := if rest.head? = some 46 then rest.tail.takeWhile isDigit else []
  let rest := if rest.head? = some 46 then rest.tail.dropWhile isDigit else rest
  if whole ++ fraction = [] then none
  else (readExponent rest).map fun e ↦ (digitsValue (whole ++ fraction) : ℚ) * (10 : ℚ) ^ (e - (fraction.length : ℤ))

/-- A character without its case. -/
def lowered (c : ℕ) : ℕ :=
  if 65 ≤ c ∧ c ≤ 90 then c + 32 else c

/-- The value of a sample. -/
def readValue (s : PyStr) : Option Value :=
  let (neg, rest) := readSign s
  let word := rest.map lowered
  if word = py "inf" ∨ word = py "infinity" then some (.inf neg)
  else if s.map lowered = py "nan" then some .nan
  else (readDecimal rest).map fun q ↦ .num (signed neg q)

/-! ### Parsing -/

/-- A name, an equals sign and a quoted value, and what comes after them. -/
def readLabel (s : PyStr) : Option ((PyStr × PyStr) × PyStr) :=
  let name := s.takeWhile isLabelChar
  let rest := skipBlanks (s.dropWhile isLabelChar)
  let quoted := skipBlanks rest.tail
  if isLabelName name ∧ rest.head? = some 61 ∧ quoted.head? = some 34 then
    (readQuoted quoted.tail).map fun r ↦ ((name, r.1), r.2)
  else none

/-- The labels after an opening brace, and what comes after the closing one. No line has more labels than
characters. -/
def readLabels : ℕ → PyStr → Option (List (PyStr × PyStr) × PyStr)
  | 0, _ => none
  | n + 1, s =>
    match skipBlanks s with
    | 125 :: rest => some ([], rest)
    | s =>
      (readLabel s).bind fun l ↦
        match skipBlanks l.2 with
        | 44 :: rest => (readLabels n rest).map fun r ↦ (l.1 :: r.1, r.2)
        | 125 :: rest => some ([l.1], rest)
        | _ => none

/-- The value and the timestamp at the end of a line. -/
def readTail (s : PyStr) : Option (Value × Option ℤ) :=
  match words s with
  | [v] => (readValue v).map fun x ↦ (x, none)
  | [v, t] => do
    let x ← readValue v
    let time ← readInt t
    pure (x, some time)
  | _ => none

def parseSample (s : PyStr) : Option Line :=
  let name := s.takeWhile isMetricChar
  let rest := skipBlanks (s.dropWhile isMetricChar)
  if isMetricName name then
    (if rest.head? = some 123 then readLabels rest.length rest.tail else some ([], rest)).bind fun l ↦
      if (l.1.map Prod.fst).Nodup then
        (readTail l.2).map fun v ↦ .sample ⟨name, l.1, v.1, v.2⟩
      else none
  else none

/-- The types of metrics. -/
def kinds : List PyStr :=
  [py "counter", py "gauge", py "histogram", py "summary", py "untyped"]

/-- A line after its `#`. -/
def parseComment (s : PyStr) : Option Line :=
  let s := skipBlanks s
  let rest := skipBlanks (s.dropWhile fun c ↦ !isBlank c)
  let keyword := s.takeWhile fun c ↦ !isBlank c
  if keyword = py "HELP" then
    let name := rest.takeWhile fun c ↦ !isBlank c
    if isMetricName name then
      (readDoc (skipBlanks (rest.dropWhile fun c ↦ !isBlank c))).map (.help name)
    else none
  else if keyword = py "TYPE" then
    match words rest with
    | [name, kind] => if isMetricName name && kinds.contains kind then some (.type name kind) else none
    | _ => none
  else some .comment

def parseLine (s : PyStr) : Option Line :=
  match skipBlanks s with
  | [] => some .blank
  | 35 :: rest => parseComment rest
  | s => parseSample s

/-- A text, whose last line ends with a line feed. -/
def parse (text : PyStr) : Option (List Line) :=
  if text.getLast? = some 10 then (text.dropLast.splitOn 10).mapM parseLine else none

/-! ### Well-formed texts -/

/-- Equal elements follow each other. -/
def Contiguous {α : Type} : List α → Prop
  | [] => True
  | a :: l => (a ∈ l → l.head? = some a) ∧ Contiguous l

instance decidableContiguous {α : Type} [DecidableEq α] : (l : List α) → Decidable (Contiguous l)
  | [] => .isTrue trivial
  | a :: l =>
    haveI := decidableContiguous l
    inferInstanceAs (Decidable ((a ∈ l → l.head? = some a) ∧ Contiguous l))

/-- A line may come after another one of the same metric. -/
def Line.precedes : Line → Line → Bool
  | .sample _, .help .. | .sample _, .type .. | .help .., .help .. | .type .., .type .. => false
  | _, _ => true

/-- What is said of a metric comes before its samples, and once. -/
def Headed (lines : List Line) : Prop :=
  lines.Pairwise fun a b ↦ a.metric = b.metric → a.metric ≠ none → a.precedes b

/-- A text is well formed by its lines. -/
structure WellFormed (lines : List Line) : Prop where
  /-- The lines of a metric are a single group. -/
  groups : Contiguous (lines.filterMap Line.metric)
  headed : Headed lines
  /-- No sample is given twice. -/
  distinct : (lines.filterMap Line.sample?).Pairwise fun s t ↦ ¬(s.name = t.name ∧ s.labels.Perm t.labels)

/-! ### Writing -/

/-- A character of a label value. -/
def escapeChar (c : ℕ) : PyStr :=
  if c = 92 then [92, 92] else if c = 34 then [92, 34] else if c = 10 then [92, 110] else [c]

def escape (v : PyStr) : PyStr :=
  v.flatMap escapeChar

def writeLabel (l : PyStr × PyStr) : PyStr :=
  l.1 ++ py "=\"" ++ escape l.2 ++ py "\""

/-- The line of a sample whose value is written as a word. -/
def writeSample (name : PyStr) (labels : List (PyStr × PyStr)) (word : PyStr) : PyStr :=
  name ++ py "\x7b" ++ (py ",").intercalate (labels.map writeLabel) ++ py "\x7d " ++ word

/-- The line that says what a metric is. -/
def writeHelp (name doc : PyStr) : PyStr :=
  py "# HELP " ++ name ++ py " " ++ doc

/-- The line that says what its type is. -/
def writeType (name kind : PyStr) : PyStr :=
  py "# TYPE " ++ name ++ py " " ++ kind

/-- **A label value is read as it was before it was escaped.** -/
theorem readQuoted_escape (v rest : PyStr) : readQuoted (escape v ++ 34 :: rest) = some (v, rest) := by
  induction v with
  | nil => rfl
  | cons c v ih =>
    rw [escape, List.flatMap_cons, List.append_assoc, ← escape]
    unfold escapeChar
    split_ifs with hslash hquote hline
    · subst hslash
      exact congrArg (Option.map _) ih
    · subst hquote
      exact congrArg (Option.map _) ih
    · subst hline
      exact congrArg (Option.map _) ih
    · simp [readQuoted, hslash, ih]

/-- What is escaped has no line feed. -/
theorem not_mem_escape (v : PyStr) : 10 ∉ escape v := by
  intro h
  obtain ⟨c, -, hc⟩ := List.mem_flatMap.1 h
  unfold escapeChar at hc
  split_ifs at hc with hslash hquote hline
  · simp at hc
  · simp at hc
  · simp at hc
  · exact hline (List.mem_singleton.1 hc).symm

theorem skipBlanks_cons {c : ℕ} (h : isBlank c = false) (s : PyStr) : skipBlanks (c :: s) = c :: s :=
  List.dropWhile_cons_of_neg (by simp [h])

/-- A name up to a character that is not part of one. -/
theorem takeWhile_name {p : ℕ → Bool} {name rest : PyStr} {c : ℕ} (hname : name.all p = true) (hc : p c = false) :
    (name ++ c :: rest).takeWhile p = name := by
  rw [List.takeWhile_append_of_pos (List.all_eq_true.1 hname), List.takeWhile_cons_of_neg (by simp [hc]),
    List.append_nil]

theorem dropWhile_name {p : ℕ → Bool} {name rest : PyStr} {c : ℕ} (hname : name.all p = true) (hc : p c = false) :
    (name ++ c :: rest).dropWhile p = c :: rest := by
  rw [List.dropWhile_append_of_pos (List.all_eq_true.1 hname), List.dropWhile_cons_of_neg (by simp [hc])]

theorem all_of_isLabelName {name : PyStr} (h : isLabelName name = true) : name.all isLabelChar = true := by
  rcases name with - | ⟨c, cs⟩
  · rfl
  · obtain ⟨hc, hcs⟩ := Bool.and_eq_true_iff.1 h
    simp [isLabelChar, hc, hcs]

theorem all_of_isMetricName {name : PyStr} (h : isMetricName name = true) : name.all isMetricChar = true := by
  rcases name with - | ⟨c, cs⟩
  · rfl
  · obtain ⟨hc, hcs⟩ := Bool.and_eq_true_iff.1 h
    simp only [List.all_cons, hcs, Bool.and_true, isMetricChar, isLabelChar]
    rcases Bool.or_eq_true_iff.1 hc with hc | hc
    · simp [hc]
    · simp [hc]

theorem not_isBlank_of_isLetter {c : ℕ} (h : isLetter c = true) : isBlank c = false := by
  rcases hb : isBlank c with - | -
  · rfl
  · simp only [isBlank, Bool.or_eq_true, decide_eq_true_eq] at hb
    rcases hb with rfl | rfl
    · exact absurd h (by decide)
    · exact absurd h (by decide)

theorem readLabel_writeLabel {l : PyStr × PyStr} (hl : isLabelName l.1 = true) (rest : PyStr) :
    readLabel (writeLabel l ++ rest) = some (l, rest) := by
  obtain ⟨name, value⟩ := l
  have htext : writeLabel (name, value) ++ rest = name ++ 61 :: 34 :: (escape value ++ 34 :: rest) := by
    simp [writeLabel, py]
  have hall := all_of_isLabelName hl
  have hequals : isLabelChar 61 = false := by decide
  have hblank : isBlank 61 = false := by decide
  have hblank' : isBlank 34 = false := by decide
  rw [htext, readLabel, takeWhile_name hall hequals, dropWhile_name hall hequals, skipBlanks_cons hblank,
    List.tail_cons, skipBlanks_cons hblank', if_pos ⟨hl, rfl, rfl⟩, List.tail_cons, readQuoted_escape]
  rfl

/-- What is read up to the end of a label. -/
theorem readLabels_succ {l : PyStr × PyStr} (hl : isLabelName l.1 = true) (n : ℕ) (rest : PyStr) :
    readLabels (n + 1) (writeLabel l ++ rest) =
      match skipBlanks rest with
      | 44 :: rest => (readLabels n rest).map fun r ↦ (l :: r.1, r.2)
      | 125 :: rest => some ([l], rest)
      | _ => none := by
  obtain ⟨c, s, hs, hc⟩ : ∃ c s, writeLabel l ++ rest = c :: s ∧ isLetter c = true := by
    obtain ⟨name, value⟩ := l
    rcases name with - | ⟨c, cs⟩
    · cases hl
    · exact ⟨c, _, rfl, (Bool.and_eq_true_iff.1 hl).1⟩
  have hbrace : c ≠ 125 := by
    rintro rfl
    exact absurd hc (by decide)
  have hread := readLabel_writeLabel hl rest
  rw [hs] at hread ⊢
  rw [readLabels, skipBlanks_cons (not_isBlank_of_isLetter hc)]
  split
  · next heq => exact absurd (List.cons.inj heq).1 hbrace
  · rw [hread]
    rfl

/-- **Labels are read as they were.** -/
theorem readLabels_writeLabels {ls : List (PyStr × PyStr)} (hls : ∀ l ∈ ls, isLabelName l.1 = true) {n : ℕ}
    (hn : ls.length < n) (rest : PyStr) :
    readLabels n ((py ",").intercalate (ls.map writeLabel) ++ 125 :: rest) = some (ls, rest) := by
  induction ls generalizing n with
  | nil =>
    obtain ⟨n, rfl⟩ := Nat.exists_eq_succ_of_ne_zero (Nat.ne_of_gt hn)
    rfl
  | cons l ls ih =>
    obtain ⟨n, rfl⟩ := Nat.exists_eq_succ_of_ne_zero (Nat.ne_of_gt (Nat.zero_lt_of_lt hn))
    obtain ⟨hl, hls⟩ := List.forall_mem_cons.1 hls
    rcases ls with - | ⟨l', ls⟩
    · rw [List.map_singleton, List.intercalate_singleton, Nat.succ_eq_add_one, readLabels_succ hl]
      rfl
    · have htext : (py ",").intercalate ((l :: l' :: ls).map writeLabel) ++ 125 :: rest =
          writeLabel l ++ 44 :: ((py ",").intercalate ((l' :: ls).map writeLabel) ++ 125 :: rest) := by
        simp [List.intercalate_cons_cons, py]
      rw [htext, Nat.succ_eq_add_one, readLabels_succ hl, skipBlanks_cons (by decide)]
      simp only [ih hls (Nat.lt_of_succ_lt_succ hn)]
      rfl

/-- One word after a blank is the value. -/
theorem readTail_word {word : PyStr} (hne : word ≠ []) (hword : ∀ c ∈ word, isBlank c = false) :
    readTail (32 :: word) = (readValue word).map fun x ↦ (x, none) := by
  have hsplit : words (32 :: word) = [word] := by
    have hblank : (32 :: word).splitOnP isBlank = [] :: word.splitOnP isBlank :=
      List.splitOnP_append_cons_of_forall_mem (List.forall_mem_nil _) 32 (by decide) word
    rw [words, hblank, List.splitOnP_eq_singleton hword]
    simp [hne]
  rw [readTail, hsplit]

theorem readDecimal_natRepr (n : ℕ) : readDecimal (natRepr n) = some n := by
  have hdigits := Json.natRepr_digits n
  have hwhole : (natRepr n).takeWhile isDigit = natRepr n := List.takeWhile_eq_self_iff.2 hdigits
  have hrest : (natRepr n).dropWhile isDigit = [] := List.dropWhile_eq_nil_iff.2 hdigits
  rw [readDecimal, hwhole, hrest]
  simp [Json.natRepr_ne_nil, readExponent, digitsValue, Json.ofDigits_natRepr]

/-- A natural number is read as it was. -/
theorem readValue_natRepr (n : ℕ) : readValue (natRepr n) = some (.num n) := by
  have hdigits := Json.natRepr_digits n
  obtain ⟨c, cs, hs⟩ := List.exists_cons_of_ne_nil (Json.natRepr_ne_nil n)
  have hc : isDigit c = true := hdigits c (hs ▸ List.mem_cons_self)
  have hsign : readSign (natRepr n) = (false, natRepr n) := by
    rw [hs]
    unfold readSign
    split
    · next heq => exact absurd ((List.cons.inj heq).1 ▸ hc) (by decide)
    · next heq => exact absurd ((List.cons.inj heq).1 ▸ hc) (by decide)
    · rfl
  have hlowered : (natRepr n).map lowered = natRepr n := by
    refine (List.map_congr_left fun c hc ↦ ?_).trans (List.map_id _)
    have hle : c ≤ 57 := by
      have := hdigits c hc
      simp only [isDigit, Bool.and_eq_true, decide_eq_true_eq] at this
      exact this.2
    rw [lowered, if_neg (by omega)]
    rfl
  have hword : ∀ d ds, isDigit d = false → natRepr n ≠ d :: ds := by
    rintro d ds hd heq
    rw [hdigits d (heq ▸ List.mem_cons_self)] at hd
    cases hd
  have hinf : natRepr n ≠ py "inf" := hword 105 (py "nf") rfl
  have hinfinity : natRepr n ≠ py "infinity" := hword 105 (py "nfinity") rfl
  have hnan : natRepr n ≠ py "nan" := hword 110 (py "an") rfl
  unfold readValue
  rw [hsign]
  dsimp only
  rw [hlowered, if_neg (not_or.2 ⟨hinf, hinfinity⟩), if_neg hnan, readDecimal_natRepr]
  rfl

/-- A line that begins with a name and a brace is not read as anything but a sample. -/
theorem parseLine_name {name : PyStr} (hname : isMetricName name = true) (rest : PyStr) :
    parseLine (name ++ 123 :: rest) =
      (readLabels (rest.length + 1) rest).bind fun l ↦
        if (l.1.map Prod.fst).Nodup then
          (readTail l.2).map fun v ↦ .sample ⟨name, l.1, v.1, v.2⟩
        else none := by
  have hall := all_of_isMetricName hname
  have hbrace : isMetricChar 123 = false := by decide
  have hsample : parseLine (name ++ 123 :: rest) = parseSample (name ++ 123 :: rest) := by
    rcases name with - | ⟨c, cs⟩
    · cases hname
    have hc := (Bool.and_eq_true_iff.1 hname).1
    have hblank : isBlank c = false := by
      rcases Bool.or_eq_true_iff.1 hc with hc | hc
      · exact not_isBlank_of_isLetter hc
      · obtain rfl := of_decide_eq_true hc
        rfl
    rw [List.cons_append, parseLine, skipBlanks_cons hblank]
    split
    · next heq => cases heq
    · next heq =>
      rw [(List.cons.inj heq).1] at hc
      exact absurd hc (by decide)
    · rfl
  rw [hsample, parseSample, takeWhile_name hall hbrace, dropWhile_name hall hbrace, skipBlanks_cons (by decide)]
  rw [if_pos hname, if_pos List.head?_cons, List.tail_cons, List.length_cons]

theorem length_le_writeLabels (labels : List (PyStr × PyStr)) :
    labels.length ≤ ((py ",").intercalate (labels.map writeLabel)).length := by
  have hlabel : ∀ l, 0 < (writeLabel l).length := fun l ↦ by
    simp [writeLabel, py]
  induction labels with
  | nil => exact Nat.zero_le _
  | cons l ls ih =>
    have hl := hlabel l
    rcases ls with - | ⟨l', ls⟩
    · rw [List.map_singleton, List.intercalate_singleton]
      exact hl
    · rw [List.map_cons, List.map_cons, List.intercalate_cons_cons, ← List.map_cons]
      simp only [List.length_append, List.length_cons] at ih ⊢
      omega

/-- **A sample is parsed as it was written.** -/
theorem parseLine_writeSample {name word : PyStr} {labels : List (PyStr × PyStr)} {value : Value}
    (hname : isMetricName name = true) (hlabels : ∀ l ∈ labels, isLabelName l.1 = true)
    (hnodup : (labels.map Prod.fst).Nodup) (hne : word ≠ []) (hword : ∀ c ∈ word, isBlank c = false)
    (hvalue : readValue word = some value) :
    parseLine (writeSample name labels word) = some (.sample ⟨name, labels, value, none⟩) := by
  have htext : writeSample name labels word =
      name ++ 123 :: ((py ",").intercalate (labels.map writeLabel) ++ 125 :: 32 :: word) := by
    simp [writeSample, py]
  rw [htext, parseLine_name hname, readLabels_writeLabels hlabels ?_, Option.bind_some, if_pos hnodup,
    readTail_word hne hword, hvalue]
  · rfl
  · simp only [List.length_append, List.length_cons]
    have := length_le_writeLabels labels
    omega

/-- A line that begins with a name and a brace is of this metric, if it is anything. -/
theorem metric_of_parseLine {name rest : PyStr} {l : Line} (hname : isMetricName name = true)
    (h : parseLine (name ++ 123 :: rest) = some l) : l.metric = some name := by
  rw [parseLine_name hname] at h
  obtain ⟨labels, -, h⟩ := Option.bind_eq_some_iff.1 h
  split_ifs at h
  obtain ⟨v, -, rfl⟩ := Option.map_eq_some_iff.1 h
  rfl

/-- No character of a name is a blank. -/
theorem not_isBlank_of_isMetricName {name : PyStr} (h : isMetricName name = true) :
    name.all (fun c ↦ !isBlank c) = true := by
  refine List.all_eq_true.2 fun c hc ↦ ?_
  have hchar := List.all_eq_true.1 (all_of_isMetricName h) c hc
  rcases hb : isBlank c with - | -
  · rfl
  · simp only [isBlank, Bool.or_eq_true, decide_eq_true_eq] at hb
    rcases hb with rfl | rfl
    · exact absurd hchar (by decide)
    · exact absurd hchar (by decide)

theorem skipBlanks_name {name rest : PyStr} (h : isMetricName name = true) :
    skipBlanks (name ++ rest) = name ++ rest := by
  rcases name with - | ⟨c, cs⟩
  · cases h
  · have hc := List.all_eq_true.1 (not_isBlank_of_isMetricName h) c List.mem_cons_self
    exact skipBlanks_cons (by simpa using hc) _

theorem readDoc_eq {doc : PyStr} (h : 92 ∉ doc) : readDoc doc = some doc := by
  induction doc with
  | nil => rfl
  | cons c doc ih =>
    obtain ⟨hc, hdoc⟩ := not_or.1 (List.mem_cons.not.1 h)
    simp [readDoc, Ne.symm hc, ih hdoc]

theorem skipBlanks_blank (s : PyStr) : skipBlanks (32 :: s) = skipBlanks s :=
  rfl

/-- The keyword of a comment, and what comes after it. -/
theorem parseComment_keyword {keyword : PyStr} (hkeyword : keyword.all (fun c ↦ !isBlank c) = true)
    (hskip : ∀ rest, skipBlanks (keyword ++ rest) = keyword ++ rest) (rest : PyStr) :
    parseLine (35 :: 32 :: (keyword ++ 32 :: rest)) =
      if keyword = py "HELP" then
        let name := (skipBlanks rest).takeWhile fun c ↦ !isBlank c
        if isMetricName name then
          (readDoc (skipBlanks ((skipBlanks rest).dropWhile fun c ↦ !isBlank c))).map (.help name)
        else none
      else if keyword = py "TYPE" then
        match words (skipBlanks rest) with
        | [name, kind] => if isMetricName name && kinds.contains kind then some (.type name kind) else none
        | _ => none
      else some .comment := by
  have hblank : (!isBlank 32) = false := rfl
  rw [parseLine, skipBlanks_cons (by decide)]
  change parseComment (32 :: (keyword ++ 32 :: rest)) = _
  unfold parseComment
  dsimp only
  rw [skipBlanks_blank, hskip, takeWhile_name hkeyword hblank, dropWhile_name hkeyword hblank, skipBlanks_blank]

/-- A `HELP` line whose text has nothing to escape. -/
theorem parseLine_writeHelp {name doc : PyStr} (hname : isMetricName name = true) (hdoc : 92 ∉ doc)
    (hskip : skipBlanks doc = doc) : parseLine (writeHelp name doc) = some (.help name doc) := by
  have hall := not_isBlank_of_isMetricName hname
  have hblank : (!isBlank 32) = false := rfl
  have htext : writeHelp name doc = 35 :: 32 :: (py "HELP" ++ 32 :: (name ++ 32 :: doc)) := by
    simp [writeHelp, py]
  rw [htext, parseComment_keyword (by decide) (fun _ ↦ rfl), if_pos rfl, skipBlanks_name hname]
  dsimp only
  rw [takeWhile_name hall hblank, if_pos hname, dropWhile_name hall hblank, skipBlanks_blank, hskip, readDoc_eq hdoc]
  rfl

/-- A `TYPE` line. -/
theorem parseLine_writeType {name kind : PyStr} (hname : isMetricName name = true) (hkind : kind ∈ kinds) :
    parseLine (writeType name kind) = some (.type name kind) := by
  have hall := not_isBlank_of_isMetricName hname
  have htext : writeType name kind = 35 :: 32 :: (py "TYPE" ++ 32 :: (name ++ 32 :: kind)) := by
    simp [writeType, py]
  have hkindBlank : ∀ k ∈ kinds, k ≠ [] ∧ ∀ c ∈ k, isBlank c = false := by
    decide
  obtain ⟨hne, hkindAll⟩ := hkindBlank kind hkind
  have hnameAll : ∀ c ∈ name, isBlank c = false := fun c hc ↦ by
    simpa using List.all_eq_true.1 hall c hc
  have hnameNe : name ≠ [] := by
    rintro rfl
    cases hname
  have hwords : words (name ++ 32 :: kind) = [name, kind] := by
    rw [words, List.splitOnP_append_cons_of_forall_mem hnameAll 32 (by decide) kind,
      List.splitOnP_eq_singleton hkindAll]
    simp [hne, hnameNe]
  rw [htext, parseComment_keyword (by decide) (fun _ ↦ rfl), if_neg (by decide), if_pos rfl, skipBlanks_name hname,
    hwords]
  simp [hname, hkind]

/-! ### Texts -/

/-- **A text is parsed line by line.** -/
theorem parse_eq_some_iff {texts : List PyStr} (hne : texts ≠ []) (htexts : ∀ t ∈ texts, 10 ∉ t) {lines : List Line} :
    parse ([10].intercalate texts ++ [10]) = some lines ↔
      List.Forall₂ (fun t l ↦ parseLine t = some l) texts lines := by
  rw [parse, if_pos List.getLast?_concat, List.dropLast_concat, List.splitOn_intercalate 10 htexts hne,
    mapM_eq_some_iff]

/-- What a line is about, if it is parsed. -/
def Titled (text name : PyStr) : Prop :=
  ∀ l, parseLine text = some l → l.metric = some name

theorem titled_of_parsed {texts names : List PyStr} {lines : List Line}
    (hlines : List.Forall₂ (fun t l ↦ parseLine t = some l) texts lines)
    (hnames : lines.map Line.metric = names.map some) : List.Forall₂ Titled texts names := by
  have h := forall₂_trans hlines ((forall₂_iff_map_eq fun _ _ ↦ Iff.rfl).2 hnames)
  refine h.imp fun t n htn l hl ↦ ?_
  obtain ⟨l', hl', hname⟩ := htn
  rw [Option.some.inj (hl.symm.trans hl'), hname]

/-- The metrics of a parsed text are told from its lines. -/
theorem metrics_eq_of_titled {texts names : List PyStr} {lines : List Line} (htitled : List.Forall₂ Titled texts names)
    (hlines : List.Forall₂ (fun t l ↦ parseLine t = some l) texts lines) : lines.filterMap Line.metric = names := by
  induction htitled generalizing lines with
  | nil =>
    obtain rfl := List.forall₂_nil_left_iff.1 hlines
    rfl
  | cons hname _ ih =>
    obtain ⟨l, rest, hl, hrest, rfl⟩ := List.forall₂_cons_left_iff.1 hlines
    rw [List.filterMap_cons, hname l hl, ih hrest]

/-! ### Groups -/

section Contiguous

variable {α : Type} {l m : List α}

/-- Groups of different elements, one after the other. -/
theorem Contiguous.append (hl : Contiguous l) (hm : Contiguous m) (h : ∀ a ∈ l, a ∉ m) : Contiguous (l ++ m) := by
  induction l with
  | nil => exact hm
  | cons a l ih =>
    obtain ⟨ha, hrest⟩ := List.forall_mem_cons.1 h
    rw [List.cons_append]
    refine ⟨fun hmem ↦ ?_, ih hl.2 hrest⟩
    have hhead := hl.1 ((List.mem_append.1 hmem).resolve_right ha)
    rw [List.head?_append, hhead]
    rfl

theorem contiguous_of_forall_eq {a : α} (h : ∀ b ∈ l, b = a) : Contiguous l := by
  induction l with
  | nil => trivial
  | cons b l ih =>
    obtain ⟨rfl, hl⟩ := List.forall_mem_cons.1 h
    refine ⟨fun hmem ↦ ?_, ih hl⟩
    rcases l with - | ⟨c, l⟩
    · cases hmem
    · rw [hl c List.mem_cons_self]
      rfl

theorem Contiguous.of_append_right (h : Contiguous (l ++ m)) : Contiguous m := by
  induction l with
  | nil => exact h
  | cons a l ih => exact ih h.2

/-- An element that comes again after another one is in two groups. -/
theorem not_contiguous_of_mem {a b : α} (hne : b ≠ a) (hmem : a ∈ m) : ¬Contiguous (l ++ a :: b :: m) := by
  intro h
  have hhead := h.of_append_right.1 (List.mem_cons_of_mem b hmem)
  exact hne (Option.some.inj hhead)

end Contiguous

/-- Heads after lines about other metrics. -/
theorem Headed.append_heads {lines heads : List Line} (hlines : Headed lines) (hheads : Headed heads)
    (h : ∀ a ∈ lines, ∀ b ∈ heads, a.metric ≠ b.metric) : Headed (lines ++ heads) :=
  List.pairwise_append.2 ⟨hlines, hheads, fun a ha b hb heq ↦ absurd heq (h a ha b hb)⟩

/-- Samples may come after any lines. -/
theorem Headed.append_samples {lines : List Line} (hlines : Headed lines) (samples : List Sample) :
    Headed (lines ++ samples.map .sample) := by
  have hafter : ∀ (a : Line) (s : Sample), a.precedes (.sample s) = true := by
    intro a s
    cases a <;> rfl
  refine List.pairwise_append.2 ⟨hlines, ?_, ?_⟩
  · exact List.pairwise_map.2 (List.pairwise_of_forall fun s t _ _ ↦ hafter (.sample s) t)
  · intro a _ b hb _ _
    obtain ⟨s, -, rfl⟩ := List.mem_map.1 hb
    exact hafter a s

end Exposition
