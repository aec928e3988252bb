import Mathlib.Data.List.Basic

/-!
# Markup

The tags, the attributes and the characters of a text in the syntax of HTML, in so far as a writer needs it that puts
all attribute values in double quotes and writes characters as themselves or by references with a semicolon. What goes
beyond that is not read at all. Characters are numbers, and the references are a parameter.

* `read`: the tokens of a text, character by character.
* `Spelled`: how a text may be written between tags or between quotes.
* `Written`: how tokens may be written.
* `read_of_written`: they are read back, whatever characters the texts and the values have.

Nothing here knows what the text is about.
-/

namespace Markup

/-- A character by itself: `" & < > / = ;` and space. -/
abbrev quote : ℕ := 34
abbrev ampersand : ℕ := 38
abbrev less : ℕ := 60
abbrev greater : ℕ := 62
abbrev slash : ℕ := 47
abbrev equals : ℕ := 61
abbrev semicolon : ℕ := 59
abbrev space : ℕ := 32

/-- A character of a name: a small letter, a digit or a hyphen. -/
def isName (c : ℕ) : Bool :=
  (97 ≤ c && c ≤ 122) || (48 ≤ c && c ≤ 57) || c = 45

/-- A small letter. -/
def isLetter (c : ℕ) : Bool :=
  97 ≤ c && c ≤ 122

/-- A character of a reference: a character of a name or `#`. -/
def isReference (c : ℕ) : Bool :=
  isName c || c = 35

/-- An attribute: its name and its value. -/
abbrev Attribute := List ℕ × List ℕ

/-- What a text is made of. -/
inductive Token
  | start (name : List ℕ) (attributes : List Attribute)
  | close (name : List ℕ)
  | char (c : ℕ)
deriving DecidableEq

/-- Where the reader is. -/
inductive State
  | data
  | reference (ref : List ℕ)
  | tagOpen
  | tagName (tag : List ℕ)
  | endName (tag : List ℕ)
  | beforeName (tag : List ℕ) (attributes : List Attribute)
  | name (tag : List ℕ) (attributes : List Attribute) (name : List ℕ)
  | afterEquals (tag : List ℕ) (attributes : List Attribute) (name : List ℕ)
  | value (tag : List ℕ) (attributes : List Attribute) (name value : List ℕ)
  | valueReference (tag : List ℕ) (attributes : List Attribute) (name value ref : List ℕ)
  | afterValue (tag : List ℕ) (attributes : List Attribute)
deriving DecidableEq

/-- The reader, with the tokens so far. -/
structure Reader where
  state : State
  tokens : List Token
deriving DecidableEq

/-- The reader before the first character. -/
def Reader.init : Reader :=
  ⟨.data, []⟩

section

variable (references : List ℕ → Option ℕ)

/-- What the next character does. -/
def Reader.step (r : Reader) (c : ℕ) : Option Reader :=
  match r.state with
  | .data =>
    if c = less then some ⟨.tagOpen, r.tokens⟩
    else if c = ampersand then some ⟨.reference [], r.tokens⟩
    else some ⟨.data, r.tokens ++ [.char c]⟩
  | .reference ref =>
    if c = semicolon then (references ref).map fun d ↦ ⟨.data, r.tokens ++ [.char d]⟩
    else if isReference c then some ⟨.reference (ref ++ [c]), r.tokens⟩
    else none
  | .tagOpen =>
    if c = slash then some ⟨.endName [], r.tokens⟩
    else if isLetter c then some ⟨.tagName [c], r.tokens⟩
    else none
  | .tagName tag =>
    if c = space then some ⟨.beforeName tag [], r.tokens⟩
    else if c = greater then some ⟨.data, r.tokens ++ [.start tag []]⟩
    else if isName c then some ⟨.tagName (tag ++ [c]), r.tokens⟩
    else none
  | .endName tag =>
    if c = greater then some ⟨.data, r.tokens ++ [.close tag]⟩
    else if isName c then some ⟨.endName (tag ++ [c]), r.tokens⟩
    else none
  | .beforeName tag attributes =>
    if isLetter c then some ⟨.name tag attributes [c], r.tokens⟩ else none
  | .name tag attributes name =>
    if c = equals then some ⟨.afterEquals tag attributes name, r.tokens⟩
    else if isName c then some ⟨.name tag attributes (name ++ [c]), r.tokens⟩
    else none
  | .afterEquals tag attributes name =>
    if c = quote then some ⟨.value tag attributes name [], r.tokens⟩ else none
  | .value tag attributes name value =>
    if c = quote then some ⟨.afterValue tag (attributes ++ [(name, value)]), r.tokens⟩
    else if c = ampersand then some ⟨.valueReference tag attributes name value [], r.tokens⟩
    else some ⟨.value tag attributes name (value ++ [c]), r.tokens⟩
  | .valueReference tag attributes name value ref =>
    if c = semicolon then (references ref).map fun d ↦ ⟨.value tag attributes name (value ++ [d]), r.tokens⟩
    else if isReference c then some ⟨.valueReference tag attributes name value (ref ++ [c]), r.tokens⟩
    else none
  | .afterValue tag attributes =>
    if c = space then some ⟨.beforeName tag attributes, r.tokens⟩
    else if c = greater then some ⟨.data, r.tokens ++ [.start tag attributes]⟩
    else none

/-- The reader after a text. -/
def Reader.run (r : Reader) (s : List ℕ) : Option Reader :=
  s.foldlM (Reader.step references) r

/-- The tokens of a text, if it ends between them. -/
def read (s : List ℕ) : Option (List Token) :=
  (Reader.init.run references s).bind fun r ↦ if r.state = .data then some r.tokens else none

/-! ### Writing -/

/-- A name that can be written: a letter, and characters of names. -/
def IsNamed (name : List ℕ) : Prop :=
  ∃ c rest, name = c :: rest ∧ isLetter c = true ∧ ∀ d ∈ rest, isName d = true

/-- How a text may be written: a character as itself, unless it has a meaning, or by a reference. -/
inductive Spelled : List ℕ → List ℕ → Prop
  | nil : Spelled [] []
  | plain {c : ℕ} {v s : List ℕ} (hquote : c ≠ quote) (hampersand : c ≠ ampersand) (hless : c ≠ less) :
      Spelled v s → Spelled (c :: v) (c :: s)
  | reference {c : ℕ} {ref v s : List ℕ} (hchars : ∀ d ∈ ref, isReference d = true) (href : references ref = some c) :
      Spelled v s → Spelled (c :: v) (ampersand :: ref ++ semicolon :: s)

/-- How attributes may be written. -/
inductive Attributes : List Attribute → List ℕ → Prop
  | nil : Attributes [] []
  | cons {name v s w : List ℕ} {attributes : List Attribute} (hname : IsNamed name) (hvalue : Spelled references v s) :
      Attributes attributes w →
      Attributes ((name, v) :: attributes) (space :: name ++ equals :: quote :: s ++ quote :: w)

/-- How tokens may be written. -/
inductive Written : List Token → List ℕ → Prop
  | nil : Written [] []
  | text {v s w : List ℕ} {tokens : List Token} (htext : Spelled references v s) :
      Written tokens w → Written (v.map .char ++ tokens) (s ++ w)
  | start {name a w : List ℕ} {attributes : List Attribute} {tokens : List Token} (hname : IsNamed name)
      (hattributes : Attributes references attributes a) :
      Written tokens w → Written (.start name attributes :: tokens) (less :: name ++ a ++ greater :: w)
  | close {name w : List ℕ} {tokens : List Token} (hname : IsNamed name) :
      Written tokens w → Written (.close name :: tokens) (less :: slash :: name ++ greater :: w)

variable {references}

theorem Spelled.append {v v' s s' : List ℕ} (h : Spelled references v s) (h' : Spelled references v' s') :
    Spelled references (v ++ v') (s ++ s') := by
  induction h with
  | nil => exact h'
  | plain hquote hampersand hless _ ih => exact .plain hquote hampersand hless ih
  | reference hchars href _ ih =>
    rw [List.cons_append, List.append_assoc, List.cons_append, List.cons_append]
    exact .reference hchars href ih

/-- A text without characters that have a meaning is written as it is. -/
theorem spelled_plain {v : List ℕ} (h : ∀ c ∈ v, c ≠ quote ∧ c ≠ ampersand ∧ c ≠ less) : Spelled references v v := by
  induction v with
  | nil => exact .nil
  | cons c v ih =>
    obtain ⟨hc, hv⟩ := List.forall_mem_cons.1 h
    exact .plain hc.1 hc.2.1 hc.2.2 (ih hv)

/-- Texts written by characters. -/
theorem spelled_flatMap {f : ℕ → List ℕ} (h : ∀ c, Spelled references [c] (f c)) (v : List ℕ) :
    Spelled references v (v.flatMap f) := by
  induction v with
  | nil => exact .nil
  | cons c v ih => exact (h c).append ih

theorem Written.append {tokens tokens' : List Token} {w w' : List ℕ} (h : Written references tokens w)
    (h' : Written references tokens' w') : Written references (tokens ++ tokens') (w ++ w') := by
  induction h with
  | nil => exact h'
  | text htext _ ih =>
    rw [List.append_assoc, List.append_assoc]
    exact .text htext ih
  | start hname hattributes _ ih =>
    rw [List.append_assoc, List.cons_append, List.cons_append]
    exact .start hname hattributes ih
  | close hname _ ih =>
    rw [List.append_assoc, List.cons_append, List.cons_append]
    exact .close hname ih

/-! ### Reading -/

theorem run_append (r : Reader) (s t : List ℕ) :
    r.run references (s ++ t) = (r.run references s).bind (·.run references t) :=
  List.foldlM_append

theorem run_cons (r : Reader) (c : ℕ) (s : List ℕ) :
    r.run references (c :: s) = (r.step references c).bind (·.run references s) :=
  List.foldlM_cons

/-- Characters that are collected. -/
theorem run_collect {mk : List ℕ → State} {p : ℕ → Bool} {tokens : List Token}
    (h : ∀ acc c, p c = true → Reader.step references ⟨mk acc, tokens⟩ c = some ⟨mk (acc ++ [c]), tokens⟩)
    {s : List ℕ} (hs : ∀ c ∈ s, p c = true) (acc : List ℕ) :
    Reader.run references ⟨mk acc, tokens⟩ s = some ⟨mk (acc ++ s), tokens⟩ := by
  induction s generalizing acc with
  | nil => rw [List.append_nil]; rfl
  | cons c s ih =>
    obtain ⟨hc, hs⟩ := List.forall_mem_cons.1 hs
    rw [run_cons, h acc c hc, Option.bind_some, ih hs, List.append_assoc]
    rfl

/-- A character of a reference has no meaning besides. -/
theorem ne_of_isReference {c : ℕ} (h : isReference c = true) :
    c ≠ semicolon ∧ c ≠ space ∧ c ≠ greater ∧ c ≠ equals := by
  simp only [isReference, isName, Bool.or_eq_true, Bool.and_eq_true, decide_eq_true_eq] at h
  unfold semicolon space greater equals
  omega

/-- A small letter is a character of a name, and no slash. -/
theorem isName_of_isLetter {c : ℕ} (h : isLetter c = true) : isName c = true ∧ c ≠ slash := by
  have hbounds := h
  simp only [isLetter, Bool.and_eq_true, decide_eq_true_eq] at hbounds
  unfold slash
  exact ⟨by rw [isName, ← isLetter, h, Bool.true_or, Bool.true_or], by omega⟩

theorem isReference_of_isName {c : ℕ} (h : isName c = true) : isReference c = true := by
  rw [isReference, h, Bool.true_or]

/-- **A text between tags is read.** -/
theorem run_data {v s : List ℕ} (h : Spelled references v s) (tokens : List Token) :
    Reader.run references ⟨.data, tokens⟩ s = some ⟨.data, tokens ++ v.map .char⟩ := by
  induction h generalizing tokens with
  | nil => rw [List.map_nil, List.append_nil]; rfl
  | plain hquote hampersand hless _ ih =>
    rw [run_cons]
    simp only [Reader.step]
    rw [if_neg hless, if_neg hampersand, Option.bind_some, ih, List.map_cons, List.append_assoc]
    rfl
  | @reference c ref v s hchars href _ ih =>
    have hcollect : Reader.run references ⟨.reference [], tokens⟩ ref = some ⟨.reference ref, tokens⟩ :=
      run_collect (fun acc c hc ↦ by
        simp only [Reader.step]
        rw [if_neg (ne_of_isReference hc).1, if_pos hc]) hchars []
    have hopen : Reader.step references ⟨.data, tokens⟩ ampersand = some ⟨.reference [], tokens⟩ := rfl
    have hdone : Reader.step references ⟨.reference ref, tokens⟩ semicolon = some ⟨.data, tokens ++ [.char c]⟩ := by
      simp only [Reader.step]
      rw [if_pos trivial, href]
      rfl
    rw [List.cons_append, run_cons, hopen, Option.bind_some, run_append, hcollect, Option.bind_some, run_cons, hdone,
      Option.bind_some, ih, List.map_cons, List.append_assoc]
    rfl

/-- **A value between quotes is read.** -/
theorem run_value {v s : List ℕ} (h : Spelled references v s) (tag : List ℕ) (attributes : List Attribute)
    (name value : List ℕ) (tokens : List Token) :
    Reader.run references ⟨.value tag attributes name value, tokens⟩ s =
      some ⟨.value tag attributes name (value ++ v), tokens⟩ := by
  induction h generalizing value with
  | nil => rw [List.append_nil]; rfl
  | plain hquote hampersand hless _ ih =>
    rw [run_cons]
    simp only [Reader.step]
    rw [if_neg hquote, if_neg hampersand, Option.bind_some, ih, List.append_assoc]
    rfl
  | @reference c ref v s hchars href _ ih =>
    have hcollect : Reader.run references ⟨.valueReference tag attributes name value [], tokens⟩ ref =
        some ⟨.valueReference tag attributes name value ref, tokens⟩ :=
      run_collect (fun acc c hc ↦ by
        simp only [Reader.step]
        rw [if_neg (ne_of_isReference hc).1, if_pos hc]) hchars []
    have hopen : Reader.step references ⟨.value tag attributes name value, tokens⟩ ampersand =
        some ⟨.valueReference tag attributes name value [], tokens⟩ := rfl
    have hdone : Reader.step references ⟨.valueReference tag attributes name value ref, tokens⟩ semicolon =
        some ⟨.value tag attributes name (value ++ [c]), tokens⟩ := by
      simp only [Reader.step]
      rw [if_pos trivial, href]
      rfl
    rw [List.cons_append, run_cons, hopen, Option.bind_some, run_append, hcollect, Option.bind_some, run_cons, hdone,
      Option.bind_some, ih, List.append_assoc]
    rfl

/-- The reader is at the end of a tag, or before another attribute. -/
structure Reader.AtEnd (references : List ℕ → Option ℕ) (r : Reader) (tag : List ℕ) (attributes : List Attribute)
    (tokens : List Token) : Prop where
  more : r.step references space = some ⟨.beforeName tag attributes, tokens⟩
  close : r.step references greater = some ⟨.data, tokens ++ [.start tag attributes]⟩

/-- A name, after which the reader is at its end. -/
theorem run_named {state : State} {mk : List ℕ → State} {tokens : List Token}
    (hfirst : ∀ c, isLetter c = true → Reader.step references ⟨state, tokens⟩ c = some ⟨mk [c], tokens⟩)
    (hmore : ∀ acc c, isName c = true → Reader.step references ⟨mk acc, tokens⟩ c = some ⟨mk (acc ++ [c]), tokens⟩)
    {name : List ℕ} (hname : IsNamed name) :
    Reader.run references ⟨state, tokens⟩ name = some ⟨mk name, tokens⟩ := by
  obtain ⟨c, rest, rfl, hc, hrest⟩ := hname
  rw [run_cons, hfirst c hc, Option.bind_some, run_collect hmore hrest]
  rfl

/-- **Attributes are read.** -/
theorem run_attributes {attributes : List Attribute} {a : List ℕ} (h : Attributes references attributes a) {r : Reader}
    {tag : List ℕ} {before : List Attribute} {tokens : List Token} (hr : r.AtEnd references tag before tokens) :
    ∃ r', r.run references a = some r' ∧ r'.AtEnd references tag (before ++ attributes) tokens := by
  induction h generalizing r before with
  | nil => exact ⟨r, rfl, by rwa [List.append_nil]⟩
  | @cons name v s w attributes hname hvalue _ ih =>
    have hnamed : Reader.run references ⟨.beforeName tag before, tokens⟩ name =
        some ⟨.name tag before name, tokens⟩ :=
      run_named (fun c hc ↦ by
        simp only [Reader.step]
        rw [if_pos hc]) (fun acc c hc ↦ by
        simp only [Reader.step]
        rw [if_neg (ne_of_isReference (isReference_of_isName hc)).2.2.2, if_pos hc]) hname
    have hequals : Reader.step references ⟨.name tag before name, tokens⟩ equals =
        some ⟨.afterEquals tag before name, tokens⟩ := rfl
    have hopen : Reader.step references ⟨.afterEquals tag before name, tokens⟩ quote =
        some ⟨.value tag before name [], tokens⟩ := rfl
    have hclose : Reader.step references ⟨.value tag before name v, tokens⟩ quote =
        some ⟨.afterValue tag (before ++ [(name, v)]), tokens⟩ := rfl
    have hend : (⟨.afterValue tag (before ++ [(name, v)]), tokens⟩ : Reader).AtEnd references tag
        (before ++ [(name, v)]) tokens := ⟨rfl, rfl⟩
    obtain ⟨r', hrun, hat⟩ := ih hend
    refine ⟨r', ?_, by rwa [List.append_assoc] at hat⟩
    rw [List.cons_append, List.cons_append, List.append_assoc, List.cons_append, List.cons_append, run_cons, hr.more,
      Option.bind_some, run_append, hnamed, Option.bind_some, run_cons, hequals, Option.bind_some, run_cons, hopen,
      Option.bind_some, run_append, run_value hvalue, Option.bind_some, List.nil_append, run_cons, hclose,
      Option.bind_some, hrun]

/-- **Tokens are read.** -/
theorem run_written {tokens : List Token} {w : List ℕ} (h : Written references tokens w) (before : List Token) :
    Reader.run references ⟨.data, before⟩ w = some ⟨.data, before ++ tokens⟩ := by
  have hless (before : List Token) : Reader.step references ⟨.data, before⟩ less = some ⟨.tagOpen, before⟩ := rfl
  induction h generalizing before with
  | nil => rw [List.append_nil]; rfl
  | text htext _ ih =>
    rw [run_append, run_data htext, Option.bind_some, ih, List.append_assoc]
  | @start name a w attributes tokens hname hattributes _ ih =>
    have hnamed : Reader.run references ⟨.tagOpen, before⟩ name = some ⟨.tagName name, before⟩ :=
      run_named (fun c hc ↦ by
        simp only [Reader.step]
        rw [if_neg (isName_of_isLetter hc).2, if_pos hc]) (fun acc c hc ↦ by
        obtain ⟨-, hspace, hgreater, -⟩ := ne_of_isReference (isReference_of_isName hc)
        simp only [Reader.step]
        rw [if_neg hspace, if_neg hgreater, if_pos hc]) hname
    have hat : (⟨.tagName name, before⟩ : Reader).AtEnd references name [] before := ⟨rfl, rfl⟩
    obtain ⟨r', hrun, hend⟩ := run_attributes hattributes hat
    rw [List.append_assoc, List.cons_append, run_cons, hless before, Option.bind_some, run_append, hnamed,
      Option.bind_some, run_append, hrun, Option.bind_some, run_cons, hend.close, Option.bind_some, ih,
      List.append_assoc]
    rfl
  | @close name w tokens hname _ ih =>
    have hslash : Reader.step references ⟨.tagOpen, before⟩ slash = some ⟨.endName [], before⟩ := rfl
    have hnamed : Reader.run references ⟨.endName [], before⟩ name = some ⟨.endName name, before⟩ := by
      obtain ⟨c, rest, rfl, hc, hrest⟩ := hname
      have hall : ∀ d ∈ c :: rest, isName d = true := List.forall_mem_cons.2 ⟨(isName_of_isLetter hc).1, hrest⟩
      exact run_collect (fun acc c hc ↦ by
        simp only [Reader.step]
        rw [if_neg (ne_of_isReference (isReference_of_isName hc)).2.2.1, if_pos hc]) hall []
    have hclose : Reader.step references ⟨.endName name, before⟩ greater = some ⟨.data, before ++ [.close name]⟩ := rfl
    rw [List.cons_append, List.cons_append, run_cons, hless before, Option.bind_some,
      run_cons, hslash, Option.bind_some, run_append, hnamed, Option.bind_some, run_cons, hclose, Option.bind_some,
      ih, List.append_assoc]
    rfl

/-- **What is written is read back.** -/
theorem read_of_written {tokens : List Token} {w : List ℕ} (h : Written references tokens w) :
    read references w = some tokens := by
  rw [read, Reader.init, run_written h, Option.bind_some, if_pos rfl, List.nil_append]

end

end Markup
