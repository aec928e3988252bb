import LocalGateway.Python.Encode
import LocalGateway.Routing.Candidates

/-!
# Token counts and limits

What the gateway reads off the body of a request before it routes it: the estimate of its input
(`tokenizer.py`) and the output limit that it asks for (`_requested_max_tokens`).

The encoder is a parameter: `encode` has no value where none is installed and where it raises, which
comes to the same, a quarter of the length of the text.
-/

namespace LocalGateway

open Py Json

/-! ### Counting -/

section Count

variable (encode : PyStr → Option ℕ) (mode : PyStr)

/-- `count_text`. -/
def countText (text : PyStr) : ℕ :=
  if text = [] then 0
  else
    let heuristic := max 1 (text.length / 4)
    if mode = py "heuristic" then heuristic else (encode text).getD heuristic

/-- The text of a part of a message. -/
def partText : Json → Option PyStr
  | .obj part =>
    match get? part (py "text") with
    | some (.str s) => some s
    | _ => none
  | _ => none

/-- `_message_text`. -/
def messageText (msg : PyDict) : PyStr :=
  match (get? msg (py "content")).getD (.str []) with
  | .str s => s
  | .arr parts => joinLines (parts.filterMap partText)
  | _ => []

/-- What a message adds to the count: its text, its frame, and its name. -/
def messageTokens : Json → ℕ
  | .obj msg =>
    if messageText msg = [] then 0
    else countText encode mode (messageText msg) + 4 +
      if ((get? msg (py "name")).getD .null).truthy then 1 else 0
  | _ => 0

/-- `total or None`. -/
def orNone (total : ℕ) : Option ℕ :=
  if total = 0 then none else some total

/-- `count_messages`. -/
def countMessages : Option Json → Option ℕ
  | some (.arr messages) => orNone (messages.map (messageTokens encode mode)).sum
  | _ => none

/-- What an item of the input adds to the count: the tokens of a text, or tokens. -/
def inputTokensOf : Json → ℕ
  | .str s => countText encode mode s
  | .arr tokens => tokens.length
  | _ => 0

/-- `count_embedding_input`. -/
def countEmbeddingInput : Option Json → Option ℕ
  | some (.str s) => if s = [] then none else some (countText encode mode s)
  | some (.arr items) => orNone (items.map (inputTokensOf encode mode)).sum
  | _ => none

end Count

/-- `server.tokenizer`, or its default. -/
def GatewayConfig.tokenizer (c : GatewayConfig) : PyStr :=
  let mode := attrStr c.server.attrs.fields (py "tokenizer")
  if mode = [] then py "auto" else mode

/-! ### `int` -/

/-- The digits of a number, with single underscores between them; `digits` says whether a digit was
the last. -/
def parseDigits (decimal : ℕ → Option ℕ) : Bool → ℕ → PyStr → Option ℕ
  | digits, n, [] => if digits then some n else none
  | digits, n, c :: s =>
    if c = 95 then (if digits then parseDigits decimal false n s else none)
    else
      match decimal c with
      | some d => parseDigits decimal true (10 * n + d) s
      | none => none

/-- `int(text)`, which raises a `ValueError` where there is no value. -/
def parseInt (decimal : ℕ → Option ℕ) (text : PyStr) : Option ℤ :=
  let number (s : PyStr) : Option ℕ :=
    if maxStrDigits < (s.filter fun c ↦ (decimal c).isSome).length then none
    else parseDigits decimal false 0 s
  match strip text with
  | 45 :: s => (number s).map fun n ↦ -(n : ℤ)
  | 43 :: s => (number s).map fun n ↦ (n : ℤ)
  | s => (number s).map fun n ↦ (n : ℤ)

/-- What `int(v)` does in a `try` that catches `TypeError` and `ValueError`. -/
inductive IntOf
  | value (n : ℤ)
  | caught
  /-- `OverflowError`, of an infinite float. -/
  | raised
deriving DecidableEq

/-- `int(v)`. -/
def intOf (decimal : ℕ → Option ℕ) : Json → IntOf
  | .bool b => .value (if b then 1 else 0)
  | .int n => .value n
  | .float (.fin q) => .value (q.num.tdiv q.den)
  | .float .negZero => .value 0
  | .float (.inf _) => .raised
  | .float .nan => .caught
  | .str s => (parseInt decimal s).elim .caught .value
  | _ => .caught

/-- The first of the fields that is there and is not `None`. -/
def firstPresent (body : PyDict) : List PyStr → Option Json
  | [] => none
  | field :: fields =>
    match get? body field with
    | none | some .null => firstPresent body fields
    | some v => some v

/-- `_requested_max_tokens`; the outer `none` is an exception. -/
def requestedMaxTokens (decimal : ℕ → Option ℕ) (body : PyDict) : Option (Option ℤ) :=
  match firstPresent body [py "max_completion_tokens", py "max_tokens", py "max_output_tokens"] with
  | none => some none
  | some v =>
    match intOf decimal v with
    | .value n => some (some n)
    | .caught => some none
    | .raised => none

/-- The digits of ASCII. -/
def asciiDecimal (c : ℕ) : Option ℕ :=
  if isDigit c then some (c - 48) else none

example : parseInt asciiDecimal (py " -1_024 ") = some (-1024) := by decide

/-! ### What the counts come to -/

section Lemmas

variable {encode : PyStr → Option ℕ} {mode : PyStr}

theorem orNone_eq_some_iff {total n : ℕ} : orNone total = some n ↔ total = n ∧ 0 < n := by
  unfold orNone
  split_ifs with h
  · exact iff_of_false nofun (by omega)
  · rw [Option.some.injEq]
    exact ⟨fun heq ↦ ⟨heq, by omega⟩, fun heq ↦ heq.1⟩

/-- An estimate is positive. -/
theorem countMessages_pos {v : Option Json} {n : ℕ} (h : countMessages encode mode v = some n) :
    0 < n := by
  unfold countMessages at h
  split at h
  · exact (orNone_eq_some_iff.1 h).2
  · cases h

/-- The messages have an estimate exactly if one of them has text. -/
theorem countMessages_isSome_iff {messages : List Json} :
    (countMessages encode mode (some (.arr messages))).isSome ↔
      ∃ msg, Json.obj msg ∈ messages ∧ messageText msg ≠ [] := by
  have htokens : ∀ v, 0 < messageTokens encode mode v ↔ ∃ msg, v = .obj msg ∧ messageText msg ≠ [] := by
    intro v
    cases v with
    | obj msg =>
      rw [messageTokens]
      split_ifs with h
      · simp [h]
      · simp [h]
      · simp [h]
    | _ => simp [messageTokens]
  have hsome : (countMessages encode mode (some (.arr messages))).isSome ↔
      0 < (messages.map (messageTokens encode mode)).sum := by
    rw [countMessages, orNone]
    split_ifs with h
    · simp [h]
    · simp [Nat.pos_of_ne_zero h]
  rw [hsome, List.sum_pos_iff_exists_pos_nat]
  constructor
  · rintro ⟨n, hn, hpos⟩
    obtain ⟨v, hv, rfl⟩ := List.mem_map.1 hn
    obtain ⟨msg, rfl, htext⟩ := (htokens v).1 hpos
    exact ⟨msg, hv, htext⟩
  · rintro ⟨msg, hmem, htext⟩
    exact ⟨_, List.mem_map_of_mem hmem, (htokens (.obj msg)).2 ⟨msg, rfl, htext⟩⟩

end Lemmas

end LocalGateway
