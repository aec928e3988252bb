import LocalGateway.Python.Encode
import LocalGateway.Stream.Provider

/-!
# What the gateway rewrites

A reply is passed on as it came, but for two rewrites. Reasoning fields are copied so that a client
finds them under either name (`reasoning.py`), and where a backend has no price for cached input the
usage object counts all input as cached (`_shift_usage_obj`).

Both work on decoded JSON, and neither checks all it assumes of it: `none` is an exception that
leaves the function, such as the `TypeError` of a sum with a string, or the `ValueError` of a sum with too
many digits.
-/

namespace LocalGateway

open Py Json

/-- The operations on numbers that round or may fail. -/
structure Arith extends Floats where
  /-- `float(n)`; `none` is the `OverflowError`. -/
  ofInt : ℤ → Option PyFloat

/-! ### Reasoning fields -/

/-- `_REASONING_KEYS`. -/
def reasoningKeys : List PyStr :=
  [py "reasoning_content", py "reasoning", py "thinking"]

/-- What a thinking block adds to the parts. -/
def thinkingPart : Json → Option Json
  | .obj block =>
    let type := (get? block (py "type")).getD .null
    if type = .null ∨ type = .str (py "thinking") ∨ type = .str (py "text") then
      (orValue (get? block (py "thinking")) (get? block (py "text"))).filter truthy
    else none
  | .str s => some (.str s)
  | _ => none

/-- `"".join(parts)`. -/
def joinParts : List Json → Option PyStr
  | [] => some []
  | .str s :: parts => (joinParts parts).map (s ++ ·)
  | _ :: _ => none

/-- The text of a reasoning field. -/
def reasoningText : Json → Option PyStr
  | .str s => some s
  | .arr blocks => joinParts (blocks.filterMap thinkingPart)
  | _ => some []

/-- The first text that the fields with these keys have. -/
def findReasoning (delta : PyDict) : List PyStr → Option PyStr
  | [] => some []
  | key :: keys =>
    match get? delta key with
    | none => findReasoning delta keys
    | some v =>
      match reasoningText v with
      | none => none
      | some [] => findReasoning delta keys
      | some value => some value

/-- `if not delta.get(target): delta[target] = value`. -/
def fillField (value : PyStr) (delta : PyDict) (target : PyStr) : PyDict :=
  if (get? delta target).any truthy then delta else setKey delta target (.str value)

/-- `normalize_delta`: the dictionary after it, and whether it was modified. -/
def normalizeDelta (delta : PyDict) : Option (PyDict × Bool) :=
  match findReasoning delta reasoningKeys with
  | none => none
  | some [] => some (delta, false)
  | some value =>
    let targets := [py "reasoning_content", py "reasoning"]
    some (targets.foldl (fillField value) delta,
      targets.any fun target ↦ !(get? delta target).any truthy)

/-- `normalize_delta(choice.get(field))`. -/
def normalizeField (choice : PyDict) (field : PyStr) : Option (PyDict × Bool) :=
  match get? choice field with
  | some (.obj delta) => (normalizeDelta delta).map fun r ↦ (setKey choice field (.obj r.1), r.2)
  | _ => some (choice, false)

/-- The loop over the choices. -/
def normalizeChoices : List Json → Option (List Json × Bool)
  | [] => some ([], false)
  | .obj choice :: choices => do
    let r ← normalizeField choice (py "delta")
    let s ← normalizeField r.1 (py "message")
    let rest ← normalizeChoices choices
    pure (.obj s.1 :: rest.1, r.2 || s.2 || rest.2)
  | choice :: choices => (normalizeChoices choices).map fun rest ↦ (choice :: rest.1, rest.2)

/-- `_normalize_obj`. -/
def normalizeObj (d : PyDict) : Option (PyDict × Bool) := do
  let r ← match get? d (py "choices") with
    | some (.arr choices) =>
      (normalizeChoices choices).map fun r ↦ (setKey d (py "choices") (.arr r.1), r.2)
    | _ => some (d, false)
  let s ← normalizeDelta r.1
  pure (s.1, r.2 || s.2)

/-- The text may hold a reasoning field. -/
def mentionsReasoning (text : PyStr) : Bool :=
  contains text (py "reasoning") || contains text (py "thinking")

section Rewrites

variable (loads : Decoder) (r : FloatRepr)

/-- `normalize_response_body`. -/
def normalizeResponseBody (body : PyBytes) : Option PyBytes :=
  if !mentionsReasoning (body.map UInt8.toNat) then some body
  else
    match loads.body body with
    | some (.obj d) =>
      match normalizeObj d with
      | none => none
      | some (d, true) => utf8Encode (dumps false r (.obj d))
      | some (_, false) => some body
    | _ => some body

/-- The wire text of an event that decodes to an object, or its own one. -/
def renderNormalized (ev : SSEEvent) : Option PyBytes :=
  match loads.text ev.data with
  | some (.obj d) =>
    match normalizeObj d with
    | none => none
    | some (d, true) => utf8Encode (py "data: " ++ dumps false r (.obj d) ++ py "\n\n")
    | some (_, false) => some (renderEvent ev)
  | _ => some (renderEvent ev)

/-- One event of `transform_stream_chunk`. -/
def transformEvent (ev : SSEEvent) : Option PyBytes :=
  if ev.done || !mentionsReasoning ev.data then some (renderEvent ev)
  else renderNormalized loads r ev

/-- `transform_stream_chunk`. -/
def transformStreamChunk (parser : SSEParser) (chunk : PyBytes) : Option (PyBytes × SSEParser) :=
  ((parser.feed chunk).1.mapM (transformEvent loads r)).map fun out ↦
    (out.flatten, (parser.feed chunk).2)

/-- `flush_stream_chunk`. -/
def flushStreamChunk (parser : SSEParser) : Option PyBytes :=
  match parser.flush.1 with
  | none => some []
  | some ev => if ev.done then some (renderEvent ev) else renderNormalized loads r ev

/-! ### Usage shifted to the cache -/

variable (fl : Arith)

/-- `(v or 0) + n`, if `json.dumps` writes it. -/
def addCount (v : Option Json) (n : ℤ) : Option Json :=
  match v.filter truthy with
  | none => some (.int n)
  | some (.int m) => if Printable (m + n) then some (.int (m + n)) else none
  | some (.bool _) => if Printable (1 + n) then some (.int (1 + n)) else none
  | some (.float x) => (fl.ofInt n).map fun y ↦ .float (fl.add x y)
  | some _ => none

/-- `_shift_usage_obj`: the object after it, if a shift is needed. -/
def shiftUsageObj (d : PyDict) : Option (Option PyDict) :=
  match dictAt d (py "usage") with
  | none => some none
  | some usage =>
    match countOf (get? usage (py "prompt_tokens")) with
    -- without input tokens there is nothing to shift
    | none | some 0 => some none
    | some pt => do
      let details := (dictAt usage (py "prompt_tokens_details")).getD []
      let cached ← addCount fl (get? details (py "cached_tokens")) pt
      let read ← addCount fl (get? usage (py "cache_read_input_tokens")) pt
      let usage := setKey usage (py "prompt_tokens") (.int 0)
      let usage := setKey usage (py "prompt_tokens_details")
        (.obj (setKey details (py "cached_tokens") cached))
      let usage := setKey usage (py "cache_read_input_tokens") read
      pure (some (setKey d (py "usage") (.obj usage)))

/-- `_shift_usage_to_cached`. Any JSON but an object has no `get`. -/
def shiftUsageToCached (body : PyBytes) : Option PyBytes :=
  match loads.body body with
  | none => some body
  | some (.obj d) =>
    match shiftUsageObj fl d with
    | none => none
    | some none => some body
    | some (some d) => utf8Encode (dumps true r (.obj d))
  | some _ => none

/-- One line of `_shift_stream_usage_to_cached`, and whether it changed. -/
def shiftLine (line : PyStr) : Option (PyStr × Bool) :=
  if !startsWith line (py "data: ") || isDone (line.drop 6) then some (line, false)
  else
    match loads.text (line.drop 6) with
    | some (.obj d) =>
      match shiftUsageObj fl d with
      | none => none
      | some none => some (line, false)
      | some (some d) => some (py "data: " ++ dumps true r (.obj d), true)
    | _ => some (line, false)

/-- `_shift_stream_usage_to_cached`. -/
def shiftStreamUsageToCached (chunk : PyBytes) : Option PyBytes :=
  match utf8DecodeStrict chunk with
  | none => some chunk
  | some text =>
    if !contains text (py "\"usage\"") then some chunk
    else
      match (text.splitOn 10).mapM (shiftLine loads r fl) with
      | none => none
      | some lines =>
        if lines.any Prod.snd then utf8Encode (joinLines (lines.map Prod.fst) ++ [10])
        else some chunk

end Rewrites

end LocalGateway
