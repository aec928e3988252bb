import LocalGateway.Stream.Usage

/-!
# Calls of a provider

`call_provider` and `call_provider_stream`, as functions of what the provider does: the status, the
bytes and the chunks it sends, and the exceptions of the HTTP client, each with its text.

* `callProviderStream_shape`: a stream is a run of chunks with one event at its end.
* `usage_of_done`: the usage of a stream that is over, in terms of the events of its bytes.
-/

namespace LocalGateway

open Py Json

/-- `RETRYABLE_STATUS`. -/
def retryableStatus : List ℕ :=
  [429, 500, 502, 503, 504]

/-! ### One reply -/

/-- What comes back for a request: a response, whose body `text` is as the HTTP client decodes it,
or an exception. -/
inductive ProviderReply
  | response (status : ℕ) (body : PyBytes) (text : PyStr)
  | failed (error : PyStr)

/-- `ProviderResult`, without the headers and the latency. -/
structure ProviderResult where
  success : Bool
  statusCode : ℕ
  body : PyBytes
  error : Option PyStr
  usage : StreamUsage
  retryable : Bool

/-- `call_provider`. -/
def callProvider (loads : Decoder) : ProviderReply → ProviderResult
  | .response status body text =>
    if status ≠ 200 then
      ⟨false, status, [], some (if text = [] then py "HTTP " ++ natRepr status else text.take 500),
        .none, retryableStatus.contains status⟩
    else ⟨true, 200, body, none, extractUsage loads body, false⟩
  | .failed error => ⟨false, 0, [], some (error.take 500), .none, true⟩

/-! ### A stream -/

/-- `StreamChunk`, `StreamDone` and `StreamFailed`, without the times. -/
inductive StreamEvent
  | chunk (data : PyBytes)
  | done (usage : StreamUsage) (sentDone : Bool)
  | failed (error : PyStr) (statusCode : ℕ) (retryable midStream : Bool)

/-- How the chunks of a response end: with the response, or with an exception, which the idle timeout
is one of. -/
inductive StreamEnd
  | eof
  | broken (error : PyStr)

/-- What a provider does with a request for a stream: it answers with another status than 200, or it
sends chunks. Without a response there are none, and an exception. -/
inductive Upstream
  | refused (status : ℕ) (body : PyBytes)
  | streamed (chunks : List PyBytes) (ending : StreamEnd)

/-- `render_event`. The text of an event without its wire text was decoded, so it can be encoded. -/
def renderEvent (ev : SSEEvent) : PyBytes :=
  match ev.raw with
  | some raw => raw
  | none =>
    if ev.done then pyb "data: [DONE]\n\n"
    else (utf8Encode (((ev.data.splitOn 10).flatMap fun line ↦ py "data: " ++ line ++ [10]) ++
      [10])).getD []

section Stream

variable (loads : Decoder)

/-- The loop over the chunks, and what follows it; `first` says whether there was one. -/
def streamEvents (acc : StreamAccumulator) (first : Bool) : List PyBytes → StreamEnd → List StreamEvent
  | [], .broken error => [.failed (error.take 500) 0 true first]
  | [], .eof =>
    match acc.finish loads with
    | .error error => [.failed (error.take 500) 0 true first]
    | .ok (ev, acc) =>
      (ev.toList.map fun ev ↦ .chunk (renderEvent ev)) ++ [.done acc.finalUsage acc.sawDone]
  | chunk :: chunks, ending =>
    if chunk = [] then streamEvents acc first chunks ending
    else
      match acc.feed loads chunk with
      -- the chunk at which the accumulator raises is not passed on
      | .error error => [.failed (error.take 500) 0 true true]
      | .ok acc => .chunk chunk :: streamEvents acc true chunks ending

/-- `call_provider_stream`. -/
def callProviderStream : Upstream → List StreamEvent
  | .refused status body =>
    [.failed ((utf8Decode body).take 500) status (retryableStatus.contains status) false]
  | .streamed chunks ending => streamEvents loads .init false chunks ending

/-! ### The shape of a stream -/

/-- The event ends the stream. -/
def StreamEvent.Ends : StreamEvent → Prop
  | .chunk _ => False
  | _ => True

theorem streamEvents_shape (acc : StreamAccumulator) (first : Bool) (chunks : List PyBytes)
    (ending : StreamEnd) : ∃ (cs : List PyBytes) (ev : StreamEvent), ev.Ends ∧
      streamEvents loads acc first chunks ending = cs.map .chunk ++ [ev] := by
  induction chunks generalizing acc first with
  | nil =>
    rcases ending with - | error
    · rw [streamEvents]
      rcases acc.finish loads with error | ⟨ev, acc⟩
      · exact ⟨[], .failed .., trivial, rfl⟩
      · exact ⟨ev.toList.map renderEvent, .done .., trivial, by rw [List.map_map]; rfl⟩
    · exact ⟨[], .failed .., trivial, rfl⟩
  | cons chunk chunks ih =>
    rw [streamEvents]
    split_ifs
    · exact ih acc first
    · rcases acc.feed loads chunk with error | acc
      · exact ⟨[], .failed .., trivial, rfl⟩
      · obtain ⟨cs, ev, hev, heq⟩ := ih acc true
        exact ⟨chunk :: cs, ev, hev, congrArg (StreamEvent.chunk chunk :: ·) heq⟩

/-- **A stream is a run of chunks with one event at its end.** -/
theorem callProviderStream_shape (up : Upstream) : ∃ (cs : List PyBytes) (ev : StreamEvent),
    ev.Ends ∧ callProviderStream loads up = cs.map .chunk ++ [ev] := by
  cases up with
  | refused status body => exact ⟨[], .failed .., trivial, rfl⟩
  | streamed chunks ending => exact streamEvents_shape loads .init false chunks ending

/-! ### The usage at the end -/

/-- The usage of a stream: each count as it was last reported, and without a count of the output the
estimate from the length of the text. -/
def reportedUsage (evs : List SSEEvent) (length : ℕ) : StreamUsage where
  inputTokens := lastReport (fun ev ↦ (eventUsage loads ev).bind StreamUsage.inputTokens) evs
  outputTokens := (lastReport (fun ev ↦ (eventUsage loads ev).bind StreamUsage.outputTokens) evs).or
    (if length = 0 then none else some (estimateTokens length))
  reasoningTokens := lastReport (fun ev ↦ (eventUsage loads ev).bind StreamUsage.reasoningTokens) evs
  cachedTokens := lastReport (fun ev ↦ (eventUsage loads ev).bind StreamUsage.cachedTokens) evs
  cacheWriteTokens :=
    lastReport (fun ev ↦ (eventUsage loads ev).bind StreamUsage.cacheWriteTokens) evs

theorem feed_nil (p : SSEParser) : p.feed [] = ([], p) := by
  obtain ⟨buf, hcr, hblank⟩ := p
  simp [SSEParser.feed, SSEParser.extend, Lines.drain_of_none 10 hblank]

/-- What an accumulator that has seen the events makes of them in the end. -/
theorem finalUsage_of_after {evs : List SSEEvent} {q : SSEParser} {acc : StreamAccumulator}
    (h : StreamAccumulator.init.after loads q evs = .ok acc) :
    ∃ lengths, evs.mapM (eventLength loads) = .ok lengths ∧
      acc.finalUsage = reportedUsage loads evs lengths.sum := by
  simp only [StreamAccumulator.after, bind, Except.bind, pure, Except.pure] at h
  split at h
  · cases h
  · next lengths hlengths =>
    obtain rfl := Except.ok.inj h
    refine ⟨lengths, hlengths, ?_⟩
    have hcount : ∀ g : StreamUsage → Option ℤ, (∀ a b, g (mergeUsage a b) = (g b).or (g a)) →
        g .none = none → g (evs.foldl (fun u ev ↦ mergeUsage u ((eventUsage loads ev).getD .none))
          .none) = lastReport (fun ev ↦ (eventUsage loads ev).bind g) evs := by
      intro g hmerge hnone
      rw [foldl_mergeUsage loads hmerge hnone, hnone, Option.or_none]
    have hinput := hcount StreamUsage.inputTokens (fun _ _ ↦ rfl) rfl
    have houtput := hcount StreamUsage.outputTokens (fun _ _ ↦ rfl) rfl
    have hreasoning := hcount StreamUsage.reasoningTokens (fun _ _ ↦ rfl) rfl
    have hcached := hcount StreamUsage.cachedTokens (fun _ _ ↦ rfl) rfl
    have hwrite := hcount StreamUsage.cacheWriteTokens (fun _ _ ↦ rfl) rfl
    rw [StreamAccumulator.finalUsage_eq, reportedUsage, ← hinput, ← houtput, ← hreasoning, ← hcached,
      ← hwrite]
    simp [StreamAccumulator.init, StreamAccumulator.estimatedOutputTokens]

/-- Empty chunks make no difference. -/
theorem done_mem {acc : StreamAccumulator} {first : Bool} {chunks : List PyBytes}
    {ending : StreamEnd} {u : StreamUsage} {sent : Bool}
    (h : .done u sent ∈ streamEvents loads acc first chunks ending) :
    ∃ acc₁ ev acc₂, chunks.foldlM (StreamAccumulator.feed loads) acc = .ok acc₁ ∧
      acc₁.finish loads = .ok (ev, acc₂) ∧ u = acc₂.finalUsage ∧ sent = acc₂.sawDone := by
  induction chunks generalizing acc first with
  | nil =>
    rcases ending with - | error
    · rw [streamEvents] at h
      rcases hfinish : acc.finish loads with error | ⟨ev, acc₂⟩
      · simp [hfinish] at h
      · rw [hfinish] at h
        simp only [List.mem_append, List.mem_map, reduceCtorEq, and_false, exists_false,
          List.mem_singleton, StreamEvent.done.injEq, false_or] at h
        exact ⟨acc, ev, acc₂, rfl, hfinish, h⟩
    · simp [streamEvents] at h
  | cons chunk chunks ih =>
    rw [streamEvents] at h
    rw [List.foldlM_cons]
    split_ifs at h with hchunk
    · obtain ⟨acc₁, ev, acc₂, hfold, hrest⟩ := ih h
      have hfeed : acc.feed loads chunk = .ok acc := by
        rw [hchunk, StreamAccumulator.feed, feed_nil]
        rfl
      exact ⟨acc₁, ev, acc₂, by rw [hfeed]; exact hfold, hrest⟩
    · rcases hfeed : acc.feed loads chunk with error | acc'
      · simp [hfeed] at h
      · rw [hfeed] at h
        exact ih ((List.mem_cons.1 h).resolve_left (by simp))

/-- **The usage of a stream that is over.** -/
theorem usage_of_done {chunks : List PyBytes} {ending : StreamEnd} {u : StreamUsage} {sent : Bool}
    (h : .done u sent ∈ callProviderStream loads (.streamed chunks ending)) :
    ∃ lengths, (SSEParser.parse chunks).mapM (eventLength loads) = .ok lengths ∧
      u = reportedUsage loads (SSEParser.parse chunks) lengths.sum := by
  obtain ⟨acc₁, ev, acc₂, hfold, hfinish, rfl, -⟩ := done_mem loads h
  rw [StreamAccumulator.foldlM_feed, StreamAccumulator.init_parser] at hfold
  rw [StreamAccumulator.finish_eq, StreamAccumulator.parser_of_after loads hfold] at hfinish
  refine finalUsage_of_after loads (q := (SSEParser.feedAll .init chunks).2.flush.2) ?_
  rw [SSEParser.parse, ← StreamAccumulator.after_append loads _ (SSEParser.feedAll .init chunks).2,
    hfold]
  rcases hlast : acc₁.after loads (SSEParser.feedAll .init chunks).2.flush.2
    (SSEParser.feedAll .init chunks).2.flush.1.toList with error | acc <;> rw [hlast] at hfinish
  · cases hfinish
  · cases hfinish
    exact hlast

end Stream

end LocalGateway
