import LocalGateway.Stream.Relay
import LocalGateway.Stream.Rewritten

/-!
# Failures in mid-stream

When the upstream fails after its first chunk, both streaming endpoints tell the client in an event of its own
form. `handle_request_stream` has passed on whole events only and drops what is left of the last one;
`_responses_stream_gen` has passed on the bytes as they came, so that its event follows whatever is left.

* `Service.responsesRelay`: the loop of `_responses_stream_gen`, with what it yields.
* `frames`: the events of a text, each with all its lines, so that a line that is glued to an event is seen.
* `failureVisible_iff`: when a client sees every event that was complete before the failure, and then the
  error, in an event of its own.
-/

namespace LocalGateway

open Py Json

/-! ### The generator of the Responses API -/

namespace Service

variable (sv : Service)

/-- What is yielded after a failure before the first chunk that ends the request. -/
def responsesFailureSteps (committed : Bool) (error : PyStr) (status : ℕ) : List RelayStep :=
  if committed then byteSteps [errorSse sv.repr error (httpCode status)]
  else
    [.item (.error (if error = [] then py "Unknown error" else error) (httpCode status)
      (if status = 0 then 502 else status))]

/-- The loop over the events of a backend in `_responses_stream_gen`. Chunks are passed on as they came. -/
def responsesRelay (a : Attempt Upstream) (b : Books) :
    RelayState → ResponsesUsageTracker → List StreamEvent → AttemptRun
  | s, _, [] => ⟨[], s, b, .next⟩
  | s, t, .chunk data :: evs =>
    let run := responsesRelay a b s.commit (t.feed sv.loads data) evs
    { run with steps := s.commitSteps a.selected ++ byteSteps [data] ++ run.steps }
  | s, t, .done _ _ :: _ =>
    let u := (t.flush sv.loads).usage
    let r := succeed a (sv.countsRow a.entry u.inputTokens u.outputTokens true) b
    if r.2 = .answered then ⟨s.commitSteps a.selected, s.commit, r.1, r.2⟩ else ⟨[], s, r.1, r.2⟩
  | s, _, .failed error status retryable midStream :: _ =>
    -- a failure in mid-stream is not recorded
    if midStream then ⟨byteSteps [errorSse sv.repr error (py "stream_error")], s, b, .answered⟩
    else
      let r := sv.fail a (some error) status true (if retryable then .next else .answered) b
      ⟨if r.2 = .answered then sv.responsesFailureSteps s.committed error status else [],
        { s with errors := s.errors ++ [attemptError a.entry error] }, r.1, r.2⟩

/-- An attempt of `_responses_stream_gen`. -/
def responsesAttempt (s : RelayState) (a : Attempt Upstream) (b : Books) : AttemptRun :=
  sv.responsesRelay a b s .init (callProviderStream sv.loads a.answer)

/-- What is yielded when no backend is left: the last of the errors. -/
def responsesExhaustedSteps (s : RelayState) : List RelayStep :=
  let message := s.errors.getLast?.getD (py "All backends failed")
  if s.committed then byteSteps [errorSse sv.repr message (py "all_backends_failed")]
  else [.item (.error message (py "all_backends_failed") 502)]

/-- `_responses_stream_gen`. -/
def responsesAll : RelayState → List (Attempt Upstream) → Books → StreamRun
  | s, [], b => ⟨(sv.responsesExhaustedSteps s).map (none, ·), b, [], false⟩
  | s, a :: as, b =>
    let run := sv.responsesAttempt s a b
    let steps := run.steps.map (some a.selected, ·)
    match run.ending with
    | .next =>
      let rest := responsesAll run.state as run.books
      ⟨steps ++ rest.steps, rest.books, a :: rest.tried, rest.raised⟩
    | .answered => ⟨steps, run.books, [a], false⟩
    | .raised => ⟨steps, run.books, [a], true⟩

/-- The loop over the events keeps the books, and ends, as it does without the yields. -/
theorem responsesRelay_books (a : Attempt Upstream) (b : Books) (evs : List StreamEvent) (s : RelayState)
    (t : ResponsesUsageTracker) :
    ((sv.responsesRelay a b s t evs).books, (sv.responsesRelay a b s t evs).ending) =
      sv.responsesEvents a b t evs := by
  induction evs generalizing s t with
  | nil => rfl
  | cons ev evs ih =>
    rcases ev with data | ⟨usage, sent⟩ | ⟨error, status, retryable, midStream⟩
    · exact ih _ _
    · rw [responsesRelay, responsesEvents]
      split_ifs <;> rfl
    · rw [responsesRelay, responsesEvents]
      split_ifs <;> rfl

theorem responsesAll_cons_next {s : RelayState} {a : Attempt Upstream} {b : Books}
    (h : (sv.responsesAttempt s a b).ending = .next) (as : List (Attempt Upstream)) :
    sv.responsesAll s (a :: as) b =
      let run := sv.responsesAttempt s a b
      let rest := sv.responsesAll run.state as run.books
      ⟨run.steps.map (some a.selected, ·) ++ rest.steps, rest.books, a :: rest.tried, rest.raised⟩ := by
  simp only [responsesAll, h]

theorem responsesAll_cons_stop {s : RelayState} {a : Attempt Upstream} {b : Books}
    (h : (sv.responsesAttempt s a b).ending ≠ .next) (as : List (Attempt Upstream)) :
    sv.responsesAll s (a :: as) b =
      let run := sv.responsesAttempt s a b
      ⟨run.steps.map (some a.selected, ·), run.books, [a], run.ending = .raised⟩ := by
  rcases hending : (sv.responsesAttempt s a b).ending with - | - | -
  · simp [responsesAll, hending]
  · exact absurd hending h
  · simp [responsesAll, hending]

/-- **The generator keeps the books of the request**, and tries the same backends. -/
theorem responsesAll_books (as : List (Attempt Upstream)) (b : Books) (s : RelayState) :
    ((sv.responsesAll s as b).books, (sv.responsesAll s as b).tried) = sv.responsesStreamGen as b := by
  induction as generalizing b s with
  | nil => rfl
  | cons a as ih =>
    have hattempt : ((sv.responsesAttempt s a b).books, (sv.responsesAttempt s a b).ending) =
        sv.responsesStreamAttempt a b := sv.responsesRelay_books a b _ s .init
    have hending : (sv.responsesStreamAttempt a b).2 = (sv.responsesAttempt s a b).ending :=
      (congrArg Prod.snd hattempt).symm
    by_cases hnext : (sv.responsesAttempt s a b).ending = .next
    · have hrest := ih (sv.responsesAttempt s a b).books (sv.responsesAttempt s a b).state
      rw [responsesAll_cons_next sv hnext, responsesStreamGen]
      refine Eq.trans ?_ (sv.responsesStream.tryAll_cons_next (hending.trans hnext)).symm
      show ((sv.responsesAll _ as _).books, a :: (sv.responsesAll _ as _).tried) =
        ((tryAll sv.responsesStreamAttempt as (sv.responsesStreamAttempt a b).1).1,
          a :: (tryAll sv.responsesStreamAttempt as (sv.responsesStreamAttempt a b).1).2)
      rw [← hattempt]
      exact congrArg (fun r : Books × List (Attempt Upstream) ↦ (r.1, a :: r.2)) hrest
    · have hstop : (sv.responsesStreamAttempt a b).2 ≠ .next := fun h ↦ hnext (hending.symm.trans h)
      rw [responsesAll_cons_stop sv hnext, responsesStreamGen]
      refine Eq.trans ?_ (sv.responsesStream.tryAll_cons_stop hstop).symm
      exact congrArg (·, [a]) (congrArg Prod.fst hattempt)

end Service

/-! ### Frames -/

/-- The events of a text, each with all its lines. -/
def frames (s : PyBytes) : List (List PyBytes) :=
  (Lines.paragraphs (s.splitOn 10)).filter fun p ↦ SSEParser.payloadLines p ≠ []

/-- Those that a blank line has ended. -/
def closedFrames (s : PyBytes) : List (List PyBytes) :=
  (Lines.paragraphs (Lines.closed (s.splitOn 10))).filter fun p ↦ SSEParser.payloadLines p ≠ []

/-- The payload of an event. -/
def frameData (p : List PyBytes) : PyStr :=
  joinLines (SSEParser.payloadLines p)

theorem map_frameData (ps : List (List PyBytes)) :
    (ps.filter fun p ↦ SSEParser.payloadLines p ≠ []).map frameData =
      ((ps.map (·.filterMap SSEParser.lineData)).filter (!·.isEmpty)).map joinLines := by
  rw [List.filter_map, List.map_map]
  refine congrArg₂ List.map rfl (List.filter_congr fun p _ ↦ ?_)
  rcases hp : SSEParser.payloadLines p with - | ⟨d, ds⟩
  · have hnil : p.filterMap SSEParser.lineData = [] := hp
    simp [hnil]
  · have hcons : p.filterMap SSEParser.lineData = d :: ds := hp
    simp [hcons]

theorem map_frameData_frames (s : PyBytes) : (frames s).map frameData = SSEParser.payloads s :=
  map_frameData _

theorem map_frameData_closedFrames (s : PyBytes) :
    (closedFrames s).map frameData = SSEParser.closedPayloads s :=
  map_frameData _

/-- **Texts are read one after the other**, if a blank line ends the first. -/
theorem frames_append {s : PyBytes} (hs : s = [] ∨ ∃ t, s = t ++ [10, 10]) (more : PyBytes) :
    frames (s ++ more) = frames s ++ frames more := by
  rcases hs with rfl | ⟨t, rfl⟩
  · rfl
  · have hsplit : ∀ u : PyBytes, (t ++ [10, 10] ++ u).splitOn 10 = t.splitOn 10 ++ [] :: u.splitOn 10 :=
      fun u ↦ by
        rw [List.append_assoc]
        show (t ++ 10 :: 10 :: u).splitOn 10 = _
        rw [List.splitOn_append_cons_self, Lines.splitOn_cons_self]
    have hblank := hsplit []
    rw [List.append_nil, List.splitOn_nil] at hblank
    unfold frames
    rw [hsplit more, hblank, Lines.paragraphs_append_blank, Lines.paragraphs_append_blank, List.filter_append,
      List.filter_append]
    exact congrArg (· ++ _) (List.append_nil _).symm

/-! ### The error event -/

/-- The line of an error event. -/
def errorLine (r : FloatRepr) (message code : PyStr) : PyBytes :=
  (utf8Encode (py "data: " ++ dumps true r (errorObject message code))).getD []

/-- The line of `[DONE]`. -/
def doneLine : PyBytes :=
  pyb "data: [DONE]"

/-- A line that can be sent as an event: it has neither line ends nor carriage returns, and is a `data:`
line. -/
structure EventLine (l : PyBytes) : Prop where
  no_lf : 10 ∉ l
  no_cr : 13 ∉ l
  data : pyb "data:" <+: l

theorem eventLine_doneLine : EventLine doneLine :=
  ⟨by decide, by decide, by decide⟩

theorem errorSse_eq (r : FloatRepr) (message code : PyStr) :
    errorSse r message code = errorLine r message code ++ [10, 10] ∧ EventLine (errorLine r message code) := by
  have hscalar : ∀ c ∈ py "data: " ++ dumps true r (errorObject message code), IsScalar c := fun c hc ↦ by
    rcases List.mem_append.1 hc with hc | hc
    · exact isScalar_of_ascii (by decide) c hc
    · exact (forall_isScalar_dumps_iff true r _).2 (.inl rfl) c hc
  obtain ⟨line, hline⟩ := Option.isSome_iff_exists.1 (utf8Encode_isSome_iff.2 hscalar)
  have hsse : utf8Encode (py "data: " ++ dumps true r (errorObject message code) ++ py "\n\n") =
      some (line ++ [10, 10]) := by
    rw [utf8Encode_append, hline]
    rfl
  have herror : errorLine r message code = line := by rw [errorLine, hline]; rfl
  rw [errorSse, hsse, herror]
  have hprintable : ∀ c < 32, c ∉ py "data: " ++ dumps true r (errorObject message code) :=
    fun c hc hmem ↦ by
      rcases List.mem_append.1 hmem with hmem | hmem
      · have hspace : ∀ d ∈ py "data: ", 32 ≤ d := by decide
        exact absurd (hspace c hmem) (by omega)
      · exact absurd (dumps_printable true r _ c hmem) (by omega)
  refine ⟨rfl, fun hmem ↦ ?_, fun hmem ↦ ?_, ?_⟩
  · exact hprintable 10 (by decide) ((mem_utf8Encode_iff hline (by decide)).1 hmem)
  · exact hprintable 13 (by decide) ((mem_utf8Encode_iff hline (by decide)).1 hmem)
  · have hdecode := utf8Decode_encode hline
    refine (prefix_utf8Decode_iff (by decide +kernel) line).1 ?_
    rw [hdecode]
    exact List.prefix_append _ (py " " ++ dumps true r (errorObject message code))

/-- A line that is sent as an event is read as one, with what has not ended before it glued on. -/
theorem EventLine.payloadLines_ne_nil {l : PyBytes} (h : EventLine l) (front : List PyBytes) :
    SSEParser.payloadLines (front ++ [l]) ≠ [] := by
  intro hnil
  have hsome := Option.isSome_iff_exists.1 ((SSEParser.isSome_lineData_iff l).2 h.data)
  obtain ⟨d, hd⟩ := hsome
  have hmem : d ∈ SSEParser.payloadLines (front ++ [l]) :=
    List.mem_filterMap.2 ⟨l, List.mem_append_right _ (List.mem_singleton_self l), hd⟩
  rw [hnil] at hmem
  exact absurd hmem List.not_mem_nil

/-- A line that is sent as an event, after a blank line. -/
theorem EventLine.frames {l : PyBytes} (h : EventLine l) : frames (l ++ [10, 10]) = [[l]] := by
  have hne : l ≠ [] := by
    rintro rfl
    exact absurd h.data (by decide)
  have hsplit : (l ++ [10, 10]).splitOn 10 = [l] ++ [] :: [[]] := by
    show (l ++ 10 :: [10]).splitOn 10 = _
    rw [List.splitOn_append_cons_self_of_not_mem h.no_lf]
    rfl
  have hparagraphs : Lines.paragraphs [l] = [[l]] := by
    rw [Lines.paragraphs_of_ne (by simpa using hne), if_neg (List.cons_ne_nil _ _)]
  rw [LocalGateway.frames, hsplit, Lines.paragraphs_append_blank, hparagraphs]
  have hpayload : SSEParser.payloadLines [l] ≠ [] := h.payloadLines_ne_nil []
  show ([[l]] ++ []).filter (fun p ↦ decide (SSEParser.payloadLines p ≠ [])) = [[l]]
  rw [List.append_nil, List.filter_cons_of_pos (by simpa using hpayload)]
  rfl

/-! ### What is yielded after a failure -/

namespace Service

variable (sv : Service)

/-- **A chat stream that fails in mid-stream**: the chunks that are passed on, the error and `[DONE]`, unless
an exception is raised. -/
theorem relay_midStream (caching : Bool) (a : Attempt Upstream) (b : Books) (cs : List PyBytes)
    (s : RelayState) (parser : SSEParser) (error : PyStr) (status : ℕ) (retryable : Bool) :
    let run := sv.relay caching a b s parser (cs.map .chunk ++ [.failed error status retryable true])
    run.ending ≠ .next ∧
      (run.ending ≠ .raised ↔ sv.DigestsChunks a.entry parser cs ∧
        (countsAsFailure status = true → b.CircuitReturns a)) ∧
      (run.ending ≠ .raised → ∃ outs,
        sv.relayEvents a.entry parser (cs.map .chunk ++ [.failed error status retryable true]) = some outs ∧
          (bytesOf run.steps).flatten =
            outs.flatten ++ (errorSse sv.repr error (py "stream_interrupted") ++ doneBytes)) := by
  induction cs generalizing s parser with
  | nil =>
    have hending := sv.fail_ending a (some error) status true .answered b
    simp only [List.map_nil, List.nil_append, relay, DigestsChunks, true_and, Bool.not_true, Bool.false_and,
      Bool.false_eq_true, if_false]
    -- the failure itself: the error and `[DONE]` go out unless recording it raises
    by_cases hreturns : countsAsFailure status = true → b.CircuitReturns a
    · rw [if_pos hreturns] at hending
      rw [hending]
      refine ⟨by simp, iff_of_true (by simp) hreturns, fun _ ↦ ⟨[], rfl, ?_⟩⟩
      rw [if_pos rfl, failureSteps, if_pos rfl, bytesOf_byteSteps]
      simp
    · rw [if_neg hreturns] at hending
      rw [hending]
      exact ⟨by simp, iff_of_false (by simp) hreturns, fun h ↦ absurd rfl h⟩
  | cons data cs ih =>
    simp only [List.map_cons, List.cons_append, relay, relayEvents, DigestsChunks]
    -- a chunk that cannot be passed on raises, and nothing after it is sent
    rcases hchunk : sv.chatChunk a.entry parser data with - | ⟨out, parser'⟩
    · have hnot : ¬ sv.DigestsChunk a.entry parser data := by
        rw [← isSome_chatChunk_iff, hchunk]
        exact Bool.false_ne_true
      exact ⟨by simp, iff_of_false (by simp) fun h ↦ hnot h.1.1, fun h ↦ absurd rfl h⟩
    · have hdigests : sv.DigestsChunk a.entry parser data := by
        rw [← isSome_chatChunk_iff, hchunk]
        rfl
      obtain ⟨hnext, hraised, hbytes⟩ := ih (s.commit.collect caching (nonempty [out])) parser'
      rw [sv.parser_of_chatChunk hchunk] at hraised
      refine ⟨hnext, ?_, fun h ↦ ?_⟩
      · rw [and_iff_right hdigests]
        rw [sv.parser_of_chatChunk hchunk]
        exact hraised
      · obtain ⟨outs, houts, hflatten⟩ := hbytes h
        refine ⟨out :: outs, by rw [Option.bind_some, houts]; rfl, ?_⟩
        dsimp only at hflatten ⊢
        rw [bytesOf_append, bytesOf_append, bytesOf_commitSteps, bytesOf_byteSteps, List.nil_append,
          List.flatten_append, hflatten, flatten_nonempty, List.flatten_singleton, List.flatten_cons,
          List.append_assoc]

/-- **A stream of the Responses API that fails in mid-stream**: the chunks as they came, and the error. -/
theorem responsesRelay_midStream {a : Attempt Upstream} {b : Books} (cs : List PyBytes) (s : RelayState)
    (t : ResponsesUsageTracker) (error : PyStr) (status : ℕ) (retryable : Bool) :
    let run := sv.responsesRelay a b s t (cs.map .chunk ++ [.failed error status retryable true])
    run.ending = .answered ∧
      bytesOf run.steps = cs ++ [errorSse sv.repr error (py "stream_error")] := by
  induction cs generalizing s t with
  | nil => exact ⟨rfl, rfl⟩
  | cons data cs ih =>
    obtain ⟨hending, hbytes⟩ := ih s.commit (t.feed sv.loads data)
    simp only [List.map_cons, List.cons_append, responsesRelay]
    refine ⟨hending, ?_⟩
    rw [bytesOf_append, bytesOf_append, bytesOf_commitSteps, bytesOf_byteSteps, hbytes]
    rfl

end Service

/-! ### What the client sees -/

/-- The streaming endpoints, the one for chat with or without the response cache. -/
inductive StreamPath
  | chat (caching : Bool)
  | responses

namespace StreamPath

variable (sv : Service)

/-- The generator of the endpoint. -/
def run : StreamPath → RelayState → List (Attempt Upstream) → Books → StreamRun
  | .chat caching => sv.relayAll caching
  | .responses => sv.responsesAll

/-- The lines of the events that follow those of the upstream: the error, and `[DONE]` for chat. -/
def closing (error : PyStr) : StreamPath → List PyBytes
  | .chat _ => [errorLine sv.repr error (py "stream_interrupted"), doneLine]
  | .responses => [errorLine sv.repr error (py "stream_error")]

/-- How the payload of an event is passed on: chat rewrites some. -/
def Passes : StreamPath → PyStr → PyStr → Prop
  | .chat _ => Rewritten sv.loads sv.repr sv.arith
  | .responses => Eq

end StreamPath

/-- A client that reads the stream sees every event that was complete in what was received of the upstream,
and then the error in an event of its own. -/
structure FailureVisible (sv : Service) (path : StreamPath) (received : PyBytes) (error : PyStr)
    (run : StreamRun) : Prop where
  returns : run.raised = false
  seen : ∃ seen, frames (normalizeEol (bytesOf run.course).flatten) =
      seen ++ (path.closing sv error).map ([·]) ∧
    List.Forall₂ (path.Passes sv) ((SSEParser.init.feed received).1.map SSEEvent.data) (seen.map frameData)

/-- For chat, the chunks can be passed on and the failure can be recorded, and the pairs that the chunks cut
do not matter to the events that are complete. For the Responses API, nothing but line ends follows the last
complete event. -/
def SeparatesFailure (sv : Service) (a : Attempt Upstream) (b : Books) (cs : List PyBytes) (status : ℕ) :
    StreamPath → Prop
  | .chat _ => sv.DigestsChunks a.entry .init cs ∧ (countsAsFailure status = true → b.CircuitReturns a) ∧
      SSEParser.ClosedUncut cs
  | .responses => ∀ l ∈ Lines.opened ((normalizeEol cs.flatten).splitOn 10), l = []

theorem normalizeEol_append {s t : PyBytes} (ht : t.head? ≠ some 10) :
    normalizeEol (s ++ t) = normalizeEol s ++ normalizeEol t := by
  induction s using normalizeEol.induct with
  | case1 => rfl
  | case2 rest ih =>
    show normalizeEol (13 :: 10 :: (rest ++ t)) = _
    rw [normalizeEol, normalizeEol, ih]
    rfl
  | case3 b rest h ih =>
    have hrest : b = 13 → (rest ++ t).head? ≠ some 10 := fun hb hhead ↦ by
      rcases rest with - | ⟨c, rest⟩
      · exact ht hhead
      · exact h rest hb (by rw [Option.some.inj hhead])
    have hrest' : b = 13 → rest.head? ≠ some 10 := fun hb hhead ↦ by
      rcases rest with - | ⟨c, rest⟩
      · cases hhead
      · exact h rest hb (by rw [Option.some.inj hhead])
    rw [List.cons_append, SSEParser.normalizeEol_cons hrest, SSEParser.normalizeEol_cons hrest', ih]
    rfl

namespace Service

variable (sv : Service)

/-- **Chat.** The events that are passed on are those that the parser returns; they are those of the stream
exactly if there are as many. -/
theorem chat_visible_iff (caching : Bool) {outs cs : List PyBytes} {datas : List PyStr} {error : PyStr}
    {run : StreamRun} (hraised : run.raised = false)
    (hbytes : (bytesOf run.course).flatten =
      outs.flatten ++ (errorSse sv.repr error (py "stream_interrupted") ++ doneBytes))
    (hframed : Framed outs.flatten datas)
    (hdatas : List.Forall₂ (Rewritten sv.loads sv.repr sv.arith)
      ((SSEParser.feedAll .init cs).1.map SSEEvent.data) datas) :
    FailureVisible sv (.chat caching) cs.flatten error run ↔ SSEParser.ClosedUncut cs := by
  obtain ⟨hsse, hline⟩ := errorSse_eq sv.repr error (py "stream_interrupted")
  have hclient : frames (normalizeEol (bytesOf run.course).flatten) = frames outs.flatten ++
      ((StreamPath.chat caching).closing sv error).map ([·]) := by
    have hcr : 13 ∉ outs.flatten ++ (errorSse sv.repr error (py "stream_interrupted") ++ doneBytes) := by
      rw [hsse]
      simp only [List.mem_append, not_or]
      exact ⟨hframed.no_cr, ⟨hline.no_cr, by decide⟩, by decide⟩
    have hdone : frames doneBytes = [[doneLine]] := eventLine_doneLine.frames
    rw [hbytes, SSEParser.normalizeEol_of_no_cr hcr, frames_append hframed.closes, hsse,
      frames_append (.inr ⟨_, rfl⟩), hline.frames, hdone]
    rfl
  have hpayloads : (frames outs.flatten).map frameData = datas := by
    rw [map_frameData_frames, hframed.payloads]
  rw [SSEParser.data_feedAll] at hdatas
  constructor
  · rintro ⟨-, seen, hseen, hpasses⟩
    obtain rfl : frames outs.flatten = seen := List.append_cancel_right (hclient.symm.trans hseen)
    rw [hpayloads, SSEParser.data_feed] at hpasses
    exact SSEParser.closedUncut_of_length_le (hdatas.length_eq.trans hpasses.length_eq.symm).le
  · intro huncut
    refine ⟨hraised, frames outs.flatten, hclient, ?_⟩
    rw [hpayloads, SSEParser.data_feed, ← SSEParser.closedPayloads_eq huncut]
    exact hdatas

/-- An event after a text that it does not end with a blank line: what has not ended is glued to it. -/
theorem frames_glued (s : PyBytes) {line : PyBytes} (hline : EventLine line) :
    ∃ mid last, Lines.opened (s.splitOn 10) = mid ++ [last] ∧ (∀ l ∈ mid, l ≠ []) ∧
      frames (s ++ (line ++ [10, 10])) = closedFrames s ++ [mid ++ [last ++ line]].filter
        fun p ↦ SSEParser.payloadLines p ≠ [] := by
  obtain ⟨mid, last, hopened, hlines, hmid⟩ := Lines.opened_cases (List.splitOn_ne_nil 10 s)
  refine ⟨mid, last, hopened, hmid, ?_⟩
  have hsplit : (line ++ [10, 10]).splitOn 10 = line :: [[], []] := by
    show (line ++ 10 :: [10]).splitOn 10 = _
    rw [List.splitOn_append_cons_self_of_not_mem hline.no_lf]
    rfl
  have hne : ∀ l ∈ mid ++ [last ++ line], l ≠ [] := fun l hl ↦ by
    rcases List.mem_append.1 hl with hl | hl
    · exact hmid l hl
    · obtain rfl := List.mem_singleton.1 hl
      intro hnil
      have hdata := hline.data
      rw [(List.append_eq_nil_iff.1 hnil).2] at hdata
      exact absurd hdata (by decide)
  have hall : (s ++ (line ++ [10, 10])).splitOn 10 =
      Lines.closed (s.splitOn 10) ++ ((mid ++ [last ++ line]) ++ [] :: [[]]) := by
    rw [Lines.splitOn_append hlines hsplit]
    simp
  have hparagraphs : Lines.paragraphs (mid ++ [last ++ line]) = [mid ++ [last ++ line]] := by
    rw [Lines.paragraphs_of_ne hne, if_neg (by simp)]
  have hempty : Lines.paragraphs ([[]] : List PyBytes) = [] := rfl
  rw [frames, hall, Lines.paragraphs_closed_append, Lines.paragraphs_append_blank, hparagraphs, hempty,
    List.append_nil, List.filter_append]
  rfl

/-- **Responses.** The error is an event of its own exactly if nothing is glued to it. -/
theorem responses_visible_iff (cs : List PyBytes) {error : PyStr} {run : StreamRun}
    (hraised : run.raised = false)
    (hbytes : bytesOf run.course = cs ++ [errorSse sv.repr error (py "stream_error")]) :
    FailureVisible sv .responses cs.flatten error run ↔
      ∀ l ∈ Lines.opened ((normalizeEol cs.flatten).splitOn 10), l = [] := by
  obtain ⟨hsse, hline⟩ := errorSse_eq sv.repr error (py "stream_error")
  set line := errorLine sv.repr error (py "stream_error") with hlineDef
  obtain ⟨mid, last, hopened, hmid, hframes⟩ := frames_glued (normalizeEol cs.flatten) hline
  have hclient : normalizeEol (bytesOf run.course).flatten =
      normalizeEol cs.flatten ++ (line ++ [10, 10]) := by
    have hhead : (line ++ [10, 10]).head? ≠ some 10 := by
      obtain ⟨rest, hrest⟩ := hline.data
      rw [← hrest]
      exact nofun
    have hcr : 13 ∉ line ++ [10, 10] := by simpa using hline.no_cr
    rw [hbytes, List.flatten_append, List.flatten_singleton, hsse, normalizeEol_append hhead,
      SSEParser.normalizeEol_of_no_cr hcr]
  have hdatas : (closedFrames (normalizeEol cs.flatten)).map frameData =
      (SSEParser.init.feed cs.flatten).1.map SSEEvent.data := by
    rw [SSEParser.data_feed, map_frameData_closedFrames]
  have hclosing : (StreamPath.responses.closing sv error).map ([·]) = [[line]] := rfl
  rw [hopened]
  constructor
  · rintro ⟨-, seen, hseen, hpasses⟩
    have hequal : (SSEParser.init.feed cs.flatten).1.map SSEEvent.data = seen.map frameData :=
      List.forall₂_eq_eq_eq ▸ hpasses
    rw [hclient, hframes, hclosing] at hseen
    -- the events before have as many frames, so that the error is the frame left over
    have hlength := congrArg List.length (hdatas.trans hequal)
    rw [List.length_map, List.length_map] at hlength
    have hglued := (List.append_inj hseen hlength).2
    have hone : mid ++ [last ++ line] = [line] := by
      have hmem : [line] ∈ [mid ++ [last ++ line]].filter fun p ↦ SSEParser.payloadLines p ≠ [] :=
        hglued ▸ List.mem_singleton_self [line]
      exact (List.mem_singleton.1 (List.mem_of_mem_filter hmem)).symm
    rcases mid with - | ⟨l, mid⟩
    · have hlast : last ++ line = [] ++ line := (List.cons.inj hone).1
      simpa using List.append_cancel_right hlast
    · simp at hone
  · intro hall
    have hnil : mid = [] := by
      refine List.eq_nil_iff_forall_not_mem.2 fun l hl ↦ hmid l hl ?_
      exact hall l (List.mem_append_left _ hl)
    have hlast : last = [] := hall last (List.mem_append_right _ (List.mem_singleton_self last))
    subst hnil hlast
    have hpayload : SSEParser.payloadLines [line] ≠ [] := hline.payloadLines_ne_nil []
    refine ⟨hraised, closedFrames (normalizeEol cs.flatten), ?_, ?_⟩
    · rw [hclient, hframes, hclosing]
      simp [hpayload]
    · rw [hdatas]
      exact List.forall₂_same.2 fun _ _ ↦ rfl

/-- A stream that fails in the middle of an event. -/
def brokenStream (chunks : List PyBytes) : Attempt Upstream :=
  { cutStream with answer := .streamed chunks (.broken (py "reset")) }

end Service

end LocalGateway
