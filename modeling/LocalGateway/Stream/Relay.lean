import LocalGateway.Stream.Malformed

/-!
# The generator of a chat stream

`handle_request_stream` after its cache lookup and the selection of backends: what it yields, and when it
stores a reply, over the backends that it tries and the events of their streams.

* `Service.relay` is the loop over the events of one backend, `Service.relayAll` the one over the
  backends; `relayAll_books` says that they keep the books of `Service.handleRequestStream`.
* `RelayStep`: the yields and the call of `respcache.store` in their order. A consumer that closes the
  generator, or is cancelled while it waits, leaves a beginning of them.
* `keepsProtocol_iff`: when the first item is a dict and the only one, and what it says of the rest.
-/

namespace LocalGateway

open Py Json

/-! ### Items -/

/-- What the generator yields. -/
inductive RelayItem
  /-- The dict with the headers, which name the backend that serves. -/
  | headers (backend : SelectedBackend)
  /-- The dict with the headers of a cache hit. -/
  | cached
  /-- The dict of an error, with its status. -/
  | error (message code : PyStr) (status : ℕ)
  | bytes (data : PyBytes)
deriving DecidableEq

/-- The item is a dict. -/
def RelayItem.isDict : RelayItem → Bool
  | .bytes _ => false
  | _ => true

/-- A yield, or a call of `respcache.store`. -/
inductive RelayStep
  | item (i : RelayItem)
  | store (body : PyBytes)
deriving DecidableEq

/-- The item that is yielded, if it is a yield. -/
def RelayStep.item? : RelayStep → Option RelayItem
  | .item i => some i
  | .store _ => none

/-- `b"data: [DONE]\n\n"`. -/
def doneBytes : PyBytes :=
  pyb "data: [DONE]\n\n"

/-- `f"http_{status}"`. -/
def httpCode (status : ℕ) : PyStr :=
  py "http_" ++ natRepr status

/-- The body of an error. -/
def errorObject (message code : PyStr) : Json :=
  .obj [(py "error", .obj [(py "message", .str message), (py "type", .str (py "api_error")),
    (py "code", .str code)])]

/-- `_error_sse`. -/
def errorSse (r : FloatRepr) (message code : PyStr) : PyBytes :=
  (utf8Encode (py "data: " ++ dumps true r (errorObject message code) ++ py "\n\n")).getD []

/-- The text of a failed attempt in the list of errors. -/
def attemptError (e : Entry) (error : PyStr) : PyStr :=
  py "[" ++ e.provider.id ++ py ":" ++ e.backend.model ++ py "] " ++ error

/-- What the generator keeps across backends: `committed`, `collected_chunks` and `errors`. -/
structure RelayState where
  committed : Bool
  collected : List PyBytes
  errors : List PyStr

/-- The state before the first backend. -/
def RelayState.init : RelayState :=
  ⟨false, [], []⟩

/-- The state after the headers have been yielded. -/
def RelayState.commit (s : RelayState) : RelayState :=
  { s with committed := true }

/-- The chunks that are collected if the reply may be cached. -/
def RelayState.collect (s : RelayState) (caching : Bool) (outs : List PyBytes) : RelayState :=
  if caching then { s with collected := s.collected ++ outs } else s

/-- The headers of a backend, unless some have been yielded. -/
def RelayState.commitSteps (s : RelayState) (backend : SelectedBackend) : List RelayStep :=
  if s.committed then [] else [.item (.headers backend)]

/-- Bytes that are yielded, but for empty ones. -/
def nonempty (outs : List PyBytes) : List PyBytes :=
  outs.filter (· ≠ [])

theorem flatten_nonempty (outs : List PyBytes) : (nonempty outs).flatten = outs.flatten := by
  induction outs with
  | nil => rfl
  | cons out outs ih =>
    by_cases hout : out = []
    · subst hout
      exact ih
    · rw [nonempty, List.filter_cons_of_pos (by simpa using hout)]
      exact congrArg (out ++ ·) ih

/-- Yields of bytes. -/
def byteSteps (outs : List PyBytes) : List RelayStep :=
  outs.map fun out ↦ .item (.bytes out)

/-! ### What a client gets -/

/-- The bytes of a step, if it yields bytes. -/
def RelayStep.bytes? : RelayStep → Option PyBytes
  | .item (.bytes data) => some data
  | _ => none

/-- The body that a step stores, if it stores one. -/
def RelayStep.stored? : RelayStep → Option PyBytes
  | .store body => some body
  | _ => none

/-- The bytes that are yielded. -/
def bytesOf (steps : List RelayStep) : List PyBytes :=
  steps.filterMap RelayStep.bytes?

/-- The bodies that are stored. -/
def storesOf (steps : List RelayStep) : List PyBytes :=
  steps.filterMap RelayStep.stored?

@[simp] theorem bytesOf_append (steps more : List RelayStep) :
    bytesOf (steps ++ more) = bytesOf steps ++ bytesOf more :=
  List.filterMap_append

@[simp] theorem storesOf_append (steps more : List RelayStep) :
    storesOf (steps ++ more) = storesOf steps ++ storesOf more :=
  List.filterMap_append

@[simp] theorem bytesOf_byteSteps (outs : List PyBytes) : bytesOf (byteSteps outs) = outs := by
  rw [bytesOf, byteSteps, List.filterMap_map]
  exact List.filterMap_some

@[simp] theorem storesOf_byteSteps (outs : List PyBytes) : storesOf (byteSteps outs) = [] := by
  rw [storesOf, byteSteps, List.filterMap_map]
  exact List.filterMap_eq_nil_iff.2 fun _ _ ↦ rfl

@[simp] theorem bytesOf_commitSteps (s : RelayState) (backend : SelectedBackend) :
    bytesOf (s.commitSteps backend) = [] := by
  unfold RelayState.commitSteps
  split_ifs <;> rfl

@[simp] theorem storesOf_commitSteps (s : RelayState) (backend : SelectedBackend) :
    storesOf (s.commitSteps backend) = [] := by
  unfold RelayState.commitSteps
  split_ifs <;> rfl

/-! ### How a stream is over -/

theorem sawDone_of_after {loads : Decoder} {acc acc' : StreamAccumulator} {p : SSEParser}
    {evs : List SSEEvent} (h : acc.after loads p evs = .ok acc') :
    acc'.sawDone = (acc.sawDone || evs.any (·.done)) := by
  unfold StreamAccumulator.after at h
  rcases hlengths : evs.mapM (eventLength loads) with error | lengths <;> rw [hlengths] at h
  · cases h
  · rw [← Except.ok.inj h]

/-- A stream that is over was read without an exception. -/
theorem accumulate_of_done {loads : Decoder} {chunks : List PyBytes} {ending : StreamEnd} {usage : StreamUsage}
    {sent : Bool} (h : .done usage sent ∈ callProviderStream loads (.streamed chunks ending)) :
    ∃ acc, accumulate loads chunks ending = .ok acc ∧ (ending = .eof → sent = acc.sawDone) := by
  obtain ⟨acc, ev, acc', hfold, hfinish, -, hsent⟩ := done_mem loads h
  cases ending with
  | broken error => exact ⟨acc, hfold, nofun⟩
  | eof =>
    refine ⟨acc', ?_, fun _ ↦ hsent⟩
    rw [accumulate, hfold]
    exact congrArg (· >>= fun r ↦ pure r.2) hfinish

/-- **A stream that is over**: the response came to its end, and was read without an exception. -/
theorem eof_of_done {loads : Decoder} {up : Upstream} {usage : StreamUsage} {sent : Bool}
    (h : .done usage sent ∈ callProviderStream loads up) : ∃ chunks, up = .streamed chunks .eof ∧
      callProviderStream loads up = (passedOn chunks .eof).map .chunk ++ [.done usage sent] ∧
      sent = (SSEParser.parse chunks).any SSEEvent.done := by
  rcases up with ⟨status, body⟩ | ⟨chunks, ending⟩
  · simp [callProviderStream] at h
  · obtain ⟨acc, hacc, hsent⟩ := accumulate_of_done h
    obtain ⟨last, hevents, hlast⟩ := callProviderStream_of_ok loads hacc
    have hmem : last = .done usage sent := by
      rw [hevents] at h
      simpa [eq_comm] using h
    subst hmem
    cases ending with
    | broken error =>
      obtain ⟨error, status, retryable, mid, hfailed⟩ := hlast
      cases hfailed
    | eof =>
      refine ⟨chunks, rfl, hevents, ?_⟩
      obtain ⟨p, hafter⟩ := accumulate_eq loads chunks .eof
      rw [hsent rfl, sawDone_of_after (hafter.symm.trans hacc)]
      rfl

/-! ### One backend -/

/-- The run of the loop over the events of one backend. -/
structure AttemptRun where
  steps : List RelayStep
  state : RelayState
  books : Books
  ending : Ending

namespace Service

variable (sv : Service)

/-- What is yielded after a failure that ends the request. -/
def failureSteps (committed : Bool) (error : PyStr) (status : ℕ) (midStream : Bool) : List RelayStep :=
  if midStream then byteSteps [errorSse sv.repr error (py "stream_interrupted"), doneBytes]
  else if committed then byteSteps [errorSse sv.repr error (httpCode status), doneBytes]
  else
    [.item (.error (if error = [] then py "Unknown error" else error) (httpCode status)
      (if status = 0 then 502 else status))]

/-- The loop over the events of a backend. -/
def relay (caching : Bool) (a : Attempt Upstream) (b : Books) :
    RelayState → SSEParser → List StreamEvent → AttemptRun
  | s, _, [] => ⟨[], s, b, .next⟩
  | s, parser, .chunk data :: evs =>
    match sv.chatChunk a.entry parser data with
    -- an exception ends the generator after the chunk has committed it to the backend
    | none => ⟨s.commitSteps a.selected, s.commit, b, .raised⟩
    | some (out, parser) =>
      let run := relay caching a b (s.commit.collect caching (nonempty [out])) parser evs
      { run with steps := s.commitSteps a.selected ++ byteSteps (nonempty [out]) ++ run.steps }
  | s, parser, .done usage sentDone :: _ =>
    -- the request is logged before the text that was held back is sent
    match succeed a (sv.chatRow a.entry usage a.latency true) b with
    | (b, .answered) =>
      match flushStreamChunk sv.loads sv.repr parser with
      | none => ⟨s.commitSteps a.selected, s.commit, b, .raised⟩
      | some tail =>
        let sent := nonempty [tail] ++ if sentDone then [] else [doneBytes]
        let s' := s.commit.collect caching sent
        ⟨s.commitSteps a.selected ++ byteSteps sent ++
          (if caching ∧ s'.collected ≠ [] then [.store s'.collected.flatten] else []),
          s', b, .answered⟩
    | (b, ending) => ⟨s.commitSteps a.selected, s.commit, b, ending⟩
  | s, _, .failed error status retryable midStream :: _ =>
    -- a failure in mid-stream is the last word: the next backend is not tried
    let r := sv.fail a (some error) status true (if !midStream && retryable then .next else .answered) b
    ⟨if r.2 = .answered then sv.failureSteps s.committed error status midStream else [],
      if midStream then s else { s with errors := s.errors ++ [attemptError a.entry error] }, r.1, r.2⟩

/-- An attempt of the generator. -/
def relayAttempt (caching : Bool) (s : RelayState) (a : Attempt Upstream) (b : Books) : AttemptRun :=
  sv.relay caching a b s .init (callProviderStream sv.loads a.answer)

end Service

/-! ### All backends -/

/-- The run of the generator: its steps, each with the backend that it comes from, the backends that were
tried, and whether it ends with an exception. -/
structure StreamRun where
  steps : List (Option SelectedBackend × RelayStep)
  books : Books
  tried : List (Attempt Upstream)
  raised : Bool

/-- The steps of a run. -/
def StreamRun.course (run : StreamRun) : List RelayStep :=
  run.steps.map Prod.snd

/-- The items that are yielded. -/
def StreamRun.items (run : StreamRun) : List RelayItem :=
  run.steps.filterMap fun t ↦ t.2.item?

namespace Service

variable (sv : Service)

/-- What is yielded when no backend is left. -/
def exhaustedSteps (s : RelayState) : List RelayStep :=
  let message := py "All backends failed for model '" ++ sv.logicalModel ++ py "'. Errors: " ++
    (py "; ").intercalate s.errors
  if s.committed then byteSteps [errorSse sv.repr message (py "all_backends_failed"), doneBytes]
  else [.item (.error message (py "all_backends_failed") 502)]

/-- The loop over the backends. -/
def relayAll (caching : Bool) : RelayState → List (Attempt Upstream) → Books → StreamRun
  | s, [], b => ⟨(sv.exhaustedSteps s).map (none, ·), b, [], false⟩
  | s, a :: as, b =>
    let run := sv.relayAttempt caching s a b
    let steps := run.steps.map (some a.selected, ·)
    match run.ending with
    | .next =>
      let rest := relayAll caching run.state as run.books
      ⟨steps ++ rest.steps, rest.books, a :: rest.tried, rest.raised⟩
    | .answered => ⟨steps, run.books, [a], false⟩
    | .raised => ⟨steps, run.books, [a], true⟩

/-- `handle_request_stream`, from the selected backends on. -/
def streamRun (caching : Bool) (as : List (Attempt Upstream)) (b : Books) : StreamRun :=
  sv.relayAll caching .init as b

/-! ### The books -/

section Books

variable {caching : Bool}

/-- The loop over the events keeps the books, and ends, as it does without the yields. -/
theorem relay_books (a : Attempt Upstream) (b : Books) (evs : List StreamEvent) (s : RelayState)
    (parser : SSEParser) :
    ((sv.relay caching a b s parser evs).books, (sv.relay caching a b s parser evs).ending) =
      sv.chatEvents a b parser evs := by
  induction evs generalizing s parser with
  | nil => rfl
  | cons ev evs ih =>
    rcases ev with data | ⟨usage, sent⟩ | ⟨error, status, retryable, midStream⟩
    · rw [relay, chatEvents]
      rcases sv.chatChunk a.entry parser data with - | ⟨out, parser'⟩
      · rfl
      · exact ih _ _
    · rw [relay, chatEvents]
      rcases succeed a (sv.chatRow a.entry usage a.latency true) b with ⟨b', - | - | -⟩
      · dsimp only
        rcases flushStreamChunk sv.loads sv.repr parser with - | tail
        · rfl
        · rfl
      · rfl
      · rfl
    · rfl

theorem relayAttempt_books (s : RelayState) (a : Attempt Upstream) (b : Books) :
    ((sv.relayAttempt caching s a b).books, (sv.relayAttempt caching s a b).ending) =
      sv.chatStreamAttempt a b :=
  sv.relay_books a b _ s .init

theorem relayAll_cons_next {s : RelayState} {a : Attempt Upstream} {b : Books}
    (h : (sv.relayAttempt caching s a b).ending = .next) (as : List (Attempt Upstream)) :
    sv.relayAll caching s (a :: as) b =
      let run := sv.relayAttempt caching s a b
      let rest := sv.relayAll caching run.state as run.books
      ⟨run.steps.map (some a.selected, ·) ++ rest.steps, rest.books, a :: rest.tried, rest.raised⟩ := by
  simp only [relayAll, h]

theorem relayAll_cons_stop {s : RelayState} {a : Attempt Upstream} {b : Books}
    (h : (sv.relayAttempt caching s a b).ending ≠ .next) (as : List (Attempt Upstream)) :
    sv.relayAll caching s (a :: as) b =
      let run := sv.relayAttempt caching s a b
      ⟨run.steps.map (some a.selected, ·), run.books, [a], run.ending = .raised⟩ := by
  rcases hending : (sv.relayAttempt caching s a b).ending with - | - | -
  · simp [relayAll, hending]
  · exact absurd hending h
  · simp [relayAll, hending]

/-- The course of a request that its first backend ends is that of the attempt. -/
theorem relayAll_course_stop {s : RelayState} {a : Attempt Upstream} {b : Books}
    (h : (sv.relayAttempt caching s a b).ending ≠ .next) (as : List (Attempt Upstream)) :
    (sv.relayAll caching s (a :: as) b).course = (sv.relayAttempt caching s a b).steps := by
  rw [relayAll_cons_stop sv h, StreamRun.course, List.map_map]
  exact List.map_id _

theorem relayAll_raised_stop {s : RelayState} {a : Attempt Upstream} {b : Books}
    (h : (sv.relayAttempt caching s a b).ending ≠ .next) (as : List (Attempt Upstream)) :
    (sv.relayAll caching s (a :: as) b).raised = false ↔
      (sv.relayAttempt caching s a b).ending ≠ .raised := by
  rw [relayAll_cons_stop sv h]
  exact decide_eq_false_iff_not

/-- **The generator keeps the books of the request**, and tries the same backends. -/
theorem relayAll_books (as : List (Attempt Upstream)) (b : Books) (s : RelayState) :
    ((sv.relayAll caching s as b).books, (sv.relayAll caching s as b).tried) =
      sv.handleRequestStream as b := by
  induction as generalizing b s with
  | nil => rfl
  | cons a as ih =>
    have hattempt : ((sv.relayAttempt caching s a b).books, (sv.relayAttempt caching s a b).ending) =
        sv.chatStreamAttempt a b := sv.relayAttempt_books s a b
    have hending : (sv.chatStreamAttempt a b).2 = (sv.relayAttempt caching s a b).ending :=
      (congrArg Prod.snd hattempt).symm
    by_cases hnext : (sv.relayAttempt caching s a b).ending = .next
    · have hrest := ih (sv.relayAttempt caching s a b).books (sv.relayAttempt caching s a b).state
      rw [relayAll_cons_next sv hnext, handleRequestStream]
      refine Eq.trans ?_ (sv.chatStream.tryAll_cons_next (hending.trans hnext)).symm
      show ((sv.relayAll _ _ as _).books, a :: (sv.relayAll _ _ as _).tried) =
        ((tryAll sv.chatStreamAttempt as (sv.chatStreamAttempt a b).1).1,
          a :: (tryAll sv.chatStreamAttempt as (sv.chatStreamAttempt a b).1).2)
      rw [← hattempt]
      exact congrArg (fun r : Books × List (Attempt Upstream) ↦ (r.1, a :: r.2)) hrest
    · have hstop : (sv.chatStreamAttempt a b).2 ≠ .next := fun h ↦ hnext (hending.symm.trans h)
      rw [relayAll_cons_stop sv hnext, handleRequestStream]
      refine Eq.trans ?_ (sv.chatStream.tryAll_cons_stop hstop).symm
      exact congrArg (·, [a]) (congrArg Prod.fst hattempt)

end Books

/-! ### How a stream begins -/

/-- Once there was a chunk, a failure is one in mid-stream. -/
theorem midStream_of_first (loads : Decoder) {acc : StreamAccumulator} {chunks : List PyBytes}
    {ending : StreamEnd} {error : PyStr} {status : ℕ} {retryable midStream : Bool}
    (h : .failed error status retryable midStream ∈ streamEvents loads acc true chunks ending) :
    midStream = true := by
  induction chunks generalizing acc with
  | nil =>
    rcases ending with - | broken
    · rw [streamEvents] at h
      rcases hfinish : acc.finish loads with broken | ⟨ev, acc'⟩ <;> rw [hfinish] at h
      · exact (StreamEvent.failed.inj (List.mem_singleton.1 h)).2.2.2
      · simp at h
    · exact (StreamEvent.failed.inj (List.mem_singleton.1 h)).2.2.2
  | cons chunk chunks ih =>
    rw [streamEvents] at h
    split_ifs at h
    · exact ih h
    · rcases hfeed : acc.feed loads chunk with broken | acc' <;> rw [hfeed] at h
      · exact (StreamEvent.failed.inj (List.mem_singleton.1 h)).2.2.2
      · exact ih (List.mem_of_ne_of_mem (by simp) h)

theorem midStream_of_chunk (loads : Decoder) {acc : StreamAccumulator} {first : Bool}
    {chunks : List PyBytes} {ending : StreamEnd} {data : PyBytes} {evs : List StreamEvent}
    (hevs : streamEvents loads acc first chunks ending = .chunk data :: evs) {error : PyStr} {status : ℕ}
    {retryable midStream : Bool} (h : .failed error status retryable midStream ∈ evs) :
    midStream = true := by
  induction chunks generalizing first with
  | nil =>
    rcases ending with - | broken
    · rw [streamEvents] at hevs
      rcases hfinish : acc.finish loads with broken | ⟨ev, acc'⟩ <;> rw [hfinish] at hevs
      · cases hevs
      · have hmem := List.mem_cons_of_mem (.chunk data) h
        rw [← hevs] at hmem
        simp at hmem
    · cases hevs
  | cons chunk chunks ih =>
    rw [streamEvents] at hevs
    split_ifs at hevs
    · exact ih hevs
    · rcases hfeed : acc.feed loads chunk with broken | acc' <;> rw [hfeed] at hevs
      · cases hevs
      · rw [← (List.cons.inj hevs).2] at h
        exact midStream_of_first loads h

/-- A response that comes to its end fails in mid-stream, if it fails: no bytes raise no exception. -/
theorem midStream_of_eof (loads : Decoder) {chunks : List PyBytes} {error : PyStr} {status : ℕ}
    {retryable midStream : Bool}
    (h : .failed error status retryable midStream ∈ callProviderStream loads (.streamed chunks .eof)) :
    midStream = true := by
  rw [callProviderStream] at h
  induction chunks with
  | nil =>
    have hdone : streamEvents loads .init false [] .eof =
      [.done StreamAccumulator.init.finalUsage StreamAccumulator.init.sawDone] := rfl
    rw [hdone] at h
    simp at h
  | cons chunk chunks ih =>
    rw [streamEvents] at h
    split_ifs at h
    · exact ih h
    · rcases hfeed : StreamAccumulator.init.feed loads chunk with broken | acc' <;> rw [hfeed] at h
      · exact (StreamEvent.failed.inj (List.mem_singleton.1 h)).2.2.2
      · exact midStream_of_first loads (List.mem_of_ne_of_mem (by simp) h)

/-- How a stream begins: with a chunk, after which no failure allows another backend, with its end, or with
a failure. -/
theorem callProviderStream_cases (loads : Decoder) (up : Upstream) :
    (∃ (cs : List PyBytes) (ev : StreamEvent), cs ≠ [] ∧ ev.Ends ∧
        (∀ error status retryable midStream,
          ev = .failed error status retryable midStream → midStream = true) ∧
        callProviderStream loads up = cs.map .chunk ++ [ev]) ∨
      (∃ usage sent, callProviderStream loads up = [.done usage sent]) ∨
      ∃ error status retryable midStream,
        callProviderStream loads up = [.failed error status retryable midStream] := by
  obtain ⟨cs, ev, hev, hshape⟩ := callProviderStream_shape loads up
  rcases eq_or_ne cs [] with rfl | hcs
  · rcases ev with data | ⟨usage, sent⟩ | ⟨error, status, retryable, midStream⟩
    · exact absurd hev id
    · exact .inr (.inl ⟨usage, sent, hshape⟩)
    · exact .inr (.inr ⟨error, status, retryable, midStream, hshape⟩)
  · obtain ⟨data, cs, rfl⟩ := List.exists_cons_of_ne_nil hcs
    refine .inl ⟨data :: cs, ev, hcs, hev, fun error status retryable midStream heq ↦ ?_, hshape⟩
    rcases up with ⟨status', body⟩ | ⟨chunks, ending⟩
    · simp [callProviderStream] at hshape
    · subst heq
      exact midStream_of_chunk loads hshape (List.mem_append_right _ (List.mem_singleton_self _))

/-! ### The protocol -/

section Protocol

variable (caching : Bool)

/-- The stream fails before its first chunk, so that another backend may be tried. -/
def failsOver (a : Attempt Upstream) : Bool :=
  match callProviderStream sv.loads a.answer with
  | [.failed _ _ true false] => true
  | _ => false

/-- Only bytes are yielded. -/
def OnlyBytes (steps : List RelayStep) : Prop :=
  ∀ i, .item i ∈ steps → ∃ data, i = .bytes data

theorem onlyBytes_byteSteps (outs : List PyBytes) : OnlyBytes (byteSteps outs) := by
  intro i hi
  obtain ⟨data, -, heq⟩ := List.mem_map.1 hi
  exact ⟨data, (RelayStep.item.inj heq).symm⟩

theorem OnlyBytes.append {steps more : List RelayStep} (h : OnlyBytes steps) (h' : OnlyBytes more) :
    OnlyBytes (steps ++ more) :=
  fun i hi ↦ (List.mem_append.1 hi).elim (h i) (h' i)

theorem onlyBytes_nil : OnlyBytes [] :=
  fun _ hi ↦ absurd hi List.not_mem_nil

theorem OnlyBytes.ite {steps : List RelayStep} (h : OnlyBytes steps) (p : Prop) [Decidable p] :
    OnlyBytes (if p then steps else []) := by
  split_ifs
  · exact h
  · exact onlyBytes_nil

theorem onlyBytes_store (body : PyBytes) : OnlyBytes [.store body] := by
  intro i hi
  simp at hi

theorem succeed_ne_next {a : Attempt Upstream} {row : Option UsageRow} {b : Books} :
    (succeed a row b).2 ≠ .next := by
  unfold succeed
  rcases row with - | row <;> simp

/-- The ending of a failure is the intended one, unless the circuit breaker raises. -/
theorem fail_ending {α : Type} (a : Attempt α) (error : Option PyStr) (status : ℕ) (stream : Bool)
    (ending : Ending) (b : Books) :
    (sv.fail a error status stream ending b).2 =
      if countsAsFailure status = true → b.CircuitReturns a then ending else .raised := by
  unfold fail
  cases hcounts : countsAsFailure status with
  | false => simp
  | true =>
    have hiff : ((b.recordStat a.entry false).recordOutcome a false error).2 = .overflow ↔ _ :=
      recordOutcome_overflow_iff
    simp only [if_true, forall_const]
    rcases hresult : ((b.recordStat a.entry false).recordOutcome a false error).2 with tripped | -
    · rw [if_pos]
      by_contra hnot
      exact absurd (hresult.symm.trans (hiff.2 hnot)) (by simp)
    · rw [if_neg (hiff.1 hresult)]

theorem fail_ne_next {a : Attempt Upstream} {error : Option PyStr} {status : ℕ} {stream : Bool}
    {ending : Ending} {b : Books} (h : ending ≠ .next) :
    (sv.fail a error status stream ending b).2 ≠ .next := by
  rw [fail_ending]
  split_ifs
  · exact h
  · simp

/-- The end of a stream that is over, after the headers. -/
theorem relay_done {a : Attempt Upstream} {b : Books} (usage : StreamUsage) (sent : Bool) (s : RelayState)
    (parser : SSEParser) (evs : List StreamEvent) :
    let run := sv.relay caching a b s parser (.done usage sent :: evs)
    (∃ rest, OnlyBytes rest ∧ run.steps = s.commitSteps a.selected ++ rest) ∧ run.ending ≠ .next := by
  have hne : (succeed a (sv.chatRow a.entry usage a.latency true) b).2 ≠ .next := succeed_ne_next
  rw [relay]
  generalize succeed a (sv.chatRow a.entry usage a.latency true) b = recorded at hne
  rcases recorded with ⟨b', - | - | -⟩
  · dsimp only
    rcases flushStreamChunk sv.loads sv.repr parser with - | tail
    · exact ⟨⟨[], onlyBytes_nil, (List.append_nil _).symm⟩, by simp⟩
    · exact ⟨⟨_, (onlyBytes_byteSteps _).append ((onlyBytes_store _).ite _), List.append_assoc ..⟩, by simp⟩
  · exact absurd rfl hne
  · exact ⟨⟨[], onlyBytes_nil, (List.append_nil _).symm⟩, by simp⟩

/-- A stream that does not fail, or fails in mid-stream, ends the request. -/
theorem relay_ne_next {a : Attempt Upstream} {b : Books} {ev : StreamEvent} (hev : ev.Ends)
    (hmid : ∀ error status retryable midStream,
      ev = .failed error status retryable midStream → midStream = true)
    (cs : List PyBytes) (s : RelayState) (parser : SSEParser) :
    (sv.relay caching a b s parser (cs.map .chunk ++ [ev])).ending ≠ .next := by
  induction cs generalizing s parser with
  | nil =>
    rcases ev with data | ⟨usage, sent⟩ | ⟨error, status, retryable, midStream⟩
    · exact absurd hev id
    · exact (sv.relay_done caching usage sent s parser []).2
    · obtain rfl := hmid error status retryable midStream rfl
      exact sv.fail_ne_next (by simp)
  | cons data cs ih =>
    simp only [List.map_cons, List.cons_append, relay]
    rcases sv.chatChunk a.entry parser data with - | ⟨out, parser'⟩
    · simp
    · exact ih _ parser'

/-- The end of a stream that has begun: bytes, and no other backend. -/
theorem relay_committed {a : Attempt Upstream} {b : Books} {ev : StreamEvent} (hev : ev.Ends)
    (hmid : ∀ error status retryable midStream,
      ev = .failed error status retryable midStream → midStream = true)
    (cs : List PyBytes) {s : RelayState} (hs : s.committed = true) (parser : SSEParser) :
    let run := sv.relay caching a b s parser (cs.map .chunk ++ [ev])
    OnlyBytes run.steps ∧ run.ending ≠ .next := by
  refine ⟨?_, sv.relay_ne_next caching hev hmid cs s parser⟩
  induction cs generalizing s parser with
  | nil =>
    rcases ev with data | ⟨usage, sent⟩ | ⟨error, status, retryable, midStream⟩
    · exact absurd hev id
    · obtain ⟨⟨rest, hrest, hsteps⟩, -⟩ := sv.relay_done caching usage sent s parser [] (a := a) (b := b)
      rw [RelayState.commitSteps, if_pos hs, List.nil_append] at hsteps
      exact hsteps ▸ hrest
    · obtain rfl := hmid error status retryable midStream rfl
      exact (onlyBytes_byteSteps _).ite _
  | cons data cs ih =>
    simp only [List.map_cons, List.cons_append, relay, RelayState.commitSteps, hs, if_true]
    rcases sv.chatChunk a.entry parser data with - | ⟨out, parser'⟩
    · exact onlyBytes_nil
    · have hcommitted : ((s.commit).collect caching (nonempty [out])).committed = true := by
        unfold RelayState.collect
        split_ifs <;> rfl
      exact (onlyBytes_byteSteps _).append (ih hcommitted parser')

/-- A stream that begins with a chunk, or is over: the headers, then bytes, and no other backend. -/
theorem relayAttempt_served {s : RelayState} {a : Attempt Upstream} {b : Books}
    (hs : s.committed = false)
    (hfailed : ∀ error status retryable midStream, callProviderStream sv.loads a.answer ≠
      [.failed error status retryable midStream]) :
    let run := sv.relayAttempt caching s a b
    (∃ rest, OnlyBytes rest ∧ run.steps = .item (.headers a.selected) :: rest) ∧ run.ending ≠ .next := by
  have hcommit : s.commitSteps a.selected = [.item (.headers a.selected)] := by
    rw [RelayState.commitSteps, hs, if_neg Bool.false_ne_true]
  unfold relayAttempt
  rcases callProviderStream_cases sv.loads a.answer with ⟨cs, ev, hcs, hev, hmid, heq⟩ | ⟨usage, sent, heq⟩ |
    ⟨error, status, retryable, midStream, heq⟩
  · obtain ⟨data, cs, rfl⟩ := List.exists_cons_of_ne_nil hcs
    rw [heq]
    simp only [List.map_cons, List.cons_append, relay, hcommit]
    rcases sv.chatChunk a.entry SSEParser.init data with - | ⟨out, parser⟩
    · exact ⟨⟨[], onlyBytes_nil, rfl⟩, by simp⟩
    · have hcommitted : (s.commit.collect caching (nonempty [out])).committed = true := by
        unfold RelayState.collect
        split_ifs <;> rfl
      obtain ⟨hbytes, hending⟩ := sv.relay_committed caching hev hmid cs hcommitted parser (a := a) (b := b)
      exact ⟨⟨_, (onlyBytes_byteSteps _).append hbytes, rfl⟩, hending⟩
  · rw [heq]
    obtain ⟨⟨rest, hrest, hsteps⟩, hending⟩ :=
      sv.relay_done caching usage sent s SSEParser.init [] (a := a) (b := b)
    exact ⟨⟨rest, hrest, by rw [hsteps, hcommit]; rfl⟩, hending⟩
  · exact absurd heq (hfailed _ _ _ _)

/-- **The protocol of the generator.** The first item is a dict, and no other is. An error is the last item.
Headers name the first backend whose stream did not fail before its first chunk so that another could be
tried; all that is yielded comes from it. The backends that are tried are those before it, and itself. -/
structure Protocol (run : StreamRun) (as : List (Attempt Upstream)) : Prop where
  dict_first : ∃ d rest, run.items = d :: rest ∧ d.isDict = true ∧ ∀ i ∈ rest, i.isDict = false
  error_last : ∀ message code status rest, run.items = .error message code status :: rest → rest = []
  served : ∀ backend rest, run.items = .headers backend :: rest →
    (∃ a, (as.dropWhile sv.failsOver).head? = some a ∧ a.selected = backend) ∧
      ∀ t ∈ run.steps, t.1 = some backend
  tried : run.tried = as.takeWhile sv.failsOver ++ (as.dropWhile sv.failsOver).take 1

/-- No stream that is read fails in mid-stream without a chunk, and the circuit breaker takes the failures
before a first chunk. -/
def Commits : List (Attempt Upstream) → Books → Prop
  | [], _ => True
  | a :: as, b => ∀ error status retryable midStream,
      callProviderStream sv.loads a.answer = [.failed error status retryable midStream] →
        midStream = false ∧ (countsAsFailure status = true → b.CircuitReturns a) ∧
          (retryable = true → Commits as (sv.fail a (some error) status true .next b).1)

theorem OnlyBytes.isDict {steps : List RelayStep} (h : OnlyBytes steps) :
    ∀ i ∈ steps.filterMap RelayStep.item?, i.isDict = false := by
  intro i hi
  obtain ⟨t, ht, hitem⟩ := List.mem_filterMap.1 hi
  rcases t with j | body
  · obtain rfl : j = i := Option.some.inj hitem
    obtain ⟨data, rfl⟩ := h j ht
    rfl
  · cases hitem

/-- The items of steps that all come from one backend. -/
theorem filterMap_item?_map (backend : Option SelectedBackend) (steps : List RelayStep) :
    (steps.map (backend, ·)).filterMap (fun t ↦ t.2.item?) = steps.filterMap RelayStep.item? := by
  rw [List.filterMap_map]
  rfl

variable {caching}

/-- A stream that fails before its first chunk. -/
theorem relayAttempt_failed {s : RelayState} {a : Attempt Upstream} {b : Books} (hs : s.committed = false)
    {error : PyStr} {status : ℕ} {retryable midStream : Bool}
    (h : callProviderStream sv.loads a.answer = [.failed error status retryable midStream]) :
    let r := sv.fail a (some error) status true (if !midStream && retryable then .next else .answered) b
    sv.relayAttempt caching s a b =
      ⟨if r.2 = .answered then sv.failureSteps false error status midStream else [],
        if midStream then s else { s with errors := s.errors ++ [attemptError a.entry error] }, r.1, r.2⟩ := by
  rw [relayAttempt, h, relay, hs]

/-- A run that has come to its last backend keeps the protocol if its steps do. -/
theorem protocol_of_stop {s : RelayState} {a : Attempt Upstream} {as : List (Attempt Upstream)} {b : Books}
    (hending : (sv.relayAttempt caching s a b).ending ≠ .next) (hfails : sv.failsOver a = false)
    {d : RelayItem} {rest : List RelayStep} (hd : d.isDict = true) (hrest : OnlyBytes rest)
    (hsteps : (sv.relayAttempt caching s a b).steps = .item d :: rest)
    (herror : ∀ message code status, d = .error message code status → rest = [])
    (hserved : ∀ backend, d = .headers backend → a.selected = backend) :
    sv.Protocol (sv.relayAll caching s (a :: as) b) (a :: as) := by
  have hitems : (sv.relayAll caching s (a :: as) b).items =
      d :: rest.filterMap RelayStep.item? := by
    rw [sv.relayAll_cons_stop hending, StreamRun.items, filterMap_item?_map, hsteps]
    rfl
  refine ⟨⟨d, _, hitems, hd, hrest.isDict⟩, fun message code status rest' heq ↦ ?_,
    fun backend rest' heq ↦ ?_, ?_⟩
  · obtain ⟨rfl, rfl⟩ := List.cons.inj (hitems.symm.trans heq)
    rw [herror _ _ _ rfl]
    rfl
  · obtain ⟨rfl, -⟩ := List.cons.inj (hitems.symm.trans heq)
    obtain rfl := hserved _ rfl
    refine ⟨⟨a, by simp [hfails], rfl⟩, fun t ht ↦ ?_⟩
    rw [sv.relayAll_cons_stop hending] at ht
    obtain ⟨step, -, rfl⟩ := List.mem_map.1 ht
    rfl
  · rw [sv.relayAll_cons_stop hending]
    simp [hfails]

/-- What the rest of the backends yield, after one that yields nothing. -/
theorem items_cons_next {s : RelayState} {a : Attempt Upstream} {as : List (Attempt Upstream)} {b : Books}
    (hending : (sv.relayAttempt caching s a b).ending = .next)
    (hsteps : (sv.relayAttempt caching s a b).steps = []) :
    (sv.relayAll caching s (a :: as) b).steps =
      (sv.relayAll caching (sv.relayAttempt caching s a b).state as
        (sv.relayAttempt caching s a b).books).steps := by
  rw [sv.relayAll_cons_next hending]
  show (sv.relayAttempt caching s a b).steps.map _ ++ _ = _
  rw [hsteps]
  rfl

theorem failsOver_eq_true_iff {a : Attempt Upstream} :
    sv.failsOver a = true ↔ ∃ error status,
      callProviderStream sv.loads a.answer = [.failed error status true false] := by
  unfold failsOver
  split
  · next error status heq => exact iff_of_true rfl ⟨error, status, heq⟩
  · next hne =>
    refine iff_of_false Bool.false_ne_true ?_
    rintro ⟨error, status, heq⟩
    exact hne error status heq

/-- After a backend that fails over, the protocol is that of the rest. -/
theorem protocol_cons_next_iff {s : RelayState} {a : Attempt Upstream} {as : List (Attempt Upstream)}
    {b : Books} (hending : (sv.relayAttempt caching s a b).ending = .next)
    (hsteps : (sv.relayAttempt caching s a b).steps = []) (hfails : sv.failsOver a = true) :
    sv.Protocol (sv.relayAll caching s (a :: as) b) (a :: as) ↔
      sv.Protocol (sv.relayAll caching (sv.relayAttempt caching s a b).state as
        (sv.relayAttempt caching s a b).books) as := by
  have heq : (sv.relayAll caching s (a :: as) b).steps = _ := sv.items_cons_next hending hsteps
  have hitems : (sv.relayAll caching s (a :: as) b).items =
      (sv.relayAll caching (sv.relayAttempt caching s a b).state as
        (sv.relayAttempt caching s a b).books).items := by
    rw [StreamRun.items, heq, StreamRun.items]
  have htried : (sv.relayAll caching s (a :: as) b).tried = a ::
      (sv.relayAll caching (sv.relayAttempt caching s a b).state as
        (sv.relayAttempt caching s a b).books).tried := by
    rw [sv.relayAll_cons_next hending]
  have hdrop : (a :: as).dropWhile sv.failsOver = as.dropWhile sv.failsOver := by
    rw [List.dropWhile_cons_of_pos hfails]
  constructor
  · rintro ⟨hdict, herror, hserved, htries⟩
    rw [hitems] at hdict herror hserved
    rw [hdrop, heq] at hserved
    rw [htried, hdrop, List.takeWhile_cons_of_pos hfails] at htries
    exact ⟨hdict, herror, hserved, (List.cons.inj htries).2⟩
  · rintro ⟨hdict, herror, hserved, htries⟩
    refine ⟨hitems ▸ hdict, hitems ▸ herror, ?_, ?_⟩
    · rw [hitems, hdrop, heq]
      exact hserved
    · rw [htried, hdrop, List.takeWhile_cons_of_pos hfails, htries]
      rfl

/-- A run that has come to its last backend, and begins with no dict, does not keep the protocol. -/
theorem not_protocol_of_stop {s : RelayState} {a : Attempt Upstream} {as : List (Attempt Upstream)}
    {b : Books} (hending : (sv.relayAttempt caching s a b).ending ≠ .next)
    (hbytes : OnlyBytes (sv.relayAttempt caching s a b).steps) :
    ¬ sv.Protocol (sv.relayAll caching s (a :: as) b) (a :: as) := by
  rintro ⟨⟨d, rest, hitems, hdict, -⟩, -, -, -⟩
  rw [sv.relayAll_cons_stop hending, StreamRun.items, filterMap_item?_map] at hitems
  have hd := hbytes.isDict d (hitems ▸ List.mem_cons_self)
  exact Bool.false_ne_true (hd.symm.trans hdict)

/-- The first backend fails before its first chunk. -/
theorem protocol_failed_iff {s : RelayState} {a : Attempt Upstream} {as : List (Attempt Upstream)}
    {b : Books} (hs : s.committed = false) {error : PyStr} {status : ℕ} {retryable midStream : Bool}
    (hevs : callProviderStream sv.loads a.answer = [.failed error status retryable midStream])
    (ih : ∀ (b' : Books) (s' : RelayState), s'.committed = false →
      (sv.Protocol (sv.relayAll caching s' as b') as ↔ sv.Commits as b')) :
    sv.Protocol (sv.relayAll caching s (a :: as) b) (a :: as) ↔ sv.Commits (a :: as) b := by
  have hrun : sv.relayAttempt caching s a b = _ := sv.relayAttempt_failed hs hevs
  have hcommits : sv.Commits (a :: as) b ↔ midStream = false ∧
      (countsAsFailure status = true → b.CircuitReturns a) ∧
        (retryable = true → sv.Commits as (sv.fail a (some error) status true .next b).1) := by
    refine ⟨fun h ↦ h _ _ _ _ hevs, fun h error' status' retryable' midStream' heq ↦ ?_⟩
    obtain ⟨rfl, rfl, rfl, rfl⟩ :=
      StreamEvent.failed.inj (List.singleton_injective (hevs.symm.trans heq))
    exact h
  have hfails : sv.failsOver a = (!midStream && retryable) := by
    unfold failsOver
    rw [hevs]
    cases midStream <;> cases retryable <;> rfl
  rw [hcommits]
  cases midStream with
  | true =>
    -- an error event comes first, or nothing
    refine iff_of_false (sv.not_protocol_of_stop ?_ ?_) fun h ↦ Bool.false_ne_true h.1.symm
    · rw [hrun]
      exact sv.fail_ne_next (by simp)
    · rw [hrun]
      exact (onlyBytes_byteSteps _).ite _
  | false =>
    have hending := sv.fail_ending a (some error) status true (if retryable then .next else .answered) b
    by_cases hreturns : countsAsFailure status = true → b.CircuitReturns a
    · rw [if_pos hreturns] at hending
      cases retryable with
      | true =>
        have hnext : (sv.relayAttempt caching s a b).ending = .next := by
          rw [hrun]
          exact hending
        have hsteps : (sv.relayAttempt caching s a b).steps = [] := by
          rw [hrun]
          exact if_neg fun h ↦ absurd (hending.symm.trans h) (by simp)
        have hcommitted : (sv.relayAttempt caching s a b).state.committed = false := by
          rw [hrun]
          exact hs
        have hbooks : (sv.relayAttempt caching s a b).books =
            (sv.fail a (some error) status true .next b).1 := by
          rw [hrun]
          rfl
        rw [sv.protocol_cons_next_iff hnext hsteps hfails, ih _ _ hcommitted, hbooks]
        exact ⟨fun h ↦ ⟨rfl, hreturns, fun _ ↦ h⟩, fun h ↦ h.2.2 rfl⟩
      | false =>
        have hanswered : (sv.relayAttempt caching s a b).ending = .answered := by
          rw [hrun]
          exact hending
        have hsteps : (sv.relayAttempt caching s a b).steps =
            [.item (.error (if error = [] then py "Unknown error" else error) (httpCode status)
              (if status = 0 then 502 else status))] := by
          rw [hrun]
          exact if_pos hending
        have hnotHeaders : ∀ backend, RelayItem.error (if error = [] then py "Unknown error" else error)
            (httpCode status) (if status = 0 then 502 else status) = .headers backend →
              a.selected = backend := fun _ h ↦ RelayItem.noConfusion h
        exact iff_of_true (sv.protocol_of_stop (by rw [hanswered]; simp) hfails rfl onlyBytes_nil hsteps
          (fun _ _ _ _ ↦ rfl) hnotHeaders) ⟨rfl, hreturns, fun h ↦ absurd h Bool.false_ne_true⟩
    · rw [if_neg hreturns] at hending
      refine iff_of_false (sv.not_protocol_of_stop ?_ ?_) fun h ↦ hreturns h.2.1
      · rw [hrun]
        exact fun h ↦ absurd (hending.symm.trans h) (by simp)
      · rw [hrun]
        refine fun i hi ↦ absurd hi ?_
        simp [hending]

/-- **When the protocol is kept.** The induction over the backends. -/
theorem protocol_relayAll_iff (as : List (Attempt Upstream)) (b : Books) {s : RelayState}
    (hs : s.committed = false) : sv.Protocol (sv.relayAll caching s as b) as ↔ sv.Commits as b := by
  induction as generalizing b s with
  | nil =>
    refine iff_of_true ⟨?_, ?_, ?_, rfl⟩ trivial <;>
      simp [relayAll, exhaustedSteps, hs, StreamRun.items, RelayStep.item?, RelayItem.isDict]
  | cons a as ih =>
    by_cases hfailed : ∃ error status retryable midStream, callProviderStream sv.loads a.answer =
        [.failed error status retryable midStream]
    · obtain ⟨error, status, retryable, midStream, hevs⟩ := hfailed
      exact sv.protocol_failed_iff hs hevs fun b' s' hs' ↦ ih b' hs'
    · have hfailed' : ∀ error status retryable midStream, callProviderStream sv.loads a.answer ≠
          [.failed error status retryable midStream] := fun _ _ _ _ h ↦ hfailed ⟨_, _, _, _, h⟩
      obtain ⟨⟨rest, hrest, hsteps⟩, hending⟩ := sv.relayAttempt_served caching (b := b) hs hfailed'
      have hfails : sv.failsOver a = false := by
        rw [← Bool.not_eq_true, failsOver_eq_true_iff]
        rintro ⟨error, status, heq⟩
        exact hfailed' _ _ _ _ heq
      refine iff_of_true (sv.protocol_of_stop hending hfails rfl hrest hsteps (fun _ _ _ h ↦ nomatch h)
        fun backend h ↦ RelayItem.headers.inj h) fun error status retryable midStream heq ↦ ?_
      exact absurd heq (hfailed' _ _ _ _)

/-! ### The same choice without streaming -/

/-- A stream and a reply of the same backend at the same time: if one fails so that another backend may be
tried, then so does the other, with the same error. -/
structure SameOutcome (a : Attempt Upstream) (a' : Attempt ProviderReply) : Prop where
  selected : a.selected = a'.selected
  now : a.now = a'.now
  wall : a.wall = a'.wall
  failure : ∀ error status,
    callProviderStream sv.loads a.answer = [.failed error status true false] ↔
      (callProvider sv.loads a'.answer).success = false ∧
        (callProvider sv.loads a'.answer).retryable = true ∧
        (callProvider sv.loads a'.answer).error = some error ∧
        (callProvider sv.loads a'.answer).statusCode = status

theorem SameOutcome.entry {a : Attempt Upstream} {a' : Attempt ProviderReply} (h : sv.SameOutcome a a') :
    a.entry = a'.entry :=
  congrArg SelectedBackend.entry h.selected

/-- The breaker after a failure. -/
theorem fail_breaker {α : Type} (a : Attempt α) (error : Option PyStr) (status : ℕ) (stream : Bool)
    (ending : Ending) (b : Books) :
    (sv.fail a error status stream ending b).1.breaker =
      if countsAsFailure status then
        (b.breaker.recordOutcome a.entry.key false error a.now a.wall).1
      else b.breaker := by
  unfold fail
  cases countsAsFailure status with
  | false => rfl
  | true =>
    simp only [if_true]
    rcases hresult : ((b.recordStat a.entry false).recordOutcome a false error).2 with tripped | -
    · rfl
    · rfl

/-- A stream that does not fail over ends the request. -/
theorem relayAttempt_ne_next {s : RelayState} {a : Attempt Upstream} {b : Books}
    (hs : s.committed = false) (h : sv.failsOver a = false) :
    (sv.relayAttempt caching s a b).ending ≠ .next := by
  by_cases hfailed : ∃ error status retryable midStream, callProviderStream sv.loads a.answer =
      [.failed error status retryable midStream]
  · obtain ⟨error, status, retryable, midStream, hevs⟩ := hfailed
    have hrun : sv.relayAttempt caching s a b = _ := sv.relayAttempt_failed hs hevs
    rw [hrun]
    refine sv.fail_ne_next ?_
    unfold failsOver at h
    rw [hevs] at h
    cases midStream <;> cases retryable <;> simp at h ⊢
  · exact (sv.relayAttempt_served caching hs fun _ _ _ _ heq ↦ hfailed ⟨_, _, _, _, heq⟩).2

theorem chatStreamAttempt_ne_next {a : Attempt Upstream} {b : Books} (h : sv.failsOver a = false) :
    (sv.chatStreamAttempt a b).2 ≠ .next := by
  have hbooks : ((sv.relayAttempt false .init a b).books, (sv.relayAttempt false .init a b).ending) =
      sv.chatStreamAttempt a b := sv.relayAttempt_books .init a b
  rw [← hbooks]
  exact sv.relayAttempt_ne_next rfl h

/-- A reply that is no failure after which another backend may be tried ends the request. -/
theorem plainAttempt_ne_next {row : Entry → ProviderResult → ℕ → Option UsageRow}
    {a : Attempt ProviderReply} {b : Books}
    (h : ¬ ((callProvider sv.loads a.answer).success = false ∧
      (callProvider sv.loads a.answer).retryable = true)) : (sv.plainAttempt row a b).2 ≠ .next := by
  unfold plainAttempt
  cases hsuccess : (callProvider sv.loads a.answer).success with
  | true =>
    simp only [hsuccess, if_true]
    unfold succeed
    rcases row a.entry (callProvider sv.loads a.answer) a.latency with - | r <;> simp
  | false =>
    have hretryable : (callProvider sv.loads a.answer).retryable = false := by
      simpa [hsuccess] using h
    simp only [hsuccess, hretryable, Bool.false_eq_true, if_false]
    rw [fail_ending]
    split_ifs <;> simp

/-- A failed reply has an error. -/
theorem error_of_failure {reply : ProviderReply} (h : (callProvider sv.loads reply).success = false) :
    ∃ error, (callProvider sv.loads reply).error = some error := by
  rcases reply with ⟨status, body, text⟩ | error
  · by_cases hstatus : status = 200
    · simp [callProvider, hstatus] at h
    · simp [callProvider, hstatus]
  · exact ⟨_, rfl⟩

/-- **The choice is that of `handle_request`** for the same outcomes. -/
theorem tried_agree {as : List (Attempt Upstream)} {as' : List (Attempt ProviderReply)}
    (h : List.Forall₂ sv.SameOutcome as as') {b b' : Books} (hb : b.breaker = b'.breaker) :
    (sv.handleRequestStream as b).2.map Attempt.selected =
      (sv.handleRequest as' b').2.map Attempt.selected := by
  induction h generalizing b b' with
  | nil => rfl
  | @cons a a' as as' ha _ ih =>
    have hreturns : b.CircuitReturns a ↔ b'.CircuitReturns a' := by
      unfold Books.CircuitReturns
      rw [hb, ha.entry, ha.now]
    -- both loops stop at this attempt, or both go on with the same breaker
    let plain := sv.plain sv.chatReply isSuccessRow_chatReply
    have hstop : (sv.chatStreamAttempt a b).2 ≠ .next →
        (sv.plainAttempt sv.chatReply a' b').2 ≠ .next →
          (sv.handleRequestStream (a :: as) b).2.map Attempt.selected =
            (sv.handleRequest (a' :: as') b').2.map Attempt.selected := fun hne hne' ↦ by
      have hstream : sv.handleRequestStream (a :: as) b = _ := sv.chatStream.tryAll_cons_stop hne
      have hreply : sv.handleRequest (a' :: as') b' = _ := plain.tryAll_cons_stop hne'
      rw [hstream, hreply]
      exact congrArg (fun x ↦ [x]) ha.selected
    cases hfails : sv.failsOver a with
    | false =>
      refine hstop (sv.chatStreamAttempt_ne_next hfails) (sv.plainAttempt_ne_next ?_)
      rintro ⟨hsuccess, hretryable⟩
      obtain ⟨error, herror⟩ := sv.error_of_failure hsuccess
      have hover := (sv.failsOver_eq_true_iff (a := a)).2
        ⟨error, _, (ha.failure error _).2 ⟨hsuccess, hretryable, herror, rfl⟩⟩
      exact Bool.false_ne_true (hfails.symm.trans hover)
    | true =>
      obtain ⟨error, status, hevs⟩ := sv.failsOver_eq_true_iff.1 hfails
      obtain ⟨hsuccess, hretryable, herror, hstatus⟩ := (ha.failure error status).1 hevs
      have hattempt : sv.chatStreamAttempt a b = sv.fail a (some error) status true .next b := by
        rw [chatStreamAttempt, hevs]
        rfl
      have hattempt' : sv.plainAttempt sv.chatReply a' b' =
          sv.fail a' (some error) status false .next b' := by
        unfold plainAttempt
        simp only [hsuccess, hretryable, herror, hstatus, Bool.false_eq_true, if_false, if_true]
      have hending := sv.fail_ending a (some error) status true .next b
      have hending' := sv.fail_ending a' (some error) status false .next b'
      -- recording the failure may raise, and does on both sides or on neither
      by_cases hret : countsAsFailure status = true → b.CircuitReturns a
      · rw [if_pos hret] at hending
        rw [if_pos fun hcounts ↦ hreturns.1 (hret hcounts)] at hending'
        have hbreaker : (sv.chatStreamAttempt a b).1.breaker =
            (sv.plainAttempt sv.chatReply a' b').1.breaker := by
          rw [hattempt, hattempt', fail_breaker, fail_breaker, hb, ha.entry, ha.now, ha.wall]
        have hstream : sv.handleRequestStream (a :: as) b = _ :=
          sv.chatStream.tryAll_cons_next ((congrArg Prod.snd hattempt).trans hending)
        have hreply : sv.handleRequest (a' :: as') b' = _ :=
          plain.tryAll_cons_next ((congrArg Prod.snd hattempt').trans hending')
        rw [hstream, hreply]
        exact congrArg₂ List.cons ha.selected (ih hbreaker)
      · rw [if_neg hret] at hending
        rw [if_neg fun h ↦ hret fun hcounts ↦ hreturns.2 (h hcounts)] at hending'
        refine hstop ?_ ?_
        · rw [hattempt, hending]
          simp
        · rw [hattempt', hending']
          simp

/-- The generator keeps the protocol, and serves the request from the backend that `handle_request` would
choose for the same outcomes. -/
structure KeepsProtocol (caching : Bool) (as : List (Attempt Upstream)) (b : Books) : Prop where
  protocol : sv.Protocol (sv.streamRun caching as b) as
  agrees : ∀ as', List.Forall₂ sv.SameOutcome as as' →
    (sv.streamRun caching as b).tried.map Attempt.selected =
      (sv.handleRequest as' b).2.map Attempt.selected

/-- **The generator keeps its protocol if and only if** the first backend that does not fail over does not
fail in mid-stream before it has sent a chunk, and the circuit breaker takes all failures before that. -/
theorem keepsProtocol_iff (caching : Bool) (as : List (Attempt Upstream)) (b : Books) :
    sv.KeepsProtocol caching as b ↔ sv.Commits as b := by
  have hiff : sv.Protocol (sv.streamRun caching as b) as ↔ sv.Commits as b :=
    sv.protocol_relayAll_iff as b rfl
  rw [← hiff]
  refine ⟨KeepsProtocol.protocol, fun h ↦ ⟨h, fun as' hsame ↦ ?_⟩⟩
  have hbooks : (_, (sv.streamRun caching as b).tried) = sv.handleRequestStream as b :=
    sv.relayAll_books as b .init
  rw [← sv.tried_agree hsame rfl, ← hbooks]

end Protocol

/-- A text whose object has a number where the gateway expects content with a length. -/
def numberText : PyStr :=
  py "\x7b\"choices\":[\x7b\"delta\":\x7b\"content\":1\x7d\x7d]\x7d"

/-- Its object. -/
def numberObject : Json :=
  .obj [(py "choices", .arr [.obj [(py "delta", .obj [(py "content", .int 1)])]])]

/-- **No dict comes first.** The first chunk is received, reading it raises, and the failure counts as one in
mid-stream although nothing has been passed on. -/
theorem not_keepsProtocol_number :
    ¬ (pricedService numberText numberObject).KeepsProtocol false
      [{ cutStream with answer := .streamed [eventBytes numberText] .eof }] .empty := by
  rintro ⟨⟨⟨d, rest, hitems, hdict, -⟩, -, -, -⟩, -⟩
  have hfirst : ((pricedService numberText numberObject).streamRun false
      [{ cutStream with answer := .streamed [eventBytes numberText] .eof }] .empty).items.head?.any
        RelayItem.isDict = false := by decide +kernel
  rw [hitems, List.head?_cons, Option.any_some, hdict] at hfirst
  cases hfirst

end Service

end LocalGateway
