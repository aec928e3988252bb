import LocalGateway.Stream.Failure

/-!
# The answer of the Responses API

What a client of `create_response` gets when it asks for a stream: the status, the backend that the headers name and the
bytes of the body, over any backends and whatever they send.

* `createResponse`: what becomes of the items of `_responses_stream_gen`.
* `responsesAnswer`: the answer, in terms of what the backends send.
* `responsesRelay_append`: the loop over the events, chunk by chunk.
* `responses_exact`: the answer is that one, or an exception before anything is sent.
* `bytes_passedOn`: the body of a stream that is over, in terms of the bytes that were received.
-/

namespace LocalGateway

open Py Json

/-! ### The endpoint -/

/-- What `create_response` answers. -/
inductive StreamAnswer
  /-- A JSON body with an error. -/
  | error (message code : PyStr) (status : ℕ)
  /-- A stream, with the headers of a backend or without. -/
  | stream (backend : Option SelectedBackend) (body : PyBytes)

/-- What `byte_stream` passes on of an item: nothing, if it is not bytes. -/
def RelayItem.passed : RelayItem → PyBytes
  | .bytes data => data
  | _ => []

/-- What `byte_stream` passes on. -/
def bodyOf (items : List RelayItem) : PyBytes :=
  items.flatMap RelayItem.passed

/-- `create_response`, from the first item of the generator on. The first item is not sent, whatever it is; without one
there is an exception. -/
def createResponse : List RelayItem → Option StreamAnswer
  | [] => none
  | .error message code status :: _ => some (.error message code status)
  | .headers backend :: rest => some (.stream (some backend) (bodyOf rest))
  | .cached :: rest | .bytes _ :: rest => some (.stream none (bodyOf rest))

/-- The bytes of an event, if it has any. -/
def StreamEvent.chunk? : StreamEvent → Option PyBytes
  | .chunk data => some data
  | _ => none

namespace Service

variable (sv : Service)

/-- The chunks of a backend. -/
def chunksOf (a : Attempt Upstream) : List PyBytes :=
  (callProviderStream sv.loads a.answer).filterMap StreamEvent.chunk?

/-- The answer from a backend with which the request ends. -/
def answerFrom (a : Attempt Upstream) : StreamAnswer :=
  match (callProviderStream sv.loads a.answer).getLast? with
  | some (.failed error status _ midStream) =>
    if midStream then
      if sv.chunksOf a = [] then .stream none []
      else .stream (some a.selected) ((sv.chunksOf a).flatten ++ errorSse sv.repr error (py "stream_error"))
    else
      .error (if error = [] then py "Unknown error" else error) (httpCode status) (if status = 0 then 502 else status)
  | _ => .stream (some a.selected) (sv.chunksOf a).flatten

/-- The text of a failure after which another backend is tried. -/
def failoverError (a : Attempt Upstream) : Option PyStr :=
  match callProviderStream sv.loads a.answer with
  | [.failed error _ true false] => some (attemptError a.entry error)
  | _ => none

/-- The answer: that of the first backend that does not leave it to another, or else the last error. -/
def responsesAnswer (errors : List PyStr) (as : List (Attempt Upstream)) : StreamAnswer :=
  match (as.dropWhile sv.failsOver).head? with
  | some a => sv.answerFrom a
  | none => .error ((errors ++ as.filterMap sv.failoverError).getLast?.getD (py "All backends failed"))
      (py "all_backends_failed") 502

/-! ### One backend -/

/-- **The loop over the events**: the chunks as they came, and what the event at their end adds. -/
theorem responsesRelay_append (a : Attempt Upstream) (b : Books) (cs : List PyBytes) (ev : StreamEvent) (s : RelayState)
    (t : ResponsesUsageTracker) :
    let s' := if cs = [] then s else s.commit
    let last := sv.responsesRelay a b s' (cs.foldl (fun t c ↦ t.feed sv.loads c) t) [ev]
    sv.responsesRelay a b s t (cs.map .chunk ++ [ev]) =
      { last with steps := (if cs = [] then [] else s.commitSteps a.selected) ++ byteSteps cs ++ last.steps } := by
  induction cs generalizing s t with
  | nil => rfl
  | cons data cs ih =>
    have hcommit : (if cs = [] then s.commit else s.commit.commit) = s.commit := by split_ifs <;> rfl
    have hsteps : (if cs = [] then [] else s.commit.commitSteps a.selected) = [] := by split_ifs <;> rfl
    rw [List.map_cons, List.cons_append, responsesRelay, ih, hcommit, hsteps, if_neg (List.cons_ne_nil _ _),
      if_neg (List.cons_ne_nil _ _), List.foldl_cons]
    simp only [byteSteps, List.map_cons, List.map_nil, List.nil_append, List.cons_append, List.append_assoc]

/-- The items of steps that yield bytes. -/
theorem item?_byteSteps (outs : List PyBytes) :
    (byteSteps outs).filterMap RelayStep.item? = outs.map .bytes := by
  rw [byteSteps, List.filterMap_map]
  exact congrFun List.filterMap_eq_map outs

theorem bodyOf_bytes (outs : List PyBytes) : bodyOf (outs.map .bytes) = outs.flatten := by
  rw [bodyOf, List.flatMap_map]
  exact List.flatMap_id' ..

/-- The steps of a stream that has begun. -/
theorem item?_begun (backend : SelectedBackend) (outs : List PyBytes) :
    ([RelayStep.item (.headers backend)] ++ byteSteps outs).filterMap RelayStep.item? =
      .headers backend :: outs.map .bytes := by
  rw [List.filterMap_append, item?_byteSteps]
  rfl

theorem createResponse_begun (backend : SelectedBackend) (outs : List PyBytes) :
    createResponse (.headers backend :: outs.map .bytes) = some (.stream (some backend) outs.flatten) := by
  rw [createResponse, bodyOf_bytes]

section Attempt

variable {s : RelayState} {a : Attempt Upstream} {b : Books}

/-- A stream that begins with a chunk. -/
theorem responsesAttempt_begun (hs : s.committed = false) {cs : List PyBytes} {ev : StreamEvent} (hcs : cs ≠ [])
    (hev : ev.Ends) (hmid : ∀ error status retryable midStream, ev = .failed error status retryable midStream →
      midStream = true) (hshape : callProviderStream sv.loads a.answer = cs.map .chunk ++ [ev]) :
    let run := sv.responsesAttempt s a b
    run.ending ≠ .next ∧ createResponse (run.steps.filterMap RelayStep.item?) = some (sv.answerFrom a) := by
  have hlast : (callProviderStream sv.loads a.answer).getLast? = some ev := by rw [hshape, List.getLast?_concat]
  have hchunks (hnone : ev.chunk? = none) : sv.chunksOf a = cs := by
    rw [chunksOf, hshape, List.filterMap_append, List.filterMap_map, List.filterMap_cons_none hnone, List.filterMap_nil,
      List.append_nil]
    exact List.filterMap_some
  have hrun := sv.responsesRelay_append a b cs ev s .init
  rw [if_neg hcs, if_neg hcs, RelayState.commitSteps, if_neg (by rw [hs]; exact Bool.false_ne_true)] at hrun
  rw [responsesAttempt, hshape, hrun]
  rcases ev with data | ⟨usage, sent⟩ | ⟨error, status, retryable, midStream⟩
  · exact absurd hev id
  · -- whether the success is recorded or not, nothing more is yielded
    rw [answerFrom, hlast, hchunks rfl, responsesRelay]
    dsimp only
    split_ifs with hanswered
    · refine ⟨succeed_ne_next, ?_⟩
      have hsteps : s.commit.commitSteps a.selected = [] := rfl
      rw [hsteps, List.append_nil, item?_begun, createResponse_begun]
    · refine ⟨succeed_ne_next, ?_⟩
      rw [List.append_nil, item?_begun, createResponse_begun]
  · obtain rfl := hmid error status retryable midStream rfl
    rw [answerFrom, hlast, hchunks rfl, responsesRelay, if_pos rfl]
    refine ⟨by simp, ?_⟩
    have hbytes : byteSteps cs ++ byteSteps [errorSse sv.repr error (py "stream_error")] =
        byteSteps (cs ++ [errorSse sv.repr error (py "stream_error")]) := List.map_append.symm
    dsimp only
    rw [List.append_assoc, hbytes, item?_begun, createResponse_begun, List.flatten_append, List.flatten_singleton,
      if_pos rfl, if_neg hcs]

/-- A stream that is over before it has begun. -/
theorem responsesAttempt_empty (hs : s.committed = false) {usage : StreamUsage} {sent : Bool}
    (hshape : callProviderStream sv.loads a.answer = [.done usage sent]) :
    let run := sv.responsesAttempt s a b
    run.ending ≠ .next ∧
      (createResponse (run.steps.filterMap RelayStep.item?) = some (sv.answerFrom a) ∨
        run.ending = .raised ∧ run.steps = []) := by
  have hanswer : sv.answerFrom a = .stream (some a.selected) [] := by
    rw [answerFrom, chunksOf, hshape]
    rfl
  rw [responsesAttempt, hshape, responsesRelay, hanswer]
  dsimp only
  split_ifs with hanswered
  · refine ⟨succeed_ne_next, .inl ?_⟩
    rw [RelayState.commitSteps, hs, if_neg Bool.false_ne_true]
    rfl
  · refine ⟨succeed_ne_next, .inr ⟨?_, rfl⟩⟩
    generalize hr : (succeed a _ b).2 = ending at hanswered
    have hne : ending ≠ .next := hr ▸ succeed_ne_next
    cases ending with
    | answered => exact absurd rfl hanswered
    | next => exact absurd rfl hne
    | raised => rfl

/-- A stream that fails before its first chunk. -/
theorem responsesAttempt_failed {error : PyStr} {status : ℕ} {retryable midStream : Bool}
    (hshape : callProviderStream sv.loads a.answer = [.failed error status retryable midStream]) :
    sv.responsesAttempt s a b =
      if midStream then ⟨byteSteps [errorSse sv.repr error (py "stream_error")], s, b, .answered⟩
      else
        let r := sv.fail a (some error) status true (if retryable then .next else .answered) b
        ⟨if r.2 = .answered then sv.responsesFailureSteps s.committed error status else [],
          { s with errors := s.errors ++ [attemptError a.entry error] }, r.1, r.2⟩ := by
  rw [responsesAttempt, hshape, responsesRelay]

/-- **A backend with which the request ends** yields its answer, unless an exception comes first. -/
theorem responsesAttempt_stops (hs : s.committed = false) (hfails : sv.failsOver a = false) :
    let run := sv.responsesAttempt s a b
    run.ending ≠ .next ∧
      (createResponse (run.steps.filterMap RelayStep.item?) = some (sv.answerFrom a) ∨
        run.ending = .raised ∧ run.steps = []) := by
  rcases callProviderStream_cases sv.loads a.answer with ⟨cs, ev, hcs, hev, hmid, hshape⟩ | ⟨usage, sent, hshape⟩ |
    ⟨error, status, retryable, midStream, hshape⟩
  · obtain ⟨hnext, hanswer⟩ := sv.responsesAttempt_begun hs hcs hev hmid hshape (b := b)
    exact ⟨hnext, .inl hanswer⟩
  · exact sv.responsesAttempt_empty hs hshape
  · have hanswer : sv.answerFrom a = if midStream then .stream none [] else
        .error (if error = [] then py "Unknown error" else error) (httpCode status)
          (if status = 0 then 502 else status) := by
      have hchunks : sv.chunksOf a = [] := by
        rw [chunksOf, hshape]
        rfl
      rw [answerFrom, hshape, hchunks]
      rfl
    rw [sv.responsesAttempt_failed hshape, hanswer]
    cases midStream with
    | true => exact ⟨by simp, .inl rfl⟩
    | false =>
      -- it does not fail over, so that the failure is the answer
      obtain rfl : retryable = false := by
        rw [failsOver, hshape] at hfails
        cases retryable with
        | false => rfl
        | true => cases hfails
      have hending := sv.fail_ending a (some error) status true .answered b
      simp only [Bool.false_eq_true, if_false, hs]
      generalize sv.fail a (some error) status true .answered b = r at hending
      split_ifs at hending with hreturns
      · rw [if_pos hending]
        refine ⟨by rw [hending]; simp, .inl ?_⟩
        rw [responsesFailureSteps, if_neg Bool.false_ne_true]
        rfl
      · rw [hending]
        exact ⟨by simp, .inr ⟨rfl, if_neg (by simp)⟩⟩

/-- A backend that leaves the request to the next one yields nothing. -/
theorem responsesAttempt_next (hfails : sv.failsOver a = true) :
    let run := sv.responsesAttempt s a b
    run.steps = [] ∧ (run.ending = .next ∨ run.ending = .raised) ∧ run.state.committed = s.committed ∧
      run.state.errors = s.errors ++ (sv.failoverError a).toList := by
  obtain ⟨error, status, hshape⟩ := sv.failsOver_eq_true_iff.1 hfails
  have herror : sv.failoverError a = some (attemptError a.entry error) := by rw [failoverError, hshape]
  have hending := sv.fail_ending a (some error) status true .next b
  rw [sv.responsesAttempt_failed hshape, herror]
  simp only [Bool.false_eq_true, if_false, if_true]
  generalize sv.fail a (some error) status true .next b = r at hending
  have hne : r.2 ≠ .answered := by
    rw [hending]
    split_ifs <;> simp
  refine ⟨if_neg hne, ?_, trivial, rfl⟩
  rw [hending]
  split_ifs
  · exact .inl rfl
  · exact .inr rfl

end Attempt

/-! ### The request -/

/-- **What the client gets.** Over any backends: either the answer is `responsesAnswer`, the backends that were tried are
those that left the request to the next one and the one that did not, and an exception can come after it only; or there
is an exception before anything is sent, while the failure of one of these is recorded. -/
theorem responsesAll_answer (as : List (Attempt Upstream)) (b : Books) {s : RelayState} (hs : s.committed = false) :
    let run := sv.responsesAll s as b
    (createResponse run.items = some (sv.responsesAnswer s.errors as) ∧
        run.tried = as.takeWhile sv.failsOver ++ (as.dropWhile sv.failsOver).take 1) ∨
      run.raised = true ∧ run.items = [] ∧
        run.tried <+: as.takeWhile sv.failsOver ++ (as.dropWhile sv.failsOver).take 1 := by
  induction as generalizing b s with
  | nil =>
    refine .inl ⟨?_, rfl⟩
    rw [responsesAll, responsesExhaustedSteps, if_neg (by rw [hs]; exact Bool.false_ne_true), responsesAnswer,
      List.filterMap_nil, List.append_nil]
    rfl
  | cons a as ih =>
    rcases hfails : sv.failsOver a with - | -
    · obtain ⟨hnext, hitems⟩ := sv.responsesAttempt_stops (b := b) hs hfails
      have hanswer : sv.responsesAnswer s.errors (a :: as) = sv.answerFrom a := by
        rw [responsesAnswer, List.dropWhile_cons_of_neg (by rw [hfails]; exact Bool.false_ne_true)]
        rfl
      have htried : (a :: as).takeWhile sv.failsOver ++ ((a :: as).dropWhile sv.failsOver).take 1 = [a] := by
        rw [List.takeWhile_cons_of_neg (by rw [hfails]; exact Bool.false_ne_true),
          List.dropWhile_cons_of_neg (by rw [hfails]; exact Bool.false_ne_true)]
        rfl
      rw [responsesAll_cons_stop sv hnext, hanswer, htried]
      dsimp only
      rw [StreamRun.items, filterMap_item?_map]
      rcases hitems with hitems | ⟨hraised, hsteps⟩
      · exact .inl ⟨hitems, rfl⟩
      · refine .inr ⟨decide_eq_true hraised, ?_, List.prefix_rfl⟩
        rw [hsteps, List.filterMap_nil]
    · obtain ⟨hsteps, hending, hcommitted, herrors⟩ := sv.responsesAttempt_next (s := s) (b := b) hfails
      have htried : (a :: as).takeWhile sv.failsOver ++ ((a :: as).dropWhile sv.failsOver).take 1 =
          a :: (as.takeWhile sv.failsOver ++ (as.dropWhile sv.failsOver).take 1) := by
        rw [List.takeWhile_cons_of_pos hfails, List.dropWhile_cons_of_pos hfails, List.cons_append]
      rw [htried]
      rcases hending with hending | hending
      · -- the rest of the backends, with one error more
        have hanswer : sv.responsesAnswer s.errors (a :: as) =
            sv.responsesAnswer (sv.responsesAttempt s a b).state.errors as := by
          have hcons : (a :: as).filterMap sv.failoverError =
              (sv.failoverError a).toList ++ as.filterMap sv.failoverError := by
            rcases herror : sv.failoverError a with - | error <;> simp [herror]
          rw [responsesAnswer, responsesAnswer, List.dropWhile_cons_of_pos hfails, herrors, List.append_assoc, hcons]
        rw [responsesAll_cons_next sv hending, hanswer]
        dsimp only
        rw [StreamRun.items, hsteps, List.map_nil, List.nil_append]
        rcases ih (sv.responsesAttempt s a b).books (hcommitted.trans hs) with ⟨hitems, hrest⟩ | ⟨hraised, hitems, hrest⟩
        · exact .inl ⟨hitems, congrArg (a :: ·) hrest⟩
        · exact .inr ⟨hraised, hitems, List.cons_prefix_cons.2 ⟨rfl, hrest⟩⟩
      · have hstop : (sv.responsesAttempt s a b).ending ≠ .next := by
          rw [hending]
          simp
        rw [responsesAll_cons_stop sv hstop]
        dsimp only
        rw [StreamRun.items, filterMap_item?_map, hsteps]
        exact .inr ⟨decide_eq_true hending, rfl, List.cons_prefix_cons.2 ⟨rfl, List.nil_prefix⟩⟩

/-! ### The bytes of the body -/

/-- The bytes that are passed on are those that were received, and what was left over of an event once more. -/
theorem flatten_passedOn (chunks : List PyBytes) : (passedOn chunks .eof).flatten =
    chunks.flatten ++ ((SSEParser.feedAll .init chunks).2.flush.1.toList.map renderEvent).flatten := by
  have hnonempty : (chunks.filter (· ≠ [])).flatten = chunks.flatten := flatten_nonempty chunks
  rw [passedOn, List.flatten_append, hnonempty]

end Service

end LocalGateway
