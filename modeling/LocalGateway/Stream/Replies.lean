import LocalGateway.Stream.Relay

/-!
# Answers that are not streamed

What a client gets that asks chat, the Responses API or the embeddings for a whole reply. The three loops over the
backends differ in the row that they log, and in what they make of the body.

* `Service.replyAll`: such a loop, with its answer; `replyAll_books` says that it keeps the books of `tryAll`.
* `Service.replyAnswer`: the answer, in terms of what the backends reply.
* `replies_exact`: the answer is that one, on all three paths, or an exception.
-/

namespace LocalGateway

open Py Json

/-- What a client gets. -/
inductive PlainAnswer
  /-- Status 200, with the headers of a backend. -/
  | served (backend : SelectedBackend) (body : PyBytes)
  /-- A JSON body with an error. -/
  | error (message code : PyStr) (status : ℕ)

/-- Where a whole reply can be asked for. -/
inductive PlainEndpoint
  | chat
  | responses
  | embeddings

/-- What a loop makes of a reply: the body that is sent, and the row that is logged. Without a body there is no row. -/
structure ReplyPath where
  body : Entry → PyBytes → Option PyBytes
  row : Entry → ProviderResult → ℕ → Option UsageRow
  isSome_body : ∀ {e r n}, (row e r n).isSome = true → (body e r.body).isSome = true

/-- What is left of a loop over the backends: the answer, unless there is an exception. -/
structure PlainRun where
  answer : Option PlainAnswer
  books : Books
  tried : List (Attempt ProviderReply)

namespace Service

variable (sv : Service)

/-! ### The loops -/

/-- `handle_request`, which rewrites the body. -/
def chatPath : ReplyPath where
  body := sv.relayBody
  row := sv.chatReply
  isSome_body {e r n} h := by
    obtain ⟨row, hrow⟩ := Option.isSome_iff_exists.1 h
    obtain ⟨body, hbody, -⟩ := Option.bind_eq_some_iff.1 hrow
    exact Option.isSome_iff_exists.2 ⟨body, hbody⟩

/-- `_handle_responses_nonstream`. -/
def responsesPath : ReplyPath where
  body _ body := some body
  row := sv.responsesReply
  isSome_body _ := rfl

/-- `create_embeddings`. -/
def embeddingsPath : ReplyPath where
  body _ body := some body
  row := sv.embeddingsReply
  isSome_body _ := rfl

/-- The loop of an endpoint. -/
def replyPath : PlainEndpoint → ReplyPath
  | .chat => sv.chatPath
  | .responses => sv.responsesPath
  | .embeddings => sv.embeddingsPath

/-- The text of a failed attempt in the list of errors. -/
def replyError (a : Attempt ProviderReply) : PyStr :=
  attemptError a.entry ((callProvider sv.loads a.answer).error.getD (py "None"))

/-- The error when no backend is left. -/
def exhausted (errors : List PyStr) : PlainAnswer :=
  .error (py "All backends failed for model '" ++ sv.logicalModel ++ py "'. Errors: " ++ (py "; ").intercalate errors)
    (py "all_backends_failed") 502

/-- The answer from a backend. -/
def answerOf (p : ReplyPath) (a : Attempt ProviderReply) : Option PlainAnswer :=
  let r := callProvider sv.loads a.answer
  if r.success then (p.body a.entry r.body).map (.served a.selected)
  else
    let message := r.error.getD []
    some (.error (if message = [] then py "Unknown error" else message) (httpCode r.statusCode)
      (if r.statusCode = 0 then 502 else r.statusCode))

/-- The loop over the backends. -/
def replyAll (p : ReplyPath) (errors : List PyStr) : List (Attempt ProviderReply) → Books → PlainRun
  | [], b => ⟨some (sv.exhausted errors), b, []⟩
  | a :: as, b =>
    match sv.plainAttempt p.row a b with
    | (b, .next) =>
      let run := replyAll p (errors ++ [sv.replyError a]) as b
      { run with tried := a :: run.tried }
    | (b, .answered) => ⟨sv.answerOf p a, b, [a]⟩
    | (b, .raised) => ⟨none, b, [a]⟩

/-! ### The answer -/

/-- The request is left to the next backend. -/
def replyFailsOver (a : Attempt ProviderReply) : Bool :=
  !(callProvider sv.loads a.answer).success && (callProvider sv.loads a.answer).retryable

/-- The answer: that of the first backend that does not leave it to another, or else all the errors. -/
def replyAnswer (p : ReplyPath) (errors : List PyStr) (as : List (Attempt ProviderReply)) : Option PlainAnswer :=
  match (as.dropWhile sv.replyFailsOver).head? with
  | some a => sv.answerOf p a
  | none => some (sv.exhausted (errors ++ as.map sv.replyError))

/-- The backends that are tried. -/
def replyTried (as : List (Attempt ProviderReply)) : List (Attempt ProviderReply) :=
  as.takeWhile sv.replyFailsOver ++ (as.dropWhile sv.replyFailsOver).take 1

/-! ### One backend -/

section Attempt

/-- **How an attempt ends**, unless it raises. -/
theorem plainAttempt_ending (p : ReplyPath) (a : Attempt ProviderReply) (b : Books) :
    (sv.plainAttempt p.row a b).2 = .raised ∨
      (sv.plainAttempt p.row a b).2 = if sv.replyFailsOver a then .next else .answered := by
  unfold plainAttempt replyFailsOver
  cases hsuccess : (callProvider sv.loads a.answer).success with
  | true =>
    simp only [hsuccess, if_true, Bool.not_true, Bool.false_and, Bool.false_eq_true, if_false]
    unfold succeed
    rcases p.row a.entry (callProvider sv.loads a.answer) a.latency with - | row
    · exact .inl rfl
    · exact .inr rfl
  | false =>
    simp only [hsuccess, Bool.false_eq_true, if_false, Bool.not_false, Bool.true_and, fail_ending]
    by_cases hreturns : countsAsFailure (callProvider sv.loads a.answer).statusCode = true → b.CircuitReturns a
    · exact .inr (if_pos hreturns)
    · exact .inl (if_neg hreturns)

variable {sv} {p : ReplyPath} {errors : List PyStr} {a : Attempt ProviderReply} {as : List (Attempt ProviderReply)}
  {b : Books}

/-- A backend that answers has a body to answer with. -/
theorem isSome_answerOf (h : (sv.plainAttempt p.row a b).2 = .answered) : (sv.answerOf p a).isSome = true := by
  unfold plainAttempt at h
  unfold answerOf
  cases hsuccess : (callProvider sv.loads a.answer).success with
  | true =>
    simp only [hsuccess, if_true] at h ⊢
    rw [Option.isSome_map]
    refine p.isSome_body (n := a.latency) ?_
    unfold succeed at h
    generalize p.row a.entry (callProvider sv.loads a.answer) a.latency = row at h
    cases row with
    | none => exact absurd h nofun
    | some row => rfl
  | false => simp only [hsuccess, Bool.false_eq_true, if_false, Option.isSome_some]

theorem replyAll_cons_next (h : (sv.plainAttempt p.row a b).2 = .next) :
    sv.replyAll p errors (a :: as) b =
      { sv.replyAll p (errors ++ [sv.replyError a]) as (sv.plainAttempt p.row a b).1 with
        tried := a :: (sv.replyAll p (errors ++ [sv.replyError a]) as (sv.plainAttempt p.row a b).1).tried } := by
  rcases hattempt : sv.plainAttempt p.row a b with ⟨b', ending⟩
  obtain rfl : ending = .next := by rwa [hattempt] at h
  rw [replyAll, hattempt]

theorem replyAll_cons_answered (h : (sv.plainAttempt p.row a b).2 = .answered) :
    sv.replyAll p errors (a :: as) b = ⟨sv.answerOf p a, (sv.plainAttempt p.row a b).1, [a]⟩ := by
  rcases hattempt : sv.plainAttempt p.row a b with ⟨b', ending⟩
  obtain rfl : ending = .answered := by rwa [hattempt] at h
  rw [replyAll, hattempt]

theorem replyAll_cons_raised (h : (sv.plainAttempt p.row a b).2 = .raised) :
    sv.replyAll p errors (a :: as) b = ⟨none, (sv.plainAttempt p.row a b).1, [a]⟩ := by
  rcases hattempt : sv.plainAttempt p.row a b with ⟨b', ending⟩
  obtain rfl : ending = .raised := by rwa [hattempt] at h
  rw [replyAll, hattempt]

end Attempt

/-! ### The request -/

section Request

/-- **The loop keeps the books** of the accounts. -/
theorem replyAll_books (p : ReplyPath) (errors : List PyStr) (as : List (Attempt ProviderReply)) (b : Books) :
    ((sv.replyAll p errors as b).books, (sv.replyAll p errors as b).tried) = tryAll (sv.plainAttempt p.row) as b := by
  induction as generalizing errors b with
  | nil => rfl
  | cons a as ih =>
    rcases hattempt : sv.plainAttempt p.row a b with ⟨b', ending⟩
    cases ending with
    | answered => rw [replyAll, tryAll, hattempt]
    | raised => rw [replyAll, tryAll, hattempt]
    | next =>
      rw [replyAll, tryAll, hattempt]
      dsimp only
      rw [← ih (errors ++ [sv.replyError a]) b']

/-- **What the client gets**, unless an attempt raises. -/
theorem replyAll_answer (p : ReplyPath) (errors : List PyStr) (as : List (Attempt ProviderReply)) (b : Books) :
    let run := sv.replyAll p errors as b
    (run.answer.isSome = true ∧ run.answer = sv.replyAnswer p errors as ∧ run.tried = sv.replyTried as) ∨
      run.answer = none ∧ run.tried <+: sv.replyTried as ∧
        ∃ a b', run.tried.getLast? = some a ∧ (sv.plainAttempt p.row a b').2 = .raised := by
  induction as generalizing errors b with
  | nil => exact .inl ⟨rfl, by rw [replyAnswer, List.map_nil, List.append_nil]; rfl, rfl⟩
  | cons a as ih =>
    have htried : sv.replyTried (a :: as) = a :: if sv.replyFailsOver a then sv.replyTried as else [] := by
      unfold replyTried
      rcases hfails : sv.replyFailsOver a with - | - <;> simp [hfails]
    rcases sv.plainAttempt_ending p a b with hraised | hending
    · rw [replyAll_cons_raised hraised, htried]
      exact .inr ⟨rfl, List.cons_prefix_cons.2 ⟨rfl, List.nil_prefix⟩, a, b, rfl, hraised⟩
    rcases hfails : sv.replyFailsOver a with - | -
    · rw [hfails, if_neg Bool.false_ne_true] at hending
      rw [replyAll_cons_answered hending, htried, hfails, if_neg Bool.false_ne_true]
      refine .inl ⟨isSome_answerOf hending, ?_, rfl⟩
      rw [replyAnswer, List.dropWhile_cons_of_neg (by rw [hfails]; exact Bool.false_ne_true)]
      rfl
    · rw [hfails, if_pos rfl] at hending
      have hanswer : sv.replyAnswer p errors (a :: as) = sv.replyAnswer p (errors ++ [sv.replyError a]) as := by
        rw [replyAnswer, replyAnswer, List.dropWhile_cons_of_pos hfails, List.append_assoc]
        rfl
      rw [replyAll_cons_next hending, htried, hfails, if_pos rfl, hanswer]
      rcases ih (errors ++ [sv.replyError a]) (sv.plainAttempt p.row a b).1 with ⟨hsome, heq, hrest⟩ |
        ⟨hnone, hpre, c, b', hlast, hraised⟩
      · exact .inl ⟨hsome, heq, congrArg (a :: ·) hrest⟩
      · refine .inr ⟨hnone, List.cons_prefix_cons.2 ⟨rfl, hpre⟩, c, b', ?_, hraised⟩
        exact List.getLast?_cons.trans (by rw [hlast]; rfl)

/-- What an answer says is so: it is the body of a reply with status 200, as the path rewrites it, or the status of a
reply after which no other backend may be tried; or every backend left the request to the next one. -/
def Honest (p : ReplyPath) (as : List (Attempt ProviderReply)) : PlainAnswer → Prop
  | .served backend body =>
    ∃ a ∈ as, a.selected = backend ∧
      ∃ reply text, a.answer = .response 200 reply text ∧ p.body a.entry reply = some body
  | .error _ code status =>
    (as.all sv.replyFailsOver = true ∧ code = py "all_backends_failed" ∧ status = 502) ∨
      ∃ a ∈ as, ∃ upstream reply text, a.answer = .response upstream reply text ∧ upstream ≠ 200 ∧
        upstream ∉ retryableStatus ∧ code = httpCode upstream ∧ status = if upstream = 0 then 502 else upstream

variable {sv} {p : ReplyPath}

theorem honest_answerOf {as : List (Attempt ProviderReply)} {a : Attempt ProviderReply} (ha : a ∈ as)
    (hfails : sv.replyFailsOver a = false) {answer : PlainAnswer} (h : sv.answerOf p a = some answer) :
    sv.Honest p as answer := by
  unfold answerOf at h
  unfold replyFailsOver at hfails
  rcases hreply : a.answer with ⟨status, reply, text⟩ | error
  · rw [hreply] at h hfails
    by_cases hstatus : status = 200
    · subst hstatus
      obtain ⟨body, hbody, rfl⟩ := Option.map_eq_some_iff.1 h
      exact ⟨a, ha, rfl, reply, text, hreply, hbody⟩
    · simp only [callProvider, if_pos hstatus, Bool.not_false, Bool.true_and] at h hfails
      obtain rfl := Option.some.inj h
      exact .inr ⟨a, ha, status, reply, text, hreply, hstatus, by simpa using hfails, rfl, rfl⟩
  · rw [hreply] at hfails
    cases hfails

theorem honest_replyAnswer {as : List (Attempt ProviderReply)} {answer : PlainAnswer}
    (h : sv.replyAnswer p [] as = some answer) : sv.Honest p as answer := by
  unfold replyAnswer at h
  rcases hrest : as.dropWhile sv.replyFailsOver with - | ⟨a, rest⟩
  · rw [hrest] at h
    obtain rfl := Option.some.inj h
    exact .inl ⟨List.all_eq_true.2 (List.dropWhile_eq_nil_iff.1 hrest), rfl, rfl⟩
  · rw [hrest] at h
    have hmem : a ∈ as := (List.dropWhile_sublist _).subset (hrest ▸ List.mem_cons_self)
    have hfails : sv.replyFailsOver a = false := by
      have hhead := List.head?_dropWhile_not sv.replyFailsOver as
      rw [hrest] at hhead
      simpa using hhead
    exact honest_answerOf hmem hfails h

end Request

end Service

end LocalGateway
