import LocalGateway.Circuit.Breaker
import LocalGateway.Ledger.Billing

/-!
# The books of a request

A request tries its backends one after the other, and each attempt leaves a row in the usage table, a
count in the statistics and perhaps an outcome with the circuit breaker. Five loops do this: chat and
the Responses API, each streamed or not, and embeddings.

The loops share `tryAll`; what they do with one backend is `plainAttempt` with the row of the path, or
a loop over the events of a stream. `Bookkeeping` says of one attempt when it is recorded in full, and
that one that is not leaves no row; `accounted_iff` is the induction over the backends.
-/

namespace LocalGateway

open Py Json

/-! ### Books -/

/-- The rows of the usage table, the calls of `record_success` and `record_failure`, and those of
`record_outcome` with the breaker they lead to. -/
structure Books where
  rows : List UsageRow
  stats : List (PyStr × Bool)
  outcomes : List (PyStr × Bool)
  breaker : Breaker

/-- A backend that may be tried, what it would answer, and the times of the attempt. -/
structure Attempt (α : Type) where
  selected : SelectedBackend
  answer : α
  latency : ℕ
  now : ℚ
  wall : ℚ

/-- The entry of the backend. -/
def Attempt.entry {α : Type} (a : Attempt α) : Entry :=
  a.selected.entry

/-- How an attempt ends: the request is answered, the next backend is tried, or an exception. -/
inductive Ending
  | answered
  | next
  | raised
deriving DecidableEq

namespace Books

variable {α : Type} (b : Books)

/-- `stats.record_success` or `stats.record_failure`. -/
def recordStat (e : Entry) (success : Bool) : Books :=
  { b with stats := b.stats ++ [(e.key, success)] }

/-- `circuitbreaker.record_outcome`. -/
def recordOutcome (a : Attempt α) (success : Bool) (error : Option PyStr) : Books × Breaker.Result :=
  let r := b.breaker.recordOutcome a.entry.key success error a.now a.wall
  ({ b with outcomes := b.outcomes ++ [(a.entry.key, success)], breaker := r.1 }, r.2)

/-- `log_request`. -/
def logRequest (row : UsageRow) : Books :=
  { b with rows := b.rows ++ if row.storable then [row] else [] }

end Books

/-! ### One attempt -/

/-- The outcome counts against the circuit of the backend. -/
def countsAsFailure (status : ℕ) : Bool :=
  status = 0 || 500 ≤ status

/-- `a or b`, of counts that may be missing. -/
def orCount (a b : Option ℤ) : Option ℤ :=
  match a with
  | some n => if n = 0 then b else a
  | none => b

namespace Service

variable {α : Type} (sv : Service)

/-- What is recorded of an attempt that succeeds. A success is never an overflow. -/
def succeed (a : Attempt α) (row : Option UsageRow) (b : Books) : Books × Ending :=
  let b := ((b.recordStat a.entry true).recordOutcome a true none).1
  match row with
  | none => (b, .raised)
  | some row => (b.logRequest row, .answered)

/-- What is recorded of an attempt that fails. -/
def fail (a : Attempt α) (error : Option PyStr) (status : ℕ) (stream : Bool) (ending : Ending)
    (b : Books) : Books × Ending :=
  let b := b.recordStat a.entry false
  let r := if countsAsFailure status then b.recordOutcome a false error else (b, .returned false)
  match r.2 with
  | .overflow => (r.1, .raised)
  | .returned _ => (r.1.logRequest (sv.failureRow a.entry error stream), ending)

/-- An attempt that is not streamed, with the row of the path; `none` is an exception. -/
def plainAttempt (row : Entry → ProviderResult → ℕ → Option UsageRow) (a : Attempt ProviderReply)
    (b : Books) : Books × Ending :=
  let r := callProvider sv.loads a.answer
  if r.success then succeed a (row a.entry r a.latency) b
  else sv.fail a r.error r.statusCode false (if r.retryable then .next else .answered) b

/-- The body that `handle_request` answers with. -/
def relayBody (e : Entry) (body : PyBytes) : Option PyBytes :=
  (normalizeResponseBody sv.loads sv.repr body).bind fun body ↦
    if lacksCacheRead (sv.pricing e) then shiftUsageToCached sv.loads sv.repr sv.arith body
    else some body

/-- The row of `handle_request`: the body is rewritten before it is logged. -/
def chatReply (e : Entry) (r : ProviderResult) (latency : ℕ) : Option UsageRow :=
  (sv.relayBody e r.body).bind fun _ ↦ sv.chatRow e r.usage latency false

/-- The row of a reply with two counts. -/
def countsRow (e : Entry) (input output : Option ℤ) (stream : Bool) : Option UsageRow :=
  let u := { StreamUsage.none with inputTokens := input, outputTokens := output }
  (computeCost sv.arith (sv.pricing e) u).map fun cost ↦ sv.successRow e u cost stream

/-- The row of `_handle_responses_nonstream`. -/
def responsesReply (e : Entry) (r : ProviderResult) (_ : ℕ) : Option UsageRow :=
  let u := extractResponsesUsage sv.loads r.body
  sv.countsRow e (orCount u.inputTokens sv.inputTokens) u.outputTokens false

/-- The row of `create_embeddings`. -/
def embeddingsReply (e : Entry) (r : ProviderResult) (_ : ℕ) : Option UsageRow :=
  let total := orCount (orCount (extractEmbeddingTokens sv.loads r.body) r.usage.inputTokens)
    sv.inputTokens
  let u := { StreamUsage.none with inputTokens := total, outputTokens := some 0 }
  match total with
  | none => some (sv.successRow e u none false)
  | some n => (sv.arith.times n (Prices.ofEntry (sv.pricing e)).input).map fun cost ↦
      sv.successRow e u (some cost) false

/-- A chunk of `handle_request_stream`: the bytes that are passed on, and the parser after it. -/
def chatChunk (e : Entry) (parser : SSEParser) (data : PyBytes) : Option (PyBytes × SSEParser) :=
  (transformStreamChunk sv.loads sv.repr parser data).bind fun (out, parser) ↦
    if out ≠ [] ∧ lacksCacheRead (sv.pricing e) then
      (shiftStreamUsageToCached sv.loads sv.repr sv.arith out).map (·, parser)
    else some (out, parser)

/-- The events of an attempt of `handle_request_stream`. -/
def chatEvents (a : Attempt Upstream) (b : Books) : SSEParser → List StreamEvent → Books × Ending
  | _, [] => (b, .next)
  | parser, .chunk data :: evs =>
    match sv.chatChunk a.entry parser data with
    | none => (b, .raised)
    | some (_, parser) => chatEvents a b parser evs
  | parser, .done usage _ :: _ =>
    match succeed a (sv.chatRow a.entry usage a.latency true) b with
    | (b, .answered) =>
      (b, if (flushStreamChunk sv.loads sv.repr parser).isSome then .answered else .raised)
    | r => r
  | _, .failed error status retryable midStream :: _ =>
    sv.fail a (some error) status true (if !midStream && retryable then .next else .answered) b

/-- An attempt of `handle_request_stream`. -/
def chatStreamAttempt (a : Attempt Upstream) (b : Books) : Books × Ending :=
  sv.chatEvents a b .init (callProviderStream sv.loads a.answer)

/-- The events of an attempt of `_responses_stream_gen`. A failure in mid-stream is answered with an
error event, and not recorded. -/
def responsesEvents (a : Attempt Upstream) (b : Books) :
    ResponsesUsageTracker → List StreamEvent → Books × Ending
  | _, [] => (b, .next)
  | t, .chunk data :: evs => responsesEvents a b (t.feed sv.loads data) evs
  | t, .done _ _ :: _ =>
    let u := (t.flush sv.loads).usage
    succeed a (sv.countsRow a.entry u.inputTokens u.outputTokens true) b
  | _, .failed error status retryable midStream :: _ =>
    if midStream then (b, .answered)
    else sv.fail a (some error) status true (if retryable then .next else .answered) b

/-- An attempt of `_responses_stream_gen`. -/
def responsesStreamAttempt (a : Attempt Upstream) (b : Books) : Books × Ending :=
  sv.responsesEvents a b .init (callProviderStream sv.loads a.answer)

end Service

/-! ### All attempts -/

/-- The loop over the backends: the books after it, and the attempts that were made. -/
def tryAll {α : Type} (attempt : Attempt α → Books → Books × Ending) :
    List (Attempt α) → Books → Books × List (Attempt α)
  | [], b => (b, [])
  | a :: as, b =>
    match attempt a b with
    | (b, .next) => ((tryAll attempt as b).1, a :: (tryAll attempt as b).2)
    | (b, _) => (b, [a])

namespace Service

variable (sv : Service)

/-- The loop of `handle_request`. -/
def handleRequest : List (Attempt ProviderReply) → Books → Books × List (Attempt ProviderReply) :=
  tryAll (sv.plainAttempt sv.chatReply)

/-- The loop of `handle_request_stream`. -/
def handleRequestStream : List (Attempt Upstream) → Books → Books × List (Attempt Upstream) :=
  tryAll sv.chatStreamAttempt

/-- `_handle_responses_nonstream`. -/
def handleResponsesNonstream :
    List (Attempt ProviderReply) → Books → Books × List (Attempt ProviderReply) :=
  tryAll (sv.plainAttempt sv.responsesReply)

/-- `_responses_stream_gen`. -/
def responsesStreamGen : List (Attempt Upstream) → Books → Books × List (Attempt Upstream) :=
  tryAll sv.responsesStreamAttempt

/-- The loop of `create_embeddings`. -/
def createEmbeddings : List (Attempt ProviderReply) → Books → Books × List (Attempt ProviderReply) :=
  tryAll (sv.plainAttempt sv.embeddingsReply)

end Service

/-! ### What has to be recorded -/

/-- How an attempt came out. -/
structure AttemptResult where
  success : Bool
  status : ℕ

/-- The outcome of a reply. -/
def replyResult : ProviderReply → AttemptResult
  | .response status _ _ => ⟨status = 200, status⟩
  | .failed _ => ⟨false, 0⟩

/-- The outcome of an event that ends a stream. -/
def StreamEvent.result : StreamEvent → AttemptResult
  | .chunk _ | .done _ _ => ⟨true, 200⟩
  | .failed _ status _ _ => ⟨false, status⟩

/-- The outcome of a stream. -/
def streamResult (loads : Decoder) (up : Upstream) : AttemptResult :=
  (((callProviderStream loads up).getLast?).map StreamEvent.result).getD ⟨false, 0⟩

/-- The failure is one that the circuit breaker counts. -/
def AttemptResult.counts (r : AttemptResult) : Bool :=
  !r.success && countsAsFailure r.status

/-- What a row says of an attempt: the backend, the success flag, and whom it is attributed to. -/
structure Line where
  provider : PyStr
  model : PyStr
  success : Bool
  caller : Caller
deriving DecidableEq

/-- The line of a row. -/
def UsageRow.line (r : UsageRow) : Line :=
  ⟨r.provider, r.backendModel, r.success, r.caller⟩

/-- The line of an attempt. -/
def Attempt.line {α : Type} (a : Attempt α) (caller : Caller) (r : AttemptResult) : Line :=
  ⟨a.entry.provider.id, a.entry.backend.model, r.success, caller⟩

/-- The books account for attempts: one row each, with the line of the attempt, one count each, and
one failure of the circuit for each outcome that counts as one. -/
structure Accounted {α : Type} (caller : Caller) (result : α → AttemptResult) (b b' : Books)
    (as : List (Attempt α)) : Prop where
  rows : ∃ rows, b'.rows = b.rows ++ rows ∧
    rows.map UsageRow.line = as.map fun a ↦ a.line caller (result a.answer)
  stats : b'.stats = b.stats ++ as.map fun a ↦ (a.entry.key, (result a.answer).success)
  circuit : ∃ outcomes, b'.outcomes = b.outcomes ++ outcomes ∧
    outcomes.filter (fun o ↦ !o.2) =
      (as.filter fun a ↦ (result a.answer).counts).map fun a ↦ (a.entry.key, false)

namespace Accounted

variable {α : Type} {caller : Caller} {result : α → AttemptResult} {b b' b'' : Books}
  {as as' : List (Attempt α)}

theorem nil : Accounted caller result b b [] where
  rows := ⟨[], by simp, rfl⟩
  stats := by simp
  circuit := ⟨[], by simp, rfl⟩

theorem append (h : Accounted caller result b b' as) (h' : Accounted caller result b' b'' as') :
    Accounted caller result b b'' (as ++ as') where
  rows := by
    obtain ⟨rows, hrows, hlines⟩ := h.rows
    obtain ⟨rows', hrows', hlines'⟩ := h'.rows
    exact ⟨rows ++ rows', by rw [hrows', hrows, List.append_assoc], by
      rw [List.map_append, List.map_append, hlines, hlines']⟩
  stats := by rw [h'.stats, h.stats, List.map_append, List.append_assoc]
  circuit := by
    obtain ⟨os, hos, hfilter⟩ := h.circuit
    obtain ⟨os', hos', hfilter'⟩ := h'.circuit
    exact ⟨os ++ os', by rw [hos', hos, List.append_assoc], by
      rw [List.filter_append, hfilter, hfilter', List.filter_append, List.map_append]⟩

theorem length_rows (h : Accounted caller result b b' as) :
    b'.rows.length = b.rows.length + as.length := by
  obtain ⟨rows, hrows, hlines⟩ := h.rows
  have hlength := congrArg List.length hlines
  rw [List.length_map, List.length_map] at hlength
  rw [hrows, List.length_append, hlength]

end Accounted

/-! ### The induction over the backends -/

/-- What is known of one attempt: the state in which it is recorded in full, and that otherwise it
leaves no row. -/
structure Bookkeeping (α : Type) (caller : Caller) where
  /-- The attempt. -/
  attempt : Attempt α → Books → Books × Ending
  /-- The outcome of an answer. -/
  result : α → AttemptResult
  /-- The attempt is recorded in full. -/
  Recorded : Attempt α → Books → Prop
  accounted : ∀ {a b}, Recorded a b → Accounted caller result b (attempt a b).1 [a]
  silent : ∀ {a b}, ¬ Recorded a b → (attempt a b).1.rows = b.rows

namespace Bookkeeping

variable {α : Type} {caller : Caller} (B : Bookkeeping α caller)

/-- Every attempt that is made is recorded in full. -/
def AllRecorded : List (Attempt α) → Books → Prop
  | [], _ => True
  | a :: as, b => B.Recorded a b ∧
      ((B.attempt a b).2 = .next → AllRecorded as (B.attempt a b).1)

theorem tryAll_cons_next {a : Attempt α} {as : List (Attempt α)} {b : Books}
    (h : (B.attempt a b).2 = .next) :
    tryAll B.attempt (a :: as) b = ((tryAll B.attempt as (B.attempt a b).1).1,
      a :: (tryAll B.attempt as (B.attempt a b).1).2) := by
  rcases hattempt : B.attempt a b with ⟨b', ending⟩
  rw [hattempt] at h
  obtain rfl : ending = .next := h
  simp only [tryAll, hattempt]

theorem tryAll_cons_stop {a : Attempt α} {as : List (Attempt α)} {b : Books}
    (h : (B.attempt a b).2 ≠ .next) :
    tryAll B.attempt (a :: as) b = ((B.attempt a b).1, [a]) := by
  rcases hattempt : B.attempt a b with ⟨b', ending⟩
  rw [hattempt] at h
  cases ending with
  | next => exact absurd rfl h
  | answered => simp only [tryAll, hattempt]
  | raised => simp only [tryAll, hattempt]

/-- An attempt leaves at most one row. -/
theorem length_attempt_le (a : Attempt α) (b : Books) :
    (B.attempt a b).1.rows.length ≤ b.rows.length + 1 := by
  by_cases h : B.Recorded a b
  · exact (B.accounted h).length_rows.le
  · rw [B.silent h]
    exact Nat.le_succ _

theorem length_tryAll_le (as : List (Attempt α)) (b : Books) :
    (tryAll B.attempt as b).1.rows.length ≤ b.rows.length + (tryAll B.attempt as b).2.length := by
  induction as generalizing b with
  | nil => exact le_rfl
  | cons a as ih =>
    have hone := B.length_attempt_le a b
    by_cases h : (B.attempt a b).2 = .next
    · have hrest := ih (B.attempt a b).1
      rw [B.tryAll_cons_next h]
      simp only [List.length_cons]
      omega
    · rw [B.tryAll_cons_stop h]
      exact hone

/-- With as many rows as attempts, every attempt is recorded. -/
theorem allRecorded_of_length {as : List (Attempt α)} {b : Books}
    (h : (tryAll B.attempt as b).1.rows.length =
      b.rows.length + (tryAll B.attempt as b).2.length) : B.AllRecorded as b := by
  induction as generalizing b with
  | nil => trivial
  | cons a as ih =>
    have hone := B.length_attempt_le a b
    have hrecorded : (B.attempt a b).1.rows.length = b.rows.length + 1 → B.Recorded a b := by
      intro hlength
      by_contra hnot
      rw [B.silent hnot] at hlength
      omega
    by_cases hnext : (B.attempt a b).2 = .next
    · have hrest := B.length_tryAll_le as (B.attempt a b).1
      rw [B.tryAll_cons_next hnext] at h
      simp only [List.length_cons] at h
      exact ⟨hrecorded (by omega), fun _ ↦ ih (by omega)⟩
    · rw [B.tryAll_cons_stop hnext] at h
      exact ⟨hrecorded h, fun heq ↦ absurd heq hnext⟩

theorem accounted_of_allRecorded {as : List (Attempt α)} {b : Books} (h : B.AllRecorded as b) :
    Accounted caller B.result b (tryAll B.attempt as b).1 (tryAll B.attempt as b).2 := by
  induction as generalizing b with
  | nil => exact .nil
  | cons a as ih =>
    obtain ⟨hrecorded, hrest⟩ := h
    by_cases hnext : (B.attempt a b).2 = .next
    · rw [B.tryAll_cons_next hnext]
      exact (B.accounted hrecorded).append (ih (hrest hnext))
    · rw [B.tryAll_cons_stop hnext]
      exact B.accounted hrecorded

/-- **The books account for the attempts of a request if and only if each is recorded in full.** -/
theorem accounted_iff (as : List (Attempt α)) (b : Books) :
    Accounted caller B.result b (tryAll B.attempt as b).1 (tryAll B.attempt as b).2 ↔
      B.AllRecorded as b :=
  ⟨fun h ↦ B.allRecorded_of_length h.length_rows, B.accounted_of_allRecorded⟩

end Bookkeeping

/-! ### One attempt is recorded -/

section Recorded

variable {α : Type} {sv : Service} {a : Attempt α} {b : Books}

@[simp] theorem rows_recordStat (e : Entry) (ok : Bool) : (b.recordStat e ok).rows = b.rows := rfl

@[simp] theorem stats_recordStat (e : Entry) (ok : Bool) :
    (b.recordStat e ok).stats = b.stats ++ [(e.key, ok)] := rfl

@[simp] theorem outcomes_recordStat (e : Entry) (ok : Bool) :
    (b.recordStat e ok).outcomes = b.outcomes := rfl

@[simp] theorem breaker_recordStat (e : Entry) (ok : Bool) :
    (b.recordStat e ok).breaker = b.breaker := rfl

@[simp] theorem rows_recordOutcome (ok : Bool) (error : Option PyStr) :
    (b.recordOutcome a ok error).1.rows = b.rows := rfl

@[simp] theorem stats_recordOutcome (ok : Bool) (error : Option PyStr) :
    (b.recordOutcome a ok error).1.stats = b.stats := rfl

@[simp] theorem outcomes_recordOutcome (ok : Bool) (error : Option PyStr) :
    (b.recordOutcome a ok error).1.outcomes = b.outcomes ++ [(a.entry.key, ok)] := rfl

@[simp] theorem stats_logRequest (row : UsageRow) : (b.logRequest row).stats = b.stats := rfl

@[simp] theorem outcomes_logRequest (row : UsageRow) :
    (b.logRequest row).outcomes = b.outcomes := rfl

theorem rows_logRequest {row : UsageRow} (h : row.storable = true) :
    (b.logRequest row).rows = b.rows ++ [row] := by
  rw [Books.logRequest, if_pos h]

theorem rows_logRequest_of_not {row : UsageRow} (h : row.storable ≠ true) :
    (b.logRequest row).rows = b.rows := by
  rw [Books.logRequest, if_neg h, List.append_nil]

/-- The row is made, and SQLite takes it. -/
def Stored (row : Option UsageRow) : Prop :=
  ∃ r, row = some r ∧ r.storable = true

/-- The breaker has not reached the number of trips at which `record_outcome` raises. -/
def Books.CircuitReturns (b : Books) (a : Attempt α) : Prop :=
  b.breaker.trips a.entry.key a.now = true → (b.breaker.get a.entry.key).trips < PyFloat.maxExponent

instance (b : Books) (a : Attempt α) : Decidable (b.CircuitReturns a) :=
  inferInstanceAs (Decidable (_ → _))

/-- A failure is recorded in full. -/
def Service.FailureRecorded (sv : Service) (a : Attempt α) (error : Option PyStr) (status : ℕ)
    (stream : Bool) (b : Books) : Prop :=
  (countsAsFailure status = true → b.CircuitReturns a) ∧
    (sv.failureRow a.entry error stream).storable = true

instance (error : Option PyStr) (status : ℕ) (stream : Bool) :
    Decidable (sv.FailureRecorded a error status stream b) :=
  inferInstanceAs (Decidable (_ ∧ _))

/-- The row is one of a success of this backend. -/
def Service.IsSuccessRow (sv : Service) (e : Entry) (row : Option UsageRow) : Prop :=
  ∀ r ∈ row, r.line = ⟨e.provider.id, e.backend.model, true, sv.caller⟩

theorem succeed_accounted {row : Option UsageRow} (hrow : sv.IsSuccessRow a.entry row)
    (h : Stored row) {result : α → AttemptResult} {status : ℕ} (hr : result a.answer = ⟨true, status⟩) :
    Accounted sv.caller result b (Service.succeed a row b).1 [a] := by
  obtain ⟨r, rfl, hstore⟩ := h
  refine ⟨⟨[r], rows_logRequest hstore, ?_⟩, ?_, ⟨[(a.entry.key, true)], rfl, ?_⟩⟩
  · simp [hrow r rfl, Attempt.line, hr]
  · simp [Service.succeed, hr]
  · simp [hr, AttemptResult.counts]

theorem succeed_silent {row : Option UsageRow} (h : ¬ Stored row) :
    (Service.succeed a row b).1.rows = b.rows := by
  cases row with
  | none => rfl
  | some r => exact rows_logRequest_of_not fun hstore ↦ h ⟨r, rfl, hstore⟩

theorem recordOutcome_overflow_iff {error : Option PyStr} :
    ((b.recordStat a.entry false).recordOutcome a false error).2 = .overflow ↔
      ¬ b.CircuitReturns a := by
  have hiff : (b.breaker.recordOutcome a.entry.key false error a.now a.wall).2 = .overflow ↔ _ :=
    Breaker.recordOutcome_eq_overflow_iff
  show (b.breaker.recordOutcome a.entry.key false error a.now a.wall).2 = .overflow ↔ _
  rw [hiff, Books.CircuitReturns, Classical.not_imp, Nat.not_lt]
  exact and_iff_right rfl

/-- The books after a failure: they have the call of `record_outcome` if the outcome counts, and the
row unless that call raises or the row cannot be stored. -/
theorem fail_cases (error : Option PyStr) (status : ℕ) (stream : Bool) (ending : Ending) :
    let after := (sv.fail a error status stream ending b).1
    after.stats = b.stats ++ [(a.entry.key, false)] ∧
      after.outcomes = b.outcomes ++ (if countsAsFailure status then [(a.entry.key, false)] else []) ∧
      after.rows = b.rows ++ if sv.FailureRecorded a error status stream b then
        [sv.failureRow a.entry error stream] else [] := by
  have hlog : ∀ b' : Books, b'.rows = b.rows →
      (b'.logRequest (sv.failureRow a.entry error stream)).rows = b.rows ++
        if (sv.failureRow a.entry error stream).storable then
          [sv.failureRow a.entry error stream] else [] := fun b' h ↦ by rw [Books.logRequest, h]
  cases hcount : countsAsFailure status with
  | false =>
    have hfail : sv.fail a error status stream ending b =
        ((b.recordStat a.entry false).logRequest (sv.failureRow a.entry error stream), ending) := by
      simp only [Service.fail, hcount, Bool.false_eq_true, if_false]
    have hrecorded : sv.FailureRecorded a error status stream b ↔
        (sv.failureRow a.entry error stream).storable = true := by
      simp [Service.FailureRecorded, hcount]
    simp only [hfail, hrecorded]
    exact ⟨rfl, (List.append_nil _).symm, hlog _ rfl⟩
  | true =>
    have hiff : ((b.recordStat a.entry false).recordOutcome a false error).2 = .overflow ↔ _ :=
      recordOutcome_overflow_iff
    -- the call of the breaker raises before the row is logged
    cases hresult : ((b.recordStat a.entry false).recordOutcome a false error).2 with
    | overflow =>
      have hfail : sv.fail a error status stream ending b =
          (((b.recordStat a.entry false).recordOutcome a false error).1, .raised) := by
        simp only [Service.fail, hcount, if_true, hresult]
      have hrecorded : ¬ sv.FailureRecorded a error status stream b := fun h ↦
        hiff.1 hresult (h.1 hcount)
      simp only [hfail, if_neg hrecorded, List.append_nil]
      exact ⟨rfl, rfl, rfl⟩
    | returned tripped =>
      have hfail : sv.fail a error status stream ending b =
          (((b.recordStat a.entry false).recordOutcome a false error).1.logRequest
            (sv.failureRow a.entry error stream), ending) := by
        simp only [Service.fail, hcount, if_true, hresult]
      have hreturns : b.CircuitReturns a := by
        by_contra hnot
        rw [hiff.2 hnot] at hresult
        cases hresult
      have hrecorded : sv.FailureRecorded a error status stream b ↔
          (sv.failureRow a.entry error stream).storable = true := and_iff_right fun _ ↦ hreturns
      simp only [hfail, hrecorded]
      exact ⟨rfl, rfl, hlog _ rfl⟩

theorem fail_accounted {error : Option PyStr} {status : ℕ} {stream : Bool} {ending : Ending}
    (h : sv.FailureRecorded a error status stream b) {result : α → AttemptResult}
    (hr : result a.answer = ⟨false, status⟩) :
    Accounted sv.caller result b (sv.fail a error status stream ending b).1 [a] := by
  obtain ⟨hstats, houtcomes, hrows⟩ := @fail_cases _ sv a b error status stream ending
  rw [if_pos h] at hrows
  refine ⟨⟨_, hrows, ?_⟩, ?_, ⟨_, houtcomes, ?_⟩⟩
  · simp [hr, Attempt.line, UsageRow.line, Service.failureRow, Service.successRow]
  · rw [hstats, List.map_singleton, hr]
  · cases hcount : countsAsFailure status <;> simp [hr, AttemptResult.counts, hcount]

theorem fail_silent {error : Option PyStr} {status : ℕ} {stream : Bool} {ending : Ending}
    (h : ¬ sv.FailureRecorded a error status stream b) :
    (sv.fail a error status stream ending b).1.rows = b.rows := by
  obtain ⟨-, -, hrows⟩ := @fail_cases _ sv a b error status stream ending
  rw [hrows, if_neg h, List.append_nil]

end Recorded

/-! ### The five paths -/

namespace Service

variable (sv : Service)

/-- An attempt that is not streamed is recorded in full. -/
def PlainRecorded (row : Entry → ProviderResult → ℕ → Option UsageRow) (a : Attempt ProviderReply)
    (b : Books) : Prop :=
  let r := callProvider sv.loads a.answer
  if r.success then Stored (row a.entry r a.latency)
  else sv.FailureRecorded a r.error r.statusCode false b

/-- The events of a chat stream are recorded in full. No chunk may raise on the way. -/
def ChatEventsRecorded (a : Attempt Upstream) (b : Books) : SSEParser → List StreamEvent → Prop
  | _, [] => False
  | parser, .chunk data :: evs =>
    ∃ r, sv.chatChunk a.entry parser data = some r ∧ ChatEventsRecorded a b r.2 evs
  | _, .done usage _ :: _ => Stored (sv.chatRow a.entry usage a.latency true)
  | _, .failed error status _ _ :: _ => sv.FailureRecorded a (some error) status true b

/-- An attempt of `handle_request_stream` is recorded in full. -/
def ChatStreamRecorded (a : Attempt Upstream) (b : Books) : Prop :=
  sv.ChatEventsRecorded a b .init (callProviderStream sv.loads a.answer)

/-- The events of a stream of the Responses API are recorded in full. It must not fail in
mid-stream. -/
def ResponsesEventsRecorded (a : Attempt Upstream) (b : Books) :
    ResponsesUsageTracker → List StreamEvent → Prop
  | _, [] => False
  | t, .chunk data :: evs => ResponsesEventsRecorded a b (t.feed sv.loads data) evs
  | t, .done _ _ :: _ =>
    let u := (t.flush sv.loads).usage
    Stored (sv.countsRow a.entry u.inputTokens u.outputTokens true)
  | _, .failed error status _ midStream :: _ =>
    midStream = false ∧ sv.FailureRecorded a (some error) status true b

/-- An attempt of `_responses_stream_gen` is recorded in full. -/
def ResponsesStreamRecorded (a : Attempt Upstream) (b : Books) : Prop :=
  sv.ResponsesEventsRecorded a b .init (callProviderStream sv.loads a.answer)

end Service

section Paths

variable {sv : Service}

theorem isSuccessRow_successRow (e : Entry) (u : StreamUsage) (cost : Option PyFloat) (stream : Bool) :
    sv.IsSuccessRow e (some (sv.successRow e u cost stream)) := by
  rintro r hr
  rw [← Option.some.inj hr]
  rfl

theorem isSuccessRow_chatRow (e : Entry) (u : StreamUsage) (latency : ℕ) (stream : Bool) :
    sv.IsSuccessRow e (sv.chatRow e u latency stream) := by
  rintro r hr
  simp only [Option.mem_def, Service.chatRow, Option.bind_eq_bind, Option.bind_eq_some_iff] at hr
  obtain ⟨cost, -, hr⟩ := hr
  split_ifs at hr
  exact isSuccessRow_successRow e _ cost stream r hr

theorem isSuccessRow_countsRow (e : Entry) (input output : Option ℤ) (stream : Bool) :
    sv.IsSuccessRow e (sv.countsRow e input output stream) := by
  rintro r hr
  obtain ⟨cost, -, rfl⟩ := Option.map_eq_some_iff.1 hr
  rfl

theorem isSuccessRow_chatReply (e : Entry) (r : ProviderResult) (latency : ℕ) :
    sv.IsSuccessRow e (sv.chatReply e r latency) := by
  rintro row hrow
  obtain ⟨_, -, hrow⟩ := Option.bind_eq_some_iff.1 hrow
  exact isSuccessRow_chatRow e _ latency false row hrow

theorem isSuccessRow_embeddingsReply (e : Entry) (r : ProviderResult) (latency : ℕ) :
    sv.IsSuccessRow e (sv.embeddingsReply e r latency) := by
  rintro row hrow
  rw [Option.mem_def, Service.embeddingsReply] at hrow
  simp only at hrow
  split at hrow
  · exact isSuccessRow_successRow e _ _ _ row hrow
  · obtain ⟨cost, -, rfl⟩ := Option.map_eq_some_iff.1 hrow
    rfl

/-- What `call_provider` returns has the outcome of the reply. -/
theorem replyResult_eq (loads : Decoder) (reply : ProviderReply) :
    replyResult reply =
      ⟨(callProvider loads reply).success, (callProvider loads reply).statusCode⟩ := by
  cases reply with
  | response status body text =>
    by_cases h : status = 200 <;> simp [replyResult, callProvider, h]
  | failed error => rfl

/-- The outcome of a stream is that of the event at its end. -/
theorem streamResult_eq {loads : Decoder} {up : Upstream} {cs : List PyBytes} {ev : StreamEvent}
    (h : callProviderStream loads up = cs.map .chunk ++ [ev]) : streamResult loads up = ev.result := by
  simp [streamResult, h]

/-- The paths that are not streamed. -/
def Service.plain (sv : Service) (row : Entry → ProviderResult → ℕ → Option UsageRow)
    (hrow : ∀ e r n, sv.IsSuccessRow e (row e r n)) : Bookkeeping ProviderReply sv.caller where
  attempt := sv.plainAttempt row
  result := replyResult
  Recorded := sv.PlainRecorded row
  accounted {a b} h := by
    have hresult := replyResult_eq sv.loads a.answer
    unfold Service.PlainRecorded at h
    unfold Service.plainAttempt
    cases hsuccess : (callProvider sv.loads a.answer).success <;>
      simp only [hsuccess, Bool.false_eq_true, if_false, if_true] at h ⊢ <;> rw [hsuccess] at hresult
    · exact fail_accounted h hresult
    · exact succeed_accounted (hrow _ _ _) h hresult
  silent {a b} h := by
    unfold Service.PlainRecorded at h
    unfold Service.plainAttempt
    cases hsuccess : (callProvider sv.loads a.answer).success <;>
      simp only [hsuccess, Bool.false_eq_true, if_false, if_true] at h ⊢
    · exact fail_silent h
    · exact succeed_silent h

theorem chatEvents_accounted {a : Attempt Upstream} {b : Books} {ev : StreamEvent} (hev : ev.Ends)
    {result : Upstream → AttemptResult} (hr : result a.answer = ev.result) (cs : List PyBytes)
    {parser : SSEParser} (h : sv.ChatEventsRecorded a b parser (cs.map .chunk ++ [ev])) :
    Accounted sv.caller result b (sv.chatEvents a b parser (cs.map .chunk ++ [ev])).1 [a] := by
  induction cs generalizing parser with
  | nil =>
    cases ev with
    | chunk data => exact absurd hev id
    | done usage sent =>
      obtain ⟨row, hrow, hstore⟩ := h
      have hsucceed := succeed_accounted (b := b) (isSuccessRow_chatRow a.entry usage a.latency true)
        ⟨row, hrow, hstore⟩ hr
      rw [hrow] at hsucceed
      simp only [List.map_nil, List.nil_append, Service.chatEvents, hrow]
      exact hsucceed
    | failed error status retryable midStream => exact fail_accounted h hr
  | cons data cs ih =>
    obtain ⟨⟨out, parser'⟩, hchunk, h⟩ := h
    simp only [List.map_cons, List.cons_append, Service.chatEvents, hchunk]
    exact ih h

theorem chatEvents_silent {a : Attempt Upstream} {b : Books} {ev : StreamEvent} (hev : ev.Ends)
    (cs : List PyBytes) {parser : SSEParser}
    (h : ¬ sv.ChatEventsRecorded a b parser (cs.map .chunk ++ [ev])) :
    (sv.chatEvents a b parser (cs.map .chunk ++ [ev])).1.rows = b.rows := by
  induction cs generalizing parser with
  | nil =>
    cases ev with
    | chunk data => exact absurd hev id
    | done usage sent =>
      have hsucceed := succeed_silent (a := a) (b := b) h
      simp only [List.map_nil, List.nil_append, Service.chatEvents]
      split
      · next heq =>
        rw [heq] at hsucceed
        exact hsucceed
      · exact hsucceed
    | failed error status retryable midStream => exact fail_silent h
  | cons data cs ih =>
    simp only [List.map_cons, List.cons_append, Service.chatEvents]
    split
    · rfl
    · next out parser' hchunk => exact ih fun hrest ↦ h ⟨_, hchunk, hrest⟩

theorem responsesEvents_accounted {a : Attempt Upstream} {b : Books} {ev : StreamEvent}
    (hev : ev.Ends) {result : Upstream → AttemptResult} (hr : result a.answer = ev.result)
    (cs : List PyBytes) {t : ResponsesUsageTracker}
    (h : sv.ResponsesEventsRecorded a b t (cs.map .chunk ++ [ev])) :
    Accounted sv.caller result b (sv.responsesEvents a b t (cs.map .chunk ++ [ev])).1 [a] := by
  induction cs generalizing t with
  | nil =>
    cases ev with
    | chunk data => exact absurd hev id
    | done usage sent => exact succeed_accounted (isSuccessRow_countsRow a.entry _ _ true) h hr
    | failed error status retryable midStream =>
      obtain ⟨rfl, h⟩ := h
      exact fail_accounted h hr
  | cons data cs ih => exact ih h

theorem responsesEvents_silent {a : Attempt Upstream} {b : Books} {ev : StreamEvent}
    (hev : ev.Ends) (cs : List PyBytes) {t : ResponsesUsageTracker}
    (h : ¬ sv.ResponsesEventsRecorded a b t (cs.map .chunk ++ [ev])) :
    (sv.responsesEvents a b t (cs.map .chunk ++ [ev])).1.rows = b.rows := by
  induction cs generalizing t with
  | nil =>
    cases ev with
    | chunk data => exact absurd hev id
    | done usage sent => exact succeed_silent h
    | failed error status retryable midStream =>
      cases midStream with
      | true => rfl
      | false => exact fail_silent fun hrecorded ↦ h ⟨rfl, hrecorded⟩
  | cons data cs ih => exact ih h

/-- Streamed chat. -/
def Service.chatStream (sv : Service) : Bookkeeping Upstream sv.caller where
  attempt := sv.chatStreamAttempt
  result := streamResult sv.loads
  Recorded := sv.ChatStreamRecorded
  accounted {a b} h := by
    obtain ⟨cs, ev, hev, hshape⟩ := callProviderStream_shape sv.loads a.answer
    rw [Service.ChatStreamRecorded, hshape] at h
    rw [Service.chatStreamAttempt, hshape]
    exact chatEvents_accounted hev (streamResult_eq hshape) cs h
  silent {a b} h := by
    obtain ⟨cs, ev, hev, hshape⟩ := callProviderStream_shape sv.loads a.answer
    rw [Service.ChatStreamRecorded, hshape] at h
    rw [Service.chatStreamAttempt, hshape]
    exact chatEvents_silent hev cs h

/-- The streamed Responses API. -/
def Service.responsesStream (sv : Service) : Bookkeeping Upstream sv.caller where
  attempt := sv.responsesStreamAttempt
  result := streamResult sv.loads
  Recorded := sv.ResponsesStreamRecorded
  accounted {a b} h := by
    obtain ⟨cs, ev, hev, hshape⟩ := callProviderStream_shape sv.loads a.answer
    rw [Service.ResponsesStreamRecorded, hshape] at h
    rw [Service.responsesStreamAttempt, hshape]
    exact responsesEvents_accounted hev (streamResult_eq hshape) cs h
  silent {a b} h := by
    obtain ⟨cs, ev, hev, hshape⟩ := callProviderStream_shape sv.loads a.answer
    rw [Service.ResponsesStreamRecorded, hshape] at h
    rw [Service.responsesStreamAttempt, hshape]
    exact responsesEvents_silent hev cs h

end Paths

/-- **When the books account for every attempt.** On each of the five paths, for every list of
backends, whatever they answer: exactly when every attempt that is made is recorded in full. -/
theorem accounted_paths_iff (sv : Service) (b : Books) :
    (∀ as, Accounted sv.caller replyResult b (sv.handleRequest as b).1 (sv.handleRequest as b).2 ↔
        (sv.plain sv.chatReply isSuccessRow_chatReply).AllRecorded as b) ∧
      (∀ as, Accounted sv.caller (streamResult sv.loads) b (sv.handleRequestStream as b).1
          (sv.handleRequestStream as b).2 ↔ sv.chatStream.AllRecorded as b) ∧
      (∀ as, Accounted sv.caller replyResult b (sv.handleResponsesNonstream as b).1
          (sv.handleResponsesNonstream as b).2 ↔
        (sv.plain sv.responsesReply fun e _ _ ↦ isSuccessRow_countsRow e _ _ _).AllRecorded as b) ∧
      (∀ as, Accounted sv.caller (streamResult sv.loads) b (sv.responsesStreamGen as b).1
          (sv.responsesStreamGen as b).2 ↔ sv.responsesStream.AllRecorded as b) ∧
      ∀ as, Accounted sv.caller replyResult b (sv.createEmbeddings as b).1
          (sv.createEmbeddings as b).2 ↔
        (sv.plain sv.embeddingsReply isSuccessRow_embeddingsReply).AllRecorded as b :=
  ⟨fun as ↦ (sv.plain sv.chatReply isSuccessRow_chatReply).accounted_iff as b,
    fun as ↦ sv.chatStream.accounted_iff as b,
    fun as ↦ (sv.plain sv.responsesReply fun e _ _ ↦ isSuccessRow_countsRow e _ _ _).accounted_iff
      as b,
    fun as ↦ sv.responsesStream.accounted_iff as b,
    fun as ↦ (sv.plain sv.embeddingsReply isSuccessRow_embeddingsReply).accounted_iff as b⟩

/-- The books of a process that has just started. -/
def Books.empty : Books :=
  ⟨[], [], [], .initial⟩

/-- A stream that is cut off after its first event. -/
def cutStream : Attempt Upstream where
  selected := ⟨plainEntry 0 (py "a") 1, []⟩
  answer := .streamed [eventBytes helloText] (.broken (py "reset"))
  latency := 1
  now := 0
  wall := 0

/-- **An attempt that leaves nothing behind.** A stream of the Responses API fails in mid-stream: the
backend was tried, and there is no row, no count and no failure of its circuit. -/
theorem not_accounted_cutStream :
    let r := (pricedService helloText helloObject).responsesStreamGen [cutStream] .empty
    r.1.rows = [] ∧ r.1.stats = [] ∧ r.1.outcomes = [] ∧ r.2.length = 1 ∧
      ¬ Accounted (pricedService helloText helloObject).caller
        (streamResult (pricedService helloText helloObject).loads) .empty r.1 r.2 := by
  have hrows : ((pricedService helloText helloObject).responsesStreamGen [cutStream] .empty).1.rows =
      [] := by decide +kernel
  have hlength : ((pricedService helloText helloObject).responsesStreamGen [cutStream]
      .empty).2.length = 1 := by decide +kernel
  refine ⟨hrows, by decide +kernel, by decide +kernel, hlength, fun h ↦ ?_⟩
  have hcount := h.length_rows
  rw [hrows, hlength] at hcount
  cases hcount

end LocalGateway
