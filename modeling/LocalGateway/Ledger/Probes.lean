import LocalGateway.Ledger.Attempts

/-!
# Health probes

The prober (`prober.py`) sends small requests to the backends on its own, and keeps the same books as
the clients' requests do. Its failures are of all kinds, though, and it feeds each of them to the
circuit breaker, where the clients' paths leave out what is not the fault of the backend.

* `Fed`: what an attempt does to the breaker, if only failures that count are fed to it.
* `every_countsGenuine_iff`: in a run of attempts of all paths and of probes, the failure counts go up
  for failures that count only, exactly if no probe is refused for another reason.
-/

namespace LocalGateway

open Py Json

/-! ### The prober -/

/-- `IMPLAUSIBLE_TPS`. -/
def implausibleTps : ℚ :=
  2000

/-- `MAX_REPROBE`. -/
def maxReprobe : ℕ :=
  3

/-- What a backend does with one probe, and its times; the time to the first token is 0 if there is
none. -/
structure ProbeTry where
  answer : Upstream
  latency : ℕ
  ttft : ℕ

/-- A probe, with those that may have to repeat it. -/
structure Probe where
  first : ProbeTry
  again : List ProbeTry

/-- The dictionary that `probe_backend` returns. -/
inductive ProbeResult
  | ok (input output : Option ℤ) (tps : Option ℚ)
  | failed (status : Option ℕ) (error : PyStr)

/-- `compute_tps`, in exact arithmetic; the outer `none` is the `OverflowError` of a count that has no
float. -/
def computeTps (fl : Arith) (output : Option ℤ) (latency ttft : ℕ) : Option (Option ℚ) :=
  match output with
  | none => some none
  | some n =>
    if n = 0 ∨ latency = 0 then some none
    else
      let gen := if latency ≤ ttft then latency else latency - ttft
      (fl.ofInt n).map fun _ ↦ some (PyFloat.roundTo 2 (n / (gen / 1000)))

section Probe

variable (loads : Decoder) (fl : Arith)

/-- `probe_backend`, of a stream. -/
def probeBackend (t : ProbeTry) : ProbeResult :=
  match t.answer with
  | .refused status body => .failed (some status) ((utf8Decode body).take 500)
  | .streamed chunks ending =>
    match (chunks.filter (· ≠ [])).foldlM (StreamAccumulator.feed loads) .init with
    | .error error => .failed none (error.take 500)
    | .ok acc =>
      match ending with
      -- what has been read until then is dropped
      | .broken error => .failed none (error.take 500)
      | .eof =>
        match acc.finish loads with
        | .error error => .failed none (error.take 500)
        | .ok (_, acc) =>
          let output := acc.finalUsage.outputTokens
          match computeTps fl output t.latency t.ttft with
          | none => .failed none (py "int too large to convert to float")
          | some tps => .ok acc.usage.inputTokens output tps

/-- The result is not to be probed for again. -/
def ProbeResult.settled : ProbeResult → Bool
  | .ok _ _ (some tps) => tps < implausibleTps
  | _ => true

/-- The try that decides: the first one that is settled, or the last. -/
def decidingTry (t : ProbeTry) : List ProbeTry → ProbeTry
  | [] => t
  | t' :: ts => if (probeBackend loads fl t).settled then t else decidingTry t' ts

/-- `probe_with_reprobe`, up to the throughput that stands in for an implausible one. -/
def probeWithReprobe (p : Probe) : ProbeResult :=
  probeBackend loads fl (decidingTry loads fl p.first (p.again.take (maxReprobe - 1)))

end Probe

namespace Service

variable (sv : Service)

/-- The cost of a probe; the outer `none` is an `OverflowError`. -/
def probeCost (e : Entry) (input : ℤ) (output : Option ℤ) : Option (Option PyFloat) :=
  let price (name : String) := (attrFloat (sv.pricing e).fields (py name)).getD (.fin 0)
  match output with
  | none => some none
  | some n =>
    if n = 0 then some none
    else do
      let cost ← sv.arith.times input (price "input")
      let out ← sv.arith.times n (price "output")
      pure (some (sv.arith.add cost out))

/-- The row of a probe: nobody asked for it. -/
def probeRow (row : UsageRow) : UsageRow :=
  { row with caller := ⟨none, none, none⟩ }

/-- The bookkeeping of `_prober_loop` for one backend. An exception ends it, and is caught. -/
def probe (a : Attempt Probe) (b : Books) : Books :=
  match probeWithReprobe sv.loads sv.arith a.answer with
  | .failed _ error =>
    (((b.logRequest (probeRow (sv.failureRow a.entry (some error) true))).recordStat a.entry
      false).recordOutcome a false (some error)).1
  | .ok input output _ =>
    match sv.probeCost a.entry (input.getD 0) output with
    -- pricing raises before anything is recorded
    | none => b
    | some cost =>
      let u := { StreamUsage.none with
        inputTokens := input.filter (· ≠ 0)
        outputTokens := output.filter (· ≠ 0) }
      (((b.logRequest (probeRow (sv.successRow a.entry u cost true))).recordStat a.entry
        true).recordOutcome a true none).1

end Service

/-! ### Runs -/

/-- What happens in a process that feeds its circuit breaker: an attempt of one of the five paths ends,
a probe ends, or the breaker is configured or reset. The attempts of several requests may alternate. -/
inductive Traffic
  | chat (sv : Service) (a : Attempt ProviderReply)
  | chatStream (sv : Service) (a : Attempt Upstream)
  | responses (sv : Service) (a : Attempt ProviderReply)
  | responsesStream (sv : Service) (a : Attempt Upstream)
  | embeddings (sv : Service) (a : Attempt ProviderReply)
  | probe (sv : Service) (a : Attempt Probe)
  | configure (enabled : Bool) (threshold : ℤ) (backoff : PyFloat)
  | reset (key : Option PyStr)

/-- The books afterwards. -/
def Books.next (b : Books) : Traffic → Books
  | .chat sv a => (sv.plainAttempt sv.chatReply a b).1
  | .chatStream sv a => (sv.chatStreamAttempt a b).1
  | .responses sv a => (sv.plainAttempt sv.responsesReply a b).1
  | .responsesStream sv a => (sv.responsesStreamAttempt a b).1
  | .embeddings sv a => (sv.plainAttempt sv.embeddingsReply a b).1
  | .probe sv a => sv.probe a b
  | .configure enabled threshold backoff =>
    { b with breaker := b.breaker.configure enabled threshold backoff }
  | .reset key => { b with breaker := b.breaker.reset key }

/-- How a probe came out. Without an answer the status is 0. -/
def ProbeResult.result : ProbeResult → AttemptResult
  | .ok .. => ⟨true, 200⟩
  | .failed status _ => ⟨false, status.getD 0⟩

/-- Whose backend was tried, and how that came out. -/
def Traffic.outcome : Traffic → Option (PyStr × AttemptResult)
  | .chat _ a | .responses _ a | .embeddings _ a => some (a.entry.key, replyResult a.answer)
  | .chatStream sv a | .responsesStream sv a => some (a.entry.key, streamResult sv.loads a.answer)
  | .probe sv a => some (a.entry.key, (probeWithReprobe sv.loads sv.arith a.answer).result)
  | .configure .. | .reset _ => none

/-- A failure count that goes up does so for a failure with status 0, or from 500 on. -/
def CountsGenuine (b : Books) (t : Traffic) : Prop :=
  ∀ key, (b.breaker.get key).consecutiveFailures < ((b.next t).breaker.get key).consecutiveFailures →
    ∃ r, t.outcome = some (key, r) ∧ r.success = false ∧ (r.status = 0 ∨ 500 ≤ r.status)

/-- The backend answered with a status, which is not that of a failure of the backend. -/
def ProbeTry.Blameless (t : ProbeTry) : Prop :=
  ∃ status body, t.answer = .refused status body ∧ status ≠ 0 ∧ status < 500

/-- No probe is decided by an answer that is not a failure of the backend. -/
def Traffic.ProbesSound : Traffic → Prop
  | .probe sv a =>
    ¬ (decidingTry sv.loads sv.arith a.answer.first (a.answer.again.take (maxReprobe - 1))).Blameless
  | _ => True

/-! ### What is fed to the breaker -/

/-- What becomes of a breaker if it is left alone, or fed a success of the backend, or a failure that
counts. -/
inductive Fed (key : PyStr) (r : AttemptResult) (s : Breaker) : Breaker → Prop
  | nothing : Fed key r s s
  | success (error : Option PyStr) (now wall : ℚ) :
    Fed key r s (s.recordOutcome key true error now wall).1
  | failure (error : Option PyStr) (now wall : ℚ) (h : r.counts = true) :
    Fed key r s (s.recordOutcome key false error now wall).1

theorem failures_recordOutcome_lt_iff {s : Breaker} {key k : PyStr} {success : Bool}
    {error : Option PyStr} {now wall : ℚ} :
    (s.get k).consecutiveFailures <
        ((s.recordOutcome key success error now wall).1.get k).consecutiveFailures ↔
      k = key ∧ success = false := by
  rcases eq_or_ne k key with rfl | hk
  · rw [Breaker.failures_get_recordOutcome]
    cases success <;> simp
  · rw [Breaker.get_recordOutcome_of_ne success hk]
    simp [hk]

/-- A count that goes up is that of the backend, and the outcome counts as a failure. -/
theorem Fed.genuine {key k : PyStr} {r : AttemptResult} {s s' : Breaker} (h : Fed key r s s')
    (hlt : (s.get k).consecutiveFailures < (s'.get k).consecutiveFailures) :
    k = key ∧ r.counts = true := by
  cases h with
  | nothing => exact absurd hlt (lt_irrefl _)
  | success error now wall => exact absurd (failures_recordOutcome_lt_iff.1 hlt).2 (by decide)
  | failure error now wall hcounts => exact ⟨(failures_recordOutcome_lt_iff.1 hlt).1, hcounts⟩

section Paths

variable {α : Type} {sv : Service} {b : Books}

theorem succeed_fed (a : Attempt α) (row : Option UsageRow) (r : AttemptResult) :
    Fed a.entry.key r b.breaker (Service.succeed a row b).1.breaker := by
  rcases row with - | row <;> exact .success none a.now a.wall

theorem fail_fed (a : Attempt α) (error : Option PyStr) (status : ℕ) (stream : Bool)
    (ending : Ending) :
    Fed a.entry.key ⟨false, status⟩ b.breaker (sv.fail a error status stream ending b).1.breaker := by
  rcases hcount : countsAsFailure status with - | -
  · simp only [Service.fail, hcount, Bool.false_eq_true, if_false]
    exact .nothing
  · simp only [Service.fail, hcount, if_true]
    have hfed : Fed a.entry.key ⟨false, status⟩ b.breaker
        ((b.recordStat a.entry false).recordOutcome a false error).1.breaker :=
      .failure error a.now a.wall hcount
    split <;> exact hfed

/-- Of the paths that are not streamed. -/
theorem plainAttempt_fed (row : Entry → ProviderResult → ℕ → Option UsageRow)
    (a : Attempt ProviderReply) :
    Fed a.entry.key (replyResult a.answer) b.breaker (sv.plainAttempt row a b).1.breaker := by
  rw [replyResult_eq sv.loads, Service.plainAttempt]
  split_ifs with hsuccess hretryable
  · exact succeed_fed a _ _
  · rw [Bool.eq_false_of_not_eq_true hsuccess]
    exact fail_fed a _ _ _ _
  · rw [Bool.eq_false_of_not_eq_true hsuccess]
    exact fail_fed a _ _ _ _

theorem chatEvents_fed (a : Attempt Upstream) {ev : StreamEvent} (hev : ev.Ends)
    (cs : List PyBytes) (parser : SSEParser) :
    Fed a.entry.key ev.result b.breaker
      (sv.chatEvents a b parser (cs.map .chunk ++ [ev])).1.breaker := by
  induction cs generalizing parser with
  | nil =>
    rcases ev with data | ⟨usage, sent⟩ | ⟨error, status, retryable, midStream⟩
    · exact absurd hev id
    · have hfed : Fed a.entry.key ⟨true, 200⟩ b.breaker
          (Service.succeed a (sv.chatRow a.entry usage a.latency true) b).1.breaker :=
        succeed_fed a _ _
      simp only [List.map_nil, List.nil_append, Service.chatEvents]
      split
      · next heq =>
        rw [heq] at hfed
        exact hfed
      · exact hfed
    · exact fail_fed a _ _ _ _
  | cons data cs ih =>
    simp only [List.map_cons, List.cons_append, Service.chatEvents]
    split
    · exact .nothing
    · exact ih _

theorem responsesEvents_fed (a : Attempt Upstream) {ev : StreamEvent} (hev : ev.Ends)
    (cs : List PyBytes) (t : ResponsesUsageTracker) :
    Fed a.entry.key ev.result b.breaker
      (sv.responsesEvents a b t (cs.map .chunk ++ [ev])).1.breaker := by
  induction cs generalizing t with
  | nil =>
    rcases ev with data | ⟨usage, sent⟩ | ⟨error, status, retryable, midStream⟩
    · exact absurd hev id
    · exact succeed_fed a _ _
    · simp only [List.map_nil, List.nil_append, Service.responsesEvents]
      split_ifs
      · exact .nothing
      · exact fail_fed a _ _ _ _
      · exact fail_fed a _ _ _ _
  | cons data cs ih => exact ih _

theorem chatStreamAttempt_fed (a : Attempt Upstream) :
    Fed a.entry.key (streamResult sv.loads a.answer) b.breaker
      (sv.chatStreamAttempt a b).1.breaker := by
  obtain ⟨cs, ev, hev, hshape⟩ := callProviderStream_shape sv.loads a.answer
  rw [streamResult_eq hshape, Service.chatStreamAttempt, hshape]
  exact chatEvents_fed a hev cs .init

theorem responsesStreamAttempt_fed (a : Attempt Upstream) :
    Fed a.entry.key (streamResult sv.loads a.answer) b.breaker
      (sv.responsesStreamAttempt a b).1.breaker := by
  obtain ⟨cs, ev, hev, hshape⟩ := callProviderStream_shape sv.loads a.answer
  rw [streamResult_eq hshape, Service.responsesStreamAttempt, hshape]
  exact responsesEvents_fed a hev cs .init

end Paths

/-! ### Probes -/

section Probes

variable {sv : Service} {b : Books} {a : Attempt Probe}

/-- A probe that fails is fed to the breaker, whatever the reason. -/
theorem breaker_probe_of_failed {status : Option ℕ} {error : PyStr}
    (h : probeWithReprobe sv.loads sv.arith a.answer = .failed status error) :
    (sv.probe a b).breaker =
      (b.breaker.recordOutcome a.entry.key false (some error) a.now a.wall).1 := by
  rw [Service.probe, h]
  rfl

/-- One that succeeds is fed as a success, if at all. -/
theorem probe_fed_of_ok {input output : Option ℤ} {tps : Option ℚ} (r : AttemptResult)
    (h : probeWithReprobe sv.loads sv.arith a.answer = .ok input output tps) :
    Fed a.entry.key r b.breaker (sv.probe a b).breaker := by
  rw [Service.probe, h]
  simp only
  split
  · exact .nothing
  · exact .success none a.now a.wall

/-- A probe fails without an outcome that counts exactly if it was refused for another reason. -/
theorem probeBackend_not_counts_iff (loads : Decoder) (fl : Arith) {t : ProbeTry} :
    (probeBackend loads fl t).result.success = false ∧
        countsAsFailure (probeBackend loads fl t).result.status = false ↔ t.Blameless := by
  rcases hanswer : t.answer with ⟨status, body⟩ | ⟨chunks, ending⟩
  · simp only [probeBackend, ProbeTry.Blameless, hanswer, ProbeResult.result, Option.getD_some,
      countsAsFailure, Bool.or_eq_false_iff, decide_eq_false_iff_not, true_and, not_le,
      Upstream.refused.injEq]
    constructor
    · rintro ⟨hzero, hlt⟩
      exact ⟨status, body, ⟨rfl, rfl⟩, hzero, hlt⟩
    · rintro ⟨_, _, ⟨rfl, rfl⟩, hzero, hlt⟩
      exact ⟨hzero, hlt⟩
  · -- a probe that was answered fails with an exception, and without a status
    refine iff_of_false ?_ fun ⟨_, _, h, _⟩ ↦ by rw [hanswer] at h; cases h
    have hcounts : (probeBackend loads fl t).result.success = false →
        (probeBackend loads fl t).result.status = 0 := by
      simp only [probeBackend, hanswer]
      repeat' split
      all_goals simp [ProbeResult.result]
    rintro ⟨hfailed, hno⟩
    rw [hcounts hfailed] at hno
    cases hno

end Probes

/-! ### Every step of a run -/

theorem countsGenuine_of_fed {b : Books} {t : Traffic} {key : PyStr} {r : AttemptResult}
    (hout : t.outcome = some (key, r)) (h : Fed key r b.breaker (b.next t).breaker) :
    CountsGenuine b t := by
  intro k hlt
  obtain ⟨rfl, hcounts⟩ := h.genuine hlt
  simp only [AttemptResult.counts, countsAsFailure, Bool.and_eq_true, Bool.not_eq_true',
    Bool.or_eq_true, decide_eq_true_eq] at hcounts
  exact ⟨r, hout, hcounts⟩

/-- A step counts genuine failures only, exactly if it is not a probe refused for another reason. -/
theorem countsGenuine_iff (b : Books) (t : Traffic) : CountsGenuine b t ↔ t.ProbesSound := by
  cases t with
  | chat sv a | responses sv a | embeddings sv a =>
    exact iff_of_true (countsGenuine_of_fed rfl (plainAttempt_fed _ a)) trivial
  | chatStream sv a => exact iff_of_true (countsGenuine_of_fed rfl (chatStreamAttempt_fed a)) trivial
  | responsesStream sv a =>
    exact iff_of_true (countsGenuine_of_fed rfl (responsesStreamAttempt_fed a)) trivial
  | configure enabled threshold backoff =>
    exact iff_of_true (fun key hlt ↦ absurd hlt (lt_irrefl _)) trivial
  | reset key =>
    refine iff_of_true (fun k hlt ↦ absurd hlt (not_lt.2 ?_)) trivial
    rcases key with - | key
    · exact Nat.zero_le _
    · show ((b.breaker.reset (some key)).get k).consecutiveFailures ≤ _
      rcases eq_or_ne k key with rfl | hk
      · rw [Breaker.get_reset_self]
        exact Nat.zero_le _
      · rw [Breaker.get_reset_of_ne hk]
  | probe sv a =>
    rw [Traffic.ProbesSound, ← probeBackend_not_counts_iff sv.loads sv.arith]
    -- a probe feeds the breaker with any failure, whatever its status
    rcases hresult : probeWithReprobe sv.loads sv.arith a.answer with
      ⟨input, output, tps⟩ | ⟨status, error⟩
    · refine iff_of_true (countsGenuine_of_fed rfl (probe_fed_of_ok _ hresult)) ?_
      rw [probeWithReprobe] at hresult
      simp [hresult, ProbeResult.result]
    · have hbreaker := breaker_probe_of_failed (b := b) hresult
      have hout : (Traffic.probe sv a).outcome = some (a.entry.key, ⟨false, status.getD 0⟩) := by
        rw [Traffic.outcome, hresult]
        rfl
      rw [probeWithReprobe] at hresult
      rw [hresult]
      simp only [ProbeResult.result, true_and, Bool.not_eq_false]
      constructor
      · intro h
        obtain ⟨r, hr, -, hstatus⟩ := h a.entry.key (by
          show _ < ((sv.probe a b).breaker.get a.entry.key).consecutiveFailures
          rw [hbreaker]
          exact failures_recordOutcome_lt_iff.2 ⟨rfl, rfl⟩)
        rw [hout] at hr
        obtain rfl : (⟨false, status.getD 0⟩ : AttemptResult) = r := by simpa using hr
        simpa [countsAsFailure] using hstatus
      · intro hcounts
        refine countsGenuine_of_fed hout ?_
        show Fed _ _ _ (sv.probe a b).breaker
        rw [hbreaker]
        exact .failure _ _ _ hcounts

/-- **Which runs count genuine failures only.** Whatever the clients' requests meet, on all paths and
in any order: exactly those in which no probe is refused with a status other than 0 and below 500. -/
theorem every_countsGenuine_iff (b : Books) (run : List Traffic) :
    Runs.Every Books.next (fun _ b t ↦ CountsGenuine b t) b run ↔ ∀ t ∈ run, t.ProbesSound := by
  constructor
  · intro h t ht
    obtain ⟨past, future, rfl⟩ := List.append_of_mem ht
    exact (countsGenuine_iff _ t).1 (h past t future rfl)
  · rintro h past t future rfl
    exact (countsGenuine_iff _ t).2 (h t (by simp))

/-- A probe that meets a rate limit. -/
def limitedProbe : Attempt Probe where
  selected := ⟨plainEntry 0 (py "a") 1, []⟩
  answer := ⟨⟨.refused 429 (pyb "slow down"), 1, 0⟩, []⟩
  latency := 1
  now := 0
  wall := 0

/-- The answer 429 to a probe counts as a failure of the backend. -/
theorem not_every_countsGenuine_limitedProbe :
    ¬ Runs.Every Books.next (fun _ b t ↦ CountsGenuine b t) .empty
      [.probe (pricedService helloText helloObject) limitedProbe] := by
  intro h
  obtain ⟨r, hr, -, hstatus⟩ := h [] _ [] rfl limitedProbe.entry.key (by decide +kernel)
  obtain rfl : (⟨false, 429⟩ : AttemptResult) = r := by
    simpa [Traffic.outcome, probeWithReprobe, decidingTry, probeBackend, limitedProbe,
      ProbeResult.result] using hr
  rcases hstatus with h | h
  · cases h
  · exact absurd h (by decide)

end LocalGateway
