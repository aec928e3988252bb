import LocalGateway.Foundations.Coroutine
import LocalGateway.Stats.Registry

/-!
# Requests in flight

The loops over the backends of a request, as coroutines: chat and the Responses API, each streamed
or not, and embeddings. Each attempt is entered with `start_request` and left with `end_request`, in
a `finally`; the stream of a provider, the client that reads the answer, and everything that may
raise are the environment's.

* `inFlight_eq`: at any point of any interleaving the counter of a string is the number of attempts
  that are active on the backends with it.
* `inFlight_eq_active_iff`: it is the number of attempts on one backend if no attempt is active on
  another one with the same string.
-/

namespace LocalGateway

open Py Coroutine

/-! ### Operations -/

/-- A backend, by its provider and its model. -/
abbrev BackendId := PyStr × PyStr

/-- The string of a backend. -/
def BackendId.key (b : BackendId) : PyStr :=
  backendKey b.1 b.2

/-- An operation on the statistics. -/
inductive StatsOp where
  | startRequest (b : BackendId)
  | endRequest (b : BackendId)
  | recordSuccess (b : BackendId) (latencyMs ttftMs : Option ℤ) (now : ℚ)
  | recordFailure (b : BackendId) (error : Option PyStr) (now : ℚ)
  | recordCacheActivity (b : BackendId) (cacheKey : Option PyStr) (use : CacheUse)
      (cacheSupported : Option Bool) (now : ℚ)

/-- The statistics after an operation. -/
def StatsRegistry.apply (s : StatsRegistry) : StatsOp → StatsRegistry
  | .startRequest b => s.startRequest b.key
  | .endRequest b => s.endRequest b.key
  | .recordSuccess b latencyMs ttftMs now => s.recordSuccess b.key latencyMs ttftMs now
  | .recordFailure b error now => s.recordFailure b.key error now
  | .recordCacheActivity b cacheKey use cacheSupported now =>
    s.recordCacheActivity b.key cacheKey use cacheSupported now

/-! ### What a coroutine is resumed with -/

/-- What `call_provider` returns. -/
structure CallResult where
  success : Bool
  retryable : Bool
  error : Option PyStr
  latencyMs : Option ℤ
  use : CacheUse

/-- What `call_provider_stream` yields, or that it is exhausted. -/
inductive ProviderEvent where
  /-- `output`: the transformed chunk is not empty. -/
  | chunk (output : Bool)
  /-- `tail`: the transformation held something back. -/
  | done (latencyMs ttftMs : Option ℤ) (use : CacheUse) (tail sentDone : Bool)
  | failed (error : Option PyStr) (midStream retryable : Bool)
  | exhausted

/-- What a coroutine is resumed with, at a time. -/
inductive Input where
  | result (r : CallResult) (now : ℚ)
  /-- With what the usage tracker of the Responses API has seen by then. -/
  | event (e : ProviderEvent) (tracked : CacheUse) (ttftMs : Option ℤ) (now : ℚ)
  | resumed (now : ℚ)

/-- The variables of a request. -/
structure RequestVars where
  /-- It is answered from the cache. -/
  cached : Bool
  /-- It is answered with an error before a backend is tried. -/
  refused : Bool
  cacheKey : Option PyStr
  result : CallResult
  event : ProviderEvent
  committed : Bool
  tracked : CacheUse
  ttftMs : Option ℤ
  now : ℚ

namespace RequestVars

variable (v : RequestVars)

/-- The result of a call has arrived. -/
def receiveResult : Input → RequestVars → RequestVars
  | .result r now, v => { v with result := r, now }
  | _, v => v

/-- The next event of a stream has arrived. -/
def receiveEvent : Input → RequestVars → RequestVars
  | .event e tracked ttftMs now, v => { v with event := e, tracked, ttftMs, now }
  | _, v => v

/-- The reader of the answer asks for more. -/
def receive : Input → RequestVars → RequestVars
  | .resumed now, v => { v with now }
  | _, v => v

/-- The stream is exhausted. -/
def isExhausted : Bool :=
  match v.event with
  | .exhausted => true
  | _ => false

/-- The event is a `StreamDone`. -/
def isDone : Bool :=
  match v.event with
  | .done .. => true
  | _ => false

/-- The event is a `StreamFailed`. -/
def isFailed : Bool :=
  match v.event with
  | .failed .. => true
  | _ => false

/-- The failure came after the first chunk. -/
def midStream : Bool :=
  match v.event with
  | .failed _ midStream _ => midStream
  | _ => false

/-- The failure may be retried with another backend. -/
def retryable : Bool :=
  match v.event with
  | .failed _ _ retryable => retryable
  | _ => false

/-- The error of a failure. -/
def error : Option PyStr :=
  match v.event with
  | .failed error _ _ => error
  | _ => none

/-- The transformed chunk is not empty. -/
def output : Bool :=
  match v.event with
  | .chunk output => output
  | _ => false

/-- The transformation held something back. -/
def tail : Bool :=
  match v.event with
  | .done _ _ _ tail _ => tail
  | _ => false

/-- The provider has sent its last event. -/
def sentDone : Bool :=
  match v.event with
  | .done _ _ _ _ sentDone => sentDone
  | _ => false

/-- The latency and the time to the first token of a stream. -/
def timing : Option ℤ × Option ℤ :=
  match v.event with
  | .done latencyMs ttftMs _ _ _ => (latencyMs, ttftMs)
  | _ => (none, none)

/-- What the end of a stream says of the cache. -/
def use : CacheUse :=
  match v.event with
  | .done _ _ use _ _ => use
  | _ => ⟨none, none, none⟩

end RequestVars

/-! ### The loops -/

/-- A program of a request. -/
abbrev RequestCode := Code RequestVars Input StatsOp

/-- A selected backend, with its `cache_supported`. -/
structure Target where
  id : BackendId
  cacheSupported : Option Bool
deriving DecidableEq

namespace RequestCode

/-- One statement after the other. -/
def block (cs : List RequestCode) : RequestCode :=
  cs.foldr .seq .skip

/-- Bookkeeping and rewriting that may raise: outcomes, costs, rows, logs, caches, bytes. -/
def other : RequestCode :=
  .work id

/-- `yield`. -/
def yieldItem : RequestCode :=
  .pause RequestVars.receive

/-- The headers are yielded, unless they were before. -/
def commit : RequestCode :=
  .ite RequestVars.committed .skip
    (block [.assign fun v ↦ { v with committed := true }, yieldItem])

/-- `stats.record_failure` of a stream. -/
def streamFailure (b : BackendId) : RequestCode :=
  .op fun v ↦ .recordFailure b v.error v.now

variable (b : Target)

/-- `stats.record_cache_activity`, with the usage that `use` gives. -/
def recordCache (use : RequestVars → CacheUse) : RequestCode :=
  .op fun v ↦ .recordCacheActivity b.id v.cacheKey (use v) b.cacheSupported v.now

/-- The body of the loop of `handle_request`. -/
def chatAttempt : RequestCode :=
  block
    [.guarded (.startRequest b.id) id (.pause RequestVars.receiveResult) (.endRequest b.id),
      .ite (fun v ↦ v.result.success)
        (block
          [.op fun v ↦ .recordSuccess b.id v.result.latencyMs none v.now, other,
            recordCache b fun v ↦ v.result.use, other, .ret])
        (block
          [.op fun v ↦ .recordFailure b.id v.result.error v.now, other,
            .ite (fun v ↦ v.result.retryable) other (block [other, .ret])])]

/-- The body of the loops of `_handle_responses_nonstream` and `create_embeddings`. -/
def plainLoopBody : RequestCode :=
  block
    [.guarded (.startRequest b.id) id (.pause RequestVars.receiveResult) (.endRequest b.id),
      .ite (fun v ↦ v.result.success)
        (block [.op fun v ↦ .recordSuccess b.id v.result.latencyMs none v.now, other, .ret])
        (block
          [.op fun v ↦ .recordFailure b.id v.result.error v.now, other,
            .ite (fun v ↦ v.result.retryable) other (block [other, .ret])])]

/-- A `StreamDone` in `handle_request_stream`. -/
def chatDone : RequestCode :=
  block
    [.op fun v ↦ .recordSuccess b.id v.timing.1 v.timing.2 v.now, commit, other,
      recordCache b RequestVars.use, other,
      .ite RequestVars.tail yieldItem .skip,
      .ite RequestVars.sentDone .skip yieldItem, other, .ret]

/-- A `StreamFailed` in `handle_request_stream`. -/
def chatFailed : RequestCode :=
  .ite RequestVars.midStream
    (block [streamFailure b.id, other, yieldItem, yieldItem, .ret])
    (block
      [streamFailure b.id, other,
        .ite RequestVars.retryable (block [other, .brk])
          (block
            [other,
              .ite RequestVars.committed (block [yieldItem, yieldItem, .ret])
                (block [yieldItem, .ret])])])

/-- A `StreamChunk` in `handle_request_stream`. -/
def chatChunk : RequestCode :=
  block [commit, other, .ite RequestVars.output (block [other, yieldItem]) .skip]

/-- The body of the loop of `handle_request_stream`: the prices are looked up before the `try`. -/
def chatStreamAttempt : RequestCode :=
  .guarded (.startRequest b.id) id
    (.loop (block
      [.pause RequestVars.receiveEvent,
        .ite RequestVars.isExhausted .brk
          (.ite RequestVars.isDone (chatDone b)
            (.ite RequestVars.isFailed (chatFailed b) chatChunk))]))
    (.endRequest b.id)

/-- A `StreamDone` in `_responses_stream_gen`. -/
def responsesDone : RequestCode :=
  block
    [other, .op fun v ↦ .recordSuccess b.id v.timing.1 v.ttftMs v.now, other,
      recordCache b RequestVars.tracked, other, commit, .ret]

/-- A `StreamFailed` in `_responses_stream_gen`. -/
def responsesFailed : RequestCode :=
  .ite RequestVars.midStream (block [yieldItem, .ret])
    (block
      [streamFailure b.id, other,
        .ite RequestVars.retryable (block [other, .cont])
          (block [other, yieldItem, .ret])])

/-- The body of the loop of `_responses_stream_gen`. -/
def responsesStreamAttempt : RequestCode :=
  .guarded (.startRequest b.id) id
    (.loop (block
      [.pause RequestVars.receiveEvent,
        .ite RequestVars.isExhausted .brk
          (.ite RequestVars.isDone (responsesDone b)
            (.ite RequestVars.isFailed (responsesFailed b) (block [other, commit, yieldItem])))]))
    (.endRequest b.id)

/-- What `handle_request_stream` yields when it has no backend to try any more. -/
def chatStreamTail : RequestCode :=
  block [other, .ite RequestVars.committed (block [yieldItem, yieldItem]) (block [yieldItem, .ret])]

/-- What `_responses_stream_gen` yields then. -/
def responsesStreamTail : RequestCode :=
  .ite RequestVars.committed yieldItem (block [yieldItem, .ret])

end RequestCode

/-- The paths on which a request tries backends. -/
inductive RequestPath where
  | chat
  | chatStream
  | responses
  | responsesStream
  | embeddings
deriving DecidableEq

namespace RequestPath

open RequestCode

/-- The body of the loop over the backends. -/
def attempt : RequestPath → Target → RequestCode
  | .chat => chatAttempt
  | .chatStream => chatStreamAttempt
  | .responses | .embeddings => plainLoopBody
  | .responsesStream => responsesStreamAttempt

/-- What precedes the loop: the request may be answered from the cache, or with an error. -/
def resolve : RequestPath → RequestCode
  | .chatStream =>
    block
      [other, .ite RequestVars.cached (block [other, yieldItem, yieldItem, .ret]) .skip, other,
        .ite RequestVars.refused (block [yieldItem, .ret]) .skip]
  | .responsesStream => .skip
  | _ =>
    block
      [other, .ite RequestVars.cached (block [other, .ret]) .skip, other,
        .ite RequestVars.refused .ret .skip]

/-- What follows the loop. -/
def finish : RequestPath → RequestCode
  | .chatStream => chatStreamTail
  | .responsesStream => responsesStreamTail
  | _ => other

/-- The program of a request with these backends. -/
def code (path : RequestPath) (targets : List Target) : RequestCode :=
  block (path.resolve :: targets.map path.attempt ++ [path.finish])

end RequestPath

/-- What happens to the requests: one arrives, with the backends it is routed to, or one of them
has its turn. -/
inductive RequestEvent where
  | arrive (path : RequestPath) (targets : List Target) (vars : RequestVars)
  | turn (i : ℕ) (signal : Signal Input)

/-- The event, of coroutines. -/
def RequestEvent.event : RequestEvent → Event RequestVars Input StatsOp
  | .arrive path targets vars => .spawn (path.code targets) vars
  | .turn i signal => .turn i signal

/-- The requests of one process with its statistics. -/
abbrev Requests := Pool RequestVars Input StatsOp StatsRegistry

/-- The requests after an event. -/
def Requests.next (p : Requests) (e : RequestEvent) : Requests :=
  Pool.next StatsRegistry.apply p e.event

/-- A process that has just started. -/
def Requests.initial : Requests :=
  ⟨[], .initial⟩

/-- The backend whose attempt an operation ends. -/
def StatsOp.ended : StatsOp → Option BackendId
  | .endRequest b => some b
  | _ => none

/-- The backends on which attempts are active, one for each attempt: a request is in an attempt from
its start until it leaves the `try`. -/
def Requests.attempts (p : Requests) : List BackendId :=
  p.threads.flatMap fun t ↦ t.pending.filterMap StatsOp.ended

/-- The number of attempts that are active on a backend. -/
def Requests.active (p : Requests) (b : BackendId) : ℕ :=
  p.attempts.count b

/-! ### The programs are balanced -/

/-- An operation that starts and ends nothing. -/
def StatsOp.Records : StatsOp → Prop
  | .startRequest _ | .endRequest _ => False
  | _ => True

/-- Two operations start and end an attempt on one backend. -/
def StatsOp.Attempts (enter leave : StatsOp) : Prop :=
  ∃ b, enter = .startRequest b ∧ leave = .endRequest b

namespace RequestCode

/-- The program starts and ends attempts only around a `try`. -/
abbrev Paired (c : RequestCode) : Prop :=
  c.Ops StatsOp.Records StatsOp.Attempts

theorem block_paired {cs : List RequestCode} : (block cs).Paired ↔ ∀ c ∈ cs, c.Paired := by
  induction cs with
  | nil => exact iff_of_true trivial (by simp)
  | cons c cs ih =>
    rw [List.forall_mem_cons, ← ih]
    rfl

variable (b : Target)

theorem chatAttempt_paired : (chatAttempt b).Paired := by
  simp [chatAttempt, block, Code.Ops, StatsOp.Attempts, StatsOp.Records, other, recordCache]

theorem plainLoopBody_paired : (plainLoopBody b).Paired := by
  simp [plainLoopBody, block, Code.Ops, StatsOp.Attempts, StatsOp.Records, other]

theorem chatStreamAttempt_paired : (chatStreamAttempt b).Paired := by
  simp [chatStreamAttempt, chatDone, chatFailed, chatChunk, commit, streamFailure, yieldItem, block,
    Code.Ops, StatsOp.Attempts, StatsOp.Records, other, recordCache]

theorem responsesStreamAttempt_paired : (responsesStreamAttempt b).Paired := by
  simp [responsesStreamAttempt, responsesDone, responsesFailed, commit, streamFailure, yieldItem,
    block, Code.Ops, StatsOp.Attempts, StatsOp.Records, other, recordCache]

end RequestCode

namespace RequestPath

open RequestCode

theorem attempt_paired (path : RequestPath) (b : Target) : (path.attempt b).Paired := by
  cases path with
  | chat => exact chatAttempt_paired b
  | chatStream => exact chatStreamAttempt_paired b
  | responses => exact plainLoopBody_paired b
  | responsesStream => exact responsesStreamAttempt_paired b
  | embeddings => exact plainLoopBody_paired b

theorem resolve_paired (path : RequestPath) : path.resolve.Paired := by
  cases path <;> simp [resolve, block, Code.Ops, other, yieldItem]

theorem finish_paired (path : RequestPath) : path.finish.Paired := by
  cases path <;>
    simp [finish, chatStreamTail, responsesStreamTail, block, Code.Ops, other, yieldItem]

theorem code_paired (path : RequestPath) (targets : List Target) : (path.code targets).Paired := by
  rw [code, block_paired]
  intro c hc
  rcases List.mem_append.1 hc with hc | hc
  · rcases List.mem_cons.1 hc with rfl | hc
    · exact path.resolve_paired
    · obtain ⟨b, -, rfl⟩ := List.mem_map.1 hc
      exact path.attempt_paired b
  · obtain rfl := List.mem_singleton.1 hc
    exact path.finish_paired

end RequestPath

/-! ### The counter -/

/-- An attempt on a backend with the string counts once. -/
def StatsOp.weight (key : PyStr) (o : StatsOp) : ℕ :=
  match o.ended with
  | some b => if b.key = key then 1 else 0
  | none => 0

/-- A record leaves the counters alone. -/
theorem inFlight_record {s : StatsRegistry} {o : StatsOp} (h : o.Records) (key : PyStr) :
    (s.apply o).inFlight key = s.inFlight key := by
  have hmodify : ∀ (k : PyStr) (f : BackendStats → BackendStats), (∀ st, (f st).inFlight = st.inFlight) →
      (s.modify k f).inFlight key = s.inFlight key := by
    intro k f hf
    rcases eq_or_ne key k with rfl | hne
    · rw [StatsRegistry.inFlight_modify_self, hf, StatsRegistry.inFlight_eq]
    · exact StatsRegistry.inFlight_modify_of_ne f hne
  cases o with
  | startRequest b => exact absurd h id
  | endRequest b => exact absurd h id
  | recordSuccess b latencyMs ttftMs now => exact hmodify _ _ fun _ ↦ rfl
  | recordFailure b error now => exact hmodify _ _ fun _ ↦ rfl
  | recordCacheActivity b cacheKey use cacheSupported now =>
    show StatsRegistry.inFlight (s.recordCacheActivity b.key cacheKey use cacheSupported now) key = _
    unfold StatsRegistry.recordCacheActivity
    rcases cacheKey with - | cacheKey
    · rfl
    · simp only
      split_ifs <;> rfl

/-- The counter of a string counts the attempts on the backends with it. -/
theorem counts_inFlight (key : PyStr) :
    Counts StatsRegistry.apply StatsOp.Records StatsOp.Attempts (StatsRegistry.inFlight · key)
      (StatsOp.weight key) where
  plain _ _ h := inFlight_record h key
  entered s enter leave h := by
    obtain ⟨b, rfl, rfl⟩ := h
    simp only [StatsOp.weight, StatsOp.ended, StatsRegistry.apply]
    split_ifs with hb
    · rw [hb, StatsRegistry.inFlight_startRequest_self]
    · exact StatsRegistry.inFlight_modify_of_ne _ (Ne.symm hb)
  left s enter leave h := by
    obtain ⟨b, rfl, rfl⟩ := h
    simp only [StatsOp.weight, StatsOp.ended, StatsRegistry.apply]
    split_ifs with hb
    · rw [hb, StatsRegistry.inFlight_endRequest_self]
    · exact StatsRegistry.inFlight_modify_of_ne _ (Ne.symm hb)

/-- What the requests owe is the attempts on the backends with the string. -/
theorem owed_eq (p : Requests) (key : PyStr) :
    p.owed (StatsOp.weight key) = p.attempts.countP fun b ↦ b.key = key := by
  have hpending : ∀ ops : List StatsOp, (ops.map (StatsOp.weight key)).sum =
      (ops.filterMap StatsOp.ended).countP fun b ↦ b.key = key := by
    intro ops
    induction ops with
    | nil => rfl
    | cons o ops ih =>
      rw [List.map_cons, List.sum_cons, ih, List.filterMap_cons, StatsOp.weight]
      rcases o.ended with - | b
      · exact Nat.zero_add _
      · simp only [List.countP_cons, decide_eq_true_eq]
        exact Nat.add_comm _ _
  rw [Pool.owed, Requests.attempts, List.countP_flatMap]
  simp only [hpending]
  rfl

/-- **The counter of a string at any point of any interleaving.** -/
theorem inFlight_eq (events : List RequestEvent) (key : PyStr) :
    (Runs.exec Requests.next .initial events).shared.inFlight key =
      (Runs.exec Requests.next .initial events).attempts.countP fun b ↦ b.key = key := by
  have hexec : Runs.exec Requests.next .initial events =
      Runs.exec (Pool.next StatsRegistry.apply) Requests.initial (events.map RequestEvent.event) := by
    rw [Runs.exec, Runs.exec, List.foldl_map]
    rfl
  rw [← owed_eq, hexec]
  refine count_exec (s := .initial) (counts_inFlight key) rfl fun e he ↦ ?_
  obtain ⟨event, -, rfl⟩ := List.mem_map.1 he
  cases event with
  | arrive path targets vars => exact path.code_paired targets
  | turn i signal => trivial

/-- All that pass a test are one thing. -/
theorem countP_eq_count_iff {α : Type} [BEq α] [LawfulBEq α] {p : α → Bool} {a : α} (ha : p a = true)
    (l : List α) : l.countP p = l.count a ↔ ∀ b, b ≠ a → p b = true → l.count b = 0 := by
  have hle : ∀ l : List α, l.count a ≤ l.countP p := fun l ↦
    List.countP_mono_left fun b _ hb ↦ by rwa [beq_iff_eq.1 hb]
  simp only [List.count_eq_zero]
  induction l with
  | nil => simp
  | cons c l ih =>
    have hl := hle l
    rcases eq_or_ne c a with hca | hca
    · have hsame : (c :: l).countP p = (c :: l).count a ↔ l.countP p = l.count a := by
        rw [hca, List.countP_cons_of_pos ha, List.count_cons_self, Nat.add_right_cancel_iff]
      refine (hsame.trans ih).trans (forall_congr' fun b ↦ forall_congr' fun hb ↦ ?_)
      simp [hca, hb]
    · rw [List.count_cons_of_ne hca]
      by_cases hc : p c = true
      · rw [List.countP_cons_of_pos hc]
        exact iff_of_false (by omega) fun h ↦ h c hca hc List.mem_cons_self
      · rw [List.countP_cons_of_neg hc]
        refine ih.trans (forall_congr' fun b ↦ forall_congr' fun _ ↦ forall_congr' fun hb ↦ ?_)
        have hbc : b ≠ c := fun heq ↦ hc (heq ▸ hb)
        simp [hbc]

/-- **The counter of a backend is the number of attempts that are active on it exactly if no attempt
is active on another backend with the same string.** -/
theorem inFlight_eq_active_iff (events : List RequestEvent) (b : BackendId) :
    (Runs.exec Requests.next .initial events).shared.inFlight b.key =
        (Runs.exec Requests.next .initial events).active b ↔
      ∀ other, other ≠ b → other.key = b.key →
        (Runs.exec Requests.next .initial events).active other = 0 := by
  rw [inFlight_eq, Requests.active,
    countP_eq_count_iff (p := fun other : BackendId ↦ other.key = b.key) (decide_eq_true rfl)]
  simp only [decide_eq_true_eq, Requests.active]

/-! ### Two backends with one string -/

/-- The variables of a request at its start. -/
def freshVars : RequestVars where
  cached := false
  refused := false
  cacheKey := none
  result := ⟨false, false, none, none, ⟨none, none, none⟩⟩
  event := .exhausted
  committed := false
  tracked := ⟨none, none, none⟩
  ttftMs := none
  now := 0

/-- A chat request is waiting for the backend `b:c` of `a`. -/
def waiting : List RequestEvent :=
  .arrive .chat [⟨(py "a", py "b:c"), none⟩] freshVars ::
    List.replicate 20 (.turn 0 (.go (.resumed 0)))

/-- The backend `c` of `a:b` is counted as busy, and no attempt is active on it. -/
theorem not_inFlight_eq_active_waiting :
    (Runs.exec Requests.next .initial waiting).active (py "a:b", py "c") = 0 ∧
      (Runs.exec Requests.next .initial waiting).shared.inFlight
        (BackendId.key (py "a:b", py "c")) = 1 :=
  ⟨by decide +kernel, by decide +kernel⟩

end LocalGateway
