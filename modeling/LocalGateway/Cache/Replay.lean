import LocalGateway.Cache.Calls
import LocalGateway.Stream.Payloads
import LocalGateway.Stream.Relay

/-!
# Streams that are stored

`handle_request_stream` collects what it yields and stores it when the stream of the backend is over. Its
consumer may close it at any yield, or be cancelled while it waits for the upstream; so an execution is a
beginning of the steps that the generator would take.

* `relayAll_course`: the last step of a run is the call of `respcache.store`, if there is one, with all
  bytes that were yielded before.
* `bytes_of_done`: a stream that is over has yielded something. With `[DONE]` from the upstream that is its
  event, normalised, otherwise the `[DONE]` of the gateway.
* `replaysDelivered`: in every history of the response cache, a stream is stored if and only if it was
  over and delivered, and a hit on a stored stream is what that stream delivered.
-/

namespace LocalGateway

open Py Json

/-! ### Texts that carry payload -/

namespace SSEParser

theorem payloads_eq_nil_iff {s : PyBytes} : payloads s = [] ↔ ∀ l ∈ s.splitOn 10, ¬ IsDataLine l := by
  rw [← filterMap_lineData_eq_nil_iff, ← Lines.flatten_readings lineData rfl, payloads,
    List.map_eq_nil_iff, List.flatten_eq_nil_iff]
  refine ⟨fun h r hr ↦ absurd (h ▸ hr) List.not_mem_nil, fun h ↦ List.eq_nil_iff_forall_not_mem.2 ?_⟩
  exact fun r hr ↦ Lines.ne_nil_of_mem_readings lineData hr (h r hr)

/-- **A text that carries payload still does when it goes on**: a line that begins as a `data:` line is
one. -/
theorem payloads_eq_nil_of_append {s t : PyBytes} (h : payloads (s ++ t) = []) : payloads s = [] := by
  rw [payloads_eq_nil_iff] at h ⊢
  obtain ⟨front, last, hs⟩ : ∃ front last, s.splitOn 10 = front ++ [last] :=
    ⟨_, _, (List.dropLast_append_getLast (List.splitOn_ne_nil 10 s)).symm⟩
  obtain ⟨first, rest, ht⟩ := List.exists_cons_of_ne_nil (List.splitOn_ne_nil 10 t)
  rw [Lines.splitOn_append hs ht] at h
  rw [hs]
  intro l hl hdata
  rcases List.mem_append.1 hl with hl | hl
  · exact h l (List.mem_append_left _ hl) hdata
  · obtain rfl := List.mem_singleton.1 hl
    refine h (l ++ first) (List.mem_append_right _ List.mem_cons_self) ?_
    have hcolon : pyb "data:" <+: l := (isSome_lineData_iff l).1 (Option.isSome_iff_ne_none.2 hdata)
    have hlonger := (isSome_lineData_iff (l ++ first)).2 (hcolon.trans (List.prefix_append l first))
    exact Option.isSome_iff_ne_none.1 hlonger

/-- Chunks without events carry no payload. -/
theorem parse_eq_nil_iff (chunks : List PyBytes) : parse chunks = [] ↔ payloads (seenText chunks) = [] := by
  rw [parse_eq, ← map_data_textEvents, List.map_eq_nil_iff]

/-- Chunks of no bytes are not seen. -/
theorem seenText_filter (chunks : List PyBytes) :
    seenText (chunks.filter (· ≠ [])) = seenText chunks := by
  induction chunks with
  | nil => rfl
  | cons chunk chunks ih =>
    by_cases hchunk : chunk = []
    · subst hchunk
      exact ih
    · rw [List.filter_cons_of_pos (by simpa using hchunk)]
      exact congrArg (normalizeEol chunk ++ ·) ih

theorem seenText_append (chunks more : List PyBytes) :
    seenText (chunks ++ more) = seenText chunks ++ seenText more := by
  simp [seenText]

/-- The parser without events, at any point. -/
theorem parse_eq_nil_of_feedAll {chunks : List PyBytes} (hevents : (feedAll init chunks).1 = [])
    (hflush : (feedAll init chunks).2.flush.1 = none) : parse chunks = [] := by
  rw [parse, hevents, hflush]
  rfl

/-- An event has its wire text, which is not empty. -/
theorem raw_of_mem_feed {p : SSEParser} {chunk : PyBytes} {ev : SSEEvent}
    (h : ev ∈ (p.feed chunk).1) : ∃ raw, ev.raw = some (raw ++ [10, 10]) := by
  obtain ⟨raw, -, hevent⟩ := List.mem_filterMap.1 h
  obtain ⟨ev', -, rfl⟩ := Option.map_eq_some_iff.1 hevent
  exact ⟨raw, rfl⟩

theorem raw_of_flush {p : SSEParser} {ev : SSEEvent} (h : p.flush.1 = some ev) :
    ev.raw = some (p.buf.rdropWhile (· = 10) ++ [10, 10]) := by
  unfold flush at h
  split_ifs at h
  obtain ⟨ev', -, rfl⟩ := Option.map_eq_some_iff.1 h
  rfl

end SSEParser

theorem renderEvent_ne_nil {ev : SSEEvent} {raw : PyBytes} (h : ev.raw = some (raw ++ [10, 10])) :
    renderEvent ev ≠ [] := by
  rw [renderEvent, h]
  simp

theorem utf8Encode_ne_nil {s : PyStr} {out : PyBytes} (h : utf8Encode s = some out) (hs : s ≠ []) :
    out ≠ [] := by
  rintro rfl
  have hdecode := utf8Decode_encode h
  exact hs (hdecode.symm.trans rfl)

/-! ### Chunks that are passed on as nothing -/

section Rewrites

variable (loads : Decoder) (r : FloatRepr)

theorem renderNormalized_ne_nil {ev : SSEEvent} {raw : PyBytes} (h : ev.raw = some (raw ++ [10, 10])) :
    renderNormalized loads r ev ≠ some [] := by
  have hkeep : some (renderEvent ev) ≠ some [] := fun heq ↦ renderEvent_ne_nil h (Option.some.inj heq)
  unfold renderNormalized
  split
  · rename_i d _
    rcases normalizeObj d with - | ⟨d', - | -⟩
    · exact nofun
    · exact hkeep
    · exact fun heq ↦ utf8Encode_ne_nil heq (by simp [py]) rfl
  · exact hkeep

theorem transformEvent_ne_nil {ev : SSEEvent} {raw : PyBytes} (h : ev.raw = some (raw ++ [10, 10])) :
    transformEvent loads r ev ≠ some [] := by
  unfold transformEvent
  split_ifs
  · exact fun heq ↦ renderEvent_ne_nil h (Option.some.inj heq)
  · exact renderNormalized_ne_nil loads r h

/-- A chunk is passed on as nothing only if it completes no event. -/
theorem events_of_transform_nil {parser p : SSEParser} {chunk : PyBytes}
    (h : transformStreamChunk loads r parser chunk = some ([], p)) : (parser.feed chunk).1 = [] := by
  obtain ⟨outs, houts, heq⟩ := Option.map_eq_some_iff.1 h
  have hflat : outs.flatten = [] := (Prod.mk.inj heq).1
  have hall : List.Forall₂ (fun ev out ↦ transformEvent loads r ev = some out) (parser.feed chunk).1 outs :=
    mapM_eq_some_iff.1 houts
  rcases hevents : (parser.feed chunk).1 with - | ⟨ev, evs⟩
  · rfl
  · rw [hevents] at hall
    obtain ⟨out, outs, hout, -, rfl⟩ := List.forall₂_cons_left_iff.1 hall
    obtain ⟨raw, hraw⟩ := SSEParser.raw_of_mem_feed (hevents ▸ List.mem_cons_self)
    have hnil : out = [] := List.flatten_eq_nil_iff.1 hflat out List.mem_cons_self
    exact absurd (hnil ▸ hout) (transformEvent_ne_nil loads r hraw)

/-- The end of a stream is passed on as nothing only if nothing is left. -/
theorem flush_of_nil {parser : SSEParser} (h : flushStreamChunk loads r parser = some []) :
    parser.flush.1 = none := by
  unfold flushStreamChunk at h
  rcases hflush : parser.flush.1 with - | ev
  · rfl
  · have hraw := SSEParser.raw_of_flush hflush
    simp only [hflush] at h
    split_ifs at h
    · exact absurd (Option.some.inj h) (renderEvent_ne_nil hraw)
    · exact absurd h (renderNormalized_ne_nil loads r hraw)

/-- A text is not shifted to nothing. -/
theorem shift_ne_nil {fl : Arith} {out : PyBytes} (hout : out ≠ []) :
    shiftStreamUsageToCached loads r fl out ≠ some [] := by
  unfold shiftStreamUsageToCached
  split
  · exact fun h ↦ hout (Option.some.inj h)
  · split_ifs
    · exact fun h ↦ hout (Option.some.inj h)
    · split
      · exact nofun
      · split_ifs
        · exact fun h ↦ utf8Encode_ne_nil h (by simp) rfl
        · exact fun h ↦ hout (Option.some.inj h)

end Rewrites

theorem Service.events_of_chatChunk_nil (sv : Service) {e : Entry} {parser p : SSEParser}
    {data : PyBytes} (h : sv.chatChunk e parser data = some ([], p)) : (parser.feed data).1 = [] := by
  obtain ⟨⟨out, p'⟩, htransform, h⟩ := Option.bind_eq_some_iff.1 h
  dsimp only at h
  split_ifs at h with hboth
  · obtain ⟨out', hshift, heq⟩ := Option.map_eq_some_iff.1 h
    rw [(Prod.mk.inj heq).1] at hshift
    exact absurd hshift (shift_ne_nil sv.loads sv.repr hboth.1)
  · rw [(Prod.mk.inj (Option.some.inj h)).1] at htransform
    exact events_of_transform_nil sv.loads sv.repr htransform

/-! ### What is stored -/

/-- The stream was over, as `call_provider_stream` has it. -/
def StreamEvent.isDone : StreamEvent → Bool
  | .done _ _ => true
  | _ => false

theorem storesOf_failureSteps (sv : Service) (committed : Bool) (error : PyStr) (status : ℕ)
    (midStream : Bool) : storesOf (sv.failureSteps committed error status midStream) = [] := by
  cases midStream with
  | true => exact storesOf_byteSteps _
  | false =>
    cases committed with
    | true => exact storesOf_byteSteps _
    | false => rfl

theorem storesOf_exhaustedSteps (sv : Service) (s : RelayState) : storesOf (sv.exhaustedSteps s) = [] := by
  unfold Service.exhaustedSteps
  dsimp only
  split_ifs
  · exact storesOf_byteSteps _
  · rfl

theorem RelayState.collected_collect (s : RelayState) (caching : Bool) (outs : List PyBytes) :
    (s.collect caching outs).collected = if caching then s.collected ++ outs else s.collected := by
  unfold collect
  split_ifs <;> rfl

/-! ### One backend -/

/-- The steps are some that store nothing, and then a store of all that was yielded, and of `before`, if
`stores` holds and that is not nothing. -/
def StoresAll (before : List PyBytes) (stores : Prop) [Decidable stores] (steps : List RelayStep) : Prop :=
  ∃ front, storesOf front = [] ∧
    steps = front ++ if stores ∧ before ++ bytesOf front ≠ [] then [.store (before ++ bytesOf front).flatten]
      else []

/-- Steps that store nothing. -/
theorem storesAll_of_not {before : List PyBytes} {stores : Prop} [Decidable stores]
    {steps : List RelayStep} (hsteps : storesOf steps = []) (h : ¬ stores) :
    StoresAll before stores steps :=
  ⟨steps, hsteps, by rw [if_neg fun hboth ↦ h hboth.1, List.append_nil]⟩

namespace Service

variable (sv : Service) {caching : Bool}

/-- What the loop over the events of a backend stores. -/
theorem relay_storesAll (caching : Bool) (a : Attempt Upstream) (b : Books) {ev : StreamEvent} (hev : ev.Ends)
    (cs : List PyBytes) (s : RelayState) (parser : SSEParser) :
    let run := sv.relay caching a b s parser (cs.map .chunk ++ [ev])
    StoresAll s.collected (caching = true ∧ run.ending = .answered ∧ ev.isDone = true) run.steps := by
  induction cs generalizing s parser with
  | nil =>
    rcases ev with data | ⟨usage, sent⟩ | ⟨error, status, retryable, midStream⟩
    · exact absurd hev id
    · simp only [List.map_nil, List.nil_append, relay]
      rcases succeed a (sv.chatRow a.entry usage a.latency true) b with ⟨b', - | - | -⟩
      · dsimp only
        rcases flushStreamChunk sv.loads sv.repr parser with - | tail
        · exact storesAll_of_not (storesOf_commitSteps _ _) (by simp)
        · refine ⟨s.commitSteps a.selected ++ byteSteps (nonempty [tail] ++ if sent then [] else [doneBytes]),
            by simp, ?_⟩
          cases caching with
          | false => simp
          | true => simp [RelayState.collect, RelayState.commit, StreamEvent.isDone]
      · exact storesAll_of_not (storesOf_commitSteps _ _) (by simp)
      · exact storesAll_of_not (storesOf_commitSteps _ _) (by simp)
    · refine storesAll_of_not ?_ (by simp [StreamEvent.isDone])
      simp only [List.map_nil, List.nil_append, relay]
      rw [apply_ite storesOf, storesOf_failureSteps]
      exact ite_self _
  | cons data cs ih =>
    simp only [List.map_cons, List.cons_append, relay]
    rcases sv.chatChunk a.entry parser data with - | ⟨out, parser'⟩
    · exact storesAll_of_not (storesOf_commitSteps _ _) (by simp)
    · obtain ⟨front, hfront, hsteps⟩ := ih (s.commit.collect caching (nonempty [out])) parser'
      refine ⟨s.commitSteps a.selected ++ byteSteps (nonempty [out]) ++ front, by simp [hfront], ?_⟩
      dsimp only at hsteps ⊢
      rw [hsteps, RelayState.collected_collect]
      cases caching with
      | false => simp
      | true => simp [RelayState.commit]

/-- A stream that is over, and of which nothing was passed on, had no events. -/
theorem feedAll_of_silent {a : Attempt Upstream} {b : Books} {usage : StreamUsage} {sent : Bool}
    (cs : List PyBytes) {s : RelayState} {parser : SSEParser}
    (hending : (sv.relay caching a b s parser (cs.map .chunk ++ [.done usage sent])).ending = .answered)
    (hsilent : bytesOf (sv.relay caching a b s parser (cs.map .chunk ++ [.done usage sent])).steps = []) :
    sent = true ∧ (parser.feedAll cs).1 = [] ∧ (parser.feedAll cs).2.flush.1 = none := by
  induction cs generalizing s parser with
  | nil =>
    simp only [List.map_nil, List.nil_append, relay] at hending hsilent
    rcases hrecord : succeed a (sv.chatRow a.entry usage a.latency true) b with ⟨b', - | - | -⟩ <;>
      simp only [hrecord] at hending hsilent
    · rcases hflush : flushStreamChunk sv.loads sv.repr parser with - | tail <;> rw [hflush] at hending hsilent
      · cases hending
      · rw [bytesOf_append, bytesOf_append, bytesOf_commitSteps, bytesOf_byteSteps, List.nil_append,
          List.append_eq_nil_iff, List.append_eq_nil_iff] at hsilent
        obtain ⟨⟨htail, hsent⟩, -⟩ := hsilent
        have hnil : tail = [] := by simpa [nonempty] using htail
        refine ⟨?_, rfl, flush_of_nil sv.loads sv.repr (hnil ▸ hflush)⟩
        cases sent with
        | true => rfl
        | false => cases hsent
    · cases hending
    · cases hending
  | cons data cs ih =>
    simp only [List.map_cons, List.cons_append, relay] at hending hsilent
    rcases hchunk : sv.chatChunk a.entry parser data with - | ⟨out, parser'⟩ <;>
      rw [hchunk] at hending hsilent
    · cases hending
    · dsimp only at hending hsilent
      rw [bytesOf_append, bytesOf_append, bytesOf_commitSteps, bytesOf_byteSteps, List.nil_append,
        List.append_eq_nil_iff] at hsilent
      obtain ⟨hout, hrest⟩ := hsilent
      have hnil : out = [] := by simpa [nonempty] using hout
      subst hnil
      obtain rfl := sv.parser_of_chatChunk hchunk
      obtain ⟨hsent, hevents, hflush⟩ := ih hending hrest
      exact ⟨hsent, by rw [SSEParser.feedAll, hevents, sv.events_of_chatChunk_nil hchunk]; rfl, hflush⟩

end Service

namespace Service

variable (sv : Service) {caching : Bool}

/-- **A stream that is over has yielded something.** -/
theorem bytes_of_done {a : Attempt Upstream} {b : Books} {s : RelayState} {usage : StreamUsage}
    {sent : Bool} (hdone : .done usage sent ∈ callProviderStream sv.loads a.answer)
    (hending : (sv.relayAttempt caching s a b).ending = .answered) :
    bytesOf (sv.relayAttempt caching s a b).steps ≠ [] := by
  intro hsilent
  obtain ⟨chunks, -, hevents, hsaw⟩ := eof_of_done hdone
  unfold relayAttempt at hending hsilent
  rw [hevents] at hending hsilent
  obtain ⟨hsent, hnone, hflush⟩ := sv.feedAll_of_silent _ hending hsilent
  -- what was passed on begins with what came
  have hpayloads := (SSEParser.parse_eq_nil_iff _).1 (SSEParser.parse_eq_nil_of_feedAll hnone hflush)
  rw [passedOn, SSEParser.seenText_append, SSEParser.seenText_filter] at hpayloads
  have hparse := (SSEParser.parse_eq_nil_iff chunks).2 (SSEParser.payloads_eq_nil_of_append hpayloads)
  rw [hparse, hsent] at hsaw
  cases hsaw

/-! ### All backends -/

end Service

/-- The stream of the backend that served the run was over. -/
def StreamRun.endsNormally (loads : Decoder) (run : StreamRun) : Bool :=
  run.tried.getLast?.any fun a ↦ (callProviderStream loads a.answer).any StreamEvent.isDone

namespace Service

variable (sv : Service) {caching : Bool}

theorem any_isDone_concat {cs : List PyBytes} {ev : StreamEvent} :
    (cs.map StreamEvent.chunk ++ [ev]).any StreamEvent.isDone = ev.isDone := by
  rw [List.any_append, List.any_map]
  have hchunks : cs.any (StreamEvent.isDone ∘ StreamEvent.chunk) = false := by simp [StreamEvent.isDone]
  rw [hchunks]
  simp

/-- The run of the last backend. -/
theorem relayAttempt_storesAll (caching : Bool) {s : RelayState} (hs : s.collected = [])
    (a : Attempt Upstream) (b : Books) :
    let run := sv.relayAttempt caching s a b
    StoresAll [] (caching = true ∧ run.ending = .answered ∧
      (callProviderStream sv.loads a.answer).any StreamEvent.isDone = true) run.steps := by
  obtain ⟨cs, ev, hev, hshape⟩ := callProviderStream_shape sv.loads a.answer
  have hstores := sv.relay_storesAll caching a b hev cs s .init
  unfold relayAttempt
  rw [hshape, any_isDone_concat]
  rwa [hs] at hstores

/-- The last backend of a run stores what was yielded, as one body, if caching applies and its stream is over: a stream
that is over has yielded something. -/
theorem relayAttempt_stores (caching : Bool) {s : RelayState} (hs : s.collected = []) (a : Attempt Upstream)
    (b : Books) :
    let run := sv.relayAttempt caching s a b
    ∃ front, storesOf front = [] ∧ run.steps = front ++
      if caching = true ∧ run.ending = .answered ∧ (callProviderStream sv.loads a.answer).any StreamEvent.isDone = true
      then [.store (bytesOf front).flatten] else [] := by
  obtain ⟨front, hfront, hsteps⟩ := sv.relayAttempt_storesAll caching hs a b
  refine ⟨front, hfront, ?_⟩
  by_cases hstores : caching = true ∧ (sv.relayAttempt caching s a b).ending = .answered ∧
      (callProviderStream sv.loads a.answer).any StreamEvent.isDone = true
  · have hbytes : bytesOf front ≠ [] := by
      obtain ⟨ev, hev, hdone⟩ := List.any_eq_true.1 hstores.2.2
      rcases ev with data | ⟨usage, sent⟩ | failed
      · cases hdone
      · have hsome := sv.bytes_of_done hev hstores.2.1
        rw [hsteps, bytesOf_append] at hsome
        split_ifs at hsome <;> simpa [bytesOf, RelayStep.bytes?] using hsome
      · cases hdone
    rw [if_pos hstores]
    rwa [List.nil_append, if_pos ⟨hstores, hbytes⟩] at hsteps
  · rw [if_neg hstores]
    rwa [if_neg fun h ↦ hstores h.1] at hsteps

/-- A backend after which another is tried yields nothing, and nothing is collected. -/
theorem relayAttempt_next {s : RelayState} {a : Attempt Upstream} {b : Books} (hs : s.committed = false)
    (h : (sv.relayAttempt caching s a b).ending = .next) :
    (sv.relayAttempt caching s a b).steps = [] ∧
      (sv.relayAttempt caching s a b).state.committed = false ∧
        (sv.relayAttempt caching s a b).state.collected = s.collected ∧
          (callProviderStream sv.loads a.answer).any StreamEvent.isDone = false := by
  by_cases hfailed : ∃ error status retryable midStream, callProviderStream sv.loads a.answer =
      [.failed error status retryable midStream]
  · obtain ⟨error, status, retryable, midStream, hevs⟩ := hfailed
    have hrun : sv.relayAttempt caching s a b = _ := sv.relayAttempt_failed hs hevs
    rw [hrun] at h ⊢
    have hnext : (sv.fail a (some error) status true
        (if !midStream && retryable then .next else .answered) b).2 = .next := h
    refine ⟨if_neg (by rw [hnext]; simp), ?_, ?_, by rw [hevs]; rfl⟩
    · show (if midStream then s else _).committed = false
      split_ifs <;> exact hs
    · show (if midStream then s else _).collected = s.collected
      split_ifs <;> rfl
  · exact absurd h (sv.relayAttempt_served caching hs fun _ _ _ _ heq ↦ hfailed ⟨_, _, _, _, heq⟩).2

/-- A backend whose stream is not over makes no difference to how a run ends. -/
theorem endsNormally_cons {loads : Decoder} {run rest : StreamRun} {a : Attempt Upstream}
    (htried : run.tried = a :: rest.tried)
    (ha : (callProviderStream loads a.answer).any StreamEvent.isDone = false) :
    run.endsNormally loads = rest.endsNormally loads := by
  unfold StreamRun.endsNormally
  rw [htried, List.getLast?_cons]
  rcases rest.tried.getLast? with - | last
  · exact ha
  · rfl

/-- **What a run stores.** The bytes that were yielded before, as one body, if caching applies and the stream
of the last backend is over; it is the last step, and the only store. -/
theorem relayAll_course (as : List (Attempt Upstream)) (b : Books) {s : RelayState}
    (hs : s.committed = false) (hcollected : s.collected = []) :
    let run := sv.relayAll caching s as b
    ∃ front, storesOf front = [] ∧ run.course = front ++
      if caching = true ∧ run.raised = false ∧ run.endsNormally sv.loads = true then
        [.store (bytesOf front).flatten]
      else [] := by
  induction as generalizing b s with
  | nil =>
    refine ⟨_, storesOf_exhaustedSteps sv s, ?_⟩
    simp [relayAll, StreamRun.course, StreamRun.endsNormally]
  | cons a as ih =>
    by_cases hending : (sv.relayAttempt caching s a b).ending = .next
    · -- a backend that is left has yielded nothing and stores nothing
      obtain ⟨hsteps, hcommitted, hkept, hover⟩ := sv.relayAttempt_next hs hending
      obtain ⟨front, hfront, hcourse⟩ :=
        ih (sv.relayAttempt caching s a b).books hcommitted (hkept.trans hcollected)
      have hrun := sv.relayAll_cons_next hending as
      have hends : (sv.relayAll caching s (a :: as) b).endsNormally sv.loads = _ :=
        endsNormally_cons (congrArg StreamRun.tried hrun) hover
      refine ⟨front, hfront, ?_⟩
      rw [hends, congrArg StreamRun.raised hrun, StreamRun.course, sv.items_cons_next hending hsteps]
      exact hcourse
    · obtain ⟨front, hfront, hsteps⟩ := sv.relayAttempt_stores caching hcollected a b
      have hends : (sv.relayAll caching s (a :: as) b).endsNormally sv.loads =
          (callProviderStream sv.loads a.answer).any StreamEvent.isDone := by
        rw [sv.relayAll_cons_stop hending as]
        rfl
      have hraised : (sv.relayAll caching s (a :: as) b).raised = false ↔
          (sv.relayAttempt caching s a b).ending = .answered := by
        rw [sv.relayAll_raised_stop hending as]
        cases h : (sv.relayAttempt caching s a b).ending with
        | answered => simp
        | next => exact absurd h hending
        | raised => simp
      refine ⟨front, hfront, ?_⟩
      rw [sv.relayAll_course_stop hending as, hends, hsteps]
      simp only [hraised]

/-- One event, the `[DONE]` of the gateway, and both stored. -/
example : storesOf ((pricedService helloText helloObject).streamRun true
    [{ cutStream with answer := .streamed [eventBytes helloText] .eof }] .empty).course =
      [eventBytes helloText ++ doneBytes] := by
  decide +kernel

end Service

/-! ### Executions -/

/-- What becomes of a request to `handle_request_stream`. -/
inductive Course
  | hit (body : PyBytes)
  /-- No backend can be selected. -/
  | refused (message code : PyStr) (status : ℕ)
  | routed (as : List (Attempt Upstream))

namespace Course

variable (sv : Service) (caching : Bool) (b : Books)

/-- The steps of the generator. -/
def steps : Course → List RelayStep
  | .hit body => [.item .cached, .item (.bytes body)]
  | .refused message code status => [.item (.error message code status)]
  | .routed as => (sv.streamRun caching as b).course

/-- The generator ends with an exception. -/
def raised : Course → Bool
  | .routed as => (sv.streamRun caching as b).raised
  | _ => false

/-- A backend serves the request, and its stream is over. -/
def endsNormally : Course → Bool
  | .routed as => (sv.streamRun caching as b).endsNormally sv.loads
  | _ => false

theorem steps_eq (c : Course) : ∃ front, storesOf front = [] ∧ c.steps sv caching b = front ++
    if caching = true ∧ c.raised sv caching b = false ∧ c.endsNormally sv caching b = true then
      [.store (bytesOf front).flatten]
    else [] := by
  cases c with
  | hit body => exact ⟨[.item .cached, .item (.bytes body)], rfl, by simp [steps, endsNormally]⟩
  | refused message code status =>
    exact ⟨[.item (.error message code status)], rfl, by simp [steps, endsNormally]⟩
  | routed as => exact sv.relayAll_course as b rfl rfl

end Course

/-- An execution of steps that may end with an exception. It is finished when the generator has returned.
Otherwise the exception was raised, or the generator was closed at a yield or cancelled while it waited;
there is no such point between a store and the return. -/
structure Execution (steps : List RelayStep) (raised : Bool) where
  taken : List RelayStep
  finished : Bool
  beginning : taken <+: steps
  whole : finished = true → taken = steps ∧ raised = false
  paused : finished = false → ∀ body, taken.getLast? ≠ some (.store body)

namespace Execution

variable {steps : List RelayStep} {raised : Bool} (e : Execution steps raised)

/-- The bytes that the client gets. -/
def delivered : List PyBytes :=
  bytesOf e.taken

/-- The bodies that are stored. -/
def stored : List PyBytes :=
  storesOf e.taken

/-- **What an execution stores** of steps that end with a store, if at all. -/
theorem stored_eq {front : List RelayStep} {stores : Prop} [Decidable stores] (hfront : storesOf front = [])
    (hsteps : steps = front ++ if stores then [.store (bytesOf front).flatten] else []) :
    e.stored = if e.finished = true ∧ stores then [e.delivered.flatten] else [] := by
  unfold stored delivered
  cases hfinished : e.finished with
  | true =>
    rw [(e.whole hfinished).1, hsteps]
    by_cases hstores : stores
    · rw [if_pos hstores, if_pos ⟨rfl, hstores⟩, storesOf_append, bytesOf_append, hfront]
      simp [storesOf, bytesOf, RelayStep.stored?, RelayStep.bytes?]
    · rw [if_neg hstores, if_neg fun h ↦ hstores h.2, List.append_nil, hfront]
  | false =>
    -- a store, being the last step, is not taken
    have hbeginning : e.taken <+: front := by
      have htaken : e.taken <+: front ++ if stores then [.store (bytesOf front).flatten] else [] := by
        rw [← hsteps]
        exact e.beginning
      split_ifs at htaken
      · refine (List.prefix_concat_iff.1 htaken).resolve_left fun hall ↦ ?_
        exact e.paused hfinished _ (by rw [hall, List.getLast?_concat])
      · rwa [List.append_nil] at htaken
    obtain ⟨rest, rfl⟩ := hbeginning
    rw [storesOf_append] at hfront
    rw [if_neg fun h ↦ Bool.false_ne_true h.1]
    exact (List.append_eq_nil_iff.1 hfront).1

end Execution

/-! ### Histories of the cache -/

section Histories

variable (r : FloatRepr) (sha256 : PyBytes → PyStr)

/-- A request to `handle_request_stream`, what becomes of it, and how it is executed. -/
structure Streamed where
  service : Service
  request : RespCache.Request
  course : Course
  books : Books
  execution :
    Execution (course.steps service (request.cacheFp r sha256).isSome books)
      (course.raised service (request.cacheFp r sha256).isSome books)
  ttlSec : ℚ
  maxEntries : ℤ
  now : ℚ

variable {r sha256}

namespace Streamed

variable (x : Streamed r sha256)

/-- A backend serves the request, and its stream is over. -/
def endsNormally : Bool :=
  x.course.endsNormally x.service (x.request.cacheFp r sha256).isSome x.books

/-- The calls of `respcache.store`. -/
def calls : List RespCache.CacheCall :=
  (x.request.cacheFp r sha256).toList.flatMap fun key ↦
    x.execution.stored.map fun body ↦ .store key x.request.model body true x.ttlSec x.maxEntries x.now

/-- **What a request stores.** -/
theorem stored_eq : x.execution.stored =
    if (x.request.cacheFp r sha256).isSome = true ∧ x.execution.finished = true ∧ x.endsNormally = true then
      [x.execution.delivered.flatten]
    else [] := by
  obtain ⟨front, hfront, hsteps⟩ :=
    x.course.steps_eq x.service (x.request.cacheFp r sha256).isSome x.books
  rw [x.execution.stored_eq hfront hsteps]
  refine if_congr ⟨fun h ↦ ⟨h.2.1, h.1, h.2.2.2⟩, fun h ↦ ⟨h.2.1, h.1, ?_, h.2.2⟩⟩ rfl rfl
  exact (x.execution.whole h.2.1).2

/-- **What a hit yields.** -/
theorem delivered_of_hit {body : PyBytes} (hcourse : x.course = .hit body)
    (hfinished : x.execution.finished = true) : x.execution.delivered.flatten = body := by
  rw [Execution.delivered, (x.execution.whole hfinished).1, hcourse]
  exact List.flatten_singleton

end Streamed

/-- What happens to the response cache. -/
inductive CacheEvent (r : FloatRepr) (sha256 : PyBytes → PyStr)
  /-- An execution of `handle_request_stream`, where it ends. -/
  | streamed (x : Streamed r sha256)
  /-- Any other call. Only `handle_request_stream` stores streams. -/
  | other (i : RespCache.CacheCall) (plain : ∀ key model body stream ttlSec maxEntries now,
      i = .store key model body stream ttlSec maxEntries now → stream = false)

/-- The calls of the cache. -/
def CacheEvent.calls : CacheEvent r sha256 → List RespCache.CacheCall
  | .streamed x => x.calls
  | .other i _ => [i]

/-- The cache after a history. -/
def cacheAfter (history : List (CacheEvent r sha256)) : RespCache.Cache :=
  Runs.exec RespCache.after .init (history.flatMap CacheEvent.calls)

/-- A stream is stored as it was delivered, if and only if caching applies, the stream of the backend that
served it was over and the generator has returned; and a hit on a stored stream yields the bytes that were
delivered then. -/
structure ReplaysDelivered (history : List (CacheEvent r sha256)) : Prop where
  stored : ∀ x, .streamed x ∈ history → x.execution.stored =
    if (x.request.cacheFp r sha256).isSome = true ∧ x.execution.finished = true ∧ x.endsNormally = true then
      [x.execution.delivered.flatten]
    else []
  hit : ∀ key ttlSec now body hits,
    (RespCache.lookup (cacheAfter history) key ttlSec now).1 = some (body, true, hits) →
      ∃ x, .streamed x ∈ history ∧ x.request.cacheFp r sha256 = some key ∧ x.execution.finished = true ∧
        x.endsNormally = true ∧ ∀ y : Streamed r sha256, y.course = .hit body →
          y.execution.finished = true → y.execution.delivered.flatten = x.execution.delivered.flatten

/-- **A stored stream is the one that was delivered**, in every history of the response cache. -/
theorem replaysDelivered (history : List (CacheEvent r sha256)) : ReplaysDelivered history := by
  refine ⟨fun x _ ↦ x.stored_eq, fun key ttlSec now body hits hhit ↦ ?_⟩
  obtain ⟨entry, ⟨model, maxEntries, hstore⟩, -, hentry⟩ :=
    RespCache.lookup_some (RespCache.exec_storedIn (history.flatMap CacheEvent.calls)) hhit
  obtain ⟨hbody, hstream, -⟩ : body = entry.body ∧ true = entry.stream ∧ hits = entry.hits + 1 := by
    simpa using hentry
  obtain ⟨event, hevent, hcall⟩ := List.mem_flatMap.1 hstore
  rcases event with x | ⟨i, plain⟩
  · -- the store of an execution
    obtain ⟨key', hkey, hcall⟩ := List.mem_flatMap.1 hcall
    obtain ⟨stored, hmem, heq⟩ := List.mem_map.1 hcall
    rw [x.stored_eq] at hmem
    split_ifs at hmem with hwhen
    · obtain ⟨rfl, -, rfl, -⟩ := RespCache.CacheCall.store.inj heq
      refine ⟨x, hevent, Option.mem_toList.1 hkey, hwhen.2.1, hwhen.2.2, fun y hy hfinished ↦ ?_⟩
      rw [y.delivered_of_hit hy hfinished, hbody]
      exact List.mem_singleton.1 hmem
    · exact absurd hmem List.not_mem_nil
  · obtain rfl := List.mem_singleton.1 hcall
    have hplain := plain _ _ _ _ _ _ _ rfl
    rw [← hstream] at hplain
    cases hplain

end Histories

end LocalGateway
