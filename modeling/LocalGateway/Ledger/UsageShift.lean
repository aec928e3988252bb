import LocalGateway.Ledger.ShiftedCounts
import LocalGateway.Stream.Relay
import LocalGateway.Stream.Shifted

/-!
# Usage that is relayed and usage that is logged

In a stream the usage is shifted in the text of the chunks that are passed on, and logged from the events that came.
A client reads the usage in the place of the event that has it.

* `Service.chunk_readsAs_iff`: what it reads of the chunk that the event is passed on with.
* `usageAgrees_iff`: when a client that reads the relayed usage, of a body or of a stream, finds the counts that
  are logged.
-/

namespace LocalGateway

open Py Json

/-! ### Chunks of a stream -/

/-- A text that begins with a brace is not the sentinel. -/
theorem not_isDone_dumps (ascii : Bool) (r : FloatRepr) (d : PyDict) :
    isDone (dumps ascii r (.obj d)) = false := by
  obtain ⟨t, ht⟩ : ∃ t, dumps ascii r (.obj d) = 123 :: t := by
    rcases d with - | ⟨⟨k, v⟩, d⟩
    · exact ⟨_, rfl⟩
    · exact ⟨_, rfl⟩
  rw [ht, isDone, decide_eq_false_iff_not]
  intro hstrip
  have hdrop : (123 :: t).dropWhile isSpace = 123 :: t := List.dropWhile_cons_of_neg (by decide)
  have hbegins : py "[DONE]" <+: 123 :: t := by
    rw [← hstrip, strip, hdrop]
    exact List.rdropWhile_prefix _ _
  obtain ⟨rest, hrest⟩ := hbegins
  exact absurd (List.cons.inj hrest).1 (by decide)

namespace Service

variable (sv : Service)

/-- The payload that is passed on of an event is a text of its object, or of the object with its reasoning
normalised, which is one line. -/
theorem normalizedData_normal {ev : SSEEvent} {d : PyDict} {n : PyStr}
    (hobj : eventObj sv.loads ev = some d) (hev : ev.done = isDone ev.data)
    (h : normalizedData sv.loads sv.repr ev.data = some n)
    (hwritten : ∀ d', sv.Written d d' → sv.ReadsBack d') :
    ∃ d₁, Normal d d₁ ∧ sv.loads.text n = some (.obj d₁) ∧ isDone n = false ∧ (n = ev.data ∨ 10 ∉ n) := by
  have hload : ev.done = false ∧ sv.loads.text ev.data = some (.obj d) := by
    unfold eventObj at hobj
    split_ifs at hobj with hdone
    split at hobj
    · next d' hd' =>
      obtain rfl := Option.some.inj hobj
      exact ⟨by simpa using hdone, hd'⟩
    · cases hobj
  have hnot : isDone ev.data = false := hev.symm.trans hload.1
  have hkeep : some ev.data = some n → ∃ d₁, Normal d d₁ ∧ sv.loads.text n = some (.obj d₁) ∧
      isDone n = false ∧ (n = ev.data ∨ 10 ∉ n) := fun heq ↦ by
    obtain rfl := Option.some.inj heq
    exact ⟨d, .inl rfl, hload.2, hnot, .inl rfl⟩
  unfold normalizedData at h
  split_ifs at h
  · exact hkeep h
  · rw [hload.2] at h
    rcases hnormalize : normalizeObj d with - | ⟨d₁, - | -⟩ <;> simp only [hnormalize] at h
    · cases h
    · exact hkeep h
    · obtain rfl := Option.some.inj h
      have hnormal : Normal d d₁ := .inr ⟨true, hnormalize⟩
      exact ⟨d₁, hnormal, (hwritten d₁ ⟨d₁, hnormal, .inl rfl⟩).text false, not_isDone_dumps _ _ _,
        .inr fun hlf ↦ absurd (dumps_printable false sv.repr (.obj d₁) 10 hlf) (by decide)⟩

/-- The shift finds the usage of an event: all that is passed on with it is UTF-8 and mentions `"usage"`, and what is
passed on of it has one `data:` line, with a space. -/
def FindsUsage (parser : SSEParser) (data : PyBytes) (ev : SSEEvent) : Prop :=
  ∃ out p text l, transformStreamChunk sv.loads sv.repr parser data = some (out, p) ∧ MentionsUsage out ∧
    transformEvent sv.loads sv.repr ev = some text ∧ SSEParser.dataLines text = [[l]] ∧
      startsWith l (py "data: ") = true

/-- **A chunk.** The payload that a client reads in the place of the event has the counts of the row exactly if the
shift finds the usage and adds to the right count. -/
theorem chunk_readsAs_iff {e : Entry} (hlacks : lacksCacheRead (sv.pricing e) = true) {parser p : SSEParser}
    {data out' : PyBytes} (h : sv.chatChunk e parser data = some (out', p)) {evs₁ evs₂ : List SSEEvent}
    {ev : SSEEvent} (hevs : (parser.feed data).1 = evs₁ ++ ev :: evs₂) {d usage : PyDict} {n : ℤ}
    (hobj : eventObj sv.loads ev = some d) (husage : dictAt d (py "usage") = some usage)
    (hcount : countOf (get? usage (py "prompt_tokens")) = some n) (hn : n ≠ 0)
    (hwhole : 10 ∈ ev.data → ∀ x ∈ ev.data.splitOn 10, ∀ d, sv.loads.text x ≠ some (.obj d))
    (hwritten : ∀ d', sv.Written d d' → sv.ReadsBack d') {u : StreamUsage} {row : UsageRow}
    {earlier : Option ℤ} (hrow : row.usage = shiftLogged (sv.pricing e) u) (hinput : u.inputTokens = some n)
    (hcached : u.cachedTokens = (usageFromDict usage).cachedTokens.or earlier) :
    ∃ y, (SSEParser.payloads out')[evs₁.length]? = some y ∧
      (ReadsAs (sv.loads.text y) row ↔ sv.FindsUsage parser data ev ∧ ShiftsCounts usage earlier) := by
  obtain ⟨out, text, n', ls, ls', htransform, htext, hnormalized, hls, hpayload, hls', hshifts, hstays⟩ :=
    sv.exists_dataLines hlacks h hevs
  obtain ⟨raw, -, -, hblock⟩ := SSEParser.block_of_mem_feed (show ev ∈ (parser.feed data).1 by simp [hevs])
  obtain ⟨d₁, hnormal, hload, hdone, hline⟩ := sv.normalizedData_normal hobj
    (SSEParser.done_of_blockEvent hblock) hnormalized hwritten
  have husage₁ : dictAt d₁ (py "usage") = some usage := hnormal.dictAt_usage.trans husage
  have hlines := SSEParser.splitOn_linesPayload (hls ▸ List.mem_singleton_self ls)
  rw [hpayload] at hlines
  refine ⟨SSEParser.linesPayload ls', by rw [SSEParser.payloads_eq_map, List.getElem?_map, hls']; rfl, ?_⟩
  -- what stays as it is has not been shifted
  have hsame : ls' = ls → ¬ sv.FindsUsage parser data ev →
      (ReadsAs (sv.loads.text (SSEParser.linesPayload ls')) row ↔
        sv.FindsUsage parser data ev ∧ ShiftsCounts usage earlier) := fun hkept hnot ↦ by
    rw [hkept, hpayload]
    exact iff_of_false (not_readsAs husage₁ hcount hn hload hlacks hrow hinput) fun hboth ↦ hnot hboth.1
  have hfinds : sv.FindsUsage parser data ev ↔
      MentionsUsage out ∧ ∃ l, ls = [l] ∧ startsWith l (py "data: ") = true := by
    constructor
    · rintro ⟨out₁, p₁, text₁, l, htransform₁, hmention, htext₁, hl, hstart⟩
      obtain ⟨rfl, rfl⟩ := Prod.mk.inj (Option.some.inj (htransform₁.symm.trans htransform))
      obtain rfl := Option.some.inj (htext₁.symm.trans htext)
      exact ⟨hmention, l, (List.cons.inj (hls.symm.trans hl)).1, hstart⟩
    · rintro ⟨hmention, l, rfl, hstart⟩
      exact ⟨out, p, text, l, htransform, hmention, htext, hls, hstart⟩
  by_cases hmention : MentionsUsage out
  · have hrel := hshifts hmention
    by_cases hlf : 10 ∈ n'
    · -- the payload has several lines, so it is that of the event
      have heq : n' = ev.data := hline.resolve_right fun hnot ↦ hnot hlf
      refine hsame (eq_of_shiftsLine hrel hlines (heq ▸ hwhole (heq ▸ hlf))) fun hfound ↦ ?_
      obtain ⟨-, l, rfl, -⟩ := hfinds.1 hfound
      obtain ⟨x, rest, -, hrest, hx⟩ := List.forall₂_cons_left_iff.1 hlines
      obtain rfl := List.forall₂_nil_left_iff.1 hrest
      obtain rfl := Lines.eq_of_splitOn_eq_singleton hx
      exact Lines.not_mem_of_mem_splitOn (hx ▸ List.mem_singleton_self n') hlf
    · rw [List.splitOn_eq_singleton hlf] at hlines
      obtain ⟨l, rest, hl, hrest, rfl⟩ := List.forall₂_cons_right_iff.1 hlines
      obtain rfl := List.forall₂_nil_right_iff.1 hrest
      obtain ⟨l', rest', hshift, hrest', rfl⟩ := List.forall₂_cons_left_iff.1 hrel
      obtain rfl := List.forall₂_nil_left_iff.1 hrest'
      rcases hstart : startsWith l (py "data: ") with - | -
      · refine hsame (by rw [hshift.eq_self hl (by simp [hstart])]) fun hfound ↦ ?_
        obtain ⟨-, m, hm, hmstart⟩ := hfinds.1 hfound
        obtain rfl := (List.cons.inj hm).1
        rw [hstart] at hmstart
        cases hmstart
      · have hfound := hfinds.2 ⟨hmention, l, rfl, hstart⟩
        obtain rfl := eq_of_dataLine hl hstart
        obtain ⟨res, hres, rfl⟩ := hshift.of_obj hload hdone
        obtain ⟨d₂, -, rfl, -⟩ := shiftUsageObj_counts husage₁ hcount hn hres
        rw [and_iff_right hfound]
        have hread : sv.loads.text (SSEParser.linesPayload [py "data: " ++ dumps true sv.repr (.obj d₂)]) =
            some (.obj d₂) := by
          rw [SSEParser.linesPayload_singleton rfl]
          exact (hwritten d₂ ⟨d₁, hnormal, .inr hres⟩).text true
        exact sv.readsAs_shifted_iff husage₁ hcount hn hres hread hlacks hrow hinput hcached
  · exact hsame (hstays hmention) fun hfound ↦ hmention (hfinds.1 hfound).1

/-! ### A whole stream -/

/-- What is yielded up to a chunk, and for it. -/
theorem relay_split {caching : Bool} {a : Attempt Upstream} {b : Books} {data : PyBytes}
    {evs : List StreamEvent} (cs : List PyBytes) {s : RelayState} {parser : SSEParser}
    (h : (sv.relay caching a b s parser (cs.map .chunk ++ .chunk data :: evs)).ending ≠ .raised) :
    ∃ front datas out p more,
      (bytesOf (sv.relay caching a b s parser (cs.map .chunk ++ .chunk data :: evs)).steps).flatten =
        front ++ (out ++ more) ∧
      Framed front datas ∧ datas.length = (parser.feedAll cs).1.length ∧
      sv.chatChunk a.entry (parser.feedAll cs).2 data = some (out, p) := by
  induction cs generalizing s parser with
  | nil =>
    simp only [List.map_nil, List.nil_append, relay] at h ⊢
    rcases hchunk : sv.chatChunk a.entry parser data with - | ⟨out, p⟩ <;> rw [hchunk] at h
    · exact absurd rfl h
    · refine ⟨[], [], out, p,
        (bytesOf (sv.relay caching a b (s.commit.collect caching (nonempty [out])) p evs).steps).flatten,
        ?_, Framed.nil, rfl, hchunk⟩
      rw [bytesOf_append, bytesOf_append, bytesOf_commitSteps, bytesOf_byteSteps, List.nil_append,
        List.flatten_append, flatten_nonempty, List.flatten_singleton]
      rfl
  | cons c cs ih =>
    simp only [List.map_cons, List.cons_append, relay] at h ⊢
    rcases hchunk : sv.chatChunk a.entry parser c with - | ⟨out₁, parser'⟩ <;> rw [hchunk] at h
    · exact absurd rfl h
    · obtain ⟨front, datas, out, p, more, hbytes, hframed, hlength, hlast⟩ := ih h
      obtain ⟨datas₁, hframed₁, hdatas₁⟩ := sv.chatChunk_framed hchunk
      obtain rfl := sv.parser_of_chatChunk hchunk
      refine ⟨out₁ ++ front, datas₁ ++ datas, out, p, more, ?_, hframed₁.append hframed, ?_, hlast⟩
      · dsimp only at hbytes ⊢
        rw [bytesOf_append, bytesOf_append, bytesOf_commitSteps, bytesOf_byteSteps, List.nil_append,
          List.flatten_append, flatten_nonempty, List.flatten_singleton, hbytes, List.append_assoc]
      · rw [SSEParser.feedAll, List.length_append, List.length_append, hlength, ← hdatas₁.length_eq,
          List.length_map]

end Service

/-- A stream that is over, with an event that has the last of its usage objects, which counts tokens of the prompt.
A blank line ends the event; if its payload has several lines, none of them is an object by itself. -/
structure StreamReply (sv : Service) (a : Attempt Upstream) where
  before : List PyBytes
  chunk : PyBytes
  after : List PyBytes
  answer_eq : a.answer = .streamed (before ++ chunk :: after) .eof
  earlier : List SSEEvent
  event : SSEEvent
  later : List SSEEvent
  completes : ((SSEParser.feedAll .init before).2.feed chunk).1 = earlier ++ event :: later
  object : PyDict
  usage : PyDict
  prompt : ℤ
  decodes : eventObj sv.loads event = some object
  reports : dictAt object (py "usage") = some usage
  counts : countOf (get? usage (py "prompt_tokens")) = some prompt
  positive : 0 < prompt
  last : ∀ ev ∈ later ++ SSEParser.feedFlush ((SSEParser.feedAll .init before).2.feed chunk).2 after,
    usageObjectOf sv.loads ev = none
  whole : 10 ∈ event.data → ∀ x ∈ event.data.splitOn 10, ∀ d, sv.loads.text x ≠ some (.obj d)
  used : StreamUsage
  sentDone : Bool
  row : UsageRow
  isOver : .done used sentDone ∈ callProviderStream sv.loads a.answer
  logs : sv.chatRow a.entry used a.latency true = some row
  readsBack : ∀ d, sv.Written object d → sv.ReadsBack d

namespace StreamReply

variable {sv : Service} {a : Attempt Upstream} (x : StreamReply sv a)

/-- The events before the one with the usage. -/
def eventsBefore : List SSEEvent :=
  (SSEParser.feedAll .init x.before).1 ++ x.earlier

/-- The cached tokens that usage objects before the last one have reported. -/
def cachedBefore : Option ℤ :=
  lastReport (fun ev ↦ (eventUsage sv.loads ev).bind StreamUsage.cachedTokens) x.eventsBefore

/-- The shift finds the usage of the event. -/
def Found : Prop :=
  sv.FindsUsage (SSEParser.feedAll .init x.before).2 x.chunk x.event

/-- The events of the stream. -/
theorem parse_eq : SSEParser.parse (x.before ++ x.chunk :: x.after) = x.eventsBefore ++ x.event ::
    (x.later ++ SSEParser.feedFlush ((SSEParser.feedAll .init x.before).2.feed x.chunk).2 x.after) := by
  rw [SSEParser.parse, SSEParser.feedAll_append, SSEParser.feedAll, x.completes, eventsBefore,
    SSEParser.feedFlush]
  simp

/-- The counts of the usage that is logged. -/
theorem used_counts : x.used.inputTokens = some x.prompt ∧
    x.used.cachedTokens = (usageFromDict x.usage).cachedTokens.or x.cachedBefore := by
  have hdone := x.isOver
  rw [x.answer_eq] at hdone
  obtain ⟨lengths, -, hused⟩ := usage_of_done sv.loads hdone
  have hobj : usageObjectOf sv.loads x.event = some x.usage := by
    rw [usageObjectOf, x.decodes, Option.bind_some, x.reports]
  have hlast := lastReport_append_cons x.eventsBefore hobj x.last
  have hinput : (usageFromDict x.usage).inputTokens = some x.prompt := x.counts
  rw [hused, x.parse_eq]
  refine ⟨?_, hlast StreamUsage.cachedTokens⟩
  refine (hlast StreamUsage.inputTokens).trans ?_
  rw [hinput]
  rfl

/-- **A stream.** The client finds the counts that are logged in the place of the event exactly if the shift finds
the usage and adds to the right count. -/
theorem readsAs_iff (hlacks : lacksCacheRead (sv.pricing a.entry) = true) {caching : Bool} {s : RelayState}
    {as : List (Attempt Upstream)} {b : Books}
    (hreturns : (sv.relayAll caching s (a :: as) b).raised = false) :
    (∃ y, (SSEParser.payloads (normalizeEol
        (bytesOf (sv.relayAll caching s (a :: as) b).course).flatten))[x.eventsBefore.length]? = some y ∧
      Service.ReadsAs (sv.loads.text y) x.row) ↔
      x.Found ∧ ShiftsCounts x.usage x.cachedBefore := by
  obtain ⟨chunks, hanswer, hevents, -⟩ := eof_of_done x.isOver
  obtain ⟨rfl, -⟩ := Upstream.streamed.inj (x.answer_eq.symm.trans hanswer)
  have hne : x.chunk ≠ [] := by
    intro hnil
    have hcompletes := x.completes
    rw [hnil, feed_nil] at hcompletes
    exact absurd hcompletes (by simp)
  obtain ⟨rest, hpassed⟩ : ∃ rest, passedOn (x.before ++ x.chunk :: x.after) .eof =
      x.before.filter (· ≠ []) ++ x.chunk :: rest := by
    rw [passedOn, List.filter_append, List.filter_cons_of_pos (by simpa using hne)]
    exact ⟨_, List.append_assoc ..⟩
  have hattempt : sv.relayAttempt caching s a b = sv.relay caching a b s .init
      ((x.before.filter (· ≠ [])).map .chunk ++ .chunk x.chunk ::
        (rest.map .chunk ++ [.done x.used x.sentDone])) := by
    unfold Service.relayAttempt
    rw [hevents, hpassed]
    simp
  have hnext : (sv.relayAttempt caching s a b).ending ≠ .next := by
    unfold Service.relayAttempt
    rw [hevents]
    have hends : StreamEvent.Ends (.done x.used x.sentDone) := trivial
    exact sv.relay_ne_next caching hends (fun _ _ _ _ h ↦ by cases h) _ s .init
  have hended := (sv.relayAll_raised_stop hnext as).1 hreturns
  rw [sv.relayAll_course_stop hnext as, hattempt]
  rw [hattempt] at hended
  obtain ⟨front, datas, out, p, more, hbytes, hframed, hlength, hchunk⟩ := sv.relay_split _ hended
  rw [SSEParser.feedAll_filter] at hlength hchunk
  obtain ⟨outDatas, hout, -⟩ := sv.chatChunk_framed hchunk
  obtain ⟨y, hy, hiff⟩ := sv.chunk_readsAs_iff hlacks hchunk x.completes x.decodes x.reports x.counts
    x.positive.ne' x.whole x.readsBack (chatRow_usage x.logs) x.used_counts.1 x.used_counts.2
  -- the client reads what was passed on before, then what was passed on with the event
  have hclient : (SSEParser.payloads (normalizeEol (front ++ (out ++ more))))[x.eventsBefore.length]? =
      some y := by
    rw [SSEParser.normalizeEol_append_of_no_cr hframed.no_cr, SSEParser.normalizeEol_append_of_no_cr hout.no_cr,
      SSEParser.payloads_append_of_closes hframed.closes, SSEParser.payloads_append_of_closes hout.closes,
      hframed.payloads, eventsBefore, List.length_append, List.getElem?_append_right (by omega), hlength,
      Nat.add_sub_cancel_left, List.getElem?_append_left (List.getElem?_eq_some_iff.1 hy).1]
    exact hy
  rw [hbytes, hclient]
  constructor
  · rintro ⟨y', hy', hreads⟩
    obtain rfl := Option.some.inj hy'
    exact hiff.1 hreads
  · intro hboth
    exact ⟨y, rfl, hiff.2 hboth⟩

end StreamReply

/-- **When the relayed usage agrees with the row.** Where no price for reads is known, a client that reads the usage
object of a body finds the input and the cached tokens that are logged exactly if the shift adds to the count that
has been read. In a stream the shift also has to find the usage: all that is passed on with the event is UTF-8 and
mentions `"usage"`, and the event has one `data:` line, with a space. -/
theorem usageAgrees_iff (sv : Service) :
    (∀ e, lacksCacheRead (sv.pricing e) = true → ∀ x : BodyReply sv e,
      (Service.ReadsAs (sv.loads.body x.relayed) x.row ↔ ShiftsCounts x.usage none)) ∧
    ∀ (a : Attempt Upstream), lacksCacheRead (sv.pricing a.entry) = true → ∀ (x : StreamReply sv a) caching s as b,
      (sv.relayAll caching s (a :: as) b).raised = false →
      ((∃ y, (SSEParser.payloads (normalizeEol
          (bytesOf (sv.relayAll caching s (a :: as) b).course).flatten))[x.eventsBefore.length]? = some y ∧
        Service.ReadsAs (sv.loads.text y) x.row) ↔ x.Found ∧ ShiftsCounts x.usage x.cachedBefore) :=
  ⟨fun _ hlacks x ↦ x.readsAs_iff hlacks, fun _ hlacks x _ _ _ _ hreturns ↦ x.readsAs_iff hlacks hreturns⟩

/-! ### A gateway that reads two texts -/

/-- A decoder that knows some texts. -/
def Decoder.ofTexts (texts : List (PyStr × Json)) : Decoder where
  text s := texts.lookup s
  body b := texts.lookup (utf8Decode b)

/-- The text of an object. -/
def textOf (d : PyDict) : PyStr :=
  dumps true .ofFraction (.obj d)

/-- A gateway that knows the texts of an object and of the shifted one. -/
def shiftService (d d' : PyDict) : Service :=
  { pricedService helloText helloObject with loads := .ofTexts [(textOf d, .obj d), (textOf d', .obj d')] }

/-- Objects in ASCII, the first of which needs no normalisation, are read back. -/
theorem readsBack_shiftService {d d' : PyDict} (hnormal : normalizeObj d = some (d, false))
    (hshift : shiftUsageObj .exact d = some (some d')) (hne : textOf d' ≠ textOf d)
    (htext : dumps false .ofFraction (.obj d) = textOf d) (htext' : dumps false .ofFraction (.obj d') = textOf d') :
    ∀ d₁, (shiftService d d').Written d d₁ → (shiftService d d').ReadsBack d₁ := by
  have hall : ∀ {e : PyDict}, (shiftService d d').loads.text (textOf e) = some (.obj e) →
      dumps false .ofFraction (.obj e) = textOf e → (shiftService d d').ReadsBack e := by
    intro e he htext
    have hdumps : ∀ ascii, dumps ascii (shiftService d d').repr (.obj e) = textOf e := by
      rintro (- | -)
      · exact htext
      · rfl
    refine ⟨fun ascii ↦ by rw [hdumps, he], fun ascii b hb ↦ ?_⟩
    rw [hdumps] at hb
    show List.lookup (utf8Decode b) _ = _
    rw [utf8Decode_encode hb]
    exact he
  have hfirst : (shiftService d d').ReadsBack d :=
    hall (by simp [shiftService, Decoder.ofTexts]) htext
  have hsecond : (shiftService d d').ReadsBack d' :=
    hall (by simp [shiftService, Decoder.ofTexts, List.lookup_cons, beq_eq_false_iff_ne.2 hne]) htext'
  rintro d₁ ⟨d₂, hd₂, hd₁⟩
  obtain rfl : d₂ = d := by
    rcases hd₂ with rfl | ⟨changed, hd₂⟩
    · rfl
    · rw [hnormal] at hd₂
      exact (Prod.mk.inj (Option.some.inj hd₂)).1.symm
  rcases hd₁ with rfl | hd₁
  · exact hfirst
  · have heq : shiftUsageObj (shiftService d₂ d').arith d₂ = some (some d') := hshift
    rw [heq] at hd₁
    obtain rfl := Option.some.inj (Option.some.inj hd₁)
    exact hsecond

/-- The object `{"usage": {"prompt_tokens": 1, "completion_tokens": 2}}`. -/
def reportedObject : PyDict :=
  [(py "usage", .obj usageCounts)]

/-- The same object, shifted. -/
def shiftedObject : PyDict :=
  [(py "usage", .obj [(py "prompt_tokens", .int 0), (py "completion_tokens", .int 2),
    (py "prompt_tokens_details", .obj [(py "cached_tokens", .int 1)]),
    (py "cache_read_input_tokens", .int 1)])]

/-- A stream of the one chunk. -/
def chunkStream (chunk : PyBytes) : Attempt Upstream :=
  { cutStream with answer := .streamed [chunk] .eof }

/-- A stream of one chunk, which is one event with the object. -/
theorem exists_streamReply {chunk raw : PyBytes}
    (hfeed : (SSEParser.init.feed chunk).1 = [⟨textOf reportedObject, false, some raw⟩])
    (hflush : (SSEParser.init.feed chunk).2.flush.1 = none)
    (hdone : ∃ sent, .done usageSample sent ∈
      callProviderStream (shiftService reportedObject shiftedObject).loads (.streamed [chunk] .eof)) :
    ∃ x : StreamReply (shiftService reportedObject shiftedObject) (chunkStream chunk),
      x.before = [] ∧ x.chunk = chunk ∧ x.event = ⟨textOf reportedObject, false, some raw⟩ ∧
        x.eventsBefore = [] ∧ x.usage = usageCounts := by
  obtain ⟨sent, hdone⟩ := hdone
  obtain ⟨row, hrow⟩ : ∃ row, (shiftService reportedObject shiftedObject).chatRow (chunkStream chunk).entry
      usageSample (chunkStream chunk).latency true = some row := ⟨_, rfl⟩
  have hload : (shiftService reportedObject shiftedObject).loads.text (textOf reportedObject) =
      some (.obj reportedObject) := by decide +kernel
  have hline : 10 ∉ textOf reportedObject := by decide +kernel
  refine ⟨{
    before := []
    chunk := chunk
    after := []
    answer_eq := rfl
    earlier := []
    event := ⟨textOf reportedObject, false, some raw⟩
    later := []
    completes := hfeed
    object := reportedObject
    usage := usageCounts
    prompt := 1
    decodes := by simp [eventObj, hload]
    reports := rfl
    counts := rfl
    positive := by decide
    last := ?_
    whole := fun h ↦ absurd h hline
    used := usageSample
    sentDone := sent
    row := row
    isOver := hdone
    logs := hrow
    readsBack := readsBack_shiftService (by decide +kernel) (by decide +kernel) (by decide +kernel)
      (by decide +kernel) (by decide +kernel) }, rfl, rfl, rfl, rfl, rfl⟩
  have hnone : SSEParser.feedFlush (SSEParser.init.feed chunk).2 [] = [] := by
    rw [SSEParser.feedFlush, SSEParser.feedAll, hflush]
    rfl
  show ∀ ev ∈ SSEParser.feedFlush (SSEParser.init.feed chunk).2 [], _
  rw [hnone]
  exact List.forall_mem_nil _

/-- A body and a stream with the object are relayed with the counts that are logged. -/
theorem usageAgrees_sample :
    (∃ x : BodyReply (shiftService reportedObject shiftedObject) (plainEntry 0 (py "a") 1),
      x.usage = usageCounts ∧
        Service.ReadsAs ((shiftService reportedObject shiftedObject).loads.body x.relayed) x.row) ∧
    ∃ x : StreamReply (shiftService reportedObject shiftedObject)
        (chunkStream (eventBytes (textOf reportedObject))),
      x.usage = usageCounts ∧ ∃ y, (SSEParser.payloads (normalizeEol (bytesOf
        ((shiftService reportedObject shiftedObject).relayAll false .init
          [chunkStream (eventBytes (textOf reportedObject))] .empty).course).flatten))[x.eventsBefore.length]? =
            some y ∧
        Service.ReadsAs ((shiftService reportedObject shiftedObject).loads.text y) x.row := by
  let sv := shiftService reportedObject shiftedObject
  have hlacks : lacksCacheRead (sv.pricing (plainEntry 0 (py "a") 1)) = true := by decide +kernel
  have hread : ∀ d, sv.Written reportedObject d → sv.ReadsBack d :=
    readsBack_shiftService (by decide +kernel) (by decide +kernel) (by decide +kernel) (by decide +kernel)
      (by decide +kernel)
  constructor
  · obtain ⟨row, hrow⟩ : ∃ row, sv.chatRow (plainEntry 0 (py "a") 1) usageSample 1 false = some row := ⟨_, rfl⟩
    have hextract : extractUsage sv.loads ((textOf reportedObject).map UInt8.ofNat) = usageSample := by
      decide +kernel
    let x : BodyReply sv (plainEntry 0 (py "a") 1) := {
      body := (textOf reportedObject).map UInt8.ofNat
      latency := 1
      object := reportedObject
      usage := usageCounts
      prompt := 1
      relayed := (textOf shiftedObject).map UInt8.ofNat
      row := row
      decodes := by decide +kernel
      reports := rfl
      counts := rfl
      positive := by decide
      relays := by decide +kernel
      logs := hextract ▸ hrow
      readsBack := hread }
    exact ⟨x, rfl, ((usageAgrees_iff sv).1 _ hlacks x).2 rfl⟩
  · have hfeed : (SSEParser.init.feed (eventBytes (textOf reportedObject))).1 =
        [⟨textOf reportedObject, false, some (eventBytes (textOf reportedObject))⟩] := by decide +kernel
    have hevents : callProviderStream sv.loads (.streamed [eventBytes (textOf reportedObject)] .eof) =
        [.chunk (eventBytes (textOf reportedObject)), .done usageSample false] := rfl
    obtain ⟨x, hbefore, hchunk, hevent, hnone, husage⟩ := exists_streamReply hfeed (by decide +kernel)
      ⟨false, by rw [hevents]; simp⟩
    have hfound : x.Found := by
      obtain ⟨p, hp⟩ : ∃ p, transformStreamChunk sv.loads sv.repr .init (eventBytes (textOf reportedObject)) =
          some (eventBytes (textOf reportedObject), p) := ⟨_, rfl⟩
      unfold StreamReply.Found
      rw [hbefore, hchunk, hevent]
      exact ⟨_, p, eventBytes (textOf reportedObject), py "data: " ++ textOf reportedObject, hp,
        ⟨py "data: " ++ textOf reportedObject ++ py "\n\n", by decide +kernel, by decide +kernel⟩, rfl,
        by decide +kernel, rfl⟩
    have hcached : x.cachedBefore = none := by
      rw [StreamReply.cachedBefore, hnone]
      rfl
    refine ⟨x, husage, ((usageAgrees_iff sv).2 (chunkStream (eventBytes (textOf reportedObject))) hlacks x false
      .init [] .empty (by decide +kernel)).2 ⟨hfound, ?_⟩⟩
    rw [husage, hcached]
    rfl

/-! ### Usage that does not agree -/

/-- The object `{"usage": {"prompt_tokens": 10, …, "prompt_tokens_details": {"cached_tokens": 4}}}`. -/
def detailedObject : PyDict :=
  [(py "usage", .obj (detailedCounts (py "cached_tokens")))]

/-- The same object, shifted. -/
def shiftedDetailed : PyDict :=
  [(py "usage", .obj [(py "prompt_tokens", .int 0), (py "completion_tokens", .int 1),
    (py "prompt_tokens_details", .obj [(py "cached_tokens", .int 14)]),
    (py "cache_read_input_tokens", .int 10)])]

/-- The bytes of an event with the text, without the space. -/
def tightBytes (text : PyStr) : PyBytes :=
  (py "data:" ++ text ++ py "\n\n").map UInt8.ofNat

/-- **Other counts than those that are logged.** With 4 cached tokens in the details, the relayed body says 10 and
the row 14; and a stream whose `data:` line has no space is relayed as it came, with the input that the row does
not have. -/
theorem not_usageAgrees_detailed :
    (∃ relayed row, (shiftService detailedObject shiftedDetailed).relayBody (plainEntry 0 (py "a") 1)
        ((textOf detailedObject).map UInt8.ofNat) = some relayed ∧
      (shiftService detailedObject shiftedDetailed).chatRow (plainEntry 0 (py "a") 1)
        (extractUsage (shiftService detailedObject shiftedDetailed).loads
          ((textOf detailedObject).map UInt8.ofNat)) 1 false = some row ∧
      row.usage.cachedTokens = some 14 ∧
      ¬ Service.ReadsAs ((shiftService detailedObject shiftedDetailed).loads.body relayed) row) ∧
    ∃ row, callProviderStream (shiftService reportedObject shiftedObject).loads
        (.streamed [tightBytes (textOf reportedObject)] .eof) =
          [.chunk (tightBytes (textOf reportedObject)), .done usageSample false] ∧
      (shiftService reportedObject shiftedObject).chatRow (plainEntry 0 (py "a") 1) usageSample 1 true =
        some row ∧
      SSEParser.payloads (normalizeEol (bytesOf ((shiftService reportedObject shiftedObject).relayAll false .init
        [chunkStream (tightBytes (textOf reportedObject))] .empty).course).flatten) =
          [textOf reportedObject, py "[DONE]"] ∧
      ¬ Service.ReadsAs ((shiftService reportedObject shiftedObject).loads.text (textOf reportedObject)) row := by
  constructor
  · refine ⟨(textOf shiftedDetailed).map UInt8.ofNat, _, by decide +kernel, rfl, by decide +kernel, ?_⟩
    have hload : (shiftService detailedObject shiftedDetailed).loads.body
        ((textOf shiftedDetailed).map UInt8.ofNat) = some (.obj shiftedDetailed) := by decide +kernel
    rw [Service.readsAs_iff hload rfl]
    rintro ⟨-, hcached⟩
    exact absurd hcached (by decide +kernel)
  · refine ⟨_, rfl, rfl, by decide +kernel, ?_⟩
    have hload : (shiftService reportedObject shiftedObject).loads.text (textOf reportedObject) =
        some (.obj reportedObject) := by decide +kernel
    rw [Service.readsAs_iff hload rfl]
    rintro ⟨hinput, -⟩
    exact absurd hinput (by decide +kernel)

end LocalGateway
