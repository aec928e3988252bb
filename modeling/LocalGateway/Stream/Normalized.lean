import LocalGateway.Stream.Reasoning
import LocalGateway.Stream.Rewritten

/-!
# Streams that are normalised

`transform_stream_chunk` over the chunks of a stream, then `flush_stream_chunk`: what the parser makes of the bytes
that come out, against what it makes of the bytes that came in.

* `SSEParser.Reads`: a text that is read as the given events, whatever follows it.
* `SSEParser.parse_chunks_spans`: the chunks of a stream are read span by span, and so is the stream itself.
* `normalizeStream_cases`: the events of the chunks come out, each as it was or with its reasoning fields filled in.
* `normalizesStream_iff`: when these are the events of the stream.
-/

namespace LocalGateway

open Py Json

/-! ### The stream -/

section Stream

variable (loads : Decoder) (r : FloatRepr)

/-- `transform_stream_chunk` over chunks. -/
def transformAll (parser : SSEParser) : List PyBytes → Option (PyBytes × SSEParser)
  | [] => some ([], parser)
  | chunk :: chunks =>
    (transformStreamChunk loads r parser chunk).bind fun first ↦
      (transformAll first.2 chunks).map fun rest ↦ (first.1 ++ rest.1, rest.2)

/-- `transform_stream_chunk` over the chunks of a stream, then `flush_stream_chunk`. -/
def normalizeStream (chunks : List PyBytes) : Option PyBytes :=
  (transformAll loads r .init chunks).bind fun out ↦ (flushStreamChunk loads r out.2).map (out.1 ++ ·)

/-- The event has a reasoning field to be filled in. -/
def FillableEvent (ev : SSEEvent) : Prop :=
  ∃ d, eventObj loads ev = some d ∧ Fillable d

/-- An event and what comes out of it: the same event, bytes and all, unless it names a reasoning field to be filled
in; or the payload of the normalised object. Where a field to be filled in is not named as it is spelled, the payload
may stay. -/
def NormalizedEvent (ev ev' : SSEEvent) : Prop :=
  (ev' = ev ∧ (mentionsReasoning ev.data = true → ¬ FillableEvent loads ev)) ∨
    ∃ d d', eventObj loads ev = some d ∧ normalizeObj d = some (d', true) ∧ ev'.done = false ∧
      (loads.text ev'.data = some (.obj d') ∨ mentionsReasoning ev.data = false ∧ ev'.data = ev.data)

/-- The events of a stream come out in their order, each normalised. -/
def NormalizesStream (chunks : List PyBytes) : Prop :=
  ∃ out, normalizeStream loads r chunks = some out ∧
    List.Forall₂ (NormalizedEvent loads) (SSEParser.parse [chunks.flatten]) (SSEParser.parse [out])

end Stream

/-! ### Texts that are read as events -/

namespace SSEParser

/-- A text that is read as the given events, whatever follows it. -/
structure Reads (text : PyBytes) (evs : List SSEEvent) : Prop where
  no_cr : 13 ∉ text
  events : ∀ rest, textEvents (text ++ rest) = evs ++ textEvents rest

theorem Reads.nil : Reads [] [] :=
  ⟨List.not_mem_nil, fun _ ↦ rfl⟩

/-- Texts are read one after the other. -/
theorem Reads.append {text text' : PyBytes} {evs evs' : List SSEEvent} (h : Reads text evs) (h' : Reads text' evs') :
    Reads (text ++ text') (evs ++ evs') :=
  ⟨fun hmem ↦ (List.mem_append.1 hmem).elim h.no_cr h'.no_cr, fun rest ↦ by
    rw [List.append_assoc, h.events, h'.events, List.append_assoc]⟩

/-- What a text is read as. -/
theorem Reads.parse {text : PyBytes} {evs : List SSEEvent} (h : Reads text evs) : parse [text] = evs := by
  have hall := h.events []
  rw [List.append_nil] at hall
  rw [parse_singleton h.no_cr, hall]
  exact List.append_nil evs

/-- A piece that the buffer cuts is read as its event. -/
theorem reads_block {raw : PyBytes} {ev : SSEEvent} (hcut : Lines.splitBlank 10 (raw ++ [10]) = none) (hcr : 13 ∉ raw)
    (hev : blockEvent raw = some ev) : Reads (raw ++ [10, 10]) [ev] := by
  have hne : raw ≠ [] := by
    rintro rfl
    cases hev
  refine ⟨by simpa using hcr, fun rest ↦ ?_⟩
  have hsplit : (raw ++ [10, 10] ++ rest).splitOn 10 = raw.splitOn 10 ++ [] :: rest.splitOn 10 := by
    rw [List.append_assoc]
    show (raw ++ 10 :: 10 :: rest).splitOn 10 = _
    rw [List.splitOn_append_cons_self, Lines.splitOn_cons_self]
  rw [textEvents, hsplit, Lines.blocks_splitOn 10 hcut, if_neg hne, List.filterMap_append, List.filterMap_cons,
    ← blockEvent_eq hcut hne, hev]
  rfl

/-- A text of one line has no blank line. -/
theorem splitBlank_line {raw : PyBytes} (h : 10 ∉ raw) : Lines.splitBlank 10 (raw ++ [10]) = none := by
  refine Lines.splitBlank_concat 10 ?_ fun hlast ↦ h (List.mem_of_getLast? hlast)
  rcases hsplit : Lines.splitBlank 10 raw with - | ⟨first, rest⟩
  · rfl
  · obtain ⟨rfl, -⟩ := (Lines.splitBlank_eq_some_iff 10).1 hsplit
    exact absurd (by simp) h

/-- The event of a `data:` line. -/
theorem reads_dataLine {d : PyStr} {text : PyBytes} (hd : ∀ c ∈ d, 32 ≤ c)
    (h : utf8Encode (py "data: " ++ d ++ py "\n\n") = some text) :
    Reads text [{ data := d, done := isDone d, raw := some text }] := by
  rw [utf8Encode_append] at h
  obtain ⟨raw, hraw, h⟩ := Option.bind_eq_some_iff.1 h
  obtain ⟨nl, hnl, rfl⟩ := Option.map_eq_some_iff.1 h
  obtain rfl : [10, 10] = nl := Option.some.inj hnl
  have hprintable : ∀ c ∈ py "data: " ++ d, 32 ≤ c := by
    intro c hc
    rcases List.mem_append.1 hc with hc | hc
    · have hname : ∀ c ∈ py "data: ", 32 ≤ c := by decide
      exact hname c hc
    · exact hd c hc
  have hcontrol : ∀ b : UInt8, b < 32 → b ∉ raw := fun b hb hmem ↦ by
    have hin := (mem_utf8Encode_iff hraw (by
      rw [UInt8.lt_iff_toNat_lt] at hb ⊢
      exact lt_trans hb (by decide))).1 hmem
    rw [UInt8.lt_iff_toNat_lt] at hb
    exact absurd (hprintable _ hin) (not_le.2 hb)
  have hlf : 10 ∉ py "data: " ++ d := fun hmem ↦ absurd (hprintable 10 hmem) (by decide)
  refine reads_block (splitBlank_line (hcontrol 10 (by decide))) (hcontrol 13 (by decide)) ?_
  have hdata : dataLine (py "data: " ++ d) = some d := rfl
  rw [blockEvent, parseBlock, utf8Decode_encode hraw, List.splitOn_eq_singleton hlf]
  simp [hdata, joinLines]

/-! ### Spans -/

/-- The event of a block of the stream. -/
def spanEvent (sp : Lines.Span UInt8) : Option SSEEvent :=
  lineEvent (sp.lead, sp.lines.map Prod.fst)

/-- What becomes of the event when the chunks are read. -/
def spanEvents (sp : Lines.Span UInt8) : List SSEEvent :=
  (Lines.blocks (sp.lead ^^ sp.skew) [] (Lines.doubled sp.lines)).filterMap lineEvent

/-- **Chunks are read span by span.** -/
theorem parse_chunks_spans (chunks : List PyBytes) : parse chunks = (spans chunks).flatMap spanEvents := by
  have hblocks := Lines.blocks_doubled_spans false false [] (cutLines chunks) fun _ h ↦ absurd h List.not_mem_nil
  rw [List.nil_append, doubled_cutLines] at hblocks
  rw [parse_eq, textEvents]
  exact (congrArg (List.filterMap lineEvent) hblocks).trans List.filterMap_flatMap

/-- **So is the stream itself.** -/
theorem parse_flatten_spans (chunks : List PyBytes) :
    parse [chunks.flatten] = (spans chunks).flatMap fun sp ↦ (spanEvent sp).toList := by
  have hblocks := Lines.blocks_spans false false [] (cutLines chunks) fun _ h ↦ absurd h List.not_mem_nil
  rw [List.nil_append, map_fst_cutLines] at hblocks
  rw [parse_eq, textEvents, seenText, List.map_singleton, List.flatten_singleton, hblocks, List.filterMap_map]
  exact List.filterMap_eq_flatMap_toList _ _

/-- The lines of a span. -/
theorem lines_of_mem_spans {chunks : List PyBytes} {sp : Lines.Span UInt8} (h : sp ∈ spans chunks) :
    sp.lines ≠ [] ∧ ∀ l ∈ sp.lines, l.1 ≠ [] ∧ 10 ∉ l.1 := by
  refine Lines.lines_of_mem_spans (p := fun l ↦ 10 ∉ l) (fun _ h ↦ absurd h List.not_mem_nil) (fun l hl ↦ ?_) h
  have hmem : l.1 ∈ (normalizeEol chunks.flatten).splitOn 10 := map_fst_cutLines chunks ▸ List.mem_map_of_mem hl
  exact Lines.not_mem_of_mem_splitOn hmem

/-- A block is its own only block. -/
theorem toList_spanEvent {chunks : List PyBytes} {sp : Lines.Span UInt8} (h : sp ∈ spans chunks) :
    (spanEvent sp).toList = (Lines.blocks sp.lead [] (sp.lines.map Prod.fst)).filterMap lineEvent := by
  obtain ⟨hne, hlines⟩ := lines_of_mem_spans h
  have hone := Lines.blocks_map_fst sp.lead (fun l hl ↦ (hlines l hl).1) []
  rw [List.append_nil, Lines.blocks, if_neg (by simpa using hne)] at hone
  rw [hone, spanEvent, List.filterMap_cons, List.filterMap_nil]
  rcases lineEvent (sp.lead, sp.lines.map Prod.fst) with - | ev
  · rfl
  · rfl

/-- **When a block is read as it is**: the cut pairs neither tear it apart nor shift what opens it. -/
theorem spanEvents_eq_iff {chunks : List PyBytes} {sp : Lines.Span UInt8} (h : sp ∈ spans chunks) :
    spanEvents sp = (spanEvent sp).toList ↔ sp.Kept IsDataLine := by
  obtain ⟨hne, hlines⟩ := lines_of_mem_spans h
  have hiff := Lines.filterMap_block_append_iff lineEvent_eq_none_iff lineEvent_inj sp.lead sp.skew hne hlines [] []
  rwa [List.append_nil, List.append_nil, and_iff_left rfl] at hiff

theorem length_spanEvents (sp : Lines.Span UInt8) :
    (spanEvents sp).length = (Lines.readings lineData (Lines.doubled sp.lines)).length := by
  have hdata := congrArg List.length (map_data_blocks (sp.lead ^^ sp.skew) (Lines.doubled sp.lines))
  rwa [List.length_map, List.length_map] at hdata

/-- A block that is read as it is stays in one piece. -/
theorem together_of_kept {chunks : List PyBytes} {sp : Lines.Span UInt8} (h : sp ∈ spans chunks)
    (hkept : sp.Kept IsDataLine) : sp.Together lineData := by
  rw [Lines.Span.Together, ← length_spanEvents, (spanEvents_eq_iff h).2 hkept]
  rcases spanEvent sp with - | ev
  · exact Nat.zero_le 1
  · exact le_rfl

/-- A block that stays in one piece keeps its payload. -/
theorem data_spanEvents {chunks : List PyBytes} {sp : Lines.Span UInt8} (h : sp ∈ spans chunks)
    (htogether : sp.Together lineData) :
    (spanEvents sp).map SSEEvent.data = (spanEvent sp).toList.map SSEEvent.data := by
  rw [toList_spanEvent h, map_data_blocks, spanEvents, map_data_blocks]
  exact congrArg _ (Lines.readings_span_doubled lineData rfl h htogether)

theorem done_of_mem_spanEvents {sp : Lines.Span UInt8} {ev : SSEEvent} (h : ev ∈ spanEvents sp) :
    ev.done = isDone ev.data := by
  obtain ⟨b, -, hb⟩ := List.mem_filterMap.1 h
  unfold lineEvent at hb
  split_ifs at hb
  rw [← Option.some.inj hb]

theorem done_of_spanEvent {sp : Lines.Span UInt8} {ev : SSEEvent} (h : spanEvent sp = some ev) :
    ev.done = isDone ev.data := by
  unfold spanEvent lineEvent at h
  split_ifs at h
  rw [← Option.some.inj h]

/-- An event and what the chunks are read as instead: itself, or, where that does not matter, an event with the same
payload. -/
def SameEvent (immaterial : SSEEvent → Prop) (ev ev' : SSEEvent) : Prop :=
  ev' = ev ∨ immaterial ev ∧ ev'.data = ev.data ∧ ev'.done = ev.done

/-- **When chunks are read as the stream**, if the bytes of some events do not matter but in their payloads. -/
theorem forall₂_sameEvent_iff {chunks : List PyBytes} (immaterial : SSEEvent → Prop)
    (h : ∀ sp ∈ spans chunks, sp.Together lineData) :
    List.Forall₂ (SameEvent immaterial) (parse [chunks.flatten]) (parse chunks) ↔
      ∀ sp ∈ spans chunks, sp.Kept IsDataLine ∨ ∃ ev, spanEvent sp = some ev ∧ immaterial ev := by
  rw [parse_flatten_spans, parse_chunks_spans, forall₂_flatMap_iff fun sp hsp ↦ by
    have hdata := congrArg List.length (data_spanEvents hsp (h sp hsp))
    rw [List.length_map, List.length_map] at hdata
    exact hdata.symm]
  refine forall₂_congr fun sp hsp ↦ ?_
  have hdata := data_spanEvents hsp (h sp hsp)
  rw [← spanEvents_eq_iff hsp]
  rcases hev : spanEvent sp with - | ev
  · rw [hev] at hdata
    obtain hnil : spanEvents sp = [] := List.map_eq_nil_iff.1 hdata
    rw [hnil]
    exact iff_of_true .nil (.inl rfl)
  · rw [hev] at hdata
    obtain ⟨ev', rest, hevents, hfirst, hrest⟩ := List.map_eq_cons_iff.1 hdata
    obtain rfl : rest = [] := List.map_eq_nil_iff.1 hrest
    have hdone : ev'.done = ev.done := by
      rw [done_of_mem_spanEvents (hevents ▸ List.mem_cons_self), done_of_spanEvent hev, hfirst]
    rw [hevents]
    simp [SameEvent, hfirst, hdone]

/-- Otherwise there are more events. -/
theorem together_of_forall₂ {R : SSEEvent → SSEEvent → Prop} {chunks : List PyBytes}
    (h : List.Forall₂ R (parse [chunks.flatten]) (parse chunks)) : ∀ sp ∈ spans chunks, sp.Together lineData := by
  refine together_of_length_le ?_
  have hdata (s : PyBytes) : (textEvents s).length = (payloads s).length := by
    rw [← map_data_textEvents, List.length_map]
  have hlength := h.length_eq
  rw [parse_eq, parse_eq, hdata, hdata] at hlength
  have hone : seenText [chunks.flatten] = normalizeEol chunks.flatten := by simp [seenText]
  rw [← hone, hlength]

end SSEParser

/-! ### What is written of an event -/

section Written

variable (loads : Decoder) (r : FloatRepr)

/-- An event and what is written of it. -/
def Emitted (ev ev' : SSEEvent) : Prop :=
  (ev' = ev ∧ (mentionsReasoning ev.data = true → ¬ FillableEvent loads ev)) ∨
    ∃ d d', eventObj loads ev = some d ∧ normalizeObj d = some (d', true) ∧ ev'.done = false ∧
      ev'.data = dumps false r (.obj d')

/-- What is written of an object is not the sentinel. -/
theorem isDone_dumps (d : PyDict) : isDone (dumps false r (.obj d)) = false := by
  rw [isDone, decide_eq_false_iff_not]
  intro hstrip
  have hmem : 123 ∈ dumps false r (.obj d) := by
    rcases d with - | ⟨⟨k, v⟩, d⟩ <;> simp [dumps, py]
  have hbrace := mem_strip (by decide) hmem
  rw [hstrip] at hbrace
  exact absurd hbrace (by decide)

theorem reads_renderEvent {ev : SSEEvent} (h : HasBlock ev) : SSEParser.Reads (renderEvent ev) [ev] := by
  obtain ⟨raw, hcut, hcr, hev⟩ := h
  have hraw : ev.raw = some (raw ++ [10, 10]) := by
    obtain ⟨ev', -, rfl⟩ := Option.map_eq_some_iff.1 hev
    rfl
  rw [renderEvent, hraw]
  exact SSEParser.reads_block hcut hcr hev

/-- An event that is written again. -/
theorem emitted_of_renderNormalized {ev : SSEEvent} {text : PyBytes} (hblock : HasBlock ev) (hdone : ev.done = false)
    (h : renderNormalized loads r ev = some text) :
    ∃ ev', SSEParser.Reads text [ev'] ∧ Emitted loads r ev ev' := by
  by_cases hobj : ∃ d, loads.text ev.data = some (.obj d)
  · obtain ⟨d, hd⟩ := hobj
    have hevent : eventObj loads ev = some d := (eventObj_eq_some_iff loads).2 ⟨hdone, hd⟩
    rw [renderNormalized_eq loads r hd] at h
    obtain ⟨⟨d', - | -⟩, hnormal, h⟩ := Option.bind_eq_some_iff.1 h
    · obtain rfl := Option.some.inj h
      refine ⟨ev, reads_renderEvent hblock, .inl ⟨rfl, fun _ ⟨e, he, hfill⟩ ↦ ?_⟩⟩
      obtain rfl : d = e := Option.some.inj (hevent.symm.trans he)
      obtain ⟨e', he'⟩ := fillable_iff.1 hfill
      rw [hnormal] at he'
      cases he'
    · exact ⟨_, SSEParser.reads_dataLine (dumps_printable false r (.obj d')) h,
        .inr ⟨d, d', hevent, hnormal, isDone_dumps r d', rfl⟩⟩
  · have hnone : renderNormalized loads r ev = some (renderEvent ev) := by
      unfold renderNormalized
      split
      · rename_i d hd
        exact absurd ⟨d, hd⟩ hobj
      · rfl
    rw [hnone] at h
    obtain rfl := Option.some.inj h
    refine ⟨ev, reads_renderEvent hblock, .inl ⟨rfl, fun _ ⟨e, he, _⟩ ↦ hobj ⟨e, ?_⟩⟩⟩
    exact ((eventObj_eq_some_iff loads).1 he).2

theorem not_fillableEvent_of_done {ev : SSEEvent} (h : ev.done = true) : ¬ FillableEvent loads ev := by
  rintro ⟨d, hd, -⟩
  rw [((eventObj_eq_some_iff loads).1 hd).1] at h
  cases h

/-- An event that the parser has completed. -/
theorem emitted_of_transformEvent {ev : SSEEvent} {text : PyBytes} (hblock : HasBlock ev)
    (h : transformEvent loads r ev = some text) :
    ∃ ev', SSEParser.Reads text [ev'] ∧ Emitted loads r ev ev' := by
  unfold transformEvent at h
  split_ifs at h with hplain
  · obtain rfl := Option.some.inj h
    refine ⟨ev, reads_renderEvent hblock, .inl ⟨rfl, fun hmention ↦ ?_⟩⟩
    rw [hmention, Bool.not_true, Bool.or_false] at hplain
    exact not_fillableEvent_of_done loads hplain
  · refine emitted_of_renderNormalized loads r hblock ?_ h
    rw [Bool.or_eq_true, not_or, Bool.not_eq_true] at hplain
    exact hplain.1

/-- The event that a parser is left with at the end comes from a piece of the buffer, too. -/
theorem hasBlock_of_flush {p : SSEParser} {ev : SSEEvent} (h : p.flush.1 = some ev) : HasBlock ev := by
  refine ⟨p.buf.rdropWhile (· = 10), (Lines.rdropWhile_cases 10 p.no_blank).2,
    fun hmem ↦ p.no_cr ((List.rdropWhile_prefix _ _).subset hmem), ?_⟩
  have hpayload : SSEParser.payloadLines (Lines.textBlock 10 (p.buf.rdropWhile (· = 10))).2 =
      SSEParser.payloadLines (Lines.textBlock 10 p.buf).2 := by
    rw [Lines.textBlock, Lines.textBlock, SSEParser.payloadLines_filter, SSEParser.payloadLines_filter,
      SSEParser.payloadLines_rdropWhile]
  unfold SSEParser.flush at h
  split_ifs at h
  rw [SSEParser.map_parseBlock, ← hpayload, ← SSEParser.map_parseBlock] at h
  exact h

/-- An event that is left at the end. -/
theorem emitted_of_flushStreamChunk {p : SSEParser} {out : PyBytes} (h : flushStreamChunk loads r p = some out) :
    ∃ evs, SSEParser.Reads out evs ∧ List.Forall₂ (Emitted loads r) p.flush.1.toList evs := by
  unfold flushStreamChunk at h
  rcases hflush : p.flush.1 with - | ev
  · rw [hflush] at h
    obtain rfl := Option.some.inj h
    exact ⟨[], SSEParser.Reads.nil, .nil⟩
  · rw [hflush] at h
    have hblock := hasBlock_of_flush hflush
    dsimp only at h
    split_ifs at h with hdone
    · obtain rfl := Option.some.inj h
      exact ⟨[ev], reads_renderEvent hblock,
        .cons (.inl ⟨rfl, fun _ ↦ not_fillableEvent_of_done loads hdone⟩) .nil⟩
    · obtain ⟨ev', hreads, hemitted⟩ := emitted_of_renderNormalized loads r hblock (Bool.eq_false_iff.2 hdone) h
      exact ⟨[ev'], hreads, .cons hemitted .nil⟩

/-- The events of a chunk come out. -/
theorem emitted_of_transformStreamChunk {parser p : SSEParser} {chunk out : PyBytes}
    (h : transformStreamChunk loads r parser chunk = some (out, p)) : p = (parser.feed chunk).2 ∧
      ∃ evs, SSEParser.Reads out evs ∧ List.Forall₂ (Emitted loads r) (parser.feed chunk).1 evs := by
  obtain ⟨outs, houts, heq⟩ := Option.map_eq_some_iff.1 h
  obtain ⟨rfl, rfl⟩ := Prod.mk.inj heq
  refine ⟨rfl, ?_⟩
  have hblock : ∀ ev ∈ (parser.feed chunk).1, HasBlock ev := fun ev hev ↦ SSEParser.block_of_mem_feed hev
  have hrel := mapM_eq_some_iff.1 houts
  clear h houts heq
  generalize (parser.feed chunk).1 = evs at hrel hblock
  induction hrel with
  | nil => exact ⟨[], SSEParser.Reads.nil, .nil⟩
  | @cons ev out evs outs hout _ ih =>
    obtain ⟨ev', hreads, hemitted⟩ := emitted_of_transformEvent loads r (hblock ev List.mem_cons_self) hout
    obtain ⟨evs', hrest, hall⟩ := ih fun ev hev ↦ hblock ev (List.mem_cons_of_mem _ hev)
    exact ⟨ev' :: evs', hreads.append hrest, .cons hemitted hall⟩

/-- **The events of the chunks come out one after the other.** -/
theorem emitted_of_transformAll {parser p : SSEParser} {chunks : List PyBytes} {out : PyBytes}
    (h : transformAll loads r parser chunks = some (out, p)) : p = (parser.feedAll chunks).2 ∧
      ∃ evs, SSEParser.Reads out evs ∧ List.Forall₂ (Emitted loads r) (parser.feedAll chunks).1 evs := by
  induction chunks generalizing parser p out with
  | nil =>
    obtain ⟨rfl, rfl⟩ := Prod.mk.inj (Option.some.inj h)
    exact ⟨rfl, [], SSEParser.Reads.nil, .nil⟩
  | cons chunk chunks ih =>
    obtain ⟨⟨first, q⟩, hfirst, h⟩ := Option.bind_eq_some_iff.1 h
    obtain ⟨⟨rest, p'⟩, hrest, heq⟩ := Option.map_eq_some_iff.1 h
    obtain ⟨rfl, rfl⟩ := Prod.mk.inj heq
    obtain ⟨rfl, evs, hreads, hemitted⟩ := emitted_of_transformStreamChunk loads r hfirst
    obtain ⟨rfl, evs', hreads', hemitted'⟩ := ih hrest
    exact ⟨rfl, evs ++ evs', hreads.append hreads', List.rel_append hemitted hemitted'⟩

/-- **The events of the chunks come out**, each as it was or with its reasoning fields filled in. -/
theorem normalizeStream_cases {chunks : List PyBytes} {out : PyBytes} (h : normalizeStream loads r chunks = some out) :
    ∃ evs, SSEParser.parse [out] = evs ∧ List.Forall₂ (Emitted loads r) (SSEParser.parse chunks) evs := by
  obtain ⟨⟨fed, p⟩, hfed, h⟩ := Option.bind_eq_some_iff.1 h
  obtain ⟨tail, htail, rfl⟩ := Option.map_eq_some_iff.1 h
  obtain ⟨rfl, evs, hreads, hemitted⟩ := emitted_of_transformAll loads r hfed
  obtain ⟨evs', hreads', hemitted'⟩ := emitted_of_flushStreamChunk loads r htail
  exact ⟨evs ++ evs', (hreads.append hreads').parse, List.rel_append hemitted hemitted'⟩

/-- The events that may be written again can be: they are read as texts, and what is filled in can be encoded. -/
structure Rewritable (chunks : List PyBytes) : Prop where
  completed : ∀ ev ∈ (SSEParser.feedAll .init chunks).1, mentionsReasoning ev.data = true →
    ∀ d, eventObj loads ev = some d → Relayable d
  trailing : ∀ ev, (SSEParser.feedAll .init chunks).2.flush.1 = some ev →
    ∀ d, eventObj loads ev = some d → Relayable d

theorem isSome_transformAll_iff {parser : SSEParser} {chunks : List PyBytes} :
    (transformAll loads r parser chunks).isSome ↔ ∀ ev ∈ (parser.feedAll chunks).1,
      mentionsReasoning ev.data = true → ∀ d, eventObj loads ev = some d → Relayable d := by
  induction chunks generalizing parser with
  | nil => exact iff_of_true rfl fun _ h ↦ absurd h List.not_mem_nil
  | cons chunk chunks ih =>
    have hchunk : (transformStreamChunk loads r parser chunk).isSome ↔ ∀ ev ∈ (parser.feed chunk).1,
        mentionsReasoning ev.data = true → ∀ d, eventObj loads ev = some d → Relayable d := by
      rw [transformStreamChunk, Option.isSome_map, isSome_mapM_iff]
      exact forall₂_congr fun ev _ ↦ isSome_transformEvent_iff loads r ev
    rw [transformAll, SSEParser.feedAll, List.forall_mem_append, ← hchunk, ← ih]
    rcases hfirst : transformStreamChunk loads r parser chunk with - | ⟨out, p⟩
    · simp
    · obtain ⟨rfl, -⟩ := emitted_of_transformStreamChunk loads r hfirst
      simp

/-- **When a stream is normalised without an exception.** -/
theorem isSome_normalizeStream_iff {chunks : List PyBytes} :
    (normalizeStream loads r chunks).isSome ↔ Rewritable loads chunks := by
  have hall : (transformAll loads r .init chunks).isSome ↔ _ := isSome_transformAll_iff loads r
  have hparts : Rewritable loads chunks ↔ (transformAll loads r .init chunks).isSome ∧
      (flushStreamChunk loads r (SSEParser.feedAll .init chunks).2).isSome := by
    rw [hall, isSome_flushStreamChunk_iff]
    exact ⟨fun h ↦ ⟨h.completed, h.trailing⟩, fun h ↦ ⟨h.1, h.2⟩⟩
  rw [hparts, normalizeStream]
  rcases hfirst : transformAll loads r .init chunks with - | ⟨out, p⟩
  · simp
  · obtain ⟨rfl, -⟩ := emitted_of_transformAll loads r hfirst
    simp

/-! ### The events of the stream -/

/-- What is known of `json.loads`: what is written of a normalised object is read as that object. -/
def RereadsNormalized : Prop :=
  ∀ {s : PyStr} {d d' : PyDict}, loads.text s = some (.obj d) → normalizeObj d = some (d', true) →
    loads.text (dumps false r (.obj d')) = some (.obj d')

/-- A stream whose events come out normalised: those that may be written again can be, and a cut pair leaves each
block as it is, or stands in an event with a field to be filled in, whose `data:` lines it leaves in one piece. -/
structure Normalizable (chunks : List PyBytes) : Prop where
  rewritable : Rewritable loads chunks
  spans : ∀ sp ∈ SSEParser.spans chunks, sp.Kept SSEParser.IsDataLine ∨
    sp.Together SSEParser.lineData ∧ ∃ ev, SSEParser.spanEvent sp = some ev ∧ FillableEvent loads ev

variable {loads r}

/-- Events with the same payload decode to the same. -/
theorem eventObj_congr {ev ev' : SSEEvent} (hdata : ev'.data = ev.data) (hdone : ev'.done = ev.done) :
    eventObj loads ev' = eventObj loads ev := by
  rw [eventObj, eventObj, hdata, hdone]

/-- What is written of an event is what comes out of the one that it stands for. -/
theorem normalizedEvent_of_emitted (hread : RereadsNormalized loads r) {ev₀ ev ev' : SSEEvent}
    (hsame : SSEParser.SameEvent (FillableEvent loads) ev₀ ev) (h : Emitted loads r ev ev') :
    NormalizedEvent loads ev₀ ev' := by
  have hdata : ev.data = ev₀.data := hsame.elim (fun h ↦ h ▸ rfl) fun h ↦ h.2.1
  have hdone : ev.done = ev₀.done := hsame.elim (fun h ↦ h ▸ rfl) fun h ↦ h.2.2
  rcases h with ⟨rfl, hplain⟩ | ⟨d, d', hobj, hnormal, hdone', hwritten⟩
  · rcases hsame with rfl | ⟨⟨d, hobj, hfill⟩, -⟩
    · exact .inl ⟨rfl, hplain⟩
    · obtain ⟨d', hnormal⟩ := fillable_iff.1 hfill
      have hplain' : mentionsReasoning ev₀.data = false := by
        rw [← hdata]
        exact Bool.eq_false_iff.2 fun hmention ↦ hplain hmention ⟨d, (eventObj_congr hdata hdone).trans hobj, hfill⟩
      refine .inr ⟨d, d', hobj, hnormal, ?_, .inr ⟨hplain', hdata⟩⟩
      rw [hdone, ((eventObj_eq_some_iff loads).1 hobj).1]
  · rw [eventObj_congr hdata hdone] at hobj
    refine .inr ⟨d, d', hobj, hnormal, hdone', .inl ?_⟩
    rw [hwritten]
    exact hread ((eventObj_eq_some_iff loads).1 hobj).2 hnormal

/-- An event of which the same is written as comes out of one with its payload is that one, or has a field to be filled
in. -/
theorem sameEvent_of_normalized {ev₀ ev ev' : SSEEvent} (hdata : ev.data = ev₀.data) (hdone : ev.done = ev₀.done)
    (h₀ : NormalizedEvent loads ev₀ ev') (h : Emitted loads r ev ev') :
    SSEParser.SameEvent (FillableEvent loads) ev₀ ev := by
  have hfill : ∀ {d d' : PyDict}, eventObj loads ev₀ = some d → normalizeObj d = some (d', true) →
      SSEParser.SameEvent (FillableEvent loads) ev₀ ev := fun {d d'} hobj hnormal ↦
    .inr ⟨⟨d, hobj, fillable_iff.2 ⟨d', hnormal⟩⟩, hdata, hdone⟩
  rcases h₀ with ⟨rfl, -⟩ | ⟨d, d', hobj, hnormal, -⟩
  · rcases h with ⟨rfl, -⟩ | ⟨d, d', hobj, hnormal, -⟩
    · exact .inl rfl
    · exact hfill ((eventObj_congr hdata hdone).symm.trans hobj) hnormal
  · exact hfill hobj hnormal

/-- Chunks that leave the blocks in one piece are read as events with the payloads of the stream. -/
theorem forall₂_data_of_together {chunks : List PyBytes}
    (h : ∀ sp ∈ SSEParser.spans chunks, sp.Together SSEParser.lineData) :
    List.Forall₂ (fun ev₀ ev : SSEEvent ↦ ev.data = ev₀.data ∧ ev.done = ev₀.done)
      (SSEParser.parse [chunks.flatten]) (SSEParser.parse chunks) := by
  have hsame := SSEParser.forall₂_sameEvent_iff (fun _ ↦ True) h
  refine (hsame.2 fun sp hsp ↦ ?_).imp fun ev₀ ev hev ↦ hev.elim (fun h ↦ h ▸ ⟨rfl, rfl⟩) And.right
  rcases hev : SSEParser.spanEvent sp with - | ev
  · have hnil := SSEParser.data_spanEvents hsp (h sp hsp)
    rw [hev] at hnil
    refine .inl ((SSEParser.spanEvents_eq_iff hsp).1 ?_)
    rw [hev]
    exact List.map_eq_nil_iff.1 hnil
  · exact .inr ⟨ev, rfl, trivial⟩

/-- **When the events of a stream come out normalised.** -/
theorem normalizesStream_iff (hread : RereadsNormalized loads r) (chunks : List PyBytes) :
    NormalizesStream loads r chunks ↔ Normalizable loads chunks := by
  constructor
  · rintro ⟨out, hout, hnormalized⟩
    obtain ⟨evs, rfl, hemitted⟩ := normalizeStream_cases loads r hout
    have hboth := forall₂_trans hnormalized hemitted.flip
    have htogether := SSEParser.together_of_forall₂ hboth
    have hsame : List.Forall₂ (SSEParser.SameEvent (FillableEvent loads)) (SSEParser.parse [chunks.flatten])
        (SSEParser.parse chunks) := by
      refine (forall₂_both (forall₂_data_of_together htogether) hboth).imp ?_
      rintro ev₀ ev ⟨⟨hdata, hdone⟩, ev', h₀, h⟩
      exact sameEvent_of_normalized hdata hdone h₀ h
    refine ⟨(isSome_normalizeStream_iff loads r).1 (by rw [hout]; rfl), fun sp hsp ↦ ?_⟩
    exact ((SSEParser.forall₂_sameEvent_iff _ htogether).1 hsame sp hsp).imp_right fun h ↦ ⟨htogether sp hsp, h⟩
  · intro h
    obtain ⟨out, hout⟩ := Option.isSome_iff_exists.1 ((isSome_normalizeStream_iff loads r).2 h.rewritable)
    obtain ⟨evs, rfl, hemitted⟩ := normalizeStream_cases loads r hout
    have htogether : ∀ sp ∈ SSEParser.spans chunks, sp.Together SSEParser.lineData := fun sp hsp ↦
      (h.spans sp hsp).elim (SSEParser.together_of_kept hsp) And.left
    have hsame := (SSEParser.forall₂_sameEvent_iff (FillableEvent loads) htogether).2 fun sp hsp ↦
      (h.spans sp hsp).imp_right And.right
    refine ⟨out, hout, (forall₂_trans hsame hemitted).imp ?_⟩
    rintro ev₀ ev' ⟨ev, hev, hout⟩
    exact normalizedEvent_of_emitted hread hev hout

/-- **Reasoning fields are normalised once and for all, and so are streams.** An object whose reasoning fields are texts
or blocks of texts is normalised; what is normalised stays as it is, and nothing has become of it but that fields are
filled in; and the events of a stream come out normalised exactly if the stream is `Normalizable`. -/
theorem normalization_iff (hread : RereadsNormalized loads r) :
    (∀ d, (∀ delta ∈ deltas d, Legible delta) → (normalizeObj d).isSome) ∧
      (∀ d d' changed, normalizeObj d = some (d', changed) →
        normalizeObj d' = some (d', false) ∧ FilledObj d d') ∧
      ∀ chunks, NormalizesStream loads r chunks ↔ Normalizable loads chunks :=
  ⟨fun _ h ↦ normalizeObj_isSome h, fun _ _ _ h ↦ ⟨normalizeObj_settled h, normalizeObj_filled h⟩,
    normalizesStream_iff hread⟩

/-- A decoder that knows the text of an object, and what is written of another one. -/
def reasoningDecoder (text : PyStr) (d d' : PyDict) : Decoder where
  text := fun s ↦
    if s = text then some (.obj d) else if s = dumps false .ofFraction (.obj d') then some (.obj d') else none
  body := fun _ ↦ none

theorem reasoningDecoder_cases {text s : PyStr} {d d' e : PyDict}
    (h : (reasoningDecoder text d d').text s = some (.obj e)) : e = d ∨ e = d' := by
  unfold reasoningDecoder at h
  dsimp only at h
  split_ifs at h
  · exact .inl (Json.obj.inj (Option.some.inj h)).symm
  · exact .inr (Json.obj.inj (Option.some.inj h)).symm

theorem rereads_reasoningDecoder {text : PyStr} {d d' : PyDict} (hnormal : normalizeObj d = some (d', true))
    (hne : dumps false .ofFraction (.obj d') ≠ text) : RereadsNormalized (reasoningDecoder text d d') .ofFraction := by
  intro s e e' hload he
  have hsettled := normalizeObj_settled hnormal
  rcases reasoningDecoder_cases hload with rfl | rfl
  · obtain rfl : d' = e' := (Prod.mk.inj (Option.some.inj (hnormal.symm.trans he))).1
    exact (if_neg hne).trans (if_pos rfl)
  · rw [hsettled] at he
    cases he

/-- An object with a reasoning text under one name. -/
def reasoningObject (text : PyStr) : PyDict :=
  [(py "reasoning", .str text)]

/-- The object with the text under both names. -/
def filledObject (text : PyStr) : PyDict :=
  [(py "reasoning", .str text), (py "reasoning_content", .str text)]

/-- A decoder for an event with the reasoning text `z`. -/
def plainDecoder : Decoder :=
  reasoningDecoder (py "\x7b\"reasoning\":\"z\"\x7d") (reasoningObject (py "z")) (filledObject (py "z"))

theorem relayable_of_isSome {d : PyDict} (h : (normalizeObj d).isSome) (hencodable : Json.Encodable (.obj d)) :
    Relayable d := by
  rcases normalizeObj_cases d with ⟨hnone, -⟩ | ⟨-, -, -, hlegible, -⟩
  · rw [hnone] at h
    cases h
  · exact ⟨hlegible, fun _ ↦ hencodable⟩

/-- A stream that is cut within an event, and ends with the sentinel. -/
theorem normalization_sample : NormalizesStream plainDecoder .ofFraction
    [pyb "data: \x7b\"reason", pyb "ing\":\"z\"\x7d\r\n\r\n", pyb ": ping\n\ndata: [DONE]"] := by
  have hread : RereadsNormalized plainDecoder .ofFraction := rereads_reasoningDecoder (by decide) (by decide +kernel)
  have hrelay : ∀ ev d, eventObj plainDecoder ev = some d → Relayable d := by
    intro ev d hd
    rcases reasoningDecoder_cases ((eventObj_eq_some_iff _).1 hd).2 with rfl | rfl
    · refine relayable_of_isSome (by decide) ?_
      unfold Json.Encodable
      decide
    · refine relayable_of_isSome (by decide) ?_
      unfold Json.Encodable
      decide
  refine ((normalization_iff hread).2.2 _).2 ⟨⟨fun ev _ _ ↦ hrelay ev, fun ev _ ↦ hrelay ev⟩, fun sp hsp ↦ .inl ?_⟩
  exact (SSEParser.parse_chunks_eq_iff _).1 (by decide +kernel) sp hsp

/-- A decoder for an event with half of a surrogate pair in its reasoning text. -/
def surrogateDecoder : Decoder :=
  reasoningDecoder (py "\x7b\"reasoning\":\"\\ud800\"\x7d") (reasoningObject [0xD800]) (filledObject [0xD800])

/-- **An escaped surrogate ends the stream**: what is filled in cannot be encoded, and the exception is not caught. -/
theorem not_normalizesStream_surrogate : RereadsNormalized surrogateDecoder .ofFraction ∧
    ¬ NormalizesStream surrogateDecoder .ofFraction [pyb "data: \x7b\"reasoning\":\"\\ud800\"\x7d\n\n"] := by
  refine ⟨rereads_reasoningDecoder (by decide) (by decide +kernel), ?_⟩
  rintro ⟨out, hout, -⟩
  have hnone : normalizeStream surrogateDecoder .ofFraction
      [pyb "data: \x7b\"reasoning\":\"\\ud800\"\x7d\n\n"] = none := by decide +kernel
  rw [hnone] at hout
  cases hout

end Written

end LocalGateway
