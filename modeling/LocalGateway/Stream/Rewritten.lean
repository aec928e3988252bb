import LocalGateway.Foundations.ClosedLines
import LocalGateway.Stream.Malformed
import LocalGateway.Stream.Payloads

/-!
# Events that are passed on

What a client reads of the chunks that `handle_request_stream` makes of those of an upstream. The chunks that
it yields end with a blank line, so they are read one after the other, and each event that the parser has
completed is read as one event, which `Rewritten` relates to the one that came.

* `SSEParser.data_feedAll`: the events that the parser returns are the closed paragraphs of the text that it
  sees; `closedPayloads_eq`, `closedUncut_of_length_le` compare them with those of the stream itself.
* `Framed`: a text that is read as the given payloads and ends with a blank line.
* `Service.chatChunk_framed`: a chunk is passed on as the events that it completes, each rewritten.
-/

namespace LocalGateway

open Py Json

/-! ### Closed events -/

namespace SSEParser

/-- The payloads of the events that a blank line has ended. -/
def closedPayloads (s : PyBytes) : List PyStr :=
  (Lines.readings lineData (Lines.closed (s.splitOn 10))).map joinLines

/-- The payloads of the pieces that the buffer cuts. -/
theorem data_blockEvents {raws : List PyBytes}
    (h : ∀ raw ∈ raws, Lines.splitBlank 10 (raw ++ [10]) = none) :
    (raws.filterMap blockEvent).map SSEEvent.data =
      ((((raws.filter (!·.isEmpty)).map fun raw ↦ (Lines.textBlock 10 raw).2).map
        (·.filterMap lineData)).filter (!·.isEmpty)).map joinLines := by
  induction raws with
  | nil => rfl
  | cons raw raws ih =>
    have ih := ih fun r hr ↦ h r (List.mem_cons_of_mem raw hr)
    by_cases hne : raw = []
    · subst hne
      exact ih
    · rw [List.filterMap_cons, blockEvent_eq (h raw List.mem_cons_self) hne,
        List.filter_cons_of_pos (by simpa using hne), List.map_cons, List.map_cons, lineEvent]
      have hlines : (Lines.textBlock 10 raw).2.filterMap lineData = payloadLines (Lines.textBlock 10 raw).2 :=
        rfl
      rw [hlines]
      by_cases hnil : payloadLines (Lines.textBlock 10 raw).2 = []
      · rw [if_pos hnil, List.filter_cons_of_neg (by simp [hnil])]
        exact ih
      · rw [if_neg hnil, List.filter_cons_of_pos (by simpa using hnil), List.map_cons]
        exact congrArg (joinLines (payloadLines (Lines.textBlock 10 raw).2) :: ·) ih

/-- **The parser returns the closed events** of the text that it sees. -/
theorem data_feedAll (chunks : List PyBytes) :
    (feedAll init chunks).1.map SSEEvent.data = closedPayloads (seenText chunks) := by
  have hevents : (feedAll init chunks).1 = (Lines.drain 10 (seenText chunks)).1.filterMap blockEvent :=
    (feedAll_eq init chunks).1
  rw [hevents, data_blockEvents fun raw hraw ↦ Lines.splitBlank_drain_fst 10 hraw, closedPayloads,
    Lines.readings, Lines.paragraphs_drain]

theorem data_feed (chunk : PyBytes) :
    (init.feed chunk).1.map SSEEvent.data = closedPayloads (normalizeEol chunk) := by
  have hone := data_feedAll [chunk]
  rwa [feedAll, feedAll, List.append_nil, seenText, List.map_singleton, List.flatten_singleton] at hone

/-- The cut pairs leave the `data:` lines of each event that a blank line has ended in one piece, and end no
other event. -/
def ClosedUncut (chunks : List PyBytes) : Prop :=
  Lines.ClosedTogether lineData (cutLines chunks)

/-- The last line has not ended. -/
theorem getLast?_cutLines (chunks : List PyBytes) :
    ∃ l, (cutLines chunks).getLast? = some (l, false) := by
  unfold cutLines
  induction marks (chunks.flatMap tagChunk) with
  | nil => exact ⟨[], rfl⟩
  | cons m ms ih =>
    obtain ⟨l, hl⟩ := ih
    rw [Lines.cutLines]
    split_ifs
    · exact ⟨l, by rw [List.getLast?_cons, hl]; rfl⟩
    · rcases hlines : Lines.cutLines 10 ms with - | ⟨c, cs⟩
      · rw [hlines] at hl
        cases hl
      · rw [hlines] at hl
        rcases cs with - | ⟨c', cs⟩
        · obtain rfl : c = (l, false) := by simpa using hl
          exact ⟨m.1 :: l, rfl⟩
        · exact ⟨l, by simpa using hl⟩

theorem closedPayloads_seenText (chunks : List PyBytes) : closedPayloads (seenText chunks) =
    (Lines.readings lineData (Lines.closed (Lines.doubled (cutLines chunks)))).map joinLines := by
  rw [closedPayloads, doubled_cutLines]

theorem closedPayloads_normalizeEol (chunks : List PyBytes) :
    closedPayloads (normalizeEol chunks.flatten) =
      (Lines.readings lineData (Lines.closed ((cutLines chunks).map Prod.fst))).map joinLines := by
  rw [closedPayloads, map_fst_cutLines]

/-- **The closed events of the chunks are those of the stream**, if the cut pairs do not matter. -/
theorem closedPayloads_eq {chunks : List PyBytes} (h : ClosedUncut chunks) :
    closedPayloads (seenText chunks) = closedPayloads (normalizeEol chunks.flatten) := by
  obtain ⟨l, hlast⟩ := getLast?_cutLines chunks
  rw [closedPayloads_seenText, closedPayloads_normalizeEol,
    Lines.readings_closed_doubled_eq lineData rfl hlast h]

/-- Otherwise there are more. -/
theorem closedUncut_of_length_le {chunks : List PyBytes}
    (h : (closedPayloads (seenText chunks)).length ≤
      (closedPayloads (normalizeEol chunks.flatten)).length) : ClosedUncut chunks := by
  obtain ⟨l, hlast⟩ := getLast?_cutLines chunks
  rw [closedPayloads_seenText, closedPayloads_normalizeEol, List.length_map, List.length_map] at h
  exact Lines.closedTogether_of_length_le lineData rfl hlast h

/-- A piece that the buffer cuts is read as its event. -/
theorem payloads_block {raw : PyBytes} {ev : SSEEvent} (hcut : Lines.splitBlank 10 (raw ++ [10]) = none)
    (hev : blockEvent raw = some ev) : payloads (raw ++ [10, 10]) = [ev.data] := by
  have hne : raw ≠ [] := by
    rintro rfl
    cases hev
  rw [payloads_blank, ← map_data_textEvents, textEvents, Lines.blocks_splitOn_end 10 hcut, if_neg hne,
    List.filterMap_cons, ← blockEvent_eq hcut hne, hev]
  rfl

/-- A `data:` line and a blank line. -/
theorem payloads_dataLine {d : PyStr} {text : PyBytes} (hd : 10 ∉ d)
    (h : utf8Encode (py "data: " ++ d ++ py "\n\n") = some text) : payloads text = [d] := by
  have hlf : 10 ∉ py "data: " ++ d := by
    rw [List.mem_append, not_or]
    exact ⟨by decide, hd⟩
  have hlines : (py "data: " ++ d ++ py "\n\n").splitOn 10 = [py "data: " ++ d, [], []] := by
    show (py "data: " ++ d ++ 10 :: [10]).splitOn 10 = _
    rw [List.splitOn_append_cons_self_of_not_mem hlf]
    rfl
  have hdata : dataLine (py "data: " ++ d) = some d := rfl
  rw [payloads_decoded, utf8Decode_encode h, hlines]
  show (Lines.readings dataLine ([py "data: " ++ d] ++ [] :: [[]])).map joinLines = _
  rw [Lines.readings_append_blank, Lines.readings_of_ne dataLine (by simp [py])]
  simp only [List.filterMap_cons, hdata, List.filterMap_nil, List.cons_ne_nil, if_false]
  rw [Lines.readings_cons_blank, Lines.readings_nil]
  simp [joinLines]

end SSEParser

/-! ### What is passed on of an event -/

section Rewrites

variable (loads : Decoder) (r : FloatRepr) (fl : Arith)

/-- The payload with its reasoning fields normalised. -/
def normalizedData (data : PyStr) : Option PyStr :=
  if isDone data || !mentionsReasoning data then some data
  else
    match loads.text data with
    | some (.obj d) =>
      match normalizeObj d with
      | none => none
      | some (d, true) => some (dumps false r (.obj d))
      | some (_, false) => some data
    | _ => some data

/-- The payload of a line with its usage shifted, if it has one. -/
def shiftedData (data : PyStr) : Option PyStr :=
  match loads.text data with
  | some (.obj d) =>
    match shiftUsageObj fl d with
    | some (some d) => some (dumps true r (.obj d))
    | _ => none
  | _ => none

/-- The payload of a line as it was, or with its usage shifted. -/
def MaybeShifted (x y : PyStr) : Prop :=
  y = x ∨ shiftedData loads r fl x = some y

/-- A payload and what is passed on of it: normalised, and shifted or not line by line. -/
def Rewritten (data data' : PyStr) : Prop :=
  ∃ n, normalizedData loads r data = some n ∧
    List.Forall₂ (MaybeShifted loads r fl) (n.splitOn 10) (data'.splitOn 10)

end Rewrites

/-- A text that is nothing, or ends with a blank line, and is read as the given payloads. -/
structure Framed (out : PyBytes) (datas : List PyStr) : Prop where
  closes : out = [] ∨ ∃ t, out = t ++ [10, 10]
  no_cr : 13 ∉ out
  payloads : SSEParser.payloads out = datas

namespace Framed

theorem nil : Framed [] [] :=
  ⟨.inl rfl, List.not_mem_nil, rfl⟩

/-- **Texts are read one after the other.** -/
theorem append {out more : PyBytes} {datas datas' : List PyStr} (h : Framed out datas)
    (h' : Framed more datas') : Framed (out ++ more) (datas ++ datas') := by
  obtain ⟨hcloses, hcr, rfl⟩ := h
  obtain ⟨hcloses', hcr', rfl⟩ := h'
  refine ⟨?_, fun hmem ↦ (List.mem_append.1 hmem).elim hcr hcr', ?_⟩
  · rcases hcloses' with rfl | ⟨t, rfl⟩
    · rwa [List.append_nil]
    · exact .inr ⟨out ++ t, (List.append_assoc _ _ _).symm⟩
  · rcases hcloses with rfl | ⟨t, rfl⟩
    · rfl
    · rw [SSEParser.payloads_append, SSEParser.payloads_blank]

theorem flatten {outs : List PyBytes} {datas : List (List PyStr)} (h : List.Forall₂ Framed outs datas) :
    Framed outs.flatten datas.flatten := by
  induction h with
  | nil => exact nil
  | cons hout _ ih => exact hout.append ih

end Framed

/-- The text of a `data:` line and a blank line. -/
theorem framed_dataLine {d : PyStr} {text : PyBytes} (hd : ∀ c ∈ d, 32 ≤ c)
    (h : utf8Encode (py "data: " ++ d ++ py "\n\n") = some text) : Framed text [d] := by
  refine ⟨.inr ?_, fun hmem ↦ ?_, SSEParser.payloads_dataLine (fun hmem ↦ absurd (hd 10 hmem) (by decide)) h⟩
  · rw [utf8Encode_append] at h
    obtain ⟨t, -, h⟩ := Option.bind_eq_some_iff.1 h
    obtain ⟨nl, hnl, rfl⟩ := Option.map_eq_some_iff.1 h
    obtain rfl : [10, 10] = nl := Option.some.inj hnl
    exact ⟨t, rfl⟩
  · have hcr := (mem_utf8Encode_iff h (by decide)).1 hmem
    rcases List.mem_append.1 hcr with hcr | hcr
    · rcases List.mem_append.1 hcr with hcr | hcr
      · exact absurd hcr (by decide)
      · exact absurd (hd _ hcr) (by decide)
    · exact absurd hcr (by decide)

/-- The piece of the buffer that an event comes from. -/
theorem SSEParser.block_of_mem_feed {p : SSEParser} {chunk : PyBytes} {ev : SSEEvent}
    (h : ev ∈ (p.feed chunk).1) : ∃ raw, Lines.splitBlank 10 (raw ++ [10]) = none ∧ 13 ∉ raw ∧
      blockEvent raw = some ev := by
  obtain ⟨raw, hraw, hev⟩ := List.mem_filterMap.1 h
  refine ⟨raw, Lines.splitBlank_drain_fst 10 hraw, fun hcr ↦ ?_, hev⟩
  exact extend_no_cr p.no_cr chunk (Lines.mem_of_mem_drain_fst 10 hraw hcr)

/-- An event is the sentinel if its payload is. -/
theorem SSEParser.done_of_blockEvent {raw : PyBytes} {ev : SSEEvent} (h : blockEvent raw = some ev) :
    ev.done = isDone ev.data := by
  obtain ⟨ev', hparse, rfl⟩ := Option.map_eq_some_iff.1 h
  unfold parseBlock at hparse
  dsimp only at hparse
  split_ifs at hparse
  rw [← Option.some.inj hparse]

section Events

variable (loads : Decoder) (r : FloatRepr)

/-- The wire text of an event. -/
theorem framed_renderEvent {raw : PyBytes} {ev : SSEEvent}
    (hcut : Lines.splitBlank 10 (raw ++ [10]) = none) (hcr : 13 ∉ raw)
    (hev : SSEParser.blockEvent raw = some ev) : Framed (renderEvent ev) [ev.data] := by
  have hraw : ev.raw = some (raw ++ [10, 10]) := by
    obtain ⟨ev', -, rfl⟩ := Option.map_eq_some_iff.1 hev
    rfl
  rw [renderEvent, hraw]
  exact ⟨.inr ⟨raw, rfl⟩, by simpa using hcr, SSEParser.payloads_block hcut hev⟩

/-- **An event is passed on as one event**, normalised. -/
theorem framed_transformEvent {raw text : PyBytes} {ev : SSEEvent}
    (hcut : Lines.splitBlank 10 (raw ++ [10]) = none) (hcr : 13 ∉ raw)
    (hev : SSEParser.blockEvent raw = some ev) (h : transformEvent loads r ev = some text) :
    ∃ n, normalizedData loads r ev.data = some n ∧ Framed text [n] := by
  have hdone := SSEParser.done_of_blockEvent hev
  have hkeep : some (renderEvent ev) = some text → Framed text [ev.data] := fun heq ↦
    Option.some.inj heq ▸ framed_renderEvent hcut hcr hev
  unfold transformEvent at h
  unfold normalizedData
  rw [hdone] at h
  split_ifs at h ⊢ with hplain
  · exact ⟨ev.data, rfl, hkeep h⟩
  · unfold renderNormalized at h
    rcases hload : loads.text ev.data with - | v <;> rw [hload] at h
    · exact ⟨ev.data, rfl, hkeep h⟩
    · cases v with
      | obj d =>
        rcases hobj : normalizeObj d with - | ⟨d', - | -⟩ <;> simp only [hobj] at h ⊢
        · cases h
        · exact ⟨ev.data, rfl, hkeep h⟩
        · exact ⟨_, rfl, framed_dataLine (dumps_printable false r (.obj d')) h⟩
      | _ => exact ⟨ev.data, rfl, hkeep h⟩

/-- An event that comes from a piece of the buffer. -/
def HasBlock (ev : SSEEvent) : Prop :=
  ∃ raw, Lines.splitBlank 10 (raw ++ [10]) = none ∧ 13 ∉ raw ∧ SSEParser.blockEvent raw = some ev

/-- Events are passed on one after the other, normalised. -/
theorem framed_flatten {evs : List SSEEvent} {outs : List PyBytes}
    (h : List.Forall₂ (fun ev out ↦ transformEvent loads r ev = some out) evs outs)
    (hblock : ∀ ev ∈ evs, HasBlock ev) :
    ∃ ns, Framed outs.flatten ns ∧ List.Forall₂ (fun data n ↦ normalizedData loads r data = some n)
      (evs.map SSEEvent.data) ns := by
  induction h with
  | nil => exact ⟨[], Framed.nil, .nil⟩
  | @cons ev out evs outs hout _ ih =>
    obtain ⟨ns, hframed, hns⟩ := ih fun ev hev ↦ hblock ev (List.mem_cons_of_mem _ hev)
    obtain ⟨raw, hcut, hcr, hev⟩ := hblock ev List.mem_cons_self
    obtain ⟨n, hn, hfirst⟩ := framed_transformEvent loads r hcut hcr hev hout
    exact ⟨n :: ns, hfirst.append hframed, .cons hn hns⟩

/-- **A chunk is passed on as the events that it completes**, normalised. -/
theorem framed_transformStreamChunk {parser p : SSEParser} {chunk out : PyBytes}
    (h : transformStreamChunk loads r parser chunk = some (out, p)) :
    ∃ ns, Framed out ns ∧ List.Forall₂ (fun data n ↦ normalizedData loads r data = some n)
      ((parser.feed chunk).1.map SSEEvent.data) ns := by
  obtain ⟨outs, houts, heq⟩ := Option.map_eq_some_iff.1 h
  obtain rfl : outs.flatten = out := (Prod.mk.inj heq).1
  exact framed_flatten loads r (mapM_eq_some_iff.1 houts) fun ev hev ↦ SSEParser.block_of_mem_feed hev

end Events

/-! ### Shifted lines -/

section Shift

variable (loads : Decoder) (r : FloatRepr) (fl : Arith)

/-- A line and what the shift makes of it. -/
def ShiftedLine (line line' : PyStr) : Prop :=
  line' = line ∨ ∃ x y, line = py "data: " ++ x ∧ line' = py "data: " ++ y ∧
    shiftedData loads r fl x = some y ∧ ∀ c ∈ y, 32 ≤ c

theorem shiftedLine_of_shiftLine {line line' : PyStr} {changed : Bool}
    (h : shiftLine loads r fl line = some (line', changed)) : ShiftedLine loads r fl line line' := by
  unfold shiftLine at h
  split_ifs at h with hplain
  · exact .inl (Prod.mk.inj (Option.some.inj h)).1.symm
  · have hstart : startsWith line (py "data: ") = true := by
      by_contra hnot
      exact hplain (by simp [hnot])
    obtain ⟨x, rfl⟩ := List.isPrefixOf_iff_prefix.1 hstart
    have hdrop : (py "data: " ++ x).drop 6 = x := rfl
    rw [hdrop] at h
    rcases hload : loads.text x with - | v
    · rw [hload] at h
      exact .inl (Prod.mk.inj (Option.some.inj h)).1.symm
    · cases v with
      | obj d =>
        rcases hshift : shiftUsageObj fl d with - | - | d' <;> simp only [hload, hshift] at h
        · cases h
        · exact .inl (Prod.mk.inj (Option.some.inj h)).1.symm
        · refine .inr ⟨x, dumps true r (.obj d'), rfl, (Prod.mk.inj (Option.some.inj h)).1.symm, ?_,
            dumps_printable true r (.obj d')⟩
          simp only [shiftedData, hload, hshift]
      | _ =>
        simp only [hload] at h
        exact .inl (Prod.mk.inj (Option.some.inj h)).1.symm

theorem ShiftedLine.eq_nil_iff {line line' : PyStr} (h : ShiftedLine loads r fl line line') :
    line' = [] ↔ line = [] := by
  rcases h with rfl | ⟨x, y, rfl, rfl, -⟩
  · rfl
  · exact iff_of_false (by simp [py]) (by simp [py])

theorem ShiftedLine.rel_dataLine {line line' : PyStr} (h : ShiftedLine loads r fl line line') :
    Option.Rel (MaybeShifted loads r fl) (dataLine line) (dataLine line') := by
  rcases h with rfl | ⟨x, y, rfl, rfl, hshift, -⟩
  · rcases dataLine line' with - | d
    · exact .none
    · exact .some (.inl rfl)
  · have hdata : ∀ d, dataLine (py "data: " ++ d) = some d := fun d ↦ rfl
    rw [hdata, hdata]
    exact .some (.inr hshift)

theorem ShiftedLine.not_mem {line line' : PyStr} (h : ShiftedLine loads r fl line line') {c : ℕ}
    (hc : c < 32) (hline : c ∉ line) : c ∉ line' := by
  rcases h with rfl | ⟨x, y, rfl, rfl, -, hy⟩
  · exact hline
  · rw [List.mem_append, not_or] at hline ⊢
    exact ⟨hline.1, fun hmem ↦ absurd (hy c hmem) (by omega)⟩

/-- Payloads that are related line by line. -/
theorem forall₂_joinLines {R : PyStr → PyStr → Prop} {rs rs' : List (List PyStr)}
    (h : List.Forall₂ (List.Forall₂ R) rs rs') (hne : ∀ r ∈ rs, r ≠ [] ∧ ∀ d ∈ r, 10 ∉ d)
    (hne' : ∀ r ∈ rs', r ≠ [] ∧ ∀ d ∈ r, 10 ∉ d) :
    List.Forall₂ (fun d d' ↦ List.Forall₂ R (d.splitOn 10) (d'.splitOn 10)) (rs.map joinLines)
      (rs'.map joinLines) := by
  induction h with
  | nil => exact .nil
  | @cons r r' rs rs' hr _ ih =>
    obtain ⟨⟨hr1, hr2⟩, hrest⟩ := List.forall_mem_cons.1 hne
    obtain ⟨⟨hr1', hr2'⟩, hrest'⟩ := List.forall_mem_cons.1 hne'
    refine .cons ?_ (ih hrest hrest')
    rw [SSEParser.splitOn_joinLines hr1 hr2, SSEParser.splitOn_joinLines hr1' hr2']
    exact hr

/-- What is read off lines is lines. -/
theorem readings_dataLine {lines : List PyStr} (h : ∀ l ∈ lines, 10 ∉ l) :
    ∀ r ∈ Lines.readings dataLine lines, r ≠ [] ∧ ∀ d ∈ r, 10 ∉ d := by
  refine fun r hr ↦ ⟨Lines.ne_nil_of_mem_readings dataLine hr, fun d hd ↦ ?_⟩
  have hmem : d ∈ (Lines.readings dataLine lines).flatten := List.mem_flatten.2 ⟨r, hr, hd⟩
  rw [Lines.flatten_readings dataLine rfl] at hmem
  obtain ⟨l, hl, hdata⟩ := List.mem_filterMap.1 hmem
  exact SSEParser.dataLine_no_lf hdata (h l hl)

theorem forall₂_maybeShifted_refl (n : PyStr) :
    List.Forall₂ (MaybeShifted loads r fl) (n.splitOn 10) (n.splitOn 10) :=
  List.forall₂_same.2 fun _ _ ↦ .inl rfl

/-- The lines of a text that ends with a line end, rewritten one by one. -/
theorem exists_concat_of_forall₂ {R : PyStr → PyStr → Prop} (hnil : ∀ {m}, R [] m → m = [])
    {ls ms : List PyStr} (h : List.Forall₂ R (ls ++ [[]]) ms) :
    ∃ ms', ms = ms' ++ [[]] ∧ List.Forall₂ R ls ms' := by
  obtain ⟨ms', m, rest, rfl, hfirst, hm, hrest⟩ := exists_middle_of_forall₂ h
  obtain rfl : rest = [] := List.forall₂_nil_left_iff.1 hrest
  obtain rfl : m = [] := hnil hm
  exact ⟨ms', rfl, hfirst⟩

/-- The shift looks at the text: it is UTF-8, and `"usage"` stands in it. -/
def MentionsUsage (out : PyBytes) : Prop :=
  ∃ text, utf8DecodeStrict out = some text ∧ contains text (py "\"usage\"") = true

/-- What the shift makes of a line. -/
def ShiftsLine (l l' : PyStr) : Prop :=
  ∃ changed, shiftLine loads r fl l = some (l', changed)

section

variable {loads r fl}

/-- A text that the shift does not look at is passed on as it is. -/
theorem shift_of_not_mentionsUsage {out : PyBytes} (h : ¬ MentionsUsage out) :
    shiftStreamUsageToCached loads r fl out = some out := by
  unfold shiftStreamUsageToCached
  rcases htext : utf8DecodeStrict out with - | text
  · rfl
  · have hmention : contains text (py "\"usage\"") = false := by
      rw [← Bool.not_eq_true]
      exact fun hmention ↦ h ⟨text, htext, hmention⟩
    simp [hmention]

theorem shiftsLine_self {l l' : PyStr} (h : shiftLine loads r fl l = some (l', false)) : l' = l := by
  unfold shiftLine at h
  split_ifs at h
  · exact (Prod.mk.inj (Option.some.inj h)).1.symm
  · split at h
    · split at h
      · cases h
      · exact (Prod.mk.inj (Option.some.inj h)).1.symm
      · exact absurd (Prod.mk.inj (Option.some.inj h)).2 (by decide)
    · exact (Prod.mk.inj (Option.some.inj h)).1.symm

/-- Where no line has changed, the lines are what they were. -/
theorem map_fst_of_unchanged {ls : List PyStr} {ps : List (PyStr × Bool)}
    (h : List.Forall₂ (fun l p ↦ shiftLine loads r fl l = some p) ls ps) (hsame : ¬ ps.any Prod.snd = true) :
    ps.map Prod.fst = ls := by
  induction h with
  | nil => rfl
  | @cons l p ls ps hl _ ih =>
    rw [List.any_cons, Bool.or_eq_true, not_or] at hsame
    rcases p with ⟨l', - | -⟩
    · rw [List.map_cons, ih hsame.2, shiftsLine_self hl]
    · exact absurd rfl hsame.1

theorem ShiftsLine.shifted {l l' : PyStr} (h : ShiftsLine loads r fl l l') : ShiftedLine loads r fl l l' := by
  obtain ⟨changed, h⟩ := h
  exact shiftedLine_of_shiftLine loads r fl h

/-- **The lines of a text that the shift looks at**, each as it is then: they are put together again, with one
more line end, or nothing has changed. -/
theorem exists_lines_of_shift {out out' : PyBytes} {text : PyStr}
    (htext : utf8DecodeStrict out = some text) (hmention : contains text (py "\"usage\"") = true)
    (hshift : shiftStreamUsageToCached loads r fl out = some out') :
    ∃ lines, List.Forall₂ (ShiftsLine loads r fl) ((utf8Decode out).splitOn 10) lines ∧
      (out' = out ∧ lines = (utf8Decode out).splitOn 10 ∨
        utf8Encode (joinLines lines ++ [10]) = some out') := by
  have hdecode : utf8Decode out = text := utf8Decode_encode (utf8DecodeStrict_eq_some_iff.1 htext)
  unfold shiftStreamUsageToCached at hshift
  simp only [htext, hmention, Bool.not_true, Bool.false_eq_true, if_false] at hshift
  rcases hlines : (text.splitOn 10).mapM (shiftLine loads r fl) with - | lines
  · simp [hlines] at hshift
  · have hrel := mapM_eq_some_iff.1 hlines
    have hshifts : List.Forall₂ (ShiftsLine loads r fl) (text.splitOn 10) (lines.map Prod.fst) :=
      List.forall₂_map_right_iff.2 (hrel.imp fun l p hp ↦ ⟨p.2, hp⟩)
    refine ⟨lines.map Prod.fst, hdecode ▸ hshifts, ?_⟩
    simp only [hlines] at hshift
    split_ifs at hshift with hchanged
    · exact .inr hshift
    · exact .inl ⟨(Option.some.inj hshift).symm, by rw [hdecode, map_fst_of_unchanged hrel hchanged]⟩

/-- The lines of the text that is put together. -/
theorem splitOn_of_shift {text : PyStr} {lines : List PyStr} {out' : PyBytes}
    (h : List.Forall₂ (ShiftsLine loads r fl) (text.splitOn 10) lines)
    (hencode : utf8Encode (joinLines lines ++ [10]) = some out') :
    (utf8Decode out').splitOn 10 = lines ++ [[]] := by
  have hne : lines ≠ [] := by
    rintro rfl
    exact List.splitOn_ne_nil 10 text (List.forall₂_nil_right_iff.1 h)
  have hlf : ∀ l ∈ lines, 10 ∉ l := fun l hl ↦ by
    obtain ⟨line, hline, hboth⟩ := exists_of_mem_right h hl
    exact hboth.shifted.not_mem loads r fl (by decide) (Lines.not_mem_of_mem_splitOn hline)
  rw [utf8Decode_encode hencode, List.splitOn_append_cons_self, SSEParser.splitOn_joinLines hne hlf]
  rfl

/-- A text that ends with two line ends still does. -/
theorem closes_of_shift {out out' : PyBytes} {lines : List PyStr} (hcloses : ∃ t, out = t ++ [10, 10])
    (hrel : List.Forall₂ (ShiftedLine loads r fl) ((utf8Decode out).splitOn 10) lines)
    (hencode : utf8Encode (joinLines lines ++ [10]) = some out') : ∃ t, out' = t ++ [10, 10] := by
  obtain ⟨t, rfl⟩ := hcloses
  have hsplit : (utf8Decode (t ++ [10, 10])).splitOn 10 = ((utf8Decode t).splitOn 10 ++ [[]]) ++ [[]] := by
    rw [utf8Decode_append_lf, List.splitOn_append_cons_self, List.append_assoc]
    rfl
  obtain ⟨front, rfl, hfrontRel⟩ := exists_concat_of_forall₂ (R := ShiftedLine loads r fl)
    (fun hm ↦ (hm.eq_nil_iff loads r fl).2 rfl) (hsplit ▸ hrel)
  have hfrontNe : front ≠ [] := by
    rintro rfl
    exact absurd (List.forall₂_nil_right_iff.1 hfrontRel) (by simp)
  have hjoin : joinLines (front ++ [[]]) ++ [10] = joinLines front ++ py "\n\n" := by
    rw [joinLines_append hfrontNe (List.cons_ne_nil _ _), List.append_assoc]
    rfl
  rw [hjoin, utf8Encode_append] at hencode
  obtain ⟨a, -, hencode⟩ := Option.bind_eq_some_iff.1 hencode
  obtain ⟨nl, hnl, rfl⟩ := Option.map_eq_some_iff.1 hencode
  obtain rfl : [10, 10] = nl := Option.some.inj hnl
  exact ⟨a, rfl⟩

/-- A carriage return of the result is in one of its lines, and so in one of the lines before. -/
theorem not_mem_of_shift {out out' : PyBytes} {text : PyStr} {lines : List PyStr} (hcr : 13 ∉ out)
    (htext : utf8DecodeStrict out = some text)
    (hrel : List.Forall₂ (ShiftedLine loads r fl) (text.splitOn 10) lines)
    (hencode : utf8Encode (joinLines lines ++ [10]) = some out') : 13 ∉ out' := by
  intro hmem
  rcases List.mem_append.1 ((mem_utf8Encode_iff hencode (by decide)).1 hmem) with hin | hin
  · rcases Lines.mem_intercalate hin with heq | ⟨l, hl, hcrl⟩
    · exact absurd heq (by decide)
    · obtain ⟨line, hline, hboth⟩ := exists_of_mem_right hrel hl
      refine hboth.not_mem loads r fl (by decide) (fun hcrline ↦ hcr ?_) hcrl
      exact (mem_utf8Encode_iff (utf8DecodeStrict_eq_some_iff.1 htext) (by decide)).2
        (Lines.mem_of_mem_splitOn hline hcrline)
  · exact absurd hin (by decide)

/-- Blank lines stay blank, so the events have the same lines. -/
theorem forall₂_payloads_of_shift {out out' : PyBytes} {lines : List PyStr}
    (hlines : List.Forall₂ (ShiftsLine loads r fl) ((utf8Decode out).splitOn 10) lines)
    (hencode : utf8Encode (joinLines lines ++ [10]) = some out') :
    List.Forall₂ (fun n d ↦ List.Forall₂ (MaybeShifted loads r fl) (n.splitOn 10) (d.splitOn 10))
      (SSEParser.payloads out) (SSEParser.payloads out') := by
  have hrel : List.Forall₂ (ShiftedLine loads r fl) ((utf8Decode out).splitOn 10) lines :=
    hlines.imp fun _ _ ↦ ShiftsLine.shifted
  have hread := Lines.forall₂_readings dataLine (fun {_ _} hl ↦ ShiftedLine.eq_nil_iff loads r fl hl)
    (fun {_ _} hl ↦ ShiftedLine.rel_dataLine loads r fl hl) hrel
  rw [SSEParser.payloads_decoded, SSEParser.payloads_decoded, splitOn_of_shift hlines hencode,
    Lines.readings_concat_blank]
  refine forall₂_joinLines hread (readings_dataLine fun l hl ↦ Lines.not_mem_of_mem_splitOn hl)
    (readings_dataLine fun l hl ↦ ?_)
  obtain ⟨line, hline, hboth⟩ := exists_of_mem_right hrel hl
  exact hboth.not_mem loads r fl (by decide) (Lines.not_mem_of_mem_splitOn hline)

end

/-- **A shifted text is read as the same events**, each with its lines as they were or shifted. -/
theorem framed_shiftStreamUsageToCached {out out' : PyBytes} {ns : List PyStr} (h : Framed out ns)
    (hshift : shiftStreamUsageToCached loads r fl out = some out') :
    ∃ datas, Framed out' datas ∧ List.Forall₂
      (fun n d ↦ List.Forall₂ (MaybeShifted loads r fl) (n.splitOn 10) (d.splitOn 10)) ns datas := by
  have hsame : out = out' → ∃ datas, Framed out' datas ∧ List.Forall₂
      (fun n d ↦ List.Forall₂ (MaybeShifted loads r fl) (n.splitOn 10) (d.splitOn 10)) ns datas := fun heq ↦
    ⟨ns, heq ▸ h, List.forall₂_same.2 fun n _ ↦ forall₂_maybeShifted_refl loads r fl n⟩
  by_cases hlooks : MentionsUsage out
  · obtain ⟨text, htext, hmention⟩ := hlooks
    obtain ⟨lines, hlines, ⟨hout, -⟩ | hencode⟩ := exists_lines_of_shift htext hmention hshift
    · exact hsame hout.symm
    · obtain ⟨hcloses, hcr, rfl⟩ := h
      have hdecode : utf8Decode out = text := utf8Decode_encode (utf8DecodeStrict_eq_some_iff.1 htext)
      have hne : out ≠ [] := by
        rintro rfl
        obtain rfl : [] = text := hdecode
        exact absurd hmention (by decide)
      have hrel : List.Forall₂ (ShiftedLine loads r fl) ((utf8Decode out).splitOn 10) lines :=
        hlines.imp fun _ _ ↦ ShiftsLine.shifted
      refine ⟨_, ⟨.inr ?_, ?_, rfl⟩, forall₂_payloads_of_shift hlines hencode⟩
      · exact closes_of_shift (hcloses.resolve_left hne) hrel hencode
      · exact not_mem_of_shift hcr htext (hdecode ▸ hrel) hencode
  · rw [shift_of_not_mentionsUsage hlooks] at hshift
    exact hsame (Option.some.inj hshift)

end Shift

/-! ### Chunks that are passed on -/

namespace Service

variable (sv : Service)

/-- **A chunk is passed on as the events that it completes**, each rewritten. -/
theorem chatChunk_framed {e : Entry} {parser p : SSEParser} {data out : PyBytes}
    (h : sv.chatChunk e parser data = some (out, p)) :
    ∃ datas, Framed out datas ∧ List.Forall₂ (Rewritten sv.loads sv.repr sv.arith)
      ((parser.feed data).1.map SSEEvent.data) datas := by
  obtain ⟨⟨out', p'⟩, htransform, h⟩ := Option.bind_eq_some_iff.1 h
  obtain ⟨ns, hframed, hns⟩ := framed_transformStreamChunk sv.loads sv.repr htransform
  dsimp only at h
  split_ifs at h
  · obtain ⟨out'', hshift, heq⟩ := Option.map_eq_some_iff.1 h
    obtain rfl : out'' = out := (Prod.mk.inj heq).1
    obtain ⟨datas, hout, hdatas⟩ := framed_shiftStreamUsageToCached sv.loads sv.repr sv.arith hframed hshift
    exact ⟨datas, hout, forall₂_trans hns hdatas⟩
  · obtain rfl : out' = out := (Prod.mk.inj (Option.some.inj h)).1
    refine ⟨ns, hframed, hns.imp fun data n hn ↦ ⟨n, hn, ?_⟩⟩
    exact forall₂_maybeShifted_refl sv.loads sv.repr sv.arith n

/-- **The chunks of a stream that fails are passed on as the events that they complete.** -/
theorem relayEvents_framed {e : Entry} {parser : SSEParser} {cs outs : List PyBytes} {error : PyStr}
    {status : ℕ} {retryable midStream : Bool}
    (h : sv.relayEvents e parser (cs.map .chunk ++ [.failed error status retryable midStream]) = some outs) :
    ∃ datas, Framed outs.flatten datas ∧ List.Forall₂ (Rewritten sv.loads sv.repr sv.arith)
      ((parser.feedAll cs).1.map SSEEvent.data) datas := by
  induction cs generalizing parser outs with
  | nil =>
    obtain rfl : [] = outs := Option.some.inj h
    exact ⟨[], Framed.nil, .nil⟩
  | cons data cs ih =>
    obtain ⟨⟨out, p⟩, hchunk, h⟩ := Option.bind_eq_some_iff.1 h
    obtain ⟨rest, hrest, rfl⟩ := Option.map_eq_some_iff.1 h
    obtain ⟨datas, hframed, hdatas⟩ := sv.chatChunk_framed hchunk
    obtain ⟨datas', hframed', hdatas'⟩ := ih hrest
    refine ⟨datas ++ datas', hframed.append hframed', ?_⟩
    rw [SSEParser.feedAll, List.map_append, ← sv.parser_of_chatChunk hchunk]
    exact List.rel_append hdatas hdatas'

end Service

end LocalGateway
