import LocalGateway.Foundations.FramedLines
import LocalGateway.Foundations.Related
import LocalGateway.Stream.Normalized

/-!
# Events on the wire

`render_event` and `SSEParser` are a codec: what one writes the other reads, however the bytes are cut into chunks, and
each event as soon as its last byte has come.

* `SSEParser.parse_renderEvents`: the round trip.
-/

namespace LocalGateway

open Py

/-- An event that can be sent: one that a parser returned, or one that was built, with a payload that can be encoded and
has no carriage return. -/
def Sendable (ev : SSEEvent) : Prop :=
  (∃ chunks, ev ∈ SSEParser.parse chunks) ∨
    ev.raw = none ∧ (ev.done = false → ∀ c ∈ ev.data, IsScalar c ∧ c ≠ 13)

/-- What an event is read as. -/
def received (ev : SSEEvent) : SSEEvent where
  data := if ev.raw = none ∧ ev.done = true then py "[DONE]" else ev.data
  done := ev.done || isDone ev.data
  raw := some (renderEvent ev)

/-- An event is written as one piece and its end. -/
structure Piece (ev : SSEEvent) (raw : PyBytes) : Prop where
  cut : Lines.splitBlank 10 (raw ++ [10]) = none
  no_cr : 13 ∉ raw
  rendered : renderEvent ev = Lines.frame 10 raw
  read : SSEParser.blockEvent raw = some (received ev)

/-! ### Events that were parsed -/

theorem hasBlock_of_mem_feedAll {p : SSEParser} {chunks : List PyBytes} {ev : SSEEvent}
    (h : ev ∈ (p.feedAll chunks).1) : HasBlock ev := by
  induction chunks generalizing p with
  | nil => exact absurd h List.not_mem_nil
  | cons chunk chunks ih =>
    rcases List.mem_append.1 h with h | h
    · exact SSEParser.block_of_mem_feed h
    · exact ih h

theorem hasBlock_of_mem_parse {chunks : List PyBytes} {ev : SSEEvent} (h : ev ∈ SSEParser.parse chunks) :
    HasBlock ev := by
  rcases List.mem_append.1 h with h | h
  · exact hasBlock_of_mem_feedAll h
  · exact hasBlock_of_flush (Option.mem_toList.1 h)

theorem raw_of_blockEvent {raw : PyBytes} {ev : SSEEvent} (h : SSEParser.blockEvent raw = some ev) :
    ev.raw = some (raw ++ [10, 10]) := by
  obtain ⟨ev', -, rfl⟩ := Option.map_eq_some_iff.1 h
  rfl

/-- **What was parsed is read as itself.** -/
theorem received_of_hasBlock {ev : SSEEvent} (h : HasBlock ev) : received ev = ev := by
  obtain ⟨raw, -, -, hev⟩ := h
  have hraw := raw_of_blockEvent hev
  have hdone := SSEParser.done_of_blockEvent hev
  rcases ev with ⟨data, done, wire⟩
  obtain rfl : wire = some (raw ++ [10, 10]) := hraw
  obtain rfl : done = isDone data := hdone
  simp [received, renderEvent]

theorem piece_of_hasBlock {ev : SSEEvent} (h : HasBlock ev) : ∃ raw, Piece ev raw := by
  have hsame := received_of_hasBlock h
  obtain ⟨raw, hcut, hcr, hev⟩ := h
  refine ⟨raw, hcut, hcr, ?_, hsame.symm ▸ hev⟩
  rw [renderEvent, raw_of_blockEvent hev]
  rfl

/-! ### Events that were built -/

/-- The `data:` lines of a payload. -/
def dataLines (data : PyStr) : List PyStr :=
  (data.splitOn 10).map (py "data: " ++ ·)

theorem no_lf_of_mem_dataLines {data l : PyStr} (h : l ∈ dataLines data) : l ≠ [] ∧ 10 ∉ l := by
  obtain ⟨line, hline, rfl⟩ := List.mem_map.1 h
  refine ⟨List.append_ne_nil_of_left_ne_nil (by decide) line, fun hmem ↦ ?_⟩
  rcases List.mem_append.1 hmem with hmem | hmem
  · exact absurd hmem (by decide)
  · exact Lines.not_mem_of_mem_splitOn hline hmem

theorem dataLines_ne_nil (data : PyStr) : dataLines data ≠ [] := fun h ↦
  List.splitOn_ne_nil 10 data (List.map_eq_nil_iff.1 h)

/-- The payload of its `data:` lines. -/
theorem filterMap_dataLines (data : PyStr) : (dataLines data).filterMap dataLine = data.splitOn 10 := by
  have hline : ∀ line : PyStr, dataLine (py "data: " ++ line) = some line := fun _ ↦ rfl
  rw [dataLines, List.filterMap_map]
  exact (List.filterMap_congr fun line _ ↦ hline line).trans List.filterMap_some

/-- What is written of a payload: its lines, and a blank one. -/
theorem flatMap_dataLines (data : PyStr) :
    ((data.splitOn 10).flatMap fun line ↦ py "data: " ++ line ++ [10]) ++ [10] =
      joinLines (dataLines data) ++ py "\n\n" := by
  have hjoin : ∀ lines : List PyStr, lines ≠ [] → lines.flatMap (· ++ [10]) = joinLines lines ++ [10] := by
    intro lines
    induction lines with
    | nil => exact fun h ↦ absurd rfl h
    | cons l lines ih =>
      intro _
      rcases lines with - | ⟨m, lines⟩
      · simp [joinLines]
      · have happend : joinLines (l :: m :: lines) = l ++ 10 :: joinLines (m :: lines) := by
          simp [joinLines]
        rw [List.flatMap_cons, ih (List.cons_ne_nil m lines), happend]
        simp
  have hmap : ((data.splitOn 10).flatMap fun line ↦ py "data: " ++ line ++ [10]) =
      (dataLines data).flatMap (· ++ [10]) := by
    rw [dataLines, List.flatMap_map]
  have hend : py "\n\n" = [10, 10] := by decide
  rw [hmap, hjoin _ (dataLines_ne_nil data), hend]
  simp

/-- A payload that is encoded. -/
theorem piece_of_data {data : PyStr} (h : ∀ c ∈ data, IsScalar c ∧ c ≠ 13) :
    ∃ raw, utf8Encode (joinLines (dataLines data)) = some raw ∧ Lines.splitBlank 10 (raw ++ [10]) = none ∧
      13 ∉ raw ∧ SSEParser.blockEvent raw = some ⟨data, isDone data, some (raw ++ [10, 10])⟩ := by
  have hchars : ∀ c ∈ joinLines (dataLines data), IsScalar c ∧ c ≠ 13 := by
    intro c hc
    rcases Lines.mem_intercalate hc with rfl | ⟨l, hl, hc⟩
    · exact ⟨by decide, by decide⟩
    · obtain ⟨line, hline, rfl⟩ := List.mem_map.1 hl
      rcases List.mem_append.1 hc with hc | hc
      · have hname : ∀ c ∈ py "data: ", IsScalar c ∧ c ≠ 13 := by decide
        exact hname c hc
      · exact h c (Lines.mem_of_mem_splitOn hline hc)
  obtain ⟨raw, hraw⟩ := Option.isSome_iff_exists.1 (utf8Encode_isSome_iff.2 fun c hc ↦ (hchars c hc).1)
  have hsplit : (joinLines (dataLines data)).splitOn 10 = dataLines data :=
    SSEParser.splitOn_joinLines (dataLines_ne_nil data) fun l hl ↦ (no_lf_of_mem_dataLines hl).2
  have hlines : (raw.splitOn 10).map utf8Decode = dataLines data := by
    rw [← splitOn_utf8Decode, utf8Decode_encode hraw, hsplit]
  have hne : [] ∉ raw.splitOn 10 := fun hmem ↦
    (no_lf_of_mem_dataLines (hlines ▸ List.mem_map_of_mem hmem)).1 utf8Decode_nil
  refine ⟨raw, hraw, Lines.splitBlank_of_lines 10 hne, fun hmem ↦ ?_, ?_⟩
  · exact (hchars 13 ((mem_utf8Encode_iff hraw (by decide)).1 hmem)).2 rfl
  · have hdata : joinLines (data.splitOn 10) = data := List.intercalate_splitOn 10
    rw [SSEParser.blockEvent, parseBlock, utf8Decode_encode hraw, hsplit, filterMap_dataLines,
      if_neg (List.splitOn_ne_nil 10 data), hdata]
    rfl

/-- The sentinel. -/
theorem piece_of_done {ev : SSEEvent} (hraw : ev.raw = none) (hdone : ev.done = true) :
    Piece ev (pyb "data: [DONE]") where
  cut := by decide
  no_cr := by decide
  rendered := by
    have hframe : pyb "data: [DONE]\n\n" = Lines.frame 10 (pyb "data: [DONE]") := by decide
    simp only [renderEvent, hraw, hdone, if_true, hframe]
  read := by
    have hread : SSEParser.blockEvent (pyb "data: [DONE]") =
        some ⟨py "[DONE]", true, some (pyb "data: [DONE]\n\n")⟩ := by
      decide
    rw [hread, received, renderEvent, hraw, hdone]
    rfl

theorem piece_of_built {ev : SSEEvent} (hraw : ev.raw = none)
    (h : ev.done = false → ∀ c ∈ ev.data, IsScalar c ∧ c ≠ 13) : ∃ raw, Piece ev raw := by
  rcases hdone : ev.done with - | -
  · obtain ⟨raw, hencode, hcut, hcr, hread⟩ := piece_of_data (h hdone)
    have hend : utf8Encode (py "\n\n") = some [10, 10] := by decide
    have hrender : renderEvent ev = raw ++ [10, 10] := by
      simp only [renderEvent, hraw, hdone, Bool.false_eq_true, if_false]
      rw [flatMap_dataLines, utf8Encode_append, hencode, Option.bind_some, hend]
      rfl
    refine ⟨raw, hcut, hcr, hrender, ?_⟩
    rw [hread, received, hrender, hdone]
    simp
  · exact ⟨_, piece_of_done hraw hdone⟩

theorem piece_of_sendable {ev : SSEEvent} (h : Sendable ev) : ∃ raw, Piece ev raw := by
  rcases h with ⟨chunks, hmem⟩ | ⟨hraw, hdata⟩
  · exact piece_of_hasBlock (hasBlock_of_mem_parse hmem)
  · exact piece_of_built hraw hdata

/-- The pieces of events. -/
theorem exists_pieces {evs : List SSEEvent} (h : ∀ ev ∈ evs, Sendable ev) : ∃ raws, List.Forall₂ Piece evs raws := by
  induction evs with
  | nil => exact ⟨[], .nil⟩
  | cons ev evs ih =>
    obtain ⟨raw, hraw⟩ := piece_of_sendable (h ev List.mem_cons_self)
    obtain ⟨raws, hraws⟩ := ih fun e he ↦ h e (List.mem_cons_of_mem ev he)
    exact ⟨raw :: raws, .cons hraw hraws⟩

section Pieces

variable {evs : List SSEEvent} {raws : List PyBytes}

theorem flatMap_pieces (h : List.Forall₂ Piece evs raws) :
    evs.flatMap renderEvent = raws.flatMap (Lines.frame 10) := by
  induction h with
  | nil => rfl
  | cons hpiece _ ih => rw [List.flatMap_cons, List.flatMap_cons, ih, hpiece.rendered]

theorem filterMap_pieces (h : List.Forall₂ Piece evs raws) : raws.filterMap SSEParser.blockEvent = evs.map received := by
  induction h with
  | nil => rfl
  | cons hpiece _ ih => rw [List.filterMap_cons, hpiece.read, ih, List.map_cons]

theorem cut_pieces (h : List.Forall₂ Piece evs raws) : ∀ raw ∈ raws, Lines.splitBlank 10 (raw ++ [10]) = none := by
  intro raw hraw
  obtain ⟨ev, -, hpiece⟩ := exists_of_mem_right h hraw
  exact hpiece.cut

theorem no_cr_pieces (h : List.Forall₂ Piece evs raws) : 13 ∉ raws.flatMap (Lines.frame 10) := by
  intro hmem
  obtain ⟨raw, hraw, hmem⟩ := List.mem_flatMap.1 hmem
  obtain ⟨ev, -, hpiece⟩ := exists_of_mem_right h hraw
  rcases List.mem_append.1 hmem with hmem | hmem
  · exact hpiece.no_cr hmem
  · exact absurd hmem (by decide)

end Pieces

/-- Chunks without carriage returns are seen as they are. -/
theorem SSEParser.seenText_of_no_cr {chunks : List PyBytes} (h : 13 ∉ chunks.flatten) :
    seenText chunks = chunks.flatten := by
  rw [seenText, List.map_congr_left fun chunk hchunk ↦ normalizeEol_of_no_cr fun hmem ↦
    h (List.mem_flatten.2 ⟨chunk, hchunk, hmem⟩), List.map_id']

/-- **What is written is read.** Of events that are written one after the other and come in chunks of any kind, the
parser has returned, at any moment, exactly those whose last byte has come, each with the payload and the bytes it was
sent with; at the end it has returned them all and nothing is left. An event that a parser returned is read as
itself. -/
theorem SSEParser.parse_renderEvents {evs : List SSEEvent} (h : ∀ ev ∈ evs, Sendable ev) :
    (∀ chunks rest, chunks.flatten ++ rest = evs.flatMap renderEvent →
      ∃ k ≤ evs.length, (feedAll init chunks).1 = (evs.take k).map received ∧
        ∀ j ≤ evs.length, (evs.take j).flatMap renderEvent <+: chunks.flatten ↔ j ≤ k) ∧
      (∀ chunks, chunks.flatten = evs.flatMap renderEvent → parse chunks = evs.map received) ∧
      ∀ ev ∈ evs, (∃ chunks, ev ∈ parse chunks) → received ev = ev := by
  obtain ⟨raws, hpieces⟩ := exists_pieces h
  have hrendered := flatMap_pieces hpieces
  have hcuts := cut_pieces hpieces
  -- what has come of the pieces, and the part of one that is left
  have hfed : ∀ chunks rest, chunks.flatten ++ rest = evs.flatMap renderEvent →
      ∃ k ≤ evs.length, (feedAll init chunks).1 = (evs.take k).map received ∧
        chunks.flatten = (evs.take k).flatMap renderEvent ++ (feedAll init chunks).2.buf ∧
        ∀ j ≤ evs.length, (evs.take j).flatMap renderEvent <+: chunks.flatten ↔ j ≤ k := by
    intro chunks rest hsplit
    have hsplit := hsplit
    rw [hrendered] at hsplit
    have hcr : 13 ∉ chunks.flatten := fun hmem ↦
      no_cr_pieces hpieces (hsplit ▸ List.mem_append_left rest hmem)
    obtain ⟨k, hk, hcut, hleft, hcount⟩ := Lines.drain_frames_prefix 10 hcuts hsplit
    obtain ⟨hevents, hbuf⟩ := feedAll_eq init chunks
    have hseen : init.buf ++ seenText chunks = chunks.flatten := seenText_of_no_cr hcr
    rw [hseen] at hevents hbuf
    have htake : ∀ j, (evs.take j).flatMap renderEvent = (raws.take j).flatMap (Lines.frame 10) := fun j ↦
      flatMap_pieces (List.forall₂_take j hpieces)
    refine ⟨k, hpieces.length_eq ▸ hk, ?_, ?_, fun j hj ↦ ?_⟩
    · rw [hevents, hcut, filterMap_pieces (List.forall₂_take k hpieces)]
    · rw [htake, hbuf, ← hleft]
    · rw [htake]
      exact hcount j (hpieces.length_eq ▸ hj)
  refine ⟨fun chunks rest hsplit ↦ ?_, fun chunks hflatten ↦ ?_, ?_⟩
  · obtain ⟨k, hk, hevents, -, hcount⟩ := hfed chunks rest hsplit
    exact ⟨k, hk, hevents, hcount⟩
  · obtain ⟨k, hk, hevents, hleft, hcount⟩ := hfed chunks [] (by rw [List.append_nil, hflatten])
    -- all of it has come
    have hwhole : (evs.take evs.length).flatMap renderEvent ++ [] = chunks.flatten := by
      rw [List.take_length, List.append_nil, hflatten]
    obtain rfl : k = evs.length := le_antisymm hk ((hcount evs.length le_rfl).1 ⟨[], hwhole⟩)
    rw [List.take_length] at hevents hleft
    have hnil : (feedAll init chunks).2.buf = [] := by
      rw [hflatten] at hleft
      exact List.self_eq_append_right.1 hleft
    have hrest : textEvents (feedAll init chunks).2.buf = [] := congrArg textEvents hnil
    rw [parse, hevents, flush_eq, hrest, List.append_nil]
  · rintro ev - ⟨chunks, hmem⟩
    exact received_of_hasBlock (hasBlock_of_mem_parse hmem)

/-- An event of two lines that is cut in the middle of the second, and the sentinel. -/
theorem SSEParser.parse_renderEvents_sample :
    let evs : List SSEEvent := [⟨py "a\nb", false, none⟩, ⟨[], true, none⟩]
    parse [pyb "data: a\ndat", pyb "a: b\n\ndata: [DONE]\n\n"] = evs.map received := by
  intro evs
  have hsendable : ∀ ev ∈ evs, Sendable ev := by
    intro ev hev
    simp only [evs, List.mem_cons, List.not_mem_nil, or_false] at hev
    rcases hev with rfl | rfl
    · exact .inr ⟨rfl, fun _ ↦ by decide⟩
    · exact .inr ⟨rfl, fun h ↦ by cases h⟩
  exact (parse_renderEvents hsendable).2.1 _ (by decide +kernel)

end LocalGateway
