import LocalGateway.Stream.Rewritten

/-!
# Where the shift of a chunk finds its usage

`_shift_stream_usage_to_cached` works on the text of a chunk that is passed on, line by line, and knows nothing of
events. It looks at the chunk only if all of it is UTF-8 and `"usage"` stands in it, and at a line only if the line
begins with `data: `.

* `SSEParser.dataLines`: the `data:` lines of each event of a text.
* `dataLines_shift`: a shifted text has the same events, and each of their `data:` lines is shifted.
* `Service.exists_dataLines`: what a chunk makes of the `data:` lines of one of the events that it completes.
-/

namespace LocalGateway

open Py Json

namespace SSEParser

/-- The line, if it is a `data:` line. -/
def keepDataLine (l : PyStr) : Option PyStr :=
  if (dataLine l).isSome then some l else none

/-- The `data:` lines of the events of a text. -/
def dataLines (s : PyBytes) : List (List PyStr) :=
  Lines.readings keepDataLine ((utf8Decode s).splitOn 10)

/-- The payload of `data:` lines. -/
def linesPayload (ls : List PyStr) : PyStr :=
  joinLines (ls.filterMap dataLine)

theorem forall₂_dataLines (ls : List PyStr) : List.Forall₂ (List.Forall₂ fun l d ↦ dataLine l = some d)
    (Lines.readings keepDataLine ls) (Lines.readings dataLine ls) := by
  refine Lines.forall₂_readings (R := Eq) keepDataLine (fun {_ _} h ↦ h ▸ Iff.rfl) (fun {l m} h ↦ ?_)
    (List.forall₂_same.2 fun _ _ ↦ rfl)
  subst h
  unfold keepDataLine
  rcases hdata : dataLine l with - | d
  · exact .none
  · exact .some hdata

/-- A payload is that of its lines. -/
theorem payloads_eq_map (s : PyBytes) : payloads s = (dataLines s).map linesPayload := by
  have hlines := forall₂_dataLines ((utf8Decode s).splitOn 10)
  rw [payloads_decoded]
  refine map_eq_of_forall₂ hlines fun {ls ds} h ↦ ?_
  have hdata : ds.filterMap some = ls.filterMap dataLine := filterMap_eq_of_forall₂ h fun hl ↦ hl.symm
  rw [linesPayload, ← hdata, List.filterMap_some]

theorem dataLines_blank (s t : PyBytes) : dataLines (s ++ [10, 10] ++ t) = dataLines s ++ dataLines t := by
  have hsplit : (utf8Decode (s ++ [10, 10] ++ t)).splitOn 10 =
      (utf8Decode s).splitOn 10 ++ [] :: (utf8Decode t).splitOn 10 := by
    rw [List.append_assoc]
    show (utf8Decode (s ++ 10 :: 10 :: t)).splitOn 10 = _
    rw [utf8Decode_append_lf, List.splitOn_append_cons_self, ← List.nil_append (10 :: t), utf8Decode_append_lf,
      utf8Decode_nil, List.nil_append, Lines.splitOn_cons_self]
  rw [dataLines, hsplit, Lines.readings_append_blank]
  rfl

/-- The events of a text, and then those of another. -/
theorem dataLines_append {s : PyBytes} (h : s = [] ∨ ∃ t, s = t ++ [10, 10]) (t : PyBytes) :
    dataLines (s ++ t) = dataLines s ++ dataLines t := by
  rcases h with rfl | ⟨s, rfl⟩
  · rfl
  · have hend : dataLines (s ++ [10, 10]) = dataLines s := by
      simpa [dataLines, Lines.readings_cons_blank] using dataLines_blank s []
    rw [dataLines_blank, hend]

end SSEParser

/-! ### Chunks one after the other -/

namespace SSEParser

/-- Bytes without CR in front are as they are. -/
theorem normalizeEol_append_of_no_cr {s : PyBytes} (h : 13 ∉ s) (t : PyBytes) :
    normalizeEol (s ++ t) = s ++ normalizeEol t := by
  induction s with
  | nil => rfl
  | cons b s ih =>
    have hb : b ≠ 13 := fun hb ↦ h (hb ▸ List.mem_cons_self)
    rw [List.cons_append, normalizeEol_cons fun heq ↦ absurd heq hb, if_neg hb,
      ih fun hs ↦ h (List.mem_cons_of_mem b hs)]
    rfl

theorem payloads_append_of_closes {s : PyBytes} (h : s = [] ∨ ∃ t, s = t ++ [10, 10]) (t : PyBytes) :
    payloads (s ++ t) = payloads s ++ payloads t := by
  rw [payloads_eq_map, payloads_eq_map, payloads_eq_map, dataLines_append h, List.map_append]

/-- The events of some more chunks, after which the stream ends. -/
def feedFlush (p : SSEParser) (cs : List PyBytes) : List SSEEvent :=
  (p.feedAll cs).1 ++ (p.feedAll cs).2.flush.1.toList

theorem feedAll_append (p : SSEParser) (cs ds : List PyBytes) :
    p.feedAll (cs ++ ds) =
      ((p.feedAll cs).1 ++ ((p.feedAll cs).2.feedAll ds).1, ((p.feedAll cs).2.feedAll ds).2) := by
  induction cs generalizing p with
  | nil => rfl
  | cons c cs ih =>
    rw [List.cons_append, feedAll, ih, feedAll, List.append_assoc]

/-- Chunks of no bytes make no difference. -/
theorem feedAll_filter (p : SSEParser) (cs : List PyBytes) :
    p.feedAll (cs.filter (· ≠ [])) = p.feedAll cs := by
  induction cs generalizing p with
  | nil => rfl
  | cons c cs ih =>
    by_cases hc : c = []
    · subst hc
      have hskip : ([] :: cs : List PyBytes).filter (· ≠ []) = cs.filter (· ≠ []) := rfl
      rw [hskip, ih, feedAll, feed_nil]
      rfl
    · rw [List.filter_cons_of_pos (by simpa using hc), feedAll, feedAll, ih]

end SSEParser

/-! ### Lines that are shifted -/

section Shift

variable {loads : Decoder} {r : FloatRepr} {fl : Arith}

/-- **A shifted text has the same events**, and each of their `data:` lines is shifted. -/
theorem dataLines_shift {out out' : PyBytes} {text : PyStr} (htext : utf8DecodeStrict out = some text)
    (hmention : contains text (py "\"usage\"") = true)
    (hshift : shiftStreamUsageToCached loads r fl out = some out') :
    List.Forall₂ (List.Forall₂ (ShiftsLine loads r fl)) (SSEParser.dataLines out)
      (SSEParser.dataLines out') := by
  obtain ⟨lines, hlines, hout⟩ := exists_lines_of_shift htext hmention hshift
  have hread : SSEParser.dataLines out' = Lines.readings SSEParser.keepDataLine lines := by
    rcases hout with ⟨rfl, rfl⟩ | hencode
    · rfl
    · rw [SSEParser.dataLines, splitOn_of_shift hlines hencode, Lines.readings_concat_blank]
  rw [hread]
  refine Lines.forall₂_readings SSEParser.keepDataLine (fun {_ _} h ↦ h.shifted.eq_nil_iff loads r fl)
    (fun {l l'} h ↦ ?_) hlines
  have hdata := h.shifted.rel_dataLine loads r fl
  unfold SSEParser.keepDataLine
  rcases hl : dataLine l with - | d <;> rcases hl' : dataLine l' with - | d' <;> rw [hl, hl'] at hdata
  · exact .none
  · cases hdata
  · cases hdata
  · exact .some h

end Shift

section Lines

variable {loads : Decoder} {r : FloatRepr} {fl : Arith}

/-- A `data:` line with a space is its payload after six characters. -/
theorem eq_of_dataLine {l x : PyStr} (hdata : dataLine l = some x) (hstart : startsWith l (py "data: ") = true) :
    l = py "data: " ++ x := by
  obtain ⟨x', rfl⟩ := List.isPrefixOf_iff_prefix.1 hstart
  have hx : some x' = some x := hdata
  rw [Option.some.inj hx]

/-- A line without the space stays, and so does one that is no object. -/
theorem ShiftsLine.eq_self {l l' x : PyStr} (h : ShiftsLine loads r fl l l') (hdata : dataLine l = some x)
    (hnot : startsWith l (py "data: ") = true → ∀ d, loads.text x ≠ some (.obj d)) : l' = l := by
  obtain ⟨changed, h⟩ := h
  rcases hstart : startsWith l (py "data: ") with - | -
  · rw [shiftLine, hstart] at h
    exact (Prod.mk.inj (Option.some.inj h)).1.symm
  · obtain rfl := eq_of_dataLine hdata hstart
    have hdrop : (py "data: " ++ x).drop 6 = x := rfl
    have hobj := hnot hstart
    unfold shiftLine at h
    rw [hdrop] at h
    split_ifs at h
    · exact (Prod.mk.inj (Option.some.inj h)).1.symm
    · split at h
      · next d hd => exact absurd hd (hobj d)
      · exact (Prod.mk.inj (Option.some.inj h)).1.symm

/-- Lines none of which is an object stay. -/
theorem eq_of_shiftsLine {ls ls' xs : List PyStr} (h : List.Forall₂ (ShiftsLine loads r fl) ls ls')
    (hdata : List.Forall₂ (fun l x ↦ dataLine l = some x) ls xs)
    (hnot : ∀ x ∈ xs, ∀ d, loads.text x ≠ some (.obj d)) : ls' = ls := by
  induction h generalizing xs with
  | nil => rfl
  | cons hl _ ih =>
    obtain ⟨x, xs, hx, hxs, rfl⟩ := List.forall₂_cons_left_iff.1 hdata
    rw [hl.eq_self hx fun _ ↦ hnot x List.mem_cons_self,
      ih hxs fun y hy ↦ hnot y (List.mem_cons_of_mem x hy)]

/-- A line with the space is shifted as the object is. -/
theorem ShiftsLine.of_obj {x l' : PyStr} {d : PyDict} (h : ShiftsLine loads r fl (py "data: " ++ x) l')
    (hload : loads.text x = some (.obj d)) (hdone : isDone x = false) :
    ∃ res, shiftUsageObj fl d = some res ∧
      l' = match res with
        | some d' => py "data: " ++ dumps true r (.obj d')
        | none => py "data: " ++ x := by
  obtain ⟨changed, h⟩ := h
  have hdrop : (py "data: " ++ x).drop 6 = x := rfl
  have hstart : startsWith (py "data: " ++ x) (py "data: ") = true := rfl
  rw [shiftLine, hdrop, hstart, hdone, hload] at h
  simp only [Bool.not_true, Bool.or_self, Bool.false_eq_true, if_false] at h
  rcases hshift : shiftUsageObj fl d with - | - | d' <;> simp only [hshift] at h
  · cases h
  · exact ⟨none, rfl, (Prod.mk.inj (Option.some.inj h)).1.symm⟩
  · exact ⟨some d', rfl, (Prod.mk.inj (Option.some.inj h)).1.symm⟩

end Lines

/-! ### The lines of an event -/

namespace SSEParser

theorem linesPayload_singleton {l x : PyStr} (h : dataLine l = some x) : linesPayload [l] = x := by
  simp [linesPayload, h, joinLines]

/-- The lines of an event say something, and are lines. -/
theorem data_of_mem_dataLines {s : PyBytes} {ls : List PyStr} {l : PyStr} (hls : ls ∈ dataLines s)
    (hl : l ∈ ls) : ∃ x, dataLine l = some x ∧ 10 ∉ x := by
  have hmem : l ∈ (dataLines s).flatten := List.mem_flatten.2 ⟨ls, hls, hl⟩
  rw [dataLines, Lines.flatten_readings keepDataLine rfl] at hmem
  obtain ⟨m, hm, hkeep⟩ := List.mem_filterMap.1 hmem
  unfold keepDataLine at hkeep
  split_ifs at hkeep with hsome
  obtain rfl := Option.some.inj hkeep
  obtain ⟨x, hx⟩ := Option.isSome_iff_exists.1 hsome
  exact ⟨x, hx, dataLine_no_lf hx (Lines.not_mem_of_mem_splitOn hm)⟩

/-- The payload of an event has the lines that its `data:` lines say. -/
theorem splitOn_linesPayload {s : PyBytes} {ls : List PyStr} (hls : ls ∈ dataLines s) :
    List.Forall₂ (fun l x ↦ dataLine l = some x) ls ((linesPayload ls).splitOn 10) := by
  have hrel : List.Forall₂ (fun l x ↦ dataLine l = some x) ls (ls.filterMap dataLine) := by
    have hsome : ∀ l ∈ ls, ∃ x, dataLine l = some x ∧ 10 ∉ x := fun l hl ↦ data_of_mem_dataLines hls hl
    clear hls
    induction ls with
    | nil => exact .nil
    | cons l ls ih =>
      obtain ⟨x, hx, -⟩ := hsome l List.mem_cons_self
      rw [List.filterMap_cons, hx]
      exact .cons hx (ih fun m hm ↦ hsome m (List.mem_cons_of_mem l hm))
  have hne : ls.filterMap dataLine ≠ [] := by
    intro hnil
    rw [hnil] at hrel
    exact Lines.ne_nil_of_mem_readings keepDataLine hls (List.forall₂_nil_right_iff.1 hrel)
  have hlf : ∀ d ∈ ls.filterMap dataLine, 10 ∉ d := fun d hd ↦ by
    obtain ⟨l, hl, hdata⟩ := List.mem_filterMap.1 hd
    obtain ⟨x, hx, hlf⟩ := data_of_mem_dataLines hls hl
    obtain rfl : x = d := Option.some.inj (hx.symm.trans hdata)
    exact hlf
  rw [linesPayload, splitOn_joinLines hne hlf]
  exact hrel

end SSEParser

/-- A text with one event has the lines of that event. -/
theorem dataLines_of_framed {text : PyBytes} {n : PyStr} (h : Framed text [n]) :
    ∃ ls, SSEParser.dataLines text = [ls] ∧ SSEParser.linesPayload ls = n := by
  have hpayloads := h.payloads
  rw [SSEParser.payloads_eq_map] at hpayloads
  obtain ⟨ls, hls, hn⟩ := List.map_eq_singleton_iff.1 hpayloads
  exact ⟨ls, hls, hn⟩

theorem length_dataLines {out : PyBytes} {ns : List PyStr} (h : Framed out ns) :
    (SSEParser.dataLines out).length = ns.length := by
  rw [← h.payloads, SSEParser.payloads_eq_map, List.length_map]

namespace Service

variable (sv : Service)

/-- **What a chunk makes of the lines of an event that it completes.** The event is passed on in its place; if the
shift looks at the chunk, each of its `data:` lines is shifted, and otherwise they stay. -/
theorem exists_dataLines {e : Entry} (hlacks : lacksCacheRead (sv.pricing e) = true) {parser p : SSEParser}
    {data out' : PyBytes} (h : sv.chatChunk e parser data = some (out', p)) {evs₁ evs₂ : List SSEEvent}
    {ev : SSEEvent} (hevs : (parser.feed data).1 = evs₁ ++ ev :: evs₂) :
    ∃ out text n ls ls', transformStreamChunk sv.loads sv.repr parser data = some (out, p) ∧
      transformEvent sv.loads sv.repr ev = some text ∧ normalizedData sv.loads sv.repr ev.data = some n ∧
      SSEParser.dataLines text = [ls] ∧ SSEParser.linesPayload ls = n ∧
      (SSEParser.dataLines out')[evs₁.length]? = some ls' ∧
      (MentionsUsage out → List.Forall₂ (ShiftsLine sv.loads sv.repr sv.arith) ls ls') ∧
      (¬ MentionsUsage out → ls' = ls) := by
  obtain ⟨⟨out, p'⟩, htransform, h⟩ := Option.bind_eq_some_iff.1 h
  obtain ⟨outs, houts, heq⟩ := Option.map_eq_some_iff.1 htransform
  obtain rfl : outs.flatten = out := (Prod.mk.inj heq).1
  obtain rfl : (parser.feed data).2 = p' := (Prod.mk.inj heq).2
  have hblock : ∀ ev' ∈ evs₁ ++ ev :: evs₂, HasBlock ev' := fun ev' hev' ↦
    SSEParser.block_of_mem_feed (hevs.symm ▸ hev')
  rw [hevs] at houts
  obtain ⟨outs₁, text, outs₂, rfl, houts₁, htext, -⟩ := exists_middle_of_forall₂ (mapM_eq_some_iff.1 houts)
  -- the events before this one come first
  obtain ⟨ns, hns, hrelated⟩ := framed_flatten sv.loads sv.repr houts₁ fun ev' hev' ↦
    hblock ev' (List.mem_append_left _ hev')
  obtain ⟨raw, hcut, hcr, hev⟩ := hblock ev (by simp)
  obtain ⟨n, hn, hframed⟩ := framed_transformEvent sv.loads sv.repr hcut hcr hev htext
  obtain ⟨ls, hls, hpayload⟩ := dataLines_of_framed hframed
  have hlines : SSEParser.dataLines (outs₁ ++ text :: outs₂).flatten =
      SSEParser.dataLines outs₁.flatten ++ ls :: SSEParser.dataLines outs₂.flatten := by
    rw [List.flatten_append, List.flatten_cons, SSEParser.dataLines_append hns.closes,
      SSEParser.dataLines_append hframed.closes, hls]
    rfl
  have hbefore : (SSEParser.dataLines outs₁.flatten).length = evs₁.length := by
    rw [length_dataLines hns, ← hrelated.length_eq, List.length_map]
  have hne : (outs₁ ++ text :: outs₂).flatten ≠ [] := by
    intro hnil
    obtain rfl : text = [] := List.flatten_eq_nil_iff.1 hnil text (by simp)
    have hnone : SSEParser.dataLines [] = [] := rfl
    exact absurd (hnone.symm.trans hls) (by simp)
  dsimp only at h
  rw [if_pos ⟨hne, hlacks⟩] at h
  obtain ⟨out'', hshift, heq'⟩ := Option.map_eq_some_iff.1 h
  obtain ⟨rfl, rfl⟩ := Prod.mk.inj heq'
  by_cases hmention : MentionsUsage (outs₁ ++ text :: outs₂).flatten
  · obtain ⟨s, hs, hcontains⟩ := hmention
    have hrel := dataLines_shift hs hcontains hshift
    rw [hlines] at hrel
    obtain ⟨rs₁, ls', rs₂, hrs, hrel₁, hrelLs, -⟩ := exists_middle_of_forall₂ hrel
    refine ⟨_, text, n, ls, ls', htransform, htext, hn, hls, hpayload, ?_, fun _ ↦ hrelLs,
      fun hnot ↦ absurd ⟨s, hs, hcontains⟩ hnot⟩
    rw [hrs, ← hbefore, hrel₁.length_eq, List.getElem?_append_right le_rfl, Nat.sub_self]
    rfl
  · rw [shift_of_not_mentionsUsage hmention] at hshift
    obtain rfl := Option.some.inj hshift
    refine ⟨_, text, n, ls, ls, htransform, htext, hn, hls, hpayload, ?_, fun hyes ↦ absurd hyes hmention,
      fun _ ↦ rfl⟩
    rw [hlines, ← hbefore, List.getElem?_append_right le_rfl, Nat.sub_self]
    rfl

end Service

end LocalGateway
