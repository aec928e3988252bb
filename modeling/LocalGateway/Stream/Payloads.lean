import LocalGateway.Foundations.Paragraphs
import LocalGateway.Stream.Chunking

/-!
# The payloads of a stream

A client sees of a stream the payloads of its events, whatever else the blocks hold. `payloads` reads
them off a text; unlike the events, which keep the wire text, they do not depend on how many blank
lines precede a block, so texts that end in a blank line are read one after the other
(`payloads_append`).

* `payloads_chunks_iff`: when the chunks of a stream are read as the stream they come to.
* `resent_cases`: what the text after the last blank line is read as when it is sent twice, and
  `payloads_resent_iff`, when that is what it is read as once.
-/

namespace LocalGateway

open Py

namespace SSEParser

/-- What a line of bytes says. -/
def lineData (l : PyBytes) : Option PyStr :=
  dataLine (utf8Decode l)

/-- The payloads of the events of a text. -/
def payloads (s : PyBytes) : List PyStr :=
  (Lines.readings lineData (s.splitOn 10)).map joinLines

/-! ### Payloads and events -/

/-- The payloads of blocks. -/
theorem map_data_blocks (lead : Bool) (ls : List PyBytes) :
    ((Lines.blocks lead [] ls).filterMap lineEvent).map SSEEvent.data =
      (Lines.readings lineData ls).map joinLines := by
  rw [Lines.readings, Lines.paragraphs, ← Lines.map_snd_blocks lead]
  induction Lines.blocks lead [] ls with
  | nil => rfl
  | cons b bs ih =>
    have hlines : b.2.filterMap lineData = payloadLines b.2 := rfl
    rw [List.filterMap_cons, lineEvent, List.map_cons, List.map_cons, hlines]
    by_cases hnil : payloadLines b.2 = []
    · rw [if_pos hnil, List.filter_cons_of_neg (by simp [hnil])]
      exact ih
    · rw [if_neg hnil, List.filter_cons_of_pos (by simpa using hnil), List.map_cons]
      exact congrArg (joinLines (payloadLines b.2) :: ·) ih

theorem map_data_textEvents (s : PyBytes) : (textEvents s).map SSEEvent.data = payloads s :=
  map_data_blocks false (s.splitOn 10)

/-- An event is the sentinel if its payload is. -/
theorem done_of_mem_textEvents {s : PyBytes} {ev : SSEEvent} (h : ev ∈ textEvents s) :
    ev.done = isDone ev.data := by
  obtain ⟨b, -, hb⟩ := List.mem_filterMap.1 h
  unfold lineEvent at hb
  split_ifs at hb
  rw [← Option.some.inj hb]

theorem normalizeEol_of_no_cr {s : PyBytes} (h : 13 ∉ s) : normalizeEol s = s := by
  induction s with
  | nil => rfl
  | cons b s ih =>
    have hb : b ≠ 13 := fun hb ↦ h (hb ▸ List.mem_cons_self)
    rw [normalizeEol_cons fun h ↦ absurd h hb, if_neg hb, ih fun hs ↦ h (List.mem_cons_of_mem b hs)]

theorem parse_singleton {s : PyBytes} (h : 13 ∉ s) : parse [s] = textEvents s := by
  rw [parse_eq, seenText]
  simp [normalizeEol_of_no_cr h]

/-! ### Texts one after the other -/

/-- **Texts are read one after the other**, if a blank line ends the first. -/
theorem payloads_append (s t : PyBytes) :
    payloads (s ++ [10, 10] ++ t) = payloads s ++ payloads t := by
  have hsplit : (s ++ [10, 10] ++ t).splitOn 10 = s.splitOn 10 ++ [] :: t.splitOn 10 := by
    rw [List.append_assoc]
    show (s ++ 10 :: 10 :: t).splitOn 10 = _
    rw [List.splitOn_append_cons_self, Lines.splitOn_cons_self]
  rw [payloads, hsplit, Lines.readings_append_blank, List.map_append]
  rfl

@[simp] theorem payloads_nil : payloads [] = [] := rfl

theorem payloads_blank (s : PyBytes) : payloads (s ++ [10, 10]) = payloads s := by
  simpa using payloads_append s []

theorem payloads_concat_lf (s : PyBytes) : payloads (s ++ [10]) = payloads s := by
  have hnil : ([] : PyBytes).splitOn 10 = [[]] := List.splitOn_nil 10
  rw [payloads, List.splitOn_append_cons_self, hnil, Lines.readings_concat_blank]
  rfl

/-- The payloads are those of the decoded text. -/
theorem payloads_decoded (s : PyBytes) :
    payloads s = (Lines.readings dataLine ((utf8Decode s).splitOn 10)).map joinLines := by
  rw [payloads, splitOn_utf8Decode, Lines.readings_map dataLine fun _ ↦ utf8Decode_eq_nil_iff]
  rfl

/-! ### Lines that carry payload -/

theorem dataLine_no_lf {l d : PyStr} (h : dataLine l = some d) (hl : 10 ∉ l) : 10 ∉ d := by
  unfold dataLine at h
  split_ifs at h
  obtain rfl := Option.some.inj h
  have hdrop : 10 ∉ l.drop 5 := fun hmem ↦ hl (List.mem_of_mem_drop hmem)
  unfold removePrefix
  split_ifs
  · exact fun hmem ↦ hdrop (List.mem_of_mem_drop hmem)
  · exact hdrop

/-- The payload lines of a text are lines. -/
theorem no_lf_of_mem_readings {s : PyBytes} {r : List PyStr} {d : PyStr}
    (hr : r ∈ Lines.readings lineData (s.splitOn 10)) (hd : d ∈ r) : 10 ∉ d := by
  have hmem : d ∈ (Lines.readings lineData (s.splitOn 10)).flatten :=
    List.mem_flatten.2 ⟨r, hr, hd⟩
  rw [Lines.flatten_readings lineData rfl] at hmem
  obtain ⟨l, hl, hdata⟩ := List.mem_filterMap.1 hmem
  exact dataLine_no_lf hdata (utf8Decode_no_lf (Lines.not_mem_of_mem_splitOn hl))

theorem splitOn_joinLines {r : List PyStr} (hne : r ≠ []) (h : ∀ d ∈ r, 10 ∉ d) :
    (joinLines r).splitOn 10 = r :=
  List.splitOn_intercalate 10 h hne

/-- Payloads are determined by their lines, and determine them. -/
theorem payloads_eq_iff {s t : PyBytes} : payloads s = payloads t ↔
    Lines.readings lineData (s.splitOn 10) = Lines.readings lineData (t.splitOn 10) := by
  have hlines : ∀ s, (payloads s).map (List.splitOn 10) =
      Lines.readings lineData (s.splitOn 10) := fun s ↦ by
    rw [payloads, List.map_map]
    refine (List.map_congr_left fun r hr ↦ ?_).trans (List.map_id _)
    exact splitOn_joinLines (Lines.ne_nil_of_mem_readings lineData hr) fun d hd ↦
      no_lf_of_mem_readings hr hd
  constructor
  · intro h
    rw [← hlines s, ← hlines t, h]
  · intro h
    rw [payloads, payloads, h]

/-- **When chunks are read as the stream they come to.** The payloads are the same if and only if the
pairs that chunk boundaries cut leave the `data:` lines of each block in one piece. -/
theorem payloads_chunks_iff (chunks : List PyBytes) :
    payloads (seenText chunks) = payloads (normalizeEol chunks.flatten) ↔
      ∀ sp ∈ spans chunks, sp.Together lineData := by
  rw [payloads_eq_iff, ← doubled_cutLines, ← map_fst_cutLines]
  exact Lines.readings_doubled_iff lineData rfl false false (cutLines chunks)

/-- Otherwise the chunks are read as more. -/
theorem together_of_length_le {chunks : List PyBytes}
    (h : (payloads (seenText chunks)).length ≤ (payloads (normalizeEol chunks.flatten)).length) :
    ∀ sp ∈ spans chunks, sp.Together lineData := by
  rw [payloads, payloads, List.length_map, List.length_map, ← doubled_cutLines, ← map_fst_cutLines] at h
  exact Lines.together_of_length_le lineData rfl false false (cutLines chunks) h

/-- **One payload more**: the last payload of the chunks is that of the stream, or the end of it, and the one
before is the rest of it. -/
theorem payloads_last_cases {chunks : List PyBytes} (hlength : (payloads (seenText chunks)).length =
      (payloads (normalizeEol chunks.flatten)).length + 1)
    {front : List PyStr} {d : PyStr} (hlast : payloads (seenText chunks) = front ++ [d]) :
    (∃ rest, payloads (normalizeEol chunks.flatten) = rest ++ [d]) ∨
      ∃ rest c, front = rest ++ [c] ∧ payloads (normalizeEol chunks.flatten) = rest ++ [c ++ 10 :: d] := by
  rw [payloads, payloads, List.length_map, List.length_map, ← doubled_cutLines, ← map_fst_cutLines] at hlength
  obtain ⟨fronts, lasts, hread, rfl, hlasts⟩ := List.map_eq_append_iff.1 hlast
  obtain ⟨r, rfl, rfl⟩ : ∃ r, lasts = [r] ∧ joinLines r = d := by
    obtain ⟨r, rest, rfl, hr, hrest⟩ := List.map_eq_cons_iff.1 hlasts
    exact ⟨r, by rw [List.map_eq_nil_iff.1 hrest], hr⟩
  have hr : r ≠ [] := Lines.ne_nil_of_mem_readings lineData (by rw [hread]; simp)
  rw [← doubled_cutLines] at hread
  rw [payloads, ← map_fst_cutLines]
  rcases Lines.readings_doubled_last_cases rfl hlength hread with ⟨rest, hrest⟩ | ⟨rest, s, hs, rfl, hrest⟩
  · exact .inl ⟨rest.map joinLines, by rw [hrest, List.map_append]; rfl⟩
  · refine .inr ⟨rest.map joinLines, joinLines s, List.map_append, ?_⟩
    rw [hrest, List.map_append, ← joinLines_append hs hr]
    rfl

/-! ### A text and itself -/

/-- A line carries payload exactly if it begins with the five bytes. -/
theorem isSome_lineData_iff (l : PyBytes) : (lineData l).isSome ↔ pyb "data:" <+: l := by
  have hprefix := prefix_utf8Decode_iff (p := pyb "data:") (by decide +kernel) l
  have hname : (pyb "data:").map UInt8.toNat = py "data:" := rfl
  rw [← hprefix, hname, lineData, dataLine]
  constructor
  · intro h
    split_ifs at h with hskip hdata
    · cases h
    · exact List.isPrefixOf_iff_prefix.1 hdata
    · cases h
  · intro h
    have hdata : startsWith (utf8Decode l) (py "data:") = true := List.isPrefixOf_iff_prefix.2 h
    have hne : utf8Decode l ≠ [] := fun hnil ↦ by
      rw [hnil] at h
      exact absurd h (by decide)
    have hcolon : startsWith (utf8Decode l) (py ":") = false :=
      startsWith_eq_false hdata rfl rfl
    simp [hne, hcolon, hdata]

/-- A line that carries no payload does not begin to when one that does follows it. -/
theorem lineData_append_eq_none {l m : PyBytes} (hl : l ≠ []) (hm : (lineData m).isSome) :
    lineData (l ++ m) = none ↔ lineData l = none := by
  rw [← Option.not_isSome_iff_eq_none, ← Option.not_isSome_iff_eq_none, isSome_lineData_iff,
    isSome_lineData_iff]
  rw [isSome_lineData_iff] at hm
  refine not_congr ⟨fun h ↦ ?_, fun h ↦ h.trans (List.prefix_append l m)⟩
  -- no part of the five bytes both ends and begins them
  obtain ⟨t, rfl⟩ := hm
  have hname : pyb "data:" = [100, 97, 116, 97, 58] := rfl
  rw [hname] at h ⊢
  match l with
  | [] => exact absurd rfl hl
  | [a] => simp at h
  | [a, b] => simp at h
  | [a, b, c] => simp at h
  | [a, b, c, d] => simp at h
  | a :: b :: c :: d :: e :: l => simpa using h

theorem removePrefix_space (c : ℕ) (u : PyStr) :
    removePrefix (c :: u) (py " ") = if c = 32 then u else c :: u := by
  by_cases hc : c = 32
  · subst hc
    rfl
  · rw [if_neg hc]
    simp [removePrefix, startsWith, py, Ne.symm hc]

/-- The payload of a line goes on as the line does. -/
theorem removePrefix_space_append (u v : PyStr) :
    ∃ w, removePrefix (u ++ v) (py " ") = removePrefix u (py " ") ++ w ∧
      (startsWith v (py " ") = false → w = v) := by
  rcases u with - | ⟨c, u⟩
  · refine ⟨removePrefix v (py " "), rfl, fun hv ↦ ?_⟩
    rw [removePrefix, hv, if_neg Bool.false_ne_true]
  · refine ⟨v, ?_, fun _ ↦ rfl⟩
    rw [List.cons_append, removePrefix_space, removePrefix_space]
    split_ifs
    · rfl
    · rfl

theorem utf8Decode_data (m : PyBytes) : utf8Decode (pyb "data:" ++ m) = py "data:" ++ utf8Decode m := by
  show utf8Decode (100 :: 97 :: 116 :: 97 :: 58 :: m) = _
  simp only [utf8Decode_cons_ascii (show (100 : UInt8) < 0x80 by decide),
    utf8Decode_cons_ascii (show (97 : UInt8) < 0x80 by decide),
    utf8Decode_cons_ascii (show (116 : UInt8) < 0x80 by decide),
    utf8Decode_cons_ascii (show (58 : UInt8) < 0x80 by decide)]
  rfl

/-- The payload of a line that begins with the five bytes. -/
theorem lineData_data (m : PyBytes) :
    lineData (pyb "data:" ++ m) = some (removePrefix (utf8Decode m) (py " ")) := by
  rw [lineData, utf8Decode_data]
  rfl

/-- A `data:` line that follows itself on one line says more than it does alone. -/
theorem lineData_append_self {l : PyBytes} (h : (lineData l).isSome) :
    ∃ d v, lineData l = some d ∧ lineData (l ++ l) = some (d ++ (py "data:" ++ v)) := by
  obtain ⟨m, rfl⟩ := (isSome_lineData_iff l).1 h
  have hself : utf8Decode (m ++ (pyb "data:" ++ m)) = utf8Decode m ++ (py "data:" ++ utf8Decode m) := by
    rw [← utf8Decode_data]
    exact utf8Decode_append_cons (by decide) m _
  obtain ⟨w, hw, heq⟩ := removePrefix_space_append (utf8Decode m) (py "data:" ++ utf8Decode m)
  obtain rfl := heq rfl
  refine ⟨_, utf8Decode m, lineData_data m, ?_⟩
  rw [List.append_assoc, lineData_data, hself, hw]

/-- The lines of a text that may be sent twice: no line is a `data:` line but perhaps the first, and
then the last one is another line and has not ended, so that it swallows the first line of the
repetition. -/
def RepeatableLines : List PyBytes → Prop
  | [] => True
  | first :: rest =>
    (∀ l ∈ rest, ¬ IsDataLine l) ∧ (IsDataLine first → ∃ l ∈ rest.getLast?, l ≠ [])

instance : DecidablePred RepeatableLines := fun ls ↦
  match ls with
  | [] => inferInstanceAs (Decidable True)
  | first :: rest => inferInstanceAs (Decidable
      ((∀ l ∈ rest, ¬ IsDataLine l) ∧ (IsDataLine first → ∃ l ∈ rest.getLast?, l ≠ [])))

/-- A text after the last blank line that may be sent twice. -/
def Repeatable (s : PyBytes) : Prop :=
  RepeatableLines (s.splitOn 10)

instance : DecidablePred Repeatable := fun s ↦
  inferInstanceAs (Decidable (RepeatableLines (s.splitOn 10)))

theorem filterMap_lineData_eq_nil_iff {ls : List PyBytes} :
    ls.filterMap lineData = [] ↔ ∀ l ∈ ls, ¬ IsDataLine l := by
  simp [lineData, IsDataLine]

/-- Lines that end, repeated. -/
theorem not_repeatable_concat (lead : Bool) {ls : List PyBytes} (h : ls.filterMap lineData ≠ []) :
    ¬ RepeatableLines ((if lead then [[]] else []) ++ ls ++ [[]]) := by
  rw [Ne, filterMap_lineData_eq_nil_iff] at h
  intro hrep
  apply h
  cases lead with
  | true => exact fun l hl ↦ hrep.1 l (List.mem_append_left _ hl)
  | false =>
    rcases ls with - | ⟨first, rest⟩
    · exact fun l hl ↦ absurd hl List.not_mem_nil
    · refine List.forall_mem_cons.2 ⟨fun hfirst ↦ ?_, fun l hl ↦ hrep.1 l (List.mem_append_left _ hl)⟩
      -- the last line is empty
      obtain ⟨l, hl, hne⟩ := hrep.2 hfirst
      have hlast : (rest ++ [[]]).getLast? = some ([] : PyBytes) := List.getLast?_concat
      exact hne (Option.some.inj (hlast.symm.trans hl)).symm

/-- Lines of which the last has not ended, repeated. -/
theorem repeatable_cons_iff {first : PyBytes} {mid : List PyBytes} {last : PyBytes}
    (hlast : last ≠ []) (h : (first :: mid ++ [last]).filterMap lineData ≠ []) :
    (first :: mid ++ (last ++ first) :: (mid ++ [last])).filterMap lineData =
        (first :: mid ++ [last]).filterMap lineData ↔
      RepeatableLines (first :: (mid ++ [last])) := by
  have hsplit : ∀ ls : List PyBytes, (first :: mid ++ ls).filterMap lineData =
      [first].filterMap lineData ++ mid.filterMap lineData ++ ls.filterMap lineData := fun ls ↦ by
    rw [← List.filterMap_append, ← List.filterMap_append]
    rfl
  have hglued : ((last ++ first) :: (mid ++ [last])).filterMap lineData =
      [last ++ first].filterMap lineData ++ (mid.filterMap lineData ++ [last].filterMap lineData) := by
    rw [← List.filterMap_append, ← List.filterMap_append]
    rfl
  have hone : ∀ l : PyBytes, [l].filterMap lineData = [] ↔ lineData l = none := by simp
  have hrep : RepeatableLines (first :: (mid ++ [last])) ↔
      mid.filterMap lineData = [] ∧ lineData last = none := by
    rw [RepeatableLines, List.getLast?_concat, ← filterMap_lineData_eq_nil_iff,
      List.filterMap_append, List.append_eq_nil_iff, hone]
    exact and_iff_left fun _ ↦ ⟨last, rfl, hlast⟩
  rw [hsplit, List.append_assoc] at h
  rw [hsplit, hsplit, hglued, List.append_cancel_left_eq, hrep]
  constructor
  · intro heq
    have hlength := congrArg List.length heq
    simp only [List.length_append] at hlength
    have hmid : mid.filterMap lineData = [] := List.eq_nil_of_length_eq_zero (by omega)
    have hboth : [last ++ first].filterMap lineData = [] := List.eq_nil_of_length_eq_zero (by omega)
    refine ⟨hmid, Option.not_isSome_iff_eq_none.1 fun hsome ↦ ?_⟩
    have hprefix := ((isSome_lineData_iff last).1 hsome).trans (List.prefix_append last first)
    rw [hone, ← Option.not_isSome_iff_eq_none, isSome_lineData_iff] at hboth
    exact hboth hprefix
  · rintro ⟨hmid, hnone⟩
    rw [hmid, (hone last).2 hnone] at h
    have hfirst : (lineData first).isSome := by
      by_contra hnone'
      exact h (by rw [(hone first).2 (Option.not_isSome_iff_eq_none.1 hnone')]; rfl)
    rw [hmid, (hone last).2 hnone, (hone _).2 ((lineData_append_eq_none hlast hfirst).2 hnone)]
    rfl

/-- A text after the last blank line, sent twice: the second time a blank line stands for the line ends at its
end. -/
def resent (s : PyBytes) : PyBytes :=
  s ++ (s.rdropWhile (· = 10) ++ [10, 10])

/-- **What a text after the last blank line is read as, sent twice.** What follows it is read apart, or as
more lines of the same event; where its last line has not ended, the first one is glued to it. -/
theorem resent_cases {s : PyBytes} (hs : Lines.splitBlank 10 s = none) (hne : payloads s ≠ []) :
    ∃ ds : List PyStr, ds ≠ [] ∧ Lines.readings lineData (s.splitOn 10) = [ds] ∧
      (¬ Repeatable s ∧ Lines.readings lineData ((resent s).splitOn 10) = [ds, ds] ∨
        ¬ Repeatable s ∧ Lines.readings lineData ((resent s).splitOn 10) = [ds ++ ds] ∨
        (∃ l, ds = [l].filterMap lineData ∧ ¬ Repeatable s ∧
          Lines.readings lineData ((resent s).splitOn 10) = [[l ++ l].filterMap lineData]) ∨
        ∃ first mid last, last ≠ [] ∧ ds = (first :: mid ++ [last]).filterMap lineData ∧
          Lines.readings lineData ((resent s).splitOn 10) =
            [(first :: mid ++ (last ++ first) :: (mid ++ [last])).filterMap lineData] ∧
          (Repeatable s ↔ RepeatableLines (first :: (mid ++ [last])))) := by
  obtain ⟨hend, hcut⟩ := Lines.rdropWhile_cases 10 hs
  unfold resent
  generalize s.rdropWhile (· = 10) = t at hend hcut ⊢
  have hpay : payloads s = payloads t := by
    rcases hend with rfl | rfl
    · exact payloads_concat_lf t
    · rfl
  have ht : t ≠ [] := by
    rintro rfl
    exact hne hpay
  obtain ⟨hlines, hall, hsplit⟩ := Lines.textBlock_cases 10 hcut ht
  generalize (Lines.textBlock 10 t).1 = lead at hsplit
  generalize (Lines.textBlock 10 t).2 = lines at hlines hall hsplit
  -- the payload of the text, whatever opens it
  have hread : Lines.readings lineData (t.splitOn 10) = Lines.readings lineData lines := by
    rw [hsplit]
    cases lead
    · rfl
    · exact Lines.readings_cons_blank lineData lines
  have hdata : lines.filterMap lineData ≠ [] := fun hnil ↦ by
    rw [hpay, payloads, hread, Lines.readings_of_ne lineData hall, if_pos hnil] at hne
    exact hne rfl
  have hone : Lines.readings lineData lines = [lines.filterMap lineData] := by
    rw [Lines.readings_of_ne lineData hall, if_neg hdata]
  have htwice : Lines.readings lineData (lines ++ lines) =
      [lines.filterMap lineData ++ lines.filterMap lineData] := by
    rw [Lines.readings_of_ne lineData fun l hl ↦ (List.mem_append.1 hl).elim (hall l) (hall l),
      List.filterMap_append, if_neg (by simpa using hdata)]
  have hresent : Lines.readings lineData ((s ++ (t ++ [10, 10])).splitOn 10) =
      Lines.readings lineData ((s ++ t).splitOn 10) :=
    payloads_eq_iff.1 (by rw [← List.append_assoc, payloads_blank])
  refine ⟨lines.filterMap lineData, hdata, (payloads_eq_iff.1 hpay).trans (hread.trans hone), ?_⟩
  rw [hresent, Repeatable]
  rcases hend with rfl | rfl
  · -- the last line has ended: both halves are read
    have hnil : ([] : PyBytes).splitOn 10 = [[]] := List.splitOn_nil 10
    have hboth : (t ++ [10] ++ t).splitOn 10 = t.splitOn 10 ++ t.splitOn 10 := by
      rw [List.append_assoc]
      exact List.splitOn_append_cons_self t t
    have hended : (t ++ [10]).splitOn 10 = t.splitOn 10 ++ [[]] := by
      rw [List.splitOn_append_cons_self, hnil]
    rw [hboth, hended, hsplit]
    cases lead with
    | false => exact .inr (.inl ⟨not_repeatable_concat false hdata, htwice⟩)
    | true =>
      refine .inl ⟨not_repeatable_concat true hdata, ?_⟩
      show Lines.readings lineData ([] :: lines ++ [] :: lines) = _
      rw [Lines.readings_append_blank, Lines.readings_cons_blank, hone]
      rfl
  · cases lead with
    | true =>
      -- the empty first line adds nothing to the last one
      have hsplit : s.splitOn 10 = [] :: lines := hsplit
      obtain ⟨init, last, rfl⟩ := (List.eq_nil_or_concat' lines).resolve_left hlines
      have hboth : (s ++ s).splitOn 10 = ([] :: init) ++ (last ++ []) :: (init ++ [last]) :=
        Lines.splitOn_append hsplit hsplit
      have hglue : [] :: init ++ (last ++ []) :: (init ++ [last]) =
          [] :: ((init ++ [last]) ++ (init ++ [last])) := by simp
      rw [hboth, hglue, Lines.readings_cons_blank, htwice, hsplit]
      exact .inr (.inl ⟨fun hrep ↦ hdata (filterMap_lineData_eq_nil_iff.2 hrep.1), rfl⟩)
    | false =>
      have hsplit : s.splitOn 10 = lines := hsplit
      rw [hsplit]
      rcases lines with - | ⟨first, rest⟩
      · exact absurd rfl hlines
      · rcases List.eq_nil_or_concat' rest with rfl | ⟨mid, last, rfl⟩
        · -- one line, which becomes another one
          have hboth : (s ++ s).splitOn 10 = [] ++ (first ++ first) :: [] :=
            Lines.splitOn_append hsplit hsplit
          have hfirst : (lineData first).isSome := by
            by_contra hnone
            exact hdata (by simpa using hnone)
          have hne : ∀ l ∈ [first ++ first], l ≠ [] := by
            simpa using hall first List.mem_cons_self
          obtain ⟨d, v, -, hself⟩ := lineData_append_self hfirst
          refine .inr (.inr (.inl ⟨first, rfl, fun hrep ↦ ?_, ?_⟩))
          · obtain ⟨l, hl, -⟩ := hrep.2 (Option.isSome_iff_ne_none.1 hfirst)
            simp at hl
          · rw [hboth, List.nil_append, Lines.readings_of_ne lineData hne, if_neg (by simp [hself])]
        · have hlast : last ≠ [] := hall last (by simp)
          have hboth : (s ++ s).splitOn 10 =
              (first :: mid) ++ (last ++ first) :: (mid ++ [last]) :=
            Lines.splitOn_append hsplit hsplit
          have hne : ∀ l ∈ first :: mid ++ (last ++ first) :: (mid ++ [last]), l ≠ [] := fun l hl ↦ by
            simp only [List.cons_append, List.mem_cons, List.mem_append] at hl hall
            rcases hl with rfl | hl | rfl | hl | rfl | hl
            · exact hall _ (.inl rfl)
            · exact hall _ (.inr (.inl hl))
            · simp [hlast]
            · exact hall _ (.inr (.inl hl))
            · exact hlast
            · exact absurd hl List.not_mem_nil
          have hmore : (first :: mid ++ (last ++ first) :: (mid ++ [last])).filterMap lineData ≠ [] := by
            rw [Ne, filterMap_lineData_eq_nil_iff] at hdata ⊢
            refine fun hnone ↦ hdata fun l hl ↦ hnone l ?_
            simp only [List.cons_append, List.mem_cons, List.mem_append] at hl ⊢
            tauto
          refine .inr (.inr (.inr ⟨first, mid, last, hlast, rfl, ?_, Iff.rfl⟩))
          rw [hboth, Lines.readings_of_ne lineData hne, if_neg hmore]

/-- **When the text after the last blank line, sent twice, is read once.** -/
theorem payloads_resent_iff {s : PyBytes} (hs : Lines.splitBlank 10 s = none) (hne : payloads s ≠ []) :
    payloads (resent s) = payloads s ↔ Repeatable s := by
  obtain ⟨ds, hds, hread, hcases⟩ := resent_cases hs hne
  rw [payloads_eq_iff, hread]
  rcases hcases with ⟨hnot, htwice⟩ | ⟨hnot, htwice⟩ | ⟨l, rfl, hnot, htwice⟩ |
    ⟨first, mid, last, hlast, rfl, htwice, hiff⟩ <;> rw [htwice]
  · exact iff_of_false (by simp) hnot
  · exact iff_of_false (by simpa using hds) hnot
  · refine iff_of_false (fun heq ↦ ?_) hnot
    have hsome : (lineData l).isSome := by
      by_contra hnone
      exact hds (by simpa using hnone)
    obtain ⟨d, v, hd, hself⟩ := lineData_append_self hsome
    simp [hd, hself, py] at heq
  · rw [hiff, ← repeatable_cons_iff hlast hds]
    exact List.singleton_injective.eq_iff

/-- The last line of some. -/
theorem joinLines_concat (ls : List PyStr) (x : PyStr) :
    ∃ t, ∀ y, joinLines (ls ++ [x ++ y]) = t ++ (x ++ y) := by
  rcases eq_or_ne ls [] with rfl | hls
  · exact ⟨[], fun y ↦ by simp [joinLines]⟩
  · refine ⟨joinLines ls ++ [10], fun y ↦ ?_⟩
    rw [joinLines_append hls (List.cons_ne_nil _ _)]
    simp [joinLines]

/-- The payload of lines of which the last is glued to the first, and of those lines: it goes on, unless the
last line ends within a character. -/
theorem joinLines_glued_cases {first last : PyBytes} {mid : List PyBytes}
    (hds : (first :: mid ++ [last]).filterMap lineData ≠ []) :
    let ds := (first :: mid ++ [last]).filterMap lineData
    let es := (first :: mid ++ (last ++ first) :: (mid ++ [last])).filterMap lineData
    es = ds ∨ (∃ t, joinLines es = joinLines ds ++ t ∧ 10 ∈ t) ∨
      (joinLines ds).getLast? = some 0xFFFD ∧ ds.length < es.length := by
  intro ds es
  generalize hF : (first :: mid).filterMap lineData = F
  generalize hM : mid.filterMap lineData = M
  have hdsEq : ds = F ++ [last].filterMap lineData := by
    show (first :: mid ++ [last]).filterMap lineData = _
    rw [List.filterMap_append, hF]
  have hesEq : es = F ++ ([last ++ first].filterMap lineData ++ (M ++ [last].filterMap lineData)) := by
    show (first :: mid ++ ([last ++ first] ++ (mid ++ [last]))).filterMap lineData = _
    rw [List.filterMap_append, List.filterMap_append, List.filterMap_append, hF, hM]
  rcases hx : lineData last with - | x
  · -- the last line says nothing
    have hnone : [last].filterMap lineData = [] := by simp [hx]
    rw [hnone, List.append_nil] at hdsEq
    rw [hnone, List.append_nil] at hesEq
    rw [hdsEq, hesEq]
    rcases eq_or_ne ([last ++ first].filterMap lineData ++ M) [] with hnil | hmore
    · exact .inl (by rw [hnil, List.append_nil])
    · refine .inr (.inl ⟨_, joinLines_append (hdsEq ▸ hds) hmore, List.mem_cons_self⟩)
  · have hone : [last].filterMap lineData = [x] := by simp [hx]
    obtain ⟨m, rfl⟩ := (isSome_lineData_iff last).1 (by rw [hx]; rfl)
    obtain rfl : removePrefix (utf8Decode m) (py " ") = x := Option.some.inj ((lineData_data m).symm.trans hx)
    have hglued : [pyb "data:" ++ m ++ first].filterMap lineData =
        [removePrefix (utf8Decode (m ++ first)) (py " ")] := by
      rw [List.append_assoc, List.filterMap_cons, lineData_data]
      rfl
    rw [hone] at hdsEq
    rw [hone, hglued] at hesEq
    rw [hdsEq, hesEq]
    obtain ⟨t, ht⟩ := joinLines_concat F (removePrefix (utf8Decode m) (py " "))
    have hlast : joinLines (F ++ [removePrefix (utf8Decode m) (py " ")]) =
        t ++ removePrefix (utf8Decode m) (py " ") := by
      have hnil := ht []
      rwa [List.append_nil] at hnil
    -- the two lines are decoded as one, which joins their texts unless a character is cut
    rcases utf8Decode_append_cases m first with happ | hbroken
    · -- the payload of the last line goes on
      obtain ⟨w, hw, -⟩ := removePrefix_space_append (utf8Decode m) (utf8Decode first)
      refine .inr (.inl ⟨w ++ 10 :: joinLines (M ++ [removePrefix (utf8Decode m) (py " ")]), ?_, by simp⟩)
      rw [happ, hw, ← List.append_assoc, joinLines_append (by simp) (by simp), ht, hlast]
      simp
    · -- the line ends within a character, which is read as U+FFFD
      refine .inr (.inr ⟨?_, by simp⟩)
      have hend : (removePrefix (utf8Decode m) (py " ")).getLast? = some 0xFFFD := by
        rcases hm : utf8Decode m with - | ⟨c, u⟩
        · rw [hm] at hbroken
          cases hbroken
        · rw [hm] at hbroken
          rw [removePrefix_space]
          split_ifs with hc
          · rcases u with - | ⟨c', u⟩
            · subst hc
              exact absurd hbroken (by decide)
            · rwa [List.getLast?_cons_cons] at hbroken
          · exact hbroken
      rw [hlast, List.getLast?_append, hend]
      rfl

/-- **The payload of a text that is sent twice**, if it is one: it goes on, on the same line with the name of
the field or on a new one, unless the text ends within a character. -/
theorem payload_resent_cases {s : PyBytes} (hs : Lines.splitBlank 10 s = none) {p q : PyStr}
    (hp : payloads s = [p]) (hq : payloads (resent s) = [q]) :
    q = p ∨ (∃ t, q = p ++ t ∧ (10 ∈ t ∨ 58 ∈ t)) ∨
      p.getLast? = some 0xFFFD ∧ (p.splitOn 10).length < (q.splitOn 10).length := by
  obtain ⟨ds, hds, hread, hcases⟩ := resent_cases hs (by rw [hp]; exact List.cons_ne_nil _ _)
  have hpay : joinLines ds = p := by
    rw [payloads, hread] at hp
    exact List.singleton_injective hp
  have hlines : ∀ {es : List PyStr}, Lines.readings lineData ((resent s).splitOn 10) = [es] →
      joinLines es = q ∧ (q.splitOn 10).length = es.length := fun {es} hes ↦ by
    have heq : joinLines es = q := by
      rw [payloads, hes] at hq
      exact List.singleton_injective hq
    have hmem : es ∈ Lines.readings lineData ((resent s).splitOn 10) := by
      rw [hes]
      exact List.mem_singleton_self es
    refine ⟨heq, ?_⟩
    rw [← heq, splitOn_joinLines (Lines.ne_nil_of_mem_readings lineData hmem) fun d hd ↦
      no_lf_of_mem_readings hmem hd]
  rcases hcases with ⟨-, htwice⟩ | ⟨-, htwice⟩ | ⟨l, rfl, -, htwice⟩ |
    ⟨first, mid, last, hlast, rfl, htwice, -⟩
  · rw [payloads, htwice] at hq
    simp at hq
  · obtain ⟨rfl, -⟩ := hlines htwice
    exact .inr (.inl ⟨10 :: p, by rw [joinLines_append hds hds, hpay], .inl List.mem_cons_self⟩)
  · -- one line without an end: the copy goes on with it
    obtain ⟨rfl, -⟩ := hlines htwice
    have hsome : (lineData l).isSome := by
      by_contra hnone
      exact hds (by simpa using hnone)
    obtain ⟨d, v, hd, hself⟩ := lineData_append_self hsome
    refine .inr (.inl ⟨py "data:" ++ v, ?_, .inr (by simp [py])⟩)
    rw [← hpay]
    simp [hd, hself, joinLines]
  · -- several lines, the last without an end: the copy goes on with it
    obtain ⟨hjoin, hlength⟩ := hlines htwice
    have hmem : (first :: mid ++ [last]).filterMap lineData ∈ Lines.readings lineData (s.splitOn 10) := by
      rw [hread]
      exact List.mem_singleton_self _
    rw [← hpay, ← hjoin] at *
    rcases joinLines_glued_cases hds with hsame | ⟨t, ht, hlf⟩ | ⟨hbroken, hless⟩
    · exact .inl (congrArg joinLines hsame)
    · exact .inr (.inl ⟨t, ht, .inl hlf⟩)
    · refine .inr (.inr ⟨hbroken, ?_⟩)
      rw [hlength, splitOn_joinLines hds fun d hd ↦ no_lf_of_mem_readings hmem hd]
      exact hless

end SSEParser

end LocalGateway
