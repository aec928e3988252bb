import LocalGateway.Cache.Replay
import LocalGateway.Stream.Shifted

/-!
# Streams that are delivered

What `call_provider_stream` has not passed on when the response ends, it renders and passes on as one more
chunk, though the chunks that it has passed on hold those bytes already. `handle_request_stream` parses the
chunks anew, so it sees what was left in the buffer twice.

* `ReadsJson`: what is known of `json.loads`.
* `SSEParser.data_passedOn`: what is parsed anew; `ReadsJson.passedOn_iff`: when it is the events of the stream.
* `Service.deliversOnce_iff`: when a client reads every event of the upstream once and in order, and then
  `[DONE]`, once.
-/

namespace LocalGateway

open Py Json

/-! ### What is known of `json.loads` -/

/-- A text that is read as an object ends with a brace; nothing but whitespace may follow it; and what is
written of the object is read as an object again. -/
structure ReadsJson (loads : Decoder) (r : FloatRepr) (fl : Arith) : Prop where
  closes : ∀ {s : PyStr} {d : PyDict}, loads.text s = some (.obj d) →
    (s.rdropWhile isSpace).getLast? = some 125
  delimits : ∀ {s t : PyStr} {d d' : PyDict}, loads.text s = some (.obj d) →
    loads.text (s ++ t) = some (.obj d') → d' = d ∧ ∀ c ∈ t, c ∈ [9, 10, 13, 32]
  rereads : ∀ {s : PyStr} {d d' : PyDict} (ascii : Bool), loads.text s = some (.obj d) →
    normalizeObj d = some (d', true) ∨ shiftUsageObj fl d = some (some d') →
    ∃ d'', loads.text (dumps ascii r (.obj d')) = some (.obj d'')

/-- The text is that of an object. -/
def IsObject (loads : Decoder) (s : PyStr) : Prop :=
  ∃ d, loads.text s = some (.obj d)

theorem contains_iff_infix (s p : PyStr) : contains s p = true ↔ p <:+: s := by
  induction s with
  | nil =>
    rw [contains, startsWith, List.isPrefixOf_iff_prefix, List.prefix_nil, List.infix_nil]
  | cons c s ih =>
    rw [contains, Bool.or_eq_true, ih, startsWith, List.isPrefixOf_iff_prefix, List.infix_cons_iff]

/-- A word is not found across text that has none of its characters. -/
theorem contains_append {s t p : PyStr} (hp : p ≠ []) (ht : ∀ c ∈ t, c ∉ p) :
    contains (s ++ t) p = contains s p := by
  rw [Bool.eq_iff_iff, contains_iff_infix, contains_iff_infix]
  induction t using List.reverseRecOn with
  | nil => rw [List.append_nil]
  | append_singleton t c ih =>
    rw [← List.append_assoc, List.infix_concat_iff, ih fun c hc ↦ ht c (List.mem_append_left _ hc)]
    refine or_iff_right fun hend ↦ ?_
    obtain ⟨u, hu⟩ := hend
    obtain ⟨p', c', rfl⟩ := (List.eq_nil_or_concat' p).resolve_left hp
    rw [← List.append_assoc] at hu
    obtain rfl : c' = c := List.singleton_injective (List.append_inj' hu rfl).2
    exact ht c' (by simp) (by simp)

theorem mentionsReasoning_append {s t : PyStr} (ht : ∀ c ∈ t, c ∈ [9, 10, 13, 32]) :
    mentionsReasoning (s ++ t) = mentionsReasoning s := by
  have hword : ∀ p : PyStr, (∀ c ∈ [9, 10, 13, 32], c ∉ p) → ∀ c ∈ t, c ∉ p := fun p hp c hc ↦ hp c (ht c hc)
  rw [mentionsReasoning, mentionsReasoning, contains_append (by decide) (hword _ (by decide)),
    contains_append (by decide) (hword _ (by decide))]

/-! ### What is passed on of a payload -/

section Payload

variable {loads : Decoder} {r : FloatRepr} {fl : Arith}

/-- A payload is normalised to what is written of its object, or stays as it is. -/
theorem normalizedData_cases {s n : PyStr} (h : normalizedData loads r s = some n) :
    n = s ∨ mentionsReasoning s = true ∧ ∃ d d', loads.text s = some (.obj d) ∧
      normalizeObj d = some (d', true) ∧ n = dumps false r (.obj d') := by
  unfold normalizedData at h
  split_ifs at h with hplain
  · exact .inl (Option.some.inj h).symm
  · have hmention : mentionsReasoning s = true := by
      by_contra hnot
      exact hplain (by simp [hnot])
    rcases hload : loads.text s with - | v <;> rw [hload] at h
    · exact .inl (Option.some.inj h).symm
    · cases v with
      | obj d =>
        rcases hobj : normalizeObj d with - | ⟨d', - | -⟩ <;> simp only [hobj] at h
        · cases h
        · exact .inl (Option.some.inj h).symm
        · exact .inr ⟨hmention, d, d', rfl, hobj, (Option.some.inj h).symm⟩
      | _ => exact .inl (Option.some.inj h).symm

/-- The line is shifted to what is written of its object. -/
theorem shiftedData_eq_some {x y : PyStr} (h : shiftedData loads r fl x = some y) :
    ∃ d d', loads.text x = some (.obj d) ∧ shiftUsageObj fl d = some (some d') ∧
      y = dumps true r (.obj d') := by
  unfold shiftedData at h
  rcases hload : loads.text x with - | v <;> rw [hload] at h
  · cases h
  · cases v with
    | obj d =>
      rcases hshift : shiftUsageObj fl d with - | - | d' <;> simp only [hshift] at h
      · cases h
      · cases h
      · exact ⟨d, d', rfl, hshift, (Option.some.inj h).symm⟩
    | _ => cases h

theorem lf_not_mem_dumps (ascii : Bool) (v : Json) : 10 ∉ dumps ascii r v := fun h ↦
  absurd (dumps_printable ascii r v 10 h) (by decide)

namespace ReadsJson

variable (h : ReadsJson loads r fl)

include h

/-- What is normalised is the text of an object, on one line. -/
theorem normalized {s n : PyStr} (hn : normalizedData loads r s = some n) :
    n = s ∨ IsObject loads s ∧ IsObject loads n ∧ 10 ∉ n := by
  rcases normalizedData_cases hn with rfl | ⟨-, d, d', hd, hobj, rfl⟩
  · exact .inl rfl
  · exact .inr ⟨⟨d, hd⟩, h.rereads false hd (.inl hobj), lf_not_mem_dumps false _⟩

/-- What is shifted is the text of an object. -/
theorem maybeShifted {x y : PyStr} (hxy : MaybeShifted loads r fl x y) :
    y = x ∨ IsObject loads x ∧ IsObject loads y := by
  rcases hxy with rfl | hxy
  · exact .inl rfl
  · obtain ⟨d, d', hd, hshift, rfl⟩ := shiftedData_eq_some hxy
    exact .inr ⟨⟨d, hd⟩, h.rereads true hd (.inr hshift)⟩

/-- The sentinel has no object in it. -/
theorem not_isObject_of_isDone {s l : PyStr} (hs : isDone s = true) (hl : ∀ c ∈ l, c ∈ s) :
    ¬ IsObject loads l := by
  rintro ⟨d, hd⟩
  have hbrace : 125 ∈ l :=
    (List.rdropWhile_prefix _ _).subset (List.mem_of_getLast? (h.closes hd))
  have hmem := mem_strip (by decide) (hl 125 hbrace)
  rw [isDone, decide_eq_true_eq] at hs
  rw [hs] at hmem
  exact absurd hmem (by decide)

/-- **The sentinel is passed on as it is**, and nothing else becomes it. -/
theorem eq_of_isDone {d d' : PyStr} (hd : Rewritten loads r fl d d') (hdone : isDone d = true ∨ isDone d' = true) :
    d' = d := by
  obtain ⟨n, hn, hlines⟩ := hd
  have hsame : (∀ x ∈ n.splitOn 10, ¬ IsObject loads x) ∨ (∀ y ∈ d'.splitOn 10, ¬ IsObject loads y) →
      d' = n := fun hnot ↦ by
    have heq : List.Forall₂ Eq (n.splitOn 10) (d'.splitOn 10) := by
      refine (List.forall₂_iff_zip.2 ⟨hlines.length_eq, fun {x y} hmem ↦ ?_⟩)
      rcases h.maybeShifted ((List.forall₂_iff_zip.1 hlines).2 hmem) with rfl | ⟨hx, hy⟩
      · rfl
      · rcases hnot with hnot | hnot
        · exact absurd hx (hnot x (List.of_mem_zip hmem).1)
        · exact absurd hy (hnot y (List.of_mem_zip hmem).2)
    exact (Lines.splitOn_injective 10 (List.forall₂_eq_eq_eq ▸ heq)).symm
  rcases hdone with hdone | hdone
  · rcases h.normalized hn with rfl | ⟨hobj, -⟩
    · exact hsame (.inl fun x hx ↦ h.not_isObject_of_isDone hdone fun c hc ↦ Lines.mem_of_mem_splitOn hx hc)
    · exact absurd hobj (h.not_isObject_of_isDone hdone fun _ hc ↦ hc)
  · obtain rfl := hsame (.inr fun y hy ↦ h.not_isObject_of_isDone hdone fun c hc ↦ Lines.mem_of_mem_splitOn hy hc)
    rcases h.normalized hn with heq | ⟨-, hobj, -⟩
    · exact heq
    · exact absurd hobj (h.not_isObject_of_isDone hdone fun _ hc ↦ hc)

theorem isDone_eq {d d' : PyStr} (hd : Rewritten loads r fl d d') : isDone d' = isDone d := by
  rw [Bool.eq_iff_iff]
  constructor
  · intro hdone
    rwa [← h.eq_of_isDone hd (.inr hdone)]
  · intro hdone
    rwa [h.eq_of_isDone hd (.inl hdone)]

/-- What the text of an object on one line is passed on as. -/
theorem isObject_of_forall₂ {n d : PyStr}
    (hlines : List.Forall₂ (MaybeShifted loads r fl) (n.splitOn 10) (d.splitOn 10)) (hn : IsObject loads n) (hlf : 10 ∉ n) : IsObject loads d ∧ (d.splitOn 10).length = 1 := by
  have hlength := hlines.length_eq
  rw [List.splitOn_eq_singleton hlf] at hlines hlength
  obtain ⟨e, rest, he, hrest, hd⟩ := List.forall₂_cons_left_iff.1 hlines
  obtain rfl := List.forall₂_nil_left_iff.1 hrest
  obtain rfl : d = e := by
    exact Lines.eq_of_splitOn_eq_singleton hd
  refine ⟨?_, hlength.symm⟩
  rcases h.maybeShifted he with rfl | ⟨-, hobj⟩
  · exact hn
  · exact hobj

/-- What is passed on as the text of an object on one line. -/
theorem isObject_of_rewritten {s d : PyStr} (hs : Rewritten loads r fl s d) (hd : IsObject loads d)
    (hone : (d.splitOn 10).length = 1) : IsObject loads s := by
  obtain ⟨n, hn, hlines⟩ := hs
  have hlength := hlines.length_eq
  rw [hone] at hlength
  obtain ⟨x, hx⟩ := List.length_eq_one_iff.1 hlength
  obtain ⟨y, hy⟩ := List.length_eq_one_iff.1 hone
  obtain rfl := Lines.eq_of_splitOn_eq_singleton hx
  obtain rfl := Lines.eq_of_splitOn_eq_singleton hy
  rw [hx, hy] at hlines
  have hobj : IsObject loads n := by
    rcases h.maybeShifted (List.forall₂_cons.1 hlines).1 with rfl | ⟨hobj, -⟩
    · exact hd
    · exact hobj
  rcases h.normalized hn with rfl | ⟨hobj', -⟩
  · exact hobj
  · exact hobj'

/-- Two payloads that stay as they are, of which one goes on where the other ends, are passed on apart. -/
theorem not_forall₂_append {p t d : PyStr} (ht : 10 ∈ t ∨ 58 ∈ t)
    (hp : List.Forall₂ (MaybeShifted loads r fl) (p.splitOn 10) (d.splitOn 10)) :
    ¬ List.Forall₂ (MaybeShifted loads r fl) ((p ++ t).splitOn 10) (d.splitOn 10) := by
  intro hq
  obtain ⟨init, last, hlast⟩ : ∃ init last, p.splitOn 10 = init ++ [last] :=
    ⟨_, _, (List.dropLast_append_getLast (List.splitOn_ne_nil 10 p)).symm⟩
  obtain ⟨first, tail, hfirst⟩ := List.exists_cons_of_ne_nil (List.splitOn_ne_nil 10 t)
  have hsplit := Lines.splitOn_append hlast hfirst
  have hlength := hp.length_eq.trans hq.length_eq.symm
  rw [hsplit, hlast] at hlength
  simp only [List.length_append, List.length_cons, List.length_nil] at hlength
  obtain rfl : tail = [] := List.eq_nil_of_length_eq_zero (by omega)
  obtain rfl := Lines.eq_of_splitOn_eq_singleton hfirst
  have hlf : 10 ∉ t := Lines.not_mem_of_mem_splitOn (hfirst ▸ List.mem_singleton_self t)
  have hcolon : ¬ ∀ c ∈ t, c ∈ [9, 10, 13, 32] := fun hspace ↦
    absurd (hspace 58 (ht.resolve_left hlf)) (by decide)
  -- the last line of the one goes on where that of the other ends
  rw [hlast] at hp
  rw [hsplit] at hq
  obtain ⟨es, e, hd, -, he⟩ := exists_last_of_forall₂ hp
  rw [hd, forall₂_concat_iff] at hq
  have he' := hq.2
  have happart : IsObject loads last → ¬ IsObject loads (last ++ t) := fun ⟨_, hobj⟩ ⟨_, hobj'⟩ ↦
    hcolon (h.delimits hobj hobj').2
  rcases h.maybeShifted he with rfl | ⟨hobj, hwritten⟩
  · rcases h.maybeShifted he' with heq | ⟨hobj', hwritten⟩
    · have hnil : t = [] := by simpa using heq
      exact hcolon (by simp [hnil])
    · exact happart hwritten hobj'
  · rcases h.maybeShifted he' with rfl | ⟨hobj', -⟩
    · exact happart hobj hwritten
    · exact happart hobj hobj'

/-- The text of an object with a reasoning field to be filled in. -/
theorem normalizedData_of_obj {s : PyStr} {d d' : PyDict} (hd : loads.text s = some (.obj d))
    (hmention : mentionsReasoning s = true) (hobj : normalizeObj d = some (d', true)) :
    normalizedData loads r s = some (dumps false r (.obj d')) := by
  have hdone : isDone s = false := by
    rw [← Bool.not_eq_true]
    exact fun hdone ↦ h.not_isObject_of_isDone hdone (fun _ hc ↦ hc) ⟨d, hd⟩
  simp only [normalizedData, hdone, hmention, hd, hobj, Bool.not_true, Bool.or_self, Bool.false_eq_true,
    if_false]

/-- Two payloads that may be passed on as the same, of which one goes on where the other ends, are objects. -/
theorem isObject_of_append {p t d : PyStr} (hp : Rewritten loads r fl p d) (hq : Rewritten loads r fl (p ++ t) d)
    (ht : 10 ∈ t ∨ 58 ∈ t) : IsObject loads p ∧ IsObject loads (p ++ t) := by
  obtain ⟨n, hn, hlines⟩ := id hp
  obtain ⟨m, hm, hlines'⟩ := id hq
  rcases h.normalized hn with rfl | ⟨hobj, hwritten, hlf⟩
  · rcases h.normalized hm with rfl | ⟨hobj, hwritten, hlf⟩
    · exact absurd hlines' (h.not_forall₂_append ht hlines)
    · obtain ⟨hd, hone⟩ := h.isObject_of_forall₂ hlines' hwritten hlf
      exact ⟨h.isObject_of_rewritten hp hd hone, hobj⟩
  · obtain ⟨hd, hone⟩ := h.isObject_of_forall₂ hlines hwritten hlf
    exact ⟨hobj, h.isObject_of_rewritten hq hd hone⟩

/-- **Two payloads that may be passed on as the same**, of which one goes on where the other ends, are
normalised to the same. -/
theorem normalizedData_append {p t d : PyStr} (hp : Rewritten loads r fl p d)
    (hq : Rewritten loads r fl (p ++ t) d) (ht : 10 ∈ t ∨ 58 ∈ t) :
    normalizedData loads r (p ++ t) = normalizedData loads r p := by
  obtain ⟨⟨dp, hload⟩, ⟨dq, hload'⟩⟩ := h.isObject_of_append hp hq ht
  obtain ⟨rfl, hspace⟩ := h.delimits hload hload'
  have hmentions : mentionsReasoning (p ++ t) = mentionsReasoning p := mentionsReasoning_append hspace
  obtain ⟨n, hn, hlines⟩ := hp
  obtain ⟨m, hm, hlines'⟩ := hq
  rcases normalizedData_cases hn with rfl | ⟨hmention, d₁, d', hload₁, hobj, -⟩
  · rcases normalizedData_cases hm with rfl | ⟨hmention, d₁, d', hload₁, hobj, -⟩
    · exact absurd hlines' (h.not_forall₂_append ht hlines)
    · obtain rfl : dq = d₁ := by simpa using hload'.symm.trans hload₁
      rw [h.normalizedData_of_obj hload' hmention hobj,
        h.normalizedData_of_obj hload (hmentions ▸ hmention) hobj]
  · obtain rfl : dq = d₁ := by simpa using hload.symm.trans hload₁
    rw [h.normalizedData_of_obj hload hmention hobj, h.normalizedData_of_obj hload' (hmentions ▸ hmention) hobj]

/-- A payload is not passed on as one that the sentinel follows. -/
theorem not_rewritten_done {c d e : PyStr} (hd : isDone d = true) (hc : Rewritten loads r fl c e) :
    ¬ Rewritten loads r fl (c ++ 10 :: d) e := by
  intro hcd
  obtain ⟨⟨_, hload⟩, ⟨_, hload'⟩⟩ := h.isObject_of_append hc hcd (.inl List.mem_cons_self)
  have hbracket : 91 ∈ d := by
    have hmem : 91 ∈ strip d := by
      rw [isDone, decide_eq_true_eq] at hd
      rw [hd]
      decide
    exact (List.dropWhile_suffix _).subset ((List.rdropWhile_prefix _ _).subset hmem)
  exact absurd ((h.delimits hload hload').2 91 (List.mem_cons_of_mem _ hbracket)) (by decide)

/-- A payload that ends within a character is not passed on as one with more lines. -/
theorem not_rewritten_of_broken {p q d : PyStr} (hp : Rewritten loads r fl p d)
    (hbroken : p.getLast? = some 0xFFFD) (hless : (p.splitOn 10).length < (q.splitOn 10).length) :
    ¬ Rewritten loads r fl q d := by
  rintro ⟨m, hm, hlines'⟩
  have hnot : ¬ IsObject loads p := by
    rintro ⟨dp, hload⟩
    obtain ⟨front, rfl⟩ := List.getLast?_eq_some_iff.1 hbroken
    have hclose := h.closes hload
    rw [List.rdropWhile_concat_neg _ _ _ (by decide), List.getLast?_concat] at hclose
    exact absurd hclose (by decide)
  rcases h.normalized hm with rfl | ⟨-, hobj, hlf⟩
  · obtain ⟨n, hn, hlines⟩ := hp
    rcases h.normalized hn with rfl | ⟨hobj, -⟩
    · exact absurd (hlines.length_eq.trans hlines'.length_eq.symm) hless.ne
    · exact hnot hobj
  · obtain ⟨hd, hone⟩ := h.isObject_of_forall₂ hlines' hobj hlf
    exact hnot (h.isObject_of_rewritten hp hd hone)

end ReadsJson

end Payload

/-! ### What is parsed anew -/

namespace SSEParser

/-- What the chunks leave in the buffer. -/
def leftover (chunks : List PyBytes) : PyBytes :=
  (feedAll init chunks).2.buf

/-- **Chunks are read as the events that they complete, and what they leave.** -/
theorem payloads_seenText (chunks : List PyBytes) : payloads (seenText chunks) =
    (feedAll init chunks).1.map SSEEvent.data ++ payloads (leftover chunks) := by
  rw [← map_data_textEvents, ← parse_eq, parse, List.map_append, flush_eq, map_data_textEvents]
  rfl

theorem flush_eq_none_iff (p : SSEParser) : p.flush.1 = none ↔ payloads p.buf = [] := by
  rw [← map_data_textEvents, ← flush_eq]
  rcases p.flush.1 with - | ev
  · exact iff_of_true rfl rfl
  · exact iff_of_false nofun nofun

/-- All is closed before a blank line at the end. -/
theorem closedPayloads_blank (s : PyBytes) : closedPayloads (s ++ [10, 10]) = payloads (s ++ [10, 10]) := by
  have hsplit : (s ++ [10, 10]).splitOn 10 = s.splitOn 10 ++ [] :: [[]] := by
    show (s ++ 10 :: [10]).splitOn 10 = _
    rw [List.splitOn_append_cons_self]
    rfl
  rw [payloads_blank, closedPayloads, payloads, hsplit, Lines.closed_append_blank _ (List.cons_ne_nil _ _)]
  exact congrArg _ (Lines.readings_concat_blank lineData _)

/-- **A chunk that ends with a blank line leaves nothing.** -/
theorem feed_blank (p : SSEParser) {t : PyBytes} (ht : 13 ∉ t) :
    (p.feed (t ++ [10, 10])).1.map SSEEvent.data = payloads (p.buf ++ (t ++ [10, 10])) ∧
      (p.feed (t ++ [10, 10])).2.flush.1 = none := by
  have hcr : 13 ∉ t ++ [10, 10] := by simpa using ht
  have hboth : 13 ∉ p.buf ++ (t ++ [10, 10]) := fun hmem ↦ (List.mem_append.1 hmem).elim p.no_cr hcr
  have hextend : extend p.buf (t ++ [10, 10]) = extend init.buf (p.buf ++ (t ++ [10, 10])) := by
    rw [extend_eq p.no_cr, extend_eq init.no_cr, normalizeEol_of_no_cr hcr, normalizeEol_of_no_cr hboth]
    rfl
  have hfeed : p.feed (t ++ [10, 10]) = init.feed (p.buf ++ (t ++ [10, 10])) := by
    simp only [feed, hextend]
  have hdata : (init.feed (p.buf ++ (t ++ [10, 10]))).1.map SSEEvent.data =
      payloads (p.buf ++ (t ++ [10, 10])) := by
    rw [data_feed, normalizeEol_of_no_cr hboth, ← List.append_assoc, closedPayloads_blank]
  rw [hfeed]
  refine ⟨hdata, (flush_eq_none_iff _).2 ?_⟩
  -- the events are all that the text has
  have hall := payloads_seenText [p.buf ++ (t ++ [10, 10])]
  rw [feedAll, feedAll, List.append_nil, hdata, seenText, List.map_singleton, List.flatten_singleton,
    normalizeEol_of_no_cr hboth] at hall
  exact List.self_eq_append_right.1 hall

/-- What is parsed anew of a leftover. -/
def again (s : PyBytes) : List PyStr :=
  if payloads s = [] then [] else payloads (resent s)

/-- **What is parsed anew**: the events that the chunks complete, and the leftover, sent twice. -/
theorem data_passedOn (chunks : List PyBytes) :
    (feedAll init (passedOn chunks .eof)).1.map SSEEvent.data =
        (feedAll init chunks).1.map SSEEvent.data ++ again (leftover chunks) ∧
      (feedAll init (passedOn chunks .eof)).2.flush.1 = none := by
  rw [passedOn, feedAll_append, feedAll_filter]
  rcases hflush : (feedAll init chunks).2.flush.1 with - | ev
  · have hnone : payloads (leftover chunks) = [] := (flush_eq_none_iff _).1 hflush
    rw [again, if_pos hnone, Option.toList_none, List.map_nil, feedAll, List.append_nil, List.append_nil]
    exact ⟨rfl, hflush⟩
  · have hsome : payloads (leftover chunks) ≠ [] := fun hnil ↦ by
      rw [(flush_eq_none_iff _).2 hnil] at hflush
      cases hflush
    have hrender : renderEvent ev = (leftover chunks).rdropWhile (· = 10) ++ [10, 10] := by
      rw [renderEvent, raw_of_flush hflush]
      rfl
    have hcr : 13 ∉ (leftover chunks).rdropWhile (· = 10) := fun hmem ↦
      (feedAll init chunks).2.no_cr ((List.rdropWhile_prefix _ _).subset hmem)
    obtain ⟨hdata, hnone⟩ := feed_blank (feedAll init chunks).2 hcr
    rw [again, if_neg hsome, Option.toList_some, List.map_singleton, hrender, feedAll, feedAll, List.append_nil,
      List.map_append, hdata]
    exact ⟨rfl, hnone⟩

end SSEParser

/-! ### What the client reads -/

/-- `[DONE]`, unless the payloads have it. -/
def doneMark (ds : List PyStr) : List PyStr :=
  if ds.any isDone then [] else [py "[DONE]"]

theorem doneMark_cases (ds : List PyStr) : doneMark ds = [] ∧ ds.any isDone = true ∨
    doneMark ds = [py "[DONE]"] ∧ ds.any isDone = false := by
  unfold doneMark
  cases ds.any isDone <;> simp

theorem length_doneMark_le (ds : List PyStr) : (doneMark ds).length ≤ 1 := by
  rcases doneMark_cases ds with ⟨h, -⟩ | ⟨h, -⟩ <;> simp [h]

/-- The sentinel comes last, and only then. -/
def EndsOnce (ds : List PyStr) : Prop :=
  ∃ front last, ds = front ++ [last] ∧ isDone last = true ∧ ∀ d ∈ front, isDone d = false

theorem endsOnce_concat_iff {front : List PyStr} {last : PyStr} :
    EndsOnce (front ++ [last]) ↔ isDone last = true ∧ ∀ d ∈ front, isDone d = false := by
  constructor
  · rintro ⟨front', last', heq, h⟩
    obtain ⟨rfl, hlast⟩ := List.append_inj' heq rfl
    obtain rfl := List.singleton_injective hlast
    exact h
  · exact fun h ↦ ⟨front, last, rfl, h⟩

namespace SSEParser

/-- A leftover is one event or none. -/
theorem again_cases {s : PyBytes} (hs : Lines.splitBlank 10 s = none) : payloads s = [] ∧ again s = [] ∨
    ∃ p q qs, payloads s = [p] ∧ payloads (resent s) = q :: qs ∧ again s = q :: qs := by
  by_cases hnil : payloads s = []
  · exact .inl ⟨hnil, if_pos hnil⟩
  · obtain ⟨ds, -, hread, -⟩ := resent_cases hs hnil
    have hmore : payloads (resent s) ≠ [] := fun h ↦ hnil (payloads_eq_nil_of_append h)
    obtain ⟨q, qs, hq⟩ := List.exists_cons_of_ne_nil hmore
    exact .inr ⟨joinLines ds, q, qs, by rw [payloads, hread]; rfl, hq, by rw [again, if_neg hnil, hq]⟩

end SSEParser

namespace ReadsJson

variable {loads : Decoder} {r : FloatRepr} {fl : Arith} (h : ReadsJson loads r fl)

include h

theorem forall_not_done_iff {us ds : List PyStr} (hrel : List.Forall₂ (Rewritten loads r fl) us ds) :
    (∀ d ∈ ds, isDone d = false) ↔ ∀ u ∈ us, isDone u = false := by
  constructor
  · intro hnone u hu
    obtain ⟨d, hd, hud⟩ := exists_of_mem_left hrel hu
    rw [← h.isDone_eq hud, hnone d hd]
  · intro hnone d hd
    obtain ⟨u, hu, hud⟩ := exists_of_mem_right hrel hd
    rw [h.isDone_eq hud, hnone u hu]

/-- What is passed on of payloads, with the sentinel added if need be, ends with it exactly if they do not have
it before. -/
theorem endsOnce_iff {us ds : List PyStr} (hrel : List.Forall₂ (Rewritten loads r fl) us ds) :
    EndsOnce (ds ++ doneMark us) ↔ ∀ u ∈ us.dropLast, isDone u = false := by
  by_cases hany : us.any isDone = true
  · rw [doneMark, if_pos hany, List.append_nil]
    obtain ⟨init, u, rfl⟩ := (List.eq_nil_or_concat' us).resolve_left (by rintro rfl; cases hany)
    obtain ⟨ds', d, rfl, hinit, hd⟩ := exists_last_of_forall₂ hrel
    rw [List.dropLast_concat, endsOnce_concat_iff, h.forall_not_done_iff hinit, h.isDone_eq hd]
    refine and_iff_right_of_imp fun hnone ↦ ?_
    obtain ⟨v, hv, hdone⟩ := List.any_eq_true.1 hany
    rcases List.mem_append.1 hv with hv | hv
    · rw [hnone v hv] at hdone
      cases hdone
    · rwa [← List.mem_singleton.1 hv]
  · have hnone : ∀ u ∈ us, isDone u = false := by simpa using hany
    rw [doneMark, if_neg hany, endsOnce_concat_iff, h.forall_not_done_iff hrel]
    exact iff_of_true ⟨by decide, hnone⟩ fun u hu ↦ hnone u (List.dropLast_subset us hu)

/-- **A leftover that is passed on as one event**, though it is sent twice, is normalised to the same. -/
theorem normalized_again {s : PyBytes} (hs : Lines.splitBlank 10 s = none) {es ds : List PyStr}
    (hp : List.Forall₂ (Rewritten loads r fl) (es ++ SSEParser.payloads s) ds)
    (hq : List.Forall₂ (Rewritten loads r fl) (es ++ SSEParser.again s) ds) :
    (SSEParser.again s).map (normalizedData loads r) =
      (SSEParser.payloads s).map (normalizedData loads r) := by
  have hlength := hp.length_eq.trans hq.length_eq.symm
  rw [List.length_append, List.length_append, Nat.add_left_cancel_iff] at hlength
  rcases SSEParser.again_cases hs with ⟨hnil, hagain⟩ | ⟨p, q, qs, hpay, hresent, hagain⟩
  · rw [hnil, hagain]
  · rw [hpay, hagain, List.length_singleton, List.length_cons] at hlength
    obtain rfl : qs = [] := List.eq_nil_of_length_eq_zero (by omega)
    rw [hpay] at hp
    rw [hagain] at hq
    obtain ⟨ds', d, rfl, -, hd⟩ := exists_last_of_forall₂ hp
    obtain ⟨-, hd'⟩ := forall₂_concat_iff.1 hq
    rw [hpay, hagain]
    rcases SSEParser.payload_resent_cases hs hpay hresent with rfl | ⟨t, rfl, ht⟩ | ⟨hbroken, hless⟩
    · rfl
    · rw [List.map_singleton, List.map_singleton, h.normalizedData_append hd hd' ht]
    · exact absurd hd' (h.not_rewritten_of_broken hd hbroken hless)

omit h in
/-- What is passed on of payloads is passed on of others that are normalised to the same. -/
theorem rewritten_of_map_eq {us vs ds : List PyStr}
    (heq : us.map (normalizedData loads r) = vs.map (normalizedData loads r))
    (hus : List.Forall₂ (Rewritten loads r fl) us ds) : List.Forall₂ (Rewritten loads r fl) vs ds := by
  have hmap : ∀ xs : List PyStr, List.Forall₂ (Rewritten loads r fl) xs ds ↔
      List.Forall₂ (fun o d ↦ ∃ n, o = some n ∧
        List.Forall₂ (MaybeShifted loads r fl) (n.splitOn 10) (d.splitOn 10))
        (xs.map (normalizedData loads r)) ds := fun xs ↦ by
    rw [List.forall₂_map_left_iff]
    rfl
  rw [hmap] at hus ⊢
  rwa [← heq]

/-- **One event too many** is not the sentinel that is added: the stream has the sentinel itself, or has it
in its last event. -/
theorem not_forall₂_of_last {chunks : List PyBytes} {front seen : List PyStr} {p : PyStr}
    (hpay : SSEParser.payloads (SSEParser.seenText chunks) = front ++ [p])
    (hlength : (SSEParser.payloads (normalizeEol chunks.flatten)).length = front.length)
    (hnone : (SSEParser.payloads (normalizeEol chunks.flatten)).any isDone = false)
    (hsome : (front ++ [p]).any isDone = true) (hfront : List.Forall₂ (Rewritten loads r fl) front seen) :
    ¬ List.Forall₂ (Rewritten loads r fl) (SSEParser.payloads (normalizeEol chunks.flatten)) seen := by
  intro hseen
  have hclean : ∀ u ∈ SSEParser.payloads (normalizeEol chunks.flatten), isDone u = false := by
    simpa using hnone
  have hfrontNone := (h.forall_not_done_iff hfront).1 ((h.forall_not_done_iff hseen).2 hclean)
  have hdone : isDone p = true := by
    have hfrontAny : front.any isDone = false := by simpa using hfrontNone
    simpa [hfrontAny] using hsome
  have hone : (SSEParser.payloads (SSEParser.seenText chunks)).length =
      (SSEParser.payloads (normalizeEol chunks.flatten)).length + 1 := by
    rw [hpay, hlength, List.length_append, List.length_singleton]
  rcases SSEParser.payloads_last_cases hone hpay with ⟨rest, hrest⟩ | ⟨rest, c, rfl, hrest⟩
  · have hmem := hclean p (by simp [hrest])
    exact Bool.false_ne_true (hmem.symm.trans hdone)
  · rw [hrest] at hseen
    obtain ⟨seen', e, rfl, -, hglued⟩ := exists_last_of_forall₂ hseen
    exact h.not_rewritten_done hdone (forall₂_concat_iff.1 hfront).2 hglued

/-- **More events than the stream has** are not what is passed on of it. -/
theorem not_passedOn_of_not_together {chunks : List PyBytes} {datas seen : List PyStr}
    (htogether : ¬ ∀ sp ∈ SSEParser.spans chunks, sp.Together SSEParser.lineData)
    (hdatas : List.Forall₂ (Rewritten loads r fl)
      ((SSEParser.feedAll .init chunks).1.map SSEEvent.data ++ SSEParser.again (SSEParser.leftover chunks)) datas)
    (hseen : List.Forall₂ (Rewritten loads r fl) (SSEParser.payloads (normalizeEol chunks.flatten)) seen) :
    datas ++ doneMark (SSEParser.payloads (SSEParser.seenText chunks)) ≠
      seen ++ doneMark (SSEParser.payloads (normalizeEol chunks.flatten)) := by
  intro heq
  have hmore : (SSEParser.payloads (normalizeEol chunks.flatten)).length <
      (SSEParser.payloads (SSEParser.seenText chunks)).length := by
    by_contra hle
    exact htogether (SSEParser.together_of_length_le (not_lt.1 hle))
  have hpay := SSEParser.payloads_seenText chunks
  have hlength := congrArg List.length heq
  rw [List.length_append, List.length_append, ← hdatas.length_eq, ← hseen.length_eq] at hlength
  have hmark := length_doneMark_le (SSEParser.payloads (normalizeEol chunks.flatten))
  -- the leftover is one event, or none, whether it is read once or twice
  obtain ⟨front, p, q, hp, hq⟩ : ∃ front p q,
      SSEParser.payloads (SSEParser.seenText chunks) = front ++ [p] ∧
        (SSEParser.feedAll .init chunks).1.map SSEEvent.data ++ SSEParser.again (SSEParser.leftover chunks) =
          front ++ [q] := by
    rcases SSEParser.again_cases (SSEParser.feedAll .init chunks).2.no_blank with ⟨hnil, hagain⟩ |
      ⟨p, q, qs, hone, -, hagain⟩
    · have hsame : SSEParser.payloads (SSEParser.leftover chunks) = SSEParser.again (SSEParser.leftover chunks) :=
        hnil.trans hagain.symm
      rw [← hsame, ← hpay]
      have hne : SSEParser.payloads (SSEParser.seenText chunks) ≠ [] := List.ne_nil_of_length_pos (by omega)
      obtain ⟨front, p, hp⟩ := (List.eq_nil_or_concat' _).resolve_left hne
      exact ⟨front, p, p, hp, hp⟩
    · have hq : SSEParser.again (SSEParser.leftover chunks) = q :: qs := hagain
      have hp : SSEParser.payloads (SSEParser.leftover chunks) = [p] := hone
      rw [hp] at hpay
      rw [hpay] at hmore
      rw [hq] at hlength ⊢
      simp only [List.length_append, List.length_cons, List.length_nil] at hlength hmore
      obtain rfl : qs = [] := List.eq_nil_of_length_eq_zero (by omega)
      exact ⟨_, p, q, hpay, rfl⟩
  rw [hq] at hdatas hlength
  rw [hp] at hmore heq hlength
  simp only [List.length_append, List.length_cons, List.length_nil] at hlength hmore
  obtain ⟨hmarkU, hnone⟩ := (doneMark_cases (SSEParser.payloads (normalizeEol chunks.flatten))).resolve_left
      fun hmarkU ↦ by
    rw [hmarkU.1] at hlength
    simp only [List.length_nil] at hlength
    omega
  obtain ⟨hmarkP, hsome⟩ := (doneMark_cases (front ++ [p])).resolve_right fun hmarkP ↦ by
    rw [hmarkU, hmarkP.1] at hlength
    simp only [List.length_cons, List.length_nil] at hlength
    omega
  rw [hmarkU, hmarkP, List.append_nil] at heq
  subst heq
  rw [hmarkU, hmarkP] at hlength
  simp only [List.length_cons, List.length_nil] at hlength
  exact h.not_forall₂_of_last hp (by omega) hnone hsome (forall₂_concat_iff.1 hdatas).1 hseen

/-- **What is passed on is the events of the stream** and ends with the sentinel exactly if the cut pairs do not
matter, what is left in the buffer is passed on as one event though it is sent twice, and the sentinel comes
last if it comes. -/
theorem passedOn_iff {chunks : List PyBytes} {datas : List PyStr}
    (hdatas : List.Forall₂ (Rewritten loads r fl)
      ((SSEParser.feedAll .init chunks).1.map SSEEvent.data ++ SSEParser.again (SSEParser.leftover chunks)) datas) :
    ((∃ seen, List.Forall₂ (Rewritten loads r fl) (SSEParser.payloads (normalizeEol chunks.flatten)) seen ∧
        datas ++ doneMark (SSEParser.payloads (SSEParser.seenText chunks)) =
          seen ++ doneMark (SSEParser.payloads (normalizeEol chunks.flatten))) ∧
      EndsOnce (datas ++ doneMark (SSEParser.payloads (SSEParser.seenText chunks)))) ↔
      (∀ sp ∈ SSEParser.spans chunks, sp.Together SSEParser.lineData) ∧
        (SSEParser.again (SSEParser.leftover chunks)).map (normalizedData loads r) =
          (SSEParser.payloads (SSEParser.leftover chunks)).map (normalizedData loads r) ∧
        ∀ d ∈ (SSEParser.payloads (normalizeEol chunks.flatten)).dropLast, isDone d = false := by
  have hpay := SSEParser.payloads_seenText chunks
  constructor
  · rintro ⟨⟨seen, hseen, heq⟩, hends⟩
    -- a line feed that is read twice must not tear an event apart
    have htogether : ∀ sp ∈ SSEParser.spans chunks, sp.Together SSEParser.lineData := by
      by_contra hnot
      exact h.not_passedOn_of_not_together hnot hdatas hseen heq
    have hsame := (SSEParser.payloads_chunks_iff chunks).2 htogether
    rw [hsame] at heq hends
    obtain rfl := List.append_cancel_right heq
    refine ⟨htogether, ?_, (h.endsOnce_iff hseen).1 hends⟩
    rw [← hsame, hpay] at hseen
    exact h.normalized_again (SSEParser.feedAll .init chunks).2.no_blank hseen hdatas
  · rintro ⟨htogether, hagain, hlast⟩
    have hsame := (SSEParser.payloads_chunks_iff chunks).2 htogether
    have hseen : List.Forall₂ (Rewritten loads r fl) (SSEParser.payloads (normalizeEol chunks.flatten)) datas := by
      rw [← hsame, hpay]
      refine rewritten_of_map_eq ?_ hdatas
      rw [List.map_append, List.map_append, hagain]
    rw [hsame]
    exact ⟨⟨datas, hseen, rfl⟩, (h.endsOnce_iff hseen).2 hlast⟩

end ReadsJson

/-! ### A whole run -/

namespace Service

variable (sv : Service)

theorem succeed_eq {a : Attempt Upstream} (row : Option UsageRow) (b : Books) :
    (succeed a row b).2 = if row.isSome then .answered else .raised := by
  unfold succeed
  rcases row with - | row <;> rfl

/-- **A stream that is over**: the chunks are passed on as the events that they complete, what the parser has
left follows, then `[DONE]` if the upstream has not sent it, unless an exception is raised. -/
theorem relay_over (caching : Bool) (a : Attempt Upstream) (b : Books) (usage : StreamUsage) (sent : Bool)
    (cs : List PyBytes) (s : RelayState) (parser : SSEParser) :
    let run := sv.relay caching a b s parser (cs.map .chunk ++ [.done usage sent])
    let flushed := flushStreamChunk sv.loads sv.repr (parser.feedAll cs).2
    (run.ending ≠ .raised ↔ sv.DigestsChunks a.entry parser cs ∧
      (sv.chatRow a.entry usage a.latency true).isSome ∧ flushed.isSome) ∧
      (run.ending ≠ .raised → ∃ out datas tail, flushed = some tail ∧ Framed out datas ∧
        List.Forall₂ (Rewritten sv.loads sv.repr sv.arith)
          ((parser.feedAll cs).1.map SSEEvent.data) datas ∧
        (bytesOf run.steps).flatten = out ++ (tail ++ if sent then [] else doneBytes)) := by
  induction cs generalizing s parser with
  | nil =>
    have hended := succeed_eq (a := a) (sv.chatRow a.entry usage a.latency true) b
    simp only [List.map_nil, List.nil_append, relay, DigestsChunks, true_and, SSEParser.feedAll]
    generalize succeed a (sv.chatRow a.entry usage a.latency true) b = recorded at hended
    obtain ⟨b', ending⟩ := recorded
    rcases hrow : sv.chatRow a.entry usage a.latency true with - | row
    · obtain rfl : ending = .raised := by rw [hrow] at hended; exact hended
      exact ⟨iff_of_false (by simp) (by simp), fun h ↦ absurd rfl h⟩
    · obtain rfl : ending = .answered := by rw [hrow] at hended; exact hended
      rcases flushStreamChunk sv.loads sv.repr parser with - | tail
      · exact ⟨iff_of_false (by simp) (by simp), fun h ↦ absurd rfl h⟩
      · refine ⟨iff_of_true (by simp) (by simp), fun _ ↦ ⟨[], [], tail, rfl, Framed.nil, .nil, ?_⟩⟩
        have hstores : ∀ (p : Prop) [Decidable p] (body : PyBytes),
            bytesOf (if p then [RelayStep.store body] else []) = [] := fun p _ body ↦ by
          split_ifs <;> rfl
        rw [bytesOf_append, bytesOf_append, bytesOf_commitSteps, bytesOf_byteSteps, hstores,
          List.nil_append, List.append_nil, List.flatten_append, flatten_nonempty, List.flatten_singleton]
        cases sent <;> simp
  -- what the chunk completes goes first, and the rest follows with the parser it leaves
  | cons data cs ih =>
    simp only [List.map_cons, List.cons_append, relay, DigestsChunks, SSEParser.feedAll]
    rw [← isSome_chatChunk_iff]
    rcases hchunk : sv.chatChunk a.entry parser data with - | ⟨out, parser'⟩
    · exact ⟨iff_of_false (by simp) (by simp), fun h ↦ absurd rfl h⟩
    · obtain ⟨hended, hbytes⟩ := ih (s.commit.collect caching (nonempty [out])) parser'
      obtain rfl := sv.parser_of_chatChunk hchunk
      refine ⟨by simpa using hended, fun h ↦ ?_⟩
      obtain ⟨datas, hframed, hdatas⟩ := sv.chatChunk_framed hchunk
      obtain ⟨outs, datas', tail, htail, hframed', hdatas', hflatten⟩ := hbytes h
      refine ⟨out ++ outs, datas ++ datas', tail, htail, hframed.append hframed', ?_, ?_⟩
      · rw [List.map_append]
        exact List.rel_append hdatas hdatas'
      · rw [bytesOf_append, bytesOf_append, bytesOf_commitSteps, bytesOf_byteSteps, List.nil_append,
          List.flatten_append, flatten_nonempty, List.flatten_singleton, hflatten, List.append_assoc]

end Service

/-- The payloads of the events that a parser reads of a text. -/
def eventsOf (s : PyBytes) : List PyStr :=
  (SSEParser.parse [s]).map SSEEvent.data

theorem eventsOf_eq (s : PyBytes) : eventsOf s = SSEParser.payloads (normalizeEol s) := by
  rw [eventsOf, SSEParser.parse_eq, SSEParser.map_data_textEvents, SSEParser.seenText]
  simp

theorem framed_doneBytes : Framed doneBytes [py "[DONE]"] :=
  framed_dataLine (by decide) (by decide)

/-- What follows a stream that is over. -/
theorem framed_doneMark {chunks : List PyBytes} : Framed
    (if (SSEParser.parse chunks).any SSEEvent.done then [] else doneBytes)
    (doneMark (SSEParser.payloads (SSEParser.seenText chunks))) := by
  have hany : (SSEParser.parse chunks).any SSEEvent.done =
      (SSEParser.payloads (SSEParser.seenText chunks)).any isDone := by
    rw [← SSEParser.map_data_textEvents, List.any_map, SSEParser.parse_eq, Bool.eq_iff_iff, List.any_eq_true,
      List.any_eq_true]
    exact exists_congr fun ev ↦ and_congr_right fun hev ↦ by
      rw [SSEParser.done_of_mem_textEvents hev, Function.comp_apply]
  rw [hany, doneMark]
  split_ifs
  · exact Framed.nil
  · exact framed_doneBytes

namespace Service

variable (sv : Service)

/-- The client reads every event of the upstream, once and in order, each as it may be passed on, and then
`[DONE]`, once. -/
structure DeliversOnce (received : PyBytes) (run : StreamRun) : Prop where
  returns : run.raised = false
  completes : run.endsNormally sv.loads = true
  order : ∃ seen, List.Forall₂ (Rewritten sv.loads sv.repr sv.arith) (eventsOf received) seen ∧
    eventsOf (bytesOf run.course).flatten = seen ++ doneMark (eventsOf received)
  ends : EndsOnce (eventsOf (bytesOf run.course).flatten)

/-- The stream can be read and logged, the pairs that chunk boundaries cut do not matter, what is left in the
buffer is normalised to the same whether it is sent once or twice, and no event follows `[DONE]`. -/
structure SendsOnce (a : Attempt Upstream) (chunks : List PyBytes) : Prop where
  digestible : sv.Digestible a.entry (.streamed chunks .eof)
  recorded : ∀ usage sent, .done usage sent ∈ callProviderStream sv.loads (.streamed chunks .eof) →
    (sv.chatRow a.entry usage a.latency true).isSome
  together : ∀ sp ∈ SSEParser.spans chunks, sp.Together SSEParser.lineData
  repeats : (SSEParser.again (SSEParser.leftover chunks)).map (normalizedData sv.loads sv.repr) =
    (SSEParser.payloads (SSEParser.leftover chunks)).map (normalizedData sv.loads sv.repr)
  last : ∀ d ∈ (eventsOf chunks.flatten).dropLast, isDone d = false

variable {sv}

/-- A stream that is not read to its end is not delivered. -/
theorem accumulate_of_endsNormally {caching : Bool} {s : RelayState} {a : Attempt Upstream}
    {as : List (Attempt Upstream)} {b : Books} {chunks : List PyBytes} (h : a.answer = .streamed chunks .eof)
    (hover : (sv.relayAll caching s (a :: as) b).endsNormally sv.loads = true) :
    ∃ acc, accumulate sv.loads chunks .eof = .ok acc := by
  obtain ⟨cs, ev, hev, hshape⟩ := callProviderStream_shape sv.loads a.answer
  have hnext : (sv.relayAttempt caching s a b).ending ≠ .next := by
    rw [relayAttempt, hshape]
    refine sv.relay_ne_next caching hev (fun error status retryable midStream heq ↦ ?_) cs s .init
    have hmem : .failed error status retryable midStream ∈ callProviderStream sv.loads (.streamed chunks .eof) := by
      rw [← h, hshape, heq]
      simp
    exact midStream_of_eof sv.loads hmem
  rw [StreamRun.endsNormally, sv.relayAll_cons_stop hnext] at hover
  obtain ⟨last, hmem, hdone⟩ := List.any_eq_true.1 (show (callProviderStream sv.loads a.answer).any _ = true from hover)
  rcases last with data | ⟨usage, sent⟩ | ⟨error, status, retryable, midStream⟩
  · cases hdone
  · rw [h] at hmem
    obtain ⟨acc, hacc, -⟩ := accumulate_of_done hmem
    exact ⟨acc, hacc⟩
  · cases hdone

/-- **What a client gets of a stream that is over**, unless an exception is raised. -/
theorem relayAll_over (caching : Bool) (s : RelayState) {a : Attempt Upstream} (as : List (Attempt Upstream))
    (b : Books) {chunks : List PyBytes} {usage : StreamUsage} {sent : Bool}
    (h : a.answer = .streamed chunks .eof) (hdone : .done usage sent ∈ callProviderStream sv.loads a.answer) :
    let run := sv.relayAll caching s (a :: as) b
    run.endsNormally sv.loads = true ∧
      (run.raised = false ↔ sv.DigestsChunks a.entry .init (passedOn chunks .eof) ∧
        (sv.chatRow a.entry usage a.latency true).isSome) ∧
      (run.raised = false → ∃ datas,
        List.Forall₂ (Rewritten sv.loads sv.repr sv.arith) ((SSEParser.feedAll .init chunks).1.map SSEEvent.data ++
          SSEParser.again (SSEParser.leftover chunks)) datas ∧
        Framed (bytesOf run.course).flatten
          (datas ++ doneMark (SSEParser.payloads (SSEParser.seenText chunks)))) := by
  obtain ⟨chunks', hanswer, hevents, hsent⟩ := eof_of_done hdone
  obtain ⟨rfl, -⟩ := Upstream.streamed.inj (h.symm.trans hanswer)
  obtain ⟨hdata, hflush⟩ := SSEParser.data_passedOn chunks
  have hflushed : flushStreamChunk sv.loads sv.repr (SSEParser.feedAll .init (passedOn chunks .eof)).2 =
      some [] := by
    rw [flushStreamChunk, hflush]
  have hattempt : sv.relayAttempt caching s a b =
      sv.relay caching a b s .init ((passedOn chunks .eof).map .chunk ++ [.done usage sent]) := by
    rw [relayAttempt, hevents]
  have hnext : (sv.relayAttempt caching s a b).ending ≠ .next := by
    rw [hattempt]
    have hends : StreamEvent.Ends (.done usage sent) := trivial
    exact sv.relay_ne_next caching hends (fun _ _ _ _ h ↦ by cases h) _ s .init
  obtain ⟨hended, hbytes⟩ := sv.relay_over caching a b usage sent (passedOn chunks .eof) s .init
  rw [← hattempt, hflushed] at hended hbytes
  have hraised := sv.relayAll_raised_stop hnext as
  refine ⟨?_, ?_, fun hreturns ↦ ?_⟩
  · rw [sv.relayAll_cons_stop hnext as]
    exact List.any_eq_true.2 ⟨_, hdone, rfl⟩
  · rw [hraised, hended]
    simp
  · obtain ⟨out, datas, tail, htail, hframed, hdatas, hflatten⟩ := hbytes (hraised.1 hreturns)
    obtain rfl := Option.some.inj htail
    refine ⟨datas, hdata ▸ hdatas, ?_⟩
    rw [sv.relayAll_course_stop hnext as, hflatten, hsent]
    exact hframed.append framed_doneMark

/-- **When a backend delivers its stream** without loss and without duplicates. -/
theorem relayAll_deliversOnce_iff (hjson : ReadsJson sv.loads sv.repr sv.arith) {caching : Bool} {s : RelayState}
    {a : Attempt Upstream} {as : List (Attempt Upstream)} {b : Books} {chunks : List PyBytes}
    (h : a.answer = .streamed chunks .eof) :
    sv.DeliversOnce chunks.flatten (sv.relayAll caching s (a :: as) b) ↔ sv.SendsOnce a chunks := by
  by_cases hread : ∃ acc, accumulate sv.loads chunks .eof = .ok acc
  · obtain ⟨acc, hacc⟩ := hread
    obtain ⟨last, hevents, usage, sent, rfl⟩ := callProviderStream_of_ok sv.loads hacc
    have hmem : .done usage sent ∈ callProviderStream sv.loads a.answer := by
      rw [h, hevents]
      simp
    have hrecorded : (∀ usage' sent', .done usage' sent' ∈ callProviderStream sv.loads (.streamed chunks .eof) →
        (sv.chatRow a.entry usage' a.latency true).isSome) ↔ (sv.chatRow a.entry usage a.latency true).isSome := by
      rw [hevents]
      simp
    have hdigestible : sv.Digestible a.entry (.streamed chunks .eof) ↔
        sv.DigestsChunks a.entry .init (passedOn chunks .eof) := by
      have hflush := (SSEParser.data_passedOn chunks).2
      rw [Digestible, ← accumulate_ok_iff, DigestsEnd, hflush]
      exact ⟨fun h ↦ h.2.1, fun h ↦ ⟨⟨acc, hacc⟩, h, fun _ hev ↦ by cases hev⟩⟩
    obtain ⟨hover, hraised, hbytes⟩ := relayAll_over caching s as b h hmem
    -- what was sent is framed, so the client reads the payloads that were passed on
    by_cases hreturns : (sv.relayAll caching s (a :: as) b).raised = false
    · obtain ⟨datas, hdatas, hframed⟩ := hbytes hreturns
      have hclient : eventsOf (bytesOf (sv.relayAll caching s (a :: as) b).course).flatten =
          datas ++ doneMark (SSEParser.payloads (SSEParser.seenText chunks)) := by
        rw [eventsOf_eq, SSEParser.normalizeEol_of_no_cr hframed.no_cr, hframed.payloads]
      have hiff := hjson.passedOn_iff hdatas
      rw [← hclient, ← eventsOf_eq] at hiff
      obtain ⟨hdigests, hrow⟩ := hraised.1 hreturns
      constructor
      · rintro ⟨-, -, horder, hends⟩
        obtain ⟨htogether, hagain, hlast⟩ := hiff.1 ⟨horder, hends⟩
        exact ⟨hdigestible.2 hdigests, hrecorded.2 hrow, htogether, hagain, hlast⟩
      · rintro ⟨-, -, htogether, hagain, hlast⟩
        obtain ⟨horder, hends⟩ := hiff.2 ⟨htogether, hagain, hlast⟩
        exact ⟨hreturns, hover, horder, hends⟩
    · refine iff_of_false (fun hdelivers ↦ hreturns hdelivers.returns) fun hsends ↦ hreturns (hraised.2 ?_)
      exact ⟨hdigestible.1 hsends.digestible, hrecorded.1 hsends.recorded⟩
  · refine iff_of_false (fun hdelivers ↦ hread (accumulate_of_endsNormally h hdelivers.completes)) fun hsends ↦ hread ?_
    exact (accumulate_ok_iff sv.loads chunks .eof).2 hsends.digestible.1

/-- **The last backend that is tried yields all** that is yielded. -/
theorem exists_relayAll_of_tried {caching : Bool} (as : List (Attempt Upstream)) (b : Books) {s : RelayState}
    (hs : s.committed = false) {a : Attempt Upstream}
    (h : (sv.relayAll caching s as b).tried.getLast? = some a) : ∃ s' as' b',
      (sv.relayAll caching s as b).course = (sv.relayAll caching s' (a :: as') b').course ∧
        (sv.relayAll caching s as b).raised = (sv.relayAll caching s' (a :: as') b').raised ∧
        (sv.relayAll caching s as b).endsNormally sv.loads =
          (sv.relayAll caching s' (a :: as') b').endsNormally sv.loads := by
  induction as generalizing b s with
  | nil => cases h
  | cons x as ih =>
    by_cases hnext : (sv.relayAttempt caching s x b).ending = .next
    · obtain ⟨hsteps, hcommitted, -, hover⟩ := sv.relayAttempt_next hs hnext
      have hrun : sv.relayAll caching s (x :: as) b = _ := sv.relayAll_cons_next hnext as
      have htried := congrArg StreamRun.tried hrun
      rw [htried, List.getLast?_cons] at h
      -- the backend is left: the last one that is tried comes later, if another one is tried at all
      rcases hrest : (sv.relayAll caching (sv.relayAttempt caching s x b).state as
          (sv.relayAttempt caching s x b).books).tried.getLast? with - | last
      · rw [hrest] at h
        obtain rfl : x = a := Option.some.inj h
        exact ⟨s, as, b, rfl, rfl, rfl⟩
      · rw [hrest] at h
        obtain rfl : last = a := Option.some.inj h
        obtain ⟨s', as', b', hcourse, hraised, hends⟩ := ih _ hcommitted hrest
        refine ⟨s', as', b', ?_, ?_, (endsNormally_cons htried hover).trans hends⟩
        · rw [← hcourse, StreamRun.course, sv.items_cons_next hnext hsteps]
          rfl
        · rw [hrun]
          exact hraised
    · rw [sv.relayAll_cons_stop hnext] at h
      obtain rfl : x = a := Option.some.inj h
      exact ⟨s, as, b, rfl, rfl, rfl⟩

/-- **When a stream is delivered without loss and without duplicates**, in a request that the backend serves. -/
theorem deliversOnce_iff (hjson : ReadsJson sv.loads sv.repr sv.arith) {caching : Bool}
    {as : List (Attempt Upstream)} {b : Books} {a : Attempt Upstream} {chunks : List PyBytes}
    (hserves : (sv.streamRun caching as b).tried.getLast? = some a) (h : a.answer = .streamed chunks .eof) :
    sv.DeliversOnce chunks.flatten (sv.streamRun caching as b) ↔ sv.SendsOnce a chunks := by
  obtain ⟨s, as', b', hcourse, hraised, hends⟩ := exists_relayAll_of_tried as b rfl hserves
  rw [← relayAll_deliversOnce_iff hjson h]
  constructor
  · rintro ⟨hreturns, hover, horder, hend⟩
    exact ⟨hraised ▸ hreturns, hends ▸ hover, hcourse ▸ horder, hcourse ▸ hend⟩
  · rintro ⟨hreturns, hover, horder, hend⟩
    exact ⟨hraised ▸ hreturns, hends ▸ hover, hcourse ▸ horder, hcourse ▸ hend⟩

/-- A gateway that reads one text. -/
theorem readsJson_hello : ReadsJson (pricedService helloText helloObject).loads
    (pricedService helloText helloObject).repr (pricedService helloText helloObject).arith := by
  have honly : ∀ {s : PyStr} {d : PyDict}, (pricedService helloText helloObject).loads.text s = some (.obj d) →
      s = helloText ∧ helloObject = .obj d := fun {s d} hload ↦ by
    have hload' : (if s = helloText then some helloObject else none) = some (.obj d) := hload
    split_ifs at hload' with heq
    exact ⟨heq, Option.some.inj hload'⟩
  refine ⟨fun {s d} hload ↦ ?_, fun {s t d d'} hload hload' ↦ ?_, fun {s d d'} ascii hload hchange ↦ ?_⟩
  · rw [(honly hload).1]
    decide +kernel
  · obtain ⟨rfl, hd⟩ := honly hload
    obtain ⟨htext, hd'⟩ := honly hload'
    obtain rfl : t = [] := by simpa using htext
    exact ⟨Json.obj.inj (hd'.symm.trans hd), fun c hc ↦ absurd hc List.not_mem_nil⟩
  · obtain ⟨-, hd⟩ := honly hload
    have hplain : normalizeObj d = some (d, false) ∧ shiftUsageObj .exact d = some none := by
      obtain rfl := Json.obj.inj hd
      decide +kernel
    rcases hchange with hchange | hchange
    · rw [hplain.1] at hchange
      cases hchange
    · rw [show (pricedService helloText helloObject).arith = .exact from rfl, hplain.2] at hchange
      cases hchange

/-- A stream of one event, which a blank line ends. -/
theorem deliversOnce_sample :
    (pricedService helloText helloObject).DeliversOnce [eventBytes helloText].flatten
        ((pricedService helloText helloObject).streamRun false
          [{ cutStream with answer := .streamed [eventBytes helloText] .eof }] .empty) ∧
      (pricedService helloText helloObject).SendsOnce
        { cutStream with answer := .streamed [eventBytes helloText] .eof } [eventBytes helloText] := by
  have hiff := deliversOnce_iff (b := .empty) readsJson_hello
    (show ((pricedService helloText helloObject).streamRun false
      [{ cutStream with answer := .streamed [eventBytes helloText] .eof }] .empty).tried.getLast? = some
        { cutStream with answer := .streamed [eventBytes helloText] .eof } from rfl) rfl
  have hevents : eventsOf [eventBytes helloText].flatten = [helloText] := by decide +kernel
  have hdelivers : (pricedService helloText helloObject).DeliversOnce [eventBytes helloText].flatten
      ((pricedService helloText helloObject).streamRun false
        [{ cutStream with answer := .streamed [eventBytes helloText] .eof }] .empty) := by
    have hclient : eventsOf (bytesOf ((pricedService helloText helloObject).streamRun false
        [{ cutStream with answer := .streamed [eventBytes helloText] .eof }] .empty).course).flatten =
          [helloText] ++ [py "[DONE]"] := by decide +kernel
    refine ⟨by decide +kernel, by decide +kernel, ⟨[helloText], ?_, ?_⟩, ?_⟩
    · rw [hevents]
      refine .cons ⟨helloText, by decide +kernel, forall₂_maybeShifted_refl _ _ _ _⟩ .nil
    · rw [hclient, hevents]
      decide
    · rw [hclient, endsOnce_concat_iff]
      decide
  exact ⟨hdelivers, hiff.1 hdelivers⟩

/-- **The sentinel is swallowed.** No blank line ends `data: [DONE]`, which is passed on with the chunk and again
when the response has ended: the client reads one event with both, which is not the sentinel. -/
theorem not_deliversOnce_done :
    ¬ (pricedService helloText helloObject).DeliversOnce [eventBytes helloText, pyb "data: [DONE]\n"].flatten
      ((pricedService helloText helloObject).streamRun false
        [{ cutStream with answer := .streamed [eventBytes helloText, pyb "data: [DONE]\n"] .eof }] .empty) := by
  rintro ⟨-, -, -, hends⟩
  have hclient : eventsOf (bytesOf ((pricedService helloText helloObject).streamRun false
      [{ cutStream with answer := .streamed [eventBytes helloText, pyb "data: [DONE]\n"] .eof }] .empty).course).flatten =
        [helloText] ++ [py "[DONE]\n[DONE]"] := by decide +kernel
  rw [hclient, endsOnce_concat_iff] at hends
  exact absurd hends.1 (by decide)

end Service

end LocalGateway
