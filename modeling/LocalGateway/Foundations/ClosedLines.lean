import LocalGateway.Foundations.Paragraphs
import Mathlib.Data.List.DropRight

/-!
# Closed paragraphs

A reader that gets a text bit by bit knows a paragraph only when an empty line has ended it. `closed` are
the lines of a text up to the last one that does, `opened` the others: the lines of a paragraph that has
not ended, and the line that has not.

* `closed_append_blank`: an empty line closes what precedes it.
* `paragraphs_drain`: what a buffer cuts are the closed paragraphs.
* `readings_closed_doubled_eq`, `closedTogether_of_length_le`: the closed paragraphs of a text some of whose
  line ends are doubled say what they said, or there are more.
-/

namespace Lines

variable {α β : Type}

/-- The lines up to the last empty line that has ended. -/
def closed (ls : List (List α)) : List (List α) :=
  ls.dropLast.rdropWhile (!·.isEmpty)

/-- The lines that follow. -/
def opened (ls : List (List α)) : List (List α) :=
  ls.dropLast.rtakeWhile (!·.isEmpty) ++ ls.getLast?.toList

/-- What is left of a list ends with what is not dropped. -/
theorem rdropWhile_eq_nil_or_concat {γ : Type} (p : γ → Bool) (s : List γ) :
    s.rdropWhile p = [] ∨ ∃ front a, s.rdropWhile p = front ++ [a] ∧ p a = false := by
  induction s using List.reverseRecOn with
  | nil => exact .inl rfl
  | append_singleton s a ih =>
    cases ha : p a with
    | true =>
      rw [List.rdropWhile_concat_pos _ _ _ ha]
      exact ih
    | false => exact .inr ⟨s, a, List.rdropWhile_concat_neg _ _ _ (by simp [ha]), ha⟩

/-- Closed lines end with an empty one. -/
theorem closed_cases (ls : List (List α)) : closed ls = [] ∨ ∃ front, closed ls = front ++ [[]] := by
  rcases rdropWhile_eq_nil_or_concat (!·.isEmpty) ls.dropLast with hnil | ⟨front, l, heq, hl⟩
  · exact .inl hnil
  · obtain rfl : l = [] := by simpa using hl
    exact .inr ⟨front, heq⟩

/-- The other lines are those of a paragraph, and the one that has not ended. -/
theorem opened_cases {ls : List (List α)} (h : ls ≠ []) : ∃ mid last, opened ls = mid ++ [last] ∧
    ls = closed ls ++ mid ++ [last] ∧ ∀ l ∈ mid, l ≠ [] := by
  refine ⟨ls.dropLast.rtakeWhile (!·.isEmpty), ls.getLast h, ?_, ?_, fun l hl ↦ ?_⟩
  · rw [opened, List.getLast?_eq_some_getLast h]
    rfl
  · rw [closed, List.rdropWhile_append_rtakeWhile, List.dropLast_append_getLast h]
  · simpa using List.mem_rtakeWhile_imp hl

/-- **Closed lines are read apart.** -/
theorem paragraphs_closed_append (ls ms : List (List α)) :
    paragraphs (closed ls ++ ms) = paragraphs (closed ls) ++ paragraphs ms := by
  rcases closed_cases ls with hnil | ⟨front, hfront⟩
  · rw [hnil]
    rfl
  · rw [hfront, List.append_assoc, List.singleton_append, paragraphs_append_blank, paragraphs_append_blank]
    simp [paragraphs, blocks]

theorem rdropWhile_append_cons {γ : Type} {p : γ → Bool} {a : γ} (ha : p a = false) (s t : List γ) :
    (s ++ a :: t).rdropWhile p = s ++ a :: t.rdropWhile p := by
  induction t using List.reverseRecOn with
  | nil => rw [List.rdropWhile_concat_neg _ _ _ (by simp [ha])]; rfl
  | append_singleton t b ih =>
    rw [← List.cons_append, ← List.append_assoc]
    by_cases hb : p b = true
    · rw [List.rdropWhile_concat_pos _ _ _ hb, List.rdropWhile_concat_pos _ _ _ hb, ih]
    · rw [List.rdropWhile_concat_neg _ _ _ hb, List.rdropWhile_concat_neg _ _ _ hb]
      simp

/-- **An empty line closes what precedes it.** -/
theorem closed_append_blank (ls : List (List α)) {ms : List (List α)} (hms : ms ≠ []) :
    closed (ls ++ [] :: ms) = ls ++ [] :: closed ms := by
  rw [closed, List.dropLast_append_of_ne_nil (List.cons_ne_nil _ _), List.dropLast_cons_of_ne_nil hms]
  exact rdropWhile_append_cons rfl ls ms.dropLast

/-- Nothing is closed where no line but the first is empty and has ended. -/
theorem paragraphs_closed_eq_nil {ls : List (List α)} (h : ∀ l ∈ ls.dropLast.tail, l ≠ []) :
    paragraphs (closed ls) = [] := by
  unfold closed
  generalize ls.dropLast = ended at h
  rcases ended with - | ⟨l, ms⟩
  · rfl
  · have hdrop : ms.rdropWhile (!·.isEmpty) = [] := by
      rw [List.rdropWhile_eq_nil_iff]
      exact fun m hm ↦ by simpa using h m hm
    rcases l with - | ⟨a, l⟩
    · have hone := rdropWhile_append_cons (p := fun l : List α ↦ !l.isEmpty) (a := []) rfl [] ms
      rw [List.nil_append, List.nil_append, hdrop] at hone
      rw [hone]
      rfl
    · have hall : ((a :: l) :: ms).rdropWhile (!·.isEmpty) = [] := by
        rw [List.rdropWhile_eq_nil_iff]
        intro m hm
        rcases List.mem_cons.1 hm with rfl | hm
        · rfl
        · simpa using h m hm
      rw [hall]
      rfl

section Drain

variable [DecidableEq α] (x : α)

/-- **What a buffer cuts are the closed paragraphs.** -/
theorem paragraphs_drain (s : List α) :
    paragraphs (closed (s.splitOn x)) =
      ((drain x s).1.filter (!·.isEmpty)).map fun raw ↦ (textBlock x raw).2 := by
  induction s using drain_induction x with
  | stop s hs =>
    rw [drain_of_none x hs]
    refine paragraphs_closed_eq_nil fun l hl ↦ ?_
    obtain ⟨hend, hcut⟩ := rdropWhile_cases x hs
    refine ne_nil_of_mem_tail_splitOn x hcut ?_
    rcases hend with hend | hend
    · rw [hend, List.splitOn_append_cons_self, List.splitOn_nil, List.dropLast_concat] at hl
      exact hl
    · rw [← hend]
      rw [List.tail_dropLast] at hl
      exact List.dropLast_subset _ hl
  | cut s raw rest hs ih =>
    obtain ⟨rfl, hraw⟩ := (splitBlank_eq_some_iff x).1 hs
    rw [drain_of_some x hs, List.splitOn_append_cons_self, splitOn_cons_self,
      closed_append_blank _ (List.splitOn_ne_nil x rest), paragraphs_append_blank, ih]
    have hblock : paragraphs (raw.splitOn x) = if raw = [] then [] else [(textBlock x raw).2] := by
      rw [paragraphs, blocks_splitOn_end x hraw]
      split_ifs <;> rfl
    rw [hblock]
    by_cases hne : raw = [] <;> simp [hne]

/-- What a buffer cuts is part of the text. -/
theorem mem_of_mem_drain_fst {s raw : List α} (h : raw ∈ (drain x s).1) {a : α} (ha : a ∈ raw) : a ∈ s := by
  induction s using drain_induction x with
  | stop s hs => simp [drain_of_none x hs] at h
  | cut s raw' rest hs ih =>
    obtain ⟨rfl, -⟩ := (splitBlank_eq_some_iff x).1 hs
    rw [drain_of_some x hs, List.mem_cons] at h
    rcases h with rfl | h
    · exact List.mem_append_left _ ha
    · exact List.mem_append_right _ (List.mem_cons_of_mem x (List.mem_cons_of_mem x (ih h)))

end Drain

/-! ### Doubled line ends -/

section Doubled

variable (f : List α → Option β)

/-- The cut lines up to the last empty one that has ended. -/
def closedCut (ls : List (List α × Bool)) : List (List α × Bool) :=
  ls.dropLast.rdropWhile (!·.1.isEmpty)

/-- The cut lines that follow and have ended, up to the last doubled end. -/
def openCut (ls : List (List α × Bool)) : List (List α × Bool) :=
  (ls.dropLast.rtakeWhile (!·.1.isEmpty)).rdropWhile (!·.2)

/-- With the line ends doubled, the lines of interest of each closed block stay in one piece, and no line of
interest is closed that was not. -/
def ClosedTogether (ls : List (List α × Bool)) : Prop :=
  (∀ sp ∈ spans false false [] (closedCut ls), sp.Together f) ∧ ∀ l ∈ openCut ls, f l.1 = none

theorem map_rdropWhile {γ δ : Type} (g : γ → δ) (p : δ → Bool) (s : List γ) :
    (s.map g).rdropWhile p = (s.rdropWhile fun c ↦ p (g c)).map g := by
  rw [List.rdropWhile, List.rdropWhile, ← List.map_reverse, List.dropWhile_map, List.map_reverse]
  rfl

theorem closed_map_fst (ls : List (List α × Bool)) :
    closed (ls.map Prod.fst) = (closedCut ls).map Prod.fst := by
  rw [closed, ← List.map_dropLast, map_rdropWhile]
  rfl

/-- A doubled line ends with an empty one. -/
theorem doubled_concat_cases (ls : List (List α × Bool)) {l : List α × Bool} (h : l.1 = [] ∨ l.2 = true) :
    ∃ front, doubled (ls ++ [l]) = front ++ [[]] := by
  obtain ⟨l, c⟩ := l
  rw [doubled_append, doubled_cons]
  cases c with
  | true => exact ⟨doubled ls ++ [l], by simp⟩
  | false =>
    obtain rfl : l = [] := h.resolve_right Bool.false_ne_true
    exact ⟨doubled ls, by simp⟩

/-- The closed lines of a doubled text. -/
theorem closed_doubled {ls : List (List α × Bool)} {l : List α} (h : ls.getLast? = some (l, false)) :
    closed (doubled ls) = doubled (closedCut ls) ++ doubled (openCut ls) := by
  obtain ⟨ended, rfl⟩ := List.getLast?_eq_some_iff.1 h
  have hdrop : (doubled (ended ++ [(l, false)])).dropLast = doubled ended := by
    rw [doubled_append]
    exact List.dropLast_concat
  rw [closed, hdrop, closedCut, openCut, List.dropLast_concat]
  generalize hfront : ended.rdropWhile (!·.1.isEmpty) = front
  generalize hmid : ended.rtakeWhile (!·.1.isEmpty) = mid
  have hended : ended = front ++ mid := by rw [← hfront, ← hmid, List.rdropWhile_append_rtakeWhile]
  -- the lines after the last doubled end are as they were
  have hrest : ∀ l ∈ mid.rtakeWhile (!·.2), l.1 ≠ [] ∧ l.2 = false := fun l hl ↦ by
    have hl' : l ∈ ended.rtakeWhile (!·.1.isEmpty) := hmid ▸ (List.rtakeWhile_suffix _ _).subset hl
    exact ⟨by simpa using List.mem_rtakeWhile_imp hl', by simpa using List.mem_rtakeWhile_imp hl⟩
  have hplain : doubled (mid.rtakeWhile (!·.2)) = (mid.rtakeWhile (!·.2)).map Prod.fst := by
    generalize mid.rtakeWhile (!·.2) = rest at hrest
    induction rest with
    | nil => rfl
    | cons l rest ih =>
      rw [doubled_cons, (hrest l List.mem_cons_self).2, ih fun m hm ↦ hrest m (List.mem_cons_of_mem l hm)]
      rfl
  have hsplit : doubled ended =
      (doubled front ++ doubled (mid.rdropWhile (!·.2))) ++ (mid.rtakeWhile (!·.2)).map Prod.fst := by
    conv_lhs => rw [hended, ← List.rdropWhile_append_rtakeWhile (p := (!·.2)) (l := mid)]
    rw [doubled_append, doubled_append, hplain, List.append_assoc]
  have hlast : doubled front ++ doubled (mid.rdropWhile (!·.2)) = [] ∨
      ∃ s, doubled front ++ doubled (mid.rdropWhile (!·.2)) = s ++ [[]] := by
    rcases rdropWhile_eq_nil_or_concat (!·.2) mid with hnil | ⟨s, l, heq, hl⟩
    · rw [hnil, doubled_nil, List.append_nil, ← hfront]
      rcases rdropWhile_eq_nil_or_concat (!·.1.isEmpty) ended with hnil' | ⟨s, l, heq, hl⟩
      · exact .inl (by rw [hnil']; rfl)
      · rw [heq]
        exact .inr (doubled_concat_cases s (.inl (by simpa using hl)))
    · obtain ⟨t, ht⟩ := doubled_concat_cases s (l := l) (.inr (by simpa using hl))
      rw [heq, ht]
      exact .inr ⟨doubled front ++ t, (List.append_assoc _ _ _).symm⟩
  rw [hsplit]
  have hall : ∀ l ∈ (mid.rtakeWhile (!·.2)).map Prod.fst, (!l.isEmpty) = true := fun l hl ↦ by
    obtain ⟨c, hc, rfl⟩ := List.mem_map.1 hl
    simpa using (hrest c hc).1
  rcases hlast with hnil | ⟨s, hs⟩
  · rw [hnil, List.nil_append]
    exact List.rdropWhile_eq_nil_iff.2 hall
  · rw [hs, List.append_assoc, List.singleton_append, rdropWhile_append_cons rfl,
      List.rdropWhile_eq_nil_iff.2 hall]

/-- Closed lines of a doubled text are read in two parts. -/
theorem readings_closed_doubled {ls : List (List α × Bool)} {l : List α} (h : ls.getLast? = some (l, false)) :
    readings f (closed (doubled ls)) =
      readings f (doubled (closedCut ls)) ++ readings f (doubled (openCut ls)) := by
  rw [closed_doubled h]
  rcases rdropWhile_eq_nil_or_concat (!·.1.isEmpty) ls.dropLast with hnil | ⟨s, l, heq, hl⟩
  · have hcut : closedCut ls = [] := hnil
    rw [hcut]
    rfl
  · obtain ⟨t, ht⟩ := doubled_concat_cases s (l := l) (.inl (by simpa using hl))
    have hcut : doubled (closedCut ls) = t ++ [[]] := by rw [← ht, ← heq]; rfl
    rw [hcut, List.append_assoc, List.singleton_append, readings_append_blank, readings_concat_blank]

/-- Nothing is read where no line is of interest. -/
theorem readings_doubled_eq_nil_iff (hf : f [] = none) (ls : List (List α × Bool)) :
    readings f (doubled ls) = [] ↔ ∀ l ∈ ls, f l.1 = none := by
  have hflatten : (readings f (doubled ls)).flatten = (ls.map Prod.fst).filterMap f := by
    rw [flatten_readings f hf, filterMap_doubled f hf]
  have hnil : (ls.map Prod.fst).filterMap f = [] ↔ ∀ l ∈ ls, f l.1 = none := by simp
  rw [← hnil, ← hflatten, List.flatten_eq_nil_iff]
  refine ⟨fun h r hr ↦ absurd (h ▸ hr) List.not_mem_nil, fun h ↦ List.eq_nil_iff_forall_not_mem.2 ?_⟩
  exact fun r hr ↦ ne_nil_of_mem_readings f hr (h r hr)

/-- **When doubled line ends do not matter to a reader of closed paragraphs.** -/
theorem readings_closed_doubled_eq (hf : f [] = none) {ls : List (List α × Bool)} {l : List α}
    (hlast : ls.getLast? = some (l, false)) (h : ClosedTogether f ls) :
    readings f (closed (doubled ls)) = readings f (closed (ls.map Prod.fst)) := by
  rw [readings_closed_doubled f hlast, closed_map_fst, (readings_doubled_eq_nil_iff f hf _).2 h.2,
    List.append_nil]
  exact (readings_doubled_iff f hf false false (closedCut ls)).2 h.1

/-- Otherwise there are more. -/
theorem closedTogether_of_length_le (hf : f [] = none) {ls : List (List α × Bool)} {l : List α}
    (hlast : ls.getLast? = some (l, false))
    (h : (readings f (closed (doubled ls))).length ≤ (readings f (closed (ls.map Prod.fst))).length) :
    ClosedTogether f ls := by
  rw [readings_closed_doubled f hlast, closed_map_fst, List.length_append] at h
  have htogether := together_of_length_le f hf false false (closedCut ls) (by omega)
  rw [(readings_doubled_iff f hf false false (closedCut ls)).2 htogether] at h
  exact ⟨htogether, (readings_doubled_eq_nil_iff f hf _).1 (List.eq_nil_of_length_eq_zero (by omega))⟩

end Doubled

end Lines
