import Mathlib.Data.List.Basic
import Mathlib.Data.List.DropRight

/-!
# Lines and blank-line blocks

A list over any alphabet, read as text whose lines end at a separator `x`, and the two ways of
cutting it into **blocks separated by a blank line**:

* `drain` cuts at the first `x x`, again and again, and keeps the remainder — the way an incremental
  reader with a buffer does it;
* `blocks` walks over the lines and ends a block at an empty line — the way a grammar states it.

`drain_append` says that the buffer may be fed in pieces; `blocks_drain` says that the two readings
are the same. A blank run of more than two separators is where they could differ: `x x` is consumed
as one unit, so a separator left over opens the next block (its `lead`), and a further one closes an
empty block. `blocks` records that parity and nothing else.

Nothing here knows what the symbols are.
-/

namespace Lines

variable {α : Type*} [DecidableEq α]

/-! ### Lines -/

/-- Induction over the lines of a text: the last line has no separator, every other one is followed
by one. -/
@[elab_as_elim]
theorem induction_on (x : α) {motive : List α → Prop} (s : List α)
    (last : ∀ l, x ∉ l → motive l)
    (line : ∀ l rest, x ∉ l → motive rest → motive (l ++ x :: rest)) : motive s := by
  induction h : s.length using Nat.strongRecOn generalizing s with
  | _ n ih =>
    by_cases hx : x ∈ s
    · obtain ⟨l, rest, rfl, hl⟩ := List.eq_append_cons_of_mem hx
      refine line l rest hl (ih rest.length ?_ rest rfl)
      simp only [List.length_append, List.length_cons] at h
      omega
    · exact last s hx

/-- A text with one line is that line. -/
theorem eq_of_splitOn_eq_singleton {x : α} {s l : List α} (h : s.splitOn x = [l]) : s = l := by
  have hjoin : [x].intercalate (s.splitOn x) = s := List.intercalate_splitOn x
  rw [← hjoin, h]
  exact List.intercalate_singleton

/-- A line holds no separator. -/
theorem not_mem_of_mem_splitOn {x : α} {s l : List α} (hl : l ∈ s.splitOn x) : x ∉ l := by
  induction s using induction_on x with
  | last m hm =>
    rw [List.splitOn_eq_singleton hm, List.mem_singleton] at hl
    exact hl ▸ hm
  | line m rest hm ih =>
    rw [List.splitOn_append_cons_self_of_not_mem hm, List.mem_cons] at hl
    rcases hl with rfl | hl
    · exact hm
    · exact ih hl

/-- The symbols of a line are symbols of the text. -/
theorem mem_of_mem_splitOn {x a : α} {s l : List α} (hl : l ∈ s.splitOn x) (ha : a ∈ l) : a ∈ s := by
  induction s using induction_on x with
  | last m hm =>
    rw [List.splitOn_eq_singleton hm, List.mem_singleton] at hl
    exact hl ▸ ha
  | line m rest hm ih =>
    rw [List.splitOn_append_cons_self_of_not_mem hm, List.mem_cons] at hl
    rcases hl with rfl | hl
    · exact List.mem_append_left _ ha
    · exact List.mem_append_right _ (List.mem_cons_of_mem x (ih hl))

omit [DecidableEq α] in
/-- The symbols of lines that are put together. -/
theorem mem_intercalate {x a : α} {ls : List (List α)} (h : a ∈ [x].intercalate ls) :
    a = x ∨ ∃ l ∈ ls, a ∈ l := by
  induction ls with
  | nil => cases h
  | cons l ls ih =>
    rcases ls with - | ⟨m, ls⟩
    · exact .inr ⟨l, by simp, by simpa [List.intercalate] using h⟩
    · rw [List.intercalate_cons_cons, List.mem_append, List.mem_append] at h
      rcases h with (hl | hx) | hrest
      · exact .inr ⟨l, by simp, hl⟩
      · exact .inl (List.mem_singleton.1 hx)
      · exact (ih hrest).imp_right fun ⟨n, hn, ha⟩ ↦ ⟨n, List.mem_cons_of_mem l hn, ha⟩

/-- A text is determined by its lines. -/
theorem splitOn_injective (x : α) : Function.Injective (List.splitOn x) := fun s t h ↦
  calc s = [x].intercalate (s.splitOn x) := (List.intercalate_splitOn x).symm
    _ = [x].intercalate (t.splitOn x) := by rw [h]
    _ = t := List.intercalate_splitOn x

theorem splitOn_cons_self (x : α) (s : List α) : (x :: s).splitOn x = [] :: s.splitOn x := by
  simp [List.splitOn_cons_eq_if_modifyHead]

/-- A symbol other than the separator opens the first line. -/
theorem splitOn_cons_of_ne {x a : α} (ha : a ≠ x) (s : List α) :
    ∃ m ms, s.splitOn x = m :: ms ∧ (a :: s).splitOn x = (a :: m) :: ms := by
  rcases h : s.splitOn x with - | ⟨m, ms⟩
  · exact absurd h (List.splitOn_ne_nil x s)
  · refine ⟨m, ms, rfl, ?_⟩
    simp [List.splitOn_cons_eq_if_modifyHead, ha, h]

/-- Where two texts meet, the last line of one and the first of the other become one line. -/
theorem splitOn_append {x : α} {s t last first : List α} {init tail : List (List α)}
    (hs : s.splitOn x = init ++ [last]) (ht : t.splitOn x = first :: tail) :
    (s ++ t).splitOn x = init ++ (last ++ first) :: tail := by
  induction s using induction_on x generalizing init with
  | last l hl =>
    rw [List.splitOn_eq_singleton hl] at hs
    have hs' : [] ++ [l] = init ++ [last] := hs
    obtain ⟨rfl, hlast⟩ := List.append_inj' hs' rfl
    obtain rfl : l = last := List.cons.inj hlast |>.1
    by_cases hx : x ∈ t
    · obtain ⟨m, rest, rfl, hm⟩ := List.eq_append_cons_of_mem hx
      rw [List.splitOn_append_cons_self_of_not_mem hm] at ht
      rw [← List.append_assoc, List.splitOn_append_cons_self_of_not_mem (by simp [hl, hm]),
        (List.cons.inj ht).1, (List.cons.inj ht).2]
      rfl
    · rw [List.splitOn_eq_singleton hx] at ht
      rw [List.splitOn_eq_singleton (by simp [hl, hx]), (List.cons.inj ht).1, ← (List.cons.inj ht).2]
      rfl
  | line l rest hl ih =>
    rw [List.splitOn_append_cons_self_of_not_mem hl] at hs
    rcases init with - | ⟨m, init⟩
    · exact absurd (List.cons.inj hs).2 (List.splitOn_ne_nil x rest)
    · rw [List.append_assoc, List.cons_append, List.splitOn_append_cons_self_of_not_mem hl,
        ih (List.cons.inj hs).2, (List.cons.inj hs).1]
      rfl

/-- What precedes the first separator is read off the front of a text. -/
theorem append_cons_inj {x : α} {u v s t : List α} (hu : x ∉ u) (hv : x ∉ v)
    (h : u ++ x :: s = v ++ x :: t) : u = v ∧ s = t := by
  have htake : ∀ {u s : List α}, x ∉ u → (u ++ x :: s).takeWhile (· ≠ x) = u := by
    intro u s hu
    have hpos : ∀ a ∈ u, decide (a ≠ x) = true := fun a ha ↦ by
      simpa using fun (h : a = x) ↦ hu (h ▸ ha)
    rw [List.takeWhile_append_of_pos hpos]
    simp
  have huv : u = v := by rw [← htake hu, h, htake hv]
  subst huv
  exact ⟨rfl, (List.cons.inj (List.append_cancel_left h)).2⟩

/-! ### Cutting at the first blank line -/

variable (x : α)

/-- The text before and after the first `x x`. -/
def splitBlank : List α → Option (List α × List α)
  | [] => none
  | [_] => none
  | a :: b :: s =>
    if a = x ∧ b = x then some ([], s)
    else (splitBlank (b :: s)).map fun p ↦ (a :: p.1, p.2)

/-- The cut is where it should be, and it is the first: what precedes the second `x` holds none. -/
theorem splitBlank_eq_some_iff {s raw rest : List α} :
    splitBlank x s = some (raw, rest) ↔
      s = raw ++ x :: x :: rest ∧ splitBlank x (raw ++ [x]) = none := by
  induction s using splitBlank.induct (x := x) generalizing raw rest with
  | case1 => simp [splitBlank]
  | case2 a =>
    simp only [splitBlank, reduceCtorEq, false_iff, not_and]
    intro h
    have hlen := congrArg List.length h
    simp only [List.length_append, List.length_cons, List.length_nil] at hlen
    omega
  -- the cut is here
  | case3 a b s h =>
    obtain ⟨rfl, rfl⟩ := h
    simp only [splitBlank, and_self, if_true, Option.some.injEq, Prod.mk.injEq]
    constructor
    · rintro ⟨rfl, rfl⟩
      simp [splitBlank]
    · rintro ⟨h, hraw⟩
      rcases raw with - | ⟨c, - | ⟨d, raw⟩⟩
      · simpa using h
      · simp only [List.cons_append, List.nil_append, List.cons.injEq] at h
        simp [splitBlank, ← h.1] at hraw
      · simp only [List.cons_append, List.cons.injEq] at h
        simp [splitBlank, ← h.1, ← h.2.1] at hraw
  -- no cut here: one more character belongs to what precedes it
  | case4 a b s h ih =>
    simp only [splitBlank, h, if_false, Option.map_eq_some_iff, Prod.mk.injEq]
    constructor
    · rintro ⟨⟨raw', rest'⟩, hs, rfl, rfl⟩
      obtain ⟨heq, hnone⟩ := ih.1 hs
      refine ⟨by rw [heq]; rfl, ?_⟩
      rcases raw' with - | ⟨c, raw'⟩
      · simp only [List.nil_append, List.cons.injEq] at heq
        have ha : ¬ a = x := fun ha ↦ h ⟨ha, heq.1⟩
        simp [splitBlank, ha]
      · simp only [List.cons_append, List.cons.injEq] at heq
        have hab : ¬ (a = x ∧ c = x) := heq.1 ▸ h
        simpa [splitBlank, hab] using hnone
    · rintro ⟨heq, hnone⟩
      rcases raw with - | ⟨c, raw⟩
      · simp only [List.nil_append, List.cons.injEq] at heq
        exact absurd ⟨heq.1, heq.2.1⟩ h
      · simp only [List.cons_append, List.cons.injEq] at heq
        obtain ⟨rfl, heq⟩ := heq
        refine ⟨(raw, rest), ih.2 ⟨heq, ?_⟩, rfl, rfl⟩
        rcases raw with - | ⟨d, raw⟩
        · simp [splitBlank]
        · simp only [List.cons_append, splitBlank] at hnone ⊢
          split_ifs at hnone
          simpa using hnone

theorem splitBlank_length {s raw rest : List α} (h : splitBlank x s = some (raw, rest)) :
    rest.length < s.length := by
  rw [((splitBlank_eq_some_iff x).1 h).1]
  simp only [List.length_append, List.length_cons]
  omega

/-- More text after the cut does not move it. -/
theorem splitBlank_append {s raw rest : List α} (h : splitBlank x s = some (raw, rest))
    (t : List α) : splitBlank x (s ++ t) = some (raw, rest ++ t) := by
  obtain ⟨rfl, hnone⟩ := (splitBlank_eq_some_iff x).1 h
  exact (splitBlank_eq_some_iff x).2 ⟨by simp, hnone⟩

/-- A text with two separators in a row has a first place to be cut. -/
theorem splitBlank_ne_none (s t : List α) : splitBlank x (s ++ x :: x :: t) ≠ none := by
  induction s with
  | nil => simp [splitBlank]
  | cons a s ih =>
    rcases s with - | ⟨b, s⟩
    · by_cases ha : a = x <;> simp [splitBlank, ha]
    · simp only [List.cons_append] at ih ⊢
      by_cases h : a = x ∧ b = x
      · simp [splitBlank, h]
      · simpa [splitBlank, h] using ih

theorem getLast?_ne_of_splitBlank {s : List α} (hs : splitBlank x (s ++ [x]) = none) :
    s.getLast? ≠ some x := by
  intro h
  obtain ⟨t, rfl⟩ := List.getLast?_eq_some_iff.1 h
  exact splitBlank_ne_none x t [] (by simpa using hs)

/-- A separator after a text that does not end in one makes no blank line. -/
theorem splitBlank_concat {s : List α} (hs : splitBlank x s = none) (hlast : s.getLast? ≠ some x) :
    splitBlank x (s ++ [x]) = none := by
  induction s using splitBlank.induct (x := x) with
  | case1 => simp [splitBlank]
  | case2 a => simpa [splitBlank] using hlast
  | case3 a b s h => simp [splitBlank, h] at hs
  | case4 a b s h ih =>
    simp only [splitBlank, h, if_false, Option.map_eq_none_iff, List.cons_append] at hs ih ⊢
    exact ih hs (by simpa using hlast)

/-- A text without blank lines ends in one separator or in none; either way what precedes it is
ended by a separator as by a first blank line. -/
theorem rdropWhile_cases {s : List α} (hs : splitBlank x s = none) :
    (s = s.rdropWhile (· = x) ++ [x] ∨ s = s.rdropWhile (· = x)) ∧
      splitBlank x (s.rdropWhile (· = x) ++ [x]) = none := by
  by_cases hlast : s.getLast? = some x
  · obtain ⟨t, rfl⟩ := List.getLast?_eq_some_iff.1 hlast
    have ht : t.rdropWhile (· = x) = t := by
      rw [List.rdropWhile_eq_self_iff]
      intro hne
      have hlast' := getLast?_ne_of_splitBlank x hs
      rw [List.getLast?_eq_some_getLast hne] at hlast'
      simpa using hlast'
    rw [List.rdropWhile_concat_pos _ _ _ (by simp), ht]
    exact ⟨.inl rfl, hs⟩
  · have ht : s.rdropWhile (· = x) = s := by
      rw [List.rdropWhile_eq_self_iff]
      intro hne
      rw [List.getLast?_eq_some_getLast hne] at hlast
      simpa using hlast
    rw [ht]
    exact ⟨.inr rfl, splitBlank_concat x hs hlast⟩

/-! ### Draining a buffer -/

/-- At most `n` rounds of cutting off the text before the first blank line. -/
def drainFuel : ℕ → List α → List (List α) × List α
  | 0, s => ([], s)
  | n + 1, s =>
    match splitBlank x s with
    | none => ([], s)
    | some (raw, rest) => (raw :: (drainFuel n rest).1, (drainFuel n rest).2)

/-- Cut off the text before the first blank line until none is left: the blocks and the remainder.
Every round shortens the text, so its length is enough rounds. -/
def drain (s : List α) : List (List α) × List α :=
  drainFuel x s.length s

/-- Any two sufficient numbers of rounds agree. -/
theorem drainFuel_congr {n m : ℕ} {s : List α} (hn : s.length ≤ n) (hm : s.length ≤ m) :
    drainFuel x n s = drainFuel x m s := by
  induction n generalizing s m with
  | zero =>
    obtain rfl : s = [] := List.eq_nil_of_length_eq_zero (by omega)
    cases m <;> rfl
  | succ n ih =>
    rcases m with - | m
    · obtain rfl : s = [] := List.eq_nil_of_length_eq_zero (by omega)
      rfl
    · rw [drainFuel, drainFuel]
      rcases hs : splitBlank x s with - | ⟨raw, rest⟩
      · rfl
      · have hlt := splitBlank_length x hs
        simp only [ih (s := rest) (m := m) (by omega) (by omega)]

/-- The equation of the loop. -/
theorem drain_eq (s : List α) :
    drain x s = match splitBlank x s with
      | none => ([], s)
      | some (raw, rest) => (raw :: (drain x rest).1, (drain x rest).2) := by
  rcases hs : splitBlank x s with - | ⟨raw, rest⟩
  · unfold drain
    cases s.length <;> simp [drainFuel, hs]
  · have hlt := splitBlank_length x hs
    obtain ⟨n, hn⟩ : ∃ n, s.length = n + 1 := ⟨s.length - 1, by omega⟩
    simp only [drain, hn, drainFuel, hs]
    rw [drainFuel_congr x (m := rest.length) (by omega) (Nat.le_refl _)]

theorem drain_of_none {s : List α} (h : splitBlank x s = none) : drain x s = ([], s) := by
  rw [drain_eq, h]

theorem drain_of_some {s raw rest : List α} (h : splitBlank x s = some (raw, rest)) :
    drain x s = (raw :: (drain x rest).1, (drain x rest).2) := by
  rw [drain_eq, h]

/-- Induction along the rounds of the loop. -/
@[elab_as_elim]
theorem drain_induction {motive : List α → Prop} (s : List α)
    (stop : ∀ s, splitBlank x s = none → motive s)
    (cut : ∀ s raw rest, splitBlank x s = some (raw, rest) → motive rest → motive s) :
    motive s := by
  induction h : s.length using Nat.strongRecOn generalizing s with
  | _ n ih =>
    rcases hs : splitBlank x s with - | ⟨raw, rest⟩
    · exact stop s hs
    · exact cut s raw rest hs (ih rest.length (h ▸ splitBlank_length x hs) rest rfl)

/-- The remainder holds no blank line. -/
theorem splitBlank_drain_snd (s : List α) : splitBlank x (drain x s).2 = none := by
  induction s using drain_induction x with
  | stop s hs => rwa [drain_of_none x hs]
  | cut s raw rest hs ih => rwa [drain_of_some x hs]

theorem drain_snd_suffix (s : List α) : (drain x s).2 <:+ s := by
  induction s using drain_induction x with
  | stop s hs => simp only [drain_of_none x hs, List.suffix_rfl]
  | cut s raw rest hs ih =>
    rw [drain_of_some x hs, ((splitBlank_eq_some_iff x).1 hs).1]
    refine ih.trans ?_
    rw [show raw ++ x :: x :: rest = (raw ++ [x, x]) ++ rest by simp]
    exact List.suffix_append _ _

/-- What the loop cuts holds no inner blank line. -/
theorem splitBlank_drain_fst {s raw : List α} (h : raw ∈ (drain x s).1) :
    splitBlank x (raw ++ [x]) = none := by
  induction s using drain_induction x with
  | stop s hs => simp [drain_of_none x hs] at h
  | cut s raw' rest hs ih =>
    rw [drain_of_some x hs, List.mem_cons] at h
    rcases h with rfl | h
    · exact ((splitBlank_eq_some_iff x).1 hs).2
    · exact ih h

/-- **A buffer may be fed in pieces.** Draining the first piece, then what it left together with the
second, cuts the same blocks as draining both at once. -/
theorem drain_append (s t : List α) :
    drain x (s ++ t) =
      ((drain x s).1 ++ (drain x ((drain x s).2 ++ t)).1, (drain x ((drain x s).2 ++ t)).2) := by
  induction s using drain_induction x with
  | stop s hs => simp [drain_of_none x hs]
  | cut s raw rest hs ih =>
    rw [drain_of_some x hs, drain_of_some x (splitBlank_append x hs t), ih]
    rfl

/-! ### Blocks, line by line -/

/-- Walk over the lines, with `lead` telling whether the current block was opened by a separator
left over from the blank run before it, and `cur` the lines of that block so far. An empty line
before any other toggles `lead`; an empty line after one ends the block. -/
def blocks (lead : Bool) (cur : List (List α)) : List (List α) → List (Bool × List (List α))
  | [] => if cur = [] then [] else [(lead, cur)]
  | l :: ls =>
    if l = [] then
      if cur = [] then blocks (!lead) [] ls else (lead, cur) :: blocks false [] ls
    else blocks lead (cur ++ [l]) ls

/-- The text of a block as the buffer cuts it, without the blank line after it. -/
def blockText (b : Bool × List (List α)) : List α :=
  (if b.1 then [x] else []) ++ [x].intercalate b.2

omit [DecidableEq α] in
theorem blocks_nil_line (lead : Bool) (ls : List (List α)) :
    blocks lead [] ([] :: ls) = blocks (!lead) [] ls := by
  simp [blocks]

omit [DecidableEq α] in
theorem blocks_end_line (lead : Bool) {cur : List (List α)} (hcur : cur ≠ []) (ls : List (List α)) :
    blocks lead cur ([] :: ls) = (lead, cur) :: blocks false [] ls := by
  simp [blocks, hcur]

omit [DecidableEq α] in
theorem blocks_append (lead : Bool) (cur : List (List α)) {ms : List (List α)}
    (hms : ∀ m ∈ ms, m ≠ []) (ls : List (List α)) :
    blocks lead cur (ms ++ ls) = blocks lead (cur ++ ms) ls := by
  induction ms generalizing cur with
  | nil => simp
  | cons m ms ih =>
    have hm : m ≠ [] := hms m List.mem_cons_self
    rw [List.cons_append, blocks, if_neg hm, ih _ fun m h ↦ hms m (List.mem_cons_of_mem _ h),
      List.append_assoc, List.singleton_append]

/-- A text that the first blank line ends has no empty line but possibly its first. -/
theorem ne_nil_of_mem_tail_splitOn {s l : List α} (hs : splitBlank x (s ++ [x]) = none)
    (hl : l ∈ (s.splitOn x).tail) : l ≠ [] := by
  induction s with
  | nil => simp at hl
  | cons a s ih =>
    by_cases ha : a = x
    · subst ha
      rw [splitOn_cons_self, List.tail_cons] at hl
      rcases s with - | ⟨b, s⟩
      · simp [splitBlank] at hs
      · have hb : b ≠ a := by
          rintro rfl
          simp [splitBlank] at hs
        have htl := ih (by simpa [splitBlank, hb] using hs)
        obtain ⟨m, ms, -, hsplit⟩ := splitOn_cons_of_ne hb s
        rw [hsplit] at hl htl
        rcases List.mem_cons.1 hl with rfl | hl
        · simp
        · exact htl hl
    · have hs' : splitBlank x (s ++ [x]) = none := by
        rcases s with - | ⟨b, s⟩
        · simp [splitBlank]
        · simpa [splitBlank, ha] using hs
      obtain ⟨m, ms, hsplit', hsplit⟩ := splitOn_cons_of_ne ha s
      rw [hsplit] at hl
      rw [hsplit'] at ih
      exact ih hs' hl

/-- The block that a text without inner blank lines is: whether a separator opens it, and its
lines. -/
def textBlock (s : List α) : Bool × List (List α) :=
  (decide (s.head? = some x), (s.splitOn x).filter (!·.isEmpty))

omit [DecidableEq α] in
theorem filter_not_isEmpty_eq_self {ls : List (List α)} (h : ∀ l ∈ ls, l ≠ []) :
    ls.filter (!·.isEmpty) = ls :=
  List.filter_eq_self.2 fun l hl ↦ by simpa using h l hl

/-- The two shapes of a text without inner blank lines: a leftover separator before its lines, or
just its lines. -/
theorem textBlock_cases {s : List α} (hs : splitBlank x (s ++ [x]) = none) (hne : s ≠ []) :
    (textBlock x s).2 ≠ [] ∧ (∀ l ∈ (textBlock x s).2, l ≠ []) ∧
      s.splitOn x = (if (textBlock x s).1 then [[]] else []) ++ (textBlock x s).2 := by
  have htail : ∀ l ∈ (s.splitOn x).tail, l ≠ [] := fun l hl ↦ ne_nil_of_mem_tail_splitOn x hs hl
  rcases s with - | ⟨a, s⟩
  · exact absurd rfl hne
  · by_cases ha : a = x
    · subst ha
      rw [splitOn_cons_self, List.tail_cons] at htail
      have hblock : textBlock a (a :: s) = (true, s.splitOn a) := by
        simp [textBlock, splitOn_cons_self, filter_not_isEmpty_eq_self htail]
      rw [hblock, splitOn_cons_self]
      exact ⟨List.splitOn_ne_nil a s, htail, rfl⟩
    · obtain ⟨m, ms, -, hsplit⟩ := splitOn_cons_of_ne ha s
      rw [hsplit, List.tail_cons] at htail
      have hall : ∀ l ∈ (a :: m) :: ms, l ≠ [] := by simpa using htail
      have hblock : textBlock x (a :: s) = (false, (a :: m) :: ms) := by
        simp only [textBlock, hsplit, filter_not_isEmpty_eq_self hall]
        simp [ha]
      rw [hblock, hsplit]
      exact ⟨by simp, hall, rfl⟩

/-- The lines of the text of a block. -/
theorem splitOn_blockText {b : Bool × List (List α)} (hne : b.2 ≠ []) (hx : ∀ l ∈ b.2, x ∉ l) :
    (blockText x b).splitOn x = (if b.1 then [[]] else []) ++ b.2 := by
  obtain ⟨lead, lines⟩ := b
  cases lead with
  | false => simpa [blockText] using List.splitOn_intercalate x hx hne
  | true =>
    rw [blockText, if_pos rfl, List.singleton_append, splitOn_cons_self]
    simpa using List.splitOn_intercalate x hx hne

/-- A block of text lines is determined by its text. -/
theorem blockText_inj {b b' : Bool × List (List α)} (hne : b.2 ≠ []) (hne' : b'.2 ≠ [])
    (hlines : ∀ l ∈ b.2, l ≠ [] ∧ x ∉ l) (hlines' : ∀ l ∈ b'.2, l ≠ [] ∧ x ∉ l)
    (h : blockText x b = blockText x b') : b = b' := by
  have hsplit := congrArg (List.splitOn x) h
  rw [splitOn_blockText x hne fun l hl ↦ (hlines l hl).2,
    splitOn_blockText x hne' fun l hl ↦ (hlines' l hl).2] at hsplit
  obtain ⟨lead, lines⟩ := b
  obtain ⟨lead', lines'⟩ := b'
  cases lead <;> cases lead' <;> simp only [if_true, Bool.false_eq_true, if_false,
    List.nil_append, List.cons_append, List.cons.injEq, true_and] at hsplit
  · rw [hsplit]
  · exact absurd rfl (hlines [] (by simp [hsplit])).1
  · exact absurd rfl (hlines' [] (by simp [← hsplit])).1
  · rw [hsplit]

/-- One text ended by a blank line is one block. -/
theorem blocks_splitOn {s : List α} (hs : splitBlank x (s ++ [x]) = none) (ls : List (List α)) :
    blocks false [] (s.splitOn x ++ [] :: ls) =
      (if s = [] then [] else [textBlock x s]) ++ blocks false [] ls := by
  by_cases hne : s = []
  · subst hne
    simp [blocks]
  · obtain ⟨hlines, hall, hsplit⟩ := textBlock_cases x hs hne
    have hrun : ∀ lead, blocks lead [] ((textBlock x s).2 ++ [] :: ls) =
        (lead, (textBlock x s).2) :: blocks false [] ls := fun lead ↦ by
      rw [blocks_append _ _ hall, List.nil_append, blocks_end_line _ hlines]
    rw [hsplit, if_neg hne, List.append_assoc]
    generalize textBlock x s = block at hrun
    obtain ⟨lead, lines⟩ := block
    cases lead with
    | false => exact hrun false
    | true => exact (blocks_nil_line _ _).trans (hrun true)

/-- The text of a block is what the buffer cut. -/
theorem blockText_textBlock {s : List α} (hs : splitBlank x (s ++ [x]) = none) (hne : s ≠ []) :
    blockText x (textBlock x s) = s := by
  obtain ⟨hlines, -, hsplit⟩ := textBlock_cases x hs hne
  have hs' : s = [x].intercalate ((if (textBlock x s).1 then [[]] else []) ++ (textBlock x s).2) := by
    rw [← hsplit, List.intercalate_splitOn]
  conv_rhs => rw [hs']
  generalize textBlock x s = block at hlines
  obtain ⟨lead, lines⟩ := block
  cases lead with
  | false => simp [blockText]
  | true => simp [blockText, List.intercalate_cons_of_ne_nil hlines]

/-- Lines after which nothing comes are one block. -/
theorem blocks_splitOn_end {s : List α} (hs : splitBlank x (s ++ [x]) = none) :
    blocks false [] (s.splitOn x) = if s = [] then [] else [textBlock x s] := by
  by_cases hne : s = []
  · subst hne
    simp [blocks]
  · obtain ⟨hlines, hall, hsplit⟩ := textBlock_cases x hs hne
    have hrun : ∀ lead, blocks lead [] (textBlock x s).2 = [(lead, (textBlock x s).2)] :=
      fun lead ↦ by
        have happ := blocks_append lead [] hall []
        rw [List.append_nil, List.nil_append] at happ
        rw [happ, blocks, if_neg hlines]
    rw [hsplit, if_neg hne]
    generalize textBlock x s = block at hrun
    obtain ⟨lead, lines⟩ := block
    cases lead with
    | false => exact hrun false
    | true => exact (blocks_nil_line _ _).trans (hrun true)

/-- A text without blank lines is one block, however it ends. -/
theorem blocks_of_splitBlank_none {s : List α} (hs : splitBlank x s = none) :
    blocks false [] (s.splitOn x) =
      if s.rdropWhile (· = x) = [] then [] else [textBlock x (s.rdropWhile (· = x))] := by
  obtain ⟨hend | hend, hcut⟩ := rdropWhile_cases x hs
  · have hnil : ([] : List α).splitOn x = [[]] := List.splitOn_nil x
    conv_lhs => rw [hend]
    rw [List.splitOn_append_cons_self, hnil, blocks_splitOn x hcut]
    simp [blocks]
  · conv_lhs => rw [hend]
    exact blocks_splitOn_end x hcut

/-- **The two readings agree.** The blocks of the lines of a text are the non-empty pieces the
buffer cuts, followed by the blocks of the remainder. -/
theorem blocks_drain (s : List α) :
    blocks false [] (s.splitOn x) =
      ((drain x s).1.filter (!·.isEmpty)).map (textBlock x) ++
        blocks false [] ((drain x s).2.splitOn x) := by
  induction s using drain_induction x with
  | stop s hs => simp [drain_of_none x hs]
  | cut s raw rest hs ih =>
    obtain ⟨rfl, hraw⟩ := (splitBlank_eq_some_iff x).1 hs
    rw [drain_of_some x hs, List.splitOn_append_cons_self, splitOn_cons_self,
      blocks_splitOn x hraw, ih]
    by_cases hne : raw = [] <;> simp [hne]

end Lines
