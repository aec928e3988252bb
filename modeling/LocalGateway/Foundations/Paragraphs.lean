import Mathlib.Algebra.Order.BigOperators.Group.List
import Mathlib.Algebra.Order.Ring.Nat
import LocalGateway.Foundations.DoubledLines
import LocalGateway.Foundations.Related

/-!
# Paragraphs

The blocks of a text for a reader who does not care what opens them (`paragraphs`), and what such a
reader takes from the lines that say something to it (`readings`).

Without the parity of the blank runs an empty line is a cut and nothing else, so texts may be read
piece by piece (`readings_append_blank`), line by line rewritten (`forall₂_readings`), and with some
of their line ends doubled: `readings_doubled_iff` says that this changes nothing if and only if the
lines of interest of each block stay together.
-/

namespace Lines

variable {α β γ δ : Type}

/-- The blocks of lines, whatever opens them. -/
def paragraphs (ls : List (List α)) : List (List (List α)) :=
  (blocks false [] ls).map Prod.snd

/-- What the lines of each paragraph say, of those where some line says something. -/
def readings (f : List α → Option β) (ls : List (List α)) : List (List β) :=
  ((paragraphs ls).map (·.filterMap f)).filter (!·.isEmpty)

/-! ### One walk -/

/-- What opens a block does not matter to its lines. -/
theorem map_snd_blocks (lead : Bool) (cur ls : List (List α)) :
    (blocks lead cur ls).map Prod.snd = (blocks false cur ls).map Prod.snd := by
  induction ls generalizing lead cur with
  | nil => by_cases hcur : cur = [] <;> simp [blocks, hcur]
  | cons l ls ih =>
    by_cases hl : l = []
    · by_cases hcur : cur = []
      · simp only [blocks, hl, hcur, if_true]
        rw [ih (!lead), ih (!false)]
      · simp [blocks, hl, hcur]
    · simp only [blocks, hl, if_false]
      exact ih lead (cur ++ [l])

/-- The walk with an open block. -/
theorem map_snd_blocks_append_blank (cur ls ms : List (List α)) :
    (blocks false cur (ls ++ [] :: ms)).map Prod.snd =
      (blocks false cur ls).map Prod.snd ++ paragraphs ms := by
  induction ls generalizing cur with
  | nil =>
    by_cases hcur : cur = []
    · simp only [List.nil_append, blocks, hcur, if_true, List.map_nil]
      exact map_snd_blocks _ [] ms
    · simp [blocks, hcur, paragraphs]
  | cons l ls ih =>
    rw [List.cons_append]
    by_cases hl : l = []
    · by_cases hcur : cur = []
      · simp only [blocks, hl, hcur, if_true]
        rw [map_snd_blocks, map_snd_blocks (!false) [] ls, ih]
      · simp only [blocks, hl, hcur, if_true, if_false, List.map_cons, List.cons_append]
        rw [ih]
    · simp only [blocks, hl, if_false]
      exact ih (cur ++ [l])

/-- **An empty line is a cut.** -/
theorem paragraphs_append_blank (ls ms : List (List α)) :
    paragraphs (ls ++ [] :: ms) = paragraphs ls ++ paragraphs ms :=
  map_snd_blocks_append_blank [] ls ms

/-- Lines of which none is empty are one paragraph. -/
theorem paragraphs_of_ne {ls : List (List α)} (h : ∀ l ∈ ls, l ≠ []) :
    paragraphs ls = if ls = [] then [] else [ls] := by
  have happ := blocks_append false [] h []
  rw [List.append_nil, List.nil_append] at happ
  rw [paragraphs, happ, blocks]
  split_ifs <;> rfl

/-- Paragraphs lose nothing but empty lines. -/
theorem flatten_paragraphs (ls : List (List α)) :
    (paragraphs ls).flatten = ls.filter (!·.isEmpty) := by
  rw [paragraphs, ← List.flatMap_def]
  exact flatMap_blocks false [] ls

/-! ### Readings -/

section Readings

variable (f : List α → Option β)

/-- **A text may be read piece by piece.** -/
theorem readings_append_blank (ls ms : List (List α)) :
    readings f (ls ++ [] :: ms) = readings f ls ++ readings f ms := by
  rw [readings, paragraphs_append_blank, List.map_append, List.filter_append]
  rfl

@[simp] theorem readings_nil : readings f ([] : List (List α)) = [] := rfl

theorem readings_cons_blank (ls : List (List α)) : readings f ([] :: ls) = readings f ls :=
  readings_append_blank f [] ls

theorem readings_concat_blank (ls : List (List α)) : readings f (ls ++ [[]]) = readings f ls := by
  rw [readings_append_blank, readings_nil, List.append_nil]

/-- One paragraph is read as one, if it says something. -/
theorem readings_of_ne {ls : List (List α)} (h : ∀ l ∈ ls, l ≠ []) :
    readings f ls = if ls.filterMap f = [] then [] else [ls.filterMap f] := by
  rw [readings, paragraphs_of_ne h]
  by_cases hls : ls = []
  · simp [hls]
  · by_cases hread : ls.filterMap f = [] <;> simp [hls, hread]

/-- A reading is not empty. -/
theorem ne_nil_of_mem_readings {ls : List (List α)} {r : List β} (h : r ∈ readings f ls) : r ≠ [] := by
  simpa using (List.mem_filter.1 h).2

/-- Readings lose nothing of what the lines say. -/
theorem flatten_readings (hf : f [] = none) (ls : List (List α)) :
    (readings f ls).flatten = ls.filterMap f := by
  have hempty : (ls.filter (!·.isEmpty)).filterMap f = ls.filterMap f := by
    rw [List.filterMap_filter]
    refine List.filterMap_congr fun l _ ↦ ?_
    rcases l with - | ⟨a, l⟩
    · exact hf.symm
    · rfl
  rw [readings, List.flatten_filter_not_isEmpty, ← List.filterMap_flatten, flatten_paragraphs,
    hempty]

/-- Lines that are rewritten one by one, empty ones kept apart, are read through the rewriting. -/
theorem readings_map {g : List γ → List α} (hg : ∀ l, g l = [] ↔ l = []) (ls : List (List γ)) :
    readings f (ls.map g) = readings (fun l ↦ f (g l)) ls := by
  have hblocks : ∀ cur : List (List γ), (blocks false (cur.map g) (ls.map g)).map Prod.snd =
      ((blocks false cur ls).map Prod.snd).map (·.map g) := by
    induction ls with
    | nil =>
      intro cur
      by_cases hcur : cur = [] <;> simp [blocks, hcur]
    | cons l ls ih =>
      intro cur
      rw [List.map_cons]
      by_cases hl : l = []
      · by_cases hcur : cur = []
        · simp only [blocks, hcur, hl, (hg []).2 rfl, if_true, List.map_nil]
          rw [map_snd_blocks, map_snd_blocks (!false) [] ls]
          exact ih []
        · have hstep := ih []
          simp only [List.map_nil] at hstep
          simp [blocks, hcur, hl, (hg []).2 rfl, hstep]
      · have hstep := ih (cur ++ [l])
        rw [List.map_append, List.map_singleton] at hstep
        simp only [blocks, hl, mt (hg l).1 hl, if_false]
        exact hstep
  rw [readings, paragraphs, ← List.map_nil (f := g), hblocks []]
  simp [readings, paragraphs, List.filterMap_map, Function.comp_def]

/-- Lines that say related things, place by place, are read alike. -/
theorem forall₂_readings {R : List α → List γ → Prop} {S : β → δ → Prop} {g : List γ → Option δ}
    (hempty : ∀ {l m}, R l m → (m = [] ↔ l = []))
    (hsay : ∀ {l m}, R l m → Option.Rel S (f l) (g m)) {ls : List (List α)} {ms : List (List γ)}
    (h : List.Forall₂ R ls ms) : List.Forall₂ (List.Forall₂ S) (readings f ls) (readings g ms) := by
  have hblocks : ∀ {cur : List (List α)} {cur' : List (List γ)}, List.Forall₂ R cur cur' →
      List.Forall₂ (List.Forall₂ R) ((blocks false cur ls).map Prod.snd)
        ((blocks false cur' ms).map Prod.snd) := by
    induction h with
    | nil =>
      intro cur cur' hcur
      by_cases hnil : cur = []
      · simp [blocks, hnil, (eq_nil_iff_of_forall₂ hcur).2 hnil]
      · simpa [blocks, hnil, mt (eq_nil_iff_of_forall₂ hcur).1 hnil] using hcur
    | @cons l m ls ms hlm _ ih =>
      intro cur cur' hcur
      by_cases hl : l = []
      · by_cases hnil : cur = []
        · simp only [blocks, hl, (hempty hlm).2 hl, hnil, (eq_nil_iff_of_forall₂ hcur).2 hnil, if_true]
          rw [map_snd_blocks, map_snd_blocks (!false) [] ms]
          exact ih .nil
        · simp only [blocks, hl, (hempty hlm).2 hl, hnil, mt (eq_nil_iff_of_forall₂ hcur).1 hnil,
            if_true, if_false, List.map_cons]
          exact .cons hcur (ih .nil)
      · simp only [blocks, hl, mt (hempty hlm).1 hl, if_false]
        exact ih (List.rel_append hcur (.cons hlm .nil))
  have hread : ∀ {p : List (List α)} {q : List (List γ)}, List.Forall₂ R p q →
      List.Forall₂ S (p.filterMap f) (q.filterMap g) := fun hpq ↦
    List.rel_filterMap (fun _ _ hlm ↦ hsay hlm) hpq
  refine forall₂_filter (forall₂_map (hblocks .nil) hread) fun {r r'} hr ↦ ?_
  rw [Bool.eq_iff_iff]
  simpa using not_congr (eq_nil_iff_of_forall₂ hr)

end Readings

/-! ### Doubled line ends -/

section Doubled

variable (f : List α → Option β)

/-- With the line ends of the block doubled, the lines that say something are still in one piece. -/
def Span.Together (sp : Span α) : Prop :=
  (readings f (doubled sp.lines)).length ≤ 1

instance (sp : Span α) : Decidable (sp.Together f) :=
  inferInstanceAs (Decidable (_ ≤ _))

/-- The lines of a block are not empty. -/
theorem ne_nil_of_mem_spans {lead skew : Bool} {cur ls : List (List α × Bool)}
    (hcur : ∀ l ∈ cur, l.1 ≠ []) {sp : Span α} (h : sp ∈ spans lead skew cur ls) :
    ∀ l ∈ sp.lines, l.1 ≠ [] := fun l hl ↦
  ((lines_of_mem_spans (p := fun _ ↦ True) (fun l hl ↦ ⟨hcur l hl, trivial⟩) (fun _ _ ↦ trivial) h).2 l hl).1

/-- The doubled text falls into what becomes of each block. -/
theorem paragraphs_doubled (lead skew : Bool) (cur ls : List (List α × Bool)) :
    paragraphs (doubled (cur ++ ls)) =
      (spans lead skew cur ls).flatMap fun sp ↦ paragraphs (doubled sp.lines) := by
  induction ls generalizing lead skew cur with
  | nil => by_cases hcur : cur = [] <;> simp [spans, hcur, paragraphs, blocks]
  | cons l ls ih =>
    obtain ⟨l, c⟩ := l
    by_cases hl : l = []
    · have hdoubled : doubled (cur ++ (l, c) :: ls) =
          doubled cur ++ [] :: ((if c then [[]] else []) ++ doubled ls) := by
        cases c <;> simp [doubled_append, doubled_cons, hl]
      have hblank : paragraphs ((if c then [[]] else []) ++ doubled ls) = paragraphs (doubled ls) := by
        cases c
        · rfl
        · exact paragraphs_append_blank [] (doubled ls)
      rw [hdoubled, paragraphs_append_blank, hblank, spans, if_pos hl]
      split_ifs with hcur
      · rw [← ih (!lead) (skew ^^ c) [], hcur]
        rfl
      · rw [List.flatMap_cons, ← ih false _ []]
        rfl
    · have hstep := ih lead skew (cur ++ [(l, c)])
      rw [List.append_assoc, List.singleton_append] at hstep
      rw [spans, if_neg hl]
      exact hstep

/-- The blocks of the text itself. -/
theorem paragraphs_map_fst (lead skew : Bool) (cur : List (List α × Bool))
    (hcur : ∀ l ∈ cur, l.1 ≠ []) (ls : List (List α × Bool)) :
    paragraphs ((cur ++ ls).map Prod.fst) =
      (spans lead skew cur ls).flatMap fun sp ↦ paragraphs (sp.lines.map Prod.fst) := by
  induction ls generalizing lead skew cur with
  | nil => by_cases hnil : cur = [] <;> simp [spans, hnil, paragraphs, blocks]
  | cons l ls ih =>
    obtain ⟨l, c⟩ := l
    by_cases hl : l = []
    · rw [List.map_append, List.map_cons, show (l, c).1 = [] from hl, paragraphs_append_blank, spans,
        if_pos hl]
      split_ifs with hnil
      · have hstep := ih (!lead) (skew ^^ c) [] (by simp)
        rw [← hstep, hnil]
        rfl
      · have hstep := ih false (lastCut cur ^^ c) [] (by simp)
        rw [List.flatMap_cons, ← hstep]
        rfl
    · have hstep := ih lead skew (cur ++ [(l, c)]) fun m hm ↦
        (List.mem_append.1 hm).elim (hcur m) fun h ↦ by
          rw [List.mem_singleton.1 h]
          exact hl
      rw [List.append_assoc, List.singleton_append] at hstep
      rw [spans, if_neg hl]
      exact hstep

theorem readings_eq_flatMap {ι : Type} {ls : List (List α)} {xs : List ι} {g : ι → List (List α)}
    (h : paragraphs ls = xs.flatMap fun x ↦ paragraphs (g x)) :
    readings f ls = xs.flatMap fun x ↦ readings f (g x) := by
  rw [readings, h, List.map_flatMap, List.filter_flatMap]
  rfl

/-- Two readings of the same, one of them in at most one piece. -/
theorem length_le_of_flatten_eq {rs ss : List (List β)} (hs : ∀ s ∈ ss, s ≠ [])
    (hle : ss.length ≤ 1) (h : rs.flatten = ss.flatten) : ss.length ≤ rs.length := by
  rcases ss with - | ⟨s, ss⟩
  · exact Nat.zero_le _
  · rcases rs with - | ⟨r, rs⟩
    · exact absurd (List.append_eq_nil_iff.1 h.symm).1 (hs s List.mem_cons_self)
    · simp only [List.length_cons] at hle ⊢
      omega

theorem eq_of_flatten_eq {rs ss : List (List β)} (hr : ∀ r ∈ rs, r ≠ []) (hs : ∀ s ∈ ss, s ≠ [])
    (hrs : rs.length ≤ 1) (hss : ss.length ≤ 1) (h : rs.flatten = ss.flatten) : rs = ss := by
  match rs, ss with
  | [], [] => rfl
  | [r], [s] => simpa using h
  | [], [s] => exact absurd (by simpa using h.symm) (hs s List.mem_cons_self)
  | [r], [] => exact absurd (by simpa using h) (hr r List.mem_cons_self)

theorem filterMap_doubled (hf : f [] = none) (ls : List (List α × Bool)) :
    (doubled ls).filterMap f = (ls.map Prod.fst).filterMap f := by
  induction ls with
  | nil => rfl
  | cons l ls ih =>
    obtain ⟨l, c⟩ := l
    rw [doubled_cons, List.filterMap_append, ih]
    cases c <;> cases hl : f l <;> simp [hf, hl]

/-- Doubled line ends keep what the lines say. -/
theorem flatten_readings_doubled (hf : f [] = none) (ls : List (List α × Bool)) :
    (readings f (doubled ls)).flatten = (readings f (ls.map Prod.fst)).flatten := by
  rw [flatten_readings f hf, flatten_readings f hf, filterMap_doubled f hf]

/-- A block is read as one. -/
theorem length_readings_span {lead skew : Bool} {ls : List (List α × Bool)} {sp : Span α}
    (hsp : sp ∈ spans lead skew [] ls) : (readings f (sp.lines.map Prod.fst)).length ≤ 1 := by
  have hne : ∀ l ∈ sp.lines.map Prod.fst, l ≠ [] := fun l hl ↦ by
    obtain ⟨c, hc, rfl⟩ := List.mem_map.1 hl
    exact ne_nil_of_mem_spans (fun _ h ↦ absurd h List.not_mem_nil) hsp c hc
  rw [readings_of_ne f hne]
  split_ifs <;> simp

theorem readings_spans_doubled (lead skew : Bool) (ls : List (List α × Bool)) :
    readings f (doubled ls) =
      (spans lead skew [] ls).flatMap fun sp ↦ readings f (doubled sp.lines) :=
  readings_eq_flatMap f (paragraphs_doubled lead skew [] ls)

theorem readings_spans (lead skew : Bool) (ls : List (List α × Bool)) :
    readings f (ls.map Prod.fst) =
      (spans lead skew [] ls).flatMap fun sp ↦ readings f (sp.lines.map Prod.fst) :=
  readings_eq_flatMap f (paragraphs_map_fst lead skew [] (fun _ h ↦ absurd h List.not_mem_nil) ls)

/-- Blocks that do not stay in one piece are read as more. -/
theorem together_of_length_le (hf : f [] = none) (lead skew : Bool) (ls : List (List α × Bool))
    (h : (readings f (doubled ls)).length ≤ (readings f (ls.map Prod.fst)).length) :
    ∀ sp ∈ spans lead skew [] ls, sp.Together f := by
  intro sp hsp
  have hle : ∀ sp ∈ spans lead skew [] ls, (readings f (sp.lines.map Prod.fst)).length ≤
      (readings f (doubled sp.lines)).length := fun sp hsp ↦
    length_le_of_flatten_eq (fun _ ↦ ne_nil_of_mem_readings f) (length_readings_span f hsp)
      (flatten_readings_doubled f hf sp.lines)
  by_contra hlt
  have hsum := List.sum_lt_sum _ _ hle ⟨sp, hsp, by
    have := length_readings_span f hsp
    unfold Span.Together at hlt
    omega⟩
  rw [readings_spans_doubled f lead skew, readings_spans f lead skew, List.length_flatMap,
    List.length_flatMap] at h
  omega

/-- A block whose lines stay in one piece is read as it is. -/
theorem readings_span_doubled (hf : f [] = none) {lead skew : Bool} {ls : List (List α × Bool)} {sp : Span α}
    (hsp : sp ∈ spans lead skew [] ls) (h : sp.Together f) :
    readings f (doubled sp.lines) = readings f (sp.lines.map Prod.fst) :=
  eq_of_flatten_eq (fun _ ↦ ne_nil_of_mem_readings f) (fun _ ↦ ne_nil_of_mem_readings f) h
    (length_readings_span f hsp) (flatten_readings_doubled f hf sp.lines)

/-- **When doubled line ends do not matter to a reader of lines.** A text and its doubling are read
the same if and only if the lines of interest of each block stay in one piece. -/
theorem readings_doubled_iff (hf : f [] = none) (lead skew : Bool) (ls : List (List α × Bool)) :
    readings f (doubled ls) = readings f (ls.map Prod.fst) ↔
      ∀ sp ∈ spans lead skew [] ls, sp.Together f := by
  constructor
  · exact fun heq ↦ together_of_length_le f hf lead skew ls (congrArg List.length heq).le
  · intro h
    rw [readings_spans_doubled f lead skew, readings_spans f lead skew]
    exact List.flatMap_congr fun sp hsp ↦ readings_span_doubled f hf hsp (h sp hsp)

end Doubled

/-! ### One piece more -/

section Pieces

variable {ι : Type} {f g : ι → List (List β)} {xs : List ι}

/-- Pieces of readings are no fewer. -/
theorem length_flatMap_le (hle : ∀ x ∈ xs, (g x).length ≤ 1) (hflat : ∀ x ∈ xs, (f x).flatten = (g x).flatten)
    (hg : ∀ x ∈ xs, ∀ r ∈ g x, r ≠ []) : (xs.flatMap g).length ≤ (xs.flatMap f).length := by
  rw [List.length_flatMap, List.length_flatMap]
  exact List.sum_le_sum fun x hx ↦ length_le_of_flatten_eq (hg x hx) (hle x hx) (hflat x hx)

/-- As many pieces are the readings. -/
theorem flatMap_eq_of_length_le (hle : ∀ x ∈ xs, (g x).length ≤ 1)
    (hflat : ∀ x ∈ xs, (f x).flatten = (g x).flatten) (hf : ∀ x ∈ xs, ∀ r ∈ f x, r ≠ [])
    (hg : ∀ x ∈ xs, ∀ r ∈ g x, r ≠ []) (h : (xs.flatMap f).length ≤ (xs.flatMap g).length) :
    xs.flatMap f = xs.flatMap g := by
  induction xs with
  | nil => rfl
  | cons x xs ih =>
    rw [List.forall_mem_cons] at hle hflat hf hg
    have hfirst := length_le_of_flatten_eq hg.1 hle.1 hflat.1
    have hrest := length_flatMap_le hle.2 hflat.2 hg.2
    rw [List.flatMap_cons, List.flatMap_cons, List.length_append, List.length_append] at h
    rw [List.flatMap_cons, List.flatMap_cons, ih hle.2 hflat.2 hf.2 hg.2 (by omega),
      eq_of_flatten_eq hf.1 hg.1 (by omega) hle.1 hflat.1]

/-- **One piece more than there are readings**: the last piece is the last reading, or the end of it, and the
piece before is the rest of it. -/
theorem last_piece_cases (hle : ∀ x ∈ xs, (g x).length ≤ 1)
    (hflat : ∀ x ∈ xs, (f x).flatten = (g x).flatten) (hf : ∀ x ∈ xs, ∀ r ∈ f x, r ≠ [])
    (hg : ∀ x ∈ xs, ∀ r ∈ g x, r ≠ []) (hlength : (xs.flatMap f).length = (xs.flatMap g).length + 1)
    {front : List (List β)} {r : List β} (hlast : xs.flatMap f = front ++ [r]) :
    (∃ rest, xs.flatMap g = rest ++ [r]) ∨
      ∃ rest s, s ≠ [] ∧ front = rest ++ [s] ∧ xs.flatMap g = rest ++ [s ++ r] := by
  induction xs using List.reverseRecOn with
  | nil => simp at hlast
  | append_singleton xs x ih =>
    have hx : x ∈ xs ++ [x] := List.mem_append_right _ (List.mem_singleton_self x)
    have hmem : ∀ y ∈ xs, y ∈ xs ++ [x] := fun y hy ↦ List.mem_append_left _ hy
    have hfewer := length_flatMap_le (fun y hy ↦ hle y (hmem y hy)) (fun y hy ↦ hflat y (hmem y hy))
      fun y hy ↦ hg y (hmem y hy)
    simp only [List.flatMap_append, List.flatMap_singleton, List.length_append] at hlength hlast ⊢
    rcases List.eq_nil_or_concat' (f x) with hnil | ⟨init, r', hfx⟩
    · -- nothing is read there
      have hnone : g x = [] := List.eq_nil_iff_forall_not_mem.2 fun s hs ↦ hg x hx s hs (by
        have hall : (g x).flatten = [] := by rw [← hflat x hx, hnil]; rfl
        exact List.flatten_eq_nil_iff.1 hall s hs)
      rw [hnil, hnone] at hlength
      rw [hnil, List.append_nil] at hlast
      rw [hnone, List.append_nil]
      exact ih (fun y hy ↦ hle y (hmem y hy)) (fun y hy ↦ hflat y (hmem y hy)) (fun y hy ↦ hf y (hmem y hy))
        (fun y hy ↦ hg y (hmem y hy)) hlength hlast
    · rw [hfx, ← List.append_assoc] at hlast
      obtain ⟨rfl, hr⟩ := List.append_inj' hlast rfl
      obtain rfl : r' = r := List.singleton_injective hr
      -- all that is read there is one reading
      obtain ⟨u, hgx⟩ : ∃ u, g x = [u] := by
        have hle := hle x hx
        have hone := length_le_of_flatten_eq (hg x hx) hle (hflat x hx)
        rcases hgx : g x with - | ⟨u, - | ⟨v, us⟩⟩
        · have hnil : (f x).flatten = [] := by rw [hflat x hx, hgx]; rfl
          exact absurd (List.flatten_eq_nil_iff.1 hnil r' (by rw [hfx]; simp)) (hf x hx r' (by rw [hfx]; simp))
        · exact ⟨u, rfl⟩
        · rw [hgx] at hle
          simp at hle
      have hu : init.flatten ++ r' = u := by
        have hboth := hflat x hx
        rw [hfx, hgx] at hboth
        simpa using hboth
      rw [hgx]
      rw [hfx, hgx] at hlength
      rcases init with - | ⟨s, - | ⟨s', init⟩⟩
      · exact .inl ⟨xs.flatMap g, by rw [← hu]; rfl⟩
      · refine .inr ⟨xs.flatMap f, s, hf x hx s (by rw [hfx]; simp), rfl, ?_⟩
        have hsame : xs.flatMap f = xs.flatMap g :=
          flatMap_eq_of_length_le (fun y hy ↦ hle y (hmem y hy)) (fun y hy ↦ hflat y (hmem y hy))
            (fun y hy ↦ hf y (hmem y hy)) (fun y hy ↦ hg y (hmem y hy)) (by
              simp only [List.length_append, List.length_cons, List.length_nil] at hlength
              omega)
        rw [hsame, ← hu]
        simp
      · simp only [List.length_append, List.length_cons, List.length_nil] at hlength
        omega

end Pieces

/-- **One reading more with the line ends doubled**: the last one is read without that, or ends what is, and
the one before is the rest of it. -/
theorem readings_doubled_last_cases {f : List α → Option β} (hf : f [] = none) {ls : List (List α × Bool)}
    (hlength : (readings f (doubled ls)).length = (readings f (ls.map Prod.fst)).length + 1)
    {front : List (List β)} {r : List β} (hlast : readings f (doubled ls) = front ++ [r]) :
    (∃ rest, readings f (ls.map Prod.fst) = rest ++ [r]) ∨
      ∃ rest s, s ≠ [] ∧ front = rest ++ [s] ∧ readings f (ls.map Prod.fst) = rest ++ [s ++ r] := by
  rw [readings_spans_doubled f false false] at hlength hlast
  rw [readings_spans f false false] at hlength ⊢
  exact last_piece_cases (fun sp hsp ↦ length_readings_span f hsp)
    (fun sp _ ↦ flatten_readings_doubled f hf sp.lines) (fun _ _ _ ↦ ne_nil_of_mem_readings f)
    (fun _ _ _ ↦ ne_nil_of_mem_readings f) hlength hlast

end Lines
