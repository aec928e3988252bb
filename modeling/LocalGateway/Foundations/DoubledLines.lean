import LocalGateway.Foundations.Lines

/-!
# Doubled line ends

What happens to the blocks of a text when some of its line ends are doubled. A **cut line** is a
line together with a flag that says whether its end is doubled; `doubled` is the text with the
doublings, `map Prod.fst` the text without.

`spans` groups the cut lines of the original text into its blocks and keeps, for each block, what
the doublings do to it: `skew` is the parity of the doubled ends in the blank run before it, which
is what shifts the separator that opens the block, and a doubled end between two of its lines cuts
it in two. `filterMap_blocks_doubled_iff` is the exact statement: for a reader `ev` of blocks that
ignores blocks without a line of interest and is injective on the others, the two texts read the
same if and only if no block of interest is skewed or cut.
-/

namespace Lines

variable {α β : Type*}

/-- The lines of the text in which every flagged line end is doubled. -/
def doubled (ls : List (List α × Bool)) : List (List α) :=
  ls.flatMap fun l ↦ if l.2 then [l.1, []] else [l.1]

/-- A block of the original text, with what the doublings do to it. -/
structure Span (α : Type*) where
  /-- A leftover separator opens the block. -/
  lead : Bool
  /-- An odd number of line ends in the blank run before the block are doubled. -/
  skew : Bool
  /-- The lines of the block, each with whether its end is doubled. -/
  lines : List (List α × Bool)

/-- No line end between two lines of the block is doubled. -/
def Span.Uncut (sp : Span α) : Prop :=
  ∀ l ∈ sp.lines.dropLast, l.2 = false

/-- Whether the end of the last of the lines is doubled. -/
def lastCut (cur : List (List α × Bool)) : Bool :=
  match cur.getLast? with
  | some l => l.2
  | none => false

/-- The blocks of the original text, walking over its cut lines as `blocks` does. -/
def spans (lead skew : Bool) (cur : List (List α × Bool)) : List (List α × Bool) → List (Span α)
  | [] => if cur = [] then [] else [⟨lead, skew, cur⟩]
  | l :: ls =>
    if l.1 = [] then
      if cur = [] then spans (!lead) (skew ^^ l.2) [] ls
      else ⟨lead, skew, cur⟩ :: spans false (lastCut cur ^^ l.2) [] ls
    else spans lead skew (cur ++ [l]) ls

@[simp] theorem doubled_nil : doubled ([] : List (List α × Bool)) = [] := rfl

theorem doubled_cons (l : List α × Bool) (ls : List (List α × Bool)) :
    doubled (l :: ls) = (if l.2 then [l.1, []] else [l.1]) ++ doubled ls :=
  List.flatMap_cons

theorem doubled_append (ls ms : List (List α × Bool)) :
    doubled (ls ++ ms) = doubled ls ++ doubled ms :=
  List.flatMap_append

/-! ### Cut lines of a marked text -/

section Marks

variable [DecidableEq α] (x : α)

/-- The text with its marked separators doubled. -/
def doubleMarks (ms : List (α × Bool)) : List α :=
  ms.flatMap fun m ↦ if m.1 = x ∧ m.2 = true then [x, x] else [m.1]

/-- The lines of a marked text, each with whether the separator that ends it is marked. -/
def cutLines : List (α × Bool) → List (List α × Bool)
  | [] => [([], false)]
  | m :: ms =>
    if m.1 = x then ([], m.2) :: cutLines ms
    else (cutLines ms).modifyHead fun l ↦ (m.1 :: l.1, l.2)

theorem map_fst_cutLines (ms : List (α × Bool)) :
    (cutLines x ms).map Prod.fst = (ms.map Prod.fst).splitOn x := by
  induction ms with
  | nil => simp [cutLines]
  | cons m ms ih =>
    rw [List.map_cons, List.splitOn_cons_eq_if_modifyHead, ← ih, cutLines]
    by_cases hm : m.1 = x
    · simp [hm]
    · rw [if_neg hm, if_neg (by simpa using hm)]
      cases cutLines x ms <;> rfl

/-- Doubling the marked separators doubles the ends of the cut lines. -/
theorem doubled_cutLines (ms : List (α × Bool)) :
    doubled (cutLines x ms) = (doubleMarks x ms).splitOn x := by
  induction ms with
  | nil => simp [cutLines, doubled, doubleMarks]
  | cons m ms ih =>
    have hcons : doubleMarks x (m :: ms) =
        (if m.1 = x ∧ m.2 = true then [x, x] else [m.1]) ++ doubleMarks x ms := List.flatMap_cons
    rw [cutLines, hcons]
    by_cases hm : m.1 = x
    · by_cases hmark : m.2 = true
      · simp [hm, hmark, doubled_cons, ih, splitOn_cons_self]
      · simp [hm, hmark, doubled_cons, ih, splitOn_cons_self]
    · rw [if_neg hm, if_neg fun h ↦ hm h.1, List.singleton_append,
        List.splitOn_cons_eq_if_modifyHead, ← ih, if_neg (by simpa using hm)]
      rcases cutLines x ms with - | ⟨⟨l, c⟩, ls⟩
      · rfl
      · cases c <;> rfl

end Marks

/-! ### The lines of blocks -/

/-- Blocks lose nothing but empty lines. -/
theorem flatMap_blocks (lead : Bool) (cur ls : List (List α)) :
    (blocks lead cur ls).flatMap Prod.snd = cur ++ ls.filter (!·.isEmpty) := by
  induction ls generalizing lead cur with
  | nil => by_cases hcur : cur = [] <;> simp [blocks, hcur]
  | cons l ls ih =>
    by_cases hl : l = []
    · by_cases hcur : cur = []
      · simp [blocks, hl, hcur, ih]
      · simp [blocks, hl, hcur, ih]
    · simp [blocks, hl, ih]

/-- The lines of a block of a doubled text are lines of the original. -/
theorem mem_of_mem_blocks_doubled {lead : Bool} {cur : List (List α × Bool)}
    {b : Bool × List (List α)} {l : List α} (hb : b ∈ blocks lead [] (doubled cur))
    (hl : l ∈ b.2) : l ≠ [] ∧ l ∈ cur.map Prod.fst := by
  have hmem : l ∈ (blocks lead [] (doubled cur)).flatMap Prod.snd :=
    List.mem_flatMap.2 ⟨b, hb, hl⟩
  rw [flatMap_blocks, List.nil_append, List.mem_filter] at hmem
  obtain ⟨hmem, hne⟩ := hmem
  have hne : l ≠ [] := by simpa using hne
  obtain ⟨c, hc, hlc⟩ := List.mem_flatMap.1 hmem
  refine ⟨hne, List.mem_map.2 ⟨c, hc, ?_⟩⟩
  split_ifs at hlc <;> simp_all

/-- Text lines at the start are the first lines of the open block. -/
theorem blocks_map_fst (lead : Bool) {cur : List (List α × Bool)} (hcur : ∀ l ∈ cur, l.1 ≠ [])
    (rest : List (List α)) :
    blocks lead [] (cur.map Prod.fst ++ rest) = blocks lead (cur.map Prod.fst) rest := by
  have hlines : ∀ m ∈ cur.map Prod.fst, m ≠ [] := fun m hm ↦ by
    obtain ⟨c, hc, rfl⟩ := List.mem_map.1 hm
    exact hcur c hc
  rw [blocks_append _ _ hlines, List.nil_append]

/-! ### One block under doublings -/

/-- A run of text lines, doubled and then ended, leaves one leftover separator exactly when its last
line end was doubled. -/
theorem blocks_doubled_end (b : Bool) (acc : List (List α)) {cur : List (List α × Bool)}
    (hne : cur ≠ []) (hcur : ∀ l ∈ cur, l.1 ≠ []) (rest : List (List α)) :
    blocks b acc (doubled cur ++ [] :: rest) =
      blocks b acc (doubled cur) ++ blocks (lastCut cur) [] rest := by
  induction cur generalizing b acc with
  | nil => exact absurd rfl hne
  | cons l cur ih =>
    obtain ⟨l, c⟩ := l
    have hl : l ≠ [] := hcur (l, c) List.mem_cons_self
    have hrest : ∀ m ∈ cur, m.1 ≠ [] := fun m h ↦ hcur m (List.mem_cons_of_mem _ h)
    rcases hcur' : cur with - | ⟨m, ms⟩
    · -- the last line: its end is the block's end, and a doubled one leaves a separator
      cases c <;> simp [doubled_cons, lastCut, blocks, hl]
    · have hstep := fun b acc ↦ ih b acc (by simp [hcur']) hrest
      have hlast : lastCut ((l, c) :: m :: ms) = lastCut (m :: ms) := by
        simp [lastCut, List.getLast?_cons_cons]
      rw [hcur'] at hstep
      rw [hlast, doubled_cons]
      cases c with
      | false => simp [blocks, hl, hstep]
      | true => simp [blocks, hl, hstep]

/-- Without an inner doubling the block stays in one piece. -/
theorem blocks_doubled_uncut (b : Bool) (acc : List (List α)) {cur : List (List α × Bool)}
    (hne : cur ≠ []) (hcur : ∀ l ∈ cur, l.1 ≠ []) (huncut : ∀ l ∈ cur.dropLast, l.2 = false) :
    blocks b acc (doubled cur) = [(b, acc ++ cur.map Prod.fst)] := by
  induction cur generalizing b acc with
  | nil => exact absurd rfl hne
  | cons l cur ih =>
    obtain ⟨l, c⟩ := l
    have hl : l ≠ [] := hcur (l, c) List.mem_cons_self
    have hrest : ∀ m ∈ cur, m.1 ≠ [] := fun m h ↦ hcur m (List.mem_cons_of_mem _ h)
    rcases hcur' : cur with - | ⟨m, ms⟩
    · cases c <;> simp [doubled_cons, blocks, hl]
    · rw [hcur', List.dropLast_cons_of_ne_nil (by simp)] at huncut
      have hc : c = false := huncut (l, c) List.mem_cons_self
      have hstep := ih b (acc ++ [l]) (by simp [hcur']) hrest fun m hm ↦
        huncut m (List.mem_cons_of_mem _ (hcur' ▸ hm))
      rw [hcur'] at hstep
      rw [doubled_cons, hc]
      simpa [blocks, hl] using hstep

/-- With an inner doubling every piece is shorter than the block. -/
theorem length_lt_of_cut {b : Bool} {acc : List (List α)} {cur : List (List α × Bool)}
    (hcur : ∀ l ∈ cur, l.1 ≠ []) (hcut : ∃ l ∈ cur.dropLast, l.2 = true)
    {p : Bool × List (List α)} (hp : p ∈ blocks b acc (doubled cur)) :
    p.2.length < acc.length + cur.length := by
  -- a piece is never longer than what has been read and what comes
  have hle : ∀ (cur : List (List α × Bool)) (b : Bool) (acc : List (List α)),
      (∀ l ∈ cur, l.1 ≠ []) → ∀ p ∈ blocks b acc (doubled cur),
        p.2.length ≤ acc.length + cur.length := by
    intro cur
    induction cur with
    | nil =>
      intro b acc _ p hp
      by_cases hacc : acc = [] <;> simp_all [blocks]
    | cons l cur ih =>
      intro b acc hcur p hp
      obtain ⟨l, c⟩ := l
      have hl : l ≠ [] := hcur (l, c) List.mem_cons_self
      have hrest : ∀ m ∈ cur, m.1 ≠ [] := fun m h ↦ hcur m (List.mem_cons_of_mem _ h)
      rw [doubled_cons] at hp
      cases c with
      | false =>
        have := ih b (acc ++ [l]) hrest p (by simpa [blocks, hl] using hp)
        simp only [List.length_append, List.length_cons, List.length_nil] at this ⊢
        omega
      | true =>
        rcases (by simpa [blocks, hl] using hp : p = (b, acc ++ [l]) ∨ _) with rfl | hp
        · simp
        · have := ih false [] hrest p hp
          simp only [List.length_cons, List.length_nil] at this ⊢
          omega
  induction cur generalizing b acc with
  | nil => simp at hcut
  | cons l cur ih =>
    obtain ⟨l, c⟩ := l
    have hl : l ≠ [] := hcur (l, c) List.mem_cons_self
    have hrest : ∀ m ∈ cur, m.1 ≠ [] := fun m h ↦ hcur m (List.mem_cons_of_mem _ h)
    have hne : cur ≠ [] := by
      rintro rfl
      simp at hcut
    have hpos : 0 < cur.length := List.length_pos_iff.2 hne
    rw [doubled_cons] at hp
    cases c with
    | false =>
      rw [List.dropLast_cons_of_ne_nil hne] at hcut
      have hcut' : ∃ m ∈ cur.dropLast, m.2 = true := by simpa using hcut
      have : p.2.length < (acc ++ [l]).length + cur.length :=
        ih hrest hcut' (b := b) (by simpa [blocks, hl] using hp)
      simp only [List.length_append, List.length_cons, List.length_nil] at this ⊢
      omega
    | true =>
      -- the cut ends a piece before the last line
      rcases (by simpa [blocks, hl] using hp : p = (b, acc ++ [l]) ∨ _) with rfl | hp
      · simp only [List.length_append, List.length_cons, List.length_nil]
        omega
      · have := hle cur false [] hrest p hp
        simp only [List.length_cons, List.length_nil] at this ⊢
        omega

/-! ### The spans of a text -/

/-- The lines of a span are lines of the text, of which none is empty, and there are some. -/
theorem lines_of_mem_spans {p : List α → Prop} {lead skew : Bool} {cur ls : List (List α × Bool)}
    (hcur : ∀ l ∈ cur, l.1 ≠ [] ∧ p l.1) (hls : ∀ l ∈ ls, p l.1) {sp : Span α} (h : sp ∈ spans lead skew cur ls) :
    sp.lines ≠ [] ∧ ∀ l ∈ sp.lines, l.1 ≠ [] ∧ p l.1 := by
  induction ls generalizing lead skew cur with
  | nil =>
    rw [spans] at h
    split_ifs at h with hnil
    · cases h
    · rw [List.mem_singleton.1 h]
      exact ⟨hnil, hcur⟩
  | cons l ls ih =>
    obtain ⟨hl, hrest⟩ := List.forall_mem_cons.1 hls
    rw [spans] at h
    split_ifs at h with hempty hnil
    · exact ih (fun _ h ↦ absurd h List.not_mem_nil) hrest h
    · rcases List.mem_cons.1 h with rfl | h
      · exact ⟨hnil, hcur⟩
      · exact ih (fun _ h ↦ absurd h List.not_mem_nil) hrest h
    · refine ih (fun m hm ↦ ?_) hrest h
      rcases List.mem_append.1 hm with hm | hm
      · exact hcur m hm
      · rw [List.mem_singleton.1 hm]
        exact ⟨hempty, hl⟩

/-- The text falls into its spans. -/
theorem blocks_spans (lead skew : Bool) (cur ls : List (List α × Bool))
    (hcur : ∀ l ∈ cur, l.1 ≠ []) : blocks lead [] ((cur ++ ls).map Prod.fst) =
      (spans lead skew cur ls).map fun sp ↦ (sp.lead, sp.lines.map Prod.fst) := by
  induction ls generalizing lead skew cur with
  | nil =>
    have hlast := blocks_map_fst lead hcur []
    rw [List.append_nil] at hlast
    rw [List.append_nil, hlast, spans, blocks]
    by_cases hne : cur = [] <;> simp [hne]
  | cons l ls ih =>
    obtain ⟨l, c⟩ := l
    by_cases hl : l = []
    · subst hl
      rw [List.map_append, List.map_cons, blocks_map_fst lead hcur, spans, if_pos rfl]
      by_cases hne : cur = []
      · subst hne
        have hstep := ih (!lead) (skew ^^ c) [] (fun _ h ↦ absurd h List.not_mem_nil)
        rw [if_pos rfl, ← hstep]
        simp [blocks]
      · have hstep := ih false (lastCut cur ^^ c) [] (fun _ h ↦ absurd h List.not_mem_nil)
        rw [if_neg hne, List.map_cons, ← hstep, blocks_end_line _ (by simpa using hne)]
        rfl
    · have hstep := ih lead skew (cur ++ [(l, c)]) fun m hm ↦
        (List.mem_append.1 hm).elim (hcur m) fun h ↦ by
          rw [List.mem_singleton.1 h]
          exact hl
      rw [spans, if_neg hl, ← hstep, List.append_assoc, List.singleton_append]

/-- The doubled text falls into what becomes of each span. -/
theorem blocks_doubled_spans (lead skew : Bool) (cur ls : List (List α × Bool))
    (hcur : ∀ l ∈ cur, l.1 ≠ []) : blocks (lead ^^ skew) [] (doubled (cur ++ ls)) =
      (spans lead skew cur ls).flatMap fun sp ↦ blocks (sp.lead ^^ sp.skew) [] (doubled sp.lines) := by
  induction ls generalizing lead skew cur with
  | nil => by_cases hne : cur = [] <;> simp [hne, blocks, spans]
  | cons l ls ih =>
    obtain ⟨l, c⟩ := l
    have hblank : ∀ b : Bool, blocks b [] ((if c then [[]] else []) ++ doubled ls) =
        blocks (b ^^ c) [] (doubled ls) := fun b ↦ by
      cases c <;> simp [blocks]
    by_cases hl : l = []
    · subst hl
      have hdoubled : doubled (([], c) :: ls) =
          ([] : List α) :: ((if c then [[]] else []) ++ doubled ls) := by
        cases c <;> simp [doubled_cons]
      rw [doubled_append, hdoubled, spans, if_pos rfl]
      by_cases hne : cur = []
      · -- a line of the blank run: it flips the separator once, a doubled one twice
        subst hne
        have hstep := ih (!lead) (skew ^^ c) [] (fun _ h ↦ absurd h List.not_mem_nil)
        have hlead : ((!lead) ^^ (skew ^^ c)) = (!(lead ^^ skew) ^^ c) := by
          cases lead <;> cases skew <;> cases c <;> rfl
        rw [if_pos rfl, ← hstep, hlead, doubled_nil, List.nil_append, List.nil_append, blocks_nil_line, hblank]
      · -- the line that ends the open block
        have hstep := ih false (lastCut cur ^^ c) [] (fun _ h ↦ absurd h List.not_mem_nil)
        rw [Bool.false_xor, List.nil_append] at hstep
        rw [if_neg hne, List.flatMap_cons, ← hstep, blocks_doubled_end _ _ hne hcur, hblank]
    · have hstep := ih lead skew (cur ++ [(l, c)]) fun m hm ↦
        (List.mem_append.1 hm).elim (hcur m) fun h ↦ by
          rw [List.mem_singleton.1 h]
          exact hl
      rw [spans, if_neg hl, ← hstep, List.append_assoc, List.singleton_append]

/-! ### Reading a doubled text -/

section Reader

variable {ev : Bool × List (List α) → Option β} {data clean : List α → Prop}
variable (hdata : ∀ b, ev b = none ↔ ∀ l ∈ b.2, ¬ data l)
variable (hinj : ∀ b b', (∀ l ∈ b.2, l ≠ [] ∧ clean l) → (∀ l ∈ b'.2, l ≠ [] ∧ clean l) →
  ev b = ev b' → ev b ≠ none → b = b')

/-- The two readings of a span that holds a line of interest agree only if the span is neither
skewed nor cut; if it is neither, its reading is the one of the block it came from. -/
def Span.Kept (data : List α → Prop) (sp : Span α) : Prop :=
  (∃ l ∈ sp.lines, data l.1) → sp.skew = false ∧ sp.Uncut

include hdata in
/-- A block without a line of interest reads as nothing, however its line ends are doubled. -/
theorem filterMap_blocks_doubled_of_no_data (b : Bool) {cur : List (List α × Bool)}
    (h : ∀ l ∈ cur, ¬ data l.1) : (blocks b [] (doubled cur)).filterMap ev = [] := by
  refine List.filterMap_eq_nil_iff.2 fun p hp ↦ (hdata p).2 fun l hl ↦ ?_
  obtain ⟨c, hc, rfl⟩ := List.mem_map.1 (mem_of_mem_blocks_doubled hp hl).2
  exact h c hc

include hinj in
/-- If some piece of a doubled block reads as the block does, the block is neither skewed nor cut:
a piece of a cut block has too few lines, and the only piece of an uncut one opens as the skew
says. -/
theorem kept_of_mem_blocks_doubled {lead skew : Bool} {cur : List (List α × Bool)}
    (hne : cur ≠ []) (hcur : ∀ l ∈ cur, l.1 ≠ [] ∧ clean l.1) {p : Bool × List (List α)}
    (hp : p ∈ blocks (lead ^^ skew) [] (doubled cur)) (hev : ev p = ev (lead, cur.map Prod.fst))
    (hsome : ev p ≠ none) : skew = false ∧ (Span.mk lead skew cur).Uncut := by
  have hlines : ∀ l ∈ cur.map Prod.fst, l ≠ [] ∧ clean l := fun l hl ↦ by
    obtain ⟨c, hc, rfl⟩ := List.mem_map.1 hl
    exact hcur c hc
  have hpiece : ∀ l ∈ p.2, l ≠ [] ∧ clean l := fun l hl ↦
    hlines l (mem_of_mem_blocks_doubled hp hl).2
  obtain rfl := hinj p (lead, cur.map Prod.fst) hpiece hlines hev hsome
  have huncut : ∀ l ∈ cur.dropLast, l.2 = false := by
    by_contra hcut
    push Not at hcut
    have hlt := length_lt_of_cut (fun l hl ↦ (hcur l hl).1)
      (hcut.imp fun l h ↦ ⟨h.1, by simpa using h.2⟩) hp
    simp at hlt
  refine ⟨?_, huncut⟩
  rw [blocks_doubled_uncut _ _ hne (fun l hl ↦ (hcur l hl).1) huncut, List.mem_singleton,
    Prod.mk.injEq] at hp
  cases lead <;> cases skew <;> simp at hp ⊢

include hdata hinj in
/-- One block before a rest: the two readings agree if and only if the block is kept and the
readings of the rest agree. -/
theorem filterMap_block_append_iff (lead skew : Bool) {cur : List (List α × Bool)}
    (hne : cur ≠ []) (hcur : ∀ l ∈ cur, l.1 ≠ [] ∧ clean l.1) (es fs : List β) :
    (blocks (lead ^^ skew) [] (doubled cur)).filterMap ev ++ es =
        (ev (lead, cur.map Prod.fst)).toList ++ fs ↔
      (Span.mk lead skew cur).Kept data ∧ es = fs := by
  by_cases h : ∃ l ∈ cur, data l.1
  · have hsome : ev (lead, cur.map Prod.fst) ≠ none := fun hnone ↦ by
      obtain ⟨l, hl, hd⟩ := h
      exact (hdata _).1 hnone l.1 (List.mem_map_of_mem hl) hd
    obtain ⟨e, he⟩ := Option.ne_none_iff_exists'.1 hsome
    have hkept : (Span.mk lead skew cur).Kept data ↔
        skew = false ∧ (Span.mk lead skew cur).Uncut := ⟨fun hk ↦ hk h, fun hk _ ↦ hk⟩
    rw [hkept, he]
    constructor
    · -- the first event read is the block's, so some piece reads as the block
      intro heq
      rcases hfirst : (blocks (lead ^^ skew) [] (doubled cur)).filterMap ev with - | ⟨e', es'⟩
      · exfalso
        obtain ⟨l, hl, hd⟩ := h
        have hmem : l.1 ∈ (blocks (lead ^^ skew) [] (doubled cur)).flatMap Prod.snd := by
          rw [flatMap_blocks, List.nil_append, List.mem_filter]
          refine ⟨List.mem_flatMap.2 ⟨l, hl, ?_⟩, by simpa using (hcur l hl).1⟩
          split_ifs <;> simp
        obtain ⟨p, hp, hlp⟩ := List.mem_flatMap.1 hmem
        exact (hdata p).1 (List.filterMap_eq_nil_iff.1 hfirst p hp) l.1 hlp hd
      · rw [hfirst] at heq
        simp only [List.cons_append, Option.toList_some, List.nil_append, List.cons.injEq] at heq
        obtain ⟨p, hp, hev⟩ := List.mem_filterMap.1 (hfirst ▸ List.mem_cons_self)
        have hk := kept_of_mem_blocks_doubled hinj hne hcur hp (by rw [hev, he, heq.1])
          (by simp [hev])
        refine ⟨hk, ?_⟩
        rw [hk.1, Bool.xor_false, blocks_doubled_uncut _ _ hne (fun l hl ↦ (hcur l hl).1) hk.2,
          List.nil_append] at hfirst
        simp only [List.filterMap_cons, he, List.filterMap_nil, List.cons.injEq] at hfirst
        rw [← heq.2, ← hfirst.2, List.nil_append]
    · rintro ⟨⟨rfl, huncut⟩, rfl⟩
      rw [Bool.xor_false, blocks_doubled_uncut _ _ hne (fun l hl ↦ (hcur l hl).1) huncut]
      simp [he]
  · -- neither the block nor a piece of it is an event
    have hnone : ev (lead, cur.map Prod.fst) = none := (hdata _).2 fun l hl hd ↦ by
      obtain ⟨c, hc, rfl⟩ := List.mem_map.1 hl
      exact h ⟨c, hc, hd⟩
    rw [filterMap_blocks_doubled_of_no_data hdata _ fun l hl hd ↦ h ⟨l, hl, hd⟩, hnone]
    simp [Span.Kept, h]

include hdata hinj in
/-- **The readings of a text and of its doubling agree if and only if every span that holds a line
of interest is neither skewed nor cut.** The walk has read the lines `cur` of an open block; the
induction is on the lines still to come. -/
theorem filterMap_blocks_doubled_iff (lead skew : Bool) (cur : List (List α × Bool))
    {ls : List (List α × Bool)} (hcur : ∀ l ∈ cur, l.1 ≠ [] ∧ clean l.1) (hls : ∀ l ∈ ls, clean l.1) :
    (blocks (lead ^^ skew) [] (doubled (cur ++ ls))).filterMap ev =
        (blocks lead [] ((cur ++ ls).map Prod.fst)).filterMap ev ↔
      ∀ sp ∈ spans lead skew cur ls, sp.Kept data := by
  induction ls generalizing lead skew cur with
  | nil =>
    by_cases hne : cur = []
    · simp [hne, blocks, spans]
    · have := filterMap_block_append_iff hdata hinj lead skew hne hcur [] []
      have hlast := blocks_map_fst lead (fun l hl ↦ (hcur l hl).1) []
      rw [blocks, if_neg (by simpa using hne)] at hlast
      simp only [List.append_nil] at this hlast ⊢
      rw [hlast, spans, if_neg hne]
      cases hev : ev (lead, cur.map Prod.fst) <;> simpa [hev] using this
  | cons l ls ih =>
    obtain ⟨l, c⟩ := l
    have hrest : ∀ m ∈ ls, clean m.1 := fun m hm ↦ hls m (List.mem_cons_of_mem _ hm)
    have hblank : ∀ b : Bool, blocks b [] ((if c then [[]] else []) ++ doubled ls) =
        blocks (b ^^ c) [] (doubled ls) := fun b ↦ by
      cases c <;> simp [blocks]
    by_cases hl : l = []
    · subst hl
      have hdoubled : doubled (([], c) :: ls) =
          ([] : List α) :: ((if c then [[]] else []) ++ doubled ls) := by
        cases c <;> simp [doubled_cons]
      rw [doubled_append, hdoubled, List.map_append, List.map_cons,
        blocks_map_fst lead fun l hl ↦ (hcur l hl).1]
      by_cases hne : cur = []
      · -- a line of the blank run: it flips the separator once, a doubled one twice
        subst hne
        have := ih (!lead) (skew ^^ c) [] (by simp) hrest
        have hlead : ((!lead) ^^ (skew ^^ c)) = (!(lead ^^ skew) ^^ c) := by
          cases lead <;> cases skew <;> cases c <;> rfl
        simpa [blocks, hblank, spans, hlead] using this
      · -- the line that ends the open block
        have := ih false (lastCut cur ^^ c) [] (by simp) hrest
        rw [Bool.false_xor] at this
        rw [blocks_doubled_end _ _ hne (fun l hl ↦ (hcur l hl).1), hblank,
          blocks_end_line _ (by simpa using hne), List.filterMap_append, List.filterMap_cons]
        have hblock := filterMap_block_append_iff hdata hinj lead skew hne hcur
          ((blocks (lastCut cur ^^ c) [] (doubled ls)).filterMap ev)
          ((blocks false [] (ls.map Prod.fst)).filterMap ev)
        simp only [List.nil_append] at this
        rw [this] at hblock
        cases hev : ev (lead, cur.map Prod.fst) <;> simpa [hev, spans, hne] using hblock
    · -- a line of the open block
      have := ih lead skew (cur ++ [(l, c)])
        (fun m hm ↦ (List.mem_append.1 hm).elim (hcur m) fun h ↦ by
          rw [List.mem_singleton.1 h]
          exact ⟨hl, hls _ List.mem_cons_self⟩) hrest
      rw [spans, if_neg hl, ← this, List.append_assoc, List.singleton_append]

end Reader

end Lines
