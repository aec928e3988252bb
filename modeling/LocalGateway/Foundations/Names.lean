import Mathlib.Data.List.Nodup
import Mathlib.Data.List.Pairwise
import Mathlib.Data.List.Perm.Basic
import Mathlib.Data.List.Sort

/-!
# Names and aliases

Entries have a name and aliases. A resolver looks for an entry with the name first, and else for one
with the alias. A validator goes through the entries once and rejects a name or an alias that it has
seen before.

* `accepted_iff`: what one pass establishes, `Sound` and that no entry has the name of an *earlier* one
  among its aliases.
* `accepts_middle_iff`: an entry of an accepted list is one that `Fits` between the others.
* `resolve_name`, `resolve_alias_iff`: among sound entries a name resolves to its entry, and an alias
  to its entry unless it is the name of another.
* `stable_iff`: the verdict is the same for every order of the entries exactly when they are not sound,
  or no alias is a name, or the references by alias go round in a circle (`Rankable` fails).

What resolves to what rests on the absence of repetitions alone; the verdict has to do with the order.
Nothing here knows what the entries are.
-/

namespace Names

variable {α ν : Type*} (name : α → ν) (aliases : α → List ν)

/-! ### Sound names -/

/-- No name or alias is there twice, and no entry has its own name as an alias. -/
structure Sound (l : List α) : Prop where
  names_nodup : (l.map name).Nodup
  aliases_nodup : (l.flatMap aliases).Nodup
  own : ∀ x ∈ l, name x ∉ aliases x

/-- Some alias is the name of an entry. -/
def Crosses (l : List α) : Prop :=
  ∃ x ∈ l, ∃ y ∈ l, name x ∈ aliases y

/-- The names can be ranked so that an entry is below those whose names it has as aliases. -/
def Rankable (l : List α) : Prop :=
  ∃ rank : ν → ℕ, ∀ x ∈ l, ∀ y ∈ l, name x ∈ aliases y → rank (name y) < rank (name x)

section Sound

variable {name aliases}

theorem sound_nil : Sound name aliases ([] : List α) :=
  ⟨.nil, .nil, by simp⟩

theorem sound_cons_iff {x : α} {l : List α} :
    Sound name aliases (x :: l) ↔
      (∀ y ∈ l, name y ≠ name x) ∧ (aliases x).Nodup ∧
        (∀ y ∈ l, ∀ a ∈ aliases y, a ∉ aliases x) ∧ name x ∉ aliases x ∧ Sound name aliases l := by
  constructor
  · rintro ⟨hnames, haliases, hown⟩
    rw [List.map_cons, List.nodup_cons, List.mem_map] at hnames
    rw [List.flatMap_cons, List.nodup_append'] at haliases
    refine ⟨fun y hy heq ↦ hnames.1 ⟨y, hy, heq⟩, haliases.1, fun y hy a ha hx ↦ ?_,
      hown x List.mem_cons_self, hnames.2, haliases.2.1, fun y hy ↦ hown y (List.mem_cons_of_mem _ hy)⟩
    exact haliases.2.2 hx (List.mem_flatMap.2 ⟨y, hy, ha⟩)
  · rintro ⟨hnames, hnodup, hnew, hown, hsound⟩
    refine ⟨?_, ?_, List.forall_mem_cons.2 ⟨hown, hsound.own⟩⟩
    · rw [List.map_cons, List.nodup_cons, List.mem_map]
      exact ⟨fun ⟨y, hy, heq⟩ ↦ hnames y hy heq, hsound.names_nodup⟩
    · rw [List.flatMap_cons, List.nodup_append']
      refine ⟨hnodup, hsound.aliases_nodup, fun a ha hmem ↦ ?_⟩
      obtain ⟨y, hy, hay⟩ := List.mem_flatMap.1 hmem
      exact hnew y hy a hay ha

theorem sound_perm {l l' : List α} (h : l'.Perm l) :
    Sound name aliases l' ↔ Sound name aliases l :=
  ⟨fun hs ↦ ⟨(h.map name).nodup_iff.1 hs.names_nodup,
      (h.flatMap_right aliases).nodup_iff.1 hs.aliases_nodup, fun x hx ↦ hs.own x (h.mem_iff.2 hx)⟩,
    fun hs ↦ ⟨(h.map name).nodup_iff.2 hs.names_nodup,
      (h.flatMap_right aliases).nodup_iff.2 hs.aliases_nodup, fun x hx ↦ hs.own x (h.mem_iff.1 hx)⟩⟩

end Sound

variable [DecidableEq ν]

/-! ### The resolver and the validator -/

/-- The entry with the name, or else with the alias. -/
def resolve (l : List α) (n : ν) : Option α :=
  (l.find? fun x ↦ name x = n).or (l.find? fun x ↦ n ∈ aliases x)

/-- One alias after the other is new. -/
def aliasesNew (names : List ν) : List ν → List ν → Bool
  | _, [] => true
  | seen, a :: as => decide (a ∉ names ∧ a ∉ seen) && aliasesNew names (a :: seen) as

/-- One entry after the other has a new name and new aliases. -/
def accepts : List ν → List ν → List α → Bool
  | _, _, [] => true
  | names, seen, x :: l =>
    decide (name x ∉ names) && aliasesNew (name x :: names) seen (aliases x) &&
      accepts (name x :: names) (aliases x ++ seen) l

/-! ### What a pass establishes -/

section Pass

variable {name aliases}

theorem aliasesNew_cons {names seen as : List ν} {a : ν} :
    aliasesNew names seen (a :: as) = true ↔
      (a ∉ names ∧ a ∉ seen) ∧ aliasesNew names (a :: seen) as = true := by
  rw [aliasesNew, Bool.and_eq_true, decide_eq_true_iff]

theorem accepts_cons {names seen : List ν} {x : α} {l : List α} :
    accepts name aliases names seen (x :: l) = true ↔
      (name x ∉ names ∧ aliasesNew (name x :: names) seen (aliases x) = true) ∧
        accepts name aliases (name x :: names) (aliases x ++ seen) l = true := by
  rw [accepts, Bool.and_eq_true, Bool.and_eq_true, decide_eq_true_iff]

theorem aliasesNew_iff {names seen as : List ν} :
    aliasesNew names seen as = true ↔
      as.Nodup ∧ ∀ a ∈ as, a ∉ names ∧ a ∉ seen := by
  induction as generalizing seen with
  | nil => simp [aliasesNew]
  | cons a as ih =>
    rw [aliasesNew_cons, ih, List.nodup_cons, List.forall_mem_cons]
    simp only [List.mem_cons, not_or]
    constructor
    · rintro ⟨ha, hnodup, has⟩
      exact ⟨⟨fun hmem ↦ (has a hmem).2.1 rfl, hnodup⟩, ha, fun b hb ↦ ⟨(has b hb).1, (has b hb).2.2⟩⟩
    · rintro ⟨⟨hnew, hnodup⟩, ha, has⟩
      refine ⟨ha, hnodup, fun b hb ↦ ⟨(has b hb).1, ?_, (has b hb).2⟩⟩
      rintro rfl
      exact hnew hb

/-- The pass, from any names and aliases that were seen before. -/
theorem accepts_iff_from {names seen : List ν} {l : List α} :
    accepts name aliases names seen l = true ↔
      (Sound name aliases l ∧ l.Pairwise fun x y ↦ name x ∉ aliases y) ∧
        (∀ x ∈ l, name x ∉ names) ∧ ∀ x ∈ l, ∀ a ∈ aliases x, a ∉ names ∧ a ∉ seen := by
  induction l generalizing names seen with
  | nil => simp [accepts, sound_nil]
  | cons x l ih =>
    rw [accepts_cons, ih, aliasesNew_iff, sound_cons_iff, List.pairwise_cons, List.forall_mem_cons,
      List.forall_mem_cons]
    simp only [List.mem_cons, List.mem_append, not_or]
    constructor
    · rintro ⟨⟨hx, hnodup, has⟩, ⟨hsound, hpair⟩, hnames, hl⟩
      refine ⟨⟨⟨fun y hy ↦ (hnames y hy).1, hnodup, fun y hy a ha ↦ (hl y hy a ha).2.1,
        fun h ↦ (has _ h).1.1 rfl, hsound⟩, fun y hy h ↦ (hl y hy _ h).1.1 rfl, hpair⟩,
        ⟨hx, fun y hy ↦ (hnames y hy).2⟩, fun a ha ↦ ⟨(has a ha).1.2, (has a ha).2⟩,
        fun y hy a ha ↦ ⟨(hl y hy a ha).1.2, (hl y hy a ha).2.2⟩⟩
    · rintro ⟨⟨⟨hdistinct, hnodup, hnew, hown, hsound⟩, hbefore, hpair⟩, ⟨hx, hnames⟩, has, hl⟩
      refine ⟨⟨hx, hnodup, fun a ha ↦ ⟨⟨?_, (has a ha).1⟩, (has a ha).2⟩⟩, ⟨hsound, hpair⟩,
        fun y hy ↦ ⟨hdistinct y hy, hnames y hy⟩,
        fun y hy a ha ↦ ⟨⟨?_, (hl y hy a ha).1⟩, hnew y hy a ha, (hl y hy a ha).2⟩⟩
      · rintro rfl
        exact hown ha
      · rintro rfl
        exact hbefore y hy ha

/-- **What one pass establishes.** -/
theorem accepts_iff {l : List α} :
    accepts name aliases [] [] l = true ↔
      Sound name aliases l ∧ l.Pairwise fun x y ↦ name x ∉ aliases y := by
  simp [accepts_iff_from]

/-- A change of the entries that keeps their names and aliases keeps the verdict. -/
theorem accepts_map {f : α → α} (hname : ∀ x, name (f x) = name x)
    (haliases : ∀ x, aliases (f x) = aliases x) {names seen : List ν} {l : List α} :
    accepts name aliases names seen (l.map f) = accepts name aliases names seen l := by
  induction l generalizing names seen with
  | nil => rfl
  | cons x l ih => rw [List.map_cons, accepts, accepts, hname, haliases, ih]

/-- The entry has a new name and new aliases among the others, none of its aliases is the name of an
earlier entry, and its name is no alias of a later one. -/
structure Fits (name : α → ν) (aliases : α → List ν) (before after : List α) (x : α) : Prop where
  name_new : ∀ y ∈ before ++ after, name y ≠ name x
  aliases_nodup : (aliases x).Nodup
  aliases_new : ∀ y ∈ before ++ after, ∀ a ∈ aliases y, a ∉ aliases x
  own : name x ∉ aliases x
  earlier : ∀ y ∈ before, name y ∉ aliases x
  later : ∀ y ∈ after, name x ∉ aliases y

/-- **One entry among the others.** -/
theorem accepts_middle_iff {before after : List α} {x : α} :
    accepts name aliases [] [] (before ++ x :: after) = true ↔
      accepts name aliases [] [] (before ++ after) = true ∧ Fits name aliases before after x := by
  have hperm : (before ++ x :: after).Perm (x :: (before ++ after)) := List.perm_middle
  rw [accepts_iff, accepts_iff, sound_perm hperm, sound_cons_iff, List.pairwise_append,
    List.pairwise_append, List.pairwise_cons]
  constructor
  · rintro ⟨⟨hname, hnodup, hnew, hown, hsound⟩, hbefore, ⟨hlater, hafter⟩, hcross⟩
    have hrest : ∀ y ∈ before, ∀ z ∈ after, name y ∉ aliases z :=
      fun y hy z hz ↦ hcross y hy z (List.mem_cons_of_mem x hz)
    exact ⟨⟨hsound, hbefore, hafter, hrest⟩, hname, hnodup, hnew, hown,
      fun y hy ↦ hcross y hy x List.mem_cons_self, hlater⟩
  · rintro ⟨⟨hsound, hbefore, hafter, hrest⟩, hfits⟩
    refine ⟨⟨hfits.name_new, hfits.aliases_nodup, hfits.aliases_new, hfits.own, hsound⟩, hbefore,
      ⟨hfits.later, hafter⟩, fun y hy ↦ ?_⟩
    exact List.forall_mem_cons.2 ⟨hfits.earlier y hy, hrest y hy⟩

end Pass

/-! ### What resolves to what -/

section Resolve

variable {name aliases} {l : List α}

omit [DecidableEq ν] in
theorem find?_eq_of_unique {p : α → Bool} {x : α} (hx : x ∈ l) (hp : p x = true)
    (hunique : ∀ y ∈ l, p y = true → y = x) : l.find? p = some x := by
  rcases hfind : l.find? p with - | y
  · exact absurd hp (by simpa using List.find?_eq_none.1 hfind x hx)
  · rw [hunique y (List.mem_of_find?_eq_some hfind) (List.find?_some hfind)]

omit [DecidableEq ν] in
theorem Sound.eq_of_name (h : Sound name aliases l) {x y : α} (hx : x ∈ l) (hy : y ∈ l)
    (heq : name x = name y) : x = y :=
  List.inj_on_of_nodup_map h.names_nodup hx hy heq

omit [DecidableEq ν] in
theorem Sound.eq_of_alias (h : Sound name aliases l) {x y : α} {a : ν} (hx : x ∈ l) (hy : y ∈ l)
    (hax : a ∈ aliases x) (hay : a ∈ aliases y) : x = y := by
  by_contra hne
  have hpair := (List.nodup_flatMap.1 h.aliases_nodup).2
  have hsymm : Std.Symm (Function.onFun List.Disjoint aliases) := ⟨fun _ _ h _ hay hax ↦ h hax hay⟩
  exact hpair.forall hx hy hne hax hay

/-- Among sound entries a name resolves to its entry. -/
theorem resolve_name (h : Sound name aliases l) {x : α} (hx : x ∈ l) :
    resolve name aliases l (name x) = some x := by
  have hfind : l.find? (fun y ↦ name y = name x) = some x :=
    find?_eq_of_unique hx (by simp) fun y hy heq ↦ h.eq_of_name hy hx (by simpa using heq)
  rw [resolve, hfind]
  rfl

/-- **An alias resolves to its entry unless it is the name of another.** -/
theorem resolve_alias_iff (h : Sound name aliases l) {x : α} (hx : x ∈ l) {a : ν}
    (ha : a ∈ aliases x) : resolve name aliases l a = some x ↔ ∀ y ∈ l, name y ≠ a := by
  constructor
  · rintro hresolve y hy rfl
    obtain rfl : x = y := Option.some.inj (hresolve.symm.trans (resolve_name h hy))
    exact h.own x hx ha
  · intro hname
    have hnone : l.find? (fun y ↦ name y = a) = none := by simpa using hname
    have hfind : l.find? (fun y ↦ a ∈ aliases y) = some x :=
      find?_eq_of_unique hx (by simpa using ha) fun y hy hay ↦
        h.eq_of_alias hy hx (by simpa using hay) ha
    rw [resolve, hnone, hfind]
    rfl

end Resolve

/-! ### The order of the entries -/

section Order

variable {name aliases} {l l' : List α}

/-- Sorted by the rank, no entry has the name of an earlier one among its aliases. -/
theorem exists_perm_accepts (h : Sound name aliases l) (hrank : Rankable name aliases l) :
    ∃ l' : List α, l'.Perm l ∧ accepts name aliases [] [] l' = true := by
  obtain ⟨rank, hrank⟩ := hrank
  refine ⟨l.mergeSort fun x y ↦ rank (name x) ≤ rank (name y), List.mergeSort_perm .., ?_⟩
  refine accepts_iff.2 ⟨(sound_perm (List.mergeSort_perm ..)).2 h, ?_⟩
  have hsorted : (l.mergeSort fun x y ↦ rank (name x) ≤ rank (name y)).Pairwise
      fun x y ↦ rank (name x) ≤ rank (name y) := by
    simpa using @List.pairwise_mergeSort _ (fun x y ↦ decide (rank (name x) ≤ rank (name y)))
      (by simpa using fun _ _ _ ↦ le_trans) (by simpa using fun _ _ ↦ le_total _ _) l
  refine hsorted.imp_of_mem fun {x y} hx hy hle hmem ↦ ?_
  have hlt := hrank x ((List.mergeSort_perm ..).mem_iff.1 hx) y
    ((List.mergeSort_perm ..).mem_iff.1 hy) hmem
  exact absurd hle (Nat.not_le.2 hlt)

/-- An entry whose name is an alias can be put before the entry with the alias. -/
theorem exists_perm_rejects (hown : ∀ x ∈ l, name x ∉ aliases x) (h : Crosses name aliases l) :
    ∃ l' : List α, l'.Perm l ∧ accepts name aliases [] [] l' = false := by
  obtain ⟨x, hx, y, hy, hmem⟩ := h
  obtain ⟨s, t, rfl⟩ := List.append_of_mem hx
  have hyne : y ≠ x := by
    rintro rfl
    exact hown y hy hmem
  refine ⟨x :: (s ++ t), List.perm_middle.symm, ?_⟩
  have hy' : y ∈ s ++ t := by simpa [hyne] using hy
  rw [Bool.eq_false_iff]
  intro haccepts
  exact (List.pairwise_cons.1 (accepts_iff.1 haccepts).2).1 y hy' hmem

/-- The places in an accepted list rank the names. -/
theorem rankable_of_accepts (h : accepts name aliases [] [] l = true) : Rankable name aliases l := by
  obtain ⟨hsound, hpair⟩ := accepts_iff.1 h
  refine ⟨fun n ↦ (l.map name).idxOf n, fun x hx y hy hmem ↦ ?_⟩
  obtain ⟨i, hi, rfl⟩ := List.getElem_of_mem hx
  obtain ⟨j, hj, rfl⟩ := List.getElem_of_mem hy
  have hidx : ∀ k (hk : k < l.length), (l.map name).idxOf (name l[k]) = k := by
    intro k hk
    have hk' : k < (l.map name).length := by simpa using hk
    simpa using hsound.names_nodup.idxOf_getElem k hk'
  show (l.map name).idxOf (name l[j]) < (l.map name).idxOf (name l[i])
  rw [hidx i hi, hidx j hj]
  rcases Nat.lt_trichotomy i j with hlt | rfl | hlt
  · exact absurd hmem (List.pairwise_iff_getElem.1 hpair i j hi hj hlt)
  · exact absurd hmem (hsound.own _ hx)
  · exact hlt

omit [DecidableEq ν] in
theorem rankable_perm (h : l'.Perm l) : Rankable name aliases l' → Rankable name aliases l :=
  fun ⟨rank, hrank⟩ ↦ ⟨rank, fun x hx y hy ↦ hrank x (h.mem_iff.2 hx) y (h.mem_iff.2 hy)⟩

/-- **When the order does not matter.** Either the entries are not sound in any order, or no alias is a
name, or there is no order in which they could be accepted. -/
theorem stable_iff :
    (∀ l' : List α, l'.Perm l → accepts name aliases [] [] l' = accepts name aliases [] [] l) ↔
      ¬ Sound name aliases l ∨ ¬ Crosses name aliases l ∨ ¬ Rankable name aliases l := by
  constructor
  · intro hstable
    by_contra hnot
    simp only [not_or, not_not] at hnot
    obtain ⟨hsound, hcrosses, hrank⟩ := hnot
    obtain ⟨l₁, hperm₁, haccepts⟩ := exists_perm_accepts hsound hrank
    obtain ⟨l₂, hperm₂, hrejects⟩ := exists_perm_rejects hsound.own hcrosses
    have heq := (hstable l₁ hperm₁).trans (hstable l₂ hperm₂).symm
    rw [haccepts, hrejects] at heq
    cases heq
  · rintro h l' hperm
    rw [Bool.eq_iff_iff, accepts_iff, accepts_iff, sound_perm hperm]
    refine and_congr_right fun hsound ↦ ?_
    rcases h with h | h | h
    · exact absurd hsound h
    · have hpair : ∀ {k : List α}, k.Perm l → k.Pairwise fun x y ↦ name x ∉ aliases y := fun hk ↦
        List.pairwise_of_forall_mem_list fun x hx y hy hmem ↦
          h ⟨x, hk.mem_iff.1 hx, y, hk.mem_iff.1 hy, hmem⟩
      exact iff_of_true (hpair hperm) (hpair (.refl _))
    · -- there is no order in which a reference goes to a later entry only
      have hnot : ∀ {k : List α}, k.Perm l → ¬ k.Pairwise fun x y ↦ name x ∉ aliases y :=
        fun hk hpair ↦ h (rankable_perm hk
          (rankable_of_accepts (accepts_iff.2 ⟨(sound_perm hk).2 hsound, hpair⟩)))
      exact iff_of_false (hnot hperm) (hnot (.refl _))

end Order

end Names
