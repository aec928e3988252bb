import Mathlib.Data.Finset.Image
import Mathlib.Data.List.Sort
import Mathlib.Order.Interval.Finset.Nat

/-!
# Dense ranks

The values of a finite set, numbered in their order from one on.

* `rank s x`: how many values of the set are not greater than `x`.
* `rank_lt_rank_iff`: the numbers are in the order of the values.
* `image_rank`: no number is left out.
* `idxOf_add_one`: in the sorted list of the values, the number of a value is its place.

Nothing here knows what the values are.
-/

namespace DenseRank

variable {α : Type*} [LinearOrder α]

/-- How many of the values are not greater. -/
def rank (s : Finset α) (x : α) : ℕ :=
  (s.filter (· ≤ x)).card

variable {s : Finset α} {x y : α}

theorem rank_mono (h : x ≤ y) : rank s x ≤ rank s y :=
  Finset.card_le_card (Finset.monotone_filter_right s fun _ _ hz ↦ hz.trans h)

/-- **The order of the numbers** is that of the values. -/
theorem rank_lt_rank_iff (hy : y ∈ s) : rank s x < rank s y ↔ x < y := by
  refine ⟨fun h ↦ lt_of_not_ge fun hyx ↦ (rank_mono hyx).not_gt h, fun h ↦ Finset.card_lt_card ?_⟩
  refine (Finset.ssubset_iff_of_subset (Finset.monotone_filter_right s fun _ _ hz ↦ hz.trans h.le)).2 ⟨y, ?_, ?_⟩
  · exact Finset.mem_filter.2 ⟨hy, le_rfl⟩
  · exact fun hmem ↦ (Finset.mem_filter.1 hmem).2.not_gt h

theorem rank_eq_rank_iff (hx : x ∈ s) (hy : y ∈ s) : rank s x = rank s y ↔ x = y := by
  refine ⟨fun h ↦ ?_, congrArg _⟩
  rcases lt_trichotomy x y with hlt | heq | hgt
  · exact absurd h ((rank_lt_rank_iff hy).2 hlt).ne
  · exact heq
  · exact absurd h ((rank_lt_rank_iff hx).2 hgt).ne'

theorem rank_pos (hx : x ∈ s) : 0 < rank s x :=
  Finset.card_pos.2 ⟨x, Finset.mem_filter.2 ⟨hx, le_rfl⟩⟩

theorem rank_le_card (s : Finset α) (x : α) : rank s x ≤ s.card :=
  Finset.card_filter_le s _

/-- **No number is left out.** -/
theorem image_rank (s : Finset α) : s.image (rank s) = Finset.Icc 1 s.card := by
  refine Finset.eq_of_subset_of_card_le (fun n hn ↦ ?_) ?_
  · obtain ⟨x, hx, rfl⟩ := Finset.mem_image.1 hn
    exact Finset.mem_Icc.2 ⟨rank_pos hx, rank_le_card s x⟩
  · have hinj : Set.InjOn (rank s) s := fun x hx y hy h ↦ (rank_eq_rank_iff hx hy).1 h
    rw [Finset.card_image_of_injOn hinj, Nat.card_Icc, Nat.add_sub_cancel]

/-- **The number of a value is its place** in the sorted list. -/
theorem idxOf_add_one {l : List α} (h : l.Pairwise (· < ·)) (hx : x ∈ l) : l.idxOf x + 1 = rank l.toFinset x := by
  induction l with
  | nil => exact absurd hx List.not_mem_nil
  | cons y l ih =>
    obtain ⟨hy, hl⟩ := List.pairwise_cons.1 h
    have hnot : y ∉ l.toFinset := fun hmem ↦ (hy y (List.mem_toFinset.1 hmem)).false
    rcases List.mem_cons.1 hx with rfl | hx
    · have hfilter : (insert x l.toFinset).filter (· ≤ x) = {x} := by
        ext z
        simp only [Finset.mem_filter, Finset.mem_insert, List.mem_toFinset, Finset.mem_singleton]
        refine ⟨?_, fun hz ↦ ⟨.inl hz, hz.le⟩⟩
        rintro ⟨rfl | hz, hle⟩
        · rfl
        · exact absurd (hy z hz) hle.not_gt
      rw [List.idxOf_cons_self, List.toFinset_cons, rank, hfilter, Finset.card_singleton]
    · have hyx := hy x hx
      have hfilter : (insert y l.toFinset).filter (· ≤ x) = insert y (l.toFinset.filter (· ≤ x)) :=
        (Finset.filter_insert _ _ _).trans (if_pos hyx.le)
      rw [List.idxOf_cons_ne l hyx.ne, List.toFinset_cons, rank, hfilter,
        Finset.card_insert_of_notMem fun hmem ↦ hnot (Finset.mem_filter.1 hmem).1]
      exact congrArg (· + 1) (ih hl hx)

end DenseRank
