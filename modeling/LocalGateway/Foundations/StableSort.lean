import Mathlib.Data.List.Sort

/-!
# What a stable sort puts where

A stable sort by a rank puts an element before another one if its rank is less, or if it is the same and it was
before it already. So whether the elements of the sorted list stand in a relation, each with those after it, can
be told from the list that is sorted (`pairwise_insertionSort_iff`).

Nothing here knows what the elements or the ranks are.
-/

namespace StableSort

variable {α β : Type*} [LinearOrder β] {rank : α → β} {r : α → α → Prop} [DecidableRel r] {P : α → α → Prop}

theorem pairwise_rank_insertionSort (h : ∀ a b, r a b ↔ rank a ≤ rank b) (l : List α) :
    (l.insertionSort r).Pairwise fun a b ↦ rank a ≤ rank b := by
  have htotal : Std.Total r := ⟨fun a b ↦ by
    rw [h, h]
    exact le_total _ _⟩
  have htrans : IsTrans α r := ⟨fun a b c hab hbc ↦ (h a c).2 (((h a b).1 hab).trans ((h b c).1 hbc))⟩
  exact (List.pairwise_insertionSort r l).imp fun {a b} hab ↦ (h a b).1 hab

/-- An element that is inserted comes before those of no smaller rank. -/
theorem pairwise_orderedInsert_iff (h : ∀ a b, r a b ↔ rank a ≤ rank b) {a : α} {l : List α}
    (hl : l.Pairwise fun a b ↦ rank a ≤ rank b) :
    (l.orderedInsert r a).Pairwise P ↔
      l.Pairwise P ∧ ∀ b ∈ l, (rank a ≤ rank b → P a b) ∧ (rank b < rank a → P b a) := by
  induction l with
  | nil => simp
  | cons b l ih =>
    obtain ⟨hb, hl⟩ := List.pairwise_cons.1 hl
    rw [List.orderedInsert_cons]
    split_ifs with hab
    · -- all that follow have no smaller rank, either
      have hle : ∀ c ∈ b :: l, rank a ≤ rank c := by
        rw [h] at hab
        exact List.forall_mem_cons.2 ⟨hab, fun c hc ↦ hab.trans (hb c hc)⟩
      rw [List.pairwise_cons, and_comm]
      refine and_congr_right fun _ ↦ forall₂_congr fun c hc ↦ ?_
      exact ⟨fun hP ↦ ⟨fun _ ↦ hP, fun hlt ↦ absurd (hle c hc) hlt.not_ge⟩, fun hP ↦ hP.1 (hle c hc)⟩
    · rw [h, not_le] at hab
      have hmem : (∀ c ∈ l.orderedInsert r a, P b c) ↔ P b a ∧ ∀ c ∈ l, P b c := by
        simp only [List.mem_orderedInsert, forall_eq_or_imp]
      have hfirst : (rank a ≤ rank b → P a b) ∧ (rank b < rank a → P b a) ↔ P b a :=
        ⟨fun hP ↦ hP.2 hab, fun hP ↦ ⟨fun hle ↦ absurd hle hab.not_ge, fun _ ↦ hP⟩⟩
      rw [List.pairwise_cons, hmem, ih hl, List.pairwise_cons, List.forall_mem_cons, hfirst]
      tauto

/-- **The sorted list, seen from the list that is sorted.** -/
theorem pairwise_insertionSort_iff (h : ∀ a b, r a b ↔ rank a ≤ rank b) {l : List α} :
    (l.insertionSort r).Pairwise P ↔
      l.Pairwise fun a b ↦ (rank a ≤ rank b → P a b) ∧ (rank b < rank a → P b a) := by
  induction l with
  | nil => simp
  | cons a l ih =>
    rw [List.insertionSort_cons, pairwise_orderedInsert_iff h (pairwise_rank_insertionSort h l), ih,
      List.pairwise_cons, and_comm]
    exact and_congr_left' (forall_congr' fun b ↦ imp_congr_left (List.mem_insertionSort r))

end StableSort
