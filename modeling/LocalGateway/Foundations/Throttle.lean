import Mathlib.Algebra.Order.Floor.Semifield
import Mathlib.Data.List.Infix
import Mathlib.Tactic.Linarith
import LocalGateway.Foundations.Window

/-!
# Throttling

A throttle lets an event pass if the last one that passed is some time ago. Events come with times that need not be in
order, as those of threads do that read the clock before it is their turn.

* `spaced_concat`: what passes is spaced, in the order in which it passed.
* `Spaced.within_length_le`: so a closed interval has as many as fit into it.

Nothing here knows what the events are.
-/

namespace Throttle

variable {K : Type*} [Field K] [LinearOrder K]

/-- Each time is some time after those before it. -/
def Spaced (gap : K) (ts : List K) : Prop :=
  ts.Pairwise fun t u ↦ t + gap ≤ u

/-- The last one that passed is some time ago, or none has. -/
def Opens (gap now : K) (last : Option K) : Prop :=
  ∀ t ∈ last, t + gap ≤ now

instance (gap now : K) (last : Option K) : Decidable (Opens gap now last) :=
  inferInstanceAs (Decidable (∀ t ∈ last, _))

variable {gap now : K} {ts : List K}

theorem Spaced.sublist {us : List K} (h : Spaced gap ts) (hsub : us.Sublist ts) : Spaced gap us :=
  List.Pairwise.sublist hsub h

variable [IsStrictOrderedRing K]

/-- **What passes is spaced**, whatever the order of the times that do not. -/
theorem spaced_concat (hgap : 0 ≤ gap) (h : Spaced gap ts) (hopens : Opens gap now ts.getLast?) :
    Spaced gap (ts ++ [now]) := by
  refine List.pairwise_append.2 ⟨h, List.pairwise_singleton _ _, fun t ht u hu ↦ ?_⟩
  rw [List.mem_singleton.1 hu]
  rcases List.eq_nil_or_concat ts with rfl | ⟨before, last, rfl⟩
  · exact absurd ht List.not_mem_nil
  · rw [List.concat_eq_append] at h hopens ht
    have hlast : last + gap ≤ now := hopens last List.getLast?_concat
    rcases List.mem_append.1 ht with ht | ht
    · have hbefore := (List.pairwise_append.1 h).2.2 t ht last (List.mem_singleton.2 rfl)
      linarith
    · rwa [List.mem_singleton.1 ht]

/-- From the first of spaced times to the last there is a gap for every other one. -/
theorem Spaced.length_mul_le {first : K} (h : Spaced gap (first :: ts)) {b : K}
    (hb : ∀ t ∈ first :: ts, t ≤ b) : first + ts.length * gap ≤ b := by
  induction ts generalizing first with
  | nil => simpa using hb first List.mem_cons_self
  | cons t ts ih =>
    obtain ⟨hfirst, hrest⟩ := List.pairwise_cons.1 h
    have hnext := hfirst t List.mem_cons_self
    have hle := ih hrest fun u hu ↦ hb u (List.mem_cons_of_mem _ hu)
    rw [List.length_cons, Nat.cast_succ]
    linarith

variable [FloorSemiring K]

/-- **How many fit** into a closed interval. -/
theorem Spaced.within_length_le (hgap : 0 < gap) (h : Spaced gap ts) (a b : K) :
    (Window.within a b ts).length ≤ ⌊(b - a) / gap⌋₊ + 1 := by
  have hspaced : Spaced gap (Window.within a b ts) := h.sublist List.filter_sublist
  have hmem : ∀ t ∈ Window.within a b ts, a ≤ t ∧ t ≤ b := fun t ht ↦ by
    simpa using (List.mem_filter.1 ht).2
  generalize Window.within a b ts = us at hspaced hmem
  cases us with
  | nil => exact Nat.zero_le _
  | cons first us =>
    have hspan := hspaced.length_mul_le fun t ht ↦ (hmem t ht).2
    have hfirst := (hmem first List.mem_cons_self).1
    rw [List.length_cons]
    refine Nat.succ_le_succ (Nat.le_floor ?_)
    rw [le_div_iff₀ hgap]
    linarith

end Throttle
