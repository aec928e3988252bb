import Mathlib.Algebra.Order.Group.Defs
import Mathlib.Algebra.Order.Group.Unbundled.Basic
import Mathlib.Data.List.Induction

/-!
# Sliding windows

A limiter lets an event pass if fewer than `limit` of the events it let pass lie within some width
before it. It remembers the events in the order of time and forgets those that are too old.

* `purge_append`, `purge_purge`: what was forgotten at some time plays no part at a later one, so the
  remembered events stand for all.
* `length_within_le`: if each event that passed met fewer than `limit`, then no closed interval of the
  width has more than `limit`.
* `length_within_lt_iff`: with no new events there will be fewer as soon as the oldest one is too old.

Nothing here knows what the events are, and times may be those of any clock.
-/

namespace Window

variable {τ : Type*} [AddCommGroup τ] [LinearOrder τ]

/-- The events in a closed interval. -/
def within (a b : τ) (ts : List τ) : List τ :=
  ts.filter fun t ↦ a ≤ t ∧ t ≤ b

/-- What is left when the oldest events are forgotten, as long as they are too old. -/
def purge (width now : τ) (ts : List τ) : List τ :=
  ts.dropWhile fun t ↦ width < now - t

/-- Every event met fewer than `limit` earlier ones within the width before it. -/
def Limited (width : τ) (limit : ℕ) (ts : List τ) : Prop :=
  ∀ past t future, ts = past ++ t :: future → (within (t - width) t past).length < limit

theorem limited_nil (width : τ) (limit : ℕ) : Limited width limit [] := by
  rintro past t future h
  simp at h

theorem limited_concat {width t : τ} {limit : ℕ} {ts : List τ} (h : Limited width limit ts)
    (ht : (within (t - width) t ts).length < limit) : Limited width limit (ts ++ [t]) := by
  rintro past u future heq
  rcases List.eq_nil_or_concat future with rfl | ⟨future, v, rfl⟩
  · obtain ⟨rfl, htu⟩ := List.append_inj' heq rfl
    obtain rfl : t = u := by simpa using htu
    exact ht
  · have heq' : ts ++ [t] = (past ++ u :: future) ++ [v] := by simpa using heq
    exact h past u future (List.append_inj' heq' rfl).1

theorem limited_append_left {width : τ} {limit : ℕ} {ts us : List τ}
    (h : Limited width limit (ts ++ us)) : Limited width limit ts := by
  rintro past t future rfl
  exact h past t (future ++ us) (by simp)

theorem purge_append (width now : τ) {ts us : List τ} (h : purge width now ts = purge width now us)
    (vs : List τ) : purge width now (ts ++ vs) = purge width now (us ++ vs) := by
  unfold purge at h ⊢
  rw [List.dropWhile_append, List.dropWhile_append, h]

variable [IsOrderedAddMonoid τ]

/-- What is too old stays so. -/
theorem purge_purge {width now later : τ} (h : now ≤ later) (ts : List τ) :
    purge width later (purge width now ts) = purge width later ts := by
  induction ts with
  | nil => rfl
  | cons t ts ih =>
    by_cases ht : width < now - t
    · have hlater : width < later - t := ht.trans_le (sub_le_sub_right h t)
      rw [purge, purge, List.dropWhile_cons_of_pos (by simpa using ht), ← purge, ← purge, ih, purge,
        purge, List.dropWhile_cons_of_pos (by simpa using hlater)]
    · rw [purge, purge, List.dropWhile_cons_of_neg (by simpa using ht), ← purge]

/-- Of events in the order of time, those within the width are left. -/
theorem purge_eq_within {width now : τ} {ts : List τ} (hsorted : ts.Pairwise (· ≤ ·))
    (hnow : ∀ t ∈ ts, t ≤ now) : purge width now ts = within (now - width) now ts := by
  induction ts with
  | nil => rfl
  | cons t ts ih =>
    obtain ⟨hle, hsorted⟩ := List.pairwise_cons.1 hsorted
    obtain ⟨htnow, hnow⟩ := List.forall_mem_cons.1 hnow
    by_cases ht : width < now - t
    · have hold : ¬ now - width ≤ t := by
        rw [not_le, lt_sub_comm]
        exact ht
      rw [purge, List.dropWhile_cons_of_pos (by simpa using ht), ← purge, ih hsorted hnow, within,
        within, List.filter_cons_of_neg (by simp [hold])]
    · -- the rest is no older than the first
      have hrecent : ∀ u ∈ t :: ts, now - width ≤ u ∧ u ≤ now := by
        have hge : now - width ≤ t := by
          rw [sub_le_comm]
          exact not_lt.1 ht
        rintro u hu
        rcases List.mem_cons.1 hu with rfl | hu
        · exact ⟨hge, htnow⟩
        · exact ⟨hge.trans (hle u hu), hnow u hu⟩
      rw [purge, List.dropWhile_cons_of_neg (by simpa using ht), within,
        List.filter_eq_self.2 fun u hu ↦ by simpa using hrecent u hu]

/-- **No closed interval of the width has more events than the limit.** -/
theorem length_within_le {width : τ} {limit : ℕ} {ts : List τ} (hsorted : ts.Pairwise (· ≤ ·))
    (h : Limited width limit ts) (a : τ) : (within a (a + width) ts).length ≤ limit := by
  induction ts using List.reverseRecOn with
  | nil => exact Nat.zero_le _
  | append_singleton ts t ih =>
    have hle : ∀ u ∈ ts, u ≤ t := fun u hu ↦
      (List.pairwise_append.1 hsorted).2.2 u hu t List.mem_cons_self
    have hrest := ih (List.pairwise_append.1 hsorted).1 (limited_append_left h)
    rw [within, List.filter_append, ← within, List.length_append]
    by_cases ht : a ≤ t ∧ t ≤ a + width
    · -- the events of the interval are within the width before its last one
      have hsub : (within a (a + width) ts).length ≤ (within (t - width) t ts).length := by
        rw [within, within, ← List.countP_eq_length_filter, ← List.countP_eq_length_filter]
        refine List.countP_mono_left fun u hu hin ↦ ?_
        simp only [decide_eq_true_eq] at hin ⊢
        exact ⟨(sub_le_iff_le_add.2 ht.2).trans hin.1, hle u hu⟩
      have hlt := h ts t [] rfl
      rw [List.filter_cons_of_pos (by simpa using ht)]
      simp only [List.filter_nil, List.length_cons, List.length_nil]
      omega
    · rw [List.filter_cons_of_neg (by simpa using ht)]
      simpa using hrest

/-- Without new events, there are fewer within the width at a later time exactly if the oldest is too old by
then. -/
theorem length_within_lt_iff {width now later oldest : τ} {ts rest : List τ} (hsorted : ts.Pairwise (· ≤ ·))
    (hnow : ∀ t ∈ ts, t ≤ now) (hlater : now ≤ later)
    (hwithin : within (now - width) now ts = oldest :: rest) :
    (within (later - width) later ts).length < (within (now - width) now ts).length ↔
      oldest + width < later := by
  have hsub : within (later - width) later ts = (within (now - width) now ts).filter (later - width ≤ ·) := by
    rw [within, within, List.filter_filter]
    refine List.filter_congr fun t ht ↦ ?_
    have hle : later - width ≤ t → now - width ≤ t := (sub_le_sub_right hlater width).trans
    simpa [hnow t ht, (hnow t ht).trans hlater] using hle
  have hmin : ∀ t ∈ oldest :: rest, oldest ≤ t := by
    have hrest := hsorted.filter fun t ↦ now - width ≤ t ∧ t ≤ now
    rw [← within, hwithin] at hrest
    exact List.forall_mem_cons.2 ⟨le_rfl, (List.pairwise_cons.1 hrest).1⟩
  rw [hsub, hwithin, List.length_filter_lt_length_iff_exists]
  constructor
  · rintro ⟨t, ht, hold⟩
    rw [decide_eq_true_eq, not_le] at hold
    exact lt_sub_iff_add_lt.1 ((hmin t ht).trans_lt hold)
  · intro hold
    refine ⟨oldest, List.mem_cons_self, ?_⟩
    rw [decide_eq_true_eq, not_le]
    exact lt_sub_iff_add_lt.2 hold

end Window
