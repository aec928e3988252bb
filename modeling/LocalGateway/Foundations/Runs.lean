import Mathlib.Data.List.Induction
import Mathlib.Order.Basic

/-!
# Runs of a machine

A deterministic machine `next : σ → ι → σ` driven by a list of inputs. What a run does is a fact
about every input of it, together with the inputs before it and the state it meets: `Every P`.

* `exec_invariant` is the induction: an invariant that may mention the past holds in the state a
  run ends in, provided every input of the run is allowed.
* `every_of_invariant` turns an invariant into a property of every input of every allowed run.
* `Timed` says that the times of the inputs do not go back; `exec_invariant_timed` is the induction
  over such a run.

Nothing here knows what the states or the inputs are.
-/

namespace Runs

variable {σ ι : Type*} (next : σ → ι → σ)

/-- The state a run ends in. -/
def exec (s : σ) (steps : List ι) : σ :=
  steps.foldl next s

@[simp] theorem exec_nil (s : σ) : exec next s [] = s := rfl

theorem exec_append (s : σ) (steps more : List ι) :
    exec next s (steps ++ more) = exec next (exec next s steps) more :=
  List.foldl_append

theorem exec_concat (s : σ) (steps : List ι) (i : ι) :
    exec next s (steps ++ [i]) = next (exec next s steps) i := by
  rw [exec_append]
  rfl

/-- Every input of the run satisfies `P` of the inputs before it, the state it meets and itself. -/
def Every (P : List ι → σ → ι → Prop) (s : σ) (steps : List ι) : Prop :=
  ∀ past i future, steps = past ++ i :: future → P past (exec next s past) i

variable {next}

theorem every_nil (P : List ι → σ → ι → Prop) (s : σ) : Every next P s [] := by
  rintro past i future h
  simp at h

theorem every_append_left {P : List ι → σ → ι → Prop} {s : σ} {steps more : List ι}
    (h : Every next P s (steps ++ more)) : Every next P s steps := by
  rintro past i future rfl
  exact h past i (future ++ more) (by simp)

theorem every_concat_iff {P : List ι → σ → ι → Prop} {s : σ} {steps : List ι} {i : ι} :
    Every next P s (steps ++ [i]) ↔ Every next P s steps ∧ P steps (exec next s steps) i := by
  refine ⟨fun h ↦ ⟨every_append_left h, h steps i [] rfl⟩, ?_⟩
  rintro ⟨hsteps, hi⟩ past j future heq
  rcases List.eq_nil_or_concat future with rfl | ⟨future, k, rfl⟩
  · obtain ⟨rfl, hij⟩ := List.append_inj' heq rfl
    obtain rfl : i = j := by simpa using hij
    exact hi
  · have heq' : steps ++ [i] = (past ++ j :: future) ++ [k] := by simpa using heq
    exact hsteps past j future (List.append_inj' heq' rfl).1

/-- A property that does not mention the past, input by input. -/
theorem every_cons_iff {P : σ → ι → Prop} {s : σ} {i : ι} {steps : List ι} :
    Every next (fun _ ↦ P) s (i :: steps) ↔ P s i ∧ Every next (fun _ ↦ P) (next s i) steps := by
  constructor
  · exact fun h ↦ ⟨h [] i steps rfl, fun past j future heq ↦ h (i :: past) j future (by rw [heq]; rfl)⟩
  · rintro ⟨hi, hsteps⟩ past j future heq
    rcases past with - | ⟨k, past⟩
    · obtain ⟨rfl, rfl⟩ := List.cons.inj heq
      exact hi
    · obtain ⟨rfl, rfl⟩ := List.cons.inj heq
      exact hsteps past j future rfl

/-- **The induction over a run.** The invariant may mention the inputs so far. -/
theorem exec_invariant (Inv : List ι → σ → Prop) {P : List ι → σ → ι → Prop} {s : σ}
    (start : Inv [] s)
    (step : ∀ past s i, Inv past s → P past s i → Inv (past ++ [i]) (next s i))
    {steps : List ι} (h : Every next P s steps) : Inv steps (exec next s steps) := by
  induction steps using List.reverseRecOn with
  | nil => exact start
  | append_singleton steps i ih =>
    obtain ⟨hsteps, hi⟩ := every_concat_iff.1 h
    rw [exec_concat]
    exact step steps _ i (ih hsteps) hi

/-- What an invariant says of the next allowed input holds of every input of an allowed run. -/
theorem every_of_invariant (Inv : List ι → σ → Prop) {P Q : List ι → σ → ι → Prop} {s : σ}
    (start : Inv [] s)
    (step : ∀ past s i, Inv past s → P past s i → Inv (past ++ [i]) (next s i))
    (use : ∀ past s i, Inv past s → P past s i → Q past s i)
    {steps : List ι} (h : Every next P s steps) : Every next Q s steps := by
  rintro past i future rfl
  have hpast : Every next P s past := every_append_left h
  exact use past _ i (exec_invariant Inv start step hpast) (h past i future rfl)

/-- Two properties of the allowed inputs hold of the same runs if they agree in the states of an invariant, which
the inputs with the second one keep. -/
theorem every_iff_of_invariant (Inv : σ → Prop) {A P Q : σ → ι → Prop}
    (agree : ∀ s i, Inv s → A s i → (Q s i ↔ P s i)) (step : ∀ s i, Inv s → A s i → P s i → Inv (next s i)) {s : σ}
    (start : Inv s) {steps : List ι} (allowed : Every next (fun _ ↦ A) s steps) :
    Every next (fun _ ↦ Q) s steps ↔ Every next (fun _ ↦ P) s steps := by
  induction steps generalizing s with
  | nil => exact iff_of_true (every_nil _ s) (every_nil _ s)
  | cons i steps ih =>
    obtain ⟨hi, hsteps⟩ := every_cons_iff.1 allowed
    rw [every_cons_iff, every_cons_iff, agree s i start hi]
    exact and_congr_right fun hP ↦ ih (step s i start hi hP) hsteps

/-- **The simulation over a run.** Two machines stay related if every allowed input keeps them so. -/
theorem exec_simulates {τ : Type*} {next' : τ → ι → τ} (R : σ → τ → Prop) {P : σ → ι → Prop}
    (step : ∀ s t i, R s t → P s i → R (next s i) (next' t i)) {s : σ} {t : τ} (start : R s t) {steps : List ι}
    (h : Every next (fun _ ↦ P) s steps) : R (exec next s steps) (exec next' t steps) := by
  induction steps generalizing s t with
  | nil => exact start
  | cons i steps ih =>
    obtain ⟨hi, hsteps⟩ := every_cons_iff.1 h
    exact ih (step s t i start hi) hsteps

/-- An invariant that needs nothing of the inputs. -/
theorem exec_invariant' (Inv : List ι → σ → Prop) {s : σ} (start : Inv [] s)
    (step : ∀ past s i, Inv past s → Inv (past ++ [i]) (next s i)) (steps : List ι) :
    Inv steps (exec next s steps) :=
  exec_invariant Inv (P := fun _ _ _ ↦ True) start (fun past s i h _ ↦ step past s i h)
    fun _ _ _ _ ↦ trivial

/-! ### Times -/

section Timed

variable {τ : Type*} [Preorder τ]

/-- The times of the inputs do not go back, and none is before the start. -/
def Timed (time : ι → τ) (start : τ) (steps : List ι) : Prop :=
  (start :: steps.map time).Pairwise (· ≤ ·)

instance (time : ι → τ) [DecidableLE τ] (start : τ) (steps : List ι) :
    Decidable (Timed time start steps) :=
  inferInstanceAs (Decidable (List.Pairwise _ _))

/-- No input so far, nor the start, is later than the time. -/
def Until (time : ι → τ) (start : τ) (steps : List ι) (t : τ) : Prop :=
  start ≤ t ∧ ∀ i ∈ steps, time i ≤ t

theorem timed_concat_iff {time : ι → τ} {start : τ} {steps : List ι} {i : ι} :
    Timed time start (steps ++ [i]) ↔ Timed time start steps ∧ Until time start steps (time i) := by
  have hsplit : start :: (steps ++ [i]).map time = (start :: steps.map time) ++ [time i] := by simp
  rw [Timed, hsplit, List.pairwise_append]
  simp [Timed, Until]

theorem timed_append_left {time : ι → τ} {start : τ} {steps more : List ι}
    (h : Timed time start (steps ++ more)) : Timed time start steps := by
  rw [Timed, List.map_append, ← List.cons_append, List.pairwise_append] at h
  exact h.1

/-- The inputs before one of a timed run are not later. -/
theorem Timed.until {time : ι → τ} {start : τ} {past future : List ι} {i : ι}
    (h : Timed time start (past ++ i :: future)) : Until time start past (time i) := by
  have hsplit : past ++ i :: future = (past ++ [i]) ++ future := by simp
  rw [hsplit] at h
  exact (timed_concat_iff.1 (timed_append_left h)).2

/-- **The induction over a timed run.** -/
theorem exec_invariant_timed {time : ι → τ} {start : τ} (Inv : List ι → σ → Prop) {s : σ}
    (init : Inv [] s)
    (step : ∀ past s i, Inv past s → Until time start past (time i) → Inv (past ++ [i]) (next s i))
    {steps : List ι} (h : Timed time start steps) : Inv steps (exec next s steps) := by
  refine exec_invariant Inv (P := fun past _ i ↦ Until time start past (time i)) init step ?_
  rintro past i future rfl
  exact h.until

end Timed

end Runs
