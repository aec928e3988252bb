import LocalGateway.Foundations.Runs
import Mathlib.Order.Lattice

/-!
# Erasing what is old

A table whose rows have times, and a machine on such tables some inputs of which erase old rows. A query that reads only
the rows from some time on, the horizon, does not see what was erased before it.

* `since`: the rows from a horizon on.
* `Heeds`, `Spares`: an operation whose effect on these rows depends on them alone, and one without any effect on them.
* `exec_related`: a run and the same run without some of its inputs.
* `since_exec`, `exec_sublist`: the table of a run, and that of the run in which nothing is erased.

Nothing here knows what the rows, the times or the inputs are.
-/

namespace Horizon

open Runs

section Simulation

variable {σ ι : Type*} {next : σ → ι → σ} {R : σ → σ → Prop} {keep : ι → Bool}

/-- **A run without some of its inputs** ends in a related state, if the others keep states related and these do so when
only the first state takes them. -/
theorem exec_related (steps : List ι) (hkeep : ∀ i ∈ steps, keep i = true → ∀ s t, R s t → R (next s i) (next t i))
    (hskip : ∀ i ∈ steps, keep i = false → ∀ s t, R s t → R (next s i) t) {s t : σ} (h : R s t) :
    R (exec next s steps) (exec next t (steps.filter keep)) := by
  induction steps generalizing s t with
  | nil => exact h
  | cons i steps ih =>
    have hkeeps := (List.forall_mem_cons.1 hkeep).2
    have hskips := (List.forall_mem_cons.1 hskip).2
    rcases hi : keep i with - | -
    · rw [List.filter_cons_of_neg (by simp [hi])]
      exact ih hkeeps hskips (hskip i List.mem_cons_self hi s t h)
    · rw [List.filter_cons_of_pos hi]
      exact ih hkeeps hskips (hkeep i List.mem_cons_self hi s t h)

end Simulation

variable {α τ ι : Type*} [LinearOrder τ] (time : α → τ)

/-- The rows from a horizon on. -/
def since (horizon : τ) (rows : List α) : List α :=
  rows.filter fun row ↦ horizon ≤ time row

/-- What an operation does to the rows from any horizon on depends on them alone. -/
def Heeds (f : List α → List α) : Prop :=
  ∀ horizon rows rows', since time horizon rows = since time horizon rows' →
    since time horizon (f rows) = since time horizon (f rows')

/-- An operation does nothing to the rows from a horizon on. -/
def Spares (horizon : τ) (f : List α → List α) : Prop :=
  ∀ rows, since time horizon (f rows) = since time horizon rows

variable {time}

/-- A query of rows that are recent reads the recent rows. -/
theorem filter_since {horizon : τ} {p : α → Bool} (h : ∀ row, p row = true → horizon ≤ time row) (rows : List α) :
    (since time horizon rows).filter p = rows.filter p := by
  rw [since, List.filter_filter]
  refine List.filter_congr fun row _ ↦ ?_
  rcases hp : p row with - | -
  · rfl
  · rw [Bool.true_and, decide_eq_true (h row hp)]

theorem heeds_append (new : List α) : Heeds time (· ++ new) := fun horizon rows rows' h ↦ by
  rw [since, since, List.filter_append, List.filter_append]
  exact congrArg (· ++ _) h

/-- Rows that are changed keep their times. -/
theorem heeds_map {f : α → α} (hf : ∀ row, time (f row) = time row) : Heeds time (List.map f) :=
  fun horizon rows rows' h ↦ by
    have hmap : ∀ rows, since time horizon (rows.map f) = (since time horizon rows).map f := fun rows ↦ by
      rw [since, since, List.filter_map]
      exact congrArg _ (List.filter_congr fun row _ ↦ by rw [Function.comp_apply, hf])
    rw [hmap, hmap, h]

theorem heeds_const (rows : List α) : Heeds time fun _ ↦ rows := fun _ _ _ _ ↦ rfl

/-- Only rows from before the horizon are erased. -/
theorem spares_filter {horizon : τ} {p : α → Bool} (h : ∀ row, horizon ≤ time row → p row = true) :
    Spares time horizon (List.filter p) := fun rows ↦ by
  rw [since, since, List.filter_filter]
  refine List.filter_congr fun row _ ↦ ?_
  by_cases hrow : horizon ≤ time row
  · rw [h row hrow, Bool.and_true]
  · rw [decide_eq_false hrow, Bool.false_and]

section Run

variable {next : List α → ι → List α} {keep : ι → Bool} (steps : List ι)

/-- **The recent rows of a run** are those of the run in which nothing is erased, if what is erased is older. -/
theorem since_exec {horizon : τ} (hkeep : ∀ i ∈ steps, keep i = true → Heeds time (next · i))
    (hskip : ∀ i ∈ steps, keep i = false → Spares time horizon (next · i)) (rows : List α) :
    since time horizon (exec next rows steps) = since time horizon (exec next rows (steps.filter keep)) :=
  exec_related (R := fun s t ↦ since time horizon s = since time horizon t) steps
    (fun i hi hk s t hst ↦ hkeep i hi hk horizon s t hst) (fun i hi hk s _ hst ↦ (hskip i hi hk s).trans hst) rfl

omit [LinearOrder τ] in
/-- **The rows of a run** are among those of the run in which nothing is erased. -/
theorem exec_sublist (hkeep : ∀ i, keep i = true → ∀ s t, s.Sublist t → (next s i).Sublist (next t i))
    (hskip : ∀ i, keep i = false → ∀ s, (next s i).Sublist s) (rows : List α) :
    (exec next rows steps).Sublist (exec next rows (steps.filter keep)) :=
  exec_related (R := List.Sublist) steps (fun i _ hk s t hst ↦ hkeep i hk s t hst)
    (fun i _ hk s _ hst ↦ (hskip i hk s).trans hst) (List.Sublist.refl rows)

end Run

end Horizon
