import LocalGateway.Foundations.Runs
import Mathlib.Algebra.BigOperators.Group.List.Basic
import Mathlib.Algebra.GroupWithZero.Nat
import Mathlib.Algebra.Order.BigOperators.Group.List
import Mathlib.Data.Nat.Basic

/-!
# Coroutines that clean up

A small language of coroutines: computations that may raise, points at which the coroutine is
suspended until it is resumed or an exception is thrown into it, loops, and `try: ... finally: ...`
around a part that is entered with an operation on a shared state and left with another one.
Coroutines run interleaved, and what they are resumed with, which computations raise and whose turn
it is are up to the environment.

* `step_cases` is all that one step of a coroutine can do to the shared state: nothing, a plain
  operation, to enter a guarded part, or to leave one.
* `count_exec`: if entering adds to a count what leaving takes off, then at any point of any
  interleaving the count is what the parts that were entered and not left add up to.

Nothing here knows what the operations are.
-/

namespace Coroutine

/-! ### Programs -/

/-- A program: `σ` are its variables, `ι` is what it may be resumed with, and `ο` are the operations
on the shared state. -/
inductive Code (σ ι ο : Type) where
  | skip
  /-- A computation that cannot raise. -/
  | assign (f : σ → σ)
  /-- A computation that may raise. -/
  | work (f : σ → σ)
  | op (f : σ → ο)
  /-- The coroutine is suspended: it awaits something, or has yielded something. -/
  | pause (f : ι → σ → σ)
  | seq (c d : Code σ ι ο)
  | ite (b : σ → Bool) (c d : Code σ ι ο)
  /-- A loop that is left by `break`, `return` or an exception. -/
  | loop (c : Code σ ι ο)
  | brk
  | cont
  | ret
  /-- `enter; f; try: c finally: leave`. -/
  | guarded (enter : ο) (f : σ → σ) (c : Code σ ι ο) (leave : ο)

/-- How a part of a program ends. -/
inductive Exit where
  | normal
  | brk
  | cont
  | ret
  | throw
deriving DecidableEq

/-- What is left to do when a part of a program has ended. -/
inductive Frame (σ ι ο : Type) where
  | seq (d : Code σ ι ο)
  | loop (c : Code σ ι ο)
  | cleanup (leave : ο)

/-- A coroutine is about to run a part of its program, or has ended one. -/
inductive Control (σ ι ο : Type) where
  | exec (c : Code σ ι ο)
  | leave (e : Exit)

/-- A coroutine. -/
structure Thread (σ ι ο : Type) where
  control : Control σ ι ο
  stack : List (Frame σ ι ο)
  vars : σ

/-- What the environment decides about a step: that it goes on, or that an exception is raised
where that is possible. -/
inductive Signal (ι : Type) where
  | go (i : ι)
  | throw

variable {σ ι ο : Type}

/-- The operation a frame owes. -/
def Frame.owed : Frame σ ι ο → Option ο
  | .cleanup o => some o
  | _ => none

namespace Thread

variable (t : Thread σ ι ο) (signal : Signal ι)

/-- The coroutine at the start of a program. -/
def start (c : Code σ ι ο) (vars : σ) : Thread σ ι ο :=
  ⟨.exec c, [], vars⟩

/-- The operations with which the coroutine will leave the parts that it is in. -/
def pending : List ο :=
  t.stack.filterMap Frame.owed

/-- A part has ended. -/
def ended (e : Exit) : Thread σ ι ο :=
  { t with control := .leave e }

/-- A computation has ended, or raised. -/
def computed (f : σ → σ) : Thread σ ι ο :=
  match signal with
  | .go _ => { t.ended .normal with vars := f t.vars }
  | .throw => t.ended .throw

/-- A suspended coroutine is resumed, or an exception is thrown into it. -/
def resumed (f : ι → σ → σ) : Thread σ ι ο :=
  match signal with
  | .go i => { t.ended .normal with vars := f i t.vars }
  | .throw => t.ended .throw

/-- A step at the start of a part. -/
def run : Code σ ι ο → Thread σ ι ο × Option ο
  | .skip => (t.ended .normal, none)
  | .assign f => ({ t.ended .normal with vars := f t.vars }, none)
  | .work f => (t.computed signal f, none)
  | .op f => (t.ended .normal, some (f t.vars))
  | .pause f => (t.resumed signal f, none)
  | .seq c d => ({ t with control := .exec c, stack := .seq d :: t.stack }, none)
  | .ite b c d => ({ t with control := .exec (if b t.vars then c else d) }, none)
  | .loop c => ({ t with control := .exec c, stack := .loop c :: t.stack }, none)
  | .brk => (t.ended .brk, none)
  | .cont => (t.ended .cont, none)
  | .ret => (t.ended .ret, none)
  | .guarded enter f c leave =>
    (⟨.exec c, .cleanup leave :: t.stack, f t.vars⟩, some enter)

/-- A step at the end of a part. -/
def unwind (e : Exit) : List (Frame σ ι ο) → Thread σ ι ο × Option ο
  | [] => (t, none)
  | .seq d :: stack =>
    match e with
    | .normal => ({ t with control := .exec d, stack }, none)
    | e => ({ t with control := .leave e, stack }, none)
  | .loop c :: stack =>
    match e with
    | .normal | .cont => ({ t with control := .exec c, stack := .loop c :: stack }, none)
    | .brk => ({ t with control := .leave .normal, stack }, none)
    | e => ({ t with control := .leave e, stack }, none)
  | .cleanup o :: stack => ({ t with control := .leave e, stack }, some o)

/-- A step of a coroutine, with the operation it performs. -/
def step : Thread σ ι ο × Option ο :=
  match t.control with
  | .exec c => t.run signal c
  | .leave e => t.unwind e t.stack

end Thread

/-! ### What the operations are -/

section Ops

variable (P : ο → Prop) (R : ο → ο → Prop)

/-- The plain operations of a program satisfy `P`, and those that enter and leave a part `R`. -/
def Code.Ops : Code σ ι ο → Prop
  | .op f => ∀ s, P (f s)
  | .seq c d | .ite _ c d => c.Ops ∧ d.Ops
  | .loop c => c.Ops
  | .guarded enter _ c leave => R enter leave ∧ c.Ops
  | _ => True

/-- A frame has such operations, and owes one that leaves a part. -/
def Frame.Ops : Frame σ ι ο → Prop
  | .seq c | .loop c => c.Ops P R
  | .cleanup leave => ∃ enter, R enter leave

/-- What a coroutine is about to run has such operations. -/
def Control.Ops : Control σ ι ο → Prop
  | .exec c => c.Ops P R
  | .leave _ => True

/-- All that a coroutine will run has such operations. -/
def Thread.Ops (t : Thread σ ι ο) : Prop :=
  t.control.Ops P R ∧ ∀ f ∈ t.stack, f.Ops P R

variable {P R} {t : Thread σ ι ο} {signal : Signal ι}

theorem Thread.start_ops {c : Code σ ι ο} (h : c.Ops P R) (vars : σ) : (Thread.start c vars).Ops P R :=
  ⟨h, by simp [start]⟩

/-- What a step does to the shared state, and to the operations a coroutine owes. -/
inductive Effect (P : ο → Prop) (R : ο → ο → Prop) : List ο → Option ο → List ο → Prop
  | silent (owed : List ο) : Effect P R owed none owed
  | plain (owed : List ο) (o : ο) : P o → Effect P R owed (some o) owed
  | entered (owed : List ο) (enter leave : ο) : R enter leave →
      Effect P R owed (some enter) (leave :: owed)
  | left (owed : List ο) (enter leave : ο) : R enter leave →
      Effect P R (leave :: owed) (some leave) owed

/-- A step that starts a part. -/
theorem Thread.run_cases {c : Code σ ι ο} (hc : c.Ops P R) (hstack : ∀ f ∈ t.stack, f.Ops P R) :
    (t.run signal c).1.Ops P R ∧ Effect P R t.pending (t.run signal c).2 (t.run signal c).1.pending := by
  cases c with
  | skip => exact ⟨⟨trivial, hstack⟩, .silent _⟩
  | assign f => exact ⟨⟨trivial, hstack⟩, .silent _⟩
  | work f => cases signal <;> exact ⟨⟨trivial, hstack⟩, .silent _⟩
  | op f => exact ⟨⟨trivial, hstack⟩, .plain _ _ (hc t.vars)⟩
  | pause f => cases signal <;> exact ⟨⟨trivial, hstack⟩, .silent _⟩
  | seq c d => exact ⟨⟨hc.1, List.forall_mem_cons.2 ⟨hc.2, hstack⟩⟩, .silent _⟩
  | ite b c d =>
    refine ⟨⟨?_, hstack⟩, .silent _⟩
    show (if b t.vars then c else d).Ops P R
    split_ifs
    · exact hc.1
    · exact hc.2
  | loop c => exact ⟨⟨hc, List.forall_mem_cons.2 ⟨hc, hstack⟩⟩, .silent _⟩
  | brk => exact ⟨⟨trivial, hstack⟩, .silent _⟩
  | cont => exact ⟨⟨trivial, hstack⟩, .silent _⟩
  | ret => exact ⟨⟨trivial, hstack⟩, .silent _⟩
  | guarded enter f c leave =>
    exact ⟨⟨hc.2, List.forall_mem_cons.2 ⟨⟨enter, hc.1⟩, hstack⟩⟩, .entered _ enter leave hc.1⟩

/-- A step that ends a part. -/
theorem Thread.unwind_cases {e : Exit} {stack : List (Frame σ ι ο)} (heq : t.stack = stack)
    (hcontrol : t.control.Ops P R) (hstack : ∀ f ∈ stack, f.Ops P R) :
    (t.unwind e stack).1.Ops P R ∧
      Effect P R t.pending (t.unwind e stack).2 (t.unwind e stack).1.pending := by
  rw [pending, heq]
  rcases stack with - | ⟨frame, stack⟩
  · refine ⟨⟨hcontrol, by simp [unwind, heq]⟩, ?_⟩
    have hpending : (t.unwind e []).1.pending = [] := by simp [unwind, pending, heq]
    rw [hpending]
    exact .silent _
  obtain ⟨hframe, hrest⟩ := List.forall_mem_cons.1 hstack
  cases frame with
  | seq d =>
    cases e with
    | normal => exact ⟨⟨hframe, hrest⟩, .silent _⟩
    | _ => exact ⟨⟨trivial, hrest⟩, .silent _⟩
  | loop c =>
    cases e with
    | normal => exact ⟨⟨hframe, hstack⟩, .silent _⟩
    | cont => exact ⟨⟨hframe, hstack⟩, .silent _⟩
    | _ => exact ⟨⟨trivial, hrest⟩, .silent _⟩
  | cleanup o =>
    obtain ⟨enter, hR⟩ := hframe
    exact ⟨⟨trivial, hrest⟩, .left _ enter o hR⟩

/-- **All that one step can do.** -/
theorem Thread.step_cases (h : t.Ops P R) :
    (t.step signal).1.Ops P R ∧ Effect P R t.pending (t.step signal).2 (t.step signal).1.pending := by
  obtain ⟨hcontrol, hstack⟩ := h
  unfold step
  split
  · next c hc =>
    rw [hc] at hcontrol
    exact run_cases hcontrol hstack
  · exact unwind_cases rfl hcontrol hstack

end Ops

/-! ### Interleavings -/

section Pool

variable {S : Type} (apply : S → ο → S)

/-- Coroutines with what they share. -/
structure Pool (σ ι ο S : Type) where
  threads : List (Thread σ ι ο)
  shared : S

/-- A coroutine is started, or one of them has its turn. -/
inductive Event (σ ι ο : Type) where
  | spawn (c : Code σ ι ο) (vars : σ)
  | turn (i : ℕ) (signal : Signal ι)

namespace Pool

variable (p : Pool σ ι ο S)

/-- The pool after an event. -/
def next (p : Pool σ ι ο S) : Event σ ι ο → Pool σ ι ο S
  | .spawn c vars => { p with threads := p.threads ++ [.start c vars] }
  | .turn i signal =>
    match p.threads[i]? with
    | none => p
    | some t => ⟨p.threads.set i (t.step signal).1, (t.step signal).2.elim p.shared (apply p.shared)⟩

/-- What the operations that are owed add up to. -/
def owed (weight : ο → ℕ) : ℕ :=
  (p.threads.map fun t ↦ (t.pending.map weight).sum).sum

end Pool

variable (P : ο → Prop) (R : ο → ο → Prop) {count : S → ℕ} {weight : ο → ℕ}

/-- Entering a part adds to the count what leaving it takes off, and plain operations do nothing. -/
structure Counts (apply : S → ο → S) (P : ο → Prop) (R : ο → ο → Prop) (count : S → ℕ)
    (weight : ο → ℕ) : Prop where
  plain : ∀ s o, P o → count (apply s o) = count s
  entered : ∀ s enter leave, R enter leave → count (apply s enter) = count s + weight leave
  left : ∀ s enter leave, R enter leave → count (apply s leave) = count s - weight leave

variable {apply P R}

/-- The count after a step of one coroutine, beside others that owe `rest`. -/
theorem Counts.effect (hcounts : Counts apply P R count weight) {before after : List ο} {o : Option ο}
    (heffect : Effect P R before o after) {s : S} {rest : ℕ}
    (hs : count s = rest + (before.map weight).sum) :
    count (o.elim s (apply s)) = rest + (after.map weight).sum := by
  cases heffect with
  | silent => exact hs
  | plain _ o hP => exact (hcounts.plain s o hP).trans hs
  | entered _ enter leave hR =>
    rw [Option.elim_some, hcounts.entered s enter leave hR, hs, List.map_cons, List.sum_cons]
    omega
  | left _ enter leave hR =>
    rw [Option.elim_some, hcounts.left s enter leave hR, hs, List.map_cons, List.sum_cons]
    omega

/-- The count agrees with what is owed, and coroutines run nothing but such operations. -/
structure Pool.Balanced (P : ο → Prop) (R : ο → ο → Prop) (count : S → ℕ) (weight : ο → ℕ)
    (p : Pool σ ι ο S) : Prop where
  ops : ∀ t ∈ p.threads, t.Ops P R
  count_eq : count p.shared = p.owed weight

/-- What is started has such operations. -/
def Event.Ops (P : ο → Prop) (R : ο → ο → Prop) : Event σ ι ο → Prop
  | .spawn c _ => c.Ops P R
  | .turn .. => True

theorem Pool.Balanced.next (hcounts : Counts apply P R count weight) {p : Pool σ ι ο S}
    (h : p.Balanced P R count weight) {event : Event σ ι ο} (hevent : event.Ops P R) :
    (p.next apply event).Balanced P R count weight := by
  cases event with
  | spawn c vars =>
    refine ⟨fun t ht ↦ ?_, ?_⟩
    · rcases List.mem_append.1 ht with ht | ht
      · exact h.ops t ht
      · obtain rfl := List.mem_singleton.1 ht
        exact Thread.start_ops hevent vars
    · show count p.shared = ((p.threads ++ [Thread.start c vars]).map _).sum
      rw [h.count_eq, Pool.owed, List.map_append, List.sum_append]
      rfl
  | turn i signal =>
    rw [Pool.next]
    rcases hi : p.threads[i]? with - | t
    · exact h
    · obtain ⟨hlt, ht⟩ := List.getElem?_eq_some_iff.1 hi
      have hmem : t ∈ p.threads := ht ▸ List.getElem_mem hlt
      obtain ⟨hops, heffect⟩ :
          (t.step signal).1.Ops P R ∧ Effect P R t.pending (t.step signal).2 (t.step signal).1.pending :=
        Thread.step_cases (h.ops t hmem)
      refine ⟨fun u hu ↦ ?_, ?_⟩
      · rcases List.mem_or_eq_of_mem_set hu with hu | rfl
        · exact h.ops u hu
        · exact hops
      · -- the coroutines before and after this one owe what they owed
        have hsplit := h.count_eq
        rw [Pool.owed, ← List.take_append_drop i p.threads, List.drop_eq_getElem_cons hlt, ht] at hsplit
        show count ((t.step signal).2.elim p.shared (apply p.shared)) =
          ((p.threads.set i (t.step signal).1).map fun t ↦ (t.pending.map weight).sum).sum
        rw [List.set_eq_take_append_cons_drop, if_pos hlt]
        simp only [List.map_append, List.map_cons, List.sum_append, List.sum_cons] at hsplit ⊢
        have hrest : count p.shared =
            (((p.threads.take i).map fun t ↦ (t.pending.map weight).sum).sum +
              ((p.threads.drop (i + 1)).map fun t ↦ (t.pending.map weight).sum).sum) +
              (t.pending.map weight).sum := by omega
        rw [hcounts.effect heffect hrest]
        omega

/-- **The count at any point of any interleaving** of coroutines is what they owe. -/
theorem count_exec (hcounts : Counts apply P R count weight) {s : S} (hs : count s = 0)
    {events : List (Event σ ι ο)} (hevents : ∀ e ∈ events, e.Ops P R) :
    count (Runs.exec (Pool.next apply) ⟨[], s⟩ events).shared =
      (Runs.exec (Pool.next apply) ⟨[], s⟩ events).owed weight := by
  have hbalanced : (Runs.exec (Pool.next apply) ⟨[], s⟩ events).Balanced P R count weight := by
    refine Runs.exec_invariant (fun _ (p : Pool σ ι ο S) ↦ p.Balanced P R count weight)
      (P := fun _ _ e ↦ e.Ops P R) ⟨by simp, hs⟩ (fun _ _ _ h hevent ↦ h.next hcounts hevent) ?_
    rintro past e future rfl
    exact hevents e (by simp)
  exact hbalanced.count_eq

end Pool

end Coroutine
