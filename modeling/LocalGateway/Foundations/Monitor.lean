import LocalGateway.Foundations.Runs

/-!
# A lock and what it protects

Threads that share a state and take a lock before they change it, while an environment changes the state at any time. A
proof outline gives an assertion for every place of a program: inside the section it may speak of the whole shared state,
outside it must survive what the others do. `Outline.exec` is the rule: in every state that a run reaches, every thread's
assertion holds, and what the lock protects holds while nobody has it.

Nothing here knows what the threads do.
-/

/-- Programs of threads with a lock. -/
structure Monitor (σ π κ ι ε : Type*) where
  /-- The places between taking the lock and giving it back. -/
  inside : π → Bool
  /-- A new thread, in the state it finds. -/
  start : σ → κ → π
  /-- What a thread does next; it may have to wait. -/
  act : σ → π → ι → Option (σ × π)
  /-- What happens to the shared state besides. -/
  env : σ → ε → σ

namespace Monitor

variable {σ π κ ι ε : Type*}

/-- The shared state, the lock and the threads. -/
structure State (σ π : Type*) where
  shared : σ
  holder : Option ℕ
  threads : List π

/-- What the scheduler chooses. -/
inductive Step (κ ι ε : Type*)
  | start (k : κ)
  | run (t : ℕ) (i : ι)
  | env (e : ε)

variable (m : Monitor σ π κ ι ε)

/-- Nobody has started. -/
def initial (shared : σ) : State σ π where
  shared := shared
  holder := none
  threads := []

/-- Thread `t` goes from `p` to `p'`. It waits if it wants a lock that is taken. -/
def move (s : State σ π) (t : ℕ) (p : π) (shared : σ) (p' : π) : State σ π :=
  if !m.inside p && m.inside p' && s.holder.isSome then s
  else
    { shared := shared
      holder := if m.inside p' then some t else if m.inside p then none else s.holder
      threads := s.threads.set t p' }

/-- The state after a step. -/
def next (s : State σ π) : Step κ ι ε → State σ π
  | .start k => { s with threads := s.threads ++ [m.start s.shared k] }
  | .run t i =>
    match s.threads[t]? with
    | none => s
    | some p => (m.act s.shared p i).elim s fun r ↦ m.move s t p r.1 r.2
  | .env e => { s with shared := m.env s.shared e }

/-- A proof outline. -/
structure Outline (m : Monitor σ π κ ι ε) where
  /-- What the lock protects. -/
  free : σ → Prop
  /-- What holds when a thread is at a place. -/
  holds : π → σ → Prop
  /-- How the shared state may change. -/
  rely : σ → σ → Prop
  start : ∀ s k, m.inside (m.start s k) = false ∧ holds (m.start s k) s
  enter : ∀ {s s' p p' i}, m.act s p i = some (s', p') → m.inside p = false → m.inside p' = true → free s →
    holds p s → holds p' s'
  stay : ∀ {s s' p p' i}, m.act s p i = some (s', p') → m.inside p = true → m.inside p' = true → holds p s → holds p' s'
  leave : ∀ {s s' p p' i}, m.act s p i = some (s', p') → m.inside p = true → m.inside p' = false → holds p s →
    free s' ∧ holds p' s'
  outside : ∀ {s s' p p' i}, m.act s p i = some (s', p') → m.inside p = false → m.inside p' = false → holds p s →
    s' = s ∧ holds p' s'
  rely_act : ∀ {s s' p p' i}, m.act s p i = some (s', p') → holds p s → rely s s'
  rely_env : ∀ s e, rely s (m.env s e)
  stable : ∀ {s s' p}, m.inside p = false → holds p s → rely s s' → holds p s'
  env_free : ∀ {s} e, free s → free (m.env s e)
  env_holds : ∀ {s p} e, m.inside p = true → holds p s → holds p (m.env s e)

namespace Outline

variable {m} (o : Outline m)

/-- What a run keeps. -/
structure Sound (s : State σ π) : Prop where
  free : s.holder = none → o.free s.shared
  /-- Only the holder is inside. -/
  holder : ∀ (t : ℕ) (p : π), s.threads[t]? = some p → (m.inside p = true ↔ s.holder = some t)
  lt : ∀ t, s.holder = some t → t < s.threads.length
  holds : ∀ (t : ℕ) (p : π), s.threads[t]? = some p → o.holds p s.shared

variable {o} {s : State σ π}

theorem sound_initial {shared : σ} (h : o.free shared) : o.Sound (initial shared) where
  free _ := h
  holder _ _ := nofun
  lt _ := nofun
  holds _ _ := nofun

theorem Sound.start (h : o.Sound s) (k : κ) : o.Sound (m.next s (.start k)) := by
  obtain ⟨hout, hnew⟩ := o.start s.shared k
  have hcases : ∀ (t : ℕ) (p : π), (s.threads ++ [m.start s.shared k])[t]? = some p → s.threads[t]? = some p ∨
      t = s.threads.length ∧ p = m.start s.shared k := by
    intro t p hp
    rw [List.getElem?_append] at hp
    split_ifs at hp with ht
    · exact .inl hp
    · obtain ⟨hlt, rfl⟩ := List.getElem?_eq_some_iff.1 hp
      simp only [List.length_singleton] at hlt
      exact .inr ⟨by omega, by simp⟩
  refine ⟨h.free, fun t p hp ↦ ?_, fun t ht ↦ ?_, fun t p hp ↦ ?_⟩
  · rcases hcases t p hp with hp | ⟨rfl, rfl⟩
    · exact h.holder t p hp
    · exact iff_of_false (by simp [hout]) fun hholder ↦ absurd (h.lt _ hholder) (Nat.lt_irrefl _)
  · show t < (s.threads ++ _).length
    rw [List.length_append]
    exact Nat.lt_of_lt_of_le (h.lt t ht) (Nat.le_add_right _ _)
  · rcases hcases t p hp with hp | ⟨rfl, rfl⟩
    · exact h.holds t p hp
    · exact hnew

theorem Sound.env (h : o.Sound s) (e : ε) : o.Sound (m.next s (.env e)) where
  free hholder := o.env_free e (h.free hholder)
  holder := h.holder
  lt := h.lt
  holds t p hp := by
    rcases hin : m.inside p with - | -
    · exact o.stable hin (h.holds t p hp) (o.rely_env s.shared e)
    · exact o.env_holds e hin (h.holds t p hp)

theorem Sound.move (h : o.Sound s) {t : ℕ} {p p' : π} {shared : σ} {i : ι} (hp : s.threads[t]? = some p)
    (hact : m.act s.shared p i = some (shared, p')) : o.Sound (m.move s t p shared p') := by
  unfold Monitor.move
  by_cases hwait : (!m.inside p && m.inside p' && s.holder.isSome) = true
  · rw [if_pos hwait]
    exact h
  rw [if_neg hwait]
  have hlt : t < s.threads.length := (List.getElem?_eq_some_iff.1 hp).1
  have hholds := h.holds t p hp
  have hholder := h.holder t p hp
  have hset : ∀ (u : ℕ) (q : π), (s.threads.set t p')[u]? = some q →
      u = t ∧ q = p' ∨ u ≠ t ∧ s.threads[u]? = some q := by
    intro u q hq
    by_cases hu : t = u
    · subst hu
      rw [List.getElem?_set_self hlt] at hq
      exact .inl ⟨rfl, (Option.some.inj hq).symm⟩
    · rw [List.getElem?_set_ne hu] at hq
      exact .inr ⟨Ne.symm hu, hq⟩
  rcases hin : m.inside p with - | - <;> rcases hin' : m.inside p' with - | - <;> rw [hin] at hholder
  · -- the thread stays outside
    simp only [Bool.false_eq_true, if_false]
    obtain ⟨rfl, hnew⟩ := o.outside hact hin hin' hholds
    refine ⟨h.free, fun u q hq ↦ ?_, fun u hu ↦ ?_, fun u q hq ↦ ?_⟩
    · rcases hset u q hq with ⟨rfl, rfl⟩ | ⟨-, hq⟩
      · rw [hin']
        exact hholder
      · exact h.holder u q hq
    · rw [List.length_set]
      exact h.lt u hu
    · rcases hset u q hq with ⟨-, rfl⟩ | ⟨-, hq⟩
      · exact hnew
      · exact h.holds u q hq
  · -- it takes the lock
    simp only [if_true]
    have hfree : s.holder = none := by
      rcases hs : s.holder with - | u
      · rfl
      · simp [hin, hin', hs] at hwait
    refine ⟨nofun, fun u q hq ↦ ?_, fun u hu ↦ ?_, fun u q hq ↦ ?_⟩
    · rcases hset u q hq with ⟨rfl, rfl⟩ | ⟨hne, hq⟩
      · simp [hin']
      · have hout := h.holder u q hq
        rw [hfree] at hout
        exact iff_of_false (fun h ↦ absurd (hout.1 h) nofun) fun h ↦ hne (Option.some.inj h).symm
    · obtain rfl := Option.some.inj hu
      rw [List.length_set]
      exact hlt
    · rcases hset u q hq with ⟨-, rfl⟩ | ⟨-, hq⟩
      · exact o.enter hact hin hin' (h.free hfree) hholds
      · have hout : m.inside q = false := by
          rw [← Bool.not_eq_true, h.holder u q hq, hfree]
          nofun
        exact o.stable hout (h.holds u q hq) (o.rely_act hact hholds)
  · -- it gives the lock back
    simp only [Bool.false_eq_true, if_false, if_true]
    have hmine : s.holder = some t := hholder.1 rfl
    obtain ⟨hfree, hnew⟩ := o.leave hact hin hin' hholds
    refine ⟨fun _ ↦ hfree, fun u q hq ↦ ?_, nofun, fun u q hq ↦ ?_⟩
    · rcases hset u q hq with ⟨rfl, rfl⟩ | ⟨hne, hq⟩
      · simp [hin']
      · rw [h.holder u q hq, hmine]
        exact iff_of_false (fun h ↦ hne (Option.some.inj h).symm) nofun
    · rcases hset u q hq with ⟨-, rfl⟩ | ⟨hne, hq⟩
      · exact hnew
      · have hout : m.inside q = false := by
          rw [← Bool.not_eq_true, h.holder u q hq, hmine]
          exact fun h ↦ hne (Option.some.inj h).symm
        exact o.stable hout (h.holds u q hq) (o.rely_act hact hholds)
  · -- it goes on inside
    simp only [if_true]
    have hmine : s.holder = some t := hholder.1 rfl
    refine ⟨nofun, fun u q hq ↦ ?_, fun u hu ↦ ?_, fun u q hq ↦ ?_⟩
    · rcases hset u q hq with ⟨rfl, rfl⟩ | ⟨hne, hq⟩
      · simp [hin']
      · rw [h.holder u q hq, hmine]
    · obtain rfl := Option.some.inj hu
      rw [List.length_set]
      exact hlt
    · rcases hset u q hq with ⟨-, rfl⟩ | ⟨hne, hq⟩
      · exact o.stay hact hin hin' hholds
      · have hout : m.inside q = false := by
          rw [← Bool.not_eq_true, h.holder u q hq, hmine]
          exact fun h ↦ hne (Option.some.inj h).symm
        exact o.stable hout (h.holds u q hq) (o.rely_act hact hholds)

theorem Sound.next (h : o.Sound s) (step : Step κ ι ε) : o.Sound (m.next s step) := by
  cases step with
  | start k => exact h.start k
  | env e => exact h.env e
  | run t i =>
    rcases hp : s.threads[t]? with - | p
    · simpa only [Monitor.next, hp] using h
    · rcases hact : m.act s.shared p i with - | ⟨shared, p'⟩
      · simpa only [Monitor.next, hp, hact, Option.elim_none] using h
      · simpa only [Monitor.next, hp, hact, Option.elim_some] using h.move hp hact

/-- **The rule of the outline.** In every state that a run reaches, every thread's assertion holds, at most one thread is
inside, and what the lock protects holds while nobody is. -/
theorem exec {shared : σ} (h : o.free shared) (steps : List (Step κ ι ε)) :
    o.Sound (Runs.exec m.next (initial shared) steps) :=
  Runs.exec_invariant' (fun _ ↦ o.Sound) (sound_initial h) (fun _ _ step hs ↦ hs.next step) steps

end Outline

end Monitor
