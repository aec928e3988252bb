import LocalGateway.Foundations.Monitor
import LocalGateway.Routing.Candidates

/-!
# The worker process

The class `Supervisor` of `supervisor.py`: `start`, `stop` and `restart`, each under the lock, by any number of threads
at a time, while worker processes may die at any moment.

* `Lifecycle.calls_exec`: there is never more than one worker, the answers of the calls are true of the workers for good,
  and the status is true whenever nobody is in a call.
-/

namespace LocalGateway.Lifecycle

/-- The worker processes that were ever spawned, and the attributes of the supervisor; a process stands for itself by its
place. -/
structure Fleet where
  /-- Whether `poll()` is `None`. -/
  workers : List Bool
  proc : Option ℕ
  startedAt : Option ℚ
deriving DecidableEq

/-- The process has not ended. -/
def Fleet.alive (f : Fleet) (pid : ℕ) : Bool :=
  f.workers[pid]?.getD false

/-- A supervisor that has started nothing. -/
def Fleet.initial : Fleet where
  workers := []
  proc := none
  startedAt := none

/-- What is called. -/
inductive Call
  | start | stop | restart
deriving DecidableEq

/-- What `start` and `stop` return. -/
inductive Reply
  | alreadyRunning (pid : ℕ)
  | started (pid : ℕ)
  | alreadyStopped
  | stopped (pid : ℕ)
deriving DecidableEq

/-- The worker that an answer promises. -/
def Reply.worker? : Reply → Option ℕ
  | .alreadyRunning pid | .started pid => some pid
  | .alreadyStopped | .stopped _ => none

/-- Where a call is. -/
inductive Place
  | wantStop
  | stopping
  | terminating (pid : ℕ)
  /-- `self.proc.wait(timeout=10)`. -/
  | waiting (pid : ℕ)
  | killing (pid : ℕ)
  /-- `self.proc.wait()`. -/
  | reaping (pid : ℕ)
  /-- `self.proc = None`. -/
  | clearing (r : Reply)
  /-- `self.started_at = None`. -/
  | unstamping (r : Reply)
  | stopReturns (r : Reply)
  /-- `time.sleep(0.3)`. -/
  | pausing
  | wantStart
  | starting
  | spawning
  /-- `self.started_at = time.time()`. -/
  | stamping (pid : ℕ)
  /-- `self._wait_ready(timeout=15.0)`. -/
  | probing (pid : ℕ)
  | startReturns (r : Reply)
  /-- `subprocess.Popen` has raised. -/
  | raising
  /-- The call is over, with the number of processes that had been spawned; `none` is an exception. -/
  | returned (r : Option Reply) (count : ℕ)
deriving DecidableEq

/-- A call, with the number of processes that had been spawned when it was made. -/
structure Thread where
  call : Call
  since : ℕ
  place : Place
deriving DecidableEq

/-- What a step of a call may find. -/
structure Found where
  /-- `subprocess.TimeoutExpired`. -/
  timedOut : Bool
  /-- `subprocess.Popen` raises. -/
  fails : Bool
  /-- `_wait_ready` has an answer, or gives up. -/
  ready : Bool
  time : ℚ

/-- The lock is held. -/
def Place.inside : Place → Bool
  | .wantStop | .pausing | .wantStart | .returned _ _ => false
  | _ => true

/-- The next step of `stop` inside the lock, with the place after it. -/
def stopStep (f : Fleet) (x : Found) : Place → Option (Fleet × Place)
  | .stopping =>
    match f.proc with
    | none => some (f, .clearing .alreadyStopped)
    | some pid => some (f, if f.alive pid then .terminating pid else .clearing .alreadyStopped)
  | .terminating pid => some (f, .waiting pid)
  | .waiting pid =>
    if f.alive pid then if x.timedOut then some (f, .killing pid) else none
    else some (f, .clearing (.stopped pid))
  | .killing pid => some (f, .reaping pid)
  | .reaping pid => if f.alive pid then none else some (f, .clearing (.stopped pid))
  | .clearing r => some ({ f with proc := none }, .unstamping r)
  | .unstamping r => some ({ f with startedAt := none }, .stopReturns r)
  | _ => none

/-- The next step of `start` inside the lock, with the place after it. -/
def startStep (f : Fleet) (x : Found) : Place → Option (Fleet × Place)
  | .starting =>
    match f.proc with
    | none => some (f, .spawning)
    | some pid => some (f, if f.alive pid then .startReturns (.alreadyRunning pid) else .spawning)
  | .spawning =>
    if x.fails then some (f, .raising)
    else some ({ f with workers := f.workers ++ [true], proc := some f.workers.length }, .stamping f.workers.length)
  | .stamping pid => some ({ f with startedAt := some x.time }, .probing pid)
  | .probing pid => some (f, if x.ready then .startReturns (.started pid) else .probing pid)
  | .startReturns r => some (f, .returned (some r) f.workers.length)
  | .raising => some (f, .returned none f.workers.length)
  | _ => none

/-- The next step of a call. -/
def step (f : Fleet) (t : Thread) (x : Found) : Option (Fleet × Place) :=
  match t.place with
  | .wantStop => some (f, .stopping)
  | .stopReturns r => some (f, if t.call = .restart then .pausing else .returned (some r) f.workers.length)
  | .pausing => some (f, .wantStart)
  | .wantStart => some (f, .starting)
  | place => (stopStep f x place).or (startStep f x place)

/-- The supervisor's lock; the environment is the death of a process. -/
def monitor : Monitor Fleet Thread Call Found ℕ where
  inside t := t.place.inside
  start f call := ⟨call, f.workers.length, if call = .start then .wantStart else .wantStop⟩
  act f t x := (step f t x).map fun r ↦ (r.1, { t with place := r.2 })
  env f pid := { f with workers := f.workers.set pid false }

/-- What `status` returns, read in one piece. -/
structure Status where
  running : Bool
  pid : Option ℕ
  uptime : Option ℚ
deriving DecidableEq

/-- `is_running`. -/
def Fleet.isRunning (f : Fleet) : Bool :=
  f.proc.elim false f.alive

/-- `status`, but for the ports. -/
def Fleet.status (f : Fleet) (time : ℚ) : Status where
  running := f.isRunning
  pid := if f.isRunning then f.proc else none
  uptime := if f.isRunning then (f.startedAt.filter (· ≠ 0)).map fun t ↦ PyFloat.roundTo 0 (time - t) else none

/-! ### What a step is -/

/-- The steps of a call. -/
inductive Moves (call : Call) (f : Fleet) : Place → Fleet → Place → Prop
  | enterStop : Moves call f .wantStop f .stopping
  | noWorker (h : ∀ pid, f.proc = some pid → f.alive pid = false) : Moves call f .stopping f (.clearing .alreadyStopped)
  | worker {pid : ℕ} (h : f.proc = some pid) : Moves call f .stopping f (.terminating pid)
  | terminate {pid : ℕ} : Moves call f (.terminating pid) f (.waiting pid)
  | ended {pid : ℕ} (h : f.alive pid = false) : Moves call f (.waiting pid) f (.clearing (.stopped pid))
  | lasts {pid : ℕ} : Moves call f (.waiting pid) f (.killing pid)
  | kill {pid : ℕ} : Moves call f (.killing pid) f (.reaping pid)
  | killed {pid : ℕ} (h : f.alive pid = false) : Moves call f (.reaping pid) f (.clearing (.stopped pid))
  | clear {r : Reply} : Moves call f (.clearing r) { f with proc := none } (.unstamping r)
  | unstamp {r : Reply} : Moves call f (.unstamping r) { f with startedAt := none } (.stopReturns r)
  | pause {r : Reply} (h : call = .restart) : Moves call f (.stopReturns r) f .pausing
  | stopped {r : Reply} (h : call ≠ .restart) : Moves call f (.stopReturns r) f (.returned (some r) f.workers.length)
  | wake : Moves call f .pausing f .wantStart
  | enterStart : Moves call f .wantStart f .starting
  | running {pid : ℕ} (h : f.proc = some pid) (alive : f.alive pid = true) :
      Moves call f .starting f (.startReturns (.alreadyRunning pid))
  | notRunning (h : ∀ pid, f.proc = some pid → f.alive pid = false) : Moves call f .starting f .spawning
  | fail : Moves call f .spawning f .raising
  | spawn : Moves call f .spawning { f with workers := f.workers ++ [true], proc := some f.workers.length }
      (.stamping f.workers.length)
  | stamp {pid : ℕ} (time : ℚ) : Moves call f (.stamping pid) { f with startedAt := some time } (.probing pid)
  | probe {pid : ℕ} : Moves call f (.probing pid) f (.probing pid)
  | ready {pid : ℕ} : Moves call f (.probing pid) f (.startReturns (.started pid))
  | started {r : Reply} : Moves call f (.startReturns r) f (.returned (some r) f.workers.length)
  | raised : Moves call f .raising f (.returned none f.workers.length)

theorem moves_of_stopStep {call : Call} {f f' : Fleet} {x : Found} {place place' : Place}
    (h : stopStep f x place = some (f', place')) : Moves call f place f' place' := by
  cases place with
  | stopping =>
    rcases hproc : f.proc with - | pid <;> simp only [stopStep, hproc, Option.some.injEq, Prod.mk.injEq] at h
    · obtain ⟨rfl, rfl⟩ := h
      exact .noWorker fun pid hpid ↦ absurd (hproc.symm.trans hpid) nofun
    · obtain ⟨rfl, rfl⟩ := h
      split_ifs with halive
      · exact .worker hproc
      · refine .noWorker fun q hq ↦ ?_
        obtain rfl := Option.some.inj (hproc.symm.trans hq)
        exact Bool.eq_false_iff.2 halive
  | waiting pid =>
    simp only [stopStep] at h
    split_ifs at h with halive htime
    · obtain ⟨rfl, rfl⟩ := Prod.mk.inj (Option.some.inj h)
      exact .lasts
    · obtain ⟨rfl, rfl⟩ := Prod.mk.inj (Option.some.inj h)
      exact .ended (Bool.eq_false_iff.2 halive)
  | reaping pid =>
    simp only [stopStep] at h
    split_ifs at h with halive
    obtain ⟨rfl, rfl⟩ := Prod.mk.inj (Option.some.inj h)
    exact .killed (Bool.eq_false_iff.2 halive)
  | terminating pid =>
    obtain ⟨rfl, rfl⟩ := Prod.mk.inj (Option.some.inj h)
    exact .terminate
  | killing pid =>
    obtain ⟨rfl, rfl⟩ := Prod.mk.inj (Option.some.inj h)
    exact .kill
  | clearing r =>
    obtain ⟨rfl, rfl⟩ := Prod.mk.inj (Option.some.inj h)
    exact .clear
  | unstamping r =>
    obtain ⟨rfl, rfl⟩ := Prod.mk.inj (Option.some.inj h)
    exact .unstamp
  | _ => cases h

theorem moves_of_startStep {call : Call} {f f' : Fleet} {x : Found} {place place' : Place}
    (h : startStep f x place = some (f', place')) : Moves call f place f' place' := by
  cases place with
  | starting =>
    rcases hproc : f.proc with - | pid <;> simp only [startStep, hproc, Option.some.injEq, Prod.mk.injEq] at h
    · obtain ⟨rfl, rfl⟩ := h
      exact .notRunning fun pid hpid ↦ absurd (hproc.symm.trans hpid) nofun
    · obtain ⟨rfl, rfl⟩ := h
      split_ifs with halive
      · exact .running hproc halive
      · refine .notRunning fun q hq ↦ ?_
        obtain rfl := Option.some.inj (hproc.symm.trans hq)
        exact Bool.eq_false_iff.2 halive
  | spawning =>
    simp only [startStep] at h
    split_ifs at h <;> obtain ⟨rfl, rfl⟩ := Prod.mk.inj (Option.some.inj h)
    · exact .fail
    · exact .spawn
  | stamping pid =>
    obtain ⟨rfl, rfl⟩ := Prod.mk.inj (Option.some.inj h)
    exact .stamp x.time
  | probing pid =>
    obtain ⟨rfl, rfl⟩ := Prod.mk.inj (Option.some.inj h)
    split_ifs
    · exact .ready
    · exact .probe
  | startReturns r =>
    obtain ⟨rfl, rfl⟩ := Prod.mk.inj (Option.some.inj h)
    exact .started
  | raising =>
    obtain ⟨rfl, rfl⟩ := Prod.mk.inj (Option.some.inj h)
    exact .raised
  | _ => cases h

/-- **What a step of a call is.** -/
theorem moves_of_act {f f' : Fleet} {t t' : Thread} {x : Found} (h : monitor.act f t x = some (f', t')) :
    t' = { t with place := t'.place } ∧ Moves t.call f t.place f' t'.place := by
  obtain ⟨⟨g, place'⟩, hstep, heq⟩ := Option.map_eq_some_iff.1 h
  obtain ⟨rfl, rfl⟩ := Prod.mk.inj heq
  refine ⟨rfl, ?_⟩
  obtain ⟨call, since, place⟩ := t
  cases place with
  | wantStop =>
    obtain ⟨rfl, rfl⟩ := Prod.mk.inj (Option.some.inj hstep)
    exact .enterStop
  | stopReturns r =>
    obtain ⟨rfl, rfl⟩ := Prod.mk.inj (Option.some.inj hstep)
    dsimp only
    split_ifs with hcall
    · exact .pause hcall
    · exact .stopped hcall
  | pausing =>
    obtain ⟨rfl, rfl⟩ := Prod.mk.inj (Option.some.inj hstep)
    exact .wake
  | wantStart =>
    obtain ⟨rfl, rfl⟩ := Prod.mk.inj (Option.some.inj hstep)
    exact .enterStart
  | _ =>
    simp only [step] at hstep
    rcases Option.or_eq_some_iff.1 hstep with hstep | ⟨-, hstep⟩
    · exact moves_of_stopStep hstep
    · exact moves_of_startStep hstep

/-! ### What is known at a place -/

/-- Only the given process may be alive. -/
def Fleet.Only (f : Fleet) (pid? : Option ℕ) : Prop :=
  ∀ q, f.alive q = true → pid? = some q

/-- What the lock protects. -/
structure Fleet.Kept (f : Fleet) : Prop where
  only : f.Only f.proc
  lt : ∀ pid, f.proc = some pid → pid < f.workers.length
  stamped : f.startedAt.isSome = f.proc.isSome

/-- How the processes may change: more of them come, and those that ended stay so. -/
structure Fleet.Later (f f' : Fleet) : Prop where
  length : f.workers.length ≤ f'.workers.length
  alive : ∀ q < f.workers.length, f'.alive q = true → f.alive q = true

/-- The first processes have ended, but for the given one. -/
def Fleet.Past (f : Fleet) (count : ℕ) (pid? : Option ℕ) : Prop :=
  ∀ q < count, f.alive q = true → pid? = some q

/-- An answer promises a worker that had been spawned, by the call itself or after it began if it is new. -/
structure Answers (call : Call) (since count : ℕ) (r : Reply) : Prop where
  lt : ∀ pid, r.worker? = some pid → pid < count
  started : ∀ pid, r = .started pid → since ≤ pid
  restarted : call = .restart → ∃ pid, r.worker? = some pid ∧ since ≤ pid

/-- What a call that restarts knows before it starts. -/
def Fleet.Renewed (f : Fleet) (t : Thread) : Prop :=
  t.call = .restart → f.Past t.since none

/-- What is known at a place. -/
def Known (t : Thread) (f : Fleet) : Prop :=
  t.since ≤ f.workers.length ∧
    match t.place with
    | .wantStop => True
    | .stopping => f.Kept
    | .terminating pid | .waiting pid | .killing pid | .reaping pid => f.Only (some pid)
    | .clearing r => f.Only none ∧ r.worker? = none
    | .unstamping r => f.Only none ∧ r.worker? = none ∧ f.proc = none
    | .stopReturns r => f.Only none ∧ r.worker? = none ∧ f.proc = none ∧ f.startedAt = none
    | .pausing | .wantStart => f.Renewed t
    | .starting => f.Kept ∧ f.Renewed t
    | .spawning => f.Kept ∧ f.Only none
    | .stamping pid => f.Only (some pid) ∧ f.proc = some pid ∧ t.since ≤ pid ∧ pid < f.workers.length
    | .probing pid => f.Kept ∧ f.proc = some pid ∧ t.since ≤ pid
    | .startReturns r => f.Kept ∧ f.proc = r.worker? ∧ Answers t.call t.since f.workers.length r
    | .raising => f.Kept ∧ f.Only none
    | .returned r count => count ≤ f.workers.length ∧ f.Past count (r.bind Reply.worker?) ∧
        ∀ reply, r = some reply → Answers t.call t.since count reply

section Fleet

variable {f f' : Fleet}

/-- A process ends. -/
theorem Fleet.alive_of_set {pid q : ℕ} (h : ({ f with workers := f.workers.set pid false } : Fleet).alive q = true) :
    f.alive q = true := by
  unfold Fleet.alive at h ⊢
  by_cases hq : pid = q
  · subst hq
    rw [List.getElem?_set_self'] at h
    rcases hget : f.workers[pid]? with - | b <;> simp [hget] at h
  · rwa [List.getElem?_set_ne hq] at h

/-- A process is spawned. -/
theorem Fleet.alive_spawn {q : ℕ} (proc : Option ℕ) (h : q ≠ f.workers.length) :
    ({ f with workers := f.workers ++ [true], proc } : Fleet).alive q = f.alive q := by
  unfold Fleet.alive
  rcases lt_or_gt_of_ne h with hlt | hgt
  · rw [List.getElem?_append_left hlt]
  · rw [List.getElem?_eq_none hgt.le, List.getElem?_eq_none]
    rw [List.length_append]
    exact hgt

theorem Fleet.Later.past (h : f.Later f') {count : ℕ} {pid? : Option ℕ} (hcount : count ≤ f.workers.length)
    (hpast : f.Past count pid?) : f'.Past count pid? :=
  fun q hq halive ↦ hpast q hq (h.alive q (hq.trans_le hcount) halive)

theorem Fleet.Only.past (h : f.Only pid?) (count : ℕ) : f.Past count pid? :=
  fun q _ halive ↦ h q halive

theorem Fleet.later_set (f : Fleet) (pid : ℕ) : f.Later { f with workers := f.workers.set pid false } :=
  ⟨List.length_set.ge, fun _ _ h ↦ Fleet.alive_of_set h⟩

theorem Fleet.Only.set (h : f.Only pid?) (pid : ℕ) :
    ({ f with workers := f.workers.set pid false } : Fleet).Only pid? :=
  fun q halive ↦ h q (Fleet.alive_of_set halive)

theorem Fleet.Kept.set (h : f.Kept) (pid : ℕ) : ({ f with workers := f.workers.set pid false } : Fleet).Kept where
  only := h.only.set pid
  lt q hq := by
    show q < (f.workers.set pid false).length
    rw [List.length_set]
    exact h.lt q hq
  stamped := h.stamped

/-- The worker has ended. -/
theorem Fleet.Kept.none_alive (h : f.Kept) (hproc : ∀ pid, f.proc = some pid → f.alive pid = false) : f.Only none :=
  fun q hq ↦ absurd (hproc q (h.only q hq)) (by simp [hq])

end Fleet

section Moves

variable {call : Call} {since : ℕ} {f f' : Fleet} {place place' : Place}

theorem later_of_moves (h : Moves call f place f' place') : f.Later f' := by
  cases h with
  | spawn =>
    refine ⟨?_, fun q hq halive ↦ ?_⟩
    · show f.workers.length ≤ (f.workers ++ [true]).length
      rw [List.length_append]
      exact Nat.le_add_right _ _
    · rwa [Fleet.alive_spawn _ hq.ne] at halive
  | _ => exact ⟨le_rfl, fun _ _ halive ↦ halive⟩

/-- Taking the lock. -/
theorem known_enter (h : Moves call f place f' place') (hin : place.inside = false) (hin' : place'.inside = true)
    (hfree : f.Kept) (hknown : Known ⟨call, since, place⟩ f) : Known ⟨call, since, place'⟩ f' := by
  cases h with
  | enterStop => exact ⟨hknown.1, hfree⟩
  | enterStart => exact ⟨hknown.1, hfree, hknown.2⟩
  | wake => cases hin'
  | _ => cases hin

/-- A step inside. -/
theorem known_stay (h : Moves call f place f' place') (hin : place.inside = true) (hin' : place'.inside = true)
    (hknown : Known ⟨call, since, place⟩ f) : Known ⟨call, since, place'⟩ f' := by
  obtain ⟨hsince, hknown⟩ := hknown
  have hlater := later_of_moves h
  refine ⟨hsince.trans hlater.length, ?_⟩
  cases h with
  | noWorker hproc => exact ⟨hknown.none_alive hproc, rfl⟩
  | worker hproc => exact hproc ▸ hknown.only
  | terminate => exact hknown
  | ended halive | killed halive =>
    refine ⟨fun q hq ↦ ?_, rfl⟩
    obtain rfl := Option.some.inj (hknown q hq)
    exact absurd hq (by simp [halive])
  | lasts => exact hknown
  | kill => exact hknown
  | clear => exact ⟨hknown.1, hknown.2, rfl⟩
  | unstamp => exact ⟨hknown.1, hknown.2.1, hknown.2.2, rfl⟩
  | @running pid hproc halive =>
    obtain ⟨hkept, hrenewed⟩ := hknown
    refine ⟨hkept, hproc, fun q hq ↦ ?_, nofun, fun hcall ↦ ⟨pid, rfl, ?_⟩⟩
    · obtain rfl := Option.some.inj hq
      exact hkept.lt _ hproc
    · -- an older worker was stopped
      by_contra hlt
      exact absurd (hrenewed hcall pid (not_le.1 hlt) halive) nofun
  | notRunning hproc => exact ⟨hknown.1, hknown.1.none_alive hproc⟩
  | fail => exact hknown
  | spawn =>
    refine ⟨fun q hq ↦ ?_, rfl, hsince, ?_⟩
    · by_contra hne
      rw [Fleet.alive_spawn _ fun heq ↦ hne (heq ▸ rfl)] at hq
      exact absurd (hknown.2 q hq) nofun
    · show f.workers.length < (f.workers ++ [true]).length
      rw [List.length_append]
      exact Nat.lt_succ_self _
  | stamp time =>
    obtain ⟨honly, hproc, hnew, hlt⟩ := hknown
    have hkept : Fleet.Kept { f with startedAt := some time } := by
      refine ⟨fun q hq ↦ hproc.trans (honly q hq), fun q hq ↦ ?_, ?_⟩
      · obtain rfl := Option.some.inj (hproc.symm.trans hq)
        exact hlt
      · rw [hproc]
        rfl
    exact ⟨hkept, hproc, hnew⟩
  | probe => exact hknown
  | @ready pid =>
    obtain ⟨hkept, hproc, hnew⟩ := hknown
    refine ⟨hkept, hproc, fun q hq ↦ ?_, fun q hq ↦ ?_, fun _ ↦ ⟨pid, rfl, hnew⟩⟩
    · obtain rfl := Option.some.inj hq
      exact hkept.lt _ hproc
    · obtain rfl := Reply.started.inj hq
      exact hnew
  | enterStop | wake | enterStart => cases hin
  | pause _ | stopped _ | started | raised => cases hin'

/-- Giving the lock back. -/
theorem known_leave (h : Moves call f place f' place') (hin : place.inside = true) (hin' : place'.inside = false)
    (hknown : Known ⟨call, since, place⟩ f) : f'.Kept ∧ Known ⟨call, since, place'⟩ f' := by
  obtain ⟨hsince, hknown⟩ := hknown
  have hstopped : f.Only none → f.proc = none → f.startedAt = none → f.Kept := fun honly hproc hstarted ↦ by
    refine ⟨hproc ▸ honly, fun pid hpid ↦ absurd (hproc.symm.trans hpid) nofun, ?_⟩
    rw [hproc, hstarted]
    rfl
  cases h with
  | pause hcall =>
    obtain ⟨honly, -, hproc, hstarted⟩ := hknown
    exact ⟨hstopped honly hproc hstarted, hsince, fun _ ↦ honly.past since⟩
  | @stopped r hcall =>
    obtain ⟨honly, hreply, hproc, hstarted⟩ := hknown
    refine ⟨hstopped honly hproc hstarted, hsince, le_rfl, ?_, fun reply hr ↦ ?_⟩
    · rw [Option.bind_some, hreply]
      exact honly.past _
    · obtain rfl := Option.some.inj hr
      refine ⟨fun pid hpid ↦ absurd (hreply.symm.trans hpid) nofun, fun pid hpid ↦ ?_, fun h ↦ absurd h hcall⟩
      rw [hpid] at hreply
      cases hreply
  | @started r =>
    obtain ⟨hkept, hproc, hanswers⟩ := hknown
    refine ⟨hkept, hsince, le_rfl, ?_, fun reply hr ↦ Option.some.inj hr ▸ hanswers⟩
    rw [Option.bind_some, ← hproc]
    exact hkept.only.past _
  | raised => exact ⟨hknown.1, hsince, le_rfl, hknown.2.past _, nofun⟩
  | enterStop | wake | enterStart => cases hin
  | _ => cases hin'

/-- A step outside. -/
theorem known_outside (h : Moves call f place f' place') (hin : place.inside = false) (hin' : place'.inside = false)
    (hknown : Known ⟨call, since, place⟩ f) : f' = f ∧ Known ⟨call, since, place'⟩ f' := by
  cases h with
  | wake => exact ⟨rfl, hknown⟩
  | enterStop | enterStart => cases hin'
  | _ => cases hin

end Moves

/-- What is known outside survives what the others do. -/
theorem known_later {t : Thread} {f f' : Fleet} (hin : t.place.inside = false) (h : Known t f) (hlater : f.Later f') :
    Known t f' := by
  obtain ⟨call, since, place⟩ := t
  obtain ⟨hsince, hknown⟩ := h
  refine ⟨hsince.trans hlater.length, ?_⟩
  cases place with
  | wantStop => trivial
  | pausing | wantStart => exact fun hcall ↦ hlater.past hsince (hknown hcall)
  | returned r count =>
    obtain ⟨hcount, hpast, hanswers⟩ := hknown
    exact ⟨hcount.trans hlater.length, hlater.past hcount hpast, hanswers⟩
  | _ => cases hin

/-- What is known inside survives the death of a process. -/
theorem known_set {t : Thread} {f : Fleet} (pid : ℕ) (hin : t.place.inside = true) (h : Known t f) :
    Known t { f with workers := f.workers.set pid false } := by
  obtain ⟨call, since, place⟩ := t
  obtain ⟨hsince, hknown⟩ := h
  have hlength : (f.workers.set pid false).length = f.workers.length := List.length_set
  refine ⟨hsince.trans hlength.ge, ?_⟩
  cases place with
  | stopping => exact Fleet.Kept.set hknown pid
  | terminating _ | waiting _ | killing _ | reaping _ => exact Fleet.Only.set hknown pid
  | clearing _ | unstamping _ | stopReturns _ => exact ⟨hknown.1.set pid, hknown.2⟩
  | starting => exact ⟨hknown.1.set pid, fun hcall ↦ (f.later_set pid).past hsince (hknown.2 hcall)⟩
  | spawning | raising => exact ⟨hknown.1.set pid, hknown.2.set pid⟩
  | stamping _ => exact ⟨hknown.1.set pid, hknown.2.1, hknown.2.2.1, hknown.2.2.2.trans_eq hlength.symm⟩
  | probing _ => exact ⟨hknown.1.set pid, hknown.2⟩
  | startReturns r =>
    obtain ⟨hkept, hproc, hanswers⟩ := hknown
    exact ⟨hkept.set pid, hproc, fun q hq ↦ (hanswers.lt q hq).trans_eq hlength.symm, hanswers.started,
      hanswers.restarted⟩
  | wantStop | pausing | wantStart | returned _ _ => cases hin

/-- The proof outline of the calls. -/
def outline : monitor.Outline where
  free := Fleet.Kept
  holds := Known
  rely := Fleet.Later
  start f call := by
    cases call with
    | start => exact ⟨rfl, le_rfl, nofun⟩
    | stop | restart => exact ⟨rfl, le_rfl, trivial⟩
  enter h hin hin' hfree hknown := by
    obtain ⟨heq, hmoves⟩ := moves_of_act h
    rw [heq]
    exact known_enter hmoves hin hin' hfree hknown
  stay h hin hin' hknown := by
    obtain ⟨heq, hmoves⟩ := moves_of_act h
    rw [heq]
    exact known_stay hmoves hin hin' hknown
  leave h hin hin' hknown := by
    obtain ⟨heq, hmoves⟩ := moves_of_act h
    rw [heq]
    exact known_leave hmoves hin hin' hknown
  outside h hin hin' hknown := by
    obtain ⟨heq, hmoves⟩ := moves_of_act h
    rw [heq]
    exact known_outside hmoves hin hin' hknown
  rely_act h _ := later_of_moves (moves_of_act h).2
  rely_env f pid := f.later_set pid
  stable hin hknown hlater := known_later hin hknown hlater
  env_free pid hkept := hkept.set pid
  env_holds pid hin hknown := known_set pid hin hknown

/-- At most one process is alive, whatever is known of it. -/
theorem alive_unique_of_known {t : Thread} {f : Fleet} (hin : t.place.inside = true) (h : Known t f) :
    ∃ pid?, f.Only pid? := by
  obtain ⟨call, since, place⟩ := t
  have hknown := h.2
  cases place with
  | stopping => exact ⟨_, hknown.only⟩
  | terminating _ | waiting _ | killing _ | reaping _ => exact ⟨_, hknown⟩
  | clearing _ | unstamping _ | stopReturns _ | stamping _ => exact ⟨_, hknown.1⟩
  | starting | spawning | probing _ | startReturns _ | raising => exact ⟨_, hknown.1.only⟩
  | wantStop | pausing | wantStart | returned _ _ => cases hin

/-- The status of a supervisor that nobody is changing. -/
theorem Fleet.Kept.status {f : Fleet} (h : f.Kept) (time : ℚ) :
    ((f.status time).running = true ↔ ∃ pid, f.alive pid = true) ∧
      (∀ pid, (f.status time).pid = some pid ↔ f.alive pid = true) ∧
      ((f.status time).uptime.isSome = true → (f.status time).running = true) := by
  have hrunning : ∀ pid, f.alive pid = true → f.isRunning = true := fun pid halive ↦ by
    rw [Fleet.isRunning, h.only pid halive]
    exact halive
  refine ⟨⟨fun hrun ↦ ?_, fun ⟨pid, halive⟩ ↦ hrunning pid halive⟩, fun pid ↦ ⟨fun hpid ↦ ?_, fun halive ↦ ?_⟩, ?_⟩
  · have hrun : f.proc.elim false f.alive = true := hrun
    rcases hproc : f.proc with - | pid <;> rw [hproc] at hrun
    · cases hrun
    · exact ⟨pid, hrun⟩
  · simp only [Fleet.status] at hpid
    split_ifs at hpid with hrun
    rw [Fleet.isRunning, hpid] at hrun
    exact hrun
  · simp only [Fleet.status, hrunning pid halive, if_true]
    exact h.only pid halive
  · simp only [Fleet.status]
    split_ifs with hrun
    · exact fun _ ↦ hrun
    · exact nofun

/-- **The worker process.** Whatever threads call `start`, `stop` and `restart`, and whenever processes die: at any moment
at most one worker is alive. While nobody holds the lock, the status says whether one is, and which. A call that has
returned promised a worker that had been spawned by then, a new one if it says so or if it restarts, and every other
worker that had been spawned by then is dead for good; one that stopped, or failed, left none of them alive. -/
theorem calls_exec (steps : List (Monitor.Step Call Found ℕ)) :
    let s := Runs.exec monitor.next (Monitor.initial Fleet.initial) steps
    (∀ p q, s.shared.alive p = true → s.shared.alive q = true → p = q) ∧
      (s.holder = none → ∀ time, ((s.shared.status time).running = true ↔ ∃ pid, s.shared.alive pid = true) ∧
        (∀ pid, (s.shared.status time).pid = some pid ↔ s.shared.alive pid = true) ∧
        ((s.shared.status time).uptime.isSome = true → (s.shared.status time).running = true)) ∧
      ∀ t ∈ s.threads, ∀ r count, t.place = .returned r count →
        (∀ q < count, s.shared.alive q = true → r.bind Reply.worker? = some q) ∧
        ∀ reply, r = some reply → Answers t.call t.since count reply := by
  intro s
  have hkept : Fleet.initial.Kept := ⟨nofun, nofun, rfl⟩
  have hsound : outline.Sound s := outline.exec hkept steps
  have honly : ∃ pid?, s.shared.Only pid? := by
    rcases hholder : s.holder with - | t
    · exact ⟨_, (hsound.free hholder).only⟩
    · have hget := List.getElem?_eq_getElem (hsound.lt t hholder)
      exact alive_unique_of_known ((hsound.holder t _ hget).2 hholder) (hsound.holds t _ hget)
  refine ⟨fun p q hp hq ↦ ?_, fun hholder time ↦ (hsound.free hholder).status time, fun t ht r count hplace ↦ ?_⟩
  · obtain ⟨pid?, honly⟩ := honly
    exact Option.some.inj ((honly p hp).symm.trans (honly q hq))
  · obtain ⟨i, hi⟩ := List.mem_iff_getElem?.1 ht
    have hknown := (hsound.holds i t hi).2
    rw [hplace] at hknown
    exact ⟨hknown.2.1, hknown.2.2⟩

end LocalGateway.Lifecycle
