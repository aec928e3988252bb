import Mathlib.Data.NNRat.Defs
import LocalGateway.Foundations.Runs
import LocalGateway.Snooze.RateLimit

/-!
# Snoozing across processes

The public port is served by the supervisor, and the snooze endpoints are not among those it passes
on to the worker: a snooze request changes the registry of the supervisor and `snooze.json`. The
worker decides where to route from its own registry, which it loads when it starts and writes over
the file when it stops.

So a request that comes while the worker runs is not seen by it, and is lost when it stops. In a run
in which no request comes then, unless the worker holds the snooze anyway, and in which no later
snooze or cooldown takes the place of a longer one (`Step.Sound`), every snooze in force is held by
both registries and the file (`holds_next`), and no routing decision finds its backend available
(`every_route_around`).
-/

namespace LocalGateway

/-! ### The two processes -/

/-- The supervisor, the worker if it runs, and the file they share. -/
structure Processes where
  now : ℚ
  supervisor : Registry
  worker : Option Registry
  file : Option SnoozeFile
deriving DecidableEq

/-- What happens at the gateway. -/
inductive Step
  /-- `POST /admin/backends/snooze`. -/
  | snooze (provider model : PyStr) (permanent : Bool) (seconds : Option ℚ)
  /-- `POST /admin/backends/unsnooze`. -/
  | unsnooze (provider model : PyStr)
  /-- `POST /admin/backends/unsnooze-all`. -/
  | unsnoozeAll
  /-- An upstream answer 429, to the worker or to the supervisor. -/
  | cooldown (worker : Bool) (provider model : PyStr) (retryAfter : Option ℚ)
  /-- The worker asks whether it may route to a backend. -/
  | route (provider model : PyStr)
  | startWorker
  /-- The worker stops, and saves its registry. -/
  | stopWorker
  /-- The worker is killed. -/
  | killWorker
  | wait (seconds : ℚ≥0)

/-- `float(seconds or 3600)`. -/
def snoozeSeconds (seconds : Option ℚ) : ℚ :=
  match seconds with
  | none => 3600
  | some s => if s = 0 then 3600 else s

section Machine

variable (epoch : ℚ)

/-- `save` of a registry of the supervisor. -/
def Processes.saved (s : Processes) (r : Registry) : Processes :=
  { s with supervisor := r, file := some (r.save s.now (s.now + epoch)) }

/-- The registry of the supervisor after a snooze request. -/
def snoozeIn (r : Registry) (now : ℚ) (key : PyStr) (permanent : Bool) (seconds : Option ℚ) :
    Registry :=
  if permanent then r.snoozePermanent key else r.snooze now key (snoozeSeconds seconds)

/-- One step, where the wall clock is ahead of the monotonic one by `epoch`. -/
def Processes.next (s : Processes) : Step → Processes
  | .snooze provider model permanent seconds =>
    if provider = [] ∨ model = [] then s
    else s.saved epoch (snoozeIn s.supervisor s.now (snoozeKey provider model) permanent seconds)
  | .unsnooze provider model =>
    if provider = [] ∨ model = [] then s
    else s.saved epoch (s.supervisor.unsnooze (snoozeKey provider model))
  | .unsnoozeAll => if s.supervisor.count = 0 then s else s.saved epoch .empty
  | .cooldown true provider model retryAfter =>
    { s with worker := s.worker.map (·.setCooldown s.now (snoozeKey provider model) retryAfter) }
  | .cooldown false provider model retryAfter =>
    { s with supervisor := s.supervisor.setCooldown s.now (snoozeKey provider model) retryAfter }
  | .route provider model =>
    { s with worker := s.worker.map fun w ↦ (w.isAvailable s.now (snoozeKey provider model)).1 }
  | .startWorker =>
    match s.worker with
    | some _ => s
    | none => { s with worker := some (.load s.file s.now (s.now + epoch)) }
  | .stopWorker =>
    match s.worker with
    | some w => { s with worker := none, file := some (w.save s.now (s.now + epoch)) }
    | none => s
  | .killWorker => { s with worker := none }
  | .wait seconds => { s with now := s.now + seconds }

/-- The supervisor when it has loaded the file it found; the worker is not started yet. -/
def Processes.start (now : ℚ) (file : Option SnoozeFile) : Processes :=
  ⟨now, .load file now (now + epoch), none, file⟩

/-- What the worker decides: whether the backend may be routed to. -/
def Processes.routes (s : Processes) (provider model : PyStr) : Option Bool :=
  s.worker.map fun w ↦ (w.isAvailable s.now (snoozeKey provider model)).2

end Machine

/-! ### Snoozes in force -/

/-- The step ends the snoozes of a backend. -/
def Step.Ends (provider model : PyStr) : Step → Prop
  | .unsnooze provider' model' => provider' = provider ∧ model' = model
  | .unsnoozeAll => True
  | _ => False

/-- Until when a request that comes at a given time snoozes its backend. -/
def snoozeExpiry (now : ℚ) (permanent : Bool) (seconds : Option ℚ) : Expiry :=
  if permanent then ⊤ else ((now + max (1 / 10) (snoozeSeconds seconds) : ℚ) : Expiry)

/-- A snooze request has succeeded for the backend and has not been taken back since; it is to
last until the given time. -/
def Requested (epoch : ℚ) (s₀ : Processes) (past : List Step) (provider model : PyStr)
    (expiry : Expiry) : Prop :=
  provider ≠ [] ∧ model ≠ [] ∧ ∃ before permanent seconds after,
    past = before ++ .snooze provider model permanent seconds :: after ∧
    expiry = snoozeExpiry (Runs.exec (Processes.next epoch) s₀ before).now permanent seconds ∧
    ∀ step ∈ after, ¬ step.Ends provider model

/-- The snooze has not expired either. -/
def InForce (epoch : ℚ) (s₀ : Processes) (past : List Step) (s : Processes)
    (provider model : PyStr) (expiry : Expiry) : Prop :=
  Requested epoch s₀ past provider model expiry ∧ (s.now : Expiry) < expiry

/-- A step is sound if it takes no snooze in force away, unless it ends it, and a snooze request is
known to the worker: it is not running, or holds the snooze anyway. -/
def Step.Sound (epoch : ℚ) (s₀ : Processes) (past : List Step) (s : Processes) : Step → Prop
  | .snooze provider model permanent seconds =>
    provider = [] ∨ model = [] ∨
      (∀ w, s.worker = some w →
        w.Holds (snoozeKey provider model) (snoozeExpiry s.now permanent seconds)) ∧
      ∀ provider' model' expiry, InForce epoch s₀ past s provider' model' expiry →
        snoozeKey provider' model' = snoozeKey provider model →
        expiry ≤ snoozeExpiry s.now permanent seconds
  | .unsnooze provider model =>
    ∀ provider' model' expiry, InForce epoch s₀ past s provider' model' expiry →
      snoozeKey provider' model' = snoozeKey provider model → provider = provider' ∧ model = model'
  | .cooldown _ provider model retryAfter =>
    ∀ provider' model' expiry, InForce epoch s₀ past s provider' model' expiry →
      snoozeKey provider' model' = snoozeKey provider model →
      expiry = ⊤ ∨ expiry ≤ ((s.now + max (1 / 10) (retryAfter.getD 5) : ℚ) : Expiry)
  | _ => True

/-! ### What a step keeps -/

/-- Both registries, as far as there are two, and the file hold a snooze. -/
structure Processes.Holds (epoch : ℚ) (s : Processes) (key : PyStr) (expiry : Expiry) : Prop where
  supervisor : s.supervisor.Holds key expiry
  worker : ∀ w, s.worker = some w → w.Holds key expiry
  file : ∃ f, s.file = some f ∧ f.Holds epoch key expiry

variable {epoch : ℚ} {s₀ s : Processes} {past : List Step} {provider model k : PyStr} {e : Expiry}

/-- The supervisor's registry holds the snooze it was asked for. -/
theorem snoozeIn_holds_self (r : Registry) (now : ℚ) (permanent : Bool) (seconds : Option ℚ) :
    (snoozeIn r now k permanent seconds).Holds k (snoozeExpiry now permanent seconds) := by
  unfold snoozeIn snoozeExpiry
  cases permanent
  · exact snooze_holds_self _
  · exact snoozePermanent_holds_self

/-- It keeps the others, and this one if it was no longer. -/
theorem snoozeIn_holds {r : Registry} (h : r.Holds k e) {now : ℚ} {l : PyStr} {permanent : Bool}
    {seconds : Option ℚ} (hself : k = l → e ≤ snoozeExpiry now permanent seconds) :
    (snoozeIn r now l permanent seconds).Holds k e := by
  by_cases hkl : k = l
  · subst hkl
    exact (snoozeIn_holds_self r now permanent seconds).mono (hself rfl)
  · unfold snoozeIn
    cases permanent
    · exact snooze_holds_of_ne h hkl _
    · exact snoozePermanent_holds_of_ne h hkl

theorem lt_snoozeExpiry (now : ℚ) (permanent : Bool) (seconds : Option ℚ) :
    (now : Expiry) < snoozeExpiry now permanent seconds := by
  unfold snoozeExpiry
  cases permanent
  · have hpos : (0 : ℚ) < max (1 / 10) (snoozeSeconds seconds) := lt_max_of_lt_left (by norm_num)
    simp only [Bool.false_eq_true, if_false]
    exact_mod_cast lt_add_of_pos_right now hpos
  · exact WithTop.coe_lt_top now

theorem le_next_now (step : Step) : s.now ≤ (s.next epoch step).now := by
  cases step with
  | wait seconds => exact le_add_of_nonneg_right seconds.2
  | snooze | unsnooze | unsnoozeAll =>
    simp only [Processes.next]
    split_ifs <;> exact le_rfl
  | cooldown worker => cases worker <;> exact le_rfl
  | startWorker | stopWorker =>
    simp only [Processes.next]
    split <;> exact le_rfl
  | route | killWorker => exact le_rfl

/-- A change of the supervisor's registry that is saved. -/
theorem saved_holds (h : s.Holds epoch k e) (hnow : (s.now : Expiry) < e) {r : Registry}
    (hr : r.Holds k e) : (s.saved epoch r).Holds epoch k e :=
  ⟨hr, h.worker, _, rfl, save_holds hr hnow epoch⟩

/-- **One step for a snooze in force.** A sound step that does not end it keeps it everywhere. -/
theorem holds_next (h : s.Holds epoch (snoozeKey provider model) e)
    (hforce : InForce epoch s₀ past s provider model e) {step : Step}
    (hends : ¬ step.Ends provider model) (hsound : step.Sound epoch s₀ past s) :
    (s.next epoch step).Holds epoch (snoozeKey provider model) e := by
  have hnow := hforce.2
  cases step with
  -- a new snooze of the key has to last as long as the one in force
  | snooze provider' model' permanent seconds =>
    simp only [Processes.next]
    split_ifs with hempty
    · exact h
    · rcases hsound with hp | hm | ⟨-, hlonger⟩
      · exact absurd (.inl hp) hempty
      · exact absurd (.inr hm) hempty
      · exact saved_holds h hnow (snoozeIn_holds h.supervisor (hlonger _ _ _ hforce))
  | unsnooze provider' model' =>
    simp only [Processes.next]
    split_ifs with hempty
    · exact h
    · refine saved_holds h hnow (unsnooze_holds_of_ne h.supervisor fun heq ↦ hends ?_)
      exact hsound _ _ _ hforce heq
  | unsnoozeAll => exact absurd trivial hends
  | cooldown worker provider' model' retryAfter =>
    have hself : ∀ r : Registry, snoozeKey provider model = snoozeKey provider' model' →
        snoozeKey provider model ∉ r.permanent → r.Holds (snoozeKey provider model) e →
        e ≤ ((s.now + max (1 / 10) (retryAfter.getD 5) : ℚ) : Expiry) := by
      intro r heq hp hr
      rcases hsound _ _ _ hforce heq with rfl | hle
      · -- a snooze for good is held as one
        rcases hr with hr | ⟨t, -, ht⟩
        · exact absurd hr hp
        · exact absurd ht (not_le.2 (WithTop.coe_lt_top t))
      · exact hle
    cases worker
    · exact ⟨setCooldown_holds h.supervisor fun heq hp ↦ hself _ heq hp h.supervisor, h.worker,
        h.file⟩
    · refine ⟨h.supervisor, fun w hw ↦ ?_, h.file⟩
      obtain ⟨w, hworker, rfl⟩ := Option.map_eq_some_iff.1 hw
      have hheld := h.worker w hworker
      exact setCooldown_holds hheld fun heq hp ↦ hself w heq hp hheld
  | route provider' model' =>
    refine ⟨h.supervisor, fun w hw ↦ ?_, h.file⟩
    obtain ⟨w, hworker, rfl⟩ := Option.map_eq_some_iff.1 hw
    exact isAvailable_holds (h.worker w hworker) hnow
  -- the worker reads the file, which has the snooze
  | startWorker =>
    simp only [Processes.next]
    split
    · exact h
    · obtain ⟨f, hfile, hf⟩ := h.file
      refine ⟨h.supervisor, fun w hw ↦ ?_, f, hfile, hf⟩
      obtain rfl := Option.some.inj hw
      rw [hfile]
      exact load_holds hf hnow
  -- the worker writes the file, and it holds the snooze itself
  | stopWorker =>
    simp only [Processes.next]
    split
    · next w hworker =>
      refine ⟨h.supervisor, fun _ hw ↦ (by cases hw), _, rfl, ?_⟩
      exact save_holds (h.worker w hworker) hnow epoch
    · exact h
  | killWorker => exact ⟨h.supervisor, fun _ hw ↦ (by cases hw), h.file⟩
  | wait seconds => exact ⟨h.supervisor, h.worker, h.file⟩

/-! ### Runs -/

/-- What is requested after one more step was requested before and is not ended, or is requested
now. -/
theorem requested_concat {step : Step}
    (h : Requested epoch s₀ (past ++ [step]) provider model e) :
    (Requested epoch s₀ past provider model e ∧ ¬ step.Ends provider model) ∨
      ∃ permanent seconds, step = .snooze provider model permanent seconds ∧
        e = snoozeExpiry (Runs.exec (Processes.next epoch) s₀ past).now permanent seconds := by
  obtain ⟨hp, hm, before, permanent, seconds, after, heq, he, hafter⟩ := h
  rcases List.eq_nil_or_concat after with rfl | ⟨after, last, rfl⟩
  · obtain ⟨rfl, hstep⟩ := List.append_inj' heq rfl
    obtain rfl : step = _ := List.singleton_inj.1 hstep
    exact .inr ⟨permanent, seconds, rfl, he⟩
  · have heq' : past ++ [step] =
        (before ++ .snooze provider model permanent seconds :: after) ++ [last] := by
      simpa using heq
    obtain ⟨rfl, hlast⟩ := List.append_inj' heq' rfl
    obtain rfl := List.singleton_inj.1 hlast
    refine .inl ⟨⟨hp, hm, before, permanent, seconds, after, rfl, he, ?_⟩, ?_⟩
    · exact fun s hs ↦ hafter s (by simp [hs])
    · exact hafter step (by simp)

/-- Every snooze in force is held everywhere. -/
structure Processes.Tracks (s : Processes) (epoch : ℚ) (s₀ : Processes) (past : List Step) : Prop where
  run : s = Runs.exec (Processes.next epoch) s₀ past
  holds : ∀ provider model e, InForce epoch s₀ past s provider model e →
    s.Holds epoch (snoozeKey provider model) e

/-- A request whose snooze the worker holds already, or will load. -/
theorem holds_snooze {permanent : Bool} {seconds : Option ℚ} (hp : provider ≠ []) (hm : model ≠ [])
    (hsound : (Step.snooze provider model permanent seconds).Sound epoch s₀ past s) :
    (s.next epoch (.snooze provider model permanent seconds)).Holds epoch (snoozeKey provider model)
      (snoozeExpiry s.now permanent seconds) := by
  rcases hsound with hnil | hnil | ⟨hworker, -⟩
  · exact absurd hnil hp
  · exact absurd hnil hm
  · have hself := snoozeIn_holds_self (k := snoozeKey provider model) s.supervisor s.now permanent seconds
    have hfile := save_holds hself (lt_snoozeExpiry s.now permanent seconds) epoch
    simp only [Processes.next]
    rw [if_neg (not_or.2 ⟨hp, hm⟩)]
    exact ⟨hself, hworker, _, rfl, hfile⟩

/-- **One step.** Sound steps keep every snooze in force in both registries and in the file. -/
theorem Processes.Tracks.next (h : s.Tracks epoch s₀ past) {step : Step}
    (hsound : step.Sound epoch s₀ past s) :
    (s.next epoch step).Tracks epoch s₀ (past ++ [step]) := by
  have hrun : s.next epoch step = Runs.exec (Processes.next epoch) s₀ (past ++ [step]) := by
    rw [Runs.exec_concat, ← h.run]
  refine ⟨hrun, fun provider model e hforce ↦ ?_⟩
  have hnow : (s.now : Expiry) < e :=
    lt_of_le_of_lt (WithTop.coe_le_coe.2 (le_next_now step)) hforce.2
  rcases requested_concat hforce.1 with ⟨hold, hends⟩ | ⟨permanent, seconds, rfl, rfl⟩
  · exact holds_next (h.holds provider model e ⟨hold, hnow⟩) ⟨hold, hnow⟩ hends hsound
  · rw [← h.run] at hforce ⊢
    exact holds_snooze hforce.1.1 hforce.1.2.1 hsound

/-- No routing decision finds the backend of a snooze in force available. -/
def RoutesAround (epoch : ℚ) (s₀ : Processes) (past : List Step) (s : Processes) : Step → Prop
  | .route provider model =>
    ∀ expiry, InForce epoch s₀ past s provider model expiry → s.routes provider model ≠ some true
  | _ => True

/-- **Snoozes are respected in sound runs**, over any restarts of the worker: from any file, if each
snooze request comes while the worker is stopped, or holds the snooze anyway, and nothing shorter
takes the place of a snooze in force, then no routing decision finds its backend available. -/
theorem every_route_around (epoch now : ℚ) (file : Option SnoozeFile) (steps : List Step)
    (h : Runs.Every (Processes.next epoch) (Step.Sound epoch (.start epoch now file))
      (.start epoch now file) steps) :
    Runs.Every (Processes.next epoch) (RoutesAround epoch (.start epoch now file))
      (.start epoch now file) steps := by
  have hstart : (Processes.start epoch now file).Tracks epoch (.start epoch now file) [] := by
    refine ⟨rfl, ?_⟩
    rintro provider model e ⟨⟨-, -, before, _, _, after, heq, -⟩, -⟩
    simp at heq
  refine Runs.every_of_invariant (fun past s ↦ s.Tracks epoch (.start epoch now file) past)
    hstart ?_ ?_ h
  · exact fun past s step htracks hstep ↦ htracks.next hstep
  · rintro past s step htracks -
    cases step with
    | route provider model =>
      intro e hforce htrue
      obtain ⟨w, hw, havailable⟩ := Option.map_eq_some_iff.1 htrue
      have hheld := (htracks.holds provider model e hforce).worker w hw
      rw [isAvailable_eq_false hheld hforce.2] at havailable
      cases havailable
    | _ => trivial

/-- The backend `p:m` is snoozed for good before the worker is started, and stays so when it is
started again. -/
theorem every_route_around_sample :
    Runs.Every (Processes.next 0) (RoutesAround 0 (.start 0 0 none)) (.start 0 0 none)
      [.snooze (py "p") (py "m") true none, .startWorker, .route (py "p") (py "m"), .stopWorker,
        .startWorker, .route (py "p") (py "m")] := by
  refine every_route_around 0 0 none _ fun past step future heq ↦ ?_
  rcases past with - | ⟨first, past⟩
  · obtain ⟨rfl, -⟩ := List.cons_eq_cons.1 heq
    refine .inr (.inr ⟨fun w hw ↦ (by cases hw), ?_⟩)
    rintro provider model e ⟨⟨-, -, before, _, _, after, hnil, -⟩, -⟩
    simp at hnil
  · obtain ⟨-, heq⟩ := List.cons_eq_cons.1 heq
    have hmem : step ∈ [Step.startWorker, .route (py "p") (py "m"), .stopWorker, .startWorker,
        .route (py "p") (py "m")] := by
      rw [heq]
      simp
    simp only [List.mem_cons, List.not_mem_nil, or_false] at hmem
    rcases hmem with rfl | rfl | rfl | rfl | rfl <;> trivial

/-- **A snooze that is not respected.** The worker runs when the request comes, and routes to the
backend; it does so as well after it has been stopped and started again, because it has written
over the file. -/
theorem not_every_route_around :
    ¬ Runs.Every (Processes.next 0) (RoutesAround 0 (.start 0 0 none)) (.start 0 0 none)
        [.startWorker, .snooze (py "p") (py "m") true none, .route (py "p") (py "m")] ∧
      ¬ Runs.Every (Processes.next 0) (RoutesAround 0 (.start 0 0 none)) (.start 0 0 none)
        [.startWorker, .snooze (py "p") (py "m") true none, .stopWorker, .startWorker,
          .route (py "p") (py "m")] := by
  have hrequested : ∀ after : List Step, (∀ step ∈ after, ¬ step.Ends (py "p") (py "m")) →
      Requested 0 (.start 0 0 none)
        (.startWorker :: .snooze (py "p") (py "m") true none :: after) (py "p") (py "m") ⊤ :=
    fun after hafter ↦ ⟨by decide, by decide, [.startWorker], true, none, after, rfl, rfl, hafter⟩
  constructor
  · intro h
    refine h [.startWorker, .snooze (py "p") (py "m") true none] _ [] rfl ⊤
      ⟨hrequested [] (by simp), WithTop.coe_lt_top _⟩ ?_
    decide
  · intro h
    refine h [.startWorker, .snooze (py "p") (py "m") true none, .stopWorker, .startWorker] _ [] rfl ⊤
      ⟨hrequested [.stopWorker, .startWorker] ?_, WithTop.coe_lt_top _⟩ ?_
    · simp [Step.Ends]
    · decide

end LocalGateway
