import Mathlib.Algebra.BigOperators.Group.List.Basic
import Mathlib.Logic.Function.Basic
import Mathlib.Tactic.NormNum
import LocalGateway.Foundations.Runs
import LocalGateway.Routing.Candidates

/-!
# Budgets

The daily and the monthly budget of a client key (`clientquota.py`, and `get_key_spend` of `usage.py`).
A call of `check_budget` reads the clock, asks the cache, and only if nothing in it is fresh asks the
usage table, with one SELECT for the day and one for the month; what it read is cached under the time at
which the call began. Calls for any keys interleave, each of these being a step of its own, with
requests that hand their rows to the writer, the writer, and invalidations.

Times and costs are rational numbers.

* `SpendRead`: one execution of `get_key_spend` in a run.
* `SpendInv`: the invariant, that whatever a call holds or the cache has was read in the run, after the
  time it is kept under.
* `budget_staleness`: a request that is let through was within every budget by a read that is less than
  five seconds older than its own reading of the clock; what is spent beyond a budget was not written at
  the time of the read, or handed to the writer later, or lost by rounding.
-/

namespace LocalGateway

open Py

/-! ### The usage table -/

/-- What the budgets look at in a row of `usage`. -/
structure SpendRow where
  ts : ℚ
  apiKeyId : Option PyStr
  cost : Option ℚ
  isProbe : Bool
deriving DecidableEq

/-- The rows of a key since a time, without the probes. -/
def rowsSince (table : List SpendRow) (id : PyStr) (since : ℚ) : List SpendRow :=
  table.filter fun row ↦ row.apiKeyId = some id ∧ since ≤ row.ts ∧ row.isProbe = false

/-- `SUM(cost)`, and zero if there is none. -/
def sumCost (table : List SpendRow) (id : PyStr) (since : ℚ) : ℚ :=
  ((rowsSince table id since).filterMap SpendRow.cost).sum

/-- The two periods of a budget. -/
inductive Period where
  | daily
  | monthly
deriving DecidableEq

/-- What a SELECT for a period returns. -/
structure PeriodSpend where
  cost : ℚ
  requests : ℕ
deriving DecidableEq

/-- The SELECT of `get_key_spend`. -/
def selectSpend (table : List SpendRow) (id : PyStr) (since : ℚ) : PeriodSpend where
  cost := sumCost table id since
  requests := (rowsSince table id since).length

/-- What `get_key_spend` returns for a period. -/
def PeriodSpend.rounded (s : PeriodSpend) : PeriodSpend :=
  { s with cost := PyFloat.roundTo 6 s.cost }

/-- What `get_key_spend` returns. -/
abbrev KeySpend := Period → PeriodSpend

/-- The dictionary of the two periods. -/
def KeySpend.of (day month : PeriodSpend) : KeySpend
  | .daily => day.rounded
  | .monthly => month.rounded

/-! ### The decision -/

/-- The field with the budget for a period. -/
def Period.field : Period → PyStr
  | .daily => py "daily_budget_usd"
  | .monthly => py "monthly_budget_usd"

/-- The budget of a key for a period. -/
def ApiKeyConfig.budget (key : ApiKeyConfig) (p : Period) : Option PyFloat :=
  attrFloat key.attrs.fields p.field

/-- The budget is set: a zero counts as none. -/
def ApiKeyConfig.hasBudget (key : ApiKeyConfig) (p : Period) : Bool :=
  (key.budget p).any fun b ↦ !b.isZero

/-- The budget for a period, if it is set and `spent >= budget`. -/
def ApiKeyConfig.reached (key : ApiKeyConfig) (p : Period) (spent : ℚ) : Option PyFloat :=
  (key.budget p).filter fun b ↦ !b.isZero && b ≠ .nan && !PyFloat.lt (.fin spent) b

/-- `_SPEND_CACHE_TTL`. -/
def spendCacheTtl : ℚ :=
  5

/-- What `check_budget` returns: the period whose budget is exceeded, what was spent, and the budget. -/
abbrev Exceeded := Period × ℚ × PyFloat

/-- The end of `check_budget`. -/
def decideBudget (key : ApiKeyConfig) (spend : KeySpend) : Option Exceeded :=
  match key.reached .daily (spend .daily).cost with
  | some limit => some (.daily, (spend .daily).cost, limit)
  | none =>
    match key.reached .monthly (spend .monthly).cost with
    | some limit => some (.monthly, (spend .monthly).cost, limit)
    | none => none

/-! ### Calls that interleave -/

/-- Where a call of `check_budget` is. `began` is its reading of the clock. -/
inductive BudgetPhase where
  | idle
  /-- It waits for the lock to look into the cache. -/
  | looking (key : ApiKeyConfig) (began : ℚ)
  /-- There was nothing fresh: `get_key_spend` is called. -/
  | missed (key : ApiKeyConfig) (began : ℚ)
  /-- It has asked for the local time. -/
  | dated (key : ApiKeyConfig) (began dayStart monthStart : ℚ)
  /-- It has the answer of the first SELECT. -/
  | counted (key : ApiKeyConfig) (began monthStart : ℚ) (day : PeriodSpend)
  /-- `get_key_spend` has returned. -/
  | storing (key : ApiKeyConfig) (began : ℚ) (spend : KeySpend)
  | deciding (key : ApiKeyConfig) (began : ℚ) (spend : KeySpend)
  | returned

/-- The state: the usage table, the rows that wait for the writer, `_spend_cache`, and the calls. -/
structure BudgetState where
  table : List SpendRow
  pending : List SpendRow
  cache : PyStr → Option (ℚ × KeySpend)
  calls : ℕ → BudgetPhase

/-- What happens. -/
inductive BudgetAct where
  /-- `log_request` hands a row to the writer. -/
  | log (row : SpendRow)
  /-- The writer writes its oldest row. -/
  | write
  /-- `invalidate_spend`. -/
  | invalidate (id : Option PyStr)
  /-- `check_budget` is called. -/
  | call (j : ℕ) (key : ApiKeyConfig)
  /-- A call takes its next step. -/
  | proceed (j : ℕ)

/-- Something that happens, at a reading of `time.monotonic()`. -/
structure BudgetStep where
  time : ℚ
  act : BudgetAct

namespace BudgetState

/-- A process that has just started on a table. -/
def start (table : List SpendRow) : BudgetState :=
  ⟨table, [], fun _ ↦ none, fun _ ↦ .idle⟩

/-- The call is in another phase. -/
def setCall (s : BudgetState) (j : ℕ) (phase : BudgetPhase) : BudgetState :=
  { s with calls := Function.update s.calls j phase }

section Machine

variable (clock : Period → ℚ → ℚ)

/-- A call goes on. `clock` tells when the local day and the local month began. -/
def proceed (s : BudgetState) (j : ℕ) (time : ℚ) : BudgetState :=
  match s.calls j with
  | .looking key began =>
    match s.cache key.id with
    -- the time of the call, not that of the lookup, decides whether the entry is fresh
    | some (since, spend) =>
      if began - since < spendCacheTtl then s.setCall j (.deciding key began spend) else s.setCall j (.missed key began)
    | none => s.setCall j (.missed key began)
  | .missed key began => s.setCall j (.dated key began (clock .daily time) (clock .monthly time))
  | .dated key began dayStart monthStart =>
    s.setCall j (.counted key began monthStart (selectSpend s.table key.id dayStart))
  | .counted key began monthStart day =>
    s.setCall j (.storing key began (.of day (selectSpend s.table key.id monthStart)))
  -- `_spend_cache[key_id] = (now, spend)`, with `now` of the beginning of the call
  | .storing key began spend =>
    { s.setCall j (.deciding key began spend) with cache := Function.update s.cache key.id (some (began, spend)) }
  | .deciding .. => s.setCall j .returned
  | .idle | .returned => s

/-- The state after a step. -/
def next (s : BudgetState) (i : BudgetStep) : BudgetState :=
  match i.act with
  | .log row => { s with pending := s.pending ++ [row] }
  | .write =>
    match s.pending with
    | [] => s
    | row :: pending => { s with table := s.table ++ [row], pending := pending }
  | .invalidate none => { s with cache := fun _ ↦ none }
  | .invalidate (some id) => { s with cache := Function.update s.cache id none }
  | .call j key =>
    if key.id = [] ∨ (key.hasBudget .daily = false ∧ key.hasBudget .monthly = false) then s.setCall j .returned
    else s.setCall j (.looking key i.time)
  | .proceed j => proceed clock s j i.time

/-- The call of `check_budget` that returns in a step: its key, its reading of the clock, and what it
returns. -/
def returns (s : BudgetState) (i : BudgetStep) : Option (ApiKeyConfig × ℚ × Option Exceeded) :=
  match i.act with
  | .call _ key =>
    if key.id = [] ∨ (key.hasBudget .daily = false ∧ key.hasBudget .monthly = false) then
      some (key, i.time, none)
    else none
  | .proceed j =>
    match s.calls j with
    | .deciding key began spend => some (key, began, decideBudget key spend)
    | _ => none
  | _ => none

end Machine

end BudgetState

/-! ### What the decision says -/

theorem decideBudget_eq_none_iff {key : ApiKeyConfig} {spend : KeySpend} :
    decideBudget key spend = none ↔ ∀ p, key.reached p (spend p).cost = none := by
  have hperiods : (∀ p, key.reached p (spend p).cost = none) ↔
      key.reached .daily (spend .daily).cost = none ∧ key.reached .monthly (spend .monthly).cost = none := by
    refine ⟨fun h ↦ ⟨h .daily, h .monthly⟩, fun h p ↦ ?_⟩
    cases p
    · exact h.1
    · exact h.2
  rw [hperiods, decideBudget]
  cases key.reached .daily (spend .daily).cost <;>
    cases key.reached .monthly (spend .monthly).cost <;> simp

/-- A positive number is neither zero nor NaN. -/
theorem isZero_eq_false_of_pos {b : PyFloat} (hpos : PyFloat.lt (.fin 0) b = true) :
    b.isZero = false ∧ b ≠ .nan := by
  cases b with
  | fin q =>
    have hq : (0 : ℚ) < q := of_decide_eq_true hpos
    simp [PyFloat.isZero, hq.ne']
  | negZero => simp [PyFloat.lt, PyFloat.rat] at hpos
  | inf neg => simp [PyFloat.isZero]
  | nan => simp [PyFloat.lt] at hpos

theorem ApiKeyConfig.hasBudget_of_pos {key : ApiKeyConfig} {p : Period} {b : PyFloat}
    (hbudget : key.budget p = some b) (hpos : PyFloat.lt (.fin 0) b = true) : key.hasBudget p = true := by
  rw [ApiKeyConfig.hasBudget, hbudget, Option.any_some, (isZero_eq_false_of_pos hpos).1]
  rfl

/-- What has not reached a positive budget is below it. -/
theorem ApiKeyConfig.lt_of_reached_eq_none {key : ApiKeyConfig} {p : Period} {b : PyFloat} {spent : ℚ}
    (hbudget : key.budget p = some b) (hpos : PyFloat.lt (.fin 0) b = true)
    (h : key.reached p spent = none) : PyFloat.lt (.fin spent) b = true := by
  obtain ⟨hzero, hnan⟩ := isZero_eq_false_of_pos hpos
  rw [ApiKeyConfig.reached, hbudget] at h
  by_contra hnot
  simp [Option.filter, hzero, hnan, hnot] at h

namespace BudgetState

/-! ### Reads of the usage table in a run -/

section Reads

variable (clock : Period → ℚ → ℚ) (s₀ : BudgetState)

/-- The call's next step is the SELECT for a period, for a key. -/
def Selects (phase : BudgetPhase) (id : PyStr) (p : Period) (since : ℚ) : Prop :=
  match p, phase with
  | .daily, .dated key _ dayStart _ => key.id = id ∧ dayStart = since
  | .monthly, .counted key _ monthStart _ => key.id = id ∧ monthStart = since
  | _, _ => False

/-- After the steps `before`, at `time`, a call makes the SELECT for a period. -/
def Selected (steps : List BudgetStep) (id : PyStr) (p : Period) (since : ℚ) (before : List BudgetStep)
    (time : ℚ) : Prop :=
  ∃ j rest, steps = before ++ ⟨time, .proceed j⟩ :: rest ∧
    Selects ((Runs.exec (next clock) s₀ before).calls j) id p since

/-- One execution of `get_key_spend`: when it asks for the local time, and for each period the steps
before its SELECT, and when that is. -/
structure SpendRead where
  datedAt : ℚ
  before : Period → List BudgetStep
  selectAt : Period → ℚ

/-- When the local period of the read began. -/
def SpendRead.since (r : SpendRead) (p : Period) : ℚ :=
  clock p r.datedAt

/-- The state that the SELECT for a period meets. -/
def SpendRead.state (r : SpendRead) (p : Period) : BudgetState :=
  Runs.exec (next clock) s₀ (r.before p)

/-- What the SELECT for a period returns. -/
def SpendRead.select (r : SpendRead) (id : PyStr) (p : Period) : PeriodSpend :=
  selectSpend (r.state clock s₀ p).table id (r.since clock p)

/-- The run makes the read, for the key. -/
structure SpendRead.In (r : SpendRead) (steps : List BudgetStep) (id : PyStr) : Prop where
  dated_le : ∀ p, r.datedAt ≤ r.selectAt p
  selected : ∀ p, Selected clock s₀ steps id p (r.since clock p) (r.before p) (r.selectAt p)

/-- The run made the read that returned `spend`, and did not begin it before `time`. -/
def ReadAfter (steps : List BudgetStep) (id : PyStr) (time : ℚ) (spend : KeySpend) : Prop :=
  ∃ r : SpendRead, r.In clock s₀ steps id ∧ time ≤ r.datedAt ∧
    ∀ p, spend p = (r.select clock s₀ id p).rounded

/-- The run has come to the time. -/
def Passed (steps : List BudgetStep) (time : ℚ) : Prop :=
  ∃ i ∈ steps, time ≤ i.time

/-- What a call knows in its phase. -/
def PhaseInv (steps : List BudgetStep) : BudgetPhase → Prop
  | .idle | .returned => True
  | .looking _ began | .missed _ began => Passed steps began
  | .dated _ began dayStart monthStart => ∃ t, began ≤ t ∧ Passed steps t ∧ dayStart = clock .daily t ∧
      monthStart = clock .monthly t
  | .counted key began monthStart day => ∃ t before dayAt, began ≤ t ∧ t ≤ dayAt ∧ Passed steps dayAt ∧
      monthStart = clock .monthly t ∧ Selected clock s₀ steps key.id .daily (clock .daily t) before dayAt ∧
      day = selectSpend (Runs.exec (next clock) s₀ before).table key.id (clock .daily t)
  | .storing key began spend => ReadAfter clock s₀ steps key.id began spend
  | .deciding key began spend => ∃ since, began - since < spendCacheTtl ∧
      ReadAfter clock s₀ steps key.id since spend

/-- Whatever a call holds and the cache has was read in the run, not before the time it is kept under. -/
structure SpendInv (steps : List BudgetStep) (s : BudgetState) : Prop where
  state : s = Runs.exec (next clock) s₀ steps
  calls : ∀ j, PhaseInv clock s₀ steps (s.calls j)
  cache : ∀ id since spend, s.cache id = some (since, spend) → ReadAfter clock s₀ steps id since spend

end Reads

section Invariant

variable {clock : Period → ℚ → ℚ} {s₀ s : BudgetState} {steps more : List BudgetStep} {id : PyStr}
  {time : ℚ}

theorem Selected.append {p : Period} {since : ℚ} {before : List BudgetStep}
    (h : Selected clock s₀ steps id p since before time) (more : List BudgetStep) :
    Selected clock s₀ (steps ++ more) id p since before time := by
  obtain ⟨j, rest, rfl, hselects⟩ := h
  exact ⟨j, rest ++ more, by simp, hselects⟩

theorem ReadAfter.append {spend : KeySpend} (h : ReadAfter clock s₀ steps id time spend)
    (more : List BudgetStep) : ReadAfter clock s₀ (steps ++ more) id time spend := by
  obtain ⟨r, hin, hafter, hspend⟩ := h
  exact ⟨r, ⟨hin.dated_le, fun p ↦ (hin.selected p).append more⟩, hafter, hspend⟩

theorem Passed.append (h : Passed steps time) (more : List BudgetStep) : Passed (steps ++ more) time := by
  obtain ⟨i, hi, hle⟩ := h
  exact ⟨i, List.mem_append_left _ hi, hle⟩

/-- What a call knows stays true. -/
theorem PhaseInv.append {phase : BudgetPhase} (h : PhaseInv clock s₀ steps phase)
    (more : List BudgetStep) : PhaseInv clock s₀ (steps ++ more) phase := by
  cases phase with
  | idle | returned => trivial
  | looking key began | missed key began => exact Passed.append h more
  | dated key began dayStart monthStart =>
    obtain ⟨t, hle, hpassed, hstarts⟩ := h
    exact ⟨t, hle, hpassed.append more, hstarts⟩
  | counted key began monthStart day =>
    obtain ⟨t, before, dayAt, hle, hday, hpassed, hmonth, hselected, hcost⟩ := h
    exact ⟨t, before, dayAt, hle, hday, hpassed.append more, hmonth, hselected.append more, hcost⟩
  | storing key began spend => exact ReadAfter.append h more
  | deciding key began spend =>
    obtain ⟨since, hfresh, hread⟩ := h
    exact ⟨since, hfresh, hread.append more⟩

/-- A step keeps the invariant if what is new in it is known. -/
theorem SpendInv.step {i : BudgetStep} (h : SpendInv clock s₀ steps s)
    (hcalls : ∀ k, (next clock s i).calls k = s.calls k ∨
      PhaseInv clock s₀ (steps ++ [i]) ((next clock s i).calls k))
    (hcache : ∀ id since spend, (next clock s i).cache id = some (since, spend) →
      s.cache id = some (since, spend) ∨ ReadAfter clock s₀ (steps ++ [i]) id since spend) :
    SpendInv clock s₀ (steps ++ [i]) (next clock s i) where
  state := by rw [Runs.exec_concat, ← h.state]
  calls k := (hcalls k).elim (fun heq ↦ heq ▸ (h.calls k).append [i]) id
  cache id since spend he :=
    (hcache id since spend he).elim (fun he ↦ (h.cache id since spend he).append [i]) fun h ↦ h

/-- A step that changes nothing. -/
theorem SpendInv.same {i : BudgetStep} (h : SpendInv clock s₀ steps s) (hnext : next clock s i = s) :
    SpendInv clock s₀ (steps ++ [i]) (next clock s i) :=
  h.step (fun _ ↦ .inl (by rw [hnext])) fun _ _ _ he ↦ .inl (by rwa [hnext] at he)

/-- A call enters a phase. -/
theorem SpendInv.setCall {j : ℕ} {phase : BudgetPhase} {i : BudgetStep} (h : SpendInv clock s₀ steps s)
    (hnext : next clock s i = s.setCall j phase) (hphase : PhaseInv clock s₀ (steps ++ [i]) phase) :
    SpendInv clock s₀ (steps ++ [i]) (next clock s i) := by
  refine h.step (fun k ↦ ?_) fun id since spend he ↦ .inl (by rwa [hnext] at he)
  rw [hnext]
  by_cases hk : k = j
  · subst hk
    exact .inr (by simpa [BudgetState.setCall] using hphase)
  · exact .inl (by simp [BudgetState.setCall, Function.update_of_ne hk])

theorem Passed.le {start t : ℚ} (h : Passed steps time)
    (ht : Runs.Until BudgetStep.time start steps t) : time ≤ t := by
  obtain ⟨i, hi, hle⟩ := h
  exact hle.trans (ht.2 i hi)

theorem passed_concat (steps : List BudgetStep) (i : BudgetStep) : Passed (steps ++ [i]) i.time :=
  ⟨i, List.mem_concat_self, le_rfl⟩

/-- **One step of a call.** A miss is followed by the local time and the two SELECTs in this order, each
not before the one before it. -/
theorem SpendInv.proceed {start : ℚ} {j : ℕ} (h : SpendInv clock s₀ steps s)
    (htime : Runs.Until BudgetStep.time start steps time) :
    SpendInv clock s₀ (steps ++ [⟨time, .proceed j⟩]) (next clock s ⟨time, .proceed j⟩) := by
  have hcall := h.calls j
  have hnext : next clock s ⟨time, .proceed j⟩ = BudgetState.proceed clock s j time := rfl
  unfold BudgetState.proceed at hnext
  rcases hphase : s.calls j with - | ⟨key, began⟩ | ⟨key, began⟩ | ⟨key, began, dayStart, monthStart⟩ |
    ⟨key, began, monthStart, day⟩ | ⟨key, began, spend⟩ | ⟨key, began, spend⟩ | - <;>
    rw [hphase] at hcall hnext
  case idle => exact h.same hnext
  case returned => exact h.same hnext
  -- a hit is younger than the call by less than the time to live
  case looking =>
    have hmissed : PhaseInv clock s₀ (steps ++ [⟨time, .proceed j⟩]) (.missed key began) :=
      Passed.append hcall _
    rcases hcache : s.cache key.id with - | ⟨since, spend⟩
    · simp only [hcache] at hnext
      exact h.setCall hnext hmissed
    · simp only [hcache] at hnext
      split_ifs at hnext with hfresh
      · exact h.setCall hnext ⟨since, hfresh, (h.cache key.id since spend hcache).append _⟩
      · exact h.setCall hnext hmissed
  case missed =>
    exact h.setCall hnext ⟨time, Passed.le hcall htime, passed_concat steps ⟨time, .proceed j⟩, rfl, rfl⟩
  case dated =>
    obtain ⟨t, hle, hpassed, rfl, rfl⟩ := hcall
    refine h.setCall hnext ⟨t, steps, time, hle, hpassed.le htime, passed_concat steps ⟨time, .proceed j⟩,
      rfl, ⟨j, [], rfl, ?_⟩, ?_⟩
    · rw [← h.state, hphase]
      exact ⟨rfl, rfl⟩
    · rw [← h.state]
  -- `get_key_spend` returns: the two SELECTs make one read
  case counted =>
    obtain ⟨t, before, dayAt, hle, hday, hpassed, rfl, hselected, rfl⟩ := hcall
    refine h.setCall hnext ⟨⟨t, fun p ↦ p.rec before steps, fun p ↦ p.rec dayAt time⟩, ⟨?_, ?_⟩, hle, ?_⟩
    · rintro (- | -)
      · exact hday
      · exact hday.trans (hpassed.le htime)
    · rintro (- | -)
      · exact hselected.append _
      · refine ⟨j, [], rfl, ?_⟩
        change Selects ((Runs.exec (next clock) s₀ steps).calls j) key.id .monthly (clock .monthly t)
        rw [← h.state, hphase]
        exact ⟨rfl, rfl⟩
    · rintro (- | -)
      · rfl
      · change PeriodSpend.rounded _ = PeriodSpend.rounded (selectSpend
          (Runs.exec (next clock) s₀ steps).table key.id (clock .monthly t))
        rw [← h.state]
  -- the read is kept under the time at which the call began
  case storing =>
    have hread : ReadAfter clock s₀ (steps ++ [⟨time, .proceed j⟩]) key.id began spend :=
      ReadAfter.append hcall _
    refine h.step (fun k ↦ ?_) fun id since spend' he ↦ ?_
    · rw [hnext]
      by_cases hk : k = j
      · subst hk
        refine .inr ?_
        simp only [BudgetState.setCall, Function.update_self]
        exact ⟨began, by rw [sub_self]; norm_num [spendCacheTtl], hread⟩
      · exact .inl (by simp [BudgetState.setCall, Function.update_of_ne hk])
    · rw [hnext] at he
      dsimp only at he
      by_cases hid : id = key.id
      · subst hid
        simp only [Function.update_self, Option.some.injEq, Prod.mk.injEq] at he
        obtain ⟨rfl, rfl⟩ := he
        exact .inr hread
      · rw [Function.update_of_ne hid] at he
        exact .inl he
  case deciding => exact h.setCall hnext trivial

/-- **Every step keeps the invariant.** -/
theorem SpendInv.next {start : ℚ} {i : BudgetStep} (h : SpendInv clock s₀ steps s)
    (htime : Runs.Until BudgetStep.time start steps i.time) :
    SpendInv clock s₀ (steps ++ [i]) (next clock s i) := by
  obtain ⟨time, act⟩ := i
  cases act with
  | log row => exact h.step (fun _ ↦ .inl rfl) fun _ _ _ he ↦ .inl he
  | write =>
    rcases hpending : s.pending with - | ⟨row, pending⟩ <;>
      refine h.step (fun _ ↦ .inl ?_) fun _ _ _ he ↦ .inl ?_
    all_goals simp_all [BudgetState.next]
  | invalidate id =>
    rcases id with - | id
    · exact h.step (fun _ ↦ .inl rfl) fun _ _ _ he ↦ nomatch he
    · refine h.step (fun _ ↦ .inl rfl) fun k _ _ he ↦ .inl ?_
      change Function.update s.cache id none k = _ at he
      by_cases hk : k = id
      · simp [hk] at he
      · rwa [Function.update_of_ne hk] at he
  | call j key =>
    by_cases hfree : key.id = [] ∨ (key.hasBudget .daily = false ∧ key.hasBudget .monthly = false)
    · exact h.setCall (if_pos hfree) trivial
    · exact h.setCall (if_neg hfree) (passed_concat steps ⟨time, .call j key⟩)
  | proceed j => exact h.proceed htime

/-- In a run whose times do not go back, whatever a call holds and the cache has was read in it. -/
theorem exec_spendInv {start : ℚ} {table : List SpendRow}
    (h : Runs.Timed BudgetStep.time start steps) :
    SpendInv clock (.start table) steps (Runs.exec (BudgetState.next clock) (.start table) steps) :=
  Runs.exec_invariant_timed (fun past s ↦ SpendInv clock (.start table) past s)
    ⟨rfl, fun _ ↦ trivial, fun _ _ _ he ↦ nomatch he⟩ (fun _ _ _ hinv htime ↦ hinv.next htime) h

end Invariant

/-! ### What is spent -/

/-- The rows that the steps hand to the writer. -/
def logged (steps : List BudgetStep) : List SpendRow :=
  steps.filterMap fun i ↦
    match i.act with
    | .log row => some row
    | _ => none

/-- The rows that the writer has written or will write. -/
def handed (s : BudgetState) : List SpendRow :=
  s.table ++ s.pending

section Spent

variable {clock : Period → ℚ → ℚ} {s s₀ : BudgetState}

theorem sumCost_append (rows more : List SpendRow) (id : PyStr) (since : ℚ) :
    sumCost (rows ++ more) id since = sumCost rows id since + sumCost more id since := by
  simp only [sumCost, rowsSince, List.filter_append, List.filterMap_append, List.sum_append]

/-- Rows come from requests only. -/
theorem handed_next (s : BudgetState) (i : BudgetStep) :
    (next clock s i).handed = s.handed ++ logged [i] := by
  obtain ⟨time, act⟩ := i
  cases act with
  | log row => simp [next, handed, logged]
  | write =>
    rcases hpending : s.pending with - | ⟨row, pending⟩ <;> simp [next, handed, logged, hpending]
  | invalidate id => rcases id with - | id <;> simp [next, handed, logged]
  | call j key =>
    simp only [next]
    split_ifs <;> simp [setCall, handed, logged]
  | proceed j =>
    have hrows : (proceed clock s j time).table = s.table ∧ (proceed clock s j time).pending = s.pending := by
      unfold proceed
      rcases s.calls j with - | ⟨key, began⟩ | - | - | - | - | - | - <;> try exact ⟨rfl, rfl⟩
      dsimp only
      rcases s.cache key.id with - | ⟨since, spend⟩
      · exact ⟨rfl, rfl⟩
      · dsimp only
        split_ifs <;> exact ⟨rfl, rfl⟩
    simp only [next, handed, logged, hrows.1, hrows.2]
    simp

theorem handed_exec (steps : List BudgetStep) :
    (Runs.exec (next clock) s₀ steps).handed = s₀.handed ++ logged steps := by
  refine Runs.exec_invariant' (fun past (s : BudgetState) ↦ s.handed = s₀.handed ++ logged past)
    (by simp [logged]) ?_ steps
  intro past s i hs
  rw [handed_next, hs, List.append_assoc]
  simp [logged]

/-- A rounded number is at most half a unit of the last place away. -/
theorem le_roundTo_add (digits : ℕ) (q : ℚ) :
    q ≤ PyFloat.roundTo digits q + 1 / 2 / 10 ^ digits := by
  have hpow : (0 : ℚ) < 10 ^ digits := by positivity
  unfold PyFloat.roundTo
  rw [← add_div, le_div_iff₀ hpow]
  have hfloor : (q * 10 ^ digits).floor ≤ q * 10 ^ digits := Rat.floor_le _
  have hlt : q * 10 ^ digits < (q * 10 ^ digits).floor + 1 := by
    exact_mod_cast Rat.lt_floor_add_one (q * 10 ^ digits)
  push_cast
  split_ifs with h
  · rcases h with h | ⟨h, -⟩ <;> linarith
  · rw [not_or] at h
    linarith [not_lt.1 h.1]

end Spent

/-! ### Staleness -/

section Staleness

variable (clock : Period → ℚ → ℚ) (s₀ : BudgetState)

/-- A call that returns in a run, for a key with an id and with budgets that are all positive. -/
structure Judged (past : List BudgetStep) (i : BudgetStep) (key : ApiKeyConfig) (began : ℚ)
    (result : Option Exceeded) : Prop where
  returns : returns (Runs.exec (next clock) s₀ past) i = some (key, began, result)
  id_ne : key.id ≠ []
  positive : ∀ p b, key.budget p = some b → PyFloat.lt (.fin 0) b = true
  budgeted : ∃ p, key.budget p ≠ none

/-- **The bound on staleness.** Every call that lets its request through stands on a read that is not
finished after it and not begun five seconds before its reading of the clock. By that read, what is
`seen` of the spend is below every budget; and what is beyond a budget when the call returns, up to
`slack`, either waited for the writer at the time of the read or was handed to it later. -/
def StalenessBound (seen : ℚ → ℚ) (slack : ℚ) (steps : List BudgetStep) : Prop :=
  ∀ past i future, steps = past ++ i :: future → ∀ key began, Judged clock s₀ past i key began none →
    ∃ r : SpendRead, r.In clock s₀ past key.id ∧ began - r.datedAt < spendCacheTtl ∧
      (∀ p, r.selectAt p ≤ i.time) ∧
      ∀ p b, key.budget p = some b →
        PyFloat.lt (.fin (seen (r.select clock s₀ key.id p).cost)) b = true ∧
          ∀ q, b = .fin q →
            sumCost (Runs.exec (next clock) s₀ past).handed key.id (r.since clock p) <
              q + sumCost (r.state clock s₀ p).pending key.id (r.since clock p) +
                sumCost (logged (past.drop (r.before p).length)) key.id (r.since clock p) + slack

variable {clock s₀} {past : List BudgetStep}

/-- What was handed to the writer by now was written at the time of a read, or waited, or came later. -/
theorem SpendRead.In.spent_eq {r : SpendRead} {id : PyStr} (h : r.In clock s₀ past id) (p : Period) :
    sumCost (Runs.exec (next clock) s₀ past).handed id (r.since clock p) =
      (r.select clock s₀ id p).cost + sumCost (r.state clock s₀ p).pending id (r.since clock p) +
        sumCost (logged (past.drop (r.before p).length)) id (r.since clock p) := by
  obtain ⟨j, rest, hpast, -⟩ := h.selected p
  have hdrop : past = r.before p ++ past.drop (r.before p).length := by
    conv_rhs => rw [hpast, List.drop_left]
    exact hpast
  have hlogged : logged past = logged (r.before p) ++ logged (past.drop (r.before p).length) := by
    conv_lhs => rw [hdrop]
    rw [logged, List.filterMap_append, ← logged, ← logged]
  rw [handed_exec, hlogged, ← List.append_assoc, ← handed_exec, sumCost_append]
  congr 1
  exact sumCost_append _ _ _ _

/-- A call that is judged has the spend of its key. -/
theorem Judged.deciding {i : BudgetStep} {key : ApiKeyConfig} {began : ℚ} {result : Option Exceeded}
    (h : Judged clock s₀ past i key began result) : ∃ j spend,
      (Runs.exec (next clock) s₀ past).calls j = .deciding key began spend ∧
        result = decideBudget key spend := by
  have hreturns := h.returns
  unfold BudgetState.returns at hreturns
  obtain ⟨time, act⟩ := i
  cases act with
  | log row | write | invalidate id => cases hreturns
  | call j key' =>
    dsimp only at hreturns
    split_ifs at hreturns with hfree
    obtain ⟨rfl, -⟩ := Prod.mk.inj (Option.some.inj hreturns)
    obtain ⟨p, hp⟩ := h.budgeted
    obtain ⟨b, hb⟩ := Option.ne_none_iff_exists'.1 hp
    have hhas := ApiKeyConfig.hasBudget_of_pos hb (h.positive p b hb)
    rcases hfree with hid | hnone
    · exact absurd hid h.id_ne
    · cases p
      · exact absurd hhas (by simp [hnone.1])
      · exact absurd hhas (by simp [hnone.2])
  | proceed j =>
    dsimp only at hreturns
    split at hreturns
    · next key' began' spend hphase =>
      simp only [Option.some.injEq, Prod.mk.injEq] at hreturns
      obtain ⟨rfl, rfl, rfl⟩ := hreturns
      exact ⟨j, spend, hphase, rfl⟩
    · cases hreturns

/-- **Staleness of budgets.** What is seen of the spend is rounded to six decimals. -/
theorem budget_staleness {start : ℚ} {table : List SpendRow} {steps : List BudgetStep}
    (h : Runs.Timed BudgetStep.time start steps) :
    StalenessBound clock (.start table) (PyFloat.roundTo 6) (1 / 2 / 10 ^ 6) steps := by
  rintro past i future rfl key began hjudged
  have hinv : SpendInv clock (.start table) past (Runs.exec (next clock) (.start table) past) :=
    exec_spendInv (Runs.timed_append_left h)
  have htime : Runs.Until BudgetStep.time start past i.time := h.until
  obtain ⟨j, spend, hphase, hdecide⟩ := hjudged.deciding
  have hcall := hinv.calls j
  rw [hphase] at hcall
  obtain ⟨since, hfresh, r, hin, hafter, hspend⟩ := hcall
  refine ⟨r, hin, by linarith, fun p ↦ ?_, fun p b hbudget ↦ ?_⟩
  · obtain ⟨j, rest, rfl, -⟩ := hin.selected p
    exact htime.2 ⟨r.selectAt p, .proceed j⟩ (by simp)
  · have hbelow := ApiKeyConfig.lt_of_reached_eq_none hbudget (hjudged.positive p b hbudget)
      (decideBudget_eq_none_iff.1 hdecide.symm p)
    rw [hspend p] at hbelow
    refine ⟨hbelow, ?_⟩
    rintro q rfl
    have hlt : PyFloat.roundTo 6 (r.select clock (.start table) key.id p).cost < q :=
      of_decide_eq_true hbelow
    rw [hin.spent_eq p]
    linarith [le_roundTo_add 6 (r.select clock (.start table) key.id p).cost]

end Staleness

/-! ### One call -/

/-- A key with a daily budget of 1.2 millionths. -/
def thriftyKey : ApiKeyConfig :=
  ⟨py "k", py "secret", apiKeyClass.build [(py "daily_budget_usd", .float (.fin (12 / 10 ^ 7)))] (by decide +kernel)⟩

/-- A row of the key. -/
def thriftyRow (cost : ℚ) : SpendRow :=
  ⟨100, some (py "k"), some cost, false⟩

/-- A call that finds nothing in the cache, up to its return. -/
def oneCall : List BudgetStep :=
  ⟨1000, .call 0 thriftyKey⟩ :: List.replicate 5 ⟨1000, .proceed 0⟩

/-- What the call returns is judged. -/
theorem judged_oneCall {cost : ℚ}
    (h : returns (Runs.exec (next fun _ _ ↦ 0) (.start [thriftyRow cost]) oneCall) ⟨1000, .proceed 0⟩ =
      some (thriftyKey, 1000, none)) :
    Judged (fun _ _ ↦ 0) (.start [thriftyRow cost]) oneCall ⟨1000, .proceed 0⟩ thriftyKey 1000 none := by
  have hdaily : thriftyKey.budget .daily = some (.fin (12 / 10 ^ 7)) := by decide +kernel
  have hmonthly : thriftyKey.budget .monthly = none := by decide +kernel
  refine ⟨h, by decide, ?_, .daily, by simp [hdaily]⟩
  rintro (- | -) b hb
  · obtain rfl := Option.some.inj (hdaily.symm.trans hb)
    decide +kernel
  · simp [hmonthly] at hb

/-- A call within its budget is let through. -/
theorem budget_staleness_oneCall :
    Judged (fun _ _ ↦ 0) (.start [thriftyRow (11 / 10 ^ 7)]) oneCall ⟨1000, .proceed 0⟩ thriftyKey 1000 none ∧
      StalenessBound (fun _ _ ↦ 0) (.start [thriftyRow (11 / 10 ^ 7)]) (PyFloat.roundTo 6) (1 / 2 / 10 ^ 6)
        (oneCall ++ [⟨1000, .proceed 0⟩]) :=
  ⟨judged_oneCall (by decide +kernel), @budget_staleness _ 0 _ _ (by decide +kernel)⟩

/-- The table is the same at every step of the call, and no row waits. -/
theorem state_oneCall {r : SpendRead}
    (h : r.In (fun _ _ ↦ 0) (.start [thriftyRow (14 / 10 ^ 7)]) oneCall thriftyKey.id) :
    (r.state (fun _ _ ↦ 0) (.start [thriftyRow (14 / 10 ^ 7)]) .daily).table = [thriftyRow (14 / 10 ^ 7)] ∧
      (r.state (fun _ _ ↦ 0) (.start [thriftyRow (14 / 10 ^ 7)]) .daily).pending = [] ∧
      logged (oneCall.drop (r.before .daily).length) = [] := by
  obtain ⟨j, rest, hsteps, -⟩ := h.selected .daily
  have hlength : (r.before .daily).length < 6 := by
    have hlen := congrArg List.length hsteps
    rw [List.length_append, List.length_cons] at hlen
    simp only [oneCall, List.length_cons, List.length_replicate] at hlen
    omega
  have hbefore : r.before .daily = oneCall.take (r.before .daily).length := by rw [hsteps, List.take_left]
  have hall : ∀ n < 6,
      (Runs.exec (next fun _ _ ↦ 0) (.start [thriftyRow (14 / 10 ^ 7)]) (oneCall.take n)).table =
          [thriftyRow (14 / 10 ^ 7)] ∧
        (Runs.exec (next fun _ _ ↦ 0) (.start [thriftyRow (14 / 10 ^ 7)]) (oneCall.take n)).pending = [] ∧
        logged (oneCall.drop n) = [] := by
    decide +kernel
  have hstate := hall (r.before .daily).length hlength
  rwa [← hbefore] at hstate

/-- Of a spend of 1.4 millionths, one millionth is seen. The call is let through although its budget is
exceeded by what was written long ago, so that neither the exact spend nor the exact bound on what is
beyond the budget will do. -/
theorem not_stalenessBound_rounding :
    (∀ slack, ¬ StalenessBound (fun _ _ ↦ 0) (.start [thriftyRow (14 / 10 ^ 7)]) id slack
        (oneCall ++ [⟨1000, .proceed 0⟩])) ∧
      ¬ StalenessBound (fun _ _ ↦ 0) (.start [thriftyRow (14 / 10 ^ 7)]) (PyFloat.roundTo 6) 0
        (oneCall ++ [⟨1000, .proceed 0⟩]) := by
  have hjudged : Judged (fun _ _ ↦ 0) (.start [thriftyRow (14 / 10 ^ 7)]) oneCall ⟨1000, .proceed 0⟩
      thriftyKey 1000 none :=
    judged_oneCall (by decide +kernel)
  have hdaily : thriftyKey.budget .daily = some (.fin (12 / 10 ^ 7)) := by decide +kernel
  have hsince : ∀ r : SpendRead, r.since (fun _ _ ↦ 0) .daily = 0 := fun _ ↦ rfl
  constructor
  · intro slack h
    obtain ⟨r, hin, -, -, hbelow⟩ := h oneCall _ [] rfl thriftyKey 1000 hjudged
    have hlt := (hbelow .daily _ hdaily).1
    rw [SpendRead.select, (state_oneCall hin).1, hsince] at hlt
    exact absurd hlt (by decide +kernel)
  · intro h
    obtain ⟨r, hin, -, -, hbelow⟩ := h oneCall _ [] rfl thriftyKey 1000 hjudged
    have hlt := (hbelow .daily _ hdaily).2 _ rfl
    obtain ⟨-, hpending, hlogged⟩ := state_oneCall hin
    rw [hpending, hlogged, hsince] at hlt
    exact absurd hlt (by decide +kernel)

end BudgetState

end LocalGateway
