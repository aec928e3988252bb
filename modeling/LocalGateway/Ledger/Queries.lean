import LocalGateway.Foundations.Horizon
import LocalGateway.Ledger.Anomaly
import LocalGateway.Ledger.Export
import LocalGateway.Ledger.Percentile
import LocalGateway.Quota.Budget

/-!
# The queries of the usage table

The other functions of `usage.py` that read `usage`: for the pages of the models, for the routing by speed, and for
what the client keys and the end users spend. Every query of the table is a `Report`.

* `Report.answer`: what a report answers, at a time.
* `Report.since`: when the rows begin that it reads.
* `answer_since`: it reads no others.
-/

namespace LocalGateway

open Py Grouped

/-- `provider || ':' || backend_model`. -/
def UsageRecord.backend (row : UsageRecord) : PyStr :=
  backendKey row.provider row.backendModel

/-- The rows of the last hours, without the probes. -/
def recent (table : List UsageRecord) (now : ℚ) (hours : ℤ) : List UsageRecord :=
  table.filter fun row ↦ now - hours * 3600 ≤ row.ts && row.counted

/-- Such rows of one model. -/
def recentOf (table : List UsageRecord) (now : ℚ) (hours : ℤ) (model : PyStr) : List UsageRecord :=
  (recent table now hours).filter fun row ↦ row.logicalModel = model

/-! ### Models -/

/-- `percentile`, of numbers that are rounded to hundredths. -/
def percentileOf (values : List ℚ) (p : ℚ) : Option (Option ℚ) :=
  percentile (PyFloat.roundTo 2) values p

/-- `round(successes / requests * 100, 2)`. -/
def successRate (rows : List UsageRecord) : Option ℚ :=
  if rows = [] then none else some (PyFloat.roundTo 2 (rows.countP (·.success) / rows.length * 100))

/-- `SUM` of a column, and zero if there is none. -/
def total {M : Type} [AddCommMonoid M] (column : UsageRecord → Option M) (rows : List UsageRecord) : M :=
  (sumColumn (rows.map column)).getD 0

/-- The rate of the rows that have one. -/
def speeds (rows : List UsageRecord) : List ℚ :=
  rows.filterMap (·.tps)

/-- A model in `get_model_aggregates`. -/
structure ModelAggregate where
  requests : ℕ
  successes : ℕ
  tokens : ℤ
  cost : ℚ
  tpsP50 : Option (Option ℚ)
  tpsP90 : Option (Option ℚ)
  tpsP99 : Option (Option ℚ)
deriving DecidableEq

/-- The aggregates of the rows of a model, with the rates of its answers. -/
def modelAggregate (rows : List UsageRecord) (tps : List ℚ) : ModelAggregate where
  requests := rows.length
  successes := rows.countP (·.success)
  tokens := total (·.inputTokens) rows + total (·.outputTokens) rows
  cost := PyFloat.roundTo 6 (total (·.cost) rows)
  tpsP50 := percentileOf tps (1 / 2)
  tpsP90 := percentileOf tps (9 / 10)
  tpsP99 := percentileOf tps (99 / 100)

/-- `get_model_aggregates`. -/
def getModelAggregates (table : List UsageRecord) (now : ℚ) (hours : ℤ) : List (PyStr × ModelAggregate) :=
  let rows := recent table now hours
  let tpsByModel := groups (·.logicalModel) (rows.filter fun row ↦ row.success && row.tps.isSome)
  (groups (·.logicalModel) rows).map fun g ↦
    (g.1, modelAggregate g.2 (speeds ((tpsByModel.lookup g.1).getD [])))

/-- A backend in `get_backend_percentiles`. -/
structure BackendPercentiles where
  requests : ℕ
  successRate : Option ℚ
  ttftMs : Option (Option ℚ)
  tps : Option (Option ℚ)
  tpsP50 : Option (Option ℚ)
  tpsP90 : Option (Option ℚ)
  tpsP99 : Option (Option ℚ)
  latencyMs : Option (Option ℚ)
deriving DecidableEq

/-- The statistics of a backend, from its rows and its answers. -/
def backendPercentiles (p : ℚ) (rows answers : List UsageRecord) : BackendPercentiles where
  requests := rows.length
  successRate := successRate rows
  ttftMs := percentileOf (answers.filterMap fun row ↦ row.ttftMs.map (↑)) p
  tps := percentileOf (speeds answers) (1 - p)
  tpsP50 := percentileOf (speeds answers) (1 / 2)
  tpsP90 := percentileOf (speeds answers) (9 / 10)
  tpsP99 := percentileOf (speeds answers) (99 / 100)
  latencyMs := percentileOf (answers.filterMap fun row ↦ row.latencyMs.map (↑)) p

/-- `get_backend_percentiles`. -/
def getBackendPercentiles (table : List UsageRecord) (now : ℚ) (model : PyStr) (hours : ℤ) (p : ℚ) :
    List (PyStr × BackendPercentiles) :=
  let rows := recentOf table now hours model
  let buckets := groups UsageRecord.backend (rows.filter (·.success))
  (groups UsageRecord.backend rows).map fun g ↦ (g.1, backendPercentiles p g.2 ((buckets.lookup g.1).getD []))

/-- What `get_model_totals` returns. -/
structure ModelTotals where
  requests : ℕ
  successRate : Option ℚ
  inputTokens : ℤ
  outputTokens : ℤ
  tokens : ℤ
  cost : ℚ
deriving DecidableEq

/-- `get_model_totals`. -/
def getModelTotals (table : List UsageRecord) (now : ℚ) (model : PyStr) (hours : ℤ) : ModelTotals :=
  let rows := recentOf table now hours model
  { requests := rows.length
    successRate := successRate rows
    inputTokens := total (·.inputTokens) rows
    outputTokens := total (·.outputTokens) rows
    tokens := total (·.inputTokens) rows + total (·.outputTokens) rows
    cost := total (·.cost) rows }

/-- A point of a backend in `get_backend_series`. -/
structure BackendPoint where
  t : ℤ
  tps : ℚ
  ttftMs : Option ℚ
  n : ℕ
deriving DecidableEq

/-- The rows of a bucket as a point. -/
def backendPoint (t : ℤ) (rows : List UsageRecord) : BackendPoint where
  t := t
  tps := PyFloat.roundTo 1 ((speeds rows).sum / (speeds rows).length)
  ttftMs := (averageOf (rows.map (·.ttftMs))).map (PyFloat.roundTo 1)
  n := rows.length

/-- The length of a bucket of `get_backend_series` in seconds. -/
def backendBucketSeconds (hours : ℤ) : ℤ :=
  if hours ≤ 72 then 3600 else 6 * 3600

/-- What `get_backend_series` returns. -/
structure BackendSeries where
  bucketSeconds : ℤ
  series : List (PyStr × List BackendPoint)

/-- `get_backend_series`. -/
def getBackendSeries (table : List UsageRecord) (now : ℚ) (model : PyStr) (hours : ℤ) : BackendSeries :=
  let seconds := backendBucketSeconds hours
  let rows := (recentOf table now hours model).filter fun row ↦ row.success && row.tps.isSome
  let buckets := (groups (fun row : UsageRecord ↦ (row.bucket seconds, row.backend)) rows).mergeSort
    fun g h ↦ g.1.1 ≤ h.1.1
  { bucketSeconds := seconds
    series := (groups (fun g ↦ g.1.2) buckets).map fun s ↦ (s.1, s.2.map fun g ↦ backendPoint g.1.1 g.2) }

/-- The rows that `get_backend_tps_map` selects: the probes are among them. -/
def speedRows (table : List UsageRecord) (now : ℚ) (model : PyStr) (hours : ℤ) : List UsageRecord :=
  table.filter fun row ↦ now - hours * 3600 ≤ row.ts && row.logicalModel = model && row.success && row.tps.isSome

/-- `get_backend_tps_map`, when nothing is cached. -/
def getBackendTpsMap (table : List UsageRecord) (now : ℚ) (model : PyStr) (hours : ℤ) : List (PyStr × ℚ) :=
  (groups UsageRecord.backend (speedRows table now model hours)).filterMap fun g ↦
    ((percentileOf (speeds g.2) (1 / 2)).join).map (g.1, ·)

/-! ### Keys and users -/

/-- When a day and a month of the local time began. -/
structure LocalClock where
  dayStart : ℚ → ℚ
  monthStart : ℚ → ℚ
  monthStart_le : ∀ now, monthStart now ≤ dayStart now

/-- What the budgets look at in a row. -/
def UsageRecord.spend (row : UsageRecord) : SpendRow where
  ts := row.ts
  apiKeyId := row.apiKeyId
  cost := row.cost
  isProbe := !row.counted

/-- `get_key_spend`. -/
def getKeySpend (clock : LocalClock) (table : List UsageRecord) (now : ℚ) (id : PyStr) : KeySpend :=
  .of (selectSpend (table.map UsageRecord.spend) id (clock.dayStart now))
    (selectSpend (table.map UsageRecord.spend) id (clock.monthStart now))

/-- The rows of the keys since a time. -/
def keyRows (table : List UsageRecord) (since : ℚ) : List UsageRecord :=
  table.filter fun row ↦ row.apiKeyId.isSome && since ≤ row.ts && row.counted

/-- The row of a key in `get_all_key_spend`, from its rows of the month. -/
def spendOf (dayStart : ℚ) (rows : List UsageRecord) : KeySpend :=
  .of ⟨total (fun row ↦ if dayStart ≤ row.ts then row.cost else some 0) rows, rows.countP (dayStart ≤ ·.ts)⟩
    ⟨total (·.cost) rows, rows.length⟩

/-- `get_all_key_spend`. -/
def getAllKeySpend (clock : LocalClock) (table : List UsageRecord) (now : ℚ) : List (PyStr × KeySpend) :=
  (groups (fun row ↦ row.apiKeyId.getD []) (keyRows table (clock.monthStart now))).map fun g ↦
    (g.1, spendOf (clock.dayStart now) g.2)

/-- The rows of a key in the last days. -/
def burnRows (table : List UsageRecord) (now : ℚ) (id : PyStr) (days : ℤ) : List UsageRecord :=
  table.filter fun row ↦ row.apiKeyId = some id && now - days * 86400 ≤ row.ts && row.counted

/-- `get_key_daily_burn`. -/
def getKeyDailyBurn (table : List UsageRecord) (now : ℚ) (id : PyStr) (days : ℤ) : ℚ :=
  let rows := burnRows table now id days
  let activeDays := (rows.map (·.day)).dedup.length
  if activeDays = 0 then 0 else PyFloat.roundTo 6 (total (·.cost) rows / activeDays)

/-- A user in `get_user_spend`. -/
structure UserSpend where
  requests : ℕ
  cost : ℚ
  tokens : ℤ
deriving DecidableEq

/-- The totals of a user. -/
def userTotals (rows : List UsageRecord) : UserSpend where
  requests := rows.length
  cost := PyFloat.roundTo 6 (total (·.cost) rows)
  tokens := total (·.inputTokens) rows + total (·.outputTokens) rows

/-- `get_user_spend`: a null is the least of the costs. -/
def getUserSpend (table : List UsageRecord) (now : ℚ) (hours : ℤ) : List (PyStr × UserSpend) :=
  let cost (g : PyStr × List UsageRecord) : WithBot ℚ := sumColumn (g.2.map (·.cost))
  let rows := (recent table now hours).filter fun row ↦ row.endUser.getD [] ≠ []
  ((groups (fun row ↦ row.endUser.getD []) rows).mergeSort fun g h ↦ cost h ≤ cost g).map fun g ↦
    (g.1, userTotals g.2)

/-! ### Reports -/

/-- A query of the table. -/
inductive Report
  | usageSummary (hours : ℤ)
  | dailySeries (hours : ℤ)
  | modelAggregates (hours : ℤ)
  | backendPercentiles (model : PyStr) (hours : ℤ) (p : ℚ)
  | modelTotals (model : PyStr) (hours : ℤ)
  | backendSeries (model : PyStr) (hours : ℤ)
  | tpsMap (model : PyStr) (hours : ℤ)
  | keySpend (id : PyStr)
  | allKeySpend
  | dailyBurn (id : PyStr) (days : ℤ)
  | userSpend (hours : ℤ)
  | exportRows (hours : ℤ) (includeProbes : Bool)
  | anomalies (scope : AnomalyScope)
deriving DecidableEq

namespace Report

/-- What it answers. -/
abbrev Answer (K : Type) : Report → Type
  | usageSummary _ => UsageSummary
  | dailySeries _ => DailySeries
  | modelAggregates _ => List (PyStr × ModelAggregate)
  | backendPercentiles _ _ _ => List (PyStr × BackendPercentiles)
  | modelTotals _ _ => ModelTotals
  | backendSeries _ _ => BackendSeries
  | tpsMap _ _ => List (PyStr × ℚ)
  | keySpend _ => KeySpend
  | allKeySpend => List (PyStr × KeySpend)
  | dailyBurn _ _ => ℚ
  | userSpend _ => List (PyStr × UserSpend)
  | exportRows _ _ => List (List (PyStr × SqlValue))
  | anomalies _ => List (Anomaly K)

/-- When the rows begin that it reads. -/
def since (clock : LocalClock) (now : ℚ) : Report → ℚ
  | usageSummary hours | dailySeries hours | modelAggregates hours | backendPercentiles _ hours _
  | modelTotals _ hours | backendSeries _ hours | tpsMap _ hours | userSpend hours | exportRows hours _ =>
    now - hours * 3600
  | keySpend _ | allKeySpend => clock.monthStart now
  | dailyBurn _ days => now - days * 86400
  | anomalies _ => todayStart now - anomalyBaselineDays * 86400

variable {K : Type} [Field K] [LinearOrder K]

/-- The answer. -/
def answer (ar : RootArith K) (clock : LocalClock) (table : List UsageRecord) (now : ℚ) : (r : Report) → r.Answer K
  | usageSummary hours => getUsageSummary (table.map (·.toStoredUsage)) now hours
  | dailySeries hours => getDailySeries (table.map (·.toStoredUsage)) now hours
  | modelAggregates hours => getModelAggregates table now hours
  | backendPercentiles model hours p => getBackendPercentiles table now model hours p
  | modelTotals model hours => getModelTotals table now model hours
  | backendSeries model hours => getBackendSeries table now model hours
  | tpsMap model hours => getBackendTpsMap table now model hours
  | keySpend id => getKeySpend clock table now id
  | allKeySpend => getAllKeySpend clock table now
  | dailyBurn id days => getKeyDailyBurn table now id days
  | userSpend hours => getUserSpend table now hours
  | exportRows hours includeProbes => LocalGateway.exportRows table now hours includeProbes
  | anomalies scope => anomalyCandidates ar (table.map (·.toStoredUsage)) now scope

/-! ### What a report reads -/

section Since

variable {horizon : ℚ} (table : List UsageRecord)

/-- The rows since a time. -/
abbrev rowsFrom (horizon : ℚ) (table : List UsageRecord) : List UsageRecord :=
  Horizon.since (fun row : UsageRecord ↦ row.ts) horizon table

/-- A query of recent rows, behind a projection. -/
theorem filter_map_rowsFrom {β : Type} (f : UsageRecord → β) {p : β → Bool}
    (h : ∀ row, p (f row) = true → horizon ≤ row.ts) :
    ((rowsFrom horizon table).map f).filter p = (table.map f).filter p := by
  rw [List.filter_map, List.filter_map, rowsFrom, Horizon.filter_since]
  exact h

theorem recent_rowsFrom (now : ℚ) (hours : ℤ) :
    recent (rowsFrom (now - hours * 3600) table) now hours = recent table now hours :=
  Horizon.filter_since (fun row hrow ↦ by simp_all) table

theorem reported_rowsFrom (now : ℚ) (hours : ℤ) :
    reported ((rowsFrom (now - hours * 3600) table).map (·.toStoredUsage)) now hours =
      reported (table.map (·.toStoredUsage)) now hours :=
  filter_map_rowsFrom table _ fun row hrow ↦ by simp_all

theorem speedRows_rowsFrom (now : ℚ) (model : PyStr) (hours : ℤ) :
    speedRows (rowsFrom (now - hours * 3600) table) now model hours = speedRows table now model hours :=
  Horizon.filter_since (fun row hrow ↦ by simp_all) table

theorem selectSpend_rowsFrom (id : PyStr) {since : ℚ} (h : horizon ≤ since) :
    selectSpend ((rowsFrom horizon table).map UsageRecord.spend) id since =
      selectSpend (table.map UsageRecord.spend) id since := by
  have hrows : rowsSince ((rowsFrom horizon table).map UsageRecord.spend) id since =
      rowsSince (table.map UsageRecord.spend) id since :=
    filter_map_rowsFrom table _ fun row hrow ↦ h.trans (of_decide_eq_true hrow).2.1
  rw [selectSpend, selectSpend, sumCost, sumCost, hrows]

theorem keyRows_rowsFrom (since : ℚ) : keyRows (rowsFrom since table) since = keyRows table since :=
  Horizon.filter_since (fun row hrow ↦ by simp_all) table

theorem burnRows_rowsFrom (now : ℚ) (id : PyStr) (days : ℤ) :
    burnRows (rowsFrom (now - days * 86400) table) now id days = burnRows table now id days :=
  Horizon.filter_since (fun row hrow ↦ by simp_all) table

theorem selectExport_rowsFrom (now : ℚ) (hours : ℤ) (includeProbes : Bool) :
    selectExport (rowsFrom (now - hours * 3600) table) now hours includeProbes =
      selectExport table now hours includeProbes := by
  have hrecent (row : UsageRecord) (hrow : row.inWindow now hours includeProbes = true) :
      now - hours * 3600 ≤ row.ts := by simp_all [UsageRecord.inWindow]
  rw [selectExport, selectExport, Horizon.filter_since hrecent]

theorem scopeRows_rowsFrom (scope : AnomalyScope) {start stop : ℤ} (h : horizon ≤ start) :
    scope.rows ((rowsFrom horizon table).map (·.toStoredUsage)) start stop =
      scope.rows (table.map (·.toStoredUsage)) start stop :=
  filter_map_rowsFrom table _ fun row hrow ↦ h.trans (by simp_all)

end Since

/-- **A report reads the rows from its beginning on**, and no others. -/
theorem answer_since (ar : RootArith K) (clock : LocalClock) (table : List UsageRecord) (now : ℚ) (r : Report) :
    r.answer ar clock (rowsFrom (r.since clock now) table) now = r.answer ar clock table now := by
  cases r with
  | usageSummary hours => simp only [answer, since, getUsageSummary, reported_rowsFrom]
  | dailySeries hours => simp only [answer, since, getDailySeries, reported_rowsFrom]
  | modelAggregates hours => simp only [answer, since, getModelAggregates, recent_rowsFrom]
  | backendPercentiles model hours p =>
    simp only [answer, since, getBackendPercentiles, recentOf, recent_rowsFrom]
  | modelTotals model hours => simp only [answer, since, getModelTotals, recentOf, recent_rowsFrom]
  | backendSeries model hours => simp only [answer, since, getBackendSeries, recentOf, recent_rowsFrom]
  | tpsMap model hours => simp only [answer, since, getBackendTpsMap, speedRows_rowsFrom]
  | keySpend id =>
    simp only [answer, since, getKeySpend, selectSpend_rowsFrom table id (clock.monthStart_le now),
      selectSpend_rowsFrom table id (le_refl (clock.monthStart now))]
  | allKeySpend => simp only [answer, since, getAllKeySpend, keyRows_rowsFrom]
  | dailyBurn id days => simp only [answer, since, getKeyDailyBurn, burnRows_rowsFrom]
  | userSpend hours => simp only [answer, since, getUserSpend, recent_rowsFrom]
  | exportRows hours includeProbes => simp only [answer, since, LocalGateway.exportRows, selectExport_rowsFrom]
  | anomalies scope =>
    -- the baseline begins where the report begins, and yesterday is later
    have hbaseline : ((todayStart now - anomalyBaselineDays * 86400 : ℤ) : ℚ) ≤
        (todayStart now - anomalyBaselineDays * 86400 : ℤ) := le_rfl
    have hyesterday : ((todayStart now - anomalyBaselineDays * 86400 : ℤ) : ℚ) ≤ yesterdayStart now := by
      rw [Int.cast_le, yesterdayStart, anomalyBaselineDays]
      omega
    have hsince : (anomalies scope).since clock now = (todayStart now - anomalyBaselineDays * 86400 : ℤ) := by
      rw [since]
      push_cast
      rfl
    rw [answer, hsince, answer, anomalyCandidates, anomalyCandidates, baselines, baselines,
      scopeRows_rowsFrom table scope hbaseline, scopeRows_rowsFrom table scope hyesterday]

end Report

end LocalGateway
