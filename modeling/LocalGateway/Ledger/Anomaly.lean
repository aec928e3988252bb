import Mathlib.Analysis.Real.Sqrt
import LocalGateway.Ledger.Reports

/-!
# Cost anomalies

`daily_anomaly_scan` of `usage.py`: what a key or a model cost yesterday is compared with its costs on the days before.
The costs are rational numbers, and so are their means and variances; a standard deviation is an element of an ordered
field that has the square roots (`RootArith`), such as the real numbers.

* `exists_found_iff`: what the scan records.
* `flagged_iff`: the comparison it makes, in terms of the rule.
* `recordsRightly_iff`: when the scan follows the rule, which looks at a day more and at smaller costs.
-/

namespace LocalGateway

open Py Grouped

/-- What an anomaly is found for. -/
inductive AnomalyScope where
  | key
  | model
deriving DecidableEq

namespace AnomalyScope

/-- The id a row counts for, if it has one that is not empty. -/
def idOf (scope : AnomalyScope) (row : StoredUsage) : Option PyStr :=
  (match scope with
    | .key => row.apiKeyId
    | .model => some row.logicalModel).filter (· ≠ [])

/-- The rows between two times that count for some id. -/
def rows (scope : AnomalyScope) (table : List StoredUsage) (start stop : ℤ) : List StoredUsage :=
  table.filter fun row ↦ start ≤ row.ts && row.ts < stop && (scope.idOf row).isSome && row.counted

/-- The id of such a row. -/
def sid (scope : AnomalyScope) (row : StoredUsage) : PyStr :=
  (scope.idOf row).getD []

end AnomalyScope

/-- The day of a row, counted from the epoch. -/
def StoredUsage.day (row : StoredUsage) : ℤ :=
  castInteger (row.ts / 86400)

/-- `SUM(cost)`, and zero if there is none. -/
def totalCost (rows : List StoredUsage) : ℚ :=
  (sumColumn (rows.map (·.cost))).getD 0

/-- The beginning of the day. -/
def todayStart (now : ℚ) : ℤ :=
  castInteger now / 86400 * 86400

/-- The beginning of the day before. -/
def yesterdayStart (now : ℚ) : ℤ :=
  todayStart now - 86400

/-- `ANOMALY_BASELINE_DAYS`. -/
def anomalyBaselineDays : ℤ :=
  14

/-- `ANOMALY_MIN_SPEND`. -/
def anomalyMinSpend : ℚ :=
  1 / 10

/-! ### Statistics -/

/-- Square roots, and `round`, in an ordered field. -/
structure RootArith (K : Type*) where
  sqrt : ℚ → K
  round : ℕ → K → K

/-- The mean of the daily costs. -/
def meanCost (daily : List ℚ) : ℚ :=
  daily.sum / daily.length

/-- Their population variance. -/
def varianceCost (daily : List ℚ) : ℚ :=
  (daily.map fun x ↦ (x - meanCost daily) ^ 2).sum / daily.length

section Scan

variable {K : Type*} [Field K] [LinearOrder K] (ar : RootArith K)

/-- Their population standard deviation. -/
def stdCost (daily : List ℚ) : K :=
  if 0 < varianceCost daily then ar.sqrt (varianceCost daily) else 0

/-- The larger one of `mean + 3 * std` and `mean * 3`. -/
def anomalyThreshold (daily : List ℚ) : K :=
  max (meanCost daily + 3 * stdCost ar daily) (meanCost daily * 3)

/-- The z score as it is stored. -/
def zScore (daily : List ℚ) (actual : ℚ) : K :=
  if 0 < stdCost ar daily then ar.round 2 ((actual - meanCost daily) / stdCost ar daily)
  else if meanCost daily < actual then 999
  else ar.round 2 0

/-- A row of `anomalies`, with the day instead of its date. -/
structure Anomaly (K : Type*) where
  ts : ℚ
  scope : AnomalyScope
  scopeId : PyStr
  day : ℤ
  expected : ℚ
  actual : ℚ
  zScore : K
  acknowledged : Bool

/-- The scan goes on to the end with these costs. -/
def flagged (daily : List ℚ) (actual : ℚ) : Bool :=
  3 ≤ daily.length && !decide (meanCost daily < anomalyMinSpend) && anomalyThreshold ar daily < (actual : K)

/-- The costs of the days of an id. -/
def costsOfDays (days : List ((ℤ × PyStr) × List StoredUsage)) : List ℚ :=
  days.map fun g ↦ totalCost g.2

/-- The daily costs of each id. -/
def baselines (scope : AnomalyScope) (table : List StoredUsage) (start stop : ℤ) : List (PyStr × List ℚ) :=
  (groups (fun g ↦ g.1.2) (groups (fun row ↦ (row.day, scope.sid row)) (scope.rows table start stop))).map fun b ↦
    (b.1, costsOfDays b.2)

/-- The anomaly that is recorded for such costs. -/
def anomaly (now : ℚ) (scope : AnomalyScope) (sid : PyStr) (daily : List ℚ) (actual : ℚ) : Anomaly K where
  ts := now
  scope := scope
  scopeId := sid
  day := yesterdayStart now / 86400
  expected := PyFloat.roundTo 6 (meanCost daily)
  actual := PyFloat.roundTo 6 actual
  zScore := zScore ar daily actual
  acknowledged := false

/-- What the loop of a scope tries to record. -/
def anomalyCandidates (table : List StoredUsage) (now : ℚ) (scope : AnomalyScope) : List (Anomaly K) :=
  let baseline := baselines scope table (todayStart now - anomalyBaselineDays * 86400) (yesterdayStart now)
  (groups scope.sid (scope.rows table (yesterdayStart now) (todayStart now))).filterMap fun g ↦
    let actual := totalCost g.2
    let daily := (baseline.lookup g.1).getD []
    if flagged ar daily actual then some (anomaly ar now scope g.1 daily actual) else none

/-- An anomaly of the scope, the id and the day. -/
def IsRecorded (anomalies : List (Anomaly K)) (scope : AnomalyScope) (sid : PyStr) (day : ℤ) : Prop :=
  ∃ a ∈ anomalies, a.scope = scope ∧ a.scopeId = sid ∧ a.day = day

instance (anomalies : List (Anomaly K)) (scope : AnomalyScope) (sid : PyStr) (day : ℤ) :
    Decidable (IsRecorded anomalies scope sid day) :=
  inferInstanceAs (Decidable (∃ a ∈ anomalies, _))

/-- `INSERT OR IGNORE`, and what the scan has inserted. -/
def insertOrIgnore (s : List (Anomaly K) × List (Anomaly K)) (a : Anomaly K) :
    List (Anomaly K) × List (Anomaly K) :=
  if IsRecorded s.1 a.scope a.scopeId a.day then s else (s.1 ++ [a], s.2 ++ [a])

/-- `daily_anomaly_scan`: the table of the anomalies afterwards, and what is returned. -/
def dailyAnomalyScan (table : List StoredUsage) (now : ℚ) (anomalies : List (Anomaly K)) :
    List (Anomaly K) × List (Anomaly K) :=
  ([AnomalyScope.key, .model].flatMap (anomalyCandidates ar table now)).foldl insertOrIgnore (anomalies, [])

/-! ### The rule -/

/-- The rows of an id between two times. -/
def idRows (scope : AnomalyScope) (table : List StoredUsage) (sid : PyStr) (start stop : ℤ) : List StoredUsage :=
  (scope.rows table start stop).filter fun row ↦ scope.sid row = sid

/-- The costs of an id on each day with usage between two times. -/
def dailyCosts (scope : AnomalyScope) (table : List StoredUsage) (sid : PyStr) (start stop : ℤ) : List ℚ :=
  (groups StoredUsage.day (idRows scope table sid start stop)).map fun g ↦ totalCost g.2

/-- What an id cost yesterday. -/
def yesterdayCost (scope : AnomalyScope) (table : List StoredUsage) (sid : PyStr) (now : ℚ) : ℚ :=
  totalCost (idRows scope table sid (yesterdayStart now) (todayStart now))

/-- The costs of an id on the days with usage among so many complete days before yesterday. -/
def daysBefore (scope : AnomalyScope) (table : List StoredUsage) (sid : PyStr) (now : ℚ) (days : ℤ) : List ℚ :=
  dailyCosts scope table sid (yesterdayStart now - days * 86400) (yesterdayStart now)

/-- The rule: there are three days to compare with, and the cost exceeds `max(mean + 3 * std, 3 * mean, 0.10)`. -/
def Spikes (daily : List ℚ) (actual : ℚ) : Prop :=
  3 ≤ daily.length ∧ max (anomalyThreshold ar daily) (anomalyMinSpend : K) < (actual : K)

/-- The scan records an anomaly of yesterday if and only if there is none and the fourteen days before say so. -/
def RecordsRightly (table : List StoredUsage) (now : ℚ) (anomalies : List (Anomaly K)) (scope : AnomalyScope)
    (sid : PyStr) : Prop :=
  IsRecorded (dailyAnomalyScan ar table now anomalies).2 scope sid (yesterdayStart now / 86400) ↔
    ¬ IsRecorded anomalies scope sid (yesterdayStart now / 86400) ∧
      Spikes ar (daysBefore scope table sid now 14) (yesterdayCost scope table sid now)

/-! ### What the scan records -/

omit [Field K] [LinearOrder K] in
theorem recorded_concat_iff {anomalies : List (Anomaly K)} {a : Anomaly K} {scope : AnomalyScope} {sid : PyStr}
    {day : ℤ} : IsRecorded (anomalies ++ [a]) scope sid day ↔
      IsRecorded anomalies scope sid day ∨ a.scope = scope ∧ a.scopeId = sid ∧ a.day = day := by
  simp [IsRecorded, or_and_right, exists_or]

omit [Field K] [LinearOrder K] in
/-- Of what the loop tries to record, the first of each scope, id and day is inserted, unless there is one. -/
theorem recorded_foldl_iff {attempts anomalies found : List (Anomaly K)} {scope : AnomalyScope} {sid : PyStr}
    {day : ℤ} : IsRecorded (attempts.foldl insertOrIgnore (anomalies, found)).2 scope sid day ↔
      IsRecorded found scope sid day ∨ ¬ IsRecorded anomalies scope sid day ∧ IsRecorded attempts scope sid day := by
  induction attempts generalizing anomalies found with
  | nil => simp [IsRecorded]
  | cons a attempts ih =>
    have hcons : IsRecorded (a :: attempts) scope sid day ↔
        (a.scope = scope ∧ a.scopeId = sid ∧ a.day = day) ∨ IsRecorded attempts scope sid day := by
      simp [IsRecorded, or_and_right, exists_or]
    rw [List.foldl_cons, hcons]
    by_cases hthere : IsRecorded anomalies a.scope a.scopeId a.day
    · rw [insertOrIgnore, if_pos hthere, ih]
      -- the attempt is ignored, and says nothing that is not recorded
      have hsame : a.scope = scope ∧ a.scopeId = sid ∧ a.day = day → IsRecorded anomalies scope sid day := by
        rintro ⟨rfl, rfl, rfl⟩
        exact hthere
      exact or_congr_right (and_congr_right fun hfree ↦ (or_iff_right fun h ↦ hfree (hsame h)).symm)
    · rw [insertOrIgnore, if_neg hthere, ih, recorded_concat_iff, recorded_concat_iff]
      have hnew : a.scope = scope ∧ a.scopeId = sid ∧ a.day = day → ¬ IsRecorded anomalies scope sid day := by
        rintro ⟨rfl, rfl, rfl⟩
        exact hthere
      by_cases hsame : a.scope = scope ∧ a.scopeId = sid ∧ a.day = day
      · simp [hsame, hnew hsame]
      · simp [hsame]

/-- The baseline of an id. -/
theorem lookup_baselines (scope : AnomalyScope) (table : List StoredUsage) (sid : PyStr) (start stop : ℤ) :
    ((baselines scope table start stop).lookup sid).getD [] = dailyCosts scope table sid start stop := by
  refine (lookup_groups costsOfDays sid).trans ?_
  rw [filter_groups_pair, costsOfDays, List.map_map]
  rfl

variable [IsStrictOrderedRing K]

/-- **The comparison** of the scan is the rule, for a mean that is not below the least amount. -/
theorem flagged_iff {daily : List ℚ} {actual : ℚ} :
    flagged ar daily actual = true ↔ Spikes ar daily actual ∧ anomalyMinSpend ≤ meanCost daily := by
  have hflagged : flagged ar daily actual = true ↔
      (3 ≤ daily.length ∧ anomalyMinSpend ≤ meanCost daily) ∧ anomalyThreshold ar daily < (actual : K) := by
    simp [flagged]
  rw [hflagged, Spikes]
  -- three times such a mean is more than the least amount
  have hfloor (hmean : anomalyMinSpend ≤ meanCost daily) : (anomalyMinSpend : K) ≤ anomalyThreshold ar daily := by
    have hcast : (anomalyMinSpend : K) ≤ (meanCost daily : K) := Rat.cast_le.2 hmean
    have hpos : (0 : K) ≤ (anomalyMinSpend : K) := Rat.cast_nonneg.2 (by decide +kernel)
    refine le_trans ?_ (le_max_right _ _)
    linarith
  constructor
  · rintro ⟨⟨hlength, hmean⟩, hexceeds⟩
    exact ⟨⟨hlength, by rwa [max_eq_left (hfloor hmean)]⟩, hmean⟩
  · rintro ⟨⟨hlength, hexceeds⟩, hmean⟩
    exact ⟨⟨hlength, hmean⟩, lt_of_le_of_lt (le_max_left _ _) hexceeds⟩

/-- An id whose costs are flagged has usage. -/
theorem exists_row_of_flagged {daily : List ℚ} {rows : List StoredUsage}
    (h : flagged ar daily (totalCost rows) = true) : ∃ row, row ∈ rows := by
  refine List.exists_mem_of_ne_nil _ fun hnil ↦ ?_
  obtain ⟨⟨-, hexceeds⟩, -⟩ := (flagged_iff ar).1 h
  have hleast : (anomalyMinSpend : K) < (totalCost rows : K) := lt_of_le_of_lt (le_max_right _ _) hexceeds
  rw [hnil, Rat.cast_lt] at hleast
  exact absurd hleast (by decide +kernel)

/-- What the loop of a scope tries to record. -/
theorem recorded_candidates_iff {table : List StoredUsage} {now : ℚ} {scope : AnomalyScope} {sid : PyStr} :
    IsRecorded ([AnomalyScope.key, .model].flatMap (anomalyCandidates ar table now)) scope sid
        (yesterdayStart now / 86400) ↔
      flagged ar (daysBefore scope table sid now 13) (yesterdayCost scope table sid now) = true := by
  have hstart : todayStart now - anomalyBaselineDays * 86400 = yesterdayStart now - 13 * 86400 := by
    unfold yesterdayStart anomalyBaselineDays
    omega
  constructor
  · rintro ⟨a, ha, rfl, rfl, -⟩
    obtain ⟨scope, -, hmem⟩ := List.mem_flatMap.1 ha
    obtain ⟨g, hg, hcandidate⟩ := List.mem_filterMap.1 hmem
    simp only [lookup_baselines, hstart, Option.ite_none_right_eq_some, Option.some.injEq] at hcandidate
    obtain ⟨hflagged, rfl⟩ := hcandidate
    rwa [(mem_groups_iff.1 hg).2] at hflagged
  · intro hflagged
    obtain ⟨row, hrow⟩ := exists_row_of_flagged ar hflagged
    have hgroup : (sid, idRows scope table sid (yesterdayStart now) (todayStart now)) ∈
        groups scope.sid (scope.rows table (yesterdayStart now) (todayStart now)) :=
      mem_groups_iff.2 ⟨⟨row, (List.mem_filter.1 hrow).1, by simpa using (List.mem_filter.1 hrow).2⟩, rfl⟩
    refine ⟨anomaly ar now scope sid (daysBefore scope table sid now 13) (yesterdayCost scope table sid now),
      List.mem_flatMap.2 ⟨scope, by cases scope <;> simp, List.mem_filterMap.2 ⟨_, hgroup, ?_⟩⟩, rfl, rfl, rfl⟩
    simp only [lookup_baselines, hstart]
    exact if_pos hflagged

/-- **What is recorded**: what is flagged by the costs of thirteen days, unless there is an anomaly. -/
theorem recorded_found_iff {table : List StoredUsage} {now : ℚ} {anomalies : List (Anomaly K)} {scope : AnomalyScope}
    {sid : PyStr} : IsRecorded (dailyAnomalyScan ar table now anomalies).2 scope sid (yesterdayStart now / 86400) ↔
      ¬ IsRecorded anomalies scope sid (yesterdayStart now / 86400) ∧
        flagged ar (daysBefore scope table sid now 13) (yesterdayCost scope table sid now) = true := by
  have hnone : ¬ IsRecorded ([] : List (Anomaly K)) scope sid (yesterdayStart now / 86400) := by simp [IsRecorded]
  rw [dailyAnomalyScan, recorded_foldl_iff, recorded_candidates_iff]
  exact or_iff_right hnone

/-- **When the scan follows its rule**: when the day is recorded already, or the rule says the same of the fourteen
days before yesterday as it does of the last thirteen of these with a mean of at least 0.10. -/
theorem recordsRightly_iff (table : List StoredUsage) (now : ℚ) (anomalies : List (Anomaly K)) (scope : AnomalyScope)
    (sid : PyStr) : RecordsRightly ar table now anomalies scope sid ↔
      IsRecorded anomalies scope sid (yesterdayStart now / 86400) ∨
        (Spikes ar (daysBefore scope table sid now 14) (yesterdayCost scope table sid now) ↔
          Spikes ar (daysBefore scope table sid now 13) (yesterdayCost scope table sid now) ∧
            anomalyMinSpend ≤ meanCost (daysBefore scope table sid now 13)) := by
  rw [RecordsRightly, recorded_found_iff, flagged_iff]
  tauto

end Scan

/-- The real numbers. -/
noncomputable def realArith : RootArith ℝ where
  sqrt q := √q
  round n x := round (x * 10 ^ n) / 10 ^ n

/-- A request of the key `k` at noon of a day. -/
def costRow (day cost : ℚ) : StoredUsage :=
  { estimatedRow with ts := day * 86400 + 43200, cost := some cost, apiKeyId := some (py "k") }

/-- Three days that cost one dollar each. -/
theorem spikes_dollars : Spikes realArith [1, 1, 1] 100 := by
  have hmean : meanCost [1, 1, 1] = 1 := by decide +kernel
  have hstd : stdCost realArith [1, 1, 1] = 0 := if_neg (by decide +kernel)
  refine ⟨by decide, ?_⟩
  rw [anomalyThreshold, hmean, hstd, anomalyMinSpend]
  norm_num

/-- A spike after three such days in a row is recorded. -/
theorem recordsRightly_sample :
    RecordsRightly realArith [costRow 16 1, costRow 17 1, costRow 18 1, costRow 19 100] (20 * 86400 + 3600) []
      .key (py "k") := by
  refine (recordsRightly_iff realArith _ _ _ _ _).2 (.inr ?_)
  have hfourteen : daysBefore .key [costRow 16 1, costRow 17 1, costRow 18 1, costRow 19 100] (py "k")
      (20 * 86400 + 3600) 14 = [1, 1, 1] := by decide +kernel
  have hthirteen : daysBefore .key [costRow 16 1, costRow 17 1, costRow 18 1, costRow 19 100] (py "k")
      (20 * 86400 + 3600) 13 = [1, 1, 1] := by decide +kernel
  rw [hfourteen, hthirteen]
  exact (and_iff_left (by decide +kernel)).symm

/-- Such costs on three days, the first of them the fourteenth day before yesterday, and a hundred dollars then. -/
def spikeTable : List StoredUsage :=
  [costRow 5 1, costRow 17 1, costRow 18 1, costRow 19 100]

/-- **A spike that is missed.** The scan leaves the first one of the fourteen days out, and does not find three. -/
theorem not_recordsRightly_spike :
    ¬ RecordsRightly realArith spikeTable (20 * 86400 + 3600) [] .key (py "k") := by
  have hfourteen : daysBefore .key spikeTable (py "k") (20 * 86400 + 3600) 14 = [1, 1, 1] := by decide +kernel
  have hthirteen : daysBefore .key spikeTable (py "k") (20 * 86400 + 3600) 13 = [1, 1] := by decide +kernel
  have hyesterday : yesterdayCost .key spikeTable (py "k") (20 * 86400 + 3600) = 100 := by decide +kernel
  have hfew : ¬ Spikes realArith [1, 1] 100 := fun h ↦ absurd h.1 (by decide)
  have hnone : ¬ IsRecorded ([] : List (Anomaly ℝ)) .key (py "k") (yesterdayStart (20 * 86400 + 3600) / 86400) := by
    simp [IsRecorded]
  rw [RecordsRightly, recorded_found_iff, flagged_iff, hfourteen, hthirteen, hyesterday]
  exact fun h ↦ hfew (h.2 ⟨hnone, spikes_dollars⟩).2.1

end LocalGateway
