import LocalGateway.Foundations.Grouped
import LocalGateway.Ledger.Usage

/-!
# The usage reports

`get_usage_summary` and `get_daily_series` of `usage.py`, over any table. Both leave the probes out and begin at one
cutoff; the first adds the token columns up separately, the second adds their sums, where a sum without values is null.
Times and costs are rational numbers, and the sums have no bound.

* `sum_requests_eq`: the two reports agree on the requests.
* `sum_tokens_add`: on the tokens they differ by what `omittedTokens` says.
* `viewsAgree_iff`: when they agree.
-/

namespace LocalGateway

open Py Grouped

/-- A row of `usage`, as the reports read it. -/
structure StoredUsage where
  ts : ℚ
  logicalModel : PyStr
  provider : PyStr
  backendModel : PyStr
  success : Bool
  inputTokens : Option ℤ
  outputTokens : Option ℤ
  reasoningTokens : Option ℤ
  cachedTokens : Option ℤ
  cacheWriteTokens : Option ℤ
  cost : Option ℚ
  latencyMs : Option ℤ
  ttftMs : Option ℤ
  isProbe : Option ℤ
  apiKeyId : Option PyStr
  endUser : Option PyStr
deriving DecidableEq

/-- `PROBE_EXCLUDE`. -/
def StoredUsage.counted (row : StoredUsage) : Bool :=
  row.isProbe.getD 0 = 0

/-- The rows of a report over the last hours. -/
def reported (table : List StoredUsage) (now : ℚ) (hours : ℤ) : List StoredUsage :=
  table.filter fun row ↦ now - hours * 3600 ≤ row.ts && row.counted

/-! ### `get_usage_summary` -/

/-- `AVG` of a column. -/
def averageOf (column : List (Option ℤ)) : Option ℚ :=
  (sumColumn column).map fun sum ↦ sum / column.reduceOption.length

/-- The columns of `_AGG_COLS`, as `_row` puts them. -/
structure UsageTotals where
  requests : ℕ
  successes : ℕ
  inputTokens : ℤ
  outputTokens : ℤ
  reasoningTokens : ℤ
  cachedTokens : ℤ
  cacheWriteTokens : ℤ
  avgTtftMs : Option ℚ
  avgLatencyMs : Option ℚ
  cost : ℚ
deriving DecidableEq

/-- The aggregates of some rows. -/
def totals (rows : List StoredUsage) : UsageTotals where
  requests := rows.length
  successes := rows.countP (·.success)
  inputTokens := (sumColumn (rows.map (·.inputTokens))).getD 0
  outputTokens := (sumColumn (rows.map (·.outputTokens))).getD 0
  reasoningTokens := (sumColumn (rows.map (·.reasoningTokens))).getD 0
  cachedTokens := (sumColumn (rows.map (·.cachedTokens))).getD 0
  cacheWriteTokens := (sumColumn (rows.map (·.cacheWriteTokens))).getD 0
  avgTtftMs := (averageOf (rows.map fun row ↦ row.ttftMs.filter fun _ ↦ row.success)).map (PyFloat.roundTo 1)
  avgLatencyMs := (averageOf (rows.map fun row ↦ row.latencyMs.filter fun _ ↦ row.success)).map (PyFloat.roundTo 1)
  cost := PyFloat.roundTo 6 ((sumColumn (rows.map (·.cost))).getD 0)

/-- The aggregates of each key. -/
def totalsBy (key : StoredUsage → PyStr) (rows : List StoredUsage) : List (PyStr × UsageTotals) :=
  (groups key rows).map fun g ↦ (g.1, totals g.2)

/-- What `get_usage_summary` returns. -/
structure UsageSummary where
  hours : ℤ
  total : UsageTotals
  byProvider : List (PyStr × UsageTotals)
  byModel : List (PyStr × UsageTotals)
  byBackend : List (PyStr × UsageTotals)
  byKey : List (PyStr × UsageTotals)
  byUser : List (PyStr × UsageTotals)

/-- `get_usage_summary`. -/
def getUsageSummary (table : List StoredUsage) (now : ℚ) (hours : ℤ) : UsageSummary :=
  let rows := reported table now hours
  { hours := hours
    total := totals rows
    byProvider := totalsBy StoredUsage.provider rows
    byModel := totalsBy StoredUsage.logicalModel rows
    byBackend := totalsBy (fun row ↦ backendKey row.provider row.backendModel) rows
    byKey := totalsBy (fun row ↦ row.apiKeyId.getD []) (rows.filter fun row ↦ row.apiKeyId.isSome)
    byUser := totalsBy (fun row ↦ row.endUser.getD []) (rows.filter fun row ↦ row.endUser.getD [] ≠ []) }

/-! ### `get_daily_series` -/

/-- The length of a bucket in seconds. -/
def bucketSeconds (hours : ℤ) : ℤ :=
  if 48 < hours then 86400 else 3600

/-- `CAST(q AS INTEGER)`. -/
def castInteger (q : ℚ) : ℤ :=
  if 0 ≤ q then q.floor else q.ceil

/-- The bucket of a row. -/
def StoredUsage.bucket (seconds : ℤ) (row : StoredUsage) : ℤ :=
  castInteger (row.ts / seconds) * seconds

/-- A sum of two sums, null if one of them is. -/
def sumOfSums (rows : List StoredUsage) : Option ℤ := do
  let input ← sumColumn (rows.map (·.inputTokens))
  let output ← sumColumn (rows.map (·.outputTokens))
  pure (input + output)

/-- A point of a series. -/
structure SeriesPoint where
  t : ℤ
  cost : ℚ
  tokens : ℤ
  requests : ℕ
deriving DecidableEq

/-- The rows of a bucket as a point. -/
def seriesPoint (t : ℤ) (rows : List StoredUsage) : SeriesPoint where
  t := t
  cost := PyFloat.roundTo 6 ((sumColumn (rows.map (·.cost))).getD 0)
  tokens := (sumOfSums rows).getD 0
  requests := rows.length

/-- The buckets of a provider as its points. -/
def seriesPoints (buckets : List ((ℤ × PyStr) × List StoredUsage)) : List SeriesPoint :=
  buckets.map fun g ↦ seriesPoint g.1.1 g.2

/-- What `get_daily_series` returns. -/
structure DailySeries where
  bucketSeconds : ℤ
  series : List (PyStr × List SeriesPoint)

/-- `get_daily_series`. -/
def getDailySeries (table : List StoredUsage) (now : ℚ) (hours : ℤ) : DailySeries :=
  let seconds := bucketSeconds hours
  let buckets := (groups (fun row ↦ (row.bucket seconds, row.provider)) (reported table now hours)).mergeSort
    fun g h ↦ g.1.1 ≤ h.1.1
  { bucketSeconds := seconds
    series := (groups (fun g ↦ g.1.2) buckets).map fun s ↦ (s.1, seriesPoints s.2) }

/-! ### The two views -/

/-- The row of a provider in the summary. -/
def UsageSummary.provider (s : UsageSummary) (provider : PyStr) : UsageTotals :=
  (s.byProvider.lookup provider).getD (totals [])

/-- The points of a provider in the series. -/
def DailySeries.points (d : DailySeries) (provider : PyStr) : List SeriesPoint :=
  (d.series.lookup provider).getD []

/-- The two reports over one window agree on a provider. -/
structure ViewsAgree (table : List StoredUsage) (now : ℚ) (hours : ℤ) (provider : PyStr) : Prop where
  requests : (((getDailySeries table now hours).points provider).map (·.requests)).sum =
    ((getUsageSummary table now hours).provider provider).requests
  tokens : (((getDailySeries table now hours).points provider).map (·.tokens)).sum =
    ((getUsageSummary table now hours).provider provider).inputTokens +
      ((getUsageSummary table now hours).provider provider).outputTokens

/-- The rows of a provider in a report. -/
def providerRows (table : List StoredUsage) (now : ℚ) (hours : ℤ) (provider : PyStr) : List StoredUsage :=
  (reported table now hours).filter fun row ↦ row.provider = provider

/-- The tokens of a bucket in which one column, and not the other, has only nulls. -/
def omitted (rows : List StoredUsage) : ℤ :=
  if (rows.map (·.inputTokens)).reduceOption = [] then (rows.map (·.outputTokens)).reduceOption.sum
  else if (rows.map (·.outputTokens)).reduceOption = [] then (rows.map (·.inputTokens)).reduceOption.sum
  else 0

/-- The tokens of all such buckets of a provider. -/
def omittedTokens (table : List StoredUsage) (now : ℚ) (hours : ℤ) (provider : PyStr) : ℤ :=
  ((groups (·.bucket (bucketSeconds hours)) (providerRows table now hours provider)).map fun g ↦ omitted g.2).sum

/-- The row of a provider is of its rows. -/
theorem provider_getUsageSummary (table : List StoredUsage) (now : ℚ) (hours : ℤ) (provider : PyStr) :
    (getUsageSummary table now hours).provider provider = totals (providerRows table now hours provider) := by
  exact lookup_groups totals provider

/-- The points of a provider are, in some order, those of the buckets of its rows. -/
theorem points_getDailySeries (table : List StoredUsage) (now : ℚ) (hours : ℤ) (provider : PyStr) :
    ((getDailySeries table now hours).points provider).Perm
      ((groups (·.bucket (bucketSeconds hours)) (providerRows table now hours provider)).map fun g ↦
        seriesPoint g.1 g.2) := by
  let key (row : StoredUsage) : ℤ × PyStr := (row.bucket (bucketSeconds hours), row.provider)
  -- the groups of the provider, whatever their order
  have hpoints : (getDailySeries table now hours).points provider =
      seriesPoints (((groups key (reported table now hours)).mergeSort fun g h ↦ g.1.1 ≤ h.1.1).filter fun g ↦
        g.1.2 = provider) := lookup_groups seriesPoints provider
  have hsorted := (List.mergeSort_perm (groups key (reported table now hours)) fun g h ↦ g.1.1 ≤ h.1.1).filter
    fun g ↦ g.1.2 = provider
  -- in these the bucket alone is the key
  rw [filter_groups_pair] at hsorted
  rw [hpoints]
  have hmapped := hsorted.map fun g ↦ seriesPoint g.1.1 g.2
  rwa [List.map_map] at hmapped

/-- What a bucket shows, with what it omits, are all its tokens. -/
theorem tokens_add_omitted (rows : List StoredUsage) : (sumOfSums rows).getD 0 + omitted rows =
    (rows.map fun row ↦ row.inputTokens.getD 0 + row.outputTokens.getD 0).sum := by
  rw [List.sum_map_add, ← sum_reduceOption, ← sum_reduceOption, sumOfSums, omitted]
  rcases hinput : (rows.map (·.inputTokens)).reduceOption with - | ⟨i, is⟩
  · simp [sumColumn, hinput]
  · rcases houtput : (rows.map (·.outputTokens)).reduceOption with - | ⟨o, os⟩ <;> simp [sumColumn, hinput, houtput]

/-- The tokens in the series, with those that are omitted, are those of the summary. -/
theorem sum_tokens_add (table : List StoredUsage) (now : ℚ) (hours : ℤ) (provider : PyStr) :
    (((getDailySeries table now hours).points provider).map (·.tokens)).sum + omittedTokens table now hours provider =
      ((getUsageSummary table now hours).provider provider).inputTokens +
        ((getUsageSummary table now hours).provider provider).outputTokens := by
  have hpoints := ((points_getDailySeries table now hours provider).map (·.tokens)).sum_eq
  have hbuckets : (groups (·.bucket (bucketSeconds hours)) (providerRows table now hours provider)).map
      (fun g ↦ (seriesPoint g.1 g.2).tokens + omitted g.2) = _ :=
    List.map_congr_left fun g _ ↦ tokens_add_omitted g.2
  rw [List.map_map] at hpoints
  have hsum := congrArg List.sum hbuckets
  rw [List.sum_map_add, sum_groups] at hsum
  rw [hpoints, omittedTokens, provider_getUsageSummary]
  refine hsum.trans ?_
  simp only [totals, sumColumn_getD, sum_reduceOption, List.sum_map_add]

/-- The requests in the series are those of the summary. -/
theorem sum_requests_eq (table : List StoredUsage) (now : ℚ) (hours : ℤ) (provider : PyStr) :
    (((getDailySeries table now hours).points provider).map (·.requests)).sum =
      ((getUsageSummary table now hours).provider provider).requests := by
  have hpoints := ((points_getDailySeries table now hours provider).map (·.requests)).sum_eq
  have hbuckets : (groups (·.bucket (bucketSeconds hours)) (providerRows table now hours provider)).map
      (fun g ↦ (seriesPoint g.1 g.2).requests) = _ :=
    List.map_congr_left fun g _ ↦ show g.2.length = (g.2.map fun _ ↦ 1).sum by simp
  rw [List.map_map] at hpoints
  have hsum := congrArg List.sum hbuckets
  rw [sum_groups] at hsum
  rw [hpoints, provider_getUsageSummary]
  refine hsum.trans ?_
  simp [totals]

/-- **When the views agree.** They always do on the requests, and on the tokens if and only if what the buckets omit
adds up to zero. -/
theorem viewsAgree_iff (table : List StoredUsage) (now : ℚ) (hours : ℤ) (provider : PyStr) :
    ViewsAgree table now hours provider ↔ omittedTokens table now hours provider = 0 := by
  have hadd := sum_tokens_add table now hours provider
  constructor
  · intro h
    have htokens := h.tokens
    omega
  · intro h
    exact ⟨sum_requests_eq table now hours provider, by omega⟩

/-- The row of a stream without usage: its output is estimated, its input is not known. -/
def estimatedRow : StoredUsage where
  ts := 1000000
  logicalModel := py "m"
  provider := py "a"
  backendModel := py "x"
  success := true
  inputTokens := none
  outputTokens := some 5
  reasoningTokens := none
  cachedTokens := none
  cacheWriteTokens := none
  cost := none
  latencyMs := some 900
  ttftMs := some 300
  isProbe := some 0
  apiKeyId := none
  endUser := none

/-- **Tokens that the chart does not show.** Of such a row the summary counts the output, and the series nothing. -/
theorem not_viewsAgree_estimated : ¬ ViewsAgree [estimatedRow] 1000060 168 (py "a") := by
  intro h
  have hadd := sum_tokens_add [estimatedRow] 1000060 168 (py "a")
  have homitted : omittedTokens [estimatedRow] 1000060 168 (py "a") = 5 := by decide +kernel
  have htokens := h.tokens
  omega

end LocalGateway
