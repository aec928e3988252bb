import LocalGateway.Ledger.LogStore
import LocalGateway.Ledger.Queries

/-!
# Retention

Both tables of `usage.db` over any run of what changes them: rows that are written, renames, clearing, and the passes of
`enforce_retention`, each at its own time and with the settings of its own time. The same run without the passes is what
the tables would be if nothing was ever too old.

* `usageNext`, `logsNext`: what a step does to either table.
* `tail_exec`: the logs of a run are the last ones of the logs that are kept for ever.
* `retention_unseen`: a report whose window the passes have not reached answers as if there were none, and so does a
  query for no more lines than each pass leaves; other queries of the logs end sooner at most.
-/

namespace LocalGateway

open Py Horizon Runs

/-- What happens to the tables. -/
inductive LedgerStep
  /-- A row of `log_request` is written. -/
  | logRequest (row : UsageRecord)
  /-- A row of `log` is written. -/
  | log (call : LogCall)
  | renameModel (old new : PyStr)
  | renameProvider (old new : PyStr)
  | clearUsage
  | clearLogs
  | enforceRetention (now : ℚ) (usageDays logLines : Option ℤ)

/-- A setting of the retention, if it has an effect: a zero and what is less keep everything. -/
def effective (setting : Option ℤ) : Option ℤ :=
  setting.filter (0 < ·)

/-- Before when the first `DELETE` of `enforce_retention` erases. -/
def retentionCutoff (now : ℚ) (usageDays : Option ℤ) : Option ℚ :=
  (effective usageDays).map fun days ↦ now - days * 86400

/-- What the `UPDATE` of `rename_model` makes of a line. -/
def LogRow.renameModel (old new : PyStr) (row : LogRow) : LogRow :=
  if row.model = some old then { row with model := some new } else row

/-- What the `UPDATE` of `rename_provider` makes of a line. -/
def LogRow.renameProvider (old new : PyStr) (row : LogRow) : LogRow :=
  if row.provider = some old then { row with provider := some new } else row

theorem LogRow.id_renameModel (old new : PyStr) (row : LogRow) : (row.renameModel old new).id = row.id := by
  rw [renameModel]
  split_ifs <;> rfl

theorem LogRow.id_renameProvider (old new : PyStr) (row : LogRow) : (row.renameProvider old new).id = row.id := by
  rw [renameProvider]
  split_ifs <;> rfl

namespace LedgerStep

/-- The step is not a pass of the retention. -/
def keeps : LedgerStep → Bool
  | enforceRetention _ _ _ => false
  | _ => true

/-- What a step does to `usage`. -/
def usageNext (rows : List UsageRecord) : LedgerStep → List UsageRecord
  | logRequest row => rows ++ [row]
  | renameModel old new => rows.map fun row ↦ if row.logicalModel = old then { row with logicalModel := new } else row
  | renameProvider old new => rows.map fun row ↦ if row.provider = old then { row with provider := new } else row
  | clearUsage => []
  | enforceRetention now usageDays _ =>
    (retentionCutoff now usageDays).elim rows fun cutoff ↦ rows.filter fun row ↦ !decide (row.ts < cutoff)
  | log _ | clearLogs => rows

/-- What a step does to `logs`. -/
def logsNext (lib : TextLib) (logs : LogStore) : LedgerStep → LogStore
  | log call => logs.insert lib call
  | renameModel old new => logs.update (LogRow.renameModel old new) (LogRow.id_renameModel old new)
  | renameProvider old new => logs.update (LogRow.renameProvider old new) (LogRow.id_renameProvider old new)
  | clearLogs => logs.clear
  | enforceRetention _ _ logLines => (effective logLines).elim logs logs.keepNewest
  | logRequest _ | clearUsage => logs

end LedgerStep

open LedgerStep

/-- The two tables. -/
structure Ledger where
  usage : List UsageRecord
  logs : LogStore

/-- What a step does to the tables. -/
def Ledger.next (lib : TextLib) (s : Ledger) (i : LedgerStep) : Ledger :=
  ⟨usageNext s.usage i, logsNext lib s.logs i⟩

theorem usage_exec (lib : TextLib) (s : Ledger) (steps : List LedgerStep) :
    (exec (Ledger.next lib) s steps).usage = exec usageNext s.usage steps :=
  (List.foldl_hom Ledger.usage fun _ _ ↦ rfl).symm

theorem logs_exec (lib : TextLib) (s : Ledger) (steps : List LedgerStep) :
    (exec (Ledger.next lib) s steps).logs = exec (logsNext lib) s.logs steps :=
  (List.foldl_hom Ledger.logs fun _ _ ↦ rfl).symm

/-! ### The usage table -/

/-- Whatever changes the table without erasing what is old. -/
theorem heeds_usageNext {i : LedgerStep} (h : i.keeps = true) :
    Heeds (fun row : UsageRecord ↦ row.ts) (usageNext · i) := by
  cases i with
  | logRequest row => exact heeds_append [row]
  | renameModel old new =>
    refine heeds_map fun row ↦ ?_
    split_ifs <;> rfl
  | renameProvider old new =>
    refine heeds_map fun row ↦ ?_
    split_ifs <;> rfl
  | clearUsage => exact heeds_const []
  | log call => exact fun _ _ _ hsince ↦ hsince
  | clearLogs => exact fun _ _ _ hsince ↦ hsince
  | enforceRetention now usageDays logLines => cases h

/-- A pass that does not reach a time. -/
theorem spares_usageNext {now horizon : ℚ} {usageDays logLines : Option ℤ}
    (h : ∀ cutoff ∈ retentionCutoff now usageDays, cutoff ≤ horizon) :
    Spares (fun row : UsageRecord ↦ row.ts) horizon (usageNext · (.enforceRetention now usageDays logLines)) := by
  rcases hcutoff : retentionCutoff now usageDays with - | cutoff
  · intro rows
    simp only [usageNext, hcutoff, Option.elim_none]
  · simp only [usageNext, hcutoff, Option.elim_some]
    refine spares_filter fun row hrow ↦ ?_
    simpa using (h cutoff hcutoff).trans hrow

/-- **The recent rows** are those of the run without passes. -/
theorem rowsFrom_exec {horizon : ℚ} {steps : List LedgerStep}
    (h : ∀ now days lines, enforceRetention now days lines ∈ steps → ∀ cutoff ∈ retentionCutoff now days,
      cutoff ≤ horizon) (rows : List UsageRecord) :
    Report.rowsFrom horizon (exec usageNext rows steps) =
      Report.rowsFrom horizon (exec usageNext rows (steps.filter keeps)) := by
  refine since_exec steps (fun i _ hi ↦ heeds_usageNext hi) (fun i hi hskip ↦ ?_) rows
  cases i with
  | enforceRetention now days lines => exact spares_usageNext (h now days lines hi)
  | _ => cases hskip

/-- No row is there that would not be there without the passes. -/
theorem usage_sublist (rows : List UsageRecord) (steps : List LedgerStep) :
    (exec usageNext rows steps).Sublist (exec usageNext rows (steps.filter keeps)) := by
  refine exec_sublist steps (fun i hi s t h ↦ ?_) (fun i hskip s ↦ ?_) rows
  · cases i with
    | logRequest row => exact h.append (List.Sublist.refl [row])
    | renameModel old new => exact h.map _
    | renameProvider old new => exact h.map _
    | clearUsage => exact List.Sublist.refl []
    | log call => exact h
    | clearLogs => exact h
    | enforceRetention now usageDays logLines => cases hi
  · cases i with
    | enforceRetention now usageDays logLines =>
      rw [usageNext]
      rcases retentionCutoff now usageDays with - | cutoff
      · exact List.Sublist.refl s
      · exact List.filter_sublist
    | _ => cases hskip

/-! ### The logs -/

/-- A table has the last rows of another, and at least so many of them. -/
structure Tail (limit : ℕ) (s t : LogStore) : Prop where
  lastId : s.lastId = t.lastId
  rows : s.rows <:+ t.rows
  length : min limit t.rows.length ≤ s.rows.length

theorem tail_keepNewest {limit : ℕ} {s t : LogStore} (h : Tail limit s t) {n : ℤ} (hn : 0 ≤ n) (hlimit : limit ≤ n) :
    Tail limit (s.keepNewest n) t := by
  have hrows := s.rows_keepNewest hn
  have hlength := h.length
  refine ⟨h.lastId, ?_, ?_⟩
  · rw [hrows]
    exact (List.drop_suffix _ _).trans h.rows
  · rw [hrows, List.length_drop]
    omega

theorem tail_logsNext (lib : TextLib) {limit : ℕ} {i : LedgerStep} (hi : i.keeps = true) {s t : LogStore}
    (h : Tail limit s t) : Tail limit (logsNext lib s i) (logsNext lib t i) := by
  have hupdate (f : LogRow → LogRow) (hf : ∀ row, (f row).id = row.id) : Tail limit (s.update f hf) (t.update f hf) :=
    ⟨h.lastId, h.rows.map f, by simpa [LogStore.update] using h.length⟩
  cases i with
  | log call =>
    obtain ⟨old, hold⟩ := h.rows
    refine ⟨congrArg (· + 1) h.lastId, ⟨old, ?_⟩, ?_⟩
    · simp only [logsNext, LogStore.insert]
      rw [← hold, h.lastId, List.append_assoc]
    · have hlength := h.length
      simp only [logsNext, LogStore.insert, List.length_append, List.length_singleton]
      omega
  | renameModel old new => exact hupdate _ (LogRow.id_renameModel old new)
  | renameProvider old new => exact hupdate _ (LogRow.id_renameProvider old new)
  | clearLogs => exact ⟨h.lastId, by simp [logsNext, LogStore.clear, LogStore.keep],
      by simp [logsNext, LogStore.clear, LogStore.keep]⟩
  | logRequest row => exact h
  | clearUsage => exact h
  | enforceRetention now usageDays logLines => cases hi

/-- **The logs of a run** are the last ones of those of the run without passes, at least as many as every pass leaves. -/
theorem tail_exec (lib : TextLib) {limit : ℕ} {steps : List LedgerStep}
    (h : ∀ now days lines, enforceRetention now days lines ∈ steps → ∀ n ∈ effective lines, (limit : ℤ) ≤ n)
    (logs : LogStore) :
    Tail limit (exec (logsNext lib) logs steps) (exec (logsNext lib) logs (steps.filter keeps)) := by
  refine exec_related steps (fun i _ hi s t hst ↦ tail_logsNext lib hi hst) (fun i hi hskip s t hst ↦ ?_)
    ⟨rfl, List.suffix_rfl, min_le_right _ _⟩
  cases i with
  | enforceRetention now days lines =>
    rw [logsNext]
    rcases hlines : effective lines with - | n
    · exact hst
    · have hpos : 0 < n := of_decide_eq_true (Option.filter_eq_some_iff.1 hlines).2
      exact tail_keepNewest hst hpos.le (h now days lines hi n hlines)
  | _ => cases hskip

/-! ### Passes that are not seen -/

/-- **Retention is not seen** by whoever asks for what it keeps. In any run, a report, at any time, whose rows begin where
none of the passes has erased answers as it would if nothing had ever been erased. A query of the logs answers with the
first lines of what it would answer then, and, if it has no filter but a first id and a limit that no pass goes below,
with all of them. And no pass adds anything to either table. -/
theorem retention_unseen {K : Type} [Field K] [LinearOrder K] (ar : RootArith K) (lib : TextLib) (clock : LocalClock)
    (start : Ledger) (steps : List LedgerStep) :
    let s := exec (Ledger.next lib) start steps
    let t := exec (Ledger.next lib) start (steps.filter keeps)
    (∀ (r : Report) (now : ℚ), (∀ at' days lines, enforceRetention at' days lines ∈ steps →
        ∀ cutoff ∈ retentionCutoff at' days, cutoff ≤ r.since clock now) →
      r.answer ar clock s.usage now = r.answer ar clock t.usage now) ∧
    (∀ q, getLogs lib s.logs.rows q <+: getLogs lib t.logs.rows q) ∧
    (∀ q : LogQuery, q.level.getD [] = [] → q.search.getD [] = [] → q.requestId.getD [] = [] → 0 ≤ q.limit →
      (∀ at' days lines, enforceRetention at' days lines ∈ steps → ∀ n ∈ effective lines, q.limit ≤ n) →
      getLogs lib s.logs.rows q = getLogs lib t.logs.rows q) ∧
    s.usage.Sublist t.usage ∧ s.logs.rows.Sublist t.logs.rows := by
  intro s t
  have hs : s.usage = exec usageNext start.usage steps := usage_exec lib start steps
  have ht : t.usage = exec usageNext start.usage (steps.filter keeps) := usage_exec lib start _
  have hs' : s.logs = exec (logsNext lib) start.logs steps := logs_exec lib start steps
  have ht' : t.logs = exec (logsNext lib) start.logs (steps.filter keeps) := logs_exec lib start _
  have htail (limit : ℕ) (h : ∀ at' days lines, enforceRetention at' days lines ∈ steps →
      ∀ n ∈ effective lines, (limit : ℤ) ≤ n) : Tail limit s.logs t.logs := by
    rw [hs', ht']
    exact tail_exec lib h start.logs
  have hany : Tail 0 s.logs t.logs := htail 0 fun _ _ _ _ n hn ↦ by
    have hpos : 0 < n := of_decide_eq_true (Option.filter_eq_some_iff.1 hn).2
    exact hpos.le
  refine ⟨fun r now h ↦ ?_, fun q ↦ getLogs_isPrefix hany.rows lib q, fun q hlevel hsearch hid hlimit h ↦ ?_, ?_,
    hany.rows.sublist⟩
  · rw [← r.answer_since ar clock s.usage now, ← r.answer_since ar clock t.usage now, hs, ht, rowsFrom_exec h]
  · have hq : (q.limit.toNat : ℤ) = q.limit := Int.toNat_of_nonneg hlimit
    have hlast := htail q.limit.toNat fun at' days lines hmem n hn ↦ hq.trans_le (h at' days lines hmem n hn)
    exact getLogs_eq hlast.rows lib hlevel hsearch hid hlimit hlast.length
  · rw [hs, ht]
    exact usage_sublist start.usage steps

end LocalGateway
