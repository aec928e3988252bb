import Mathlib.Data.Finset.Card
import LocalGateway.Foundations.Columns
import LocalGateway.Foundations.Runs
import LocalGateway.Ledger.Export

/-!
# The columns of the usage table

`_init` of `usage.py` creates the table and adds the columns that it has got since, in whatever file it finds. The
supervisor and the worker do so on one file, without a transaction over the statements: a column may be added by the
other between `PRAGMA table_info` and `ALTER TABLE`, which then fails, and a process may be killed anywhere.

* `UsageDb.next`: processes that run `_init` statement by statement, and those for which it has returned, with the
  statements that they execute.
* `UsageDb.Inv`: what a process has behind it, it finds in the table.
* `pending_next`: an `_init` that fails uses up one of the columns.
* `UsageDb.Sound`: no statement fails for a missing column, the rows are those of a table that has had all columns
  from the start, `_init` fails in a process at most once for each column, and it succeeds when nobody interferes.
* `usageInit_sound`: this holds after every run on a file of any earlier version, or on none.

The `anomalies` table, the indexes themselves and the values of `id` are left out. Two threads of a process exclude
each other by `_db_lock`.
-/

namespace LocalGateway

open Py Columns Runs

/-- The columns of `CREATE TABLE`. -/
def baseColumns : List PyStr :=
  [py "id", py "ts", py "logical_model", py "provider", py "backend_model", py "success", py "error",
    py "input_tokens", py "output_tokens", py "cost", py "latency_ms", py "stream"]

/-- The columns of `ALTER TABLE`, in their order, with their defaults. -/
def addedColumns : List (PyStr × SqlValue) :=
  [(py "ttft_ms", .null), (py "reasoning_tokens", .null), (py "tps", .null), (py "cached_tokens", .null),
    (py "cache_write_tokens", .null), (py "is_probe", .integer 0), (py "api_key_id", .null), (py "end_user", .null),
    (py "request_id", .null), (py "cache_hit", .integer 0)]

/-- The columns of the indexes. -/
def indexColumns : List (List PyStr) :=
  [[py "api_key_id", py "ts"], [py "ts"], [py "provider"], [py "request_id"]]

/-- The names of the columns that are added. -/
def addedNames : List PyStr :=
  addedColumns.map Prod.fst

/-- The columns that the program knows. -/
def usageColumns : List PyStr :=
  baseColumns ++ addedNames

/-- What a row of an earlier version has in a column that it did not have. -/
def columnDefault (c : PyStr) : SqlValue :=
  (addedColumns.lookup c).getD .null

/-- The table, and a statement on it. -/
abbrev UsageTable := Table PyStr SqlValue
abbrev UsageStatement := Columns.Statement usageColumns SqlValue

theorem exportColumns_known : exportColumns ⊆ usageColumns := by
  decide +kernel

theorem ts_known : [py "ts"] ⊆ usageColumns := by
  decide +kernel

theorem logicalModel_known : [py "logical_model"] ⊆ usageColumns := by
  decide +kernel

/-- The `INSERT` of `log_request`. -/
def logRequest (row : UsageRecord) : UsageStatement where
  columns := exportColumns
  apply rows := rows ++ [fun c ↦ (row.exported.lookup c).getD .null]
  columns_known := exportColumns_known
  agree _ _ h := List.rel_append h (.cons (fun _ _ ↦ rfl) .nil)

/-- The `DELETE` of `enforce_retention`. -/
def deleteBefore (older : SqlValue → Bool) : UsageStatement where
  columns := [py "ts"]
  apply rows := rows.filter fun row ↦ !older (row (py "ts"))
  columns_known := ts_known
  agree _ _ h := List.rel_filter (fun _ _ hrow ↦ by
    simp only [hrow (py "ts") (ts_known (List.mem_singleton_self _))]) h

/-- The `UPDATE` of `rename_model`. -/
def renameLogicalModel (old new : PyStr) : UsageStatement where
  columns := [py "logical_model"]
  apply rows := rows.map fun row ↦
    if row (py "logical_model") = .text old then Function.update row (py "logical_model") (.text new) else row
  columns_known := logicalModel_known
  agree rows rows' h := by
    rw [Agree, List.forall₂_map_left_iff, List.forall₂_map_right_iff]
    refine List.Forall₂.imp (fun row row' hrow c hc ↦ ?_) h
    rw [hrow (py "logical_model") (logicalModel_known (List.mem_singleton_self _))]
    split_ifs with hold
    · by_cases hmodel : c = py "logical_model"
      · rw [hmodel, Function.update_self, Function.update_self]
      · rw [Function.update_of_ne hmodel, Function.update_of_ne hmodel]
        exact hrow c hc
    · exact hrow c hc

/-- How far `_init` has come in a process. -/
inductive InitPhase
  /-- It has not been called, or has been cut short. -/
  | idle
  /-- The table is there. -/
  | created
  /-- The columns that `table_info` has named, and those that are still to be looked for. -/
  | altering (existing : List PyStr) (rest : List (PyStr × SqlValue))
  /-- The indexes that are still to be created. -/
  | indexing (rest : List (List PyStr))
  /-- It has returned. -/
  | ready
deriving DecidableEq

/-- The file, and the processes that use it. -/
structure UsageDb where
  table : Option UsageTable
  phase : ℕ → InitPhase

/-- What happens. -/
inductive UsageDbStep
  /-- A process goes on with `_init`, by one statement. -/
  | run (p : ℕ)
  /-- A process is killed, or a statement of it fails for a reason of its own. -/
  | stop (p : ℕ)
  /-- A process executes a statement, for which it has called `_init` before. -/
  | execute (p : ℕ) (statement : UsageStatement)

namespace UsageDb

/-- The columns of the table, if there is one. -/
def columns (s : UsageDb) : List PyStr :=
  s.table.elim [] Table.columns

/-- A process with its phase. -/
def setPhase (s : UsageDb) (p : ℕ) (phase : InitPhase) : UsageDb :=
  { s with phase := Function.update s.phase p phase }

theorem baseColumns_nodup : baseColumns.Nodup := by
  simp (disch := rfl) only [baseColumns, py_eq]
  decide +kernel

/-- `CREATE TABLE IF NOT EXISTS`. -/
def createTable (s : UsageDb) : UsageTable :=
  s.table.getD (Table.create baseColumns baseColumns_nodup)

/-- `ALTER TABLE usage ADD COLUMN`, or nothing if it fails. -/
def alterTable (s : UsageDb) (c : PyStr) (v : SqlValue) : Option UsageTable :=
  s.table.bind fun t ↦ t.addColumn c v

/-- `_init`, by one statement, and up to the next one. -/
def advance (s : UsageDb) (p : ℕ) : UsageDb :=
  match s.phase p with
  | .idle => { s with table := some s.createTable }.setPhase p .created
  | .created => s.setPhase p (.altering s.columns addedColumns)
  | .altering _ [] => s.setPhase p (.indexing indexColumns)
  | .altering existing ((c, v) :: rest) =>
    if c ∈ existing then s.setPhase p (.altering existing rest)
    else
      -- the column may have been added meanwhile; the exception leaves `_initialized` unset
      match s.alterTable c v with
      | none => s.setPhase p .idle
      | some t => { s with table := some t }.setPhase p (.altering existing rest)
  | .indexing [] => s.setPhase p .ready
  | .indexing (cs :: rest) => if cs ⊆ s.columns then s.setPhase p (.indexing rest) else s.setPhase p .idle
  | .ready => s

/-- What a step does. -/
def next (s : UsageDb) : UsageDbStep → UsageDb
  | .run p => s.advance p
  | .stop p => s.setPhase p .idle
  | .execute p statement =>
    if s.phase p = .ready then { s with table := s.table.map fun t ↦ (t.execute statement).getD t } else s

/-- A statement of a process for which `_init` has returned finds its columns. -/
def Served (s : UsageDb) : UsageDbStep → Prop
  | .execute p statement => s.phase p = .ready → ∃ t t', s.table = some t ∧ t.execute statement = some t'
  | _ => True

/-- `_init` fails in a process. -/
def fails (s : UsageDb) (p : ℕ) (i : UsageDbStep) : Bool :=
  match i with
  | .run q => p = q && s.phase p ≠ .idle && (s.advance p).phase p = .idle
  | _ => false

/-- How often it does in a run. -/
def failures (p : ℕ) : UsageDb → List UsageDbStep → ℕ
  | _, [] => 0
  | s, i :: steps => (if s.fails p i then 1 else 0) + failures p (s.next i) steps

end UsageDb

/-- The file that the processes find: none, or the table of an earlier version, which may have some of the columns
that are added now, and others. -/
structure UsageFile where
  table : Option UsageTable
  base : ∀ t ∈ table, baseColumns ⊆ t.columns

/-- The file before any process uses it. -/
def UsageFile.start (file : UsageFile) : UsageDb :=
  ⟨file.table, fun _ ↦ .idle⟩

/-- Its rows, with what they have in columns of later versions. -/
def UsageFile.rows (file : UsageFile) : List (PyStr → SqlValue) :=
  file.table.elim [] fun t ↦ t.rows.map (t.fill columnDefault)

/-- The file, and the rows of a table that has had all columns from the start. -/
structure ReferenceDb where
  db : UsageDb
  rows : List (PyStr → SqlValue)

/-- The same step on both. -/
def ReferenceDb.next (r : ReferenceDb) (i : UsageDbStep) : ReferenceDb where
  db := r.db.next i
  rows := match i with
    | .execute p statement => if r.db.phase p = .ready then statement.apply r.rows else r.rows
    | _ => r.rows

/-- The rows of the table that has had all columns from the start, after a run. -/
def UsageFile.reference (file : UsageFile) (steps : List UsageDbStep) : List (PyStr → SqlValue) :=
  (exec ReferenceDb.next ⟨file.start, file.rows⟩ steps).rows

/-- What a maintainer expects of `_init`. -/
structure UsageFile.Sound (file : UsageFile) (steps : List UsageDbStep) : Prop where
  /-- No statement fails for a missing column. -/
  served : Every UsageDb.next (fun _ ↦ UsageDb.Served) file.start steps
  /-- Processes for which it has returned see the rows of a table that has had all columns from the start. -/
  reads : ∀ p, (exec UsageDb.next file.start steps).phase p = .ready →
    ∃ t, (exec UsageDb.next file.start steps).table = some t ∧
      Agree (· ∈ usageColumns) (file.reference steps) t.rows
  /-- It fails in a process at most once for each column. -/
  failures : ∀ p, UsageDb.failures p file.start steps ≤ addedColumns.length
  /-- It succeeds in a process that is not interfered with. -/
  completes : ∀ p, (exec UsageDb.next file.start steps).phase p = .idle →
    (exec UsageDb.next file.start (steps ++ List.replicate 18 (.run p))).phase p = .ready

namespace UsageDb

/-! ### What a process has behind it -/

/-- What a process has behind it, it finds in the table. -/
def Behind (columns : List PyStr) : InitPhase → Prop
  | .idle => True
  | .created => baseColumns ⊆ columns
  | .altering existing rest =>
    baseColumns ⊆ columns ∧ existing ⊆ columns ∧ ∃ done, done ++ rest = addedColumns ∧ ∀ e ∈ done, e.1 ∈ columns
  | .indexing rest => usageColumns ⊆ columns ∧ rest ⊆ indexColumns
  | .ready => usageColumns ⊆ columns

/-- The columns that a process takes to be there. -/
def seen (columns : List PyStr) : InitPhase → List PyStr
  | .altering existing _ => existing
  | _ => columns

/-- What holds at any time, of the file and the rows of the table that has had all columns from the start. -/
structure Inv (s : UsageDb) (rows : List (PyStr → SqlValue)) : Prop where
  empty : s.table = none → rows = []
  base : ∀ t ∈ s.table, baseColumns ⊆ t.columns
  shows : ∀ t ∈ s.table, t.Shows usageColumns columnDefault rows
  behind : ∀ p, Behind s.columns (s.phase p)

/-- All that a statement of `_init` can do. -/
structure Advanced (s : UsageDb) (rows : List (PyStr → SqlValue)) (p : ℕ) (t : UsageTable) (phase : InitPhase) :
    Prop where
  eq : s.advance p = { s with table := some t }.setPhase p phase
  grows : s.columns ⊆ t.columns
  base : baseColumns ⊆ t.columns
  shows : t.Shows usageColumns columnDefault rows
  behind : Behind t.columns phase
  seen : seen s.columns (s.phase p) ⊆ seen t.columns phase
  /-- It fails on a column that is there, and that the process has not taken to be there. -/
  fails : phase = .idle → ∃ c ∈ addedNames, c ∈ s.columns ∧ c ∉ UsageDb.seen s.columns (s.phase p)

variable {s : UsageDb} {rows : List (PyStr → SqlValue)} {p : ℕ} {columns columns' : List PyStr}

theorem Behind.mono {phase : InitPhase} (h : Behind columns phase) (hsub : columns ⊆ columns') :
    Behind columns' phase := by
  cases phase with
  | idle => exact trivial
  | created => exact List.Subset.trans h hsub
  | altering existing rest =>
    obtain ⟨hbase, hexisting, done, hdone, hmem⟩ := h
    exact ⟨List.Subset.trans hbase hsub, List.Subset.trans hexisting hsub, done, hdone, fun e he ↦ hsub (hmem e he)⟩
  | indexing rest => exact ⟨List.Subset.trans h.1 hsub, h.2⟩
  | ready => exact List.Subset.trans h hsub

theorem columnDefault_eq : ∀ e ∈ addedColumns, columnDefault e.1 = e.2 := by
  decide +kernel

theorem addedNames_nodup : addedNames.Nodup := by
  decide +kernel

theorem indexColumns_known : ∀ cs ∈ indexColumns, cs ⊆ usageColumns := by
  decide +kernel

theorem mem_usageColumns {e : PyStr × SqlValue} (h : e ∈ addedColumns) : e.1 ∈ usageColumns :=
  List.mem_append_right _ (List.mem_map_of_mem h)

/-- A table that has the first columns is there. -/
theorem exists_table (h : baseColumns ⊆ s.columns) : ∃ t, s.table = some t ∧ s.columns = t.columns := by
  unfold columns at h ⊢
  cases htable : s.table with
  | none =>
    rw [htable] at h
    exact absurd (h (List.mem_cons_self ..)) List.not_mem_nil
  | some t => exact ⟨t, rfl, rfl⟩

theorem Inv.setPhase (h : s.Inv rows) {phase : InitPhase} (hphase : Behind s.columns phase) :
    (s.setPhase p phase).Inv rows := by
  refine ⟨h.empty, h.base, h.shows, fun q ↦ ?_⟩
  by_cases hq : q = p
  · subst hq
    exact (congrArg (Behind s.columns) (Function.update_self ..)).mpr hphase
  · exact (congrArg (Behind s.columns) (Function.update_of_ne hq ..)).mpr (h.behind q)

/-- Another table with the same rows. -/
theorem Inv.setTable (h : s.Inv rows) {t : UsageTable} (hgrows : s.columns ⊆ t.columns)
    (hbase : baseColumns ⊆ t.columns) {rows' : List (PyStr → SqlValue)}
    (hshows : t.Shows usageColumns columnDefault rows') : Inv { s with table := some t } rows' where
  empty h := absurd h (Option.some_ne_none _)
  base _ ht := Option.some.inj ht ▸ hbase
  shows _ ht := Option.some.inj ht ▸ hshows
  behind q := (h.behind q).mono hgrows

/-- A statement that leaves the table as it is. -/
theorem Inv.advanced_same (h : s.Inv rows) (phase : InitPhase) (hadvance : s.advance p = s.setPhase p phase)
    (hbase : baseColumns ⊆ s.columns) (hbehind : Behind s.columns phase)
    (hseen : seen s.columns (s.phase p) ⊆ seen s.columns phase)
    (hfails : phase = .idle → ∃ c ∈ addedNames, c ∈ s.columns ∧ c ∉ seen s.columns (s.phase p)) :
    ∃ t phase, s.Advanced rows p t phase := by
  obtain ⟨t, ht, hcolumns⟩ := exists_table hbase
  rw [hcolumns] at hbase hbehind hseen
  refine ⟨t, phase, ?_, fun c hc ↦ hcolumns ▸ hc, hbase, h.shows t ht, hbehind, hcolumns ▸ hseen, hfails⟩
  rw [hadvance, ← ht]

theorem usageColumns_subset (hbase : baseColumns ⊆ columns) (hadded : ∀ e ∈ addedColumns, e.1 ∈ columns) :
    usageColumns ⊆ columns :=
  List.append_subset.2 ⟨hbase, fun _ hc ↦ by
    obtain ⟨e, he, rfl⟩ := List.mem_map.1 hc
    exact hadded e he⟩

/-- `CREATE TABLE IF NOT EXISTS`. -/
theorem Inv.advanced_create (h : s.Inv rows) (hphase : s.phase p = .idle) :
    s.Advanced rows p s.createTable .created := by
  have hadvance : s.advance p = { s with table := some s.createTable }.setPhase p .created := by
    rw [UsageDb.advance, hphase]
  have hseen : UsageDb.seen s.columns (s.phase p) ⊆ s.columns := by
    rw [hphase]
    exact List.Subset.refl _
  cases htable : s.table with
  | none =>
    have hcreate : s.createTable = Table.create baseColumns baseColumns_nodup := by
      rw [createTable, htable, Option.getD_none]
    have hcolumns : s.columns = [] := by
      rw [columns, htable, Option.elim_none]
    have hbase : baseColumns ⊆ s.createTable.columns := hcreate ▸ List.Subset.refl _
    have hgrows : s.columns ⊆ s.createTable.columns := hcolumns ▸ List.nil_subset _
    refine ⟨hadvance, hgrows, hbase, ?_, hbase, List.Subset.trans hseen hgrows, fun h ↦ InitPhase.noConfusion h⟩
    rw [hcreate, h.empty htable]
    exact shows_create ..
  | some t =>
    have hcreate : s.createTable = t := by
      rw [createTable, htable, Option.getD_some]
    have hgrows : s.columns ⊆ s.createTable.columns := by
      rw [columns, htable, hcreate]
      exact List.Subset.refl _
    have hbase : baseColumns ⊆ s.createTable.columns := hcreate ▸ h.base t htable
    exact ⟨hadvance, hgrows, hbase, hcreate ▸ h.shows t htable, hbase, List.Subset.trans hseen hgrows,
      fun h ↦ InitPhase.noConfusion h⟩

/-- `ALTER TABLE`, of a column that the process has not taken to be there. -/
theorem Inv.advanced_alter (h : s.Inv rows) {existing : List PyStr} {e : PyStr × SqlValue}
    {rest : List (PyStr × SqlValue)} (hphase : s.phase p = .altering existing (e :: rest)) (hnot : e.1 ∉ existing) :
    ∃ t phase, s.Advanced rows p t phase := by
  have hbehind := h.behind p
  rw [hphase] at hbehind
  obtain ⟨hbase, hexisting, done, hdone, hmem⟩ := hbehind
  have he : e ∈ addedColumns := hdone ▸ List.mem_append_right _ (List.mem_cons_self ..)
  obtain ⟨t, ht, hcolumns⟩ := exists_table hbase
  have halter : s.alterTable e.1 e.2 = t.addColumn e.1 e.2 := by
    rw [alterTable, ht, Option.bind_some]
  cases hadd : t.addColumn e.1 e.2 with
  | none =>
    have hadvance : s.advance p = s.setPhase p .idle := by
      rw [UsageDb.advance, hphase]
      dsimp only
      rw [if_neg hnot, halter, hadd]
    refine h.advanced_same .idle hadvance hbase trivial ?_ fun _ ↦
      ⟨e.1, List.mem_map_of_mem he, hcolumns ▸ addColumn_eq_none_iff.1 hadd, ?_⟩
    · rw [hphase]
      exact hexisting
    · rw [hphase]
      exact hnot
  | some t' =>
    have hadvance : s.advance p = { s with table := some t' }.setPhase p (.altering existing rest) := by
      rw [UsageDb.advance, hphase]
      dsimp only
      rw [if_neg hnot, halter, hadd]
    have hcolumns' : t'.columns = s.columns ++ [e.1] := hcolumns ▸ (columns_addColumn hadd).2
    have hgrows : s.columns ⊆ t'.columns := hcolumns' ▸ List.subset_append_left ..
    rw [← columnDefault_eq e he] at hadd
    refine ⟨t', _, hadvance, hgrows, List.Subset.trans hbase hgrows,
      (h.shows t ht).addColumn (mem_usageColumns he) hadd, ⟨List.Subset.trans hbase hgrows,
        List.Subset.trans hexisting hgrows, done ++ [e], by rw [← hdone, List.append_assoc]; rfl, ?_⟩, ?_,
      fun h ↦ InitPhase.noConfusion h⟩
    · intro d hd
      rcases List.mem_append.1 hd with hd | hd
      · exact hgrows (hmem d hd)
      · rw [List.mem_singleton.1 hd, hcolumns']
        exact List.mem_append_right _ (List.mem_singleton_self _)
    · rw [hphase]
      exact List.Subset.refl _

/-- **What a statement of `_init` does.** -/
theorem Inv.advance (h : s.Inv rows) (p : ℕ) : ∃ t phase, s.Advanced rows p t phase := by
  have hbehind := h.behind p
  cases hphase : s.phase p with
  | idle => exact ⟨_, _, h.advanced_create hphase⟩
  | created =>
    rw [hphase] at hbehind
    refine h.advanced_same (.altering s.columns addedColumns) ?_ hbehind ⟨hbehind, List.Subset.refl _, [], rfl,
      fun _ he ↦ absurd he List.not_mem_nil⟩ ?_ fun h ↦ InitPhase.noConfusion h
    · rw [UsageDb.advance, hphase]
    · rw [hphase]
      exact List.Subset.refl _
  | altering existing rest =>
    rcases rest with - | ⟨e, rest⟩
    · rw [hphase] at hbehind
      obtain ⟨hbase, hexisting, done, hdone, hmem⟩ := hbehind
      rw [List.append_nil] at hdone
      refine h.advanced_same (.indexing indexColumns) ?_ hbase
        ⟨usageColumns_subset hbase (hdone ▸ hmem), List.Subset.refl _⟩ ?_ fun h ↦ InitPhase.noConfusion h
      · rw [UsageDb.advance, hphase]
      · rw [hphase]
        exact hexisting
    · by_cases hc : e.1 ∈ existing
      · rw [hphase] at hbehind
        obtain ⟨hbase, hexisting, done, hdone, hmem⟩ := hbehind
        refine h.advanced_same (.altering existing rest) ?_ hbase ⟨hbase, hexisting, done ++ [e],
          by rw [← hdone, List.append_assoc]; rfl, fun d hd ↦ ?_⟩ ?_ fun h ↦ InitPhase.noConfusion h
        · rw [UsageDb.advance, hphase]
          exact if_pos hc
        · rcases List.mem_append.1 hd with hd | hd
          · exact hmem d hd
          · exact List.mem_singleton.1 hd ▸ hexisting hc
        · rw [hphase]
          exact List.Subset.refl _
      · exact h.advanced_alter hphase hc
  | indexing rest =>
    rw [hphase] at hbehind
    obtain ⟨hall, hrest⟩ := hbehind
    have hbase : baseColumns ⊆ s.columns := List.Subset.trans (List.subset_append_left ..) hall
    rcases rest with - | ⟨cs, rest⟩
    · refine h.advanced_same .ready ?_ hbase hall ?_ fun h ↦ InitPhase.noConfusion h
      · rw [UsageDb.advance, hphase]
      · rw [hphase]
        exact List.Subset.refl _
    · obtain ⟨hcs, hrest⟩ := List.cons_subset.1 hrest
      refine h.advanced_same (.indexing rest) ?_ hbase ⟨hall, hrest⟩ ?_ fun h ↦ InitPhase.noConfusion h
      · rw [UsageDb.advance, hphase]
        exact if_pos (List.Subset.trans (indexColumns_known cs hcs) hall)
      · rw [hphase]
        exact List.Subset.refl _
  | ready =>
    rw [hphase] at hbehind
    refine h.advanced_same .ready ?_ (List.Subset.trans (List.subset_append_left ..) hbehind) hbehind ?_
      fun h ↦ InitPhase.noConfusion h
    · have hsame : s = s.setPhase p .ready := by
        rw [UsageDb.setPhase, ← hphase, Function.update_eq_self]
      rw [UsageDb.advance, hphase]
      exact hsame
    · rw [hphase]
      exact List.Subset.refl _

/-- A statement of a process for which `_init` has returned, on both tables. -/
theorem Inv.execute (h : s.Inv rows) (hready : s.phase p = .ready) (statement : UsageStatement) :
    ∃ t t', s.table = some t ∧ t.execute statement = some t' ∧ s.columns = t'.columns ∧
      t'.Shows usageColumns columnDefault (statement.apply rows) := by
  have hall : usageColumns ⊆ s.columns := (congrArg (Behind s.columns) hready).mp (h.behind p)
  obtain ⟨t, ht, hcolumns⟩ := exists_table (List.Subset.trans (List.subset_append_left ..) hall)
  obtain ⟨t', hexecute, hcolumns', hshows⟩ := (h.shows t ht).execute (hcolumns ▸ hall) statement
  exact ⟨t, t', ht, hexecute, hcolumns.trans hcolumns'.symm, hshows⟩

theorem Inv.run (h : s.Inv rows) (p : ℕ) : (s.advance p).Inv rows := by
  obtain ⟨t, phase, ha⟩ := h.advance p
  rw [ha.eq]
  exact (h.setTable ha.grows ha.base ha.shows).setPhase ha.behind

/-- **The invariant is kept** by every step. -/
theorem Inv.next {r : ReferenceDb} (h : r.db.Inv r.rows) (i : UsageDbStep) : (r.next i).db.Inv (r.next i).rows := by
  cases i with
  | run p => exact h.run p
  | stop p => exact h.setPhase (show Behind r.db.columns .idle from trivial)
  | execute p statement =>
    unfold ReferenceDb.next UsageDb.next
    by_cases hready : r.db.phase p = .ready
    · obtain ⟨t, t', ht, hexecute, hcolumns, hshows⟩ := h.execute hready statement
      have hall : usageColumns ⊆ r.db.columns := (congrArg (Behind r.db.columns) hready).mp (h.behind p)
      dsimp only
      rw [if_pos hready, if_pos hready, ht, Option.map_some, hexecute, Option.getD_some]
      exact h.setTable (fun c hc ↦ hcolumns ▸ hc)
        (hcolumns ▸ List.Subset.trans (List.subset_append_left ..) hall) hshows
    · dsimp only
      rw [if_neg hready, if_neg hready]
      exact h

theorem inv_start (file : UsageFile) : file.start.Inv file.rows where
  empty h := by
    unfold UsageFile.rows
    rw [show file.table = none from h]
    rfl
  base := file.base
  shows t ht := by
    unfold UsageFile.rows
    rw [show file.table = some t from ht]
    exact shows_fill ..
  behind _ := trivial

/-- The file of the reference is the file. -/
theorem db_exec (r : ReferenceDb) (steps : List UsageDbStep) :
    (exec ReferenceDb.next r steps).db = exec UsageDb.next r.db steps := by
  induction steps generalizing r with
  | nil => rfl
  | cons i steps ih => exact ih (r.next i)

/-- **The invariant holds after every run.** -/
theorem inv_exec (file : UsageFile) (steps : List UsageDbStep) :
    (exec UsageDb.next file.start steps).Inv (file.reference steps) := by
  have hinv : (exec ReferenceDb.next ⟨file.start, file.rows⟩ steps).db.Inv (file.reference steps) :=
    exec_invariant' (fun _ (r : ReferenceDb) ↦ r.db.Inv r.rows) (inv_start file) (fun _ _ i h ↦ Inv.next h i) steps
  rwa [db_exec] at hinv

/-! ### Failures -/

/-- The columns that are still to be added, or that a process does not know of. -/
def pending (s : UsageDb) (p : ℕ) : Finset PyStr :=
  addedNames.toFinset.filter (· ∉ seen s.columns (s.phase p))

theorem card_pending_le (s : UsageDb) (p : ℕ) : (s.pending p).card ≤ addedColumns.length := by
  refine (Finset.card_filter_le _ _).trans ((List.toFinset_card_le _).trans ?_)
  rw [addedNames, List.length_map]

theorem seen_subset {phase : InitPhase} (h : Behind columns phase) : seen columns phase ⊆ columns := by
  cases phase with
  | altering existing rest => exact h.2.1
  | _ => exact List.Subset.refl _

theorem seen_mono (phase : InitPhase) (h : columns ⊆ columns') : seen columns phase ⊆ seen columns' phase := by
  cases phase with
  | altering existing rest => exact List.Subset.refl _
  | _ => exact h

theorem phase_setPhase (s : UsageDb) (p : ℕ) (phase : InitPhase) : (s.setPhase p phase).phase p = phase :=
  Function.update_self ..

theorem phase_setPhase_of_ne {q : ℕ} (h : p ≠ q) (s : UsageDb) (phase : InitPhase) :
    (s.setPhase q phase).phase p = s.phase p :=
  Function.update_of_ne h ..

/-- A process does not forget a column. -/
theorem Inv.seen_next (h : s.Inv rows) (p : ℕ) (i : UsageDbStep) :
    seen s.columns (s.phase p) ⊆ seen (s.next i).columns ((s.next i).phase p) := by
  cases i with
  | run q =>
    obtain ⟨t, phase, ha⟩ := h.advance q
    show _ ⊆ seen (s.advance q).columns ((s.advance q).phase p)
    rw [ha.eq]
    by_cases hpq : p = q
    · subst hpq
      rw [phase_setPhase]
      exact ha.seen
    · rw [phase_setPhase_of_ne hpq]
      exact seen_mono _ ha.grows
  | stop q =>
    show _ ⊆ seen (s.setPhase q .idle).columns ((s.setPhase q .idle).phase p)
    by_cases hpq : p = q
    · subst hpq
      rw [phase_setPhase]
      exact seen_subset (h.behind p)
    · rw [phase_setPhase_of_ne hpq]
      exact List.Subset.refl _
  | execute q statement =>
    unfold UsageDb.next
    by_cases hready : s.phase q = .ready
    · obtain ⟨t, t', ht, hexecute, hcolumns, -⟩ := h.execute hready statement
      dsimp only
      rw [if_pos hready, ht, Option.map_some, hexecute, Option.getD_some]
      exact seen_mono _ fun c hc ↦ (hcolumns ▸ hc : c ∈ t'.columns)
    · dsimp only
      rw [if_neg hready]
      exact List.Subset.refl _

/-- **A failure uses up a column**: the process learns of one that another process has added. -/
theorem Inv.pending_lt (h : s.Inv rows) {i : UsageDbStep} (hfails : s.fails p i = true) :
    ((s.next i).pending p).card < (s.pending p).card := by
  have hseen := h.seen_next p i
  cases i with
  | run q =>
    simp only [fails, Bool.and_eq_true, decide_eq_true_eq] at hfails
    obtain ⟨⟨rfl, -⟩, hidle⟩ := hfails
    obtain ⟨t, phase, ha⟩ := h.advance p
    rw [ha.eq, phase_setPhase] at hidle
    obtain ⟨c, hc, hmem, hnot⟩ := ha.fails hidle
    refine Finset.card_lt_card ((Finset.ssubset_iff_of_subset ?_).2 ⟨c, ?_, ?_⟩)
    · exact Finset.monotone_filter_right _ fun d _ hd hmem ↦ hd (hseen hmem)
    · exact Finset.mem_filter.2 ⟨List.mem_toFinset.2 hc, hnot⟩
    · intro hpending
      refine (Finset.mem_filter.1 hpending).2 ?_
      show c ∈ UsageDb.seen (s.advance p).columns ((s.advance p).phase p)
      rw [ha.eq, phase_setPhase, hidle]
      exact ha.grows hmem
  | stop q => exact absurd hfails Bool.false_ne_true
  | execute q statement => exact absurd hfails Bool.false_ne_true

/-- **In a run, the failures of a process are at most the columns that it has still to see.** -/
theorem Inv.failures_le {r : ReferenceDb} (h : r.db.Inv r.rows) (p : ℕ) (steps : List UsageDbStep) :
    failures p r.db steps ≤ (r.db.pending p).card := by
  induction steps generalizing r with
  | nil => exact Nat.zero_le _
  | cons i steps ih =>
    have hrest : failures p (r.db.next i) steps ≤ ((r.db.next i).pending p).card := ih (h.next i)
    unfold failures
    by_cases hfails : r.db.fails p i = true
    · have hlt := h.pending_lt hfails
      rw [if_pos hfails]
      omega
    · have hle : ((r.db.next i).pending p).card ≤ (r.db.pending p).card :=
        Finset.card_le_card (Finset.monotone_filter_right _ fun d _ hd hmem ↦ hd (h.seen_next p i hmem))
      rw [if_neg hfails]
      omega

/-! ### A process that is not interfered with -/

/-- A column that is not there, or that the process has taken to be there. -/
theorem advance_altering {existing : List PyStr} {e : PyStr × SqlValue} {rest : List (PyStr × SqlValue)}
    (h : s.Inv rows) (hphase : s.phase p = .altering existing (e :: rest)) (hknown : e.1 ∈ s.columns → e.1 ∈ existing) :
    (s.advance p).phase p = .altering existing rest ∧ (s.advance p).columns ⊆ e.1 :: s.columns := by
  have hbehind := h.behind p
  rw [hphase] at hbehind
  obtain ⟨t, ht, hcolumns⟩ := exists_table hbehind.1
  rw [UsageDb.advance, hphase]
  dsimp only
  by_cases hc : e.1 ∈ existing
  · rw [if_pos hc]
    exact ⟨phase_setPhase .., List.subset_cons_self ..⟩
  · rw [if_neg hc, alterTable, ht, Option.bind_some]
    cases hadd : t.addColumn e.1 e.2 with
    | none => exact absurd (hknown (hcolumns ▸ addColumn_eq_none_iff.1 hadd)) hc
    | some t' =>
      refine ⟨phase_setPhase .., ?_⟩
      show t'.columns ⊆ _
      rw [(columns_addColumn hadd).2, hcolumns]
      exact List.append_subset.2 ⟨List.subset_cons_self .., fun c hc ↦ List.mem_singleton.1 hc ▸ List.mem_cons_self ..⟩

/-- All columns, one after the other. -/
theorem exec_altering {existing : List PyStr} {rest : List (PyStr × SqlValue)} (h : s.Inv rows)
    (hphase : s.phase p = .altering existing rest) (hnodup : (rest.map Prod.fst).Nodup)
    (hknown : ∀ e ∈ rest, e.1 ∈ s.columns → e.1 ∈ existing) :
    (exec UsageDb.next s (List.replicate rest.length (.run p))).phase p = .altering existing [] ∧
      (exec UsageDb.next s (List.replicate rest.length (.run p))).Inv rows := by
  induction rest generalizing s with
  | nil => exact ⟨hphase, h⟩
  | cons e rest ih =>
    obtain ⟨he, hrest⟩ := List.forall_mem_cons.1 hknown
    obtain ⟨hne, hnodup⟩ := List.nodup_cons.1 hnodup
    obtain ⟨hphase', hcolumns⟩ := advance_altering h hphase he
    refine ih (h.run p) hphase' hnodup fun d hd hmem ↦ ?_
    rcases List.mem_cons.1 (hcolumns hmem) with heq | hmem
    · exact absurd (heq ▸ List.mem_map_of_mem hd) hne
    · exact hrest d hd hmem

/-- All indexes, one after the other. -/
theorem exec_indexing {rest : List (List PyStr)} (h : s.Inv rows) (hphase : s.phase p = .indexing rest) :
    (exec UsageDb.next s (List.replicate rest.length (.run p))).phase p = .indexing [] := by
  induction rest generalizing s with
  | nil => exact hphase
  | cons cs rest ih =>
    have hbehind := h.behind p
    rw [hphase] at hbehind
    obtain ⟨hcs, -⟩ := List.cons_subset.1 hbehind.2
    have hadvance : s.advance p = s.setPhase p (.indexing rest) := by
      rw [UsageDb.advance, hphase]
      exact if_pos (List.Subset.trans (indexColumns_known cs hcs) hbehind.1)
    refine ih (h.run p) ?_
    show (s.advance p).phase p = _
    rw [hadvance, phase_setPhase]

/-- **`_init` succeeds in a process that is not interfered with**, whatever has happened before. -/
theorem Inv.completes (h : s.Inv rows) (hphase : s.phase p = .idle) :
    (exec UsageDb.next s (List.replicate 18 (.run p))).phase p = .ready := by
  have hcreated : (s.advance p).phase p = .created := by
    rw [UsageDb.advance, hphase]
    exact phase_setPhase ..
  have hadvance : (s.advance p).advance p =
      (s.advance p).setPhase p (.altering (s.advance p).columns addedColumns) := by
    rw [UsageDb.advance, hcreated]
  have haltering : ((s.advance p).advance p).phase p = .altering (s.advance p).columns addedColumns := by
    rw [hadvance, phase_setPhase]
  have hcolumns : ((s.advance p).advance p).columns = (s.advance p).columns := by
    rw [hadvance]
    rfl
  obtain ⟨haltered, hinv⟩ := exec_altering ((h.run p).run p) haltering addedNames_nodup fun _ _ hmem ↦ hcolumns ▸ hmem
  have hindexing : ((exec UsageDb.next ((s.advance p).advance p)
      (List.replicate addedColumns.length (.run p))).advance p).phase p = .indexing indexColumns := by
    rw [UsageDb.advance, haltered]
    exact phase_setPhase ..
  have hindexed := exec_indexing (hinv.run p) hindexing
  -- two statements, the columns, one step to the indexes, the indexes, and the return
  have hrun : exec UsageDb.next s (List.replicate 18 (.run p)) =
      (exec UsageDb.next ((exec UsageDb.next ((s.advance p).advance p)
        (List.replicate addedColumns.length (.run p))).advance p)
          (List.replicate indexColumns.length (.run p))).advance p := rfl
  rw [hrun, UsageDb.advance, hindexed]
  exact phase_setPhase ..

end UsageDb

/-- **As if the columns had always been there.** Whatever file of an earlier version the processes find, or none: in
every run of any number of processes, in which `_init` is interleaved statement by statement and cut short anywhere,
no statement of a process for which it has returned fails for a missing column, and such a process sees the rows of a
table that has had all columns from the start. `_init` itself fails when another process adds a column first, but in
no process more often than there are columns, and a call that is not interfered with succeeds. -/
theorem usageInit_sound (file : UsageFile) (steps : List UsageDbStep) : file.Sound steps where
  served := by
    refine every_of_invariant (P := fun _ _ _ ↦ True) (fun _ s ↦ ∃ rows, s.Inv rows) ⟨_, UsageDb.inv_start file⟩ ?_ ?_
      fun _ _ _ _ ↦ trivial
    · rintro - s i ⟨rows, h⟩ -
      exact ⟨_, UsageDb.Inv.next (r := ⟨s, rows⟩) h i⟩
    · rintro - s i ⟨rows, h⟩ -
      cases i with
      | execute p statement =>
        intro hready
        obtain ⟨t, t', ht, hexecute, -, -⟩ := h.execute hready statement
        exact ⟨t, t', ht, hexecute⟩
      | run p => exact trivial
      | stop p => exact trivial
  reads p hready := by
    have hinv := UsageDb.inv_exec file steps
    have hall : usageColumns ⊆ (exec UsageDb.next file.start steps).columns :=
      (congrArg (UsageDb.Behind _) hready).mp (hinv.behind p)
    obtain ⟨t, ht, hcolumns⟩ := UsageDb.exists_table (List.Subset.trans (List.subset_append_left ..) hall)
    exact ⟨t, ht, (hinv.shows t ht).agree.mono fun c hc ↦ ⟨hc, hcolumns ▸ hall hc⟩⟩
  failures p := (UsageDb.Inv.failures_le (r := ⟨file.start, file.rows⟩) (UsageDb.inv_start file) p steps).trans
    (UsageDb.card_pending_le _ p)
  completes p hidle := by
    rw [exec_append]
    exact (UsageDb.inv_exec file steps).completes hidle

end LocalGateway
