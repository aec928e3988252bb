import LocalGateway.Foundations.Csv
import LocalGateway.Foundations.StableSort
import LocalGateway.Ledger.Reports

/-!
# The usage download

`export_rows` of `usage.py` and `usage_export` of `endpoints/admin.py`: the rows of a window, newest first, as JSON or as
comma-separated records.

* `usageExport_lossless`: the records are read back as the rows of the JSON answer, and no two rows are written alike
  unless they differ in a null for an empty text at most.
-/

namespace LocalGateway

open Py Json

/-- A row of `usage`. -/
structure UsageRecord extends StoredUsage where
  error : Option PyStr
  tps : Option ℚ
  stream : Option ℤ
  requestId : Option PyStr
  cacheHit : Option ℤ
deriving DecidableEq

/-- A value of a column. -/
inductive SqlValue
  | null
  | integer (n : ℤ)
  | real (q : ℚ)
  | text (s : PyStr)
deriving DecidableEq

namespace SqlValue

/-- A value as `JSONResponse` writes it. -/
def json : SqlValue → Json
  | .null => .null
  | .integer n => .int n
  | .real q => .float (.fin q)
  | .text s => .str s

/-- A value as `csv.writer` writes it. -/
def cell (r : FloatRepr) : SqlValue → PyStr
  | .null => []
  | .integer n => intRepr n
  | .real q => r.repr q
  | .text s => s

/-- An `INTEGER` column. -/
def ofInt (n : Option ℤ) : SqlValue :=
  n.elim .null .integer

/-- A `REAL` column. -/
def ofReal (q : Option ℚ) : SqlValue :=
  q.elim .null .real

/-- A `TEXT` column. -/
def ofText (s : Option PyStr) : SqlValue :=
  s.elim .null .text

/-- An empty text taken for a null. -/
def blank (v : SqlValue) : SqlValue :=
  if v = .text [] then .null else v

end SqlValue

/-- `EXPORT_COLUMNS`. -/
def exportColumns : List PyStr :=
  [py "ts", py "logical_model", py "provider", py "backend_model", py "success", py "error", py "input_tokens",
    py "output_tokens", py "reasoning_tokens", py "cached_tokens", py "cache_write_tokens", py "cost", py "latency_ms",
    py "ttft_ms", py "tps", py "stream", py "is_probe", py "api_key_id", py "end_user", py "request_id",
    py "cache_hit"]

/-- The values of the exported columns. -/
def UsageRecord.values (row : UsageRecord) : List SqlValue :=
  [.real row.ts, .text row.logicalModel, .text row.provider, .text row.backendModel,
    .integer (if row.success then 1 else 0), .ofText row.error, .ofInt row.inputTokens, .ofInt row.outputTokens,
    .ofInt row.reasoningTokens, .ofInt row.cachedTokens, .ofInt row.cacheWriteTokens, .ofReal row.cost,
    .ofInt row.latencyMs, .ofInt row.ttftMs, .ofReal row.tps, .ofInt row.stream, .ofInt row.isProbe,
    .ofText row.apiKeyId, .ofText row.endUser, .ofText row.requestId, .ofInt row.cacheHit]

/-- `{c: r[c] for c in EXPORT_COLUMNS}`. -/
def UsageRecord.exported (row : UsageRecord) : List (PyStr × SqlValue) :=
  exportColumns.zip row.values

/-- The rows that `export_rows` selects. -/
def UsageRecord.inWindow (now : ℚ) (hours : ℤ) (includeProbes : Bool) (row : UsageRecord) : Bool :=
  now - hours * 3600 ≤ row.ts && (includeProbes || row.counted)

/-- The query of `export_rows`. -/
def selectExport (table : List UsageRecord) (now : ℚ) (hours : ℤ) (includeProbes : Bool) : List UsageRecord :=
  (table.filter (UsageRecord.inWindow now hours includeProbes)).insertionSort fun a b ↦ b.ts ≤ a.ts

/-- `export_rows`. -/
def exportRows (table : List UsageRecord) (now : ℚ) (hours : ℤ) (includeProbes : Bool) :
    List (List (PyStr × SqlValue)) :=
  (selectExport table now hours includeProbes).map UsageRecord.exported

/-- What `usage_export` answers. -/
inductive ExportAnswer
  | csv (content filename : PyStr)
  | json (body : Json)

/-- A row as `DictWriter` writes it: the columns in their order, and nothing for a column that is missing. -/
def csvRecord (r : FloatRepr) (row : List (PyStr × SqlValue)) : List PyStr :=
  exportColumns.map fun c ↦ ((row.lookup c).getD (.text [])).cell r

/-- What the `csv.DictWriter` has written. -/
def csvContent (r : FloatRepr) (rows : List (List (PyStr × SqlValue))) : PyStr :=
  Csv.writeRow .excel exportColumns ++ rows.flatMap fun row ↦ Csv.writeRow .excel (csvRecord r row)

/-- The JSON answer. -/
def exportBody (hours : ℤ) (rows : List (List (PyStr × SqlValue))) : Json :=
  .obj [(py "hours", .int hours), (py "count", .int rows.length),
    (py "rows", .arr (rows.map fun row ↦ .obj (row.map fun e ↦ (e.1, e.2.json))))]

/-- `usage_export`. -/
def usageExportOf (r : FloatRepr) (table : List UsageRecord) (now : ℚ) (hours : ℤ) (format : PyStr)
    (includeProbes : Bool) : ExportAnswer :=
  let hours := max 1 (min hours (24 * 365))
  let rows := exportRows table now hours includeProbes
  if format = py "csv" then .csv (csvContent r rows) (py "localgateway-usage-" ++ intRepr hours ++ py "h.csv")
  else .json (exportBody hours rows)

/-! ### Records and rows -/

theorem exportColumns_nodup : exportColumns.Nodup := by
  simp (disch := rfl) only [exportColumns, py_eq]
  decide +kernel

theorem length_values (row : UsageRecord) : row.values.length = exportColumns.length := rfl

/-- Looking the columns up gives the values in their order. -/
theorem map_lookup_zip {α β : Type} [DecidableEq α] {keys : List α} (h : keys.Nodup) {values : List β}
    (hlength : values.length = keys.length) (f : Option β → β) (hf : ∀ v, f (some v) = v) :
    (keys.map fun k ↦ f ((keys.zip values).lookup k)) = values := by
  induction keys generalizing values with
  | nil => rw [List.length_eq_zero_iff.1 hlength, List.map_nil]
  | cons k keys ih =>
    obtain ⟨hk, hkeys⟩ := List.nodup_cons.1 h
    rcases values with - | ⟨v, values⟩
    · cases hlength
    · rw [List.zip_cons_cons, List.map_cons, List.lookup_cons_self, hf]
      refine congrArg (v :: ·) (Eq.trans (List.map_congr_left fun l hl ↦ ?_)
        (ih hkeys (Nat.succ.inj hlength)))
      have hne : (l == k) = false := by
        rw [beq_eq_false_iff_ne]
        rintro rfl
        exact hk hl
      rw [List.lookup_cons, hne]

/-- **A row is written as the values of its columns.** -/
theorem csvRecord_exported (r : FloatRepr) (row : UsageRecord) :
    csvRecord r row.exported = row.values.map (SqlValue.cell r) := by
  have hvalues := map_lookup_zip exportColumns_nodup (length_values row) (fun v ↦ v.getD (.text [])) fun _ ↦ rfl
  have hmap := congrArg (List.map (SqlValue.cell r)) hvalues
  rwa [List.map_map] at hmap

/-- The records of a download. -/
theorem read_csvContent (r : FloatRepr) (rows : List (List (PyStr × SqlValue))) :
    Csv.read .excel (csvContent r rows) = exportColumns :: rows.map (csvRecord r) := by
  have hall : csvContent r rows = (exportColumns :: rows.map (csvRecord r)).flatMap (Csv.writeRow .excel) := by
    rw [csvContent, List.flatMap_cons, List.flatMap_map]
  rw [hall, Csv.read_writeRows]

/-! ### Values and their texts -/

/-- Two values of one column. -/
inductive SameColumn : SqlValue → SqlValue → Prop
  | integer (m n : Option ℤ) : SameColumn (.ofInt m) (.ofInt n)
  | real (p q : Option ℚ) : SameColumn (.ofReal p) (.ofReal q)
  | text (s t : Option PyStr) : SameColumn (.ofText s) (.ofText t)

/-- **The text of a value tells it** from the other values of its column, but for an empty text and a null. -/
theorem cell_eq_iff (r : FloatRepr) {u v : SqlValue} (h : SameColumn u v) :
    u.cell r = v.cell r ↔ u.blank = v.blank := by
  have hint : ∀ n, intRepr n ≠ [] := fun n h ↦ by
    rcases n with n | n
    · exact natRepr_ne_nil n h
    · cases h
  have hreal : ∀ q, r.repr q ≠ [] := fun q h ↦ by
    rcases r.marked q with hmark | hmark <;> rw [h] at hmark <;> cases hmark
  cases h with
  | integer m n =>
    rcases m with - | m <;> rcases n with - | n
    · exact iff_of_true rfl rfl
    · exact iff_of_false (hint n).symm (by simp [SqlValue.blank, SqlValue.ofInt])
    · exact iff_of_false (hint m) (by simp [SqlValue.blank, SqlValue.ofInt])
    · simpa [SqlValue.blank, SqlValue.ofInt, SqlValue.cell] using intRepr_injective.eq_iff
  | real p q =>
    rcases p with - | p <;> rcases q with - | q
    · exact iff_of_true rfl rfl
    · exact iff_of_false (hreal q).symm (by simp [SqlValue.blank, SqlValue.ofReal])
    · exact iff_of_false (hreal p) (by simp [SqlValue.blank, SqlValue.ofReal])
    · simpa [SqlValue.blank, SqlValue.ofReal, SqlValue.cell] using r.inj.eq_iff
  | text s t =>
    rcases s with - | - | ⟨c, s⟩ <;> rcases t with - | - | ⟨e, t⟩ <;>
      simp [SqlValue.blank, SqlValue.ofText, SqlValue.cell]

/-- The columns of two rows. -/
theorem sameColumn_values (a b : UsageRecord) : List.Forall₂ SameColumn a.values b.values :=
  .cons (.real (some _) (some _)) <| .cons (.text (some _) (some _)) <| .cons (.text (some _) (some _)) <|
  .cons (.text (some _) (some _)) <| .cons (.integer (some _) (some _)) <| .cons (.text _ _) <|
  .cons (.integer _ _) <| .cons (.integer _ _) <| .cons (.integer _ _) <| .cons (.integer _ _) <|
  .cons (.integer _ _) <| .cons (.real _ _) <| .cons (.integer _ _) <| .cons (.integer _ _) <|
  .cons (.real _ _) <| .cons (.integer _ _) <| .cons (.integer _ _) <| .cons (.text _ _) <|
  .cons (.text _ _) <| .cons (.text _ _) <| .cons (.integer _ _) <| .nil

/-- Rows of texts. -/
theorem map_cell_eq_iff (r : FloatRepr) {us vs : List SqlValue} (h : List.Forall₂ SameColumn us vs) :
    us.map (SqlValue.cell r) = vs.map (SqlValue.cell r) ↔ us.map SqlValue.blank = vs.map SqlValue.blank := by
  induction h with
  | nil => exact iff_of_true rfl rfl
  | cons hhead _ ih =>
    rw [List.map_cons, List.map_cons, List.map_cons, List.map_cons, List.cons.injEq, List.cons.injEq,
      cell_eq_iff r hhead, ih]

/-! ### The download -/

/-- **The usage download.** Both formats hold the same rows: those of the table in the window, each as often as it is
there and the newest first, without the probes unless they are asked for. The records of the CSV text are the column
names and then, row by row, the texts of the values that the JSON answer has, whatever characters they hold; and no two
rows come to the same record unless their values are the same up to nulls for empty texts. -/
theorem usageExport_lossless (r : FloatRepr) (table : List UsageRecord) (now : ℚ) (hours : ℤ) (includeProbes : Bool) :
    let limit := max 1 (min hours 8760)
    let rows := selectExport table now limit includeProbes
    rows.Perm (table.filter (UsageRecord.inWindow now limit includeProbes)) ∧
      rows.Pairwise (fun a b ↦ b.ts ≤ a.ts) ∧
      (∃ content filename, usageExportOf r table now hours (py "csv") includeProbes = .csv content filename ∧
        Csv.read .excel content = exportColumns :: rows.map fun row ↦ row.values.map (SqlValue.cell r)) ∧
      (∀ format ≠ py "csv", usageExportOf r table now hours format includeProbes =
        .json (.obj [(py "hours", .int limit), (py "count", .int rows.length),
          (py "rows", .arr (rows.map fun row ↦ .obj (exportColumns.zip (row.values.map SqlValue.json))))])) ∧
      ∀ a b : UsageRecord, a.values.map (SqlValue.cell r) = b.values.map (SqlValue.cell r) ↔
        a.values.map SqlValue.blank = b.values.map SqlValue.blank := by
  intro limit rows
  refine ⟨List.perm_insertionSort _ _, ?_, ?_, fun format hformat ↦ ?_, fun a b ↦ ?_⟩
  · have hrank (a b : UsageRecord) : b.ts ≤ a.ts ↔ -a.ts ≤ -b.ts := neg_le_neg_iff.symm
    have hsorted := StableSort.pairwise_rank_insertionSort hrank
      (table.filter (UsageRecord.inWindow now limit includeProbes))
    exact hsorted.imp fun h ↦ neg_le_neg_iff.1 h
  · have hcsv : usageExportOf r table now hours (py "csv") includeProbes =
        .csv (csvContent r (exportRows table now limit includeProbes))
          (py "localgateway-usage-" ++ intRepr limit ++ py "h.csv") := by
      rw [usageExportOf, if_pos rfl]
      rfl
    refine ⟨_, _, hcsv, ?_⟩
    rw [read_csvContent, exportRows, List.map_map]
    exact congrArg _ (List.map_congr_left fun row _ ↦ csvRecord_exported r row)
  · have hrow : ∀ row : UsageRecord, row.exported.map (fun e ↦ (e.1, e.2.json)) =
        exportColumns.zip (row.values.map SqlValue.json) := fun row ↦ by
      rw [List.zip_map_right]
      rfl
    rw [usageExportOf, if_neg hformat, exportBody, exportRows, List.length_map, List.map_map]
    simp only [Function.comp_def, hrow]
    rfl
  · exact map_cell_eq_iff r (sameColumn_values a b)

end LocalGateway
