import LocalGateway.Ledger.Trace

/-!
# The log table

The rows of `logs` in the order in which they were written. Their ids ascend and are never given twice: SQLite keeps the
last one, also when rows are deleted.

* `LogStore`: the table, with that invariant.
* `LogStore.keepNewest`: the second `DELETE` of `enforce_retention`; `rows_keepNewest` says that the oldest rows go.
* `getLogs_isPrefix`, `getLogs_eq`: what a query answers when the oldest rows are gone.
-/

namespace LocalGateway

open Py

/-- The table `logs`, and the last id that was given. -/
structure LogStore where
  rows : List LogRow
  lastId : ℤ
  ascending : rows.Pairwise fun a b ↦ a.id < b.id
  bounded : ∀ row ∈ rows, row.id ≤ lastId

namespace LogStore

/-- The table when it is created. -/
def empty : LogStore where
  rows := []
  lastId := 0
  ascending := .nil
  bounded _ h := nomatch h

/-- The `INSERT` of a call of `log`. -/
def insert (lib : TextLib) (s : LogStore) (call : LogCall) : LogStore where
  rows := s.rows ++ [call.row lib (s.lastId + 1)]
  lastId := s.lastId + 1
  ascending := List.pairwise_append.2 ⟨s.ascending, List.pairwise_singleton _ _, fun a ha b hb ↦ by
    rw [List.mem_singleton.1 hb]
    exact Int.lt_add_one_of_le (s.bounded a ha)⟩
  bounded row hrow := by
    rcases List.mem_append.1 hrow with h | h
    · exact (s.bounded row h).trans (Int.le_add_one le_rfl)
    · rw [List.mem_singleton.1 h]
      exact le_rfl

/-- An `UPDATE` that leaves the ids alone. -/
def update (s : LogStore) (f : LogRow → LogRow) (hf : ∀ row, (f row).id = row.id) : LogStore where
  rows := s.rows.map f
  lastId := s.lastId
  ascending := List.pairwise_map.2 (s.ascending.imp fun h ↦ by rwa [hf, hf])
  bounded row hrow := by
    obtain ⟨r, hr, rfl⟩ := List.mem_map.1 hrow
    rw [hf]
    exact s.bounded r hr

/-- A `DELETE`: the rows with the property are kept. -/
def keep (s : LogStore) (p : LogRow → Bool) : LogStore where
  rows := s.rows.filter p
  lastId := s.lastId
  ascending := s.ascending.filter p
  bounded row hrow := s.bounded row (List.mem_of_mem_filter hrow)

/-- `SELECT id FROM logs ORDER BY id DESC LIMIT n`. -/
def newestIds (s : LogStore) (n : ℤ) : List ℤ :=
  (limited n (s.rows.mergeSort fun a b ↦ b.id ≤ a.id)).map LogRow.id

/-- The second `DELETE` of `enforce_retention`. -/
def keepNewest (s : LogStore) (n : ℤ) : LogStore :=
  s.keep fun row ↦ row.id ∈ s.newestIds n

/-- `clear_logs`. -/
def clear (s : LogStore) : LogStore :=
  s.keep fun _ ↦ false

end LogStore

/-! ### The order of the rows -/

/-- `ORDER BY id DESC`, for ids that ascend. -/
theorem mergeSort_eq_reverse {rows : List LogRow} (h : rows.Pairwise fun a b ↦ a.id < b.id) :
    rows.mergeSort (fun a b ↦ b.id ≤ a.id) = rows.reverse := by
  have hdesc : rows.reverse.Pairwise fun a b ↦ b.id < a.id := List.pairwise_reverse.2 h
  have hsorted : (rows.mergeSort fun a b ↦ b.id ≤ a.id).Pairwise fun a b ↦ decide (b.id ≤ a.id) = true :=
    List.pairwise_mergeSort
    (fun a b c hab hbc ↦ decide_eq_true ((of_decide_eq_true hbc).trans (of_decide_eq_true hab)))
    (fun a b ↦ by simpa using le_total b.id a.id) rows
  refine List.Perm.eq_of_pairwise (fun a b ha hb hab hba ↦ ?_) hsorted (hdesc.imp fun hlt ↦ decide_eq_true hlt.le)
    ((List.mergeSort_perm _ _).trans (List.reverse_perm rows).symm)
  -- two rows with one id are one row
  have hid : a.id = b.id := le_antisymm (of_decide_eq_true hba) (of_decide_eq_true hab)
  have hnodup : (rows.map LogRow.id).Nodup := List.pairwise_map.2 (h.imp fun hlt ↦ hlt.ne)
  exact List.inj_on_of_nodup_map hnodup ((List.mergeSort_perm _ _).subset ha) (List.mem_reverse.1 hb) hid

/-- The rows with the newest ids are the last ones. -/
theorem LogStore.rows_keepNewest (s : LogStore) {n : ℤ} (hn : 0 ≤ n) :
    (s.keepNewest n).rows = s.rows.drop (s.rows.length - n.toNat) := by
  have hids : s.newestIds n = ((s.rows.drop (s.rows.length - n.toNat)).map LogRow.id).reverse := by
    rw [newestIds, limited, if_neg (not_lt.2 hn), mergeSort_eq_reverse s.ascending, List.take_reverse, List.map_reverse]
  obtain ⟨old, new, hrows, hnew⟩ : ∃ old new, s.rows = old ++ new ∧ s.rows.drop (s.rows.length - n.toNat) = new :=
    ⟨_, _, (List.take_append_drop _ s.rows).symm, rfl⟩
  have hlt := (List.pairwise_append.1 (hrows ▸ s.ascending)).2.2
  -- an old row has another id than the new ones
  have hold : old.filter (fun row ↦ decide (row.id ∈ s.newestIds n)) = [] := by
    rw [List.filter_eq_nil_iff]
    intro row hrow hmem
    obtain ⟨other, hother, hid⟩ := by simpa [hids, hnew] using hmem
    exact (hlt row hrow other hother).ne hid.symm
  have hkept : new.filter (fun row ↦ decide (row.id ∈ s.newestIds n)) = new := by
    rw [List.filter_eq_self]
    intro row hrow
    simpa [hids, hnew] using ⟨row, hrow, rfl⟩
  have hkeep : (s.keepNewest n).rows = s.rows.filter fun row ↦ decide (row.id ∈ s.newestIds n) := rfl
  rw [hnew, hkeep, hrows, List.filter_append, hold, hkept, List.nil_append]

/-! ### Queries -/

theorem limited_isPrefix {rows rows' : List LogRow} (h : rows <+: rows') (limit : ℤ) :
    limited limit rows <+: limited limit rows' := by
  rw [limited, limited]
  split_ifs
  · exact h
  · exact h.take _

/-- The answer is of the rows that are selected, the last first. -/
theorem getLogs_eq_reverse (lib : TextLib) {rows : List LogRow} (h : rows.Pairwise fun a b ↦ a.id < b.id)
    (q : LogQuery) : getLogs lib rows q =
      (limited q.limit (rows.filter (q.selects lib)).reverse).map (LogRow.view lib) := by
  rw [getLogs, mergeSort_eq_reverse (h.filter _)]

section Tail

variable {s t : LogStore} (h : s.rows <:+ t.rows)

include h

/-- **Where the oldest rows are gone**, an answer may end sooner, and that is all. -/
theorem getLogs_isPrefix (lib : TextLib) (q : LogQuery) : getLogs lib s.rows q <+: getLogs lib t.rows q := by
  rw [getLogs_eq_reverse lib s.ascending, getLogs_eq_reverse lib t.ascending]
  exact (limited_isPrefix (List.reverse_prefix.2 (h.filter _)) q.limit).map _

/-- **A query without filters** has its whole answer if enough rows are left. -/
theorem getLogs_eq (lib : TextLib) {q : LogQuery} (hlevel : q.level.getD [] = []) (hsearch : q.search.getD [] = [])
    (hid : q.requestId.getD [] = []) (hlimit : 0 ≤ q.limit)
    (hlength : min q.limit.toNat t.rows.length ≤ s.rows.length) :
    getLogs lib s.rows q = getLogs lib t.rows q := by
  have hselects : ∀ row, q.selects lib row = q.sinceId.all (· < row.id) := fun row ↦ by
    simp [LogQuery.selects, hlevel, hsearch, hid]
  refine (getLogs_isPrefix h lib q).eq_of_length ?_
  rw [getLogs_eq_reverse lib s.ascending, getLogs_eq_reverse lib t.ascending, limited, limited, if_neg (not_lt.2 hlimit),
    if_neg (not_lt.2 hlimit), List.length_map, List.length_map, List.length_take, List.length_take, List.length_reverse,
    List.length_reverse]
  obtain ⟨old, hold⟩ := h
  rw [← hold, List.length_append] at hlength
  rw [← hold, List.filter_append, List.length_append]
  by_cases hnone : old.filter (q.selects lib) = []
  · rw [hnone, List.length_nil, Nat.zero_add]
  · -- a row that is gone is selected, and so are all that are left
    obtain ⟨gone, hgone, hsel⟩ := by simpa [List.filter_eq_nil_iff] using hnone
    have hlt := (List.pairwise_append.1 (hold ▸ t.ascending)).2.2
    have hall : s.rows.filter (q.selects lib) = s.rows := by
      rw [List.filter_eq_self]
      intro row hrow
      rw [hselects] at hsel ⊢
      rcases hsince : q.sinceId with - | id
      · rfl
      · rw [hsince, Option.all_some, decide_eq_true_eq] at hsel
        rw [Option.all_some, decide_eq_true_eq]
        exact hsel.trans (hlt gone hgone row hrow)
    have hpos : 0 < old.length := List.length_pos_of_mem hgone
    rw [hall]
    omega

end Tail

end LocalGateway
