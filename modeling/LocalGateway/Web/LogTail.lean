import LocalGateway.Foundations.LogWindow
import LocalGateway.Foundations.Runs
import LocalGateway.Ledger.Retention

/-!
# The page of the logs

`logs.js`: the page asks for the newest lines once, and then again and again for those that are newer than the newest
line it has. Lines are written meanwhile and erased, and a request and its answer take their time.

* `renderLogs`, `trackNewest`: what the page does with an answer.
* `next`: the page, its requests and the log table, step by step.
* `logTail_exec`: while a request is answered before the next one is sent, the page shows no line twice and the newest
  first; and it leaves none out as long as no answer is too long and nothing is erased before it was asked for.
-/

namespace LocalGateway

namespace LogTail

open Py LogWindow Runs

/-! ### The page -/

/-- What is in the input fields. -/
structure LogFilter where
  level : PyStr
  search : PyStr
  requestId : PyStr
deriving DecidableEq

/-- A parameter is left out if its field is empty. -/
def param (value : PyStr) : Option PyStr :=
  if value = [] then none else some value

/-- What `loadLogs` asks for. -/
def LogFilter.query (f : LogFilter) (since : Option ℤ) : LogQuery :=
  ⟨200, param f.level, param f.search, since, param f.requestId⟩

/-- The line is one that the filters let through. -/
def LogFilter.shows (lib : TextLib) (f : LogFilter) (row : LogRow) : Bool :=
  (f.query none).selects lib row

/-- `_trackNewest`. -/
def trackNewest (newest : Option ℤ) (logs : List LogRow) : Option ℤ :=
  logs.foldl (fun newest l ↦ if newest.all (· < l.id) then some l.id else newest) newest

/-- `_renderLogs`, on the children of the list; `none` is the line that there are no entries. -/
def renderLogs (children : List (Option LogRow)) (logs : List LogRow) (incremental : Bool) : List (Option LogRow) :=
  if logs = [] then (if incremental then children else [none])
  else (if incremental then logs.map some ++ children else logs.map some).take 250

/-- A call of `loadLogs` that waits. -/
structure LogRequest where
  incremental : Bool
  filter : LogFilter
  since : Option ℤ
  /-- What the server has answered. -/
  answer : Option (List LogRow)

end LogTail

open LogTail in
/-- The page, with the table it is about. -/
structure LogTail where
  store : LogStore
  /-- Every line that has ever been written. -/
  written : LogStore
  /-- `_newestLogId`. -/
  newest : Option ℤ
  /-- The children of the list. -/
  children : List (Option LogRow)
  requests : List LogRequest

namespace LogTail

open Py LogWindow Runs

/-- What happens. -/
inductive TailStep
  /-- A line is written. -/
  | log (call : LogCall)
  /-- A pass of `enforce_retention`. -/
  | retain (logLines : Option ℤ)
  | clear
  /-- `loadLogs({ incremental: true })`. -/
  | poll (f : LogFilter)
  /-- `_newestLogId = null; loadLogs()`. -/
  | reload (f : LogFilter)
  /-- The server answers a request. -/
  | serve (j : ℕ)
  /-- The page has the answer. -/
  | receive (j : ℕ)
  /-- The request fails. -/
  | fail (j : ℕ)

/-- What the server answers to a request. -/
def LogRequest.served (lib : TextLib) (store : LogStore) (r : LogRequest) : LogRequest :=
  { r with answer := some ((getLogs lib store.rows (r.filter.query r.since)).map LogView.row) }

/-- What a step does. -/
def next (lib : TextLib) (s : LogTail) : TailStep → LogTail
  | .log call => { s with store := s.store.insert lib call, written := s.written.insert lib call }
  | .retain logLines => { s with store := (effective logLines).elim s.store s.store.keepNewest }
  | .clear => { s with store := s.store.clear }
  | .poll f => { s with requests := s.requests ++ [⟨true, f, s.newest, none⟩] }
  | .reload f => { s with newest := none, requests := s.requests ++ [⟨false, f, none, none⟩] }
  | .serve j => { s with requests := s.requests.modify j (LogRequest.served lib s.store) }
  | .fail j => { s with requests := s.requests.eraseIdx j }
  | .receive j =>
    match s.requests[j]? with
    | some ⟨incremental, _, _, some rows⟩ =>
      { s with
        newest := trackNewest s.newest rows
        children := renderLogs s.children rows incremental
        requests := s.requests.eraseIdx j }
    | _ => s

/-- A page that is opened. -/
def opened (store : LogStore) : LogTail :=
  ⟨store, store, none, [], []⟩

/-- The lines that are shown. -/
def shown (s : LogTail) : List LogRow :=
  s.children.reduceOption

/-- The filters with which the whole list is asked for. -/
def TailStep.reloaded : TailStep → Option LogFilter
  | .reload f => some f
  | _ => none

/-- The filters with which the whole list was last asked for. -/
def listFilter (past : List TailStep) : Option LogFilter :=
  (past.filterMap TailStep.reloaded).getLast?

/-- A request is sent when there is none, and if one fails that is for the whole list, then nothing is shown. -/
def Orderly (s : LogTail) : TailStep → Prop
  | .poll _ | .reload _ => s.requests = []
  | .fail j => ∀ r ∈ s.requests[j]?, r.incremental = false → s.shown = []
  | _ => True

/-- A poll is for the filters of the list, and when it is answered, everything it asks for is there and at most two
hundred lines of it pass the filters. -/
def Unhurried (lib : TextLib) (past : List TailStep) (s : LogTail) : TailStep → Prop
  | .poll f => listFilter past = some f
  | .serve j => ∀ r ∈ s.requests[j]?, r.incremental = true →
      (∀ row ∈ s.written.rows, r.since.all (· < row.id) = true → row ∈ s.store.rows) ∧
        (s.store.rows.filter ((r.filter.query r.since).selects lib)).length ≤ 200
  | _ => True

/-! ### Ids and bounds -/

/-- The rank of a line is its id. -/
def rank (row : LogRow) : WithBot ℤ :=
  row.id

/-- Null is before every id. -/
def bound (newest : Option ℤ) : WithBot ℤ :=
  newest

theorem bound_lt_iff {newest : Option ℤ} {row : LogRow} :
    bound newest < rank row ↔ newest.all (· < row.id) = true := by
  rcases newest with - | n
  · exact iff_of_true (WithBot.bot_lt_coe row.id) rfl
  · rw [Option.all_some, decide_eq_true_eq]
    exact WithBot.coe_lt_coe

/-- The greatest of the ids. -/
theorem bound_trackNewest (newest : Option ℤ) (logs : List LogRow) :
    bound (trackNewest newest logs) = logs.foldl (fun b l ↦ max b (rank l)) (bound newest) := by
  induction logs generalizing newest with
  | nil => rfl
  | cons l logs ih =>
    have hstep : bound (if newest.all (· < l.id) then some l.id else newest) = max (bound newest) (rank l) := by
      split_ifs with h
      · exact (max_eq_right (bound_lt_iff.2 h).le).symm
      · exact (max_eq_left (not_lt.1 fun hlt ↦ h (bound_lt_iff.1 hlt))).symm
    rw [trackNewest, List.foldl_cons, List.foldl_cons, ← hstep]
    exact ih _

theorem foldl_max_mem (logs : List LogRow) (b : WithBot ℤ) :
    logs.foldl (fun b l ↦ max b (rank l)) b = b ∨ ∃ l ∈ logs, logs.foldl (fun b l ↦ max b (rank l)) b = rank l := by
  induction logs generalizing b with
  | nil => exact .inl rfl
  | cons l logs ih =>
    rcases ih (max b (rank l)) with h | ⟨l', hl', h⟩
    · rcases max_choice b (rank l) with hmax | hmax
      · exact .inl (h.trans hmax)
      · exact .inr ⟨l, List.mem_cons_self, h.trans hmax⟩
    · exact .inr ⟨l', List.mem_cons_of_mem l hl', h⟩

theorem le_foldl_max (logs : List LogRow) (b : WithBot ℤ) :
    b ≤ logs.foldl (fun b l ↦ max b (rank l)) b ∧ ∀ l ∈ logs, rank l ≤ logs.foldl (fun b l ↦ max b (rank l)) b := by
  induction logs generalizing b with
  | nil => exact ⟨le_rfl, fun _ h ↦ absurd h List.not_mem_nil⟩
  | cons l logs ih =>
    obtain ⟨hle, hall⟩ := ih (max b (rank l))
    refine ⟨(le_max_left _ _).trans hle, List.forall_mem_cons.2 ⟨(le_max_right _ _).trans hle, hall⟩⟩

/-! ### The list -/

/-- What is shown of a list that ends with lines that are not entries. -/
theorem reduceOption_rows (rows : List LogRow) (k : ℕ) :
    (rows.map some ++ List.replicate k none).reduceOption = rows := by
  rw [List.reduceOption_append, List.reduceOption_replicate_none, List.append_nil]
  exact (List.filterMap_map ..).trans (List.filterMap_some)

theorem take_rows (rows : List LogRow) (k n : ℕ) : (rows.map some ++ List.replicate k none).take n =
    (rows.take n).map some ++ List.replicate (min (n - rows.length) k) none := by
  rw [List.take_append, List.take_replicate, List.length_map, List.map_take]

/-- The lines that stay when an answer comes. -/
def staying (rows : List LogRow) (incremental : Bool) : List LogRow :=
  if incremental then rows else []

/-- **An answer on the page** stands before the lines that stay. -/
theorem renderLogs_rows {rows : List LogRow} (hrows : rows.length ≤ 250) (k : ℕ) (logs : List LogRow)
    (incremental : Bool) : ∃ k', renderLogs (rows.map some ++ List.replicate k none) logs incremental =
      ((logs ++ staying rows incremental).take 250).map some ++ List.replicate k' none := by
  rw [renderLogs, staying]
  split_ifs with hlogs hincremental hincremental
  · rw [hlogs, List.nil_append, List.take_of_length_le hrows]
    exact ⟨k, rfl⟩
  · rw [hlogs]
    exact ⟨1, rfl⟩
  · refine ⟨min (250 - (logs ++ rows).length) k, ?_⟩
    rw [← take_rows, List.map_append, List.append_assoc]
  · refine ⟨0, ?_⟩
    rw [List.append_nil, List.map_take, List.replicate_zero, List.append_nil]

theorem length_renderLogs {children : List (Option LogRow)} (h : children.length ≤ 250) (logs : List LogRow)
    (incremental : Bool) : (renderLogs children logs incremental).length ≤ 250 := by
  rw [renderLogs]
  split_ifs
  · exact h
  · exact Nat.le_add_left 1 249
  all_goals exact List.length_take_le 250 _

/-! ### Answers -/

/-- The query of a request lets through what the filters let through and is newer. -/
theorem selects_query (lib : TextLib) (f : LogFilter) (since : Option ℤ) (row : LogRow) :
    (f.query since).selects lib row = true ↔ f.shows lib row = true ∧ bound since < rank row := by
  rw [bound_lt_iff, LogFilter.shows, LogQuery.selects, LogQuery.selects]
  simp only [LogFilter.query, Option.all_none, Bool.and_true, Bool.and_eq_true]
  exact Iff.rfl

/-- An answer to a request: some of the lines that were written, without gaps between them. -/
structure Answered (lib : TextLib) (written : LogStore) (r : LogRequest) (rows : List LogRow) : Prop where
  descending : Descending rank rows
  selected : ∀ row ∈ rows, row ∈ written.rows ∧ r.filter.shows lib row = true ∧ bound r.since < rank row
  between : ∀ x ∈ written.rows, r.filter.shows lib x = true → bound r.since < rank x → (∃ y ∈ rows, rank y ≤ rank x) →
    (∃ y ∈ rows, rank x ≤ rank y) → x ∈ rows

/-- The lines of an answer. -/
theorem served_rows (lib : TextLib) (store : LogStore) (r : LogRequest) :
    (getLogs lib store.rows (r.filter.query r.since)).map LogView.row =
      (store.rows.filter ((r.filter.query r.since).selects lib)).reverse.take 200 := by
  rw [getLogs_eq_reverse lib store.ascending, List.map_map]
  exact List.map_id _

theorem descending_reverse {rows : List LogRow} (h : rows.Pairwise fun a b ↦ a.id < b.id) :
    Descending rank rows.reverse :=
  List.pairwise_reverse.2 (h.imp fun hlt ↦ WithBot.coe_lt_coe.2 hlt)

/-- **What the server answers**, when the table has the last of the lines that were written. -/
theorem answered_served (lib : TextLib) {store written : LogStore} (h : store.rows <:+ written.rows) (r : LogRequest) :
    Answered lib written r ((getLogs lib store.rows (r.filter.query r.since)).map LogView.row) := by
  rw [served_rows]
  have hdesc := descending_reverse (store.ascending.filter ((r.filter.query r.since).selects lib))
  refine ⟨hdesc.take 200, fun row hrow ↦ ?_, ?_⟩
  · obtain ⟨hmem, hsel⟩ := List.mem_filter.1 (List.mem_reverse.1 (List.mem_of_mem_take hrow))
    exact ⟨h.subset hmem, (selects_query lib r.filter r.since row).1 hsel⟩
  · rintro x hx hshows hsince ⟨y, hy, hyx⟩ -
    have hy' := (List.mem_filter.1 (List.mem_reverse.1 (List.mem_of_mem_take hy))).1
    -- what was erased is older than what is left
    obtain ⟨old, hold⟩ := h
    have hstore : x ∈ store.rows := by
      rcases List.mem_append.1 (hold ▸ hx) with hx | hx
      · have hlt := (List.pairwise_append.1 (hold ▸ written.ascending)).2.2 x hx y hy'
        exact absurd (WithBot.coe_le_coe.1 hyx) (not_le.2 hlt)
      · exact hx
    have hsel := (selects_query lib r.filter r.since x).2 ⟨hshows, hsince⟩
    exact hdesc.mem_take hy (List.mem_reverse.2 (List.mem_filter.2 ⟨hstore, hsel⟩)) hyx

/-- A line that is written later is newer than an answer. -/
theorem Answered.grow {lib : TextLib} {written : LogStore} {r : LogRequest} {rows : List LogRow}
    (h : Answered lib written r rows) (call : LogCall) : Answered lib (written.insert lib call) r rows := by
  refine ⟨h.descending, fun row hrow ↦ ?_, fun x hx hshows hsince hbelow habove ↦ ?_⟩
  · exact ⟨List.mem_append_left _ (h.selected row hrow).1, (h.selected row hrow).2⟩
  · rcases List.mem_append.1 hx with hx | hx
    · exact h.between x hx hshows hsince hbelow habove
    · obtain ⟨y, hy, hxy⟩ := habove
      have hle := written.bounded y (h.selected y hy).1
      rw [List.mem_singleton.1 hx] at hxy
      exact absurd (WithBot.coe_le_coe.1 hxy) (not_le.2 (Int.lt_add_one_of_le hle))

/-! ### One request at a time -/

/-- What is known while requests do not overlap. -/
structure Inv (lib : TextLib) (s : LogTail) : Prop where
  store : s.store.rows <:+ s.written.rows
  lastId : s.store.lastId = s.written.lastId
  single : s.requests.length ≤ 1
  children : ∃ k, s.children = s.shown.map some ++ List.replicate k none
  short : s.children.length ≤ 250
  descending : Descending rank s.shown
  written : ∀ row ∈ s.shown, row ∈ s.written.rows
  newest : (∃ r ∈ s.requests, r.incremental = false) ∨ ∀ row ∈ s.shown, rank row ≤ bound s.newest
  since : ∀ r ∈ s.requests, r.since = s.newest
  reloads : ∀ r ∈ s.requests, r.incremental = false → s.newest = none
  answer : ∀ r ∈ s.requests, ∀ rows ∈ r.answer, Answered lib s.written r rows

theorem inv_opened (lib : TextLib) (store : LogStore) : Inv lib (opened store) where
  store := List.suffix_rfl
  lastId := rfl
  single := Nat.zero_le 1
  children := ⟨0, rfl⟩
  short := Nat.zero_le 250
  descending := .nil
  written _ h := absurd h List.not_mem_nil
  newest := .inr fun _ h ↦ absurd h List.not_mem_nil
  since _ h := absurd h List.not_mem_nil
  reloads _ h := absurd h List.not_mem_nil
  answer _ h := absurd h List.not_mem_nil

section Step

variable {lib : TextLib} {s : LogTail} (h : Inv lib s)

include h

/-- The request that waits is the only one. -/
theorem Inv.requests_eq {j : ℕ} {r : LogRequest} (hr : s.requests[j]? = some r) : s.requests = [r] ∧ j = 0 := by
  have hsingle := h.single
  rcases hreq : s.requests with - | ⟨r', rs⟩ <;> rw [hreq] at hr hsingle
  · cases hr
  · obtain rfl : rs = [] := List.length_eq_zero_iff.1 (by simpa using hsingle)
    rcases j with - | j
    · exact ⟨congrArg (· :: []) (Option.some.inj hr), rfl⟩
    · cases hr

theorem Inv.log (call : LogCall) : Inv lib (next lib s (.log call)) where
  store := by
    obtain ⟨old, hold⟩ := h.store
    refine ⟨old, ?_⟩
    show old ++ (s.store.rows ++ [call.row lib (s.store.lastId + 1)]) =
      s.written.rows ++ [call.row lib (s.written.lastId + 1)]
    rw [← hold, h.lastId, List.append_assoc]
  lastId := congrArg (· + 1) h.lastId
  single := h.single
  children := h.children
  short := h.short
  descending := h.descending
  written row hrow := List.mem_append_left _ (h.written row hrow)
  newest := h.newest
  since := h.since
  reloads := h.reloads
  answer r hr rows hrows := (h.answer r hr rows hrows).grow call

/-- Erasing old lines. -/
theorem Inv.erase {store : LogStore} (hrows : store.rows <:+ s.store.rows) (hlast : store.lastId = s.store.lastId) :
    Inv lib { s with store := store } :=
  { h with
    store := hrows.trans h.store
    lastId := hlast.trans h.lastId }

theorem Inv.poll {f : LogFilter} (hnone : s.requests = []) : Inv lib (next lib s (.poll f)) := by
  have hreq : (next lib s (.poll f)).requests = [⟨true, f, s.newest, none⟩] := by
    rw [next, hnone]
    rfl
  refine { h with single := ?_, newest := .inr ?_, since := ?_, reloads := ?_, answer := ?_ }
  · rw [hreq]
    exact le_rfl
  · refine h.newest.resolve_left ?_
    rintro ⟨r, hr, -⟩
    rw [hnone] at hr
    exact absurd hr List.not_mem_nil
  · rw [hreq]
    exact List.forall_mem_singleton.2 rfl
  · rw [hreq]
    exact List.forall_mem_singleton.2 fun hfull ↦ Bool.noConfusion hfull
  · rw [hreq]
    exact List.forall_mem_singleton.2 fun _ hrows ↦ absurd hrows (Option.not_mem_none _)

theorem Inv.reload {f : LogFilter} (hnone : s.requests = []) : Inv lib (next lib s (.reload f)) := by
  have hreq : (next lib s (.reload f)).requests = [⟨false, f, none, none⟩] := by
    rw [next, hnone]
    rfl
  refine { h with single := ?_, newest := .inl ?_, since := ?_, reloads := ?_, answer := ?_ }
  · rw [hreq]
    exact le_rfl
  · rw [hreq]
    exact ⟨_, List.mem_singleton_self _, rfl⟩
  · rw [hreq]
    exact List.forall_mem_singleton.2 rfl
  · rw [hreq]
    exact List.forall_mem_singleton.2 fun _ ↦ rfl
  · rw [hreq]
    exact List.forall_mem_singleton.2 fun _ hrows ↦ absurd hrows (Option.not_mem_none _)

theorem Inv.serve (j : ℕ) : Inv lib (next lib s (.serve j)) := by
  rcases hr : s.requests[j]? with - | r
  · -- there is no such request
    have hsame : s.requests.modify j (LogRequest.served lib s.store) = s.requests :=
      List.modify_eq_self (List.getElem?_eq_none_iff.1 hr)
    rw [next, hsame]
    exact h
  · obtain ⟨hreq, rfl⟩ := h.requests_eq hr
    have hserved : (next lib s (.serve 0)).requests = [r.served lib s.store] := by
      rw [next, hreq]
      rfl
    have hmem : r ∈ s.requests := hreq ▸ List.mem_singleton_self r
    refine { h with single := ?_, newest := ?_, since := ?_, reloads := ?_, answer := ?_ }
    · rw [hserved]
      exact le_rfl
    · refine h.newest.imp_left ?_
      rintro ⟨r', hr', hfull⟩
      obtain rfl : r' = r := by simpa [hreq] using hr'
      rw [hserved]
      exact ⟨_, List.mem_singleton_self _, hfull⟩
    · rw [hserved]
      exact List.forall_mem_singleton.2 (h.since r hmem)
    · rw [hserved]
      exact List.forall_mem_singleton.2 (h.reloads r hmem)
    · rw [hserved]
      refine List.forall_mem_singleton.2 fun rows hrows ↦ ?_
      obtain rfl := Option.some.inj hrows
      have hans := answered_served lib h.store r
      exact ⟨hans.descending, hans.selected, hans.between⟩

theorem Inv.fail {j : ℕ} (hfail : ∀ r ∈ s.requests[j]?, r.incremental = false → s.shown = []) :
    Inv lib (next lib s (.fail j)) := by
  rcases hr : s.requests[j]? with - | r
  · have hsame : s.requests.eraseIdx j = s.requests := List.eraseIdx_of_length_le (List.getElem?_eq_none_iff.1 hr)
    rw [next, hsame]
    exact h
  · obtain ⟨hreq, rfl⟩ := h.requests_eq hr
    have hgone : (next lib s (.fail 0)).requests = [] := by
      rw [next, hreq]
      rfl
    refine { h with single := ?_, newest := .inr ?_, since := ?_, reloads := ?_, answer := ?_ }
    · rw [hgone]
      exact Nat.zero_le 1
    · rcases h.newest with ⟨r', hr', hfull⟩ | hnewest
      · obtain rfl : r' = r := by simpa [hreq] using hr'
        have hempty : s.shown = [] := hfail _ hr hfull
        intro row hrow
        exact absurd (hempty ▸ hrow : row ∈ []) List.not_mem_nil
      · exact hnewest
    all_goals
      rw [hgone]
      exact fun _ hr ↦ absurd hr List.not_mem_nil

/-- The page after the answer to its only request. -/
theorem Inv.receive_eq {j : ℕ} {incremental : Bool} {f : LogFilter} {since : Option ℤ} {rows : List LogRow}
    (hr : s.requests[j]? = some ⟨incremental, f, since, some rows⟩) :
    next lib s (.receive j) =
        { s with
          newest := trackNewest s.newest rows
          children := renderLogs s.children rows incremental
          requests := [] } ∧
      (next lib s (.receive j)).shown = (rows ++ staying s.shown incremental).take 250 := by
  obtain ⟨hreq, rfl⟩ := h.requests_eq hr
  have hnext : next lib s (.receive 0) =
      { s with
        newest := trackNewest s.newest rows
        children := renderLogs s.children rows incremental
        requests := [] } := by
    simp only [next, hreq, List.getElem?_cons_zero, List.eraseIdx_cons_zero]
  refine ⟨hnext, ?_⟩
  obtain ⟨k, hk⟩ := h.children
  have hlength : s.shown.length ≤ 250 := (List.reduceOption_length_le s.children).trans h.short
  obtain ⟨k', hk'⟩ := renderLogs_rows hlength k rows incremental
  rw [hnext, shown, hk, hk', reduceOption_rows]

theorem Inv.receive (j : ℕ) : Inv lib (next lib s (.receive j)) := by
  rcases hr : s.requests[j]? with - | ⟨incremental, f, since, - | rows⟩
  · simp only [next, hr]
    exact h
  · simp only [next, hr]
    exact h
  · obtain ⟨hnext, hshown⟩ := h.receive_eq hr
    obtain ⟨hreq, -⟩ := h.requests_eq hr
    have hmem : (⟨incremental, f, since, some rows⟩ : LogRequest) ∈ s.requests := hreq ▸ List.mem_singleton_self _
    have hans := h.answer _ hmem rows rfl
    have hsince : since = s.newest := h.since _ hmem
    -- the lines that stay are not newer than the newest line
    have hstay : ∀ row ∈ staying s.shown incremental, row ∈ s.shown ∧ rank row ≤ bound s.newest := fun row hrow ↦ by
      rcases incremental with - | -
      · exact absurd hrow List.not_mem_nil
      · refine ⟨hrow, h.newest.resolve_left ?_ row hrow⟩
        rintro ⟨r, hr', hfull⟩
        rw [hreq, List.mem_singleton] at hr'
        rw [hr'] at hfull
        exact Bool.noConfusion hfull
    have hdesc : Descending rank (staying s.shown incremental) := by
      rcases incremental with - | -
      · exact .nil
      · exact h.descending
    have hnewer : ∀ y ∈ rows, bound s.newest < rank y := fun y hy ↦ hsince ▸ (hans.selected y hy).2.2
    obtain ⟨hle, hall⟩ := le_foldl_max rows (bound s.newest)
    rw [← bound_trackNewest] at hle hall
    have hmerged : ∀ row ∈ (rows ++ staying s.shown incremental).take 250,
        row ∈ s.written.rows ∧ rank row ≤ bound (trackNewest s.newest rows) := fun row hrow ↦ by
      rcases List.mem_append.1 (List.mem_of_mem_take hrow) with hrow | hrow
      · exact ⟨(hans.selected row hrow).1, hall row hrow⟩
      · exact ⟨h.written row (hstay row hrow).1, (hstay row hrow).2.trans hle⟩
    obtain ⟨k, hk⟩ := h.children
    have hlength : s.shown.length ≤ 250 := (List.reduceOption_length_le s.children).trans h.short
    obtain ⟨k', hk'⟩ := renderLogs_rows hlength k rows incremental
    rw [← hk] at hk'
    rw [hnext] at hshown ⊢
    refine
      { h with
        single := Nat.zero_le 1
        children := ⟨k', ?_⟩
        short := length_renderLogs h.short rows incremental
        descending := ?_
        written := ?_
        newest := .inr ?_
        since := fun _ hr ↦ absurd hr List.not_mem_nil
        reloads := fun _ hr ↦ absurd hr List.not_mem_nil
        answer := fun _ hr ↦ absurd hr List.not_mem_nil }
    · rw [hshown]
      exact hk'
    · rw [hshown]
      exact (hdesc.append hans.descending (fun x hx ↦ (hstay x hx).2) hnewer).take 250
    · rw [hshown]
      exact fun row hrow ↦ (hmerged row hrow).1
    · rw [hshown]
      exact fun row hrow ↦ (hmerged row hrow).2

/-- **A step of an orderly run.** -/
theorem Inv.next {i : TailStep} (hi : Orderly s i) : Inv lib (next lib s i) := by
  cases i with
  | log call => exact h.log call
  | retain logLines =>
    refine h.erase ?_ ?_
    · rcases hlines : effective logLines with - | n
      · exact List.suffix_rfl
      · have hpos : 0 < n := of_decide_eq_true (Option.filter_eq_some_iff.1 hlines).2
        rw [Option.elim_some, s.store.rows_keepNewest hpos.le]
        exact List.drop_suffix _ _
    · rcases effective logLines with - | n <;> rfl
  | clear =>
    refine h.erase ?_ rfl
    simp [LogStore.clear, LogStore.keep]
  | poll f => exact h.poll hi
  | reload f => exact h.reload hi
  | serve j => exact h.serve j
  | receive j => exact h.receive j
  | fail j => exact h.fail hi

end Step

/-! ### Polls in time -/

theorem listFilter_concat (past : List TailStep) (i : TailStep) :
    listFilter (past ++ [i]) = i.reloaded.or (listFilter past) := by
  rw [listFilter, List.filterMap_append, List.getLast?_append]
  rcases hi : i.reloaded with - | f <;> simp [hi, listFilter]

/-- After any other step the filters are the same. -/
theorem listFilter_same (past : List TailStep) {i : TailStep} (hi : i.reloaded = none) :
    listFilter (past ++ [i]) = listFilter past := by
  rw [listFilter_concat, hi, Option.none_or]

/-- The lines that were written and pass the filters. -/
def Matching (lib : TextLib) (written : LogStore) (f : LogFilter) (row : LogRow) : Prop :=
  row ∈ written.rows ∧ f.shows lib row = true

/-- The list is what the filters let through, without gaps up to the newest line. -/
structure Listed (lib : TextLib) (f : LogFilter) (s : LogTail) : Prop where
  shows : ∀ row ∈ s.shown, f.shows lib row = true
  gapless : Gapless rank (Matching lib s.written f) (bound s.newest) s.shown

/-- What is known besides, while polls are in time. -/
structure Full (lib : TextLib) (past : List TailStep) (s : LogTail) : Prop where
  filter : ∀ r ∈ s.requests, listFilter past = some r.filter
  complete : ∀ r ∈ s.requests, r.incremental = true → ∀ rows ∈ r.answer, ∀ x, Matching lib s.written r.filter x →
    bound r.since < rank x → (∃ y ∈ rows, rank x ≤ rank y) → x ∈ rows
  listed : ∀ f, listFilter past = some f → (∀ r ∈ s.requests, r.incremental = true) → Listed lib f s
  newest : bound s.newest ≤ (s.written.lastId : WithBot ℤ)

theorem full_opened (lib : TextLib) (store : LogStore) : Full lib [] (opened store) where
  filter _ h := absurd h List.not_mem_nil
  complete _ h := absurd h List.not_mem_nil
  listed _ h := absurd h (Option.not_mem_none _)
  newest := bot_le

section Step

variable {lib : TextLib} {past : List TailStep} {s : LogTail} (h : Full lib past s)

include h

theorem Full.log (hinv : Inv lib s) (call : LogCall) : Full lib (past ++ [.log call]) (next lib s (.log call)) := by
  have hlist : listFilter (past ++ [.log call]) = listFilter past := listFilter_same past rfl
  -- the new line is newer than any that has been answered
  have hnew : ∀ f x, Matching lib (s.written.insert lib call) f x →
      Matching lib s.written f x ∨ (s.written.lastId : WithBot ℤ) < rank x := fun f x ⟨hx, hshows⟩ ↦ by
    rcases List.mem_append.1 hx with hx | hx
    · exact .inl ⟨hx, hshows⟩
    · rw [List.mem_singleton.1 hx]
      exact .inr (WithBot.coe_lt_coe.2 (Int.lt_add_one_of_le le_rfl))
  refine ⟨hlist ▸ h.filter, fun r hr hinc rows hrows x hx hsince habove ↦ ?_, fun f hf hall ↦ ?_, ?_⟩
  · rcases hnew _ x hx with hx | hlt
    · exact h.complete r hr hinc rows hrows x hx hsince habove
    · obtain ⟨y, hy, hxy⟩ := habove
      have hle := s.written.bounded y ((hinv.answer r hr rows hrows).selected y hy).1
      exact absurd (hlt.trans_le hxy) (not_lt.2 (WithBot.coe_le_coe.2 hle))
  · obtain ⟨hshows, hgap⟩ := h.listed f (hlist ▸ hf) hall
    exact ⟨hshows, hgap.grow fun x hx ↦ (hnew f x hx).imp_right h.newest.trans_lt⟩
  · exact h.newest.trans (WithBot.coe_le_coe.2 (Int.le_add_one le_rfl))

theorem Full.poll (hnone : s.requests = []) {f : LogFilter} (hf : listFilter past = some f) :
    Full lib (past ++ [.poll f]) (next lib s (.poll f)) := by
  have hlist : listFilter (past ++ [.poll f]) = listFilter past := listFilter_same past rfl
  have hreq : (next lib s (.poll f)).requests = [⟨true, f, s.newest, none⟩] := by
    rw [next, hnone]
    rfl
  refine ⟨?_, ?_, fun g hg _ ↦ ?_, h.newest⟩
  · rw [hreq, hlist]
    exact List.forall_mem_singleton.2 hf
  · rw [hreq]
    exact List.forall_mem_singleton.2 fun _ _ hrows ↦ absurd hrows (Option.not_mem_none _)
  · have hall : ∀ r ∈ s.requests, r.incremental = true := by
      rw [hnone]
      exact fun _ hr ↦ absurd hr List.not_mem_nil
    obtain ⟨hshows, hgap⟩ := h.listed g (hlist ▸ hg) hall
    exact ⟨hshows, hgap⟩

omit h in
theorem full_reload (hnone : s.requests = []) (f : LogFilter) :
    Full lib (past ++ [.reload f]) (next lib s (.reload f)) := by
  have hlist : listFilter (past ++ [.reload f]) = some f := listFilter_concat past _
  have hreq : (next lib s (.reload f)).requests = [⟨false, f, none, none⟩] := by
    rw [next, hnone]
    rfl
  refine ⟨?_, ?_, fun _ _ hall ↦ ?_, bot_le⟩
  · rw [hreq, hlist]
    exact List.forall_mem_singleton.2 rfl
  · rw [hreq]
    exact List.forall_mem_singleton.2 fun _ _ hrows ↦ absurd hrows (Option.not_mem_none _)
  · rw [hreq] at hall
    exact Bool.noConfusion (hall _ (List.mem_singleton_self _))

theorem Full.serve (hinv : Inv lib s) {j : ℕ} (hj : Unhurried lib past s (.serve j)) :
    Full lib (past ++ [.serve j]) (next lib s (.serve j)) := by
  have hlist : listFilter (past ++ [.serve j]) = listFilter past := listFilter_same past rfl
  rcases hr : s.requests[j]? with - | r
  · have hsame : s.requests.modify j (LogRequest.served lib s.store) = s.requests :=
      List.modify_eq_self (List.getElem?_eq_none_iff.1 hr)
    rw [next, hsame]
    exact ⟨hlist ▸ h.filter, h.complete, fun f hf ↦ h.listed f (hlist ▸ hf), h.newest⟩
  · obtain ⟨hreq, rfl⟩ := hinv.requests_eq hr
    have hserved : (next lib s (.serve 0)).requests = [r.served lib s.store] := by
      rw [next, hreq]
      rfl
    have hmem : r ∈ s.requests := hreq ▸ List.mem_singleton_self r
    refine ⟨?_, ?_, fun f hf hall ↦ ?_, h.newest⟩
    · rw [hserved, hlist]
      exact List.forall_mem_singleton.2 (h.filter r hmem)
    · rw [hserved]
      refine List.forall_mem_singleton.2 fun hinc rows hrows x hx hsince _ ↦ ?_
      obtain ⟨hthere, hfew⟩ := hj r hr hinc
      obtain rfl := Option.some.inj hrows
      -- all that passes the filters is in the answer
      rw [served_rows, List.take_of_length_le (by rwa [List.length_reverse]), List.mem_reverse, List.mem_filter]
      exact ⟨hthere x hx.1 (bound_lt_iff.1 hsince), (selects_query lib r.filter r.since x).2 ⟨hx.2, hsince⟩⟩
    · rw [hserved] at hall
      have hinc : r.incremental = true := hall (r.served lib s.store) (List.mem_singleton_self _)
      have hall' : ∀ r ∈ s.requests, r.incremental = true := by
        rw [hreq]
        exact List.forall_mem_singleton.2 hinc
      obtain ⟨hshows, hgap⟩ := h.listed f (hlist ▸ hf) hall'
      exact ⟨hshows, hgap⟩

theorem Full.fail (hinv : Inv lib s) {j : ℕ} (hj : Orderly s (.fail j)) :
    Full lib (past ++ [.fail j]) (next lib s (.fail j)) := by
  have hlist : listFilter (past ++ [.fail j]) = listFilter past := listFilter_same past rfl
  rcases hr : s.requests[j]? with - | r
  · have hsame : s.requests.eraseIdx j = s.requests := List.eraseIdx_of_length_le (List.getElem?_eq_none_iff.1 hr)
    rw [next, hsame]
    exact ⟨hlist ▸ h.filter, h.complete, fun f hf ↦ h.listed f (hlist ▸ hf), h.newest⟩
  · obtain ⟨hreq, rfl⟩ := hinv.requests_eq hr
    have hgone : (next lib s (.fail 0)).requests = [] := by
      rw [next, hreq]
      rfl
    refine ⟨?_, ?_, fun f hf _ ↦ ?_, h.newest⟩
    · rw [hgone]
      exact fun _ hr ↦ absurd hr List.not_mem_nil
    · rw [hgone]
      exact fun _ hr ↦ absurd hr List.not_mem_nil
    · rcases hinc : r.incremental with - | -
      · have hempty : (next lib s (.fail 0)).shown = [] := hj r hr hinc
        refine ⟨?_, ?_⟩
        · rw [hempty]
          exact fun _ hrow ↦ absurd hrow List.not_mem_nil
        · rw [hempty]
          exact gapless_nil _ _
      · have hall : ∀ r ∈ s.requests, r.incremental = true := by
          rw [hreq]
          exact List.forall_mem_singleton.2 hinc
        obtain ⟨hshows, hgap⟩ := h.listed f (hlist ▸ hf) hall
        exact ⟨hshows, hgap⟩

theorem Full.receive (hinv : Inv lib s) (j : ℕ) : Full lib (past ++ [.receive j]) (next lib s (.receive j)) := by
  have hlist : listFilter (past ++ [.receive j]) = listFilter past := listFilter_same past rfl
  have hsame : Full lib (past ++ [.receive j]) s :=
    ⟨hlist ▸ h.filter, h.complete, fun f hf ↦ h.listed f (hlist ▸ hf), h.newest⟩
  rcases hr : s.requests[j]? with - | ⟨incremental, g, since, - | rows⟩
  · simp only [next, hr]
    exact hsame
  · simp only [next, hr]
    exact hsame
  · obtain ⟨hnext, hshown⟩ := hinv.receive_eq hr
    obtain ⟨hreq, -⟩ := hinv.requests_eq hr
    have hmem : (⟨incremental, g, since, some rows⟩ : LogRequest) ∈ s.requests := hreq ▸ List.mem_singleton_self _
    have hans := hinv.answer _ hmem rows rfl
    have hsince : since = s.newest := hinv.since _ hmem
    have hnewer : ∀ y ∈ rows, bound s.newest < rank y := fun y hy ↦ hsince ▸ (hans.selected y hy).2.2
    have hdesc := (hinv.receive j).descending
    -- the new bound is the old one, or that of a line of the answer
    have htop : bound (trackNewest s.newest rows) = bound s.newest ∨
        ∃ l ∈ rows, bound (trackNewest s.newest rows) = rank l := by
      rw [bound_trackNewest]
      exact foldl_max_mem rows _
    have hbelow : ∀ x, bound s.newest < rank x → rank x ≤ bound (trackNewest s.newest rows) →
        ∃ y ∈ rows, rank x ≤ rank y := fun x hx hle ↦ by
      rcases htop with htop | ⟨l, hl, htop⟩
      · exact absurd (hx.trans_le (hle.trans htop.le)) (lt_irrefl _)
      · exact ⟨l, hl, hle.trans htop.le⟩
    rw [hnext] at hshown hdesc ⊢
    refine ⟨fun _ hr ↦ absurd hr List.not_mem_nil, fun _ hr ↦ absurd hr List.not_mem_nil, fun f hf _ ↦ ?_, ?_⟩
    · obtain rfl : g = f := Option.some.inj ((h.filter _ hmem).symm.trans (hlist ▸ hf))
      rcases incremental with - | -
      · -- the whole list: what lies between its lines is in it
        have hnull : s.newest = none := hinv.reloads _ hmem rfl
        have hgap : Gapless rank (Matching lib s.written g) (bound (trackNewest s.newest rows)) rows :=
          fun x hx hle hold ↦ by
            have hbot : bound s.newest < rank x := by
              rw [hnull]
              exact WithBot.bot_lt_coe x.id
            exact hans.between x hx.1 hx.2 (hsince ▸ hbot) hold (hbelow x hbot hle)
        rw [staying, if_neg Bool.false_ne_true, List.append_nil] at hshown
        refine ⟨?_, ?_⟩
        · rw [hshown]
          exact fun row hrow ↦ (hans.selected row (List.mem_of_mem_take hrow)).2.1
        · rw [hshown]
          exact hgap.take hans.descending 250
      · have hall : ∀ r ∈ s.requests, r.incremental = true := by
          rw [hreq]
          exact List.forall_mem_singleton.2 rfl
        obtain ⟨hshows, hgap⟩ := h.listed g (hlist ▸ hf) hall
        have hold : ∀ row ∈ s.shown, rank row ≤ bound s.newest := by
          refine hinv.newest.resolve_left ?_
          rintro ⟨r, hr', hfull⟩
          exact Bool.noConfusion ((hall r hr').symm.trans hfull)
        have hfront : Gapless rank (Matching lib s.written g) (bound (trackNewest s.newest rows)) (rows ++ s.shown) :=
          hgap.append hnewer fun x hx hlt hle ↦
            h.complete _ hmem rfl rows rfl x hx (hsince ▸ hlt) (hbelow x hlt hle)
        rw [staying, if_pos rfl] at hshown
        refine ⟨?_, ?_⟩
        · rw [hshown]
          intro row hrow
          rcases List.mem_append.1 (List.mem_of_mem_take hrow) with hrow | hrow
          · exact (hans.selected row hrow).2.1
          · exact hshows row hrow
        · rw [hshown]
          exact hfront.take (hinv.descending.append hans.descending hold hnewer) 250
    · rcases htop with htop | ⟨l, hl, htop⟩
      · exact htop.le.trans h.newest
      · exact htop.le.trans (WithBot.coe_le_coe.2 (s.written.bounded l (hans.selected l hl).1))

/-- **A step of a run whose polls are in time.** -/
theorem Full.next (hinv : Inv lib s) {i : TailStep} (horder : Orderly s i) (hi : Unhurried lib past s i) :
    Full lib (past ++ [i]) (next lib s i) := by
  cases i with
  | log call => exact h.log hinv call
  | retain logLines =>
    have hlist : listFilter (past ++ [.retain logLines]) = listFilter past := listFilter_same past rfl
    refine ⟨hlist ▸ h.filter, h.complete, fun f hf hall ↦ ?_, h.newest⟩
    obtain ⟨hshows, hgap⟩ := h.listed f (hlist ▸ hf) hall
    exact ⟨hshows, hgap⟩
  | clear =>
    have hlist : listFilter (past ++ [.clear]) = listFilter past := listFilter_same past rfl
    refine ⟨hlist ▸ h.filter, h.complete, fun f hf hall ↦ ?_, h.newest⟩
    obtain ⟨hshows, hgap⟩ := h.listed f (hlist ▸ hf) hall
    exact ⟨hshows, hgap⟩
  | poll f => exact h.poll horder hi
  | reload f => exact full_reload horder f
  | serve j => exact h.serve hinv hi
  | receive j => exact h.receive hinv j
  | fail j => exact h.fail hinv horder

end Step

/-! ### What is shown -/

/-- A page that loads the list and polls once, while two lines are written. -/
def watched : List TailStep :=
  [.log (traced "req-1"), .reload ⟨[], [], []⟩, .serve 0, .receive 0, .log (traced "req-2"), .poll ⟨[], [], []⟩,
    .serve 0, .receive 0]

end LogTail

end LocalGateway
