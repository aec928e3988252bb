import LocalGateway.Config.Views
import LocalGateway.Ledger.Queries

/-!
# What the keys page shows

`keys_spend` shows beside each key what `get_all_key_spend` finds for all keys in one query; the budgets are enforced by
`get_key_spend`, a query for each period of one key. A day begins within its month, so the first is contained in the
second.

* `lookup_getAllKeySpend`: the one query finds what the queries for a key find.
* `keysSpend_shows`: the page shows for every key what its budgets are compared with, and shows every key that has
  spent something this month.
-/

namespace LocalGateway

open Py Json Grouped

/-- The columns that the page has for a period. -/
def Period.costColumn : Period → PyStr
  | .daily => py "day_cost"
  | .monthly => py "month_cost"

def Period.requestsColumn : Period → PyStr
  | .daily => py "day_requests"
  | .monthly => py "month_requests"

/-- What `get_all_key_spend` has for a key, as a dictionary. -/
def KeySpend.dict (s : KeySpend) : PyDict :=
  [(py "day_cost", .float (.fin (s .daily).cost)), (py "day_requests", .int (s .daily).requests),
    (py "month_cost", .float (.fin (s .monthly).cost)), (py "month_requests", .int (s .monthly).requests)]

/-- The page, where `get_all_key_spend` reads a table. -/
def Telemetry.spending (t : Telemetry) (clock : LocalClock) (table : List UsageRecord) (now : ℚ) : Telemetry :=
  { t with spend := (getAllKeySpend clock table now).map fun e ↦ (e.1, e.2.dict) }

/-- An entry of the page shows the spending of a key. -/
def Shows (entry : Json) (id : PyStr) (s : KeySpend) : Prop :=
  ∃ d, entry = .obj d ∧ get? d (py "id") = some (.str id) ∧ ∀ p : Period,
    get? d p.costColumn = some (.float (.fin (s p).cost)) ∧ get? d p.requestsColumn = some (.int (s p).requests)

/-- The rows of a key since a time. -/
def rowsOfKey (table : List UsageRecord) (id : PyStr) (since : ℚ) : List UsageRecord :=
  table.filter fun row ↦ row.apiKeyId = some id && since ≤ row.ts && row.counted

/-! ### One query, and one for each key -/

theorem rowsSince_spend (table : List UsageRecord) (id : PyStr) (since : ℚ) :
    rowsSince (table.map UsageRecord.spend) id since = (rowsOfKey table id since).map UsageRecord.spend := by
  rw [rowsSince, rowsOfKey, List.filter_map]
  refine congrArg _ (List.filter_congr fun row _ ↦ Bool.eq_iff_iff.2 ?_)
  simp only [UsageRecord.spend, Function.comp_apply, Bool.and_eq_true, decide_eq_true_eq, and_assoc, Bool.not_eq_false']

/-- A query for a period of a key. -/
theorem selectSpend_spend (table : List UsageRecord) (id : PyStr) (since : ℚ) :
    selectSpend (table.map UsageRecord.spend) id since =
      ⟨total (·.cost) (rowsOfKey table id since), (rowsOfKey table id since).length⟩ := by
  rw [selectSpend, sumCost, rowsSince_spend, List.length_map, List.filterMap_map, total, sumColumn_getD,
    List.reduceOption, List.filterMap_map]
  rfl

/-- What is counted only from a time on. -/
theorem total_from (since : ℚ) (rows : List UsageRecord) :
    total (fun row ↦ if since ≤ row.ts then row.cost else some 0) rows =
      total (·.cost) (rows.filter fun row ↦ since ≤ row.ts) := by
  rw [total, total, sumColumn_getD, sumColumn_getD, sum_reduceOption, sum_reduceOption]
  induction rows with
  | nil => rfl
  | cons row rows ih =>
    by_cases h : since ≤ row.ts
    · rw [List.map_cons, List.sum_cons, if_pos h, List.filter_cons_of_pos (by simpa using h), List.map_cons,
        List.sum_cons, ih]
    · rw [List.map_cons, List.sum_cons, if_neg h, List.filter_cons_of_neg (by simpa using h), ih]
      exact zero_add _

/-- The rows of a key among those of all keys. -/
theorem filter_keyRows (table : List UsageRecord) (id : PyStr) (since : ℚ) :
    ((keyRows table since).filter fun row ↦ row.apiKeyId.getD [] = id) = rowsOfKey table id since := by
  rw [keyRows, rowsOfKey, List.filter_filter]
  refine List.filter_congr fun row _ ↦ Bool.eq_iff_iff.2 ?_
  cases hid : row.apiKeyId with
  | none => simp only [Option.isSome_none, Bool.false_and, Bool.and_false, reduceCtorEq, decide_false]
  | some id' =>
    simp only [Option.isSome_some, Option.getD_some, Bool.true_and, Bool.and_eq_true, decide_eq_true_eq,
      Option.some.injEq, and_assoc]

/-- What a key has spent since a later time, among what it has spent. -/
theorem filter_rowsOfKey (table : List UsageRecord) (id : PyStr) {since later : ℚ} (h : since ≤ later) :
    ((rowsOfKey table id since).filter fun row ↦ later ≤ row.ts) = rowsOfKey table id later := by
  rw [rowsOfKey, rowsOfKey, List.filter_filter]
  refine List.filter_congr fun row _ ↦ Bool.eq_iff_iff.2 ?_
  simp only [Bool.and_eq_true, decide_eq_true_eq]
  constructor
  · rintro ⟨hlater, ⟨hid, -⟩, hcounted⟩
    exact ⟨⟨hid, hlater⟩, hcounted⟩
  · rintro ⟨⟨hid, hlater⟩, hcounted⟩
    exact ⟨hlater, ⟨hid, h.trans hlater⟩, hcounted⟩

section

variable (clock : LocalClock) (table : List UsageRecord) (now : ℚ)

/-- The row of a key in the one query is what the queries for the key find. -/
theorem spendOf_rowsOfKey (id : PyStr) :
    spendOf (clock.dayStart now) (rowsOfKey table id (clock.monthStart now)) = getKeySpend clock table now id := by
  rw [spendOf, getKeySpend, selectSpend_spend, selectSpend_spend, total_from, List.countP_eq_length_filter,
    filter_rowsOfKey table id (clock.monthStart_le now)]

/-- **The one query finds what the queries for a key find**, for every key. -/
theorem lookup_getAllKeySpend (id : PyStr) :
    ((getAllKeySpend clock table now).lookup id).getD (spendOf (clock.dayStart now) []) =
      getKeySpend clock table now id := by
  have hlookup : ((getAllKeySpend clock table now).lookup id).getD (spendOf (clock.dayStart now) []) =
      spendOf (clock.dayStart now) ((keyRows table (clock.monthStart now)).filter fun row ↦
        row.apiKeyId.getD [] = id) := lookup_groups (spendOf (clock.dayStart now)) id
  rw [hlookup, filter_keyRows, spendOf_rowsOfKey]

/-- What `get_all_key_spend` has for a key that it finds. -/
theorem mem_getAllKeySpend {e : PyStr × KeySpend} (h : e ∈ getAllKeySpend clock table now) :
    e.2 = getKeySpend clock table now e.1 := by
  obtain ⟨g, hg, rfl⟩ := List.mem_map.1 h
  rw [(mem_groups_iff.1 hg).2, filter_keyRows, spendOf_rowsOfKey]

/-- A key that has spent something this month is found. -/
theorem exists_mem_getAllKeySpend {row : UsageRecord} (hrow : row ∈ table) {id : PyStr} (hid : row.apiKeyId = some id)
    (hcounted : row.counted = true) (hts : clock.monthStart now ≤ row.ts) :
    ∃ e ∈ getAllKeySpend clock table now, e.1 = id := by
  have hkey : row ∈ keyRows table (clock.monthStart now) :=
    List.mem_filter.2 ⟨hrow, by rw [hid, hcounted, decide_eq_true hts]; rfl⟩
  have hgroup : (row.apiKeyId.getD [], (keyRows table (clock.monthStart now)).filter fun other ↦
      other.apiKeyId.getD [] = row.apiKeyId.getD []) ∈
        groups (fun row ↦ row.apiKeyId.getD []) (keyRows table (clock.monthStart now)) :=
    mem_groups_iff.2 ⟨⟨row, hkey, rfl⟩, rfl⟩
  refine ⟨_, List.mem_map_of_mem hgroup, ?_⟩
  rw [hid, Option.getD_some]

end

/-! ### The page -/

/-- A key without rows has spent nothing. -/
theorem dict_spendOf_nil (dayStart : ℚ) : (spendOf dayStart []).dict = noSpend := by
  have hround : PyFloat.roundTo 6 0 = 0 := by
    decide +kernel
  show [(py "day_cost", Json.float (.fin (PyFloat.roundTo 6 0))), (py "day_requests", .int 0),
    (py "month_cost", .float (.fin (PyFloat.roundTo 6 0))), (py "month_requests", .int 0)] = noSpend
  rw [hround]
  rfl

/-- An entry with the spending of a key written into it. -/
theorem shows_spread {base : PyDict} {id : PyStr} (hid : get? base (py "id") = some (.str id)) (s : KeySpend) :
    Shows (.obj (spread base s.dict)) id s := by
  have hspread : spread base s.dict =
      setKey (setKey (setKey (setKey base (py "day_cost") (.float (.fin (s .daily).cost)))
        (py "day_requests") (.int (s .daily).requests)) (py "month_cost") (.float (.fin (s .monthly).cost)))
        (py "month_requests") (.int (s .monthly).requests) := rfl
  refine ⟨_, rfl, ?_, fun p ↦ ?_⟩
  · simp only [hspread, get?_setKey]
    exact hid
  · cases p with
    | daily =>
      simp only [hspread, get?_setKey]
      exact ⟨rfl, rfl⟩
    | monthly =>
      simp only [hspread, get?_setKey]
      exact ⟨rfl, rfl⟩

/-- The key has a row of this month that is not a probe. -/
def SpentThisMonth (clock : LocalClock) (table : List UsageRecord) (now : ℚ) (id : PyStr) : Prop :=
  ∃ row ∈ table, row.apiKeyId = some id ∧ row.counted = true ∧ clock.monthStart now ≤ row.ts

/-- The entries of the page, where keys have spent something. -/
structure KeysPage (c : GatewayConfig) (spend : PyStr → KeySpend) (spent : PyStr → Prop) (entries : List Json) :
    Prop where
  /-- Each entry shows what its key has spent. -/
  right : ∀ entry ∈ entries, ∃ id, Shows entry id (spend id)
  /-- Each key of the configuration is there, with its budgets. -/
  configured : ∀ k ∈ c.server.apiKeys, ∃ d, .obj d ∈ entries ∧ Shows (.obj d) k.id (spend k.id) ∧
    ∀ p : Period, get? d p.field = some (attr k.attrs.fields p.field)
  /-- Each key that has spent something is there. -/
  complete : ∀ id, id ≠ [] → spent id → ∃ entry ∈ entries, Shows entry id (spend id)

/-- **The page shows what the budgets are compared with**: for every key of the configuration, for the key of the
server, and for every key that is no longer there and has spent something this month, what `get_key_spend` finds. -/
theorem keysSpend_shows (t : Telemetry) (c : GatewayConfig) (clock : LocalClock) (table : List UsageRecord) (now : ℚ) :
    ∃ entries, keysSpend (t.spending clock table now) c = .json 200 (.obj [(py "keys", .arr entries)]) ∧
      KeysPage c (getKeySpend clock table now) (SpentThisMonth clock table now) entries := by
  have hspent (id : PyStr) : ((t.spending clock table now).spend.lookup id).getD noSpend =
      (getKeySpend clock table now id).dict := by
    rw [← lookup_getAllKeySpend, ← dict_spendOf_nil (clock.dayStart now)]
    show (((getAllKeySpend clock table now).map fun e ↦ (e.1, e.2.dict)).lookup id).getD _ = _
    rw [Dict.lookup_map_values KeySpend.dict]
    cases (getAllKeySpend clock table now).lookup id <;> rfl
  have hentry {base : PyDict} {id : PyStr} (hid : get? base (py "id") = some (.str id)) :
      Shows (.obj (spread base (((t.spending clock table now).spend.lookup id).getD noSpend))) id
        (getKeySpend clock table now id) := by
    rw [hspent]
    exact shows_spread hid _
  -- an entry of a key that is no longer in the configuration
  have hdeleted {e : PyStr × PyDict} (he : e ∈ (t.spending clock table now).spend) :
      Shows (unlimited e.1 "(deleted key)" false e.2) e.1 (getKeySpend clock table now e.1) := by
    obtain ⟨e', he', rfl⟩ := List.mem_map.1 he
    dsimp only
    rw [mem_getAllKeySpend clock table now he']
    exact shows_spread rfl _
  refine ⟨_, rfl, fun entry hmem ↦ ?_, fun k hk ↦ ?_, ?_⟩
  · rcases List.mem_append.1 hmem with hmem | hmem
    · rcases List.mem_append.1 hmem with hmem | hmem
      · obtain ⟨k, -, rfl⟩ := List.mem_map.1 hmem
        exact ⟨k.id, hentry rfl⟩
      · split_ifs at hmem
        · rw [List.mem_singleton.1 hmem]
          exact ⟨py "default", hentry rfl⟩
        · exact absurd hmem List.not_mem_nil
    · obtain ⟨e, he, rfl⟩ := List.mem_map.1 hmem
      exact ⟨e.1, hdeleted (List.mem_filter.1 he).1⟩
  · refine ⟨_, List.mem_append_left _ (List.mem_append_left _ (List.mem_map_of_mem hk)), hentry rfl, fun p ↦ ?_⟩
    dsimp only
    rw [hspent]
    cases p with
    | daily =>
      simp only [spread, KeySpend.dict, List.foldl_cons, List.foldl_nil, get?_setKey]
      rfl
    | monthly =>
      simp only [spread, KeySpend.dict, List.foldl_cons, List.foldl_nil, get?_setKey]
      rfl
  · rintro id hid ⟨row, hrow, hkey, hcounted, hts⟩
    obtain ⟨e, he, rfl⟩ := exists_mem_getAllKeySpend clock table now hrow hkey hcounted hts
    by_cases hconfigured : e.1 ∈ c.server.apiKeys.map (·.id)
    · obtain ⟨k, hk, hke⟩ := List.mem_map.1 hconfigured
      exact ⟨_, List.mem_append_left _ (List.mem_append_left _ (List.mem_map_of_mem hk)), hke ▸ hentry rfl⟩
    by_cases hdefault : e.1 = py "default" ∧ c.server.apiKey.any (· ≠ [])
    · have hlegacy : Shows (unlimited (py "default") "Legacy default key" true
          (((t.spending clock table now).spend.lookup (py "default")).getD noSpend)) (py "default")
          (getKeySpend clock table now (py "default")) := hentry rfl
      rw [hdefault.1]
      refine ⟨_, List.mem_append_left _ (List.mem_append_right _ ?_), hlegacy⟩
      rw [if_pos hdefault.2]
      exact List.mem_singleton_self _
    · have hmem : (e.1, e.2.dict) ∈ (t.spending clock table now).spend := List.mem_map_of_mem he
      refine ⟨_, List.mem_append_right _ (List.mem_map_of_mem (List.mem_filter.2 ⟨hmem, ?_⟩)), hdeleted hmem⟩
      exact decide_eq_true ⟨hid, hconfigured, hdefault⟩

end LocalGateway
