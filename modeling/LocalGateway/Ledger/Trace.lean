import LocalGateway.Foundations.Glob
import LocalGateway.Python.Compact

/-!
# Traces of requests

The log table of `logs.py` and the search for the rows of one request. A row keeps the id of its request in the JSON
text of its metadata, and `get_logs` looks for `"request_id":"<id>"` in it with a LIKE pattern, to which `_` is a
wildcard and letters are the same in both cases.

* `resolveRequestId_plain`: the characters of a request id.
* `occurs_of_loggedWith`: the text for an ASCII id is in the rows that were logged with it.
* `traceExact_iff`: when the trace has these rows and no others.
-/

namespace LocalGateway

open Py Json

/-! ### Request ids -/

/-- A letter or digit of ASCII. -/
def isAsciiAlnum (c : ℕ) : Bool :=
  Json.isDigit c || (65 ≤ c && c ≤ 90) || (97 ≤ c && c ≤ 122)

/-- What the log leaves to the text functions of Python. -/
structure TextLib where
  /-- `c.isalnum()`. -/
  isAlnum : ℕ → Bool
  isAlnum_ascii : ∀ c < 128, isAlnum c = isAsciiAlnum c
  /-- `s.upper()`. -/
  upper : PyStr → PyStr
  /-- `repr` of a float. -/
  floats : FloatRepr
  /-- `json.loads`. -/
  loads : PyStr → Option Json

/-- `new_request_id`: twelve hexadecimal digits of a random number. -/
def newRequestId (random : Fin (16 ^ 12)) : PyStr :=
  (List.range 12).map fun i ↦ hexDigit (random / 16 ^ (11 - i) % 16)

/-- `resolve_request_id`. -/
def resolveRequestId (lib : TextLib) (inbound : Option PyStr) (random : Fin (16 ^ 12)) : PyStr :=
  let clean := (strip (inbound.getD [])).take 64
  if clean ≠ [] ∧ clean.all (fun c ↦ lib.isAlnum c || (py "-_.").contains c) = true then clean
  else newRequestId random

/-! ### The table -/

/-- A call of `log`, at its time. -/
structure LogCall where
  ts : ℚ
  level : PyStr
  message : PyStr
  model : Option PyStr
  provider : Option PyStr
  statusCode : Option ℤ
  latencyMs : Option ℤ
  /-- The other keyword arguments. -/
  extra : PyDict
  distinct : (extra.map Prod.fst).Nodup

/-- A row of `logs`. -/
structure LogRow where
  id : ℤ
  ts : ℚ
  level : PyStr
  message : PyStr
  model : Option PyStr
  provider : Option PyStr
  statusCode : Option ℤ
  latencyMs : Option ℤ
  extra : Option PyStr
deriving DecidableEq

/-- The metadata of a call, as it is stored. -/
def LogCall.extraText (lib : TextLib) (call : LogCall) : Option PyStr :=
  if call.extra = [] then none else some (compact lib.floats (.obj call.extra))

/-- The row that `log` writes. -/
def LogCall.row (lib : TextLib) (call : LogCall) (id : ℤ) : LogRow where
  id := id
  ts := call.ts
  level := lib.upper call.level
  message := call.message
  model := call.model
  provider := call.provider
  statusCode := call.statusCode
  latencyMs := call.latencyMs
  extra := call.extraText lib

/-- The calls whose rows are in the table, with the ids of these. -/
structure LogTable where
  entries : List (ℤ × LogCall)
  distinct : (entries.map Prod.fst).Nodup

/-- The rows of the table. -/
def LogTable.rows (lib : TextLib) (table : LogTable) : List LogRow :=
  table.entries.map fun e ↦ e.2.row lib e.1

/-! ### `get_logs` -/

/-- A character of a LIKE pattern. -/
def likeItem (c : ℕ) : Glob.Item ℕ :=
  if c = 37 then .many else if c = 95 then .one else .lit c

/-- A letter of ASCII in lower case. -/
def foldCase (c : ℕ) : ℕ :=
  if 65 ≤ c ∧ c ≤ 90 then c + 32 else c

/-- LIKE does not tell the cases of ASCII letters apart. -/
def sameLetter (a b : ℕ) : Bool :=
  foldCase a = foldCase b

/-- `column LIKE pattern`; null is like nothing. -/
def like (column : Option PyStr) (pattern : PyStr) : Bool :=
  column.any fun text ↦ Glob.accepts sameLetter (pattern.map likeItem) text

/-- The text a request id is searched by. -/
def idPiece (requestId : PyStr) : PyStr :=
  py "\"request_id\":\"" ++ requestId ++ [34]

/-- The parameters of `get_logs`. -/
structure LogQuery where
  limit : ℤ
  level : Option PyStr
  search : Option PyStr
  sinceId : Option ℤ
  requestId : Option PyStr

/-- The `WHERE` clause. -/
def LogQuery.selects (lib : TextLib) (q : LogQuery) (row : LogRow) : Bool :=
  let pattern (text : PyStr) := 37 :: (text ++ [37])
  let search := q.search.getD []
  let requestId := q.requestId.getD []
  (q.level.getD [] = [] || row.level = lib.upper (q.level.getD [])) &&
    (search = [] || like (some row.message) (pattern search) || like row.model (pattern search) ||
      like row.provider (pattern search)) &&
    (requestId = [] || like row.extra (pattern (idPiece requestId))) &&
    q.sinceId.all fun id ↦ id < row.id

/-- A row as it is returned, with its metadata read back if they can be. -/
structure LogView where
  row : LogRow
  extra : Option (PyStr ⊕ Json)

/-- `json.loads` of the metadata, or the text if this fails. -/
def LogRow.view (lib : TextLib) (row : LogRow) : LogView where
  row := row
  extra := row.extra.map fun text ↦ if text = [] then .inl text else (lib.loads text).elim (.inl text) .inr

/-- `LIMIT`: a negative one is none. -/
def limited {α : Type} (limit : ℤ) (rows : List α) : List α :=
  if limit < 0 then rows else rows.take limit.toNat

/-- `get_logs`. -/
def getLogs (lib : TextLib) (rows : List LogRow) (q : LogQuery) : List LogView :=
  (limited q.limit ((rows.filter (q.selects lib)).mergeSort fun a b ↦ b.id ≤ a.id)).map (LogRow.view lib)

/-! ### Traces -/

/-- The call was made with the request id. -/
def LoggedWith (requestId : PyStr) (call : LogCall) : Prop :=
  get? call.extra (py "request_id") = some (.str requestId)

instance (requestId : PyStr) : DecidablePred (LoggedWith requestId) := fun _ ↦
  inferInstanceAs (Decidable (_ = _))

/-- The query for a trace. -/
def traceQuery (requestId : PyStr) (limit : ℤ) : LogQuery :=
  ⟨limit, none, none, none, some requestId⟩

/-- With a sufficient limit the trace has the rows that were logged with the id, each once, and no others. -/
def TraceExact (lib : TextLib) (table : LogTable) (requestId : PyStr) : Prop :=
  ∀ limit : ℤ, limit < 0 ∨ (table.entries.length : ℤ) ≤ limit →
    ((getLogs lib (table.rows lib) (traceQuery requestId limit)).map LogView.row).Perm
      ((table.entries.filter fun e ↦ LoggedWith requestId e.2).map fun e ↦ e.2.row lib e.1)

/-- The text of the metadata has a piece that looks like that for the id: it reads `"request_id":"<id>"`, but with
letters in any case, and with any characters in the places of `_`. -/
def LooksLike (requestId text : PyStr) : Prop :=
  Glob.Occurs sameLetter ((idPiece requestId).map likeItem) text

/-! ### The characters of an id -/

/-- What a character of a request id can be. -/
def IsIdChar (lib : TextLib) (c : ℕ) : Prop :=
  lib.isAlnum c = true ∨ c ∈ py "-_."

theorem isAsciiAlnum_hexDigit (n : ℕ) : isAsciiAlnum (hexDigit (n % 16)) = true := by
  have h : ∀ k : Fin 16, isAsciiAlnum (hexDigit k) = true := by decide
  exact h ⟨n % 16, Nat.mod_lt n (by decide)⟩

theorem newRequestId_chars (lib : TextLib) (random : Fin (16 ^ 12)) : ∀ c ∈ newRequestId random, IsIdChar lib c := by
  intro c hc
  obtain ⟨i, -, rfl⟩ := List.mem_map.1 hc
  have halnum := isAsciiAlnum_hexDigit (random / 16 ^ (11 - i))
  have hascii : hexDigit (random / 16 ^ (11 - i) % 16) < 128 := by
    simp only [isAsciiAlnum, Json.isDigit, Bool.or_eq_true, Bool.and_eq_true, decide_eq_true_eq] at halnum
    omega
  exact .inl (by rw [lib.isAlnum_ascii _ hascii, halnum])

/-- **An id that is accepted or minted** is not empty and has such characters only. -/
theorem resolveRequestId_spec (lib : TextLib) (inbound : Option PyStr) (random : Fin (16 ^ 12)) :
    resolveRequestId lib inbound random ≠ [] ∧ ∀ c ∈ resolveRequestId lib inbound random, IsIdChar lib c := by
  unfold resolveRequestId
  dsimp only
  split_ifs with h
  · refine ⟨h.1, fun c hc ↦ ?_⟩
    have hchar := List.all_eq_true.1 h.2 c hc
    simpa [IsIdChar] using hchar
  · refine ⟨fun hnil ↦ ?_, newRequestId_chars lib random⟩
    have hlength := congrArg List.length hnil
    simp [newRequestId] at hlength

/-- Of ASCII these are letters, digits and three marks. -/
theorem IsIdChar.ascii {lib : TextLib} {c : ℕ} (h : IsIdChar lib c) (hc : c < 128) :
    isAsciiAlnum c = true ∨ c ∈ py "-_." :=
  h.imp_left fun halnum ↦ by rwa [lib.isAlnum_ascii c hc] at halnum

/-- They are written as they are. -/
theorem IsIdChar.plain {lib : TextLib} {c : ℕ} (h : IsIdChar lib c) (hc : c < 128) :
    32 ≤ c ∧ c ≤ 126 ∧ c ≠ 34 ∧ c ≠ 92 := by
  have hmarks : ∀ c ∈ py "-_.", 32 ≤ c ∧ c ≤ 126 ∧ c ≠ 34 ∧ c ≠ 92 := by decide
  rcases h.ascii hc with halnum | hmark
  · simp only [isAsciiAlnum, Json.isDigit, Bool.or_eq_true, Bool.and_eq_true, decide_eq_true_eq] at halnum
    omega
  · exact hmarks c hmark

theorem IsIdChar.ne_percent {lib : TextLib} {c : ℕ} (h : IsIdChar lib c) : c ≠ 37 := by
  rintro rfl
  rcases h.ascii (by decide) with halnum | hmark
  · exact absurd halnum (by decide)
  · exact absurd hmark (by decide)

/-! ### What is searched for -/

section Trace

variable {lib : TextLib} {requestId : PyStr} (hchars : ∀ c ∈ requestId, IsIdChar lib c)

include hchars

/-- The text that is searched for has no wildcard for more than one character. -/
theorem many_not_mem_idPiece : Glob.Item.many ∉ (idPiece requestId).map likeItem := by
  have hlit : ∀ c ∈ py "\"request_id\":\"", c ≠ 37 := by decide
  rintro hmem
  obtain ⟨c, hc, hitem⟩ := List.mem_map.1 hmem
  have hpercent : c = 37 := by
    unfold likeItem at hitem
    split_ifs at hitem with h
    exact h
  rcases List.mem_append.1 hc with hc | hc
  · rcases List.mem_append.1 hc with hc | hc
    · exact hlit c hc hpercent
    · exact (hchars c hc).ne_percent hpercent
  · rw [List.mem_singleton.1 hc] at hpercent
    exact absurd hpercent (by decide)

/-- What the query for a trace selects. -/
theorem selects_traceQuery_iff (hne : requestId ≠ []) (limit : ℤ) (row : LogRow) :
    (traceQuery requestId limit).selects lib row = true ↔ ∃ text ∈ row.extra, LooksLike requestId text := by
  have hpattern : (37 :: (idPiece requestId ++ [37])).map likeItem =
      .many :: ((idPiece requestId).map likeItem ++ [.many]) := by
    rw [List.map_cons, List.map_append]
    rfl
  have hselects : (traceQuery requestId limit).selects lib row =
      like row.extra (37 :: (idPiece requestId ++ [37])) := by
    simp [LogQuery.selects, traceQuery, hne]
  rw [hselects, like, Option.any_eq_true, hpattern]
  simp only [Glob.accepts_surrounded_iff (many_not_mem_idPiece hchars)]
  rfl

/-- **A row that was logged with an ASCII id** is found. -/
theorem exists_looksLike (hascii : ∀ c ∈ requestId, c < 128) {call : LogCall} (h : LoggedWith requestId call) :
    ∃ text ∈ call.extraText lib, LooksLike requestId text := by
  have hmem : (py "request_id", Json.str requestId) ∈ call.extra := by
    obtain ⟨before, after, heq, -⟩ := List.lookup_eq_some_iff.1 h
    rw [heq]
    exact List.mem_append_right _ List.mem_cons_self
  have htext : call.extraText lib = some (compact lib.floats (.obj call.extra)) := by
    rw [LogCall.extraText, if_neg (List.ne_nil_of_mem hmem)]
  have hpiece : entryText lib.floats (py "request_id") (.str requestId) = idPiece requestId := by
    rw [entryText, compact, dumpsStr_of_plain fun c hc ↦ (hchars c hc).plain (hascii c hc)]
    rfl
  obtain ⟨before, after, heq⟩ := exists_entry lib.floats hmem
  rw [hpiece] at heq
  refine ⟨_, htext, before, idPiece requestId, after, heq.symm, ?_⟩
  rw [List.forall₂_map_left_iff, List.forall₂_same]
  intro c hc
  have hitem : likeItem c ≠ .many := fun hmany ↦ many_not_mem_idPiece hchars (hmany ▸ List.mem_map_of_mem hc)
  unfold likeItem at hitem ⊢
  split_ifs at hitem ⊢
  · exact absurd rfl hitem
  · rfl
  · simp [Glob.Item.takes, sameLetter]

end Trace

/-- The text of an id that is not ASCII is in no row. -/
theorem not_looksLike_of_high {lib : TextLib} {requestId : PyStr} {c : ℕ} (hc : c ∈ requestId) (hhigh : 128 ≤ c)
    {call : LogCall} : ∀ text ∈ call.extraText lib, ¬ LooksLike requestId text := by
  rintro text htext hlooks
  have hitem : likeItem c = .lit c := by
    unfold likeItem
    rw [if_neg (by omega), if_neg (by omega)]
  have hmem : likeItem c ∈ (idPiece requestId).map likeItem :=
    List.mem_map_of_mem (List.mem_append_left _ (List.mem_append_right _ hc))
  obtain ⟨d, hd, htakes⟩ := hlooks.exists_takes hmem
  rw [hitem] at htakes
  -- beyond ASCII the cases are different characters
  have hsame : c = d := by
    have hfold : foldCase c = foldCase d := by simpa [Glob.Item.takes, sameLetter] using htakes
    unfold foldCase at hfold
    split_ifs at hfold <;> omega
  have hascii := compact_ascii lib.floats (c := c) (by omega) (.obj call.extra)
  rw [LogCall.extraText] at htext
  split_ifs at htext
  · cases htext
  · obtain rfl := Option.some.inj htext
    exact hascii (hsame ▸ hd)

/-! ### Exactness -/

section Exact

variable (lib : TextLib) (table : LogTable) (requestId : PyStr)

/-- With a sufficient limit the trace has, in some order, what the query selects. -/
theorem map_row_getLogs_perm {limit : ℤ} (hlimit : limit < 0 ∨ (table.entries.length : ℤ) ≤ limit) :
    ((getLogs lib (table.rows lib) (traceQuery requestId limit)).map LogView.row).Perm
      ((table.entries.filter fun e ↦ (traceQuery requestId limit).selects lib (e.2.row lib e.1)).map fun e ↦
        e.2.row lib e.1) := by
  have hself (rows : List LogRow) : (rows.map (LogRow.view lib)).map LogView.row = rows := by
    rw [List.map_map]
    exact List.map_id _
  have hall : ∀ rows : List LogRow, rows.length ≤ table.entries.length → limited limit rows = rows := by
    intro rows hrows
    rw [limited]
    split_ifs
    · rfl
    · exact List.take_of_length_le (by omega)
  have hlength := List.length_filter_le ((traceQuery requestId limit).selects lib) (table.rows lib)
  rw [getLogs, hself, show (traceQuery requestId limit).limit = limit from rfl, hall]
  · refine (List.mergeSort_perm ..).trans ?_
    rw [LogTable.rows, List.filter_map]
    rfl
  · rw [List.length_mergeSort]
    exact hlength.trans_eq (List.length_map _)

/-- The trace is exact if the rows that look like the id are those that were logged with it. -/
theorem traceExact_iff_looksLike (hne : requestId ≠ []) (hchars : ∀ c ∈ requestId, IsIdChar lib c) :
    TraceExact lib table requestId ↔ ∀ e ∈ table.entries,
      (∃ text ∈ e.2.extraText lib, LooksLike requestId text) ↔ LoggedWith requestId e.2 := by
  have hselects (limit : ℤ) (e : ℤ × LogCall) : (traceQuery requestId limit).selects lib (e.2.row lib e.1) = true ↔
      ∃ text ∈ e.2.extraText lib, LooksLike requestId text := selects_traceQuery_iff hchars hne limit _
  constructor
  · intro h e he
    have hperm := (map_row_getLogs_perm lib table requestId (.inl (show (-1 : ℤ) < 0 by decide))).symm.trans
      (h (-1) (.inl (by decide)))
    -- rows with one id are of one entry
    have hrow : ∀ e' ∈ table.entries, e'.2.row lib e'.1 = e.2.row lib e.1 → e' = e := fun e' he' heq ↦
      List.inj_on_of_nodup_map table.distinct he' he (congrArg LogRow.id heq)
    rw [← hselects (-1) e]
    constructor
    · intro hsel
      have hmem := hperm.subset (List.mem_map_of_mem (List.mem_filter.2 ⟨he, hsel⟩))
      obtain ⟨e', he', heq⟩ := List.mem_map.1 hmem
      obtain ⟨hin, hlogged⟩ := List.mem_filter.1 he'
      rw [hrow e' hin heq] at hlogged
      exact of_decide_eq_true hlogged
    · intro hlogged
      have hmem := hperm.symm.subset (List.mem_map_of_mem (List.mem_filter.2 ⟨he, decide_eq_true hlogged⟩))
      obtain ⟨e', he', heq⟩ := List.mem_map.1 hmem
      obtain ⟨hin, hsel⟩ := List.mem_filter.1 he'
      rwa [hrow e' hin heq] at hsel
  · intro h limit hlimit
    refine (map_row_getLogs_perm lib table requestId hlimit).trans (.of_eq ?_)
    refine congrArg (List.map _) (List.filter_congr fun e he ↦ ?_)
    rw [Bool.eq_iff_iff, hselects, h e he, decide_eq_true_iff]

/-- **When the trace is exact**: when the id is ASCII or no row was logged with it, and no row that was logged otherwise
looks like one. -/
theorem traceExact_iff (inbound : Option PyStr) (random : Fin (16 ^ 12)) :
    TraceExact lib table (resolveRequestId lib inbound random) ↔
      ((∀ c ∈ resolveRequestId lib inbound random, c < 128) ∨
          ∀ e ∈ table.entries, ¬ LoggedWith (resolveRequestId lib inbound random) e.2) ∧
        ∀ e ∈ table.entries, ¬ LoggedWith (resolveRequestId lib inbound random) e.2 →
          ∀ text ∈ e.2.extraText lib, ¬ LooksLike (resolveRequestId lib inbound random) text := by
  obtain ⟨hne, hchars⟩ := resolveRequestId_spec lib inbound random
  generalize resolveRequestId lib inbound random = requestId at hne hchars
  rw [traceExact_iff_looksLike lib table requestId hne hchars]
  constructor
  · intro h
    refine ⟨or_iff_not_imp_left.2 fun hhigh e he hlogged ↦ ?_, fun e he hnot text htext hlooks ↦
      hnot ((h e he).1 ⟨text, htext, hlooks⟩)⟩
    -- an id that is not ASCII is not found
    push Not at hhigh
    obtain ⟨c, hc, hhigh⟩ := hhigh
    obtain ⟨text, htext, hlooks⟩ := (h e he).2 hlogged
    exact not_looksLike_of_high hc hhigh text htext hlooks
  · rintro ⟨hid, hothers⟩ e he
    constructor
    · rintro ⟨text, htext, hlooks⟩
      by_contra hnot
      exact hothers e he hnot text htext hlooks
    · intro hlogged
      rcases hid with hascii | hnone
      · exact exists_looksLike hchars hascii hlogged
      · exact absurd hlogged (hnone e he)

end Exact

/-- Text functions that know ASCII only. -/
def asciiLib : TextLib where
  isAlnum := isAsciiAlnum
  isAlnum_ascii _ _ := rfl
  upper := id
  floats := .ofFraction
  loads _ := none

/-- A log row of a request. -/
def traced (requestId : String) : LogCall where
  ts := 0
  level := py "INFO"
  message := py "success"
  model := none
  provider := none
  statusCode := some 200
  latencyMs := none
  extra := [(py "request_id", .str (py requestId))]
  distinct := by simp

/-- **A row of another request.** The trace of `req_1` has the row of `req-1` in it. -/
theorem not_traceExact_underscore :
    ¬ TraceExact asciiLib ⟨[(1, traced "req-1")], by simp⟩ (resolveRequestId asciiLib (some (py "req_1")) 0) := by
  have hid : resolveRequestId asciiLib (some (py "req_1")) 0 = py "req_1" := by decide +kernel
  intro h
  have hperm := h (-1) (.inl (by decide))
  rw [hid] at hperm
  have hlength := hperm.length_eq
  revert hlength
  decide +kernel

end LocalGateway
