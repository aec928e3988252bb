import LocalGateway.Foundations.Lines
import LocalGateway.Foundations.LogWindow
import LocalGateway.Foundations.Runs
import LocalGateway.Foundations.StableSort
import LocalGateway.Ledger.Anomaly

/-!
# The log of anomalies

Anomalies stay in their table: a scan adds to it what it finds, an administrator acknowledges what the dashboard shows,
and nothing is ever taken out. The usage table changes from scan to scan, and a day may be scanned again.

* `AnomalyLog.next`: `daily_anomaly_scan` and `ack_anomaly`.
* `anomalies_exec`: an anomaly is reported once, and shown until it is acknowledged.
-/

namespace LocalGateway

open Py Runs

/-- The text of a day, `%Y-%m-%d`. -/
structure DateText where
  text : ℤ → PyStr
  injective : Function.Injective text
  plain : ∀ day, 58 ∉ text day

/-- The texts of the scopes. -/
def AnomalyScope.text : AnomalyScope → PyStr
  | .key => py "key"
  | .model => py "model"

/-- The ids that `AUTOINCREMENT` gives to one row after the other. An insertion that is ignored may use one up. -/
structure RowIds where
  id : ℕ → ℤ
  increasing : StrictMono id

/-- The table with the ids, what the scans have returned so far, and the ids that were acknowledged with success. -/
structure AnomalyLog (K : Type*) where
  entries : List (ℤ × Anomaly K)
  found : List (Anomaly K)
  acked : List ℤ

/-- A scan of a usage table at a time, or a request that acknowledges an anomaly. -/
inductive AnomalyStep
  | scan (usage : List StoredUsage) (now : ℚ)
  | ack (id : ℤ)

/-! ### One anomaly -/

section Anomaly

variable {K : Type*} (a b : Anomaly K)

/-- The row as it was inserted. -/
def Anomaly.fresh : Anomaly K :=
  { a with acknowledged := false }

/-- The row once it is acknowledged. -/
def Anomaly.acked : Anomaly K :=
  { a with acknowledged := true }

/-- Two anomalies for one day of one id. -/
def Anomaly.Same : Prop :=
  a.scope = b.scope ∧ a.scopeId = b.scopeId ∧ a.day = b.day

/-- The key under which an anomaly is announced. -/
def Anomaly.dedupKey (date : DateText) : PyStr :=
  py "anomaly:" ++ a.scope.text ++ py ":" ++ a.scopeId ++ py ":" ++ date.text a.day

/-- The key tells the anomalies apart, whatever the ids have in them. -/
theorem Anomaly.dedupKey_inj {date : DateText} {a b : Anomaly K} (h : a.dedupKey date = b.dedupKey date) :
    a.Same b := by
  have hflip (c : Anomaly K) : (c.dedupKey date).reverse =
      (date.text c.day).reverse ++ 58 :: (py "anomaly:" ++ c.scope.text ++ py ":" ++ c.scopeId).reverse := by
    rw [Anomaly.dedupKey, List.reverse_append, List.reverse_append]
    rfl
  have hplain (day : ℤ) : 58 ∉ (date.text day).reverse := fun hmem ↦ date.plain day (List.mem_reverse.1 hmem)
  have hrev : (a.dedupKey date).reverse = (b.dedupKey date).reverse := congrArg List.reverse h
  rw [hflip, hflip] at hrev
  obtain ⟨hday, hrest⟩ := Lines.append_cons_inj (hplain _) (hplain _) hrev
  have hday := date.injective (List.reverse_injective hday)
  have hids := List.reverse_injective hrest
  -- the letter after the first colon is that of the scope
  have hletter := congrArg (·[8]?) hids
  obtain ⟨ts, scope, scopeId, day, expected, actual, zScore, acknowledged⟩ := a
  obtain ⟨ts', scope', scopeId', day', expected', actual', zScore', acknowledged'⟩ := b
  cases scope <;> cases scope'
  · exact ⟨rfl, List.append_cancel_left hids, hday⟩
  · exact absurd (Option.some.inj hletter) (by decide)
  · exact absurd (Option.some.inj hletter) (by decide)
  · exact ⟨rfl, List.append_cancel_left hids, hday⟩

end Anomaly

namespace AnomalyLog

/-! ### The log -/

section Log

variable {K : Type*} (s : AnomalyLog K)

/-- The rows. -/
def rows : List (Anomaly K) :=
  s.entries.map Prod.snd

/-- The table when it is new. -/
def empty : AnomalyLog K :=
  ⟨[], [], []⟩

/-- The `UPDATE` of an id, in a row. -/
def ackRow (id : ℤ) (e : ℤ × Anomaly K) : ℤ × Anomaly K :=
  if e.1 = id then (e.1, e.2.acked) else e

/-- `ack_anomaly`, and whether it has found the row. -/
def ackAnomaly (id : ℤ) : AnomalyLog K × Bool :=
  ({ s with entries := s.entries.map (ackRow id) }, s.entries.any (·.1 = id))

/-- `get_active_anomalies`. -/
def getActiveAnomalies : List (ℤ × Anomaly K) :=
  ((s.entries.filter fun e ↦ !e.2.acknowledged).insertionSort fun d e ↦ e.2.ts ≤ d.2.ts).take 20

variable [Field K] [LinearOrder K] (ar : RootArith K) (ids : RowIds)

/-- The next step. -/
def next (s : AnomalyLog K) : AnomalyStep → AnomalyLog K
  | .scan usage now =>
    let found := (dailyAnomalyScan ar usage now s.rows).2
    { s with
      entries := s.entries ++ (found.zipIdx s.entries.length).map fun e ↦ (ids.id e.2, e.1)
      found := s.found ++ found }
  | .ack id => { (s.ackAnomaly id).1 with acked := s.acked ++ if (s.ackAnomaly id).2 then [id] else [] }

end Log

/-! ### What a scan adds -/

section Scan

variable {K : Type*}

theorem isRecorded_iff {rows : List (Anomaly K)} {a : Anomaly K} :
    IsRecorded rows a.scope a.scopeId a.day ↔ ∃ b ∈ rows, b.Same a :=
  Iff.rfl

/-- The loop adds some of what it tries to, and no two for one day of one id. -/
theorem foldl_insertOrIgnore (attempts rows found : List (Anomaly K)) :
    ∃ new, attempts.foldl insertOrIgnore (rows, found) = (rows ++ new, found ++ new) ∧ new ⊆ attempts ∧
      (rows.Pairwise (fun a b ↦ ¬ a.Same b) → (rows ++ new).Pairwise fun a b ↦ ¬ a.Same b) := by
  induction attempts generalizing rows found with
  | nil => exact ⟨[], by simp, List.Subset.refl _, by simp⟩
  | cons a attempts ih =>
    rw [List.foldl_cons]
    by_cases hthere : IsRecorded rows a.scope a.scopeId a.day
    · obtain ⟨new, hfold, hsub, hdistinct⟩ := ih rows found
      rw [insertOrIgnore, if_pos hthere]
      exact ⟨new, hfold, fun b hb ↦ List.mem_cons_of_mem _ (hsub hb), hdistinct⟩
    · obtain ⟨new, hfold, hsub, hdistinct⟩ := ih (rows ++ [a]) (found ++ [a])
      rw [insertOrIgnore, if_neg hthere]
      refine ⟨a :: new, by rw [hfold, List.append_assoc, List.append_assoc]; rfl, ?_, fun hrows ↦ ?_⟩
      · exact List.cons_subset.2 ⟨List.mem_cons_self, fun b hb ↦ List.mem_cons_of_mem _ (hsub hb)⟩
      · have hone : (rows ++ [a]).Pairwise fun a b ↦ ¬ a.Same b := by
          refine List.pairwise_append.2 ⟨hrows, List.pairwise_singleton _ _, fun b hb c hc hsame ↦ hthere ?_⟩
          exact isRecorded_iff.2 ⟨b, hb, List.mem_singleton.1 hc ▸ hsame⟩
        have hall := hdistinct hone
        rwa [List.append_assoc] at hall

variable [Field K] [LinearOrder K] (ar : RootArith K)

theorem fresh_of_candidate {usage : List StoredUsage} {now : ℚ} {scope : AnomalyScope} {a : Anomaly K}
    (h : a ∈ anomalyCandidates ar usage now scope) : a.fresh = a := by
  obtain ⟨g, -, hg⟩ := List.mem_filterMap.1 h
  dsimp only at hg
  split_ifs at hg
  rw [← Option.some.inj hg]
  rfl

/-- **A scan** adds new rows, and returns them. -/
theorem dailyAnomalyScan_eq (usage : List StoredUsage) (now : ℚ) (rows : List (Anomaly K)) :
    ∃ new, dailyAnomalyScan ar usage now rows = (rows ++ new, new) ∧ (∀ a ∈ new, a.fresh = a) ∧
      (rows.Pairwise (fun a b ↦ ¬ a.Same b) → (rows ++ new).Pairwise fun a b ↦ ¬ a.Same b) := by
  obtain ⟨new, hfold, hsub, hdistinct⟩ :=
    foldl_insertOrIgnore ([AnomalyScope.key, .model].flatMap (anomalyCandidates ar usage now)) rows []
  refine ⟨new, hfold, fun a ha ↦ ?_, hdistinct⟩
  obtain ⟨scope, -, hscope⟩ := List.mem_flatMap.1 (hsub ha)
  exact fresh_of_candidate ar hscope

end Scan

/-! ### What an acknowledgement changes -/

section Ack

variable {K : Type*} (id : ℤ) (e d : ℤ × Anomaly K)

theorem fst_ackRow : (ackRow id e).1 = e.1 := by
  unfold ackRow
  split_ifs <;> rfl

theorem fresh_ackRow : (ackRow id e).2.fresh = e.2.fresh := by
  unfold ackRow
  split_ifs <;> rfl

theorem same_ackRow_iff : (ackRow id e).2.Same (ackRow id d).2 ↔ e.2.Same d.2 := by
  unfold ackRow
  split_ifs <;> rfl

theorem acknowledged_ackRow_iff : (ackRow id e).2.acknowledged = true ↔ e.2.acknowledged = true ∨ e.1 = id := by
  unfold ackRow
  split_ifs with hid
  · exact iff_of_true rfl (.inr hid)
  · exact (or_iff_left hid).symm

end Ack

/-! ### Runs -/

section Invariant

variable {K : Type*} (ids : RowIds) (s : AnomalyLog K)

/-- What scans and acknowledgements keep. -/
structure Inv : Prop where
  found : s.found = s.rows.map Anomaly.fresh
  distinct : s.rows.Pairwise fun a b ↦ ¬ a.Same b
  numbered : s.entries.map Prod.fst = (List.range s.entries.length).map ids.id
  known : s.acked ⊆ s.entries.map Prod.fst
  acknowledged : ∀ e ∈ s.entries, e.2.acknowledged = true ↔ e.1 ∈ s.acked

variable {ids s}

theorem inv_empty : (empty : AnomalyLog K).Inv ids where
  found := rfl
  distinct := List.Pairwise.nil
  numbered := rfl
  known := List.Subset.refl _
  acknowledged := nofun

/-- New rows have new ids. -/
theorem Inv.insert (h : s.Inv ids) {new : List (Anomaly K)} (hfresh : ∀ a ∈ new, a.fresh = a)
    (hdistinct : (s.rows ++ new).Pairwise fun a b ↦ ¬ a.Same b) :
    Inv ids { s with
      entries := s.entries ++ (new.zipIdx s.entries.length).map fun e ↦ (ids.id e.2, e.1)
      found := s.found ++ new } := by
  have hsnd : ((new.zipIdx s.entries.length).map fun e ↦ (ids.id e.2, e.1)).map Prod.snd = new := by
    rw [List.map_map]
    exact List.zipIdx_map_fst _ _
  have hfst : ((new.zipIdx s.entries.length).map fun e ↦ (ids.id e.2, e.1)).map Prod.fst =
      (List.range' s.entries.length new.length).map ids.id := by
    rw [← List.zipIdx_map_snd s.entries.length new, List.map_map, List.map_map]
    rfl
  have hrows : (s.entries ++ (new.zipIdx s.entries.length).map fun e ↦ (ids.id e.2, e.1)).map Prod.snd =
      s.rows ++ new := by
    rw [List.map_append, hsnd]
    rfl
  refine ⟨?_, ?_, ?_, ?_, fun e he ↦ ?_⟩
  · show s.found ++ new = _
    rw [rows, hrows, List.map_append, List.map_congr_left (g := id) hfresh, List.map_id, h.found]
  · rw [rows, hrows]
    exact hdistinct
  · show List.map Prod.fst (_ ++ _) = _
    rw [List.map_append, h.numbered, hfst, List.length_append, List.length_map, List.length_zipIdx,
      List.range_eq_range', List.range_eq_range', ← List.range'_append_1, List.map_append, Nat.zero_add]
  · show s.acked ⊆ List.map Prod.fst (_ ++ _)
    rw [List.map_append]
    exact List.subset_append_of_subset_left _ h.known
  · rcases List.mem_append.1 he with he | he
    · exact h.acknowledged e he
    · obtain ⟨⟨a, i⟩, hai, rfl⟩ := List.mem_map.1 he
      obtain ⟨hi, -, ha⟩ := List.mem_zipIdx hai
      refine iff_of_false ?_ fun hacked ↦ ?_
      · have hnew : a.fresh = a := hfresh a (ha ▸ List.getElem_mem _)
        rw [← hnew]
        exact Bool.false_ne_true
      · have hknown := h.known hacked
        rw [h.numbered] at hknown
        obtain ⟨j, hj, hji⟩ := List.mem_map.1 hknown
        exact absurd (List.mem_range.1 hj) (not_lt.2 (ids.increasing.injective hji ▸ hi))

/-- An id that is not there is not acknowledged. -/
theorem Inv.ack (h : s.Inv ids) (id : ℤ) :
    Inv ids { (s.ackAnomaly id).1 with acked := s.acked ++ if (s.ackAnomaly id).2 then [id] else [] } := by
  have hfst : (s.entries.map (ackRow id)).map Prod.fst = s.entries.map Prod.fst := by
    rw [List.map_map]
    exact List.map_congr_left fun e _ ↦ fst_ackRow id e
  have hmem : ∀ i, i ∈ (s.acked ++ if (s.ackAnomaly id).2 then [id] else []) ↔
      i ∈ s.acked ∨ i = id ∧ id ∈ s.entries.map Prod.fst := by
    intro i
    have hany : (s.ackAnomaly id).2 = true ↔ id ∈ s.entries.map Prod.fst := by
      simp [ackAnomaly]
    rw [List.mem_append]
    split_ifs with hthere
    · rw [List.mem_singleton, and_iff_left (hany.1 hthere)]
    · simp [mt hany.2 hthere]
  refine ⟨?_, ?_, ?_, fun i hi ↦ ?_, fun e he ↦ ?_⟩
  · have hrows : ((s.entries.map (ackRow id)).map Prod.snd).map Anomaly.fresh = s.rows.map Anomaly.fresh := by
      rw [rows, List.map_map, List.map_map, List.map_map]
      exact List.map_congr_left fun e _ ↦ fresh_ackRow id e
    exact h.found.trans hrows.symm
  · have hdistinct := List.pairwise_map.1 h.distinct
    exact List.pairwise_map.2 (List.pairwise_map.2 (hdistinct.imp fun hne ↦ mt (same_ackRow_iff id _ _).1 hne))
  · show (s.entries.map (ackRow id)).map Prod.fst = (List.range (s.entries.map (ackRow id)).length).map ids.id
    rw [hfst, List.length_map, h.numbered]
  · show i ∈ (s.entries.map (ackRow id)).map Prod.fst
    rw [hfst]
    rcases (hmem i).1 hi with hi | ⟨rfl, hi⟩
    · exact h.known hi
    · exact hi
  · obtain ⟨d, hd, rfl⟩ := List.mem_map.1 he
    rw [acknowledged_ackRow_iff, fst_ackRow, hmem, h.acknowledged d hd]
    exact or_congr_right (and_iff_left_of_imp fun hid ↦ hid ▸ List.mem_map_of_mem hd).symm

variable [Field K] [LinearOrder K] {ar : RootArith K}

theorem Inv.next (h : s.Inv ids) (step : AnomalyStep) : (s.next ar ids step).Inv ids := by
  cases step with
  | scan usage now =>
    obtain ⟨new, hscan, hfresh, hdistinct⟩ := dailyAnomalyScan_eq ar usage now s.rows
    have hinv := h.insert hfresh (hdistinct h.distinct)
    rw [AnomalyLog.next, hscan]
    exact hinv
  | ack id => exact h.ack id

end Invariant

/-! ### What the dashboard shows -/

section Active

variable {K : Type*} (s : AnomalyLog K)

/-- The rows that are not acknowledged are shown, the newest first, and only when there are more than twenty some of
the oldest are not. -/
structure ShowsUnacknowledged : Prop where
  sound : ∀ e ∈ s.getActiveAnomalies, e ∈ s.entries ∧ e.1 ∉ s.acked
  newestFirst : s.getActiveAnomalies.Pairwise fun d e ↦ e.2.ts ≤ d.2.ts
  complete : ∀ e ∈ s.entries, e.1 ∉ s.acked → e ∈ s.getActiveAnomalies ∨
    s.getActiveAnomalies.length = 20 ∧ ∀ d ∈ s.getActiveAnomalies, e.2.ts ≤ d.2.ts

variable {s}

theorem showsUnacknowledged (h : ∀ e ∈ s.entries, e.2.acknowledged = true ↔ e.1 ∈ s.acked) :
    s.ShowsUnacknowledged := by
  have hsorted : ((s.entries.filter fun e ↦ !e.2.acknowledged).insertionSort fun d e ↦ e.2.ts ≤ d.2.ts).Pairwise
      fun d e ↦ e.2.ts ≤ d.2.ts := by
    have hrank (d e : ℤ × Anomaly K) : e.2.ts ≤ d.2.ts ↔ -d.2.ts ≤ -e.2.ts := neg_le_neg_iff.symm
    exact (StableSort.pairwise_rank_insertionSort hrank _).imp fun {d e} hle ↦ (hrank d e).2 hle
  have hmem : ∀ e, e ∈ ((s.entries.filter fun e ↦ !e.2.acknowledged).insertionSort fun d e ↦ e.2.ts ≤ d.2.ts) ↔
      e ∈ s.entries ∧ e.1 ∉ s.acked := by
    intro e
    rw [List.mem_insertionSort, List.mem_filter, Bool.not_eq_true', ← Bool.not_eq_true]
    exact and_congr_right fun he ↦ not_congr (h e he)
  refine ⟨fun e he ↦ (hmem e).1 (List.mem_of_mem_take he), hsorted.sublist (List.take_sublist _ _), fun e he hid ↦ ?_⟩
  exact LogWindow.mem_take_or hsorted ((hmem e).2 ⟨he, hid⟩) 20

end Active

end AnomalyLog

/-- **The anomalies.** Over any run of scans, of whatever usage tables and at whatever times, and of acknowledgements: a
scan returns exactly the rows that it adds, so that an anomaly is reported when it is new and never again; there are no
two for one day of one id, and the keys under which they are announced are all different, whatever the ids have in them.
A row is acknowledged exactly if a request for its id has said so, and no scan undoes that. The dashboard shows the
others. -/
theorem anomalies_exec {K : Type*} [Field K] [LinearOrder K] (ar : RootArith K) (ids : RowIds) (date : DateText)
    (steps : List AnomalyStep) :
    let s := exec (AnomalyLog.next ar ids) AnomalyLog.empty steps
    s.found = s.rows.map Anomaly.fresh ∧ (s.rows.Pairwise fun a b ↦ ¬ a.Same b) ∧
      (s.found.map fun a ↦ a.dedupKey date).Nodup ∧ (s.entries.map Prod.fst).Pairwise (· < ·) ∧
      (∀ e ∈ s.entries, e.2.acknowledged = true ↔ e.1 ∈ s.acked) ∧ s.ShowsUnacknowledged := by
  intro s
  have hinv : s.Inv ids :=
    exec_invariant' (fun _ (s : AnomalyLog K) ↦ s.Inv ids) AnomalyLog.inv_empty (fun _ _ step h ↦ h.next step) steps
  refine ⟨hinv.found, hinv.distinct, ?_, ?_, hinv.acknowledged, AnomalyLog.showsUnacknowledged hinv.acknowledged⟩
  · rw [hinv.found, List.map_map]
    exact List.pairwise_map.2 (hinv.distinct.imp fun hne hkey ↦ hne (Anomaly.dedupKey_inj hkey))
  · rw [hinv.numbered]
    exact List.pairwise_map.2 (List.pairwise_lt_range.imp fun hlt ↦ ids.increasing hlt)

end LocalGateway
