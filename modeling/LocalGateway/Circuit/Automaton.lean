import LocalGateway.Circuit.Breaker

/-!
# The circuit breaker as an automaton

What `record_outcome` and `is_open` (`circuitbreaker.py`) promise to somebody who sees the calls:
which outcomes were recorded for a backend since its last success, and which of them tripped its
circuit. Times and products are exact; `recordOutcome_eq_exact` says when the registry computes the
same with floats.

* `Watched`: the registry, next to the log of the outcomes recorded in it.
* `OpenAt`: the window of the trips since the last success is not over.
* `Watched.Agrees`: the invariant, that each circuit stores what the log says of its backend.
* `every_refines`: the registry answers and trips as the log demands.
-/

namespace LocalGateway

open Py

namespace Breaker

variable (s : Breaker)

/-- `record_outcome` with an exact product. -/
def recordExact (key : PyStr) (success : Bool) (error : Option PyStr) (now wall : ℚ) :
    Breaker × Bool :=
  let c := s.get key
  if success then
    (s.set key { c with consecutiveFailures := 0, trips := 0, openUntil := 0 }, false)
  else
    let failed := { c with
      consecutiveFailures := c.consecutiveFailures + 1
      lastError := some ((error.getD []).take 300) }
    if s.trips key now then
      let tripped := { failed with trips := c.trips + 1 }
      (s.set key { tripped with
        openUntil := now + s.backoff.window tripped.trips
        lastTripTs := some wall }, true)
    else (s.set key failed, false)

end Breaker

/-! ### What is seen of the calls -/

/-- What is seen of a call of `record_outcome`. -/
structure Recorded where
  key : PyStr
  success : Bool
  time : ℚ
  tripped : Bool

/-- The outcomes of a backend since its last success. The newest outcome of the log is its first. -/
def since (key : PyStr) (log : List Recorded) : List Recorded :=
  (log.filter (·.key = key)).takeWhile (!·.success)

/-- The trips of a backend since its last success. -/
def tripsSince (key : PyStr) (log : List Recorded) : ℕ :=
  (since key log).countP (·.tripped)

/-- Some outcome since the last success tripped the circuit, and the window of the trips since then,
counted from that outcome, is not over. -/
def OpenAt (backoff : Backoff) (log : List Recorded) (key : PyStr) (t : ℚ) : Prop :=
  ∃ o ∈ since key log, o.tripped = true ∧ t < o.time + backoff.window (tripsSince key log)

instance (backoff : Backoff) (log : List Recorded) (key : PyStr) (t : ℚ) :
    Decidable (OpenAt backoff log key t) :=
  inferInstanceAs (Decidable (∃ o ∈ since key log, _))

/-- A failure of the backend is one too many, and it falls outside any open window. -/
def Trips (config : Breaker) (log : List Recorded) (key : PyStr) (t : ℚ) : Prop :=
  config.threshold ≤ (since key log).length + 1 ∧ ¬ OpenAt config.backoff log key t

instance (config : Breaker) (log : List Recorded) (key : PyStr) (t : ℚ) :
    Decidable (Trips config log key t) :=
  inferInstanceAs (Decidable (_ ∧ _))

/-- A call of the module, at a time of its clock. -/
inductive TimedCall where
  | record (key : PyStr) (success : Bool) (error : Option PyStr) (now wall : ℚ)
  | isOpen (key : PyStr) (now : ℚ)

/-- The reading of `time.monotonic()` in a call. -/
def TimedCall.time : TimedCall → ℚ
  | .record _ _ _ now _ => now
  | .isOpen _ now => now

/-- The automaton. Its state is the log, and the log alone decides which failures trip a circuit. -/
def automaton (config : Breaker) (log : List Recorded) : TimedCall → List Recorded
  | .record key success _ now _ =>
    ⟨key, success, now, !success && decide (Trips config log key now)⟩ :: log
  | .isOpen .. => log

/-- The registry and the log of its outcomes. -/
structure Watched where
  breaker : Breaker
  log : List Recorded

namespace Watched

/-- An enabled breaker before its first call. -/
def start (threshold : ℤ) (backoff : PyFloat) : Watched :=
  ⟨Breaker.initial.configure true threshold backoff, []⟩

/-- After a call. `is_open` changes nothing. -/
def next (w : Watched) : TimedCall → Watched
  | .record key success error now wall =>
    let after := w.breaker.recordExact key success error now wall
    ⟨after.1, ⟨key, success, now, after.2⟩ :: w.log⟩
  | .isOpen .. => w

/-- A call does as the log demands: `is_open` tells whether a window is open, `record_outcome` trips
the circuit if it should, and a failure in an open window does not move the end of the window. -/
def Refines (config : Breaker) (w : Watched) : TimedCall → Prop
  | .isOpen key now => w.breaker.isOpen now key = true ↔ OpenAt config.backoff w.log key now
  | .record key success error now wall =>
    let after := w.breaker.recordExact key success error now wall
    (after.2 = true ↔ success = false ∧ Trips config w.log key now) ∧
      (success = false → OpenAt config.backoff w.log key now →
        ∀ t, after.1.isOpen t key = w.breaker.isOpen t key)

end Watched

/-! ### The end of the window -/

theorem Backoff.window_pos (b : Backoff) (k : ℕ) : 0 < b.window k := by
  have hmax : 0 < maxBackoff := by decide +kernel
  unfold Backoff.window
  rcases b.valid with hb | ⟨q, hb, hq⟩
  · rw [hb]
    exact hmax
  · rw [hb]
    have hpos : 0 < q := lt_of_lt_of_le (by decide +kernel) hq
    exact lt_min (mul_pos hpos (pow_pos two_pos _)) hmax

/-- What the log says of the end of the window: it is counted from the newest trip. -/
def deadline (backoff : Backoff) (log : List Recorded) (key : PyStr) : ℚ :=
  match (since key log).find? (·.tripped) with
  | none => 0
  | some o => o.time + backoff.window (tripsSince key log)

section Log

variable {log : List Recorded} {o : Recorded} {key : PyStr}

theorem since_cons_of_ne (h : o.key ≠ key) : since key (o :: log) = since key log := by
  rw [since, List.filter_cons_of_neg (by simpa using h), since]

theorem since_cons_success (h : o.key = key) (hs : o.success = true) : since key (o :: log) = [] := by
  rw [since, List.filter_cons_of_pos (by simpa using h), List.takeWhile_cons_of_neg (by simp [hs])]

theorem since_cons_failure (h : o.key = key) (hs : o.success = false) :
    since key (o :: log) = o :: since key log := by
  rw [since, List.filter_cons_of_pos (by simpa using h), List.takeWhile_cons_of_pos (by simp [hs]),
    since]

theorem since_sublist (key : PyStr) (log : List Recorded) : (since key log).Sublist log :=
  (List.takeWhile_sublist _).trans List.filter_sublist

theorem deadline_of_find?_none {backoff : Backoff} (h : (since key log).find? (·.tripped) = none) :
    deadline backoff log key = 0 := by
  rw [deadline, h]

theorem deadline_of_find?_some {backoff : Backoff}
    (h : (since key log).find? (·.tripped) = some o) :
    deadline backoff log key = o.time + backoff.window (tripsSince key log) := by
  rw [deadline, h]

/-- Of a log in the order of time, only the newest trip decides whether the window is open. -/
theorem openAt_iff {backoff : Backoff} {t : ℚ} (hsorted : log.Pairwise fun o p ↦ p.time ≤ o.time)
    (hpos : ∀ o ∈ log, 0 ≤ o.time) :
    OpenAt backoff log key t ↔ 0 < deadline backoff log key ∧ t < deadline backoff log key := by
  rcases hfind : (since key log).find? (·.tripped) with - | o
  · rw [deadline_of_find?_none hfind]
    rw [List.find?_eq_none] at hfind
    refine iff_of_false ?_ fun h ↦ lt_irrefl _ h.1
    rintro ⟨o, ho, htripped, -⟩
    exact hfind o ho htripped
  · rw [deadline_of_find?_some hfind]
    have ho : o ∈ since key log := List.mem_of_find?_eq_some hfind
    have hend : 0 < o.time + backoff.window (tripsSince key log) :=
      add_pos_of_nonneg_of_pos (hpos o ((since_sublist key log).subset ho)) (backoff.window_pos _)
    obtain ⟨htripped, newer, older, hsplit, hnewer⟩ := List.find?_eq_some_iff_append.1 hfind
    refine ⟨?_, fun h ↦ ⟨o, ho, htripped, h.2⟩⟩
    rintro ⟨p, hp, hptripped, hlt⟩
    -- a trip is the newest one or older
    have hle : p.time ≤ o.time := by
      have hpair := hsorted.sublist (since_sublist key log)
      rw [hsplit, List.pairwise_append, List.pairwise_cons] at hpair
      rw [hsplit, List.mem_append, List.mem_cons] at hp
      rcases hp with hp | rfl | hp
      · have hno := hnewer p hp
        rw [hptripped] at hno
        exact absurd hno (by decide)
      · exact le_rfl
      · exact hpair.2.1.1 p hp
    exact ⟨hend, hlt.trans_le (by gcongr)⟩

end Log

/-! ### The registry after a call -/

namespace Breaker

variable {s : Breaker} {key k : PyStr} {error : Option PyStr} {now wall t : ℚ}

/-- As long as no circuit tripped too often for a float, the registry computes with floats what it
computes exactly. -/
theorem recordOutcome_eq_exact (success : Bool) (h : (s.get key).trips < PyFloat.maxExponent) :
    s.recordOutcome key success error now wall =
      ((s.recordExact key success error now wall).1,
        .returned (s.recordExact key success error now wall).2) := by
  unfold recordOutcome recordExact
  split_ifs
  · rfl
  · simp only [Nat.add_sub_cancel]
    rcases hscale : s.backoff.value.scale (s.get key).trips with - | x
    · exact absurd (scale_eq_none_iff.1 hscale) (not_le.2 h)
    · simp only [min_scale hscale]
  · rfl

theorem isOpen_iff_get (henabled : s.enabled = true) :
    s.isOpen t key = true ↔ 0 < (s.get key).openUntil ∧ t < (s.get key).openUntil := by
  rw [isOpen_iff, get]
  rcases s.circuits.lookup key with - | c
  · simp [henabled, Circuit.new]
  · simp [henabled]

theorem trips_iff (henabled : s.enabled = true) :
    s.trips key now = true ↔
      s.threshold ≤ (s.get key).consecutiveFailures + 1 ∧ (s.get key).openUntil ≤ now := by
  simp [trips, henabled]

theorem get_recordExact_of_ne (success : Bool) (h : key ≠ k) :
    (s.recordExact k success error now wall).1.get key = s.get key := by
  unfold recordExact
  split_ifs <;> exact get_set_of_ne _ h

/-- A call leaves the settings alone. -/
theorem settings_recordExact (s : Breaker) (k : PyStr) (success : Bool) (error : Option PyStr)
    (now wall : ℚ) :
    let after := (s.recordExact k success error now wall).1
    after.enabled = s.enabled ∧ after.threshold = s.threshold ∧ after.backoff = s.backoff := by
  unfold recordExact
  split_ifs <;> exact ⟨rfl, rfl, rfl⟩

theorem recordExact_success :
    s.recordExact key true error now wall =
      (s.set key { s.get key with consecutiveFailures := 0, trips := 0, openUntil := 0 }, false) :=
  rfl

theorem recordExact_failed (h : s.trips key now = false) :
    s.recordExact key false error now wall =
      (s.set key { s.get key with
        consecutiveFailures := (s.get key).consecutiveFailures + 1
        lastError := some ((error.getD []).take 300) }, false) := by
  simp [recordExact, h]

theorem recordExact_tripped (h : s.trips key now = true) :
    s.recordExact key false error now wall =
      (s.set key { s.get key with
        consecutiveFailures := (s.get key).consecutiveFailures + 1
        lastError := some ((error.getD []).take 300)
        trips := (s.get key).trips + 1
        openUntil := now + s.backoff.window ((s.get key).trips + 1)
        lastTripTs := some wall }, true) := by
  simp [recordExact, h]

end Breaker

/-! ### The circuits and the log -/

/-- A circuit stores what the log says of its backend. -/
structure Circuit.Tallies (backoff : Backoff) (log : List Recorded) (key : PyStr) (c : Circuit) :
    Prop where
  failures : c.consecutiveFailures = (since key log).length
  trips : c.trips = tripsSince key log
  deadline : c.openUntil = deadline backoff log key

namespace Circuit.Tallies

variable {backoff : Backoff} {log : List Recorded} {key : PyStr} {c : Circuit} {o : Recorded}

theorem new (backoff : Backoff) (key : PyStr) : Circuit.new.Tallies backoff [] key :=
  ⟨rfl, rfl, rfl⟩

/-- An outcome of another backend does not count. -/
theorem other (h : c.Tallies backoff log key) (ho : o.key ≠ key) :
    c.Tallies backoff (o :: log) key := by
  have hsince : since key (o :: log) = since key log := since_cons_of_ne ho
  constructor
  · rw [hsince, h.failures]
  · rw [tripsSince, hsince, h.trips, tripsSince]
  · rw [h.deadline, LocalGateway.deadline, LocalGateway.deadline, tripsSince, tripsSince, hsince]

theorem success (ho : o.key = key) (hs : o.success = true) :
    Circuit.Tallies backoff (o :: log) key
      { c with consecutiveFailures := 0, trips := 0, openUntil := 0 } := by
  have hsince : since key (o :: log) = [] := since_cons_success ho hs
  constructor
  · rw [hsince, List.length_nil]
  · rw [tripsSince, hsince, List.countP_nil]
  · rw [LocalGateway.deadline, hsince, List.find?_nil]

/-- A failure that does not trip the circuit leaves the end of the window alone. -/
theorem failed (h : c.Tallies backoff log key) (ho : o.key = key) (hs : o.success = false)
    (ht : o.tripped = false) (error : Option PyStr) :
    Circuit.Tallies backoff (o :: log) key
      { c with consecutiveFailures := c.consecutiveFailures + 1, lastError := error } := by
  have hsince : since key (o :: log) = o :: since key log := since_cons_failure ho hs
  have htrips : tripsSince key (o :: log) = tripsSince key log := by
    rw [tripsSince, hsince, List.countP_cons_of_neg (by simp [ht]), tripsSince]
  constructor
  · rw [hsince, List.length_cons, h.failures]
  · rw [htrips, h.trips]
  · show c.openUntil = _
    rw [h.deadline, LocalGateway.deadline, LocalGateway.deadline, htrips, hsince,
      List.find?_cons_of_neg (by simp [ht])]

/-- A trip opens the window of its number. -/
theorem tripped (h : c.Tallies backoff log key) (ho : o.key = key) (hs : o.success = false)
    (ht : o.tripped = true) (error : Option PyStr) (wall : Option ℚ) :
    Circuit.Tallies backoff (o :: log) key
      { c with
        consecutiveFailures := c.consecutiveFailures + 1
        lastError := error
        trips := c.trips + 1
        openUntil := o.time + backoff.window (c.trips + 1)
        lastTripTs := wall } := by
  have hsince : since key (o :: log) = o :: since key log := since_cons_failure ho hs
  have htrips : tripsSince key (o :: log) = tripsSince key log + 1 := by
    rw [tripsSince, hsince, List.countP_cons_of_pos ht, tripsSince]
  have hfind : (since key (o :: log)).find? (·.tripped) = some o := by
    rw [hsince, List.find?_cons_of_pos ht]
  constructor
  · rw [hsince, List.length_cons, h.failures]
  · rw [htrips, h.trips]
  · rw [deadline_of_find?_some hfind, htrips, h.trips]

end Circuit.Tallies

namespace Watched

/-- The registry has the settings it started with, the log is in the order of time, and the circuits
agree with the log. -/
structure Agrees (config : Breaker) (past : List TimedCall) (w : Watched) : Prop where
  enabled : w.breaker.enabled = true
  threshold : w.breaker.threshold = config.threshold
  backoff : w.breaker.backoff = config.backoff
  sorted : w.log.Pairwise fun o p ↦ p.time ≤ o.time
  nonneg : ∀ o ∈ w.log, 0 ≤ o.time
  past : ∀ o ∈ w.log, o.time ∈ past.map TimedCall.time
  circuits : ∀ key, (w.breaker.get key).Tallies config.backoff w.log key

variable {config : Breaker} {past : List TimedCall} {w : Watched} {key : PyStr} {now : ℚ}

theorem Agrees.isOpen_iff (h : w.Agrees config past) {t : ℚ} :
    w.breaker.isOpen t key = true ↔ OpenAt config.backoff w.log key t := by
  rw [Breaker.isOpen_iff_get h.enabled, openAt_iff h.sorted h.nonneg, (h.circuits key).deadline]

theorem Agrees.trips_iff (h : w.Agrees config past) (hnow : 0 ≤ now) :
    w.breaker.trips key now = true ↔ Trips config w.log key now := by
  rw [Breaker.trips_iff h.enabled, Trips, openAt_iff h.sorted h.nonneg, h.threshold,
    (h.circuits key).failures, (h.circuits key).deadline]
  refine and_congr_right fun _ ↦ ?_
  rw [not_and, not_lt]
  refine ⟨fun hle _ ↦ hle, fun himp ↦ ?_⟩
  rcases lt_or_ge 0 (deadline config.backoff w.log key) with hpos | hle
  · exact himp hpos
  · exact hle.trans hnow

/-- A call of an agreeing registry does as the log demands. -/
theorem Agrees.refines (h : w.Agrees config past) {call : TimedCall} (hnow : 0 ≤ call.time) :
    w.Refines config call := by
  rcases call with ⟨key, success, error, now, wall⟩ | ⟨key, now⟩
  · have htrips : w.breaker.trips key now = true ↔ Trips config w.log key now := h.trips_iff hnow
    rcases success with - | -
    · rcases htrip : w.breaker.trips key now with - | -
      · simp only [htrip, Bool.false_eq_true, false_iff] at htrips
        simp only [Refines, Breaker.recordExact_failed htrip]
        refine ⟨by simp [htrips], fun _ _ t ↦ ?_⟩
        rw [Bool.eq_iff_iff, Breaker.isOpen_iff_get h.enabled,
          Breaker.isOpen_iff_get (s := Breaker.set _ _ _) h.enabled, Breaker.get_set_self]
      · simp only [Refines, Breaker.recordExact_tripped htrip]
        have hyes := htrips.1 htrip
        exact ⟨by simp [hyes], fun _ hopen ↦ absurd hopen hyes.2⟩
    · simp [Refines, Breaker.recordExact_success]
  · exact h.isOpen_iff

/-- What is recorded for a backend is tallied in its circuit. -/
theorem Agrees.tallies_record (h : w.Agrees config past) (success : Bool) (error : Option PyStr)
    (now wall : ℚ) (k : PyStr) :
    let after := w.breaker.recordExact key success error now wall
    (after.1.get k).Tallies config.backoff (⟨key, success, now, after.2⟩ :: w.log) k := by
  intro after
  rcases eq_or_ne key k with rfl | hk
  · rcases success with - | -
    · rcases htrip : w.breaker.trips key now with - | -
      · simp only [after, Breaker.recordExact_failed htrip, Breaker.get_set_self]
        exact (h.circuits key).failed rfl rfl rfl _
      · simp only [after, Breaker.recordExact_tripped htrip, Breaker.get_set_self, h.backoff]
        exact (h.circuits key).tripped (o := ⟨key, false, now, true⟩) rfl rfl rfl _ _
    · simp only [after, Breaker.recordExact_success, Breaker.get_set_self]
      exact .success rfl rfl
  · rw [Breaker.get_recordExact_of_ne success hk.symm]
    exact (h.circuits k).other hk

theorem agrees_start (threshold : ℤ) (backoff : PyFloat) :
    (start threshold backoff).Agrees (start threshold backoff).breaker [] where
  enabled := rfl
  threshold := rfl
  backoff := rfl
  sorted := .nil
  nonneg := fun _ h ↦ absurd h List.not_mem_nil
  past := fun _ h ↦ absurd h List.not_mem_nil
  circuits := .new _

/-- A call that is not before the earlier ones keeps the registry in agreement with the log. -/
theorem Agrees.next (h : w.Agrees config past) {call : TimedCall}
    (hcall : Runs.Until TimedCall.time 0 past call.time) :
    (w.next call).Agrees config (past ++ [call]) := by
  have hpast : ∀ o ∈ w.log, o.time ∈ (past ++ [call]).map TimedCall.time := fun o ho ↦ by
    rw [List.map_append]
    exact List.mem_append_left _ (h.past o ho)
  rcases call with ⟨key, success, error, now, wall⟩ | ⟨key, now⟩
  · obtain ⟨henabled, hthreshold, hbackoff⟩ :=
      w.breaker.settings_recordExact key success error now wall
    have hle : ∀ o ∈ w.log, o.time ≤ now := fun o ho ↦ by
      obtain ⟨i, hi, htime⟩ := List.mem_map.1 (h.past o ho)
      exact htime ▸ hcall.2 i hi
    exact {
      enabled := henabled.trans h.enabled
      threshold := hthreshold.trans h.threshold
      backoff := hbackoff.trans h.backoff
      sorted := List.pairwise_cons.2 ⟨hle, h.sorted⟩
      nonneg := List.forall_mem_cons.2 ⟨hcall.1, h.nonneg⟩
      past := List.forall_mem_cons.2 ⟨by simp [TimedCall.time], hpast⟩
      circuits := h.tallies_record success error now wall }
  · exact { h with past := hpast }

/-- After a run at times that do not go back, the registry agrees with its log. -/
theorem agrees_exec (threshold : ℤ) (backoff : PyFloat) {calls : List TimedCall}
    (h : Runs.Timed TimedCall.time 0 calls) :
    (Runs.exec next (start threshold backoff) calls).Agrees (start threshold backoff).breaker
      calls :=
  Runs.exec_invariant_timed (fun past (w : Watched) ↦ w.Agrees _ past)
    (agrees_start threshold backoff) (fun _ _ _ hw hi ↦ hw.next hi) h

/-- The log of an agreeing registry grows like that of the automaton. -/
theorem Agrees.log_next (h : w.Agrees config past) {call : TimedCall} (hnow : 0 ≤ call.time) :
    (w.next call).log = automaton config w.log call := by
  rcases call with ⟨key, success, error, now, wall⟩ | ⟨key, now⟩
  · have htripped : (w.breaker.recordExact key success error now wall).2 =
        (!success && decide (Trips config w.log key now)) := by
      rw [Bool.eq_iff_iff, (h.refines hnow).1]
      simp
    simp only [Watched.next, automaton, htripped]
  · rfl

/-- Over a run, the registry and the automaton see the same trips. -/
theorem log_exec (threshold : ℤ) (backoff : PyFloat) {calls : List TimedCall}
    (h : Runs.Timed TimedCall.time 0 calls) :
    (Runs.exec next (start threshold backoff) calls).log =
      Runs.exec (automaton (start threshold backoff).breaker) [] calls := by
  induction calls using List.reverseRecOn with
  | nil => rfl
  | append_singleton calls call ih =>
    obtain ⟨hcalls, hcall⟩ := Runs.timed_concat_iff.1 h
    rw [Runs.exec_concat, Runs.exec_concat, (agrees_exec threshold backoff hcalls).log_next hcall.1,
      ih hcalls]

/-- **The breaker refines its automaton.** With any settings, enabled, and in any run of calls at
times that do not go back: `is_open` tells whether a window of the trips since the last success is
open, a call trips its circuit exactly if it is a failure too many outside any open window, and a
failure in an open window does not move the end of the window. -/
theorem every_refines (threshold : ℤ) (backoff : PyFloat) {calls : List TimedCall}
    (h : Runs.Timed TimedCall.time 0 calls) :
    Runs.Every next (fun _ w call ↦ w.Refines (start threshold backoff).breaker call)
      (start threshold backoff) calls := by
  rintro past call future rfl
  have hcall : Runs.Until TimedCall.time 0 past call.time := h.until
  exact (agrees_exec threshold backoff (Runs.timed_append_left h)).refines hcall.1

/-- A trip, a failure in its window, and a half-open trial that trips again. -/
def retrial : List TimedCall :=
  [.record (py "p:m") false none 1 0, .record (py "p:m") false none 2 0,
    .record (py "p:m") false none 3 0, .isOpen (py "p:m") 61, .record (py "p:m") false none 62 0,
    .isOpen (py "p:m") 181, .isOpen (py "p:m") 182]

theorem every_refines_retrial :
    Runs.Timed TimedCall.time 0 retrial ∧
      Runs.Every next (fun _ w call ↦ w.Refines (start 2 (.fin 60)).breaker call)
        (start 2 (.fin 60)) retrial :=
  ⟨by decide +kernel, every_refines 2 (.fin 60) (by decide +kernel)⟩

/-- The windows of the two trips last one minute and two. -/
example :
    let w := Runs.exec next (start 2 (.fin 60)) retrial
    w.log.map (·.tripped) = [true, false, true, false] ∧
      w.breaker.isOpen 181 (py "p:m") = true ∧ w.breaker.isOpen 182 (py "p:m") = false := by
  decide +kernel

end Watched

end LocalGateway
