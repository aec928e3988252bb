import LocalGateway.Foundations.Runs
import LocalGateway.Routing.Candidates
import LocalGateway.Snooze.RateLimit

/-!
# The circuit breaker

The registry of circuits of one process (`circuitbreaker.py`). A backend that fails `threshold`
times in a row trips its circuit, which stays open for a window that doubles with each consecutive
trip. The window is the smaller of the doubled backoff and `MAX_BACKOFF_S`, but the product is
computed first, and Python refuses to convert a factor from `2 ** 1024` on to a float.

Times are rational numbers of seconds; the rounding of `float` is left out.

* `consecutiveTrips`: an observer that counts the trips of a backend since its last success.
* `Breaker.Counted`: the invariant, that the stored numbers of trips are those of the observer.
* `recordOutcome_keeps_window_iff`: the k-th trip opens the window it should for k up to 1024.
-/

/-! ### Products with a power of two -/

namespace PyFloat

/-- `sys.float_info.max_exp`. -/
def maxExponent : ℕ :=
  1024

/-- The numbers from here on have no float. -/
def limit : ℕ :=
  2 ^ maxExponent

/-- `x * 2 ** n`. The product is exact, and infinite from the limit on; `none` is the
`OverflowError` of the conversion of the factor. -/
def scale (x : PyFloat) (n : ℕ) : Option PyFloat :=
  if limit ≤ 2 ^ n then none
  else
    some <| match x with
      | .fin q => if limit ≤ |q| * 2 ^ n then .inf (q < 0) else .fin (q * 2 ^ n)
      | x => x

/-- `min(a, b)`. -/
def min (a b : PyFloat) : PyFloat :=
  if lt b a then b else a

end PyFloat

namespace LocalGateway

open Py

/-! ### The registry -/

/-- `_Circuit`. -/
structure Circuit where
  consecutiveFailures : ℕ
  openUntil : ℚ
  trips : ℕ
  lastError : Option PyStr
  lastTripTs : Option ℚ
deriving DecidableEq

/-- `_Circuit()`. -/
def Circuit.new : Circuit :=
  ⟨0, 0, 0, none, none⟩

/-- `0.05`, the double. -/
def minBackoff : ℚ :=
  3602879701896397 / 72057594037927936

/-- The base of the backoff: a finite number that is not too small, or infinity. -/
structure Backoff where
  value : PyFloat
  valid : value = .inf false ∨ ∃ q, value = .fin q ∧ minBackoff ≤ q

/-- `max(0.05, float(x or 60.0))`; a `nan` is not greater than anything. -/
def Backoff.ofFloat (x : PyFloat) : Backoff where
  value := (PyFloat.fin minBackoff).max (x.orElse (.fin 60))
  valid := by
    unfold PyFloat.max
    split_ifs with h
    · cases hx : x.orElse (.fin 60) with
      | fin q =>
        rw [hx] at h
        exact .inr ⟨q, rfl, (of_decide_eq_true h).le⟩
      | negZero =>
        rw [hx] at h
        exact absurd h (by decide +kernel)
      | inf n =>
        cases n
        · exact .inl rfl
        · rw [hx] at h
          simp [PyFloat.lt] at h
      | nan =>
        rw [hx] at h
        simp [PyFloat.lt] at h
    · exact .inr ⟨minBackoff, rfl, le_rfl⟩

/-- The state of the module: its settings and its circuits. -/
structure Breaker where
  enabled : Bool
  threshold : ℕ
  backoff : Backoff
  circuits : List (PyStr × Circuit)

/-- The module after its import. -/
def Breaker.initial : Breaker :=
  ⟨false, 3, .ofFloat (.fin 60), []⟩

/-- `MAX_BACKOFF_S`. -/
def maxBackoff : ℚ :=
  1800

namespace Breaker

variable (s : Breaker)

/-- `configure`. -/
def configure (enabled : Bool) (threshold : ℤ) (backoff : PyFloat) : Breaker :=
  { s with
    enabled
    threshold := (max 1 (if threshold = 0 then 3 else threshold)).toNat
    backoff := .ofFloat backoff }

/-- `_get`, without the entry it may add. -/
def get (key : PyStr) : Circuit :=
  (s.circuits.lookup key).getD .new

/-- `_circuits[key] = c`. -/
def set (key : PyStr) (c : Circuit) : Breaker :=
  { s with circuits := (key, c) :: s.circuits.filter (·.1 ≠ key) }

/-- A failure of the backend at this time trips its circuit. -/
def trips (key : PyStr) (now : ℚ) : Bool :=
  s.enabled && s.threshold ≤ (s.get key).consecutiveFailures + 1 && (s.get key).openUntil ≤ now

/-- How `record_outcome` ends: it returns whether the circuit tripped, or raises. -/
inductive Result where
  | returned (tripped : Bool)
  | overflow
deriving DecidableEq

/-- `record_outcome`. What was assigned before the exception stays assigned. -/
def recordOutcome (key : PyStr) (success : Bool) (error : Option PyStr) (now wall : ℚ) :
    Breaker × Result :=
  let c := s.get key
  if success then
    (s.set key { c with consecutiveFailures := 0, trips := 0, openUntil := 0 }, .returned false)
  else
    let failed := { c with
      consecutiveFailures := c.consecutiveFailures + 1
      lastError := some ((error.getD []).take 300) }
    if s.trips key now then
      let tripped := { failed with trips := c.trips + 1 }
      match s.backoff.value.scale (tripped.trips - 1) with
      -- an integer power that no float can hold raises, with the trip counted already
      | none => (s.set key tripped, .overflow)
      | some product =>
        (s.set key { tripped with
          openUntil := now + (product.min (.fin maxBackoff)).rat
          lastTripTs := some wall }, .returned true)
    else (s.set key failed, .returned false)

/-- `is_open`. -/
def isOpen (now : ℚ) (key : PyStr) : Bool :=
  s.enabled &&
    match s.circuits.lookup key with
    | none => false
    | some c => 0 < c.openUntil && now < c.openUntil

/-- `reset` of one backend, or of all. -/
def reset : Option PyStr → Breaker
  | some key => { s with circuits := s.circuits.filter (·.1 ≠ key) }
  | none => { s with circuits := [] }

end Breaker

/-! ### The snapshot -/

/-- An entry of `snapshot` of the circuits. -/
structure CircuitReport where
  consecutiveFailures : ℕ
  opened : Bool
  openRemaining : ℚ
  trips : ℕ
  lastError : Option PyStr
  lastTripTs : Option ℚ
deriving DecidableEq

/-- The entry of a circuit. -/
def Circuit.report (c : Circuit) (enabled : Bool) (now : ℚ) : CircuitReport :=
  let openRemaining := if now < c.openUntil then max 0 (c.openUntil - now) else 0
  { consecutiveFailures := c.consecutiveFailures
    opened := enabled && 0 < openRemaining
    openRemaining := PyFloat.roundTo 1 openRemaining
    trips := c.trips
    lastError := c.lastError
    lastTripTs := c.lastTripTs }

/-- `snapshot` of the circuits. -/
def Breaker.snapshot (b : Breaker) (now : ℚ) : List (PyStr × CircuitReport) :=
  b.circuits.map fun e ↦ (e.1, e.2.report b.enabled now)

/-! ### Runs -/

/-- A call of the module. -/
inductive BreakerCall where
  | configure (enabled : Bool) (threshold : ℤ) (backoff : PyFloat)
  | record (key : PyStr) (success : Bool) (error : Option PyStr) (now wall : ℚ)
  | reset (key : Option PyStr)

/-- The registry after a call. -/
def Breaker.next (s : Breaker) : BreakerCall → Breaker
  | .configure enabled threshold backoff => s.configure enabled threshold backoff
  | .record key success error now wall => (s.recordOutcome key success error now wall).1
  | .reset key => s.reset key

/-- The call ends the sequence of consecutive trips of a backend. -/
def BreakerCall.closes (key : PyStr) : BreakerCall → Bool
  | .configure .. => false
  | .record k success .. => success && k = key
  | .reset k => k.all (· = key)

/-- The call is a failure of the backend that trips its circuit. -/
def BreakerCall.trips (s : Breaker) (key : PyStr) : BreakerCall → Bool
  | .record k success _ now _ => !success && k = key && s.trips key now
  | _ => false

/-- The trips of a backend, in a run from the given state, since its circuit was last closed. -/
def consecutiveTrips (key : PyStr) (s : Breaker) (calls : List BreakerCall) : ℕ :=
  (calls.foldl (fun (n, s) call ↦
    (if call.closes key then 0 else if call.trips s key then n + 1 else n, s.next call)) (0, s)).1

/-- The window of the `k`-th consecutive trip. -/
def Backoff.window (b : Backoff) (k : ℕ) : ℚ :=
  match b.value with
  | .fin q => min (q * 2 ^ (k - 1)) maxBackoff
  | _ => maxBackoff

/-- The call does not raise, and if it is the `k`-th consecutive trip of its backend in a run, it
opens the window of the `k`-th trip. -/
def KeepsWindow (past : List BreakerCall) (s : Breaker) : BreakerCall → Prop
  | .record key success error now wall =>
    let after := s.recordOutcome key success error now wall
    after.2 ≠ .overflow ∧
      (success = false → s.trips key now →
        (after.1.get key).openUntil =
          now + s.backoff.window (consecutiveTrips key .initial past + 1))
  | _ => True

/-- If the call trips a circuit, it is among the first 1024 of the consecutive trips. -/
def TripsEarly (past : List BreakerCall) (s : Breaker) : BreakerCall → Prop
  | .record key success _ now _ =>
    success = false → s.trips key now → consecutiveTrips key .initial past < PyFloat.maxExponent
  | _ => True

/-! ### Products that do not overflow -/

theorem limit_le_iff {n : ℕ} : PyFloat.limit ≤ 2 ^ n ↔ PyFloat.maxExponent ≤ n := by
  unfold PyFloat.limit
  exact Nat.pow_le_pow_iff_right (by decide)

theorem scale_eq_none_iff {x : PyFloat} {n : ℕ} : x.scale n = none ↔ PyFloat.maxExponent ≤ n := by
  rw [← limit_le_iff]
  unfold PyFloat.scale
  split_ifs with h
  · exact iff_of_true rfl h
  · exact iff_of_false id h

/-- The capped product is the window. -/
theorem min_scale {b : Backoff} {n : ℕ} {x : PyFloat} (h : b.value.scale n = some x) :
    (x.min (.fin maxBackoff)).rat = b.window (n + 1) := by
  unfold PyFloat.scale at h
  split_ifs at h
  obtain rfl := Option.some.inj h
  unfold Backoff.window
  rcases b.valid with hb | ⟨q, hb, hq⟩
  · rw [hb]
    rfl
  · have hpos : 0 ≤ q := le_trans (by decide +kernel) hq
    rw [hb, Nat.add_sub_cancel]
    simp only [abs_of_nonneg hpos]
    split_ifs with hbig
    · -- an infinite product is capped, and so is the exact one
      rw [min_eq_right (le_trans (by decide +kernel) hbig), decide_eq_false (not_lt.2 hpos)]
      rfl
    · show PyFloat.rat (if decide (maxBackoff < q * 2 ^ n) = true then _ else _) = _
      simp only [decide_eq_true_eq]
      split_ifs with hlt
      · exact (min_eq_right hlt.le).symm
      · exact (min_eq_left (not_lt.1 hlt)).symm

theorem Backoff.window_le (b : Backoff) (k : ℕ) : b.window k ≤ maxBackoff := by
  unfold Backoff.window
  split
  · exact min_le_right _ _
  · exact le_rfl

/-! ### The circuits after a call -/

namespace Breaker

variable {s : Breaker} {key k : PyStr}

@[simp] theorem get_set_self (c : Circuit) : (s.set key c).get key = c := by
  simp [get, set]

theorem get_set_of_ne (c : Circuit) (h : key ≠ k) : (s.set k c).get key = s.get key := by
  have hne : (key == k) = false := by simpa using h
  rw [get, set, List.lookup_cons, hne, lookup_filter_ne h, get]

@[simp] theorem get_reset_self : (s.reset (some key)).get key = .new := by
  have hnone : (s.circuits.filter (·.1 ≠ key)).lookup key = none := by
    rw [List.lookup_eq_none_iff]
    intro e he
    have hne : e.1 ≠ key := by simpa using (List.mem_filter.1 he).2
    simpa using hne.symm
  rw [reset, get, hnone]
  rfl

theorem get_reset_of_ne (h : key ≠ k) : (s.reset (some k)).get key = s.get key := by
  rw [reset, get, lookup_filter_ne h, get]

theorem isOpen_iff {now : ℚ} :
    s.isOpen now key = true ↔
      s.enabled = true ∧ ∃ c, s.circuits.lookup key = some c ∧ 0 < c.openUntil ∧ now < c.openUntil := by
  unfold isOpen
  rw [Bool.and_eq_true]
  refine and_congr_right fun _ ↦ ?_
  rcases s.circuits.lookup key with - | c <;> simp

/-- A circuit that is not open stays so while nothing is recorded. -/
theorem isOpen_mono (s : Breaker) {now later : ℚ} (h : now ≤ later) (key : PyStr)
    (hclosed : s.isOpen now key = false) : s.isOpen later key = false := by
  rw [← Bool.not_eq_true, isOpen_iff] at hclosed ⊢
  rintro ⟨henabled, c, hc, hpos, hlt⟩
  exact hclosed ⟨henabled, c, hc, hpos, h.trans_lt hlt⟩

section Record

variable {error : Option PyStr} {now wall : ℚ}

/-- A call for one backend leaves the circuits of the others alone. -/
theorem get_recordOutcome_of_ne (success : Bool) (h : key ≠ k) :
    ((s.recordOutcome k success error now wall).1.get key) = s.get key := by
  unfold recordOutcome
  split_ifs
  · exact get_set_of_ne _ h
  · simp only
    split <;> exact get_set_of_ne _ h
  · exact get_set_of_ne _ h

/-- A call leaves the settings alone. -/
theorem settings_recordOutcome (s : Breaker) (k : PyStr) (success : Bool) (error : Option PyStr)
    (now wall : ℚ) :
    (s.recordOutcome k success error now wall).1.enabled = s.enabled ∧
      (s.recordOutcome k success error now wall).1.threshold = s.threshold := by
  unfold recordOutcome
  split_ifs
  · exact ⟨rfl, rfl⟩
  · simp only
    split <;> exact ⟨rfl, rfl⟩
  · exact ⟨rfl, rfl⟩

/-- A success closes the circuit. -/
theorem trips_get_success :
    ((s.recordOutcome key true error now wall).1.get key).trips = 0 := by
  simp [recordOutcome]

/-- A failure that trips the circuit is counted, whether or not the call raises. -/
theorem trips_get_tripped (h : s.trips key now = true) :
    ((s.recordOutcome key false error now wall).1.get key).trips = (s.get key).trips + 1 := by
  simp only [recordOutcome, h, Bool.false_eq_true, if_false, if_true]
  split <;> simp

/-- A failure that does not trip it is not. -/
theorem trips_get_failed (h : s.trips key now = false) :
    ((s.recordOutcome key false error now wall).1.get key).trips = (s.get key).trips := by
  simp [recordOutcome, h]

/-- Every failure is counted, and a success clears the count. -/
theorem failures_get_recordOutcome (success : Bool) :
    ((s.recordOutcome key success error now wall).1.get key).consecutiveFailures =
      if success then 0 else (s.get key).consecutiveFailures + 1 := by
  unfold recordOutcome
  split_ifs
  · rw [get_set_self]
  · simp only
    split <;> rw [get_set_self]
  · rw [get_set_self]

/-- The call raises if it trips the circuit after 1024 trips or more. -/
theorem recordOutcome_eq_overflow_iff {success : Bool} :
    (s.recordOutcome key success error now wall).2 = .overflow ↔
      success = false ∧ s.trips key now = true ∧ PyFloat.maxExponent ≤ (s.get key).trips := by
  cases success with
  | true => simp [recordOutcome]
  | false =>
    simp only [recordOutcome, Bool.false_eq_true, if_false, true_and]
    split_ifs with htrip
    · have hnone := scale_eq_none_iff (x := s.backoff.value) (n := (s.get key).trips)
      rw [Nat.add_sub_cancel]
      split
      · next hx => simp [htrip, hnone.1 hx]
      · next x hx => simp [htrip, ← hnone, hx]
    · simp [htrip]

/-- A trip that does not raise opens the window of its number. -/
theorem openUntil_tripped (h : s.trips key now = true) (hlt : (s.get key).trips < PyFloat.maxExponent) :
    ((s.recordOutcome key false error now wall).1.get key).openUntil =
      now + s.backoff.window ((s.get key).trips + 1) := by
  simp only [recordOutcome, h, Bool.false_eq_true, if_false, if_true, Nat.add_sub_cancel]
  split
  · next hnone => exact absurd (scale_eq_none_iff.1 hnone) (not_le.2 hlt)
  · next x hx => rw [get_set_self, min_scale hx]

end Record

end Breaker

/-! ### The observer and the stored numbers -/

theorem consecutiveTrips_concat (key : PyStr) (s : Breaker) (calls : List BreakerCall)
    (call : BreakerCall) :
    consecutiveTrips key s (calls ++ [call]) =
      if call.closes key then 0
      else if call.trips (Runs.exec Breaker.next s calls) key then consecutiveTrips key s calls + 1
      else consecutiveTrips key s calls := by
  have hstate : ∀ (calls : List BreakerCall) (n : ℕ) (s : Breaker),
      (calls.foldl (fun (p : ℕ × Breaker) call ↦
        (if call.closes key then 0 else if call.trips p.2 key then p.1 + 1 else p.1,
          p.2.next call)) (n, s)).2 = Runs.exec Breaker.next s calls := by
    intro calls
    induction calls with
    | nil => exact fun _ _ ↦ rfl
    | cons call calls ih => exact fun n s ↦ ih _ _
  simp only [consecutiveTrips, List.foldl_append, List.foldl_cons, List.foldl_nil]
  rw [← hstate calls 0 s]

/-- The stored numbers of trips are those of the observer. -/
def Breaker.Counted (past : List BreakerCall) (s : Breaker) : Prop :=
  s = Runs.exec Breaker.next .initial past ∧
    ∀ key, (s.get key).trips = consecutiveTrips key .initial past

theorem counted_next {past : List BreakerCall} {s : Breaker} (h : s.Counted past)
    (call : BreakerCall) : (s.next call).Counted (past ++ [call]) := by
  obtain ⟨hs, hcount⟩ := h
  refine ⟨by rw [Runs.exec_concat, hs], fun key ↦ ?_⟩
  rw [consecutiveTrips_concat, ← hs, ← hcount]
  cases call with
  | configure enabled threshold backoff => rfl
  | reset k =>
    cases k with
    | none => rfl
    | some k =>
      rcases eq_or_ne key k with rfl | hk
      · simp [Breaker.next, BreakerCall.closes, Circuit.new]
      · simp [Breaker.next, BreakerCall.closes, BreakerCall.trips, hk.symm,
          Breaker.get_reset_of_ne hk]
  | record k success error now wall =>
    rcases eq_or_ne key k with rfl | hk
    · cases success with
      | true => simp [Breaker.next, BreakerCall.closes, Breaker.trips_get_success]
      | false =>
        rcases Bool.eq_false_or_eq_true (s.trips key now) with htrip | htrip
        · simp [Breaker.next, BreakerCall.closes, BreakerCall.trips, htrip,
            Breaker.trips_get_tripped htrip]
        · simp [Breaker.next, BreakerCall.closes, BreakerCall.trips, htrip,
            Breaker.trips_get_failed htrip]
    · simp [Breaker.next, BreakerCall.closes, BreakerCall.trips, hk.symm,
        Breaker.get_recordOutcome_of_ne success hk]

/-- Over a run, the invariant holds. -/
theorem counted_exec (calls : List BreakerCall) :
    (Runs.exec Breaker.next .initial calls).Counted calls :=
  Runs.exec_invariant' (fun past (s : Breaker) ↦ s.Counted past) ⟨rfl, fun _ ↦ rfl⟩
    (fun _ _ call h ↦ counted_next h call) calls

/-- Of a counted state, a call keeps its window exactly if it trips early. -/
theorem keepsWindow_iff {past : List BreakerCall} {s : Breaker} (h : s.Counted past)
    (call : BreakerCall) : KeepsWindow past s call ↔ TripsEarly past s call := by
  cases call with
  | configure | reset => exact Iff.rfl
  | record key success error now wall =>
    have hcount := h.2 key
    simp only [KeepsWindow, TripsEarly, ne_eq, Breaker.recordOutcome_eq_overflow_iff, ← hcount]
    constructor
    · rintro ⟨hno, -⟩ hfail htrip
      exact not_le.1 fun hle ↦ hno ⟨hfail, htrip, hle⟩
    · intro hearly
      refine ⟨fun ⟨hfail, htrip, hle⟩ ↦ not_le.2 (hearly hfail htrip) hle, ?_⟩
      rintro rfl htrip
      exact Breaker.openUntil_tripped htrip (hearly rfl htrip)

/-- **In a run of any length, no call raises and each trip opens its window, exactly if no circuit
trips after 1024 consecutive trips.** -/
theorem every_keepsWindow_iff (calls : List BreakerCall) :
    Runs.Every Breaker.next KeepsWindow .initial calls ↔
      Runs.Every Breaker.next TripsEarly .initial calls := by
  constructor
  · rintro h past call future rfl
    exact (keepsWindow_iff (counted_exec past) call).1 (h past call future rfl)
  · rintro h past call future rfl
    exact (keepsWindow_iff (counted_exec past) call).2 (h past call future rfl)

/-! ### A long outage -/

/-- A backend that fails every half hour, with a threshold of one. -/
def outage (n : ℕ) : List BreakerCall :=
  .configure true 1 (.fin 60) ::
    (List.range n).map fun i ↦ .record (py "p:m") false none (1800 * i) 0

theorem outage_succ (n : ℕ) :
    outage (n + 1) = outage n ++ [.record (py "p:m") false none (1800 * n) 0] := by
  simp [outage, List.range_succ]

/-- Every failure of the outage trips the circuit. -/
theorem exec_outage (n : ℕ) (hn : n ≤ PyFloat.maxExponent) :
    let s := Runs.exec Breaker.next .initial (outage n)
    s.enabled = true ∧ s.threshold = 1 ∧ (s.get (py "p:m")).trips = n ∧
      (s.get (py "p:m")).openUntil ≤ 1800 * n := by
  induction n with
  | zero => decide +kernel
  | succ n ih =>
    obtain ⟨henabled, hthreshold, htrips, hopen⟩ := ih (Nat.le_of_succ_le hn)
    set s := Runs.exec Breaker.next .initial (outage n) with hs
    have htrip : s.trips (py "p:m") (1800 * n) = true := by
      simp [Breaker.trips, henabled, hthreshold, hopen]
    simp only [outage_succ, Runs.exec_concat, ← hs]
    refine ⟨?_, ?_, ?_, ?_⟩
    · exact (s.settings_recordOutcome ..).1.trans henabled
    · exact (s.settings_recordOutcome ..).2.trans hthreshold
    · rw [Breaker.next, Breaker.trips_get_tripped htrip, htrips]
    · rw [Breaker.next, Breaker.openUntil_tripped htrip (htrips ▸ hn)]
      have hwindow := s.backoff.window_le ((s.get (py "p:m")).trips + 1)
      push_cast
      rw [maxBackoff] at hwindow
      linarith

/-- The failure after 1024 trips in a row raises. -/
theorem not_every_keepsWindow_outage :
    ¬ Runs.Every Breaker.next KeepsWindow .initial (outage (PyFloat.maxExponent + 1)) := by
  intro h
  rw [outage_succ, Runs.every_concat_iff] at h
  obtain ⟨henabled, hthreshold, htrips, hopen⟩ := exec_outage PyFloat.maxExponent le_rfl
  refine h.2.1 (Breaker.recordOutcome_eq_overflow_iff.2 ⟨rfl, ?_, htrips.ge⟩)
  simp only [Breaker.trips, henabled, hthreshold, Bool.true_and, Nat.le_add_left, decide_true]
  exact decide_eq_true hopen

end LocalGateway
