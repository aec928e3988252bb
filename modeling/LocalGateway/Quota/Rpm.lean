import LocalGateway.Foundations.Runs
import LocalGateway.Foundations.Window
import LocalGateway.Routing.Candidates
import LocalGateway.Snooze.RateLimit

/-!
# Requests per minute

The inbound limit of a client key (`clientquota.py`): a key with a positive `rpm` may register a
request if fewer than `rpm` are registered within the last minute. The times of the registered requests
are kept for each key id, oldest first; asking for the current rate forgets old ones, too.

Times are rational numbers of seconds; the rounding of `float` is left out.

* `Metered`: the limiter, next to the log of the requests it admitted.
* `Metered.Remembers`: the invariant, that what is kept of a key stands for all its admitted requests.
* `rpm_window`: no closed minute has more than `rpm` admitted requests of a key, and a request is
  rejected only if the minute before it has as many.
-/

namespace LocalGateway

open Py

/-! ### The limiter -/

/-- `_WINDOW_S`. -/
def windowSeconds : ℚ :=
  60

/-- `_hits`. -/
abbrev Hits := List (PyStr × List ℚ)

namespace Hits

/-- The times kept for a key id. -/
def of (hits : Hits) (id : PyStr) : List ℚ :=
  (hits.lookup id).getD []

/-- `_hits[id]` has become another deque. -/
def set (hits : Hits) (id : PyStr) (dq : List ℚ) : Hits :=
  (id, dq) :: hits.filter (·.1 ≠ id)

/-- `check_rpm`: the times after it, and the seconds to wait if the request is rejected. -/
def checkRpm (hits : Hits) (key : ApiKeyConfig) (now : ℚ) : Hits × Option ℚ :=
  match attrInt key.attrs.fields (py "rpm") with
  | none => (hits, none)
  | some rpm =>
    if rpm ≤ 0 ∨ key.id = [] then (hits, none)
    else
      let dq := Window.purge windowSeconds now (hits.of key.id)
      -- a full deque has a first element
      if rpm ≤ dq.length then
        (hits.set key.id dq, some (PyFloat.roundTo 1 (windowSeconds - (now - dq.headD now))))
      else (hits.set key.id (dq ++ [now]), none)

/-- `current_rpm`. -/
def currentRpm (hits : Hits) (id : PyStr) (now : ℚ) : Hits × ℕ :=
  if hits.of id = [] then (hits, 0)
  else
    let dq := Window.purge windowSeconds now (hits.of id)
    (hits.set id dq, dq.length)

end Hits

/-! ### Runs -/

/-- A call of the limiter. -/
inductive RpmCall where
  | checkRpm (key : ApiKeyConfig) (now : ℚ)
  | currentRpm (id : PyStr) (now : ℚ)

/-- The reading of `time.monotonic()` in a call. -/
def RpmCall.time : RpmCall → ℚ
  | .checkRpm _ now => now
  | .currentRpm _ now => now

/-- The key that a request bears has this limit. -/
def RpmCall.Limits (id : PyStr) (rpm : ℤ) : RpmCall → Prop
  | .checkRpm key _ => key.id = id → attrInt key.attrs.fields (py "rpm") = some rpm
  | .currentRpm .. => True

/-- The limiter, and the requests it admitted with the ids of their keys, oldest first. -/
structure Metered where
  hits : Hits
  log : List (PyStr × ℚ)

namespace Metered

/-- A process that has just started. -/
def start : Metered :=
  ⟨[], []⟩

/-- The times of the admitted requests of a key. -/
def admitted (w : Metered) (id : PyStr) : List ℚ :=
  w.log.filterMap fun e ↦ if e.1 = id then some e.2 else none

/-- After a call. -/
def next (w : Metered) : RpmCall → Metered
  | .checkRpm key now =>
    let after := w.hits.checkRpm key now
    ⟨after.1, if after.2 = none then w.log ++ [(key.id, now)] else w.log⟩
  | .currentRpm id now => ⟨(w.hits.currentRpm id now).1, w.log⟩

/-- A request of the key is rejected exactly if `rpm` admitted ones are in the minute before it. -/
def RejectsFull (id : PyStr) (rpm : ℤ) (w : Metered) : RpmCall → Prop
  | .checkRpm key now => key.id = id →
    ((w.hits.checkRpm key now).2 ≠ none ↔
      rpm ≤ (Window.within (now - windowSeconds) now (w.admitted id)).length)
  | .currentRpm .. => True

end Metered

/-! ### What is kept -/

section Kept

variable {hits : Hits} {id k : PyStr} {key : ApiKeyConfig} {rpm : ℤ} {now : ℚ}

@[simp] theorem hits_of_set_self (dq : List ℚ) : (hits.set id dq).of id = dq := by
  simp [Hits.set, Hits.of]

theorem hits_of_set_of_ne (dq : List ℚ) (h : id ≠ k) : (hits.set k dq).of id = hits.of id := by
  have hne : (id == k) = false := by simpa using h
  rw [Hits.set, Hits.of, List.lookup_cons, hne, lookup_filter_ne h, Hits.of]

/-- The deque of a limited key after a call for it, and whether the request is rejected. -/
theorem checkRpm_of_limit (hits : Hits) (now : ℚ) (hrpm : attrInt key.attrs.fields (py "rpm") = some rpm)
    (hpos : 0 < rpm) (hid : key.id ≠ []) :
    let dq := Window.purge windowSeconds now (hits.of key.id)
    (hits.checkRpm key now).1.of key.id = (if rpm ≤ dq.length then dq else dq ++ [now]) ∧
      ((hits.checkRpm key now).2 ≠ none ↔ rpm ≤ dq.length) := by
  have hlimited : ¬ (rpm ≤ 0 ∨ key.id = []) := by
    rw [not_or, not_le]
    exact ⟨hpos, hid⟩
  simp only [Hits.checkRpm, hrpm, if_neg hlimited]
  split_ifs with hfull
  · exact ⟨hits_of_set_self _, iff_of_true (by simp) hfull⟩
  · exact ⟨hits_of_set_self _, iff_of_false (by simp) hfull⟩

/-- A call for another key leaves the deque of this one alone. -/
theorem checkRpm_of_ne (h : id ≠ key.id) : (hits.checkRpm key now).1.of id = hits.of id := by
  unfold Hits.checkRpm
  split
  · rfl
  · simp only
    split_ifs
    · rfl
    · exact hits_of_set_of_ne _ h
    · exact hits_of_set_of_ne _ h

theorem currentRpm_of_ne (h : id ≠ k) : (hits.currentRpm k now).1.of id = hits.of id := by
  unfold Hits.currentRpm
  split_ifs
  · rfl
  · exact hits_of_set_of_ne _ h

/-- Asking for the current rate of a key forgets what is too old, and nothing else. -/
theorem currentRpm_of_self :
    (hits.currentRpm id now).1.of id = Window.purge windowSeconds now (hits.of id) := by
  unfold Hits.currentRpm
  split_ifs with hnil
  · rw [hnil]
    rfl
  · exact hits_of_set_self _

end Kept

/-! ### The limiter and its log -/

namespace Metered

variable {id : PyStr} {rpm : ℤ} {start : ℚ} {past : List RpmCall} {w : Metered}

/-- The admitted requests of a key are in the order of time and keep the limit, and what is kept of
them stands for all: at no later time is there a difference between the two, once both are purged. -/
structure Remembers (id : PyStr) (rpm : ℤ) (start : ℚ) (past : List RpmCall) (w : Metered) :
    Prop where
  sorted : (w.admitted id).Pairwise (· ≤ ·)
  logged : ∀ t ∈ w.admitted id, t ∈ past.map RpmCall.time
  limited : Window.Limited windowSeconds rpm.toNat (w.admitted id)
  kept : ∀ now, Runs.Until RpmCall.time start past now →
    Window.purge windowSeconds now (w.hits.of id) =
      Window.purge windowSeconds now (w.admitted id)

theorem remembers_start (id : PyStr) (rpm : ℤ) (t : ℚ) : Metered.start.Remembers id rpm t [] where
  sorted := .nil
  logged := fun _ h ↦ absurd h List.not_mem_nil
  limited := Window.limited_nil _ _
  kept := fun _ _ ↦ rfl

theorem Remembers.le (h : w.Remembers id rpm start past) {now : ℚ}
    (hnow : Runs.Until RpmCall.time start past now) : ∀ t ∈ w.admitted id, t ≤ now := by
  rintro t ht
  obtain ⟨i, hi, rfl⟩ := List.mem_map.1 (h.logged t ht)
  exact hnow.2 i hi

/-- What is kept of a key, once purged, is what was admitted in the last minute. -/
theorem Remembers.purge_eq (h : w.Remembers id rpm start past) {now : ℚ}
    (hnow : Runs.Until RpmCall.time start past now) :
    Window.purge windowSeconds now (w.hits.of id) =
      Window.within (now - windowSeconds) now (w.admitted id) :=
  (h.kept now hnow).trans (Window.purge_eq_within h.sorted (h.le hnow))

theorem Remembers.rejectsFull (h : w.Remembers id rpm start past) (hid : id ≠ []) (hpos : 0 < rpm)
    {call : RpmCall} (hlimit : call.Limits id rpm)
    (hcall : Runs.Until RpmCall.time start past call.time) : w.RejectsFull id rpm call := by
  rcases call with ⟨key, now⟩ | ⟨k, now⟩
  · rintro rfl
    have hpurge := h.purge_eq hcall
    rw [RpmCall.time] at hpurge
    rw [(checkRpm_of_limit w.hits now (hlimit rfl) hpos hid).2, hpurge]
  · trivial

/-- A call that purges the deque of the key, or leaves it alone, and admits no request of the key. -/
theorem Remembers.quiet (h : w.Remembers id rpm start past) {call : RpmCall} {w' : Metered}
    (hlog : w'.admitted id = w.admitted id)
    (hhits : w'.hits.of id = w.hits.of id ∨
      w'.hits.of id = Window.purge windowSeconds call.time (w.hits.of id)) :
    w'.Remembers id rpm start (past ++ [call]) where
  sorted := hlog ▸ h.sorted
  logged := fun t ht ↦ by
    rw [List.map_append]
    exact List.mem_append_left _ (h.logged t (hlog ▸ ht))
  limited := hlog ▸ h.limited
  kept := fun now hnow ↦ by
    have hpast : Runs.Until RpmCall.time start past now :=
      ⟨hnow.1, fun i hi ↦ hnow.2 i (List.mem_append_left _ hi)⟩
    have hle : call.time ≤ now := hnow.2 call (by simp)
    rw [hlog, ← h.kept now hpast]
    rcases hhits with hhits | hhits
    · rw [hhits]
    · rw [hhits, Window.purge_purge hle]

/-- A request that is admitted is remembered. -/
theorem Remembers.admit (h : w.Remembers id rpm start past) {call : RpmCall} {w' : Metered}
    (hcall : Runs.Until RpmCall.time start past call.time)
    (hlog : w'.admitted id = w.admitted id ++ [call.time])
    (hhits : w'.hits.of id = Window.purge windowSeconds call.time (w.hits.of id) ++ [call.time])
    (hfew : ((Window.purge windowSeconds call.time (w.hits.of id)).length : ℤ) < rpm) :
    w'.Remembers id rpm start (past ++ [call]) where
  sorted := by
    rw [hlog, List.pairwise_append]
    exact ⟨h.sorted, List.pairwise_singleton _ _, fun t ht u hu ↦ by
      rw [List.mem_singleton.1 hu]
      exact h.le hcall t ht⟩
  logged := fun t ht ↦ by
    rw [hlog, List.mem_append, List.mem_singleton] at ht
    rw [List.map_append, List.mem_append]
    exact ht.imp (h.logged t) fun ht ↦ by simp [ht]
  limited := by
    rw [hlog]
    refine Window.limited_concat h.limited ?_
    rw [h.purge_eq hcall] at hfew
    omega
  kept := fun now hnow ↦ by
    have hpast : Runs.Until RpmCall.time start past now :=
      ⟨hnow.1, fun i hi ↦ hnow.2 i (List.mem_append_left _ hi)⟩
    have hle : call.time ≤ now := hnow.2 call (by simp)
    rw [hlog, hhits]
    refine Window.purge_append _ _ ?_ _
    rw [Window.purge_purge hle, h.kept now hpast]

theorem admitted_of_rejected {key : ApiKeyConfig} {now : ℚ}
    (h : (w.hits.checkRpm key now).2 ≠ none) :
    (w.next (.checkRpm key now)).admitted id = w.admitted id := by
  simp only [next, admitted, if_neg h]

theorem admitted_of_admitted {key : ApiKeyConfig} {now : ℚ}
    (h : (w.hits.checkRpm key now).2 = none) :
    (w.next (.checkRpm key now)).admitted id =
      w.admitted id ++ if key.id = id then [now] else [] := by
  simp only [next, admitted, if_pos h, List.filterMap_append]
  split_ifs with hid <;> simp [hid]

/-- A call that is not before the earlier ones keeps the invariant. -/
theorem Remembers.next (h : w.Remembers id rpm start past) (hid : id ≠ []) (hpos : 0 < rpm)
    {call : RpmCall} (hlimit : call.Limits id rpm)
    (hcall : Runs.Until RpmCall.time start past call.time) :
    (w.next call).Remembers id rpm start (past ++ [call]) := by
  rcases call with ⟨key, now⟩ | ⟨k, now⟩
  · rcases eq_or_ne key.id id with rfl | hne
    · obtain ⟨hdq, hrejected⟩ :=
        checkRpm_of_limit w.hits now (hlimit rfl) hpos hid
      by_cases hfull : rpm ≤ (Window.purge windowSeconds now (w.hits.of key.id)).length
      · rw [if_pos hfull] at hdq
        exact h.quiet (admitted_of_rejected (hrejected.2 hfull)) (.inr hdq)
      · rw [if_neg hfull] at hdq
        have hnone : (w.hits.checkRpm key now).2 = none :=
          not_not.1 fun hne ↦ hfull (hrejected.1 hne)
        refine h.admit hcall ?_ hdq (not_le.1 hfull)
        rw [admitted_of_admitted hnone, if_pos rfl]
        rfl
    · -- a request of another key
      refine h.quiet ?_ (.inl (checkRpm_of_ne hne.symm))
      by_cases hnone : (w.hits.checkRpm key now).2 = none
      · rw [admitted_of_admitted hnone, if_neg hne, List.append_nil]
      · exact admitted_of_rejected hnone
  · refine h.quiet rfl ?_
    rcases eq_or_ne id k with rfl | hne
    · exact .inr currentRpm_of_self
    · exact .inl (currentRpm_of_ne hne)

/-- The invariant after any run of calls at times that do not go back. -/
theorem remembers_exec (hid : id ≠ []) (hpos : 0 < rpm) (htimed : Runs.Timed RpmCall.time start past)
    (hlimit : ∀ call ∈ past, call.Limits id rpm) :
    (Runs.exec Metered.next .start past).Remembers id rpm start past := by
  refine Runs.exec_invariant (fun past (w : Metered) ↦ w.Remembers id rpm start past)
    (P := fun past _ call ↦ Runs.Until RpmCall.time start past call.time ∧ call.Limits id rpm)
    (remembers_start id rpm start) (fun _ _ _ hw hi ↦ hw.next hid hpos hi.2 hi.1) ?_
  rintro past' call future' rfl
  exact ⟨htimed.until, hlimit call (by simp)⟩

/-- **The limit per minute.** In any run of calls at times that do not go back, of a key with an id and
a fixed positive limit: no closed minute has more admitted requests than the limit, and a request is
rejected only if the minute before it has as many. -/
theorem rpm_window {id : PyStr} {rpm : ℤ} (hid : id ≠ []) (hpos : 0 < rpm) {start : ℚ}
    {calls : List RpmCall} (htimed : Runs.Timed RpmCall.time start calls)
    (hlimit : ∀ call ∈ calls, call.Limits id rpm) :
    (∀ a, ((Window.within a (a + windowSeconds)
        ((Runs.exec next .start calls).admitted id)).length : ℤ) ≤ rpm) ∧
      Runs.Every next (fun _ w call ↦ w.RejectsFull id rpm call) .start calls := by
  have hremembers : ∀ {past future : List RpmCall}, calls = past ++ future →
      (Runs.exec next .start past).Remembers id rpm start past := by
    rintro past future rfl
    exact remembers_exec hid hpos (Runs.timed_append_left htimed) fun call hcall ↦
      hlimit call (List.mem_append_left _ hcall)
  constructor
  · intro a
    have h := hremembers (List.append_nil calls).symm
    have hle := Window.length_within_le h.sorted h.limited a
    omega
  · rintro past call future heq
    have hcall : Runs.Until RpmCall.time start past call.time := by
      rw [heq] at htimed
      exact htimed.until
    exact (hremembers heq).rejectsFull hid hpos (hlimit call (by simp [heq])) hcall

/-- A key with a limit of two requests per minute. -/
def meteredKey : ApiKeyConfig :=
  ⟨py "k", py "secret", apiKeyClass.build [(py "rpm", .int 2)] (by decide)⟩

/-- The third request of a minute is rejected, and the one a little later is not. -/
def burst : List RpmCall :=
  [.checkRpm meteredKey 0, .checkRpm meteredKey 30, .checkRpm meteredKey 60, .currentRpm (py "k") 60,
    .checkRpm meteredKey 61]

theorem rpm_window_burst :
    (∀ a, ((Window.within a (a + windowSeconds)
        ((Runs.exec next .start burst).admitted (py "k"))).length : ℤ) ≤ 2) ∧
      Runs.Every next (fun _ w call ↦ w.RejectsFull (py "k") 2 call) .start burst :=
  @rpm_window _ _ (by decide) (by decide) 0 _ (by decide +kernel) (by
    intro call hcall
    simp only [burst, List.mem_cons, List.not_mem_nil, or_false] at hcall
    rcases hcall with rfl | rfl | rfl | rfl | rfl
    all_goals first | exact fun _ ↦ rfl | trivial)

example : (Runs.exec next .start burst).admitted (py "k") = [0, 30, 61] := by decide +kernel

end Metered

end LocalGateway
