import LocalGateway.Quota.Rpm

/-!
# How long a rejected request waits

A request that is over the limit per minute is told for how many seconds to wait: until the oldest
admitted request of the last minute is a minute ago, to one decimal. It is forgotten only when it is
older than that, so that a wait which is exact, or rounded down, ends too early.

* `Metered.Remembers.admits_iff_of_quiet`: while no request of the key is admitted, it is rejected up to the
  moment at which the oldest one is a minute ago, and that moment included.
* `Metered.retryAfter_suffices_iff`: the wait suffices exactly if it is rounded up.
-/

namespace LocalGateway

open Py

namespace Metered

variable {id : PyStr} {rpm : ℤ} {start now later r : ℚ} {past : List RpmCall} {w : Metered}
  {key : ApiKeyConfig}

/-- The admitted requests of a key in the last minute. -/
def lastMinute (w : Metered) (id : PyStr) (now : ℚ) : List ℚ :=
  Window.within (now - windowSeconds) now (w.admitted id)

/-- The seconds until the oldest of them is a minute ago. -/
def exactWait (w : Metered) (id : PyStr) (now : ℚ) : ℚ :=
  windowSeconds - (now - (w.lastMinute id now).headD now)

/-- After a rejection at `now`, a request of the key that waits for `r` seconds is admitted, whatever
else is asked of the limiter meanwhile, unless it admits a request of the key. -/
def Suffices (id : PyStr) (rpm : ℤ) (start : ℚ) (past : List RpmCall) (now r : ℚ) : Prop :=
  ∀ (quiet : List RpmCall) (key : ApiKeyConfig) (later : ℚ),
    Runs.Timed RpmCall.time start (past ++ quiet ++ [.checkRpm key later]) →
      (∀ call ∈ quiet ++ [.checkRpm key later], call.Limits id rpm) → key.id = id →
        (Runs.exec next .start (past ++ quiet)).admitted id = (Runs.exec next .start past).admitted id →
          now + r ≤ later → ((Runs.exec next .start (past ++ quiet)).hits.checkRpm key later).2 = none

/-- A rejected request is told the exact wait, to one decimal. -/
theorem Remembers.wait_eq (h : w.Remembers id rpm start past) (hnow : Runs.Until RpmCall.time start past now)
    (hid : key.id = id) (hrejected : (w.hits.checkRpm key now).2 = some r) :
    r = PyFloat.roundTo 1 (w.exactWait id now) := by
  subst hid
  have hpurge := h.purge_eq hnow
  unfold Hits.checkRpm at hrejected
  rcases hrpm : attrInt key.attrs.fields (py "rpm") with - | n
  · rw [hrpm] at hrejected
    cases hrejected
  · simp only [hrpm] at hrejected
    split_ifs at hrejected
    obtain rfl := Option.some.inj hrejected
    rw [exactWait, lastMinute, hpurge]

/-- A request is rejected exactly if the last minute is full. -/
theorem Remembers.rejects_iff (h : w.Remembers id rpm start past) (hid : id ≠ []) (hpos : 0 < rpm)
    (hlimit : (RpmCall.checkRpm key now).Limits id rpm) (hkey : key.id = id)
    (hnow : Runs.Until RpmCall.time start past now) :
    (w.hits.checkRpm key now).2 ≠ none ↔ rpm ≤ (w.lastMinute id now).length :=
  h.rejectsFull hid hpos hlimit hnow hkey

/-- The last minute is never more than full. -/
theorem Remembers.length_lastMinute_le (h : w.Remembers id rpm start past) (hpos : 0 < rpm) (now : ℚ) :
    ((w.lastMinute id now).length : ℤ) ≤ rpm := by
  have hle := Window.length_within_le h.sorted h.limited (now - windowSeconds)
  rw [sub_add_cancel] at hle
  rw [lastMinute]
  omega

/-- **The minute after a rejection.** While no request of the key is admitted, the last minute stays
full up to the moment at which its oldest request is a minute ago. -/
theorem Remembers.full_iff_of_quiet {w' : Metered} (h : w.Remembers id rpm start past) (hpos : 0 < rpm)
    (hnow : Runs.Until RpmCall.time start past now) (hlater : now ≤ later)
    (hfull : rpm ≤ (w.lastMinute id now).length) (hquiet : w'.admitted id = w.admitted id) :
    rpm ≤ (w'.lastMinute id later).length ↔ later ≤ now + w.exactWait id now := by
  rcases hwithin : w.lastMinute id now with - | ⟨oldest, rest⟩
  · rw [hwithin] at hfull
    simp only [List.length_nil, Nat.cast_zero] at hfull
    exact absurd hpos hfull.not_gt
  · have hlt := Window.length_within_lt_iff h.sorted (h.le hnow) hlater hwithin
    have hsame : w'.lastMinute id later = w.lastMinute id later := by
      rw [lastMinute, hquiet, lastMinute]
    rw [← lastMinute, ← lastMinute, ← hsame] at hlt
    have hle := h.length_lastMinute_le hpos now
    have hwait : now + w.exactWait id now = oldest + windowSeconds := by
      rw [exactWait, hwithin, List.headD_cons]
      ring
    rw [hwait, ← not_lt, ← not_lt, ← hlt]
    omega

/-- What it takes to be admitted after a rejection, while no request of the key is. -/
theorem Remembers.admits_iff_of_quiet {w' : Metered} {past' : List RpmCall}
    (h : w.Remembers id rpm start past) (h' : w'.Remembers id rpm start past') (hid : id ≠ []) (hpos : 0 < rpm)
    (hnow : Runs.Until RpmCall.time start past now) (hlater : now ≤ later)
    (hfull : rpm ≤ (w.lastMinute id now).length) (hquiet : w'.admitted id = w.admitted id)
    (hlimit : (RpmCall.checkRpm key later).Limits id rpm) (hkey : key.id = id)
    (huntil : Runs.Until RpmCall.time start past' later) :
    (w'.hits.checkRpm key later).2 = none ↔ now + w.exactWait id now < later := by
  have hrejects := h'.rejects_iff hid hpos hlimit hkey huntil
  rw [h.full_iff_of_quiet hpos hnow hlater hfull hquiet] at hrejects
  rw [← not_le, ← hrejects, not_not]

/-- **When the wait suffices.** In any run of calls at times that do not go back, of a key with an id
and a fixed positive limit: the wait that a rejected request is told suffices exactly if it is more than
the exact one. -/
theorem retryAfter_suffices_iff {id : PyStr} {rpm : ℤ} (hid : id ≠ []) (hpos : 0 < rpm) {start : ℚ}
    {past : List RpmCall} {key : ApiKeyConfig} {now r : ℚ}
    (htimed : Runs.Timed RpmCall.time start (past ++ [.checkRpm key now]))
    (hlimit : ∀ call ∈ past ++ [.checkRpm key now], call.Limits id rpm) (hkey : key.id = id)
    (hrejected : ((Runs.exec next .start past).hits.checkRpm key now).2 = some r) :
    Suffices id rpm start (past ++ [.checkRpm key now]) now r ↔
      (Runs.exec next .start past).exactWait id now <
        PyFloat.roundTo 1 ((Runs.exec next .start past).exactWait id now) := by
  have hnow : Runs.Until RpmCall.time start past now := htimed.until
  have hlast : (RpmCall.checkRpm key now).Limits id rpm := hlimit _ (by simp)
  have hkept : (Runs.exec next .start past).Remembers id rpm start past :=
    remembers_exec hid hpos (Runs.timed_append_left htimed) fun call hcall ↦
      hlimit call (List.mem_append_left _ hcall)
  have hfull : rpm ≤ ((Runs.exec next .start past).lastMinute id now).length :=
    (hkept.rejects_iff hid hpos hlast hkey hnow).1 (by simp [hrejected])
  have hadmitted : (Runs.exec next .start (past ++ [.checkRpm key now])).admitted id =
      (Runs.exec next .start past).admitted id := by
    rw [Runs.exec_concat]
    exact admitted_of_rejected (by simp [hrejected])
  rw [← hkept.wait_eq hnow hkey hrejected]
  constructor
  · intro hsuffices
    by_contra hshort
    rw [not_lt] at hshort
    -- the request comes at the very end of the exact wait
    obtain ⟨later, hlater⟩ : ∃ later, later = now + (Runs.exec next .start past).exactWait id now := ⟨_, rfl⟩
    have hle : now ≤ later := by
      rw [hlater]
      exact (hkept.full_iff_of_quiet hpos hnow le_rfl hfull rfl).1 hfull
    have huntil : Runs.Until RpmCall.time start (past ++ [.checkRpm key now]) later := by
      refine ⟨hnow.1.trans hle, fun call hcall ↦ ?_⟩
      rcases List.mem_append.1 hcall with hcall | hcall
      · exact (hnow.2 call hcall).trans hle
      · obtain rfl := List.mem_singleton.1 hcall
        exact hle
    have hnone := hsuffices [] key later
      (by rw [List.append_nil]; exact Runs.timed_concat_iff.2 ⟨htimed, huntil⟩)
      (by rintro call hcall; obtain rfl := List.mem_singleton.1 hcall; exact hlast) hkey
      (by rw [List.append_nil]) (by linarith)
    rw [List.append_nil] at hnone
    have hlt := (hkept.admits_iff_of_quiet (remembers_exec hid hpos htimed hlimit) hid hpos hnow hle hfull
      hadmitted hlast hkey huntil).1 hnone
    exact hlt.ne hlater.symm
  · intro hlong quiet key' later htimed' hlimit' hkey' hquiet hlater
    have hrun := Runs.timed_append_left htimed'
    have huntil : Runs.Until RpmCall.time start (past ++ [.checkRpm key now] ++ quiet) later := htimed'.until
    have hall : ∀ call ∈ past ++ [.checkRpm key now] ++ quiet, call.Limits id rpm := fun call hcall ↦
      (List.mem_append.1 hcall).elim (hlimit call) fun hcall ↦ hlimit' call (List.mem_append_left _ hcall)
    have hle : now ≤ later := huntil.2 (.checkRpm key now) (by simp)
    refine (hkept.admits_iff_of_quiet (remembers_exec hid hpos hrun hall) hid hpos hnow hle hfull
      (hquiet.trans hadmitted) (hlimit' _ (by simp)) hkey' huntil).2 ?_
    linarith

/-- A key with a limit of one request per minute. -/
def singleKey : ApiKeyConfig :=
  ⟨py "k", py "secret", apiKeyClass.build [(py "rpm", .int 1)] (by decide)⟩

/-- A wait of 50.08 seconds is rounded up. -/
theorem retryAfter_suffices_up :
    Suffices (py "k") 1 0 [.checkRpm singleKey 0, .checkRpm singleKey (248 / 25)] (248 / 25) (501 / 10) ∧
      (Runs.exec next .start [.checkRpm singleKey 0]).exactWait (py "k") (248 / 25) <
        PyFloat.roundTo 1 ((Runs.exec next .start [.checkRpm singleKey 0]).exactWait (py "k") (248 / 25)) := by
  have hiff := @retryAfter_suffices_iff (py "k") 1 (by decide) (by decide) 0 [.checkRpm singleKey 0]
    singleKey (248 / 25) (501 / 10) (by decide +kernel) (by
      intro call hcall
      simp only [List.cons_append, List.nil_append, List.mem_cons, List.not_mem_nil, or_false] at hcall
      rcases hcall with rfl | rfl <;> exact fun _ ↦ rfl) rfl (by decide +kernel)
  have hup : (Runs.exec next .start [.checkRpm singleKey 0]).exactWait (py "k") (248 / 25) <
      PyFloat.roundTo 1 ((Runs.exec next .start [.checkRpm singleKey 0]).exactWait (py "k") (248 / 25)) := by
    decide +kernel
  exact ⟨hiff.2 hup, hup⟩

/-- **The wait is too short** where it is exact: the request that is told to wait for 50 seconds is rejected
again when they are over. -/
theorem not_suffices_exact :
    ((Runs.exec next .start [.checkRpm singleKey 0]).hits.checkRpm singleKey 10).2 = some 50 ∧
      ¬ Suffices (py "k") 1 0 [.checkRpm singleKey 0, .checkRpm singleKey 10] 10 50 := by
  refine ⟨by decide +kernel, fun h ↦ ?_⟩
  have hnone := h [] singleKey 60 (by decide +kernel)
    (by rintro call hcall; obtain rfl := List.mem_singleton.1 hcall; exact fun _ ↦ rfl) rfl rfl (by norm_num)
  exact absurd hnone (by decide +kernel)

end Metered

end LocalGateway
