import Mathlib.Data.Rat.Floor
import LocalGateway.Foundations.Runs
import LocalGateway.Foundations.Throttle
import LocalGateway.Python.Json

/-!
# Alerts

`alerts.py` posts what happens at the gateway to a webhook. Alerts with a key are throttled: a call reads the clock,
and then, while it holds the lock, looks whether an alert with the key has been let through less than six hours before.
Calls come from any thread, so that one which read the clock earlier may get the lock later.

* `AlertState.next`: calls of `send`, each going on by itself.
* `send_exec`: of the alerts with one key, no six hours have more than two, and none is held back but for one that was
  let through.

Nothing is said of what becomes of a request once it is sent. Times are rational numbers.
-/

namespace LocalGateway

open Py Json Runs

/-! ### Calls -/

/-- `_DEDUP_INTERVAL`. -/
def dedupInterval : ℚ :=
  6 * 3600

/-- The arguments of `send`. -/
structure Alert where
  event : PyStr
  title : PyStr
  detail : PyDict
  dedupKey : Option PyStr

/-- `payload`, before it is encoded. -/
def Alert.payload (a : Alert) (ts : ℚ) : Json :=
  .obj [(py "event", .str a.event), (py "title", .str a.title), (py "detail", .obj a.detail),
    (py "ts", .float (.fin ts)), (py "source", .str (py "localgateway"))]

/-- Where a call is. It returns `True` if it has posted the alert, `False` if it is held back or there is no webhook.
Once it is let through it keeps what it read from the clock, if it did. -/
inductive SendPhase
  | called
  | stamped (now : ℚ)
  | suppressed (now : ℚ)
  | through (stamp : Option ℚ)
  | unsent (stamp : Option ℚ)
  | posted (stamp : Option ℚ) (payload : Json)

/-- What it was let through with. -/
def SendPhase.stamp : SendPhase → Option ℚ
  | .called | .stamped _ | .suppressed _ => none
  | .through stamp | .unsent stamp | .posted stamp _ => stamp

/-- A call of `send`. -/
structure SendCall where
  alert : Alert
  phase : SendPhase

/-- `_last_sent`, the calls, and what was ever written to `_last_sent`. -/
structure AlertState where
  lastSent : PyStr → Option ℚ
  calls : List SendCall
  slots : List (PyStr × ℚ)

/-- A thread calls `send`, or a call goes on: `time` is what the clock shows, and `url` is `alert_webhook_url`. -/
inductive AlertStep
  | call (a : Alert)
  | run (i : ℕ) (time : ℚ) (url : Option PyStr)

namespace AlertState

def initial : AlertState :=
  ⟨fun _ ↦ none, [], []⟩

variable (s : AlertState)

/-- The call is in another phase now. -/
def setPhase (i : ℕ) (phase : SendPhase) : AlertState :=
  { s with calls := s.calls.modify i fun c ↦ { c with phase := phase } }

/-- The lock is held: the slot of the key is taken, unless it was less than six hours ago. -/
def claim (i : ℕ) (key : PyStr) (now : ℚ) : AlertState :=
  if now - (s.lastSent key).getD 0 < dedupInterval then s.setPhase i (.suppressed now)
  else { s.setPhase i (.through (some now)) with
    lastSent := Function.update s.lastSent key (some now), slots := s.slots ++ [(key, now)] }

/-- The next step of a call. -/
def proceed (i : ℕ) (time : ℚ) (url : Option PyStr) (c : SendCall) : AlertState :=
  match c.phase, c.alert.dedupKey with
  | .called, none => s.setPhase i (.through none)
  | .called, some _ => s.setPhase i (.stamped time)
  | .stamped now, some key => s.claim i key now
  | .through stamp, _ =>
    if url.getD [] = [] then s.setPhase i (.unsent stamp)
    else s.setPhase i (.posted stamp (c.alert.payload time))
  | _, _ => s

def next (step : AlertStep) : AlertState :=
  match step with
  | .call a => { s with calls := s.calls ++ [⟨a, .called⟩] }
  | .run i time url => s.calls[i]?.elim s (s.proceed i time url)

/-- The slots that were taken under a key, in their order. -/
def slotsOf (key : PyStr) : List ℚ :=
  s.slots.filterMap fun e ↦ if e.1 = key then some e.2 else none

end AlertState

/-- What a call was let through with, if it has the key. -/
def SendCall.stampOf (key : PyStr) (c : SendCall) : Option ℚ :=
  if c.alert.dedupKey = some key then c.phase.stamp else none

/-! ### One call goes on -/

section Modify

variable {α β : Type} {l : List α} {i : ℕ} {a : α} {f : α → α} {g : α → Option β}

/-- An element that is changed where `g` does not look. -/
theorem filterMap_modify_eq (ha : l[i]? = some a) (h : g (f a) = g a) : (l.modify i f).filterMap g = l.filterMap g := by
  obtain ⟨hi, rfl⟩ := List.getElem?_eq_some_iff.1 ha
  have hsplit : l = l.take i ++ l[i] :: l.drop (i + 1) := by
    rw [← List.drop_eq_getElem_cons hi, List.take_append_drop]
  rw [List.modify_eq_take_cons_drop hi, List.filterMap_append, List.filterMap_cons, h, ← List.filterMap_cons,
    ← List.filterMap_append, ← hsplit]

/-- An element that is changed to one which `g` counts. -/
theorem filterMap_modify_perm {b : β} (ha : l[i]? = some a) (hnone : g a = none) (hsome : g (f a) = some b) :
    ((l.modify i f).filterMap g).Perm (l.filterMap g ++ [b]) := by
  obtain ⟨hi, rfl⟩ := List.getElem?_eq_some_iff.1 ha
  have hsplit : l = l.take i ++ l[i] :: l.drop (i + 1) := by
    rw [← List.drop_eq_getElem_cons hi, List.take_append_drop]
  have hold : l.filterMap g = (l.take i).filterMap g ++ (l.drop (i + 1)).filterMap g := by
    rw [hsplit, List.filterMap_append, List.filterMap_cons, hnone, ← hsplit]
  rw [List.modify_eq_take_cons_drop hi, List.filterMap_append, List.filterMap_cons, hsome, hold]
  exact (List.perm_middle.trans (List.perm_append_singleton _ _).symm)

theorem mem_modify {b : α} (hb : b ∈ l.modify i f) : b ∈ l ∨ ∃ a, l[i]? = some a ∧ b = f a := by
  obtain ⟨j, hj, rfl⟩ := List.getElem_of_mem hb
  rw [List.getElem_modify]
  have hj' : j < l.length := by simpa using hj
  split_ifs with hij
  · exact .inr ⟨_, List.getElem?_eq_some_iff.2 ⟨hij ▸ hj', by simp only [hij]⟩, rfl⟩
  · exact .inl (List.getElem_mem hj')

end Modify

namespace AlertState

variable {s : AlertState}

/-- A call that is held back is late for one with its key that was let through, or the clock shows the first hours of
the epoch. -/
def Late (s : AlertState) (c : SendCall) : Prop :=
  ∀ now, c.phase = .suppressed now → ∃ key, c.alert.dedupKey = some key ∧
    (now < dedupInterval ∨ ∃ t ∈ s.slotsOf key, now < t + dedupInterval)

/-- What holds of `_last_sent` and the calls. -/
structure Inv (s : AlertState) : Prop where
  last : ∀ key, s.lastSent key = (s.slotsOf key).getLast?
  spaced : ∀ key, Throttle.Spaced dedupInterval (s.slotsOf key)
  stamps : ∀ key, (s.calls.filterMap (SendCall.stampOf key)).Perm (s.slotsOf key)
  late : ∀ c ∈ s.calls, s.Late c

theorem inv_initial : initial.Inv where
  last _ := rfl
  spaced _ := List.Pairwise.nil
  stamps _ := .nil
  late _ hc := absurd hc List.not_mem_nil

/-- A call in another phase. -/
theorem late_setPhase {t : AlertState} {i : ℕ} {c : SendCall} (hc : s.calls[i]? = some c) {phase : SendPhase}
    (hall : ∀ d ∈ s.calls, t.Late d) (hlate : t.Late { c with phase := phase }) :
    ∀ d ∈ (s.setPhase i phase).calls, t.Late d := by
  intro d hd
  rcases mem_modify hd with hd | ⟨c', hc', rfl⟩
  · exact hall d hd
  · obtain rfl := Option.some.inj (hc.symm.trans hc')
    exact hlate

/-- The call goes on, and has not been let through with anything else. -/
theorem Inv.setPhase (h : s.Inv) {i : ℕ} {c : SendCall} (hc : s.calls[i]? = some c) {phase : SendPhase}
    (hstamp : phase.stamp = c.phase.stamp) (hlate : s.Late { c with phase := phase }) : (s.setPhase i phase).Inv where
  last := h.last
  spaced := h.spaced
  stamps key := by
    have hsame : SendCall.stampOf key { c with phase := phase } = SendCall.stampOf key c := by
      rw [SendCall.stampOf, SendCall.stampOf, hstamp]
    show ((s.calls.modify i fun c ↦ { c with phase := phase }).filterMap _).Perm _
    rw [filterMap_modify_eq hc hsame]
    exact h.stamps key
  late := late_setPhase hc h.late hlate

theorem slotsOf_concat (t : AlertState) {key now} (hslots : t.slots = s.slots ++ [(key, now)]) (key' : PyStr) :
    t.slotsOf key' = if key = key' then s.slotsOf key' ++ [now] else s.slotsOf key' := by
  unfold slotsOf
  rw [hslots, List.filterMap_append]
  by_cases hkey : key = key'
  · simp [hkey]
  · simp [hkey]

/-- **The lock.** -/
theorem Inv.claim (h : s.Inv) {i : ℕ} {c : SendCall} (hc : s.calls[i]? = some c) {key : PyStr} {now : ℚ}
    (hkey : c.alert.dedupKey = some key) (hphase : c.phase = .stamped now) : (s.claim i key now).Inv := by
  unfold AlertState.claim
  split_ifs with hlt
  · refine h.setPhase hc (by rw [hphase]; rfl) fun now' hnow' ↦ ⟨key, hkey, ?_⟩
    obtain rfl := SendPhase.suppressed.inj hnow'
    rw [h.last] at hlt
    cases hlast : (s.slotsOf key).getLast? with
    | none =>
      rw [hlast, Option.getD_none, sub_zero] at hlt
      exact .inl hlt
    | some t =>
      rw [hlast, Option.getD_some, sub_lt_iff_lt_add'] at hlt
      exact .inr ⟨t, List.mem_of_getLast? hlast, hlt⟩
  · have hopens : Throttle.Opens dedupInterval now (s.slotsOf key).getLast? := by
      intro t ht
      rw [← h.last] at ht
      rw [show s.lastSent key = some t from ht, Option.getD_some, sub_lt_iff_lt_add', not_lt] at hlt
      exact hlt
    have hslots (key' : PyStr) := slotsOf_concat (s := s) { s.setPhase i (.through (some now)) with
      lastSent := Function.update s.lastSent key (some now), slots := s.slots ++ [(key, now)] } rfl key'
    refine ⟨fun key' ↦ ?_, fun key' ↦ ?_, fun key' ↦ ?_, late_setPhase hc (fun d hd now' hnow' ↦ ?_) nofun⟩
    · rw [hslots]
      split_ifs with heq
      · subst heq
        rw [List.getLast?_concat]
        exact Function.update_self ..
      · rw [← h.last]
        exact Function.update_of_ne (Ne.symm heq) ..
    · rw [hslots]
      split_ifs with heq
      · subst heq
        exact Throttle.spaced_concat (by unfold dedupInterval; norm_num) (h.spaced key) hopens
      · exact h.spaced key'
    · rw [hslots]
      have hold : SendCall.stampOf key' c = none := by
        rw [SendCall.stampOf, hphase]
        exact ite_self _
      split_ifs with heq
      · subst heq
        refine (filterMap_modify_perm hc hold (b := now) ?_).trans ((h.stamps key).append_right [now])
        exact if_pos hkey
      · refine List.Perm.trans (.of_eq (filterMap_modify_eq hc ?_)) (h.stamps key')
        rw [hold]
        exact if_neg fun hkey' ↦ heq (Option.some.inj (hkey.symm.trans hkey'))
    · obtain ⟨key', hkey', hlate⟩ := h.late d hd now' hnow'
      refine ⟨key', hkey', hlate.imp_right ?_⟩
      rintro ⟨t, ht, hlt'⟩
      refine ⟨t, ?_, hlt'⟩
      rw [hslots]
      split_ifs
      · exact List.mem_append_left _ ht
      · exact ht

theorem Inv.next (h : s.Inv) (step : AlertStep) : (s.next step).Inv := by
  cases step with
  | call a =>
    refine ⟨h.last, h.spaced, fun key ↦ ?_, fun c hc ↦ ?_⟩
    · have hnone : SendCall.stampOf key ⟨a, .called⟩ = none := ite_self _
      show ((s.calls ++ [(⟨a, .called⟩ : SendCall)]).filterMap (SendCall.stampOf key)).Perm _
      rw [List.filterMap_append, List.filterMap_cons, hnone, List.filterMap_nil, List.append_nil]
      exact h.stamps key
    · rcases List.mem_append.1 hc with hc | hc
      · exact h.late c hc
      · rw [List.mem_singleton.1 hc]
        exact nofun
  | run i time url =>
    show (s.calls[i]?.elim s (s.proceed i time url)).Inv
    cases hc : s.calls[i]? with
    | none => exact h
    | some c =>
      obtain ⟨⟨event, title, detail, key?⟩, phase⟩ := c
      cases phase with
      | called =>
        cases key? with
        | none => exact h.setPhase hc rfl nofun
        | some key => exact h.setPhase hc rfl nofun
      | stamped now =>
        cases key? with
        | none => exact h
        | some key => exact h.claim hc rfl rfl
      | through stamp =>
        show (if url.getD [] = [] then _ else _ : AlertState).Inv
        split_ifs
        · exact h.setPhase hc rfl nofun
        · exact h.setPhase hc rfl nofun
      | suppressed now => exact h
      | unsent stamp => exact h
      | posted stamp payload => exact h

/-- **The throttle.** However the calls of `send` interleave, and whatever the clock shows: the alerts with one key that
are let through are spaced by six hours, so that a time has as many of them as fit into it and no more, with or without
a webhook. One that is held back has a key, and comes less than six hours after one with that key that was let through,
unless the clock shows the first hours of the epoch. -/
theorem send_exec (steps : List AlertStep) :
    let s := exec next initial steps
    (∀ key a b, (Window.within a b (s.calls.filterMap (SendCall.stampOf key))).length ≤
      ⌊(b - a) / dedupInterval⌋₊ + 1) ∧
    ∀ c ∈ s.calls, ∀ now, c.phase = .suppressed now → ∃ key, c.alert.dedupKey = some key ∧
      (now < dedupInterval ∨ ∃ d ∈ s.calls, ∃ t, d.stampOf key = some t ∧ now < t + dedupInterval) := by
  intro s
  have hinv : s.Inv := exec_invariant' (fun _ (s : AlertState) ↦ s.Inv) inv_initial (fun _ _ step h ↦ h.next step) steps
  refine ⟨fun key a b ↦ ?_, fun c hc now hnow ↦ ?_⟩
  · have hperm := (hinv.stamps key).filter fun t ↦ a ≤ t ∧ t ≤ b
    exact hperm.length_eq ▸ (hinv.spaced key).within_length_le (by unfold dedupInterval; norm_num) a b
  · obtain ⟨key, hkey, hlate⟩ := hinv.late c hc now hnow
    refine ⟨key, hkey, hlate.imp_right ?_⟩
    rintro ⟨t, ht, hlt⟩
    obtain ⟨d, hd, hstamp⟩ := List.mem_filterMap.1 ((hinv.stamps key).mem_iff.2 ht)
    exact ⟨d, hd, t, hstamp, hlt⟩

end AlertState

end LocalGateway
