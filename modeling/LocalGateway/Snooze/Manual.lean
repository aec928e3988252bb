import LocalGateway.Foundations.Runs
import LocalGateway.Snooze.RateLimit

/-!
# Snoozes and cooldowns

An operator snoozes a backend until a time or for good; an answer 429 of the backend cools it down for
the seconds it asks for. Both write to the same map of one registry (`ratelimit.py`), and the last
to write wins.

* `lastRequest`: until when the last request for a backend, if it was not taken back, snoozes it.
* `Registry.Protects`: after a call, no backend is available before its request has run out, and a
  cooldown has made no backend available earlier.
* `every_protects_iff`: a run protects its backends exactly if each of its calls is gentle, that is, no
  cooldown replaces a longer entry, and no call for another backend with the same key takes a request
  away.
-/

namespace LocalGateway

open Py

/-! ### Calls -/

/-- A call of the registry, for a provider and a model, at a time of the monotonic clock. -/
inductive SnoozeCall
  | setCooldown (provider model : PyStr) (retryAfter : Option ℚ) (now : ℚ)
  | snooze (provider model : PyStr) (seconds : ℚ) (now : ℚ)
  | snoozePermanent (provider model : PyStr) (now : ℚ)
  | unsnooze (provider model : PyStr) (now : ℚ)
  | clear (now : ℚ)
  | isAvailable (provider model : PyStr) (now : ℚ)

namespace SnoozeCall

/-- The time of a call. -/
def time : SnoozeCall → ℚ
  | .setCooldown _ _ _ now | .snooze _ _ _ now | .snoozePermanent _ _ now | .unsnooze _ _ now
  | .clear now | .isAvailable _ _ now => now

/-- What becomes of the request for a backend. -/
def request (provider model : PyStr) (before : Option Expiry) : SnoozeCall → Option Expiry
  | .snooze p m seconds now =>
    if p = provider ∧ m = model then some ((now + seconds : ℚ) : Expiry) else before
  | .snoozePermanent p m _ => if p = provider ∧ m = model then some ⊤ else before
  | .unsnooze p m _ => if p = provider ∧ m = model then none else before
  | .clear _ => none
  | .setCooldown .. | .isAvailable .. => before

end SnoozeCall

/-- Until when the last request for a backend is to snooze it, unless it was taken back. -/
def lastRequest (provider model : PyStr) (calls : List SnoozeCall) : Option Expiry :=
  calls.foldl (fun before call ↦ call.request provider model before) none

theorem lastRequest_concat (provider model : PyStr) (calls : List SnoozeCall) (call : SnoozeCall) :
    lastRequest provider model (calls ++ [call]) =
      call.request provider model (lastRequest provider model calls) :=
  List.foldl_concat ..

namespace Registry

/-- The registry after a call. -/
def next (r : Registry) : SnoozeCall → Registry
  | .setCooldown provider model retryAfter now =>
    r.setCooldown now (snoozeKey provider model) retryAfter
  | .snooze provider model seconds now => r.snooze now (snoozeKey provider model) seconds
  | .snoozePermanent provider model _ => r.snoozePermanent (snoozeKey provider model)
  | .unsnooze provider model _ => r.unsnooze (snoozeKey provider model)
  | .clear _ => .empty
  | .isAvailable provider model now => (r.isAvailable now (snoozeKey provider model)).1

/-- After the call no backend is available before the time of its request, and if the call is a
cooldown, every backend is available only when it would be without it. -/
structure Protects (past : List SnoozeCall) (r : Registry) (call : SnoozeCall) : Prop where
  snoozed : ∀ provider model e, lastRequest provider model (past ++ [call]) = some e →
    ∀ t, call.time ≤ t → (t : Expiry) < e →
      ((r.next call).isAvailable t (snoozeKey provider model)).2 = false
  cooled : ∀ provider model retryAfter now, call = .setCooldown provider model retryAfter now →
    ∀ key t, now ≤ t → (r.isAvailable t key).2 = false → ((r.next call).isAvailable t key).2 = false

/-- A cooldown ends no earlier than the entry it replaces, unless the backend is snoozed for good; and
a snooze, or its removal, cuts no request short for another backend that has the same key. -/
def Gentle (past : List SnoozeCall) (r : Registry) : SnoozeCall → Prop
  | .setCooldown provider model retryAfter now =>
    snoozeKey provider model ∈ r.permanent ∨
      ∀ t ∈ r.cooldowns.lookup (snoozeKey provider model),
        t ≤ now + max (1 / 10) (retryAfter.getD 5)
  | .snooze provider model seconds now =>
    ∀ p m e, lastRequest p m past = some e → snoozeKey p m = snoozeKey provider model →
      ¬ (provider = p ∧ model = m) → e ≤ ((now + max (1 / 10) seconds : ℚ) : Expiry)
  | .unsnooze provider model now =>
    ∀ p m e, lastRequest p m past = some e → snoozeKey p m = snoozeKey provider model →
      ¬ (provider = p ∧ model = m) → e ≤ (now : Expiry)
  | _ => True

end Registry

/-! ### Availability -/

section Available

variable {r : Registry} {now t u : ℚ} {k l : PyStr} {e : Expiry}

/-- When a backend is not available. -/
theorem isAvailable_eq_false_iff : (r.isAvailable t k).2 = false ↔
    k ∈ r.permanent ∨ ∃ u, r.cooldowns.lookup k = some u ∧ t < u := by
  unfold Registry.isAvailable
  split_ifs with hmem
  · exact iff_of_true rfl (.inl hmem)
  · rw [or_iff_right hmem]
    rcases r.cooldowns.lookup k with - | u
    · simp
    · simp only [Option.some.injEq, exists_eq_left']
      split_ifs with hle
      · exact iff_of_false (by simp) (not_lt.2 hle)
      · exact iff_of_true rfl (not_le.1 hle)

/-- A snooze that has not run out, and until whose end a backend is not available, is held. -/
theorem holds_of_unavailable (hnow : (now : Expiry) < e)
    (h : ∀ t, now ≤ t → (t : Expiry) < e → (r.isAvailable t k).2 = false) : r.Holds k e := by
  simp only [isAvailable_eq_false_iff] at h
  by_cases hmem : k ∈ r.permanent
  · exact .inl hmem
  · obtain ⟨u, hu, hlt⟩ := (h now le_rfl hnow).resolve_left hmem
    refine .inr ⟨u, hu, not_lt.1 fun hue ↦ ?_⟩
    -- the entry would have run out at its own time
    obtain ⟨v, hv, huv⟩ := (h u hlt.le hue).resolve_left hmem
    obtain rfl : u = v := Option.some.inj (hu.symm.trans hv)
    exact lt_irrefl _ huv

theorem lookup_setUntil_self : (r.setUntil k t).lookup k = some t := by
  simp [Registry.setUntil]

theorem lookup_setUntil_of_ne (h : k ≠ l) : (r.setUntil l t).lookup k = r.cooldowns.lookup k := by
  have hne : (k == l) = false := by simpa using h
  rw [Registry.setUntil, List.lookup_cons, hne, lookup_filter_ne h]

theorem lookup_popUntil_self : (r.popUntil k).lookup k = none := by
  rw [Registry.popUntil, List.lookup_eq_none_iff]
  intro e he
  have hne : e.1 ≠ k := by simpa using (List.mem_filter.1 he).2
  simpa using hne.symm

/-- After a snooze the backend is held no longer than it was asked for. -/
theorem le_of_snooze_holds {seconds : ℚ} (h : (r.snooze now k seconds).Holds k e) :
    e ≤ ((now + max (1 / 10) seconds : ℚ) : Expiry) := by
  rcases h with hmem | ⟨u, hu, he⟩
  · simp [Registry.snooze] at hmem
  · obtain rfl := Option.some.inj (lookup_setUntil_self.symm.trans hu)
    exact he

end Available

/-! ### One call -/

section Call

variable {past : List SnoozeCall} {r : Registry} {call : SnoozeCall} {provider model : PyStr}
  {start : ℚ} {e : Expiry}

/-- Every request is held, or has run out. -/
def Registry.Keeps (r : Registry) (start : ℚ) (past : List SnoozeCall) : Prop :=
  ∀ now, Runs.Until SnoozeCall.time start past now → ∀ provider model e,
    lastRequest provider model past = some e → (now : Expiry) < e → r.Holds (snoozeKey provider model) e

/-- A registry that keeps the requests protects them. -/
theorem unavailable_of_keeps (h : r.Keeps start past) {now : ℚ}
    (hnow : Runs.Until SnoozeCall.time start past now)
    (hreq : lastRequest provider model past = some e) {t : ℚ} (ht : now ≤ t) (hlt : (t : Expiry) < e) :
    (r.isAvailable t (snoozeKey provider model)).2 = false :=
  isAvailable_eq_false (h now hnow provider model e hreq ((WithTop.coe_le_coe.2 ht).trans_lt hlt)) hlt

/-- **A gentle call keeps every request.** -/
theorem keeps_next (h : r.Keeps start past) (hcall : Runs.Until SnoozeCall.time start past call.time)
    (hgentle : r.Gentle past call) : (r.next call).Keeps start (past ++ [call]) := by
  intro now hnow p m e hreq hlt
  have hle : call.time ≤ now := hnow.2 call (by simp)
  have hlt : (call.time : Expiry) < e := (WithTop.coe_le_coe.2 hle).trans_lt hlt
  rw [lastRequest_concat] at hreq
  cases call with
  | setCooldown provider model retryAfter t =>
    have hheld := h _ hcall p m e hreq hlt
    refine setCooldown_holds hheld fun heq hmem ↦ ?_
    rw [heq] at hmem hheld
    obtain ⟨u, hu, he⟩ := hheld.resolve_left hmem
    exact he.trans (WithTop.coe_le_coe.2 (hgentle.resolve_left hmem u hu))
  | snooze provider model seconds t =>
    simp only [SnoozeCall.request] at hreq
    -- the last request may be this call; another pair can still share its key
    split_ifs at hreq with hself
    · obtain ⟨rfl, rfl⟩ := hself
      rw [← Option.some.inj hreq]
      exact (snooze_holds_self seconds).mono (WithTop.coe_le_coe.2 (by gcongr; exact le_max_right _ _))
    · have hheld := h _ hcall p m e hreq hlt
      rcases eq_or_ne (snoozeKey p m) (snoozeKey provider model) with heq | hne
      · show Registry.Holds _ (snoozeKey p m) e
        rw [heq]
        exact (snooze_holds_self seconds).mono (hgentle p m e hreq heq hself)
      · exact snooze_holds_of_ne hheld hne seconds
  | snoozePermanent provider model t =>
    simp only [SnoozeCall.request] at hreq
    rcases eq_or_ne (snoozeKey p m) (snoozeKey provider model) with heq | hne
    · show Registry.Holds _ (snoozeKey p m) e
      rw [heq]
      exact snoozePermanent_holds_self
    · split_ifs at hreq with hself
      · exact absurd (by rw [hself.1, hself.2]) hne
      · exact snoozePermanent_holds_of_ne (h _ hcall p m e hreq hlt) hne
  | unsnooze provider model t =>
    simp only [SnoozeCall.request] at hreq
    split_ifs at hreq with hself
    rcases eq_or_ne (snoozeKey p m) (snoozeKey provider model) with heq | hne
    · exact absurd hlt (not_lt.2 (hgentle p m e hreq heq hself))
    · exact unsnooze_holds_of_ne (h _ hcall p m e hreq hlt) hne
  | clear t => cases hreq
  | isAvailable provider model t => exact isAvailable_holds (h _ hcall p m e hreq hlt) hlt

/-- A cooldown makes no backend available earlier, exactly if it is gentle. -/
theorem cooled_iff (r : Registry) (key : PyStr) (retryAfter : Option ℚ) (now : ℚ) :
    (∀ k t, now ≤ t → (r.isAvailable t k).2 = false →
        ((r.setCooldown now key retryAfter).isAvailable t k).2 = false) ↔
      key ∈ r.permanent ∨
        ∀ t ∈ r.cooldowns.lookup key, t ≤ now + max (1 / 10) (retryAfter.getD 5) := by
  simp only [isAvailable_eq_false_iff, Registry.setCooldown]
  constructor
  · intro h
    rw [or_iff_not_imp_left]
    intro hmem u hu
    by_contra hlt
    -- at the end of the cooldown the entry it replaced would still be there
    have hend : now ≤ now + max (1 / 10) (retryAfter.getD 5) :=
      le_add_of_nonneg_right (le_max_of_le_left (by norm_num))
    obtain ⟨v, hv, hself⟩ :=
      (h key _ hend (.inr ⟨u, hu, not_le.1 hlt⟩)).resolve_left hmem
    obtain rfl := Option.some.inj (lookup_setUntil_self.symm.trans hv)
    exact lt_irrefl _ hself
  · intro h k t ht hbefore
    rcases eq_or_ne k key with rfl | hne
    · rcases h with hmem | hle
      · exact .inl hmem
      · exact hbefore.imp_right fun ⟨u, hu, hlt⟩ ↦
          ⟨_, lookup_setUntil_self, hlt.trans_le (hle u hu)⟩
    · exact hbefore.imp_right fun ⟨u, hu, hlt⟩ ↦ ⟨u, (lookup_setUntil_of_ne hne).trans hu, hlt⟩

/-- A call that protects the backends is gentle. -/
theorem Registry.Protects.gentle (h : r.Protects past call) : r.Gentle past call := by
  cases call with
  | setCooldown provider model retryAfter now =>
    exact (cooled_iff r _ retryAfter now).1 (h.cooled provider model retryAfter now rfl)
  | snooze provider model seconds now =>
    intro p m e hreq heq hne
    have hend : (now : Expiry) ≤ ((now + max (1 / 10) seconds : ℚ) : Expiry) :=
      WithTop.coe_le_coe.2 (le_add_of_nonneg_right (le_max_of_le_left (by norm_num)))
    rcases lt_or_ge (now : Expiry) e with hlt | hle
    · have hafter : lastRequest p m (past ++ [.snooze provider model seconds now]) = some e := by
        rw [lastRequest_concat, SnoozeCall.request, if_neg hne, hreq]
      have hheld := holds_of_unavailable hlt (h.snoozed p m e hafter)
      rw [heq] at hheld
      exact le_of_snooze_holds hheld
    · exact hle.trans hend
  | unsnooze provider model now =>
    intro p m e hreq heq hne
    by_contra hlt
    have hafter : lastRequest p m (past ++ [.unsnooze provider model now]) = some e := by
      rw [lastRequest_concat, SnoozeCall.request, if_neg hne, hreq]
    have hgone := h.snoozed p m e hafter now le_rfl (not_le.1 hlt)
    rw [heq, isAvailable_eq_false_iff] at hgone
    rcases hgone with hmem | ⟨u, hu, -⟩
    · simp [Registry.next, Registry.unsnooze] at hmem
    · rw [Registry.next, Registry.unsnooze, lookup_popUntil_self] at hu
      cases hu
  | snoozePermanent | clear | isAvailable => trivial

end Call

/-! ### Runs -/

/-- **When snoozes are not shortened.** In any run of calls at times that do not go back, from any
registry: no backend is available before its request has run out and no cooldown makes one available
earlier, exactly if every call is gentle. -/
theorem every_protects_iff (r : Registry) (start : ℚ) {calls : List SnoozeCall}
    (h : Runs.Timed SnoozeCall.time start calls) :
    Runs.Every Registry.next (fun past r call ↦ r.Protects past call) r calls ↔
      Runs.Every Registry.next (fun past r call ↦ r.Gentle past call) r calls := by
  constructor
  · rintro hprotects past call future heq
    exact (hprotects past call future heq).gentle
  · rintro hgentle past call future rfl
    have hcall : Runs.Until SnoozeCall.time start past call.time := h.until
    have hkeeps : (Runs.exec Registry.next r past).Keeps start past := by
      refine Runs.exec_invariant (fun past (r : Registry) ↦ r.Keeps start past)
        (P := fun past r call ↦ Runs.Until SnoozeCall.time start past call.time ∧ r.Gentle past call)
        (fun _ _ _ _ _ hnone ↦ by cases hnone) (fun _ _ _ hr hi ↦ keeps_next hr hi.1 hi.2) ?_
      rintro past' call' future' rfl
      exact ⟨(Runs.timed_append_left h).until,
        hgentle past' call' (future' ++ call :: future) (by simp)⟩
    have hnow := hgentle past call future rfl
    refine ⟨fun p m e hreq t ht hlt ↦ ?_, ?_⟩
    · have hafter : Runs.Until SnoozeCall.time start (past ++ [call]) call.time := by
        refine ⟨hcall.1, fun i hi ↦ ?_⟩
        rcases List.mem_append.1 hi with hi | hi
        · exact hcall.2 i hi
        · rw [List.mem_singleton.1 hi]
      exact unavailable_of_keeps (keeps_next hkeeps hcall hnow) hafter hreq ht hlt
    · rintro provider model retryAfter now rfl
      exact (cooled_iff _ _ retryAfter now).2 hnow

/-- The backend is snoozed for an hour, and cooled down for five seconds meanwhile. -/
def cutShort : List SnoozeCall :=
  [.snooze (py "p") (py "m") 3600 0, .setCooldown (py "p") (py "m") none 1]

/-- **A snooze that is cut short.** After the cooldown the backend is available again. -/
theorem not_every_protects_cutShort :
    Runs.Timed SnoozeCall.time 0 cutShort ∧
      ¬ Runs.Every Registry.next (fun past r call ↦ r.Protects past call) .empty cutShort := by
  refine ⟨by decide +kernel, fun h ↦ ?_⟩
  have hlast := h [.snooze (py "p") (py "m") 3600 0] _ [] rfl
  have hgone := hlast.snoozed (py "p") (py "m") 3600 (by decide +kernel) 6
    (by decide +kernel) (by decide +kernel)
  revert hgone
  decide +kernel

/-- A longer cooldown does no harm. -/
theorem every_protects_iff_sample :
    Runs.Every Registry.next (fun past r call ↦ r.Protects past call) .empty
        [.setCooldown (py "p") (py "m") none 0, .setCooldown (py "p") (py "m") (some 60) 1] ↔
      Runs.Every Registry.next (fun past r call ↦ r.Gentle past call) .empty
        [.setCooldown (py "p") (py "m") none 0, .setCooldown (py "p") (py "m") (some 60) 1] :=
  every_protects_iff .empty 0 (by decide +kernel)

end LocalGateway
