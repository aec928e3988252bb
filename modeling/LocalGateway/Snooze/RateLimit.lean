import Mathlib.Algebra.Order.Field.Rat
import Mathlib.Data.Rat.Defs
import Mathlib.Tactic.Linarith
import Mathlib.Tactic.Ring
import LocalGateway.Python.Text

/-!
# The snooze registry

The registry of snoozed backends of one process (`RateLimitState`) and the file `snooze.json` that
processes share. A backend is named by `provider:model`; it is snoozed for good, or until a time of
the monotonic clock. In the file, times are those of the wall clock.

Times are rational numbers of seconds; the rounding of `float` is left out.

`Registry.Holds` says that a registry holds a snooze at least as long as asked for. The lemmas about
it say which operations keep it, and `save_holds`, `load_holds` carry it through the file.
-/

namespace LocalGateway

/-- Until when a backend is snoozed: a time, or for good. -/
abbrev Expiry := WithTop ℚ

/-! ### The registry -/

/-- `RateLimitState`. -/
structure Registry where
  cooldowns : List (PyStr × ℚ)
  permanent : List PyStr
deriving DecidableEq

/-- `_key`. -/
def snoozeKey (provider model : PyStr) : PyStr :=
  provider ++ py ":" ++ model

namespace Registry

variable (r : Registry)

/-- `RateLimitState()`. -/
def empty : Registry :=
  ⟨[], []⟩

/-- `_cooldowns[key] = _Cooldown(until)`. -/
def setUntil (key : PyStr) (t : ℚ) : List (PyStr × ℚ) :=
  (key, t) :: r.cooldowns.filter (·.1 ≠ key)

/-- `_cooldowns.pop(key, None)`. -/
def popUntil (key : PyStr) : List (PyStr × ℚ) :=
  r.cooldowns.filter (·.1 ≠ key)

/-- `set_cooldown`. -/
def setCooldown (now : ℚ) (key : PyStr) (retryAfter : Option ℚ) : Registry :=
  { r with cooldowns := r.setUntil key (now + max (1 / 10) (retryAfter.getD 5)) }

/-- `snooze`. -/
def snooze (now : ℚ) (key : PyStr) (seconds : ℚ) : Registry :=
  ⟨r.setUntil key (now + max (1 / 10) seconds), r.permanent.filter (· ≠ key)⟩

/-- `snooze_permanent`. -/
def snoozePermanent (key : PyStr) : Registry :=
  ⟨r.popUntil key, r.permanent.insert key⟩

/-- `unsnooze`. -/
def unsnooze (key : PyStr) : Registry :=
  ⟨r.popUntil key, r.permanent.filter (· ≠ key)⟩

/-- The key `k` of a backend of the provider `old`, after `old` was renamed. -/
def renamedKey (old new k : PyStr) : PyStr :=
  new ++ py ":" ++ k.drop (old ++ py ":").length

/-- An entry is moved to the new name. -/
def moveCooldown (old new : PyStr) (e : PyStr × ℚ) (cool : List (PyStr × ℚ)) : List (PyStr × ℚ) :=
  if Py.startsWith e.1 (old ++ py ":") then
    let target := renamedKey old new e.1
    (target, e.2) :: (cool.filter (·.1 ≠ e.1)).filter (·.1 ≠ target)
  else cool

/-- A key is moved to the new name. -/
def movePermanent (old new k : PyStr) (permanent : List PyStr) : List PyStr :=
  if Py.startsWith k (old ++ py ":") then
    (permanent.filter (· ≠ k)).insert (renamedKey old new k)
  else permanent

/-- `rename_provider`. The keys are gone through while copies of the tables change; what was
inserted last stands first in a list. -/
def renameProvider (old new : PyStr) : Registry where
  cooldowns := r.cooldowns.foldr (moveCooldown old new) r.cooldowns
  permanent := r.permanent.foldr (movePermanent old new) r.permanent

/-- The number of entries that `clear` reports. -/
def count : ℕ :=
  r.permanent.length + r.cooldowns.length

/-- `is_available`, with the registry after it: an entry that has expired is dropped. -/
def isAvailable (now : ℚ) (key : PyStr) : Registry × Bool :=
  if key ∈ r.permanent then (r, false)
  else
    match r.cooldowns.lookup key with
    | none => (r, true)
    | some t => if t ≤ now then ({ r with cooldowns := r.popUntil key }, true) else (r, false)

end Registry

/-! ### The file -/

/-- What `snooze.json` holds. -/
structure SnoozeFile where
  permanent : List PyStr
  timed : List (PyStr × ℚ)
deriving DecidableEq

/-- `save`, at a time of the monotonic and of the wall clock. -/
def Registry.save (r : Registry) (now realNow : ℚ) : SnoozeFile where
  permanent := r.permanent
  timed := r.cooldowns.filterMap fun e ↦
    if e.1 ∉ r.permanent ∧ 0 < e.2 - now then some (e.1, realNow + (e.2 - now)) else none

/-- `load_from_file`, in a process that has just been started. -/
def Registry.load (file : Option SnoozeFile) (now realNow : ℚ) : Registry :=
  match file with
  | none => .empty
  | some f =>
    ⟨f.timed.filterMap fun e ↦
      if 0 < e.2 - realNow then some (e.1, now + (e.2 - realNow)) else none, f.permanent⟩

/-! ### Holding a snooze -/

/-- The registry holds a snooze of the backend at least until the given time. -/
def Registry.Holds (r : Registry) (key : PyStr) (expiry : Expiry) : Prop :=
  key ∈ r.permanent ∨ ∃ t, r.cooldowns.lookup key = some t ∧ expiry ≤ (t : Expiry)

/-- The file holds it, when the wall clock is ahead of the monotonic one by `epoch`. -/
def SnoozeFile.Holds (f : SnoozeFile) (epoch : ℚ) (key : PyStr) (expiry : Expiry) : Prop :=
  key ∈ f.permanent ∨ ∃ t, f.timed.lookup key = some (t + epoch) ∧ expiry ≤ (t : Expiry)

theorem Registry.Holds.mono {r : Registry} {key : PyStr} {e e' : Expiry} (h : r.Holds key e)
    (hle : e' ≤ e) : r.Holds key e' := by
  rcases h with h | ⟨t, ht, he⟩
  · exact .inl h
  · exact .inr ⟨t, ht, hle.trans he⟩

/-- A backend that is held and has not expired is not available. -/
theorem isAvailable_eq_false {r : Registry} {now : ℚ} {key : PyStr} {e : Expiry}
    (h : r.Holds key e) (hnow : (now : Expiry) < e) : (r.isAvailable now key).2 = false := by
  unfold Registry.isAvailable
  split_ifs with hmem
  · rfl
  · rcases h with h | ⟨t, ht, he⟩
    · exact absurd h hmem
    · have hlt : now < t := by exact_mod_cast hnow.trans_le he
      rw [ht]
      simp only
      rw [if_neg (not_le.2 hlt)]

/-- Removing another key leaves a key's entry alone. -/
theorem lookup_filter_ne {α : Type} {d : List (PyStr × α)} {k l : PyStr} (h : k ≠ l) :
    (d.filter (·.1 ≠ l)).lookup k = d.lookup k := by
  induction d with
  | nil => rfl
  | cons e d ih =>
    obtain ⟨m, v⟩ := e
    by_cases hm : m = l
    · subst hm
      have hne : (k == m) = false := by simpa using h
      simpa [List.lookup_cons, hne] using ih
    · by_cases hk : k = m
      · subst hk
        simp [h]
      · have hne : (k == m) = false := by simpa using hk
        simpa [List.lookup_cons, hm, hne] using ih

/-- A filter that keeps a key's entry, under a new value. -/
theorem lookup_filterMap {α β : Type} {d : List (PyStr × α)} {g : PyStr × α → Option (PyStr × β)}
    (hkey : ∀ e e', g e = some e' → e'.1 = e.1) {k : PyStr} {v : α} {w : β}
    (h : d.lookup k = some v) (hg : g (k, v) = some (k, w)) :
    (d.filterMap g).lookup k = some w := by
  induction d with
  | nil => cases h
  | cons e d ih =>
    obtain ⟨m, u⟩ := e
    by_cases hk : k = m
    · subst hk
      obtain rfl : u = v := by simpa [List.lookup_cons] using h
      simp [hg]
    · have hne : (k == m) = false := by simpa using hk
      have hrest : d.lookup k = some v := by simpa [List.lookup_cons, hne] using h
      rw [List.filterMap_cons]
      split
      · exact ih hrest
      · next e' he' =>
        have hne' : (k == e'.1) = false := by rwa [hkey _ _ he']
        rw [List.lookup_cons, hne']
        exact ih hrest

/-! ### What keeps a snooze -/

section Keep

variable {r : Registry} {now : ℚ} {k l : PyStr} {e : Expiry}

/-- Replacing the entry of another key. -/
theorem holds_setUntil_of_ne {permanent : List PyStr} (h : r.Holds k e) (hne : k ≠ l) (t : ℚ)
    (hp : k ∈ r.permanent → k ∈ permanent) : Registry.Holds ⟨r.setUntil l t, permanent⟩ k e := by
  rcases h with h | ⟨u, hu, he⟩
  · exact .inl (hp h)
  · have hlookup : (k == l) = false := by simpa using hne
    refine .inr ⟨u, ?_, he⟩
    show (r.setUntil l t).lookup k = some u
    rw [Registry.setUntil, List.lookup_cons, hlookup, lookup_filter_ne hne, hu]

/-- Dropping the entry of another key. -/
theorem holds_popUntil_of_ne {permanent : List PyStr} (h : r.Holds k e) (hne : k ≠ l)
    (hp : k ∈ r.permanent → k ∈ permanent) : Registry.Holds ⟨r.popUntil l, permanent⟩ k e := by
  rcases h with h | ⟨u, hu, he⟩
  · exact .inl (hp h)
  · exact .inr ⟨u, (lookup_filter_ne hne).trans hu, he⟩

theorem mem_filter_ne (hne : k ≠ l) (h : k ∈ r.permanent) : k ∈ r.permanent.filter (· ≠ l) := by
  simpa [h] using hne

theorem holds_setUntil_self {permanent : List PyStr} {t : ℚ} (he : e ≤ (t : Expiry)) :
    Registry.Holds ⟨r.setUntil k t, permanent⟩ k e :=
  .inr ⟨t, by simp [Registry.setUntil], he⟩

/-- A cooldown keeps a snooze of its key that is for good, or no longer than itself. -/
theorem setCooldown_holds (h : r.Holds k e) {retryAfter : Option ℚ}
    (hself : k = l → k ∉ r.permanent → e ≤ ((now + max (1 / 10) (retryAfter.getD 5) : ℚ) : Expiry)) :
    (r.setCooldown now l retryAfter).Holds k e := by
  by_cases hkl : k = l
  · subst hkl
    by_cases hp : k ∈ r.permanent
    · exact .inl hp
    · exact holds_setUntil_self (hself rfl hp)
  · exact holds_setUntil_of_ne h hkl _ id

theorem snooze_holds_self (seconds : ℚ) :
    (r.snooze now k seconds).Holds k ((now + max (1 / 10) seconds : ℚ) : Expiry) :=
  holds_setUntil_self le_rfl

theorem snooze_holds_of_ne (h : r.Holds k e) (hne : k ≠ l) (seconds : ℚ) :
    (r.snooze now l seconds).Holds k e :=
  holds_setUntil_of_ne h hne _ (mem_filter_ne hne)

theorem snoozePermanent_holds_self : (r.snoozePermanent k).Holds k e :=
  .inl List.mem_insert_self

theorem snoozePermanent_holds_of_ne (h : r.Holds k e) (hne : k ≠ l) :
    (r.snoozePermanent l).Holds k e :=
  holds_popUntil_of_ne h hne fun hk ↦ List.mem_insert_of_mem hk

theorem unsnooze_holds_of_ne (h : r.Holds k e) (hne : k ≠ l) : (r.unsnooze l).Holds k e :=
  holds_popUntil_of_ne h hne (mem_filter_ne hne)

/-- Asking for a backend drops no snooze that has not expired. -/
theorem isAvailable_holds (h : r.Holds k e) (hnow : (now : Expiry) < e) :
    (r.isAvailable now l).1.Holds k e := by
  unfold Registry.isAvailable
  split_ifs with hmem
  · exact h
  · split
    · exact h
    · next t ht =>
      split_ifs with hexpired
      · by_cases hkl : k = l
        · subst hkl
          rcases h with h | ⟨u, hu, he⟩
          · exact absurd h hmem
          · obtain rfl : t = u := Option.some.inj (ht.symm.trans hu)
            have hlt : now < t := by exact_mod_cast hnow.trans_le he
            exact absurd hexpired (not_le.2 hlt)
        · exact holds_popUntil_of_ne h hkl id
      · exact h

/-- What is held and has not expired is saved. -/
theorem save_holds (h : r.Holds k e) (hnow : (now : Expiry) < e) (epoch : ℚ) :
    (r.save now (now + epoch)).Holds epoch k e := by
  by_cases hp : k ∈ r.permanent
  · exact .inl hp
  rcases h with h | ⟨t, ht, he⟩
  · exact absurd h hp
  · have hlt : now < t := by exact_mod_cast hnow.trans_le he
    refine .inr ⟨t, lookup_filterMap ?_ ht ?_, he⟩
    · intro e e' heq
      split_ifs at heq
      exact (congrArg Prod.fst (Option.some.inj heq)).symm
    · simp only
      rw [if_pos ⟨hp, by linarith⟩]
      exact congrArg (fun q ↦ some (k, q)) (by ring)

/-- What was saved and has not expired is loaded. -/
theorem load_holds {f : SnoozeFile} {epoch : ℚ} (h : f.Holds epoch k e) (hnow : (now : Expiry) < e) :
    (Registry.load (some f) now (now + epoch)).Holds k e := by
  rcases h with h | ⟨t, ht, he⟩
  · exact .inl h
  · have hlt : now < t := by exact_mod_cast hnow.trans_le he
    refine .inr ⟨t, lookup_filterMap ?_ ht ?_, he⟩
    · intro e e' heq
      split_ifs at heq
      exact (congrArg Prod.fst (Option.some.inj heq)).symm
    · simp only
      rw [if_pos (by linarith)]
      exact congrArg (fun q ↦ some (k, q)) (by ring)

end Keep

end LocalGateway
