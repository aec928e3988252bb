import Mathlib.Data.List.Nodup
import LocalGateway.Snooze.Manual

/-!
# Snoozes over a restart

A process saves its registry in terms of the wall clock, and the next one reads it in terms of its own
monotonic clock, whose origin is another one. Entries that have run out are left out on both sides,
and so are those of backends that are snoozed for good.

The keys of a map are distinct (`Registry.Distinct`), which every operation keeps, so that an entry
that is left out uncovers no other. `load_save` is the round trip: at every later time the new process
answers what the old one would have.
-/

namespace LocalGateway

/-! ### Distinct keys -/

/-- A key occurs once among the entries. -/
def Registry.Distinct (r : Registry) : Prop :=
  (r.cooldowns.map Prod.fst).Nodup

/-- A key occurs once among the entries of the file, which are those of a JSON object. -/
def SnoozeFile.Distinct (f : SnoozeFile) : Prop :=
  (f.timed.map Prod.fst).Nodup

instance (f : SnoozeFile) : Decidable f.Distinct :=
  inferInstanceAs (Decidable (List.Nodup _))

section Entries

variable {α β : Type} {d : List (PyStr × α)}

theorem nodup_filter_keys (h : (d.map Prod.fst).Nodup) (p : PyStr × α → Bool) :
    ((d.filter p).map Prod.fst).Nodup :=
  h.sublist (List.filter_sublist.map _)

theorem nodup_cons_filter_keys {e : PyStr × α} (h : (d.map Prod.fst).Nodup) :
    ((e :: d.filter (·.1 ≠ e.1)).map Prod.fst).Nodup := by
  rw [List.map_cons, List.nodup_cons]
  refine ⟨fun hmem ↦ ?_, nodup_filter_keys h _⟩
  obtain ⟨e', he', heq⟩ := List.mem_map.1 hmem
  exact absurd heq (by simpa using (List.mem_filter.1 he').2)

variable {g : PyStr × α → Option (PyStr × β)} (hkey : ∀ e e', g e = some e' → e'.1 = e.1)
include hkey

theorem map_fst_filterMap_sublist : ((d.filterMap g).map Prod.fst).Sublist (d.map Prod.fst) := by
  induction d with
  | nil => exact .slnil
  | cons e d ih =>
    rw [List.filterMap_cons]
    split
    · exact ih.cons _
    · next e' he' =>
      rw [List.map_cons, List.map_cons, hkey e e' he']
      exact ih.cons_cons _

/-- Of distinct keys, each is found with what its own entry has become. -/
theorem lookup_filterMap_eq (h : (d.map Prod.fst).Nodup) (k : PyStr) :
    (d.filterMap g).lookup k = (d.lookup k).bind fun v ↦ (g (k, v)).map Prod.snd := by
  rcases hlookup : d.lookup k with - | v
  · rw [Option.bind_none, List.lookup_eq_none_iff]
    intro e' he'
    obtain ⟨e, he, hg⟩ := List.mem_filterMap.1 he'
    rw [hkey e e' hg]
    exact List.lookup_eq_none_iff.1 hlookup e he
  · rw [Option.bind_some]
    rcases hg : g (k, v) with - | ⟨k', w⟩
    · rw [Option.map_none, List.lookup_eq_none_iff]
      intro e' he'
      obtain ⟨⟨m, u⟩, he, hgu⟩ := List.mem_filterMap.1 he'
      rw [hkey _ e' hgu, bne_iff_ne]
      rintro rfl
      -- the entry that was left out is the only one of its key
      have hv : (k, v) ∈ d := by
        obtain ⟨before, after, rfl, -⟩ := List.lookup_eq_some_iff.1 hlookup
        simp
      have hsame : (k, u) = (k, v) := List.inj_on_of_nodup_map h he hv rfl
      rw [hsame, hg] at hgu
      cases hgu
    · obtain rfl : k' = k := hkey _ _ hg
      exact lookup_filterMap hkey hlookup hg

end Entries

/-! ### Every operation keeps the keys distinct -/

section Distinct

variable {r : Registry}

theorem Registry.Distinct.setUntil (h : r.Distinct) (key : PyStr) (t : ℚ) :
    ((r.setUntil key t).map Prod.fst).Nodup :=
  nodup_cons_filter_keys (e := (key, t)) h

theorem Registry.Distinct.popUntil (h : r.Distinct) (key : PyStr) :
    ((r.popUntil key).map Prod.fst).Nodup :=
  nodup_filter_keys h _

theorem Registry.Distinct.isAvailable (h : r.Distinct) (now : ℚ) (key : PyStr) :
    (r.isAvailable now key).1.Distinct := by
  unfold Registry.isAvailable
  split_ifs
  · exact h
  · split
    · exact h
    · split_ifs
      · exact h.popUntil key
      · exact h

theorem Registry.Distinct.next (h : r.Distinct) (call : SnoozeCall) : (r.next call).Distinct := by
  cases call with
  | setCooldown provider model retryAfter now => exact h.setUntil _ _
  | snooze provider model seconds now => exact h.setUntil _ _
  | snoozePermanent provider model now => exact h.popUntil _
  | unsnooze provider model now => exact h.popUntil _
  | clear now => exact List.nodup_nil
  | isAvailable provider model now => exact h.isAvailable now _

theorem Registry.Distinct.renameProvider (h : r.Distinct) (old new : PyStr) :
    (r.renameProvider old new).Distinct := by
  show ((r.cooldowns.foldr (Registry.moveCooldown old new) r.cooldowns).map Prod.fst).Nodup
  suffices ∀ es : List (PyStr × ℚ),
      ((es.foldr (Registry.moveCooldown old new) r.cooldowns).map Prod.fst).Nodup from
    this r.cooldowns
  intro es
  induction es with
  | nil => exact h
  | cons e es ih =>
    rw [List.foldr_cons, Registry.moveCooldown]
    split_ifs
    · exact nodup_cons_filter_keys (e := (Registry.renamedKey old new e.1, e.2))
        (nodup_filter_keys ih _)
    · exact ih

/-- What `load` makes of an entry keeps its key, and so does `save`. -/
theorem Registry.load_distinct {f : SnoozeFile} (h : f.Distinct) (now realNow : ℚ) :
    (Registry.load (some f) now realNow).Distinct := by
  refine h.sublist (map_fst_filterMap_sublist fun e e' heq ↦ ?_)
  split_ifs at heq
  exact (congrArg Prod.fst (Option.some.inj heq)).symm

theorem Registry.Distinct.save (h : r.Distinct) (now realNow : ℚ) : (r.save now realNow).Distinct := by
  refine h.sublist (map_fst_filterMap_sublist fun e e' heq ↦ ?_)
  split_ifs at heq
  exact (congrArg Prod.fst (Option.some.inj heq)).symm

end Distinct

/-! ### Reachable registries -/

/-- The registries of a process: after it has loaded the file it found, and after each operation. -/
inductive Registry.Reachable : Registry → Prop
  | started (file : Option SnoozeFile) (h : ∀ f ∈ file, f.Distinct) (now realNow : ℚ) :
    Reachable (.load file now realNow)
  | called {r : Registry} (h : Reachable r) (call : SnoozeCall) : Reachable (r.next call)
  | renamed {r : Registry} (h : Reachable r) (old new : PyStr) : Reachable (r.renameProvider old new)

theorem Registry.Reachable.distinct {r : Registry} (h : r.Reachable) : r.Distinct := by
  induction h with
  | started file h now realNow =>
    rcases file with - | f
    · exact List.nodup_nil
    · exact Registry.load_distinct (h f rfl) now realNow
  | called _ call ih => exact ih.next call
  | renamed _ old new ih => exact ih.renameProvider old new

/-! ### The round trip -/

/-- `remaining`: the seconds until a backend is available, and -1 if it is snoozed for good. -/
def Registry.remaining (r : Registry) (now : ℚ) (key : PyStr) : ℚ :=
  if key ∈ r.permanent then -1
  else
    match r.cooldowns.lookup key with
    | none => 0
    | some t => max 0 (t - now)

/-- What is left of an entry after it was saved, and loaded some time later. -/
theorem lookup_load_save {r : Registry} (hr : r.Distinct) {key : PyStr} (hkey : key ∉ r.permanent)
    (now realNow wait origin : ℚ) :
    (Registry.load (some (r.save now realNow)) origin (realNow + wait)).cooldowns.lookup key =
      (r.cooldowns.lookup key).bind fun t ↦
        if 0 < t - now ∧ 0 < t - (now + wait) then some (origin + (t - (now + wait))) else none := by
  have hload : ∀ e e' : PyStr × ℚ, (if 0 < e.2 - (realNow + wait) then
      some (e.1, origin + (e.2 - (realNow + wait))) else none) = some e' → e'.1 = e.1 := by
    intro e e' heq
    split_ifs at heq
    exact (congrArg Prod.fst (Option.some.inj heq)).symm
  have hsave : ∀ e e' : PyStr × ℚ, (if e.1 ∉ r.permanent ∧ 0 < e.2 - now then
      some (e.1, realNow + (e.2 - now)) else none) = some e' → e'.1 = e.1 := by
    intro e e' heq
    split_ifs at heq
    exact (congrArg Prod.fst (Option.some.inj heq)).symm
  have hshift : ∀ t, realNow + (t - now) - (realNow + wait) = t - (now + wait) := fun t ↦ by ring
  rw [Registry.load, lookup_filterMap_eq hload (hr.save now realNow), Registry.save,
    lookup_filterMap_eq hsave hr]
  rcases r.cooldowns.lookup key with - | t
  · rfl
  · simp only [Option.bind_some, hkey, not_false_eq_true, true_and]
    by_cases hsaved : 0 < t - now
    · simp only [hsaved, if_true, true_and, Option.map_some, Option.bind_some, hshift]
      split_ifs <;> rfl
    · simp only [hsaved, if_false, false_and, Option.map_none, Option.bind_none]

/-- **Saving and loading is a round trip.** Of every reachable registry, which is saved and some time
later loaded by a process whose monotonic clock has any origin: at each later time every backend is
available in the new process exactly if it would be in the old one, and for as long. -/
theorem load_save {r : Registry} (hr : r.Reachable) (now realNow origin : ℚ) {wait later : ℚ}
    (hwait : 0 ≤ wait) (hlater : 0 ≤ later) (provider model : PyStr) :
    let key := snoozeKey provider model
    let r' := Registry.load (some (r.save now realNow)) origin (realNow + wait)
    (r'.isAvailable (origin + later) key).2 = (r.isAvailable (now + wait + later) key).2 ∧
      r'.remaining (origin + later) key = r.remaining (now + wait + later) key := by
  intro key r'
  have hpermanent : r'.permanent = r.permanent := rfl
  by_cases hmem : key ∈ r.permanent
  · simp only [Registry.isAvailable, Registry.remaining, hpermanent, if_pos hmem, and_self]
  · have hlookup := lookup_load_save hr.distinct hmem now realNow wait origin
    change r'.cooldowns.lookup key = _ at hlookup
    simp only [Registry.isAvailable, Registry.remaining, hpermanent, if_neg hmem, hlookup]
    rcases r.cooldowns.lookup key with - | t
    · exact ⟨rfl, rfl⟩
    · simp only [Option.bind_some]
      by_cases hkept : 0 < t - now ∧ 0 < t - (now + wait)
      · have hend : origin + (t - (now + wait)) ≤ origin + later ↔ t ≤ now + wait + later := by
          constructor <;> intro h <;> linarith
        have hrest : origin + (t - (now + wait)) - (origin + later) = t - (now + wait + later) := by
          ring
        simp only [if_pos hkept, hend, hrest]
        refine ⟨?_, trivial⟩
        split_ifs <;> rfl
      · -- an entry that was left out has run out by now
        have hover : t ≤ now + wait + later := by
          by_contra hlt
          exact hkept ⟨by linarith, by linarith⟩
        simp only [if_neg hkept, if_pos hover]
        exact ⟨trivial, (max_eq_left (by linarith)).symm⟩

/-- A registry with a snooze for good, one for an hour and a cooldown of the same backend. -/
theorem load_save_sample :
    let r := (((Registry.load none 0 0).next (.snoozePermanent (py "p") (py "m") 1)).next
      (.snooze (py "q") (py "m") 3600 2)).next (.setCooldown (py "p") (py "m") none 3)
    let key := snoozeKey (py "q") (py "m")
    let r' := Registry.load (some (r.save 10 1010)) 5000 (1010 + 20)
    (r'.isAvailable (5000 + 7) key).2 = (r.isAvailable (10 + 20 + 7) key).2 ∧
      r'.remaining (5000 + 7) key = r.remaining (10 + 20 + 7) key :=
  load_save (.called (.called (.called (.started none (fun _ h ↦ by cases h) 0 0) _) _) _) 10 1010 5000
    (by decide +kernel) (by decide +kernel) (py "q") (py "m")

end LocalGateway
