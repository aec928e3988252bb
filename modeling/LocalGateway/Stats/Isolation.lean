import LocalGateway.Foundations.Runs
import LocalGateway.Routing.ProviderRename
import LocalGateway.Snooze.Manual
import LocalGateway.Snooze.Persistence
import LocalGateway.Stats.Registry

/-!
# One backend and the others

The registries of snoozes, of circuits and of statistics, and the table of prices, all name a
backend by `provider:model`, one string. An operation on a backend changes the entries under its
string; a rename of a provider moves the entries whose strings begin with the provider's id.

* `SameAnswers` lists what the registries and the table of prices answer for a backend.
* `Step.Apart` is what keeps a step away from a backend: another string, no entry that is moved from
  it or to it, no circuit that is reset with all the others, and no warmth that is evicted.
* `sameAnswers_exec`: steps apart from a backend change none of its answers.

Two backends may have one string: see `mixedUp`.
-/

namespace LocalGateway

open Py Json List

/-! ### The operations -/

/-- `snapshot` of the snoozes. -/
def Registry.snapshot (r : Registry) (now : ℚ) : List (PyStr × ℚ) :=
  r.permanent.map (fun k ↦ (k, -1)) ++ (r.cooldowns.map Prod.fst).filterMap fun k ↦
    if k ∈ r.permanent then none
    else (r.cooldowns.lookup k).bind fun t ↦ if now < t then some (k, max 0 (t - now)) else none

/-- What one process knows of its backends. -/
structure Registries where
  config : GatewayConfig
  snoozes : Registry
  circuits : Breaker
  stats : StatsRegistry

/-- An operation on a backend. -/
inductive BackendOp where
  | setCooldown (retryAfter : Option ℚ) (now : ℚ)
  | snooze (seconds now : ℚ)
  | snoozePermanent
  | unsnooze
  | isAvailable (now : ℚ)
  | recordOutcome (success : Bool) (error : Option PyStr) (now wall : ℚ)
  | resetCircuit
  | startRequest
  | endRequest
  | recordSuccess (latencyMs ttftMs : Option ℤ) (now : ℚ)
  | recordFailure (error : Option PyStr) (now : ℚ)
  | recordCacheActivity (cacheKey : Option PyStr) (use : CacheUse) (cacheSupported : Option Bool)
      (now : ℚ)

namespace Registries

variable (s : Registries)

/-- The argument of `reset`: without a provider or without a model, all circuits are reset. -/
def resetKey (provider model : PyStr) : Option PyStr :=
  if provider ≠ [] ∧ model ≠ [] then some (backendKey provider model) else none

/-- The registries after an operation. -/
def perform (provider model : PyStr) : BackendOp → Registries
  | .setCooldown retryAfter now =>
    { s with snoozes := s.snoozes.setCooldown now (backendKey provider model) retryAfter }
  | .snooze seconds now =>
    { s with snoozes := s.snoozes.snooze now (backendKey provider model) seconds }
  | .snoozePermanent => { s with snoozes := s.snoozes.snoozePermanent (backendKey provider model) }
  | .unsnooze => { s with snoozes := s.snoozes.unsnooze (backendKey provider model) }
  | .isAvailable now =>
    { s with snoozes := (s.snoozes.isAvailable now (backendKey provider model)).1 }
  | .recordOutcome success error now wall =>
    { s with circuits :=
        (s.circuits.recordOutcome (backendKey provider model) success error now wall).1 }
  | .resetCircuit => { s with circuits := s.circuits.reset (resetKey provider model) }
  | .startRequest => { s with stats := s.stats.startRequest (backendKey provider model) }
  | .endRequest => { s with stats := s.stats.endRequest (backendKey provider model) }
  | .recordSuccess latencyMs ttftMs now =>
    { s with stats := s.stats.recordSuccess (backendKey provider model) latencyMs ttftMs now }
  | .recordFailure error now =>
    { s with stats := s.stats.recordFailure (backendKey provider model) error now }
  | .recordCacheActivity cacheKey use cacheSupported now =>
    { s with stats :=
        s.stats.recordCacheActivity (backendKey provider model) cacheKey use cacheSupported now }

/-- The names in a body of `POST /admin/rename` that is carried out for a provider. -/
def renamedIds (d : PyDict) : Option (PyStr × PyStr) :=
  match strippedText (get? d (py "old_id")), strippedText (get? d (py "new_id")) with
  | some old, some new =>
    if get? d (py "type") = some (.str (py "provider")) ∧
        (renameEntity s.config (.obj d)).verdict = .save then some (old, new)
    else none
  | _, _ => none

/-- `rename_entity`: the configuration with its prices, and the snoozes. -/
def rename (d : PyDict) : Registries where
  config := (renameEntity s.config (.obj d)).live
  snoozes := (s.renamedIds d).elim s.snoozes fun ids ↦ s.snoozes.renameProvider ids.1 ids.2
  circuits := s.circuits
  stats := s.stats

/-- A step: an operation on a backend, or a rename. -/
inductive Step where
  | operation (provider model : PyStr) (op : BackendOp)
  | rename (d : PyDict)

/-- The registries after a step. -/
def next : Registries → Step → Registries
  | s, .operation provider model op => s.perform provider model op
  | s, .rename d => s.rename d

/-! ### The answers for a backend -/

/-- Two states give the same answers for a backend. -/
structure SameAnswers (provider model : PyStr) (s s' : Registries) : Prop where
  available : ∀ now, (s'.snoozes.isAvailable now (backendKey provider model)).2 =
    (s.snoozes.isAvailable now (backendKey provider model)).2
  remaining : ∀ now, s'.snoozes.remaining now (backendKey provider model) =
    s.snoozes.remaining now (backendKey provider model)
  snoozed : ∀ now, (s'.snoozes.snapshot now).lookup (backendKey provider model) =
    (s.snoozes.snapshot now).lookup (backendKey provider model)
  isOpen : ∀ now, s'.circuits.isOpen now (backendKey provider model) =
    s.circuits.isOpen now (backendKey provider model)
  circuit : ∀ now, (s'.circuits.snapshot now).lookup (backendKey provider model) =
    (s.circuits.snapshot now).lookup (backendKey provider model)
  stats : s'.stats.snapshot.get? (backendKey provider model) =
    s.stats.snapshot.get? (backendKey provider model)
  /-- It is among the warm candidates. -/
  warm : ∀ cacheKey candidates ttlSec now,
    backendKey provider model ∈ (s'.stats.warmBackendsFor cacheKey candidates ttlSec now).2 ↔
      backendKey provider model ∈ (s.stats.warmBackendsFor cacheKey candidates ttlSec now).2
  warmth : ∀ candidates ttlSec now,
    (s'.stats.warmthForBackends candidates ttlSec now).get? (backendKey provider model) =
      (s.stats.warmthForBackends candidates ttlSec now).get? (backendKey provider model)
  warmthEntry : ∀ cacheKey,
    (s'.stats.warmthSnapshot.get? cacheKey).bind (·.get? (backendKey provider model)) =
      (s.stats.warmthSnapshot.get? cacheKey).bind (·.get? (backendKey provider model))
  price : s'.config.pricingFor provider model = s.config.pricingFor provider model

/-- An operation leaves alone what does not belong to its own string: it resets no other circuit,
and evicts no warmth of the backend with the given string. -/
def Spares (s : Registries) (provider model key : PyStr) : BackendOp → Prop
  | .resetCircuit => resetKey provider model = none → s.circuits.circuits.lookup key = none
  | .recordCacheActivity (some cacheKey) use cacheSupported now =>
    cacheKey ≠ [] → StatsRegistry.supportsCache cacheSupported use = true →
      ∀ k, StatsRegistry.evicted (s.stats.warmed (backendKey provider model) cacheKey use now) = some k →
        StatsRegistry.entryOf s.stats.warmth k key = none
  | _ => True

/-- The step has nothing to do with the string of a backend. -/
def Step.Apart (provider model : PyStr) (s : Registries) : Step → Prop
  | .operation p m op =>
    backendKey p m ≠ backendKey provider model ∧ s.Spares p m (backendKey provider model) op
  | .rename d => ∀ old new, s.renamedIds d = some (old, new) →
      Unmoved old new (s.config.pricing.map Prod.fst) (backendKey provider model) ∧
        Unmoved old new s.snoozes.permanent (backendKey provider model) ∧
          Unmoved old new (s.snoozes.cooldowns.map Prod.fst) (backendKey provider model)

/-! ### The entries of a backend -/

/-- Two states have the same entries under a string. -/
structure Agree (key : PyStr) (s s' : Registries) : Prop where
  permanent : key ∈ s'.snoozes.permanent ↔ key ∈ s.snoozes.permanent
  cooldown : s'.snoozes.cooldowns.lookup key = s.snoozes.cooldowns.lookup key
  enabled : s'.circuits.enabled = s.circuits.enabled
  circuit : s'.circuits.circuits.lookup key = s.circuits.circuits.lookup key
  stats : s'.stats.stats.get? key = s.stats.stats.get? key
  entry : ∀ cacheKey, StatsRegistry.entryOf s'.stats.warmth cacheKey key =
    StatsRegistry.entryOf s.stats.warmth cacheKey key
  entries : StatsRegistry.entriesOf s'.stats.warmth key = StatsRegistry.entriesOf s.stats.warmth key
  price : s'.config.pricing.lookup key = s.config.pricing.lookup key

section Answers

variable {s s' s'' : Registries} {key k provider model : PyStr}

theorem Agree.refl (key : PyStr) (s : Registries) : Agree key s s :=
  ⟨Iff.rfl, rfl, rfl, rfl, rfl, fun _ ↦ rfl, rfl, rfl⟩

theorem Agree.trans (h : Agree key s s') (h' : Agree key s' s'') : Agree key s s'' where
  permanent := h'.permanent.trans h.permanent
  cooldown := h'.cooldown.trans h.cooldown
  enabled := h'.enabled.trans h.enabled
  circuit := h'.circuit.trans h.circuit
  stats := h'.stats.trans h.stats
  entry cacheKey := (h'.entry cacheKey).trans (h.entry cacheKey)
  entries := h'.entries.trans h.entries
  price := h'.price.trans h.price

/-- A table that is made of the keys of another one. -/
theorem lookup_filterMap_keys {α : Type} {f : PyStr → Option (PyStr × α)}
    (hf : ∀ k e, f k = some e → e.1 = k) (keys : List PyStr) :
    (keys.filterMap f).lookup key = if key ∈ keys then (f key).map Prod.snd else none := by
  induction keys with
  | nil => rfl
  | cons k keys ih =>
    rw [filterMap_cons]
    rcases hk : f k with - | e
    · rw [ih]
      rcases eq_or_ne key k with rfl | hne
      · simp [hk]
      · simp [hne]
    · obtain rfl := hf k e hk
      simp only
      rw [Dict.lookup_cons_eq, ih]
      rcases eq_or_ne e.1 key with rfl | hne
      · simp [hk]
      · simp [hne, hne.symm]

/-- An entry of the report on the snoozes. -/
theorem lookup_snapshot (r : Registry) (now : ℚ) :
    (r.snapshot now).lookup key =
      if key ∈ r.permanent then some (-1)
      else (r.cooldowns.lookup key).bind fun t ↦ if now < t then some (max 0 (t - now)) else none := by
  have hpermanent : (r.permanent.map fun k ↦ (k, (-1 : ℚ))).lookup key =
      if key ∈ r.permanent then some (-1) else none := by
    rw [← filterMap_eq_map, lookup_filterMap_keys fun k e he ↦ by cases he; rfl]
    rfl
  rw [Registry.snapshot, lookup_append, hpermanent]
  split_ifs with hmem
  · rfl
  rw [Option.none_or, lookup_filterMap_keys ?_]
  · rw [if_neg hmem]
    rcases hlookup : r.cooldowns.lookup key with - | t
    · simp
    · have hkey : key ∈ r.cooldowns.map Prod.fst := by
        by_contra hnot
        rw [lookup_eq_none_iff.2 fun e he ↦ by
          have hne : key ≠ e.1 := fun heq ↦ hnot (heq ▸ mem_map_of_mem he)
          simpa using hne] at hlookup
        cases hlookup
      rw [if_pos hkey, Option.bind_some, Option.bind_some]
      split_ifs <;> rfl
  · intro k e he
    split_ifs at he
    obtain ⟨t, -, ht⟩ := Option.bind_eq_some_iff.1 he
    split_ifs at ht
    cases ht
    rfl

/-- The answers for a backend are made of its entries. -/
theorem Agree.sameAnswers (h : Agree (backendKey provider model) s s') :
    SameAnswers provider model s s' where
  available now := isAvailable_eq_of_until? (by simp only [Registry.until?, h.permanent, h.cooldown]) now
  remaining now := by simp only [Registry.remaining, h.permanent, h.cooldown]
  snoozed now := by simp only [lookup_snapshot, h.permanent, h.cooldown]
  isOpen now := by simp only [Breaker.isOpen, h.enabled, h.circuit]
  circuit now := by
    have hsnapshot : ∀ b : Breaker, (b.snapshot now).lookup (backendKey provider model) =
        (b.circuits.lookup (backendKey provider model)).map fun c ↦ c.report b.enabled now :=
      fun b ↦ Dict.lookup_map_values (fun c : Circuit ↦ c.report b.enabled now) b.circuits _
    rw [hsnapshot, hsnapshot, h.enabled, h.circuit]
  stats := by simp only [StatsRegistry.snapshot, Dict.get?_mapValues, h.stats]
  warm cacheKey candidates ttlSec now := by
    simp only [StatsRegistry.mem_warmBackendsFor_iff, h.entry]
  warmth candidates ttlSec now := by simp only [StatsRegistry.get?_warmthForBackends, h.entries]
  warmthEntry cacheKey := by
    have hrounded : ∀ s : Registries,
        (s.stats.warmthSnapshot.get? cacheKey).bind (·.get? (backendKey provider model)) =
          (StatsRegistry.entryOf s.stats.warmth cacheKey (backendKey provider model)).map
            WarmthEntry.rounded := by
      intro s
      rw [StatsRegistry.warmthSnapshot, Dict.get?_mapValues, StatsRegistry.entryOf]
      cases s.stats.warmth.get? cacheKey <;> simp [Dict.get?_mapValues]
    rw [hrounded, hrounded, h.entry]
  price := by simp only [GatewayConfig.pricingFor, h.price]

/-! ### A step -/

/-- The snoozes after an operation on another string. -/
theorem agree_snoozes {snoozes : Registry} (hp : key ∈ snoozes.permanent ↔ key ∈ s.snoozes.permanent)
    (hc : snoozes.cooldowns.lookup key = s.snoozes.cooldowns.lookup key) :
    Agree key s { s with snoozes := snoozes } :=
  { Agree.refl key s with permanent := hp, cooldown := hc }

theorem agree_circuits {circuits : Breaker} (he : circuits.enabled = s.circuits.enabled)
    (hc : circuits.circuits.lookup key = s.circuits.circuits.lookup key) :
    Agree key s { s with circuits := circuits } :=
  { Agree.refl key s with enabled := he, circuit := hc }

theorem agree_stats (f : BackendStats → BackendStats) (h : key ≠ k) :
    Agree key s { s with stats := s.stats.modify k f } :=
  { Agree.refl key s with stats := StatsRegistry.get?_modify_of_ne f h }

theorem lookup_set_of_ne (b : Breaker) (c : Circuit) (h : key ≠ k) :
    (b.set k c).circuits.lookup key = b.circuits.lookup key := by
  rw [Breaker.set, lookup_cons, beq_false_of_ne h, lookup_filter_ne h]

theorem lookup_recordOutcome_of_ne (b : Breaker) (success : Bool) (error : Option PyStr)
    (now wall : ℚ) (h : key ≠ k) :
    (b.recordOutcome k success error now wall).1.circuits.lookup key = b.circuits.lookup key := by
  unfold Breaker.recordOutcome
  split_ifs
  · exact lookup_set_of_ne b _ h
  · simp only
    split <;> exact lookup_set_of_ne b _ h
  · exact lookup_set_of_ne b _ h

theorem mem_filter_ne_iff {permanent : List PyStr} (h : key ≠ k) :
    key ∈ permanent.filter (· ≠ k) ↔ key ∈ permanent := by
  simp [h]

theorem agree_isAvailable (now : ℚ) (h : key ≠ k) :
    Agree key s { s with snoozes := (s.snoozes.isAvailable now k).1 } := by
  unfold Registry.isAvailable
  split_ifs
  · exact .refl key s
  split
  · exact .refl key s
  split_ifs
  · exact agree_snoozes Iff.rfl (lookup_filter_ne h)
  · exact .refl key s

theorem agree_recordCacheActivity {cacheKey : Option PyStr} {use : CacheUse}
    {cacheSupported : Option Bool} {now : ℚ} (h : key ≠ backendKey provider model)
    (hspares : s.Spares provider model key
      (.recordCacheActivity cacheKey use cacheSupported now)) :
    Agree key s (s.perform provider model (.recordCacheActivity cacheKey use cacheSupported now)) := by
  rw [perform]
  unfold StatsRegistry.recordCacheActivity
  rcases cacheKey with - | cacheKey
  · exact .refl key s
  simp only
  split_ifs with hskip
  · exact .refl key s
  obtain ⟨hkey, hsupports⟩ : cacheKey ≠ [] ∧ StatsRegistry.supportsCache cacheSupported use = true := by
    simpa using hskip
  let after : Dict PyStr Bucket := s.stats.warmed (backendKey provider model) cacheKey use now
  have hentry (l : PyStr) :
      StatsRegistry.entryOf after l key = StatsRegistry.entryOf s.stats.warmth l key :=
    StatsRegistry.entryOf_warmed_of_ne h l
  have hentries : StatsRegistry.entriesOf after key = StatsRegistry.entriesOf s.stats.warmth key :=
    StatsRegistry.entriesOf_warmed_of_ne h
  rcases hevicted : StatsRegistry.evicted
      (s.stats.warmed (backendKey provider model) cacheKey use now) with - | l
  · exact { Agree.refl key s with entry := hentry, entries := hentries }
  · have hnone := (hentry l).trans (hspares hkey hsupports l hevicted)
    exact { Agree.refl key s with
      entry := fun cacheKey ↦ (StatsRegistry.entryOf_erase hnone cacheKey).trans (hentry cacheKey)
      entries := (StatsRegistry.entriesOf_erase hnone).trans hentries }

/-- **An operation on another string, which spares the entries of a backend, leaves them alone.** -/
theorem agree_perform {op : BackendOp} (h : key ≠ backendKey provider model)
    (hspares : s.Spares provider model key op) : Agree key s (s.perform provider model op) := by
  cases op with
  | setCooldown retryAfter now => exact agree_snoozes Iff.rfl (lookup_setUntil_of_ne h)
  | snooze seconds now => exact agree_snoozes (mem_filter_ne_iff h) (lookup_setUntil_of_ne h)
  | snoozePermanent =>
    exact agree_snoozes (by simp [Registry.snoozePermanent, h]) (lookup_filter_ne h)
  | unsnooze => exact agree_snoozes (mem_filter_ne_iff h) (lookup_filter_ne h)
  | isAvailable now => exact agree_isAvailable now h
  | recordOutcome success error now wall =>
    exact agree_circuits (Breaker.settings_recordOutcome s.circuits _ success error now wall).1
      (lookup_recordOutcome_of_ne s.circuits success error now wall h)
  | resetCircuit =>
    rw [perform]
    rcases hreset : resetKey provider model with - | k
    · exact agree_circuits rfl (hspares hreset).symm
    · obtain rfl : k = backendKey provider model := by
        unfold resetKey at hreset
        split_ifs at hreset
        exact (Option.some.inj hreset).symm
      exact agree_circuits rfl (lookup_filter_ne h)
  | startRequest => exact agree_stats _ h
  | endRequest => exact agree_stats _ h
  | recordSuccess latencyMs ttftMs now => exact agree_stats _ h
  | recordFailure error now => exact agree_stats _ h
  | recordCacheActivity cacheKey use cacheSupported now => exact agree_recordCacheActivity h hspares

/-- What a rename does to the prices. -/
theorem pricing_rename (d : PyDict) :
    (s.rename d).config.pricing = (s.renamedIds d).elim s.config.pricing fun ids ↦
      movePricing ids.1 ids.2 s.config.pricing (s.config.pricing.map Prod.fst) := by
  rw [rename, renamedIds]
  rcases hold : strippedText (get? d (py "old_id")) with - | old
  · simp [renameEntity, hold]
  rcases hnew : strippedText (get? d (py "new_id")) with - | new
  · simp [renameEntity, hold, hnew]
  simp only
  split_ifs with hsaved
  · obtain ⟨-, -, -, i, -, hlive⟩ :=
      Accepted.live_eq ⟨hsaved.1, hold, hnew, hsaved.2⟩
    rw [hlive]
    rfl
  · simp only [renameEntity, hold, hnew] at hsaved ⊢
    split_ifs at hsaved ⊢ with hknown hempty hsame hmodel hexists hexists
    · rfl
    · rfl
    · rfl
    -- the rename of a model
    · cases s.config.modelIndex old <;> rfl
    · cases s.config.modelIndex old <;> rfl
    · cases s.config.providerIndex old <;> rfl
    · have htype : get? d (py "type") = some (.str (py "provider")) := by
        by_contra hne
        exact hknown ⟨hmodel, hne⟩
      rcases hindex : s.config.providerIndex old with - | i
      · rfl
      · rw [hindex] at hsaved
        exact absurd ⟨htype, rfl⟩ hsaved

theorem agree_rename {d : PyDict}
    (h : ∀ old new, s.renamedIds d = some (old, new) →
      Unmoved old new (s.config.pricing.map Prod.fst) key ∧
        Unmoved old new s.snoozes.permanent key ∧
          Unmoved old new (s.snoozes.cooldowns.map Prod.fst) key) :
    Agree key s (s.rename d) := by
  have hprice := pricing_rename (s := s) d
  rcases hids : s.renamedIds d with - | ⟨old, new⟩
  · rw [hids] at hprice
    exact { Agree.refl key s with
      permanent := by rw [rename, hids]; rfl
      cooldown := by rw [rename, hids]; rfl
      price := by rw [hprice]; rfl }
  · obtain ⟨hpricing, hpermanent, hcooldowns⟩ := h old new hids
    rw [hids] at hprice
    exact { Agree.refl key s with
      permanent := by rw [rename, hids]; exact mem_permanent_of_unmoved hpermanent
      cooldown := by rw [rename, hids]; exact lookup_cooldowns_of_unmoved hcooldowns
      price := by rw [hprice]; exact lookup_movePricing_of_unmoved hpricing }

theorem agree_next {step : Step} (h : step.Apart provider model s) :
    Agree (backendKey provider model) s (s.next step) := by
  cases step with
  | operation p m op => exact agree_perform h.1.symm h.2
  | rename d => exact agree_rename h

end Answers

/-! ### Runs -/

/-- **The answers for a backend are left alone by steps that are apart from it.** -/
theorem sameAnswers_exec (s : Registries) (provider model : PyStr) {steps : List Step}
    (h : Runs.Every next (fun _ s step ↦ step.Apart provider model s) s steps) :
    SameAnswers provider model s (Runs.exec next s steps) := by
  refine Agree.sameAnswers ?_
  exact Runs.exec_invariant (fun _ ↦ Agree (backendKey provider model) s) (.refl _ s)
    (fun _ _ _ hpast hstep ↦ hpast.trans (agree_next hstep)) h

/-- A process that has just started, on a configuration. -/
def initial (c : GatewayConfig) : Registries :=
  ⟨c, .empty, .initial, .initial⟩

/-- A backend is snoozed, and its provider renamed. -/
def elsewhere : List Step :=
  [.operation (py "a") (py "x") .snoozePermanent,
    .rename [(py "type", .str (py "provider")), (py "old_id", .str (py "a")),
      (py "new_id", .str (py "c"))]]

theorem sameAnswers_elsewhere :
    SameAnswers (py "b") (py "x") (initial oneBackend)
      (Runs.exec next (initial oneBackend) elsewhere) := by
  refine sameAnswers_exec (initial oneBackend) (py "b") (py "x") ?_
  refine Runs.every_cons_iff.2 ⟨⟨by decide, trivial⟩, Runs.every_cons_iff.2 ⟨?_, Runs.every_nil _ _⟩⟩
  intro old new hids
  have hac : some (old, new) = some (py "a", py "c") := hids.symm.trans (by decide +kernel)
  obtain ⟨rfl, rfl⟩ := Prod.mk.inj (Option.some.inj hac)
  refine ⟨fun y hy ↦ absurd hy not_mem_nil, fun y hy ↦ ?_, fun y hy ↦ absurd hy not_mem_nil⟩
  obtain rfl : y = py "x" := backendKey_inj.1 (mem_singleton.1 hy)
  decide

/-- The step is an operation on a backend or a rename of its provider. -/
def Step.Of (provider model : PyStr) : Step → Prop
  | .operation p m _ => p = provider ∧ m = model
  | .rename d => strippedText (get? d (py "old_id")) = some provider

/-- A backend is snoozed whose model has a colon. -/
def mixedUp : List Step :=
  [.operation (py "a") (py "b:c") .snoozePermanent]

/-- The backend `c` of `a:b` is snoozed with the backend `b:c` of `a`. -/
theorem not_sameAnswers_mixedUp :
    (py "a", py "b:c") ≠ (py "a:b", py "c") ∧
      (∀ step ∈ mixedUp, step.Of (py "a") (py "b:c")) ∧
        ¬ SameAnswers (py "a:b") (py "c") (initial .empty)
          (Runs.exec next (initial .empty) mixedUp) := by
  refine ⟨by decide, ?_, fun h ↦ ?_⟩
  · rintro step hstep
    obtain rfl := mem_singleton.1 hstep
    exact ⟨rfl, rfl⟩
  · exact absurd (h.available 0) (by decide +kernel)

end Registries

end LocalGateway
