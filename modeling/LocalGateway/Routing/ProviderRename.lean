import LocalGateway.Routing.Parametric
import LocalGateway.Routing.RenameTables

/-!
# Renaming a provider

A request after the rename of a provider, and its image before. The configuration, the candidates
and the tables are compared with their images; by `emit_related`, a selection among images is the
image of a selection.

* `homomorphic_of_clean`: routing commutes with a clean rename.
* `slots_of_homomorphic`: it does not where a time slot lists one of the names only, since a rename
  leaves the time slots alone.
-/

namespace LocalGateway

open Py Json List

/-! ### The renamed configuration -/

section Renamed

variable {c : GatewayConfig} {d : PyDict} {old new : PyStr}

/-- What an accepted rename of a provider does to the configuration. -/
theorem Accepted.live_eq (h : Accepted c d old new) :
    old ≠ [] ∧ old ≠ new ∧ c.providerIndex new = none ∧ ∃ i, c.providerIndex old = some i ∧
      (renameEntity c (.obj d)).live =
        { c with
          providers := c.providers.modify i fun pr ↦ { pr with id := new }
          models := c.models.map fun m ↦
            { m with backends := m.backends.map (BackendConfig.renameProvider old new) }
          pricing := movePricing old new c.pricing (c.pricing.map Prod.fst) } := by
  have hsaved := h.saved
  have hprovider : (some (Json.str (py "provider")) : Option Json) ≠ some (.str (py "model")) := by
    decide
  simp only [renameEntity, h.old_id, h.new_id, h.type, if_neg hprovider, ne_eq, not_true_eq_false,
    and_false, if_false] at hsaved ⊢
  by_cases hempty : old = [] ∨ new = []
  · rw [if_pos hempty] at hsaved
    cases hsaved
  by_cases hsame : old = new
  · rw [if_neg hempty, if_pos hsame] at hsaved
    cases hsaved
  rw [if_neg hempty, if_neg hsame] at hsaved ⊢
  refine ⟨(not_or.1 hempty).1, hsame, ?_⟩
  rcases hold : c.providerIndex old with - | i
  · rw [hold] at hsaved
    cases hsaved
  · rw [hold] at hsaved
    rcases hnew : c.providerIndex new with - | j
    · simp
    · simp [hnew] at hsaved

/-! ### Backends, providers and models -/

/-- A rename leaves the other attributes of a backend alone. -/
theorem get?_renameProvider {name : PyStr} (hname : name ≠ py "provider") (b : BackendConfig) :
    get? (b.renameProvider old new).fields name = get? b.fields name := by
  unfold BackendConfig.renameProvider
  split_ifs
  · exact (get?_setKey ..).trans (if_neg hname)
  · rfl

theorem provider_renameProvider (hold : old ≠ []) (b : BackendConfig) :
    (b.renameProvider old new).provider = if b.provider = old then new else b.provider := by
  have hprovider : get? b.fields (py "provider") = some (.str old) ↔ b.provider = old := by
    unfold BackendConfig.provider attrStr
    split
    · next s hs => rw [hs, Option.some.injEq, Json.str.injEq]
    · next hnone =>
      constructor
      · exact fun hget ↦ absurd hget (hnone old)
      · exact fun hnil ↦ absurd hnil.symm hold
  unfold BackendConfig.renameProvider
  by_cases hb : b.provider = old
  · rw [if_pos (hprovider.2 hb), if_pos hb, BackendConfig.provider, attrStr, get?_setKey, if_pos rfl]
  · rw [if_neg (hprovider.not.2 hb), if_neg hb]

theorem priority_renameProvider (b : BackendConfig) :
    (b.renameProvider old new).priority = b.priority := by
  unfold BackendConfig.renameProvider
  split_ifs <;> rfl

theorem model_renameProvider (b : BackendConfig) :
    (b.renameProvider old new).model = b.model := by
  rw [BackendConfig.model, BackendConfig.model, attrStr, attrStr, get?_renameProvider (by decide)]

theorem attrBool_renameProvider {name : PyStr} (hname : name ≠ py "provider") (b : BackendConfig) :
    attrBool (b.renameProvider old new).fields name = attrBool b.fields name := by
  rw [attrBool, attrBool, get?_renameProvider hname]

theorem attrInt_renameProvider {name : PyStr} (hname : name ≠ py "provider") (b : BackendConfig) :
    attrInt (b.renameProvider old new).fields name = attrInt b.fields name := by
  rw [attrInt, attrInt, get?_renameProvider hname]

theorem attrFloat_renameProvider {name : PyStr} (hname : name ≠ py "provider") (b : BackendConfig) :
    attrFloat (b.renameProvider old new).fields name = attrFloat b.fields name := by
  rw [attrFloat, attrFloat, get?_renameProvider hname]

/-- The image of an id that is not the new one. -/
theorem swap_eq {id : PyStr} (hid : id ≠ new) :
    Equiv.swap old new id = if id = old then new else id := by
  rw [Equiv.swap_apply_def]
  split_ifs <;> rfl

/-- A provider is found under the image of its id. -/
theorem find?_renamed {ps : List ProviderConfig} {i : ℕ} {id : PyStr}
    (hfind : ps.findIdx? (·.id = old) = some i) (hnew : ∀ p ∈ ps, p.id ≠ new) (hid : id ≠ new) :
    (ps.modify i fun p ↦ { p with id := new }).find? (·.id = Equiv.swap old new id) =
      (ps.find? (·.id = id)).map (ProviderConfig.renamed old new) := by
  induction ps generalizing i with
  | nil => cases hfind
  | cons p ps ih =>
    obtain ⟨hp, hps⟩ := forall_mem_cons.1 hnew
    rw [findIdx?_cons] at hfind
    by_cases hold : p.id = old
    · rw [if_pos (decide_eq_true hold)] at hfind
      obtain rfl := Option.some.inj hfind
      rw [modify_zero_cons, swap_eq hid]
      by_cases hidold : id = old
      · rw [if_pos hidold, find?_cons_of_pos (by simp), find?_cons_of_pos (by simp [hold, hidold]),
          Option.map_some, ProviderConfig.renamed, if_pos hold]
      · -- the provider found is another one, which keeps its id
        rw [if_neg hidold, find?_cons_of_neg (by simpa using Ne.symm hid),
          find?_cons_of_neg (by simpa [hold] using Ne.symm hidold)]
        rcases hother : ps.find? (·.id = id) with - | q
        · rw [hother, Option.map_none]
        · have hq : q.id = id := by simpa using find?_some hother
          rw [hother, Option.map_some, ProviderConfig.renamed, if_neg (hq ▸ hidold)]
    · rw [if_neg (by simpa using hold), Option.map_eq_some_iff] at hfind
      obtain ⟨j, hj, rfl⟩ := hfind
      have hsame : p.id = Equiv.swap old new id ↔ p.id = id := by
        rw [swap_eq hid]
        split_ifs with hidold
        · exact ⟨fun h ↦ absurd h hp, fun h ↦ absurd (h.trans hidold) hold⟩
        · rfl
      rw [modify_succ_cons, find?_cons, find?_cons]
      simp only [hsame]
      by_cases hpid : p.id = id
      · simp only [decide_eq_true hpid, Option.map_some, ProviderConfig.renamed, if_neg hold]
      · simp only [decide_eq_false hpid]
        exact ih hj hps

/-- A model with its backends renamed. -/
def ModelConfig.renamed (old new : PyStr) (m : ModelConfig) : ModelConfig :=
  { m with backends := m.backends.map (BackendConfig.renameProvider old new) }

/-- What a rename does to the configuration, seen through its lookups. -/
structure ConfigRenamed (c c' : GatewayConfig) (old new : PyStr) : Prop where
  server : c'.server = c.server
  models : c'.models = c.models.map (ModelConfig.renamed old new)
  pricing : c'.pricing = movePricing old new c.pricing (c.pricing.map Prod.fst)
  provider : ∀ id ≠ new, c'.providerById (Equiv.swap old new id) =
    (c.providerById id).map (ProviderConfig.renamed old new)

theorem Accepted.configRenamed (h : Accepted c d old new) :
    ConfigRenamed c (renameEntity c (.obj d)).live old new := by
  obtain ⟨-, -, hnew, i, hi, hlive⟩ := h.live_eq
  rw [hlive]
  refine ⟨rfl, rfl, rfl, fun id hid ↦ find?_renamed hi (fun p hp ↦ ?_) hid⟩
  simpa using findIdx?_eq_none_iff.1 hnew p hp

theorem ConfigRenamed.modelById {c' : GatewayConfig} (h : ConfigRenamed c c' old new)
    (id : PyStr) : c'.modelById id = (c.modelById id).map (ModelConfig.renamed old new) := by
  rw [GatewayConfig.modelById, GatewayConfig.modelById, h.models, find?_map, find?_map, Option.map_or]
  rfl

/-! ### The candidates of a request -/

theorem mem_of_modelById {m : ModelConfig} {id : PyStr} (h : c.modelById id = some m) :
    m ∈ c.models := by
  rcases Option.or_eq_some_iff.1 h with h | ⟨-, h⟩
  · exact mem_of_find?_eq_some h
  · exact mem_of_find?_eq_some h

/-- The active slot is one of the model's. -/
theorem mem_of_activeSlot {zone : PyStr → Option (ℕ × ℕ)} {t : TimeRoutingConfig} {slot : TimeSlot}
    (h : activeSlot zone t = some (some slot)) : slot ∈ t.slots := by
  unfold activeSlot at h
  split_ifs at h
  · obtain ⟨now, -, hfind⟩ := Option.map_eq_some_iff.1 h
    exact mem_of_find?_eq_some hfind
  · cases h

variable {c' : GatewayConfig} {m : ModelConfig} {q : Demand} {ignore : List PyStr}
  {slot : Option TimeSlot}

/-- A backend is a candidate after the rename if it was before. -/
theorem candidate_renamed (h : ConfigRenamed c c' old new) (hold : old ≠ []) (i : ℕ)
    {b : BackendConfig} (hb : b.provider ≠ new)
    (hslot : ∀ s, slot = some s → b.provider = old →
      slotAllows s new b.model = slotAllows s old b.model) :
    candidate c' (m.renamed old new) q (ignore.map (Equiv.swap old new)) slot i
        (b.renameProvider old new) =
      (candidate c m q ignore slot i b).map (Entry.renamed old new) := by
  have hprovider : (b.renameProvider old new).provider = Equiv.swap old new b.provider := by
    rw [provider_renameProvider hold, swap_eq hb]
  have hignore : (ignore.map (Equiv.swap old new)).contains (Equiv.swap old new b.provider) =
      ignore.contains b.provider := by
    rw [Bool.eq_iff_iff, contains_iff_mem, contains_iff_mem,
      mem_map_of_injective (Equiv.swap old new).injective]
  have houtput : fitsOutput (m.renamed old new) (b.renameProvider old new) q = fitsOutput m b q := by
    simp only [fitsOutput, ModelConfig.renamed]
    rw [attrInt_renameProvider (by decide)]
  have hcontext : fitsContext (b.renameProvider old new) q = fitsContext b q := by
    simp only [fitsContext]
    rw [attrInt_renameProvider (by decide)]
  have hallows : (slot.all fun s ↦ slotAllows s (Equiv.swap old new b.provider) b.model) =
      slot.all fun s ↦ slotAllows s b.provider b.model := by
    rcases slot with - | s
    · rfl
    · rw [Option.all_some, Option.all_some, swap_eq hb]
      split_ifs with hbold
      · rw [hslot s rfl hbold, hbold]
      · rfl
  have henabled : ∀ p : ProviderConfig, (p.renamed old new).attrs = p.attrs := by
    intro p
    unfold ProviderConfig.renamed
    split_ifs <;> rfl
  -- each check of `candidate` sees the same values
  unfold candidate
  rw [attrBool_renameProvider (by decide), hprovider, hignore, h.provider _ hb]
  split_ifs
  · rfl
  · rcases c.providerById b.provider with - | p
    · rfl
    · simp only [Option.map_some, henabled, houtput, hcontext, model_renameProvider, hallows]
      split_ifs
      · rfl
      · rfl

/-- The candidates after the rename are the images of those before. -/
theorem eligible_renamed (h : ConfigRenamed c c' old new) (hold : old ≠ [])
    (hbackends : ∀ b ∈ m.backends, b.provider ≠ new ∧ ∀ s, slot = some s → b.provider = old →
      slotAllows s new b.model = slotAllows s old b.model) :
    eligible c' (m.renamed old new) q (ignore.map (Equiv.swap old new)) slot =
      (eligible c m q ignore slot).map (Entry.renamed old new) := by
  have hmap : (m.renamed old new).backends.mapIdx
      (candidate c' (m.renamed old new) q (ignore.map (Equiv.swap old new)) slot) =
      (m.backends.mapIdx (candidate c m q ignore slot)).map (Option.map (Entry.renamed old new)) := by
    refine ext_getElem? fun i ↦ ?_
    rw [getElem?_mapIdx, getElem?_map, getElem?_mapIdx, ModelConfig.renamed, getElem?_map]
    rcases hi : m.backends[i]? with - | b
    · rfl
    · obtain ⟨hb, hslot⟩ := hbackends b (mem_of_getElem? hi)
      exact congrArg some (candidate_renamed h hold i hb hslot)
  rw [eligible, eligible, hmap, reduceOption_map]

end Renamed

/-! ### Tables by key -/

section Tables

variable {key : PyStr}

/-- What is looked up among the entries whose value passes a test depends on the values only. -/
theorem lookup_filter_map {α β : Type} (d : List (PyStr × α)) (f : α → β) (p : β → Bool)
    (key : PyStr) : ((d.map fun e ↦ (e.1, f e.2)).filter fun e ↦ p e.2).lookup key =
      (((valuesAt d key).map f).filter p).head? := by
  induction d with
  | nil => rfl
  | cons e d ih =>
    obtain ⟨k, v⟩ := e
    rw [map_cons, filter_cons, valuesAt, filter_cons]
    rcases eq_or_ne key k with rfl | hkey
    · simp only [decide_true, if_true, map_cons, filter_cons]
      split_ifs
      · rw [lookup_cons, beq_self_eq_true, head?_cons]
      · exact ih
    · have hk : ¬ decide (k = key) = true := by simpa using hkey.symm
      rw [if_neg hk]
      split_ifs
      · rw [lookup_cons, beq_false_of_ne hkey]
        exact ih
      · exact ih

/-- The warmth of a backend depends on what was recorded under its key only. -/
theorem lookup_liveWarmth (fl : Rounding) (c : GatewayConfig) (s : RoutingState)
    (q : RoutingRequest) (cacheKey : PyStr) :
    (liveWarmth c (s.moment fl q) cacheKey).lookup key =
      if cacheKey = [] then none
      else (((valuesAt (s.warmth cacheKey) key).map fun w ↦ Warmth.mk (q.age w.1) w.2).filter
        fun w ↦ !(PyFloat.fin (cacheTtl c)).lt w.age).head? := by
  unfold liveWarmth
  split_ifs
  · rfl
  · exact lookup_filter_map (s.warmth cacheKey) (fun w ↦ Warmth.mk (q.age w.1) w.2)
      (fun w ↦ !(PyFloat.fin (cacheTtl c)).lt w.age) key

/-- The keys of each table are among those that are moved. -/
theorem subset_movedKeys (s : RoutingState) : s.config.pricing.map Prod.fst ⊆ s.movedKeys ∧
    s.snoozes.permanent ⊆ s.movedKeys ∧ s.snoozes.cooldowns.map Prod.fst ⊆ s.movedKeys := by
  unfold RoutingState.movedKeys
  refine ⟨fun k hk ↦ ?_, fun k hk ↦ ?_, fun k hk ↦ ?_⟩
  · exact mem_append_left _ (mem_append_left _ hk)
  · exact mem_append_left _ (mem_append_right _ hk)
  · exact mem_append_right _ hk

end Tables

/-! ### The homomorphism -/

section Homomorphism

variable {fl : Rounding} {s : RoutingState} {d : PyDict} {old new : PyStr}

theorem CleanRename.provider_ne (hclean : CleanRename s old new) (hne : old ≠ new)
    {m : ModelConfig} (hm : m ∈ s.config.models) {b : BackendConfig} (hb : b ∈ m.backends) :
    b.provider ≠ new := by
  by_cases hbold : b.provider = old
  · rwa [hbold]
  · exact (hclean.others m hm b hb hbold).1

/-- The tables that a rename leaves alone do not tell the two keys of a backend apart. -/
theorem CleanRename.untouched (hclean : CleanRename s old new) (hold : old ≠ [])
    {m : ModelConfig} (hm : m ∈ s.config.models) {b : BackendConfig} (hb : b ∈ m.backends) :
    let key := backendKey b.provider b.model
    let key' := backendKey (b.renameProvider old new).provider b.model
    s.circuits.circuits.lookup key' = s.circuits.circuits.lookup key ∧
      s.stats.lookup key' = s.stats.lookup key ∧
      ∀ cacheKey, valuesAt (s.warmth cacheKey) key' = valuesAt (s.warmth cacheKey) key := by
  simp only [provider_renameProvider hold]
  split_ifs with hbold
  · rw [hbold]
    exact ⟨hclean.circuits m hm b hb hbold, hclean.stats m hm b hb hbold,
      hclean.warmth m hm b hb hbold⟩
  · exact ⟨rfl, rfl, fun _ ↦ rfl⟩

variable (hacc : Accepted s.config d old new)

include hacc

/-- A backend of the renamed provider costs what it cost exactly if it had a price of its own, or
nothing else is left under the new name. -/
theorem pricingFor_rename_iff {x : PyStr} (h : Separate old new s.movedKeys x) :
    (s.rename d old new).config.pricingFor new x = s.config.pricingFor old x ↔
      (s.config.pricing.lookup (backendKey old x) = none →
        s.config.pricingFor new x = s.config.pricingFor old x) := by
  have hlookup := lookup_movePricing_keys fun y hy ↦ h y ((subset_movedKeys s).1 hy)
  rw [GatewayConfig.pricingFor, GatewayConfig.pricingFor, GatewayConfig.pricingFor,
    RoutingState.rename, hacc.configRenamed.pricing, hlookup]
  rcases s.config.pricing.lookup (backendKey old x) with - | v <;> simp

omit hacc in
/-- It is snoozed as it was exactly if what is left under the new name is no longer snooze. -/
theorem until?_rename_iff {x : PyStr} (h : Separate old new s.movedKeys x) :
    (s.rename d old new).snoozes.until? (backendKey new x) =
        s.snoozes.until? (backendKey old x) ↔
      (backendKey new x ∈ s.snoozes.permanent → backendKey old x ∈ s.snoozes.permanent) ∧
        (s.snoozes.until? (backendKey old x) = none →
          s.snoozes.until? (backendKey new x) = none) :=
  until?_rename_eq_iff (fun y hy ↦ h y ((subset_movedKeys s).2.1 hy))
    fun y hy ↦ h y ((subset_movedKeys s).2.2 hy)

variable (hclean : CleanRename s old new)

include hclean

theorem pricingFor_rename {m : ModelConfig} (hm : m ∈ s.config.models) {b : BackendConfig}
    (hb : b ∈ m.backends) :
    (s.rename d old new).config.pricingFor (b.renameProvider old new).provider b.model =
      s.config.pricingFor b.provider b.model := by
  obtain ⟨hold, -⟩ := hacc.live_eq
  rw [provider_renameProvider hold]
  split_ifs with hbold
  · rw [hbold]
    exact (pricingFor_rename_iff hacc (hclean.keys m hm b hb hbold)).2
      (hclean.prices m hm b hb hbold)
  · have hlookup := @lookup_movePricing_of_unmoved old new _ s.config.pricing _ _
      fun y hy ↦ (hclean.others m hm b hb hbold).2 y ((subset_movedKeys s).1 hy)
    rw [GatewayConfig.pricingFor, GatewayConfig.pricingFor, RoutingState.rename,
      hacc.configRenamed.pricing, hlookup]

theorem until?_rename_backend {m : ModelConfig} (hm : m ∈ s.config.models) {b : BackendConfig}
    (hb : b ∈ m.backends) :
    (s.rename d old new).snoozes.until? (backendKey (b.renameProvider old new).provider b.model) =
      s.snoozes.until? (backendKey b.provider b.model) := by
  obtain ⟨hold, -⟩ := hacc.live_eq
  rw [provider_renameProvider hold]
  split_ifs with hbold
  · rw [hbold]
    exact (until?_rename_iff (hclean.keys m hm b hb hbold)).2 (hclean.snoozes m hm b hb hbold)
  · have hunmoved := (hclean.others m hm b hb hbold).2
    exact until?_of_unmoved (fun y hy ↦ hunmoved y ((subset_movedKeys s).2.1 hy))
      fun y hy ↦ hunmoved y ((subset_movedKeys s).2.2 hy)

/-- The throughput that is measured for a model. -/
theorem throughput_rename (q : RoutingRequest) :
    ((s.rename d old new).throughput fl (q.renamed old new)).isEmpty =
      (s.throughput fl q).isEmpty ∧
    ∀ m ∈ s.config.models, ∀ b ∈ m.backends,
      ((s.rename d old new).throughput fl (q.renamed old new)).lookup
          (backendKey (b.renameProvider old new).provider b.model) =
        (s.throughput fl q).lookup (backendKey b.provider b.model) := by
  have hmodel : (s.rename d old new).config.modelById (q.renamed old new).model =
      (s.config.modelById q.model).map (ModelConfig.renamed old new) :=
    hacc.configRenamed.modelById q.model
  rw [RoutingState.throughput, RoutingState.throughput, hmodel]
  rcases s.config.modelById q.model with - | m
  · exact ⟨rfl, fun _ _ _ _ ↦ rfl⟩
  · constructor
    · show (backendTpsMap fl (renameMeasuredRows old new s.usage) q.recent m.id).isEmpty = _
      rw [backendTpsMap_isEmpty, measurements_rename_isEmpty, ← @backendTpsMap_isEmpty fl]
    · intro m' hm' b hb
      show (backendTpsMap fl (renameMeasuredRows old new s.usage) q.recent m.id).lookup _ = _
      rw [lookup_backendTpsMap, lookup_backendTpsMap,
        valuesAt_measurements_rename fun r hr ↦ hclean.usage r hr m' hm' b hb]

/-- The candidates of a request are the images of those before. -/
theorem candidates_rename (q : RoutingRequest) :
    candidates (s.rename d old new).config ((s.rename d old new).moment fl (q.renamed old new))
        (q.renamed old new).prefs q.model q.demand =
      (candidates s.config (s.moment fl q) q.prefs q.model q.demand).map
        (List.map (Entry.renamed old new)) := by
  obtain ⟨hold, hne, -⟩ := hacc.live_eq
  have hmodel : (s.rename d old new).config.modelById q.model =
      (s.config.modelById q.model).map (ModelConfig.renamed old new) :=
    hacc.configRenamed.modelById q.model
  rw [candidates, candidates, hmodel]
  rcases hm : s.config.modelById q.model with - | m
  · rfl
  have hmem : m ∈ s.config.models := mem_of_modelById hm
  show (if !attrBool m.fields (py "enabled") then some []
    else (activeSlot q.zone m.timeRouting).map _) = _
  simp only
  split_ifs
  · rfl
  · show _ = Option.map _ (Option.map _ (activeSlot q.zone m.timeRouting))
    rcases hslot : activeSlot q.zone m.timeRouting with - | slot
    · rfl
    · refine congrArg some (eligible_renamed hacc.configRenamed hold fun b hb ↦ ?_)
      refine ⟨hclean.provider_ne hne hmem hb, ?_⟩
      rintro t rfl hbold
      exact hclean.slots m hmem t (mem_of_activeSlot hslot) b hb hbold

/-- An entry and its image are twins. -/
theorem twin_rename (q : RoutingRequest) {e : Entry}
    (he : Eligible s.config (s.moment fl q) q.prefs q.model q.demand e) :
    Twin (Equiv.swap old new) s.config (s.rename d old new).config (s.moment fl q)
      ((s.rename d old new).moment fl (q.renamed old new)) q.cacheKey
      (answersAt s.snoozes s.circuits q.clock q.monotone)
      (answersAt (s.snoozes.renameProvider old new) s.circuits q.clock q.monotone)
      e (e.renamed old new) := by
  obtain ⟨hold, hne, -⟩ := hacc.live_eq
  obtain ⟨m, slot, hm, -, -, hserves⟩ := he
  have hmem : m ∈ s.config.models := mem_of_modelById hm
  have hb : e.backend ∈ m.backends := mem_of_getElem? hserves.configured
  have hid : e.provider.id = e.backend.provider := by
    simpa using find?_some hserves.provider
  have hid' : (e.renamed old new).provider.id = (e.backend.renameProvider old new).provider := by
    rw [provider_renameProvider hold, ← hid, Entry.renamed, ProviderConfig.renamed]
    split_ifs <;> rfl
  have hmodel : (e.renamed old new).backend.model = e.backend.model := model_renameProvider _
  have hkey : e.key = backendKey e.backend.provider e.backend.model := by rw [Entry.key, hid]
  have hkey' : (e.renamed old new).key =
      backendKey (e.backend.renameProvider old new).provider e.backend.model := by
    rw [Entry.key, hid', hmodel]
  obtain ⟨hcircuit, hstat, hwarmth⟩ := hclean.untouched hold hmem hb
  constructor
  · rw [hid', provider_renameProvider hold, hid, swap_eq (hclean.provider_ne hne hmem hb)]
  · exact hmodel
  · exact priority_renameProvider _
  · exact congrArg (fun w ↦ Option.getD w _) (attrFloat_renameProvider (by decide) _)
  · rw [hid', hid, hmodel]
    exact pricingFor_rename hacc hclean hmem hb
  · rw [hkey, hkey']
    exact (throughput_rename hacc hclean q).2 m hmem e.backend hb
  · rw [hkey, hkey']
    exact hstat
  · have hserver : (s.rename d old new).config.server = s.config.server := hacc.configRenamed.server
    have hwarmth' := hwarmth q.cacheKey
    rw [hkey, hkey', lookup_liveWarmth, lookup_liveWarmth, cacheTtl, cacheTtl, hserver]
    show (if _ then none else (((valuesAt (s.warmth q.cacheKey) _).map _).filter _).head?) = _
    rw [hwarmth']
    rfl
  · intro k
    have havail := isAvailable_eq_of_until? (until?_rename_backend hacc hclean hmem hb)
      (q.clock (2 * k))
    have hopen : ∀ t, s.circuits.isOpen t (backendKey (e.backend.renameProvider old new).provider e.backend.model) =
        s.circuits.isOpen t (backendKey e.backend.provider e.backend.model) := fun t ↦ by
      rw [Breaker.isOpen, Breaker.isOpen, hcircuit]
    show routable .. = routable ..
    rw [routable, routable, hkey, hkey']
    show (((s.rename d old new).snoozes.isAvailable ..).2 && _) = _
    rw [havail, hopen]

/-- Two states that differ by a rename are mirrors of each other. -/
theorem mirror_rename (q : RoutingRequest) :
    Mirror (Equiv.swap old new) s.config (s.rename d old new).config (s.moment fl q)
      ((s.rename d old new).moment fl (q.renamed old new)) q.prefs (q.renamed old new).prefs where
  injective := (Equiv.swap old new).injective
  server := hacc.configRenamed.server
  floats := rfl
  rotation := rfl
  draw := rfl
  measured := (throughput_rename hacc hclean q).1
  order := rfl
  allowFallbacks := rfl
  sort := rfl

/-- A request is routed to the image of the backends it was routed to. -/
theorem route_rename (q : RoutingRequest) :
    (s.rename d old new).route fl (q.renamed old new) = (s.route fl q).renamed old new := by
  have hcandidates := @candidates_rename fl s d old new hacc hclean q
  rw [RoutingState.route, RoutingState.route, selectAt, selectAt, selectBackends_eq,
    selectBackends_eq]
  have hmodel : (q.renamed old new).model = q.model := rfl
  have hdemand : (q.renamed old new).demand = q.demand := rfl
  rw [hmodel, hdemand, hcandidates]
  rcases hes : candidates s.config (s.moment fl q) q.prefs q.model q.demand with - | es
  · rfl
  have hrelated : Forall₂ (fun e e' ↦ e' = e.renamed old new ∧
      Eligible s.config (s.moment fl q) q.prefs q.model q.demand e) es
      (es.map (Entry.renamed old new)) :=
    forall₂_map_iff.2 ⟨rfl, fun e he ↦
      (mem_candidates_iff s.config (s.moment fl q) q.prefs q.model q.demand hes e).1 he⟩
  obtain ⟨hraised, hemitted⟩ := emit_related (mirror_rename hacc hclean q)
    (fun he ↦ he.1 ▸ twin_rename hacc hclean q he.2) hrelated
  have himage := (forall₂_map_iff.1 (hemitted.imp fun b b' hb ↦
    show b' = ⟨b.entry.renamed old new, b.reason⟩ ∧ True from
      ⟨by rw [← hb.1.1, ← hb.2], trivial⟩)).1
  simp only [Selection.renamed]
  rw [← himage, ← hraised]
  rfl

/-- **A clean rename is a homomorphism of routing.** -/
theorem homomorphic_of_clean : Homomorphic fl s (s.rename d old new) old new := by
  obtain ⟨hold, -, -⟩ := hacc.live_eq
  refine ⟨route_rename hacc hclean, fun m hm b hb ↦ pricingFor_rename hacc hclean hm hb,
    fun m hm b hb ↦ until?_rename_backend hacc hclean hm hb, ?_⟩
  intro i j m m' slot slot' hm hm' hslot hslot' b hb
  have hmodels : (s.rename d old new).config.models =
      s.config.models.map (ModelConfig.renamed old new) := hacc.configRenamed.models
  rw [hmodels, getElem?_map, hm] at hm'
  obtain rfl := Option.some.inj hm'
  obtain rfl := Option.some.inj (hslot.symm.trans hslot')
  rw [provider_renameProvider hold]
  split_ifs with hbold
  · rw [hbold]
    exact hclean.slots m (mem_of_getElem? hm) slot (mem_of_getElem? hslot) b hb hbold
  · rfl

omit hclean in
/-- A rename is no homomorphism where a time slot tells the names apart. -/
theorem slots_of_homomorphic (h : Homomorphic fl s (s.rename d old new) old new) :
    SlotsAgree s.config old new := by
  obtain ⟨hold, -, -⟩ := hacc.live_eq
  intro m hm slot hslot b hb hbold
  obtain ⟨i, hi⟩ := mem_iff_getElem?.1 hm
  obtain ⟨j, hj⟩ := mem_iff_getElem?.1 hslot
  have hmodels : (s.rename d old new).config.models =
      s.config.models.map (ModelConfig.renamed old new) := hacc.configRenamed.models
  have hi' : (s.rename d old new).config.models[i]? = some (m.renamed old new) := by
    rw [hmodels, getElem?_map, hi]
    rfl
  have hallows := h.slots i j m (m.renamed old new) slot slot hi hi' hj hj b hb
  rwa [provider_renameProvider hold, if_pos hbold, hbold] at hallows

omit hclean in
/-- Nor where a price that is left under the new name comes to the fore. -/
theorem prices_of_homomorphic (h : Homomorphic fl s (s.rename d old new) old new)
    (hkeys : KeysSeparate s old new) : PricesAgree s.config old new := by
  obtain ⟨hold, -⟩ := hacc.live_eq
  intro m hm b hb hbold
  have hprice := h.priced m hm b hb
  rw [provider_renameProvider hold, if_pos hbold, hbold] at hprice
  exact (pricingFor_rename_iff hacc (hkeys m hm b hb hbold)).1 hprice

omit hclean in
/-- Nor where a snooze does. -/
theorem snoozes_of_homomorphic (h : Homomorphic fl s (s.rename d old new) old new)
    (hkeys : KeysSeparate s old new) : SnoozesAgree s.config s.snoozes old new := by
  obtain ⟨hold, -⟩ := hacc.live_eq
  intro m hm b hb hbold
  have hsnooze := h.snoozed m hm b hb
  rw [provider_renameProvider hold, if_pos hbold, hbold] at hsnooze
  exact (@until?_rename_iff s d old new _ (hkeys m hm b hb hbold)).1 hsnooze

end Homomorphism

/-- **What it takes to rename a provider.** Routing commutes with a rename that is clean; and if it
does, then the time slots, and what is left of prices and snoozes under the new name, do not tell
the names apart. -/
theorem homomorphic_rename (fl : Rounding) {s : RoutingState} {d : PyDict} {old new : PyStr}
    (hacc : Accepted s.config d old new) :
    (CleanRename s old new → Homomorphic fl s (s.rename d old new) old new) ∧
      (Homomorphic fl s (s.rename d old new) old new → SlotsAgree s.config old new ∧
        (KeysSeparate s old new → PricesAgree s.config old new ∧
          SnoozesAgree s.config s.snoozes old new)) :=
  ⟨fun hclean ↦ homomorphic_of_clean hacc hclean, fun h ↦ ⟨slots_of_homomorphic hacc h,
    fun hkeys ↦ ⟨prices_of_homomorphic hacc h hkeys, snoozes_of_homomorphic hacc h hkeys⟩⟩⟩

/-! ### A small gateway -/

/-- Exact arithmetic. -/
def exactRounding : Rounding :=
  { exactFloats with roundCents := id }

/-- A gateway in which one backend is snoozed for good, and nothing has been measured. -/
def snoozedState : RoutingState where
  config := plainGateway plainServer [plainBackend (py "a") 1]
  snoozes := ⟨[], [py "a:x"]⟩
  circuits := .initial
  stats := []
  warmth _ := []
  usage := []

/-- The body that renames `a` to `c`. -/
def renameBody : PyDict :=
  [(py "type", .str (py "provider")), (py "old_id", .str (py "a")), (py "new_id", .str (py "c"))]

/-- It is a clean rename. -/
theorem homomorphic_sample :
    Homomorphic exactRounding snoozedState (snoozedState.rename renameBody (py "a") (py "c"))
      (py "a") (py "c") := by
  have hmodels : ∀ m ∈ snoozedState.config.models, ∀ b ∈ m.backends,
      m.timeRouting.slots = [] ∧ b.provider = py "a" ∧ b.model = py "x" := by
    decide
  have hapart : ∀ x y, backendKey (py "a") x ≠ backendKey (py "c") y := by
    intro x y h
    have hhead : (some 97 : Option ℕ) = some 99 := congrArg head? h
    exact absurd hhead (by decide)
  refine (homomorphic_rename exactRounding ⟨rfl, rfl, rfl, rfl⟩).1 ?_
  constructor
  · intro m hm slot hslot b hb
    rw [(hmodels m hm b hb).1] at hslot
    exact absurd hslot not_mem_nil
  · exact fun m hm b hb _ _ ↦ rfl
  · intro m hm b hb _
    rw [(hmodels m hm b hb).2.2]
    decide
  · exact fun _ _ _ _ _ y _ ↦ ⟨hapart y _, (hapart _ y).symm⟩
  · exact fun m hm b hb hne ↦ absurd (hmodels m hm b hb).2.1 hne
  · exact fun r hr ↦ absurd hr not_mem_nil
  · exact fun _ _ _ _ _ ↦ rfl
  · exact fun _ _ _ _ _ ↦ rfl
  · exact fun _ _ _ _ _ _ ↦ rfl

/-- The same gateway with nothing snoozed and a time slot for `a:x`, the whole day. -/
def slottedState : RoutingState :=
  { snoozedState with
    snoozes := .empty
    config := { snoozedState.config with
      models := snoozedState.config.models.map fun m ↦
        { m with timeRouting :=
          ⟨timeRoutingClass.build [(py "enabled", .bool true)] (by decide),
            [⟨py "s", py "s", 0, 23, timeSlotClass.build
              [(py "active_providers", .arr [.str (py "a:x")])] (by decide)⟩]⟩ } } }

/-- A request for the model, without preferences. -/
def plainRequest : RoutingRequest where
  model := py "m"
  demand := plainDemand
  prefs := .none
  cacheKey := []
  zone _ := some (0, 0)
  age t := t
  recent _ := true
  rotation := 0
  draw _ := .fin 0
  clock _ := 0
  monotone := monotone_still

/-- After the rename the slot lets no backend through. -/
theorem not_homomorphic_slotted :
    Accepted slottedState.config renameBody (py "a") (py "c") ∧
      ¬ Homomorphic exactRounding slottedState (slottedState.rename renameBody (py "a") (py "c"))
        (py "a") (py "c") := by
  refine ⟨⟨rfl, rfl, rfl, rfl⟩, fun h ↦ ?_⟩
  have hrouted := congrArg (fun r ↦ r.emitted.length) (h.routed plainRequest)
  have hbefore : ((slottedState.route exactRounding plainRequest).renamed
      (py "a") (py "c")).emitted.length = 1 := by
    decide +kernel
  have hafter : ((slottedState.rename renameBody (py "a") (py "c")).route exactRounding
      (plainRequest.renamed (py "a") (py "c"))).emitted.length = 0 := by
    decide +kernel
  exact absurd (hafter.symm.trans (hrouted.trans hbefore)) (by decide)

end LocalGateway
