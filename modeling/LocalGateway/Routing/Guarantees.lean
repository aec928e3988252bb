import LocalGateway.Routing.Coverage

/-!
# What the router guarantees

Coverage, uniqueness, pinning and losslessness of `select_backends`, each with the exact condition
under which it holds.

* `Serves` says which entries can serve a request, without the loop that finds them.
* `covers_iff`: with frozen registries a selection covers them unless it raises.
* `routed_nodup_iff`: an entry comes twice if its provider is listed twice.
* `routed_pinned_iff`: `allow_fallbacks=false` is ignored with cache affinity, and by a request
  none of whose providers is eligible.
* `routed_once_iff`: an entry whose cooldown ends between its two questions is lost.
-/

namespace LocalGateway

open Py

/-! ### Entries that can serve a request -/

/-- The entry of a model can serve a request. -/
structure Serves (c : GatewayConfig) (m : ModelConfig) (d : Demand) (ignore : List PyStr)
    (slot : Option TimeSlot) (e : Entry) : Prop where
  configured : m.backends[e.index]? = some e.backend
  enabled : attrBool e.backend.fields (py "enabled") = true
  provider : c.providerById e.backend.provider = some e.provider
  provider_enabled : attrBool e.provider.attrs.fields (py "enabled") = true
  not_ignored : e.backend.provider ∉ ignore
  /-- Neither output cap is below `max_tokens`. -/
  output : ∀ n, d.maxTokens = some n → ∀ cap,
    attrInt e.backend.fields (py "max_output_tokens") = some cap ∨
      attrInt m.fields (py "max_output_tokens") = some cap → n ≤ cap
  /-- The context has room for the prompt and the completion. -/
  context : ∀ n length, d.inputTokens = some n →
    attrInt e.backend.fields (py "context_length") = some length → n + d.maxTokens.getD 0 ≤ length
  allowed : ∀ s, slot = some s → slotAllows s e.backend.provider e.backend.model = true

theorem fitsOutput_iff {m : ModelConfig} {b : BackendConfig} {d : Demand} :
    fitsOutput m b d = true ↔ ∀ n, d.maxTokens = some n → ∀ cap,
      attrInt b.fields (py "max_output_tokens") = some cap ∨
        attrInt m.fields (py "max_output_tokens") = some cap → n ≤ cap := by
  unfold fitsOutput outputCap
  rcases d.maxTokens with - | n
  · simp
  rcases attrInt b.fields (py "max_output_tokens") with - | cap <;>
    rcases attrInt m.fields (py "max_output_tokens") with - | cap'
  · simp
  · simp
  · simp
  · simp only [decide_eq_true_eq, Option.some.injEq, forall_eq']
    constructor
    · rintro h x (rfl | rfl) <;> split_ifs at h <;> omega
    · intro h
      have hb := h cap (.inl rfl)
      have hm := h cap' (.inr rfl)
      split_ifs <;> assumption

theorem fitsContext_iff {b : BackendConfig} {d : Demand} :
    fitsContext b d = true ↔ ∀ n length, d.inputTokens = some n →
      attrInt b.fields (py "context_length") = some length → n + d.maxTokens.getD 0 ≤ length := by
  unfold fitsContext
  rcases d.inputTokens with - | n
  · simp
  rcases attrInt b.fields (py "context_length") with - | length <;> simp

theorem candidate_eq_some_iff {c : GatewayConfig} {m : ModelConfig} {d : Demand}
    {ignore : List PyStr} {slot : Option TimeSlot} {i : ℕ} {b : BackendConfig} {e : Entry} :
    candidate c m d ignore slot i b = some e ↔
      (attrBool b.fields (py "enabled") = true ∧ b.provider ∉ ignore) ∧
        c.providerById b.provider = some e.provider ∧
        attrBool e.provider.attrs.fields (py "enabled") = true ∧ fitsOutput m b d = true ∧
        fitsContext b d = true ∧ (slot.all fun s ↦ slotAllows s b.provider b.model) = true ∧
        e.index = i ∧ e.backend = b := by
  unfold candidate
  split_ifs with hb
  · simp only [false_iff]
    rintro ⟨⟨henabled, hignore⟩, -⟩
    simp [henabled, hignore] at hb
  · have hfirst : attrBool b.fields (py "enabled") = true ∧ b.provider ∉ ignore := by
      simpa using hb
    rw [and_iff_right hfirst]
    rcases c.providerById b.provider with - | p
    · simp
    · simp only [Option.some.injEq]
      split_ifs with hp
      · simp only [false_iff]
        rintro ⟨rfl, henabled, hout, hctx, hslot, -⟩
        simp [henabled, hout, hctx, hslot] at hp
      · simp only [Bool.or_eq_true, Bool.not_eq_true', not_or, Bool.not_eq_false] at hp
        obtain ⟨⟨⟨henabled, hout⟩, hctx⟩, hslot⟩ := hp
        rw [Option.some.injEq]
        constructor
        · rintro rfl
          exact ⟨rfl, henabled, hout, hctx, hslot, rfl, rfl⟩
        · rintro ⟨rfl, -, -, -, -, rfl, rfl⟩
          rfl

/-- **The loop finds the entries that can serve the request.** -/
theorem mem_eligible_iff {c : GatewayConfig} {m : ModelConfig} {d : Demand} {ignore : List PyStr}
    {slot : Option TimeSlot} {e : Entry} :
    e ∈ eligible c m d ignore slot ↔ Serves c m d ignore slot e := by
  have hmem : e ∈ eligible c m d ignore slot ↔
      ∃ i b, m.backends[i]? = some b ∧ candidate c m d ignore slot i b = some e := by
    rw [eligible, List.reduceOption_mem_iff, List.mem_mapIdx]
    constructor
    · rintro ⟨i, hi, h⟩
      exact ⟨i, _, List.getElem?_eq_getElem hi, h⟩
    · rintro ⟨i, b, hb, h⟩
      obtain ⟨hi, rfl⟩ := List.getElem?_eq_some_iff.1 hb
      exact ⟨i, hi, h⟩
  have hslot : ∀ provider model, (slot.all fun s ↦ slotAllows s provider model) = true ↔
      ∀ s, slot = some s → slotAllows s provider model = true := by
    intro provider model
    rcases slot with - | s <;> simp
  rw [hmem]
  constructor
  · rintro ⟨i, b, hb, h⟩
    obtain ⟨⟨henabled, hignore⟩, hp, hpe, hout, hctx, hall, rfl, rfl⟩ := candidate_eq_some_iff.1 h
    exact ⟨hb, henabled, hp, hpe, hignore, fitsOutput_iff.1 hout, fitsContext_iff.1 hctx,
      (hslot _ _).1 hall⟩
  · rintro ⟨hb, henabled, hp, hpe, hignore, hout, hctx, hall⟩
    exact ⟨_, _, hb, candidate_eq_some_iff.2 ⟨⟨henabled, hignore⟩, hp, hpe, fitsOutput_iff.2 hout,
      fitsContext_iff.2 hctx, (hslot _ _).2 hall, rfl, rfl⟩⟩

/-! ### A small gateway -/

/-- Floats without rounding, and with finite numbers only. -/
def exactFloats : Floats where
  add a b := .fin (a.rat + b.rat)
  mul a b := .fin (a.rat * b.rat)
  div a b := .fin (a.rat / b.rat)
  pow a n := some (.fin (a.rat ^ n))
  sum xs := .fin (xs.map PyFloat.rat).sum

/-- A gateway that has seen no requests, on a Monday at midnight. -/
def quietMoment : Moment where
  floats := exactFloats
  zone _ := some (0, 0)
  tps := []
  stats := []
  warmth _ := []
  rotation := 0
  draw _ := .fin 0

/-- An enabled provider. -/
def plainProvider (id : PyStr) : ProviderConfig :=
  ⟨id, .str [], providerClass.build [(py "base_url", .str (py "http://u"))] (by decide)⟩

/-- An enabled backend of the model `x`. -/
def plainBackend (provider : PyStr) (priority : ℤ) : BackendConfig :=
  ⟨priority, (py "provider", .str provider) :: (py "model", .str (py "x")) ::
    defaultFields backendClass.specs⟩

/-- The entry of such a backend. -/
def plainEntry (index : ℕ) (provider : PyStr) (priority : ℤ) : Entry :=
  ⟨index, plainProvider provider, plainBackend provider priority⟩

/-- A gateway with the providers `a` and `b` and one model. -/
def plainGateway (server : Attrs serverClass) (backends : List BackendConfig) : GatewayConfig :=
  { GatewayConfig.empty with
    server := ⟨none, [], server⟩
    providers := [plainProvider (py "a"), plainProvider (py "b")]
    models := [⟨py "m", backends, .empty, defaultFields modelClass.specs⟩] }

/-- The default settings. -/
def plainServer : Attrs serverClass :=
  serverClass.build [] (by decide)

/-- A request without limits. -/
def plainDemand : Demand :=
  ⟨none, none⟩

section Guarantees

variable (c : GatewayConfig) (now : Moment) (prefs : ProviderPrefs) (cacheKey modelId : PyStr)
  (d : Demand) (r : Registry) (s : Breaker)

/-- The entry can serve a request for the model at this moment. -/
def Eligible (e : Entry) : Prop :=
  ∃ m slot, c.modelById modelId = some m ∧ attrBool m.fields (py "enabled") = true ∧
    activeSlot now.zone m.timeRouting = some slot ∧ Serves c m d prefs.ignore slot e

/-- The candidates are the eligible entries. -/
theorem mem_candidates_iff {es : List Entry} (h : candidates c now prefs modelId d = some es)
    (e : Entry) : e ∈ es ↔ Eligible c now prefs modelId d e := by
  unfold candidates at h
  unfold Eligible
  rcases hm : c.modelById modelId with - | m <;> rw [hm] at h
  · obtain rfl := Option.some.inj h
    simp
  · simp only at h
    split_ifs at h with henabled
    · obtain rfl := Option.some.inj h
      simp_all
    · obtain ⟨slot, hslot, rfl⟩ := Option.map_eq_some_iff.1 h
      have henabled : attrBool m.fields (py "enabled") = true := by simpa using henabled
      rw [mem_eligible_iff]
      constructor
      · exact fun hserves ↦ ⟨m, slot, rfl, henabled, hslot, hserves⟩
      · rintro ⟨_, slot', ⟨⟩, -, hslot', hserves⟩
        obtain rfl := Option.some.inj (hslot.symm.trans hslot')
        exact hserves

/-- A selection while the clock goes on. -/
def selectAt (clock : ℕ → ℚ) (h : Monotone clock) : Selection :=
  selectBackends c now prefs cacheKey (answersAt r s clock h) modelId d

/-- The entries that it emits. -/
def routed (clock : ℕ → ℚ) (h : Monotone clock) : List Entry :=
  (selectAt c now prefs cacheKey modelId d r s clock h).emitted.map SelectedBackend.entry

theorem selectAt_of_none (h : candidates c now prefs modelId d = none) (clock : ℕ → ℚ)
    (hclock : Monotone clock) :
    selectAt c now prefs cacheKey modelId d r s clock hclock = ⟨[], true⟩ := by
  rw [selectAt, selectBackends_eq, h]

theorem selectAt_of_some {es : List Entry} (h : candidates c now prefs modelId d = some es)
    (clock : ℕ → ℚ) (hclock : Monotone clock) :
    selectAt c now prefs cacheKey modelId d r s clock hclock =
      emit c now prefs cacheKey (answersAt r s clock hclock) es := by
  rw [selectAt, selectBackends_eq, h]

/-! ### Coverage -/

/-- The backend is neither rate-limited nor is its circuit open. -/
def availableAt (t : ℚ) (e : Entry) : Bool :=
  (r.isAvailable t e.key).2 && !s.isOpen t e.key

/-- With the registries and the clock as they are at a time, the selection returns, emits exactly
the eligible entries, and the available ones before the others. -/
def Covers (t : ℚ) : Prop :=
  (selectAt c now prefs cacheKey modelId d r s (fun _ ↦ t) monotone_const).raised = false ∧
    (∀ e, e ∈ routed c now prefs cacheKey modelId d r s (fun _ ↦ t) monotone_const ↔
      Eligible c now prefs modelId d e) ∧
    (routed c now prefs cacheKey modelId d r s (fun _ ↦ t) monotone_const).Pairwise
      fun a b ↦ availableAt r s t b = true → availableAt r s t a = true

/-- The order of the tiers of the entries can be drawn, if it is: no power of the decay overflows,
and they do not add up to zero. -/
def SamplesTiers (es : List Entry) : Prop :=
  routingMode c = py "explore" → affinityActive c cacheKey = false → prefs.order = [] →
    1 < (tierKeys es).length →
    ∃ weights, (List.range (tierKeys es).length).mapM (now.floats.pow (routingDecay c)) =
      some weights ∧ (now.floats.sum weights).isZero = false

theorem sampleTierOrder_eq_none_iff (decay draw : PyFloat) (keys : List ℤ) :
    sampleTierOrder now decay draw keys = none ↔
      ¬ ∃ weights, (List.range keys.length).mapM (now.floats.pow decay) = some weights ∧
        (now.floats.sum weights).isZero = false := by
  unfold sampleTierOrder
  rcases (List.range keys.length).mapM (now.floats.pow decay) with - | weights
  · simp
  · rcases hzero : (now.floats.sum weights).isZero with - | - <;> simp [hzero]

/-- A selection of candidates raises only while it draws the order of their tiers. -/
theorem raised_eq_false_iff {es : List Entry} (A : Answers Entry) :
    (emit c now prefs cacheKey A es).raised = false ↔ SamplesTiers c now prefs cacheKey es := by
  rw [← Bool.not_eq_true, raised_iff]
  unfold SamplesTiers tierOrder
  constructor
  · intro h hmode haff horder hlength
    by_contra hnone
    refine h ⟨?_, ?_, haff, ?_⟩
    · rintro rfl
      simp [tierKeys] at hlength
    · exact fun hpinned ↦ hpinned.1 (preferredEntries_nil prefs horder es)
    · rw [if_pos ⟨hmode, hlength, horder⟩, sampleTierOrder_eq_none_iff]
      exact hnone
  · rintro h ⟨-, -, haff, hnone⟩
    split_ifs at hnone with hexplore
    obtain ⟨hmode, hlength, horder⟩ := hexplore
    exact (sampleTierOrder_eq_none_iff ..).1 hnone (h hmode haff horder hlength)

/-- A selection that does not raise emits each candidate as often as it is split. -/
theorem count_emit_frozen {p : Entry → Bool} {es : List Entry}
    (h : (emit c now prefs cacheKey (.frozen p) es).raised = false) :
    List.Perm ((emit c now prefs cacheKey (.frozen p) es).emitted.map SelectedBackend.entry)
      ((decided c prefs cacheKey es).map Decision.item) := by
  refine (emit_perm c now prefs cacheKey _ h).trans ((Answers.kept_perm_iff _ _).2 fun d _ ↦ ?_)
  exact Answers.agrees_frozen p d

/-- **Coverage and deferral.** For a request with fallbacks, or without listed providers: the
selection covers the eligible entries exactly if the time zone of the model can be read and the
order of the tiers can be drawn. -/
theorem covers_iff (t : ℚ) (hallow : prefs.allowFallbacks = true ∨ prefs.order = []) :
    Covers c now prefs cacheKey modelId d r s t ↔
      ∃ es, candidates c now prefs modelId d = some es ∧ SamplesTiers c now prefs cacheKey es := by
  have hpinned : ∀ es, ¬ Pinned c prefs cacheKey es := by
    rintro es ⟨hpreferred, hfallbacks, -⟩
    rcases hallow with hallow | hallow
    · simp [hallow] at hfallbacks
    · exact hpreferred (preferredEntries_nil prefs hallow es)
  unfold Covers routed
  rcases hes : candidates c now prefs modelId d with - | es
  · rw [selectAt_of_none c now prefs cacheKey modelId d r s hes]
    simp
  · rw [selectAt_of_some c now prefs cacheKey modelId d r s hes, answersAt_const]
    constructor
    · rintro ⟨hraised, -, -⟩
      exact ⟨es, rfl, (raised_eq_false_iff c now prefs cacheKey _).1 hraised⟩
    · rintro ⟨_, ⟨⟩, hsamples⟩
      have hraised := (raised_eq_false_iff c now prefs cacheKey
        (.frozen fun e ↦ (r.isAvailable t e.key).2 && !s.isOpen t e.key)).2 hsamples
      refine ⟨hraised, fun e ↦ ?_, emit_available_first c now prefs cacheKey es⟩
      rw [(count_emit_frozen c now prefs cacheKey hraised).mem_iff,
        (map_item_decided_perm c prefs cacheKey es).mem_iff, if_neg (hpinned es),
        List.mem_append, List.mem_filter, mem_preferredEntries,
        ← mem_candidates_iff c now prefs modelId d hes]
      constructor
      · rintro (h | h)
        · exact h.2
        · exact h.1
      · intro he
        by_cases hlisted : e.provider.id ∈ prefs.order
        · exact .inl ⟨hlisted, he⟩
        · refine .inr ⟨he, ?_⟩
          rw [Bool.not_eq_true', ← Bool.not_eq_true, isPreferred_iff prefs he]
          exact hlisted

/-- One backend. -/
def oneBackend : GatewayConfig :=
  plainGateway plainServer [plainBackend (py "a") 1]

theorem covers_sample :
    Covers oneBackend quietMoment .none [] (py "m") plainDemand .empty .initial 0 :=
  (covers_iff oneBackend quietMoment .none [] (py "m") plainDemand .empty .initial 0
    (.inl rfl)).2 ⟨[plainEntry 0 (py "a") 1], by decide +kernel, fun _ _ _ h ↦
      absurd h (by decide +kernel)⟩

/-- Two tiers, and a decay whose powers add up to zero. -/
def alternatingDecay : GatewayConfig :=
  plainGateway (serverClass.build [(py "routing_decay", .float (.fin (-1)))] (by decide))
    [plainBackend (py "a") 1, plainBackend (py "b") 2]

/-- The division by the sum raises before anything is emitted. -/
theorem not_covers_alternatingDecay :
    ¬ Covers alternatingDecay quietMoment .none [] (py "m") plainDemand .empty .initial 0 :=
  fun h ↦ absurd h.1 (by decide +kernel)

/-! ### Uniqueness -/

/-- **No entry is emitted twice, at whatever times the availability is asked for, exactly if no
provider of an eligible entry is listed twice.** -/
theorem routed_nodup_iff :
    (∀ clock hclock, (routed c now prefs cacheKey modelId d r s clock hclock).Nodup) ↔
      ∀ es, candidates c now prefs modelId d = some es →
        ∀ e ∈ es, prefs.order.count e.provider.id ≤ 1 := by
  unfold routed
  rcases hes : candidates c now prefs modelId d with - | es
  · simp [selectAt_of_none c now prefs cacheKey modelId d r s hes]
  have hnodup : es.Nodup := candidates_nodup c now prefs hes
  simp only [selectAt_of_some c now prefs cacheKey modelId d r s hes, Option.some.injEq,
    forall_eq']
  constructor
  · intro h e he
    -- with a clock that stands still, everything that is split comes out
    have hfrozen := h (fun _ ↦ 0) monotone_const
    rw [answersAt_const] at hfrozen
    by_contra hcount
    have hlisted : e.provider.id ∈ prefs.order := List.count_pos_iff.1 (by omega)
    rcases hraised : (emit c now prefs cacheKey (.frozen fun e ↦
      (r.isAvailable 0 e.key).2 && !s.isOpen 0 e.key) es).raised with - | -
    · have hperm := count_emit_frozen c now prefs cacheKey hraised
      have hle := List.nodup_iff_count_le_one.1 (hperm.nodup_iff.1 hfrozen) e
      rw [count_decided c prefs cacheKey hnodup he, if_pos hlisted] at hle
      exact hcount hle
    · have hnone := ((raised_iff c now prefs cacheKey _).1 hraised).2.2.2
      rw [order_of_tierOrder_none c now prefs hnone] at hlisted
      exact List.not_mem_nil hlisted
  · intro h clock hclock
    rcases hraised : (emit c now prefs cacheKey (answersAt r s clock hclock) es).raised with - | -
    · refine (emit_perm c now prefs cacheKey _ hraised).nodup_iff.2 ?_
      refine (Answers.kept_sublist _ _).nodup (List.nodup_iff_count_le_one.2 fun e ↦ ?_)
      by_cases hmem : e ∈ (decided c prefs cacheKey es).map Decision.item
      · have he := mem_of_mem_decided c prefs cacheKey hmem
        rw [count_decided c prefs cacheKey hnodup he]
        split_ifs
        · exact h e he
        · exact Nat.zero_le 1
        · exact le_rfl
      · rw [List.count_eq_zero.2 hmem]
        exact Nat.zero_le 1
    · rw [emitted_of_raised c now prefs cacheKey _ hraised]
      exact List.nodup_nil

/-- A provider that is listed twice. -/
def listedTwice : ProviderPrefs :=
  { ProviderPrefs.none with order := [py "a", py "a"] }

example : routed oneBackend quietMoment listedTwice [] (py "m") plainDemand .empty .initial (fun _ ↦ 0) monotone_const =
    [plainEntry 0 (py "a") 1, plainEntry 0 (py "a") 1] := by
  decide +kernel

/-- Its entry is emitted twice. -/
theorem not_routed_nodup_listedTwice :
    ¬ ∀ clock hclock, (routed oneBackend quietMoment listedTwice [] (py "m") plainDemand .empty
      .initial clock hclock).Nodup :=
  fun h ↦ absurd (h (fun _ ↦ 0) monotone_const) (by decide +kernel)

/-! ### Pinning -/

/-- **A request without fallbacks is sent to listed providers only, at whatever times the
availability is asked for, exactly if cache affinity is off and a listed provider is eligible, or no
other provider is.** -/
theorem routed_pinned_iff (hallow : prefs.allowFallbacks = false) (horder : prefs.order ≠ []) :
    (∀ clock hclock, ∀ e ∈ routed c now prefs cacheKey modelId d r s clock hclock,
      e.provider.id ∈ prefs.order) ↔
      ∀ es, candidates c now prefs modelId d = some es →
        (affinityActive c cacheKey = false ∧ ∃ e ∈ es, e.provider.id ∈ prefs.order) ∨
          ∀ e ∈ es, e.provider.id ∈ prefs.order := by
  unfold routed
  rcases hes : candidates c now prefs modelId d with - | es
  · simp [selectAt_of_none c now prefs cacheKey modelId d r s hes]
  simp only [selectAt_of_some c now prefs cacheKey modelId d r s hes, Option.some.injEq,
    forall_eq']
  have hraised : ∀ A, (emit c now prefs cacheKey A es).raised = false := fun A ↦ by
    rw [← Bool.not_eq_true, raised_iff]
    rintro ⟨-, -, -, hnone⟩
    exact horder (order_of_tierOrder_none c now prefs hnone)
  have hpreferred : preferredEntries prefs es ≠ [] ↔ ∃ e ∈ es, e.provider.id ∈ prefs.order := by
    rw [Ne, List.eq_nil_iff_forall_not_mem, not_forall]
    exact exists_congr fun e ↦ by rw [not_not, mem_preferredEntries, and_comm]
  have hpinned : Pinned c prefs cacheKey es ↔
      affinityActive c cacheKey = false ∧ ∃ e ∈ es, e.provider.id ∈ prefs.order := by
    rw [Pinned, hallow, hpreferred]
    simp [and_comm]
  rw [← hpinned]
  constructor
  · intro h
    by_cases hp : Pinned c prefs cacheKey es
    · exact .inl hp
    · -- in a frozen time every eligible entry is emitted, listed or not
      refine .inr fun e he ↦ h (fun _ ↦ 0) monotone_const e ?_
      rw [answersAt_const, (count_emit_frozen c now prefs cacheKey (hraised _)).mem_iff, ← List.count_pos_iff,
        count_decided c prefs cacheKey (candidates_nodup c now prefs hes) he]
      split_ifs with hlisted
      · exact List.count_pos_iff.2 hlisted
      · exact Nat.one_pos
  · intro h clock hclock e he
    have hitem := (Answers.kept_sublist _ _).subset
      ((emit_perm c now prefs cacheKey _ (hraised _)).mem_iff.1 he)
    rcases h with hp | hall
    · rw [(map_item_decided_perm c prefs cacheKey es).mem_iff, if_pos hp, List.append_nil,
        mem_preferredEntries] at hitem
      exact hitem.1
    · exact hall e (mem_of_mem_decided c prefs cacheKey hitem)

/-- A request for one provider only. -/
def onlyA : ProviderPrefs :=
  { ProviderPrefs.none with order := [py "a"], allowFallbacks := false }

theorem routed_pinned_sample :
    routed oneBackend quietMoment onlyA [] (py "m") plainDemand .empty .initial (fun _ ↦ 0)
        monotone_const ≠ [] ∧
      ∀ clock hclock, ∀ e ∈ routed oneBackend quietMoment onlyA [] (py "m") plainDemand .empty
        .initial clock hclock, e.provider.id ∈ onlyA.order := by
  refine ⟨by decide +kernel, (routed_pinned_iff oneBackend quietMoment onlyA [] (py "m") plainDemand
    .empty .initial rfl (by decide)).2 fun es hes ↦ .inr ?_⟩
  obtain rfl : [plainEntry 0 (py "a") 1] = es :=
    Option.some.inj (Eq.trans (by decide +kernel) hes)
  decide +kernel

/-- A model that the listed provider does not serve. -/
def onlyBServes : GatewayConfig :=
  plainGateway plainServer [plainBackend (py "b") 1]

example : routed onlyBServes quietMoment onlyA [] (py "m") plainDemand .empty .initial (fun _ ↦ 0) monotone_const =
    [plainEntry 0 (py "b") 1] := by
  decide +kernel

/-- The request is sent to the provider that does. -/
theorem not_routed_pinned_onlyBServes :
    ¬ ∀ clock hclock, ∀ e ∈ routed onlyBServes quietMoment onlyA [] (py "m") plainDemand .empty
      .initial clock hclock, e.provider.id ∈ onlyA.order :=
  fun h ↦ absurd (h (fun _ ↦ 0) monotone_const (plainEntry 0 (py "b") 1) (by decide +kernel))
    (by decide +kernel)

/-! ### Losslessness -/

/-- The selection returns, and emits every eligible entry exactly once. -/
def RoutesOnce (clock : ℕ → ℚ) (hclock : Monotone clock) : Prop :=
  (selectAt c now prefs cacheKey modelId d r s clock hclock).raised = false ∧
    ∀ e, Eligible c now prefs modelId d e →
      (routed c now prefs cacheKey modelId d r s clock hclock).count e = 1

/-- What is kept is everything if each element of it comes once. -/
theorem agrees_of_count_kept {A : Answers Entry} {ds : List (Decision Entry)}
    (hle : ∀ e, (ds.map Decision.item).count e ≤ 1)
    (hone : ∀ e ∈ ds.map Decision.item, (A.kept ds).count e = 1) : ∀ d ∈ ds, A.agrees d = true := by
  refine (A.kept_perm_iff ds).1 (List.perm_iff_count.2 fun e ↦ ?_)
  by_cases he : e ∈ ds.map Decision.item
  · have hpos := List.count_pos_iff.2 he
    have := hle e
    rw [hone e he]
    omega
  · rw [List.count_eq_zero.2 he, List.count_eq_zero.2 fun h ↦ he ((A.kept_sublist ds).subset h)]

/-- **A selection in a time that goes on emits every eligible entry exactly once if and only if it
does not raise, the two questions about each entry that it splits get the same answer, and the
request is not pinned to some of the eligible providers.** -/
theorem routesOnce_iff (clock : ℕ → ℚ) (hclock : Monotone clock) (horder : prefs.order.Nodup) :
    RoutesOnce c now prefs cacheKey modelId d r s clock hclock ↔
      ∃ es, candidates c now prefs modelId d = some es ∧
        SamplesTiers c now prefs cacheKey es ∧
        (Pinned c prefs cacheKey es → ∀ e ∈ es, e.provider.id ∈ prefs.order) ∧
        ∀ q ∈ decided c prefs cacheKey es,
          routable r s clock q.first q.item = routable r s clock q.second q.item := by
  unfold RoutesOnce routed
  rcases hes : candidates c now prefs modelId d with - | es
  · simp [selectAt_of_none c now prefs cacheKey modelId d r s hes]
  simp only [selectAt_of_some c now prefs cacheKey modelId d r s hes, Option.some.injEq,
    exists_eq_left', ← mem_candidates_iff c now prefs modelId d hes]
  have hnodup : es.Nodup := candidates_nodup c now prefs hes
  have hle : ∀ e, ((decided c prefs cacheKey es).map Decision.item).count e ≤ 1 := fun e ↦ by
    by_cases hmem : e ∈ (decided c prefs cacheKey es).map Decision.item
    · rw [count_decided c prefs cacheKey hnodup (mem_of_mem_decided c prefs cacheKey hmem)]
      have := List.nodup_iff_count_le_one.1 horder e.provider.id
      split_ifs <;> omega
    · rw [List.count_eq_zero.2 hmem]
      exact Nat.zero_le 1
  set A := answersAt r s clock hclock with hA
  have hagrees : ∀ q, A.agrees q = true ↔
      routable r s clock q.first q.item = routable r s clock q.second q.item := fun q ↦
    decide_eq_true_iff
  simp only [← hagrees, raised_eq_false_iff]
  refine and_congr_right fun hsamples ↦ ?_
  have hperm := emit_perm c now prefs cacheKey A
    ((raised_eq_false_iff c now prefs cacheKey A).2 hsamples)
  simp only [hperm.count_eq]
  constructor
  · intro hone
    refine ⟨fun hpinned e he ↦ ?_, agrees_of_count_kept hle fun e he ↦
      hone e (mem_of_mem_decided c prefs cacheKey he)⟩
    -- an entry that is not listed is not asked about, so it cannot be emitted
    have hcount := ((A.kept_sublist _).count_le e).trans_eq
      (count_decided c prefs cacheKey hnodup he)
    rw [hone e he, if_pos hpinned] at hcount
    by_contra hlisted
    rw [if_neg hlisted] at hcount
    exact absurd hcount (by decide)
  · rintro ⟨hpinned, hall⟩ e he
    rw [((A.kept_perm_iff _).2 hall).count_eq, count_decided c prefs cacheKey hnodup he]
    split_ifs with hlisted hp
    · exact List.count_eq_one_of_mem horder hlisted
    · exact absurd (hpinned hp e he) hlisted
    · rfl

theorem routesOnce_sample :
    RoutesOnce oneBackend quietMoment .none [] (py "m") plainDemand .empty .initial (fun _ ↦ 0)
      monotone_const :=
  (routesOnce_iff oneBackend quietMoment .none [] (py "m") plainDemand .empty .initial _ _
    (by decide)).2 ⟨[plainEntry 0 (py "a") 1], by decide +kernel,
      fun _ _ _ h ↦ absurd h (by decide +kernel), fun h ↦ absurd h (by decide +kernel),
      fun _ _ ↦ rfl⟩

/-- A cooldown of the only backend, until a time between its two questions. -/
def shortCooldown : Registry :=
  ⟨[(py "a:x", 2)], []⟩

/-- The first question refuses the entry for the cooldown, the second one no longer keeps it. -/
theorem not_routesOnce_shortCooldown :
    ¬ RoutesOnce oneBackend quietMoment .none [] (py "m") plainDemand shortCooldown .initial
      (fun k ↦ k) Nat.mono_cast := by
  intro h
  have hes : candidates oneBackend quietMoment .none (py "m") plainDemand =
      some [plainEntry 0 (py "a") 1] := by decide +kernel
  have heligible := (mem_candidates_iff oneBackend quietMoment .none (py "m") plainDemand hes _).1
    List.mem_cons_self
  exact absurd (h.2 _ heligible) (by decide +kernel)

end Guarantees

end LocalGateway
