import LocalGateway.Foundations.Related
import LocalGateway.Routing.Coverage

/-!
# What a selection looks at

A selection reads little of an entry: its priority and weight, its prices and measurements, whether
it is available, and which of the preferred providers it belongs to. Entries of two gateways that
agree in these are `Twin`s, and two gateways that agree in the rest are a `Mirror` of each other:
whatever ids, keys and tables they use, a selection among twins emits twins, in the same order and
with the same reasons (`emit_related`).

The proof follows the definitions: each function that orders entries takes related lists to related
lists.
-/

namespace LocalGateway

open Py List

/-- Two gateways and two requests that agree in everything but the entries; the preferred providers
correspond by a renaming of ids. -/
structure Mirror (σ : PyStr → PyStr) (c c' : GatewayConfig) (now now' : Moment)
    (prefs prefs' : ProviderPrefs) : Prop where
  injective : σ.Injective
  server : c'.server = c.server
  floats : now'.floats = now.floats
  rotation : now'.rotation = now.rotation
  draw : now'.draw = now.draw
  measured : now'.tps.isEmpty = now.tps.isEmpty
  order : prefs'.order = prefs.order.map σ
  allowFallbacks : prefs'.allowFallbacks = prefs.allowFallbacks
  sort : prefs'.sort = prefs.sort

/-- Two entries that agree in what a selection reads of them. -/
structure Twin (σ : PyStr → PyStr) (c c' : GatewayConfig) (now now' : Moment) (cacheKey : PyStr)
    (A A' : Answers Entry) (e e' : Entry) : Prop where
  provider : e'.provider.id = σ e.provider.id
  model : e'.backend.model = e.backend.model
  priority : e'.backend.priority = e.backend.priority
  weight : e'.weight = e.weight
  pricing : c'.pricingFor e'.provider.id e'.backend.model =
    c.pricingFor e.provider.id e.backend.model
  throughput : now'.tps.lookup e'.key = now.tps.lookup e.key
  stat : now'.stats.lookup e'.key = now.stats.lookup e.key
  warmth : (liveWarmth c' now' cacheKey).lookup e'.key = (liveWarmth c now cacheKey).lookup e.key
  ask : ∀ k, A'.ask k e' = A.ask k e

/-- The same reason is given for related entries. -/
def SameReason (R : Entry → Entry → Prop) (s s' : SelectedBackend) : Prop :=
  R s.entry s'.entry ∧ s'.reason = s.reason

section Parametric

variable {σ : PyStr → PyStr} {c c' : GatewayConfig} {now now' : Moment}
  {prefs prefs' : ProviderPrefs} {cacheKey : PyStr} {A A' : Answers Entry}
  {R : Entry → Entry → Prop} {e e' f f' : Entry} {es es' : List Entry}

/-! ### Settings -/

section Settings

variable (h : Mirror σ c c' now now' prefs prefs')

include h

theorem Mirror.routingMode_eq : routingMode c' = routingMode c := by
  rw [routingMode, routingMode, h.server]

theorem Mirror.routingDecay_eq : routingDecay c' = routingDecay c := by
  rw [routingDecay, routingDecay, h.server]

theorem Mirror.affinityActive_eq : affinityActive c' cacheKey = affinityActive c cacheKey := by
  rw [affinityActive, affinityActive, h.server]

theorem Mirror.tpsInUse_eq : tpsInUse c' prefs' = tpsInUse c prefs := by
  rw [tpsInUse, tpsInUse, h.routingMode_eq, h.server, h.sort]

theorem Mirror.order_eq_nil_iff : prefs'.order = [] ↔ prefs.order = [] := by
  rw [h.order, map_eq_nil_iff]

/-- The moments as the selections see them. -/
theorem Mirror.seen : Mirror σ c c' (seen c now prefs) (seen c' now' prefs') prefs prefs' := by
  unfold LocalGateway.seen
  rw [h.tpsInUse_eq]
  split_ifs
  · exact h
  · exact { h with measured := rfl }

theorem Mirror.pickIndex_eq (pick acc : PyFloat) (i : ℕ) (ws : List PyFloat) :
    pickIndex now' pick acc i ws = pickIndex now pick acc i ws := by
  induction ws generalizing acc i with
  | nil => rfl
  | cons w ws ih => rw [pickIndex, pickIndex, h.floats, ih]

theorem Mirror.tierOrder_eq (keys : List ℤ) :
    tierOrder c' now' prefs' keys = tierOrder c now prefs keys := by
  have hsample : ∀ decay draw, sampleTierOrder now' decay draw keys =
      sampleTierOrder now decay draw keys := by
    intro decay draw
    simp only [sampleTierOrder, h.floats, h.pickIndex_eq]
  simp only [tierOrder, h.routingMode_eq, h.routingDecay_eq, h.order_eq_nil_iff, h.draw, hsample]

end Settings

/-! ### Orders -/

section Orders

variable (h : Mirror σ c c' now now' prefs prefs')
  (hR : ∀ {e e'}, R e e' → Twin σ c c' now now' cacheKey A A' e e')

/-- Entries that are twins are twins to the selections. -/
theorem Twin.seen (h : Mirror σ c c' now now' prefs prefs')
    (he : Twin σ c c' now now' cacheKey A A' e e') :
    Twin σ c c' (seen c now prefs) (seen c' now' prefs') cacheKey A A' e e' := by
  unfold LocalGateway.seen
  rw [h.tpsInUse_eq]
  split_ifs
  · exact he
  · exact { he with throughput := rfl }

theorem Twin.sortKey_eq (h : Mirror σ c c' now now' prefs prefs')
    (he : Twin σ c c' now now' cacheKey A A' e e') (sort : PyStr) :
    sortKey c' now' sort cacheKey e' = sortKey c now sort cacheKey e := by
  have hprice : blendedPrice c' now' e'.provider.id e'.backend.model =
      blendedPrice c now e.provider.id e.backend.model := by
    simp only [blendedPrice, he.pricing, h.floats]
  simp only [sortKey, hprice, he.stat, he.throughput, he.warmth, h.measured, h.floats]

include h hR

theorem forall₂_sortEntries (sort : PyStr) (hes : Forall₂ R es es') :
    Forall₂ R (sortEntries c now sort cacheKey es) (sortEntries c' now' sort cacheKey es') :=
  forall₂_insertionSort hes fun ha hb ↦ by
    rw [(hR ha).sortKey_eq h, (hR hb).sortKey_eq h]

theorem forall₂_sorted (hes : Forall₂ R es es') :
    Forall₂ R (sorted c now prefs cacheKey es) (sorted c' now' prefs' cacheKey es') := by
  unfold sorted
  rw [h.sort]
  rcases prefs.sort with - | sort
  · exact hes
  · exact forall₂_sortEntries h.seen (fun he ↦ (hR he).seen h) sort hes

omit h hR in
theorem forall₂_rotate (r : ℕ) (hes : Forall₂ R es es') : Forall₂ R (rotate r es) (rotate r es') :=
  rel_append (forall₂_drop r hes) (forall₂_take r hes)

theorem forall₂_weightedRotation (draw : PyFloat) (hes : Forall₂ R es es') :
    Forall₂ R (weightedRotation now draw es) (weightedRotation now' draw es') := by
  have hmeasured : es'.filterMap (fun e ↦ now'.tps.lookup e.key) =
      es.filterMap fun e ↦ now.tps.lookup e.key :=
    filterMap_eq_of_forall₂ hes fun he ↦ (hR he).throughput
  have hweights : ∀ avg, es'.map (fun e ↦ (now'.tps.lookup e.key).getD avg) =
      es.map fun e ↦ (now.tps.lookup e.key).getD avg := fun avg ↦
    map_eq_of_forall₂ hes fun he ↦ by rw [(hR he).throughput]
  simp only [weightedRotation, hmeasured, hweights, h.floats, h.rotation, h.pickIndex_eq,
    ← hes.length_eq]
  split_ifs
  · exact hes
  · exact forall₂_rotate _ hes
  · exact forall₂_rotate _ hes

theorem forall₂_staticWeightRotation (draw : PyFloat) (hes : Forall₂ R es es') :
    Forall₂ R (staticWeightRotation now draw es) (staticWeightRotation now' draw es') := by
  have hweights : es'.map (fun e ↦ e.weight.max (.fin 0)) =
      es.map fun e ↦ e.weight.max (.fin 0) :=
    map_eq_of_forall₂ hes fun he ↦ by rw [(hR he).weight]
  simp only [staticWeightRotation, hweights, h.floats, h.rotation, h.pickIndex_eq,
    ← hes.length_eq]
  split_ifs
  · exact hes
  · exact forall₂_rotate _ hes
  · exact forall₂_rotate _ hes

/-- The entries of a tier in the order in which they are tried. -/
theorem forall₂_arrange (draw : PyFloat) (hes : Forall₂ R es es') :
    Forall₂ R (arrange c now prefs cacheKey draw es) (arrange c' now' prefs' cacheKey draw es') := by
  have hseen := h.seen
  have hRseen : ∀ {e e'}, R e e' →
      Twin σ c c' (seen c now prefs) (seen c' now' prefs') cacheKey A A' e e' :=
    fun he ↦ (hR he).seen h
  have hweights : (es'.any fun e ↦ e.weight ≠ .fin 1) = es.any fun e ↦ e.weight ≠ .fin 1 :=
    any_eq_of_forall₂ hes fun he ↦ by rw [(hR he).weight]
  simp only [arrange, h.sort, hseen.measured, h.routingMode_eq, hweights, hseen.rotation,
    eq_nil_iff_of_forall₂ hes, ← hes.length_eq]
  rcases prefs.sort with - | sort
  · simp only
    split_ifs
    · exact hes
    · exact forall₂_weightedRotation hseen hRseen draw hes
    · exact forall₂_staticWeightRotation hseen hRseen draw hes
    · exact forall₂_rotate _ hes
  · exact forall₂_sortEntries hseen hRseen sort hes

end Orders

/-! ### Groups -/

section Groups

variable (h : Mirror σ c c' now now' prefs prefs')
  (hR : ∀ {e e'}, R e e' → Twin σ c c' now now' cacheKey A A' e e')

include hR

theorem tierKeys_eq_of_forall₂ (hes : Forall₂ R es es') : tierKeys es' = tierKeys es := by
  rw [tierKeys, tierKeys, map_eq_of_forall₂ hes fun he ↦ (hR he).priority]

theorem forall₂_tier (key : ℤ) (hes : Forall₂ R es es') :
    Forall₂ R (tier es key) (tier es' key) :=
  forall₂_filter hes fun he ↦ by rw [(hR he).priority]

include h

/-- A twin belongs to a preferred provider if its twin does. -/
theorem Mirror.provider_eq_iff (he : R e e') (id : PyStr) :
    e'.provider.id = σ id ↔ e.provider.id = id := by
  rw [(hR he).provider, h.injective.eq_iff]

theorem forall₂_preferredEntries (hes : Forall₂ R es es') :
    Forall₂ R (preferredEntries prefs es) (preferredEntries prefs' es') := by
  rw [preferredEntries, preferredEntries, h.order, flatMap_map, tierKeys_eq_of_forall₂ hR hes]
  refine forall₂_flatMap_same _ fun id ↦ ?_
  refine forall₂_filter (forall₂_flatMap_same _ fun key ↦ forall₂_tier hR key hes) fun he ↦ ?_
  simp only [h.provider_eq_iff hR he]

theorem isPreferred_eq_of_forall₂ (hes : Forall₂ R es es') (he : R e e') :
    isPreferred prefs' es' e' = isPreferred prefs es e := by
  simp only [isPreferred, preferredKeys, contains_eq_any_beq, any_map]
  refine any_eq_of_forall₂ (forall₂_preferredEntries h hR hes) fun hf ↦ ?_
  simp only [Function.comp_apply]
  rw [Bool.eq_iff_iff, beq_iff_eq, beq_iff_eq, Prod.mk.injEq, Prod.mk.injEq, (hR hf).provider,
    h.provider_eq_iff hR he, (hR he).model, (hR hf).model]

/-- Groups with the same keys and related entries. -/
def SameGroup (R : Entry → Entry → Prop) (g g' : ℤ × List Entry) : Prop :=
  g'.1 = g.1 ∧ Forall₂ R g.2 g'.2

theorem forall₂_tierGroups (hes : Forall₂ R es es') :
    Forall₂ (SameGroup R) (tierGroups c prefs cacheKey es) (tierGroups c' prefs' cacheKey es') := by
  rw [tierGroups, tierGroups, tierKeys_eq_of_forall₂ hR hes, h.affinityActive_eq]
  refine forall₂_map (forall₂_same.2 fun _ _ ↦ rfl) fun {key _} heq ↦ ?_
  subst heq
  refine ⟨rfl, ?_⟩
  simp only
  split_ifs
  · exact forall₂_tier hR key hes
  · refine forall₂_filter (forall₂_tier hR key hes) fun he ↦ ?_
    rw [isPreferred_eq_of_forall₂ h hR hes he]

/-- Tiers that are split into related lists. -/
structure SameSplit (R : Entry → Entry → Prop) (t t' : TierSplit) : Prop where
  key : t'.key = t.key
  available : Forall₂ R t.available t'.available
  limited : Forall₂ R t.limited t'.limited

omit h in
/-- A pass over related entries. -/
theorem forall₂_pass (want : Bool) (k : ℕ) (hes : Forall₂ R es es') :
    Forall₂ R (A.pass want k es) (A'.pass want k es') :=
  Answers.forall₂_pass want hes (fun k he ↦ (hR he).ask k) k

theorem forall₂_splitTiers {groups groups' : List (ℤ × List Entry)} (k i : ℕ)
    (hgroups : Forall₂ (SameGroup R) groups groups') :
    Forall₂ (SameSplit R) (splitTiers c now prefs cacheKey A k i groups)
      (splitTiers c' now' prefs' cacheKey A' k i groups') := by
  induction hgroups generalizing k i with
  | nil => exact .nil
  | @cons g g' _ _ hg _ ih =>
    obtain ⟨key, group⟩ := g
    obtain ⟨key', group'⟩ := g'
    obtain ⟨rfl, hgroup⟩ : key' = key ∧ Forall₂ R group group' := hg
    rw [splitTiers, splitTiers, h.draw, ← hgroup.length_eq]
    refine .cons ⟨rfl, ?_, ?_⟩ (ih _ _)
    · exact forall₂_arrange h hR _ (forall₂_pass hR true k hgroup)
    · exact forall₂_sorted h hR (forall₂_pass hR false _ hgroup)

omit h hR in
theorem questions_eq_of_forall₂ {groups groups' : List (ℤ × List Entry)}
    (hgroups : Forall₂ (SameGroup R) groups groups') : questions groups' = questions groups := by
  exact congrArg sum (map_eq_of_forall₂ hgroups fun hg ↦ by rw [hg.2.length_eq])

end Groups

/-! ### Emissions -/

section Emission

variable (h : Mirror σ c c' now now' prefs prefs')
  (hR : ∀ {e e'}, R e e' → Twin σ c c' now now' cacheKey A A' e e')

theorem forall₂_tagReason (reason : PyStr) (hes : Forall₂ R es es') :
    Forall₂ (SameReason R) (tagReason reason es) (tagReason reason es') :=
  forall₂_map hes fun he ↦ ⟨he, rfl⟩

include hR in
theorem inflight_eq (he : R e e') : inflight now' e' = inflight now e := by
  rw [inflight, inflight, (hR he).stat]

include h hR

theorem orderRank_eq (he : R e e') :
    orderRank prefs'.order e'.provider.id = orderRank prefs.order e.provider.id := by
  have hfind : (prefs.order.map σ).reverse.findIdx? (· = e'.provider.id) =
      prefs.order.reverse.findIdx? (· = e.provider.id) := by
    rw [← map_reverse, findIdx?_map]
    congr 1
    funext id
    simp only [Function.comp_apply, (hR he).provider, h.injective.eq_iff]
  rw [orderRank, orderRank, h.order, hfind, length_map]

theorem forall₂_applyTiebreak (hes : Forall₂ R es es') :
    Forall₂ R (applyTiebreak prefs.order es) (applyTiebreak prefs'.order es') := by
  rw [applyTiebreak, applyTiebreak]
  simp only [h.order_eq_nil_iff]
  split_ifs
  · exact hes
  · exact forall₂_insertionSort hes fun ha hb ↦ by
      rw [orderRank_eq h hR ha, orderRank_eq h hR hb]

omit h in
theorem forall₂_splitIdleBusy (hes : Forall₂ R es es') :
    Forall₂ R (splitIdleBusy now es).1 (splitIdleBusy now' es').1 ∧
      Forall₂ R (splitIdleBusy now es).2 (splitIdleBusy now' es').2 := by
  refine ⟨forall₂_filter hes fun he ↦ by rw [inflight_eq hR he], ?_⟩
  exact forall₂_insertionSort (forall₂_filter hes fun he ↦ by rw [inflight_eq hR he])
    fun ha hb ↦ by rw [inflight_eq hR ha, inflight_eq hR hb]

/-- The path of a request that is pinned. -/
theorem forall₂_emitPinned (hes : Forall₂ R es es') :
    Forall₂ (SameReason R) (emitPinned c now prefs cacheKey A es)
      (emitPinned c' now' prefs' cacheKey A' es') := by
  rw [emitPinned, emitPinned, h.sort, ← hes.length_eq]
  refine rel_append (forall₂_tagReason _ ?_) (forall₂_tagReason _ ?_)
  · exact forall₂_sorted h hR (forall₂_pass hR true _ hes)
  · exact forall₂_sorted h hR (forall₂_pass hR false _ hes)

/-- The path without cache affinity. -/
theorem forall₂_emitTiers (k : ℕ) {splits splits' : List TierSplit} (order : List ℤ)
    (hes : Forall₂ R es es') (hsplits : Forall₂ (SameSplit R) splits splits') :
    Forall₂ (SameReason R) (emitTiers c now prefs cacheKey A k es splits order)
      (emitTiers c' now' prefs' cacheKey A' k es' splits' order) := by
  rw [emitTiers, emitTiers, h.sort, ← hes.length_eq]
  refine rel_append (rel_append (rel_append (forall₂_tagReason _ ?_) ?_)
    (forall₂_tagReason _ ?_)) ?_
  · exact forall₂_sorted h hR (forall₂_pass hR true _ hes)
  · refine forall₂_flatMap_same _ fun key ↦ forall₂_tagReason _ ?_
    exact forall₂_flatMap (forall₂_filter hsplits fun ht ↦ by rw [ht.key]) fun ht ↦ ht.available
  · exact forall₂_pass hR false _ hes
  · exact forall₂_flatMap hsplits fun ht ↦ forall₂_tagReason _ ht.limited

/-- The bands of cache affinity. -/
theorem forall₂_emitBands (hes : Forall₂ R es es') :
    Forall₂ (SameReason R) (emitBands c now prefs cacheKey es)
      (emitBands c' now' prefs' cacheKey es') := by
  have hwarm : ∀ {e e'}, R e e' → ((liveWarmth c' now' cacheKey).lookup e'.key).isSome =
      ((liveWarmth c now cacheKey).lookup e.key).isSome := fun he ↦ by rw [(hR he).warmth]
  have hspills : ∀ {s s'} (cap : ℤ), SameReason R s s' →
      decide (cap ≤ (inflight now' s'.entry : ℤ)) = decide (cap ≤ (inflight now s.entry : ℤ)) :=
    fun cap hs ↦ by rw [inflight_eq hR hs.1]
  obtain ⟨hwarmIdle, hwarmBusy⟩ := forall₂_splitIdleBusy hR (forall₂_filter hes hwarm)
  obtain ⟨hcoldIdle, hcoldBusy⟩ := forall₂_splitIdleBusy hR
    (forall₂_filter hes fun he ↦ congrArg not (hwarm he))
  have hwb := forall₂_tagReason (py "warm-busy") (forall₂_applyTiebreak h hR hwarmBusy)
  have hcb := forall₂_tagReason (py "cold-busy") (forall₂_applyTiebreak h hR hcoldBusy)
  have hwi := forall₂_tagReason (py "warm-idle") (forall₂_applyTiebreak h hR hwarmIdle)
  have hci := forall₂_tagReason (py "cold-idle") (forall₂_applyTiebreak h hR hcoldIdle)
  unfold emitBands
  simp only [h.server, eq_nil_iff_of_forall₂ hwb]
  rcases attrInt c.server.attrs.fields (py "max_inflight_before_spill") with - | cap
  · exact rel_append (rel_append (rel_append hwi hwb) hci) hcb
  · simp only
    split_ifs
    · exact rel_append (rel_append (rel_append hwi hwb) hci) hcb
    · refine rel_append (rel_append (rel_append hwi ?_) hci) ?_
      · exact forall₂_filter hwb fun hs ↦ congrArg not (hspills cap hs)
      · refine forall₂_insertionSort (rel_append (forall₂_filter hwb (hspills cap)) hcb) ?_
        intro a a' b b' ha hb
        rw [h.order_eq_nil_iff, orderRank_eq h hR ha.1, orderRank_eq h hR hb.1]

/-- The path with cache affinity. -/
theorem forall₂_emitCacheAffinity (k : ℕ) {splits splits' : List TierSplit}
    {isPref isPref' : Entry → Bool} (hes : Forall₂ R es es')
    (hsplits : Forall₂ (SameSplit R) splits splits')
    (hpref : ∀ {e e'}, R e e' → isPref' e' = isPref e) :
    Forall₂ (SameReason R) (emitCacheAffinity c now prefs cacheKey A k es splits isPref)
      (emitCacheAffinity c' now' prefs' cacheKey A' k es' splits' isPref') := by
  have hnot : ∀ {e e'}, R e e' → (!isPref' e') = !isPref e := fun he ↦ congrArg not (hpref he)
  have havailable := forall₂_filter (forall₂_flatMap hsplits fun ht ↦ ht.available) hnot
  have hlimited := forall₂_filter (forall₂_flatMap hsplits fun ht ↦ ht.limited) hnot
  have hbands := forall₂_emitBands h.seen (fun he ↦ (hR he).seen h)
    (rel_append (forall₂_pass hR true k hes) havailable)
  rw [emitCacheAffinity, emitCacheAffinity, h.sort, ← hes.length_eq]
  refine rel_append ?_ (forall₂_tagReason _ (rel_append (forall₂_pass hR false _ hes) hlimited))
  exact forall₂_map hbands fun hs ↦ ⟨hs.1, by rw [hs.2]⟩

/-- **A selection among twins emits twins**, in the same order and with the same reasons. -/
theorem emit_related (hes : Forall₂ R es es') :
    (emit c' now' prefs' cacheKey A' es').raised = (emit c now prefs cacheKey A es).raised ∧
      Forall₂ (SameReason R) (emit c now prefs cacheKey A es).emitted
        (emit c' now' prefs' cacheKey A' es').emitted := by
  have hpreferred := forall₂_preferredEntries h hR hes
  have hgroups := forall₂_tierGroups h hR hes
  have hsplits := forall₂_splitTiers h hR 0 0 hgroups
  have hpinned : Pinned c' prefs' cacheKey es' ↔ Pinned c prefs cacheKey es := by
    rw [Pinned, Pinned, h.allowFallbacks, h.affinityActive_eq, Ne, eq_nil_iff_of_forall₂ hpreferred]
  unfold emit
  simp only [eq_nil_iff_of_forall₂ hes, hpinned, h.affinityActive_eq, h.tierOrder_eq,
    tierKeys_eq_of_forall₂ hR hes, questions_eq_of_forall₂ hgroups]
  split_ifs
  · exact ⟨rfl, .nil⟩
  · exact ⟨rfl, forall₂_emitPinned h hR hpreferred⟩
  · exact ⟨rfl, forall₂_emitCacheAffinity h hR _ hpreferred hsplits
      fun he ↦ isPreferred_eq_of_forall₂ h hR hes he⟩
  · rcases tierOrder c now prefs (tierKeys es) with - | order
    · refine ⟨rfl, ?_⟩
      rw [h.sort]
      exact forall₂_tagReason _ (forall₂_sorted h hR (forall₂_pass hR true _ hpreferred))
    · exact ⟨rfl, forall₂_emitTiers h hR _ order hpreferred hsplits⟩

end Emission

end Parametric

end LocalGateway
