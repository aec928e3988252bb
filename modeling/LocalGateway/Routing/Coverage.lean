import Mathlib.Data.List.Dedup
import Mathlib.Data.List.ReduceOption
import LocalGateway.Circuit.Breaker
import LocalGateway.Foundations.Related
import LocalGateway.Routing.Select

/-!
# What a selection emits

Which entries come out of `emit`, in which order, and how often. `decided` lists, for each path, the
entries that are split and the numbers of the two questions that decide on each of them.

* `emit_perm`: a selection that does not raise emits the entries on which its two questions agree.
* `count_decided`: how often each eligible entry is split.
* `emit_available_first`: with frozen answers the available entries precede the others.

The orders (`arrange`, `sorted`, the bands of cache affinity) only permute, so that none of these
depends on statistics, warmth, weights, the rotation or the draws.
-/

namespace LocalGateway

open Py

/-! ### Availability -/

section Availability

variable (r : Registry) (s : Breaker)

/-- What `is_available` says. -/
theorem isAvailable_iff {now : ℚ} {key : PyStr} :
    (r.isAvailable now key).2 = true ↔
      key ∉ r.permanent ∧ ∀ t, r.cooldowns.lookup key = some t → t ≤ now := by
  unfold Registry.isAvailable
  by_cases hmem : key ∈ r.permanent
  · simp [hmem]
  · rw [if_neg hmem]
    rcases r.cooldowns.lookup key with - | t
    · simp [hmem]
    · by_cases hle : t ≤ now <;> simp [hmem, hle]

/-- What it does: nothing, or it drops an entry that has expired. -/
theorem isAvailable_cases (now : ℚ) (key : PyStr) :
    (r.isAvailable now key).1 = r ∨
      ((r.isAvailable now key).1 = ⟨r.popUntil key, r.permanent⟩ ∧
        ∃ t, r.cooldowns.lookup key = some t ∧ t ≤ now) := by
  unfold Registry.isAvailable
  split_ifs with hmem
  · exact .inl rfl
  · rcases hlookup : r.cooldowns.lookup key with - | t
    · exact .inl rfl
    · by_cases hle : t ≤ now
      · exact .inr ⟨by simp [hle], t, rfl, hle⟩
      · exact .inl (by simp [hle])

/-- Asking drops only what has expired: later answers are those of the registry as it was. -/
theorem isAvailable_after {now later : ℚ} (h : now ≤ later) (key k : PyStr) :
    ((r.isAvailable now key).1.isAvailable later k).2 = (r.isAvailable later k).2 := by
  rcases isAvailable_cases r now key with hsame | ⟨hdrop, t, ht, hle⟩
  · rw [hsame]
  · rw [hdrop, Bool.eq_iff_iff, isAvailable_iff, isAvailable_iff]
    refine and_congr_right fun _ ↦ ?_
    rcases eq_or_ne k key with rfl | hne
    · -- the entry that was dropped would have expired as well
      have hnone : (r.popUntil k).lookup k = none := by
        rw [List.lookup_eq_none_iff]
        intro e he
        have hne : e.1 ≠ k := by simpa [Registry.popUntil] using (List.mem_filter.1 he).2
        simpa using hne.symm
      simp [hnone, ht, hle.trans h]
    · rw [show (r.popUntil key).lookup k = r.cooldowns.lookup k from lookup_filter_ne hne]

/-- A backend that is available stays available. -/
theorem isAvailable_mono {now later : ℚ} (h : now ≤ later) (key : PyStr)
    (havail : (r.isAvailable now key).2 = true) : (r.isAvailable later key).2 = true := by
  rw [isAvailable_iff] at havail ⊢
  exact ⟨havail.1, fun t ht ↦ (havail.2 t ht).trans h⟩

/-- `_routable`: not rate-limited at one time, and the circuit not open at the next. -/
def routable (clock : ℕ → ℚ) (k : ℕ) (e : Entry) : Bool :=
  (r.isAvailable (clock (2 * k)) e.key).2 && !s.isOpen (clock (2 * k + 1)) e.key

/-- A clock that stands still. -/
theorem monotone_still : Monotone fun _ : ℕ ↦ (0 : ℚ) :=
  monotone_const

/-- The answers of the registries during a call, while the clock goes on. -/
def answersAt (clock : ℕ → ℚ) (h : Monotone clock) : Answers Entry where
  ask := routable r s clock
  mono := by
    intro k l e hkl hk
    obtain ⟨havail, hclosed⟩ := Bool.and_eq_true_iff.1 hk
    refine Bool.and_eq_true_iff.2 ⟨?_, ?_⟩
    · exact isAvailable_mono r (h (Nat.mul_le_mul_left 2 hkl)) e.key havail
    · have hle : clock (2 * k + 1) ≤ clock (2 * l + 1) := h (by omega)
      rw [Bool.not_eq_true'] at hclosed ⊢
      exact s.isOpen_mono hle e.key hclosed

/-- The answers at a time that does not move. -/
theorem answersAt_const (now : ℚ) :
    answersAt r s (fun _ ↦ now) monotone_const =
      .frozen fun e ↦ (r.isAvailable now e.key).2 && !s.isOpen now e.key := rfl

end Availability

/-! ### Orders only permute -/

section Orders

variable (c : GatewayConfig) (now : Moment) (prefs : ProviderPrefs) (cacheKey : PyStr)

theorem sortEntries_perm (sort : PyStr) (es : List Entry) :
    List.Perm (sortEntries c now sort cacheKey es) es :=
  List.perm_insertionSort _ _

theorem sorted_perm (es : List Entry) : List.Perm (sorted c now prefs cacheKey es) es := by
  unfold sorted
  split
  · exact sortEntries_perm ..
  · rfl

theorem rotate_perm (r : ℕ) (es : List Entry) : List.Perm (rotate r es) es :=
  List.perm_append_comm.trans (List.Perm.of_eq (List.take_append_drop r es))

theorem weightedRotation_perm (draw : PyFloat) (es : List Entry) :
    List.Perm (weightedRotation now draw es) es := by
  unfold weightedRotation
  split_ifs
  · rfl
  · simp only
    split_ifs <;> exact rotate_perm ..

theorem staticWeightRotation_perm (draw : PyFloat) (es : List Entry) :
    List.Perm (staticWeightRotation now draw es) es := by
  unfold staticWeightRotation
  split_ifs
  · rfl
  · simp only
    split_ifs <;> exact rotate_perm ..

theorem arrange_perm (draw : PyFloat) (es : List Entry) :
    List.Perm (arrange c now prefs cacheKey draw es) es := by
  unfold arrange
  simp only
  split
  · exact sortEntries_perm ..
  · split_ifs
    · rfl
    · exact weightedRotation_perm ..
    · exact staticWeightRotation_perm ..
    · exact rotate_perm ..

theorem applyTiebreak_perm (order : List PyStr) (es : List Entry) :
    List.Perm (applyTiebreak order es) es := by
  unfold applyTiebreak
  split_ifs
  · rfl
  · exact List.perm_insertionSort _ _

theorem map_entry_tagReason (reason : PyStr) (es : List Entry) :
    (tagReason reason es).map SelectedBackend.entry = es := by
  rw [tagReason, List.map_map]
  exact List.map_id es

theorem splitIdleBusy_perm (es : List Entry) :
    List.Perm ((splitIdleBusy now es).1 ++ (splitIdleBusy now es).2) es := by
  refine ((List.perm_insertionSort _ _).append_left _).trans ?_
  have hbusy : (es.filter fun e ↦ inflight now e ≠ 0) =
      es.filter fun e ↦ !decide (inflight now e = 0) :=
    List.filter_congr fun e _ ↦ by simp
  rw [hbusy]
  exact List.filter_append_perm _ _

/-- Busy entries that spill change their band, but stay. -/
theorem spill_perm (spills : SelectedBackend → Bool) (le : SelectedBackend → SelectedBackend → Prop)
    [DecidableRel le] (warm cold : List SelectedBackend) :
    List.Perm ((warm.filter fun s ↦ !spills s) ++
      ((warm.filter fun s ↦ spills s) ++ cold).insertionSort le) (warm ++ cold) := by
  refine ((List.perm_insertionSort le _).append_left _).trans ?_
  rw [← List.append_assoc]
  exact (List.perm_append_comm.trans (List.filter_append_perm spills warm)).append_right cold

/-- The bands are the list that they are made of. -/
theorem emitBands_perm (flat : List Entry) :
    List.Perm ((emitBands c now prefs cacheKey flat).map SelectedBackend.entry) flat := by
  have hall : ∀ warm cold : List Entry × List Entry,
      List.Perm (warm.1 ++ warm.2) (flat.filter fun e ↦
        ((liveWarmth c now cacheKey).lookup e.key).isSome) →
      List.Perm (cold.1 ++ cold.2) (flat.filter fun e ↦
        !((liveWarmth c now cacheKey).lookup e.key).isSome) →
      ∀ busy : List SelectedBackend × List SelectedBackend,
        List.Perm (busy.1 ++ busy.2) (tagReason (py "warm-busy") (applyTiebreak prefs.order warm.2) ++
          tagReason (py "cold-busy") (applyTiebreak prefs.order cold.2)) →
        List.Perm ((tagReason (py "warm-idle") (applyTiebreak prefs.order warm.1) ++ busy.1 ++
          tagReason (py "cold-idle") (applyTiebreak prefs.order cold.1) ++
            busy.2).map SelectedBackend.entry) flat := by
    intro warm cold hwarm hcold busy hbusy
    have hbusyEntries : List.Perm (busy.1.map SelectedBackend.entry ++
        busy.2.map SelectedBackend.entry) (warm.2 ++ cold.2) := by
      rw [← List.map_append]
      refine (hbusy.map _).trans ?_
      rw [List.map_append, map_entry_tagReason, map_entry_tagReason]
      exact (applyTiebreak_perm ..).append (applyTiebreak_perm ..)
    have hcount : ∀ e, _ := fun e ↦ hbusyEntries.count_eq e
    have hidle : ∀ es e, (applyTiebreak prefs.order es).count e = es.count e := fun es e ↦
      (applyTiebreak_perm prefs.order es).count_eq e
    have hflat := (hwarm.append hcold).trans (List.filter_append_perm _ flat)
    refine List.Perm.trans (List.perm_iff_count.2 fun e ↦ ?_) hflat
    simp only [List.map_append, map_entry_tagReason, List.count_append, hidle] at hcount ⊢
    have := hcount e
    omega
  unfold emitBands
  simp only
  refine hall _ _ (splitIdleBusy_perm ..) (splitIdleBusy_perm ..) _ ?_
  split
  · rfl
  · split_ifs
    · rfl
    · exact spill_perm ..

end Orders

/-! ### Eligible entries -/

section Eligible

variable {c : GatewayConfig} {m : ModelConfig} {d : Demand} {ignore : List PyStr}
  {slot : Option TimeSlot}

theorem index_candidate {i : ℕ} {b : BackendConfig} {e : Entry}
    (h : candidate c m d ignore slot i b = some e) : e.index = i := by
  unfold candidate at h
  split_ifs at h
  split at h
  · cases h
  · split_ifs at h
    exact (congrArg Entry.index (Option.some.inj h)).symm

/-- The entries of a list of backends have their places in it. -/
theorem index_lt_reduceOption {f : ℕ → BackendConfig → Option Entry} {k : ℕ}
    (h : ∀ i b e, f i b = some e → e.index = i + k) (bs : List BackendConfig) :
    (bs.mapIdx f).reduceOption.Pairwise (·.index < ·.index) ∧
      ∀ e ∈ (bs.mapIdx f).reduceOption, k ≤ e.index := by
  induction bs generalizing f k with
  | nil => exact ⟨List.Pairwise.nil, fun _ h ↦ absurd h (List.not_mem_nil)⟩
  | cons b bs ih =>
    have htail := ih (f := fun i ↦ f (i + 1)) (k := k + 1) fun i b e he ↦ by
      rw [h _ _ _ he]
      omega
    rw [List.mapIdx_cons]
    rcases hb : f 0 b with - | e
    · rw [List.reduceOption_cons_of_none]
      exact ⟨htail.1, fun e he ↦ (Nat.le_succ k).trans (htail.2 e he)⟩
    · have hindex : e.index = k := by simpa using h _ _ _ hb
      rw [List.reduceOption_cons_of_some]
      refine ⟨List.pairwise_cons.2 ⟨fun e' he' ↦ hindex ▸ htail.2 e' he', htail.1⟩, ?_⟩
      rintro e' he'
      rcases List.mem_cons.1 he' with rfl | he'
      · exact hindex.ge
      · exact (Nat.le_succ k).trans (htail.2 e' he')

/-- No entry is eligible twice. -/
theorem eligible_nodup : (eligible c m d ignore slot).Nodup := by
  have h := (index_lt_reduceOption (f := candidate c m d ignore slot) (k := 0)
    (fun _ _ _ he ↦ index_candidate he) m.backends).1
  exact h.imp fun hlt heq ↦ absurd (congrArg Entry.index heq) hlt.ne

end Eligible

section Emission

variable (c : GatewayConfig) (now : Moment) (prefs : ProviderPrefs) (cacheKey : PyStr)

/-- The entries that can serve a request; `none` is an exception, of the time zone. -/
def candidates (modelId : PyStr) (d : Demand) : Option (List Entry) :=
  match c.modelById modelId with
  | none => some []
  | some m =>
    if !attrBool m.fields (py "enabled") then some []
    else (activeSlot now.zone m.timeRouting).map (eligible c m d prefs.ignore)

theorem candidates_nodup {modelId : PyStr} {d : Demand} {es : List Entry}
    (h : candidates c now prefs modelId d = some es) : es.Nodup := by
  unfold candidates at h
  split at h
  · exact Option.some.inj h ▸ List.nodup_nil
  · split_ifs at h
    · exact Option.some.inj h ▸ List.nodup_nil
    · obtain ⟨slot, -, rfl⟩ := Option.map_eq_some_iff.1 h
      exact eligible_nodup

theorem emit_nil (A : Answers Entry) : emit c now prefs cacheKey A [] = ⟨[], false⟩ := by
  simp [emit]

/-- A selection is the emission of its candidates. -/
theorem selectBackends_eq (A : Answers Entry) (modelId : PyStr) (d : Demand) :
    selectBackends c now prefs cacheKey A modelId d =
      match candidates c now prefs modelId d with
      | none => ⟨[], true⟩
      | some es => emit c now prefs cacheKey A es := by
  unfold selectBackends candidates
  rcases c.modelById modelId with - | m
  · exact (emit_nil ..).symm
  · simp only
    split_ifs
    · exact (emit_nil ..).symm
    · rcases activeSlot now.zone m.timeRouting with - | slot <;> rfl

/-! ### Tiers -/

theorem tierKeys_nodup (es : List Entry) : (tierKeys es).Nodup :=
  (List.perm_insertionSort _ _).nodup_iff.2 (List.nodup_dedup _)

theorem mem_tierKeys {es : List Entry} {e : Entry} (he : e ∈ es) :
    e.backend.priority ∈ tierKeys es :=
  (List.mem_insertionSort _).2 (List.mem_dedup.2 (List.mem_map_of_mem he))

/-- The tiers together are the list. -/
theorem flatMap_tier_perm (es : List Entry) : List.Perm ((tierKeys es).flatMap (tier es)) es :=
  flatMap_filter_perm_self (fun e : Entry ↦ e.backend.priority) (tierKeys_nodup es)
    fun _ he ↦ mem_tierKeys he

/-- The preferred entries: each eligible one as often as its provider is listed. -/
theorem count_preferredEntries (es : List Entry) (e : Entry) :
    (preferredEntries prefs es).count e = prefs.order.count e.provider.id * es.count e := by
  have htiers : ((tierKeys es).flatMap (tier es)).count e = es.count e :=
    (flatMap_tier_perm es).count_eq e
  unfold preferredEntries
  generalize (tierKeys es).flatMap (tier es) = tiers at htiers
  induction prefs.order with
  | nil => simp
  | cons id ids ih =>
    rw [List.flatMap_cons, List.count_append, ih, List.count_cons, Nat.add_mul, Nat.add_comm]
    congr 1
    rcases eq_or_ne e.provider.id id with rfl | hne
    · rw [List.count_filter (by simp), htiers]
      simp
    · have hnot : e ∉ tiers.filter fun e' ↦ decide (e'.provider.id = id) := fun h ↦
        hne (of_decide_eq_true (List.mem_filter.1 h).2)
      rw [List.count_eq_zero.2 hnot]
      simp [hne.symm]

theorem mem_preferredEntries {es : List Entry} {e : Entry} :
    e ∈ preferredEntries prefs es ↔ e.provider.id ∈ prefs.order ∧ e ∈ es := by
  rw [← List.count_pos_iff, count_preferredEntries, Nat.pos_iff_ne_zero, mul_ne_zero_iff,
    ← Nat.pos_iff_ne_zero, ← Nat.pos_iff_ne_zero, List.count_pos_iff, List.count_pos_iff]

/-- The keys of the preferred entries are those of the listed providers. -/
theorem isPreferred_iff {es : List Entry} {e : Entry} (he : e ∈ es) :
    isPreferred prefs es e = true ↔ e.provider.id ∈ prefs.order := by
  rw [isPreferred, List.contains_iff_mem, preferredKeys, List.mem_map]
  constructor
  · rintro ⟨e', he', hkey⟩
    rw [← (Prod.mk.inj hkey).1]
    exact ((mem_preferredEntries prefs).1 he').1
  · exact fun horder ↦ ⟨e, (mem_preferredEntries prefs).2 ⟨horder, he⟩, rfl⟩

/-- With no providers listed, nothing is preferred. -/
theorem preferredEntries_nil (h : prefs.order = []) (es : List Entry) :
    preferredEntries prefs es = [] := by
  rw [preferredEntries, h, List.flatMap_nil]

/-! ### Decisions -/

/-- The decisions of the loop over the tiers; `k` is the number of the next question. -/
def tierDecisions : ℕ → List (ℤ × List Entry) → List (Decision Entry)
  | _, [] => []
  | k, (_, group) :: groups =>
    Answers.decisions k (k + group.length) (Nat.le_add_right _ _) group ++
      tierDecisions (k + 2 * group.length) groups

/-- What is split on the way of a selection, and the questions that decide. -/
def decided (es : List Entry) : List (Decision Entry) :=
  let preferred := preferredEntries prefs es
  let groups := tierGroups c prefs cacheKey es
  let k := questions groups
  if Pinned c prefs cacheKey es then
    Answers.decisions 0 preferred.length (Nat.zero_le _) preferred
  else if affinityActive c cacheKey then
    Answers.decisions k (k + preferred.length) (Nat.le_add_right _ _) preferred ++
      (tierDecisions 0 groups).filter fun d ↦ !isPreferred prefs es d.item
  else
    Answers.decisions k (k + 2 * preferred.length) (Nat.le_add_right _ _) preferred ++
      tierDecisions 0 groups

theorem map_item_tierDecisions (k : ℕ) (groups : List (ℤ × List Entry)) :
    (tierDecisions k groups).map Decision.item = groups.flatMap (·.2) := by
  induction groups generalizing k with
  | nil => rfl
  | cons g groups ih =>
    rw [tierDecisions, List.map_append, Answers.map_item_decisions, ih, List.flatMap_cons]

/-- What is split: the preferred entries, and the others unless the request is pinned. -/
theorem map_item_decided_perm (es : List Entry) :
    List.Perm ((decided c prefs cacheKey es).map Decision.item)
      (preferredEntries prefs es ++
        if Pinned c prefs cacheKey es then [] else es.filter fun e ↦ !isPreferred prefs es e) := by
  have htiers : List.Perm ((tierKeys es).flatMap fun key ↦
      (tier es key).filter fun e ↦ !isPreferred prefs es e)
      (es.filter fun e ↦ !isPreferred prefs es e) := by
    rw [← List.filter_flatMap]
    exact (flatMap_tier_perm es).filter _
  unfold decided
  simp only
  split_ifs with hpinned haff
  · rw [Answers.map_item_decisions, List.append_nil]
  · rw [List.map_append, Answers.map_item_decisions]
    refine List.Perm.append_left _ ?_
    show List.Perm (((tierDecisions 0 _).filter ((fun e ↦ !isPreferred prefs es e) ∘ _)).map _) _
    rw [← List.filter_map, map_item_tierDecisions, List.filter_flatMap]
    simpa [tierGroups, haff, List.flatMap_map] using htiers
  · rw [List.map_append, Answers.map_item_decisions, map_item_tierDecisions]
    refine List.Perm.append_left _ ?_
    simpa [tierGroups, haff, List.flatMap_map] using htiers

/-- How often an eligible entry is split. -/
theorem count_decided {es : List Entry} (hes : es.Nodup) {e : Entry} (he : e ∈ es) :
    ((decided c prefs cacheKey es).map Decision.item).count e =
      if e.provider.id ∈ prefs.order then prefs.order.count e.provider.id
      else if Pinned c prefs cacheKey es then 0 else 1 := by
  have hone : es.count e = 1 := List.count_eq_one_of_mem hes he
  rw [(map_item_decided_perm c prefs cacheKey es).count_eq, List.count_append,
    count_preferredEntries, hone, Nat.mul_one]
  have hpref := isPreferred_iff prefs he
  by_cases horder : e.provider.id ∈ prefs.order
  · have hrest : (es.filter fun e ↦ !isPreferred prefs es e).count e = 0 :=
      List.count_eq_zero.2 fun h ↦ by simpa [hpref.2 horder] using (List.mem_filter.1 h).2
    rw [if_pos horder]
    split_ifs
    · rfl
    · rw [hrest, Nat.add_zero]
  · have hnot : isPreferred prefs es e = false := by
      rw [← Bool.not_eq_true, hpref]
      exact horder
    rw [if_neg horder, List.count_eq_zero.2 horder, Nat.zero_add]
    split_ifs
    · rfl
    · rw [List.count_filter (by simp [hnot]), hone]

/-- Only eligible entries are split. -/
theorem mem_of_mem_decided {es : List Entry} {e : Entry}
    (h : e ∈ (decided c prefs cacheKey es).map Decision.item) : e ∈ es := by
  rw [(map_item_decided_perm c prefs cacheKey es).mem_iff, List.mem_append] at h
  rcases h with h | h
  · exact ((mem_preferredEntries prefs).1 h).2
  · split_ifs at h
    · cases h
    · exact (List.mem_filter.1 h).1

/-! ### The loop over the tiers -/

section Emit

variable (A : Answers Entry)

theorem map_key_splitTiers (k i : ℕ) (groups : List (ℤ × List Entry)) :
    (splitTiers c now prefs cacheKey A k i groups).map TierSplit.key = groups.map (·.1) := by
  induction groups generalizing k i with
  | nil => rfl
  | cons g groups ih => rw [splitTiers, List.map_cons, ih, List.map_cons]

/-- Out of the loop come the entries on which its questions agree. -/
theorem splitTiers_perm (k i : ℕ) (groups : List (ℤ × List Entry)) :
    let splits := splitTiers c now prefs cacheKey A k i groups
    List.Perm (splits.flatMap TierSplit.available ++ splits.flatMap TierSplit.limited)
      (A.kept (tierDecisions k groups)) := by
  induction groups generalizing k i with
  | nil => rfl
  | cons g groups ih =>
    simp only [splitTiers, List.flatMap_cons, tierDecisions, Answers.kept_append]
    refine (append_swap_perm ..).trans (List.Perm.append ?_ (ih _ _))
    exact ((arrange_perm ..).append (sorted_perm ..)).trans (A.passes_perm _ _ _ _)

/-- Going through the tiers in another order. -/
theorem flatMap_order_perm {splits : List TierSplit} {order : List ℤ}
    (hkeys : (splits.map TierSplit.key).Nodup) (horder : List.Perm order (splits.map TierSplit.key)) :
    List.Perm (order.flatMap fun key ↦
      (splits.filter fun t ↦ t.key = key).flatMap TierSplit.available)
      (splits.flatMap TierSplit.available) := by
  rw [← List.flatMap_assoc]
  refine List.Perm.flatMap_right _ ?_
  exact flatMap_filter_perm_self TierSplit.key (horder.nodup_iff.2 hkeys)
    fun t ht ↦ horder.mem_iff.2 (List.mem_map_of_mem ht)

theorem map_fst_tierGroups (es : List Entry) :
    (tierGroups c prefs cacheKey es).map (·.1) = tierKeys es := by
  rw [tierGroups, List.map_map]
  exact List.map_id _

theorem pickIndex_bound (pick acc : PyFloat) (i : ℕ) (ws : List PyFloat) :
    pickIndex now pick acc i ws = 0 ∨ pickIndex now pick acc i ws < i + ws.length := by
  induction ws generalizing acc i with
  | nil => exact .inl rfl
  | cons w ws ih =>
    rw [pickIndex]
    split_ifs
    · exact .inr (Nat.lt_add_of_pos_right (Nat.succ_pos _))
    · rw [List.length_cons, Nat.add_comm ws.length, ← Nat.add_assoc]
      exact ih _ _

theorem getD_mem {keys : List ℤ} {i : ℕ} (h : i < keys.length) : keys.getD i 0 ∈ keys := by
  rw [List.getD_eq_getElem?_getD, List.getElem?_eq_getElem h]
  exact List.getElem_mem h

/-- Putting one key first. -/
theorem start_perm {keys : List ℤ} (hkeys : keys.Nodup) {start : ℤ} (hmem : start ∈ keys) :
    List.Perm (start :: keys.filter (· ≠ start)) keys := by
  have herase : keys.filter (· ≠ start) = keys.erase start := by
    rw [hkeys.erase_eq_filter]
    exact List.filter_congr fun k _ ↦ by rw [bne, decide_not, Bool.beq_eq_decide_eq]
  rw [herase]
  exact (List.perm_cons_erase hmem).symm

/-- The order that is drawn begins with one of the keys. -/
theorem sampleTierOrder_start {decay draw : PyFloat} {keys order : List ℤ}
    (h : sampleTierOrder now decay draw keys = some order) (hkeys : 0 < keys.length) :
    ∃ i < keys.length, keys.getD i 0 :: keys.filter (· ≠ keys.getD i 0) = order := by
  unfold sampleTierOrder at h
  obtain ⟨weights, hweights, h⟩ := Option.bind_eq_some_iff.1 h
  simp only at h
  split_ifs at h
  have hlength : weights.length = keys.length := by
    rw [← (mapM_eq_some_iff.1 hweights).length_eq, List.length_range]
  have hbound := pickIndex_bound now draw (.fin 0) 0
    (weights.map fun w ↦ now.floats.div w (now.floats.sum weights))
  rw [List.length_map, hlength, Nat.zero_add] at hbound
  refine ⟨_, ?_, Option.some.inj h⟩
  rcases hbound with hzero | hlt
  · rwa [hzero]
  · exact hlt

/-- The order of the tiers is one of their keys. -/
theorem tierOrder_perm {keys order : List ℤ} (hkeys : keys.Nodup)
    (h : tierOrder c now prefs keys = some order) : List.Perm order keys := by
  unfold tierOrder at h
  split_ifs at h with hexplore
  · obtain ⟨-, hlength, -⟩ := hexplore
    obtain ⟨i, hi, rfl⟩ := sampleTierOrder_start now h (Nat.zero_lt_of_lt hlength)
    exact start_perm hkeys (getD_mem hi)
  · exact List.Perm.of_eq (Option.some.inj h).symm

/-! ### What comes out -/

theorem emitPinned_perm (preferred : List Entry) :
    List.Perm ((emitPinned c now prefs cacheKey A preferred).map SelectedBackend.entry)
      (A.kept (Answers.decisions 0 preferred.length (Nat.zero_le _) preferred)) := by
  rw [emitPinned, List.map_append, map_entry_tagReason, map_entry_tagReason]
  exact ((sorted_perm ..).append (sorted_perm ..)).trans (A.passes_perm _ _ _ _)

theorem emitTiers_perm {groups : List (ℤ × List Entry)} {order : List ℤ} (i : ℕ)
    (hkeys : (groups.map (·.1)).Nodup) (horder : List.Perm order (groups.map (·.1)))
    (k : ℕ) (preferred : List Entry) :
    List.Perm
      ((emitTiers c now prefs cacheKey A k preferred (splitTiers c now prefs cacheKey A 0 i groups)
        order).map SelectedBackend.entry)
      (A.kept (Answers.decisions k (k + 2 * preferred.length) (Nat.le_add_right _ _) preferred ++
        tierDecisions 0 groups)) := by
  rw [← map_key_splitTiers c now prefs cacheKey A 0 i groups] at hkeys horder
  have hsplits := splitTiers_perm c now prefs cacheKey A 0 i groups
  set splits := splitTiers c now prefs cacheKey A 0 i groups
  have havailable := flatMap_order_perm hkeys horder
  have hpreferred := A.passes_perm k (k + 2 * preferred.length) (Nat.le_add_right _ _) preferred
  rw [Answers.kept_append]
  refine List.Perm.trans ?_ (hpreferred.append hsplits)
  simp only [emitTiers, List.map_append, List.map_flatMap, map_entry_tagReason]
  refine List.Perm.trans ?_ (append_swap_perm ..)
  rw [List.append_assoc (_ ++ _)]
  exact ((sorted_perm ..).append havailable).append_right _

theorem emitCacheAffinity_perm (i : ℕ) (groups : List (ℤ × List Entry)) (k : ℕ)
    (preferred : List Entry) (isPref : Entry → Bool) :
    List.Perm
      ((emitCacheAffinity c now prefs cacheKey A k preferred
        (splitTiers c now prefs cacheKey A 0 i groups) isPref).map SelectedBackend.entry)
      (A.kept (Answers.decisions k (k + preferred.length) (Nat.le_add_right _ _) preferred ++
        (tierDecisions 0 groups).filter fun d ↦ !isPref d.item)) := by
  have hsplits := splitTiers_perm c now prefs cacheKey A 0 i groups
  set splits := splitTiers c now prefs cacheKey A 0 i groups
  have hpreferred := A.passes_perm k (k + preferred.length) (Nat.le_add_right _ _) preferred
  have hrest := hsplits.filter fun e ↦ !isPref e
  rw [List.filter_append, Answers.filter_kept] at hrest
  rw [Answers.kept_append]
  refine List.Perm.trans ?_ (hpreferred.append hrest)
  simp only [emitCacheAffinity, List.map_append, List.map_map, map_entry_tagReason]
  exact ((emitBands_perm ..).append_right _).trans (append_swap_perm ..)

section Paths

variable {es : List Entry}

theorem ne_nil_of_pinned (h : Pinned c prefs cacheKey es) : es ≠ [] := by
  rintro rfl
  obtain ⟨e, he⟩ := List.exists_mem_of_ne_nil _ h.1
  exact List.not_mem_nil ((mem_preferredEntries prefs).1 he).2

theorem emit_of_pinned (h : Pinned c prefs cacheKey es) :
    emit c now prefs cacheKey A es =
      ⟨emitPinned c now prefs cacheKey A (preferredEntries prefs es), false⟩ := by
  rw [emit, if_neg (ne_nil_of_pinned c prefs cacheKey h), if_pos h]

theorem emit_of_affinity (hes : es ≠ []) (h : ¬ Pinned c prefs cacheKey es)
    (haff : affinityActive c cacheKey = true) :
    emit c now prefs cacheKey A es =
      let groups := tierGroups c prefs cacheKey es
      ⟨emitCacheAffinity c now prefs cacheKey A (questions groups) (preferredEntries prefs es)
        (splitTiers c now prefs cacheKey A 0 0 groups) (isPreferred prefs es), false⟩ := by
  rw [emit, if_neg hes, if_neg h, if_pos haff]

theorem emit_of_tiers (hes : es ≠ []) (h : ¬ Pinned c prefs cacheKey es)
    (haff : affinityActive c cacheKey = false) {order : List ℤ}
    (horder : tierOrder c now prefs (tierKeys es) = some order) :
    emit c now prefs cacheKey A es =
      let groups := tierGroups c prefs cacheKey es
      ⟨emitTiers c now prefs cacheKey A (questions groups) (preferredEntries prefs es)
        (splitTiers c now prefs cacheKey A 0 0 groups) order, false⟩ := by
  rw [emit, if_neg hes, if_neg h, haff, if_neg Bool.false_ne_true, horder]

/-- The order of the tiers is drawn only if no providers are listed. -/
theorem order_of_tierOrder_none {keys : List ℤ} (h : tierOrder c now prefs keys = none) :
    prefs.order = [] := by
  unfold tierOrder at h
  split_ifs at h with hexplore
  exact hexplore.2.2

/-- A selection whose order of tiers raises has emitted nothing. -/
theorem emit_of_none (hes : es ≠ []) (h : ¬ Pinned c prefs cacheKey es)
    (haff : affinityActive c cacheKey = false)
    (horder : tierOrder c now prefs (tierKeys es) = none) :
    emit c now prefs cacheKey A es = ⟨[], true⟩ := by
  have hnone : preferredEntries prefs es = [] :=
    preferredEntries_nil prefs (order_of_tierOrder_none c now prefs horder) es
  have hsorted : sorted c now prefs cacheKey [] = [] := List.perm_nil.1 (sorted_perm ..)
  rw [emit, if_neg hes, if_neg h, haff, if_neg Bool.false_ne_true, horder]
  simp [hnone, hsorted, tagReason]

/-- When a selection raises. -/
theorem raised_iff :
    (emit c now prefs cacheKey A es).raised = true ↔
      es ≠ [] ∧ ¬ Pinned c prefs cacheKey es ∧ affinityActive c cacheKey = false ∧
        tierOrder c now prefs (tierKeys es) = none := by
  rcases eq_or_ne es [] with rfl | hes
  · simp [emit_nil]
  by_cases hpinned : Pinned c prefs cacheKey es
  · simp [emit_of_pinned c now prefs cacheKey A hpinned, hpinned]
  rcases haff : affinityActive c cacheKey with - | -
  · rcases horder : tierOrder c now prefs (tierKeys es) with - | order
    · simp [emit_of_none c now prefs cacheKey A hes hpinned haff horder, hes, hpinned]
    · simp [emit_of_tiers c now prefs cacheKey A hes hpinned haff horder]
  · simp [emit_of_affinity c now prefs cacheKey A hes hpinned haff]

/-- A selection that raises has emitted nothing. -/
theorem emitted_of_raised (h : (emit c now prefs cacheKey A es).raised = true) :
    (emit c now prefs cacheKey A es).emitted = [] := by
  obtain ⟨hes, hpinned, haff, horder⟩ := (raised_iff c now prefs cacheKey A).1 h
  rw [emit_of_none c now prefs cacheKey A hes hpinned haff horder]

/-- **A selection that does not raise emits the entries on which their two questions agree.** -/
theorem emit_perm (h : (emit c now prefs cacheKey A es).raised = false) :
    List.Perm ((emit c now prefs cacheKey A es).emitted.map SelectedBackend.entry)
      (A.kept (decided c prefs cacheKey es)) := by
  rcases eq_or_ne es [] with rfl | hes
  · rw [emit_nil]
    refine List.Perm.of_eq (Eq.symm (List.eq_nil_iff_forall_not_mem.2 fun e he ↦ ?_))
    exact absurd (mem_of_mem_decided c prefs cacheKey ((A.kept_sublist _).subset he))
      List.not_mem_nil
  by_cases hpinned : Pinned c prefs cacheKey es
  · rw [emit_of_pinned c now prefs cacheKey A hpinned, decided, if_pos hpinned]
    exact emitPinned_perm ..
  rcases haff : affinityActive c cacheKey with - | -
  · rcases horder : tierOrder c now prefs (tierKeys es) with - | order
    · rw [emit_of_none c now prefs cacheKey A hes hpinned haff horder] at h
      cases h
    · have hgroups := map_fst_tierGroups c prefs cacheKey es
      rw [emit_of_tiers c now prefs cacheKey A hes hpinned haff horder, decided, if_neg hpinned,
        haff, if_neg Bool.false_ne_true]
      exact emitTiers_perm c now prefs cacheKey A 0 (hgroups ▸ tierKeys_nodup es)
        (hgroups ▸ tierOrder_perm c now prefs (tierKeys_nodup es) horder) _ _
  · rw [emit_of_affinity c now prefs cacheKey A hes hpinned haff, decided, if_neg hpinned,
      if_pos haff]
    exact emitCacheAffinity_perm ..

end Paths

/-! ### Deferral -/

/-- What has a property comes before what has it not. -/
theorem pairwise_front_back {p : Entry → Bool} {front back : List Entry}
    (hfront : ∀ e ∈ front, p e = true) (hback : ∀ e ∈ back, p e = false) :
    (front ++ back).Pairwise fun a b ↦ p b = true → p a = true := by
  refine List.pairwise_append.2 ⟨?_, ?_, fun a ha _ _ _ ↦ hfront a ha⟩
  · exact List.pairwise_of_forall_mem_list fun a ha _ _ _ ↦ hfront a ha
  · exact List.pairwise_of_forall_mem_list fun _ _ b hb htrue ↦
      absurd htrue (by rw [hback b hb]; decide)

theorem mem_pass_frozen {p : Entry → Bool} {want : Bool} {k : ℕ} {es : List Entry} {e : Entry}
    (h : e ∈ (Answers.frozen p).pass want k es) : p e = want := by
  rw [Answers.pass_frozen] at h
  exact of_decide_eq_true (List.mem_filter.1 h).2

section Frozen

variable {p : Entry → Bool}

theorem mem_sorted_pass_frozen {want : Bool} {k : ℕ} {es : List Entry} {e : Entry}
    (h : e ∈ sorted c now prefs cacheKey ((Answers.frozen p).pass want k es)) : p e = want :=
  mem_pass_frozen ((sorted_perm ..).mem_iff.1 h)

theorem mem_splitTiers_frozen {k i : ℕ} {groups : List (ℤ × List Entry)} {t : TierSplit}
    (ht : t ∈ splitTiers c now prefs cacheKey (.frozen p) k i groups) :
    (∀ e ∈ t.available, p e = true) ∧ ∀ e ∈ t.limited, p e = false := by
  induction groups generalizing k i with
  | nil => cases ht
  | cons g groups ih =>
    rcases List.mem_cons.1 ht with rfl | ht
    · exact ⟨fun e he ↦ mem_pass_frozen ((arrange_perm ..).mem_iff.1 he),
        fun e he ↦ mem_sorted_pass_frozen c now prefs cacheKey he⟩
    · exact ih ht

/-- **With frozen answers the available entries come first.** -/
theorem emit_available_first (es : List Entry) :
    ((emit c now prefs cacheKey (.frozen p) es).emitted.map SelectedBackend.entry).Pairwise
      fun a b ↦ p b = true → p a = true := by
  rcases eq_or_ne es [] with rfl | hes
  · rw [emit_nil]
    exact List.Pairwise.nil
  by_cases hpinned : Pinned c prefs cacheKey es
  · rw [emit_of_pinned c now prefs cacheKey _ hpinned, emitPinned, List.map_append,
      map_entry_tagReason, map_entry_tagReason]
    exact pairwise_front_back (fun e he ↦ mem_sorted_pass_frozen c now prefs cacheKey he)
      fun e he ↦ mem_sorted_pass_frozen c now prefs cacheKey he
  have hsplits := @mem_splitTiers_frozen c now prefs cacheKey p 0 0
    (tierGroups c prefs cacheKey es)
  rcases haff : affinityActive c cacheKey with - | -
  · rcases horder : tierOrder c now prefs (tierKeys es) with - | order
    · rw [emit_of_none c now prefs cacheKey _ hes hpinned haff horder]
      exact List.Pairwise.nil
    · rw [emit_of_tiers c now prefs cacheKey _ hes hpinned haff horder]
      simp only [emitTiers, List.map_append, List.map_flatMap, map_entry_tagReason]
      rw [List.append_assoc (_ ++ _)]
      -- first the available entries of the listed providers and of all tiers, then the rest
      refine pairwise_front_back ?_ ?_
      · intro e he
        rcases List.mem_append.1 he with he | he
        · exact mem_sorted_pass_frozen c now prefs cacheKey he
        · obtain ⟨key, -, he⟩ := List.mem_flatMap.1 he
          obtain ⟨t, ht, he⟩ := List.mem_flatMap.1 he
          exact (hsplits (List.mem_filter.1 ht).1).1 e he
      · intro e he
        rcases List.mem_append.1 he with he | he
        · exact mem_pass_frozen he
        · obtain ⟨t, ht, he⟩ := List.mem_flatMap.1 he
          exact (hsplits ht).2 e he
  · rw [emit_of_affinity c now prefs cacheKey _ hes hpinned haff]
    simp only [emitCacheAffinity, List.map_append, List.map_map, map_entry_tagReason]
    refine pairwise_front_back ?_ ?_
    · intro e he
      rcases List.mem_append.1 ((emitBands_perm ..).mem_iff.1 he) with he | he
      · exact mem_pass_frozen he
      · obtain ⟨t, ht, he⟩ := List.mem_flatMap.1 (List.mem_filter.1 he).1
        exact (hsplits ht).1 e he
    · intro e he
      rcases List.mem_append.1 he with he | he
      · exact mem_pass_frozen he
      · obtain ⟨t, ht, he⟩ := List.mem_flatMap.1 (List.mem_filter.1 he).1
        exact (hsplits ht).2 e he

end Frozen

end Emit

end Emission

end LocalGateway
