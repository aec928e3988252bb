import LocalGateway.Routing.Guarantees

/-!
# Bands of cache affinity

With cache affinity a selection comes in five bands. A backend that is warm for the cache key of the request
is in the first if it is idle and in the second if it is busy, as long as its requests in flight stay below
the limit at which it spills; the cold ones follow, the idle in the third band and the busy in the fourth,
where those that spill join them; and the fifth is for what cannot be routed to. In each of the first four
the providers listed in `order` come first, in its order.

* `band`: the band of an entry, with the registries as they are.
* `bands_in_order`: what is selected is in the order of the bands, and in each by the list of providers.
-/

namespace LocalGateway

open Py

/-! ### Positions in a list of providers -/

/-- The last position of an id that is not repeated is its only one. -/
theorem orderRank_eq_idxOf {order : List PyStr} (horder : order.Nodup) (id : PyStr) :
    orderRank order id = order.idxOf id := by
  unfold orderRank
  by_cases hid : id ∈ order
  · obtain ⟨l, l', rfl⟩ := List.append_of_mem hid
    have hnodup := List.nodup_append.1 horder
    have hl : id ∉ l := fun h ↦ hnodup.2.2 id h id (.head _) rfl
    have hl' : id ∉ l' := (List.nodup_cons.1 hnodup.2.1).1
    have hnone : l'.reverse.findIdx? (· = id) = none := by
      rw [List.findIdx?_eq_none_iff]
      intro x hx
      exact decide_eq_false fun heq ↦ hl' (heq ▸ List.mem_reverse.1 hx)
    have hfound : (l ++ id :: l').reverse.findIdx? (· = id) = some l'.length := by
      rw [List.reverse_append, List.reverse_cons, List.append_assoc, List.findIdx?_append, hnone]
      simp [List.findIdx?_cons]
    rw [hfound, List.idxOf_append_of_notMem hl, List.idxOf_cons_self, List.length_append,
      List.length_cons]
    dsimp only
    omega
  · have hnone : order.reverse.findIdx? (· = id) = none := by
      rw [List.findIdx?_eq_none_iff]
      intro x hx
      exact decide_eq_false fun heq ↦ hid (heq ▸ List.mem_reverse.1 hx)
    rw [hnone, List.idxOf_of_notMem hid]

/-- A list in which listed providers come in the order of the list. -/
def InOrder (order : List PyStr) (es : List Entry) : Prop :=
  es.Pairwise fun a b ↦ orderRank order a.provider.id ≤ orderRank order b.provider.id

theorem inOrder_nil_order (es : List Entry) : InOrder [] es :=
  List.pairwise_of_forall fun _ _ ↦ le_rfl

theorem inOrder_applyTiebreak (order : List PyStr) (es : List Entry) :
    InOrder order (applyTiebreak order es) := by
  unfold applyTiebreak
  split_ifs with horder
  · rw [horder]
    exact inOrder_nil_order es
  · have htotal : Std.Total fun a b : Entry ↦
        orderRank order a.provider.id ≤ orderRank order b.provider.id := ⟨fun a b ↦ le_total _ _⟩
    have htrans : IsTrans Entry fun a b ↦
        orderRank order a.provider.id ≤ orderRank order b.provider.id := ⟨fun a b c ↦ le_trans⟩
    exact List.pairwise_insertionSort _ es

/-! ### Bands -/

section Bands

variable (c : GatewayConfig) (now : Moment) (prefs : ProviderPrefs) (cacheKey : PyStr)

/-- The backend is warm for the cache key. -/
def isWarm (e : Entry) : Bool :=
  ((liveWarmth c now cacheKey).lookup e.key).isSome

/-- The backend has as many requests in flight as it may have before others spill. -/
def spills (e : Entry) : Bool :=
  (attrInt c.server.attrs.fields (py "max_inflight_before_spill")).any
    fun cap ↦ cap ≤ (inflight now e : ℤ)

/-- The band of an entry. -/
def band (available : Entry → Bool) (e : Entry) : ℕ :=
  if !available e then 5
  else if isWarm c now cacheKey e then
    if inflight now e = 0 then 1 else if spills c now e then 4 else 2
  else if inflight now e = 0 then 3 else 4

/-- In an earlier band, or in the same one and, but for the last band, not after the other in the list of
providers. -/
def Precedes (available : Entry → Bool) (a b : Entry) : Prop :=
  band c now cacheKey available a < band c now cacheKey available b ∨
    band c now cacheKey available a = band c now cacheKey available b ∧
      (band c now cacheKey available a ≤ 4 →
        prefs.order.idxOf a.provider.id ≤ prefs.order.idxOf b.provider.id)

variable (available : Entry → Bool)

/-- A block of entries of one band, in the order of the listed providers. -/
def InBand (k : ℕ) (es : List Entry) : Prop :=
  InOrder prefs.order es ∧ ∀ e ∈ es, band c now cacheKey available e = k

variable {flat : List Entry}

theorem mem_tie_idle {order : List PyStr} {es : List Entry} {e : Entry}
    (h : e ∈ applyTiebreak order (splitIdleBusy now es).1) : e ∈ es ∧ inflight now e = 0 := by
  have hmem := (applyTiebreak_perm order _).mem_iff.1 h
  simpa [splitIdleBusy] using hmem

theorem mem_tie_busy {order : List PyStr} {es : List Entry} {e : Entry}
    (h : e ∈ applyTiebreak order (splitIdleBusy now es).2) : e ∈ es ∧ inflight now e ≠ 0 := by
  have hmem := (applyTiebreak_perm order _).mem_iff.1 h
  simpa [splitIdleBusy] using (List.perm_insertionSort _ _).mem_iff.1 hmem

/-- The second and the fourth band, where the entries that spill join the cold ones. -/
def busyBands (warmBusy coldBusy : List SelectedBackend) :
    List SelectedBackend × List SelectedBackend :=
  match attrInt c.server.attrs.fields (py "max_inflight_before_spill") with
  | none => (warmBusy, coldBusy)
  | some cap =>
    if warmBusy = [] then (warmBusy, coldBusy)
    else
      -- a warm backend that is at the cap waits among the cold ones, in the order the client lists
      (warmBusy.filter fun s ↦ !decide (cap ≤ (inflight now s.entry : ℤ)),
        ((warmBusy.filter fun s ↦ cap ≤ (inflight now s.entry : ℤ)) ++ coldBusy).insertionSort
          fun a b ↦ prefs.order = [] ∨
            orderRank prefs.order a.entry.provider.id ≤ orderRank prefs.order b.entry.provider.id)

theorem emitBands_eq (flat : List Entry) :
    emitBands c now prefs cacheKey flat =
      let tie := applyTiebreak prefs.order
      let warm := splitIdleBusy now (flat.filter (isWarm c now cacheKey))
      let cold := splitIdleBusy now (flat.filter fun e ↦ !isWarm c now cacheKey e)
      let busy := busyBands c now prefs (tagReason (py "warm-busy") (tie warm.2))
        (tagReason (py "cold-busy") (tie cold.2))
      tagReason (py "warm-idle") (tie warm.1) ++ busy.1 ++ tagReason (py "cold-idle") (tie cold.1) ++
        busy.2 :=
  rfl

/-- The order of the listed providers survives the spill. -/
theorem busyBands_inOrder (reason reason' : PyStr) {warm cold : List Entry}
    (hwarm : InOrder prefs.order warm) (hcold : InOrder prefs.order cold) :
    let busy := busyBands c now prefs (tagReason reason warm) (tagReason reason' cold)
    InOrder prefs.order (busy.1.map SelectedBackend.entry) ∧
      InOrder prefs.order (busy.2.map SelectedBackend.entry) := by
  unfold busyBands
  rcases attrInt c.server.attrs.fields (py "max_inflight_before_spill") with - | cap
  · exact ⟨by rwa [map_entry_tagReason], by rwa [map_entry_tagReason]⟩
  · dsimp only
    split_ifs
    · exact ⟨by rwa [map_entry_tagReason], by rwa [map_entry_tagReason]⟩
    · constructor
      · have hsub := (List.filter_sublist (p := fun s : SelectedBackend ↦
          !decide (cap ≤ (inflight now s.entry : ℤ))) (l := tagReason reason warm)).map SelectedBackend.entry
        rw [map_entry_tagReason] at hsub
        exact hwarm.sublist hsub
      · have htotal : Std.Total fun a b : SelectedBackend ↦ prefs.order = [] ∨
            orderRank prefs.order a.entry.provider.id ≤ orderRank prefs.order b.entry.provider.id :=
          ⟨fun a b ↦ (le_total _ _).imp .inr .inr⟩
        have htrans : IsTrans SelectedBackend fun a b ↦ prefs.order = [] ∨
            orderRank prefs.order a.entry.provider.id ≤ orderRank prefs.order b.entry.provider.id := by
          refine ⟨fun a b c hab hbc ↦ ?_⟩
          rcases hab with hnil | hab
          · exact .inl hnil
          · exact hbc.imp_right hab.trans
        refine List.pairwise_map.2 ((List.pairwise_insertionSort _ _).imp fun {a b} hab ↦ ?_)
        rcases hab with hnil | hab
        · rw [hnil]
          exact le_rfl
        · exact hab

/-- The members of the bands of busy entries. -/
theorem mem_busyBands (reason reason' : PyStr) {warm cold : List Entry} {e : Entry} :
    let busy := busyBands c now prefs (tagReason reason warm) (tagReason reason' cold)
    (e ∈ busy.1.map SelectedBackend.entry → e ∈ warm ∧ spills c now e = false) ∧
      (e ∈ busy.2.map SelectedBackend.entry → e ∈ warm ∧ spills c now e = true ∨ e ∈ cold) := by
  have hmem : ∀ reason es, (∃ s ∈ tagReason reason es, s.entry = e) ↔ e ∈ es := by
    intro reason es
    rw [← List.mem_map, map_entry_tagReason]
  unfold busyBands spills
  rcases attrInt c.server.attrs.fields (py "max_inflight_before_spill") with - | cap
  · simp [hmem]
  · dsimp only
    split_ifs with hnil
    · have hnone : warm = [] := by
        rw [← map_entry_tagReason reason warm, hnil]
        rfl
      simp [hnone, tagReason]
    · constructor
      · intro h
        obtain ⟨s, hs, rfl⟩ := List.mem_map.1 h
        obtain ⟨hs, hstays⟩ := List.mem_filter.1 hs
        exact ⟨(hmem reason warm).1 ⟨s, hs, rfl⟩, by simpa using hstays⟩
      · intro h
        obtain ⟨s, hs, rfl⟩ := List.mem_map.1 h
        rcases List.mem_append.1 ((List.perm_insertionSort _ _).mem_iff.1 hs) with hs | hs
        · obtain ⟨hs, hspills⟩ := List.mem_filter.1 hs
          exact .inl ⟨(hmem reason warm).1 ⟨s, hs, rfl⟩, by simpa using hspills⟩
        · exact .inr ((hmem reason' cold).1 ⟨s, hs, rfl⟩)

/-- **What can be routed to comes in four blocks.** -/
theorem emitBands_blocks (hflat : ∀ e ∈ flat, available e = true) :
    ∃ warmIdle warmBusy coldIdle coldBusy,
      (emitBands c now prefs cacheKey flat).map SelectedBackend.entry =
        warmIdle ++ warmBusy ++ coldIdle ++ coldBusy ∧
      InBand c now prefs cacheKey available 1 warmIdle ∧
      InBand c now prefs cacheKey available 2 warmBusy ∧
      InBand c now prefs cacheKey available 3 coldIdle ∧
      InBand c now prefs cacheKey available 4 coldBusy := by
  rw [emitBands_eq]
  simp only [List.map_append, map_entry_tagReason]
  refine ⟨_, _, _, _, rfl, ⟨inOrder_applyTiebreak _ _, fun e he ↦ ?_⟩, ⟨?_, fun e he ↦ ?_⟩,
    ⟨inOrder_applyTiebreak _ _, fun e he ↦ ?_⟩, ⟨?_, fun e he ↦ ?_⟩⟩
  · obtain ⟨hmem, hidle⟩ := mem_tie_idle now he
    obtain ⟨hmem, hwarm⟩ := List.mem_filter.1 hmem
    simp [band, hflat e hmem, hwarm, hidle]
  · exact (busyBands_inOrder c now prefs _ _ (inOrder_applyTiebreak _ _)
      (inOrder_applyTiebreak _ _)).1
  · obtain ⟨htie, hspills⟩ := (mem_busyBands c now prefs _ _).1 he
    obtain ⟨hmem, hbusy⟩ := mem_tie_busy now htie
    obtain ⟨hmem, hwarm⟩ := List.mem_filter.1 hmem
    simp [band, hflat e hmem, hwarm, hbusy, hspills]
  · obtain ⟨hmem, hidle⟩ := mem_tie_idle now he
    obtain ⟨hmem, hcold⟩ := List.mem_filter.1 hmem
    simp [band, hflat e hmem, by simpa using hcold, hidle]
  · exact (busyBands_inOrder c now prefs _ _ (inOrder_applyTiebreak _ _)
      (inOrder_applyTiebreak _ _)).2
  · rcases (mem_busyBands c now prefs _ _).2 he with ⟨htie, hspills⟩ | htie
    · obtain ⟨hmem, hbusy⟩ := mem_tie_busy now htie
      obtain ⟨hmem, hwarm⟩ := List.mem_filter.1 hmem
      simp [band, hflat e hmem, hwarm, hbusy, hspills]
    · obtain ⟨hmem, hbusy⟩ := mem_tie_busy now htie
      obtain ⟨hmem, hcold⟩ := List.mem_filter.1 hmem
      simp [band, hflat e hmem, by simpa using hcold, hbusy]

/-- Entries in the order of the bands, from a band on. -/
def FromBand (k : ℕ) (es : List Entry) : Prop :=
  es.Pairwise (Precedes c now prefs cacheKey available) ∧
    ∀ e ∈ es, k ≤ band c now cacheKey available e

variable {c now prefs cacheKey available}

/-- A block of one band in front of later bands. -/
theorem InBand.append {k : ℕ} {es rest : List Entry} (horder : prefs.order.Nodup)
    (h : InBand c now prefs cacheKey available k es)
    (hrest : FromBand c now prefs cacheKey available (k + 1) rest) :
    FromBand c now prefs cacheKey available k (es ++ rest) := by
  refine ⟨List.pairwise_append.2 ⟨?_, hrest.1, fun a ha b hb ↦ .inl ?_⟩, fun e he ↦ ?_⟩
  · refine List.Pairwise.imp_of_mem (fun {a b} ha hb hab ↦ .inr ⟨?_, fun _ ↦ ?_⟩) h.1
    · rw [h.2 a ha, h.2 b hb]
    · rwa [← orderRank_eq_idxOf horder, ← orderRank_eq_idxOf horder]
  · rw [h.2 a ha]
    exact hrest.2 b hb
  · rcases List.mem_append.1 he with he | he
    · exact (h.2 e he).ge
    · exact (Nat.le_succ k).trans (hrest.2 e he)

/-- What cannot be routed to is in the last band. -/
theorem fromBand_unavailable {es : List Entry} (h : ∀ e ∈ es, available e = false) :
    FromBand c now prefs cacheKey available 5 es := by
  have hlast : ∀ e ∈ es, band c now cacheKey available e = 5 := by
    intro e he
    simp [band, h e he]
  refine ⟨List.pairwise_of_forall_mem_list fun a ha b hb ↦ .inr ⟨?_, fun hle ↦ ?_⟩,
    fun e he ↦ (hlast e he).ge⟩
  · rw [hlast a ha, hlast b hb]
  · rw [hlast a ha] at hle
    omega

/-- The four blocks, and what cannot be routed to. -/
theorem emitBands_append_pairwise (horder : prefs.order.Nodup) {limited : List Entry}
    (hflat : ∀ e ∈ flat, available e = true) (hlimited : ∀ e ∈ limited, available e = false) :
    ((emitBands c now prefs cacheKey flat).map SelectedBackend.entry ++ limited).Pairwise
      (Precedes c now prefs cacheKey available) := by
  obtain ⟨warmIdle, warmBusy, coldIdle, coldBusy, heq, h1, h2, h3, h4⟩ :=
    emitBands_blocks c now prefs cacheKey available hflat
  rw [heq, List.append_assoc, List.append_assoc, List.append_assoc]
  exact (h1.append horder (h2.append horder (h3.append horder (h4.append horder
    (fromBand_unavailable hlimited))))).1

end Bands

/-! ### Selections -/

section Selections

variable (c : GatewayConfig) (now : Moment) (prefs : ProviderPrefs) (cacheKey modelId : PyStr)
  (d : Demand) (r : Registry) (s : Breaker)

theorem band_seen (available : Entry → Bool) (e : Entry) :
    band c (seen c now prefs) cacheKey available e = band c now cacheKey available e := by
  unfold seen
  split_ifs
  · rfl
  · rfl

/-- **The order of the bands.** With cache affinity, and with the registries and the clock as they are at a
time, what is selected is in the order of the bands; in each of the first four, in that of the listed
providers, of which none is listed twice. -/
theorem bands_in_order (haff : affinityActive c cacheKey = true) (horder : prefs.order.Nodup) (t : ℚ) :
    (routed c now prefs cacheKey modelId d r s (fun _ ↦ t) monotone_const).Pairwise
      (Precedes c now prefs cacheKey (availableAt r s t)) := by
  unfold routed
  rcases hes : candidates c now prefs modelId d with - | es
  · rw [selectAt_of_none c now prefs cacheKey modelId d r s hes]
    exact List.Pairwise.nil
  rw [selectAt_of_some c now prefs cacheKey modelId d r s hes, answersAt_const]
  rcases eq_or_ne es [] with rfl | hne
  · rw [emit_nil]
    exact List.Pairwise.nil
  have hpinned : ¬ Pinned c prefs cacheKey es := fun h ↦ by
    have hoff := h.2.2
    rw [haff] at hoff
    cases hoff
  have hsplits := @mem_splitTiers_frozen c now prefs cacheKey (availableAt r s t) 0 0
    (tierGroups c prefs cacheKey es)
  have hseen : Precedes c (seen c now prefs) prefs cacheKey (availableAt r s t) =
      Precedes c now prefs cacheKey (availableAt r s t) := by
    funext a b
    simp only [Precedes, band_seen]
  rw [emit_of_affinity c now prefs cacheKey _ hne hpinned haff, ← hseen]
  simp only [emitCacheAffinity, List.map_append, List.map_map, map_entry_tagReason]
  refine emitBands_append_pairwise horder (fun e he ↦ ?_) fun e he ↦ ?_
  · rcases List.mem_append.1 he with he | he
    · exact mem_pass_frozen he
    · obtain ⟨t, ht, he⟩ := List.mem_flatMap.1 (List.mem_filter.1 he).1
      exact (hsplits ht).1 e he
  · rcases List.mem_append.1 he with he | he
    · exact mem_pass_frozen he
    · obtain ⟨t, ht, he⟩ := List.mem_flatMap.1 (List.mem_filter.1 he).1
      exact (hsplits ht).2 e he

end Selections

/-- Cache affinity, and one request in flight at which a backend spills. -/
def affineServer : Attrs serverClass :=
  serverClass.build
    [(py "cache_affinity_enabled", .bool true), (py "max_inflight_before_spill", .int 1)] (by decide)

/-- Backend `a` is warm and busy, and `b` is cold and idle. -/
def busyMoment : Moment :=
  { quietMoment with
    stats := [(py "a:x", ⟨none, none, 1⟩)]
    warmth := fun _ ↦ [(py "a:x", ⟨.fin 0, .fin 1⟩)] }

theorem bands_in_order_sample :
    affinityActive (plainGateway affineServer [plainBackend (py "a") 1, plainBackend (py "b") 1])
        (py "k") = true ∧
      (routed (plainGateway affineServer [plainBackend (py "a") 1, plainBackend (py "b") 1]) busyMoment
        { ProviderPrefs.none with order := [py "a", py "b"] } (py "k") (py "m") plainDemand .empty
        .initial (fun _ ↦ 0) monotone_const).Pairwise
        (Precedes (plainGateway affineServer [plainBackend (py "a") 1, plainBackend (py "b") 1])
          busyMoment { ProviderPrefs.none with order := [py "a", py "b"] } (py "k")
          (availableAt .empty .initial 0)) :=
  have haff : affinityActive (plainGateway affineServer
      [plainBackend (py "a") 1, plainBackend (py "b") 1]) (py "k") = true := by decide +kernel
  ⟨haff, bands_in_order _ _ _ _ _ _ _ _ haff (by decide) 0⟩

/-- It spills: the cold backend comes first, although it is listed last. -/
example : routed (plainGateway affineServer [plainBackend (py "a") 1, plainBackend (py "b") 1])
    busyMoment { ProviderPrefs.none with order := [py "a", py "b"] } (py "k") (py "m") plainDemand .empty
    .initial (fun _ ↦ 0) monotone_const =
      [plainEntry 1 (py "b") 1, plainEntry 0 (py "a") 1] := by
  decide +kernel

end LocalGateway
