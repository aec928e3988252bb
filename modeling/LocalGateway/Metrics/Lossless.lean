import LocalGateway.Metrics.Render

/-!
# What is read back from the metrics

Whether the text of a scrape is well formed, and whether its samples are what the registries hold.

* `contiguous_names_iff`: the lines of a metric are one group exactly if there are neither statistics nor usage, since
  both are written backend by backend, three metrics at a time, after the heads of all of them.
* `lossless_parsed_iff`: the ids are read back exactly if no provider has a colon in its id. Labels are escaped as the
  format wants it, so nothing else in an id matters.
* `exposed_iff`: when the text is all that it should be.
-/

namespace LocalGateway

open Py Exposition

/-- The id of the last model that has a backend of this string. -/
def modelOf (c : GatewayConfig) (key : PyStr) : PyStr :=
  ((c.models.filter fun m ↦ m.backends.any fun b ↦ backendKey b.provider b.model = key).getLast?).elim [] ModelConfig.id

namespace Scrape

variable (s : Scrape)

/-- What the registries hold of the backends of a string, with the name of the metric that says so. -/
inductive Recorded (key : PyStr) : List BackendId → PyStr → ℕ → Prop
  | requests {st : BackendStats} (h : s.stats.stats.get? key = some st) :
    Recorded key s.counted (py "lga_requests_total") (st.successes + st.failures)
  | failures {st : BackendStats} (h : s.stats.stats.get? key = some st) :
    Recorded key s.counted (py "lga_request_errors_total") st.failures
  | inFlight {st : BackendStats} (h : s.stats.stats.get? key = some st) :
    Recorded key s.counted (py "lga_inflight") st.inFlight
  | circuit {c : Circuit} (h : (key, c) ∈ s.breaker.circuits) :
    Recorded key s.circuited (py "lga_circuit_open")
      (if attrBool s.config.server.attrs.fields (py "circuit_breaker_enabled") ∧ s.monotonic < c.openUntil then 1
        else 0)
  | warm (h : StatsRegistry.entriesOf s.stats.warmth key ≠ []) :
    Recorded key s.warmed (py "lga_warm_keys") (StatsRegistry.entriesOf s.stats.warmth key).length

/-- The sample of a backend. -/
def reading (b : BackendId) (name : PyStr) (n : ℕ) : Sample :=
  ⟨name, [(py "model", modelOf s.config b.key), (py "provider", b.1), (py "backend", b.2)], .num n, none⟩

/-- The samples that a text should have: one for each value of a backend or a provider. -/
inductive Held : Sample → Prop
  | backend {ids : List BackendId} {b : BackendId} {name : PyStr} {n : ℕ} (hb : b ∈ ids)
    (h : s.Recorded b.key ids name n) : Held (s.reading b name n)
  | cost {e : PyStr × UsageTotals} (he : e ∈ s.byProvider) :
    Held ⟨py "lga_cost_usd_total", [(py "provider", e.1)], .num e.2.cost, none⟩
  | inputTokens {e : PyStr × UsageTotals} (he : e ∈ s.byProvider) :
    Held ⟨py "lga_tokens_total", [(py "provider", e.1), (py "kind", py "input")], .num e.2.inputTokens, none⟩
  | outputTokens {e : PyStr × UsageTotals} (he : e ∈ s.byProvider) :
    Held ⟨py "lga_tokens_total", [(py "provider", e.1), (py "kind", py "output")], .num e.2.outputTokens, none⟩

/-- The samples of the lines are what the registries hold. -/
def Lossless (ls : List Line) : Prop :=
  ∀ x, .sample x ∈ ls ↔ s.Held x

/-- The text is parsed, it is well formed, and nothing is lost. -/
def Exposed (r : Json.FloatRepr) : Prop :=
  ∃ ls, parse (s.render r) = some ls ∧ WellFormed ls ∧ s.Lossless ls

end Scrape

/-! ### What is looked up -/

/-- The model of a key is the last one that has it. -/
theorem getD_backendToModel (c : GatewayConfig) (key : PyStr) :
    ((backendToModel c).get? key).getD [] = modelOf c key := by
  have hbackends : ∀ (id : PyStr) (bs : List BackendConfig) (d : Dict PyStr PyStr),
      (bs.foldl (fun d b ↦ d.alter (backendKey b.provider b.model) fun _ ↦ id) d).get? key =
        if bs.any (fun b ↦ backendKey b.provider b.model = key) then some id else d.get? key := by
    intro id bs
    induction bs with
    | nil => exact fun d ↦ rfl
    | cons b bs ih =>
      intro d
      rw [List.foldl_cons, ih, Dict.get?_alter, List.any_cons]
      by_cases hb : backendKey b.provider b.model = key
      · simp [hb]
      · rw [if_neg (Ne.symm hb), decide_eq_false hb, Bool.false_or]
  have hmodels : (backendToModel c).get? key =
      ((c.models.filter fun m ↦ m.backends.any fun b ↦ backendKey b.provider b.model = key).getLast?).map
        ModelConfig.id := by
    unfold backendToModel
    induction c.models using List.reverseRecOn with
    | nil => rfl
    | append_singleton ms m ih =>
      rw [List.foldl_append, List.foldl_cons, List.foldl_nil, hbackends, ih, List.filter_append, List.filter_singleton]
      cases m.backends.any fun b ↦ backendKey b.provider b.model = key
      · simp
      · simp
  rw [hmodels, modelOf]
  cases (c.models.filter fun m ↦ m.backends.any fun b ↦ backendKey b.provider b.model = key).getLast? <;> rfl

/-- Each key of some items is counted once. -/
theorem get?_count {κ α : Type} [DecidableEq κ] (key : κ) {items : List (κ × α)}
    (hnodup : (items.map Prod.fst).Nodup) (d : Dict κ ℕ) :
    (items.foldl (fun d e ↦ d.alter e.1 fun n ↦ n.getD 0 + 1) d).get? key =
      if (items.lookup key).isSome then some ((d.get? key).getD 0 + 1) else d.get? key := by
  induction items generalizing d with
  | nil => rfl
  | cons e items ih =>
    obtain ⟨hfresh, hnodup⟩ := List.nodup_cons.1 hnodup
    rw [List.foldl_cons, ih hnodup, Dict.lookup_cons_eq, Dict.get?_alter]
    by_cases hkey : key = e.1
    · have hrest : items.lookup key = none := by
        refine List.lookup_eq_none_iff.2 fun p hp ↦ ?_
        rw [hkey, bne_iff_ne]
        exact fun heq ↦ hfresh (heq ▸ List.mem_map_of_mem hp)
      rw [hrest, if_pos hkey, if_pos hkey.symm]
      simp [hkey]
    · rw [if_neg hkey, if_neg (Ne.symm hkey)]

/-- A backend is warm in as many conversations as have an entry of it. -/
theorem get?_warmCounts_eq_some_iff (warmth : Dict PyStr Bucket) {key : PyStr} {n : ℕ} :
    (warmCounts warmth).get? key = some n ↔ StatsRegistry.entriesOf warmth key ≠ [] ∧
      (StatsRegistry.entriesOf warmth key).length = n := by
  have hfold : ∀ (buckets : List (PyStr × Bucket)) (d : Dict PyStr ℕ),
      (buckets.foldl (fun d bucket ↦ bucket.2.items.foldl (fun d e ↦ d.alter e.1 fun n ↦ n.getD 0 + 1) d) d).get? key =
        if buckets.filterMap (fun e ↦ e.2.get? key) = [] then d.get? key
        else some ((d.get? key).getD 0 + (buckets.filterMap fun e ↦ e.2.get? key).length) := by
    intro buckets
    induction buckets with
    | nil => exact fun d ↦ rfl
    | cons b buckets ih =>
      intro d
      have hbucket := get?_count key b.2.nodup d
      change _ = if (b.2.get? key).isSome then _ else _ at hbucket
      rw [List.foldl_cons, ih, hbucket, List.filterMap_cons]
      rcases b.2.get? key with - | e
      · rfl
      · simp only [Option.isSome_some, if_true, Option.getD_some, List.cons_ne_nil, if_false, List.length_cons]
        split_ifs with hnil
        · simp [hnil]
        · congr 1
          omega
  rw [warmCounts, hfold, ← StatsRegistry.entriesOf]
  split_ifs with hnil
  · simp [hnil]
  · simp [hnil]

theorem entriesOf_warmthSnapshot (st : StatsRegistry) (key : PyStr) :
    StatsRegistry.entriesOf st.warmthSnapshot key =
      (StatsRegistry.entriesOf st.warmth key).map WarmthEntry.rounded := by
  rw [StatsRegistry.entriesOf, StatsRegistry.warmthSnapshot, Dict.mapValues, List.filterMap_map,
    StatsRegistry.entriesOf, List.map_filterMap]
  exact List.filterMap_congr fun e _ ↦ Dict.get?_mapValues e.2 _ key

namespace Scrape

variable {s : Scrape}

/-! ### The samples -/

theorem mem_sortedItems {α : Type} {items : List (PyStr × α)} {e : PyStr × α} : e ∈ sortedItems items ↔ e ∈ items :=
  List.mem_insertionSort _

theorem mem_countedSamples_iff {x : Sample} : x ∈ s.countedSamples ↔
    ∃ key st, s.stats.stats.get? key = some st ∧ x ∈ s.statsSamples (key, st.report) := by
  simp only [countedSamples, List.mem_flatMap, mem_sortedItems]
  constructor
  · rintro ⟨⟨key, report⟩, he, hx⟩
    rw [Dict.mem_items_iff, StatsRegistry.snapshot, Dict.get?_mapValues] at he
    obtain ⟨st, hst, rfl⟩ := Option.map_eq_some_iff.1 he
    exact ⟨key, st, hst, hx⟩
  · rintro ⟨key, st, hst, hx⟩
    refine ⟨(key, st.report), ?_, hx⟩
    rw [Dict.mem_items_iff, StatsRegistry.snapshot, Dict.get?_mapValues, hst]
    rfl

/-- A time is left exactly if the circuit is open longer than now. -/
theorem openRemaining_pos_iff {now openUntil : ℚ} :
    0 < (if now < openUntil then max 0 (openUntil - now) else 0) ↔ now < openUntil := by
  split_ifs with h
  · exact iff_of_true (lt_max_of_lt_right (sub_pos.2 h)) h
  · exact iff_of_false (lt_irrefl _) h

theorem mem_circuitedSamples_iff {x : Sample} : x ∈ s.circuitedSamples ↔ ∃ key c, (key, c) ∈ s.breaker.circuits ∧
    x = keySample (backendToModel s.config) (py "lga_circuit_open") key
      (if attrBool s.config.server.attrs.fields (py "circuit_breaker_enabled") ∧ s.monotonic < c.openUntil then 1
        else 0) := by
  have hsample : ∀ e : PyStr × Circuit,
      s.circuitSample (e.1, e.2.report (s.breaker.configureFromConfig s.config).enabled s.monotonic) =
        keySample (backendToModel s.config) (py "lga_circuit_open") e.1
          (if attrBool s.config.server.attrs.fields (py "circuit_breaker_enabled") ∧ s.monotonic < e.2.openUntil then 1
            else 0) := by
    intro e
    simp only [circuitSample, Circuit.report, Bool.and_eq_true, decide_eq_true_eq, openRemaining_pos_iff]
    rfl
  simp only [circuitedSamples, List.mem_map, mem_sortedItems]
  constructor
  · rintro ⟨_, he, rfl⟩
    obtain ⟨e, hc, rfl⟩ := List.mem_map.1 he
    exact ⟨e.1, e.2, hc, hsample e⟩
  · rintro ⟨key, c, hc, rfl⟩
    exact ⟨_, List.mem_map.2 ⟨(key, c), hc, rfl⟩, hsample (key, c)⟩

theorem mem_warmedSamples_iff {x : Sample} : x ∈ s.warmedSamples ↔
    ∃ key, StatsRegistry.entriesOf s.stats.warmth key ≠ [] ∧ x = keySample (backendToModel s.config)
      (py "lga_warm_keys") key (StatsRegistry.entriesOf s.stats.warmth key).length := by
  simp only [warmedSamples, List.mem_map, mem_sortedItems]
  constructor
  · rintro ⟨⟨key, n⟩, he, rfl⟩
    obtain ⟨hne, rfl⟩ := (get?_warmCounts_eq_some_iff _).1 (Dict.mem_items_iff.1 he)
    rw [entriesOf_warmthSnapshot] at hne
    refine ⟨key, fun h ↦ hne (by rw [h, List.map_nil]), ?_⟩
    rw [warmSample, entriesOf_warmthSnapshot, List.length_map]
  · rintro ⟨key, hne, rfl⟩
    refine ⟨(key, (StatsRegistry.entriesOf s.stats.warmth key).length), ?_, rfl⟩
    refine Dict.mem_items_iff.2 ((get?_warmCounts_eq_some_iff _).2 ?_)
    rw [entriesOf_warmthSnapshot, List.length_map]
    exact ⟨fun h ↦ hne (List.map_eq_nil_iff.1 h), rfl⟩

/-- **The samples of a text are what is recorded**, under the parts of the keys. -/
theorem sample_mem_parsed_iff {x : Sample} : .sample x ∈ s.parsed ↔
    ∃ key ids name n, s.Recorded key ids name n ∧ x = keySample (backendToModel s.config) name key n := by
  have hparsed : .sample x ∈ s.parsed ↔ x ∈ s.countedSamples ∨ x ∈ s.circuitedSamples ∨ x ∈ s.warmedSamples := by
    simp [parsed, statsHeadLines, usageHeadLines, circuitHeadLines, warmHeadLines, headLines]
  rw [hparsed, mem_countedSamples_iff, mem_circuitedSamples_iff, mem_warmedSamples_iff]
  constructor
  · rintro (⟨key, st, hst, hx⟩ | ⟨key, c, hc, rfl⟩ | ⟨key, hne, rfl⟩)
    · simp only [statsSamples, List.mem_cons, List.not_mem_nil, or_false] at hx
      rcases hx with rfl | rfl | rfl
      · exact ⟨key, _, _, _, .requests hst, rfl⟩
      · exact ⟨key, _, _, _, .failures hst, rfl⟩
      · exact ⟨key, _, _, _, .inFlight hst, rfl⟩
    · exact ⟨key, _, _, _, .circuit hc, rfl⟩
    · exact ⟨key, _, _, _, .warm hne, rfl⟩
  · rintro ⟨key, ids, name, n, hrecorded, rfl⟩
    cases hrecorded with
    | @requests st h => exact .inl ⟨key, st, h, List.mem_cons_self⟩
    | @failures st h => exact .inl ⟨key, st, h, List.mem_cons_of_mem _ List.mem_cons_self⟩
    | @inFlight st h =>
      exact .inl ⟨key, st, h, List.mem_cons_of_mem _ (List.mem_cons_of_mem _ List.mem_cons_self)⟩
    | @circuit c h => exact .inr (.inl ⟨key, c, h, rfl⟩)
    | warm h => exact .inr (.inr ⟨key, h, rfl⟩)

/-! ### Decoding -/

/-- What is recorded under a key is recorded of a backend. -/
theorem Recorded.exists_backend {key : PyStr} {ids : List BackendId} {name : PyStr} {n : ℕ}
    (h : s.Recorded key ids name n) : ∃ b ∈ ids, b.key = key := by
  cases h with
  | requests h | failures h | inFlight h => exact (s.counted_keys key).1 (h ▸ Option.some_ne_none _)
  | circuit h => exact (s.circuited_keys key).1 (List.mem_map_of_mem (f := Prod.fst) h)
  | warm h => exact (s.warmed_keys key).1 h

theorem Recorded.ids_mem {key : PyStr} {ids : List BackendId} {name : PyStr} {n : ℕ}
    (h : s.Recorded key ids name n) : ids ∈ [s.counted, s.circuited, s.warmed] := by
  cases h <;> simp

/-- Of each backend something is recorded. -/
theorem exists_recorded_of_mem {ids : List BackendId} (hids : ids ∈ [s.counted, s.circuited, s.warmed]) {b : BackendId}
    (hb : b ∈ ids) : ∃ name n, s.Recorded b.key ids name n := by
  simp only [List.mem_cons, List.not_mem_nil, or_false] at hids
  rcases hids with rfl | rfl | rfl
  · obtain ⟨st, hst⟩ := Option.ne_none_iff_exists'.1 ((s.counted_keys b.key).2 ⟨b, hb, rfl⟩)
    exact ⟨_, _, .requests hst⟩
  · obtain ⟨⟨key, c⟩, hc, hkey⟩ := List.mem_map.1 ((s.circuited_keys b.key).2 ⟨b, hb, rfl⟩)
    obtain rfl : key = b.key := hkey
    exact ⟨_, _, .circuit hc⟩
  · exact ⟨_, _, .warm ((s.warmed_keys b.key).2 ⟨b, hb, rfl⟩)⟩

theorem reading_eq {b : BackendId} (hb : 58 ∉ b.1) (name : PyStr) (n : ℕ) :
    s.reading b name n = keySample (backendToModel s.config) name b.key n := by
  rw [keySample, backendLabelsOf, getD_backendToModel, partitionKey_key hb, reading]

/-- **The ids are read back exactly if no provider has a colon.** -/
theorem lossless_parsed_iff (husage : s.byProvider = []) :
    s.Lossless s.parsed ↔ ∀ ids ∈ [s.counted, s.circuited, s.warmed], ∀ b ∈ ids, 58 ∉ b.1 := by
  constructor
  · intro h ids hids b hb
    obtain ⟨name, n, hrecorded⟩ := exists_recorded_of_mem hids hb
    obtain ⟨key, -, name', n', -, hx⟩ := sample_mem_parsed_iff.1 ((h _).2 (.backend hb hrecorded))
    have hprovider : b.1 = (partitionKey key).1 := by
      have hlabels := congrArg Sample.labels hx
      simp only [reading, keySample, backendLabelsOf, List.cons.injEq, Prod.mk.injEq] at hlabels
      exact hlabels.2.1.2
    exact hprovider ▸ not_mem_partitionKey key
  · intro h x
    rw [sample_mem_parsed_iff]
    constructor
    · rintro ⟨key, ids, name, n, hrecorded, rfl⟩
      obtain ⟨b, hb, rfl⟩ := hrecorded.exists_backend
      rw [← reading_eq (h ids hrecorded.ids_mem b hb)]
      exact .backend hb hrecorded
    · intro hx
      cases hx with
      | @backend ids b name n hb hrecorded =>
        exact ⟨b.key, ids, name, n, hrecorded, reading_eq (h ids hrecorded.ids_mem b hb) name n⟩
      | cost he | inputTokens he | outputTokens he =>
        rw [husage] at he
        cases he

/-! ### The form of the text -/

theorem sortedItems_eq_nil_iff {α : Type} {items : List (PyStr × α)} : sortedItems items = [] ↔ items = [] :=
  ⟨fun h ↦ ((List.perm_insertionSort _ items).symm.trans (.of_eq h)).eq_nil, fun h ↦ by rw [h]; rfl⟩

/-- The lines of a metric that has a section of its own. -/
theorem eq_of_mem_section {α : Type} {name a : PyStr} {items : List α}
    (h : a ∈ [name, name] ++ items.map fun _ ↦ name) : a = name := by
  simp only [List.mem_append, List.mem_cons, List.not_mem_nil, or_false, or_self, List.mem_map] at h
  rcases h with h | ⟨-, -, h⟩
  · exact h
  · exact h.symm

/-- **The lines of each metric are one group exactly if there are neither statistics nor usage.** -/
theorem contiguous_names_iff : Contiguous s.names ↔ s.stats.snapshot.items = [] ∧ s.byProvider = [] := by
  constructor
  · intro h
    constructor
    · by_contra hne
      obtain ⟨e, es, hes⟩ := List.exists_cons_of_ne_nil (sortedItems_eq_nil_iff.not.2 hne)
      rw [names, hes, List.flatMap_cons] at h
      refine not_contiguous_of_mem (l := [py "lga_requests_total"]) (a := py "lga_requests_total")
        (b := py "lga_request_errors_total") (by decide) ?_
        (by simpa only [statsHeadNames, List.cons_append, List.nil_append] using h)
      simp [statsNames]
    · by_contra hne
      obtain ⟨e, es, hes⟩ := List.exists_cons_of_ne_nil (sortedItems_eq_nil_iff.not.2 hne)
      rw [names, hes, List.flatMap_cons] at h
      refine not_contiguous_of_mem
        (l := statsHeadNames ++ (sortedItems s.stats.snapshot.items).flatMap (fun _ ↦ statsNames) ++
          [py "lga_cost_usd_total"]) (a := py "lga_cost_usd_total") (b := py "lga_tokens_total") (by decide) ?_
        (by simpa only [usageHeadNames, List.append_assoc, List.cons_append, List.nil_append] using h)
      simp [usageNames]
  · rintro ⟨hstats, husage⟩
    rw [names, hstats, husage]
    refine Contiguous.append (Contiguous.append (by decide) (contiguous_of_forall_eq fun _ ↦ eq_of_mem_section) ?_)
      (contiguous_of_forall_eq fun _ ↦ eq_of_mem_section) ?_
    · rintro a ha hcircuit
      obtain rfl := eq_of_mem_section hcircuit
      exact absurd ha (by decide)
    · rintro a ha hwarm
      obtain rfl := eq_of_mem_section hwarm
      rcases List.mem_append.1 ha with ha | ha
      · exact absurd ha (by decide)
      · exact absurd (eq_of_mem_section ha) (by decide)

/-- The metrics of the samples. -/
theorem name_mem_of_countedSamples {x : Sample} (hx : x ∈ s.countedSamples) : x.name ∈ statsNames := by
  obtain ⟨key, st, -, hx⟩ := mem_countedSamples_iff.1 hx
  simp only [statsSamples, List.mem_cons, List.not_mem_nil, or_false] at hx
  rcases hx with rfl | rfl | rfl <;> simp [keySample, statsNames]

theorem name_of_circuitedSamples {x : Sample} (hx : x ∈ s.circuitedSamples) : x.name = py "lga_circuit_open" := by
  obtain ⟨e, -, rfl⟩ := List.mem_map.1 hx
  rfl

theorem name_of_warmedSamples {x : Sample} (hx : x ∈ s.warmedSamples) : x.name = py "lga_warm_keys" := by
  obtain ⟨e, -, rfl⟩ := List.mem_map.1 hx
  rfl

/-- Lines that are about some metrics come before heads of others. -/
theorem metric_ne_of_forall {lines heads : List Line} {ns : List PyStr}
    (hlines : ∀ a ∈ lines, ∃ n ∈ ns, a.metric = some n) (hheads : ∀ n ∈ ns, ∀ b ∈ heads, some n ≠ b.metric) :
    ∀ a ∈ lines, ∀ b ∈ heads, a.metric ≠ b.metric := by
  intro a ha b hb
  obtain ⟨n, hn, hmetric⟩ := hlines a ha
  exact hmetric ▸ hheads n hn b hb

/-- Heads come first, and once. -/
theorem headed_parsed : Headed s.parsed := by
  have hstats : ∀ a ∈ statsHeadLines ++ s.countedSamples.map .sample, ∃ n ∈ statsNames, a.metric = some n := by
    refine List.forall_mem_append.2 ⟨by decide, List.forall_mem_map.2 fun x hx ↦ ?_⟩
    exact ⟨x.name, name_mem_of_countedSamples hx, rfl⟩
  have husage : ∀ a ∈ statsHeadLines ++ s.countedSamples.map .sample ++ usageHeadLines,
      ∃ n ∈ statsNames ++ usageNames, a.metric = some n := by
    refine List.forall_mem_append.2 ⟨fun a ha ↦ ?_, by decide⟩
    obtain ⟨n, hn, hmetric⟩ := hstats a ha
    exact ⟨n, List.mem_append_left _ hn, hmetric⟩
  have hcircuit : ∀ a ∈ statsHeadLines ++ s.countedSamples.map .sample ++ usageHeadLines ++ circuitHeadLines ++
      s.circuitedSamples.map .sample, ∃ n ∈ statsNames ++ usageNames ++ [py "lga_circuit_open"], a.metric = some n := by
    refine List.forall_mem_append.2 ⟨List.forall_mem_append.2 ⟨fun a ha ↦ ?_, by decide⟩,
      List.forall_mem_map.2 fun x hx ↦ ?_⟩
    · obtain ⟨n, hn, hmetric⟩ := husage a ha
      exact ⟨n, List.mem_append_left _ hn, hmetric⟩
    · exact ⟨_, List.mem_append_right _ List.mem_cons_self, congrArg some (name_of_circuitedSamples hx)⟩
  refine Headed.append_samples (Headed.append_heads (Headed.append_samples (Headed.append_heads (Headed.append_heads
    (Headed.append_samples ?_ _) ?_ ?_) ?_ ?_) _) ?_ ?_) _
  · unfold Headed
    decide
  · unfold Headed
    decide
  · exact metric_ne_of_forall hstats (by decide)
  · unfold Headed
    decide
  · exact metric_ne_of_forall husage (by decide)
  · unfold Headed
    decide
  · exact metric_ne_of_forall hcircuit (by decide)

/-- Labels that are the same but for their order are those of the same parts. -/
theorem eq_of_perm_backendLabelsOf {models : Dict PyStr PyStr} {key key' : PyStr} {b b' : BackendId}
    (h : (backendLabelsOf models key b).Perm (backendLabelsOf models key' b')) : b = b' := by
  have hprovider : (py "provider", b.1) ∈ backendLabelsOf models key' b' := h.subset (by simp [backendLabelsOf])
  have hbackend : (py "backend", b.2) ∈ backendLabelsOf models key' b' := h.subset (by simp [backendLabelsOf])
  simp only [backendLabelsOf, List.mem_cons, Prod.mk.injEq, List.not_mem_nil, or_false] at hprovider hbackend
  simp [py] at hprovider hbackend
  exact Prod.ext hprovider hbackend

/-- Keys that are told apart have parts that are. -/
theorem pairwise_partitionKey {α : Type} {items : List (PyStr × α)} (hnodup : (items.map Prod.fst).Nodup)
    (hkeys : ∀ e ∈ items, ∃ b : BackendId, b.key = e.1) :
    (sortedItems items).Pairwise fun e f ↦ partitionKey e.1 ≠ partitionKey f.1 := by
  have hperm : (sortedItems items).Perm items := List.perm_insertionSort _ items
  have hsorted : (sortedItems items).Pairwise fun e f ↦ e.1 ≠ f.1 :=
    List.pairwise_map.1 ((hperm.map Prod.fst).nodup_iff.2 hnodup)
  refine hsorted.imp_of_mem fun {e f} he hf hne heq ↦ hne ?_
  obtain ⟨b, hb⟩ := hkeys e (mem_sortedItems.1 he)
  obtain ⟨b', hb'⟩ := hkeys f (mem_sortedItems.1 hf)
  rw [← hb, ← hb', ← key_partitionKey b, ← key_partitionKey b', hb, hb', heq]

/-- The keys of a scrape are joined from backends. -/
theorem exists_key_of_snapshot {e : PyStr × StatsReport} (he : e ∈ s.stats.snapshot.items) :
    ∃ b : BackendId, b.key = e.1 := by
  rw [Dict.mem_items_iff (k := e.1) (v := e.2), StatsRegistry.snapshot, Dict.get?_mapValues] at he
  obtain ⟨st, hst, -⟩ := Option.map_eq_some_iff.1 he
  obtain ⟨b, -, hb⟩ := (s.counted_keys e.1).1 (hst ▸ Option.some_ne_none _)
  exact ⟨b, hb⟩

theorem map_fst_circuits : s.circuits.map Prod.fst = s.breaker.circuits.map Prod.fst := by
  rw [circuits, Breaker.snapshot, List.map_map]
  rfl

theorem exists_key_of_circuits {e : PyStr × CircuitReport} (he : e ∈ s.circuits) : ∃ b : BackendId, b.key = e.1 := by
  have hmem := List.mem_map_of_mem (f := Prod.fst) he
  rw [map_fst_circuits] at hmem
  obtain ⟨b, -, hb⟩ := (s.circuited_keys e.1).1 hmem
  exact ⟨b, hb⟩

theorem exists_key_of_warmCounts {e : PyStr × ℕ} (he : e ∈ (warmCounts s.stats.warmthSnapshot).items) :
    ∃ b : BackendId, b.key = e.1 := by
  obtain ⟨hne, -⟩ := (get?_warmCounts_eq_some_iff _).1 (Dict.mem_items_iff.1 he)
  rw [entriesOf_warmthSnapshot] at hne
  obtain ⟨b, -, hb⟩ := (s.warmed_keys e.1).1 fun h ↦ hne (by rw [h, List.map_nil])
  exact ⟨b, hb⟩

theorem labels_of_statsSamples {e : PyStr × StatsReport} {x : Sample} (hx : x ∈ s.statsSamples e) :
    x.labels = backendLabelsOf (backendToModel s.config) e.1 (partitionKey e.1) := by
  simp only [statsSamples, List.mem_cons, List.not_mem_nil, or_false] at hx
  rcases hx with rfl | rfl | rfl <;> rfl

/-- No sample of a text is given twice. -/
theorem distinct_parsed : (s.parsed.filterMap Line.sample?).Pairwise
    fun x y ↦ ¬(x.name = y.name ∧ x.labels.Perm y.labels) := by
  have hsamples : s.parsed.filterMap Line.sample? = s.countedSamples ++ (s.circuitedSamples ++ s.warmedSamples) := by
    have hmap : ∀ xs : List Sample, (xs.map Line.sample).filterMap Line.sample? = xs := by
      intro xs
      rw [List.filterMap_map]
      exact List.filterMap_some
    have hheads : ∀ heads ∈ [statsHeadLines, usageHeadLines, circuitHeadLines, warmHeadLines],
        heads.filterMap Line.sample? = [] := by
      decide
    simp only [List.forall_mem_cons] at hheads
    simp only [parsed, List.filterMap_append, hmap, hheads, List.nil_append, List.append_assoc]
  rw [hsamples, List.pairwise_append, List.pairwise_append]
  refine ⟨?_, ⟨?_, ?_, ?_⟩, ?_⟩
  · refine List.pairwise_flatMap.2 ⟨fun e _ ↦ ?_, ?_⟩
    · simp [statsSamples, keySample, py]
    · refine (pairwise_partitionKey s.stats.snapshot.nodup fun _ ↦ exists_key_of_snapshot).imp ?_
      rintro e f hne x hx y hy ⟨-, hperm⟩
      rw [labels_of_statsSamples hx, labels_of_statsSamples hy] at hperm
      exact hne (eq_of_perm_backendLabelsOf hperm)
  · refine List.pairwise_map.2 ((pairwise_partitionKey (map_fst_circuits ▸ s.circuits_nodup)
      fun _ ↦ exists_key_of_circuits).imp ?_)
    rintro e f hne ⟨-, hperm⟩
    exact hne (eq_of_perm_backendLabelsOf hperm)
  · refine List.pairwise_map.2 ((pairwise_partitionKey (warmCounts s.stats.warmthSnapshot).nodup
      fun _ ↦ exists_key_of_warmCounts).imp ?_)
    rintro e f hne ⟨-, hperm⟩
    exact hne (eq_of_perm_backendLabelsOf hperm)
  · rintro x hx y hy ⟨hname, -⟩
    rw [name_of_circuitedSamples hx, name_of_warmedSamples hy] at hname
    exact absurd hname (by decide)
  · rintro x hx y hy ⟨hname, -⟩
    have hmem := name_mem_of_countedSamples hx
    rw [hname] at hmem
    rcases List.mem_append.1 hy with hy | hy
    · rw [name_of_circuitedSamples hy] at hmem
      exact absurd hmem (by decide)
    · rw [name_of_warmedSamples hy] at hmem
      exact absurd hmem (by decide)

/-! ### The exposition -/

/-- No request of the last day is in the usage table. -/
def Unused (s : Scrape) : Prop :=
  ∀ table ∈ s.usage, reported table s.now 24 = []

theorem byProvider_eq_nil_iff : s.byProvider = [] ↔ s.Unused := by
  unfold byProvider Unused
  rcases s.usage with - | table
  · simp
  · simp [getUsageSummary, totalsBy, Grouped.groups]

theorem snapshot_eq_nil_iff : s.stats.snapshot.items = [] ↔ s.counted = [] := by
  rw [StatsRegistry.snapshot, Dict.mapValues, List.map_eq_nil_iff]
  constructor
  · intro h
    refine List.eq_nil_iff_forall_not_mem.2 fun b hb ↦ (s.counted_keys b.key).2 ⟨b, hb, rfl⟩ ?_
    rw [Dict.get?, h]
    rfl
  · intro h
    refine List.eq_nil_iff_forall_not_mem.2 fun e he ↦ ?_
    obtain ⟨b, hb, -⟩ := (s.counted_keys e.1).1 (Dict.mem_items_iff.1 he ▸ Option.some_ne_none _)
    rw [h] at hb
    cases hb

namespace Exposed

variable {r : Json.FloatRepr}

/-- In a text that is well formed there is one group for each metric, so nothing has been counted. -/
theorem registries (h : s.Exposed r) : s.counted = [] ∧ s.byProvider = [] := by
  obtain ⟨ls, hparse, hform, -⟩ := h
  have hgroups := hform.groups
  rwa [s.metrics_of_parse r hparse, contiguous_names_iff, snapshot_eq_nil_iff] at hgroups

/-- A text that loses nothing is about providers without a colon. -/
theorem colonless (h : s.Exposed r) : ∀ ids ∈ [s.counted, s.circuited, s.warmed], ∀ b ∈ ids, 58 ∉ b.1 := by
  have husage := h.registries.2
  obtain ⟨ls, hparse, -, hlossless⟩ := h
  obtain rfl : s.parsed = ls := Option.some.inj ((s.parse_render r husage).symm.trans hparse)
  exact (lossless_parsed_iff husage).1 hlossless

end Exposed

/-- **The text of a scrape is all that it should be exactly if** nothing was counted yet, nobody used a backend in the
last day, and no provider with a circuit or a warm cache has a colon in its id. -/
theorem exposed_iff (s : Scrape) (r : Json.FloatRepr) : s.Exposed r ↔
    s.counted = [] ∧ s.Unused ∧ ∀ b ∈ s.circuited ++ s.warmed, 58 ∉ b.1 := by
  constructor
  · intro h
    refine ⟨h.registries.1, byProvider_eq_nil_iff.1 h.registries.2, List.forall_mem_append.2 ⟨?_, ?_⟩⟩
    · exact h.colonless s.circuited (by simp)
    · exact h.colonless s.warmed (by simp)
  · rintro ⟨hcounted, hunused, hids⟩
    have husage := byProvider_eq_nil_iff.2 hunused
    have hparse := s.parse_render r husage
    refine ⟨s.parsed, hparse, ⟨?_, headed_parsed, distinct_parsed⟩, (lossless_parsed_iff husage).2 ?_⟩
    · rw [s.metrics_of_parse r hparse, contiguous_names_iff, snapshot_eq_nil_iff]
      exact ⟨hcounted, husage⟩
    · obtain ⟨hcircuited, hwarmed⟩ := List.forall_mem_append.1 hids
      simp only [List.forall_mem_cons, hcounted]
      exact ⟨List.forall_mem_nil _, hcircuited, hwarmed, List.forall_mem_nil _⟩

end Scrape

/-! ### Two scrapes -/

/-- A change of the statistics of a backend adds this backend. -/
theorem counted_keys_modify {st : StatsRegistry} (ids : List BackendId)
    (h : ∀ k, st.stats.get? k ≠ none ↔ ∃ b ∈ ids, b.key = k) (b : BackendId) (f : BackendStats → BackendStats)
    (k : PyStr) : (st.modify b.key f).stats.get? k ≠ none ↔ ∃ b' ∈ b :: ids, b'.key = k := by
  rw [List.exists_mem_cons_iff, ← h, StatsRegistry.modify, Dict.get?_alter]
  split_ifs with hk
  · exact iff_of_true (Option.some_ne_none _) (.inl hk.symm)
  · exact (or_iff_right (Ne.symm hk)).symm

/-- A circuit that is stored adds its backend. -/
theorem circuited_keys_set {s : Breaker} (ids : List BackendId)
    (h : ∀ k, k ∈ s.circuits.map Prod.fst ↔ ∃ b ∈ ids, b.key = k) (b : BackendId) (c : Circuit) (k : PyStr) :
    k ∈ (s.set b.key c).circuits.map Prod.fst ↔ ∃ b' ∈ b :: ids, b'.key = k := by
  rw [List.exists_mem_cons_iff, ← h, Breaker.set, List.map_cons, List.mem_cons, eq_comm]
  refine or_congr_right' fun hk ↦ ?_
  constructor
  · exact fun hmem ↦ (List.filter_sublist.map Prod.fst).subset hmem
  · intro hmem
    obtain ⟨e, he, rfl⟩ := List.mem_map.1 hmem
    exact List.mem_map_of_mem (List.mem_filter.2 ⟨he, decide_eq_true (Ne.symm hk)⟩)

/-- One request has begun. -/
def oneRequest : Scrape where
  config := .empty
  stats := StatsRegistry.initial.startRequest (BackendId.key (py "p", py "m"))
  breaker := .initial
  usage := some []
  now := 0
  monotonic := 0
  counted := [(py "p", py "m")]
  circuited := []
  warmed := []
  counted_keys := counted_keys_modify [] (by simp [StatsRegistry.initial]) _ _
  circuited_keys := by simp [Breaker.initial]
  circuits_nodup := .nil
  warmed_keys := by simp [StatsRegistry.startRequest, StatsRegistry.modify, StatsRegistry.initial,
    StatsRegistry.entriesOf, Dict.empty]

/-- A request has failed at a provider whose id has a colon. -/
def colonCircuit : Scrape where
  config := .empty
  stats := .initial
  breaker := (Breaker.initial.recordOutcome (BackendId.key (py "a:b", py "m")) false none 0 0).1
  usage := some []
  now := 0
  monotonic := 0
  counted := []
  circuited := [(py "a:b", py "m")]
  warmed := []
  counted_keys := by simp [StatsRegistry.initial]
  circuited_keys := circuited_keys_set [] (by simp [Breaker.initial]) _ _
  circuits_nodup := List.nodup_singleton _
  warmed_keys := by simp [StatsRegistry.initial, StatsRegistry.entriesOf, Dict.empty]

/-- **Two texts that are not what they should be**: the samples of one request are apart from the heads of their
metrics, and the provider `a:b` is read back as `a`. -/
theorem not_exposed_oneRequest_colonCircuit :
    ¬oneRequest.Exposed .ofFraction ∧ ¬colonCircuit.Exposed .ofFraction := by
  constructor
  · intro h
    exact absurd h.registries.1 (List.cons_ne_nil _ _)
  · intro h
    exact absurd (h.colonless _ (List.mem_cons_of_mem _ List.mem_cons_self) _ List.mem_cons_self) (by decide)

end LocalGateway
