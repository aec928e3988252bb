import LocalGateway.Routing.Capacity
import LocalGateway.Routing.Warmth
import LocalGateway.Stats.Isolation

/-!
# The gated chat endpoint and the plain one

The chat endpoint skips the estimate of the input and the fingerprint of the body where it takes them for
useless. The plain program computes both for every request. They run side by side here, over the same
arrivals, outcomes and draws; each keeps its own registries.

* `RouterState`: the registries and the counters of the rotations; `RouterState.reply` is what a request
  gets, `RouterState.next` the state after an event.
* `gated` and `plain`: the two programs.
* `Alike`: two states that differ at most in the warmth of keys that belong to no conversation, and not at
  all with cache affinity.
* `Harmless`: what the skipped values may not decide at an event.
* `replies_agree`: in a run of harmless events all replies agree.

A request that the response cache answers is no event: the cache is asked before anything is routed, and
with the same key.
-/

namespace LocalGateway

open Py Json RespCache

/-! ### Events -/

/-- A chat request and the id of its conversation. -/
structure ChatRequest where
  body : PyDict
  conversation : Option PyStr

/-- What a selection meets, the state of the gateway apart: the clock, and the draws. -/
structure Arrival where
  floats : Floats
  zone : PyStr → Option (ℕ × ℕ)
  tps : List (PyStr × PyFloat)
  draw : ℕ → PyFloat
  /-- The time of the lookups of warmth. -/
  time : ℚ
  /-- The times of the questions whether a backend is available. -/
  clock : ℕ → ℚ
  monotone : Monotone clock

/-- An event: a request, an answer with its use of the cache, or another outcome on a backend. -/
inductive RouterEvent where
  | arrive (q : ChatRequest) (a : Arrival)
  | answered (q : ChatRequest) (provider model : PyStr) (use : CacheUse)
      (cacheSupported : Option Bool) (now : ℚ)
  | operation (provider model : PyStr) (op : BackendOp)

/-- The state that a selection reads and changes. -/
structure RouterState where
  registries : Registries
  /-- `_rr`. -/
  rotations : PyStr → ℕ

/-- A chat endpoint: what it asks of the router. -/
abbrev Program := GatewayConfig → ChatRequest → Option Plan

/-- What routing reads of a report. -/
def StatsReport.stat (r : StatsReport) : BackendStat where
  successRate := r.successRate.map .fin
  avgLatency := r.avgLatencyMs.map .fin
  inFlight := r.inFlight

/-- The warmth entries of a cache key, as routing reads them. -/
def warmthAt (warmth : Dict PyStr Bucket) (time : ℚ) (key : PyStr) : List (PyStr × Warmth) :=
  ((warmth.get? key).getD .empty).items.map fun e ↦
    (e.1, ⟨.fin (time - e.2.lastSeenTs), .fin e.2.rounded.lastHitRate⟩)

/-- The id of the model that a plan is for. -/
def Plan.modelId (plan : Plan) (c : GatewayConfig) : PyStr :=
  ((c.modelByValue plan.model).map (·.id)).getD []

namespace RouterState

variable (s : RouterState)

/-- The configuration, which no event changes. -/
def config : GatewayConfig :=
  s.registries.config

/-- The moment at which a plan is carried out. -/
def moment (plan : Plan) (a : Arrival) : Moment where
  floats := a.floats
  zone := a.zone
  tps := a.tps
  stats := s.registries.stats.snapshot.items.map fun e ↦ (e.1, e.2.stat)
  warmth := warmthAt s.registries.stats.warmth a.time
  rotation := s.rotations (plan.modelId s.config)
  draw := a.draw

/-- The answers to the questions whether a backend is available. -/
def answers (a : Arrival) : Answers Entry :=
  answersAt s.registries.snoozes s.registries.circuits a.clock a.monotone

/-- What a request gets. -/
def reply (lib : Primitives) (p : Program) (q : ChatRequest) (a : Arrival) : Resolution :=
  match p s.config q with
  | none => .raised
  | some plan => plan.resolve lib s.config (s.moment plan a) (s.answers a)

/-- The candidates of a plan; none if it raises. -/
def candidates (plan : Plan) (a : Arrival) : List Entry :=
  match plan.model with
  | .str id =>
    (LocalGateway.candidates s.config (s.moment plan a) plan.prefs id plan.demand).getD []
  | _ => []

/-- The backends whose warmth a selection looks up. -/
def looked (plan : Plan) (a : Arrival) : List PyStr :=
  if plan.prefs.sort = some (py "cache") then (s.candidates plan a).map Entry.key
  else if affinityActive s.config (plan.cacheKey.getD []) then
    (((plan.selection s.config (s.moment plan a) (s.answers a)).getD []).filter fun b ↦
      b.reason ≠ py "ratelimited-fallback").map fun b ↦ b.entry.key
  else []

/-- The state after a selection: the lookups drop what is expired, and a selection that is not pinned takes
the next rotation. -/
def select (plan : Plan) (a : Arrival) : RouterState where
  registries :=
    { s.registries with
      stats := (s.registries.stats.warmBackendsFor (plan.cacheKey.getD []) (s.looked plan a)
        (cacheTtl s.config) a.time).1 }
  rotations :=
    if s.candidates plan a ≠ [] ∧
        ¬ Pinned s.config plan.prefs (plan.cacheKey.getD []) (s.candidates plan a) then
      Function.update s.rotations (plan.modelId s.config) (s.rotations (plan.modelId s.config) + 1)
    else s.rotations

/-- The state after `record_cache_activity`. -/
def record (key : PyStr) (cacheKey : Option PyStr) (use : CacheUse) (cacheSupported : Option Bool)
    (now : ℚ) : RouterState :=
  { s with registries :=
    { s.registries with
      stats := s.registries.stats.recordCacheActivity key cacheKey use cacheSupported now } }

/-- The cache key under which the answer to a request is recorded; a request for a model that is not
there has no answer. -/
def recordKey (p : Program) (c : GatewayConfig) (q : ChatRequest) : Option PyStr :=
  (p c q).bind fun plan ↦ if (c.modelByValue plan.model).isSome then plan.cacheKey else none

/-- The state after an event. -/
def next (p : Program) : RouterState → RouterEvent → RouterState
  | s, .arrive q a => (p s.config q).elim s fun plan ↦ s.select plan a
  | s, .answered q provider model use cacheSupported now =>
    s.record (backendKey provider model) (recordKey p s.config q) use cacheSupported now
  | s, .operation provider model op => { s with registries := s.registries.perform provider model op }

end RouterState

/-! ### The two programs -/

section Programs

variable (lib : Primitives)

/-- The chat endpoint. -/
def gated : Program :=
  fun c q ↦ chatPlan lib c q.body q.conversation

/-- The cache key without gating: that of the conversation, or the fingerprint. -/
def plainCacheKey (c : GatewayConfig) (q : ChatRequest) : Option PyStr :=
  match conversationKey q.conversation with
  | some key => some key
  | none => fingerprint lib (filledBody c q.body)

/-- The chat endpoint without gating. -/
def plain : Program :=
  fun c q ↦ (requestedMaxTokens lib.decimal (filledBody c q.body)).map fun maxTokens ↦
    { model := logicalModel c q.body
      prefs := requestPrefs lib q.body
      demand := ⟨maxTokens, (estimateInputTokens lib c q.body).map (↑)⟩
      cacheKey := plainCacheKey lib c q }

/-- Both programs after the same event. -/
def nextBoth (s : RouterState × RouterState) (i : RouterEvent) : RouterState × RouterState :=
  (s.1.next (gated lib) i, s.2.next (plain lib) i)

/-- Both programs give a request the same reply: the same backends, or the same rejection. -/
def SameReply (s : RouterState × RouterState) : RouterEvent → Prop
  | .arrive q a => s.1.reply lib (gated lib) q a = s.2.reply lib (plain lib) q a
  | _ => True

/-! ### What may not be decided by the skipped values -/

/-- A key of a conversation. -/
def IsConversation (key : PyStr) : Prop :=
  py "conv:" <+: key

instance (key : PyStr) : Decidable (IsConversation key) :=
  inferInstanceAs (Decidable (_ <+: _))

/-- If the model that the request means needs no estimate, then neither does the model that is routed. -/
def EstimateHarmless (c : GatewayConfig) (q : ChatRequest) : Prop :=
  ∀ m m', modelCfg c q.body = some m → c.modelById m.id = some m' →
    inputEstimateNeeded (some m) (useCache c q.body) = true ∨ m'.Contextless

/-- Without cache affinity, a request of no conversation that sorts by the cache finds no hit rate under
its fingerprint for any backend that can serve it. -/
def FingerprintHarmless (s : RouterState) (q : ChatRequest) (a : Arrival) : Prop :=
  s.config.cacheAffinity = false → conversationKey q.conversation = none →
    ∀ plan id, plain lib s.config q = some plan → plan.model = .str id →
      plan.prefs.sort = some (py "cache") →
        ∀ e, Eligible s.config (s.moment plan a) plan.prefs id plan.demand e →
          hitRateOf s.config (s.moment plan a) (plan.cacheKey.getD []) e = .fin 0

/-- A record evicts the warmth of no conversation. -/
def KeepsConversations (s : RouterState) (key : PyStr) (cacheKey : Option PyStr) (use : CacheUse)
    (cacheSupported : Option Bool) (now : ℚ) : Prop :=
  ∀ k, cacheKey = some k → k ≠ [] → StatsRegistry.supportsCache cacheSupported use = true →
    ∀ l, StatsRegistry.evicted (s.registries.stats.warmed key k use now) = some l → ¬ IsConversation l

/-- The skipped values decide nothing at the event: no estimate is missing, no fingerprint has a hit rate,
and without cache affinity neither program evicts a conversation. -/
def Harmless (s : RouterState × RouterState) : RouterEvent → Prop
  | .arrive q a => EstimateHarmless s.2.config q ∧ FingerprintHarmless lib s.2 q a
  | .answered q provider model use cacheSupported now =>
    s.2.config.cacheAffinity = false →
      KeepsConversations s.1 (backendKey provider model) (RouterState.recordKey (gated lib) s.1.config q)
        use cacheSupported now ∧
      KeepsConversations s.2 (backendKey provider model) (RouterState.recordKey (plain lib) s.2.config q)
        use cacheSupported now
  | .operation provider model (.recordCacheActivity cacheKey use cacheSupported now) =>
    s.2.config.cacheAffinity = false →
      KeepsConversations s.1 (backendKey provider model) cacheKey use cacheSupported now ∧
        KeepsConversations s.2 (backendKey provider model) cacheKey use cacheSupported now
  | .operation _ _ _ => True

end Programs

/-! ### States that are alike -/

/-- The state with other warmth. -/
def RouterState.withWarmth (s : RouterState) (warmth : Dict PyStr Bucket) : RouterState :=
  { s with registries := { s.registries with stats := { s.registries.stats with warmth := warmth } } }

/-- The warmth of the conversations. -/
def SameConversations (warmth warmth' : Dict PyStr Bucket) : Prop :=
  ∀ key, IsConversation key → warmth'.get? key = warmth.get? key

/-- The states differ in no more than the warmth of keys of no conversation, and with cache affinity not
at all. -/
def Alike (s s' : RouterState) : Prop :=
  ∃ warmth, s' = s.withWarmth warmth ∧ SameConversations s.registries.stats.warmth warmth ∧
    (s.config.cacheAffinity = true → warmth = s.registries.stats.warmth)

section Alike

variable {s s' : RouterState}

theorem Alike.refl (s : RouterState) : Alike s s :=
  ⟨s.registries.stats.warmth, rfl, fun _ _ ↦ rfl, fun _ ↦ rfl⟩

theorem Alike.config_eq (h : Alike s s') : s'.config = s.config := by
  obtain ⟨warmth, rfl, -⟩ := h
  rfl

theorem Alike.eq_of_affinity (h : Alike s s') (haff : s.config.cacheAffinity = true) : s' = s := by
  obtain ⟨warmth, rfl, -, heq⟩ := h
  rw [heq haff]
  rfl

theorem Alike.conversations (h : Alike s s') :
    SameConversations s.registries.stats.warmth s'.registries.stats.warmth := by
  obtain ⟨warmth, rfl, hconv, -⟩ := h
  exact hconv

theorem Alike.rotations_eq (h : Alike s s') : s'.rotations = s.rotations := by
  obtain ⟨warmth, rfl, -⟩ := h
  rfl

theorem Alike.answers_eq (h : Alike s s') (a : Arrival) : s'.answers a = s.answers a := by
  obtain ⟨warmth, rfl, -⟩ := h
  rfl

/-- Without cache affinity, two states stay alike if the conversations do and the rest stays equal. -/
theorem Alike.after (h : Alike s s') (haff : s.config.cacheAffinity = false) {t t' : StatsRegistry}
    {r r' : PyStr → ℕ} (ht : t.stats = s.registries.stats.stats)
    (ht' : t'.stats = s'.registries.stats.stats) (hr : r' = r)
    (hconv : SameConversations t.warmth t'.warmth) :
    Alike ⟨{ s.registries with stats := t }, r⟩ ⟨{ s'.registries with stats := t' }, r'⟩ := by
  obtain ⟨warmth, rfl, -⟩ := h
  obtain ⟨stats, warmth⟩ := t
  obtain ⟨stats', warmth'⟩ := t'
  obtain rfl : stats' = stats := ht'.trans ht.symm
  subst hr
  exact ⟨warmth', rfl, hconv, fun htrue ↦ absurd (haff.symm.trans htrue) nofun⟩

theorem IsConversation.ne_nil {key : PyStr} (h : IsConversation key) : key ≠ [] := by
  rintro rfl
  exact absurd (List.prefix_nil.1 h) (by decide)

/-- A record keeps two states alike, if its keys are the same, or belong to no conversation without cache
affinity. -/
theorem Alike.record (h : Alike s s') {key : PyStr} {cacheKey cacheKey' : Option PyStr}
    {use : CacheUse} {cacheSupported : Option Bool} {now : ℚ}
    (hkeys : cacheKey' = cacheKey ∨ s.config.cacheAffinity = false ∧
      (∀ k, cacheKey = some k → ¬ IsConversation k) ∧ ∀ k, cacheKey' = some k → ¬ IsConversation k)
    (hkept : s.config.cacheAffinity = false →
      KeepsConversations s key cacheKey use cacheSupported now ∧
        KeepsConversations s' key cacheKey' use cacheSupported now) :
    Alike (s.record key cacheKey use cacheSupported now)
      (s'.record key cacheKey' use cacheSupported now) := by
  rcases haff : s.config.cacheAffinity with - | -
  · refine h.after haff (StatsRegistry.stats_recordCacheActivity _)
      (StatsRegistry.stats_recordCacheActivity _) h.rotations_eq fun l hl ↦ ?_
    obtain ⟨hkept, hkept'⟩ := hkept haff
    rw [StatsRegistry.get?_recordCacheActivity _ hl.ne_nil
        fun k hk hne hsupports hl' ↦ hkept k hk hne hsupports l hl' hl,
      StatsRegistry.get?_recordCacheActivity _ hl.ne_nil
        fun k hk hne hsupports hl' ↦ hkept' k hk hne hsupports l hl' hl, h.conversations l hl]
    rcases hkeys with rfl | ⟨-, hnot, hnot'⟩
    · rfl
    · rw [if_neg fun heq ↦ hnot' l heq.1 hl, if_neg fun heq ↦ hnot l heq.1 hl]
  · obtain rfl := h.eq_of_affinity haff
    rcases hkeys with rfl | ⟨hfalse, -⟩
    · exact .refl _
    · exact absurd (haff.symm.trans hfalse) nofun

/-- An operation keeps two states alike. -/
theorem Alike.perform (h : Alike s s') (provider model : PyStr) {op : BackendOp}
    (hop : ∀ cacheKey use cacheSupported now, op ≠ .recordCacheActivity cacheKey use cacheSupported now) :
    Alike ⟨s.registries.perform provider model op, s.rotations⟩
      ⟨s'.registries.perform provider model op, s'.rotations⟩ := by
  obtain ⟨warmth, rfl, hconv, heq⟩ := h
  cases op
  case recordCacheActivity => exact absurd rfl (hop _ _ _ _)
  all_goals exact ⟨warmth, rfl, hconv, heq⟩

end Alike

/-! ### The two plans of a request -/

section Plans

variable {lib : Primitives} {c : GatewayConfig} {q : ChatRequest} {plan : Plan}

/-- The plan with the estimate and with the key that gating skips. -/
def Plan.ungated (lib : Primitives) (c : GatewayConfig) (q : ChatRequest) (plan : Plan) : Plan :=
  { plan with
    demand := { plan.demand with inputTokens := (estimateInputTokens lib c q.body).map (↑) }
    cacheKey := plainCacheKey lib c q }

theorem plain_eq : plain lib c q = (gated lib c q).map (Plan.ungated lib c q) := by
  unfold plain gated chatPlan
  rw [Option.map_map]
  rfl

/-- No fingerprint is the key of a conversation: it has hexadecimal digits only. -/
theorem not_isConversation_fingerprint {body : PyDict} {key : PyStr}
    (h : fingerprint lib body = some key) : ¬ IsConversation key := by
  have hdigits : ∀ digest : PyBytes, 111 ∉ hexdigest digest := by
    intro digest hmem
    obtain ⟨x, -, hx⟩ := List.mem_flatMap.1 hmem
    have hlt := x.toNat_lt
    simp only [hexDigit, List.mem_cons, List.not_mem_nil, or_false] at hx
    split_ifs at hx <;> omega
  intro hconv
  have hmem : 111 ∈ key := hconv.subset (by decide)
  unfold fingerprint at h
  split at h
  · split_ifs at h
    simp only at h
    split_ifs at h
    rw [← Option.some.inj h] at hmem
    exact hdigits _ (List.mem_of_mem_take hmem)
  · cases h

theorem isConversation_of_conversationKey {id : Option PyStr} {key : PyStr}
    (h : conversationKey id = some key) : IsConversation key := by
  obtain ⟨id, -, rfl⟩ := Option.map_eq_some_iff.1 h
  exact List.prefix_append _ _

/-- The two keys: both that of the conversation, or the fingerprint with and without gating. -/
theorem cacheKey_cases (hplan : gated lib c q = some plan) :
    (∃ key, plan.cacheKey = some key ∧ plainCacheKey lib c q = some key ∧ IsConversation key) ∨
      conversationKey q.conversation = none ∧
        plan.cacheKey = (if c.cacheAffinity && (modelCfg c q.body).isSome then
          plainCacheKey lib c q else none) ∧
        ∀ key, plainCacheKey lib c q = some key → ¬ IsConversation key := by
  obtain ⟨maxTokens, -, rfl⟩ := Option.map_eq_some_iff.1 hplan
  simp only [chatCacheKey, plainCacheKey]
  rcases hconv : conversationKey q.conversation with - | key
  · exact .inr ⟨rfl, rfl, fun key hkey ↦ not_isConversation_fingerprint hkey⟩
  · exact .inl ⟨key, rfl, rfl, isConversation_of_conversationKey hconv⟩

/-- With cache affinity the keys are the same for a model that is there. -/
theorem cacheKey_of_affinity (hplan : gated lib c q = some plan) (haff : c.cacheAffinity = true)
    (hfound : (modelCfg c q.body).isSome) : plainCacheKey lib c q = plan.cacheKey := by
  rcases cacheKey_cases hplan with ⟨key, hkey, hkey', -⟩ | ⟨-, hkey, -⟩
  · rw [hkey, hkey']
  · rw [hkey, haff, hfound]
    rfl

/-- Without cache affinity no key makes it active. -/
theorem affinityActive_of_not {key : PyStr} (haff : c.cacheAffinity = false) :
    affinityActive c key = false := by
  rw [affinityActive, ← GatewayConfig.cacheAffinity, haff]
  rfl

/-- The estimate is there, or nothing asks for it. -/
theorem estimate_cases (hplan : gated lib c q = some plan) (h : EstimateHarmless c q) {id : PyStr}
    (hid : plan.model = .str id) {m : ModelConfig} (hm : c.modelById id = some m) :
    (plan.ungated lib c q).demand.inputTokens = plan.demand.inputTokens ∨ m.Contextless := by
  obtain ⟨maxTokens, -, rfl⟩ := Option.map_eq_some_iff.1 hplan
  obtain ⟨m', hcfg, rfl⟩ := modelCfg_of_logicalModel hid hm
  rcases h m' m hcfg hm with hneeded | hless
  · refine .inl ?_
    simp only [Plan.ungated, chatInputTokens, hcfg, hneeded, if_true]
  · exact .inr hless

end Plans

/-! ### Selections -/

section Selections

variable {lib : Primitives} {s s' : RouterState} {q : ChatRequest} {a : Arrival} {plan : Plan}

/-- Two states that are alike are the same moment but for the warmth. -/
theorem Alike.moment_eq (h : Alike s s') (lib : Primitives) (q : ChatRequest) (plan : Plan)
    (a : Arrival) :
    s'.moment (plan.ungated lib s.config q) a =
      (s.moment plan a).withWarmth (warmthAt s'.registries.stats.warmth a.time) := by
  obtain ⟨warmth, rfl, -⟩ := h
  rfl

/-- What both programs do with a request that is carried out. -/
structure Carried (lib : Primitives) (s s' : RouterState) (q : ChatRequest) (a : Arrival)
    (plan : Plan) : Prop where
  alike : Alike s s'
  gated : LocalGateway.gated lib s.config q = some plan
  estimate : EstimateHarmless s.config q
  fingerprint : FingerprintHarmless lib s' q a

variable (h : Carried lib s s' q a plan)

include h

theorem Carried.candidates_eq (id : PyStr) (hid : plan.model = .str id) :
    candidates s'.config (s'.moment (plan.ungated lib s.config q) a) plan.prefs id
        (plan.ungated lib s.config q).demand =
      candidates s.config (s.moment plan a) plan.prefs id plan.demand := by
  rw [h.alike.config_eq, h.alike.moment_eq]
  exact candidates_demand _ plan.demand _ fun m hm ↦ estimate_cases h.gated h.estimate hid hm

/-- A candidate is of a model that the request means. -/
theorem Carried.modelCfg_of_mem {id : PyStr} (hid : plan.model = .str id) {es : List Entry}
    (hes : candidates s.config (s.moment plan a) plan.prefs id plan.demand = some es) {e : Entry}
    (he : e ∈ es) : (modelCfg s.config q.body).isSome := by
  obtain ⟨m, slot, hm, -⟩ := (mem_candidates_iff _ _ _ _ _ hes e).1 he
  obtain ⟨maxTokens, -, rfl⟩ := Option.map_eq_some_iff.1 h.gated
  obtain ⟨m', hcfg, -⟩ := modelCfg_of_logicalModel hid hm
  rw [hcfg]
  rfl

/-- Without cache affinity the hit rates under the two keys are the same, as far as they are read. -/
theorem Carried.sameRates (haff : s.config.cacheAffinity = false) {id : PyStr}
    (hid : plan.model = .str id) {es : List Entry}
    (hes : candidates s.config (s.moment plan a) plan.prefs id plan.demand = some es) :
    SameRates s.config (s.moment plan a)
      ((s.moment plan a).withWarmth (warmthAt s'.registries.stats.warmth a.time)) plan.prefs
      (plan.cacheKey.getD []) ((plainCacheKey lib s.config q).getD []) es := by
  intro hsort e he
  rcases cacheKey_cases h.gated with ⟨key, hkey, hkey', hconv⟩ | ⟨hnone, hkey, -⟩
  · have hwarmth := h.alike.conversations key hconv
    rw [hkey, hkey']
    simp only [hitRateOf, liveWarmth, Moment.withWarmth, Option.getD_some, warmthAt, hwarmth]
    rfl
  · have hcold : hitRateOf s.config (s.moment plan a) (plan.cacheKey.getD []) e = .fin 0 := by
      rw [hkey, haff]
      rfl
    rw [hcold, ← h.alike.moment_eq lib q, ← h.alike.config_eq]
    have hplain : plain lib s'.config q = some (plan.ungated lib s'.config q) := by
      rw [plain_eq, h.alike.config_eq, h.gated]
      rfl
    have hes' := (h.candidates_eq id hid).trans hes
    rw [← h.alike.config_eq] at hes'
    exact h.fingerprint (h.alike.config_eq ▸ haff) hnone _ id hplain hid hsort e
      ((mem_candidates_iff _ _ _ _ _ hes' e).1 he)

/-- Both selections emit the same of the candidates. -/
theorem Carried.emit_eq {id : PyStr} (hid : plan.model = .str id) {es : List Entry}
    (hes : candidates s.config (s.moment plan a) plan.prefs id plan.demand = some es)
    (A : Answers Entry) :
    emit s'.config (s'.moment (plan.ungated lib s.config q) a) plan.prefs
        ((plainCacheKey lib s.config q).getD []) A es =
      emit s.config (s.moment plan a) plan.prefs (plan.cacheKey.getD []) A es := by
  rcases es with - | ⟨e, es⟩
  · rw [emit_nil, emit_nil]
  rcases haff : s.config.cacheAffinity with - | -
  · rw [h.alike.config_eq, h.alike.moment_eq]
    exact emit_warmth A (affinityActive_of_not haff) (affinityActive_of_not haff)
      (h.sameRates haff hid hes)
  · obtain rfl := h.alike.eq_of_affinity haff
    rw [cacheKey_of_affinity h.gated haff (h.modelCfg_of_mem hid hes (.head _))]
    rfl

/-- **Both programs select the same backends.** -/
theorem Carried.selection_eq :
    (plan.ungated lib s.config q).selection s'.config (s'.moment (plan.ungated lib s.config q) a)
        (s'.answers a) =
      plan.selection s.config (s.moment plan a) (s.answers a) := by
  by_cases hstr : ∃ id, plan.model = .str id
  · obtain ⟨id, hid⟩ := hstr
    rw [Plan.selection_of_str _ _ _ hid, (plan.ungated lib s.config q).selection_of_str _ _ hid,
      h.alike.answers_eq]
    have hes := h.candidates_eq id hid
    simp only [Plan.ungated] at hes ⊢
    rw [hes]
    rcases hc : candidates s.config (s.moment plan a) plan.prefs id plan.demand with - | es
    · rfl
    · have hemit := h.emit_eq hid hc (s.answers a)
      simp only [Plan.ungated] at hemit
      simp only [Option.bind_some, hemit]
  · rw [(plan.selection_cases ..).resolve_left hstr,
      ((plan.ungated lib s.config q).selection_cases ..).resolve_left hstr]

omit h in
/-- Where no context is configured, none is too small. -/
theorem contextTooSmall_contextless {c : GatewayConfig} {m : ModelConfig} (hm : m.Contextless)
    (d : Demand) : contextTooSmall c m d = none := by
  have hnone : ((servingBackends c m).filterMap fun b ↦ attrInt b.fields (py "context_length")) = [] := by
    refine List.filterMap_eq_nil_iff.2 fun b hb ↦ ?_
    obtain ⟨hb, henabled⟩ := List.mem_filter.1 hb
    exact hm b hb (Bool.and_eq_true_iff.1 henabled).1
  unfold contextTooSmall
  rw [hnone]
  rcases d.inputTokens with - | n <;> rfl

/-- **Both programs give the same reply.** -/
theorem Carried.resolve_eq :
    (plan.ungated lib s.config q).resolve lib s'.config (s'.moment (plan.ungated lib s.config q) a)
        (s'.answers a) =
      plan.resolve lib s.config (s.moment plan a) (s.answers a) := by
  have hsmall : ∀ m, s.config.modelByValue plan.model = some m →
      contextTooSmall s.config m (plan.ungated lib s.config q).demand =
        contextTooSmall s.config m plan.demand := by
    intro m hm
    unfold GatewayConfig.modelByValue at hm
    split at hm
    · next id hid =>
      rcases estimate_cases h.gated h.estimate hid hm with hsame | hless
      · unfold contextTooSmall
        rw [hsame]
        rfl
      · rw [contextTooSmall_contextless hless, contextTooSmall_contextless hless]
    · cases hm
  have hselection := h.selection_eq
  rw [h.alike.config_eq] at hselection ⊢
  have hmodel : (plan.ungated lib s.config q).model = plan.model := rfl
  unfold Plan.resolve
  rw [hselection, hmodel]
  rcases hm : s.config.modelByValue plan.model with - | m
  · rfl
  · simp only [hsmall m hm]
    rfl

theorem Carried.candidates_state_eq :
    s'.candidates (plan.ungated lib s.config q) a = s.candidates plan a := by
  unfold RouterState.candidates
  simp only [Plan.ungated]
  split
  · next id hid => exact congrArg (Option.getD · []) (h.candidates_eq id hid)
  · rfl

omit h in
/-- The candidates of a state, as the router finds them. -/
theorem mem_candidates_state_iff {e : Entry} :
    e ∈ s.candidates plan a ↔ ∃ id es, plan.model = .str id ∧
      candidates s.config (s.moment plan a) plan.prefs id plan.demand = some es ∧ e ∈ es := by
  unfold RouterState.candidates
  split
  · next id hid =>
    rcases hes : candidates s.config (s.moment plan a) plan.prefs id plan.demand with - | es
    · exact iff_of_false List.not_mem_nil fun ⟨_, _, hid', hes', _⟩ ↦ by
        obtain rfl := Json.str.inj (hid.symm.trans hid')
        rw [hes] at hes'
        cases hes'
    · refine ⟨fun he ↦ ⟨id, es, hid, hes, he⟩, fun ⟨_, _, hid', hes', he⟩ ↦ ?_⟩
      obtain rfl := Json.str.inj (hid.symm.trans hid')
      obtain rfl := Option.some.inj (hes.symm.trans hes')
      exact he
  · next hnot => exact iff_of_false List.not_mem_nil fun ⟨id, _, hid, _⟩ ↦ hnot id hid

omit h in
/-- Without candidates a selection changes nothing. -/
theorem RouterState.select_of_nil (hnil : s.candidates plan a = []) : s.select plan a = s := by
  have hselected : (plan.selection s.config (s.moment plan a) (s.answers a)).getD [] = [] := by
    rcases hl : plan.selection s.config (s.moment plan a) (s.answers a) with - | l
    · rfl
    · refine List.eq_nil_iff_forall_not_mem.2 fun b hb ↦ ?_
      obtain ⟨id, es, hid, hes, -, he, -⟩ :=
        plan.reaches_of_mem s.config _ hl (List.mem_map_of_mem hb)
      have hmem := mem_candidates_state_iff.2 ⟨id, es, hid, hes, he⟩
      rw [hnil] at hmem
      cases hmem
  have hlooked : s.looked plan a = [] := by
    rw [RouterState.looked, hnil, hselected]
    split_ifs <;> rfl
  unfold RouterState.select
  rw [hlooked, hnil, StatsRegistry.warmBackendsFor_nil, if_neg (by simp)]

/-- **A selection keeps the two programs alike.** -/
theorem Carried.select_alike :
    Alike (s.select plan a) (s'.select (plan.ungated lib s.config q) a) := by
  have hconfig := h.alike.config_eq
  have hcandidates := h.candidates_state_eq
  rcases haff : s.config.cacheAffinity with - | -
  · have hactive : ∀ key, affinityActive s.config key = false := fun _ ↦ affinityActive_of_not haff
    have hpinned : ∀ es, Pinned s.config plan.prefs ((plainCacheKey lib s.config q).getD []) es ↔
        Pinned s.config plan.prefs (plan.cacheKey.getD []) es := by
      intro es
      rw [Pinned, Pinned, hactive, hactive]
    have hlooked : s'.looked (plan.ungated lib s.config q) a = s.looked plan a := by
      rw [RouterState.looked, RouterState.looked, hconfig, hactive, hactive, hcandidates,
        if_neg Bool.false_ne_true, if_neg Bool.false_ne_true]
      rfl
    -- with affinity off the two look up different keys, which changes only what has expired under them
    refine h.alike.after haff (StatsRegistry.stats_warmBackendsFor _)
      (StatsRegistry.stats_warmBackendsFor _) ?_ fun l hl ↦ ?_
    · rw [hcandidates, hconfig, h.alike.rotations_eq]
      exact if_congr (and_congr_right fun _ ↦ not_congr (hpinned _)) rfl rfl
    · have hsame := h.alike.conversations l hl
      rw [hlooked, hconfig]
      rcases cacheKey_cases h.gated with ⟨key, hkey, hkey', -⟩ | ⟨-, hkey, hnot⟩
      · simp only [Plan.ungated, hkey, hkey', Option.getD_some]
        by_cases hlk : l = key
        · subst hlk
          exact StatsRegistry.get?_warmBackendsFor_self _ hsame
        · rw [StatsRegistry.get?_warmBackendsFor_of_ne _ hlk,
            StatsRegistry.get?_warmBackendsFor_of_ne _ hlk, hsame]
      · have hnone : plan.cacheKey = none := by
          rw [hkey, haff]
          rfl
        simp only [Plan.ungated, hnone, Option.getD_none, StatsRegistry.warmBackendsFor_no_key]
        rcases hplain : plainCacheKey lib s.config q with - | fp
        · rw [Option.getD_none, StatsRegistry.warmBackendsFor_no_key, hsame]
        · rw [Option.getD_some, StatsRegistry.get?_warmBackendsFor_of_ne, hsame]
          rintro rfl
          exact hnot l hplain hl
  · obtain rfl : s = s' := (h.alike.eq_of_affinity haff).symm
    -- with affinity on the gated key is the plain one
    rcases hes : s.candidates plan a with - | ⟨e, es⟩
    · rw [RouterState.select_of_nil hes, RouterState.select_of_nil (hcandidates.trans hes)]
      exact .refl _
    · obtain ⟨id, es', hid, hes', he⟩ := mem_candidates_state_iff.1 (hes ▸ List.mem_cons_self)
      have hkey := cacheKey_of_affinity h.gated haff (h.modelCfg_of_mem hid hes' he)
      have hlooked : s.looked (plan.ungated lib s.config q) a = s.looked plan a := by
        simp only [RouterState.looked, h.selection_eq, hcandidates]
        simp only [Plan.ungated, hkey]
      have hselect : s.select (plan.ungated lib s.config q) a = s.select plan a := by
        simp only [RouterState.select, hlooked, hcandidates]
        simp only [Plan.ungated, hkey]
        rfl
      rw [hselect]
      exact .refl _

end Selections

/-! ### Runs -/

section Runs

variable {lib : Primitives} {s : RouterState × RouterState} {i : RouterEvent}

/-- The plans of both programs for a request. -/
theorem plain_of_alike (h : Alike s.1 s.2) (q : ChatRequest) :
    plain lib s.2.config q =
      (gated lib s.1.config q).map (Plan.ungated lib s.1.config q) := by
  rw [plain_eq, h.config_eq]

theorem Harmless.carried (h : Alike s.1 s.2) {q : ChatRequest} {a : Arrival}
    (hi : Harmless lib s (.arrive q a)) {plan : Plan} (hplan : gated lib s.1.config q = some plan) :
    Carried lib s.1 s.2 q a plan where
  alike := h
  gated := hplan
  estimate := h.config_eq ▸ hi.1
  fingerprint := hi.2

/-- The keys under which the two programs record an answer. -/
theorem recordKey_cases (lib : Primitives) (c : GatewayConfig) (q : ChatRequest) :
    RouterState.recordKey (plain lib) c q = RouterState.recordKey (gated lib) c q ∨
      c.cacheAffinity = false ∧
        (∀ k, RouterState.recordKey (gated lib) c q = some k → ¬ IsConversation k) ∧
          ∀ k, RouterState.recordKey (plain lib) c q = some k → ¬ IsConversation k := by
  unfold RouterState.recordKey
  rw [plain_eq]
  rcases hplan : gated lib c q with - | plan
  · exact .inl rfl
  simp only [Option.map_some, Option.bind_some, Plan.ungated]
  split_ifs with hfound
  · rcases haff : c.cacheAffinity with - | -
    · rcases cacheKey_cases hplan with ⟨key, hkey, hkey', -⟩ | ⟨-, hkey, hnot⟩
      · exact .inl (hkey'.trans hkey.symm)
      · refine .inr ⟨rfl, fun k hk ↦ ?_, hnot⟩
        rw [hkey, haff] at hk
        cases hk
    · refine .inl (cacheKey_of_affinity hplan haff ?_)
      obtain ⟨m, hm⟩ := Option.isSome_iff_exists.1 hfound
      obtain ⟨maxTokens, -, rfl⟩ := Option.map_eq_some_iff.1 hplan
      unfold GatewayConfig.modelByValue at hm
      split at hm
      · next id hid =>
        obtain ⟨m', hcfg, -⟩ := modelCfg_of_logicalModel hid hm
        rw [hcfg]
        rfl
      · cases hm
  · exact .inl rfl

/-- **A harmless event keeps the two programs alike.** -/
theorem Harmless.alike (h : Alike s.1 s.2) (hi : Harmless lib s i) :
    Alike (nextBoth lib s i).1 (nextBoth lib s i).2 := by
  cases i with
  | arrive q a =>
    simp only [nextBoth, RouterState.next, plain_of_alike h]
    rcases hplan : gated lib s.1.config q with - | plan
    · exact h
    · exact (Harmless.carried h hi hplan).select_alike
  | answered q provider model use cacheSupported now =>
    have hkeys := recordKey_cases lib s.1.config q
    rw [Harmless, h.config_eq] at hi
    simp only [nextBoth, RouterState.next, h.config_eq]
    exact h.record hkeys hi
  | operation provider model op =>
    by_cases hop : ∃ cacheKey use cacheSupported now,
        op = .recordCacheActivity cacheKey use cacheSupported now
    · obtain ⟨cacheKey, use, cacheSupported, now, rfl⟩ := hop
      rw [Harmless, h.config_eq] at hi
      exact h.record (.inl rfl) hi
    · exact h.perform provider model fun cacheKey use cacheSupported now heq ↦
        hop ⟨cacheKey, use, cacheSupported, now, heq⟩

/-- **At a harmless event the two programs give the same reply.** -/
theorem Harmless.sameReply (h : Alike s.1 s.2) (hi : Harmless lib s i) : SameReply lib s i := by
  cases i with
  | arrive q a =>
    simp only [SameReply, RouterState.reply, plain_of_alike h]
    rcases hplan : gated lib s.1.config q with - | plan
    · rfl
    · exact (Harmless.carried h hi hplan).resolve_eq.symm
  | answered => trivial
  | operation => trivial

/-- **In a run of harmless events from one state, gating is transparent**: both programs give every request
the same reply. -/
theorem replies_agree {s : RouterState} {is : List RouterEvent}
    (h : Runs.Every (nextBoth lib) (fun _ ↦ Harmless lib) (s, s) is) :
    Runs.Every (nextBoth lib) (fun _ ↦ SameReply lib) (s, s) is :=
  Runs.every_of_invariant (fun _ s ↦ Alike s.1 s.2) (.refl s)
    (fun _ _ _ halike hi ↦ hi.alike halike) (fun _ _ _ halike hi ↦ hi.sameReply halike) h

end Runs

/-! ### A gateway without cache affinity -/

/-- Two backends of one tier. -/
def twoBackends : GatewayConfig :=
  plainGateway plainServer [plainBackend (py "a") 1, plainBackend (py "b") 1]

/-- Its state before the first request. -/
def freshRouter : RouterState where
  registries := ⟨twoBackends, .empty, .initial, .initial⟩
  rotations _ := 0

/-- An arrival at which all clocks stand still. -/
def quietArrival : Arrival where
  floats := exactFloats
  zone _ := some (0, 0)
  tps := []
  draw _ := .fin 0
  time := 0
  clock _ := 0
  monotone := monotone_still

/-- A request that sorts by the cache. -/
def cacheSorted (conversation : Option PyStr) : ChatRequest where
  body :=
    [(py "model", .str (py "m")),
      (py "provider", .obj [(py "sort", .str (py "cache"))]),
      (py "messages", .arr [.obj [(py "role", .str (py "user")), (py "content", .str (py "hi"))]])]
  conversation := conversation

/-- The request is answered by the second backend, from its cache, and is sent again. -/
def sentTwice (q : ChatRequest) : List RouterEvent :=
  [.arrive q quietArrival, .answered q (py "b") (py "x") ⟨some 5, none, some 5⟩ none 0,
    .arrive q quietArrival]

/-- In a conversation both programs send it to the backend that has answered. -/
theorem replies_agree_sample :
    Runs.Every (nextBoth plainPrimitives) (fun _ ↦ SameReply plainPrimitives)
      (freshRouter, freshRouter) (sentTwice (cacheSorted (some (py "c")))) := by
  have hestimate : EstimateHarmless twoBackends (cacheSorted (some (py "c"))) := by
    intro m m' _ hm'
    have hmem : m' ∈ twoBackends.models := by
      rcases Option.or_eq_some_iff.1 hm' with h | ⟨-, h⟩
      · exact List.mem_of_find?_eq_some h
      · exact List.mem_of_find?_eq_some h
    obtain rfl := List.mem_singleton.1 hmem
    refine .inr fun b hb _ ↦ ?_
    rcases List.mem_cons.1 hb with rfl | hb
    · decide +kernel
    · obtain rfl := List.mem_singleton.1 hb
      decide +kernel
  have hnone : conversationKey (cacheSorted (some (py "c"))).conversation ≠ none := by
    decide
  refine replies_agree (Runs.every_cons_iff.2 ⟨⟨hestimate, fun _ h ↦ absurd h hnone⟩,
    Runs.every_cons_iff.2 ⟨fun _ ↦ ⟨?_, ?_⟩,
      Runs.every_cons_iff.2 ⟨⟨hestimate, fun _ h ↦ absurd h hnone⟩, Runs.every_nil _ _⟩⟩⟩)
  all_goals
    intro k hk _ _ l hl
    have hkey : some k = some (py "conv:c") := hk.symm.trans (by decide +kernel)
    obtain rfl := Option.some.inj hkey
    have hkept : StatsRegistry.evicted (StatsRegistry.initial.warmed (backendKey (py "b") (py "x"))
        (py "conv:c") ⟨some 5, none, some 5⟩ 0) = none := by
      decide +kernel
    exact absurd (hkept.symm.trans hl) nofun

/-- Outside of a conversation only the plain program does: the gated one has recorded nothing, and sorts by
nothing. -/
theorem not_replies_agree_sentTwice :
    ¬ Runs.Every (nextBoth plainPrimitives) (fun _ ↦ SameReply plainPrimitives)
      (freshRouter, freshRouter) (sentTwice (cacheSorted none)) := by
  intro h
  have hreply := h ((sentTwice (cacheSorted none)).take 2) _ [] rfl
  exact absurd hreply (by unfold SameReply; decide +kernel)

end LocalGateway
