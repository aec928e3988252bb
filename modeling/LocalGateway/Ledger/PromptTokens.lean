import LocalGateway.Ledger.Billing

/-!
# The tokens of a prompt

A provider reports the tokens of a prompt, and how many of them it has read from its cache and written to it,
under five names: `cache_read_input_tokens`, and `cached_tokens` or `cache_read_tokens` of the details, are
reads, `cache_creation_input_tokens`, and `cache_write_tokens` of the details, are writes. `usage_from_dict`
merges them, `_compute_cost` charges each kind at its own price, and where no price for reads is known the whole
prompt is logged as read.

* `Charges`: the counts that `_compute_cost` charges; `computeCost_eq` says that it does nothing else.
* `countedOnce_iff`: when the row of a chat reply adds up to the prompt and each token has been charged as what
  it was reported as.
-/

namespace LocalGateway

open Py Json

/-! ### What is charged -/

/-- Counts of tokens, by the price that they are charged at. -/
structure Charges where
  uncached : ℤ
  reads : ℤ
  writes : ℤ
  output : ℤ
deriving DecidableEq

/-- Each count times its price. -/
def Charges.cost (fl : Arith) (prices : Prices) (c : Charges) : Option PyFloat := do
  let regular ← fl.times c.uncached prices.input
  let read ← fl.times c.reads prices.cacheRead
  let write ← fl.times c.writes prices.cacheWrite
  let out ← fl.times c.output prices.output
  pure (fl.add (fl.add (fl.add regular read) write) out)

/-- What `_compute_cost` charges, if both counts are known. -/
def charged (u : StreamUsage) : Option Charges :=
  match u.inputTokens, u.outputTokens with
  | some input, some output =>
    let reads := u.cachedTokens.getD 0
    let writes := u.cacheWriteTokens.getD 0
    some ⟨max (input - reads - writes) 0, reads, writes, output⟩
  | _, _ => none

/-- The cost is that of the charged counts. -/
theorem computeCost_eq (fl : Arith) (pricing : Attrs pricingClass) (u : StreamUsage) :
    computeCost fl pricing u =
      match charged u with
      | some c => (c.cost fl (.ofEntry pricing)).map some
      | none => some none := by
  obtain ⟨- | input, - | output, -, -, -⟩ := u <;> rfl

/-! ### What is reported -/

/-- A field of a usage object for a count: it is missing, null or a count. -/
def IsCountField : Option Json → Prop
  | none | some .null => True
  | some (.int n) => 0 ≤ n
  | some _ => False

/-- The count under a key of `prompt_tokens_details`. -/
def detailCount (usage : PyDict) (k : PyStr) : Option ℤ :=
  (dictAt usage (py "prompt_tokens_details")).bind fun d ↦ countOf (get? d k)

/-- The tokens that are reported as read from the cache. -/
def reportedReads (usage : PyDict) : Option ℤ :=
  (countOf (get? usage (py "cache_read_input_tokens"))).or
    ((detailCount usage (py "cached_tokens")).or (detailCount usage (py "cache_read_tokens")))

/-- The tokens that are reported as written to the cache. -/
def reportedWrites (usage : PyDict) : Option ℤ :=
  (countOf (get? usage (py "cache_creation_input_tokens"))).or (detailCount usage (py "cache_write_tokens"))

/-- A usage object with both counts, whose other counts are not negative, and whose reads and writes are tokens
of the prompt. -/
structure PromptReport where
  usage : PyDict
  prompt : ℤ
  completion : ℤ
  prompt_eq : get? usage (py "prompt_tokens") = some (.int prompt)
  completion_eq : get? usage (py "completion_tokens") = some (.int completion)
  fields : ∀ k ∈ [py "cache_read_input_tokens", py "cache_creation_input_tokens"],
    IsCountField (get? usage k)
  details : ∀ d, dictAt usage (py "prompt_tokens_details") = some d →
    ∀ k ∈ [py "cached_tokens", py "cache_read_tokens", py "cache_write_tokens"], IsCountField (get? d k)
  le : (reportedReads usage).getD 0 + (reportedWrites usage).getD 0 ≤ prompt

namespace PromptReport

variable (p : PromptReport)

/-- The tokens read from the cache. -/
def reads : ℤ :=
  (reportedReads p.usage).getD 0

/-- The tokens written to the cache. -/
def writes : ℤ :=
  (reportedWrites p.usage).getD 0

/-- Each token as what it was reported as. -/
def charges : Charges :=
  ⟨p.prompt - p.reads - p.writes, p.reads, p.writes, p.completion⟩

end PromptReport

theorem countOf_nonneg {v : Option Json} (h : IsCountField v) {n : ℤ} (hn : countOf v = some n) : 0 ≤ n := by
  rcases v with - | - | b | m | x | s | xs | d
  · cases hn
  · cases hn
  · exact h.elim
  · obtain rfl : m = n := Option.some.inj hn
    exact h
  · cases hn
  · cases hn
  · cases hn
  · cases hn

/-- `a or b`, of counts: the first unless it is 0. -/
theorem countOf_orValue {a b : Option Json} (ha : IsCountField a) :
    countOf (orValue a b) = if (countOf a).getD 0 = 0 then countOf b else countOf a := by
  rcases a with - | - | c | m | x | s | xs | d
  · rfl
  · rfl
  · exact ha.elim
  · by_cases hm : m = 0
    · subst hm
      rfl
    · have htruthy : truthy (.int m) = true := by simp [truthy, hm]
      simp [orValue, htruthy, countOf, hm]
  · exact ha.elim
  · exact ha.elim
  · exact ha.elim
  · exact ha.elim

namespace PromptReport

variable (p : PromptReport)

theorem detailCount_nonneg {k : PyStr}
    (hk : k ∈ [py "cached_tokens", py "cache_read_tokens", py "cache_write_tokens"]) {n : ℤ}
    (hn : detailCount p.usage k = some n) : 0 ≤ n := by
  obtain ⟨d, hd, hn⟩ := Option.bind_eq_some_iff.1 hn
  exact countOf_nonneg (p.details d hd k hk) hn

theorem reads_nonneg : 0 ≤ p.reads := by
  unfold reads
  rcases h : reportedReads p.usage with - | n
  · exact le_rfl
  · rcases Option.or_eq_some_iff.1 h with hn | ⟨-, h⟩
    · exact countOf_nonneg (p.fields _ (by simp)) hn
    · rcases Option.or_eq_some_iff.1 h with hn | ⟨-, hn⟩
      · exact p.detailCount_nonneg (by simp) hn
      · exact p.detailCount_nonneg (by simp) hn

theorem writes_nonneg : 0 ≤ p.writes := by
  unfold writes
  rcases h : reportedWrites p.usage with - | n
  · exact le_rfl
  · rcases Option.or_eq_some_iff.1 h with hn | ⟨-, hn⟩
    · exact countOf_nonneg (p.fields _ (by simp)) hn
    · exact p.detailCount_nonneg (by simp) hn

/-- The writes as `usage_from_dict` finds them: `cache_read_tokens` stands in for `cache_write_tokens`. -/
theorem cacheWriteTokens_eq : (usageFromDict p.usage).cacheWriteTokens =
    (countOf (get? p.usage (py "cache_creation_input_tokens"))).or
      (if (detailCount p.usage (py "cache_write_tokens")).getD 0 = 0 then
        detailCount p.usage (py "cache_read_tokens")
      else detailCount p.usage (py "cache_write_tokens")) := by
  refine congrArg (Option.or _) ?_
  unfold detailCount
  rcases hd : dictAt p.usage (py "prompt_tokens_details") with - | d
  · rfl
  · exact countOf_orValue (p.details d hd (py "cache_write_tokens") (by simp))

end PromptReport

/-! ### Reads that pass for writes -/

/-- No count of `cache_read_tokens`, or none that is looked at: there are reads under another name, and writes
under one of their own. -/
def KeepsApart (usage : PyDict) : Prop :=
  (detailCount usage (py "cache_read_tokens")).getD 0 = 0 ∨
    ((countOf (get? usage (py "cache_read_input_tokens"))).isSome ∨
        (detailCount usage (py "cached_tokens")).isSome) ∧
      ((countOf (get? usage (py "cache_creation_input_tokens"))).isSome ∨
        (detailCount usage (py "cache_write_tokens")).getD 0 ≠ 0)

/-- A count that comes last makes no difference if it is 0, or if another one comes before it. -/
theorem getD_or_eq_iff (a b c : Option ℤ) :
    (a.or b).getD 0 = (a.or (b.or c)).getD 0 ↔ c.getD 0 = 0 ∨ a.isSome ∨ b.isSome := by
  rcases a with - | a
  · rcases b with - | b
    · simp [eq_comm]
    · simp
  · simp

/-- A count that stands in for one that is 0 makes no difference if it is 0 too, or if it does not. -/
theorem getD_or_ite_eq_iff (a b c : Option ℤ) :
    (a.or (if b.getD 0 = 0 then c else b)).getD 0 = (a.or b).getD 0 ↔
      c.getD 0 = 0 ∨ a.isSome ∨ b.getD 0 ≠ 0 := by
  rcases a with - | a
  · by_cases hb : b.getD 0 = 0
    · simp [hb]
    · simp [hb]
  · simp

namespace PromptReport

variable (p : PromptReport)

/-- **The counts are charged as they were reported** exactly if no reads pass for writes. -/
theorem charged_eq_iff : charged (usageFromDict p.usage) = some p.charges ↔ KeepsApart p.usage := by
  have hinput : (usageFromDict p.usage).inputTokens = some p.prompt :=
    congrArg countOf p.prompt_eq
  have houtput : (usageFromDict p.usage).outputTokens = some p.completion :=
    congrArg countOf p.completion_eq
  have hreads : (usageFromDict p.usage).cachedTokens.getD 0 = p.reads ↔
      (detailCount p.usage (py "cache_read_tokens")).getD 0 = 0 ∨
        (countOf (get? p.usage (py "cache_read_input_tokens"))).isSome ∨
          (detailCount p.usage (py "cached_tokens")).isSome :=
    getD_or_eq_iff _ _ _
  have hwrites : (usageFromDict p.usage).cacheWriteTokens.getD 0 = p.writes ↔
      (detailCount p.usage (py "cache_read_tokens")).getD 0 = 0 ∨
        (countOf (get? p.usage (py "cache_creation_input_tokens"))).isSome ∨
          (detailCount p.usage (py "cache_write_tokens")).getD 0 ≠ 0 := by
    rw [p.cacheWriteTokens_eq]
    exact getD_or_ite_eq_iff _ _ _
  rw [KeepsApart, or_and_left, ← hreads, ← hwrites, charged, hinput, houtput]
  simp only [charges, Option.some.injEq, Charges.mk.injEq, and_true]
  constructor
  · rintro ⟨-, hr, hw⟩
    exact ⟨hr, hw⟩
  · rintro ⟨hr, hw⟩
    have hle : p.reads + p.writes ≤ p.prompt := p.le
    exact ⟨by rw [hr, hw]; omega, hr, hw⟩

end PromptReport

/-! ### Rows that add up -/

/-- The counts of a row for a prompt of so many tokens: what was read from the cache and written to it is a part
of the input, as `_compute_cost` takes it, or stands beside it. -/
def UsageRow.AddsUp (r : UsageRow) (prompt : ℤ) : Prop :=
  let input := r.usage.inputTokens.getD 0
  let reads := r.usage.cachedTokens.getD 0
  let writes := r.usage.cacheWriteTokens.getD 0
  input = prompt ∧ reads + writes ≤ input ∨ input + reads + writes = prompt

/-- A row whose counts add up to the prompt, and whose cost is that of the tokens as they were reported. -/
structure CountedOnce (sv : Service) (e : Entry) (p : PromptReport) (u : StreamUsage) (row : UsageRow) :
    Prop where
  addsUp : row.AddsUp p.prompt
  charged : charged u = some p.charges
  cost : ∃ x, p.charges.cost sv.arith (.ofEntry (sv.pricing e)) = some x ∧ row.cost = some x

/-- The counts of the usage that a reply has. -/
structure Carries (u : StreamUsage) (p : PromptReport) : Prop where
  input : u.inputTokens = (usageFromDict p.usage).inputTokens
  output : u.outputTokens = (usageFromDict p.usage).outputTokens
  cached : u.cachedTokens = (usageFromDict p.usage).cachedTokens
  cacheWrite : u.cacheWriteTokens = (usageFromDict p.usage).cacheWriteTokens

section Rows

variable {sv : Service} {e : Entry} {p : PromptReport} {u : StreamUsage}

theorem Carries.charged_eq (h : Carries u p) : charged u = charged (usageFromDict p.usage) := by
  unfold charged
  rw [h.input, h.output, h.cached, h.cacheWrite]

theorem chatRow_usage {latency : ℕ} {stream : Bool} {row : UsageRow}
    (h : sv.chatRow e u latency stream = some row) : row.usage = shiftLogged (sv.pricing e) u := by
  simp only [Service.chatRow, Option.bind_eq_bind, Option.bind_eq_some_iff] at h
  obtain ⟨cost, -, h⟩ := h
  split_ifs at h
  rw [← Option.some.inj h]
  rfl

/-- A usage with the counts of a report makes a row that counts each token once unless reads pass for writes, or
reads and writes are counted beside a prompt that counts as read. -/
theorem Carries.row_countedOnce_iff (h : Carries u p) {latency : ℕ} {stream : Bool} {row : UsageRow}
    (hrow : sv.chatRow e u latency stream = some row) :
    CountedOnce sv e p u row ↔ KeepsApart p.usage ∧
      (lacksCacheRead (sv.pricing e) = true → p.reads = 0 ∧ p.writes = 0) := by
  have hinput : u.inputTokens = some p.prompt := h.input.trans (congrArg countOf p.prompt_eq)
  have hcharged : charged u = some p.charges ↔ KeepsApart p.usage := by
    rw [h.charged_eq, p.charged_eq_iff]
  have hcost : charged u = some p.charges →
      ∃ x, p.charges.cost sv.arith (.ofEntry (sv.pricing e)) = some x ∧ row.cost = some x := fun hc ↦ by
    have heq := chatRow_eq_some hrow
    rw [computeCost_eq, hc] at heq
    obtain ⟨x, hx, hxrow⟩ := Option.map_eq_some_iff.1 heq
    exact ⟨x, hx, hxrow.symm⟩
  have hadds : charged u = some p.charges → (row.AddsUp p.prompt ↔
      (lacksCacheRead (sv.pricing e) = true → p.reads = 0 ∧ p.writes = 0)) := fun hc ↦ by
    have hcounts : u.cachedTokens.getD 0 = p.reads ∧ u.cacheWriteTokens.getD 0 = p.writes := by
      obtain ⟨output, houtput⟩ : ∃ output, u.outputTokens = some output :=
        ⟨p.completion, h.output.trans (congrArg countOf p.completion_eq)⟩
      simp only [LocalGateway.charged, hinput, houtput, Option.some.injEq, PromptReport.charges,
        Charges.mk.injEq] at hc
      exact ⟨hc.2.1, hc.2.2.1⟩
    have hreads := p.reads_nonneg
    have hwrites := p.writes_nonneg
    have hle : p.reads + p.writes ≤ p.prompt := p.le
    unfold UsageRow.AddsUp
    rw [chatRow_usage hrow, shiftLogged, hinput]
    -- without a price for reads the whole prompt is logged as cached, on top of what was
    rcases hlacks : lacksCacheRead (sv.pricing e) with - | -
    · simp [hinput, hcounts.1, hcounts.2, hle]
    · rcases eq_or_ne p.prompt 0 with hzero | hne
      · simp [hzero, hinput, hcounts.1, hcounts.2]
        omega
      · simp [hne, hcounts.1, hcounts.2]
        omega
  constructor
  · intro hcounted
    exact ⟨hcharged.1 hcounted.charged, (hadds hcounted.charged).1 hcounted.addsUp⟩
  · rintro ⟨happart, hlacks⟩
    have hc := hcharged.2 happart
    exact ⟨(hadds hc).2 hlacks, hc, hcost hc⟩

end Rows

/-! ### Replies with one usage object -/

/-- The usage object of an event. -/
def usageObjectOf (loads : Decoder) (ev : SSEEvent) : Option PyDict :=
  (eventObj loads ev).bind fun d ↦ dictAt d (py "usage")

theorem bind_eventUsage (loads : Decoder) (g : StreamUsage → Option ℤ) :
    (fun ev ↦ (eventUsage loads ev).bind g) =
      fun ev ↦ (usageObjectOf loads ev).bind fun usage ↦ g (usageFromDict usage) := by
  funext ev
  unfold eventUsage usageObjectOf
  rcases eventObj loads ev with - | d
  · rfl
  · exact Option.bind_map

/-- What a stream reports is what the last usage object says, or what those before it do. -/
theorem lastReport_append_cons {loads : Decoder} (evs₁ : List SSEEvent) {evs₂ : List SSEEvent} {ev : SSEEvent}
    {usage : PyDict} (hev : usageObjectOf loads ev = some usage)
    (hnone : ∀ ev' ∈ evs₂, usageObjectOf loads ev' = none) (g : StreamUsage → Option ℤ) :
    lastReport (fun ev ↦ (eventUsage loads ev).bind g) (evs₁ ++ ev :: evs₂) =
      (g (usageFromDict usage)).or (lastReport (fun ev ↦ (eventUsage loads ev).bind g) evs₁) := by
  have hlast : evs₂.filterMap (fun ev ↦ (usageObjectOf loads ev).bind fun usage ↦ g (usageFromDict usage)) =
      [] :=
    List.filterMap_eq_nil_iff.2 fun ev' hev' ↦ by rw [hnone ev' hev']; rfl
  rw [bind_eventUsage, lastReport, lastReport, List.filterMap_append, List.filterMap_cons, hev, Option.bind_some,
    hlast]
  rcases g (usageFromDict usage) with - | n
  · simp
  · simp

/-- With one usage object, it is what a stream reports. -/
theorem lastReport_of_singleton {loads : Decoder} {evs : List SSEEvent} {usage : PyDict}
    (h : evs.filterMap (usageObjectOf loads) = [usage]) (g : StreamUsage → Option ℤ) :
    lastReport (fun ev ↦ (eventUsage loads ev).bind g) evs = g (usageFromDict usage) := by
  rw [lastReport, bind_eventUsage, ← List.filterMap_filterMap, h]
  rcases hg : g (usageFromDict usage) with - | n
  · simp [hg]
  · simp [hg]

theorem carries_of_body {loads : Decoder} {body : PyBytes} {d : PyDict} {p : PromptReport}
    (hbody : loads.body body = some (.obj d)) (husage : dictAt d (py "usage") = some p.usage) :
    Carries (extractUsage loads body) p := by
  rw [extractUsage_of_usage hbody husage]
  exact ⟨rfl, rfl, rfl, rfl⟩

theorem carries_of_done {loads : Decoder} {chunks : List PyBytes} {ending : StreamEnd} {u : StreamUsage}
    {sent : Bool} {p : PromptReport} (hdone : .done u sent ∈ callProviderStream loads (.streamed chunks ending))
    (husage : (SSEParser.parse chunks).filterMap (usageObjectOf loads) = [p.usage]) : Carries u p := by
  obtain ⟨lengths, -, rfl⟩ := usage_of_done loads hdone
  have houtput : (usageFromDict p.usage).outputTokens = some p.completion := congrArg countOf p.completion_eq
  refine ⟨lastReport_of_singleton husage _, ?_, lastReport_of_singleton husage _,
    lastReport_of_singleton husage _⟩
  -- the output is reported, so it is not estimated
  show (lastReport _ _).or _ = _
  rw [lastReport_of_singleton husage StreamUsage.outputTokens, houtput]
  rfl

/-- The report `{"prompt_tokens": 1, "completion_tokens": 2}`. -/
def usageReport : PromptReport where
  usage := usageCounts
  prompt := 1
  completion := 2
  prompt_eq := rfl
  completion_eq := rfl
  fields k hk := by
    rcases List.mem_pair.1 hk with rfl | rfl
    · trivial
    · trivial
  details d hd := by cases hd
  le := by decide

/-- A prompt of 10 tokens, 4 of which are reported under a key of the details. -/
def detailedCounts (k : PyStr) : PyDict :=
  [(py "prompt_tokens", .int 10), (py "completion_tokens", .int 1),
    (py "prompt_tokens_details", .obj [(k, .int 4)])]

/-- The 4 tokens are reads. -/
def detailedReport (k : PyStr) (hk : k = py "cached_tokens" ∨ k = py "cache_read_tokens") : PromptReport where
  usage := detailedCounts k
  prompt := 10
  completion := 1
  prompt_eq := rfl
  completion_eq := rfl
  fields l hl := by
    rcases List.mem_pair.1 hl with rfl | rfl
    · trivial
    · trivial
  details d hd l _ := by
    obtain rfl : [(k, .int 4)] = d := Option.some.inj hd
    by_cases h : k = l
    · simp [get?, h, IsCountField]
    · have hne : (l == k) = false := beq_eq_false_iff_ne.2 (Ne.symm h)
      simp [get?, List.lookup_cons, hne, IsCountField]
  le := by
    rcases hk with rfl | rfl
    · decide
    · decide

/-- Reads cost 1 a token, and writes 2. -/
def cachePricedService : Service :=
  { pricedService helloText helloObject with
    config := { plainGateway plainServer [plainBackend (py "a") 1] with
      pricing := [(py "a:x", pricingClass.build
        [(py "cache_read", .float (.fin 1)), (py "cache_write", .float (.fin 2))] (by decide))] } }

end LocalGateway
