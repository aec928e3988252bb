import LocalGateway.Routing.Guarantees
import LocalGateway.Stream.Rewrite

/-!
# What a reply costs

The cost of a reply is the sum of its token counts, each times its price (`_compute_cost`), and it is
unknown if the count of the input or that of the output is. The estimate that stands in for a missing
count of the output is of no use without a count of the input, which has no estimate.

* `billed_iff`: the row of a chat reply has a positive cost exactly if the provider has reported the
  input, the output is reported or, in a stream, estimated, and the priced sum is positive.
-/

namespace LocalGateway

open Py Json

/-! ### Prices -/

/-- The prices `_compute_cost` works with; the two of the cache default to that of the input. -/
structure Prices where
  input : PyFloat
  output : PyFloat
  cacheRead : PyFloat
  cacheWrite : PyFloat
deriving DecidableEq

/-- `pricing.cache_read is None`. -/
def lacksCacheRead (pricing : Attrs pricingClass) : Bool :=
  (attrFloat pricing.fields (py "cache_read")).isNone

/-- The prices of a pricing entry. -/
def Prices.ofEntry (pricing : Attrs pricingClass) : Prices :=
  let price (name : String) := ((attrFloat pricing.fields (py name)).getD (.fin 0)).orElse (.fin 0)
  { input := price "input"
    output := price "output"
    cacheRead := (attrFloat pricing.fields (py "cache_read")).getD (price "input")
    cacheWrite := (attrFloat pricing.fields (py "cache_write")).getD (price "input") }

section Cost

variable (fl : Arith)

/-- `n * x`, of an `int` and a `float`. -/
def Arith.times (n : ℤ) (x : PyFloat) : Option PyFloat :=
  (fl.ofInt n).map (fl.mul · x)

/-- The priced sum of the counts of `_compute_cost`. -/
def pricedSum (prices : Prices) (input output cached cacheWrite : ℤ) : Option PyFloat := do
  let regular ← fl.times (max (input - cached - cacheWrite) 0) prices.input
  let read ← fl.times cached prices.cacheRead
  let write ← fl.times cacheWrite prices.cacheWrite
  let out ← fl.times output prices.output
  pure (fl.add (fl.add (fl.add regular read) write) out)

/-- `_compute_cost`; the outer `none` is the `OverflowError` of a count that has no float. -/
def computeCost (pricing : Attrs pricingClass) (u : StreamUsage) : Option (Option PyFloat) :=
  match u.inputTokens, u.outputTokens with
  | some input, some output =>
    (pricedSum fl (.ofEntry pricing) input output (u.cachedTokens.getD 0)
      (u.cacheWriteTokens.getD 0)).map some
  | _, _ => some none

/-- `compute_tps` does not raise: it divides a count of the output other than 0 by a time other
than 0. -/
def tpsReturns (output : Option ℤ) (latency : ℕ) : Bool :=
  output.all fun n ↦ n = 0 || latency = 0 || (fl.ofInt n).isSome

end Cost

/-! ### Rows -/

/-- A number SQLite can store. -/
def storableInt (n : ℤ) : Bool :=
  -2 ^ 63 ≤ n && n < 2 ^ 63

/-- The row can be written; the background writer drops a row whose values SQLite does not take. -/
def UsageRow.storable (r : UsageRow) : Bool :=
  [some r.logicalModel, some r.provider, some r.backendModel, r.error, r.caller.apiKeyId,
      r.caller.endUser, r.caller.requestId].all (fun s ↦ s.all textOk) &&
    [r.usage.inputTokens, r.usage.outputTokens, r.usage.reasoningTokens, r.usage.cachedTokens,
      r.usage.cacheWriteTokens].all fun n ↦ n.all storableInt

/-- What the gateway knows of a request while it tries backends. -/
structure Service where
  config : GatewayConfig
  loads : Decoder
  repr : FloatRepr
  arith : Arith
  logicalModel : PyStr
  caller : Caller
  /-- The estimate of the input, where it is made. -/
  inputTokens : Option ℤ

section Rows

variable (sv : Service) (e : Entry)

/-- The pricing entry of a backend. -/
def Service.pricing : Attrs pricingClass :=
  sv.config.pricingFor e.provider.id e.backend.model

/-- The counts of a chat reply as they are logged: without a price for cached input, all input counts
as cached. -/
def shiftLogged (pricing : Attrs pricingClass) (u : StreamUsage) : StreamUsage :=
  match u.inputTokens with
  | none => u
  | some n =>
    if lacksCacheRead pricing && n ≠ 0 then
      { u with inputTokens := some 0, cachedTokens := some (u.cachedTokens.getD 0 + n) }
    else u

/-- The row of a successful attempt. -/
def Service.successRow (u : StreamUsage) (cost : Option PyFloat) (stream : Bool) : UsageRow where
  logicalModel := sv.logicalModel
  provider := e.provider.id
  backendModel := e.backend.model
  success := true
  error := none
  usage := u
  cost := cost
  stream := stream
  caller := sv.caller
  cacheHit := false

/-- The row of a failed attempt. -/
def Service.failureRow (error : Option PyStr) (stream : Bool) : UsageRow :=
  { sv.successRow e .none none stream with success := false, error := error }

/-- The row of a chat reply; `none` is an exception. -/
def Service.chatRow (u : StreamUsage) (latency : ℕ) (stream : Bool) : Option UsageRow := do
  let cost ← computeCost sv.arith (sv.pricing e) u
  if tpsReturns sv.arith u.outputTokens latency then
    some (sv.successRow e (shiftLogged (sv.pricing e) u) cost stream)
  else none

end Rows

/-! ### Positive costs -/

/-- The row has a positive cost. -/
def UsageRow.Billed (r : UsageRow) : Prop :=
  ∃ x, r.cost = some x ∧ PyFloat.lt (.fin 0) x = true

/-- The priced sum of the counts is positive. -/
def Payable (fl : Arith) (prices : Prices) (input output : ℤ) (cached cacheWrite : Option ℤ) : Prop :=
  ∃ x, pricedSum fl prices input output (cached.getD 0) (cacheWrite.getD 0) = some x ∧
    PyFloat.lt (.fin 0) x = true

section Billed

variable {sv : Service} {e : Entry}

theorem chatRow_eq_some {u : StreamUsage} {latency : ℕ} {stream : Bool} {row : UsageRow}
    (h : sv.chatRow e u latency stream = some row) :
    computeCost sv.arith (sv.pricing e) u = some row.cost := by
  simp only [Service.chatRow, Option.bind_eq_bind, Option.bind_eq_some_iff] at h
  obtain ⟨cost, hcost, h⟩ := h
  split_ifs at h
  rw [hcost, ← Option.some.inj h]
  rfl

/-- A row has a positive cost if both counts are known and the priced sum is positive. -/
theorem billed_chatRow_iff {u : StreamUsage} {latency : ℕ} {stream : Bool} {row : UsageRow}
    (h : sv.chatRow e u latency stream = some row) :
    row.Billed ↔ ∃ input output, u.inputTokens = some input ∧ u.outputTokens = some output ∧
      Payable sv.arith (.ofEntry (sv.pricing e)) input output u.cachedTokens u.cacheWriteTokens := by
  have hcost := chatRow_eq_some h
  unfold computeCost at hcost
  unfold UsageRow.Billed Payable
  rcases hin : u.inputTokens with - | input <;> rcases hout : u.outputTokens with - | output <;>
    rw [hin, hout] at hcost
  · simp [← Option.some.inj hcost]
  · simp [← Option.some.inj hcost]
  · simp [← Option.some.inj hcost]
  · obtain ⟨x, hx, hrow⟩ := Option.map_eq_some_iff.1 hcost
    simp [← hrow, hx]

/-- The counts of a body without a usage object: there is at most an estimate of the output. -/
theorem extractUsage_inputTokens {loads : Decoder} {body : PyBytes} {n : ℤ}
    (h : (extractUsage loads body).inputTokens = some n) :
    ∃ d usage, loads.body body = some (.obj d) ∧ dictAt d (py "usage") = some usage := by
  unfold extractUsage at h
  split at h
  · next d hbody =>
    split at h
    · next usage husage => exact ⟨d, usage, hbody, husage⟩
    · -- whatever the content is, nothing is known of the input
      repeat' split at h
      all_goals cases h
  · cases h

theorem extractUsage_of_usage {loads : Decoder} {body : PyBytes} {d usage : PyDict}
    (hbody : loads.body body = some (.obj d)) (husage : dictAt d (py "usage") = some usage) :
    extractUsage loads body = usageFromDict usage := by
  simp only [extractUsage, hbody, husage]

/-- **Which chat replies are billed.** A reply that is not streamed has a positive cost exactly if its
body has a usage object with both counts and the priced sum is positive. A stream has one exactly if
some event reports the input, the output is reported or there is text to estimate it from, and the
priced sum of the last reports is positive. -/
theorem billed_iff (sv : Service) (e : Entry) :
    (∀ body latency row, sv.chatRow e (extractUsage sv.loads body) latency false = some row →
      (row.Billed ↔ ∃ d usage input output, sv.loads.body body = some (.obj d) ∧
        dictAt d (py "usage") = some usage ∧
        countOf (get? usage (py "prompt_tokens")) = some input ∧
        countOf (get? usage (py "completion_tokens")) = some output ∧
        Payable sv.arith (.ofEntry (sv.pricing e)) input output (usageFromDict usage).cachedTokens
          (usageFromDict usage).cacheWriteTokens)) ∧
    ∀ chunks ending u sent latency row,
      .done u sent ∈ callProviderStream sv.loads (.streamed chunks ending) →
      sv.chatRow e u latency true = some row →
      ∃ lengths, (SSEParser.parse chunks).mapM (eventLength sv.loads) = .ok lengths ∧
        (row.Billed ↔ ∃ input output,
          lastReport (fun ev ↦ (eventUsage sv.loads ev).bind StreamUsage.inputTokens)
            (SSEParser.parse chunks) = some input ∧
          (lastReport (fun ev ↦ (eventUsage sv.loads ev).bind StreamUsage.outputTokens)
              (SSEParser.parse chunks) = some output ∨
            lastReport (fun ev ↦ (eventUsage sv.loads ev).bind StreamUsage.outputTokens)
              (SSEParser.parse chunks) = none ∧ 0 < lengths.sum ∧
              output = estimateTokens lengths.sum) ∧
          Payable sv.arith (.ofEntry (sv.pricing e)) input output
            (lastReport (fun ev ↦ (eventUsage sv.loads ev).bind StreamUsage.cachedTokens)
              (SSEParser.parse chunks))
            (lastReport (fun ev ↦ (eventUsage sv.loads ev).bind StreamUsage.cacheWriteTokens)
              (SSEParser.parse chunks))) := by
  constructor
  · intro body latency row hrow
    rw [billed_chatRow_iff hrow]
    constructor
    · rintro ⟨input, output, hin, hout, hpay⟩
      obtain ⟨d, usage, hbody, husage⟩ := extractUsage_inputTokens hin
      rw [extractUsage_of_usage hbody husage] at hin hout hpay
      exact ⟨d, usage, input, output, hbody, husage, hin, hout, hpay⟩
    · rintro ⟨d, usage, input, output, hbody, husage, hin, hout, hpay⟩
      rw [extractUsage_of_usage hbody husage]
      exact ⟨input, output, hin, hout, hpay⟩
  · intro chunks ending u sent latency row hdone hrow
    obtain ⟨lengths, hlengths, rfl⟩ := usage_of_done sv.loads hdone
    refine ⟨lengths, hlengths, ?_⟩
    rw [billed_chatRow_iff hrow]
    simp only [reportedUsage]
    -- the output is the last report, or the estimate
    rcases hout : lastReport (fun ev ↦ (eventUsage sv.loads ev).bind StreamUsage.outputTokens)
      (SSEParser.parse chunks) with - | n
    · rcases Nat.eq_zero_or_pos lengths.sum with hzero | hpos
      · simp [hzero]
      · have hne : lengths.sum ≠ 0 := by omega
        simp [hne, hpos, eq_comm]
    · simp

end Billed

/-! ### A gateway with a price -/

/-- Arithmetic without rounding. -/
def Arith.exact : Arith :=
  { exactFloats with ofInt := fun n ↦ some (.fin n) }

/-- Without rounding, the priced sum of finite prices is the sum it says. -/
theorem payable_exact_iff (input output read write : ℚ) (i o : ℤ) (cached cacheWrite : Option ℤ) :
    Payable .exact ⟨.fin input, .fin output, .fin read, .fin write⟩ i o cached cacheWrite ↔
      0 < (max (i - cached.getD 0 - cacheWrite.getD 0) 0 : ℤ) * input + cached.getD 0 * read +
        cacheWrite.getD 0 * write + o * output := by
  simp [Payable, pricedSum, Arith.times, Arith.exact, exactFloats, PyFloat.lt, PyFloat.rat]
  exact decide_eq_true_iff

/-- A decoder that knows one text. -/
def Decoder.only (text : PyStr) (v : Json) : Decoder where
  text s := if s = text then some v else none
  body b := if utf8Decode b = text then some v else none

/-- `{"usage": {"prompt_tokens": 1, "completion_tokens": 2}}`, without the spaces. -/
def usageText : PyStr :=
  py "\x7b\"usage\":\x7b\"prompt_tokens\":1,\"completion_tokens\":2\x7d\x7d"

def usageCounts : PyDict :=
  [(py "prompt_tokens", .int 1), (py "completion_tokens", .int 2)]

def usageObject : Json :=
  .obj [(py "usage", .obj usageCounts)]

/-- A delta with the text `hello`, and no usage. -/
def helloText : PyStr :=
  py "\x7b\"choices\":[\x7b\"delta\":\x7b\"content\":\"hello\"\x7d\x7d]\x7d"

def helloObject : Json :=
  .obj [(py "choices", .arr [.obj [(py "delta", .obj [(py "content", .str (py "hello"))])]])]

/-- The output of backend `x` of provider `a` costs 1 a token. -/
def pricedService (text : PyStr) (v : Json) : Service where
  config := { plainGateway plainServer [plainBackend (py "a") 1] with
    pricing := [(py "a:x", pricingClass.build [(py "output", .float (.fin 1))] (by decide))] }
  loads := .only text v
  repr := .ofFraction
  arith := .exact
  logicalModel := py "m"
  caller := ⟨none, none, none⟩
  inputTokens := none

/-- The bytes of an event with the text. -/
def eventBytes (text : PyStr) : PyBytes :=
  (py "data: " ++ text ++ py "\n\n").map UInt8.ofNat

/-- The usage of the stream of the one event. -/
def streamUsage (text : PyStr) (v : Json) : Option StreamUsage :=
  match callProviderStream (pricedService text v).loads (.streamed [eventBytes text] .eof) with
  | [_, .done u _] => some u
  | _ => none

theorem mem_of_streamUsage {text : PyStr} {v : Json} {u : StreamUsage}
    (h : streamUsage text v = some u) : ∃ sent, .done u sent ∈
      callProviderStream (pricedService text v).loads (.streamed [eventBytes text] .eof) := by
  unfold streamUsage at h
  split at h
  · next ev u' sent heq =>
    obtain rfl := Option.some.inj h
    exact ⟨sent, by rw [heq]; simp⟩
  · cases h

/-- The counts `{"prompt_tokens": 1, "completion_tokens": 2}`. -/
def usageSample : StreamUsage :=
  ⟨some 1, some 2, none, none, none⟩

/-- A reply and a stream that report their usage. -/
theorem billed_sample :
    ∃ row row', (pricedService usageText usageObject).chatRow (plainEntry 0 (py "a") 1)
        (extractUsage (pricedService usageText usageObject).loads (usageText.map UInt8.ofNat)) 1 false =
          some row ∧ row.Billed ∧
      (pricedService usageText usageObject).chatRow (plainEntry 0 (py "a") 1) usageSample 1 true =
        some row' ∧ row'.Billed := by
  let sv := pricedService usageText usageObject
  let e := plainEntry 0 (py "a") 1
  have hprices : Prices.ofEntry (sv.pricing e) = ⟨.fin 0, .fin 1, .fin 0, .fin 0⟩ := by
    decide +kernel
  have hpay : Payable sv.arith (.ofEntry (sv.pricing e)) 1 2 none none := by
    rw [hprices]
    exact (payable_exact_iff 0 1 0 0 1 2 none none).2 (by norm_num)
  have husage : extractUsage sv.loads (usageText.map UInt8.ofNat) = usageSample := by decide +kernel
  obtain ⟨row, hrow⟩ : ∃ row, sv.chatRow e usageSample 1 false = some row := ⟨_, rfl⟩
  obtain ⟨row', hrow'⟩ : ∃ row', sv.chatRow e usageSample 1 true = some row' := ⟨_, rfl⟩
  refine ⟨row, row', husage ▸ hrow, ?_, hrow', ?_⟩
  · have hbody : sv.loads.body (usageText.map UInt8.ofNat) = some usageObject := by decide +kernel
    exact ((billed_iff sv e).1 _ 1 row (husage ▸ hrow)).2
      ⟨_, usageCounts, 1, 2, hbody, rfl, rfl, rfl, hpay⟩
  · obtain ⟨sent, hdone⟩ := mem_of_streamUsage
      (show streamUsage usageText usageObject = some usageSample by decide +kernel)
    obtain ⟨lengths, -, hbilled⟩ := (billed_iff sv e).2 _ _ usageSample sent 1 row' hdone hrow'
    have hin : lastReport (fun ev ↦ (eventUsage sv.loads ev).bind StreamUsage.inputTokens)
        (SSEParser.parse [eventBytes usageText]) = some 1 := by decide +kernel
    have hout : lastReport (fun ev ↦ (eventUsage sv.loads ev).bind StreamUsage.outputTokens)
        (SSEParser.parse [eventBytes usageText]) = some 2 := by decide +kernel
    have hnone : lastReport (fun ev ↦ (eventUsage sv.loads ev).bind StreamUsage.cachedTokens)
        (SSEParser.parse [eventBytes usageText]) = none ∧
      lastReport (fun ev ↦ (eventUsage sv.loads ev).bind StreamUsage.cacheWriteTokens)
        (SSEParser.parse [eventBytes usageText]) = none := by decide +kernel
    rw [hnone.1, hnone.2] at hbilled
    exact hbilled.2 ⟨1, 2, hin, .inl hout, hpay⟩

/-- **A stream that is not billed.** Its text is `hello`, it is served at a positive price, and the
output is estimated, but nothing is known of the input. -/
theorem not_billed_hello :
    ∃ u sent row, .done u sent ∈ callProviderStream (pricedService helloText helloObject).loads
        (.streamed [eventBytes helloText] .eof) ∧
      u.outputTokens = some 1 ∧
      (pricedService helloText helloObject).chatRow (plainEntry 0 (py "a") 1) u 1 true = some row ∧
      ¬ row.Billed := by
  obtain ⟨sent, hdone⟩ := mem_of_streamUsage (show streamUsage helloText helloObject =
    some { StreamUsage.none with outputTokens := some 1 } by decide +kernel)
  refine ⟨_, sent, _, hdone, rfl, rfl, ?_⟩
  rintro ⟨x, hx, -⟩
  cases hx

end LocalGateway
