import LocalGateway.Circuit.Breaker
import LocalGateway.Ledger.Reports
import LocalGateway.Metrics.Exposition
import LocalGateway.Stats.InFlight

/-!
# The metrics

The text of `/metrics` (`metrics.py`), from the registries of statistics, circuits and warm caches and from the usage
of the last day.

* `partitionKey_key`: a key is cut into the ids it was joined from if the provider has no colon.
* `parseLine_backend`: the line of a backend is parsed, whatever its ids are.
* `Scrape.parse_render`: without usage the whole text is parsed, and `Scrape.parsed` says to what.
-/

namespace LocalGateway

open Py Exposition
open Json (natRepr intRepr FloatRepr)

/-! ### The circuits -/

/-- `configure_from_config`. -/
def Breaker.configureFromConfig (s : Breaker) (c : GatewayConfig) : Breaker :=
  s.configure (attrBool c.server.attrs.fields (py "circuit_breaker_enabled"))
    ((attrInt c.server.attrs.fields (py "circuit_breaker_threshold")).getD 3)
    ((attrFloat c.server.attrs.fields (py "circuit_breaker_backoff_s")).getD (.fin 60))

/-! ### `_render` -/

/-- `s.replace(c, new)`, for one character. -/
def replaceChar (c : ℕ) (new s : PyStr) : PyStr :=
  s.flatMap fun d ↦ if d = c then new else [d]

/-- `_esc_label`. -/
def escLabel (v : PyStr) : PyStr :=
  replaceChar 34 (py "\\\"") (replaceChar 10 (py "\\n") (replaceChar 92 (py "\\\\") v))

/-- The parts of `key.partition(":")` beside the separator. -/
def partitionKey (key : PyStr) : PyStr × PyStr :=
  (key.takeWhile (· ≠ 58), (key.dropWhile (· ≠ 58)).tail)

/-- `sorted(d.items())`, where the keys are told apart. -/
def sortedItems {α : Type} (items : List (PyStr × α)) : List (PyStr × α) :=
  items.insertionSort fun e f ↦ e.1 ≤ f.1

/-- `backend_to_model`. -/
def backendToModel (c : GatewayConfig) : Dict PyStr PyStr :=
  c.models.foldl
    (fun d m ↦ m.backends.foldl (fun d b ↦ d.alter (backendKey b.provider b.model) fun _ ↦ m.id) d) .empty

/-- The labels of a backend. -/
def backendLabels (models : Dict PyStr PyStr) (key : PyStr) : PyStr :=
  let model := (models.get? key).getD []
  py "model=\"" ++ escLabel model ++ py "\",provider=\"" ++ escLabel (partitionKey key).1 ++ py "\"," ++
    (py "backend=\"" ++ escLabel (partitionKey key).2 ++ py "\"")

/-- A line with labels. -/
def metricLine (name labels value : PyStr) : PyStr :=
  name ++ py "\x7b" ++ labels ++ py "\x7d " ++ value

/-- The `HELP` and `TYPE` lines of a metric. -/
def metricHeads (name doc kind : PyStr) : List PyStr :=
  [py "# HELP " ++ name ++ py " " ++ doc, py "# TYPE " ++ name ++ py " " ++ kind]

def statsHeads : List PyStr :=
  metricHeads (py "lga_requests_total") (py "Total completed requests per backend") (py "counter") ++
    metricHeads (py "lga_request_errors_total") (py "Total failed requests per backend") (py "counter") ++
    metricHeads (py "lga_inflight") (py "Currently in-flight requests per backend") (py "gauge")

/-- The lines of an entry of `stats.snapshot`. -/
def statsLines (models : Dict PyStr PyStr) (e : PyStr × StatsReport) : List PyStr :=
  let labels := backendLabels models e.1
  [metricLine (py "lga_requests_total") labels (natRepr e.2.requests),
    metricLine (py "lga_request_errors_total") labels (natRepr e.2.failures),
    metricLine (py "lga_inflight") labels (natRepr e.2.inFlight)]

def usageHeads : List PyStr :=
  metricHeads (py "lga_cost_usd_total") (py "Spend per provider (trailing 24h window)") (py "gauge") ++
    metricHeads (py "lga_tokens_total") (py "Tokens per provider by kind (trailing 24h window)") (py "gauge")

/-- The lines of an entry of `by_provider`. -/
def usageLines (r : FloatRepr) (e : PyStr × UsageTotals) : List PyStr :=
  let labels := py "provider=\"" ++ escLabel e.1 ++ py "\""
  [metricLine (py "lga_cost_usd_total") labels (r.repr e.2.cost),
    metricLine (py "lga_tokens_total") (labels ++ py ",kind=\"input\"") (intRepr e.2.inputTokens),
    metricLine (py "lga_tokens_total") (labels ++ py ",kind=\"output\"") (intRepr e.2.outputTokens)]

def circuitHeads : List PyStr :=
  metricHeads (py "lga_circuit_open") (py "Circuit breaker state (1=open, 0=closed)") (py "gauge")

/-- The line of an entry of `circuitbreaker.snapshot`. -/
def circuitLine (models : Dict PyStr PyStr) (e : PyStr × CircuitReport) : PyStr :=
  metricLine (py "lga_circuit_open") (backendLabels models e.1) (if e.2.opened then py "1" else py "0")

def warmHeads : List PyStr :=
  metricHeads (py "lga_warm_keys") (py "Cache-warm conversation keys per backend") (py "gauge")

/-- `warm_counts`. -/
def warmCounts (warmth : Dict PyStr Bucket) : Dict PyStr ℕ :=
  warmth.items.foldl
    (fun d bucket ↦ bucket.2.items.foldl (fun d e ↦ d.alter e.1 fun n ↦ n.getD 0 + 1) d) .empty

/-- The line of an entry of `warm_counts`. -/
def warmLine (models : Dict PyStr PyStr) (e : PyStr × ℕ) : PyStr :=
  metricLine (py "lga_warm_keys") (backendLabels models e.1) (natRepr e.2)

/-- The metrics of the heads, and of the lines of an entry. -/
def statsHeadNames : List PyStr :=
  [py "lga_requests_total", py "lga_requests_total", py "lga_request_errors_total", py "lga_request_errors_total",
    py "lga_inflight", py "lga_inflight"]

def statsNames : List PyStr :=
  [py "lga_requests_total", py "lga_request_errors_total", py "lga_inflight"]

def usageHeadNames : List PyStr :=
  [py "lga_cost_usd_total", py "lga_cost_usd_total", py "lga_tokens_total", py "lga_tokens_total"]

def usageNames : List PyStr :=
  [py "lga_cost_usd_total", py "lga_tokens_total", py "lga_tokens_total"]

/-- What a scrape reads. The registries know a backend by its string; `counted`, `circuited` and `warmed` are the
backends that these strings were made of. -/
structure Scrape where
  config : GatewayConfig
  stats : StatsRegistry
  breaker : Breaker
  /-- The usage table; `none` is an error of the query, which is passed over. -/
  usage : Option (List StoredUsage)
  /-- The readings of `time.time()` and `time.monotonic()`. -/
  now : ℚ
  monotonic : ℚ
  counted : List BackendId
  circuited : List BackendId
  warmed : List BackendId
  counted_keys : ∀ k, stats.stats.get? k ≠ none ↔ ∃ b ∈ counted, b.key = k
  circuited_keys : ∀ k, k ∈ breaker.circuits.map Prod.fst ↔ ∃ b ∈ circuited, b.key = k
  circuits_nodup : (breaker.circuits.map Prod.fst).Nodup
  warmed_keys : ∀ k, StatsRegistry.entriesOf stats.warmth k ≠ [] ↔ ∃ b ∈ warmed, b.key = k

namespace Scrape

variable (s : Scrape)

/-- What `by_provider` is. -/
def byProvider : List (PyStr × UsageTotals) :=
  s.usage.elim [] fun table ↦ (getUsageSummary table s.now 24).byProvider

/-- What `circuitbreaker.snapshot` returns. -/
def circuits : List (PyStr × CircuitReport) :=
  (s.breaker.configureFromConfig s.config).snapshot s.monotonic

/-- The lines of `_render`. -/
def lines (r : FloatRepr) : List PyStr :=
  let models := backendToModel s.config
  statsHeads ++ (sortedItems s.stats.snapshot.items).flatMap (statsLines models) ++
    (usageHeads ++ (sortedItems s.byProvider).flatMap (usageLines r)) ++
    (circuitHeads ++ (sortedItems s.circuits).map (circuitLine models)) ++
    (warmHeads ++ (sortedItems (warmCounts s.stats.warmthSnapshot).items).map (warmLine models))

/-- `_render`. -/
def render (r : FloatRepr) : PyStr :=
  (py "\n").intercalate (s.lines r) ++ py "\n"

end Scrape

/-! ### Keys -/

/-- Two replacements and a third are one escape. -/
theorem escLabel_eq (v : PyStr) : escLabel v = escape v := by
  induction v with
  | nil => rfl
  | cons c v ih =>
    have hcons : escLabel (c :: v) = escLabel [c] ++ escLabel v := by
      simp [escLabel, replaceChar]
    have hchar : escLabel [c] = escapeChar c := by
      unfold escLabel escapeChar replaceChar
      by_cases hslash : c = 92
      · subst hslash
        rfl
      · by_cases hline : c = 10
        · subst hline
          rfl
        · by_cases hquote : c = 34
          · subst hquote
            rfl
          · simp [hslash, hline, hquote]
    rw [hcons, hchar, ih]
    rfl

/-- What comes before the separator does not contain it. -/
theorem not_mem_partitionKey (key : PyStr) : 58 ∉ (partitionKey key).1 := by
  intro h
  simpa using List.mem_takeWhile_imp h

/-- A key is cut where its backend was joined if the provider has no colon. -/
theorem partitionKey_key {b : BackendId} (hb : 58 ∉ b.1) : partitionKey b.key = b := by
  have htext : b.key = b.1 ++ 58 :: b.2 := by
    simp [BackendId.key, backendKey, py]
  have hall : ∀ c ∈ b.1, decide (c ≠ 58) = true := fun c hc ↦ decide_eq_true fun h ↦ hb (h ▸ hc)
  rw [htext, partitionKey, List.takeWhile_append_of_pos hall, List.dropWhile_append_of_pos hall]
  simp

/-- The parts of a key make it up. -/
theorem key_partitionKey (b : BackendId) : BackendId.key (partitionKey b.key) = b.key := by
  have hmem : 58 ∈ b.key := by
    simp [BackendId.key, backendKey, py]
  obtain ⟨provider, model, htext, hprovider⟩ := List.eq_append_cons_of_mem hmem
  have hkey : b.key = BackendId.key (provider, model) := by
    rw [htext]
    simp [BackendId.key, backendKey, py]
  rw [hkey, partitionKey_key hprovider]

/-! ### The lines -/

/-- The labels of a backend, as they are read. -/
def backendLabelsOf (models : Dict PyStr PyStr) (key : PyStr) (b : BackendId) : List (PyStr × PyStr) :=
  [(py "model", (models.get? key).getD []), (py "provider", b.1), (py "backend", b.2)]

/-- The sample of a backend, as it is read. -/
def keySample (models : Dict PyStr PyStr) (name key : PyStr) (n : ℕ) : Sample :=
  ⟨name, backendLabelsOf models key (partitionKey key), .num n, none⟩

section Lines

variable {models : Dict PyStr PyStr} {name key : PyStr}

theorem metricLine_backendLabels (v : PyStr) : metricLine name (backendLabels models key) v =
    writeSample name (backendLabelsOf models key (partitionKey key)) v := by
  simp [metricLine, backendLabels, backendLabelsOf, writeSample, writeLabel, escLabel_eq, py,
    List.intercalate_cons_cons, List.intercalate_singleton]

/-- **The line of a backend is parsed**, whatever its ids are. -/
theorem parseLine_backend (hname : isMetricName name = true) (n : ℕ) :
    parseLine (metricLine name (backendLabels models key) (natRepr n)) =
      some (.sample (keySample models name key n)) := by
  have hword : ∀ c ∈ natRepr n, isBlank c = false := by
    intro c hc
    have hdigit := Json.natRepr_digits n c hc
    simp only [Json.isDigit, Bool.and_eq_true, decide_eq_true_eq] at hdigit
    simp only [isBlank, Bool.or_eq_false_iff, decide_eq_false_iff_not]
    omega
  rw [metricLine_backendLabels]
  exact parseLine_writeSample hname (by simp [backendLabelsOf]; decide) (by simp [backendLabelsOf]; decide)
    (Json.natRepr_ne_nil n) hword (readValue_natRepr n)

/-- A line with labels is about its metric, if it is anything. -/
theorem titled_metricLine (hname : isMetricName name = true) (labels v : PyStr) :
    Titled (metricLine name labels v) name := by
  intro l hl
  have htext : metricLine name labels v = name ++ 123 :: (labels ++ py "\x7d " ++ v) := by
    simp [metricLine, py]
  rw [htext] at hl
  exact metric_of_parseLine hname hl

theorem not_mem_escLabel (v : PyStr) : 10 ∉ escLabel v := by
  rw [escLabel_eq]
  exact not_mem_escape v

theorem not_mem_metricLine {labels v : PyStr} (hname : 10 ∉ name) (hlabels : 10 ∉ labels) (hv : 10 ∉ v) :
    10 ∉ metricLine name labels v := by
  simp [metricLine, hname, hlabels, hv, py]

theorem not_mem_backendLabels : 10 ∉ backendLabels models key := by
  simp [backendLabels, not_mem_escLabel, py]

theorem not_mem_natRepr (n : ℕ) : 10 ∉ natRepr n :=
  fun h ↦ absurd (Json.natRepr_digits n 10 h) (by decide)

theorem not_mem_intRepr (n : ℤ) : 10 ∉ intRepr n :=
  fun h ↦ absurd (Json.intRepr_chars n 10 h) (by decide)

theorem not_mem_floatRepr (r : FloatRepr) (q : ℚ) : 10 ∉ r.repr q :=
  fun h ↦ absurd (r.chars q 10 h) (by decide)

end Lines

/-- `1` or `0`. -/
theorem circuitWord_eq (b : Bool) : (if b then py "1" else py "0") = natRepr (if b then 1 else 0) := by
  cases b
  · rfl
  · decide

/-! ### The heads -/

/-- The heads of a metric, as they are read. -/
def headLines (name doc kind : PyStr) : List Line :=
  [.help name doc, .type name kind]

def statsHeadLines : List Line :=
  headLines (py "lga_requests_total") (py "Total completed requests per backend") (py "counter") ++
    headLines (py "lga_request_errors_total") (py "Total failed requests per backend") (py "counter") ++
    headLines (py "lga_inflight") (py "Currently in-flight requests per backend") (py "gauge")

def usageHeadLines : List Line :=
  headLines (py "lga_cost_usd_total") (py "Spend per provider (trailing 24h window)") (py "gauge") ++
    headLines (py "lga_tokens_total") (py "Tokens per provider by kind (trailing 24h window)") (py "gauge")

def circuitHeadLines : List Line :=
  headLines (py "lga_circuit_open") (py "Circuit breaker state (1=open, 0=closed)") (py "gauge")

def warmHeadLines : List Line :=
  headLines (py "lga_warm_keys") (py "Cache-warm conversation keys per backend") (py "gauge")

/-- The heads of a metric are parsed. -/
theorem parse_heads {name doc kind : PyStr} (hname : isMetricName name = true) (hdoc : 92 ∉ doc)
    (hskip : skipBlanks doc = doc) (hkind : kind ∈ kinds) :
    List.Forall₂ (fun t l ↦ parseLine t = some l) (metricHeads name doc kind) (headLines name doc kind) :=
  .cons (parseLine_writeHelp hname hdoc hskip) (.cons (parseLine_writeType hname hkind) .nil)

theorem parse_statsHeads : List.Forall₂ (fun t l ↦ parseLine t = some l) statsHeads statsHeadLines :=
  List.rel_append (List.rel_append (parse_heads (by decide) (by decide) rfl (by decide))
    (parse_heads (by decide) (by decide) rfl (by decide))) (parse_heads (by decide) (by decide) rfl (by decide))

theorem parse_usageHeads : List.Forall₂ (fun t l ↦ parseLine t = some l) usageHeads usageHeadLines :=
  List.rel_append (parse_heads (by decide) (by decide) rfl (by decide))
    (parse_heads (by decide) (by decide) rfl (by decide))

theorem parse_circuitHeads : List.Forall₂ (fun t l ↦ parseLine t = some l) circuitHeads circuitHeadLines :=
  parse_heads (by decide) (by decide) rfl (by decide)

theorem parse_warmHeads : List.Forall₂ (fun t l ↦ parseLine t = some l) warmHeads warmHeadLines :=
  parse_heads (by decide) (by decide) rfl (by decide)

namespace Scrape

variable (s : Scrape) (r : FloatRepr)

/-- No line is broken by what is in it. -/
theorem not_mem_lines : ∀ t ∈ s.lines r, 10 ∉ t := by
  simp only [lines, List.forall_mem_append]
  refine ⟨⟨⟨⟨by decide +kernel, ?_⟩, by decide +kernel, ?_⟩, by decide +kernel, ?_⟩, by decide +kernel, ?_⟩
  · refine List.forall_mem_flatMap.2 fun e _ ↦ ?_
    simp only [statsLines, List.forall_mem_cons]
    exact ⟨not_mem_metricLine (by decide) not_mem_backendLabels (not_mem_natRepr _),
      not_mem_metricLine (by decide) not_mem_backendLabels (not_mem_natRepr _),
      not_mem_metricLine (by decide) not_mem_backendLabels (not_mem_natRepr _), List.forall_mem_nil _⟩
  · refine List.forall_mem_flatMap.2 fun e _ ↦ ?_
    have hlabels : ∀ more, 10 ∉ more → 10 ∉ py "provider=\"" ++ escLabel e.1 ++ py "\"" ++ more := by
      intro more hmore
      simp [not_mem_escLabel, hmore, py]
    simp only [usageLines, List.forall_mem_cons]
    exact ⟨not_mem_metricLine (by decide) (by simpa using hlabels []) (not_mem_floatRepr r _),
      not_mem_metricLine (by decide) (hlabels _ (by decide)) (not_mem_intRepr _),
      not_mem_metricLine (by decide) (hlabels _ (by decide)) (not_mem_intRepr _), List.forall_mem_nil _⟩
  · refine List.forall_mem_map.2 fun e _ ↦ ?_
    rw [circuitLine, circuitWord_eq]
    exact not_mem_metricLine (by decide) not_mem_backendLabels (not_mem_natRepr _)
  · refine List.forall_mem_map.2 fun e _ ↦ ?_
    exact not_mem_metricLine (by decide) not_mem_backendLabels (not_mem_natRepr _)

/-! ### What the lines are about -/

/-- The metrics of the lines. -/
def names : List PyStr :=
  statsHeadNames ++ (sortedItems s.stats.snapshot.items).flatMap (fun _ ↦ statsNames) ++
    (usageHeadNames ++ (sortedItems s.byProvider).flatMap fun _ ↦ usageNames) ++
    ([py "lga_circuit_open", py "lga_circuit_open"] ++ (sortedItems s.circuits).map fun _ ↦ py "lga_circuit_open") ++
    ([py "lga_warm_keys", py "lga_warm_keys"] ++
      (sortedItems (warmCounts s.stats.warmthSnapshot).items).map fun _ ↦ py "lga_warm_keys")

/-- Each line is about its metric, whatever is in it. -/
theorem titled_lines : List.Forall₂ Titled (s.lines r) s.names := by
  refine List.rel_append (List.rel_append (List.rel_append (List.rel_append ?_ ?_) (List.rel_append ?_ ?_))
    (List.rel_append ?_ ?_)) (List.rel_append ?_ ?_)
  · exact titled_of_parsed parse_statsHeads rfl
  · refine forall₂_flatMap_same _ fun e ↦ ?_
    exact .cons (titled_metricLine (by decide) _ _) (.cons (titled_metricLine (by decide) _ _)
      (.cons (titled_metricLine (by decide) _ _) .nil))
  · exact titled_of_parsed parse_usageHeads rfl
  · refine forall₂_flatMap_same _ fun e ↦ ?_
    exact .cons (titled_metricLine (by decide) _ _) (.cons (titled_metricLine (by decide) _ _)
      (.cons (titled_metricLine (by decide) _ _) .nil))
  · exact titled_of_parsed parse_circuitHeads rfl
  · exact forall₂_map (List.forall₂_same.2 fun _ _ ↦ rfl) fun _ ↦ titled_metricLine (by decide) _ _
  · exact titled_of_parsed parse_warmHeads rfl
  · exact forall₂_map (List.forall₂_same.2 fun _ _ ↦ rfl) fun _ ↦ titled_metricLine (by decide) _ _

theorem parse_render_iff {ls : List Line} :
    parse (s.render r) = some ls ↔ List.Forall₂ (fun t l ↦ parseLine t = some l) (s.lines r) ls :=
  parse_eq_some_iff (by simp [lines, statsHeads, metricHeads]) (s.not_mem_lines r)

theorem metrics_of_parse {ls : List Line} (h : parse (s.render r) = some ls) : ls.filterMap Line.metric = s.names :=
  metrics_eq_of_titled (s.titled_lines r) ((s.parse_render_iff r).1 h)

/-! ### What they are parsed to -/

/-- The samples of an entry of `stats.snapshot`. -/
def statsSamples (e : PyStr × StatsReport) : List Sample :=
  let models := backendToModel s.config
  [keySample models (py "lga_requests_total") e.1 e.2.requests,
    keySample models (py "lga_request_errors_total") e.1 e.2.failures,
    keySample models (py "lga_inflight") e.1 e.2.inFlight]

def circuitSample (e : PyStr × CircuitReport) : Sample :=
  keySample (backendToModel s.config) (py "lga_circuit_open") e.1 (if e.2.opened then 1 else 0)

def warmSample (e : PyStr × ℕ) : Sample :=
  keySample (backendToModel s.config) (py "lga_warm_keys") e.1 e.2

/-- The samples of each registry, in the order of their keys. -/
def countedSamples : List Sample :=
  (sortedItems s.stats.snapshot.items).flatMap s.statsSamples

def circuitedSamples : List Sample :=
  (sortedItems s.circuits).map s.circuitSample

def warmedSamples : List Sample :=
  (sortedItems (warmCounts s.stats.warmthSnapshot).items).map s.warmSample

/-- The lines of a scrape that finds no usage. -/
def parsed : List Line :=
  statsHeadLines ++ s.countedSamples.map .sample ++ usageHeadLines ++
    circuitHeadLines ++ s.circuitedSamples.map .sample ++ warmHeadLines ++ s.warmedSamples.map .sample

/-- **Without usage the text is parsed**, whatever the registries hold. -/
theorem parse_render (husage : s.byProvider = []) : parse (s.render r) = some s.parsed := by
  refine (s.parse_render_iff r).2 ?_
  have hnone : (sortedItems s.byProvider).flatMap (usageLines r) = [] := by
    rw [husage]
    rfl
  rw [lines, hnone, List.append_nil, ← List.append_assoc, ← List.append_assoc]
  refine List.rel_append (List.rel_append (List.rel_append (List.rel_append (List.rel_append (List.rel_append ?_ ?_)
    ?_) ?_) ?_) ?_) ?_
  · exact parse_statsHeads
  · rw [countedSamples, List.map_flatMap]
    refine forall₂_flatMap_same _ fun e ↦ ?_
    exact .cons (parseLine_backend (by decide) _) (.cons (parseLine_backend (by decide) _)
      (.cons (parseLine_backend (by decide) _) .nil))
  · exact parse_usageHeads
  · exact parse_circuitHeads
  · rw [circuitedSamples, List.map_map]
    refine forall₂_map (List.forall₂_same.2 fun _ _ ↦ rfl) ?_
    rintro e _ rfl
    rw [circuitLine, circuitWord_eq]
    exact parseLine_backend (by decide) _
  · exact parse_warmHeads
  · rw [warmedSamples, List.map_map]
    refine forall₂_map (List.forall₂_same.2 fun _ _ ↦ rfl) ?_
    rintro e _ rfl
    exact parseLine_backend (by decide) _

end Scrape

end LocalGateway
