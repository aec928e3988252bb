import Mathlib.Logic.Equiv.Basic
import LocalGateway.Ledger.Usage
import LocalGateway.Routing.Guarantees

/-!
# The tables of a provider

What routing knows of a provider is spread over many tables: the providers and the backends that
name them, the prices, the snoozes, the circuits, the statistics, the warmth entries, the rows of
the usage table and the time slots of the models. A rename (`rename_entity`) moves some of these to
the new name.

* `RoutingState.route` routes a request, with all these tables.
* `Homomorphic` says that a request is routed after a rename as its image was before.
* `CleanRename` says that the tables a rename leaves alone do not tell the two names apart, and that
  those it moves hold nothing under the new name already that would come to the fore.
* `until?_rename`, `lookup_movePricing_keys`, `valuesAt_measurements_rename`: what is found under
  the new name after the rename, table by table.
-/

namespace LocalGateway

open Py Json List

/-! ### The tables -/

/-- A row of `usage` with the columns that throughput is measured by. -/
structure MeasuredRow extends UsageRow where
  ts : PyFloat
  tps : Option PyFloat

/-- A row after the rename of a provider. -/
def MeasuredRow.renamed (old new : PyStr) (r : MeasuredRow) : MeasuredRow :=
  if r.provider = old then { r with provider := new } else r

/-- `rename_provider`, on such rows. -/
def renameMeasuredRows (old new : PyStr) (rows : List MeasuredRow) : List MeasuredRow :=
  rows.map (MeasuredRow.renamed old new)

/-- It is the rename of the rows. -/
theorem map_renameMeasuredRows (old new : PyStr) (rows : List MeasuredRow) :
    (renameMeasuredRows old new rows).map MeasuredRow.toUsageRow =
      renameProviderRows old new (rows.map MeasuredRow.toUsageRow) := by
  rw [renameMeasuredRows, renameProviderRows, map_map, map_map]
  refine map_congr_left fun r _ ↦ ?_
  simp only [Function.comp_apply, MeasuredRow.renamed]
  split_ifs <;> rfl

/-- The arithmetic of floats, with `round(x, 2)`. -/
structure Rounding extends Floats where
  roundCents : PyFloat → PyFloat

/-- `percentile(values, 0.5)`. -/
def median (fl : Rounding) (values : List PyFloat) : Option PyFloat :=
  let s := values.insertionSort fun a b ↦ b.lt a = false
  let last := s.length - 1
  let f := last / 2
  let c := min (f + 1) last
  let at' (i : ℕ) : PyFloat := s.getD i (.fin 0)
  if values = [] then none
  else if f = c then some (fl.roundCents (at' f))
  else
    -- `k - f` is a half if the number of steps is odd
    let part : PyFloat := .fin (if last % 2 = 0 then 0 else 1 / 2)
    some (fl.roundCents (fl.add (at' f) (fl.mul (fl.add (at' c) (at' f).neg) part)))

/-- What `get_backend_tps_map` reads: the throughput of the successful requests since the cutoff. -/
def measurements (rows : List MeasuredRow) (recent : PyFloat → Bool) (modelId : PyStr) :
    List (PyStr × PyFloat) :=
  rows.filterMap fun r ↦
    if recent r.ts && r.logicalModel = modelId && r.success then
      r.tps.map fun tps ↦ (backendKey r.provider r.backendModel, tps)
    else none

/-- The values of a key, where a table may have several. -/
def valuesAt {α : Type} (d : List (PyStr × α)) (key : PyStr) : List α :=
  (d.filter fun e ↦ e.1 = key).map Prod.snd

/-- `get_backend_tps_map`. -/
def backendTpsMap (fl : Rounding) (rows : List MeasuredRow) (recent : PyFloat → Bool)
    (modelId : PyStr) : List (PyStr × PyFloat) :=
  let measured := measurements rows recent modelId
  (measured.map Prod.fst).dedup.filterMap fun key ↦
    (median fl (valuesAt measured key)).map fun tps ↦ (key, tps)

/-- Everything that routing keeps under the names of providers. -/
structure RoutingState where
  config : GatewayConfig
  snoozes : Registry
  circuits : Breaker
  stats : List (PyStr × BackendStat)
  /-- The backends seen with a cache key: when they were seen last, and their hit rate. -/
  warmth : PyStr → List (PyStr × PyFloat × PyFloat)
  usage : List MeasuredRow

/-- A request at a time: what it asks for, and what of the time routing depends on. -/
structure RoutingRequest where
  model : PyStr
  demand : Demand
  prefs : ProviderPrefs
  cacheKey : PyStr
  zone : PyStr → Option (ℕ × ℕ)
  /-- How long ago a time was. -/
  age : PyFloat → PyFloat
  /-- A time is within the hours that throughput is measured over. -/
  recent : PyFloat → Bool
  rotation : ℕ
  draw : ℕ → PyFloat
  clock : ℕ → ℚ
  monotone : Monotone clock

section Route

variable (fl : Rounding) (s : RoutingState) (q : RoutingRequest)

/-- The throughput of the backends of the requested model. -/
def RoutingState.throughput : List (PyStr × PyFloat) :=
  match s.config.modelById q.model with
  | some m => backendTpsMap fl s.usage q.recent m.id
  | none => []

/-- The state, at the time of a request. -/
def RoutingState.moment : Moment where
  floats := fl.toFloats
  zone := q.zone
  tps := s.throughput fl q
  stats := s.stats
  warmth key := (s.warmth key).map fun e ↦ (e.1, ⟨q.age e.2.1, e.2.2⟩)
  rotation := q.rotation
  draw := q.draw

/-- The backends a request is routed to. -/
def RoutingState.route : Selection :=
  selectAt s.config (s.moment fl q) q.prefs q.cacheKey q.model q.demand s.snoozes s.circuits q.clock
    q.monotone

end Route

/-! ### The rename -/

/-- A body of `POST /admin/rename` that renames a provider, and is accepted. -/
structure Accepted (c : GatewayConfig) (d : PyDict) (old new : PyStr) : Prop where
  type : get? d (py "type") = some (.str (py "provider"))
  old_id : strippedText (get? d (py "old_id")) = some old
  new_id : strippedText (get? d (py "new_id")) = some new
  saved : (renameEntity c (.obj d)).verdict = .save

/-- `rename_entity`, for a provider: the configuration, the usage table and the snoozes. -/
def RoutingState.rename (s : RoutingState) (d : PyDict) (old new : PyStr) : RoutingState :=
  { s with
    config := (renameEntity s.config (.obj d)).live
    usage := renameMeasuredRows old new s.usage
    snoozes := s.snoozes.renameProvider old new }

section Image

variable (old new : PyStr)

/-- The image of a provider. -/
def ProviderConfig.renamed (p : ProviderConfig) : ProviderConfig :=
  if p.id = old then { p with id := new } else p

/-- The image of an entry. -/
def Entry.renamed (e : Entry) : Entry :=
  ⟨e.index, e.provider.renamed old new, e.backend.renameProvider old new⟩

/-- The image of a list of backends that a request is routed to. -/
def Selection.renamed (s : Selection) : Selection :=
  { s with emitted := s.emitted.map fun b ↦ { b with entry := b.entry.renamed old new } }

/-- The preferences of a request under the new name. The new name stands for no provider before the
rename, as the old one does after it. -/
def ProviderPrefs.renamed (prefs : ProviderPrefs) : ProviderPrefs :=
  { prefs with
    order := prefs.order.map (Equiv.swap old new)
    ignore := prefs.ignore.map (Equiv.swap old new) }

/-- The image of a request. -/
def RoutingRequest.renamed (q : RoutingRequest) : RoutingRequest :=
  { q with prefs := q.prefs.renamed old new }

end Image

/-- Until when a backend is snoozed, if it is. -/
def Registry.until? (r : Registry) (key : PyStr) : Option Expiry :=
  if key ∈ r.permanent then some ⊤ else (r.cooldowns.lookup key).map fun t ↦ (t : Expiry)

/-- A state routes every request as another one routed the request it is the image of, at the same
prices, with the same snoozes and the same time slots. -/
structure Homomorphic (fl : Rounding) (s s' : RoutingState) (old new : PyStr) : Prop where
  routed : ∀ q : RoutingRequest,
    s'.route fl (q.renamed old new) = (s.route fl q).renamed old new
  priced : ∀ m ∈ s.config.models, ∀ b ∈ m.backends,
    s'.config.pricingFor (b.renameProvider old new).provider b.model =
      s.config.pricingFor b.provider b.model
  snoozed : ∀ m ∈ s.config.models, ∀ b ∈ m.backends,
    s'.snoozes.until? (backendKey (b.renameProvider old new).provider b.model) =
      s.snoozes.until? (backendKey b.provider b.model)
  slots : ∀ (i j : ℕ) (m m' : ModelConfig) (slot slot' : TimeSlot),
    s.config.models[i]? = some m → s'.config.models[i]? = some m' →
    m.timeRouting.slots[j]? = some slot → m'.timeRouting.slots[j]? = some slot' →
    ∀ b ∈ m.backends, slotAllows slot' (b.renameProvider old new).provider b.model =
      slotAllows slot b.provider b.model

/-- The time slots treat both names alike. -/
def SlotsAgree (c : GatewayConfig) (old new : PyStr) : Prop :=
  ∀ m ∈ c.models, ∀ slot ∈ m.timeRouting.slots, ∀ b ∈ m.backends, b.provider = old →
    slotAllows slot new b.model = slotAllows slot old b.model

/-- The keys of the tables whose entries a rename moves. -/
def RoutingState.movedKeys (s : RoutingState) : List PyStr :=
  s.config.pricing.map Prod.fst ++ s.snoozes.permanent ++ s.snoozes.cooldowns.map Prod.fst

/-- No entry is moved from a key or to it. -/
def Unmoved (old new : PyStr) (keys : List PyStr) (key : PyStr) : Prop :=
  ∀ y, backendKey old y ∈ keys → backendKey old y ≠ key ∧ backendKey new y ≠ key

/-- No entry is moved from the new key of a backend or to the old one. -/
def Separate (old new : PyStr) (keys : List PyStr) (model : PyStr) : Prop :=
  ∀ y, backendKey old y ∈ keys →
    backendKey old y ≠ backendKey new model ∧ backendKey new y ≠ backendKey old model

/-- A price that is left under the new name is that of a backend without a price of its own. -/
def PricesAgree (c : GatewayConfig) (old new : PyStr) : Prop :=
  ∀ m ∈ c.models, ∀ b ∈ m.backends, b.provider = old →
    c.pricing.lookup (backendKey old b.model) = none →
    c.pricingFor new b.model = c.pricingFor old b.model

/-- No snooze that is left under the new name is longer than the backend's own. -/
def SnoozesAgree (c : GatewayConfig) (r : Registry) (old new : PyStr) : Prop :=
  ∀ m ∈ c.models, ∀ b ∈ m.backends, b.provider = old →
    (backendKey new b.model ∈ r.permanent → backendKey old b.model ∈ r.permanent) ∧
      (r.until? (backendKey old b.model) = none → r.until? (backendKey new b.model) = none)

/-- No entry of another key gets in the way of a backend of the renamed provider. -/
def KeysSeparate (s : RoutingState) (old new : PyStr) : Prop :=
  ∀ m ∈ s.config.models, ∀ b ∈ m.backends, b.provider = old →
    Separate old new s.movedKeys b.model

/-- The tables that a rename leaves alone do not tell the names apart, those it moves hold nothing
under the new name that would come to the fore, and other backends have nothing to do with it. -/
structure CleanRename (s : RoutingState) (old new : PyStr) : Prop where
  slots : SlotsAgree s.config old new
  prices : PricesAgree s.config old new
  snoozes : SnoozesAgree s.config s.snoozes old new
  keys : KeysSeparate s old new
  others : ∀ m ∈ s.config.models, ∀ b ∈ m.backends, b.provider ≠ old →
    b.provider ≠ new ∧ Unmoved old new s.movedKeys (backendKey b.provider b.model)
  /-- A row counts for the image of a backend if it counted for the backend. -/
  usage : ∀ r ∈ s.usage, ∀ m ∈ s.config.models, ∀ b ∈ m.backends,
    (backendKey (r.renamed old new).provider r.backendModel =
        backendKey (b.renameProvider old new).provider b.model ↔
      backendKey r.provider r.backendModel = backendKey b.provider b.model)
  circuits : ∀ m ∈ s.config.models, ∀ b ∈ m.backends, b.provider = old →
    s.circuits.circuits.lookup (backendKey new b.model) =
      s.circuits.circuits.lookup (backendKey old b.model)
  stats : ∀ m ∈ s.config.models, ∀ b ∈ m.backends, b.provider = old →
    s.stats.lookup (backendKey new b.model) = s.stats.lookup (backendKey old b.model)
  warmth : ∀ m ∈ s.config.models, ∀ b ∈ m.backends, b.provider = old → ∀ cacheKey,
    valuesAt (s.warmth cacheKey) (backendKey new b.model) =
      valuesAt (s.warmth cacheKey) (backendKey old b.model)

/-! ### Keys -/

section Keys

variable {old new : PyStr} {keys : List PyStr}

theorem startsWith_iff {k : PyStr} :
    startsWith k (old ++ py ":") = true ↔ ∃ x, k = backendKey old x := by
  rw [startsWith, isPrefixOf_iff_prefix]
  constructor
  · rintro ⟨x, rfl⟩
    exact ⟨x, rfl⟩
  · rintro ⟨x, rfl⟩
    exact ⟨x, rfl⟩

theorem startsWith_backendKey (x : PyStr) : startsWith (backendKey old x) (old ++ py ":") = true :=
  startsWith_iff.2 ⟨x, rfl⟩

theorem renamedKey_backendKey (x : PyStr) :
    Registry.renamedKey old new (backendKey old x) = backendKey new x := by
  rw [Registry.renamedKey, backendKey, backendKey, drop_left]

theorem backendKey_inj {x y : PyStr} : backendKey old x = backendKey old y ↔ x = y :=
  append_cancel_left_eq (old ++ py ":") x y ▸ Iff.rfl

/-! ### The tables that are moved -/

/-- Replacing the entry `k` of a table by an entry `l`. -/
theorem lookup_move {α : Type} (d : List (PyStr × α)) {k l key : PyStr} (v : α) (hkey : key ≠ k) :
    ((l, v) :: (d.filter (·.1 ≠ k)).filter (·.1 ≠ l)).lookup key =
      if key = l then some v else d.lookup key := by
  rcases eq_or_ne key l with rfl | hl
  · simp
  · rw [lookup_cons, show (key == l) = false by simpa using hl, if_neg hl, lookup_filter_ne hl,
      lookup_filter_ne hkey]

/-- A key that is not moved keeps its cooldown. -/
theorem lookup_foldr_of_unmoved {key : PyStr} {items : List (PyStr × ℚ)}
    (h : Unmoved old new (items.map Prod.fst) key) (cool : List (PyStr × ℚ)) :
    (items.foldr (Registry.moveCooldown old new) cool).lookup key = cool.lookup key := by
  induction items with
  | nil => rfl
  | cons e items ih =>
    obtain ⟨k, v⟩ := e
    have hrest := ih fun y hy ↦ h y (mem_cons_of_mem _ hy)
    rw [foldr_cons, Registry.moveCooldown]
    split_ifs with hold
    · obtain ⟨y, rfl⟩ := startsWith_iff.1 hold
      obtain ⟨hfrom, hto⟩ := h y mem_cons_self
      simp only
      rw [lookup_move _ v hfrom.symm, renamedKey_backendKey, if_neg hto.symm, hrest]
    · exact hrest

/-- The last entry that is moved to a key stays there. -/
theorem lookup_foldr_moveCooldown {items : List (PyStr × ℚ)} {x : PyStr}
    (h : Separate old new (items.map Prod.fst) x) (cool : List (PyStr × ℚ)) :
    (items.foldr (Registry.moveCooldown old new) cool).lookup (backendKey new x) =
      (items.lookup (backendKey old x)).or (cool.lookup (backendKey new x)) := by
  induction items with
  | nil => rfl
  | cons e items ih =>
    obtain ⟨k, v⟩ := e
    have hrest := ih fun y hy ↦ h y (mem_cons_of_mem _ hy)
    rw [foldr_cons, lookup_cons, Registry.moveCooldown]
    split_ifs with hold
    · obtain ⟨y, rfl⟩ := startsWith_iff.1 hold
      simp only
      rw [lookup_move _ v (h y mem_cons_self).1.symm, renamedKey_backendKey, hrest]
      rcases eq_or_ne x y with rfl | hxy
      · simp
      · rw [if_neg (backendKey_inj.not.2 hxy), beq_false_of_ne (backendKey_inj.not.2 hxy)]
    · have hne : backendKey old x ≠ k := by
        rintro rfl
        exact hold (startsWith_backendKey x)
      rw [beq_false_of_ne hne, hrest]

theorem mem_movePermanent {k key : PyStr} {permanent : List PyStr}
    (hne : startsWith k (old ++ py ":") = true → key ≠ k) :
    key ∈ Registry.movePermanent old new k permanent ↔
      (∃ x, k = backendKey old x ∧ key = backendKey new x) ∨ key ∈ permanent := by
  unfold Registry.movePermanent
  split_ifs with hold
  · obtain ⟨y, rfl⟩ := startsWith_iff.1 hold
    rw [mem_insert_iff, renamedKey_backendKey]
    simp [hne hold, backendKey_inj]
  · have hnone : ¬ ∃ x, k = backendKey old x ∧ key = backendKey new x := by
      rintro ⟨x, rfl, -⟩
      exact hold (startsWith_backendKey x)
    rw [or_iff_right hnone]

/-- The keys of a renamed provider move to the new name, and others stay. -/
theorem mem_permanent_rename (r : Registry) {key : PyStr}
    (hkey : ∀ k ∈ r.permanent, startsWith k (old ++ py ":") = true → key ≠ k) :
    key ∈ (r.renameProvider old new).permanent ↔
      (∃ x, backendKey old x ∈ r.permanent ∧ key = backendKey new x) ∨ key ∈ r.permanent := by
  have hfold : ∀ items permanent : List PyStr,
      (∀ k ∈ items, startsWith k (old ++ py ":") = true → key ≠ k) →
      (key ∈ items.foldr (Registry.movePermanent old new) permanent ↔
        (∃ x, backendKey old x ∈ items ∧ key = backendKey new x) ∨ key ∈ permanent) := by
    intro items permanent hitems
    induction items with
    | nil => simp
    | cons k items ih =>
      obtain ⟨hk, hitems⟩ := forall_mem_cons.1 hitems
      rw [foldr_cons, mem_movePermanent hk, ih hitems, ← or_assoc]
      refine or_congr_left ?_
      simp only [mem_cons, or_and_right, exists_or, eq_comm]
  exact hfold r.permanent r.permanent hkey

/-- A key that is not moved is snoozed for good after the rename exactly if it was before. -/
theorem mem_permanent_of_unmoved {r : Registry} {key : PyStr} (h : Unmoved old new r.permanent key) :
    key ∈ (r.renameProvider old new).permanent ↔ key ∈ r.permanent := by
  rw [mem_permanent_rename r fun k hk hold ↦ ?_]
  · refine or_iff_right ?_
    rintro ⟨x, hx, rfl⟩
    exact (h x hx).2 rfl
  · obtain ⟨y, rfl⟩ := startsWith_iff.1 hold
    exact (h y hk).1.symm

theorem lookup_cooldowns_of_unmoved {r : Registry} {key : PyStr}
    (h : Unmoved old new (r.cooldowns.map Prod.fst) key) :
    (r.renameProvider old new).cooldowns.lookup key = r.cooldowns.lookup key :=
  lookup_foldr_of_unmoved h r.cooldowns

/-- A key that is not moved is snoozed after the rename as before. -/
theorem until?_of_unmoved {r : Registry} {key : PyStr} (hpermanent : Unmoved old new r.permanent key)
    (hcooldowns : Unmoved old new (r.cooldowns.map Prod.fst) key) :
    (r.renameProvider old new).until? key = r.until? key := by
  simp only [Registry.until?, mem_permanent_of_unmoved hpermanent,
    lookup_cooldowns_of_unmoved hcooldowns]

section Snoozed

variable {r : Registry} {x : PyStr} (hpermanent : Separate old new r.permanent x)
  (hcooldowns : Separate old new (r.cooldowns.map Prod.fst) x)

include hpermanent hcooldowns

/-- A backend of a renamed provider is snoozed under the new name as it was under the old one, or
else as the new name was. -/
theorem until?_rename :
    (r.renameProvider old new).until? (backendKey new x) =
      if backendKey old x ∈ r.permanent ∨ backendKey new x ∈ r.permanent then some ⊤
      else ((r.cooldowns.lookup (backendKey old x)).or
        (r.cooldowns.lookup (backendKey new x))).map fun t ↦ (t : Expiry) := by
  have hmem : backendKey new x ∈ (r.renameProvider old new).permanent ↔
      backendKey old x ∈ r.permanent ∨ backendKey new x ∈ r.permanent := by
    rw [mem_permanent_rename r fun k hk hold ↦ ?_]
    · simp [backendKey_inj]
    · obtain ⟨y, rfl⟩ := startsWith_iff.1 hold
      exact (hpermanent y hk).1.symm
  have hlookup : (r.renameProvider old new).cooldowns.lookup (backendKey new x) =
      (r.cooldowns.lookup (backendKey old x)).or (r.cooldowns.lookup (backendKey new x)) :=
    lookup_foldr_moveCooldown hcooldowns r.cooldowns
  simp only [Registry.until?, hmem, hlookup]

/-- It is snoozed as it was exactly if what is left under the new name is no longer snooze. -/
theorem until?_rename_eq_iff :
    (r.renameProvider old new).until? (backendKey new x) = r.until? (backendKey old x) ↔
      (backendKey new x ∈ r.permanent → backendKey old x ∈ r.permanent) ∧
        (r.until? (backendKey old x) = none → r.until? (backendKey new x) = none) := by
  rw [until?_rename hpermanent hcooldowns]
  unfold Registry.until?
  by_cases hold : backendKey old x ∈ r.permanent
  · simp [hold]
  · by_cases hnew : backendKey new x ∈ r.permanent
    · rcases r.cooldowns.lookup (backendKey old x) with - | t <;> simp [hold, hnew]
    · rcases r.cooldowns.lookup (backendKey old x) with - | t <;>
        rcases r.cooldowns.lookup (backendKey new x) with - | u <;> simp [hold, hnew]

end Snoozed

/-- Whether a backend is available is said by its snooze. -/
theorem isAvailable_eq_of_until? {r r' : Registry} {k k' : PyStr} (h : r'.until? k' = r.until? k)
    (now : ℚ) : (r'.isAvailable now k').2 = (r.isAvailable now k).2 := by
  have hsays : ∀ (r : Registry) (k : PyStr), (r.isAvailable now k).2 = true ↔
      ∀ e, r.until? k = some e → e ≤ (now : Expiry) := by
    intro r k
    rw [isAvailable_iff, Registry.until?]
    split_ifs with hmem
    · simp [hmem]
    · rcases r.cooldowns.lookup k with - | t <;> simp [hmem]
  rw [Bool.eq_iff_iff, hsays, hsays, h]

section Pricing

variable {α : Type} {pricing : List (PyStr × α)} {ks : List PyStr}

/-- Assigning a value to a key that a table has. -/
theorem lookup_map_assign (d : List (PyStr × α)) {l key : PyStr} (v : α) :
    (d.map fun e ↦ if e.1 = l then (l, v) else e).lookup key =
      if key = l then (d.lookup l).map fun _ ↦ v else d.lookup key := by
  induction d with
  | nil => simp
  | cons e d ih =>
    obtain ⟨k, w⟩ := e
    rw [map_cons, lookup_cons, lookup_cons, lookup_cons, ih]
    rcases eq_or_ne k l with rfl | hk
    · rcases eq_or_ne key k with rfl | hkey
      · simp
      · simp only [if_pos, beq_false_of_ne hkey, if_neg hkey]
    · rcases eq_or_ne key l with rfl | hkey
      · simp only [if_neg hk, if_pos, beq_false_of_ne hk.symm]
      · simp only [if_neg hk, if_neg hkey]

/-- Assigning a value to a key. -/
theorem lookup_assign (d : List (PyStr × α)) {l key : PyStr} (v : α) :
    (if (d.lookup l).isSome then d.map fun e ↦ if e.1 = l then (l, v) else e
      else d ++ [(l, v)]).lookup key = if key = l then some v else d.lookup key := by
  rcases hl : d.lookup l with - | w
  · rw [if_neg (by simp), lookup_append]
    rcases eq_or_ne key l with rfl | hkey
    · simp [hl]
    · rw [if_neg hkey, lookup_cons, beq_false_of_ne hkey, lookup_nil, Option.or_none]
  · rw [if_pos (by simp), lookup_map_assign, hl]
    rfl

/-- What one step does: nothing, or it pops an entry and assigns its value to the new key. -/
theorem movePricing_cons (k : PyStr) :
    (movePricing old new pricing (k :: ks) = movePricing old new pricing ks ∧
      ∀ x, k = backendKey old x → pricing.lookup k = none) ∨
    ∃ y v pricing', k = backendKey old y ∧ pricing.lookup k = some v ∧
      movePricing old new pricing (k :: ks) = movePricing old new pricing' ks ∧
      ∀ key, pricing'.lookup key = if key = backendKey new y then some v
        else if key = k then none else pricing.lookup key := by
  rw [movePricing]
  rcases hlookup : pricing.lookup k with - | v
  · exact .inl ⟨rfl, fun _ _ ↦ rfl⟩
  · by_cases hold : startsWith k (old ++ py ":") = true
    · obtain ⟨y, rfl⟩ := startsWith_iff.1 hold
      simp only [if_pos hold]
      refine .inr ⟨y, v, _, rfl, rfl, rfl, fun key ↦ ?_⟩
      have htarget : new ++ py ":" ++ (backendKey old y).drop (old ++ py ":").length =
        backendKey new y := renamedKey_backendKey y
      rw [htarget, lookup_assign]
      refine if_congr Iff.rfl rfl ?_
      rcases eq_or_ne key (backendKey old y) with rfl | hkey
      · rw [if_pos rfl, lookup_eq_none_iff]
        intro e he
        have hne : e.1 ≠ backendKey old y := by simpa using (mem_filter.1 he).2
        simpa using hne.symm
      · rw [if_neg hkey, lookup_filter_ne hkey]
    · simp only [if_neg hold]
      refine .inl ⟨trivial, ?_⟩
      rintro x rfl
      exact absurd (startsWith_backendKey x) hold

/-- A key that is not moved keeps its price. -/
theorem lookup_movePricing_of_unmoved {key : PyStr} (h : Unmoved old new ks key) :
    (movePricing old new pricing ks).lookup key = pricing.lookup key := by
  induction ks generalizing pricing with
  | nil => rfl
  | cons k ks ih =>
    have hrest : Unmoved old new ks key := fun y hy ↦ h y (mem_cons_of_mem _ hy)
    rcases @movePricing_cons old new α pricing ks k with ⟨hstep, -⟩ |
      ⟨y, v, pricing', rfl, -, hstep, hlookup⟩
    · rw [hstep, ih hrest]
    · obtain ⟨hfrom, hto⟩ := h y mem_cons_self
      rw [hstep, ih hrest, hlookup, if_neg hto.symm, if_neg hfrom.symm]

/-- The price of a renamed provider moves to the new name. -/
theorem lookup_movePricing {x : PyStr} (h : Separate old new ks x) :
    (movePricing old new pricing ks).lookup (backendKey new x) =
      if backendKey old x ∈ ks then
        (pricing.lookup (backendKey old x)).or (pricing.lookup (backendKey new x))
      else pricing.lookup (backendKey new x) := by
  induction ks generalizing pricing with
  | nil => rfl
  | cons k ks ih =>
    have hrest : Separate old new ks x := fun y hy ↦ h y (mem_cons_of_mem _ hy)
    rcases @movePricing_cons old new α pricing ks k with ⟨hstep, hnone⟩ |
      ⟨y, v, pricing', rfl, hv, hstep, hlookup⟩
    · rw [hstep, ih hrest]
      rcases eq_or_ne k (backendKey old x) with rfl | hkx
      · -- the key is gone already
        simp [hnone x rfl]
      · simp only [mem_cons, hkx.symm, false_or]
    · obtain ⟨hfrom, hto⟩ := h y mem_cons_self
      have hnew : pricing'.lookup (backendKey new x) =
          if x = y then some v else pricing.lookup (backendKey new x) := by
        rw [hlookup, if_neg hfrom.symm]
        simp only [backendKey_inj]
      rw [hstep, ih hrest, hnew]
      rcases eq_or_ne x y with rfl | hxy
      · have hgone : pricing'.lookup (backendKey old x) = none := by
          rw [hlookup, if_neg hto.symm, if_pos rfl]
        simp [hgone, hv]
      · rw [if_neg hxy, hlookup, if_neg hto.symm, if_neg (backendKey_inj.not.2 hxy)]
        simp only [mem_cons, backendKey_inj, hxy, false_or]

/-- The price of a backend of a renamed provider is its price under the old name, or else what the
new name cost. -/
theorem lookup_movePricing_keys {x : PyStr} (h : Separate old new (pricing.map Prod.fst) x) :
    (movePricing old new pricing (pricing.map Prod.fst)).lookup (backendKey new x) =
      (pricing.lookup (backendKey old x)).or (pricing.lookup (backendKey new x)) := by
  rw [lookup_movePricing h]
  split_ifs with hmem
  · rfl
  · have hnone : pricing.lookup (backendKey old x) = none := by
      refine lookup_eq_none_iff.2 fun e he ↦ ?_
      have hkey : backendKey old x ≠ e.1 := fun heq ↦ hmem (heq ▸ mem_map_of_mem he)
      simpa using hkey
    rw [hnone, Option.none_or]

end Pricing

end Keys

/-! ### Measurements -/

section Measurements

variable {fl : Rounding} {rows : List MeasuredRow} {recent : PyFloat → Bool} {modelId : PyStr}

theorem median_eq_none_iff {values : List PyFloat} : median fl values = none ↔ values = [] := by
  unfold median
  simp only
  split_ifs with hnil <;> simp [hnil]

theorem valuesAt_eq_nil_iff {α : Type} {d : List (PyStr × α)} {key : PyStr} :
    valuesAt d key = [] ↔ key ∉ d.map Prod.fst := by
  rw [valuesAt, map_eq_nil_iff, filter_eq_nil_iff, mem_map]
  simp only [decide_eq_true_eq, not_exists, not_and]

/-- A backend's throughput is the median of its measurements. -/
theorem lookup_backendTpsMap (key : PyStr) :
    (backendTpsMap fl rows recent modelId).lookup key =
      median fl (valuesAt (measurements rows recent modelId) key) := by
  unfold backendTpsMap
  simp only
  generalize measurements rows recent modelId = measured
  have hkeys : ∀ keys : List PyStr,
      (keys.filterMap fun key ↦ (median fl (valuesAt measured key)).map fun tps ↦ (key, tps)).lookup
        key = if key ∈ keys then median fl (valuesAt measured key) else none := by
    intro keys
    induction keys with
    | nil => rfl
    | cons k keys ih =>
      rw [filterMap_cons]
      rcases hmedian : median fl (valuesAt measured k) with - | tps
      · rcases eq_or_ne key k with rfl | hkey
        · simp [ih, hmedian]
        · simp [ih, hkey]
      · rcases eq_or_ne key k with rfl | hkey
        · simp [hmedian]
        · simp [ih, hkey, lookup_cons, beq_false_of_ne hkey]
  rw [hkeys]
  split_ifs with hmem
  · rfl
  · rw [mem_dedup, ← valuesAt_eq_nil_iff, ← @median_eq_none_iff fl] at hmem
    exact hmem.symm

theorem backendTpsMap_isEmpty :
    (backendTpsMap fl rows recent modelId).isEmpty = (measurements rows recent modelId).isEmpty := by
  rw [Bool.eq_iff_iff, List.isEmpty_iff, List.isEmpty_iff, backendTpsMap]
  generalize measurements rows recent modelId = measured
  constructor
  · intro hnil
    rw [eq_nil_iff_forall_not_mem]
    intro e he
    have hmem : e.1 ∈ measured.map Prod.fst := mem_map_of_mem he
    have hnone := filterMap_eq_nil_iff.1 hnil e.1 (mem_dedup.2 hmem)
    rw [Option.map_eq_none_iff, median_eq_none_iff, valuesAt_eq_nil_iff] at hnone
    exact hnone hmem
  · rintro rfl
    rfl

/-- The measurements under a key are those of the rows with the key. -/
theorem valuesAt_measurements (key : PyStr) :
    valuesAt (measurements rows recent modelId) key = rows.filterMap fun r ↦
      if recent r.ts && r.logicalModel = modelId && r.success &&
        backendKey r.provider r.backendModel = key then r.tps else none := by
  rw [valuesAt, measurements, filter_filterMap, map_filterMap]
  refine filterMap_congr fun r _ ↦ ?_
  rcases (recent r.ts && r.logicalModel = modelId && r.success) with - | -
  · rfl
  · rcases r.tps with - | tps
    · simp
    · by_cases hkey : backendKey r.provider r.backendModel = key <;> simp [hkey]

section Rename

variable {old new : PyStr}

/-- What is measured of a row does not change with its provider. -/
theorem renamed_columns (r : MeasuredRow) :
    (r.renamed old new).ts = r.ts ∧ (r.renamed old new).logicalModel = r.logicalModel ∧
      (r.renamed old new).success = r.success ∧ (r.renamed old new).tps = r.tps ∧
        (r.renamed old new).backendModel = r.backendModel := by
  unfold MeasuredRow.renamed
  split_ifs <;> exact ⟨rfl, rfl, rfl, rfl, rfl⟩

/-- The rows of a key that a rename takes to the rows of another one. -/
theorem valuesAt_measurements_rename {key key' : PyStr}
    (h : ∀ r ∈ rows, backendKey (r.renamed old new).provider r.backendModel = key' ↔
      backendKey r.provider r.backendModel = key) :
    valuesAt (measurements (renameMeasuredRows old new rows) recent modelId) key' =
      valuesAt (measurements rows recent modelId) key := by
  rw [valuesAt_measurements, valuesAt_measurements, renameMeasuredRows, filterMap_map]
  refine filterMap_congr fun r hr ↦ ?_
  obtain ⟨hts, hmodel, hsuccess, htps, hbackend⟩ := @renamed_columns old new r
  simp only [Function.comp_apply, hts, hmodel, hsuccess, htps, hbackend, h r hr]

theorem measurements_rename_isEmpty :
    (measurements (renameMeasuredRows old new rows) recent modelId).isEmpty =
      (measurements rows recent modelId).isEmpty := by
  have hvalues : (measurements (renameMeasuredRows old new rows) recent modelId).map Prod.snd =
      (measurements rows recent modelId).map Prod.snd := by
    rw [measurements, measurements, renameMeasuredRows, filterMap_map, map_filterMap,
      map_filterMap]
    refine filterMap_congr fun r _ ↦ ?_
    obtain ⟨hts, hmodel, hsuccess, htps, -⟩ := @renamed_columns old new r
    simp only [Function.comp_apply, hts, hmodel, hsuccess, htps]
    rcases (recent r.ts && r.logicalModel = modelId && r.success) with - | -
    · rfl
    · rcases r.tps with - | tps <;> rfl
  rw [Bool.eq_iff_iff, List.isEmpty_iff, List.isEmpty_iff, ← @map_eq_nil_iff _ _ Prod.snd, hvalues,
    map_eq_nil_iff]

end Rename

end Measurements

end LocalGateway
