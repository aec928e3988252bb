import Mathlib.Algebra.Order.Ring.GeomSum
import LocalGateway.Routing.Guarantees

/-!
# When a selection raises

`select_backends` is a generator, so an exception in it ends the request that consumes it. Two steps
of it raise: the time zone of a model is looked up (`current_time_in_tz`), and the order of the tiers is
drawn with the powers of `routing_decay` (`_sample_tier_order`). Each has a guard that stops short: a
`KeyError` of `ZoneInfo` is caught, its `ValueError` is not; a decay of zero is replaced, one of minus
one is not.

* `selection_returns_iff`: the exact condition under which a selection is consumed to its end.
* `samplesTiers_exact_iff`: which decays that is, when nothing is rounded.
-/

namespace LocalGateway

open Py Json

/-! ### Time zones -/

/-- What `ZoneInfo` makes of a name: a zone, with the weekday and the hour there, a
`ZoneInfoNotFoundError`, which is a `KeyError`, or a `ValueError`. -/
inductive ZoneLookup
  | found (now : ℕ × ℕ)
  | unknown
  | malformed
deriving DecidableEq

/-- The time zones of a system, and the weekday and the hour in UTC. -/
structure ZoneInfo where
  lookup : PyStr → ZoneLookup
  utc : ℕ × ℕ

namespace ZoneInfo

variable (z : ZoneInfo)

/-- `current_time_in_tz`: an unknown zone is treated as UTC; `none` is the exception that is not
caught. -/
def current (name : PyStr) : Option (ℕ × ℕ) :=
  match z.lookup name with
  | .found now => some now
  | .unknown => some z.utc
  | .malformed => none

theorem current_eq_none_iff {name : PyStr} : z.current name = none ↔ z.lookup name = .malformed := by
  rw [current]
  cases z.lookup name <;> simp

/-- The name of the zone is not malformed, if it is looked up. -/
def Readable (t : TimeRoutingConfig) : Prop :=
  attrBool t.attrs.fields (py "enabled") = true → t.slots ≠ [] →
    z.lookup (attrStr t.attrs.fields (py "timezone")) ≠ .malformed

/-- Only a name that is looked up keeps the active slot from being found. -/
theorem activeSlot_isSome_iff {t : TimeRoutingConfig} :
    (activeSlot z.current t).isSome ↔ z.Readable t := by
  simp only [activeSlot, Readable, ne_eq, ← z.current_eq_none_iff]
  cases attrBool t.attrs.fields (py "enabled") with
  | false => simp
  | true =>
    rcases t.slots with - | ⟨slot, slots⟩
    · simp
    · simp [Option.isSome_iff_ne_none]

end ZoneInfo

/-- The moment on a system with these time zones. -/
def Moment.inZones (now : Moment) (z : ZoneInfo) : Moment :=
  { now with zone := z.current }

/-! ### The selection -/

section Totality

variable (c : GatewayConfig) (z : ZoneInfo) (now : Moment) (prefs : ProviderPrefs)
  (cacheKey modelId : PyStr) (A : Answers Entry) (d : Demand)

/-- Nothing in the routing of the model raises: the name of its time zone is not malformed, and the
order of the tiers of the entries that can serve the request can be drawn. -/
def RoutesModel (m : ModelConfig) : Prop :=
  z.Readable m.timeRouting ∧ ∀ slot, activeSlot z.current m.timeRouting = some slot →
    SamplesTiers c now prefs cacheKey (eligible c m d prefs.ignore slot)

/-- **A selection is consumed to its end without an exception if and only if** there is no enabled model
to route, or nothing in the routing of the model raises. The registries, the draws, the statistics,
the weights and the limits do not matter. -/
theorem selection_returns_iff :
    (selectBackends c (now.inZones z) prefs cacheKey A modelId d).raised = false ↔
      ∀ m, c.modelById modelId = some m → attrBool m.fields (py "enabled") = true →
        RoutesModel c z now prefs cacheKey d m := by
  have hsamples : ∀ es, (emit c (now.inZones z) prefs cacheKey A es).raised = false ↔
      SamplesTiers c now prefs cacheKey es := fun es ↦
    raised_eq_false_iff c (now.inZones z) prefs cacheKey A
  unfold selectBackends
  rcases c.modelById modelId with - | m
  · simp
  simp only [Option.some.injEq, forall_eq']
  cases henabled : attrBool m.fields (py "enabled") with
  | false => simp
  | true =>
    simp only [Bool.not_true, Bool.false_eq_true, if_false, forall_const]
    rw [RoutesModel, ← z.activeSlot_isSome_iff]
    have hzone : (now.inZones z).zone = z.current := rfl
    rw [hzone]
    rcases activeSlot z.current m.timeRouting with - | slot
    · simp
    · simpa using hsamples _

/-! ### Decays -/

/-- **Without rounding, the order of the tiers can be drawn unless the decay is minus one and the number
of tiers even.** -/
theorem samplesTiers_exact_iff (es : List Entry) (hexact : now.floats = exactFloats) :
    SamplesTiers c now prefs cacheKey es ↔
      (routingMode c = py "explore" → affinityActive c cacheKey = false → prefs.order = [] →
        1 < (tierKeys es).length →
        ¬ ((routingDecay c).rat = -1 ∧ Even (tierKeys es).length)) := by
  have hpowers : ∀ n, (List.range n).mapM (exactFloats.pow (routingDecay c)) =
      some ((List.range n).map fun i ↦ .fin ((routingDecay c).rat ^ i)) := fun _ ↦ List.mapM_pure
  have hsum : ∀ n, ((List.range n).map fun i ↦ (routingDecay c).rat ^ i).sum =
      ∑ i ∈ Finset.range n, (routingDecay c).rat ^ i := fun n ↦ rfl
  have hzero : ∀ n, n ≠ 0 →
      ((exactFloats.sum ((List.range n).map fun i ↦ .fin ((routingDecay c).rat ^ i))).isZero = false ↔
        ¬ ((routingDecay c).rat = -1 ∧ Even n)) := fun n hn ↦ by
    rw [← geom_sum_eq_zero_iff_neg_one hn, ← hsum]
    simp [exactFloats, PyFloat.isZero, Function.comp_def, PyFloat.rat]
  unfold SamplesTiers
  refine forall_congr' fun _ ↦ forall_congr' fun _ ↦ forall_congr' fun _ ↦ forall_congr' fun hlength ↦ ?_
  rw [hexact, hpowers, ← hzero _ (by omega)]
  simp

end Totality

/-- A system that knows UTC, under this name only, and takes an empty name for malformed. -/
def utcOnly : ZoneInfo where
  lookup name :=
    if name = py "UTC" then .found (0, 0) else if name = [] then .malformed else .unknown
  utc := (0, 0)

/-- A model with time routing in a time zone without a name. -/
def emptyZone : GatewayConfig :=
  { oneBackend with
    models := [⟨py "m", [plainBackend (py "a") 1],
      ⟨timeRoutingClass.build [(py "enabled", .bool true), (py "timezone", .str [])] (by decide),
        [⟨[], [], 0, 23, timeSlotClass.build [] (by decide)⟩]⟩, defaultFields modelClass.specs⟩] }

/-- **Two configurations that the schema accepts and that cannot be routed**: the time zone is the empty
string; the decay is minus one, and there are two tiers. -/
theorem selection_raises :
    parseConfig .strict emptyZone.dump = .ok emptyZone ∧
      (selectBackends emptyZone (quietMoment.inZones utcOnly) .none [] (.frozen fun _ ↦ true) (py "m")
        plainDemand).raised = true ∧
      parseConfig .strict alternatingDecay.dump = .ok alternatingDecay ∧
      (selectBackends alternatingDecay (quietMoment.inZones utcOnly) .none [] (.frozen fun _ ↦ true)
        (py "m") plainDemand).raised = true :=
  ⟨rfl, by decide +kernel, rfl, by decide +kernel⟩

end LocalGateway
