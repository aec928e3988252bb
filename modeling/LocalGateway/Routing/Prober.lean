import LocalGateway.Routing.Guarantees

/-!
# The rounds of the prober

Which backends a round of `_prober_loop` probes. The loop goes through the models, resets the timer of each one that is
due and collects its backends; then it shuffles what it has collected and probes the first ten.

* `Round.foldl_collect`: the way through the models, in terms of the timers before the round.
* `Round.coversAll_iff`: when a round probes all backends of the models it marks, whatever the order.
* `Round.probesCovered_iff`: when the rounds of a run do, and when their timers can be trusted.
-/

namespace LocalGateway

open Py

/-! ### The first of a list in any order -/

section Take

variable {α : Type*} [DecidableEq α] {l l' : List α} {a : α} {n : ℕ}

/-- An element is among the first `n` if fewer than `n` others are there. -/
theorem mem_take_of_countP_lt (ha : a ∈ l) (h : l.countP (· ≠ a) < n) : a ∈ l.take n := by
  by_contra hmissing
  have hothers : ∀ b ∈ l.take n, decide (b ≠ a) = true := fun b hb ↦
    decide_eq_true fun heq ↦ hmissing (heq ▸ hb)
  have hall : (l.take n).countP (· ≠ a) = (l.take n).length := List.countP_eq_length.2 hothers
  have hle : (l.take n).countP (· ≠ a) ≤ l.countP (· ≠ a) := (List.take_sublist n l).countP_le
  rw [List.length_take] at hall
  rcases le_total n l.length with hlong | hshort
  · omega
  · exact hmissing (by rwa [List.take_of_length_le hshort])

/-- The list with the element at its end. -/
def withLast (a : α) (l : List α) : List α :=
  l.filter (· ≠ a) ++ l.filter (· = a)

theorem perm_withLast (a : α) (l : List α) : (withLast a l).Perm l := by
  have h := List.filter_append_perm (fun b ↦ decide (b ≠ a)) l
  simpa [withLast] using h

/-- At the end the element is among the first `n` only so. -/
theorem countP_lt_of_mem_take_withLast (h : a ∈ (withLast a l).take n) : l.countP (· ≠ a) < n := by
  by_contra hge
  rw [List.countP_eq_length_filter] at hge
  rw [withLast, List.take_append_of_le_length (by omega)] at h
  exact absurd (List.mem_of_mem_take h) (by simp)

end Take

/-! ### A round -/

/-- A backend to be probed for a model. -/
structure ProbeTarget where
  provider : ProviderConfig
  backendModel : PyStr
  modelId : PyStr
deriving DecidableEq

/-- What a round finds: the configuration, the time of day, and the snoozed backends with the time of their clock.
Asking for these drops entries that have expired only, so one registry serves the whole round. -/
structure Round where
  config : GatewayConfig
  now : ℚ
  monotonic : ℚ
  snoozed : Registry

/-- A result of `random.shuffle`. -/
structure Shuffle where
  run : List ProbeTarget → List ProbeTarget
  perm : ∀ l, (run l).Perm l

/-- How many backends a round probes. -/
def probeBatch : ℕ :=
  10

/-- `last_probe`, with its default. -/
abbrev Timers := PyStr → ℚ

/-- The models that were marked in a round, and their backends. -/
structure Collection where
  timers : Timers
  marked : List PyStr
  backendsToProbe : List ProbeTarget

namespace Round

variable (intervalS : PyFloat) (r : Round)

/-- The interval of a model: its own, that of the server, or that of the loop. -/
def modelInterval (m : ModelConfig) : PyFloat :=
  (attrFloat m.fields (py "probe_interval_s")).getD
    (((attrFloat r.config.server.attrs.fields (py "probe_interval_s")).getD (.fin 0)).orElse intervalS)

/-- The entry of a backend, unless it or its provider is disabled, or it is rate-limited. -/
def target (m : ModelConfig) (b : BackendConfig) : Option ProbeTarget :=
  if !attrBool b.fields (py "enabled") then none
  else
    match r.config.providerById b.provider with
    | none => none
    | some prov =>
      if !attrBool prov.attrs.fields (py "enabled") then none
      else if !(r.snoozed.isAvailable r.monotonic (backendKey b.provider b.model)).2 then none
      else some ⟨prov, b.model, m.id⟩

/-- The eligible backends of a model. -/
def targets (m : ModelConfig) : List ProbeTarget :=
  m.backends.filterMap (r.target m)

/-- The model is enabled, and its interval has passed on these timers. -/
def due (timers : Timers) (m : ModelConfig) : Bool :=
  attrBool m.fields (py "enabled") && !(PyFloat.fin (r.now - timers m.id)).lt (r.modelInterval intervalS m)

/-- The loop for one model. -/
def collect (c : Collection) (m : ModelConfig) : Collection :=
  if r.due intervalS c.timers m then
    ⟨Function.update c.timers m.id r.now, c.marked ++ [m.id], c.backendsToProbe ++ r.targets m⟩
  else c

/-- The way through the models. -/
def collection (timers : Timers) : Collection :=
  if attrBool r.config.server.attrs.fields (py "probe_enabled") then
    r.config.models.foldl (r.collect intervalS) ⟨timers, [], []⟩
  else ⟨timers, [], []⟩

/-- The timers after a round. -/
def next (timers : Timers) (r : Round) : Timers :=
  (r.collection intervalS timers).timers

/-- The backends that a round probes. -/
def probed (timers : Timers) (order : Shuffle) : List ProbeTarget :=
  (order.run (r.collection intervalS timers).backendsToProbe).take probeBatch

/-- Every eligible backend of a model that is marked is probed, in every order. -/
def CoversAll (timers : Timers) : Prop :=
  ∀ order m, m ∈ r.config.models → attrBool m.fields (py "enabled") = true →
    m.id ∈ (r.collection intervalS timers).marked → ∀ b ∈ r.targets m, b ∈ r.probed intervalS timers order

/-! ### The timers before the round -/

/-- The timers behind some models: those of the models that were due are reset. -/
def reset (timers : Timers) (earlier : List ModelConfig) : Timers := fun id ↦
  if earlier.any fun m ↦ m.id = id && r.due intervalS timers m then r.now else timers id

/-- The models of a list that the loop takes, after others. -/
def takenFrom (timers : Timers) : List ModelConfig → List ModelConfig → List ModelConfig
  | _, [] => []
  | earlier, m :: models =>
    (if r.due intervalS (r.reset intervalS timers earlier) m then [m] else []) ++
      takenFrom timers (earlier ++ [m]) models

/-- The backends of the models that are due, less those whose timer an earlier model of the same id has just reset. -/
def dueTargets (timers : Timers) : List ProbeTarget :=
  (r.takenFrom intervalS timers [] r.config.models).flatMap r.targets

/-- The round can probe all it should: for a model whose id has fallen due, every eligible backend is among those of
the models that are due, and fewer than ten of these are others. -/
def FitsBatch (timers : Timers) : Prop :=
  attrBool r.config.server.attrs.fields (py "probe_enabled") = true →
    ∀ m ∈ r.config.models, attrBool m.fields (py "enabled") = true →
      (∃ m' ∈ r.config.models, m'.id = m.id ∧ r.due intervalS timers m' = true) →
      ∀ b ∈ r.targets m, b ∈ r.dueTargets intervalS timers ∧
        (r.dueTargets intervalS timers).countP (· ≠ b) < probeBatch

variable {intervalS r}

theorem due_congr {timers timers' : Timers} {m : ModelConfig} (h : timers m.id = timers' m.id) :
    r.due intervalS timers m = r.due intervalS timers' m := by
  rw [due, due, h]

/-- The timers behind one more model. -/
theorem reset_concat (timers : Timers) (earlier : List ModelConfig) (m : ModelConfig) :
    r.reset intervalS timers (earlier ++ [m]) =
      if r.due intervalS (r.reset intervalS timers earlier) m then
        Function.update (r.reset intervalS timers earlier) m.id r.now
      else r.reset intervalS timers earlier := by
  funext id
  by_cases hid : m.id = id
  · subst hid
    rcases hany : earlier.any fun m' ↦ m'.id = m.id && r.due intervalS timers m' with - | -
    · -- the timer of the model is the one from before the round
      have hself : r.reset intervalS timers earlier m.id = timers m.id := by simp [reset, hany]
      rw [due_congr hself]
      rcases hdue : r.due intervalS timers m with - | - <;> simp [reset, hany, hdue]
    · have hself : r.reset intervalS timers earlier m.id = r.now := by simp [reset, hany]
      have hafter : r.reset intervalS timers (earlier ++ [m]) m.id = r.now := by simp [reset, hany]
      rw [hafter]
      split_ifs
      · rw [Function.update_self]
      · exact hself.symm
  · have hafter : r.reset intervalS timers (earlier ++ [m]) id = r.reset intervalS timers earlier id := by
      simp [reset, hid]
    rw [hafter]
    split_ifs
    · rw [Function.update_of_ne (Ne.symm hid)]
    · rfl

/-- **The way through the models.** -/
theorem foldl_collect (timers : Timers) (earlier models : List ModelConfig) (marked : List PyStr)
    (backends : List ProbeTarget) :
    models.foldl (r.collect intervalS) ⟨r.reset intervalS timers earlier, marked, backends⟩ =
      ⟨r.reset intervalS timers (earlier ++ models),
        marked ++ (r.takenFrom intervalS timers earlier models).map ModelConfig.id,
        backends ++ (r.takenFrom intervalS timers earlier models).flatMap r.targets⟩ := by
  induction models generalizing earlier marked backends with
  | nil => simp [takenFrom]
  | cons m models ih =>
    have hrest := ih (earlier ++ [m])
    rw [List.append_assoc, List.singleton_append] at hrest
    rw [List.foldl_cons, collect, takenFrom]
    rcases hdue : r.due intervalS (r.reset intervalS timers earlier) m with - | -
    · have hreset : r.reset intervalS timers (earlier ++ [m]) = r.reset intervalS timers earlier := by
        rw [reset_concat, hdue, if_neg Bool.false_ne_true]
      rw [hreset] at hrest
      rw [if_neg Bool.false_ne_true, if_neg Bool.false_ne_true, hrest]
      rfl
    · have hreset : r.reset intervalS timers (earlier ++ [m]) =
          Function.update (r.reset intervalS timers earlier) m.id r.now := by
        rw [reset_concat, hdue, if_pos rfl]
      rw [hreset] at hrest
      rw [if_pos rfl, if_pos rfl, hrest]
      simp

/-- What a round collects. -/
theorem collection_eq (timers : Timers) (h : attrBool r.config.server.attrs.fields (py "probe_enabled") = true) :
    r.collection intervalS timers = ⟨r.reset intervalS timers r.config.models,
      (r.takenFrom intervalS timers [] r.config.models).map ModelConfig.id, r.dueTargets intervalS timers⟩ := by
  rw [collection, if_pos h]
  exact foldl_collect timers [] r.config.models [] []

/-- An id is marked if a model of that id is due. -/
theorem mem_takenFrom_iff {timers : Timers} {id : PyStr} {earlier models : List ModelConfig}
    (h : ∀ m ∈ earlier, m.id = id → r.due intervalS timers m = false) :
    id ∈ (r.takenFrom intervalS timers earlier models).map ModelConfig.id ↔
      ∃ m ∈ models, m.id = id ∧ r.due intervalS timers m = true := by
  induction models generalizing earlier with
  | nil => simp [takenFrom]
  | cons m models ih =>
    rw [takenFrom, List.map_append, List.mem_append, List.exists_mem_cons_iff]
    by_cases hid : m.id = id
    · have hself : r.reset intervalS timers earlier m.id = timers m.id := by
        rw [reset, if_neg]
        simpa [hid] using h
      rw [due_congr hself]
      rcases hdue : r.due intervalS timers m with - | -
      · have hrest : ∀ m' ∈ earlier ++ [m], m'.id = id → r.due intervalS timers m' = false := by
          intro m' hm' hid'
          rcases List.mem_append.1 hm' with hm' | hm'
          · exact h m' hm' hid'
          · rwa [List.mem_singleton.1 hm']
        simp [ih hrest]
      · simp [hid]
    · have hrest : ∀ m' ∈ earlier ++ [m], m'.id = id → r.due intervalS timers m' = false := by
        intro m' hm' hid'
        rcases List.mem_append.1 hm' with hm' | hm'
        · exact h m' hm' hid'
        · exact absurd (List.mem_singleton.1 hm' ▸ hid') hid
      have hnot :
          id ∉ (if r.due intervalS (r.reset intervalS timers earlier) m then [m] else []).map ModelConfig.id := by
        split_ifs <;> simp [Ne.symm hid]
      simp [ih hrest, hnot, hid]

/-! ### Coverage -/

/-- **When a round covers the models it marks.** -/
theorem coversAll_iff {timers : Timers} : r.CoversAll intervalS timers ↔ r.FitsBatch intervalS timers := by
  rcases hon : attrBool r.config.server.attrs.fields (py "probe_enabled") with - | -
  · simp [CoversAll, FitsBatch, collection, hon]
  · have hmarked (id : PyStr) : id ∈ (r.collection intervalS timers).marked ↔
        ∃ m ∈ r.config.models, m.id = id ∧ r.due intervalS timers m = true := by
      rw [collection_eq timers hon]
      exact mem_takenFrom_iff fun m hm ↦ by cases hm
    have hprobed (order : Shuffle) : r.probed intervalS timers order =
        (order.run (r.dueTargets intervalS timers)).take probeBatch := by
      rw [probed, collection_eq timers hon]
    constructor
    · intro h _ m hm henabled hdue b hb
      have hcovered (order : Shuffle) : b ∈ (order.run (r.dueTargets intervalS timers)).take probeBatch :=
        hprobed order ▸ h order m hm henabled ((hmarked m.id).2 hdue) b hb
      have hlast := hcovered ⟨withLast b, perm_withLast b⟩
      exact ⟨(perm_withLast b _).subset (List.mem_of_mem_take hlast), countP_lt_of_mem_take_withLast hlast⟩
    · intro h order m hm henabled hmark b hb
      obtain ⟨hmem, hcount⟩ := h hon m hm henabled ((hmarked m.id).1 hmark) b hb
      have hperm := order.perm (r.dueTargets intervalS timers)
      rw [hprobed]
      exact mem_take_of_countP_lt (hperm.mem_iff.2 hmem) (by rwa [hperm.countP_eq])

/-- What the timers promise: one that has been reset shows the time of a round which probed every eligible backend of
the model. -/
def TimersTrusted (intervalS : PyFloat) (start : Timers) (rounds : List Round) : Prop :=
  ∀ id, Runs.exec (next intervalS) start rounds id ≠ start id →
    ∃ past r future, rounds = past ++ r :: future ∧ Runs.exec (next intervalS) start rounds id = r.now ∧
      ∀ order m, m ∈ r.config.models → attrBool m.fields (py "enabled") = true → m.id = id →
        ∀ b ∈ r.targets m, b ∈ r.probed intervalS (Runs.exec (next intervalS) start past) order

/-- A timer that is reset in a round is that of a model which the round marks. -/
theorem next_cases (timers : Timers) (r : Round) (id : PyStr) : next intervalS timers r id = timers id ∨
    next intervalS timers r id = r.now ∧ id ∈ (r.collection intervalS timers).marked := by
  rcases hon : attrBool r.config.server.attrs.fields (py "probe_enabled") with - | -
  · exact .inl (by simp [next, collection, hon])
  · have hnext : next intervalS timers r id = r.reset intervalS timers r.config.models id := by
      rw [next, collection_eq timers hon]
    rw [hnext, reset]
    split_ifs with hany
    · obtain ⟨m, hm, hdue⟩ := List.any_eq_true.1 hany
      simp only [Bool.and_eq_true, decide_eq_true_eq] at hdue
      refine .inr ⟨rfl, ?_⟩
      rw [collection_eq timers hon]
      exact (mem_takenFrom_iff fun m hm ↦ by cases hm).2 ⟨m, hm, hdue⟩
    · exact .inl rfl

/-- If every round covers what it marks, the timers can be trusted. -/
theorem timersTrusted_of_every {start : Timers} {rounds : List Round}
    (h : Runs.Every (next intervalS) (fun _ timers r ↦ r.CoversAll intervalS timers) start rounds) :
    TimersTrusted intervalS start rounds := by
  induction rounds using List.reverseRecOn with
  | nil => exact fun id hid ↦ absurd rfl hid
  | append_singleton rounds r ih =>
    obtain ⟨hrounds, hcovers⟩ := Runs.every_concat_iff.1 h
    intro id hid
    rw [Runs.exec_concat] at hid ⊢
    rcases next_cases (Runs.exec (next intervalS) start rounds) r id with hsame | ⟨hreset, hmarked⟩
    · -- the timer was reset in an earlier round
      rw [hsame] at hid ⊢
      obtain ⟨past, r', future, rfl, hnow, hprobed⟩ := ih hrounds id hid
      exact ⟨past, r', future ++ [r], by simp, hnow, hprobed⟩
    · refine ⟨rounds, r, [], rfl, hreset, ?_⟩
      rintro order m hm henabled rfl
      exact hcovers order m hm henabled hmarked

/-- **Probe coverage.** The rounds of a run probe every eligible backend of the models they mark, in every order, so
that the timers can be trusted, if and only if each round can probe all it should. -/
theorem probesCovered_iff (intervalS : PyFloat) (start : Timers) (rounds : List Round) :
    (Runs.Every (next intervalS) (fun _ timers r ↦ r.CoversAll intervalS timers) start rounds ∧
        TimersTrusted intervalS start rounds) ↔
      Runs.Every (next intervalS) (fun _ timers r ↦ r.FitsBatch intervalS timers) start rounds := by
  constructor
  · rintro ⟨h, -⟩ past r future hrun
    exact coversAll_iff.1 (h past r future hrun)
  · intro h
    have hcovers : Runs.Every (next intervalS) (fun _ timers r ↦ r.CoversAll intervalS timers) start rounds :=
      fun past r future hrun ↦ coversAll_iff.2 (h past r future hrun)
    exact ⟨hcovers, timersTrusted_of_every hcovers⟩

end Round

/-- A round on a model with this many backends at one provider, all of them enabled. -/
def crowdedRound (n : ℕ) : Round where
  config := plainGateway plainServer <| (List.range n).map fun i ↦
    ⟨1, (py "provider", .str (py "a")) :: (py "model", .str (Json.natRepr i)) :: defaultFields backendClass.specs⟩
  now := 1000000
  monotonic := 0
  snoozed := .empty

/-- Its backends. -/
def crowdedTargets (n : ℕ) : List ProbeTarget :=
  (List.range n).map fun i ↦ ⟨plainProvider (py "a"), Json.natRepr i, py "m"⟩

example : (crowdedRound 10).dueTargets (.fin 3600) (fun _ ↦ 0) = crowdedTargets 10 := by decide +kernel

/-- **The eleventh backend.** The first round of the prober marks a model with eleven backends, and can only probe ten
of them. -/
theorem not_covers_crowded : ¬ Runs.Every (Round.next (.fin 3600))
    (fun _ timers r ↦ r.CoversAll (.fin 3600) timers) (fun _ ↦ 0) [crowdedRound 11] := by
  intro h
  have hfits := Round.coversAll_iff.1 (h [] _ [] rfl)
  obtain ⟨m, hm, henabled, hdue, htargets⟩ : ∃ m ∈ (crowdedRound 11).config.models,
      attrBool m.fields (py "enabled") = true ∧ (crowdedRound 11).due (.fin 3600) (fun _ ↦ 0) m = true ∧
        (crowdedRound 11).targets m = crowdedTargets 11 := by
    refine ⟨_, List.mem_singleton_self _, ?_, ?_, ?_⟩ <;> decide +kernel
  have hmem : ⟨plainProvider (py "a"), Json.natRepr 0, py "m"⟩ ∈ (crowdedRound 11).targets m := by
    rw [htargets]
    decide +kernel
  have hcount := (hfits (by decide +kernel) m hm henabled ⟨m, hm, rfl, hdue⟩ _ hmem).2
  revert hcount
  decide +kernel

end LocalGateway
