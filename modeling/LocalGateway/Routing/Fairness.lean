import LocalGateway.Foundations.Runs
import LocalGateway.Routing.TierOrder

/-!
# Fairness of the rotation

Each model has one counter, which every selection for it takes one further (`_next_rotation`), and all
tiers of the model are rotated by it, whatever their sizes.

* `count_turns`: in a run of turns, each of `n` elements heads `m` of `m * n` rotations.
* `firsts`: the entries of a tier that the selections of a run emit first, for one model among others.
* `firsts_fair`: in every window, each routable entry of the tier has its share, if the selections rotate
  the tier and do not raise.
* `not_firsts_fair`: entries of one weight other than one are drawn, not rotated.
-/

namespace LocalGateway

open Py

/-! ### Turns -/

section Turns

variable {α : Type*}

/-- The heads of consecutive rotations of a list. -/
def heads (as : List α) (start k : ℕ) : List (Option α) :=
  (List.range k).map fun i ↦ (as.rotate (start + i)).head?

theorem heads_add (as : List α) (start k l : ℕ) :
    heads as start (k + l) = heads as start k ++ heads as (start + k) l := by
  unfold heads
  rw [List.range_add, List.map_append, List.map_map]
  simp only [Function.comp_def, Nat.add_assoc]

theorem heads_succ (as : List α) (start k : ℕ) :
    heads as start (k + 1) = (as.rotate start).head? :: heads as (start + 1) k := by
  rw [Nat.add_comm k, heads_add]
  rfl

/-- In one round every element has its turn. -/
theorem heads_round (as : List α) (start : ℕ) :
    heads as start as.length = (as.rotate start).map some := by
  refine List.ext_getElem (by simp [heads]) fun i hi _ ↦ ?_
  have hlt : i < (as.rotate start).length := by simpa [heads] using hi
  simp only [heads, List.getElem_map, List.getElem_range]
  rw [← List.rotate_rotate, List.head?_rotate hlt, List.getElem?_eq_getElem hlt]

/-- **Round robin.** Among as many turns as `m` rounds have, wherever they begin, each element has `m`. -/
theorem count_heads [DecidableEq α] {as : List α} (hnodup : as.Nodup) {a : α} (ha : a ∈ as)
    (start m : ℕ) : (heads as start (m * as.length)).count (some a) = m := by
  induction m with
  | zero => simp [heads]
  | succ m ih =>
    have hround : ((as.rotate (start + m * as.length)).map some).count (some a) = 1 := by
      rw [List.count_map_of_injective _ _ (Option.some_injective α), (List.rotate_perm ..).count_eq,
        List.count_eq_one_of_mem hnodup ha]
    rw [Nat.succ_mul, heads_add, List.count_append, ih, heads_round, hround]

end Turns

/-! ### The first of a tier -/

section First

variable (c : GatewayConfig) (now : Moment) (prefs : ProviderPrefs) (cacheKey : PyStr)

/-- The entries are rotated: there is at most one, all weights are one, or the weights add up to zero or
less. -/
def Rotates (es : List Entry) : Prop :=
  es.length ≤ 1 ∨ (∀ e ∈ es, e.weight = .fin 1) ∨
    let total := now.floats.sum (es.map fun e ↦ e.weight.max (.fin 0))
    total.lt (.fin 0) = true ∨ total.isZero = true

theorem max_fin (w : ℚ) : PyFloat.max (.fin w) (.fin 0) = .fin (max w 0) := by
  show (if decide (w < 0) = true then PyFloat.fin 0 else .fin w) = _
  rcases lt_or_ge w 0 with hneg | hpos
  · rw [if_pos (decide_eq_true hneg), max_eq_right hneg.le]
  · rw [if_neg (by simpa using hpos), max_eq_left hpos]

/-- Without rounding, entries of one weight are rotated unless that is positive and not one. -/
theorem rotates_exact_iff {es : List Entry} (hexact : now.floats = exactFloats) {w : ℚ}
    (hw : ∀ e ∈ es, e.weight = .fin w) : Rotates now es ↔ es.length ≤ 1 ∨ w = 1 ∨ w ≤ 0 := by
  rcases Nat.lt_or_ge 1 es.length with hlength | hlength
  swap
  · exact ⟨fun _ ↦ .inl hlength, fun _ ↦ .inl hlength⟩
  obtain ⟨e, he⟩ := List.exists_mem_of_length_pos (Nat.zero_lt_of_lt hlength)
  have hone : (∀ e ∈ es, e.weight = .fin 1) ↔ w = 1 := by
    constructor
    · exact fun h ↦ PyFloat.fin.inj ((hw e he).symm.trans (h e he))
    · rintro rfl
      exact hw
  have htotal : now.floats.sum (es.map fun e ↦ e.weight.max (.fin 0)) =
      .fin (es.length * max w 0) := by
    have hmap : (es.map fun e ↦ e.weight.max (.fin 0)) = List.replicate es.length (.fin (max w 0)) :=
      List.eq_replicate_iff.2 ⟨List.length_map _, fun x hx ↦ by
        obtain ⟨e, he, rfl⟩ := List.mem_map.1 hx
        rw [hw e he, max_fin]⟩
    rw [hexact, hmap]
    show PyFloat.fin (List.map PyFloat.rat _).sum = _
    simp [PyFloat.rat]
  unfold Rotates
  rw [hone, htotal, or_iff_right hlength.not_ge, or_iff_right hlength.not_ge]
  have hpositive : (0 : ℚ) < es.length := by exact_mod_cast Nat.zero_lt_of_lt hlength
  refine or_congr_right ?_
  show decide ((es.length : ℚ) * max w 0 < 0) = true ∨ _ ↔ _
  rw [decide_eq_true_eq, or_iff_right (mul_nonneg hpositive.le (le_max_right w 0)).not_gt]
  simp [PyFloat.isZero, hpositive.ne']

theorem rotate_of_length_le {es : List Entry} (h : es.length ≤ 1) (r : ℕ) : es.rotate r = es := by
  rcases es with - | ⟨e, - | ⟨e', es⟩⟩
  · exact List.rotate_nil r
  · exact List.rotate_singleton e r
  · simp at h

/-- Entries that are rotated, without a sort or measurements. -/
theorem arrange_rotates {es : List Entry} (draw : PyFloat) (hsort : prefs.sort = none)
    (htps : now.tps = []) (h : Rotates now es) :
    arrange c now prefs cacheKey draw es = es.rotate now.rotation := by
  rcases h with hlength | hweight | htotal
  · rw [rotate_of_length_le hlength]
    unfold arrange
    simp only [hsort, seen_of_tps c now prefs htps, htps]
    split_ifs with hnil hmeasured
    · rfl
    · simp at hmeasured
    · rw [staticWeightRotation, if_pos hlength]
    · exact (rotate_mod ..).trans (rotate_of_length_le hlength _)
  · exact arrange_plain c now prefs cacheKey draw ⟨hsort, htps, hweight⟩
  · have htotal : ((now.floats.sum (es.map fun e ↦ e.weight.max (.fin 0))).lt (.fin 0) ||
        (now.floats.sum (es.map fun e ↦ e.weight.max (.fin 0))).isZero) = true :=
      Bool.or_eq_true_iff.2 htotal
    unfold arrange
    simp only [hsort, seen_of_tps c now prefs htps, htps]
    split_ifs with hnil hmeasured
    · rw [hnil, List.rotate_nil]
    · simp at hmeasured
    · unfold staticWeightRotation
      simp only [htotal, if_true]
      split_ifs with hlength
      · exact (rotate_of_length_le hlength _).symm
      · exact rotate_mod ..
    · exact rotate_mod ..

/-- The first element with a property comes from the one part that has some. -/
theorem find?_flatMap {κ α : Type*} {p : α → Bool} {f : κ → List α} {key : κ} {keys : List κ}
    (hkey : key ∈ keys) (hown : ∀ a ∈ f key, p a = true)
    (hother : ∀ k ∈ keys, k ≠ key → ∀ a ∈ f k, p a = false) (hne : f key ≠ []) :
    (keys.flatMap f).find? p = (f key).head? := by
  obtain ⟨a, as, hfirst⟩ := List.exists_cons_of_ne_nil hne
  induction keys with
  | nil => cases hkey
  | cons k keys ih =>
    rw [List.flatMap_cons, List.find?_append]
    rcases eq_or_ne k key with rfl | hk
    · rw [hfirst, List.find?_cons_of_pos (hown a (hfirst ▸ List.mem_cons_self))]
      rfl
    · have hnone : (f k).find? p = none := List.find?_eq_none.2 fun a ha ↦ by
        simp [hother k List.mem_cons_self hk a ha]
      rw [hnone, Option.none_or]
      exact ih (List.mem_of_ne_of_mem hk.symm hkey)
        fun k' hk' ↦ hother k' (List.mem_cons_of_mem _ hk')

/-- The entry of a tier that comes first among emitted ones. -/
def firstIn (key : ℤ) (emitted : List SelectedBackend) : Option Entry :=
  (emitted.map SelectedBackend.entry).find? fun e ↦ e.backend.priority = key

variable (A : Answers Entry)

/-- A pass over entries whose answers do not change is a filter. -/
theorem pass_constant {p : Entry → Bool} {want : Bool} (k : ℕ) {es : List Entry}
    (h : ∀ k, ∀ e ∈ es, A.ask k e = p e) : A.pass want k es = es.filter fun e ↦ p e = want := by
  rw [← Answers.pass_frozen p want k]
  induction es generalizing k with
  | nil => rfl
  | cons e es ih =>
    rw [Answers.pass_cons, Answers.pass_cons, h k e List.mem_cons_self,
      ih (k + 1) fun k e he ↦ h k e (List.mem_cons_of_mem _ he)]
    rfl

/-- The number of the question that is asked first for a tier. -/
def firstQuestion (es : List Entry) (key : ℤ) : ℕ :=
  questions ((((tierKeys es).takeWhile (· ≠ key))).map fun k ↦ (k, tier es k))

/-- The entries of a tier that can be routed to when the selection asks. -/
def routableIn (es : List Entry) (key : ℤ) : List Entry :=
  A.pass true (firstQuestion es key) (tier es key)

/-- The draw that the order of a tier may use. -/
def tierDraw (es : List Entry) (key : ℤ) : PyFloat :=
  now.draw ((tierKeys es).idxOf key)

/-- What the loop over the tiers makes of one of them. -/
theorem available_splitTiers {key : ℤ} {keys : List ℤ} (hkeys : keys.Nodup) (hkey : key ∈ keys)
    (f : ℤ → List Entry) (k i : ℕ) :
    ((splitTiers c now prefs cacheKey A k i (keys.map fun key ↦ (key, f key))).filter
        fun t ↦ t.key = key).flatMap TierSplit.available =
      arrange c now prefs cacheKey (now.draw (i + keys.idxOf key))
        (A.pass true (k + questions ((keys.takeWhile (· ≠ key)).map fun key ↦ (key, f key))) (f key)) := by
  induction keys generalizing k i with
  | nil => cases hkey
  | cons x keys ih =>
    obtain ⟨hx, hkeys⟩ := List.nodup_cons.1 hkeys
    rw [List.map_cons, splitTiers]
    rcases eq_or_ne x key with rfl | hne
    · -- no later tier has the key
      have hnone : (splitTiers c now prefs cacheKey A (k + 2 * (f x).length) (i + 1)
          (keys.map fun key ↦ (key, f key))).filter (fun t ↦ t.key = x) = [] := by
        rw [List.filter_eq_nil_iff]
        intro t ht htx
        have hmem := List.mem_map_of_mem (f := TierSplit.key) ht
        rw [map_key_splitTiers, List.map_map] at hmem
        obtain ⟨x', hx', rfl⟩ := List.mem_map.1 hmem
        exact hx (of_decide_eq_true htx ▸ hx')
      rw [List.filter_cons_of_pos (by simp), hnone, List.flatMap_singleton, List.idxOf_cons_self,
        List.takeWhile_cons_of_neg (by simp)]
      rfl
    · rw [List.filter_cons_of_neg (by simpa using hne), ih hkeys (List.mem_of_ne_of_mem hne.symm hkey),
        List.idxOf_cons_ne _ hne, List.takeWhile_cons_of_pos (by simpa using hne)]
      have hquestions : questions ((x :: keys.takeWhile (· ≠ key)).map fun key ↦ (key, f key)) =
          2 * (f x).length + questions ((keys.takeWhile (· ≠ key)).map fun key ↦ (key, f key)) := by
        simp [questions]
      rw [hquestions, Nat.add_assoc i, Nat.add_comm 1, Nat.add_assoc k]

variable {es : List Entry} {key : ℤ}

theorem mem_tier_of_mem_routableIn {e : Entry} (h : e ∈ routableIn A es key) : e ∈ tier es key :=
  (A.pass_sublist true _ _).subset h

theorem mem_tier {e : Entry} : e ∈ tier es key ↔ e ∈ es ∧ e.backend.priority = key := by
  simp [tier]

/-- **The first entry of a tier** that is emitted is the first in the order of those that can be routed to. -/
theorem firstIn_emit_arrange (haff : affinityActive c cacheKey = false) (horder : prefs.order = [])
    (hne : routableIn A es key ≠ []) (hsamples : SamplesTiers c now prefs cacheKey es) :
    firstIn key (emit c now prefs cacheKey A es).emitted =
      (arrange c now prefs cacheKey (tierDraw now es key) (routableIn A es key)).head? := by
  obtain ⟨e₀, he₀⟩ := List.exists_mem_of_ne_nil _ hne
  obtain ⟨he₀, hkey₀⟩ := mem_tier.1 (mem_tier_of_mem_routableIn A he₀)
  have hes : es ≠ [] := List.ne_nil_of_mem he₀
  have hkey : key ∈ tierKeys es := mem_tierKeys_iff.2 ⟨e₀, he₀, hkey₀⟩
  have hpinned : ¬ Pinned c prefs cacheKey es := fun h ↦ h.1 (preferredEntries_nil prefs horder es)
  have hraised := (raised_eq_false_iff c now prefs cacheKey A).2 hsamples
  obtain ⟨order, hdrawn⟩ : ∃ order, tierOrder c now prefs (tierKeys es) = some order := by
    rw [← Option.isSome_iff_exists, Option.isSome_iff_ne_none]
    intro hnone
    exact Bool.false_ne_true (hraised.symm.trans
      ((raised_iff c now prefs cacheKey A).2 ⟨hes, hpinned, haff, hnone⟩))
  have hperm := tierOrder_perm c now prefs (tierKeys_nodup es) hdrawn
  rw [emit_of_tiers c now prefs cacheKey A hes hpinned haff hdrawn,
    preferredEntries_nil prefs horder, tierGroups_of_no_order c prefs cacheKey horder]
  set splits := splitTiers c now prefs cacheKey A 0 0 ((tierKeys es).map fun key ↦ (key, tier es key))
    with hsplits
  have hsorted : sorted c now prefs cacheKey [] = [] := List.perm_nil.1 (sorted_perm ..)
  -- every tier is one block of what is emitted, and no other block has its entries
  have hblock : ∀ {k}, k ∈ tierKeys es → (splits.filter fun t ↦ t.key = k).flatMap TierSplit.available =
      arrange c now prefs cacheKey (tierDraw now es k) (routableIn A es k) := fun {k} hk ↦ by
    rw [hsplits, available_splitTiers c now prefs cacheKey A (tierKeys_nodup es) hk (tier es) 0 0,
      Nat.zero_add, Nat.zero_add]
    rfl
  have hmem : ∀ {k e}, k ∈ tierKeys es → e ∈ (splits.filter fun t ↦ t.key = k).flatMap TierSplit.available →
      e.backend.priority = k := fun {k e} hk he ↦ by
    rw [hblock hk, (arrange_perm ..).mem_iff] at he
    exact (mem_tier.1 (mem_tier_of_mem_routableIn A he)).2
  have harranged : arrange c now prefs cacheKey (tierDraw now es key) (routableIn A es key) ≠ [] := fun hnil ↦
    hne (List.perm_nil.1 (hnil ▸ (arrange_perm ..).symm))
  simp only [firstIn, emitTiers, Answers.pass_nil, hsorted, List.map_append, List.map_flatMap,
    map_entry_tagReason, List.nil_append, List.append_nil]
  rw [List.find?_append, find?_flatMap (hperm.mem_iff.2 hkey)]
  · rw [hblock hkey, Option.or_of_isSome (List.isSome_head?.2 harranged)]
  · exact fun e he ↦ decide_eq_true (hmem hkey he)
  · intro k hk hother e he
    rw [hmem (hperm.mem_iff.1 hk) he]
    exact decide_eq_false hother
  · rwa [hblock hkey]


variable {routables : List Entry}

/-- The tier can be routed to at these entries, and at no others, as long as the selection takes. -/
structure RoutableAt (es : List Entry) (key : ℤ) (routables : List Entry) : Prop where
  constant : ∀ k, ∀ e ∈ tier es key, A.ask k e = A.ask 0 e
  filter : (tier es key).filter (A.ask 0) = routables

/-- **The first entry of a tier** is the head of its rotation. -/
theorem firstIn_emit (haff : affinityActive c cacheKey = false) (horder : prefs.order = [])
    (hsort : prefs.sort = none) (htps : now.tps = []) (hroutable : RoutableAt A es key routables)
    (hne : routables ≠ []) (hrotates : Rotates now routables)
    (hsamples : SamplesTiers c now prefs cacheKey es) :
    firstIn key (emit c now prefs cacheKey A es).emitted = (routables.rotate now.rotation).head? := by
  have hin : routableIn A es key = routables := by
    rw [routableIn, pass_constant A _ hroutable.constant, ← hroutable.filter]
    simp
  rw [firstIn_emit_arrange c now prefs cacheKey A haff horder (hin ▸ hne) hsamples, hin,
    arrange_rotates c now prefs cacheKey _ hsort htps hrotates]

end First

/-! ### Runs of selections -/

/-- A call of `select_backends`, consumed to its end, and what it meets but for the rotation. -/
structure Selecting where
  now : Moment
  prefs : ProviderPrefs
  cacheKey : PyStr
  modelId : PyStr
  demand : Demand
  answers : Answers Entry

namespace Selecting

variable (c : GatewayConfig) (q : Selecting) (rotations : PyStr → ℕ)

/-- The id of the model, under which its rotations are counted. -/
def counter : Option PyStr :=
  (c.modelById q.modelId).map (·.id)

/-- The moment of the call. -/
def moment : Moment :=
  { q.now with rotation := ((q.counter c).map rotations).getD 0 }

/-- What the call emits. -/
def selection : Selection :=
  selectBackends c (q.moment c rotations) q.prefs q.cacheKey q.answers q.modelId q.demand

/-- The entries that can serve the request. -/
def serving : List Entry :=
  (candidates c q.now q.prefs q.modelId q.demand).getD []

/-- The rotations after the call: it takes the next one, unless it ends before. -/
def next (rotations : PyStr → ℕ) (q : Selecting) : PyStr → ℕ :=
  match q.counter c with
  | some id =>
    if q.serving c ≠ [] ∧ ¬ Pinned c q.prefs q.cacheKey (q.serving c) then
      Function.update rotations id (rotations id + 1)
    else rotations
  | none => rotations

/-- What the results about a tier of a model ask of its selections: no affinity, order, sort or measurements,
and the tier can be routed to at the same entries. -/
structure Keeps (key : ℤ) (routables : List Entry) : Prop where
  affinity : affinityActive c q.cacheKey = false
  order : q.prefs.order = []
  sort : q.prefs.sort = none
  tps : q.now.tps = []
  routable : RoutableAt q.answers (q.serving c) key routables

end Selecting

section Runs

variable (c : GatewayConfig) (id : PyStr) (key : ℤ)

/-- The entries of a tier that the selections for a model emit first, in a run. -/
def firsts : (PyStr → ℕ) → List Selecting → List (Option Entry)
  | _, [] => []
  | rotations, q :: steps =>
    if q.counter c = some id then
      firstIn key (q.selection c rotations).emitted :: firsts (q.next c rotations) steps
    else firsts (q.next c rotations) steps

theorem length_firsts (rotations : PyStr → ℕ) (steps : List Selecting) :
    (firsts c id key rotations steps).length =
      (steps.filter fun q ↦ q.counter c = some id).length := by
  induction steps generalizing rotations with
  | nil => rfl
  | cons q steps ih =>
    rw [firsts, List.filter_cons]
    simp only [decide_eq_true_eq]
    split_ifs
    · rw [List.length_cons, List.length_cons, ih]
    · exact ih _

variable {c id key} {q : Selecting} {routables : List Entry} {rotations : PyStr → ℕ}

/-- A selection for another model leaves the counter alone. -/
theorem next_other (h : q.counter c ≠ some id) : q.next c rotations id = rotations id := by
  unfold Selecting.next
  rcases hcounter : q.counter c with - | other
  · rfl
  · have hne : id ≠ other := fun heq ↦ h (heq ▸ hcounter)
    dsimp only
    split_ifs
    · exact Function.update_of_ne hne ..
    · rfl

/-- One for the model takes the next rotation. -/
theorem next_own (h : q.counter c = some id) (hkeeps : q.Keeps c key routables)
    (hne : routables ≠ []) : q.next c rotations id = rotations id + 1 := by
  have hserving : q.serving c ≠ [] := fun hnil ↦ by
    have := hkeeps.routable.filter
    rw [hnil] at this
    exact hne this.symm
  have hpinned : ¬ Pinned c q.prefs q.cacheKey (q.serving c) := fun h ↦
    h.1 (preferredEntries_nil q.prefs hkeeps.order _)
  simp only [Selecting.next, h]
  rw [if_pos ⟨hserving, hpinned⟩, Function.update_self]

/-- The selection rotates what can be routed to in the tier, and returns. -/
structure TakesTurn (c : GatewayConfig) (q : Selecting) (routables : List Entry) : Prop where
  rotates : Rotates q.now routables
  samples : SamplesTiers c q.now q.prefs q.cacheKey (q.serving c)

/-- **One selection** emits the head of the rotation first in the tier. -/
theorem firstIn_selection (h : q.counter c = some id) (hkeeps : q.Keeps c key routables)
    (hne : routables ≠ []) (hturn : TakesTurn c q routables) :
    firstIn key (q.selection c rotations).emitted = (routables.rotate (rotations id)).head? := by
  have hrotation : (q.moment c rotations).rotation = rotations id := by
    simp [Selecting.moment, h]
  have hcandidates : candidates c (q.moment c rotations) q.prefs q.modelId q.demand =
      some (q.serving c) := by
    show candidates c q.now q.prefs q.modelId q.demand = some (q.serving c)
    rcases hes : candidates c q.now q.prefs q.modelId q.demand with - | es
    · have hnil : q.serving c = [] := by rw [Selecting.serving, hes, Option.getD_none]
      have := hkeeps.routable.filter
      rw [hnil] at this
      exact absurd this.symm hne
    · rw [Selecting.serving, hes, Option.getD_some]
  rw [Selecting.selection, selectBackends_eq, hcandidates, ← hrotation]
  exact firstIn_emit c (q.moment c rotations) q.prefs q.cacheKey q.answers hkeeps.affinity hkeeps.order
    hkeeps.sort hkeeps.tps hkeeps.routable hne hturn.rotates hturn.samples

/-- **A run.** What the selections for a model emit first in a tier are consecutive heads of its rotation,
whatever other models are selected for in between. -/
theorem firsts_eq_heads (hne : routables ≠ []) {steps : List Selecting}
    (h : ∀ q ∈ steps, q.counter c = some id → q.Keeps c key routables ∧ TakesTurn c q routables) :
    firsts c id key rotations steps =
      heads routables (rotations id) (steps.filter fun q ↦ q.counter c = some id).length := by
  induction steps generalizing rotations with
  | nil => rfl
  | cons q steps ih =>
    have hrest := @ih (q.next c rotations) fun q' hq' ↦ h q' (List.mem_cons_of_mem _ hq')
    rw [firsts, List.filter_cons, hrest]
    simp only [decide_eq_true_eq]
    split_ifs with hown
    · obtain ⟨hkeeps, hturn⟩ := h q List.mem_cons_self hown
      rw [firstIn_selection hown hkeeps hne hturn, next_own hown hkeeps hne, List.length_cons, heads_succ]
    · rw [next_other hown]

/-- **Fairness.** After any selections, in a window with `m * n` selections for a model among others: each of
the `n` entries at which a tier can be routed to all that time is emitted first in it `m` times, if the
selections rotate them and return. -/
theorem firsts_fair (past window : List Selecting) (start : PyStr → ℕ) (m : ℕ)
    (hkeeps : ∀ q ∈ window, q.counter c = some id → q.Keeps c key routables)
    (hturns : ∀ q ∈ window, q.counter c = some id → TakesTurn c q routables)
    (hcount : (window.filter fun q ↦ q.counter c = some id).length = m * routables.length) :
    ∀ e ∈ routables,
      (firsts c id key (Runs.exec (Selecting.next c) start past) window).count (some e) = m := by
  intro e he
  have hne : routables ≠ [] := List.ne_nil_of_mem he
  rw [firsts_eq_heads hne fun q hq hown ↦ ⟨hkeeps q hq hown, hturns q hq hown⟩, hcount]
  rcases Nat.eq_zero_or_pos m with rfl | hm
  · simp [heads]
  · -- some selection is for the model, and its candidates are not repeated
    obtain ⟨q, hq⟩ := List.exists_mem_of_length_pos (hcount ▸ Nat.mul_pos hm (List.length_pos_iff.2 hne))
    obtain ⟨hq, hown⟩ := List.mem_filter.1 hq
    have hnodup : (q.serving c).Nodup := by
      rcases hes : candidates c q.now q.prefs q.modelId q.demand with - | es
      · rw [Selecting.serving, hes]
        exact List.nodup_nil
      · rw [Selecting.serving, hes]
        exact candidates_nodup c q.now q.prefs hes
    refine count_heads ?_ he _ m
    rw [← (hkeeps q hq (of_decide_eq_true hown)).routable.filter]
    exact (hnodup.filter _).filter _

end Runs

/-- A backend of the tier 1 with a weight. -/
def weighted (provider : PyStr) (weight : ℚ) : BackendConfig :=
  ⟨1, (plainBackend provider 1).fields.map fun f ↦
    if f.1 = py "weight" then (f.1, .float (.fin weight)) else f⟩

/-- Two backends of one tier, of the same weight. -/
def evenPair (weight : ℚ) : GatewayConfig :=
  plainGateway plainServer [weighted (py "a") weight, weighted (py "b") weight]

/-- Their entries. -/
def evenEntries (weight : ℚ) : List Entry :=
  [⟨0, plainProvider (py "a"), weighted (py "a") weight⟩,
    ⟨1, plainProvider (py "b"), weighted (py "b") weight⟩]

/-- A selection for the only model there is, with all draws zero. -/
def selectPair : Selecting :=
  ⟨quietMoment, .none, [], py "m", plainDemand, .frozen fun _ ↦ true⟩

theorem selectPair_keeps_one : selectPair.Keeps (evenPair 1) 1 (evenEntries 1) :=
  ⟨by decide +kernel, rfl, rfl, rfl, fun _ _ _ ↦ rfl, by decide +kernel⟩

theorem selectPair_keeps_two : selectPair.Keeps (evenPair 2) 1 (evenEntries 2) :=
  ⟨by decide +kernel, rfl, rfl, rfl, fun _ _ _ ↦ rfl, by decide +kernel⟩

theorem firsts_fair_sample :
    (evenEntries 1).map (fun e ↦ (firsts (evenPair 1) (py "m") 1
      (Runs.exec (Selecting.next (evenPair 1)) (fun _ ↦ 0) [selectPair])
        [selectPair, selectPair, selectPair, selectPair]).count (some e)) = [2, 2] := by
  have hall : ∀ q ∈ [selectPair, selectPair, selectPair, selectPair], q = selectPair := by simp
  refine List.map_congr_left (firsts_fair [selectPair] [selectPair, selectPair, selectPair, selectPair] (fun _ ↦ 0) 2
    (fun q hq _ ↦ ?_) (fun q hq _ ↦ ?_) (by decide +kernel))
  · rw [hall q hq]
    exact selectPair_keeps_one
  · rw [hall q hq]
    exact ⟨.inr (.inl (by decide +kernel)), fun _ _ _ h ↦ absurd h (by decide +kernel)⟩

example : (evenEntries 1).map (fun e ↦
    (firsts (evenPair 1) (py "m") 1 (fun _ ↦ 0) [selectPair, selectPair]).count (some e)) = [1, 1] := by
  decide +kernel

/-- Of two backends with the weight two, the draws can choose the same one again and again. -/
theorem not_firsts_fair :
    selectPair.Keeps (evenPair 2) 1 (evenEntries 2) ∧ (∀ e ∈ evenEntries 2, e.weight = .fin 2) ∧
      ¬ ∀ e ∈ evenEntries 2, (firsts (evenPair 2) (py "m") 1 (fun _ ↦ 0)
        [selectPair, selectPair]).count (some e) = 1 :=
  ⟨selectPair_keeps_two, by decide +kernel, by decide +kernel⟩

end LocalGateway
