import LocalGateway.Config.Admin
import LocalGateway.Foundations.DenseRank
import LocalGateway.Foundations.Passes
import LocalGateway.Foundations.Quantiles
import LocalGateway.Foundations.Runs
import LocalGateway.Routing.Guarantees

/-!
# Dragging backends between tiers

On the page of a model a backend is dragged to the row of another one, or to that of a new tier. The page changes the
number of the backend in its own copy of the configuration and sends all tiers by that copy; the server numbers them
from one on. The rows are shown with the numbers of the server, but the copy is not fetched again.

* `groupTiers`: the tiers that are sent; `setBackendsTiers_groupTiers`: what the server makes of them.
* `TierPage.next`: the page and the server, with requests that are lost or not answered.
* `tierDrag_exec`: where a backend ends up that is dragged to a row.
-/

namespace LocalGateway

open Py Json Runs

/-! ### The tiers that are sent -/

/-- `b.priority || 1`. -/
def tierOf (priority : ℤ) : ℤ :=
  if priority = 0 then 1 else priority

theorem tierOf_tierOf (p : ℤ) : tierOf (tierOf p) = tierOf p := by
  unfold tierOf
  by_cases h : p = 0
  · rw [if_pos h]
    rfl
  · rw [if_neg h, if_neg h]

theorem tierOf_of_pos {p : ℤ} (h : 0 < p) : tierOf p = p :=
  if_neg h.ne'

theorem tierOf_natCast {k : ℕ} (hk : 0 < k) : tierOf k = k :=
  tierOf_of_pos (Int.natCast_pos.2 hk)

/-- The numbers of the tiers, in order. -/
def tierNumbers (n : ℕ) (number : ℕ → ℤ) : List ℤ :=
  (((List.range n).map fun i ↦ tierOf (number i)).dedup).insertionSort (· ≤ ·)

/-- `tierList`. -/
def groupTiers (n : ℕ) (number : ℕ → ℤ) : List (List ℕ) :=
  (tierNumbers n number).map fun p ↦ (List.range n).filter fun i ↦ tierOf (number i) = p

/-- The indices of a tier. -/
def indices (t : List ℕ) : List Json :=
  t.map fun i : ℕ ↦ .int i

/-- The body of the request of `saveTierChanges`. -/
def tiersBody (tiers : List (List ℕ)) : Json :=
  .obj [(py "tiers", .arr (tiers.map fun t ↦ .arr (indices t)))]

/-! ### What the server makes of them -/

section Server

variable {bs : List BackendConfig} {k n : ℕ} {number : ℕ → ℤ} {tiers : List (List ℕ)}

theorem tierLists_map (tiers : List (List ℕ)) :
    tierLists (tiers.map fun t ↦ .arr (indices t)) = some (tiers.map indices) := by
  induction tiers with
  | nil => rfl
  | cons t tiers ih =>
    rw [List.map_cons, tierLists, ih]
    rfl

/-- The backends of one tier get its number. -/
theorem setTier_eq (k : ℕ) (t : List ℕ) (bs : List BackendConfig) :
    setTier k (indices t) bs =
      (bs.mapIdx fun i b ↦ if i ∈ t then { b with priority := (k : ℤ) } else b, true) := by
  induction t generalizing bs with
  | nil =>
    have hnone : (bs.mapIdx fun i b ↦ if i ∈ ([] : List ℕ) then { b with priority := (k : ℤ) } else b) = bs :=
      List.mapIdx_eq_iff.2 fun i ↦ by simp
    rw [hnone]
    rfl
  | cons i t ih =>
    have hstep : setTier k (indices (i :: t)) bs =
        setTier k (indices t) (bs.modify i fun b ↦ { b with priority := (k : ℤ) }) := rfl
    rw [hstep, ih]
    refine congrArg (·, true) (List.ext_getElem? fun j ↦ ?_)
    rw [List.getElem?_mapIdx, List.getElem?_mapIdx, List.getElem?_modify, Option.map_eq_map, Option.map_map]
    refine congrArg (Option.map · bs[j]?) (funext fun b ↦ ?_)
    by_cases hj : i = j
    · subst hj
      simp
    · simp [hj, Ne.symm hj]

/-- **The backends get the number of their tier**, counted from `k` on. -/
theorem setTiers_eq (f : ℕ → ℤ) {ps : List ℤ} (hps : ps.Nodup) (k : ℕ) (hn : bs.length = n) :
    setTiers k (ps.map fun p ↦ indices ((List.range n).filter fun i ↦ f i = p)) bs =
      (bs.mapIdx fun i b ↦ if f i ∈ ps then { b with priority := ((k + ps.idxOf (f i) : ℕ) : ℤ) } else b, true) := by
  induction ps generalizing k bs with
  | nil =>
    have hnone : (bs.mapIdx fun i b ↦ if f i ∈ ([] : List ℤ) then
        { b with priority := ((k + ([] : List ℤ).idxOf (f i) : ℕ) : ℤ) } else b) = bs :=
      List.mapIdx_eq_iff.2 fun i ↦ by simp
    rw [hnone]
    rfl
  | cons p ps ih =>
    obtain ⟨hp, hps⟩ := List.nodup_cons.1 hps
    rw [List.map_cons, setTiers, setTier_eq]
    dsimp only
    rw [ih hps (k + 1) (by rw [List.length_mapIdx, hn])]
    refine congrArg (·, true) (List.ext_getElem? fun j ↦ ?_)
    rw [List.getElem?_mapIdx, List.getElem?_mapIdx, List.getElem?_mapIdx, Option.map_map]
    rcases hb : bs[j]? with - | b
    · rfl
    have hj : j < n := hn ▸ (List.getElem?_eq_some_iff.1 hb).1
    refine congrArg some ?_
    -- a backend of the first tier is in no other one
    by_cases hfp : f j = p
    · simp [hj, hfp, hp]
    · simp [hfp, Ne.symm hfp, List.idxOf_cons_ne, Nat.add_right_comm, Nat.add_assoc]

theorem mem_tierNumbers {p : ℤ} : p ∈ tierNumbers n number ↔ ∃ i < n, tierOf (number i) = p := by
  simp [tierNumbers]

theorem pairwise_tierNumbers (n : ℕ) (number : ℕ → ℤ) : (tierNumbers n number).Pairwise (· < ·) := by
  have hnodup : (tierNumbers n number).Nodup :=
    (List.perm_insertionSort _ _).nodup_iff.2 (List.nodup_dedup _)
  exact ((List.pairwise_insertionSort _ _).and hnodup).imp fun h ↦ lt_of_le_of_ne h.1 h.2

/-- The tiers are all the backends, each once. -/
theorem flatten_groupTiers_perm (n : ℕ) (number : ℕ → ℤ) : (groupTiers n number).flatten.Perm (List.range n) := by
  have hkeys : (tierNumbers n number).Nodup := (pairwise_tierNumbers n number).imp ne_of_lt
  rw [groupTiers, ← List.flatMap_def]
  exact flatMap_filter_perm_self (fun i ↦ tierOf (number i)) hkeys fun i hi ↦
    mem_tierNumbers.2 ⟨i, List.mem_range.1 hi, rfl⟩

theorem mapM_indexValue_indices (t : List ℕ) : (indices t).mapM indexValue = some (t.map fun i : ℕ ↦ (i : ℚ)) := by
  induction t with
  | nil => rfl
  | cons i t ih =>
    have hcons : indices (i :: t) = .int i :: indices t := rfl
    rw [hcons, List.mapM_cons, ih]
    rfl

/-- The server finds all the backends, each once. -/
theorem isRange_groupTiers (n : ℕ) (number : ℕ → ℤ) :
    isRange ((groupTiers n number).map indices).flatten n = true := by
  have hflatten : ((groupTiers n number).map indices).flatten = indices (groupTiers n number).flatten :=
    List.map_flatten.symm
  have hsorted : ((List.range n).map fun i : ℕ ↦ (i : ℚ)).Pairwise (· ≤ ·) :=
    List.pairwise_map.2 (List.pairwise_lt_range.imp fun h ↦ Nat.cast_le.2 h.le)
  rw [hflatten, isRange, mapM_indexValue_indices]
  refine decide_eq_true ?_
  rw [Quantiles.insertionSort_eq_of_perm ((flatten_groupTiers_perm n number).map _), hsorted.insertionSort_eq]
  rw [List.map_id', List.bind_eq_flatMap]
  exact (List.flatMap_pure_eq_map ..).symm

end Server

/-- The number of the tier of a backend, if the numbers that are in use are counted from one on. -/
def denseTier (n : ℕ) (number : ℕ → ℤ) (i : ℕ) : ℕ :=
  DenseRank.rank ((Finset.range n).image fun j ↦ tierOf (number j)) (tierOf (number i))

theorem denseTier_lt_iff {n : ℕ} {number : ℕ → ℤ} {i j : ℕ} (hj : j < n) :
    denseTier n number i < denseTier n number j ↔ tierOf (number i) < tierOf (number j) :=
  DenseRank.rank_lt_rank_iff (Finset.mem_image_of_mem _ (Finset.mem_range.2 hj))

theorem denseTier_pos {n : ℕ} {number : ℕ → ℤ} {i : ℕ} (hi : i < n) : 0 < denseTier n number i :=
  DenseRank.rank_pos (Finset.mem_image_of_mem _ (Finset.mem_range.2 hi))

/-- **What the server makes of the tiers of the page**: it saves the model, with the backends numbered densely. -/
theorem setBackendsTiers_groupTiers {m : ModelConfig} (number : ℕ → ℤ) :
    setBackendsTiers (tiersBody (groupTiers m.backends.length number)) m =
      ({ m with backends := m.backends.mapIdx fun i b ↦
          { b with priority := (denseTier m.backends.length number i : ℤ) } }, .save) := by
  have hsortable : sortable ((groupTiers m.backends.length number).map indices).flatten = true := by
    have hints : ∀ v ∈ ((groupTiers m.backends.length number).map indices).flatten, v.isInt = true := by
      intro v hv
      obtain ⟨l, hl, hvl⟩ := List.mem_flatten.1 hv
      obtain ⟨t, -, rfl⟩ := List.mem_map.1 hl
      obtain ⟨i, -, rfl⟩ := List.mem_map.1 hvl
      rfl
    unfold sortable
    have hall : ((groupTiers m.backends.length number).map indices).flatten.all
        (fun v ↦ v.isInt || v.isBool || v.isFloat) = true :=
      List.all_eq_true.2 fun v hv ↦ by rw [hints v hv]; rfl
    rw [hall]
    simp
  have htiers : setTiers 1 ((groupTiers m.backends.length number).map indices) m.backends =
      (m.backends.mapIdx fun i b ↦ { b with priority := (denseTier m.backends.length number i : ℤ) }, true) := by
    rw [groupTiers, List.map_map]
    refine (setTiers_eq (fun i ↦ tierOf (number i)) ((pairwise_tierNumbers _ _).imp ne_of_lt) 1 rfl).trans ?_
    refine congrArg (·, true) (List.mapIdx_eq_mapIdx_iff.2 fun i hi ↦ ?_)
    have hmem : tierOf (number i) ∈ tierNumbers m.backends.length number := mem_tierNumbers.2 ⟨i, hi, rfl⟩
    have hset : (tierNumbers m.backends.length number).toFinset =
        (Finset.range m.backends.length).image fun j ↦ tierOf (number j) := by
      ext p
      simp [mem_tierNumbers]
    rw [if_pos hmem, Nat.add_comm, DenseRank.idxOf_add_one (pairwise_tierNumbers _ _) hmem, hset]
    rfl
  have htiersOf : get? [(py "tiers", Json.arr ((groupTiers m.backends.length number).map fun t ↦ .arr (indices t)))]
      (py "tiers") = some (.arr ((groupTiers m.backends.length number).map fun t ↦ .arr (indices t))) := rfl
  simp only [setBackendsTiers, tiersBody, htiersOf, Option.getD_some, tierLists_map, hsortable, Bool.not_true,
    Bool.false_eq_true, if_false, isRange_groupTiers, htiers, if_true]

/-! ### The page -/

/-- How a request goes: it does not get to the server, its answer does not get back, or both do. -/
inductive Transmission
  | lost
  | unanswered
  | answered
deriving DecidableEq

/-- The numbers of the backends in `currentConfig`, the numbers that the rows show, the rows for new tiers, and the
model on the server. Nobody else adds or removes backends, so that the places are the same everywhere. -/
structure TierPage where
  page : ℕ → ℤ
  shown : ℕ → ℤ
  offered : List ℤ
  model : ModelConfig

/-- A backend is dropped on the row of another one; a row for a new tier is added, or a backend is dropped on one; the
rows are rendered again, or loaded again, or the configuration with them. -/
inductive TierStep
  | drop (dragged target : ℕ) (d : Transmission)
  | add
  | dropNew (dragged row : ℕ) (d : Transmission)
  | render
  | reload
  | refetch

/-- The number of a backend on the server. -/
def ModelConfig.number (m : ModelConfig) (i : ℕ) : ℤ :=
  (m.backends[i]?.map BackendConfig.priority).getD 0

namespace TierPage

/-- The page when it is loaded. -/
def load (m : ModelConfig) : TierPage :=
  ⟨m.number, fun i ↦ tierOf (m.number i), [], m⟩

variable (s : TierPage)

/-- How many backends there are. -/
def size : ℕ :=
  s.model.backends.length

/-- `draggedBackend`, found by its provider and its model. -/
def find (d : BackendConfig) : Option ℕ :=
  s.model.backends.findIdx? fun b ↦ b.provider = d.provider ∧ b.model = d.model

/-- The backend that is changed by a drop on a row, if it is another one. -/
def dropped (dragged target : ℕ) : Option ℕ :=
  s.model.backends[dragged]?.bind fun d ↦ s.model.backends[target]?.bind fun t ↦
    if d.provider = t.provider ∧ d.model = t.model then none else s.find d

/-- The backend that is changed by a drop on the row of a new tier, and the number of the tier. -/
def droppedNew (dragged row : ℕ) : Option (ℕ × ℤ) :=
  (s.model.backends[dragged]?.bind s.find).bind fun i ↦ s.offered[row]?.map fun p ↦ (i, p)

/-- `newTier`. -/
def newTier : ℤ :=
  ((List.range s.size).map fun i ↦ tierOf (s.page i)).foldl max 0 + 1

/-- `reloadModelDetail`, with the configuration that is there. -/
def reload : TierPage :=
  { s with shown := fun i ↦ tierOf (s.model.number i), offered := [] }

/-- `saveTierChanges`; the rows are loaded again when the answer is there. -/
def saveTierChanges (d : Transmission) : TierPage :=
  match d, setBackendsTiers (tiersBody (groupTiers s.size s.page)) s.model with
  | .unanswered, (m, .save) => { s with model := m }
  | .answered, (m, .save) => { s with model := m }.reload
  | _, _ => s

/-- `draggedBackend.priority = number; saveTierChanges()`. -/
def move (i : ℕ) (number : ℤ) (d : Transmission) : TierPage :=
  { s with page := Function.update s.page i number }.saveTierChanges d

/-- The next step. -/
def next (s : TierPage) : TierStep → TierPage
  | .drop dragged target d => (s.dropped dragged target).elim s fun i ↦ s.move i (s.shown target) d
  | .add => { s with offered := s.offered ++ [s.newTier] }
  | .dropNew dragged row d => (s.droppedNew dragged row).elim s fun x ↦ s.move x.1 x.2 d
  | .render => { s with offered := [] }
  | .reload => s.reload
  | .refetch => load s.model

/-! ### One request -/

variable {s}

/-- The model with the numbers of the page, counted from one on. -/
def numbered (s : TierPage) : ModelConfig :=
  { s.model with backends := s.model.backends.mapIdx fun i b ↦
    { b with priority := (denseTier s.size s.page i : ℤ) } }

/-- **A request of the page** that gets to the server is granted. -/
theorem saveTierChanges_eq (s : TierPage) (d : Transmission) : s.saveTierChanges d =
    match d with
    | .lost => s
    | .unanswered => { s with model := s.numbered }
    | .answered => { s with model := s.numbered }.reload := by
  have hserver : setBackendsTiers (tiersBody (groupTiers s.size s.page)) s.model = (s.numbered, .save) :=
    setBackendsTiers_groupTiers s.page
  unfold saveTierChanges
  rw [hserver]
  cases d <;> rfl

theorem number_numbered {i : ℕ} (hi : i < s.size) : s.numbered.number i = denseTier s.size s.page i := by
  have hb : s.model.backends[i]? = some (s.model.backends.get ⟨i, hi⟩) := List.getElem?_eq_getElem hi
  rw [ModelConfig.number, numbered, List.getElem?_mapIdx, hb]
  rfl

theorem fields_numbered (s : TierPage) :
    s.numbered.backends.map BackendConfig.fields = s.model.backends.map BackendConfig.fields := by
  refine List.ext_getElem? fun i ↦ ?_
  rw [List.getElem?_map, List.getElem?_map, numbered, List.getElem?_mapIdx, Option.map_map]
  rfl

/-! ### Where a backend ends up -/

section Move

variable {dragged target row i a b : ℕ} {d : BackendConfig} {number : ℤ}

theorem find_spec (h : s.find d = some i) :
    ∃ e, s.model.backends[i]? = some e ∧ e.provider = d.provider ∧ e.model = d.model := by
  obtain ⟨hi, hkey, -⟩ := List.findIdx?_eq_some_iff_getElem.1 h
  exact ⟨_, List.getElem?_eq_getElem hi, of_decide_eq_true hkey⟩

/-- The backend that is dropped is not that of the row. -/
theorem dropped_spec (h : s.dropped dragged target = some i) : i < s.size ∧ target < s.size ∧ i ≠ target := by
  obtain ⟨d, hd, h⟩ := Option.bind_eq_some_iff.1 h
  obtain ⟨t, ht, h⟩ := Option.bind_eq_some_iff.1 h
  split_ifs at h with hsame
  obtain ⟨e, he, hprovider, hmodel⟩ := find_spec h
  refine ⟨(List.getElem?_eq_some_iff.1 he).1, (List.getElem?_eq_some_iff.1 ht).1, ?_⟩
  rintro rfl
  obtain rfl := Option.some.inj (he.symm.trans ht)
  exact hsame ⟨hprovider.symm, hmodel.symm⟩

theorem droppedNew_spec (h : s.droppedNew dragged row = some (i, number)) : i < s.size ∧ number ∈ s.offered := by
  obtain ⟨j, hj, h⟩ := Option.bind_eq_some_iff.1 h
  obtain ⟨p, hp, h⟩ := Option.map_eq_some_iff.1 h
  obtain ⟨rfl, rfl⟩ := Prod.mk.inj h
  obtain ⟨d, -, hfind⟩ := Option.bind_eq_some_iff.1 hj
  obtain ⟨e, he, -⟩ := find_spec hfind
  exact ⟨(List.getElem?_eq_some_iff.1 he).1, List.mem_of_getElem? hp⟩

/-- What comes of a backend that gets a number: the tiers are numbered from one on without a gap, the rows show them,
the others keep the order that they have on the page, and the backend takes the place that the page gives to the
number. -/
structure Placed (s s' : TierPage) (i : ℕ) (number : ℤ) : Prop where
  dense : ∃ k : ℕ, (Finset.range s.size).image s'.model.number = (Finset.Icc 1 k).image Nat.cast
  shown : ∀ a < s.size, s'.shown a = s'.model.number a ∧ s'.model.number a = denseTier s.size s'.page a
  others : ∀ a < s.size, ∀ b < s.size, a ≠ i → b ≠ i →
    (s'.model.number a < s'.model.number b ↔ tierOf (s.page a) < tierOf (s.page b))
  before : ∀ a < s.size, a ≠ i → (s'.model.number a < s'.model.number i ↔ tierOf (s.page a) < number)
  after : ∀ a < s.size, a ≠ i → (s'.model.number i < s'.model.number a ↔ number < tierOf (s.page a))

/-- **A move that is answered.** -/
theorem placed_move (hi : i < s.size) (hnumber : tierOf number = number) :
    Placed s (s.move i number .answered) i number := by
  have hmove : s.move i number .answered =
      { s with page := Function.update s.page i number,
               model := numbered { s with page := Function.update s.page i number } }.reload :=
    saveTierChanges_eq _ _
  have hserver {a : ℕ} (ha : a < s.size) :
      (s.move i number .answered).model.number a = denseTier s.size (Function.update s.page i number) a := by
    rw [hmove]
    exact number_numbered (s := { s with page := Function.update s.page i number }) ha
  have hshown (a : ℕ) : (s.move i number .answered).shown a = tierOf ((s.move i number .answered).model.number a) := by
    rw [hmove]
    rfl
  have hpage : (s.move i number .answered).page = Function.update s.page i number := by rw [hmove]; rfl
  have hself : tierOf (Function.update s.page i number i) = number := by rw [Function.update_self, hnumber]
  have hother {a : ℕ} (ha : a ≠ i) : Function.update s.page i number a = s.page a := Function.update_of_ne ha ..
  refine ⟨?_, fun a ha ↦ ⟨?_, ?_⟩, fun a ha b hb hai hbi ↦ ?_, fun a ha hai ↦ ?_, fun a ha hai ↦ ?_⟩
  · refine ⟨((Finset.range s.size).image fun j ↦ tierOf (Function.update s.page i number j)).card, ?_⟩
    rw [← DenseRank.image_rank, Finset.image_image, Finset.image_image]
    exact Finset.image_congr fun a ha ↦ hserver (Finset.mem_range.1 ha)
  · rw [hshown, hserver ha, tierOf_natCast (denseTier_pos ha)]
  · rw [hserver ha, hpage]
  · rw [hserver ha, hserver hb, Nat.cast_lt, denseTier_lt_iff hb, hother hai, hother hbi]
  · rw [hserver ha, hserver hi, Nat.cast_lt, denseTier_lt_iff hi, hself, hother hai]
  · rw [hserver ha, hserver hi, Nat.cast_lt, denseTier_lt_iff ha, hself, hother hai]

/-- The backend shares the tier of another one exactly if the page has the number for that one. -/
theorem Placed.joins {s' : TierPage} (h : Placed s s' i number) (ha : a < s.size) (hai : a ≠ i) :
    s'.model.number i = s'.model.number a ↔ tierOf (s.page a) = number := by
  have hbefore := h.before a ha hai
  have hafter := h.after a ha hai
  omega

/-- The number of a new tier is greater than those of the page, and than zero. -/
theorem lt_newTier_of_mem {p : ℤ} (h : p ∈ 0 :: (List.range s.size).map fun i ↦ tierOf (s.page i)) : p < s.newTier :=
  Int.lt_add_one_of_le ((List.max?_eq_some_iff.1 List.max?_cons').2 p h)

theorem lt_newTier (ha : a < s.size) : tierOf (s.page a) < s.newTier :=
  lt_newTier_of_mem (List.mem_cons_of_mem _ (List.mem_map.2 ⟨a, List.mem_range.2 ha, rfl⟩))

theorem newTier_pos (s : TierPage) : 0 < s.newTier :=
  lt_newTier_of_mem List.mem_cons_self

end Move

/-! ### Whole runs -/

/-- The rows show numbers that stand for themselves, and a request changes nothing of a backend but its number. -/
structure Faithful (m : ModelConfig) (s : TierPage) : Prop where
  fields : s.model.backends.map BackendConfig.fields = m.backends.map BackendConfig.fields
  shown : ∀ i, tierOf (s.shown i) = s.shown i
  offered : ∀ p ∈ s.offered, tierOf p = p

variable {m : ModelConfig}

theorem faithful_load (m : ModelConfig) : Faithful m (load m) :=
  ⟨rfl, fun _ ↦ tierOf_tierOf _, fun _ h ↦ absurd h List.not_mem_nil⟩

theorem Faithful.reload (h : Faithful m s) : Faithful m s.reload :=
  ⟨h.fields, fun _ ↦ tierOf_tierOf _, fun _ hp ↦ absurd hp List.not_mem_nil⟩

theorem Faithful.move (h : Faithful m s) (i : ℕ) (number : ℤ) (d : Transmission) : Faithful m (s.move i number d) := by
  have hfields := (fields_numbered { s with page := Function.update s.page i number }).trans h.fields
  rw [TierPage.move, saveTierChanges_eq]
  cases d with
  | lost => exact ⟨h.fields, h.shown, h.offered⟩
  | unanswered => exact ⟨hfields, h.shown, h.offered⟩
  | answered => exact Faithful.reload ⟨hfields, h.shown, h.offered⟩

/-- One step. -/
theorem Faithful.next (h : Faithful m s) (step : TierStep) : Faithful m (s.next step) := by
  cases step with
  | drop dragged target d =>
    rw [TierPage.next]
    cases s.dropped dragged target with
    | none => exact h
    | some i => exact h.move i _ d
  | add =>
    refine ⟨h.fields, h.shown, fun p hp ↦ ?_⟩
    rcases List.mem_append.1 hp with hp | hp
    · exact h.offered p hp
    · rw [List.mem_singleton.1 hp]
      exact tierOf_of_pos (newTier_pos s)
  | dropNew dragged row d =>
    rw [TierPage.next]
    cases s.droppedNew dragged row with
    | none => exact h
    | some x => exact h.move x.1 x.2 d
  | render => exact ⟨h.fields, h.shown, fun _ hp ↦ absurd hp List.not_mem_nil⟩
  | reload => exact h.reload
  | refetch => exact ⟨h.fields, (faithful_load s.model).shown, (faithful_load s.model).offered⟩

theorem faithful_exec (m : ModelConfig) (steps : List TierStep) : Faithful m (exec next (load m) steps) :=
  exec_invariant' (fun _ ↦ Faithful m) (faithful_load m) (fun _ _ step h ↦ h.next step) steps

section Drop

variable {dragged target row i : ℕ} {number : ℤ}

theorem Faithful.placed_drop (h : Faithful m s) (hdrop : s.dropped dragged target = some i) :
    Placed s (s.next (.drop dragged target .answered)) i (s.shown target) := by
  rw [TierPage.next, hdrop]
  exact placed_move (dropped_spec hdrop).1 (h.shown target)

theorem Faithful.placed_dropNew (h : Faithful m s) (hdrop : s.droppedNew dragged row = some (i, number)) :
    Placed s (s.next (.dropNew dragged row .answered)) i number := by
  obtain ⟨hi, hoffered⟩ := droppedNew_spec hdrop
  rw [TierPage.next, hdrop]
  exact placed_move hi (h.offered _ hoffered)

/-- The row that has just been added has the number that was made for it. -/
theorem number_of_added (hdrop : (s.next .add).droppedNew dragged s.offered.length = some (i, number)) :
    number = s.newTier := by
  obtain ⟨j, -, h⟩ := Option.bind_eq_some_iff.1 hdrop
  obtain ⟨p, hp, h⟩ := Option.map_eq_some_iff.1 h
  rw [← (Prod.mk.inj h).2]
  exact (Option.some.inj ((List.getElem?_concat_length ..).symm.trans hp)).symm

end Drop

/-- **Dragging backends between tiers.** However the page has been used, whatever requests were lost or not answered,
nothing of a backend is changed but its number. A backend that is dropped on a row, with an answer, takes the place
that the page gives to the number that the row shows, and shares the tier of the row exactly if that is the number of
the page too; one that is dropped on the row of a new tier takes the place of that number, which is the last if the row
has just been added. -/
theorem tierDrag_exec (m : ModelConfig) (steps : List TierStep) :
    let s := exec next (load m) steps
    s.model.backends.map BackendConfig.fields = m.backends.map BackendConfig.fields ∧
    (∀ dragged target i, s.dropped dragged target = some i →
      let s' := s.next (.drop dragged target .answered)
      Placed s s' i (s.shown target) ∧
        (s'.model.number i = s'.model.number target ↔ tierOf (s.page target) = s.shown target)) ∧
    (∀ dragged row i number, s.droppedNew dragged row = some (i, number) →
      Placed s (s.next (.dropNew dragged row .answered)) i number) ∧
    ∀ dragged i number, (s.next .add).droppedNew dragged s.offered.length = some (i, number) →
      let s' := (s.next .add).next (.dropNew dragged s.offered.length .answered)
      ∀ a < s.size, a ≠ i → s'.model.number a < s'.model.number i := by
  intro s
  have hfaithful : Faithful m s := faithful_exec m steps
  refine ⟨hfaithful.fields, fun dragged target i hdrop ↦ ?_, fun _ _ _ _ ↦ hfaithful.placed_dropNew,
    fun dragged i number hdrop ↦ ?_⟩
  · obtain ⟨-, htarget, hne⟩ := dropped_spec hdrop
    have hplaced := hfaithful.placed_drop hdrop
    exact ⟨hplaced, hplaced.joins htarget hne.symm⟩
  · have hplaced := (hfaithful.next .add).placed_dropNew hdrop
    have hnumber : number = s.newTier := number_of_added hdrop
    exact fun a ha hai ↦ (hplaced.before a ha hai).2 (hnumber ▸ lt_newTier ha)

/-- Three backends, of tiers 1, 2 and 3: the second one is dropped on the third, then the first on the second. The rows
of the second and the third show the tier 2, which no backend of the page has: the first one does not join them. -/
example :
    let b (provider : String) (tier : ℤ) : BackendConfig := plainBackend (py provider) tier
    let m : ModelConfig := ⟨py "m", [b "a" 1, b "b" 2, b "c" 3], .empty, []⟩
    let s := exec next (load m) [.drop 1 2 .answered]
    let s' := s.next (.drop 0 1 .answered)
    s.shown 1 = 2 ∧ s.page 1 = 3 ∧ (List.range 3).map s'.model.number = [1, 2, 2] := by
  decide +kernel

end TierPage

end LocalGateway
