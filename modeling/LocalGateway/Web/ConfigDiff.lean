import LocalGateway.Config.Schema
import LocalGateway.Foundations.Related
import LocalGateway.Js.Value

/-!
# The review of a configuration that is about to be saved

`_configDiff` of the console lists what an edit changes, for the dialog that asks whether to save. It walks through
both trees at once and stops below the fifth level.

`Compared` says which pairs of values it comes to, `Throws` at which of them it raises, and `Differs` at which of them
it finds a change. From one lemma about a pair (`quiet_nodeDiff_iff`), by induction on the levels,
`quiet_configDiffAt_iff` says what the whole walk does.

* `AgreeTo.configDiff_eq_nil`: what the review cannot show, below the last level or under a nested name `version`.
* `reviewsAll_iff`: the review is complete exactly if the trees are equal apart from the version, or no pair that is
  compared raises and some pair differs.
-/

namespace LocalGateway

open Js
open Json (natRepr)

/-! ### The comparison -/

/-- What the review says of a place. -/
inductive ChangeAction
  | changed
  | added
  | removed
deriving DecidableEq

/-- An entry of the review: `path`, `action`, `from` and `to`. -/
structure Change where
  path : PyStr
  action : ChangeAction
  before : Option Value
  after : Option Value

/-- The path of a property. -/
def keyPath (path k : PyStr) : PyStr :=
  if path = [] then k else path ++ py "." ++ k

/-- The path of an element. -/
def indexPath (path : PyStr) (i : ℕ) : PyStr :=
  path ++ py "[" ++ natRepr i ++ py "]"

/-- The changes in one part after the other. An exception in one of them ends the comparison. -/
def collectChanges {ι : Type} (f : ι → Option (List Change)) (parts : List ι) : Option (List Change) :=
  (parts.mapM f).map List.flatten

section Node

variable (r : Realm) (recur : PyStr → Value → Value → Option (List Change)) (path : PyStr)

/-- What is pushed for an index of one of two arrays. -/
def itemDiff (before after : List Value) (i : ℕ) : Option (List Change) :=
  match before[i]?, after[i]? with
  | none, y => some [⟨indexPath path i, .added, none, y⟩]
  | x, none => some [⟨indexPath path i, .removed, x, none⟩]
  | some x, some y => recur (indexPath path i) x y

/-- What is pushed for a name. `k in b` raises for a primitive `b`. -/
def keyDiff (b after : Value) (k : PyStr) : Option (List Change) :=
  if k = py "version" then some []
  else if b.isPrimitive then none
  else
    -- What one side lacks is the other's own, and can be read.
    match r.property b k, r.property after k with
    | .absent, y => some [⟨keyPath path k, .added, none, y.value?⟩]
    | x, .absent => some [⟨keyPath path k, .removed, x.value?, none⟩]
    | .value x, .value y => recur (keyPath path k) x y
    | _, _ => none

/-- The names that are compared, each once. -/
def comparedKeys (b after : Value) : List PyStr :=
  (b.keys ++ after.keys).eraseDups

/-- `_configDiff` after its checks of the depth and the path, with what it calls for the parts. -/
def nodeDiff (before after : Value) : Option (List Change) :=
  match r.elements after with
  | some ys =>
    match r.elements before with
    | none => some [⟨path, .changed, some before, some after⟩]
    | some xs => collectChanges (itemDiff recur path xs ys) (List.range (max xs.length ys.length))
  | none =>
    if r.isObject after then
      collectChanges (keyDiff r recur path before.orEmpty after) (comparedKeys before.orEmpty after)
    else if before.strictEq after then some []
    else some [⟨path, .changed, some before, some after⟩]

end Node

/-- `_configDiff` with the levels that are left: below the last one, `depth` is over the limit. `none` is an
exception. -/
def configDiffAt (r : Realm) : ℕ → PyStr → Value → Value → Option (List Change)
  | 0, _, _, _ => some []
  | levels + 1, path, before, after =>
    if path = py "version" then some [] else nodeDiff r (configDiffAt r levels) path before after

/-- The greatest `depth` at which values are compared. -/
def maxDiffDepth : ℕ :=
  4

/-- `_configDiff(before, after)`. -/
def configDiff (r : Realm) (before after : Value) : Option (List Change) :=
  configDiffAt r (maxDiffDepth + 1) [] before after

/-! ### What it should do -/

/-- The trees are equal apart from what is under `version`. -/
def EqualButVersion (before after : Value) : Prop :=
  ∀ p : List PathStep, p.head? ≠ some (.key (py "version")) →
    (before.node p).map Value.shape = (after.node p).map Value.shape

/-- The comparison raises nothing, and finds nothing exactly if there is nothing to find. -/
def ReviewsAll (r : Realm) (before after : Value) : Prop :=
  ∃ changes, configDiff r before after = some changes ∧ (changes = [] ↔ EqualButVersion before after)

/-! ### What it does -/

/-- A pair of values that the comparison of two values calls itself for. -/
inductive Below (r : Realm) (before after : Value) : Value → Value → Prop
  | item {xs ys : List Value} {i : ℕ} {x y : Value} (hbefore : r.elements before = some xs)
    (hafter : r.elements after = some ys) (hx : xs[i]? = some x) (hy : ys[i]? = some y) : Below r before after x y
  | key {k : PyStr} {x y : Value} (harray : r.elements after = none) (hobject : r.isObject after)
    (hkey : k ∈ comparedKeys before.orEmpty after) (hversion : k ≠ py "version")
    (hx : r.property before.orEmpty k = .value x) (hy : r.property after k = .value y) : Below r before after x y

/-- A pair of values that is compared in so many levels. -/
inductive Compared (r : Realm) : ℕ → Value → Value → Value → Value → Prop
  | here {n : ℕ} {before after : Value} : Compared r (n + 1) before after before after
  | into {n : ℕ} {before after b a x y : Value} (hbelow : Below r before after b a) (hrest : Compared r n b a x y) :
    Compared r (n + 1) before after x y

/-- Asking for a name raises: one value is primitive, or the name leads to a getter that raises. -/
def ThrowsAt (r : Realm) (b after : Value) (k : PyStr) : Prop :=
  b.isPrimitive ∨ r.property b k = .throws ∧ r.property after k ≠ .absent ∨
    r.property b k ≠ .absent ∧ r.property after k = .throws

/-- The comparison of two values raises by itself. -/
def Throws (r : Realm) (before after : Value) : Prop :=
  r.elements after = none ∧ r.isObject after ∧
    ∃ k ∈ comparedKeys before.orEmpty after, k ≠ py "version" ∧ ThrowsAt r before.orEmpty after k

/-- The comparison of two values finds a change by itself. -/
inductive Differs (r : Realm) (before after : Value) : Prop
  | array (hafter : r.elements after ≠ none) (hbefore : r.elements before = none)
  | length {xs ys : List Value} (hbefore : r.elements before = some xs) (hafter : r.elements after = some ys)
    (hlength : xs.length ≠ ys.length)
  | key {k : PyStr} (harray : r.elements after = none) (hobject : r.isObject after)
    (hkey : k ∈ comparedKeys before.orEmpty after) (hversion : k ≠ py "version")
    (habsent : r.property before.orEmpty k = .absent ∨ r.property after k = .absent)
  | value (harray : r.elements after = none) (hobject : ¬r.isObject after) (hne : before.strictEq after = false)

/-- No pair of values that is compared raises, and some pair differs. -/
def Reviewed (r : Realm) (before after : Value) : Prop :=
  (∀ x y, Compared r (maxDiffDepth + 1) before after x y → ¬Throws r x y) ∧
    ∃ x y, Compared r (maxDiffDepth + 1) before after x y ∧ Differs r x y

/-! ### One pair -/

/-- The comparison raises nothing, and finds nothing if that is asked. -/
def Quiet (D : Prop) (result : Option (List Change)) : Prop :=
  ∃ changes, result = some changes ∧ (D → changes = [])

section Quiet

variable {D : Prop}

@[simp]
theorem not_quiet_none : ¬Quiet D none :=
  fun ⟨_, h, _⟩ ↦ Option.some_ne_none _ h.symm

@[simp]
theorem quiet_nil : Quiet D (some []) :=
  ⟨[], rfl, fun _ ↦ rfl⟩

@[simp]
theorem quiet_singleton_iff {c : Change} : Quiet D (some [c]) ↔ ¬D := by
  constructor
  · rintro ⟨changes, h, hnil⟩ hD
    obtain rfl := hnil hD
    cases h
  · exact fun hD ↦ ⟨[c], rfl, fun h ↦ absurd h hD⟩

/-- Parts are quiet together if each of them is. -/
theorem quiet_collectChanges_iff {ι : Type} {f : ι → Option (List Change)} {parts : List ι} :
    Quiet D (collectChanges f parts) ↔ ∀ p ∈ parts, Quiet D (f p) := by
  constructor
  · rintro ⟨changes, h, hnil⟩ p hp
    obtain ⟨lists, hlists, rfl⟩ := Option.map_eq_some_iff.1 h
    obtain ⟨list, hmem, hlist⟩ := exists_of_mem_left (mapM_eq_some_iff.1 hlists) hp
    exact ⟨list, hlist, fun hD ↦ List.flatten_eq_nil_iff.1 (hnil hD) _ hmem⟩
  · intro h
    have hsome : (parts.mapM f).isSome := by
      refine isSome_mapM_iff.2 fun p hp ↦ ?_
      obtain ⟨list, hlist, -⟩ := h p hp
      exact hlist ▸ rfl
    obtain ⟨lists, hlists⟩ := Option.isSome_iff_exists.1 hsome
    refine ⟨lists.flatten, congrArg (Option.map List.flatten) hlists, fun hD ↦ List.flatten_eq_nil_iff.2 ?_⟩
    intro list hmem
    obtain ⟨p, hp, hlist⟩ := exists_of_mem_right (mapM_eq_some_iff.1 hlists) hmem
    obtain ⟨changes, hchanges, hnil⟩ := h p hp
    rw [hlist] at hchanges
    exact Option.some.inj hchanges ▸ hnil hD

end Quiet

/-- A path that ends with an index is not `version`. -/
theorem indexPath_ne_version (path : PyStr) (i : ℕ) : indexPath path i ≠ py "version" := by
  intro h
  have hlast : (indexPath path i).getLast? = some 93 := List.getLast?_concat
  rw [h] at hlast
  exact absurd hlast (by decide)

/-- A path that ends with another name is not `version`. -/
theorem keyPath_ne_version (path : PyStr) {k : PyStr} (hk : k ≠ py "version") :
    keyPath path k ≠ py "version" := by
  unfold keyPath
  split_ifs with hpath
  · exact hk
  · intro h
    have hdot : 46 ∈ path ++ py "." ++ k := by simp [py]
    rw [h] at hdot
    exact absurd hdot (by decide)

section Node

variable {r : Realm} {recur : PyStr → Value → Value → Option (List Change)} {D : Prop} {P : Value → Value → Prop}

theorem quiet_itemDiff_iff (hrecur : ∀ p x y, p ≠ py "version" → (Quiet D (recur p x y) ↔ P x y)) (path : PyStr)
    {xs ys : List Value} {i : ℕ} (hi : i < max xs.length ys.length) :
    Quiet D (itemDiff recur path xs ys i) ↔
      (D → (i < xs.length ↔ i < ys.length)) ∧ ∀ x y, xs[i]? = some x → ys[i]? = some y → P x y := by
  unfold itemDiff
  rcases Nat.lt_or_ge i xs.length with hx | hx
  · rcases Nat.lt_or_ge i ys.length with hy | hy
    · simp [hx, hy, hrecur _ _ _ (indexPath_ne_version path i)]
    · simp [hx, Nat.not_lt.2 hy]
  · have hy : i < ys.length := by omega
    simp [hy, Nat.not_lt.2 hx]

theorem quiet_keyDiff_iff (hrecur : ∀ p x y, p ≠ py "version" → (Quiet D (recur p x y) ↔ P x y)) (path : PyStr)
    {b after : Value} {k : PyStr} (hk : k ≠ py "version") :
    Quiet D (keyDiff r recur path b after k) ↔
      ¬ThrowsAt r b after k ∧ (D → ¬(r.property b k = .absent ∨ r.property after k = .absent)) ∧
        ∀ x y, r.property b k = .value x → r.property after k = .value y → P x y := by
  unfold keyDiff ThrowsAt
  rw [if_neg hk]
  by_cases hprim : b.isPrimitive
  · simp [hprim]
  · rcases hb : r.property b k with - | x | - <;> rcases ha : r.property after k with - | y | - <;>
      simp [hprim, hrecur _ _ _ (keyPath_ne_version path hk)]

end Node

section Kinds

variable {r : Realm} {before after : Value}

theorem not_throws_of_array {ys : List Value} (hafter : r.elements after = some ys) : ¬Throws r before after :=
  fun h ↦ Option.some_ne_none _ (hafter.symm.trans h.1)

theorem below_arrays_iff {xs ys : List Value} (hbefore : r.elements before = some xs)
    (hafter : r.elements after = some ys) {x y : Value} :
    Below r before after x y ↔ ∃ i : ℕ, xs[i]? = some x ∧ ys[i]? = some y := by
  constructor
  · rintro (⟨hxs, hys, hx, hy⟩ | ⟨h, -, -, -, -, -⟩)
    · obtain rfl := Option.some.inj (hbefore.symm.trans hxs)
      obtain rfl := Option.some.inj (hafter.symm.trans hys)
      exact ⟨_, hx, hy⟩
    · exact absurd (hafter.symm.trans h) (Option.some_ne_none _)
  · rintro ⟨i, hx, hy⟩
    exact .item hbefore hafter hx hy

theorem differs_arrays_iff {xs ys : List Value} (hbefore : r.elements before = some xs)
    (hafter : r.elements after = some ys) : Differs r before after ↔ xs.length ≠ ys.length := by
  refine ⟨?_, .length hbefore hafter⟩
  rintro (⟨-, h⟩ | ⟨hxs, hys, hlength⟩ | ⟨h, -, -, -, -⟩ | ⟨h, -, -⟩)
  · exact absurd (hbefore.symm.trans h) (Option.some_ne_none _)
  · obtain rfl := Option.some.inj (hbefore.symm.trans hxs)
    obtain rfl := Option.some.inj (hafter.symm.trans hys)
    exact hlength
  · exact absurd (hafter.symm.trans h) (Option.some_ne_none _)
  · exact absurd (hafter.symm.trans h) (Option.some_ne_none _)

theorem not_below_of_not_array {ys : List Value} (hbefore : r.elements before = none)
    (hafter : r.elements after = some ys) (x y : Value) : ¬Below r before after x y := by
  rintro (⟨h, -, -, -⟩ | ⟨h, -, -, -, -, -⟩)
  · exact Option.some_ne_none _ (h.symm.trans hbefore)
  · exact Option.some_ne_none _ (hafter.symm.trans h)

theorem below_object_iff (harray : r.elements after = none) (hobject : r.isObject after) {x y : Value} :
    Below r before after x y ↔ ∃ k ∈ comparedKeys before.orEmpty after,
      k ≠ py "version" ∧ r.property before.orEmpty k = .value x ∧ r.property after k = .value y := by
  constructor
  · rintro (⟨-, h, -, -⟩ | ⟨-, -, hkey, hversion, hx, hy⟩)
    · exact absurd (h.symm.trans harray) (Option.some_ne_none _)
    · exact ⟨_, hkey, hversion, hx, hy⟩
  · rintro ⟨k, hkey, hversion, hx, hy⟩
    exact .key harray hobject hkey hversion hx hy

theorem differs_object_iff (harray : r.elements after = none) (hobject : r.isObject after) :
    Differs r before after ↔ ∃ k ∈ comparedKeys before.orEmpty after,
      k ≠ py "version" ∧ (r.property before.orEmpty k = .absent ∨ r.property after k = .absent) := by
  constructor
  · rintro (⟨h, -⟩ | ⟨-, h, -⟩ | ⟨-, -, hkey, hversion, habsent⟩ | ⟨-, h, -⟩)
    · exact absurd harray h
    · exact absurd (h.symm.trans harray) (Option.some_ne_none _)
    · exact ⟨_, hkey, hversion, habsent⟩
    · exact absurd hobject h
  · rintro ⟨k, hkey, hversion, habsent⟩
    exact .key harray hobject hkey hversion habsent

theorem not_below_of_value (harray : r.elements after = none) (hobject : ¬r.isObject after) (x y : Value) :
    ¬Below r before after x y := by
  rintro (⟨-, h, -, -⟩ | ⟨-, h, -, -, -, -⟩)
  · exact Option.some_ne_none _ (h.symm.trans harray)
  · exact hobject h

theorem differs_value_iff (harray : r.elements after = none) (hobject : ¬r.isObject after) :
    Differs r before after ↔ before.strictEq after = false := by
  refine ⟨?_, .value harray hobject⟩
  rintro (⟨h, -⟩ | ⟨-, h, -⟩ | ⟨-, h, -, -, -⟩ | ⟨-, -, hne⟩)
  · exact absurd harray h
  · exact absurd (h.symm.trans harray) (Option.some_ne_none _)
  · exact absurd h hobject
  · exact hne

end Kinds

section Node

variable {r : Realm} {recur : PyStr → Value → Value → Option (List Change)} {D : Prop} {P : Value → Value → Prop}
  {before after : Value}

/-- The comparison of two arrays. -/
theorem quiet_arrays_iff (hrecur : ∀ p x y, p ≠ py "version" → (Quiet D (recur p x y) ↔ P x y)) (path : PyStr)
    {xs ys : List Value} (hbefore : r.elements before = some xs) (hafter : r.elements after = some ys) :
    Quiet D (collectChanges (itemDiff recur path xs ys) (List.range (max xs.length ys.length))) ↔
      (D → ¬Differs r before after) ∧ ∀ x y, Below r before after x y → P x y := by
  simp only [quiet_collectChanges_iff, differs_arrays_iff hbefore hafter, below_arrays_iff hbefore hafter,
    List.mem_range, not_not]
  constructor
  · intro h
    have hitems := fun i hi ↦ (quiet_itemDiff_iff hrecur path hi).1 (h i hi)
    refine ⟨fun hD ↦ ?_, ?_⟩
    · rcases Nat.lt_trichotomy xs.length ys.length with hlt | heq | hgt
      · exact absurd (((hitems xs.length (lt_max_of_lt_right hlt)).1 hD).2 hlt) (lt_irrefl _)
      · exact heq
      · exact absurd (((hitems ys.length (lt_max_of_lt_left hgt)).1 hD).1 hgt) (lt_irrefl _)
    · rintro x y ⟨i, hx, hy⟩
      exact (hitems i (lt_max_of_lt_left (List.getElem?_eq_some_iff.1 hx).1)).2 x y hx hy
  · rintro ⟨hlength, hbelow⟩ i hi
    exact (quiet_itemDiff_iff hrecur path hi).2
      ⟨fun hD ↦ by rw [hlength hD], fun x y hx hy ↦ hbelow x y ⟨i, hx, hy⟩⟩

/-- The comparison with an object. -/
theorem quiet_object_iff (hrecur : ∀ p x y, p ≠ py "version" → (Quiet D (recur p x y) ↔ P x y)) (path : PyStr)
    (harray : r.elements after = none) (hobject : r.isObject after) :
    Quiet D (collectChanges (keyDiff r recur path before.orEmpty after) (comparedKeys before.orEmpty after)) ↔
      (¬Throws r before after ∧ (D → ¬Differs r before after)) ∧ ∀ x y, Below r before after x y → P x y := by
  rw [quiet_collectChanges_iff, differs_object_iff harray hobject]
  simp only [below_object_iff harray hobject]
  constructor
  · intro h
    have hkeys := fun k hkey hversion ↦ (quiet_keyDiff_iff hrecur path hversion).1 (h k hkey)
    refine ⟨⟨?_, ?_⟩, ?_⟩
    · rintro ⟨-, -, k, hkey, hversion, hthrows⟩
      exact (hkeys k hkey hversion).1 hthrows
    · rintro hD ⟨k, hkey, hversion, habsent⟩
      exact (hkeys k hkey hversion).2.1 hD habsent
    · rintro x y ⟨k, hkey, hversion, hx, hy⟩
      exact (hkeys k hkey hversion).2.2 x y hx hy
  · rintro ⟨⟨hthrows, hdiffers⟩, hbelow⟩ k hkey
    by_cases hversion : k = py "version"
    · rw [keyDiff, if_pos hversion]
      exact quiet_nil
    · refine (quiet_keyDiff_iff hrecur path hversion).2 ⟨?_, ?_, ?_⟩
      · exact fun h ↦ hthrows ⟨harray, hobject, k, hkey, hversion, h⟩
      · exact fun hD h ↦ hdiffers hD ⟨k, hkey, hversion, h⟩
      · exact fun x y hx hy ↦ hbelow x y ⟨k, hkey, hversion, hx, hy⟩

/-- **The comparison of two values**, by what it does itself and by what it calls itself for. -/
theorem quiet_nodeDiff_iff (hrecur : ∀ p x y, p ≠ py "version" → (Quiet D (recur p x y) ↔ P x y)) (path : PyStr)
    (before after : Value) :
    Quiet D (nodeDiff r recur path before after) ↔
      (¬Throws r before after ∧ (D → ¬Differs r before after)) ∧ ∀ x y, Below r before after x y → P x y := by
  unfold nodeDiff
  rcases hafter : r.elements after with - | ys
  · by_cases hobject : r.isObject after
    · rw [if_pos hobject]
      exact quiet_object_iff hrecur path hafter hobject
    · rw [if_neg hobject, differs_value_iff hafter hobject]
      have hthrows : ¬Throws r before after := fun h ↦ hobject h.2.1
      cases heq : before.strictEq after <;> simp [hthrows, not_below_of_value hafter hobject]
  · have hthrows : ¬Throws r before after := not_throws_of_array hafter
    rcases hbefore : r.elements before with - | xs
    · have hdiffers : Differs r before after := .array (hafter ▸ Option.some_ne_none _) hbefore
      simp [hthrows, hdiffers, not_below_of_not_array hbefore hafter]
    · rw [and_iff_right hthrows]
      exact quiet_arrays_iff hrecur path hbefore hafter

end Node

/-! ### The walk -/

section Walk

variable {r : Realm}

theorem not_compared_zero {before after x y : Value} : ¬Compared r 0 before after x y := by
  rintro ⟨⟩

theorem forall_compared_succ_iff {n : ℕ} {before after : Value} {P : Value → Value → Prop} :
    (∀ x y, Compared r (n + 1) before after x y → P x y) ↔
      P before after ∧ ∀ b a, Below r before after b a → ∀ x y, Compared r n b a x y → P x y := by
  constructor
  · exact fun h ↦ ⟨h _ _ .here, fun b a hbelow x y hrest ↦ h x y (.into hbelow hrest)⟩
  · rintro ⟨hhere, hrest⟩ x y (- | ⟨hbelow, hcompared⟩)
    · exact hhere
    · exact hrest _ _ hbelow x y hcompared

/-- **The walk raises nothing** if no pair that is compared does, **and finds nothing** if none of them differs. -/
theorem quiet_configDiffAt_iff {D : Prop} (levels : ℕ) (path : PyStr) (before after : Value)
    (hpath : path ≠ py "version") :
    Quiet D (configDiffAt r levels path before after) ↔
      ∀ x y, Compared r levels before after x y → ¬Throws r x y ∧ (D → ¬Differs r x y) := by
  induction levels generalizing path before after with
  | zero => simp [configDiffAt, not_compared_zero]
  | succ levels ih =>
    rw [configDiffAt, if_neg hpath, forall_compared_succ_iff]
    exact quiet_nodeDiff_iff ih path before after

/-- The comparison ends with a result if no pair raises. -/
theorem isSome_configDiff_iff {before after : Value} : (configDiff r before after).isSome ↔
    ∀ x y, Compared r (maxDiffDepth + 1) before after x y → ¬Throws r x y := by
  have h := quiet_configDiffAt_iff (D := False) (r := r) (maxDiffDepth + 1) [] before after (by decide)
  simpa [Quiet, Option.isSome_iff_exists, configDiff] using h

/-- The comparison finds nothing if no pair raises or differs. -/
theorem configDiff_eq_nil_iff {before after : Value} : configDiff r before after = some [] ↔
    ∀ x y, Compared r (maxDiffDepth + 1) before after x y → ¬Throws r x y ∧ ¬Differs r x y := by
  have h := quiet_configDiffAt_iff (D := True) (r := r) (maxDiffDepth + 1) [] before after (by decide)
  simpa [Quiet, configDiff] using h

end Walk

/-! ### Equal trees -/

/-- In so many levels, the trees are equal but for what is under a name `version`. -/
def AgreeTo (n : ℕ) (before after : Value) : Prop :=
  ∀ p : List PathStep, .key (py "version") ∉ p →
    (p.length < n → (before.node p).map Value.shape = (after.node p).map Value.shape) ∧
      (p.length ≤ n → (before.node p).isSome = (after.node p).isSome)

theorem EqualButVersion.agreeTo {before after : Value} (h : EqualButVersion before after) (n : ℕ) :
    AgreeTo n before after := by
  intro p hp
  have hshape := h p fun hhead ↦ hp (List.mem_of_head? hhead)
  refine ⟨fun _ ↦ hshape, fun _ ↦ ?_⟩
  simpa only [Option.isSome_map] using congrArg Option.isSome hshape

namespace AgreeTo

variable {r : Realm} {n : ℕ} {before after : Value}

theorem shape_eq (h : AgreeTo (n + 1) before after) : before.shape = after.shape :=
  Option.some.inj ((h [] List.not_mem_nil).1 n.succ_pos)

theorem not_mem_keys_of_lookup {kvs : List (PyStr × Value)} {k : PyStr} (h : kvs.lookup k = none) :
    k ∉ (Value.obj kvs).keys := by
  rintro hmem
  obtain ⟨e, he, rfl⟩ := List.mem_map.1 hmem
  exact absurd (List.lookup_eq_none_iff.1 h e he) (by simp)

/-- Values that agree have the same names and places, and what is there agrees in a level less. -/
theorem child (h : AgreeTo (n + 1) before after) {s : PathStep} (hs : s ≠ .key (py "version")) :
    Option.Rel (AgreeTo n) (before.child s) (after.child s) := by
  have hstep : ∀ p : List PathStep, .key (py "version") ∉ p →
      (p.length < n → ((before.child s).bind (·.node p)).map Value.shape =
        ((after.child s).bind (·.node p)).map Value.shape) ∧
      (p.length ≤ n → ((before.child s).bind (·.node p)).isSome = ((after.child s).bind (·.node p)).isSome) := by
    intro p hp
    obtain ⟨hshape, hsome⟩ := h (s :: p) (List.not_mem_cons_of_ne_of_not_mem hs.symm hp)
    exact ⟨fun hlt ↦ hshape (Nat.succ_lt_succ hlt), fun hle ↦ hsome (Nat.succ_le_succ hle)⟩
  have hnil := (hstep [] List.not_mem_nil).2 n.zero_le
  generalize before.child s = x at *
  generalize after.child s = y at *
  rcases x with - | x <;> rcases y with - | y
  · exact .none
  · exact absurd hnil (by simp [Value.node])
  · exact absurd hnil (by simp [Value.node])
  · exact .some hstep

/-- Where an object agrees with what was before, each name that is compared leads to values of the trees. -/
theorem property (h : AgreeTo (n + 1) before after) (hobject : r.isObject after) {k : PyStr}
    (hkey : k ∈ comparedKeys before.orEmpty after) (hversion : k ≠ py "version") :
    before.orEmpty.isPrimitive = false ∧ ∃ x y, r.property before.orEmpty k = .value x ∧
      r.property after k = .value y ∧ AgreeTo n x y := by
  have hshape := h.shape_eq
  have hchild := h.child (s := .key k) (by simpa using hversion)
  rw [comparedKeys, List.mem_eraseDups, List.mem_append] at hkey
  cases after with
  | obj kvs =>
    cases before with
    | obj kvs' =>
      refine ⟨rfl, ?_⟩
      simp only [Realm.property, Value.orEmpty, Value.truthy, if_true]
      change Option.Rel (AgreeTo n) (kvs'.lookup k) (kvs.lookup k) at hchild
      generalize hx : kvs'.lookup k = x at hchild
      generalize hy : kvs.lookup k = y at hchild
      cases hchild with
      | some hagree => exact ⟨_, _, rfl, rfl, hagree⟩
      | none => exact absurd hkey (not_or.2 ⟨not_mem_keys_of_lookup hx, not_mem_keys_of_lookup hy⟩)
    | _ => cases hshape
  | builtin i =>
    cases before with
    | builtin j => simp [Value.keys, Value.orEmpty, Value.truthy] at hkey
    | _ => cases hshape
  | _ => cases hobject

theorem child_of_element {v x : Value} {xs : List Value} {i : ℕ} (hv : r.elements v = some xs) (hx : xs[i]? = some x) :
    v.child (.index i) = some x := by
  cases v with
  | arr ys =>
    obtain rfl := Option.some.inj hv
    exact hx
  | builtin j =>
    simp only [Realm.elements, Option.ite_none_right_eq_some, Option.some.injEq] at hv
    simp [← hv.2] at hx
  | _ => cases hv

theorem not_throws (h : AgreeTo (n + 1) before after) : ¬Throws r before after := by
  rintro ⟨-, hobject, k, hkey, hversion, hthrows⟩
  obtain ⟨hprim, x, y, hx, hy, -⟩ := h.property hobject hkey hversion
  simp [ThrowsAt, hprim, hx, hy] at hthrows

/-- Values that agree are both arrays, of the same length, or neither is one. -/
theorem elements (h : AgreeTo (n + 1) before after) :
    (r.elements before).map List.length = (r.elements after).map List.length := by
  have hshape := h.shape_eq
  cases before <;> cases after <;> simp_all [Value.shape, Realm.elements]

theorem strictEq (h : AgreeTo (n + 1) before after) (harray : r.elements after = none) (hobject : ¬r.isObject after) :
    before.strictEq after = true := by
  have hshape := h.shape_eq
  cases before <;> cases after <;> simp_all [Value.shape, Value.strictEq, Realm.elements, Realm.isObject]

theorem not_differs (h : AgreeTo (n + 1) before after) : ¬Differs r before after := by
  have helements : (r.elements before).map List.length = (r.elements after).map List.length := h.elements
  rintro (⟨hafter, hbefore⟩ | ⟨hbefore, hafter, hlength⟩ | ⟨-, hobject, hkey, hversion, habsent⟩ |
    ⟨harray, hobject, hne⟩)
  · rw [hbefore] at helements
    exact hafter (Option.map_eq_none_iff.1 helements.symm)
  · rw [hbefore, hafter] at helements
    exact hlength (Option.some.inj helements)
  · obtain ⟨-, x, y, hx, hy, -⟩ := h.property hobject hkey hversion
    simp [hx, hy] at habsent
  · exact absurd (h.strictEq harray hobject) (by simp [hne])

theorem below (h : AgreeTo (n + 1) before after) {x y : Value} (hbelow : Below r before after x y) :
    AgreeTo n x y := by
  cases hbelow with
  | @item _ _ i _ _ hbefore hafter hx hy =>
    have hchild := h.child (s := .index i) (by simp)
    rw [child_of_element hbefore hx, child_of_element hafter hy] at hchild
    cases hchild with
    | some hagree => exact hagree
  | key harray hobject hkey hversion hx hy =>
    obtain ⟨-, x', y', hx', hy', hagree⟩ := h.property hobject hkey hversion
    obtain rfl : _ = x' := by simpa [hx] using hx'
    obtain rfl : _ = y' := by simpa [hy] using hy'
    exact hagree

/-- Every pair that is compared agrees in one level at least. -/
theorem compared (h : AgreeTo n before after) {x y : Value} (hxy : Compared r n before after x y) :
    ∃ m, AgreeTo (m + 1) x y := by
  induction hxy with
  | here => exact ⟨_, h⟩
  | into hbelow _ ih => exact ih (h.below hbelow)

/-- **What the review cannot show**: changes below the last level, and under a name `version` at any level. -/
theorem configDiff_eq_nil (h : AgreeTo (maxDiffDepth + 1) before after) : configDiff r before after = some [] := by
  refine configDiff_eq_nil_iff.2 fun x y hxy ↦ ?_
  obtain ⟨m, hm⟩ := h.compared hxy
  exact ⟨hm.not_throws, hm.not_differs⟩

end AgreeTo

/-! ### The review -/

/-- **The review is complete exactly if the trees are equal apart from the version, or what is compared raises nothing
and differs somewhere.** -/
theorem reviewsAll_iff (r : Realm) (before after : Value) :
    ReviewsAll r before after ↔ EqualButVersion before after ∨ Reviewed r before after := by
  constructor
  · rintro ⟨changes, hdiff, hcomplete⟩
    refine or_iff_not_imp_left.2 fun hne ↦ ?_
    have hthrows := isSome_configDiff_iff.1 (Option.isSome_of_eq_some hdiff)
    have hsome : configDiff r before after ≠ some [] :=
      fun hnil ↦ hne (hcomplete.1 (Option.some.inj (hdiff.symm.trans hnil)))
    refine ⟨hthrows, by_contra fun hquiet ↦ hsome (configDiff_eq_nil_iff.2 fun x y hxy ↦ ?_)⟩
    exact ⟨hthrows x y hxy, fun hdiffers ↦ hquiet ⟨x, y, hxy, hdiffers⟩⟩
  · rintro (hequal | ⟨hthrows, x, y, hxy, hdiffers⟩)
    · exact ⟨[], (hequal.agreeTo _).configDiff_eq_nil, iff_of_true rfl hequal⟩
    · obtain ⟨changes, hdiff⟩ := Option.isSome_iff_exists.1 (isSome_configDiff_iff.2 hthrows)
      have hne : changes ≠ [] := by
        rintro rfl
        exact (configDiff_eq_nil_iff.1 hdiff x y hxy).2 hdiffers
      refine ⟨changes, hdiff, iff_of_false hne fun hequal ↦ hne ?_⟩
      exact Option.some.inj (hdiff.symm.trans (hequal.agreeTo _).configDiff_eq_nil)

/-- What plain objects inherit, as far as its names go. -/
def bareRealm : Realm where
  object k :=
    match [py "__proto__", py "constructor", py "hasOwnProperty", py "isPrototypeOf", py "propertyIsEnumerable",
      py "toLocaleString", py "toString", py "valueOf"].idxOf? k with
    | some i => .value (.builtin i)
    | none => .absent
  array _ := .absent
  builtin _ _ := .absent
  callable i := i ≠ 0
  isArray _ := false

/-- The comparison raises, or finds nothing although something differs at a place outside of `version`. -/
def missed (r : Realm) (p : List PathStep) (before after : Value) : Bool :=
  match configDiff r before after with
  | none => true
  | some changes =>
    changes.isEmpty && p.head? ≠ some (.key (py "version")) &&
      (before.node p).map Value.shape ≠ (after.node p).map Value.shape

theorem not_reviewsAll_of_missed {r : Realm} {p : List PathStep} {before after : Value}
    (h : missed r p before after = true) : ¬ReviewsAll r before after := by
  rintro ⟨changes, hdiff, hcomplete⟩
  simp only [missed, hdiff, Bool.and_eq_true, List.isEmpty_iff, decide_eq_true_eq] at h
  obtain ⟨⟨hnil, hhead⟩, hne⟩ := h
  exact hne (hcomplete.1 hnil p hhead)

/-- A configuration with one model, which has one backend. -/
def reviewedConfig (weight : ℚ) (params : PyDict) : GatewayConfig :=
  { GatewayConfig.empty with
    models :=
      [⟨py "m",
        [⟨1, [(py "provider", .str (py "p")), (py "model", .str (py "b")), (py "enabled", .bool true),
          (py "context_length", .null), (py "max_output_tokens", .null), (py "cache_supported", .null),
          (py "weight", .float (.fin weight))]⟩],
        .empty,
        (defaultFields modelClass.specs).map fun e ↦ if e.1 = py "default_params" then (e.1, .obj params) else e⟩] }

/-- The review of an edit is not complete, although both configurations are of their schema. -/
def Misreviewed (r : Realm) (c c' : GatewayConfig) : Prop :=
  c.Typed ∧ c'.Typed ∧ ∃ before after, Value.ofJson c.dump = some before ∧ Value.ofJson c'.dump = some after ∧
    ¬ReviewsAll r before after

theorem reviewedConfig_typed (weight : ℚ) (params : PyDict) : (reviewedConfig weight params).Typed := by
  refine ⟨List.forall_mem_nil _, fun m hm ↦ ?_⟩
  obtain rfl := List.mem_singleton.1 hm
  refine ⟨?_, ?_, fun b hb ↦ ?_⟩
  · repeat' first | exact .nil | refine .cons ⟨rfl, rfl⟩ ?_
  · change some (Json.str []) ≠ some (.str (py "text+vision"))
    decide
  · obtain rfl := List.mem_singleton.1 hb
    repeat' first | exact .nil | refine .cons ⟨rfl, rfl⟩ ?_

theorem misreviewed_of_missed {r : Realm} {c c' : GatewayConfig} (p : List PathStep) (hc : c.Typed) (hc' : c'.Typed)
    (h : ((Value.ofJson c.dump).bind fun before ↦ (Value.ofJson c'.dump).map (missed r p before)) = some true) :
    Misreviewed r c c' := by
  obtain ⟨before, hbefore, h⟩ := Option.bind_eq_some_iff.1 h
  obtain ⟨after, hafter, h⟩ := Option.map_eq_some_iff.1 h
  exact ⟨hc, hc', before, after, hbefore, hafter, not_reviewsAll_of_missed h⟩

/-- **Two edits that are not reviewed.** A parameter that was a number becomes an object, and `'effort' in 5` raises; a
backend gets another weight, of which nothing is said. -/
theorem configDiff_misreviewed :
    Misreviewed bareRealm (reviewedConfig 1 [(py "reasoning", .int 5)])
      (reviewedConfig 1 [(py "reasoning", .obj [(py "effort", .str (py "high"))])]) ∧
    Misreviewed bareRealm (reviewedConfig 1 []) (reviewedConfig 2 []) := by
  refine ⟨misreviewed_of_missed [] (reviewedConfig_typed _ _) (reviewedConfig_typed _ _) (by decide +kernel),
    misreviewed_of_missed [.key (py "models"), .index 0, .key (py "backends"), .index 0, .key (py "weight")]
      (reviewedConfig_typed _ _) (reviewedConfig_typed _ _) (by decide +kernel)⟩

end LocalGateway
