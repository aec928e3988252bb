import Mathlib.Data.List.Forall2
import Mathlib.Data.List.Sort
import LocalGateway.Foundations.Passes

/-!
# Related lists

Two lists are related if their elements are, place by place (`List.Forall₂`). What works on lists
without looking into the elements takes related lists to related lists, as long as the questions it
asks have the same answers on both sides. Mathlib has this for maps, filters and concatenations;
here it is for what else an ordering of candidates is made of.

* `forall₂_map_iff`: related to an image, with a property of the elements.
* `forall₂_iff_forall_mem`: a relation that comes down to a property of the first elements.
* `map_eq_of_forall₂`, `any_eq_of_forall₂`, …: what is read off related elements alike is equal.
* `forall₂_insertionSort`, `Answers.forall₂_pass`: sorting and passes.
-/

open List

section Related

variable {α β γ δ : Type} {R : α → β → Prop} {as : List α} {bs : List β}

/-- A list is related to another by a function, on elements with a property, if it is its image. -/
theorem forall₂_map_iff {f : α → β} {p : α → Prop} :
    Forall₂ (fun a b ↦ b = f a ∧ p a) as bs ↔ bs = as.map f ∧ ∀ a ∈ as, p a := by
  constructor
  · intro h
    induction h with
    | nil => simp
    | cons hab _ ih =>
      obtain ⟨rfl, hp⟩ := hab
      obtain ⟨rfl, hps⟩ := ih
      exact ⟨rfl, forall_mem_cons.2 ⟨hp, hps⟩⟩
  · rintro ⟨rfl, h⟩
    exact forall₂_map_right_iff.2 (forall₂_same.2 fun a ha ↦ ⟨rfl, h a ha⟩)

/-- Relations one after the other. -/
theorem forall₂_trans {S : β → γ → Prop} {cs : List γ} (h : Forall₂ R as bs) (h' : Forall₂ S bs cs) :
    Forall₂ (fun a c ↦ ∃ b, R a b ∧ S b c) as cs := by
  induction h generalizing cs with
  | nil =>
    cases h'
    exact .nil
  | cons hab _ ih =>
    obtain ⟨c, cs, hbc, hbs, rfl⟩ := forall₂_cons_left_iff.1 h'
    exact .cons ⟨_, hab, hbc⟩ (ih hbs)

theorem exists_of_mem_right {b : β} (h : Forall₂ R as bs) (hb : b ∈ bs) : ∃ a ∈ as, R a b := by
  induction h with
  | nil => cases hb
  | cons hab _ ih =>
    rcases mem_cons.1 hb with rfl | hb
    · exact ⟨_, mem_cons_self, hab⟩
    · obtain ⟨a, ha, hab⟩ := ih hb
      exact ⟨a, mem_cons_of_mem _ ha, hab⟩

theorem exists_of_mem_left {a : α} (h : Forall₂ R as bs) (ha : a ∈ as) : ∃ b ∈ bs, R a b := by
  have hflip : Forall₂ (flip R) bs as := .flip h
  exact exists_of_mem_right hflip ha

/-- Lists in two parts are related part by part. -/
theorem exists_append_of_forall₂ {as₁ as₂ : List α} (h : Forall₂ R (as₁ ++ as₂) bs) :
    ∃ bs₁ bs₂, bs = bs₁ ++ bs₂ ∧ Forall₂ R as₁ bs₁ ∧ Forall₂ R as₂ bs₂ := by
  have htake := forall₂_take_append bs as₁ as₂ h.flip
  have hdrop := forall₂_drop_append bs as₁ as₂ h.flip
  exact ⟨_, _, (take_append_drop as₁.length bs).symm, htake.flip, hdrop.flip⟩

/-- An element between two parts is related to one between the related parts. -/
theorem exists_middle_of_forall₂ {a : α} {as₁ as₂ : List α} (h : Forall₂ R (as₁ ++ a :: as₂) bs) :
    ∃ bs₁ b bs₂, bs = bs₁ ++ b :: bs₂ ∧ Forall₂ R as₁ bs₁ ∧ R a b ∧ Forall₂ R as₂ bs₂ := by
  obtain ⟨bs₁, rest, rfl, hfirst, hrest⟩ := exists_append_of_forall₂ h
  obtain ⟨b, bs₂, hab, hlast, rfl⟩ := forall₂_cons_left_iff.1 hrest
  exact ⟨bs₁, b, bs₂, rfl, hfirst, hab, hlast⟩

/-- The last element is related to the last one. -/
theorem exists_last_of_forall₂ {a : α} (h : Forall₂ R (as ++ [a]) bs) :
    ∃ bs' b, bs = bs' ++ [b] ∧ Forall₂ R as bs' ∧ R a b := by
  obtain ⟨bs', b, rest, rfl, hfirst, hab, hrest⟩ := exists_middle_of_forall₂ h
  obtain rfl := forall₂_nil_left_iff.1 hrest
  exact ⟨bs', b, rfl, hfirst, hab⟩

theorem forall₂_concat_iff {a : α} {b : β} : Forall₂ R (as ++ [a]) (bs ++ [b]) ↔ Forall₂ R as bs ∧ R a b := by
  constructor
  · intro h
    obtain ⟨bs', b', heq, hfirst, hab⟩ := exists_last_of_forall₂ h
    obtain ⟨rfl, hlast⟩ := append_inj' heq rfl
    obtain rfl := singleton_injective hlast
    exact ⟨hfirst, hab⟩
  · rintro ⟨hfirst, hab⟩
    exact rel_append hfirst (.cons hab .nil)

/-- A map that may fail gives what it gives for each element. -/
theorem mapM_eq_some_iff {f : α → Option β} :
    as.mapM f = some bs ↔ Forall₂ (fun a b ↦ f a = some b) as bs := by
  induction as generalizing bs with
  | nil =>
    rw [mapM_nil, forall₂_nil_left_iff]
    exact Option.some_inj.trans eq_comm
  | cons a as ih =>
    rw [mapM_cons, forall₂_cons_left_iff]
    constructor
    · intro h
      obtain ⟨b, hb, h⟩ := Option.bind_eq_some_iff.1 h
      obtain ⟨bs', hbs, h⟩ := Option.bind_eq_some_iff.1 h
      exact ⟨b, bs', hb, ih.1 hbs, (Option.some.inj h).symm⟩
    · rintro ⟨b, bs', hb, hbs, rfl⟩
      rw [hb, ih.2 hbs]
      rfl

/-- A map that may fail does not if it does not for any element. -/
theorem isSome_mapM_iff {f : α → Option β} : (as.mapM f).isSome ↔ ∀ a ∈ as, (f a).isSome := by
  induction as with
  | nil => simp
  | cons a as ih =>
    rw [mapM_cons, forall_mem_cons, ← ih]
    rcases f a with - | b
    · simp
    · rcases as.mapM f with - | bs
      · simp
      · simp

/-- Where related elements have a further relation exactly if the first has a property, the lists have it
exactly if all elements of the first have the property. -/
theorem forall₂_iff_forall_mem {T : α → β → Prop} {p : α → Prop} (h : Forall₂ R as bs)
    (hT : ∀ a b, R a b → (T a b ↔ p a)) : Forall₂ T as bs ↔ ∀ a ∈ as, p a := by
  induction h with
  | nil => simp
  | cons hab _ ih => rw [forall₂_cons, hT _ _ hab, ih, forall_mem_cons]

theorem map_eq_of_forall₂ {f : α → γ} {g : β → γ} (h : Forall₂ R as bs)
    (heq : ∀ {a b}, R a b → g b = f a) : bs.map g = as.map f := by
  induction h with
  | nil => rfl
  | cons hab _ ih => rw [map_cons, map_cons, heq hab, ih]

/-- A relation by what two functions say. -/
theorem forall₂_iff_map_eq {f : α → γ} {g : β → γ} (h : ∀ a b, R a b ↔ f a = g b) :
    Forall₂ R as bs ↔ as.map f = bs.map g := by
  induction as generalizing bs with
  | nil => cases bs <;> simp
  | cons a as ih => cases bs <;> simp [h, ih]

/-- Two functions that tell elements apart together tell lists apart. -/
theorem eq_of_map_eq {as bs : List α} {f : α → γ} {g : α → δ} (h : ∀ a b, f a = f b → g a = g b → a = b)
    (hf : as.map f = bs.map f) (hg : as.map g = bs.map g) : as = bs := by
  induction as generalizing bs with
  | nil => exact (List.map_eq_nil_iff.1 hf.symm).symm
  | cons a as ih =>
    cases bs with
    | nil => cases hf
    | cons b bs =>
      obtain ⟨hab, hf⟩ := List.cons.inj hf
      obtain ⟨hab', hg⟩ := List.cons.inj hg
      rw [h a b hab hab', ih hf hg]

theorem filterMap_eq_of_forall₂ {f : α → Option γ} {g : β → Option γ} (h : Forall₂ R as bs)
    (heq : ∀ {a b}, R a b → g b = f a) : bs.filterMap g = as.filterMap f := by
  induction h with
  | nil => rfl
  | cons hab _ ih => rw [filterMap_cons, filterMap_cons, heq hab, ih]

theorem any_eq_of_forall₂ {p : α → Bool} {q : β → Bool} (h : Forall₂ R as bs)
    (heq : ∀ {a b}, R a b → q b = p a) : bs.any q = as.any p := by
  induction h with
  | nil => rfl
  | cons hab _ ih => rw [any_cons, any_cons, heq hab, ih]

theorem eq_nil_iff_of_forall₂ (h : Forall₂ R as bs) : bs = [] ↔ as = [] := by
  cases h <;> simp

theorem forall₂_toList {a : Option α} {b : Option β} (h : a.Rel R b) : Forall₂ R a.toList b.toList := by
  cases h with
  | some hab => exact .cons hab .nil
  | none => exact .nil

/-- What two functions find for the same elements. -/
theorem forall₂_filterMap_same {f : γ → Option α} {g : γ → Option β} (h : ∀ x, (f x).Rel R (g x))
    (xs : List γ) : Forall₂ R (xs.filterMap f) (xs.filterMap g) := by
  induction xs with
  | nil => exact .nil
  | cons x xs ih =>
    have hx := h x
    rw [List.filterMap_cons, List.filterMap_cons]
    generalize f x = a at hx
    generalize g x = b at hx
    cases hx with
    | some hab => exact .cons hab ih
    | none => exact ih

/-- Filters with the same answers. -/
theorem forall₂_filter {p : α → Bool} {q : β → Bool} (h : Forall₂ R as bs)
    (heq : ∀ {a b}, R a b → q b = p a) : Forall₂ R (as.filter p) (bs.filter q) :=
  rel_filter (fun _ _ hab ↦ by show (_ = true ↔ _ = true); rw [heq hab]) h

/-- Related lists, each of whose elements is replaced by related lists. -/
theorem forall₂_flatMap {S : γ → δ → Prop} {f : α → List γ} {g : β → List δ}
    (h : Forall₂ R as bs) (hfg : ∀ {a b}, R a b → Forall₂ S (f a) (g b)) :
    Forall₂ S (as.flatMap f) (bs.flatMap g) :=
  rel_flatMap h fun _ _ hab ↦ hfg hab

theorem forall₂_map {S : γ → δ → Prop} {f : α → γ} {g : β → δ} (h : Forall₂ R as bs)
    (hfg : ∀ {a b}, R a b → S (f a) (g b)) : Forall₂ S (as.map f) (bs.map g) :=
  rel_map (fun _ _ hab ↦ hfg hab) h

/-- The same list of keys, each replaced by related lists. -/
theorem forall₂_flatMap_same {S : γ → δ → Prop} (xs : List α) {f : α → List γ} {g : α → List δ}
    (hfg : ∀ x, Forall₂ S (f x) (g x)) : Forall₂ S (xs.flatMap f) (xs.flatMap g) :=
  forall₂_flatMap (forall₂_same.2 fun _ _ ↦ rfl) fun {a _} h ↦ h ▸ hfg a

/-- Lists that are related in two ways. -/
theorem forall₂_both {S : α → β → Prop} (h : Forall₂ R as bs) (h' : Forall₂ S as bs) :
    Forall₂ (fun a b ↦ R a b ∧ S a b) as bs := by
  rw [forall₂_iff_zip] at h h' ⊢
  exact ⟨h.1, fun hmem ↦ ⟨h.2 hmem, h'.2 hmem⟩⟩

theorem forall₂_append_iff {cs ds : List β} {as' : List α} (h : as.length = cs.length) :
    Forall₂ R (as ++ as') (cs ++ ds) ↔ Forall₂ R as cs ∧ Forall₂ R as' ds := by
  constructor
  · intro hall
    have hfirst := forall₂_take as.length hall
    have hrest := forall₂_drop as.length hall
    rw [take_left, h, take_left] at hfirst
    rw [drop_left, h, drop_left] at hrest
    exact ⟨hfirst, hrest⟩
  · exact fun hall ↦ rel_append hall.1 hall.2

/-- The same list of keys, each replaced by lists of the same length. -/
theorem forall₂_flatMap_iff {S : γ → δ → Prop} {xs : List α} {f : α → List γ} {g : α → List δ}
    (hlength : ∀ x ∈ xs, (f x).length = (g x).length) :
    Forall₂ S (xs.flatMap f) (xs.flatMap g) ↔ ∀ x ∈ xs, Forall₂ S (f x) (g x) := by
  induction xs with
  | nil => simp
  | cons x xs ih =>
    obtain ⟨hx, hxs⟩ := forall_mem_cons.1 hlength
    rw [flatMap_cons, flatMap_cons, forall₂_append_iff hx, ih hxs, forall_mem_cons]

section Sorting

variable {r : α → α → Prop} {s : β → β → Prop} [DecidableRel r] [DecidableRel s]

theorem forall₂_orderedInsert {a : α} {b : β} (hab : R a b) (h : Forall₂ R as bs)
    (hrs : ∀ {a a' b b'}, R a b → R a' b' → (r a a' ↔ s b b')) :
    Forall₂ R (as.orderedInsert r a) (bs.orderedInsert s b) := by
  induction h with
  | nil => exact .cons hab .nil
  | @cons c d _ _ hcd htail ih =>
    rw [orderedInsert_cons, orderedInsert_cons]
    by_cases hr : r a c
    · rw [if_pos hr, if_pos ((hrs hab hcd).1 hr)]
      exact .cons hab (.cons hcd htail)
    · rw [if_neg hr, if_neg fun hs ↦ hr ((hrs hab hcd).2 hs)]
      exact .cons hcd ih

/-- Sorting by comparisons that agree. -/
theorem forall₂_insertionSort (h : Forall₂ R as bs)
    (hrs : ∀ {a a' b b'}, R a b → R a' b' → (r a a' ↔ s b b')) :
    Forall₂ R (as.insertionSort r) (bs.insertionSort s) := by
  induction h with
  | nil => exact .nil
  | cons hab _ ih => exact forall₂_orderedInsert hab ih hrs

end Sorting

/-- Passes with the same answers. -/
theorem Answers.forall₂_pass {A : Answers α} {B : Answers β} (want : Bool) (h : Forall₂ R as bs)
    (heq : ∀ {a b} (k : ℕ), R a b → B.ask k b = A.ask k a) (k : ℕ) :
    Forall₂ R (A.pass want k as) (B.pass want k bs) := by
  induction h generalizing k with
  | nil => exact .nil
  | cons hab _ ih =>
    rw [pass_cons, pass_cons, heq k hab]
    split_ifs
    · exact .cons hab (ih (k + 1))
    · exact ih (k + 1)

end Related
