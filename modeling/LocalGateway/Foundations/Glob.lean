import Mathlib.Data.List.Forall2
import Mathlib.Data.List.Infix

/-!
# Patterns with wildcards

Patterns of single elements, of wildcards for one element and of wildcards for any number of them.

* `accepts_surrounded_iff`: a pattern between two wildcards for any number is searched for anywhere.

Nothing here knows what the elements are, or which of them are taken for the same.
-/

namespace Glob

variable {α : Type*}

/-- A place in a pattern. -/
inductive Item (α : Type*)
  | many
  | one
  | lit (a : α)

variable (same : α → α → Bool)

/-- The item stands for this element. -/
def Item.takes : Item α → α → Bool
  | .many, _ => false
  | .one, _ => true
  | .lit a, b => same a b

/-- The pattern stands for the whole text. -/
def accepts : List (Item α) → List α → Bool
  | [], text => text.isEmpty
  | .many :: ps, text => text.tails.any (accepts ps)
  | _ :: _, [] => false
  | .one :: ps, _ :: text => accepts ps text
  | .lit a :: ps, b :: text => same a b && accepts ps text

/-- Somewhere in the text there is a piece that the items stand for one by one. -/
def Occurs (ps : List (Item α)) (text : List α) : Prop :=
  ∃ before piece after, text = before ++ piece ++ after ∧ List.Forall₂ (fun p a ↦ p.takes same a = true) ps piece

variable {same}

theorem accepts_many_iff {ps : List (Item α)} {text : List α} :
    accepts same (.many :: ps) text = true ↔ ∃ before rest, text = before ++ rest ∧ accepts same ps rest = true := by
  rw [accepts, List.any_eq_true]
  constructor
  · rintro ⟨rest, hrest, h⟩
    obtain ⟨before, rfl⟩ := (List.mem_tails _ _).1 hrest
    exact ⟨before, rest, rfl, h⟩
  · rintro ⟨before, rest, rfl, h⟩
    exact ⟨rest, (List.mem_tails _ _).2 (List.suffix_append _ _), h⟩

/-- Items for one element each, with anything behind them. -/
theorem accepts_concat_many_iff {ps : List (Item α)} (hps : .many ∉ ps) {text : List α} :
    accepts same (ps ++ [.many]) text = true ↔
      ∃ piece after, text = piece ++ after ∧ List.Forall₂ (fun p a ↦ p.takes same a = true) ps piece := by
  induction ps generalizing text with
  | nil =>
    refine iff_of_true (accepts_many_iff.2 ⟨text, [], (List.append_nil _).symm, rfl⟩) ⟨[], text, rfl, .nil⟩
  | cons p ps ih =>
    obtain ⟨hp, hrest⟩ := not_or.1 (List.mem_cons.not.1 hps)
    have hcons (b : α) (rest : List α) : accepts same (p :: ps ++ [.many]) (b :: rest) =
        (p.takes same b && accepts same (ps ++ [.many]) rest) := by
      cases p with
      | many => exact absurd rfl hp
      | one => rfl
      | lit a => rfl
    cases text with
    | nil =>
      refine iff_of_false ?_ ?_
      · cases p with
        | many => exact absurd rfl hp
        | one => exact Bool.false_ne_true
        | lit a => exact Bool.false_ne_true
      · rintro ⟨piece, after, hnil, hforall⟩
        obtain ⟨rfl, -⟩ := List.append_eq_nil_iff.1 hnil.symm
        cases hforall
    | cons b rest =>
      rw [hcons, Bool.and_eq_true, ih hrest]
      constructor
      · rintro ⟨hb, piece, after, rfl, hforall⟩
        exact ⟨b :: piece, after, rfl, .cons hb hforall⟩
      · rintro ⟨piece, after, heq, hforall⟩
        cases hforall with
        | cons hb hforall =>
          obtain ⟨rfl, rfl⟩ := List.cons.inj heq
          exact ⟨hb, _, after, rfl, hforall⟩

/-- Each of the items stands for some element of the text. -/
theorem Occurs.exists_takes {ps : List (Item α)} {text : List α} (h : Occurs same ps text) {p : Item α} (hp : p ∈ ps) :
    ∃ a ∈ text, p.takes same a = true := by
  obtain ⟨before, piece, after, rfl, hforall⟩ := h
  have hpiece : ∃ a ∈ piece, p.takes same a = true := by
    induction hforall with
    | nil => cases hp
    | cons hq _ ih =>
      rcases List.mem_cons.1 hp with rfl | hp
      · exact ⟨_, List.mem_cons_self, hq⟩
      · obtain ⟨a, ha, htakes⟩ := ih hp
        exact ⟨a, List.mem_cons_of_mem _ ha, htakes⟩
  obtain ⟨a, ha, htakes⟩ := hpiece
  exact ⟨a, List.mem_append_left _ (List.mem_append_right _ ha), htakes⟩

/-- **A pattern between two wildcards** is searched for anywhere. -/
theorem accepts_surrounded_iff {ps : List (Item α)} (hps : .many ∉ ps) {text : List α} :
    accepts same (.many :: (ps ++ [.many])) text = true ↔ Occurs same ps text := by
  rw [accepts_many_iff]
  simp only [accepts_concat_many_iff hps]
  constructor
  · rintro ⟨before, rest, rfl, piece, after, rfl, hforall⟩
    exact ⟨before, piece, after, (List.append_assoc ..).symm, hforall⟩
  · rintro ⟨before, piece, after, rfl, hforall⟩
    exact ⟨before, piece ++ after, List.append_assoc .., piece, after, rfl, hforall⟩

end Glob
