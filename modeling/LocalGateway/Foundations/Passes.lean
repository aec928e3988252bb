import Mathlib.Data.List.Perm.Basic
import Mathlib.Data.List.Count
import Mathlib.Data.List.Nodup

/-!
# Two passes over a list

A list is gone through twice, and before each element a question is asked whose answer may change
from no to yes in between: the first pass keeps the elements with the answer yes, the second those
with the answer no. Which elements come out, and how often?

* `Answers`: answers to numbered questions that stay yes once they are yes.
* `Decision`: an element with the numbers of the two questions that decide on it.
* `passes_perm`: what comes out of two passes are the elements on which their questions agree.
* `kept_perm_iff`: everything comes out exactly when all of them agree.
* `flatMap_filter_perm`: a list that is gone through once for each key is rearranged.
-/

/-- Answers to numbered questions about elements. A yes persists. -/
structure Answers (α : Type) where
  /-- The answer to the question with the given number. -/
  ask : ℕ → α → Bool
  mono : ∀ {k l : ℕ} {a : α}, k ≤ l → ask k a = true → ask l a = true

/-- An element and the numbers of the two questions that decide on it. -/
structure Decision (α : Type) where
  item : α
  first : ℕ
  second : ℕ
  first_le : first ≤ second

namespace Answers

variable {α : Type}

/-- Answers that do not depend on the number of the question. -/
def frozen (p : α → Bool) : Answers α where
  ask _ := p
  mono _ h := h

variable (A : Answers α)

/-- The elements with the answer `want`, the question of the first of them having number `k`. -/
def pass (want : Bool) : ℕ → List α → List α
  | _, [] => []
  | k, a :: as => if A.ask k a = want then a :: pass want (k + 1) as else pass want (k + 1) as

@[simp] theorem pass_nil (want : Bool) (k : ℕ) : A.pass want k [] = [] := rfl

theorem pass_cons (want : Bool) (k : ℕ) (a : α) (as : List α) :
    A.pass want k (a :: as) =
      if A.ask k a = want then a :: A.pass want (k + 1) as else A.pass want (k + 1) as := rfl

theorem pass_sublist (want : Bool) (k : ℕ) (as : List α) : (A.pass want k as).Sublist as := by
  induction as generalizing k with
  | nil => exact .slnil
  | cons a as ih =>
    rw [pass_cons]
    split_ifs
    · exact (ih (k + 1)).cons_cons a
    · exact (ih (k + 1)).cons a

/-- With answers that stay as they are, a pass is a filter. -/
theorem pass_frozen (p : α → Bool) (want : Bool) (k : ℕ) (as : List α) :
    (frozen p).pass want k as = as.filter fun a ↦ p a = want := by
  induction as generalizing k with
  | nil => rfl
  | cons a as ih =>
    rw [pass_cons, ih, List.filter_cons]
    simp only [decide_eq_true_eq]
    rfl

/-! ### Decisions -/

/-- The two questions get the same answer. -/
def agrees (d : Decision α) : Bool :=
  A.ask d.first d.item = A.ask d.second d.item

/-- The elements on which the questions agree. -/
def kept (ds : List (Decision α)) : List α :=
  (ds.filter A.agrees).map Decision.item

/-- The decisions of two passes over a list, which begin with the given questions. -/
def decisions (k l : ℕ) (h : k ≤ l) : List α → List (Decision α)
  | [] => []
  | a :: as => ⟨a, k, l, h⟩ :: decisions (k + 1) (l + 1) (Nat.succ_le_succ h) as

@[simp] theorem map_item_decisions (k l : ℕ) (h : k ≤ l) (as : List α) :
    (decisions k l h as).map Decision.item = as := by
  induction as generalizing k l with
  | nil => rfl
  | cons a as ih => rw [decisions, List.map_cons, ih]

theorem kept_append (ds es : List (Decision α)) : A.kept (ds ++ es) = A.kept ds ++ A.kept es := by
  simp [kept]

/-- Selecting what is kept is keeping what is selected. -/
theorem filter_kept (p : α → Bool) (ds : List (Decision α)) :
    (A.kept ds).filter p = A.kept (ds.filter fun d ↦ p d.item) := by
  rw [kept, kept, List.filter_map, List.filter_filter, List.filter_filter]
  congr 1
  exact List.filter_congr fun d _ ↦ Bool.and_comm _ _

/-- **Two passes.** The first keeps the yes, the second the no: out come the elements on which they
agree, since an element refused by the first and then by the second is lost and none is kept by
both. -/
theorem passes_perm (k l : ℕ) (h : k ≤ l) (as : List α) :
    List.Perm (A.pass true k as ++ A.pass false l as) (A.kept (decisions k l h as)) := by
  induction as generalizing k l with
  | nil => simp [decisions, kept]
  | cons a as ih =>
    have hrest := ih (k + 1) (l + 1) (Nat.succ_le_succ h)
    have hmono : A.ask k a = true → A.ask l a = true := A.mono h
    unfold kept at hrest ⊢
    simp only [pass_cons, decisions, List.filter_cons, agrees]
    rcases Bool.eq_false_or_eq_true (A.ask k a) with hk | hk
    · simpa [hk, hmono hk] using hrest
    · rcases Bool.eq_false_or_eq_true (A.ask l a) with hl | hl
      · simpa [hk, hl] using hrest
      · simp only [hk, hl, Bool.false_eq_true, if_false, if_true, decide_true, List.map_cons]
        exact List.perm_middle.trans (hrest.cons a)

theorem kept_sublist (ds : List (Decision α)) : (A.kept ds).Sublist (ds.map Decision.item) :=
  List.filter_sublist.map _

/-- **Everything comes out exactly when all questions agree.** -/
theorem kept_perm_iff (ds : List (Decision α)) :
    List.Perm (A.kept ds) (ds.map Decision.item) ↔ ∀ d ∈ ds, A.agrees d = true := by
  constructor
  · intro h
    have hlength := h.length_eq
    rw [kept, List.length_map, List.length_map] at hlength
    exact List.length_filter_eq_length_iff.1 hlength
  · intro h
    rw [kept, List.filter_eq_self.2 h]

/-- Frozen answers agree with themselves. -/
theorem agrees_frozen (p : α → Bool) (d : Decision α) : (frozen p).agrees d = true := by
  simp [agrees, frozen]

end Answers

/-! ### Groups -/

/-- Two lists of two parts each, part by part. -/
theorem append_swap_perm {α : Type} (as bs cs ds : List α) :
    List.Perm ((as ++ bs) ++ (cs ++ ds)) ((as ++ cs) ++ (bs ++ ds)) := by
  rw [List.append_assoc, List.append_assoc]
  refine List.Perm.append_left as ?_
  rw [← List.append_assoc, ← List.append_assoc]
  exact List.perm_append_comm.append_right ds

section Groups

variable {α κ : Type} [DecidableEq κ] (key : α → κ)

/-- The elements with each of the keys in turn are those with one of the keys. -/
theorem flatMap_filter_perm {keys : List κ} (hkeys : keys.Nodup) (as : List α) :
    List.Perm (keys.flatMap fun k ↦ as.filter (key · = k)) (as.filter (key · ∈ keys)) := by
  induction keys with
  | nil => simp
  | cons k keys ih =>
    obtain ⟨hk, hkeys⟩ := List.nodup_cons.1 hkeys
    have hfirst : (as.filter (key · ∈ k :: keys)).filter (key · = k) = as.filter (key · = k) := by
      rw [List.filter_filter]
      exact List.filter_congr fun a _ ↦ by simp +contextual
    have hrest : (as.filter (key · ∈ k :: keys)).filter (fun a ↦ !decide (key a = k)) =
        as.filter (key · ∈ keys) := by
      rw [List.filter_filter]
      refine List.filter_congr fun a _ ↦ ?_
      rcases eq_or_ne (key a) k with rfl | hne
      · simp [hk]
      · simp [hne]
    rw [List.flatMap_cons]
    refine ((ih hkeys).append_left _).trans ?_
    rw [← hfirst, ← hrest]
    exact List.filter_append_perm _ _

/-- With all keys that occur, nothing is lost. -/
theorem flatMap_filter_perm_self {keys : List κ} (hkeys : keys.Nodup) {as : List α}
    (h : ∀ a ∈ as, key a ∈ keys) :
    List.Perm (keys.flatMap fun k ↦ as.filter (key · = k)) as := by
  refine (flatMap_filter_perm key hkeys as).trans (List.Perm.of_eq ?_)
  exact List.filter_eq_self.2 fun a ha ↦ decide_eq_true (h a ha)

end Groups
