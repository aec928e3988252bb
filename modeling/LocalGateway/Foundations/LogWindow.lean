import Mathlib.Order.WithBot

/-!
# A window on a log

Some entries of a log, the newest first, as a reader has them who asks from time to time for what is newer than the
newest one it has. Entries have ranks, and a bound says up to which rank the reader has asked.

* `Descending`: the entries are in order, and none is there twice.
* `Gapless`: an entry that is not older than all of the window, and not beyond the bound, is in the window.
* `Gapless.append`: new entries in front of the window, all there are up to a new bound.
* `Gapless.take`, `Gapless.grow`: a window that is cut off at the old end, and a log that grows.
* `mem_take_or`: the newest ones of entries that are in order.

Nothing here knows what the entries are.
-/

namespace LogWindow

variable {α τ : Type*} [LinearOrder τ] (rank : α → τ)

/-- The ranks descend. -/
def Descending (l : List α) : Prop :=
  l.Pairwise fun a b ↦ rank b < rank a

/-- The entries of the log from the end of the window up to a bound are in the window. -/
def Gapless (log : α → Prop) (bound : τ) (l : List α) : Prop :=
  ∀ x, log x → rank x ≤ bound → (∃ y ∈ l, rank y ≤ rank x) → x ∈ l

variable {rank} {log : α → Prop} {bound : τ} {l : List α}

/-- Of two entries the newer one is kept with the older one. -/
theorem Descending.mem_take (h : Descending rank l) {n : ℕ} {x y : α} (hx : x ∈ l.take n) (hy : y ∈ l)
    (hxy : rank x ≤ rank y) : y ∈ l.take n := by
  rw [← List.take_append_drop n l] at h hy
  rcases List.mem_append.1 hy with hy | hy
  · exact hy
  · exact absurd ((List.pairwise_append.1 h).2.2 x hx y hy) (not_lt.2 hxy)

theorem Descending.take (h : Descending rank l) (n : ℕ) : Descending rank (l.take n) :=
  h.sublist (List.take_sublist n l)

theorem Descending.append {new : List α} (h : Descending rank l) (hnew : Descending rank new)
    (hbound : ∀ x ∈ l, rank x ≤ bound) (hlt : ∀ y ∈ new, bound < rank y) : Descending rank (new ++ l) :=
  List.pairwise_append.2 ⟨hnew, h, fun y hy x hx ↦ (hbound x hx).trans_lt (hlt y hy)⟩

theorem gapless_nil (log : α → Prop) (bound : τ) : Gapless rank log bound [] := fun _ _ _ ⟨_, h, _⟩ ↦
  absurd h List.not_mem_nil

/-- **A window that is cut off** at its old end. -/
theorem Gapless.take (h : Gapless rank log bound l) (hl : Descending rank l) (n : ℕ) :
    Gapless rank log bound (l.take n) := by
  rintro x hx hbound ⟨y, hy, hyx⟩
  exact hl.mem_take hy (h x hx hbound ⟨y, List.mem_of_mem_take hy, hyx⟩) hyx

/-- **New entries** in front of a window: all that the log has between two bounds. -/
theorem Gapless.append {top : τ} {new : List α} (h : Gapless rank log bound l) (hlt : ∀ y ∈ new, bound < rank y)
    (hnew : ∀ x, log x → bound < rank x → rank x ≤ top → x ∈ new) : Gapless rank log top (new ++ l) := by
  rintro x hx htop ⟨y, hy, hyx⟩
  rcases le_or_gt (rank x) bound with hle | hgt
  · rcases List.mem_append.1 hy with hy | hy
    · exact absurd (hlt y hy) (not_lt.2 (hyx.trans hle))
    · exact List.mem_append_right new (h x hx hle ⟨y, hy, hyx⟩)
  · exact List.mem_append_left l (hnew x hx hgt htop)

/-- **A log that grows** beyond the bound. -/
theorem Gapless.grow {log' : α → Prop} (h : Gapless rank log bound l) (hlog : ∀ x, log' x → log x ∨ bound < rank x) :
    Gapless rank log' bound l := fun x hx hbound hy ↦
  (hlog x hx).elim (fun hold ↦ h x hold hbound hy) fun hnew ↦ absurd hbound (not_le.2 hnew)

/-- **The newest ones.** An entry that is not among them is no newer than any, and they are as many as may be. -/
theorem mem_take_or (h : l.Pairwise fun a b ↦ rank b ≤ rank a) {x : α} (hx : x ∈ l) (n : ℕ) :
    x ∈ l.take n ∨ (l.take n).length = n ∧ ∀ y ∈ l.take n, rank x ≤ rank y := by
  rw [← List.take_append_drop n l] at h hx
  rcases List.mem_append.1 hx with hx | hx
  · exact .inl hx
  · have hn : n < l.length := by
      have hpos := List.length_pos_of_mem hx
      rw [List.length_drop] at hpos
      exact Nat.lt_of_sub_pos hpos
    exact .inr ⟨by rw [List.length_take, min_eq_left hn.le], fun y hy ↦ (List.pairwise_append.1 h).2.2 y hy x hx⟩

end LogWindow
