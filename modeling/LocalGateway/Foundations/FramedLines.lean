import LocalGateway.Foundations.Lines

/-!
# Frames

Pieces without a blank line, each ended by one, and a reader that drains its buffer of them: whatever part of the text
has come, the reader holds the pieces that are complete in it and nothing else.

* `splitBlank_of_lines`: a text whose lines are not empty is such a piece.
* `drain_frames_prefix`: what a reader has of a part of the text.
-/

namespace Lines

variable {α : Type*} [DecidableEq α] (x : α)

/-- A piece and the blank line that ends it. -/
def frame (raw : List α) : List α :=
  raw ++ [x, x]

/-- **A text whose lines are not empty** has no blank line, nor does a line end after it make one. -/
theorem splitBlank_of_lines {s : List α} (h : [] ∉ s.splitOn x) : splitBlank x (s ++ [x]) = none := by
  rcases hs : splitBlank x (s ++ [x]) with - | ⟨raw, rest⟩
  · rfl
  · obtain ⟨heq, -⟩ := (splitBlank_eq_some_iff x).1 hs
    have hlines := congrArg (List.splitOn x) heq
    have hnil : ([] : List α).splitOn x = [[]] := List.splitOn_nil x
    rw [List.splitOn_append_cons_self, List.splitOn_append_cons_self, splitOn_cons_self, hnil] at hlines
    -- the blank line is not the last one
    rcases List.eq_nil_or_concat' (rest.splitOn x) with hrest | ⟨front, last, hrest⟩
    · exact absurd hrest (List.splitOn_ne_nil x rest)
    · rw [hrest, ← List.cons_append, ← List.append_assoc] at hlines
      obtain ⟨hfront, -⟩ := List.append_inj' hlines rfl
      exact absurd (hfront ▸ List.mem_append_right _ List.mem_cons_self) h

/-- A part of a frame that is not all of it is not cut. -/
theorem splitBlank_of_prefix {raw s : List α} (h : splitBlank x (raw ++ [x]) = none) (hs : s <+: frame x raw)
    (hne : ¬ frame x raw <+: s) : splitBlank x s = none := by
  have hshort : s <+: raw ++ [x] := by
    obtain ⟨t, ht⟩ := hs
    rcases List.eq_nil_or_concat' t with rfl | ⟨front, last, rfl⟩
    · rw [List.append_nil] at ht
      exact absurd (ht ▸ List.prefix_rfl) hne
    · have hframe : s ++ front ++ [last] = (raw ++ [x]) ++ [x] := by
        rw [List.append_assoc, ht, frame]
        simp
      exact ⟨front, (List.append_inj' hframe rfl).1⟩
  rcases hcut : splitBlank x s with - | ⟨first, rest⟩
  · rfl
  · obtain ⟨t, ht⟩ := hshort
    rw [← ht, splitBlank_append x hcut] at h
    cases h

theorem drain_frame {raw : List α} (h : splitBlank x (raw ++ [x]) = none) (s : List α) :
    drain x (frame x raw ++ s) = (raw :: (drain x s).1, (drain x s).2) := by
  refine drain_of_some x ((splitBlank_eq_some_iff x).2 ⟨?_, h⟩)
  simp [frame]

/-- **What a reader has of a part of the text**: the pieces that are complete in it. -/
theorem drain_frames_prefix {raws : List (List α)} (h : ∀ raw ∈ raws, splitBlank x (raw ++ [x]) = none)
    {s t : List α} (hst : s ++ t = raws.flatMap (frame x)) :
    ∃ k ≤ raws.length, (drain x s).1 = raws.take k ∧ s = (raws.take k).flatMap (frame x) ++ (drain x s).2 ∧
      ∀ j ≤ raws.length, (raws.take j).flatMap (frame x) <+: s ↔ j ≤ k := by
  induction raws generalizing s with
  | nil =>
    obtain ⟨rfl, -⟩ := List.append_eq_nil_iff.1 hst
    refine ⟨0, le_rfl, rfl, rfl, fun j hj ↦ iff_of_true ?_ hj⟩
    rw [List.take_nil]
    exact List.prefix_rfl
  | cons raw raws ih =>
    have hraw := h raw List.mem_cons_self
    by_cases hwhole : frame x raw <+: s
    · obtain ⟨s, rfl⟩ := hwhole
      have hst' : s ++ t = raws.flatMap (frame x) := by
        rw [List.flatMap_cons, List.append_assoc] at hst
        exact List.append_cancel_left hst
      obtain ⟨k, hk, hcut, hs, hcount⟩ := ih (fun r hr ↦ h r (List.mem_cons_of_mem raw hr)) hst'
      refine ⟨k + 1, Nat.succ_le_succ hk, ?_, ?_, fun j hj ↦ ?_⟩
      · rw [drain_frame x hraw, hcut, List.take_succ_cons]
      · rw [drain_frame x hraw, List.take_succ_cons, List.flatMap_cons, List.append_assoc, ← hs]
      · rcases j with - | j
        · exact iff_of_true List.nil_prefix (Nat.zero_le _)
        · rw [List.take_succ_cons, List.flatMap_cons, List.prefix_append_right_inj, Nat.succ_le_succ_iff]
          exact hcount j (Nat.le_of_succ_le_succ hj)
    · -- the first piece is not complete
      have hpart : s <+: frame x raw := by
        have hframe : frame x raw <+: (raw :: raws).flatMap (frame x) := List.prefix_append _ _
        exact (List.prefix_or_prefix_of_prefix ⟨t, hst⟩ hframe).resolve_right hwhole
      have hnone := splitBlank_of_prefix x hraw hpart hwhole
      refine ⟨0, Nat.zero_le _, ?_, ?_, fun j _ ↦ ?_⟩
      · rw [drain_of_none x hnone]
        rfl
      · rw [drain_of_none x hnone]
        rfl
      · rcases j with - | j
        · exact iff_of_true List.nil_prefix le_rfl
        · refine iff_of_false (fun hpre ↦ hwhole ?_) (Nat.not_succ_le_zero j)
          rw [List.take_succ_cons, List.flatMap_cons] at hpre
          exact (List.prefix_append _ _).trans hpre

end Lines
