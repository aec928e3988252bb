import Mathlib.Data.List.DropRight

/-!
# The latest of a sequence

A bounded queue that makes room by dropping its oldest element. It holds the latest of the elements that were put
into it (`push_rtake`), and also once some were taken from its other end: the latest of those that came after the
one that was taken last (`of_rtake_eq_cons`).

Nothing here knows what the elements are.
-/

namespace Latest

variable {α : Type*} {cap : ℕ}

/-- Put an element at the end. A full queue drops its first one. -/
def push (cap : ℕ) (q : List α) (x : α) : List α :=
  if q.length < cap then q ++ [x] else q.tail ++ [x]

theorem length_rtake (xs : List α) (n : ℕ) : (xs.rtake n).length = min n xs.length := by
  rw [List.rtake, List.length_drop]
  omega

theorem rtake_of_length_le {xs : List α} (h : xs.length ≤ cap) : xs.rtake cap = xs := by
  rw [List.rtake, Nat.sub_eq_zero_of_le h, List.drop_zero]

theorem getLast?_rtake (hcap : 0 < cap) (xs : List α) : (xs.rtake cap).getLast? = xs.getLast? := by
  obtain ⟨n, rfl⟩ := Nat.exists_eq_succ_of_ne_zero hcap.ne'
  rcases List.eq_nil_or_concat' xs with rfl | ⟨front, x, rfl⟩
  · rw [List.rtake_nil]
  · rw [List.rtake_concat_succ, List.getLast?_concat, List.getLast?_concat]

/-- **One more element.** The queue of the latest ones stays that. -/
theorem push_rtake (hcap : 0 < cap) (xs : List α) (x : α) :
    push cap (xs.rtake cap) x = (xs ++ [x]).rtake cap := by
  obtain ⟨n, rfl⟩ := Nat.exists_eq_succ_of_ne_zero hcap.ne'
  rw [List.rtake_concat_succ, push, length_rtake]
  split_ifs with hroom
  · have hshort : xs.length ≤ n := by omega
    rw [rtake_of_length_le hshort, rtake_of_length_le (by omega)]
  · -- the first of the latest `n + 1` goes
    have htail : (xs.rtake (n + 1)).tail = xs.rtake n := by
      rw [List.rtake, List.rtake, List.tail_drop]
      congr 1
      omega
    rw [htail]

/-- What is left when the first one is taken is all that came after it. -/
theorem of_rtake_eq_cons {xs rest : List α} {x : α} (h : xs.rtake cap = x :: rest) :
    (∃ front, xs = front ++ x :: rest) ∧ rest.rtake cap = rest := by
  have hlength := length_rtake xs cap
  rw [h, List.length_cons] at hlength
  refine ⟨⟨xs.take (xs.length - cap), ?_⟩, rtake_of_length_le (by omega)⟩
  rw [← h, List.rtake, List.take_append_drop]

end Latest
