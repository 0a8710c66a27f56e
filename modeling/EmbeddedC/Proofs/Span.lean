/-!
# Cutting at a separator

A list is cut before the first separator in it, and in one way only: the part before has none, and
what is left is empty or begins with it.
-/

namespace EmbeddedC

variable {α : Type} [DecidableEq α] {sep : α} {front rest : List α}

theorem exists_span (sep : α) (l : List α) :
    ∃ front rest, l = front ++ rest ∧ sep ∉ front ∧ (rest = [] ∨ rest.head? = some sep) := by
  induction l with
  | nil => exact ⟨[], [], rfl, List.not_mem_nil, .inl rfl⟩
  | cons a l ih =>
    by_cases ha : a = sep
    · exact ⟨[], a :: l, rfl, List.not_mem_nil, .inr (congrArg some ha)⟩
    · obtain ⟨front, rest, rfl, hfront, hrest⟩ := ih
      exact ⟨a :: front, rest, rfl, by simp [hfront, Ne.symm ha], hrest⟩

theorem span_append (hf : sep ∉ front) (hr : rest = [] ∨ rest.head? = some sep) :
    (front ++ rest).takeWhile (· ≠ sep) = front ∧ (front ++ rest).dropWhile (· ≠ sep) = rest := by
  have hfront : ∀ a ∈ front, decide (a ≠ sep) = true := fun a hmem =>
    decide_eq_true fun h => hf (h ▸ hmem)
  rw [List.takeWhile_append_of_pos hfront, List.dropWhile_append_of_pos hfront]
  rcases hr with rfl | hr
  · simp
  · obtain ⟨most, rfl⟩ := List.head?_eq_some_iff.1 hr
    simp

end EmbeddedC
