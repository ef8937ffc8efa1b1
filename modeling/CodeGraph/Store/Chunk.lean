/-!
# Chunks

`chunksOf size l` cuts a list into consecutive chunks of the given size, the last of which may be
shorter. A size of zero counts as one.

`flatten_chunksOf` and `ne_nil_of_mem_chunksOf` say that nothing is lost and that no chunk is empty.
-/

namespace CodeGraph

variable {α : Type}

/-- The consecutive chunks of a list. -/
def chunksOf (size : Nat) : List α → List (List α)
  | [] => []
  | a :: l => (a :: l.take (size - 1)) :: chunksOf size (l.drop (size - 1))
termination_by l => l.length
decreasing_by
  simp only [List.length_drop, List.length_cons]
  omega

@[simp] theorem chunksOf_nil (size : Nat) : chunksOf size ([] : List α) = [] := by
  simp [chunksOf]

/-- The chunks hold the list, in order. -/
theorem flatten_chunksOf (size : Nat) (l : List α) : (chunksOf size l).flatten = l := by
  fun_induction chunksOf size l with
  | case1 => rfl
  | case2 a l ih => rw [List.flatten_cons, ih, List.cons_append, List.take_append_drop]

/-- No chunk is empty. -/
theorem ne_nil_of_mem_chunksOf {size : Nat} {l c : List α} (h : c ∈ chunksOf size l) : c ≠ [] := by
  fun_induction chunksOf size l with
  | case1 => simp at h
  | case2 a l ih =>
    rcases List.mem_cons.1 h with rfl | h
    · simp
    · exact ih h

/-- No chunk is longer than its size allows. -/
theorem length_le_of_mem_chunksOf {size : Nat} {l c : List α} (h : c ∈ chunksOf size l) :
    c.length ≤ max 1 size := by
  fun_induction chunksOf size l with
  | case1 => simp at h
  | case2 a l ih =>
    rcases List.mem_cons.1 h with rfl | h
    · simp only [List.length_cons, List.length_take]
      omega
    · exact ih h

end CodeGraph
