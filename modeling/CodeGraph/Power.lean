/-!
# Powers of two and of ten

Ranges of machine words are bounded by powers of two, and places of decimal numbers are powers of
ten.
-/

namespace CodeGraph

/-- Two to the power `n`. -/
def twoTo (n : Nat) : Nat := Nat.pow 2 n

/-- Ten to the power `n`. -/
def tenTo (n : Nat) : Nat := Nat.pow 10 n

theorem twoTo_pos (n : Nat) : 0 < twoTo n :=
  Nat.pow_pos Nat.two_pos

end CodeGraph
