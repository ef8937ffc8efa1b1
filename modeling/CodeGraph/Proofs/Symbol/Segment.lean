import CodeGraph.Symbol

/-!
# The text of a segment

A segment is read where it stands, with everything behind it in sight. What is behind it makes a
difference in one case only: an underscore at its end is dropped if a dollar follows.

* `readFrom`, `readable`: the text that a segment stands for, given by its own characters;
* `readFirst_append`: a segment that no dollar follows is read as if it stood alone;
* `readFrom_plain`, `readFrom_escape`: how an ordinary character and an escape are read.
-/

namespace CodeGraph.Symbol

/-- The text that a segment stands for, read on from inside an escape or outside one. -/
def readFrom : Option (List Char) → List Char → List Char
  | _, [] => []
  | token, '_' :: '$' :: cs => readFrom token ('$' :: cs)
  | token, '.' :: '.' :: cs => separator ++ readFrom token cs
  | token, '.' :: cs => separator ++ readFrom token cs
  | none, '$' :: cs => readFrom (some []) cs
  | some token, '$' :: cs => unescape token ++ readFrom none cs
  | none, c :: cs => c :: readFrom none cs
  | some token, c :: cs => readFrom (some (token ++ [c])) cs
termination_by _ cs => cs.length

/-- The text that a segment stands for. -/
def readable (segment : List Char) : List Char :=
  readFrom none segment

/-! ### One character of a segment in its place -/

section ReadFirst

variable {n : Nat} {token : Option (List Char)} {c : Char} {cs : List Char}

/-- The segment takes up the first character, with the others in sight. -/
theorem readFirst_cons (n : Nat) (token : Option (List Char)) (c : Char) (cs : List Char) :
    readFirst (n + 1) token (c :: cs) =
      if c = '_' ∧ cs.head? = some '$' then readFirst n token cs
      else if c = '.' then
        match n, cs with
        | m + 1, '.' :: cs => separator ++ readFirst m token cs
        | n, cs => separator ++ readFirst n token cs
      else if c = '$' then
        match token with
        | none => readFirst n (some []) cs
        | some token => unescape token ++ readFirst n none cs
      else
        match token with
        | none => c :: readFirst n none cs
        | some token => readFirst n (some (token ++ [c])) cs :=
  readFirst.eq_def (n + 1) token (c :: cs)

theorem readFirst_underscore :
    readFirst (n + 1) token ('_' :: '$' :: cs) = readFirst n token ('$' :: cs) := by
  rw [readFirst_cons]
  simp

theorem readFirst_dots :
    readFirst (n + 2) token ('.' :: '.' :: cs) = separator ++ readFirst n token cs := by
  rw [readFirst_cons]
  simp

/-- A dot that is no first of two dots. The second would have to be in the segment too. -/
theorem readFirst_dot (h : n = 0 ∨ cs.head? ≠ some '.') :
    readFirst (n + 1) token ('.' :: cs) = separator ++ readFirst n token cs := by
  rw [readFirst_cons]
  simp only [Char.reduceEq, false_and, if_false, if_true]
  split
  · simp at h
  · rfl

theorem readFirst_opening : readFirst (n + 1) none ('$' :: cs) = readFirst n (some []) cs := by
  rw [readFirst_cons]
  simp

theorem readFirst_closing (token : List Char) :
    readFirst (n + 1) (some token) ('$' :: cs) = unescape token ++ readFirst n none cs := by
  rw [readFirst_cons]
  simp

section Plain

variable (hdot : c ≠ '.') (hdollar : c ≠ '$') (hahead : ¬ (c = '_' ∧ cs.head? = some '$'))

include hdot hdollar hahead

theorem readFirst_plain : readFirst (n + 1) none (c :: cs) = c :: readFirst n none cs := by
  rw [readFirst_cons]
  simp [hdot, hdollar, hahead]

theorem readFirst_token (token : List Char) :
    readFirst (n + 1) (some token) (c :: cs) = readFirst n (some (token ++ [c])) cs := by
  rw [readFirst_cons]
  simp [hdot, hdollar, hahead]

end Plain

end ReadFirst

/-! ### All of a segment -/

/-- A segment is read as if it stood alone, unless a dollar follows it. -/
theorem readFirst_append {rest : List Char} (h : rest.head? ≠ some '$') (token : Option (List Char))
    (segment : List Char) :
    readFirst segment.length token (segment ++ rest) = readFrom token segment := by
  -- behind the last character the look-ahead sees the first one of `rest`
  have hahead : ∀ {c : Char} {cs : List Char}, (∀ cs', c = '_' → cs = '$' :: cs' → False) →
      ¬ (c = '_' ∧ (cs ++ rest).head? = some '$') := by
    rintro c cs hcs ⟨hc, hhead⟩
    cases cs with
    | nil => exact h hhead
    | cons d cs =>
      obtain rfl : d = '$' := Option.some.inj hhead
      exact hcs cs hc rfl
  induction token, segment using readFrom.induct with
  | case1 token => rw [readFrom, List.length_nil, readFirst]
  | case2 token cs ih =>
    rw [readFrom, ← ih]
    exact readFirst_underscore
  | case3 token cs ih =>
    rw [readFrom, ← ih]
    exact readFirst_dots
  | case4 token cs hcs ih =>
    rw [readFrom.eq_4 _ _ hcs, ← ih]
    refine readFirst_dot ?_
    cases cs with
    | nil => exact .inl rfl
    | cons d cs =>
      refine .inr fun hhead => ?_
      obtain rfl : d = '.' := Option.some.inj hhead
      exact hcs cs rfl
  | case5 cs ih =>
    rw [readFrom, ← ih]
    exact readFirst_opening
  | case6 token cs ih =>
    rw [readFrom, ← ih]
    exact readFirst_closing token
  | case7 c cs hunderscore hdots hdot hdollar ih =>
    rw [readFrom.eq_7 _ _ hunderscore hdots hdot hdollar, ← ih]
    exact readFirst_plain hdot hdollar (hahead hunderscore)
  | case8 token c cs hunderscore hdots hdot hdollar ih =>
    rw [readFrom.eq_8 _ _ _ hunderscore hdots hdot hdollar, ← ih]
    exact readFirst_token hdot hdollar (hahead hunderscore) token

/-- What a segment stands for is what is read where nothing follows it. -/
theorem readable_eq_readFirst (segment : List Char) :
    readable segment = readFirst segment.length none segment := by
  have h : readFirst segment.length none (segment ++ []) = readable segment :=
    readFirst_append (by simp) none segment
  rw [List.append_nil] at h
  exact h.symm

/-! ### Ordinary characters and escapes -/

/-- Whether a character means nothing but itself, whatever follows it. -/
def IsOrdinary (c : Char) : Prop := c ≠ '_' ∧ c ≠ '.' ∧ c ≠ '$'

section Escape

variable {c : Char} {cs token : List Char}

theorem readFrom_plain (h : IsOrdinary c) : readFrom none (c :: cs) = c :: readFrom none cs :=
  readFrom.eq_7 c cs (fun _ hc _ => h.1 hc) (fun _ hc _ => h.2.1 hc) h.2.1 h.2.2

theorem readFrom_token (h : IsOrdinary c) :
    readFrom (some token) (c :: cs) = readFrom (some (token ++ [c])) cs :=
  readFrom.eq_8 token c cs (fun _ hc _ => h.1 hc) (fun _ hc _ => h.2.1 hc) h.2.1 h.2.2

theorem readFrom_closing (h : ∀ c ∈ token, IsOrdinary c) (front : List Char) :
    readFrom (some front) (token ++ '$' :: cs) = unescape (front ++ token) ++ readFrom none cs := by
  induction token generalizing front with
  | nil => rw [List.nil_append, List.append_nil, readFrom]
  | cons c token ih =>
    rw [List.cons_append, readFrom_token (h c List.mem_cons_self),
      ih (fun d hd => h d (List.mem_cons_of_mem _ hd)), List.append_assoc, List.singleton_append]

/-- An escape of ordinary characters stands for its text. -/
theorem readFrom_escape (h : ∀ c ∈ token, IsOrdinary c) :
    readFrom none ('$' :: (token ++ '$' :: cs)) = unescape token ++ readFrom none cs := by
  rw [readFrom, readFrom_closing h, List.nil_append]

end Escape

end CodeGraph.Symbol
