import CodeGraph.Proofs.Text.Word
import CodeGraph.Query.Scope

/-!
# What the cap leaves alone

The cap replaces a limit clause at the end of a text. The clause consists of the keyword, white
space and digits, so the cap never reaches back over any other character.

* `EndsInLimit`, `trailingLimit?_eq_some_iff`: the clause that is replaced;
* `exists_cap_unlines_eq`: the first lines of a text are kept if they end in a tenant's condition.
-/

namespace CodeGraph.Query

open Text

/-- A text that ends in a limit clause: the keyword in any case, where a word may begin; white
space; digits of any script; and white space again. The first index is the text, the others are what
stands before the clause, and its digits. -/
inductive EndsInLimit : List Char → List Char → List Char → Prop
  | clause {front word gap digits tail : List Char} : beginsWord front →
      folded word = "limit".toList → gap ≠ [] → isBlankText gap → digits ≠ [] →
      (∀ c ∈ digits, isDigit c) → isBlankText tail →
      EndsInLimit (front ++ (word ++ gap ++ digits ++ tail)) front digits

/-- No letter of the keyword is white space. -/
theorem isBlank_of_mem_limit {word : List Char} (hword : folded word = "limit".toList) {c : Char}
    (hc : c ∈ word) : isBlank c = false := by
  have hletters : "limit".toList.all isWord = true := by decide
  have hletter : isWord (fold c) = true :=
    List.all_eq_true.1 hletters _ (hword ▸ List.mem_map_of_mem hc)
  rw [isWord_fold] at hletter
  by_contra hblank
  rw [isWord_of_isBlank (by simpa using hblank)] at hletter
  cases hletter

theorem ne_nil_of_limit {word : List Char} (hword : folded word = "limit".toList) : word ≠ [] := by
  rintro rfl
  cases hword

/-- What stands before digits and white space at the end of a text is found from its end. -/
theorem back_of_digits {front digits tail : List Char} (hfront : ∀ c ∈ front.getLast?, isBlank c)
    (hne : digits ≠ []) (hdigits : ∀ c ∈ digits, isDigit c) (htail : isBlankText tail) :
    let back := (front ++ (digits ++ tail)).reverse.dropWhile isBlank
    back.takeWhile isDigit = digits.reverse ∧ back.dropWhile isDigit = front.reverse := by
  have hback : (front ++ (digits ++ tail)).reverse.dropWhile isBlank =
      digits.reverse ++ front.reverse := by
    rw [List.reverse_append, List.reverse_append, List.append_assoc,
      List.dropWhile_append_of_pos fun c hc => List.all_eq_true.1 htail c (List.mem_reverse.1 hc)]
    obtain ⟨init, d, rfl⟩ := (List.eq_nil_or_concat' digits).resolve_left hne
    have hd : ¬ isBlank d = true := fun hblank => by
      have hdigit := hdigits d (by simp)
      rw [isDigit_of_isBlank hblank] at hdigit
      cases hdigit
    simp [hd]
  have hpos : ∀ c ∈ digits.reverse, isDigit c = true :=
    fun c hc => hdigits c (List.mem_reverse.1 hc)
  simp only [hback]
  rw [List.takeWhile_append_of_pos hpos, List.dropWhile_append_of_pos hpos]
  cases hrev : front.reverse with
  | nil => simp
  | cons c r =>
    have hc : ¬ isDigit c = true := by
      rw [isDigit_of_isBlank (hfront c _)]
      · simp
      · rw [← List.head?_reverse, hrev]
        rfl
    simp [hc]

/-- The limit clause that is found at the end of a text is the one that it ends in. -/
theorem trailingLimit?_eq_some_iff {cs front digits : List Char} :
    trailingLimit? cs = some (front, digits) ↔ EndsInLimit cs front digits := by
  constructor
  · -- the clause is looked for from the end, so all parts come out reversed
    intro h
    unfold trailingLimit? at h
    set back := cs.reverse.dropWhile isBlank with hback
    simp only at h
    rw [Option.ite_none_left_eq_some] at h
    obtain ⟨hne, h⟩ := h
    obtain ⟨r, hr, h⟩ := Option.bind_eq_some_iff.1 h
    obtain ⟨rest, hrest, h⟩ := Option.map_eq_some_iff.1 h
    cases h
    obtain ⟨gap, hgap, hgapne, hblank, -⟩ := blanks?_eq_some_iff.1 hr
    obtain ⟨⟨word, hword, hkey⟩, hends⟩ := wholeKeyword?_eq_some_iff.1 hrest
    have hcs : cs = rest.reverse ++ (word.reverse ++ gap.reverse ++
        (back.takeWhile isDigit).reverse ++ (cs.reverse.takeWhile isBlank).reverse) := by
      have hrev : cs.reverse = cs.reverse.takeWhile isBlank ++
          (back.takeWhile isDigit ++ (gap ++ (word ++ rest))) := by
        rw [← hword, ← hgap, List.takeWhile_append_dropWhile, hback,
          List.takeWhile_append_dropWhile]
      simpa using congrArg List.reverse hrev
    rw [hcs]
    refine .clause ?_ ?_ (by simpa using hgapne) ?_ (by simpa using hne) (fun c hc => ?_) ?_
    · rw [beginsWord, List.reverse_reverse]
      exact hends
    · rw [folded, List.map_reverse, ← folded, hkey]
      rfl
    · rw [isBlankText, List.all_reverse]
      exact hblank
    · exact List.mem_takeWhile_imp (List.mem_reverse.1 hc)
    · rw [isBlankText, List.all_reverse]
      exact List.all_takeWhile
  · rintro @⟨front, word, gap, digits, tail, hfront, hword, hgapne, hgap, hne, hdigits, htail⟩
    have hlast : ∀ c ∈ (front ++ word ++ gap).getLast?, isBlank c := by
      intro c hc
      rw [List.getLast?_append_of_ne_nil _ hgapne] at hc
      exact List.all_eq_true.1 hgap c (List.mem_of_getLast? hc)
    obtain ⟨htake, hdrop⟩ := back_of_digits hlast hne hdigits htail
    have hblanks : blanks? (front ++ word ++ gap).reverse =
        some (word.reverse ++ front.reverse) := by
      refine blanks?_eq_some_iff.2 ⟨gap.reverse, by simp, by simpa using hgapne, ?_, ?_⟩
      · rw [isBlankText, List.all_reverse]
        exact hgap
      · rw [dropBlank_eq_self_iff,
          List.head?_append_of_ne_nil _ (by simpa using ne_nil_of_limit hword)]
        exact fun c hc => isBlank_of_mem_limit hword (List.mem_reverse.1 (List.mem_of_head? hc))
    have hkey : wholeKeyword? "timil".toList (word.reverse ++ front.reverse) =
        some front.reverse := by
      refine wholeKeyword?_eq_some_iff.2 ⟨⟨word.reverse, rfl, ?_⟩, hfront⟩
      rw [folded, List.map_reverse, ← folded, hword]
      rfl
    have hparts : front ++ (word ++ gap ++ digits ++ tail) =
        front ++ word ++ gap ++ (digits ++ tail) := by
      simp
    rw [hparts]
    unfold trailingLimit?
    simp only [htake, hdrop, hblanks, List.reverse_reverse, Option.bind_some, hkey]
    rw [if_neg (by simpa using hne), Option.map_some, List.reverse_reverse]

/-- The parts of the clause that is found at the end of a text. -/
theorem exists_of_trailingLimit? {cs front digits : List Char}
    (h : trailingLimit? cs = some (front, digits)) :
    ∃ word gap tail, cs = front ++ (word ++ gap ++ digits ++ tail) ∧
      folded word = "limit".toList ∧ gap ≠ [] ∧ (∀ c ∈ gap, isBlank c) ∧
      (∀ c ∈ digits, isDigit c) ∧ ∀ c ∈ tail, isBlank c := by
  obtain @⟨_, word, gap, _, tail, -, hword, hne, hgap, -, hdigits, htail⟩ :=
    trailingLimit?_eq_some_iff.1 h
  exact ⟨word, gap, tail, rfl, hword, hne, List.all_eq_true.1 hgap, hdigits,
    List.all_eq_true.1 htail⟩

/-- Neither a letter of the keyword nor white space nor a digit. -/
theorem not_mem_limit_clause {word gap digits tail : List Char}
    (hword : folded word = "limit".toList) (hgap : ∀ c ∈ gap, isBlank c)
    (hdigits : ∀ c ∈ digits, isDigit c) (htail : ∀ c ∈ tail, isBlank c) :
    'd' ∉ word ++ gap ++ digits ++ tail := by
  simp only [List.mem_append, not_or]
  refine ⟨⟨⟨fun h => ?_, fun h => ?_⟩, fun h => ?_⟩, fun h => ?_⟩
  · have : fold 'd' ∈ folded word := List.mem_map_of_mem h
    rw [hword] at this
    exact absurd this (by decide)
  · exact absurd (hgap _ h) (by decide)
  · exact absurd (hdigits _ h) (by decide)
  · exact absurd (htail _ h) (by decide)

/-! ### What is kept -/

theorem trailingLimit?_append_d (cs : List Char) : trailingLimit? (cs ++ ['d']) = none := by
  have hblank : isBlank 'd' = false := by decide
  have hdigit : isDigit 'd' = false := by decide
  simp [trailingLimit?, hblank, hdigit]

/-- A clause that reached back over a line feed would hold the letter before it. -/
theorem eq_nil_of_limit_clause {cs front more clause rest word tail : List Char}
    (hcs : cs ++ ['d', '\n'] = front ++ more) (hclause : clause = more ++ rest)
    (hd : 'd' ∉ clause) (hword : folded word = "limit".toList) (hbegin : clause = word ++ tail) :
    more = [] := by
  rcases List.eq_nil_or_concat' more with rfl | ⟨init, c, rfl⟩
  · rfl
  · have hsplit : (cs ++ ['d']) ++ ['\n'] = (front ++ init) ++ [c] := by simpa using hcs
    obtain ⟨hinit, hc⟩ := List.append_inj' hsplit rfl
    obtain rfl : '\n' = c := by simpa using hc
    rcases List.eq_nil_or_concat' init with rfl | ⟨init', c', rfl⟩
    · -- then the line feed would be the first letter of the keyword
      cases word with
      | nil => exact absurd hword (by decide)
      | cons w word =>
        have hw : w = '\n' := by
          rw [hbegin] at hclause
          simpa using congrArg List.head? hclause
        subst hw
        have hl : fold '\n' = 'l' := by simpa [folded] using congrArg List.head? hword
        exact absurd hl (by decide)
    · have hlast : cs ++ ['d'] = (front ++ init') ++ [c'] := by simpa using hinit
      obtain ⟨-, hc'⟩ := List.append_inj' hlast rfl
      obtain rfl : 'd' = c' := by simpa using hc'
      exact absurd (by simp [hclause]) hd

/-- The cap keeps a text up to and with a line that ends in `d`: no limit clause holds that letter,
and none begins with the line feed after it. -/
theorem exists_cap_eq_of_d (limit : Nat) (cs rest : List Char) :
    ∃ back, cap limit (cs ++ 'd' :: '\n' :: rest) = cs ++ 'd' :: '\n' :: back := by
  unfold cap
  cases h : trailingLimit? (cs ++ 'd' :: '\n' :: rest) with
  | none => exact ⟨rest ++ '\n' :: limitClause limit, by simp⟩
  | some p =>
    obtain ⟨front, digits⟩ := p
    obtain ⟨word, gap, tail, hcs, hword, -, hgap, hdigits, htail⟩ := exists_of_trailingLimit? h
    have hd := not_mem_limit_clause hword hgap hdigits htail
    rw [show cs ++ 'd' :: '\n' :: rest = (cs ++ ['d', '\n']) ++ rest by simp,
      List.append_eq_append_iff] at hcs
    rcases hcs with ⟨more, hfront, -⟩ | ⟨more, hcs, hclause⟩
    · exact ⟨more ++ limitClause (effectiveLimit digits limit), by simp [hfront]⟩
    · have hmore : more = [] := eq_nil_of_limit_clause hcs hclause hd hword
        (by simp only [List.append_assoc]; rfl)
      subst hmore
      rw [List.append_nil] at hcs
      exact ⟨limitClause (effectiveLimit digits limit), by simp [← hcs]⟩

theorem unlines_append : ∀ {ls ms : List Line}, ls ≠ [] → ms ≠ [] →
    unlines (ls ++ ms) = unlines ls ++ '\n' :: unlines ms
  | [], _, h, _ => absurd rfl h
  | [l], m :: ms, _, _ => by simp [unlines]
  | l :: l' :: ls, ms, _, hms => by
    have ih := unlines_append (List.cons_ne_nil l' ls) hms
    simpa [unlines, List.intercalate_cons_cons] using ih

/-- The text of some lines ends as the last of them does. -/
theorem exists_unlines_eq (init : List Line) (front back : List Char) :
    ∃ cs, unlines (init ++ [front ++ back]) = cs ++ back := by
  cases init with
  | nil => exact ⟨front, by simp [unlines]⟩
  | cons l ls =>
    refine ⟨unlines (l :: ls) ++ '\n' :: front, ?_⟩
    rw [unlines_append (List.cons_ne_nil _ _) (List.cons_ne_nil _ _)]
    simp [unlines]

theorem exists_tenantFilter_eq (v : List Char) : ∃ cs, tenantFilter v = cs ++ ['d'] :=
  ⟨v ++ ".projectId IS NOT NULL AND ".toList ++ v ++ ".projectId = $projectI".toList, by
    simp [tenantFilter]⟩

/-- The lines of a text up to one that ends in a tenant's condition outlast the cap. -/
theorem exists_cap_unlines_eq (limit : Nat) (init rest : List Line) (front v : List Char) :
    ∃ back, cap limit (unlines (init ++ [front ++ tenantFilter v] ++ rest)) =
      unlines (init ++ [front ++ tenantFilter v]) ++ '\n' :: back := by
  obtain ⟨text, htext⟩ := exists_tenantFilter_eq v
  obtain ⟨cs, hcs⟩ := exists_unlines_eq init (front ++ text) ['d']
  rw [htext, ← List.append_assoc front]
  cases rest with
  | nil =>
    refine ⟨limitClause limit, ?_⟩
    rw [List.append_nil, hcs, cap, trailingLimit?_append_d]
  | cons l ls =>
    rw [unlines_append (by simp) (List.cons_ne_nil _ _), hcs]
    obtain ⟨back, hback⟩ := exists_cap_eq_of_d limit cs (unlines (l :: ls))
    exact ⟨back, by simpa using hback⟩

end CodeGraph.Query
