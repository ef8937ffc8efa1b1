import CodeGraph.Proofs.Query.DenyList

/-!
# What the deny-list refuses

The deny-list refuses a query for a whole word that is a write keyword, for a word `dbms` behind a
word `call`, and for a blocked procedure right behind a word `apoc` and a point. A word is a maximal
run of word characters and is read in any case. As no line of a query goes on in the next one, a
query is refused whatever lines stand around one that is.

* `Forbidden`: what a query is refused for, by the words that stand in it;
* `adminCall?_eq_none_iff`, `offence?_eq_none_iff`: what the deny-list looks for;
* `Forbidden.surround`: a part of a query between other lines;
* `refused_iff_forbidden`: which queries are refused.
-/

namespace CodeGraph.Query

open Text

/-- What a query is refused for. -/
inductive Forbidden (query : List Char) : Prop
  /-- A write keyword. -/
  | keyword {w : Word} : w.StandsIn query → w.spelling ∈ writeKeywords → Forbidden query
  /-- A word `dbms` anywhere behind a word `call`. -/
  | adminCall {call dbms : Word} : call.StandsIn query → call.spelling = "call".toList →
      dbms.StandsIn call.rest → dbms.spelling = "dbms".toList → Forbidden query
  /-- A blocked procedure right behind a word `apoc` and a point. -/
  | procedure {w : Word} {name rest : List Char} : w.StandsIn query →
      w.spelling = "apoc".toList → w.rest = '.' :: (name ++ rest) →
      folded name ∈ blockedProcedures → Forbidden query

/-! ### What is looked for -/

section Offence

variable {query : List Char}

/-- What is looked for is a word `dbms` behind any word `call`, not only behind the first one. -/
theorem adminCall?_eq_none_iff : adminCall? query = none ↔
    ∀ call ∈ words query, call.spelling = "call".toList →
      ∀ dbms ∈ words call.rest, dbms.spelling ≠ "dbms".toList := by
  unfold adminCall?
  constructor
  · intro h call hcall hspelling dbms hdbms hname
    obtain ⟨before, after, hwords⟩ := List.append_of_mem hcall
    rw [words_rest_of_words_eq hwords] at hdbms
    have hbehind : ∃ first later, dbms ∈ later ∧
        (words query).dropWhile (fun w => w.spelling != "call".toList) = first :: later := by
      rw [hwords, List.dropWhile_append]
      split
      · rw [List.dropWhile_cons_of_neg (by simp [hspelling])]
        exact ⟨call, after, hdbms, rfl⟩
      · rename_i hne
        obtain ⟨first, later, hfirst⟩ := List.exists_cons_of_ne_nil (mt List.isEmpty_iff.2 hne)
        rw [hfirst]
        exact ⟨first, later ++ call :: after, by simp [hdbms], rfl⟩
    obtain ⟨first, later, hlater, hdrop⟩ := hbehind
    rw [hdrop, Option.map_eq_none_iff, List.getLast?_eq_none_iff, List.filter_eq_nil_iff] at h
    exact h dbms hlater (by simp [hname])
  · intro h
    cases hdrop : (words query).dropWhile fun w => w.spelling != "call".toList with
    | nil => rfl
    | cons call later =>
      have hwords := (List.takeWhile_append_dropWhile
        (p := fun w : Word => w.spelling != "call".toList) (l := words query)).symm
      rw [hdrop] at hwords
      have hcall : call.spelling = "call".toList := by
        have hhead := List.head?_dropWhile_not (fun w : Word => w.spelling != "call".toList)
          (words query)
        rw [hdrop] at hhead
        simpa using hhead
      rw [Option.map_eq_none_iff, List.getLast?_eq_none_iff, List.filter_eq_nil_iff]
      intro dbms hdbms hname
      rw [← words_rest_of_words_eq hwords] at hdbms
      exact h call (hwords ▸ by simp) hcall dbms hdbms (by simpa using hname)

/-- The three rules of the deny-list together. -/
theorem offence?_eq_none_iff : offence? query = none ↔ ¬ Forbidden query := by
  have hprocedure : procedureCall? query = none ↔ ∀ w ∈ words query,
      w.spelling = "apoc".toList → ∀ name rest, w.rest = '.' :: (name ++ rest) →
        folded name ∉ blockedProcedures := by
    rw [procedureCall?, List.findSome?_eq_none_iff]
    simp only [blockedCall?_eq_none_iff, Word.spelling]
  simp only [offence?, Option.orElse_eq_orElse, Option.orElse_eq_or, Option.or_eq_none_iff,
    writeKeyword?_eq_none_iff, adminCall?_eq_none_iff, hprocedure]
  constructor
  · rintro ⟨hkeyword, hadmin, hcall⟩ h
    cases h with
    | keyword hw hspelling => exact hkeyword _ (Word.standsIn_iff.1 hw) hspelling
    | adminCall hw hspelling hdbms hname =>
      exact hadmin _ (Word.standsIn_iff.1 hw) hspelling _ (Word.standsIn_iff.1 hdbms) hname
    | procedure hw hspelling hrest hname =>
      exact hcall _ (Word.standsIn_iff.1 hw) hspelling _ _ hrest hname
  · intro h
    refine ⟨fun w hw hspelling => ?_, fun w hw hspelling dbms hdbms hname => ?_,
      fun w hw hspelling name rest hrest hname => ?_⟩
    · exact h (.keyword (Word.standsIn_iff.2 hw) hspelling)
    · exact h (.adminCall (Word.standsIn_iff.2 hw) hspelling (Word.standsIn_iff.2 hdbms) hname)
    · exact h (.procedure (Word.standsIn_iff.2 hw) hspelling hrest hname)

theorem check_eq_ok_iff : check query = .ok () ↔ ¬ Forbidden query := by
  rw [← offence?_eq_none_iff, check, forbiddenToken?]
  cases offence? query with
  | none => exact iff_of_true rfl rfl
  | some text => exact iff_of_false (by simp) (by simp)

theorem exists_check_eq_error_iff :
    (∃ token, check query = .error (.forbidden token)) ↔ Forbidden query := by
  rw [← not_iff_not, ← offence?_eq_none_iff, check, forbiddenToken?]
  cases offence? query with
  | none => simp
  | some text => simp

end Offence

/-! ### Lines around a query -/

section Surround

variable {query : List Char}

/-- What a query is refused for is not undone by what stands around it, as long as no word goes on
at either end. -/
theorem Forbidden.surround (h : Forbidden query) {front back : List Char}
    (hfront : beginsWord front = true) (hback : endsWord back = true) :
    Forbidden (front ++ (query ++ back)) := by
  cases h with
  | keyword hw hspelling => exact .keyword ((hw.append hback).behind hfront) hspelling
  | adminCall hw hspelling hdbms hname =>
    exact .adminCall ((hw.append hback).behind hfront) hspelling (hdbms.append hback) hname
  | @procedure w name rest hw hspelling hrest hname =>
    have hback' : w.rest ++ back = '.' :: (name ++ (rest ++ back)) := by
      rw [hrest, List.cons_append, List.append_assoc]
    exact .procedure ((hw.append hback).behind hfront) hspelling hback' hname

end Surround

/-- **What the deny-list refuses.** A query is refused if a write keyword stands in it as a whole
word, or a word `dbms` behind a word `call`, or a blocked procedure behind a word `apoc` and a
point; any other query passes. Whatever lines are put around a query that is refused, the whole is
refused. -/
theorem refused_iff_forbidden (query : List Char) :
    ((∃ token, check query = .error (.forbidden token)) ↔ Forbidden query) ∧
      (check query = .ok () ↔ ¬ Forbidden query) ∧
      ((∃ token, check query = .error (.forbidden token)) → ∀ a b : List Char,
        ∃ token, check (a ++ '\n' :: (query ++ '\n' :: b)) = .error (.forbidden token)) := by
  refine ⟨exists_check_eq_error_iff, check_eq_ok_iff, fun h a b => ?_⟩
  have hfront : beginsWord (a ++ ['\n']) = true := by
    rw [beginsWord_append a (List.cons_ne_nil _ _)]
    decide
  have hback : endsWord ('\n' :: b) = true := show (!isWord '\n') = true by decide
  rw [exists_check_eq_error_iff, show a ++ '\n' :: (query ++ '\n' :: b) =
    a ++ ['\n'] ++ (query ++ '\n' :: b) by simp]
  exact (exists_check_eq_error_iff.1 h).surround hfront hback

/-- A keyword with a long s is refused, and so it is between other lines. -/
theorem refused_iff_forbidden_longS :
    (∃ token, check "ſet n.x = 1".toList = .error (.forbidden token)) ∧
      Forbidden "ſet n.x = 1".toList ∧
      ∃ token, check ("MATCH (n)".toList ++ '\n' :: ("ſet n.x = 1".toList ++
        '\n' :: "RETURN n".toList)) = .error (.forbidden token) := by
  obtain ⟨hforbidden, -, haround⟩ := refused_iff_forbidden "ſet n.x = 1".toList
  have hcheck : ∃ token, check "ſet n.x = 1".toList = .error (.forbidden token) :=
    ⟨"ſet".toList, by decide +kernel⟩
  exact ⟨hcheck, hforbidden.1 hcheck, haround hcheck _ _⟩

/-- A word `call` and a word `dbms` need not stand next to each other, but both have to be whole. -/
example : check "MATCH (n)\nCALL f(n)\nRETURN n.DBMS".toList =
      .error (.forbidden "CALL".toList) ∧
    check "MATCH (n)\nWHERE n.callee = 1\nRETURN n.dbms".toList = .ok () := by
  decide +kernel

end CodeGraph.Query
