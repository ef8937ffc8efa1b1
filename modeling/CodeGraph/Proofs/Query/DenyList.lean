import CodeGraph.Proofs.Text.Number
import CodeGraph.Proofs.Text.Word
import CodeGraph.Query.Scope

/-!
# What the deny-list keeps out

What the deny-list forbids is told by whole words and the places where words may begin. A text that
is put together from others holds nothing forbidden unless one of them does, as long as they are
joined by characters that stand in no word.

* `ReadsOnly`: a text without write keywords and blocked calls;
* `readsOnly_iff`: that is what the deny-list looks for;
* `ReadsOnly.of_append`, `ReadsOnly.append_cons`, `ReadsOnly.append_dot`: taking texts apart and
  putting them together;
* `ReadsOnly.of_folded_eq`: only the folded text counts.
-/

namespace CodeGraph.Query

open Text

/-- The beginnings of calls that reach beyond reading. -/
def blockedCalls : List (List Char) :=
  blockedProcedures.map fun name => "apoc".toList ++ '.' :: name

/-- A text in which no write keyword is a whole word and no blocked call begins where a word may. -/
structure ReadsOnly (cs : List Char) : Prop where
  not_keyword : ∀ front word rest, cs = front ++ (word ++ rest) → beginsWord front = true →
    endsWord rest = true → folded word ∉ writeKeywords
  not_call : ∀ front word rest, cs = front ++ (word ++ rest) → beginsWord front = true →
    folded word ∉ blockedCalls

/-! ### What is forbidden -/

section Forbidden

variable {word : List Char}

theorem isWord_of_keyword (h : folded word ∈ writeKeywords) :
    word ≠ [] ∧ ∀ c ∈ word, isWord c = true := by
  have hkeys : ∀ key ∈ writeKeywords, key ≠ [] ∧ key.all isWord = true := by decide
  obtain ⟨hne, hword⟩ := hkeys _ h
  refine ⟨fun hnil => hne (by rw [hnil]; rfl), fun c hc => ?_⟩
  rw [← isWord_fold]
  exact List.all_eq_true.1 hword _ (List.mem_map_of_mem hc)

theorem isWord_of_call (h : folded word ∈ blockedCalls) :
    (∃ c cs, word = c :: cs ∧ isWord c = true) ∧ ∀ c ∈ word, isWord c = true ∨ c = '.' := by
  have hkeys : ∀ key ∈ blockedCalls, key.head?.any isWord = true ∧
      (key.all fun k => isWord k || k == '.') = true := by decide
  obtain ⟨hhead, hword⟩ := hkeys _ h
  constructor
  · cases word with
    | nil => cases hhead
    | cons c cs => exact ⟨c, cs, rfl, by rw [← isWord_fold]; exact hhead⟩
  · intro c hc
    cases hw : isWord c with
    | true => exact .inl rfl
    | false =>
      have hfold := fold_of_not_isWord hw
      have hletter := List.all_eq_true.1 hword _ (List.mem_map_of_mem hc)
      rw [isWord_fold, hw, Bool.false_or, beq_iff_eq, hfold] at hletter
      exact .inr hletter

/-- A blocked call is the word `apoc`, a point and a blocked procedure. -/
theorem folded_mem_blockedCalls_iff : folded word ∈ blockedCalls ↔ ∃ run name,
    word = run ++ '.' :: name ∧ folded run = "apoc".toList ∧ folded name ∈ blockedProcedures := by
  rw [blockedCalls, List.mem_map]
  constructor
  · rintro ⟨name, hname, hword⟩
    obtain ⟨run, rest, rfl, hrun, hrest⟩ := List.map_eq_append_iff.1 hword.symm
    obtain ⟨c, name', rfl, hc, rfl⟩ := List.map_eq_cons_iff.1 hrest
    have hnot : isWord c = false := by
      rw [← isWord_fold, hc]
      decide
    rw [fold_of_not_isWord hnot] at hc
    exact ⟨run, name', by rw [hc], hrun, hname⟩
  · rintro ⟨run, name, rfl, hrun, hname⟩
    refine ⟨folded name, hname, ?_⟩
    rw [← hrun, folded, folded, folded, List.map_append, List.map_cons]
    rfl

end Forbidden

theorem writeKeyword?_eq_none_iff {query : List Char} :
    writeKeyword? query = none ↔ ∀ w ∈ words query, w.spelling ∉ writeKeywords := by
  rw [writeKeyword?, Option.map_eq_none_iff, List.find?_eq_none]
  simp only [decide_eq_true_eq]

theorem blockedFront?_eq_none_iff {cs : List Char} : blockedFront? cs = none ↔
    ∀ name rest, cs = name ++ rest → folded name ∉ blockedProcedures := by
  have hfront (key : List Char) : (keyword? key cs).isSome ↔
      ∃ name rest, cs = name ++ rest ∧ folded name = key := by
    simp only [Option.isSome_iff_exists, keyword?_eq_some_iff]
    exact exists_comm
  rw [blockedFront?, Option.map_eq_none_iff, List.find?_eq_none]
  simp only [hfront]
  constructor
  · intro h name rest hcs hname
    exact h _ hname ⟨name, rest, hcs, rfl⟩
  · rintro h _ hname ⟨name, rest, hcs, rfl⟩
    exact h name rest hcs hname

theorem blockedCall?_eq_none_iff {w : Word} : blockedCall? w = none ↔
    folded w.run = "apoc".toList → ∀ name rest, w.rest = '.' :: (name ++ rest) →
      folded name ∉ blockedProcedures := by
  rw [blockedCall?, ← Word.spelling]
  split
  · rename_i hrun
    split
    · rename_i cs hrest
      rw [Option.map_eq_none_iff, blockedFront?_eq_none_iff]
      simp [hrun, hrest]
    · rename_i hrest
      refine iff_of_true rfl fun _ name rest h => absurd h (hrest _)
  · rename_i hrun
    exact iff_of_true rfl fun h => absurd h hrun

/-- The deny-list looks for write keywords and blocked calls. -/
theorem readsOnly_iff {query : List Char} :
    ReadsOnly query ↔ writeKeyword? query = none ∧ procedureCall? query = none := by
  rw [writeKeyword?_eq_none_iff, procedureCall?, List.findSome?_eq_none_iff]
  simp only [blockedCall?_eq_none_iff]
  constructor
  · intro h
    constructor
    · intro w hw
      obtain ⟨front, hquery, hstands⟩ := mem_words_iff.1 hw
      exact h.not_keyword front w.run w.rest hquery hstands.begins hstands.ends
    · intro w hw hrun name rest hrest hname
      obtain ⟨front, hquery, hstands⟩ := mem_words_iff.1 hw
      refine h.not_call front _ rest ?_ hstands.begins
        (folded_mem_blockedCalls_iff.2 ⟨w.run, name, rfl, hrun, hname⟩)
      rw [hquery, Word.onward, hrest, List.append_assoc, List.cons_append]
  · rintro ⟨hkeyword, hcall⟩
    constructor
    · intro front word rest hquery hbegins hends hword
      obtain ⟨hne, hall⟩ := isWord_of_keyword hword
      exact hkeyword ⟨word, rest⟩ (mem_words_iff.2 ⟨front, hquery, hne, hall, hbegins, hends⟩) hword
    · intro front word rest hquery hbegins hword
      obtain ⟨run, name, rfl, hrun, hname⟩ := folded_mem_blockedCalls_iff.1 hword
      have hstands : Word.StandsBehind ⟨run, '.' :: (name ++ rest)⟩ front := by
        refine ⟨fun hnil => ?_, fun c hc => ?_, hbegins, show (!isWord '.') = true by decide⟩
        · rw [show run = [] from hnil] at hrun
          cases hrun
        · rw [← isWord_fold]
          have hc : fold c ∈ "apoc".toList := hrun ▸ List.mem_map_of_mem hc
          have hletters : "apoc".toList.all isWord = true := by decide
          exact List.all_eq_true.1 hletters _ hc
      refine hcall ⟨run, '.' :: (name ++ rest)⟩ (mem_words_iff.2 ⟨front, ?_, hstands⟩) hrun name
        rest rfl hname
      rw [hquery, Word.onward, List.append_assoc, List.cons_append]

theorem readsOnly_of_check {query : List Char} (h : check query = .ok ()) : ReadsOnly query := by
  rw [readsOnly_iff]
  unfold check at h
  cases htoken : forbiddenToken? query with
  | some token =>
    rw [htoken] at h
    cases h
  | none =>
    have hoffence := Option.map_eq_none_iff.1 htoken
    simp only [offence?, Option.orElse_eq_orElse, Option.orElse_eq_or, Option.or_eq_none_iff]
      at hoffence
    exact ⟨hoffence.1, hoffence.2.2⟩

/-! ### Taking texts apart and putting them together -/

/-- A part of a text without the character that joins it stands before it or behind it. -/
theorem split_of_not_mem {a b front word rest : List Char} {c : Char} (hmem : c ∉ word)
    (h : a ++ c :: b = front ++ (word ++ rest)) :
    (∃ rest', a = front ++ (word ++ rest') ∧ rest = rest' ++ c :: b) ∨
      ∃ front', front = a ++ c :: front' ∧ b = front' ++ (word ++ rest) := by
  have hleft {rest : List Char} (hword : word ++ rest = c :: b) : word = [] := by
    cases word with
    | nil => rfl
    | cons d word =>
      obtain ⟨rfl, -⟩ := List.cons.inj hword
      exact absurd List.mem_cons_self hmem
  rcases List.append_eq_append_iff.1 h with ⟨_ | ⟨d, more⟩, rfl, hmore⟩ | ⟨more, rfl, hmore⟩
  · obtain rfl := hleft hmore.symm
    exact .inl ⟨[], by simp, by simpa using hmore.symm⟩
  · obtain ⟨rfl, rfl⟩ := List.cons.inj hmore
    exact .inr ⟨more, rfl, rfl⟩
  · rcases List.append_eq_append_iff.1 hmore with ⟨more', rfl, hrest⟩ | ⟨more', rfl, hrest⟩
    · exact .inl ⟨more', by simp, hrest⟩
    · cases more' with
      | nil => exact .inl ⟨[], by simp, by simpa using hrest.symm⟩
      | cons d more' =>
        obtain ⟨rfl, -⟩ := List.cons.inj hrest
        exact absurd (by simp) hmem

namespace ReadsOnly

variable {a b : List Char}

theorem nil : ReadsOnly [] :=
  readsOnly_iff.2 ⟨by simp [writeKeyword?], by simp [procedureCall?]⟩

/-- Where no word goes on, a text may be taken apart. -/
theorem of_append (h : ReadsOnly (a ++ b)) (hseam : beginsWord a = true ∨ endsWord b = true) :
    ReadsOnly a ∧ ReadsOnly b := by
  -- at the seam, a forbidden text that ends the front or begins the back would be a word
  have hback {front word rest : List Char} (hb : b = front ++ (word ++ rest))
      (hword : ∃ c cs, word = c :: cs ∧ isWord c = true) (hbegins : beginsWord front = true) :
      beginsWord (a ++ front) = true := by
    rcases eq_or_ne front [] with rfl | hne
    · rw [List.append_nil]
      refine hseam.resolve_right fun hends => ?_
      obtain ⟨c, cs, rfl, hc⟩ := hword
      rw [hb, List.nil_append, List.cons_append, endsWord, hc] at hends
      cases hends
    · rwa [beginsWord_append a hne]
  constructor
  · constructor
    · intro front word rest ha hbegins hends hword
      refine h.not_keyword front word (rest ++ b) (by rw [ha]; simp) hbegins ?_ hword
      rcases eq_or_ne rest [] with rfl | hne
      · rw [List.nil_append]
        refine hseam.resolve_left fun hbegins => ?_
        obtain ⟨hne, hall⟩ := isWord_of_keyword hword
        rw [ha, List.append_nil, beginsWord_append _ hne, beginsWord_iff] at hbegins
        obtain ⟨init, c, rfl⟩ := (List.eq_nil_or_concat' word).resolve_left hne
        have hc := hall c (by simp)
        rw [hbegins c (by simp)] at hc
        cases hc
      · rwa [endsWord_append hne]
    · intro front word rest ha hbegins
      exact h.not_call front word (rest ++ b) (by rw [ha]; simp) hbegins
  · constructor
    · intro front word rest hb hbegins hends hword
      obtain ⟨hne, hall⟩ := isWord_of_keyword hword
      obtain ⟨c, cs, rfl⟩ := List.exists_cons_of_ne_nil hne
      refine h.not_keyword (a ++ front) (c :: cs) rest (by rw [hb]; simp) ?_ hends hword
      exact hback hb ⟨c, cs, rfl, hall c List.mem_cons_self⟩ hbegins
    · intro front word rest hb hbegins hword
      refine h.not_call (a ++ front) word rest (by rw [hb]; simp) ?_ hword
      exact hback hb (isWord_of_call hword).1 hbegins

theorem not_keyword_append_cons (ha : ReadsOnly a) (hb : ReadsOnly b) {c : Char}
    (hc : isWord c = false) (front word rest : List Char)
    (htext : a ++ c :: b = front ++ (word ++ rest)) (hbegins : beginsWord front = true)
    (hends : endsWord rest = true) : folded word ∉ writeKeywords := by
  intro hword
  have hmem : c ∉ word := fun hmem => by
    have := (isWord_of_keyword hword).2 c hmem
    rw [hc] at this
    cases this
  rcases split_of_not_mem hmem htext with ⟨rest', rfl, rfl⟩ | ⟨front', rfl, rfl⟩
  · exact ha.not_keyword front word rest' rfl hbegins (endsWord_of_append hends) hword
  · refine hb.not_keyword front' word rest rfl ?_ hends hword
    exact beginsWord_of_append (a ++ [c]) (by simpa using hbegins)

/-- Texts without write keywords and blocked calls may be joined by a character that stands in
neither. -/
theorem append_cons (ha : ReadsOnly a) (hb : ReadsOnly b) {c : Char} (hc : isWord c = false)
    (hdot : c ≠ '.') : ReadsOnly (a ++ c :: b) := by
  refine ⟨ha.not_keyword_append_cons hb hc, fun front word rest htext hbegins hword => ?_⟩
  have hmem : c ∉ word := fun hmem => by
    rcases (isWord_of_call hword).2 c hmem with hword | hword
    · rw [hc] at hword
      cases hword
    · exact hdot hword
  rcases split_of_not_mem hmem htext with ⟨rest', rfl, rfl⟩ | ⟨front', rfl, rfl⟩
  · exact ha.not_call front word rest' rfl hbegins hword
  · refine hb.not_call front' word rest rfl ?_ hword
    exact beginsWord_of_append (a ++ [c]) (by simpa using hbegins)

/-- A text without a point may be joined by one to a text that begins with no blocked procedure. -/
theorem append_dot (ha : ReadsOnly a) (hb : ReadsOnly b) (hdot : '.' ∉ a)
    (hfront : ∀ name rest, b = name ++ rest → folded name ∉ blockedProcedures) :
    ReadsOnly (a ++ '.' :: b) := by
  refine ⟨ha.not_keyword_append_cons hb (by decide), fun front word rest htext hbegins hword => ?_⟩
  obtain ⟨run, name, rfl, hrun, hname⟩ := folded_mem_blockedCalls_iff.1 hword
  have hmem : '.' ∉ run := fun hmem => by
    have hfold : fold '.' ∈ folded run := List.mem_map_of_mem hmem
    rw [hrun] at hfold
    exact absurd hfold (by decide)
  -- where the run ends, the point is the one at the seam or one of the back
  rw [List.append_assoc, List.cons_append] at htext
  rcases split_of_not_mem hmem htext with ⟨_ | ⟨d, rest'⟩, rfl, hrest⟩ | ⟨front', rfl, rfl⟩
  · exact hfront name rest (List.cons.inj hrest).2.symm hname
  · obtain ⟨rfl, -⟩ := List.cons.inj hrest
    exact hdot (by simp)
  · refine hb.not_call front' (run ++ '.' :: name) rest (by simp) ?_ hword
    exact beginsWord_of_append (a ++ ['.']) (by simpa using hbegins)

/-- Only the folded text counts. -/
theorem of_folded_eq (ha : ReadsOnly a) (h : folded a = folded b) : ReadsOnly b := by
  have hsplit {front word rest : List Char} (hb : b = front ++ (word ++ rest)) :
      ∃ front' word' rest', a = front' ++ (word' ++ rest') ∧ folded front' = folded front ∧
        folded word' = folded word ∧ folded rest' = folded rest := by
    rw [hb, folded, folded, List.map_append, List.map_append] at h
    obtain ⟨front', tail, rfl, hfront, htail⟩ := List.map_eq_append_iff.1 h
    obtain ⟨word', rest', rfl, hword, hrest⟩ := List.map_eq_append_iff.1 htail
    exact ⟨front', word', rest', rfl, hfront, hword, hrest⟩
  constructor
  · intro front word rest hb hbegins hends
    obtain ⟨front', word', rest', ha', hfront, hword, hrest⟩ := hsplit hb
    rw [← hword]
    refine ha.not_keyword front' word' rest' ha' ?_ ?_
    · rw [← beginsWord_folded, hfront, beginsWord_folded, hbegins]
    · rw [← endsWord_folded, hrest, endsWord_folded, hends]
  · intro front word rest hb hbegins
    obtain ⟨front', word', rest', ha', hfront, hword, hrest⟩ := hsplit hb
    rw [← hword]
    refine ha.not_call front' word' rest' ha' ?_
    rw [← beginsWord_folded, hfront, beginsWord_folded, hbegins]

end ReadsOnly

end CodeGraph.Query
