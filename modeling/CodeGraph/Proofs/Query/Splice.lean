import CodeGraph.Proofs.Query.Cap
import CodeGraph.Proofs.Query.DenyList
import CodeGraph.Proofs.Query.Layout
import CodeGraph.Proofs.Query.Variable

/-!
# What scoping puts into a query

The deny-list looks at a query before it is scoped. Scoping takes lines and predicates out of the
query, puts variables of it into conditions, and replaces what stands at the end. All of that is cut
and joined where no word goes on, and the variables are whole words of the query, so nothing that
the deny-list keeps out can come about.

* `Clause.ReadsOnly`: the parts of a clause;
* `readsOnly_of_scope`: the scoped text.
-/

namespace CodeGraph.Query

open Text

/-! ### The parts of a query -/

section Parts

variable {a b v : List Char}

theorem ReadsOnly.of_mem_words {text : List Char} (h : ReadsOnly text) {w : Word}
    (hw : w ∈ words text) : ReadsOnly w.run ∧ '.' ∉ w.run := by
  obtain ⟨front, rfl, hstands⟩ := mem_words_iff.1 hw
  refine ⟨((h.of_append (.inl hstands.begins)).2.of_append (.inr hstands.ends)).1, fun hdot => ?_⟩
  exact absurd (hstands.isWord _ hdot) (by decide)

theorem readsOnly_dropBlank (h : ReadsOnly a) : ReadsOnly (dropBlank a) := by
  obtain ⟨gap, hgap, hblank⟩ := exists_eq_append_dropBlank a
  rw [hgap] at h
  exact (h.of_append (.inl (beginsWord_of_isBlankText hblank))).2

theorem readsOnly_dropEndWhile (h : ReadsOnly a) {p : Char → Bool}
    (hp : ∀ c, p c = true → isWord c = false) : ReadsOnly (dropEndWhile p a) := by
  have hsplit : a = dropEndWhile p a ++ (a.reverse.takeWhile p).reverse := by
    rw [dropEndWhile, ← List.reverse_append, List.takeWhile_append_dropWhile,
      List.reverse_reverse]
  have hends : endsWord (a.reverse.takeWhile p).reverse = true := by
    rw [endsWord_iff]
    intro c hc
    exact hp c (List.mem_takeWhile_imp (List.mem_reverse.1 (List.mem_of_head? hc)))
  rw [hsplit] at h
  exact (h.of_append (.inr hends)).1

theorem readsOnly_trim (h : ReadsOnly a) : ReadsOnly (trim a) :=
  readsOnly_dropEndWhile (readsOnly_dropBlank h) fun _ => isWord_of_isBlank

theorem readsOnly_trimEnd (h : ReadsOnly a) : ReadsOnly (trimEnd a) := by
  have hblank : ∀ c, isBlank c = true → isWord c = false := fun _ => isWord_of_isBlank
  have hsemicolon : ∀ c, (c == ';') = true → isWord c = false := by
    intro c hc
    obtain rfl : c = ';' := by simpa using hc
    decide
  exact readsOnly_dropEndWhile
    (readsOnly_dropEndWhile (readsOnly_dropEndWhile h hblank) hsemicolon) hblank

theorem readsOnly_dropReturn (h : ReadsOnly a) : ReadsOnly (dropReturn a) := by
  unfold dropReturn
  split
  · rename_i hlast
    obtain ⟨init, rfl⟩ := List.getLast?_eq_some_iff.1 hlast
    rw [List.dropLast_concat]
    exact (h.of_append (.inr (by decide))).1
  · exact h

theorem readsOnly_of_mem_linesFrom {acc cs : List Char} (h : ReadsOnly (acc.reverse ++ cs)) :
    ∀ l ∈ linesFrom acc cs, ReadsOnly l := by
  fun_induction linesFrom acc cs with
  | case1 => simp
  | case2 acc hacc =>
    rw [List.forall_mem_singleton]
    simpa using h
  | case3 acc cs ih =>
    obtain ⟨hline, hrest⟩ := h.of_append (.inr (show (!isWord '\n') = true by decide))
    have hcs : ReadsOnly cs := (ReadsOnly.of_append (a := ['\n']) hrest (.inl (by decide))).2
    exact List.forall_mem_cons.2 ⟨readsOnly_dropReturn hline, ih hcs⟩
  | case4 acc c cs hc ih => exact ih (by simpa using h)

theorem readsOnly_of_mem_lines (h : ReadsOnly a) : ∀ l ∈ lines a, ReadsOnly l :=
  readsOnly_of_mem_linesFrom (List.nil_append a ▸ h : ReadsOnly ([].reverse ++ a))

theorem readsOnly_unlines {ls : List Line} (h : ∀ l ∈ ls, ReadsOnly l) :
    ReadsOnly (unlines ls) := by
  induction ls with
  | nil => exact .nil
  | cons l ls ih =>
    obtain ⟨hl, hls⟩ := List.forall_mem_cons.1 h
    cases ls with
    | nil => simpa [unlines] using hl
    | cons l' ls =>
      have hjoin : unlines (l :: l' :: ls) = l ++ '\n' :: unlines (l' :: ls) := by
        simp [unlines, List.intercalate_cons_cons]
      rw [hjoin]
      exact hl.append_cons (ih hls) (by decide) (by decide)

end Parts

/-! ### Clauses and conditions -/

/-- A clause whose parts hold no write keyword and no blocked call. -/
def Clause.ReadsOnly : Clause → Prop
  | .pattern line => Query.ReadsOnly line
  | .filter _ keyword predicate => Query.ReadsOnly keyword ∧ Query.ReadsOnly predicate
  | .other line => Query.ReadsOnly line

theorem readsOnly_of_opensFilter {line : Line} {keyword front : List Char}
    (h : OpensFilter line keyword front) (hline : ReadsOnly line) :
    ReadsOnly keyword ∧ ReadsOnly front := by
  obtain ⟨gap, hsplit, hgap, hfront, hbegins⟩ := h
  have hends := (wholeKeyword?_eq_some_iff.1 ((begins_singleton_iff isKey_where).1 hbegins)).2
  rw [hsplit] at hline
  obtain ⟨hkeyword, hrest⟩ := hline.of_append (.inr hends)
  exact ⟨hkeyword, dropBlank_append hgap hfront ▸ readsOnly_dropBlank hrest⟩

theorem readsOnly_of_cut {ls : List Line} {cs : List Clause} (h : Cut ls cs)
    (hls : ∀ l ∈ ls, ReadsOnly l) : ∀ c ∈ cs, c.ReadsOnly := by
  induction h with
  | nil => simp
  | pattern _ _ ih =>
    obtain ⟨hline, hrest⟩ := List.forall_mem_cons.1 hls
    exact List.forall_mem_cons.2 ⟨hline, ih hrest⟩
  | filter hopens _ _ _ ih =>
    obtain ⟨hline, hmore⟩ := List.forall_mem_cons.1 hls
    obtain ⟨hmore, hrest⟩ := List.forall_mem_append.1 hmore
    obtain ⟨hkeyword, hfront⟩ := readsOnly_of_opensFilter hopens hline
    have hpredicate := readsOnly_unlines (List.forall_mem_cons.2 ⟨hfront, hmore⟩)
    exact List.forall_mem_cons.2 ⟨⟨hkeyword, readsOnly_trim hpredicate⟩, ih hrest⟩
  | other _ _ _ ih =>
    obtain ⟨hline, hrest⟩ := List.forall_mem_cons.1 hls
    exact List.forall_mem_cons.2 ⟨hline, ih hrest⟩

/-- The tenant's condition on a variable. -/
theorem readsOnly_tenantFilter {text v : List Char} (htext : ReadsOnly text)
    (hv : ∃ w ∈ words text, w.run = v) : ReadsOnly (tenantFilter v) := by
  obtain ⟨w, hw, rfl⟩ := hv
  obtain ⟨hrun, hdot⟩ := htext.of_mem_words hw
  have hproperty : ReadsOnly (w.run ++ '.' :: "projectId".toList) := by
    have hname : ReadsOnly "projectId".toList := readsOnly_iff.2 (by decide +kernel)
    refine hrun.append_dot hname hdot fun name rest hname => ?_
    have hfronts : ∀ n ≤ 9, folded ("projectId".toList.take n) ∉ blockedProcedures := by decide
    have htake : name = "projectId".toList.take name.length := by rw [hname, List.take_left]
    have hlength : name.length ≤ 9 := by
      have := congrArg List.length hname
      simp at this
      omega
    rw [htake]
    exact hfronts name.length hlength
  have hnotNull : ReadsOnly "IS NOT NULL AND".toList := readsOnly_iff.2 (by decide +kernel)
  have hequals : ReadsOnly "= $projectId".toList := readsOnly_iff.2 (by decide +kernel)
  have hrest := hnotNull.append_cons
    (hproperty.append_cons hequals (c := ' ') (by decide) (by decide)) (c := ' ')
    (by decide) (by decide)
  have hsplit : tenantFilter w.run = w.run ++ '.' :: "projectId".toList ++ ' ' ::
      ("IS NOT NULL AND".toList ++ ' ' :: (w.run ++ '.' :: "projectId".toList ++ ' ' ::
        "= $projectId".toList)) := by
    simp [tenantFilter]
  rw [hsplit]
  exact hproperty.append_cons hrest (by decide) (by decide)

/-! ### The scoped text -/

theorem readsOnly_patternFilter {v : List Char} (h : ReadsOnly (tenantFilter v)) :
    ReadsOnly (patternFilter v) := by
  have hkeyword : ReadsOnly "WHERE".toList := readsOnly_iff.2 (by decide +kernel)
  exact hkeyword.append_cons h (c := ' ') (by decide) (by decide)

theorem readsOnly_conjunct {v : List Char} (h : ReadsOnly (tenantFilter v)) :
    ReadsOnly (conjunct v) := by
  have hkeyword : ReadsOnly "AND".toList := readsOnly_iff.2 (by decide +kernel)
  exact hkeyword.append_cons h (c := ' ') (by decide) (by decide)

theorem readsOnly_wrapped {keyword predicate : List Char} (hkeyword : ReadsOnly keyword)
    (hpredicate : ReadsOnly predicate) : ReadsOnly (wrapped keyword predicate) := by
  have hclosed : ReadsOnly (predicate ++ [')']) :=
    hpredicate.append_cons .nil (by decide) (by decide)
  have hopened : ReadsOnly ('(' :: (predicate ++ [')'])) :=
    ReadsOnly.nil.append_cons hclosed (by decide) (by decide)
  have hjoin : wrapped keyword predicate = keyword ++ ' ' :: '(' :: (predicate ++ [')']) := by
    simp [wrapped]
  rw [hjoin]
  exact hkeyword.append_cons hopened (by decide) (by decide)

theorem readsOnly_of_becomes {before after : List Clause} {c : Clause} {part : List Line}
    (hbefore : ∀ c ∈ before, c.ReadsOnly) (hc : c.ReadsOnly) (h : c.Becomes before after part) :
    ∀ l ∈ part, ReadsOnly l := by
  cases h with
  | other line => exact List.forall_mem_singleton.2 hc
  | left => exact List.forall_mem_singleton.2 hc
  | filtered hv =>
    have hfilter := readsOnly_tenantFilter hc (exists_word_of_patternVariable? hv)
    exact List.forall_mem_cons.2
      ⟨hc, List.forall_mem_singleton.2 (readsOnly_patternFilter hfilter)⟩
  | own hp hv =>
    have hfilter := readsOnly_tenantFilter hc.2 (exists_word_of_filterVariable? hv)
    exact List.forall_mem_cons.2
      ⟨readsOnly_wrapped hc.1 hc.2, List.forall_mem_singleton.2 (readsOnly_conjunct hfilter)⟩
  | inherited hp hnone hfollows hv =>
    have hline : ReadsOnly _ := hbefore _ (pattern_mem_of_followsPattern hfollows)
    have hfilter := readsOnly_tenantFilter hline (exists_word_of_patternVariable? hv)
    exact List.forall_mem_cons.2
      ⟨readsOnly_wrapped hc.1 hc.2, List.forall_mem_singleton.2 (readsOnly_conjunct hfilter)⟩

theorem readsOnly_of_laid {before cs : List Clause} {parts : List (List Line)}
    (h : Laid before cs parts) (hbefore : ∀ c ∈ before, c.ReadsOnly) (hcs : ∀ c ∈ cs, c.ReadsOnly) :
    ∀ part ∈ parts, ∀ l ∈ part, ReadsOnly l := by
  induction h with
  | nil => simp
  | cons hpart _ ih =>
    obtain ⟨hc, hafter⟩ := List.forall_mem_cons.1 hcs
    refine List.forall_mem_cons.2 ⟨readsOnly_of_becomes hbefore hc hpart, ih ?_ hafter⟩
    exact List.forall_mem_append.2 ⟨hbefore, List.forall_mem_singleton.2 hc⟩

/-! ### The cap -/

theorem readsOnly_showNat (n : Nat) : ReadsOnly (showNat n) := by
  have hkeys : ∀ key ∈ writeKeywords ++ blockedCalls, key.all isAsciiDigit = false := by decide
  have hword {front word rest : List Char} (htext : showNat n = front ++ (word ++ rest)) :
      folded word ∉ writeKeywords ++ blockedCalls := by
    intro hkey
    refine Bool.false_ne_true ((hkeys _ hkey).symm.trans (List.all_eq_true.2 fun k hk => ?_))
    obtain ⟨c, hc, rfl⟩ := List.mem_map.1 hk
    have hc : isAsciiDigit c = true := isAsciiDigit_of_mem_showNat (n := n) (by simp [htext, hc])
    rw [fold_of_isAsciiDigit hc, hc]
  constructor
  · intro front word rest htext _ _ hkey
    exact hword htext (List.mem_append_left _ hkey)
  · intro front word rest htext _ hkey
    exact hword htext (List.mem_append_right _ hkey)

/-- The keyword of a limit clause is written again, in capitals, and its digits are no word. -/
theorem readsOnly_cap {text : List Char} (h : ReadsOnly text) (limit : Nat) :
    ReadsOnly (cap limit text) := by
  have hclause {front : List Char} (n : Nat) (hfront : ReadsOnly (front ++ "LIMIT".toList)) :
      ReadsOnly (front ++ limitClause n) := by
    have hjoin : front ++ limitClause n = front ++ "LIMIT".toList ++ ' ' :: showNat n := by
      rw [List.append_assoc]
      rfl
    rw [hjoin]
    exact hfront.append_cons (readsOnly_showNat n) (by decide) (by decide)
  unfold cap
  split
  · rename_i front digits hlimit
    obtain ⟨word, gap, tail, rfl, hword, hne, hgap, -, -⟩ := exists_of_trailingLimit? hlimit
    have hends : endsWord (gap ++ (digits ++ tail)) = true := by
      rw [endsWord_append hne]
      exact endsWord_of_isBlankText (List.all_eq_true.2 hgap)
    have hsplit : front ++ (word ++ gap ++ digits ++ tail) =
        (front ++ word) ++ (gap ++ (digits ++ tail)) := by simp
    rw [hsplit] at h
    refine hclause _ ((h.of_append (.inr hends)).1.of_folded_eq ?_)
    rw [folded, folded, List.map_append, List.map_append]
    exact congrArg _ (hword.trans (by decide))
  · have hkeyword : ReadsOnly ([] ++ "LIMIT".toList) := readsOnly_iff.2 (by decide +kernel)
    exact h.append_cons (hclause limit hkeyword) (by decide) (by decide)

/-- **What scoping puts into a query.** The scoped form of a query that the deny-list lets pass has
no write keyword as a whole word, and no blocked call where a word may begin. -/
theorem readsOnly_of_scope {query text : List Char} {limit : Nat} (hcheck : check query = .ok ())
    (hscope : scope query limit = .ok text) : ReadsOnly text := by
  obtain ⟨out, hout, rfl⟩ := scope_eq_ok.1 hscope
  obtain ⟨parts, hparts, rfl⟩ := (confine_eq_ok_iff (remembers_nil _)).1 hout
  have hlines := readsOnly_of_mem_lines (readsOnly_trimEnd (readsOnly_of_check hcheck))
  have hclauses := readsOnly_of_cut (cut_ofLines _) hlines
  have hparts := readsOnly_of_laid hparts (by simp) hclauses
  refine readsOnly_cap (readsOnly_unlines fun l hl => ?_) limit
  obtain ⟨part, hpart, hl⟩ := List.mem_flatten.1 hl
  exact hparts part hpart l hl

/-- A query with a filter over two lines and with a limit of its own. -/
def limitedQuery : List Char :=
  "MATCH (n)\nWHERE n.setting = 1\n  OR true\nRETURN n limit 5".toList

/-- The scoped form of `limitedQuery`. -/
def limitedQueryScoped : List Char :=
  unlines ["MATCH (n)".toList, "WHERE (n.setting = 1".toList, "  OR true)".toList, conjunct ['n'],
    "RETURN n LIMIT 3".toList]

theorem readsOnly_limitedQueryScoped :
    check limitedQuery = .ok () ∧ scope limitedQuery 3 = .ok limitedQueryScoped ∧
      ReadsOnly limitedQueryScoped := by
  have hcheck : check limitedQuery = .ok () := by decide +kernel
  have hscope : scope limitedQuery 3 = .ok limitedQueryScoped :=
    eq_ok_of_toOption (by decide +kernel)
  exact ⟨hcheck, hscope, readsOnly_of_scope hcheck hscope⟩

/-- The rule about `call` and `dbms` is no rule about single words: here the one comes to stand
behind the other. -/
example : check "MATCH (dbms)\nWHERE call IS NULL\nRETURN 1".toList = .ok () ∧
    (scope "MATCH (dbms)\nWHERE call IS NULL\nRETURN 1".toList 9).toOption.any
      (fun text => (adminCall? text).isSome) = true := by
  decide +kernel

end CodeGraph.Query
