import CodeGraph.Proofs.Program.Walk
import CodeGraph.Proofs.Store.Preparation
import Mathlib.Data.List.TakeWhile

/-!
# Which nodes are tagged

A slot is tagged because of what can be said about it without walking through the graph: because of
its name, or because of a function, a block below it and a call in that block that declares its
variable to the debugger.

* `IsAfterLast`: what stands behind the last occurrence of a character;
* `Graph.IsMain`, `Graph.IsTracked`, `Graph.Earns`: when a slot earns a tag;
* `Graph.mem_tracked`, `Graph.mem_functionTaggings`, `Graph.mem_taggings`: what gives a reason for one;
* `Graph.lookup_taggings`: the tag of a slot is the one that it earns;
* `Graph.tags_prepare`: the tags and labels that nodes are stored with;
* `Graph.earns_traced`: a small graph in which a variable is tracked.
-/

namespace CodeGraph

/-! ### Texts -/

/-- Whether a text is what stands behind the last `c` of another, or all of one that has no `c`. -/
def IsAfterLast (c : Char) (s part : String) : Prop :=
  c ∉ part.toList ∧ (part = s ∨ ∃ front, s.toList = front ++ c :: part.toList)

theorem isAfterLast_afterLast (c : Char) (s : String) : IsAfterLast c s (afterLast c s) := by
  have hparts : s.toList = (s.toList.reverse.dropWhile (· != c)).reverse ++
      (afterLast c s).toList := by
    rw [afterLast, String.toList_ofList, ← List.reverse_append, List.takeWhile_append_dropWhile,
      List.reverse_reverse]
  refine ⟨fun hc => ?_, ?_⟩
  · rw [afterLast, String.toList_ofList, List.mem_reverse] at hc
    simpa using List.mem_takeWhile_imp hc
  · cases hrest : s.toList.reverse.dropWhile (· != c) with
    | nil =>
      rw [hrest, List.reverse_nil, List.nil_append] at hparts
      exact .inl (String.toList_inj.1 hparts.symm)
    | cons d rest =>
      have hd := List.head?_dropWhile_not (· != c) s.toList.reverse
      simp only [hrest, List.head?_cons, bne_eq_false_iff_eq] at hd
      subst hd
      refine .inr ⟨rest.reverse, ?_⟩
      rw [hparts, hrest, List.reverse_cons, List.append_assoc, List.singleton_append]

/-- A text has one part behind the last `c`. -/
theorem afterLast_eq_iff {c : Char} {s part : String} :
    afterLast c s = part ↔ IsAfterLast c s part := by
  constructor
  · rintro rfl
    exact isAfterLast_afterLast c s
  · rintro ⟨hc, hpart⟩
    have hall : ∀ d ∈ part.toList.reverse, (d != c) = true := by
      intro d hd
      rw [bne_iff_ne]
      rintro rfl
      exact hc (List.mem_reverse.1 hd)
    have htake : s.toList.reverse.takeWhile (· != c) = part.toList.reverse := by
      rcases hpart with rfl | ⟨front, hs⟩
      · exact List.takeWhile_eq_self_iff.2 hall
      · rw [hs, List.reverse_append, List.reverse_cons, List.append_assoc,
          List.takeWhile_append_of_pos hall, List.singleton_append,
          List.takeWhile_cons_of_neg (by simp), List.append_nil]
    rw [afterLast, htake, List.reverse_reverse, String.ofList_toList]

theorem isRuntime_eq_false {name : String} :
    isRuntime name = false ↔ ∀ front ∈ runtimePrefixes, ¬ front.toList <+: name.toList := by
  simp only [isRuntime, List.any_eq_false, List.isPrefixOf_iff_prefix]

theorem isEntryPoint_iff {name : String} : isEntryPoint name ↔ "::main".toList <:+ name.toList :=
  List.isSuffixOf_iff_suffix

/-- A look-up finds any value of a key that has only one. -/
theorem lookup_eq_some_iff_mem {α β : Type} [BEq α] [LawfulBEq α] {l : List (α × β)} {a : α} {b : β}
    (h : ∀ b b', (a, b) ∈ l → (a, b') ∈ l → b = b') : l.lookup a = some b ↔ (a, b) ∈ l := by
  have hmem : ∀ {b}, l.lookup a = some b → (a, b) ∈ l := by
    intro b hb
    obtain ⟨front, back, rfl, -⟩ := List.lookup_eq_some_iff.1 hb
    exact List.mem_append_right _ List.mem_cons_self
  refine ⟨hmem, fun hb => ?_⟩
  have hsome : (l.lookup a).isSome := List.lookup_isSome_iff.2 ⟨_, hb, beq_self_eq_true a⟩
  obtain ⟨b', hb'⟩ := Option.isSome_iff_exists.1 hsome
  rw [hb', h b b' hb (hmem hb')]

/-! ### Reasons for a tag -/

namespace Graph

variable (g : Graph)

/-- Whether a slot is a function whose path ends in `::main`. -/
def IsMain (s : Slot) : Prop :=
  ∃ n, g.node? s = some n ∧ n.kind.isFunction ∧ "::main".toList <:+ n.path.toList

/-- Whether a slot is a function of the program, and not one of a language's runtime. -/
def IsProgramFunction (s : Slot) : Prop :=
  ∃ n, g.node? s = some n ∧ n.kind.isFunction ∧
    ∀ front ∈ runtimePrefixes, ¬ front.toList <+: n.path.toList

/-- Whether a slot declares a variable of this local name. -/
def Declares (s : Slot) (name : String) : Prop :=
  ∃ n, g.node? s = some n ∧ n.kind = .variableDeclaration ∧ n.localName? = some name

/-- Whether a slot is a call that declares a variable of this name to the debugger. The name is what
stands behind the last percent sign in the text of the first argument. -/
def Debugs (s : Slot) (name : String) : Prop :=
  ∃ call a argument code, g.node? s = some call ∧ call.kind = .callExpression ∧
    call.name? = some debugDeclare ∧ (call.targets "ARGUMENTS").head? = some a ∧
    g.node? a = some argument ∧ argument.code? = some code ∧ IsAfterLast '%' code name

/-- Whether a slot is the first that declares a variable of this name when a block is searched and no
nested block is entered. -/
def FirstDeclares (b s : Slot) (name : String) : Prop :=
  ∃ before after, Search g.inner [b] (g.children b) (before ++ s :: after) ∧
    g.Declares s name ∧ ∀ t ∈ before, ¬ g.Declares t name

/-- Whether a slot is a variable that a function of the program declares to the debugger: below the
function there is a block, and in it, but in no nested block, a call that declares its name. -/
def IsTracked (s : Slot) : Prop :=
  ∃ f b c name, g.IsProgramFunction f ∧ g.Below f b ∧ g.isBlock b ∧ g.Within b c ∧
    g.Debugs c name ∧ g.FirstDeclares b s name

/-- When a slot earns a tag. -/
def Earns (s : Slot) : Tag → Prop
  | .mainFunction => g.IsMain s
  | .trackedVariable => g.IsTracked s

variable {g} {s b : Slot}

theorem Debugs.kind {name : String} (h : g.Debugs s name) : g.kind? s = some .callExpression := by
  obtain ⟨call, a, argument, code, hcall, hkind, -⟩ := h
  rw [kind?, hcall, Option.map_some, hkind]

theorem IsTracked.kind (h : g.IsTracked s) : g.kind? s = some .variableDeclaration := by
  obtain ⟨f, b, c, name, -, -, -, -, -, before, after, -, ⟨n, hn, hkind, -⟩, -⟩ := h
  rw [kind?, hn, Option.map_some, hkind]

theorem IsMain.isFunction (h : g.IsMain s) : ∃ k, g.kind? s = some k ∧ k.isFunction := by
  obtain ⟨n, hn, hkind, -⟩ := h
  exact ⟨n.kind, by rw [kind?, hn, Option.map_some], hkind⟩

/-- No slot earns two tags: an entry point is a function, and what is tracked is a variable. -/
theorem Earns.unique {t t' : Tag} (h : g.Earns s t) (h' : g.Earns s t') : t = t' := by
  have hne : g.IsMain s → g.IsTracked s → False := by
    intro hmain htracked
    obtain ⟨k, hk, hfunction⟩ := hmain.isFunction
    rw [htracked.kind, Option.some.injEq] at hk
    subst hk
    cases hfunction
  cases t with
  | mainFunction =>
    cases t' with
    | mainFunction => rfl
    | trackedVariable => exact (hne h h').elim
  | trackedVariable =>
    cases t' with
    | mainFunction => exact (hne h' h).elim
    | trackedVariable => rfl

/-- What earns a tag is stored. -/
theorem Earns.isStored {t : Tag} (h : g.Earns s t) : g.IsStored s := by
  have hstored : ∀ {k}, g.kind? s = some k → k ≠ .unknownType → g.IsStored s := by
    intro k hk hne
    obtain ⟨n, hn, rfl⟩ := Option.map_eq_some_iff.1 hk
    exact ⟨n, hn, by simpa [Node.isStored] using hne⟩
  cases t with
  | mainFunction =>
    obtain ⟨k, hk, hfunction⟩ := IsMain.isFunction h
    refine hstored hk ?_
    rintro rfl
    cases hfunction
  | trackedVariable => exact hstored (IsTracked.kind h) (by decide)

/-! ### What is found in a block -/

theorem declares_iff {name : String} :
    ((g.node? s).any (·.declares name)) = true ↔ g.Declares s name := by
  simp only [Option.any_eq_true, Node.declares, Bool.and_eq_true, beq_iff_eq, Declares]

theorem register?_eq_some_iff {call : Node} {name : String} :
    g.register? call = some name ↔ ∃ a argument code,
      (call.targets "ARGUMENTS").head? = some a ∧ g.node? a = some argument ∧
        argument.code? = some code ∧ IsAfterLast '%' code name := by
  simp only [register?, Option.bind_eq_bind, Option.bind_eq_some_iff, Option.pure_def,
    Option.some.injEq, afterLast_eq_iff]
  constructor
  · rintro ⟨a, ha, argument, hargument, code, hcode, hname⟩
    exact ⟨a, argument, code, ha, hargument, hcode, hname⟩
  · rintro ⟨a, argument, code, ha, hargument, hcode, hname⟩
    exact ⟨a, ha, argument, hargument, code, hcode, hname⟩

theorem debugged?_eq_some_iff {name : String} :
    g.debugged? s = some name ↔ g.Debugs s name := by
  simp only [debugged?, Option.bind_eq_bind, Option.bind_eq_some_iff, Option.ite_none_right_eq_some,
    Node.isDebugDeclare, Bool.and_eq_true, beq_iff_eq, register?_eq_some_iff]
  constructor
  · rintro ⟨call, hcall, ⟨hkind, hname⟩, a, argument, code, hrest⟩
    exact ⟨call, a, argument, code, hcall, hkind, hname, hrest⟩
  · rintro ⟨call, a, argument, code, hcall, hkind, hname, hrest⟩
    exact ⟨call, hcall, ⟨hkind, hname⟩, a, argument, code, hrest⟩

/-- The declaration that is found among the members of a block is the first one of its name. -/
theorem declaration?_members {name : String} :
    g.declaration? (g.members b) name = some s ↔ g.FirstDeclares b s name := by
  simp only [declaration?, List.find?_eq_some_iff_append, declares_iff, Bool.not_eq_true',
    ← Bool.not_eq_true]
  constructor
  · rintro ⟨hs, before, after, hmembers, hbefore⟩
    exact ⟨before, after, hmembers ▸ g.search_members b, hs, hbefore⟩
  · rintro ⟨before, after, hsearch, hs, hbefore⟩
    exact ⟨hs, before, after, (g.search_members b).unique hsearch, hbefore⟩

/-- What is tracked in a block is declared to the debugger by a call in it. -/
theorem mem_tracked (hb : g.isBlock b) :
    s ∈ g.tracked b ↔ ∃ c name, g.Within b c ∧ g.Debugs c name ∧ g.FirstDeclares b s name := by
  simp only [tracked, List.mem_filterMap, Option.bind_eq_some_iff, debugged?_eq_some_iff,
    declaration?_members, mem_members]
  constructor
  · rintro ⟨c, ⟨hc, -⟩, name, hname, hs⟩
    exact ⟨c, name, hc, hname, hs⟩
  · rintro ⟨c, name, hc, hname, hs⟩
    refine ⟨c, ⟨hc, ?_⟩, name, hname, hs⟩
    -- a call is not the block itself
    rintro rfl
    obtain ⟨n, hn, hkind⟩ := isBlock_iff.1 hb
    have hcall := hname.kind
    rw [kind?, hn, Option.map_some, hkind] at hcall
    cases hcall

/-! ### What a function gives reason for -/

theorem mem_functionTaggings {f : Slot} {n : Node} {t : Tag} :
    (s, t) ∈ g.functionTaggings f n ↔
      (t = .mainFunction ∧ s = f ∧ isEntryPoint n.path) ∨
        (t = .trackedVariable ∧ isRuntime n.path = false ∧ ∃ b ∈ g.blocks f, s ∈ g.tracked b) := by
  unfold functionTaggings
  rw [List.mem_append]
  refine or_congr ?_ ?_
  · by_cases h : isEntryPoint n.path
    · simp [h, and_comm]
    · simp [h]
  · cases h : isRuntime n.path with
    | true => simp
    | false =>
      simp only [Bool.false_eq_true, if_false, List.mem_flatMap, List.mem_map, Prod.mk.injEq,
        true_and]
      constructor
      · rintro ⟨b, hb, v, hv, rfl, rfl⟩
        exact ⟨rfl, b, hb, hv⟩
      · rintro ⟨rfl, b, hb, hs⟩
        exact ⟨b, hb, s, hs, rfl, rfl⟩

/-- A slot is given a tag if and only if it earns it. -/
theorem mem_taggings {t : Tag} : (s, t) ∈ g.taggings ↔ g.Earns s t := by
  have hmem : (s, t) ∈ g.taggings ↔
      ∃ f n, g.node? f = some n ∧ n.kind.isFunction ∧ (s, t) ∈ g.functionTaggings f n := by
    simp only [taggings, List.mem_flatMap, Prod.exists, mem_slots, List.mem_ite_nil_right]
  rw [hmem]
  cases t with
  | mainFunction =>
    simp only [mem_functionTaggings, true_and, reduceCtorEq, false_and, or_false]
    constructor
    · rintro ⟨f, n, hn, hkind, rfl, hpath⟩
      exact ⟨n, hn, hkind, isEntryPoint_iff.1 hpath⟩
    · rintro ⟨n, hn, hkind, hpath⟩
      exact ⟨s, n, hn, hkind, rfl, isEntryPoint_iff.2 hpath⟩
  | trackedVariable =>
    simp only [mem_functionTaggings, true_and, reduceCtorEq, false_and, false_or]
    constructor
    · rintro ⟨f, n, hn, hkind, hpath, b, hb, hs⟩
      obtain ⟨hfb, -, hblock⟩ := mem_blocks.1 hb
      obtain ⟨c, name, hc, hname, hfirst⟩ := (mem_tracked hblock).1 hs
      exact ⟨f, b, c, name, ⟨n, hn, hkind, isRuntime_eq_false.1 hpath⟩, hfb, hblock, hc, hname,
        hfirst⟩
    · rintro ⟨f, b, c, name, ⟨n, hn, hkind, hpath⟩, hfb, hblock, hc, hname, hfirst⟩
      have hne : b ≠ f := by
        -- a function is no block
        rintro rfl
        obtain ⟨n', hn', hkind'⟩ := isBlock_iff.1 hblock
        obtain rfl : n = n' := Option.some.inj (hn.symm.trans hn')
        rw [hkind'] at hkind
        cases hkind
      exact ⟨f, n, hn, hkind, isRuntime_eq_false.2 hpath, b, mem_blocks.2 ⟨hfb, hne, hblock⟩,
        (mem_tracked hblock).2 ⟨c, name, hc, hname, hfirst⟩⟩

/-- The tag of a slot is the one that it earns. -/
theorem lookup_taggings {t : Tag} : g.taggings.lookup s = some t ↔ g.Earns s t := by
  rw [lookup_eq_some_iff_mem, mem_taggings]
  intro t t' ht ht'
  exact (mem_taggings.1 ht).unique (mem_taggings.1 ht')

/-! ### What is stored -/

section Prepare

variable {draw : Slot → Identity} {tenant : Tenant}

theorem mem_tags {t : Tag} : (s, t) ∈ (g.prepare draw tenant).tags ↔ g.Earns s t := by
  simp only [prepare_eq, List.mem_filterMap, Prod.exists, mem_storedSlots, Option.map_eq_some_iff,
    Prod.mk.injEq, lookup_taggings]
  constructor
  · rintro ⟨s, n, -, t, ht, rfl, rfl⟩
    exact ht
  · intro h
    obtain ⟨n, hn, hstored⟩ := h.isStored
    exact ⟨s, n, ⟨hn, hstored⟩, t, h, rfl, rfl⟩

/-- The tagged slots are listed in order. -/
theorem sorted_tags : ((g.prepare draw tenant).tags.map Prod.fst).Pairwise (· < ·) := by
  rw [List.pairwise_map, prepare_eq, List.pairwise_filterMap]
  refine (List.pairwise_map.1 g.sorted_storedSlots).imp ?_
  rintro ⟨s, n⟩ ⟨s', n'⟩ hlt p hp p' hp'
  obtain ⟨t, -, rfl⟩ := Option.map_eq_some_iff.1 hp
  obtain ⟨t', -, rfl⟩ := Option.map_eq_some_iff.1 hp'
  exact hlt

/-- Each slot is listed once among the tagged ones. -/
theorem nodup_tags : ((g.prepare draw tenant).tags.map Prod.fst).Nodup :=
  sorted_tags.imp Nat.ne_of_lt

theorem lookup_tags {t : Tag} :
    (g.prepare draw tenant).tags.lookup s = some t ↔ g.Earns s t := by
  rw [lookup_eq_some_iff_mem, mem_tags]
  intro t t' ht ht'
  exact (mem_tags.1 ht).unique (mem_tags.1 ht')

/-- A node is stored with the labels of its kind and that of its tag. -/
theorem labels_records : (g.prepare draw tenant).records.map NodeRecord.labels =
    g.storedSlots.map fun (s, n) =>
      n.labels ++ (((g.prepare draw tenant).tags.lookup s).map Tag.label).toList := by
  have hlookup : ∀ s, g.taggings.lookup s = (g.prepare draw tenant).tags.lookup s := fun s =>
    Option.ext fun t => by rw [lookup_taggings, lookup_tags]
  rw [records_prepare, List.map_map]
  refine List.map_congr_left ?_
  rintro ⟨s, n⟩ -
  show n.labels ++ ((g.taggings.lookup s).map Tag.label).toList = _
  rw [hlookup]

/-- **A node is tagged exactly if it earns a tag.** No node earns two, so each tagged slot is listed
once, and its label stands behind those of its kind. All slots that are given a tag are slots of the
graph, whatever the nodes of the graph refer to. -/
theorem tags_prepare (g : Graph) (draw : Slot → Identity) (tenant : Tenant) :
    (∀ s, (s, Tag.mainFunction) ∈ (g.prepare draw tenant).tags ↔ g.IsMain s) ∧
      (∀ s, (s, Tag.trackedVariable) ∈ (g.prepare draw tenant).tags ↔ g.IsTracked s) ∧
      (∀ s, ¬ (g.IsMain s ∧ g.IsTracked s)) ∧
      ((g.prepare draw tenant).tags.map Prod.fst).Nodup ∧
      ((g.prepare draw tenant).records.map NodeRecord.labels =
        g.storedSlots.map fun (s, n) =>
          n.labels ++ (((g.prepare draw tenant).tags.lookup s).map Tag.label).toList) ∧
      ∀ p ∈ g.taggings, p.1 < g.size := by
  refine ⟨fun s => mem_tags, fun s => mem_tags, ?_, nodup_tags, labels_records, ?_⟩
  · rintro s ⟨hmain, htracked⟩
    have hfirst : g.Earns s .mainFunction := hmain
    have hsecond : g.Earns s .trackedVariable := htracked
    cases hfirst.unique hsecond
  · rintro ⟨s, t⟩ h
    exact (mem_taggings.1 h).isStored.lt_size

end Prepare

/-! ### A variable that is tracked -/

/-- A graph of a function in whose block a variable is declared to the debugger. -/
def traced : Graph :=
  ⟨#[((Node.bare 0 .functionDeclaration).withProperty "name" (.text "app::main")).withRelationship
      "BODY" (.single 1),
    (Node.bare 1 .block).withRelationship "STATEMENTS" (.edges [⟨2, .empty⟩, ⟨3, .empty⟩]),
    (Node.bare 2 .declarationStatement).withRelationship "DECLARATIONS" (.edges [⟨4, .empty⟩]),
    ((Node.bare 3 .callExpression).withProperty "name" (.text debugDeclare)).withRelationship
      "ARGUMENTS" (.edges [⟨5, .empty⟩]),
    (Node.bare 4 .variableDeclaration).withProperty "localName" (.text "x"),
    (Node.bare 5 .reference).withProperty "code" (.text "metadata ptr %x")]⟩

/-- The block is searched below the declaration first, and then below the call. -/
theorem search_traced : Search traced.inner [1] (traced.children 1) [2, 4, 3, 5] := by
  have hchildren : traced.children 1 = [2, 3] := by decide +kernel
  have hinner : traced.inner 2 = [4] ∧ traced.inner 3 = [5] ∧ traced.inner 4 = [] ∧
      traced.inner 5 = [] := by decide +kernel
  obtain ⟨htwo, hthree, hfour, hfive⟩ := hinner
  have hbelow : Search traced.inner [2, 1] (traced.inner 2) [4] := by
    rw [htwo]
    exact .visit_leaf (by decide) hfour .nil
  have hbelow' : Search traced.inner [3, 4, 2, 1] (traced.inner 3) [5] := by
    rw [hthree]
    exact .visit_leaf (by decide) hfive .nil
  rw [hchildren]
  show Search traced.inner [1] [2, 3] (2 :: ([4] ++ 3 :: ([5] ++ [])))
  exact .visit (by decide) hbelow (.visit (by decide) hbelow' .nil)

theorem earns_traced : traced.Earns 4 .trackedVariable := by
  have hfunction : traced.IsProgramFunction 0 :=
    ⟨_, rfl, rfl, isRuntime_eq_false.1 (by decide +kernel)⟩
  have hbelow : traced.Below 0 1 :=
    .single (show 1 ∈ traced.children 0 by decide +kernel)
  have hwithin : traced.Within 1 3 := .child (by decide +kernel)
  have hdebugs : traced.Debugs 3 "x" := debugged?_eq_some_iff.1 (by decide +kernel)
  have hdeclares : traced.Declares 4 "x" := declares_iff.1 (by decide +kernel)
  have hbefore : ∀ t ∈ [2], ¬ traced.Declares t "x" := by
    intro t ht
    obtain rfl := List.mem_singleton.1 ht
    exact mt declares_iff.2 (by decide +kernel)
  exact ⟨0, 1, 3, "x", hfunction, hbelow, by decide +kernel, hwithin, hdebugs, [2], [3, 5],
    search_traced, hdeclares, hbefore⟩

end Graph

end CodeGraph
