import CodeGraph.Proofs.Store.Row

/-!
# Names of scopes

A scope has no name of its own and is stored under the local name of the node that it belongs to. That
node is stored under its name, so the two agree unless its local name spells something else.

* `Graph.displayName_of_scope`, `Graph.displayName_of_not_isScope`: the names of a scope and of other
  nodes;
* `Graph.names_of_scope`: the records of a scope and of its node, and when their names agree;
* `Graph.localized_names`: a node whose local name is not its name.
-/

namespace CodeGraph.Graph

variable {g : Graph}

theorem displayName_of_not_isScope {n : Node} (h : n.kind.isScope = false) :
    g.displayName n = n.path := by
  rw [displayName, h, Bool.false_and, if_neg Bool.false_ne_true]

/-- A scope without a name is called what the local name of its node spells. -/
theorem displayName_of_scope {scope owner : Node} {d : Slot} (hscope : scope.kind.isScope = true)
    (hname : scope.name? = none) (htarget : (scope.targets "AST_NODE").head? = some d)
    (howner : g.node? d = some owner) :
    g.displayName scope = Symbol.decode (owner.localName?.getD "") := by
  have hscoped : g.scopedName? scope = owner.localName? := by
    rw [scopedName?, htarget]
    change (g.node? d).bind Node.localName? = _
    rw [howner, Option.bind_some]
  rw [displayName, hscope, hname, hscoped]
  cases owner.localName? with
  | none => rw [Node.path, hname]; rfl
  | some name => rfl

/-- The local name of a node spells what its name spells, unless it is set to something else. -/
theorem decode_localName?_eq_path_iff {n : Node} :
    Symbol.decode (n.localName?.getD "") = n.path ↔
      ∀ name, n.nonempty? "localName" = some name → Symbol.decode name = n.path := by
  rw [Node.localName?]
  cases n.nonempty? "localName" with
  | none => simp [Node.path]
  | some name => simp

theorem isStored_of_isScope {n : Node} (h : n.kind.isScope = true) : n.isStored = true := by
  have hne : n.kind ≠ .unknownType := by
    intro hkind
    rw [hkind] at h
    cases h
  exact bne_iff_ne.2 hne

/-- A node that is stored has a record. -/
theorem exists_isRecord (draw : Slot → Identity) (tenant : Tenant) {s : Slot} {n : Node}
    (hn : g.node? s = some n) (hstored : n.isStored) :
    ∃ r ∈ (g.prepare draw tenant).records, g.IsRecord tenant (g.prepare draw tenant) s n r := by
  refine ⟨_, mem_records.2 ⟨s, n, hn, hstored, rfl⟩, ?_⟩
  exact isRecord_nodeRecord hn hstored

/-- **The name of a scope.** A scope without a name that belongs to a stored node which is no scope
has all three names from the local name of the node, or from its name if it has no local name. They
are what the node is stored under if and only if a local name, where there is one, spells the same as
the name. -/
theorem names_of_scope (draw : Slot → Identity) (tenant : Tenant) {s d : Slot} {scope owner : Node}
    (hs : g.node? s = some scope) (hscope : scope.kind.isScope = true) (hname : scope.name? = none)
    (htarget : (scope.targets "AST_NODE").head? = some d) (hd : g.node? d = some owner)
    (hstored : owner.isStored = true) (howner : owner.kind.isScope = false) :
    ∃ r ∈ (g.prepare draw tenant).records, ∃ r' ∈ (g.prepare draw tenant).records,
      g.IsRecord tenant (g.prepare draw tenant) s scope r ∧
      g.IsRecord tenant (g.prepare draw tenant) d owner r' ∧
      (∀ key ∈ nameKeys,
        r.properties.get? key = some (.text (Symbol.decode (owner.localName?.getD "")))) ∧
      r'.properties.get? "name" = some (.text owner.path) ∧
      ((∀ key ∈ nameKeys, r.properties.get? key = r'.properties.get? "name") ↔
        ∀ name, owner.nonempty? "localName" = some name → Symbol.decode name = owner.path) := by
  obtain ⟨r, hr, hrecord⟩ := exists_isRecord draw tenant hs (isStored_of_isScope hscope)
  obtain ⟨r', hr', hrecord'⟩ := exists_isRecord draw tenant hd hstored
  have hnames : ∀ key ∈ nameKeys,
      r.properties.get? key = some (.text (Symbol.decode (owner.localName?.getD ""))) := by
    rw [← displayName_of_scope hscope hname htarget hd]
    exact hrecord.names
  have hname' : r'.properties.get? "name" = some (.text owner.path) := by
    rw [← displayName_of_not_isScope howner]
    exact hrecord'.names "name" List.mem_cons_self
  refine ⟨r, hr, r', hr', hrecord, hrecord', hnames, hname', ?_⟩
  rw [hname', ← decode_localName?_eq_path_iff]
  constructor
  · intro h
    have hboth := (hnames "name" List.mem_cons_self).symm.trans (h "name" List.mem_cons_self)
    exact Json.text.inj (Option.some.inj hboth)
  · intro h key hkey
    rw [hnames key hkey, h]

/-! ### A local name that is not the name -/

/-- A function with a local name. -/
def localizedFunction : Node :=
  ((Node.bare 1 .functionDeclaration).withProperty "name" (.text "app::run")).withProperty "localName"
    (.text "run")

/-- A scope of the node before it. -/
def scopeOfFirst : Node :=
  (Node.bare 2 .functionScope).withRelationship "AST_NODE" (.single 0)

/-- A function with a local name, and its scope. -/
def localized : Graph := ⟨#[localizedFunction, scopeOfFirst]⟩

theorem path_localizedFunction : localizedFunction.path = "app::run" := by
  decide

theorem localName?_localizedFunction : localizedFunction.localName? = some "run" := by
  decide

theorem decode_run : Symbol.decode "run" = "run" := by
  decide

/-- The function is stored under its name, and its scope under the local name. -/
theorem names_of_scope_localized :
    localized.node? 1 = some scopeOfFirst ∧ scopeOfFirst.kind.isScope = true ∧
      scopeOfFirst.name? = none ∧ (scopeOfFirst.targets "AST_NODE").head? = some 0 ∧
      localized.node? 0 = some localizedFunction ∧ localizedFunction.isStored = true ∧
      localizedFunction.kind.isScope = false ∧
      ∃ r ∈ (localized.prepare .fresh "t").records, ∃ r' ∈ (localized.prepare .fresh "t").records,
        (∀ key ∈ nameKeys, r.properties.get? key = some (.text "run")) ∧
        r'.properties.get? "name" = some (.text "app::run") := by
  have hscope : localized.node? 1 = some scopeOfFirst := rfl
  have howner : localized.node? 0 = some localizedFunction := rfl
  obtain ⟨r, hr, r', hr', -, -, hnames, hname, -⟩ :=
    names_of_scope .fresh "t" hscope rfl rfl rfl howner rfl rfl
  refine ⟨hscope, rfl, rfl, rfl, howner, rfl, rfl, r, hr, r', hr', ?_,
    path_localizedFunction ▸ hname⟩
  rwa [localName?_localizedFunction, Option.getD_some, decode_run] at hnames

/-- Not every scope is stored under the name of its node. -/
theorem localized_names : ¬ ∀ (g : Graph) (draw : Slot → Identity) (tenant : Tenant) (s d : Slot)
    (scope owner : Node), g.node? s = some scope → scope.kind.isScope = true → scope.name? = none →
    (scope.targets "AST_NODE").head? = some d → g.node? d = some owner → owner.isStored = true →
    owner.kind.isScope = false → ∀ r r', g.IsRecord tenant (g.prepare draw tenant) s scope r →
      g.IsRecord tenant (g.prepare draw tenant) d owner r' →
      ∀ key ∈ nameKeys, r.properties.get? key = r'.properties.get? "name" := by
  intro h
  have hscope : localized.node? 1 = some scopeOfFirst := rfl
  have howner : localized.node? 0 = some localizedFunction := rfl
  obtain ⟨r, -, hr⟩ := exists_isRecord .fresh "t" hscope rfl
  obtain ⟨r', -, hr'⟩ := exists_isRecord .fresh "t" howner rfl
  have hsame := h localized .fresh "t" 1 0 scopeOfFirst localizedFunction hscope rfl rfl rfl howner
    rfl rfl r r' hr hr' "name" List.mem_cons_self
  rw [hr.names "name" List.mem_cons_self, hr'.names "name" List.mem_cons_self,
    displayName_of_scope rfl rfl rfl howner, displayName_of_not_isScope rfl,
    localName?_localizedFunction, Option.getD_some, decode_run, path_localizedFunction] at hsame
  exact absurd (Json.text.inj (Option.some.inj hsame)) (by decide)

end CodeGraph.Graph
