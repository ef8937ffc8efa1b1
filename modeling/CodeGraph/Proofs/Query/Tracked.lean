import CodeGraph.Proofs.Job.Tasks
import CodeGraph.Proofs.Result.First
import CodeGraph.Proofs.Transcript

/-!
# The list of tracked variables

The tracked variables of a tenant are looked up by a query like any other, so the cap on rows holds
for them too: the names come from the first rows of the answer, as many as the cap allows.

* `ListsNames`: the names of the nodes in some rows;
* `Gateway.listsNames_names`: what is made of a drawing;
* `Gateway.tracked_of_results`: the look-up at a store in memory, whatever rows it holds;
* `Gateway.tracked_capped`: names that are left out.
-/

namespace CodeGraph

open Dialogue

/-- The text of a node's property `name`. -/
def StoreNode.name? (n : StoreNode Cell) : Option String :=
  (n.properties.lookup "name").map Cell.display

/-- Whether some names are those of the nodes that occur in some rows. -/
structure ListsNames (rows : List Row) (names : List String) : Prop where
  /-- Every node gives its name once, and every name is listed once, as they are first seen. -/
  inOrder : names =
    firsts id ((firsts StoreNode.id (rows.flatMap Cell.nodesAll)).filterMap StoreNode.name?)
  nodup : names.Nodup
  /-- The names are those of the nodes that no node with the same number occurs before. -/
  mem (name : String) : name ∈ names ↔
    ∃ before n after, rows.flatMap Cell.nodesAll = before ++ n :: after ∧
      (∀ n' ∈ before, n'.id ≠ n.id) ∧ n.name? = some name

theorem lookup_titles (key : String) (properties : List (String × Cell)) :
    (titles properties).lookup key = (properties.lookup key).map Cell.display := by
  induction properties with
  | nil => rfl
  | cons p properties ih =>
    rw [titles, List.map_cons, List.lookup_cons, List.lookup_cons, ← titles, ih]
    cases key == p.1 with
    | true => rfl
    | false => rfl

namespace Gateway

/-- The names in a drawing are those of the nodes that are drawn. -/
theorem listsNames_names (rows : List Row) :
    ListsNames rows (names (Drawing.ofRows rows).nodes.toList) := by
  have hinOrder : names (Drawing.ofRows rows).nodes.toList =
      firsts id ((firsts StoreNode.id (rows.flatMap Cell.nodesAll)).filterMap StoreNode.name?) := by
    rw [names, eraseDups_eq_firsts, Drawing.toList_nodes_ofRows, List.filterMap_map]
    refine congrArg _ (congrArg (List.filterMap · _) (funext fun n => ?_))
    exact lookup_titles "name" n.properties
  constructor
  case inOrder => exact hinOrder
  case nodup =>
    rw [hinOrder]
    simpa using nodup_map_firsts id
      ((firsts StoreNode.id (rows.flatMap Cell.nodesAll)).filterMap StoreNode.name?)
  case mem =>
    intro name
    rw [hinOrder, ← eraseDups_eq_firsts, List.mem_eraseDups, List.mem_filterMap]
    simp only [mem_firsts]
    constructor
    · rintro ⟨n, ⟨before, after, hsplit, hfirst⟩, hname⟩
      exact ⟨before, n, after, hsplit, hfirst, hname⟩
    · rintro ⟨before, n, after, hsplit, hfirst, hname⟩
      exact ⟨n, ⟨before, after, hsplit, hfirst⟩, hname⟩

section Memory

variable {m : Memory} {rows : List Row} {rest : List (List Row)}

/-- The look-up at a store in memory that holds rows as the next answer. -/
theorem carryOut_trackedVariables (hresults : m.results = rows :: rest)
    (hreading : m.faults.reading = none) (limit : Nat) (tenant : Tenant) :
    ((trackedVariables limit tenant).run.carryOut Memory.perform m).1 =
      .ok (names (Drawing.ofRows (rows.take (rowCount limit))).nodes.toList) := by
  have hread : (m.perform (.read tenant (trackedText limit) (rowCount limit))).1 =
      .ok (rows.take (rowCount limit)) := by
    simp only [Memory.perform, Memory.read, hresults, hreading]
    rfl
  rw [run_trackedVariables, carryOut_ask, carryOut_done, hread]
  rfl

/-- **The tracked variables that a look-up finds.** Whatever rows a store in memory holds as the
answer, the look-up succeeds and lists the names of the nodes in the first of them, as many rows as
the cap allows. Nothing is left out if there are no more rows than that. -/
theorem tracked_of_results (hresults : m.results = rows :: rest)
    (hreading : m.faults.reading = none) (limit : Nat) (tenant : Tenant) :
    ∃ names, ((trackedVariables limit tenant).run.carryOut Memory.perform m).1 = .ok names ∧
      ListsNames (rows.take (max limit 1)) names ∧
      (rows.length ≤ max limit 1 → ListsNames rows names) := by
  refine ⟨_, carryOut_trackedVariables hresults hreading limit tenant, listsNames_names _, ?_⟩
  intro hlength
  rw [rowCount, List.take_of_length_le hlength]
  exact listsNames_names rows

end Memory

/-- A node that is a tracked variable. -/
def variableNode (id : Int) (name : String) : StoreNode Cell :=
  ⟨id, ["VariableDeclaration", "TrackedVariable"], [("name", .text name)]⟩

/-- Three rows, of which the second one holds a node of the first again. -/
def variableRows : List Row :=
  [[.node (variableNode 1 "sum")],
    [.list [.node (variableNode 1 "total"), .node (variableNode 2 "count")]],
    [.node (variableNode 3 "last")]]

theorem carryOut_variableRows :
    ((trackedVariables 2 "t").run.carryOut Memory.perform { results := [variableRows] }).1 =
      .ok ["sum", "count"] := by
  rw [carryOut_trackedVariables rfl rfl, rowCount]
  simp [names, eraseDups_eq_firsts, Drawing.toList_nodes_ofRows, firsts, variableRows, variableNode,
    Cell.nodesAll, Cell.nodes, StoreNode.drawn, titles, Cell.display]

theorem tracked_of_results_thirdRowLost :
    ((trackedVariables 2 "t").run.carryOut Memory.perform { results := [variableRows] }).1 =
        .ok ["sum", "count"] ∧
      ListsNames (variableRows.take 2) ["sum", "count"] := by
  obtain ⟨names, hok, hlists, -⟩ := tracked_of_results (m := { results := [variableRows] })
    rfl rfl 2 "t"
  obtain rfl : names = ["sum", "count"] := Except.ok.inj (hok.symm.trans carryOut_variableRows)
  exact ⟨hok, hlists⟩

/-- A look-up does not find all tracked variables: the cap on rows holds for it too. -/
theorem tracked_capped : ¬ ∀ (m : Memory) (rows : List Row) (rest : List (List Row)),
    m.results = rows :: rest → m.faults.reading = none → ∀ (limit : Nat) (tenant : Tenant),
      ∃ names, ((trackedVariables limit tenant).run.carryOut Memory.perform m).1 = .ok names ∧
        ListsNames rows names := by
  intro h
  obtain ⟨names, hok, hlists⟩ := h { results := [variableRows] } variableRows [] rfl rfl 2 "t"
  obtain rfl : names = ["sum", "count"] := Except.ok.inj (hok.symm.trans carryOut_variableRows)
  have hlast : "last" ∈ ["sum", "count"] := (hlists.mem "last").2
    ⟨[variableNode 1 "sum", variableNode 1 "total", variableNode 2 "count"],
      variableNode 3 "last", [], rfl, by simp [variableNode], rfl⟩
  simp at hlast

end Gateway

end CodeGraph
