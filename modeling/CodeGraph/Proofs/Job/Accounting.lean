import CodeGraph.Proofs.Job.Agreement
import CodeGraph.Proofs.Job.LifeCycle
import CodeGraph.Proofs.Store.Place
import CodeGraph.Proofs.Store.Row

/-!
# The counts of a report

A report says how many nodes and edges are stored, and how many are not. In a graph that has passed
the check, this is every node and every target.

* `Graph.filtered_collect`, `Graph.unresolved_collect`: which targets are not stored;
* `Graph.Accounts`: a tally that is complete, with `Plan.accounts_tally`;
* `taken`: the edges that a store takes, with `Plan.taken_of_course` and `Plan.taken_of_alone`;
* `Memory.edges_writeTo`, `Memory.edges_serve`: the edges that a store in memory then has;
* `Plan.accounts_of_success`: all of it.
-/

namespace CodeGraph

open Dialogue

/-! ### Targets that are not stored -/

namespace Graph

variable {g : Graph} {draw : Slot → Identity} {p : Place} {t : Slot} {properties : Dict Json}

theorem isStored_iff {s : Slot} {n : Node} (hn : g.node? s = some n) :
    g.IsStored s ↔ n.kind ≠ .unknownType := by
  simp [IsStored, hn, Node.isStored]

/-- A node that holds a target is stored: the kind that is not stored declares no relationship. -/
theorem Holds.isStored {e : Slot × Dict Json} (h : g.Holds p e) : g.IsStored p.slot := by
  obtain ⟨n, ts, hn, hname, -, -⟩ := h
  rw [isStored_iff hn]
  intro hkind
  rw [hkind] at hname
  cases hname

/-- What a valid graph holds is in the arena. -/
theorem Valid.target_lt (hg : g.Valid) (h : g.Holds p (t, properties)) : t < g.size := by
  obtain ⟨n, ts, hn, -, hts, ht⟩ := h
  have hmem : (t, properties) ∈ ts.ends := List.mem_of_getElem? (Targets.holds_iff.1 ht)
  exact (hg _ n hn _ ts (Dict.get?_eq_some_iff.1 hts)).2 t (List.mem_map_of_mem hmem)

/-- What a valid graph holds is stored, unless its type is unknown. -/
theorem Valid.isStored_iff (hg : g.Valid) (h : g.Holds p (t, properties)) :
    g.IsStored t ↔ g.kind? t ≠ some .unknownType := by
  obtain ⟨n, hn⟩ : ∃ n, g.node? t = some n := ⟨_, Array.getElem?_eq_getElem (hg.target_lt h)⟩
  rw [Graph.isStored_iff hn, kind?, hn]
  simp

/-- Slots without an identity are those that are not stored. -/
theorem get?_identities_eq_none {s : Slot} :
    (g.identities draw).get? s = none ↔ ¬ g.IsStored s := by
  simp [Option.eq_none_iff_forall_ne_some, get?_identities]

/-- The targets that are left out for their name are those under `LANGUAGE`. -/
theorem filtered_collect (hg : g.Valid) (ids : IdMap) : (g.collect ids).filtered =
    g.namedTargets.countP fun (name, _) => name == "LANGUAGE" := by
  rw [collect_eq, ← (perm_namedTargets hg).countP_eq, List.countP_map]
  refine List.countP_congr fun e _ => ?_
  simp [HeldEdge.isStored, unstoredRelationships]

/-- Of the others, those are left out whose type is unknown. -/
theorem unresolved_collect (hg : g.Valid) (draw : Slot → Identity) :
    (g.collect (g.identities draw)).unresolved =
      g.namedTargets.countP fun (name, t) =>
        name != "LANGUAGE" && g.kind? t == some .unknownType := by
  rw [collect_eq, ← (perm_namedTargets hg).countP_eq, List.countP_map, ← map_edge_placed]
  refine List.countP_congr fun e he => ?_
  obtain ⟨⟨p, t, properties⟩, hmem, rfl⟩ := List.mem_map.1 he
  have hheld : g.Holds p (t, properties) := mem_placed.1 hmem
  have hrecord : ((p.edge (t, properties)).record? (g.identities draw)).isNone ↔
      g.kind? t = some .unknownType := by
    rw [Option.isNone_iff_eq_none, HeldEdge.record?_eq_none_iff, get?_identities_eq_none,
      get?_identities_eq_none]
    show ¬ g.IsStored p.slot ∨ ¬ g.IsStored t ↔ _
    rw [hg.isStored_iff hheld, not_not, or_iff_right (not_not.2 hheld.isStored)]
  simp only [Bool.and_eq_true, isStored_edge, hrecord, Function.comp_apply, bne_iff_ne, beq_iff_eq]
  rfl

/-! ### Complete tallies -/

/-- Whether a tally accounts for all nodes and targets of a graph, where some edges are stored. -/
structure Accounts (g : Graph) (t : Tally) (stored : List EdgeRecord) : Prop where
  nodes : t.nodesPersisted + t.nodesFiltered = g.size
  edges : t.edgesPersisted + t.edgesDropped = g.namedTargets.length
  /-- What is dropped is held under `LANGUAGE`, or is of unknown type. -/
  dropped : t.edgesDropped = g.namedTargets.countP (fun (name, _) => name == "LANGUAGE") +
    g.namedTargets.countP fun (name, s) => name != "LANGUAGE" && g.kind? s == some .unknownType
  persisted : t.edgesPersisted = stored.length

end Graph

namespace Plan

variable (P : Plan)

/-- The tally of a graph that has passed the check is complete. -/
theorem accounts_tally (hg : P.graph.Valid) :
    P.graph.Accounts (P.tally P.kept.length) P.edges := by
  have hdropped : (P.tally P.kept.length).edgesDropped =
      P.collected.unresolved + P.collected.filtered := by
    show _ + _ + (_ - _) = _
    rw [length_kept, Nat.sub_self, Nat.add_zero]
  have hids : P.collected = P.graph.collect (P.graph.identities P.draw) := by
    rw [collected, prepared, Graph.ids_prepare]
  constructor
  case nodes =>
    have hcount : P.prepared.filtered + P.records.length = P.graph.size :=
      Graph.filtered_add_length
    rw [← hcount]
    exact Nat.add_comm ..
  case edges =>
    have htotal := P.graph.total_collect P.prepared.ids
    rw [← List.length_map, (Graph.perm_namedTargets hg).length_eq] at htotal
    rw [hdropped, ← htotal]
    show P.kept.length + _ = P.collected.total
    rw [length_kept, Collected.total]
    omega
  case dropped =>
    rw [hdropped, hids, Graph.filtered_collect hg, Graph.unresolved_collect hg, Nat.add_comm]
  case persisted => exact congrArg List.length P.kept_eq

end Plan

/-! ### Edges that a store takes -/

/-- The edges that a call is to store. -/
def Call.edges : Call → List EdgeRecord
  | .createEdges _ records => records
  | _ => []

/-- The edges that a store takes in a turn. -/
def Turn.taken : Turn Call Call.Answer → List EdgeRecord
  | ⟨c, .ok _⟩ => c.edges
  | ⟨_, .error _⟩ => []

/-- The edges that a store takes in some turns. -/
def taken (T : List (Turn Call Call.Answer)) : List EdgeRecord :=
  T.flatMap Turn.taken

theorem Call.edges_of_stage?_eq_none {c : Call} (h : c.stage? = none) : c.edges = [] := by
  obtain ⟨t, query, n, rfl⟩ := Call.exists_of_stage?_eq_none h
  rfl

/-- When a script is done, the store has taken all its edges. -/
theorem Staged.taken_of_done {stage : Status} {ts : List Task} {T : List (Turn Step Step.Answer)}
    (hs : Staged stage ts) (h : List.Forall₂ Task.Done ts T) :
    taken (callsOf T) = (Task.calls ts).flatMap Call.edges := by
  induction h generalizing stage with
  | nil => rfl
  | cons ht _ ih =>
    cases ht with
    | publish s u => exact ih hs
    | must c report v => exact congrArg (c.edges ++ ·) (ih hs.2)
    | may c a =>
      have hedges := Call.edges_of_stage?_eq_none hs.1
      have htaken : Turn.taken ⟨c, a⟩ = c.edges := by
        cases a with
        | ok v => rfl
        | error e => exact hedges.symm
      exact congrArg₂ (· ++ ·) htaken (ih hs.2)

namespace Plan

variable (P : Plan)

theorem edges_body : (Task.calls P.body).flatMap Call.edges = P.edges := by
  have hnodes : (P.nodeChunks.map Call.createNodes).flatMap Call.edges = [] := by
    rw [List.flatMap_map]
    exact List.flatMap_eq_nil_iff.2 fun _ _ => rfl
  have hedges : (P.edgeChunks.map (Call.createEdges P.tenant)).flatMap Call.edges = P.edges := by
    rw [List.flatMap_map, ← P.kept_eq, ← P.flatten_edgeChunks]
    exact List.flatMap_id
  rw [calls_body, List.flatMap_append, hnodes, List.nil_append, List.flatMap_cons, hedges]
  rfl

theorem edges_script : (Task.calls P.script).flatMap Call.edges = P.edges := by
  rw [calls_script, List.flatMap_cons, List.flatMap_append, edges_body]
  exact List.append_nil _

/-- The calls that write the graph are made at their stages. -/
theorem staged_body : Staged .clearing P.body := by
  have hstaged := P.staged_script
  rw [script_eq] at hstaged
  exact (staged_append.1 hstaged.2).1

variable {σ : Type} {P} {S : Store σ} {s : σ}

/-- When a pass does not fail, the store has taken all edges, and the report counts them. -/
theorem taken_of_course {r : Summary} (h : (P.course.carryOut S.steps s).1 = .ok r) :
    taken (callsOf (P.course.transcript S.steps s)) = P.edges ∧
      r.toTally = P.tally P.kept.length := by
  have hpass := P.follows_script.performed S.steps s
  rw [h] at hpass
  obtain ⟨hdone, _, -, htally⟩ := hpass.of_ok
  exact ⟨(P.staged_script.taken_of_done hdone).trans P.edges_script, htally⟩

/-- So it is when the graph is written by itself. -/
theorem taken_of_alone {p : Prepared} {t : Tally} (h : (P.alone.run.carryOut S s).1 = .ok (p, t)) :
    taken (P.alone.run.transcript S s) = P.edges ∧
      t = P.tally P.kept.length := by
  have hloading := P.follows_loading.performed S.steps s
  rw [P.mirrors_loading.carryOut, h] at hloading
  obtain ⟨hdone, heq⟩ := hloading.of_ok
  rw [← P.mirrors_loading.calls]
  exact ⟨(P.staged_body.taken_of_done hdone).trans P.edges_body, congrArg Prod.snd heq⟩

end Plan

/-! ### Edges in memory -/

namespace Memory

/-- A call that clears nothing adds the edges that it takes. -/
theorem edges_perform (m : Memory) {c : Call} (hc : ∀ t, c ≠ .clear t) :
    (m.perform c).2.edges = m.edges ++ Turn.taken ⟨c, (m.perform c).1⟩ := by
  have hcontents := m.contents_perform c
  rw [← map_snd_ownedEdges, ← map_snd_ownedEdges]
  have howned : (m.perform c).2.ownedEdges = (m.contents.after c (m.perform c).1).edges :=
    congrArg Contents.edges hcontents
  rw [howned]
  generalize (m.perform c).1 = a
  cases a with
  | error e =>
    rw [Contents.after_error]
    exact (List.append_nil _).symm
  | ok v =>
    cases c with
    | createEdges t records =>
      show (m.ownedEdges ++ records.map (t, ·)).map Prod.snd = _
      rw [List.map_append, List.map_map]
      exact congrArg _ (List.map_id _)
    | clear t => exact absurd rfl (hc t)
    | createNodes records => exact (List.append_nil _).symm
    | ensureIndex => exact (List.append_nil _).symm
    | read t query n => exact (List.append_nil _).symm

/-- So does a dialogue that clears nothing. -/
theorem edges_carryOut {α : Type} : ∀ (d : Exchange α) (m : Memory),
    (∀ turn ∈ d.transcript perform m, ∀ t, turn.question ≠ .clear t) →
      (d.carryOut perform m).2.edges = m.edges ++ taken (d.transcript perform m)
  | .done a, m, _ => (List.append_nil _).symm
  | .ask c next, m, h => by
    obtain ⟨hc, hnext⟩ := List.forall_mem_cons.1 h
    show ((next (m.perform c).1).carryOut perform (m.perform c).2).2.edges =
      m.edges ++ (Turn.taken ⟨c, (m.perform c).1⟩ ++
        taken ((next (m.perform c).1).transcript perform (m.perform c).2))
    rw [edges_carryOut _ _ hnext, m.edges_perform hc, List.append_assoc]

end Memory

/-- The calls of a script that is done are those of its tasks. -/
theorem map_question_of_done {ts : List Task} {T : List (Turn Step Step.Answer)}
    (h : List.Forall₂ Task.Done ts T) : (callsOf T).map Turn.question = Task.calls ts := by
  induction h with
  | nil => rfl
  | cons ht _ ih =>
    cases ht with
    | publish s u => exact ih
    | must c report v => exact congrArg (c :: ·) ih
    | may c a => exact congrArg (c :: ·) ih

namespace Plan

variable {P : Plan}

/-- Nothing is cleared to write a graph. -/
theorem not_mem_calls_body (t : Tenant) : .clear t ∉ Task.calls P.body := by
  simp [calls_body]

/-- The edges of a store in which a graph is written. -/
theorem edges_writeTo {m : Memory} {p : Prepared} {t : Tally} (h : (P.writeTo m).1 = .ok (p, t)) :
    (P.writeTo m).2.edges = m.edges ++ P.edges := by
  have hloading := P.follows_loading.performed (Store.steps Memory.perform) m
  rw [P.mirrors_loading.carryOut, ← writeTo, h] at hloading
  have hquestions := map_question_of_done hloading.of_ok.1
  rw [P.mirrors_loading.calls] at hquestions
  rw [← (taken_of_alone h).1]
  refine Memory.edges_carryOut _ _ fun turn hturn tenant hclear => ?_
  apply P.not_mem_calls_body tenant
  rw [← hquestions, ← hclear]
  exact List.mem_map_of_mem hturn

/-- The edges of a store behind a pass that does not fail. -/
theorem edges_serve {m : Memory} {r : Summary} (h : (m.serve P.course).1 = .ok r) :
    (m.serve P.course).2.edges = (m.perform (.clear P.tenant)).2.edges ++ P.edges := by
  obtain ⟨cleared, m₁, hclear, hagrees⟩ := P.agrees_of_serve m
  have hedges : (m.serve P.course).2.edges = (P.writeTo m₁).2.edges := by
    rw [← Memory.map_snd_ownedEdges, ← Memory.map_snd_ownedEdges]
    exact congrArg (fun s : Contents => s.edges.map Prod.snd) hagrees.contents
  rw [hedges, hclear]
  cases hwrite : (P.writeTo m₁).1 with
  | ok w => exact edges_writeTo hwrite
  | error cause =>
    have herror := (hagrees.failure (.persisting cause)).2 ⟨cause, rfl, hwrite⟩
    rw [h] at herror
    cases herror

/-- **The report accounts for every node and every target.** Each node of a graph that has passed the
check is stored or counted as left out, and so is each target. Those that are left out are held under
`LANGUAGE`, or else their type is unknown. The edges that are counted as stored are those that the
store has taken, and none that is collected is left out when it is written. So it is for a pass that
does not fail, on a store of any kind, and also where the graph is written by itself. -/
theorem accounts_of_success {σ : Type} (P : Plan) (S : Store σ) (s : σ)
    (hvalid : P.graph.defect? = none) :
    (∀ r, (P.course.carryOut S.steps s).1 = .ok r →
      P.graph.Accounts r.toTally (taken (callsOf (P.course.transcript S.steps s))) ∧
        r.edgesPersisted ≤ P.collected.records.size) ∧
    (∀ p t, (P.alone.run.carryOut S s).1 = .ok (p, t) →
      P.graph.Accounts t (taken (P.alone.run.transcript S s)) ∧
        t.edgesPersisted ≤ P.collected.records.size) ∧
    (∀ ids, (P.graph.collect ids).records.toList.filter EdgeRecord.isStored =
      (P.graph.collect ids).records.toList) ∧
    ∀ m : Memory,
      (∀ r, (m.serve P.course).1 = .ok r → (m.serve P.course).2.edges.length =
        (m.perform (.clear P.tenant)).2.edges.length + r.edgesPersisted) ∧
      ∀ p t, (P.writeTo m).1 = .ok (p, t) →
        (P.writeTo m).2.edges.length = m.edges.length + t.edgesPersisted := by
  have hg := Graph.defect?_eq_none_iff.1 hvalid
  refine ⟨fun r h => ?_, fun p t h => ?_, P.graph.filter_isStored_collect, fun m =>
    ⟨fun r h => ?_, fun p t h => ?_⟩⟩
  · obtain ⟨htaken, htally⟩ := taken_of_course h
    rw [htaken, htally]
    exact ⟨P.accounts_tally hg, P.length_kept.le⟩
  · obtain ⟨htaken, htally⟩ := taken_of_alone h
    rw [htaken, htally]
    exact ⟨P.accounts_tally hg, P.length_kept.le⟩
  · have hcourse := h
    rw [m.serve_eq] at hcourse
    rw [edges_serve h, List.length_append, (taken_of_course hcourse).2, ← P.kept_eq]
    rfl
  · rw [edges_writeTo h, List.length_append, (taken_of_alone h).2, ← P.kept_eq]
    rfl

theorem accounts_of_success_leftovers :
    refresh.graph.defect? = none ∧ (leftovers.serve refresh.course).1 = .ok refreshed ∧
      refresh.graph.Accounts refreshed.toTally
        (taken (callsOf (refresh.course.transcript (Store.steps Memory.perform) leftovers))) ∧
      (leftovers.serve refresh.course).2.edges.length =
        (leftovers.perform (.clear "ours")).2.edges.length + 1 := by
  have hvalid : refresh.graph.defect? = none := by decide +kernel
  have hok := serve_refresh
  rw [Memory.serve_eq] at hok
  obtain ⟨hpass, -, -, hmemory⟩ :=
    accounts_of_success refresh Memory.perform leftovers hvalid
  exact ⟨hvalid, serve_refresh, (hpass _ hok).1, (hmemory leftovers).1 _ serve_refresh⟩

end Plan

end CodeGraph
