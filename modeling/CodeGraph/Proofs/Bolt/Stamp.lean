import CodeGraph.Proofs.Bolt.Property
import CodeGraph.Proofs.Bolt.Request
import CodeGraph.Proofs.Job.Tasks
import CodeGraph.Proofs.Store.Place
import CodeGraph.Proofs.Store.Row

/-!
# What a pass creates at a server

A pass over a client creates nodes and edges by two statements. All that it sends with them carries
the tenant of the pass and identities of the pass, whatever properties the graph has.

* `Plan.talk`: a pass over a client, with `Plan.sends_talk`;
* `Plan.mem_calls_script`: the calls of a pass;
* `Plan.IsNodeMap`, `Plan.IsEdgeMap`: the properties that a node or an edge is created with;
* `Plan.exists_isNodeMap`, `Plan.exists_isEdgeMap`: the rows of a chunk;
* `Plan.stamps_of_talk`: all that is sent to create something.
-/

namespace CodeGraph

open Bolt

namespace Plan

variable (P : Plan)

/-- The pass over a client. -/
def talk (driver : Driver) (server : Settings.Server) :
    StateT Bool Talk (Except PassError Summary) :=
  P.course.run (Client.step driver server)

/-- A pass over a client runs the statements of its calls. -/
theorem sends_talk (driver : Driver) (server : Settings.Server) :
    Sends (fun statement parameters =>
      ∃ c ∈ Task.calls P.script, statementOf c = (statement, parameters))
      (P.talk driver server) := by
  have hcalls := P.follows_script.asks fun c hc => hc
  exact Client.sends_run driver server hcalls

theorem mem_calls_script {c : Call} (h : c ∈ Task.calls P.script) :
    c = .clear P.tenant ∨ (∃ chunk ∈ P.nodeChunks, c = .createNodes chunk) ∨ c = .ensureIndex ∨
      (∃ chunk ∈ P.edgeChunks, c = .createEdges P.tenant chunk) ∨ c = P.lookUp := by
  rw [calls_script, calls_body] at h
  simpa [eq_comm, or_assoc] using h

/-! ### Statements apart -/

theorem head?_createNodesStatement : createNodesStatement.toList.head? = some 'U' := by
  unfold createNodesStatement
  rw [String.toList_append, String.toList_append]
  rfl

theorem head?_createEdgesStatement : createEdgesStatement.toList.head? = some 'U' := by
  unfold createEdgesStatement
  simp only [String.toList_append, List.append_assoc]
  rfl

theorem createEdgesStatement_ne : createEdgesStatement ≠ createNodesStatement := by decide

/-- The query for tracked variables begins like one that finds something. -/
theorem head?_trackedText (limit : Nat) :
    (Gateway.trackedText limit).toList.head? = some 'M' := by
  unfold Gateway.trackedText
  rw [String.toList_ofList]
  rfl

/-- The calls of a pass create something, or their statements begin otherwise. -/
theorem creates_or_head?_ne {c : Call} (hc : c ∈ Task.calls P.script) :
    (∃ chunk ∈ P.nodeChunks, c = .createNodes chunk) ∨
      (∃ chunk ∈ P.edgeChunks, c = .createEdges P.tenant chunk) ∨
      (statementOf c).1.toList.head? ≠ some 'U' := by
  rcases P.mem_calls_script hc with rfl | hnodes | rfl | hedges | rfl
  · refine .inr (.inr ?_)
    show clearStatement.toList.head? ≠ _
    unfold clearStatement
    simp only [String.toList_append, List.append_assoc]
    decide
  · exact .inl hnodes
  · refine .inr (.inr ?_)
    show indexStatement.toList.head? ≠ _
    unfold indexStatement
    simp only [String.toList_append, List.append_assoc]
    decide
  · exact .inr (.inl hedges)
  · refine .inr (.inr ?_)
    show (Gateway.trackedText P.settings.rowLimit).toList.head? ≠ _
    rw [head?_trackedText]
    decide

/-- Only calls to create nodes run the statement that creates nodes. -/
theorem exists_chunk_of_createNodes {c : Call} (hc : c ∈ Task.calls P.script)
    (h : (statementOf c).1 = createNodesStatement) :
    ∃ chunk ∈ P.nodeChunks, c = .createNodes chunk := by
  rcases P.creates_or_head?_ne hc with hnodes | ⟨chunk, -, rfl⟩ | hhead
  · exact hnodes
  · exact absurd h createEdgesStatement_ne
  · rw [h] at hhead
    exact absurd head?_createNodesStatement hhead

/-- Only calls to create edges run the statement that creates edges. -/
theorem exists_chunk_of_createEdges {c : Call} (hc : c ∈ Task.calls P.script)
    (h : (statementOf c).1 = createEdgesStatement) :
    ∃ chunk ∈ P.edgeChunks, c = .createEdges P.tenant chunk := by
  rcases P.creates_or_head?_ne hc with ⟨chunk, -, rfl⟩ | hedges | hhead
  · exact absurd h.symm createEdgesStatement_ne
  · exact hedges
  · rw [h] at hhead
    exact absurd head?_createEdgesStatement hhead

/-! ### Rows -/

/-- Whether these are the properties that the node of a slot is created with: its identity, the
tenant, the name that it is stored under, and its own properties as far as they are sent. -/
structure IsNodeMap (s : Slot) (n : Node) (properties : Dict Value) : Prop where
  node : P.graph.node? s = some n
  tenant : properties.get? "projectId" = some (.text P.tenant)
  id : ∃ id, P.prepared.ids.get? s = some id ∧ properties.get? "id" = some (.text id.text)
  names : ∀ key ∈ ["name", "fullName", "localName"],
    properties.get? key = some (.text (P.graph.displayName n))
  others : ∀ key ∉ ["id", "projectId", "name", "fullName", "localName"],
    IsSent n.properties properties key

/-- Whether an edge is created for a place between these identities, with these properties: the
tenant, and those of the edge as far as they are sent. -/
structure IsEdgeMap (place : Place) (source target : Identity) (properties : Dict Value) : Prop where
  tenant : properties.get? "projectId" = some (.text P.tenant)
  ends : ∃ t given, P.graph.Holds place (t, given) ∧
    P.prepared.ids.get? place.slot = some source ∧ P.prepared.ids.get? t = some target ∧
      ∀ key ≠ "projectId", IsSent given properties key

variable {P}

/-- Every node that is to be stored is created with its properties. -/
theorem exists_isNodeMap {r : NodeRecord} (h : r ∈ P.records) :
    ∃ s n, P.IsNodeMap s n (ofProperties r.properties) := by
  obtain ⟨s, n, hs, hn, hr⟩ := Graph.mem_records.1 h
  have hrecord : P.graph.IsRecord P.tenant P.prepared s n r := by
    rw [hr]
    exact Graph.isRecord_nodeRecord hs hn
  obtain ⟨id, hids, hid⟩ := hrecord.id
  refine ⟨s, n, hs, get?_ofProperties_of_text hrecord.tenant,
    ⟨id, hids, get?_ofProperties_of_text hid⟩, fun key hkey => ?_, fun key hkey => ?_⟩
  · exact get?_ofProperties_of_text (hrecord.names key hkey)
  · apply isSent_of_get?_eq
    rw [get?_ofProperties, hrecord.others key hkey]

/-- Every edge that is to be stored is created between identities of the pass, with its
properties. -/
theorem exists_isEdgeMap {r : EdgeRecord} (h : r ∈ P.edges) :
    ∃ place : Place, r.name = place.name ∧ P.IsEdgeMap place r.source r.target
      ((ofProperties r.properties).insert tenantKey (.text P.tenant)) := by
  obtain ⟨place, t, hheld, hname, hsource, htarget⟩ := Graph.exists_records_of_mem h
  refine ⟨place, hname, ?_, t, r.properties, hheld, hsource, htarget, fun key hkey => ?_⟩
  · exact (Dict.get?_insert ..).trans (if_pos rfl)
  · have hother : key ≠ tenantKey := hkey
    apply isSent_of_get?_eq
    rw [Dict.get?_insert, if_neg hother, get?_ofProperties]

/-- **All that a pass creates at a server carries its tenant and its identities.** Whatever properties
the graph has and however the server answers, a pass has two statements to create something. The rows
of the first are nodes with the tenant, the identity that they were given, their name and those of
their other properties that are not null; the rows of the second are edges with the tenant, between
such identities, with their other properties likewise. -/
theorem stamps_of_talk {σ : Type} (P : Plan) (driver : Driver) (server : Settings.Server)
    (connected : Bool) (p : Party Request Request.Answer σ) (s : σ) {statement : String}
    {parameters : Parameters}
    {a : (Request.run statement parameters).Answer}
    (h : ⟨.run statement parameters, a⟩ ∈ ((P.talk driver server).run connected).transcript p s) :
    (statement = createNodesStatement → ∃ rows, parameters = [("rows", .list rows)] ∧
      ∀ row ∈ rows, ∃ s n labels properties,
        row = .map [("labels", .list labels), ("properties", .map properties.entries)] ∧
          P.IsNodeMap s n properties) ∧
    (statement = createEdgesStatement → ∃ rows,
      parameters = [("projectId", .text P.tenant), ("rels", .list rows)] ∧
        ∀ row ∈ rows, ∃ place source target properties,
          row = .map [("endId", .text target.text), ("properties", .map properties.entries),
              ("startId", .text source.text), ("type", .text place.name)] ∧
            P.IsEdgeMap place source target properties) ∧
    (statement = createNodesStatement ∨ statement = createEdgesStatement ∨
      statement ∈ [clearStatement, indexStatement, Gateway.trackedText P.settings.rowLimit]) := by
  obtain ⟨c, hc, hstatement⟩ := (P.sends_talk driver server connected).of_mem_transcript p h
  have hfst : (statementOf c).1 = statement := congrArg Prod.fst hstatement
  have hsnd : (statementOf c).2 = parameters := congrArg Prod.snd hstatement
  refine ⟨fun hcreates => ?_, fun hcreates => ?_, ?_⟩
  · obtain ⟨chunk, hchunk, rfl⟩ := P.exists_chunk_of_createNodes hc (hfst.trans hcreates)
    refine ⟨_, hsnd.symm, fun row hrow => ?_⟩
    obtain ⟨r, hr, rfl⟩ := List.mem_map.1 hrow
    obtain ⟨s, n, hmap⟩ := exists_isNodeMap (mem_records_of_mem_chunk hchunk hr)
    exact ⟨s, n, _, _, rfl, hmap⟩
  · obtain ⟨chunk, hchunk, rfl⟩ := P.exists_chunk_of_createEdges hc (hfst.trans hcreates)
    refine ⟨_, hsnd.symm, fun row hrow => ?_⟩
    obtain ⟨r, hr, rfl⟩ := List.mem_map.1 hrow
    obtain ⟨place, hname, hmap⟩ := exists_isEdgeMap (mem_edges_of_mem_chunk hchunk hr)
    refine ⟨place, r.source, r.target, _, ?_, hmap⟩
    rw [← hname]
    rfl
  · rw [← hfst]
    rcases P.mem_calls_script hc with rfl | ⟨chunk, -, rfl⟩ | rfl | ⟨chunk, -, rfl⟩ | rfl
    · exact .inr (.inr List.mem_cons_self)
    · exact .inl rfl
    · exact .inr (.inr (List.mem_cons_of_mem _ List.mem_cons_self))
    · exact .inr (.inl rfl)
    · exact .inr (.inr (List.mem_cons_of_mem _ (List.mem_cons_of_mem _ List.mem_cons_self)))

end Plan

/-! ### A pass at an obliging server -/

/-- What a server answers that accepts everything and has no rows. -/
def Bolt.Request.accepted : (r : Request) → r.Value
  | .run .. => []
  | .pull _ => .last []
  | .login .. => ()
  | .reset => ()
  | .beginTransaction => ()
  | .discard => ()
  | .commit => ()
  | .rollback => ()

/-- Whether a request runs a statement. -/
def Bolt.Request.runs (statement : String) : Request → Bool
  | .run s _ => s == statement
  | _ => false

/-- A statement that is run somewhere in a transcript. -/
theorem Bolt.exists_run_of_any {T : List (Turn Request Request.Answer)} {statement : String}
    (h : T.any fun turn => turn.question.runs statement) :
    ∃ parameters a, ⟨.run statement parameters, a⟩ ∈ T := by
  obtain ⟨⟨r, a⟩, hmem, hruns⟩ := List.any_eq_true.1 h
  cases r with
  | run s parameters =>
    obtain rfl : s = statement := by simpa [Request.runs] using hruns
    exact ⟨parameters, a, hmem⟩
  | _ => cases hruns

namespace Plan

/-- A plan for a call whose properties, and those of its argument, name another tenant. -/
def branded : Plan where
  settings := {}
  draw := Identity.fresh
  tenant := "ours"
  graph :=
    ⟨#[(((Node.bare 0 .callExpression).withProperty "projectId" (.text "theirs")).withProperty "id"
        .null).withRelationship "ARGUMENTS"
          (.edges [⟨1, (Dict.empty.insert "projectId" (.text "theirs")).insert "index" (.int 0)⟩]),
      .bare 1 .literal]⟩

/-- The pass of this plan at a server that accepts everything. -/
def brandedTurns : List (Turn Request Request.Answer) :=
  ((branded.talk .timeless {}).run false).transcript (fun _ r => (.ok r.accepted, ())) ()

theorem any_runs_brandedTurns :
    (brandedTurns.any fun turn => turn.question.runs createNodesStatement) ∧
      brandedTurns.any fun turn => turn.question.runs createEdgesStatement := by
  decide +kernel

theorem stamps_of_talk_branded :
    (∃ parameters a, ⟨.run createNodesStatement parameters, a⟩ ∈ brandedTurns ∧
      ∃ rows, parameters = [("rows", .list rows)] ∧ ∀ row ∈ rows, ∃ s n labels properties,
        row = .map [("labels", .list labels), ("properties", .map properties.entries)] ∧
          branded.IsNodeMap s n properties) ∧
    ∃ parameters a, ⟨.run createEdgesStatement parameters, a⟩ ∈ brandedTurns ∧
      ∃ rows, parameters = [("projectId", .text "ours"), ("rels", .list rows)] ∧
        ∀ row ∈ rows, ∃ place source target properties,
          row = .map [("endId", .text target.text), ("properties", .map properties.entries),
              ("startId", .text source.text), ("type", .text place.name)] ∧
            branded.IsEdgeMap place source target properties := by
  obtain ⟨parameters, a, hnodes⟩ := exists_run_of_any any_runs_brandedTurns.1
  obtain ⟨parameters', a', hedges⟩ := exists_run_of_any any_runs_brandedTurns.2
  exact ⟨⟨parameters, a, hnodes, (stamps_of_talk branded .timeless {} false _ () hnodes).1 rfl⟩,
    parameters', a', hedges, (stamps_of_talk branded .timeless {} false _ () hedges).2.1 rfl⟩

end Plan

end CodeGraph
