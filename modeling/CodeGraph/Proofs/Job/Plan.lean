import CodeGraph.Proofs.Protocol
import CodeGraph.Proofs.Store.Collection
import CodeGraph.Proofs.Store.Contents
import CodeGraph.Proofs.Store.Preparation

/-!
# Passes against a store in memory

A plan is all that a pass is given. Its course can be served by a store in memory.

* `Plan`, `Plan.records`, `Plan.edges`, `Plan.course`: what is to be stored, and how;
* `Plan.tally`: what becomes of all that the graph has;
* `Plan.exists_row`: the ends of the edges are among the nodes;
* `Memory.serve`: carries a course out;
* `Memory.protocol`, `Memory.serve_obeys`: what is true of a course for all answers that a store
  with the same contents can give is true of it when it is carried out.
-/

namespace CodeGraph

/-- What a pass is given. -/
structure Plan where
  settings : Settings
  /-- The identities of the nodes. -/
  draw : Slot → Identity
  tenant : Tenant
  graph : Graph

namespace Plan

variable (p : Plan)

/-- The nodes, ready to be stored. -/
def prepared : Prepared := p.graph.prepare p.draw p.tenant

/-- The nodes that are to be stored. -/
def records : List NodeRecord := p.prepared.records

/-- What becomes of the edges. -/
def collected : Collected := p.graph.collect p.prepared.ids

/-- The edges that are to be stored. -/
def edges : List EdgeRecord := p.collected.records.toList

/-- What becomes of all nodes and edges if so many edges are written. -/
def tally (written : Nat) : Tally where
  nodesPersisted := p.records.length
  nodesFiltered := p.prepared.filtered
  edgesPersisted := written
  edgesDropped :=
    p.collected.unresolved + p.collected.filtered + (p.collected.records.size - written)

/-- The course of the pass. -/
def course : Course (Except PassError Summary) :=
  (pass p.settings p.draw p.tenant p.graph).run

variable {p}

theorem tenant?_of_mem {r : NodeRecord} (h : r ∈ p.records) : r.tenant? = some p.tenant := by
  obtain ⟨s, n, -, -, rfl⟩ := Graph.mem_records.1 h
  exact Graph.tenant?_nodeRecord ..

/-- The nodes belong to the tenant of the plan, and to no other. -/
theorem belongs_of_mem {r : NodeRecord} (h : r ∈ p.records) (t : Tenant) :
    Memory.belongs t r = (p.tenant == t) := by
  simp [Memory.belongs, tenant?_of_mem h]

/-- Every node is that of a stored slot, and carries its identity. -/
theorem exists_slot_of_mem {r : NodeRecord} (h : r ∈ p.records) :
    ∃ s, p.graph.IsStored s ∧ r.id? = some (p.draw s).text := by
  obtain ⟨s, n, hs, hn, rfl⟩ := Graph.mem_records.1 h
  exact ⟨s, ⟨n, hs, hn⟩, Graph.id?_nodeRecord ..⟩

theorem hasLabel_of_mem {r : NodeRecord} (h : r ∈ p.records) :
    r.hasLabel Kind.unknownType.name = false := by
  obtain ⟨s, n, -, hn, rfl⟩ := Graph.mem_records.1 h
  exact Graph.hasLabel_nodeRecord _ _ _ _ _ hn

/-- Every identity that was given is carried by a node. -/
theorem exists_row {s : Slot} {id : Identity} (h : p.prepared.ids.get? s = some id) :
    ∃ r ∈ p.records, r.id? = some id.text := by
  rw [prepared, Graph.ids_prepare] at h
  obtain ⟨⟨n, hs, hn⟩, rfl⟩ := (Graph.get?_identities ..).1 h
  exact ⟨_, Graph.mem_records.2 ⟨s, n, hs, hn, rfl⟩, Graph.id?_nodeRecord ..⟩

/-- A plan for a small graph: a function with a body, whose result is of unknown type. -/
def small (settings : Settings) (draw : Slot → Identity) (tenant : Tenant) : Plan where
  settings
  draw
  tenant
  graph :=
    ⟨#[(((Node.bare 0 .functionDeclaration).withRelationship "BODY" (.single 1)).withRelationship
        "RETURN_TYPES" (.nodes [2])).withRelationship "LANGUAGE" (.single 3),
      .bare 1 .block, .bare 2 .unknownType, .bare 3 .language]⟩

end Plan

namespace Memory

/-- How a store in memory answers a step of a course. -/
def answer (m : Memory) : (q : Step) → q.Answer × Memory
  | .call c => m.perform c
  | .publish _ => ((), m)

/-- Carries a course out. -/
def serve {α : Type} (m : Memory) (d : Course α) : α × Memory :=
  (d.run (m := StateM Memory) fun q m => m.answer q).run m

variable {α : Type} (m : Memory)

@[simp] theorem serve_ask (q : Step) (next : q.Answer → Course α) :
    m.serve (.ask q next) = (m.answer q).2.serve (next (m.answer q).1) := rfl

/-- What is known about the answers of a store from its contents alone: clearing does not fail. -/
def gives (s : Contents) : (q : Step) → q.Answer → Prop
  | .call (.clear tenant), a => a = .ok (s.nodesOf tenant).length
  | _, _ => True

/-- The contents after a step that is answered. -/
def next (s : Contents) : (q : Step) → q.Answer → Contents
  | .call c, a => s.after c a
  | .publish _, _ => s

/-- All courses, followed with the contents of a store in memory. -/
def protocol : Protocol Step Step.Answer Contents := ⟨fun _ _ => True, gives, next⟩

theorem gives_answer (q : Step) : gives m.contents q (m.answer q).1 := by
  cases q with
  | publish _ => trivial
  | call c =>
    cases c with
    | clear tenant => exact m.clear_answer tenant
    | _ => trivial

theorem contents_answer (q : Step) : (m.answer q).2.contents = next m.contents q (m.answer q).1 := by
  cases q with
  | publish _ => rfl
  | call c => exact m.contents_perform c

/-- A course that obeys the protocol of a store ends as it should when the store serves it. -/
theorem serve_obeys {post : Contents → α → Prop} :
    ∀ {d : Course α} {m : Memory}, d.Obeys protocol post m.contents →
      post (m.serve d).2.contents (m.serve d).1
  | .done _, _, h => h
  | .ask q d, m, h => by
    -- the store's answer is one of those that can come, so the protocol goes on with it
    rw [serve_ask]
    apply serve_obeys
    rw [contents_answer]
    exact h.2 _ (gives_answer m q)

end Memory

end CodeGraph
