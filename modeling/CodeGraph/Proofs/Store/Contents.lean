import CodeGraph.Store.Memory
import Mathlib.Tactic.Common

/-!
# The contents of a store

What is stored, without the batches in which it came: the nodes, and the edges with their tenants.
A call changes the contents as `Contents.after` says, whatever else the store is told to do.

* `Memory.ownedEdges`, `Contents`, `Memory.contents`;
* `Contents.after`: the contents after a call, given its answer;
* `Contents.mem_nodes_after`: the nodes that a call does not delete;
* `Memory.contents_perform`: a call to a store in memory;
* `Memory.clear_answer`: clearing does not fail.
-/

namespace CodeGraph

/-- What is stored. -/
structure Contents where
  nodes : List NodeRecord
  /-- The edges, each with the tenant that it is stored for. -/
  edges : List (Tenant × EdgeRecord)

namespace Contents

/-- The nodes of a tenant. -/
def nodesOf (s : Contents) (tenant : Tenant) : List NodeRecord :=
  s.nodes.filter (Memory.belongs tenant)

/-- The nodes of all other tenants. -/
def nodesBeside (s : Contents) (tenant : Tenant) : List NodeRecord :=
  s.nodes.filter (!Memory.belongs tenant ·)

/-- The edges of a tenant. -/
def edgesOf (s : Contents) (tenant : Tenant) : List EdgeRecord :=
  (s.edges.filter (·.1 == tenant)).map Prod.snd

/-- The edges of all other tenants. -/
def edgesBeside (s : Contents) (tenant : Tenant) : List (Tenant × EdgeRecord) :=
  s.edges.filter (·.1 != tenant)

/-- The contents after a call that is answered. -/
def after (s : Contents) : (c : Call) → c.Answer → Contents
  | .createNodes records, .ok _ => { s with nodes := s.nodes ++ records }
  | .createEdges tenant records, .ok _ => { s with edges := s.edges ++ records.map (tenant, ·) }
  | .clear tenant, .ok _ => ⟨s.nodesBeside tenant, s.edgesBeside tenant⟩
  | _, _ => s

/-- Only clearing deletes nodes, and only those of one tenant. -/
theorem mem_nodes_after {s : Contents} {c : Call} {r : NodeRecord} (h : r ∈ s.nodes)
    (hclear : ∀ tenant, c = .clear tenant → Memory.belongs tenant r = false) (a : c.Answer) :
    r ∈ (s.after c a).nodes := by
  cases a with
  | error e => cases c <;> exact h
  | ok v =>
    cases c with
    | createNodes records => exact List.mem_append_left _ h
    | clear tenant => exact List.mem_filter.2 ⟨h, by simp [hclear tenant rfl]⟩
    | _ => exact h

end Contents

namespace Memory

variable (m : Memory)

/-- The stored edges with their tenants. -/
def ownedEdges : List (Tenant × EdgeRecord) :=
  m.edgeBatches.flatMap fun batch => batch.2.map (batch.1, ·)

/-- What is stored. -/
def contents : Contents := ⟨m.nodes, m.ownedEdges⟩

theorem map_snd_ownedEdges : m.ownedEdges.map Prod.snd = m.edges := by
  simp [ownedEdges, edges, List.map_flatMap, Function.comp_def]

theorem nodes_clear (tenant : Tenant) :
    (m.clear tenant).2.nodes = m.contents.nodesBeside tenant :=
  (List.filter_flatten ..).symm

theorem ownedEdges_clear (tenant : Tenant) :
    (m.clear tenant).2.ownedEdges = m.contents.edgesBeside tenant := by
  simp only [clear, ownedEdges, contents, Contents.edgesBeside]
  induction m.edgeBatches with
  | nil => rfl
  | cons batch l ih =>
    rw [List.flatMap_cons, List.filter_append, ← ih]
    -- a batch is of one tenant: it stays whole or goes whole
    by_cases h : batch.1 = tenant
    · simp [h]
    · have hall : (batch.2.map (batch.1, ·)).filter (·.1 != tenant) =
          batch.2.map (batch.1, ·) := List.filter_eq_self.2 (by simp [h])
      rw [hall, List.filter_cons_of_pos (by simp [h]), List.flatMap_cons]

/-- A call changes the contents as its answer says. -/
theorem contents_perform (c : Call) :
    (m.perform c).2.contents = m.contents.after c (m.perform c).1 := by
  cases c with
  | createNodes records =>
    simp only [perform, createNodes]
    split
    · rfl
    · simp [contents, nodes, ownedEdges, Contents.after]
  | ensureIndex =>
    simp only [perform, ensureIndex]
    split
    · rfl
    · rfl
  | createEdges tenant records =>
    simp only [perform, createEdges]
    split
    · rfl
    · simp [contents, nodes, ownedEdges, Contents.after]
  | clear tenant =>
    let logged : Memory := { m with log := m.log ++ [.clear tenant] }
    exact congrArg₂ Contents.mk (logged.nodes_clear tenant) (logged.ownedEdges_clear tenant)
  | read tenant query limit =>
    simp only [perform, read]
    split
    · rfl
    · split
      · rfl
      · rfl

/-- Clearing does not fail, and counts the nodes that it deletes. -/
theorem clear_answer (tenant : Tenant) :
    (m.perform (.clear tenant)).1 = .ok (m.contents.nodesOf tenant).length := by
  show Except.ok (m.nodes.countP (belongs tenant)) = _
  rw [List.countP_eq_length_filter]
  rfl

end Memory

end CodeGraph
