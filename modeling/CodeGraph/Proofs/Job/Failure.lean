import CodeGraph.Proofs.Job.Outage
import CodeGraph.Proofs.Job.Replacement
import CodeGraph.Proofs.Job.Tasks

/-!
# Passes that fail

What a failed pass leaves behind is told by the first of its calls that fails: the chunks before it,
and nothing of the chunks from there on. Only the look-up at the end may fail.

* `Plan.writes`: the calls that have to succeed;
* `Plan.Leaves`: what a pass leaves;
* `Plan.leaves_of_clear`, `Plan.leaves_of_createNodes`, `Plan.leaves_of_ensureIndex`,
  `Plan.leaves_of_createEdges`, `Plan.leaves_of_success`: call by call;
* `Plan.leaves_of_failure`: all of it.
-/

namespace CodeGraph

/-- Whether the first call that fails is the one with number `j`. -/
def Outage.FailsFirst (o : Outage) (j : Nat) (e : StoreError) : Prop :=
  o j = some e ∧ ∀ i < j, o i = none

namespace Plan

variable (P : Plan)

/-- The calls that have to succeed, in order. -/
def writes : List Call :=
  .clear P.tenant :: (P.nodeChunks.map .createNodes ++
    .ensureIndex :: P.edgeChunks.map (.createEdges P.tenant))

/-- What a pass leaves when it is carried out under an outage: the calls that it makes, the share of
its tenant, and why it fails, if it does. What others have stored is untouched. -/
structure Leaves (m : Memory) (o : Outage) (calls : List Call) (share : Share)
    (failure? : Option PassError) : Prop where
  calls : (m.serveUnder o 0 P.course).2.log = m.log ++ calls
  share : (m.serveUnder o 0 P.course).2.contents.share P.tenant = share
  nodesBeside : (m.serveUnder o 0 P.course).2.contents.nodesBeside P.tenant =
    m.contents.nodesBeside P.tenant
  edgesBeside : (m.serveUnder o 0 P.course).2.contents.edgesBeside P.tenant =
    m.contents.edgesBeside P.tenant
  failure : match failure? with
    | some e => (m.serveUnder o 0 P.course).1 = .error e
    | none => ∃ r, (m.serveUnder o 0 P.course).1 = .ok r ∧
        P.Tells (m.contents.nodesOf P.tenant).length r

section Leaves

variable {P} {m : Memory} {o : Outage} {e : StoreError}

/-- The progress of a pass before it begins. -/
def start (P : Plan) (m : Memory) : Progress := ⟨[], [], m.contents.share P.tenant⟩

/-- A pass leaves what its script leads to. -/
theorem leaves_through (P : Plan) (m : Memory) (o : Outage) :
    P.Leaves m o ((P.start m).through o P.script).1.calls
      ((P.start m).through o P.script).1.share ((P.start m).through o P.script).2 := by
  have hstart : (P.start m).Shows P.tenant m m := ⟨(List.append_nil _).symm, rfl, rfl, rfl⟩
  obtain ⟨q, hq, rfl, hr⟩ := Memory.serveUnder_obeys hstart (P.obeys_script o (P.start m))
  exact ⟨hq.log, hq.share, hq.nodesBeside, hq.edgesBeside, hr⟩

/-- A pass that fails leaves what its calls before the failure have done. -/
theorem leaves_of_script_eq {front rest : List Task} {calls : List Call} {c : Call}
    {report : StoreError → PassError} (hscript : P.script = front ++ .must c report :: rest)
    (hcalls : Task.calls front = calls) (h : o.FailsFirst calls.length e) :
    P.Leaves m o (calls ++ [c]) (calls.foldl Share.after (m.contents.share P.tenant))
      (some (report e)) := by
  subst hcalls
  have hnumber : ∀ i, (P.start m).calls.length + i = i := fun i => Nat.zero_add i
  have hbefore : ∀ i < (Task.calls front).length, o ((P.start m).calls.length + i) = none := by
    intro i hi
    rw [hnumber]
    exact h.2 i hi
  have hnow : o ((P.start m).calls.length + (Task.calls front).length) = some e := by
    rw [hnumber]
    exact h.1
  obtain ⟨hend, hmade, hshare⟩ := Progress.through_of_failure c report rest hbefore hnow
  have hleaves := P.leaves_through m o
  rw [hscript, hend, hmade, hshare] at hleaves
  exact hleaves

/-- A pass whose tenant is not cleared leaves everything as it is. -/
theorem leaves_of_clear (h : o.FailsFirst 0 e) :
    P.Leaves m o [.clear P.tenant] (m.contents.share P.tenant) (some (.clearing e)) := by
  have hscript : P.script = [.publish .clearing] ++ .must (.clear P.tenant) .clearing ::
      .publish .persistingNodes :: (chunkTasks nodeTask 0 P.nodeChunks ++
        .publish .persistingEdges :: (P.linking ++ P.closing)) := rfl
  have hcalls : Task.calls [.publish .clearing] = [] := rfl
  exact leaves_of_script_eq hscript hcalls h

/-- A pass that fails at a chunk of nodes leaves the chunks before it. -/
theorem leaves_of_createNodes {k : Nat} (hk : k < P.nodeChunks.length)
    (h : o.FailsFirst (1 + k) e) :
    P.Leaves m o (.clear P.tenant :: (P.nodeChunks.take (k + 1)).map .createNodes)
      ⟨(P.nodeChunks.take k).flatten, []⟩ (some (.persisting (.nodeChunk k k e))) := by
  obtain ⟨rest, hrest⟩ := chunkTasks_eq_append nodeTask 0 (List.getElem?_eq_getElem hk)
  rw [Nat.zero_add] at hrest
  have hscript : P.script = (P.opening ++ chunkTasks nodeTask 0 (P.nodeChunks.take k)) ++
      nodeTask k P.nodeChunks[k] :: (rest ++ (.publish .persistingEdges ::
        (P.linking ++ P.closing))) := by
    rw [script, hrest, List.append_assoc, List.append_assoc, List.cons_append]
  have hcalls : Task.calls (P.opening ++ chunkTasks nodeTask 0 (P.nodeChunks.take k)) =
      .clear P.tenant :: (P.nodeChunks.take k).map .createNodes := by
    rw [Task.calls_append, calls_nodeTasks]
    rfl
  have hnumber : (Call.clear P.tenant :: (P.nodeChunks.take k).map .createNodes).length = 1 + k := by
    rw [List.length_cons, List.length_map, List.length_take, Nat.min_eq_left (Nat.le_of_lt hk),
      Nat.add_comm]
  have hleaves := leaves_of_script_eq (m := m) hscript hcalls (hnumber ▸ h)
  rw [List.foldl_cons, Share.foldl_createNodes, List.cons_append] at hleaves
  rw [List.take_succ_eq_append_getElem hk, List.map_append]
  exact hleaves

/-- A pass that fails at the index leaves all nodes and no edge. -/
theorem leaves_of_ensureIndex (h : o.FailsFirst (1 + P.nodeChunks.length) e) :
    P.Leaves m o (.clear P.tenant :: (P.nodeChunks.map .createNodes ++ [.ensureIndex]))
      ⟨P.records, []⟩ (some (.persisting (.index e))) := by
  have hscript : P.script =
      (P.opening ++ (chunkTasks nodeTask 0 P.nodeChunks ++ [.publish .persistingEdges])) ++
        indexTask :: (chunkTasks P.edgeTask 0 P.edgeChunks ++ P.closing) := by
    rw [script, linking, List.append_assoc, List.append_assoc, List.singleton_append,
      List.cons_append]
  have hcalls : Task.calls
      (P.opening ++ (chunkTasks nodeTask 0 P.nodeChunks ++ [.publish .persistingEdges])) =
        .clear P.tenant :: P.nodeChunks.map .createNodes := by
    rw [Task.calls_append, Task.calls_append, calls_nodeTasks]
    exact congrArg _ (List.append_nil _)
  have hnumber : (Call.clear P.tenant :: P.nodeChunks.map .createNodes).length =
      1 + P.nodeChunks.length := by
    rw [List.length_cons, List.length_map, Nat.add_comm]
  have hleaves := leaves_of_script_eq (m := m) hscript hcalls (hnumber ▸ h)
  rw [List.foldl_cons, Share.foldl_createNodes, flatten_nodeChunks, List.cons_append] at hleaves
  exact hleaves

/-- A pass that fails at a chunk of edges leaves all nodes and the chunks before it. -/
theorem leaves_of_createEdges {k : Nat} (hk : k < P.edgeChunks.length)
    (h : o.FailsFirst (2 + P.nodeChunks.length + k) e) :
    P.Leaves m o
      (.clear P.tenant :: (P.nodeChunks.map .createNodes ++
        .ensureIndex :: (P.edgeChunks.take (k + 1)).map (.createEdges P.tenant)))
      ⟨P.records, (P.edgeChunks.take k).flatten⟩
      (some (.persisting (.edgeChunk k k e))) := by
  obtain ⟨rest, hrest⟩ := chunkTasks_eq_append P.edgeTask 0 (List.getElem?_eq_getElem hk)
  rw [Nat.zero_add] at hrest
  have hscript : P.script = (P.opening ++ (chunkTasks nodeTask 0 P.nodeChunks ++
      .publish .persistingEdges :: indexTask :: chunkTasks P.edgeTask 0 (P.edgeChunks.take k))) ++
        P.edgeTask k P.edgeChunks[k] :: (rest ++ P.closing) := by
    simp only [script, linking, hrest, List.append_assoc, List.cons_append]
  have hcalls : Task.calls (P.opening ++ (chunkTasks nodeTask 0 P.nodeChunks ++
      .publish .persistingEdges :: indexTask :: chunkTasks P.edgeTask 0 (P.edgeChunks.take k))) =
        .clear P.tenant :: (P.nodeChunks.map .createNodes ++
          .ensureIndex :: (P.edgeChunks.take k).map (.createEdges P.tenant)) := by
    rw [Task.calls_append, Task.calls_append, calls_nodeTasks, ← calls_edgeTasks]
    rfl
  have hnumber : (Call.clear P.tenant :: (P.nodeChunks.map .createNodes ++
      .ensureIndex :: (P.edgeChunks.take k).map (.createEdges P.tenant))).length =
        2 + P.nodeChunks.length + k := by
    simp only [List.length_cons, List.length_append, List.length_map, List.length_take]
    omega
  have hleaves := leaves_of_script_eq (m := m) hscript hcalls (hnumber ▸ h)
  rw [List.foldl_cons, List.foldl_append, Share.foldl_createNodes, flatten_nodeChunks,
    List.foldl_cons, Share.foldl_createEdges, List.cons_append, List.append_assoc,
    List.cons_append] at hleaves
  rw [List.take_succ_eq_append_getElem hk, List.map_append]
  exact hleaves

/-- A pass none of whose writes fails leaves everything that is to be stored. -/
theorem leaves_of_success (h : ∀ j < P.writes.length, o j = none) :
    P.Leaves m o (P.writes ++ [P.lookUp]) ⟨P.records, P.kept⟩ none := by
  have hscript : P.script = (P.opening ++ (chunkTasks nodeTask 0 P.nodeChunks ++
      .publish .persistingEdges :: P.linking)) ++ P.closing := by
    simp only [script, List.append_assoc, List.cons_append]
  have hcalls : Task.calls (P.opening ++ (chunkTasks nodeTask 0 P.nodeChunks ++
      .publish .persistingEdges :: P.linking)) = P.writes := by
    rw [Task.calls_append, Task.calls_append, calls_nodeTasks, writes, ← calls_edgeTasks]
    rfl
  have hbefore : ∀ i < P.writes.length, o ((P.start m).calls.length + i) = none := by
    intro i hi
    rw [show (P.start m).calls.length + i = i from Nat.zero_add i]
    exact h i hi
  rw [← hcalls] at hbefore
  obtain ⟨hend, hmade, hshare⟩ := Progress.through_of_success hbefore
  obtain ⟨hend', hmade', hshare'⟩ := P.through_closing o
    ((P.start m).through o (P.opening ++ (chunkTasks nodeTask 0 P.nodeChunks ++
      .publish .persistingEdges :: P.linking))).1
  have hleaves := P.leaves_through m o
  rw [hscript, Progress.through_append_of_none hend, hend', hmade', hshare', hmade, hshare,
    hcalls, writes, List.foldl_cons, List.foldl_append, Share.foldl_createNodes,
    flatten_nodeChunks, List.foldl_cons, Share.foldl_createEdges, flatten_edgeChunks] at hleaves
  exact hleaves

end Leaves

/-- **A pass stops at its first failure, and what it has written stays.** It clears its tenant, writes
its nodes chunk by chunk, makes sure of the index, writes its edges chunk by chunk and looks the
tracked variables up. The first of its calls that fails, the last one apart, is the last one that it
makes. What is reported counts the chunks that are stored, and these are stored whole. What the store
fails of its own is one of these outages. -/
theorem leaves_of_failure (P : Plan) (m : Memory) (o : Outage) :
    ((∀ j < P.writes.length, o j = none) →
      P.Leaves m o (P.writes ++ [P.lookUp]) ⟨P.records, P.kept⟩ none) ∧
    (∀ e, o.FailsFirst 0 e →
      P.Leaves m o [.clear P.tenant] (m.contents.share P.tenant) (some (.clearing e))) ∧
    (∀ k e, k < P.nodeChunks.length → o.FailsFirst (1 + k) e →
      P.Leaves m o (.clear P.tenant :: (P.nodeChunks.take (k + 1)).map .createNodes)
        ⟨(P.nodeChunks.take k).flatten, []⟩ (some (.persisting (.nodeChunk k k e)))) ∧
    (∀ e, o.FailsFirst (1 + P.nodeChunks.length) e →
      P.Leaves m o (.clear P.tenant :: (P.nodeChunks.map .createNodes ++ [.ensureIndex]))
        ⟨P.records, []⟩ (some (.persisting (.index e)))) ∧
    (∀ k e, k < P.edgeChunks.length → o.FailsFirst (2 + P.nodeChunks.length + k) e →
      P.Leaves m o
        (.clear P.tenant :: (P.nodeChunks.map .createNodes ++
          .ensureIndex :: (P.edgeChunks.take (k + 1)).map (.createEdges P.tenant)))
        ⟨P.records, (P.edgeChunks.take k).flatten⟩ (some (.persisting (.edgeChunk k k e)))) ∧
    (P.nodeChunks.flatten = P.records ∧
      ∀ c ∈ P.nodeChunks, c ≠ [] ∧ c.length ≤ max 1 P.settings.chunks.nodes) ∧
    (P.edgeChunks.flatten = P.kept ∧
      ∀ c ∈ P.edgeChunks, c ≠ [] ∧ c.length ≤ max 1 P.settings.chunks.edges) ∧
    ∃ own : Outage, (m.serveUnder own 0 P.course).1 = (m.serve P.course).1 ∧
      (m.serve P.course).2.Alike (m.serveUnder own 0 P.course).2 := by
  refine ⟨leaves_of_success, fun e => leaves_of_clear, fun k e => leaves_of_createNodes,
    fun e => leaves_of_ensureIndex, fun k e => leaves_of_createEdges, ⟨P.flatten_nodeChunks, ?_⟩,
    ⟨P.flatten_edgeChunks, ?_⟩, Memory.exists_outage _ 0 ⟨rfl, rfl, rfl, rfl⟩⟩
  · intro c hc
    exact ⟨ne_nil_of_mem_chunksOf hc, length_le_of_mem_chunksOf hc⟩
  · intro c hc
    exact ⟨ne_nil_of_mem_chunksOf hc, length_le_of_mem_chunksOf hc⟩

/-- A plan for a small graph, whose three nodes are written one by one. -/
def piecemeal : Plan := small { chunks := ⟨1, 0⟩ } Identity.fresh "ours"

/-- The third call fails, which is to write the second node. -/
def thirdCallLost : Outage := fun j => if j = 2 then some (.connection "lost") else none

theorem leaves_of_failure_thirdCallLost :
    thirdCallLost.FailsFirst 2 (.connection "lost") ∧ piecemeal.nodeChunks.length = 3 ∧
      (leftovers.serveUnder thirdCallLost 0 piecemeal.course).1 =
        .error (.persisting (.nodeChunk 1 1 (.connection "lost"))) ∧
      (leftovers.serveUnder thirdCallLost 0 piecemeal.course).2.contents.share "ours" =
        ⟨(piecemeal.nodeChunks.take 1).flatten, []⟩ := by
  have hfirst : thirdCallLost.FailsFirst (1 + 1) (.connection "lost") := ⟨rfl, by decide⟩
  have hlength : piecemeal.nodeChunks.length = 3 := by decide +kernel
  have hleaves := (leaves_of_failure piecemeal leftovers thirdCallLost).2.2.1 1 _
    (by rw [hlength]; decide) hfirst
  exact ⟨hfirst, hlength, hleaves.failure, hleaves.share⟩

end Plan

end CodeGraph
