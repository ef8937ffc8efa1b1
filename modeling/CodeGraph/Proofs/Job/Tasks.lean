import CodeGraph.Proofs.Job.Follow

/-!
# The tasks of a pass

A pass clears its tenant, writes its nodes chunk by chunk, makes sure of the index, writes its edges
chunk by chunk and looks the tracked variables up. This is its script.

* `phase_bind`: a part of a pass, part by part;
* `chunkTasks`, `follows_writeChunks`: the tasks to write some chunks;
* `Gateway.accept_trackedQuery`, `Gateway.run_trackedVariables`, `lookUpTracked_eq`: the query for
  tracked variables as it reaches the store;
* `Plan.script`, `Plan.body`: the tasks of a plan, and those among them that write its graph;
* `Plan.loading`, `Plan.concluding`, `Plan.writing`: a pass part by part, with `Plan.pass_eq`;
* `Plan.follows_loading`, `Plan.follows_script`: a pass follows the script of its plan;
* `Plan.calls_body`, `Plan.calls_script`: the calls that it makes;
* `Plan.obeys_script`: where it leads under an outage.
-/

namespace CodeGraph

open Dialogue

/-! ### The parts of a pass -/

section Phase

variable {ε α β : Type} (report : ε → PassError)

theorem inCourse_bind (d : Exchange α) (f : α → Exchange β) :
    (d >>= f).inCourse = d.inCourse >>= fun a => (f a).inCourse :=
  Dialogue.run_bind _ d f

/-- A part of a pass that is made of two attempts is made of two parts. -/
theorem phase_bind (x : Attempt ε α) (f : α → Attempt ε β) :
    phase report (x >>= f) = phase report x >>= fun a => phase report (f a) := by
  apply ExceptT.ext
  unfold phase
  simp only [ExceptT.run_mk, ExceptT.run_bind, inCourse_bind, bind_assoc, pure_bind]
  refine congrArg _ (funext fun r => ?_)
  cases r with
  | error e => rfl
  | ok a => rfl

end Phase

section Chunks

variable {α : Type}

/-- The tasks of some chunks, of which the first has the number `n`. -/
def chunkTasks (task : Nat → List α → Task) (n : Nat) (chunks : List (List α)) : List Task :=
  (chunks.zipIdx n).map fun (c, k) => task k c

theorem chunkTasks_cons (task : Nat → List α → Task) (n : Nat) (c : List α)
    (chunks : List (List α)) :
    chunkTasks task n (c :: chunks) = task n c :: chunkTasks task (n + 1) chunks := rfl

theorem calls_chunkTasks {task : Nat → List α → Task} {call : List α → Call}
    (h : ∀ n c, (task n c).call? = some (call c)) :
    ∀ (n : Nat) (chunks : List (List α)),
      Task.calls (chunkTasks task n chunks) = chunks.map call
  | _, [] => rfl
  | n, c :: chunks => by
    rw [chunkTasks_cons, Task.calls_cons_of_some (h n c), calls_chunkTasks h, List.map_cons]

/-- The tasks up to a chunk are those of the chunks before it. -/
theorem chunkTasks_eq_append (task : Nat → List α → Task) :
    ∀ (n : Nat) {chunks : List (List α)} {k : Nat} {c : List α}, chunks[k]? = some c →
      ∃ rest, chunkTasks task n chunks =
        chunkTasks task n (chunks.take k) ++ task (n + k) c :: rest
  | n, c' :: chunks, 0, c, h => by
    obtain rfl : c' = c := by simpa using h
    exact ⟨_, rfl⟩
  | n, c' :: chunks, k + 1, c, h => by
    obtain ⟨rest, hrest⟩ := chunkTasks_eq_append task (n + 1) (by simpa using h)
    refine ⟨rest, ?_⟩
    rw [chunkTasks_cons, hrest, List.take_succ_cons, chunkTasks_cons, List.cons_append,
      Nat.add_right_comm, Nat.add_assoc n k]

/-- Chunks that are written one after the other. -/
theorem follows_writeChunks {report : PersistError → PassError}
    {write : Nat → List α → Attempt PersistError Unit} {task : Nat → List α → Task}
    (h : ∀ n c, Follows (fun _ => True) [task n c] (phase report (write n c)).run) :
    ∀ (n : Nat) (chunks : List (List α)),
      Follows (fun _ => True) (chunkTasks task n chunks)
        (phase report (writeChunks write n chunks)).run
  | _, [] => .done trivial
  | n, c :: chunks => by
    rw [writeChunks, phase_bind, chunkTasks_cons]
    exact (h n c).cons fun _ _ => follows_writeChunks h (n + 1) chunks

end Chunks

/-! ### The look-up of tracked variables -/

namespace Gateway

open Query

/-- The lines of the query for tracked variables, scoped to a tenant. -/
def trackedLines : List Line :=
  ["MATCH (n:TrackedVariable)".toList, patternFilter ['n'], "RETURN n".toList]

/-- The query for tracked variables as it reaches the store. -/
def trackedText (limit : Nat) : String :=
  String.ofList (Text.unlines trackedLines ++ '\n' :: limitClause (rowCount limit))

/-- The query for tracked variables is accepted under every limit. -/
theorem accept_trackedQuery (limit : Nat) :
    accept limit trackedQuery = .ok (trackedText limit) := by
  have hcheck : check trackedQuery.toList = .ok () := by decide +kernel
  have hconfine : confine none (clauses trackedQuery.toList) = .ok trackedLines := by
    decide +kernel
  have hlimit : trailingLimit? (Text.unlines trackedLines) = none := by decide +kernel
  unfold accept scope
  rw [hcheck, hconfine]
  show Except.ok (String.ofList (cap (rowCount limit) (Text.unlines trackedLines))) = _
  unfold cap
  rw [hlimit]
  rfl

/-- The look-up is one call. A failure of the store is named as one, and from the rows of an answer
the names of the nodes are taken. -/
theorem run_trackedVariables (limit : Nat) (tenant : Tenant) :
    (trackedVariables limit tenant).run =
      .ask (.read tenant (trackedText limit) (rowCount limit)) fun a =>
        .done ((a.mapError QueryError.execution).map fun rows =>
          names (Drawing.ofRows rows).nodes.toList) := by
  unfold trackedVariables draw execute
  rw [accept_trackedQuery]
  refine congrArg (Dialogue.ask _) (funext fun a => ?_)
  cases a with
  | error e => rfl
  | ok rows => rfl

/-- What is made of the rows that are found; nothing if they cannot be read. -/
def foundNames : Except StoreError (List Row) → List String
  | .ok rows => names (Drawing.ofRows rows).nodes.toList
  | .error _ => []

end Gateway

theorem lookUpTracked_eq (settings : Settings) (tenant : Tenant) :
    lookUpTracked settings tenant =
      .ask (.call (.read tenant (Gateway.trackedText settings.rowLimit)
        (Gateway.rowCount settings.rowLimit))) fun a => .done (Gateway.foundNames a) := by
  unfold lookUpTracked
  rw [Gateway.run_trackedVariables]
  refine congrArg (Dialogue.ask _) (funext fun a => ?_)
  cases a with
  | error e => rfl
  | ok rows => rfl

/-! ### The script of a plan -/

namespace Plan

variable (P : Plan)

/-- The edges that are to be stored, past the filter that they go through when they are written. -/
def kept : List EdgeRecord := P.edges.filter EdgeRecord.isStored

/-- All edges that are collected are written. -/
theorem kept_eq : P.kept = P.edges := Graph.filter_isStored_collect _ _

theorem length_kept : P.kept.length = P.collected.records.size := by
  rw [kept_eq]
  exact Array.length_toList

/-- The chunks in which nodes are written. -/
def nodeChunks : List (List NodeRecord) := chunksOf P.settings.chunks.nodes P.records

/-- The chunks in which edges are written. -/
def edgeChunks : List (List EdgeRecord) := chunksOf P.settings.chunks.edges P.kept

/-- The call that looks the tracked variables up. -/
def lookUp : Call :=
  .read P.tenant (Gateway.trackedText P.settings.rowLimit) (Gateway.rowCount P.settings.rowLimit)

/-- The task to write the chunk of nodes of a number. -/
def nodeTask (k : Nat) (chunk : List NodeRecord) : Task :=
  .must (.createNodes chunk) fun e => .persisting (.nodeChunk k k e)

/-- The task to write the chunk of edges of a number. -/
def edgeTask (k : Nat) (chunk : List EdgeRecord) : Task :=
  .must (.createEdges P.tenant chunk) fun e => .persisting (.edgeChunk k k e)

/-- The task to make sure of the index. -/
def indexTask : Task := .must .ensureIndex fun e => .persisting (.index e)

/-- The tasks before the first chunk of nodes. -/
def opening : List Task :=
  [.publish .clearing, .must (.clear P.tenant) .clearing, .publish .persistingNodes]

/-- The tasks to write all edges. -/
def linking : List Task := indexTask :: chunkTasks P.edgeTask 0 P.edgeChunks

/-- The tasks after the last chunk of edges. -/
def closing : List Task := [.may P.lookUp, .publish .completed]

/-- What a pass does. -/
def script : List Task :=
  P.opening ++ (chunkTasks nodeTask 0 P.nodeChunks ++
    (.publish .persistingEdges :: (P.linking ++ P.closing)))

/-- The tasks after the last chunk end nothing: the look-up is made whether it fails or not. -/
theorem through_closing (o : Outage) (p : Progress) :
    (p.through o P.closing).2 = none ∧
      (p.through o P.closing).1.calls = p.calls ++ [P.lookUp] ∧
      (p.through o P.closing).1.share = p.share := by
  have hend : p.through o P.closing =
      ((p.call P.lookUp (p.failure? o)).publish .completed, none) := rfl
  rw [hend]
  refine ⟨rfl, Progress.calls_call .., ?_⟩
  cases p.failure? o with
  | none => rfl
  | some e => rfl

theorem flatten_nodeChunks : P.nodeChunks.flatten = P.records :=
  flatten_chunksOf _ _

theorem flatten_edgeChunks : P.edgeChunks.flatten = P.kept :=
  flatten_chunksOf _ _

variable {P} in
theorem mem_records_of_mem_chunk {chunk : List NodeRecord} {r : NodeRecord}
    (hchunk : chunk ∈ P.nodeChunks) (hr : r ∈ chunk) : r ∈ P.records := by
  rw [← P.flatten_nodeChunks]
  exact List.mem_flatten.2 ⟨chunk, hchunk, hr⟩

variable {P} in
theorem mem_edges_of_mem_chunk {chunk : List EdgeRecord} {r : EdgeRecord}
    (hchunk : chunk ∈ P.edgeChunks) (hr : r ∈ chunk) : r ∈ P.edges := by
  rw [← P.kept_eq, ← P.flatten_edgeChunks]
  exact List.mem_flatten.2 ⟨chunk, hchunk, hr⟩

theorem calls_nodeTasks (chunks : List (List NodeRecord)) :
    Task.calls (chunkTasks nodeTask 0 chunks) = chunks.map .createNodes :=
  calls_chunkTasks (fun _ _ => rfl) 0 chunks

theorem calls_edgeTasks (chunks : List (List EdgeRecord)) :
    Task.calls (chunkTasks P.edgeTask 0 chunks) = chunks.map (.createEdges P.tenant) :=
  calls_chunkTasks (fun _ _ => rfl) 0 chunks

/-! ### A pass and its script -/

/-- What a pass reports that does not fail: what it cleared, and that everything is written. -/
def Tells (P : Plan) (cleared : Nat) (r : Summary) : Prop :=
  r.nodesCleared = cleared ∧ r.toTally = P.tally P.kept.length

theorem follows_writeNodes :
    Follows (fun _ => True) (chunkTasks nodeTask 0 P.nodeChunks)
      (phase .persisting (writeNodes P.settings.chunks P.records)).run :=
  follows_writeChunks (fun k c => follows_attempt .persisting (.nodeChunk k k) (.createNodes c)) _ _

theorem follows_writeEdges :
    Follows (fun n => n = P.kept.length) P.linking
      (phase .persisting (writeEdges P.settings.chunks P.tenant P.edges)).run := by
  have hparts : writeEdges P.settings.chunks P.tenant P.edges =
      (attempt .index .ensureIndex >>= fun _ =>
        writeChunks (writeEdgeChunk P.tenant) 0 P.edgeChunks >>= fun _ => pure P.kept.length) := rfl
  rw [hparts, phase_bind]
  refine (follows_attempt _ _ _).cons fun _ _ => ?_
  rw [phase_bind]
  have hchunks : Follows (fun _ => True) (chunkTasks P.edgeTask 0 P.edgeChunks)
      (phase .persisting (writeChunks (writeEdgeChunk P.tenant) 0 P.edgeChunks)).run :=
    follows_writeChunks
      (fun k c => follows_attempt .persisting (.edgeChunk k k) (.createEdges P.tenant c)) _ _
  exact hchunks.bind_pure fun _ _ => rfl

theorem follows_lookUpTracked :
    Follows (fun _ => True) [.may P.lookUp]
      (liftM (lookUpTracked P.settings P.tenant) : ExceptT PassError Course (List String)).run := by
  rw [lookUpTracked_eq]
  exact .may fun _ => .done trivial

/-- The writing of the graph as part of a pass. -/
def loading : ExceptT PassError Course (Prepared × Tally) := do
  publish .persistingNodes
  phase .persisting (writeNodes P.settings.chunks P.records)
  publish .persistingEdges
  let written ← phase .persisting (writeEdges P.settings.chunks P.tenant P.edges)
  return (P.prepared, P.tally written)

/-- What a pass reports of which these are the parts. -/
def summary (cleared : Nat) (t : Tally) (tracked : List String) : Summary :=
  { t with tenant := P.tenant, nodesCleared := cleared, trackedVariables := tracked }

/-- What a pass does once all is written. -/
def concluding (cleared : Nat) (t : Tally) : ExceptT PassError Course Summary := do
  let tracked ← lookUpTracked P.settings P.tenant
  publish .completed
  return P.summary cleared t tracked

/-- What a pass does after it has cleared its tenant. -/
def writing (cleared : Nat) : ExceptT PassError Course Summary := do
  let (_, t) ← P.loading
  P.concluding cleared t

/-- The tasks to write the graph. -/
def body : List Task :=
  .publish .persistingNodes :: (chunkTasks nodeTask 0 P.nodeChunks ++
    .publish .persistingEdges :: P.linking)

/-- The tasks after the tenant is cleared. -/
def sequel : List Task := P.body ++ P.closing

theorem script_eq :
    P.script = .publish .clearing :: .must (.clear P.tenant) .clearing :: P.sequel := by
  simp only [script, opening, sequel, body, List.cons_append, List.append_assoc, List.nil_append]

theorem follows_loading :
    Follows (fun r => r = (P.prepared, P.tally P.kept.length)) P.body
      P.loading.run := by
  refine (follows_publish _).cons fun _ _ => ?_
  refine P.follows_writeNodes.bind fun _ _ => ?_
  refine (follows_publish _).cons fun _ _ => ?_
  exact P.follows_writeEdges.bind_pure fun n hn => congrArg (fun n => (P.prepared, P.tally n)) hn

theorem follows_concluding (cleared : Nat) :
    Follows (P.Tells cleared) P.closing
      (P.concluding cleared (P.tally P.kept.length)).run :=
  P.follows_lookUpTracked.cons fun _ _ => (follows_publish _).bind_pure fun _ _ => ⟨rfl, rfl⟩

theorem follows_writing (cleared : Nat) :
    Follows (P.Tells cleared) P.sequel (P.writing cleared).run := by
  refine P.follows_loading.bind ?_
  rintro _ rfl
  exact P.follows_concluding cleared

theorem pass_eq : pass P.settings P.draw P.tenant P.graph = (do
    publish .clearing
    let cleared ← phase .clearing (attempt id (.clear P.tenant))
    P.writing cleared) := by
  simp only [pass, writing, loading, concluding, bind_assoc, pure_bind]
  rfl

/-- A pass follows the script of its plan, whatever the store answers. -/
theorem follows_script : Follows (fun r => ∃ cleared, P.Tells cleared r) P.script P.course := by
  rw [course, pass_eq, script_eq]
  refine (follows_publish _).cons fun _ _ => ?_
  refine (follows_attempt _ _ _).cons fun cleared _ => ?_
  exact (P.follows_writing cleared).mono fun r hr => ⟨cleared, hr⟩

/-- What is asked for to write the graph. -/
theorem calls_body : Task.calls P.body =
    P.nodeChunks.map .createNodes ++ .ensureIndex :: P.edgeChunks.map (.createEdges P.tenant) := by
  have hcalls : Task.calls P.body =
      Task.calls (chunkTasks nodeTask 0 P.nodeChunks) ++ Task.calls P.linking :=
    Task.calls_append (chunkTasks nodeTask 0 P.nodeChunks) _
  rw [hcalls, calls_nodeTasks, linking, Task.calls_cons_of_some (c := .ensureIndex) rfl,
    calls_edgeTasks]

/-- What a pass asks for after it has cleared its tenant. -/
theorem calls_sequel : Task.calls P.sequel = Task.calls P.body ++ [P.lookUp] :=
  Task.calls_append _ _

/-- All that a pass asks for. -/
theorem calls_script :
    Task.calls P.script = .clear P.tenant :: (Task.calls P.body ++ [P.lookUp]) := by
  rw [script_eq, ← calls_sequel]
  rfl

/-- What a pass asks for after it has cleared its tenant concerns the tenant. -/
theorem concerns_of_mem_sequel {c : Call} (h : c ∈ Task.calls P.sequel) :
    c.Concerns P.tenant := by
  rw [calls_sequel, calls_body, List.mem_append, List.mem_append, List.mem_cons,
    List.mem_singleton] at h
  rcases h with (hnodes | rfl | hedges) | rfl
  · obtain ⟨chunk, hchunk, rfl⟩ := List.mem_map.1 hnodes
    intro r hr
    rw [belongs_of_mem (mem_records_of_mem_chunk hchunk hr), beq_self_eq_true]
  · trivial
  · obtain ⟨chunk, -, rfl⟩ := List.mem_map.1 hedges
    rfl
  · rfl

/-- A pass leads where the script of its plan does, and counts what it clears. -/
theorem obeys_script (o : Outage) (p : Progress) :
    P.course.Obeys (account P.tenant o) (p.Ends o P.script (P.Tells p.share.nodes.length)) p := by
  have hscript : p.through o P.script =
      (p.publish .clearing).through o (.must (.clear P.tenant) .clearing :: P.sequel) := by
    rw [script_eq]
    rfl
  rw [course, pass_eq]
  refine ⟨trivial, fun _ _ => ⟨rfl, fun a ha => ?_⟩⟩
  change (Call.clear P.tenant).Answered p.share a (p.failure? o) at ha
  cases hfail : (p.publish .clearing).failure? o with
  | some e =>
    obtain rfl : a = .error e := by
      rwa [show p.failure? o = some e from hfail] at ha
    show p.Ends o P.script _
      ((p.publish .clearing).call (.clear P.tenant) ((p.publish .clearing).failure? o))
      (.error (.clearing e))
    rw [Progress.Ends, hscript, Progress.through_must_of_some hfail, hfail]
    exact ⟨rfl, rfl⟩
  | none =>
    obtain ⟨n, rfl, rfl⟩ : ∃ n, a = .ok n ∧ n = p.share.nodes.length := by
      rwa [show p.failure? o = none from hfail] at ha
    have hsequel := (P.follows_writing p.share.nodes.length).obeys (o := o)
      (fun c hc => P.concerns_of_mem_sequel hc) ((p.publish .clearing).call (.clear P.tenant) none)
    show (P.writing p.share.nodes.length).run.Obeys _ _
      ((p.publish .clearing).call (.clear P.tenant) ((p.publish .clearing).failure? o))
    rw [hfail]
    apply hsequel.mono
    intro q r hend
    rwa [Progress.Ends, hscript, Progress.through_must_of_none hfail]

end Plan

end CodeGraph
