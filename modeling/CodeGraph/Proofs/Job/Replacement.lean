import CodeGraph.Proofs.Job.Outline

/-!
# A pass replaces the graph of its tenant

A pass that does not fail leaves the nodes and edges of its plan behind those of all other tenants,
and nothing else. What was stored for the tenant before is gone, whoever left it there.

* `Plan.result`: the contents behind the pass;
* `Plan.replacing`: the outline of the pass;
* `Plan.contents_of_serve`: the contents and the report of a pass that does not fail;
* `Plan.replaces_of_serve`: the same, seen from the tenant and from all others.
-/

namespace CodeGraph

namespace Plan

variable (P : Plan)

/-- What is stored when the plan is carried out. -/
def result (s : Contents) : Contents :=
  ⟨s.nodesBeside P.tenant ++ P.records, s.edgesBeside P.tenant ++ P.edges.map (P.tenant, ·)⟩

/-- The stages of a pass that begins with the contents `s₀`. -/
def replacing (s₀ : Contents) : P.Outline Memory.protocol where
  begun s := s = s₀
  writing n front s := n = (s₀.nodesOf P.tenant).length ∧
    s = ⟨s₀.nodesBeside P.tenant ++ front, s₀.edgesBeside P.tenant⟩
  linking n front s := n = (s₀.nodesOf P.tenant).length ∧
    s = ⟨s₀.nodesBeside P.tenant ++ P.records,
      s₀.edgesBeside P.tenant ++ front.map (P.tenant, ·)⟩
  publish _ _ := ⟨trivial, fun _ => rfl⟩
  read _ _ _ := ⟨trivial, fun _ => rfl⟩
  clear := by
    rintro s rfl
    refine ⟨trivial, fun n hn => ⟨?_, ?_⟩⟩
    · exact Except.ok.inj hn
    · rw [List.append_nil]
      rfl
  write := by
    rintro n front c s - ⟨hn, rfl⟩
    refine ⟨trivial, fun u => ⟨hn, ?_⟩⟩
    rw [← List.append_assoc]
    rfl
  index := by
    rintro n s ⟨hn, rfl⟩
    refine ⟨trivial, fun u => ⟨hn, ?_⟩⟩
    rw [List.map_nil, List.append_nil]
    rfl
  link := by
    rintro n front c s - ⟨hn, rfl⟩
    refine ⟨trivial, fun u => ⟨hn, ?_⟩⟩
    rw [List.map_append, ← List.append_assoc]
    rfl

variable {P}

/-- A pass that does not fail stores its result, and reports what it did. -/
theorem contents_of_serve {m : Memory} {r : Summary} (h : (m.serve P.course).1 = .ok r) :
    (m.serve P.course).2.contents = P.result m.contents ∧
      r.nodesCleared = (m.contents.nodesOf P.tenant).length ∧ P.Reports r := by
  have hleads := Memory.serve_obeys ((P.replacing m.contents).leads_pass rfl)
  obtain ⟨⟨hcleared, hcontents⟩, hreports⟩ := hleads r h
  exact ⟨hcontents, hcleared, hreports⟩

/-! ### The result, tenant by tenant -/

section Replaced

variable {α : Type} {f : α → Bool} {new : List α}

/-- What replaces some members of a list is all that is found in their place. -/
theorem filter_replaced (l : List α) (h : ∀ a ∈ new, f a) :
    (l.filter (!f ·) ++ new).filter f = new := by
  have hold : (l.filter (!f ·)).filter f = [] := by
    rw [List.filter_filter]
    simp
  rw [List.filter_append, hold, List.nil_append]
  exact List.filter_eq_self.2 h

/-- The other members are still there, in order. -/
theorem filter_not_replaced (l : List α) (h : ∀ a ∈ new, f a) :
    (l.filter (!f ·) ++ new).filter (!f ·) = l.filter (!f ·) := by
  have hold : (l.filter (!f ·)).filter (!f ·) = l.filter (!f ·) := by
    rw [List.filter_filter]
    simp
  have hnew : new.filter (!f ·) = [] := List.filter_eq_nil_iff.2 fun a ha => by simp [h a ha]
  rw [List.filter_append, hold, hnew, List.append_nil]

end Replaced

section Result

variable (P) (s : Contents)

theorem belongs_records : ∀ r ∈ P.records, Memory.belongs P.tenant r := by
  intro r hr
  rw [belongs_of_mem hr, beq_self_eq_true]

theorem nodesOf_result : (P.result s).nodesOf P.tenant = P.records :=
  filter_replaced s.nodes P.belongs_records

theorem nodesBeside_result : (P.result s).nodesBeside P.tenant = s.nodesBeside P.tenant :=
  filter_not_replaced s.nodes P.belongs_records

theorem owned_edges : ∀ e ∈ P.edges.map (P.tenant, ·), e.1 == P.tenant := by
  intro e he
  obtain ⟨r, -, rfl⟩ := List.mem_map.1 he
  exact beq_self_eq_true P.tenant

theorem edgesOf_result : (P.result s).edgesOf P.tenant = P.edges := by
  have hedges : (P.result s).edges.filter (·.1 == P.tenant) = P.edges.map (P.tenant, ·) :=
    filter_replaced s.edges P.owned_edges
  rw [Contents.edgesOf, hedges, List.map_map]
  exact List.map_id _

theorem edgesBeside_result : (P.result s).edgesBeside P.tenant = s.edgesBeside P.tenant :=
  filter_not_replaced s.edges P.owned_edges

end Result

/-- The plan with other sizes of chunks. -/
def withChunks (P : Plan) (sizes : Settings.Chunks) : Plan :=
  { P with settings := { P.settings with chunks := sizes } }

/-- **A pass that does not fail replaces the graph of its tenant.** The tenant's nodes and edges are
those of the plan in order, those of all others stay as they are, the report counts the nodes that
were there before, and the sizes of chunks make no difference. -/
theorem replaces_of_serve (P : Plan) (m : Memory) (r : Summary)
    (h : (m.serve P.course).1 = .ok r) :
    (m.serve P.course).2.contents.nodesOf P.tenant =
        (P.graph.prepare P.draw P.tenant).records ∧
      (m.serve P.course).2.contents.edgesOf P.tenant =
        (P.graph.collect (P.graph.prepare P.draw P.tenant).ids).records.toList ∧
      (m.serve P.course).2.contents.nodesBeside P.tenant = m.contents.nodesBeside P.tenant ∧
      (m.serve P.course).2.contents.edgesBeside P.tenant = m.contents.edgesBeside P.tenant ∧
      r.nodesCleared = (m.contents.nodesOf P.tenant).length ∧
      ∀ sizes r', (m.serve (P.withChunks sizes).course).1 = .ok r' →
        (m.serve (P.withChunks sizes).course).2.contents = (m.serve P.course).2.contents ∧
          r'.nodesCleared = r.nodesCleared ∧ r'.toTally = r.toTally := by
  obtain ⟨hcontents, hcleared, hreports⟩ := contents_of_serve h
  rw [hcontents]
  refine ⟨P.nodesOf_result _, P.edgesOf_result _, P.nodesBeside_result _, P.edgesBeside_result _,
    hcleared, fun sizes r' h' => ?_⟩
  obtain ⟨hcontents', hcleared', hreports'⟩ := contents_of_serve h'
  exact ⟨hcontents', hcleared'.trans hcleared.symm, hreports'.trans hreports.symm⟩

/-! ### A pass over leftovers -/

/-- A plan for a small graph, with chunks of size zero. -/
def refresh : Plan := small { chunks := ⟨0, 0⟩ } Identity.fresh "ours"

/-- A store in which two tenants have a node each, one of them with an edge to itself. -/
def leftovers : Memory :=
  { nodeBatches := [["ours", "theirs"].map fun tenant =>
      ⟨[nodeLabel], Dict.empty.insert tenantKey (.text tenant)⟩]
    edgeBatches := [("ours", [⟨.fresh 9, .fresh 9, "SCOPE", .empty⟩])] }

/-- What a pass over the leftovers reports. -/
def refreshed : Summary :=
  { nodesPersisted := 3, nodesFiltered := 1, edgesPersisted := 1, edgesDropped := 2
    tenant := "ours", nodesCleared := 1, trackedVariables := [] }

theorem serve_refresh : (leftovers.serve refresh.course).1 = .ok refreshed := by
  decide +kernel

theorem replaces_of_serve_leftovers :
    (leftovers.serve refresh.course).1 = .ok refreshed ∧
      (leftovers.serve (refresh.withChunks ⟨2, 1⟩).course).1 = .ok refreshed ∧
      (leftovers.serve refresh.course).2.contents.nodesOf "ours" = refresh.records ∧
      (leftovers.serve refresh.course).2.contents.edgesOf "ours" = refresh.edges ∧
      (leftovers.serve refresh.course).2.contents.nodesBeside "ours" =
        leftovers.contents.nodesBeside "ours" ∧
      (leftovers.serve (refresh.withChunks ⟨2, 1⟩).course).2.contents =
        (leftovers.serve refresh.course).2.contents := by
  have hok' : (leftovers.serve (refresh.withChunks ⟨2, 1⟩).course).1 = .ok refreshed := by
    decide +kernel
  obtain ⟨hnodes, hedges, hbeside, -, -, hchunks⟩ :=
    replaces_of_serve refresh leftovers refreshed serve_refresh
  exact ⟨serve_refresh, hok', hnodes, hedges, hbeside, (hchunks _ _ hok').1⟩

end Plan

end CodeGraph
