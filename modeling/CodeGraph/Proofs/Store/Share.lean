import CodeGraph.Proofs.Store.Contents

/-!
# The share of a tenant

The share of a tenant is the part of the contents that belongs to it. A call that concerns a tenant
changes its share as if there were nothing else, and leaves everything else as it is.

* `Share`, `Contents.share`: what is stored for a tenant;
* `Call.Concerns`: the calls that are about a tenant;
* `Contents.share_after_ok`: what such a call does to the share;
* `Contents.nodesBeside_after`, `Contents.edgesBeside_after`: what it does to everything else;
* `Contents.share_after_of_ne`: what it does to the share of another tenant.
-/

namespace CodeGraph

/-- What is stored for one tenant. -/
structure Share where
  nodes : List NodeRecord
  edges : List EdgeRecord

/-- The share after a call of its tenant that succeeds. -/
def Share.after (s : Share) : Call → Share
  | .createNodes records => { s with nodes := s.nodes ++ records }
  | .createEdges _ records => { s with edges := s.edges ++ records }
  | .clear _ => ⟨[], []⟩
  | .ensureIndex => s
  | .read .. => s

/-- Nodes that are created one batch after the other. -/
theorem Share.foldl_createNodes (s : Share) (chunks : List (List NodeRecord)) :
    (chunks.map Call.createNodes).foldl Share.after s =
      { s with nodes := s.nodes ++ chunks.flatten } := by
  induction chunks generalizing s with
  | nil => simp
  | cons c chunks ih =>
    rw [List.map_cons, List.foldl_cons, ih, Share.after, List.flatten_cons, List.append_assoc]

/-- Edges that are created one batch after the other. -/
theorem Share.foldl_createEdges (s : Share) (tenant : Tenant) (chunks : List (List EdgeRecord)) :
    (chunks.map (Call.createEdges tenant)).foldl Share.after s =
      { s with edges := s.edges ++ chunks.flatten } := by
  induction chunks generalizing s with
  | nil => simp
  | cons c chunks ih =>
    rw [List.map_cons, List.foldl_cons, ih, Share.after, List.flatten_cons, List.append_assoc]

/-- Whether all that a call is about belongs to a tenant. -/
def Call.Concerns (tenant : Tenant) : Call → Prop
  | .createNodes records => ∀ r ∈ records, Memory.belongs tenant r
  | .createEdges t _ => t = tenant
  | .clear t => t = tenant
  | .ensureIndex => True
  | .read t .. => t = tenant

namespace Contents

variable {s : Contents} {c : Call} {t t' : Tenant}

/-- What is stored for a tenant. -/
def share (s : Contents) (tenant : Tenant) : Share :=
  ⟨s.nodesOf tenant, s.edgesOf tenant⟩

@[simp] theorem after_error (s : Contents) (c : Call) (e : StoreError) :
    s.after c (.error e) = s := by
  cases c <;> rfl

/-- A call that succeeds changes the share of its tenant as if there were nothing else. -/
theorem share_after_ok (h : c.Concerns t) (v : c.Value) :
    (s.after c (.ok v)).share t = (s.share t).after c := by
  cases c with
  | createNodes records =>
    have hall : records.filter (Memory.belongs t) = records := List.filter_eq_self.2 h
    simp only [after, share, nodesOf, edgesOf, Share.after, List.filter_append, hall]
  | createEdges tenant records =>
    obtain rfl : tenant = t := h
    have hall : (records.map (tenant, ·)).filter (·.1 == tenant) = records.map (tenant, ·) :=
      List.filter_eq_self.2 (by simp)
    simp only [after, share, nodesOf, edgesOf, Share.after, List.filter_append, hall,
      List.map_append, List.map_map]
    congr 2
    exact List.map_id _
  | clear tenant =>
    obtain rfl : tenant = t := h
    simp only [after, share, nodesOf, nodesBeside, edgesOf, edgesBeside, Share.after,
      List.filter_filter]
    simp
  | ensureIndex => rfl
  | read tenant query limit => rfl

/-- A call of one tenant leaves the nodes of all others where they are. -/
theorem nodesBeside_after (h : c.Concerns t) (a : c.Answer) :
    (s.after c a).nodesBeside t = s.nodesBeside t := by
  cases a with
  | error e => rw [after_error]
  | ok v =>
    cases c with
    | createNodes records =>
      have hnone : records.filter (!Memory.belongs t ·) = [] :=
        List.filter_eq_nil_iff.2 fun r hr => by simp [h r hr]
      simp only [after, nodesBeside, List.filter_append, hnone, List.append_nil]
    | clear tenant =>
      obtain rfl : tenant = t := h
      simp only [after, nodesBeside, List.filter_filter, Bool.and_self]
    | createEdges tenant records => rfl
    | ensureIndex => rfl
    | read tenant query limit => rfl

/-- A call of one tenant leaves the edges of all others where they are. -/
theorem edgesBeside_after (h : c.Concerns t) (a : c.Answer) :
    (s.after c a).edgesBeside t = s.edgesBeside t := by
  cases a with
  | error e => rw [after_error]
  | ok v =>
    cases c with
    | createEdges tenant records =>
      obtain rfl : tenant = t := h
      have hnone : (records.map (tenant, ·)).filter (·.1 != tenant) = [] :=
        List.filter_eq_nil_iff.2 (by simp)
      simp only [after, edgesBeside, List.filter_append, hnone, List.append_nil]
    | clear tenant =>
      obtain rfl : tenant = t := h
      simp only [after, edgesBeside, List.filter_filter, Bool.and_self]
    | createNodes records => rfl
    | ensureIndex => rfl
    | read tenant query limit => rfl

/-- The nodes of another tenant are among those beside a tenant. -/
theorem nodesOf_eq_filter (h : t' ≠ t) (s : Contents) :
    s.nodesOf t' = (s.nodesBeside t).filter (Memory.belongs t') := by
  rw [nodesOf, nodesBeside, List.filter_filter]
  refine List.filter_congr fun r _ => ?_
  by_cases hr : r.tenant? = some t'
  · simp [Memory.belongs, hr, h]
  · simp [Memory.belongs, hr]

/-- The edges of another tenant are among those beside a tenant. -/
theorem edgesOf_eq_filter (h : t' ≠ t) (s : Contents) :
    s.edgesOf t' = ((s.edgesBeside t).filter (·.1 == t')).map Prod.snd := by
  rw [edgesOf, edgesBeside, List.filter_filter]
  congr 1
  refine List.filter_congr fun e _ => ?_
  by_cases he : e.1 = t'
  · simp [he, h]
  · simp [he]

/-- A call of one tenant leaves the share of another as it is. -/
theorem share_after_of_ne (h : c.Concerns t) (hne : t' ≠ t) (a : c.Answer) :
    (s.after c a).share t' = s.share t' := by
  simp only [share, nodesOf_eq_filter hne, edgesOf_eq_filter hne, nodesBeside_after h,
    edgesBeside_after h]

end Contents

end CodeGraph
