import CodeGraph.Proofs.Bolt.Path
import Mathlib.Logic.Relation

/-!
# Which values have a cell

Only a malformed path has no cell, and neither has what is converted together with one: the list, the
node or the relationship that holds it, or the path that goes over such a node or relationship. What a
map holds is not converted, and neither is a relationship that no hop of its path goes over.

* `IsPair`, `HasFault`, `IsMalformed`: what can be wrong with a path;
* `Value.Visits`, `Value.Converts`: the values that are converted together with a value;
* `exists_fault_of_toCell`: an error is a fault of a path that is converted;
* `Value.fails_iff_malformed`: a value has no cell if and only if such a path is malformed.
-/

namespace CodeGraph.Bolt

open Relation (ReflTransGen)

/-! ### Malformed paths -/

/-- Whether two numbers are a pair among the indices of a path. Pairs begin at even places, so that
an index that is left over at the end is in none. -/
def IsPair (indices : List Value) (r n : Int) : Prop :=
  ∃ k : Nat, indices[2 * k]? = some (.int r) ∧ indices[2 * k + 1]? = some (.int n)

/-- What is wrong with the nodes, the relationships or the indices of a path. The numbers of its
indices matter only if there is a node to start from. -/
inductive HasFault (nodes rels indices : List Value) : Malformed → Prop
  | node {v : Value} (hmem : v ∈ nodes)
      (h : ∀ id labels properties, v ≠ .node id labels properties) :
      HasFault nodes rels indices (.node v)
  | relationship {v : Value} (hmem : v ∈ rels)
      (h : ∀ id name properties, v ≠ .unbound id name properties) :
      HasFault nodes rels indices (.relationship v)
  | index {v : Value} (hmem : v ∈ indices) (h : ∀ n, v ≠ .int n) :
      HasFault nodes rels indices (.index v)
  | relationshipIndex {r n : Int} (hnodes : nodes ≠ []) (hpair : IsPair indices r n)
      (h : r.natAbs = 0 ∨ rels.length < r.natAbs) :
      HasFault nodes rels indices (.relationshipIndex r)
  | nodeIndex {r n : Int} (hnodes : nodes ≠ []) (hpair : IsPair indices r n)
      (h : n < 0 ∨ (nodes.length : Int) ≤ n) : HasFault nodes rels indices (.nodeIndex n)

/-- Whether something is wrong with a path. -/
def IsMalformed (nodes rels indices : List Value) : Prop :=
  ∃ e, HasFault nodes rels indices e

/-! ### What is converted together -/

/-- The values that are converted in order to convert a value. -/
inductive Value.Visits : Value → Value → Prop
  | item {items : List Value} {w : Value} (hmem : w ∈ items) : Visits (.list items) w
  | nodeProperty {id : Int} {labels : List Value} {properties : List (String × Value)}
      {key : String} {w : Value} (hmem : (key, w) ∈ properties) :
      Visits (.node id labels properties) w
  | relationProperty {id source target : Int} {name : String} {properties : List (String × Value)}
      {key : String} {w : Value} (hmem : (key, w) ∈ properties) :
      Visits (.relation id source target name properties) w
  | pathNode {nodes rels indices : List Value} {id : Int} {labels : List Value}
      {properties : List (String × Value)} {key : String} {w : Value}
      (hnode : .node id labels properties ∈ nodes) (hmem : (key, w) ∈ properties) :
      Visits (.path nodes rels indices) w
  /-- A property of a relationship that a hop goes over. -/
  | hop {nodes rels indices : List Value} {r n id : Int} {name : String}
      {properties : List (String × Value)} {key : String} {w : Value} (hnodes : nodes ≠ [])
      (hpair : IsPair indices r n) (hr : r ≠ 0)
      (hrel : rels[r.natAbs - 1]? = some (.unbound id name properties))
      (hmem : (key, w) ∈ properties) : Visits (.path nodes rels indices) w

/-- The values that are converted together with a value, at any depth; it is one of them. -/
def Value.Converts : Value → Value → Prop :=
  ReflTransGen Value.Visits

/-- What is converted in turn is smaller. -/
theorem Value.Visits.sizeOf_lt {v w : Value} (h : v.Visits w) : sizeOf w < sizeOf v := by
  cases h with
  | item hmem =>
    have := List.sizeOf_lt_of_mem hmem
    simp only [list.sizeOf_spec]
    omega
  | nodeProperty hmem =>
    have := sizeOf_lt_of_mem_entries hmem
    simp only [node.sizeOf_spec]
    omega
  | relationProperty hmem =>
    have := sizeOf_lt_of_mem_entries hmem
    simp only [relation.sizeOf_spec]
    omega
  | pathNode hnode hmem =>
    have hnode := List.sizeOf_lt_of_mem hnode
    have := sizeOf_lt_of_mem_entries hmem
    simp only [node.sizeOf_spec, path.sizeOf_spec] at hnode ⊢
    omega
  | hop _ _ _ hrel hmem =>
    have hrel := List.sizeOf_lt_of_mem (List.mem_of_getElem? hrel)
    have := sizeOf_lt_of_mem_entries hmem
    simp only [unbound.sizeOf_spec, path.sizeOf_spec] at hrel ⊢
    omega

/-! ### The parts of a path -/

theorem link?_eq_none_iff {links : List Link} {r : Int} :
    link? links r = none ↔ r.natAbs = 0 ∨ links.length < r.natAbs := by
  rw [link?]
  split
  case isTrue h => simp [h]
  case isFalse h =>
    rw [List.getElem?_eq_none_iff]
    omega

theorem node?_eq_none_iff {nodes : List (StoreNode Cell)} {n : Int} :
    node? nodes n = none ↔ n < 0 ∨ (nodes.length : Int) ≤ n := by
  rw [node?]
  split
  case isTrue h => simp [h]
  case isFalse h =>
    rw [List.getElem?_eq_none_iff]
    omega

/-- The relationship that an index points to. -/
theorem link?_eq_some {links : List Link} {r : Int} {link : Link} :
    link? links r = some link ↔ r ≠ 0 ∧ links[r.natAbs - 1]? = some link := by
  rw [link?, Option.ite_none_left_eq_some]

/-- The node that an index points to. -/
theorem node?_eq_some {nodes : List (StoreNode Cell)} {n : Int} {node : StoreNode Cell} :
    node? nodes n = some node ↔ ¬ n < 0 ∧ nodes[n.toNat]? = some node := by
  rw [node?, Option.ite_none_left_eq_some]

theorem exists_of_toNode_eq_error {v : Value} {e : Malformed} (h : toNode v = .error e) :
    (∃ id labels properties, v = .node id labels properties ∧ toEntries properties = .error e) ∨
      (∀ id labels properties, v ≠ .node id labels properties) ∧ e = .node v := by
  cases v with
  | node id labels properties =>
    exact .inl ⟨id, labels, properties, rfl, except_return_eq_error.1 h⟩
  | _ =>
    cases h
    exact .inr ⟨by simp, rfl⟩

theorem exists_of_toNode_eq_ok {v : Value} {n : StoreNode Cell} (h : toNode v = .ok n) :
    ∃ id labels properties, v = .node id labels properties := by
  cases v with
  | node id labels properties => exact ⟨id, labels, properties, rfl⟩
  | _ => cases h

theorem eq_of_toLink_eq_error {v : Value} {e : Malformed} (h : toLink v = .error e) :
    (∀ id name properties, v ≠ .unbound id name properties) ∧ e = .relationship v := by
  cases v <;> cases h <;> simp

theorem eq_map_of_indexNumbers {vs : List Value} {numbers : List Int}
    (h : indexNumbers vs = .ok numbers) : vs = numbers.map .int := by
  fun_induction indexNumbers vs generalizing numbers with
  | case1 =>
    cases h
    rfl
  | case2 n vs ih =>
    obtain ⟨rest, hrest, rfl⟩ := except_map_eq_ok.1 h
    rw [ih hrest, List.map_cons]
  | case3 v vs => cases h

theorem exists_of_indexNumbers_eq_error {vs : List Value} {e : Malformed}
    (h : indexNumbers vs = .error e) : ∃ v ∈ vs, (∀ n, v ≠ .int n) ∧ e = .index v := by
  fun_induction indexNumbers vs with
  | case1 => cases h
  | case2 n vs ih =>
    obtain ⟨v, hv, hfault⟩ := ih (except_return_eq_error.1 h)
    exact ⟨v, List.mem_cons_of_mem _ hv, hfault⟩
  | case3 v vs hv =>
    cases h
    exact ⟨v, List.mem_cons_self, fun n hn => hv n hn, rfl⟩

/-- The pairs of a path are those of its numbers. -/
theorem isPair_map_int {numbers : List Int} {r n : Int} : IsPair (numbers.map .int) r n ↔
    ∃ k : Nat, numbers[2 * k]? = some r ∧ numbers[2 * k + 1]? = some n := by
  simp [IsPair]

theorem exists_of_toEntries_eq_error {properties : List (String × Value)} {e : Malformed}
    (h : toEntries properties = .error e) :
    ∃ key w, (key, w) ∈ properties ∧ w.toCell = .error e := by
  rw [toEntries_eq_mapM] at h
  obtain ⟨⟨key, w⟩, hmem, hw⟩ := exists_of_mapM_eq_error h
  exact ⟨key, w, hmem, except_return_eq_error.1 hw⟩

theorem exists_of_toEntries_eq_ok {properties : List (String × Value)}
    {cells : List (String × Cell)} (h : toEntries properties = .ok cells) {key : String}
    {w : Value} (hmem : (key, w) ∈ properties) : ∃ c, w.toCell = .ok c := by
  obtain ⟨_, _, hkeyed⟩ := exists_of_mem_forall₂ (toEntries_eq_ok.1 h).flip hmem
  cases hkeyed with
  | mk _ hc => exact ⟨_, hc⟩

/-! ### Hops -/

/-- Where a hop fails, and with which error. -/
def HopFails (nodes : List (StoreNode Cell)) (links : List Link) (r n : Int) (e : Malformed) :
    Prop :=
  link? links r = none ∧ e = .relationshipIndex r ∨
    node? nodes n = none ∧ e = .nodeIndex n ∨
      ∃ link, link? links r = some link ∧ link.properties = .error e

/-- An error is that of one pair of indices. -/
theorem exists_of_hops_eq_error {nodes : List (StoreNode Cell)} {links : List Link}
    {e : Malformed} : ∀ {here : Int} {numbers : List Int},
      hops nodes links here numbers = .error e →
      ∃ k r n, numbers[2 * k]? = some r ∧ numbers[2 * k + 1]? = some n ∧
        HopFails nodes links r n e
  | _, [], h => by cases h
  | _, [_], h => by cases h
  | here, r :: n :: rest, h => by
    have hfirst (hfails : HopFails nodes links r n e) : ∃ k r' n', (r :: n :: rest)[2 * k]? =
        some r' ∧ (r :: n :: rest)[2 * k + 1]? = some n' ∧ HopFails nodes links r' n' e :=
      ⟨0, r, n, rfl, rfl, hfails⟩
    unfold hops at h
    cases hlink : link? links r with
    | none =>
      rw [hlink] at h
      cases h
      exact hfirst (.inl ⟨hlink, rfl⟩)
    | some link =>
      cases hnext : node? nodes n with
      | none =>
        rw [hlink, hnext] at h
        cases h
        exact hfirst (.inr (.inl ⟨hnext, rfl⟩))
      | some next =>
        rw [hlink, hnext] at h
        rcases except_bind_eq_error.1 h with hproperties | ⟨_, -, htail⟩
        · exact hfirst (.inr (.inr ⟨link, hlink, hproperties⟩))
        · have hrest : hops nodes links next.id rest = .error e := by
            by_cases hr : 0 < r
            · rw [if_pos hr] at htail
              exact except_return_eq_error.1 htail
            · rw [if_neg hr] at htail
              exact except_return_eq_error.1 htail
          obtain ⟨k, r', n', hr, hn, hfails⟩ := exists_of_hops_eq_error hrest
          exact ⟨k + 1, r', n', hr, hn, hfails⟩

/-- Where hops succeed, they do so for every pair of indices. -/
theorem exists_of_hops_eq_ok {nodes : List (StoreNode Cell)} {links : List Link} :
    ∀ {here : Int} {numbers : List Int} {edges : List (StoreEdge Cell)} {k : Nat} {r n : Int},
      hops nodes links here numbers = .ok edges → numbers[2 * k]? = some r →
      numbers[2 * k + 1]? = some n →
      ∃ link, link? links r = some link ∧ (∃ cells, link.properties = .ok cells) ∧
        ∃ next, node? nodes n = some next
  | _, [], _, _, _, _, _, hr, _ => by cases hr
  | _, [_], _, 0, _, _, _, _, hn => by cases hn
  | _, [_], _, _ + 1, _, _, _, hr, _ => by cases hr
  | here, _ :: _ :: rest, _, 0, r, n, h, hr, hn => by
    cases hr
    cases hn
    obtain ⟨link, hlink, next, hnext, e, _, _, _, hproperties, _⟩ := exists_of_hops_cons h
    exact ⟨link, hlink, ⟨e.properties, hproperties⟩, next, hnext⟩
  | here, _ :: _ :: rest, _, k + 1, r, n, h, hr, hn => by
    obtain ⟨_, _, _, _, _, _, _, _, _, hrest⟩ := exists_of_hops_cons h
    exact exists_of_hops_eq_ok hrest hr hn

/-! ### One step -/

/-- The error of a path is a fault of it, or the error of a value that it visits. -/
theorem exists_of_toCell_path_eq_error {nodes rels indices : List Value} {e : Malformed}
    (h : (Value.path nodes rels indices).toCell = .error e) :
    HasFault nodes rels indices e ∨
      ∃ w, (Value.path nodes rels indices).Visits w ∧ w.toCell = .error e := by
  rcases except_bind_eq_error.1 h with hnodes | ⟨ns, hns, h⟩
  · rw [pathNodes_eq_mapM] at hnodes
    obtain ⟨v, hv, hfails⟩ := exists_of_mapM_eq_error hnodes
    rcases exists_of_toNode_eq_error hfails with
      ⟨id, labels, properties, rfl, hproperties⟩ | ⟨hv', rfl⟩
    · obtain ⟨key, w, hmem, hw⟩ := exists_of_toEntries_eq_error hproperties
      exact .inr ⟨w, .pathNode hv hmem, hw⟩
    · exact .inl (.node hv hv')
  rcases except_bind_eq_error.1 h with hrels | ⟨links, hlinks, h⟩
  · rw [pathLinks_eq_mapM] at hrels
    obtain ⟨v, hv, hfails⟩ := exists_of_mapM_eq_error hrels
    obtain ⟨hv', rfl⟩ := eq_of_toLink_eq_error hfails
    exact .inl (.relationship hv hv')
  rcases except_bind_eq_error.1 h with hindices | ⟨numbers, hnumbers, h⟩
  · obtain ⟨v, hv, hv', rfl⟩ := exists_of_indexNumbers_eq_error hindices
    exact .inl (.index hv hv')
  rw [pathNodes_eq_mapM] at hns
  rw [pathLinks_eq_mapM] at hlinks
  have hns := mapM_eq_ok.1 hns
  have hlinks := mapM_eq_ok.1 hlinks
  cases hns with
  | nil => cases h
  | @cons v first vs ns hfirst hrest =>
    have hnodes : v :: vs ≠ [] := List.cons_ne_nil v vs
    obtain ⟨k, r, n, hr, hn, hfails⟩ := exists_of_hops_eq_error (except_return_eq_error.1 h)
    obtain rfl := eq_map_of_indexNumbers hnumbers
    have hpair : IsPair (numbers.map .int) r n := isPair_map_int.2 ⟨k, hr, hn⟩
    rcases hfails with ⟨hlink, rfl⟩ | ⟨hnext, rfl⟩ | ⟨link, hlink, hfails⟩
    · rw [link?_eq_none_iff, ← hlinks.length_eq] at hlink
      exact .inl (.relationshipIndex hnodes hpair hlink)
    · rw [node?_eq_none_iff, List.length_cons, ← hrest.length_eq] at hnext
      exact .inl (.nodeIndex hnodes hpair hnext)
    · obtain ⟨hzero, hlink⟩ := link?_eq_some.1 hlink
      obtain ⟨rel, hrel, hto⟩ := exists_getElem?_of_forall₂ hlinks.flip hlink
      obtain ⟨id, name, properties, rfl, rfl⟩ := toLink_eq_ok.1 hto
      obtain ⟨key, w, hmem, hw⟩ := exists_of_toEntries_eq_error (except_return_eq_error.1 hfails)
      exact .inr ⟨w, .hop hnodes hpair hzero hrel hmem, hw⟩

theorem exists_of_toCell_eq_error {v : Value} {e : Malformed} (h : v.toCell = .error e) :
    (∃ nodes rels indices, v = .path nodes rels indices ∧ HasFault nodes rels indices e) ∨
      ∃ w, v.Visits w ∧ w.toCell = .error e := by
  unfold Value.toCell at h
  split at h
  case h_1 id labels properties =>
    obtain ⟨key, w, hmem, hw⟩ := exists_of_toEntries_eq_error (except_return_eq_error.1 h)
    exact .inr ⟨w, .nodeProperty hmem, hw⟩
  case h_2 id source target name properties =>
    obtain ⟨key, w, hmem, hw⟩ := exists_of_toEntries_eq_error (except_return_eq_error.1 h)
    exact .inr ⟨w, .relationProperty hmem, hw⟩
  case h_3 nodes rels indices =>
    exact (exists_of_toCell_path_eq_error h).imp_left fun hfault =>
      ⟨nodes, rels, indices, rfl, hfault⟩
  case h_4 items =>
    rw [toCells_eq_mapM] at h
    obtain ⟨w, hw, hfails⟩ := exists_of_mapM_eq_error (except_return_eq_error.1 h)
    exact .inr ⟨w, .item hw, hfails⟩
  case h_5 => cases h
  case h_6 => cases h

/-- The parts of a path that has a cell. -/
theorem exists_of_toCell_path_eq_ok {nodes rels indices : List Value} {c : Cell}
    (h : (Value.path nodes rels indices).toCell = .ok c) :
    ∃ ns links numbers, List.Forall₂ (fun v n => toNode v = .ok n) nodes ns ∧
      List.Forall₂ (fun v l => toLink v = .ok l) rels links ∧ indices = numbers.map .int ∧
      (nodes ≠ [] → ∃ here es, hops ns links here numbers = .ok es) := by
  obtain ⟨ns, hns, h⟩ := except_bind_eq_ok.1 h
  obtain ⟨links, hlinks, h⟩ := except_bind_eq_ok.1 h
  obtain ⟨numbers, hnumbers, h⟩ := except_bind_eq_ok.1 h
  rw [pathNodes_eq_mapM] at hns
  rw [pathLinks_eq_mapM] at hlinks
  refine ⟨ns, links, numbers, mapM_eq_ok.1 hns, mapM_eq_ok.1 hlinks,
    eq_map_of_indexNumbers hnumbers, fun hne => ?_⟩
  cases ns with
  | nil => exact absurd (List.forall₂_nil_right_iff.1 (mapM_eq_ok.1 hns)) hne
  | cons first ns =>
    obtain ⟨es, hes, -⟩ := except_map_eq_ok.1 h
    exact ⟨first.id, es, hes⟩

/-- A path that has a cell is not malformed. -/
theorem not_isMalformed_of_toCell {nodes rels indices : List Value} {c : Cell}
    (h : (Value.path nodes rels indices).toCell = .ok c) : ¬ IsMalformed nodes rels indices := by
  obtain ⟨ns, links, numbers, hns, hlinks, rfl, hhops⟩ := exists_of_toCell_path_eq_ok h
  rintro ⟨e, hfault⟩
  cases hfault with
  | node hmem hne =>
    obtain ⟨n, -, hn⟩ := exists_of_mem_forall₂ hns.flip hmem
    obtain ⟨id, labels, properties, rfl⟩ := exists_of_toNode_eq_ok hn
    exact hne id labels properties rfl
  | relationship hmem hne =>
    obtain ⟨l, -, hl⟩ := exists_of_mem_forall₂ hlinks.flip hmem
    obtain ⟨id, name, properties, rfl, -⟩ := toLink_eq_ok.1 hl
    exact hne id name properties rfl
  | index hmem hne =>
    obtain ⟨n, -, rfl⟩ := List.mem_map.1 hmem
    exact hne n rfl
  | relationshipIndex hnodes hpair hout =>
    obtain ⟨here, es, hes⟩ := hhops hnodes
    obtain ⟨k, hr, hn⟩ := isPair_map_int.1 hpair
    obtain ⟨link, hlink, -, -⟩ := exists_of_hops_eq_ok hes hr hn
    rw [hlinks.length_eq, ← link?_eq_none_iff, hlink] at hout
    cases hout
  | nodeIndex hnodes hpair hout =>
    obtain ⟨here, es, hes⟩ := hhops hnodes
    obtain ⟨k, hr, hn⟩ := isPair_map_int.1 hpair
    obtain ⟨-, -, -, next, hnext⟩ := exists_of_hops_eq_ok hes hr hn
    rw [hns.length_eq, ← node?_eq_none_iff, hnext] at hout
    cases hout

/-- Where a value has a cell, every value that it visits has one. -/
theorem exists_of_visits {v w : Value} (h : v.Visits w) {c : Cell} (hc : v.toCell = .ok c) :
    ∃ c', w.toCell = .ok c' := by
  cases h with
  | item hmem =>
    obtain ⟨cells, hcells, -⟩ := except_map_eq_ok.1 hc
    rw [toCells_eq_mapM] at hcells
    obtain ⟨c', -, hc'⟩ := exists_of_mem_forall₂ (mapM_eq_ok.1 hcells).flip hmem
    exact ⟨c', hc'⟩
  | nodeProperty hmem =>
    obtain ⟨cells, hcells, -⟩ := except_map_eq_ok.1 hc
    exact exists_of_toEntries_eq_ok hcells hmem
  | relationProperty hmem =>
    obtain ⟨cells, hcells, -⟩ := except_map_eq_ok.1 hc
    exact exists_of_toEntries_eq_ok hcells hmem
  | pathNode hnode hmem =>
    obtain ⟨ns, _, _, hns, -, -, -⟩ := exists_of_toCell_path_eq_ok hc
    obtain ⟨n, -, hn⟩ := exists_of_mem_forall₂ hns.flip hnode
    obtain ⟨cells, hcells, -⟩ := except_map_eq_ok.1 hn
    exact exists_of_toEntries_eq_ok hcells hmem
  | hop hnodes hpair hr hrel hmem =>
    obtain ⟨ns, links, numbers, -, hlinks, rfl, hhops⟩ := exists_of_toCell_path_eq_ok hc
    obtain ⟨here, es, hes⟩ := hhops hnodes
    obtain ⟨k, hr, hn⟩ := isPair_map_int.1 hpair
    obtain ⟨link, hlink, ⟨cells, hcells⟩, -⟩ := exists_of_hops_eq_ok hes hr hn
    obtain ⟨link', hlink', hto⟩ := exists_getElem?_of_forall₂ hlinks hrel
    obtain rfl : link = link' := Option.some.inj ((link?_eq_some.1 hlink).2.symm.trans hlink')
    obtain ⟨_, _, _, ⟨⟩, rfl⟩ := toLink_eq_ok.1 hto
    obtain ⟨es, hes, -⟩ := except_map_eq_ok.1 hcells
    exact exists_of_toEntries_eq_ok hes hmem

/-! ### At any depth -/

/-- An error is a fault of a path that is converted. By induction on the size of the value: an error
is a fault of the value itself, or comes from a value that it visits, which is smaller. -/
theorem exists_fault_of_toCell {e : Malformed} : ∀ {v : Value}, v.toCell = .error e →
    ∃ nodes rels indices, v.Converts (.path nodes rels indices) ∧ HasFault nodes rels indices e
  | v, h => by
    rcases exists_of_toCell_eq_error h with ⟨nodes, rels, indices, rfl, hfault⟩ | ⟨w, hw, h⟩
    · exact ⟨nodes, rels, indices, .refl, hfault⟩
    · have := hw.sizeOf_lt
      obtain ⟨nodes, rels, indices, hpath, hfault⟩ := exists_fault_of_toCell h
      exact ⟨nodes, rels, indices, .head hw hpath, hfault⟩
termination_by v => sizeOf v

theorem exists_of_converts {v w : Value} (h : v.Converts w) {c : Cell} (hc : v.toCell = .ok c) :
    ∃ c', w.toCell = .ok c' := by
  induction h with
  | refl => exact ⟨c, hc⟩
  | tail _ hvisits ih =>
    obtain ⟨c', hc'⟩ := ih
    exact exists_of_visits hvisits hc'

/-- **What has no cell.** The conversion of a value fails if and only if a path is malformed among
the values that are converted together with it; otherwise the value has a cell. -/
theorem Value.fails_iff_malformed (v : Value) :
    ((∃ e, v.toCell = .error e) ↔ ∃ nodes rels indices,
      v.Converts (.path nodes rels indices) ∧ IsMalformed nodes rels indices) ∧
    ((∃ c, v.toCell = .ok c) ↔ ∀ nodes rels indices,
      v.Converts (.path nodes rels indices) → ¬ IsMalformed nodes rels indices) := by
  have hok {c : Cell} (hc : v.toCell = .ok c) (nodes rels indices : List Value)
      (hpath : v.Converts (.path nodes rels indices)) : ¬ IsMalformed nodes rels indices := by
    obtain ⟨c', hc'⟩ := exists_of_converts hpath hc
    exact not_isMalformed_of_toCell hc'
  have herror {e : Malformed} (he : v.toCell = .error e) : ∃ nodes rels indices,
      v.Converts (.path nodes rels indices) ∧ IsMalformed nodes rels indices := by
    obtain ⟨nodes, rels, indices, hpath, hfault⟩ := exists_fault_of_toCell he
    exact ⟨nodes, rels, indices, hpath, e, hfault⟩
  cases hv : v.toCell with
  | error e =>
    refine ⟨iff_of_true ⟨e, rfl⟩ (herror hv), iff_of_false (fun ⟨c, hc⟩ => by cases hc) ?_⟩
    obtain ⟨nodes, rels, indices, hpath, hmalformed⟩ := herror hv
    exact fun h => h nodes rels indices hpath hmalformed
  | ok c =>
    refine ⟨iff_of_false (fun ⟨e, he⟩ => by cases he) ?_, iff_of_true ⟨c, rfl⟩ (hok hv)⟩
    rintro ⟨nodes, rels, indices, hpath, hmalformed⟩
    exact hok hv nodes rels indices hpath hmalformed

/-- The least index of sixty-four bits points to no relationship. -/
example : (Value.list [.path [.node 1 [] []] [.unbound 10 "AST" []]
    [.int (-9223372036854775808), .int 0]]).toCell =
      .error (.relationshipIndex (-9223372036854775808)) := rfl

/-- An index that is left over points nowhere, whatever it is. -/
example : (Value.path [.node 1 [] []] [] [.int 7]).toCell = .ok (.path [⟨1, [], []⟩] []) := rfl

end CodeGraph.Bolt
