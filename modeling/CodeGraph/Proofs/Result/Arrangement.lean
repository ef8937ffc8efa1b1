import CodeGraph.Proofs.Bolt.Resending

/-!
# The order of columns

A result is drawn from the cells of its records, and of all nodes with one number the first one
counts. Which one that is depends on the order of the records and on the names of their columns, but
not on the order in which the columns were sent. What does depend on more than that are the texts
and the errors: they can tell in which order maps were walked, and each decoding walks them anew.

* `Spot`, `HasCellAt`, `exists_listsCells`: the cells of a result in the order in which they are
  drawn;
* `ComesFirst`, `mem_firsts_iff_comesFirst`, `ComesFirst.transfer`: the occurrences that count;
* `drawing`, `IsUnaffected`: a result whose columns are sent in another order, where all maps are
  walked as before;
* `IsRestated`, `isRestated_of_resends`: a result whose columns are sent in another order, and whose
  values are decoded again;
* `not_cells_eq_of_resends`: a text and an error that are not the same.
-/

namespace CodeGraph.Bolt

/-- Where a cell stands in a result: the number of its row and the name of its column. -/
structure Spot where
  row : Nat
  column : String

/-- Whether one cell is drawn before another. -/
def Spot.Before (p q : Spot) : Prop := p.row < q.row ∨ p.row = q.row ∧ p.column < q.column

theorem Spot.Before.not_before {p q : Spot} (h : p.Before q) : ¬ q.Before p := by
  rintro (hrow | ⟨hrow, hcolumn⟩)
  · rcases h with hrow' | ⟨hrow', -⟩
    · exact Nat.lt_asymm hrow hrow'
    · exact Nat.ne_of_gt hrow hrow'
  · rcases h with hrow' | ⟨-, hcolumn'⟩
    · exact Nat.ne_of_gt hrow' hrow
    · exact String.lt_asymm hcolumn hcolumn'

section

variable {driver : Driver} {rows rows' : List Record} {p q : Spot} {c : Cell}

/-! ### Cells and their places -/

/-- Whether a result has this cell in a place. -/
def HasCellAt (driver : Driver) (rows : List Record) (p : Spot) (c : Cell) : Prop :=
  ∃ r, rows[p.row]? = some r ∧ r.HasCell driver p.column c

/-- The cells of a record come before those of the records behind it. -/
theorem ListsCells.cons {r : Record} {cs : List (String × Cell)} {placed : List (Spot × Cell)}
    (hr : ListsCells (· < ·) (r.HasCell driver) cs)
    (h : ListsCells Spot.Before (HasCellAt driver rows) placed) :
    ListsCells Spot.Before (HasCellAt driver (r :: rows)) ((cs.map fun x => (⟨0, x.1⟩, x.2)) ++
      placed.map fun x => (⟨x.1.row + 1, x.1.column⟩, x.2)) where
  sorted := by
    rw [List.pairwise_append, List.pairwise_map, List.pairwise_map]
    refine ⟨hr.sorted.imp fun hlt => .inr ⟨rfl, hlt⟩, h.sorted.imp ?_, ?_⟩
    · exact fun hbefore => hbefore.imp Nat.succ_lt_succ (And.imp_left (congrArg (· + 1)))
    · intro x hx y hy
      obtain ⟨x, -, rfl⟩ := List.mem_map.1 hx
      obtain ⟨y, -, rfl⟩ := List.mem_map.1 hy
      exact .inl (Nat.succ_pos _)
  mem := by
    rintro ⟨row, column⟩ c
    cases row with
    | zero => simp [HasCellAt, hr.mem]
    | succ row =>
      -- the other records are one row further down
      have hbehind : (∃ q, (q, c) ∈ placed ∧ q.row = row ∧ q.column = column) ↔
          (⟨row, column⟩, c) ∈ placed := by
        constructor
        · rintro ⟨⟨_, _⟩, hq, rfl, rfl⟩
          exact hq
        · exact fun hq => ⟨_, hq, rfl, rfl⟩
      simpa [HasCellAt, hbehind] using h.mem ⟨row, column⟩ c

/-- The cells of a result come row by row, and in a row by the names of their columns. -/
theorem exists_listsCells {cells : List Row}
    (h : List.Forall₂ (fun r cs => r.cells driver = .ok cs) rows cells)
    (hrows : ∀ r ∈ rows, r.IsDistinct) :
    ∃ placed, ListsCells Spot.Before (HasCellAt driver rows) placed ∧
      placed.map Prod.snd = cells.flatten := by
  induction h with
  | nil => exact ⟨[], ⟨.nil, by simp [HasCellAt]⟩, rfl⟩
  | @cons r cs rows cells hr _ ih =>
    obtain ⟨hdistinct, hrows⟩ := List.forall_mem_cons.1 hrows
    obtain ⟨cs', hfirst, hcs⟩ := Record.exists_listsCells hdistinct hr
    obtain ⟨placed, hrest, hplaced⟩ := ih hrows
    refine ⟨_, hfirst.cons hrest, ?_⟩
    rw [List.map_append, List.map_map, List.map_map, List.flatten_cons, ← hcs, ← hplaced]
    rfl

theorem HasCellAt.exists_of_resends (h : List.Forall₂ Record.Resends rows rows')
    (hc : HasCellAt driver rows p c) :
    ∃ c', HasCellAt driver rows' p c' ∧ c.Alike Prints c' := by
  obtain ⟨r, hr, hc⟩ := hc
  obtain ⟨r', hr', hresends⟩ := exists_getElem?_of_forall₂ h hr
  obtain ⟨c', hc', halike⟩ := hresends.exists_hasCell hc
  exact ⟨c', ⟨r', hr', hc'⟩, halike⟩

theorem HasCellAt.reorder (h : List.Forall₂ Record.Reorders rows rows')
    (hc : HasCellAt driver rows p c) : HasCellAt driver rows' p c := by
  obtain ⟨r, hr, hc⟩ := hc
  obtain ⟨r', hr', hreorders⟩ := exists_getElem?_of_forall₂ h hr
  exact ⟨r', hr', hc.reorder hreorders⟩

theorem forall₂_resends_symm (h : List.Forall₂ Record.Resends rows rows') :
    List.Forall₂ Record.Resends rows' rows :=
  (h.imp fun _ _ => Record.Resends.symm).flip

theorem forall₂_reorders_symm (h : List.Forall₂ Record.Reorders rows rows') :
    List.Forall₂ Record.Reorders rows' rows :=
  (h.imp fun _ _ => Record.Reorders.symm).flip

end

/-! ### Occurrences that count -/

section

variable {α : Type} {driver : Driver} {rows rows' : List Record} {occurs : Cell → List α}
  {number : α → Int} {p : Spot} {a : α}

/-- Whether something that occurs in a cell is the first one with its number in a result. -/
structure ComesFirst (driver : Driver) (rows : List Record) (occurs : Cell → List α)
    (number : α → Int) (p : Spot) (a : α) : Prop where
  /-- In its cell, none with its number comes before it. -/
  exists_cell : ∃ c, HasCellAt driver rows p c ∧ a ∈ firsts number (occurs c)
  /-- In the cells before, there is none with its number. -/
  isNew (q : Spot) (c : Cell) : q.Before p → HasCellAt driver rows q c →
    ∀ b ∈ occurs c, number b ≠ number a

/-- What comes first stays in its place, where the cells of two results belong to each other place
by place, and so does what occurs in them. -/
theorem ComesFirst.transfer {S : Cell → Cell → Prop} {R : α → α → Prop}
    (hoccurs : ∀ c c', S c c' → List.Forall₂ R (occurs c) (occurs c'))
    (hnumber : ∀ a b, R a b → number a = number b)
    (hforth : ∀ q c, HasCellAt driver rows q c → ∃ c', HasCellAt driver rows' q c' ∧ S c c')
    (hback : ∀ q c, HasCellAt driver rows' q c → ∃ c', HasCellAt driver rows q c' ∧ S c c')
    (ha : ComesFirst driver rows occurs number p a) :
    ∃ a', ComesFirst driver rows' occurs number p a' ∧ R a a' := by
  obtain ⟨⟨c, hc, hfirst⟩, hnew⟩ := ha
  obtain ⟨c', hc', hS⟩ := hforth p c hc
  obtain ⟨a', ha', hR⟩ :=
    exists_of_mem_forall₂ (forall₂_firsts hnumber (hoccurs c c' hS)).flip hfirst
  refine ⟨a', ⟨⟨c', hc', ha'⟩, fun q d hq hd b hb => ?_⟩, hR⟩
  obtain ⟨d', hd', hS'⟩ := hback q d hd
  obtain ⟨b', hb', hRb⟩ := exists_of_mem_forall₂ (hoccurs d d' hS').flip hb
  rw [hnumber b b' hRb, ← hnumber a a' hR]
  exact hnew q d' hq hd' b' hb'

/-- Columns that are decoded again have the same occurrences that count, but for their texts. -/
theorem ComesFirst.exists_of_resends {R : α → α → Prop}
    (hoccurs : ∀ c c' : Cell, c.Alike Prints c' → List.Forall₂ R (occurs c) (occurs c'))
    (hnumber : ∀ a b, R a b → number a = number b) (h : List.Forall₂ Record.Resends rows rows')
    (ha : ComesFirst driver rows occurs number p a) :
    ∃ a', ComesFirst driver rows' occurs number p a' ∧ R a a' :=
  ha.transfer hoccurs hnumber (fun _ _ hc => hc.exists_of_resends h)
    (fun _ _ hc => hc.exists_of_resends (forall₂_resends_symm h))

theorem ComesFirst.reorder (h : List.Forall₂ Record.Reorders rows rows')
    (ha : ComesFirst driver rows occurs number p a) :
    ComesFirst driver rows' occurs number p a := by
  obtain ⟨_, ha', rfl⟩ := ha.transfer (S := (· = ·)) (R := (· = ·))
    (fun _ _ heq => heq ▸ List.forall₂_same.2 fun _ _ => rfl) (fun _ _ heq => heq ▸ rfl)
    (fun _ c hc => ⟨c, hc.reorder h, rfl⟩)
    (fun _ c hc => ⟨c, hc.reorder (forall₂_reorders_symm h), rfl⟩)
  exact ha'

theorem comesFirst_iff_of_reorders (h : List.Forall₂ Record.Reorders rows rows') :
    ComesFirst driver rows occurs number p a ↔ ComesFirst driver rows' occurs number p a :=
  ⟨fun ha => ha.reorder h, fun ha => ha.reorder (forall₂_reorders_symm h)⟩

/-- What is seen first in the cells of a result comes first in a place. -/
theorem mem_firsts_iff_comesFirst {cells : List Row}
    (h : List.Forall₂ (fun r cs => r.cells driver = .ok cs) rows cells)
    (hrows : ∀ r ∈ rows, r.IsDistinct) :
    a ∈ firsts number (cells.flatten.flatMap occurs) ↔
      ∃ p, ComesFirst driver rows occurs number p a := by
  obtain ⟨placed, hlists, hplaced⟩ := exists_listsCells h hrows
  rw [← hplaced, List.flatMap_map,
    mem_firsts_flatMap (fun _ _ hbefore => hbefore.not_before) hlists.sorted]
  constructor
  · rintro ⟨⟨p, c⟩, hp, ha, hnew⟩
    exact ⟨p, ⟨c, (hlists.mem p c).1 hp, ha⟩,
      fun q c' hq hc' => hnew (q, c') ((hlists.mem q c').2 hc') hq⟩
  · rintro ⟨p, ⟨c, hp, ha⟩, hnew⟩
    exact ⟨(p, c), (hlists.mem p c).2 hp, ha,
      fun x hx hbefore => hnew x.1 x.2 hbefore ((hlists.mem x.1 x.2).1 hx)⟩

/-- What is drawn of what is seen first is what comes first in a place. -/
theorem mem_map_firsts_iff {β : Type} {cells : List Row}
    (h : rows.mapM (Record.cells driver) = .ok cells) (hrows : ∀ r ∈ rows, r.IsDistinct)
    (occurs : Cell → List α) (number : α → Int) (drawn : α → β) (b : β) :
    b ∈ (firsts number (cells.flatten.flatMap occurs)).map drawn ↔
      ∃ p a, ComesFirst driver rows occurs number p a ∧ b = drawn a := by
  simp only [List.mem_map, mem_firsts_iff_comesFirst (mapM_eq_ok.1 h) hrows]
  constructor
  · rintro ⟨a, ⟨p, ha⟩, rfl⟩
    exact ⟨p, a, ha, rfl⟩
  · rintro ⟨p, a, ha, rfl⟩
    exact ⟨a, ⟨p, ha⟩, rfl⟩

end

/-! ### Drawings -/

section

variable {driver : Driver} {rows rows' : List Record}

/-- The drawing of a result as the store sends it. -/
def drawing (driver : Driver) (rows : List Record) : Except Malformed Drawing := do
  return .ofRows (← rows.mapM (Record.cells driver))

theorem mem_nodes_of_drawing {d : Drawing} (hd : drawing driver rows = .ok d)
    (hrows : ∀ r ∈ rows, r.IsDistinct) (n' : DrawnNode) : n' ∈ d.nodes ↔
      ∃ p n, ComesFirst driver rows Cell.nodes StoreNode.id p n ∧ n' = n.drawn := by
  obtain ⟨cells, hmapM, rfl⟩ := except_map_eq_ok.1 hd
  rw [← Array.mem_toList_iff, Drawing.toList_nodes_ofRows, Cell.flatMap_nodesAll,
    mem_map_firsts_iff hmapM hrows]

theorem mem_edges_of_drawing {d : Drawing} (hd : drawing driver rows = .ok d)
    (hrows : ∀ r ∈ rows, r.IsDistinct) (e' : DrawnEdge) : e' ∈ d.edges ↔
      ∃ p e, ComesFirst driver rows Cell.edges StoreEdge.id p e ∧ e' = e.drawn := by
  obtain ⟨cells, hmapM, rfl⟩ := except_map_eq_ok.1 hd
  rw [← Array.mem_toList_iff, Drawing.toList_edges_ofRows, Cell.flatMap_edgesAll,
    mem_map_firsts_iff hmapM hrows]

/-- Drawings correspond as the rows do of which they come, and fail as one row fails. -/
theorem corresponds_drawing {R : Row → Row → Prop} {S : Drawing → Drawing → Prop}
    {E : Record → Record → Malformed → Malformed → Prop}
    (hdrawings : ∀ cells cells', List.Forall₂ R cells cells' → S (.ofRows cells) (.ofRows cells'))
    (h : List.Forall₂ (fun r r' => Corresponds R (E r r') (r.cells driver) (r'.cells driver))
      rows rows') :
    Corresponds S
      (fun e e' => ∃ (i : Nat) (r r' : Record), rows[i]? = some r ∧ rows'[i]? = some r' ∧
        E r r' e e')
      (drawing driver rows) (drawing driver rows') := by
  have hmapM := corresponds_mapM h
  rw [drawing, drawing]
  generalize rows.mapM (Record.cells driver) = x at hmapM ⊢
  generalize rows'.mapM (Record.cells driver) = x' at hmapM ⊢
  cases hmapM with
  | ok hcells => exact .ok (hdrawings _ _ hcells)
  | error he => exact .error he

/-- Whether nothing comes of a change to the columns of a result, but for what is said of a row that
cannot be decoded. -/
structure IsUnaffected (driver : Driver) (rows rows' : List Record) : Prop where
  /-- Each row has the same cells, or fails with the same error. -/
  cells : List.Forall₂ (fun r r' => Corresponds (· = ·) Malformed.Same (r.cells driver)
    (r'.cells driver)) rows rows'
  /-- The whole result has the same drawing, or fails with the same error. -/
  drawing : Corresponds (· = ·) Malformed.Same (drawing driver rows) (drawing driver rows')
  /-- Of the nodes with one number, the same one counts, which stands in the same place. -/
  node (p : Spot) (n : StoreNode Cell) : ComesFirst driver rows Cell.nodes StoreNode.id p n ↔
    ComesFirst driver rows' Cell.nodes StoreNode.id p n
  /-- And so it is with the edges. -/
  edge (p : Spot) (e : StoreEdge Cell) : ComesFirst driver rows Cell.edges StoreEdge.id p e ↔
    ComesFirst driver rows' Cell.edges StoreEdge.id p e

/-- The order of columns makes no difference as long as each map is walked as before. -/
theorem isUnaffected_of_reorders (h : List.Forall₂ Record.Reorders rows rows')
    (hrows : ∀ r ∈ rows, r.IsDistinct) : IsUnaffected driver rows rows' := by
  have hcells : List.Forall₂ (fun r r' => Corresponds (· = ·) Malformed.Same (r.cells driver)
      (r'.cells driver)) rows rows' :=
    ((List.forall₂_and_left ..).2 ⟨hrows, h⟩).imp fun _ _ hr => hr.2.corresponds hr.1
  constructor
  case cells => exact hcells
  case drawing =>
    have hdrawings (cells cells' : List Row) (heq : List.Forall₂ (· = ·) cells cells') :
        Drawing.ofRows cells = Drawing.ofRows cells' := by
      rw [List.forall₂_eq_eq_eq] at heq
      rw [heq]
    refine (corresponds_drawing hdrawings hcells).mono (fun _ _ heq => heq) ?_
    rintro e e' ⟨_, _, _, _, _, hsame⟩
    exact hsame
  case node => exact fun _ _ => comesFirst_iff_of_reorders h
  case edge => exact fun _ _ => comesFirst_iff_of_reorders h

/-- What comes of a result whose columns are sent in another order, and whose values are decoded
again. -/
structure IsRestated (driver : Driver) (rows rows' : List Record) : Prop where
  /-- Each row has the same cells but for their texts, or has none and fails in the same column. -/
  cells : List.Forall₂ (fun r r' => Corresponds (List.Forall₂ (Cell.Alike Prints))
    (Record.FailAlike driver r r') (r.cells driver) (r'.cells driver)) rows rows'
  /-- The whole result has the same drawing but for the texts in it, or fails in the same row. -/
  drawing : Corresponds (Drawing.Alike Prints)
    (fun e e' => ∃ (i : Nat) (r r' : Record), rows[i]? = some r ∧ rows'[i]? = some r' ∧
      Record.FailAlike driver r r' e e')
    (drawing driver rows) (drawing driver rows')
  /-- Of the nodes with one number, the same one counts, which stands in the same place. -/
  node (p : Spot) (n : StoreNode Cell) : ComesFirst driver rows Cell.nodes StoreNode.id p n →
    ∃ n', ComesFirst driver rows' Cell.nodes StoreNode.id p n' ∧ n.Matches (Cell.Alike Prints) n'
  /-- And so it is with the edges. -/
  edge (p : Spot) (e : StoreEdge Cell) : ComesFirst driver rows Cell.edges StoreEdge.id p e →
    ∃ e', ComesFirst driver rows' Cell.edges StoreEdge.id p e' ∧ e.Matches (Cell.Alike Prints) e'
  /-- The nodes that count are those that are drawn. -/
  mem_nodes (d : Drawing) : Bolt.drawing driver rows = .ok d → ∀ n', n' ∈ d.nodes ↔
    ∃ p n, ComesFirst driver rows Cell.nodes StoreNode.id p n ∧ n' = n.drawn
  mem_edges (d : Drawing) : Bolt.drawing driver rows = .ok d → ∀ e', e' ∈ d.edges ↔
    ∃ p e, ComesFirst driver rows Cell.edges StoreEdge.id p e ∧ e' = e.drawn
  /-- A row has the very same cells if none of its texts lists the properties of anything. -/
  steady : List.Forall₂ (fun r r' => r.IsSteady driver → ∀ cells, r.cells driver = .ok cells →
    r'.cells driver = .ok cells) rows rows'
  /-- And so the drawing is the very same if none does. -/
  steady_drawing (d : Drawing) : (∀ r ∈ rows, r.IsSteady driver) →
    Bolt.drawing driver rows = .ok d → Bolt.drawing driver rows' = .ok d

theorem isRestated_of_forall₂_resends (h : List.Forall₂ Record.Resends rows rows')
    (hrows : ∀ r ∈ rows, r.IsDistinct) : IsRestated driver rows rows' := by
  have hresends := (List.forall₂_and_left ..).2 ⟨hrows, h⟩
  have hcells : List.Forall₂ (fun r r' => Corresponds (List.Forall₂ (Cell.Alike Prints))
      (Record.FailAlike driver r r') (r.cells driver) (r'.cells driver)) rows rows' :=
    hresends.imp fun _ _ hr => hr.2.corresponds hr.1
  constructor
  case cells => exact hcells
  case drawing => exact corresponds_drawing (fun _ _ => Drawing.alike_ofRows) hcells
  case node =>
    exact fun _ _ hn => hn.exists_of_resends (fun _ _ hc => hc.nodes) (fun _ _ hn => hn.id_eq) h
  case edge =>
    exact fun _ _ he => he.exists_of_resends (fun _ _ hc => hc.edges) (fun _ _ he => he.id_eq) h
  case mem_nodes => exact fun _ hd => mem_nodes_of_drawing hd hrows
  case mem_edges => exact fun _ hd => mem_edges_of_drawing hd hrows
  case steady => exact hresends.imp fun _ _ hr hsteady _ => hsteady.cells_eq hr.2 hr.1
  case steady_drawing =>
    intro d hsteady hd
    obtain ⟨cells, hmapM, rfl⟩ := except_map_eq_ok.1 hd
    have hsame := exists_forall₂_of_forall₂ (s := (· = ·))
      (((List.forall₂_and_left ..).2 ⟨hsteady, hresends⟩).imp fun _ _ hr cells hcells =>
        ⟨cells, hr.1.cells_eq hr.2.2 hr.2.1 hcells, rfl⟩) (mapM_eq_ok.1 hmapM)
    obtain ⟨cells', hcells', heq⟩ := hsame
    rw [List.forall₂_eq_eq_eq] at heq
    exact except_map_eq_ok.2 ⟨cells, mapM_eq_ok.2 (heq ▸ hcells'), rfl⟩

/-- **The order of columns makes no difference, but for the order in which maps are walked.** If no
record has two columns of one name, then in whatever order the columns are sent, and in whatever
order the maps are walked that are decoded again, each record has the same cells but for texts, or
fails in the same column. So the drawing is the same, too: of the nodes with one number, and of the
edges, the one in the first row counts, and in a row the one in the column whose name comes first.
Where the maps are walked as before, or where no text tells how, the texts are the same as well. -/
theorem isRestated_of_resends {rows rows' : List Record}
    (h : List.Forall₂ Record.Resends rows rows') (hrows : ∀ r ∈ rows, r.IsDistinct) :
    IsRestated driver rows rows' ∧ IsRestated driver rows' rows ∧
      (List.Forall₂ Record.Reorders rows rows' → IsUnaffected driver rows rows') := by
  have hrows' : ∀ r' ∈ rows', r'.IsDistinct := by
    intro r' hr'
    obtain ⟨r, hr, hresends⟩ := exists_of_mem_forall₂ h hr'
    exact hresends.isDistinct (hrows r hr)
  exact ⟨isRestated_of_forall₂_resends h hrows,
    isRestated_of_forall₂_resends (forall₂_resends_symm h) hrows',
    fun hreorders => isUnaffected_of_reorders hreorders hrows⟩

/-- A node that occurs more than once. -/
def block (properties : List (String × Value)) : Value :=
  .node 7 [.text "Block"] properties

/-- A row with a node that occurs twice. The columns are not in the order of their names, and one
has no name. -/
def scattered (v : Value) : Record :=
  ⟨[.text "p", .text "n", .int 0, .text "b"],
    [.path [block [("name", .text "p")], .node 8 [] []] [.unbound 10 "AST" []] [.int 1, .int 1], v,
      .null, .list [.relation 10 8 7 "EOG" []]]⟩

/-- Another row with the same node. -/
def another : Record :=
  ⟨[.text "z", .text "a"], [.node 9 [] [], block [("name", .text "a")]]⟩

/-- A row with its columns the other way round. -/
def Record.reversed (r : Record) : Record :=
  ⟨r.columns.reverse, r.values.reverse⟩

/-- Both rows. -/
def sent : List Record :=
  [scattered (block [("line", .int 3), ("name", .text "n")]), another]

/-- Both rows with their columns the other way round, and the properties of one node walked in
another order. -/
def resent : List Record :=
  [(scattered (block [("name", .text "n"), ("line", .int 3)])).reversed, another.reversed]

theorem isRestated_of_resends_sent :
    List.Forall₂ Record.Resends sent resent ∧ (∀ r ∈ sent, r.IsDistinct) ∧
      (∃ d, drawing .timeless sent = .ok d ∧
        d.nodes.toList.map (fun n => (n.id, n.title)) =
          [(7, [("line", "3"), ("name", "n")]), (8, []), (9, [])] ∧
        d.edges.toList.map (fun e => (e.id, e.label)) = [(10, "EOG")]) ∧
      IsRestated .timeless sent resent := by
  have hnode : (block [("line", .int 3), ("name", .text "n")]).Redecodes
      (block [("name", .text "n"), ("line", .int 3)]) :=
    .node (.cons (.refl _) .nil) (rewalks_of_perm (by decide) (.swap ..))
  have hscattered : (scattered (block [("line", .int 3), ("name", .text "n")])).Resends
      (scattered (block [("name", .text "n"), ("line", .int 3)])).reversed := by
    refine ⟨(scattered (block [("name", .text "n"), ("line", .int 3)])).fields, ?_,
      (List.reverse_perm _).symm⟩
    exact .cons ⟨.refl _, .refl _⟩ (.cons ⟨.refl _, hnode⟩ (.cons ⟨.refl _, .refl _⟩
      (.cons ⟨.refl _, .refl _⟩ .nil)))
  have hresends : List.Forall₂ Record.Resends sent resent :=
    .cons hscattered (.cons (Record.Reorders.resends (.swap ..)) .nil)
  have hdistinct : ∀ r ∈ sent, r.IsDistinct := by decide
  exact ⟨hresends, hdistinct, ⟨_, rfl, by decide +kernel⟩,
    (isRestated_of_resends hresends hdistinct).1⟩

/-! ### What the order of a walk can tell -/

/-- A row with a node in a map, whose properties are written in the order in which they are walked.
-/
def told (properties : List (String × Value)) : Record :=
  ⟨[.text "m"], [.map [("k", .node 1 [] properties)]]⟩

/-- A row with a node of which no property can be converted, so that the first one counts. -/
def faulty (properties : List (String × Value)) : Record :=
  ⟨[.text "n"], [.node 1 [] properties]⟩

/-- A path of one node whose only index points to no relationship. -/
def stray (index : Int) : Value :=
  .path [.node 1 [] []] [] [.int index, .int 0]

/-- The columns stay where they are, and still neither the texts nor the errors are the same. -/
theorem not_cells_eq_of_resends :
    (¬ ∀ r r' : Record, r.IsDistinct → r.Resends r' → r.cells .timeless = r'.cells .timeless) ∧
      (told [("a", .null), ("z", .null)]).cells .timeless ≠
        (told [("z", .null), ("a", .null)]).cells .timeless ∧
      (faulty [("a", stray 5), ("z", stray 6)]).cells .timeless =
        .error (.relationshipIndex 5) ∧
      (faulty [("z", stray 6), ("a", stray 5)]).cells .timeless =
        .error (.relationshipIndex 6) := by
  have htold : (told [("a", .null), ("z", .null)]).cells .timeless ≠
      (told [("z", .null), ("a", .null)]).cells .timeless := by
    have hfirst : (told [("a", .null), ("z", .null)]).cells .timeless =
        .ok [.text (Value.map [("k", .node 1 [] [("a", .null), ("z", .null)])]).plain] := rfl
    have hsecond : (told [("z", .null), ("a", .null)]).cells .timeless =
        .ok [.text (Value.map [("k", .node 1 [] [("z", .null), ("a", .null)])]).plain] := rfl
    rw [hfirst, hsecond]
    intro h
    simp only [Except.ok.injEq, List.cons.injEq, Cell.text.injEq, and_true] at h
    exact absurd h (by decide +kernel)
  refine ⟨fun h => htold (h _ _ (by decide) ?_), htold, rfl, rfl⟩
  have hnode : (Value.node 1 [] [("a", .null), ("z", .null)]).Redecodes
      (.node 1 [] [("z", .null), ("a", .null)]) :=
    .node .nil (rewalks_of_perm (by decide) (.swap ..))
  refine ⟨(told [("z", .null), ("a", .null)]).fields, .cons ⟨.refl _, .map ?_⟩ .nil, .refl _⟩
  exact rewalks_iff.2 ⟨by decide, _, .cons (.mk "k" hnode) .nil, .refl _⟩

end

end CodeGraph.Bolt
