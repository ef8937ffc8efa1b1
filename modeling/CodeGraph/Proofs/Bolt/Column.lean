import CodeGraph.Proofs.Bolt.Decoding
import CodeGraph.Proofs.Bolt.Path
import Mathlib.Data.List.Nodup

/-!
# Columns of a record

The store sends the values of a record under columns. The cells of a record come in the order of the
names of its columns, so the order of the columns makes no difference to them. Neither does it to
which column fails: it is the first one by name.

* `Record`, `Record.cells`: what the store sends, and its cells;
* `Record.HasCell`, `ListsCells`, `Record.exists_listsCells`: cells by the names of their columns;
* `Record.FailsIn`, `Record.exists_failsIn_of_cells`: the column that fails;
* `Record.Reorders`, `Record.Reorders.corresponds`: the same columns in another order.
-/

namespace CodeGraph.Bolt

variable {driver : Driver}

/-! ### Values in a row -/

/-- Whether a value stands in a row as this cell. -/
def Value.StandsAs (driver : Driver) (v : Value) (c : Cell) : Prop :=
  ∃ w, v.inRow driver = some w ∧ w.toCell = .ok c

/-- Whether a value that could stand in a row fails with this error there. -/
def Value.FailsWith (driver : Driver) (v : Value) (e : Malformed) : Prop :=
  ∃ w, v.inRow driver = some w ∧ w.toCell = .error e

theorem Value.StandsAs.unique {v : Value} {c c' : Cell} (h : v.StandsAs driver c)
    (h' : v.StandsAs driver c') : c = c' := by
  obtain ⟨w, hw, hc⟩ := h
  obtain ⟨w', hw', hc'⟩ := h'
  obtain rfl := Option.some.inj (hw.symm.trans hw')
  exact Except.ok.inj (hc.symm.trans hc')

theorem Value.FailsWith.not_standsAs {v : Value} {e : Malformed} {c : Cell}
    (h : v.FailsWith driver e) : ¬ v.StandsAs driver c := by
  rintro ⟨w', hw', hc⟩
  obtain ⟨w, hw, he⟩ := h
  obtain rfl := Option.some.inj (hw.symm.trans hw')
  rw [he] at hc
  cases hc

theorem Value.FailsWith.unique {v : Value} {e e' : Malformed} (h : v.FailsWith driver e)
    (h' : v.FailsWith driver e') : e = e' := by
  obtain ⟨w, hw, he⟩ := h
  obtain ⟨w', hw', he'⟩ := h'
  obtain rfl := Option.some.inj (hw.symm.trans hw')
  exact Except.error.inj (he.symm.trans he')

theorem forall₂_standsAs {vs ws : List Value} {cells : List Cell}
    (hrow : allInRow driver vs = some ws) (hcells : toCells ws = .ok cells) :
    List.Forall₂ (Value.StandsAs driver) vs cells := by
  rw [allInRow_eq_some] at hrow
  rw [toCells_eq_mapM, mapM_eq_ok] at hcells
  induction hrow generalizing cells with
  | nil =>
    cases hcells
    exact .nil
  | @cons v w vs ws hw _ ih =>
    obtain ⟨c, cells, hc, hrest, rfl⟩ := List.forall₂_cons_left_iff.1 hcells
    exact .cons ⟨w, hw, hc⟩ (ih hrest)

/-- Cells can be given the names of the values that stand as them. -/
theorem exists_named {es : List (String × Value)} {cells : List Cell}
    (h : List.Forall₂ (fun e c => e.2.StandsAs driver c) es cells) :
    ∃ cs : List (String × Cell), cs.map Prod.fst = es.map Prod.fst ∧ cs.map Prod.snd = cells ∧
      List.Forall₂ (fun e c => c.1 = e.1 ∧ e.2.StandsAs driver c.2) es cs := by
  induction h with
  | nil => exact ⟨[], rfl, rfl, .nil⟩
  | @cons e c es cells hc _ ih =>
    obtain ⟨cs, hnames, hcells, hrest⟩ := ih
    exact ⟨(e.1, c) :: cs, congrArg (e.1 :: ·) hnames, congrArg (c :: ·) hcells,
      .cons ⟨rfl, hc⟩ hrest⟩

/-- Whether two errors are the same, or say both that a row cannot be decoded. -/
inductive Malformed.Same : Malformed → Malformed → Prop
  | refl {e : Malformed} : Same e e
  | row {s s' : String} : Same (.row s) (.row s')

/-- Whether these are the cells that stand in some places, in the order of the places. -/
structure ListsCells {κ : Type} (before : κ → κ → Prop) (has : κ → Cell → Prop)
    (l : List (κ × Cell)) : Prop where
  sorted : l.Pairwise fun x y => before x.1 y.1
  mem (k : κ) (c : Cell) : (k, c) ∈ l ↔ has k c

/-- The fields whose columns have a name. -/
def namedFields (fields : List (Value × Value)) : List (String × Value) :=
  fields.filterMap fun
    | (.text name, v) => some (name, v)
    | _ => none

/-- The columns of a row of a result, as the store sends them, and their values. -/
structure Record where
  columns : List Value
  values : List Value

namespace Record

variable {r r' : Record} {name : String} {v : Value} {c : Cell}

/-- The columns, each with its value. -/
def fields (r : Record) : List (Value × Value) :=
  r.columns.zip r.values

/-- The columns that have a name, each with its value. -/
def named (r : Record) : List (String × Value) :=
  namedFields r.fields

/-- Whether no two columns have the same name. -/
def IsDistinct (r : Record) : Prop := (r.named.map Prod.fst).Nodup

instance : DecidablePred IsDistinct := fun r => inferInstanceAs (Decidable (r.named.map _).Nodup)

/-- The cells of a record. -/
def cells (driver : Driver) (r : Record) : Except Malformed Row :=
  rowCells driver r.columns r.values

/-- The values of a record as they stand in its row, if they can, in the order of the names. -/
def inRow (driver : Driver) (r : Record) : Option (List Value) :=
  allInRow driver ((rowColumns r.columns r.values).entries.map Prod.snd)

theorem mem_named : (name, v) ∈ r.named ↔ (.text name, v) ∈ r.fields := by
  rw [named, namedFields, List.mem_filterMap]
  constructor
  · rintro ⟨⟨column, v'⟩, hmem, heq⟩
    cases column with
    | text name' =>
      cases heq
      exact hmem
    | _ => cases heq
  · exact fun h => ⟨_, h, rfl⟩

/-! ### Cells by name -/

/-- Whether this is the cell in the column with this name. -/
def HasCell (driver : Driver) (r : Record) (name : String) (c : Cell) : Prop :=
  ∃ v : Value, (.text name, v) ∈ r.fields ∧ v.StandsAs driver c

theorem mem_entries (hr : r.IsDistinct) :
    (name, v) ∈ (rowColumns r.columns r.values).entries ↔ (.text name, v) ∈ r.fields :=
  ((Dict.perm_entries_ofList hr).mem_iff).trans mem_named

theorem cells_eq_ok {cells : List Cell} :
    r.cells driver = .ok cells ↔ ∃ ws, r.inRow driver = some ws ∧ toCells ws = .ok cells := by
  rw [Record.cells, rowCells, inRow]
  cases allInRow driver ((rowColumns r.columns r.values).entries.map Prod.snd) with
  | none => simp
  | some ws => simp

/-- The cells of a record come in the order of the names of their columns. -/
theorem exists_listsCells {cells : List Cell} (hr : r.IsDistinct)
    (h : r.cells driver = .ok cells) :
    ∃ cs, ListsCells (· < ·) (r.HasCell driver) cs ∧ cs.map Prod.snd = cells := by
  obtain ⟨ws, hrow, hcells⟩ := cells_eq_ok.1 h
  obtain ⟨cs, hnames, hcs, hforall⟩ :=
    exists_named (List.forall₂_map_left_iff.1 (forall₂_standsAs hrow hcells))
  refine ⟨cs, ⟨?_, fun name c => ⟨fun hc => ?_, ?_⟩⟩, hcs⟩
  · have hsorted := List.pairwise_map.2 (rowColumns r.columns r.values).sorted
    rw [← hnames] at hsorted
    exact List.pairwise_map.1 hsorted
  · obtain ⟨⟨_, v⟩, he, rfl, hstands⟩ := exists_of_mem_forall₂ hforall hc
    exact ⟨v, (mem_entries hr).1 he, hstands⟩
  · rintro ⟨v, hv, hstands⟩
    -- the cell that is listed under the name of the value is the cell of the value
    obtain ⟨⟨_, c'⟩, hc', rfl, hstands'⟩ :=
      exists_of_mem_forall₂ hforall.flip ((mem_entries hr).2 hv)
    rwa [hstands.unique hstands']

/-! ### The column that fails -/

/-- Whether a record fails in the column with this name, and with this error: it is the first one,
by name, whose value has no cell. -/
structure FailsIn (driver : Driver) (r : Record) (name : String) (e : Malformed) : Prop where
  exists_value : ∃ v : Value, (.text name, v) ∈ r.fields ∧ v.FailsWith driver e
  exists_before : ∀ (name' : String) (v : Value), name' < name → (.text name', v) ∈ r.fields →
    ∃ c, v.StandsAs driver c

theorem FailsIn.not_lt {name name' : String} {e e' : Malformed} (h : r.FailsIn driver name e)
    (h' : r.FailsIn driver name' e') : ¬ name < name' := by
  intro hlt
  obtain ⟨v, hv, hfails⟩ := h.exists_value
  obtain ⟨c, hc⟩ := h'.exists_before name v hlt hv
  exact hfails.not_standsAs hc

/-- A record fails in one column at most. -/
theorem FailsIn.unique (hr : r.IsDistinct) {name name' : String} {e e' : Malformed}
    (h : r.FailsIn driver name e) (h' : r.FailsIn driver name' e') : name = name' ∧ e = e' := by
  obtain rfl : name = name' :=
    String.le_antisymm (String.not_lt.1 (h'.not_lt h)) (String.not_lt.1 (h.not_lt h'))
  obtain ⟨v, hv, hfails⟩ := h.exists_value
  obtain ⟨v', hv', hfails'⟩ := h'.exists_value
  have hvalue := Dict.get?_eq_some_iff.2 ((mem_entries hr).2 hv)
  have hvalue' := Dict.get?_eq_some_iff.2 ((mem_entries hr).2 hv')
  obtain rfl := Option.some.inj (hvalue.symm.trans hvalue')
  exact ⟨rfl, hfails.unique hfails'⟩

/-- Where the conversion of a row fails, it is cut in two: what comes before could be converted. -/
theorem exists_append_of_toCells_eq_error {e : Malformed} :
    ∀ {es : List (String × Value)} {ws : List Value},
      allInRow driver (es.map Prod.snd) = some ws → toCells ws = .error e →
      ∃ front name v back, es = front ++ (name, v) :: back ∧ v.FailsWith driver e ∧
        ∀ x ∈ front, ∃ c, x.2.StandsAs driver c
  | [], _, hrow, h => by cases hrow; cases h
  | (name, v) :: es, _, hrow, h => by
    obtain ⟨w, hw, hrow⟩ := Option.bind_eq_some_iff.1 hrow
    obtain ⟨ws, hws, ⟨⟩⟩ := Option.bind_eq_some_iff.1 hrow
    rcases except_bind_eq_error.1 h with he | ⟨c, hc, h⟩
    · exact ⟨[], name, v, es, rfl, ⟨w, hw, he⟩, by simp⟩
    · obtain ⟨front, name', v', back, rfl, hfails, hfront⟩ :=
        exists_append_of_toCells_eq_error hws (except_return_eq_error.1 h)
      exact ⟨(name, v) :: front, name', v', back, rfl, hfails,
        List.forall_mem_cons.2 ⟨⟨c, w, hw, hc⟩, hfront⟩⟩

/-- A record without cells cannot be decoded, or fails in a column. -/
theorem exists_failsIn_of_cells (hr : r.IsDistinct) {e : Malformed}
    (h : r.cells driver = .error e) :
    r.inRow driver = none ∧ e = .row (driver.complaint r.columns r.values) ∨
      (∃ ws, r.inRow driver = some ws) ∧ ∃ name, r.FailsIn driver name e := by
  rw [Record.cells, rowCells] at h
  rw [inRow]
  cases hrow : allInRow driver ((rowColumns r.columns r.values).entries.map Prod.snd) with
  | none =>
    rw [hrow] at h
    cases h
    exact .inl ⟨rfl, rfl⟩
  | some ws =>
    rw [hrow] at h
    obtain ⟨front, name, v, back, hentries, hfails, hfront⟩ :=
      exists_append_of_toCells_eq_error hrow h
    have hmem : (name, v) ∈ (rowColumns r.columns r.values).entries := by simp [hentries]
    refine .inr ⟨⟨ws, rfl⟩, name, ⟨v, (mem_entries hr).1 hmem, hfails⟩, fun name' v' hlt hv' => ?_⟩
    -- the names are in order, so that the column stands before the one that fails
    have hsorted := (rowColumns r.columns r.values).sorted
    have hv' := (mem_entries hr).2 hv'
    rw [hentries] at hsorted hv'
    obtain ⟨-, hback, -⟩ := List.pairwise_append.1 hsorted
    rcases List.mem_append.1 hv' with hv' | hv'
    · exact hfront _ hv'
    · rcases List.mem_cons.1 hv' with heq | hv'
      · cases heq
        exact absurd hlt (String.lt_irrefl _)
      · exact absurd ((List.pairwise_cons.1 hback).1 _ hv') (String.lt_asymm hlt)

/-! ### The same columns in another order -/

/-- Whether one record has the columns of another in some order, each with its value. -/
def Reorders (r r' : Record) : Prop := r.fields.Perm r'.fields

theorem Reorders.symm (h : r.Reorders r') : r'.Reorders r :=
  List.Perm.symm h

theorem HasCell.reorder (h : r.Reorders r') (hc : r.HasCell driver name c) :
    r'.HasCell driver name c := by
  obtain ⟨v, hv, hstands⟩ := hc
  exact ⟨v, h.mem_iff.1 hv, hstands⟩

/-- Columns in another order give the same cells or the same error, unless the record cannot be
decoded at all. -/
theorem Reorders.corresponds (h : r.Reorders r') (hr : r.IsDistinct) :
    Corresponds (· = ·) Malformed.Same (r.cells driver) (r'.cells driver) := by
  have hcolumns : rowColumns r.columns r.values = rowColumns r'.columns r'.values :=
    Dict.ofList_eq_of_perm hr (h.filterMap _)
  rw [cells, rowCells, cells, rowCells, hcolumns]
  cases allInRow driver ((rowColumns r'.columns r'.values).entries.map Prod.snd) with
  | none => exact .error .row
  | some ws =>
    cases htoCells : toCells ws with
    | ok cells => simp only [htoCells]; exact .ok rfl
    | error e => simp only [htoCells]; exact .error .refl

end Record

end CodeGraph.Bolt
