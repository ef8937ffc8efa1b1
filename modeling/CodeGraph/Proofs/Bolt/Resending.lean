import CodeGraph.Proofs.Bolt.Column
import CodeGraph.Proofs.Bolt.Likeness

/-!
# Records that are decoded again

A record that is sent with its columns in another order is also decoded again, and its maps are
walked anew. It has cells if it had some before, and they are like those, column by column. If it
has none, the same column fails, though another error can be found in it.

* `Record.Resends`, `Record.Resends.symm`, `Record.Resends.rewalks`: a record that is decoded again;
* `Record.Resends.exists_hasCell`, `Record.Resends.exists_failsIn`: what becomes of one column;
* `Record.FailAlike`, `Record.Resends.corresponds`: what becomes of the cells;
* `Record.IsSteady`, `Record.IsSteady.cells_eq`: records whose cells stay the same.
-/

namespace CodeGraph.Bolt.Record

variable {driver : Driver} {r r' : Record} {name : String} {v : Value} {c : Cell}

/-- Whether one record has the columns of another in some order, and each value as it is decoded
again. -/
def Resends (r r' : Record) : Prop :=
  ∃ mid, List.Forall₂ (fun f f' => f.1.Redecodes f'.1 ∧ f.2.Redecodes f'.2) r.fields mid ∧
    mid.Perm r'.fields

theorem Reorders.resends (h : r.Reorders r') : r.Resends r' :=
  ⟨r.fields, List.forall₂_same.2 fun _ _ => ⟨.refl _, .refl _⟩, h⟩

theorem Resends.symm (h : r.Resends r') : r'.Resends r := by
  obtain ⟨mid, hmid, hperm⟩ := h
  have hflip : List.Forall₂ (fun f f' => f.1.Redecodes f'.1 ∧ f.2.Redecodes f'.2) mid r.fields :=
    hmid.flip.imp fun _ _ ⟨hcolumn, hvalue⟩ => ⟨hcolumn.symm, hvalue.symm⟩
  exact List.perm_comp_forall₂ hperm.symm hflip

/-- A column is found by its name, with its value as it is decoded again. -/
theorem Resends.exists_field (h : r.Resends r') (hv : (.text name, v) ∈ r.fields) :
    ∃ v', (.text name, v') ∈ r'.fields ∧ v.Redecodes v' := by
  obtain ⟨mid, hmid, hperm⟩ := h
  obtain ⟨⟨column, v'⟩, hmem, hcolumn, hvalue⟩ := exists_of_mem_forall₂ hmid.flip hv
  cases hcolumn
  exact ⟨v', hperm.mem_iff.1 hmem, hvalue⟩

theorem forall₂_namedFields {fields fields' : List (Value × Value)}
    (h : List.Forall₂ (fun f f' => f.1.Redecodes f'.1 ∧ f.2.Redecodes f'.2) fields fields') :
    List.Forall₂ (Keyed Value.Redecodes) (namedFields fields) (namedFields fields') := by
  induction h with
  | nil => exact .nil
  | @cons f f' fields fields' hf _ ih =>
    obtain ⟨column, v⟩ := f
    obtain ⟨column', v'⟩ := f'
    obtain ⟨hcolumn, hvalue⟩ := hf
    cases hcolumn with
    | refl =>
      cases column with
      | text name => exact .cons (.mk name hvalue) ih
      | _ => exact ih
    | _ => exact ih

/-- The columns that have a name are entries that are walked in another order. -/
theorem Resends.rewalks (h : r.Resends r') (hr : r.IsDistinct) :
    Rewalks Value.Redecodes r.named r'.named := by
  obtain ⟨mid, hmid, hperm⟩ := h
  exact rewalks_iff.2 ⟨hr, namedFields mid, forall₂_namedFields hmid, hperm.filterMap _⟩

theorem Resends.isDistinct (h : r.Resends r') (hr : r.IsDistinct) : r'.IsDistinct :=
  (rewalks_iff.1 (h.rewalks hr).symm).1

/-- A record that is decoded again can stand in a row if it could. -/
theorem Resends.exists_inRow (h : r.Resends r') (hr : r.IsDistinct) {ws : List Value}
    (hrow : r.inRow driver = some ws) :
    ∃ ws', r'.inRow driver = some ws' ∧ List.Forall₂ Value.Redecodes ws ws' := by
  obtain ⟨-, mid, hmid, hperm⟩ := rewalks_iff.1 (h.rewalks hr)
  have hkeys : (mid.map Prod.fst).Nodup := map_fst_eq_of_keyed hmid ▸ hr
  have hentries := forall₂_inOrder hmid
  rw [inOrder_eq_of_perm hkeys hperm] at hentries
  refine exists_allInRow ?_ hrow
  refine List.forall₂_map_left_iff.2 (List.forall₂_map_right_iff.2 (hentries.imp ?_))
  intro _ _ hkeyed
  cases hkeyed with
  | mk _ hv => exact staysInRow_of_redecodes hv

theorem exists_standsAs_of_redecodes {v v' : Value} (h : v.Redecodes v') {c : Cell}
    (hc : v.StandsAs driver c) : ∃ c', v'.StandsAs driver c' ∧ c.Alike Prints c' := by
  obtain ⟨w, hw, hc⟩ := hc
  obtain ⟨w', hw', hredecodes⟩ := staysInRow_of_redecodes h w hw
  obtain ⟨c', hc', halike⟩ := hredecodes.stays_prints c hc
  exact ⟨c', ⟨w', hw', hc'⟩, halike⟩

theorem exists_failsWith_of_redecodes {v v' : Value} (h : v.Redecodes v') {e : Malformed}
    (he : v.FailsWith driver e) : ∃ e', v'.FailsWith driver e' := by
  obtain ⟨w, hw, he⟩ := he
  obtain ⟨w', hw', hredecodes⟩ := staysInRow_of_redecodes h w hw
  obtain ⟨e', he'⟩ := hredecodes.exists_error he
  exact ⟨e', w', hw', he'⟩

/-- A column has a cell that is like the one that it had. -/
theorem Resends.exists_hasCell (h : r.Resends r') (hc : r.HasCell driver name c) :
    ∃ c', r'.HasCell driver name c' ∧ c.Alike Prints c' := by
  obtain ⟨v, hv, hstands⟩ := hc
  obtain ⟨v', hv', hredecodes⟩ := h.exists_field hv
  obtain ⟨c', hc', halike⟩ := exists_standsAs_of_redecodes hredecodes hstands
  exact ⟨c', ⟨v', hv', hc'⟩, halike⟩

/-- The column that failed still fails, and none before it does. -/
theorem Resends.exists_failsIn (h : r.Resends r') {e : Malformed} (he : r.FailsIn driver name e) :
    ∃ e', r'.FailsIn driver name e' := by
  obtain ⟨⟨v, hv, hfails⟩, hbefore⟩ := he
  obtain ⟨v', hv', hredecodes⟩ := h.exists_field hv
  obtain ⟨e', he'⟩ := exists_failsWith_of_redecodes hredecodes hfails
  refine ⟨e', ⟨v', hv', he'⟩, fun name' u' hlt hu' => ?_⟩
  obtain ⟨u, hu, hback⟩ := h.symm.exists_field hu'
  obtain ⟨c, hc⟩ := hbefore name' u hlt hu
  obtain ⟨c', hc', -⟩ := exists_standsAs_of_redecodes hback.symm hc
  exact ⟨c', hc'⟩

/-! ### What becomes of the cells -/

/-- Whether two records fail alike: neither can be decoded, or both fail in one column. -/
inductive FailAlike (driver : Driver) (r r' : Record) : Malformed → Malformed → Prop
  | row : FailAlike driver r r' (.row (driver.complaint r.columns r.values))
      (.row (driver.complaint r'.columns r'.values))
  | column {name : String} {e e' : Malformed} (h : r.FailsIn driver name e)
      (h' : r'.FailsIn driver name e') : FailAlike driver r r' e e'

/-- A record that is decoded again has cells that are like those that it had. -/
theorem Resends.exists_cells (h : r.Resends r') (hr : r.IsDistinct) {cells : List Cell}
    (hcells : r.cells driver = .ok cells) :
    ∃ cells', r'.cells driver = .ok cells' ∧ List.Forall₂ (Cell.Alike Prints) cells cells' := by
  obtain ⟨ws, hrow, hcells⟩ := cells_eq_ok.1 hcells
  obtain ⟨ws', hrow', hredecodes⟩ := h.exists_inRow hr hrow
  rw [toCells_eq_mapM, mapM_eq_ok] at hcells
  obtain ⟨cells', hcells', halike⟩ :=
    exists_forall₂_of_forall₂ (hredecodes.imp fun _ _ hv => hv.stays_prints) hcells
  rw [← mapM_eq_ok, ← toCells_eq_mapM] at hcells'
  exact ⟨cells', cells_eq_ok.2 ⟨ws', hrow', hcells'⟩, halike⟩

/-- A record that has no cells, and has none when it is decoded again, fails alike. -/
theorem Resends.failAlike (h : r.Resends r') (hr : r.IsDistinct) {e e' : Malformed}
    (he : r.cells driver = .error e) (he' : r'.cells driver = .error e') :
    FailAlike driver r r' e e' := by
  have hr' := h.isDistinct hr
  rcases exists_failsIn_of_cells hr he with ⟨hrow, rfl⟩ | ⟨⟨ws, hrow⟩, name, hfails⟩
  · rcases exists_failsIn_of_cells hr' he' with ⟨-, rfl⟩ | ⟨⟨ws', hrow'⟩, -⟩
    · exact .row
    · obtain ⟨ws, hws, -⟩ := h.symm.exists_inRow hr' hrow'
      rw [hrow] at hws
      cases hws
  · rcases exists_failsIn_of_cells hr' he' with ⟨hrow', -⟩ | ⟨-, name', hfails'⟩
    · obtain ⟨ws', hws', -⟩ := h.exists_inRow hr hrow
      rw [hrow'] at hws'
      cases hws'
    · obtain ⟨e'', hfails''⟩ := h.exists_failsIn hfails
      obtain ⟨rfl, rfl⟩ := hfails'.unique hr' hfails''
      exact .column hfails hfails'

/-- So both have cells that are alike, or both fail alike. -/
theorem Resends.corresponds (h : r.Resends r') (hr : r.IsDistinct) :
    Corresponds (List.Forall₂ (Cell.Alike Prints)) (FailAlike driver r r') (r.cells driver)
      (r'.cells driver) := by
  cases hcells : r.cells driver with
  | ok cells =>
    obtain ⟨cells', hcells', halike⟩ := h.exists_cells hr hcells
    rw [hcells']
    exact .ok halike
  | error e =>
    cases hcells' : r'.cells driver with
    | ok cells' =>
      obtain ⟨cells, hok, -⟩ := h.symm.exists_cells (h.isDistinct hr) hcells'
      rw [hcells] at hok
      cases hok
    | error e' => exact .error (h.failAlike hr hcells hcells')

/-! ### Steady records -/

/-- Whether no text of a record lists the properties of anything, once it stands in a row. -/
def IsSteady (driver : Driver) (r : Record) : Prop :=
  ∀ ws, r.inRow driver = some ws → ∀ w ∈ ws, w.IsSteady

/-- A steady record has the same cells when it is decoded again. -/
theorem IsSteady.cells_eq (hsteady : r.IsSteady driver) (h : r.Resends r') (hr : r.IsDistinct)
    {cells : List Cell} (hcells : r.cells driver = .ok cells) : r'.cells driver = .ok cells := by
  obtain ⟨ws, hrow, hcells⟩ := cells_eq_ok.1 hcells
  obtain ⟨ws', hrow', hredecodes⟩ := h.exists_inRow hr hrow
  rw [toCells_eq_mapM, mapM_eq_ok] at hcells
  have hsteps : List.Forall₂ (fun w w' : Value => ∀ c, w.toCell = .ok c →
      ∃ c', w'.toCell = .ok c' ∧ c = c') ws ws' :=
    ((List.forall₂_and_left ..).2 ⟨hsteady ws hrow, hredecodes⟩).imp
      fun _ _ ⟨hw, hredecodes⟩ c hc => ⟨c, hw.toCell_eq hredecodes hc, rfl⟩
  obtain ⟨cells', hcells', heq⟩ := exists_forall₂_of_forall₂ hsteps hcells
  rw [List.forall₂_eq_eq_eq] at heq
  rw [← mapM_eq_ok, ← toCells_eq_mapM, ← heq] at hcells'
  exact cells_eq_ok.2 ⟨ws', hrow', hcells'⟩

end CodeGraph.Bolt.Record
