import CodeGraph.Bolt.Conversion
import CodeGraph.Proofs.Bolt.Entry
import CodeGraph.Proofs.Outcome
import Mathlib.Data.List.Perm.Basic

/-!
# Values that are decoded again

A map has no order, and each time that a value is decoded its maps can be walked in another one. Two
decodings of a value therefore differ in the order of the entries of their maps, at any depth, and
in nothing else.

* `Rewalks`, `rewalks_iff`: the entries of a map, walked in another order;
* `Value.Redecodes`, `Value.Redecodes.induct`, `Value.Redecodes.symm`: a value that is decoded
  again;
* `staysInRow_of_redecodes`: both decodings can stand in a row, or neither can;
* `Value.isFlat`, `plain_eq_of_redecodes`: values whose texts do not tell the decodings apart.
-/

namespace CodeGraph.Bolt

/-! ### Walks -/

/-- Whether entries, no two of them with the same key, are others that are walked in some order,
each with a value that belongs to it. -/
inductive Rewalks (R : Value → Value → Prop) :
    List (String × Value) → List (String × Value) → Prop
  | nil : Rewalks R [] []
  | cons {key : String} {v w : Value} {es front back : List (String × Value)}
      (hkey : key ∉ es.map Prod.fst) (hv : R v w) (hrest : Rewalks R es (front ++ back)) :
      Rewalks R ((key, v) :: es) (front ++ (key, w) :: back)

section Rewalks

variable {R S : Value → Value → Prop} {es es' : List (String × Value)}

theorem Rewalks.mono_of_mem (h : Rewalks R es es')
    (hRS : ∀ key v w, (key, v) ∈ es → R v w → S v w) : Rewalks S es es' := by
  induction h with
  | nil => exact .nil
  | cons hkey hv _ ih =>
    exact .cons hkey (hRS _ _ _ List.mem_cons_self hv)
      (ih fun key v w hmem => hRS key v w (List.mem_cons_of_mem _ hmem))

theorem Rewalks.mono (h : Rewalks R es es') (hRS : ∀ v w, R v w → S v w) : Rewalks S es es' :=
  h.mono_of_mem fun _ v w _ => hRS v w

/-- To walk entries in another order is to replace their values first, and then to permute them. -/
theorem rewalks_iff : Rewalks R es es' ↔ (es.map Prod.fst).Nodup ∧
    ∃ mid, List.Forall₂ (Keyed R) es mid ∧ mid.Perm es' := by
  constructor
  · intro h
    induction h with
    | nil => exact ⟨.nil, [], .nil, .nil⟩
    | @cons key v w es front back hkey hv _ ih =>
      obtain ⟨hnodup, mid, hmid, hperm⟩ := ih
      exact ⟨List.nodup_cons.2 ⟨hkey, hnodup⟩, (key, w) :: mid, .cons (.mk key hv) hmid,
        (hperm.cons _).trans List.perm_middle.symm⟩
  · rintro ⟨hnodup, mid, hmid, hperm⟩
    induction hmid generalizing es' with
    | nil =>
      rw [← hperm.nil_eq]
      exact .nil
    | cons hkeyed _ ih =>
      cases hkeyed with
      | mk key hv =>
        obtain ⟨hkey, hnodup⟩ := List.nodup_cons.1 hnodup
        obtain ⟨front, back, rfl⟩ := List.append_of_mem (hperm.subset List.mem_cons_self)
        exact .cons hkey hv (ih hnodup ((hperm.trans List.perm_middle).cons_inv))

/-- The way back. -/
theorem Rewalks.symm (h : Rewalks R es es') : Rewalks (fun w v => R v w) es' es := by
  obtain ⟨hnodup, mid, hmid, hperm⟩ := rewalks_iff.1 h
  have hflip : List.Forall₂ (Keyed fun w v => R v w) mid es :=
    hmid.flip.imp fun _ _ hkeyed => by
      cases hkeyed with
      | mk key hv => exact .mk key hv
  obtain ⟨mid', hmid', hperm'⟩ := List.perm_comp_forall₂ hperm.symm hflip
  have hkeys : (es'.map Prod.fst).Perm (es.map Prod.fst) := by
    rw [map_fst_eq_of_keyed hmid]
    exact (hperm.map Prod.fst).symm
  exact rewalks_iff.2 ⟨hkeys.nodup_iff.2 hnodup, mid', hmid', hperm'⟩

/-- What is made of the values of entries belongs to what is made of them on another walk. -/
theorem Rewalks.exists_forall₂ {β : Type} {Q : Value → β → Prop} {S : β → β → Prop}
    (h : Rewalks (fun v w => ∀ b, Q v b → ∃ b', Q w b' ∧ S b b') es es') {fs : List (String × β)}
    (hfs : List.Forall₂ (Keyed Q) es fs) :
    ∃ mid fs', List.Forall₂ (Keyed Q) es' fs' ∧ List.Forall₂ (Keyed S) fs mid ∧ mid.Perm fs' := by
  obtain ⟨-, walked, hwalked, hperm⟩ := rewalks_iff.1 h
  have hstep : List.Forall₂ (fun e e' => ∀ f, Keyed Q e f → ∃ f', Keyed Q e' f' ∧ Keyed S f f')
      es walked := hwalked.imp fun _ _ hkeyed f hf => by
    cases hkeyed with
    | mk key hstep =>
      cases hf with
      | mk _ hQ =>
        obtain ⟨b', hQ', hS⟩ := hstep _ hQ
        exact ⟨(key, b'), .mk key hQ', .mk key hS⟩
  obtain ⟨mid, hmid, hS⟩ := exists_forall₂_of_forall₂ hstep hfs
  obtain ⟨fs', hfs', hperm'⟩ := List.perm_comp_forall₂ hperm.symm hmid
  exact ⟨mid, fs', hfs', hS, hperm'.symm⟩

end Rewalks

/-! ### Values -/

/-- Whether a value is another one, decoded again: all that it holds is the same, and each of its
maps is walked in some order. -/
inductive Value.Redecodes : Value → Value → Prop
  | refl (v : Value) : Redecodes v v
  | list {items items' : List Value} (h : List.Forall₂ Redecodes items items') :
      Redecodes (.list items) (.list items')
  | map {entries entries' : List (String × Value)} (h : Rewalks Redecodes entries entries') :
      Redecodes (.map entries) (.map entries')
  | node {id : Int} {labels labels' : List Value} {properties properties' : List (String × Value)}
      (hlabels : List.Forall₂ Redecodes labels labels')
      (h : Rewalks Redecodes properties properties') :
      Redecodes (.node id labels properties) (.node id labels' properties')
  | relation {id source target : Int} {name : String}
      {properties properties' : List (String × Value)}
      (h : Rewalks Redecodes properties properties') :
      Redecodes (.relation id source target name properties)
        (.relation id source target name properties')
  | unbound {id : Int} {name : String} {properties properties' : List (String × Value)}
      (h : Rewalks Redecodes properties properties') :
      Redecodes (.unbound id name properties) (.unbound id name properties')
  | path {nodes nodes' rels rels' indices indices' : List Value}
      (hnodes : List.Forall₂ Redecodes nodes nodes') (hrels : List.Forall₂ Redecodes rels rels')
      (hindices : List.Forall₂ Redecodes indices indices') :
      Redecodes (.path nodes rels indices) (.path nodes' rels' indices')

/-- The same entries can be walked in any order. -/
theorem rewalks_of_perm {es es' : List (String × Value)} (h : (es.map Prod.fst).Nodup)
    (hperm : es.Perm es') : Rewalks Value.Redecodes es es' :=
  rewalks_iff.2 ⟨h, es, List.forall₂_same.2 fun e _ => .mk e.1 (.refl e.2), hperm⟩

namespace Value.Redecodes

/-- The induction for all that two decodings of a value hold. -/
theorem induct {motive : (v w : Value) → v.Redecodes w → Prop} (refl : ∀ v h, motive v v h)
    (list : ∀ items items' h, List.Forall₂ (fun v w => ∃ h, motive v w h) items items' →
      motive (.list items) (.list items') h)
    (map : ∀ entries entries' h, Rewalks (fun v w => ∃ h, motive v w h) entries entries' →
      motive (.map entries) (.map entries') h)
    (node : ∀ id labels labels' properties properties' h,
      List.Forall₂ (fun v w => ∃ h, motive v w h) labels labels' →
      Rewalks (fun v w => ∃ h, motive v w h) properties properties' →
      motive (.node id labels properties) (.node id labels' properties') h)
    (relation : ∀ id source target name properties properties' h,
      Rewalks (fun v w => ∃ h, motive v w h) properties properties' →
      motive (.relation id source target name properties)
        (.relation id source target name properties') h)
    (unbound : ∀ id name properties properties' h,
      Rewalks (fun v w => ∃ h, motive v w h) properties properties' →
      motive (.unbound id name properties) (.unbound id name properties') h)
    (path : ∀ nodes nodes' rels rels' indices indices' h,
      List.Forall₂ (fun v w => ∃ h, motive v w h) nodes nodes' →
      List.Forall₂ (fun v w => ∃ h, motive v w h) rels rels' →
      List.Forall₂ (fun v w => ∃ h, motive v w h) indices indices' →
      motive (.path nodes rels indices) (.path nodes' rels' indices') h)
    {v w : Value} (h : v.Redecodes w) : motive v w h :=
  @Redecodes.rec motive
    (fun vs ws _ => List.Forall₂ (fun v w => ∃ h, motive v w h) vs ws)
    (fun es es' _ => Rewalks (fun v w => ∃ h, motive v w h) es es')
    (fun v => refl v _) (fun _ => list _ _ _) (fun _ => map _ _ _) (fun _ _ => node _ _ _ _ _ _)
    (fun _ => relation _ _ _ _ _ _ _) (fun _ => unbound _ _ _ _ _)
    (fun _ _ _ => path _ _ _ _ _ _ _)
    .nil (fun hv _ ihv ih => .cons ⟨hv, ihv⟩ ih)
    .nil (fun hkey hv _ ihv ih => .cons hkey ⟨hv, ihv⟩ ih) v w h

/-- The way back. -/
theorem symm {v w : Value} (h : v.Redecodes w) : w.Redecodes v := by
  have hall {vs ws : List Value}
      (ih : List.Forall₂ (fun v w => ∃ _ : v.Redecodes w, w.Redecodes v) vs ws) :
      List.Forall₂ Redecodes ws vs := ih.flip.imp fun _ _ ⟨_, h⟩ => h
  have hentries {es es' : List (String × Value)}
      (ih : Rewalks (fun v w => ∃ _ : v.Redecodes w, w.Redecodes v) es es') :
      Rewalks Redecodes es' es := ih.symm.mono fun _ _ ⟨_, h⟩ => h
  induction h using induct with
  | refl v => exact .refl v
  | list items items' _ ih => exact .list (hall ih)
  | map entries entries' _ ih => exact .map (hentries ih)
  | node id labels labels' properties properties' _ ihlabels ih =>
    exact .node (hall ihlabels) (hentries ih)
  | relation id source target name properties properties' _ ih => exact .relation (hentries ih)
  | unbound id name properties properties' _ ih => exact .unbound (hentries ih)
  | path nodes nodes' rels rels' indices indices' _ ihnodes ihrels ihindices =>
    exact .path (hall ihnodes) (hall ihrels) (hall ihindices)

end Value.Redecodes

/-! ### Rows -/

section Row

variable {driver : Driver}

theorem allInRow_eq_some {vs ws : List Value} : allInRow driver vs = some ws ↔
    List.Forall₂ (fun v w => v.inRow driver = some w) vs ws := by
  induction vs generalizing ws with
  | nil => rw [allInRow, List.forall₂_nil_left_iff, Option.some.injEq, eq_comm]
  | cons v vs ih =>
    rw [allInRow, List.forall₂_cons_left_iff]
    simp only [Option.bind_eq_bind, Option.bind_eq_some_iff, Option.pure_def, Option.some.injEq, ih]
    constructor
    · rintro ⟨w, hw, rest, hrest, rfl⟩
      exact ⟨w, rest, hw, hrest, rfl⟩
    · rintro ⟨w, rest, hw, hrest, rfl⟩
      exact ⟨w, hw, rest, hrest, rfl⟩

theorem entriesInRow_eq_some {es fs : List (String × Value)} :
    entriesInRow driver es = some fs ↔
      List.Forall₂ (Keyed fun v w => v.inRow driver = some w) es fs := by
  induction es generalizing fs with
  | nil => rw [entriesInRow, List.forall₂_nil_left_iff, Option.some.injEq, eq_comm]
  | cons e es ih =>
    obtain ⟨key, v⟩ := e
    rw [entriesInRow, List.forall₂_cons_left_iff]
    simp only [Option.bind_eq_bind, Option.bind_eq_some_iff, Option.pure_def, Option.some.injEq, ih]
    constructor
    · rintro ⟨w, hw, rest, hrest, rfl⟩
      exact ⟨(key, w), rest, .mk key hw, hrest, rfl⟩
    · rintro ⟨_, rest, ⟨_, hw⟩, hrest, rfl⟩
      exact ⟨_, hw, rest, hrest, rfl⟩

/-- Whether a value that stands in a row does so when it is decoded again. -/
def StaysInRow (driver : Driver) (v w : Value) : Prop :=
  ∀ v', v.inRow driver = some v' → ∃ w', w.inRow driver = some w' ∧ v'.Redecodes w'

theorem exists_allInRow {vs ws vs' : List Value} (h : List.Forall₂ (StaysInRow driver) vs ws)
    (hvs : allInRow driver vs = some vs') :
    ∃ ws', allInRow driver ws = some ws' ∧ List.Forall₂ Value.Redecodes vs' ws' := by
  obtain ⟨ws', hws', hredecodes⟩ := exists_forall₂_of_forall₂ h (allInRow_eq_some.1 hvs)
  exact ⟨ws', allInRow_eq_some.2 hws', hredecodes⟩

theorem exists_entriesInRow {es es' fs : List (String × Value)}
    (h : Rewalks (StaysInRow driver) es es') (hes : entriesInRow driver es = some fs) :
    ∃ fs', entriesInRow driver es' = some fs' ∧ Rewalks Value.Redecodes fs fs' := by
  have hfs := entriesInRow_eq_some.1 hes
  obtain ⟨mid, fs', hfs', hmid, hperm⟩ := h.exists_forall₂ hfs
  have hnodup := (rewalks_iff.1 h).1
  rw [map_fst_eq_of_keyed hfs] at hnodup
  exact ⟨fs', entriesInRow_eq_some.2 hfs', rewalks_iff.2 ⟨hnodup, mid, hmid, hperm⟩⟩

/-- A value that can stand in a row can do so when it is decoded again. -/
theorem staysInRow_of_redecodes {v w : Value} (h : v.Redecodes w) : StaysInRow driver v w := by
  have hall {vs ws : List Value}
      (ih : List.Forall₂ (fun v w => ∃ _ : v.Redecodes w, StaysInRow driver v w) vs ws) :
      List.Forall₂ (StaysInRow driver) vs ws := ih.imp fun _ _ ⟨_, h⟩ => h
  have hentries {es es' : List (String × Value)}
      (ih : Rewalks (fun v w => ∃ _ : v.Redecodes w, StaysInRow driver v w) es es') :
      Rewalks (StaysInRow driver) es es' := ih.mono fun _ _ ⟨_, h⟩ => h
  intro v' hv
  induction h using Value.Redecodes.induct generalizing v' with
  | refl v => exact ⟨v', hv, .refl v'⟩
  | list items items' _ ih =>
    obtain ⟨vs, hvs, ⟨⟩⟩ := Option.bind_eq_some_iff.1 hv
    obtain ⟨ws, hws, hredecodes⟩ := exists_allInRow (hall ih) hvs
    exact ⟨.list ws, Option.bind_eq_some_iff.2 ⟨ws, hws, rfl⟩, .list hredecodes⟩
  | map entries entries' _ ih =>
    obtain ⟨es, hes, ⟨⟩⟩ := Option.bind_eq_some_iff.1 hv
    obtain ⟨es', hes', hrewalks⟩ := exists_entriesInRow (hentries ih) hes
    exact ⟨.map es', Option.bind_eq_some_iff.2 ⟨es', hes', rfl⟩, .map hrewalks⟩
  | node id labels labels' properties properties' _ ihlabels ih =>
    obtain ⟨vs, hvs, hrest⟩ := Option.bind_eq_some_iff.1 hv
    obtain ⟨es, hes, ⟨⟩⟩ := Option.bind_eq_some_iff.1 hrest
    obtain ⟨ws, hws, hredecodes⟩ := exists_allInRow (hall ihlabels) hvs
    obtain ⟨es', hes', hrewalks⟩ := exists_entriesInRow (hentries ih) hes
    exact ⟨.node id ws es', Option.bind_eq_some_iff.2 ⟨ws, hws,
      Option.bind_eq_some_iff.2 ⟨es', hes', rfl⟩⟩, .node hredecodes hrewalks⟩
  | relation id source target name properties properties' _ ih =>
    obtain ⟨es, hes, ⟨⟩⟩ := Option.bind_eq_some_iff.1 hv
    obtain ⟨es', hes', hrewalks⟩ := exists_entriesInRow (hentries ih) hes
    exact ⟨.relation id source target name es', Option.bind_eq_some_iff.2 ⟨es', hes', rfl⟩,
      .relation hrewalks⟩
  | unbound id name properties properties' _ ih =>
    obtain ⟨es, hes, ⟨⟩⟩ := Option.bind_eq_some_iff.1 hv
    obtain ⟨es', hes', hrewalks⟩ := exists_entriesInRow (hentries ih) hes
    exact ⟨.unbound id name es', Option.bind_eq_some_iff.2 ⟨es', hes', rfl⟩, .unbound hrewalks⟩
  | path nodes nodes' rels rels' indices indices' _ ihnodes ihrels ihindices =>
    obtain ⟨ns, hns, hrest⟩ := Option.bind_eq_some_iff.1 hv
    obtain ⟨rs, hrs, hrest⟩ := Option.bind_eq_some_iff.1 hrest
    obtain ⟨is, his, ⟨⟩⟩ := Option.bind_eq_some_iff.1 hrest
    obtain ⟨ns', hns', hnodes⟩ := exists_allInRow (hall ihnodes) hns
    obtain ⟨rs', hrs', hrels⟩ := exists_allInRow (hall ihrels) hrs
    obtain ⟨is', his', hindices⟩ := exists_allInRow (hall ihindices) his
    exact ⟨.path ns' rs' is', Option.bind_eq_some_iff.2 ⟨ns', hns', Option.bind_eq_some_iff.2
      ⟨rs', hrs', Option.bind_eq_some_iff.2 ⟨is', his', rfl⟩⟩⟩, .path hnodes hrels hindices⟩

end Row

/-! ### Texts -/

mutual

/-- Whether a value holds no node, no relationship and no path, and is none. -/
def Value.isFlat : Value → Bool
  | .list items => allFlat items
  | .map entries => entriesFlat entries
  | .node .. | .relation .. | .unbound .. | .path .. => false
  | _ => true

/-- Whether some values are flat. -/
def allFlat : List Value → Bool
  | [] => true
  | v :: vs => v.isFlat && allFlat vs

/-- Whether the values of some entries are flat. -/
def entriesFlat : List (String × Value) → Bool
  | [] => true
  | (_, v) :: es => v.isFlat && entriesFlat es

end

theorem plainAll_eq_of_forall₂ {vs ws : List Value}
    (h : List.Forall₂ (fun v w => v.isFlat → v.plain = w.plain) vs ws) (hflat : allFlat vs) :
    plainAll vs = plainAll ws := by
  induction h with
  | nil => rfl
  | cons hv _ ih =>
    rw [allFlat, Bool.and_eq_true] at hflat
    rw [plainAll, plainAll, hv hflat.1, ih hflat.2]

theorem plainEntries_eq_of_forall₂ {es es' : List (String × Value)}
    (h : List.Forall₂ (Keyed fun v w => v.isFlat → v.plain = w.plain) es es')
    (hflat : entriesFlat es) : plainEntries es = plainEntries es' := by
  induction h with
  | nil => rfl
  | cons hkeyed _ ih =>
    cases hkeyed with
    | mk key hv =>
      rw [entriesFlat, Bool.and_eq_true] at hflat
      rw [plainEntries, plainEntries, hv hflat.1, ih hflat.2]

theorem plainEntries_eq_map : ∀ es : List (String × Value),
    plainEntries es = es.map fun e => (e.1, e.2.plain)
  | [] => rfl
  | (key, v) :: es => by rw [plainEntries, plainEntries_eq_map es, List.map_cons]

/-- The texts of entries are put in order, however they are walked. -/
theorem inOrder_plainEntries_eq {es es' : List (String × Value)}
    (h : Rewalks (fun v w => v.isFlat → v.plain = w.plain) es es') (hflat : entriesFlat es) :
    inOrder (plainEntries es) = inOrder (plainEntries es') := by
  obtain ⟨hnodup, mid, hmid, hperm⟩ := rewalks_iff.1 h
  have hkeys : (plainEntries es).map Prod.fst = es.map Prod.fst := by
    rw [plainEntries_eq_map, List.map_map]
    rfl
  have hplain := plainEntries_eq_of_forall₂ hmid hflat
  refine inOrder_eq_of_perm (hkeys ▸ hnodup) ?_
  rw [hplain, plainEntries_eq_map, plainEntries_eq_map]
  exact hperm.map _

/-- The text of a flat value is the same when it is decoded again. -/
theorem plain_eq_of_redecodes {v w : Value} (h : v.Redecodes w) (hflat : v.isFlat) :
    v.plain = w.plain := by
  induction h using Value.Redecodes.induct with
  | refl v => rfl
  | list items items' _ ih =>
    rw [Value.plain, Value.plain, plainAll_eq_of_forall₂ (ih.imp fun _ _ ⟨_, h⟩ => h) hflat]
  | map entries entries' _ ih =>
    rw [Value.plain, Value.plain,
      inOrder_plainEntries_eq (ih.mono fun _ _ ⟨_, h⟩ => h) hflat]
  | node | relation | unbound | path => cases hflat

end CodeGraph.Bolt
