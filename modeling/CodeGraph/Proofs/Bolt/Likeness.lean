import CodeGraph.Proofs.Bolt.Convertibility
import CodeGraph.Proofs.Bolt.Decoding
import CodeGraph.Proofs.Result.Likeness

/-!
# Cells of values that are decoded again

A value that is decoded again has a cell if it had one before, and the cells differ in their texts
only. A text can differ where it describes a map with all its parts, in the order in which the map
is walked.

* `Value.isWritten`, `Value.KeepsTexts`: the values that become texts, and what is known of the
  texts;
* `Stays`, `PropertiesStay`, `RelationshipStays`: what has a cell still has one that is like it;
* `exists_hops`: the edges of a path that is decoded again;
* `Value.Redecodes.stays`: the cell of a value that is decoded again.
-/

namespace CodeGraph.Bolt

/-! ### Texts -/

/-- Whether a value becomes a text, as which it is written. -/
def Value.isWritten : Value → Bool
  | .null | .list _ | .node .. | .relation .. | .path .. => false
  | _ => true

/-- Whether the texts of what is converted together with a value belong to those that another
decoding makes of it. -/
def Value.KeepsTexts (T : String → String → Prop) (v : Value) : Prop :=
  ∀ u u' : Value, v.Converts u → u.isWritten → u.Redecodes u' → T u.plain u'.plain

theorem Value.KeepsTexts.visits {T : String → String → Prop} {v w : Value} (h : v.KeepsTexts T)
    (hw : v.Visits w) : w.KeepsTexts T :=
  fun u u' hu => h u u' (.head hw hu)

/-- The labels of a node are texts, which are decoded to themselves. -/
theorem labelTexts_eq_of_redecodes {labels labels' : List Value}
    (h : List.Forall₂ Value.Redecodes labels labels') : labelTexts labels = labelTexts labels' := by
  induction h with
  | nil => rfl
  | @cons v w labels labels' hv _ ih =>
    have hcons (u : Value) (us : List Value) :
        labelTexts (u :: us) = labelTexts [u] ++ labelTexts us :=
      List.filterMap_append (l := [u])
    have hhead : labelTexts [v] = labelTexts [w] := by
      cases hv <;> rfl
    rw [hcons, hcons w, hhead, ih]

/-- So are the numbers of a path. -/
theorem eq_of_forall₂_redecodes {numbers : List Int} {indices : List Value}
    (h : List.Forall₂ Value.Redecodes (numbers.map .int) indices) : indices = numbers.map .int := by
  induction numbers generalizing indices with
  | nil => exact List.forall₂_nil_left_iff.1 h
  | cons n numbers ih =>
    obtain ⟨w, ws, hw, hws, rfl⟩ := List.forall₂_cons_left_iff.1 h
    cases hw
    rw [ih hws, List.map_cons]

/-! ### What stays -/

section

variable {T : String → String → Prop}

/-- Whether a value has a cell if another one has a cell, which is like it. -/
def Stays (T : String → String → Prop) (v w : Value) : Prop :=
  ∀ c, v.toCell = .ok c → ∃ c', w.toCell = .ok c' ∧ c.Alike T c'

/-- Whether properties are converted if others are, to cells that are like theirs. -/
def PropertiesStay (T : String → String → Prop) (properties properties' : List (String × Value)) :
    Prop :=
  ∀ cells, toProperties properties = .ok cells → ∃ cells', toProperties properties' = .ok cells' ∧
    List.Forall₂ (Keyed (Cell.Alike T)) cells cells'

/-- Whether a relationship of a path is the same as another one but for its properties, and they are
converted if the others are. -/
def RelationshipStays (T : String → String → Prop) (v w : Value) : Prop :=
  ∀ id name properties, v = .unbound id name properties → ∃ properties',
    w = .unbound id name properties' ∧
      ((∀ key u, (key, u) ∈ properties → u.KeepsTexts T) → PropertiesStay T properties properties')

theorem propertiesStay_of_rewalks {properties properties' : List (String × Value)}
    (h : Rewalks (Stays T) properties properties') : PropertiesStay T properties properties' := by
  intro cells hcells
  obtain ⟨es, hes, rfl⟩ := toProperties_eq_ok.1 hcells
  obtain ⟨mid, es', hes', hmid, hperm⟩ := h.exists_forall₂ hes
  have hnodup : (mid.map Prod.fst).Nodup := by
    rw [← map_fst_eq_of_keyed hmid, ← map_fst_eq_of_keyed hes]
    exact (rewalks_iff.1 h).1
  refine ⟨inOrder es', toProperties_eq_ok.2 ⟨es', hes', rfl⟩, ?_⟩
  rw [← inOrder_eq_of_perm hnodup hperm]
  exact forall₂_inOrder hmid

theorem propertiesStay_refl (hT : ∀ s, T s s) (properties : List (String × Value)) :
    PropertiesStay T properties properties :=
  fun cells hcells => ⟨cells, hcells, Cell.Alike.properties_refl fun _ c _ => .refl hT c⟩

theorem toCell_node_eq_ok {id : Int} {labels : List Value} {properties : List (String × Value)}
    {c : Cell} : (Value.node id labels properties).toCell = .ok c ↔
      ∃ cells, toProperties properties = .ok cells ∧ c = .node ⟨id, labelTexts labels, cells⟩ := by
  simp only [Value.toCell, toProperties, except_map_eq_ok, ↓existsAndEq, and_true]

/-- The properties that stay are those of a node. -/
theorem PropertiesStay.node {id : Int} {labels labels' : List Value}
    {properties properties' : List (String × Value)} (h : PropertiesStay T properties properties')
    (hlabels : labelTexts labels = labelTexts labels') :
    Stays T (.node id labels properties) (.node id labels' properties') := by
  intro c hc
  obtain ⟨cells, hcells, rfl⟩ := toCell_node_eq_ok.1 hc
  obtain ⟨cells', hcells', halike⟩ := h cells hcells
  rw [hlabels]
  exact ⟨_, toCell_node_eq_ok.2 ⟨cells', hcells', rfl⟩, .node (.mk halike)⟩

theorem toCell_relation_eq_ok {id source target : Int} {name : String}
    {properties : List (String × Value)} {c : Cell} :
    (Value.relation id source target name properties).toCell = .ok c ↔
      ∃ cells, toProperties properties = .ok cells ∧
        c = .edge ⟨id, source, target, name, cells⟩ := by
  simp only [Value.toCell, toProperties, except_map_eq_ok, ↓existsAndEq, and_true]

/-- And so it is with a relationship. -/
theorem PropertiesStay.relation {id source target : Int} {name : String}
    {properties properties' : List (String × Value)} (h : PropertiesStay T properties properties') :
    Stays T (.relation id source target name properties)
      (.relation id source target name properties') := by
  intro c hc
  obtain ⟨cells, hcells, rfl⟩ := toCell_relation_eq_ok.1 hc
  obtain ⟨cells', hcells', halike⟩ := h cells hcells
  exact ⟨_, toCell_relation_eq_ok.2 ⟨cells', hcells', rfl⟩, .edge (.mk halike)⟩

theorem Stays.list {items items' : List Value} (h : List.Forall₂ (Stays T) items items') :
    Stays T (.list items) (.list items') := by
  intro c hc
  obtain ⟨cells, hcells, rfl⟩ := except_map_eq_ok.1 hc
  rw [toCells_eq_mapM, mapM_eq_ok] at hcells
  obtain ⟨cells', hcells', halike⟩ := exists_forall₂_of_forall₂ h hcells
  rw [← mapM_eq_ok, ← toCells_eq_mapM] at hcells'
  exact ⟨.list cells', except_map_eq_ok.2 ⟨cells', hcells', rfl⟩, .list halike⟩

/-! ### Paths -/

/-- What is known of the texts of a path is known of its nodes. -/
theorem Value.KeepsTexts.pathNode {nodes rels indices : List Value}
    (hkeeps : (Value.path nodes rels indices).KeepsTexts T) {id : Int} {labels : List Value}
    {properties : List (String × Value)} (hmem : .node id labels properties ∈ nodes) :
    (Value.node id labels properties).KeepsTexts T := by
  intro u u' hu
  rcases hu.cases_head with rfl | ⟨w, hvisits, hw⟩
  · rintro ⟨⟩
  · cases hvisits with
    | nodeProperty hproperty => exact hkeeps u u' (.head (.pathNode hmem hproperty) hw)

theorem exists_pathNodes {nodes nodes' rels indices : List Value} {ns : List (StoreNode Cell)}
    (hkeeps : (Value.path nodes rels indices).KeepsTexts T)
    (h : List.Forall₂ (fun v w => v.KeepsTexts T → Stays T v w) nodes nodes')
    (hns : pathNodes nodes = .ok ns) :
    ∃ ns', pathNodes nodes' = .ok ns' ∧
      List.Forall₂ (StoreNode.Matches (Cell.Alike T)) ns ns' := by
  rw [pathNodes_eq_mapM, mapM_eq_ok] at hns
  simp only [pathNodes_eq_mapM, mapM_eq_ok]
  have hnodes := (List.forall₂_and_left ..).2 ⟨fun v (hv : v ∈ nodes) => hv, h⟩
  refine exists_forall₂_of_forall₂ (hnodes.imp fun v w ⟨hv, hstays⟩ n hn => ?_) hns
  obtain ⟨id, labels, properties, rfl⟩ := exists_of_toNode_eq_ok hn
  obtain ⟨c', hc', halike⟩ := hstays (hkeeps.pathNode hv) _ (toNode_eq_ok.1 hn)
  cases halike with
  | node hmatches => exact ⟨_, toNode_eq_ok.2 hc', hmatches⟩

/-- Whether a relationship of a path is another one, and its properties are converted if those of
the other one are. -/
structure Link.Stays (T : String → String → Prop) (l l' : Link) : Prop where
  id : l.id = l'.id
  name : l.name = l'.name
  properties : ∀ cells, l.properties = .ok cells → ∃ cells', l'.properties = .ok cells' ∧
    List.Forall₂ (Keyed (Cell.Alike T)) cells cells'

/-- A path that is decoded again has the same edges. By induction on the indices: the relationships
that they point to stay. -/
theorem exists_hops {ns ns' : List (StoreNode Cell)} {links links' : List Link}
    (hnodes : List.Forall₂ (StoreNode.Matches (Cell.Alike T)) ns ns') :
    ∀ {here : Int} {numbers : List Int} {es : List (StoreEdge Cell)},
      (∀ k r n, numbers[2 * k]? = some r → numbers[2 * k + 1]? = some n →
        ∀ l, link? links r = some l → ∃ l', link? links' r = some l' ∧ l.Stays T l') →
      hops ns links here numbers = .ok es →
      ∃ es', hops ns' links' here numbers = .ok es' ∧
        List.Forall₂ (StoreEdge.Matches (Cell.Alike T)) es es'
  | _, [], _, _, h => by cases h; exact ⟨[], rfl, .nil⟩
  | _, [_], _, _, h => by cases h; exact ⟨[], rfl, .nil⟩
  | _, r :: n :: rest, _, hlinks, h => by
    obtain ⟨l, hl, next, hnext, cells, hcells, es, hes, rfl⟩ := hops_cons_eq_ok.1 h
    obtain ⟨l', hl', hstays⟩ := hlinks 0 r n rfl rfl l hl
    obtain ⟨cells', hcells', halike⟩ := hstays.properties cells hcells
    obtain ⟨hn, hnext⟩ := node?_eq_some.1 hnext
    obtain ⟨next', hnext', hmatches⟩ := exists_getElem?_of_forall₂ hnodes hnext
    obtain ⟨es', hes', hrest⟩ := exists_hops hnodes
      (fun k r n hr hn => hlinks (k + 1) r n hr hn) (hmatches.id_eq ▸ hes)
    refine ⟨_, hops_cons_eq_ok.2 ⟨l', hl', next', node?_eq_some.2 ⟨hn, hnext'⟩, cells',
      hcells', es', hes', rfl⟩, ?_⟩
    rw [hstays.id, hstays.name, hmatches.id_eq]
    exact .cons (.mk halike) hrest

theorem exists_pathLinks {rels rels' : List Value} {links : List Link}
    (h : List.Forall₂ (RelationshipStays T) rels rels') (hlinks : pathLinks rels = .ok links) :
    ∃ links', pathLinks rels' = .ok links' := by
  rw [pathLinks_eq_mapM, mapM_eq_ok] at hlinks
  simp only [pathLinks_eq_mapM, mapM_eq_ok]
  have hstep : List.Forall₂ (fun v w => ∀ l, toLink v = .ok l → ∃ l', toLink w = .ok l' ∧ True)
      rels rels' := h.imp fun v w hstays l hl => by
    obtain ⟨id, name, properties, rfl, rfl⟩ := toLink_eq_ok.1 hl
    obtain ⟨properties', rfl, -⟩ := hstays id name properties rfl
    exact ⟨_, rfl, trivial⟩
  obtain ⟨links', hlinks', -⟩ := exists_forall₂_of_forall₂ hstep hlinks
  exact ⟨links', hlinks'⟩

/-- The relationships that a path goes over are those that it visits. -/
theorem exists_link {nodes rels rels' indices : List Value} {links links' : List Link}
    (hkeeps : (Value.path nodes rels indices).KeepsTexts T) (hnodes : nodes ≠ [])
    (h : List.Forall₂ (RelationshipStays T) rels rels') (hlinks : pathLinks rels = .ok links)
    (hlinks' : pathLinks rels' = .ok links') {r n : Int} (hpair : IsPair indices r n) {l : Link}
    (hl : link? links r = some l) : ∃ l', link? links' r = some l' ∧ l.Stays T l' := by
  rw [pathLinks_eq_mapM, mapM_eq_ok] at hlinks hlinks'
  obtain ⟨hr, hl⟩ := link?_eq_some.1 hl
  obtain ⟨v, hv, hvl⟩ := exists_getElem?_of_forall₂ hlinks.flip hl
  obtain ⟨w, hw, hstays⟩ := exists_getElem?_of_forall₂ h hv
  obtain ⟨l', hl', hwl'⟩ := exists_getElem?_of_forall₂ hlinks' hw
  obtain ⟨id, name, properties, rfl, rfl⟩ := toLink_eq_ok.1 hvl
  obtain ⟨properties', rfl, hproperties⟩ := hstays id name properties rfl
  cases hwl'
  refine ⟨_, link?_eq_some.2 ⟨hr, hl'⟩, rfl, rfl, hproperties fun key u hu => ?_⟩
  exact hkeeps.visits (.hop hnodes hpair hr hv hu)

theorem stays_path {nodes nodes' rels rels' indices indices' : List Value}
    (hkeeps : (Value.path nodes rels indices).KeepsTexts T)
    (hnodes : List.Forall₂ (fun v w => v.KeepsTexts T → Stays T v w) nodes nodes')
    (hrels : List.Forall₂ (RelationshipStays T) rels rels')
    (hindices : List.Forall₂ Value.Redecodes indices indices') :
    Stays T (.path nodes rels indices) (.path nodes' rels' indices') := by
  intro c h
  obtain ⟨ns, hns, h⟩ := except_bind_eq_ok.1 h
  obtain ⟨links, hlinks, h⟩ := except_bind_eq_ok.1 h
  obtain ⟨numbers, hnumbers, hc⟩ := except_bind_eq_ok.1 h
  obtain rfl := eq_map_of_indexNumbers hnumbers
  obtain rfl := eq_of_forall₂_redecodes hindices
  obtain ⟨ns', hns', hmatches⟩ := exists_pathNodes hkeeps hnodes hns
  obtain ⟨links', hlinks'⟩ := exists_pathLinks hrels hlinks
  suffices h : ∃ c', pathCell ns' links' numbers = .ok c' ∧ c.Alike T c' by
    obtain ⟨c', hc', halike⟩ := h
    exact ⟨c', except_bind_eq_ok.2 ⟨ns', hns', except_bind_eq_ok.2 ⟨links', hlinks',
      except_bind_eq_ok.2 ⟨numbers, hnumbers, hc'⟩⟩⟩, halike⟩
  cases hmatches with
  | nil =>
    cases hc
    exact ⟨.path [] [], rfl, .path .nil .nil⟩
  | @cons first first' ns ns' hfirst hrest =>
    obtain ⟨es, hes, rfl⟩ := except_map_eq_ok.1 hc
    have hne : nodes ≠ [] := by
      rintro rfl
      cases hns
    obtain ⟨es', hes', hedges⟩ := exists_hops (.cons hfirst hrest) (fun k r n hr hn l hl =>
      exists_link hkeeps hne hrels hlinks hlinks' (isPair_map_int.2 ⟨k, hr, hn⟩) hl) hes
    rw [hfirst.id_eq] at hes'
    exact ⟨_, except_map_eq_ok.2 ⟨es', hes', rfl⟩, .path (.cons hfirst hrest) hedges⟩

/-! ### At any depth -/

/-- What is not a relationship of a path does not stay as one. -/
theorem relationshipStays_of_ne {v w : Value}
    (h : ∀ id name properties, v ≠ .unbound id name properties) :
    RelationshipStays T v w :=
  fun id name properties hv => absurd hv (h id name properties)

theorem Value.Redecodes.stays (hT : ∀ s, T s s) {v w : Value} (h : v.Redecodes w) :
    (v.KeepsTexts T → Stays T v w) ∧ RelationshipStays T v w := by
  have hproperties {es es' : List (String × Value)}
      (ih : Rewalks (fun v w => ∃ _ : v.Redecodes w,
        (v.KeepsTexts T → Stays T v w) ∧ RelationshipStays T v w) es es')
      (hkeeps : ∀ key u, (key, u) ∈ es → u.KeepsTexts T) : PropertiesStay T es es' :=
    propertiesStay_of_rewalks (ih.mono_of_mem fun key u _ hmem ⟨_, h⟩ => h.1 (hkeeps key u hmem))
  induction h using induct with
  | refl v =>
    refine ⟨fun _ c hc => ⟨c, hc, .refl hT c⟩, fun id name properties hv => ?_⟩
    exact ⟨properties, hv, fun _ => propertiesStay_refl hT properties⟩
  | list items items' _ ih =>
    refine ⟨fun hkeeps => .list ?_, relationshipStays_of_ne (by simp)⟩
    have hitems := (List.forall₂_and_left ..).2 ⟨fun v (hv : v ∈ items) => hv, ih⟩
    exact hitems.imp fun v w ⟨hv, _, h⟩ => h.1 (hkeeps.visits (.item hv))
  | map entries entries' h _ =>
    refine ⟨fun hkeeps c hc => ?_, relationshipStays_of_ne (by simp)⟩
    cases hc
    exact ⟨_, rfl, .text (hkeeps _ _ .refl rfl h)⟩
  | node id labels labels' properties properties' h _ ih =>
    refine ⟨fun hkeeps => ?_, relationshipStays_of_ne (by simp)⟩
    have hstays := hproperties ih fun key u hu => hkeeps.visits (.nodeProperty hu)
    cases h with
    | refl => exact hstays.node rfl
    | node hlabels _ => exact hstays.node (labelTexts_eq_of_redecodes hlabels)
  | relation id source target name properties properties' _ ih =>
    refine ⟨fun hkeeps => ?_, relationshipStays_of_ne (by simp)⟩
    exact (hproperties ih fun key u hu => hkeeps.visits (.relationProperty hu)).relation
  | unbound id name properties properties' h ih =>
    constructor
    · intro hkeeps c hc
      cases hc
      exact ⟨_, rfl, .text (hkeeps _ _ .refl rfl h)⟩
    · rintro _ _ _ ⟨⟩
      exact ⟨properties', rfl, hproperties ih⟩
  | path nodes nodes' rels rels' indices indices' _ ihnodes ihrels ihindices =>
    refine ⟨fun hkeeps => ?_, relationshipStays_of_ne (by simp)⟩
    have hnodes := ihnodes.imp fun _ _ ⟨_, h⟩ => h.1
    have hrels := ihrels.imp fun _ _ ⟨_, h⟩ => h.2
    have hindices : List.Forall₂ Value.Redecodes indices indices' :=
      ihindices.imp fun _ _ ⟨h, _⟩ => h
    exact stays_path hkeeps hnodes hrels hindices

end

/-- Whether one value is written as one text, and as another one when it is decoded again. -/
def Prints (s s' : String) : Prop :=
  ∃ v w : Value, v.Redecodes w ∧ s = v.plain ∧ s' = w.plain

theorem Prints.refl (s : String) : Prints s s :=
  ⟨.text s, .text s, .refl _, rfl, rfl⟩

/-- A value that is decoded again has a cell that is like the one that it had. -/
theorem Value.Redecodes.stays_prints {v w : Value} (h : v.Redecodes w) : Stays Prints v w :=
  (h.stays Prints.refl).1 fun u u' _ _ hu => ⟨u, u', hu, rfl, rfl⟩

/-- And it has none if it had none. -/
theorem Value.Redecodes.exists_error {v w : Value} (h : v.Redecodes w) {e : Malformed}
    (he : v.toCell = .error e) : ∃ e', w.toCell = .error e' := by
  cases hw : w.toCell with
  | error e' => exact ⟨e', rfl⟩
  | ok c =>
    obtain ⟨c', hc', -⟩ := h.symm.stays_prints c hw
    rw [he] at hc'
    cases hc'

/-- Whether all that becomes a text of a value is flat, so that no text lists the properties of
anything. -/
def Value.IsSteady (v : Value) : Prop :=
  ∀ u : Value, v.Converts u → u.isWritten → u.isFlat

/-- A steady value has the same cell when it is decoded again. -/
theorem Value.IsSteady.toCell_eq {v w : Value} (hv : v.IsSteady) (h : v.Redecodes w) {c : Cell}
    (hc : v.toCell = .ok c) : w.toCell = .ok c := by
  have hkeeps : v.KeepsTexts (· = ·) := fun u u' hu hwritten hredecodes =>
    plain_eq_of_redecodes hredecodes (hv u hu hwritten)
  obtain ⟨c', hc', halike⟩ := (h.stays fun _ => rfl).1 hkeeps c hc
  rw [hc', halike.eq]

end CodeGraph.Bolt
