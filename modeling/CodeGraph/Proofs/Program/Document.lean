import CodeGraph.Program.Document
import CodeGraph.Proofs.Json.Decoder

/-!
# Program graphs survive their JSON form

What the JSON form of a graph may look like is said here without its reader: fields are members of
an object or items of a list, `properties` and `relationships` may be left out, members that are no
fields do not count, and a kind may be an object with null for its data.

* `Edge.SpelledBy`, `Targets.SpelledBy`, `Node.SpelledBy`, `Graph.SpelledBy`: the values that spell
  a graph and its parts;
* `reads_edge`, `reads_targets`, `reads_node`, `reads_graph`: these and no others are read;
* `Graph.spelledBy_toJson`: the written form spells the graph;
* `Graph.decode_toJson`: a graph survives its written form, and whatever is read has a normal form.
-/

namespace CodeGraph

open Json (fields? SpellsDict)
open Json.Decoder (Reads)

/-! ### What spells a graph -/

/-- A dictionary that may be left out when it is empty. -/
def Json.SpellsDict? {α : Type} (P : Json → α → Prop) : Option Json → Dict α → Prop
  | some j, d => SpellsDict P j d
  | none, d => d = .empty

/-- The values that spell an edge: an object or a list with its target, and its properties if it has
any. -/
def Edge.SpelledBy (j : Json) (e : Edge) : Prop :=
  ∃ ms, fields? ["target", "properties"] j = some ms ∧
    ms.lookup "target" = some (.nat e.target.toNat) ∧
    Json.SpellsDict? Eq (ms.lookup "properties") e.properties

/-- The values that spell targets: an object whose only key gives their form. -/
inductive Targets.SpelledBy : Json → Targets → Prop
  | single (t : UInt64) : SpelledBy (.object [("single", .nat t.toNat)]) (.single t)
  | nodes (ts : List UInt64) :
      SpelledBy (.object [("nodes", .list (ts.map fun t => .nat t.toNat))]) (.nodes ts)
  | edges {js : List Json} {es : List Edge} (h : List.Forall₂ Edge.SpelledBy js es) :
      SpelledBy (.object [("edges", .list js)]) (.edges es)

/-- The values that spell a kind: its name, by itself or over null. -/
inductive Kind.SpelledBy : Json → Kind → Prop
  | name (k : Kind) : SpelledBy (.text k.name) k
  | case (k : Kind) : SpelledBy (.object [(k.name, .null)]) k

/-- The values that spell a node: an object or a list with its number and its kind, and its
properties and relationships if it has any. -/
def Node.SpelledBy (j : Json) (n : Node) : Prop :=
  ∃ ms, fields? ["id", "kind", "properties", "relationships"] j = some ms ∧
    ms.lookup "id" = some (.int n.id.toInt) ∧
    (∃ k, ms.lookup "kind" = some k ∧ Kind.SpelledBy k n.kind) ∧
    Json.SpellsDict? Eq (ms.lookup "properties") n.properties ∧
    Json.SpellsDict? Targets.SpelledBy (ms.lookup "relationships") n.relationships

/-- The values that spell a graph: an object or a list with the list of its nodes. -/
def Graph.SpelledBy (j : Json) (g : Graph) : Prop :=
  ∃ ms js, fields? ["nodes"] j = some ms ∧ ms.lookup "nodes" = some (.list js) ∧
    List.Forall₂ Node.SpelledBy js g.nodes.toList

/-! ### What is read -/

@[simp] theorem spellsDict?_some {α : Type} {P : Json → α → Prop} {j : Json} {d : Dict α} :
    Json.SpellsDict? P (some j) d ↔ SpellsDict P j d := Iff.rfl

theorem spellsDict?_iff {α : Type} {P : Json → α → Prop} {j? : Option Json} {d : Dict α} :
    Json.SpellsDict? P j? d ↔
      ∃ d?, Option.Rel (SpellsDict P) j? d? ∧ d = d?.getD .empty := by
  cases j? with
  | none =>
    constructor
    · exact fun h => ⟨none, .none, h⟩
    · rintro ⟨_, ⟨⟩, h⟩
      exact h
  | some j =>
    constructor
    · exact fun h => ⟨some d, .some h, rfl⟩
    · rintro ⟨_, ⟨h⟩, rfl⟩
      exact h

theorem Edge.ofMembers_fields_iff {ms : List (String × Json)} {s : Edge.Draft} :
    Json.Decoder.ofMembers ms Edge.fields {} = some s ↔
      Option.Rel (fun j w => j = .nat w.toNat) (ms.lookup "target") s.target ∧
        Option.Rel (SpellsDict Eq) (ms.lookup "properties") s.properties := by
  simp only [Edge.fields, Json.Decoder.ofMembers_field_iff Json.Decoder.reads_uint64,
    Json.Decoder.ofMembers_field_iff (Json.Decoder.Reads.dict Json.Decoder.reads_value),
    Json.Decoder.ofMembers_no_fields, Option.some_inj]
  constructor
  · rintro ⟨target?, htarget, properties?, hproperties, rfl⟩
    cases target? <;> cases properties? <;> exact ⟨htarget, hproperties⟩
  · rintro ⟨htarget, hproperties⟩
    refine ⟨_, htarget, _, hproperties, ?_⟩
    obtain ⟨target?, properties?⟩ := s
    cases target? <;> cases properties? <;> rfl

theorem reads_edge : Reads Edge.decoder Edge.SpelledBy := by
  intro j e
  rw [Edge.decoder, Json.Decoder.record_eq_some_iff (by decide)]
  simp only [Edge.ofMembers_fields_iff, Edge.SpelledBy, spellsDict?_iff]
  constructor
  · rintro ⟨ms, s, hms, ⟨htarget, hproperties⟩, he⟩
    obtain ⟨target, hs, rfl⟩ := Option.map_eq_some_iff.1 he
    rw [hs, Json.Decoder.rel_some_iff] at htarget
    obtain ⟨_, htarget, rfl⟩ := htarget
    exact ⟨ms, hms, htarget, s.properties, hproperties, rfl⟩
  · rintro ⟨ms, hms, htarget, properties?, hproperties, he⟩
    refine ⟨ms, ⟨some e.target, properties?⟩, hms,
      ⟨Json.Decoder.rel_some_iff.2 ⟨_, htarget, rfl⟩, hproperties⟩, ?_⟩
    obtain ⟨target, properties⟩ := e
    cases he
    rfl

theorem reads_targets : Reads Targets.decoder Targets.SpelledBy := by
  intro j ts
  have hsingle := Json.Decoder.reads_uint64
  have hnodes := Json.Decoder.Reads.list Json.Decoder.reads_uint64
  have hedges := Json.Decoder.Reads.list reads_edge
  refine (Json.Decoder.tagged_holding_iff [("single", Json.Decoder.uint64.map Targets.single),
    ("nodes", (Json.Decoder.list .uint64).map Targets.nodes),
    ("edges", (Json.Decoder.list Edge.decoder).map Targets.edges)]).trans ?_
  simp only [Dict.lookup_cons_ite, List.lookup_nil]
  constructor
  · rintro ⟨name, d, j', hd, rfl, h⟩
    split_ifs at hd with h1 h2 h3 <;> cases hd <;>
      obtain ⟨x, hx, rfl⟩ := Json.Decoder.map_eq_some_iff.1 h
    · rw [h1, (hsingle _ _).1 hx]
      exact .single x
    · obtain ⟨js, rfl, hjs⟩ := (hnodes _ _).1 hx
      rw [h2, show js = x.map fun t => .nat t.toNat from ?_]
      · exact .nodes x
      · rwa [← List.forall₂_eq_eq_eq, List.forall₂_map_right_iff]
    · obtain ⟨js, rfl, hjs⟩ := (hedges _ _).1 hx
      rw [h3]
      exact .edges hjs
  · rintro (⟨t⟩ | ⟨ts⟩ | ⟨h⟩)
    · refine ⟨"single", Json.Decoder.uint64.map .single, _, by simp, rfl, ?_⟩
      exact Json.Decoder.map_eq_some_iff.2 ⟨t, (hsingle _ _).2 rfl, rfl⟩
    · refine ⟨"nodes", (Json.Decoder.list .uint64).map .nodes, _, by simp, rfl, ?_⟩
      refine Json.Decoder.map_eq_some_iff.2 ⟨ts, (hnodes _ _).2 ⟨_, rfl, ?_⟩, rfl⟩
      rw [List.forall₂_map_left_iff, List.forall₂_same]
      exact fun _ _ => rfl
    · refine ⟨"edges", (Json.Decoder.list Edge.decoder).map .edges, _, by simp, rfl, ?_⟩
      exact Json.Decoder.map_eq_some_iff.2 ⟨_, (hedges _ _).2 ⟨_, rfl, h⟩, rfl⟩

theorem Kind.lookup_map {α : Type} (f : Kind → α) (name : String) (ks : List Kind) :
    (ks.map fun k => (k.name, f k)).lookup name = (ks.find? (·.name == name)).map f := by
  induction ks with
  | nil => rfl
  | cons k ks ih =>
    rw [List.map_cons, Dict.lookup_cons_ite, ih, List.find?_cons]
    by_cases h : name = k.name
    · simp [h]
    · have : (k.name == name) = false := by simpa using Ne.symm h
      simp [h, this]

theorem reads_kind : Reads Kind.decoder Kind.SpelledBy := by
  intro j k
  rw [Kind.decoder, Json.Decoder.tagged_eq_some_iff]
  constructor
  · rintro ⟨name, c, hc, h⟩
    rw [Kind.lookup_map, Option.map_eq_some_iff] at hc
    obtain ⟨k', hk', rfl⟩ := hc
    have hname : k'.name = name := by simpa using List.find?_some hk'
    subst hname
    rcases h with ⟨rfl, h⟩ | ⟨j', rfl, h⟩
    · cases h
      exact .name k
    · cases j' with
      | null => cases h; exact .case k
      | _ => cases h
  · have hlookup := Kind.lookup_map Json.Decoder.Case.bare k.name Kind.all
    rw [show Kind.all.find? (·.name == k.name) = some k from Kind.ofName?_name k] at hlookup
    rintro (_ | _)
    · exact ⟨k.name, _, hlookup, .inl ⟨rfl, rfl⟩⟩
    · exact ⟨k.name, _, hlookup, .inr ⟨_, rfl, rfl⟩⟩

theorem Node.ofMembers_fields_iff {ms : List (String × Json)} {s : Node.Draft} :
    Json.Decoder.ofMembers ms Node.fields {} = some s ↔
      Option.Rel (fun j n => j = .int n.toInt) (ms.lookup "id") s.id ∧
        Option.Rel Kind.SpelledBy (ms.lookup "kind") s.kind ∧
        Option.Rel (SpellsDict Eq) (ms.lookup "properties") s.properties ∧
        Option.Rel (SpellsDict Targets.SpelledBy) (ms.lookup "relationships") s.relationships := by
  simp only [Node.fields, Json.Decoder.ofMembers_field_iff Json.Decoder.reads_int64,
    Json.Decoder.ofMembers_field_iff reads_kind,
    Json.Decoder.ofMembers_field_iff (Json.Decoder.Reads.dict Json.Decoder.reads_value),
    Json.Decoder.ofMembers_field_iff (Json.Decoder.Reads.dict reads_targets),
    Json.Decoder.ofMembers_no_fields, Option.some_inj]
  constructor
  · rintro ⟨id?, hid, kind?, hkind, properties?, hproperties, relationships?, hrelationships, rfl⟩
    cases id? <;> cases kind? <;> cases properties? <;> cases relationships? <;>
      exact ⟨hid, hkind, hproperties, hrelationships⟩
  · rintro ⟨hid, hkind, hproperties, hrelationships⟩
    refine ⟨_, hid, _, hkind, _, hproperties, _, hrelationships, ?_⟩
    obtain ⟨id?, kind?, properties?, relationships?⟩ := s
    cases id? <;> cases kind? <;> cases properties? <;> cases relationships? <;> rfl

theorem Node.Draft.finish_eq_some_iff {s : Node.Draft} {n : Node} :
    s.finish = some n ↔ s.id = some n.id ∧ s.kind = some n.kind ∧
      n.properties = s.properties.getD .empty ∧ n.relationships = s.relationships.getD .empty := by
  obtain ⟨id?, kind?, properties?, relationships?⟩ := s
  obtain ⟨id, kind, properties, relationships⟩ := n
  cases id? <;> cases kind? <;> simp [Node.Draft.finish, eq_comm]

theorem reads_node : Reads Node.decoder Node.SpelledBy := by
  intro j n
  rw [Node.decoder, Json.Decoder.record_eq_some_iff (by decide)]
  simp only [Node.ofMembers_fields_iff, Node.Draft.finish_eq_some_iff, Node.SpelledBy,
    spellsDict?_iff]
  constructor
  · rintro ⟨ms, s, hms, ⟨hid, hkind, hproperties, hrelationships⟩, hid', hkind', hp, hr⟩
    rw [hid', Json.Decoder.rel_some_iff] at hid
    rw [hkind', Json.Decoder.rel_some_iff] at hkind
    obtain ⟨_, hid, rfl⟩ := hid
    exact ⟨ms, hms, hid, hkind, ⟨_, hproperties, hp⟩, _, hrelationships, hr⟩
  · rintro ⟨ms, hms, hid, hkind, ⟨properties?, hproperties, hp⟩, relationships?, hrelationships, hr⟩
    exact ⟨ms, ⟨some n.id, some n.kind, properties?, relationships?⟩, hms,
      ⟨Json.Decoder.rel_some_iff.2 ⟨_, hid, rfl⟩, Json.Decoder.rel_some_iff.2 hkind, hproperties,
        hrelationships⟩, rfl, rfl, hp, hr⟩

theorem reads_graph : Reads Graph.decoder Graph.SpelledBy := by
  intro j g
  have hlist := Json.Decoder.Reads.list reads_node
  rw [Graph.decoder, Json.Decoder.record_eq_some_iff (by decide)]
  simp only [Json.Decoder.ofMembers_field_iff hlist, Json.Decoder.ofMembers_no_fields,
    Option.some_inj]
  constructor
  · rintro ⟨ms, _, hms, ⟨nodes?, hnodes, rfl⟩, hg⟩
    cases nodes? with
    | none => cases hg
    | some ns =>
      obtain ⟨_, hlookup, js, rfl, hjs⟩ := Json.Decoder.rel_some_iff.1 hnodes
      cases hg
      exact ⟨ms, js, hms, hlookup, hjs⟩
  · rintro ⟨ms, js, hms, hlookup, hjs⟩
    exact ⟨ms, some g.nodes.toList, hms,
      ⟨some g.nodes.toList, Json.Decoder.rel_some_iff.2 ⟨_, hlookup, js, rfl, hjs⟩, rfl⟩, rfl⟩

/-! ### The written form -/

theorem Json.spellsDict_ofDict (d : Dict Json) : SpellsDict Eq (Json.ofDict d) d :=
  ⟨d.entries, d.entries, rfl, List.forall₂_same.2 fun _ _ => ⟨rfl, rfl⟩, d.ofList_entries.symm⟩

theorem Edge.spelledBy_toJson (e : Edge) : SpelledBy e.toJson e := by
  refine ⟨_, rfl, ?_, ?_⟩
  · simp [Dict.lookup_cons_ite]
  · simpa [Dict.lookup_cons_ite] using Json.spellsDict_ofDict e.properties

theorem Targets.spelledBy_toJson (ts : Targets) : SpelledBy ts.toJson ts := by
  cases ts with
  | single t => exact .single t
  | nodes ts => exact .nodes ts
  | edges es =>
    refine .edges ?_
    rw [List.forall₂_map_left_iff, List.forall₂_same]
    exact fun e _ => e.spelledBy_toJson

theorem Json.spellsDict_relationships (d : Dict Targets) :
    SpellsDict Targets.SpelledBy (Json.ofDict (d.map Targets.toJson)) d := by
  refine ⟨_, d.entries, rfl, ?_, d.ofList_entries.symm⟩
  rw [Dict.map, List.forall₂_map_left_iff, List.forall₂_same]
  exact fun e _ => ⟨rfl, e.2.spelledBy_toJson⟩

theorem Node.spelledBy_toJson (n : Node) : SpelledBy n.toJson n := by
  refine ⟨_, rfl, ?_, ⟨.text n.kind.name, ?_, .name n.kind⟩, ?_, ?_⟩
  · simp
  · simp [Dict.lookup_cons_ite]
  · simpa [Dict.lookup_cons_ite] using Json.spellsDict_ofDict n.properties
  · simpa [Dict.lookup_cons_ite] using Json.spellsDict_relationships n.relationships

/-! ### Survival -/

/-- The written form of the graph that a value spells. -/
def Graph.normalForm? (j : Json) : Option Json :=
  (Graph.decoder.ofJson j).map Graph.toJson

/-- The written form of a graph is one of the values that spell it. -/
theorem Graph.spelledBy_toJson (g : Graph) : SpelledBy g.toJson g := by
  refine ⟨_, _, rfl, rfl, ?_⟩
  rw [List.forall₂_map_left_iff, List.forall₂_same]
  exact fun n _ => n.spelledBy_toJson

/-- **Graphs survive their JSON form.** A graph is read back from the form in which it is written.
The values that are read are those that spell a graph, with fields left out, in a list or beside
others, and the graph that is read from one of them is read again from its written form: a normal
form is its own normal form. -/
theorem Graph.decode_toJson :
    (∀ g : Graph, decoder.ofJson g.toJson = some g) ∧
      (∀ j g, decoder.ofJson j = some g ↔ SpelledBy j g) ∧
      ∀ j, (decoder.ofJson j).bind (fun g => decoder.ofJson g.toJson) = decoder.ofJson j ∧
        (normalForm? j).bind normalForm? = normalForm? j := by
  have hsurvives (g : Graph) : decoder.ofJson g.toJson = some g :=
    (reads_graph _ g).2 g.spelledBy_toJson
  refine ⟨hsurvives, reads_graph, fun j => ⟨?_, ?_⟩⟩
  · rw [funext hsurvives]
    exact Option.bind_fun_some _
  · cases hj : decoder.ofJson j with
    | none => simp [normalForm?, hj]
    | some g => simp [normalForm?, hj, hsurvives]

/-- A node in a list, without the fields at its end, and a member that is no field. -/
example : Graph.normalForm?
      (.object [("extra", .null), ("nodes", .list [.list [.int 7, .text "Block"]])]) =
    some (Graph.mk #[Node.bare 7 .block]).toJson := by
  rfl

end CodeGraph
