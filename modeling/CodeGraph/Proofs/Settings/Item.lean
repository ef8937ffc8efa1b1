import CodeGraph.Settings.Load
import Mathlib.Data.Option.Basic

/-!
# The items of the settings

Settings have ten items in three sections. An item is set under the key of its section and a key of
its own, and what it is set to has to be worth something to it: a text, a number of so many bits, or
for the address a text or nothing.

* `Item`, `Item.topic`, `Item.key`: the items and where they are set;
* `Item.worth?`, `Item.of`: what a value is worth to an item, and what the item is in given
  settings;
* `Item.IsSettled`: an item is worth what it is set to, or else its default;
* `exists_read_sections`: the settings that a table of sections holds, item by item.
-/

namespace CodeGraph.Settings

/-- What can be set. -/
inductive Item
  | host
  | tcpPort
  | address
  | user
  | password
  | maxConnections
  | fetchSize
  | nodeChunk
  | edgeChunk
  | rowLimit
deriving DecidableEq, Repr

namespace Item

/-- The key of the section that an item is in. -/
def topic : Item → String
  | .nodeChunk | .edgeChunk => "persist"
  | .rowLimit => "query"
  | _ => "neo4j"

/-- The key of an item in its section. -/
def key : Item → String
  | .host => "host"
  | .tcpPort => "port"
  | .address => "uri"
  | .user => "user"
  | .password => "password"
  | .maxConnections => "max_connections"
  | .fetchSize => "fetch_size"
  | .nodeChunk => "node_chunk_size"
  | .edgeChunk => "edge_chunk_size"
  | .rowLimit => "result_limit"

/-- What an item can be. -/
def Worth : Item → Type
  | .host | .user | .password => String
  | .address => Option String
  | _ => Nat

/-- What a value is worth to the address: a text, or nothing at all. -/
def addressWorth? : Setting → Option (Option String)
  | .null => some none
  | v => v.text?.map some

/-- What a value is worth to an item. -/
def worth? : (i : Item) → Setting → Option i.Worth
  | .host | .user | .password => Setting.text?
  | .address => addressWorth?
  | .tcpPort => Setting.word? 16
  | .maxConnections => Setting.word? 32
  | .fetchSize | .nodeChunk | .edgeChunk | .rowLimit => Setting.word? 64

/-- What an item is in some settings. -/
def of (s : Settings) : (i : Item) → i.Worth
  | .host => s.server.host
  | .tcpPort => s.server.tcpPort
  | .address => s.server.address?
  | .user => s.server.user
  | .password => s.server.password
  | .maxConnections => s.server.maxConnections
  | .fetchSize => s.server.fetchSize
  | .nodeChunk => s.chunks.nodes
  | .edgeChunk => s.chunks.edges
  | .rowLimit => s.rowLimit

/-- An item is worth what it is set to; if it is not set, it is what it is by default. -/
def IsSettled (i : Item) (set? : Option Setting) (s : Settings) : Prop :=
  match set? with
  | some v => i.worth? v = some (i.of s)
  | none => i.of s = i.of {}

theorem key_injective {i j : Item} (h : i.key = j.key) : i = j := by
  cases i <;> cases j <;> first | rfl | exact absurd h (by decide)

end Item

/-! ### Sections -/

namespace Section

variable {σ α : Type}

/-- A setting of a section is what its value is worth, or what it was before. -/
theorem ofMembers_cons {ms : List (String × Setting)} {key : String}
    {change : σ → Setting → Option σ} {fs : Section σ} (s : σ) (worth? : Setting → Option α)
    (get : σ → α) (set : σ → α → σ) (hset : set s (get s) = s)
    (hchange : ∀ v, change s v = (worth? v).map (set s))
    (h : ∀ v, ms.lookup key = some v → (worth? v).isSome) :
    ofMembers ms ((key, change) :: fs) s =
      ofMembers ms fs (set s (((ms.lookup key).bind worth?).getD (get s))) := by
  rw [ofMembers]
  cases hv : ms.lookup key with
  | none => rw [Option.bind_none, Option.getD_none, hset]
  | some v =>
    obtain ⟨a, ha⟩ := Option.isSome_iff_exists.1 (h v hv)
    simp [hchange, ha]

end Section

/-- What an item of a section is worth in a table, or what it was before. -/
def Item.inTable (i : Item) (ms : List (String × Setting)) (before : i.Worth) : i.Worth :=
  ((ms.lookup i.key).bind i.worth?).getD before

/-- Every item of a section that a table sets is set to something of worth. -/
def HasWorth (topic : String) (ms : List (String × Setting)) : Prop :=
  ∀ i : Item, i.topic = topic → ∀ v, ms.lookup i.key = some v → (i.worth? v).isSome

variable {ms : List (String × Setting)}

/-- The settings of the server in a table. -/
def serverOf (ms : List (String × Setting)) (s : Server) : Server where
  host := Item.host.inTable ms s.host
  tcpPort := Item.tcpPort.inTable ms s.tcpPort
  address? := Item.address.inTable ms s.address?
  user := Item.user.inTable ms s.user
  password := Item.password.inTable ms s.password
  maxConnections := Item.maxConnections.inTable ms s.maxConnections
  fetchSize := Item.fetchSize.inTable ms s.fetchSize

/-- The settings of chunks in a table. -/
def chunksOf (ms : List (String × Setting)) (c : Chunks) : Chunks where
  nodes := Item.nodeChunk.inTable ms c.nodes
  edges := Item.edgeChunk.inTable ms c.edges

theorem ofMembers_serverSection (h : HasWorth "neo4j" ms) (s : Server) :
    serverSection.ofMembers ms s = some (serverOf ms s) := by
  refine (Section.ofMembers_cons s Item.host.worth? Server.host
    (fun s x => { s with host := x }) rfl (fun _ => rfl) (h .host rfl)).trans ?_
  refine (Section.ofMembers_cons _ Item.tcpPort.worth? Server.tcpPort
    (fun s x => { s with tcpPort := x }) rfl (fun _ => rfl) (h .tcpPort rfl)).trans ?_
  refine (Section.ofMembers_cons _ Item.address.worth? Server.address?
    (fun s x => { s with address? := x }) rfl (fun v => ?_) (h .address rfl)).trans ?_
  · cases v <;> rfl
  refine (Section.ofMembers_cons _ Item.user.worth? Server.user
    (fun s x => { s with user := x }) rfl (fun _ => rfl) (h .user rfl)).trans ?_
  refine (Section.ofMembers_cons _ Item.password.worth? Server.password
    (fun s x => { s with password := x }) rfl (fun _ => rfl) (h .password rfl)).trans ?_
  refine (Section.ofMembers_cons _ Item.maxConnections.worth? Server.maxConnections
    (fun s x => { s with maxConnections := x }) rfl (fun _ => rfl) (h .maxConnections rfl)).trans ?_
  refine (Section.ofMembers_cons _ Item.fetchSize.worth? Server.fetchSize
    (fun s x => { s with fetchSize := x }) rfl (fun _ => rfl) (h .fetchSize rfl)).trans ?_
  rfl

theorem ofMembers_chunksSection (h : HasWorth "persist" ms) (c : Chunks) :
    chunksSection.ofMembers ms c = some (chunksOf ms c) := by
  refine (Section.ofMembers_cons c Item.nodeChunk.worth? Chunks.nodes
    (fun c x => { c with nodes := x }) rfl (fun _ => rfl) (h .nodeChunk rfl)).trans ?_
  refine (Section.ofMembers_cons _ Item.edgeChunk.worth? Chunks.edges
    (fun c x => { c with edges := x }) rfl (fun _ => rfl) (h .edgeChunk rfl)).trans ?_
  rfl

theorem ofMembers_querySection (h : HasWorth "query" ms) (n : Nat) :
    querySection.ofMembers ms n = some (Item.rowLimit.inTable ms n) := by
  refine (Section.ofMembers_cons n Item.rowLimit.worth? (fun n => n)
    (fun _ x => x) rfl (fun v => ?_) (h .rowLimit rfl)).trans rfl
  exact Option.map_id'.symm

/-! ### All sections -/

/-- The table of a section; an empty one if the section is not there. -/
def sectionTable (ms : List (String × Setting)) (topic : String) : List (String × Setting) :=
  ((ms.lookup topic).getD (.table [])).members

theorem find?_eq_lookup_sectionTable (ms : List (String × Setting)) (topic key : String) :
    Setting.find? [topic, key] (.table ms) = (sectionTable ms topic).lookup key := by
  rw [Setting.find?_pair, Setting.members_table, sectionTable]
  cases ms.lookup topic with
  | none => rfl
  | some v => exact Setting.find?_singleton key v

/-- The members of a table are tables. -/
def HasTables (ms : List (String × Setting)) : Prop :=
  ∀ topic v, ms.lookup topic = some v → ∃ inner, v = .table inner

/-- To read a section is to read the members of its table. -/
theorem isSome_read_of_ofMembers (htables : HasTables ms) {σ : Type} {fs : Section σ}
    {topic : String} {s t : σ} (h : fs.ofMembers (sectionTable ms topic) s = some t)
    (hnil : fs.ofMembers [] s = some s) :
    (∀ v, ms.lookup topic = some v → (fs.read s v).isSome) ∧
      ((ms.lookup topic).bind (fs.read s)).getD s = t := by
  cases hv : ms.lookup topic with
  | none =>
    rw [sectionTable, hv] at h
    exact ⟨fun _ h => (Option.some_ne_none _ h.symm).elim, Option.some.inj (hnil.symm.trans h)⟩
  | some v =>
    obtain ⟨inner, rfl⟩ := htables topic v hv
    rw [sectionTable, hv] at h
    have hread : fs.read s (.table inner) = some t := h
    refine ⟨?_, by rw [Option.bind_some, hread]; rfl⟩
    rintro _ ⟨⟩
    rw [hread]
    rfl

theorem Item.isSettled_of_eq {i : Item} {s : Settings}
    (hworth : HasWorth i.topic (sectionTable ms i.topic))
    (h : i.of s = i.inTable (sectionTable ms i.topic) (i.of {})) :
    i.IsSettled (Setting.find? [i.topic, i.key] (.table ms)) s := by
  rw [find?_eq_lookup_sectionTable]
  unfold IsSettled
  rw [inTable] at h
  cases hv : (sectionTable ms i.topic).lookup i.key with
  | none => rwa [hv] at h
  | some v =>
    obtain ⟨x, hx⟩ := Option.isSome_iff_exists.1 (hworth i rfl v hv)
    rw [hv, Option.bind_some, hx] at h
    exact hx.trans (congrArg some h.symm)

/-- A table of sections whose items are worth something holds settings in which every item is worth
what it is set to, or else its default. -/
theorem exists_read_sections (htables : HasTables ms)
    (hworth : ∀ (i : Item) v, Setting.find? [i.topic, i.key] (.table ms) = some v →
      (i.worth? v).isSome) :
    ∃ s, sections.read {} (.table ms) = some s ∧
      ∀ i : Item, i.IsSettled (Setting.find? [i.topic, i.key] (.table ms)) s := by
  have hin (topic : String) : HasWorth topic (sectionTable ms topic) := by
    rintro i rfl v hv
    exact hworth i v ((find?_eq_lookup_sectionTable ms i.topic i.key).trans hv)
  obtain ⟨hserver, hserver'⟩ :=
    isSome_read_of_ofMembers htables (ofMembers_serverSection (hin "neo4j") {}) rfl
  obtain ⟨hchunks, hchunks'⟩ :=
    isSome_read_of_ofMembers htables (ofMembers_chunksSection (hin "persist") {}) rfl
  obtain ⟨hquery, hquery'⟩ :=
    isSome_read_of_ofMembers htables (ofMembers_querySection (hin "query") 150) rfl
  refine ⟨⟨serverOf (sectionTable ms "neo4j") {}, chunksOf (sectionTable ms "persist") {},
    Item.rowLimit.inTable (sectionTable ms "query") (150 : Nat)⟩, ?_,
    fun i => Item.isSettled_of_eq (hin i.topic) (by cases i <;> rfl)⟩
  rw [← hserver', ← hchunks', ← hquery']
  rw [sections, Section.read]
  refine Eq.trans (Section.ofMembers_cons {} (serverSection.read {}) Settings.server
    (fun s x => { s with server := x }) rfl (fun _ => rfl) hserver) ?_
  refine Eq.trans (Section.ofMembers_cons _ (chunksSection.read {}) Settings.chunks
    (fun s x => { s with chunks := x }) rfl (fun _ => rfl) hchunks) ?_
  exact Section.ofMembers_cons _ (querySection.read 150) Settings.rowLimit
    (fun s x => { s with rowLimit := x }) rfl (fun _ => rfl) hquery

end CodeGraph.Settings
