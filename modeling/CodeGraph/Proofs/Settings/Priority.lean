import CodeGraph.Proofs.Settings.Layer
import CodeGraph.Proofs.Outcome

/-!
# Which layer an item is set by

Every item of the settings is set by itself: by the last override that has a value for it, or else
by a variable of the environment, or else by the file, or else not at all, when it keeps its
default.

* `Item.inFile`, `Item.inEnvironment`, `Item.inOverrides`: what an item is set to in each place;
* `IsPlainFile`, `ArePlainVariables`, `ArePlainOverrides`: what is set are items, each to something
  of worth;
* `Item.standard`: the overrides that variables of their own stand for;
* `settled_of_load`: the settings that are loaded, item by item.
-/

namespace CodeGraph.Settings

open Layer (IsPlain value? valuesAt)

namespace Item

/-- The path of an item. -/
def path (i : Item) : Setting.Path :=
  [.key i.topic, .key i.key]

/-- The text that spells the path of an item. -/
def spelled (i : Item) : String :=
  i.topic ++ "." ++ i.key

theorem ofKey_topic (i : Item) : Setting.Path.ofKey i.topic = [.key i.topic] := by
  cases i <;> decide

theorem read?_spelled (i : Item) : Setting.Path.read? i.spelled = some i.path := by
  cases i <;> decide

theorem ofKey_spelled (i : Item) : Setting.Path.ofKey i.spelled = i.path := by
  rw [Setting.Path.ofKey, read?_spelled, Option.getD_some]

theorem path_injective {i j : Item} (h : i.path = j.path) : i = j := by
  simp only [path, List.cons.injEq, Setting.Step.key.injEq, and_true] at h
  exact key_injective h.2

theorem path_inj {i j : Item} : i.path = j.path ↔ i = j :=
  ⟨path_injective, congrArg path⟩

theorem spelled_injective {i j : Item} (h : i.spelled = j.spelled) : i = j :=
  path_injective (Option.some.inj (by rw [← read?_spelled, h, read?_spelled]))

/-- What a file sets an item to: the last value under its key in a section of its topic. -/
def inFile (i : Item) (ms : List (String × Setting)) : Option Setting :=
  ((ms.flatMap fun e => if e.1 = i.topic then e.2.members else []).filterMap fun e =>
    if e.1 = i.key then some e.2 else none).getLast?

/-- What variables set an item to: what the value of the last variable that spells it spells. -/
def inEnvironment (i : Item) (vars : List (String × String)) : Option Setting :=
  (vars.filterMap fun e =>
    if Layer.variableKey? e.1 = some i.spelled then some (.ofVariable e.2) else none).getLast?

/-- What overrides set an item to: the text of the last override of its path that has one. -/
def inOverrides (i : Item) (given : List (String × Option String)) : Option Setting :=
  (given.filterMap fun e =>
    if Setting.Path.read? e.1 = some i.path then e.2.map .text else none).getLast?

/-- What the variables that stand for overrides set an item to. -/
def standard (vars : List (String × String)) : Item → Option Setting
  | .host => (vars.lookup "NEO4J_HOST").map .text
  | .user => (vars.lookup "NEO4J_USER").map .text
  | .password => (vars.lookup "NEO4J_PASSWORD").map .text
  | _ => none

end Item

/-- A table of sections in which items are set, each to something of worth. -/
def IsPlainFile (ms : List (String × Setting)) : Prop :=
  ∀ e ∈ ms, ∃ (i : Item) (inner : List (String × Setting)),
    e.1 = i.topic ∧ e.2 = .table inner ∧ Layer.IsPlainSection i.topic inner

/-- Variables of which those for settings set items, each to something of worth. -/
def ArePlainVariables (vars : List (String × String)) : Prop :=
  ∀ e ∈ vars, ∀ key, Layer.variableKey? e.1 = some key →
    ∃ i : Item, key = i.spelled ∧ (i.worth? (Setting.ofVariable e.2)).isSome

/-- Overrides of which those with a value set items, each to something of worth. -/
def ArePlainOverrides (given : List (String × Option String)) : Prop :=
  ∀ e ∈ given, ∀ text, e.2 = some text →
    ∃ i : Item, Setting.Path.read? e.1 = some i.path ∧ (i.worth? (.text text)).isSome

/-- The table in the file with settings, whatever its format; an empty one if there is no such file.
-/
def fileTable? (formats : Layer.Formats) (read : String → Option String) (name : String) :
    Option (List (String × Setting)) :=
  match formats.findFile read name with
  | some (f, text) => formats.table? f text
  | none => some []

/-! ### The layers -/

theorem valuesAt_path (i j : Item) (v : Setting) :
    valuesAt i j.path v = if j = i then [v] else [] := by
  by_cases hij : j = i
  · subst hij
    simp [valuesAt, Item.path]
  · have hkey : j.key ≠ i.key := fun hkey => hij (Item.key_injective hkey)
    simp [valuesAt, Item.path, hkey, hij]

theorem valuesAt_topic (i : Item) (topic : String) (v : Setting) :
    valuesAt i [.key topic] v = if topic = i.topic then
      v.members.filterMap fun e => if e.1 = i.key then some e.2 else none else [] := by
  simp [valuesAt]

theorem fileLayer_eq_ok {formats : Layer.Formats} {read : String → Option String} {name : String}
    {ms : List (String × Setting)} (h : fileTable? formats read name = some ms) :
    fileLayer formats read name = .ok (ms.map fun e => (Setting.Path.ofKey e.1, e.2)) := by
  unfold fileTable? at h
  unfold fileLayer
  cases hfile : formats.findFile read name with
  | none =>
    rw [hfile] at h
    cases h
    rfl
  | some file =>
    obtain ⟨f, text⟩ := file
    rw [hfile] at h
    simp only [Layer.Formats.file?, show formats.table? f text = some ms from h]
    rfl

theorem plain_file {ms : List (String × Setting)} (h : IsPlainFile ms) :
    IsPlain (ms.map fun e => (Setting.Path.ofKey e.1, e.2)) ∧
      ∀ i : Item, value? i (ms.map fun e => (Setting.Path.ofKey e.1, e.2)) = i.inFile ms := by
  constructor
  · intro e he
    obtain ⟨e, he', rfl⟩ := List.mem_map.1 he
    obtain ⟨j, inner, htopic, htable, hinner⟩ := h e he'
    exact .inr ⟨j.topic, inner, by rw [htopic, Item.ofKey_topic], htable, hinner⟩
  · intro i
    rw [value?, Item.inFile, List.flatMap_map, List.filterMap_flatMap]
    refine congrArg List.getLast? ?_
    refine List.flatMap_congr fun e he => ?_
    obtain ⟨j, inner, htopic, -, -⟩ := h e he
    rw [htopic, Item.ofKey_topic, valuesAt_topic]
    split <;> rfl

/-- The keys that variables spell, with what their values spell. -/
def spelledBy (vars : List (String × String)) : List (String × Setting) :=
  vars.filterMap fun e => (Layer.variableKey? e.1).map fun key => (key, Setting.ofVariable e.2)

theorem environment_eq (vars : List (String × String)) : Layer.environment vars =
    (Dict.ofList (spelledBy vars)).entries.map fun e => (Setting.Path.ofKey e.1, e.2) := rfl

theorem exists_item_of_mem_entries {vars : List (String × String)} (h : ArePlainVariables vars)
    {e : String × Setting} (he : e ∈ (Dict.ofList (spelledBy vars)).entries) :
    ∃ i : Item, e.1 = i.spelled ∧ (i.worth? e.2).isSome := by
  obtain ⟨key, v⟩ := e
  rw [← Dict.get?_eq_some_iff, Dict.get?_ofList] at he
  obtain ⟨e, he, hv⟩ := List.mem_filterMap.1 (List.mem_of_getLast? he)
  obtain ⟨var, hvar, hmap⟩ := List.mem_filterMap.1 he
  obtain ⟨key, hkey, rfl⟩ := Option.map_eq_some_iff.1 hmap
  simp only [Option.ite_none_right_eq_some, Option.some.injEq] at hv
  obtain ⟨rfl, rfl⟩ := hv
  exact h var hvar key hkey

theorem plain_environment {vars : List (String × String)} (h : ArePlainVariables vars) :
    IsPlain (Layer.environment vars) ∧
      ∀ i : Item, value? i (Layer.environment vars) = i.inEnvironment vars := by
  rw [environment_eq]
  constructor
  · intro e he
    obtain ⟨e, he', rfl⟩ := List.mem_map.1 he
    obtain ⟨i, hkey, hworth⟩ := exists_item_of_mem_entries h he'
    exact .inl ⟨i, by rw [hkey, Item.ofKey_spelled]; rfl, hworth⟩
  · intro i
    -- variables that spell the same key are one entry, the last of them
    have hvalues : ((Dict.ofList (spelledBy vars)).entries.map fun e =>
        (Setting.Path.ofKey e.1, e.2)).flatMap (fun e => valuesAt i e.1 e.2) =
          (Dict.ofList (spelledBy vars)).entries.filterMap fun e =>
            if e.1 = i.spelled then some e.2 else none := by
      rw [List.flatMap_map, List.filterMap_eq_flatMap_toList]
      refine List.flatMap_congr fun e he => ?_
      obtain ⟨j, hkey, -⟩ := exists_item_of_mem_entries h he
      rw [hkey, Item.ofKey_spelled, valuesAt_path]
      by_cases hij : j = i
      · subst hij
        simp
      · have hne : ¬ j.spelled = i.spelled := fun h => hij (Item.spelled_injective h)
        rw [if_neg hij, if_neg hne]
        rfl
    rw [value?, hvalues, ← Dict.get?_ofList, Dict.ofList_entries, Dict.get?_ofList, spelledBy,
      List.filterMap_filterMap, Item.inEnvironment]
    refine congrArg List.getLast? ?_
    refine List.filterMap_congr fun e _ => ?_
    cases Layer.variableKey? e.1 with
    | none => rfl
    | some key => simp

theorem plain_overrides {given : List (String × Option String)} (h : ArePlainOverrides given) :
    ∃ top, Layer.overrides? given = some top ∧ IsPlain top ∧
      ∀ i : Item, value? i top = i.inOverrides given := by
  induction given with
  | nil => exact ⟨[], rfl, by simp [IsPlain], fun _ => rfl⟩
  | cons e given ih =>
    obtain ⟨key, value⟩ := e
    obtain ⟨hhead, htail⟩ := List.forall_mem_cons.1 h
    obtain ⟨top, htop, hplain, hvalue⟩ := ih htail
    cases value with
    | none => exact ⟨top, htop, hplain, fun i => by rw [hvalue]; simp [Item.inOverrides]⟩
    | some text =>
      obtain ⟨j, hpath, hworth⟩ := hhead text rfl
      refine ⟨(j.path, .text text) :: top, ?_, ?_, fun i => ?_⟩
      · rw [Layer.overrides?] at htop ⊢
        simp [hpath, htop]
      · exact List.forall_mem_cons.2 ⟨.inl ⟨j, rfl, hworth⟩, hplain⟩
      · rw [Layer.value?_cons, hvalue, valuesAt_path, Item.inOverrides, Item.inOverrides,
          Dict.getLast?_filterMap_cons, hpath]
        by_cases hij : j = i
        · subst hij
          simp
        · have hne : ¬ some j.path = some i.path := fun h =>
            hij (Item.path_injective (Option.some.inj h))
          rw [if_neg hij, if_neg hne]
          rfl

/-! ### Loading -/

theorem exists_load {formats : Layer.Formats} {read : String → Option String} {name : String}
    {vars : List (String × String)} {given : List (String × Option String)}
    {ms : List (String × Setting)} (hfile : fileTable? formats read name = some ms)
    (hms : IsPlainFile ms) (hvars : ArePlainVariables vars) (hgiven : ArePlainOverrides given) :
    ∃ s, load formats read name vars given = .ok s ∧ ∀ i : Item, i.IsSettled
      (((i.inOverrides given).or (i.inEnvironment vars)).or (i.inFile ms)) s := by
  obtain ⟨hplainFile, hvalueFile⟩ := plain_file hms
  obtain ⟨hplainVars, hvalueVars⟩ := plain_environment hvars
  obtain ⟨top, htop, hplainTop, hvalueTop⟩ := plain_overrides hgiven
  have hplain : IsPlain (ms.map (fun e => (Setting.Path.ofKey e.1, e.2)) ++
      Layer.environment vars ++ top) := by
    rw [IsPlain, List.forall_mem_append, List.forall_mem_append]
    exact ⟨⟨hplainFile, hplainVars⟩, hplainTop⟩
  obtain ⟨⟨table, htable, htables⟩, hfind⟩ := Layer.find?_onto Setting.hasSections_empty hplain
  have hset (i : Item) : Setting.find? [i.topic, i.key] (.table table) =
      ((i.inOverrides given).or (i.inEnvironment vars)).or (i.inFile ms) := by
    rw [← htable, hfind, Layer.value?_append, Layer.value?_append, hvalueTop, hvalueVars,
      hvalueFile, ← Option.or_assoc]
    exact Option.or_none
  obtain ⟨s, hs, hsettled⟩ := exists_read_sections htables fun i v hv => by
    refine Layer.isSome_worth?_of_value? hplain ?_
    rw [← hv, ← htable, hfind]
    exact Option.or_none.symm
  refine ⟨s, ?_, fun i => hset i ▸ hsettled i⟩
  rw [load, htop, fileLayer_eq_ok hfile]
  change expect .wrongValue (sections.read {} (Layer.onto _ (.table []))) = _
  rw [htable, hs]
  rfl

theorem plain_standardOverrides (vars : List (String × String)) :
    ArePlainOverrides (standardOverrides vars) := by
  rintro e he text -
  simp only [standardOverrides, List.mem_cons, List.not_mem_nil, or_false] at he
  rcases he with rfl | rfl | rfl
  · exact ⟨.host, Item.read?_spelled .host, rfl⟩
  · exact ⟨.user, Item.read?_spelled .user, rfl⟩
  · exact ⟨.password, Item.read?_spelled .password, rfl⟩

theorem inOverrides_standardOverrides (vars : List (String × String)) (i : Item) :
    i.inOverrides (standardOverrides vars) = i.standard vars := by
  have hhost := Item.read?_spelled .host
  have huser := Item.read?_spelled .user
  have hpassword := Item.read?_spelled .password
  change Setting.Path.read? "neo4j.host" = _ at hhost
  change Setting.Path.read? "neo4j.user" = _ at huser
  change Setting.Path.read? "neo4j.password" = _ at hpassword
  simp only [Item.inOverrides, standardOverrides, Dict.getLast?_filterMap_cons, hhost, huser,
    hpassword, Option.some.injEq, Item.path_inj]
  cases i <;> simp [Item.standard]

/-- **The layers of an item.** From a file of any format, variables and overrides that set items to
something of worth, settings can be loaded, and every item by itself is what the last override with
a value for it sets, or else the environment, or else the file, or else its default. Which file that
is may depend on the order in which the formats are tried. The overrides of a program that is given
none are the variables for the host, the user and the password. -/
theorem settled_of_load {formats : Layer.Formats} {read : String → Option String} {name : String}
    {vars : List (String × String)} {ms : List (String × Setting)}
    (hfile : fileTable? formats read name = some ms) (hms : IsPlainFile ms)
    (hvars : ArePlainVariables vars) :
    (∀ given, ArePlainOverrides given → ∃ s, load formats read name vars given = .ok s ∧
      ∀ i : Item, i.IsSettled
        (((i.inOverrides given).or (i.inEnvironment vars)).or (i.inFile ms)) s) ∧
    ∃ s, load formats read name vars (standardOverrides vars) = .ok s ∧
      ∀ i : Item, i.IsSettled
        (((i.standard vars).or (i.inEnvironment vars)).or (i.inFile ms)) s := by
  refine ⟨fun given hgiven => exists_load hfile hms hvars hgiven, ?_⟩
  obtain ⟨s, hs, hsettled⟩ := exists_load hfile hms hvars (plain_standardOverrides vars)
  exact ⟨s, hs, fun i => inOverrides_standardOverrides vars i ▸ hsettled i⟩

/-! ### A file with one item -/

theorem readMembers_last {σ : Type} {member : σ → List Char → Json.Result (σ × List Char)}
    {s : σ} {cs rest : List Char} (s' : σ) (h : member s cs = .ok (s', '}' :: rest)) (n : Nat) :
    Json.readMembers member (n + 1) s ('"' :: cs) = .ok (s', rest) := by
  rw [Json.readMembers, h]
  rfl

/-- An object with one member. -/
theorem readValue_object {depth : Nat} {cs cs' rest : List Char} {key : String} {j : Json}
    (hkey : Json.readQuoted [] cs = .ok (key, ':' :: cs')) (hgap : Json.skipGap cs' = cs')
    (hvalue : Json.readValue depth cs' = .ok (j, '}' :: rest)) :
    Json.readValue (depth + 1) ('{' :: '"' :: cs) = .ok (.object [(key, j)], rest) := by
  change (Json.readMembers _ _ Dict.empty _).map _ = _
  rw [readMembers_last (Dict.empty.insert key j)]
  · rfl
  · rw [hkey]
    change (Json.readValue depth (Json.skipGap cs') >>= _) = _
    rw [hgap, hvalue]
    rfl

/-- A directory with one file, which sets the port. -/
def portFile (name : String) : Option String :=
  if name = "irgraph.json" then some "\x7b\"neo4j\":\x7b\"port\":7\x7d\x7d" else none

theorem fileTable?_portFile :
    fileTable? .common portFile "irgraph" = some [("neo4j", .table [("port", .int 7)])] := by
  have hport : Json.readValue 126 "\x7b\"port\":7\x7d\x7d".toList =
      .ok (.object [("port", .int 7)], ['}']) :=
    readValue_object (by simp [Json.readQuoted]; rfl) rfl
      (show Json.readValue 125 ['7', '}', '}'] = .ok (.int 7, ['}', '}']) from rfl)
  have hserver : Json.readValue 127 "\x7b\"neo4j\":\x7b\"port\":7\x7d\x7d".toList =
      .ok (.object [("neo4j", .object [("port", .int 7)])], []) :=
    readValue_object (by simp [Json.readQuoted]; rfl) rfl hport
  have hdocument : Json.document "\x7b\"neo4j\":\x7b\"port\":7\x7d\x7d" =
      .ok (.object [("neo4j", .object [("port", .int 7)])]) := by
    change (Json.readValue 127 "\x7b\"neo4j\":\x7b\"port\":7\x7d\x7d".toList >>= _) = _
    rw [hserver]
    rfl
  change Layer.Formats.common.table? .json "\x7b\"neo4j\":\x7b\"port\":7\x7d\x7d" = _
  rw [Layer.Formats.table?, hdocument]
  rfl

/-- Variables of which one sets an item and one is an override of another. -/
def portVariables : List (String × String) :=
  [("PATH", "/bin"), ("IRGRAPH__NEO4J__USER", "a"), ("NEO4J_HOST", "b")]

theorem plain_portVariables : ArePlainVariables portVariables := by
  simp only [ArePlainVariables, portVariables, List.forall_mem_cons, List.not_mem_nil]
  have hpath : Layer.variableKey? "PATH" = none := by decide
  have huser : Layer.variableKey? "IRGRAPH__NEO4J__USER" = some Item.user.spelled := by decide
  have hhost : Layer.variableKey? "NEO4J_HOST" = none := by decide
  simp only [hpath, huser, hhost, reduceCtorEq, Option.some.injEq]
  refine ⟨by simp, ?_, by simp, by simp⟩
  rintro _ rfl
  exact ⟨.user, rfl, rfl⟩

/-- The port is from the file, the user from an override or else a variable, and the limit is the
default. -/
theorem load_portFile :
    (∃ s, load .common portFile "irgraph" portVariables
        [("neo4j.user", some "c"), ("neo4j.user", none)] = .ok s ∧
      s.server.user = "c" ∧ s.server.tcpPort = 7 ∧ s.rowLimit = 150) ∧
    ∃ s, load .common portFile "irgraph" portVariables (standardOverrides portVariables) = .ok s ∧
      s.server.host = "b" ∧ s.server.user = "a" ∧ s.server.tcpPort = 7 ∧ s.rowLimit = 150 := by
  have hms : IsPlainFile [("neo4j", .table [("port", .int 7)])] := by
    refine List.forall_mem_singleton.2 ⟨.tcpPort, _, rfl, rfl, ?_⟩
    exact List.forall_mem_singleton.2 ⟨.tcpPort, rfl, rfl, rfl⟩
  have hgiven : ArePlainOverrides [("neo4j.user", some "c"), ("neo4j.user", none)] := by
    refine List.forall_mem_cons.2 ⟨fun text h => ⟨.user, Item.read?_spelled .user, rfl⟩, ?_⟩
    exact List.forall_mem_singleton.2 fun text h => (Option.some_ne_none _ h.symm).elim
  obtain ⟨hload, s, hs, hsettled⟩ :=
    settled_of_load fileTable?_portFile hms plain_portVariables
  obtain ⟨t, ht, hsettled'⟩ := hload _ hgiven
  refine ⟨⟨t, ht, ?_, ?_, hsettled' .rowLimit⟩, s, hs, ?_, ?_, ?_, hsettled .rowLimit⟩
  · exact (Option.some.inj (hsettled' .user)).symm
  · exact (Option.some.inj (hsettled' .tcpPort)).symm
  · exact (Option.some.inj (hsettled .host)).symm
  · exact (Option.some.inj (hsettled .user)).symm
  · exact (Option.some.inj (hsettled .tcpPort)).symm

end CodeGraph.Settings
