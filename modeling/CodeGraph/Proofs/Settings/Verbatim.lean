import CodeGraph.Proofs.Settings.Priority
import CodeGraph.Proofs.Text.Number

/-!
# Texts that variables set

A variable of the environment is typed before its value gets to an item: what spells a truth value or
a number becomes one. An item that holds a text gets the value written out again, which need not be
the text that the variable was set to, and two texts can become the same. An override is not typed.

* `Spells`, `spells_ofVariable`, `Spells.ofVariable_eq`: the values that texts spell;
* `Arrives`, `IsVerbatim`, `Arrives.eq_iff`: what a text becomes, and when it stays as it is;
* `Item.isText`, `Item.textOf`, `exists_load_text`: items that hold a text;
* `arrives_of_load`: the texts that variables and overrides set;
* `load_paddedPassword`: two passwords that become the same.
-/

namespace CodeGraph.Settings

open Text (SpellsInteger int64? integer?_eq_some_iff)

/-! ### What texts spell -/

/-- The word for a truth value. -/
def truthWord (b : Bool) : String := if b then "true" else "false"

/-- Whether a text spells a value: a truth value in any case, an integer of sixty-four bits, or
another number. -/
inductive Spells (text : String) : Setting → Prop
  | truth {b : Bool} (h : text.toList.map Char.toLower = (truthWord b).toList) :
      Spells text (.bool b)
  | integer {n : Int} (h : SpellsInteger text.toList n) (hfits : int64? n = some n) :
      Spells text (.int n)
  | number {x : Binary64} (h : Decimal.read? text = some x)
      (hinteger : ∀ n, SpellsInteger text.toList n → int64? n = none) : Spells text (.float x)

theorem eq_of_int64? {n m : Int} (h : int64? n = some m) : m = n := by
  rw [int64?, Option.ite_none_right_eq_some] at h
  exact (Option.some.inj h.2).symm

theorem truth?_eq_some_iff {text : String} {b : Bool} :
    Setting.truth? [("true", true), ("false", false)] text = some b ↔
      text.toList.map Char.toLower = (truthWord b).toList := by
  have hlower (word : String) : String.ofList (text.toList.map Char.toLower) = word ↔
      text.toList.map Char.toLower = word.toList := by
    rw [← String.toList_inj, String.toList_ofList]
  rw [Setting.truth?, Dict.lookup_cons_ite, Dict.lookup_cons_ite, List.lookup_nil, ← hlower]
  generalize String.ofList (text.toList.map Char.toLower) = word
  by_cases htrue : word = "true"
  · subst htrue
    cases b <;> simp [truthWord]
  · by_cases hfalse : word = "false"
    · subst hfalse
      cases b <;> simp [truthWord]
    · cases b <;> simp [truthWord, htrue, hfalse]

/-- Digits have no case. -/
theorem toLower_of_isAsciiDigit {c : Char} (h : Text.isAsciiDigit c = true) : c.toLower = c := by
  simp only [Text.isAsciiDigit, Bool.and_eq_true, decide_eq_true_eq] at h
  have hlow : ¬ 'A'.toNat ≤ c.toNat := fun hlow => absurd (Nat.le_trans hlow h.2) (by decide)
  exact dif_neg fun hupper => hlow hupper.1

/-- A truth value begins with a letter. -/
theorem exists_cons_of_truth {cs : List Char} {b : Bool}
    (h : cs.map Char.toLower = (truthWord b).toList) : ∃ c rest, cs = c :: rest ∧
      Text.isAsciiDigit c = false ∧ c ≠ '-' ∧ c ≠ '+' ∧ c ≠ '.' := by
  have hfirst : ∃ d ds, cs.map Char.toLower = d :: ds ∧ (d = 't' ∨ d = 'f') := by
    cases b with
    | true => exact ⟨_, _, h, .inl rfl⟩
    | false => exact ⟨_, _, h, .inr rfl⟩
  obtain ⟨d, ds, hd, hcase⟩ := hfirst
  obtain ⟨c, rest, rfl, rfl, -⟩ := List.map_eq_cons_iff.1 hd
  have hne {e : Char} (he : e.toLower = e) (hcase' : ¬ (e = 't' ∨ e = 'f')) : c ≠ e := by
    rintro rfl
    exact hcase' (he ▸ hcase)
  refine ⟨c, rest, rfl, ?_, hne (by decide) (by decide), hne (by decide) (by decide),
    hne (by decide) (by decide)⟩
  rw [← Bool.not_eq_true]
  intro hdigit
  refine hne (toLower_of_isAsciiDigit hdigit) ?_ rfl
  rintro (rfl | rfl) <;> exact absurd hdigit (by decide)

/-- A truth value spells no number. -/
theorem not_number_of_truth {text : String} {b : Bool}
    (h : text.toList.map Char.toLower = (truthWord b).toList) :
    Text.integer? text.toList = none ∧ Decimal.read? text = none := by
  obtain ⟨c, rest, hcs, hdigit, hminus, hplus, hpoint⟩ := exists_cons_of_truth h
  have hsign : Text.readSign (c :: rest) = (false, c :: rest) := by
    unfold Text.readSign
    split
    case h_1 heq => exact absurd (List.cons.inj heq).1 hminus
    case h_2 heq => exact absurd (List.cons.inj heq).1 hplus
    case h_3 => rfl
  constructor
  · rw [Text.integer?_eq, hcs, hsign]
    simp [Text.decimal?, hdigit]
  · have hword : Decimal.words.lookup (String.ofList ((c :: rest).map Char.toLower)) = none := by
      rw [← hcs, h, String.ofList_toList]
      cases b <;> simp [truthWord, Decimal.words]
    have hfraction : Decimal.fraction (c :: rest) = ([], c :: rest) := by
      unfold Decimal.fraction
      split
      case h_1 heq => exact absurd (List.cons.inj heq).1 hpoint
      case h_2 => rfl
    have hunsigned : Decimal.unsigned? (c :: rest) = none := by
      rw [Decimal.unsigned?, hword]
      simp [hdigit, hfraction]
    simp [Decimal.read?, hcs, hsign, hunsigned]

theorem truth?_eq_none {text : String} (h : ∀ b, ¬ text.toList.map Char.toLower =
    (truthWord b).toList) : Setting.truth? [("true", true), ("false", false)] text = none :=
  Option.eq_none_iff_forall_ne_some.2 fun b hb => h b (truth?_eq_some_iff.1 hb)

/-- A text is typed as the value that it spells. -/
theorem Spells.ofVariable_eq {text : String} {v : Setting} (h : Spells text v) :
    Setting.ofVariable text = v := by
  cases h with
  | truth h => rw [Setting.ofVariable, truth?_eq_some_iff.2 h]
  | integer h hfits =>
    have hread := integer?_eq_some_iff.2 h
    have htruth := truth?_eq_none fun b hb => by
      rw [(not_number_of_truth hb).1] at hread
      cases hread
    rw [Setting.ofVariable, htruth, hread, Option.bind_some, hfits]
  | number h hinteger =>
    have htruth := truth?_eq_none fun b hb => by
      rw [(not_number_of_truth hb).2] at h
      cases h
    have hnone : (Text.integer? text.toList).bind int64? = none :=
      Option.bind_eq_none_iff.2 fun n hn => hinteger n (integer?_eq_some_iff.1 hn)
    rw [Setting.ofVariable, htruth, hnone, h]

/-- A text is typed as a value that it spells, or it is a text. -/
theorem spells_ofVariable (text : String) : Spells text (Setting.ofVariable text) ∨
    (∀ v, ¬ Spells text v) ∧ Setting.ofVariable text = .text text := by
  rw [Setting.ofVariable]
  cases htruth : Setting.truth? [("true", true), ("false", false)] text with
  | some b => exact .inl (.truth (truth?_eq_some_iff.1 htruth))
  | none =>
    cases hinteger : (Text.integer? text.toList).bind int64? with
    | some n =>
      obtain ⟨m, hm, hfits⟩ := Option.bind_eq_some_iff.1 hinteger
      obtain rfl := eq_of_int64? hfits
      exact .inl (.integer (integer?_eq_some_iff.1 hm) hfits)
    | none =>
      have hlarge : ∀ n, SpellsInteger text.toList n → int64? n = none := fun n hn =>
        Option.bind_eq_none_iff.1 hinteger n (integer?_eq_some_iff.2 hn)
      cases hnumber : Decimal.read? text with
      | some x => exact .inl (.number hnumber hlarge)
      | none =>
        refine .inr ⟨fun v hv => ?_, rfl⟩
        cases hv with
        | truth h => exact Option.some_ne_none _ ((truth?_eq_some_iff.2 h).symm.trans htruth)
        | integer h hfits => exact Option.some_ne_none _ (hfits.symm.trans (hlarge _ h))
        | number h _ => exact Option.some_ne_none _ (h.symm.trans hnumber)

/-! ### What becomes of texts -/

/-- Whether a text becomes another one where a variable sets it: what the value that it spells is
written as, or the same text if it spells none. -/
def Arrives (text written : String) : Prop :=
  (∃ v, Spells text v ∧ v.text? = some written) ∨ (∀ v, ¬ Spells text v) ∧ written = text

/-- Whether a text is what every value that it spells is written as. -/
def IsVerbatim (text : String) : Prop :=
  ∀ v, Spells text v → v.text? = some text

theorem arrives_iff {text written : String} :
    Arrives text written ↔ (Setting.ofVariable text).text? = some written := by
  constructor
  · rintro (⟨v, hspells, hwritten⟩ | ⟨hnone, heq⟩)
    · rwa [hspells.ofVariable_eq]
    · obtain ⟨-, htext⟩ := (spells_ofVariable text).resolve_left (hnone _)
      rw [htext, heq]
      rfl
  · intro h
    rcases spells_ofVariable text with hspells | ⟨hnone, htext⟩
    · exact .inl ⟨_, hspells, h⟩
    · rw [htext] at h
      exact .inr ⟨hnone, (Option.some.inj h).symm⟩

theorem exists_arrives (text : String) : ∃ written, Arrives text written := by
  rcases spells_ofVariable text with hspells | ⟨hnone, -⟩
  · obtain ⟨written, hwritten⟩ : ∃ written, (Setting.ofVariable text).text? = some written := by
      generalize Setting.ofVariable text = v at hspells
      cases hspells <;> exact ⟨_, rfl⟩
    exact ⟨written, .inl ⟨_, hspells, hwritten⟩⟩
  · exact ⟨text, .inr ⟨hnone, rfl⟩⟩

/-- A text stays as it is if and only if it is written as what it spells. -/
theorem Arrives.eq_iff {text written : String} (h : Arrives text written) :
    written = text ↔ IsVerbatim text := by
  rw [arrives_iff] at h
  constructor
  · rintro rfl v hv
    rwa [hv.ofVariable_eq] at h
  · intro hverbatim
    rcases spells_ofVariable text with hspells | ⟨-, htext⟩
    · exact Option.some.inj (h.symm.trans (hverbatim _ hspells))
    · rw [htext] at h
      exact (Option.some.inj h).symm

/-! ### Items that hold a text -/

namespace Item

/-- Whether an item holds a text. -/
def isText : Item → Bool
  | .host | .address | .user | .password => true
  | _ => false

/-- The text that an item holds in some settings. -/
def textOf (i : Item) (s : Settings) : Option String :=
  match i with
  | .host => some s.server.host
  | .address => s.server.address?
  | .user => some s.server.user
  | .password => some s.server.password
  | _ => none

/-- Whether variables set an item to a text: one of them spells the item, and all that do have this
value. -/
def IsSetTo (i : Item) (vars : List (String × String)) (text : String) : Prop :=
  (∃ e ∈ vars, Layer.variableKey? e.1 = some i.spelled) ∧
    ∀ e ∈ vars, Layer.variableKey? e.1 = some i.spelled → e.2 = text

theorem IsSetTo.inEnvironment_eq {i : Item} {vars : List (String × String)} {text : String}
    (h : i.IsSetTo vars text) : i.inEnvironment vars = some (.ofVariable text) := by
  obtain ⟨⟨e, he, hspelled⟩, hall⟩ := h
  have hmem : ∀ v ∈ vars.filterMap fun e => if Layer.variableKey? e.1 = some i.spelled then
      some (Setting.ofVariable e.2) else none, v = .ofVariable text := by
    intro v hv
    obtain ⟨e, he, hv⟩ := List.mem_filterMap.1 hv
    obtain ⟨hspelled, hv⟩ := Option.ite_none_right_eq_some.1 hv
    rw [← Option.some.inj hv, hall e he hspelled]
  cases hlast : i.inEnvironment vars with
  | none =>
    have hnil := List.filterMap_eq_nil_iff.1 (List.getLast?_eq_none_iff.1 hlast) e he
    rw [if_pos hspelled] at hnil
    cases hnil
  | some v => rw [hmem v (List.mem_of_getLast? hlast)]

theorem IsSettled.textOf_eq {i : Item} {v : Setting} {s : Settings} {text : String}
    (h : i.IsSettled (some v) s) (hi : i.isText = true) (hv : v.text? = some text) :
    i.textOf s = some text := by
  cases i with
  | host | user | password => exact h.symm.trans hv
  | address =>
    have hworth : addressWorth? v = some s.server.address? := h
    unfold addressWorth? at hworth
    split at hworth
    case h_1 => cases hv
    case h_2 =>
      rw [hv] at hworth
      exact (Option.some.inj hworth).symm
  | _ => cases hi

end Item

section Load

variable {formats : Layer.Formats} {read : String → Option String} {name : String}
  {vars : List (String × String)} {given : List (String × Option String)} {ms : List (String × Setting)}

/-- An item that holds a text is loaded as what it is set to is written. -/
theorem exists_load_text (hfile : fileTable? formats read name = some ms) (hms : IsPlainFile ms)
    (hvars : ArePlainVariables vars) (hgiven : ArePlainOverrides given) {i : Item}
    (hi : i.isText = true) {v : Setting} {text : String}
    (hset : ((i.inOverrides given).or (i.inEnvironment vars)).or (i.inFile ms) = some v)
    (hv : v.text? = some text) :
    ∃ s, load formats read name vars given = .ok s ∧ i.textOf s = some text := by
  obtain ⟨s, hs, hsettled⟩ := exists_load hfile hms hvars hgiven
  have hi' := hsettled i
  rw [hset] at hi'
  exact ⟨s, hs, hi'.textOf_eq hi hv⟩

/-- **Texts from variables and from overrides.** Where a variable sets an item that holds a text, and
no override does, the item is what the text becomes once it is typed. That is the same text if and
only if the text is written as what it spells. From an override the item gets every text as it is. -/
theorem arrives_of_load (hfile : fileTable? formats read name = some ms) (hms : IsPlainFile ms)
    (hvars : ArePlainVariables vars) (hgiven : ArePlainOverrides given) {i : Item}
    (hi : i.isText = true) (text : String) :
    (i.IsSetTo vars text → i.inOverrides given = none →
      ∃ s written, load formats read name vars given = .ok s ∧ i.textOf s = some written ∧
        Arrives text written ∧ (written = text ↔ IsVerbatim text)) ∧
    (i.inOverrides given = some (.text text) →
      ∃ s, load formats read name vars given = .ok s ∧ i.textOf s = some text) := by
  constructor
  · intro hset hnone
    obtain ⟨written, hwritten⟩ := exists_arrives text
    obtain ⟨s, hs, htext⟩ := exists_load_text hfile hms hvars hgiven hi
      (by rw [hnone, hset.inEnvironment_eq, Option.none_or, Option.some_or]) (arrives_iff.1 hwritten)
    exact ⟨s, written, hs, htext, hwritten, hwritten.eq_iff⟩
  · intro hset
    exact exists_load_text hfile hms hvars hgiven hi (by rw [hset, Option.some_or, Option.some_or]) rfl

end Load

theorem fileTable?_of_no_files (formats : Layer.Formats) (name : String) :
    fileTable? formats (fun _ => none) name = some [] := by
  have hfind : formats.findFile (fun _ => none) name = none :=
    List.findSome?_eq_none_iff.2 fun _ _ => rfl
  rw [fileTable?, hfind]

/-- One variable, which sets the password. -/
def passwordVariable (text : String) : List (String × String) :=
  [("IRGRAPH__NEO4J__PASSWORD", text)]

theorem variableKey?_password :
    Layer.variableKey? "IRGRAPH__NEO4J__PASSWORD" = some Item.password.spelled := by
  decide

theorem isSetTo_passwordVariable (text : String) :
    Item.password.IsSetTo (passwordVariable text) text :=
  ⟨⟨_, List.mem_singleton_self _, variableKey?_password⟩, List.forall_mem_singleton.2 fun _ => rfl⟩

theorem plain_passwordVariable (text : String) : ArePlainVariables (passwordVariable text) := by
  refine List.forall_mem_singleton.2 fun key hkey => ?_
  obtain rfl := Option.some.inj (hkey.symm.trans variableKey?_password)
  obtain ⟨written, hwritten⟩ := exists_arrives text
  refine ⟨.password, rfl, ?_⟩
  change (Setting.ofVariable text).text?.isSome = true
  rw [arrives_iff.1 hwritten, Option.isSome_some]

/-- A password loses its sign, and a user from an override keeps its zeros. -/
theorem arrives_of_load_signed :
    ∃ s, load .common (fun _ => none) "irgraph" (passwordVariable "+5") [("neo4j.user", some "007")] =
      .ok s ∧ s.server.password = "5" ∧ s.server.user = "007" := by
  have hfile := fileTable?_of_no_files .common "irgraph"
  have hvars := plain_passwordVariable "+5"
  have huser : Setting.Path.read? "neo4j.user" = some Item.user.path := Item.read?_spelled .user
  have hgiven : ArePlainOverrides [("neo4j.user", some "007")] :=
    List.forall_mem_singleton.2 fun text _ => ⟨.user, huser, rfl⟩
  obtain ⟨s, written, hs, hpassword, harrives, -⟩ :=
    (arrives_of_load hfile (List.forall_mem_nil _) hvars hgiven (i := .password) rfl "+5").1
      (isSetTo_passwordVariable "+5") (by simp [Item.inOverrides, huser, Item.path_inj])
  obtain ⟨t, ht, hname⟩ :=
    (arrives_of_load hfile (List.forall_mem_nil _) hvars hgiven (i := .user) rfl "007").2
      (by simp [Item.inOverrides, huser])
  obtain rfl : s = t := Except.ok.inj (hs.symm.trans ht)
  have hspells : Spells "+5" (.int 5) := .integer (SpellsInteger.plus 0 5) rfl
  rw [arrives_iff, hspells.ofVariable_eq] at harrives
  refine ⟨s, hs, ?_, Option.some.inj hname⟩
  exact (Option.some.inj hpassword).trans (Option.some.inj harrives).symm

/-- **Two passwords that become the same.** From a variable, a password with zeros before it is
loaded without them, and so is the one that has none; from an override it keeps them. -/
theorem load_paddedPassword :
    (∃ s, load .common (fun _ => none) "irgraph" (passwordVariable "007")
        (standardOverrides (passwordVariable "007")) = .ok s ∧ s.server.password = "7") ∧
    (∃ s, load .common (fun _ => none) "irgraph" (passwordVariable "7")
        (standardOverrides (passwordVariable "7")) = .ok s ∧ s.server.password = "7") ∧
    ∃ s, load .common (fun _ => none) "irgraph" [("NEO4J_PASSWORD", "007")]
      (standardOverrides [("NEO4J_PASSWORD", "007")]) = .ok s ∧ s.server.password = "007" := by
  have hfile := fileTable?_of_no_files .common "irgraph"
  have hload {text : String} (h : SpellsInteger text.toList 7) :
      ∃ s, load .common (fun _ => none) "irgraph" (passwordVariable text)
        (standardOverrides (passwordVariable text)) = .ok s ∧ s.server.password = "7" := by
    have hspells : Spells text (.int 7) := .integer h rfl
    have hset : ((Item.password.inOverrides (standardOverrides (passwordVariable text))).or
        (Item.password.inEnvironment (passwordVariable text))).or (Item.password.inFile []) =
          some (.int 7) := by
      rw [inOverrides_standardOverrides, (isSetTo_passwordVariable text).inEnvironment_eq,
        hspells.ofVariable_eq]
      rfl
    obtain ⟨s, hs, hpassword⟩ := exists_load_text hfile (List.forall_mem_nil _)
      (plain_passwordVariable text) (plain_standardOverrides _) rfl hset rfl
    exact ⟨s, hs, Option.some.inj hpassword⟩
  have hvars : ArePlainVariables [("NEO4J_PASSWORD", "007")] := by
    refine List.forall_mem_singleton.2 fun key hkey => ?_
    have hnone : Layer.variableKey? "NEO4J_PASSWORD" = none := by decide
    exact absurd (hkey.symm.trans hnone) (Option.some_ne_none _)
  have hset : ((Item.password.inOverrides (standardOverrides [("NEO4J_PASSWORD", "007")])).or
      (Item.password.inEnvironment [("NEO4J_PASSWORD", "007")])).or (Item.password.inFile []) =
        some (.text "007") := by
    rw [inOverrides_standardOverrides]
    rfl
  obtain ⟨s, hs, hpassword⟩ := exists_load_text hfile (List.forall_mem_nil _) hvars
    (plain_standardOverrides _) rfl hset rfl
  exact ⟨hload (SpellsInteger.plain 2 7), hload (SpellsInteger.plain 0 7), s, hs,
    Option.some.inj hpassword⟩

end CodeGraph.Settings
