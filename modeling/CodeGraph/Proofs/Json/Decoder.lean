import CodeGraph.Json.Decoder
import Mathlib.Data.List.Forall2

/-!
# What a decoder reads

`Decoder.Reads d P` says which values a decoder reads, and what it makes of them: `d` makes `a` of
`j` if and only if `P j a`. There is one rule for each way to make a decoder, so that the values a
composed decoder reads are told without a look at how it goes about it.

* `reads_uint64`, `reads_int64`, `reads_value`, `Reads.list`, `Reads.dict`: values, lists, free
  keys;
* `tagged_eq_some_iff`: cases;
* `fields?`, `record_eq_some_iff`, `ofMembers_field_iff`: records, whose fields are given by name or
  by place.
-/

namespace CodeGraph.Json

/-- The fields that a value gives a record: the members of an object, or the items of a list under
the names of the fields in order. -/
def fields? (names : List String) : Json → Option (List (String × Json))
  | .object ms => some ms
  | .list js => if js.length ≤ names.length then some (names.zip js) else none
  | _ => none

/-- An object spells a dictionary member by member; the last of equal keys counts. -/
def SpellsDict {α : Type} (P : Json → α → Prop) (j : Json) (d : Dict α) : Prop :=
  ∃ ms es, j = .object ms ∧ List.Forall₂ (fun m e => m.1 = e.1 ∧ P m.2 e.2) ms es ∧ d = .ofList es

namespace Decoder

variable {α β σ : Type}

/-- A decoder makes a datum of a value if and only if `P` holds of the two. -/
def Reads (d : Decoder α) (P : Json → α → Prop) : Prop :=
  ∀ j a, d.ofJson j = some a ↔ P j a

/-! ### Single values -/

theorem reads_value : Reads value Eq := by
  intro j a
  exact Option.some_inj

theorem int_eq_some_iff {f : Int → Option α} {j : Json} {a : α} :
    (int f).ofJson j = some a ↔ ∃ n, j = .int n ∧ f n = some a := by
  constructor
  · intro h
    cases j with
    | number n =>
      cases n with
      | int n => exact ⟨n, rfl, h⟩
      | float x => cases h
    | _ => cases h
  · rintro ⟨n, rfl, h⟩
    exact h

theorem reads_uint64 : Reads uint64 fun j w => j = .nat w.toNat := by
  intro j w
  rw [uint64, int_eq_some_iff]
  have htwo : twoTo 64 = 2 ^ 64 := by decide
  constructor
  · rintro ⟨n, rfl, h⟩
    simp only [Option.ite_none_right_eq_some, Option.some.injEq] at h
    obtain ⟨⟨hpos, hlt⟩, rfl⟩ := h
    have hn : (UInt64.ofNat n.toNat).toNat = n.toNat :=
      UInt64.toNat_ofNat_of_lt' (by simp only [UInt64.size]; omega)
    rw [hn, nat, Int.toNat_of_nonneg hpos]
    rfl
  · rintro rfl
    refine ⟨w.toNat, rfl, ?_⟩
    have hlt := w.toNat_lt
    rw [if_pos ⟨by omega, by omega⟩, Int.toNat_natCast, UInt64.ofNat_toNat]

theorem reads_int64 : Reads int64 fun j n => j = .int n.toInt := by
  intro j n
  rw [int64, int_eq_some_iff]
  have htwo : twoTo 63 = 2 ^ 63 := by decide
  constructor
  · rintro ⟨m, rfl, h⟩
    obtain ⟨m', hm, rfl⟩ := Option.map_eq_some_iff.1 h
    unfold Text.int64? at hm
    simp only [Option.ite_none_right_eq_some, Option.some.injEq] at hm
    obtain ⟨⟨hge, hlt⟩, rfl⟩ := hm
    rw [Int64.toInt_ofInt_of_le (by omega) (by omega)]
  · rintro rfl
    refine ⟨n.toInt, rfl, ?_⟩
    have hge := n.le_toInt
    have hlt := n.toInt_lt
    rw [Text.int64?, if_pos ⟨by omega, by omega⟩, Option.map_some, Int64.ofInt_toInt]

theorem map_eq_some_iff {f : α → β} {d : Decoder α} {j : Json} {b : β} :
    (d.map f).ofJson j = some b ↔ ∃ a, d.ofJson j = some a ∧ f a = b :=
  Option.map_eq_some_iff

/-! ### Lists and free keys -/

section

variable {d : Decoder α} {P : Json → α → Prop} (h : Reads d P)

include h

theorem ofItems_eq_some_iff {js : List Json} {as : List α} :
    ofItems d js = some as ↔ List.Forall₂ P js as := by
  induction js generalizing as with
  | nil =>
    rw [ofItems, List.forall₂_nil_left_iff, Option.some_inj]
    exact eq_comm
  | cons j js ih =>
    simp only [ofItems, Option.bind_eq_bind, Option.bind_eq_some_iff, Option.pure_def,
      Option.some_inj, List.forall₂_cons_left_iff]
    constructor
    · rintro ⟨a, ha, as', has, rfl⟩
      exact ⟨a, as', (h j a).1 ha, ih.1 has, rfl⟩
    · rintro ⟨a, as', ha, has, rfl⟩
      exact ⟨a, (h j a).2 ha, as', ih.2 has, rfl⟩

theorem ofEntries_eq_some_iff {ms : List (String × Json)} {es : List (String × α)} :
    ofEntries d ms = some es ↔ List.Forall₂ (fun m e => m.1 = e.1 ∧ P m.2 e.2) ms es := by
  induction ms generalizing es with
  | nil =>
    rw [ofEntries, List.forall₂_nil_left_iff, Option.some_inj]
    exact eq_comm
  | cons m ms ih =>
    obtain ⟨key, j⟩ := m
    simp only [ofEntries, Option.bind_eq_bind, Option.bind_eq_some_iff, Option.pure_def,
      Option.some_inj, List.forall₂_cons_left_iff]
    constructor
    · rintro ⟨a, ha, es', hes, rfl⟩
      exact ⟨(key, a), es', ⟨rfl, (h j a).1 ha⟩, ih.1 hes, rfl⟩
    · rintro ⟨⟨_, a⟩, es', ⟨rfl, ha⟩, hes, rfl⟩
      exact ⟨a, (h j a).2 ha, es', ih.2 hes, rfl⟩

theorem Reads.list : Reads (list d) fun j as => ∃ js, j = .list js ∧ List.Forall₂ P js as := by
  intro j as
  cases j with
  | list js =>
    rw [show (Decoder.list d).ofJson (.list js) = ofItems d js from rfl, ofItems_eq_some_iff h]
    simp
  | _ => simp [Decoder.list]

theorem Reads.dict : Reads (dict d) (SpellsDict P) := by
  intro j a
  cases j with
  | object ms =>
    rw [show (Decoder.dict d).ofJson (.object ms) = (ofEntries d ms).map Dict.ofList from rfl,
      Option.map_eq_some_iff]
    simp only [ofEntries_eq_some_iff h, SpellsDict, Json.object.injEq]
    constructor
    · rintro ⟨es, hes, rfl⟩
      exact ⟨ms, es, rfl, hes, rfl⟩
    · rintro ⟨_, es, rfl, hes, rfl⟩
      exact ⟨es, hes, rfl⟩
  | _ => simp [Decoder.dict, SpellsDict]

end

/-! ### Cases -/

theorem tagged_eq_some_iff {cases : List (String × Case α)} {j : Json} {a : α} :
    (tagged cases).ofJson j = some a ↔ ∃ name c, cases.lookup name = some c ∧
      ((j = .text name ∧ c.bare? = some a) ∨
        ∃ j', j = .object [(name, j')] ∧ c.ofJson j' = some a) := by
  constructor
  · intro h
    cases j with
    | text name =>
      obtain ⟨c, hc, ha⟩ := Option.bind_eq_some_iff.1 h
      exact ⟨name, c, hc, .inl ⟨rfl, ha⟩⟩
    | object ms =>
      match ms, h with
      | [(name, j')], h =>
        obtain ⟨c, hc, ha⟩ := Option.bind_eq_some_iff.1 h
        exact ⟨name, c, hc, .inr ⟨j', rfl, ha⟩⟩
    | _ => cases h
  · rintro ⟨name, c, hc, ⟨rfl, ha⟩ | ⟨j', rfl, ha⟩⟩
    · exact Option.bind_eq_some_iff.2 ⟨c, hc, ha⟩
    · exact Option.bind_eq_some_iff.2 ⟨c, hc, ha⟩

/-- A choice among cases that all hold data: an object with the name of a case over its data. -/
theorem tagged_holding_iff (cases : List (String × Decoder α)) {j : Json} {a : α} :
    (tagged (cases.map fun c => (c.1, .holding c.2))).ofJson j = some a ↔
      ∃ name d j', cases.lookup name = some d ∧ j = .object [(name, j')] ∧
        d.ofJson j' = some a := by
  have hlookup (name : String) : (cases.map fun c => (c.1, Case.holding c.2)).lookup name =
      (cases.lookup name).map Case.holding := by
    induction cases with
    | nil => rfl
    | cons c cases ih =>
      rw [List.map_cons, Dict.lookup_cons_ite, Dict.lookup_cons_ite, ih, apply_ite (Option.map _),
        Option.map_some]
  simp only [tagged_eq_some_iff, hlookup, Option.map_eq_some_iff]
  constructor
  · rintro ⟨name, _, ⟨d, hd, rfl⟩, ⟨-, h⟩ | ⟨j', hj, h⟩⟩
    · cases h
    · exact ⟨name, d, j', hd, hj, h⟩
  · rintro ⟨name, d, j', hd, hj, h⟩
    exact ⟨name, _, ⟨d, hd, rfl⟩, .inr ⟨j', hj, h⟩⟩

/-! ### Records -/

@[simp] theorem ofMembers_no_fields (ms : List (String × Json)) (s : σ) :
    ofMembers ms [] s = some s := rfl

@[simp] theorem ofMembers_no_members (fields : List (Field σ)) (s : σ) :
    ofMembers [] fields s = some s := by
  induction fields with
  | nil => rfl
  | cons f fields ih => exact ih

/-- A member that is no field is passed over. -/
theorem ofMembers_cons_of_not_mem {key : String} {j : Json} {ms : List (String × Json)}
    {fields : List (Field σ)} (h : key ∉ fields.map Field.name) (s : σ) :
    ofMembers ((key, j) :: ms) fields s = ofMembers ms fields s := by
  induction fields generalizing s with
  | nil => rfl
  | cons f fields ih =>
    rw [List.map_cons, List.mem_cons, not_or] at h
    have hlookup : ((key, j) :: ms).lookup f.name = ms.lookup f.name := by
      rw [Dict.lookup_cons_ite, if_neg (Ne.symm h.1)]
    rw [ofMembers, ofMembers, hlookup, funext (ih h.2)]

/-- The items of a list are read as members under the names of the fields. -/
theorem ofPositions_eq {fields : List (Field σ)} (hnodup : (fields.map Field.name).Nodup)
    (js : List Json) (s : σ) : ofPositions fields js s =
      if js.length ≤ fields.length then ofMembers ((fields.map Field.name).zip js) fields s
      else none := by
  induction fields generalizing js s with
  | nil =>
    cases js with
    | nil => rfl
    | cons j js => rfl
  | cons f fields ih =>
    cases js with
    | nil =>
      rw [ofPositions, List.zip_nil_right, ofMembers_no_members, if_pos (by simp)]
    | cons j js =>
      rw [List.map_cons, List.nodup_cons] at hnodup
      have hrest : ofMembers ((f.name, j) :: (fields.map Field.name).zip js) fields =
          ofMembers ((fields.map Field.name).zip js) fields :=
        funext fun s => ofMembers_cons_of_not_mem hnodup.1 s
      simp only [ofPositions, funext (ih hnodup.2 js), List.length_cons,
        Nat.add_le_add_iff_right, List.map_cons, List.zip_cons_cons, ofMembers,
        Dict.lookup_cons_ite, if_true, hrest]
      split
      · rfl
      · exact Option.bind_fun_none _

/-- A record is read field by field, whichever way the fields are given. -/
theorem record_eq_some_iff {fields : List (Field σ)} (hnodup : (fields.map Field.name).Nodup)
    {start : σ} {finish : σ → Option α} {j : Json} {a : α} :
    (record fields start finish).ofJson j = some a ↔
      ∃ ms s, fields? (fields.map Field.name) j = some ms ∧
        ofMembers ms fields start = some s ∧ finish s = some a := by
  cases j with
  | object ms => simp [record, fields?, Option.bind_eq_some_iff]
  | list js =>
    simp only [record, fields?, ofPositions_eq hnodup, List.length_map]
    split <;> simp [Option.bind_eq_some_iff]
  | _ => simp [record, fields?]

theorem rel_some_iff {P : Json → β → Prop} {j? : Option Json} {b : β} :
    Option.Rel P j? (some b) ↔ ∃ j, j? = some j ∧ P j b := by
  constructor
  · intro h
    cases h with
    | some h => exact ⟨_, rfl, h⟩
  · rintro ⟨j, rfl, h⟩
    exact .some h

/-- A field is read from its value, if it has one. -/
theorem ofMembers_field_iff {name : String} {d : Decoder β} {P : Json → β → Prop}
    (h : Reads d P) {get : σ → Option β} {set : σ → β → σ} {ms : List (String × Json)}
    {fields : List (Field σ)} {s t : σ} :
    ofMembers ms (field name d get set :: fields) s = some t ↔
      ∃ b?, Option.Rel P (ms.lookup name) b? ∧
        ofMembers ms fields (b?.elim s (set s)) = some t := by
  rw [ofMembers, field]
  cases ms.lookup name with
  | none =>
    constructor
    · exact fun ht => ⟨none, .none, ht⟩
    · rintro ⟨_, ⟨⟩, ht⟩
      exact ht
  | some j =>
    simp only [Option.bind_eq_some_iff, Option.map_eq_some_iff]
    constructor
    · rintro ⟨_, ⟨b, hb, rfl⟩, ht⟩
      exact ⟨some b, .some ((h j b).1 hb), ht⟩
    · rintro ⟨_, ⟨hb⟩, ht⟩
      exact ⟨_, ⟨_, (h j _).2 hb, rfl⟩, ht⟩

end Decoder

end CodeGraph.Json
