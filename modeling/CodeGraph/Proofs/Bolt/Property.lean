import CodeGraph.Bolt.Client

/-!
# Properties on the wire

Properties are JSON values, and the server takes values of its own. Every JSON value but null has one
of them that it is sent as, and properties that are null are not sent.

* `Converts`, `converts_iff`, `exists_converts_iff`: what a JSON value is sent as;
* `IsSent`, `isSent_of_get?_eq`: whether a property is sent as it should be;
* `get?_ofProperties`, `get?_ofProperties_of_text`: what is sent of some properties.
-/

namespace CodeGraph.Bolt

/-- What a JSON value is sent as. Integers that fit no signed word are sent as the closest double, and
lists and objects as their text. There is nothing to send null as. -/
inductive Converts : Json → Value → Prop
  | bool (b : Bool) : Converts (.bool b) (.bool b)
  | int {n : Int} (h : n < twoTo 63) : Converts (.number (.int n)) (.int n)
  | large {n : Int} (h : twoTo 63 ≤ n) :
      Converts (.number (.int n)) (.float (Binary64.ofWord (UInt64.ofNat n.toNat)))
  | float (x : Binary64) : Converts (.number (.float x)) (.float x)
  | text (s : String) : Converts (.text s) (.text s)
  | list (items : List Json) : Converts (.list items) (.text (Json.list items).write)
  | object (members : List (String × Json)) :
      Converts (.object members) (.text (Json.object members).write)

theorem converts_iff {j : Json} {v : Value} : Converts j v ↔ ofJson? j = some v := by
  constructor
  · intro h
    cases h with
    | int h => exact if_pos h
    | large h => exact if_neg (Int.not_lt.2 h)
    | _ => rfl
  · intro h
    cases j with
    | null => cases h
    | bool b => cases h; exact .bool b
    | number n =>
      cases n with
      | int n =>
        by_cases hn : n < twoTo 63
        · rw [ofJson?, if_pos hn] at h
          cases h
          exact .int hn
        · rw [ofJson?, if_neg hn] at h
          cases h
          exact .large (Int.not_lt.1 hn)
      | float x => cases h; exact .float x
    | text s => cases h; exact .text s
    | list items => cases h; exact .list items
    | object members => cases h; exact .object members

/-- Every value but null is sent as one value. -/
theorem exists_converts_iff {j : Json} : (∃ v, Converts j v) ↔ j ≠ .null := by
  constructor
  · rintro ⟨v, hv⟩ rfl
    cases hv
  · intro h
    cases j with
    | null => exact absurd rfl h
    | bool b => exact ⟨_, .bool b⟩
    | number n =>
      cases n with
      | int n =>
        rcases Int.lt_or_le n (twoTo 63) with hn | hn
        · exact ⟨_, .int hn⟩
        · exact ⟨_, .large hn⟩
      | float x => exact ⟨_, .float x⟩
    | text s => exact ⟨_, .text s⟩
    | list items => exact ⟨_, .list items⟩
    | object members => exact ⟨_, .object members⟩

/-- Whether a property is sent if and only if it is given and not null, and then as what its value is
sent as. -/
structure IsSent (given : Dict Json) (sent : Dict Value) (key : String) : Prop where
  present : (∃ v, sent.get? key = some v) ↔ ∃ j, given.get? key = some j ∧ j ≠ .null
  converted : ∀ v, sent.get? key = some v ↔ ∃ j, given.get? key = some j ∧ Converts j v

theorem isSent_of_get?_eq {given : Dict Json} {sent : Dict Value} {key : String}
    (h : sent.get? key = (given.get? key).bind ofJson?) : IsSent given sent key := by
  have hconverted : ∀ v, sent.get? key = some v ↔ ∃ j, given.get? key = some j ∧ Converts j v := by
    intro v
    simp only [h, Option.bind_eq_some_iff, converts_iff]
  refine ⟨?_, hconverted⟩
  simp only [hconverted, ← exists_converts_iff]
  constructor
  · rintro ⟨v, j, hj, hv⟩
    exact ⟨j, hj, v, hv⟩
  · rintro ⟨j, hj, v, hv⟩
    exact ⟨v, j, hj, hv⟩

theorem get?_ofProperties (d : Dict Json) (key : String) :
    (ofProperties d).get? key = (d.get? key).bind ofJson? :=
  d.get?_filterMap ofJson? key

/-- A text is sent as it is. -/
theorem get?_ofProperties_of_text {d : Dict Json} {key text : String}
    (h : d.get? key = some (.text text)) : (ofProperties d).get? key = some (.text text) := by
  rw [get?_ofProperties, h]
  rfl

end CodeGraph.Bolt
