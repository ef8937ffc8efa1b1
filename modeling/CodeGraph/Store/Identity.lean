import CodeGraph.Program.Graph

/-!
# Identities of stored nodes

A node gets an *identity* when it is stored. An `IdMap` holds the identities of the slots of one
graph; slots that are not stored have none.

* `Identity.fresh n`: the `n`-th identity of a supply that never repeats itself, spelled like a
  random 128-bit identifier;
* `IdMap.get?`: the identity of a slot, through which all other operations are described;
* `IdMap.assign`, `IdMap.size`, `IdMap.entries`.
-/

namespace CodeGraph

/-- The identity of a stored node. -/
structure Identity where
  /-- How the identity is written. -/
  text : String
deriving DecidableEq, Repr, Inhabited

/-- The `n`-th identity of a supply. Its hexadecimal digits stand in five groups; the third group
begins with the version and the fourth with the variant of a random identifier, and the first group
is as long as it takes. -/
def Identity.fresh (n : Nat) : Identity :=
  let ds := Text.padZeros 30 (Text.showHex n)
  let (front, ds) := ds.splitAt (ds.length - 22)
  let (second, ds) := ds.splitAt 4
  let (third, ds) := ds.splitAt 3
  let (fourth, last) := ds.splitAt 3
  ⟨String.ofList (['-'].intercalate [front, second, '4' :: third, '8' :: fourth, last])⟩

/-- The identities of slots. Slots behind the last one of the array have none. -/
structure IdMap where
  ids : Array (Option Identity)

namespace IdMap

/-- No identities, with room for some slots. -/
def ofSize (slots : Nat) : IdMap := ⟨Array.replicate slots none⟩

/-- The identity of a slot. -/
def get? (m : IdMap) (s : Slot) : Option Identity :=
  (m.ids[s]?).join

/-- Whether a slot has an identity. -/
def contains (m : IdMap) (s : Slot) : Bool :=
  (m.get? s).isSome

/-- The identities with room for a slot. -/
def reserve (m : IdMap) (s : Nat) : Array (Option Identity) :=
  m.ids ++ Array.replicate (s + 1 - m.ids.size) none

/-- The map in which a slot has a given identity. -/
def assign (m : IdMap) (s : Slot) (id : Identity) : IdMap :=
  ⟨(m.reserve s).setIfInBounds s (some id)⟩

/-- The slots that have an identity, in order, with their identities. -/
def entries (m : IdMap) : List (Slot × Identity) :=
  (m.ids.toList.mapIdx fun s id => id.map fun id => (s, id)).filterMap id

/-- The number of slots that have an identity. -/
def size (m : IdMap) : Nat :=
  m.ids.toList.countP Option.isSome

/-- Whether no slot has an identity. -/
def isEmpty (m : IdMap) : Bool :=
  m.size == 0

@[simp] theorem get?_ofSize (slots : Nat) (s : Slot) : (ofSize slots).get? s = none := by
  simp only [get?, ofSize, Array.getElem?_replicate]
  split <;> rfl

/-- Assigning gives one slot its identity and leaves all others alone. -/
theorem get?_assign (m : IdMap) (s t : Nat) (id : Identity) :
    (m.assign s id).get? t = if t = s then some id else m.get? t := by
  have hs : s < (m.reserve s).size := by
    have : (m.reserve s).size = m.ids.size + (s + 1 - m.ids.size) := by simp [reserve]
    omega
  simp only [get?, assign, Array.getElem?_setIfInBounds]
  by_cases h : s = t
  · subst h
    simp [hs]
  · rw [if_neg h, if_neg (fun h' => h h'.symm)]
    simp only [reserve, Array.getElem?_append, Array.getElem?_replicate]
    split
    · rfl
    · rename_i hlt
      have hnone : m.ids[t]? = none := Array.getElem?_eq_none (by omega)
      rw [hnone]
      split <;> rfl

end IdMap

end CodeGraph
