import CodeGraph.Settings.Value

/-!
# Paths to settings

A path leads through tables and lists to one setting: `persist.node_chunk_size`, `servers[0].host`.

* `Path.read?`: the path that a text spells;
* `Setting.merge`: adds the members of a table to a setting;
* `Setting.put`: sets what a path leads to. What is on the way becomes a table or a list;
* `Setting.find?`: what stands under the keys of nested tables.

`find?_put` says what setting a member of a section does to every such member.
-/

namespace CodeGraph.Setting

open Text (isAsciiLetter isAsciiDigit decimal? int64?)

/-- One step of a path. -/
inductive Step
  /-- To the member of a table. -/
  | key (name : String)
  /-- To the item of a list; a negative position counts from the end. -/
  | index (position : Int)
deriving DecidableEq, Repr

/-- A path to a setting. -/
abbrev Path := List Step

/-! ### Reading paths -/

namespace Path

/-- Whether a character may stand in a key of a path. -/
def isKeyChar (c : Char) : Bool :=
  isAsciiLetter c || isAsciiDigit c || c == ' ' || c == '_' || c == '-'

/-- The key at the front of a text. -/
def readKey (cs : List Char) : Option (Step × List Char) :=
  let name := cs.takeWhile isKeyChar
  if name.isEmpty then none
  else some (.key (lower (String.ofList name)), cs.dropWhile isKeyChar)

/-- The position that a text spells, with white space around it. -/
def position? (cs : List Char) : Option Int :=
  match cs.dropWhile Toml.isSpace with
  | '-' :: cs => (decimal? (Text.dropEndWhile Toml.isSpace cs)).map fun n => -(n : Int)
  | cs => (decimal? (Text.dropEndWhile Toml.isSpace cs)).map Int.ofNat

/-- The position at the front of a text, with the bracket behind it. -/
def readIndex (cs : List Char) : Option (Step × List Char) :=
  match cs.dropWhile (· != ']') with
  | _ :: rest =>
    ((position? (cs.takeWhile (· != ']'))).bind int64?).map fun i => (.index i, rest)
  | [] => none

/-- The further steps of a path. The first argument bounds their number. -/
def readSteps : Nat → List Char → Option Path
  | _, [] => some []
  | 0, _ :: _ => none
  | fuel + 1, c :: cs => do
    let (s, cs) ← if c = '.' then readKey cs else if c = '[' then readIndex cs else none
    return s :: (← readSteps fuel cs)

/-- The path that a text spells: a key, behind which further keys follow points and positions stand
in brackets. -/
def read? (text : String) : Option Path := do
  let (s, cs) ← readKey text.toList
  return s :: (← readSteps cs.length cs)

/-- The path of a member of a whole document. A key that spells no path is a key as it is. -/
def ofKey (key : String) : Path :=
  (read? key).getD [.key key]

end Path

/-! ### Setting -/

mutual

/-- Puts a setting under a key. A table is merged into what is there. -/
def store (key : String) : Setting → List (String × Setting) → List (String × Setting)
  | .table ms, old => Dict.insertInto key (merge ms ((old.lookup key).getD (.table []))) old
  | v, old => Dict.insertInto key v old

/-- Adds members to a setting, which becomes a table if there are any. -/
def merge : List (String × Setting) → Setting → Setting
  | [], old => old
  | (key, v) :: ms, old => merge ms (.table (store key v old.members))

end

/-- The place that a position stands for in a list of some length. -/
def place (length : Nat) (position : Int) : Nat :=
  if 0 ≤ position then position.toNat else length - position.natAbs

/-- Sets what a path leads to. -/
def put (v : Setting) : Path → Setting → Setting
  | [], _ => v
  | [.key name], old => .table (store name v old.members)
  | .key name :: path, old =>
    .table (Dict.insertInto name (put v path ((old.members.lookup name).getD .null)) old.members)
  | .index i :: path, old =>
    let n := place old.items.length i
    let items := old.items ++ List.replicate (n + 1 - old.items.length) .null
    .list (items.set n (put v path (items.getD n .null)))

@[simp] theorem merge_nil (old : Setting) : merge [] old = old := by
  simp [merge]

@[simp] theorem merge_cons (key : String) (v : Setting) (ms : List (String × Setting))
    (old : Setting) : merge ((key, v) :: ms) old = merge ms (.table (store key v old.members)) := by
  simp [merge]

/-- To store what is no table is to write one key. -/
theorem store_of_ne_table {v : Setting} (h : ∀ ms, v ≠ .table ms) (key : String)
    (old : List (String × Setting)) : store key v old = Dict.insertInto key v old := by
  cases v <;> simp_all [store]

/-! ### Looking up -/

/-- What stands under some keys, each in the table under the one before. -/
def find? : List String → Setting → Option Setting
  | [], v => some v
  | key :: keys, v => (v.members.lookup key).bind (find? keys)

@[simp] theorem members_table (ms : List (String × Setting)) : (table ms).members = ms := rfl

theorem find?_singleton (key : String) (v : Setting) : find? [key] v = v.members.lookup key := by
  simp only [find?]
  exact Option.bind_fun_some _

theorem find?_pair (topic key : String) (v : Setting) :
    find? [topic, key] v = (v.members.lookup topic).bind (find? [key]) := rfl

/-- To set a member of a section that is no table sets this member and no other, whatever was there
before. -/
theorem find?_put {v : Setting} (h : ∀ ms, v ≠ .table ms) (topic key topic' key' : String)
    (old : Setting) :
    find? [topic', key'] (put v [.key topic, .key key] old) =
      if topic' = topic ∧ key' = key then some v else find? [topic', key'] old := by
  simp only [put, find?_pair, members_table, Dict.lookup_insertInto, store_of_ne_table h]
  by_cases ht : topic' = topic
  · subst ht
    simp only [if_true, true_and]
    rw [Option.bind_some, find?_singleton, members_table, Dict.lookup_insertInto]
    cases old.members.lookup topic' with
    | none => rfl
    | some v' =>
      rw [Option.bind_some, find?_singleton]
      rfl
  · simp [ht]

end CodeGraph.Setting
