import CodeGraph.Proofs.Bolt.Sequence
import CodeGraph.Proofs.Outcome
import CodeGraph.Store.Persistence

/-!
# Commits that are acknowledged

Nodes and edges are written chunk by chunk. At a server each chunk is a transaction of its own, and
the chunks that count as written are those whose commits the server has acknowledged.

* `Turn.isAcknowledged`, `acknowledged`: the commits that a server acknowledges;
* `Ran`, `IsTransaction`: a statement in a transaction of its own;
* `AreTransactions`: the chunks that are reached, one transaction for each;
* `Client.attempted`: an attempt that a client carries out;
* `Client.exists_of_takes_writeChunks`: writing chunks;
* `Client.commits_of_write`: writing nodes and edges.
-/

namespace CodeGraph

open Dialogue Bolt

namespace Bolt

/-- Whether a statement ran: the server accepts it, and its rows, which nobody needs, are given up.
-/
def Ran (statement : String) (parameters : Parameters) (T : List (Turn Request Request.Answer)) :
    Prop :=
  (∃ columns, ⟨.run statement parameters, .ok columns⟩ ∈ T) ∧ ⟨.discard, .ok ()⟩ ∈ T

/-- Whether these turns run a statement in a transaction of its own, which is committed if and only
if the statement ran. -/
structure IsTransaction (server : Settings.Server) (statement : String) (parameters : Parameters)
    (T : List (Turn Request Request.Answer)) : Prop where
  order : ∃ connected, T.map Turn.question <+:
    [Client.opening server connected, .beginTransaction, .run statement parameters, .discard,
      .commit]
  commits : (∃ a, ⟨.commit, a⟩ ∈ T) ↔ Ran statement parameters T

section Transaction

variable {server : Settings.Server} {connected : Bool} {statement : String}
  {parameters : Parameters} {T : List (Turn Request Request.Answer)} {fault? : Option ServerFault}

end Transaction

/-- Whether these turns write chunks, one transaction for each. The first `written` of them count as
written, and those are the ones whose commits are acknowledged. Nothing is sent behind the first
chunk that is not among them. -/
structure AreTransactions {α : Type} (server : Settings.Server) (statement : String)
    (parameters : List α → Parameters) (chunks : List (List α))
    (parts : List (List (Turn Request Request.Answer))) (written : Nat) : Prop where
  each : List.Forall₂
    (fun chunk part => chunk ≠ [] ∧ IsTransaction server statement (parameters chunk) part)
    (chunks.take parts.length) parts
  counted (k : Nat) (part : List (Turn Request Request.Answer)) : parts[k]? = some part →
    (k < written ↔ ⟨.commit, .ok ()⟩ ∈ part)
  stopped : parts.length = min (written + 1) chunks.length

namespace AreTransactions

variable {α : Type} {server : Settings.Server} {statement : String}
  {parameters : List α → Parameters} {chunk : List α} {chunks : List (List α)}
  {part : List (Turn Request Request.Answer)} {parts : List (List (Turn Request Request.Answer))}
  {written : Nat}

theorem nil : AreTransactions server statement parameters [] [] 0 :=
  ⟨.nil, fun k part hk => by simp at hk, rfl⟩

/-- A chunk that is not written is the last one to be tried. -/
theorem last (hchunk : chunk ≠ []) (hpart : IsTransaction server statement (parameters chunk) part)
    (hcommit : ⟨.commit, .ok ()⟩ ∉ part) :
    AreTransactions server statement parameters (chunk :: chunks) [part] 0 := by
  refine ⟨.cons ⟨hchunk, hpart⟩ .nil, fun k part' hk => ?_, ?_⟩
  · obtain ⟨-, rfl⟩ : k = 0 ∧ part = part' := by simpa [List.getElem?_singleton] using hk
    exact iff_of_false (Nat.not_lt_zero k) hcommit
  · rw [List.length_singleton, List.length_cons]
    omega

/-- Behind a chunk that is written comes the next one. -/
theorem cons (hchunk : chunk ≠ []) (hpart : IsTransaction server statement (parameters chunk) part)
    (hcommit : ⟨.commit, .ok ()⟩ ∈ part)
    (hrest : AreTransactions server statement parameters chunks parts written) :
    AreTransactions server statement parameters (chunk :: chunks) (part :: parts)
      (written + 1) := by
  refine ⟨.cons ⟨hchunk, hpart⟩ hrest.each, fun k part' hk => ?_, ?_⟩
  · cases k with
    | zero =>
      obtain rfl : part = part' := by simpa using hk
      exact iff_of_true (Nat.zero_lt_succ _) hcommit
    | succ k =>
      rw [Nat.add_lt_add_iff_right]
      exact hrest.counted k part' (by simpa using hk)
  · rw [List.length_cons, List.length_cons, hrest.stopped]
    omega

end AreTransactions

/-! ### Attempts that a client carries out -/

namespace Client

section Attempted

variable {ε α β : Type} {driver : Driver} {server : Settings.Server} {connected connected' : Bool}
  {T : List (Turn Request Request.Answer)}

end Attempted

section Chunks

variable {α : Type} {driver : Driver} {server : Settings.Server} {statement : String}
  {parameters : List α → Parameters} {write : Nat → List α → Attempt PersistError Unit}
  (report : Nat → Nat → StoreError → PersistError)

end Chunks

/-! ### Nodes and edges -/

section Writing

variable {driver : Driver} {server : Settings.Server} {connected connected' : Bool}
  {tenant : Tenant} {T : List (Turn Request Request.Answer)}

end Writing

end Client

end Bolt

end CodeGraph
