import CodeGraph.Bolt.Client
import CodeGraph.Proofs.Transcript

/-!
# Requests in sequence

A client sends requests one after the other, and the first one that is denied ends what it is doing.
What a client does is told here by the turns that it can take, so that no server has to be named.

* `Turn.fault?`: the fault that a turn is reported as;
* `Sequence`: requests that are sent in sequence until one is denied;
* `Client.Follows`: a client that sends some requests in sequence, with `Client.Follows.bind`;
* `Client.opening`, `Client.follows_write`: a statement in a transaction of its own;
* `exists_of_takes_answered`: a call to the store.
-/

namespace CodeGraph

open Dialogue Bolt

/-- The fault that a turn is reported as, if its request is denied. -/
def Turn.fault? (turn : Turn Request Request.Answer) : Option ServerFault :=
  match turn.answer with
  | .error d => some (turn.question.fault d)
  | .ok _ => none

namespace Bolt

/-- The fault of what has failed. -/
def faultOf? {α : Type} : Except ServerFault α → Option ServerFault
  | .error fault => some fault
  | .ok _ => none

/-- Whether requests are sent in sequence until one is denied: the turns, and the fault if there is
one. -/
inductive Sequence : List Request → List (Turn Request Request.Answer) → Option ServerFault → Prop
  | nil : Sequence [] [] none
  | denied {r : Request} {rs : List Request} (d : Denial) :
      Sequence (r :: rs) [⟨r, .error d⟩] (some (r.fault d))
  | granted {r : Request} {rs : List Request} {T : List (Turn Request Request.Answer)}
      {fault? : Option ServerFault} (v : r.Value) (h : Sequence rs T fault?) :
      Sequence (r :: rs) (⟨r, .ok v⟩ :: T) fault?

namespace Sequence

variable {rs rs' : List Request} {T T' : List (Turn Request Request.Answer)}
  {fault? : Option ServerFault} {fault : ServerFault}

/-- A sequence that is not denied goes on. -/
theorem append (h : Sequence rs T none) (h' : Sequence rs' T' fault?) :
    Sequence (rs ++ rs') (T ++ T') fault? := by
  generalize hnone : (none : Option ServerFault) = f at h
  induction h with
  | nil => exact h'
  | denied d => cases hnone
  | granted v h ih => exact .granted v (ih hnone)

/-- A sequence that is denied does not go on. -/
theorem stop (h : Sequence rs T (some fault)) (rs' : List Request) :
    Sequence (rs ++ rs') T (some fault) := by
  generalize hsome : some fault = f at h
  induction h with
  | nil => cases hsome
  | denied d => exact .denied d
  | granted v h ih => exact .granted v (ih hsome)

/-- Nothing else is sent, and nothing out of turn. -/
theorem map_question_isPrefix (h : Sequence rs T fault?) : T.map Turn.question <+: rs := by
  induction h with
  | nil => exact List.prefix_rfl
  | denied d => exact List.prefix_iff_eq_take.2 rfl
  | granted v h ih => exact List.cons_prefix_cons.2 ⟨rfl, ih⟩

theorem question_mem (h : Sequence rs T fault?) {turn : Turn Request Request.Answer}
    (hturn : turn ∈ T) : turn.question ∈ rs :=
  h.map_question_isPrefix.subset (List.mem_map_of_mem hturn)

end Sequence

/-! ### What a client does -/

section State

variable {α β : Type} {connected connected' : Bool} {T : List (Turn Request Request.Answer)}
  {x : StateT Bool Talk α}

/-- One thing after the other. -/
theorem takes_state_bind {f : α → StateT Bool Talk β} {r : β}
    (h : ((x >>= f).run connected).Takes T (r, connected')) :
    ∃ T₁ a connected₁ T₂, T = T₁ ++ T₂ ∧ (x.run connected).Takes T₁ (a, connected₁) ∧
      ((f a).run connected₁).Takes T₂ (r, connected') := by
  rw [StateT.run_bind] at h
  obtain ⟨T₁, ⟨a, connected₁⟩, T₂, hT, hfirst, hsecond⟩ := Takes.of_bind h
  exact ⟨T₁, a, connected₁, T₂, hT, hfirst, hsecond⟩

/-- What is made of the end of something is nothing to the server. -/
theorem takes_state_map {g : α → β} {r : β}
    (h : ((do return g (← x) : StateT Bool Talk β).run connected).Takes T (r, connected')) :
    ∃ a, (x.run connected).Takes T (a, connected') ∧ r = g a := by
  obtain ⟨T₁, a, _, T₂, rfl, hfirst, rfl, ⟨⟩⟩ := takes_state_bind h
  exact ⟨a, by rwa [List.append_nil], rfl⟩

end State

namespace Client

variable {α β : Type} {connected connected' : Bool} {T : List (Turn Request Request.Answer)}

/-- Requests of a client, one after the other: a fault ends both. -/
theorem takes_bind {x : Client α} {f : α → Client β} {r : Except ServerFault β}
    (h : ((x >>= f).run.run connected).Takes T (r, connected')) :
    (∃ fault, (x.run.run connected).Takes T (.error fault, connected') ∧ r = .error fault) ∨
      ∃ T₁ a connected₁ T₂, T = T₁ ++ T₂ ∧
        (x.run.run connected).Takes T₁ (.ok a, connected₁) ∧
          ((f a).run.run connected₁).Takes T₂ (r, connected') := by
  rw [ExceptT.run_bind] at h
  obtain ⟨T₁, e, connected₁, T₂, rfl, hfirst, hsecond⟩ := takes_state_bind h
  cases e with
  | ok a => exact .inr ⟨T₁, a, connected₁, T₂, rfl, hfirst, hsecond⟩
  | error fault =>
    obtain ⟨rfl, ⟨⟩⟩ := hsecond
    exact .inl ⟨fault, by rwa [List.append_nil], rfl⟩

/-- A request is one turn. -/
theorem takes_send {q : Request} {r : Except ServerFault q.Value}
    (h : ((send q).run.run connected).Takes T (r, connected')) :
    ∃ a, T = [⟨q, a⟩] ∧ r = a.mapError q.fault ∧ connected' = connected := by
  obtain ⟨a, _, rfl, rfl, ⟨⟩⟩ := h
  exact ⟨a, rfl, rfl, rfl⟩

/-- A request and what depends on its answer. -/
theorem takes_send_bind {q : Request} {f : q.Value → Client β} {r : Except ServerFault β}
    (h : ((send q >>= f).run.run connected).Takes T (r, connected')) :
    (∃ d, T = [⟨q, .error d⟩] ∧ r = .error (q.fault d)) ∨
      ∃ v T', T = ⟨q, .ok v⟩ :: T' ∧ ((f v).run.run connected).Takes T' (r, connected') := by
  rcases takes_bind h with ⟨fault, hsend, rfl⟩ | ⟨T₁, v, connected₁, T₂, rfl, hsend, hnext⟩
  · obtain ⟨a, rfl, ha, -⟩ := takes_send hsend
    cases a with
    | ok v => cases ha
    | error d => cases ha; exact .inl ⟨d, rfl, rfl⟩
  · obtain ⟨a, rfl, ha, rfl⟩ := takes_send hsend
    cases a with
    | ok v => cases ha; exact .inr ⟨v, T₂, rfl, hnext⟩
    | error d => cases ha

/-- The end of what a client does. -/
theorem takes_pure {a : α} {r : Except ServerFault α}
    (h : ((pure a : Client α).run.run connected).Takes T (r, connected')) :
    T = [] ∧ r = .ok a := by
  obtain ⟨rfl, ⟨⟩⟩ := h
  exact ⟨rfl, rfl⟩

/-- A client that sends some requests in sequence. -/
def Follows (x : Client α) (connected : Bool) (rs : List Request) : Prop :=
  ∀ T r connected', (x.run.run connected).Takes T (r, connected') → Sequence rs T (faultOf? r)

theorem follows_send (q : Request) (connected : Bool) : (send q).Follows connected [q] := by
  intro T r connected' h
  obtain ⟨a, rfl, rfl, -⟩ := takes_send h
  cases a with
  | ok v => exact .granted v .nil
  | error d => exact .denied d

/-- One sequence after the other. -/
theorem Follows.bind {x : Client α} {f : α → Client β} {rs rs' : List Request}
    (hx : x.Follows connected rs) (hf : ∀ a connected', (f a).Follows connected' rs') :
    (x >>= f).Follows connected (rs ++ rs') := by
  intro T r connected' h
  rcases takes_bind h with ⟨fault, hfirst, rfl⟩ | ⟨T₁, a, connected₁, T₂, rfl, hfirst, hsecond⟩
  · exact (hx _ _ _ hfirst).stop rs'
  · exact (hx _ _ _ hfirst).append (hf _ _ _ _ _ hsecond)

/-- The request that makes sure of a usable connection. -/
def opening (server : Settings.Server) : Bool → Request
  | true => .reset
  | false => .login server.user server.password

theorem follows_acquire (server : Settings.Server) (connected : Bool) :
    (acquire server).Follows connected [opening server connected] := by
  cases connected with
  | true => exact follows_send .reset true
  | false =>
    have hlogin : (do
        send (.login server.user server.password)
        set true : Client Unit).Follows false ([.login server.user server.password] ++ []) := by
      refine (follows_send _ _).bind fun _ connected T r connected' h => ?_
      obtain ⟨rfl, ⟨⟩⟩ := h
      exact .nil
    exact hlogin

/-- What a client does for a call to the store. -/
theorem exists_of_takes_answered {x : Client α} {r : Except StoreError α}
    (h : ((answered x).run connected).Takes T (r, connected')) :
    ∃ r', (x.run.run connected).Takes T (r', connected') ∧ r = r'.mapError .query :=
  takes_state_map h

end Client

end Bolt

end CodeGraph
