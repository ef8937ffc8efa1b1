import CodeGraph.Proofs.Protocol

/-!
# Transcripts

Whoever answers the questions of a dialogue may have a state, on which the answers depend and which
they change. Such a *party* carries a dialogue out, and what is asked and answered on the way is the
transcript. A store is a party that answers calls: one in memory, one at a server, or any other.

* `Party`, `Dialogue.carryOut`: the end of a dialogue, and the state that it leaves;
* `Turn`, `Dialogue.transcript`: what is asked and answered;
* `Dialogue.carryOut_bind`, `Dialogue.transcript_bind`: one dialogue after the other;
* `Dialogue.Asks.of_mem_transcript`: the questions in a transcript;
* `Dialogue.Takes`, `Dialogue.takes_transcript`: the transcripts that a dialogue can have, whoever
  answers, with `Dialogue.Takes.of_bind`;
* `Store`, `Store.steps`: a store of any kind, which also carries courses out;
* `callsOf`, `published`: the calls and the statuses of a transcript;
* `Store.carryOut_inCourse`, `Store.callsOf_inCourse`: a dialogue with the store as part of a course.
-/

namespace CodeGraph

/-- A way to answer questions, where the state is all that the answers depend on and change. -/
abbrev Party (Q : Type) (A : Q → Type) (σ : Type) := σ → (q : Q) → A q × σ

/-- A question with its answer. -/
structure Turn (Q : Type) (A : Q → Type) where
  question : Q
  answer : A question

namespace Dialogue

variable {Q : Type} {A : Q → Type} {σ α β : Type}

/-- The result of a dialogue that a party carries out, and the state that it leaves. -/
def carryOut (d : Dialogue Q A α) (p : Party Q A σ) (s : σ) : α × σ :=
  (d.run (m := StateM σ) fun q s => p s q).run s

/-- What is asked and answered when a party carries a dialogue out. -/
def transcript (p : Party Q A σ) : Dialogue Q A α → σ → List (Turn Q A)
  | done _, _ => []
  | ask q next, s => ⟨q, (p s q).1⟩ :: transcript p (next (p s q).1) (p s q).2

variable (p : Party Q A σ) (s : σ)

@[simp] theorem carryOut_done (a : α) : (done a : Dialogue Q A α).carryOut p s = (a, s) := rfl

@[simp] theorem carryOut_ask (q : Q) (next : A q → Dialogue Q A α) :
    (ask q next).carryOut p s = (next (p s q).1).carryOut p (p s q).2 := rfl

@[simp] theorem transcript_done (a : α) : (done a : Dialogue Q A α).transcript p s = [] := rfl

/-- One dialogue after the other. -/
theorem carryOut_bind (f : α → Dialogue Q A β) :
    ∀ (d : Dialogue Q A α) (s : σ),
      (d >>= f).carryOut p s = (f (d.carryOut p s).1).carryOut p (d.carryOut p s).2
  | done _, _ => rfl
  | ask q next, s => carryOut_bind f (next (p s q).1) (p s q).2

/-- What the second dialogue asks follows what the first one asks. -/
theorem transcript_bind (f : α → Dialogue Q A β) :
    ∀ (d : Dialogue Q A α) (s : σ),
      (d >>= f).transcript p s =
        d.transcript p s ++ (f (d.carryOut p s).1).transcript p (d.carryOut p s).2
  | done _, _ => rfl
  | ask q next, s => congrArg _ (transcript_bind f (next (p s q).1) (p s q).2)

/-- A transcript has no other questions than those that a dialogue asks. -/
theorem Asks.of_mem_transcript {may : Q → Prop} {turn : Turn Q A} :
    ∀ {d : Dialogue Q A α} {s : σ}, d.Asks may → turn ∈ d.transcript p s → may turn.question
  | ask q next, s, hd, h => by
    rcases List.mem_cons.1 h with rfl | h
    · exact hd.1
    · exact of_mem_transcript (hd.2 _ trivial) h

/-- One attempt after the other: the second one is made only if the first one succeeds. -/
theorem carryOut_run_bind {ε : Type} (x : ExceptT ε (Dialogue Q A) α)
    (f : α → ExceptT ε (Dialogue Q A) β) (s : σ) :
    (x >>= f).run.carryOut p s =
      match x.run.carryOut p s with
      | (.ok a, s) => (f a).run.carryOut p s
      | (.error e, s) => (.error e, s) := by
  rw [ExceptT.run_bind, carryOut_bind]
  obtain ⟨r, s'⟩ := x.run.carryOut p s
  cases r with
  | ok a => rfl
  | error e => rfl

theorem transcript_run_bind {ε : Type} (x : ExceptT ε (Dialogue Q A) α)
    (f : α → ExceptT ε (Dialogue Q A) β) (s : σ) :
    (x >>= f).run.transcript p s = x.run.transcript p s ++
      match x.run.carryOut p s with
      | (.ok a, s) => (f a).run.transcript p s
      | (.error _, _) => [] := by
  rw [ExceptT.run_bind, transcript_bind]
  obtain ⟨r, s'⟩ := x.run.carryOut p s
  cases r with
  | ok a => rfl
  | error e => rfl

/-! ### Transcripts, whoever answers -/

/-- Whether a dialogue takes some turns and ends with a result, if it is answered as they say. -/
def Takes : Dialogue Q A α → List (Turn Q A) → α → Prop
  | done a, T, r => T = [] ∧ r = a
  | ask q next, T, r => ∃ a T', T = ⟨q, a⟩ :: T' ∧ (next a).Takes T' r

/-- What a party hears of a dialogue is one of the transcripts that the dialogue can have. -/
theorem takes_transcript (p : Party Q A σ) :
    ∀ (d : Dialogue Q A α) (s : σ), d.Takes (d.transcript p s) (d.carryOut p s).1
  | done _, _ => ⟨rfl, rfl⟩
  | ask q next, s => ⟨_, _, rfl, takes_transcript p (next (p s q).1) (p s q).2⟩

/-- The turns of one dialogue after the other are those of the first and then those of the second. -/
theorem Takes.of_bind {f : α → Dialogue Q A β} {r : β} :
    ∀ {d : Dialogue Q A α} {T : List (Turn Q A)}, (d >>= f).Takes T r →
      ∃ T₁ a T₂, T = T₁ ++ T₂ ∧ d.Takes T₁ a ∧ (f a).Takes T₂ r
  | done a, T, h => ⟨[], a, T, rfl, ⟨rfl, rfl⟩, h⟩
  | ask q next, _, ⟨a, _, hT, h⟩ => by
    obtain ⟨T₁, b, T₂, rfl, hfirst, hsecond⟩ := of_bind h
    exact ⟨⟨q, a⟩ :: T₁, b, T₂, hT, ⟨a, T₁, rfl, hfirst⟩, hsecond⟩

end Dialogue

/-! ### Stores of any kind -/

/-- A store of any kind. -/
abbrev Store (σ : Type) := Party Call Call.Answer σ

namespace Store

variable {σ α ε : Type}

/-- How a store answers the steps of a course: it has nothing to do with statuses. -/
def steps (S : Store σ) : Party Step Step.Answer σ
  | s, .call c => S s c
  | s, .publish _ => ((), s)

end Store

/-- The call of a step, with its answer. -/
def Turn.call? : Turn Step Step.Answer → Option (Turn Call Call.Answer)
  | ⟨.call c, a⟩ => some ⟨c, a⟩
  | ⟨.publish _, _⟩ => none

/-- The status that is published in a step. -/
def Turn.status? : Turn Step Step.Answer → Option Status
  | ⟨.call _, _⟩ => none
  | ⟨.publish s, _⟩ => some s

/-- The calls of a transcript, with their answers. -/
def callsOf (T : List (Turn Step Step.Answer)) : List (Turn Call Call.Answer) :=
  T.filterMap Turn.call?

/-- The statuses that are published in a transcript. -/
def published (T : List (Turn Step Step.Answer)) : List Status :=
  T.filterMap Turn.status?

theorem mem_callsOf {T : List (Turn Step Step.Answer)} {c : Call} {a : c.Answer} :
    ⟨c, a⟩ ∈ callsOf T ↔ ⟨.call c, a⟩ ∈ T := by
  constructor
  · intro h
    obtain ⟨⟨q, b⟩, hmem, heq⟩ := List.mem_filterMap.1 h
    cases q with
    | call c' => cases heq; exact hmem
    | publish s => cases heq
  · intro h
    exact List.mem_filterMap.2 ⟨_, h, rfl⟩

theorem callsOf_append (T T' : List (Turn Step Step.Answer)) :
    callsOf (T ++ T') = callsOf T ++ callsOf T' :=
  List.filterMap_append

theorem published_append (T T' : List (Turn Step Step.Answer)) :
    published (T ++ T') = published T ++ published T' :=
  List.filterMap_append

namespace Store

variable {σ α ε : Type} (S : Store σ)

/-- A dialogue with the store ends as part of a course as it ends by itself. -/
theorem carryOut_inCourse :
    ∀ (d : Exchange α) (s : σ), d.inCourse.carryOut S.steps s = d.carryOut S s
  | .done _, _ => rfl
  | .ask c next, s => carryOut_inCourse (next (S s c).1) (S s c).2

/-- It also makes the same calls. -/
theorem callsOf_inCourse :
    ∀ (d : Exchange α) (s : σ), callsOf (d.inCourse.transcript S.steps s) = d.transcript S s
  | .done _, _ => rfl
  | .ask c next, s => congrArg _ (callsOf_inCourse (next (S s c).1) (S s c).2)

end Store

end CodeGraph
