/-!
# Dialogues

A dialogue is a program that asks questions and goes on with the answers. Who answers is left open:
`Dialogue.run` carries a dialogue out in any monad that answers its questions, so one program can be
run against a store in memory, against a server, or against an answerer about which only laws are
known.

* `Dialogue.done`, `Dialogue.ask`, and the monad of dialogues;
* `Dialogue.run`: carries a dialogue out;
* `run_bind`: to carry out one dialogue after the other is to carry out both.
-/

namespace CodeGraph

/-- A program that asks questions of type `Q`, where the answer to `q` is an `A q`, and ends with an
`α`. -/
inductive Dialogue (Q : Type) (A : Q → Type) (α : Type) where
  /-- The end. -/
  | done (a : α)
  /-- A question, and how to go on with its answer. -/
  | ask (q : Q) (next : A q → Dialogue Q A α)

namespace Dialogue

variable {Q : Type} {A : Q → Type} {α β γ : Type}

/-- One dialogue after the other. -/
def andThen : Dialogue Q A α → (α → Dialogue Q A β) → Dialogue Q A β
  | done a, f => f a
  | ask q next, f => ask q fun a => (next a).andThen f

instance : Monad (Dialogue Q A) where
  pure := done
  bind := andThen

/-- A single question, whose answer is the result. -/
def question (q : Q) : Dialogue Q A (A q) := ask q done

/-- Carries a dialogue out, where `answer` answers the questions. -/
def run {m : Type → Type} [Monad m] (answer : (q : Q) → m (A q)) : Dialogue Q A α → m α
  | done a => pure a
  | ask q next => answer q >>= fun a => run answer (next a)

@[simp] theorem pure_eq (a : α) : (pure a : Dialogue Q A α) = done a := rfl

@[simp] theorem done_bind (a : α) (f : α → Dialogue Q A β) : (done a >>= f) = f a := rfl

@[simp] theorem ask_bind (q : Q) (next : A q → Dialogue Q A α) (f : α → Dialogue Q A β) :
    (ask q next >>= f) = ask q fun a => next a >>= f := rfl

theorem bind_done : ∀ d : Dialogue Q A α, (d >>= done) = d
  | done _ => rfl
  | ask q next => congrArg (ask q) (funext fun a => bind_done (next a))

theorem bind_bind : ∀ (d : Dialogue Q A α) (f : α → Dialogue Q A β) (g : β → Dialogue Q A γ),
    (d >>= f >>= g) = d >>= fun a => f a >>= g
  | done _, _, _ => rfl
  | ask q next, f, g => congrArg (ask q) (funext fun a => bind_bind (next a) f g)

instance : LawfulMonad (Dialogue Q A) :=
  LawfulMonad.mk' (Dialogue Q A) bind_done (fun _ _ => rfl) bind_bind

@[simp] theorem run_done {m : Type → Type} [Monad m] (answer : (q : Q) → m (A q)) (a : α) :
    run answer (done a) = pure a := rfl

@[simp] theorem run_ask {m : Type → Type} [Monad m] (answer : (q : Q) → m (A q)) (q : Q)
    (next : A q → Dialogue Q A α) :
    run answer (ask q next) = answer q >>= fun a => run answer (next a) := rfl

/-- To carry out one dialogue after the other is to carry out both. -/
theorem run_bind {m : Type → Type} [Monad m] [LawfulMonad m] (answer : (q : Q) → m (A q)) :
    ∀ (d : Dialogue Q A α) (f : α → Dialogue Q A β),
      run answer (d >>= f) = run answer d >>= fun a => run answer (f a)
  | done a, f => by simp
  | ask q next, f => by
    rw [ask_bind, run_ask, run_ask, bind_assoc]
    exact congrArg (answer q >>= ·) (funext fun a => run_bind answer (next a) f)

end Dialogue

end CodeGraph
