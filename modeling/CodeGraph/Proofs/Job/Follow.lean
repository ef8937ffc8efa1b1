import CodeGraph.Proofs.Job.Script
import CodeGraph.Proofs.Transcript

/-!
# Courses that follow a script

A course follows a script if it asks for the tasks one after the other, whatever it is answered, and
stops at the first call that has to succeed and fails. Then whatever a store does, what is asked and
answered is the script, or a front of it that ends with such a call.

* `Follows`: a course that does the tasks of a script and nothing else;
* `Follows.bind`, `follows_publish`, `follows_attempt`: attempts one after the other, and single tasks;
* `Task.Done`, `Performed`, `Follows.performed`: what any party makes of such a course;
* `Follows.asks`: the calls that it makes;
* `Follows.obeys`: where it leads under an outage.
-/

namespace CodeGraph

open Dialogue

/-- A course that does the tasks of a script one after the other. It ends with a result such that
`post`, or with the report of a call that has to succeed and fails. -/
inductive Follows {α : Type} (post : α → Prop) : List Task → Course (Except PassError α) → Prop
  | done {a : α} (h : post a) : Follows post [] (.done (.ok a))
  | publish {s : Status} {ts : List Task} {next : Unit → Course (Except PassError α)}
      (h : ∀ u, Follows post ts (next u)) : Follows post (.publish s :: ts) (.ask (.publish s) next)
  | must {c : Call} {report : StoreError → PassError} {ts : List Task}
      {next : c.Answer → Course (Except PassError α)} (h : ∀ v, Follows post ts (next (.ok v)))
      (hstop : ∀ e, next (.error e) = .done (.error (report e))) :
      Follows post (.must c report :: ts) (.ask (.call c) next)
  | may {c : Call} {ts : List Task} {next : c.Answer → Course (Except PassError α)}
      (h : ∀ a, Follows post ts (next a)) : Follows post (.may c :: ts) (.ask (.call c) next)

/-- What ends as it should ends as less demands. -/
theorem Follows.mono {α : Type} {post post' : α → Prop} (hpost : ∀ a, post a → post' a)
    {ts : List Task} {d : Course (Except PassError α)} (h : Follows post ts d) :
    Follows post' ts d := by
  induction h with
  | done h => exact .done (hpost _ h)
  | publish _ ih => exact .publish ih
  | must _ hstop ih => exact .must ih hstop
  | may _ ih => exact .may ih

/-- A course that follows a script makes no other calls than those of its tasks. -/
theorem Follows.asks {α : Type} {post : α → Prop} {ts : List Task}
    {d : Course (Except PassError α)} (h : Follows post ts d) {may : Call → Prop}
    (hts : ∀ c ∈ Task.calls ts, may c) : d.Asks fun q => ∀ c, q = .call c → may c := by
  induction h with
  | done _ => trivial
  | publish _ ih =>
    refine ⟨fun c hc => ?_, fun u _ => ih u hts⟩
    cases hc
  | must _ hstop ih =>
    obtain ⟨hc, hts⟩ := List.forall_mem_cons.1 hts
    refine ⟨fun c' hc' => ?_, fun a _ => ?_⟩
    · cases hc'
      exact hc
    · cases a with
      | ok v => exact ih v hts
      | error e =>
        rw [hstop e]
        trivial
  | may _ ih =>
    obtain ⟨hc, hts⟩ := List.forall_mem_cons.1 hts
    refine ⟨fun c' hc' => ?_, fun a _ => ih a hts⟩
    cases hc'
    exact hc

section Parts

variable {ε α β : Type} {ts ts' : List Task} {mid : α → Prop} {post : β → Prop}
  {x : ExceptT PassError Course α} {f : α → ExceptT PassError Course β}

/-- One attempt after the other follows one script after the other. -/
theorem Follows.bind (hx : Follows mid ts x.run) (hf : ∀ a, mid a → Follows post ts' (f a).run) :
    Follows post (ts ++ ts') (x >>= f).run := by
  rw [ExceptT.run_bind]
  generalize x.run = d at hx
  induction hx with
  | done h => exact hf _ h
  | publish _ ih => exact .publish ih
  | must _ hstop ih =>
    refine .must ih fun e => ?_
    rw [hstop e]
    rfl
  | may _ ih => exact .may ih

/-- An attempt that does the first task, and then one that does the others. -/
theorem Follows.cons {t : Task} (hx : Follows mid [t] x.run)
    (hf : ∀ a, mid a → Follows post ts (f a).run) : Follows post (t :: ts) (x >>= f).run :=
  hx.bind hf

/-- What is made of the result of an attempt adds no task. -/
theorem Follows.bind_pure {f : α → β} (hx : Follows mid ts x.run) (hf : ∀ a, mid a → post (f a)) :
    Follows post ts (x >>= fun a => pure (f a)).run := by
  rw [← List.append_nil ts]
  exact hx.bind fun a ha => .done (hf a ha)

theorem follows_publish (s : Status) :
    Follows (fun _ => True) [.publish s]
      (liftM (publish s) : ExceptT PassError Course Unit).run :=
  .publish fun _ => .done trivial

/-- A call that has to succeed. -/
theorem follows_attempt (report : ε → PassError) (report' : StoreError → ε) (c : Call) :
    Follows (fun _ => True) [.must c fun e => report (report' e)]
      (phase report (attempt report' c)).run :=
  .must (fun _ => .done trivial) fun _ => rfl

end Parts

/-! ### What is asked and answered -/

/-- Whether a task is done in a turn. -/
inductive Task.Done : Task → Turn Step Step.Answer → Prop
  | publish (s : Status) (u : Unit) : Done (.publish s) ⟨.publish s, u⟩
  | must (c : Call) (report : StoreError → PassError) (v : c.Value) :
      Done (.must c report) ⟨.call c, .ok v⟩
  | may (c : Call) (a : c.Answer) : Done (.may c) ⟨.call c, a⟩

/-- What is asked and answered when a script is performed, and how that ends: all tasks are done one
by one, or those before a call that has to succeed and fails. -/
inductive Performed {α : Type} (post : α → Prop) (ts : List Task) :
    List (Turn Step Step.Answer) → Except PassError α → Prop
  | whole {T : List (Turn Step Step.Answer)} {a : α} (hdone : List.Forall₂ Task.Done ts T)
      (h : post a) : Performed post ts T (.ok a)
  | broken {T : List (Turn Step Step.Answer)} {front rest : List Task} {c : Call}
      {report : StoreError → PassError} {e : StoreError} (hts : ts = front ++ .must c report :: rest)
      (hdone : List.Forall₂ Task.Done front T) :
      Performed post ts (T ++ [⟨.call c, .error e⟩]) (.error (report e))

section Performed

variable {α σ : Type} {post : α → Prop} {t : Task} {ts : List Task}

theorem Performed.cons {turn : Turn Step Step.Answer} {T : List (Turn Step Step.Answer)}
    {r : Except PassError α} (ht : t.Done turn) (h : Performed post ts T r) :
    Performed post (t :: ts) (turn :: T) r := by
  cases h with
  | whole hdone h => exact .whole (.cons ht hdone) h
  | @broken T front rest c report e hts hdone =>
    subst hts
    exact .broken (List.cons_append (a := t)).symm (.cons ht hdone)

/-- What ends well is done to its end. -/
theorem Performed.of_ok {T : List (Turn Step Step.Answer)} {a : α}
    (h : Performed post ts T (.ok a)) : List.Forall₂ Task.Done ts T ∧ post a := by
  cases h with
  | whole hdone h => exact ⟨hdone, h⟩

/-- A course that follows a script performs it, whoever answers. -/
theorem Follows.performed {d : Course (Except PassError α)} (h : Follows post ts d)
    (p : Party Step Step.Answer σ) (s : σ) :
    Performed post ts (d.transcript p s) (d.carryOut p s).1 := by
  induction h generalizing s with
  | done h => exact .whole .nil h
  | publish _ ih => exact (ih _ _).cons (.publish _ _)
  | @must c report ts next _ hstop ih =>
    have hanswered : ∀ (a : c.Answer) (s : σ), Performed post (.must c report :: ts)
        (⟨.call c, a⟩ :: (next a).transcript p s) ((next a).carryOut p s).1 := by
      rintro (e | v) s
      · rw [hstop e]
        exact .broken (List.nil_append _).symm .nil
      · exact (ih v s).cons (.must c report v)
    exact hanswered _ _
  | may _ ih => exact (ih _ _).cons (.may _ _)

end Performed

/-! ### Under an outage -/

/-- A course that follows a script leads where the script does. -/
theorem Follows.obeys {α : Type} {post : α → Prop} {ts : List Task}
    {d : Course (Except PassError α)} (h : Follows post ts d) {tenant : Tenant} {o : Outage}
    (hts : ∀ c ∈ Task.calls ts, c.Concerns tenant) (p : Progress) :
    d.Obeys (account tenant o) (p.Ends o ts post) p := by
  induction h generalizing p with
  | done h => exact ⟨rfl, _, rfl, h⟩
  | publish _ ih => exact ⟨trivial, fun u _ => ih u hts _⟩
  | @must c report ts next _ hstop ih =>
    obtain ⟨hc, hts⟩ := List.forall_mem_cons.1 hts
    refine ⟨hc, fun a ha => ?_⟩
    change c.Answered p.share a (p.failure? o) at ha
    show (next a).Obeys (account tenant o) (p.Ends o (.must c report :: ts) post)
      (p.call c (p.failure? o))
    cases hfail : p.failure? o with
    | some e =>
      rw [hfail] at ha
      obtain rfl : a = .error e := ha
      rw [hstop e, obeys_done, Progress.Ends, Progress.through_must_of_some hfail]
      exact ⟨rfl, rfl⟩
    | none =>
      rw [hfail] at ha
      obtain ⟨v, rfl, -⟩ := ha
      apply (ih v hts _).mono
      intro q r hend
      rwa [Progress.Ends, Progress.through_must_of_none hfail]
  | @may c ts next _ ih =>
    obtain ⟨hc, hts⟩ := List.forall_mem_cons.1 hts
    exact ⟨hc, fun a _ => ih a hts _⟩

end CodeGraph
