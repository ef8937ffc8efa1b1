import CodeGraph.Job.Pass

/-!
# Dialogues that obey a protocol

A protocol follows a dialogue with a state: it says which questions may be asked, which answers can
come, and where an answer leads. A dialogue obeys it from a state if it only asks what it may, as
long as the answers are those that can come, and ends as it should. An attempt may also fail.

* `Protocol`, `Dialogue.Obeys`, `Dialogue.Leads`;
* `Dialogue.obeys_bind`, `Dialogue.leads_bind`: one dialogue after the other;
* `Dialogue.Obeys.mono`, `Dialogue.Leads.mono`: a weaker end;
* `Dialogue.Asks`: dialogues that ask no other questions than some;
* `leads_attempt`, `Dialogue.obeys_inCourse`, `leads_phase`: the steps of a pass.
-/

namespace CodeGraph

/-- What is known about a dialogue: it is followed with states of type `σ`. -/
structure Protocol (Q : Type) (A : Q → Type) (σ : Type) where
  /-- The questions that may be asked. -/
  may : σ → Q → Prop
  /-- The answers that can come. -/
  gives : σ → (q : Q) → A q → Prop
  /-- The state after an answer. -/
  next : σ → (q : Q) → A q → σ

namespace Dialogue

variable {Q : Type} {A : Q → Type} {σ α β ε : Type} {p : Protocol Q A σ}

/-- A dialogue that only asks what it may, and ends in a state with a result such that `post`. -/
def Obeys (p : Protocol Q A σ) (post : σ → α → Prop) : σ → Dialogue Q A α → Prop
  | s, done a => post s a
  | s, ask q next => p.may s q ∧ ∀ a, p.gives s q a → (next a).Obeys p post (p.next s q a)

variable {post : σ → α → Prop} {s : σ}

theorem obeys_done {a : α} : (done a).Obeys p post s ↔ post s a := Iff.rfl

theorem obeys_ask {q : Q} {next : A q → Dialogue Q A α} :
    (ask q next).Obeys p post s ↔
      p.may s q ∧ ∀ a, p.gives s q a → (next a).Obeys p post (p.next s q a) := Iff.rfl

/-- What ends as it should ends as less demands. -/
theorem Obeys.mono {post' : σ → α → Prop} (h : ∀ s a, post s a → post' s a) :
    ∀ {d : Dialogue Q A α} {s : σ}, d.Obeys p post s → d.Obeys p post' s
  | done a, s, hd => h s a hd
  | ask _ _, _, hd => ⟨hd.1, fun a ha => (hd.2 a ha).mono h⟩

/-- One dialogue after the other. -/
theorem obeys_bind {post : σ → β → Prop} {f : α → Dialogue Q A β} :
    ∀ {d : Dialogue Q A α} {s : σ},
      (d >>= f).Obeys p post s ↔ d.Obeys p (fun s a => (f a).Obeys p post s) s
  | done _, _ => Iff.rfl
  | ask _ _, _ => by
    rw [ask_bind, obeys_ask, obeys_ask]
    exact and_congr_right fun _ => forall_congr' fun a => imp_congr_right fun _ => obeys_bind

/-! ### Questions alone -/

/-- All dialogues that ask no other questions than some. -/
def asking (may : Q → Prop) : Protocol Q A Unit :=
  ⟨fun _ q => may q, fun _ _ _ => True, fun _ _ _ => ()⟩

section Asks

variable {may : Q → Prop}

/-- A dialogue that asks no other questions than some. -/
def Asks (may : Q → Prop) (d : Dialogue Q A α) : Prop :=
  d.Obeys (asking may) (fun _ _ => True) ()

theorem asks_done (a : α) : (done a : Dialogue Q A α).Asks may := trivial

theorem Asks.bind {d : Dialogue Q A α} {f : α → Dialogue Q A β} (hd : d.Asks may)
    (hf : ∀ a, (f a).Asks may) : (d >>= f).Asks may :=
  obeys_bind.2 (Obeys.mono (fun _ a _ => hf a) hd)

theorem Asks.mono {may' : Q → Prop} (h : ∀ q, may q → may' q) :
    ∀ {d : Dialogue Q A α}, d.Asks may → d.Asks may'
  | done _, _ => trivial
  | ask q _, hd => ⟨h q hd.1, fun a ha => Asks.mono h (hd.2 a ha)⟩

end Asks

/-! ### Attempts -/

/-- An attempt that only asks what it may and, unless it fails, ends such that `post`. -/
def Leads (p : Protocol Q A σ) (post : σ → α → Prop) (s : σ) (x : ExceptT ε (Dialogue Q A) α) :
    Prop :=
  x.run.Obeys p (fun s r => ∀ a, r = .ok a → post s a) s

theorem leads_pure {a : α} :
    Leads p post s (pure a : ExceptT ε (Dialogue Q A) α) ↔ post s a := by
  unfold Leads
  rw [ExceptT.run_pure, pure_eq, obeys_done]
  constructor
  · intro h
    exact h a rfl
  · rintro h _ ⟨⟩
    exact h

/-- One attempt after the other: a failure ends both. -/
theorem leads_bind {post : σ → β → Prop} {x : ExceptT ε (Dialogue Q A) α}
    {f : α → ExceptT ε (Dialogue Q A) β} :
    Leads p post s (x >>= f) ↔ Leads p (fun s a => Leads p post s (f a)) s x := by
  unfold Leads
  rw [ExceptT.run_bind, obeys_bind]
  constructor
  · apply Obeys.mono
    rintro s _ h a rfl
    exact h
  · apply Obeys.mono
    rintro s (e | a) h
    · rintro _ ⟨⟩
    · exact h a rfl

/-- A dialogue that cannot fail. -/
theorem leads_lift {d : Dialogue Q A α} :
    Leads p post s (liftM d : ExceptT ε (Dialogue Q A) α) ↔ d.Obeys p post s := by
  unfold Leads
  rw [ExceptT.run_liftM, map_eq_pure_bind, obeys_bind]
  constructor
  · apply Obeys.mono
    intro s a h
    exact h a rfl
  · apply Obeys.mono
    rintro s a h _ ⟨⟩
    exact h

theorem Leads.mono {post' : σ → α → Prop} (h : ∀ s a, post s a → post' s a)
    {x : ExceptT ε (Dialogue Q A) α} (hx : Leads p post s x) : Leads p post' s x :=
  Obeys.mono (fun s _ hr a ha => h s a (hr a ha)) hx

end Dialogue

/-! ### Courses -/

open Dialogue

section Course

variable {σ α ε : Type} {s : σ}

/-- A single call that can fail. -/
theorem leads_attempt {p : Protocol Call Call.Answer σ} {report : StoreError → ε} {c : Call}
    {post : σ → c.Value → Prop} :
    Leads p post s (attempt report c) ↔
      p.may s c ∧ ∀ a, p.gives s c (.ok a) → post (p.next s c (.ok a)) a := by
  constructor
  · rintro ⟨hmay, h⟩
    exact ⟨hmay, fun a ha => h (.ok a) ha a rfl⟩
  · rintro ⟨hmay, h⟩
    refine ⟨hmay, ?_⟩
    rintro (e | a) ha _ ⟨⟩
    exact h a ha

/-- A protocol as far as it is about calls to the store. -/
def Protocol.calls (p : Protocol Step Step.Answer σ) : Protocol Call Call.Answer σ where
  may s c := p.may s (.call c)
  gives s c a := p.gives s (.call c) a
  next s c a := p.next s (.call c) a

variable {p : Protocol Step Step.Answer σ}

/-- A dialogue with the store does as part of a course what it does by itself. -/
theorem Dialogue.obeys_inCourse {post : σ → α → Prop} :
    ∀ {d : Exchange α} {s : σ}, d.inCourse.Obeys p post s ↔ d.Obeys p.calls post s
  | .done _, _ => Iff.rfl
  | .ask _ _, _ => by
    refine and_congr_right fun _ => forall_congr' fun a => imp_congr_right fun _ => ?_
    exact obeys_inCourse

/-- A part of a pass that talks to the store and can fail. -/
theorem leads_phase {report : ε → PassError} {x : Attempt ε α} {post : σ → α → Prop} :
    Leads p post s (phase report x) ↔ Leads p.calls post s x := by
  unfold Leads phase
  rw [ExceptT.run_mk, obeys_bind, obeys_inCourse]
  constructor
  · apply Obeys.mono
    rintro s _ h a rfl
    exact h a rfl
  · apply Obeys.mono
    rintro s (e | a) h
    · rintro _ ⟨⟩
    · rintro _ ⟨⟩
      exact h a rfl

end Course

end CodeGraph
