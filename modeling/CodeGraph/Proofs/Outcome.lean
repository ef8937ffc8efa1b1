import Mathlib.Data.List.Forall2

/-!
# Outcomes of steps that can fail

What is made step by step succeeds if and only if every step does. One lemma for each way to put
steps together.

* `except_bind_eq_ok`, `except_bind_eq_error`, `except_map_eq_ok`, `except_return_eq_error`: one
  step after the other;
* `except_map_eq_error`, `mapError_eq_ok`, `mapError_eq_error`: what a change of the outcome leaves;
* `mapM_eq_ok`, `exists_of_mem_of_mapM_eq_ok`, `exists_of_mapM_eq_error`: the same step for all
  items of a list;
* `Corresponds`, `corresponds_mapM`: two outcomes that correspond, and two such steps;
* `exists_of_mem_forall₂`, `exists_getElem?_of_forall₂`, `exists_forall₂`,
  `exists_forall₂_of_forall₂`: items that belong to each other.
-/

namespace CodeGraph

variable {ε ε' α β : Type}

theorem except_bind_eq_ok {x : Except ε α} {f : α → Except ε β} {b : β} :
    x >>= f = .ok b ↔ ∃ a, x = .ok a ∧ f a = .ok b := by
  cases x with
  | error e => simp [Bind.bind, Except.bind]
  | ok a => simp [Bind.bind, Except.bind]

theorem except_bind_eq_error {x : Except ε α} {f : α → Except ε β} {e : ε} :
    x >>= f = .error e ↔ x = .error e ∨ ∃ a, x = .ok a ∧ f a = .error e := by
  cases x with
  | error e' => simp [Bind.bind, Except.bind]
  | ok a => simp [Bind.bind, Except.bind]

theorem except_map_eq_ok {x : Except ε α} {f : α → β} {b : β} :
    (do return f (← x)) = .ok b ↔ ∃ a, x = .ok a ∧ b = f a := by
  rw [except_bind_eq_ok]
  constructor
  · rintro ⟨a, ha, hb⟩
    exact ⟨a, ha, (Except.ok.inj hb).symm⟩
  · rintro ⟨a, ha, rfl⟩
    exact ⟨a, ha, rfl⟩

theorem except_return_eq_error {x : Except ε α} {f : α → β} {e : ε} :
    (do return f (← x)) = .error e ↔ x = .error e := by
  rw [except_bind_eq_error]
  exact or_iff_left fun ⟨_, _, h⟩ => by cases h

theorem except_map_eq_error {x : Except ε α} {f : α → β} {e : ε} :
    x.map f = .error e ↔ x = .error e := by
  cases x <;> simp [Except.map]

theorem mapError_eq_ok {x : Except ε α} {f : ε → ε'} {a : α} :
    x.mapError f = .ok a ↔ x = .ok a := by
  cases x <;> simp [Except.mapError]

theorem mapError_eq_error {x : Except ε α} {f : ε → ε'} {e' : ε'} :
    x.mapError f = .error e' ↔ ∃ e, x = .error e ∧ f e = e' := by
  cases x <;> simp [Except.mapError]

theorem eq_ok_of_toOption {x : Except ε α} {a : α} (h : x.toOption = some a) : x = .ok a := by
  cases x with
  | error e => cases h
  | ok b => rw [Option.some.inj h]

/-- Whether two steps come to results that belong to each other, or to errors that do. -/
inductive Corresponds {β' : Type} (R : β → β' → Prop) (E : ε → ε' → Prop) :
    Except ε β → Except ε' β' → Prop
  | ok {b : β} {b' : β'} (h : R b b') : Corresponds R E (.ok b) (.ok b')
  | error {e : ε} {e' : ε'} (h : E e e') : Corresponds R E (.error e) (.error e')

theorem Corresponds.mono {β' : Type} {R S : β → β' → Prop} {E F : ε → ε' → Prop} {x : Except ε β}
    {x' : Except ε' β'} (h : Corresponds R E x x') (hRS : ∀ b b', R b b' → S b b')
    (hEF : ∀ e e', E e e' → F e e') : Corresponds S F x x' := by
  cases h with
  | ok h => exact .ok (hRS _ _ h)
  | error h => exact .error (hEF _ _ h)

/-- A step for each item of a list succeeds if and only if it does for every one of them. -/
theorem mapM_eq_ok {f : α → Except ε β} :
    ∀ {l : List α} {l' : List β}, l.mapM f = .ok l' ↔ List.Forall₂ (fun a b => f a = .ok b) l l'
  | [], l' => by
    rw [List.forall₂_nil_left_iff, List.mapM_nil]
    exact ⟨fun h => (Except.ok.inj h).symm, fun h => h ▸ rfl⟩
  | a :: l, l' => by
    rw [List.forall₂_cons_left_iff, List.mapM_cons, except_bind_eq_ok]
    constructor
    · rintro ⟨b, hb, htail⟩
      obtain ⟨tail, hrest, rfl⟩ := except_map_eq_ok.1 htail
      exact ⟨b, tail, hb, mapM_eq_ok.1 hrest, rfl⟩
    · rintro ⟨b, tail, hb, hrest, rfl⟩
      exact ⟨b, hb, except_map_eq_ok.2 ⟨tail, mapM_eq_ok.2 hrest, rfl⟩⟩

/-- A step for each item of a list fails as it fails for one of them. -/
theorem exists_of_mapM_eq_error {f : α → Except ε β} {e : ε} :
    ∀ {l : List α}, l.mapM f = .error e → ∃ a ∈ l, f a = .error e
  | [], h => by cases h
  | a :: l, h => by
    rw [List.mapM_cons, except_bind_eq_error] at h
    rcases h with ha | ⟨b, -, h⟩
    · exact ⟨a, List.mem_cons_self, ha⟩
    · obtain ⟨a', ha', he⟩ := exists_of_mapM_eq_error (except_return_eq_error.1 h)
      exact ⟨a', List.mem_cons_of_mem a ha', he⟩

/-- Two steps that correspond for the items of two lists correspond for the lists. Where they fail,
they do so for the items in one place. -/
theorem corresponds_mapM {α' β' : Type} {R : β → β' → Prop} {E : α → α' → ε → ε' → Prop}
    {f : α → Except ε β} {g : α' → Except ε' β'} {l : List α} {l' : List α'}
    (h : List.Forall₂ (fun a a' => Corresponds R (E a a') (f a) (g a')) l l') :
    Corresponds (List.Forall₂ R)
      (fun e e' => ∃ (i : ℕ) (a : α) (a' : α'), l[i]? = some a ∧ l'[i]? = some a' ∧ E a a' e e')
      (l.mapM f) (l'.mapM g) := by
  induction h with
  | nil => exact .ok .nil
  | @cons a a' l l' ha _ ih =>
    rw [List.mapM_cons, List.mapM_cons]
    generalize f a = x at ha ⊢
    generalize g a' = x' at ha ⊢
    cases ha with
    | error he => exact .error ⟨0, a, a', rfl, rfl, he⟩
    | ok hb =>
      generalize l.mapM f = xs at ih ⊢
      generalize l'.mapM g = xs' at ih ⊢
      cases ih with
      | ok hbs => exact .ok (.cons hb hbs)
      | error he =>
        obtain ⟨i, a, a', hi, hi', he⟩ := he
        exact .error ⟨i + 1, a, a', hi, hi', he⟩

theorem exists_of_mem_forall₂ {r : α → β → Prop} {l : List α} {l' : List β} {b : β}
    (h : List.Forall₂ r l l') (hb : b ∈ l') : ∃ a ∈ l, r a b := by
  induction h with
  | nil => cases hb
  | @cons a b' l l' hab _ ih =>
    rcases List.mem_cons.1 hb with rfl | hb
    · exact ⟨a, List.mem_cons_self, hab⟩
    · obtain ⟨a', ha', hab'⟩ := ih hb
      exact ⟨a', List.mem_cons_of_mem _ ha', hab'⟩

theorem exists_getElem?_of_forall₂ {r : α → β → Prop} {l : List α} {l' : List β}
    (h : List.Forall₂ r l l') {i : ℕ} {a : α} (ha : l[i]? = some a) :
    ∃ b, l'[i]? = some b ∧ r a b := by
  obtain ⟨hi, rfl⟩ := List.getElem?_eq_some_iff.1 ha
  exact ⟨_, List.getElem?_eq_getElem (h.length_eq ▸ hi), h.get hi (h.length_eq ▸ hi)⟩

theorem exists_forall₂ {r : α → β → Prop} {l : List α} (h : ∀ a ∈ l, ∃ b, r a b) :
    ∃ l', List.Forall₂ r l l' := by
  induction l with
  | nil => exact ⟨[], .nil⟩
  | cons a l ih =>
    obtain ⟨⟨b, hb⟩, hrest⟩ := List.forall_mem_cons.1 h
    obtain ⟨l', hl'⟩ := ih hrest
    exact ⟨b :: l', .cons hb hl'⟩

/-- What is made of the items of a list belongs to what is made of the items of another one. -/
theorem exists_forall₂_of_forall₂ {γ δ : Type} {r : α → γ → Prop} {r' : β → δ → Prop}
    {s : γ → δ → Prop} {l : List α} {l' : List β} {m : List γ}
    (h : List.Forall₂ (fun a b => ∀ c, r a c → ∃ d, r' b d ∧ s c d) l l')
    (hm : List.Forall₂ r l m) : ∃ m', List.Forall₂ r' l' m' ∧ List.Forall₂ s m m' := by
  induction h generalizing m with
  | nil =>
    cases hm
    exact ⟨[], .nil, .nil⟩
  | cons hab _ ih =>
    cases hm with
    | cons hac hrest =>
      obtain ⟨d, hbd, hcd⟩ := hab _ hac
      obtain ⟨m', hm', hs⟩ := ih hrest
      exact ⟨d :: m', .cons hbd hm', .cons hcd hs⟩

/-- What a step makes of a list, it makes item by item. -/
theorem exists_of_mem_of_mapM_eq_ok {f : α → Except ε β} {l : List α} {l' : List β} {b : β}
    (h : l.mapM f = .ok l') (hb : b ∈ l') : ∃ a ∈ l, f a = .ok b := by
  obtain ⟨a, ha, hab⟩ := exists_of_mem_forall₂ (mapM_eq_ok.1 h) hb
  exact ⟨a, ha, hab⟩

end CodeGraph
