import CodeGraph.Proofs.Job.Outage
import CodeGraph.Proofs.Outcome
import CodeGraph.Proofs.Transcript
import CodeGraph.Query.Gateway

/-!
# The gateway only reads

A query either is refused, and then the store does not hear of it, or it is one call to the store:
it reads, for the tenant, the scoped text, and no more rows than the text is capped at.

* `Gateway.Refuses`, `Gateway.accept_eq_error_iff`: why a query is refused;
* `Gateway.IsGated`, `Gateway.isGated`: what a store of any kind hears of a query;
* `Memory.length_le_of_read`: the rows that a store in memory returns;
* `Gateway.Keeps`, `Gateway.keeps_of_isGated`: how a query leaves a store in memory;
* `Gateway.reads_of_execute`: a query at a store of any kind, and at one in memory.
-/

namespace CodeGraph

open Dialogue

namespace Gateway

/-- Whether a query is refused for this: the deny-list forbids it, or it cannot be scoped. -/
def Refuses (limit : Nat) (query : String) (refusal : Query.Refusal) : Prop :=
  Query.check query.toList = .error refusal ∨
    Query.check query.toList = .ok () ∧
      Query.scope query.toList (max 1 limit) = .error refusal

section Accept

variable {limit : Nat} {query text : String} {refusal : Query.Refusal}

theorem accept_eq_error_iff :
    accept limit query = .error refusal ↔ Refuses limit query refusal := by
  unfold accept Refuses rowCount
  rw [Nat.max_comm, except_bind_eq_error]
  refine or_congr_right ⟨?_, ?_⟩
  · rintro ⟨⟨⟩, hcheck, hscope⟩
    rcases except_bind_eq_error.1 hscope with hrefused | ⟨_, _, ⟨⟩⟩
    exact ⟨hcheck, hrefused⟩
  · rintro ⟨hcheck, hscope⟩
    exact ⟨(), hcheck, except_bind_eq_error.2 (.inl hscope)⟩

theorem accept_eq_ok_iff : accept limit query = .ok text ↔
    Query.check query.toList = .ok () ∧
      ∃ cs, Query.scope query.toList (max 1 limit) = .ok cs ∧ text = String.ofList cs := by
  unfold accept rowCount
  rw [Nat.max_comm, except_bind_eq_ok]
  constructor
  · rintro ⟨⟨⟩, hcheck, hscope⟩
    exact ⟨hcheck, except_map_eq_ok.1 hscope⟩
  · rintro ⟨hcheck, hscope⟩
    exact ⟨(), hcheck, except_map_eq_ok.2 hscope⟩

end Accept

/-- What a store of any kind hears of a query, and what comes of it. -/
structure IsGated {σ : Type} (S : Store σ) (s : σ) (limit : Nat) (tenant : Tenant)
    (query : String) : Prop where
  /-- A query is denied for what it is refused for. -/
  denied (refusal : Query.Refusal) :
    ((execute limit tenant query).run.carryOut S s).1 = .error (.denied refusal) ↔
      Refuses limit query refusal
  /-- The store does not hear of a query that is refused. -/
  unheard (refusal : Query.Refusal) : Refuses limit query refusal →
    (execute limit tenant query).run.transcript S s = [] ∧
      ((execute limit tenant query).run.carryOut S s).2 = s
  /-- Any other query is one call, and nothing is made of its answer but that a failure is named. -/
  heard : (∀ refusal, ¬ Refuses limit query refusal) →
    ∃ cs, Query.check query.toList = .ok () ∧
      Query.scope query.toList (max 1 limit) = .ok cs ∧
      let call := Call.read tenant (String.ofList cs) (max 1 limit)
      (execute limit tenant query).run.transcript S s = [⟨call, (S s call).1⟩] ∧
        (execute limit tenant query).run.carryOut S s =
          ((S s call).1.mapError .execution, (S s call).2)

theorem isGated {σ : Type} (S : Store σ) (s : σ) (limit : Nat) (tenant : Tenant)
    (query : String) : IsGated S s limit tenant query := by
  cases haccept : accept limit query with
  | error refusal =>
    have hexecute : (execute limit tenant query).run = .done (.error (.denied refusal)) := by
      unfold execute
      rw [haccept]
      rfl
    have hrefuses : ∀ refusal', Refuses limit query refusal' ↔ refusal' = refusal := by
      intro refusal'
      rw [← accept_eq_error_iff, haccept, Except.error.injEq, eq_comm]
    constructor
    case denied => intro refusal'; simp [hexecute, hrefuses, eq_comm]
    case unheard => intro refusal' _; rw [hexecute]; exact ⟨rfl, rfl⟩
    case heard => exact fun hnone => absurd ((hrefuses refusal).2 rfl) (hnone refusal)
  | ok text =>
    obtain ⟨hcheck, cs, hscope, rfl⟩ := accept_eq_ok_iff.1 haccept
    have hrefuses : ∀ refusal, ¬ Refuses limit query refusal := by
      intro refusal hrefusal
      rw [← accept_eq_error_iff, haccept] at hrefusal
      cases hrefusal
    have hexecute : execute limit tenant query =
        attempt .execution (.read tenant (String.ofList cs) (max 1 limit)) := by
      unfold execute
      rw [haccept, rowCount, Nat.max_comm]
    constructor
    case denied =>
      intro refusal
      refine iff_of_false (fun hdenied => ?_) (hrefuses refusal)
      have hanswer : (S s (.read tenant (String.ofList cs) (max 1 limit))).1.mapError
          QueryError.execution = .error (.denied refusal) := by
        rw [hexecute] at hdenied
        exact hdenied
      obtain ⟨e, -, ⟨⟩⟩ := mapError_eq_error.1 hanswer
    case unheard => exact fun refusal hrefusal => absurd hrefusal (hrefuses refusal)
    case heard =>
      intro _
      refine ⟨cs, hcheck, hscope, ?_, ?_⟩
      · rw [hexecute]
        rfl
      · rw [hexecute]
        rfl

end Gateway

/-! ### A store in memory -/

/-- A store in memory returns no more rows than it is asked for, and keeps what is stored. -/
theorem Memory.length_le_of_read (m : Memory) (tenant : Tenant) (query : String) (limit : Nat) :
    (m.perform (.read tenant query limit)).2.nodeBatches = m.nodeBatches ∧
      (m.perform (.read tenant query limit)).2.edgeBatches = m.edgeBatches ∧
      ∀ rows : List Row, (m.perform (.read tenant query limit)).1 = .ok rows →
        rows.length ≤ limit := by
  simp only [perform, read]
  split
  · exact ⟨rfl, rfl, fun rows h => by cases h⟩
  · split
    · refine ⟨rfl, rfl, fun rows h => ?_⟩
      cases h
      exact Nat.zero_le _
    · refine ⟨rfl, rfl, fun rows h => ?_⟩
      cases h
      exact List.length_take_le ..

namespace Gateway

/-- How a query leaves a store in memory, and what comes of it. -/
structure Keeps (m : Memory) (limit : Nat) (tenant : Tenant) (query : String)
    (result : Except QueryError (List Row)) (after : Memory) : Prop where
  /-- A query that is denied leaves the store as it was, with its log. -/
  unchanged (refusal : Query.Refusal) : result = .error (.denied refusal) → after = m
  /-- Any other query is noted, once, with the scoped text and the cap. -/
  noted : (∀ refusal, ¬ Refuses limit query refusal) →
    ∃ cs, Query.check query.toList = .ok () ∧
      Query.scope query.toList (max 1 limit) = .ok cs ∧
      after.log = m.log ++ [.read tenant (String.ofList cs) (max 1 limit)]
  nodeBatches : after.nodeBatches = m.nodeBatches
  edgeBatches : after.edgeBatches = m.edgeBatches
  /-- There are no more rows than the cap. -/
  capped (rows : List Row) : result = .ok rows → rows.length ≤ max 1 limit
  /-- A failure of the store is named as one. -/
  failed : (∀ refusal, ¬ Refuses limit query refusal) → ∀ e, result = .error e →
    ∃ cause, e = .execution cause

theorem keeps_of_isGated {m : Memory} {limit : Nat} {tenant : Tenant} {query : String}
    (h : IsGated Memory.perform m limit tenant query) :
    Keeps m limit tenant query ((execute limit tenant query).run.carryOut Memory.perform m).1
      ((execute limit tenant query).run.carryOut Memory.perform m).2 := by
  by_cases hrefuses : ∃ refusal, Refuses limit query refusal
  · obtain ⟨refusal, hrefusal⟩ := hrefuses
    have hsame := (h.unheard refusal hrefusal).2
    have hdenied := (h.denied refusal).2 hrefusal
    constructor
    case unchanged => exact fun _ _ => hsame
    case noted => exact fun hnone => absurd hrefusal (hnone refusal)
    case nodeBatches => rw [hsame]
    case edgeBatches => rw [hsame]
    case capped => intro rows hrows; rw [hdenied] at hrows; cases hrows
    case failed => exact fun hnone => absurd hrefusal (hnone refusal)
  · have hnone : ∀ refusal, ¬ Refuses limit query refusal :=
      fun refusal hrefusal => hrefuses ⟨refusal, hrefusal⟩
    obtain ⟨cs, hcheck, hscope, -, hend⟩ := h.heard hnone
    obtain ⟨hnodes, hedges, hrows⟩ :=
      m.length_le_of_read tenant (String.ofList cs) (max 1 limit)
    constructor
    case unchanged => exact fun refusal hdenied => absurd ((h.denied refusal).1 hdenied) (hnone _)
    case noted => rw [hend]; exact fun _ => ⟨cs, hcheck, hscope, m.log_perform _⟩
    case nodeBatches => rw [hend]; exact hnodes
    case edgeBatches => rw [hend]; exact hedges
    case capped => rw [hend]; exact fun rows hok => hrows rows (mapError_eq_ok.1 hok)
    case failed =>
      rw [hend]
      intro _ e hfailed
      obtain ⟨cause, -, hcause⟩ := mapError_eq_error.1 hfailed
      exact ⟨cause, hcause.symm⟩

/-- **The gateway only reads.** Whatever the store, a query is denied for just what it is refused
for, and then the store does not hear of it; any other query is one call, which reads for the tenant
with the scoped text and the cap. A store in memory keeps its nodes and edges, it keeps even its log
if the query is denied, and it returns no more rows than the cap. -/
theorem reads_of_execute (limit : Nat) (tenant : Tenant) (query : String) :
    (∀ {σ : Type} (S : Store σ) (s : σ), IsGated S s limit tenant query) ∧
      ∀ m : Memory,
        Keeps m limit tenant query ((execute limit tenant query).run.carryOut Memory.perform m).1
          ((execute limit tenant query).run.carryOut Memory.perform m).2 :=
  ⟨fun S s => isGated S s limit tenant query,
    fun m => keeps_of_isGated (isGated Memory.perform m limit tenant query)⟩

end Gateway

end CodeGraph
