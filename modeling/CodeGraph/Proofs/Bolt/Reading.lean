import CodeGraph.Proofs.Bolt.Sequence
import CodeGraph.Proofs.Outcome

/-!
# Reads are rolled back

A read begins a transaction, runs its query, pulls as many rows as it may return, and rolls the
transaction back, however the query ends. It never commits.

* `Batch.rows`, `Turn.rows`, `Turn.IsLast`: the rows that come with a pull;
* `Stream.takes_next`, `Client.takes_collectRows_succ`: the next row, and one turn of the loop;
* `Collects`, `Client.collects_of_takes`: rows that are taken until there are enough, or no more, or
  a batch is denied;
* `IsQuery`, `Client.isQuery_of_takes`: a query and what comes of it;
* `IsRolledBack`: what a read makes of its query and of how the transaction ends;
* `Client.rollsBack_of_read`: all turns of a read, and its result.
-/

namespace CodeGraph

open Dialogue

/-- The rows of a batch. -/
def Bolt.Batch.rows : Bolt.Batch → List (List Bolt.Value)
  | .last rows => rows
  | .more row rows => row :: rows

namespace Turn

open Bolt

/-- The rows that a turn brings. -/
def rows : Turn Request Request.Answer → List (List Bolt.Value)
  | ⟨.pull _, .ok batch⟩ => Batch.rows batch
  | _ => []

/-- Whether a turn brings the last rows that there are. -/
def IsLast (turn : Turn Request Request.Answer) : Prop :=
  ∃ count rows, turn = ⟨.pull count, .ok (Batch.last rows)⟩

end Turn

namespace Bolt

/-! ### Rows, one after the other -/

theorem Stream.ofBatch_ne_fresh (batch : Batch) : Stream.ofBatch batch ≠ .fresh := by
  cases batch <;> simp [Stream.ofBatch, Stream.fresh]

/-- The next row is one that is waiting, or a batch is fetched for it. -/
theorem Stream.takes_next {fetchSize : Nat} {s : Stream} {connected connected' : Bool}
    {T : List (Turn Request Request.Answer)}
    {r : Except ServerFault (Option (List Value × Stream))}
    (h : ((s.next fetchSize).run.run connected).Takes T (r, connected')) :
    (s ≠ fresh ∧ T = [] ∧ r = .ok s.pop?) ∨
      s = fresh ∧ ((∃ d, T = [⟨.pull fetchSize, .error d⟩] ∧
          r = .error ((Request.pull fetchSize).fault d)) ∨
        ∃ batch, T = [⟨.pull fetchSize, .ok batch⟩] ∧ r = .ok (ofBatch batch).pop?) := by
  obtain ⟨_ | ⟨row, rows⟩, _ | _⟩ := s
  case nil.true =>
    have hfetch : (((Client.send (.pull fetchSize) : Client Batch) >>= fun batch =>
        (pure (ofBatch batch).pop? : Client _)).run.run connected).Takes T (r, connected') := by
      simpa [next, fill] using h
    rcases Client.takes_send_bind hfetch with ⟨d, rfl, rfl⟩ | ⟨batch, T', rfl, hnext⟩
    · exact .inr ⟨rfl, .inl ⟨d, rfl, rfl⟩⟩
    · obtain ⟨rfl, rfl⟩ := Client.takes_pure hnext
      exact .inr ⟨rfl, .inr ⟨batch, rfl, rfl⟩⟩
  all_goals
    obtain ⟨rfl, ⟨⟩⟩ := h
    exact .inl ⟨by simp [fresh], rfl, rfl⟩

/-- The turns in which so many rows of a stream are taken, and what comes of it. -/
inductive Collects (fetchSize : Nat) : Nat → Stream → List (Turn Request Request.Answer) →
    Except ServerFault (List (List Value)) → Prop
  | enough (s : Stream) : Collects fetchSize 0 s [] (.ok [])
  | ended {n : Nat} : Collects fetchSize (n + 1) ⟨[], false⟩ [] (.ok [])
  | taken {n : Nat} {row : List Value} {rows : List (List Value)} {more : Bool}
      {T : List (Turn Request Request.Answer)} {r : Except ServerFault (List (List Value))}
      (h : Collects fetchSize n ⟨rows, more⟩ T r) :
      Collects fetchSize (n + 1) ⟨row :: rows, more⟩ T (r.map (row :: ·))
  | denied {n : Nat} (d : Denial) : Collects fetchSize (n + 1) .fresh
      [⟨.pull fetchSize, .error d⟩] (.error ((Request.pull fetchSize).fault d))
  | fetched {n : Nat} {batch : Batch} {T : List (Turn Request Request.Answer)}
      {r : Except ServerFault (List (List Value))}
      (h : Collects fetchSize (n + 1) (.ofBatch batch) T r) :
      Collects fetchSize (n + 1) .fresh (⟨.pull fetchSize, .ok batch⟩ :: T) r

theorem Collects.of_pop?_eq_none {fetchSize n : Nat} {s : Stream} (hs : s ≠ .fresh)
    (h : s.pop? = none) : Collects fetchSize (n + 1) s [] (.ok []) := by
  obtain ⟨_ | ⟨row, rows⟩, _ | _⟩ := s
  case nil.false => exact .ended
  case nil.true => exact absurd rfl hs
  all_goals cases h

theorem Collects.of_pop?_eq_some {fetchSize n : Nat} {s s' : Stream} {row : List Value}
    {T : List (Turn Request Request.Answer)} {r : Except ServerFault (List (List Value))}
    (h : s.pop? = some (row, s')) (hrest : Collects fetchSize n s' T r) :
    Collects fetchSize (n + 1) s T (r.map (row :: ·)) := by
  obtain ⟨_ | ⟨row', rows⟩, more⟩ := s
  · cases h
  · cases h
    exact .taken hrest

/-- One turn of the loop: no row, and the end, or a row and what is taken behind it. -/
theorem Client.takes_collectRows_succ {σ ρ : Type} {next : σ → Client (Option (ρ × σ))} {n : Nat}
    {s : σ} {connected connected' : Bool} {T : List (Turn Request Request.Answer)}
    {r : Except ServerFault (List ρ)}
    (h : ((collectRows next (n + 1) s).run.run connected).Takes T (r, connected')) :
    (∃ fault, ((next s).run.run connected).Takes T (.error fault, connected') ∧
      r = .error fault) ∨
    ∃ T₁ T₂ connected₁, T = T₁ ++ T₂ ∧
      ((((next s).run.run connected).Takes T₁ (.ok none, connected₁) ∧ T₂ = [] ∧ r = .ok []) ∨
        ∃ row s' r', ((next s).run.run connected).Takes T₁ (.ok (some (row, s')), connected₁) ∧
          ((collectRows next n s').run.run connected₁).Takes T₂ (r', connected') ∧
            r = r'.map (row :: ·)) := by
  rcases takes_bind h with herror | ⟨T₁, row?, connected₁, T₂, hT, hnext, hrest⟩
  · exact .inl herror
  refine .inr ⟨T₁, T₂, connected₁, hT, ?_⟩
  cases row? with
  | none =>
    obtain ⟨rfl, rfl⟩ := takes_pure hrest
    exact .inl ⟨hnext, rfl, rfl⟩
  | some taken =>
    refine .inr ⟨taken.1, taken.2, ?_⟩
    rcases takes_bind hrest with ⟨fault, hrows, rfl⟩ | ⟨T₃, rows, _, T₄, rfl, hrows, hend⟩
    · exact ⟨.error fault, hnext, hrows, rfl⟩
    · obtain ⟨rfl, ⟨⟩⟩ := hend
      rw [List.append_nil]
      exact ⟨.ok rows, hnext, hrows, rfl⟩

theorem Client.collects_of_takes {fetchSize : Nat} (limit : Nat) {s : Stream}
    {connected connected' : Bool} {T : List (Turn Request Request.Answer)}
    {r : Except ServerFault (List (List Value))}
    (h : ((collectRows (Stream.next fetchSize) limit s).run.run connected).Takes T
      (r, connected')) :
    Collects fetchSize limit s T r := by
  induction limit generalizing s connected connected' T r with
  | zero =>
    obtain ⟨rfl, rfl⟩ := takes_pure h
    exact .enough s
  | succ n ih =>
    rcases takes_collectRows_succ h with
      ⟨fault, hnext, rfl⟩ | ⟨T₁, T₂, _, rfl, ⟨hnext, rfl, rfl⟩ | ⟨row, s', r', hnext, hrest, rfl⟩⟩
    · rcases Stream.takes_next hnext with ⟨-, -, ⟨⟩⟩ | ⟨rfl, ⟨d, rfl, ⟨⟩⟩ | ⟨batch, -, ⟨⟩⟩⟩
      exact .denied d
    · rcases Stream.takes_next hnext with ⟨hs, rfl, hpop⟩ | ⟨rfl, ⟨d, -, ⟨⟩⟩ | ⟨batch, rfl, hpop⟩⟩
      · exact .of_pop?_eq_none hs (Except.ok.inj hpop).symm
      · exact .fetched (.of_pop?_eq_none (Stream.ofBatch_ne_fresh batch) (Except.ok.inj hpop).symm)
    · rcases Stream.takes_next hnext with ⟨hs, rfl, hpop⟩ | ⟨rfl, ⟨d, -, ⟨⟩⟩ | ⟨batch, rfl, hpop⟩⟩
      · exact .of_pop?_eq_some (Except.ok.inj hpop).symm (ih hrest)
      · exact .fetched (.of_pop?_eq_some (Except.ok.inj hpop).symm (ih hrest))

namespace Collects

variable {fetchSize limit : Nat} {s : Stream} {T : List (Turn Request Request.Answer)}
  {r : Except ServerFault (List (List Value))}

/-- Nothing else is sent. -/
theorem question_eq (h : Collects fetchSize limit s T r) :
    ∀ turn ∈ T, turn.question = .pull fetchSize := by
  induction h with
  | enough s => exact fun _ hmem => absurd hmem List.not_mem_nil
  | ended => exact fun _ hmem => absurd hmem List.not_mem_nil
  | taken h ih => exact ih
  | denied d => exact List.forall_mem_singleton.2 rfl
  | fetched h ih => exact List.forall_mem_cons.2 ⟨rfl, ih⟩

/-- It fails if and only if a pull is denied, and with the fault of that pull. -/
theorem eq_error_iff (h : Collects fetchSize limit s T r) (fault : ServerFault) :
    r = .error fault ↔ ∃ turn ∈ T, turn.fault? = some fault := by
  induction h with
  | enough s => simp
  | ended => simp
  | taken h ih => rw [except_map_eq_error, ih]
  | denied d => simp [Turn.fault?]
  | fetched h ih =>
    rw [ih]
    simp [Turn.fault?]

/-- If it does not fail, the first rows are taken, those that wait before those that are fetched,
and there are either as many as may be taken or no more. -/
theorem eq_take (h : Collects fetchSize limit s T r) {rows : List (List Value)}
    (hr : r = .ok rows) :
    rows = (s.waiting ++ T.flatMap Turn.rows).take limit ∧
      (limit ≤ (s.waiting ++ T.flatMap Turn.rows).length ∨
        (T = [] ∧ s.more = false) ∨ ∃ turn, T.getLast? = some turn ∧ turn.IsLast) := by
  induction h generalizing rows with
  | enough s =>
    cases hr
    exact ⟨rfl, .inl (Nat.zero_le _)⟩
  | ended =>
    cases hr
    exact ⟨rfl, .inr (.inl ⟨rfl, rfl⟩)⟩
  | @taken n row rows more T r h ih =>
    cases r with
    | error fault => cases hr
    | ok rest =>
      cases hr
      obtain ⟨rfl, hend⟩ := ih rfl
      exact ⟨rfl, hend.imp_left Nat.succ_le_succ⟩
  | denied d => cases hr
  | @fetched n batch T r h ih =>
    obtain ⟨rfl, hend⟩ := ih hr
    have hbrought : (Stream.ofBatch batch).waiting = Turn.rows ⟨.pull fetchSize, .ok batch⟩ := by
      cases batch <;> rfl
    rw [hbrought] at hend ⊢
    refine ⟨rfl, hend.imp_right fun hlast => .inr ?_⟩
    rcases hlast with ⟨rfl, hmore⟩ | ⟨turn, hlast, hturn⟩
    · cases batch with
      | last rows => exact ⟨_, rfl, _, _, rfl⟩
      | more row rows => cases hmore
    · exact ⟨turn, by rw [List.getLast?_cons, hlast]; rfl, hturn⟩

end Collects

/-! ### Queries -/

/-- Whether a query is asked for in these turns, and comes to this. -/
structure IsQuery (fetchSize : Nat) (statement : String) (parameters : Parameters) (limit : Nat)
    (T : List (Turn Request Request.Answer)) (r : Except ServerFault Client.Table) : Prop where
  /-- Only the statement is run, and only its rows are pulled. -/
  questions : ∃ run pulls, T = run :: pulls ∧ run.question = .run statement parameters ∧
    ∀ turn ∈ pulls, turn.question = .pull fetchSize
  failure (fault : ServerFault) : r = .error fault ↔ ∃ turn ∈ T, turn.fault? = some fault
  /-- The rows are the first ones that there are. -/
  success (table : Client.Table) : r = .ok table →
    ∃ pulls, T = ⟨.run statement parameters, .ok table.columns⟩ :: pulls ∧
      table.rows = (pulls.flatMap Turn.rows).take limit ∧
      (limit ≤ (pulls.flatMap Turn.rows).length ∨
        ∃ turn, pulls.getLast? = some turn ∧ turn.IsLast)

theorem Client.isQuery_of_takes {server : Settings.Server} {statement : String}
    {parameters : Parameters} {limit : Nat} {connected connected' : Bool}
    {T : List (Turn Request Request.Answer)} {r : Except ServerFault Table}
    (h : ((collect server statement parameters limit).run.run connected).Takes T (r, connected')) :
    IsQuery server.fetchSize statement parameters limit T r := by
  unfold collect at h
  rcases takes_send_bind h with ⟨d, rfl, rfl⟩ | ⟨columns, T', rfl, hnext⟩
  · refine ⟨⟨_, [], rfl, rfl, fun _ hmem => absurd hmem List.not_mem_nil⟩, fun fault => ?_, ?_⟩
    · simp [Turn.fault?]
    · rintro table ⟨⟩
  have hcollects : ∃ r', Collects server.fetchSize limit .fresh T' r' ∧
      r = r'.map (Table.mk columns) := by
    rcases takes_bind hnext with ⟨fault, hrows, rfl⟩ | ⟨T₁, rows, _, T₂, rfl, hrows, hend⟩
    · exact ⟨_, collects_of_takes _ hrows, rfl⟩
    · obtain ⟨rfl, rfl⟩ := takes_pure hend
      rw [List.append_nil]
      exact ⟨_, collects_of_takes _ hrows, rfl⟩
  obtain ⟨r', hcollects, rfl⟩ := hcollects
  refine ⟨⟨_, T', rfl, rfl, hcollects.question_eq⟩, fun fault => ?_, fun table hr => ?_⟩
  · rw [except_map_eq_error, hcollects.eq_error_iff]
    simp [Turn.fault?]
  · cases r' with
    | error fault => cases hr
    | ok rows =>
      cases hr
      obtain ⟨hrows, hfirst | ⟨-, ⟨⟩⟩ | hlast⟩ := hcollects.eq_take rfl
      · exact ⟨T', rfl, hrows, .inl hfirst⟩
      · exact ⟨T', rfl, hrows, .inr hlast⟩

/-! ### Transactions that are rolled back -/

namespace Client

/-- What comes of an attempt is what comes of it when it is observed. -/
theorem exists_of_takes_observing {α : Type} {x : Client α} {connected connected' : Bool}
    {T : List (Turn Request Request.Answer)} {r : Except ServerFault (Except ServerFault α)}
    (h : ((readOnly.observing x).run.run connected).Takes T (r, connected')) :
    ∃ outcome, (x.run.run connected).Takes T (outcome, connected') ∧ r = .ok outcome :=
  takes_state_map h

/-- A transaction that is begun is rolled back behind its query, and of two faults the query's is
the one that counts. -/
theorem exists_of_takes_readOnly {server : Settings.Server} {statement : String}
    {parameters : Parameters} {limit : Nat} {connected connected' : Bool}
    {T : List (Turn Request Request.Answer)} {r : Except ServerFault Table}
    (h : ((readOnly server statement parameters limit).run.run connected).Takes T
      (r, connected')) :
    (∃ fault, Sequence [opening server connected, .beginTransaction] T (some fault) ∧
      r = .error fault) ∨
    ∃ begun asked ending outcome, T = begun ++ (asked ++ [⟨.rollback, ending⟩]) ∧
      Sequence [opening server connected, .beginTransaction] begun none ∧
      IsQuery server.fetchSize statement parameters limit asked outcome ∧
      r = outcome.bind fun table =>
        (ending.mapError Request.rollback.fault).map fun _ => table := by
  unfold readOnly at h
  rcases takes_bind h with ⟨fault, hopen, rfl⟩ | ⟨begun, _, _, T₂, rfl, hopen, hnext⟩
  · exact .inl ⟨fault, (follows_acquire _ _ _ _ _ hopen).stop [.beginTransaction], rfl⟩
  have hopened := follows_acquire _ _ _ _ _ hopen
  rcases takes_send_bind hnext with ⟨d, rfl, rfl⟩ | ⟨v, T₃, rfl, hbody⟩
  · exact .inl ⟨_, hopened.append (.denied d), rfl⟩
  have hgranted : Sequence [.beginTransaction] [⟨.beginTransaction, .ok v⟩] none := .granted v .nil
  have hbegun := hopened.append hgranted
  -- what is observed does not fail
  rcases takes_bind hbody with ⟨fault, hquery, -⟩ | ⟨asked, outcome, _, T₄, rfl, hquery, hback⟩
  · obtain ⟨_, _, ⟨⟩⟩ := exists_of_takes_observing hquery
  obtain ⟨_, hquery, ⟨⟩⟩ := exists_of_takes_observing hquery
  rcases takes_bind hback with ⟨fault, hend, -⟩ | ⟨T₅, ending, _, T₆, rfl, hend, hresult⟩
  · obtain ⟨_, _, ⟨⟩⟩ := exists_of_takes_observing hend
  obtain ⟨_, hend, ⟨⟩⟩ := exists_of_takes_observing hend
  obtain ⟨a, rfl, rfl, -⟩ := takes_send hend
  have hrest : T₆ = [] ∧ r = outcome.bind fun table =>
      (a.mapError Request.rollback.fault).map fun _ => table := by
    cases outcome with
    | error fault =>
      obtain ⟨rfl, ⟨⟩⟩ := hresult
      exact ⟨rfl, rfl⟩
    | ok table =>
      cases a with
      | error d =>
        obtain ⟨rfl, ⟨⟩⟩ := hresult
        exact ⟨rfl, rfl⟩
      | ok u => exact takes_pure hresult
  obtain ⟨rfl, rfl⟩ := hrest
  refine .inr ⟨_, asked, a, outcome, ?_, hbegun, isQuery_of_takes hquery, rfl⟩
  rw [List.append_nil, List.append_assoc, List.singleton_append]

/-- To begin a transaction is to commit nothing. -/
theorem ne_commit_of_sequence {server : Settings.Server} {connected : Bool}
    {T : List (Turn Request Request.Answer)} {fault? : Option ServerFault}
    (h : Sequence [opening server connected, .beginTransaction] T fault?) :
    ∀ turn ∈ T, turn.question ≠ .commit := by
  intro turn hturn hcommit
  have hmem := h.question_mem hturn
  rw [hcommit] at hmem
  cases connected <;> simp [opening] at hmem

/-- The result of a read is made of what comes of its transaction. -/
theorem exists_of_takes_read {driver : Driver} {server : Settings.Server} {tenant : Tenant}
    {statement : String} {limit : Nat} {connected connected' : Bool}
    {T : List (Turn Request Request.Answer)} {result : Except StoreError (List Row)}
    (h : ((read driver server tenant statement limit).run connected).Takes T (result, connected')) :
    ∃ r, ((readOnly server statement [tenantParameter tenant] limit).run.run connected).Takes T
        (r, connected') ∧
      result = (r.mapError .query).bind fun table =>
        (cells driver table).mapError fun m => .conversion m.message := by
  unfold read at h
  obtain ⟨T₁, r, connected₁, T₂, rfl, hanswered, hresult⟩ := takes_state_bind h
  obtain ⟨r', htakes, rfl⟩ := exists_of_takes_answered hanswered
  cases r' with
  | error fault =>
    obtain ⟨rfl, ⟨⟩⟩ := hresult
    exact ⟨_, by rwa [List.append_nil], rfl⟩
  | ok table =>
    obtain ⟨rfl, ⟨⟩⟩ := hresult
    exact ⟨_, by rwa [List.append_nil], rfl⟩

end Client

/-- What a read makes of its query, asked in these turns, when the rollback is answered so. -/
structure IsRolledBack (driver : Driver) (server : Settings.Server) (tenant : Tenant)
    (statement : String) (limit : Nat) (asked : List (Turn Request Request.Answer))
    (ending : Request.rollback.Answer) (result : Except StoreError (List Row)) : Prop where
  /-- Only the query is run, and only its rows are pulled. -/
  questions : ∃ run pulls, asked = run :: pulls ∧
    run.question = .run statement [tenantParameter tenant] ∧
      ∀ turn ∈ pulls, turn.question = .pull server.fetchSize
  /-- The fault of the query is the one that is reported, however the rollback ends. -/
  failed (fault : ServerFault) : (∃ turn ∈ asked, turn.fault? = some fault) →
    result = .error (.query fault)
  /-- If the query does not fail, the fault of the rollback is reported. -/
  denied (d : Denial) : (∀ turn ∈ asked, turn.fault? = none) → ending = .error d →
    result = .error (.query (Request.rollback.fault d))
  /-- If neither fails, the first rows are converted, as many as there may and can be. -/
  ended : (∀ turn ∈ asked, turn.fault? = none) → ending = .ok () →
    ∃ columns pulls, asked = ⟨.run statement [tenantParameter tenant], .ok columns⟩ :: pulls ∧
      (limit ≤ (pulls.flatMap Turn.rows).length ∨
        ∃ turn, pulls.getLast? = some turn ∧ turn.IsLast) ∧
      result = (Client.cells driver ⟨columns, (pulls.flatMap Turn.rows).take limit⟩).mapError
        fun m => .conversion m.message
  /-- There are rows only if nothing fails and each of them is converted. -/
  returned (rows : List Row) : result = .ok rows →
    (∀ turn ∈ asked, turn.fault? = none) ∧ ending = .ok () ∧ rows.length ≤ limit ∧
      ∃ columns pulls, asked = ⟨.run statement [tenantParameter tenant], .ok columns⟩ :: pulls ∧
        List.Forall₂ (fun row cells => rowCells driver columns row = .ok cells)
          ((pulls.flatMap Turn.rows).take limit) rows

namespace IsQuery

variable {fetchSize : Nat} {statement : String} {parameters : Parameters} {limit : Nat}
  {T : List (Turn Request Request.Answer)} {r : Except ServerFault Client.Table}

/-- A query has a table if and only if no request of it is denied. -/
theorem exists_table_iff (h : IsQuery fetchSize statement parameters limit T r) :
    (∃ table, r = .ok table) ↔ ∀ turn ∈ T, turn.fault? = none := by
  constructor
  · rintro ⟨table, rfl⟩ turn hturn
    rw [Option.eq_none_iff_forall_ne_some]
    intro fault hfault
    cases (h.failure fault).2 ⟨turn, hturn, hfault⟩
  · intro hnone
    cases r with
    | ok table => exact ⟨table, rfl⟩
    | error fault =>
      obtain ⟨turn, hturn, hfault⟩ := (h.failure fault).1 rfl
      rw [hnone turn hturn] at hfault
      cases hfault

/-- What comes of a read whose query comes to this. -/
theorem isRolledBack {driver : Driver} {server : Settings.Server} {tenant : Tenant}
    (h : IsQuery server.fetchSize statement [tenantParameter tenant] limit T r)
    (ending : Request.rollback.Answer) :
    IsRolledBack driver server tenant statement limit T ending
      (((r.bind fun table => (ending.mapError Request.rollback.fault).map fun _ => table).mapError
        .query).bind fun table => (Client.cells driver table).mapError fun m =>
          .conversion m.message) := by
  constructor
  case questions => exact h.questions
  case failed =>
    intro fault hfault
    rw [(h.failure fault).2 hfault]
    rfl
  case denied =>
    rintro d hnone rfl
    obtain ⟨table, rfl⟩ := h.exists_table_iff.2 hnone
    rfl
  case ended =>
    rintro hnone rfl
    obtain ⟨table, rfl⟩ := h.exists_table_iff.2 hnone
    obtain ⟨pulls, hT, hrows, hend⟩ := h.success table rfl
    exact ⟨table.columns, pulls, hT, hend, by rw [← hrows]; rfl⟩
  case returned =>
    intro rows hresult
    cases r with
    | error fault => cases hresult
    | ok table =>
      cases ending with
      | error d => cases hresult
      | ok u =>
        obtain ⟨pulls, hT, hrows, -⟩ := h.success table rfl
        have hcells := mapM_eq_ok.1 (mapError_eq_ok.1 hresult)
        rw [hrows] at hcells
        refine ⟨h.exists_table_iff.1 ⟨table, rfl⟩, rfl, ?_, table.columns, pulls, hT, hcells⟩
        rw [← hcells.length_eq]
        exact List.length_take_le ..

end IsQuery

/-- **A read commits nothing.** Whatever query is read and however the server answers, a read does
not ask for a commit. If it gets no connection or no transaction, it sends nothing more and reports
the fault. Otherwise it asks for its query and then, once, for a rollback, and only if both succeed
and all rows can be converted it returns rows: the first ones, and no more than it may. If the query
fails, that is what it reports. -/
theorem Client.rollsBack_of_read {σ : Type} (driver : Driver) (server : Settings.Server)
    (tenant : Tenant) (statement : String) (limit : Nat) (connected : Bool)
    (p : Party Request Request.Answer σ) (s : σ) :
    let talk := (read driver server tenant statement limit).run connected
    let T := talk.transcript p s
    let result := (talk.carryOut p s).1.1
    (∀ turn ∈ T, turn.question ≠ .commit) ∧
    ((∃ fault, Sequence [opening server connected, .beginTransaction] T (some fault) ∧
        result = .error (.query fault)) ∨
      ∃ begun asked ending, T = begun ++ (asked ++ [⟨.rollback, ending⟩]) ∧
        Sequence [opening server connected, .beginTransaction] begun none ∧
        IsRolledBack driver server tenant statement limit asked ending result) := by
  intro talk T result
  have htaken : talk.Takes T (result, (talk.carryOut p s).1.2) := takes_transcript p talk s
  obtain ⟨r, htakes, hresult⟩ := exists_of_takes_read htaken
  rcases exists_of_takes_readOnly htakes with
    ⟨fault, hdenied, rfl⟩ | ⟨begun, asked, ending, outcome, hT, hbegun, hquery, rfl⟩
  · exact ⟨ne_commit_of_sequence hdenied, .inl ⟨fault, hdenied, hresult⟩⟩
  constructor
  · obtain ⟨run, pulls, rfl, hrun, hpulls⟩ := hquery.questions
    have hasked : ∀ turn ∈ run :: pulls, turn.question ≠ .commit := by
      refine List.forall_mem_cons.2 ⟨by simp [hrun], fun turn hturn => by simp [hpulls turn hturn]⟩
    rw [hT]
    simp only [List.forall_mem_append, List.forall_mem_singleton]
    exact ⟨ne_commit_of_sequence hbegun, hasked, by simp⟩
  · refine .inr ⟨begun, asked, ending, hT, hbegun, ?_⟩
    rw [hresult]
    exact hquery.isRolledBack ending

end Bolt

end CodeGraph
