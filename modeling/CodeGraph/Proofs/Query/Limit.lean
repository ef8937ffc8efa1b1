import CodeGraph.Proofs.Query.Cap
import CodeGraph.Proofs.Query.Confine
import CodeGraph.Proofs.Text.Number

/-!
# The cap always holds

A scoped query ends in a limit clause that asks for no more rows than the cap. A limit of its own is
kept if it is lower; it is read as a number if it is written in ASCII digits and fits 64 bits.

* `States`: the number that the digits of a limit clause state;
* `IsCapped`: a text with the cap at its end, told by the limit clause that the text ends in;
* `isCapped_iff`: that is what the cap does;
* `capped_of_scope`: the scoped form of a query.
-/

namespace CodeGraph.Query

open Text

/-- The number that some digits state: they are the number in ASCII digits, with zeros before it,
and it fits 64 bits. -/
def States (digits : List Char) (n : Nat) : Prop :=
  n < twoTo 64 ∧ ∃ zeros, digits = List.replicate zeros '0' ++ showNat n

/-- A text with a cap at its end. -/
structure IsCapped (limit : Nat) (cs capped : List Char) : Prop where
  /-- The capped text ends in a limit clause, and it asks for no more rows than the cap. -/
  bounded : ∃ front n, capped = front ++ limitClause n ∧ EndsInLimit capped front (showNat n) ∧
    n ≤ limit
  /-- A limit clause that states a number is replaced by the lesser of the number and the cap. -/
  stated (front digits : List Char) (n : Nat) : EndsInLimit cs front digits → States digits n →
    capped = front ++ limitClause (min n limit)
  /-- A limit clause that states no number is replaced by the cap. -/
  unstated (front digits : List Char) : EndsInLimit cs front digits → (∀ n, ¬ States digits n) →
    capped = front ++ limitClause limit
  /-- A text that does not end in a limit clause is kept, and the cap comes on a line of its own. -/
  added : (∀ front digits, ¬ EndsInLimit cs front digits) →
    capped = cs ++ '\n' :: limitClause limit

/-! ### The number of rows -/

section Rows

variable {digits : List Char} {limit n : Nat}

theorem effectiveLimit_le (digits : List Char) (limit : Nat) :
    effectiveLimit digits limit ≤ limit := by
  unfold effectiveLimit
  split
  · split
    · exact Nat.min_le_right _ _
    · exact Nat.le_refl _
  · exact Nat.le_refl _

theorem states_iff : States digits n ↔ decimal? digits = some n ∧ n ≤ largestLimit := by
  have hlargest : n < twoTo 64 ↔ n ≤ largestLimit := by
    have hpositive := twoTo_pos 64
    rw [largestLimit]
    omega
  rw [States, decimal?_eq_some_iff, hlargest, and_comm]

theorem effectiveLimit_of_states (h : States digits n) :
    effectiveLimit digits limit = min n limit := by
  obtain ⟨hread, hle⟩ := states_iff.1 h
  rw [effectiveLimit, hread]
  exact if_pos hle

theorem effectiveLimit_of_not_states (h : ∀ n, ¬ States digits n) :
    effectiveLimit digits limit = limit := by
  unfold effectiveLimit
  split
  · rename_i n hread
    exact if_neg fun hle => h n (states_iff.2 ⟨hread, hle⟩)
  · rfl

end Rows

/-! ### The capped text -/

section Capped

variable {cs capped front digits front' digits' : List Char} {limit : Nat}

/-- A text ends in one limit clause at most. -/
theorem EndsInLimit.unique (h : EndsInLimit cs front digits) (h' : EndsInLimit cs front' digits') :
    front = front' ∧ digits = digits' := by
  have hfound := trailingLimit?_eq_some_iff.2 h
  rw [trailingLimit?_eq_some_iff.2 h'] at hfound
  cases hfound
  exact ⟨rfl, rfl⟩

theorem EndsInLimit.beginsWord (h : EndsInLimit cs front digits) : beginsWord front := by
  cases h
  assumption

/-- A limit clause that is put behind a text is one if a word may begin there. -/
theorem endsInLimit_limitClause (hfront : Text.beginsWord front) (n : Nat) :
    EndsInLimit (front ++ limitClause n) front (showNat n) := by
  have hsplit : front ++ limitClause n =
      front ++ ("LIMIT".toList ++ [' '] ++ showNat n ++ []) := by
    rw [List.append_nil]
    rfl
  rw [hsplit]
  refine .clause hfront (by decide) (by simp) (by decide) (showNat_ne_nil n) (fun c hc => ?_) rfl
  exact isDigit_of_isAsciiDigit (isAsciiDigit_of_mem_showNat hc)

theorem cap_of_endsInLimit (h : EndsInLimit cs front digits) (limit : Nat) :
    cap limit cs = front ++ limitClause (effectiveLimit digits limit) := by
  rw [cap, trailingLimit?_eq_some_iff.2 h]

theorem cap_of_not_endsInLimit (h : ∀ front digits, ¬ EndsInLimit cs front digits) (limit : Nat) :
    cap limit cs = cs ++ '\n' :: limitClause limit := by
  have hnone : trailingLimit? cs = none := by
    rw [Option.eq_none_iff_forall_ne_some]
    exact fun p hp => h p.1 p.2 (trailingLimit?_eq_some_iff.1 hp)
  rw [cap, hnone]

theorem isCapped_cap (limit : Nat) (cs : List Char) : IsCapped limit cs (cap limit cs) := by
  by_cases h : ∃ front digits, EndsInLimit cs front digits
  · obtain ⟨front, digits, h⟩ := h
    rw [cap_of_endsInLimit h]
    constructor
    case bounded =>
      exact ⟨front, _, rfl, endsInLimit_limitClause h.beginsWord _, effectiveLimit_le _ _⟩
    case stated =>
      intro front' digits' n h' hn
      obtain ⟨rfl, rfl⟩ := h.unique h'
      rw [effectiveLimit_of_states hn]
    case unstated =>
      intro front' digits' h' hn
      obtain ⟨rfl, rfl⟩ := h.unique h'
      rw [effectiveLimit_of_not_states hn]
    case added => exact fun hnone => absurd h (hnone front digits)
  · have hnone : ∀ front digits, ¬ EndsInLimit cs front digits :=
      fun front digits hends => h ⟨front, digits, hends⟩
    rw [cap_of_not_endsInLimit hnone]
    constructor
    case bounded =>
      have hline : cs ++ '\n' :: limitClause limit = cs ++ ['\n'] ++ limitClause limit := by simp
      have hfront : Text.beginsWord (cs ++ ['\n']) := by
        rw [beginsWord_append cs (List.cons_ne_nil _ _)]
        decide
      rw [hline]
      exact ⟨_, limit, rfl, endsInLimit_limitClause hfront limit, Nat.le_refl limit⟩
    case stated => exact fun front digits _ hends => absurd hends (hnone front digits)
    case unstated => exact fun front digits hends => absurd hends (hnone front digits)
    case added => exact fun _ => rfl

/-- The capped form of a text is what the cap makes of it. -/
theorem isCapped_iff : IsCapped limit cs capped ↔ capped = cap limit cs := by
  constructor
  · intro h
    by_cases hends : ∃ front digits, EndsInLimit cs front digits
    · obtain ⟨front, digits, hends⟩ := hends
      rw [cap_of_endsInLimit hends]
      by_cases hstates : ∃ n, States digits n
      · obtain ⟨n, hn⟩ := hstates
        rw [effectiveLimit_of_states hn]
        exact h.stated front digits n hends hn
      · have hnone : ∀ n, ¬ States digits n := fun n hn => hstates ⟨n, hn⟩
        rw [effectiveLimit_of_not_states hnone]
        exact h.unstated front digits hends hnone
    · have hnone : ∀ front digits, ¬ EndsInLimit cs front digits :=
        fun front digits h => hends ⟨front, digits, h⟩
      rw [cap_of_not_endsInLimit hnone]
      exact h.added hnone
  · rintro rfl
    exact isCapped_cap limit cs

end Capped

/-- **The cap always holds.** A query is scoped to its lines, each confined to the tenant, with the
cap at their end: the text ends in a limit clause of no more rows than the cap. It takes the place
of the limit clause that the lines end in, and then asks for the lesser of the two numbers if that
clause states one; otherwise it comes on a line of its own behind all of the lines. -/
theorem capped_of_scope (query : List Char) (limit : Nat) (text : List Char) :
    scope query limit = .ok text ↔
      ∃ lines, confine none (clauses query) = .ok lines ∧ IsCapped limit (unlines lines) text := by
  simp only [scope_eq_ok, isCapped_iff]

/-- A limit over two lines is a limit, zeros before its number do not count, and a limit that is not
written in ASCII digits asks for all rows. -/
example : cap 9 "RETURN n LiMiT\n 007 ".toList = "RETURN n LIMIT 7".toList ∧
    cap 9 "RETURN n LIMIT ७".toList = "RETURN n LIMIT 9".toList ∧
    cap 9 "RETURN nLIMIT 7".toList = "RETURN nLIMIT 7\nLIMIT 9".toList := by
  decide

end CodeGraph.Query
