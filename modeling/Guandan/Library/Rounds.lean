import Mathlib.Data.Nat.Notation
import Mathlib.Tactic.TypeStar

/-!
# Loops, round by round

A loop is given by what one round of it does: it goes on from another state, or it is left with a
result. `rounds n` runs at most `n` rounds, so that a loop that is never left has no result for any
number of them. Whether a loop `Halts` is settled by following its rounds (`halts_again`,
`ends_again`), or by an invariant that every round keeps without leaving (`not_halts`).
-/

/-- What a round of a loop comes to. -/
inductive Round (S R : Type*)
  | again (s : S)
  | done (r : R)

namespace Round

variable {S R : Type*} (body : S → Round S R)

/-- The result of the loop, if it is left within `n` rounds. -/
def rounds : ℕ → S → Option R
  | 0, _ => none
  | n + 1, s => match body s with
    | .again s' => rounds n s'
    | .done r => some r

/-- The loop is left with this result. -/
def Ends (s : S) (r : R) : Prop := ∃ n, rounds body n s = some r

def Halts (s : S) : Prop := ∃ r, Ends body s r

variable {body} {s s' : S} {r r' : R}

theorem ends_done (h : body s = .done r) : Ends body s r' ↔ r' = r := by
  constructor
  · rintro ⟨n, hn⟩
    cases n with
    | zero => cases hn
    | succ n =>
      rw [rounds, h] at hn
      exact (Option.some.inj hn).symm
  · rintro rfl
    exact ⟨1, by rw [rounds, h]⟩

theorem ends_again (h : body s = .again s') : Ends body s r ↔ Ends body s' r := by
  constructor
  · rintro ⟨n, hn⟩
    cases n with
    | zero => cases hn
    | succ n =>
      rw [rounds, h] at hn
      exact ⟨n, hn⟩
  · rintro ⟨n, hn⟩
    exact ⟨n + 1, by rw [rounds, h]; exact hn⟩

theorem rounds_mono {n m : ℕ} (hle : n ≤ m) (h : rounds body n s = some r) :
    rounds body m s = some r := by
  induction n generalizing s m with
  | zero => cases h
  | succ n ih =>
    obtain ⟨m, rfl⟩ := Nat.exists_eq_add_of_le' (Nat.lt_of_lt_of_le (Nat.succ_pos n) hle)
    rw [rounds] at h
    rw [rounds]
    rcases hs : body s with s₁ | r₁
    · rw [hs] at h
      exact ih (Nat.le_of_succ_le_succ hle) h
    · rw [hs] at h
      exact h

/-- A loop is left in one way only. -/
theorem Ends.unique (h : Ends body s r) (h' : Ends body s r') : r = r' := by
  obtain ⟨n, hn⟩ := h
  induction n generalizing s with
  | zero => cases hn
  | succ n ih =>
    rw [rounds] at hn
    rcases hs : body s with s₁ | r₁
    · rw [hs] at hn
      exact ih ((ends_again hs).1 h') hn
    · rw [hs] at hn
      exact (Option.some.inj hn).symm.trans ((ends_done hs).1 h').symm

/-- What every round keeps without leaving the loop keeps it from ever being left. -/
theorem not_halts {I : S → Prop} (hI : ∀ s, I s → ∃ s', body s = .again s' ∧ I s') (hs : I s) :
    ¬ Halts body s := by
  rintro ⟨r, n, hn⟩
  induction n generalizing s with
  | zero => cases hn
  | succ n ih =>
    obtain ⟨s', hagain, hs'⟩ := hI s hs
    rw [rounds, hagain] at hn
    exact ih hs' hn

/-- A round that changes nothing is repeated for ever. -/
theorem not_halts_of_fixed (h : body s = .again s) : ¬ Halts body s := by
  refine not_halts (I := (· = s)) ?_ rfl
  rintro s' rfl
  exact ⟨s', h, rfl⟩

end Round
