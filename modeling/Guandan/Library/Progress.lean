import Guandan.Library.Machine
import Mathlib.Data.List.Infix
import Mathlib.Order.Basic

/-!
# Machines that come to an end

A rank is a number that no admissible step raises. Steps that lower it are few: no more than the rank at
the start (`countP_outputs_le`). And where every step on the way lowers it, the goal is reached within as
many steps (`reaches_within`).
-/

namespace Machine

variable {S I O : Type*} {M : Machine S I O} {ok : S → I → Prop} {P : S → Prop} {rank : S → Nat}
  {s : S} {is : List I}

/-- The answers that count are no more than the rank at the start, if each of them lowers it. -/
theorem countP_outputs_le {counts : O → Bool}
    (hstep : ∀ s i s' o, P s → ok s i → M.step s i = some (s', o) →
      P s' ∧ rank s' ≤ rank s ∧ (counts o = true → rank s' < rank s))
    (hs : P s) (hok : M.Follows ok s is) : (M.outputs s is).countP counts ≤ rank s := by
  induction is generalizing s with
  | nil => exact Nat.zero_le _
  | cons i is ih =>
    rcases h : M.step s i with _ | ⟨s', o⟩
    · simp [outputs, h]
    obtain ⟨hs', hle, hlt⟩ := hstep s i s' o hs hok.1 h
    have hrest := ih hs' (hok.2 s' o h)
    rw [outputs_cons h]
    by_cases ho : counts o = true
    · rw [List.countP_cons_of_pos ho]
      exact Nat.succ_le_of_lt (hrest.trans_lt (hlt ho))
    · rw [List.countP_cons_of_neg ho]
      exact hrest.trans hle

/-- The goal `Q`, which a step reaches, is reached by more inputs than the rank at the start, if until then
each is answered and lowers the rank. -/
theorem reaches_within (rank : S → Nat) {Q : S → O → S → Prop} {next : I → Prop}
    (hstep : ∀ s i, P s → next i → ∃ s' o, M.step s i = some (s', o) ∧
      (Q s o s' ∨ P s' ∧ rank s' < rank s))
    (hs : P s) (his : ∀ i ∈ is, next i) (hlong : rank s < is.length) :
    ∃ js i s₁ s₂ o, js ++ [i] <+: is ∧ M.run s js = some s₁ ∧ M.step s₁ i = some (s₂, o) ∧ Q s₁ o s₂ := by
  induction is generalizing s with
  | nil => cases hlong
  | cons i is ih =>
    obtain ⟨s', o, h, hq | ⟨hs', hlt⟩⟩ := hstep s i hs (his i (List.mem_cons_self ..))
    · exact ⟨[], i, s, s', o, ⟨is, rfl⟩, rfl, h, hq⟩
    · obtain ⟨js, j, s₁, s₂, o', hprefix, hrun, hj, hq⟩ :=
        ih hs' (fun j hj => his j (List.mem_cons_of_mem i hj)) (by rw [List.length_cons] at hlong; omega)
      refine ⟨i :: js, j, s₁, s₂, o', ?_, ?_, hj, hq⟩
      · exact List.cons_prefix_cons.2 ⟨rfl, hprefix⟩
      · rw [run_cons h]
        exact hrun

end Machine
