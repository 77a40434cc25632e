import Mathlib.Data.List.Induction
import Mathlib.Tactic.TypeStar

/-!
# Histories

A list of events from the first to the last. What is true of its end is said by the last event that
decides it and by what every event since does not do (`Since`); one more event then either decides it anew
or is one of those.
-/

namespace Histories

variable {α : Type*} {l before rest : List α} {a b : α} {P Q : α → Prop}

/-- The event `a` occurred, and everything since satisfies `P`. -/
def Since (P : α → Prop) (l : List α) (a : α) : Prop :=
  ∃ before rest, l = before ++ a :: rest ∧ ∀ b ∈ rest, P b

/-- Where a history with one more event is split. -/
theorem concat_eq_append_cons : l ++ [b] = before ++ a :: rest ↔
    (rest = [] ∧ l = before ∧ b = a) ∨ ∃ rest', rest = rest' ++ [b] ∧ l = before ++ a :: rest' := by
  constructor
  · intro heq
    rcases List.eq_nil_or_concat rest with rfl | ⟨rest', c, rfl⟩
    · obtain ⟨rfl, hlast⟩ := List.append_inj' heq rfl
      exact .inl ⟨rfl, rfl, List.singleton_inj.1 hlast⟩
    · rw [List.concat_eq_append, ← List.cons_append, ← List.append_assoc] at heq
      obtain ⟨rfl, hlast⟩ := List.append_inj' heq rfl
      obtain rfl := List.singleton_inj.1 hlast
      exact .inr ⟨rest', List.concat_eq_append, rfl⟩
  · rintro (⟨rfl, rfl, rfl⟩ | ⟨rest', rfl, rfl⟩)
    · rfl
    · simp

theorem since_concat : Since P (l ++ [b]) a ↔ b = a ∨ (P b ∧ Since P l a) := by
  constructor
  · rintro ⟨before, rest, heq, hrest⟩
    rcases concat_eq_append_cons.1 heq with ⟨-, -, h⟩ | ⟨rest', rfl, hsplit⟩
    · exact .inl h
    · exact .inr ⟨hrest b (by simp), before, rest', hsplit,
        fun c hc => hrest c (List.mem_append_left _ hc)⟩
  · rintro (rfl | ⟨hb, before, rest, rfl, hrest⟩)
    · exact ⟨l, [], rfl, by simp⟩
    · refine ⟨before, rest ++ [b], by simp, fun c hc => ?_⟩
      rcases List.mem_append.1 hc with hc | hc
      · exact hrest c hc
      · rw [List.mem_singleton.1 hc]
        exact hb

theorem Since.mono (h : Since P l a) (himp : ∀ b, P b → Q b) : Since Q l a := by
  obtain ⟨before, rest, heq, hrest⟩ := h
  exact ⟨before, rest, heq, fun b hb => himp b (hrest b hb)⟩

end Histories
