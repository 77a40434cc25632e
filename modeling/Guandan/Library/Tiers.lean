import Mathlib.Data.Prod.Lex

/-!
# Orders by tiers

Items stand in tiers. One of a higher tier is above all items of the lower ones; within a tier only items
of the same kind are compared, by their rank.
-/

namespace Tiers

variable {α τ κ ρ : Type*} [LinearOrder τ] [LinearOrder ρ] (tier : α → τ) (kind : α → κ) (rank : α → ρ)

def Above (a b : α) : Prop :=
  tier b < tier a ∨ tier b = tier a ∧ kind b = kind a ∧ rank b < rank a

variable {tier kind rank} {a b c : α}

theorem above_irrefl (a : α) : ¬ Above tier kind rank a a := by
  rintro (h | ⟨-, -, h⟩)
  · exact lt_irrefl _ h
  · exact lt_irrefl _ h

theorem Above.trans (hab : Above tier kind rank a b) (hbc : Above tier kind rank b c) :
    Above tier kind rank a c := by
  rcases hab with hab | ⟨htier, hkind, hrank⟩
  · rcases hbc with hbc | ⟨htier', -, -⟩
    · exact .inl (hbc.trans hab)
    · exact .inl (htier'.trans_lt hab)
  · rcases hbc with hbc | ⟨htier', hkind', hrank'⟩
    · exact .inl (hbc.trans_eq htier)
    · exact .inr ⟨htier'.trans htier, hkind'.trans hkind, hrank'.trans hrank⟩

theorem Above.asymm (hab : Above tier kind rank a b) : ¬ Above tier kind rank b a :=
  fun hba => above_irrefl a (hab.trans hba)

/-- Items of one tier and kind are incomparable exactly if they have the same rank. -/
theorem incomparable_iff (htier : tier a = tier b) (hkind : kind a = kind b) :
    ¬ Above tier kind rank a b ∧ ¬ Above tier kind rank b a ↔ rank a = rank b := by
  unfold Above
  simp only [htier, hkind, lt_irrefl, true_and, false_or, not_lt]
  exact ⟨fun h => le_antisymm h.1 h.2, fun h => ⟨h.le, h.ge⟩⟩

/-- Where a tier has one kind only, items are comparable or of the same rank in the same tier. -/
theorem above_or_above_or_same (hkind : tier a = tier b → kind a = kind b) :
    Above tier kind rank a b ∨ Above tier kind rank b a ∨
      tier a = tier b ∧ kind a = kind b ∧ rank a = rank b := by
  rcases lt_trichotomy (tier a) (tier b) with htier | htier | htier
  · exact .inr (.inl (.inl htier))
  · rcases lt_trichotomy (rank a) (rank b) with hrank | hrank | hrank
    · exact .inr (.inl (.inr ⟨htier, hkind htier, hrank⟩))
    · exact .inr (.inr ⟨htier, hkind htier, hrank⟩)
    · exact .inl (.inr ⟨htier.symm, (hkind htier).symm, hrank⟩)
  · exact .inl (.inl htier)

end Tiers
