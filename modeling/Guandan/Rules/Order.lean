import Guandan.Library.Tiers
import Guandan.Rules.Comparing

/-!
# Beating is a strict order

Among the patterns that `analyze` gives, `canBeat` is an order by tiers (`canBeat_iff_above`): joker bombs
over bombs and straight flushes over all other patterns, which are compared within their type. The
plays of a trick are an increasing chain along every run of the engine (`beating_order`).
-/

namespace Guandan

open CardAnalyzer

namespace RuleEngine

/-- The patterns that `analyze` can give. -/
def Analyzed (p : CardPattern) : Prop := ∃ cards ctx, analyze cards ctx = p

/-- Bombs, straight flushes and joker bombs. -/
def Explosive (type : CardType) : Prop :=
  type = .bomb ∨ type = .straightFlush ∨ type = .jokerBomb

instance (type : CardType) : Decidable (Explosive type) :=
  inferInstanceAs (Decidable (_ ∨ _ ∨ _))

/-- A straight flush stands between the bombs of five cards and those of six. -/
def tier (p : CardPattern) : ℕ ×ₗ ℕ :=
  toLex (match p.type with
    | .invalid => (0, 0)
    | .bomb => (2, if p.length < 6 then p.length else p.length + 1)
    | .straightFlush => (2, 6)
    | .jokerBomb => (3, p.length)
    | _ => (1, 0))

def strength (p : CardPattern) : ℕ ×ₗ ℕ := toLex (p.primaryRank, p.pairRank)

/-- The length of the patterns of a type, where the type has one. -/
def usualLength : CardType → Nat
  | .single => 1
  | .pair => 2
  | .triple => 3
  | .threePairs => 3
  | .twoTriples => 2
  | _ => 5

structure WellFormed (p : CardPattern) : Prop where
  valid : p.isValid = true ↔ p.type ≠ .invalid
  length : p.type ≠ .invalid → p.type ≠ .bomb → p.type ≠ .jokerBomb → p.length = usualLength p.type
  pairRank : p.type ≠ .tripleWithPair → p.pairRank = 0
  jokers : p.type = .jokerBomb → p.primaryRank = rankValue .bigJoker
  none : p.type = .invalid → p = .none

variable {p q : CardPattern} {ctx : RuleContext}

theorem Analyzed.wellFormed (h : Analyzed p) : WellFormed p := by
  obtain ⟨cards, ctx, rfl⟩ := h
  by_cases hvalid : (analyze cards ctx).isValid = true
  · have hreads := reads_of_valid hvalid
    generalize analyze cards ctx = p at hreads
    cases hreads <;> exact ⟨by simp [runPattern], by simp [runPattern, usualLength],
      by simp [runPattern], by simp [runPattern], by simp [runPattern]⟩
  · rw [analyze_eq_none (Bool.eq_false_of_not_eq_true hvalid)]
    exact ⟨by decide, by decide, by decide, by decide, fun _ => rfl⟩

theorem tier_lt_iff : tier q < tier p ↔ (ofLex (tier q)).1 < (ofLex (tier p)).1 ∨
    (ofLex (tier q)).1 = (ofLex (tier p)).1 ∧ (ofLex (tier q)).2 < (ofLex (tier p)).2 :=
  Prod.Lex.lt_iff

theorem strength_lt_iff : strength q < strength p ↔ q.primaryRank < p.primaryRank ∨
    q.primaryRank = p.primaryRank ∧ q.pairRank < p.pairRank :=
  Prod.Lex.toLex_lt_toLex

theorem tier_ordinary (hvalid : p.type ≠ .invalid) (h : ¬ Explosive p.type) :
    tier p = toLex (1, 0) := by
  unfold tier
  rcases p with ⟨type, rank, length, pair, valid⟩
  cases type <;> first | rfl | simp [Explosive] at hvalid h

/-- The patterns of one tier have one type, unless they are ordinary. -/
theorem type_eq_of_tier (hp : Explosive p.type) (h : tier p = tier q) : p.type = q.type := by
  have hpair := toLex.injective h
  rcases p with ⟨type, rank, length, pair, valid⟩
  rcases q with ⟨type', rank', length', pair', valid'⟩
  rcases hp with hp | hp | hp <;> dsimp only at hp <;> subst hp <;> cases type' <;>
    simp at hpair ⊢ <;> split_ifs at hpair <;> omega

theorem two_le_tier (h : Explosive p.type) : 2 ≤ (ofLex (tier p)).1 := by
  unfold tier
  rcases h with h | h | h <;> rw [h] <;> simp

/-- Bombs, straight flushes and joker bombs among each other. -/
theorem canBeat_explosive (hp : WellFormed p) (hq : WellFormed q) (hpe : Explosive p.type)
    (hqe : Explosive q.type) (ctx : RuleContext) :
    canBeat p q ctx = true ↔ Tiers.Above tier (·.type) strength p q := by
  have hpv : p.isValid = true := hp.valid.2 fun h => by simp [h, Explosive] at hpe
  have hqv : q.isValid = true := hq.valid.2 fun h => by simp [h, Explosive] at hqe
  have hpair : p.pairRank = 0 := hp.pairRank fun h => by simp [h, Explosive] at hpe
  have hpair' : q.pairRank = 0 := hq.pairRank fun h => by simp [h, Explosive] at hqe
  unfold Tiers.Above
  rw [tier_lt_iff, strength_lt_iff, hpair, hpair']
  rcases hpe with hpt | hpt | hpt
  · rw [canBeat_bomb hpv hqv hpt]
    rcases hqe with hqt | hqt | hqt <;> simp only [tier, hpt, hqt] <;> simp <;> split_ifs <;> omega
  · have hlen := hp.length
    have hlen' := hq.length
    rw [canBeat_straightFlush hpv hqv hpt]
    rcases hqe with hqt | hqt | hqt <;> simp [tier, hpt, hqt, usualLength] at hlen hlen' ⊢
    · split_ifs <;> omega
    · omega
  · have hjokers := hp.jokers hpt
    rw [canBeat_jokerBomb hpv hqv hpt]
    rcases hqe with hqt | hqt | hqt
    · simp [tier, hpt, hqt]
    · simp [tier, hpt, hqt]
    · simp [tier, hpt, hqt, hjokers, hq.jokers hqt]

theorem canBeat_iff_above (hp : WellFormed p) (hq : WellFormed q) (ctx : RuleContext) :
    canBeat p q ctx = true ↔ Tiers.Above tier (·.type) strength p q := by
  by_cases hpn : p.type = .invalid
  · rw [hp.none hpn]
    refine iff_of_false (by simp [canBeat, CardPattern.none]) ?_
    rintro (h | ⟨-, hkind, hrank⟩)
    · rw [tier_lt_iff] at h
      simp [tier, CardPattern.none] at h
    · rw [hq.none hkind] at hrank
      exact lt_irrefl _ hrank
  have hpv := hp.valid.2 hpn
  by_cases hqn : q.type = .invalid
  · rw [hq.none hqn]
    refine iff_of_true (by simp [canBeat, CardPattern.none, hpv]) (.inl ?_)
    rw [tier_lt_iff]
    left
    by_cases hpe : Explosive p.type
    · exact Nat.lt_of_lt_of_le (by decide) (two_le_tier hpe)
    · rw [tier_ordinary hpn hpe]
      decide
  have hqv := hq.valid.2 hqn
  by_cases hpe : Explosive p.type
  · by_cases hqe : Explosive q.type
    · exact canBeat_explosive hp hq hpe hqe ctx
    · refine iff_of_true ?_ (.inl ?_)
      · simp only [Explosive, not_or] at hqe
        rcases hpe with hpt | hpt | hpt
        · exact (canBeat_bomb hpv hqv hpt).2 ⟨hqe.2.2, fun h => absurd h hqe.2.1, fun h => absurd h hqe.1⟩
        · exact (canBeat_straightFlush hpv hqv hpt).2
            ⟨hqe.2.2, fun h => absurd h hqe.1, fun h => absurd h hqe.2.1⟩
        · exact (canBeat_jokerBomb hpv hqv hpt).2 fun h => absurd h hqe.2.2
      · rw [tier_ordinary hqn hqe, Prod.Lex.lt_iff]
        exact .inl (Nat.lt_of_lt_of_le (by decide) (two_le_tier hpe))
  · have hordinary : Ordinary p.type := by
      simp only [Explosive, not_or] at hpe
      exact ⟨hpe.2.2, hpe.2.1, hpe.1⟩
    by_cases hqe : Explosive q.type
    · refine iff_of_false ?_ ?_
      · have hne : p.type ≠ q.type := fun h => hpe (h.symm ▸ hqe)
        rw [canBeat_ordinary hpv hqv hordinary, sameTypeBeat, if_pos hne]
        decide
      · rintro (h | ⟨-, hkind, -⟩)
        · have htwo := two_le_tier hqe
          rw [tier_lt_iff, tier_ordinary hpn hpe] at h
          simp at h
          omega
        · exact hpe (Eq.subst (motive := Explosive) hkind hqe)
    · have htier : tier q = tier p := by rw [tier_ordinary hpn hpe, tier_ordinary hqn hqe]
      unfold Tiers.Above
      rw [htier, strength_lt_iff]
      simp only [lt_irrefl, true_and, false_or]
      by_cases htriple : p.type = .tripleWithPair
      · rw [canBeat_tripleWithPair hpv hqv htriple, htriple]
      · have hrank : ByRank p.type := by
          revert hpn htriple hordinary
          cases p.type <;> simp [ByRank, Ordinary]
        rw [canBeat_byRank hpv hqv hrank, hp.pairRank htriple]
        refine and_congr_right fun htype => ?_
        have hlen := hp.length hpn hordinary.2.2 hordinary.1
        have hlen' := hq.length hqn (htype ▸ hordinary.2.2) (htype ▸ hordinary.1)
        rw [hlen, hlen', htype, hq.pairRank (htype ▸ htriple)]
        simp

/-! ### The laws of the order -/

variable {r : CardPattern}

theorem canBeat_irrefl (hp : Analyzed p) : canBeat p p ctx = false := by
  rw [← Bool.not_eq_true, canBeat_iff_above hp.wellFormed hp.wellFormed]
  exact Tiers.above_irrefl p

theorem canBeat_asymm (hp : Analyzed p) (hq : Analyzed q) (h : canBeat p q ctx = true) :
    canBeat q p ctx = false := by
  rw [canBeat_iff_above hp.wellFormed hq.wellFormed] at h
  rw [← Bool.not_eq_true, canBeat_iff_above hq.wellFormed hp.wellFormed]
  exact h.asymm

theorem canBeat_trans (hp : Analyzed p) (hq : Analyzed q) (hr : Analyzed r)
    (hpq : canBeat p q ctx = true) (hqr : canBeat q r ctx = true) : canBeat p r ctx = true := by
  rw [canBeat_iff_above hp.wellFormed hq.wellFormed] at hpq
  rw [canBeat_iff_above hq.wellFormed hr.wellFormed] at hqr
  rw [canBeat_iff_above hp.wellFormed hr.wellFormed]
  exact hpq.trans hqr

theorem length_eq_of_tier (hp : WellFormed p) (hq : WellFormed q) (hpe : Explosive p.type)
    (htype : p.type = q.type) (h : tier p = tier q) : p.length = q.length := by
  have hpair := toLex.injective h
  rcases hpe with hpt | hpt | hpt
  · simp [← htype, hpt] at hpair
    split_ifs at hpair <;> omega
  · rw [hp.length, hq.length, htype] <;> simp [← htype, hpt]
  · simpa [← htype, hpt] using hpair

theorem comparable_of_explosive (hp : Analyzed p) (hq : Analyzed q) (hpe : Explosive p.type) :
    canBeat p q ctx = true ∨ canBeat q p ctx = true ∨
      p.type = q.type ∧ p.length = q.length ∧ p.primaryRank = q.primaryRank := by
  rw [canBeat_iff_above hp.wellFormed hq.wellFormed, canBeat_iff_above hq.wellFormed hp.wellFormed]
  have hcompare : Tiers.Above tier (·.type) strength p q ∨ Tiers.Above tier (·.type) strength q p ∨
      tier p = tier q ∧ p.type = q.type ∧ strength p = strength q :=
    Tiers.above_or_above_or_same (type_eq_of_tier hpe)
  rcases hcompare with h | h | ⟨htier, htype, hrank⟩
  · exact .inl h
  · exact .inr (.inl h)
  · exact .inr (.inr ⟨htype, length_eq_of_tier hp.wellFormed hq.wellFormed hpe htype htier,
      congrArg Prod.fst (toLex.injective hrank)⟩)

theorem explosive_beats (hp : Analyzed p) (hq : Analyzed q) (hpe : Explosive p.type)
    (hqe : ¬ Explosive q.type) : canBeat p q ctx = true ∧ canBeat q p ctx = false := by
  have hbeats : canBeat p q ctx = true := by
    rw [canBeat_iff_above hp.wellFormed hq.wellFormed]
    left
    rw [Prod.Lex.lt_iff]
    refine .inl (Nat.lt_of_lt_of_le ?_ (two_le_tier hpe))
    by_cases hqn : q.type = .invalid
    · rw [hq.wellFormed.none hqn]
      decide
    · rw [tier_ordinary hqn hqe]
      decide
  exact ⟨hbeats, canBeat_asymm hp hq hbeats⟩

/-- Two patterns of one ordinary type do not beat each other exactly if they have the same strength. -/
theorem incomparable_iff_strength (hp : Analyzed p) (hq : Analyzed q) (htype : p.type = q.type)
    (hqe : ¬ Explosive q.type) :
    canBeat p q ctx = false ∧ canBeat q p ctx = false ↔ strength p = strength q := by
  have htier : tier p = tier q := by
    by_cases hqn : q.type = .invalid
    · rw [hp.wellFormed.none (htype.trans hqn), hq.wellFormed.none hqn]
    · rw [tier_ordinary hqn hqe, tier_ordinary (htype ▸ hqn) (htype ▸ hqe)]
  rw [← Bool.not_eq_true, ← Bool.not_eq_true, canBeat_iff_above hp.wellFormed hq.wellFormed,
    canBeat_iff_above hq.wellFormed hp.wellFormed]
  exact Tiers.incomparable_iff htier htype

theorem incomparable_equivalence {type : CardType} (h : ¬ Explosive type) :
    Equivalence fun p q : { p // Analyzed p ∧ p.type = type } =>
      canBeat p.1 q.1 ctx = false ∧ canBeat q.1 p.1 ctx = false := by
  have hiff : ∀ p q : { p // Analyzed p ∧ p.type = type },
      (canBeat p.1 q.1 ctx = false ∧ canBeat q.1 p.1 ctx = false) ↔ strength p.1 = strength q.1 :=
    fun p q => incomparable_iff_strength p.2.1 q.2.1 (p.2.2.trans q.2.2.symm) (q.2.2.symm ▸ h)
  simp only [hiff]
  exact ⟨fun _ => rfl, fun h => h.symm, fun h h' => h.trans h'⟩

end RuleEngine

end Guandan
