import Guandan.Rules.Comparing
import Guandan.Rules.Exact

/-!
# Groups and single cards

Single cards are compared by `singleEffectiveRank`, pairs and triples by `patternRankForLevelCard` of
the rank. The two scales give one order but for small jokers and level cards: as single cards the joker
is higher, as groups both stand at rank 15 (`one_rank_order`).
-/

namespace Guandan

namespace CardAnalyzer

open RuleEngine

variable {ctx : RuleContext} {cards : List Card} {r s t u : Rank}

/-- `k` cards of one rank, none of them wild. -/
structure Group (ctx : RuleContext) (k : Nat) (cards : List Card) (r : Rank) : Prop where
  noWild : ∀ card ∈ cards, ctx.isWildCard card = false
  same : (ranks cards).Perm (List.replicate k r)

/-- A triple with a pair, no card of which is wild. -/
structure TripleWithPair (ctx : RuleContext) (cards : List Card) (r s : Rank) : Prop where
  noWild : ∀ card ∈ cards, ctx.isWildCard card = false
  type : (analyze cards ctx).type = .tripleWithPair
  triple : (ranks cards).count r = 3
  pair : (ranks cards).count s = 2

/-- A single card beats another. -/
def SingleBeats (ctx : RuleContext) (a b : Card) : Prop :=
  canBeat (analyze [a] ctx) (analyze [b] ctx) ctx = true

/-! ### The two scales -/

theorem raisedRank_cases (hlevel : ctx.currentLevel ≤ 14) (r : Rank) :
    15 ≤ rankValue r ∧ rankValue r ≤ 16 ∧ raisedRank ctx r = rankValue r ∨
    rankValue r ≤ 14 ∧ rankValue r = ctx.currentLevel ∧ raisedRank ctx r = 15 ∨
    rankValue r ≤ 14 ∧ rankValue r ≠ ctx.currentLevel ∧ raisedRank ctx r = rankValue r := by
  have hlt := rankValue_lt r
  unfold raisedRank kLevelCardPatternRank
  split_ifs with hr <;> omega

/-- Jokers stand one higher among the single cards. -/
theorem singleEffectiveRank_eq (hlevel : ctx.currentLevel ≤ 14) (card : Card) :
    singleEffectiveRank card ctx =
      raisedRank ctx card.rank + if isJoker card.rank then 1 else 0 := by
  unfold singleEffectiveRank RuleContext.isLevelCard RuleContext.rawLevelRankValue
  by_cases hjoker : isJoker card.rank = true
  · have hraised : raisedRank ctx card.rank = rankValue card.rank := by
      have := (isJoker_iff _).1 hjoker
      rcases raisedRank_cases hlevel card.rank with h | h | h <;> omega
    rw [hraised, if_pos hjoker]
    rcases (by simpa [isJoker] using hjoker : card.rank = .smallJoker ∨ card.rank = .bigJoker)
      with h | h <;> rw [h] <;> rfl
  · rw [if_neg (by rintro h; simp [h, isJoker] at hjoker),
      if_neg (by rintro h; simp [h, isJoker] at hjoker)]
    simp [hjoker, raisedRank]

theorem singleBeats_iff (a b : Card) :
    SingleBeats ctx a b ↔ singleEffectiveRank b ctx < singleEffectiveRank a ctx := by
  unfold SingleBeats
  rw [(Reads.single a rfl).analyze_eq, (Reads.single b rfl).analyze_eq,
    canBeat_byRank rfl rfl (.inl rfl)]
  simp

/-- A small joker and a level card: as groups they stand at the same rank. -/
def JokerAndLevel (ctx : RuleContext) (r t : Rank) : Prop :=
  r = .smallJoker ∧ rankValue t = ctx.currentLevel

theorem jokerAndLevel_iff :
    JokerAndLevel ctx r t ↔ rankValue r = 15 ∧ rankValue t = ctx.currentLevel :=
  and_congr_left' (rankValue_injective.eq_iff (b := Rank.smallJoker)).symm

theorem raisedRank_eq_iff (hlevel : ctx.currentLevel ≤ 14) (hne : r ≠ t) :
    raisedRank ctx r = raisedRank ctx t ↔ JokerAndLevel ctx r t ∨ JokerAndLevel ctx t r := by
  have hvalue := rankValue_injective.ne hne
  rw [jokerAndLevel_iff, jokerAndLevel_iff]
  have hr := raisedRank_cases hlevel r
  have ht := raisedRank_cases hlevel t
  omega

theorem singleBeats_iff_raised (hlevel : ctx.currentLevel ≤ 14) {a b : Card} (ha : a.rank = r)
    (hb : b.rank = t) : SingleBeats ctx a b ↔
      raisedRank ctx t < raisedRank ctx r ∨ JokerAndLevel ctx r t := by
  rw [singleBeats_iff, singleEffectiveRank_eq hlevel, singleEffectiveRank_eq hlevel, ha, hb,
    jokerAndLevel_iff]
  have hr := raisedRank_cases hlevel r
  have ht := raisedRank_cases hlevel t
  simp only [isJoker_iff]
  split_ifs <;> omega

/-! ### Groups -/

theorem Group.analyze_eq {k : Nat} (hk : k = 2 ∨ k = 3) (hlevel : ctx.currentLevel ≤ 14)
    (h : Group ctx k cards r) :
    analyze cards ctx = ⟨if k = 2 then .pair else .triple, raisedRank ctx r, k, 0, true⟩ := by
  have hplain := plain_of_noWild h.noWild
  rcases hk with rfl | rfl
  · exact (CountsAs.reads hlevel hplain ⟨.pair r h.same, nofun⟩).analyze_eq
  · exact (CountsAs.reads hlevel hplain ⟨.triple r h.same, nofun⟩).analyze_eq

theorem Group.canBeat_iff {as bs : List Card} {k : Nat} (hk : k = 2 ∨ k = 3)
    (hlevel : ctx.currentLevel ≤ 14) (has : Group ctx k as r) (hbs : Group ctx k bs t) :
    canBeat (analyze as ctx) (analyze bs ctx) ctx = true ↔
      raisedRank ctx t < raisedRank ctx r := by
  have hrank : ByRank (if k = 2 then .pair else .triple) := by
    split_ifs
    · exact .inr (.inl rfl)
    · exact .inr (.inr (.inl rfl))
  rw [has.analyze_eq hk hlevel, hbs.analyze_eq hk hlevel, canBeat_byRank rfl rfl hrank]
  simp

theorem TripleWithPair.analyze_eq (hlevel : ctx.currentLevel ≤ 14)
    (h : TripleWithPair ctx cards r s) :
    analyze cards ctx = ⟨.tripleWithPair, raisedRank ctx r, 5, rankValue s, true⟩ := by
  have hvalid : (analyze cards ctx).isValid = true := by
    by_contra hno
    have htype := h.type
    rw [analyze_eq_none (Bool.eq_false_of_not_eq_true hno)] at htype
    cases htype
  obtain ⟨hdenotes, -⟩ := (reads_of_valid hvalid).countsAs hlevel (plain_of_noWild h.noWild)
  have htype := h.type
  generalize analyze cards ctx = p at hdenotes htype
  cases hdenotes with
  | tripleWithPair r' s' hne hperm =>
    have htriple := h.triple
    have hpair := h.pair
    rw [hperm.count_eq, count_triplePair hne] at htriple hpair
    have hr : r' = r := by
      by_contra hr
      rw [if_neg hr] at htriple
      split_ifs at htriple
      omega
    have hs : s' = s := by
      by_contra hs
      rw [if_neg hs] at hpair
      split_ifs at hpair
      omega
    rw [hr, hs]
  | _ => cases htype

theorem TripleWithPair.canBeat_iff {as bs : List Card} (hlevel : ctx.currentLevel ≤ 14)
    (has : TripleWithPair ctx as r s) (hbs : TripleWithPair ctx bs t u) :
    canBeat (analyze as ctx) (analyze bs ctx) ctx = true ↔
      raisedRank ctx t < raisedRank ctx r ∨
        raisedRank ctx t = raisedRank ctx r ∧ rankValue u < rankValue s := by
  rw [has.analyze_eq hlevel, hbs.analyze_eq hlevel, canBeat_tripleWithPair rfl rfl rfl]
  simp

/-- Pairs and triples are ordered as their single cards, unless the first are small jokers and the second
level cards; triples with a pair likewise, but that between small jokers and level cards the pair
decides, rightly or not. -/
theorem one_rank_order (ctx : RuleContext) (hlevel : ctx.currentLevel ≤ 14) :
    (∀ k, k = 2 ∨ k = 3 → ∀ as bs r t, Group ctx k as r → Group ctx k bs t →
      ∀ a ∈ as, ∀ b ∈ bs,
        ((canBeat (analyze as ctx) (analyze bs ctx) ctx = true ↔ SingleBeats ctx a b) ↔
          ¬ JokerAndLevel ctx r t)) ∧
    ∀ as bs r s t u, TripleWithPair ctx as r s → TripleWithPair ctx bs t u → r ≠ t →
      ∀ a ∈ as, a.rank = r → ∀ b ∈ bs, b.rank = t →
        ((canBeat (analyze as ctx) (analyze bs ctx) ctx = true ↔ SingleBeats ctx a b) ↔
          (JokerAndLevel ctx r t → rankValue u < rankValue s) ∧
            (JokerAndLevel ctx t r → ¬ rankValue u < rankValue s)) := by
  refine ⟨fun k hk as bs r t has hbs a ha b hb => ?_,
    fun as bs r s t u has hbs hne a _ har b _ hbt => ?_⟩
  · have har := (present_of_replicate has.same).1 a ha
    have hbt := (present_of_replicate hbs.same).1 b hb
    rw [Group.canBeat_iff hk hlevel has hbs, singleBeats_iff_raised hlevel har hbt,
      jokerAndLevel_iff]
    have hr := raisedRank_cases hlevel r
    have ht := raisedRank_cases hlevel t
    omega
  · rw [TripleWithPair.canBeat_iff hlevel has hbs, singleBeats_iff_raised hlevel har hbt]
    have heq := raisedRank_eq_iff hlevel hne
    rw [jokerAndLevel_iff, jokerAndLevel_iff] at heq ⊢
    have hr := raisedRank_cases hlevel r
    have ht := raisedRank_cases hlevel t
    omega

theorem one_rank_order_levelPair :
    (canBeat (analyze [⟨0, .spade, .r2⟩, ⟨26, .club, .r2⟩] {})
        (analyze [⟨11, .spade, .k⟩, ⟨37, .club, .k⟩] {}) {} = true ↔
      SingleBeats {} ⟨0, .spade, .r2⟩ ⟨11, .spade, .k⟩) := by
  refine ((one_rank_order {} (by decide)).1 2 (.inl rfl) _ _ .r2 .k ⟨by decide, by decide⟩
    ⟨by decide, by decide⟩ _ (by simp) _ (by simp)).2 ?_
  rintro ⟨h, -⟩
  cases h

/-- A pair of small jokers does not beat a pair of level cards, as a single small joker does. -/
theorem jokerPair_refused :
    ¬ ∀ (ctx : RuleContext), 2 ≤ ctx.currentLevel ∧ ctx.currentLevel ≤ 14 → ∀ as bs r t,
      Group ctx 2 as r → Group ctx 2 bs t → ∀ a ∈ as, ∀ b ∈ bs,
        (canBeat (analyze as ctx) (analyze bs ctx) ctx = true ↔ SingleBeats ctx a b) := by
  intro h
  have hpair := h {} (by decide) [⟨52, .joker, .smallJoker⟩, ⟨106, .joker, .smallJoker⟩]
    [⟨0, .spade, .r2⟩, ⟨26, .club, .r2⟩] .smallJoker .r2 ⟨by decide, by decide⟩
    ⟨by decide, by decide⟩ ⟨52, .joker, .smallJoker⟩ (by simp) ⟨0, .spade, .r2⟩ (by simp)
  exact absurd (hpair.2 ((singleBeats_iff _ _).2 (by decide))) (by decide +kernel)

end CardAnalyzer

end Guandan
