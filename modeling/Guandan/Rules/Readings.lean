import Guandan.Rules.Groups

/-!
# What a hand is read as

`Reads cards ctx p`: the valid pattern `p` that `analyze` gives, in terms of the plain cards. The order of
the recognisers is part of it: a hand of one rank is a bomb first, one of two ranks a triple with a
pair, and a run is the lowest one the plain cards fit.
-/

namespace Guandan

namespace CardAnalyzer

/-- Jokers only, two of each at least. -/
def JokersOnly (cards : List Card) : Prop :=
  (∀ card ∈ cards, isJoker card.rank = true) ∧
    2 ≤ cards.countP (·.rank == .smallJoker) ∧ 2 ≤ cards.countP (·.rank == .bigJoker)

/-- The lowest window that fits. -/
def LowestRun (N : List Card) (need len start : Nat) : Prop :=
  FitsRun N need len start ∧ ∀ s < start, ¬ FitsRun N need len s

def bombRank (cards : List Card) (ctx : RuleContext) : Nat :=
  if cards.all ctx.isLevelCard then kLevelCardPatternRank else onlyRank (plain cards ctx) ctx

inductive Reads (cards : List Card) (ctx : RuleContext) : CardPattern → Prop
  | jokerBomb (hjokers : JokersOnly cards) :
      Reads cards ctx ⟨.jokerBomb, rankValue .bigJoker, cards.length, 0, true⟩
  | bomb (hjokers : ¬ JokersOnly cards) (h4 : 4 ≤ cards.length)
      (hone : (present (plain cards ctx)).length ≤ 1) :
      Reads cards ctx ⟨.bomb, bombRank cards ctx, cards.length, 0, true⟩
  | single (card : Card) (hcard : cards = [card]) :
      Reads cards ctx ⟨.single, singleEffectiveRank card ctx, 1, 0, true⟩
  | pair (h2 : cards.length = 2) (hone : (present (plain cards ctx)).length ≤ 1) :
      Reads cards ctx
        ⟨.pair, patternRankForLevelCard (onlyRank (plain cards ctx) ctx) ctx, 2, 0, true⟩
  | triple (h3 : cards.length = 3) (hone : (present (plain cards ctx)).length ≤ 1) :
      Reads cards ctx
        ⟨.triple, patternRankForLevelCard (onlyRank (plain cards ctx) ctx) ctx, 3, 0, true⟩
  | lowTriple (r s : Nat) (hjokers : ¬ JokersOnly cards) (h5 : cards.length = 5)
      (htwo : present (plain cards ctx) = [r, s]) (hr : rankCount (plain cards ctx) r ≤ 3)
      (hs : rankCount (plain cards ctx) s ≤ 2) :
      Reads cards ctx ⟨.tripleWithPair, patternRankForLevelCard r ctx, 5, s, true⟩
  | highTriple (r s : Nat) (hjokers : ¬ JokersOnly cards) (h5 : cards.length = 5)
      (htwo : present (plain cards ctx) = [r, s]) (hr : rankCount (plain cards ctx) r ≤ 2)
      (hs : rankCount (plain cards ctx) s = 3) :
      Reads cards ctx ⟨.tripleWithPair, patternRankForLevelCard s ctx, 5, r, true⟩
  | straightFlush (start : Nat) (h5 : cards.length = 5) (hmany : 2 < (present (plain cards ctx)).length)
      (hsuit : OneSuit (plain cards ctx)) (hlow : LowestRun (plain cards ctx) 1 5 start) :
      Reads cards ctx (runPattern .straightFlush 5 start)
  | straight (start : Nat) (h5 : cards.length = 5) (hmany : 2 < (present (plain cards ctx)).length)
      (hsuit : ¬ OneSuit (plain cards ctx)) (hlow : LowestRun (plain cards ctx) 1 5 start) :
      Reads cards ctx (runPattern .straight 5 start)
  | threePairs (start : Nat) (h6 : cards.length = 6) (hmany : 1 < (present (plain cards ctx)).length)
      (hlow : LowestRun (plain cards ctx) 2 3 start) :
      Reads cards ctx (runPattern .threePairs 3 start)
  | twoTriples (start : Nat) (h6 : cards.length = 6) (hmany : 1 < (present (plain cards ctx)).length)
      (hpairs : ∀ s, ¬ FitsRun (plain cards ctx) 2 3 s) (hlow : LowestRun (plain cards ctx) 3 2 start) :
      Reads cards ctx (runPattern .twoTriples 2 start)

variable {cards : List Card} {ctx : RuleContext}

theorem analyzeJokerBomb_of_jokersOnly (h : JokersOnly cards) :
    analyzeJokerBomb cards = ⟨.jokerBomb, rankValue .bigJoker, cards.length, 0, true⟩ := by
  unfold analyzeJokerBomb
  rw [if_pos]
  simpa [JokersOnly, and_assoc] using h

theorem analyzeJokerBomb_none (h : ¬ JokersOnly cards) : analyzeJokerBomb cards = .none := by
  unfold analyzeJokerBomb
  rw [if_neg]
  simpa [JokersOnly, and_assoc] using h

theorem JokersOnly.length_ge (h : JokersOnly cards) : 4 ≤ cards.length := by
  obtain ⟨-, hsmall, hbig⟩ := h
  have hle : cards.countP (·.rank == .bigJoker) ≤
      cards.countP fun card => ¬ (card.rank == .smallJoker) = true := by
    apply List.countP_mono_left
    intro card _ hcard
    rw [beq_iff_eq.1 hcard]
    decide
  rw [List.length_eq_countP_add_countP (fun card : Card => card.rank == .smallJoker)]
  omega

/-- The two jokers are not both of the level, so one of them is a plain card. -/
theorem JokersOnly.plain_joker (h : JokersOnly cards) (ctx : RuleContext) :
    ∃ card ∈ plain cards ctx, isJoker card.rank = true := by
  obtain ⟨hall, hsmall, hbig⟩ := h
  obtain ⟨small, hs, hsmall⟩ := List.countP_pos_iff.1 (show 0 < cards.countP (·.rank == .smallJoker) by
    omega)
  obtain ⟨big, hb, hbig⟩ := List.countP_pos_iff.1 (show 0 < cards.countP (·.rank == .bigJoker) by omega)
  rw [beq_iff_eq] at hsmall hbig
  have hplain : ∀ card ∈ cards, rankValue card.rank ≠ ctx.rawLevelRankValue →
      card ∈ plain cards ctx := by
    intro card hcard hne
    simp [plain, hcard, RuleContext.isWildCard, hne]
  by_cases hlevel : rankValue .smallJoker = ctx.rawLevelRankValue
  · refine ⟨big, hplain big hb ?_, hall big hb⟩
    rw [hbig, ← hlevel]
    decide
  · exact ⟨small, hplain small hs (hsmall ▸ hlevel), hall small hs⟩

theorem JokersOnly.not_fits (h : JokersOnly cards) {need len start : Nat} :
    ¬ FitsRun (plain cards ctx) need len start := by
  intro hfits
  obtain ⟨card, hcard, hjoker⟩ := h.plain_joker ctx
  rw [hfits.no_joker card hcard] at hjoker
  exact Bool.false_ne_true hjoker

theorem analyze_of_jokersOnly (h : JokersOnly cards) :
    analyze cards ctx = ⟨.jokerBomb, rankValue .bigJoker, cards.length, 0, true⟩ := by
  have hne : cards.isEmpty = false := by
    have := h.length_ge
    rw [List.isEmpty_eq_false_iff_exists_mem]
    exact List.exists_mem_of_length_pos (by omega)
  simp [analyze, hne, analyzeJokerBomb_of_jokersOnly h]

theorem analyze_of_oneRank (h : ¬ JokersOnly cards) (h4 : 4 ≤ cards.length)
    (hone : (present (plain cards ctx)).length ≤ 1) :
    analyze cards ctx = ⟨.bomb, bombRank cards ctx, cards.length, 0, true⟩ := by
  have hne : cards.isEmpty = false := by
    rw [List.isEmpty_eq_false_iff_exists_mem]
    exact List.exists_mem_of_length_pos (by omega)
  simp only [analyze, hne, analyzeJokerBomb_none h, analyzeBomb_eq, h4, hone, and_self, if_true,
    CardPattern.none, Bool.false_eq_true, if_false, bombRank]

theorem analyze_of_small (h4 : cards.length < 4) :
    analyze cards ctx = if cards.length = 1 then analyzeSingle cards ctx
      else if cards.length = 2 then analyzePair (groupByRank cards ctx)
        (totalWild 0 (groupByRank cards ctx)) ctx
      else if cards.length = 3 then analyzeTriple (groupByRank cards ctx)
        (totalWild 0 (groupByRank cards ctx)) ctx
      else .none := by
  have hj : ¬ JokersOnly cards := fun h => by have := h.length_ge; omega
  rcases cards with _ | ⟨card, cards⟩
  · rfl
  · have hb : ¬ 4 ≤ (card :: cards).length := by omega
    simp only [analyze, List.isEmpty_cons, Bool.false_eq_true, if_false, analyzeJokerBomb_none hj,
      analyzeBomb_eq, hb, false_and, CardPattern.none]
    split_ifs <;> first | rfl | (simp only [List.length_cons] at *; omega)

theorem analyze_of_ranks (h : ¬ JokersOnly cards) (h4 : 4 ≤ cards.length)
    (hmany : 1 < (present (plain cards ctx)).length) :
    analyze cards ctx = firstValid
      ((if cards.length = 5 then [analyzeTripleWithPair (groupByRank cards ctx)
          (totalWild 0 (groupByRank cards ctx)) ctx] else []) ++
        [analyzeStraightFlush cards ctx, analyzeStraight (groupByRank cards ctx)
          (totalWild 0 (groupByRank cards ctx)) cards.length] ++
        (if cards.length = 6 then
          [analyzeThreePairs (groupByRank cards ctx) (totalWild 0 (groupByRank cards ctx)) cards.length,
            analyzeTwoTriples (groupByRank cards ctx) (totalWild 0 (groupByRank cards ctx)) cards.length]
        else [])) := by
  have hne : cards.isEmpty = false := by
    rw [List.isEmpty_eq_false_iff_exists_mem]
    exact List.exists_mem_of_length_pos (by omega)
  have h1 : cards.length ≠ 1 := by omega
  have h2 : cards.length ≠ 2 := by omega
  have h3 : cards.length ≠ 3 := by omega
  simp only [analyze, hne, Bool.false_eq_true, if_false, analyzeJokerBomb_none h, analyzeBomb_eq,
    Nat.not_le.2 hmany, and_false, CardPattern.none, h1, h2, h3]

theorem length_groupByRank_ne (h : cards.length ≠ 0) : (groupByRank cards ctx).length ≠ 0 := by
  have htotal := plain_add_wild cards ctx
  have hsum := sum_present (plain cards ctx)
  rw [groupByRank_eq, List.length_append, List.length_map]
  split_ifs with hwild
  · simp
  · intro hlen
    have hnil : present (plain cards ctx) = [] := List.length_eq_zero_iff.1 (by simpa using hlen)
    rw [hnil] at hsum
    simp only [List.map_nil, List.sum_nil] at hsum
    omega

/-- The readings exclude each other, and each of them is the pattern that `analyze` gives. -/
theorem Reads.analyze_eq {p : CardPattern} (h : Reads cards ctx p) : analyze cards ctx = p := by
  cases h with
  | jokerBomb hjokers => exact analyze_of_jokersOnly hjokers
  | bomb hjokers h4 hone => exact analyze_of_oneRank hjokers h4 hone
  | single card hcard =>
    subst hcard
    rw [analyze_of_small (by simp)]
    rfl
  | pair h2 hone =>
    rw [analyze_of_small (by omega), if_neg (by omega), if_pos h2, analyzePair,
      if_neg (length_groupByRank_ne (by omega)), ← h2, analyzeSameRank_eq, if_pos hone]
  | triple h3 hone =>
    rw [analyze_of_small (by omega), if_neg (by omega), if_neg (by omega), if_pos h3, analyzeTriple,
      ← h3, analyzeSameRank_eq, if_pos hone]
  | lowTriple r s hjokers h5 htwo hr hs =>
    rw [analyze_of_ranks hjokers (by omega) (by simp [htwo]), if_pos h5,
      analyzeTripleWithPair_eq h5 htwo, if_pos ⟨hr, hs⟩]
    rfl
  | highTriple r s hjokers h5 htwo hr hs =>
    rw [analyze_of_ranks hjokers (by omega) (by simp [htwo]), if_pos h5,
      analyzeTripleWithPair_eq h5 htwo, if_neg (by omega), if_pos ⟨hr, by omega⟩]
    rfl
  | straightFlush start h5 hmany hsuit hlow =>
    have hne : plain cards ctx ≠ [] := by
      intro hnil
      simp [hnil, present, rankCount] at hmany
    rw [analyze_of_ranks (fun hjokers => hjokers.not_fits hlow.1) (by omega) (by omega), if_pos h5,
      analyzeTripleWithPair_none hmany, analyzeStraightFlush_of_fits h5 hne hsuit hlow.1 hlow.2]
    rfl
  | straight start h5 hmany hsuit hlow =>
    rw [analyze_of_ranks (fun hjokers => hjokers.not_fits hlow.1) (by omega) (by omega), if_pos h5,
      analyzeTripleWithPair_none hmany,
      analyzeStraightFlush_none (fun _ _ honeSuit => absurd honeSuit hsuit), analyzeStraight,
      analyzeWindow_of_fits _ 1 5 10 (by decide) rfl h5 hlow.1 hlow.2]
    rfl
  | threePairs start h6 hmany hlow =>
    rw [analyze_of_ranks (fun hjokers => hjokers.not_fits hlow.1) (by omega) hmany,
      if_neg (by omega), if_pos h6, analyzeStraightFlush_none (fun h5 => by omega), analyzeStraight,
      analyzeWindow_none _ 1 5 10 (by decide) rfl (fun h5 => by omega), analyzeThreePairs,
      analyzeWindow_of_fits _ 2 3 12 (by decide) rfl h6 hlow.1 hlow.2]
    rfl
  | twoTriples start h6 hmany hpairs hlow =>
    rw [analyze_of_ranks (fun hjokers => hjokers.not_fits hlow.1) (by omega) hmany,
      if_neg (by omega), if_pos h6, analyzeStraightFlush_none (fun h5 => by omega), analyzeStraight,
      analyzeWindow_none _ 1 5 10 (by decide) rfl (fun h5 => by omega), analyzeThreePairs,
      analyzeWindow_none _ 2 3 12 (by decide) rfl (fun _ => hpairs), analyzeTwoTriples,
      analyzeWindow_of_fits _ 3 2 13 (by decide) rfl h6 hlow.1 hlow.2]
    rfl

theorem exists_lowestRun {N : List Card} {need len start : Nat} (h : FitsRun N need len start) :
    ∃ s, LowestRun N need len s := by
  classical
  have hex : ∃ s, FitsRun N need len s := ⟨start, h⟩
  exact ⟨Nat.find hex, Nat.find_spec hex, fun s hs => Nat.find_min hex hs⟩

theorem exists_reads_small (hsmall : cards.length < 4) (h : (analyze cards ctx).isValid = true) :
    ∃ p, Reads cards ctx p := by
  rw [analyze_of_small hsmall] at h
  by_cases h1 : cards.length = 1
  · obtain ⟨card, hcard⟩ := List.length_eq_one_iff.1 h1
    exact ⟨_, .single card hcard⟩
  rw [if_neg h1] at h
  by_cases h2 : cards.length = 2
  · rw [if_pos h2, analyzePair, if_neg (length_groupByRank_ne (by omega)), ← h2,
      analyzeSameRank_eq] at h
    split_ifs at h with hone
    · exact ⟨_, .pair h2 hone⟩
    · exact absurd h (by decide)
  rw [if_neg h2] at h
  by_cases h3 : cards.length = 3
  · rw [if_pos h3, analyzeTriple, ← h3, analyzeSameRank_eq] at h
    split_ifs at h with hone
    · exact ⟨_, .triple h3 hone⟩
    · exact absurd h (by decide)
  · rw [if_neg h3] at h
    exact absurd h (by decide)

theorem exists_reads_five (hjokers : ¬ JokersOnly cards) (h5 : cards.length = 5)
    (hmany : 1 < (present (plain cards ctx)).length) (h : (analyze cards ctx).isValid = true) :
    ∃ p, Reads cards ctx p := by
  -- without a run the triple with a pair is all that is left
  have hinvalid : (∀ start, ¬ FitsRun (plain cards ctx) 1 5 start) →
      analyzeTripleWithPair (groupByRank cards ctx) (totalWild 0 (groupByRank cards ctx)) ctx ≠
        .none := by
    intro hno htriple
    rw [analyze_of_ranks hjokers (by omega) hmany, if_pos h5, if_neg (by omega), htriple,
      analyzeStraightFlush_none (fun _ _ _ => hno), analyzeStraight,
      analyzeWindow_none _ 1 5 10 (by decide) rfl (fun _ => hno)] at h
    exact absurd h (by decide)
  by_cases hmore : 2 < (present (plain cards ctx)).length
  · by_cases hruns : ∃ start, FitsRun (plain cards ctx) 1 5 start
    · obtain ⟨start, hlow⟩ := exists_lowestRun hruns.choose_spec
      by_cases hsuit : OneSuit (plain cards ctx)
      · exact ⟨_, .straightFlush start h5 hmore hsuit hlow⟩
      · exact ⟨_, .straight start h5 hmore hsuit hlow⟩
    · exact absurd (analyzeTripleWithPair_none hmore) (hinvalid (not_exists.1 hruns))
  · obtain ⟨r, s, htwo⟩ := List.length_eq_two.1 (show (present (plain cards ctx)).length = 2 by omega)
    by_cases hlow : rankCount (plain cards ctx) r ≤ 3 ∧ rankCount (plain cards ctx) s ≤ 2
    · exact ⟨_, .lowTriple r s hjokers h5 htwo hlow.1 hlow.2⟩
    by_cases hhigh : rankCount (plain cards ctx) r ≤ 2 ∧ rankCount (plain cards ctx) s ≤ 3
    · exact ⟨_, .highTriple r s hjokers h5 htwo hhigh.1 (by omega)⟩
    refine absurd ?_ (hinvalid fun start hfits => hlow ⟨?_, ?_⟩)
    · rw [analyzeTripleWithPair_eq h5 htwo, if_neg hlow, if_neg hhigh]
    · exact (hfits.rankCount_le (by decide)).trans (by decide)
    · exact (hfits.rankCount_le (by decide)).trans (by decide)

theorem exists_reads_six (hjokers : ¬ JokersOnly cards) (h6 : cards.length = 6)
    (hmany : 1 < (present (plain cards ctx)).length) (h : (analyze cards ctx).isValid = true) :
    ∃ p, Reads cards ctx p := by
  by_cases hpairs : ∃ start, FitsRun (plain cards ctx) 2 3 start
  · obtain ⟨start, hlow⟩ := exists_lowestRun hpairs.choose_spec
    exact ⟨_, .threePairs start h6 hmany hlow⟩
  rw [not_exists] at hpairs
  by_cases htriples : ∃ start, FitsRun (plain cards ctx) 3 2 start
  · obtain ⟨start, hlow⟩ := exists_lowestRun htriples.choose_spec
    exact ⟨_, .twoTriples start h6 hmany hpairs hlow⟩
  rw [not_exists] at htriples
  rw [analyze_of_ranks hjokers (by omega) hmany, if_neg (by omega), if_pos h6,
    analyzeStraightFlush_none (fun h5 => by omega), analyzeStraight,
    analyzeWindow_none _ 1 5 10 (by decide) rfl (fun h5 => by omega), analyzeThreePairs,
    analyzeWindow_none _ 2 3 12 (by decide) rfl (fun _ => hpairs), analyzeTwoTriples,
    analyzeWindow_none _ 3 2 13 (by decide) rfl (fun _ => htriples)] at h
  exact absurd h (by decide)

/-- Every valid pattern is one of the readings. -/
theorem reads_of_valid (h : (analyze cards ctx).isValid = true) :
    Reads cards ctx (analyze cards ctx) := by
  suffices hex : ∃ p, Reads cards ctx p by
    obtain ⟨p, hp⟩ := hex
    rw [hp.analyze_eq]
    exact hp
  by_cases hjokers : JokersOnly cards
  · exact ⟨_, .jokerBomb hjokers⟩
  by_cases hsmall : cards.length < 4
  · exact exists_reads_small hsmall h
  by_cases hone : (present (plain cards ctx)).length ≤ 1
  · exact ⟨_, .bomb hjokers (by omega) hone⟩
  by_cases h5 : cards.length = 5
  · exact exists_reads_five hjokers h5 (by omega) h
  by_cases h6 : cards.length = 6
  · exact exists_reads_six hjokers h6 (by omega) h
  rw [analyze_of_ranks hjokers (by omega) (by omega), if_neg h5, if_neg h6,
    analyzeStraightFlush_none (fun h => absurd h h5), analyzeStraight,
    analyzeWindow_none _ 1 5 10 (by decide) rfl (fun h => absurd h h5)] at h
  exact absurd h (by decide)

theorem reads_iff {p : CardPattern} :
    Reads cards ctx p ↔ analyze cards ctx = p ∧ p.isValid = true := by
  constructor
  · intro h
    refine ⟨h.analyze_eq, ?_⟩
    cases h <;> rfl
  · rintro ⟨rfl, hvalid⟩
    exact reads_of_valid hvalid

theorem valid_iff_exists_reads : (analyze cards ctx).isValid = true ↔ ∃ p, Reads cards ctx p := by
  constructor
  · exact fun h => ⟨_, reads_of_valid h⟩
  · rintro ⟨p, hp⟩
    obtain ⟨rfl, hvalid⟩ := reads_iff.1 hp
    exact hvalid

/-! ### No pattern -/

theorem firstValid_eq_none {candidates : List CardPattern}
    (h : (firstValid candidates).isValid = false) : firstValid candidates = .none := by
  unfold firstValid at h ⊢
  rcases hfind : candidates.find? (·.isValid) with _ | p
  · rw [hfind, Option.getD_none]
  · rw [hfind, Option.getD_some, List.find?_some hfind] at h
    exact absurd h (by decide)

/-- What is not valid is the empty pattern. -/
theorem analyze_eq_none (h : (analyze cards ctx).isValid = false) : analyze cards ctx = .none := by
  by_cases hjokers : JokersOnly cards
  · rw [analyze_of_jokersOnly hjokers] at h
    cases h
  by_cases hsmall : cards.length < 4
  · rw [analyze_of_small hsmall] at h ⊢
    split_ifs at h ⊢ with h1 h2 h3
    · obtain ⟨card, rfl⟩ := List.length_eq_one_iff.1 h1
      exact absurd h (by simp [analyzeSingle])
    · rw [analyzePair, if_neg (length_groupByRank_ne (by omega)), ← h2, analyzeSameRank_eq] at h ⊢
      split_ifs at h ⊢
      rfl
    · rw [analyzeTriple, ← h3, analyzeSameRank_eq] at h ⊢
      split_ifs at h ⊢
      rfl
    · rfl
  by_cases hone : (present (plain cards ctx)).length ≤ 1
  · rw [analyze_of_oneRank hjokers (by omega) hone] at h
    cases h
  · rw [analyze_of_ranks hjokers (by omega) (by omega)] at h ⊢
    exact firstValid_eq_none h

/-! ### The order of the cards -/

section Order

variable {cards' N N' : List Card} {p : CardPattern}

theorem plain_perm (h : cards.Perm cards') (ctx : RuleContext) :
    (plain cards ctx).Perm (plain cards' ctx) := h.filter _

theorem rankCount_perm (h : N.Perm N') (v : Nat) : rankCount N v = rankCount N' v := h.countP_eq _

theorem present_perm (h : N.Perm N') : present N = present N' := by
  unfold present
  simp only [rankCount_perm h]

theorem JokersOnly.perm (h : JokersOnly cards) (hperm : cards.Perm cards') : JokersOnly cards' :=
  ⟨fun card hcard => h.1 card (hperm.mem_iff.2 hcard), (hperm.countP_eq _) ▸ h.2.1,
    (hperm.countP_eq _) ▸ h.2.2⟩

theorem fitsRun_perm (h : N.Perm N') {need len start : Nat} :
    FitsRun N need len start ↔ FitsRun N' need len start :=
  and_congr_right' (and_congr_right' (h.map _).subperm_right)

theorem LowestRun.perm {need len start : Nat} (h : LowestRun N need len start) (hperm : N.Perm N') :
    LowestRun N' need len start :=
  ⟨(fitsRun_perm hperm).1 h.1, fun s hs hfits => h.2 s hs ((fitsRun_perm hperm).2 hfits)⟩

theorem oneSuit_perm (h : N.Perm N') : OneSuit N ↔ OneSuit N' := by
  simp only [OneSuit, h.mem_iff]

theorem bombRank_perm (h : cards.Perm cards') (ctx : RuleContext) :
    bombRank cards ctx = bombRank cards' ctx := by
  unfold bombRank onlyRank
  rw [h.all_eq, present_perm (plain_perm h ctx)]

theorem Reads.perm (h : Reads cards ctx p) (hperm : cards.Perm cards') : Reads cards' ctx p := by
  have hplain := plain_perm hperm ctx
  have hpresent := present_perm hplain
  have hlen := hperm.length_eq
  have honly : onlyRank (plain cards ctx) ctx = onlyRank (plain cards' ctx) ctx := by
    rw [onlyRank, onlyRank, hpresent]
  have hjokers : ¬ JokersOnly cards → ¬ JokersOnly cards' := fun hno h => hno (h.perm hperm.symm)
  cases h with
  | jokerBomb h =>
    rw [hlen]
    exact .jokerBomb (h.perm hperm)
  | bomb hno h4 hone =>
    rw [hlen, bombRank_perm hperm]
    exact .bomb (hjokers hno) (hlen ▸ h4) (hpresent ▸ hone)
  | single card hcard =>
    subst hcard
    exact .single card (List.singleton_perm.1 hperm).symm
  | pair h2 hone =>
    rw [honly]
    exact .pair (hlen ▸ h2) (hpresent ▸ hone)
  | triple h3 hone =>
    rw [honly]
    exact .triple (hlen ▸ h3) (hpresent ▸ hone)
  | lowTriple r s hno h5 htwo hr hs =>
    rw [rankCount_perm hplain] at hr hs
    exact .lowTriple r s (hjokers hno) (hlen ▸ h5) (hpresent ▸ htwo) hr hs
  | highTriple r s hno h5 htwo hr hs =>
    rw [rankCount_perm hplain] at hr hs
    exact .highTriple r s (hjokers hno) (hlen ▸ h5) (hpresent ▸ htwo) hr hs
  | straightFlush start h5 hmany hsuit hlow =>
    exact .straightFlush start (hlen ▸ h5) (hpresent ▸ hmany) ((oneSuit_perm hplain).1 hsuit)
      (hlow.perm hplain)
  | straight start h5 hmany hsuit hlow =>
    exact .straight start (hlen ▸ h5) (hpresent ▸ hmany)
      (fun h => hsuit ((oneSuit_perm hplain).2 h)) (hlow.perm hplain)
  | threePairs start h6 hmany hlow =>
    exact .threePairs start (hlen ▸ h6) (hpresent ▸ hmany) (hlow.perm hplain)
  | twoTriples start h6 hmany hpairs hlow =>
    exact .twoTriples start (hlen ▸ h6) (hpresent ▸ hmany)
      (fun s h => hpairs s ((fitsRun_perm hplain).2 h)) (hlow.perm hplain)

theorem analyze_perm (hperm : cards.Perm cards') (ctx : RuleContext) :
    analyze cards ctx = analyze cards' ctx := by
  by_cases hvalid : (analyze cards ctx).isValid = true
  · exact ((reads_of_valid hvalid).perm hperm).analyze_eq.symm
  by_cases hvalid' : (analyze cards' ctx).isValid = true
  · exact ((reads_of_valid hvalid').perm hperm.symm).analyze_eq
  · rw [analyze_eq_none (eq_false_of_ne_true hvalid), analyze_eq_none (eq_false_of_ne_true hvalid')]

end Order

/-! ### The ranks of patterns -/

section Ranks

/-- If all cards are wild the level is the rank of one of them. -/
theorem onlyRank_lt (hpos : 0 < cards.length) : onlyRank (plain cards ctx) ctx < 17 := by
  unfold onlyRank
  rcases hpresent : present (plain cards ctx) with _ | ⟨v, vs⟩
  · obtain ⟨card, hcard⟩ := List.exists_mem_of_length_pos hpos
    have hwild : ctx.isWildCard card = true := by
      by_contra hno
      have hmem : rankValue card.rank ∈ present (plain cards ctx) :=
        mem_present.2 ⟨card, by simpa [plain, hcard] using hno, rfl⟩
      rw [hpresent] at hmem
      cases hmem
    have hrank : rankValue card.rank = ctx.rawLevelRankValue := by
      simp [RuleContext.isWildCard] at hwild
      exact hwild.2
    exact hrank ▸ rankValue_lt _
  · have hmem : v ∈ present (plain cards ctx) := hpresent ▸ List.mem_cons_self ..
    obtain ⟨card, -, rfl⟩ := mem_present.1 hmem
    exact rankValue_lt _

theorem patternRankForLevelCard_lt {r : Nat} (h : r < 17) (ctx : RuleContext) :
    patternRankForLevelCard r ctx < 17 := by
  unfold patternRankForLevelCard
  split_ifs
  · decide
  · exact h

theorem Reads.primaryRank_le {p : CardPattern} (h : Reads cards ctx p) :
    p.primaryRank ≤ kBigJokerPatternRank := by
  have hpresent : ∀ r ∈ present (plain cards ctx), patternRankForLevelCard r ctx < 17 := by
    intro r hr
    obtain ⟨card, -, rfl⟩ := mem_present.1 hr
    exact patternRankForLevelCard_lt (rankValue_lt _) ctx
  have honly : 0 < cards.length → patternRankForLevelCard (onlyRank (plain cards ctx) ctx) ctx < 17 :=
    fun hpos => patternRankForLevelCard_lt (onlyRank_lt hpos) ctx
  have hrun : ∀ {need len start}, LowestRun (plain cards ctx) need len start → start + len - 1 ≤ 17 :=
    fun hlow => by have := hlow.1.2.1; omega
  cases h with
  | jokerBomb _ => exact Nat.le_succ 16
  | bomb _ h4 _ =>
    show bombRank cards ctx ≤ 17
    unfold bombRank
    split_ifs
    · decide
    · exact (onlyRank_lt (by omega)).le
  | single card hcard =>
    show singleEffectiveRank card ctx ≤ 17
    have := rankValue_lt card.rank
    unfold singleEffectiveRank kSmallJokerPatternRank kBigJokerPatternRank kLevelCardPatternRank
    split_ifs <;> omega
  | pair h2 _ => exact (honly (by omega)).le
  | triple h3 _ => exact (honly (by omega)).le
  | lowTriple r s _ _ htwo _ _ => exact (hpresent r (by simp [htwo])).le
  | highTriple r s _ _ htwo _ _ => exact (hpresent s (by simp [htwo])).le
  | straightFlush _ _ _ _ hlow => exact hrun hlow
  | straight _ _ _ _ hlow => exact hrun hlow
  | threePairs _ _ _ hlow => exact hrun hlow
  | twoTriples _ _ _ _ hlow => exact hrun hlow

end Ranks

end CardAnalyzer

end Guandan
