import Guandan.Rules.Exact

/-!
# What filled hands are read as

A filled hand holds no wild card, so its pattern is read in a context without them (`noWild`). Every run
and every triple with a pair that the plain cards fit is the reading of some filled hand, and a filled
hand of one rank is read as nothing higher than the hand itself.
-/

namespace Guandan

namespace CardAnalyzer

/-- The context in which a filled hand is read. -/
def noWild (ctx : RuleContext) : RuleContext := { ctx with enableWildCard := false }

variable {cards filled : List Card} {ctx : RuleContext} {N : List Card} {need len start : Nat}

theorem plain_noWild (cards : List Card) (ctx : RuleContext) : plain cards (noWild ctx) = cards := by
  rw [plain, List.filter_eq_self]
  intro card _
  rfl

/-! ### The plain cards of a filled hand -/

theorem Filled.subperm (h : Filled ctx cards filled) :
    (ranks (plain cards ctx)).Subperm (ranks filled) := by
  obtain ⟨fill, -, -, hperm⟩ := Filling.Fills.perm h
  have hranks := hperm.symm.map (·.rank)
  rw [List.map_append] at hranks
  exact (List.sublist_append_left _ _).subperm.trans hranks.subperm

theorem Filled.mem (h : Filled ctx cards filled) {card : Card} (hcard : card ∈ plain cards ctx) :
    card ∈ filled := by
  obtain ⟨fill, -, -, hperm⟩ := Filling.Fills.perm h
  exact hperm.symm.subset (List.mem_append_left _ hcard)

theorem Filled.fits (h : Filled ctx cards filled) (hfits : FitsRun filled need len start) :
    FitsRun (plain cards ctx) need len start :=
  ⟨hfits.1, hfits.2.1, h.subperm.trans hfits.2.2⟩

theorem Filled.length_present_le (h : Filled ctx cards filled) :
    (present (plain cards ctx)).length ≤ (present filled).length := by
  refine ((nodup_present _).subperm fun v hv => ?_).length_le
  obtain ⟨card, hcard, rfl⟩ := mem_present.1 hv
  exact mem_present.2 ⟨card, h.mem hcard, rfl⟩

/-- The plain cards are of one suit, which wild cards can stand for. -/
def FlushSuit (N : List Card) : Prop := ∃ suit, suit ≠ .joker ∧ ∀ card ∈ N, card.suit = suit

/-! ### Every reading there is -/

theorem Filled.of_suit {suit : Suit}
    (h : Filling.Fills ctx.isWildCard (fun card => CanStandFor card ∧ card.suit = suit) cards filled) :
    Filled ctx cards filled := by
  refine List.Forall₂.imp (fun card other hother => ?_) h
  split_ifs at hother ⊢ with hwild
  · exact hother.1
  · exact hother

theorem spade_ne_joker : Suit.spade ≠ .joker := by decide

/-- A run the plain cards fit can be filled with cards of one suit. -/
theorem exists_filled_of_fits (need len : Nat) {suit : Suit} (hsuit : suit ≠ .joker)
    (hlen : cards.length = len * need) (hfits : FitsRun (plain cards ctx) need len start) :
    ∃ filled, Filled ctx cards filled ∧ (ranks filled).Perm (runTarget need len start) ∧
      ((∀ card ∈ plain cards ctx, card.suit = suit) → ∀ card ∈ filled, card.suit = suit) := by
  have hnone : ∀ r, (∀ card : Card, CanStandFor card ∧ card.suit = suit → card.rank ≠ r) →
      (ranks (plain cards ctx)).count r = (runTarget need len start).count r := by
    intro r hr
    have hjoker : isJoker r = true := by
      by_contra hjoker
      exact hr (makeCard 0 suit r) ⟨⟨hsuit, Bool.eq_false_of_not_eq_true hjoker⟩, rfl⟩ rfl
    have htarget : (runTarget need len start).count r = 0 := by
      rw [List.count_eq_zero]
      intro hmem
      rw [not_joker_of_mem_runTarget hmem] at hjoker
      exact Bool.false_ne_true hjoker
    have := hfits.2.2.count_le r
    omega
  obtain ⟨filled, hfills, hperm⟩ := Filling.exists_filled_iff.2
    ⟨hlen.trans (length_runTarget need len start).symm, hfits.2.2, hnone⟩
  refine ⟨filled, .of_suit hfills, hperm, fun hplain card hcard => ?_⟩
  obtain ⟨fill, -, hok, hsplit⟩ := hfills.perm
  rcases List.mem_append.1 (hsplit.subset hcard) with hmem | hmem
  · exact hplain card hmem
  · exact (hok card hmem).2

theorem exists_straightFlush (h5 : cards.length = 5) (hsuit : FlushSuit (plain cards ctx))
    (hfits : FitsRun (plain cards ctx) 1 5 start) :
    ∃ filled, Filled ctx cards filled ∧
      analyze filled (noWild ctx) = runPattern .straightFlush 5 start := by
  obtain ⟨suit, hne, hsuit⟩ := hsuit
  obtain ⟨filled, hfilled, hperm, hflush⟩ := exists_filled_of_fits 1 5 hne h5 hfits
  refine ⟨filled, hfilled, ?_⟩
  refine ((reads_five (plain_noWild filled ctx) hfits.1 hfits.2.1 hperm).1
    fun card hcard other hother => ?_).analyze_eq
  rw [hflush hsuit card hcard, hflush hsuit other hother]

/-- The straight may come out as a straight flush. -/
theorem exists_straight (h5 : cards.length = 5) (hfits : FitsRun (plain cards ctx) 1 5 start) :
    ∃ filled, Filled ctx cards filled ∧
      (analyze filled (noWild ctx) = runPattern .straightFlush 5 start ∨
        analyze filled (noWild ctx) = runPattern .straight 5 start) := by
  obtain ⟨filled, hfilled, hperm, -⟩ :=
    exists_filled_of_fits 1 5 spade_ne_joker h5 hfits
  obtain ⟨hflush, hstraight⟩ := reads_five (plain_noWild filled ctx) hfits.1 hfits.2.1 hperm
  refine ⟨filled, hfilled, ?_⟩
  by_cases hsuit : OneSuit filled
  · exact .inl (hflush hsuit).analyze_eq
  · exact .inr (hstraight hsuit).analyze_eq

theorem exists_threePairs (h6 : cards.length = 6) (hfits : FitsRun (plain cards ctx) 2 3 start) :
    ∃ filled, Filled ctx cards filled ∧
      analyze filled (noWild ctx) = runPattern .threePairs 3 start := by
  obtain ⟨filled, hfilled, hperm, -⟩ :=
    exists_filled_of_fits 2 3 spade_ne_joker h6 hfits
  exact ⟨filled, hfilled,
    (reads_threePairs (plain_noWild filled ctx) hfits.1 hfits.2.1 hperm).analyze_eq⟩

theorem exists_twoTriples (h6 : cards.length = 6) (hfits : FitsRun (plain cards ctx) 3 2 start) :
    ∃ filled, Filled ctx cards filled ∧
      analyze filled (noWild ctx) = runPattern .twoTriples 2 start := by
  obtain ⟨filled, hfilled, hperm, -⟩ :=
    exists_filled_of_fits 3 2 spade_ne_joker h6 hfits
  exact ⟨filled, hfilled,
    (reads_twoTriples (plain_noWild filled ctx) hfits.1 hfits.2.1 hperm).analyze_eq⟩

theorem exists_tripleWithPair {t u : Rank} (h5 : cards.length = 5)
    (hfits : FitsTriple (plain cards ctx) t u) (hjokers : isJoker t = false ∨ isJoker u = false) :
    ∃ filled, Filled ctx cards filled ∧
      analyze filled (noWild ctx) = triplePattern (rankValue t) (rankValue u) ctx := by
  obtain ⟨filled, hfilled, hperm⟩ := (exists_filled_triple hfits.ne).2 ⟨h5, hfits⟩
  refine ⟨filled, hfilled, ?_⟩
  refine (reads_tripleWithPair (plain_noWild filled ctx) hfits.ne hperm fun honly => ?_).analyze_eq
  have hmem : ∀ r ∈ [t, t, t, u, u], isJoker r = true := by
    intro r hr
    obtain ⟨card, hcard, rfl⟩ := List.mem_map.1 (hperm.symm.subset hr)
    exact honly.1 card hcard
  rcases hjokers with hjoker | hjoker
  · rw [hmem t (by simp)] at hjoker
    exact absurd hjoker (by decide)
  · rw [hmem u (by simp)] at hjoker
    exact absurd hjoker (by decide)

/-! ### What a filled hand is read as -/

theorem Filled.fitsTriple (h : Filled ctx cards filled) {r s : Nat} (h5 : filled.length = 5)
    (htwo : present filled = [r, s]) :
    (rankCount filled r ≤ 3 → rankCount filled s ≤ 2 →
      ∃ t u, FitsTriple (plain cards ctx) t u ∧ rankValue t = r ∧ rankValue u = s) ∧
    (rankCount filled r ≤ 2 → rankCount filled s = 3 →
      ∃ t u, FitsTriple (plain cards ctx) t u ∧ rankValue t = s ∧ rankValue u = r) := by
  obtain ⟨t, u, hne, rfl, rfl, hmem⟩ := exists_two_ranks htwo
  have hsum := count_add_count hne hmem
  rw [← count_ranks, ← count_ranks]
  refine ⟨fun h3 h2 => ?_, fun h2 h3 => ?_⟩
  · have hperm := (perm_triplePair_iff hne).2 ⟨hmem, by omega, by omega⟩
    exact ⟨t, u, ((exists_filled_triple hne).1 ⟨filled, h, hperm⟩).2, rfl, rfl⟩
  · have hperm := (perm_triplePair_iff hne.symm).2
      ⟨fun card hcard => (hmem card hcard).symm, h3, by omega⟩
    exact ⟨u, t, ((exists_filled_triple hne.symm).1 ⟨filled, h, hperm⟩).2, rfl, rfl⟩

theorem rankValue_le_of_not_joker {r : Rank} (h : isJoker r = false) : rankValue r ≤ 14 := by
  cases r <;> first | decide | cases h

theorem patternRank_le {r : Rank} (h : isJoker r = false) (ctx : RuleContext) :
    patternRankForLevelCard (rankValue r) ctx ≤ kLevelCardPatternRank := by
  have := rankValue_le_of_not_joker h
  unfold patternRankForLevelCard kLevelCardPatternRank
  split_ifs <;> omega

theorem Filled.not_joker (h : Filled ctx cards filled) (hplain : plain cards ctx = []) {card : Card}
    (hcard : card ∈ filled) : isJoker card.rank = false := by
  obtain ⟨fill, -, hok, hperm⟩ := Filling.Fills.perm h
  have hmem := hperm.subset hcard
  change card ∈ plain cards ctx ++ fill at hmem
  rw [hplain] at hmem
  exact (hok card hmem).2

/-- A filled hand of one rank is read as no higher rank than the hand itself: of the plain cards' rank, or
of the level if all cards are wild. -/
theorem Filled.patternRank_le (h : Filled ctx cards filled) (hpos : 0 < cards.length)
    (hone : (present filled).length ≤ 1) :
    patternRankForLevelCard (onlyRank filled (noWild ctx)) (noWild ctx) ≤
      patternRankForLevelCard (onlyRank (plain cards ctx) ctx) ctx := by
  have hone' := h.length_present_le.trans hone
  rcases hplain : plain cards ctx with _ | ⟨card, rest⟩
  · obtain ⟨card, hcard⟩ := List.exists_mem_of_length_pos (h.length_eq ▸ hpos)
    rw [onlyRank_eq hone hcard]
    have hlevel : patternRankForLevelCard (onlyRank [] ctx) ctx = kLevelCardPatternRank := if_pos rfl
    rw [hlevel]
    exact CardAnalyzer.patternRank_le (h.not_joker hplain hcard) (noWild ctx)
  · have hcard : card ∈ plain cards ctx := hplain ▸ List.mem_cons_self ..
    rw [← hplain, onlyRank_eq hone (h.mem hcard), onlyRank_eq hone' hcard]
    exact le_rfl

theorem bombRank_le_of_not_joker (hone : (present N).length ≤ 1) {card : Card} (hcard : card ∈ N)
    (hjoker : isJoker card.rank = false) : bombRank N (noWild ctx) ≤ kLevelCardPatternRank := by
  have := rankValue_le_of_not_joker hjoker
  unfold bombRank
  rw [plain_noWild, onlyRank_eq hone hcard]
  unfold kLevelCardPatternRank
  split_ifs <;> omega

theorem le_bombRank_of_allWild (h : plain cards ctx = []) :
    kLevelCardPatternRank ≤ bombRank cards ctx := by
  unfold bombRank
  split_ifs with hlevel
  · exact le_rfl
  · -- the wild cards are of the level, so only a joker among them is not a level card
    rw [h]
    change kLevelCardPatternRank ≤ ctx.rawLevelRankValue
    obtain ⟨card, hcard, hnot⟩ : ∃ card ∈ cards, ctx.isLevelCard card = false := by
      simpa using hlevel
    have hwild : ctx.isWildCard card = true := by
      have hnone : card ∉ plain cards ctx := h ▸ List.not_mem_nil
      simpa [plain, hcard] using hnone
    have hrank : rankValue card.rank = ctx.rawLevelRankValue := by
      simp [RuleContext.isWildCard] at hwild
      exact hwild.2
    have hjoker : isJoker card.rank = true := by simpa [RuleContext.isLevelCard, hrank] using hnot
    rw [isJoker_iff, hrank] at hjoker
    exact hjoker

theorem Filled.bombRank_le (h : Filled ctx cards filled) (hpos : 0 < cards.length)
    (hone : (present filled).length ≤ 1) :
    bombRank filled (noWild ctx) ≤ bombRank cards ctx := by
  have hone' := h.length_present_le.trans hone
  rcases hplain : plain cards ctx with _ | ⟨card, rest⟩
  · obtain ⟨card, hcard⟩ := List.exists_mem_of_length_pos (h.length_eq ▸ hpos)
    exact (bombRank_le_of_not_joker hone hcard (h.not_joker hplain hcard)).trans
      (le_bombRank_of_allWild hplain)
  · have hcard : card ∈ plain cards ctx := hplain ▸ List.mem_cons_self ..
    have hmem : card ∈ cards := List.mem_of_mem_filter hcard
    by_cases hlevel : ctx.isLevelCard card = true
    · -- then every card is a level card, the wild ones as well
      have hjoker : isJoker card.rank = false ∧ rankValue card.rank = ctx.rawLevelRankValue := by
        simpa [RuleContext.isLevelCard] using hlevel
      have hall : cards.all ctx.isLevelCard = true := by
        rw [List.all_eq_true]
        intro other hother
        have hrank : other.rank = card.rank := by
          by_cases hwild : ctx.isWildCard other = true
          · simp [RuleContext.isWildCard] at hwild
            exact rankValue_injective (hwild.2.trans hjoker.2.symm)
          · exact rank_eq_of_oneRank hone'
              (List.mem_filter.2 ⟨hother, by simpa using hwild⟩) hcard
        simpa [RuleContext.isLevelCard, hrank] using hjoker
      have hbomb : bombRank cards ctx = kLevelCardPatternRank := if_pos hall
      rw [hbomb]
      exact bombRank_le_of_not_joker hone (h.mem hcard) hjoker.1
    · have hfilled : filled.all (noWild ctx).isLevelCard = false := by
        rw [List.all_eq_false]
        exact ⟨card, h.mem hcard, hlevel⟩
      have hcards : cards.all ctx.isLevelCard = false := by
        rw [List.all_eq_false]
        exact ⟨card, hmem, hlevel⟩
      rw [bombRank, bombRank, hfilled, hcards, plain_noWild, onlyRank_eq hone (h.mem hcard),
        onlyRank_eq hone' hcard]

end CardAnalyzer

end Guandan
