import Guandan.Rules.Comparing
import Guandan.Rules.FilledHands

/-!
# The reading that is taken and the readings there are

A hand with wild cards can be filled in many ways, and `analyze` settles on one reading without looking at
the table: a bomb before anything else, a triple with a pair before a straight flush, the lower rank as
the triple, the lowest window of a run. `NothingMissed` says, type by type of the pattern to beat, when
none of the other readings would have beaten it (`legal_beat`).
-/

namespace Guandan

namespace CardAnalyzer

variable {cards filled : List Card} {ctx : RuleContext} {N : List Card} {need len start : Nat}

/-! ### When nothing is missed -/

def RunsBelow (N : List Card) (need len rank : Nat) : Prop :=
  ∀ start, FitsRun N need len start → start + len - 1 ≤ rank

def RunsAbove (N : List Card) (need len rank : Nat) : Prop :=
  ∀ start, FitsRun N need len start → rank < start + len - 1

/-- A straight flush with two plain cards: it is read as a triple with a pair. -/
def FlushOfTwo (cards : List Card) (ctx : RuleContext) : Prop :=
  cards.length = 5 ∧ (present (plain cards ctx)).length = 2 ∧ FlushSuit (plain cards ctx) ∧
    ∃ start, FitsRun (plain cards ctx) 1 5 start

/-- The triple `r` with the pair `s` is higher than `p`. -/
def TripleOver (r s : Nat) (p : CardPattern) (ctx : RuleContext) : Prop :=
  p.primaryRank < patternRankForLevelCard r ctx ∨
    p.primaryRank = patternRankForLevelCard r ctx ∧ p.pairRank < s

/-- No other reading of the hand would beat `p` where the one that is taken does not. -/
def NothingMissed (cards : List Card) (ctx : RuleContext) (p : CardPattern) : Prop :=
  match p.type with
  | .invalid | .jokerBomb => True
  | .single | .pair | .triple => ¬ FlushOfTwo cards ctx
  | .tripleWithPair => ∀ r s, cards.length = 5 → present (plain cards ctx) = [r, s] →
      FlushOfTwo cards ctx ∨ (rankCount (plain cards ctx) r ≤ 2 ∧ rankCount (plain cards ctx) s ≤ 2 ∧
        s < rankValue .smallJoker ∧ TripleOver s r p ctx) → TripleOver r s p ctx
  | .straight => cards.length = 5 →
      ((present (plain cards ctx)).length = 2 →
        ¬ FlushOfTwo cards ctx ∧ RunsBelow (plain cards ctx) 1 5 p.primaryRank) ∧
      (2 < (present (plain cards ctx)).length → OneSuit (plain cards ctx) ∨
        RunsBelow (plain cards ctx) 1 5 p.primaryRank ∨ RunsAbove (plain cards ctx) 1 5 p.primaryRank)
  | .threePairs => ¬ FlushOfTwo cards ctx ∧
      (cards.length = 6 → 1 < (present (plain cards ctx)).length →
        RunsBelow (plain cards ctx) 2 3 p.primaryRank ∨ RunsAbove (plain cards ctx) 2 3 p.primaryRank)
  | .twoTriples => ¬ FlushOfTwo cards ctx ∧
      (cards.length = 6 → 1 < (present (plain cards ctx)).length →
        RunsBelow (plain cards ctx) 3 2 p.primaryRank ∨
          RunsAbove (plain cards ctx) 3 2 p.primaryRank ∧
            ∀ start, ¬ FitsRun (plain cards ctx) 2 3 start)
  | .straightFlush => cards.length = 5 → FlushSuit (plain cards ctx) →
      RunsBelow (plain cards ctx) 1 5 p.primaryRank ∨
        2 < (present (plain cards ctx)).length ∧ RunsAbove (plain cards ctx) 1 5 p.primaryRank
  | .bomb => cards.length = 5 → FlushSuit (plain cards ctx) →
      (∃ start, FitsRun (plain cards ctx) 1 5 start) →
        ((present (plain cards ctx)).length ≤ 1 → p.length = 5 → p.primaryRank < bombRank cards ctx) ∧
        ((present (plain cards ctx)).length = 2 → 5 < p.length)

/-! ### What a run is read as -/

/-- Five cards that can be a straight, by the number of ranks among the plain ones. -/
theorem analyze_of_run (h5 : cards.length = 5) (hfits : FitsRun (plain cards ctx) 1 5 start) :
    ((present (plain cards ctx)).length ≤ 1 ∧
        analyze cards ctx = ⟨.bomb, bombRank cards ctx, 5, 0, true⟩) ∨
      (∃ r s, present (plain cards ctx) = [r, s] ∧ analyze cards ctx = triplePattern r s ctx) ∨
      (2 < (present (plain cards ctx)).length ∧ ∃ low, LowestRun (plain cards ctx) 1 5 low ∧
        (OneSuit (plain cards ctx) ∧ analyze cards ctx = runPattern .straightFlush 5 low ∨
          ¬ OneSuit (plain cards ctx) ∧ analyze cards ctx = runPattern .straight 5 low)) := by
  have hjokers : ¬ JokersOnly cards := fun h => h.not_fits hfits
  by_cases hone : (present (plain cards ctx)).length ≤ 1
  · exact .inl ⟨hone, h5 ▸ (Reads.bomb hjokers (by omega) hone).analyze_eq⟩
  by_cases hmany : 2 < (present (plain cards ctx)).length
  · obtain ⟨low, hlow⟩ := exists_lowestRun hfits
    refine .inr (.inr ⟨hmany, low, hlow, ?_⟩)
    by_cases hsuit : OneSuit (plain cards ctx)
    · exact .inl ⟨hsuit, (Reads.straightFlush low h5 hmany hsuit hlow).analyze_eq⟩
    · exact .inr ⟨hsuit, (Reads.straight low h5 hmany hsuit hlow).analyze_eq⟩
  · obtain ⟨r, s, htwo⟩ := List.length_eq_two.1 (show (present (plain cards ctx)).length = 2 by omega)
    have hle : ∀ v, rankCount (plain cards ctx) v ≤ 1 := fun v => hfits.rankCount_le (by decide)
    have hr := hle r
    have hs := hle s
    exact .inr (.inl ⟨r, s, htwo,
      (Reads.lowTriple r s hjokers h5 htwo (by omega) (by omega)).analyze_eq⟩)

theorem FlushSuit.oneSuit (h : FlushSuit N) : OneSuit N := by
  obtain ⟨suit, -, hsuit⟩ := h
  intro a ha b hb
  rw [hsuit a ha, hsuit b hb]

/-! ### Nothing is missed -/

section

open RuleEngine

variable {p prev : CardPattern}

/-- A hand of one rank is read as a pattern that is not lower. -/
theorem beats_of_oneRank (hprev : prev.isValid = true) (hbeats : canBeat p prev ctx = true)
    {q : CardPattern} (hreads : Reads cards ctx q) (htype : q.type = p.type)
    (hlength : q.length = p.length) (hrank : p.primaryRank ≤ q.primaryRank)
    (hpair : q.pairRank = p.pairRank) :
    canBeat (analyze cards ctx) prev ctx = true := by
  obtain ⟨rfl, hvalid⟩ := reads_iff.1 hreads
  exact canBeat_of_le hvalid hprev htype hlength hrank hpair hbeats

/-- A bomb beats every pattern that is none. -/
theorem beats_of_bomb (hprev : prev.isValid = true) (hordinary : Ordinary prev.type)
    (hjokers : ¬ JokersOnly cards) (h4 : 4 ≤ cards.length)
    (hone : (present (plain cards ctx)).length ≤ 1) :
    canBeat (analyze cards ctx) prev ctx = true := by
  rw [(Reads.bomb hjokers h4 hone).analyze_eq, canBeat_bomb rfl hprev rfl]
  exact ⟨hordinary.1, fun htype => absurd htype hordinary.2.1, fun htype => absurd htype hordinary.2.2⟩

theorem beats_of_triple (hcond : NothingMissed cards ctx prev) (hprev : prev.isValid = true)
    (hjokers : ¬ JokersOnly cards) (h5 : cards.length = 5) {t u : Rank}
    (hfits : FitsTriple (plain cards ctx) t u)
    (hbeats : canBeat (triplePattern (rankValue t) (rankValue u) ctx) prev ctx = true) :
    canBeat (analyze cards ctx) prev ctx = true := by
  have htriple := count_ranks _ t ▸ hfits.triple
  have hpair := count_ranks _ u ▸ hfits.pair
  obtain ⟨htype, hover⟩ := (canBeat_tripleWithPair rfl hprev rfl).1 hbeats
  by_cases hone : (present (plain cards ctx)).length ≤ 1
  · exact beats_of_bomb hprev (by simp [Ordinary, htype]) hjokers (by omega) hone
  rcases hfits.present_eq (Nat.lt_of_not_le hone) with hpresent | hpresent
  · rw [(Reads.lowTriple _ _ hjokers h5 hpresent htriple hpair).analyze_eq]
    exact hbeats
  by_cases hlow : rankCount (plain cards ctx) (rankValue t) ≤ 2
  · -- both ranks could be the triple, and the lower one is taken
    rw [(Reads.lowTriple _ _ hjokers h5 hpresent (by omega) hlow).analyze_eq,
      canBeat_tripleWithPair rfl hprev rfl]
    simp only [NothingMissed, htype] at hcond
    refine ⟨htype, hcond _ _ h5 hpresent (.inr ⟨hpair, hlow, ?_, hover⟩)⟩
    rw [← Nat.not_le]
    intro hjoker
    have := hfits.jokerTriple ((isJoker_iff t).2 hjoker)
    rw [count_ranks] at this
    omega
  · rw [(Reads.highTriple _ _ hjokers h5 hpresent hpair (by omega)).analyze_eq]
    exact hbeats

theorem beats_of_straightFlush (hcond : NothingMissed cards ctx prev) (hprev : prev.isValid = true)
    (hknown : prev.type ≠ .invalid) (h5 : cards.length = 5) (hsuit : FlushSuit (plain cards ctx))
    (hfits : FitsRun (plain cards ctx) 1 5 start)
    (hbeats : canBeat (runPattern .straightFlush 5 start) prev ctx = true) :
    canBeat (analyze cards ctx) prev ctx = true := by
  obtain ⟨hnotJoker, hsmall, hhigher⟩ := (canBeat_straightFlush rfl hprev rfl).1 hbeats
  -- a straight flush on the table is beaten by this run, so not all runs are below it
  have habove : prev.type = .straightFlush → 2 < (present (plain cards ctx)).length ∧
      RunsAbove (plain cards ctx) 1 5 prev.primaryRank := by
    intro htype
    simp only [NothingMissed, htype] at hcond
    refine (hcond h5 hsuit).resolve_left fun hbelow => ?_
    have := hbelow start hfits
    have := (hhigher htype).2
    simp only [runPattern] at this
    omega
  have hbomb : prev.type = .bomb →
      ((present (plain cards ctx)).length ≤ 1 → prev.length = 5 → prev.primaryRank < bombRank cards ctx) ∧
        ((present (plain cards ctx)).length = 2 → 5 < prev.length) := by
    intro htype
    simp only [NothingMissed, htype] at hcond
    exact hcond h5 hsuit ⟨start, hfits⟩
  rcases analyze_of_run h5 hfits with ⟨hone, heq⟩ | ⟨r, s, htwo, heq⟩ | ⟨hmany, low, hlow, hread⟩
  · rw [heq, canBeat_bomb rfl hprev rfl]
    refine ⟨hnotJoker, fun htype => ?_, fun htype => ?_⟩
    · have := (habove htype).1
      omega
    · have := hsmall htype
      have := (hbomb htype).1 hone
      dsimp only
      omega
  · have hlen : (present (plain cards ctx)).length = 2 := by rw [htwo]; rfl
    have hflush : FlushOfTwo cards ctx := ⟨h5, hlen, hsuit, start, hfits⟩
    rw [heq, canBeat_tripleWithPair rfl hprev rfl]
    cases htype : prev.type with
    | invalid => exact absurd htype hknown
    | jokerBomb => exact absurd htype hnotJoker
    | single | pair | triple =>
      simp only [NothingMissed, htype] at hcond
      exact absurd hflush hcond
    | threePairs | twoTriples =>
      simp only [NothingMissed, htype] at hcond
      exact absurd hflush hcond.1
    | straight =>
      simp only [NothingMissed, htype] at hcond
      exact absurd hflush ((hcond h5).1 hlen).1
    | tripleWithPair =>
      simp only [NothingMissed, htype] at hcond
      exact ⟨rfl, hcond r s h5 htwo (.inl hflush)⟩
    | straightFlush =>
      have := (habove htype).1
      omega
    | bomb =>
      have := (hbomb htype).2 hlen
      have := hsmall htype
      omega
  · rcases hread with ⟨-, heq⟩ | ⟨hnot, -⟩
    · rw [heq, canBeat_straightFlush rfl hprev rfl]
      exact ⟨hnotJoker, hsmall, fun htype => ⟨(hhigher htype).1, (habove htype).2 low hlow.1⟩⟩
    · exact absurd hsuit.oneSuit hnot

theorem beats_of_straight (hcond : NothingMissed cards ctx prev) (hprev : prev.isValid = true)
    (h5 : cards.length = 5) (hfits : FitsRun (plain cards ctx) 1 5 start)
    (hbeats : canBeat (runPattern .straight 5 start) prev ctx = true) :
    canBeat (analyze cards ctx) prev ctx = true := by
  obtain ⟨htype, hlength, hhigher⟩ := (canBeat_run hprev (by simp)).1 hbeats
  simp only [NothingMissed, htype] at hcond
  have hnotBelow : ¬ RunsBelow (plain cards ctx) 1 5 prev.primaryRank := by
    intro hbelow
    have := hbelow start hfits
    omega
  rcases analyze_of_run h5 hfits with ⟨hone, -⟩ | ⟨r, s, htwo, heq⟩ | ⟨hmany, low, hlow, hread⟩
  · exact beats_of_bomb hprev (by simp [Ordinary, htype]) (fun h => h.not_fits hfits) (by omega) hone
  · exact absurd ((hcond h5).1 (by rw [htwo]; rfl)).2 hnotBelow
  · rcases hread with ⟨-, heq⟩ | ⟨hnot, heq⟩
    · rw [heq, canBeat_straightFlush rfl hprev rfl, htype]
      exact ⟨nofun, nofun, nofun⟩
    · have habove := ((((hcond h5).2 hmany).resolve_left hnot).resolve_left hnotBelow) low hlow.1
      rw [heq, canBeat_run hprev (by simp)]
      exact ⟨htype, hlength, habove⟩

theorem beats_of_threePairs (hcond : NothingMissed cards ctx prev) (hprev : prev.isValid = true)
    (hjokers : ¬ JokersOnly cards) (h6 : cards.length = 6)
    (hfits : FitsRun (plain cards ctx) 2 3 start)
    (hbeats : canBeat (runPattern .threePairs 3 start) prev ctx = true) :
    canBeat (analyze cards ctx) prev ctx = true := by
  obtain ⟨htype, hlength, hhigher⟩ := (canBeat_run hprev (by simp)).1 hbeats
  simp only [NothingMissed, htype] at hcond
  by_cases hone : (present (plain cards ctx)).length ≤ 1
  · exact beats_of_bomb hprev (by simp [Ordinary, htype]) hjokers (by omega) hone
  obtain ⟨low, hlow⟩ := exists_lowestRun hfits
  have habove := (hcond.2 h6 (by omega)).resolve_left fun hbelow => by
    have := hbelow start hfits
    omega
  rw [(Reads.threePairs low h6 (by omega) hlow).analyze_eq,
    canBeat_run hprev (by simp)]
  exact ⟨htype, hlength, habove low hlow.1⟩

theorem beats_of_twoTriples (hcond : NothingMissed cards ctx prev) (hprev : prev.isValid = true)
    (hjokers : ¬ JokersOnly cards) (h6 : cards.length = 6)
    (hfits : FitsRun (plain cards ctx) 3 2 start)
    (hbeats : canBeat (runPattern .twoTriples 2 start) prev ctx = true) :
    canBeat (analyze cards ctx) prev ctx = true := by
  obtain ⟨htype, hlength, hhigher⟩ := (canBeat_run hprev (by simp)).1 hbeats
  simp only [NothingMissed, htype] at hcond
  by_cases hone : (present (plain cards ctx)).length ≤ 1
  · exact beats_of_bomb hprev (by simp [Ordinary, htype]) hjokers (by omega) hone
  obtain ⟨low, hlow⟩ := exists_lowestRun hfits
  obtain ⟨habove, hpairs⟩ := (hcond.2 h6 (by omega)).resolve_left fun hbelow => by
    have := hbelow start hfits
    omega
  rw [(Reads.twoTriples low h6 (by omega) hpairs hlow).analyze_eq,
    canBeat_run hprev (by simp)]
  exact ⟨htype, hlength, habove low hlow.1⟩

/-- The cards filled in are of the suit of the others. -/
theorem Filled.flushSuit (h : Filled ctx cards filled) (hwild : 0 < cards.countP ctx.isWildCard)
    (hsuit : OneSuit filled) : FlushSuit (plain cards ctx) := by
  obtain ⟨fill, hlen, hok, hperm⟩ := Filling.Fills.perm h
  obtain ⟨card, hcard⟩ := List.exists_mem_of_length_pos (hlen ▸ hwild)
  refine ⟨card.suit, (hok card hcard).1, fun other hother => ?_⟩
  exact hsuit other (h.mem hother) card (hperm.symm.subset (List.mem_append_right _ hcard))

theorem singleEffectiveRank_le {card wild : Card} (hcard : isJoker card.rank = false)
    (hwild : ctx.isWildCard wild = true) :
    singleEffectiveRank card (noWild ctx) ≤ singleEffectiveRank wild ctx := by
  have hlevel : rankValue wild.rank = ctx.rawLevelRankValue := by
    simp only [RuleContext.isWildCard, Bool.and_eq_true, beq_iff_eq] at hwild
    exact hwild.2
  have hle := rankValue_le_of_not_joker hcard
  have hlow : singleEffectiveRank card (noWild ctx) ≤ kLevelCardPatternRank := by
    have hsmall : card.rank ≠ .smallJoker := fun h => by simp [isJoker, h] at hcard
    have hbig : card.rank ≠ .bigJoker := fun h => by simp [isJoker, h] at hcard
    unfold singleEffectiveRank kLevelCardPatternRank
    rw [if_neg hsmall, if_neg hbig]
    split_ifs <;> omega
  refine hlow.trans ?_
  unfold singleEffectiveRank
  split_ifs with hsmall hbig hislevel
  · decide
  · decide
  · exact le_rfl
  · exact absurd (by simp [RuleContext.isLevelCard, isJoker, hsmall, hbig, hlevel]) hislevel

/-- The reading that is taken beats what some reading of the hand with a wild card does. -/
theorem beats_of_reads (hcond : NothingMissed cards ctx prev) (hprev : prev.isValid = true)
    (hknown : prev.type ≠ .invalid) (hfilled : Filled ctx cards filled)
    (hwild : 0 < cards.countP ctx.isWildCard) (hreads : Reads filled (noWild ctx) p)
    (hbeats : canBeat p prev ctx = true) : canBeat (analyze cards ctx) prev ctx = true := by
  have hlen := hfilled.length_eq
  have hplain := plain_noWild filled ctx
  have hnotJokers : ¬ JokersOnly filled := by
    intro h
    have := (exists_filled_jokersOnly.1 ⟨filled, hfilled, h⟩).1
    omega
  by_cases hjokers : JokersOnly cards
  · rw [analyze_of_jokersOnly hjokers, canBeat_jokerBomb rfl hprev rfl]
    have hne : p.type ≠ .jokerBomb := by
      cases hreads with
      | jokerBomb h => exact absurd h hnotJokers
      | _ => exact nofun
    exact fun htype => absurd htype (prev_ne_jokerBomb (reads_iff.1 hreads).2 hprev hne hbeats)
  cases hreads with
  | jokerBomb h => exact absurd h hnotJokers
  | bomb _ h4 hone =>
    rw [hplain] at hone
    exact beats_of_oneRank hprev hbeats
      (.bomb hjokers (by omega) (hfilled.length_present_le.trans hone)) rfl hlen.symm
      (hfilled.bombRank_le (by omega) hone) rfl
  | single card hcard =>
    subst hcard
    obtain ⟨wild, rfl⟩ := List.length_eq_one_iff.1 hlen.symm
    obtain ⟨other, hother, hiswild⟩ := List.countP_pos_iff.1 hwild
    rw [List.mem_singleton.1 hother] at hiswild
    have hnone : plain [wild] ctx = [] := by simp [plain, hiswild]
    exact beats_of_oneRank hprev hbeats (.single wild rfl) rfl rfl
      (singleEffectiveRank_le (hfilled.not_joker hnone (List.mem_singleton_self _)) hiswild) rfl
  | pair h2 hone =>
    rw [hplain] at hone hbeats
    exact beats_of_oneRank hprev hbeats (.pair (by omega) (hfilled.length_present_le.trans hone)) rfl rfl
      (hfilled.patternRank_le (by omega) hone) rfl
  | triple h3 hone =>
    rw [hplain] at hone hbeats
    exact beats_of_oneRank hprev hbeats
      (.triple (by omega) (hfilled.length_present_le.trans hone)) rfl rfl
      (hfilled.patternRank_le (by omega) hone) rfl
  | lowTriple r s _ h5 htwo hr hs =>
    rw [hplain] at htwo hr hs
    obtain ⟨t, u, hfits, rfl, rfl⟩ := (hfilled.fitsTriple h5 htwo).1 hr hs
    exact beats_of_triple hcond hprev hjokers (by omega) hfits hbeats
  | highTriple r s _ h5 htwo hr hs =>
    rw [hplain] at htwo hr hs
    obtain ⟨t, u, hfits, rfl, rfl⟩ := (hfilled.fitsTriple h5 htwo).2 hr hs
    exact beats_of_triple hcond hprev hjokers (by omega) hfits hbeats
  | straightFlush start h5 _ hsuit hlow =>
    rw [hplain] at hsuit hlow
    exact beats_of_straightFlush hcond hprev hknown (by omega) (hfilled.flushSuit hwild hsuit)
      (hfilled.fits hlow.1) hbeats
  | straight start h5 _ _ hlow =>
    rw [hplain] at hlow
    exact beats_of_straight hcond hprev (by omega) (hfilled.fits hlow.1) hbeats
  | threePairs start h6 _ hlow =>
    rw [hplain] at hlow
    exact beats_of_threePairs hcond hprev hjokers (by omega) (hfilled.fits hlow.1) hbeats
  | twoTriples start h6 _ _ hlow =>
    rw [hplain] at hlow
    exact beats_of_twoTriples hcond hprev hjokers (by omega) (hfilled.fits hlow.1) hbeats

/-- Without wild cards the hand is read as itself. -/
theorem Reads.of_noWild (hplain : plain cards ctx = cards) (h : Reads cards (noWild ctx) p) :
    Reads cards ctx p := by
  have hsame : plain cards (noWild ctx) = plain cards ctx := (plain_noWild cards ctx).trans hplain.symm
  cases h with
  | jokerBomb hjokers => exact .jokerBomb hjokers
  | bomb hjokers h4 hone =>
    unfold bombRank
    rw [hsame] at hone ⊢
    exact .bomb hjokers h4 hone
  | single card hcard => exact .single card hcard
  | pair h2 hone =>
    rw [hsame] at hone ⊢
    exact .pair h2 hone
  | triple h3 hone =>
    rw [hsame] at hone ⊢
    exact .triple h3 hone
  | lowTriple r s hjokers h5 htwo hr hs =>
    rw [hsame] at htwo hr hs
    exact .lowTriple r s hjokers h5 htwo hr hs
  | highTriple r s hjokers h5 htwo hr hs =>
    rw [hsame] at htwo hr hs
    exact .highTriple r s hjokers h5 htwo hr hs
  | straightFlush start h5 hmany hsuit hlow =>
    rw [hsame] at hmany hsuit hlow
    exact .straightFlush start h5 hmany hsuit hlow
  | straight start h5 hmany hsuit hlow =>
    rw [hsame] at hmany hsuit hlow
    exact .straight start h5 hmany hsuit hlow
  | threePairs start h6 hmany hlow =>
    rw [hsame] at hmany hlow
    exact .threePairs start h6 hmany hlow
  | twoTriples start h6 hmany hpairs hlow =>
    rw [hsame] at hmany hpairs hlow
    exact .twoTriples start h6 hmany hpairs hlow

theorem beats_of_nothingMissed (hcond : NothingMissed cards ctx prev) (hprev : prev.isValid = true)
    (hknown : prev.type ≠ .invalid) (hfilled : Filled ctx cards filled)
    (hbeats : canBeat (analyze filled (noWild ctx)) prev ctx = true) :
    canBeat (analyze cards ctx) prev ctx = true := by
  have hvalid : (analyze filled (noWild ctx)).isValid = true := by
    by_contra hinvalid
    simp [canBeat, hinvalid] at hbeats
  have hreads := reads_of_valid hvalid
  by_cases hwild : 0 < cards.countP ctx.isWildCard
  · exact beats_of_reads hcond hprev hknown hfilled hwild hreads hbeats
  · have hnone : ∀ card ∈ cards, ctx.isWildCard card = false := by
      simpa using hwild
    rw [(Filling.fills_iff_eq hnone).1 hfilled] at hreads hbeats
    have hplain : plain cards ctx = cards := by
      rw [plain, List.filter_eq_self]
      exact fun card hcard => by rw [hnone card hcard]; rfl
    rwa [(hreads.of_noWild hplain).analyze_eq]

/-! ### What is missed -/

/-- The size of a pattern of runs. -/
theorem Reads.length_of_run (h : Reads cards ctx p) : p.type ≠ .invalid ∧
    (p.type = .straight → p.length = 5) ∧ (p.type = .straightFlush → p.length = 5) ∧
      (p.type = .threePairs → p.length = 3) ∧ (p.type = .twoTriples → p.length = 2) := by
  cases h <;> simp [runPattern]

theorem LowestRun.runsAbove {rank low : Nat} (h : LowestRun N need len low)
    (hrank : rank < low + len - 1) : RunsAbove N need len rank := by
  intro start hfits
  have : low ≤ start := Nat.le_of_not_lt fun hlt => h.2 start hlt hfits
  omega

theorem exists_above {rank : Nat} (h : ¬ RunsBelow N need len rank) :
    ∃ start, FitsRun N need len start ∧ rank < start + len - 1 := by
  unfold RunsBelow at h
  push Not at h
  exact h

/-- Every reading of the hand that beats `prev` is met by the one that is taken. -/
def NeverRefused (cards : List Card) (ctx : RuleContext) (prev : CardPattern) : Prop :=
  ∀ filled, Filled ctx cards filled → canBeat (analyze filled (noWild ctx)) prev ctx = true →
    canBeat (analyze cards ctx) prev ctx = true

theorem beats_of_flush (h : NeverRefused cards ctx prev) (h5 : cards.length = 5)
    (hsuit : FlushSuit (plain cards ctx)) (hfits : FitsRun (plain cards ctx) 1 5 start)
    (hbeats : canBeat (runPattern .straightFlush 5 start) prev ctx = true) :
    canBeat (analyze cards ctx) prev ctx = true := by
  obtain ⟨filled, hfilled, heq⟩ := exists_straightFlush h5 hsuit hfits
  exact h filled hfilled (heq ▸ hbeats)

theorem not_flushOfTwo (h : NeverRefused cards ctx prev) (hprev : prev.isValid = true)
    (hordinary : Ordinary prev.type) (htriple : prev.type ≠ .tripleWithPair) :
    ¬ FlushOfTwo cards ctx := by
  rintro ⟨h5, htwo, hsuit, start, hfits⟩
  have hbeats := beats_of_flush h h5 hsuit hfits ((canBeat_straightFlush rfl hprev rfl).2
    ⟨hordinary.1, fun htype => absurd htype hordinary.2.2,
      fun htype => absurd htype hordinary.2.1⟩)
  rcases analyze_of_run h5 hfits with ⟨hone, -⟩ | ⟨r, s, -, heq⟩ | ⟨hmany, -⟩
  · omega
  · rw [heq, canBeat_tripleWithPair rfl hprev rfl] at hbeats
    exact htriple hbeats.1
  · omega

theorem tripleOver_of_neverRefused (h : NeverRefused cards ctx prev) (hprev : prev.isValid = true)
    (htype : prev.type = .tripleWithPair) {r s : Nat} (h5 : cards.length = 5)
    (htwo : present (plain cards ctx) = [r, s])
    (hread : FlushOfTwo cards ctx ∨ (rankCount (plain cards ctx) r ≤ 2 ∧
      rankCount (plain cards ctx) s ≤ 2 ∧ s < rankValue .smallJoker ∧ TripleOver s r prev ctx)) :
    TripleOver r s prev ctx := by
  rcases hread with ⟨-, -, hsuit, start, hfits⟩ | ⟨hr, hs, hjoker, hover⟩
  · have hbeats := beats_of_flush h h5 hsuit hfits ((canBeat_straightFlush rfl hprev rfl).2
      (by rw [htype]; exact ⟨nofun, nofun, nofun⟩))
    rcases analyze_of_run h5 hfits with ⟨hone, -⟩ | ⟨r', s', htwo', heq⟩ | ⟨hmany, -⟩
    · simp [htwo] at hone
    · rw [htwo] at htwo'
      obtain ⟨rfl, rfl⟩ : r = r' ∧ s = s' := by simpa using htwo'
      rw [heq, canBeat_tripleWithPair rfl hprev rfl] at hbeats
      exact hbeats.2
    · simp [htwo] at hmany
  · obtain ⟨t, u, hne, rfl, rfl, hmem⟩ := exists_two_ranks htwo
    have hlt : rankValue t < rankValue u := by simpa [htwo] using sorted_present (plain cards ctx)
    have hu : isJoker u = false := by
      rw [← Bool.not_eq_true, isJoker_iff]
      exact Nat.not_le.2 hjoker
    have ht : isJoker t = false := by
      rw [← Bool.not_eq_true, isJoker_iff]
      exact Nat.not_le.2 (hlt.trans hjoker)
    have hfits : FitsTriple (plain cards ctx) u t := by
      rw [← count_ranks] at hr hs
      exact ⟨hne.symm, fun card hcard => (hmem card hcard).symm, by omega, hr,
        fun hu' => absurd (hu ▸ hu') Bool.false_ne_true, fun ht' => absurd (ht ▸ ht') Bool.false_ne_true⟩
    have hjokers : ¬ JokersOnly cards := by
      intro hjokers
      obtain ⟨card, hcard, hcard'⟩ := hjokers.plain_joker ctx
      rcases hmem card hcard with h | h
      · rw [h, ht] at hcard'
        exact Bool.false_ne_true hcard'
      · rw [h, hu] at hcard'
        exact Bool.false_ne_true hcard'
    obtain ⟨filled, hfilled, heq⟩ := exists_tripleWithPair h5 hfits (.inl hu)
    have hbeats := h filled hfilled (by
      rw [heq, canBeat_tripleWithPair rfl hprev rfl]
      exact ⟨htype, hover⟩)
    rw [(Reads.lowTriple _ _ hjokers h5 htwo (by omega) hs).analyze_eq,
      canBeat_tripleWithPair rfl hprev rfl] at hbeats
    exact hbeats.2

theorem straights_of_neverRefused (h : NeverRefused cards ctx prev) (hprev : prev.isValid = true)
    (htype : prev.type = .straight) (hlength : prev.length = 5) (h5 : cards.length = 5)
    (hnot : ¬ RunsBelow (plain cards ctx) 1 5 prev.primaryRank) :
    (present (plain cards ctx)).length ≠ 2 ∧
      (2 < (present (plain cards ctx)).length → OneSuit (plain cards ctx) ∨
        RunsAbove (plain cards ctx) 1 5 prev.primaryRank) := by
  obtain ⟨start, hfits, habove⟩ := exists_above hnot
  obtain ⟨filled, hfilled, heq⟩ := exists_straight h5 hfits
  have hbeats := h filled hfilled (by
    rcases heq with heq | heq
    · rw [heq, canBeat_straightFlush rfl hprev rfl, htype]
      exact ⟨nofun, nofun, nofun⟩
    · rw [heq, canBeat_run hprev (by simp)]
      exact ⟨htype, hlength.symm, habove⟩)
  rcases analyze_of_run h5 hfits with ⟨hone, -⟩ | ⟨r, s, -, heq⟩ | ⟨hmany, low, hlow, hread⟩
  · exact ⟨by omega, fun hmany => by omega⟩
  · rw [heq, canBeat_tripleWithPair rfl hprev rfl, htype] at hbeats
    exact absurd hbeats.1 nofun
  · refine ⟨by omega, fun _ => ?_⟩
    rcases hread with ⟨hsuit, -⟩ | ⟨-, heq⟩
    · exact .inl hsuit
    · rw [heq, canBeat_run hprev (by simp)] at hbeats
      exact .inr (hlow.runsAbove hbeats.2.2)

theorem flushes_of_neverRefused (h : NeverRefused cards ctx prev) (hprev : prev.isValid = true)
    (htype : prev.type = .straightFlush) (hlength : prev.length = 5) (h5 : cards.length = 5)
    (hsuit : FlushSuit (plain cards ctx))
    (hnot : ¬ RunsBelow (plain cards ctx) 1 5 prev.primaryRank) :
    2 < (present (plain cards ctx)).length ∧ RunsAbove (plain cards ctx) 1 5 prev.primaryRank := by
  obtain ⟨start, hfits, habove⟩ := exists_above hnot
  have hbeats := beats_of_flush h h5 hsuit hfits ((canBeat_straightFlush rfl hprev rfl).2
    (by rw [htype]; exact ⟨nofun, nofun, fun _ => ⟨hlength.symm, habove⟩⟩))
  rcases analyze_of_run h5 hfits with ⟨-, heq⟩ | ⟨r, s, -, heq⟩ | ⟨hmany, low, hlow, hread⟩
  · rw [heq, canBeat_bomb rfl hprev rfl] at hbeats
    exact absurd (hbeats.2.1 htype) (show ¬ 6 ≤ 5 by decide)
  · rw [heq, canBeat_tripleWithPair rfl hprev rfl, htype] at hbeats
    exact absurd hbeats.1 nofun
  · rcases hread with ⟨-, heq⟩ | ⟨hnotSuit, -⟩
    · rw [heq, canBeat_straightFlush rfl hprev rfl] at hbeats
      exact ⟨hmany, hlow.runsAbove (hbeats.2.2 htype).2⟩
    · exact absurd hsuit.oneSuit hnotSuit

theorem bombs_of_neverRefused (h : NeverRefused cards ctx prev) (hprev : prev.isValid = true)
    (htype : prev.type = .bomb) (h5 : cards.length = 5) (hsuit : FlushSuit (plain cards ctx))
    (hfits : FitsRun (plain cards ctx) 1 5 start) :
    ((present (plain cards ctx)).length ≤ 1 → prev.length = 5 →
        prev.primaryRank < bombRank cards ctx) ∧
      ((present (plain cards ctx)).length = 2 → 5 < prev.length) := by
  have hbeats : prev.length < 6 → canBeat (analyze cards ctx) prev ctx = true := fun hsmall =>
    beats_of_flush h h5 hsuit hfits ((canBeat_straightFlush rfl hprev rfl).2
      (by rw [htype]; exact ⟨nofun, fun _ => hsmall, nofun⟩))
  rcases analyze_of_run h5 hfits with ⟨hone, heq⟩ | ⟨r, s, htwo, heq⟩ | ⟨hmany, -⟩
  · refine ⟨fun _ hlength => ?_, fun htwo => by omega⟩
    have := hbeats (by omega)
    rw [heq, canBeat_bomb rfl hprev rfl] at this
    have := this.2.2 htype
    dsimp only at this
    omega
  · refine ⟨fun hone => by simp [htwo] at hone, fun _ => Nat.lt_of_not_le fun hsmall => ?_⟩
    have := hbeats (by omega)
    rw [heq, canBeat_tripleWithPair rfl hprev rfl, htype] at this
    exact absurd this.1 nofun
  · exact ⟨fun hone => by omega, fun htwo => by omega⟩

theorem threePairs_of_neverRefused (h : NeverRefused cards ctx prev) (hprev : prev.isValid = true)
    (htype : prev.type = .threePairs) (hlength : prev.length = 3) (h6 : cards.length = 6)
    (hmany : 1 < (present (plain cards ctx)).length)
    (hnot : ¬ RunsBelow (plain cards ctx) 2 3 prev.primaryRank) :
    RunsAbove (plain cards ctx) 2 3 prev.primaryRank := by
  obtain ⟨start, hfits, habove⟩ := exists_above hnot
  obtain ⟨filled, hfilled, heq⟩ := exists_threePairs h6 hfits
  have hbeats := h filled hfilled (by
    rw [heq, canBeat_run hprev (by simp)]
    exact ⟨htype, hlength.symm, habove⟩)
  obtain ⟨low, hlow⟩ := exists_lowestRun hfits
  rw [(Reads.threePairs low h6 hmany hlow).analyze_eq,
    canBeat_run hprev (by simp)] at hbeats
  exact hlow.runsAbove hbeats.2.2

theorem twoTriples_of_neverRefused (h : NeverRefused cards ctx prev) (hprev : prev.isValid = true)
    (htype : prev.type = .twoTriples) (hlength : prev.length = 2) (h6 : cards.length = 6)
    (hmany : 1 < (present (plain cards ctx)).length)
    (hnot : ¬ RunsBelow (plain cards ctx) 3 2 prev.primaryRank) :
    RunsAbove (plain cards ctx) 3 2 prev.primaryRank ∧
      ∀ start, ¬ FitsRun (plain cards ctx) 2 3 start := by
  obtain ⟨start, hfits, habove⟩ := exists_above hnot
  obtain ⟨filled, hfilled, heq⟩ := exists_twoTriples h6 hfits
  have hbeats := h filled hfilled (by
    rw [heq, canBeat_run hprev (by simp)]
    exact ⟨htype, hlength.symm, habove⟩)
  have hpairs : ∀ s, ¬ FitsRun (plain cards ctx) 2 3 s := by
    intro s hpairs
    obtain ⟨low, hlow⟩ := exists_lowestRun hpairs
    rw [(Reads.threePairs low h6 hmany hlow).analyze_eq,
      canBeat_run hprev (by simp), htype] at hbeats
    exact absurd hbeats.1 nofun
  obtain ⟨low, hlow⟩ := exists_lowestRun hfits
  rw [(Reads.twoTriples low h6 hmany hpairs hlow).analyze_eq,
    canBeat_run hprev (by simp)] at hbeats
  exact ⟨hlow.runsAbove hbeats.2.2, hpairs⟩

/-- The hand is never refused where it could be read as something that beats the table, if and only if
nothing is missed. -/
theorem legal_beat (cards table : List Card) (ctx : RuleContext)
    (hprev : (analyze table ctx).isValid = true) :
    NeverRefused cards ctx (analyze table ctx) ↔ NothingMissed cards ctx (analyze table ctx) := by
  obtain ⟨hknown, hstraight, hflush, hpairs, htriples⟩ := (reads_of_valid hprev).length_of_run
  generalize analyze table ctx = prev at *
  refine ⟨fun h => ?_, fun hcond filled hfilled hbeats =>
    beats_of_nothingMissed hcond hprev hknown hfilled hbeats⟩
  unfold NothingMissed
  cases htype : prev.type with
  | invalid | jokerBomb => trivial
  | single | pair | triple =>
    exact not_flushOfTwo h hprev (by simp [Ordinary, htype]) (by simp [htype])
  | tripleWithPair =>
    exact fun r s h5 htwo hread => tripleOver_of_neverRefused h hprev htype h5 htwo hread
  | straight =>
    intro h5
    have hnot := not_flushOfTwo h hprev (by simp [Ordinary, htype]) (by simp [htype])
    by_cases hbelow : RunsBelow (plain cards ctx) 1 5 prev.primaryRank
    · exact ⟨fun _ => ⟨hnot, hbelow⟩, fun _ => .inr (.inl hbelow)⟩
    · obtain ⟨hne, habove⟩ := straights_of_neverRefused h hprev htype (hstraight htype) h5 hbelow
      exact ⟨fun htwo => absurd htwo hne, fun hmany => (habove hmany).imp_right .inr⟩
  | threePairs =>
    refine ⟨not_flushOfTwo h hprev (by simp [Ordinary, htype]) (by simp [htype]),
      fun h6 hmany => or_iff_not_imp_left.2 fun hbelow => ?_⟩
    exact threePairs_of_neverRefused h hprev htype (hpairs htype) h6 hmany hbelow
  | twoTriples =>
    refine ⟨not_flushOfTwo h hprev (by simp [Ordinary, htype]) (by simp [htype]),
      fun h6 hmany => or_iff_not_imp_left.2 fun hbelow => ?_⟩
    exact twoTriples_of_neverRefused h hprev htype (htriples htype) h6 hmany hbelow
  | straightFlush =>
    exact fun h5 hsuit => or_iff_not_imp_left.2 fun hbelow =>
      flushes_of_neverRefused h hprev htype (hflush htype) h5 hsuit hbelow
  | bomb =>
    rintro h5 hsuit ⟨start, hfits⟩
    exact bombs_of_neverRefused h hprev htype h5 hsuit hfits

/-- A five and the wild card of level 2 beat a pair of fours. -/
theorem legal_beat_wildPair :
    NeverRefused [⟨3, .spade, .r5⟩, ⟨13, .heart, .r2⟩] {}
      (analyze [⟨2, .spade, .r4⟩, ⟨28, .club, .r4⟩] {}) := by
  refine (legal_beat _ _ _ (by decide +kernel)).2 ?_
  have htype : (analyze [⟨2, .spade, .r4⟩, ⟨28, .club, .r4⟩] {}).type = .pair := by decide +kernel
  unfold NothingMissed
  rw [htype]
  exact fun h => absurd h.1 (by decide)

/-- With the wild card of level 2, a three to a six make a straight from three to seven. It is read as the
one from two to six, and refused over another straight to six. -/
theorem straight_refused :
    (analyze [⟨0, .spade, .r2⟩, ⟨55, .spade, .r3⟩, ⟨28, .club, .r4⟩, ⟨16, .heart, .r5⟩,
      ⟨58, .spade, .r6⟩] {}).isValid = true ∧
    ¬ NeverRefused [⟨1, .spade, .r3⟩, ⟨15, .heart, .r4⟩, ⟨29, .club, .r5⟩, ⟨43, .diamond, .r6⟩,
      ⟨13, .heart, .r2⟩] {}
      (analyze [⟨0, .spade, .r2⟩, ⟨55, .spade, .r3⟩, ⟨28, .club, .r4⟩, ⟨16, .heart, .r5⟩,
        ⟨58, .spade, .r6⟩] {}) := by
  refine ⟨by decide +kernel, fun h => ?_⟩
  have hfilled : Filled {} [⟨1, .spade, .r3⟩, ⟨15, .heart, .r4⟩, ⟨29, .club, .r5⟩, ⟨43, .diamond, .r6⟩,
      ⟨13, .heart, .r2⟩] [⟨1, .spade, .r3⟩, ⟨15, .heart, .r4⟩, ⟨29, .club, .r5⟩, ⟨43, .diamond, .r6⟩,
      ⟨5, .spade, .r7⟩] :=
    .cons rfl (.cons rfl (.cons rfl (.cons rfl (.cons ⟨nofun, rfl⟩ .nil))))
  exact absurd (h _ hfilled (by decide +kernel)) (by decide +kernel)

end

end CardAnalyzer

end Guandan
