import Guandan.Rules.Grammar
import Mathlib.Algebra.Order.BigOperators.Group.List
import Mathlib.Algebra.Order.Ring.Nat

/-!
# Hands without wild cards

`Denotes`: the patterns of the rules that a hand without wild cards is, each with the strength it is
compared by. Three jokers of one kind with two of the other are a triple with a pair and a joker bomb
at once and count as the bomb (`CountsAs`). Otherwise a hand is one pattern at most, and `analyze` gives
that one (`analyze_exact`).
-/

namespace Guandan

namespace CardAnalyzer

/-- The rank that groups are compared by: cards of the level stand above the ace. -/
def raisedRank (ctx : RuleContext) (r : Rank) : Nat :=
  if rankValue r = ctx.currentLevel then kLevelCardPatternRank else rankValue r

/-- The patterns of the rules, with their strength. A run is compared by its highest slot, in which the ace
may be the lowest card; a straight of one suit is a straight flush only. -/
inductive Denotes (ctx : RuleContext) (cards : List Card) : CardPattern → Prop
  | single (card : Card) (h : cards = [card]) :
      Denotes ctx cards ⟨.single, singleEffectiveRank card ctx, 1, 0, true⟩
  | pair (r : Rank) (h : (ranks cards).Perm [r, r]) :
      Denotes ctx cards ⟨.pair, raisedRank ctx r, 2, 0, true⟩
  | triple (r : Rank) (h : (ranks cards).Perm [r, r, r]) :
      Denotes ctx cards ⟨.triple, raisedRank ctx r, 3, 0, true⟩
  | tripleWithPair (r s : Rank) (hne : r ≠ s) (h : (ranks cards).Perm [r, r, r, s, s]) :
      Denotes ctx cards ⟨.tripleWithPair, raisedRank ctx r, 5, rankValue s, true⟩
  | straight (start : Nat) (h1 : 1 ≤ start) (h15 : start + 5 ≤ 15)
      (h : (ranks cards).Perm (window start 5)) (hsuit : ¬ OneSuit cards) :
      Denotes ctx cards ⟨.straight, start + 4, 5, 0, true⟩
  | straightFlush (start : Nat) (h1 : 1 ≤ start) (h15 : start + 5 ≤ 15)
      (h : (ranks cards).Perm (window start 5)) (hsuit : OneSuit cards) :
      Denotes ctx cards ⟨.straightFlush, start + 4, 5, 0, true⟩
  | threePairs (start : Nat) (h1 : 1 ≤ start) (h15 : start + 3 ≤ 15)
      (h : (ranks cards).Perm ((window start 3).flatMap (List.replicate 2))) :
      Denotes ctx cards ⟨.threePairs, start + 2, 3, 0, true⟩
  | twoTriples (start : Nat) (h1 : 1 ≤ start) (h15 : start + 2 ≤ 15)
      (h : (ranks cards).Perm ((window start 2).flatMap (List.replicate 3))) :
      Denotes ctx cards ⟨.twoTriples, start + 1, 2, 0, true⟩
  | bomb (r : Rank) (count : Nat) (h4 : 4 ≤ count) (h : (ranks cards).Perm (List.replicate count r)) :
      Denotes ctx cards ⟨.bomb, raisedRank ctx r, count, 0, true⟩
  | jokerBomb (h : JokersOnly cards) :
      Denotes ctx cards ⟨.jokerBomb, rankValue .bigJoker, cards.length, 0, true⟩

/-- The pattern that a hand counts as: five jokers of both kinds are a joker bomb only. -/
def CountsAs (ctx : RuleContext) (cards : List Card) (p : CardPattern) : Prop :=
  Denotes ctx cards p ∧ (p.type = .tripleWithPair → ¬ JokersOnly cards)

variable {cards N : List Card} {ctx : RuleContext} {need len start : Nat} {p : CardPattern}

theorem Denotes.countsAs (h : Denotes ctx cards p) (hne : p.type ≠ .tripleWithPair) :
    CountsAs ctx cards p := ⟨h, fun heq => absurd heq hne⟩

theorem length_of_perm {target : List Rank} (h : (ranks cards).Perm target) :
    cards.length = target.length := by
  have := h.length_eq
  rwa [ranks, List.length_map] at this

/-! ### Runs -/

theorem window_injective {s t : Nat} (h2 : 2 ≤ len) (h5 : len ≤ 5) (hs : 1 ≤ s) (hs15 : s + len ≤ 15)
    (ht : 1 ≤ t) (ht15 : t + len ≤ 15) (h : ∀ r ∈ window s len, r ∈ window t len) : s = t := by
  have hall : ∀ len ∈ [2, 3, 4, 5], ∀ s ∈ List.range' 1 (15 - len), ∀ t ∈ List.range' 1 (15 - len),
      (window s len).all (window t len).contains = true → s = t := by
    decide +kernel
  refine hall len ?_ s ?_ t ?_ ?_
  · simp only [List.mem_cons, List.not_mem_nil, or_false]
    omega
  · exact List.mem_range'_1.2 ⟨hs, by omega⟩
  · exact List.mem_range'_1.2 ⟨ht, by omega⟩
  · rw [List.all_eq_true]
    exact fun r hr => List.contains_iff_mem.2 (h r hr)

/-- A hand that is a run fits no other window. -/
theorem lowestRun_of_perm (h2 : 2 ≤ len) (h5 : len ≤ 5) (hneed : 0 < need) (h1 : 1 ≤ start)
    (h15 : start + len ≤ 15) (hperm : (ranks N).Perm (runTarget need len start)) :
    LowestRun N need len start := by
  refine ⟨⟨h1, h15, hperm.subperm⟩, fun s hs hfits => hs.ne' ?_⟩
  refine window_injective h2 h5 h1 h15 hfits.1 hfits.2.1 fun r hr => ?_
  have hmem : r ∈ runTarget need len start :=
    List.mem_flatMap.2 ⟨r, hr, List.mem_replicate.2 ⟨hneed.ne', rfl⟩⟩
  obtain ⟨r', hr', hmem'⟩ := List.mem_flatMap.1 (hfits.2.2.subset (hperm.symm.subset hmem))
  rwa [List.eq_of_mem_replicate hmem']

/-- A full run has as many ranks as its window. -/
theorem FitsRun.le_length_present (h : FitsRun N need len start) (h5 : len ≤ 5) (hneed : 0 < need)
    (hlen : N.length = len * need) : len ≤ (present N).length := by
  have hsum := List.sum_le_card_nsmul ((present N).map (rankCount N)) need (by
    intro count hcount
    obtain ⟨v, -, rfl⟩ := List.mem_map.1 hcount
    exact h.rankCount_le h5)
  rw [sum_present, hlen, List.length_map, Nat.nsmul_eq_mul] at hsum
  exact Nat.le_of_mul_le_mul_right hsum hneed

theorem reads_five (hplain : plain cards ctx = cards) (h1 : 1 ≤ start) (h15 : start + 5 ≤ 15)
    (hperm : (ranks cards).Perm (runTarget 1 5 start)) :
    (OneSuit cards → Reads cards ctx (runPattern .straightFlush 5 start)) ∧
      (¬ OneSuit cards → Reads cards ctx (runPattern .straight 5 start)) := by
  have hlow := lowestRun_of_perm (by decide) (by decide) (by decide) h1 h15 hperm
  have h5 : cards.length = 5 := length_of_perm hperm
  have hmany := hlow.1.le_length_present (by decide) (by decide) h5
  exact ⟨fun hsuit => .straightFlush start h5 (by rw [hplain]; omega) (by rwa [hplain])
    (by rwa [hplain]), fun hsuit => .straight start h5 (by rw [hplain]; omega) (by rwa [hplain])
    (by rwa [hplain])⟩

theorem reads_threePairs (hplain : plain cards ctx = cards) (h1 : 1 ≤ start) (h15 : start + 3 ≤ 15)
    (hperm : (ranks cards).Perm (runTarget 2 3 start)) :
    Reads cards ctx (runPattern .threePairs 3 start) := by
  have hlow := lowestRun_of_perm (by decide) (by decide) (by decide) h1 h15 hperm
  have h6 : cards.length = 6 := length_of_perm hperm
  have hmany := hlow.1.le_length_present (by decide) (by decide) h6
  exact .threePairs start h6 (by rw [hplain]; omega) (by rwa [hplain])

theorem reads_twoTriples (hplain : plain cards ctx = cards) (h1 : 1 ≤ start) (h15 : start + 2 ≤ 15)
    (hperm : (ranks cards).Perm (runTarget 3 2 start)) :
    Reads cards ctx (runPattern .twoTriples 2 start) := by
  have hlow := lowestRun_of_perm (by decide) (by decide) (by decide) h1 h15 hperm
  have h6 : cards.length = 6 := length_of_perm hperm
  have hmany := hlow.1.le_length_present (by decide) (by decide) h6
  refine .twoTriples start h6 (by rw [hplain]; omega) ?_ (by rwa [hplain])
  -- three cards of one rank are too many for a window of pairs
  rw [hplain]
  intro s hpairs
  have hcount := hperm.count_eq (slotRank start)
  have hmem : slotRank start ∈ window start 2 := List.mem_map_of_mem (by simp)
  rw [runTarget, Filling.count_copies (nodup_window h1 h15 (by decide)), if_pos hmem,
    count_ranks] at hcount
  have := hpairs.rankCount_le (by decide) (v := rankValue (slotRank start))
  omega

/-! ### A triple with a pair -/

theorem present_two {t u : Rank} (hmem : ∀ card ∈ N, card.rank = t ∨ card.rank = u)
    (ht : 0 < (ranks N).count t) (hu : 0 < (ranks N).count u) (hlt : rankValue t < rankValue u) :
    present N = [rankValue t, rankValue u] := by
  have hle := length_present_le [t, u] fun card hcard => by simpa using hmem card hcard
  rw [count_ranks, rankCount_pos, ← mem_present] at ht hu
  have hsorted := sorted_present N
  generalize present N = vs at *
  rcases vs with _ | ⟨a, _ | ⟨b, _ | ⟨c, vs⟩⟩⟩
  · exact absurd ht List.not_mem_nil
  · rw [List.mem_singleton] at ht hu
    omega
  · rw [List.mem_pair] at ht hu
    have hab : a < b := by simpa using hsorted
    have : rankValue t = a ∧ rankValue u = b := by omega
    rw [this.1, this.2]
  · simp at hle

theorem perm_triplePair_iff {t u : Rank} (hne : t ≠ u) : (ranks N).Perm [t, t, t, u, u] ↔
    (∀ card ∈ N, card.rank = t ∨ card.rank = u) ∧ (ranks N).count t = 3 ∧ (ranks N).count u = 2 := by
  rw [List.perm_iff_count]
  simp only [count_triplePair hne]
  constructor
  · intro hcount
    refine ⟨fun card hcard => ?_, by simpa using hcount t, by simpa [hne] using hcount u⟩
    have hpos : 0 < (ranks N).count card.rank := List.count_pos_iff.2 (List.mem_map_of_mem hcard)
    rw [hcount] at hpos
    split_ifs at hpos with ht hu
    · exact .inl ht.symm
    · exact .inr hu.symm
    · exact absurd hpos (by decide)
  · rintro ⟨hmem, ht, hu⟩ r
    split_ifs with hr hr'
    · rwa [← hr]
    · rwa [← hr']
    · rw [List.count_eq_zero, ranks, List.mem_map]
      rintro ⟨card, hcard, rfl⟩
      rcases hmem card hcard with h | h
      · exact hr h.symm
      · exact hr' h.symm

/-- The pattern of a triple `t` with a pair `u`. -/
def triplePattern (t u : Nat) (ctx : RuleContext) : CardPattern :=
  ⟨.tripleWithPair, patternRankForLevelCard t ctx, 5, u, true⟩

theorem reads_tripleWithPair {t u : Rank} (hplain : plain cards ctx = cards) (hne : t ≠ u)
    (hperm : (ranks cards).Perm [t, t, t, u, u]) (hjokers : ¬ JokersOnly cards) :
    Reads cards ctx (triplePattern (rankValue t) (rankValue u) ctx) := by
  obtain ⟨hmem, ht, hu⟩ := (perm_triplePair_iff hne).1 hperm
  have h5 : cards.length = 5 := length_of_perm hperm
  rcases lt_or_gt_of_ne (rankValue_injective.ne hne) with hlt | hlt
  · have htwo := present_two hmem (by omega) (by omega) hlt
    rw [← hplain] at htwo
    rw [count_ranks] at ht hu
    exact .lowTriple _ _ hjokers h5 htwo (by rw [hplain, ht]) (by rw [hplain, hu])
  · have htwo := present_two (fun card hcard => (hmem card hcard).symm) (by omega) (by omega) hlt
    rw [← hplain] at htwo
    rw [count_ranks] at ht hu
    exact .highTriple _ _ hjokers h5 htwo (by rw [hplain, hu]) (by rw [hplain, ht])

/-! ### One rank -/

theorem onlyRank_eq (hone : (present N).length ≤ 1) {card : Card} (hcard : card ∈ N) :
    onlyRank N ctx = rankValue card.rank := by
  have hmem := mem_present.2 ⟨card, hcard, rfl⟩
  unfold onlyRank
  rcases hpresent : present N with _ | ⟨v, _ | ⟨u, vs⟩⟩
  · rw [hpresent] at hmem
    exact absurd hmem List.not_mem_nil
  · rw [hpresent, List.mem_singleton] at hmem
    rw [hmem]
    rfl
  · rw [hpresent] at hone
    simp at hone

theorem present_of_replicate {r : Rank} {n : Nat}
    (h : (ranks cards).Perm (List.replicate n r)) :
    (∀ card ∈ cards, card.rank = r) ∧ (present cards).length ≤ 1 := by
  have hall : ∀ card ∈ cards, card.rank = r := fun card hcard =>
    List.eq_of_mem_replicate (h.subset (List.mem_map_of_mem hcard))
  exact ⟨hall, length_present_le [r] fun card hcard => List.mem_singleton.2 (hall card hcard)⟩

theorem onlyRank_of_replicate {r : Rank} {n : Nat} (hpos : 0 < n)
    (h : (ranks cards).Perm (List.replicate n r)) : onlyRank cards ctx = rankValue r := by
  obtain ⟨hall, hone⟩ := present_of_replicate h
  have hlen : cards.length = n := (length_of_perm h).trans List.length_replicate
  obtain ⟨card, hcard⟩ := List.exists_mem_of_length_pos (hlen.symm ▸ hpos)
  rw [onlyRank_eq hone hcard, hall card hcard]

theorem raisedRank_eq (ctx : RuleContext) (r : Rank) :
    patternRankForLevelCard (rankValue r) ctx = raisedRank ctx r := rfl

/-- No joker is of the level, so cards of one rank are all level cards or none of them is. -/
theorem bombRank_eq {r : Rank} {n : Nat} (hlevel : ctx.currentLevel ≤ 14)
    (hplain : plain cards ctx = cards) (hpos : 0 < n)
    (h : (ranks cards).Perm (List.replicate n r)) : bombRank cards ctx = raisedRank ctx r := by
  obtain ⟨hall, -⟩ := present_of_replicate h
  have hlen : cards.length = n := (length_of_perm h).trans List.length_replicate
  obtain ⟨card, hcard⟩ := List.exists_mem_of_length_pos (hlen.symm ▸ hpos)
  have hiff : cards.all ctx.isLevelCard = true ↔ rankValue r = ctx.currentLevel := by
    have hcards : ∀ card ∈ cards, ctx.isLevelCard card = true ↔ rankValue r = ctx.currentLevel := by
      intro card hcard
      simp only [RuleContext.isLevelCard, RuleContext.rawLevelRankValue, hall card hcard,
        Bool.and_eq_true, Bool.not_eq_true', beq_iff_eq, and_iff_right_iff_imp]
      intro hr
      rw [← Bool.not_eq_true, isJoker_iff]
      omega
    rw [List.all_eq_true]
    exact ⟨fun h => (hcards card hcard).1 (h card hcard),
      fun h other hother => (hcards other hother).2 h⟩
  unfold bombRank raisedRank
  rw [hplain, onlyRank_of_replicate hpos h]
  simp only [hiff]

/-! ### The classification -/

/-- A hand without wild cards is read as what it counts as. -/
theorem CountsAs.reads (hlevel : ctx.currentLevel ≤ 14) (hplain : plain cards ctx = cards)
    (h : CountsAs ctx cards p) : Reads cards ctx p := by
  obtain ⟨hdenotes, hjokers⟩ := h
  cases hdenotes with
  | single card h => exact .single card h
  | pair r h =>
    obtain ⟨-, hone⟩ := present_of_replicate (n := 2) h
    have hreads : Reads cards ctx _ := .pair (length_of_perm h) (by rwa [hplain])
    rwa [hplain, onlyRank_of_replicate (n := 2) (by decide) h] at hreads
  | triple r h =>
    obtain ⟨-, hone⟩ := present_of_replicate (n := 3) h
    have hreads : Reads cards ctx _ := .triple (length_of_perm h) (by rwa [hplain])
    rwa [hplain, onlyRank_of_replicate (n := 3) (by decide) h] at hreads
  | tripleWithPair r s hne h => exact reads_tripleWithPair hplain hne h (hjokers rfl)
  | straight start h1 h15 h hsuit =>
    exact (reads_five hplain h1 h15 (by rwa [runTarget, copies_one])).2 hsuit
  | straightFlush start h1 h15 h hsuit =>
    exact (reads_five hplain h1 h15 (by rwa [runTarget, copies_one])).1 hsuit
  | threePairs start h1 h15 h => exact reads_threePairs hplain h1 h15 h
  | twoTriples start h1 h15 h => exact reads_twoTriples hplain h1 h15 h
  | bomb r count h4 h =>
    obtain ⟨hall, hone⟩ := present_of_replicate h
    have hlen : cards.length = count := (length_of_perm h).trans List.length_replicate
    have hnot : ¬ JokersOnly cards := by
      rintro ⟨-, hsmall, hbig⟩
      obtain ⟨small, hs, hsmall⟩ := List.countP_pos_iff.1
        (show 0 < cards.countP (·.rank == .smallJoker) by omega)
      obtain ⟨big, hb, hbig⟩ := List.countP_pos_iff.1
        (show 0 < cards.countP (·.rank == .bigJoker) by omega)
      rw [beq_iff_eq, hall _ hs] at hsmall
      rw [beq_iff_eq, hall _ hb, hsmall] at hbig
      cases hbig
    have hreads : Reads cards ctx _ := .bomb hnot (hlen.symm ▸ h4) (by rwa [hplain])
    rwa [bombRank_eq hlevel hplain (by omega) h, hlen] at hreads
  | jokerBomb h => exact .jokerBomb h

theorem exists_replicate (hone : (present cards).length ≤ 1) (hpos : 0 < cards.length) :
    ∃ r, (ranks cards).Perm (List.replicate cards.length r) := by
  obtain ⟨card, hcard⟩ := List.exists_mem_of_length_pos hpos
  refine ⟨card.rank, .of_eq (ranks_eq_replicate fun other hother => ?_)⟩
  exact rank_eq_of_oneRank hone hother hcard

/-- Plain cards that fit a run of their number are that run. -/
theorem FitsRun.perm (h : FitsRun N need len start) (hlen : N.length = len * need) :
    (ranks N).Perm (runTarget need len start) := by
  refine h.2.2.perm_of_length_le ?_
  rw [length_runTarget, ranks, List.length_map, hlen]

theorem perm_of_two {u v : Nat} (h5 : N.length = 5) (htwo : present N = [u, v])
    (hu : rankCount N u ≤ 3) (hv : rankCount N v ≤ 2) :
    ∃ r s : Rank, r ≠ s ∧ rankValue r = u ∧ rankValue s = v ∧ (ranks N).Perm [r, r, r, s, s] := by
  obtain ⟨r, s, hne, rfl, rfl, hmem⟩ := exists_two_ranks htwo
  have hsum := count_add_count hne hmem
  rw [← count_ranks] at hu hv
  exact ⟨r, s, hne, rfl, rfl, (perm_triplePair_iff hne).2 ⟨hmem, by omega, by omega⟩⟩

/-- A hand without wild cards counts as what it is read as. -/
theorem Reads.countsAs (hlevel : ctx.currentLevel ≤ 14) (hplain : plain cards ctx = cards)
    (h : Reads cards ctx p) : CountsAs ctx cards p := by
  cases h with
  | jokerBomb hjokers => exact Denotes.countsAs (.jokerBomb hjokers) (by rintro ⟨⟩)
  | bomb hjokers h4 hone =>
    rw [hplain] at hone
    obtain ⟨r, hr⟩ := exists_replicate hone (by omega)
    rw [bombRank_eq hlevel hplain (by omega) hr]
    exact Denotes.countsAs (.bomb r _ h4 hr) (by rintro ⟨⟩)
  | single card hcard => exact Denotes.countsAs (.single card hcard) (by rintro ⟨⟩)
  | pair h2 hone =>
    rw [hplain] at hone
    obtain ⟨r, hr⟩ := exists_replicate hone (by omega)
    rw [h2] at hr
    rw [hplain, onlyRank_of_replicate (n := 2) (by decide) hr, raisedRank_eq]
    exact Denotes.countsAs (.pair r hr) (by rintro ⟨⟩)
  | triple h3 hone =>
    rw [hplain] at hone
    obtain ⟨r, hr⟩ := exists_replicate hone (by omega)
    rw [h3] at hr
    rw [hplain, onlyRank_of_replicate (n := 3) (by decide) hr, raisedRank_eq]
    exact Denotes.countsAs (.triple r hr) (by rintro ⟨⟩)
  | lowTriple u v hjokers h5 htwo hu hv =>
    rw [hplain] at htwo hu hv
    obtain ⟨r, s, hne, rfl, rfl, hperm⟩ := perm_of_two h5 htwo hu hv
    exact ⟨.tripleWithPair r s hne hperm, fun _ => hjokers⟩
  | highTriple u v hjokers h5 htwo hu hv =>
    rw [hplain] at htwo hu hv
    obtain ⟨r, s, hne, rfl, rfl, hmem⟩ := exists_two_ranks htwo
    have hsum := count_add_count hne hmem
    rw [← count_ranks] at hu hv
    have hperm := (perm_triplePair_iff hne.symm).2
      ⟨fun card hcard => (hmem card hcard).symm, hv, by omega⟩
    exact ⟨.tripleWithPair s r hne.symm hperm, fun _ => hjokers⟩
  | straightFlush start h5 hmany hsuit hlow =>
    rw [hplain] at hsuit hlow
    have hperm := hlow.1.perm h5
    rw [runTarget, copies_one] at hperm
    exact Denotes.countsAs (.straightFlush start hlow.1.1 hlow.1.2.1 hperm hsuit) (by rintro ⟨⟩)
  | straight start h5 hmany hsuit hlow =>
    rw [hplain] at hsuit hlow
    have hperm := hlow.1.perm h5
    rw [runTarget, copies_one] at hperm
    exact Denotes.countsAs (.straight start hlow.1.1 hlow.1.2.1 hperm hsuit) (by rintro ⟨⟩)
  | threePairs start h6 hmany hlow =>
    rw [hplain] at hlow
    exact Denotes.countsAs (.threePairs start hlow.1.1 hlow.1.2.1 (hlow.1.perm h6)) (by rintro ⟨⟩)
  | twoTriples start h6 hmany hpairs hlow =>
    rw [hplain] at hlow
    exact Denotes.countsAs (.twoTriples start hlow.1.1 hlow.1.2.1 (hlow.1.perm h6)) (by rintro ⟨⟩)

theorem plain_of_noWild (hwild : ∀ card ∈ cards, ctx.isWildCard card = false) :
    plain cards ctx = cards := by
  rw [plain, List.filter_eq_self]
  intro card hcard
  rw [hwild card hcard]
  rfl

/-- A hand without wild cards counts as one pattern of the rules at most, and `analyze` gives that one with
its strength, or none. -/
theorem analyze_exact (ctx : RuleContext) (hlevel : ctx.currentLevel ≤ 14) (cards : List Card)
    (hwild : ∀ card ∈ cards, ctx.isWildCard card = false) :
    (∀ p q, CountsAs ctx cards p → CountsAs ctx cards q → p = q) ∧
    (∀ p, CountsAs ctx cards p → analyze cards ctx = p) ∧
    ((∀ p, ¬ CountsAs ctx cards p) → analyze cards ctx = .none) := by
  have hplain := plain_of_noWild hwild
  have hanalyze : ∀ p, CountsAs ctx cards p → analyze cards ctx = p := fun p hp =>
    (hp.reads hlevel hplain).analyze_eq
  refine ⟨fun p q hp hq => (hanalyze p hp).symm.trans (hanalyze q hq), hanalyze, fun hno => ?_⟩
  refine analyze_eq_none (Bool.eq_false_of_not_eq_true fun hvalid => ?_)
  exact hno _ ((reads_of_valid hvalid).countsAs hlevel hplain)

theorem analyze_exact_lowStraight :
    analyze [⟨12, .spade, .a⟩, ⟨0, .spade, .r2⟩, ⟨28, .club, .r4⟩, ⟨1, .spade, .r3⟩,
      ⟨3, .spade, .r5⟩] { currentLevel := 9 } = ⟨.straight, 5, 5, 0, true⟩ := by
  refine (analyze_exact _ (by decide) _ (by decide)).2.1 _ ⟨?_, nofun⟩
  refine .straight 1 (by decide) (by decide) (by decide) fun hsuit => ?_
  exact absurd (hsuit ⟨12, .spade, .a⟩ (by simp) ⟨28, .club, .r4⟩ (by simp)) (by decide)

/-- Three small jokers with two big ones are both a triple with a pair and a joker bomb. -/
theorem jokers_denote_twice :
    ¬ ∀ (ctx : RuleContext), 2 ≤ ctx.currentLevel ∧ ctx.currentLevel ≤ 14 → ∀ cards : List Card,
      (cards.map (·.id)).Nodup → (∀ card ∈ cards, ctx.isWildCard card = false) →
      ∀ p q, Denotes ctx cards p → Denotes ctx cards q → p.type = q.type := by
  intro h
  have htwice := h {} (by decide) [⟨52, .joker, .smallJoker⟩, ⟨106, .joker, .smallJoker⟩,
    ⟨160, .joker, .smallJoker⟩, ⟨53, .joker, .bigJoker⟩, ⟨107, .joker, .bigJoker⟩] (by decide)
    (by decide) _ _ (.tripleWithPair .smallJoker .bigJoker (by decide) (by decide))
    (.jokerBomb ⟨by decide, by decide, by decide⟩)
  cases htwice

end CardAnalyzer

end Guandan
