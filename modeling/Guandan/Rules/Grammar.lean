import Guandan.Rules.Readings

/-!
# The wild-card grammar

`Filled`: every wild card replaced by a card that is no joker. `Shape`: the hands without wild cards that
are a pattern. The hands `analyze` accepts and those that can be filled to a shape agree wherever no
wild card is taken for a joker (`JokersSettled`), and nowhere else (`analyze_grammar`).
-/

namespace Guandan

namespace CardAnalyzer

/-- What a wild card stands for. -/
def CanStandFor (card : Card) : Prop := card.suit ≠ .joker ∧ isJoker card.rank = false

def Filled (ctx : RuleContext) (cards filled : List Card) : Prop :=
  Filling.Fills ctx.isWildCard CanStandFor cards filled

/-- The patterns a hand without wild cards can be. -/
inductive Shape (cards : List Card) : Prop
  | single (r : Rank) (h : (ranks cards).Perm [r])
  | pair (r : Rank) (h : (ranks cards).Perm [r, r])
  | triple (r : Rank) (h : (ranks cards).Perm [r, r, r])
  | tripleWithPair (r s : Rank) (hne : r ≠ s) (h : (ranks cards).Perm [r, r, r, s, s])
  | straight (run : List Rank) (hrun : run <:+: runRanks) (h5 : run.length = 5)
      (h : (ranks cards).Perm run)
  | straightFlush (run : List Rank) (suit : Suit) (hrun : run <:+: runRanks) (h5 : run.length = 5)
      (h : (ranks cards).Perm run) (hsuit : ∀ card ∈ cards, card.suit = suit)
  | threePairs (run : List Rank) (hrun : run <:+: runRanks) (h3 : run.length = 3)
      (h : (ranks cards).Perm (run.flatMap (List.replicate 2)))
  | twoTriples (run : List Rank) (hrun : run <:+: runRanks) (h2 : run.length = 2)
      (h : (ranks cards).Perm (run.flatMap (List.replicate 3)))
  | bomb (r : Rank) (count : Nat) (h4 : 4 ≤ count) (h : (ranks cards).Perm (List.replicate count r))
  | jokers (h : JokersOnly cards)

variable {cards : List Card} {ctx : RuleContext}

/-! ### Filling a hand -/

theorem exists_canStandFor {r : Rank} :
    (∃ card, CanStandFor card ∧ card.rank = r) ↔ isJoker r = false := by
  constructor
  · rintro ⟨card, hcard, rfl⟩
    exact hcard.2
  · exact fun h => ⟨makeCard 0 .spade r, ⟨nofun, h⟩, rfl⟩

/-- A hand can be filled to the ranks of a target exactly if its plain cards are part of it and no joker
is missing. -/
theorem exists_filled_iff {target : List Rank} :
    (∃ filled, Filled ctx cards filled ∧ (ranks filled).Perm target) ↔
      cards.length = target.length ∧ (ranks (plain cards ctx)).Subperm target ∧
        ∀ r, isJoker r = true → (ranks (plain cards ctx)).count r = target.count r := by
  unfold Filled ranks plain
  rw [Filling.exists_filled_iff]
  refine and_congr_right' (and_congr_right' (forall_congr' fun r => ?_))
  have hr : (∀ card, CanStandFor card → card.rank ≠ r) ↔ isJoker r = true := by
    rw [← Bool.not_eq_false, ← exists_canStandFor]
    push Not
    rfl
  rw [hr]

theorem infix_runRanks_iff {run : List Rank} (hpos : run ≠ []) :
    run <:+: runRanks ↔
      ∃ start, 1 ≤ start ∧ start + run.length ≤ 15 ∧ run = window start run.length := by
  have hruns : runRanks = (List.range' 1 14).map slotRank := rfl
  rw [hruns, List.infix_map_iff]
  constructor
  · rintro ⟨slots, ⟨before, after, hslots⟩, rfl⟩
    rw [List.append_assoc] at hslots
    obtain ⟨k, hk, -, hrest⟩ := List.range'_eq_append_iff.1 hslots.symm
    obtain ⟨len, hlen, rfl, -⟩ := List.range'_eq_append_iff.1 hrest.symm
    refine ⟨1 + k * 1, by omega, ?_, ?_⟩
    · rw [List.length_map, List.length_range']
      omega
    · rw [List.length_map, List.length_range', window]
  · rintro ⟨start, h1, h15, hrun⟩
    obtain ⟨before, rfl⟩ := Nat.exists_eq_add_of_le h1
    obtain ⟨after, hafter⟩ := Nat.exists_eq_add_of_le h15
    refine ⟨List.range' (1 + before) run.length, ⟨List.range' 1 before,
      List.range' (1 + before + run.length) after, ?_⟩, hrun⟩
    rw [List.append_assoc, List.range'_append_1, List.range'_append_1]
    congr 1
    omega

theorem exists_filled_run (need len : Nat) (hpos : 0 < len) :
    (∃ filled run, Filled ctx cards filled ∧ run <:+: runRanks ∧ run.length = len ∧
      (ranks filled).Perm (run.flatMap (List.replicate need))) ↔
      cards.length = len * need ∧ ∃ start, FitsRun (plain cards ctx) need len start := by
  constructor
  · rintro ⟨filled, run, hfilled, hrun, rfl, hperm⟩
    obtain ⟨start, h1, h15, hwindow⟩ := (infix_runRanks_iff (List.length_pos_iff.1 hpos)).1 hrun
    obtain ⟨hlen, hsub, -⟩ := exists_filled_iff.1 ⟨filled, hfilled, hperm⟩
    rw [Filling.length_copies] at hlen
    refine ⟨hlen, start, h1, h15, ?_⟩
    rwa [runTarget, ← hwindow]
  · rintro ⟨hlen, start, h1, h15, hsub⟩
    have hnone : ∀ r, isJoker r = true →
        (ranks (plain cards ctx)).count r = (runTarget need len start).count r := by
      intro r hr
      have htarget : (runTarget need len start).count r = 0 := by
        rw [List.count_eq_zero]
        intro hmem
        rw [not_joker_of_mem_runTarget hmem] at hr
        exact Bool.false_ne_true hr
      have := hsub.count_le r
      omega
    obtain ⟨filled, hfilled, hperm⟩ := exists_filled_iff.2
      ⟨hlen.trans (length_runTarget need len start).symm, hsub, hnone⟩
    have hwindow : (window start len).length = len := by rw [window, List.length_map, List.length_range']
    refine ⟨filled, window start len, hfilled, ?_, hwindow, hperm⟩
    rw [infix_runRanks_iff (List.length_pos_iff.1 (by omega)), hwindow]
    exact ⟨start, h1, h15, rfl⟩

/-- Cards of few ranks. -/
theorem length_present_le {N : List Card} (rs : List Rank) (h : ∀ card ∈ N, card.rank ∈ rs) :
    (present N).length ≤ rs.length := by
  have hsub : present N ⊆ rs.map rankValue := by
    intro v hv
    obtain ⟨card, hcard, rfl⟩ := mem_present.1 hv
    exact List.mem_map_of_mem (h card hcard)
  have := ((nodup_present N).subperm hsub).length_le
  rwa [List.length_map] at this

theorem rank_eq_of_oneRank {N : List Card} (hone : (present N).length ≤ 1) {a b : Card} (ha : a ∈ N)
    (hb : b ∈ N) : a.rank = b.rank := by
  have hva := mem_present.2 ⟨a, ha, rfl⟩
  have hvb := mem_present.2 ⟨b, hb, rfl⟩
  apply rankValue_injective
  rcases hpresent : present N with _ | ⟨v, _ | ⟨u, vs⟩⟩
  · rw [hpresent] at hva
    exact absurd hva (List.not_mem_nil)
  · rw [hpresent, List.mem_singleton] at hva hvb
    rw [hva, hvb]
  · rw [hpresent] at hone
    simp at hone

theorem ranks_eq_replicate {N : List Card} {r : Rank} (h : ∀ card ∈ N, card.rank = r) :
    ranks N = List.replicate N.length r := by
  rw [List.eq_replicate_iff, ranks, List.length_map]
  refine ⟨rfl, fun s hs => ?_⟩
  obtain ⟨card, hcard, rfl⟩ := List.mem_map.1 hs
  exact h card hcard

theorem exists_filled_oneRank :
    (∃ filled r, Filled ctx cards filled ∧ (ranks filled).Perm (List.replicate cards.length r)) ↔
      (present (plain cards ctx)).length ≤ 1 ∧
        (cards.countP ctx.isWildCard = 0 ∨ ∀ card ∈ plain cards ctx, isJoker card.rank = false) := by
  have htotal := plain_add_wild cards ctx
  constructor
  · rintro ⟨filled, r, hfilled, hperm⟩
    obtain ⟨-, hsub, hjokers⟩ := exists_filled_iff.1 ⟨filled, hfilled, hperm⟩
    have hall : ∀ card ∈ plain cards ctx, card.rank = r := fun card hcard =>
      List.eq_of_mem_replicate (hsub.subset (List.mem_map_of_mem hcard))
    refine ⟨length_present_le [r] fun card hcard => List.mem_singleton.2 (hall card hcard), ?_⟩
    by_cases hr : isJoker r = true
    · left
      have hcount := hjokers r hr
      rw [ranks_eq_replicate hall, List.count_replicate_self, List.count_replicate_self] at hcount
      omega
    · right
      intro card hcard
      rw [hall card hcard]
      exact Bool.eq_false_of_not_eq_true hr
  · rintro ⟨hone, hjokers⟩
    obtain ⟨r, hr, hnone⟩ : ∃ r, (∀ card ∈ plain cards ctx, card.rank = r) ∧
        (isJoker r = true → cards.countP ctx.isWildCard = 0) := by
      rcases hplain : plain cards ctx with _ | ⟨card, rest⟩
      · exact ⟨.a, nofun, nofun⟩
      · have hmem : card ∈ plain cards ctx := hplain ▸ List.mem_cons_self ..
        refine ⟨card.rank, fun other hother => ?_, fun hr => ?_⟩
        · exact rank_eq_of_oneRank hone (hplain ▸ hother) hmem
        · rcases hjokers with hzero | hjokers
          · exact hzero
          · rw [hjokers card hmem] at hr
            exact absurd hr Bool.false_ne_true
    have hranks := ranks_eq_replicate hr
    obtain ⟨filled, hfilled⟩ : ∃ filled, Filled ctx cards filled ∧
        (ranks filled).Perm (List.replicate cards.length r) := by
      rw [exists_filled_iff, hranks]
      refine ⟨List.length_replicate.symm, ?_, fun s hs => ?_⟩
      · exact ((List.replicate_sublist_replicate r).2 (by omega)).subperm
      · rw [List.count_replicate, List.count_replicate]
        split_ifs with hrs
        · rw [beq_iff_eq.1 hrs] at hnone
          have := hnone hs
          omega
        · rfl
    exact ⟨filled, r, hfilled⟩

/-- The plain cards are part of a triple `r` and a pair `s`, and no joker is missing. -/
structure FitsTriple (N : List Card) (r s : Rank) : Prop where
  ne : r ≠ s
  mem : ∀ card ∈ N, card.rank = r ∨ card.rank = s
  triple : (ranks N).count r ≤ 3
  pair : (ranks N).count s ≤ 2
  jokerTriple : isJoker r = true → (ranks N).count r = 3
  jokerPair : isJoker s = true → (ranks N).count s = 2

theorem count_triplePair {r s : Rank} (hne : r ≠ s) (t : Rank) :
    [r, r, r, s, s].count t = if r = t then 3 else if s = t then 2 else 0 := by
  by_cases hr : r = t
  · subst hr
    simp [hne.symm]
  · by_cases hs : s = t
    · subst hs
      simp [hne]
    · simp [hr, hs]

theorem exists_filled_triple {r s : Rank} (hne : r ≠ s) :
    (∃ filled, Filled ctx cards filled ∧ (ranks filled).Perm [r, r, r, s, s]) ↔
      cards.length = 5 ∧ FitsTriple (plain cards ctx) r s := by
  rw [exists_filled_iff, List.subperm_ext_iff]
  simp only [count_triplePair hne]
  refine and_congr_right' ?_
  constructor
  · rintro ⟨hle, hjokers⟩
    have hmem : ∀ card ∈ plain cards ctx, card.rank = r ∨ card.rank = s := by
      intro card hcard
      have hrank : card.rank ∈ ranks (plain cards ctx) := List.mem_map_of_mem hcard
      have hcount := hle _ hrank
      have hpos := List.count_pos_iff.2 hrank
      by_contra hother
      rw [not_or] at hother
      rw [if_neg (Ne.symm hother.1), if_neg (Ne.symm hother.2)] at hcount
      omega
    have hbound : ∀ t,
        (ranks (plain cards ctx)).count t ≤ if r = t then 3 else if s = t then 2 else 0 := by
      intro t
      by_cases ht : t ∈ ranks (plain cards ctx)
      · exact hle t ht
      · rw [List.count_eq_zero_of_not_mem ht]
        exact Nat.zero_le _
    refine ⟨hne, hmem, ?_, ?_, fun hr => ?_, fun hs => ?_⟩
    · simpa using hbound r
    · simpa [hne] using hbound s
    · simpa using hjokers r hr
    · simpa [hne] using hjokers s hs
  · intro hfits
    have hnone : ∀ t, r ≠ t → s ≠ t → (ranks (plain cards ctx)).count t = 0 := by
      intro t hr hs
      rw [List.count_eq_zero, ranks, List.mem_map]
      rintro ⟨card, hcard, rfl⟩
      rcases hfits.mem card hcard with h | h
      · exact hr h.symm
      · exact hs h.symm
    refine ⟨fun t _ => ?_, fun t ht => ?_⟩
    · split_ifs with hr hs
      · exact hr ▸ hfits.triple
      · exact hs ▸ hfits.pair
      · exact (hnone t hr hs).le
    · split_ifs with hr hs
      · subst hr
        exact hfits.jokerTriple ht
      · subst hs
        exact hfits.jokerPair ht
      · exact hnone t hr hs

/-! ### Hands that can be filled to a shape -/

/-- The plain cards fit a window of one of the three kinds of run. -/
def HasRun (cards : List Card) (ctx : RuleContext) : Prop :=
  (cards.length = 5 ∧ ∃ start, FitsRun (plain cards ctx) 1 5 start) ∨
    (cards.length = 6 ∧ ∃ start, FitsRun (plain cards ctx) 2 3 start) ∨
    (cards.length = 6 ∧ ∃ start, FitsRun (plain cards ctx) 3 2 start)

theorem Filled.length_eq {filled : List Card} (h : Filled ctx cards filled) :
    filled.length = cards.length :=
  (List.Forall₂.length_eq h).symm

/-- Jokers are never filled in. -/
theorem exists_filled_jokersOnly :
    (∃ filled, Filled ctx cards filled ∧ JokersOnly filled) ↔
      cards.countP ctx.isWildCard = 0 ∧ JokersOnly cards := by
  have hself : cards.countP ctx.isWildCard = 0 → ∀ filled, Filled ctx cards filled ↔ filled = cards := by
    intro hzero filled
    refine Filling.fills_iff_eq fun card hcard => ?_
    have := List.countP_eq_zero.1 hzero card hcard
    simpa using this
  constructor
  · rintro ⟨filled, hfilled, hjokers⟩
    obtain ⟨fill, hlen, hok, hperm⟩ := Filling.Fills.perm hfilled
    have hzero : cards.countP ctx.isWildCard = 0 := by
      rw [← hlen, List.length_eq_zero_iff, List.eq_nil_iff_forall_not_mem]
      intro card hcard
      have hjoker := hjokers.1 card (hperm.symm.subset (List.mem_append_right _ hcard))
      rw [(hok card hcard).2] at hjoker
      exact Bool.false_ne_true hjoker
    rw [(hself hzero filled).1 hfilled] at hjokers
    exact ⟨hzero, hjokers⟩
  · rintro ⟨hzero, hjokers⟩
    exact ⟨cards, (hself hzero cards).2 rfl, hjokers⟩

theorem shape_oneRank {filled : List Card} {r : Rank} (hpos : 0 < filled.length)
    (h : (ranks filled).Perm (List.replicate filled.length r)) : Shape filled := by
  obtain hlen | hlen | hlen | hlen :
      filled.length = 1 ∨ filled.length = 2 ∨ filled.length = 3 ∨ 4 ≤ filled.length := by omega
  · rw [hlen] at h
    exact .single r h
  · rw [hlen] at h
    exact .pair r h
  · rw [hlen] at h
    exact .triple r h
  · exact .bomb r _ hlen h

theorem copies_one (run : List Rank) : run.flatMap (List.replicate 1) = run :=
  List.flatMap_singleton' run

theorem exists_shape_iff :
    (∃ filled, Filled ctx cards filled ∧ Shape filled) ↔
      (cards.countP ctx.isWildCard = 0 ∧ JokersOnly cards) ∨
        (0 < cards.length ∧ (present (plain cards ctx)).length ≤ 1 ∧
          (cards.countP ctx.isWildCard = 0 ∨ ∀ card ∈ plain cards ctx, isJoker card.rank = false)) ∨
        (cards.length = 5 ∧ ∃ r s, FitsTriple (plain cards ctx) r s) ∨ HasRun cards ctx := by
  constructor
  · rintro ⟨filled, hfilled, hshape⟩
    have hone : ∀ {r n}, 0 < n → (ranks filled).Perm (List.replicate n r) →
        0 < cards.length ∧ (present (plain cards ctx)).length ≤ 1 ∧
          (cards.countP ctx.isWildCard = 0 ∨
            ∀ card ∈ plain cards ctx, isJoker card.rank = false) := by
      intro r n hpos hperm
      have hn : n = cards.length := by
        have := hperm.length_eq
        rw [ranks, List.length_map, List.length_replicate] at this
        rw [← this, hfilled.length_eq]
      subst hn
      exact ⟨hpos, exists_filled_oneRank.1 ⟨filled, r, hfilled, hperm⟩⟩
    cases hshape with
    | single r h => exact .inr (.inl (hone Nat.one_pos h))
    | pair r h => exact .inr (.inl (hone Nat.two_pos h))
    | triple r h => exact .inr (.inl (hone (Nat.succ_pos 2) h))
    | tripleWithPair r s hne h =>
      obtain ⟨h5, hfits⟩ := (exists_filled_triple hne).1 ⟨filled, hfilled, h⟩
      exact .inr (.inr (.inl ⟨h5, r, s, hfits⟩))
    | straight run hrun h5 h | straightFlush run suit hrun h5 h hsuit =>
      rw [← copies_one run] at h
      exact .inr (.inr (.inr (.inl ((exists_filled_run 1 5 (by decide)).1
        ⟨filled, run, hfilled, hrun, h5, h⟩))))
    | threePairs run hrun h3 h =>
      exact .inr (.inr (.inr (.inr (.inl ((exists_filled_run 2 3 (by decide)).1
        ⟨filled, run, hfilled, hrun, h3, h⟩)))))
    | twoTriples run hrun h2 h =>
      exact .inr (.inr (.inr (.inr (.inr ((exists_filled_run 3 2 (by decide)).1
        ⟨filled, run, hfilled, hrun, h2, h⟩)))))
    | bomb r count h4 h => exact .inr (.inl (hone (by omega) h))
    | jokers h => exact .inl (exists_filled_jokersOnly.1 ⟨filled, hfilled, h⟩)
  · rintro (hjokers | ⟨hpos, hone⟩ | ⟨h5, r, s, hfits⟩ | hrun)
    · obtain ⟨filled, hfilled, h⟩ := exists_filled_jokersOnly.2 hjokers
      exact ⟨filled, hfilled, .jokers h⟩
    · obtain ⟨filled, r, hfilled, h⟩ := exists_filled_oneRank.2 hone
      rw [← hfilled.length_eq] at hpos h
      exact ⟨filled, hfilled, shape_oneRank hpos h⟩
    · obtain ⟨filled, hfilled, h⟩ := (exists_filled_triple hfits.ne).2 ⟨h5, hfits⟩
      exact ⟨filled, hfilled, .tripleWithPair r s hfits.ne h⟩
    · rcases hrun with hrun | hrun | hrun
      · obtain ⟨filled, run, hfilled, hinfix, h5, h⟩ := (exists_filled_run 1 5 (by decide)).2 hrun
        rw [copies_one] at h
        exact ⟨filled, hfilled, .straight run hinfix h5 h⟩
      · obtain ⟨filled, run, hfilled, hinfix, h3, h⟩ := (exists_filled_run 2 3 (by decide)).2 hrun
        exact ⟨filled, hfilled, .threePairs run hinfix h3 h⟩
      · obtain ⟨filled, run, hfilled, hinfix, h2, h⟩ := (exists_filled_run 3 2 (by decide)).2 hrun
        exact ⟨filled, hfilled, .twoTriples run hinfix h2 h⟩

/-! ### Hands that are accepted -/

theorem valid_of_oneRank (hpos : 0 < cards.length) (hone : (present (plain cards ctx)).length ≤ 1) :
    (analyze cards ctx).isValid = true := by
  rw [valid_iff_exists_reads]
  by_cases hjokers : JokersOnly cards
  · exact ⟨_, .jokerBomb hjokers⟩
  obtain h1 | h2 | h3 | h4 :
      cards.length = 1 ∨ cards.length = 2 ∨ cards.length = 3 ∨ 4 ≤ cards.length := by omega
  · obtain ⟨card, hcard⟩ := List.length_eq_one_iff.1 h1
    exact ⟨_, .single card hcard⟩
  · exact ⟨_, .pair h2 hone⟩
  · exact ⟨_, .triple h3 hone⟩
  · exact ⟨_, .bomb hjokers h4 hone⟩

theorem valid_iff : (analyze cards ctx).isValid = true ↔
    JokersOnly cards ∨ (0 < cards.length ∧ (present (plain cards ctx)).length ≤ 1) ∨
      (cards.length = 5 ∧ ∃ r s, present (plain cards ctx) = [r, s] ∧
        (rankCount (plain cards ctx) r ≤ 3 ∧ rankCount (plain cards ctx) s ≤ 2 ∨
          rankCount (plain cards ctx) r ≤ 2 ∧ rankCount (plain cards ctx) s ≤ 3)) ∨
      HasRun cards ctx := by
  constructor
  · intro h
    obtain ⟨p, hp⟩ := valid_iff_exists_reads.1 h
    cases hp with
    | jokerBomb hjokers => exact .inl hjokers
    | bomb _ h4 hone => exact .inr (.inl ⟨by omega, hone⟩)
    | single card hcard =>
      subst hcard
      refine .inr (.inl ⟨Nat.one_pos, length_present_le [card.rank] fun other hother => ?_⟩)
      rw [List.mem_singleton.1 (List.mem_of_mem_filter hother)]
      exact List.mem_singleton_self _
    | pair h2 hone => exact .inr (.inl ⟨by omega, hone⟩)
    | triple h3 hone => exact .inr (.inl ⟨by omega, hone⟩)
    | lowTriple r s _ h5 htwo hr hs => exact .inr (.inr (.inl ⟨h5, r, s, htwo, .inl ⟨hr, hs⟩⟩))
    | highTriple r s _ h5 htwo hr hs =>
      exact .inr (.inr (.inl ⟨h5, r, s, htwo, .inr ⟨hr, hs.le⟩⟩))
    | straightFlush start h5 _ _ hlow | straight start h5 _ _ hlow =>
      exact .inr (.inr (.inr (.inl ⟨h5, start, hlow.1⟩)))
    | threePairs start h6 _ hlow => exact .inr (.inr (.inr (.inr (.inl ⟨h6, start, hlow.1⟩))))
    | twoTriples start h6 _ _ hlow => exact .inr (.inr (.inr (.inr (.inr ⟨h6, start, hlow.1⟩))))
  · by_cases hjokers : JokersOnly cards
    · exact fun _ => valid_iff_exists_reads.2 ⟨_, .jokerBomb hjokers⟩
    have htwo : ∀ r s, cards.length = 5 → present (plain cards ctx) = [r, s] →
        (rankCount (plain cards ctx) r ≤ 3 ∧ rankCount (plain cards ctx) s ≤ 2 ∨
          rankCount (plain cards ctx) r ≤ 2 ∧ rankCount (plain cards ctx) s ≤ 3) →
        (analyze cards ctx).isValid = true := by
      intro r s h5 htwo hcounts
      rw [valid_iff_exists_reads]
      by_cases hlow : rankCount (plain cards ctx) r ≤ 3 ∧ rankCount (plain cards ctx) s ≤ 2
      · exact ⟨_, .lowTriple r s hjokers h5 htwo hlow.1 hlow.2⟩
      · exact ⟨_, .highTriple r s hjokers h5 htwo (by omega) (by omega)⟩
    rintro (h | ⟨hpos, hone⟩ | ⟨h5, r, s, hpresent, hcounts⟩ | hrun)
    · exact absurd h hjokers
    · exact valid_of_oneRank hpos hone
    · exact htwo r s h5 hpresent hcounts
    by_cases hone : (present (plain cards ctx)).length ≤ 1
    · exact valid_of_oneRank (by rcases hrun with h | h | h <;> omega) hone
    rw [valid_iff_exists_reads]
    rcases hrun with ⟨h5, start, hfits⟩ | ⟨h6, start, hfits⟩ | ⟨h6, start, hfits⟩
    · by_cases hmany : 2 < (present (plain cards ctx)).length
      · obtain ⟨low, hlow⟩ := exists_lowestRun hfits
        by_cases hsuit : OneSuit (plain cards ctx)
        · exact ⟨_, .straightFlush low h5 hmany hsuit hlow⟩
        · exact ⟨_, .straight low h5 hmany hsuit hlow⟩
      · obtain ⟨r, s, hpresent⟩ := List.length_eq_two.1
          (show (present (plain cards ctx)).length = 2 by omega)
        have hle : ∀ v, rankCount (plain cards ctx) v ≤ 1 := fun v => hfits.rankCount_le (by decide)
        exact valid_iff_exists_reads.1 (htwo r s h5 hpresent
          (.inl ⟨(hle r).trans (by decide), (hle s).trans (by decide)⟩))
    · obtain ⟨low, hlow⟩ := exists_lowestRun hfits
      exact ⟨_, .threePairs low h6 (by omega) hlow⟩
    · by_cases hpairs : ∃ s, FitsRun (plain cards ctx) 2 3 s
      · obtain ⟨low, hlow⟩ := exists_lowestRun hpairs.choose_spec
        exact ⟨_, .threePairs low h6 (by omega) hlow⟩
      · obtain ⟨low, hlow⟩ := exists_lowestRun hfits
        exact ⟨_, .twoTriples low h6 (by omega) (not_exists.1 hpairs) hlow⟩

/-! ### Where the two agree -/

theorem count_add_count {N : List Card} {r s : Rank} (hne : r ≠ s)
    (hmem : ∀ card ∈ N, card.rank = r ∨ card.rank = s) :
    (ranks N).count r + (ranks N).count s = N.length := by
  induction N with
  | nil => rfl
  | cons card N ih =>
    have ih := ih fun other hother => hmem other (List.mem_cons_of_mem _ hother)
    simp only [ranks, List.map_cons, List.count_cons, List.length_cons] at ih ⊢
    rcases hmem card (List.mem_cons_self ..) with h | h
    · simp only [h, beq_self_eq_true, if_true, beq_iff_eq, hne, if_false]
      omega
    · simp only [h, beq_self_eq_true, if_true, beq_iff_eq, hne.symm, if_false]
      omega

theorem exists_two_ranks {N : List Card} {u v : Nat} (htwo : present N = [u, v]) :
    ∃ r s : Rank, r ≠ s ∧ rankValue r = u ∧ rankValue s = v ∧
      ∀ card ∈ N, card.rank = r ∨ card.rank = s := by
  have hu : u ∈ present N := htwo ▸ List.mem_cons_self ..
  have hv : v ∈ present N := htwo ▸ List.mem_cons_of_mem _ (List.mem_singleton_self _)
  have hne := htwo ▸ nodup_present N
  obtain ⟨first, -, rfl⟩ := mem_present.1 hu
  obtain ⟨second, -, rfl⟩ := mem_present.1 hv
  refine ⟨first.rank, second.rank, fun h => ?_, rfl, rfl, fun card hcard => ?_⟩
  · rw [h] at hne
    simp at hne
  · have := mem_present.2 ⟨card, hcard, rfl⟩
    rw [htwo, List.mem_pair] at this
    exact this.imp (rankValue_injective ·) (rankValue_injective ·)

/-- The ranks of the triple and the pair, in either order. -/
theorem FitsTriple.present_eq {N : List Card} {r s : Rank} (h : FitsTriple N r s)
    (hmany : 1 < (present N).length) :
    present N = [rankValue r, rankValue s] ∨ present N = [rankValue s, rankValue r] := by
  have hle := length_present_le [r, s] fun card hcard => by simpa using h.mem card hcard
  obtain ⟨u, v, huv⟩ := List.length_eq_two.1 (show (present N).length = 2 by
    simp only [List.length_cons, List.length_nil] at hle
    omega)
  obtain ⟨t, t', hne, rfl, rfl, -⟩ := exists_two_ranks huv
  have hmem : ∀ t, rankValue t ∈ present N → t = r ∨ t = s := by
    intro t ht
    obtain ⟨card, hcard, hrank⟩ := mem_present.1 ht
    rw [← rankValue_injective hrank]
    exact h.mem card hcard
  rcases hmem t (by simp [huv]) with rfl | rfl <;> rcases hmem t' (by simp [huv]) with rfl | rfl
  · exact absurd rfl hne
  · exact .inl huv
  · exact .inr huv
  · exact absurd rfl hne

theorem FitsTriple.twoRanks {N : List Card} {r s : Rank} (h : FitsTriple N r s) :
    (present N).length ≤ 1 ∨ ∃ u v, present N = [u, v] ∧
      (rankCount N u ≤ 3 ∧ rankCount N v ≤ 2 ∨ rankCount N u ≤ 2 ∧ rankCount N v ≤ 3) := by
  by_cases hone : (present N).length ≤ 1
  · exact .inl hone
  have htriple := count_ranks N r ▸ h.triple
  have hpair := count_ranks N s ▸ h.pair
  rcases h.present_eq (Nat.lt_of_not_le hone) with hpresent | hpresent
  · exact .inr ⟨_, _, hpresent, .inl ⟨htriple, hpair⟩⟩
  · exact .inr ⟨_, _, hpresent, .inr ⟨hpair, htriple⟩⟩

/-- Two ranks that make a triple and a pair, if no joker is missing. -/
theorem exists_fitsTriple {u v w : Nat} {N : List Card} (hlen : N.length + w = 5)
    (hjokers : w = 0 ∨ ∀ card ∈ N, isJoker card.rank = false) (htwo : present N = [u, v])
    (hcounts : rankCount N u ≤ 3 ∧ rankCount N v ≤ 2 ∨ rankCount N u ≤ 2 ∧ rankCount N v ≤ 3) :
    ∃ r s, FitsTriple N r s := by
  obtain ⟨r, s, hne, rfl, rfl, hmem⟩ := exists_two_ranks htwo
  have hsum := count_add_count hne hmem
  rw [← count_ranks, ← count_ranks] at hcounts
  have hjoker : ∀ t, rankValue t ∈ present N → isJoker t = true → w = 0 := by
    intro t ht hjoker
    rcases hjokers with hzero | hjokers
    · exact hzero
    · obtain ⟨card, hcard, hrank⟩ := mem_present.1 ht
      rw [← rankValue_injective hrank, hjokers card hcard] at hjoker
      exact absurd hjoker Bool.false_ne_true
  have hr := hjoker r (by simp [htwo])
  have hs := hjoker s (by simp [htwo])
  rcases hcounts with ⟨h3, h2⟩ | ⟨h2, h3⟩
  · exact ⟨r, s, hne, hmem, h3, h2, fun h => by have := hr h; omega, fun h => by have := hs h; omega⟩
  · exact ⟨s, r, hne.symm, fun card hcard => (hmem card hcard).symm, h3, h2,
      fun h => by have := hs h; omega, fun h => by have := hr h; omega⟩

/-- The plain jokers are two or three of one kind. -/
def JokersMakeGroup (N : List Card) : Prop :=
  ∃ joker, isJoker joker = true ∧ ((ranks N).count joker = 2 ∨ (ranks N).count joker = 3) ∧
    ∀ card ∈ N, isJoker card.rank = true → card.rank = joker

theorem fitsTriple_iff_jokers {N : List Card} {w : Nat} (hlen : N.length + w = 5) (hw : 0 < w)
    (hjoker : ∃ card ∈ N, isJoker card.rank = true) :
    (∃ r s, FitsTriple N r s) ↔ (present N).length ≤ 2 ∧ JokersMakeGroup N := by
  constructor
  · rintro ⟨r, s, h⟩
    have hle := length_present_le [r, s] fun card hcard => by simpa using h.mem card hcard
    refine ⟨hle, ?_⟩
    have hsum := count_add_count h.ne h.mem
    obtain ⟨card, hcard, hjoker⟩ := hjoker
    -- with both ranks jokers all five cards would be plain ones
    have honce : ¬ (isJoker r = true ∧ isJoker s = true) := by
      rintro ⟨hr, hs⟩
      have := h.jokerTriple hr
      have := h.jokerPair hs
      omega
    rcases h.mem card hcard with hr | hs
    · rw [hr] at hjoker
      refine ⟨r, hjoker, .inr (h.jokerTriple hjoker), fun other hother hother' => ?_⟩
      exact (h.mem other hother).resolve_right fun hs => honce ⟨hjoker, hs ▸ hother'⟩
    · rw [hs] at hjoker
      refine ⟨s, hjoker, .inl (h.jokerPair hjoker), fun other hother hother' => ?_⟩
      exact (h.mem other hother).resolve_left fun hr => honce ⟨hr ▸ hother', hjoker⟩
  · rintro ⟨htwo, joker, hjoker, hcount, hall⟩
    have hmem : joker ∈ ranks N := List.count_pos_iff.1 (by omega)
    obtain ⟨t, hne, ht, hranks⟩ : ∃ t, joker ≠ t ∧ isJoker t = false ∧
        ∀ card ∈ N, card.rank = joker ∨ card.rank = t := by
      obtain ⟨first, hfirst, rfl⟩ := List.mem_map.1 hmem
      by_cases hone : (present N).length ≤ 1
      · refine ⟨.a, fun h => ?_, rfl, fun card hcard => .inl (rank_eq_of_oneRank hone hcard hfirst)⟩
        rw [h] at hjoker
        exact absurd hjoker (by decide)
      obtain ⟨u, v, huv⟩ := List.length_eq_two.1 (show (present N).length = 2 by omega)
      obtain ⟨r, s, hne, rfl, rfl, hranks⟩ := exists_two_ranks huv
      have hplain : ∀ t, rankValue t ∈ present N → first.rank ≠ t → isJoker t = false := by
        intro t ht hne
        obtain ⟨card, hcard, hrank⟩ := mem_present.1 ht
        rw [← Bool.not_eq_true, ← rankValue_injective hrank]
        intro hcard'
        exact hne ((hall card hcard hcard').symm.trans (rankValue_injective hrank))
      rcases hranks first hfirst with h | h
      · exact ⟨s, h ▸ hne, hplain s (by simp [huv]) (h ▸ hne), h ▸ hranks⟩
      · exact ⟨r, h ▸ hne.symm, hplain r (by simp [huv]) (h ▸ hne.symm),
          fun card hcard => h ▸ (hranks card hcard).symm⟩
    have hsum := count_add_count hne hranks
    have hnone : ∀ n, isJoker t = true → (ranks N).count t = n := fun n h => by
      rw [ht] at h
      exact absurd h Bool.false_ne_true
    rcases hcount with h2 | h3
    · exact ⟨t, joker, hne.symm, fun card hcard => (hranks card hcard).symm, by omega, h2.le,
        hnone 3, fun _ => h2⟩
    · exact ⟨joker, t, hne, hranks, h3.le, by omega, fun _ => h3, hnone 2⟩

theorem twoRanks_iff {N : List Card} (hlen : N.length < 5) :
    (∃ u v, present N = [u, v] ∧
      (rankCount N u ≤ 3 ∧ rankCount N v ≤ 2 ∨ rankCount N u ≤ 2 ∧ rankCount N v ≤ 3)) ↔
      (present N).length = 2 := by
  constructor
  · rintro ⟨u, v, huv, -⟩
    rw [huv]
    rfl
  · intro htwo
    obtain ⟨u, v, huv⟩ := List.length_eq_two.1 htwo
    have hsum := sum_present N
    have hu := rankCount_pos.2 (mem_present.1 (huv ▸ List.mem_cons_self .. : u ∈ present N))
    have hv := rankCount_pos.2 (mem_present.1 (by simp [huv] : v ∈ present N))
    rw [huv] at hsum
    simp only [List.map_cons, List.map_nil, List.sum_cons, List.sum_nil] at hsum
    exact ⟨u, v, huv, by omega⟩

theorem HasRun.no_joker (h : HasRun cards ctx) : ∀ card ∈ plain cards ctx, isJoker card.rank = false := by
  rcases h with ⟨-, start, hfits⟩ | ⟨-, start, hfits⟩ | ⟨-, start, hfits⟩
  · exact hfits.no_joker
  · exact hfits.no_joker
  · exact hfits.no_joker

/-- No wild card is taken for a joker. -/
def JokersSettled (cards : List Card) (ctx : RuleContext) : Prop :=
  cards.countP ctx.isWildCard = 0 ∨ (∀ card ∈ plain cards ctx, isJoker card.rank = false) ∨
    2 < (present (plain cards ctx)).length ∨
    ((present (plain cards ctx)).length = 2 ∧ cards.length ≠ 5 ∧ ¬ JokersOnly cards) ∨
    (cards.length = 5 ∧ JokersMakeGroup (plain cards ctx))

theorem JokersOnly.length_present_le (h : JokersOnly cards) (ctx : RuleContext) :
    (present (plain cards ctx)).length ≤ 2 := by
  refine CardAnalyzer.length_present_le [.smallJoker, .bigJoker] fun card hcard => ?_
  have := h.1 card (List.mem_of_mem_filter hcard)
  simpa [isJoker] using this

/-- `analyze` accepts the hands that can be filled to a shape, and of the others exactly those in which a
wild card is taken for a joker. -/
theorem analyze_grammar (cards : List Card) (ctx : RuleContext) :
    ((analyze cards ctx).isValid = true ↔ ∃ filled, Filled ctx cards filled ∧ Shape filled) ↔
      JokersSettled cards ctx := by
  have htotal := plain_add_wild cards ctx
  rw [valid_iff, exists_shape_iff]
  by_cases hplain : cards.countP ctx.isWildCard = 0 ∨
      ∀ card ∈ plain cards ctx, isJoker card.rank = false
  · refine iff_of_true ⟨?_, ?_⟩ (hplain.imp_right .inl)
    · rintro (hjokers | ⟨hpos, hone⟩ | ⟨h5, u, v, htwo, hcounts⟩ | hrun)
      · refine .inl ⟨hplain.resolve_right fun hnone => ?_, hjokers⟩
        obtain ⟨card, hcard, hjoker⟩ := hjokers.plain_joker ctx
        rw [hnone card hcard] at hjoker
        exact Bool.false_ne_true hjoker
      · exact .inr (.inl ⟨hpos, hone, hplain⟩)
      · exact .inr (.inr (.inl ⟨h5, exists_fitsTriple (by omega) hplain htwo hcounts⟩))
      · exact .inr (.inr (.inr hrun))
    · rintro (⟨-, hjokers⟩ | ⟨hpos, hone, -⟩ | ⟨h5, r, s, hfits⟩ | hrun)
      · exact .inl hjokers
      · exact .inr (.inl ⟨hpos, hone⟩)
      · rcases hfits.twoRanks with hone | htwo
        · exact .inr (.inl ⟨by omega, hone⟩)
        · exact .inr (.inr (.inl ⟨h5, htwo⟩))
      · exact .inr (.inr (.inr hrun))
  · obtain ⟨hwild, hjoker⟩ := not_or.1 hplain
    have hnone : ¬ HasRun cards ctx := fun hrun => hjoker hrun.no_joker
    push Not at hjoker
    simp only [Bool.ne_false_iff] at hjoker
    have hpos : 0 < cards.length := by omega
    have htwo : (cards.length = 5 ∧ ∃ u v, present (plain cards ctx) = [u, v] ∧
        (rankCount (plain cards ctx) u ≤ 3 ∧ rankCount (plain cards ctx) v ≤ 2 ∨
          rankCount (plain cards ctx) u ≤ 2 ∧ rankCount (plain cards ctx) v ≤ 3)) ↔
        cards.length = 5 ∧ (present (plain cards ctx)).length = 2 :=
      and_congr_right fun h5 => twoRanks_iff (by omega)
    have hfits : (cards.length = 5 ∧ ∃ r s, FitsTriple (plain cards ctx) r s) ↔
        cards.length = 5 ∧ (present (plain cards ctx)).length ≤ 2 ∧
          JokersMakeGroup (plain cards ctx) :=
      and_congr_right fun h5 => fitsTriple_iff_jokers (htotal.trans h5) (by omega) hjoker
    have honly := fun h : JokersOnly cards => h.length_present_le ctx
    rw [htwo, hfits, JokersSettled]
    simp only [hwild, hnone, hpos, false_and, and_false, false_or, or_false, true_and,
      (not_or.1 hplain).2]
    -- what is left is about the number of ranks, the size and the two kinds of joker hands
    by_cases hjokers : JokersOnly cards
    · have htwo := honly hjokers
      simp only [hjokers, htwo, Nat.not_lt.2 htwo, not_true, true_or, true_iff, and_false, false_or,
        true_and]
    · by_cases hgroup : JokersMakeGroup (plain cards ctx)
      · simp only [hjokers, hgroup, not_false_iff, false_or, and_true]
        omega
      · simp only [hjokers, hgroup, not_false_iff, false_or, and_true, and_false, or_false, iff_false]
        omega

/-- A small joker and the wild card of level 2 are accepted as a pair of small jokers. -/
theorem joker_paired_with_wild :
    ¬ ((analyze [⟨52, .joker, .smallJoker⟩, ⟨13, .heart, .r2⟩] {}).isValid = true ↔
      ∃ filled, Filled {} [⟨52, .joker, .smallJoker⟩, ⟨13, .heart, .r2⟩] filled ∧ Shape filled) := by
  intro h
  have hshape := h.1 (by decide +kernel)
  rw [exists_shape_iff] at hshape
  rcases hshape with ⟨hwild, -⟩ | ⟨-, -, hwild | hjoker⟩ | ⟨h5, -⟩ | ⟨h5, -⟩ | ⟨h6, -⟩ | ⟨h6, -⟩
  · exact absurd hwild (by decide)
  · exact absurd hwild (by decide)
  · exact absurd (hjoker ⟨52, .joker, .smallJoker⟩ (by decide)) (by decide)
  all_goals contradiction

end CardAnalyzer

end Guandan
