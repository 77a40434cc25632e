import Guandan.Game.CardAnalyzer
import Guandan.Library.Filling
import Mathlib.Algebra.BigOperators.Group.List.Basic

/-!
# What the recognisers look at

The recognisers see a hand as the number of its wild cards and the ranks of the others (`plain`). Each
of them is brought here to what it accepts in these terms. A window search accepts a hand of the right
size exactly if all plain cards lie in the window and no rank of it has too many of them (`FitsRun`):
the count of the wild cards used is then right by itself.
-/

namespace Guandan

namespace CardAnalyzer

/-- The cards that are not wild. -/
def plain (cards : List Card) (ctx : RuleContext) : List Card := cards.filter (!ctx.isWildCard ·)

def rankCount (cards : List Card) (v : Nat) : Nat := cards.countP fun card => rankValue card.rank == v

/-- The ranks there are, in ascending order. -/
def present (cards : List Card) : List Nat := (List.range 17).filter fun v => 0 < rankCount cards v

theorem rankValue_lt (r : Rank) : rankValue r < 17 := by cases r <;> decide

theorem rankValue_injective : Function.Injective rankValue := by
  intro r s h
  cases r <;> cases s <;> first | rfl | cases h

theorem isJoker_iff (r : Rank) : isJoker r = true ↔ 15 ≤ rankValue r := by cases r <;> decide

section Counts

variable {cards N : List Card} {ctx : RuleContext} {v : Nat}

theorem rankCount_pos : 0 < rankCount N v ↔ ∃ card ∈ N, rankValue card.rank = v := by
  simp [rankCount, List.countP_pos_iff]

theorem mem_present : v ∈ present N ↔ ∃ card ∈ N, rankValue card.rank = v := by
  rw [present, List.mem_filter, List.mem_range, decide_eq_true_eq, rankCount_pos]
  constructor
  · exact And.right
  · rintro ⟨card, hcard, rfl⟩
    exact ⟨rankValue_lt _, card, hcard, rfl⟩

theorem sorted_present (N : List Card) : (present N).Pairwise (· < ·) :=
  List.pairwise_lt_range.filter _

theorem nodup_present (N : List Card) : (present N).Nodup := (sorted_present N).imp Nat.ne_of_lt

theorem rankCount_eq_count (N : List Card) (v : Nat) :
    rankCount N v = (N.map fun card => rankValue card.rank).count v := by
  rw [rankCount, List.count, List.countP_map]
  rfl

theorem sum_present (N : List Card) : ((present N).map (rankCount N)).sum = N.length := by
  rw [funext (rankCount_eq_count N), Filling.sum_count (nodup_present N), List.countP_eq_length.2,
    List.length_map]
  rintro v hv
  obtain ⟨card, hcard, rfl⟩ := List.mem_map.1 hv
  exact decide_eq_true (mem_present.2 ⟨card, hcard, rfl⟩)

theorem plain_add_wild (cards : List Card) (ctx : RuleContext) :
    (plain cards ctx).length + cards.countP ctx.isWildCard = cards.length := by
  rw [plain, ← List.countP_eq_length_filter, List.length_eq_countP_add_countP ctx.isWildCard,
    Nat.add_comm]
  simp

theorem groupByRank_eq (cards : List Card) (ctx : RuleContext) :
    groupByRank cards ctx =
      (if 0 < cards.countP ctx.isWildCard then [{ count := cards.countP ctx.isWildCard }] else []) ++
        (present (plain cards ctx)).map fun v =>
          { rank := some v, count := rankCount (plain cards ctx) v } := by
  have hcount : ∀ v, (cards.countP fun card => !ctx.isWildCard card && rankValue card.rank == v) =
      rankCount (plain cards ctx) v := by
    intro v
    rw [rankCount, plain, List.countP_filter]
    simp only [Bool.and_comm]
  unfold groupByRank present
  simp only [hcount, ← List.filterMap_eq_map', List.filterMap_filter, decide_eq_true_eq]
  split_ifs <;> rfl

theorem normalGroups_groupByRank (cards : List Card) (ctx : RuleContext) :
    normalGroups (groupByRank cards ctx) = (present (plain cards ctx)).map fun v =>
      (v, rankCount (plain cards ctx) v) := by
  rw [groupByRank_eq]
  unfold normalGroups
  split_ifs <;> simp [List.filterMap_map]

theorem totalWild_groupByRank (start : Nat) (cards : List Card) (ctx : RuleContext) :
    totalWild start (groupByRank cards ctx) =
      if 0 < cards.countP ctx.isWildCard then cards.countP ctx.isWildCard else start := by
  have hrest : ∀ (vs : List Nat) (s : Nat),
      totalWild s (vs.map fun v => ⟨some v, rankCount (plain cards ctx) v⟩) = s := by
    intro vs
    induction vs with
    | nil => exact fun _ => rfl
    | cons v vs ih => exact fun s => ih s
  rw [groupByRank_eq]
  split_ifs
  · exact hrest _ _
  · exact hrest _ _

theorem lookup_normal (v : Nat) :
    (((present N).map fun u => (u, rankCount N u)).lookup v).getD 0 = rankCount N v := by
  have hlookup : ∀ us : List Nat, ((us.map fun u => (u, rankCount N u)).lookup v).getD 0 =
      if v ∈ us then rankCount N v else 0 := by
    intro us
    induction us with
    | nil => rfl
    | cons u us ih =>
      rw [List.map_cons, List.lookup_cons]
      by_cases hu : v = u
      · subst hu
        simp
      · rw [beq_false_of_ne hu, ih]
        simp [hu]
  rw [hlookup]
  split_ifs with hv
  · rfl
  · rw [mem_present, ← rankCount_pos] at hv
    omega

end Counts

/-! ### Bombs, pairs and triples -/

/-- The rank of plain cards of one rank; the level if there are none. -/
def onlyRank (N : List Card) (ctx : RuleContext) : Nat :=
  (present N).head?.getD ctx.rawLevelRankValue

section OneRank

variable {cards : List Card} {ctx : RuleContext}

theorem totalWild_zero (cards : List Card) (ctx : RuleContext) :
    totalWild 0 (groupByRank cards ctx) = cards.countP ctx.isWildCard := by
  rw [totalWild_groupByRank]
  split_ifs with h
  · rfl
  · exact (Nat.eq_zero_of_not_pos h).symm

theorem analyzeBomb_eq (cards : List Card) (ctx : RuleContext) :
    analyzeBomb cards (groupByRank cards ctx) cards.length ctx =
      if 4 ≤ cards.length ∧ (present (plain cards ctx)).length ≤ 1 then
        { type := .bomb, primaryRank := if cards.all ctx.isLevelCard then kLevelCardPatternRank
            else onlyRank (plain cards ctx) ctx, length := cards.length, isValid := true }
      else .none := by
  have htotal := plain_add_wild cards ctx
  have hsum := sum_present (plain cards ctx)
  unfold analyzeBomb onlyRank
  rw [totalWild_zero, normalGroups_groupByRank]
  generalize present (plain cards ctx) = vs at hsum ⊢
  rcases vs with _ | ⟨v, _ | ⟨u, vs⟩⟩
  · have hcount : cards.countP ctx.isWildCard = cards.length := by simp at hsum; omega
    by_cases h4 : cards.length < 4
    · simp [h4]
    · simp [h4, hcount, Nat.not_lt.1 h4]
  · have hcount : rankCount (plain cards ctx) v + cards.countP ctx.isWildCard = cards.length := by
      simp at hsum; omega
    by_cases h4 : cards.length < 4
    · simp [h4]
    · simp [h4, hcount, Nat.not_lt.1 h4]
  · simp

theorem analyzeSameRank_eq (type : CardType) (cards : List Card) (ctx : RuleContext) :
    analyzeSameRank type cards.length (groupByRank cards ctx)
        (totalWild 0 (groupByRank cards ctx)) ctx =
      if (present (plain cards ctx)).length ≤ 1 then
        { type := type, primaryRank := patternRankForLevelCard (onlyRank (plain cards ctx) ctx) ctx,
          length := cards.length, isValid := true }
      else .none := by
  have htotal := plain_add_wild cards ctx
  have hsum := sum_present (plain cards ctx)
  have hwild : totalWild (totalWild 0 (groupByRank cards ctx)) (groupByRank cards ctx) =
      cards.countP ctx.isWildCard := by
    rw [totalWild_groupByRank, totalWild_zero, ite_self]
  unfold analyzeSameRank onlyRank
  rw [hwild, normalGroups_groupByRank]
  generalize present (plain cards ctx) = vs at hsum ⊢
  rcases vs with _ | ⟨v, _ | ⟨u, vs⟩⟩
  · have hcount : cards.countP ctx.isWildCard = cards.length := by simp at hsum; omega
    simp [hcount]
  · have hcount : rankCount (plain cards ctx) v + cards.countP ctx.isWildCard = cards.length := by
      simp at hsum; omega
    simp [hcount]
  · simp

/-! ### A triple with a pair -/

theorem analyzeTripleWithPair_none {wildCount : Nat} (h : 2 < (present (plain cards ctx)).length) :
    analyzeTripleWithPair (groupByRank cards ctx) wildCount ctx = .none := by
  unfold analyzeTripleWithPair
  simp only [normalGroups_groupByRank, List.length_map, if_pos h]

theorem searchTripleWithPair_two {r s c d w : Nat} (hwild : c + d + w = 5) (ctx : RuleContext) :
    searchTripleWithPair [(r, c), (s, d)] w ctx =
      if c ≤ 3 ∧ d ≤ 2 then some (tripleWithPair (r, c) (s, d) ctx)
      else if c ≤ 2 ∧ d ≤ 3 then some (tripleWithPair (s, d) (r, c) ctx)
      else none := by
  have hfill : ∀ {c d : Nat} (p : CardPattern), c + d + w = 5 →
      (if w < 3 - c then none
        else if w - (3 - c) < 2 - d then none else if d + (2 - d) = 2 then some p else none) =
      if c ≤ 3 ∧ d ≤ 2 then some p else none := by
    intro c d p hwild
    by_cases h : c ≤ 3 ∧ d ≤ 2
    · rw [if_neg (by omega), if_neg (by omega), if_pos (by omega), if_pos h]
    · rw [if_neg h]
      split_ifs <;> first | rfl | omega
  have hsearch : searchTripleWithPair [(r, c), (s, d)] w ctx =
      (if w < 3 - c then none else if w - (3 - c) < 2 - d then none
        else if d + (2 - d) = 2 then some (tripleWithPair (r, c) (s, d) ctx) else none).or
      (if w < 3 - d then none else if w - (3 - d) < 2 - c then none
        else if c + (2 - c) = 2 then some (tripleWithPair (s, d) (r, c) ctx) else none) := by
    simp only [searchTripleWithPair, List.zipIdx_cons, List.zipIdx_nil, List.findSome?_cons,
      List.findSome?_nil]
    split_ifs <;> first | rfl | contradiction
  rw [hsearch, hfill _ hwild, hfill _ (by omega)]
  simp only [and_comm (a := d ≤ 3)]
  split_ifs <;> rfl

/-- Two ranks: the lower one is the triple if that is possible. -/
theorem analyzeTripleWithPair_eq {r s wildCount : Nat} (h5 : cards.length = 5)
    (hpresent : present (plain cards ctx) = [r, s]) :
    analyzeTripleWithPair (groupByRank cards ctx) wildCount ctx =
      if rankCount (plain cards ctx) r ≤ 3 ∧ rankCount (plain cards ctx) s ≤ 2 then
        tripleWithPair (r, rankCount (plain cards ctx) r) (s, rankCount (plain cards ctx) s) ctx
      else if rankCount (plain cards ctx) r ≤ 2 ∧ rankCount (plain cards ctx) s ≤ 3 then
        tripleWithPair (s, rankCount (plain cards ctx) s) (r, rankCount (plain cards ctx) r) ctx
      else .none := by
  have htotal := plain_add_wild cards ctx
  have hsum := sum_present (plain cards ctx)
  rw [hpresent] at hsum
  have hwild : rankCount (plain cards ctx) r + rankCount (plain cards ctx) s +
      cards.countP ctx.isWildCard = 5 := by
    simp at hsum
    omega
  unfold analyzeTripleWithPair
  simp only [normalGroups_groupByRank, hpresent, totalWild_zero, List.map_cons, List.map_nil,
    searchTripleWithPair_two hwild]
  generalize rankCount (plain cards ctx) r = c at *
  generalize rankCount (plain cards ctx) s = d at *
  generalize cards.countP ctx.isWildCard = w at *
  rw [if_neg (by simp)]
  by_cases hlow : c ≤ 3 ∧ d ≤ 2
  · rw [if_pos hlow, if_pos hlow]
  rw [if_neg hlow, if_neg hlow]
  by_cases hhigh : c ≤ 2 ∧ d ≤ 3
  · rw [if_pos hhigh, if_pos hhigh]
  -- the second loop asks for more wild cards than there are
  rw [if_neg hhigh, if_neg hhigh]
  dsimp only
  split_ifs <;> first | rfl | (dsimp only at *; omega)

end OneRank

/-! ### Runs -/

/-- The ranks in the order of a run; the ace stands at both ends. -/
def runRanks : List Rank :=
  [.a, .r2, .r3, .r4, .r5, .r6, .r7, .r8, .r9, .r10, .j, .q, .k, .a]

def slotRank (slot : Nat) : Rank := runRanks.getD (slot - 1) .a

/-- The ranks of a window of `len` slots. -/
def window (start len : Nat) : List Rank := (List.range' start len).map slotRank

/-- `need` cards of each rank of a window. -/
def runTarget (need len start : Nat) : List Rank := (window start len).flatMap (List.replicate need)

def ranks (N : List Card) : List Rank := N.map (·.rank)

/-- The window lies in the run, and the cards are part of `need` cards of each of its ranks. -/
def FitsRun (N : List Card) (need len start : Nat) : Prop :=
  1 ≤ start ∧ start + len ≤ 15 ∧ (ranks N).Subperm (runTarget need len start)

theorem slot_toRankValue {slot : Nat} (h1 : 1 ≤ slot) (h14 : slot < 15) :
    straightSlotToRankValue slot = some (rankValue (slotRank slot)) := by
  revert slot
  decide

theorem not_joker_of_mem_runTarget {need len start : Nat} {r : Rank}
    (h : r ∈ runTarget need len start) : isJoker r = false := by
  obtain ⟨s, hs, hr⟩ := List.mem_flatMap.1 h
  rw [List.eq_of_mem_replicate hr]
  obtain ⟨slot, -, rfl⟩ := List.mem_map.1 hs
  have hrun : ∀ r ∈ runRanks, isJoker r = false := by decide
  rw [slotRank, List.getD_eq_getElem?_getD]
  rcases hget : runRanks[slot - 1]? with _ | r
  · rfl
  · exact hrun r (List.mem_of_getElem? hget)

theorem nodup_window {start len : Nat} (h1 : 1 ≤ start) (h15 : start + len ≤ 15) (h5 : len ≤ 5) :
    (window start len).Nodup := by
  have : ∀ start < 16, ∀ len ≤ 5, 1 ≤ start → start + len ≤ 15 → (window start len).Nodup := by
    decide
  exact this start (by omega) len h5 h1 h15

theorem length_runTarget (need len start : Nat) : (runTarget need len start).length = len * need := by
  rw [runTarget, Filling.length_copies, window, List.length_map, List.length_range']

theorem count_ranks (N : List Card) (r : Rank) : (ranks N).count r = rankCount N (rankValue r) := by
  rw [ranks, List.count, List.countP_map, rankCount]
  refine List.countP_congr fun card _ => ?_
  simp only [Function.comp_apply, beq_iff_eq]
  exact rankValue_injective.eq_iff.symm

section Windows

variable {N : List Card} {need len start w : Nat}

theorem windowWild_eq (h1 : 1 ≤ start) (h15 : start + len ≤ 15) :
    windowWild ((present N).map fun v => (v, rankCount N v)) need len start =
      if ∀ r ∈ window start len, (ranks N).count r ≤ need then
        some ((window start len).map fun r => need - (ranks N).count r).sum
      else none := by
  have hfold : ∀ (is : List Nat) (used : Nat), (∀ i ∈ is, start + i < 15) →
      (is.foldlM (fun used i => (straightSlotToRankValue (start + i)).bind fun rv =>
        if need < rankCount N rv then none else some (used + (need - rankCount N rv))) used) =
      if ∀ i ∈ is, (ranks N).count (slotRank (start + i)) ≤ need then
        some (used + (is.map fun i => need - (ranks N).count (slotRank (start + i))).sum)
      else none := by
    intro is
    induction is with
    | nil => exact fun used _ => by simp
    | cons i is ih =>
      intro used his
      have hi := his i (List.mem_cons_self ..)
      rw [List.foldlM_cons, slot_toRankValue (by omega) hi, Option.bind_some, ← count_ranks]
      by_cases hneed : need < (ranks N).count (slotRank (start + i))
      · rw [if_pos hneed, if_neg (fun hall => absurd (hall i (List.mem_cons_self ..)) (by omega))]
        rfl
      · rw [if_neg hneed, Option.bind_eq_bind, Option.bind_some,
          ih _ fun j hj => his j (List.mem_cons_of_mem _ hj)]
        simp only [List.forall_mem_cons, List.map_cons, List.sum_cons, Nat.not_lt.1 hneed, true_and,
          Nat.add_assoc]
  simp only [windowWild, lookup_normal, Option.bind_eq_bind]
  rw [hfold _ _ fun i hi => by have := List.mem_range.1 hi; omega]
  simp only [window, List.range'_eq_map_range, List.map_map, List.forall_mem_map, Nat.zero_add,
    Function.comp_def]

variable {cards : List Card} {ctx : RuleContext} {type : CardType} {maxStart : Nat}

/-- In a hand of the right size the wild cards used are counted right exactly if the plain cards fit. -/
theorem windowWild_le_iff (hlen : len ≤ 5) (h1 : 1 ≤ start) (h15 : start + len ≤ 15)
    (hw : N.length + w = len * need) :
    (∃ used, windowWild ((present N).map fun v => (v, rankCount N v)) need len start = some used ∧
      used ≤ w) ↔ FitsRun N need len start := by
  have hcards : (ranks N).length + w = (window start len).length * need := by
    rw [ranks, window, List.length_map, List.length_map, List.length_range', hw]
  have hsub := Filling.subperm_copies_iff (nodup_window h1 h15 hlen) hcards
  rw [windowWild_eq h1 h15, FitsRun, runTarget, hsub]
  split_ifs with hall
  · simp only [Option.some.injEq, exists_eq_left', true_and, h1, h15]
    exact ⟨fun h => ⟨hall, h⟩, And.right⟩
  · simp [hall]

theorem FitsRun.no_joker (h : FitsRun N need len start) : ∀ card ∈ N, isJoker card.rank = false :=
  fun _ hcard => not_joker_of_mem_runTarget (h.2.2.subset (List.mem_map_of_mem hcard))

/-- The pattern of a run that starts at `start`. -/
def runPattern (type : CardType) (len start : Nat) : CardPattern :=
  { type := type, primaryRank := start + len - 1, length := len, isValid := true }

theorem any_joker_iff :
    (((present N).map fun v => (v, rankCount N v)).any fun g => rankValue .smallJoker ≤ g.1) = true ↔
      ∃ card ∈ N, isJoker card.rank = true := by
  simp only [List.any_map, List.any_eq_true, Function.comp_apply, decide_eq_true_eq, isJoker_iff]
  constructor
  · rintro ⟨v, hv, hle⟩
    obtain ⟨card, hcard, rfl⟩ := mem_present.1 hv
    exact ⟨card, hcard, hle⟩
  · rintro ⟨card, hcard, hle⟩
    exact ⟨rankValue card.rank, mem_present.2 ⟨card, hcard, rfl⟩, hle⟩

/-- The windows are searched upwards: the lowest one that fits is taken. -/
theorem find?_lowest {fits : Nat → Bool} (hmax : maxStart + len = 15)
    (hiff : ∀ s, 1 ≤ s → s + len ≤ 15 → (fits s = true ↔ FitsRun N need len s)) :
    (List.range' 1 maxStart).find? fits = some start ↔
      FitsRun N need len start ∧ ∀ s < start, ¬ FitsRun N need len s := by
  rw [List.find?_range'_eq_some, List.mem_range'_1]
  constructor
  · rintro ⟨hfits, ⟨h1, hstart⟩, hlow⟩
    refine ⟨(hiff start h1 (by omega)).1 hfits, fun s hs hfit => ?_⟩
    have := hlow s hfit.1 hs
    rw [(hiff s hfit.1 hfit.2.1).2 hfit] at this
    exact absurd this (by decide)
  · rintro ⟨hfits, hlow⟩
    have hrange := hfits.2.1
    refine ⟨(hiff start hfits.1 hrange).2 hfits, ⟨hfits.1, by omega⟩, fun s h1 hs => ?_⟩
    rw [Bool.not_eq_true', ← Bool.not_eq_true, hiff s h1 (by omega)]
    exact hlow s hs

theorem found_pattern (type : CardType) (len : Nat) (found : Option Nat) :
    (match found with
      | some start => runPattern type len start
      | none => .none) = (found.map (runPattern type len)).getD .none := by
  rcases found with _ | start <;> rfl

/-- What the search of a hand of the right size gives. -/
theorem analyzeWindow_eq (ctx : RuleContext) (type : CardType) (hlen : len ≤ 5)
    (htotal : cards.length = len * need) :
    ∃ fits : Nat → Bool,
      (∀ s, 1 ≤ s → s + len ≤ 15 → (fits s = true ↔ FitsRun (plain cards ctx) need len s)) ∧
      analyzeWindow type (len * need) need len 1 maxStart (groupByRank cards ctx) cards.length =
        (((List.range' 1 maxStart).find? fits).map (runPattern type len)).getD .none := by
  have hw := (plain_add_wild cards ctx).trans htotal
  unfold analyzeWindow
  rw [if_neg (not_not_intro htotal), normalGroups_groupByRank, totalWild_zero, Nat.add_sub_cancel]
  by_cases hjoker : ∃ card ∈ plain cards ctx, isJoker card.rank = true
  · refine ⟨fun _ => false, fun s _ _ => ⟨nofun, fun hfits => ?_⟩, ?_⟩
    · obtain ⟨card, hcard, hjoker⟩ := hjoker
      rw [hfits.no_joker card hcard] at hjoker
      exact hjoker
    · dsimp only
      rw [if_pos (any_joker_iff.2 hjoker), List.find?_eq_none.2 fun _ _ => Bool.false_ne_true]
      rfl
  · dsimp only
    rw [if_neg (mt any_joker_iff.1 hjoker)]
    refine ⟨fun s => (windowWild ((present (plain cards ctx)).map fun v =>
      (v, rankCount (plain cards ctx) v)) need len s).any (· ≤ cards.countP ctx.isWildCard),
      fun s h1 h15 => ?_, ?_⟩
    · rw [← windowWild_le_iff hlen h1 h15 hw, Option.any_eq_true]
      simp only [decide_eq_true_eq]
    · refine (found_pattern _ _ _).trans ?_
      congr 3
      funext s
      generalize windowWild _ _ _ _ = used
      cases used <;> rfl

theorem analyzeWindow_of_fits (type : CardType) (need len maxStart : Nat) (hlen : len ≤ 5)
    (hmax : maxStart + len = 15) (htotal : cards.length = len * need)
    (hfits : FitsRun (plain cards ctx) need len start)
    (hlow : ∀ s < start, ¬ FitsRun (plain cards ctx) need len s) :
    analyzeWindow type (len * need) need len 1 maxStart (groupByRank cards ctx) cards.length =
      runPattern type len start := by
  obtain ⟨fits, hiff, heq⟩ := analyzeWindow_eq ctx type hlen htotal
  rw [heq, (find?_lowest hmax hiff).2 ⟨hfits, hlow⟩]
  rfl

theorem analyzeWindow_none (type : CardType) (need len maxStart : Nat) (hlen : len ≤ 5)
    (hmax : maxStart + len = 15)
    (hno : cards.length = len * need → ∀ start, ¬ FitsRun (plain cards ctx) need len start) :
    analyzeWindow type (len * need) need len 1 maxStart (groupByRank cards ctx) cards.length =
      .none := by
  by_cases htotal : cards.length = len * need
  · obtain ⟨fits, hiff, heq⟩ := analyzeWindow_eq ctx type hlen htotal
    rw [heq, List.find?_eq_none.2 fun s hs => ?_]
    · rfl
    · rw [List.mem_range'_1] at hs
      rw [hiff s hs.1 (by omega)]
      exact hno htotal s
  · unfold analyzeWindow
    rw [if_pos htotal]

theorem FitsRun.rankCount_le (h : FitsRun N need len start) (hlen : len ≤ 5) {v : Nat} :
    rankCount N v ≤ need := by
  by_cases hv : ∃ card ∈ N, rankValue card.rank = v
  · obtain ⟨card, -, rfl⟩ := hv
    have hle := h.2.2.count_le card.rank
    rw [runTarget, Filling.count_copies (nodup_window h.1 h.2.1 hlen), count_ranks] at hle
    split_ifs at hle <;> omega
  · rw [← rankCount_pos] at hv
    omega

/-! ### Straight flushes -/

def OneSuit (N : List Card) : Prop := ∀ a ∈ N, ∀ b ∈ N, a.suit = b.suit

theorem analyzeStraightFlush_of_fits (h5 : cards.length = 5) (hne : plain cards ctx ≠ [])
    (hsuit : OneSuit (plain cards ctx)) (hfits : FitsRun (plain cards ctx) 1 5 start)
    (hlow : ∀ s < start, ¬ FitsRun (plain cards ctx) 1 5 s) :
    analyzeStraightFlush cards ctx = runPattern .straightFlush 5 start := by
  have hstraight := analyzeWindow_of_fits .straight 1 5 10 (by decide) rfl h5 hfits hlow
  have hjoker : ¬ (plain cards ctx).any (isJoker ·.rank) = true := by
    rw [List.any_eq_true]
    rintro ⟨card, hcard, hjoker⟩
    rw [hfits.no_joker card hcard] at hjoker
    exact Bool.false_ne_true hjoker
  unfold plain at hne hsuit hjoker
  unfold analyzeStraightFlush
  rw [if_neg (not_not_intro h5)]
  dsimp only
  rw [if_neg hjoker]
  generalize cards.filter (!ctx.isWildCard ·) = N at *
  rcases N with _ | ⟨first, N⟩
  · exact absurd rfl hne
  · have hother : ¬ (first :: N).any (·.suit != first.suit) = true := by
      simp only [List.any_eq_true, bne_iff_ne, not_exists, not_and, not_not]
      exact fun card hcard => hsuit card hcard first (List.mem_cons_self ..)
    dsimp only
    rw [if_neg hother, analyzeStraight, hstraight]
    rfl

theorem analyzeStraightFlush_none
    (hno : cards.length = 5 → plain cards ctx ≠ [] → OneSuit (plain cards ctx) →
      ∀ start, ¬ FitsRun (plain cards ctx) 1 5 start) :
    analyzeStraightFlush cards ctx = .none := by
  unfold analyzeStraightFlush
  by_cases h5 : cards.length = 5
  · have hno := hno h5
    rw [if_neg (not_not_intro h5)]
    dsimp only
    by_cases hjoker : (cards.filter (!ctx.isWildCard ·)).any (isJoker ·.rank) = true
    · rw [if_pos hjoker]
    rw [if_neg hjoker]
    rcases hplain : plain cards ctx with _ | ⟨first, rest⟩
    · unfold plain at hplain
      rw [hplain]
    have hfilter : cards.filter (!ctx.isWildCard ·) = first :: rest := hplain
    rw [hfilter]
    dsimp only
    by_cases hother : (first :: rest).any (·.suit != first.suit) = true
    · rw [if_pos hother]
    have hsuit : OneSuit (plain cards ctx) := by
      have hfirst : ∀ card ∈ first :: rest, card.suit = first.suit := by simpa using hother
      intro a ha b hb
      rw [hfirst a (hplain ▸ ha), hfirst b (hplain ▸ hb)]
    rw [if_neg hother, analyzeStraight, analyzeWindow_none _ 1 5 10 (by decide) rfl
      fun _ => hno (hplain ▸ List.cons_ne_nil _ _) hsuit]
    rfl
  · rw [if_pos h5]

end Windows

end CardAnalyzer

end Guandan
