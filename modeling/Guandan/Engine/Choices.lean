import Guandan.Game.Tribute
import Guandan.Library.Scan

/-!
# Which cards are chosen for tribute and return

The loops of `tribute.cpp` that look for the best card are scans for a first maximum or minimum
(`Scan.keep`). Card 0 of a deck is the two of spades (`ZeroCard`), and to the choosers its id is "no
card". The conditions under which they still come up with a card that is accepted are `CanTribute`
and `CanReturn`.
-/

namespace Guandan

/-- The card with id 0 is the two of spades. -/
def ZeroCard (cards : List Card) : Prop :=
  ∀ card ∈ cards, card.id = 0 → card.suit = .spade ∧ card.rank = .r2

namespace TributeManager

variable {cards : List Card} {ctx : RuleContext}

theorem two_le_rankValue (r : Rank) : 2 ≤ rankValue r := by cases r <;> decide

theorem rankValue_le (r : Rank) : rankValue r ≤ 16 := by cases r <;> decide

/-! ### Tribute -/

/-- A card other than a two can be given, or the first card that can be given is not card 0. -/
def CanTribute (ctx : RuleContext) (cards : List Card) : Prop :=
  (∃ card ∈ cards, isValidTributeCard card ctx = true ∧ card.rank ≠ .r2) ∨
    ∃ card, cards.find? (isValidTributeCard · ctx) = some card ∧ card.id ≠ 0

instance (ctx : RuleContext) (cards : List Card) : Decidable (CanTribute ctx cards) :=
  inferInstanceAs (Decidable ((∃ card ∈ cards, _ ∧ _) ∨ ∃ card, cards.find? _ = some card ∧ _))

theorem rankOrderForTribute_of_valid {card : Card} (h : isValidTributeCard card ctx = true) :
    rankOrderForTribute card ctx = rankValue card.rank := by
  have hwild : ctx.isWildCard card = false := by simpa [isValidTributeCard] using h
  unfold rankOrderForTribute
  rw [hwild]
  split <;> rfl

/-- The loop of `pickBestTributeCard` keeps the first card of greatest order. -/
theorem pickBestStep_eq (ctx : RuleContext) : pickBestStep ctx =
    Scan.keep (· < ·) (isValidTributeCard · ctx)
      (fun card => (rankOrderForTribute card ctx : Int)) (·.id) := by
  funext best card
  unfold pickBestStep Scan.keep
  by_cases hvalid : isValidTributeCard card ctx = true
  · simp [hvalid]
  · simp [hvalid]

/-- The best tribute card, or none where no card can be given. -/
theorem pickBest_cases (cards : List Card) (ctx : RuleContext) :
    ((cards.foldl (pickBestStep ctx) (0, -1)).1 = 0 ∧
      ∀ card ∈ cards, isValidTributeCard card ctx = false) ∨
    ∃ card, Scan.First (· < ·) (isValidTributeCard · ctx)
        (fun card => (rankOrderForTribute card ctx : Int)) cards card ∧
      (cards.foldl (pickBestStep ctx) (0, -1)).1 = card.id := by
  rw [pickBestStep_eq]
  rcases Scan.foldl_keep (r := (· < · : Int → Int → Prop)) (l := cards)
    (p := (isValidTributeCard · ctx)) (f := fun card => (rankOrderForTribute card ctx : Int))
    (v := (·.id)) ((0, -1) : CardId × Int) with ⟨hres, hnone⟩ | ⟨card, hfirst, -, hres⟩
  · refine .inl ⟨by rw [hres], fun card hcard => eq_false_of_ne_true fun hvalid => ?_⟩
    have hle := hnone card hcard hvalid
    dsimp only at hle
    omega
  · exact .inr ⟨card, hfirst, by rw [hres]⟩

theorem pickBest_mem (h : (cards.foldl (pickBestStep ctx) (0, -1)).1 ≠ 0) :
    (cards.foldl (pickBestStep ctx) (0, -1)).1 ∈ cards.map (·.id) := by
  rcases pickBest_cases cards ctx with ⟨hzero, -⟩ | ⟨card, hfirst, heq⟩
  · exact absurd hzero h
  · rw [heq]
    exact List.mem_map_of_mem hfirst.mem

/-- If the best card is a two, no card before it can be given. -/
theorem find?_of_best_two {best : Card} (h : Scan.First (· < ·) (isValidTributeCard · ctx)
    (fun card => (rankOrderForTribute card ctx : Int)) cards best) (hrank : best.rank = .r2) :
    cards.find? (isValidTributeCard · ctx) = some best := by
  have hbest := rankOrderForTribute_of_valid h.sat
  obtain ⟨hvalid, before, after, rfl, hbefore, -⟩ := h
  have hnone : before.find? (isValidTributeCard · ctx) = none := by
    refine List.find?_eq_none.2 fun other hother hother' => ?_
    have hlt : (rankOrderForTribute other ctx : Int) < rankOrderForTribute best ctx :=
      hbefore other hother hother'
    rw [hbest, hrank, rankOrderForTribute_of_valid hother'] at hlt
    have hle := two_le_rankValue other.rank
    have htwo : rankValue .r2 = 2 := rfl
    omega
  rw [List.find?_append, hnone, Option.none_or]
  exact List.find?_cons_of_pos hvalid

/-- A card is found, one whose id is not 0, exactly if the hand can give tribute. -/
theorem pickBest_ne_zero_iff (hz : ZeroCard cards) :
    (cards.foldl (pickBestStep ctx) (0, -1)).1 ≠ 0 ↔ CanTribute ctx cards := by
  rcases pickBest_cases cards ctx with ⟨hzero, hnone⟩ | ⟨best, hfirst, heq⟩
  · refine iff_of_false (not_not_intro hzero) ?_
    rintro (⟨card, hcard, hvalid, -⟩ | ⟨card, hfind, -⟩)
    · rw [hnone card hcard] at hvalid
      cases hvalid
    · have hvalid : isValidTributeCard card ctx = true := by simpa using List.find?_some hfind
      rw [hnone card (List.mem_of_find?_eq_some hfind)] at hvalid
      cases hvalid
  rw [heq]
  constructor
  · intro hne
    by_cases hrank : best.rank = .r2
    · exact .inr ⟨best, find?_of_best_two hfirst hrank, hne⟩
    · exact .inl ⟨best, hfirst.mem, hfirst.sat, hrank⟩
  · rintro (⟨card, hcard, hvalid, hrank⟩ | ⟨card, hfind, hne⟩) hzero
    · have hle : ¬ (rankOrderForTribute best ctx : Int) < rankOrderForTribute card ctx :=
        hfirst.best hcard hvalid
      rw [rankOrderForTribute_of_valid hfirst.sat, (hz best hfirst.mem hzero).2,
        rankOrderForTribute_of_valid hvalid] at hle
      refine hle ?_
      revert hrank
      cases card.rank <;> decide
    · rw [find?_of_best_two hfirst (hz best hfirst.mem hzero).2] at hfind
      cases hfind
      exact hne hzero

/-! ### Return -/

/-- Card 0 is not in the hand, or at the level of the twos the hand has a card that is neither of
the level nor a joker. -/
def CanReturn (ctx : RuleContext) (cards : List Card) : Prop :=
  (∀ card ∈ cards, card.id ≠ 0) ∨
    (ctx.currentLevel = 2 ∧
      ∃ card ∈ cards, ctx.isLevelCard card = false ∧ isJoker card.rank = false)

instance (ctx : RuleContext) (cards : List Card) : Decidable (CanReturn ctx cards) :=
  inferInstanceAs (Decidable (_ ∨ (_ ∧ _)))

/-- The choice of `pickSmallestCard`. -/
def smallestFrom (cards : List Card) (ctx : RuleContext) : CardId :=
  if minSingleEffectiveRank cards ctx = 0 then 0
  else match cards.find? (singleEffectiveRank · ctx == minSingleEffectiveRank cards ctx) with
    | some card => card.id
    | none => 0

/-- The choice of `pickReturnCard`. -/
def returnFrom (cards : List Card) (ctx : RuleContext) : CardId :=
  if (cards.foldl (pickReturnStep ctx) (0, 999)).1 ≠ 0 then
    (cards.foldl (pickReturnStep ctx) (0, 999)).1
  else smallestFrom cards ctx

theorem pickReturnCard_eq {s : GameState} {hand : Hand} (h : s.cardsFromIds hand.cards = some cards) :
    pickReturnCard hand s ctx = some (returnFrom cards ctx) := by
  unfold pickReturnCard pickBestReturnCard pickSmallestCard returnFrom smallestFrom
  rw [h]
  simp only [Option.bind_eq_bind, Option.bind_some, Option.pure_def]
  split_ifs
  · rfl
  · rfl
  · rcases cards.find? (singleEffectiveRank · ctx == minSingleEffectiveRank cards ctx) with
      _ | card <;> rfl

/-- The loop of `pickBestReturnCard` keeps the first card of least face. -/
theorem pickReturnStep_eq (ctx : RuleContext) : pickReturnStep ctx =
    Scan.keep (· > ·) (isValidReturnCard · ctx) (fun card => rankValue card.rank) (·.id) := by
  funext best card
  unfold pickReturnStep Scan.keep
  by_cases hvalid : isValidReturnCard card ctx = true
  · simp [hvalid]
  · simp [hvalid]

theorem pickReturn_cases (cards : List Card) (ctx : RuleContext) :
    ((cards.foldl (pickReturnStep ctx) (0, 999)).1 = 0 ∧
      cards.filter (isValidReturnCard · ctx) = []) ∨
    ∃ card ∈ cards, isValidReturnCard card ctx = true ∧
      (cards.foldl (pickReturnStep ctx) (0, 999)).1 = card.id := by
  rw [pickReturnStep_eq]
  rcases Scan.foldl_keep (r := (· > · : Nat → Nat → Prop)) (l := cards)
    (p := (isValidReturnCard · ctx)) (f := fun card => rankValue card.rank)
    (v := (·.id)) ((0, 999) : CardId × Nat) with ⟨hres, hnone⟩ | ⟨card, hfirst, -, hres⟩
  · refine .inl ⟨by rw [hres], List.filter_eq_nil_iff.2 fun card hcard hvalid => ?_⟩
    have hle := hnone card hcard hvalid
    have hmax := rankValue_le card.rank
    dsimp only at hle
    omega
  · exact .inr ⟨card, hfirst.mem, hfirst.sat, by rw [hres]⟩

theorem singleEffectiveRank_bounds (card : Card) (ctx : RuleContext) :
    2 ≤ singleEffectiveRank card ctx ∧ singleEffectiveRank card ctx ≤ 17 := by
  have hle := two_le_rankValue card.rank
  have hge := rankValue_le card.rank
  unfold singleEffectiveRank kSmallJokerPatternRank kBigJokerPatternRank kLevelCardPatternRank
  split_ifs <;> omega

/-- The least single is that of a card, and no card has a smaller one. -/
theorem minSingle_spec (ctx : RuleContext) (hne : cards ≠ []) :
    (∃ card ∈ cards, singleEffectiveRank card ctx = minSingleEffectiveRank cards ctx) ∧
      ∀ card ∈ cards, minSingleEffectiveRank cards ctx ≤ singleEffectiveRank card ctx := by
  have hfold : ∀ (l : List Card) (init : Nat),
      (l.foldl (fun best card => min best (singleEffectiveRank card ctx)) init = init ∨
        ∃ card ∈ l, singleEffectiveRank card ctx =
          l.foldl (fun best card => min best (singleEffectiveRank card ctx)) init) ∧
      l.foldl (fun best card => min best (singleEffectiveRank card ctx)) init ≤ init ∧
      ∀ card ∈ l, l.foldl (fun best card => min best (singleEffectiveRank card ctx)) init ≤
        singleEffectiveRank card ctx := by
    intro l
    induction l with
    | nil => exact fun init => ⟨.inl rfl, Nat.le_refl _, by simp⟩
    | cons card l ih =>
      intro init
      rw [List.foldl_cons]
      obtain ⟨hor, hle, hall⟩ := ih (min init (singleEffectiveRank card ctx))
      refine ⟨?_, hle.trans (Nat.min_le_left _ _), ?_⟩
      · rcases hor with heq | ⟨other, hother, heq⟩
        · rcases Nat.le_total init (singleEffectiveRank card ctx) with hmin | hmin
          · rw [Nat.min_eq_left hmin] at heq
            exact .inl (by rw [Nat.min_eq_left hmin, heq])
          · rw [Nat.min_eq_right hmin] at heq
            exact .inr ⟨card, List.mem_cons_self .., by rw [Nat.min_eq_right hmin, heq]⟩
        · exact .inr ⟨other, List.mem_cons_of_mem _ hother, heq⟩
      · rintro other (_ | ⟨_, hother⟩)
        · exact hle.trans (Nat.min_le_right _ _)
        · exact hall other hother
  obtain ⟨hor, -, hall⟩ := hfold cards 999
  obtain ⟨card, hcard⟩ := List.exists_mem_of_ne_nil cards hne
  have hbound := singleEffectiveRank_bounds card ctx
  have hle := hall card hcard
  unfold minSingleEffectiveRank
  dsimp only
  rw [if_neg (by omega)]
  refine ⟨hor.resolve_left (by omega), hall⟩

/-- Among the cards a hand may return without a low card, `smallestFrom` is one. -/
theorem smallestFrom_mem (hne : cards ≠ []) :
    smallestFrom cards ctx ∈ (cards.filter
      (singleEffectiveRank · ctx == minSingleEffectiveRank cards ctx)).map (·.id) := by
  obtain ⟨⟨card, hcard, heq⟩, -⟩ := minSingle_spec ctx hne
  have hbound := singleEffectiveRank_bounds card ctx
  have hsome : (cards.find?
      (singleEffectiveRank · ctx == minSingleEffectiveRank cards ctx)).isSome := by
    rw [List.find?_isSome]
    exact ⟨card, hcard, by simp [heq]⟩
  obtain ⟨found, hfound⟩ := Option.isSome_iff_exists.1 hsome
  unfold smallestFrom
  rw [if_neg (by omega), hfound]
  refine List.mem_map_of_mem (List.mem_filter.2 ⟨List.mem_of_find?_eq_some hfound, ?_⟩)
  simpa using List.find?_some hfound

/-- The cards a hand may return: the low ones or, without any, the smallest singles. -/
theorem returnable_cases (ctx : RuleContext) (hne : cards ≠ []) :
    (cards.filter (isValidReturnCard · ctx) ≠ [] ∧
      returnableCards cards ctx = (cards.filter (isValidReturnCard · ctx)).map (·.id)) ∨
    (cards.filter (isValidReturnCard · ctx) = [] ∧ returnableCards cards ctx = (cards.filter
      (singleEffectiveRank · ctx == minSingleEffectiveRank cards ctx)).map (·.id)) := by
  unfold returnableCards
  by_cases hnil : cards.filter (isValidReturnCard · ctx) = []
  · obtain ⟨⟨card, -, heq⟩, -⟩ := minSingle_spec ctx hne
    have hbound := singleEffectiveRank_bounds card ctx
    refine .inr ⟨hnil, ?_⟩
    simp only [hnil, List.isEmpty_nil, Bool.not_true, Bool.false_eq_true, if_false]
    rw [if_neg (by omega)]
  · refine .inl ⟨hnil, ?_⟩
    simp [hnil]

theorem returnable_subset {cardId : CardId} (h : cardId ∈ returnableCards cards ctx) :
    cardId ∈ cards.map (·.id) := by
  by_cases hne : cards = []
  · subst hne
    cases h
  · rcases returnable_cases ctx hne with ⟨-, heq⟩ | ⟨-, heq⟩
    · rw [heq] at h
      exact List.map_subset _ (List.filter_sublist (l := cards)).subset h
    · rw [heq] at h
      exact List.map_subset _ (List.filter_sublist (l := cards)).subset h

/-- A normal card: neither of the level nor a joker. -/
theorem singleEffectiveRank_normal {card : Card} (hlevel : ctx.isLevelCard card = false)
    (hjoker : isJoker card.rank = false) : singleEffectiveRank card ctx ≤ 14 := by
  unfold singleEffectiveRank
  rw [hlevel]
  revert hjoker
  cases card.rank <;> decide

theorem kLevelCardPatternRank_le {card : Card}
    (h : ctx.isLevelCard card = true ∨ isJoker card.rank = true) :
    kLevelCardPatternRank ≤ singleEffectiveRank card ctx := by
  unfold singleEffectiveRank
  by_cases hsmall : card.rank = .smallJoker
  · rw [if_pos hsmall]
    decide
  by_cases hbig : card.rank = .bigJoker
  · rw [if_neg hsmall, if_pos hbig]
    decide
  · have hjoker : isJoker card.rank = false := by simp [isJoker, hsmall, hbig]
    rw [if_neg hsmall, if_neg hbig, if_pos (h.resolve_right (by simp [hjoker]))]

theorem isValidReturnCard_iff {card : Card} : isValidReturnCard card ctx = true ↔
    ctx.isLevelCard card = false ∧ isJoker card.rank = false ∧ rankValue card.rank ≤ 10 := by
  have hten : rankValue .r10 = 10 := rfl
  unfold isValidReturnCard
  rw [hten]
  rcases ctx.isLevelCard card <;> rcases isJoker card.rank <;> simp

theorem isLevelCard_two {card : Card} (hrank : card.rank = .r2) :
    ctx.isLevelCard card = true ↔ ctx.currentLevel = 2 := by
  have htwo : rankValue .r2 = 2 := rfl
  have hjoker : isJoker .r2 = false := rfl
  rw [RuleContext.isLevelCard, hrank, hjoker, htwo, RuleContext.rawLevelRankValue,
    Bool.not_false, Bool.true_and, beq_iff_eq]
  exact eq_comm

/-- A low card is on offer. -/
theorem valid_returnable {card : Card} (hcard : card ∈ cards)
    (hvalid : isValidReturnCard card ctx = true) : card.id ∈ returnableCards cards ctx := by
  have hfilter : card ∈ cards.filter (isValidReturnCard · ctx) := List.mem_filter.2 ⟨hcard, hvalid⟩
  rcases returnable_cases ctx (List.ne_nil_of_mem hcard) with ⟨-, heq⟩ | ⟨hnil, -⟩
  · rw [heq]
    exact List.mem_map_of_mem hfilter
  · rw [hnil] at hfilter
    cases hfilter

/-- The card picked is one of those on offer. -/
theorem returnFrom_mem (hne : cards ≠ []) (hzero : 0 ∉ returnableCards cards ctx) :
    returnFrom cards ctx ≠ 0 ∧ returnFrom cards ctx ∈ returnableCards cards ctx := by
  suffices hmem : returnFrom cards ctx ∈ returnableCards cards ctx by
    refine ⟨fun heq => hzero ?_, hmem⟩
    rwa [heq] at hmem
  unfold returnFrom
  rcases pickReturn_cases cards ctx with ⟨hpick, hnil⟩ | ⟨card, hcard, hvalid, hpick⟩
  · rw [if_neg (not_not_intro hpick)]
    rcases returnable_cases ctx hne with ⟨hsome, -⟩ | ⟨-, heq⟩
    · exact absurd hnil hsome
    · rw [heq]
      exact smallestFrom_mem hne
  · have hmem := valid_returnable hcard hvalid
    rw [hpick, if_pos]
    · exact hmem
    · intro heq
      rw [heq] at hmem
      exact hzero hmem

/-- Unless the twos are of the level, card 0 is a low card. -/
theorem level_of_zero_not_returnable {zero : Card} (hmem : zero ∈ cards) (hid : zero.id = 0)
    (hrank : zero.rank = .r2) (hzero : 0 ∉ returnableCards cards ctx) : ctx.currentLevel = 2 := by
  by_contra hlevel
  have hvalid : isValidReturnCard zero ctx = true := by
    refine isValidReturnCard_iff.2 ⟨eq_false_of_ne_true fun h => ?_, ?_, ?_⟩
    · exact hlevel ((isLevelCard_two hrank).1 h)
    · rw [hrank]
      rfl
    · rw [hrank]
      decide
  exact hzero (hid ▸ valid_returnable hmem hvalid)

/-- Among level cards and jokers only, a two of the level is a smallest single. -/
theorem normal_of_zero_not_returnable {zero : Card} (hmem : zero ∈ cards) (hid : zero.id = 0)
    (hrank : zero.rank = .r2) (hlevel : ctx.currentLevel = 2)
    (hzero : 0 ∉ returnableCards cards ctx) :
    ∃ card ∈ cards, ctx.isLevelCard card = false ∧ isJoker card.rank = false := by
  have hne := List.ne_nil_of_mem hmem
  rcases returnable_cases ctx hne with ⟨hsome, -⟩ | ⟨-, heq⟩
  · obtain ⟨low, hlow⟩ := List.exists_mem_of_ne_nil _ hsome
    obtain ⟨hlow, hvalid⟩ := List.mem_filter.1 hlow
    obtain ⟨h1, h2, -⟩ := isValidReturnCard_iff.1 hvalid
    exact ⟨low, hlow, h1, h2⟩
  · by_contra hnone
    push Not at hnone
    obtain ⟨⟨least, hleast, hmin⟩, hmins⟩ := minSingle_spec ctx hne
    have hle : kLevelCardPatternRank ≤ singleEffectiveRank least ctx := by
      refine kLevelCardPatternRank_le ?_
      by_cases h : ctx.isLevelCard least = true
      · exact .inl h
      · exact .inr (by simpa using hnone least hleast (by simpa using h))
    have hsingle : singleEffectiveRank zero ctx = kLevelCardPatternRank := by
      unfold singleEffectiveRank
      rw [if_neg (by simp [hrank]), if_neg (by simp [hrank]), if_pos ((isLevelCard_two hrank).2 hlevel)]
    have hmins := hmins zero hmem
    refine hzero ?_
    rw [heq, ← hid]
    refine List.mem_map_of_mem (List.mem_filter.2 ⟨hmem, ?_⟩)
    rw [beq_iff_eq]
    omega

/-- Card 0 is not on offer exactly if the hand can make a return. -/
theorem zero_not_returnable_iff (hz : ZeroCard cards) (hne : cards ≠ []) :
    0 ∉ returnableCards cards ctx ↔ CanReturn ctx cards := by
  constructor
  · intro hzero
    by_cases hcards : ∀ card ∈ cards, card.id ≠ 0
    · exact .inl hcards
    push Not at hcards
    obtain ⟨zero, hmem, hid⟩ := hcards
    have hrank := (hz zero hmem hid).2
    have hlevel := level_of_zero_not_returnable hmem hid hrank hzero
    exact .inr ⟨hlevel, normal_of_zero_not_returnable hmem hid hrank hlevel hzero⟩
  · intro hcan hzero
    -- card 0 is on offer, so it is in the hand and the twos are of the level
    have hcard : ∃ zero ∈ cards, zero.id = 0 ∧ (isValidReturnCard zero ctx = true ∨
        singleEffectiveRank zero ctx = minSingleEffectiveRank cards ctx) := by
      rcases returnable_cases ctx hne with ⟨-, heq⟩ | ⟨-, heq⟩
      · rw [heq] at hzero
        obtain ⟨zero, hzero, hid⟩ := List.mem_map.1 hzero
        obtain ⟨hmem, hvalid⟩ := List.mem_filter.1 hzero
        exact ⟨zero, hmem, hid, .inl hvalid⟩
      · rw [heq] at hzero
        obtain ⟨zero, hzero, hid⟩ := List.mem_map.1 hzero
        obtain ⟨hmem, hmin⟩ := List.mem_filter.1 hzero
        exact ⟨zero, hmem, hid, .inr (by simpa using hmin)⟩
    obtain ⟨zero, hmem, hid, hor⟩ := hcard
    rcases hcan with hcards | ⟨hlevel, normal, hnormal, hno, hjoker⟩
    · exact hcards zero hmem hid
    have hzeroLevel := (isLevelCard_two (hz zero hmem hid).2).2 hlevel
    rcases hor with hvalid | hmin
    · rw [(isValidReturnCard_iff.1 hvalid).1] at hzeroLevel
      cases hzeroLevel
    · have hle := (minSingle_spec ctx hne).2 normal hnormal
      have hnormal' := singleEffectiveRank_normal hno hjoker
      have hlevel' := kLevelCardPatternRank_le (.inl hzeroLevel)
      have hfifteen : kLevelCardPatternRank = 15 := rfl
      omega

end TributeManager

end Guandan
