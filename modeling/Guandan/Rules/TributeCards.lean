import Guandan.Engine.Choices
import Guandan.Engine.TributePhase
import Guandan.Rules.GroupRanks

/-!
# The card that is demanded

`requiredTributeCard` compares faces. As single cards the level cards stand above the ace, and so the
card that is demanded is a strongest one only where no level card is passed over for a card of a
higher face.
-/

namespace Guandan

namespace TributeManager

open CardAnalyzer

variable {ctx : RuleContext} {cards : List Card}

/-- A card that can be given, and as a single none of those that can be given is stronger. -/
structure Strongest (ctx : RuleContext) (cards : List Card) (card : Card) : Prop where
  mem : card ∈ cards
  notWild : ctx.isWildCard card = false
  greatest : ∀ other ∈ cards, ctx.isWildCard other = false →
    singleEffectiveRank other ctx ≤ singleEffectiveRank card ctx
  unbeaten : ∀ other ∈ cards, ctx.isWildCard other = false → ¬ SingleBeats ctx other card

theorem strongest_iff {card : Card} :
    Strongest ctx cards card ↔ card ∈ cards ∧ ctx.isWildCard card = false ∧
      ∀ other ∈ cards, ctx.isWildCard other = false →
        singleEffectiveRank other ctx ≤ singleEffectiveRank card ctx := by
  refine ⟨fun h => ⟨h.mem, h.notWild, h.greatest⟩, fun ⟨hmem, hwild, hgreatest⟩ =>
    ⟨hmem, hwild, hgreatest, fun other hother hwild' hbeats => ?_⟩⟩
  exact Nat.not_lt.2 (hgreatest other hother hwild') ((singleBeats_iff other card).1 hbeats)

/-- No level card is passed over: there is none that can be given, or a joker can be given, or no
card that can be given has a face above the level. -/
def NoLevelPassedOver (ctx : RuleContext) (cards : List Card) : Prop :=
  (∀ card ∈ cards, ctx.isWildCard card = false → ctx.isLevelCard card = false) ∨
  (∃ card ∈ cards, ctx.isWildCard card = false ∧ isJoker card.rank = true) ∨
  ∀ card ∈ cards, ctx.isWildCard card = false → rankValue card.rank ≤ ctx.currentLevel

/-! ### Faces and singles -/

theorem isJoker_iff_rankValue (r : Rank) : isJoker r = true ↔ 15 ≤ rankValue r := by
  cases r <;> decide

theorem isLevelCard_iff {card : Card} : ctx.isLevelCard card = true ↔
    rankValue card.rank ≤ 14 ∧ rankValue card.rank = ctx.currentLevel := by
  have hjoker := isJoker_iff_rankValue card.rank
  rw [RuleContext.isLevelCard, RuleContext.rawLevelRankValue, Bool.and_eq_true, beq_iff_eq,
    Bool.not_eq_true', ← Bool.not_eq_true, hjoker, Nat.not_le, Nat.lt_succ_iff]

/-- What a single counts, by its face. -/
theorem singleEffectiveRank_cases (card : Card) (ctx : RuleContext) :
    15 ≤ rankValue card.rank ∧ singleEffectiveRank card ctx = rankValue card.rank + 1 ∨
    ctx.isLevelCard card = true ∧ singleEffectiveRank card ctx = 15 ∨
    ctx.isLevelCard card = false ∧ rankValue card.rank ≤ 14 ∧
      singleEffectiveRank card ctx = rankValue card.rank := by
  by_cases hjoker : isJoker card.rank = true
  · refine .inl ⟨(isJoker_iff_rankValue _).1 hjoker, ?_⟩
    rw [isJoker, Bool.or_eq_true, beq_iff_eq, beq_iff_eq] at hjoker
    unfold singleEffectiveRank
    rcases hjoker with h | h <;> rw [h] <;> rfl
  · have hsmall : card.rank ≠ .smallJoker := fun h => hjoker (by rw [h]; rfl)
    have hbig : card.rank ≠ .bigJoker := fun h => hjoker (by rw [h]; rfl)
    have hle : rankValue card.rank ≤ 14 := by
      rw [isJoker_iff_rankValue] at hjoker
      omega
    rw [singleEffectiveRank, if_neg hsmall, if_neg hbig]
    by_cases hlevel : ctx.isLevelCard card = true
    · exact .inr (.inl ⟨hlevel, if_pos hlevel⟩)
    · exact .inr (.inr ⟨eq_false_of_ne_true hlevel, hle, if_neg hlevel⟩)

/-- A card of greatest face is a strongest single exactly if no level card is passed over. -/
theorem greatest_iff {best : Card} (hmem : best ∈ cards) (hwild : ctx.isWildCard best = false)
    (hbest : ∀ other ∈ cards, ctx.isWildCard other = false →
      rankValue other.rank ≤ rankValue best.rank) :
    (∀ other ∈ cards, ctx.isWildCard other = false →
      singleEffectiveRank other ctx ≤ singleEffectiveRank best ctx) ↔ NoLevelPassedOver ctx cards := by
  have hface := singleEffectiveRank_cases best ctx
  constructor
  · intro hgreatest
    by_contra hpassed
    simp only [NoLevelPassedOver, not_or, not_forall, not_exists, not_and, Nat.not_le,
      Bool.not_eq_false] at hpassed
    obtain ⟨⟨level, hlevelMem, hlevelWild, hlevel⟩, hjoker, higher, hhigherMem, hhigherWild, hhigher⟩ :=
      hpassed
    -- the card of greatest face is no joker and not of the level
    have hnoJoker := mt (isJoker_iff_rankValue best.rank).2 (hjoker best hmem hwild)
    have hle := hgreatest level hlevelMem hlevelWild
    have habove := hbest higher hhigherMem hhigherWild
    have hlevelFace := isLevelCard_iff.1 hlevel
    have hsingle := singleEffectiveRank_cases level ctx
    rw [hlevel] at hsingle
    simp only [Bool.true_eq_false, false_and, or_false, true_and] at hsingle
    rcases hface with hface | ⟨hface, -⟩ | hface
    · omega
    · have heq := (isLevelCard_iff.1 hface).2
      omega
    · omega
  · intro hpassed other hother hotherWild
    have hle := hbest other hother hotherWild
    have hotherFace := singleEffectiveRank_cases other ctx
    rcases hpassed with hnone | ⟨joker, hjokerMem, hjokerWild, hjoker⟩ | hlow
    · have h1 := hnone best hmem hwild
      have h2 := hnone other hother hotherWild
      rw [h1] at hface
      rw [h2] at hotherFace
      simp only [Bool.false_eq_true, false_and, false_or, true_and] at hface hotherFace
      omega
    · have hjokerFace := (isJoker_iff_rankValue joker.rank).1 hjoker
      have hjokerLe := hbest joker hjokerMem hjokerWild
      rcases hface with hface | ⟨hface, -⟩ | hface
      · omega
      · have hbestFace := (isLevelCard_iff.1 hface).1
        omega
      · omega
    · have hbestLow := hlow best hmem hwild
      rcases hotherFace with hotherFace | ⟨hotherLevel, hotherFace⟩ | hotherFace
      · have hbestJoker : 15 ≤ rankValue best.rank := by omega
        rcases hface with hface | ⟨hface, -⟩ | hface
        · omega
        · have hbestFace := (isLevelCard_iff.1 hface).1
          omega
        · omega
      · -- the greatest face is that of the level
        have hlevel := isLevelCard_iff.1 hotherLevel
        have hbestLevel : ctx.isLevelCard best = true := isLevelCard_iff.2 ⟨by omega, by omega⟩
        rw [hbestLevel] at hface
        simp only [Bool.true_eq_false, false_and, or_false, true_and] at hface
        omega
      · omega

/-! ### The card demanded -/

/-- An id names one card of a hand. -/
theorem eq_of_id {s : GameState} {ids : List CardId} (h : s.cardsFromIds ids = some cards)
    {card other : Card} (hcard : card ∈ cards) (hother : other ∈ cards) (hid : card.id = other.id) :
    card = other := by
  obtain ⟨id, -, hget⟩ := mem_of_mapM h card hcard
  obtain ⟨id', -, hget'⟩ := mem_of_mapM h other hother
  rw [← getCardById_id hget] at hget
  rw [← getCardById_id hget', ← hid, hget] at hget'
  exact Option.some.inj hget'

/-- The card that is demanded is a strongest one exactly if no level card is passed over. -/
theorem tribute_strongest_iff (s : GameState) (hand : Hand) (ctx : RuleContext) (cards : List Card)
    (hcards : s.cardsFromIds hand.cards = some cards)
    (hgive : ∃ card ∈ cards, ctx.isWildCard card = false) :
    (∃ card, requiredTributeCard hand s ctx = some card.id ∧ Strongest ctx cards card) ↔
      NoLevelPassedOver ctx cards := by
  have hrequired : requiredTributeCard hand s ctx =
      some (cards.foldl (pickBestStep ctx) (0, -1)).1 := by
    rw [requiredTributeCard, pickBestTributeCard, hcards]
    rfl
  rcases pickBest_cases cards ctx with ⟨-, hnone⟩ | ⟨best, hfirst, heq⟩
  · obtain ⟨card, hcard, hwild⟩ := hgive
    have hinvalid := hnone card hcard
    rw [isValidTributeCard, hwild] at hinvalid
    cases hinvalid
  rw [hrequired, heq]
  have hwild : ctx.isWildCard best = false := by simpa [isValidTributeCard] using hfirst.sat
  have hgreatest : ∀ other ∈ cards, ctx.isWildCard other = false →
      rankValue other.rank ≤ rankValue best.rank := by
    intro other hother hotherWild
    have hvalid : isValidTributeCard other ctx = true := by rw [isValidTributeCard, hotherWild]; rfl
    have hle : ¬ (rankOrderForTribute best ctx : Int) < rankOrderForTribute other ctx :=
      hfirst.best hother hvalid
    rw [rankOrderForTribute_of_valid hfirst.sat, rankOrderForTribute_of_valid hvalid] at hle
    omega
  rw [← greatest_iff hfirst.mem hwild hgreatest]
  constructor
  · rintro ⟨card, hid, hstrongest⟩
    rw [eq_of_id hcards hfirst.mem hstrongest.mem (Option.some.inj hid)]
    exact hstrongest.greatest
  · intro hall
    exact ⟨best, rfl, strongest_iff.2 ⟨hfirst.mem, hwild, hall⟩⟩

/-- One deck. -/
def oneDeck : GameState := { allCards := createFullDeck 1 }

/-- At the level of the fives an ace and a king are held: the ace is demanded. -/
theorem tribute_strongest_iff_ace :
    ∃ card, requiredTributeCard ⟨[11, 12]⟩ oneDeck { currentLevel := 5 } = some card.id ∧
      Strongest { currentLevel := 5 } [⟨11, .spade, .k⟩, ⟨12, .spade, .a⟩] card :=
  (tribute_strongest_iff oneDeck ⟨[11, 12]⟩ { currentLevel := 5 } [⟨11, .spade, .k⟩, ⟨12, .spade, .a⟩]
    (by decide) ⟨⟨11, .spade, .k⟩, by decide, by decide⟩).2 (.inl (by decide))

/-- With a five in the place of the king the ace is demanded still, and the five beats it. -/
theorem levelCard_kept :
    requiredTributeCard ⟨[3, 12]⟩ oneDeck { currentLevel := 5 } = some 12 ∧
      oneDeck.cardsFromIds [3, 12] = some [⟨3, .spade, .r5⟩, ⟨12, .spade, .a⟩] ∧
      SingleBeats { currentLevel := 5 } ⟨3, .spade, .r5⟩ ⟨12, .spade, .a⟩ ∧
      ¬ Strongest { currentLevel := 5 } [⟨3, .spade, .r5⟩, ⟨12, .spade, .a⟩] ⟨12, .spade, .a⟩ := by
  have hbeats : SingleBeats { currentLevel := 5 } ⟨3, .spade, .r5⟩ ⟨12, .spade, .a⟩ :=
    (singleBeats_iff _ _).2 (by decide)
  refine ⟨by decide, by decide, hbeats, fun h => ?_⟩
  exact h.unbeaten _ (List.mem_cons_self ..) (by decide) hbeats

end TributeManager

end Guandan
