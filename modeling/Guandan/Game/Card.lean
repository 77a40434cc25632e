import Mathlib.Algebra.GroupWithZero.Nat
import Mathlib.Data.Fintype.Pi
import Mathlib.Data.List.Basic
import Mathlib.Logic.Function.Basic

/-!
# Types, cards and hands

`types.h`, `card.h`, `card.cpp` and `hand.cpp`. Ids are natural numbers; the 16-bit counter of
`createFullDeck` is the only place where their width matters, and it wraps there. A rule context's
level is cast to the `Rank` enumeration in the source; for the levels 2 to 14 the cast loses
nothing, so the level is compared with `rankValue` directly.
-/

namespace Guandan

abbrev PlayerId := Nat
abbrev RoomId := String
abbrev CardId := Nat

/-- A team: 0 is A, 1 is B. -/
abbrev Team := Fin 2

/-- The numerals `0` and `1` are teams. -/
instance (priority := 1100) Team.neZero : NeZero 2 := ⟨by decide⟩

def kPlayerCount : Nat := 6
def kSoloTestCardsPerPlayer : Nat := 2

inductive Suit
  | spade | heart | club | diamond | joker
  deriving DecidableEq, Repr

inductive Rank
  | r2 | r3 | r4 | r5 | r6 | r7 | r8 | r9 | r10 | j | q | k | a | smallJoker | bigJoker
  deriving DecidableEq, Repr

inductive CardType
  | invalid | single | pair | triple | tripleWithPair | straight | threePairs | twoTriples
  | straightFlush | bomb | jokerBomb
  deriving DecidableEq, Repr

inductive GamePhase
  | waiting | ready | dealing | tribute | returnTribute | playing | roundEnd | settlement | finished
  deriving DecidableEq, Repr

inductive PlayerStatus
  | online | offline
  deriving DecidableEq, Repr

inductive ErrorCode
  | ok | invalidToken | unauthorized | roomNotFound | roomFull | alreadyInRoom | notInRoom
  | notRoomOwner | notYourTurn | invalidCards | invalidPattern | cannotBeat | invalidState
  | requestExpired | duplicateRequest | notAllReady | invalidMessage | unknownType | internalError
  deriving DecidableEq, Repr

def rankValue : Rank → Nat
  | .r2 => 2 | .r3 => 3 | .r4 => 4 | .r5 => 5 | .r6 => 6 | .r7 => 7 | .r8 => 8 | .r9 => 9
  | .r10 => 10 | .j => 11 | .q => 12 | .k => 13 | .a => 14 | .smallJoker => 15 | .bigJoker => 16

def isJoker (r : Rank) : Bool := r == .smallJoker || r == .bigJoker

/-! ### Cards and the rule context -/

structure Card where
  id : CardId := 0
  suit : Suit := .spade
  rank : Rank := .r2
  deriving DecidableEq, Repr

/-- `GameRuleConfig`, the fields the engine reads. -/
structure GameRuleConfig where
  playerCount : Nat := kPlayerCount
  deckCount : Nat := 3
  playersPerTeam : Nat := 3
  enableTribute : Bool := false
  enableWildCard : Bool := true
  ruleVersion : String := "six_player_guandan_v1"
  deriving DecidableEq, Repr

def kLevelCardPatternRank : Nat := 15
def kSmallJokerPatternRank : Nat := 16
def kBigJokerPatternRank : Nat := 17

structure RuleContext where
  currentLevel : Nat := 2
  enableWildCard : Bool := true
  deriving DecidableEq, Repr

namespace RuleContext

def rawLevelRankValue (ctx : RuleContext) : Nat := ctx.currentLevel

/-- The heart of the current level stands for any card. -/
def isWildCard (ctx : RuleContext) (card : Card) : Bool :=
  ctx.enableWildCard && card.suit == .heart && rankValue card.rank == ctx.rawLevelRankValue

def isLevelCard (ctx : RuleContext) (card : Card) : Bool :=
  !isJoker card.rank && rankValue card.rank == ctx.rawLevelRankValue

end RuleContext

def patternRankForLevelCard (rawRank : Nat) (ctx : RuleContext) : Nat :=
  if rawRank = ctx.rawLevelRankValue then kLevelCardPatternRank else rawRank

def singleEffectiveRank (card : Card) (ctx : RuleContext) : Nat :=
  if card.rank = .smallJoker then kSmallJokerPatternRank
  else if card.rank = .bigJoker then kBigJokerPatternRank
  else if ctx.isLevelCard card then kLevelCardPatternRank
  else rankValue card.rank

def makeCard (id : CardId) (suit : Suit) (rank : Rank) : Card := ⟨id, suit, rank⟩

/-- The suit and rank of the cards of one deck, in the order `createFullDeck` makes them. -/
def deckFaces : List (Suit × Rank) :=
  [Suit.spade, .heart, .club, .diamond].flatMap (fun suit =>
    [Rank.r2, .r3, .r4, .r5, .r6, .r7, .r8, .r9, .r10, .j, .q, .k, .a].map fun rank => (suit, rank))
    ++ [(.joker, .smallJoker), (.joker, .bigJoker)]

/-- Each card takes the next value of a 16-bit counter as its id. -/
def createFullDeck (deckCount : Nat) : List Card :=
  ((List.replicate deckCount deckFaces).flatten.zipIdx).map fun face =>
    makeCard (face.2 % 2 ^ 16) face.1.1 face.1.2

theorem length_createFullDeck (deckCount : Nat) : (createFullDeck deckCount).length = 54 * deckCount := by
  simp [createFullDeck, deckFaces, Nat.mul_comm]

/-- As long as the counter does not wrap, the ids are `0, 1, …` in order. -/
theorem createFullDeck_ids (deckCount : Nat) (h : 54 * deckCount ≤ 2 ^ 16) :
    (createFullDeck deckCount).map (·.id) = List.range (54 * deckCount) := by
  have hlen := length_createFullDeck deckCount
  apply List.ext_getElem
  · simp [hlen]
  · intro i h1 h2
    have hi : i < 54 * deckCount := by simpa using h2
    simp only [createFullDeck, makeCard, List.map_map, List.getElem_map, List.getElem_zipIdx,
      Function.comp_apply, Nat.zero_add, List.getElem_range]
    exact Nat.mod_eq_of_lt (by omega)

/-! ### Hands -/

structure Hand where
  cards : List CardId := []
  deriving DecidableEq, Repr

namespace Hand

def add (hand : Hand) (card : CardId) : Hand := ⟨hand.cards ++ [card]⟩

def addAll (hand : Hand) (cards : List CardId) : Hand := ⟨hand.cards ++ cards⟩

/-- The loop of `remove` over its working copy `temp`. -/
def removeFrom : List CardId → List CardId → Option (List CardId)
  | temp, [] => some temp
  | temp, id :: rest => if id ∈ temp then removeFrom (temp.erase id) rest else none

/-- Removes the cards one by one from a copy; the hand changes only if every one was found. -/
def remove (hand : Hand) (toRemove : List CardId) : Hand × Bool :=
  match removeFrom hand.cards toRemove with
  | some temp => (⟨temp⟩, true)
  | none => (hand, false)

/-- Every queried id occurs in the hand; how often it is queried does not matter. -/
def contains (hand : Hand) (query : List CardId) : Bool :=
  query.all fun id => hand.cards.contains id

def empty (hand : Hand) : Bool := hand.cards.isEmpty

def size (hand : Hand) : Nat := hand.cards.length

@[simp] theorem contains_iff {hand : Hand} {query : List CardId} :
    hand.contains query = true ↔ ∀ id ∈ query, id ∈ hand.cards := by
  simp [contains]

@[simp] theorem empty_iff {hand : Hand} : hand.empty = true ↔ hand.cards = [] := by
  simp [empty]

@[simp] theorem cards_add (hand : Hand) (card : CardId) :
    (hand.add card).cards = hand.cards ++ [card] := rfl

@[simp] theorem cards_addAll (hand : Hand) (cards : List CardId) :
    (hand.addAll cards).cards = hand.cards ++ cards := rfl

end Hand

end Guandan
