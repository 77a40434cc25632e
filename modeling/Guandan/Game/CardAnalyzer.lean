import Guandan.Game.Card

/-!
# Recognising and comparing patterns

`card_analyzer.cpp` and `rule_engine.cpp`. `groupByRank` keeps the cards that are not wild by rank
and puts the wild ones first, in a group without a rank (the source writes rank -1); the card
pointers of a group are never read and are left out. Straights, pair runs and triple runs are one
window search (`analyzeWindow`) with different numbers.
-/

namespace Guandan

structure CardPattern where
  type : CardType := .invalid
  primaryRank : Nat := 0
  length : Nat := 0
  pairRank : Nat := 0
  isValid : Bool := false
  deriving DecidableEq, Repr

def CardPattern.none : CardPattern := {}

namespace CardAnalyzer

structure RankGroup where
  rank : Option Nat := none
  count : Nat := 0
  deriving DecidableEq, Repr

def groupByRank (cards : List Card) (ctx : RuleContext) : List RankGroup :=
  let wildCount := cards.countP ctx.isWildCard
  let groups := (List.range 17).filterMap fun r =>
    let count := cards.countP fun card => !ctx.isWildCard card && rankValue card.rank == r
    if 0 < count then some { rank := some r, count := count } else none
  if 0 < wildCount then { count := wildCount } :: groups else groups

/-- The count of the wild group, `start` if there is none. -/
def totalWild (start : Nat) (groups : List RankGroup) : Nat :=
  groups.foldl (fun wild g => if g.rank.isNone then g.count else wild) start

/-- Rank and count of the other groups. -/
def normalGroups (groups : List RankGroup) : List (Nat × Nat) :=
  groups.filterMap fun g => g.rank.map fun r => (r, g.count)

def analyzeJokerBomb (cards : List Card) : CardPattern :=
  let smallCount := cards.countP (·.rank == .smallJoker)
  let bigCount := cards.countP (·.rank == .bigJoker)
  if cards.all (isJoker ·.rank) && 2 ≤ smallCount && 2 ≤ bigCount then
    { type := .jokerBomb, length := cards.length, primaryRank := rankValue .bigJoker,
      isValid := true }
  else .none

def analyzeBomb (cards : List Card) (groups : List RankGroup) (total : Nat) (ctx : RuleContext) :
    CardPattern :=
  if total < 4 then .none
  else
    let wildCount := totalWild 0 groups
    let normal := normalGroups groups
    if 1 < normal.length then .none
    else
      let rank := (normal.head?.map (·.1)).getD ctx.rawLevelRankValue
      let count := (normal.head?.map (·.2)).getD 0 + wildCount
      if 4 ≤ count && count == total then
        let pureLevel := cards.all ctx.isLevelCard
        { type := .bomb, primaryRank := if pureLevel then kLevelCardPatternRank else rank,
          length := count, isValid := true }
      else .none

def analyzeSingle (cards : List Card) (ctx : RuleContext) : CardPattern :=
  match cards with
  | [card] => { type := .single, primaryRank := singleEffectiveRank card ctx, length := 1,
                isValid := true }
  | _ => .none

/-- `size` cards of one rank, wild cards filling up: `analyzePair` and `analyzeTriple`. -/
def analyzeSameRank (type : CardType) (size : Nat) (groups : List RankGroup) (wildCount : Nat)
    (ctx : RuleContext) : CardPattern :=
  let wild := totalWild wildCount groups
  match normalGroups groups with
  | [] =>
    if size ≤ wild then
      { type := type, primaryRank := patternRankForLevelCard ctx.rawLevelRankValue ctx,
        length := size, isValid := true }
    else .none
  | [(rank, count)] =>
    if count + wild = size then
      { type := type, primaryRank := patternRankForLevelCard rank ctx, length := size,
        isValid := true }
    else .none
  | _ => .none

def analyzePair (groups : List RankGroup) (wildCount : Nat) (ctx : RuleContext) : CardPattern :=
  if groups.length = 0 then .none else analyzeSameRank .pair 2 groups wildCount ctx

def analyzeTriple (groups : List RankGroup) (wildCount : Nat) (ctx : RuleContext) : CardPattern :=
  analyzeSameRank .triple 3 groups wildCount ctx

/-- The pattern with `triple` as the three and `pair` as the two. -/
def tripleWithPair (triple pair : Nat × Nat) (ctx : RuleContext) : CardPattern :=
  { type := .tripleWithPair, primaryRank := patternRankForLevelCard triple.1 ctx,
    pairRank := pair.1, length := 5, isValid := true }

/-- The first loop: every group as the triple, every other group as the pair. -/
def searchTripleWithPair (normal : List (Nat × Nat)) (wild : Nat) (ctx : RuleContext) :
    Option CardPattern :=
  normal.zipIdx.findSome? fun (triple, i) =>
    let tripleNeed := 3 - triple.2
    if wild < tripleNeed then none
    else normal.zipIdx.findSome? fun (pair, j) =>
      let pairNeed := 2 - pair.2
      if i = j then none
      else if wild - tripleNeed < pairNeed then none
      else if pair.2 + pairNeed = 2 then some (tripleWithPair triple pair ctx)
      else none

def analyzeTripleWithPair (groups : List RankGroup) (_wildCount : Nat) (ctx : RuleContext) :
    CardPattern :=
  let wild := totalWild 0 groups
  let normal := normalGroups groups
  if 2 < normal.length then .none
  else match searchTripleWithPair normal wild ctx with
    | some p => p
    | none =>
      match normal with
      | [g] =>
        if g.2 + wild = 5 && 3 ≤ g.2 then tripleWithPair g g ctx else .none
      | [g, h] =>
        let (a, b) := if g.2 > h.2 then (h, g) else (g, h)
        if (3 - b.2) + (2 - a.2) ≤ wild then tripleWithPair b a ctx else .none
      | _ => .none

/-- Slot 1 is the ace played low. -/
def straightSlotToRankValue (slot : Nat) : Option Nat :=
  if slot = 1 then some (rankValue .a)
  else if 2 ≤ slot ∧ slot ≤ 14 then some slot
  else none

/-- The wild cards needed to have exactly `need` cards in each of the `len` slots from `start`;
`none` if a slot holds more or does not exist. -/
def windowWild (normal : List (Nat × Nat)) (need len start : Nat) : Option Nat :=
  (List.range len).foldlM (fun used i => do
    let rv ← straightSlotToRankValue (start + i)
    let count := (normal.lookup rv).getD 0
    if need < count then none else some (used + (need - count))) 0

def analyzeWindow (type : CardType) (size need len minStart maxStart : Nat)
    (groups : List RankGroup) (total : Nat) : CardPattern :=
  if total ≠ size then .none
  else
    let wild := totalWild 0 groups
    let normal := normalGroups groups
    if normal.any fun g => rankValue .smallJoker ≤ g.1 then .none
    else
      let fits := fun start => match windowWild normal need len start with
        | some used => decide (used ≤ wild)
        | none => false
      match (List.range' minStart (maxStart + 1 - minStart)).find? fits with
      | some start => { type := type, primaryRank := start + len - 1, length := len,
                        isValid := true }
      | none => .none

def analyzeStraight (groups : List RankGroup) (_wildCount total : Nat) : CardPattern :=
  analyzeWindow .straight 5 1 5 1 10 groups total

def analyzeThreePairs (groups : List RankGroup) (_wildCount total : Nat) : CardPattern :=
  analyzeWindow .threePairs 6 2 3 1 12 groups total

def analyzeTwoTriples (groups : List RankGroup) (_wildCount total : Nat) : CardPattern :=
  analyzeWindow .twoTriples 6 3 2 1 13 groups total

def analyzeStraightFlush (cards : List Card) (ctx : RuleContext) : CardPattern :=
  if cards.length ≠ 5 then .none
  else
    let wildCount := cards.countP ctx.isWildCard
    let nonWild := cards.filter (!ctx.isWildCard ·)
    if nonWild.any (isJoker ·.rank) then .none
    else match nonWild with
      | [] => .none
      | first :: _ =>
        if nonWild.any (·.suit != first.suit) then .none
        else
          let straight := analyzeStraight (groupByRank cards ctx) wildCount cards.length
          if straight.isValid then { straight with type := .straightFlush } else .none

/-- The first of the candidates that is valid. -/
def firstValid (candidates : List CardPattern) : CardPattern :=
  (candidates.find? (·.isValid)).getD .none

def analyze (cards : List Card) (ctx : RuleContext) : CardPattern :=
  let groups := groupByRank cards ctx
  let wildCount := totalWild 0 groups
  let total := cards.length
  if cards.isEmpty then .none
  else
    let jokerBomb := analyzeJokerBomb cards
    if jokerBomb.isValid then jokerBomb
    else
      let bomb := analyzeBomb cards groups total ctx
      if bomb.isValid then bomb
      else if total = 1 then analyzeSingle cards ctx
      else if total = 2 then analyzePair groups wildCount ctx
      else if total = 3 then analyzeTriple groups wildCount ctx
      else firstValid
        ((if total = 5 then [analyzeTripleWithPair groups wildCount ctx] else []) ++
          [analyzeStraightFlush cards ctx, analyzeStraight groups wildCount total] ++
          (if total = 6 then
            [analyzeThreePairs groups wildCount total, analyzeTwoTriples groups wildCount total]
          else []))

@[simp] theorem analyze_nil (ctx : RuleContext) : (analyze [] ctx).isValid = false := by
  simp [analyze, CardPattern.none]

end CardAnalyzer

namespace RuleEngine

def sameTypeBeat (cur prev : CardPattern) : Bool :=
  if cur.type ≠ prev.type then false
  else match cur.type with
    | .single | .pair | .triple | .straight | .threePairs | .twoTriples | .straightFlush =>
      if cur.length ≠ prev.length then false else prev.primaryRank < cur.primaryRank
    | .tripleWithPair =>
      if cur.primaryRank ≠ prev.primaryRank then prev.primaryRank < cur.primaryRank
      else prev.pairRank < cur.pairRank
    | .bomb =>
      if cur.length ≠ prev.length then prev.length < cur.length
      else prev.primaryRank < cur.primaryRank
    | .jokerBomb => prev.length < cur.length
    | .invalid => false

def canBeat (current previous : CardPattern) (_ctx : RuleContext) : Bool :=
  if !current.isValid then false
  else if !previous.isValid then true
  else match current.type with
    | .jokerBomb =>
      if previous.type = .jokerBomb then previous.length < current.length else true
    | .straightFlush =>
      match previous.type with
      | .jokerBomb => false
      | .bomb => previous.length < 6
      | .straightFlush => sameTypeBeat current previous
      | _ => true
    | .bomb =>
      match previous.type with
      | .jokerBomb => false
      | .straightFlush => 6 ≤ current.length
      | .bomb =>
        if current.length ≠ previous.length then previous.length < current.length
        else previous.primaryRank < current.primaryRank
      | _ => true
    | _ =>
      match previous.type with
      | .jokerBomb | .straightFlush | .bomb => false
      | _ => sameTypeBeat current previous

end RuleEngine

end Guandan
