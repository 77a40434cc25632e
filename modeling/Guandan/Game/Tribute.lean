import Guandan.Game.Settlement

/-!
# Tribute, return and anti-tribute

`tribute.cpp`. The selection loops look up every card of a hand before they use it; here a hand is
looked up once (`cardsFromIds`, which throws for an unknown id) and the loops run over its cards.
As in the source the card id 0 also means "no card".
-/

namespace Guandan

structure PreviousRoundInfo where
  valid : Bool := false
  winningTeam : Option Team := none
  finishRankBySeat : Nat → Nat := fun _ => 0

structure TributeTransfer where
  fromSeat : Nat
  toSeat : Nat
  cardId : CardId
  deriving DecidableEq, Repr

structure TributeRoundResult where
  skipped : Bool := false
  antiTribute : Bool := false
  tributes : List TributeTransfer := []
  returns : List TributeTransfer := []
  firstPlayerSeat : Nat := 0
  headTributerSeat : Option Nat := none
  summary : String := ""
  deriving DecidableEq, Repr

structure TributePhasePlan where
  skipped : Bool := true
  antiTribute : Bool := false
  tributerSeats : List Nat := []
  recipientSeats : List Nat := []
  headSeat : Nat := 0
  summary : String := ""
  deriving DecidableEq, Repr

def buildPreviousRoundInfo (s : GameState) (winningTeam : Option Team) : PreviousRoundInfo :=
  { valid := true
    winningTeam := winningTeam
    finishRankBySeat := fun i => if i < s.playerCount then (s.players i).finishRank else 0 }

/-- A joker counts by its own value, every other card by its face, the level card included. -/
def rankOrderForTribute (card : Card) (ctx : RuleContext) : Nat :=
  if isJoker card.rank then rankValue card.rank
  else if ctx.isWildCard card then ctx.rawLevelRankValue
  else rankValue card.rank

namespace TributeManager

def seatByFinishRank (previous : PreviousRoundInfo) (rank playerCount : Nat) : Option Nat :=
  (List.range playerCount).find? fun seat => previous.finishRankBySeat seat == rank

def isValidTributeCard (card : Card) (ctx : RuleContext) : Bool := !ctx.isWildCard card

def isValidReturnCard (card : Card) (ctx : RuleContext) : Bool :=
  if ctx.isLevelCard card || isJoker card.rank then false
  else rankValue card.rank ≤ rankValue .r10

/-! ### Choosing a card -/

/-- The first card of greatest order among the valid ones, and that order (-1 if there is none). -/
def pickBestStep (ctx : RuleContext) (best : CardId × Int) (card : Card) : CardId × Int :=
  if !isValidTributeCard card ctx then best
  else if best.2 < rankOrderForTribute card ctx then (card.id, rankOrderForTribute card ctx)
  else best

def pickBestTributeCard (hand : Hand) (s : GameState) (ctx : RuleContext) : Option CardId := do
  let cards ← s.cardsFromIds hand.cards
  return (cards.foldl (pickBestStep ctx) (0, -1)).1

def requiredTributeCard (hand : Hand) (s : GameState) (ctx : RuleContext) : Option CardId :=
  pickBestTributeCard hand s ctx

/-- The least single rank among the cards; 0 if there is none. -/
def minSingleEffectiveRank (cards : List Card) (ctx : RuleContext) : Nat :=
  let bestOrder := cards.foldl (fun best card => min best (singleEffectiveRank card ctx)) 999
  if bestOrder = 999 then 0 else bestOrder

def pickSmallestCard (hand : Hand) (s : GameState) (ctx : RuleContext) : Option CardId := do
  let cards ← s.cardsFromIds hand.cards
  let minOrder := minSingleEffectiveRank cards ctx
  if minOrder = 0 then return 0
  match cards.find? (singleEffectiveRank · ctx == minOrder) with
  | some card => return card.id
  | none => return 0

/-- The first card of least face among the valid ones, and that face. -/
def pickReturnStep (ctx : RuleContext) (best : CardId × Nat) (card : Card) : CardId × Nat :=
  if !isValidReturnCard card ctx then best
  else if rankValue card.rank < best.2 then (card.id, rankValue card.rank)
  else best

def pickBestReturnCard (hand : Hand) (s : GameState) (ctx : RuleContext) : Option CardId := do
  let cards ← s.cardsFromIds hand.cards
  return (cards.foldl (pickReturnStep ctx) (0, 999)).1

def pickReturnCard (hand : Hand) (s : GameState) (ctx : RuleContext) : Option CardId := do
  let valid ← pickBestReturnCard hand s ctx
  if valid ≠ 0 then return valid
  pickSmallestCard hand s ctx

/-- The returnable cards of a hand: those up to ten that are not level cards or, without any, the
smallest singles. -/
def returnableCards (cards : List Card) (ctx : RuleContext) : List CardId :=
  let primary := cards.filter (isValidReturnCard · ctx)
  if !primary.isEmpty then primary.map (·.id)
  else
    let minOrder := minSingleEffectiveRank cards ctx
    if minOrder = 0 then []
    else (cards.filter (singleEffectiveRank · ctx == minOrder)).map (·.id)

def validReturnCardIds (hand : Hand) (s : GameState) (ctx : RuleContext) : Option (List CardId) := do
  let cards ← s.cardsFromIds hand.cards
  return returnableCards cards ctx

def isValidTributeSubmission (seat : Nat) (cardId : CardId) (s : GameState) (ctx : RuleContext) :
    Option Bool :=
  if s.playerCount ≤ seat || cardId == 0 then some false
  else
    let hand := (s.players seat).hand
    if !hand.contains [cardId] then some false
    else (requiredTributeCard hand s ctx).map (cardId == ·)

def isValidReturnSubmission (seat : Nat) (cardId : CardId) (s : GameState) (ctx : RuleContext) :
    Option Bool :=
  if s.playerCount ≤ seat || cardId == 0 then some false
  else
    let hand := (s.players seat).hand
    if !hand.contains [cardId] then some false
    else (validReturnCardIds hand s ctx).map (·.contains cardId)

/-! ### Planning a round -/

def countBigJokersInSeat (s : GameState) (seat : Nat) : Option Nat := do
  let cards ← s.cardsFromIds (s.players seat).hand.cards
  return cards.countP (·.rank == .bigJoker)

def checkAntiTribute4 (s : GameState) (doubleDown : Bool) (tributerSeats : List Nat) :
    Option Bool := do
  let counts ← tributerSeats.mapM (countBigJokersInSeat s)
  if doubleDown then return counts.any (2 ≤ ·) || 2 ≤ counts.countP (· == 1)
  else return 2 ≤ counts.sum

def checkAntiTribute6 (s : GameState) (tripleDown : Bool) (tributerSeats : List Nat) :
    Option Bool := do
  let counts ← tributerSeats.mapM (countBigJokersInSeat s)
  if tripleDown then return counts.any (3 ≤ ·) || 3 ≤ counts.sum
  else return counts.any (3 ≤ ·)

/-- The two seats are there and of one team. -/
def sameTeam (s : GameState) (headSeat : Nat) (seat : Option Nat) : Bool :=
  match seat with
  | some seat => (s.players headSeat).team == (s.players seat).team
  | none => false

/-- The plan with the tributers of the given ranks and these recipients. -/
def downPlan (previous : PreviousRoundInfo) (n headSeat : Nat) (ranks : List Nat)
    (recipients : List Nat) (summary : String) : TributePhasePlan :=
  { skipped := false
    tributerSeats := ranks.filterMap (seatByFinishRank previous · n)
    recipientSeats := recipients
    headSeat := headSeat
    summary := summary }

/-- Anti-tribute is noted in the plan and in its summary. -/
def withAntiTribute (plan : TributePhasePlan) (anti : Bool) : TributePhasePlan :=
  if anti then { plan with antiTribute := true, summary := plan.summary ++ "_anti" } else plan

def planRound (s : GameState) (config : GameRuleConfig) (previous : PreviousRoundInfo) :
    Option TributePhasePlan :=
  let n := s.playerCount
  let head := seatByFinishRank previous 1 n
  if !config.enableTribute || !previous.valid then
    some { headSeat := head.getD 0, summary := "skip_no_previous_round" }
  else match head with
    | none => some { summary := "skip_no_head" }
    | some headSeat =>
      let secondSeat := seatByFinishRank previous 2 n
      let thirdSeat := seatByFinishRank previous 3 n
      if 3 ≤ config.playersPerTeam then
        let tripleDown := sameTeam s headSeat secondSeat && sameTeam s headSeat thirdSeat
        let plan :=
          if tripleDown then
            downPlan previous n headSeat [4, 5, 6]
              ([headSeat] ++ secondSeat.toList ++ thirdSeat.toList) "triple_down"
          else downPlan previous n headSeat [6] [headSeat] "single_down"
        (checkAntiTribute6 s tripleDown plan.tributerSeats).map (withAntiTribute plan)
      else
        let doubleDown := sameTeam s headSeat secondSeat
        let plan :=
          if doubleDown then
            downPlan previous n headSeat [3, 4] ([headSeat] ++ secondSeat.toList) "double_down"
          else downPlan previous n headSeat [4] [headSeat] "single_down"
        (checkAntiTribute4 s doubleDown plan.tributerSeats).map (withAntiTribute plan)

/-! ### Moving cards -/

/-- Moves the card if the giver holds it; the card id 0 never moves. -/
def transferCard (s : GameState) (fromSeat toSeat : Nat) (cardId : CardId) : GameState :=
  if cardId = 0 then s
  else if !(s.players fromSeat).hand.contains [cardId] then s
  else
    let s := s.setHand fromSeat ((s.players fromSeat).hand.remove [cardId]).1
    s.setHand toSeat ((s.players toSeat).hand.add cardId)

def applyReturnTransfer (s : GameState) (fromSeat toSeat : Nat) (cardId : CardId) : GameState :=
  transferCard s fromSeat toSeat cardId

/-- A submitted tribute with the card it names. -/
structure PendingTribute where
  fromSeat : Nat
  card : Card
  deriving DecidableEq, Repr

/-- Negative if `a` goes first: the greater card, between equal cards the seat nearer to head. -/
def compareTributeCards (a b : PendingTribute) (ctx : RuleContext) (headSeat playerCount : Nat) :
    Int :=
  let orderA := rankOrderForTribute a.card ctx
  let orderB := rankOrderForTribute b.card ctx
  if orderA ≠ orderB then if orderB < orderA then -1 else 1
  else
    let distA := (a.fromSeat + playerCount - headSeat) % playerCount
    let distB := (b.fromSeat + playerCount - headSeat) % playerCount
    if distA ≠ distB then if distA < distB then -1 else 1
    else 0

/-- `std::sort` by `compareTributeCards`. -/
def sortTributes (pending : List PendingTribute) (ctx : RuleContext) (headSeat playerCount : Nat) :
    List PendingTribute :=
  pending.insertionSort fun a b => ¬ compareTributeCards b a ctx headSeat playerCount < 0

/-- The submitted cards of the tributers, in the order of the plan. -/
def pendingTributes (s : GameState) (plan : TributePhasePlan) (submissions : Nat → Option CardId) :
    Option (List PendingTribute) :=
  (plan.tributerSeats.filterMap fun seat =>
      (submissions seat).bind fun cardId => if cardId = 0 then none else some (seat, cardId)).mapM
    fun (seat, cardId) => (s.getCardById cardId).map (⟨seat, ·⟩)

def assignTributes (s : GameState) (ctx : RuleContext) (plan : TributePhasePlan)
    (submissions : Nat → Option CardId) (result : TributeRoundResult) :
    Option (GameState × TributeRoundResult) := do
  let pending ← pendingTributes s plan submissions
  if pending.isEmpty then
    return (s, { result with tributes := [], summary := plan.summary ++ "_no_card" })
  let sorted := sortTributes pending ctx plan.headSeat s.playerCount
  let tributes := (sorted.zip plan.recipientSeats).map fun (tribute, toSeat) =>
    (⟨tribute.fromSeat, toSeat, tribute.card.id⟩ : TributeTransfer)
  let s := tributes.foldl (fun s tr => transferCard s tr.fromSeat tr.toSeat tr.cardId) s
  return (s, { result with tributes := tributes, summary := plan.summary })

/-- The seats whose tribute is the greatest, and its order (-1 if there is none). -/
def maxSeatsStep (ctx : RuleContext) (best : List Nat × Int) (tribute : Nat × Card) :
    List Nat × Int :=
  let order : Int := rankOrderForTribute tribute.2 ctx
  if best.2 < order then ([tribute.1], order)
  else if order = best.2 then (best.1 ++ [tribute.1], best.2)
  else best

def computeFirstPlayerSeat (result : TributeRoundResult) (headSeat : Nat) (s : GameState)
    (ctx : RuleContext) (previous : PreviousRoundInfo) (playerCount : Nat) : Option Nat :=
  if result.antiTribute || result.skipped || result.tributes.isEmpty then some headSeat
  else do
    let tributes ← result.tributes.mapM fun tr => (s.getCardById tr.cardId).map (tr.fromSeat, ·)
    match (tributes.foldl (maxSeatsStep ctx) ([], -1)).1 with
    | [seat] => return seat
    | _ => return (seatByFinishRank previous playerCount playerCount).getD headSeat

/-- The giver of the tribute that went to the head seat. -/
def headTributer (tributes : List TributeTransfer) (headSeat : Nat) : Option Nat :=
  (tributes.find? (·.toSeat == headSeat)).map (·.fromSeat)

/-- One step of the return loop of `resolveRound`. -/
def resolveReturn (ctx : RuleContext) (acc : GameState × List TributeTransfer)
    (tr : TributeTransfer) : Option (GameState × List TributeTransfer) := do
  let returnId ← pickReturnCard (acc.1.players tr.toSeat).hand acc.1 ctx
  if returnId = 0 then return acc
  return (transferCard acc.1 tr.toSeat tr.fromSeat returnId,
    acc.2 ++ [⟨tr.toSeat, tr.fromSeat, returnId⟩])

/-- The required cards of the tributers, in the order of the plan; a seat without one submits
nothing. -/
def requiredSubmissions (s : GameState) (ctx : RuleContext) (tributerSeats : List Nat) :
    Option (Nat → Option CardId) :=
  tributerSeats.foldlM (fun submissions seat => do
    let cardId ← requiredTributeCard (s.players seat).hand s ctx
    if cardId = 0 then return submissions
    return Function.update submissions seat (some cardId)) fun _ => none

def resolveRound (s : GameState) (config : GameRuleConfig) (previous : PreviousRoundInfo)
    (ctx : RuleContext) : Option (GameState × TributeRoundResult) := do
  let plan ← planRound s config previous
  if plan.skipped then
    return (s, { skipped := true, firstPlayerSeat := plan.headSeat, summary := plan.summary })
  if plan.antiTribute then
    return (s, { antiTribute := true, firstPlayerSeat := plan.headSeat, summary := plan.summary })
  let submissions ← requiredSubmissions s ctx plan.tributerSeats
  let (s, result) ← assignTributes s ctx plan submissions {}
  if result.tributes.isEmpty then
    return (s, { result with firstPlayerSeat := plan.headSeat })
  let (s, returns) ← result.tributes.foldlM (resolveReturn ctx) (s, [])
  let result := { result with
    returns := returns
    headTributerSeat := headTributer result.tributes plan.headSeat }
  let first ← computeFirstPlayerSeat result plan.headSeat s ctx previous s.playerCount
  return (s, { result with firstPlayerSeat := first })

end TributeManager

end Guandan
