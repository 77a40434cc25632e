import Guandan.Game.RoomConfig
import Guandan.Game.Tribute

/-!
# The engine

`game_engine.h`, `game_engine.cpp` and `bot_player.cpp`. A call answers with the engine it leaves
and a `PlayResult`, or with nothing where the source throws or loops for ever. The shuffle of a deal
is an argument. Seats that are -1 in a view are `none`, as is `isPlayingOwnRound` where the source
leaves it unset; `std::map` is a partial function whose entries are listed by seat.
-/

namespace Guandan

/-! ### The bot -/

def CardType.toNat : CardType → Nat
  | .invalid => 0 | .single => 1 | .pair => 2 | .triple => 3 | .tripleWithPair => 4
  | .straight => 5 | .threePairs => 6 | .twoTriples => 7 | .straightFlush => 8 | .bomb => 9
  | .jokerBomb => 10

namespace BotPlayer

def INT_MAX : Nat := 2147483647

def leadScore (cardCount : Nat) (pattern : CardPattern) : Nat :=
  cardCount * 10000 + pattern.primaryRank * 10 + pattern.type.toNat

def beatScore (cardCount : Nat) (pattern : CardPattern) : Nat :=
  cardCount * 10000 + pattern.primaryRank * 10 + pattern.type.toNat

/-- The cards of the hand whose bit is set in the mask. -/
def subsetOf (handIds : List CardId) (mask : Nat) : List CardId :=
  (handIds.zipIdx.filter fun card => mask.testBit card.2).map (·.1)

/-- One round of the loop over the masks: the best play so far and its score. -/
def tryMask (s : GameState) (ctx : RuleContext) (handIds : List CardId)
    (best : Option (List CardId) × Nat) (mask : Nat) : Option (Option (List CardId) × Nat) := do
  let subset := subsetOf handIds mask
  let cards ← s.cardsFromIds subset
  let pattern := CardAnalyzer.analyze cards ctx
  if !pattern.isValid then return best
  else if !s.lastPattern.isValid then
    let score := leadScore subset.length pattern
    return if score < best.2 then (some subset, score) else best
  else if RuleEngine.canBeat pattern s.lastPattern ctx then
    let score := beatScore subset.length pattern
    return if score < best.2 then (some subset, score) else best
  else return best

def choosePlay (s : GameState) (seatIndex : Nat) (ctx : RuleContext) :
    Option (Option (List CardId)) :=
  if s.playerCount ≤ seatIndex then some none
  else if (s.players seatIndex).hasFinished then some none
  else
    let handIds := (s.players seatIndex).hand.cards
    ((List.range' 1 (2 ^ handIds.length - 1)).foldlM (tryMask s ctx handIds) (none, INT_MAX)).map
      (·.1)

end BotPlayer

/-! ### Results and views -/

structure PlayResult where
  code : ErrorCode := .ok
  message : String := ""
  gameOver : Bool := false
  tributeRoundComplete : Bool := false
  settlement : SettlementResult := {}
  deriving DecidableEq

structure TributeSeatPlay where
  seatIndex : Nat
  cardId : CardId
  kind : String
  deriving DecidableEq, Repr

structure OtherPlayer where
  id : PlayerId
  seatIndex : Nat
  team : Team
  cardCount : Nat
  hasFinished : Bool
  finishRank : Nat
  isReady : Bool
  status : PlayerStatus
  deriving DecidableEq, Repr

structure PlayerView where
  phase : GamePhase
  stateVersion : Nat
  turnId : Nat
  currentLevel : Nat
  attackingTeam : Team
  isPassARound : Bool
  isPlayingOwnRound : Option Bool
  teamLevels : Team → Nat
  inPassAPhase : Team → Bool
  passAFailCounts : Team → Nat
  currentPlayerIndex : Option Nat
  firstPlayerIndex : Option Nat
  mySeatIndex : Option Nat
  viewerSeatIndex : Option Nat
  isSpectating : Bool
  spectatableTeammates : List Nat
  myCards : List CardId
  lastPlayedCards : List CardId
  lastPlayedPlayerIndex : Option Nat
  lastPattern : CardPattern
  pendingTributerSeats : List Nat
  pendingReturnSeats : List Nat
  requiredTributeCardId : CardId
  validReturnCardIds : List CardId
  mustReturnTribute : Bool
  tributeSeatPlays : List TributeSeatPlay
  others : List OtherPlayer
  deriving DecidableEq

/-- What is known while tributes and returns are being submitted. -/
structure InteractiveTributeState where
  active : Bool := false
  plan : TributePhasePlan := {}
  pendingTributers : List Nat := []
  tributeSubmissions : Nat → Option CardId := fun _ => none
  pendingReturnSeats : List Nat := []
  returnToTributer : Nat → Option Nat := fun _ => none

structure GameEngine where
  config : GameRuleConfig := {}
  state : GameState := {}
  progress : TeamProgress := {}
  previousRound : PreviousRoundInfo := {}
  lastTribute : TributeRoundResult := {}
  tributeState : InteractiveTributeState := {}

namespace GameEngine

/-! ### Before a match -/

/-- A newly constructed engine. -/
def new (config : GameRuleConfig) : GameEngine := { config := config }

/-- The team of a seat: `i % 2`. -/
def seatTeam (i : Nat) : Team := if i % 2 = 0 then 0 else 1

/-- The seat `i` of a table with these players. -/
def seatPlayer (playerIds : List PlayerId) (i : Nat) : PlayerState :=
  match playerIds[i]? with
  | some id => { id := id, seatIndex := i, team := seatTeam i }
  | none => {}

/-- More players than the array has are written past its end: no answer. -/
def init (e : GameEngine) (roomId : RoomId) (playerIds : List PlayerId) : Option GameEngine :=
  if kPlayerCount < playerIds.length then none
  else some { e with
    state :=
      { roomId := roomId
        playerCount := playerIds.length
        phase := .waiting
        allCards := createFullDeck e.config.deckCount
        players := seatPlayer playerIds } }

def setPlayerReady (e : GameEngine) (playerId : PlayerId) (ready : Bool) : GameEngine :=
  match e.state.getPlayerById playerId with
  | some seat =>
    { e with state := e.state.setPlayer seat { e.state.players seat with isReady := ready } }
  | none => e

def allReady (e : GameEngine) : Bool :=
  (List.range e.state.playerCount).all (fun i => (e.state.players i).isReady) &&
    e.state.playerCount == e.config.playerCount

def updateConfig (e : GameEngine) (config : GameRuleConfig) : GameEngine :=
  if e.state.phase = .playing ∨ e.state.phase = .finished ∨ e.state.phase = .tribute ∨
      e.state.phase = .returnTribute then e
  else { e with config := config }

def ruleContext (e : GameEngine) : RuleContext :=
  { currentLevel := e.state.currentLevel, enableWildCard := e.config.enableWildCard }

def incrementStateVersion (e : GameEngine) : GameEngine :=
  { e with state := e.state.incrementStateVersion }

def seatOf (e : GameEngine) (id : PlayerId) : Option Nat :=
  (List.range e.state.playerCount).find? fun i => (e.state.players i).id == id

/-! ### Dealing -/

/-- The deck after this shuffle. -/
def shuffled (e : GameEngine) (σ : Shuffle) : List Card :=
  σ.run (createFullDeck e.config.deckCount)

/-- The hands this shuffle deals, by seat. -/
def dealtHands (e : GameEngine) (σ : Shuffle) : Option (List (List CardId)) :=
  Deck.deal (e.shuffled σ) e.state.playerCount (cardsPerPlayer e.config)

/-- The player with the dealt hand, nothing of the last round being left. -/
def dealtPlayer (playerCount : Nat) (hands : List (List CardId)) (players : Nat → PlayerState)
    (i : Nat) : PlayerState :=
  if i < playerCount then
    { players i with
      hand := Hand.addAll {} (hands.getD i [])
      hasFinished := false
      finishRank := 0 }
  else players i

/-- The first part of `dealAndStartPlaying`: everybody has a new hand, nobody has played. -/
def dealRound (e : GameEngine) (σ : Shuffle) : Option GameEngine := do
  let hands ← e.dealtHands σ
  let progress := e.progress.prepareNextRound
  return { e with
    progress := progress
    state := { e.state with
      allCards := e.shuffled σ
      players := dealtPlayer e.state.playerCount hands e.state.players
      attackingTeam := progress.attackingTeam
      currentLevel := progress.currentRoundLevel
      isPassARound := progress.isPassARound
      round := e.state.round + 1
      lastPlayedCards := []
      lastPattern := .none
      lastPlayedPlayerIndex := none
      passCount := 0
      turnId := 1 } }

def clearTributeState (e : GameEngine) : GameEngine := { e with tributeState := {} }

def beginPlayingFromDeal (e : GameEngine) (firstPlayerSeat : Nat) : GameEngine :=
  { e with
    state := { e.state with
      phase := .playing
      firstPlayerIndex := firstPlayerSeat
      currentPlayerIndex := firstPlayerSeat
      stateVersion := e.state.stateVersion + 1 } }

/-- The second part of `dealAndStartPlaying` with tribute: play begins, or the tributers are asked
for their cards. -/
def startTribute (e : GameEngine) : Option GameEngine := do
  let e := e.clearTributeState
  let plan ← TributeManager.planRound e.state e.config e.previousRound
  if plan.skipped then
    return beginPlayingFromDeal
      { e with lastTribute := { skipped := true, firstPlayerSeat := plan.headSeat } } plan.headSeat
  else if plan.antiTribute then
    return beginPlayingFromDeal
      { e with
        lastTribute :=
          { antiTribute := true, firstPlayerSeat := plan.headSeat, summary := plan.summary } }
      plan.headSeat
  else
    return { e with
      tributeState := { active := true, plan := plan, pendingTributers := plan.tributerSeats }
      lastTribute := {}
      state := { e.state with phase := .tribute }.incrementStateVersion }

def dealAndStartPlaying (e : GameEngine) (σ : Shuffle) (applyTribute : Bool) :
    Option (GameEngine × PlayResult) := do
  let e ← e.dealRound σ
  if applyTribute then return (← e.startTribute, {})
  else return (beginPlayingFromDeal { e with lastTribute := { skipped := true } } 0, {})

/-! ### Tribute and return -/

def finishTributePhaseAndStartPlay (e : GameEngine) : Option (GameEngine × PlayResult) := do
  let headSeat := e.tributeState.plan.headSeat
  let first ← TributeManager.computeFirstPlayerSeat e.lastTribute headSeat e.state e.ruleContext
    e.previousRound e.state.playerCount
  let e := { e with
    lastTribute := { e.lastTribute with
      firstPlayerSeat := first
      headTributerSeat := TributeManager.headTributer e.lastTribute.tributes headSeat } }
  return (e.clearTributeState.beginPlayingFromDeal first, {})

def hasPendingTributeAction (e : GameEngine) : Bool :=
  e.tributeState.active && (e.state.phase == .tribute || e.state.phase == .returnTribute)

theorem phase_of_pending {e : GameEngine} (h : e.hasPendingTributeAction = true) :
    e.state.phase = .tribute ∨ e.state.phase = .returnTribute := by
  rw [hasPendingTributeAction, Bool.and_eq_true, Bool.or_eq_true, beq_iff_eq, beq_iff_eq] at h
  exact h.2

/-- The accepted tribute is noted and its seat no longer pending. -/
def recordTribute (e : GameEngine) (seat : Nat) (cardId : CardId) : GameEngine :=
  { e with
    tributeState := { e.tributeState with
      tributeSubmissions := Function.update e.tributeState.tributeSubmissions seat (some cardId)
      pendingTributers := e.tributeState.pendingTributers.filter (· != seat) }
    state := e.state.incrementStateVersion }

/-- `returnToTributer` after the tributes: whoever received one returns to its giver. -/
def returnMap (tributes : List TributeTransfer) : Nat → Option Nat :=
  tributes.foldl (fun returnTo tr => Function.update returnTo tr.toSeat (some tr.fromSeat))
    fun _ => none

/-- The last tribute is in: the cards change hands and the returns are asked for. -/
def closeTributes (e : GameEngine) : Option (GameEngine × PlayResult) := do
  let (s, result) ← TributeManager.assignTributes e.state e.ruleContext e.tributeState.plan
    e.tributeState.tributeSubmissions { e.lastTribute with skipped := false, antiTribute := false }
  let e := { e with state := s, lastTribute := result }
  if result.tributes.isEmpty then
    finishTributePhaseAndStartPlay
      { e with
        lastTribute := { result with firstPlayerSeat := e.tributeState.plan.headSeat } }
  else
    return ({ e with
      tributeState := { e.tributeState with
        pendingReturnSeats := result.tributes.map (·.toSeat)
        returnToTributer := returnMap result.tributes }
      state := { s with phase := .returnTribute }.incrementStateVersion }, {})

def submitTribute (e : GameEngine) (playerId : PlayerId) (cardId : CardId) :
    Option (GameEngine × PlayResult) :=
  if e.state.phase ≠ .tribute ∨ e.tributeState.active = false then
    some (e, { code := .invalidState })
  else match e.seatOf playerId with
    | none => some (e, { code := .invalidState })
    | some seat =>
      if seat ∉ e.tributeState.pendingTributers then some (e, { code := .notYourTurn })
      else do
        let valid ← TributeManager.isValidTributeSubmission seat cardId e.state e.ruleContext
        if !valid then
          return (e, { code := .invalidCards, message := "Must tribute the largest non-wild card" })
        let e := e.recordTribute seat cardId
        if !e.tributeState.pendingTributers.isEmpty then return (e, {})
        e.closeTributes

/-- The accepted return goes to the tributer, and its seat is no longer pending. -/
def recordReturn (e : GameEngine) (seat : Nat) (cardId : CardId) : GameEngine :=
  let toSeat := (e.tributeState.returnToTributer seat).getD 0
  { e with
    lastTribute := { e.lastTribute with
      returns := e.lastTribute.returns ++ [⟨seat, toSeat, cardId⟩] }
    tributeState := { e.tributeState with
      pendingReturnSeats := e.tributeState.pendingReturnSeats.filter (· != seat) }
    state := (TributeManager.applyReturnTransfer e.state seat toSeat cardId).incrementStateVersion }

def submitReturn (e : GameEngine) (playerId : PlayerId) (cardId : CardId) :
    Option (GameEngine × PlayResult) :=
  if e.state.phase ≠ .returnTribute ∨ e.tributeState.active = false then
    some (e, { code := .invalidState })
  else match e.seatOf playerId with
    | none => some (e, { code := .invalidState })
    | some seat =>
      if seat ∉ e.tributeState.pendingReturnSeats then some (e, { code := .notYourTurn })
      else do
        let valid ← TributeManager.isValidReturnSubmission seat cardId e.state e.ruleContext
        if !valid then
          return (e, { code := .invalidCards, message := "Invalid return card" })
        let e := e.recordReturn seat cardId
        return (e, { tributeRoundComplete := e.tributeState.pendingReturnSeats.isEmpty })

def finalizeTributePhase (e : GameEngine) : Option (GameEngine × PlayResult) :=
  e.finishTributePhaseAndStartPlay

/-- No card where the source has 0. -/
def cardOrNone (cardId : CardId) : Option CardId := if cardId = 0 then none else some cardId

def chooseBotTributeCard (e : GameEngine) (playerId : PlayerId) : Option (Option CardId) :=
  match e.seatOf playerId with
  | none => some none
  | some seat =>
    (TributeManager.requiredTributeCard (e.state.players seat).hand e.state e.ruleContext).map
      cardOrNone

def chooseBotReturnCard (e : GameEngine) (playerId : PlayerId) : Option (Option CardId) :=
  match e.seatOf playerId with
  | none => some none
  | some seat =>
    (TributeManager.pickReturnCard (e.state.players seat).hand e.state e.ruleContext).map cardOrNone

/-! ### Starting a round -/

def startGame (e : GameEngine) (σ : Shuffle) : Option (GameEngine × PlayResult) :=
  if e.state.phase ≠ .waiting ∧ e.state.phase ≠ .ready then
    some (e, { code := .invalidState, message := "Cannot start game in current phase" })
  else if !e.allReady then
    some (e, { code := .notAllReady, message := "Not all players ready" })
  else dealAndStartPlaying { e with previousRound := {} } σ false

def startNextRound (e : GameEngine) (σ : Shuffle) : Option (GameEngine × PlayResult) :=
  if e.state.phase ≠ .finished then
    some (e, { code := .invalidState, message := "Cannot start next round in current phase" })
  else e.dealAndStartPlaying σ true

/-! ### Playing -/

/-- The checks of `playCards`: the seat and the pattern of an acceptable play, or the error. -/
def checkPlay (e : GameEngine) (playerId : PlayerId) (cards : List CardId) :
    Option (Except ErrorCode (Nat × CardPattern)) :=
  if e.state.phase ≠ .playing then some (.error .invalidState)
  else match e.seatOf playerId with
    | none => some (.error .invalidState)
    | some seat =>
      if seat ≠ e.state.currentPlayerIndex then some (.error .notYourTurn)
      else if (e.state.players seat).hasFinished then some (.error .invalidState)
      else if !(e.state.players seat).hand.contains cards then some (.error .invalidCards)
      else do
        let cardObjs ← e.state.cardsFromIds cards
        let pattern := CardAnalyzer.analyze cardObjs e.ruleContext
        if !pattern.isValid then return .error .invalidPattern
        else if e.state.lastPattern.isValid &&
            !RuleEngine.canBeat pattern e.state.lastPattern e.ruleContext then
          return .error .cannotBeat
        else return .ok (seat, pattern)

/-- The cards leave the hand, if `Hand.remove` finds them all, and lie on the table. -/
def acceptPlay (e : GameEngine) (seat : Nat) (cards : List CardId) (pattern : CardPattern) :
    GameEngine :=
  let s := e.state.setHand seat ((e.state.players seat).hand.remove cards).1
  { e with
    state :=
      { s with
        lastPlayedCards := cards
        lastPattern := pattern
        lastPlayedPlayerIndex := some seat
        passCount := 0 }.incrementStateVersion }

/-- The round is over: the others get their ranks, and the round is settled. -/
def finishRound (e : GameEngine) : GameEngine × PlayResult :=
  let s := e.state.assignRemainingFinishRanks
  let (progress, settlement) :=
    e.progress.applySettlement (Settlement.calculate s e.config.playersPerTeam)
  ({ e with
      state := { s with phase := .finished }
      progress := progress
      previousRound := buildPreviousRoundInfo s settlement.winningTeam },
    { gameOver := true, settlement := settlement })

/-- The turn goes on to the next player who has not finished. -/
def passTurnOn (e : GameEngine) : Option (GameEngine × PlayResult) := do
  let s ← e.state.advanceTurn.skipFinishedPlayers
  return ({ e with state := s }, {})

def playCards (e : GameEngine) (playerId : PlayerId) (cards : List CardId) :
    Option (GameEngine × PlayResult) := do
  match ← e.checkPlay playerId cards with
  | .error code => return (e, { code := code })
  | .ok (seat, pattern) =>
    let e := e.acceptPlay seat cards pattern
    if (e.state.players seat).hand.empty then
      let e := { e with state := e.state.assignFinishRank seat }
      if e.state.checkTeamWin e.config.playersPerTeam then return e.finishRound
      else e.passTurnOn
    else e.passTurnOn

def chooseBotPlay (e : GameEngine) (playerId : PlayerId) : Option (Option (List CardId)) :=
  match e.seatOf playerId with
  | none => some none
  | some seat => BotPlayer.choosePlay e.state seat e.ruleContext

/-- A pass counts, and either closes the trick or hands the turn on. -/
def acceptPass (e : GameEngine) (seat : Nat) : GameState :=
  let s := { e.state with passCount := e.state.passCount + 1 }.incrementStateVersion
  match s.lastPlayedPlayerIndex with
  | some leader =>
    if s.shouldResetRoundAfterPass seat || s.allOthersPassed then s.resetRound leader
    else s.advanceTurn
  | none => s.advanceTurn

def pass (e : GameEngine) (playerId : PlayerId) : Option (GameEngine × PlayResult) :=
  if e.state.phase ≠ .playing then some (e, { code := .invalidState })
  else match e.seatOf playerId with
    | none => some (e, { code := .notYourTurn })
    | some seat =>
      if seat ≠ e.state.currentPlayerIndex then some (e, { code := .notYourTurn })
      else if !e.state.lastPattern.isValid then
        some (e, { code := .invalidState, message := "Must play on new round" })
      else do
        let s ← (e.acceptPass seat).skipFinishedPlayers
        return ({ e with state := s }, {})

/-! ### The view of a player -/

/-- The unfinished teammates a finished viewer may watch. -/
def spectatableTeammates (s : GameState) (viewerSeat : Nat) : List Nat :=
  if (s.players viewerSeat).hasFinished then
    (List.range s.playerCount).filter fun i =>
      i != viewerSeat && (s.players i).team == (s.players viewerSeat).team &&
        !(s.players i).hasFinished
  else []

/-- The tributes on show: what was submitted, and once it is assigned what was given and what was
returned. -/
def tributeSeatPlays (e : GameEngine) : List TributeSeatPlay :=
  match e.state.phase with
  | .tribute => (List.range kPlayerCount).filterMap fun seat =>
      (e.tributeState.tributeSubmissions seat).map (⟨seat, ·, "tribute"⟩)
  | .returnTribute =>
    e.lastTribute.tributes.map (fun tr => ⟨tr.fromSeat, tr.cardId, "tribute"⟩) ++
      e.lastTribute.returns.map fun ret => ⟨ret.fromSeat, ret.cardId, "return"⟩
  | _ => []

/-- The card a viewer has to give; 0 unless the viewer is a pending tributer. -/
def viewRequired (e : GameEngine) (viewerSeat : Option Nat) : Option CardId :=
  match viewerSeat with
  | some seat =>
    if e.tributeState.active ∧ e.state.phase = .tribute ∧
        seat ∈ e.tributeState.pendingTributers then
      TributeManager.requiredTributeCard (e.state.players seat).hand e.state e.ruleContext
    else some 0
  | none => some 0

/-- The viewer has a return to make. -/
def viewMustReturn (e : GameEngine) (viewerSeat : Option Nat) : Bool :=
  match viewerSeat with
  | some seat => e.tributeState.active && e.state.phase == .returnTribute &&
      e.tributeState.pendingReturnSeats.contains seat
  | none => false

/-- The cards a viewer may return; none unless the viewer has a return to make. -/
def viewReturns (e : GameEngine) (viewerSeat : Option Nat) : Option (List CardId) :=
  match viewerSeat with
  | some seat =>
    if e.viewMustReturn (some seat) then
      TributeManager.validReturnCardIds (e.state.players seat).hand e.state e.ruleContext
    else some []
  | none => some []

def otherPlayer (s : GameState) (i : Nat) : OtherPlayer :=
  { id := (s.players i).id
    seatIndex := i
    team := (s.players i).team
    cardCount := (s.players i).hand.size
    hasFinished := (s.players i).hasFinished
    finishRank := (s.players i).finishRank
    isReady := (s.players i).isReady
    status := (s.players i).status }

/-- The seat the view is taken from. -/
def anchorSeat (e : GameEngine) (viewerSeat anchorSeatOverride : Option Nat) : Option Nat :=
  match anchorSeatOverride with
  | some anchor => if anchor < e.state.playerCount then some anchor else viewerSeat
  | none => viewerSeat

def buildViewFor (e : GameEngine) (viewerId : PlayerId) (anchorSeatOverride : Option Nat) :
    Option PlayerView := do
  let s := e.state
  let t := e.tributeState
  let viewerSeat := e.seatOf viewerId
  let anchor := e.anchorSeat viewerSeat anchorSeatOverride
  let required ← e.viewRequired viewerSeat
  let returns ← e.viewReturns viewerSeat
  return {
    phase := s.phase
    stateVersion := s.stateVersion
    turnId := s.turnId
    currentLevel := s.currentLevel
    attackingTeam := s.attackingTeam
    isPassARound := s.isPassARound
    isPlayingOwnRound := anchor.map fun seat => e.progress.isPlayingOwnRound (s.players seat).team
    teamLevels := e.progress.levels
    inPassAPhase := e.progress.inPassAPhase
    passAFailCounts := e.progress.passAFailCounts
    currentPlayerIndex := if t.active then none else some s.currentPlayerIndex
    firstPlayerIndex := if t.active then none else some s.firstPlayerIndex
    mySeatIndex := anchor
    viewerSeatIndex := viewerSeat
    isSpectating := viewerSeat.isSome && anchor != viewerSeat
    spectatableTeammates := match viewerSeat with
      | some seat => spectatableTeammates s seat
      | none => []
    myCards := match anchor with
      | some seat => (s.players seat).hand.cards
      | none => []
    lastPlayedCards := s.lastPlayedCards
    lastPlayedPlayerIndex := s.lastPlayedPlayerIndex
    lastPattern := s.lastPattern
    pendingTributerSeats := if t.active then t.pendingTributers else []
    pendingReturnSeats := if t.active then t.pendingReturnSeats else []
    requiredTributeCardId := required
    validReturnCardIds := returns
    mustReturnTribute := e.viewMustReturn viewerSeat
    tributeSeatPlays := e.tributeSeatPlays
    others := ((List.range s.playerCount).filter fun i => some i != anchor).map (otherPlayer s) }

end GameEngine

end Guandan
