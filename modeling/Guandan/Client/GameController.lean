import Guandan.Network.Broadcasts

/-!
# The client's picture of the game

`game_controller.dart`, `room_controller.dart` and the models they fill in, as far as they decide which
cards the client shows, whose turn it is and in which phase it takes the game to be. A message is what
the server has written into it; of the texts only the types are left. Sounds, animations, scores and
the order in which a hand is shown are left out. A number that the source reads as -1 where there is no
seat is an integer here.
-/

namespace Guandan.Client

/-! ### Models -/

structure GameCard where
  id : CardId
  selected : Bool := false
  deriving DecidableEq, Repr

def cardsFromIds (ids : List CardId) : List GameCard := ids.map fun id => { id := id }

structure Player where
  id : PlayerId
  seatIndex : Nat
  team : Team
  hasFinished : Bool
  deriving DecidableEq, Repr

structure ClientGameState where
  phase : GamePhase := .waiting
  turnId : Nat := 0
  currentLevel : Nat := 2
  currentPlayerIndex : Int := 0
  mySeatIndex : Int := 0
  ownSeatIndex : Int := 0
  isSpectating : Bool := false
  spectatableTeammates : List Nat := []
  myCards : List GameCard := []
  lastPlayedCards : List CardId := []
  lastPlayedPlayerId : Int := -1
  lastPlayedSeatIndex : Int := -1
  players : List Player := []
  pendingTributerSeats : List Nat := []
  requiredTributeCardId : CardId := 0
  validReturnCardIds : List CardId := []
  mustReturnTribute : Bool := false
  deriving DecidableEq, Repr

/-- The room as the client has it: the seats of its players. -/
structure ClientRoom where
  phase : GamePhase
  players : List (PlayerId × Nat) := []
  deriving DecidableEq, Repr

def parseRoomPhase : RoomPhase → GamePhase
  | .playing => .playing
  | .settlement => .roundEnd
  | .finished => .finished
  | .created | .waiting => .waiting

/-- A seat as it is written, -1 for none. -/
def seatNumber : Option Nat → Int
  | none => -1
  | some seat => seat

namespace ClientGameState

def isInTributeFlow (s : ClientGameState) : Bool := s.phase == .tribute || s.phase == .returnTribute

def isMyTurn (s : ClientGameState) : Bool :=
  !s.isSpectating && !s.isInTributeFlow && 0 ≤ s.currentPlayerIndex &&
    s.currentPlayerIndex == s.ownSeatIndex

def mustSubmitTribute (s : ClientGameState) : Bool :=
  !s.isSpectating && s.phase == .tribute &&
    s.pendingTributerSeats.any fun seat => (seat : Int) == s.ownSeatIndex

def mustSubmitReturn (s : ClientGameState) : Bool :=
  !s.isSpectating && s.phase == .returnTribute && s.mustReturnTribute

def canLeadFreely (s : ClientGameState) (myUserId : PlayerId) : Bool :=
  s.isMyTurn && (s.lastPlayedCards.isEmpty || s.lastPlayedPlayerId == myUserId)

/-- The ids of the cards in hand. -/
def handIds (s : ClientGameState) : List CardId := s.myCards.map (·.id)

def selectedCardIds (s : ClientGameState) : List CardId := (s.myCards.filter (·.selected)).map (·.id)

/-- The hand without these cards. -/
def without (s : ClientGameState) (cards : List CardId) : List GameCard :=
  s.myCards.filter fun c => !cards.contains c.id

def resolveLastPlayedPlayerId (seatIndex : Option Nat) (players : List Player) : Int :=
  match seatIndex with
  | none => -1
  | some seat => match players.find? fun p => p.seatIndex == seat with
    | some p => p.id
    | none => -1

def fromSnapshot (view : PlayerView) : ClientGameState :=
  let players := view.others.map fun p =>
    { id := p.id, seatIndex := p.seatIndex, team := p.team, hasFinished := p.hasFinished : Player }
  { phase := view.phase
    turnId := view.turnId
    currentLevel := view.currentLevel
    currentPlayerIndex := seatNumber view.currentPlayerIndex
    mySeatIndex := seatNumber view.mySeatIndex
    ownSeatIndex := seatNumber view.viewerSeatIndex
    isSpectating := view.isSpectating
    spectatableTeammates := view.spectatableTeammates
    myCards := cardsFromIds view.myCards
    lastPlayedCards := view.lastPlayedCards
    lastPlayedPlayerId := resolveLastPlayedPlayerId view.lastPlayedPlayerIndex players
    lastPlayedSeatIndex := seatNumber view.lastPlayedPlayerIndex
    players := players
    pendingTributerSeats := view.pendingTributerSeats
    requiredTributeCardId := view.requiredTributeCardId
    validReturnCardIds := view.validReturnCardIds
    mustReturnTribute := view.mustReturnTribute }

end ClientGameState

/-! ### Requests -/

inductive Request
  | playCards (cards : List CardId) (turnId : Nat)
  | pass (turnId : Nat)
  | submitTribute (cardId : CardId)
  | submitReturn (cardId : CardId)
  | spectateTeammate (targetSeatIndex : Int)
  | login
  | reconnect
  | joinRoom
  | leaveRoom
  | ready
  | unready
  | changeSeat (seatIndex : Int)
  | startGame
  | setRoomOptions (enableTribute : Bool)
  | requestDismiss
  | voteDismiss (agree : Bool)
  deriving DecidableEq, Repr

end Client

/-- The client of a player who is logged in. -/
structure Client where
  userId : PlayerId
  game : Client.ClientGameState := {}
  room : Option Client.ClientRoom := none
  deriving DecidableEq, Repr

namespace Client

/-! ### Reading a message -/

/-- `RoomController._handleMessage`. -/
def handleMessage (c : Client) : ServerMessage → Client
  | .roomCreated => { c with room := some { phase := .waiting } }
  | .roomJoined roomPhase players | .roomState roomPhase players =>
    { c with room := some { phase := parseRoomPhase roomPhase, players := players } }
  | .gameStarted =>
    { c with room := some { phase := .playing, players := (c.room.map (·.players)).getD [] } }
  | .loginResult (some roomPhase) => { c with room := some { phase := parseRoomPhase roomPhase } }
  | .roomDismissed => { c with room := none }
  | _ => c

/-- The phase of the room is set if there is a room. -/
def setRoomPhase (c : Client) (phase : GamePhase) : Client :=
  { c with room := c.room.map ({ · with phase := phase }) }

/-- Nothing is left of the last trick. -/
def resetTrick (s : ClientGameState) : ClientGameState :=
  { s with lastPlayedCards := [], lastPlayedPlayerId := -1, lastPlayedSeatIndex := -1 }

/-- The card that has to be given is selected. -/
def applyDealtSnapshot (s : ClientGameState) : ClientGameState :=
  if s.mustSubmitTribute && 0 < s.requiredTributeCardId then
    { s with myCards :=
        s.myCards.map fun c => { id := c.id, selected := c.id == s.requiredTributeCardId } }
  else s

/-- A snapshot that comes while the room is between two rounds shows no game. -/
def applyGameSnapshot (c : Client) (view : PlayerView) : ClientGameState :=
  let s := applyDealtSnapshot (.fromSnapshot view)
  if (c.room.map (·.phase)) = some .roundEnd then
    { resetTrick s with phase := .roundEnd, myCards := [] }
  else s

def applySpectateUpdate (s : ClientGameState) (view : PlayerView) : ClientGameState :=
  let new := ClientGameState.fromSnapshot view
  { s with
    mySeatIndex := new.mySeatIndex
    ownSeatIndex := new.ownSeatIndex
    isSpectating := new.isSpectating
    spectatableTeammates := new.spectatableTeammates
    myCards := new.myCards
    players := new.players
    currentLevel := new.currentLevel
    currentPlayerIndex := new.currentPlayerIndex
    turnId := new.turnId }

/-- The seat of a player: as the room has it, else as the game has it, else that of the last play. -/
def seatOfPlayer (c : Client) (playerId : PlayerId) : Int :=
  match ((c.room.map (·.players)).getD []).find? fun p => p.1 == playerId with
  | some p => p.2
  | none => match c.game.players.find? fun p => p.id == playerId with
    | some p => p.seatIndex
    | none => c.game.lastPlayedSeatIndex

/-- These players are marked. -/
def setFinished (marked : PlayerId → Bool) (hasFinished : Bool) (p : Player) : Player :=
  if marked p.id then { p with hasFinished := hasFinished } else p

def applyPlayerPlayed (c : Client) (playerId : PlayerId) (cards : List CardId) (hasFinished : Bool)
    (nextPlayer turnId : Nat) : ClientGameState :=
  let s := c.game
  let lastPlayedSeatIndex := c.seatOfPlayer playerId
  let removes := if s.isSpectating then lastPlayedSeatIndex == s.mySeatIndex else playerId == c.userId
  { s with
    phase := .playing
    lastPlayedCards := cards
    lastPlayedPlayerId := playerId
    lastPlayedSeatIndex := lastPlayedSeatIndex
    myCards := if removes then s.without cards else s.myCards
    players := s.players.map (setFinished (fun id => id == playerId && !cards.isEmpty) hasFinished)
    turnId := turnId
    currentPlayerIndex := nextPlayer }

def applyPlayerPassed (s : ClientGameState) (roundReset : Bool) (nextPlayer turnId : Nat) :
    ClientGameState :=
  let leadAgain := !roundReset && 0 ≤ s.lastPlayedSeatIndex && (nextPlayer : Int) == s.lastPlayedSeatIndex
  let s := if roundReset || leadAgain then resetTrick s else s
  { s with turnId := turnId, currentPlayerIndex := nextPlayer }

def applySettlement (s : ClientGameState) (matchWon : Bool) (finishRanks : List PlayerId) :
    ClientGameState :=
  let s := { s with players := s.players.map (setFinished finishRanks.contains true) }
  if matchWon then { s with phase := .settlement }
  else { resetTrick s with phase := .roundEnd, myCards := [] }

/-- `GameController._handleGameMessage`. -/
def handleGameMessage (c : Client) : ServerMessage → Client
  | .gameSnapshot view => { c with game := c.applyGameSnapshot view }
  | .cardsDealt view =>
    { c with game := applyDealtSnapshot (resetTrick (.fromSnapshot view)) }.setRoomPhase .playing
  | .tributePhaseUpdated view =>
    { c with game := applyDealtSnapshot (.fromSnapshot view) }.setRoomPhase .playing
  | .spectateUpdate view | .spectateChanged view =>
    { c with game := applySpectateUpdate c.game view }
  | .playerPlayed playerId cards hasFinished nextPlayer turnId =>
    { c with game := c.applyPlayerPlayed playerId cards hasFinished nextPlayer turnId }
  | .playerPassed _ roundReset nextPlayer turnId =>
    { c with game := applyPlayerPassed c.game roundReset nextPlayer turnId }
  | .settlement matchWon finishRanks =>
    let c := { c with game := applySettlement c.game matchWon finishRanks }
    if matchWon then c else c.setRoomPhase .roundEnd
  | .gameOver => { c with game := { c.game with phase := .finished } }
  | .roomDismissed => { c with game := {} }
  | _ => c

/-- The room's listener is called before the game's. -/
def receive (c : Client) (m : ServerMessage) : Client := (c.handleMessage m).handleGameMessage m

/-- The seat that a player who is out watches from now on. -/
def autoSpectateTeammate (c : Client) : Option Nat :=
  if c.game.isSpectating || c.room.isNone then none
  else match c.game.players.find? fun p => p.id == c.userId with
    | none => none
    | some me =>
      if !me.hasFinished then none
      else match c.game.spectatableTeammates with
        | seat :: _ => some seat
        | [] => (c.game.players.find? fun p =>
            p.seatIndex != me.seatIndex && p.team == me.team && !p.hasFinished).map (·.seatIndex)

/-- What the client asks for of itself when it has read a message. -/
def answers (c : Client) : ServerMessage → List Request
  | .playerPlayed playerId _ true _ _ =>
    if playerId = c.userId then
      c.autoSpectateTeammate.toList.map fun seat => .spectateTeammate seat
    else []
  | _ => []

/-! ### What the player does -/

inductive Tap
  | playCards (cards : List CardId)
  | pass
  | submitTribute
  | submitReturn
  /-- Whatever gesture selects these cards of the hand. -/
  | select (cards : List CardId)
  /-- A request that changes nothing before it is answered. -/
  | send (request : Request)
  /-- The end of `leaveRoom`, some time after its request. -/
  | forgetRoom
  deriving DecidableEq, Repr

/-- The requests that a controller sends on their own. -/
def Request.isPlain : Request → Bool
  | .playCards .. | .pass _ | .submitTribute _ | .submitReturn _ => false
  | _ => true

section Taps

-- `validatePlaySelection`: the cards selected, the level, and the cards to beat unless any may be led.
variable (validate : List CardId → Nat → Option (List CardId) → Bool)

def playCards (c : Client) (cards : List CardId) : Client × Option Request :=
  let s := c.game
  let selected := s.handIds.filter cards.contains
  let lastPlayed := if s.canLeadFreely c.userId then none else some s.lastPlayedCards
  if cards.isEmpty || !validate selected s.currentLevel lastPlayed then (c, none)
  else ({ c with game := { s with
      phase := .playing
      myCards := s.without cards
      lastPlayedCards := cards
      lastPlayedPlayerId := c.userId
      lastPlayedSeatIndex := s.mySeatIndex } }, some (.playCards cards s.turnId))

def submitTribute (c : Client) : Client × Option Request :=
  let s := c.game
  let cardId := s.requiredTributeCardId
  let canSubmitTribute := s.mustSubmitTribute && s.selectedCardIds == [cardId]
  if !canSubmitTribute || cardId == 0 then (c, none)
  else ({ c with game := { s with myCards := s.without [cardId] } }, some (.submitTribute cardId))

def submitReturn (c : Client) : Client × Option Request :=
  let s := c.game
  match s.selectedCardIds with
  | [cardId] =>
    if s.mustSubmitReturn && s.validReturnCardIds.contains cardId then
      ({ c with game := { s with myCards := s.without [cardId] } }, some (.submitReturn cardId))
    else (c, none)
  | _ => (c, none)

/-- The client after a tap, and the request it sends. -/
def tap (c : Client) : Tap → Client × Option Request
  | .playCards cards => c.playCards validate cards
  | .pass => (c, some (.pass c.game.turnId))
  | .submitTribute => c.submitTribute
  | .submitReturn => c.submitReturn
  | .select cards => ({ c with game := { c.game with
      myCards := c.game.myCards.map fun card => { card with selected := cards.contains card.id } } },
      none)
  | .send request => (c, if request.isPlain then some request else none)
  | .forgetRoom => ({ c with room := none }, none)

end Taps

end Guandan.Client
