import Guandan.Engine.Operations
import Guandan.Room.Room

/-!
# A room behind the dispatcher

The handlers of `message_dispatcher.cpp` on one room, with what they use of `RoomManager` and of the
timers. Inputs are the requests of players (by the id their session is bound to), the firing of a
timer and the tasks that timers and bots' turns post to the room's queue; each runs to its end
before the next. Messages sent to clients are left out but for the error code of the reply. A
handler in which the engine throws has no answer.
-/

namespace Guandan

/-- The work posted to the queue of a room, besides requests. -/
inductive RoomTask
  | botTurn (playerId : PlayerId)
  | botTribute
  deriving DecidableEq, Repr

/-- The call that started a round, and the phase the room was in. -/
inductive RoundStart
  | startGame (phase : RoomPhase)
  | startNextRound (phase : RoomPhase)
  deriving DecidableEq, Repr

/-- The reply to the sender of a request, and the rounds that it started. -/
structure TableOut where
  reply : Option ErrorCode := none
  starts : List RoundStart := []
  deriving DecidableEq, Repr

structure Table where
  room : Room
  /-- The players whose entry in `playerRoomMap_` names this room. -/
  registered : PlayerId → Bool
  /-- The room is in `rooms_`. -/
  isOpen : Bool := true
  turnTimer : Option PlayerId := none
  tributeTimer : Bool := false
  tasks : List RoomTask := []

namespace Table

def create (roomId : RoomId) (ownerId : PlayerId) (mode : String) : Table :=
  { room := Room.create roomId ownerId mode, registered := fun id => id == ownerId }

def setEngine (t : Table) (e : GameEngine) : Table := { t with room := { t.room with engine := e } }

/-! ### `RoomManager` -/

/-- `findRoomByPlayer` finds this room. -/
def finds (t : Table) (playerId : PlayerId) : Bool := t.registered playerId && t.isOpen

def joinRoom (t : Table) (playerId : PlayerId) : Option Table :=
  if t.registered playerId then none
  else if !t.isOpen then none
  else (t.room.join playerId).map fun room => { t with
    room := room
    registered := Function.update t.registered playerId true }

def removePlayerFromRoom (t : Table) (playerId : PlayerId) : Table :=
  if isBotPlayer playerId then t
  else { t with
    isOpen := t.isOpen && !t.room.isEmpty
    registered := Function.update t.registered playerId false }

def removeRoom (t : Table) : Table :=
  { t with
    isOpen := false
    registered := fun id =>
      t.registered id && !(t.room.containsPlayer id && !isBotPlayer id) }

/-! ### Timers -/

def cancelTurnTimer (t : Table) : Table := { t with turnTimer := none }

def cancelTributeTimer (t : Table) : Table := { t with tributeTimer := false }

/-- A bot's turn is posted at once, a person's waits for the timer. -/
def scheduleTurnTimer (t : Table) : Table :=
  let t := t.cancelTurnTimer
  let s := t.room.engine.state
  if s.phase ≠ .playing then t
  else if s.playerCount ≤ s.currentPlayerIndex then t
  else
    let currentPlayer := (s.players s.currentPlayerIndex).id
    if isBotPlayer currentPlayer then { t with tasks := t.tasks ++ [.botTurn currentPlayer] }
    else { t with turnTimer := some currentPlayer }

def scheduleTributeTimer (t : Table) : Table :=
  { t.cancelTributeTimer with tributeTimer := t.room.engine.hasPendingTributeAction }

/-! ### The course of a round -/

def onTributePhaseCompleted (t : Table) : Table := t.scheduleTurnTimer

/-- The end of a step of the tribute phase: pending seats are waited for, and once play has begun
the first turn is scheduled. -/
def continueTribute (t : Table) : Table :=
  if t.room.engine.hasPendingTributeAction then t.scheduleTributeTimer
  else if t.room.engine.state.phase = .playing then t.onTributePhaseCompleted
  else t

def onRoundStarted (t : Table) : Table :=
  if t.room.engine.hasPendingTributeAction then t.scheduleTributeTimer
  else if t.room.engine.state.phase = .playing then t.scheduleTurnTimer
  else t

def tryStartNextRound (t : Table) (σ : Shuffle) : Option (Table × List RoundStart) :=
  if t.room.phase ≠ .settlement ∨ t.room.allReady = false then some (t, [])
  else do
    let (room, started) ← t.room.startNextRound σ
    if started then return (onRoundStarted { t with room := room }, [.startNextRound t.room.phase])
    else return ({ t with room := room }, [])

def onGameOver (t : Table) (result : SettlementResult) (σ : Shuffle) :
    Option (Table × List RoundStart) :=
  let t := t.cancelTurnTimer.cancelTributeTimer
  if result.matchWon then some ({ t with room := t.room.finishMatch }, [])
  else tryStartNextRound { t with room := t.room.enterSettlement } σ

/-- After a play: the round is over, or the next turn is scheduled. -/
def afterPlay (t : Table) (result : PlayResult) (σ : Shuffle) : Option (Table × List RoundStart) :=
  if result.gameOver then t.onGameOver result.settlement σ else some (t.scheduleTurnTimer, [])

/-! ### Bots -/

def botPass (t : Table) (botId : PlayerId) (σ : Shuffle) : Option (Table × List RoundStart) := do
  let (e, result) ← t.room.engine.pass botId
  if result.code = .ok then (t.setEngine e).afterPlay result σ else return (t, [])

def executeBotTurn (t : Table) (botId : PlayerId) (σ : Shuffle) :
    Option (Table × List RoundStart) :=
  if !isBotPlayer botId then some (t, [])
  else if t.room.engine.state.phase ≠ .playing then some (t, [])
  else if t.room.engine.seatOf botId ≠ some t.room.engine.state.currentPlayerIndex then some (t, [])
  else do
    let t := t.cancelTurnTimer
    match ← t.room.engine.chooseBotPlay botId with
    | none => t.botPass botId σ
    | some play =>
      let (e, result) ← t.room.engine.playCards botId play
      if result.code = .ok then (t.setEngine e).afterPlay result σ else t.botPass botId σ

/-- What the loops over the pending seats have reached. They run over the cells of a vector that
shrinks under them: a removal moves the later seats up and leaves the last cells as they were. -/
structure BotRound where
  engine : GameEngine
  cells : List Nat
  acted : Bool := false

/-- One turn of such a loop, with how a card is chosen and submitted and which seats are pending. -/
def botRoundStep (choose : GameEngine → PlayerId → Option (Option CardId))
    (submit : GameEngine → PlayerId → CardId → Option (GameEngine × PlayResult))
    (pending : GameEngine → List Nat) (b : BotRound) (i : Nat) : Option BotRound :=
  let seat := b.cells.getD i 0
  let botId := (b.engine.state.players seat).id
  if b.engine.state.playerCount ≤ seat then some b
  else if !isBotPlayer botId then some b
  else do
    match ← choose b.engine botId with
    | none => return b
    | some cardId =>
      let (e, result) ← submit b.engine botId cardId
      return {
        engine := e
        cells := pending e ++ b.cells.drop (pending e).length
        acted := b.acted || result.code == .ok }

/-- Such a loop, over as many cells as there are seats pending when it begins. -/
def botRound (choose : GameEngine → PlayerId → Option (Option CardId))
    (submit : GameEngine → PlayerId → CardId → Option (GameEngine × PlayResult))
    (pending : GameEngine → List Nat) (e : GameEngine) : Option BotRound :=
  (List.range (pending e).length).foldlM (botRoundStep choose submit pending)
    { engine := e, cells := pending e }

/-- The loop over the pending tributers. -/
def botTributes (e : GameEngine) : Option BotRound :=
  botRound GameEngine.chooseBotTributeCard GameEngine.submitTribute
    (·.tributeState.pendingTributers) e

/-- The loop over the seats that have a return to make. -/
def botReturns (e : GameEngine) : Option BotRound :=
  botRound GameEngine.chooseBotReturnCard GameEngine.submitReturn
    (·.tributeState.pendingReturnSeats) e

def executeBotTributeActions (t : Table) : Option Table :=
  if !t.room.engine.hasPendingTributeAction then some t
  else do
    let t := t.cancelTributeTimer
    let e := t.room.engine
    let b ← match e.state.phase with
      | .tribute => botTributes e
      | .returnTribute => botReturns e
      | _ => some { engine := e, cells := [] }
    return (t.setEngine b.engine).continueTribute

/-! ### Requests -/

/-- The reply alone. -/
def refuse (t : Table) (code : ErrorCode) : Option (Table × TableOut) :=
  some (t, { reply := some code })

/-- A request that has been carried out. -/
def accept (answer : Option (Table × List RoundStart)) : Option (Table × TableOut) :=
  answer.map fun a => (a.1, { reply := some .ok, starts := a.2 })

def handleJoinRoom (t : Table) (playerId : PlayerId) : Option (Table × TableOut) :=
  match t.joinRoom playerId with
  | some t => accept (some (t, []))
  | none =>
    if !t.isOpen then t.refuse .roomNotFound
    else if t.room.isFull then t.refuse .roomFull
    else t.refuse .alreadyInRoom

def handleLeaveRoom (t : Table) (playerId : PlayerId) : Option (Table × TableOut) :=
  if !t.finds playerId then t.refuse .notInRoom
  else accept (some
    (removePlayerFromRoom { t with room := t.room.leave playerId } playerId, []))

def handleReady (t : Table) (playerId : PlayerId) (σ : Shuffle) : Option (Table × TableOut) :=
  if !t.finds playerId then t.refuse .notInRoom
  else accept (tryStartNextRound { t with room := (t.room.ready playerId).getD t.room } σ)

/-- A request that only concerns the room, refused with a code of its own. -/
def handleRoom (t : Table) (playerId : PlayerId) (call : Option Room) (code : ErrorCode) :
    Option (Table × TableOut) :=
  if !t.finds playerId then t.refuse .notInRoom
  else match call with
    | none => t.refuse code
    | some room => accept (some ({ t with room := room }, []))

def handleUnready (t : Table) (playerId : PlayerId) : Option (Table × TableOut) :=
  t.handleRoom playerId (t.room.unready playerId) .invalidState

def handleChangeSeat (t : Table) (playerId : PlayerId) (seatIndex : Int) :
    Option (Table × TableOut) :=
  t.handleRoom playerId (t.room.changeSeat playerId seatIndex) .invalidState

def handleSetRoomOptions (t : Table) (playerId : PlayerId) (enableTribute : Bool) :
    Option (Table × TableOut) :=
  t.handleRoom playerId (t.room.setEnableTribute playerId enableTribute)
    (if t.room.ownerId ≠ playerId then .notRoomOwner else .invalidState)

def handleStartGame (t : Table) (playerId : PlayerId) (σ : Shuffle) : Option (Table × TableOut) :=
  if !t.finds playerId then t.refuse .notInRoom
  else if t.room.ownerId ≠ playerId then t.refuse .notRoomOwner
  else do
    let (room, started) ← t.room.startGame σ
    if started then
      accept (some (onRoundStarted { t with room := room }, [.startGame t.room.phase]))
    else refuse { t with room := room } .notAllReady

/-- The error of a request out of turn; a request without turn id has 0. -/
def validateTurn (t : Table) (playerId : PlayerId) (turnId : Nat) : Option ErrorCode :=
  let s := t.room.engine.state
  if s.phase ≠ .playing then some .invalidState
  else if 0 < turnId ∧ turnId ≠ s.turnId then some .requestExpired
  else if s.playerCount ≤ s.currentPlayerIndex then some .invalidState
  else if (s.players s.currentPlayerIndex).id ≠ playerId then some .notYourTurn
  else none

def handlePlayCards (t : Table) (playerId : PlayerId) (turnId : Nat) (cards : List CardId)
    (σ : Shuffle) : Option (Table × TableOut) :=
  if !t.finds playerId then t.refuse .notInRoom
  else match t.validateTurn playerId turnId with
    | some code => t.refuse code
    | none =>
      if cards.isEmpty then t.refuse .invalidCards
      else do
        let (e, result) ← t.room.engine.playCards playerId cards
        if result.code ≠ .ok then t.refuse result.code
        else accept ((t.setEngine e).cancelTurnTimer.afterPlay result σ)

def handlePass (t : Table) (playerId : PlayerId) (turnId : Nat) : Option (Table × TableOut) :=
  if !t.finds playerId then t.refuse .notInRoom
  else match t.validateTurn playerId turnId with
    | some code => t.refuse code
    | none => do
      let (e, result) ← t.room.engine.pass playerId
      if result.code ≠ .ok then t.refuse result.code
      else accept (some ((t.setEngine e).scheduleTurnTimer, []))

/-- A request with no card, or with card 0, has 0. -/
def handleSubmitTribute (t : Table) (playerId : PlayerId) (cardId : CardId) :
    Option (Table × TableOut) :=
  if !t.finds playerId then t.refuse .notInRoom
  else if cardId = 0 then t.refuse .invalidCards
  else do
    let (e, result) ← t.room.engine.submitTribute playerId cardId
    if result.code ≠ .ok then t.refuse result.code
    else accept (some ((t.setEngine e).cancelTributeTimer.continueTribute, []))

def handleSubmitReturn (t : Table) (playerId : PlayerId) (cardId : CardId) :
    Option (Table × TableOut) :=
  if !t.finds playerId then t.refuse .notInRoom
  else if cardId = 0 then t.refuse .invalidCards
  else do
    let (e, result) ← t.room.engine.submitReturn playerId cardId
    if result.code ≠ .ok then t.refuse result.code
    else
      let t := (t.setEngine e).cancelTributeTimer
      if result.tributeRoundComplete then
        let (e, _) ← e.finalizeTributePhase
        accept (some ((t.setEngine e).onTributePhaseCompleted, []))
      else accept (some (t.continueTribute, []))

def dissolveRoom (t : Table) : Table := t.cancelTurnTimer.removeRoom

def handleRequestDismiss (t : Table) (playerId : PlayerId) : Option (Table × TableOut) :=
  if !t.finds playerId then t.refuse .notInRoom
  else match t.room.requestDismiss playerId with
    | none => t.refuse .invalidState
    | some room =>
      let t := { t with room := room }
      accept (some (if room.dismissVote.allAgreed then t.dissolveRoom else t, []))

def handleVoteDismiss (t : Table) (playerId : PlayerId) (agree : Bool) :
    Option (Table × TableOut) :=
  if !t.finds playerId then t.refuse .notInRoom
  else if !t.room.dismissVote.active then t.refuse .invalidState
  else match t.room.voteDismiss playerId agree with
    | none => t.refuse .invalidState
    | some room =>
      let t := { t with room := room }
      if !agree || room.dismissVote.hasRejection then
        accept (some ({ t with room := room.cancelDismissVote }, []))
      else accept (some (if room.dismissVote.allAgreed then t.dissolveRoom else t, []))

/-! ### Tasks -/

/-- A task of the queue has been run. -/
def done (answer : Option (Table × List RoundStart)) : Option (Table × TableOut) :=
  answer.map fun a => (a.1, { starts := a.2 })

def runTask (t : Table) (σ : Shuffle) : Option (Table × TableOut) :=
  match t.tasks with
  | [] => none
  | .botTurn playerId :: tasks => done (executeBotTurn { t with tasks := tasks } playerId σ)
  | .botTribute :: tasks =>
    done ((executeBotTributeActions { t with tasks := tasks }).map (·, []))

/-- The turn timer fires: it is gone, and the turn of its player is posted. -/
def fireTurnTimer (t : Table) : Option (Table × TableOut) :=
  t.turnTimer.map fun playerId =>
    ({ t with turnTimer := none, tasks := t.tasks ++ [.botTurn playerId] }, {})

def fireTributeTimer (t : Table) : Option (Table × TableOut) :=
  if t.tributeTimer then
    some ({ t with tributeTimer := false, tasks := t.tasks ++ [.botTribute] }, {})
  else none

end Table

/-- Requests, timers and tasks. `fillBots` is no request: with it a run can seat any mix of people
and bots, where `createRoom` fills only the rooms for one. -/
inductive TableOp
  | joinRoom (playerId : PlayerId)
  | leaveRoom (playerId : PlayerId)
  | ready (playerId : PlayerId) (σ : Shuffle)
  | unready (playerId : PlayerId)
  | changeSeat (playerId : PlayerId) (seatIndex : Int)
  | setRoomOptions (playerId : PlayerId) (enableTribute : Bool)
  | startGame (playerId : PlayerId) (σ : Shuffle)
  | playCards (playerId : PlayerId) (turnId : Nat) (cards : List CardId) (σ : Shuffle)
  | pass (playerId : PlayerId) (turnId : Nat)
  | submitTribute (playerId : PlayerId) (cardId : CardId)
  | submitReturn (playerId : PlayerId) (cardId : CardId)
  | requestDismiss (playerId : PlayerId)
  | voteDismiss (playerId : PlayerId) (agree : Bool)
  | runTask (σ : Shuffle)
  | fireTurnTimer
  | fireTributeTimer
  | fillBots

namespace Table

def apply (t : Table) : TableOp → Option (Table × TableOut)
  | .joinRoom playerId => t.handleJoinRoom playerId
  | .leaveRoom playerId => t.handleLeaveRoom playerId
  | .ready playerId σ => t.handleReady playerId σ
  | .unready playerId => t.handleUnready playerId
  | .changeSeat playerId seatIndex => t.handleChangeSeat playerId seatIndex
  | .setRoomOptions playerId enableTribute => t.handleSetRoomOptions playerId enableTribute
  | .startGame playerId σ => t.handleStartGame playerId σ
  | .playCards playerId turnId cards σ => t.handlePlayCards playerId turnId cards σ
  | .pass playerId turnId => t.handlePass playerId turnId
  | .submitTribute playerId cardId => t.handleSubmitTribute playerId cardId
  | .submitReturn playerId cardId => t.handleSubmitReturn playerId cardId
  | .requestDismiss playerId => t.handleRequestDismiss playerId
  | .voteDismiss playerId agree => t.handleVoteDismiss playerId agree
  | .runTask σ => t.runTask σ
  | .fireTurnTimer => t.fireTurnTimer
  | .fireTributeTimer => t.fireTributeTimer
  | .fillBots => some ({ t with room := t.room.fillBots }, {})

end Table

/-- A room, as its players and its timers drive it. -/
def table : Machine Table TableOp TableOut := ⟨Table.apply⟩

/-- Who sends a request; a session is never bound to player 0. -/
def TableOp.sender? : TableOp → Option PlayerId
  | .joinRoom id | .leaveRoom id | .ready id _ | .unready id | .changeSeat id _
  | .setRoomOptions id _ | .startGame id _ | .playCards id _ _ _ | .pass id _
  | .submitTribute id _ | .submitReturn id _ | .requestDismiss id | .voteDismiss id _ => some id
  | .runTask _ | .fireTurnTimer | .fireTributeTimer | .fillBots => none

/-- Requests come from players, and bots are seated once, before the match. -/
def TableCall (t : Table) (op : TableOp) : Prop :=
  op.sender? ≠ some 0 ∧
    (op = .fillBots → t.room.phase = .waiting ∧ t.room.players.all (!·.isBot) = true)

end Guandan
