import Guandan.Network.TableSteps
import Guandan.Room.Spectating

/-!
# What the handlers send

The messages that a step of a room sends to one player, the `viewer`, in the order of the source. A
message has the data that its reader uses; of the others only the type is left. What a step makes of
the room is not worked out again: a handler is followed from the room before it to the room after it,
through the calls in between.
-/

namespace Guandan

inductive ServerMessage
  | gameSnapshot (view : PlayerView)
  | cardsDealt (view : PlayerView)
  | tributePhaseUpdated (view : PlayerView)
  | spectateUpdate (view : PlayerView)
  | spectateChanged (view : PlayerView)
  | playerPlayed (playerId : PlayerId) (cards : List CardId) (hasFinished : Bool)
      (nextPlayer turnId : Nat)
  | playerPassed (playerId : PlayerId) (roundReset : Bool) (nextPlayer turnId : Nat)
  | settlement (matchWon : Bool) (finishRanks : List PlayerId)
  | gameOver
  | roomDismissed
  | gameStarted
  | roomCreated
  | roomJoined (roomPhase : RoomPhase) (players : List (PlayerId × Nat))
  | roomState (roomPhase : RoomPhase) (players : List (PlayerId × Nat))
  /-- With the phase of the room that the player is in, if any. -/
  | loginResult (roomPhase : Option RoomPhase)
  | error (code : ErrorCode)
  /-- A message of which nothing is read. -/
  | other (type : String)

section Sending

variable (viewer : PlayerId) (targets : SpectateTargets)

/-- As far as it goes to the viewer. -/
def broadcastToRoom (r : Room) (ms : List ServerMessage) : List ServerMessage :=
  if r.containsPlayer viewer then ms else []

def sendPlayerView (r : Room) (message : PlayerView → ServerMessage) : List ServerMessage :=
  (r.playerView targets viewer).toList.map message

/-- `sendPlayerView` for every player of the room. -/
def sendPlayerViews (r : Room) (message : PlayerView → ServerMessage) : List ServerMessage :=
  broadcastToRoom viewer r (sendPlayerView viewer targets r message)

def sendResponse (sender : PlayerId) (m : ServerMessage) : List ServerMessage :=
  if sender = viewer then [m] else []

def sendSpectateUpdatesToFinishedPlayers (r : Room) : List ServerMessage :=
  let s := r.engine.state
  if s.phase ≠ .playing then []
  else match r.engine.seatOf viewer with
    | none => []
    | some viewerSeat =>
      if (s.players viewerSeat).hasFinished then sendPlayerViews viewer targets r .spectateUpdate
      else []

def roomStateMessage (r : Room) : ServerMessage :=
  .roomState r.phase (r.players.map fun p => (p.id, p.seatIndex))

/-! ### The course of a round -/

def onTributePhaseCompletedSent (r : Room) : List ServerMessage :=
  broadcastToRoom viewer r [.other "tribute_resolved"] ++ sendPlayerViews viewer targets r .cardsDealt

def onRoundStartedSent (r : Room) : List ServerMessage :=
  let tribute := r.engine.lastTribute
  sendPlayerViews viewer targets r .cardsDealt ++
    if r.engine.hasPendingTributeAction then []
    else if !tribute.skipped || tribute.antiTribute || !tribute.tributes.isEmpty then
      broadcastToRoom viewer r [.other "tribute_resolved"]
    else []

/-- Nobody is watched any more once a round has started. -/
def targetsAfter (starts : List RoundStart) : SpectateTargets :=
  if starts.isEmpty then targets else Room.clearSpectateTargets

/-- If the next round has started: with the room that it started in. -/
def tryStartNextRoundSent (r : Room) (starts : List RoundStart) : List ServerMessage :=
  if starts.isEmpty then [] else onRoundStartedSent viewer (targetsAfter targets starts) r

/-- The round is over in the room `r`; `r'` is the room when all is done. -/
def onGameOverSent (r : Room) (result : SettlementResult) (r' : Room) (starts : List RoundStart) :
    List ServerMessage :=
  let s := r.engine.state
  let finishRanks := (List.range s.playerCount).map fun i => (s.players i).id
  broadcastToRoom viewer r [.settlement result.matchWon finishRanks] ++
    if result.matchWon then broadcastToRoom viewer r [.gameOver]
    else broadcastToRoom viewer r [roomStateMessage r.enterSettlement] ++
      tryStartNextRoundSent viewer targets r' starts

/-- What a play is reported with, to the room and to the player. -/
def playedMessage (e : GameEngine) (playerId : PlayerId) (cards : List CardId) : ServerMessage :=
  .playerPlayed playerId cards (e.state.players ((e.seatOf playerId).getD 0)).hasFinished
    e.state.currentPlayerIndex e.state.turnId

def passedMessage (e : GameEngine) (playerId : PlayerId) : ServerMessage :=
  .playerPassed playerId (!e.state.lastPattern.isValid) e.state.currentPlayerIndex e.state.turnId

/-- A turn, which `m` reports, and the end of the round if it has ended it. -/
def turnSent (r : Room) (m : ServerMessage) (result : PlayResult) (r' : Room)
    (starts : List RoundStart) : List ServerMessage :=
  broadcastToRoom viewer r [m] ++ sendSpectateUpdatesToFinishedPlayers viewer targets r ++
    if result.gameOver then onGameOverSent viewer targets r result.settlement r' starts else []

def botPassSent (r : Room) (botId : PlayerId) (r' : Room) (starts : List RoundStart) :
    List ServerMessage :=
  match r.engine.pass botId with
  | some (e, result) =>
    if result.code = .ok then
      turnSent viewer targets { r with engine := e } (passedMessage e botId) result r' starts
    else []
  | none => []

def executeBotTurnSent (r : Room) (botId : PlayerId) (r' : Room) (starts : List RoundStart) :
    List ServerMessage :=
  let s := r.engine.state
  if !isBotPlayer botId then []
  else if s.phase ≠ .playing then []
  else if r.engine.seatOf botId ≠ some s.currentPlayerIndex then []
  else match r.engine.chooseBotPlay botId with
    | some (some play) => match r.engine.playCards botId play with
      | some (e, result) =>
        if result.code = .ok then
          turnSent viewer targets { r with engine := e } (playedMessage e botId play) result r' starts
        else botPassSent viewer targets r botId r' starts
      | none => []
    | some none => botPassSent viewer targets r botId r' starts
    | none => []

/-- The end of a step of the tribute phase. -/
def continueTributeSent (r : Room) : List ServerMessage :=
  if r.engine.hasPendingTributeAction then []
  else if r.engine.state.phase = .playing then onTributePhaseCompletedSent viewer targets r
  else []

/-- What the bots have done is shown if one of them has acted. -/
def botRoundSent (r : Room) : Option Table.BotRound → List ServerMessage
  | none => []
  | some b =>
    (if b.acted then sendPlayerViews viewer targets { r with engine := b.engine } .tributePhaseUpdated
      else []) ++ continueTributeSent viewer targets { r with engine := b.engine }

def executeBotTributeActionsSent (r : Room) : List ServerMessage :=
  if !r.engine.hasPendingTributeAction then []
  else match r.engine.state.phase with
    | .tribute => botRoundSent viewer targets r (Table.botTributes r.engine)
    | .returnTribute => botRoundSent viewer targets r (Table.botReturns r.engine)
    | _ => []

/-! ### Requests -/

def joinRoomSent (playerId : PlayerId) (r' : Room) : List ServerMessage :=
  sendResponse viewer playerId (.roomJoined r'.phase (r'.players.map fun p => (p.id, p.seatIndex))) ++
    broadcastToRoom viewer r' [.other "player_joined", roomStateMessage r']

def leaveRoomSent (playerId : PlayerId) (t' : Table) : List ServerMessage :=
  sendResponse viewer playerId (.other "player_left") ++
    if t'.isOpen && !t'.room.isEmpty then broadcastToRoom viewer t'.room [roomStateMessage t'.room]
    else []

def readySent (r : Room) (playerId : PlayerId) (r' : Room) (starts : List RoundStart) :
    List ServerMessage :=
  broadcastToRoom viewer r'
      [.other "player_ready", roomStateMessage ((r.ready playerId).getD r)] ++
    tryStartNextRoundSent viewer targets r' starts

/-- A change of the room is announced, and the room shown as it is then. -/
def roomSent (type : String) (r' : Room) : List ServerMessage :=
  broadcastToRoom viewer r' [.other type, roomStateMessage r']

def setRoomOptionsSent (playerId : PlayerId) (r' : Room) : List ServerMessage :=
  sendResponse viewer playerId (.other "room_options_updated") ++
    broadcastToRoom viewer r' [roomStateMessage r']

def startGameSent (playerId : PlayerId) (r' : Room) (starts : List RoundStart) :
    List ServerMessage :=
  broadcastToRoom viewer r' [.gameStarted] ++
    onRoundStartedSent viewer (targetsAfter targets starts) r' ++
    sendResponse viewer playerId .gameStarted

def playCardsSent (r : Room) (playerId : PlayerId) (cards : List CardId) (r' : Room)
    (starts : List RoundStart) : List ServerMessage :=
  match r.engine.playCards playerId cards with
  | some (e, result) =>
    turnSent viewer targets { r with engine := e } (playedMessage e playerId cards) result r' starts ++
      sendResponse viewer playerId (playedMessage r'.engine playerId cards)
  | none => []

def passSent (playerId : PlayerId) (r' : Room) : List ServerMessage :=
  broadcastToRoom viewer r' [passedMessage r'.engine playerId] ++
    sendSpectateUpdatesToFinishedPlayers viewer targets r' ++
    sendResponse viewer playerId (passedMessage r'.engine playerId)

def submitTributeSent (playerId : PlayerId) (r' : Room) : List ServerMessage :=
  sendPlayerViews viewer targets r' .tributePhaseUpdated ++ continueTributeSent viewer targets r' ++
    sendResponse viewer playerId (.other "submit_tribute")

def submitReturnSent (r : Room) (playerId : PlayerId) (cardId : CardId) (r' : Room) :
    List ServerMessage :=
  match r.engine.submitReturn playerId cardId with
  | some (e, result) =>
    sendPlayerViews viewer targets { r with engine := e } .tributePhaseUpdated ++
      (if result.tributeRoundComplete then onTributePhaseCompletedSent viewer targets r'
        else continueTributeSent viewer targets r') ++
      sendResponse viewer playerId (.other "submit_return")
  | none => []

/-- The room is dissolved once all have agreed. -/
def dissolveSent (r' : Room) : List ServerMessage :=
  if r'.dismissVote.allAgreed then broadcastToRoom viewer r' [.roomDismissed] else []

def requestDismissSent (playerId : PlayerId) (r' : Room) : List ServerMessage :=
  broadcastToRoom viewer r' [.other "dismiss_vote_started"] ++
    sendResponse viewer playerId (.other "dismiss_vote_started") ++ dissolveSent viewer r'

/-- A vote that a rejection has ended is no longer in the room. -/
def voteDismissSent (playerId : PlayerId) (agree : Bool) (r' : Room) : List ServerMessage :=
  sendResponse viewer playerId
      (.other (if agree then "dismiss_vote_updated" else "dismiss_vote_rejected")) ++
    if r'.dismissVote.active then
      broadcastToRoom viewer r' [.other "dismiss_vote_updated"] ++ dissolveSent viewer r'
    else broadcastToRoom viewer r' [.other "dismiss_vote_rejected"]

/-- What a step sends that is not refused. -/
def acceptedSent (t t' : Table) (starts : List RoundStart) : TableOp → List ServerMessage
  | .joinRoom id => joinRoomSent viewer id t'.room
  | .leaveRoom id => leaveRoomSent viewer id t'
  | .ready id _ => readySent viewer targets t.room id t'.room starts
  | .unready _ => roomSent viewer "player_unready" t'.room
  | .changeSeat .. => roomSent viewer "seat_changed" t'.room
  | .setRoomOptions id _ => setRoomOptionsSent viewer id t'.room
  | .startGame id _ => startGameSent viewer targets id t'.room starts
  | .playCards id _ cards _ => playCardsSent viewer targets t.room id cards t'.room starts
  | .pass id _ => passSent viewer targets id t'.room
  | .submitTribute id _ => submitTributeSent viewer targets id t'.room
  | .submitReturn id cardId => submitReturnSent viewer targets t.room id cardId t'.room
  | .requestDismiss id => requestDismissSent viewer id t'.room
  | .voteDismiss id agree => voteDismissSent viewer id agree t'.room
  | .runTask _ => match t.tasks with
    | [] => []
    | .botTurn botId :: _ => executeBotTurnSent viewer targets t.room botId t'.room starts
    | .botTribute :: _ => executeBotTributeActionsSent viewer targets t.room
  | .fireTurnTimer | .fireTributeTimer | .fillBots => []

/-- What a step sends to the viewer; an error goes to the sender of the request alone. -/
def sent (t : Table) (op : TableOp) (t' : Table) (out : TableOut) : List ServerMessage :=
  match op.sender?, out.reply with
  | some sender, some code =>
    if code = .ok then acceptedSent viewer targets t t' out.starts op
    else sendResponse viewer sender (.error code)
  | _, _ => acceptedSent viewer targets t t' out.starts op

end Sending

end Guandan
