import Guandan.Game.GameEngine

/-!
# A room

`room.h`, `room.cpp`, `dismiss_vote.cpp` and `RoomManager::createRoom`. A call that answers `false`
and leaves the room as it is has no answer here (`none`). `startGame` and `startNextRound` say
whether a round has started; they have no answer where the engine throws. What a room keeps for
display only (nicknames, avatars, who is watched, emotions) is left out.
-/

namespace Guandan

inductive RoomPhase
  | created | waiting | playing | settlement | finished
  deriving DecidableEq, Repr

structure RoomPlayer where
  id : PlayerId
  seatIndex : Nat
  isReady : Bool := false
  isOwner : Bool := false
  isBot : Bool := false
  deriving DecidableEq, Repr

/-! ### The vote to dismiss the room -/

structure DismissVoteEntry where
  playerId : PlayerId
  voted : Bool := false
  agree : Bool := false
  deriving DecidableEq, Repr

structure DismissVote where
  active : Bool := false
  requesterId : PlayerId := 0
  entries : List DismissVoteEntry := []
  deriving DecidableEq, Repr

namespace DismissVote

def start (requesterId : PlayerId) (humans : List DismissVoteEntry) : Option DismissVote :=
  if humans.isEmpty then none
  else some
    { active := true
      requesterId := requesterId
      entries := humans.map fun entry =>
        if entry.playerId = requesterId then { entry with voted := true, agree := true }
        else entry }

def cancel : DismissVote := {}

/-- The first entry of the player is filled in. -/
def vote (playerId : PlayerId) (agree : Bool) : List DismissVoteEntry → List DismissVoteEntry
  | [] => []
  | entry :: entries =>
    if entry.playerId = playerId then { entry with voted := true, agree := agree } :: entries
    else entry :: vote playerId agree entries

def recordVote (v : DismissVote) (playerId : PlayerId) (agree : Bool) : Option DismissVote :=
  if !v.active then none
  else if v.entries.any (·.playerId == playerId) then
    some { v with entries := vote playerId agree v.entries }
  else none

def allAgreed (v : DismissVote) : Bool :=
  v.active && !v.entries.isEmpty && v.entries.all fun entry => entry.voted && entry.agree

def hasRejection (v : DismissVote) : Bool := v.entries.any fun entry => entry.voted && !entry.agree

end DismissVote

/-! ### The room -/

structure Room where
  roomId : RoomId
  ownerId : PlayerId
  config : RoomConfig
  phase : RoomPhase := .waiting
  players : List RoomPlayer := []
  engine : GameEngine
  dismissVote : DismissVote := {}

/-- Changes the first player with this id. -/
def modifyPlayer (id : PlayerId) (f : RoomPlayer → RoomPlayer) : List RoomPlayer → List RoomPlayer
  | [] => []
  | p :: ps => if p.id = id then f p :: ps else p :: modifyPlayer id f ps

namespace Room

/-- A newly constructed room. -/
def new (roomId : RoomId) (ownerId : PlayerId) (config : RoomConfig) : Room :=
  { roomId := roomId
    ownerId := ownerId
    config := config
    engine := GameEngine.new (toGameRuleConfig config) }

def isFull (r : Room) : Bool := r.config.maxPlayers ≤ r.players.length

def isEmpty (r : Room) : Bool := r.players.isEmpty

def containsPlayer (r : Room) (playerId : PlayerId) : Bool := r.players.any (·.id == playerId)

def isSeatTaken (r : Room) (seatIndex : Nat) (exceptId : PlayerId) : Bool :=
  r.players.any fun p => p.seatIndex == seatIndex && p.id != exceptId

def firstEmptySeat (r : Room) : Option Nat :=
  (List.range r.config.maxPlayers).find? fun seat => !r.isSeatTaken seat 0

/-! ### Members -/

def addBotAtSeat (r : Room) (seatIndex botIndex : Nat) : Option Room :=
  if r.config.maxPlayers ≤ seatIndex then none
  else if r.isSeatTaken seatIndex 0 then none
  else some { r with
    players := r.players ++
      [{ id := kBotIdBase + (botIndex + 1), seatIndex := seatIndex, isReady := true, isBot := true }] }

/-- The loop of `fillBots`; every turn adds a bot. -/
def fillBotsFrom : Nat → Nat → Room → Room
  | 0, _, r => r
  | fuel + 1, botIndex, r =>
    if r.isFull then r
    else match r.firstEmptySeat with
      | none => r
      | some seat => match r.addBotAtSeat seat botIndex with
        | none => r
        | some r => fillBotsFrom fuel (botIndex + 1) r

def fillBots (r : Room) : Room := fillBotsFrom r.config.maxPlayers 0 r

def join (r : Room) (playerId : PlayerId) : Option Room :=
  if isBotPlayer playerId then none
  else if r.isFull then none
  else if r.containsPlayer playerId then none
  else r.firstEmptySeat.map fun seat => { r with
    players := r.players ++
      [{ id := playerId, seatIndex := seat, isOwner := playerId == r.ownerId }] }

def leave (r : Room) (playerId : PlayerId) : Room :=
  if isBotPlayer playerId then r
  else { r with players := r.players.filter fun p => p.id != playerId }

/-- The player with this id that the loops find first. -/
def player? (r : Room) (playerId : PlayerId) : Option RoomPlayer :=
  r.players.find? (·.id == playerId)

def ready (r : Room) (playerId : PlayerId) : Option Room :=
  if r.phase ≠ .waiting ∧ r.phase ≠ .settlement then none
  else (r.player? playerId).map fun p => { r with
    players := modifyPlayer playerId (fun p => { p with isReady := true }) r.players
    engine := if p.isBot then r.engine else r.engine.setPlayerReady playerId true }

def unready (r : Room) (playerId : PlayerId) : Option Room :=
  if r.phase ≠ .waiting ∧ r.phase ≠ .settlement then none
  else if isBotPlayer playerId then none
  else (r.player? playerId).map fun _ => { r with
    players := modifyPlayer playerId (fun p => { p with isReady := false }) r.players }

def changeSeat (r : Room) (playerId : PlayerId) (seatIndex : Int) : Option Room :=
  if r.phase ≠ .waiting then none
  else if isBotPlayer playerId then none
  else if seatIndex < 0 ∨ r.config.maxPlayers ≤ seatIndex then none
  else if r.isSeatTaken seatIndex.toNat playerId then none
  else (r.player? playerId).map fun _ => { r with
    players := modifyPlayer playerId
      (fun p => { p with seatIndex := seatIndex.toNat, isReady := false }) r.players }

def setEnableTribute (r : Room) (playerId : PlayerId) (enabled : Bool) : Option Room :=
  if r.phase ≠ .waiting then none
  else if playerId ≠ r.ownerId then none
  else if isBotPlayer playerId then none
  else
    let config := { r.config with enableTribute := enabled }
    some { r with config := config, engine := r.engine.updateConfig (toGameRuleConfig config) }

/-! ### The vote -/

def humanVoteEntries (r : Room) : List DismissVoteEntry :=
  (r.players.filter (!·.isBot)).map fun p => { playerId := p.id }

def requestDismiss (r : Room) (playerId : PlayerId) : Option Room :=
  if isBotPlayer playerId then none
  else if r.dismissVote.active then none
  else if r.humanVoteEntries.any (·.playerId == playerId) then
    (DismissVote.start playerId r.humanVoteEntries).map ({ r with dismissVote := · })
  else none

def voteDismiss (r : Room) (playerId : PlayerId) (agree : Bool) : Option Room :=
  if isBotPlayer playerId then none
  else (r.dismissVote.recordVote playerId agree).map ({ r with dismissVote := · })

def cancelDismissVote (r : Room) : Room := { r with dismissVote := DismissVote.cancel }

/-! ### Rounds -/

def enterSettlement (r : Room) : Room :=
  { r with
    phase := .settlement
    players := r.players.map fun p => { p with isReady := p.isBot }
    engine := r.players.foldl (fun e p => e.setPlayerReady p.id p.isBot) r.engine }

def allReady (r : Room) : Bool := r.isFull && r.players.all (·.isReady)

def startNextRound (r : Room) (σ : Shuffle) : Option (Room × Bool) :=
  if r.phase ≠ .settlement then some (r, false)
  else if !r.allReady then some (r, false)
  else do
    let (e, result) ← r.engine.startNextRound σ
    if result.code = .ok then return ({ r with engine := e, phase := .playing }, true)
    else return ({ r with engine := e }, false)

def finishMatch (r : Room) : Room := { r with phase := .finished }

/-- The ids by seat, 0 where nobody sits. -/
def seatIds (r : Room) : List PlayerId :=
  r.players.foldl (fun ids p => ids.set p.seatIndex p.id) (List.replicate r.config.maxPlayers 0)

def startGame (r : Room) (σ : Shuffle) : Option (Room × Bool) :=
  if !r.isFull then some (r, false)
  else if r.players.any (!·.isReady) then some (r, false)
  else if r.players.any fun p => r.config.maxPlayers ≤ p.seatIndex then some (r, false)
  else if r.seatIds.contains 0 then some (r, false)
  else do
    let e ← r.engine.init r.roomId r.seatIds
    let e := r.players.foldl (fun e p => e.setPlayerReady p.id true) e
    let (e, result) ← e.startGame σ
    if result.code = .ok then return ({ r with engine := e, phase := .playing }, true)
    else return ({ r with engine := e }, false)

/-- `RoomManager::createRoom`: the owner joins, and a room for one is filled with bots. -/
def create (roomId : RoomId) (ownerId : PlayerId) (mode : String) : Room :=
  let config := RoomConfig.fromModeName mode
  let r := Room.new roomId ownerId config
  let r := (r.join ownerId).getD r
  if config.mode = .solo then r.fillBots else r

end Room

end Guandan
