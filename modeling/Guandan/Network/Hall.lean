import Guandan.Network.Sessions
import Guandan.Network.Table

/-!
# The rooms of a server

`room_manager.cpp`, and the part of `message_dispatcher.cpp` that chooses the queue on which a message
is handled and the room that its handler works on. The handlers of one room are those of `Table`;
what its timers and its bots do to it is an input of its own (`ownTask`). Each handler runs to its end
before the next; between two looks of a thread for the room of its message anything may happen.
-/

namespace Guandan

/-- What `uuid.cpp` makes of a draw between 100000 and 999999. -/
def generateRoomId (draw : Fin 900000) : RoomId := toString (100000 + draw.val)

/-- The rooms are numbered as they are made: one that has been removed lives on while a task holds
it, and its id may be given to another. -/
abbrev RoomHandle := Nat

structure RoomManager where
  rooms : RoomId → Option RoomHandle := fun _ => none
  playerRoomMap : PlayerId → Option RoomId := fun _ => none
  made : List Room := []

namespace RoomManager

def setRoom (m : RoomManager) (h : RoomHandle) (r : Room) : RoomManager :=
  { m with made := m.made.set h r }

/-- The room's id is the one that the loop over the generated ids ends with. -/
def createRoom (m : RoomManager) (ownerId : PlayerId) (mode : String) (roomId : RoomId) :
    Option RoomManager :=
  if (m.playerRoomMap ownerId).isSome then none
  else some
    { rooms := Function.update m.rooms roomId (some m.made.length)
      playerRoomMap := Function.update m.playerRoomMap ownerId (some roomId)
      made := m.made ++ [Room.create roomId ownerId mode] }

def joinRoom (m : RoomManager) (roomId : RoomId) (playerId : PlayerId) : Option RoomManager :=
  if (m.playerRoomMap playerId).isSome then none
  else do
    let h ← m.rooms roomId
    let r ← m.made[h]?
    let r ← r.join playerId
    return { m.setRoom h r with
      playerRoomMap := Function.update m.playerRoomMap playerId (some roomId) }

def getRoom (m : RoomManager) (roomId : RoomId) : Option RoomHandle := m.rooms roomId

def findRoomByPlayer (m : RoomManager) (playerId : PlayerId) : Option RoomHandle :=
  (m.playerRoomMap playerId).bind m.rooms

/-- The human players of the room are forgotten with it. -/
def removeRoom (m : RoomManager) (roomId : RoomId) : RoomManager :=
  match m.rooms roomId with
  | none => m
  | some h =>
    let members := fun id => (m.made[h]?).any fun r => r.containsPlayer id && !isBotPlayer id
    { m with
      rooms := Function.update m.rooms roomId none
      playerRoomMap := fun id => if members id then none else m.playerRoomMap id }

/-- A room that nobody is in any more goes with its last player. -/
def removePlayerFromRoom (m : RoomManager) (playerId : PlayerId) : RoomManager :=
  if isBotPlayer playerId then m
  else match m.playerRoomMap playerId with
    | none => m
    | some roomId =>
      let empty := ((m.rooms roomId).bind (m.made[·]?)).any Room.isEmpty
      { m with
        rooms := if empty then Function.update m.rooms roomId none else m.rooms
        playerRoomMap := Function.update m.playerRoomMap playerId none }

end RoomManager

/-! ### Messages about a room -/

/-- A message with its room id and what the handlers read of its data. -/
structure RoomMessage extends Message where
  roomId : RoomId := ""
  mode : String := ""
  turnId : Nat := 0
  cards : List CardId := []
  cardId : CardId := 0
  seatIndex : Int := 0
  enableTribute : Bool := false
  agree : Bool := false
  deriving DecidableEq, Repr

/-- The request to the sender's room, unless it only reads the room or concerns the registry. -/
def RoomMessage.request (msg : RoomMessage) (id : PlayerId) (σ : Shuffle) : Option TableOp :=
  match msg.type with
  | .ready => some (.ready id σ)
  | .unready => some (.unready id)
  | .changeSeat => some (.changeSeat id msg.seatIndex)
  | .setRoomOptions => some (.setRoomOptions id msg.enableTribute)
  | .startGame => some (.startGame id σ)
  | .playCards => some (.playCards id msg.turnId msg.cards σ)
  | .pass => some (.pass id msg.turnId)
  | .submitTribute => some (.submitTribute id msg.cardId)
  | .submitReturn => some (.submitReturn id msg.cardId)
  | _ => none

namespace RoomManager

def handleLeaveRoom (m : RoomManager) (h : RoomHandle) (r : Room) (id : PlayerId) : RoomManager :=
  (m.setRoom h (r.leave id)).removePlayerFromRoom id

/-- The room after a vote; with everybody's consent it is dissolved. -/
def afterVote (m : RoomManager) (h : RoomHandle) (r : Room) : RoomManager :=
  if r.dismissVote.allAgreed then (m.setRoom h r).removeRoom r.roomId else m.setRoom h r

def handleRequestDismiss (m : RoomManager) (h : RoomHandle) (r : Room) (id : PlayerId) :
    RoomManager :=
  match r.requestDismiss id with
  | none => m
  | some r => m.afterVote h r

def handleVoteDismiss (m : RoomManager) (h : RoomHandle) (r : Room) (id : PlayerId) (agree : Bool) :
    RoomManager :=
  if !r.dismissVote.active then m
  else match r.voteDismiss id agree with
    | none => m
    | some r =>
      if !agree || r.dismissVote.hasRejection then m.setRoom h r.cancelDismissVote
      else m.afterVote h r

/-- What the handlers do once they have found the sender's room. -/
def handleInRoom (m : RoomManager) (h : RoomHandle) (id : PlayerId) (msg : RoomMessage)
    (σ : Shuffle) : Option RoomManager := do
  let r ← m.made[h]?
  match msg.type with
  | .leaveRoom => return m.handleLeaveRoom h r id
  | .requestDismiss => return m.handleRequestDismiss h r id
  | .voteDismiss => return m.handleVoteDismiss h r id msg.agree
  | _ => match msg.request id σ with
    | none => return m
    | some op =>
      let (t, _) ← Table.apply { room := r, registered := fun i => i == id } op
      return m.setRoom h t.room

end RoomManager

/-! ### The hall -/

/-- A handler that has run: on the queue of a room or on the thread of the connection (`none`), and
the room that it read or changed. -/
structure HandlerRun where
  queue : Option RoomHandle
  touched : Option RoomHandle
  deriving DecidableEq, Repr

/-- The looks for the room of a message: for the one that it names, for the one its sender is in, and of
a `join_room` for the one that it names once more. -/
inductive RoomLook
  | named
  | sender
  | joined
  deriving DecidableEq, Repr

/-- Where the thread of a connection is in `postRoomMessage`: before a look, or behind the last of them. -/
inductive DispatchStage
  | look (next : RoomLook)
  | resolved (room : Option RoomHandle)
  deriving DecidableEq, Repr

/-- Where the thread goes on after a look. -/
def RoomLook.after : RoomLook → Option RoomHandle → DispatchStage
  | _, some h => .resolved (some h)
  | .named, none => .look .sender
  | .sender, none => .look .joined
  | .joined, none => .resolved none

structure Hall where
  server : Server
  manager : RoomManager := {}
  queues : RoomHandle → List (SessionId × RoomMessage) := fun _ => []
  /-- The messages that the threads of the connections are at. -/
  threads : SessionId → Option (RoomMessage × DispatchStage) := fun _ => none

/-- What a handler takes from outside: the time, a shuffle if a deal follows, and the draw for the id
of a room that is created. -/
structure Surroundings where
  now : Nat := 0
  σ : Shuffle := Shuffle.stack []
  draw : Fin 900000 := 0

namespace Hall

/-- The player as whom the session acts. -/
def actor (hall : Hall) (sessionId : SessionId) : PlayerId :=
  (hall.server.resolvePlayerId sessionId).1

/-- The handler of a message, with the room it reads or changes. -/
def dispatchMessage (hall : Hall) (sessionId : SessionId) (msg : RoomMessage) (w : Surroundings) :
    Option (Hall × Option RoomHandle) :=
  let (answer, server) := hall.server.dispatchMessage sessionId msg.toMessage w.now
  let hall := { hall with server := server }
  match answer with
  | .actsAs id _ => match msg.type with
    | .createRoom =>
      let mode := if msg.mode = "" then "six" else msg.mode
      let roomId := generateRoomId w.draw
      if (hall.manager.getRoom roomId).isSome then none
      else some ({ hall with
        manager := (hall.manager.createRoom id mode roomId).getD hall.manager }, none)
    | .joinRoom =>
      some ({ hall with manager := (hall.manager.joinRoom msg.roomId id).getD hall.manager },
        hall.manager.getRoom msg.roomId)
    | _ => match hall.manager.findRoomByPlayer id with
      | none => some (hall, none)
      | some h => (hall.manager.handleInRoom h id msg w.σ).map fun m =>
          ({ hall with manager := m }, some h)
  | _ => some (hall, none)

/-- The first two looks are those of `resolveRoomForDispatch`. -/
def lookUp (hall : Hall) (sessionId : SessionId) (msg : RoomMessage) :
    RoomLook → Option RoomHandle × Hall
  | .named => (if msg.roomId = "" then none else hall.manager.getRoom msg.roomId, hall)
  | .sender =>
    let (playerId, server) := hall.server.resolvePlayerId sessionId
    (if 0 < playerId then hall.manager.findRoomByPlayer playerId else none,
      { hall with server := server })
  | .joined =>
    (if msg.type = .joinRoom ∧ msg.roomId ≠ "" then hall.manager.getRoom msg.roomId else none, hall)

def setThread (hall : Hall) (sessionId : SessionId) (thread : Option (RoomMessage × DispatchStage)) :
    Hall :=
  { hall with threads := Function.update hall.threads sessionId thread }

/-- The thread of a connection goes on with its message: it looks for a room, posts the message to the
queue of the room that it found, or handles the message itself if there was none. -/
def postRoomMessage (hall : Hall) (sessionId : SessionId) (w : Surroundings) :
    Option (Hall × Option HandlerRun) :=
  match hall.threads sessionId with
  | none => none
  | some (msg, .look look) =>
    let (room, hall) := hall.lookUp sessionId msg look
    some (hall.setThread sessionId (some (msg, look.after room)), none)
  | some (msg, .resolved (some h)) => some ({ hall.setThread sessionId none with
      queues := Function.update hall.queues h (hall.queues h ++ [(sessionId, msg)]) }, none)
  | some (msg, .resolved none) =>
    ((hall.setThread sessionId none).dispatchMessage sessionId msg w).map fun a =>
      (a.1, some ⟨none, a.2⟩)

/-- A message is read by the thread of its connection, which is done with the one before. -/
def dispatch (hall : Hall) (sessionId : SessionId) (msg : RoomMessage) (w : Surroundings) :
    Option (Hall × Option HandlerRun) :=
  if (hall.threads sessionId).isSome then none
  else if !shouldRunOnRoomQueue msg.type then
    (hall.dispatchMessage sessionId msg w).map fun a => (a.1, none)
  else some (hall.setThread sessionId (some (msg, .look .named)), none)

/-- The first message on the queue of a room is handled. -/
def runTask (hall : Hall) (h : RoomHandle) (w : Surroundings) : Option (Hall × Option HandlerRun) :=
  match hall.queues h with
  | [] => none
  | (sessionId, msg) :: rest =>
    (dispatchMessage { hall with queues := Function.update hall.queues h rest } sessionId msg
      w).map fun a => (a.1, some ⟨some h, a.2⟩)

end Hall

inductive HallOp
  | connect (handshake : Bool)
  | disconnect (sessionId : SessionId)
  | register (nickname password salt token : String) (now : Nat)
  | httpLogin (nickname password token : String) (now : Nat)
  | message (sessionId : SessionId) (msg : RoomMessage) (w : Surroundings)
  /-- The thread of a connection goes on with its message. -/
  | proceed (sessionId : SessionId) (w : Surroundings)
  | runTask (h : RoomHandle) (w : Surroundings)
  /-- Timers and bots leave the room as `r`. -/
  | ownTask (h : RoomHandle) (r : Room)

/-- All rooms of a server, under any interleaving of connections, HTTP requests, messages, the steps of
their threads and tasks; a step in which a handler of a message ran says so. -/
def hall (hashPassword : String → String → String) : Machine Hall HallOp (Option HandlerRun) where
  step hall
    | .connect handshake => some ({ hall with server := hall.server.connect handshake }, none)
    | .disconnect sessionId =>
      if (hall.threads sessionId).isSome then none
      else some ({ hall with server := hall.server.disconnect sessionId }, none)
    | .register nickname password salt token now =>
      let (_, auth) :=
        hall.server.auth.registerUser hashPassword nickname password salt token now
      some ({ hall with server := { hall.server with auth := auth } }, none)
    | .httpLogin nickname password token now =>
      let (_, auth) := hall.server.auth.login hashPassword nickname password token now
      some ({ hall with server := { hall.server with auth := auth } }, none)
    | .message sessionId msg w => hall.dispatch sessionId msg w
    | .proceed sessionId w => hall.postRoomMessage sessionId w
    | .runTask h w => hall.runTask h w
    | .ownTask h r => some ({ hall with manager := hall.manager.setRoom h r }, none)

end Guandan
