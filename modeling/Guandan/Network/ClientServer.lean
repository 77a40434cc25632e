import Guandan.Network.Following

/-!
# A room and one of its clients

The room as its players and timers drive it, the client of one of them, the `viewer`, and the messages and
requests on their way between the two. Each way keeps the order in which things were sent; requests may also
be answered in another order, since a login does not wait in the queue of the room. What other rooms send to
the viewer is anything at all, and is sent only while the viewer is not in this one.
-/

namespace Guandan

open Client GameEngine Replica

/-- What is posted to the queue of the room for the viewer: the state of a room just created, and what
follows a login, with the phase that the room had then. -/
inductive Notice
  | created
  | login (phase : RoomPhase)
  deriving DecidableEq, Repr

structure ClientServer where
  table : Table
  targets : SpectateTargets := Room.clearSpectateTargets
  notices : List Notice := []
  inbox : List ServerMessage := []
  outbox : List Request := []
  client : Client
  /-- How often `listen` has been called once more: every page does, and each time a message is read again. -/
  listeners : Nat := 0

/-- The request of a room that a client sends. -/
def Client.Request.op (viewer : PlayerId) (σ : Shuffle) : Request → Option TableOp
  | .playCards cards turnId => some (.playCards viewer turnId cards σ)
  | .pass turnId => some (.pass viewer turnId)
  | .submitTribute cardId => some (.submitTribute viewer cardId)
  | .submitReturn cardId => some (.submitReturn viewer cardId)
  | .joinRoom => some (.joinRoom viewer)
  | .leaveRoom => some (.leaveRoom viewer)
  | .ready => some (.ready viewer σ)
  | .unready => some (.unready viewer)
  | .changeSeat seatIndex => some (.changeSeat viewer seatIndex)
  | .startGame => some (.startGame viewer σ)
  | .setRoomOptions enableTribute => some (.setRoomOptions viewer enableTribute)
  | .requestDismiss => some (.requestDismiss viewer)
  | .voteDismiss agree => some (.voteDismiss viewer agree)
  | .spectateTeammate _ | .login | .reconnect => none

/-- Requests of other players, timers and tasks (`serve`); the answer to a request of the viewer; what was
posted for it; what happens in another room; and the client. -/
inductive ClientServerOp
  | serve (op : TableOp)
  | spectateTeammate (playerId : PlayerId) (targetSeat : Int)
  | answer (i : Nat) (σ : Shuffle)
  | runNotice (i : Nat)
  | elsewhere (i : Nat) (ms : List ServerMessage)
  | read
  | tap (t : Tap)
  | listen

namespace ClientServer

/-- The viewer creates the room, or another player does; the client is in whatever state it may be. -/
def create (viewer : PlayerId) (roomId : RoomId) (ownerId : PlayerId) (mode : String) (client : Client)
    (inbox : List ServerMessage) (outbox : List Request) : ClientServer :=
  { table := Table.create roomId ownerId mode
    notices := if ownerId = viewer then [.created] else []
    inbox := inbox ++ sendResponse viewer ownerId .roomCreated
    outbox := outbox
    client := client }

section Steps

variable (viewer : PlayerId) (w : ClientServer)

/-! ### The server -/

def send (ms : List ServerMessage) : ClientServer := { w with inbox := w.inbox ++ ms }

def serve (op : TableOp) : Option ClientServer :=
  (w.table.apply op).map fun a =>
    { w with
      table := a.1
      targets := targetsAfter w.targets a.2.starts
      inbox := w.inbox ++ sent viewer w.targets w.table op a.1 a.2 }

def handleSpectateTeammate (playerId : PlayerId) (targetSeat : Int) : ClientServer :=
  let r := w.table.room
  if !w.table.finds playerId then w.send (sendResponse viewer playerId (.error .notInRoom))
  else if r.phase ≠ .playing then w.send (sendResponse viewer playerId (.error .invalidState))
  else match r.setSpectateTarget w.targets playerId targetSeat with
    | none => w.send (sendResponse viewer playerId (.error .invalidState))
    | some targets => send { w with targets := targets }
        (if playerId = viewer then sendPlayerView viewer targets r .spectateChanged else [])

def handleReconnect : ClientServer :=
  let r := w.table.room
  if !w.table.finds viewer then w.send [.error .notInRoom]
  else w.send (.other "reconnect_ok" ::
    if r.phase = .playing then sendPlayerView viewer w.targets r .gameSnapshot else [roomStateMessage r])

def handleLogin : ClientServer :=
  let r := w.table.room
  if w.table.finds viewer && r.phase ≠ .finished then
    send { w with notices := w.notices ++ [.login r.phase] } [.loginResult (some r.phase)]
  else w.send [.loginResult none]

def answer (σ : Shuffle) : Request → Option ClientServer
  | .spectateTeammate targetSeat => some (w.handleSpectateTeammate viewer viewer targetSeat)
  | .login => some (w.handleLogin viewer)
  | .reconnect => some (w.handleReconnect viewer)
  | q => (q.op viewer σ).bind (w.serve viewer)

def noticeSent : Notice → List ServerMessage
  | .created => broadcastToRoom viewer w.table.room [roomStateMessage w.table.room]
  | .login phase =>
    let r := w.table.room
    if phase = .playing ∨ phase = .settlement then
      (if phase = .settlement then [roomStateMessage r] else []) ++
        sendPlayerView viewer w.targets r .gameSnapshot
    else [roomStateMessage r]

/-! ### The client -/

def hear (m : ServerMessage) : ClientServer :=
  let c := w.client.receive m
  { w with client := c, outbox := w.outbox ++ c.answers m }

def read : Option ClientServer :=
  match w.inbox with
  | [] => none
  | m :: inbox => some ((hear · m)^[w.listeners + 1] { w with inbox := inbox })

end Steps

end ClientServer

/-- A room and the client of one player, with the check that the client makes of a play. -/
def clientServer (viewer : PlayerId) (validate : List CardId → Nat → Option (List CardId) → Bool) :
    Machine ClientServer ClientServerOp Unit where
  step w op := Option.map (·, ()) <| match op with
    | .serve op => w.serve viewer op
    | .spectateTeammate playerId targetSeat => some (w.handleSpectateTeammate viewer playerId targetSeat)
    | .answer i σ => w.outbox[i]?.bind
        (ClientServer.answer viewer { w with outbox := w.outbox.eraseIdx i } σ)
    | .runNotice i => w.notices[i]?.map fun notice =>
        { w with notices := w.notices.eraseIdx i }.send (w.noticeSent viewer notice)
    | .elsewhere i ms => some ({ w with outbox := w.outbox.eraseIdx i }.send ms)
    | .read => w.read
    | .tap t =>
      let (c, request) := w.client.tap validate t
      some { w with client := c, outbox := w.outbox ++ request.toList }
    | .listen => some { w with listeners := w.listeners + 1 }

/-- What others can do: other players send requests of their own, and other rooms send nothing to a player
who is in this one. -/
def ClientServerCall (viewer : PlayerId) (w : ClientServer) : ClientServerOp → Prop
  | .serve op => TableCall w.table op ∧ op.sender? ≠ some viewer
  | .spectateTeammate playerId _ => playerId ≠ viewer
  | .elsewhere _ _ => w.table.finds viewer = false
  | _ => True

end Guandan
