import Guandan.Auth.AuthService
import Guandan.Library.Machine

/-!
# Sessions behind the sockets

`session_manager.cpp` and the part of `message_dispatcher.cpp` that decides as whom a session acts.
The server here is what the sockets, the HTTP thread and the queues of the rooms do to the sessions
and the users: what a handler does once it knows the player is left out, and whether a room is found
is an argument. `createSession`, which nothing calls, is left out.
-/

namespace Guandan

abbrev SessionId := Nat

structure Session where
  sessionId : SessionId := 0
  playerId : PlayerId := 0
  token : String := ""
  nickname : String := ""
  authenticated : Bool := false
  bindGeneration : Nat := 0
  deriving DecidableEq, Repr

structure SessionManager where
  sessions : SessionId → Option Session := fun _ => none
  playerSessions : PlayerId → Option SessionId := fun _ => none
  playerBindGeneration : PlayerId → Nat := fun _ => 0

namespace SessionManager

def getSession (m : SessionManager) (sessionId : SessionId) : Option Session := m.sessions sessionId

def setSession (m : SessionManager) (sessionId : SessionId) (session : Option Session) :
    SessionManager :=
  { m with sessions := Function.update m.sessions sessionId session }

def ensureSession (m : SessionManager) (sessionId : SessionId) : SessionManager :=
  match m.sessions sessionId with
  | some _ => m
  | none => m.setSession sessionId (some { sessionId := sessionId })

def removeSession (m : SessionManager) (sessionId : SessionId) : SessionManager :=
  match m.sessions sessionId with
  | none => m
  | some session =>
    let playerSessions :=
      if 0 < session.playerId ∧ m.playerSessions session.playerId = some sessionId then
        Function.update m.playerSessions session.playerId none
      else m.playerSessions
    { m with playerSessions := playerSessions }.setSession sessionId none

/-- Any token that is not empty will do. -/
def authenticate (m : SessionManager) (sessionId : SessionId) (token : String) :
    Bool × SessionManager :=
  match m.sessions sessionId with
  | none => (false, m)
  | some session =>
    if token = "" then (false, m)
    else (true, m.setSession sessionId (some { session with authenticated := true, token := token }))

/-- Player id 0 stands for the default player of the session. -/
def bindPlayer (m : SessionManager) (sessionId : SessionId) (playerId : PlayerId)
    (nickname : String) : PlayerId × SessionManager :=
  match m.sessions sessionId with
  | none => (0, m)
  | some session =>
    let playerId := if playerId = 0 then 10000 + sessionId else playerId
    let generation := m.playerBindGeneration playerId + 1
    (playerId,
      { sessions := Function.update m.sessions sessionId (some { session with
          playerId := playerId
          nickname := nickname
          authenticated := true
          bindGeneration := generation })
        playerSessions := Function.update m.playerSessions playerId (some sessionId)
        playerBindGeneration := Function.update m.playerBindGeneration playerId generation })

/-- 0 for none. -/
def findSessionIdByPlayerId (m : SessionManager) (playerId : PlayerId) : SessionId :=
  (m.playerSessions playerId).getD 0

/-- The session the message goes to. -/
def sendToPlayer (m : SessionManager) (playerId : PlayerId) : Option SessionId :=
  let sid := m.findSessionIdByPlayerId playerId
  if 0 < sid then some sid else none

/-- The player a session is bound to, 0 for none. -/
def playerOf (m : SessionManager) (sessionId : SessionId) : PlayerId :=
  ((m.sessions sessionId).map Session.playerId).getD 0

section Bindings

variable {m : SessionManager} {s s' : SessionId} {id : PlayerId} {token nickname : String}

@[simp] theorem ensureSession_playerOf : (m.ensureSession s).playerOf s' = m.playerOf s' := by
  unfold ensureSession
  rcases hs : m.sessions s with _ | session
  · by_cases heq : s' = s
    · subst heq
      simp [playerOf, setSession, hs]
    · simp [playerOf, setSession, heq]
  · rfl

theorem ensureSession_getSession (m : SessionManager) (s : SessionId) :
    ∃ session, (m.ensureSession s).sessions s = some session := by
  unfold ensureSession
  rcases hs : m.sessions s with _ | session
  · exact ⟨_, Function.update_self ..⟩
  · exact ⟨session, hs⟩

theorem removeSession_playerOf :
    (m.removeSession s).playerOf s' = if s' = s then 0 else m.playerOf s' := by
  unfold removeSession
  rcases hs : m.sessions s with _ | session
  · by_cases heq : s' = s
    · subst heq
      simp [playerOf, hs]
    · simp [heq]
  · by_cases heq : s' = s
    · subst heq
      simp [playerOf, setSession]
    · simp [playerOf, setSession, heq]

@[simp] theorem authenticate_playerOf :
    (m.authenticate s token).2.playerOf s' = m.playerOf s' := by
  unfold authenticate
  rcases hs : m.sessions s with _ | session
  · rfl
  · dsimp only
    split_ifs
    · rfl
    · by_cases heq : s' = s
      · subst heq
        simp [playerOf, setSession, hs]
      · simp [playerOf, setSession, heq]

/-- A session that is there is bound to the player it is given, or to its default player. -/
theorem bindPlayer_ensureSession :
    ((m.ensureSession s).bindPlayer s id nickname).1 = (if id = 0 then 10000 + s else id) ∧
      ∀ s', ((m.ensureSession s).bindPlayer s id nickname).2.playerOf s' =
        if s' = s then (if id = 0 then 10000 + s else id) else m.playerOf s' := by
  obtain ⟨session, hs⟩ := ensureSession_getSession m s
  unfold bindPlayer
  rw [hs]
  refine ⟨rfl, fun s' => ?_⟩
  by_cases heq : s' = s
  · subst heq
    simp [playerOf]
  · rw [if_neg heq, ← ensureSession_playerOf (m := m) (s := s)]
    simp [playerOf, heq]

end Bindings

end SessionManager

/-! ### Messages -/

/-- The types of `dispatchMessage`. -/
inductive MessageType
  | login | createRoom | joinRoom | leaveRoom | ready | unready | changeSeat | setRoomOptions
  | startGame | playCards | pass | submitTribute | submitReturn | spectateTeammate | reconnect
  | requestDismiss | voteDismiss | voiceState | seatChat | sendEmotion | voiceSpeaking | voiceJoin
  | voiceSignal | ping
  | unknown (name : String)
  deriving DecidableEq, Repr

/-- What is read of a message before its handler knows the player. -/
structure Message where
  type : MessageType
  token : String := ""
  deriving DecidableEq, Repr

def shouldRunOnRoomQueue (type : MessageType) : Bool :=
  type != .login && type != .ping && type != .createRoom

structure PlayerJoinInfo where
  nickname : String
  avatar : String := ""
  avatarPreset : String := ""
  deriving DecidableEq, Repr

def joinInfoFromUser (user : UserRecord) : PlayerJoinInfo where
  nickname := user.nickname
  avatar := user.avatar
  avatarPreset := user.avatarPreset

/-- What becomes of an input. -/
inductive ServerAnswer
  | done
  | refused (code : ErrorCode)
  | posted
  /-- The handler goes on as this player; a room is created or joined under the profile. -/
  | actsAs (playerId : PlayerId) (profile : Option PlayerJoinInfo)
  | loggedIn (playerId : PlayerId) (profile : PlayerJoinInfo)
  | authenticated (result : AuthResult)

structure Server where
  sessions : SessionManager := {}
  auth : AuthService
  nextSessionId : SessionId := 1
  /-- The messages posted to the queues of the rooms and not yet handled. -/
  queued : List (SessionId × Message) := []
  liveKitEnabled : Bool := false

namespace Server

/-! ### The dispatcher -/

def resolvePlayerId (sv : Server) (sessionId : SessionId) : PlayerId × Server :=
  let sessions := sv.sessions.ensureSession sessionId
  if sessions.playerOf sessionId = 0 then
    let (playerId, sessions) := sessions.bindPlayer sessionId 0 ("Player" ++ toString sessionId)
    (playerId, { sv with sessions := sessions })
  else (sessions.playerOf sessionId, { sv with sessions := sessions })

/-- An expired token of the session is dropped on the way. -/
def joinInfoFromSession (sv : Server) (sessionId : SessionId) (now : Nat) :
    PlayerJoinInfo × Server :=
  match sv.sessions.getSession sessionId with
  | none => ({ nickname := "Player" }, sv)
  | some session =>
    let nickname := if session.nickname = "" then "Player" else session.nickname
    if session.token = "" then ({ nickname := nickname }, sv)
    else
      let (user, auth) := sv.auth.validateToken session.token now
      ((user.map joinInfoFromUser).getD { nickname := nickname }, { sv with auth := auth })

def handleLogin (sv : Server) (sessionId : SessionId) (msg : Message) (now : Nat) :
    ServerAnswer × Server :=
  let (user, auth) := sv.auth.validateToken msg.token now
  match user with
  | none => (.refused .unauthorized, { sv with auth := auth })
  | some user =>
    let sessions := sv.sessions.ensureSession sessionId
    let (playerId, sessions) := sessions.bindPlayer sessionId user.id user.nickname
    let (_, sessions) := sessions.authenticate sessionId msg.token
    (.loggedIn playerId (joinInfoFromUser user), { sv with auth := auth, sessions := sessions })

/-- How the handlers begin. -/
def actAsPlayer (sv : Server) (sessionId : SessionId) : ServerAnswer × Server :=
  let (playerId, sv) := sv.resolvePlayerId sessionId
  (.actsAs playerId none, sv)

/-- How `handleCreateRoom` and `handleJoinRoom` begin. -/
def actWithProfile (sv : Server) (sessionId : SessionId) (now : Nat) : ServerAnswer × Server :=
  let (playerId, sv) := sv.resolvePlayerId sessionId
  let (profile, sv) := sv.joinInfoFromSession sessionId now
  (.actsAs playerId profile, sv)

def dispatchMessage (sv : Server) (sessionId : SessionId) (msg : Message) (now : Nat) :
    ServerAnswer × Server :=
  match msg.type with
  | .login => sv.handleLogin sessionId msg now
  | .createRoom | .joinRoom => sv.actWithProfile sessionId now
  | .voiceJoin =>
    if !sv.liveKitEnabled then (.refused .invalidState, sv) else sv.actAsPlayer sessionId
  | .ping => (.done, sv)
  | .unknown _ => (.refused .unknownType, sv)
  | _ => sv.actAsPlayer sessionId

def post (sv : Server) (sessionId : SessionId) (msg : Message) : ServerAnswer × Server :=
  (.posted, { sv with queued := sv.queued ++ [(sessionId, msg)] })

/-- `named`: the message names a room there is; `inRoom`: the player is found in one. -/
def dispatch (sv : Server) (sessionId : SessionId) (msg : Message) (named inRoom : Bool)
    (now : Nat) : ServerAnswer × Server :=
  if !shouldRunOnRoomQueue msg.type then sv.dispatchMessage sessionId msg now
  else if named then sv.post sessionId msg
  else
    let (playerId, sv) := sv.resolvePlayerId sessionId
    if 0 < playerId ∧ inRoom then sv.post sessionId msg
    else sv.dispatchMessage sessionId msg now

/-! ### Sockets, HTTP requests and queues -/

/-- The number of the session is taken before the handshake. -/
def connect (sv : Server) (handshake : Bool) : Server :=
  { sv with
    nextSessionId := sv.nextSessionId + 1
    sessions := if handshake then sv.sessions.ensureSession sv.nextSessionId else sv.sessions }

def disconnect (sv : Server) (sessionId : SessionId) : Server :=
  { sv with sessions := sv.sessions.removeSession sessionId }

/-- A room's queue handles one of the messages posted; that its session has been removed in the
meantime is not noticed. -/
def runTask (sv : Server) (k : Nat) (now : Nat) : ServerAnswer × Server :=
  match sv.queued[k]? with
  | none => (.done, sv)
  | some (sessionId, msg) =>
    { sv with queued := sv.queued.eraseIdx k }.dispatchMessage sessionId msg now

end Server

inductive ServerOp
  | connect (handshake : Bool)
  | disconnect (sessionId : SessionId)
  | register (nickname password salt token : String) (now : Nat)
  | httpLogin (nickname password token : String) (now : Nat)
  | message (sessionId : SessionId) (msg : Message) (named inRoom : Bool) (now : Nat)
  | runTask (k : Nat) (now : Nat)

/-- The server under any interleaving of connections, HTTP requests, messages and queued tasks. -/
def server (hashPassword : String → String → String) : Machine Server ServerOp ServerAnswer where
  step sv
    | .connect handshake => some (sv.connect handshake, .done)
    | .disconnect sessionId => some (sv.disconnect sessionId, .done)
    | .register nickname password salt token now =>
      let (result, auth) := sv.auth.registerUser hashPassword nickname password salt token now
      some ({ sv with auth := auth }, .authenticated result)
    | .httpLogin nickname password token now =>
      let (result, auth) := sv.auth.login hashPassword nickname password token now
      some ({ sv with auth := auth }, .authenticated result)
    | .message sessionId msg named inRoom now =>
      some (sv.dispatch sessionId msg named inRoom now).swap
    | .runTask k now => some (sv.runTask k now).swap

/-- The server at its start, on a database of users. -/
def Server.start (users : UserStore) (liveKitEnabled : Bool) : Server where
  auth := { userStore := users }
  liveKitEnabled := liveKitEnabled

end Guandan
