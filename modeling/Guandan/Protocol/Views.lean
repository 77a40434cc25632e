import Guandan.Auth.UserFile
import Guandan.Network.Hall
import Guandan.Protocol.Relay

/-!
# The messages that show a player

`game_view_builder.cpp`, and `handleLogin` and `handleJoinRoom` of `message_dispatcher.cpp`, as far as
they write the profile of a player: `login_result` escapes the five characters of `jsonEscape`, the
state of a room and the snapshot of a game the seven of `escapeJson`, `player_joined` and the dismiss
vote none. The profiles that a room holds of its players are an argument. A nickname comes from the
body of a request to `/api/register`.
-/

namespace Guandan.Protocol.Views

open Quoted

/-! ### Parts of a text -/

def escapeJsonChar (c : Char) : Text :=
  if c = '"' then ['\\', '"']
  else if c = '\\' then ['\\', '\\']
  else if c = '\x08' then ['\\', 'b']
  else if c = '\x0c' then ['\\', 'f']
  else if c = '\n' then ['\\', 'n']
  else if c = '\r' then ['\\', 'r']
  else if c = '\t' then ['\\', 't']
  else [c]

/-- The function of `game_view_builder.cpp`; the one of `user_store.cpp` escapes fewer characters. -/
def escapeJson (s : Text) : Text := s.flatMap escapeJsonChar

/-- A text between quotes, as it is. -/
def inQuotes (s : Text) : Text := '"' :: s ++ ['"']

/-- The members of an object, each under its key. -/
def record (members : List (String × Text)) : Text :=
  '{' :: Json.commas (members.map fun m => keyed m.1 m.2) ++ ['}']

def sequence (items : List Text) : Text := '[' :: Json.commas items ++ [']']

def flag (b : Bool) : Text := if b then "true".toList else "false".toList

/-- A seat, -1 for none. -/
def seatNumber : Option Nat → Text
  | none => "-1".toList
  | some seat => digits seat

def phaseToString : GamePhase → String
  | .waiting => "WAITING"
  | .ready => "READY"
  | .dealing => "DEALING"
  | .tribute => "TRIBUTE"
  | .returnTribute => "RETURN_TRIBUTE"
  | .playing => "PLAYING"
  | .roundEnd => "ROUND_END"
  | .settlement => "SETTLEMENT"
  | .finished => "FINISHED"

def roomPhaseToString : RoomPhase → String
  | .created => "CREATED"
  | .waiting => "WAITING"
  | .playing => "PLAYING"
  | .settlement => "SETTLEMENT"
  | .finished => "FINISHED"

def statusToString : PlayerStatus → String
  | .online => "online"
  | .offline => "offline"

def cardIdsToJsonArray (cards : List CardId) : Text := sequence (cards.map digits)

/-! ### `game_view_builder.cpp` -/

/-- A picture of one's own and one of the presets, where there are any. -/
def pictureFields (info : PlayerJoinInfo) : List (String × Text) :=
  (if info.avatar = "" then [] else [("avatar", inQuotes (escapeJson info.avatar.toList))]) ++
  (if info.avatarPreset = "" then []
    else [("avatar_preset", inQuotes (escapeJson info.avatarPreset.toList))])

section Builders

variable (room : Room) (profile : PlayerId → PlayerJoinInfo)

def findRoomPlayer (id : PlayerId) : Option RoomPlayer := room.players.find? fun p => p.id == id

/-- The name under which a player of the game is shown. -/
def shownNickname (id : PlayerId) : String :=
  match findRoomPlayer room id with
  | none => "Player" ++ toString id
  | some rp =>
    if (profile rp.id).nickname = "" then "Player" ++ toString id else (profile rp.id).nickname

def seatPlayJson (play : TributeSeatPlay) : Text :=
  record [
    ("seat_index", digits play.seatIndex),
    ("card_id", digits play.cardId),
    ("kind", inQuotes (escapeJson play.kind.toList))]

def otherPlayerJson (p : OtherPlayer) : Text :=
  record ([
    ("id", digits p.id),
    ("seat_index", digits p.seatIndex),
    ("team", digits p.team.val),
    ("card_count", digits p.cardCount),
    ("has_finished", flag p.hasFinished),
    ("finish_rank", digits p.finishRank),
    ("is_ready", flag p.isReady),
    ("status", inQuotes (statusToString p.status).toList),
    ("nickname", inQuotes (escapeJson (shownNickname room profile p.id).toList))] ++
    match findRoomPlayer room p.id with
    | none => []
    | some rp => pictureFields (profile rp.id))

/-- A view without a seat leaves `isPlayingOwnRound` unset; here it is false then. -/
def buildGameSnapshotJson (view : PlayerView) : Text :=
  record [
    ("room_id", inQuotes room.roomId.toList),
    ("phase", inQuotes (phaseToString view.phase).toList),
    ("state_version", digits view.stateVersion),
    ("turn_id", digits view.turnId),
    ("current_level", digits view.currentLevel),
    ("attacking_team", digits view.attackingTeam.val),
    ("is_pass_a_round", flag view.isPassARound),
    ("is_playing_own_round", flag (view.isPlayingOwnRound.getD false)),
    ("team_levels", sequence [digits (view.teamLevels 0), digits (view.teamLevels 1)]),
    ("in_pass_a_phase", sequence [flag (view.inPassAPhase 0), flag (view.inPassAPhase 1)]),
    ("pass_a_fail_counts",
      sequence [digits (view.passAFailCounts 0), digits (view.passAFailCounts 1)]),
    ("current_player_index", seatNumber view.currentPlayerIndex),
    ("first_player_index", seatNumber view.firstPlayerIndex),
    ("my_seat_index", seatNumber view.mySeatIndex),
    ("viewer_seat_index", seatNumber view.viewerSeatIndex),
    ("is_spectating", flag view.isSpectating),
    ("spectatable_teammates", sequence (view.spectatableTeammates.map digits)),
    ("my_cards", cardIdsToJsonArray view.myCards),
    ("last_played_cards", cardIdsToJsonArray view.lastPlayedCards),
    ("last_played_player_index", seatNumber view.lastPlayedPlayerIndex),
    ("pending_tributer_seats", sequence (view.pendingTributerSeats.map digits)),
    ("pending_return_seats", sequence (view.pendingReturnSeats.map digits)),
    ("required_tribute_card_id", digits view.requiredTributeCardId),
    ("must_return_tribute", flag view.mustReturnTribute),
    ("valid_return_card_ids", cardIdsToJsonArray view.validReturnCardIds),
    ("tribute_seat_plays", sequence (view.tributeSeatPlays.map seatPlayJson)),
    ("players", sequence (view.others.map (otherPlayerJson room profile)))]

/-- Nobody in a room is ever set offline. -/
def roomPlayerJson (p : RoomPlayer) : Text :=
  record ([
    ("id", digits p.id),
    ("seat_index", digits p.seatIndex),
    ("team", digits (p.seatIndex % 2)),
    ("nickname", inQuotes (escapeJson (profile p.id).nickname.toList))] ++
    pictureFields (profile p.id) ++ [
    ("is_ready", flag p.isReady),
    ("is_owner", flag p.isOwner),
    ("is_bot", flag p.isBot),
    ("status", inQuotes (statusToString .online).toList)])

def buildRoomStateJson : Text :=
  record [
    ("players", sequence (room.players.map (roomPlayerJson profile))),
    ("player_count", digits room.players.length),
    ("max_players", digits room.config.maxPlayers),
    ("mode", inQuotes room.config.modeName.toList),
    ("enable_tribute", flag room.config.enableTribute),
    ("room_phase", inQuotes (roomPhaseToString room.phase).toList)]

end Builders

/-- An entry keeps the nickname that its player had when the vote began. -/
def voteEntryJson (nickname : PlayerId → String) (entry : DismissVoteEntry) : Text :=
  record [
    ("player_id", digits entry.playerId),
    ("nickname", inQuotes (nickname entry.playerId).toList),
    ("voted", flag entry.voted),
    ("agree", flag entry.agree)]

def buildDismissVoteJson (vote : DismissVote) (nickname : PlayerId → String) : Text :=
  record [
    ("requester_id", digits vote.requesterId),
    ("votes", sequence (vote.entries.map (voteEntryJson nickname)))]

/-! ### `message_dispatcher.cpp` -/

/-- What `handleLogin` writes of the room in which the player is. -/
def loginRoomFields (playerId : PlayerId) : Option Room → List (String × Text)
  | none => [("in_room", flag false)]
  | some room =>
    if room.phase = .finished then [("in_room", flag false)]
    else [
      ("in_room", flag true),
      ("room_id", inQuotes room.roomId.toList),
      ("room_phase", inQuotes (roomPhaseToString room.phase).toList),
      ("mode", inQuotes room.config.modeName.toList),
      ("max_players", digits room.config.maxPlayers),
      ("is_owner", flag (room.ownerId == playerId))]

def loginResultJson (user : UserRecord) (room : Option Room) : Text :=
  record ([
    ("player_id", digits user.id),
    ("nickname", inQuotes (jsonEscape user.nickname.toList)),
    ("success", flag true)] ++ loginRoomFields user.id room)

def playerJoinedJson (playerId : PlayerId) (nickname : String) : Text :=
  record [("player_id", digits playerId), ("nickname", inQuotes nickname.toList)]

/-- A room as the server makes it: its id is drawn, and its mode is one of three. -/
structure Named (room : Room) : Prop where
  id : ∃ draw, room.roomId = generateRoomId draw
  mode : ∃ mode, room.config.modeName = (RoomConfig.fromModeName mode).modeName

abbrev NamedRoom := { room : Room // Named room }

/-- The messages that carry the state of a room. -/
def roomStateTypes : List String := ["room_state", "room_joined"]

/-- The messages that carry a snapshot. -/
def snapshotTypes : List String :=
  ["game_snapshot", "spectate_update", "tribute_phase_updated", "cards_dealt", "spectate_changed"]

def dismissVoteTypes : List String :=
  ["dismiss_vote_started", "dismiss_vote_updated", "dismiss_vote_rejected"]

/-- A message that shows players, with all it is written from; a broadcast has the request id 0. -/
inductive View
  | loginResult (requestId : Nat) (user : UserRecord) (room : Option NamedRoom)
  | roomState (type : String) (htype : type ∈ roomStateTypes) (requestId : Nat) (room : NamedRoom)
      (profile : PlayerId → PlayerJoinInfo)
  | gameSnapshot (type : String) (htype : type ∈ snapshotTypes) (requestId : Nat) (room : NamedRoom)
      (profile : PlayerId → PlayerJoinInfo) (viewerId : PlayerId) (anchor : Option Nat)
      (view : PlayerView) (hview : room.1.engine.buildViewFor viewerId anchor = some view)
  | playerJoined (room : NamedRoom) (playerId : PlayerId) (nickname : String)
  | dismissVote (type : String) (htype : type ∈ dismissVoteTypes) (requestId : Nat)
      (room : NamedRoom) (vote : DismissVote) (nickname : PlayerId → String)

def View.message : View → Message
  | loginResult requestId user room =>
    { type := "login_result".toList
      requestId := requestId
      dataJson := loginResultJson user (room.map (·.1)) }
  | roomState type _ requestId room profile =>
    { type := type.toList
      requestId := requestId
      roomId := room.1.roomId.toList
      dataJson := buildRoomStateJson room.1 profile }
  | gameSnapshot type _ requestId room profile _ _ view _ =>
    { type := type.toList
      requestId := requestId
      roomId := room.1.roomId.toList
      dataJson := buildGameSnapshotJson room.1 profile view }
  | playerJoined room playerId nickname =>
    { type := "player_joined".toList
      roomId := room.1.roomId.toList
      dataJson := playerJoinedJson playerId nickname }
  | dismissVote type _ requestId room vote nickname =>
    { type := type.toList
      requestId := requestId
      roomId := room.1.roomId.toList
      dataJson := buildDismissVoteJson vote nickname }

/-! ### `http_server.cpp` -/

/-- What `/api/register` does with the body of a request. -/
def register (a : AuthService) (hashPassword : String → String → String) (body : Text)
    (salt token : String) (now : Nat) : AuthResult × AuthService :=
  a.registerUser hashPassword (String.ofList (extractJsonStringValue body "nickname"))
    (String.ofList (extractJsonStringValue body "password")) salt token now

end Guandan.Protocol.Views
