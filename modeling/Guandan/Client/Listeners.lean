import Guandan.Client.GameController
import Guandan.Library.Casts

/-!
# The listeners, on decoded messages

`_handleMessage` of `room_controller.dart` and `_handleGameMessage` of `game_controller.dart` as they read the
members of a decoded message, with their defaults. A cast that fails throws (`none`), and the rest of the
message is not handled. Of the models the same parts are kept as in `GameController.lean`; of the members that
fill in other parts only the casts are left. Numbers that no server sends negative are natural.
-/

namespace Guandan.Client.Decoded

open Quoted Json

/-! ### Models -/

/-- `toUpperCase`, of what is ASCII. -/
def upper (s : Text) : String := String.ofList (s.map Char.toUpper)

def parsePhase : Option Text → GamePhase
  | none => .waiting
  | some phase => match upper phase with
    | "WAITING" => .waiting
    | "READY" => .ready
    | "DEALING" => .dealing
    | "TRIBUTE" => .tribute
    | "RETURN_TRIBUTE" => .returnTribute
    | "PLAYING" => .playing
    | "ROUND_END" => .roundEnd
    | "SETTLEMENT" => .settlement
    | "FINISHED" => .finished
    | _ => .waiting

def parseRoomPhase : Option Text → GamePhase
  | none => .waiting
  | some phase => match upper phase with
    | "PLAYING" => .playing
    | "SETTLEMENT" => .roundEnd
    | "FINISHED" => .finished
    | _ => .waiting

def asNat (j : Json) : Option Nat := (asInt j).map Int.toNat

/-- A list of numbers, of which none may be missing. -/
def parseIntList : Json → Option (List Nat)
  | .arr items => items.mapM asNat
  | _ => some []

/-- A list that may be missing or `null`. -/
def castList {α : Type} (cast : Json → Option α) (j : Option Json) : Option (List α) := do
  let items ← castOpt asList j
  (items.getD []).mapM cast

def intList (j : Json) (key : String) : Option (List Nat) := castList asNat (j.find key)

/-- The casts of `Player.fromJson` that fill in the parts left out. -/
def checkPlayer (j : Json) : Option Unit := do
  let _ ← member asText j "nickname"
  let _ ← member asText j "avatar"
  let _ ← member asText j "avatar_preset"
  let _ ← member asInt j "card_count"
  let _ ← member asInt j "finish_rank"
  let _ ← member asBool j "is_ready"
  let _ ← member asBool j "is_bot"
  let _ ← member asInt j "match_score"

def playerFromJson (j : Json) : Option Player := do
  let j ← asObject j
  let id ← (j.find "id").bind asNat
  checkPlayer j
  let seatIndex ← member asNat j "seat_index"
  let team ← member asNat j "team"
  let hasFinished ← member asBool j "has_finished"
  return {
    id := id
    seatIndex := seatIndex.getD 0
    team := Fin.ofNat 2 (team.getD 0)
    hasFinished := hasFinished.getD false }

def playersOf (j : Json) : Option (List Player) := castList playerFromJson (j.find "players")

/-- `GameCard.fromJson`; suit and rank have to be there. -/
def cardFromJson (j : Json) : Option CardId := do
  let j ← asObject j
  let id ← (j.find "id").bind asNat
  let suit ← (j.find "suit").bind asInt
  let rank ← (j.find "rank").bind asInt
  if 0 ≤ suit ∧ suit < 5 ∧ 0 ≤ rank ∧ rank < 15 then return id else none

/-- The hand: cards in full, or their ids. -/
def cardsOf : Option Json → Option (List CardId)
  | some (.arr (.obj members :: items)) => (Json.obj members :: items).mapM cardFromJson
  | some (.arr items) => items.mapM asNat
  | _ => some []

def resolveLastPlayedPlayerId (seatIndex : Int) (players : List Player) : Int :=
  if seatIndex < 0 then -1
  else match players.find? fun p => (p.seatIndex : Int) == seatIndex with
    | some p => p.id
    | none => -1

/-- The casts of `fromSnapshot` that fill in the parts left out. -/
def checkSnapshot (j : Json) : Option Unit := do
  let _ ← member asInt j "state_version"
  let _ ← member asInt j "attacking_team"
  let _ ← (j.find "team_levels").elim (some []) parseIntList
  let _ ← (j.find "pass_a_fail_counts").elim (some []) parseIntList
  let _ ← intList j "pending_return_seats"

def fromSnapshot (j : Json) : Option ClientGameState := do
  let myCards ← cardsOf (j.find "my_cards")
  let players ← playersOf j
  let mySeatIndex := (← member asInt j "my_seat_index").getD 0
  let ownSeatIndex := (← member asInt j "viewer_seat_index").getD mySeatIndex
  let spectatableTeammates ← intList j "spectatable_teammates"
  let lastPlayedSeatIndex := (← member asInt j "last_played_player_index").getD (-1)
  let phase := parsePhase (← member asText j "phase")
  checkSnapshot j
  let turnId ← member asNat j "turn_id"
  let currentLevel ← member asNat j "current_level"
  let currentPlayerIndex ← member asInt j "current_player_index"
  let lastPlayedCards ← intList j "last_played_cards"
  let pendingTributerSeats ← intList j "pending_tributer_seats"
  let requiredTributeCardId ← member asNat j "required_tribute_card_id"
  let validReturnCardIds ← intList j "valid_return_card_ids"
  return {
    phase := phase
    turnId := turnId.getD 0
    currentLevel := currentLevel.getD 2
    currentPlayerIndex := currentPlayerIndex.getD 0
    mySeatIndex := mySeatIndex
    ownSeatIndex := ownSeatIndex
    isSpectating := flagged j "is_spectating"
    spectatableTeammates := spectatableTeammates
    myCards := cardsFromIds myCards
    lastPlayedCards := lastPlayedCards
    lastPlayedPlayerId := resolveLastPlayedPlayerId lastPlayedSeatIndex players
    lastPlayedSeatIndex := lastPlayedSeatIndex
    players := players
    pendingTributerSeats := pendingTributerSeats
    requiredTributeCardId := requiredTributeCardId.getD 0
    validReturnCardIds := validReturnCardIds
    mustReturnTribute := flagged j "must_return_tribute" }

/-! ### The room's listener -/

/-- What `toString` makes of a value is empty, or there is none. -/
def isBlank : Option Json → Bool
  | none | some .null => true
  | some (.str s) => s.isEmpty
  | some _ => false

/-- `Room.fromRoomData`. -/
def roomFromData (data : Json) : Option ClientRoom := do
  let _ ← member asText data "mode"
  let players ← playersOf data
  let phase := parseRoomPhase (← member asText data "room_phase")
  return { phase := phase, players := players.map fun p => (p.id, p.seatIndex) }

def mergeRoomData (room : ClientRoom) (data : Json) : Option ClientRoom := do
  let _ ← member asText data "mode"
  let players ← playersOf data
  let phase ← member asText data "room_phase"
  return {
    phase := if (data.find "room_phase").isSome then parseRoomPhase phase else room.phase
    players := players.map fun p => (p.id, p.seatIndex) }

def handleLoginResult (c : Client) (data : Json) : Option Client :=
  if !flagged data "success" || !flagged data "in_room" || isBlank (data.find "room_id") then some c
  else do
    let _ ← member asText data "mode"
    let phase := match data.find "room_phase" with
      | some (.str s) => parseRoomPhase (some s)
      | _ => .waiting
    return { c with room := some { phase := phase } }

/-- A value that is there and not `null`. -/
def present : Option Json → Option Json
  | some .null => none
  | j => j

/-- What the room's listener does with a message of a type; a room that the client has has an id. -/
def handleRoom (c : Client) (roomId : Option Json) (data : Json) : String → Option Client
  | "room_created" =>
    if isBlank (data.find "room_id") then some c
    else (roomFromData data).map fun room => { c with room := some room }
  | "room_joined" => (roomFromData data).map fun room => { c with room := some room }
  | "room_state" => match c.room with
    | some room => (mergeRoomData room data).map fun room => { c with room := some room }
    | none =>
      if isBlank roomId then some c
      else (roomFromData data).map fun room => { c with room := some room }
  | "game_started" =>
    let roomId := (present roomId).or (present (data.find "room_id"))
    match c.room with
    | some room =>
      if roomId.isSome && isBlank roomId then some c
      else some { c with room := some { room with phase := .playing } }
    | none =>
      if isBlank roomId then some c else some { c with room := some { phase := .playing } }
  | "login_result" => handleLoginResult c data
  | "room_dismissed" => some { c with room := none }
  | _ => some c

/-- `RoomController._handleMessage`. -/
def handleMessage (c : Client) (msg : Json) : Option Client := do
  let type ← member asText msg "type"
  let data ← member asObject msg "data"
  handleRoom c (msg.find "room_id") (data.getD (.obj [])) (String.ofList (type.getD []))

/-! ### The game's listener -/

def showSnapshot (c : Client) (s : ClientGameState) : Client :=
  let s := applyDealtSnapshot s
  { c with game := if (c.room.map (·.phase)) = some .roundEnd then
      { resetTrick s with phase := .roundEnd, myCards := [] }
    else s }

def applySpectateUpdate (s new : ClientGameState) : ClientGameState :=
  { s with
    mySeatIndex := new.mySeatIndex
    ownSeatIndex := new.ownSeatIndex
    isSpectating := new.isSpectating
    spectatableTeammates := new.spectatableTeammates
    myCards := new.myCards
    players := new.players
    currentLevel := new.currentLevel
    currentPlayerIndex := new.currentPlayerIndex
    turnId := new.turnId }

/-- The seat of a player: of the two lists the room's counts, else it stays that of the last play. -/
def seatOfPlayer (c : Client) (players : List Player) (playerId : Int) : Int :=
  let inGame := match players.find? fun p => (p.id : Int) == playerId with
    | some p => (p.seatIndex : Int)
    | none => c.game.lastPlayedSeatIndex
  if playerId < 0 then inGame
  else match ((c.room.map (·.players)).getD []).find? fun p => (p.1 : Int) == playerId with
    | some p => p.2
    | none => inGame

/-- What a play makes of the game, once it is read; what it does not say stays. -/
def showPlayed (c : Client) (playerId : Int) (cards : List CardId) (hasFinished : Option Bool)
    (nextPlayer : Option Int) (turnId : Option Nat) : Client :=
  let s := c.game
  let players := s.players.map fun p =>
    if (p.id : Int) ≠ playerId ∨ cards.isEmpty then p
    else { p with hasFinished := hasFinished.getD p.hasFinished }
  let lastPlayedSeatIndex := seatOfPlayer c players playerId
  let removes := !cards.isEmpty && if s.isSpectating then lastPlayedSeatIndex == s.mySeatIndex
    else playerId == (c.userId : Int)
  { c with game := { s with
    phase := .playing
    lastPlayedCards := cards
    lastPlayedPlayerId := playerId
    lastPlayedSeatIndex := lastPlayedSeatIndex
    myCards := if removes then s.without cards else s.myCards
    players := players
    turnId := turnId.getD s.turnId
    currentPlayerIndex := nextPlayer.getD s.currentPlayerIndex } }

def applyPlayerPlayed (c : Client) (data : Json) : Option Client := do
  let playerId ← member asInt data "player_id"
  let cards ← intList data "cards"
  let _ ← member asInt data "card_count"
  let hasFinished ← member asBool data "has_finished"
  let _ ← member asInt data "finish_rank"
  let nextPlayer ← member asInt data "next_player"
  let _ ← member asInt data "state_version"
  let turnId ← member asNat data "turn_id"
  return showPlayed c (playerId.getD (-1)) cards hasFinished nextPlayer turnId

def applyPlayerPassed (c : Client) (data : Json) : Option Client := do
  let s := c.game
  let roundReset := flagged data "round_reset"
  let _ ← member asInt data "seat_index"
  let _ ← member asInt data "player_id"
  let _ ← member asInt data "state_version"
  let nextPlayer := (← member asInt data "next_player").getD s.currentPlayerIndex
  let leadAgain := !roundReset && 0 ≤ s.lastPlayedSeatIndex && nextPlayer == s.lastPlayedSeatIndex
  let s := if roundReset || leadAgain then resetTrick s else s
  let turnId ← member asNat data "turn_id"
  return { c with game := { s with turnId := turnId.getD s.turnId, currentPlayerIndex := nextPlayer } }

/-- An entry of the ranking, with the player it is about, if any. -/
def rankEntry (j : Json) : Option (Option (Int × Json)) :=
  match asObject j with
  | none => some none
  | some info => do
    let id ← member asInt info "player_id"
    return id.map (·, info)

/-- What an entry says of its player. -/
def applyFinishRank (p : Player) (info : Json) : Option Player := do
  let hasFinished ← member asBool info "has_finished"
  let _ ← member asInt info "finish_rank"
  return { p with hasFinished := hasFinished.getD true }

/-- `_applyFinishRanksFromSettlement`; of two entries for one player the last one counts. -/
def applyFinishRanks (data : Json) (players : List Player) : Option (List Player) :=
  match data.find "finish_ranks" with
  | some (.arr items) => do
    let entries := (← items.mapM rankEntry).reduceOption
    players.mapM fun p => match entries.reverse.find? fun entry => entry.1 == (p.id : Int) with
      | none => some p
      | some entry => applyFinishRank p entry.2
  | _ => some players

def applySettlement (c : Client) (data : Json) : Option Client := do
  let matchWon := flagged data "match_won"
  let players ← applyFinishRanks data c.game.players
  let _ ← (data.find "team_levels").elim (some []) parseIntList
  let _ ← (data.find "pass_a_fail_counts").elim (some []) parseIntList
  let s := { c.game with players := players }
  if matchWon then
    let _ ← member asInt data "winning_team"
    let _ ← member asInt data "level_upgrade"
    return { c with game := { s with phase := .settlement } }
  else
    return { c with game := { resetTrick s with phase := .roundEnd, myCards := [] } }.setRoomPhase .roundEnd

/-- `msg['data']`, an empty object if it is missing. -/
def dataOf (data : Option Json) : Option Json := (castOpt asObject data).map (·.getD (.obj []))

/-- What the game's listener does with a message of a type. -/
def handleGame (c : Client) (data : Option Json) : String → Option Client
  | "game_snapshot" => do
    let s ← fromSnapshot (← data.bind asObject)
    return showSnapshot c s
  | "cards_dealt" => do
    let s ← fromSnapshot (← data.bind asObject)
    return { c with game := applyDealtSnapshot (resetTrick s) }.setRoomPhase .playing
  | "tribute_phase_updated" => do
    let s ← fromSnapshot (← data.bind asObject)
    return { c with game := applyDealtSnapshot s }.setRoomPhase .playing
  | "spectate_update" | "spectate_changed" => do
    let s ← fromSnapshot (← dataOf data)
    return { c with game := applySpectateUpdate c.game s }
  | "player_played" => do applyPlayerPlayed c (← dataOf data)
  | "player_passed" => do applyPlayerPassed c (← dataOf data)
  | "settlement" => do applySettlement c (← dataOf data)
  | "game_over" => some { c with game := { c.game with phase := .finished } }
  | "room_dismissed" => some { c with game := {} }
  | _ => some c

/-- `GameController._handleGameMessage`. -/
def handleGameMessage (c : Client) (msg : Json) : Option Client := do
  let type ← member asText msg "type"
  handleGame c (msg.find "data") (String.ofList (type.getD []))

/-! ### A text from the server -/

/-- `WebSocketClient._handleMessage`: the listeners one after the other, until one of them throws. -/
def receive (c : Client) (text : Text) : Client :=
  match (decode text).bind asObject with
  | none => c
  | some msg => match handleMessage c msg with
    | none => c
    | some c => (handleGameMessage c msg).getD c

/-! ### What the client asks for of itself -/

/-- The end of `_applyPlayerPlayed`: whoever has played out asks to watch a team mate. -/
def playedAnswers (c : Client) (data : Json) : List Request :=
  if member asInt data "player_id" = some (some (c.userId : Int)) ∧ flagged data "has_finished" = true then
    c.autoSpectateTeammate.toList.map fun seat => .spectateTeammate seat
  else []

/-- The requests of the game's listener, once a message of a type is handled. -/
def gameAnswers (c : Client) (data : Option Json) : String → List Request
  | "player_played" => ((dataOf data).map (playedAnswers c)).getD []
  | _ => []

/-- The client after a text, and the requests that it sends. -/
def hear (c : Client) (text : Text) : Client × List Request :=
  match (decode text).bind asObject with
  | none => (c, [])
  | some msg => match handleMessage c msg with
    | none => (c, [])
    | some c => match handleGameMessage c msg with
      | none => (c, [])
      | some c => (c, gameAnswers c (msg.find "data")
          (String.ofList (((member asText msg "type").bind id).getD [])))

end Guandan.Client.Decoded
