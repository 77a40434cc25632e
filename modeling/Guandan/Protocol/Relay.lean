import Guandan.Auth.AuthService
import Guandan.Client.WebSocketClient
import Guandan.Protocol.Message
import Guandan.Room.Room

/-!
# Messages that are passed on

`handleSeatChat` and `handleVoiceSignal` of `message_dispatcher.cpp`, with the functions they read
and write text with, and what the other client reads of the message that reaches it.
-/

namespace Guandan.Protocol

open Quoted

/-! ### Text -/

def jsonEscape (s : Text) : Text := escape s

def extractJsonUintFromData (json : Text) (key : String) : Nat := extractUint json key.toList

def extractJsonStringFromData (json : Text) (key : String) : Text := extractString json key.toList

def extractJsonBoolFromData (json : Text) (key : String) : Bool :=
  match after (field key.toList [':']) json with
  | none => false
  | some rest => "true".toList.isPrefixOf (rest.dropWhile isSpace)

/-- The size of a text in bytes. -/
def byteSize (s : Text) : Nat := (String.ofList s).utf8ByteSize

/-- `static_cast<int>`. -/
def toInt (n : Nat) : Int :=
  if n % 2 ^ 32 < 2 ^ 31 then (n % 2 ^ 32 : Nat) else ((n % 2 ^ 32 : Nat) : Int) - 2 ^ 32

/-! ### The handlers -/

/-- Who gets the message, and what the sender gets. -/
structure Relay where
  recipients : List PlayerId
  forward : Message
  ack : Message
  deriving DecidableEq, Repr

def chatData (playerId seatIndex : Nat) (content : Text) (isEmoji : Bool) : Text :=
  ['{'] ++ field "player_id".toList [':'] ++ digits playerId ++
  [','] ++ field "seat_index".toList [':'] ++ digits seatIndex ++
  [','] ++ field "content".toList [':', '"'] ++ jsonEscape content ++ ['"'] ++
  [','] ++ field "is_emoji".toList [':'] ++ (if isEmoji then "true".toList else "false".toList) ++
  ['}']

/-- `room` is the room of the player, if there is one. -/
def handleSeatChat (room : Option Room) (playerId : PlayerId) (msg : Message) :
    Except ErrorCode Relay :=
  match room with
  | none => .error .notInRoom
  | some room =>
    let content := extractJsonStringFromData msg.dataJson "content"
    if content.isEmpty || 64 < byteSize content then .error .invalidMessage
    else match room.players.find? (fun p => p.id == playerId) with
      | none => .error .invalidState
      | some p =>
        let isEmoji := extractJsonBoolFromData msg.dataJson "is_emoji"
        .ok {
          recipients := room.players.map (·.id)
          forward := {
            type := "seat_chat".toList
            roomId := room.roomId.toList
            dataJson := chatData playerId p.seatIndex content isEmoji }
          ack := {
            type := "seat_chat_ack".toList
            requestId := msg.requestId
            roomId := room.roomId.toList } }

/-- A field that is left out when it is empty. -/
def optionalField (key : String) (value : Text) : Text :=
  if value.isEmpty then [] else [','] ++ field key.toList [':', '"'] ++ jsonEscape value ++ ['"']

def indexField : Option Int → Text
  | none => []
  | some index => [','] ++ field "sdp_mline_index".toList [':'] ++ Json.writeInt index

def voiceData (playerId : PlayerId) (signal sdp sdpType candidate sdpMid : Text)
    (sdpMLineIndex : Option Int) : Text :=
  ['{'] ++ field "from_player_id".toList [':'] ++ digits playerId ++
  [','] ++ field "signal".toList [':', '"'] ++ jsonEscape signal ++ ['"'] ++
  optionalField "sdp" sdp ++
  optionalField "sdp_type" sdpType ++
  optionalField "candidate" candidate ++
  optionalField "sdp_mid" sdpMid ++
  indexField sdpMLineIndex ++
  ['}']

def handleVoiceSignal (room : Option Room) (playerId : PlayerId) (msg : Message) :
    Except ErrorCode Relay :=
  match room with
  | none => .error .notInRoom
  | some room =>
    let toPlayerId := extractJsonUintFromData msg.dataJson "to_player_id"
    let signal := extractJsonStringFromData msg.dataJson "signal"
    if signal.isEmpty then .error .invalidMessage
    else
      let sdp := extractJsonStringFromData msg.dataJson "sdp"
      let sdpType := extractJsonStringFromData msg.dataJson "sdp_type"
      let candidate := extractJsonStringFromData msg.dataJson "candidate"
      let sdpMid := extractJsonStringFromData msg.dataJson "sdp_mid"
      let sdpMLineIndex :=
        if (seek (field "sdp_mline_index".toList []) msg.dataJson).isNone then none
        else some (toInt (extractJsonUintFromData msg.dataJson "sdp_mline_index"))
      let forward : Message := {
        type := "voice_signal".toList
        roomId := room.roomId.toList
        dataJson := voiceData playerId signal sdp sdpType candidate sdpMid sdpMLineIndex }
      let ack : Message := {
        type := "voice_signal_ack".toList
        requestId := msg.requestId
        roomId := room.roomId.toList }
      if toPlayerId = 0 then
        .ok {
          recipients := (room.players.map (·.id)).filter (· != playerId)
          forward := forward
          ack := ack }
      else if !room.players.any (fun p => p.id == toPlayerId) || toPlayerId == playerId then
        .error .invalidState
      else .ok { recipients := [toPlayerId], forward := forward, ack := ack }

/-! ### At the other client -/

/-- Only a string is read; what is missing is read as the empty text. -/
def stringOf : Option Json → Text
  | some (.str s) => s
  | _ => []

/-- The string under the key in the data of a message. -/
def heard (json key : Text) : Text :=
  stringOf (((Json.decode json).bind fun j => j.get? "data".toList).bind fun data => data.get? key)

/-- What the server passes on of a text it is sent. -/
def relayed (handle : Message → Except ErrorCode Relay) (payload : Option Text) : Option Relay :=
  (payload.bind parseMessage).bind fun msg => (handle msg).toOption

end Guandan.Protocol
