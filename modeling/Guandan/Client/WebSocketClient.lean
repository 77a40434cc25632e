import Guandan.Library.Json

/-!
# The client's end of the connection

`send` of `websocket_client.dart`. `jsonEncode` is the encoder of the Dart library, which writes no
blanks and escapes quotes, backslashes and control characters.
-/

namespace Guandan.Client

open Quoted

def jsonEncode (j : Json) : Text := Json.write Json.standard.run j

/-- A value of a data map. -/
inductive DataValue
  | string (s : Text)
  | bool (b : Bool)
  | int (n : Int)
  | ints (ns : List Int)
  deriving DecidableEq, Repr

def DataValue.toJson : DataValue → Json
  | string s => .str s
  | bool b => .bool b
  | int n => .num n
  | ints ns => .arr (ns.map .num)

/-- A map from strings, in the order in which it is written. -/
abbrev DataMap := List (Text × DataValue)

def DataMap.toJson (data : DataMap) : List (Text × Json) := data.map fun e => (e.1, e.2.toJson)

structure WebSocketClient where
  connected : Bool := false
  requestId : Nat := 0
  deriving DecidableEq, Repr

namespace WebSocketClient

/-- `Constants.protocolVersion`. -/
def protocolVersion : Int := 1

/-- The fields in front of the data. -/
def envelope (requestId : Nat) (type : Text) (roomId : Option Text) (turnId : Option Int) :
    List (Text × Json) :=
  [("protocol_version".toList, .num protocolVersion), ("type".toList, .str type),
    ("request_id".toList, .num requestId)] ++
  (match roomId with
    | none => []
    | some roomId => [("room_id".toList, .str roomId)]) ++
  (match turnId with
    | none => []
    | some turnId => [("turn_id".toList, .num turnId)])

/-- The text that is sent, if the client is connected. -/
def send (c : WebSocketClient) (type : Text) (data : Option DataMap) (roomId : Option Text)
    (turnId : Option Int) : Option Text × WebSocketClient :=
  if !c.connected then (none, c)
  else
    let requestId := c.requestId + 1
    let msg := envelope requestId type roomId turnId ++
      [("data".toList, .obj (data.getD []).toJson)]
    (some (jsonEncode (.obj msg)), { c with requestId := requestId })

def sendSeatChat (c : WebSocketClient) (roomId content : Text) (isEmoji : Bool) :
    Option Text × WebSocketClient :=
  c.send "seat_chat".toList
    (some [("content".toList, .string content), ("is_emoji".toList, .bool isEmoji)]) (some roomId) none

def sendVoiceSignal (c : WebSocketClient) (roomId : Text) (payload : DataMap) :
    Option Text × WebSocketClient :=
  c.send "voice_signal".toList (some payload) (some roomId) none

end WebSocketClient

end Guandan.Client
