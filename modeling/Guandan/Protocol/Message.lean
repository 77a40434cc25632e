import Guandan.Game.Card
import Guandan.Protocol.Extract

/-!
# Messages and their text

`message.cpp`: a message is written field by field, and read by searching the whole text for each
field. `none` stands for a call that throws or never returns.
-/

namespace Guandan.Protocol

open Quoted

structure Message where
  protocolVersion : Nat := 1
  type : Text := []
  requestId : Nat := 0
  roomId : Text := []
  turnId : Nat := 0
  stateVersion : Nat := 0
  errorCode : ErrorCode := .ok
  dataJson : Text := []
  cards : List CardId := []
  token : Text := []
  deriving DecidableEq, Repr

/-- The number behind an error code. -/
def errorNumber : ErrorCode → Nat
  | .ok => 0
  | .invalidToken => 1001
  | .unauthorized => 1002
  | .roomNotFound => 2001
  | .roomFull => 2002
  | .alreadyInRoom => 2003
  | .notInRoom => 2004
  | .notRoomOwner => 2005
  | .notYourTurn => 3001
  | .invalidCards => 3002
  | .invalidPattern => 3003
  | .cannotBeat => 3004
  | .invalidState => 3005
  | .requestExpired => 3006
  | .duplicateRequest => 3007
  | .notAllReady => 3008
  | .invalidMessage => 4001
  | .unknownType => 4002
  | .internalError => 5000

/-! ### Reading -/

def extractJsonString (json : Text) (key : String) : Text := extractString json key.toList

def extractJsonUint (json : Text) (key : String) : Nat := extractUint json key.toList

/-- The text up to the brace that closes the last of `depth` open ones; quotes do not matter. -/
def scanObject : Nat → Text → Option Text
  | _, [] => none
  | depth, c :: cs =>
    if c = '{' then (scanObject (depth + 1) cs).map (c :: ·)
    else if c = '}' then
      if depth = 1 then some [c] else (scanObject (depth - 1) cs).map (c :: ·)
    else (scanObject depth cs).map (c :: ·)

def noObject : Text := ['{', '}']

def extractDataObject (json : Text) : Text :=
  match after (field "data".toList [':']) json with
  | none => noObject
  | some rest => match rest.dropWhile (· == ' ') with
    | '{' :: cs => ((scanObject 1 cs).map ('{' :: ·)).getD noObject
    | _ => noObject

/-- What stands between two cards. -/
def isCardSep (c : Char) : Bool := c == ' ' || c == ','

/-- The loop of `parseCardsArray` in at most `n` rounds. A round that stands before another character
does not move, and a number of more than 64 bits throws. -/
def cardsLoop : Nat → Text → Option (List CardId)
  | 0, _ => none
  | n + 1, text =>
    match text.dropWhile isCardSep with
    | [] => some []
    | c :: cs =>
      if c = ']' then some []
      else
        let word := (c :: cs).takeWhile Char.isDigit
        if word.isEmpty then cardsLoop n (c :: cs)
        else if 2 ^ 64 ≤ Nat.ofDigitChars 10 word 0 then none
        else (cardsLoop n ((c :: cs).dropWhile Char.isDigit)).map
          (Nat.ofDigitChars 10 word 0 % 2 ^ 16 :: ·)

/-- A loop that ends reads a character a round. -/
def parseCardsArray (json : Text) : Option (List CardId) :=
  match after (field "cards".toList [':']) json with
  | none => some []
  | some rest => match rest.dropWhile (· != '[') with
    | [] => some []
    | _ :: cs => cardsLoop (cs.length + 1) cs

def parseMessage (json : Text) : Option Message := do
  let data := extractDataObject json
  let roomId := extractJsonString json "room_id"
  let token := extractJsonString json "token"
  let cards ← parseCardsArray json
  some {
    type := extractJsonString json "type"
    roomId := if roomId.isEmpty then extractJsonString data "room_id" else roomId
    requestId := extractJsonUint json "request_id"
    turnId := extractJsonUint json "turn_id"
    stateVersion := extractJsonUint json "state_version"
    token := if token.isEmpty then extractJsonString data "token" else token
    dataJson := data
    cards := cards }

/-! ### Writing -/

def messageToJson (msg : Message) : Text :=
  ['{'] ++ field "protocol_version".toList [':'] ++ digits msg.protocolVersion ++
  [','] ++ field "type".toList [':', '"'] ++ msg.type ++ ['"'] ++
  (if 0 < msg.requestId then [','] ++ field "request_id".toList [':'] ++ digits msg.requestId
    else []) ++
  (if msg.roomId.isEmpty then []
    else [','] ++ field "room_id".toList [':', '"'] ++ msg.roomId ++ ['"']) ++
  (if 0 < msg.turnId then [','] ++ field "turn_id".toList [':'] ++ digits msg.turnId else []) ++
  (if 0 < msg.stateVersion then
    [','] ++ field "state_version".toList [':'] ++ digits msg.stateVersion else []) ++
  (if msg.errorCode = .ok then []
    else [','] ++ field "error_code".toList [':'] ++ digits (errorNumber msg.errorCode)) ++
  [','] ++ field "data".toList [':'] ++ (if msg.dataJson.isEmpty then noObject else msg.dataJson) ++
  ['}']

end Guandan.Protocol
