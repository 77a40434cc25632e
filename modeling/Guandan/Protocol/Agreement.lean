import Guandan.Protocol.Reading

/-!
# What the server understands

Exactly which messages of the client are read as they were meant (`Understandable`).
-/

namespace Guandan.Protocol

open Quoted Guandan.Client

/-- The server has read what was sent: the type, the ids and the text of the data. An id that was not
sent is read as nothing. -/
structure Understood (msg : Message) (requestId : Nat) (type : Text) (data : DataMap)
    (roomId : Option Text) (turnId : Option Int) : Prop where
  type : msg.type = type
  requestId : msg.requestId = requestId
  roomId : msg.roomId = roomId.getD []
  turnId : (msg.turnId : Int) = turnId.getD 0
  dataJson : msg.dataJson = jsonEncode (.obj data.toJson)

/-- Nothing that is read has an escape, no id that is missing or empty is found in the data instead,
the braces in the keys and strings of the data are paired, and the cards are a list of cards. -/
structure Understandable (requestId : Nat) (type : Text) (data : DataMap) (roomId : Option Text)
    (turnId : Option Int) : Prop where
  plainType : Json.standard.Plain type
  request : requestId < 2 ^ 64
  room : ∀ id, roomId = some id → Json.standard.Plain id
  noRoom : roomId = none ∨ roomId = some [] → ∀ s, stringAt data "room_id".toList = some s → s = []
  turn : ∀ id, turnId = some id → 0 ≤ id ∧ id < 2 ^ 64
  noTurn : turnId = none → ∀ n, valueAt data "turn_id".toList = some (.int n) →
    n = 0 ∨ 2 ^ 64 ≤ n.natAbs
  braces : nest 0 (dataTexts data) = some 0
  cards : ∀ text, behindCards data = some text → CardsReadable text

section Agreement

variable {requestId : Nat} {type : Text} {roomId : Option Text} {turnId : Option Int}
  {data : DataMap}

theorem dataString_eq_nil {key : Text} :
    dataString data key = [] ↔ ∀ s, stringAt data key = some s → s = [] := by
  unfold dataString
  rcases stringAt data key with _ | s
  · simp
  · have hs : upToQuote (encoded s) = [] ↔ s = [] := by
      refine ⟨fun h => ?_, fun h => by rw [h]; rfl⟩
      by_contra hne
      exact Json.standard.upToQuote_run_ne_nil hne h
    simpa using hs

/-- What `parseMessage` takes for the room. -/
def readRoom (json : Text) : Text :=
  if (extractJsonString json "room_id").isEmpty then
    extractJsonString (extractDataObject json) "room_id"
  else extractJsonString json "room_id"

theorem readRoom_eq_iff
    (hdata : extractDataObject (sentText requestId type roomId turnId data) =
      jsonEncode (.obj data.toJson)) :
    readRoom (sentText requestId type roomId turnId data) = roomId.getD [] ↔
      (∀ id, roomId = some id → Json.standard.Plain id) ∧
        (roomId = none ∨ roomId = some [] →
          ∀ s, stringAt data "room_id".toList = some s → s = []) := by
  rw [readRoom, hdata, read_innerRoom, read_firstRoom, ← dataString_eq_nil]
  generalize dataString data "room_id".toList = inside
  rcases roomId with _ | id
  · -- both searches find the same string of the data
    simp
  · by_cases hid : id = []
    · subst hid
      have hempty : upToQuote (encoded []) = [] := rfl
      have hplain : Json.standard.Plain [] := by decide
      simp [hempty, hplain]
    · have hne : upToQuote (encoded id) ≠ [] := Json.standard.upToQuote_run_ne_nil hid
      simp [hne, hid, Json.standard.upToQuote_run]

theorem readTurn_eq_iff :
    (extractJsonUint (sentText requestId type roomId turnId data) "turn_id" : Int) = turnId.getD 0 ↔
      (∀ id, turnId = some id → 0 ≤ id ∧ id < 2 ^ 64) ∧
        (turnId = none → ∀ n, valueAt data "turn_id".toList = some (.int n) →
          n = 0 ∨ 2 ^ 64 ≤ n.natAbs) := by
  rw [read_turnId]
  generalize valueAt data "turn_id".toList = inside
  rcases turnId with _ | id
  · rcases inside with _ | v
    · simp [uintOf]
    · cases v with
      | int n => simp [uintOf, stoull_writeInt_zero]
      | _ => simp [uintOf]
  · simp [stoull_writeInt_eq]

theorem readData_eq_iff :
    extractDataObject (sentText requestId type roomId turnId data) = jsonEncode (.obj data.toJson) ↔
      nest 0 (dataTexts data) = some 0 := by
  rw [sentText, read_data envelope_leaf (envelope_skip (by decide)), written_data, scanObject_eq_iff,
    nest_body]

theorem readType_eq_iff :
    extractJsonString (sentText requestId type roomId turnId data) "type" = type ↔
      Json.standard.Plain type := by
  rw [read_type, Json.standard.upToQuote_run]

theorem readRequest_eq_iff (hpos : 0 < requestId) :
    extractJsonUint (sentText requestId type roomId turnId data) "request_id" = requestId ↔
      requestId < 2 ^ 64 := by
  rw [read_requestId]
  split_ifs with hwidth
  · exact iff_of_true rfl hwidth
  · exact iff_of_false (Nat.ne_of_lt hpos) hwidth

theorem parseMessage_eq_some {json : Text} {msg : Message} :
    parseMessage json = some msg ↔ ∃ cards, parseCardsArray json = some cards ∧
      msg = {
        type := extractJsonString json "type"
        roomId := readRoom json
        requestId := extractJsonUint json "request_id"
        turnId := extractJsonUint json "turn_id"
        stateVersion := extractJsonUint json "state_version"
        token := if (extractJsonString json "token").isEmpty then
            extractJsonString (extractDataObject json) "token" else extractJsonString json "token"
        dataJson := extractDataObject json
        cards := cards } := by
  rw [parseMessage, readRoom]
  rcases parseCardsArray json with _ | cards
  · refine ⟨fun h => (by cases h), ?_⟩
    rintro ⟨cards, hcards, -⟩
    cases hcards
  · refine ⟨fun h => ⟨cards, rfl, (Option.some.inj h).symm⟩, ?_⟩
    rintro ⟨_, ⟨⟩, rfl⟩
    rfl

/-- A message is understood when it is understandable, and only then. -/
theorem parseMessage_iff (hpos : 0 < requestId) :
    (∃ msg, parseMessage (sentText requestId type roomId turnId data) = some msg ∧
      Understood msg requestId type data roomId turnId) ↔
      Understandable requestId type data roomId turnId := by
  have hcards : (parseCardsArray (sentText requestId type roomId turnId data)).isSome = true ↔
      ∀ text, behindCards data = some text → CardsReadable text :=
    read_cards envelope_leaf (envelope_skip (by decide))
  constructor
  · rintro ⟨msg, hmsg, hread⟩
    obtain ⟨cards, hsome, rfl⟩ := parseMessage_eq_some.1 hmsg
    obtain ⟨hroom, hnoRoom⟩ := (readRoom_eq_iff hread.dataJson).1 hread.roomId
    obtain ⟨hturn, hnoTurn⟩ := readTurn_eq_iff.1 hread.turnId
    exact {
      plainType := readType_eq_iff.1 hread.type
      request := (readRequest_eq_iff hpos).1 hread.requestId
      room := hroom
      noRoom := hnoRoom
      turn := hturn
      noTurn := hnoTurn
      braces := readData_eq_iff.1 hread.dataJson
      cards := hcards.1 (by rw [hsome]; rfl) }
  · intro h
    obtain ⟨cards, hsome⟩ := Option.isSome_iff_exists.1 (hcards.2 h.cards)
    have hdata : extractDataObject (sentText requestId type roomId turnId data) =
        jsonEncode (.obj data.toJson) := readData_eq_iff.2 h.braces
    refine ⟨_, parseMessage_eq_some.2 ⟨cards, hsome, rfl⟩, ?_⟩
    exact {
      type := readType_eq_iff.2 h.plainType
      requestId := (readRequest_eq_iff hpos).2 h.request
      roomId := (readRoom_eq_iff hdata).2 ⟨h.room, h.noRoom⟩
      turnId := readTurn_eq_iff.2 ⟨h.turn, h.noTurn⟩
      dataJson := hdata }

end Agreement

/-- Every message of a connected client is understood exactly when it is understandable. -/
theorem send_understood_iff (c : WebSocketClient) (hc : c.connected = true) (type : Text)
    (data : Option DataMap) (roomId : Option Text) (turnId : Option Int) :
    ∃ payload, (c.send type data roomId turnId).1 = some payload ∧
      ((∃ msg, parseMessage payload = some msg ∧
          Understood msg (c.requestId + 1) type (data.getD []) roomId turnId) ↔
        Understandable (c.requestId + 1) type (data.getD []) roomId turnId) := by
  have hsend : (c.send type data roomId turnId).1 =
      some (sentText (c.requestId + 1) type roomId turnId (data.getD [])) := by
    rw [WebSocketClient.send, hc]
    rfl
  exact ⟨_, hsend, parseMessage_iff (Nat.succ_pos _)⟩

/-- The cards of a play arrive. -/
theorem send_understood_iff_playCards :
    ∃ payload, (WebSocketClient.send { connected := true, requestId := 6 } "play_cards".toList
        (some [("cards".toList, .ints [10, 23])]) (some "938271".toList) (some 37)).1 = some payload ∧
      ((∃ msg, parseMessage payload = some msg ∧
          Understood msg 7 "play_cards".toList [("cards".toList, .ints [10, 23])]
            (some "938271".toList) (some 37)) ↔
        Understandable 7 "play_cards".toList [("cards".toList, .ints [10, 23])]
          (some "938271".toList) (some 37)) :=
  send_understood_iff { connected := true, requestId := 6 } rfl "play_cards".toList
    (some [("cards".toList, .ints [10, 23])]) (some "938271".toList) (some 37)

/-- A chat line with a brace is cut off behind it. -/
theorem seatChat_cut_at_brace :
    ∃ payload msg, (WebSocketClient.sendSeatChat { connected := true } "100000".toList "a\x7db".toList
        false).1 = some payload ∧ parseMessage payload = some msg ∧
      msg.dataJson = "\x7b\"content\":\"a\x7d".toList ∧
      ¬ Understood msg 1 "seat_chat".toList
        [("content".toList, .string "a\x7db".toList), ("is_emoji".toList, .bool false)]
        (some "100000".toList) none := by
  refine ⟨_, _, rfl, rfl, by decide +kernel, fun h => ?_⟩
  exact absurd h.dataJson (by decide +kernel)

end Guandan.Protocol
