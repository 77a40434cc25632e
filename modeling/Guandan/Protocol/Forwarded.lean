import Guandan.Network.Hall
import Guandan.Protocol.Reading
import Guandan.Protocol.Relay

/-!
# What is passed on

The text of a forwarded message is that of a JSON value: nothing that was cut out of the text of a
client has a control character, and without these `jsonEscape` writes the standard escapes. So the other
client reads exactly what the server has read (`heard_chat`, `heard_voice`).
-/

namespace Guandan.Protocol

open Quoted Guandan.Client
open Json (Printable)

/-! ### Texts that are cut out -/

section Cut

variable {json text found rest : Text} {key : Text}

theorem after_suffix {needle : Text} (h : after needle text = some rest) : rest <:+ text := by
  obtain ⟨here, hhere, rfl⟩ := Option.map_eq_some_iff.1 h
  exact (List.drop_suffix _ _).trans (seek_spec hhere).1

theorem Printable.of_subset (h : Printable text) (hsub : found ⊆ text) : Printable found :=
  fun c hc => h c (hsub hc)

theorem extractString_subset (json key : Text) : extractString json key ⊆ json := by
  unfold extractString
  rcases hafter : after (field key [':', '"']) json with _ | rest
  · exact List.nil_subset _
  · dsimp only
    split_ifs
    · exact List.Subset.trans (List.takeWhile_prefix _).subset (after_suffix hafter).subset
    · exact List.nil_subset _

theorem scanObject_start {depth : Nat} (h : scanObject depth text = some found) : found <+: text := by
  induction text generalizing depth found with
  | nil => cases h
  | cons c text ih =>
    rw [scanObject] at h
    split_ifs at h
    · obtain ⟨more, hmore, rfl⟩ := Option.map_eq_some_iff.1 h
      exact (List.prefix_cons_inj c).2 (ih hmore)
    · cases h
      exact (List.prefix_cons_inj c).2 List.nil_prefix
    · obtain ⟨more, hmore, rfl⟩ := Option.map_eq_some_iff.1 h
      exact (List.prefix_cons_inj c).2 (ih hmore)
    · obtain ⟨more, hmore, rfl⟩ := Option.map_eq_some_iff.1 h
      exact (List.prefix_cons_inj c).2 (ih hmore)

theorem printable_extractDataObject (h : Printable json) : Printable (extractDataObject json) := by
  have hno : Printable noObject := by decide
  unfold extractDataObject
  rcases hafter : after (field "data".toList [':']) json with _ | rest
  · exact hno
  dsimp only
  split
  · next cs hcs =>
    have hsub : '{' :: cs ⊆ json := by
      rw [← hcs]
      exact List.Subset.trans (List.dropWhile_suffix _).subset (after_suffix hafter).subset
    rcases hscan : scanObject 1 cs with _ | found
    · exact hno
    · have hfound : '{' :: found <+: '{' :: cs := (List.prefix_cons_inj '{').2 (scanObject_start hscan)
      exact Printable.of_subset h (List.Subset.trans hfound.subset hsub)
  · exact hno

theorem escape_of_printable (h : Printable text) : escape text = encoded text := by
  have hchar : ∀ c ∈ text, escapeChar c = Json.standard.char c := by
    intro c hc
    have hle := h c hc
    by_cases hquote : c = '"'
    · rw [hquote]
      rfl
    by_cases hslash : c = '\\'
    · rw [hslash]
      rfl
    · have hspecial : ¬ Json.standard.special c = true := by
        rw [Json.standard_special, not_or, not_or]
        exact ⟨hquote, hslash, Nat.not_lt.2 hle⟩
      have hplain : c ∉ escapedChars := by
        intro hmem
        simp only [escapedChars, List.mem_cons, List.not_mem_nil, or_false] at hmem
        rcases hmem with rfl | rfl | rfl | rfl | rfl
        · exact hquote rfl
        · exact hslash rfl
        all_goals exact absurd hle (by decide)
      rw [Escaper.char, if_neg hspecial, escapeChar_of_not_mem hplain]
  exact List.flatMap_congr hchar

end Cut

/-! ### The text is that of a value -/

theorem writeMember_string {key : Text} (hkey : Json.standard.Plain key) (s : Text) :
    Json.writeMember Json.standard.run (key, .str s) = field key [':', '"'] ++ encoded s ++ ['"'] := by
  rw [Json.writeMember, Json.writeString, Json.standard.run_eq_iff.2 hkey, Json.write, Json.writeString]
  simp [field]

theorem writeMember_plain {key : Text} (hkey : Json.standard.Plain key) (j : Json) :
    Json.writeMember Json.standard.run (key, j) = field key [':'] ++ written j := by
  rw [Json.writeMember, Json.writeString, Json.standard.run_eq_iff.2 hkey]
  simp [field]

theorem digits_eq (n : Nat) : digits n = written (.num n) := by
  have hn : ¬ (n : Int) < 0 := by omega
  rw [written, Json.write, Json.writeInt, if_neg hn, Int.natAbs_natCast]
  rfl

/-- The value whose text is a message without ids. -/
def forwardJson (type roomId : Text) (members : List (Text × Json)) : Json :=
  .obj [("protocol_version".toList, .num 1), ("type".toList, .str type),
    ("room_id".toList, .str roomId), ("data".toList, .obj members)]

theorem messageToJson_forward {type roomId dataJson : Text} {members : List (Text × Json)}
    (htype : Json.standard.Plain type) (hroom : Json.standard.Plain roomId) (hne : roomId ≠ [])
    (hdata : dataJson = jsonEncode (.obj members)) :
    messageToJson { type := type, roomId := roomId, dataJson := dataJson } =
      jsonEncode (forwardJson type roomId members) := by
  have hwritten : written (.obj members) = dataJson := hdata.symm
  have hfull : dataJson.isEmpty = false := by
    rw [hdata]
    rfl
  have hid : roomId.isEmpty = false := List.isEmpty_eq_false_iff.2 hne
  have htypeRun : encoded type = type := Json.standard.run_eq_iff.2 htype
  have hroomRun : encoded roomId = roomId := Json.standard.run_eq_iff.2 hroom
  rw [jsonEncode, forwardJson, Json.write, Json.writeMembers_eq]
  simp only [List.map_cons, List.map_nil, Json.commas]
  rw [writeMember_plain (by decide), writeMember_string (by decide), writeMember_string (by decide),
    writeMember_plain (by decide), htypeRun, hroomRun, hwritten]
  unfold messageToJson
  simp only [hfull, hid, Nat.lt_irrefl, if_false, if_true, Bool.false_eq_true]
  simp [digits_eq]

/-! ### The data that are passed on -/

def chatMembers (playerId seatIndex : Nat) (content : Text) (isEmoji : Bool) : List (Text × Json) :=
  [("player_id".toList, .num playerId), ("seat_index".toList, .num seatIndex),
    ("content".toList, .str content), ("is_emoji".toList, .bool isEmoji)]

theorem chatData_eq (playerId seatIndex : Nat) {content : Text} (isEmoji : Bool)
    (hcontent : Printable content) :
    chatData playerId seatIndex content isEmoji =
      jsonEncode (.obj (chatMembers playerId seatIndex content isEmoji)) := by
  have hbool : (if isEmoji then "true".toList else "false".toList) = written (.bool isEmoji) := by
    cases isEmoji <;> rfl
  rw [chatData, jsonEscape, escape_of_printable hcontent, hbool, digits_eq, digits_eq, jsonEncode,
    chatMembers, Json.write, Json.writeMembers_eq]
  simp only [List.map_cons, List.map_nil, Json.commas]
  rw [writeMember_plain (by decide), writeMember_plain (by decide), writeMember_string (by decide),
    writeMember_plain (by decide)]
  simp

def optionalMember (key : String) (value : Text) : List (Text × Json) :=
  if value.isEmpty then [] else [(key.toList, .str value)]

theorem optionalField_eq {key : String} {value : Text} (hkey : Json.standard.Plain key.toList)
    (hvalue : Printable value) :
    optionalField key value =
      ((optionalMember key value).map (Json.writeMember Json.standard.run)).flatMap (',' :: ·) := by
  unfold optionalField optionalMember
  split_ifs
  · rfl
  · rw [jsonEscape, escape_of_printable hvalue, List.map_singleton, writeMember_string hkey]
    simp

section Voice

variable (playerId : PlayerId) {signal sdp sdpType candidate sdpMid : Text} (index : Option Int)

def indexMember : Option Int → List (Text × Json)
  | none => []
  | some index => [("sdp_mline_index".toList, .num index)]

theorem indexField_eq :
    indexField index = ((indexMember index).map (Json.writeMember Json.standard.run)).flatMap (',' :: ·) := by
  cases index with
  | none => rfl
  | some index =>
    rw [indexField, indexMember, List.map_singleton, writeMember_plain (by decide)]
    simp [Json.write]

def voiceMembers (playerId : PlayerId) (signal sdp sdpType candidate sdpMid : Text)
    (index : Option Int) : List (Text × Json) :=
  [("from_player_id".toList, .num playerId), ("signal".toList, .str signal)] ++
    (optionalMember "sdp" sdp ++ optionalMember "sdp_type" sdpType ++
      optionalMember "candidate" candidate ++ optionalMember "sdp_mid" sdpMid ++ indexMember index)

theorem voiceData_eq (hsignal : Printable signal) (hsdp : Printable sdp) (htype : Printable sdpType)
    (hcandidate : Printable candidate) (hmid : Printable sdpMid) :
    voiceData playerId signal sdp sdpType candidate sdpMid index =
      jsonEncode (.obj (voiceMembers playerId signal sdp sdpType candidate sdpMid index)) := by
  rw [voiceData, indexField_eq, jsonEscape, escape_of_printable hsignal, digits_eq,
    optionalField_eq (by decide) hsdp, optionalField_eq (by decide) htype,
    optionalField_eq (by decide) hcandidate, optionalField_eq (by decide) hmid, jsonEncode,
    voiceMembers, Json.write, Json.writeMembers_eq, List.map_append, List.map_append, List.map_append,
    List.map_append, List.map_append, List.map_cons, List.map_singleton]
  generalize (optionalMember "sdp" sdp).map (Json.writeMember Json.standard.run) = a
  generalize (optionalMember "sdp_type" sdpType).map (Json.writeMember Json.standard.run) = b
  generalize (optionalMember "candidate" candidate).map (Json.writeMember Json.standard.run) = c
  generalize (optionalMember "sdp_mid" sdpMid).map (Json.writeMember Json.standard.run) = d
  generalize (indexMember index).map (Json.writeMember Json.standard.run) = e
  rw [writeMember_plain (by decide), writeMember_string (by decide)]
  simp [Json.commas_cons]

end Voice

/-! ### What is heard of them -/

theorem heard_forward {type roomId dataJson : Text} {members : List (Text × Json)}
    (htype : Json.standard.Plain type) (hroom : Json.standard.Plain roomId) (hne : roomId ≠ [])
    (hdata : dataJson = jsonEncode (.obj members)) (key : Text) :
    heard (messageToJson { type := type, roomId := roomId, dataJson := dataJson }) key =
      stringOf ((Json.obj members).get? key) := by
  rw [messageToJson_forward htype hroom hne hdata, heard, jsonEncode, Json.decode_write Json.codec_standard]
  rfl

theorem plain_digits (n : Nat) : Json.standard.Plain (digits n) := by
  intro c hc
  have hdigit := Nat.isDigit_of_mem_toDigits (by decide) (by decide) hc
  rw [Bool.eq_false_iff, ne_eq, Json.standard_special, not_or, not_or]
  refine ⟨?_, ?_, ?_⟩
  · rintro rfl
    exact absurd hdigit (by decide)
  · rintro rfl
    exact absurd hdigit (by decide)
  · simp only [Char.isDigit, Bool.and_eq_true, decide_eq_true_eq] at hdigit
    have hle : (48 : Nat) ≤ c.toNat := hdigit.1
    omega

theorem roomId_digits (draw : Fin 900000) : (generateRoomId draw).toList = digits (100000 + draw) := by
  rw [generateRoomId, Nat.toString_eq_repr, Nat.repr, digits, String.toList_ofList]

theorem plain_roomId (draw : Fin 900000) : Json.standard.Plain (generateRoomId draw).toList := by
  rw [roomId_digits]
  exact plain_digits _

theorem roomId_ne_nil (draw : Fin 900000) : (generateRoomId draw).toList ≠ [] := by
  rw [roomId_digits]
  exact Nat.toDigits_ne_nil

section Handlers

variable {room : Room} {playerId : PlayerId} {msg : Message} {draw : Fin 900000}

theorem handleSeatChat_isOk_iff :
    (∃ relay, handleSeatChat (some room) playerId msg = .ok relay) ↔
      extractJsonStringFromData msg.dataJson "content" ≠ [] ∧
      byteSize (extractJsonStringFromData msg.dataJson "content") ≤ 64 ∧
      ∃ p ∈ room.players, p.id = playerId := by
  simp only [handleSeatChat]
  generalize extractJsonStringFromData msg.dataJson "content" = content
  generalize extractJsonBoolFromData msg.dataJson "is_emoji" = isEmoji
  split_ifs with hrefused
  · simp only [Bool.or_eq_true, List.isEmpty_iff, decide_eq_true_eq] at hrefused
    refine iff_of_false ?_ fun h => hrefused.elim h.1 (Nat.not_lt.2 h.2.1)
    rintro ⟨relay, ⟨⟩⟩
  simp only [Bool.or_eq_true, List.isEmpty_iff, decide_eq_true_eq, not_or, Nat.not_lt] at hrefused
  rcases hfind : room.players.find? (fun p => p.id == playerId) with _ | p
  · simp only [hfind]
    refine iff_of_false ?_ ?_
    · rintro ⟨relay, ⟨⟩⟩
    · rintro ⟨-, -, p, hp, hid⟩
      exact List.find?_eq_none.1 hfind p hp (beq_iff_eq.2 hid)
  · have hp : p.id = playerId := beq_iff_eq.1 (List.find?_some hfind :)
    simp only [hfind]
    exact iff_of_true ⟨_, rfl⟩ ⟨hrefused.1, hrefused.2, p, List.mem_of_find?_eq_some hfind, hp⟩

theorem heard_chat {relay : Relay} (h : handleSeatChat (some room) playerId msg = .ok relay)
    (hid : room.roomId = generateRoomId draw) (hdata : Printable msg.dataJson) :
    heard (messageToJson relay.forward) "content".toList =
      extractJsonStringFromData msg.dataJson "content" := by
  have hcontent : Printable (extractJsonStringFromData msg.dataJson "content") :=
    Printable.of_subset hdata (extractString_subset _ _)
  revert h hcontent
  simp only [handleSeatChat]
  generalize extractJsonStringFromData msg.dataJson "content" = content
  intro h hcontent
  split_ifs at h
  split at h
  · cases h
  · cases h
    dsimp only
    rw [hid, heard_forward (by decide) (plain_roomId draw) (roomId_ne_nil draw)
      (chatData_eq _ _ _ hcontent)]
    rfl

/-- The fields of a signal that are texts. -/
def voiceKeys : List Text :=
  ["signal".toList, "sdp".toList, "sdp_type".toList, "candidate".toList, "sdp_mid".toList]

theorem get?_optional (key : String) (value other : Text) :
    (Json.obj (optionalMember key value)).get? other =
      if key.toList = other ∧ value ≠ [] then some (.str value) else none := by
  unfold optionalMember
  rcases value with _ | ⟨c, value⟩
  · rw [List.isEmpty_nil, if_pos rfl, if_neg (fun h => h.2 rfl)]
    rfl
  · rw [List.isEmpty_cons, if_neg Bool.false_ne_true, Json.get?_singleton]
    simp only [ne_eq, reduceCtorEq, not_false_eq_true, and_true]

theorem get?_index (index : Option Int) {key : Text} (hkey : "sdp_mline_index".toList ≠ key) :
    (Json.obj (indexMember index)).get? key = none := by
  cases index with
  | none => rfl
  | some index => rw [indexMember, Json.get?_singleton, if_neg hkey]

theorem voiceMembers_get? (playerId : PlayerId) (signal sdp sdpType candidate sdpMid : Text)
    (index : Option Int) {key : Text} (hkey : "sdp_mline_index".toList ≠ key) :
    (Json.obj (voiceMembers playerId signal sdp sdpType candidate sdpMid index)).get? key =
      (if "sdp_mid".toList = key ∧ sdpMid ≠ [] then some (.str sdpMid) else none).or
      ((if "candidate".toList = key ∧ candidate ≠ [] then some (.str candidate) else none).or
      ((if "sdp_type".toList = key ∧ sdpType ≠ [] then some (.str sdpType) else none).or
      ((if "sdp".toList = key ∧ sdp ≠ [] then some (.str sdp) else none).or
      ((if "signal".toList = key then some (.str signal) else none).or
      (if "from_player_id".toList = key then some (.num playerId) else none))))) := by
  rw [voiceMembers, Json.get?_append, Json.get?_append, Json.get?_append, Json.get?_append,
    Json.get?_append, get?_index index hkey, Option.none_or, get?_optional, get?_optional,
    get?_optional, get?_optional, Option.or_assoc, Option.or_assoc, Option.or_assoc]
  have hfirst : (Json.obj [("from_player_id".toList, .num playerId), ("signal".toList, .str signal)]).get?
      key = (if "signal".toList = key then some (.str signal) else none).or
        (if "from_player_id".toList = key then some (.num playerId) else none) := by
    rw [← Json.get?_singleton, ← Json.get?_singleton, ← Json.get?_append, List.singleton_append]
  rw [hfirst]

/-- A field that is left out is read as what it was. -/
theorem stringOf_optional (value : Text) :
    stringOf (if value ≠ [] then some (Json.str value) else none) = value := by
  split_ifs with hvalue
  · rfl
  · exact (not_not.1 hvalue).symm

theorem stringOf_voice (playerId : PlayerId) (signal sdp sdpType candidate sdpMid : Text)
    (index : Option Int) :
    ∀ e ∈ [("signal", signal), ("sdp", sdp), ("sdp_type", sdpType), ("candidate", candidate),
        ("sdp_mid", sdpMid)],
      stringOf ((Json.obj (voiceMembers playerId signal sdp sdpType candidate sdpMid index)).get?
        e.1.toList) = e.2 := by
  simp only [List.forall_mem_cons]
  refine ⟨?_, ?_, ?_, ?_, ?_, List.forall_mem_nil _⟩
  all_goals
    rw [voiceMembers_get? playerId signal sdp sdpType candidate sdpMid index (by decide)]
    simp only [String.toList_inj, String.reduceEq, false_and, true_and, if_false, if_true,
      Option.none_or, Option.or_none]
  · rfl
  · exact stringOf_optional sdp
  · exact stringOf_optional sdpType
  · exact stringOf_optional candidate
  · exact stringOf_optional sdpMid

theorem handleVoiceSignal_isOk_iff :
    (∃ relay, handleVoiceSignal (some room) playerId msg = .ok relay) ↔
      extractJsonStringFromData msg.dataJson "signal" ≠ [] ∧
      (extractJsonUintFromData msg.dataJson "to_player_id" = 0 ∨
        extractJsonUintFromData msg.dataJson "to_player_id" ≠ playerId ∧
        ∃ p ∈ room.players, p.id = extractJsonUintFromData msg.dataJson "to_player_id") := by
  simp only [handleVoiceSignal]
  generalize extractJsonStringFromData msg.dataJson "signal" = signal
  generalize extractJsonUintFromData msg.dataJson "to_player_id" = target
  by_cases hsignal : signal = []
  · rw [if_pos (by simpa using hsignal)]
    refine iff_of_false ?_ fun h => h.1 hsignal
    rintro ⟨relay, ⟨⟩⟩
  rw [if_neg (by simpa using hsignal)]
  by_cases hall : target = 0
  · rw [if_pos hall]
    exact iff_of_true ⟨_, rfl⟩ ⟨hsignal, .inl hall⟩
  rw [if_neg hall]
  by_cases hpeer : target ≠ playerId ∧ ∃ p ∈ room.players, p.id = target
  · rw [if_neg (by simpa [and_comm] using hpeer)]
    exact iff_of_true ⟨_, rfl⟩ ⟨hsignal, .inr hpeer⟩
  · rw [if_pos (by simpa [or_iff_not_imp_right, imp.swap] using hpeer)]
    refine iff_of_false ?_ fun h => hpeer (h.2.resolve_left hall)
    rintro ⟨relay, ⟨⟩⟩

theorem heard_voice {relay : Relay} (h : handleVoiceSignal (some room) playerId msg = .ok relay)
    (hid : room.roomId = generateRoomId draw) (hdata : Printable msg.dataJson) {key : Text}
    (hkey : key ∈ voiceKeys) :
    heard (messageToJson relay.forward) key = extractString msg.dataJson key := by
  have hread : ∀ key : String, Printable (extractJsonStringFromData msg.dataJson key) := fun key =>
    Printable.of_subset hdata (extractString_subset _ _)
  obtain ⟨index, hforward⟩ : ∃ index, relay.forward = {
      type := "voice_signal".toList
      roomId := room.roomId.toList
      dataJson := voiceData playerId (extractJsonStringFromData msg.dataJson "signal")
        (extractJsonStringFromData msg.dataJson "sdp")
        (extractJsonStringFromData msg.dataJson "sdp_type")
        (extractJsonStringFromData msg.dataJson "candidate")
        (extractJsonStringFromData msg.dataJson "sdp_mid") index } := by
    simp only [handleVoiceSignal] at h
    split_ifs at h <;> cases h <;> exact ⟨_, rfl⟩
  rw [hforward, hid, heard_forward (by decide) (plain_roomId draw) (roomId_ne_nil draw)
    (voiceData_eq playerId index (hread _) (hread _) (hread _) (hread _) (hread _))]
  have hstrings := stringOf_voice playerId (extractJsonStringFromData msg.dataJson "signal")
    (extractJsonStringFromData msg.dataJson "sdp") (extractJsonStringFromData msg.dataJson "sdp_type")
    (extractJsonStringFromData msg.dataJson "candidate")
    (extractJsonStringFromData msg.dataJson "sdp_mid") index
  simp only [List.forall_mem_cons] at hstrings
  obtain ⟨hsignal, hsdp, htype, hcandidate, hmid, -⟩ := hstrings
  simp only [voiceKeys, List.mem_cons, List.not_mem_nil, or_false] at hkey
  rcases hkey with rfl | rfl | rfl | rfl | rfl
  · exact hsignal
  · exact hsdp
  · exact htype
  · exact hcandidate
  · exact hmid

end Handlers

end Guandan.Protocol
