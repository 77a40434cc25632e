import Guandan.Client.Listeners
import Guandan.Protocol.GameTexts

/-!
# What the client reads of the server's values

The casts of the listeners on the values behind the server's texts: snapshots, rooms, and the members of a
message.
-/

namespace Guandan.Client.Decoded

open Quoted Json Protocol.Views

/-! ### Casts -/

@[simp]
theorem find_object (fields : List (String × Json)) (key : String) :
    (object fields).find key = (fields.reverse.find? fun f => f.1 == key).map (·.2) := find_names fields key

@[simp]
theorem asObject_object (fields : List (String × Json)) :
    asObject (object fields) = some (object fields) := rfl

@[simp]
theorem castOpt_object (fields : List (String × Json)) :
    castOpt asObject (some (object fields)) = some (some (object fields)) := rfl

@[simp]
theorem asNat_num (n : Nat) : asNat (num n) = some n := rfl

@[simp]
theorem castOpt_asNat (n : Nat) : castOpt asNat (some (num n)) = some (some n) := rfl

theorem mapM_asNat (ns : List Nat) : (ns.map fun n : Nat => num n).mapM asNat = some ns := by
  rw [mapM_map (g := id) fun n _ => asNat_num n, List.map_id]

@[simp]
theorem parseIntList_numbers (ns : List Nat) : parseIntList (numbers ns) = some ns := mapM_asNat ns

@[simp]
theorem castList_numbers (ns : List Nat) : castList asNat (some (numbers ns)) = some ns := mapM_asNat ns

theorem castList_map {α β : Type} {cast : Json → Option β} {f : α → Json} {g : α → β} {as : List α}
    (h : ∀ a ∈ as, cast (f a) = some (g a)) : castList cast (some (arr (as.map f))) = some (as.map g) :=
  mapM_map h

@[simp]
theorem cardsOf_numbers (ns : List Nat) : cardsOf (some (numbers ns)) = some ns := by
  cases ns with
  | nil => rfl
  | cons n ns => exact mapM_asNat (n :: ns)

@[simp]
theorem seatIndex_eq (seat : Option Nat) : seatIndex seat = seatNumber seat := by
  cases seat <;> rfl

@[simp]
theorem parsePhase_phaseToString (phase : GamePhase) :
    parsePhase (some (phaseToString phase).toList) = phase := by
  cases phase <;> rfl

@[simp]
theorem parseRoomPhase_roomPhaseToString (phase : RoomPhase) :
    parseRoomPhase (some (roomPhaseToString phase).toList) = Client.parseRoomPhase phase := by
  cases phase <;> rfl

/-! ### Snapshots -/

section Snapshot

variable (room : Guandan.Room) (profile : PlayerId → PlayerJoinInfo)

/-- A player as the snapshot shows it. -/
def shownPlayer (p : OtherPlayer) : Player :=
  { id := p.id, seatIndex := p.seatIndex, team := p.team, hasFinished := p.hasFinished }

theorem playerFromJson_other (p : OtherPlayer) :
    playerFromJson (object (otherPlayerValues room profile p)) = some (shownPlayer p) := by
  rw [otherPlayerValues]
  rcases findRoomPlayer room p.id with _ | rp
  · simp [playerFromJson, checkPlayer, member, shownPlayer]
  · dsimp only
    unfold pictureValues
    split_ifs <;> simp [playerFromJson, checkPlayer, member, shownPlayer]

theorem resolveLastPlayedPlayerId_eq (seat : Option Nat) (players : List Player) :
    resolveLastPlayedPlayerId (seatNumber seat) players =
      ClientGameState.resolveLastPlayedPlayerId seat players := by
  cases seat with
  | none => rfl
  | some seat =>
    have hseat : ¬ (seat : Int) < 0 := by omega
    have hsame : (fun p : Player => (p.seatIndex : Int) == (seat : Int)) = fun p => p.seatIndex == seat := by
      funext p
      simp [beq_eq_decide]
    rw [seatNumber, resolveLastPlayedPlayerId, if_neg hseat, hsame]
    rfl

theorem checkSnapshot_snapshot (view : PlayerView) :
    checkSnapshot (object (snapshotValues room profile view)) = some () := by
  simp [checkSnapshot, intList, member, snapshotValues]

/-- A snapshot is read as the view that was written. -/
theorem fromSnapshot_snapshot (view : PlayerView) :
    fromSnapshot (object (snapshotValues room profile view)) = some (.fromSnapshot view) := by
  have hplayers : castList playerFromJson
      (some (arr (view.others.map fun p => object (otherPlayerValues room profile p)))) =
        some (view.others.map shownPlayer) :=
    castList_map fun p _ => playerFromJson_other room profile p
  rw [fromSnapshot, checkSnapshot_snapshot]
  simp only [playersOf, intList, member, flagged, snapshotValues, find_object]
  simp [hplayers, resolveLastPlayedPlayerId_eq, ClientGameState.fromSnapshot]
  exact ⟨rfl, fun p _ => rfl⟩

/-! ### Rooms -/

def seatedPlayer (p : RoomPlayer) : Player :=
  { id := p.id, seatIndex := p.seatIndex, team := Fin.ofNat 2 (p.seatIndex % 2), hasFinished := false }

theorem playerFromJson_room (p : RoomPlayer) :
    playerFromJson (object (roomPlayerValues profile p)) = some (seatedPlayer p) := by
  have hteam : castOpt asNat (some (num ((p.seatIndex : Int) % 2))) = some (some (p.seatIndex % 2)) :=
    castOpt_asNat (p.seatIndex % 2)
  rw [roomPlayerValues]
  unfold pictureValues
  split_ifs <;> simp [playerFromJson, checkPlayer, member, hteam, seatedPlayer]

theorem playersOf_roomState : ∃ players, playersOf (object (roomStateValues room profile)) = some players ∧
    players.map (fun p => (p.id, p.seatIndex)) = room.players.map fun p => (p.id, p.seatIndex) := by
  refine ⟨room.players.map seatedPlayer, ?_, by simp [seatedPlayer]⟩
  have hplayers := castList_map fun p (_ : p ∈ room.players) => playerFromJson_room profile p
  simp [playersOf, roomStateValues, hplayers]

/-- The room that a client makes of its state. -/
def shownRoom : ClientRoom :=
  { phase := Client.parseRoomPhase room.phase, players := room.players.map fun p => (p.id, p.seatIndex) }

theorem roomFromData_roomState :
    roomFromData (object (roomStateValues room profile)) = some (shownRoom room) := by
  obtain ⟨players, hread, hplayers⟩ := playersOf_roomState room profile
  rw [roomFromData, hread]
  simp [roomStateValues, member, hplayers, shownRoom]

theorem mergeRoomData_roomState (known : ClientRoom) :
    mergeRoomData known (object (roomStateValues room profile)) = some (shownRoom room) := by
  obtain ⟨players, hread, hplayers⟩ := playersOf_roomState room profile
  rw [mergeRoomData, hread]
  simp [roomStateValues, member, hplayers, shownRoom]

end Snapshot

theorem roomFromData_created (room : Guandan.Room) :
    roomFromData (object (roomCreatedValues room)) = some { phase := .waiting } := by
  simp [roomFromData, playersOf, castList, roomCreatedValues, member, parseRoomPhase]

/-! ### Messages -/

section Messages

variable {c c₁ c₂ : Client} {msg : Protocol.Message} {fields : List (String × Json)} {type : String}

@[simp]
theorem find_optional (has : Bool) (name : String) (j : Json) (key : String) :
    (Protocol.Views.optional has name j).reverse.find? (fun f => f.1 == key) =
      if has && name == key then some (name, j) else none := by
  by_cases h : name = key <;> cases has <;> simp [Protocol.Views.optional, h]

theorem type_message (msg : Protocol.Message) (data : Json) :
    (object (messageValues msg data)).find "type" = some (.str msg.type) := by
  simp [messageValues]

theorem data_message (msg : Protocol.Message) (data : Json) :
    (object (messageValues msg data)).find "data" = some data := by
  simp [messageValues]

theorem roomId_message (msg : Protocol.Message) (data : Json) :
    (object (messageValues msg data)).find "room_id" =
      if msg.roomId.isEmpty then none else some (.str msg.roomId) := by
  cases h : msg.roomId.isEmpty <;> simp [messageValues, h]

/-- Both listeners read the message, and neither throws. -/
theorem hear_message {asks : List Request}
    (hdecode : decode (Protocol.messageToJson msg) = some (object (messageValues msg (object fields))))
    (htype : msg.type = type.toList)
    (hroom : handleRoom c (if msg.roomId.isEmpty then none else some (.str msg.roomId)) (object fields)
      type = some c₁)
    (hgame : handleGame c₁ (some (object fields)) type = some c₂)
    (hasks : gameAnswers c₂ (some (object fields)) type = asks) :
    hear c (Protocol.messageToJson msg) = (c₂, asks) := by
  have hname : String.ofList msg.type = type := by rw [htype, String.ofList_toList]
  have h₁ : handleMessage c (object (messageValues msg (object fields))) = some c₁ := by
    rw [handleMessage, member, member, type_message, data_message, roomId_message, castOpt_str,
      castOpt_object]
    simpa [hname] using hroom
  have h₂ : handleGameMessage c₁ (object (messageValues msg (object fields))) = some c₂ := by
    rw [handleGameMessage, member, type_message, data_message, castOpt_str]
    simpa [hname] using hgame
  rw [hear, hdecode, Option.bind_some, asObject_object]
  simp only [h₁, h₂]
  rw [data_message, member, type_message, castOpt_str]
  simp [hname, hasks]

/-- Of what is heard, the client. -/
theorem hear_fst (c : Client) (text : Text) : (hear c text).1 = receive c text := by
  unfold hear receive
  rcases (decode text).bind asObject with _ | msg
  · rfl
  · dsimp only
    rcases handleMessage c msg with _ | c₁
    · rfl
    · dsimp only
      rcases handleGameMessage c₁ msg with _ | c₂ <;> rfl

/-- The types that a listener reads. -/
def readTypes : List String :=
  ["room_created", "room_joined", "room_state", "game_started", "login_result", "room_dismissed",
    "game_snapshot", "cards_dealt", "tribute_phase_updated", "spectate_update", "spectate_changed",
    "player_played", "player_passed", "settlement", "game_over"]

theorem handleRoom_other (h : type ∉ readTypes) (roomId : Option Json) (data : Json) :
    handleRoom c roomId data type = some c := by
  unfold handleRoom
  split <;> first | rfl | (simp [readTypes] at h)

theorem handleGame_other (h : type ∉ readTypes) (data : Option Json) :
    handleGame c data type = some c := by
  unfold handleGame
  split <;> first | rfl | (simp [readTypes] at h)

theorem gameAnswers_other (h : type ∉ readTypes) (data : Option Json) : gameAnswers c data type = [] := by
  unfold gameAnswers
  split <;> first | rfl | (simp [readTypes] at h)

end Messages

end Guandan.Client.Decoded
