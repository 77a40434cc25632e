import Guandan.Client.Decoding
import Mathlib.Data.List.ReduceOption

/-!
# The server's texts, as the client takes them

Each message that a room sends to a player is written into a text (`Written`), and the listeners make of the
text what they make of the message (`receive_written`).
-/

namespace Guandan

open Quoted Protocol Protocol.Views

/-! ### What is written -/

namespace Protocol.Views

/-- What a message that shows players tells the client. -/
def View.told : View → ServerMessage
  | loginResult _ _ room =>
    .loginResult (room.bind fun r => if r.1.phase = .finished then none else some r.1.phase)
  | roomState type _ _ room _ =>
    let players := room.1.players.map fun p => (p.id, p.seatIndex)
    if type = "room_joined" then .roomJoined room.1.phase players else .roomState room.1.phase players
  | gameSnapshot type _ _ _ _ _ _ view _ =>
    match type with
    | "game_snapshot" => .gameSnapshot view
    | "cards_dealt" => .cardsDealt view
    | "tribute_phase_updated" => .tributePhaseUpdated view
    | "spectate_update" => .spectateUpdate view
    | _ => .spectateChanged view
  | playerJoined _ _ _ => .other "player_joined"
  | dismissVote type _ _ _ _ _ => .other type

end Protocol.Views

/-- A message of a room. -/
def roomMessage (type : String) (requestId : Nat) (room : NamedRoom) (dataJson : Text) : Protocol.Message :=
  { type := type.toList, requestId := requestId, roomId := room.1.roomId.toList, dataJson := dataJson }

/-- What the server writes when it tells a player something. Of views the special characters of all that they
show are escaped; of other messages nothing is read but the type, if their data are a value. -/
inductive Written : ServerMessage → Protocol.Message → Prop
  | view (v : View) (hread : ∀ text ∈ v.shown, v.marks.Covers text.toList) : Written v.told v.message
  | playerPlayed (requestId : Nat) (room : NamedRoom) (playerId : PlayerId) (cards : List CardId)
      (remainingCardCount : Nat) (hasFinished : Bool) (finishRank nextPlayerIndex stateVersion turnId : Nat) :
      Written (.playerPlayed playerId cards hasFinished nextPlayerIndex turnId)
        (roomMessage "player_played" requestId room (buildPlayerPlayedJson playerId cards
          remainingCardCount hasFinished finishRank nextPlayerIndex stateVersion turnId))
  | playerPassed (requestId : Nat) (room : NamedRoom) (playerId : PlayerId) (seat : Option Nat)
      (nextPlayerIndex : Nat) (roundReset : Bool) (stateVersion turnId : Nat) :
      Written (.playerPassed playerId roundReset nextPlayerIndex turnId)
        (roomMessage "player_passed" requestId room
          (buildPlayerPassedJson playerId seat nextPlayerIndex roundReset stateVersion turnId))
  | settlement (room : NamedRoom) (result : SettlementResult) (s : GameState) :
      Written (.settlement result.matchWon ((List.range s.playerCount).map fun i => (s.players i).id))
        (roomMessage "settlement" 0 room (settlementJson result s))
  | gameOver (room : NamedRoom) (result : SettlementResult) (s : GameState) :
      Written .gameOver (roomMessage "game_over" 0 room (settlementJson result s))
  | roomDismissed (room : NamedRoom) : Written .roomDismissed (roomMessage "room_dismissed" 0 room noObject)
  | gameStarted (requestId : Nat) (room : NamedRoom) :
      Written .gameStarted (roomMessage "game_started" requestId room [])
  | roomCreated (requestId : Nat) (room : NamedRoom) :
      Written .roomCreated
        { type := "room_created".toList, requestId := requestId, dataJson := roomCreatedJson room.1 }
  | error (requestId : Nat) (code : ErrorCode) :
      Written (.error code) { type := "error".toList, requestId := requestId, errorCode := code }
  | other (type : String) (htype : type ∉ Client.Decoded.readTypes) (hplain : Json.standard.Plain type.toList)
      (msg : Protocol.Message) (hmsg : msg.type = type.toList) (hroom : Json.standard.Plain msg.roomId)
      (k : Json.Shorthand) (fields : List (String × Json))
      (hdata : msg.dataJson = Json.write k.run (object fields)) (hread : k.CoversAll (object fields)) :
      Written (.other type) msg

namespace Client.Decoded

open Json

/-- Both listeners make of data of this type what they make of the message, and ask for the same. -/
def ReadsAs (type : String) (roomId : Option Json) (fields : List (String × Json))
    (m : ServerMessage) : Prop :=
  ∀ c : Client, handleRoom c roomId (object fields) type = some (c.handleMessage m) ∧
    handleGame c (some (object fields)) type = some (c.handleGameMessage m) ∧
    gameAnswers c (some (object fields)) type = c.answers m

section Kinds

variable {roomId : Option Json} {fields : List (String × Json)} {type : String}

theorem readsAs_other (h : type ∉ readTypes) : ReadsAs type roomId fields (.other type) :=
  fun _ => ⟨handleRoom_other h _ _, handleGame_other h _, gameAnswers_other h _⟩

theorem readsAs_error (code : ErrorCode) : ReadsAs "error" roomId fields (.error code) :=
  fun _ => ⟨rfl, rfl, rfl⟩

theorem readsAs_gameOver : ReadsAs "game_over" roomId fields .gameOver := fun _ => ⟨rfl, rfl, rfl⟩

theorem readsAs_roomDismissed : ReadsAs "room_dismissed" roomId fields .roomDismissed :=
  fun _ => ⟨rfl, rfl, rfl⟩

section Rooms

variable (room : Guandan.Room) (profile : PlayerId → PlayerJoinInfo)

theorem readsAs_roomJoined :
    ReadsAs "room_joined" roomId (roomStateValues room profile)
      (.roomJoined room.phase (room.players.map fun p => (p.id, p.seatIndex))) := by
  refine fun c => ⟨?_, rfl, rfl⟩
  change (roomFromData (object (roomStateValues room profile))).map _ = _
  rw [roomFromData_roomState]
  rfl

theorem readsAs_roomState {id : Text} (hid : id ≠ []) :
    ReadsAs "room_state" (some (.str id)) (roomStateValues room profile)
      (.roomState room.phase (room.players.map fun p => (p.id, p.seatIndex))) := by
  refine fun c => ⟨?_, rfl, rfl⟩
  rcases hroom : c.room with _ | known
  · simp only [handleRoom, hroom, isBlank, List.isEmpty_eq_false_iff.2 hid, roomFromData_roomState]
    rfl
  · simp only [handleRoom, hroom, mergeRoomData_roomState]
    rfl

theorem readsAs_roomCreated (hid : room.roomId.toList ≠ []) :
    ReadsAs "room_created" roomId (roomCreatedValues room) .roomCreated := by
  refine fun c => ⟨?_, rfl, rfl⟩
  have hblank : isBlank ((object (roomCreatedValues room)).find "room_id") = false := by
    simpa [roomCreatedValues, isBlank] using hid
  simp only [handleRoom, hblank, roomFromData_created]
  rfl

end Rooms

/-- The listeners begin with a snapshot, whatever it is sent as. -/
theorem readsAs_snapshot (htype : type ∈ snapshotTypes) (requestId : Nat) (room : NamedRoom)
    (profile : PlayerId → PlayerJoinInfo) (viewerId : PlayerId) (anchor : Option Nat) (view : PlayerView)
    (hview : room.1.engine.buildViewFor viewerId anchor = some view) :
    ReadsAs type roomId (snapshotValues room.1 profile view)
      (View.gameSnapshot type htype requestId room profile viewerId anchor view hview).told := by
  have hcases := htype
  simp only [snapshotTypes, List.mem_cons, List.not_mem_nil, or_false] at hcases
  rcases hcases with rfl | rfl | rfl | rfl | rfl
  all_goals
    refine fun c => ⟨rfl, ?_, rfl⟩
    change (fromSnapshot (object (snapshotValues room.1 profile view))).bind _ = _
    rw [fromSnapshot_snapshot]
    rfl

theorem readsAs_gameStarted {id : Text} (hid : id ≠ []) :
    ReadsAs "game_started" (some (.str id)) fields .gameStarted := by
  refine fun c => ⟨?_, rfl, rfl⟩
  rcases hroom : c.room with _ | known
  · simp [handleRoom, hroom, present, isBlank, List.isEmpty_eq_false_iff.2 hid, Client.handleMessage]
  · simp [handleRoom, hroom, present, isBlank, List.isEmpty_eq_false_iff.2 hid, Client.handleMessage]

theorem readsAs_loginResult (user : UserRecord) {room : Option Guandan.Room}
    (hid : ∀ r ∈ room, r.roomId.toList ≠ []) :
    ReadsAs "login_result" roomId (loginResultValues user room)
      (.loginResult (room.bind fun r => if r.phase = .finished then none else some r.phase)) := by
  refine fun c => ⟨?_, rfl, rfl⟩
  rcases room with _ | r
  · simp [handleRoom, handleLoginResult, loginResultValues, loginRoomValues, flagged, Client.handleMessage]
  · by_cases hphase : r.phase = .finished
    · simp [handleRoom, handleLoginResult, loginResultValues, loginRoomValues, flagged, hphase,
        Client.handleMessage]
    · have hblank := hid r rfl
      simp [handleRoom, handleLoginResult, loginResultValues, loginRoomValues, flagged, hphase,
        Client.handleMessage, isBlank, hblank, member]

/-! ### Turns and the end of a round -/

theorem seatOfPlayer_eq (c : Client) (marked : PlayerId → Bool) (hasFinished : Bool) (playerId : PlayerId) :
    seatOfPlayer c (c.game.players.map (setFinished marked hasFinished)) playerId =
      c.seatOfPlayer playerId := by
  have hpos : ¬ (playerId : Int) < 0 := by omega
  have hroom : (fun p : PlayerId × Nat => (p.1 : Int) == (playerId : Int)) = fun p => p.1 == playerId := by
    funext p
    simp [beq_eq_decide]
  have hgame : ((fun p : Player => (p.id : Int) == (playerId : Int)) ∘ setFinished marked hasFinished) =
      fun p => p.id == playerId := by
    funext p
    unfold setFinished
    by_cases h : marked p.id = true <;> simp [h, beq_eq_decide]
  have hseat : ∀ p, (setFinished marked hasFinished p).seatIndex = p.seatIndex := by
    intro p
    unfold setFinished
    split_ifs <;> rfl
  rw [seatOfPlayer, if_neg hpos, hroom, List.find?_map, hgame, Client.seatOfPlayer]
  generalize List.find? (fun p => p.1 == playerId) ((c.room.map (·.players)).getD []) = inRoom
  generalize List.find? (fun p : Player => p.id == playerId) c.game.players = inGame
  cases inRoom with
  | some p => rfl
  | none => cases inGame with
    | none => rfl
    | some p => simp [hseat]

theorem showPlayed_eq (c : Client) (playerId : PlayerId) (cards : List CardId) (hasFinished : Bool)
    (nextPlayer turnId : Nat) :
    showPlayed c playerId cards (some hasFinished) (some nextPlayer) (some turnId) =
      { c with game := c.applyPlayerPlayed playerId cards hasFinished nextPlayer turnId } := by
  have hmarked : (fun p : Player => if (p.id : Int) ≠ playerId ∨ cards.isEmpty then p
        else { p with hasFinished := (some hasFinished).getD p.hasFinished }) =
      setFinished (fun id => id == playerId && !cards.isEmpty) hasFinished := by
    funext p
    by_cases hid : p.id = playerId <;> cases cards <;> simp [setFinished, hid]
  have hremoved : ∀ removes : Bool, (if (!cards.isEmpty && removes) = true then c.game.without cards
      else c.game.myCards) = if removes = true then c.game.without cards else c.game.myCards := by
    intro removes
    cases cards with
    | nil => simp [ClientGameState.without]
    | cons card cards => simp
  have hown : ((playerId : Int) == (c.userId : Int)) = (playerId == c.userId) := by simp [beq_eq_decide]
  simp only [showPlayed, hmarked, seatOfPlayer_eq, hremoved, hown]
  rfl

theorem gameAnswers_playerPlayed (c : Client) {playerId : PlayerId} {cards : List CardId}
    {remainingCardCount : Nat} {hasFinished : Bool} {finishRank nextPlayerIndex stateVersion turnId : Nat} :
    gameAnswers c (some (object (playerPlayedValues playerId cards remainingCardCount hasFinished finishRank
      nextPlayerIndex stateVersion turnId))) "player_played" =
        c.answers (.playerPlayed playerId cards hasFinished nextPlayerIndex turnId) := by
  cases hasFinished with
  | false => simp [gameAnswers, playedAnswers, playerPlayedValues, dataOf, member, flagged, Client.answers]
  | true =>
    by_cases hown : playerId = c.userId <;>
      simp [gameAnswers, playedAnswers, playerPlayedValues, dataOf, member, flagged, Client.answers, hown]

theorem readsAs_playerPlayed (playerId : PlayerId) (cards : List CardId) (remainingCardCount : Nat)
    (hasFinished : Bool) (finishRank nextPlayerIndex stateVersion turnId : Nat) :
    ReadsAs "player_played" roomId (playerPlayedValues playerId cards remainingCardCount hasFinished
      finishRank nextPlayerIndex stateVersion turnId)
      (.playerPlayed playerId cards hasFinished nextPlayerIndex turnId) := by
  refine fun c => ⟨rfl, ?_, gameAnswers_playerPlayed c⟩
  simp [handleGame, applyPlayerPlayed, playerPlayedValues, dataOf, member, intList, showPlayed_eq,
    Client.handleGameMessage]

theorem readsAs_playerPassed (playerId : PlayerId) (seat : Option Nat) (nextPlayerIndex : Nat)
    (roundReset : Bool) (stateVersion turnId : Nat) :
    ReadsAs "player_passed" roomId (playerPassedValues playerId seat nextPlayerIndex roundReset stateVersion
      turnId) (.playerPassed playerId roundReset nextPlayerIndex turnId) := by
  refine fun c => ⟨rfl, ?_, rfl⟩
  simp [handleGame, applyPlayerPassed, playerPassedValues, dataOf, member, flagged,
    Client.handleGameMessage, Client.applyPlayerPassed]

theorem rankEntry_finishRank (q : PlayerState) :
    rankEntry (object (finishRankValues q)) = some (some ((q.id : Int), object (finishRankValues q))) := by
  simp [rankEntry, finishRankValues, member]

theorem applyFinishRank_finishRank (p : Player) (q : PlayerState) :
    applyFinishRank p (object (finishRankValues q)) = some { p with hasFinished := true } := by
  simp [applyFinishRank, finishRankValues, member]

/-- The players of the ranking are marked as finished. -/
theorem applyFinishRanks_settlement (result : SettlementResult) (s : GameState) (players : List Player) :
    applyFinishRanks (object (settlementValues result s)) players =
      some (players.map
        (setFinished ((List.range s.playerCount).map fun i => (s.players i).id).contains true)) := by
  have hentries : ((List.range s.playerCount).map fun i =>
      object (finishRankValues (s.players i))).mapM rankEntry = some ((List.range s.playerCount).map fun i =>
        some (((s.players i).id : Int), object (finishRankValues (s.players i)))) :=
    mapM_map fun i _ => rankEntry_finishRank (s.players i)
  have hranks : (object (settlementValues result s)).find "finish_ranks" =
      some (.arr ((List.range s.playerCount).map fun i => object (finishRankValues (s.players i)))) := by
    simp [settlementValues]
  rw [applyFinishRanks, hranks]
  simp only [hentries]
  change players.mapM _ = _
  conv_lhs => rw [← List.map_id players]
  refine mapM_map fun p _ => ?_
  split
  · next hnone =>
    have habsent : ((List.range s.playerCount).map fun i => (s.players i).id).contains p.id = false := by
      simpa [List.reduceOption_mem_iff] using hnone
    rw [setFinished, habsent]
    rfl
  · next entry hsome =>
    obtain ⟨i, hi, rfl⟩ : ∃ i < s.playerCount,
        (((s.players i).id : Int), object (finishRankValues (s.players i))) = entry := by
      simpa [List.reduceOption_mem_iff] using List.mem_of_find?_eq_some hsome
    have hid : (s.players i).id = p.id := by simpa using List.find?_some hsome
    have hpresent : ((List.range s.playerCount).map fun i => (s.players i).id).contains p.id = true := by
      simpa using ⟨i, hi, hid⟩
    rw [setFinished, hpresent]
    exact applyFinishRank_finishRank p (s.players i)

theorem readsAs_settlement (result : SettlementResult) (s : GameState) :
    ReadsAs "settlement" roomId (settlementValues result s)
      (.settlement result.matchWon ((List.range s.playerCount).map fun i => (s.players i).id)) := by
  refine fun c => ⟨rfl, ?_, rfl⟩
  change applySettlement c (object (settlementValues result s)) = _
  rw [applySettlement, applyFinishRanks_settlement]
  cases hwon : result.matchWon with
  | false =>
    simp [settlementValues, flagged, hwon, Client.handleGameMessage, Client.applySettlement]
  | true =>
    simp [settlementValues, flagged, member, hwon, Client.handleGameMessage, Client.applySettlement]

end Kinds

/-! ### A message as a whole -/

section Whole

variable {c : Client} {msg : Protocol.Message} {fields : List (String × Json)} {type : String}
  {m : ServerMessage}

/-- The id of the room in a message, if it has one. -/
def roomIdOf (msg : Protocol.Message) : Option Json :=
  if msg.roomId.isEmpty then none else some (.str msg.roomId)

theorem roomId_ne_nil (room : NamedRoom) : room.1.roomId.toList ≠ [] := by
  obtain ⟨draw, hdraw⟩ := room.2.id
  rw [hdraw]
  exact Protocol.roomId_ne_nil draw

theorem roomIdOf_named {room : NamedRoom} (h : msg.roomId = room.1.roomId.toList) :
    roomIdOf msg = some (.str room.1.roomId.toList) := by
  rw [roomIdOf, h, if_neg]
  exact fun hempty => roomId_ne_nil room (List.isEmpty_iff.1 hempty)

theorem hear_of_decode
    (hdecode : decode (messageToJson msg) = some (object (messageValues msg (object fields))))
    (htype : msg.type = type.toList) (hread : ReadsAs type (roomIdOf msg) fields m) :
    hear c (messageToJson msg) = (c.receive m, (c.receive m).answers m) :=
  hear_message hdecode htype (hread c).1 (hread (c.handleMessage m)).2.1
    (hread ((c.handleMessage m).handleGameMessage m)).2.2

theorem hear_of_covers (k : Shorthand) (hcovers : k.CoversAll (object fields))
    (hplain : standard.Plain type.toList) (hroom : standard.Plain msg.roomId)
    (hdata : msg.dataJson = write k.run (object fields)) (htype : msg.type = type.toList)
    (hread : ReadsAs type (roomIdOf msg) fields m) :
    hear c (messageToJson msg) = (c.receive m, (c.receive m).answers m) := by
  have htype' : standard.Plain msg.type := by rwa [htype]
  exact hear_of_decode ((decode_message_iff k htype' hroom hdata).2 hcovers) htype hread

theorem coversAll_nothing (k : Shorthand) : k.CoversAll (object []) :=
  (k.coversAll_obj []).2 (List.forall_mem_nil _)

/-- A message without data says as much as one whose data are empty. -/
theorem hear_of_empty (hempty : msg.dataJson = []) (hplain : standard.Plain type.toList)
    (hroom : standard.Plain msg.roomId) (htype : msg.type = type.toList)
    (hread : ReadsAs type (roomIdOf msg) [] m) :
    hear c (messageToJson msg) = (c.receive m, (c.receive m).answers m) := by
  have htext : messageToJson msg = messageToJson { msg with dataJson := noObject } := by
    rw [messageToJson, messageToJson, hempty]
    rfl
  rw [htext]
  exact hear_of_covers noMarks (coversAll_nothing noMarks) hplain hroom rfl htype hread

theorem hear_view (v : View) (hread : ∀ text ∈ v.shown, v.marks.Covers text.toList) :
    hear c (messageToJson v.message) = (c.receive v.told, (c.receive v.told).answers v.told) := by
  have hdecode := v.decode_iff.2 hread
  cases v with
  | loginResult requestId user room =>
    have htold : (View.loginResult requestId user room).told = .loginResult
        ((room.map (·.1)).bind fun r => if r.phase = .finished then none else some r.phase) := by
      cases room <;> rfl
    rw [htold]
    refine hear_of_decode hdecode rfl (readsAs_loginResult user fun r hr => ?_)
    obtain ⟨room, -, rfl⟩ := Option.map_eq_some_iff.1 hr
    exact roomId_ne_nil room
  | roomState type htype requestId room profile =>
    have hid : roomIdOf (View.roomState type htype requestId room profile).message =
        some (.str room.1.roomId.toList) := roomIdOf_named rfl
    simp only [roomStateTypes, List.mem_cons, List.not_mem_nil, or_false] at htype
    rcases htype with rfl | rfl
    · exact hear_of_decode hdecode rfl (hid ▸ readsAs_roomState room.1 profile (roomId_ne_nil room))
    · exact hear_of_decode hdecode rfl (readsAs_roomJoined room.1 profile)
  | gameSnapshot type htype requestId room profile viewerId anchor view hview =>
    exact hear_of_decode hdecode rfl
      (readsAs_snapshot htype requestId room profile viewerId anchor view hview)
  | playerJoined room playerId nickname =>
    exact hear_of_decode hdecode rfl (readsAs_other (by decide))
  | dismissVote type htype requestId room vote nickname =>
    have hother : ∀ type ∈ dismissVoteTypes, type ∉ readTypes := by decide
    exact hear_of_decode hdecode rfl (readsAs_other (hother type htype))

end Whole

/-- What the server writes of a message is read as the message, and answered like it. -/
theorem hear_written (c : Client) {m : ServerMessage} {msg : Protocol.Message} (h : Written m msg) :
    hear c (messageToJson msg) = (c.receive m, (c.receive m).answers m) := by
  have hnone : standard.Plain [] := List.forall_mem_nil _
  cases h with
  | view v hread => exact hear_view v hread
  | playerPlayed requestId room =>
    exact hear_of_covers noMarks (coversAll_playerPlayed noMarks) (by decide) room.2.plain_id
      (buildPlayerPlayedJson_eq noMarks) rfl (readsAs_playerPlayed _ _ _ _ _ _ _ _)
  | playerPassed requestId room =>
    exact hear_of_covers noMarks (coversAll_playerPassed noMarks) (by decide) room.2.plain_id
      (buildPlayerPassedJson_eq noMarks) rfl (readsAs_playerPassed _ _ _ _ _ _)
  | settlement room result s =>
    exact hear_of_covers noMarks (coversAll_settlement noMarks result s) (by decide) room.2.plain_id
      (settlementJson_eq noMarks result s) rfl (readsAs_settlement result s)
  | gameOver room result s =>
    exact hear_of_covers noMarks (coversAll_settlement noMarks result s) (by decide) room.2.plain_id
      (settlementJson_eq noMarks result s) rfl readsAs_gameOver
  | roomDismissed room =>
    exact hear_of_covers noMarks (coversAll_nothing noMarks) (by decide) room.2.plain_id rfl rfl
      readsAs_roomDismissed
  | gameStarted requestId room =>
    have hid : roomIdOf (roomMessage "game_started" requestId room []) = _ := roomIdOf_named rfl
    exact hear_of_empty rfl (by decide) room.2.plain_id rfl
      (hid ▸ readsAs_gameStarted (roomId_ne_nil room))
  | roomCreated requestId room =>
    exact hear_of_covers noMarks (coversAll_roomCreated noMarks room.2) (by decide) hnone
      (roomCreatedJson_eq noMarks room.2) rfl (readsAs_roomCreated room.1 (roomId_ne_nil room))
  | error requestId code => exact hear_of_empty rfl (by decide) hnone rfl (readsAs_error code)
  | other type htype hplain _ hmsg hroom k fields hdata hread =>
    exact hear_of_covers k hread hplain hroom hdata hmsg (readsAs_other htype)

/-- What the server writes of a message is read as the message. -/
theorem receive_written (c : Client) {m : ServerMessage} {msg : Protocol.Message} (h : Written m msg) :
    receive c (messageToJson msg) = c.receive m := by
  rw [← hear_fst, hear_written c h]

/-- A login, with a quote and a backslash in the nickname. -/
theorem receive_written_login :
    receive { userId := 10001 } (messageToJson (View.loginResult 1 { id := 10001, nickname := "a\"\\b" }
        (some tableRoom)).message) =
      Client.receive { userId := 10001 }
        (View.loginResult 1 { id := 10001, nickname := "a\"\\b" } (some tableRoom)).told := by
  have hnickname : dispatcherMarks.Covers "a\"\\b".toList := by
    intro c hc
    have hcs : c ∈ ['a', '"', '\\', 'b'] := hc
    simp only [List.mem_cons, List.not_mem_nil, or_false] at hcs
    rcases hcs with rfl | rfl | rfl | rfl <;> decide
  exact receive_written { userId := 10001 } (.view _ (List.forall_mem_singleton.2 hnickname))

end Client.Decoded

end Guandan
