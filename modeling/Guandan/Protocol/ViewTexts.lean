import Guandan.Library.Spelling
import Guandan.Protocol.Forwarded
import Guandan.Protocol.Views

/-!
# The value behind a message

The data of each message that shows players are the text of a value, written by a writer that knows
some of the special characters: seven in the state of a room and in a snapshot, five in
`login_result`, none in `player_joined` and in the dismiss vote.
-/

namespace Guandan.Protocol.Views

open Quoted
open Json (Shorthand)

/-! ### The three writers -/

/-- What `escapeJson` escapes. -/
def viewMarks : Shorthand where
  pairs := [('"', '"'), ('\\', '\\'), ('\x08', 'b'), ('\x0c', 'f'), ('\n', 'n'), ('\r', 'r'), ('\t', 't')]
  reads := by decide
  special := by decide

/-- What `jsonEscape` escapes. -/
def dispatcherMarks : Shorthand where
  pairs := [('"', '"'), ('\\', '\\'), ('\n', 'n'), ('\r', 'r'), ('\t', 't')]
  reads := by decide
  special := by decide

/-- Texts that are written as they are. -/
def noMarks : Shorthand where
  pairs := []
  reads := by decide
  special := by decide

theorem escapeJson_eq (s : Text) : escapeJson s = viewMarks.run s := viewMarks.run_eq fun _ => rfl

theorem jsonEscape_eq (s : Text) : jsonEscape s = dispatcherMarks.run s :=
  dispatcherMarks.run_eq fun _ => rfl

theorem run_noMarks (s : Text) : noMarks.run s = s := List.flatMap_singleton' s

/-! ### The text of a value -/

/-- An object by the names of its members. -/
def object (fields : List (String × Json)) : Json := .obj (fields.map fun f => (f.1.toList, f.2))

/-- Keys that no writer has to escape. -/
def PlainKeys (keys : List String) : Prop := ∀ key ∈ keys, Json.standard.Plain key.toList

instance : DecidablePred PlainKeys := fun keys =>
  inferInstanceAs (Decidable (∀ key ∈ keys, Json.standard.Plain key.toList))

section Texts

variable (k : Shorthand)

theorem write_object {fields : List (String × Json)} (hkeys : PlainKeys (fields.map (·.1))) :
    Json.write k.run (object fields) = record (fields.map fun f => (f.1, Json.write k.run f.2)) := by
  rw [object, Json.write, Json.writeMembers_eq, record, List.map_map, List.map_map]
  have hmembers : fields.map (Json.writeMember k.run ∘ fun f => (f.1.toList, f.2)) =
      fields.map ((fun m => keyed m.1 m.2) ∘ fun f => (f.1, Json.write k.run f.2)) := by
    refine List.map_congr_left fun f hf => ?_
    rw [Function.comp_apply, Json.writeMember, Json.writeString,
      k.run_of_plain (hkeys f.1 (List.mem_map_of_mem hf)), Function.comp_apply, keyed]
    simp [field]
  rw [hmembers]

theorem coversAll_object {fields : List (String × Json)} (hkeys : PlainKeys (fields.map (·.1))) :
    k.CoversAll (object fields) ↔ ∀ f ∈ fields, k.CoversAll f.2 := by
  rw [object, k.coversAll_obj, List.forall_mem_map]
  refine forall₂_congr fun f hf => ?_
  exact and_iff_right (k.covers_of_plain (hkeys f.1 (List.mem_map_of_mem hf)))

theorem write_record {fields : List (String × Json)} {texts : List (String × Text)}
    (hkeys : PlainKeys (fields.map (·.1)))
    (htexts : texts = fields.map fun f => (f.1, Json.write k.run f.2)) :
    record texts = Json.write k.run (object fields) := by
  rw [htexts, write_object k hkeys]

theorem write_list {α : Type} (items : List α) {f : α → Text} {g : α → Json}
    (h : ∀ a ∈ items, f a = Json.write k.run (g a)) :
    sequence (items.map f) = Json.write k.run (.arr (items.map g)) := by
  have hitems : items.map f = items.map (Json.write k.run ∘ g) := List.map_congr_left h
  rw [Json.write, Json.writeItems_eq, sequence, List.map_map, hitems]

theorem write_digits (n : Nat) : digits n = Json.write k.run (.num n) := digits_eq n

theorem write_flag (b : Bool) : flag b = Json.write k.run (.bool b) := by
  cases b <;> rfl

def seatIndex : Option Nat → Int
  | none => -1
  | some seat => seat

theorem write_seat (seat : Option Nat) : seatNumber seat = Json.write k.run (.num (seatIndex seat)) := by
  cases seat with
  | none =>
    have hone : "-1".toList = Json.writeInt (-1) := by decide
    exact hone
  | some seat => exact write_digits k seat

theorem write_escaped (s : Text) : inQuotes (k.run s) = Json.write k.run (.str s) := rfl

theorem write_plain {s : Text} (h : Json.standard.Plain s) :
    inQuotes s = Json.write k.run (.str s) := by
  rw [← write_escaped, k.run_of_plain h]

end Texts

/-! ### What the messages say -/

def pictureValues (info : PlayerJoinInfo) : List (String × Json) :=
  (if info.avatar = "" then [] else [("avatar", .str info.avatar.toList)]) ++
  (if info.avatarPreset = "" then [] else [("avatar_preset", .str info.avatarPreset.toList)])

def numbers (ns : List Nat) : Json := .arr (ns.map fun n : Nat => .num n)

def seatPlayValues (play : TributeSeatPlay) : List (String × Json) :=
  [("seat_index", .num play.seatIndex), ("card_id", .num play.cardId), ("kind", .str play.kind.toList)]

section Values

variable (room : Room) (profile : PlayerId → PlayerJoinInfo)

def otherPlayerValues (p : OtherPlayer) : List (String × Json) :=
  [("id", .num p.id), ("seat_index", .num p.seatIndex), ("team", .num p.team.val),
    ("card_count", .num p.cardCount), ("has_finished", .bool p.hasFinished),
    ("finish_rank", .num p.finishRank), ("is_ready", .bool p.isReady),
    ("status", .str (statusToString p.status).toList),
    ("nickname", .str (shownNickname room profile p.id).toList)] ++
  match findRoomPlayer room p.id with
  | none => []
  | some rp => pictureValues (profile rp.id)

def snapshotValues (view : PlayerView) : List (String × Json) :=
  [("room_id", .str room.roomId.toList), ("phase", .str (phaseToString view.phase).toList),
    ("state_version", .num view.stateVersion), ("turn_id", .num view.turnId),
    ("current_level", .num view.currentLevel), ("attacking_team", .num view.attackingTeam.val),
    ("is_pass_a_round", .bool view.isPassARound),
    ("is_playing_own_round", .bool (view.isPlayingOwnRound.getD false)),
    ("team_levels", numbers [view.teamLevels 0, view.teamLevels 1]),
    ("in_pass_a_phase", .arr ([view.inPassAPhase 0, view.inPassAPhase 1].map .bool)),
    ("pass_a_fail_counts", numbers [view.passAFailCounts 0, view.passAFailCounts 1]),
    ("current_player_index", .num (seatIndex view.currentPlayerIndex)),
    ("first_player_index", .num (seatIndex view.firstPlayerIndex)),
    ("my_seat_index", .num (seatIndex view.mySeatIndex)),
    ("viewer_seat_index", .num (seatIndex view.viewerSeatIndex)),
    ("is_spectating", .bool view.isSpectating),
    ("spectatable_teammates", numbers view.spectatableTeammates),
    ("my_cards", numbers view.myCards), ("last_played_cards", numbers view.lastPlayedCards),
    ("last_played_player_index", .num (seatIndex view.lastPlayedPlayerIndex)),
    ("pending_tributer_seats", numbers view.pendingTributerSeats),
    ("pending_return_seats", numbers view.pendingReturnSeats),
    ("required_tribute_card_id", .num view.requiredTributeCardId),
    ("must_return_tribute", .bool view.mustReturnTribute),
    ("valid_return_card_ids", numbers view.validReturnCardIds),
    ("tribute_seat_plays", .arr (view.tributeSeatPlays.map fun play => object (seatPlayValues play))),
    ("players", .arr (view.others.map fun p => object (otherPlayerValues room profile p)))]

def roomPlayerValues (p : RoomPlayer) : List (String × Json) :=
  [("id", .num p.id), ("seat_index", .num p.seatIndex), ("team", .num (p.seatIndex % 2 : Nat)),
    ("nickname", .str (profile p.id).nickname.toList)] ++ pictureValues (profile p.id) ++
  [("is_ready", .bool p.isReady), ("is_owner", .bool p.isOwner), ("is_bot", .bool p.isBot),
    ("status", .str (statusToString .online).toList)]

def roomStateValues : List (String × Json) :=
  [("players", .arr (room.players.map fun p => object (roomPlayerValues profile p))),
    ("player_count", .num room.players.length), ("max_players", .num room.config.maxPlayers),
    ("mode", .str room.config.modeName.toList), ("enable_tribute", .bool room.config.enableTribute),
    ("room_phase", .str (roomPhaseToString room.phase).toList)]

end Values

def voteEntryValues (nickname : PlayerId → String) (entry : DismissVoteEntry) :
    List (String × Json) :=
  [("player_id", .num entry.playerId), ("nickname", .str (nickname entry.playerId).toList),
    ("voted", .bool entry.voted), ("agree", .bool entry.agree)]

def dismissVoteValues (vote : DismissVote) (nickname : PlayerId → String) : List (String × Json) :=
  [("requester_id", .num vote.requesterId),
    ("votes", .arr (vote.entries.map fun entry => object (voteEntryValues nickname entry)))]

def loginRoomValues (playerId : PlayerId) : Option Room → List (String × Json)
  | none => [("in_room", .bool false)]
  | some room =>
    if room.phase = .finished then [("in_room", .bool false)]
    else [("in_room", .bool true), ("room_id", .str room.roomId.toList),
      ("room_phase", .str (roomPhaseToString room.phase).toList),
      ("mode", .str room.config.modeName.toList), ("max_players", .num room.config.maxPlayers),
      ("is_owner", .bool (room.ownerId == playerId))]

def loginResultValues (user : UserRecord) (room : Option Room) : List (String × Json) :=
  [("player_id", .num user.id), ("nickname", .str user.nickname.toList), ("success", .bool true)] ++
  loginRoomValues user.id room

def playerJoinedValues (playerId : PlayerId) (nickname : String) : List (String × Json) :=
  [("player_id", .num playerId), ("nickname", .str nickname.toList)]

/-! ### Keys and words of the server -/

theorem plainKeys_append {keys more : List String} :
    PlainKeys (keys ++ more) ↔ PlainKeys keys ∧ PlainKeys more := List.forall_mem_append

section Keys

variable (room : Room) (profile : PlayerId → PlayerJoinInfo)

theorem plainKeys_pictures (info : PlayerJoinInfo) :
    PlainKeys ((pictureValues info).map (·.1)) := by
  unfold pictureValues
  split_ifs <;> simp only [List.map_append, List.map_cons, List.map_nil] <;> decide

theorem plainKeys_seatPlay (play : TributeSeatPlay) :
    PlainKeys ((seatPlayValues play).map (·.1)) := by
  simp only [seatPlayValues, List.map_cons, List.map_nil]
  decide

theorem plainKeys_otherPlayer (p : OtherPlayer) :
    PlainKeys ((otherPlayerValues room profile p).map (·.1)) := by
  rw [otherPlayerValues, List.map_append, plainKeys_append]
  constructor
  · simp only [List.map_cons, List.map_nil]
    decide
  · rcases findRoomPlayer room p.id with _ | rp
    · exact List.forall_mem_nil _
    · exact plainKeys_pictures _

theorem plainKeys_snapshot (view : PlayerView) :
    PlainKeys ((snapshotValues room profile view).map (·.1)) := by
  simp only [snapshotValues, List.map_cons, List.map_nil]
  decide +kernel

theorem plainKeys_roomPlayer (p : RoomPlayer) :
    PlainKeys ((roomPlayerValues profile p).map (·.1)) := by
  rw [roomPlayerValues, List.map_append, List.map_append, plainKeys_append, plainKeys_append]
  refine ⟨⟨?_, plainKeys_pictures _⟩, ?_⟩
  · simp only [List.map_cons, List.map_nil]
    decide
  · simp only [List.map_cons, List.map_nil]
    decide

theorem plainKeys_roomState : PlainKeys ((roomStateValues room profile).map (·.1)) := by
  simp only [roomStateValues, List.map_cons, List.map_nil]
  decide

theorem plainKeys_voteEntry (nickname : PlayerId → String) (entry : DismissVoteEntry) :
    PlainKeys ((voteEntryValues nickname entry).map (·.1)) := by
  simp only [voteEntryValues, List.map_cons, List.map_nil]
  decide

theorem plainKeys_dismissVote (vote : DismissVote) (nickname : PlayerId → String) :
    PlainKeys ((dismissVoteValues vote nickname).map (·.1)) := by
  simp only [dismissVoteValues, List.map_cons, List.map_nil]
  decide

theorem plainKeys_loginResult (user : UserRecord) (room : Option Room) :
    PlainKeys ((loginResultValues user room).map (·.1)) := by
  rw [loginResultValues, List.map_append, plainKeys_append]
  constructor
  · simp only [List.map_cons, List.map_nil]
    decide
  · unfold loginRoomValues
    split
    · simp only [List.map_cons, List.map_nil]
      decide
    · split_ifs <;> simp only [List.map_cons, List.map_nil] <;> decide

theorem plainKeys_playerJoined (playerId : PlayerId) (nickname : String) :
    PlainKeys ((playerJoinedValues playerId nickname).map (·.1)) := by
  simp only [playerJoinedValues, List.map_cons, List.map_nil]
  decide

end Keys

theorem Named.plain_id {room : Room} (h : Named room) : Json.standard.Plain room.roomId.toList := by
  obtain ⟨draw, hid⟩ := h.id
  rw [hid]
  exact plain_roomId draw

theorem Named.plain_mode {room : Room} (h : Named room) :
    Json.standard.Plain room.config.modeName.toList := by
  obtain ⟨mode, hmode⟩ := h.mode
  rw [hmode, RoomConfig.fromModeName]
  split_ifs <;> decide

theorem plain_phase (phase : GamePhase) : Json.standard.Plain (phaseToString phase).toList := by
  cases phase <;> decide

theorem plain_roomPhase (phase : RoomPhase) :
    Json.standard.Plain (roomPhaseToString phase).toList := by
  cases phase <;> decide

theorem plain_status (status : PlayerStatus) :
    Json.standard.Plain (statusToString status).toList := by
  cases status <;> decide

/-! ### The text of a message -/

theorem pictureFields_eq (info : PlayerJoinInfo) :
    pictureFields info = (pictureValues info).map fun f => (f.1, Json.write viewMarks.run f.2) := by
  unfold pictureFields pictureValues
  split_ifs <;> simp [escapeJson_eq, write_escaped]

theorem seatPlayJson_eq (play : TributeSeatPlay) :
    seatPlayJson play = Json.write viewMarks.run (object (seatPlayValues play)) := by
  apply write_record _ (plainKeys_seatPlay play)
  simp only [seatPlayValues, List.map_cons, List.map_nil, escapeJson_eq, write_escaped,
    write_digits viewMarks]

theorem write_numbers (k : Shorthand) (ns : List Nat) :
    sequence (ns.map digits) = Json.write k.run (numbers ns) := by
  rw [numbers]
  exact write_list k ns fun n _ => write_digits k n

section Rooms

variable {room : Room} (profile : PlayerId → PlayerJoinInfo)

theorem otherPlayerJson_eq (p : OtherPlayer) :
    otherPlayerJson room profile p =
      Json.write viewMarks.run (object (otherPlayerValues room profile p)) := by
  apply write_record _ (plainKeys_otherPlayer room profile p)
  rw [otherPlayerValues, List.map_append]
  congr 1
  · simp only [List.map_cons, List.map_nil, escapeJson_eq, write_escaped, write_digits viewMarks,
      write_flag viewMarks, write_plain viewMarks (plain_status _)]
  · rcases findRoomPlayer room p.id with _ | rp
    · rfl
    · exact pictureFields_eq _

theorem roomPlayerJson_eq (p : RoomPlayer) :
    roomPlayerJson profile p = Json.write viewMarks.run (object (roomPlayerValues profile p)) := by
  apply write_record _ (plainKeys_roomPlayer profile p)
  rw [roomPlayerValues, List.map_append, List.map_append, pictureFields_eq]
  simp only [List.map_cons, List.map_nil, escapeJson_eq, write_escaped, write_digits viewMarks,
    write_flag viewMarks, write_plain viewMarks (plain_status _)]

theorem buildGameSnapshotJson_eq (hroom : Named room) (view : PlayerView) :
    buildGameSnapshotJson room profile view =
      Json.write viewMarks.run (object (snapshotValues room profile view)) := by
  have hflags : sequence [flag (view.inPassAPhase 0), flag (view.inPassAPhase 1)] =
      Json.write viewMarks.run (.arr ([view.inPassAPhase 0, view.inPassAPhase 1].map .bool)) :=
    write_list viewMarks [view.inPassAPhase 0, view.inPassAPhase 1] fun b _ => write_flag viewMarks b
  have hlevels : sequence [digits (view.teamLevels 0), digits (view.teamLevels 1)] =
      Json.write viewMarks.run (numbers [view.teamLevels 0, view.teamLevels 1]) :=
    write_numbers viewMarks [view.teamLevels 0, view.teamLevels 1]
  have hfails : sequence [digits (view.passAFailCounts 0), digits (view.passAFailCounts 1)] =
      Json.write viewMarks.run (numbers [view.passAFailCounts 0, view.passAFailCounts 1]) :=
    write_numbers viewMarks [view.passAFailCounts 0, view.passAFailCounts 1]
  have hplays : sequence (view.tributeSeatPlays.map seatPlayJson) = Json.write viewMarks.run
      (.arr (view.tributeSeatPlays.map fun play => object (seatPlayValues play))) :=
    write_list viewMarks _ fun play _ => seatPlayJson_eq play
  have hothers : sequence (view.others.map (otherPlayerJson room profile)) = Json.write viewMarks.run
      (.arr (view.others.map fun p => object (otherPlayerValues room profile p))) :=
    write_list viewMarks _ fun p _ => otherPlayerJson_eq profile p
  apply write_record _ (plainKeys_snapshot room profile view)
  rw [hflags, hlevels, hfails, hplays, hothers]
  simp only [snapshotValues, List.map_cons, List.map_nil, cardIdsToJsonArray,
    write_numbers viewMarks, write_plain viewMarks hroom.plain_id,
    write_plain viewMarks (plain_phase _), write_seat viewMarks, write_digits viewMarks,
    write_flag viewMarks]

theorem buildRoomStateJson_eq (hroom : Named room) :
    buildRoomStateJson room profile =
      Json.write viewMarks.run (object (roomStateValues room profile)) := by
  have hplayers : sequence (room.players.map (roomPlayerJson profile)) = Json.write viewMarks.run
      (.arr (room.players.map fun p => object (roomPlayerValues profile p))) :=
    write_list viewMarks _ fun p _ => roomPlayerJson_eq profile p
  apply write_record _ (plainKeys_roomState room profile)
  rw [hplayers]
  simp only [roomStateValues, List.map_cons, List.map_nil, write_digits viewMarks,
    write_flag viewMarks, write_plain viewMarks hroom.plain_mode,
    write_plain viewMarks (plain_roomPhase _)]

end Rooms

theorem loginRoomFields_eq (playerId : PlayerId) {room : Option Room} (hroom : ∀ r ∈ room, Named r) :
    loginRoomFields playerId room =
      (loginRoomValues playerId room).map fun f => (f.1, Json.write dispatcherMarks.run f.2) := by
  cases room with
  | none => rfl
  | some r =>
    have hr := hroom r rfl
    rw [loginRoomFields, loginRoomValues]
    split_ifs
    · rfl
    · simp only [List.map_cons, List.map_nil, write_digits dispatcherMarks, write_flag dispatcherMarks,
        write_plain dispatcherMarks hr.plain_id, write_plain dispatcherMarks hr.plain_mode,
        write_plain dispatcherMarks (plain_roomPhase _)]

theorem loginResultJson_eq (user : UserRecord) {room : Option Room} (hroom : ∀ r ∈ room, Named r) :
    loginResultJson user room =
      Json.write dispatcherMarks.run (object (loginResultValues user room)) := by
  apply write_record _ (plainKeys_loginResult user room)
  rw [loginResultValues, List.map_append, loginRoomFields_eq user.id hroom]
  simp only [List.map_cons, List.map_nil, jsonEscape_eq, write_escaped, write_digits dispatcherMarks,
    write_flag dispatcherMarks]

theorem inQuotes_raw (s : Text) : inQuotes s = Json.write noMarks.run (.str s) := by
  rw [← write_escaped, run_noMarks]

theorem playerJoinedJson_eq (playerId : PlayerId) (nickname : String) :
    playerJoinedJson playerId nickname =
      Json.write noMarks.run (object (playerJoinedValues playerId nickname)) := by
  apply write_record _ (plainKeys_playerJoined playerId nickname)
  simp only [playerJoinedValues, List.map_cons, List.map_nil, write_digits noMarks, inQuotes_raw]

theorem voteEntryJson_eq (nickname : PlayerId → String) (entry : DismissVoteEntry) :
    voteEntryJson nickname entry =
      Json.write noMarks.run (object (voteEntryValues nickname entry)) := by
  apply write_record _ (plainKeys_voteEntry nickname entry)
  simp only [voteEntryValues, List.map_cons, List.map_nil, write_digits noMarks, write_flag noMarks,
    inQuotes_raw]

theorem buildDismissVoteJson_eq (vote : DismissVote) (nickname : PlayerId → String) :
    buildDismissVoteJson vote nickname =
      Json.write noMarks.run (object (dismissVoteValues vote nickname)) := by
  have hvotes : sequence (vote.entries.map (voteEntryJson nickname)) = Json.write noMarks.run
      (.arr (vote.entries.map fun entry => object (voteEntryValues nickname entry))) :=
    write_list noMarks _ fun entry _ => voteEntryJson_eq nickname entry
  apply write_record _ (plainKeys_dismissVote vote nickname)
  rw [hvotes]
  simp only [dismissVoteValues, List.map_cons, List.map_nil, write_digits noMarks]

end Guandan.Protocol.Views
