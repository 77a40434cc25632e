import Guandan.Network.TableSteps
import Guandan.Protocol.ViewTexts
import Guandan.Room.Membership

/-!
# What becomes of a nickname

A message is read as the value behind it if and only if its writer knows the special characters of
every nickname and picture in it (`View.decode_iff`). The store keeps a nickname as it stands in the text
of the request, so there are nicknames with quotes and backslashes, and those are misread.
-/

namespace Guandan.Protocol.Views

open Quoted
open Json (Shorthand)

/-! ### Rooms keep their names -/

section Rooms

variable {t : Table} {op : TableOp} {r r' : Room} {starts : List RoundStart}

theorem roomId_startNextRound {σ : Shuffle} {started : Bool}
    (h : r.startNextRound σ = some (r', started)) : r'.roomId = r.roomId :=
  (Room.undisturbed_startNextRound h).roomId

theorem roomId_ready (r : Room) (id : PlayerId) : ((r.ready id).getD r).roomId = r.roomId := by
  rcases hready : r.ready id with _ | r'
  · rfl
  · exact (Room.undisturbed_ready hready).roomId

theorem roomId_handled (hinv : t.room.RoomInv) (h : Handled t op r starts) : r.roomId = t.room.roomId := by
  cases h with
  | stays _ | notFound _ _ | voted _ _ | notStarted _ | tributed _ _ _ _ => rfl
  | joined hjoin => exact (Room.join_spec hjoin).2.2.2.2.2.1
  | left _ =>
    unfold Room.leave
    split_ifs <;> rfl
  | readied hready _ => rw [hready, roomId_ready]
  | nextRound _ hstart => rw [roomId_startNextRound hstart, roomId_ready]
  | unreadied hunready => exact (Room.undisturbed_unready hunready).roomId
  | moved hmove => exact (Room.undisturbed_changeSeat hmove).roomId
  | optioned hset => exact (Room.undisturbed_setEnableTribute hset).roomId
  | started _ _ hstart => exact (Room.undisturbed_startGame hstart).roomId
  | played _ _ hplayed =>
    cases hplayed with
    | goesOn _ _ | won _ _ | settled _ _ => rfl
    | next _ _ hstart => rw [roomId_startNextRound hstart, Room.enterSettlement]
  | filled _ _ => exact (Room.fillBotsFrom_spec _ _ hinv.members.bots).2.2.1

/-- The rooms that the server makes and plays with are named. -/
theorem named_reachable {draw : Fin 900000} {ownerId : PlayerId} (howner : ownerId ≠ 0)
    (hbot : isBotPlayer ownerId = false) {mode : String}
    (h : Guandan.table.Reachable TableCall (Table.create (generateRoomId draw) ownerId mode) t) :
    Named t.room := by
  have hid : t.room.RoomInv ∧ t.room.roomId = generateRoomId draw := by
    apply h.invariant (P := fun t => t.room.RoomInv ∧ t.room.roomId = generateRoomId draw)
    · exact ⟨(Room.roomInv_create _ howner mode).1, (Room.create_spec _ mode hbot).2.2.1⟩
    · intro t op t' out hinv hok hstep
      have hhandled := table_step hinv.1 hok hstep
      exact ⟨hhandled.roomInv hinv.1 hok, (roomId_handled hinv.1 hhandled).trans hinv.2⟩
  obtain ⟨mode, enabled, hconfig⟩ := hid.1.config
  exact ⟨⟨draw, hid.2⟩, mode, by rw [hconfig]⟩

end Rooms

/-! ### What the writer has to know -/

section Covered

variable (k : Shorthand) {room : Room} {profile : PlayerId → PlayerJoinInfo}

theorem coversAll_plain {s : Text} (h : Json.standard.Plain s) : k.CoversAll (.str s) :=
  k.coversAll_str.2 (k.covers_of_plain h)

@[simp]
theorem coversAll_numbers (ns : List Nat) : k.CoversAll (numbers ns) := by
  rw [numbers, k.coversAll_arr, List.forall_mem_map]
  exact fun n _ => k.coversAll_num n

theorem coversAll_pictures (info : PlayerJoinInfo) :
    (∀ f ∈ pictureValues info, k.CoversAll f.2) ↔
      k.Covers info.avatar.toList ∧ k.Covers info.avatarPreset.toList := by
  have hnone : k.Covers "".toList := List.forall_mem_nil _
  unfold pictureValues
  rw [List.forall_mem_append]
  refine and_congr ?_ ?_
  · split_ifs with h
    · exact iff_of_true (List.forall_mem_nil _) (h ▸ hnone)
    · exact List.forall_mem_singleton.trans k.coversAll_str
  · split_ifs with h
    · exact iff_of_true (List.forall_mem_nil _) (h ▸ hnone)
    · exact List.forall_mem_singleton.trans k.coversAll_str

/-- What the server did not choose itself of the player of a room. -/
def profileTexts (info : PlayerJoinInfo) : List String :=
  [info.nickname, info.avatar, info.avatarPreset]

theorem coversAll_roomPlayer (p : RoomPlayer) :
    k.CoversAll (object (roomPlayerValues profile p)) ↔
      ∀ text ∈ profileTexts (profile p.id), k.Covers text.toList := by
  rw [coversAll_object k (plainKeys_roomPlayer profile p), roomPlayerValues, List.forall_mem_append,
    List.forall_mem_append, coversAll_pictures]
  simp [profileTexts, coversAll_plain k (plain_status _)]

theorem coversAll_roomState (hroom : Named room) :
    k.CoversAll (object (roomStateValues room profile)) ↔
      ∀ text ∈ room.players.flatMap fun p => profileTexts (profile p.id), k.Covers text.toList := by
  rw [coversAll_object k (plainKeys_roomState room profile), List.forall_mem_flatMap]
  simp [roomStateValues, coversAll_roomPlayer, coversAll_plain k hroom.plain_mode,
    coversAll_plain k (plain_roomPhase _)]

/-- What the server did not choose itself of a player of the game. -/
def playerTexts (room : Room) (profile : PlayerId → PlayerJoinInfo) (id : PlayerId) : List String :=
  shownNickname room profile id ::
  match findRoomPlayer room id with
  | none => []
  | some rp => [(profile rp.id).avatar, (profile rp.id).avatarPreset]

theorem coversAll_otherPlayer (p : OtherPlayer) :
    k.CoversAll (object (otherPlayerValues room profile p)) ↔
      ∀ text ∈ playerTexts room profile p.id, k.Covers text.toList := by
  rw [coversAll_object k (plainKeys_otherPlayer room profile p), otherPlayerValues,
    List.forall_mem_append, playerTexts]
  rcases findRoomPlayer room p.id with _ | rp
  · simp [coversAll_plain k (plain_status _)]
  · dsimp only
    rw [coversAll_pictures]
    simp [coversAll_plain k (plain_status _)]

theorem coversAll_seatPlay {play : TributeSeatPlay} (hkind : play.kind ∈ ["tribute", "return"]) :
    k.CoversAll (object (seatPlayValues play)) := by
  have hplain : Json.standard.Plain play.kind.toList := by
    simp only [List.mem_cons, List.not_mem_nil, or_false] at hkind
    rcases hkind with h | h <;> rw [h] <;> decide
  rw [coversAll_object k (plainKeys_seatPlay play)]
  simp [seatPlayValues, coversAll_plain k hplain]

theorem kind_of_tributeSeatPlays {e : GameEngine} {play : TributeSeatPlay}
    (h : play ∈ e.tributeSeatPlays) : play.kind ∈ ["tribute", "return"] := by
  unfold GameEngine.tributeSeatPlays at h
  split at h
  · obtain ⟨seat, -, hplay⟩ := List.mem_filterMap.1 h
    obtain ⟨card, -, rfl⟩ := Option.map_eq_some_iff.1 hplay
    simp
  · rcases List.mem_append.1 h with h | h
    · obtain ⟨tr, -, rfl⟩ := List.mem_map.1 h
      simp
    · obtain ⟨ret, -, rfl⟩ := List.mem_map.1 h
      simp
  · cases h

theorem coversAll_snapshot (hroom : Named room) {view : PlayerView}
    (hkinds : ∀ play ∈ view.tributeSeatPlays, play.kind ∈ ["tribute", "return"]) :
    k.CoversAll (object (snapshotValues room profile view)) ↔
      ∀ text ∈ view.others.flatMap fun p => playerTexts room profile p.id, k.Covers text.toList := by
  have hplays : k.CoversAll
      (.arr (view.tributeSeatPlays.map fun play => object (seatPlayValues play))) := by
    rw [k.coversAll_arr, List.forall_mem_map]
    exact fun play hplay => coversAll_seatPlay k (hkinds play hplay)
  have hothers : k.CoversAll
        (.arr (view.others.map fun p => object (otherPlayerValues room profile p))) ↔
      ∀ p ∈ view.others, ∀ text ∈ playerTexts room profile p.id, k.Covers text.toList := by
    rw [k.coversAll_arr, List.forall_mem_map]
    exact forall₂_congr fun p _ => coversAll_otherPlayer k p
  have hflags : k.CoversAll
      (.arr ([view.inPassAPhase 0, view.inPassAPhase 1].map .bool)) := by
    rw [k.coversAll_arr, List.forall_mem_map]
    exact fun b _ => k.coversAll_bool b
  rw [coversAll_object k (plainKeys_snapshot room profile view), List.forall_mem_flatMap, ← hothers]
  simp only [snapshotValues, List.forall_mem_cons, List.not_mem_nil, false_imp_iff, implies_true,
    true_and, and_true, hplays, hflags, coversAll_numbers, k.coversAll_num, k.coversAll_bool,
    coversAll_plain k hroom.plain_id, coversAll_plain k (plain_phase _)]

theorem coversAll_loginResult (user : UserRecord) {room : Option Room}
    (hroom : ∀ r ∈ room, Named r) :
    k.CoversAll (object (loginResultValues user room)) ↔ k.Covers user.nickname.toList := by
  have hvalues : ∀ f ∈ loginRoomValues user.id room, k.CoversAll f.2 := by
    cases room with
    | none => simp [loginRoomValues]
    | some r =>
      have hr := hroom r rfl
      rw [loginRoomValues]
      split_ifs
      · simp
      · simp [coversAll_plain k hr.plain_id, coversAll_plain k hr.plain_mode,
          coversAll_plain k (plain_roomPhase _)]
  rw [coversAll_object k (plainKeys_loginResult user room), loginResultValues, List.forall_mem_append,
    and_iff_left hvalues]
  simp

theorem coversAll_playerJoined (playerId : PlayerId) (nickname : String) :
    k.CoversAll (object (playerJoinedValues playerId nickname)) ↔ k.Covers nickname.toList := by
  rw [coversAll_object k (plainKeys_playerJoined playerId nickname)]
  simp [playerJoinedValues]

theorem coversAll_voteEntry (nickname : PlayerId → String) (entry : DismissVoteEntry) :
    k.CoversAll (object (voteEntryValues nickname entry)) ↔
      k.Covers (nickname entry.playerId).toList := by
  rw [coversAll_object k (plainKeys_voteEntry nickname entry)]
  simp [voteEntryValues]

theorem coversAll_dismissVote (vote : DismissVote) (nickname : PlayerId → String) :
    k.CoversAll (object (dismissVoteValues vote nickname)) ↔
      ∀ text ∈ vote.entries.map fun entry => nickname entry.playerId, k.Covers text.toList := by
  rw [coversAll_object k (plainKeys_dismissVote vote nickname), List.forall_mem_map]
  simp [dismissVoteValues, coversAll_voteEntry]

end Covered

/-! ### The whole message -/

/-- A member that is left out unless the message has it. -/
def optional (has : Bool) (name : String) (j : Json) : List (String × Json) :=
  if has then [(name, j)] else []

/-- What a message says that carries these data. -/
def messageValues (msg : Message) (data : Json) : List (String × Json) :=
  ("protocol_version", .num msg.protocolVersion) :: ("type", .str msg.type) ::
    (optional (0 < msg.requestId) "request_id" (.num msg.requestId) ++
    (optional (!msg.roomId.isEmpty) "room_id" (.str msg.roomId) ++
    (optional (0 < msg.turnId) "turn_id" (.num msg.turnId) ++
    (optional (0 < msg.stateVersion) "state_version" (.num msg.stateVersion) ++
    (optional (msg.errorCode ≠ .ok) "error_code" (.num (errorNumber msg.errorCode)) ++
    [("data", data)])))))

section Message

variable (k : Shorthand) {msg : Message} {data : Json} {has : Bool} {name : String} {j : Json}

theorem plainKeys_optional (h : Json.standard.Plain name.toList) :
    PlainKeys ((optional has name j).map (·.1)) := by
  cases has with
  | false => exact List.forall_mem_nil _
  | true => exact List.forall_mem_singleton.2 h

theorem coversAll_optional (h : k.CoversAll j) : ∀ f ∈ optional has name j, k.CoversAll f.2 := by
  cases has with
  | false => exact List.forall_mem_nil _
  | true => exact List.forall_mem_singleton.2 h

theorem plainKeys_message (msg : Message) (data : Json) :
    PlainKeys ((messageValues msg data).map (·.1)) := by
  have hkeys : PlainKeys ["protocol_version", "type", "request_id", "room_id", "turn_id",
    "state_version", "error_code", "data"] := by decide
  simp only [PlainKeys, List.forall_mem_cons] at hkeys
  obtain ⟨hversion, htype, hrequest, hroom, hturn, hstate, herror, hdata, -⟩ := hkeys
  simp only [messageValues, List.map_cons, List.map_append, List.map_nil]
  refine List.forall_mem_cons.2 ⟨hversion, List.forall_mem_cons.2 ⟨htype, ?_⟩⟩
  refine plainKeys_append.2 ⟨plainKeys_optional hrequest, ?_⟩
  refine plainKeys_append.2 ⟨plainKeys_optional hroom, ?_⟩
  refine plainKeys_append.2 ⟨plainKeys_optional hturn, ?_⟩
  refine plainKeys_append.2 ⟨plainKeys_optional hstate, ?_⟩
  exact plainKeys_append.2 ⟨plainKeys_optional herror, List.forall_mem_singleton.2 hdata⟩

theorem record_cons (m : String × Text) (ms : List (String × Text)) :
    record (m :: ms) = '{' :: keyed m.1 m.2 ++ ms.flatMap (fun m => ',' :: keyed m.1 m.2) ++ ['}'] := by
  rw [record, List.map_cons, Json.commas_cons, List.flatMap_map]
  rfl

/-- The text of a member behind the first. -/
def further (f : String × Json) : Text := ',' :: keyed f.1 (Json.write k.run f.2)

theorem flatMap_number (has : Prop) [Decidable has] (name : String) (n : Nat) :
    (optional has name (.num n)).flatMap (further k) =
      if has then [','] ++ field name.toList [':'] ++ digits n else [] := by
  unfold optional
  simp only [decide_eq_true_eq]
  split_ifs
  · simp [further, keyed, ← write_digits]
  · rfl

theorem messageToJson_eq (htype : Json.standard.Plain msg.type)
    (hroom : Json.standard.Plain msg.roomId) (hdata : msg.dataJson = Json.write k.run data) :
    messageToJson msg = Json.write k.run (object (messageValues msg data)) := by
  have hfull : msg.dataJson.isEmpty = false := by
    obtain ⟨c, cs, hfirst, -, -⟩ := Json.write_first k.run data
    rw [hdata, hfirst]
    rfl
  have hid : (optional (!msg.roomId.isEmpty) "room_id" (.str msg.roomId)).flatMap (further k) =
      if msg.roomId.isEmpty then []
      else [','] ++ field "room_id".toList [':', '"'] ++ msg.roomId ++ ['"'] := by
    rcases msg.roomId.isEmpty
    · simp [optional, further, keyed, ← write_plain k hroom, inQuotes, field]
    · rfl
  have herror : (optional (msg.errorCode ≠ .ok) "error_code"
        (.num (errorNumber msg.errorCode))).flatMap (further k) =
      if msg.errorCode = .ok then []
      else [','] ++ field "error_code".toList [':'] ++ digits (errorNumber msg.errorCode) := by
    rw [flatMap_number, ite_not]
  have htexts : ∀ fields : List (String × Json),
      ((fields.map fun f => (f.1, Json.write k.run f.2)).flatMap fun m => ',' :: keyed m.1 m.2) =
        fields.flatMap (further k) := fun fields => List.flatMap_map ..
  rw [write_object k (plainKeys_message msg data), messageValues, List.map_cons, record_cons, htexts,
    List.flatMap_cons, List.flatMap_append, List.flatMap_append, List.flatMap_append,
    List.flatMap_append, List.flatMap_append, flatMap_number, hid, flatMap_number, flatMap_number,
    herror]
  unfold messageToJson
  rw [hfull]
  simp [further, keyed, ← write_digits, ← write_plain k htype, inQuotes, field, hdata]

/-- The data of a message are read back if and only if their writer covers them. -/
theorem decode_message_iff (htype : Json.standard.Plain msg.type)
    (hroom : Json.standard.Plain msg.roomId) (hdata : msg.dataJson = Json.write k.run data) :
    Json.decode (messageToJson msg) = some (object (messageValues msg data)) ↔ k.CoversAll data := by
  rw [messageToJson_eq k htype hroom hdata, k.decode_write_iff,
    coversAll_object k (plainKeys_message msg data), messageValues, List.forall_mem_cons,
    List.forall_mem_cons, and_iff_right (k.coversAll_num _), and_iff_right (coversAll_plain k htype)]
  simp only [List.forall_mem_append, List.forall_mem_singleton,
    and_iff_right (coversAll_optional k (k.coversAll_num _)),
    and_iff_right (coversAll_optional k (coversAll_plain k hroom))]

end Message

namespace View

/-- The data of the message, as a reader should have them. -/
def data : View → Json
  | loginResult _ user room => object (loginResultValues user (room.map (·.1)))
  | roomState _ _ _ room profile => object (roomStateValues room.1 profile)
  | gameSnapshot _ _ _ room profile _ _ view _ => object (snapshotValues room.1 profile view)
  | playerJoined _ playerId nickname => object (playerJoinedValues playerId nickname)
  | dismissVote _ _ _ _ vote nickname => object (dismissVoteValues vote nickname)

/-- What the message says. -/
def value (v : View) : Json := object (messageValues v.message v.data)

/-- The nicknames in the message, and the pictures. -/
def shown : View → List String
  | loginResult _ user _ => [user.nickname]
  | roomState _ _ _ room profile => room.1.players.flatMap fun p => profileTexts (profile p.id)
  | gameSnapshot _ _ _ room profile _ _ view _ =>
    view.others.flatMap fun p => playerTexts room.1 profile p.id
  | playerJoined _ _ nickname => [nickname]
  | dismissVote _ _ _ _ vote nickname => vote.entries.map fun entry => nickname entry.playerId

/-- The characters that are escaped in the message. -/
def marks : View → Shorthand
  | loginResult .. => dispatcherMarks
  | roomState .. => viewMarks
  | gameSnapshot .. => viewMarks
  | playerJoined .. => noMarks
  | dismissVote .. => noMarks

variable (v : View)

theorem plain_type : Json.standard.Plain v.message.type := by
  have hstate : ∀ type ∈ roomStateTypes, Json.standard.Plain type.toList := by decide
  have hsnapshot : ∀ type ∈ snapshotTypes, Json.standard.Plain type.toList := by decide
  have hdismiss : ∀ type ∈ dismissVoteTypes, Json.standard.Plain type.toList := by decide
  have hlogin : Json.standard.Plain "login_result".toList := by decide
  have hjoined : Json.standard.Plain "player_joined".toList := by decide
  cases v with
  | loginResult => exact hlogin
  | roomState type htype => exact hstate type htype
  | gameSnapshot type htype => exact hsnapshot type htype
  | playerJoined => exact hjoined
  | dismissVote type htype => exact hdismiss type htype

theorem plain_room : Json.standard.Plain v.message.roomId := by
  cases v with
  | loginResult => exact List.forall_mem_nil _
  | roomState _ _ _ room => exact room.2.plain_id
  | gameSnapshot _ _ _ room => exact room.2.plain_id
  | playerJoined room => exact room.2.plain_id
  | dismissVote _ _ _ room => exact room.2.plain_id

theorem named_of_mem {room : Option NamedRoom} : ∀ r ∈ room.map (·.1), Named r := by
  intro r hr
  obtain ⟨room, -, rfl⟩ := Option.map_eq_some_iff.1 hr
  exact room.2

theorem dataJson_eq : v.message.dataJson = Json.write v.marks.run v.data := by
  cases v with
  | loginResult _ user _ => exact loginResultJson_eq user named_of_mem
  | roomState _ _ _ room profile => exact buildRoomStateJson_eq profile room.2
  | gameSnapshot _ _ _ room profile _ _ view => exact buildGameSnapshotJson_eq profile room.2 view
  | playerJoined _ playerId nickname => exact playerJoinedJson_eq playerId nickname
  | dismissVote _ _ _ _ vote nickname => exact buildDismissVoteJson_eq vote nickname

theorem kinds_of_view {e : GameEngine} {viewerId : PlayerId} {anchor : Option Nat}
    {view : PlayerView} (h : e.buildViewFor viewerId anchor = some view) :
    ∀ play ∈ view.tributeSeatPlays, play.kind ∈ ["tribute", "return"] := by
  simp only [GameEngine.buildViewFor, Option.bind_eq_bind, Option.bind_eq_some_iff] at h
  obtain ⟨required, -, returns, -, h⟩ := h
  cases h
  exact fun play hplay => kind_of_tributeSeatPlays hplay

theorem coversAll_iff (k : Shorthand) :
    k.CoversAll v.data ↔ ∀ text ∈ v.shown, k.Covers text.toList := by
  cases v with
  | loginResult _ user _ =>
    rw [shown, List.forall_mem_singleton]
    exact coversAll_loginResult k user named_of_mem
  | roomState _ _ _ room => exact coversAll_roomState k room.2
  | gameSnapshot _ _ _ room _ _ _ _ hview => exact coversAll_snapshot k room.2 (kinds_of_view hview)
  | playerJoined _ playerId nickname =>
    rw [shown, List.forall_mem_singleton]
    exact coversAll_playerJoined k playerId nickname
  | dismissVote _ _ _ _ vote nickname => exact coversAll_dismissVote k vote nickname

/-- The message is read as what it says, or some special character of what it shows is not escaped. -/
theorem decode_iff : Json.decode (messageToJson v.message) = some v.value ↔
    ∀ text ∈ v.shown, v.marks.Covers text.toList := by
  rw [value, decode_message_iff v.marks v.plain_type v.plain_room v.dataJson_eq, v.coversAll_iff]

end View

theorem named_create : Named (Table.create (generateRoomId (Fin.last 899999)) 10001 "six").room := by
  have howner : (10001 : PlayerId) ≠ 0 := by decide
  exact named_reachable howner (by decide) .refl

/-- The room of the first person who registers. -/
def tableRoom : NamedRoom :=
  ⟨(Table.create (generateRoomId (Fin.last 899999)) 10001 "six").room, named_create⟩

end Guandan.Protocol.Views
