import Guandan.Network.Exchange

/-!
# Every message can be written

There is a text for each message that a room sends (`writable_sent`), so that each step of a room and a client
that exchange messages is one of the two with texts on the way (`Carries.follow`).
-/

namespace Guandan

open Quoted Client Protocol.Views Client.Decoded

/-- The message can be written. -/
def Writable (m : ServerMessage) : Prop := ∃ text, Writes m text

/-! ### Lists of messages -/

section Lists

variable {viewer : PlayerId} {ms ms' : List ServerMessage} {m : ServerMessage}

def AllWritable (ms : List ServerMessage) : Prop := ∀ m ∈ ms, Writable m

theorem AllWritable.append (h : AllWritable ms) (h' : AllWritable ms') : AllWritable (ms ++ ms') :=
  List.forall_mem_append.2 ⟨h, h'⟩

theorem allWritable_nil : AllWritable [] := List.forall_mem_nil _

theorem allWritable_one (h : Writable m) : AllWritable [m] := List.forall_mem_singleton.2 h

theorem allWritable_broadcast (r : Room) (h : AllWritable ms) : AllWritable (broadcastToRoom viewer r ms) :=
  forall_broadcast r h

theorem allWritable_response (id : PlayerId) (h : Writable m) : AllWritable (sendResponse viewer id m) :=
  forall_response id h

theorem allWritable_ite {p : Prop} [Decidable p] (h : AllWritable ms) (h' : AllWritable ms') :
    AllWritable (if p then ms else ms') := by
  split_ifs
  · exact h
  · exact h'

/-- There are texts for them. -/
theorem AllWritable.texts (h : AllWritable ms) : ∃ texts, List.Forall₂ Writes ms texts := by
  obtain ⟨texts, htexts⟩ := List.exists_forall₂ (R := flip Writes) h
  exact ⟨texts, htexts.flip⟩

end Lists

/-! ### Kinds of messages -/

section Kinds

variable {viewer : PlayerId} {targets : SpectateTargets} {r r' : Room}

theorem Protocol.Views.Named.withEngine (h : Named r) (e : GameEngine) : Named { r with engine := e } :=
  ⟨h.id, h.mode⟩

theorem Protocol.Views.Named.settled (h : Named r) : Named r.enterSettlement := ⟨h.id, h.mode⟩

theorem Protocol.Views.Named.ready (h : Named r) (id : PlayerId) : Named ((r.ready id).getD r) := by
  rcases hready : r.ready id with _ | r'
  · exact h
  · unfold Room.ready at hready
    split_ifs at hready
    obtain ⟨p, -, rfl⟩ := Option.map_eq_some_iff.1 hready
    exact ⟨h.id, h.mode⟩

/-- The types of the messages of which nothing is read. -/
def otherTypes : List String :=
  ["tribute_resolved", "player_joined", "player_left", "player_ready", "player_unready", "seat_changed",
    "room_options_updated", "submit_tribute", "submit_return", "dismiss_vote_started", "dismiss_vote_updated",
    "dismiss_vote_rejected", "reconnect_ok"]

theorem writable_other {type : String} (h : type ∈ otherTypes) : Writable (.other type) := by
  have htypes : ∀ type ∈ otherTypes, type ∉ readTypes ∧ Json.standard.Plain type.toList := by decide
  obtain ⟨hunread, hplain⟩ := htypes type h
  exact ⟨_, _, .other type hunread hplain { type := type.toList, dataJson := Protocol.noObject } rfl
    (List.forall_mem_nil _) noMarks [] rfl (coversAll_nothing noMarks), rfl⟩

theorem writable_error (code : ErrorCode) : Writable (.error code) := ⟨_, _, .error 0 code, rfl⟩

/-- A player of whom nothing is known. -/
def stranger : PlayerId → PlayerJoinInfo := fun _ => { nickname := "" }

theorem covers_empty (k : Json.Shorthand) : k.Covers "".toList := List.forall_mem_nil _

theorem covers_stranger (k : Json.Shorthand) (r : Room) (id : PlayerId) :
    ∀ text ∈ playerTexts r stranger id, k.Covers text.toList := by
  have hname : k.Covers ("Player" ++ toString id).toList := by
    have hword : Json.standard.Plain "Player".toList := by decide
    have hid : (toString id).toList = digits id := by
      rw [Nat.toString_eq_repr, Nat.repr, digits, String.toList_ofList]
    refine k.covers_of_plain fun c hc => ?_
    rw [String.toList_append, hid, List.mem_append] at hc
    rcases hc with hc | hc
    · exact hword c hc
    · exact Protocol.plain_digits id c hc
  unfold playerTexts shownNickname
  rcases findRoomPlayer r id with _ | rp
  · exact List.forall_mem_singleton.2 hname
  · exact List.forall_mem_cons.2 ⟨hname, List.forall_mem_cons.2
      ⟨covers_empty k, List.forall_mem_singleton.2 (covers_empty k)⟩⟩

/-- A message of a view is written with its type. -/
theorem writable_snapshot (hroom : Named r) (type : String) (htype : type ∈ snapshotTypes)
    {anchor : Option Nat} {view : PlayerView} (hview : r.engine.buildViewFor viewer anchor = some view) :
    Writable (View.told (.gameSnapshot type htype 0 ⟨r, hroom⟩ stranger viewer anchor view hview)) :=
  ⟨_, _, .view _ (List.forall_mem_flatMap.2 fun p _ => covers_stranger _ r p.id), rfl⟩

theorem writable_room (hroom : Named r) (type : String) (htype : type ∈ roomStateTypes) :
    Writable (View.told (.roomState type htype 0 ⟨r, hroom⟩ stranger)) :=
  ⟨_, _, .view _ (List.forall_mem_flatMap.2 fun _ _ => List.forall_mem_cons.2 ⟨covers_empty _,
    List.forall_mem_cons.2 ⟨covers_empty _, List.forall_mem_singleton.2 (covers_empty _)⟩⟩), rfl⟩

theorem writable_roomState (hroom : Named r) : Writable (roomStateMessage r) :=
  writable_room hroom "room_state" (by decide)

theorem writable_roomJoined (hroom : Named r) :
    Writable (.roomJoined r.phase (r.players.map fun p => (p.id, p.seatIndex))) :=
  writable_room hroom "room_joined" (by decide)

/-- What shows a player the game is one of these messages. -/
inductive ShowsView : (PlayerView → ServerMessage) → Prop
  | gameSnapshot : ShowsView .gameSnapshot
  | cardsDealt : ShowsView .cardsDealt
  | tributePhaseUpdated : ShowsView .tributePhaseUpdated
  | spectateUpdate : ShowsView .spectateUpdate
  | spectateChanged : ShowsView .spectateChanged

theorem writable_playerView (hroom : Named r) {message : PlayerView → ServerMessage}
    (hmessage : ShowsView message) : AllWritable (sendPlayerView viewer targets r message) := by
  intro m hm
  obtain ⟨view, hview, rfl⟩ := List.mem_map.1 hm
  have hview : r.engine.buildViewFor viewer (r.resolveViewAnchor targets viewer) = some view :=
    Option.mem_toList.1 hview
  cases hmessage with
  | gameSnapshot => exact writable_snapshot hroom "game_snapshot" (by decide) hview
  | cardsDealt => exact writable_snapshot hroom "cards_dealt" (by decide) hview
  | tributePhaseUpdated => exact writable_snapshot hroom "tribute_phase_updated" (by decide) hview
  | spectateUpdate => exact writable_snapshot hroom "spectate_update" (by decide) hview
  | spectateChanged => exact writable_snapshot hroom "spectate_changed" (by decide) hview

theorem writable_playerViews (hroom : Named r) {message : PlayerView → ServerMessage}
    (hmessage : ShowsView message) : AllWritable (sendPlayerViews viewer targets r message) :=
  allWritable_broadcast r (writable_playerView hroom hmessage)

theorem writable_played (hroom : Named r) (e : GameEngine) (id : PlayerId) (cards : List CardId) :
    Writable (playedMessage e id cards) :=
  ⟨_, _, .playerPlayed 0 ⟨r, hroom⟩ id cards 0 _ 0 _ 0 _, rfl⟩

theorem writable_passed (hroom : Named r) (e : GameEngine) (id : PlayerId) : Writable (passedMessage e id) :=
  ⟨_, _, .playerPassed 0 ⟨r, hroom⟩ id none _ _ 0 _, rfl⟩

/-! ### The course of a round -/

theorem writable_spectateUpdates (hroom : Named r) :
    AllWritable (sendSpectateUpdatesToFinishedPlayers viewer targets r) := by
  unfold sendSpectateUpdatesToFinishedPlayers
  refine allWritable_ite allWritable_nil ?_
  split
  · exact allWritable_nil
  · exact allWritable_ite (writable_playerViews hroom .spectateUpdate) allWritable_nil

theorem writable_tributePhaseCompleted (hroom : Named r) :
    AllWritable (onTributePhaseCompletedSent viewer targets r) :=
  (allWritable_broadcast r (allWritable_one (writable_other (by decide)))).append
    (writable_playerViews hroom .cardsDealt)

theorem writable_roundStarted (hroom : Named r) : AllWritable (onRoundStartedSent viewer targets r) :=
  (writable_playerViews hroom .cardsDealt).append <| allWritable_ite allWritable_nil <|
    allWritable_ite (allWritable_broadcast r (allWritable_one (writable_other (by decide)))) allWritable_nil

theorem writable_tryStartNextRound (hroom : Named r) (starts : List RoundStart) :
    AllWritable (tryStartNextRoundSent viewer targets r starts) :=
  allWritable_ite allWritable_nil (writable_roundStarted hroom)

theorem writable_gameOver (hroom : Named r) (hroom' : Named r') (result : SettlementResult)
    (starts : List RoundStart) : AllWritable (onGameOverSent viewer targets r result r' starts) :=
  (allWritable_broadcast r
    (allWritable_one ⟨_, _, .settlement ⟨r, hroom⟩ result r.engine.state, rfl⟩)).append <|
    allWritable_ite
      (allWritable_broadcast r (allWritable_one ⟨_, _, .gameOver ⟨r, hroom⟩ result r.engine.state, rfl⟩))
      ((allWritable_broadcast r (allWritable_one (writable_roomState (hroom.settled)))).append
        (writable_tryStartNextRound hroom' starts))

theorem writable_turn (hroom : Named r) (hroom' : Named r') {m : ServerMessage} (hm : Writable m)
    (result : PlayResult) (starts : List RoundStart) :
    AllWritable (turnSent viewer targets r m result r' starts) :=
  ((allWritable_broadcast r (allWritable_one hm)).append (writable_spectateUpdates hroom)).append <|
    allWritable_ite (writable_gameOver hroom hroom' _ starts) allWritable_nil

theorem writable_botPass (hroom : Named r) (hroom' : Named r') (botId : PlayerId) (starts : List RoundStart) :
    AllWritable (botPassSent viewer targets r botId r' starts) := by
  unfold botPassSent
  split
  · exact allWritable_ite (writable_turn (hroom.withEngine _) hroom' (writable_passed hroom _ botId) _ starts)
      allWritable_nil
  · exact allWritable_nil

theorem writable_botTurn (hroom : Named r) (hroom' : Named r') (botId : PlayerId) (starts : List RoundStart) :
    AllWritable (executeBotTurnSent viewer targets r botId r' starts) := by
  unfold executeBotTurnSent
  refine allWritable_ite allWritable_nil (allWritable_ite allWritable_nil
    (allWritable_ite allWritable_nil ?_))
  split
  · split
    · exact allWritable_ite
        (writable_turn (hroom.withEngine _) hroom' (writable_played hroom _ botId _) _ starts)
        (writable_botPass hroom hroom' botId starts)
    · exact allWritable_nil
  · exact writable_botPass hroom hroom' botId starts
  · exact allWritable_nil

theorem writable_continueTribute (hroom : Named r) : AllWritable (continueTributeSent viewer targets r) :=
  allWritable_ite allWritable_nil
    (allWritable_ite (writable_tributePhaseCompleted hroom) allWritable_nil)

theorem writable_botRound (hroom : Named r) (b : Option Table.BotRound) :
    AllWritable (botRoundSent viewer targets r b) := by
  cases b with
  | none => exact allWritable_nil
  | some b =>
    exact (allWritable_ite (writable_playerViews (hroom.withEngine _) .tributePhaseUpdated)
      allWritable_nil).append (writable_continueTribute (hroom.withEngine _))

theorem writable_botTribute (hroom : Named r) :
    AllWritable (executeBotTributeActionsSent viewer targets r) := by
  unfold executeBotTributeActionsSent
  refine allWritable_ite allWritable_nil ?_
  split
  · exact writable_botRound hroom _
  · exact writable_botRound hroom _
  · exact allWritable_nil

end Kinds

/-! ### Requests and tasks -/

section Steps

variable {viewer : PlayerId} {targets : SpectateTargets} {t t' : Table}

theorem writable_roomSent {type : String} (htype : type ∈ otherTypes) (hroom : Named t.room) :
    AllWritable (roomSent viewer type t.room) :=
  allWritable_broadcast t.room <| List.forall_mem_cons.2
    ⟨writable_other htype, allWritable_one (writable_roomState hroom)⟩

theorem writable_dissolve (hroom : Named t.room) : AllWritable (dissolveSent viewer t.room) :=
  allWritable_ite (allWritable_broadcast t.room (allWritable_one ⟨_, _, .roomDismissed ⟨t.room, hroom⟩, rfl⟩))
    allWritable_nil

/-- What an accepted request sends. -/
theorem writable_accepted (hroom : Named t.room) (hroom' : Named t'.room) (starts : List RoundStart)
    (op : TableOp) : AllWritable (acceptedSent viewer targets t t' starts op) := by
  have hother : ∀ type ∈ otherTypes, Writable (.other type) := fun _ => writable_other
  have hstate := writable_roomState hroom'
  cases op with
  | joinRoom id =>
    exact (allWritable_response id (writable_roomJoined hroom')).append
      (writable_roomSent (by decide) hroom')
  | leaveRoom id =>
    exact (allWritable_response id (hother _ (by decide))).append
      (allWritable_ite (allWritable_broadcast _ (allWritable_one hstate)) allWritable_nil)
  | ready id σ =>
    refine AllWritable.append (allWritable_broadcast _ (List.forall_mem_cons.2 ⟨hother _ (by decide), ?_⟩))
      (writable_tryStartNextRound hroom' starts)
    exact allWritable_one (writable_roomState (hroom.ready id))
  | unready id => exact writable_roomSent (by decide) hroom'
  | changeSeat id seat => exact writable_roomSent (by decide) hroom'
  | setRoomOptions id enabled =>
    exact (allWritable_response id (hother _ (by decide))).append
      (allWritable_broadcast _ (allWritable_one hstate))
  | startGame id σ =>
    have hstarted : Writable .gameStarted := ⟨_, _, .gameStarted 0 ⟨t'.room, hroom'⟩, rfl⟩
    exact ((allWritable_broadcast _ (allWritable_one hstarted)).append (writable_roundStarted hroom')).append
      (allWritable_response id hstarted)
  | playCards id turnId cards σ =>
    show AllWritable (playCardsSent viewer targets t.room id cards t'.room starts)
    unfold playCardsSent
    split
    · exact (writable_turn (hroom.withEngine _) hroom' (writable_played hroom _ id cards) _ starts).append
        (allWritable_response id (writable_played hroom _ id cards))
    · exact allWritable_nil
  | pass id turnId =>
    have hpassed := writable_passed hroom t'.room.engine id
    exact ((allWritable_broadcast _ (allWritable_one hpassed)).append
      (writable_spectateUpdates hroom')).append (allWritable_response id hpassed)
  | submitTribute id cardId =>
    exact ((writable_playerViews hroom' .tributePhaseUpdated).append
      (writable_continueTribute hroom')).append (allWritable_response id (hother _ (by decide)))
  | submitReturn id cardId =>
    show AllWritable (submitReturnSent viewer targets t.room id cardId t'.room)
    unfold submitReturnSent
    split
    · exact ((writable_playerViews (hroom.withEngine _) .tributePhaseUpdated).append
        (allWritable_ite (writable_tributePhaseCompleted hroom') (writable_continueTribute hroom'))).append
        (allWritable_response id (hother _ (by decide)))
    · exact allWritable_nil
  | requestDismiss id =>
    exact ((allWritable_broadcast _ (allWritable_one (hother _ (by decide)))).append
      (allWritable_response id (hother _ (by decide)))).append (writable_dissolve hroom')
  | voteDismiss id agree =>
    refine (allWritable_response id ?_).append (allWritable_ite
      ((allWritable_broadcast _ (allWritable_one (hother _ (by decide)))).append (writable_dissolve hroom'))
      (allWritable_broadcast _ (allWritable_one (hother _ (by decide)))))
    cases agree <;> exact hother _ (by decide)
  | runTask σ =>
    rcases htasks : t.tasks with _ | ⟨task, tasks⟩
    · simp only [acceptedSent, htasks]
      exact allWritable_nil
    · cases task with
      | botTurn botId =>
        simp only [acceptedSent, htasks]
        exact writable_botTurn hroom hroom' _ starts
      | botTribute =>
        simp only [acceptedSent, htasks]
        exact writable_botTribute hroom
  | fireTurnTimer | fireTributeTimer | fillBots => exact allWritable_nil

/-- What a step sends can be written. -/
theorem writable_sent (hroom : Named t.room) (hroom' : Named t'.room) (op : TableOp) (out : TableOut) :
    AllWritable (sent viewer targets t op t' out) := by
  unfold sent
  split
  · exact allWritable_ite (writable_accepted hroom hroom' _ op)
      (allWritable_response _ (writable_error _))
  · exact writable_accepted hroom hroom' _ op

/-! ### The server's part -/

variable {w r : ClientServer}

theorem writable_spectateTeammate (hroom : Named w.table.room) (playerId : PlayerId) (targetSeat : Int) :
    AllWritable (w.quiet.handleSpectateTeammate viewer playerId targetSeat).inbox := by
  have herror (code : ErrorCode) : AllWritable (sendResponse viewer playerId (.error code)) :=
    allWritable_response playerId (writable_error code)
  unfold ClientServer.handleSpectateTeammate
  dsimp only
  split_ifs
  · exact herror .notInRoom
  · exact herror .invalidState
  all_goals split
  · exact herror .invalidState
  · exact writable_playerView hroom .spectateChanged
  · exact herror .invalidState
  · exact allWritable_nil

theorem writable_reconnect (hroom : Named w.table.room) :
    AllWritable (w.quiet.handleReconnect viewer).inbox := by
  unfold ClientServer.handleReconnect
  dsimp only
  split_ifs
  · exact allWritable_one (writable_error _)
  all_goals refine List.forall_mem_cons.2 ⟨writable_other (by decide), ?_⟩
  · exact writable_playerView hroom .gameSnapshot
  · exact allWritable_one (writable_roomState hroom)

theorem writable_login (hroom : Named w.table.room) : AllWritable (w.quiet.handleLogin viewer).inbox := by
  have hlogin (room : Option NamedRoom) :
      Writable (View.told (.loginResult 0 { id := viewer, nickname := "" } room)) :=
    ⟨_, _, .view _ (List.forall_mem_singleton.2 (covers_empty _)), rfl⟩
  unfold ClientServer.handleLogin
  dsimp only
  split_ifs with hfound
  · have hphase : w.table.room.phase ≠ .finished := of_decide_eq_true (Bool.and_eq_true_iff.1 hfound).2
    have htold := hlogin (some ⟨w.table.room, hroom⟩)
    rw [View.told, Option.bind_some, if_neg hphase] at htold
    exact allWritable_one htold
  · exact allWritable_one (hlogin none)

theorem handleSpectateTeammate_table (w : ClientServer) (viewer playerId : PlayerId) (targetSeat : Int) :
    (w.quiet.handleSpectateTeammate viewer playerId targetSeat).table = w.table := by
  unfold ClientServer.handleSpectateTeammate
  dsimp only
  split_ifs
  · rfl
  · rfl
  all_goals split <;> rfl

theorem handleReconnect_table (w : ClientServer) (viewer : PlayerId) :
    (w.quiet.handleReconnect viewer).table = w.table := by
  unfold ClientServer.handleReconnect
  dsimp only
  split_ifs <;> rfl

theorem handleLogin_table (w : ClientServer) (viewer : PlayerId) :
    (w.quiet.handleLogin viewer).table = w.table := by
  unfold ClientServer.handleLogin
  dsimp only
  split_ifs <;> rfl

theorem writable_notice (hroom : Named w.table.room) (notice : Notice) :
    AllWritable (w.noticeSent viewer notice) := by
  have hstate := allWritable_one (writable_roomState hroom)
  cases notice with
  | created => exact allWritable_broadcast _ hstate
  | login phase =>
    exact allWritable_ite ((allWritable_ite hstate allWritable_nil).append
      (writable_playerView hroom .gameSnapshot)) hstate

end Steps

/-! ### Steps of the parties -/

/-- A room that the server has made and plays in. -/
structure Made (t : Table) : Prop where
  room : Room.RoomInv t.room
  id : ∃ draw, t.room.roomId = generateRoomId draw

/-- The numbers of a request that the server takes fit, and what comes from elsewhere can be written. -/
def ClientServerOp.Fits (w : ClientServer) : ClientServerOp → Prop
  | .answer i _ => ∀ q ∈ w.outbox[i]?, q.Fits
  | .elsewhere _ ms => AllWritable ms
  | _ => True

section Runs

variable {viewer : PlayerId} {validate : List CardId → Nat → Option (List CardId) → Bool}
  {roomId token : Text} {t t' : Table} {x : Exchange} {w w' : ClientServer}

namespace Made

theorem named (h : Made t) : Named t.room := by
  obtain ⟨mode, enabled, hconfig⟩ := h.room.config
  exact ⟨h.id, mode, by rw [hconfig]⟩

theorem create (draw : Fin 900000) {ownerId : PlayerId} (howner : ownerId ≠ 0)
    (hperson : isBotPlayer ownerId = false) (mode : String) :
    Made (Table.create (generateRoomId draw) ownerId mode) :=
  ⟨(Room.roomInv_create _ howner mode).1, draw, (Room.create_spec _ mode hperson).2.2.1⟩

theorem step (h : Made t) {op : TableOp} {out : TableOut} (hcall : TableCall t op)
    (hstep : t.apply op = some (t', out)) : Made t' := by
  have hhandled := table_step h.room hcall hstep
  obtain ⟨draw, hdraw⟩ := h.id
  exact ⟨hhandled.roomInv h.room hcall, draw, (roomId_handled h.room hhandled).trans hdraw⟩

/-- The server goes on, and there are texts for what it tells. -/
theorem served (h : Made w.table) {op : TableOp} {r : ClientServer} (hcall : TableCall w.table op)
    (hserve : w.quiet.serve viewer op = some r) : Made r.table ∧ AllWritable r.inbox := by
  obtain ⟨⟨t', out⟩, hstep, rfl⟩ := Option.map_eq_some_iff.1 hserve
  have hmade := h.step hcall hstep
  exact ⟨hmade, writable_sent h.named hmade.named op out⟩

theorem answered (h : Made w.table) (hne : viewer ≠ 0) {σ : Shuffle} {q : Request} {r : ClientServer}
    (hanswer : w.quiet.answer viewer σ q = some r) : Made r.table ∧ AllWritable r.inbox := by
  have hserve (op : TableOp) (hop : q.op viewer σ = some op) (hsender : op.sender? = some viewer)
      (hnotFill : op ≠ .fillBots) (hserve : w.quiet.serve viewer op = some r) :
      Made r.table ∧ AllWritable r.inbox := by
    refine h.served ⟨?_, fun hfill => absurd hfill hnotFill⟩ hserve
    rw [hsender, ne_eq, Option.some.injEq]
    exact hne
  cases q with
  | spectateTeammate targetSeat =>
    cases hanswer
    exact ⟨handleSpectateTeammate_table w viewer viewer targetSeat ▸ h,
      writable_spectateTeammate h.named viewer targetSeat⟩
  | login =>
    cases hanswer
    exact ⟨handleLogin_table w viewer ▸ h, writable_login h.named⟩
  | reconnect =>
    cases hanswer
    exact ⟨handleReconnect_table w viewer ▸ h, writable_reconnect h.named⟩
  | _ => exact hserve _ rfl rfl nofun hanswer

end Made

theorem read_table (hread : w.read = some w') : w'.table = w.table := by
  unfold ClientServer.read at hread
  rcases hinbox : w.inbox with _ | ⟨m, inbox⟩ <;> rw [hinbox] at hread
  · cases hread
  · cases hread
    generalize w.listeners + 1 = n
    induction n with
    | zero => rfl
    | succ n ih =>
      rw [Function.iterate_succ_apply']
      exact ih

/-- A step of the parties without texts is one of theirs with texts, for whatever is on its way. -/
theorem Exchange.Carries.follow (h : x.Carries roomId token w) (hmade : Made w.table) (hne : viewer ≠ 0)
    {op : ClientServerOp} {o : Unit} (hroom : Protocol.Sendable roomId) (htoken : Protocol.Sendable token)
    (hcall : ClientServerCall viewer w op) (hfits : op.Fits w)
    (hstep : (clientServer viewer validate).step w op = some (w', o)) :
    ∃ op' x', ExchangeCall viewer roomId token x op' ∧ op'.tableOp viewer x = op.tableOp viewer w ∧
      (exchange viewer validate roomId token).step x op' = some (x', ()) ∧ x'.Carries roomId token w' ∧
      Made w'.table := by
  obtain ⟨w₁, hnext, heq⟩ := Option.map_eq_some_iff.1 hstep
  cases heq
  have hsame {op : ExchangeOp} {r : ClientServer} (hserved : x.served viewer op = some r) {texts : List Text}
      (htexts : List.Forall₂ Writes r.inbox texts) :
      ∀ r' ∈ x.served viewer op, List.Forall₂ Writes r'.inbox texts := by
    intro r' hr'
    rwa [← Option.some.inj (hserved.symm.trans hr')]
  cases op with
  | serve op =>
    change w.serve viewer op = some w' at hnext
    rw [w.serve_quiet viewer op] at hnext
    obtain ⟨r, hr, rfl⟩ := Option.map_eq_some_iff.1 hnext
    obtain ⟨hmade', hwritable⟩ := hmade.served hcall.1 hr
    obtain ⟨texts, htexts⟩ := hwritable.texts
    have hserved : x.served viewer (.serve op texts) = some r := by
      rw [Exchange.served, h.parties, hr]
    refine ⟨.serve op texts, _, ⟨h.table ▸ hcall.1, hcall.2, hsame hserved htexts⟩, rfl, ?_, h.goOn htexts,
      hmade'⟩
    simp [exchange, hserved]
  | spectateTeammate playerId targetSeat =>
    cases hnext
    rw [w.handleSpectateTeammate_quiet viewer playerId targetSeat]
    have hwritable : AllWritable (w.quiet.handleSpectateTeammate viewer playerId targetSeat).inbox :=
      writable_spectateTeammate hmade.named playerId targetSeat
    obtain ⟨texts, htexts⟩ := hwritable.texts
    have hserved : x.served viewer (.spectateTeammate playerId targetSeat texts) =
        some (w.quiet.handleSpectateTeammate viewer playerId targetSeat) := by
      rw [Exchange.served, h.parties]
    refine ⟨.spectateTeammate playerId targetSeat texts, _, ⟨hcall, hsame hserved htexts⟩, rfl, ?_,
      h.goOn htexts, ?_⟩
    · simp [exchange, hserved]
    · exact (handleSpectateTeammate_table w viewer playerId targetSeat).symm ▸ hmade
  | answer i σ =>
    obtain ⟨q, hq, hanswer⟩ := Option.bind_eq_some_iff.1 hnext
    rw [ClientServer.answer_quiet viewer { w with outbox := w.outbox.eraseIdx i }] at hanswer
    obtain ⟨r, hr, rfl⟩ := Option.map_eq_some_iff.1 hanswer
    change w.quiet.answer viewer σ q = some r at hr
    obtain ⟨hmade', hwritable⟩ := hmade.answered hne hr
    obtain ⟨texts, htexts⟩ := hwritable.texts
    obtain ⟨text, htext, requestId, rfl⟩ := h.outbox.getElem?_left hq
    have hread : ∀ q', Asks roomId token q' (Protocol.requestText requestId roomId token q) → q'.Fits := by
      rintro q' ⟨requestId', heq⟩
      exact Protocol.requestText_injective heq ▸ hfits q hq
    obtain ⟨q', hq', htaken⟩ := h.taken hroom htoken htext hread
    obtain rfl : q = q' := Option.some.inj (hq.symm.trans hq')
    have hserved : x.served viewer (.answer i σ texts) = some r := by
      rw [Exchange.served, htext, Option.bind_some, htaken, Option.bind_some, h.parties, hr]
    refine ⟨.answer i σ texts, _, ⟨?_, hsame hserved htexts⟩, ?_, ?_, (h.erased i).goOn htexts,
      hmade'⟩
    · intro q' text' htext'
      rw [← Option.some.inj (htext.symm.trans htext')]
      exact hread q'
    · simp only [ExchangeOp.tableOp, ClientServerOp.tableOp, htext, hq, Option.bind_some, htaken]
    · simp [exchange, hserved]
  | runNotice i =>
    obtain ⟨notice, hnotice, rfl⟩ := Option.map_eq_some_iff.1 hnext
    have hwritable : AllWritable (w.noticeSent viewer notice) := writable_notice hmade.named notice
    obtain ⟨texts, htexts⟩ := hwritable.texts
    let r : ClientServer := { w.quiet with
      notices := w.notices.eraseIdx i
      inbox := w.noticeSent viewer notice }
    have hserved : x.served viewer (.runNotice i texts) = some r := by
      rw [Exchange.served, h.notices, hnotice, h.parties]
      rfl
    have hcarries : (x.goOn r texts).Carries roomId token (w.goOn r) := h.goOn htexts
    refine ⟨.runNotice i texts, _, hsame hserved htexts, rfl, ?_, hcarries, hmade⟩
    simp [exchange, hserved]
  | elsewhere i ms =>
    cases hnext
    obtain ⟨texts, htexts⟩ := AllWritable.texts hfits
    refine ⟨.elsewhere i texts, _, ⟨?_, ?_⟩, rfl, rfl, ?_, hmade⟩
    · rw [h.table]
      exact hcall
    · intro text htext
      exact htexts.of_mem_right htext
    · exact ⟨h.parties, h.inbox.append htexts, h.outbox.eraseIdx i, h.connected⟩
  | read =>
    obtain ⟨x', hread⟩ : ∃ x', x.read roomId token = some x' := by
      have hinbox := h.inbox
      rcases hempty : w.inbox with _ | ⟨m, inbox⟩
      · change w.read = some w' at hnext
        rw [ClientServer.read, hempty] at hnext
        cases hnext
      · rw [hempty] at hinbox
        obtain ⟨text, rest, -, -, htexts⟩ := List.forall₂_cons_left_iff.1 hinbox
        rw [Exchange.read, htexts]
        exact ⟨_, rfl⟩
    obtain ⟨w₁, hw₁, hcarries⟩ := h.read hread
    obtain rfl : w' = w₁ := Option.some.inj (hnext.symm.trans hw₁)
    exact ⟨.read, x', trivial, rfl, by simp [exchange, hread], hcarries, read_table hw₁ ▸ hmade⟩
  | tap t =>
    cases hnext
    refine ⟨.tap t, _, trivial, rfl, rfl, ?_, hmade⟩
    rw [Exchange.tap, h.client]
    exact h.moved _ _
  | listen =>
    cases hnext
    exact ⟨.listen, _, trivial, rfl, rfl,
      ⟨congrArg (fun v : ClientServer => { v with listeners := v.listeners + 1 }) h.parties, h.inbox,
        h.outbox, h.connected⟩, hmade⟩

end Runs

end Guandan
