import Guandan.Network.ClientServer

/-!
# The client shows the game of the server

Whenever nothing is on its way, the client of a seated player who has not finished the round agrees with the
server: as long as nothing is refused for which it has taken cards from its hand, a play names different
cards, the player enters the room while no round goes on and with no game in play, and no match is started
in a tribute phase. A refused play leaves its cards out of the hand that the client shows.
-/

namespace Guandan

open Client GameEngine Replica

namespace ClientServer

variable (viewer : PlayerId) (w : ClientServer)

/-- Nothing is in flight. -/
structure Idle : Prop where
  inbox : w.inbox = []
  outbox : w.outbox = []
  notices : w.notices = []

/-- The client shows the hand that the server has, the turn of its view, and play only if it is in play. -/
structure Agrees : Prop where
  hand : Ongoing w.table.room.engine → ∀ seat, w.table.room.engine.seatOf viewer = some seat →
    ∀ id, id ∈ w.client.game.handIds ↔ id ∈ w.table.room.engine.state.hands seat
  turn : w.table.room.engine.state.phase = .playing →
    ∃ view, w.table.room.playerView w.targets viewer = some view ∧
      w.client.game.turnId = view.turnId ∧
      w.client.game.currentPlayerIndex = seatNumber view.currentPlayerIndex
  phase : w.client.game.phase = .playing → w.table.room.engine.state.phase = .playing

/-- Once everything has arrived the client shows no game in play, unless it has asked for a play. -/
def OutOfGame : Prop :=
  deliver phaseAfter w.client.game.phase w.inbox = .playing → PlayAsked w.outbox

/-- Where a run begins: a room is created, by the viewer only if its client shows no game in play. -/
structure Start : Prop where
  created : ∃ roomId ownerId mode client inbox outbox, ownerId ≠ 0 ∧
    w = create viewer roomId ownerId mode client inbox outbox
  user : w.client.userId = viewer
  outOfGame : w.table.Seated viewer → w.OutOfGame

/-- A step of the server after which the client can follow. -/
structure ServedWell (op : TableOp) (t' : Table) (out : TableOut) : Prop where
  granted : op.Granted viewer out
  starts : .startGame w.table.room.phase ∈ out.starts →
    w.table.room.engine.state.phase ≠ .tribute ∧ w.table.room.engine.state.phase ≠ .returnTribute
  enters : ¬ w.table.Seated viewer → t'.Seated viewer → ¬ Ongoing w.table.room.engine ∧ w.OutOfGame

end ClientServer

/-- The request of a room that the server takes in this step. -/
def ClientServerOp.tableOp (viewer : PlayerId) (w : ClientServer) : ClientServerOp → Option TableOp
  | .serve op => some op
  | .answer i σ => w.outbox[i]?.bind (Request.op viewer σ)
  | _ => none

def ClientServerOp.Careful (viewer : PlayerId) (w : ClientServer) (op : ClientServerOp) : Prop :=
  ∀ o ∈ op.tableOp viewer w, ∀ a ∈ w.table.apply o, w.ServedWell viewer o a.1 a.2

/-- What holds all along a run of careful steps. -/
structure ClientServerInv (viewer : PlayerId) (w : ClientServer) : Prop where
  room : Room.RoomInv w.table.room
  tribute : TributeInTime w.table.room.engine
  user : w.client.userId = viewer
  picture : w.table.Seated viewer → StillIn w.table.room.engine viewer →
    InPicture viewer w.table.room.engine w.client w.inbox w.outbox

section Invariant

variable {viewer : PlayerId} {w w' : ClientServer} {op : TableOp} {t' : Table} {out : TableOut}
  {outbox : List Request} {ms : List ServerMessage}
  {validate : List CardId → Nat → Option (List CardId) → Bool}

/-- When nothing is in flight the client agrees with the server. -/
theorem ClientServerInv.agrees (h : ClientServerInv viewer w) (hidle : w.Idle)
    (hseated : w.table.Seated viewer) (hin : StillIn w.table.room.engine viewer) : w.Agrees viewer := by
  have hpicture := h.picture hseated hin
  rw [hidle.inbox, hidle.outbox] at hpicture
  refine ⟨fun hon seat hseat id => ?_, fun hphase => ?_, fun hphase => ?_⟩
  · have hround := hpicture.round hon
    refine ⟨hround.shown seat hseat id, fun hid => ?_⟩
    exact (hround.held seat hseat id hid).resolve_right fun ⟨q, hq, _⟩ => List.not_mem_nil hq
  · have hon : Ongoing w.table.room.engine := .inl hphase
    obtain ⟨view, hview⟩ := playerView_isSome h.room.reached w.targets viewer
    have hown := ownView hon hin hview
    have hinactive := h.tribute.inactive (by simp [hphase])
    have hturn : (w.client.game.turnId, w.client.game.currentPlayerIndex) =
        turnOf w.table.room.engine := (hpicture.round hon).turn hphase
    rw [turnOf, Prod.mk.injEq] at hturn
    refine ⟨view, hview, hturn.1.trans hown.turnId.symm, ?_⟩
    rw [hown.current, hinactive]
    exact hturn.2
  · exact (hpicture.play hphase).resolve_right fun ⟨q, hq, _⟩ => List.not_mem_nil hq

theorem clientServerInv_start (h : w.Start viewer) : ClientServerInv viewer w := by
  obtain ⟨roomId, ownerId, mode, client, inbox, outbox, howner, rfl⟩ := h.created
  obtain ⟨hinv, hphase⟩ := Room.roomInv_create roomId howner mode
  refine ⟨hinv, .create roomId ownerId mode, h.user, fun hseated _ => ⟨fun hplaying => ?_, fun hon => ?_⟩⟩
  · exact .inr (h.outOfGame hseated hplaying)
  · have hplaying := hinv.playing hon
    rw [hphase] at hplaying
    cases hplaying

/-- The server takes a request, or a task. -/
theorem ClientServerInv.served (h : ClientServerInv viewer w) (hperson : isBotPlayer viewer = false)
    (hcall : TableCall w.table op) (hwell : w.ServedWell viewer op t' out)
    (hstep : w.table.apply op = some (t', out))
    (htaken : ∀ id, Taken w.outbox id → id ∈ op.takenFrom viewer ∨ Taken outbox id)
    (hplay : PlayAsked w.outbox → w.table.room.engine.state.phase = .playing ∨ PlayAsked outbox) :
    ClientServerInv viewer { w with
      table := t'
      targets := targetsAfter w.targets out.starts
      inbox := w.inbox ++ sent viewer w.targets w.table op t' out
      outbox := outbox } := by
  have hroom := roomInv_step h.room hcall hstep
  have htribute : TributeInTime t'.room.engine :=
    h.tribute.handled h.room hcall (fun hstart => h.tribute.inactive (hwell.starts hstart))
      (table_step h.room hcall hstep)
  refine ⟨hroom, htribute, h.user, fun hseated hin => ?_⟩
  have hwatching : Watching w.table t' viewer := by
    refine ⟨h.room, hroom, htribute, hperson, ?_, hseated.member, hin⟩
    exact (Bool.and_eq_true_iff.1 hseated.found).2
  have hbefore : StillIn w.table.room.engine viewer →
      InPicture viewer w.table.room.engine w.client w.inbox w.outbox := by
    intro hin'
    by_cases hseated' : w.table.Seated viewer
    · exact h.picture hseated' hin'
    · obtain ⟨hover, hout⟩ := hwell.enters hseated' hseated
      exact ⟨fun hphase => .inr (hout hphase), fun hon => absurd hon hover⟩
  exact .reported hbefore hin (report_step hwatching hcall hwell.granted hstep) htaken hplay

/-- Requests that have taken nothing are answered, and nothing changes in the room. -/
theorem ClientServerInv.replied (h : ClientServerInv viewer w) (htable : w'.table = w.table)
    (hclient : w'.client = w.client) (hinbox : w'.inbox = w.inbox ++ ms)
    (houtbox : ∀ q ∈ w.outbox, q ∉ w'.outbox → q.takes = [] ∧ q.isPlay = false)
    (hreport : w.table.Seated viewer → StillIn w.table.room.engine viewer →
      Report viewer [] w.table.room.engine w.table.room.engine ms) : ClientServerInv viewer w' := by
  refine ⟨htable ▸ h.room, htable ▸ h.tribute, hclient ▸ h.user, ?_⟩
  rw [htable, hclient, hinbox]
  intro hseated hin
  refine .reported (h.picture hseated) hin (hreport hseated hin) ?_ ?_
  · rintro id ⟨q, hq, hid⟩
    by_cases hkept : q ∈ w'.outbox
    · exact .inr ⟨q, hkept, hid⟩
    · rw [(houtbox q hq hkept).1] at hid
      cases hid
  · rintro ⟨q, hq, hplay⟩
    by_cases hkept : q ∈ w'.outbox
    · exact .inr ⟨q, hkept, hplay⟩
    · rw [(houtbox q hq hkept).2] at hplay
      cases hplay

/-- The server tells the viewer something. -/
theorem ClientServerInv.told (h : ClientServerInv viewer w) (htable : w'.table = w.table)
    (hclient : w'.client = w.client) (hinbox : w'.inbox = w.inbox ++ ms)
    (houtbox : w'.outbox = w.outbox)
    (hreport : w.table.Seated viewer → StillIn w.table.room.engine viewer →
      Report viewer [] w.table.room.engine w.table.room.engine ms) : ClientServerInv viewer w' := by
  refine h.replied htable hclient hinbox (fun q hq hnot => absurd ?_ hnot) hreport
  rw [houtbox]
  exact hq

/-! ### Logins and spectators -/

theorem report_plain {e : GameEngine} (h : ∀ m ∈ ms, m.Plain e) : Report viewer [] e e ms :=
  .kept (.of_plain (.refl e) h)

/-- A snapshot shows the game as it is. -/
theorem report_snapshot {r : Room} (pre : List ServerMessage) (hinv : Room.RoomInv r)
    (htribute : TributeInTime r.engine) (hin : StillIn r.engine viewer) (targets : SpectateTargets)
    (hpre : ∀ m ∈ pre, m.Plain r.engine) :
    Report viewer [] r.engine r.engine (pre ++ sendPlayerView viewer targets r .gameSnapshot) := by
  obtain ⟨view, hview⟩ := playerView_isSome hinv.reached targets viewer
  rw [sendPlayerView, hview]
  show Report viewer [] r.engine r.engine (pre ++ [.gameSnapshot view])
  by_cases hon : Ongoing r.engine
  · exact .renewed (.of_last hon htribute (ownView hon hin hview) (.inl rfl)
      (List.forall_mem_nil _) (.inr ⟨hon, hin, fun m hm => (hpre m hm).2 hon⟩))
  · refine .ended ⟨hon, fun phase hphase => hon (.inl ?_)⟩
    rw [deliver_append] at hphase
    exact (playerView_phase hview).symm.trans hphase

theorem report_noticeSent (h : ClientServerInv viewer w) (hin : StillIn w.table.room.engine viewer)
    (notice : Notice) :
    Report viewer [] w.table.room.engine w.table.room.engine (w.noticeSent viewer notice) := by
  have hstate : ∀ m ∈ [roomStateMessage w.table.room], m.Plain w.table.room.engine :=
    List.forall_mem_singleton.2 (plain_roomState h.room)
  cases notice with
  | created => exact report_plain (forall_broadcast _ hstate)
  | login phase =>
    simp only [ClientServer.noticeSent]
    split_ifs
    · exact report_snapshot _ h.room h.tribute hin w.targets hstate
    · exact report_snapshot [] h.room h.tribute hin w.targets (List.forall_mem_nil _)
    · exact report_plain hstate

/-- Only who has finished can choose whom to watch. -/
theorem setSpectateTarget_stillIn {r : Room} {targets targets' : SpectateTargets} {targetSeat : Int}
    (hon : Ongoing r.engine) (hin : StillIn r.engine viewer) :
    r.setSpectateTarget targets viewer targetSeat ≠ some targets' := by
  intro hset
  obtain ⟨seat, hfind, -⟩ := Option.map_eq_some_iff.1 hset
  have hmem := List.mem_of_find?_eq_some hfind
  unfold Room.spectatableTeammateSeats at hmem
  rcases hseat : r.engine.seatOf viewer with _ | viewerSeat
  · rw [hseat] at hmem
    cases hmem
  · rw [hseat] at hmem
    have hfinished := (Room.mem_spectatableTeammates hmem).1
    rcases hin viewerSeat hseat with hnot | ⟨hover, -⟩
    · rw [hfinished] at hnot
      cases hnot
    · unfold Ongoing at hon
      simp [hover] at hon

theorem ClientServerInv.spectateTeammate (h : ClientServerInv viewer w) (playerId : PlayerId)
    (targetSeat : Int) : ClientServerInv viewer (w.handleSpectateTeammate viewer playerId targetSeat) := by
  have herror (code : ErrorCode) : ClientServerInv viewer
      (w.send (sendResponse viewer playerId (.error code))) :=
    h.told rfl rfl rfl rfl
      fun _ _ => report_plain (forall_response playerId (plain_error _ code))
  unfold ClientServer.handleSpectateTeammate
  dsimp only
  split_ifs with hfound hphase hviewer
  · exact herror .notInRoom
  · exact herror .invalidState
  all_goals rcases hset : w.table.room.setSpectateTarget w.targets playerId targetSeat with _ | targets
  · exact herror .invalidState
  · subst hviewer
    refine h.told rfl rfl rfl rfl fun _ hin => ?_
    exact absurd hset (setSpectateTarget_stillIn (h.room.ongoing (not_not.1 hphase)) hin)
  · exact herror .invalidState
  · exact h.told rfl rfl rfl rfl
      fun _ _ => .nothing _

theorem ClientServerInv.login (h : ClientServerInv viewer w) :
    ClientServerInv viewer (w.handleLogin viewer) := by
  unfold ClientServer.handleLogin
  dsimp only
  split_ifs
  · refine h.told rfl rfl rfl rfl fun _ _ => report_plain ?_
    refine List.forall_mem_singleton.2 ⟨rfl, fun hon => ?_⟩
    simp [ServerMessage.endsRound, h.room.playing hon]
  · refine h.told rfl rfl rfl rfl fun _ _ => report_plain ?_
    exact List.forall_mem_singleton.2 ⟨rfl, fun _ => rfl⟩

theorem ClientServerInv.reconnect (h : ClientServerInv viewer w) :
    ClientServerInv viewer (w.handleReconnect viewer) := by
  unfold ClientServer.handleReconnect
  dsimp only
  split_ifs
  · exact h.told rfl rfl rfl rfl
      fun _ _ => report_plain (List.forall_mem_singleton.2 (plain_error _ _))
  · refine h.told rfl rfl rfl rfl fun _ hin => ?_
    exact report_snapshot [.other "reconnect_ok"] h.room h.tribute hin w.targets
      (List.forall_mem_singleton.2 (plain_other _ _))
  · refine h.told rfl rfl rfl rfl fun _ _ => report_plain ?_
    exact List.forall_mem_cons.2 ⟨plain_other _ _, List.forall_mem_singleton.2 (plain_roomState h.room)⟩

/-! ### The viewer's requests -/

theorem eq_or_mem_eraseIdx {i : Nat} {q q' : Request} (hq : outbox[i]? = some q) (hq' : q' ∈ outbox) :
    q' = q ∨ q' ∈ outbox.eraseIdx i := by
  obtain ⟨j, hj⟩ := List.mem_iff_getElem?.1 hq'
  by_cases hij : j = i
  · subst hij
    exact .inl (Option.some.inj (hj.symm.trans hq))
  · exact .inr (List.mem_eraseIdx_iff_getElem?.2 ⟨j, hij, hj⟩)

/-- A request that has taken no cards, and asks for no play, is on its way no longer. -/
theorem ClientServerInv.erased {i : Nat} {q : Request} (h : ClientServerInv viewer w)
    (hq : w.outbox[i]? = some q) (hplain : q.takes = [] ∧ q.isPlay = false) :
    ClientServerInv viewer { w with outbox := w.outbox.eraseIdx i } :=
  h.replied rfl rfl (List.append_nil _).symm
    (fun _ hq' hnot => (eq_or_mem_eraseIdx hq hq').resolve_right hnot ▸ hplain)
    fun _ _ => .nothing _

/-- A play that is granted is made in play. -/
theorem playing_of_granted {turnId : Nat} {cards : List CardId} {σ : Shuffle} {t : Table}
    (hgranted : TableOp.Granted viewer out (.playCards viewer turnId cards σ))
    (hstep : t.apply (.playCards viewer turnId cards σ) = some (t', out)) :
    t.room.engine.state.phase = .playing := by
  rcases Table.handlePlayCards_cases hstep with
    ⟨-, code, hcode, rfl, -⟩ | ⟨-, -, -, -, e, result, hplay, hcode, -⟩
  · exact absurd (Option.some.inj (hgranted rfl).1) hcode
  · exact (advances_playCards hplay hcode).playing

theorem ClientServerInv.answered {i : Nat} {q : Request} {σ : Shuffle} (h : ClientServerInv viewer w)
    (hperson : isBotPlayer viewer = false) (hne : viewer ≠ 0) (hq : w.outbox[i]? = some q)
    (hwell : ∀ o ∈ q.op viewer σ, ∀ a ∈ w.table.apply o, w.ServedWell viewer o a.1 a.2)
    (hanswer : ClientServer.answer viewer { w with outbox := w.outbox.eraseIdx i } σ q = some w') :
    ClientServerInv viewer w' := by
  have hserve (op : TableOp) (hop : q.op viewer σ = some op) (hsender : op.sender? = some viewer)
      (hnotFill : op ≠ .fillBots) (htakes : q.takes = op.takenFrom viewer)
      (hserve : ClientServer.serve viewer { w with outbox := w.outbox.eraseIdx i } op = some w') :
      ClientServerInv viewer w' := by
    obtain ⟨⟨t', out⟩, hstep, rfl⟩ := Option.map_eq_some_iff.1 hserve
    have hwell := hwell op hop (t', out) hstep
    have hcall : TableCall w.table op := by
      refine ⟨?_, fun hfill => absurd hfill hnotFill⟩
      rw [hsender, ne_eq, Option.some.injEq]
      exact hne
    refine h.served hperson hcall hwell hstep ?_ ?_
    · rintro id ⟨q', hq', hid⟩
      rcases eq_or_mem_eraseIdx hq hq' with rfl | hrest
      · exact .inl (htakes ▸ hid)
      · exact .inr ⟨q', hrest, hid⟩
    · rintro ⟨q', hq', hplay⟩
      rcases eq_or_mem_eraseIdx hq hq' with rfl | hrest
      · left
        cases q' with
        | playCards cards turnId =>
          cases hop
          exact playing_of_granted hwell.granted hstep
        | _ => cases hplay
      · exact .inr ⟨q', hrest, hplay⟩
  cases q with
  | spectateTeammate targetSeat =>
    cases hanswer
    exact (h.erased hq ⟨rfl, rfl⟩).spectateTeammate viewer targetSeat
  | login =>
    cases hanswer
    exact (h.erased hq ⟨rfl, rfl⟩).login
  | reconnect =>
    cases hanswer
    exact (h.erased hq ⟨rfl, rfl⟩).reconnect
  | playCards | submitTribute | submitReturn =>
    exact hserve _ rfl rfl nofun (if_pos rfl).symm hanswer
  | pass | joinRoom | leaveRoom | ready | unready | changeSeat | startGame | setRoomOptions
  | requestDismiss | voteDismiss => exact hserve _ rfl rfl nofun rfl hanswer

/-! ### Steps and runs -/

theorem ClientServerInv.hearAgain {m : ServerMessage} {inbox : List ServerMessage}
    (h : ClientServerInv viewer { w with inbox := m :: inbox }) :
    ClientServerInv viewer { w.hear m with inbox := m :: inbox } where
  room := h.room
  tribute := h.tribute
  user := (receive_userId w.client m).trans h.user
  picture := fun hseated hin =>
    ((h.picture hseated hin).readAgain h.user).asked (List.subset_append_left ..)

theorem ClientServerInv.hear {m : ServerMessage} {inbox : List ServerMessage}
    (h : ClientServerInv viewer { w with inbox := m :: inbox }) :
    ClientServerInv viewer { w.hear m with inbox := inbox } where
  room := h.room
  tribute := h.tribute
  user := (receive_userId w.client m).trans h.user
  picture := fun hseated hin =>
    ((h.picture hseated hin).read h.user).asked (List.subset_append_left ..)

/-- The message is read as often as `listen` has been called. -/
theorem ClientServerInv.read (h : ClientServerInv viewer w) (hread : w.read = some w') :
    ClientServerInv viewer w' := by
  unfold ClientServer.read at hread
  rcases hinbox : w.inbox with _ | ⟨m, inbox⟩ <;> rw [hinbox] at hread
  · cases hread
  cases hread
  have hagain : ∀ n, ((ClientServer.hear · m)^[n] { w with inbox := inbox }).inbox = inbox ∧
      ClientServerInv viewer
        { (ClientServer.hear · m)^[n] { w with inbox := inbox } with inbox := m :: inbox } := by
    intro n
    induction n with
    | zero => exact ⟨rfl, hinbox ▸ h⟩
    | succ n ih =>
      rw [Function.iterate_succ_apply']
      exact ⟨ih.1, ih.2.hearAgain⟩
  obtain ⟨hrest, hbefore⟩ := hagain w.listeners
  have hafter := hbefore.hear
  rw [Function.iterate_succ_apply']
  generalize (ClientServer.hear · m)^[w.listeners] { w with inbox := inbox } = w₁ at hrest hafter ⊢
  cases hrest
  exact hafter

theorem clientServerInv_step {op : ClientServerOp} {o : Unit} (h : ClientServerInv viewer w)
    (hperson : isBotPlayer viewer = false) (hne : viewer ≠ 0) (hcall : ClientServerCall viewer w op)
    (hcareful : op.Careful viewer w) (hstep : (clientServer viewer validate).step w op = some (w', o)) :
    ClientServerInv viewer w' := by
  obtain ⟨w₁, hnext, heq⟩ := Option.map_eq_some_iff.1 hstep
  cases heq
  cases op with
  | serve op =>
    change ClientServer.serve viewer w op = some _ at hnext
    obtain ⟨⟨t', out⟩, happly, rfl⟩ := Option.map_eq_some_iff.1 hnext
    exact h.served hperson hcall.1 (hcareful op rfl (t', out) happly) happly (fun _ => .inr) .inr
  | spectateTeammate playerId targetSeat =>
    cases hnext
    exact h.spectateTeammate playerId targetSeat
  | answer i σ =>
    obtain ⟨q, hq, hanswer⟩ := Option.bind_eq_some_iff.1 hnext
    refine h.answered hperson hne hq (fun o ho => hcareful o ?_) hanswer
    simpa [ClientServerOp.tableOp, hq] using ho
  | runNotice i =>
    obtain ⟨notice, -, rfl⟩ := Option.map_eq_some_iff.1 hnext
    exact h.told rfl rfl rfl rfl
      fun _ hin => report_noticeSent h hin notice
  | elsewhere i ms =>
    cases hnext
    refine ⟨h.room, h.tribute, h.user, fun hseated => ?_⟩
    have hfound : w.table.finds viewer = true := hseated.found
    exact absurd hfound (by rw [show w.table.finds viewer = false from hcall]; exact Bool.false_ne_true)
  | read => exact h.read hnext
  | tap t =>
    cases hnext
    have htapped := tapped validate w.client t
    exact ⟨h.room, h.tribute, htapped.userId.trans h.user,
      fun hseated hin => (h.picture hseated hin).tapped htapped⟩
  | listen =>
    cases hnext
    exact ⟨h.room, h.tribute, h.user, h.picture⟩

end Invariant

section Decide

variable (viewer : PlayerId)

instance (e : GameEngine) : Decidable (Ongoing e) := inferInstanceAs (Decidable (_ ∨ _ ∨ _))

instance (e : GameEngine) : Decidable (StillIn e viewer) :=
  inferInstanceAs (Decidable (∀ seat ∈ e.seatOf viewer,
    (e.state.players seat).hasFinished = false ∨ e.state.phase = .finished ∧ e.state.hands seat ≠ []))

instance (t : Table) : Decidable (t.Seated viewer) :=
  decidable_of_iff (t.finds viewer = true ∧ t.room.containsPlayer viewer = true)
    ⟨fun h => ⟨h.1, h.2⟩, fun h => ⟨h.found, h.member⟩⟩

instance (w : ClientServer) : Decidable w.Idle :=
  decidable_of_iff (w.inbox.isEmpty = true ∧ w.outbox.isEmpty = true ∧ w.notices.isEmpty = true)
    ⟨fun h => ⟨List.isEmpty_iff.1 h.1, List.isEmpty_iff.1 h.2.1, List.isEmpty_iff.1 h.2.2⟩,
      fun h => ⟨List.isEmpty_iff.2 h.inbox, List.isEmpty_iff.2 h.outbox, List.isEmpty_iff.2 h.notices⟩⟩

instance (outbox : List Request) : Decidable (PlayAsked outbox) := List.decidableBEx _ outbox

instance (w : ClientServer) : Decidable w.OutOfGame := inferInstanceAs (Decidable (_ → _))

instance (out : TableOut) : DecidablePred (TableOp.Granted viewer out)
  | .playCards .. => inferInstanceAs (Decidable (_ → _ ∧ _))
  | .submitTribute .. | .submitReturn .. => inferInstanceAs (Decidable (_ → _))
  | .joinRoom _ | .leaveRoom _ | .ready .. | .unready _ | .changeSeat .. | .setRoomOptions ..
  | .startGame .. | .pass .. | .requestDismiss _ | .voteDismiss .. | .runTask _ | .fireTurnTimer
  | .fireTributeTimer | .fillBots => isTrue trivial

instance (w : ClientServer) (op : TableOp) (t' : Table) (out : TableOut) :
    Decidable (w.ServedWell viewer op t' out) :=
  decidable_of_iff (op.Granted viewer out ∧
      (.startGame w.table.room.phase ∈ out.starts →
        w.table.room.engine.state.phase ≠ .tribute ∧ w.table.room.engine.state.phase ≠ .returnTribute) ∧
      (¬ w.table.Seated viewer → t'.Seated viewer → ¬ Ongoing w.table.room.engine ∧ w.OutOfGame))
    ⟨fun h => ⟨h.1, h.2.1, h.2.2⟩, fun h => ⟨h.granted, h.starts, h.enters⟩⟩

instance (w : ClientServer) (op : ClientServerOp) : Decidable (op.Careful viewer w) :=
  inferInstanceAs (Decidable (∀ o ∈ op.tableOp viewer w, ∀ a ∈ w.table.apply o,
    w.ServedWell viewer o a.1 a.2))

end Decide

/-- The client, and the answers to it. -/
def ClientServerOp.own : ClientServerOp → Bool
  | .serve _ | .spectateTeammate .. | .elsewhere .. => false
  | _ => true

theorem call_of_own {viewer : PlayerId} {w : ClientServer} {op : ClientServerOp} (h : op.own = true) :
    ClientServerCall viewer w op := by
  cases op with
  | serve _ | spectateTeammate _ _ | elsewhere _ _ => cases h
  | _ => trivial

/-- The owner of a room for one starts the match, and reads what it is told. -/
def soloClient : List ClientServerOp :=
  [.runNotice 0, .tap (.send .ready), .tap (.send .startGame), .answer 0 (Shuffle.stack []),
    .answer 0 (Shuffle.stack [])] ++ List.replicate 7 .read

/-- And plays a card. -/
def soloPlay : List ClientServerOp :=
  soloClient ++ [.tap (.playCards [0]), .answer 0 (Shuffle.stack []), .read, .read]

end Guandan
