import Guandan.Network.Hall
import Guandan.Network.TableSteps
import Guandan.Room.Membership

/-!
# Rooms and their members

`RoomManager` under the calls that the dispatcher makes: rooms are created and joined, their members
send requests, and a room that all agree to dismiss is removed. `lobby_step` says what each of these
makes of the listed rooms; on the way the map from players to rooms keeps saying who is a member of
which (`Registry`).
-/

namespace Guandan

open Room

inductive LobbyOp
  | createRoom (ownerId : PlayerId) (mode : String) (roomId : RoomId)
  | joinRoom (roomId : RoomId) (playerId : PlayerId)
  | request (playerId : PlayerId) (msg : RoomMessage) (σ : Shuffle)
  | removeRoom (roomId : RoomId)

/-- A registry and the calls on it; the answer says whether a room was made, entered or found. The
id of a new room is one that is not in use. -/
def lobby : Machine RoomManager LobbyOp Bool where
  step m
    | .createRoom ownerId mode roomId =>
      if (m.getRoom roomId).isSome then none
      else
        let made := m.createRoom ownerId mode roomId
        some (made.getD m, made.isSome)
    | .joinRoom roomId playerId =>
      let joined := m.joinRoom roomId playerId
      some (joined.getD m, joined.isSome)
    | .request playerId msg σ =>
      match m.findRoomByPlayer playerId with
      | none => some (m, false)
      | some h => (m.handleInRoom h playerId msg σ).map (·, true)
    | .removeRoom roomId => some (m.removeRoom roomId, (m.getRoom roomId).isSome)

/-- Requests come from people. -/
def LobbyCall (_ : RoomManager) : LobbyOp → Prop
  | .createRoom id _ _ | .joinRoom _ id | .request id _ _ => isBotPlayer id = false
  | .removeRoom _ => True

/-- Rooms are removed by their members only. -/
def LobbyRequest (m : RoomManager) (op : LobbyOp) : Prop :=
  LobbyCall m op ∧ ∀ roomId, op ≠ .removeRoom roomId

/-- The room with this id, if there is one. -/
def RoomManager.listed (m : RoomManager) (roomId : RoomId) : Option Room :=
  (m.rooms roomId).bind (m.made[·]?)

/-- The rooms that are listed, by their ids. -/
abbrev Listing := RoomId → Option Room

/-- The player is in none of the rooms. -/
def Nowhere (rooms : Listing) (id : PlayerId) : Prop :=
  ∀ roomId r, rooms roomId = some r → id ∉ r.humans

/-- What a call makes of the listed rooms. Who sends a request is in the room that it is about. -/
inductive LobbyStep (rooms : Listing) : LobbyOp → Listing → Prop
  | refused {op : LobbyOp} : (∀ id msg σ, op ≠ .request id msg σ) → LobbyStep rooms op rooms
  | notInRoom {id : PlayerId} {msg : RoomMessage} {σ : Shuffle} : Nowhere rooms id →
      LobbyStep rooms (.request id msg σ) rooms
  | created {id : PlayerId} {mode : String} {roomId : RoomId} : rooms roomId = none →
      Nowhere rooms id → LobbyStep rooms (.createRoom id mode roomId)
        (Function.update rooms roomId (some (Room.create roomId id mode)))
  | joined {id : PlayerId} {roomId : RoomId} {r r' : Room} : rooms roomId = some r →
      Nowhere rooms id → r.join id = some r' →
      LobbyStep rooms (.joinRoom roomId id) (Function.update rooms roomId (some r'))
  | left {id : PlayerId} {msg : RoomMessage} {σ : Shuffle} {roomId : RoomId} {r : Room} :
      rooms roomId = some r → id ∈ r.humans → msg.type = .leaveRoom →
      LobbyStep rooms (.request id msg σ) (Function.update rooms roomId
        (if (r.leave id).isEmpty then none else some (r.leave id)))
  | called {id : PlayerId} {msg : RoomMessage} {σ : Shuffle} {roomId : RoomId} {r r' : Room} :
      rooms roomId = some r → id ∈ r.humans → msg.type = .requestDismiss →
      r.requestDismiss id = some r' →
      LobbyStep rooms (.request id msg σ) (Function.update rooms roomId
        (if r'.dismissVote.allAgreed then none else some r'))
  | voted {id : PlayerId} {msg : RoomMessage} {σ : Shuffle} {roomId : RoomId} {r r' : Room} :
      rooms roomId = some r → id ∈ r.humans → msg.type = .voteDismiss →
      r.voteDismiss id msg.agree = some r' →
      LobbyStep rooms (.request id msg σ) (Function.update rooms roomId
        (if !msg.agree || r'.dismissVote.hasRejection then some r'.cancelDismissVote
          else if r'.dismissVote.allAgreed then none else some r'))
  | undisturbed {id : PlayerId} {msg : RoomMessage} {σ : Shuffle} {roomId : RoomId} {r r' : Room} :
      rooms roomId = some r → id ∈ r.humans → msg.type ≠ .leaveRoom →
      (msg.type = .voteDismiss → r.voteDismiss id msg.agree = none) → Undisturbed r r' →
      LobbyStep rooms (.request id msg σ) (Function.update rooms roomId (some r'))
  | removed {roomId : RoomId} {r : Room} : rooms roomId = some r →
      LobbyStep rooms (.removeRoom roomId) (Function.update rooms roomId none)

/-- Only one room changes. -/
theorem LobbyStep.changes_one {rooms rooms' : Listing} {op : LobbyOp}
    (hstep : LobbyStep rooms op rooms') : ∃ roomId x, rooms' = Function.update rooms roomId x := by
  cases hstep with
  | refused _ | notInRoom _ => exact ⟨"", rooms "", (Function.update_eq_self ..).symm⟩
  | created _ _ | joined _ _ _ | left _ _ _ | called _ _ _ _ | voted _ _ _ _
  | undisturbed _ _ _ _ _ | removed _ => exact ⟨_, _, rfl⟩

/-- A room that is gone after a step has gone alone. -/
theorem LobbyStep.gone {rooms rooms' : Listing} {op : LobbyOp} {roomId : RoomId} {r : Room}
    (hstep : LobbyStep rooms op rooms') (hroom : rooms roomId = some r)
    (hgone : rooms' roomId = none) : rooms' = Function.update rooms roomId none := by
  obtain ⟨roomId', x, rfl⟩ := hstep.changes_one
  by_cases heq : roomId = roomId'
  · subst heq
    rw [Function.update_self] at hgone
    rw [hgone]
  · rw [Function.update_of_ne heq, hroom] at hgone
    cases hgone

/-- A member who asks to leave does so. -/
theorem LobbyStep.leaves {rooms rooms' : Listing} {id : PlayerId} {msg : RoomMessage} {σ : Shuffle}
    {roomId : RoomId} {r : Room} (hstep : LobbyStep rooms (.request id msg σ) rooms')
    (htype : msg.type = .leaveRoom) (hroom : rooms roomId = some r) (hid : id ∈ r.humans)
    (hunique : ∀ roomId' r', rooms roomId' = some r' → id ∈ r'.humans → roomId' = roomId) :
    rooms' = Function.update rooms roomId
      (if (r.leave id).isEmpty then none else some (r.leave id)) := by
  cases hstep with
  | refused hop => exact absurd rfl (hop id msg σ)
  | notInRoom hnowhere => exact absurd hid (hnowhere roomId r hroom)
  | left hroom' hid' _ =>
    obtain rfl := hunique _ _ hroom' hid'
    rw [hroom, Option.some_inj] at hroom'
    rw [hroom']
  | called _ _ hother _ | voted _ _ hother _ =>
    rw [htype] at hother
    cases hother
  | undisturbed _ _ hother _ _ => exact absurd htype hother

/-- A vote that is recorded counts. -/
theorem LobbyStep.votes {rooms rooms' : Listing} {id : PlayerId} {msg : RoomMessage} {σ : Shuffle}
    {roomId : RoomId} {r r' : Room} (hstep : LobbyStep rooms (.request id msg σ) rooms')
    (htype : msg.type = .voteDismiss) (hroom : rooms roomId = some r) (hid : id ∈ r.humans)
    (hunique : ∀ roomId' r', rooms roomId' = some r' → id ∈ r'.humans → roomId' = roomId)
    (hvote : r.voteDismiss id msg.agree = some r') :
    rooms' = Function.update rooms roomId
      (if !msg.agree || r'.dismissVote.hasRejection then some r'.cancelDismissVote
        else if r'.dismissVote.allAgreed then none else some r') := by
  have hsame : ∀ {roomId' : RoomId} {r₁ : Room}, rooms roomId' = some r₁ → id ∈ r₁.humans →
      roomId' = roomId ∧ r₁ = r := by
    intro roomId' r₁ hroom' hid'
    obtain rfl := hunique _ _ hroom' hid'
    exact ⟨rfl, Option.some.inj (hroom'.symm.trans hroom)⟩
  cases hstep with
  | refused hop => exact absurd rfl (hop id msg σ)
  | notInRoom hnowhere => exact absurd hid (hnowhere roomId r hroom)
  | left _ _ hother | called _ _ hother _ =>
    rw [htype] at hother
    cases hother
  | voted hroom' hid' _ hvote' =>
    obtain ⟨rfl, rfl⟩ := hsame hroom' hid'
    rw [hvote, Option.some_inj] at hvote'
    rw [hvote']
  | undisturbed hroom' hid' _ hnone _ =>
    obtain ⟨rfl, rfl⟩ := hsame hroom' hid'
    rw [hnone htype] at hvote
    cases hvote

/-- All listed rooms have the property. -/
def Everywhere (Q : Room → Prop) (rooms : Listing) : Prop :=
  ∀ roomId r, rooms roomId = some r → Q r

theorem Everywhere.update {Q : Room → Prop} {rooms : Listing} {x : Option Room}
    (hQ : Everywhere Q rooms) (roomId : RoomId) (hx : ∀ r, x = some r → Q r) :
    Everywhere Q (Function.update rooms roomId x) := by
  intro roomId' r hr
  by_cases heq : roomId' = roomId
  · subst heq
    rw [Function.update_self] at hr
    exact hx r hr
  · rw [Function.update_of_ne heq] at hr
    exact hQ roomId' r hr

/-- What new rooms have and every change of a room keeps, all rooms keep. -/
theorem LobbyStep.everywhere {Q : Room → Prop} {rooms rooms' : Listing} {op : LobbyOp}
    (hstep : LobbyStep rooms op rooms') (hQ : Everywhere Q rooms)
    (hcreate : ∀ id mode roomId, op = .createRoom id mode roomId → Q (Room.create roomId id mode))
    (hjoin : ∀ id r r', r.join id = some r' → Q r → Q r')
    (hleave : ∀ id msg σ roomId r, op = .request id msg σ → msg.type = .leaveRoom →
      rooms roomId = some r → id ∈ r.humans → (r.leave id).isEmpty = false → Q r → Q (r.leave id))
    (hcall : ∀ id r r', r.requestDismiss id = some r' → r'.dismissVote.allAgreed = false →
      Q r → Q r')
    (hcancel : ∀ id agree r r', r.voteDismiss id agree = some r' → Q r → Q r'.cancelDismissVote)
    (hvote : ∀ id msg σ roomId r r', op = .request id msg σ → msg.type = .voteDismiss →
      rooms roomId = some r → id ∈ r.humans → msg.agree = true →
      r.voteDismiss id true = some r' → r'.dismissVote.hasRejection = false →
      r'.dismissVote.allAgreed = false → Q r → Q r')
    (hother : ∀ r r', Undisturbed r r' → Q r → Q r') : Everywhere Q rooms' := by
  cases hstep with
  | refused _ | notInRoom _ => exact hQ
  | created hnone _ =>
    refine hQ.update _ ?_
    rintro _ ⟨⟩
    exact hcreate _ _ _ rfl
  | joined hroom _ hr =>
    refine hQ.update _ ?_
    rintro _ ⟨⟩
    exact hjoin _ _ _ hr (hQ _ _ hroom)
  | left hroom hid htype =>
    refine hQ.update _ fun r' hr' => ?_
    split_ifs at hr' with hempty
    cases hr'
    exact hleave _ _ _ _ _ rfl htype hroom hid (eq_false_of_ne_true hempty) (hQ _ _ hroom)
  | called hroom _ _ hr =>
    refine hQ.update _ fun r' hr' => ?_
    split_ifs at hr' with hagreed
    cases hr'
    exact hcall _ _ _ hr (eq_false_of_ne_true hagreed) (hQ _ _ hroom)
  | voted hroom hid htype hr =>
    refine hQ.update _ fun r' hr' => ?_
    split_ifs at hr' with hrejected hagreed
    · cases hr'
      exact hcancel _ _ _ _ hr (hQ _ _ hroom)
    · cases hr'
      rw [Bool.not_eq_true, Bool.or_eq_false_iff, Bool.not_eq_false'] at hrejected
      rw [hrejected.1] at hr
      exact hvote _ _ _ _ _ _ rfl htype hroom hid hrejected.1 hr hrejected.2
        (eq_false_of_ne_true hagreed) (hQ _ _ hroom)
  | undisturbed hroom _ _ _ hr =>
    refine hQ.update _ ?_
    rintro _ ⟨⟩
    exact hother _ _ hr (hQ _ _ hroom)
  | removed _ =>
    refine hQ.update _ ?_
    rintro _ ⟨⟩

/-- The same for what only depends on who is in a room. -/
theorem LobbyStep.everywhere_members {Q : Room → Prop} {rooms rooms' : Listing} {op : LobbyOp}
    (hstep : LobbyStep rooms op rooms') (hQ : Everywhere Q rooms)
    (hcreate : ∀ id mode roomId, op = .createRoom id mode roomId → Q (Room.create roomId id mode))
    (hjoin : ∀ id r r', r.join id = some r' → Q r → Q r')
    (hleave : ∀ id msg σ roomId r, op = .request id msg σ → msg.type = .leaveRoom →
      rooms roomId = some r → id ∈ r.humans → (r.leave id).isEmpty = false → Q r → Q (r.leave id))
    (hsame : ∀ r r', SameMembers r r' → Q r → Q r') : Everywhere Q rooms' := by
  refine hstep.everywhere hQ hcreate hjoin hleave ?_ ?_ ?_ ?_
  · intro id r r' hcall _
    exact hsame r r' (sameMembers_requestDismiss hcall)
  · intro id agree r r' hvote
    exact hsame r _ ((sameMembers_voteDismiss hvote).trans ⟨rfl, rfl, rfl, rfl⟩)
  · intro id msg σ roomId r r' _ _ _ _ _ hvote _ _
    exact hsame r r' (sameMembers_voteDismiss hvote)
  · intro r r' hother
    exact hsame r r' hother.toSameMembers

/-- A request that is refused. -/
theorem LobbyStep.unchanged {rooms : Listing} {id : PlayerId} {msg : RoomMessage} {σ : Shuffle}
    {roomId : RoomId} {r : Room} (hroom : rooms roomId = some r) (hid : id ∈ r.humans)
    (hleave : msg.type ≠ .leaveRoom)
    (hvote : msg.type = .voteDismiss → r.voteDismiss id msg.agree = none) :
    LobbyStep rooms (.request id msg σ) rooms := by
  have hstep := LobbyStep.undisturbed (σ := σ) hroom hid hleave hvote (.refl r)
  rwa [← hroom, Function.update_eq_self] at hstep

/-! ### Requests about the match -/

namespace Table

variable {t t' : Table} {out : TableOut} {starts : List RoundStart} {σ : Shuffle} {id : PlayerId}
  {result : PlayResult}

theorem undisturbed_tryStartNextRound (h : t.tryStartNextRound σ = some (t', starts)) :
    Undisturbed t.room t'.room := by
  unfold tryStartNextRound at h
  split_ifs at h
  · cases h
    exact .refl _
  · obtain ⟨⟨r, started⟩, hstart, h⟩ := Option.bind_eq_some_iff.1 h
    dsimp only at h
    split_ifs at h <;> cases h
    · rw [onRoundStarted_room]
      exact undisturbed_startNextRound hstart
    · exact undisturbed_startNextRound hstart

theorem undisturbed_afterPlay (h : t.afterPlay result σ = some (t', starts)) :
    Undisturbed t.room t'.room := by
  unfold afterPlay onGameOver at h
  split_ifs at h
  · cases h
    exact ⟨⟨rfl, rfl, rfl, rfl⟩, rfl⟩
  · exact (undisturbed_enterSettlement t.room).trans (undisturbed_tryStartNextRound h)
  · cases h
    rw [scheduleTurnTimer_room]
    exact .refl _

theorem undisturbed_handleRoom {call : Option Room} {code : ErrorCode}
    (hcall : ∀ r, call = some r → Undisturbed t.room r)
    (h : t.handleRoom id call code = some (t', out)) : Undisturbed t.room t'.room := by
  unfold handleRoom at h
  split_ifs at h
  · cases h
    exact .refl _
  · rcases call with _ | r <;> cases h
    · exact .refl _
    · exact hcall r rfl

theorem undisturbed_handleReady (h : t.handleReady id σ = some (t', out)) :
    Undisturbed t.room t'.room := by
  unfold handleReady at h
  split_ifs at h
  · cases h
    exact .refl _
  · refine Undisturbed.trans ?_ (undisturbed_tryStartNextRound (accept_some h))
    rcases hready : t.room.ready id with _ | r
    · exact .refl _
    · exact undisturbed_ready hready

theorem undisturbed_handleStartGame (h : t.handleStartGame id σ = some (t', out)) :
    Undisturbed t.room t'.room := by
  unfold handleStartGame at h
  split_ifs at h
  · cases h
    exact .refl _
  · cases h
    exact .refl _
  · obtain ⟨⟨r, started⟩, hstart, h⟩ := Option.bind_eq_some_iff.1 h
    dsimp only at h
    split_ifs at h <;> cases h
    · rw [onRoundStarted_room]
      exact undisturbed_startGame hstart
    · exact undisturbed_startGame hstart

theorem undisturbed_handlePlayCards {turnId : Nat} {cards : List CardId}
    (h : t.handlePlayCards id turnId cards σ = some (t', out)) : Undisturbed t.room t'.room := by
  rcases handlePlayCards_cases h with ⟨rfl, -⟩ | ⟨-, -, -, -, e, result, -, -, hafter⟩
  · exact .refl _
  · have hset : Undisturbed t.room (t.setEngine e).cancelTurnTimer.room :=
      ⟨⟨rfl, rfl, rfl, rfl⟩, rfl⟩
    exact hset.trans (undisturbed_afterPlay hafter)

theorem undisturbed_handlePass {turnId : Nat} (h : t.handlePass id turnId = some (t', out)) :
    Undisturbed t.room t'.room := by
  rcases handlePass_cases h with ⟨rfl, -⟩ | ⟨-, -, -, e, result, -, -, rfl⟩
  · exact .refl _
  · rw [scheduleTurnTimer_room]
    exact ⟨⟨rfl, rfl, rfl, rfl⟩, rfl⟩

theorem undisturbed_handleSubmitTribute {cardId : CardId}
    (h : t.handleSubmitTribute id cardId = some (t', out)) : Undisturbed t.room t'.room := by
  rcases handleSubmitTribute_cases h with ⟨rfl, -⟩ | ⟨e, result, -, -, rfl, -⟩
  · exact .refl _
  · rw [continueTribute_room]
    exact ⟨⟨rfl, rfl, rfl, rfl⟩, rfl⟩

theorem undisturbed_handleSubmitReturn {cardId : CardId}
    (h : t.handleSubmitReturn id cardId = some (t', out)) : Undisturbed t.room t'.room := by
  rcases handleSubmitReturn_cases h with
    ⟨rfl, -⟩ | ⟨e, result, -, -, -, ⟨-, rfl⟩ | ⟨-, e', r', -, rfl⟩⟩
  · exact .refl _
  · rw [continueTribute_room]
    exact ⟨⟨rfl, rfl, rfl, rfl⟩, rfl⟩
  · rw [onTributePhaseCompleted, scheduleTurnTimer_room]
    exact ⟨⟨rfl, rfl, rfl, rfl⟩, rfl⟩

/-- A request about the match leaves members and vote alone. -/
theorem undisturbed_request {msg : RoomMessage} {op : TableOp} (hop : msg.request id σ = some op)
    (h : t.apply op = some (t', out)) : Undisturbed t.room t'.room := by
  unfold RoomMessage.request at hop
  split at hop <;> cases hop
  · exact undisturbed_handleReady h
  · exact undisturbed_handleRoom (fun _ => undisturbed_unready) h
  · exact undisturbed_handleRoom (fun _ => undisturbed_changeSeat) h
  · exact undisturbed_handleRoom (fun _ => undisturbed_setEnableTribute) h
  · exact undisturbed_handleStartGame h
  · exact undisturbed_handlePlayCards h
  · exact undisturbed_handlePass h
  · exact undisturbed_handleSubmitTribute h
  · exact undisturbed_handleSubmitReturn h

end Table

/-! ### The registry -/

/-- Every listed room exists and has the id under which it is listed, and a player's entry names the
room of which the player is a member. -/
structure Registry (m : RoomManager) : Prop where
  handle : ∀ {roomId h}, m.rooms roomId = some h → ∃ r, m.made[h]? = some r ∧ r.roomId = roomId
  bots : ∀ {roomId r}, m.listed roomId = some r → r.BotsById
  entry : ∀ {id roomId}, m.playerRoomMap id = some roomId ↔
    ∃ r, m.listed roomId = some r ∧ id ∈ r.humans

namespace Registry

variable {m m' : RoomManager} {id : PlayerId} {roomId : RoomId} {h : RoomHandle} {r r' : Room}

theorem empty : Registry {} where
  handle hrooms := by cases hrooms
  bots hlisted := by cases hlisted
  entry := by
    intro id roomId
    constructor
    · intro hentry
      cases hentry
    · rintro ⟨r, hlisted, -⟩
      cases hlisted

theorem listed_iff : m.listed roomId = some r ↔ ∃ h, m.rooms roomId = some h ∧ m.made[h]? = some r :=
  Option.bind_eq_some_iff

theorem listed_none (hm : Registry m) : m.listed roomId = none ↔ m.rooms roomId = none := by
  constructor
  · intro hlisted
    rcases hrooms : m.rooms roomId with _ | h
    · rfl
    · obtain ⟨r, hr, -⟩ := hm.handle hrooms
      rw [RoomManager.listed, hrooms, Option.bind_some, hr] at hlisted
      cases hlisted
  · intro hrooms
    rw [RoomManager.listed, hrooms, Option.bind_none]

theorem nowhere_iff (hm : Registry m) : Nowhere m.listed id ↔ m.playerRoomMap id = none := by
  rw [Option.eq_none_iff_forall_ne_some]
  constructor
  · intro hno roomId hentry
    obtain ⟨r, hlisted, hmem⟩ := hm.entry.1 hentry
    exact hno roomId r hlisted hmem
  · intro hno roomId r hlisted hmem
    exact hno roomId (hm.entry.2 ⟨r, hlisted, hmem⟩)

/-- A player is a member of one room at most. -/
theorem unique (hm : Registry m) {roomId' : RoomId} (hr : m.listed roomId = some r)
    (hid : id ∈ r.humans) (hr' : m.listed roomId' = some r') (hid' : id ∈ r'.humans) :
    roomId = roomId' :=
  Option.some.inj ((hm.entry.2 ⟨r, hr, hid⟩).symm.trans (hm.entry.2 ⟨r', hr', hid'⟩))

/-- It is enough to look at the one room that a call changes. -/
theorem change {x : Option Room} (hm : Registry m)
    (hhandle : ∀ roomId h, m'.rooms roomId = some h → ∃ r, m'.made[h]? = some r ∧ r.roomId = roomId)
    (hlisted : m'.listed = Function.update m.listed roomId x) (hbots : ∀ r, x = some r → r.BotsById)
    (hentry : ∀ id, m'.playerRoomMap id = some roomId ↔ ∃ r, x = some r ∧ id ∈ r.humans)
    (hothers : ∀ id roomId', roomId' ≠ roomId →
      (m'.playerRoomMap id = some roomId' ↔ m.playerRoomMap id = some roomId')) : Registry m' where
  handle hrooms := hhandle _ _ hrooms
  bots {roomId' r} hr := by
    rw [hlisted] at hr
    by_cases heq : roomId' = roomId
    · subst heq
      rw [Function.update_self] at hr
      exact hbots r hr
    · rw [Function.update_of_ne heq] at hr
      exact hm.bots hr
  entry {id roomId'} := by
    by_cases heq : roomId' = roomId
    · subst heq
      rw [hlisted, Function.update_self]
      exact hentry id
    · rw [hlisted, Function.update_of_ne heq, hothers id roomId' heq]
      exact hm.entry

/-! ### The calls -/

theorem listed_erase (m : RoomManager) (roomId : RoomId) (entries : PlayerId → Option RoomId) :
    RoomManager.listed { m with
      rooms := Function.update m.rooms roomId none
      playerRoomMap := entries } = Function.update m.listed roomId none := by
  funext roomId'
  unfold RoomManager.listed
  dsimp only
  by_cases heq : roomId' = roomId
  · subst heq
    rw [Function.update_self, Function.update_self]
    rfl
  · rw [Function.update_of_ne heq, Function.update_of_ne heq]

/-- The room that a player is in is erased if it is empty. -/
theorem removePlayerFromRoom_eq (hbot : isBotPlayer id = false)
    (hentry : m.playerRoomMap id = some roomId) (hroom : m.listed roomId = some r) :
    m.removePlayerFromRoom id = { m with
      rooms := if r.isEmpty then Function.update m.rooms roomId none else m.rooms
      playerRoomMap := Function.update m.playerRoomMap id none } := by
  unfold RoomManager.removePlayerFromRoom
  rw [if_neg (by rw [hbot]; exact Bool.false_ne_true), hentry]
  dsimp only
  rw [show (m.rooms roomId).bind (m.made[·]?) = some r from hroom, Option.any_some]

section Calls

variable (hm : Registry m)
include hm

theorem roomId_eq (hrooms : m.rooms roomId = some h) (hr : m.made[h]? = some r) :
    r.roomId = roomId := by
  obtain ⟨r₁, hr₁, hid⟩ := hm.handle hrooms
  rw [hr, Option.some_inj] at hr₁
  rw [hr₁, hid]

theorem lt_made (hrooms : m.rooms roomId = some h) : h < m.made.length := by
  obtain ⟨r, hr, -⟩ := hm.handle hrooms
  exact (List.getElem?_eq_some_iff.1 hr).1

/-- Two ids do not stand for one room. -/
theorem handle_inj {roomId' : RoomId} (hrooms : m.rooms roomId = some h)
    (hrooms' : m.rooms roomId' = some h) : roomId' = roomId := by
  obtain ⟨r, hr, rfl⟩ := hm.handle hrooms
  obtain ⟨r', hr', rfl⟩ := hm.handle hrooms'
  rw [hr, Option.some_inj] at hr'
  rw [hr']

theorem listed_setRoom (hrooms : m.rooms roomId = some h) (r' : Room) :
    (m.setRoom h r').listed = Function.update m.listed roomId (some r') := by
  funext roomId'
  by_cases heq : roomId' = roomId
  · subst heq
    rw [Function.update_self]
    refine listed_iff.2 ⟨h, hrooms, ?_⟩
    exact List.getElem?_set_self (hm.lt_made hrooms)
  · rw [Function.update_of_ne heq, RoomManager.listed, RoomManager.listed]
    show (m.rooms roomId').bind _ = _
    rcases hrooms' : m.rooms roomId' with _ | h'
    · rfl
    · have hne : h ≠ h' := by
        rintro rfl
        exact heq (hm.handle_inj hrooms hrooms')
      exact List.getElem?_set_ne hne

theorem handle_setRoom (hrooms : m.rooms roomId = some h) (hid : r'.roomId = roomId)
    {roomId' : RoomId} {h' : RoomHandle} (hrooms' : m.rooms roomId' = some h') :
    ∃ r, (m.made.set h r')[h']? = some r ∧ r.roomId = roomId' := by
  by_cases heq : h = h'
  · subst heq
    refine ⟨r', List.getElem?_set_self (hm.lt_made hrooms), ?_⟩
    rw [hid, hm.handle_inj hrooms hrooms']
  · rw [List.getElem?_set_ne heq]
    exact hm.handle hrooms'

/-- The members of a room stay the same. -/
theorem setRoom (hrooms : m.rooms roomId = some h) (hr : m.made[h]? = some r)
    (hsame : SameMembers r r') : Registry (m.setRoom h r') := by
  have hlisted := listed_iff.2 ⟨h, hrooms, hr⟩
  have hid : r'.roomId = roomId := hsame.roomId.trans (hm.roomId_eq hrooms hr)
  refine hm.change (fun _ _ => hm.handle_setRoom hrooms hid) (hm.listed_setRoom hrooms r') ?_
    (fun id => ?_) fun _ _ _ => Iff.rfl
  · rintro _ ⟨⟩
    exact hsame.botsById (hm.bots hlisted)
  · refine hm.entry.trans ?_
    rw [hlisted]
    simp [hsame.humans]

theorem createRoom {mode : String} (hbot : isBotPlayer id = false)
    (hfree : m.rooms roomId = none) (h : m.createRoom id mode roomId = some m') :
    Nowhere m.listed id ∧ Registry m' ∧
      m'.listed = Function.update m.listed roomId (some (Room.create roomId id mode)) := by
  obtain ⟨hnone, hsome⟩ := Option.ite_none_left_eq_some.1 h
  rw [Option.not_isSome_iff_eq_none] at hnone
  obtain ⟨hhumans, hbots, hroomId, -, -⟩ := create_spec roomId mode hbot
  have hlisted : m'.listed = Function.update m.listed roomId (some (Room.create roomId id mode)) := by
    cases hsome
    funext roomId'
    unfold RoomManager.listed
    dsimp only
    by_cases heq : roomId' = roomId
    · subst heq
      rw [Function.update_self, Function.update_self]
      exact List.getElem?_concat_length
    · rw [Function.update_of_ne heq, Function.update_of_ne heq]
      rcases hrooms' : m.rooms roomId' with _ | h'
      · rfl
      · exact List.getElem?_append_left (hm.lt_made hrooms')
  refine ⟨hm.nowhere_iff.2 hnone, hm.change ?_ hlisted ?_ (fun id' => ?_) fun id' roomId' hne => ?_,
    hlisted⟩
  · intro roomId' h' hrooms'
    cases hsome
    dsimp only at hrooms'
    by_cases heq : roomId' = roomId
    · subst heq
      rw [Function.update_self] at hrooms'
      cases hrooms'
      exact ⟨_, List.getElem?_concat_length, hroomId⟩
    · rw [Function.update_of_ne heq] at hrooms'
      dsimp only
      rw [List.getElem?_append_left (hm.lt_made hrooms')]
      exact hm.handle hrooms'
  · rintro _ ⟨⟩
    exact hbots
  · cases hsome
    dsimp only
    by_cases heq : id' = id
    · subst heq
      simp [hhumans]
    · rw [Function.update_of_ne heq, hm.entry, hm.listed_none.2 hfree]
      simp [hhumans, heq]
  · cases hsome
    dsimp only
    by_cases heq : id' = id
    · subst heq
      rw [Function.update_self, hnone]
      simp [Ne.symm hne]
    · rw [Function.update_of_ne heq]

theorem joinRoom (h : m.joinRoom roomId id = some m') :
    Nowhere m.listed id ∧ Registry m' ∧ ∃ r r', m.listed roomId = some r ∧ r.join id = some r' ∧
      m'.listed = Function.update m.listed roomId (some r') := by
  obtain ⟨hnone, hsome⟩ := Option.ite_none_left_eq_some.1 h
  rw [Option.not_isSome_iff_eq_none] at hnone
  obtain ⟨h', hrooms, hsome⟩ := Option.bind_eq_some_iff.1 hsome
  obtain ⟨r, hr, hsome⟩ := Option.bind_eq_some_iff.1 hsome
  obtain ⟨r', hjoin, hsome⟩ := Option.bind_eq_some_iff.1 hsome
  have hroom := listed_iff.2 ⟨h', hrooms, hr⟩
  obtain ⟨-, -, hhumans, -, hbots, hid, -, -⟩ := join_spec hjoin
  have hid := hid.trans (hm.roomId_eq hrooms hr)
  have hlisted : m'.listed = Function.update m.listed roomId (some r') := by
    cases hsome
    exact hm.listed_setRoom hrooms r'
  refine ⟨hm.nowhere_iff.2 hnone, hm.change ?_ hlisted ?_ (fun id' => ?_) fun id' roomId' hne => ?_,
    r, r', hroom, hjoin, hlisted⟩
  · cases hsome
    exact fun _ _ => hm.handle_setRoom hrooms hid
  · rintro _ ⟨⟩
    exact hbots (hm.bots hroom)
  · cases hsome
    dsimp only
    by_cases heq : id' = id
    · subst heq
      simp [hhumans]
    · rw [Function.update_of_ne heq, hm.entry, hroom]
      simp [hhumans, heq]
  · cases hsome
    dsimp only
    by_cases heq : id' = id
    · subst heq
      rw [Function.update_self, hnone]
      simp [Ne.symm hne]
    · rw [Function.update_of_ne heq]

theorem handleLeaveRoom (hbot : isBotPlayer id = false) (hentry : m.playerRoomMap id = some roomId)
    (hrooms : m.rooms roomId = some h) (hr : m.made[h]? = some r) :
    Registry (m.handleLeaveRoom h r id) ∧ (m.handleLeaveRoom h r id).listed =
      Function.update m.listed roomId
        (if (r.leave id).isEmpty then none else some (r.leave id)) := by
  have hroom := listed_iff.2 ⟨h, hrooms, hr⟩
  obtain ⟨hhumans, -, hbots, hid, -, -⟩ := leave_spec (r := r) hbot
  have hid := hid.trans (hm.roomId_eq hrooms hr)
  have hset := hm.listed_setRoom hrooms (r.leave id)
  have hleft : m.handleLeaveRoom h r id =
      { rooms := if (r.leave id).isEmpty then Function.update m.rooms roomId none else m.rooms
        playerRoomMap := Function.update m.playerRoomMap id none
        made := m.made.set h (r.leave id) } :=
    removePlayerFromRoom_eq (m := m.setRoom h (r.leave id)) hbot hentry
      (by rw [hset, Function.update_self])
  have hlisted : (m.handleLeaveRoom h r id).listed = Function.update m.listed roomId
      (if (r.leave id).isEmpty then none else some (r.leave id)) := by
    rw [hleft]
    split_ifs
    · exact (listed_erase (m.setRoom h (r.leave id)) ..).trans (by rw [hset, Function.update_idem])
    · exact hset
  rw [hleft] at hlisted ⊢
  refine ⟨hm.change ?_ hlisted ?_ ?_ ?_, hlisted⟩
  · intro roomId' h' hrooms'
    refine hm.handle_setRoom hrooms hid ?_
    dsimp only at hrooms'
    split_ifs at hrooms'
    · by_cases heq : roomId' = roomId
      · subst heq
        rw [Function.update_self] at hrooms'
        cases hrooms'
      · rwa [Function.update_of_ne heq] at hrooms'
    · exact hrooms'
  · intro r' hr'
    split_ifs at hr'
    cases hr'
    exact hbots (hm.bots hroom)
  · intro id'
    dsimp only
    by_cases heq : id' = id
    · subst heq
      simp [hhumans]
    · rw [Function.update_of_ne heq, hm.entry, hroom]
      by_cases hempty : (r.leave id).isEmpty = true
      · have hnobody := humans_of_isEmpty hempty
        rw [hhumans, List.filter_eq_nil_iff] at hnobody
        simp only [if_pos hempty, Option.some.injEq, exists_eq_left', reduceCtorEq, false_and,
          exists_false, iff_false]
        exact fun hmem => hnobody id' hmem (by simpa using heq)
      · rw [if_neg hempty]
        simp [hhumans, heq]
  · intro id' roomId' hne
    dsimp only
    by_cases heq : id' = id
    · subst heq
      rw [Function.update_self, hentry]
      simp [Ne.symm hne]
    · rw [Function.update_of_ne heq]

theorem removeRoom (hroom : m.listed roomId = some r) :
    Registry (m.removeRoom roomId) ∧
      (m.removeRoom roomId).listed = Function.update m.listed roomId none := by
  obtain ⟨h, hrooms, hr⟩ := listed_iff.1 hroom
  have hmem : ∀ id, ((m.made[h]?).any fun r => r.containsPlayer id && !isBotPlayer id) = true ↔
      id ∈ r.humans := by
    intro id
    rw [hr, Option.any_some, mem_humans (hm.bots hroom), Bool.and_eq_true, Bool.not_eq_true']
  have hremoved : m.removeRoom roomId = { m with
      rooms := Function.update m.rooms roomId none
      playerRoomMap := fun id => if id ∈ r.humans then none else m.playerRoomMap id } := by
    unfold RoomManager.removeRoom
    rw [hrooms]
    dsimp only
    simp only [hmem]
  have hlisted : (m.removeRoom roomId).listed = Function.update m.listed roomId none := by
    rw [hremoved]
    exact listed_erase ..
  rw [hremoved] at hlisted ⊢
  refine ⟨hm.change ?_ hlisted ?_ ?_ ?_, hlisted⟩
  · intro roomId' h' hrooms'
    dsimp only at hrooms'
    by_cases heq : roomId' = roomId
    · subst heq
      rw [Function.update_self] at hrooms'
      cases hrooms'
    · rw [Function.update_of_ne heq] at hrooms'
      exact hm.handle hrooms'
  · intro r' hr'
    cases hr'
  · intro id
    dsimp only
    split_ifs with hid
    · simp
    · rw [hm.entry, hroom]
      simp [hid]
  · intro id roomId' hne
    dsimp only
    split_ifs with hid
    · rw [hm.entry.2 ⟨r, hroom, hid⟩]
      simp [Ne.symm hne]
    · rfl

theorem afterVote (hrooms : m.rooms roomId = some h) (hr : m.made[h]? = some r)
    (hsame : SameMembers r r') : Registry (m.afterVote h r') ∧ (m.afterVote h r').listed =
      Function.update m.listed roomId (if r'.dismissVote.allAgreed then none else some r') := by
  have hset := hm.listed_setRoom hrooms r'
  have hm' := hm.setRoom hrooms hr hsame
  unfold RoomManager.afterVote
  split_ifs
  · rw [hsame.roomId, hm.roomId_eq hrooms hr]
    obtain ⟨hremoved, hlisted⟩ := hm'.removeRoom (by rw [hset, Function.update_self])
    exact ⟨hremoved, by rw [hlisted, hset, Function.update_idem]⟩
  · exact ⟨hm', hset⟩

theorem handleRequestDismiss {msg : RoomMessage} {σ : Shuffle}
    (hrooms : m.rooms roomId = some h) (hr : m.made[h]? = some r) (hid : id ∈ r.humans)
    (htype : msg.type = .requestDismiss) : Registry (m.handleRequestDismiss h r id) ∧
      LobbyStep m.listed (.request id msg σ) (m.handleRequestDismiss h r id).listed := by
  have hroom := listed_iff.2 ⟨h, hrooms, hr⟩
  unfold RoomManager.handleRequestDismiss
  rcases hcall : r.requestDismiss id with _ | r' <;> dsimp only
  · exact ⟨hm, .unchanged hroom hid (by simp [htype]) (by simp [htype])⟩
  · obtain ⟨hm', hlisted⟩ := hm.afterVote hrooms hr (sameMembers_requestDismiss hcall)
    rw [hlisted]
    exact ⟨hm', .called hroom hid htype hcall⟩

theorem handleVoteDismiss {msg : RoomMessage} {σ : Shuffle}
    (hrooms : m.rooms roomId = some h) (hr : m.made[h]? = some r) (hid : id ∈ r.humans)
    (htype : msg.type = .voteDismiss) : Registry (m.handleVoteDismiss h r id msg.agree) ∧
      LobbyStep m.listed (.request id msg σ) (m.handleVoteDismiss h r id msg.agree).listed := by
  have hroom := listed_iff.2 ⟨h, hrooms, hr⟩
  have hrefused : r.voteDismiss id msg.agree = none →
      LobbyStep m.listed (.request id msg σ) m.listed := fun hnone =>
    .unchanged hroom hid (by simp [htype]) fun _ => hnone
  unfold RoomManager.handleVoteDismiss
  split_ifs with hactive
  · refine ⟨hm, hrefused ?_⟩
    rw [Room.voteDismiss, DismissVote.recordVote, if_pos hactive]
    exact ite_self _
  rcases hvote : r.voteDismiss id msg.agree with _ | r' <;> dsimp only
  · exact ⟨hm, hrefused hvote⟩
  have hsame := sameMembers_voteDismiss hvote
  have hstep := LobbyStep.voted (σ := σ) hroom hid htype hvote
  by_cases hrejected : (!msg.agree || r'.dismissVote.hasRejection) = true
  · rw [if_pos hrejected] at hstep ⊢
    have hcancelled : SameMembers r r'.cancelDismissVote := hsame.trans ⟨rfl, rfl, rfl, rfl⟩
    exact ⟨hm.setRoom hrooms hr hcancelled, by rwa [hm.listed_setRoom hrooms]⟩
  · rw [if_neg hrejected] at hstep ⊢
    obtain ⟨hm', hlisted⟩ := hm.afterVote hrooms hr hsame
    exact ⟨hm', by rwa [hlisted]⟩

theorem handleInRoom {msg : RoomMessage} {σ : Shuffle} (hbot : isBotPlayer id = false)
    (hentry : m.playerRoomMap id = some roomId) (hrooms : m.rooms roomId = some h)
    (hin : m.handleInRoom h id msg σ = some m') :
    Registry m' ∧ LobbyStep m.listed (.request id msg σ) m'.listed := by
  obtain ⟨r, hr, hin⟩ := Option.bind_eq_some_iff.1 hin
  have hroom := listed_iff.2 ⟨h, hrooms, hr⟩
  have hid : id ∈ r.humans := by
    obtain ⟨r₁, hr₁, hid⟩ := hm.entry.1 hentry
    rw [hroom, Option.some_inj] at hr₁
    rwa [hr₁]
  split at hin
  case h_1 htype =>
    cases hin
    obtain ⟨hm', hlisted⟩ := hm.handleLeaveRoom hbot hentry hrooms hr
    rw [hlisted]
    exact ⟨hm', .left hroom hid htype⟩
  case h_2 htype =>
    cases hin
    exact hm.handleRequestDismiss hrooms hr hid htype
  case h_3 htype =>
    cases hin
    exact hm.handleVoteDismiss hrooms hr hid htype
  case h_4 hleave _ hvote =>
    rcases hop : msg.request id σ with _ | op <;> rw [hop] at hin
    · cases hin
      exact ⟨hm, .unchanged hroom hid hleave fun heq => absurd heq hvote⟩
    · obtain ⟨⟨t, out⟩, happly, hin⟩ := Option.bind_eq_some_iff.1 hin
      cases hin
      have hsame := Table.undisturbed_request hop happly
      refine ⟨hm.setRoom hrooms hr hsame.toSameMembers, ?_⟩
      rw [hm.listed_setRoom hrooms]
      exact .undisturbed hroom hid hleave (fun heq => absurd heq hvote) hsame

end Calls

end Registry

/-- Each call keeps the registry, and does to the listed rooms what `LobbyStep` says. -/
theorem lobby_step {m m' : RoomManager} {op : LobbyOp} {answer : Bool} (hm : Registry m)
    (hok : LobbyCall m op) (hstep : lobby.step m op = some (m', answer)) :
    Registry m' ∧ LobbyStep m.listed op m'.listed := by
  cases op with
  | createRoom id mode roomId =>
    simp only [lobby] at hstep
    split_ifs at hstep with hused
    rw [RoomManager.getRoom, Option.not_isSome_iff_eq_none] at hused
    cases hstep
    rcases hcreate : m.createRoom id mode roomId with _ | m₁
    · exact ⟨hm, .refused (by simp)⟩
    · obtain ⟨hnowhere, hm', hlisted⟩ := hm.createRoom hok hused hcreate
      rw [Option.getD_some, hlisted]
      exact ⟨hm', .created (hm.listed_none.2 hused) hnowhere⟩
  | joinRoom roomId id =>
    simp only [lobby] at hstep
    cases hstep
    rcases hjoin : m.joinRoom roomId id with _ | m₁
    · exact ⟨hm, .refused (by simp)⟩
    · obtain ⟨hnowhere, hm', r, r', hroom, hr', hlisted⟩ := hm.joinRoom hjoin
      rw [Option.getD_some, hlisted]
      exact ⟨hm', .joined hroom hnowhere hr'⟩
  | request id msg σ =>
    simp only [lobby, RoomManager.findRoomByPlayer] at hstep
    rcases hentry : m.playerRoomMap id with _ | roomId <;> rw [hentry] at hstep
    · cases hstep
      exact ⟨hm, .notInRoom (hm.nowhere_iff.2 hentry)⟩
    · obtain ⟨r, hroom, -⟩ := hm.entry.1 hentry
      obtain ⟨h, hrooms, -⟩ := Registry.listed_iff.1 hroom
      rw [Option.bind_some, hrooms] at hstep
      obtain ⟨m₁, hin, heq⟩ := Option.map_eq_some_iff.1 hstep
      cases heq
      exact hm.handleInRoom hok hentry hrooms hin
  | removeRoom roomId =>
    simp only [lobby] at hstep
    cases hstep
    rcases hroom : m.listed roomId with _ | r
    · have hsame : m.removeRoom roomId = m := by
        rw [RoomManager.removeRoom, hm.listed_none.1 hroom]
      rw [hsame]
      exact ⟨hm, .refused (by simp)⟩
    · obtain ⟨hm', hlisted⟩ := hm.removeRoom hroom
      rw [hlisted]
      exact ⟨hm', .removed hroom⟩

/-- A call of a person that is no removal, wherever it is made. -/
def LobbyOp.requested : LobbyOp → Bool
  | .createRoom id _ _ | .joinRoom _ id | .request id _ _ => !isBotPlayer id
  | .removeRoom _ => false

theorem lobbyRequest_of_requested {op : LobbyOp} (h : op.requested = true) (m : RoomManager) :
    LobbyRequest m op := by
  cases op with
  | removeRoom roomId => cases h
  | _ =>
    rw [LobbyOp.requested, Bool.not_eq_true'] at h
    exact ⟨h, fun _ heq => nomatch heq⟩

theorem follows_of_requested {m : RoomManager} {ops : List LobbyOp}
    (h : ops.all LobbyOp.requested = true) : lobby.Follows LobbyRequest m ops :=
  Machine.Follows.of_forall fun op hop m => lobbyRequest_of_requested (List.all_eq_true.1 h op hop) m

theorem calls_of_requested {m : RoomManager} {ops : List LobbyOp}
    (h : ops.all LobbyOp.requested = true) : lobby.Follows LobbyCall m ops :=
  Machine.Follows.of_forall fun op hop m =>
    (lobbyRequest_of_requested (List.all_eq_true.1 h op hop) m).1

theorem Registry.of_requests {m : RoomManager} {ops : List LobbyOp}
    (h : ops.all LobbyOp.requested = true) (hrun : lobby.run {} ops = some m) : Registry m :=
  (Machine.reachable_of_run (calls_of_requested h) hrun).invariant .empty
    fun _ _ _ _ hm hok hstep => (lobby_step hm hok hstep).1

end Guandan
