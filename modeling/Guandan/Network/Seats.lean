import Guandan.Network.RoomPhases

/-!
# Who sits where

A room copies its members to the engine's seats in `startGame` only. Members come and go in any
phase, and `startNextRound` deals to the engine's seats as they are: so the members sit on the
engine's seats exactly as long as nobody leaves in the middle of a round and each next round begins
with everybody where the last one had them.
-/

namespace Guandan

open Room

/-- On every seat of the engine is the member of the room with that seat. -/
def MembersSeated (r : Room) : Prop :=
  ∀ i < r.engine.state.playerCount, ∃ p ∈ r.players,
    p.seatIndex = i ∧ p.id = (r.engine.state.players i).id

instance : DecidablePred MembersSeated := fun r =>
  inferInstanceAs (Decidable (∀ i < r.engine.state.playerCount, ∃ p ∈ r.players,
    p.seatIndex = i ∧ p.id = (r.engine.state.players i).id))

/-- In a match the room and the engine seat the same people. -/
def SeatsAgree (r : Room) : Prop := r.phase = .playing → MembersSeated r

instance : DecidablePred SeatsAgree := fun r =>
  inferInstanceAs (Decidable (r.phase = .playing → MembersSeated r))

/-- Nobody leaves during a round, and when the last one to get ready starts the next round, the
members sit where the engine has them. -/
def KeepsSeats (t : Table) : TableOp → Prop
  | .leaveRoom id => t.room.phase = .playing → t.finds id = false ∨
      t.room.containsPlayer id = false ∨ isBotPlayer id = true
  | .ready id _ => t.finds id = true → t.room.phase = .settlement →
      ((t.room.ready id).getD t.room).allReady = true → MembersSeated t.room
  | _ => True

/-! ### Places -/

section Places

variable {r r' : Room} {id : PlayerId} {e : GameEngine}

def RoomPlayer.place (p : RoomPlayer) : PlayerId × Nat := (p.id, p.seatIndex)

theorem membersSeated_iff : MembersSeated r ↔ ∀ i < r.engine.state.playerCount,
    ((r.engine.state.players i).id, i) ∈ r.players.map RoomPlayer.place := by
  refine forall₂_congr fun i _ => ?_
  rw [List.mem_map]
  refine exists_congr fun p => and_congr_right fun _ => ?_
  rw [RoomPlayer.place, Prod.mk.injEq, and_comm]

/-- Only the places of the members and the people on the engine's seats matter. -/
theorem membersSeated_congr
    (hplaces : r'.players.map RoomPlayer.place = r.players.map RoomPlayer.place)
    (hsame : SamePeople r.engine r'.engine) : MembersSeated r' ↔ MembersSeated r := by
  rw [membersSeated_iff, membersSeated_iff, hplaces, hsame.playerCount]
  exact forall₂_congr fun i _ => by rw [hsame.ids]

theorem membersSeated_course (h : MembersSeated r) (hcourse : Course r.engine e) {phase : RoomPhase} :
    MembersSeated { r with engine := e, phase := phase } := by
  refine (membersSeated_congr (r := r) ?_ ?_).2 h
  · rfl
  · exact hcourse.samePeople

theorem ready_places (r : Room) (id : PlayerId) :
    ((r.ready id).getD r).players.map RoomPlayer.place = r.players.map RoomPlayer.place := by
  unfold Room.ready
  split_ifs
  · rfl
  · rcases r.player? id with _ | p
    · rfl
    · exact map_modifyPlayer (f := fun p => { p with isReady := true }) (fun _ => rfl) id r.players

theorem unready_places (h : r.unready id = some r') :
    r'.players.map RoomPlayer.place = r.players.map RoomPlayer.place := by
  unfold Room.unready at h
  split_ifs at h
  obtain ⟨p, -, rfl⟩ := Option.map_eq_some_iff.1 h
  exact map_modifyPlayer (f := fun p => { p with isReady := false }) (fun _ => rfl) id r.players

theorem enterSettlement_places (r : Room) :
    r.enterSettlement.players.map RoomPlayer.place = r.players.map RoomPlayer.place := by
  show (r.players.map _).map RoomPlayer.place = _
  rw [List.map_map]
  rfl

/-- The round goes on without a member who has left. -/
theorem membersSeated_leave (hinv : RoomInv r) (hphase : r.phase = .playing)
    (h : MembersSeated r) : MembersSeated (r.leave id) ↔
      r.containsPlayer id = false ∨ isBotPlayer id = true := by
  rw [leave_eq]
  constructor
  · intro hleft
    by_contra hmember
    rw [not_or, Bool.not_eq_false, Bool.not_eq_true, containsPlayer_iff] at hmember
    obtain ⟨⟨p, hp, rfl⟩, hbot⟩ := hmember
    -- nobody else sits on the seat, and its own member is gone
    have hcount : r.engine.state.playerCount = r.config.maxPlayers := by
      refine hinv.playerCount fun hwait => ?_
      rcases hinv.ongoing hphase with hon | hon | hon
      all_goals exact absurd (hwait.symm.trans hon) nofun
    obtain ⟨q, hq, hseat, -⟩ := hleft p.seatIndex (hcount ▸ hinv.members.seat_lt p hp)
    obtain ⟨hmem, hne⟩ := List.mem_filter.1 hq
    have hsame : q = p := List.inj_on_of_nodup_map hinv.members.seats hmem hp hseat
    simp [hsame, hbot] at hne
  · intro hstays
    have hall : (r.players.filter fun p => isBotPlayer id || p.id != id) = r.players := by
      refine List.filter_eq_self.2 fun p hp => ?_
      rcases hstays with hno | hbot
      · have hne : p.id ≠ id := fun heq => by
          rw [containsPlayer_iff.2 ⟨p, hp, heq⟩] at hno
          cases hno
        simp [hne]
      · simp [hbot]
    rw [hall]
    exact h

end Places

/-! ### Steps and runs -/

section Steps

variable {t t' : Table} {op : TableOp} {out : TableOut} {r : Room} {starts : List RoundStart}

theorem handled_seats (hinv : RoomInv t.room) (hagree : SeatsAgree t.room)
    (h : Handled t op r starts) : SeatsAgree r ↔ KeepsSeats t op := by
  -- most steps keep the seats, and the condition asks nothing of them
  have hkeeps : SeatsAgree r → KeepsSeats t op → (SeatsAgree r ↔ KeepsSeats t op) :=
    fun h1 h2 => ⟨fun _ => h2, fun _ => h1⟩
  cases h with
  | stays hop =>
    refine hkeeps hagree ?_
    cases op <;> trivial
  | notFound hsender hfinds =>
    refine hkeeps hagree ?_
    cases op with
    | leaveRoom _ =>
      cases hsender
      exact fun _ => .inl hfinds
    | ready _ _ =>
      cases hsender
      exact fun hfound => absurd (hfinds.symm.trans hfound) nofun
    | _ => trivial
  | joined hjoin =>
    refine hkeeps (fun hphase i hi => ?_) trivial
    obtain ⟨p, -, rfl⟩ := join_cases hjoin
    obtain ⟨q, hq, hseat⟩ := hagree hphase i hi
    exact ⟨q, List.mem_append_left _ hq, hseat⟩
  | @left id hfinds =>
    have hphase : (t.room.leave id).phase = t.room.phase := by rw [leave_eq]
    have hiff := fun hplaying => @membersSeated_leave _ id hinv hplaying (hagree hplaying)
    constructor
    · exact fun h hplaying => .inr ((hiff hplaying).1 (h (hphase.trans hplaying)))
    · intro h hplaying
      rw [hphase] at hplaying
      rcases h hplaying with hno | hstays
      · exact absurd (hfinds.symm.trans hno) nofun
      · exact (hiff hplaying).2 hstays
  | @readied id σ r hready hno =>
    obtain ⟨-, hcourse, hphase⟩ := hinv.ready_getD id
    subst hready
    refine hkeeps (fun hplaying => ?_) fun _ hsettled hall => ?_
    · exact (membersSeated_congr (ready_places t.room id) hcourse.samePeople).2
        (hagree (hphase ▸ hplaying))
    · rcases hno with hno | hno
      · exact absurd (hphase.trans hsettled) hno
      · exact absurd (hall.symm.trans hno) nofun
  | @nextRound id σ r hfinds hstart =>
    obtain ⟨hready, hcourse, hphase⟩ := hinv.ready_getD id
    obtain ⟨hsettled, hall, -, e, hcourse', -, rfl⟩ := roomInv_startNextRound hready hstart
    have hiff : MembersSeated { ((t.room.ready id).getD t.room) with
        engine := e, phase := .playing } ↔ MembersSeated t.room :=
      membersSeated_congr (ready_places t.room id) (hcourse.trans hcourse').samePeople
    exact ⟨fun h _ _ _ => hiff.1 (h rfl), fun h _ =>
      hiff.2 (h hfinds (hphase.symm.trans hsettled) hall)⟩
  | unreadied hunready =>
    obtain ⟨-, hengine, hphase⟩ := hinv.unready hunready
    refine hkeeps (fun hplaying => ?_) trivial
    exact (membersSeated_congr (unready_places hunready) (hengine ▸ .refl _)).2
      (hagree (hphase ▸ hplaying))
  | moved hmove =>
    exact hkeeps (fun hplaying => absurd ((hinv.changeSeat hmove).2.2.symm.trans hplaying) nofun)
      trivial
  | optioned hset =>
    exact hkeeps (fun hplaying => absurd ((hinv.setEnableTribute hset).2.2.symm.trans hplaying)
      nofun) trivial
  | voted vote hop =>
    refine hkeeps hagree ?_
    cases op <;> trivial
  | notStarted _ => exact hkeeps hagree trivial
  | started _ _ hstart =>
    obtain ⟨hready, hnew, e, rfl, hplaying, hids⟩ := roomInv_startGame hinv hstart
    refine hkeeps (fun _ i hi => ?_) trivial
    have hfull : t.room.isFull = true := (Bool.and_eq_true_iff.1 hready).1
    have hcount : e.state.playerCount = t.room.config.maxPlayers :=
      hnew.playerCount (by simp [hplaying])
    obtain ⟨p, hp, hseat⟩ := hinv.members.seated_of_full hfull (hcount ▸ hi)
    exact ⟨p, hp, hseat, by rw [← hids p hp, hseat]⟩
  | played hop hphase hplayed =>
    have hseated := hagree hphase
    refine hkeeps ?_ (by cases op <;> trivial)
    cases hplayed with
    | goesOn hcourse _ => exact fun _ => membersSeated_course hseated hcourse
    | won _ _ => exact fun hplaying => absurd hplaying nofun
    | settled _ _ => exact fun hplaying => absurd hplaying nofun
    | @next e σ r' hcourse hover hstart =>
      obtain ⟨hsettled, hready⟩ := hinv.settle hcourse hover
      obtain ⟨-, -, -, e', hcourse', -, rfl⟩ := roomInv_startNextRound hsettled hstart
      refine fun _ => (membersSeated_congr (r := t.room) ?_ ?_).2 hseated
      · exact enterSettlement_places { t.room with engine := e }
      · exact (hready.trans hcourse').samePeople
  | tributed hop hphase hcourse _ =>
    refine hkeeps (fun _ => membersSeated_course (hagree hphase) hcourse) ?_
    cases op <;> trivial
  | filled hwait hpeople =>
    have hphase := (hinv.members.fillBots hpeople).2.2.2
    exact hkeeps (fun hplaying => absurd (hwait.symm.trans (hphase.symm.trans hplaying)) nofun)
      trivial

end Steps

/-- Along every run of a room the members sit on the engine's seats in every match exactly when each
step keeps the seats. -/
theorem seats_agree (roomId : RoomId) {ownerId : PlayerId} (howner : ownerId ≠ 0) (mode : String)
    {ops : List TableOp} (hok : table.Follows TableCall (Table.create roomId ownerId mode) ops) :
    table.Always (fun t => SeatsAgree t.room) (Table.create roomId ownerId mode) ops ↔
      table.EachStep (fun t op _ => KeepsSeats t op) (Table.create roomId ownerId mode) ops := by
  refine Machine.always_iff_eachStep (J := fun t : Table => RoomInv t.room)
    (fun _ _ _ _ hinv hop hstep => roomInv_step hinv hop hstep)
    (fun _ _ _ _ hinv hagree hop hstep => handled_seats hinv hagree (table_step hinv hop hstep))
    (roomInv_create roomId howner mode).1 (fun hplaying => ?_) hok
  exact absurd ((roomInv_create roomId howner mode).2.symm.trans hplaying) nofun

/-! ### A seat without a member -/

/-- The only person at the table leaves in the middle of the round. -/
def soloLeave : List TableOp := soloStart (Shuffle.stack []) ++ [.leaveRoom 1]

theorem soloLeave_follows : table.Follows TableCall (Table.create "room" 1 "solo") soloLeave :=
  follows_of_admitted rfl

theorem seats_agree_soloLeave :
    table.Always (fun t => SeatsAgree t.room) (Table.create "room" 1 "solo") soloLeave ↔
      table.EachStep (fun t op _ => KeepsSeats t op) (Table.create "room" 1 "solo") soloLeave :=
  seats_agree "room" (by decide) "solo" soloLeave_follows

theorem left_seat_plays_on :
    ¬ table.Always (fun t => SeatsAgree t.room) (Table.create "room" 1 "solo") soloLeave := by
  intro hall
  obtain ⟨t, hrun, hdisagree⟩ := Machine.exists_run_of_any (M := table)
    (s := Table.create "room" 1 "solo") (l := soloLeave)
    (P := fun t => ¬ SeatsAgree t.room) (by decide +kernel)
  exact hdisagree (hall.of_run hrun)

end Guandan
