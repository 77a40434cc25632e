import Guandan.Network.TableSteps

/-!
# The phases of a room

A match is to start in WAITING and a round in SETTLEMENT, a late `start_game` is to change nothing,
and FINISHED is to be the end. `Room::startNextRound` checks the phase, `Room::startGame` does not:
so all of it holds exactly as long as the owner of a room where everybody is ready sends no late
`start_game`.
-/

namespace Guandan

open Room

/-- What the phases of a room promise of a step. -/
structure Lawful (t : Table) (op : TableOp) (out : TableOut) (t' : Table) : Prop where
  starts : ∀ start ∈ out.starts, start = .startGame .waiting ∨ start = .startNextRound .settlement
  late : ∀ id σ, op = .startGame id σ →
    t.room.phase = .playing ∨ t.room.phase = .settlement ∨ t.room.phase = .finished →
    t'.room = t.room
  terminal : t.room.phase = .finished → t'.room.phase = .finished

/-- A `start_game` comes in WAITING, or it does not come from the owner of a room that finds the
owner in it and everybody ready. -/
def StartsInTime (t : Table) (op : TableOp) : Prop :=
  ∀ id σ, op = .startGame id σ → t.room.phase = .waiting ∨ t.finds id = false ∨
    t.room.ownerId ≠ id ∨ t.room.allReady = false

section Steps

variable {t t' : Table} {op : TableOp} {out : TableOut} {r r' : Room} {starts : List RoundStart}

theorem played_starts (h : Played r r' starts) :
    ∀ start ∈ starts, start = .startNextRound .settlement := by
  cases h <;> simp

/-- Whatever starts no match respects the phases. -/
theorem handled_phases (hinv : RoomInv t.room) (h : Handled t op r starts)
    (hno : ∀ id σ, op ≠ .startGame id σ) :
    (∀ start ∈ starts, start = .startNextRound .settlement) ∧
      (t.room.phase = .finished → r.phase = .finished) := by
  cases h with
  | stays _ => exact ⟨by simp, id⟩
  | notFound _ _ => exact ⟨by simp, id⟩
  | joined hjoin =>
    obtain ⟨p, -, rfl⟩ := join_cases hjoin
    exact ⟨by simp, id⟩
  | left _ =>
    rw [leave_eq]
    exact ⟨by simp, id⟩
  | readied hready _ => exact ⟨by simp, fun hphase => by rw [hready, (hinv.ready_getD _).2.2, hphase]⟩
  | nextRound _ hstart =>
    refine ⟨by simp, fun hphase => ?_⟩
    have hsettled := (roomInv_startNextRound (hinv.ready_getD _).1 hstart).1
    rw [(hinv.ready_getD _).2.2, hphase] at hsettled
    cases hsettled
  | unreadied hunready => exact ⟨by simp, (hinv.unready hunready).2.2.trans⟩
  | moved hmove => exact ⟨by simp, fun hphase =>
      absurd (hphase.symm.trans (hinv.changeSeat hmove).2.1) nofun⟩
  | optioned hset => exact ⟨by simp, fun hphase =>
      absurd (hphase.symm.trans (hinv.setEnableTribute hset).2.1) nofun⟩
  | voted vote _ => exact ⟨by simp, id⟩
  | notStarted _ => exact absurd rfl (hno _ _)
  | started _ _ _ => exact absurd rfl (hno _ _)
  | played _ hplaying hplayed => exact ⟨played_starts hplayed, fun hphase =>
      absurd (hphase.symm.trans hplaying) nofun⟩
  | tributed _ hplaying _ _ => exact ⟨by simp, fun hphase =>
      absurd (hphase.symm.trans hplaying) nofun⟩
  | filled hwait _ => exact ⟨by simp, fun hphase => absurd (hphase.symm.trans hwait) nofun⟩

/-- A `start_game` that starts no match leaves the room alone; from the owner of a room where
everybody is ready it starts one, in any phase. -/
theorem handled_startGame {id : PlayerId} {σ : Shuffle} (hinv : RoomInv t.room)
    (h : Handled t (.startGame id σ) r starts) :
    (r = t.room ∧ starts = [] ∧
      (t.finds id = false ∨ t.room.ownerId ≠ id ∨ t.room.allReady = false)) ∨
    (starts = [.startGame t.room.phase] ∧ t.finds id = true ∧ t.room.ownerId = id ∧
      t.room.allReady = true) := by
  cases h with
  | stays hop => exact hop.elim
  | notFound hsender hfinds =>
    cases hsender
    exact .inl ⟨rfl, rfl, .inl hfinds⟩
  | voted _ hop => exact hop.elim
  | notStarted hno => exact .inl ⟨rfl, rfl, .inr hno⟩
  | started hfinds howner hstart =>
    exact .inr ⟨rfl, hfinds, howner, (roomInv_startGame hinv hstart).1⟩
  | played hop _ _ => exact hop.elim
  | tributed hop _ _ _ => exact hop.elim

theorem lawful_iff (hinv : RoomInv t.room) (hok : TableCall t op)
    (hstep : table.step t op = some (t', out)) : Lawful t op out t' ↔ StartsInTime t op := by
  have hhandled := table_step hinv hok hstep
  by_cases hstart : ∃ id σ, op = .startGame id σ
  swap
  · have hno : ∀ id σ, op ≠ .startGame id σ := fun id σ heq => hstart ⟨id, σ, heq⟩
    obtain ⟨hstarts, hterminal⟩ := handled_phases hinv hhandled hno
    exact ⟨fun _ id σ heq => absurd heq (hno id σ), fun _ => ⟨fun start hmem =>
      .inr (hstarts start hmem), fun id σ heq => absurd heq (hno id σ), hterminal⟩⟩
  obtain ⟨id, σ, rfl⟩ := hstart
  rcases handled_startGame hinv hhandled with
    ⟨hroom, hstarts, hno⟩ | ⟨hstarts, hfinds, howner, hready⟩
  · refine ⟨fun _ id' σ' heq => ?_, fun _ =>
      ⟨by simp [hstarts], fun _ _ _ _ => hroom, fun hphase => hroom ▸ hphase⟩⟩
    cases heq
    exact .inr hno
  · have hwait : StartsInTime t (.startGame id σ) → t.room.phase = .waiting := fun htime => by
      simpa [hfinds, howner, hready] using htime id σ rfl
    constructor
    · intro hlaw id' σ' heq
      have hmem : RoundStart.startGame t.room.phase ∈ out.starts := by simp [hstarts]
      rcases hlaw.starts _ hmem with h | h
      · exact .inl (RoundStart.startGame.inj h)
      · cases h
    · intro htime
      have hwait := hwait htime
      exact ⟨fun start hmem => .inl (by simpa [hstarts, hwait] using hmem),
        fun _ _ _ hlate => by simp [hwait] at hlate,
        fun hphase => absurd (hphase.symm.trans hwait) nofun⟩

end Steps

/-- Over every run of a room the phases are respected exactly when every `start_game` of it comes in
time. -/
theorem room_phases (roomId : RoomId) {ownerId : PlayerId} (howner : ownerId ≠ 0) (mode : String)
    {ops : List TableOp} (hok : table.Follows TableCall (Table.create roomId ownerId mode) ops) :
    table.EachAnswer Lawful (Table.create roomId ownerId mode) ops ↔
      table.EachStep (fun t op _ => StartsInTime t op) (Table.create roomId ownerId mode) ops :=
  Machine.eachAnswer_iff_eachStep (J := fun t : Table => RoomInv t.room)
    (fun _ _ _ _ hinv hop hstep => roomInv_step hinv hop hstep)
    (fun _ _ _ _ hinv hop hstep => lawful_iff hinv hop hstep)
    (roomInv_create roomId howner mode).1 hok

/-! ### A losing hand dealt again -/

/-- The owner of a room for one starts the match. -/
def soloStart (σ : Shuffle) : List TableOp := [.ready 1 σ, .startGame 1 σ]

/-- And starts it again in the middle of the round. -/
def soloRestart : List TableOp := soloStart (Shuffle.stack []) ++ [.startGame 1 (Shuffle.stack [])]

/-- A step that is admissible anywhere. -/
def TableOp.admitted : TableOp → Bool
  | .fillBots => false
  | op => op.sender? != some 0

theorem tableCall_of_admitted {op : TableOp} (h : op.admitted = true) (t : Table) :
    TableCall t op := by
  cases op with
  | fillBots => cases h
  | _ => exact ⟨by simpa [TableOp.admitted] using h, nofun⟩

theorem follows_of_admitted {t : Table} {ops : List TableOp} (h : ops.all TableOp.admitted = true) :
    table.Follows TableCall t ops :=
  Machine.Follows.of_forall fun op hop t => tableCall_of_admitted (List.all_eq_true.1 h op hop) t

theorem soloRestart_follows : table.Follows TableCall (Table.create "room" 1 "solo") soloRestart :=
  follows_of_admitted rfl

theorem room_phases_soloRestart :
    table.EachAnswer Lawful (Table.create "room" 1 "solo") soloRestart ↔
      table.EachStep (fun t op _ => StartsInTime t op) (Table.create "room" 1 "solo") soloRestart :=
  room_phases "room" (by decide) "solo" soloRestart_follows

theorem restart_unlawful :
    ¬ table.EachAnswer Lawful (Table.create "room" 1 "solo") soloRestart := by
  intro hall
  obtain ⟨t, hrun, hagain⟩ := Machine.exists_run_of_any (M := table)
    (s := Table.create "room" 1 "solo") (l := soloStart (Shuffle.stack []))
    (P := fun t => (table.step t (.startGame 1 (Shuffle.stack []))).any
      (fun a => decide (a.2.starts = [.startGame .playing])) = true) (by decide +kernel)
  obtain ⟨⟨t', out⟩, hstep, hstarts⟩ := Machine.exists_of_any hagain
  have hlaw := hall.of_run hrun hstep
  have hmem : RoundStart.startGame .playing ∈ out.starts := by
    rw [show out.starts = _ from hstarts]
    exact List.mem_singleton_self _
  have hstart := hlaw.starts _ hmem
  rcases hstart with hstart | hstart
  · cases hstart
  · cases hstart

end Guandan
