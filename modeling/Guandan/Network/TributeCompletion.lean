import Guandan.Network.BotReturns
import Guandan.Network.RoomPhases

/-!
# Who makes the last return

The tribute phase is to end in play, whoever acts last. `handleSubmitReturn` finalizes the phase
after the last return, `executeBotTributeActions` does not: so the phase never waits for nobody
exactly as long as each bots' task at the returns leaves somebody pending.
-/

namespace Guandan

open Room GameEngine

/-- Nobody has a tribute to give or a return to make. -/
def NothingPending (e : GameEngine) : Prop :=
  e.tributeState.pendingTributers = [] ∧ e.tributeState.pendingReturnSeats = []

/-- The tribute phase does not wait for nobody. -/
def Unstuck (e : GameEngine) : Prop :=
  e.state.phase = .tribute ∨ e.state.phase = .returnTribute → ¬ NothingPending e

instance : DecidablePred Unstuck := fun _ => inferInstanceAs (Decidable (_ → ¬ (_ ∧ _)))

/-- The requests and the task of the tribute phase. -/
def TributeStep (t : Table) : TableOp → Prop
  | .submitTribute .. | .submitReturn .. => True
  | .runTask _ => t.tasks.head? = some .botTribute
  | _ => False

/-- The first player's turn is scheduled: posted for a bot, and timed for a person. -/
def FirstTurnScheduled (t : Table) : Prop :=
  t.room.engine.state.currentPlayerIndex = t.room.engine.state.firstPlayerIndex ∧
    t.room.engine.state.currentPlayerIndex < t.room.engine.state.playerCount ∧
    if isBotPlayer (t.room.engine.state.players t.room.engine.state.currentPlayerIndex).id then
      .botTurn (t.room.engine.state.players t.room.engine.state.currentPlayerIndex).id ∈ t.tasks
    else t.turnTimer =
      some (t.room.engine.state.players t.room.engine.state.currentPlayerIndex).id

/-- A step of the tribute phase that leaves nobody pending begins play. -/
def Completes (t : Table) (op : TableOp) (t' : Table) : Prop :=
  TributeStep t op → t.room.engine.hasPendingTributeAction = true → NothingPending t'.room.engine →
    t'.room.engine.state.phase = .playing ∧ FirstTurnScheduled t'

/-- A bots' task at the returns finds more than two seats pending, or one with no bot that can
return. -/
def LeavesReturn (t : Table) : TableOp → Prop
  | .runTask _ => t.tasks.head? = some .botTribute →
      t.room.engine.state.phase = .returnTribute →
      2 < t.room.engine.tributeState.pendingReturnSeats.length ∨
        ∃ seat ∈ t.room.engine.tributeState.pendingReturnSeats, ¬ BotReturns t.room.engine seat
  | _ => True

/-! ### Phases that wait for somebody -/

section Engine

variable {e e' : GameEngine} {id : PlayerId} {cardId : CardId} {result : PlayResult}

theorem unstuck_of (he : Reached e)
    (h : e.state.phase = .returnTribute → e.tributeState.pendingReturnSeats ≠ []) : Unstuck e := by
  rintro (hphase | hphase) ⟨htribute, hreturn⟩
  · obtain ⟨log, passes, hfacts⟩ := he.facts
    exact (hfacts.phase.tribute hphase).waiting htribute
  · exact h hphase hreturn

theorem unstuck_of_phase (he : Reached e) (h : e.state.phase ≠ .returnTribute) : Unstuck e :=
  unstuck_of he fun hphase => absurd hphase h

/-- After the last tribute there are returns to make. -/
theorem submitTribute_pending (he : Reached e)
    (h : e.submitTribute id cardId = some (e', result))
    (hwait : e.state.phase = .tribute ∨
      e.state.phase = .returnTribute ∧ e.tributeState.pendingReturnSeats ≠ []) :
    e'.state.phase = .tribute ∨
      e'.state.phase = .returnTribute ∧ e'.tributeState.pendingReturnSeats ≠ [] := by
  rcases submitTribute_cases h with ⟨rfl, -⟩ | ⟨seat, hphase, -, -, -, hvalid, hrest⟩
  · exact hwait
  rcases hrest with ⟨-, rfl, -⟩ | ⟨hnone, hclose⟩
  · exact .inl hphase
  obtain ⟨log, passes, hfacts⟩ := he.facts
  obtain ⟨hlt, hne, hmem, -⟩ := isValidTributeSubmission_iff.1 hvalid
  have hrec := (hfacts.phase.tribute hphase).toCollecting.record hne hmem hlt
  have hreturns := (hrec.close hnone hclose).1
  obtain ⟨s, r, -, -, -, -, ⟨-, hplaying⟩ | ⟨hsome, rfl⟩⟩ := closeTributes_frame hclose
  · exact absurd (hplaying.symm.trans hreturns) nofun
  · refine .inr ⟨hreturns, ?_⟩
    show r.tributes.map (·.toSeat) ≠ []
    simpa using hsome

theorem unstuck_of_pending (he : Reached e) (h : e.state.phase = .tribute ∨
    e.state.phase = .returnTribute ∧ e.tributeState.pendingReturnSeats ≠ []) : Unstuck e :=
  unstuck_of he fun hphase => by
    rcases h with h | h
    · exact absurd (h.symm.trans hphase) nofun
    · exact h.2

/-- The loop over the tributers asks for the returns at most. -/
theorem botTributes_unstuck {b : Table.BotRound} (he : Reached e) (hphase : e.state.phase = .tribute)
    (hround : Table.botTributes e = some b) :
    Unstuck b.engine ∧
      (b.engine.state.phase = .tribute ∨ b.engine.state.phase = .returnTribute) := by
  obtain ⟨hreached, hwait⟩ := Table.botRound_invariant
    (P := fun x => Reached x ∧ (x.state.phase = .tribute ∨
      x.state.phase = .returnTribute ∧ x.tributeState.pendingReturnSeats ≠ []))
    (fun _ _ _ _ _ hx hsub => ⟨(Course.submitTribute hsub).reached hx.1,
      submitTribute_pending hx.1 hsub hx.2⟩) ⟨he, .inl hphase⟩ hround
  exact ⟨unstuck_of_pending hreached hwait, hwait.imp_right And.left⟩

end Engine

/-! ### Steps -/

section Steps

variable {t t' : Table} {op : TableOp} {out : TableOut} {r r' : Room} {starts : List RoundStart}
  {id : PlayerId} {cardId : CardId} {σ : Shuffle}

theorem unstuck_of_roomPhase (h : RoomInv r) (hphase : r.phase ≠ .playing) : Unstuck r.engine :=
  unstuck_of_phase h.reached fun hreturn => hphase (h.playing (.inr (.inr hreturn)))

theorem played_unstuck (hplayed : Played r r' starts) (h : RoomInv r) : Unstuck r'.engine := by
  cases hplayed with
  | goesOn hcourse hplaying =>
    exact unstuck_of_phase (hcourse.reached h.reached) (by simp [hplaying])
  | won hcourse hover => exact unstuck_of_phase (hcourse.reached h.reached) (by simp [finishMatch, hover])
  | settled hcourse hover =>
    exact unstuck_of_roomPhase (h.settle hcourse hover).1 (by simp [enterSettlement])
  | next hcourse hover hstart =>
    obtain ⟨-, -, hinv, e, -, hon, rfl⟩ :=
      roomInv_startNextRound (h.settle hcourse hover).1 hstart
    exact unstuck_of_phase hinv.reached (by rcases hon with hon | hon <;> simp [hon])

theorem handled_unstuck (hinv : RoomInv t.room) (hun : Unstuck t.room.engine)
    (hok : TableCall t op) (hop : ¬ op.isTribute) (h : Handled t op r starts) :
    Unstuck r.engine := by
  have hnew := h.roomInv hinv hok
  cases h with
  | stays _ => exact hun
  | notFound _ _ => exact hun
  | joined hjoin =>
    obtain ⟨p, -, rfl⟩ := join_cases hjoin
    exact hun
  | left _ =>
    rw [leave_eq]
    exact hun
  | @readied id σ r hready _ =>
    by_cases hphase : t.room.phase = .playing
    · have hnone : t.room.ready id = none := if_pos (by simp [hphase])
      rw [hready, hnone]
      exact hun
    · refine unstuck_of_roomPhase hnew ?_
      rwa [hready, (hinv.ready_getD _).2.2]
  | nextRound _ hstart =>
    obtain ⟨-, -, -, e, -, hon, rfl⟩ := roomInv_startNextRound (hinv.ready_getD _).1 hstart
    exact unstuck_of_phase hnew.reached (by rcases hon with hon | hon <;> simp [hon])
  | unreadied hunready =>
    rw [(hinv.unready hunready).2.1]
    exact hun
  | moved hmove => exact unstuck_of_roomPhase hnew (by simp [(hinv.changeSeat hmove).2.2])
  | optioned hset => exact unstuck_of_roomPhase hnew (by simp [(hinv.setEnableTribute hset).2.2])
  | voted vote _ => exact hun
  | notStarted _ => exact hun
  | started _ _ hstart =>
    obtain ⟨-, -, e, rfl, hplaying, -⟩ := roomInv_startGame hinv hstart
    exact unstuck_of_phase hnew.reached (by simp [hplaying])
  | played hplay _ hplayed => exact played_unstuck hplayed hinv
  | tributed htribute _ _ _ => exact absurd htribute hop
  | filled hwait hpeople =>
    exact unstuck_of_roomPhase hnew (by simp [(hinv.members.fillBots hpeople).2.2.2, hwait])

theorem scheduleTurnTimer_eq {p : PlayerId} (hplaying : t.room.engine.state.phase = .playing)
    (hlt : t.room.engine.state.currentPlayerIndex < t.room.engine.state.playerCount)
    (hp : (t.room.engine.state.players t.room.engine.state.currentPlayerIndex).id = p) :
    t.scheduleTurnTimer =
      if isBotPlayer p then { t.cancelTurnTimer with tasks := t.tasks ++ [.botTurn p] }
      else { t.cancelTurnTimer with turnTimer := some p } := by
  have hroom : t.cancelTurnTimer.room = t.room := rfl
  unfold Table.scheduleTurnTimer
  dsimp only
  rw [hroom, if_neg (not_not_intro hplaying), if_neg (Nat.not_le.2 hlt), hp]
  rfl

theorem firstTurnScheduled (hplaying : t.room.engine.state.phase = .playing)
    (hfirst : t.room.engine.state.currentPlayerIndex = t.room.engine.state.firstPlayerIndex)
    (hlt : t.room.engine.state.currentPlayerIndex < t.room.engine.state.playerCount) :
    FirstTurnScheduled t.scheduleTurnTimer := by
  unfold FirstTurnScheduled
  rw [Table.scheduleTurnTimer_room]
  refine ⟨hfirst, hlt, ?_⟩
  rw [scheduleTurnTimer_eq hplaying hlt rfl]
  split_ifs with hbot
  · exact List.mem_append_right _ (List.mem_singleton_self _)
  · rfl

/-- Somebody is still pending: nothing has to begin. -/
theorem completes_of_unstuck {e : GameEngine} (hengine : t'.room.engine = e) (hun : Unstuck e)
    (hphase : e.state.phase = .tribute ∨ e.state.phase = .returnTribute) :
    Unstuck t'.room.engine ∧ Completes t op t' := by
  subst hengine
  exact ⟨hun, fun _ _ hnone => absurd hnone (hun hphase)⟩

/-- A step that leaves the room alone. -/
theorem completes_of_same (hun : Unstuck t.room.engine) (hroom : t'.room = t.room) :
    Unstuck t'.room.engine ∧ Completes t op t' := by
  rw [hroom]
  refine ⟨hun, fun _ hpending hnone => ?_⟩
  rw [hroom] at hnone
  rcases Table.ongoing_of_pending hpending with hphase | hphase
  · simp [hasPendingTributeAction, hphase] at hpending
  · exact absurd hnone (hun hphase)

theorem submitTribute_completes (hinv : RoomInv t.room) (hun : Unstuck t.room.engine)
    (h : t.handleSubmitTribute id cardId = some (t', out)) :
    Unstuck t'.room.engine ∧ Completes t op t' := by
  rcases Table.handleSubmitTribute_cases h with ⟨rfl, -⟩ | ⟨e, result, hsubmit, hcode, rfl, -⟩
  · exact completes_of_same hun rfl
  have hphase : t.room.engine.state.phase = .tribute := by
    rcases submitTribute_cases hsubmit with ⟨-, hno⟩ | ⟨seat, hphase, -⟩
    · exact absurd hcode hno
    · exact hphase
  have hwait := submitTribute_pending hinv.reached hsubmit (.inl hphase)
  have hun' : Unstuck e :=
    unstuck_of_pending ((Course.submitTribute hsubmit).reached hinv.reached) hwait
  have hroom : ((t.setEngine e).cancelTributeTimer.continueTribute).room.engine = e := by
    rw [Table.continueTribute_room]
    rfl
  exact completes_of_unstuck hroom hun' (hwait.imp_right And.left)

theorem submitReturn_completes (hinv : RoomInv t.room) (hun : Unstuck t.room.engine)
    (h : t.handleSubmitReturn id cardId = some (t', out)) :
    Unstuck t'.room.engine ∧ Completes t op t' := by
  rcases Table.handleSubmitReturn_cases h with ⟨rfl, -⟩ | ⟨e, result, hsubmit, hcode, -, hrest⟩
  · exact completes_of_same hun rfl
  have hreached := (Course.submitReturn hsubmit).reached hinv.reached
  rcases hrest with ⟨hmore, rfl⟩ | ⟨hlast, e', result', hfin, rfl⟩
  · obtain ⟨hphase, hpending⟩ : e.state.phase = .returnTribute ∧
        e.tributeState.pendingReturnSeats ≠ [] := by
      rcases submitReturn_cases hsubmit with ⟨-, hno⟩ | ⟨seat, hphase, -, -, -, -, rfl, rfl⟩
      · exact absurd hcode hno
      · exact ⟨(SeatingInv.quiet_recordReturn _ _ _).2.trans hphase, by simpa using hmore⟩
    have hun' : Unstuck e := unstuck_of hreached fun _ => hpending
    have hroom : ((t.setEngine e).cancelTributeTimer.continueTribute).room.engine = e := by
      rw [Table.continueTribute_room]
      rfl
    exact completes_of_unstuck hroom hun' (.inr hphase)
  · obtain ⟨hcourse, hplaying⟩ := Table.course_finalize hinv.reached hsubmit hcode hlast hfin
    have hreached' := hcourse.reached hinv.reached
    have hroom : (((t.setEngine e).cancelTributeTimer.setEngine e').onTributePhaseCompleted).room.engine
        = e' := congrArg Room.engine (Table.scheduleTurnTimer_room _)
    obtain ⟨log, passes, hfacts⟩ := hreached'.facts
    have hlt := (hfacts.trick.trick hplaying).seat
    have hfirst : e'.state.currentPlayerIndex = e'.state.firstPlayerIndex := by
      obtain ⟨-, first, -, rfl⟩ := finishTributePhase_cases hfin
      rfl
    have hscheduled := firstTurnScheduled
      (t := (t.setEngine e).cancelTributeTimer.setEngine e') hplaying hfirst hlt
    rw [hroom]
    refine ⟨unstuck_of_phase hreached' (by simp [hplaying]), fun _ _ _ => ⟨?_, hscheduled⟩⟩
    rw [hroom]
    exact hplaying

/-- The bots' task begins no play: it has to leave somebody pending. -/
theorem botTribute_completes_iff (hinv : RoomInv t.room) (hun : Unstuck t.room.engine)
    {tasks : List RoomTask} (htasks : t.tasks = .botTribute :: tasks)
    (h : Table.executeBotTributeActions { t with tasks := tasks } = some t') :
    Unstuck t'.room.engine ∧ Completes t (.runTask σ) t' ↔ LeavesReturn t (.runTask σ) := by
  have hhead : t.tasks.head? = some .botTribute := by rw [htasks, List.head?_cons]
  have hengine : ∀ e, (((({ t with tasks := tasks } : Table).cancelTributeTimer.setEngine
      e).continueTribute).room.engine = e) := fun e => by
    rw [Table.continueTribute_room]
    rfl
  rcases Table.executeBotTributeActions_cases h with ⟨hidle, rfl⟩ | ⟨hpending, b, hround, rfl⟩
  · refine iff_of_true (completes_of_same hun rfl) fun _ hphase => ?_
    -- at the returns there is an active phase
    obtain ⟨dealt, swaps, hreturn⟩ := (Returning.mk hinv.reached hphase).swaps
    simp [hasPendingTributeAction, hphase, hreturn.active] at hidle
  rcases hround with ⟨hphase, hround⟩ | ⟨hphase, hround⟩
  · obtain ⟨hun', hwait⟩ := botTributes_unstuck hinv.reached hphase hround
    refine iff_of_true ?_ fun _ hreturn =>
      absurd (hphase.symm.trans hreturn) (by decide)
    exact completes_of_unstuck (hengine _) hun' hwait
  · have hreturning : Returning t.room.engine := ⟨hinv.reached, hphase⟩
    have hnone := hinv.reached.pendingTributers hphase
    have hne : t.room.engine.tributeState.pendingReturnSeats ≠ [] := fun hnil =>
      hun (.inr hphase) ⟨hnone, hnil⟩
    obtain ⟨hafter, hdone⟩ := botReturns_done_iff hreturning hne hround
    have hleaves : LeavesReturn t (.runTask σ) ↔ b.engine.tributeState.pendingReturnSeats ≠ [] := by
      rw [ne_eq, hdone, not_and_or, not_le, not_forall]
      simp only [Classical.not_imp]
      exact ⟨fun hl => hl hhead hphase, fun hl _ _ => hl⟩
    rw [hleaves]
    constructor
    · rintro ⟨hun', -⟩ hnil
      rw [hengine] at hun'
      exact hun' (.inr hafter.phase) ⟨hafter.reached.pendingTributers hafter.phase, hnil⟩
    · intro hsome
      exact completes_of_unstuck (hengine _) (unstuck_of hafter.reached fun _ => hsome)
        (.inr hafter.phase)

theorem completes_iff (hinv : RoomInv t.room) (hun : Unstuck t.room.engine) (hok : TableCall t op)
    (hstep : table.step t op = some (t', out)) :
    Unstuck t'.room.engine ∧ Completes t op t' ↔ LeavesReturn t op := by
  have hother : ¬ op.isTribute → (Unstuck t'.room.engine ∧ Completes t op t' ↔ LeavesReturn t op) := by
    intro hop
    refine iff_of_true ⟨handled_unstuck hinv hun hok hop (table_step hinv hok hstep), ?_⟩ ?_
    · intro hstep'
      cases op <;> first | exact hstep'.elim | exact absurd trivial hop
    · cases op <;> first | trivial | exact absurd trivial hop
  cases op with
  | submitTribute id cardId => exact iff_of_true (submitTribute_completes hinv hun hstep) trivial
  | submitReturn id cardId => exact iff_of_true (submitReturn_completes hinv hun hstep) trivial
  | runTask σ =>
    obtain ⟨task, tasks, htasks, hrun⟩ := Table.runTask_cases hstep
    rcases task with playerId | _ <;> dsimp only at hrun
    · -- a bot's turn is no step of the tribute phase
      have hhead : t.tasks.head? ≠ some .botTribute := by simp [htasks]
      refine iff_of_true ⟨?_, fun hstep' => absurd hstep' hhead⟩ fun hstep' =>
        absurd hstep' hhead
      rcases Table.executeBotTurn_turn (t := { t with tasks := tasks }) hinv hrun with
        ⟨hroom, -⟩ | ⟨-, hplayed⟩
      · rw [hroom]
        exact hun
      · exact played_unstuck hplayed hinv
    · exact botTribute_completes_iff hinv hun htasks hrun.1
  | _ => exact hother id

end Steps

/-- Along every run of a room the tribute phase waits for somebody in every state, and begins play
when nobody is pending any more, exactly when each bots' task at the returns leaves somebody
pending. -/
theorem tribute_completion (roomId : RoomId) {ownerId : PlayerId} (howner : ownerId ≠ 0)
    (mode : String) {ops : List TableOp}
    (hok : table.Follows TableCall (Table.create roomId ownerId mode) ops) :
    table.Always (fun t => Unstuck t.room.engine) (Table.create roomId ownerId mode) ops ∧
        table.EachStep Completes (Table.create roomId ownerId mode) ops ↔
      table.EachStep (fun t op _ => LeavesReturn t op) (Table.create roomId ownerId mode) ops := by
  obtain ⟨hinv, hphase⟩ := roomInv_create roomId howner mode
  exact Machine.always_and_eachStep_iff (J := fun t : Table => RoomInv t.room)
    (fun _ _ _ _ hinv hop hstep => roomInv_step hinv hop hstep)
    (fun _ _ _ _ hinv hun hop hstep => completes_iff hinv hun hop hstep)
    hinv (unstuck_of_roomPhase hinv (by simp [Table.create, hphase])) hok

/-! ### A table that waits for nobody -/

/-- In a room for one the owner and the bot opposite go out first. In the next round the two other
bots give their tributes, the owner returns a card, and the bot opposite makes the last return. -/
def lastBotReturns : List TableOp :=
  soloStart (Shuffle.stack [1, 14, 3, 17, 2, 15, 4, 18]) ++
    [.playCards 1 0 [1, 14] (Shuffle.stack []), .runTask (Shuffle.stack []),
      .runTask (Shuffle.stack []), .ready 1 (Shuffle.stack [5, 6, 7, 8, 1, 2, 11, 12]),
      .fireTributeTimer, .runTask (Shuffle.stack []), .submitReturn 1 5, .fireTributeTimer,
      .runTask (Shuffle.stack [])]

theorem lastBotReturns_follows :
    table.Follows TableCall (Table.create "room" 1 "solo") lastBotReturns :=
  follows_of_admitted rfl

theorem tribute_completion_lastBotReturns :
    table.Always (fun t => Unstuck t.room.engine) (Table.create "room" 1 "solo") lastBotReturns ∧
        table.EachStep Completes (Table.create "room" 1 "solo") lastBotReturns ↔
      table.EachStep (fun t op _ => LeavesReturn t op) (Table.create "room" 1 "solo")
        lastBotReturns :=
  tribute_completion "room" (by decide) "solo" lastBotReturns_follows

theorem nobody_waited_for :
    ¬ table.Always (fun t => Unstuck t.room.engine) (Table.create "room" 1 "solo")
      lastBotReturns := by
  intro hall
  obtain ⟨t, hrun, hstuck⟩ := Machine.exists_run_of_any (M := table)
    (s := Table.create "room" 1 "solo") (l := lastBotReturns)
    (P := fun t => ¬ Unstuck t.room.engine) (by decide +kernel)
  exact hstuck (hall.of_run hrun)

end Guandan
