import Guandan.Engine.RoundLength
import Guandan.Network.BotTurns

/-!
# Bots keep a round going

Whenever a bot is to move, its turn is in the queue of the room (`bot_turn_queued`). Running the queue
carries it out, and every turn of a bot uses up one of the turns that the round has left: so after fewer
tasks than there are turns left and tasks queued a person is to move or the round is over
(`bots_hand_over`).
-/

namespace Guandan

open GameState GameEngine Room

namespace Table

/-- The turn of a bot that is to move is posted. -/
def BotServed (t : Table) : Prop :=
  t.room.engine.state.phase = .playing → isBotPlayer t.room.engine.state.turnPlayer = true →
    .botTurn t.room.engine.state.turnPlayer ∈ t.tasks

variable {t t' : Table} {r : Room} {e : GameEngine} {σ : Shuffle} {result : PlayResult} {out : TableOut}
  {starts : List RoundStart} {id : PlayerId} {op : TableOp}

theorem BotServed.keep (h : BotServed t) (hengine : t'.room.engine = t.room.engine)
    (htasks : t.tasks ⊆ t'.tasks) : BotServed t' := by
  unfold BotServed
  rw [hengine]
  exact fun hplaying hbot => htasks (h hplaying hbot)

/-- Only a room in play has somebody to move. -/
theorem botServed_of_phase (h : RoomInv t.room) (hphase : t.room.phase ≠ .playing) : BotServed t :=
  fun hplaying => absurd (h.playing (.inl hplaying)) hphase

theorem scheduleTurnTimer_served (h : Reached t.room.engine) : t.scheduleTurnTimer.BotServed := by
  intro hplaying hbot
  rw [scheduleTurnTimer_room] at hplaying hbot ⊢
  have hplay : AtPlay t.room.engine := ⟨h, hplaying⟩
  have hroom : t.cancelTurnTimer.room = t.room := rfl
  unfold scheduleTurnTimer
  dsimp only
  rw [hroom, if_neg (not_not_intro hplaying), if_neg (Nat.not_le.2 hplay.trick.seat),
    if_pos (show isBotPlayer (t.room.engine.state.players _).id = true from hbot)]
  exact List.mem_append_right _ (List.mem_singleton_self _)

/-- Play is not on while tributes are awaited. -/
theorem not_playing_of_pending (h : e.hasPendingTributeAction = true) : e.state.phase ≠ .playing := by
  intro hplaying
  rcases GameEngine.phase_of_pending h with hp | hp <;> simp [hp] at hplaying

theorem onRoundStarted_served (h : Reached t.room.engine) : t.onRoundStarted.BotServed := by
  intro hplaying
  have hplaying' := hplaying
  rw [onRoundStarted_room] at hplaying'
  unfold onRoundStarted at hplaying ⊢
  rw [if_neg fun hpending => not_playing_of_pending hpending hplaying', if_pos hplaying'] at hplaying ⊢
  exact scheduleTurnTimer_served h hplaying

theorem continueTribute_served (h : Reached t.room.engine) : t.continueTribute.BotServed :=
  onRoundStarted_served h

theorem tryStartNextRound_served (h : RoomInv t.room) (hphase : t.room.phase ≠ .playing)
    (htry : t.tryStartNextRound σ = some (t', starts)) : BotServed t' := by
  unfold tryStartNextRound at htry
  split_ifs at htry with hno
  · cases htry
    exact botServed_of_phase h hphase
  rcases h.startNextRound_spec σ with ⟨hnot, -⟩ | ⟨-, -, e, heq, hcourse, -⟩
  · exact absurd hnot (by simpa using hno)
  · rw [heq] at htry
    cases htry
    exact onRoundStarted_served (hcourse.reached h.reached)

theorem afterPlay_served (h : RoomInv r) (hplay : Advances r.engine e result)
    (hafter : t.afterPlay result σ = some (t', starts)) (hroom : t.room = { r with engine := e }) :
    BotServed t' := by
  rcases hplay.outcome with ⟨hgo, hphase⟩ | ⟨hover, hphase⟩
  · rw [afterPlay, hgo] at hafter
    cases hafter
    refine scheduleTurnTimer_served ?_
    rw [hroom]
    exact hplay.course.reached h.reached
  · rw [afterPlay, hover, if_pos rfl] at hafter
    unfold onGameOver at hafter
    split_ifs at hafter
    · cases hafter
      have hend : e.state.phase ≠ .playing := by simp [hphase]
      intro hplaying
      refine absurd ?_ hend
      have hengine : t.room.engine = e := by rw [hroom]
      rw [← hengine]
      exact hplaying
    · have hsettled : RoomInv t.room.enterSettlement := by
        rw [hroom]
        exact (h.settle hplay.course hphase).1
      exact tryStartNextRound_served (by exact hsettled)
        (show RoomPhase.settlement ≠ .playing by decide) hafter

/-- A task of the queue, run in play: the turn of a bot that is to move is carried out, and every other
task is dropped. -/
theorem runTask_playing (h : RoomInv t.room) (hplaying : t.room.engine.state.phase = .playing)
    {task : RoomTask} {tasks : List RoomTask} (htasks : t.tasks = task :: tasks) (σ : Shuffle) :
    (task = .botTurn t.room.engine.state.turnPlayer ∧
      isBotPlayer t.room.engine.state.turnPlayer = true ∧ ∃ choice t' starts,
        BestPlay t.room.engine t.room.engine.state.currentPlayerIndex choice ∧
        t.runTask σ = some (t', { starts := starts }) ∧
        TurnPlayed { t with tasks := tasks } t' choice starts σ) ∨
    ((task = .botTurn t.room.engine.state.turnPlayer →
        isBotPlayer t.room.engine.state.turnPlayer = false) ∧
      t.runTask σ = some ({ t with tasks := tasks }, {})) := by
  unfold runTask
  rw [htasks]
  rcases task with playerId | _ <;> dsimp only
  swap
  · refine .inr ⟨fun heq => RoomTask.noConfusion heq, ?_⟩
    unfold executeBotTributeActions
    have hnone : t.room.engine.hasPendingTributeAction = false :=
      eq_false_of_ne_true fun hpending => not_playing_of_pending hpending hplaying
    rw [hnone]
    rfl
  by_cases hturn : playerId = t.room.engine.state.turnPlayer
  swap
  · refine .inr ⟨fun heq => absurd (RoomTask.botTurn.inj heq) hturn, ?_⟩
    rw [executeBotTurn_late (t := { t with tasks := tasks }) hturn]
    rfl
  subst hturn
  cases hbot : isBotPlayer t.room.engine.state.turnPlayer with
  | false =>
    refine .inr ⟨fun _ => rfl, ?_⟩
    rw [executeBotTurn_person _ hbot]
    rfl
  | true =>
    obtain ⟨choice, t', starts, -, hbest, hrun, hplayed⟩ :=
      executeBotTurn_acts (t := { t with tasks := tasks }) h hplaying hbot σ
    exact .inl ⟨rfl, rfl, choice, t', starts, hbest, congrArg done hrun, hplayed⟩

theorem runTask_served (h : RoomInv t.room) (hserved : BotServed t)
    (hrun : t.runTask σ = some (t', out)) : BotServed t' := by
  obtain ⟨task, tasks, htasks, hcase⟩ := runTask_cases hrun
  by_cases hplaying : t.room.engine.state.phase = .playing
  · rcases runTask_playing h hplaying htasks σ with
      ⟨-, -, choice, t₁, starts, -, hrun₁, e, r, hcall, hcode, hafter⟩ | ⟨hother, hrun₁⟩
    · rw [hrun] at hrun₁
      cases hrun₁
      exact afterPlay_served h (advances_botCall hcall hcode) hafter rfl
    · rw [hrun] at hrun₁
      cases hrun₁
      intro _ hbot
      have hmem := hserved hplaying hbot
      rw [htasks] at hmem
      rcases List.mem_cons.1 hmem with heq | hmem
      · rw [hother heq.symm] at hbot
        cases hbot
      · exact hmem
  · rcases task with playerId | _ <;> dsimp only at hcase
    · unfold executeBotTurn at hcase
      rw [if_pos (show t.room.engine.state.phase ≠ .playing from hplaying)] at hcase
      have hsame : t' = { t with tasks := tasks } := by
        split_ifs at hcase
        · exact (Prod.mk.inj (Option.some.inj hcase)).1.symm
        · exact (Prod.mk.inj (Option.some.inj hcase)).1.symm
      rw [hsame]
      exact fun hp => absurd hp hplaying
    · rcases executeBotTributeActions_cases hcase.1 with ⟨-, rfl⟩ | ⟨hpending, b, hround, rfl⟩
      · exact fun hp => absurd hp hplaying
      · have hon := ongoing_of_pending hpending
        have hcourse : Course t.room.engine b.engine := by
          rcases hround with ⟨-, hround⟩ | ⟨-, hround⟩
          · exact (botTributes_course hon hround).1
          · exact (botReturns_course hon hround).1
        exact continueTribute_served (hcourse.reached h.reached)

/-- A request that neither reaches the engine nor takes a task from the queue. -/
theorem handleRoom_served {call : Option Room} {code : ErrorCode} (hserved : BotServed t)
    (hcall : ∀ r, call = some r → r.engine = t.room.engine ∨ RoomInv r ∧ r.phase ≠ .playing)
    (h : t.handleRoom id call code = some (t', out)) : BotServed t' := by
  unfold handleRoom at h
  split_ifs at h
  · cases h
    exact hserved
  · rcases call with _ | r <;> cases h
    · exact hserved
    · rcases hcall r rfl with hengine | ⟨hinv, hphase⟩
      · exact hserved.keep hengine (List.Subset.refl _)
      · exact botServed_of_phase hinv hphase

theorem handleJoinRoom_served (hserved : BotServed t) (h : t.handleJoinRoom id = some (t', out)) :
    BotServed t' := by
  unfold handleJoinRoom at h
  rcases hjoin : t.joinRoom id with _ | t₁ <;> rw [hjoin] at h <;> dsimp only at h
  · split_ifs at h <;> cases h <;> exact hserved
  · cases h
    unfold joinRoom at hjoin
    split_ifs at hjoin
    obtain ⟨r, hr, rfl⟩ := Option.map_eq_some_iff.1 hjoin
    unfold Room.join at hr
    split_ifs at hr
    obtain ⟨seat, -, rfl⟩ := Option.map_eq_some_iff.1 hr
    exact hserved

theorem handleLeaveRoom_served (hserved : BotServed t) (h : t.handleLeaveRoom id = some (t', out)) :
    BotServed t' := by
  unfold handleLeaveRoom at h
  split_ifs at h
  · cases h
    exact hserved
  · cases h
    rw [Room.leave_eq]
    unfold removePlayerFromRoom
    split_ifs <;> exact hserved

theorem handleReady_served (hinv : RoomInv t.room) (hserved : BotServed t)
    (h : t.handleReady id σ = some (t', out)) : BotServed t' := by
  unfold handleReady at h
  split_ifs at h
  · cases h
    exact hserved
  obtain ⟨hready, -, hphase⟩ := hinv.ready_getD id
  by_cases hplaying : t.room.phase = .playing
  · have hno : t.room.ready id = none := by
      unfold Room.ready
      rw [hplaying]
      rfl
    rw [hno, Option.getD_none] at h
    rcases tryStartNextRound_cases hinv (accept_some h) with ⟨rfl, -⟩ | ⟨hstart, -⟩
    · exact hserved
    · rw [(roomInv_startNextRound hinv hstart).1] at hplaying
      cases hplaying
  · exact tryStartNextRound_served hready (by rwa [hphase]) (accept_some h)

theorem handleStartGame_served (hinv : RoomInv t.room) (hserved : BotServed t)
    (h : t.handleStartGame id σ = some (t', out)) : BotServed t' := by
  unfold handleStartGame at h
  split_ifs at h
  · cases h
    exact hserved
  · cases h
    exact hserved
  rcases hinv.startGame_spec σ with ⟨-, heq⟩ | ⟨-, e, heq, hinv', -⟩
  · rw [heq] at h
    cases h
    exact hserved
  · rw [heq] at h
    cases h
    exact onRoundStarted_served hinv'.reached

theorem handleRequestDismiss_quiet (h : t.handleRequestDismiss id = some (t', out)) :
    t'.room.engine = t.room.engine ∧ t'.tasks = t.tasks := by
  unfold handleRequestDismiss at h
  split_ifs at h
  · cases h
    exact ⟨rfl, rfl⟩
  rcases hrequest : t.room.requestDismiss id with _ | r <;> rw [hrequest] at h <;> dsimp only at h
  · cases h
    exact ⟨rfl, rfl⟩
  · cases h
    unfold Room.requestDismiss at hrequest
    split_ifs at hrequest
    obtain ⟨vote, -, rfl⟩ := Option.map_eq_some_iff.1 hrequest
    split_ifs <;> exact ⟨rfl, rfl⟩

theorem handleVoteDismiss_quiet {agree : Bool} (h : t.handleVoteDismiss id agree = some (t', out)) :
    t'.room.engine = t.room.engine ∧ t'.tasks = t.tasks := by
  unfold handleVoteDismiss at h
  split_ifs at h
  · cases h
    exact ⟨rfl, rfl⟩
  · cases h
    exact ⟨rfl, rfl⟩
  rcases hvote : t.room.voteDismiss id agree with _ | r <;> rw [hvote] at h <;> dsimp only at h
  · cases h
    exact ⟨rfl, rfl⟩
  · unfold Room.voteDismiss at hvote
    split_ifs at hvote
    obtain ⟨vote, -, rfl⟩ := Option.map_eq_some_iff.1 hvote
    split_ifs at h <;> cases h <;> exact ⟨rfl, rfl⟩

/-- The turn of a bot stays posted until it is carried out. -/
theorem botServed_step (hinv : RoomInv t.room) (hserved : BotServed t) (hok : TableCall t op)
    (h : table.step t op = some (t', out)) : BotServed t' := by
  have hinv' := roomInv_step hinv hok h
  change t.apply op = some (t', out) at h
  cases op with
  | joinRoom id => exact handleJoinRoom_served hserved h
  | leaveRoom id => exact handleLeaveRoom_served hserved h
  | ready id σ => exact handleReady_served hinv hserved h
  | unready id =>
    exact handleRoom_served hserved (fun r hr => .inl (hinv.unready hr).2.1) h
  | changeSeat id seat =>
    refine handleRoom_served hserved (fun r hr => ?_) h
    obtain ⟨hinv, -, hphase⟩ := hinv.changeSeat hr
    exact .inr ⟨hinv, by simp [hphase]⟩
  | setRoomOptions id enabled =>
    refine handleRoom_served hserved (fun r hr => ?_) h
    obtain ⟨hinv, -, hphase⟩ := hinv.setEnableTribute hr
    exact .inr ⟨hinv, by simp [hphase]⟩
  | startGame id σ => exact handleStartGame_served hinv hserved h
  | playCards id turnId cards σ =>
    rcases handlePlayCards_cases h with ⟨rfl, -⟩ | ⟨-, -, -, -, e, result, hplay, hcode, hafter⟩
    · exact hserved
    · exact afterPlay_served hinv (advances_playCards hplay hcode) hafter rfl
  | pass id turnId =>
    rcases handlePass_cases h with ⟨rfl, -⟩ | ⟨-, -, -, e, result, hpass, hcode, rfl⟩
    · exact hserved
    · exact scheduleTurnTimer_served ((Course.pass hpass).reached hinv.reached)
  | submitTribute id cardId =>
    rcases handleSubmitTribute_cases h with ⟨rfl, -⟩ | ⟨e, result, hsubmit, hcode, rfl, -⟩
    · exact hserved
    · exact continueTribute_served ((Course.submitTribute hsubmit).reached hinv.reached)
  | submitReturn id cardId =>
    rcases handleSubmitReturn_cases h with
      ⟨rfl, -⟩ | ⟨e, result, hsubmit, hcode, -, ⟨-, rfl⟩ | ⟨hlast, e', r', hfin, rfl⟩⟩
    · exact hserved
    · exact continueTribute_served ((Course.submitReturn hsubmit).reached hinv.reached)
    · exact scheduleTurnTimer_served
        ((course_finalize hinv.reached hsubmit hcode hlast hfin).1.reached hinv.reached)
  | requestDismiss id =>
    obtain ⟨hengine, htasks⟩ := handleRequestDismiss_quiet h
    exact hserved.keep hengine (htasks ▸ List.Subset.refl _)
  | voteDismiss id agree =>
    obtain ⟨hengine, htasks⟩ := handleVoteDismiss_quiet h
    exact hserved.keep hengine (htasks ▸ List.Subset.refl _)
  | runTask σ => exact runTask_served hinv hserved h
  | fireTurnTimer =>
    obtain ⟨playerId, -, heq⟩ := Option.map_eq_some_iff.1 h
    cases heq
    exact hserved.keep rfl (List.subset_append_left _ _)
  | fireTributeTimer =>
    rw [Table.apply, fireTributeTimer] at h
    split_ifs at h
    cases h
    exact hserved.keep rfl (List.subset_append_left _ _)
  | fillBots =>
    cases h
    obtain ⟨-, -, hengine, -⟩ := hinv.members.fillBots (hok.2 rfl).2
    exact hserved.keep hengine (List.Subset.refl _)

/-! ### Running the queue -/

/-- A bound for the tasks until the bots are done. -/
def botRank (t : Table) : Nat := t.room.engine.turnsLeft + t.tasks.length

/-- The round is over, or a person is to move. -/
def HandsOver (_ : Table) (out : TableOut) (t' : Table) : Prop :=
  out.starts ≠ [] ∨ t'.room.engine.state.phase ≠ .playing ∨
    isBotPlayer t'.room.engine.state.turnPlayer = false

/-- A bot is to move. -/
structure BotToMove (t : Table) : Prop where
  inv : RoomInv t.room
  served : BotServed t
  playing : t.room.engine.state.phase = .playing
  bot : isBotPlayer t.room.engine.state.turnPlayer = true

theorem length_scheduleTurnTimer (t : Table) :
    t.scheduleTurnTimer.tasks.length ≤ t.tasks.length + 1 := by
  unfold scheduleTurnTimer cancelTurnTimer
  dsimp only
  split_ifs <;> simp

theorem turnsLeft_botCall (h : AtPlay e) {e' : GameEngine} {seat : Nat} {choice : Option (List CardId)}
    (hbest : BestPlay e seat choice) (hcall : botCall e id choice = some (e', result))
    (hcode : result.code = .ok) : e'.turnsLeft < e.turnsLeft := by
  rcases choice with _ | play
  · exact h.turnsLeft_pass hcall hcode
  · exact h.turnsLeft_playCards hcall hcode (hbest.mayPlay play rfl).nodup

/-- A play that ends the round ends it in the room, or the next round starts. -/
theorem afterPlay_over (h : RoomInv r) (hplay : Advances r.engine e result)
    (hover : result.gameOver = true) (hafter : t.afterPlay result σ = some (t', starts))
    (hroom : t.room = { r with engine := e }) :
    starts ≠ [] ∨ t'.room.engine.state.phase ≠ .playing := by
  have hphase : e.state.phase = .finished := by
    rcases hplay.outcome with ⟨hgo, -⟩ | ⟨-, hphase⟩
    · rw [hover] at hgo
      cases hgo
    · exact hphase
  rw [afterPlay, hover, if_pos rfl] at hafter
  unfold onGameOver at hafter
  split_ifs at hafter
  · cases hafter
    refine .inr ?_
    show t.room.engine.state.phase ≠ .playing
    rw [hroom]
    simp [hphase]
  · have hsettled := (h.settle hplay.course hphase).1
    rw [← hroom] at hsettled
    rcases tryStartNextRound_cases (by exact hsettled) hafter with ⟨rfl, -⟩ | ⟨-, rfl⟩
    · refine .inr fun hplaying => ?_
      have hno := hsettled.playing (.inl hplaying)
      cases hno
    · exact .inl (List.cons_ne_nil _ _)

/-- A task, while a bot is to move, hands over or lowers the rank. -/
theorem BotToMove.step (h : BotToMove t) (σ : Shuffle) : ∃ t' out,
    t.runTask σ = some (t', out) ∧ (HandsOver t out t' ∨ BotToMove t' ∧ t'.botRank < t.botRank) := by
  obtain ⟨task, tasks, htasks⟩ :=
    List.exists_cons_of_ne_nil (List.ne_nil_of_mem (h.served h.playing h.bot))
  have hlen : t.tasks.length = tasks.length + 1 := by rw [htasks, List.length_cons]
  rcases runTask_playing h.inv h.playing htasks σ with
    ⟨-, -, choice, t', starts, hbest, hrun, e, r, hcall, hcode, hafter⟩ | ⟨hother, hrun⟩
  · refine ⟨t', _, hrun, ?_⟩
    by_contra hnot
    push Not at hnot
    obtain ⟨hno, hdown⟩ := hnot
    unfold HandsOver at hno
    push Not at hno
    have hserved' := runTask_served h.inv h.served hrun
    have hinv' : RoomInv t'.room :=
      roomInv_step h.inv (show TableCall t (.runTask σ) from ⟨by simp [TableOp.sender?], by simp⟩) hrun
    have hmove : BotToMove t' := ⟨hinv', hserved', hno.2.1, by simpa using hno.2.2⟩
    have hplay : AtPlay t.room.engine := ⟨h.inv.reached, h.playing⟩
    have hturns := turnsLeft_botCall hplay hbest hcall hcode
    -- the round goes on, so the turn has been handed on
    cases hover : r.gameOver with
    | false =>
      rw [afterPlay, hover] at hafter
      cases hafter
      have hsched := length_scheduleTurnTimer (({ t with tasks := tasks }).cancelTurnTimer.setEngine e)
      refine absurd (hdown hmove) (Nat.not_le.2 ?_)
      unfold botRank
      rw [scheduleTurnTimer_room]
      exact lt_of_lt_of_le (Nat.add_lt_add_of_lt_of_le hturns hsched) (by rw [hlen]; rfl)
    | true =>
      rcases afterPlay_over h.inv (advances_botCall hcall hcode) hover hafter rfl with hnew | hend
      · exact absurd hno.1 hnew
      · exact absurd hno.2.1 hend
  · have hne : task ≠ .botTurn t.room.engine.state.turnPlayer := by
      intro heq
      have hperson := hother heq
      rw [h.bot] at hperson
      cases hperson
    refine ⟨_, _, hrun, .inr ⟨⟨h.inv, fun hp hb => ?_, h.playing, h.bot⟩, ?_⟩⟩
    · have hmem := h.served hp hb
      rw [htasks] at hmem
      exact (List.mem_cons.1 hmem).resolve_left hne.symm
    · unfold botRank
      rw [hlen]
      exact Nat.lt_succ_self _

end Table

theorem botServed_reachable {roomId : RoomId} {ownerId : PlayerId} (howner : ownerId ≠ 0) {mode : String}
    {t : Table} (h : table.Reachable TableCall (Table.create roomId ownerId mode) t) : t.BotServed := by
  refine (h.invariant (P := fun t => RoomInv t.room ∧ t.BotServed) ?_ ?_).2
  · obtain ⟨hinv, hphase⟩ := roomInv_create roomId howner mode
    have hwaiting : (Table.create roomId ownerId mode).room.phase = .waiting := hphase
    exact ⟨hinv, Table.botServed_of_phase hinv (by simp [hwaiting])⟩
  · exact fun t op t' out hinv hok hstep =>
      ⟨roomInv_step hinv.1 hok hstep, Table.botServed_step hinv.1 hinv.2 hok hstep⟩

/-- In every state that a room reaches the turn of a bot that is to move is in the queue. -/
theorem bot_turn_queued (roomId : RoomId) {ownerId : PlayerId} (howner : ownerId ≠ 0) (mode : String)
    {t : Table} (h : table.Reachable TableCall (Table.create roomId ownerId mode) t)
    (hplaying : t.room.engine.state.phase = .playing)
    (hbot : isBotPlayer t.room.engine.state.turnPlayer = true) :
    .botTurn t.room.engine.state.turnPlayer ∈ t.tasks :=
  botServed_reachable howner h hplaying hbot

/-- Whenever a bot is to move, running the queue hands the turn to a person or ends the round before as
many tasks are run as there are tasks queued and turns that the round can have left. -/
theorem bots_hand_over (roomId : RoomId) {ownerId : PlayerId} (howner : ownerId ≠ 0) (mode : String)
    {t : Table} (h : table.Reachable TableCall (Table.create roomId ownerId mode) t)
    (hplaying : t.room.engine.state.phase = .playing)
    (hbot : isBotPlayer t.room.engine.state.turnPlayer = true) (ops : List TableOp)
    (htasks : ∀ op ∈ ops, ∃ σ, op = .runTask σ)
    (hlong : t.room.engine.state.playerCount * (t.room.engine.state.cardsHeld + 1) + t.tasks.length ≤
      ops.length) :
    ∃ before op t₁ t' out, before ++ [op] <+: ops ∧ table.run t before = some t₁ ∧
      table.step t₁ op = some (t', out) ∧ t₁.HandsOver out t' := by
  have hinv := roomInv_reachable howner h
  have hserved := botServed_reachable howner h
  have hplay : AtPlay t.room.engine := ⟨hinv.reached, hplaying⟩
  have hlt := hplay.turnsLeft_lt
  refine Machine.reaches_within Table.botRank (M := table) (P := Table.BotToMove) (Q := Table.HandsOver)
    ?_ ⟨hinv, hserved, hplaying, hbot⟩ htasks ?_
  · rintro s op hs ⟨σ, rfl⟩
    exact hs.step σ
  · unfold Table.botRank
    omega

theorem soloFirstPlay_botToMove : ∃ t,
    table.run (Table.create "room" 1 "solo") soloFirstPlay = some t ∧
    table.Reachable TableCall (Table.create "room" 1 "solo") t ∧
    t.room.engine.state.phase = .playing ∧
    isBotPlayer t.room.engine.state.turnPlayer = true := by
  have hok : table.Follows TableCall (Table.create "room" 1 "solo") soloFirstPlay :=
    follows_of_admitted rfl
  obtain ⟨t, hrun, hphase, hbot⟩ := Machine.exists_run_of_any (M := table)
    (s := Table.create "room" 1 "solo") (l := soloFirstPlay)
    (P := fun t => t.room.engine.state.phase = .playing ∧
      isBotPlayer t.room.engine.state.turnPlayer = true) (by decide +kernel)
  exact ⟨t, hrun, Machine.reachable_of_run hok hrun, hphase, hbot⟩

theorem bot_turn_queued_soloFirstPlay : ∃ t,
    table.run (Table.create "room" 1 "solo") soloFirstPlay = some t ∧
    .botTurn t.room.engine.state.turnPlayer ∈ t.tasks := by
  obtain ⟨t, hrun, hreach, hphase, hbot⟩ := soloFirstPlay_botToMove
  exact ⟨t, hrun, bot_turn_queued "room" (by decide) "solo" hreach hphase hbot⟩

theorem bots_hand_over_soloFirstPlay : ∃ t,
    table.run (Table.create "room" 1 "solo") soloFirstPlay = some t ∧
    ∃ before op t₁ t' out, table.run t before = some t₁ ∧
      table.step t₁ op = some (t', out) ∧ t₁.HandsOver out t' := by
  obtain ⟨t, hrun, hreach, hphase, hbot⟩ := soloFirstPlay_botToMove
  obtain ⟨before, op, t₁, t', out, -, hbefore, hstep, hover⟩ :=
    bots_hand_over "room" (by decide) "solo" hreach hphase hbot
      (List.replicate (t.room.engine.state.playerCount * (t.room.engine.state.cardsHeld + 1) +
        t.tasks.length) (.runTask (Shuffle.stack [])))
      (fun op hop => ⟨_, List.eq_of_mem_replicate hop⟩) (by rw [List.length_replicate])
  exact ⟨t, hrun, before, op, t₁, t', out, hbefore, hstep, hover⟩

end Guandan
