import Guandan.Engine.BotPlays
import Guandan.Engine.TurnIds
import Guandan.Network.RoomPhases

/-!
# The turns of bots, and turn timeouts

A bot to move always plays its best play or passes, and the turn moves on (`bot_turn_advances`). The
timer of a person's turn posts the same task, and `executeBotTurn` does nothing for anybody but a bot: so
the task of a turn acts exactly when it is no person's who is still to move (`turn_task_acts_iff`).
-/

namespace Guandan

open GameState GameEngine Room

/-- The play or pass of the player to move has been carried out in the room. -/
structure TurnPlayed (t t' : Table) (choice : Option (List CardId)) (starts : List RoundStart)
    (σ : Shuffle) : Prop where
  accepted : ∃ e r, botCall t.room.engine t.room.engine.state.turnPlayer choice = some (e, r) ∧
    r.code = .ok ∧ Table.afterPlay (t.cancelTurnTimer.setEngine e) r σ = some (t', starts)

/-- The search of a bot runs through all sets of cards of the hand, the masks being numbers of an
`int`. -/
structure TriesAll (hand : List CardId) : Prop where
  few : hand.length ≤ 28
  masks : 2 ^ hand.length ≤ BotPlayer.INT_MAX
  all : ∀ cards : List CardId, cards.Nodup → cards ≠ [] → (∀ id ∈ cards, id ∈ hand) →
    ∃ mask ∈ List.range' 1 (2 ^ hand.length - 1), (BotPlayer.subsetOf hand mask).Perm cards

theorem triesAll_of_few {hand : List CardId} (h : hand.length ≤ 28) : TriesAll hand := by
  refine ⟨h, ?_, fun cards hnodup hne hheld => ?_⟩
  · exact (Nat.pow_le_pow_right Nat.two_pos h).trans (by decide)
  · obtain ⟨sub, hperm, hsub⟩ := List.subperm_of_subset hnodup hheld
    have hne' : sub ≠ [] := by
      rintro rfl
      exact hne (List.nil_perm.1 hperm)
    obtain ⟨mask, hmask, rfl⟩ := Masks.exists_pick_of_ne_nil hsub hne'
    exact ⟨mask, hmask, hperm⟩

namespace Table

variable {t t' : Table} {r : Room} {e : GameEngine} {σ : Shuffle} {result : PlayResult}
  {starts : List RoundStart} {id : PlayerId}

/-- The next round starts, or none does; either is an answer. -/
theorem tryStartNextRound_isSome (h : RoomInv t.room) (σ : Shuffle) :
    (t.tryStartNextRound σ).isSome := by
  unfold tryStartNextRound
  split_ifs with hno
  · rfl
  · rcases h.startNextRound_spec σ with ⟨-, heq⟩ | ⟨-, -, e, heq, -⟩
    · rw [heq]
      rfl
    · rw [heq]
      rfl

theorem afterPlay_isSome (h : RoomInv r) (hroom : t.room = { r with engine := e })
    (hplay : Advances r.engine e result) (σ : Shuffle) : (t.afterPlay result σ).isSome := by
  rcases hplay.outcome with ⟨hgo, -⟩ | ⟨hover, hphase⟩
  · rw [afterPlay, hgo]
    rfl
  · rw [afterPlay, hover, if_pos rfl]
    unfold onGameOver
    split_ifs
    · rfl
    · refine tryStartNextRound_isSome ?_ σ
      show RoomInv t.room.enterSettlement
      rw [hroom]
      exact (h.settle hplay.course hphase).1

theorem advances_botCall {choice : Option (List CardId)}
    (h : botCall r.engine id choice = some (e, result)) (hcode : result.code = .ok) :
    Advances r.engine e result := by
  rcases choice with _ | play
  · exact advances_pass h hcode
  · exact advances_playCards h hcode

/-- The turn of a bot that is to move. -/
theorem executeBotTurn_acts (h : RoomInv t.room) (hplaying : t.room.engine.state.phase = .playing)
    (hbot : isBotPlayer t.room.engine.state.turnPlayer = true) (σ : Shuffle) :
    ∃ choice t' starts,
      t.room.engine.chooseBotPlay t.room.engine.state.turnPlayer = some choice ∧
      BestPlay t.room.engine t.room.engine.state.currentPlayerIndex choice ∧
      t.executeBotTurn t.room.engine.state.turnPlayer σ = some (t', starts) ∧
      TurnPlayed t t' choice starts σ := by
  have hplay : AtPlay t.room.engine := ⟨h.reached, hplaying⟩
  obtain ⟨choice, hchoose, hbest, e, result, hcall, hcode⟩ := hplay.botCall_ok
  obtain ⟨⟨t', starts⟩, hafter⟩ := Option.isSome_iff_exists.1
    (afterPlay_isSome (t := t.cancelTurnTimer.setEngine e) h rfl (advances_botCall hcall hcode) σ)
  refine ⟨choice, t', starts, hchoose, hbest, ?_, e, result, hcall, hcode, hafter⟩
  unfold executeBotTurn
  rw [hbot, if_neg (by decide), if_neg (not_not_intro hplaying),
    if_neg (not_not_intro hplay.seatOf_turnPlayer)]
  change Option.bind (t.room.engine.chooseBotPlay t.room.engine.state.turnPlayer) _ = _
  rw [hchoose, Option.bind_some]
  rcases choice with _ | play
  · change Option.bind (t.room.engine.pass t.room.engine.state.turnPlayer) _ = _
    rw [show t.room.engine.pass t.room.engine.state.turnPlayer = some (e, result) from hcall,
      Option.bind_some]
    dsimp only
    rw [if_pos hcode]
    exact hafter
  · change Option.bind (t.room.engine.playCards t.room.engine.state.turnPlayer play) _ = _
    rw [show t.room.engine.playCards t.room.engine.state.turnPlayer play = some (e, result) from hcall,
      Option.bind_some]
    dsimp only
    rw [if_pos hcode]
    exact hafter

end Table

/-- In every state of play where a bot is to move: it tries all sets of cards of its hand, chooses the
best of those that may be played, if any, and its turn ends with that play, or a pass, being accepted. -/
theorem bot_turn_advances (roomId : RoomId) {ownerId : PlayerId} (howner : ownerId ≠ 0) (mode : String)
    {t : Table} (h : table.Reachable TableCall (Table.create roomId ownerId mode) t)
    (hplaying : t.room.engine.state.phase = .playing)
    (hbot : isBotPlayer t.room.engine.state.turnPlayer = true) (σ : Shuffle) :
    TriesAll (t.room.engine.state.hands t.room.engine.state.currentPlayerIndex) ∧
    ∃ choice t' starts,
      t.room.engine.chooseBotPlay t.room.engine.state.turnPlayer = some choice ∧
      BestPlay t.room.engine t.room.engine.state.currentPlayerIndex choice ∧
      t.executeBotTurn t.room.engine.state.turnPlayer σ = some (t', starts) ∧
      TurnPlayed t t' choice starts σ := by
  have hinv := roomInv_reachable howner h
  have hplay : AtPlay t.room.engine := ⟨hinv.reached, hplaying⟩
  refine ⟨triesAll_of_few ?_, Table.executeBotTurn_acts hinv hplaying hbot σ⟩
  exact hinv.reached.length_hands_le (by simp [hplaying]) hplay.trick.seat

/-- The owner of a room for one leads a single card. -/
def soloFirstPlay : List TableOp := soloStart (Shuffle.stack []) ++ [.playCards 1 0 [0] (Shuffle.stack [])]

theorem bot_turn_advances_soloFirstPlay : ∃ t,
    table.run (Table.create "room" 1 "solo") soloFirstPlay = some t ∧
    ∃ choice t' starts,
      t.executeBotTurn t.room.engine.state.turnPlayer (Shuffle.stack []) = some (t', starts) ∧
      TurnPlayed t t' choice starts (Shuffle.stack []) := by
  have hok : table.Follows TableCall (Table.create "room" 1 "solo") soloFirstPlay := follows_of_admitted rfl
  obtain ⟨t, hrun, hphase, hbot⟩ := Machine.exists_run_of_any (M := table)
    (s := Table.create "room" 1 "solo") (l := soloFirstPlay)
    (P := fun t => t.room.engine.state.phase = .playing ∧
      isBotPlayer t.room.engine.state.turnPlayer = true) (by decide +kernel)
  obtain ⟨-, choice, t', starts, -, -, hturn, hplayed⟩ := bot_turn_advances "room" (by decide) "solo"
    (Machine.reachable_of_run hok hrun) hphase hbot (Shuffle.stack [])
  exact ⟨t, hrun, choice, t', starts, hturn, hplayed⟩

/-! ### Turn timeouts -/

namespace Table

/-- The timer runs for the player to move, or that player's turn is posted. -/
def TurnAwaited (t : Table) : Prop :=
  t.turnTimer = some t.room.engine.state.turnPlayer ∨
    .botTurn t.room.engine.state.turnPlayer ∈ t.tasks

/-- The turn has moved on, or the round is over; and the next turn, if there is one, is awaited. -/
structure MovesOn (t t' : Table) (starts : List RoundStart) : Prop where
  moved : t.room.engine.state.turnId < t'.room.engine.state.turnId ∨ starts ≠ [] ∨
    t'.room.engine.state.phase ≠ .playing
  awaited : t'.room.engine.state.phase = .playing → t'.TurnAwaited

/-- The task of a turn, when it is run in play: the turn moves on if it is still that player's, and
nothing changes if it is another's. -/
def TurnTaskActs (t : Table) : Prop :=
  ∀ playerId tasks σ, t.tasks = .botTurn playerId :: tasks → t.room.engine.state.phase = .playing →
    ∃ t' out, t.runTask σ = some (t', out) ∧
      (playerId = t.room.engine.state.turnPlayer → MovesOn t t' out.starts) ∧
      (playerId ≠ t.room.engine.state.turnPlayer → t' = { t with tasks := tasks } ∧ out = {})

/-- The next task of the queue is not, in play, the turn of a person who is still to move. -/
def NoPersonTimedOut (t : Table) : Prop :=
  ∀ playerId tasks, t.tasks = .botTurn playerId :: tasks → t.room.engine.state.phase = .playing →
    playerId = t.room.engine.state.turnPlayer → isBotPlayer playerId = true

variable {t t' : Table} {r : Room} {e : GameEngine} {σ : Shuffle} {result : PlayResult}
  {starts : List RoundStart} {id : PlayerId}

theorem scheduleTurnTimer_awaited (h : Reached t.room.engine)
    (hplaying : t.room.engine.state.phase = .playing) : t.scheduleTurnTimer.TurnAwaited := by
  have hplay : AtPlay t.room.engine := ⟨h, hplaying⟩
  unfold TurnAwaited
  rw [scheduleTurnTimer_room]
  have hroom : t.cancelTurnTimer.room = t.room := rfl
  unfold scheduleTurnTimer
  dsimp only
  rw [hroom, if_neg (not_not_intro hplaying), if_neg (Nat.not_le.2 hplay.trick.seat)]
  split_ifs
  · exact .inr (List.mem_append_right _ (List.mem_singleton_self _))
  · exact .inl rfl

theorem onRoundStarted_awaited (h : Reached t.room.engine)
    (hplaying : t.onRoundStarted.room.engine.state.phase = .playing) :
    t.onRoundStarted.TurnAwaited := by
  rw [onRoundStarted_room] at hplaying
  have hpending : t.room.engine.hasPendingTributeAction = false := by
    refine eq_false_of_ne_true fun hpending => ?_
    rcases GameEngine.phase_of_pending hpending with hp | hp <;> simp [hp] at hplaying
  unfold onRoundStarted
  rw [hpending, if_neg Bool.false_ne_true, if_pos hplaying]
  exact scheduleTurnTimer_awaited h hplaying

theorem tryStartNextRound_movesOn {t₀ : Table} (h : RoomInv t.room)
    (hphase : t.room.engine.state.phase = .finished)
    (htry : t.tryStartNextRound σ = some (t', starts)) : MovesOn t₀ t' starts := by
  unfold tryStartNextRound at htry
  split_ifs at htry with hno
  · cases htry
    have hover : t.room.engine.state.phase ≠ .playing := by simp [hphase]
    exact ⟨.inr (.inr hover), fun hp => absurd hp hover⟩
  rcases h.startNextRound_spec σ with ⟨hnot, -⟩ | ⟨-, -, e, heq, hcourse, -⟩
  · exact absurd hnot (by simpa using hno)
  · rw [heq] at htry
    cases htry
    exact ⟨.inr (.inl (List.cons_ne_nil _ _)), onRoundStarted_awaited (hcourse.reached h.reached)⟩

/-- After an accepted play the turn has moved on. -/
theorem afterPlay_movesOn (h : RoomInv t.room) (hplay : Advances t.room.engine e result)
    (hturn : e.state.phase = .playing → t.room.engine.state.turnId < e.state.turnId)
    (hafter : (t.cancelTurnTimer.setEngine e).afterPlay result σ = some (t', starts)) :
    MovesOn t t' starts := by
  rcases hplay.outcome with ⟨hgo, hphase⟩ | ⟨hover, hphase⟩
  · rw [afterPlay, hgo] at hafter
    cases hafter
    refine ⟨.inl ?_, fun _ => scheduleTurnTimer_awaited (hplay.course.reached h.reached) hphase⟩
    rw [scheduleTurnTimer_room]
    exact hturn hphase
  · rw [afterPlay, hover, if_pos rfl] at hafter
    unfold onGameOver at hafter
    split_ifs at hafter
    · cases hafter
      have hend : e.state.phase ≠ .playing := by simp [hphase]
      exact ⟨.inr (.inr hend), fun hp => absurd hp hend⟩
    · have hsettled := (h.settle hplay.course hphase).1
      have hend : (Room.enterSettlement { t.room with engine := e }).engine.state.phase = .finished :=
        hsettled.phase
      exact tryStartNextRound_movesOn (by exact hsettled) hend hafter

theorem botCall_turnId {choice : Option (List CardId)}
    (h : botCall r.engine id choice = some (e, result)) (hcode : result.code = .ok)
    (hplaying : e.state.phase = .playing) : r.engine.state.turnId < e.state.turnId := by
  rcases choice with _ | play
  · exact (pass_turnId h hcode).2.2
  · rcases (playCards_turnId h hcode).2 with ⟨-, hlt⟩ | hover
    · exact hlt
    · simp [hover] at hplaying

/-- Nothing happens in the name of a person. -/
theorem executeBotTurn_person (t : Table) (hperson : isBotPlayer id = false) (σ : Shuffle) :
    t.executeBotTurn id σ = some (t, []) := by
  unfold executeBotTurn
  rw [hperson]
  rfl

/-- Nothing happens in the name of a player who is not to move. -/
theorem executeBotTurn_late (hlate : id ≠ t.room.engine.state.turnPlayer) (σ : Shuffle) :
    t.executeBotTurn id σ = some (t, []) := by
  have hseat : t.room.engine.seatOf id ≠ some t.room.engine.state.currentPlayerIndex := fun hseat =>
    hlate (GameEngine.seatOf_some hseat).2.symm
  unfold executeBotTurn
  split_ifs <;> rfl

theorem turnTaskActs_iff (h : RoomInv t.room) : TurnTaskActs t ↔ NoPersonTimedOut t := by
  constructor
  · intro hacts playerId tasks htasks hplaying hturn
    by_contra hperson
    obtain ⟨t', out, hrun, hmoves, -⟩ := hacts playerId tasks (Shuffle.stack []) htasks hplaying
    have hmoved := (hmoves hturn).moved
    rw [runTask, htasks] at hrun
    dsimp only at hrun
    rw [executeBotTurn_person _ (eq_false_of_ne_true hperson)] at hrun
    cases hrun
    rcases hmoved with hlt | hstarts | hphase
    · exact absurd hlt (Nat.lt_irrefl _)
    · exact hstarts rfl
    · exact hphase hplaying
  · intro hbots playerId tasks σ htasks hplaying
    unfold runTask
    rw [htasks]
    dsimp only
    by_cases hturn : playerId = t.room.engine.state.turnPlayer
    · have hbot := hbots playerId tasks htasks hplaying hturn
      obtain ⟨choice, t', starts, -, -, hrun, e, result, hcall, hcode, hafter⟩ :=
        executeBotTurn_acts (t := { t with tasks := tasks }) h hplaying (hturn ▸ hbot) σ
      subst hturn
      refine ⟨t', { starts := starts }, congrArg done hrun, fun _ => ?_, fun hne => absurd rfl hne⟩
      have hmoves := afterPlay_movesOn (t := { t with tasks := tasks }) h
        (advances_botCall hcall hcode) (botCall_turnId hcall hcode) hafter
      exact ⟨hmoves.moved, hmoves.awaited⟩
    · have hlate := executeBotTurn_late (t := { t with tasks := tasks }) hturn σ
      exact ⟨_, _, congrArg done hlate, fun heq => absurd heq hturn, fun _ => ⟨rfl, rfl⟩⟩

end Table

/-- In every state that a room reaches the task of a turn acts exactly when it is not the task of a
person who is still to move. -/
theorem turn_task_acts_iff (roomId : RoomId) {ownerId : PlayerId} (howner : ownerId ≠ 0) (mode : String)
    {t : Table} (h : table.Reachable TableCall (Table.create roomId ownerId mode) t) :
    t.TurnTaskActs ↔ t.NoPersonTimedOut :=
  Table.turnTaskActs_iff (roomInv_reachable howner h)

/-- The owner of a room for one starts the match and lets the timer of the first turn run out. -/
def soloTimeout : List TableOp := soloStart (Shuffle.stack []) ++ [.fireTurnTimer]

theorem turn_task_acts_iff_soloFirstPlay : ∃ t,
    table.run (Table.create "room" 1 "solo") soloFirstPlay = some t ∧
    (t.TurnTaskActs ↔ t.NoPersonTimedOut) := by
  have hok : table.Follows TableCall (Table.create "room" 1 "solo") soloFirstPlay :=
    follows_of_admitted rfl
  obtain ⟨t, hrun, -⟩ := Machine.exists_run_of_any (M := table)
    (s := Table.create "room" 1 "solo") (l := soloFirstPlay) (P := fun _ => True) (by decide +kernel)
  exact ⟨t, hrun, turn_task_acts_iff "room" (by decide) "solo" (Machine.reachable_of_run hok hrun)⟩

/-- The timer of a person's turn runs out, and its task does not act. -/
theorem timeout_ignored : ∃ t, table.run (Table.create "room" 1 "solo") soloTimeout = some t ∧
    table.Reachable TableCall (Table.create "room" 1 "solo") t ∧ ¬ t.TurnTaskActs := by
  have hok : table.Follows TableCall (Table.create "room" 1 "solo") soloTimeout := follows_of_admitted rfl
  obtain ⟨t, hrun, hphase, htasks, hturn⟩ := Machine.exists_run_of_any (M := table)
    (s := Table.create "room" 1 "solo") (l := soloTimeout)
    (P := fun t => t.room.engine.state.phase = .playing ∧ t.tasks = [.botTurn 1] ∧
      t.room.engine.state.turnPlayer = 1) (by decide +kernel)
  have hreach := Machine.reachable_of_run hok hrun
  refine ⟨t, hrun, hreach, fun hacts => ?_⟩
  have hbots := (Table.turnTaskActs_iff (roomInv_reachable (by decide) hreach)).1 hacts
  exact absurd (hbots 1 [] htasks hphase hturn.symm) (by decide)

end Guandan
