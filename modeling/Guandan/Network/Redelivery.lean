import Guandan.Engine.Refusals
import Guandan.Engine.TurnIds
import Guandan.Network.RoomPhases

/-!
# Messages that are delivered twice

A `play_cards` or `pass` that has been accepted is refused for the rest of the round, its turn being
over. The next deal begins with turn 1 again: there a message of an earlier round is accepted as soon
as its turn comes round, its sender is to move and the move is one that can be made (`Allowed`).
-/

namespace Guandan

open Room

/-- A `play_cards` or, without cards, a `pass`. -/
structure TurnMessage where
  playerId : PlayerId
  turnId : Nat
  cards : Option (List CardId)
  deriving DecidableEq, Repr

namespace TurnMessage

/-- The delivery of the message, with the shuffle of a deal that follows. -/
def op (m : TurnMessage) (σ : Shuffle) : TableOp :=
  match m.cards with
  | some cards => .playCards m.playerId m.turnId cards σ
  | none => .pass m.playerId m.turnId

/-- The message is for the turn that is on, its sender is to move, and the move can be made. -/
structure Allowed (t : Table) (m : TurnMessage) : Prop where
  found : t.finds m.playerId = true
  phase : t.room.engine.state.phase = .playing
  turn : m.turnId = t.room.engine.state.turnId
  seat : t.room.engine.seatOf m.playerId = some t.room.engine.state.currentPlayerIndex
  move : match m.cards with
    | some cards => cards ≠ [] ∧ ∃ seat pattern,
        GameEngine.Playable t.room.engine m.playerId cards seat pattern
    | none => t.room.engine.state.lastPattern.isValid = true

/-- Wherever it is delivered, the message is answered with an error and changes nothing. -/
def Refused (t : Table) (m : TurnMessage) : Prop :=
  ∀ σ, ∃ code, code ≠ .ok ∧ table.step t (m.op σ) = some (t, { reply := some code })

end TurnMessage

def TableOp.turnMessage? : TableOp → Option TurnMessage
  | .playCards id turnId cards _ => some ⟨id, turnId, some cards⟩
  | .pass id turnId => some ⟨id, turnId, none⟩
  | _ => none

/-- The messages that were accepted since the last deal, and those that were accepted before. -/
structure AcceptedMessages where
  round : List TurnMessage := []
  earlier : List TurnMessage := []

def recordAccepted (g : AcceptedMessages) (_ : Table) (op : TableOp) (out : TableOut) (_ : Table) :
    AcceptedMessages :=
  let accepted := if out.reply = some .ok then op.turnMessage?.toList else []
  if out.starts = [] then { g with round := g.round ++ accepted }
  else { round := [], earlier := g.earlier ++ g.round ++ accepted }

/-- A room with the messages that it has accepted. -/
def acceptingTable : Machine (Table × AcceptedMessages) TableOp TableOut :=
  table.withHistory recordAccepted

/-- No message that has been accepted is accepted again. -/
def AtMostOnce (tg : Table × AcceptedMessages) : Prop :=
  ∀ m ∈ tg.2.round ++ tg.2.earlier, 0 < m.turnId → m.Refused tg.1

/-- No message of an earlier round fits the turn that is on. -/
def EarlierOver (tg : Table × AcceptedMessages) : Prop :=
  ∀ m ∈ tg.2.earlier, 0 < m.turnId → ¬ m.Allowed tg.1

/-- The messages of the round are for turns that are over. -/
structure RoundOver (tg : Table × AcceptedMessages) : Prop where
  room : RoomInv tg.1.room
  past : tg.1.room.engine.state.phase = .playing →
    ∀ m ∈ tg.2.round, 0 < m.turnId → m.turnId < tg.1.room.engine.state.turnId
  fresh : AtTribute tg.1.room.engine → ∀ m ∈ tg.2.round, m.turnId = 0

/-! ### What a step that deals no cards does to the turn -/

namespace Table

variable {t t' : Table} {op : TableOp} {out : TableOut} {id : PlayerId} {σ : Shuffle}
  {result : PlayResult} {starts : List RoundStart} {e : GameEngine}

theorem enterSettlement_turnsOn (r : Room) : TurnsOn r.engine r.enterSettlement.engine := by
  have hall : ∀ (ps : List RoomPlayer) (e : GameEngine),
      TurnsOn e (ps.foldl (fun e p => e.setPlayerReady p.id p.isBot) e) := by
    intro ps
    induction ps with
    | nil => exact fun e => .refl e
    | cons p ps ih => exact fun e => (TurnsOn.setPlayerReady e p.id p.isBot).trans (ih _)
  exact hall r.players r.engine

theorem tryStartNextRound_turnsOn (h : t.tryStartNextRound σ = some (t', [])) :
    TurnsOn t.room.engine t'.room.engine := by
  unfold tryStartNextRound at h
  split_ifs at h with hno
  · cases h
    exact .refl _
  · obtain ⟨⟨r, started⟩, hstart, h⟩ := Option.bind_eq_some_iff.1 h
    rcases started with _ | _
    · cases h
      unfold Room.startNextRound at hstart
      split_ifs at hstart
      · cases hstart
        exact .refl _
      · cases hstart
        exact .refl _
      · obtain ⟨⟨e, result⟩, hnext, hstart⟩ := Option.bind_eq_some_iff.1 hstart
        dsimp only at hstart
        split_ifs at hstart with hcode
        · cases hstart
        · cases hstart
          rcases GameEngine.startNextRound_cases hnext with ⟨rfl, -⟩ | ⟨-, rfl, -⟩
          · exact .refl _
          · exact absurd rfl hcode
    · cases h

theorem afterPlay_turnsOn (h : t.afterPlay result σ = some (t', [])) :
    TurnsOn t.room.engine t'.room.engine := by
  unfold afterPlay at h
  split_ifs at h
  · unfold onGameOver at h
    split_ifs at h
    · cases h
      exact .refl _
    · exact (enterSettlement_turnsOn t.room).trans (tryStartNextRound_turnsOn h)
  · cases h
    rw [scheduleTurnTimer_room]
    exact .refl _

theorem botPass_turnsOn (h : t.botPass id σ = some (t', [])) :
    TurnsOn t.room.engine t'.room.engine := by
  obtain ⟨⟨e, result⟩, hpass, h⟩ := Option.bind_eq_some_iff.1 h
  dsimp only at h
  split_ifs at h
  · exact (TurnsOn.pass hpass).trans (afterPlay_turnsOn (t := t.setEngine e) h)
  · cases h
    exact .refl _

theorem executeBotTurn_turnsOn (h : t.executeBotTurn id σ = some (t', [])) :
    TurnsOn t.room.engine t'.room.engine := by
  unfold executeBotTurn at h
  split_ifs at h
  · cases h
    exact .refl _
  · cases h
    exact .refl _
  · cases h
    exact .refl _
  have hpass : t.cancelTurnTimer.botPass id σ = some (t', []) →
      TurnsOn t.room.engine t'.room.engine := botPass_turnsOn (t := t.cancelTurnTimer)
  obtain ⟨choice, -, h⟩ := Option.bind_eq_some_iff.1 h
  rcases choice with _ | play
  · exact hpass h
  · obtain ⟨⟨e, result⟩, hplay, h⟩ := Option.bind_eq_some_iff.1 h
    dsimp only at h
    split_ifs at h
    · exact (TurnsOn.playCards hplay).trans
        (afterPlay_turnsOn (t := t.cancelTurnTimer.setEngine e) h)
    · exact hpass h

theorem executeBotTributeActions_turnsOn (h : t.executeBotTributeActions = some t') :
    TurnsOn t.room.engine t'.room.engine := by
  rcases executeBotTributeActions_cases h with ⟨-, rfl⟩ | ⟨hpending, b, -, rfl⟩
  · exact .refl _
  · exact .of_tribute (ongoing_of_pending hpending |>.resolve_left fun hplaying => by
      simp [GameEngine.hasPendingTributeAction, hplaying] at hpending)

/-! ### A play or pass that is delivered -/

theorem validateTurn_allowed {turnId : Nat} (hpos : 0 < turnId)
    (h : t.validateTurn id turnId = none) :
    t.room.engine.state.phase = .playing ∧ turnId = t.room.engine.state.turnId := by
  unfold validateTurn at h
  dsimp only at h
  split_ifs at h with hphase hturn
  exact ⟨not_not.1 hphase, not_not.1 fun hne => hturn ⟨hpos, hne⟩⟩

theorem validateTurn_of_allowed {m : TurnMessage} (h : m.Allowed t) :
    t.validateTurn m.playerId m.turnId = none := by
  obtain ⟨hlt, hid⟩ := GameEngine.seatOf_some h.seat
  unfold validateTurn
  dsimp only
  rw [if_neg (not_not_intro h.phase), if_neg fun hturn => hturn.2 h.turn,
    if_neg (Nat.not_le.2 hlt), if_neg (not_not_intro hid)]

/-- Requests about the room leave the turn as it is. -/
theorem handled_turnsOn {r : Room} (h : Handled t op r []) (hinv : RoomInv t.room)
    (hplay : ¬ op.isPlay) (htribute : ¬ op.isTribute) : TurnsOn t.room.engine r.engine := by
  cases h with
  | stays _ => exact .refl _
  | notFound _ _ => exact .refl _
  | joined hjoin =>
    obtain ⟨p, -, rfl⟩ := join_cases hjoin
    exact .refl _
  | left _ =>
    rw [leave_eq]
    exact .refl _
  | @readied id σ r hready _ =>
    rw [hready]
    rcases hr : t.room.ready id with _ | r₁
    · exact .refl _
    · unfold Room.ready at hr
      split_ifs at hr
      obtain ⟨p, -, rfl⟩ := Option.map_eq_some_iff.1 hr
      dsimp only [Option.getD_some]
      split_ifs
      · exact .refl _
      · exact .setPlayerReady _ _ _
  | unreadied hunready =>
    rw [(hinv.unready hunready).2.1]
    exact .refl _
  | moved hmove =>
    unfold Room.changeSeat at hmove
    split_ifs at hmove
    obtain ⟨p, -, rfl⟩ := Option.map_eq_some_iff.1 hmove
    exact .refl _
  | optioned hset =>
    unfold Room.setEnableTribute at hset
    split_ifs at hset
    cases hset
    exact .updateConfig _ _
  | voted vote _ => exact .refl _
  | notStarted _ => exact .refl _
  | played hop _ _ => exact absurd hop hplay
  | tributed hop _ _ _ => exact absurd hop htribute
  | filled _ hpeople =>
    rw [(hinv.members.fillBots hpeople).2.2.1]
    exact .refl _

/-- A step that starts no round leaves the turn or moves it on. -/
theorem step_turnsOn (hinv : RoomInv t.room) (hok : TableCall t op)
    (hstep : table.step t op = some (t', out)) (hstarts : out.starts = []) :
    TurnsOn t.room.engine t'.room.engine := by
  have hhandled := table_step hinv hok hstep
  rw [hstarts] at hhandled
  change t.apply op = some (t', out) at hstep
  cases op with
  | playCards id turnId cards σ =>
    rcases handlePlayCards_cases hstep with ⟨rfl, -⟩ | ⟨-, -, -, -, e, result, hplay, -, hafter⟩
    · exact .refl _
    · rw [hstarts] at hafter
      exact (TurnsOn.playCards hplay).trans
        (afterPlay_turnsOn (t := (t.setEngine e).cancelTurnTimer) hafter)
  | pass id turnId =>
    rcases handlePass_cases hstep with ⟨rfl, -⟩ | ⟨-, -, -, e, result, hpass, -, rfl⟩
    · exact .refl _
    · rw [scheduleTurnTimer_room]
      exact .pass hpass
  | submitTribute id cardId =>
    rcases handleSubmitTribute_cases hstep with ⟨rfl, -⟩ | ⟨e, result, hsubmit, -, rfl, -⟩
    · exact .refl _
    · rw [continueTribute_room]
      exact .submitTribute hsubmit
  | submitReturn id cardId =>
    rcases handleSubmitReturn_cases hstep with ⟨rfl, -⟩ | ⟨e, result, hsubmit, hcode, -, -⟩
    · exact .refl _
    · rcases GameEngine.submitReturn_cases hsubmit with ⟨-, hno⟩ | ⟨seat, hphase, -⟩
      · exact absurd hcode hno
      · exact .of_tribute (.inr hphase)
  | runTask σ =>
    obtain ⟨task, tasks, -, hrun⟩ := runTask_cases hstep
    rcases task with playerId | _ <;> dsimp only at hrun
    · rw [hstarts] at hrun
      exact executeBotTurn_turnsOn (t := { t with tasks := tasks }) hrun
    · exact executeBotTributeActions_turnsOn (t := { t with tasks := tasks }) hrun.1
  | _ => exact handled_turnsOn hhandled hinv (by simp [TableOp.isPlay]) (by simp [TableOp.isTribute])

end Table

theorem pass_accepted {e e' : GameEngine} {id : PlayerId} {result : PlayResult}
    (hphase : e.state.phase = .playing) (hseat : e.seatOf id = some e.state.currentPlayerIndex)
    (hvalid : e.state.lastPattern.isValid = true) (h : e.pass id = some (e', result)) :
    result.code = .ok := by
  unfold GameEngine.pass at h
  rw [if_neg (not_not_intro hphase), hseat] at h
  dsimp only at h
  rw [if_neg (not_not_intro rfl), hvalid] at h
  obtain ⟨s, -, heq⟩ := Option.bind_eq_some_iff.1 h
  cases heq
  rfl

section Allowed

variable {t : Table} {id : PlayerId} {turnId : Nat} {cards : List CardId} {e : GameEngine}
  {result : PlayResult}

theorem allowed_of_playCards (hpos : 0 < turnId) (hfinds : t.finds id = true)
    (hturn : t.validateTurn id turnId = none) (hcards : cards ≠ [])
    (hplay : t.room.engine.playCards id cards = some (e, result)) (hcode : result.code = .ok) :
    TurnMessage.Allowed t ⟨id, turnId, some cards⟩ := by
  obtain ⟨hplaying, heq⟩ := Table.validateTurn_allowed hpos hturn
  rcases GameEngine.playCards_cases hplay with ⟨-, hno, -⟩ | ⟨seat, pattern, hplayable, -, -⟩
  · exact absurd hcode hno
  · exact ⟨hfinds, hplaying, heq, hplayable.turn ▸ hplayable.seated, hcards, seat, pattern,
      hplayable⟩

theorem allowed_of_pass (hpos : 0 < turnId) (hfinds : t.finds id = true)
    (hturn : t.validateTurn id turnId = none)
    (hpass : t.room.engine.pass id = some (e, result)) (hcode : result.code = .ok) :
    TurnMessage.Allowed t ⟨id, turnId, none⟩ := by
  obtain ⟨hplaying, heq⟩ := Table.validateTurn_allowed hpos hturn
  rcases GameEngine.pass_cases hpass with ⟨-, hno⟩ | ⟨seat, s, -, hseat, hcurrent, hvalid, -⟩
  · exact absurd hcode hno
  · exact ⟨hfinds, hplaying, heq, hcurrent ▸ hseat, hvalid⟩

/-- A play is answered, unless the engine accepts it and throws at the next deal. -/
theorem handlePlayCards_answered (hinv : RoomInv t.room) (hpos : 0 < turnId) (σ : Shuffle)
    (hno : ¬ TurnMessage.Allowed t ⟨id, turnId, some cards⟩) :
    (t.handlePlayCards id turnId cards σ).isSome := by
  obtain ⟨log, passes, hfacts⟩ := hinv.reached.facts
  unfold Table.handlePlayCards
  rcases hfinds : t.finds id with _ | _
  · rfl
  rcases hturn : t.validateTurn id turnId with _ | code
  swap
  · rfl
  simp only [Bool.not_true, Bool.false_eq_true, if_false]
  split_ifs with hcards
  · rfl
  obtain ⟨⟨e, result⟩, hplay⟩ := Option.isSome_iff_exists.1
    (playCards_answered hfacts.trick hfacts.round id cards)
  rw [hplay]
  have hcode : result.code ≠ .ok := fun hcode =>
    hno (allowed_of_playCards hpos hfinds hturn (by simpa using hcards) hplay hcode)
  simp only [Option.bind_eq_bind, Option.bind_some, if_pos hcode]
  rfl

theorem handlePass_answered (hinv : RoomInv t.room) (id : PlayerId) (turnId : Nat) :
    (t.handlePass id turnId).isSome := by
  obtain ⟨log, passes, hfacts⟩ := hinv.reached.facts
  unfold Table.handlePass
  rcases hfinds : t.finds id with _ | _
  · rfl
  rcases hturn : t.validateTurn id turnId with _ | code
  swap
  · rfl
  obtain ⟨⟨e, result⟩, hpass⟩ := Option.isSome_iff_exists.1 (pass_answered hfacts.trick id)
  rw [hpass]
  simp only [Bool.not_true, Bool.false_eq_true, if_false, Option.bind_eq_bind, Option.bind_some]
  split_ifs
  · rfl
  · rfl

end Allowed

/-- What becomes of a message that is delivered and answered. -/
theorem delivered_cases {t t' : Table} {m : TurnMessage} {σ : Shuffle} {out : TableOut}
    (hpos : 0 < m.turnId) (hstep : table.step t (m.op σ) = some (t', out)) :
    (¬ m.Allowed t ∧ t' = t ∧ ∃ code, code ≠ .ok ∧ out = { reply := some code }) ∨
    (m.Allowed t ∧ out.reply = some .ok ∧ ∃ e,
      (out.starts = [] → TurnsOn e t'.room.engine) ∧
      ((e.state.phase = .playing ∧ m.turnId < e.state.turnId) ∨ e.state.phase = .finished)) := by
  obtain ⟨id, turnId, cards⟩ := m
  rcases cards with _ | cards
  · rcases Table.handlePass_cases hstep with ⟨rfl, code, hcode, hout, hwhy⟩ |
      ⟨hfinds, hturn, rfl, e, result, hpass, hcode, rfl⟩
    · refine .inl ⟨fun hallowed => ?_, rfl, code, hcode, hout⟩
      rcases hwhy with hno | hno | ⟨e, result, hpass, hno⟩
      · exact absurd (hallowed.found.symm.trans hno) nofun
      · rw [Table.validateTurn_of_allowed hallowed] at hno
        cases hno
      · exact hno (pass_accepted hallowed.phase hallowed.seat hallowed.move hpass)
    · obtain ⟨hplaying, heq⟩ := Table.validateTurn_allowed hpos hturn
      obtain ⟨-, hplaying', hlt⟩ := pass_turnId hpass hcode
      refine .inr ⟨allowed_of_pass hpos hfinds hturn hpass hcode, rfl, e, fun _ => ?_, ?_⟩
      · rw [Table.scheduleTurnTimer_room]
        exact .refl e
      · exact .inl ⟨hplaying', heq ▸ hlt⟩
  · rcases Table.handlePlayCards_cases hstep with ⟨rfl, code, hcode, hout, hwhy⟩ |
      ⟨hfinds, hturn, hcards, hreply, e, result, hplay, hcode, hafter⟩
    · refine .inl ⟨fun hallowed => ?_, rfl, code, hcode, hout⟩
      obtain ⟨hne, seat, pattern, hplayable⟩ := hallowed.move
      rcases hwhy with hno | hno | hno | ⟨e, result, hplay, hno⟩
      · exact absurd (hallowed.found.symm.trans hno) nofun
      · rw [Table.validateTurn_of_allowed hallowed] at hno
        cases hno
      · exact hne hno
      · rcases GameEngine.playCards_cases hplay with ⟨-, -, hnot⟩ | ⟨-, -, -, hok, -⟩
        · exact hnot seat pattern hplayable
        · exact hno hok
    · obtain ⟨hplaying, heq⟩ := Table.validateTurn_allowed hpos hturn
      obtain ⟨-, hafterwards⟩ := playCards_turnId hplay hcode
      refine .inr ⟨allowed_of_playCards hpos hfinds hturn hcards hplay hcode, hreply, e,
        fun hstarts => ?_, ?_⟩
      · rw [hstarts] at hafter
        exact Table.afterPlay_turnsOn (t := (t.setEngine e).cancelTurnTimer) hafter
      · exact hafterwards.imp_left fun h => ⟨h.1, heq ▸ h.2⟩

theorem refused_of_not_allowed {t : Table} {m : TurnMessage} (hinv : RoomInv t.room)
    (hpos : 0 < m.turnId) (hno : ¬ m.Allowed t) : m.Refused t := by
  intro σ
  have hanswered : (table.step t (m.op σ)).isSome := by
    obtain ⟨id, turnId, cards⟩ := m
    rcases cards with _ | cards
    · exact handlePass_answered hinv id turnId
    · exact handlePlayCards_answered hinv hpos σ hno
  obtain ⟨⟨t', out⟩, hstep⟩ := Option.isSome_iff_exists.1 hanswered
  rcases delivered_cases hpos hstep with ⟨-, rfl, code, hcode, rfl⟩ | ⟨hallowed, -⟩
  · exact ⟨code, hcode, hstep⟩
  · exact absurd hallowed hno

/-- The message is refused exactly if it is not allowed. -/
theorem refused_iff {t : Table} {m : TurnMessage} (hinv : RoomInv t.room) (hpos : 0 < m.turnId) :
    m.Refused t ↔ ¬ m.Allowed t := by
  refine ⟨fun hrefused hallowed => ?_, refused_of_not_allowed hinv hpos⟩
  obtain ⟨code, hcode, hstep⟩ := hrefused (Shuffle.stack [])
  rcases delivered_cases hpos hstep with ⟨hno, -⟩ | ⟨-, hreply, -⟩
  · exact hno hallowed
  · exact hcode (Option.some.inj hreply)

/-! ### Runs -/

section Runs

variable {tg tg' : Table × AcceptedMessages} {op : TableOp} {out : TableOut}

theorem atMostOnce_iff (hinv : RoundOver tg) : AtMostOnce tg ↔ EarlierOver tg := by
  constructor
  · intro honce m hm hpos
    exact (refused_iff hinv.room hpos).1 (honce m (List.mem_append_right _ hm) hpos)
  · intro hover m hm hpos
    rw [refused_iff hinv.room hpos]
    rcases List.mem_append.1 hm with hm | hm
    · intro hallowed
      have hlt := hinv.past hallowed.phase m hm hpos
      rw [hallowed.turn] at hlt
      exact Nat.lt_irrefl _ hlt
    · exact hover m hm hpos

theorem turnMessage_op {m : TurnMessage} (h : op.turnMessage? = some m) : ∃ σ, op = m.op σ := by
  unfold TableOp.turnMessage? at h
  split at h
  · cases h
    exact ⟨_, rfl⟩
  · cases h
    exact ⟨Shuffle.stack [], rfl⟩
  · cases h

/-- A message that has been accepted is for a turn that is over, and tributes are over too. -/
theorem accepted_over {t t' : Table} {m : TurnMessage} (hmessage : op.turnMessage? = some m)
    (hpos : 0 < m.turnId) (hstep : table.step t op = some (t', out))
    (hreply : out.reply = some .ok) (hstarts : out.starts = []) :
    (t'.room.engine.state.phase = .playing → m.turnId < t'.room.engine.state.turnId) ∧
      ¬ AtTribute t'.room.engine := by
  obtain ⟨σ, rfl⟩ := turnMessage_op hmessage
  rcases delivered_cases hpos hstep with ⟨-, -, code, hcode, rfl⟩ | ⟨-, -, e, hturns, he⟩
  · exact absurd (Option.some.inj hreply) hcode
  have hnot : ¬ AtTribute e := by
    rintro (hp | hp) <;> simp [hp] at he
  refine ⟨fun hplaying => ?_, fun htribute => hnot ((hturns hstarts).tribute htribute)⟩
  rcases (hturns hstarts).playing hplaying with ⟨hp, hle⟩ | htribute
  · rcases he with ⟨-, hlt⟩ | hover
    · exact hlt.trans_le hle
    · exact absurd (hp.symm.trans hover) nofun
  · exact absurd htribute hnot

theorem RoundOver.step (hinv : RoundOver tg) (hok : TableCall tg.1 op)
    (hstep : acceptingTable.step tg op = some (tg', out)) : RoundOver tg' := by
  obtain ⟨htable, hrecord⟩ := Machine.withHistory_step.1 hstep
  obtain ⟨t, g⟩ := tg
  obtain ⟨t', g'⟩ := tg'
  dsimp only at hok htable hrecord
  have hroom' := roomInv_step hinv.room hok htable
  by_cases hstarts : out.starts = []
  swap
  · rw [recordAccepted, if_neg hstarts] at hrecord
    subst hrecord
    exact ⟨hroom', fun _ _ hm => (List.not_mem_nil hm).elim,
      fun _ _ hm => (List.not_mem_nil hm).elim⟩
  rw [recordAccepted, if_pos hstarts] at hrecord
  subst hrecord
  have hturns := Table.step_turnsOn hinv.room hok htable hstarts
  -- a message of the round has been accepted before or just now
  have hnew : ∀ m ∈ if out.reply = some .ok then op.turnMessage?.toList else [], 0 < m.turnId →
      (t'.room.engine.state.phase = .playing → m.turnId < t'.room.engine.state.turnId) ∧
        ¬ AtTribute t'.room.engine := by
    intro m hm hpos
    split_ifs at hm with hreply
    · exact accepted_over (Option.mem_toList.1 hm) hpos htable hreply hstarts
    · exact (List.not_mem_nil hm).elim
  refine ⟨hroom', fun hplaying m hm hpos => ?_, fun htribute m hm => ?_⟩
  · rcases List.mem_append.1 hm with hm | hm
    · rcases hturns.playing hplaying with ⟨hplaying', hle⟩ | htribute
      · exact (hinv.past hplaying' m hm hpos).trans_le hle
      · exact absurd (hinv.fresh htribute m hm) hpos.ne'
    · exact (hnew m hm hpos).1 hplaying
  · rcases List.mem_append.1 hm with hm | hm
    · exact hinv.fresh (hturns.tribute htribute) m hm
    · by_contra hne
      exact (hnew m hm (Nat.pos_of_ne_zero hne)).2 htribute

end Runs

/-- Along every run of a room, a play or pass that was accepted under a turn id is refused whenever it
is delivered again, exactly if no message that was accepted before the last deal fits the turn that
is on. -/
theorem accepted_once (roomId : RoomId) {ownerId : PlayerId} (howner : ownerId ≠ 0) (mode : String)
    {ops : List TableOp} (hok : acceptingTable.Follows (fun tg op => TableCall tg.1 op)
      (Table.create roomId ownerId mode, {}) ops) :
    acceptingTable.Always AtMostOnce (Table.create roomId ownerId mode, {}) ops ↔
      acceptingTable.Always EarlierOver (Table.create roomId ownerId mode, {}) ops :=
  Machine.always_congr (J := RoundOver) (fun _ _ _ _ hinv hop hstep => hinv.step hop hstep)
    (fun _ hinv => atMostOnce_iff hinv)
    ⟨(roomInv_create roomId howner mode).1, fun _ _ hm => (List.not_mem_nil hm).elim,
      fun _ _ hm => (List.not_mem_nil hm).elim⟩ hok

/-! ### The same lead in two rounds -/

/-- In a room for one without tributes the owner leads a pair and goes out first; in the next round
the same hand is dealt, and the owner leads again. -/
def sameLead : List TableOp :=
  [.setRoomOptions 1 false] ++ soloStart (Shuffle.stack [1, 14, 3, 17, 2, 15, 4, 18]) ++
    [.playCards 1 1 [1, 14] (Shuffle.stack []), .runTask (Shuffle.stack []),
      .runTask (Shuffle.stack []), .ready 1 (Shuffle.stack [1, 14, 3, 17, 2, 15, 4, 18])]

theorem sameLead_follows : acceptingTable.Follows (fun tg op => TableCall tg.1 op)
    (Table.create "room" 1 "solo", {}) sameLead :=
  Machine.Follows.of_forall fun op hop tg =>
    tableCall_of_admitted (List.all_eq_true.1 (by decide : sameLead.all TableOp.admitted = true) op hop)
      tg.1

/-- The owner is dealt another hand in the next round. -/
def otherLead : List TableOp :=
  [.setRoomOptions 1 false] ++ soloStart (Shuffle.stack [1, 14, 3, 17, 2, 15, 4, 18]) ++
    [.playCards 1 1 [1, 14] (Shuffle.stack []), .runTask (Shuffle.stack []),
      .runTask (Shuffle.stack []), .ready 1 (Shuffle.stack [3, 17, 1, 14, 2, 15, 4, 18])]

theorem otherLead_follows : acceptingTable.Follows (fun tg op => TableCall tg.1 op)
    (Table.create "room" 1 "solo", {}) otherLead :=
  Machine.Follows.of_forall fun op hop tg =>
    tableCall_of_admitted (List.all_eq_true.1 (by decide : otherLead.all TableOp.admitted = true) op hop)
      tg.1

/-- The cards of the earlier plays cannot be played. -/
def EarlierRefused (tg : Table × AcceptedMessages) : Prop :=
  ∀ m ∈ tg.2.earlier, m.cards.any (fun cards =>
    (tg.1.room.engine.checkPlay m.playerId cards).any fun checked => !checked.isOk) = true

instance : DecidablePred EarlierRefused := fun tg =>
  inferInstanceAs (Decidable (∀ m ∈ tg.2.earlier, _))

theorem EarlierRefused.over {tg : Table × AcceptedMessages} (h : EarlierRefused tg) :
    EarlierOver tg := by
  intro m hm _ hallowed
  have hrefused := h m hm
  have hmove := hallowed.move
  rcases hcards : m.cards with _ | cards
  · simp [hcards] at hrefused
  · rw [hcards] at hmove hrefused
    obtain ⟨-, seat, pattern, hplayable⟩ := hmove
    simp [GameEngine.checkPlay_of_playable hplayable, Except.isOk, Except.toBool] at hrefused

/-- Led twice, the pair fits again; with another hand it does not. -/
theorem accepted_once_sameLead :
    (acceptingTable.Always AtMostOnce (Table.create "room" 1 "solo", {}) sameLead ↔
      acceptingTable.Always EarlierOver (Table.create "room" 1 "solo", {}) sameLead) ∧
    (∃ tg, acceptingTable.run (Table.create "room" 1 "solo", {}) otherLead = some tg ∧
      ⟨1, 1, some [1, 14]⟩ ∈ tg.2.earlier) ∧
    acceptingTable.Always AtMostOnce (Table.create "room" 1 "solo", {}) otherLead := by
  refine ⟨accepted_once "room" (by decide) "solo" sameLead_follows, ?_, ?_⟩
  · exact Machine.exists_run_of_any (by decide +kernel)
  · have hrefused : acceptingTable.Always EarlierRefused (Table.create "room" 1 "solo", {}) otherLead := by
      decide +kernel
    exact (accepted_once "room" (by decide) "solo" otherLead_follows).2
      (hrefused.mono fun _ => EarlierRefused.over)

theorem lead_accepted_again :
    ¬ acceptingTable.Always AtMostOnce (Table.create "room" 1 "solo", {}) sameLead := by
  intro hall
  obtain ⟨tg, hrun, hearlier, haccepted⟩ := Machine.exists_run_of_any (M := acceptingTable)
    (s := (Table.create "room" 1 "solo", {})) (l := sameLead)
    (P := fun tg => ⟨1, 1, some [1, 14]⟩ ∈ tg.2.earlier ∧
      (table.step tg.1 (.playCards 1 1 [1, 14] (Shuffle.stack []))).any
        (fun a => decide (a.2.reply = some .ok)) = true) (by decide +kernel)
  obtain ⟨⟨t', out⟩, hstep, hreply⟩ := Machine.exists_of_any haccepted
  obtain ⟨code, hcode, hrefused⟩ :=
    hall.of_run hrun ⟨1, 1, some [1, 14]⟩ (List.mem_append_right _ hearlier) (by decide)
      (Shuffle.stack [])
  cases hstep.symm.trans hrefused
  exact hcode (Option.some.inj hreply)

end Guandan
