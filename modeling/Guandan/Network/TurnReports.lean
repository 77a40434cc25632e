import Guandan.Network.Reports

/-!
# What a player learns of a turn

A play or a pass is told to everybody in the room, and once more to the player who has made it. If it ends
the round this is told as well, and nobody takes the game to be in play then but, by the last message, the
player whose cards have ended it.
-/

namespace Guandan

open Room GameState GameEngine Replica

/-! ### Going out -/

theorem hasFinished_rankStep {n i : Nat} {w : RankWalk} (h : (w.players i).hasFinished = true) :
    ((rankStep n w).players i).hasFinished = true := by
  rcases rankStep_cases n w with ⟨-, hres⟩ | ⟨-, -, hres⟩ | ⟨-, -, hres⟩ <;> rw [hres]
  · exact h
  · exact h
  · by_cases hi : i = w.seat
    · subst hi
      simp
    · simp [hi, h]

theorem hasFinished_iterate {n d i : Nat} {w : RankWalk} (h : (w.players i).hasFinished = true) :
    (((rankStep n)^[d] w).players i).hasFinished = true := by
  induction d with
  | zero => exact h
  | succ d ih =>
    rw [Function.iterate_succ_apply']
    exact hasFinished_rankStep ih

/-- Who has gone out stays out when the others get their ranks. -/
theorem hasFinished_assignRemaining {s : GameState} {i : Nat} (h : (s.players i).hasFinished = true) :
    (s.assignRemainingFinishRanks.players i).hasFinished = true := by
  unfold assignRemainingFinishRanks
  split
  · exact h
  · exact hasFinished_iterate h

theorem hasFinished_goOut (e : GameEngine) (seat : Nat) :
    ((e.goOut seat).state.players seat).hasFinished = true ∧
      ∀ i, (e.state.players i).hasFinished = true → ((e.goOut seat).state.players i).hasFinished = true := by
  unfold goOut GameState.assignFinishRank
  refine ⟨by simp, fun i h => ?_⟩
  by_cases hi : i = seat
  · subst hi
    simp
  · simp [hi, h]

/-- A play changes a hand of the players, and nothing else. -/
theorem acceptPlay_player (e : GameEngine) (seat i : Nat) (cards : List CardId) (pattern : CardPattern) :
    ((e.acceptPlay seat cards pattern).state.players i).id = (e.state.players i).id ∧
      ((e.acceptPlay seat cards pattern).state.players i).hasFinished =
        (e.state.players i).hasFinished := by
  have hplayers : (e.acceptPlay seat cards pattern).state.players = Function.update e.state.players seat
      { e.state.players seat with hand := ((e.state.players seat).hand.remove cards).1 } := rfl
  rw [hplayers]
  by_cases hi : i = seat
  · subst hi
    simp
  · simp [hi]

theorem playCards_finished {e e' : GameEngine} {r : PlayResult} {id : PlayerId} {cards : List CardId}
    (h : e.playCards id cards = some (e', r)) {i : Nat} (hi : (e.state.players i).hasFinished = true) :
    (e'.state.players i).hasFinished = true := by
  rcases playCards_cases h with ⟨rfl, -⟩ | ⟨seat, pattern, -, -, hrest⟩
  · exact hi
  have haccept := (acceptPlay_player e seat i cards pattern).2.trans hi
  have hout := (hasFinished_goOut (e.acceptPlay seat cards pattern) seat).2 i haccept
  rcases hrest with ⟨-, hturn⟩ | ⟨-, -, hturn⟩ | ⟨-, -, hfinish⟩
  · obtain ⟨j, turn, rfl⟩ := passTurnOn_frame hturn
    exact haccept
  · obtain ⟨j, turn, rfl⟩ := passTurnOn_frame hturn
    exact hout
  · have he' : ((e.acceptPlay seat cards pattern).goOut seat).finishRound.1 = e' := congrArg Prod.fst hfinish
    rw [← he']
    exact hasFinished_assignRemaining hout

/-! ### A turn after which the round goes on -/

/-- The round is in play before and after the turn, in which the viewer has lost the cards `taken`. -/
structure GoesOn (viewer : PlayerId) (taken : List CardId) (e e' : GameEngine) : Prop where
  before : e.state.phase = .playing
  after : e'.state.phase = .playing
  seat : e'.seatOf viewer = e.seatOf viewer
  finished : ∀ i, (e.state.players i).hasFinished = true → (e'.state.players i).hasFinished = true
  hands : ∀ seat, e.seatOf viewer = some seat →
    ∀ id, id ∈ e'.state.hands seat ↔ id ∈ e.state.hands seat ∧ id ∉ taken

section Turns

variable {e e' : GameEngine} {r : PlayResult} {id viewer : PlayerId} {cards taken : List CardId}

theorem GoesOn.stillIn (h : GoesOn viewer taken e e') (hin : StillIn e' viewer) : StillIn e viewer := by
  intro seat hseat
  left
  rcases hin seat (h.seat.trans hseat) with hnot | ⟨hover, -⟩
  · rw [← Bool.not_eq_true] at hnot ⊢
    exact fun hfin => hnot (h.finished seat hfin)
  · rw [h.after] at hover
    cases hover

/-- Two players do not sit on one seat. -/
theorem seatOf_inj {seat : Nat} (h : e.seatOf id = some seat) (h' : e.seatOf viewer = some seat) :
    id = viewer :=
  (seatOf_some h).2.symm.trans (seatOf_some h').2

theorem goesOn_playCards (viewer : PlayerId) (hinv : Reached e)
    (h : e.playCards id cards = some (e', r)) (hcode : r.code = .ok) (hgo : r.gameOver = false)
    (hnodup : id = viewer → cards.Nodup) :
    GoesOn viewer (if id = viewer then cards else []) e e' := by
  have hphase : e'.state.phase = .playing := by
    rcases (advances_playCards h hcode).outcome with ⟨-, hphase⟩ | ⟨hover, -⟩
    · exact hphase
    · rw [hgo] at hover
      cases hover
  obtain ⟨log, passes, hfacts⟩ := hinv.facts
  rcases playCards_frame h with ⟨-, hno, -⟩ | ⟨seat, pattern, hplay, -, hframe⟩
  · exact absurd hcode hno
  have hseat : e'.seatOf viewer = e.seatOf viewer := by
    refine seatOf_congr (e := e) hframe.seats.playerCount (fun i => ?_) viewer
    exact (PlayerState.unranked_eq (hframe.seats.players i)).2.1.trans
      (acceptPlay_player e seat i cards pattern).1
  refine ⟨hplay.phase, hphase, hseat, fun i => playCards_finished h, fun viewerSeat hviewer cardId => ?_⟩
  rw [hframe.seats.hands, hands_acceptPlay]
  by_cases hid : id = viewer
  · subst hid
    cases hplay.seated.symm.trans hviewer
    rw [Function.update_self, if_pos rfl]
    have hperm := (hfacts.round.accounting.acceptPlay_hand hplay).1 (hnodup rfl)
    have hhand := hfacts.round.accounting.nodup_hand (seatOf_some hplay.seated).1
    rw [hperm.mem_iff, List.mem_append]
    have hdisjoint := List.disjoint_of_nodup_append (hperm.nodup_iff.1 hhand)
    refine ⟨fun hmem => ⟨.inr hmem, fun hcard => hdisjoint hcard hmem⟩, fun ⟨hmem, hnot⟩ => ?_⟩
    exact hmem.resolve_left hnot
  · have hne : viewerSeat ≠ seat := fun heq => hid (seatOf_inj hplay.seated (heq ▸ hviewer))
    rw [Function.update_of_ne hne, if_neg hid]
    simp

theorem goesOn_pass (h : e.pass id = some (e', r)) (hcode : r.code = .ok) :
    GoesOn viewer [] e e' := by
  obtain ⟨hplayers, hcount, -, hphase, -⟩ := pass_frame h
  have hbefore := (advances_pass h hcode).playing
  refine ⟨hbefore, hphase.trans hbefore, seatOf_congr hcount (fun i => by rw [hplayers]) viewer,
    fun i hi => by rwa [hplayers], fun seat _ cardId => ?_⟩
  simp [GameState.hands, hplayers]

/-- Whose cards end the round has gone out. -/
theorem not_stillIn_of_last (h : e.playCards id cards = some (e', r)) (hcode : r.code = .ok)
    (hover : r.gameOver = true) :
    ¬ StillIn e' id := by
  intro hin
  rcases playCards_cases h with ⟨-, hno, -⟩ | ⟨seat, pattern, hplay, -, hrest⟩
  · exact hno hcode
  have hgoesOn : r = {} → False := fun hr => by
    rw [hr] at hover
    cases hover
  rcases hrest with ⟨-, hturn⟩ | ⟨-, -, hturn⟩ | ⟨hempty, -, hfinish⟩
  · exact hgoesOn (passTurnOn_cases hturn).1
  · exact hgoesOn (passTurnOn_cases hturn).1
  · have he' : ((e.acceptPlay seat cards pattern).goOut seat).finishRound.1 = e' := congrArg Prod.fst hfinish
    have hsame := (sameSeats_assignFinishRank (e.acceptPlay seat cards pattern).state seat).trans
      (finishRound_frame ((e.acceptPlay seat cards pattern).goOut seat)).1
    rw [he'] at hsame
    have hseat : e'.seatOf id = some seat := by
      refine (seatOf_congr (e := e) hsame.playerCount (fun i => ?_) id).trans hplay.seated
      exact (PlayerState.unranked_eq (hsame.players i)).2.1.trans
        (acceptPlay_player e seat i cards pattern).1
    rcases hin seat hseat with hnot | ⟨-, hhand⟩
    · have hfin : (e'.state.players seat).hasFinished = true := by
        rw [← he']
        exact hasFinished_assignRemaining (hasFinished_goOut _ seat).1
      rw [hfin] at hnot
      cases hnot
    · rw [hsame.hands] at hhand
      exact hhand hempty

end Turns

/-! ### The messages of a turn -/

/-- The message reports a turn in which the viewer has lost the cards `taken`, and the turn that follows. -/
structure TellsTurn (viewer : PlayerId) (taken : List CardId) (e : GameEngine) (m : ServerMessage) :
    Prop where
  renews : m.renews = false
  own : m.isOwn = true
  ends : m.endsRound = false
  hand : ∀ hand id, id ∈ Client.handAfter viewer hand m ↔ id ∈ hand ∧ id ∉ taken
  turn : ∀ turn, Client.turnAfter turn m = turnOf e

section Messages

variable {viewer id : PlayerId} {taken cards : List CardId} {e e' : GameEngine} {m : ServerMessage}
  {ack : List ServerMessage} {r : Room} {targets : SpectateTargets}

theorem tellsTurn_played (viewer : PlayerId) (e : GameEngine) (id : PlayerId) (cards : List CardId) :
    TellsTurn viewer (if id = viewer then cards else []) e (playedMessage e id cards) where
  renews := rfl
  own := rfl
  ends := rfl
  hand := fun hand cardId => by
    simp only [playedMessage, Client.handAfter]
    split_ifs <;> simp
  turn := fun turn => rfl

theorem tellsTurn_passed (e : GameEngine) (id : PlayerId) :
    TellsTurn viewer [] e (passedMessage e id) where
  renews := rfl
  own := rfl
  ends := rfl
  hand := fun hand cardId => by simp [passedMessage, Client.handAfter]
  turn := fun turn => rfl

/-- A turn that is told once or twice. -/
theorem Kept.of_turn (h : GoesOn viewer taken e e') (hm : TellsTurn viewer taken e' m)
    (hack : ∀ m' ∈ ack, m' = m) : Kept viewer taken e e' (m :: ack) where
  phase := h.after.trans h.before.symm
  seat := h.seat
  stillIn := h.stillIn
  hands := h.hands
  quiet := List.forall_mem_cons.2 ⟨hm.renews, fun m' hm' => hack m' hm' ▸ hm.renews⟩
  own := List.forall_mem_cons.2 ⟨hm.own, fun m' hm' => hack m' hm' ▸ hm.own⟩
  ends := fun _ => List.forall_mem_cons.2 ⟨hm.ends, fun m' hm' => hack m' hm' ▸ hm.ends⟩
  hand := fun hand cardId => by
    -- Told once more, it takes the same cards.
    rw [deliver_cons]
    refine deliver_keeps (P := fun hand' : List CardId => cardId ∈ hand' ↔ cardId ∈ hand ∧ cardId ∉ taken)
      (hm.hand hand cardId) fun hand' hhand' m' hm' => ?_
    rw [hack m' hm', hm.hand, hhand']
    tauto
  turn := fun _ => by
    rw [deliver_cons]
    refine deliver_keeps (P := (· = turnOf e')) (hm.turn _) fun turn _ m' hm' => ?_
    rw [hack m' hm', hm.turn]
  play := fun _ _ => .inr h.after

/-- Nobody who has not finished is shown another hand. -/
theorem spectateUpdates_nil (hin : StillIn r.engine viewer) (targets : SpectateTargets) :
    sendSpectateUpdatesToFinishedPlayers viewer targets r = [] := by
  unfold sendSpectateUpdatesToFinishedPlayers
  dsimp only
  split_ifs with hphase
  · rfl
  rw [not_not] at hphase
  rcases hseat : r.engine.seatOf viewer with _ | seat
  · rfl
  rcases hin seat hseat with hnot | ⟨hover, -⟩
  · simp [hnot]
  · rw [hphase] at hover
    cases hover

end Messages

section Turn

variable {t t' t₁ : Table} {viewer id : PlayerId} {taken cards : List CardId} {e : GameEngine}
  {m : ServerMessage} {ack : List ServerMessage} {targets : SpectateTargets} {result : PlayResult}
  {starts : List RoundStart} {out : TableOut} {σ : Shuffle} {turnId : Nat}

/-- The round is over, and the next one has not begun: the viewer has yet to say that it is ready. -/
theorem afterPlay_over (h : Watching t t' viewer) (hadv : Advances t.room.engine e result)
    (hroom : t₁.room = { t.room with engine := e }) (hover : result.gameOver = true)
    (hafter : t₁.afterPlay result σ = some (t', starts)) :
    e.state.phase = .finished ∧ starts = [] ∧
      ((result.settlement.matchWon = true ∧ t'.room = finishMatch { t.room with engine := e }) ∨
        (result.settlement.matchWon = false ∧ t'.room = enterSettlement { t.room with engine := e })) := by
  have hphase : e.state.phase = .finished := by
    rcases hadv.outcome with ⟨hgo, -⟩ | ⟨-, hphase⟩
    · rw [hover] at hgo
      cases hgo
    · exact hphase
  refine ⟨hphase, ?_⟩
  rw [Table.afterPlay, if_pos hover] at hafter
  unfold Table.onGameOver at hafter
  split_ifs at hafter with hwon
  · cases hafter
    exact ⟨rfl, .inl ⟨hwon, congrArg finishMatch hroom⟩⟩
  · have hsettled : RoomInv t₁.room.enterSettlement := by
      rw [hroom]
      exact (h.before.settle hadv.course hphase).1
    rcases Table.tryStartNextRound_cases (by exact hsettled) hafter with ⟨rfl, hstarts, -⟩ | ⟨hstart, -⟩
    · exact ⟨hstarts, .inr ⟨eq_false_of_ne_true hwon, congrArg enterSettlement hroom⟩⟩
    · obtain ⟨-, hready, -, e', -, -, hnext⟩ := roomInv_startNextRound (by exact hsettled) hstart
      have hmember : t₁.room.enterSettlement.containsPlayer viewer = true := by
        have hafter := h.member
        rw [hnext] at hafter
        exact hafter
      have hnot := not_allReady_enterSettlement (r := t₁.room) (by rw [hroom]; exact h.before.members.bots)
        h.person (by simpa using hmember)
      rw [show t₁.room.enterSettlement.allReady = true from hready] at hnot
      cases hnot

/-- A turn is told, and what has come of it. -/
theorem report_turn (targets : SpectateTargets) (ack : List ServerMessage) (h : Watching t t' viewer)
    (hadv : Advances t.room.engine e result)
    (hroom : t₁.room = { t.room with engine := e }) (hafter : t₁.afterPlay result σ = some (t', starts))
    (hgoes : result.gameOver = false → GoesOn viewer taken t.room.engine e)
    (hm : TellsTurn viewer taken e m)
    (hack : result.gameOver = false → t'.room.engine = e → ∀ m' ∈ ack, m' = m)
    (hlast : result.gameOver = true → StillIn e viewer → ack = []) :
    Report viewer taken t.room.engine t'.room.engine
      (turnSent viewer targets { t.room with engine := e } m result t'.room starts ++ ack) := by
  rcases hgo : result.gameOver with _ | _
  · have hafter' := hafter
    rw [Table.afterPlay, hgo] at hafter'
    cases hafter'
    have hsame : t₁.scheduleTurnTimer.room = { t.room with engine := e } :=
      (Table.scheduleTurnTimer_room t₁).trans hroom
    have hmember := h.member
    have hin := h.stillIn
    have hack' := hack hgo (by rw [hsame])
    rw [hsame] at hmember hin ⊢
    rw [turnSent, spectateUpdates_nil hin, broadcastToRoom, if_pos hmember, hgo]
    exact .kept (.of_turn (hgoes hgo) hm hack')
  · obtain ⟨hphase, rfl, hrest⟩ := afterPlay_over h hadv hroom hgo hafter
    have hunchanged : Unchanged e t'.room.engine ∧
        ({ t.room with engine := e } : Room).containsPlayer viewer = true := by
      have hmember := h.member
      rcases hrest with ⟨-, heq⟩ | ⟨-, heq⟩ <;> rw [heq] at hmember ⊢
      · exact ⟨.refl e, hmember⟩
      · exact ⟨unchanged_enterSettlement { t.room with engine := e },
          (containsPlayer_enterSettlement _ viewer).symm.trans hmember⟩
    obtain ⟨hsame, hmember⟩ := hunchanged
    have hin : StillIn e viewer := hsame.stillIn h.stillIn
    have hover : ¬ Ongoing t'.room.engine := by
      simp [Ongoing, hsame.phase, hphase]
    rw [hlast hgo hin, turnSent, spectateUpdates_nil (r := { t.room with engine := e }) hin, hgo, if_pos rfl]
    refine .ended ⟨hover, fun phase => ?_⟩
    simp only [onGameOverSent, broadcastToRoom, if_pos hmember, tryStartNextRoundSent]
    rcases hrest with ⟨hwon, -⟩ | ⟨hwon, -⟩ <;> rw [hwon] <;> simp [Client.phaseAfter, roomStateMessage]

theorem report_playCards (h : Watching t t' viewer)
    (hown : id = viewer → out.reply = some .ok ∧ cards.Nodup)
    (hstep : t.handlePlayCards id turnId cards σ = some (t', out)) :
    Report viewer (if id = viewer then cards else []) t.room.engine t'.room.engine
      (sent viewer targets t (.playCards id turnId cards σ) t' out) := by
  rcases Table.handlePlayCards_cases hstep with
    ⟨rfl, code, hcode, rfl, -⟩ | ⟨-, -, -, hreply, e, result, hplay, hcode, hafter⟩
  · have hid : id ≠ viewer := fun hid => hcode (Option.some.inj (hown hid).1)
    rw [if_neg hid]
    exact report_refused rfl rfl rfl hcode
  rw [sent_accepted rfl hreply]
  simp only [acceptedSent, playCardsSent, hplay]
  refine report_turn targets _ h (advances_playCards hplay hcode) rfl hafter
    (fun hgo => goesOn_playCards viewer h.before.reached hplay hcode hgo fun hid => (hown hid).2)
    (tellsTurn_played viewer e id cards) (fun _ hsame => ?_) (fun hover hin => ?_)
  · rw [hsame]
    exact forall_response id rfl
  · unfold sendResponse
    rw [if_neg]
    rintro rfl
    exact not_stillIn_of_last hplay hcode hover hin

theorem report_pass (h : Watching t t' viewer) (hstep : t.handlePass id turnId = some (t', out)) :
    Report viewer [] t.room.engine t'.room.engine (sent viewer targets t (.pass id turnId) t' out) := by
  rcases Table.handlePass_cases hstep with
    ⟨rfl, code, hcode, rfl, -⟩ | ⟨-, -, rfl, e, result, hpass, hcode, rfl⟩
  · exact report_refused rfl rfl rfl hcode
  have hadv := advances_pass hpass hcode
  have hroom : (t.setEngine e).scheduleTurnTimer.room = { t.room with engine := e } :=
    Table.scheduleTurnTimer_room (t.setEngine e)
  have hmember := h.member
  have hin := h.stillIn
  rw [sent_accepted rfl rfl]
  rw [hroom] at hmember hin ⊢
  simp only [acceptedSent, passSent, hroom]
  rw [spectateUpdates_nil hin, broadcastToRoom, if_pos hmember]
  exact .kept (.of_turn (goesOn_pass hpass hcode) (tellsTurn_passed e id) (forall_response id rfl))

/-! ### Bots -/

theorem report_botPass {botId : PlayerId} (targets : SpectateTargets) (h : Watching t t' viewer)
    (hpass : t₁.botPass botId σ = some (t', starts)) (hroom : t₁.room = t.room) :
    Report viewer [] t.room.engine t'.room.engine
      (botPassSent viewer targets t.room botId t'.room starts) := by
  simp only [Table.botPass, Option.bind_eq_bind, Option.bind_eq_some_iff, Prod.exists] at hpass
  obtain ⟨e, result, hpass, hafter⟩ := hpass
  rw [hroom] at hpass
  unfold botPassSent
  rw [hpass]
  dsimp only
  split_ifs at hafter ⊢ with hcode
  · have hreport := report_turn targets [] h (advances_pass hpass hcode)
      (by rw [← hroom]; rfl) hafter (fun _ => goesOn_pass hpass hcode) (tellsTurn_passed e botId)
      (fun _ _ m hm => absurd hm List.not_mem_nil) (fun _ _ => rfl)
    rwa [List.append_nil] at hreport
  · cases hafter
    rw [hroom]
    exact .nothing _

theorem report_executeBotTurn {botId : PlayerId} (h : Watching t t' viewer)
    (hturn : t₁.executeBotTurn botId σ = some (t', starts)) (hroom : t₁.room = t.room) :
    Report viewer [] t.room.engine t'.room.engine
      (executeBotTurnSent viewer targets t.room botId t'.room starts) := by
  have hnothing : t' = t₁ → Report viewer [] t.room.engine t'.room.engine [] := by
    rintro rfl
    rw [hroom]
    exact .nothing _
  unfold Table.executeBotTurn at hturn
  unfold executeBotTurnSent
  rw [hroom] at hturn
  dsimp only
  split_ifs at hturn ⊢ with hbot hphase hseat
  · cases hturn
    exact hnothing rfl
  · cases hturn
    exact hnothing rfl
  · cases hturn
    exact hnothing rfl
  obtain ⟨choice, hchoice, hturn⟩ := Option.bind_eq_some_iff.1 hturn
  have hchoice' : t.room.engine.chooseBotPlay botId = some choice := by
    rw [← hroom]
    exact hchoice
  rw [hchoice']
  have hpass (h' : t₁.cancelTurnTimer.botPass botId σ = some (t', starts)) :=
    report_botPass targets h h' hroom
  rcases choice with _ | play
  · exact hpass hturn
  obtain ⟨⟨e, result⟩, hplay, hturn⟩ := Option.bind_eq_some_iff.1 hturn
  have hplay' : t.room.engine.playCards botId play = some (e, result) := by
    rw [← hroom]
    exact hplay
  have hother : botId ≠ viewer := by
    rintro rfl
    rw [h.person] at hbot
    exact hbot rfl
  dsimp only at hturn ⊢
  rw [hplay']
  dsimp only
  split_ifs at hturn ⊢ with hcode
  · have hm := tellsTurn_played viewer e botId play
    have hgoes (hgo : result.gameOver = false) := goesOn_playCards viewer h.before.reached hplay'
      hcode hgo fun hid => absurd hid hother
    rw [if_neg hother] at hm
    simp only [if_neg hother] at hgoes
    have hreport := report_turn targets [] h (advances_playCards hplay' hcode)
      (by rw [← hroom]; rfl) hturn hgoes hm (fun _ _ m hm => absurd hm List.not_mem_nil) (fun _ _ => rfl)
    rwa [List.append_nil] at hreport
  · exact hpass hturn

end Turn

end Guandan
