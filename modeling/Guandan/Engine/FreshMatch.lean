import Guandan.Engine.Accounting

/-!
# A new match on an engine that has played

Two runs of one list of calls, on an engine with a history and on a new one. `SameMatch` relates
engines that differ only in who won last and, until the match is under way, in the records of the
rounds before; it is a bisimulation. `init` and `startGame` keep the progress and the tribute state,
so the two runs agree exactly when the history has left nothing there.
-/

namespace Guandan

/-! ### Who won last -/

namespace TeamProgress

variable {t u : TeamProgress}

/-- Whoever won last attacks. -/
def WinnerAttacks (t : TeamProgress) : Prop :=
  ∀ team, t.lastWinningTeam = some team → t.attackingTeam = team

theorem WinnerAttacks.prepareNextRound (h : t.WinnerAttacks) : t.prepareNextRound = t := by
  obtain ⟨levels, phases, fails, attacking, last⟩ := t
  rcases last with _ | team
  · rfl
  · rw [show attacking = team from h team rfl]
    rfl

theorem closeSettlement_winnerAttacks (t : TeamProgress) (team : Team) (result : SettlementResult) :
    (t.closeSettlement team result).1.WinnerAttacks := by
  intro team' h
  exact Option.some.inj h

theorem applySettlement_winnerAttacks (h : t.WinnerAttacks) (result : SettlementResult) :
    (t.applySettlement result).1.WinnerAttacks := by
  unfold applySettlement
  rcases result.winningTeam with _ | team
  · exact h
  · dsimp only
    split_ifs <;> exact closeSettlement_winnerAttacks _ _ _

/-- The same progress, but for the note of who won last. -/
structure Same (t u : TeamProgress) : Prop where
  noted : u = { t with lastWinningTeam := u.lastWinningTeam }
  left : t.WinnerAttacks
  right : u.WinnerAttacks

/-- A settlement does not ask who won last. -/
theorem applySettlement_noted (t : TeamProgress) (last : Option Team) (result : SettlementResult) :
    ∃ last', TeamProgress.applySettlement { t with lastWinningTeam := last } result =
      ({ (t.applySettlement result).1 with lastWinningTeam := last' },
        (t.applySettlement result).2) := by
  rcases hwin : result.winningTeam with _ | team
  · refine ⟨last, ?_⟩
    unfold applySettlement
    rw [hwin]
  · refine ⟨(t.applySettlement result).1.lastWinningTeam, ?_⟩
    unfold applySettlement
    rw [hwin]
    rfl

theorem Same.applySettlement (h : t.Same u) (result : SettlementResult) :
    (t.applySettlement result).1.Same (u.applySettlement result).1 ∧
      (u.applySettlement result).2 = (t.applySettlement result).2 := by
  have hl := applySettlement_winnerAttacks h.left result
  have hr := applySettlement_winnerAttacks h.right result
  obtain ⟨last', happly⟩ := applySettlement_noted t u.lastWinningTeam result
  rw [← h.noted] at happly
  refine ⟨⟨?_, hl, hr⟩, ?_⟩
  · rw [happly]
  · rw [happly]

end TeamProgress

/-! ### Engines in the same match -/

namespace GameEngine

variable {e f : GameEngine} {α : Type}

/-- Two engines in the same match. They may differ in who is noted as the last winner and, until
the match is under way, in what they keep of the rounds before it. -/
structure SameMatch (e f : GameEngine) : Prop where
  config : f.config = e.config
  state : f.state = e.state
  tributeState : f.tributeState = e.tributeState
  progress : e.progress.Same f.progress
  records : e.state.phase = .waiting ∨
    (f.previousRound = e.previousRound ∧ f.lastTribute = e.lastTribute)

/-- Equal answers that leave the engines in the same match. -/
def Alike (a b : GameEngine × α) : Prop := SameMatch a.1 b.1 ∧ a.2 = b.2

theorem Alike.answer {a : α} (h : SameMatch e f) : Option.Rel Alike (some (e, a)) (some (f, a)) :=
  .some ⟨h, rfl⟩

theorem Alike.map {β : Type} {x y : Option (GameEngine × α)} (h : Option.Rel Alike x y)
    (g : α → β) :
    Option.Rel Alike (x.map fun a => (a.1, g a.2)) (y.map fun a => (a.1, g a.2)) := by
  cases h with
  | none => exact .none
  | some hab => exact .some ⟨hab.1, congrArg g hab.2⟩

/-- Deals that are alike, also in what they leave when they throw. -/
theorem Alike.deal {x y : Option (GameEngine × PlayResult)} (h : Option.Rel Alike x y)
    (hthrown : SameMatch e f) :
    Option.Rel Alike (some (answerDeal x e)) (some (answerDeal y f)) := by
  cases h with
  | none => exact Alike.answer hthrown
  | some hab => exact .some ⟨hab.1, congrArg EngineOut.result hab.2⟩

open Machine Alike

namespace SameMatch

/-- The second engine is the first with other records. -/
theorem eq_with (h : SameMatch e f) : f = { e with
    progress := f.progress, previousRound := f.previousRound, lastTribute := f.lastTribute } := by
  obtain ⟨config, state, progress, previous, last, tribute⟩ := f
  obtain ⟨rfl, rfl, rfl, -, -⟩ := h
  rfl

theorem dealRound (h : SameMatch e f) (σ : Shuffle) :
    Option.Rel SameMatch (e.dealRound σ) (f.dealRound σ) := by
  obtain ⟨config, state, progress, previous, last, tribute⟩ := f
  obtain ⟨rfl, rfl, rfl, hprogress, hrecords⟩ := h
  dsimp only at hprogress hrecords
  unfold GameEngine.dealRound
  rw [hprogress.left.prepareNextRound, hprogress.right.prepareNextRound]
  refine rel_look fun hands _ => .some ⟨rfl, ?_, rfl, hprogress, hrecords⟩
  rw [hprogress.noted]
  rfl

/-- The round goes on from the same state, which is waiting if the engine was. -/
theorem setState (h : SameMatch e f) {s : GameState}
    (hs : e.state.phase = .waiting → s.phase = .waiting) :
    SameMatch { e with state := s } { f with state := s } :=
  ⟨h.config, rfl, h.tributeState, h.progress, h.records.imp_left hs⟩

theorem acceptPlay (h : SameMatch e f) (seat : Nat) (cards : List CardId) (pattern : CardPattern) :
    SameMatch (e.acceptPlay seat cards pattern) (f.acceptPlay seat cards pattern) := by
  unfold GameEngine.acceptPlay
  rw [h.state]
  exact h.setState fun hphase => hphase

theorem passTurnOn (h : SameMatch e f) : Option.Rel Alike e.passTurnOn f.passTurnOn := by
  unfold GameEngine.passTurnOn
  rw [h.state]
  refine rel_look fun s hs => answer (h.setState fun hphase => ?_)
  obtain ⟨seat, turn, rfl⟩ := GameState.skipFinishedPlayers_frame hs
  exact hphase

theorem finishRound (h : SameMatch e f) (hphase : e.state.phase ≠ .waiting) :
    Option.Rel Alike (some e.finishRound) (some f.finishRound) := by
  unfold GameEngine.finishRound
  rw [h.state, h.config]
  obtain ⟨hsame, hresult⟩ := h.progress.applySettlement
    (Settlement.calculate e.state.assignRemainingFinishRanks e.config.playersPerTeam)
  have hrecords := h.records.resolve_left hphase
  dsimp only
  rw [hresult]
  exact answer ⟨rfl, rfl, h.tributeState, hsame, .inr ⟨rfl, hrecords.2⟩⟩

theorem playCards (h : SameMatch e f) (id : PlayerId) (cards : List CardId) :
    Option.Rel Alike (e.playCards id cards) (f.playCards id cards) := by
  have hcheck : f.checkPlay id cards = e.checkPlay id cards := by
    rw [h.eq_with]
    rfl
  unfold GameEngine.playCards
  rw [hcheck]
  rcases hchecked : e.checkPlay id cards with _ | checked
  · exact .none
  rcases checked with code | ⟨seat, pattern⟩
  · exact answer h
  have hphase := (checkPlay_ok hchecked).phase
  have hplay := h.acceptPlay seat cards pattern
  have hout : SameMatch ((e.acceptPlay seat cards pattern).goOut seat)
      ((f.acceptPlay seat cards pattern).goOut seat) := by
    unfold goOut
    rw [hplay.state]
    exact hplay.setState fun hwait => hwait
  show Option.Rel Alike (if ((e.acceptPlay seat cards pattern).state.players seat).hand.empty then
      if ((e.acceptPlay seat cards pattern).goOut seat).state.checkTeamWin e.config.playersPerTeam
      then some ((e.acceptPlay seat cards pattern).goOut seat).finishRound
      else ((e.acceptPlay seat cards pattern).goOut seat).passTurnOn
    else (e.acceptPlay seat cards pattern).passTurnOn)
    (if ((f.acceptPlay seat cards pattern).state.players seat).hand.empty then
      if ((f.acceptPlay seat cards pattern).goOut seat).state.checkTeamWin f.config.playersPerTeam
      then some ((f.acceptPlay seat cards pattern).goOut seat).finishRound
      else ((f.acceptPlay seat cards pattern).goOut seat).passTurnOn
    else (f.acceptPlay seat cards pattern).passTurnOn)
  rw [hplay.state, hout.state, h.config]
  refine rel_ite (fun _ => rel_ite (fun _ => hout.finishRound ?_) fun _ => hout.passTurnOn)
    fun _ => hplay.passTurnOn
  show e.state.phase ≠ .waiting
  simp [hphase]

theorem seatOf (h : SameMatch e f) (id : PlayerId) : f.seatOf id = e.seatOf id := by
  rw [GameEngine.seatOf, GameEngine.seatOf, h.state]

theorem ruleContext (h : SameMatch e f) : f.ruleContext = e.ruleContext := by
  rw [GameEngine.ruleContext, GameEngine.ruleContext, h.state, h.config]

theorem pass (h : SameMatch e f) (id : PlayerId) : Option.Rel Alike (e.pass id) (f.pass id) := by
  have haccept : f.acceptPass = e.acceptPass := by
    rw [h.eq_with]
    rfl
  unfold GameEngine.pass
  rw [h.seatOf, haccept, h.state]
  refine rel_ite (fun _ => answer h) fun hphase => ?_
  rcases e.seatOf id with _ | seat
  · exact answer h
  refine rel_ite (fun _ => answer h) fun _ => rel_ite (fun _ => answer h) fun _ => ?_
  refine rel_look fun s hs => answer (h.setState fun hwait => ?_)
  rw [hwait] at hphase
  exact absurd (by simp) hphase

/-- Once the match is under way only the progress can differ. -/
theorem under_way (h : SameMatch e f) (hphase : e.state.phase ≠ .waiting) :
    ∃ u, e.progress.Same u ∧ f = { e with progress := u } := by
  obtain ⟨hprevious, hlast⟩ := h.records.resolve_left hphase
  refine ⟨f.progress, h.progress, ?_⟩
  have hf := h.eq_with
  rw [hprevious, hlast] at hf
  exact hf

theorem of_progress {u : TeamProgress} (h : e.progress.Same u) :
    SameMatch e { e with progress := u } :=
  ⟨rfl, rfl, rfl, h, .inr ⟨rfl, rfl⟩⟩

theorem submitReturn (h : SameMatch e f) (id : PlayerId) (cardId : CardId) :
    Option.Rel Alike (e.submitReturn id cardId) (f.submitReturn id cardId) := by
  unfold GameEngine.submitReturn
  rw [h.seatOf, h.ruleContext, h.state, h.tributeState]
  refine rel_ite (fun _ => answer h) fun hphase => ?_
  obtain ⟨u, hu, rfl⟩ := h.under_way fun hwait => hphase (by simp [hwait])
  rcases e.seatOf id with _ | seat
  · exact answer h
  refine rel_ite (fun _ => answer h) fun _ => rel_look fun valid _ => ?_
  refine rel_ite (fun _ => answer h) fun _ => ?_
  exact answer (of_progress (e := e.recordReturn seat cardId) hu)

theorem finishTributePhase (h : SameMatch e f) (hphase : e.state.phase ≠ .waiting) :
    Option.Rel Alike e.finishTributePhaseAndStartPlay f.finishTributePhaseAndStartPlay := by
  obtain ⟨u, hu, rfl⟩ := h.under_way hphase
  unfold finishTributePhaseAndStartPlay
  exact rel_look fun first _ => answer ⟨rfl, rfl, rfl, hu, .inr ⟨rfl, rfl⟩⟩

theorem closeTributes (h : SameMatch e f) (hphase : e.state.phase ≠ .waiting) :
    Option.Rel Alike e.closeTributes f.closeTributes := by
  obtain ⟨u, hu, rfl⟩ := h.under_way hphase
  unfold GameEngine.closeTributes
  refine rel_look fun ⟨s, result⟩ hassign => ?_
  refine rel_ite (fun _ => ?_) fun _ => answer ⟨rfl, rfl, rfl, hu, .inr ⟨rfl, rfl⟩⟩
  refine finishTributePhase ⟨rfl, rfl, rfl, hu, .inr ⟨rfl, rfl⟩⟩ ?_
  obtain ⟨-, -, rfl, -⟩ := TributeManager.assignTributes_cases hassign
  exact hphase

theorem submitTribute (h : SameMatch e f) (id : PlayerId) (cardId : CardId) :
    Option.Rel Alike (e.submitTribute id cardId) (f.submitTribute id cardId) := by
  unfold GameEngine.submitTribute
  rw [h.seatOf, h.ruleContext, h.state, h.tributeState]
  refine rel_ite (fun _ => answer h) fun hphase => ?_
  have hwait : e.state.phase ≠ .waiting := fun hwait => hphase (by simp [hwait])
  obtain ⟨u, hu, rfl⟩ := h.under_way hwait
  rcases e.seatOf id with _ | seat
  · exact answer h
  refine rel_ite (fun _ => answer h) fun _ => rel_look fun valid _ => ?_
  refine rel_ite (fun _ => answer h) fun _ => ?_
  have htribute := of_progress (e := e.recordTribute seat cardId) hu
  exact rel_ite (fun _ => answer htribute) fun _ => htribute.closeTributes hwait

theorem buildViewFor (h : SameMatch e f) (id : PlayerId) (anchor : Option Nat) :
    f.buildViewFor id anchor = e.buildViewFor id anchor := by
  have hplays : f.tributeSeatPlays = e.tributeSeatPlays := by
    by_cases hphase : e.state.phase = .waiting
    · simp [tributeSeatPlays, h.state, hphase]
    · obtain ⟨u, -, rfl⟩ := h.under_way hphase
      rfl
  unfold GameEngine.buildViewFor
  rw [hplays, h.eq_with, h.progress.noted]
  rfl

theorem init (h : SameMatch e f) (roomId : RoomId) (playerIds : List PlayerId) :
    Option.Rel Alike ((e.init roomId playerIds).map (·, EngineOut.done))
      ((f.init roomId playerIds).map (·, EngineOut.done)) := by
  unfold GameEngine.init
  rw [h.config]
  by_cases hlong : kPlayerCount < playerIds.length
  · rw [if_pos hlong, if_pos hlong]
    exact .none
  · rw [if_neg hlong, if_neg hlong]
    exact answer ⟨rfl, rfl, h.tributeState, h.progress, .inl rfl⟩

theorem setPlayerReady (h : SameMatch e f) (id : PlayerId) (ready : Bool) :
    SameMatch (e.setPlayerReady id ready) (f.setPlayerReady id ready) := by
  unfold GameEngine.setPlayerReady
  rw [h.state]
  rcases e.state.getPlayerById id with _ | seat
  · exact h
  · exact h.setState fun hwait => hwait

theorem updateConfig (h : SameMatch e f) (config : GameRuleConfig) :
    SameMatch (e.updateConfig config) (f.updateConfig config) := by
  unfold GameEngine.updateConfig
  rw [h.state]
  split_ifs
  · exact h
  · exact ⟨rfl, rfl, h.tributeState, h.progress, h.records⟩

theorem shuffled (h : SameMatch e f) (σ : Shuffle) : f.shuffled σ = e.shuffled σ := by
  rw [GameEngine.shuffled, GameEngine.shuffled, h.config]

theorem dealThrew (h : SameMatch e f) (σ : Shuffle) :
    SameMatch (e.dealThrew σ) (f.dealThrew σ) := by
  unfold GameEngine.dealThrew
  rw [h.shuffled, h.state]
  exact h.setState fun hwait => hwait

theorem forgetRounds (h : SameMatch e f) :
    SameMatch { e with previousRound := {} } { f with previousRound := {} } :=
  ⟨h.config, h.state, h.tributeState, h.progress, h.records.imp_right fun hr => ⟨rfl, hr.2⟩⟩

/-- Play begins, with the records of the earlier rounds alike. -/
theorem beginPlaying (h : SameMatch e f) (hprevious : f.previousRound = e.previousRound)
    (result : TributeRoundResult) (seat : Nat) :
    SameMatch (beginPlayingFromDeal { e with lastTribute := result } seat)
      (beginPlayingFromDeal { f with lastTribute := result } seat) := by
  have hstate := h.state
  obtain ⟨config, state, progress, previous, last, tribute⟩ := f
  dsimp only at hstate
  subst hstate
  exact ⟨h.config, rfl, h.tributeState, h.progress, .inr ⟨hprevious, rfl⟩⟩

theorem startGame (h : SameMatch e f) (σ : Shuffle) :
    Option.Rel Alike (e.startGame σ) (f.startGame σ) := by
  have hready : f.allReady = e.allReady := by
    rw [h.eq_with]
    rfl
  unfold GameEngine.startGame
  rw [hready]
  have hguard : (f.state.phase ≠ .waiting ∧ f.state.phase ≠ .ready) =
      (e.state.phase ≠ .waiting ∧ e.state.phase ≠ .ready) := by rw [h.state]
  simp only [hguard]
  refine rel_ite (fun _ => answer h) fun _ => rel_ite (fun _ => answer h) fun _ => ?_
  refine rel_bind (h.forgetRounds.dealRound σ) fun e' f' he hf hdeal => ?_
  have hprevious := (dealRound_frame hf).2.2.trans (dealRound_frame he).2.2.symm
  exact answer (hdeal.beginPlaying hprevious _ _)

theorem startTribute (h : SameMatch e f) (hphase : e.state.phase ≠ .waiting) :
    Option.Rel SameMatch e.startTribute f.startTribute := by
  obtain ⟨u, hu, rfl⟩ := h.under_way hphase
  refine rel_look fun plan _ => rel_ite (fun _ => ?_) fun _ => rel_ite (fun _ => ?_) fun _ => ?_
  · exact .some ⟨rfl, rfl, rfl, hu, .inr ⟨rfl, rfl⟩⟩
  · exact .some ⟨rfl, rfl, rfl, hu, .inr ⟨rfl, rfl⟩⟩
  · exact .some ⟨rfl, rfl, rfl, hu, .inr ⟨rfl, rfl⟩⟩

theorem startNextRound (h : SameMatch e f) (σ : Shuffle) :
    Option.Rel Alike (e.startNextRound σ) (f.startNextRound σ) := by
  unfold GameEngine.startNextRound
  rw [h.state]
  refine rel_ite (fun _ => answer h) fun hphase => ?_
  refine rel_bind (h.dealRound σ) fun e' f' he _ hdeal => ?_
  have hwait : e'.state.phase ≠ .waiting := by
    obtain ⟨hands, -, rfl⟩ := dealRound_cases he
    simp [not_not.1 hphase]
  exact rel_bind (hdeal.startTribute hwait) fun _ _ _ _ htribute => answer htribute

end SameMatch

end GameEngine

open GameEngine

/-- The tribute phase is not forced to an end before a match has begun. -/
def MatchOp (e : GameEngine) : EngineOp → Prop
  | .finalizeTributePhase => e.state.phase ≠ .waiting
  | _ => True

/-- Engines in the same match answer every call alike and stay in the same match. -/
theorem sameMatch_bisimulation : engine.Bisimulation MatchOp SameMatch := by
  intro e f op h hok
  change Option.Rel Alike (e.apply op) (f.apply op)
  cases op with
  | init roomId playerIds => exact h.init roomId playerIds
  | setPlayerReady id ready => exact Alike.answer (h.setPlayerReady id ready)
  | updateConfig config => exact Alike.answer (h.updateConfig config)
  | startGame σ => exact Alike.deal (h.startGame σ) (h.forgetRounds.dealThrew σ)
  | startNextRound σ => exact Alike.deal (h.startNextRound σ) (h.dealThrew σ)
  | playCards id cards => exact Alike.map (h.playCards id cards) _
  | pass id => exact Alike.map (h.pass id) _
  | submitTribute id cardId => exact Alike.map (h.submitTribute id cardId) _
  | submitReturn id cardId => exact Alike.map (h.submitReturn id cardId) _
  | finalizeTributePhase => exact Alike.map (h.finishTributePhase hok) _
  | buildViewFor id anchor =>
    rw [apply, apply, h.buildViewFor]
    rcases e.buildViewFor id anchor with _ | v
    · exact .none
    · exact Alike.answer h

/-! ### What a history leaves -/

/-- Whoever won last attacks, and without a tribute phase nothing is kept of one. -/
structure Tidy (e : GameEngine) : Prop where
  progress : e.progress.WinnerAttacks
  tribute : e.tributeState.active = false → e.tributeState = {}

theorem Tidy.dealRound {e e' : GameEngine} {σ : Shuffle} (h : Tidy e)
    (hdeal : e.dealRound σ = some e') : Tidy e' := by
  obtain ⟨hands, -, rfl⟩ := dealRound_cases hdeal
  refine ⟨?_, h.tribute⟩
  show e.progress.prepareNextRound.WinnerAttacks
  rw [h.progress.prepareNextRound]
  exact h.progress

theorem Tidy.finish {e e' : GameEngine} {r : PlayResult} (h : Tidy e)
    (hfin : e.finishTributePhaseAndStartPlay = some (e', r)) : Tidy e' := by
  obtain ⟨-, first, -, rfl⟩ := finishTributePhase_cases hfin
  exact ⟨h.1, fun _ => rfl⟩

theorem Tidy.playCards {e e' : GameEngine} {id : PlayerId} {cards : List CardId} {r : PlayResult}
    (h : Tidy e) (hplay : e.playCards id cards = some (e', r)) : Tidy e' := by
  rcases playCards_cases hplay with ⟨rfl, -⟩ | ⟨seat, pattern, -, -, hrest⟩
  · exact h
  rcases hrest with ⟨-, hturn⟩ | ⟨-, -, hturn⟩ | ⟨-, -, hround⟩
  · obtain ⟨i, turn, rfl⟩ := passTurnOn_frame hturn
    exact ⟨h.1, h.2⟩
  · obtain ⟨i, turn, rfl⟩ := passTurnOn_frame hturn
    exact ⟨h.1, h.2⟩
  · have he' := congrArg Prod.fst hround
    dsimp only at he'
    subst he'
    exact ⟨TeamProgress.applySettlement_winnerAttacks h.1 _, h.2⟩

theorem Tidy.submitTribute {e e' : GameEngine} {id : PlayerId} {cardId : CardId} {r : PlayResult}
    (h : Tidy e) (hsubmit : e.submitTribute id cardId = some (e', r)) : Tidy e' := by
  rcases submitTribute_cases hsubmit with ⟨rfl, -⟩ | ⟨seat, -, hactive, -, -, -, hrest⟩
  · exact h
  have hrecord : Tidy (e.recordTribute seat cardId) :=
    ⟨h.1, fun hoff => absurd (hactive.symm.trans hoff) nofun⟩
  rcases hrest with ⟨-, rfl, -⟩ | ⟨-, hclose⟩
  · exact hrecord
  obtain ⟨s, result, -, ⟨-, hfin⟩ | ⟨-, -, rfl⟩⟩ := closeTributes_cases hclose
  · exact Tidy.finish (e := { e.recordTribute seat cardId with
      state := s, lastTribute := { result with
        firstPlayerSeat := (e.recordTribute seat cardId).tributeState.plan.headSeat } })
      ⟨hrecord.1, hrecord.2⟩ hfin
  · exact ⟨h.1, fun hoff => absurd (hactive.symm.trans hoff) nofun⟩

theorem Tidy.setPlayerReady {e : GameEngine} (h : Tidy e) (id : PlayerId) (ready : Bool) :
    Tidy (e.setPlayerReady id ready) := by
  unfold GameEngine.setPlayerReady
  rcases e.state.getPlayerById id with _ | seat
  · exact h
  · exact ⟨h.1, h.2⟩

theorem Tidy.step {e e' : GameEngine} {op : EngineOp} {out : EngineOut} (h : Tidy e)
    (hstep : engine.step e op = some (e', out)) : Tidy e' := by
  cases engine_step hstep with
  | init hinit =>
    unfold GameEngine.init at hinit
    split_ifs at hinit
    cases hinit
    exact ⟨h.1, h.2⟩
  | setPlayerReady id ready => exact h.setPlayerReady id ready
  | updateConfig config =>
    unfold GameEngine.updateConfig
    split_ifs
    · exact h
    · exact ⟨h.1, h.2⟩
  | startGame hstart =>
    rcases startGame_cases hstart with ⟨rfl, -⟩ | ⟨-, -, -, e₁, hdeal, rfl⟩
    · exact h
    · have hdealt := Tidy.dealRound (e := { e with previousRound := {} }) ⟨h.1, h.2⟩ hdeal
      exact ⟨hdealt.1, hdealt.2⟩
  | startGameThrew _ _ => exact ⟨h.1, h.2⟩
  | startNextRound hstart =>
    rcases startNextRound_cases hstart with ⟨rfl, -⟩ | ⟨-, -, e₁, hdeal, htribute⟩
    · exact h
    · have hdealt := h.dealRound hdeal
      obtain ⟨plan, -, ⟨result, -, rfl⟩ | ⟨-, -, rfl⟩⟩ := startTribute_cases htribute
      · exact ⟨hdealt.1, fun _ => rfl⟩
      · exact ⟨hdealt.1, nofun⟩
  | startNextRoundThrew _ _ => exact ⟨h.1, h.2⟩
  | playCards hplay => exact h.playCards hplay
  | pass hpass =>
    rcases pass_cases hpass with ⟨rfl, -⟩ | ⟨seat, s, -, -, -, -, -, rfl, -⟩
    · exact h
    · exact ⟨h.1, h.2⟩
  | submitTribute hsubmit => exact h.submitTribute hsubmit
  | submitReturn hsubmit =>
    rcases submitReturn_cases hsubmit with ⟨rfl, -⟩ | ⟨seat, -, hactive, -, -, -, rfl, -⟩
    · exact h
    · exact ⟨h.1, fun hoff => absurd (hactive.symm.trans hoff) nofun⟩
  | finalizeTributePhase hfin => exact h.finish hfin
  | buildViewFor _ => exact h

theorem tidy_of_run {config : GameRuleConfig} {history : List EngineOp} {e : GameEngine}
    (hrun : engine.run (GameEngine.new config) history = some e) : Tidy e := by
  have hreach : engine.Reachable (fun _ _ => True) (GameEngine.new config) e :=
    Machine.reachable_of_run (.of_forall fun _ _ _ => trivial) hrun
  exact hreach.invariant ⟨nofun, fun _ => rfl⟩ fun _ _ _ _ h _ hstep => h.step hstep

/-! ### A new match -/

/-- The players sit down, everybody is ready, and the match starts with this shuffle. -/
def newMatch (roomId : RoomId) (playerIds : List PlayerId) (σ : Shuffle) : List EngineOp :=
  .init roomId playerIds :: (playerIds.map (.setPlayerReady · true) ++ [.startGame σ])

/-- Nothing of an earlier match is left in the team levels, the pass-A phases and fail counts, the
attacking team or the tribute phase. -/
structure NothingLeft (e : GameEngine) : Prop where
  levels : e.progress.levels = fun _ => 2
  inPassAPhase : e.progress.inPassAPhase = fun _ => false
  passAFailCounts : e.progress.passAFailCounts = fun _ => 0
  attackingTeam : e.progress.attackingTeam = 0
  tribute : e.tributeState.active = false

/-- Getting ready changes neither the progress nor the tribute state. -/
theorem run_ready (e : GameEngine) (playerIds : List PlayerId) :
    ∃ e', engine.run e (playerIds.map (.setPlayerReady · true)) = some e' ∧
      e'.progress = e.progress ∧ e'.tributeState = e.tributeState := by
  induction playerIds generalizing e with
  | nil => exact ⟨e, rfl, rfl, rfl⟩
  | cons id ids ih =>
    obtain ⟨e', hrun, hprogress, htribute⟩ := ih (e.setPlayerReady id true)
    refine ⟨e', hrun, ?_, ?_⟩
    · rw [hprogress, setPlayerReady]
      split <;> rfl
    · rw [htribute, setPlayerReady]
      split <;> rfl

/-- The first deal of a match keeps the progress and the tribute state. -/
theorem startGame_keeps {e e' : GameEngine} {σ : Shuffle} {r : PlayResult} (h : Tidy e)
    (hstart : e.startGame σ = some (e', r)) :
    e'.progress = e.progress ∧ e'.tributeState = e.tributeState := by
  rcases startGame_cases hstart with ⟨rfl, -⟩ | ⟨-, -, -, e₁, hdeal, rfl⟩
  · exact ⟨rfl, rfl⟩
  · obtain ⟨hands, -, rfl⟩ := dealRound_cases hdeal
    exact ⟨h.progress.prepareNextRound, rfl⟩

/-- A new match keeps the progress and the tribute state of the engine. -/
theorem run_newMatch {e : GameEngine} (h : Tidy e) (roomId : RoomId) {playerIds : List PlayerId}
    (hlen : playerIds.length ≤ kPlayerCount) (σ : Shuffle) :
    ∃ e', engine.run e (newMatch roomId playerIds σ) = some e' ∧ e'.progress = e.progress ∧
      e'.tributeState = e.tributeState := by
  obtain ⟨e₁, hready, hprogress, htribute⟩ := run_ready (seated e roomId playerIds) playerIds
  have hrun : engine.run e (newMatch roomId playerIds σ) = engine.run e₁ [.startGame σ] := by
    rw [newMatch, Machine.run_cons (step_init e roomId hlen), Machine.run_append, hready,
      Option.bind_some]
  rw [hrun]
  rcases hstart : e₁.startGame σ with _ | ⟨e', r⟩
  · refine ⟨dealThrew { e₁ with previousRound := {} } σ, ?_, hprogress, htribute⟩
    simp [Machine.run, engine, apply, hstart, answerDeal]
  · have htidy : Tidy e₁ := ⟨hprogress ▸ h.progress, htribute ▸ h.tribute⟩
    obtain ⟨hprogress', htribute'⟩ := startGame_keeps htidy hstart
    refine ⟨e', ?_, hprogress'.trans hprogress, htribute'.trans htribute⟩
    simp [Machine.run, engine, apply, hstart, answerDeal]

/-- One player sits down and looks. -/
def look (roomId : RoomId) : List EngineOp := [.init roomId [1], .buildViewFor 1 none]

theorem look_shows (e : GameEngine) (roomId : RoomId) :
    ∃ v, engine.outputs e (look roomId) = [.done, .view v] ∧
      v.teamLevels = e.progress.levels ∧ v.inPassAPhase = e.progress.inPassAPhase ∧
      v.passAFailCounts = e.progress.passAFailCounts ∧
      v.isPlayingOwnRound = some (0 == e.progress.attackingTeam) ∧
      v.currentPlayerIndex = if e.tributeState.active then none else some 0 := by
  have hinit : engine.step e (.init roomId [1]) = some (seated e roomId [1], .done) := rfl
  have hseat : (seated e roomId [1]).seatOf 1 = some 0 := by
    simp [seatOf, seated, seatPlayer]
  have hview : ∃ v, (seated e roomId [1]).buildViewFor 1 none = some v ∧
      v.teamLevels = e.progress.levels ∧ v.inPassAPhase = e.progress.inPassAPhase ∧
      v.passAFailCounts = e.progress.passAFailCounts ∧
      v.isPlayingOwnRound = some (0 == e.progress.attackingTeam) ∧
      v.currentPlayerIndex = if e.tributeState.active then none else some 0 := by
    unfold buildViewFor
    rw [hseat]
    simp only [viewRequired, viewReturns, viewMustReturn, anchorSeat]
    simp [seated]
    rfl
  obtain ⟨v, hv, hshows⟩ := hview
  refine ⟨v, ?_, hshows⟩
  rw [look, Machine.outputs_cons hinit]
  simp [Machine.outputs, engine, apply, hv]

/-- A table that is looked at alike after a new match has the same progress left from before. -/
theorem nothingLeft_of_outputs {e : GameEngine} (h : Tidy e) {roomId : RoomId}
    {playerIds : List PlayerId} (hlen : playerIds.length ≤ kPlayerCount) {σ : Shuffle}
    (hout : engine.outputs e (newMatch roomId playerIds σ ++ look roomId) =
      engine.outputs (GameEngine.new e.config) (newMatch roomId playerIds σ ++ look roomId)) :
    NothingLeft e := by
  have hnew : Tidy (GameEngine.new e.config) := ⟨nofun, fun _ => rfl⟩
  obtain ⟨e', hrun, hprogress, htribute⟩ := run_newMatch h roomId hlen σ
  obtain ⟨f', hrun', hprogress', htribute'⟩ := run_newMatch hnew roomId hlen σ
  rw [Machine.outputs_append hrun, Machine.outputs_append hrun'] at hout
  have hlook := (List.append_inj hout
    ((Machine.length_outputs hrun).trans (Machine.length_outputs hrun').symm)).2
  obtain ⟨v, hv, hlevels, hphase, hfails, hown, hcurrent⟩ := look_shows e' roomId
  obtain ⟨v', hv', hlevels', hphase', hfails', hown', hcurrent'⟩ := look_shows f' roomId
  rw [hv, hv'] at hlook
  cases hlook
  rw [hprogress] at hlevels hphase hfails hown
  rw [hprogress'] at hlevels' hphase' hfails' hown'
  rw [htribute] at hcurrent
  rw [htribute'] at hcurrent'
  refine ⟨hlevels.symm.trans hlevels', hphase.symm.trans hphase', hfails.symm.trans hfails',
    ?_, ?_⟩
  · have hteam : (0 == e.progress.attackingTeam) = true :=
      Option.some.inj (hown.symm.trans hown')
    exact (eq_of_beq hteam).symm
  · have hoff : (if e.tributeState.active then none else some 0) = some 0 :=
      hcurrent.symm.trans hcurrent'
    split_ifs at hoff with hactive
    exact eq_false_of_ne_true hactive

/-- Sitting down at an engine with nothing left is sitting down at a new one. -/
theorem sameMatch_seated {e : GameEngine} (h : Tidy e) (hleft : NothingLeft e) (roomId : RoomId)
    (playerIds : List PlayerId) :
    SameMatch (seated e roomId playerIds) (seated (GameEngine.new e.config) roomId playerIds) := by
  refine ⟨rfl, rfl, (h.tribute hleft.tribute).symm, ⟨?_, h.progress, nofun⟩, .inl rfl⟩
  show ({} : TeamProgress) = { e.progress with lastWinningTeam := none }
  rw [← hleft.levels, ← hleft.inPassAPhase, ← hleft.passAFailCounts, ← hleft.attackingTeam]

/-- An engine that has played plays a new match as a new engine does exactly when nothing is left of
the matches before (or when the players are too many for any engine). -/
theorem fresh_match {config : GameRuleConfig} {history : List EngineOp} {e : GameEngine}
    (hrun : engine.run (GameEngine.new config) history = some e) (roomId : RoomId)
    (playerIds : List PlayerId) (σ : Shuffle) :
    (∀ ops, engine.Follows MatchOp e (newMatch roomId playerIds σ ++ ops) →
      engine.outputs e (newMatch roomId playerIds σ ++ ops) =
        engine.outputs (GameEngine.new e.config) (newMatch roomId playerIds σ ++ ops)) ↔
    kPlayerCount < playerIds.length ∨ NothingLeft e := by
  have htidy := tidy_of_run hrun
  constructor
  · intro h
    by_cases hlen : kPlayerCount < playerIds.length
    · exact .inl hlen
    · have hfollows : engine.Follows MatchOp e (newMatch roomId playerIds σ ++ look roomId) :=
        .of_forall (by
          intro op hop e
          simp only [newMatch, look, List.cons_append, List.mem_cons, List.mem_append,
            List.mem_map, List.not_mem_nil] at hop
          rcases hop with rfl | (⟨id, -, rfl⟩ | rfl | h) | rfl | rfl | h <;> trivial)
      exact .inr (nothingLeft_of_outputs htidy (by omega) (h _ hfollows))
  · intro hleft ops hok
    by_cases hlen : kPlayerCount < playerIds.length
    · have hrefused : ∀ e : GameEngine, engine.step e (.init roomId playerIds) = none := by
        intro e
        show (e.init roomId playerIds).map _ = none
        rw [GameEngine.init, if_pos hlen]
        rfl
      simp [newMatch, Machine.outputs, hrefused]
    · have hsame := sameMatch_seated htidy (hleft.resolve_left hlen) roomId playerIds
      have hle : playerIds.length ≤ kPlayerCount := by omega
      have hstep := fun e => step_init e roomId hle
      rw [newMatch, List.cons_append] at hok
      rw [newMatch, List.cons_append, Machine.outputs_cons (hstep e),
        Machine.outputs_cons (hstep _)]
      exact congrArg _ (sameMatch_bisimulation.outputs_eq hsame (hok.2 _ _ (hstep e)))

/-- After a round that ends double down the winners keep their level in the next match. -/
theorem fresh_match_doubleDown :
    ∃ e, engine.run (newEngine "solo").1 doubleDown = some e ∧
      ((∀ ops,
        engine.Follows MatchOp e (newMatch "table" [1, 2, 3, 4] (Shuffle.stack []) ++ ops) →
        engine.outputs e (newMatch "table" [1, 2, 3, 4] (Shuffle.stack []) ++ ops) =
          engine.outputs (GameEngine.new e.config)
            (newMatch "table" [1, 2, 3, 4] (Shuffle.stack []) ++ ops)) ↔
      kPlayerCount < [1, 2, 3, 4].length ∨ NothingLeft e) := by
  obtain ⟨e, hrun, -⟩ := Machine.exists_run_of_any (M := engine) (s := (newEngine "solo").1)
    (l := doubleDown) (P := fun _ => True) (by decide +kernel)
  exact ⟨e, hrun, fresh_match hrun "table" [1, 2, 3, 4] (Shuffle.stack [])⟩

/-- The level of the first team, as a view shows it. -/
def EngineOut.shownLevel : EngineOut → Option Nat
  | .view v => some (v.teamLevels 0)
  | _ => none

/-- After a match that ended double down the first view of the next match shows level 5. -/
theorem levels_survive :
    ¬ ∀ (config : GameRuleConfig) (history : List EngineOp) (e : GameEngine),
      engine.run (GameEngine.new config) history = some e →
      ∀ (roomId : RoomId) (playerIds : List PlayerId) (σ : Shuffle) (ops : List EngineOp),
        engine.outputs e (newMatch roomId playerIds σ ++ ops) =
          engine.outputs (GameEngine.new e.config) (newMatch roomId playerIds σ ++ ops) := by
  intro h
  obtain ⟨e, hrun, hshown⟩ := Machine.exists_run_of_any (M := engine)
    (s := (newEngine "solo").1) (l := doubleDown) (P := fun e => ¬
      (engine.outputs e (newMatch "table" [1, 2, 3, 4] (Shuffle.stack []) ++
        [.buildViewFor 1 none])).map EngineOut.shownLevel =
      (engine.outputs (GameEngine.new e.config) (newMatch "table" [1, 2, 3, 4] (Shuffle.stack []) ++
        [.buildViewFor 1 none])).map EngineOut.shownLevel) (by decide +kernel)
  exact hshown (congrArg _ (h _ _ e hrun "table" [1, 2, 3, 4] (Shuffle.stack []) _))

end Guandan
