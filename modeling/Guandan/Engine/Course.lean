import Guandan.Engine.TrickProtocol

/-!
# The engine of a room

A room drives its engine by the calls of `CompleteOp`, starting from the engine of a mode
(`Reached`): so all invariants of the engine hold of it. During a match it makes no other calls than
those of a round (`Course`); they keep the people on their seats and the rules as they are.
-/

namespace Guandan

open GameState GameEngine

/-- An engine that a room of some mode has. -/
def Reached (e : GameEngine) : Prop :=
  ∃ mode, engine.Reachable CompleteOp (newEngine mode).1 e

/-- The invariants of the engine, for some log of the round. -/
structure EngineFacts (e : GameEngine) (log : RoundLog) (passes : List Nat) : Prop where
  round : RoundInv e log
  phase : PhaseInv e log
  trick : TrickInv e passes

theorem Reached.facts {e : GameEngine} (h : Reached e) : ∃ log passes, EngineFacts e log passes := by
  obtain ⟨mode, hreach⟩ := h
  obtain ⟨log, hlog⟩ := hreach.remember recordRound (newEngine mode).2
  obtain ⟨passes, hpasses⟩ := hlog.remember
    (fun passes sg op out _ => recordPasses passes sg.1 op out) []
  obtain ⟨htrick, hround, hphase⟩ :=
    trickInv_reachable (hpasses.mono fun _ _ hop => CompleteOp.called hop)
  exact ⟨log, passes, hround, hphase, htrick⟩

theorem Reached.step {e e' : GameEngine} {op : EngineOp} {out : EngineOut} (h : Reached e)
    (hok : CompleteOp e op) (hstep : engine.step e op = some (e', out)) : Reached e' := by
  obtain ⟨mode, hreach⟩ := h
  exact ⟨mode, hreach.step hok hstep⟩

/-- Once returns are asked for nobody has a tribute to give any more. -/
theorem Reached.pendingTributers {e : GameEngine} (h : Reached e)
    (hphase : e.state.phase = .returnTribute) : e.tributeState.pendingTributers = [] := by
  obtain ⟨mode, hreach⟩ := h
  refine hreach.invariant (P := fun e => e.state.phase = .returnTribute →
    e.tributeState.pendingTributers = []) (fun hp => by cases hp) ?_ hphase
  intro e op e' out hinv hok hstep hp
  cases engine_step hstep with
  | init hinit =>
    unfold GameEngine.init at hinit
    split_ifs at hinit
    cases hinit
    cases hp
  | setPlayerReady id ready =>
    obtain ⟨-, -, hphase, -, htribute, -⟩ := setPlayerReady_frame e id ready
    rw [htribute]
    exact hinv (hphase ▸ hp)
  | updateConfig config =>
    unfold GameEngine.updateConfig at hp ⊢
    split_ifs at hp ⊢
    · exact hinv hp
    · exact hinv hp
  | startGame hstart =>
    rcases startGame_cases hstart with ⟨rfl, -⟩ | ⟨-, -, -, e₁, -, rfl⟩
    · exact hinv hp
    · cases hp
  | startGameThrew _ _ => exact hinv hp
  | startNextRound hstart =>
    rcases startNextRound_cases hstart with ⟨rfl, -⟩ | ⟨-, -, e₁, -, htribute⟩
    · exact hinv hp
    · obtain ⟨plan, -, ⟨_, -, rfl⟩ | ⟨-, -, rfl⟩⟩ := startTribute_cases htribute
      · cases hp
      · cases hp
  | startNextRoundThrew _ _ => exact hinv hp
  | playCards hplay =>
    rcases playCards_frame hplay with ⟨rfl, -⟩ | ⟨seat, pattern, -, -, hframe⟩
    · exact hinv hp
    · rcases hframe.phase with h | h
      · exact absurd (h.symm.trans hp) nofun
      · exact absurd (h.symm.trans hp) nofun
  | pass hpass =>
    obtain ⟨-, -, -, hphase, -, htribute, -⟩ := pass_frame hpass
    rw [htribute]
    exact hinv (hphase ▸ hp)
  | submitTribute hsubmit =>
    rcases submitTribute_cases hsubmit with ⟨rfl, -⟩ | ⟨seat, hphase, -, -, -, -, hrest⟩
    · exact hinv hp
    · rcases hrest with ⟨-, rfl, -⟩ | ⟨hnone, hclose⟩
      · exact absurd (hphase.symm.trans hp) nofun
      · obtain ⟨s, result, -, -, -, -, ⟨-, h⟩ | ⟨-, rfl⟩⟩ := closeTributes_frame hclose
        · exact absurd (h.symm.trans hp) nofun
        · exact hnone
  | submitReturn hsubmit =>
    rcases submitReturn_cases hsubmit with ⟨rfl, -⟩ | ⟨seat, hphase, -, -, -, -, rfl, -⟩
    · exact hinv hp
    · exact hinv hphase
  | finalizeTributePhase hfin =>
    exact absurd ((finishTributePhase_frame hfin).2.2.2.symm.trans hp) nofun
  | buildViewFor _ => exact hinv hp

/-! ### The course of a match -/

/-- A call of a match: the players and the rules are not exchanged. -/
def MatchCall (e : GameEngine) (op : EngineOp) : Prop :=
  CompleteOp e op ∧ (∀ roomId playerIds, op ≠ .init roomId playerIds) ∧
    ∀ config, op ≠ .updateConfig config

/-- What calls of a match can make of an engine. -/
def Course (e e' : GameEngine) : Prop := engine.Reachable MatchCall e e'

theorem Course.reached {e e' : GameEngine} (h : Course e e') (he : Reached e) : Reached e' := by
  obtain ⟨mode, hreach⟩ := he
  exact ⟨mode, hreach.trans (h.mono fun _ _ hop => hop.1)⟩

/-- The same people on the same seats, under the same rules. -/
structure SamePeople (e e' : GameEngine) : Prop where
  config : e'.config = e.config
  playerCount : e'.state.playerCount = e.state.playerCount
  ids : ∀ i, (e'.state.players i).id = (e.state.players i).id

namespace SamePeople

variable {e e' e'' : GameEngine}

theorem refl (e : GameEngine) : SamePeople e e := ⟨rfl, rfl, fun _ => rfl⟩

theorem trans (h : SamePeople e e') (h' : SamePeople e' e'') : SamePeople e e'' :=
  ⟨h'.config.trans h.config, h'.playerCount.trans h.playerCount,
    fun i => (h'.ids i).trans (h.ids i)⟩

theorem of_quiet (h : SeatingInv.Quiet e e') : SamePeople e e' :=
  ⟨h.config, h.playerCount, fun i => (h.eqs i).1⟩

theorem dealRound {σ : Shuffle} (h : e.dealRound σ = some e') : SamePeople e e' := by
  obtain ⟨hands, -, rfl⟩ := dealRound_cases h
  exact ⟨rfl, rfl, fun i => (dealtPlayer_keeps _ _ _ i).1⟩

theorem setPlayerReady (e : GameEngine) (id : PlayerId) (ready : Bool) :
    SamePeople e (e.setPlayerReady id ready) := by
  obtain ⟨-, hcount, -, hconfig, -, -⟩ := setPlayerReady_frame e id ready
  refine ⟨hconfig, hcount, fun i => ?_⟩
  unfold GameEngine.setPlayerReady
  rcases e.state.getPlayerById id with _ | seat
  · rfl
  · by_cases hi : i = seat
    · subst hi
      simp
    · simp [hi]

theorem playCards {id : PlayerId} {cards : List CardId} {r : PlayResult}
    (h : e.playCards id cards = some (e', r)) : SamePeople e e' := by
  rcases playCards_frame h with ⟨rfl, -, -⟩ | ⟨seat, pattern, -, -, hframe⟩
  · exact .refl _
  · refine (of_quiet (SeatingInv.quiet_acceptPlay e seat cards pattern)).trans ⟨?_, ?_, fun i => ?_⟩
    · exact hframe.config
    · exact hframe.seats.playerCount
    · exact (congrArg PlayerState.id (hframe.seats.players i) :)

theorem submitTribute {id : PlayerId} {cardId : CardId} {r : PlayResult}
    (h : e.submitTribute id cardId = some (e', r)) : SamePeople e e' := by
  rcases submitTribute_cases h with ⟨rfl, -⟩ | ⟨seat, -, -, -, -, -, ⟨-, rfl, -⟩ | ⟨-, hclose⟩⟩
  · exact .refl _
  · exact ⟨rfl, rfl, fun _ => rfl⟩
  · obtain ⟨s, result, -, hsame, hrules, hplayers, -⟩ := closeTributes_frame hclose
    exact ⟨hrules.config, hsame.playerCount, fun i => by rw [hplayers]; rfl⟩

theorem step {op : EngineOp} {out : EngineOut} (hok : MatchCall e op)
    (hstep : engine.step e op = some (e', out)) : SamePeople e e' := by
  cases engine_step hstep with
  | init hinit => exact absurd rfl (hok.2.1 _ _)
  | setPlayerReady id ready => exact .setPlayerReady e id ready
  | updateConfig config => exact absurd rfl (hok.2.2 _)
  | startGame hstart =>
    rcases startGame_cases hstart with ⟨rfl, -⟩ | ⟨-, -, -, e₁, hdeal, rfl⟩
    · exact .refl _
    · have hsame := dealRound hdeal
      exact ⟨hsame.config, hsame.playerCount, hsame.ids⟩
  | startGameThrew _ _ => exact ⟨rfl, rfl, fun _ => rfl⟩
  | startNextRound hstart =>
    rcases startNextRound_cases hstart with ⟨rfl, -⟩ | ⟨-, -, e₁, hdeal, htribute⟩
    · exact .refl _
    · refine (dealRound hdeal).trans ?_
      obtain ⟨plan, -, ⟨result, -, rfl⟩ | ⟨-, -, rfl⟩⟩ := startTribute_cases htribute
      · exact ⟨rfl, rfl, fun _ => rfl⟩
      · exact ⟨rfl, rfl, fun _ => rfl⟩
  | startNextRoundThrew _ _ => exact ⟨rfl, rfl, fun _ => rfl⟩
  | playCards hplay => exact .playCards hplay
  | pass hpass =>
    obtain ⟨hplayers, hcount, -, -, hconfig, -⟩ := pass_frame hpass
    exact ⟨hconfig, hcount, fun i => by rw [hplayers]⟩
  | submitTribute hsubmit => exact .submitTribute hsubmit
  | submitReturn hsubmit =>
    rcases submitReturn_cases hsubmit with ⟨rfl, -⟩ | ⟨seat, -, -, -, -, -, rfl, -⟩
    · exact .refl _
    · exact of_quiet (SeatingInv.quiet_recordReturn e seat _).1
  | finalizeTributePhase hfin =>
    obtain ⟨hsame, hrules, hplayers, -⟩ := finishTributePhase_frame hfin
    exact ⟨hrules.config, hsame.playerCount, fun i => by rw [hplayers]⟩
  | buildViewFor _ => exact .refl _

end SamePeople

theorem Course.samePeople {e e' : GameEngine} (h : Course e e') : SamePeople e e' :=
  h.invariant (P := SamePeople e) (.refl e) fun _ _ _ _ hsame hok hstep =>
    hsame.trans (.step hok hstep)

namespace Course

variable {e e' e'' : GameEngine} {r : PlayResult} {id : PlayerId} {cardId : CardId}
  {cards : List CardId} {σ : Shuffle}

theorem refl (e : GameEngine) : Course e e := Machine.Reachable.refl

theorem trans (h : Course e e') (h' : Course e' e'') : Course e e'' := Machine.Reachable.trans h h'

/-- One call of a match. -/
theorem call (op : EngineOp) (out : EngineOut) (hok : MatchCall e op)
    (hstep : engine.step e op = some (e', out)) : Course e e' := Machine.Reachable.refl.step hok hstep

theorem setPlayerReady (e : GameEngine) (id : PlayerId) (ready : Bool) :
    Course e (e.setPlayerReady id ready) :=
  call (.setPlayerReady id ready) (.done) ⟨trivial, nofun, nofun⟩ rfl

theorem startGame (h : e.startGame σ = some (e', r)) : Course e e' :=
  call (.startGame σ) (.result r) ⟨trivial, nofun, nofun⟩
    (by simp [engine, apply, h, answerDeal])

theorem startNextRound (h : e.startNextRound σ = some (e', r)) : Course e e' :=
  call (.startNextRound σ) (.result r) ⟨trivial, nofun, nofun⟩
    (by simp [engine, apply, h, answerDeal])

theorem playCards (h : e.playCards id cards = some (e', r)) : Course e e' :=
  call (.playCards id cards) (.result r) ⟨trivial, nofun, nofun⟩
    (by simp [engine, apply, h])

theorem pass (h : e.pass id = some (e', r)) : Course e e' :=
  call (.pass id) (.result r) ⟨trivial, nofun, nofun⟩ (by simp [engine, apply, h])

theorem submitTribute (h : e.submitTribute id cardId = some (e', r)) : Course e e' :=
  call (.submitTribute id cardId) (.result r) ⟨trivial, nofun, nofun⟩
    (by simp [engine, apply, h])

theorem submitReturn (h : e.submitReturn id cardId = some (e', r)) : Course e e' :=
  call (.submitReturn id cardId) (.result r) ⟨trivial, nofun, nofun⟩
    (by simp [engine, apply, h])

theorem finalizeTributePhase (hon : e.hasPendingTributeAction = true)
    (htribute : e.tributeState.pendingTributers = [])
    (hreturn : e.tributeState.pendingReturnSeats = [])
    (h : e.finalizeTributePhase = some (e', r)) : Course e e' :=
  call (.finalizeTributePhase) (.result r) ⟨⟨hon, htribute, hreturn⟩, nofun, nofun⟩
    (by simp [engine, apply, h])

end Course

/-! ### The phases of a match -/

/-- A round is on: in play, or at its tributes. -/
def Ongoing (e : GameEngine) : Prop :=
  e.state.phase = .playing ∨ e.state.phase = .tribute ∨ e.state.phase = .returnTribute

/-- An accepted play or pass: the round goes on, or it is over. -/
structure Advances (e e' : GameEngine) (r : PlayResult) : Prop where
  course : Course e e'
  playing : e.state.phase = .playing
  outcome : r.gameOver = false ∧ e'.state.phase = .playing ∨
    r.gameOver = true ∧ e'.state.phase = .finished

section Phases

variable {e e' : GameEngine} {r : PlayResult} {id : PlayerId} {cardId : CardId}
  {cards : List CardId}

theorem advances_playCards (h : e.playCards id cards = some (e', r)) (hcode : r.code = .ok) :
    Advances e e' r := by
  have hcourse := Course.playCards h
  rcases playCards_cases h with ⟨-, hno, -⟩ | ⟨seat, pattern, hplay, -, hrest⟩
  · exact absurd hcode hno
  refine ⟨hcourse, hplay.phase, ?_⟩
  rcases hrest with ⟨-, hturn⟩ | ⟨-, -, hturn⟩ | ⟨-, -, hfinish⟩
  · obtain ⟨rfl, s, -, -⟩ := passTurnOn_cases hturn
    obtain ⟨i, turn, rfl⟩ := passTurnOn_frame hturn
    exact .inl ⟨rfl, hplay.phase⟩
  · obtain ⟨rfl, s, -, -⟩ := passTurnOn_cases hturn
    obtain ⟨i, turn, rfl⟩ := passTurnOn_frame hturn
    exact .inl ⟨rfl, hplay.phase⟩
  · have hover := congrArg (fun answer => answer.2.gameOver) hfinish
    have hphase := congrArg (fun answer => answer.1.state.phase) hfinish
    exact .inr ⟨hover.symm, hphase.symm⟩

theorem advances_pass (h : e.pass id = some (e', r)) (hcode : r.code = .ok) : Advances e e' r := by
  have hphase := (pass_frame h).2.2.2.1
  rcases pass_cases h with ⟨-, hno⟩ | ⟨seat, s, hplaying, -, -, -, -, -, rfl⟩
  · exact absurd hcode hno
  · exact ⟨Course.pass h, hplaying, .inl ⟨rfl, hphase.trans hplaying⟩⟩

/-- A tribute is accepted only in its phase. -/
theorem submitTribute_ongoing (h : e.submitTribute id cardId = some (e', r)) (hcode : r.code = .ok) :
    Ongoing e := by
  rcases submitTribute_cases h with ⟨-, hno⟩ | ⟨seat, hphase, -⟩
  · exact absurd hcode hno
  · exact .inr (.inl hphase)

theorem submitReturn_ongoing (h : e.submitReturn id cardId = some (e', r)) (hcode : r.code = .ok) :
    Ongoing e := by
  rcases submitReturn_cases h with ⟨-, hno⟩ | ⟨seat, hphase, -⟩
  · exact absurd hcode hno
  · exact .inr (.inr hphase)

theorem ongoing_submitTribute (h : e.submitTribute id cardId = some (e', r)) (he : Ongoing e) :
    Ongoing e' := by
  rcases submitTribute_cases h with ⟨rfl, -⟩ | ⟨seat, hphase, -, -, -, -, hrest⟩
  · exact he
  rcases hrest with ⟨-, rfl, -⟩ | ⟨-, hclose⟩
  · exact .inr (.inl hphase)
  · obtain ⟨s, result, -, -, -, -, ⟨-, hp⟩ | ⟨-, rfl⟩⟩ := closeTributes_frame hclose
    · exact .inl hp
    · exact .inr (.inr rfl)

theorem ongoing_submitReturn (h : e.submitReturn id cardId = some (e', r)) (he : Ongoing e) :
    Ongoing e' := by
  rcases submitReturn_cases h with ⟨rfl, -⟩ | ⟨seat, hphase, -, -, -, -, rfl, -⟩
  · exact he
  · exact .inr (.inr ((SeatingInv.quiet_recordReturn e seat cardId).2.trans hphase))

end Phases

end Guandan
