import Guandan.Engine.Liveness
import Guandan.Engine.TrickProtocol

/-!
# Refused calls leave no trace

The calls of a round (`RoundCall`) are always answered, in every state that an engine of a mode
reaches: no card is looked up that is not in the deck, every deal divides evenly and no loop over the
seats runs for ever. A refused call leaves the engine as it was; an accepted one raises
`stateVersion` (`Answered`).
-/

namespace Guandan

open GameState GameEngine TributeManager

/-- The calls that answer with a `PlayResult`, but for the end of the tribute phase. -/
def RoundCall : EngineOp → Prop
  | .startGame _ => True
  | .startNextRound _ => True
  | .playCards _ _ => True
  | .pass _ => True
  | .submitTribute _ _ => True
  | .submitReturn _ _ => True
  | _ => False

/-- The answer to a call: nothing is changed, or the version rises. -/
structure Answered (e e' : GameEngine) (r : PlayResult) : Prop where
  refused : r.code ≠ .ok → e' = e
  accepted : r.code = .ok → e.state.stateVersion < e'.state.stateVersion

namespace Answered

variable {e e' : GameEngine} {r : PlayResult} {id : PlayerId} {cards : List CardId} {cardId : CardId}
  {σ : Shuffle}

theorem of_refused (h : r.code ≠ .ok) : Answered e e r := ⟨fun _ => rfl, fun hok => absurd hok h⟩

theorem of_accepted (h : r.code = .ok) (hlt : e.state.stateVersion < e'.state.stateVersion) :
    Answered e e' r := ⟨fun hno => absurd h hno, fun _ => hlt⟩

theorem stateVersion_dealRound (h : e.dealRound σ = some e') :
    e'.state.stateVersion = e.state.stateVersion := by
  obtain ⟨hands, -, rfl⟩ := dealRound_cases h
  rfl

theorem startGame (h : e.startGame σ = some (e', r)) : Answered e e' r := by
  rcases startGame_cases h with ⟨rfl, hcode⟩ | ⟨-, -, rfl, e₁, hdeal, rfl⟩
  · exact .of_refused hcode
  · have hversion := stateVersion_dealRound hdeal
    refine .of_accepted rfl ?_
    show e.state.stateVersion < e₁.state.stateVersion + 1
    rw [hversion]
    exact Nat.lt_succ_self _

theorem startNextRound (h : e.startNextRound σ = some (e', r)) : Answered e e' r := by
  rcases startNextRound_cases h with ⟨rfl, hcode⟩ | ⟨-, rfl, e₁, hdeal, htribute⟩
  · exact .of_refused hcode
  · have hversion := stateVersion_dealRound hdeal
    refine .of_accepted rfl ?_
    rw [← hversion]
    obtain ⟨plan, -, ⟨result, -, rfl⟩ | ⟨-, -, rfl⟩⟩ := startTribute_cases htribute
    · exact Nat.lt_succ_self _
    · exact Nat.lt_succ_self _

theorem stateVersion_finish (h : e.finishTributePhaseAndStartPlay = some (e', r)) :
    e'.state.stateVersion = e.state.stateVersion + 1 := by
  obtain ⟨-, first, -, rfl⟩ := finishTributePhase_cases h
  rfl

theorem submitTribute (h : e.submitTribute id cardId = some (e', r)) : Answered e e' r := by
  rcases submitTribute_cases h with ⟨rfl, hcode⟩ | ⟨seat, -, -, -, -, -, hrest⟩
  · exact .of_refused hcode
  rcases hrest with ⟨-, rfl, rfl⟩ | ⟨-, hclose⟩
  · exact .of_accepted rfl (Nat.lt_succ_self _)
  · obtain ⟨s, result, hassign, hrest⟩ := closeTributes_cases hclose
    obtain ⟨pending, -, rfl, -⟩ := assignTributes_cases hassign
    rcases hrest with ⟨-, hfinish⟩ | ⟨-, rfl, rfl⟩
    · have hversion := stateVersion_finish hfinish
      refine .of_accepted (by rw [(finishTributePhase_cases hfinish).1]) ?_
      rw [hversion]
      exact Nat.lt_succ_of_lt (Nat.lt_succ_self _)
    · exact .of_accepted rfl (Nat.lt_succ_of_lt (Nat.lt_succ_self _))

theorem submitReturn (h : e.submitReturn id cardId = some (e', r)) : Answered e e' r := by
  rcases submitReturn_cases h with ⟨rfl, hcode⟩ | ⟨seat, -, -, -, -, -, rfl, rfl⟩
  · exact .of_refused hcode
  · refine .of_accepted rfl ?_
    rw [recordReturn_state]
    exact Nat.lt_succ_self _

theorem pass (h : e.pass id = some (e', r)) : Answered e e' r := by
  rcases pass_eq h with ⟨rfl, hcode⟩ | ⟨rfl, _, _, _, _, _, _, rfl⟩
  · exact .of_refused hcode
  · exact .of_accepted rfl (Nat.lt_succ_self _)

theorem playCards (h : e.playCards id cards = some (e', r)) : Answered e e' r := by
  rcases playCards_cases h with ⟨rfl, hcode, -⟩ | ⟨seat, pattern, -, hcode, hrest⟩
  · exact .of_refused hcode
  refine .of_accepted hcode ?_
  rcases hrest with ⟨-, hturn⟩ | ⟨-, -, hturn⟩ | ⟨-, -, hfinish⟩
  · obtain ⟨i, turn, rfl⟩ := passTurnOn_frame hturn
    exact Nat.lt_succ_self _
  · obtain ⟨i, turn, rfl⟩ := passTurnOn_frame hturn
    exact Nat.lt_succ_self _
  · obtain ⟨players, hranks⟩ :=
      assignRemaining_frame ((e.acceptPlay seat cards pattern).goOut seat).state
    cases hfinish
    show e.state.stateVersion < (assignRemainingFinishRanks _).stateVersion
    rw [hranks]
    exact Nat.lt_succ_self _

end Answered

/-! ### Every call is answered -/

section IsSome

variable {e : GameEngine} {log : RoundLog} {passes : List Nat}

theorem playCards_answered (htrick : TrickInv e passes) (hround : RoundInv e log) (id : PlayerId)
    (cards : List CardId) : (e.playCards id cards).isSome := by
  by_cases hphase : e.state.phase = .playing
  · exact htrick.playCards_isSome hround hphase id cards
  · unfold GameEngine.playCards checkPlay
    rw [if_pos hphase]
    rfl

theorem pass_answered (htrick : TrickInv e passes) (id : PlayerId) : (e.pass id).isSome := by
  by_cases hphase : e.state.phase = .playing
  · exact htrick.pass_isSome hphase id
  · unfold GameEngine.pass
    rw [if_pos hphase]
    rfl

theorem isValidTributeSubmission_isSome (hknown : e.state.KnownHands) (seat : Nat)
    (cardId : CardId) :
    (isValidTributeSubmission seat cardId e.state e.ruleContext).isSome := by
  unfold isValidTributeSubmission
  dsimp only
  split_ifs with hseat
  · rfl
  · rfl
  · simp only [Bool.or_eq_true, decide_eq_true_eq, not_or, Nat.not_le] at hseat
    rw [requiredTributeCard_eq hknown hseat.1]
    rfl

theorem isValidReturnSubmission_isSome (hknown : e.state.KnownHands) (seat : Nat)
    (cardId : CardId) :
    (isValidReturnSubmission seat cardId e.state e.ruleContext).isSome := by
  unfold isValidReturnSubmission
  dsimp only
  split_ifs with hseat
  · rfl
  · rfl
  · simp only [Bool.or_eq_true, decide_eq_true_eq, not_or, Nat.not_le] at hseat
    rw [validReturnCardIds_eq hknown hseat.1]
    rfl

theorem submitTribute_isSome (hround : RoundInv e log) (hph : PhaseInv e log) (id : PlayerId)
    (cardId : CardId) : (e.submitTribute id cardId).isSome := by
  unfold GameEngine.submitTribute
  split_ifs with hphase
  · rfl
  push Not at hphase
  have hknown := hround.knownHands (by simp [hphase.1])
  rcases hseat : e.seatOf id with _ | seat <;> dsimp only
  · rfl
  by_cases hpending : seat ∈ e.tributeState.pendingTributers
  swap
  · rw [if_pos hpending]
    rfl
  rw [if_neg (not_not_intro hpending)]
  obtain ⟨valid, hvalid⟩ :=
    Option.isSome_iff_exists.1 (isValidTributeSubmission_isSome hknown seat cardId)
  rw [hvalid]
  rcases valid with _ | _
  · rfl
  · obtain ⟨hlt, hne, hheld, -⟩ := isValidTributeSubmission_iff.1 hvalid
    have hrec := (hph.tribute hphase.1).toCollecting.record hne hheld hlt
    simp only [Option.bind_eq_bind, Option.bind_some, Bool.not_true, Bool.false_eq_true, if_false]
    by_cases hlast : (e.recordTribute seat cardId).tributeState.pendingTributers = []
    · rw [if_neg (by simp [hlast])]
      exact hrec.closeTributes_isSome hknown hlast
    · rw [if_pos (by simpa using hlast)]
      rfl

theorem submitReturn_isSome (hround : RoundInv e log) (id : PlayerId) (cardId : CardId) :
    (e.submitReturn id cardId).isSome := by
  unfold GameEngine.submitReturn
  split_ifs with hphase
  · rfl
  push Not at hphase
  have hknown := hround.knownHands (by simp [hphase.1])
  rcases hseat : e.seatOf id with _ | seat <;> dsimp only
  · rfl
  by_cases hpending : seat ∈ e.tributeState.pendingReturnSeats
  swap
  · rw [if_pos hpending]
    rfl
  rw [if_neg (not_not_intro hpending)]
  obtain ⟨valid, hvalid⟩ :=
    Option.isSome_iff_exists.1 (isValidReturnSubmission_isSome hknown seat cardId)
  rw [hvalid]
  rcases valid with _ | _ <;> rfl

end IsSome

/-- In every state that an engine of a mode reaches while the tribute phase is finalized only when it is
on (`CalledOp`), every call of a round is answered; a refused one leaves the whole engine unchanged, and
an accepted one raises the version. -/
theorem refused_or_advanced (mode : String) (e : GameEngine)
    (h : engine.Reachable CalledOp (newEngine mode).1 e) (op : EngineOp) (hcall : RoundCall op) :
    ∃ e' r, engine.step e op = some (e', .result r) ∧ Answered e e' r := by
  obtain ⟨log, hlog⟩ := h.remember recordRound (newEngine mode).2
  obtain ⟨passes, hpasses⟩ := hlog.remember
    (fun passes sg op out _ => recordPasses passes sg.1 op out) []
  obtain ⟨htrick, hround, hph⟩ := trickInv_reachable hpasses
  cases op with
  | startGame σ =>
    obtain ⟨⟨e', r⟩, hstart⟩ := Option.isSome_iff_exists.1 (hround.seating.startGame_isSome σ)
    exact ⟨e', r, by simp [engine, apply, hstart, answerDeal], .startGame hstart⟩
  | startNextRound σ =>
    obtain ⟨⟨e', r⟩, hstart⟩ := Option.isSome_iff_exists.1 (hround.startNextRound_isSome σ)
    exact ⟨e', r, by simp [engine, apply, hstart, answerDeal], .startNextRound hstart⟩
  | playCards id cards =>
    obtain ⟨⟨e', r⟩, hplay⟩ :=
      Option.isSome_iff_exists.1 (playCards_answered htrick hround id cards)
    exact ⟨e', r, by simp [engine, apply, hplay], .playCards hplay⟩
  | pass id =>
    obtain ⟨⟨e', r⟩, hpass⟩ := Option.isSome_iff_exists.1 (pass_answered htrick id)
    exact ⟨e', r, by simp [engine, apply, hpass], .pass hpass⟩
  | submitTribute id cardId =>
    obtain ⟨⟨e', r⟩, hsubmit⟩ :=
      Option.isSome_iff_exists.1 (submitTribute_isSome hround hph id cardId)
    exact ⟨e', r, by simp [engine, apply, hsubmit], .submitTribute hsubmit⟩
  | submitReturn id cardId =>
    obtain ⟨⟨e', r⟩, hsubmit⟩ := Option.isSome_iff_exists.1 (submitReturn_isSome hround id cardId)
    exact ⟨e', r, by simp [engine, apply, hsubmit], .submitReturn hsubmit⟩
  | init roomId playerIds => exact hcall.elim
  | setPlayerReady id ready => exact hcall.elim
  | updateConfig config => exact hcall.elim
  | finalizeTributePhase => exact hcall.elim
  | buildViewFor id anchor => exact hcall.elim

theorem refused_or_advanced_soloLead : ∃ e,
    engine.run (newEngine "solo").1 (startSolo (Shuffle.stack [])) = some e ∧
    ∃ e' r, engine.step e (.playCards 1 [0]) = some (e', .result r) ∧ Answered e e' r := by
  have hok : engine.Follows CalledOp (newEngine "solo").1 (startSolo (Shuffle.stack [])) :=
    .of_forall (by simp [startSolo, CalledOp])
  obtain ⟨e, hrun, -⟩ := Machine.exists_run_of_any (M := engine) (s := (newEngine "solo").1)
    (P := fun e => e.state.phase = .playing) (l := startSolo (Shuffle.stack []))
    (by decide +kernel)
  exact ⟨e, hrun, refused_or_advanced "solo" e (Machine.reachable_of_run hok hrun)
    (.playCards 1 [0]) trivial⟩

end Guandan
