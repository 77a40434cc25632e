import Guandan.Game.GameEngine
import Guandan.Library.Machine

/-!
# The engine as a machine, and what each operation can do

`engine` takes the public calls of the engine as inputs. A deal that throws leaves the engine with
the shuffled deck and nothing else; every other call that throws or loops is not answered. For each
operation one lemma says all that an answered call can have done; no later proof unfolds an
operation.
-/

namespace Guandan

inductive EngineOp
  | init (roomId : RoomId) (playerIds : List PlayerId)
  | setPlayerReady (playerId : PlayerId) (ready : Bool)
  | updateConfig (config : GameRuleConfig)
  | startGame (σ : Shuffle)
  | startNextRound (σ : Shuffle)
  | playCards (playerId : PlayerId) (cards : List CardId)
  | pass (playerId : PlayerId)
  | submitTribute (playerId : PlayerId) (cardId : CardId)
  | submitReturn (playerId : PlayerId) (cardId : CardId)
  | finalizeTributePhase
  | buildViewFor (viewerId : PlayerId) (anchorSeatOverride : Option Nat)

inductive EngineOut
  | done
  | result (r : PlayResult)
  | view (v : PlayerView)
  | threw

namespace GameEngine

/-- What a deal that throws leaves behind. -/
def dealThrew (e : GameEngine) (σ : Shuffle) : GameEngine :=
  { e with state := { e.state with allCards := e.shuffled σ } }

/-- The answer of a call that deals, `thrown` being what it leaves when the deal throws. -/
def answerDeal (answer : Option (GameEngine × PlayResult)) (thrown : GameEngine) :
    GameEngine × EngineOut :=
  match answer with
  | some (e, r) => (e, .result r)
  | none => (thrown, .threw)

def apply (e : GameEngine) : EngineOp → Option (GameEngine × EngineOut)
  | .init roomId playerIds => (e.init roomId playerIds).map (·, .done)
  | .setPlayerReady playerId ready => some (e.setPlayerReady playerId ready, .done)
  | .updateConfig config => some (e.updateConfig config, .done)
  | .startGame σ =>
    some (answerDeal (e.startGame σ) (dealThrew { e with previousRound := {} } σ))
  | .startNextRound σ => some (answerDeal (e.startNextRound σ) (e.dealThrew σ))
  | .playCards playerId cards => (e.playCards playerId cards).map fun a => (a.1, .result a.2)
  | .pass playerId => (e.pass playerId).map fun a => (a.1, .result a.2)
  | .submitTribute playerId cardId =>
    (e.submitTribute playerId cardId).map fun a => (a.1, .result a.2)
  | .submitReturn playerId cardId => (e.submitReturn playerId cardId).map fun a => (a.1, .result a.2)
  | .finalizeTributePhase => e.finalizeTributePhase.map fun a => (a.1, .result a.2)
  | .buildViewFor viewerId anchor => (e.buildViewFor viewerId anchor).map fun v => (e, .view v)

end GameEngine

/-- The engine, called by its public methods. -/
def engine : Machine GameEngine EngineOp EngineOut := ⟨GameEngine.apply⟩

/-- An answered call, as a relation. -/
inductive Answers (e : GameEngine) : EngineOp → GameEngine → EngineOut → Prop
  | init {roomId : RoomId} {playerIds : List PlayerId} {e' : GameEngine} :
      e.init roomId playerIds = some e' → Answers e (.init roomId playerIds) e' .done
  | setPlayerReady (playerId : PlayerId) (ready : Bool) :
      Answers e (.setPlayerReady playerId ready) (e.setPlayerReady playerId ready) .done
  | updateConfig (config : GameRuleConfig) :
      Answers e (.updateConfig config) (e.updateConfig config) .done
  | startGame {σ : Shuffle} {e' : GameEngine} {r : PlayResult} :
      e.startGame σ = some (e', r) → Answers e (.startGame σ) e' (.result r)
  | startGameThrew (σ : Shuffle) : e.startGame σ = none →
      Answers e (.startGame σ) (GameEngine.dealThrew { e with previousRound := {} } σ) .threw
  | startNextRound {σ : Shuffle} {e' : GameEngine} {r : PlayResult} :
      e.startNextRound σ = some (e', r) → Answers e (.startNextRound σ) e' (.result r)
  | startNextRoundThrew (σ : Shuffle) : e.startNextRound σ = none →
      Answers e (.startNextRound σ) (e.dealThrew σ) .threw
  | playCards {id : PlayerId} {cards : List CardId} {e' : GameEngine} {r : PlayResult} :
      e.playCards id cards = some (e', r) → Answers e (.playCards id cards) e' (.result r)
  | pass {id : PlayerId} {e' : GameEngine} {r : PlayResult} :
      e.pass id = some (e', r) → Answers e (.pass id) e' (.result r)
  | submitTribute {id : PlayerId} {cardId : CardId} {e' : GameEngine} {r : PlayResult} :
      e.submitTribute id cardId = some (e', r) → Answers e (.submitTribute id cardId) e' (.result r)
  | submitReturn {id : PlayerId} {cardId : CardId} {e' : GameEngine} {r : PlayResult} :
      e.submitReturn id cardId = some (e', r) → Answers e (.submitReturn id cardId) e' (.result r)
  | finalizeTributePhase {e' : GameEngine} {r : PlayResult} :
      e.finalizeTributePhase = some (e', r) → Answers e .finalizeTributePhase e' (.result r)
  | buildViewFor {id : PlayerId} {anchor : Option Nat} {v : PlayerView} :
      e.buildViewFor id anchor = some v → Answers e (.buildViewFor id anchor) e (.view v)

theorem engine_step {e e' : GameEngine} {op : EngineOp} {out : EngineOut}
    (h : engine.step e op = some (e', out)) : Answers e op e' out := by
  change e.apply op = some (e', out) at h
  cases op with
  | init roomId playerIds =>
    simp only [GameEngine.apply, Option.map_eq_some_iff, Prod.mk.injEq] at h
    obtain ⟨e₁, hinit, rfl, rfl⟩ := h
    exact .init hinit
  | setPlayerReady id ready =>
    cases h
    exact .setPlayerReady id ready
  | updateConfig config =>
    cases h
    exact .updateConfig config
  | startGame σ =>
    rw [GameEngine.apply] at h
    rcases hstart : e.startGame σ with _ | ⟨e₁, r⟩ <;> rw [hstart] at h <;> cases h
    · exact .startGameThrew σ hstart
    · exact .startGame hstart
  | startNextRound σ =>
    rw [GameEngine.apply] at h
    rcases hstart : e.startNextRound σ with _ | ⟨e₁, r⟩ <;> rw [hstart] at h <;> cases h
    · exact .startNextRoundThrew σ hstart
    · exact .startNextRound hstart
  | playCards id cards =>
    simp only [GameEngine.apply, Option.map_eq_some_iff, Prod.mk.injEq, Prod.exists] at h
    obtain ⟨e₁, r, hplay, rfl, rfl⟩ := h
    exact .playCards hplay
  | pass id =>
    simp only [GameEngine.apply, Option.map_eq_some_iff, Prod.mk.injEq, Prod.exists] at h
    obtain ⟨e₁, r, hpass, rfl, rfl⟩ := h
    exact .pass hpass
  | submitTribute id cardId =>
    simp only [GameEngine.apply, Option.map_eq_some_iff, Prod.mk.injEq, Prod.exists] at h
    obtain ⟨e₁, r, hsubmit, rfl, rfl⟩ := h
    exact .submitTribute hsubmit
  | submitReturn id cardId =>
    simp only [GameEngine.apply, Option.map_eq_some_iff, Prod.mk.injEq, Prod.exists] at h
    obtain ⟨e₁, r, hsubmit, rfl, rfl⟩ := h
    exact .submitReturn hsubmit
  | finalizeTributePhase =>
    simp only [GameEngine.apply, Option.map_eq_some_iff, Prod.mk.injEq, Prod.exists] at h
    obtain ⟨e₁, r, hfin, rfl, rfl⟩ := h
    exact .finalizeTributePhase hfin
  | buildViewFor viewerId anchor =>
    simp only [GameEngine.apply, Option.map_eq_some_iff, Prod.mk.injEq] at h
    obtain ⟨v, hview, rfl, rfl⟩ := h
    exact .buildViewFor hview

/-! ### Admissible calls -/

/-- The rules are changed only to those of a mode. -/
def ModeOp (_ : GameEngine) : EngineOp → Prop
  | .updateConfig config => IsModeConfig config
  | _ => True

/-- Moreover the tribute phase is finalized only while it is on, as the room's callers do. -/
def CalledOp (e : GameEngine) : EngineOp → Prop
  | .updateConfig config => IsModeConfig config
  | .finalizeTributePhase => e.hasPendingTributeAction = true
  | _ => True

/-- Moreover the tribute phase is finalized only when nothing is pending any more. -/
def CompleteOp (e : GameEngine) : EngineOp → Prop
  | .updateConfig config => IsModeConfig config
  | .finalizeTributePhase => e.hasPendingTributeAction = true ∧
      e.tributeState.pendingTributers = [] ∧ e.tributeState.pendingReturnSeats = []
  | _ => True

theorem CompleteOp.called {e : GameEngine} {op : EngineOp} (h : CompleteOp e op) :
    CalledOp e op := by
  cases op with
  | finalizeTributePhase => exact h.1
  | _ => exact h

theorem CalledOp.mode {e : GameEngine} {op : EngineOp} (h : CalledOp e op) : ModeOp e op := by
  cases op with
  | updateConfig config => exact h
  | _ => trivial

namespace GameEngine

variable {e e' : GameEngine} {r : PlayResult} {id : PlayerId} {cards : List CardId} {cardId : CardId}
  {σ : Shuffle}

theorem seatOf_some {seat : Nat} (h : e.seatOf id = some seat) :
    seat < e.state.playerCount ∧ (e.state.players seat).id = id := by
  refine ⟨List.mem_range.1 (List.mem_of_find?_eq_some h), ?_⟩
  simpa using List.find?_some h

/-! ### Sitting down -/

/-- The engine with these players seated, waiting for them to be ready. -/
def seated (e : GameEngine) (roomId : RoomId) (playerIds : List PlayerId) : GameEngine :=
  { e with
    state :=
      { roomId := roomId
        playerCount := playerIds.length
        phase := .waiting
        allCards := createFullDeck e.config.deckCount
        players := seatPlayer playerIds } }

theorem init_eq_seated (e : GameEngine) (roomId : RoomId) {playerIds : List PlayerId}
    (hlen : playerIds.length ≤ kPlayerCount) :
    e.init roomId playerIds = some (e.seated roomId playerIds) := by
  rw [init, if_neg (by omega)]
  rfl

theorem step_init (e : GameEngine) (roomId : RoomId) {playerIds : List PlayerId}
    (hlen : playerIds.length ≤ kPlayerCount) :
    engine.step e (.init roomId playerIds) = some (e.seated roomId playerIds, .done) := by
  show (e.init roomId playerIds).map _ = _
  rw [init_eq_seated e roomId hlen]
  rfl

/-! ### Dealing -/

theorem dealRound_cases (h : e.dealRound σ = some e') :
    ∃ hands, e.dealtHands σ = some hands ∧ e' = { e with
      progress := e.progress.prepareNextRound
      state := { e.state with
        allCards := e.shuffled σ
        players := dealtPlayer e.state.playerCount hands e.state.players
        attackingTeam := e.progress.prepareNextRound.attackingTeam
        currentLevel := e.progress.prepareNextRound.currentRoundLevel
        isPassARound := e.progress.prepareNextRound.isPassARound
        round := e.state.round + 1
        lastPlayedCards := []
        lastPattern := .none
        lastPlayedPlayerIndex := none
        passCount := 0
        turnId := 1 } } := by
  unfold dealRound at h
  simp only [Option.bind_eq_bind, Option.bind_eq_some_iff, Option.pure_def, Option.some.injEq] at h
  obtain ⟨hands, hhands, rfl⟩ := h
  exact ⟨hands, hhands, rfl⟩

/-- How a round with tribute begins: with play from the head seat, or with the tributers asked. -/
theorem startTribute_cases (h : e.startTribute = some e') :
    ∃ plan, TributeManager.planRound e.state e.config e.previousRound = some plan ∧
      ((∃ result, (plan.skipped = true ∨ plan.antiTribute = true) ∧
        e' = beginPlayingFromDeal { e with tributeState := {}, lastTribute := result }
          plan.headSeat) ∨
      (plan.skipped = false ∧ plan.antiTribute = false ∧ e' = { e with
        tributeState := { active := true, plan := plan, pendingTributers := plan.tributerSeats }
        lastTribute := {}
        state := { e.state with phase := .tribute }.incrementStateVersion })) := by
  unfold startTribute at h
  simp only [Option.bind_eq_bind, Option.bind_eq_some_iff, Option.pure_def] at h
  obtain ⟨plan, hplan, h⟩ := h
  refine ⟨plan, hplan, ?_⟩
  split_ifs at h with hskip hanti
  · cases h
    exact .inl ⟨_, .inl hskip, rfl⟩
  · cases h
    exact .inl ⟨_, .inr hanti, rfl⟩
  · cases h
    exact .inr ⟨by simpa using hskip, by simpa using hanti, rfl⟩

theorem startGame_cases (h : e.startGame σ = some (e', r)) :
    (e' = e ∧ r.code ≠ .ok) ∨
    ((e.state.phase = .waiting ∨ e.state.phase = .ready) ∧ e.allReady = true ∧ r = {} ∧
      ∃ e₁, dealRound { e with previousRound := {} } σ = some e₁ ∧
        e' = beginPlayingFromDeal { e₁ with lastTribute := { skipped := true } } 0) := by
  unfold startGame at h
  split_ifs at h with hphase hready
  · cases h
    exact .inl ⟨rfl, by simp⟩
  · cases h
    exact .inl ⟨rfl, by simp⟩
  · right
    simp only [dealAndStartPlaying, Option.bind_eq_bind, Option.bind_eq_some_iff, Option.pure_def,
      Bool.false_eq_true, if_false, Option.some.injEq, Prod.mk.injEq] at h
    obtain ⟨e₁, hdeal, rfl, rfl⟩ := h
    exact ⟨by tauto, by simpa using hready, rfl, e₁, hdeal, rfl⟩

theorem startNextRound_cases (h : e.startNextRound σ = some (e', r)) :
    (e' = e ∧ r.code ≠ .ok) ∨
    (e.state.phase = .finished ∧ r = {} ∧
      ∃ e₁, e.dealRound σ = some e₁ ∧ e₁.startTribute = some e') := by
  unfold startNextRound at h
  split_ifs at h with hphase
  · cases h
    exact .inl ⟨rfl, by simp⟩
  · right
    simp only [dealAndStartPlaying, Option.bind_eq_bind, Option.bind_eq_some_iff, Option.pure_def,
      if_true, Option.some.injEq, Prod.mk.injEq] at h
    obtain ⟨e₁, hdeal, e₂, htribute, rfl, rfl⟩ := h
    exact ⟨by simpa using hphase, rfl, e₁, hdeal, htribute⟩

/-! ### Tribute and return -/

/-- The tribute phase ends: somebody is found to play first, and play begins. -/
theorem finishTributePhase_cases (h : e.finishTributePhaseAndStartPlay = some (e', r)) :
    r = {} ∧ ∃ first,
      TributeManager.computeFirstPlayerSeat e.lastTribute e.tributeState.plan.headSeat e.state
        e.ruleContext e.previousRound e.state.playerCount = some first ∧
      e' = beginPlayingFromDeal { e with
        lastTribute := { e.lastTribute with
          firstPlayerSeat := first
          headTributerSeat :=
            TributeManager.headTributer e.lastTribute.tributes e.tributeState.plan.headSeat }
        tributeState := {} } first := by
  unfold finishTributePhaseAndStartPlay at h
  simp only [Option.bind_eq_bind, Option.bind_eq_some_iff, Option.pure_def, Option.some.injEq,
    Prod.mk.injEq] at h
  obtain ⟨first, hfirst, rfl, rfl⟩ := h
  exact ⟨rfl, first, hfirst, rfl⟩

/-- The engine asking for the returns to these tributes. -/
def askReturns (e : GameEngine) (s : GameState) (result : TributeRoundResult) : GameEngine :=
  { e with
    lastTribute := result
    tributeState := { e.tributeState with
      pendingReturnSeats := result.tributes.map (·.toSeat)
      returnToTributer := returnMap result.tributes }
    state := { s with phase := .returnTribute }.incrementStateVersion }

theorem closeTributes_cases (h : e.closeTributes = some (e', r)) :
    ∃ s result, TributeManager.assignTributes e.state e.ruleContext e.tributeState.plan
        e.tributeState.tributeSubmissions { e.lastTribute with skipped := false, antiTribute := false }
        = some (s, result) ∧
      ((result.tributes = [] ∧ finishTributePhaseAndStartPlay { e with
          state := s
          lastTribute := { result with firstPlayerSeat := e.tributeState.plan.headSeat } }
          = some (e', r)) ∨
      (result.tributes ≠ [] ∧ r = {} ∧ e' = e.askReturns s result)) := by
  unfold closeTributes at h
  simp only [Option.bind_eq_bind, Option.bind_eq_some_iff, Prod.exists] at h
  obtain ⟨s, result, hassign, h⟩ := h
  refine ⟨s, result, hassign, ?_⟩
  split_ifs at h with hempty
  · exact .inl ⟨by simpa using hempty, h⟩
  · cases h
    exact .inr ⟨by simpa using hempty, rfl, rfl⟩

theorem submitTribute_cases (h : e.submitTribute id cardId = some (e', r)) :
    (e' = e ∧ r.code ≠ .ok) ∨
    ∃ seat, e.state.phase = .tribute ∧ e.tributeState.active = true ∧ e.seatOf id = some seat ∧
      seat ∈ e.tributeState.pendingTributers ∧
      TributeManager.isValidTributeSubmission seat cardId e.state e.ruleContext = some true ∧
      (((e.recordTribute seat cardId).tributeState.pendingTributers ≠ [] ∧
          e' = e.recordTribute seat cardId ∧ r = {}) ∨
        ((e.recordTribute seat cardId).tributeState.pendingTributers = [] ∧
          (e.recordTribute seat cardId).closeTributes = some (e', r))) := by
  unfold submitTribute at h
  split_ifs at h with hphase
  · cases h
    exact .inl ⟨rfl, by simp⟩
  · push Not at hphase
    rcases hseat : e.seatOf id with _ | seat <;> rw [hseat] at h <;> dsimp only at h
    · cases h
      exact .inl ⟨rfl, by simp⟩
    · by_cases hpending : seat ∈ e.tributeState.pendingTributers
      · rw [if_neg (not_not_intro hpending)] at h
        simp only [Option.bind_eq_bind, Option.bind_eq_some_iff] at h
        obtain ⟨valid, hvalid, h⟩ := h
        rcases valid with _ | _
        · cases h
          exact .inl ⟨rfl, by simp⟩
        · right
          refine ⟨seat, hphase.1, by simpa using hphase.2, rfl, hpending, hvalid, ?_⟩
          simp only [Bool.not_true, Bool.false_eq_true, if_false] at h
          by_cases hlast : (e.recordTribute seat cardId).tributeState.pendingTributers = []
          · rw [if_neg (by simp [hlast])] at h
            exact .inr ⟨hlast, h⟩
          · rw [if_pos (by simpa using hlast)] at h
            cases h
            exact .inl ⟨hlast, rfl, rfl⟩
      · rw [if_pos hpending] at h
        cases h
        exact .inl ⟨rfl, by simp⟩

theorem submitReturn_cases (h : e.submitReturn id cardId = some (e', r)) :
    (e' = e ∧ r.code ≠ .ok) ∨
    ∃ seat, e.state.phase = .returnTribute ∧ e.tributeState.active = true ∧
      e.seatOf id = some seat ∧ seat ∈ e.tributeState.pendingReturnSeats ∧
      TributeManager.isValidReturnSubmission seat cardId e.state e.ruleContext = some true ∧
      e' = e.recordReturn seat cardId ∧
      r = { tributeRoundComplete := e'.tributeState.pendingReturnSeats.isEmpty } := by
  unfold submitReturn at h
  split_ifs at h with hphase
  · cases h
    exact .inl ⟨rfl, by simp⟩
  · push Not at hphase
    rcases hseat : e.seatOf id with _ | seat <;> rw [hseat] at h <;> dsimp only at h
    · cases h
      exact .inl ⟨rfl, by simp⟩
    · by_cases hpending : seat ∈ e.tributeState.pendingReturnSeats
      · rw [if_neg (not_not_intro hpending)] at h
        simp only [Option.bind_eq_bind, Option.bind_eq_some_iff] at h
        obtain ⟨valid, hvalid, h⟩ := h
        rcases valid with _ | _
        · cases h
          exact .inl ⟨rfl, by simp⟩
        · cases h
          exact .inr ⟨seat, hphase.1, by simpa using hphase.2, rfl, hpending, hvalid, rfl, rfl⟩
      · rw [if_pos hpending] at h
        cases h
        exact .inl ⟨rfl, by simp⟩

/-! ### Playing -/

/-- What `playCards` has checked when it accepts the cards. -/
structure Playable (e : GameEngine) (id : PlayerId) (cards : List CardId) (seat : Nat)
    (pattern : CardPattern) : Prop where
  phase : e.state.phase = .playing
  seated : e.seatOf id = some seat
  turn : seat = e.state.currentPlayerIndex
  active : e.state.active seat = true
  holds : ∀ cardId ∈ cards, cardId ∈ (e.state.players seat).hand.cards
  recognised : ∃ objs, e.state.cardsFromIds cards = some objs ∧
    CardAnalyzer.analyze objs e.ruleContext = pattern
  valid : pattern.isValid = true
  beats : e.state.lastPattern.isValid = true →
    RuleEngine.canBeat pattern e.state.lastPattern e.ruleContext = true

theorem checkPlay_ok {seat : Nat} {pattern : CardPattern}
    (h : e.checkPlay id cards = some (.ok (seat, pattern))) : Playable e id cards seat pattern := by
  unfold checkPlay at h
  split_ifs at h with hphase
  · cases h
  rcases hseat : e.seatOf id with _ | seat' <;> rw [hseat] at h <;> dsimp only at h
  · cases h
  · split_ifs at h with hturn hfin hhand
    · cases h
    · cases h
    · cases h
    simp only [Option.bind_eq_bind, Option.bind_eq_some_iff] at h
    obtain ⟨objs, hobjs, h⟩ := h
    split_ifs at h with hvalid hbeat
    · cases h
    · cases h
    · cases h
      refine ⟨by simpa using hphase, hseat, by simpa using hturn, ?_, ?_, ⟨objs, hobjs, rfl⟩,
        by simpa using hvalid, fun hlast => ?_⟩
      · simpa [GameState.active] using hfin
      · simpa using hhand
      · simpa [hlast] using hbeat

theorem checkPlay_of_playable {seat : Nat} {pattern : CardPattern}
    (h : Playable e id cards seat pattern) : e.checkPlay id cards = some (.ok (seat, pattern)) := by
  obtain ⟨objs, hobjs, hpattern⟩ := h.recognised
  have hfin : (e.state.players seat).hasFinished = false := by
    simpa [GameState.active] using h.active
  have hhand : (e.state.players seat).hand.contains cards = true := by
    simpa using h.holds
  unfold checkPlay
  rw [if_neg (not_not_intro h.phase), h.seated]
  dsimp only
  rw [if_neg (not_not_intro h.turn), hfin, hhand, hobjs]
  simpa [hpattern, h.valid] using h.beats

theorem checkPlay_error {code : ErrorCode} (h : e.checkPlay id cards = some (.error code)) :
    code ≠ .ok := by
  unfold checkPlay at h
  split_ifs at h with hphase
  · cases h
    simp
  rcases hseat : e.seatOf id with _ | seat' <;> rw [hseat] at h <;> dsimp only at h
  · cases h
    simp
  · split_ifs at h with hturn hfin hhand
    · cases h
      simp
    · cases h
      simp
    · cases h
      simp
    · simp only [Option.bind_eq_bind, Option.bind_eq_some_iff] at h
      obtain ⟨objs, -, h⟩ := h
      split_ifs at h <;> cases h <;> simp

theorem passTurnOn_cases (h : e.passTurnOn = some (e', r)) :
    r = {} ∧ ∃ s, e.state.advanceTurn.skipFinishedPlayers = some s ∧ e' = { e with state := s } := by
  unfold passTurnOn at h
  simp only [Option.bind_eq_bind, Option.bind_eq_some_iff, Option.pure_def, Option.some.injEq,
    Prod.mk.injEq] at h
  obtain ⟨s, hs, rfl, rfl⟩ := h
  exact ⟨rfl, s, hs, rfl⟩

/-- The engine once the seat has gone out. -/
def goOut (e : GameEngine) (seat : Nat) : GameEngine :=
  { e with state := e.state.assignFinishRank seat }

/-- A play is refused, or it is accepted: then the turn goes on, the player going out if the hand
is empty, unless with this player a whole team is out. -/
theorem playCards_cases (h : e.playCards id cards = some (e', r)) :
    (e' = e ∧ r.code ≠ .ok ∧ ∀ seat pattern, ¬ Playable e id cards seat pattern) ∨
    ∃ seat pattern, Playable e id cards seat pattern ∧ r.code = .ok ∧
      ((((e.acceptPlay seat cards pattern).state.players seat).hand.cards ≠ [] ∧
          (e.acceptPlay seat cards pattern).passTurnOn = some (e', r)) ∨
        (((e.acceptPlay seat cards pattern).state.players seat).hand.cards = [] ∧
          ((e.acceptPlay seat cards pattern).goOut seat).state.checkTeamWin
            e.config.playersPerTeam = false ∧
          ((e.acceptPlay seat cards pattern).goOut seat).passTurnOn = some (e', r)) ∨
        (((e.acceptPlay seat cards pattern).state.players seat).hand.cards = [] ∧
          ((e.acceptPlay seat cards pattern).goOut seat).state.checkTeamWin
            e.config.playersPerTeam = true ∧
          ((e.acceptPlay seat cards pattern).goOut seat).finishRound = (e', r))) := by
  unfold playCards at h
  simp only [Option.bind_eq_bind, Option.bind_eq_some_iff] at h
  obtain ⟨checked, hcheck, h⟩ := h
  rcases checked with code | ⟨seat, pattern⟩ <;> dsimp only at h
  · cases h
    refine .inl ⟨rfl, checkPlay_error hcheck, fun seat pattern hplay => ?_⟩
    rw [checkPlay_of_playable hplay] at hcheck
    cases hcheck
  · right
    refine ⟨seat, pattern, checkPlay_ok hcheck, ?_⟩
    split_ifs at h with hempty hwin
    · rw [Option.pure_def, Option.some.injEq] at h
      refine ⟨?_, .inr (.inr ⟨by simpa using hempty, hwin, h⟩)⟩
      have hr := congrArg (fun answer => answer.2.code) h
      exact hr.symm
    · have hnot := eq_false_of_ne_true hwin
      refine ⟨?_, .inr (.inl ⟨by simpa using hempty, hnot, h⟩)⟩
      rw [(passTurnOn_cases h).1]
    · refine ⟨?_, .inl ⟨by simpa using hempty, h⟩⟩
      rw [(passTurnOn_cases h).1]

theorem pass_cases (h : e.pass id = some (e', r)) :
    (e' = e ∧ r.code ≠ .ok) ∨
    ∃ seat s, e.state.phase = .playing ∧ e.seatOf id = some seat ∧
      seat = e.state.currentPlayerIndex ∧ e.state.lastPattern.isValid = true ∧
      (e.acceptPass seat).skipFinishedPlayers = some s ∧ e' = { e with state := s } ∧ r = {} := by
  unfold pass at h
  by_cases hphase : e.state.phase = .playing
  swap
  · rw [if_pos hphase] at h
    cases h
    exact .inl ⟨rfl, by simp⟩
  rw [if_neg (not_not_intro hphase)] at h
  rcases hseat : e.seatOf id with _ | seat <;> rw [hseat] at h <;> dsimp only at h
  · cases h
    exact .inl ⟨rfl, by simp⟩
  · split_ifs at h with hturn hvalid
    · cases h
      exact .inl ⟨rfl, by simp⟩
    · cases h
      exact .inl ⟨rfl, by simp⟩
    · simp only [Option.bind_eq_bind, Option.bind_eq_some_iff, Option.pure_def, Option.some.injEq,
        Prod.mk.injEq] at h
      obtain ⟨s, hs, rfl, rfl⟩ := h
      exact .inr ⟨seat, s, hphase, rfl, by simpa using hturn, by simpa using hvalid, hs, rfl, rfl⟩

end GameEngine

end Guandan
