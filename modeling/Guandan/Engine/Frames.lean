import Guandan.Engine.Deal

/-!
# What an operation leaves alone

`SameSeats` relates two states with the same people, teams and hands on the same seats: all that the
turn, the trick and the ranks do not touch. A play changes one hand and then keeps the seats, a pass
keeps them, and a tribute or return moves cards between hands.
-/

namespace Guandan

namespace GameState

structure SameSeats (s s' : GameState) : Prop where
  playerCount : s'.playerCount = s.playerCount
  allCards : s'.allCards = s.allCards
  players : ∀ i, (s'.players i).unranked = (s.players i).unranked

namespace SameSeats

variable {s s' s'' : GameState}

theorem refl (s : GameState) : SameSeats s s := ⟨rfl, rfl, fun _ => rfl⟩

theorem trans (h : SameSeats s s') (h' : SameSeats s' s'') : SameSeats s s'' :=
  ⟨h'.playerCount.trans h.playerCount, h'.allCards.trans h.allCards,
    fun i => (h'.players i).trans (h.players i)⟩

theorem hands (h : SameSeats s s') : s'.hands = s.hands := by
  funext i
  rw [GameState.hands, GameState.hands, (PlayerState.unranked_eq (h.players i)).1]

theorem handBag (h : SameSeats s s') : s'.handBag = s.handBag := by
  rw [GameState.handBag, GameState.handBag, h.hands, h.playerCount]

end SameSeats

theorem sameSeats_assignFinishRank (s : GameState) (seat : Nat) :
    SameSeats s (s.assignFinishRank seat) :=
  ⟨rfl, rfl, unranked_assignFinishRank s seat⟩

theorem assignRemaining_frame (s : GameState) :
    ∃ players, s.assignRemainingFinishRanks = { s with players := players } := by
  unfold assignRemainingFinishRanks
  split
  · exact ⟨s.players, rfl⟩
  · exact ⟨_, rfl⟩

theorem sameSeats_assignRemaining (s : GameState) : SameSeats s s.assignRemainingFinishRanks := by
  obtain ⟨players, hs⟩ := assignRemaining_frame s
  exact ⟨by rw [hs], by rw [hs], unranked_assignRemaining s⟩

/-- Skipping moves the turn and counts it. -/
theorem skipFinished_frame {fuel : Nat} {s s' : GameState} (h : skipFinished fuel s = some s') :
    ∃ seat turn, s' = { s with currentPlayerIndex := seat, turnId := turn } := by
  induction fuel generalizing s with
  | zero => cases h
  | succ fuel ih =>
    rw [skipFinished] at h
    split_ifs at h
    · obtain ⟨seat, turn, rfl⟩ := ih h
      exact ⟨seat, turn, rfl⟩
    · cases h
      exact ⟨_, _, rfl⟩

theorem skipFinishedPlayers_frame {s s' : GameState} (h : s.skipFinishedPlayers = some s') :
    ∃ seat turn, s' = { s with currentPlayerIndex := seat, turnId := turn } :=
  skipFinished_frame h

end GameState

namespace GameEngine

open GameState

variable {e e' : GameEngine} {r : PlayResult} {id : PlayerId} {cards : List CardId}
  {cardId : CardId} {seat : Nat}

/-- The rules and the record of the last round stay. -/
structure SameRules (e e' : GameEngine) : Prop where
  config : e'.config = e.config
  previousRound : e'.previousRound = e.previousRound

/-- Being ready or not changes neither hands nor the course of the round. -/
theorem setPlayerReady_frame (e : GameEngine) (id : PlayerId) (ready : Bool) :
    (e.setPlayerReady id ready).state.hands = e.state.hands ∧
      (e.setPlayerReady id ready).state.playerCount = e.state.playerCount ∧
      (e.setPlayerReady id ready).state.phase = e.state.phase ∧
      (e.setPlayerReady id ready).config = e.config ∧
      (e.setPlayerReady id ready).tributeState = e.tributeState ∧
      (e.setPlayerReady id ready).lastTribute = e.lastTribute := by
  unfold setPlayerReady
  rcases e.state.getPlayerById id with _ | seat
  · exact ⟨rfl, rfl, rfl, rfl, rfl, rfl⟩
  · refine ⟨?_, rfl, rfl, rfl, rfl, rfl⟩
    funext i
    by_cases hi : i = seat
    · subst hi
      simp [GameState.hands]
    · simp [GameState.hands, hi]

/-! ### Plays and passes -/

theorem passTurnOn_frame (h : e.passTurnOn = some (e', r)) :
    ∃ seat turn,
      e' = { e with state := { e.state with currentPlayerIndex := seat, turnId := turn } } := by
  obtain ⟨-, s, hs, rfl⟩ := passTurnOn_cases h
  obtain ⟨seat, turn, rfl⟩ := skipFinishedPlayers_frame hs
  exact ⟨seat, turn, rfl⟩

theorem finishRound_frame (e : GameEngine) :
    SameSeats e.state e.finishRound.1.state ∧ e.finishRound.1.config = e.config ∧
      e.finishRound.1.tributeState = e.tributeState ∧
      e.finishRound.1.state.phase = .finished := by
  have hsame := sameSeats_assignRemaining e.state
  exact ⟨⟨hsame.playerCount, hsame.allCards, hsame.players⟩, rfl, rfl, rfl⟩

/-- What an accepted play changes besides the hand, the trick, the turn and the ranks. -/
structure PlayFrame (e e' : GameEngine) (seat : Nat) (cards : List CardId)
    (pattern : CardPattern) : Prop where
  seats : SameSeats (e.acceptPlay seat cards pattern).state e'.state
  config : e'.config = e.config
  tributeState : e'.tributeState = e.tributeState
  phase : e'.state.phase = .playing ∨ e'.state.phase = .finished

theorem playCards_frame (h : e.playCards id cards = some (e', r)) :
    (e' = e ∧ r.code ≠ .ok ∧ ∀ seat pattern, ¬ Playable e id cards seat pattern) ∨
    ∃ seat pattern, Playable e id cards seat pattern ∧ r.code = .ok ∧
      PlayFrame e e' seat cards pattern := by
  rcases playCards_cases h with hno | ⟨seat, pattern, hplay, hok, hrest⟩
  · exact .inl hno
  refine .inr ⟨seat, pattern, hplay, hok, ?_⟩
  have hout := sameSeats_assignFinishRank (e.acceptPlay seat cards pattern).state seat
  rcases hrest with ⟨-, hturn⟩ | ⟨-, -, hturn⟩ | ⟨-, -, hfinish⟩
  · obtain ⟨i, turn, rfl⟩ := passTurnOn_frame hturn
    exact ⟨⟨rfl, rfl, fun _ => rfl⟩, rfl, rfl, .inl hplay.phase⟩
  · obtain ⟨i, turn, rfl⟩ := passTurnOn_frame hturn
    exact ⟨⟨rfl, rfl, hout.players⟩, rfl, rfl, .inl hplay.phase⟩
  · have he' : ((e.acceptPlay seat cards pattern).goOut seat).finishRound.1 = e' := by
      rw [hfinish]
    obtain ⟨hsame, hconfig, htribute, hphase⟩ :=
      finishRound_frame ((e.acceptPlay seat cards pattern).goOut seat)
    rw [he'] at hsame hconfig htribute hphase
    exact ⟨hout.trans hsame, hconfig, htribute, .inr hphase⟩

/-- The hand of the seat is what `Hand.remove` makes of it; no other hand changes. -/
theorem hands_acceptPlay (e : GameEngine) (seat : Nat) (cards : List CardId)
    (pattern : CardPattern) : (e.acceptPlay seat cards pattern).state.hands =
      Function.update e.state.hands seat ((e.state.players seat).hand.remove cards).1.cards := by
  have hset := congrArg GameState.hands
    (setHand_eq_withHands e.state seat ((e.state.players seat).hand.remove cards).1)
  exact hset

/-- An accepted pass changes the trick, the turn and the version only. -/
theorem acceptPass_eq (e : GameEngine) (seat : Nat) :
    ∃ cards pattern last count current turn, e.acceptPass seat = { e.state with
      lastPlayedCards := cards
      lastPattern := pattern
      lastPlayedPlayerIndex := last
      passCount := count
      currentPlayerIndex := current
      turnId := turn
      stateVersion := e.state.stateVersion + 1 } := by
  unfold acceptPass
  dsimp only
  split
  · split_ifs
    · exact ⟨_, _, _, _, _, _, rfl⟩
    · exact ⟨_, _, _, _, _, _, rfl⟩
  · exact ⟨_, _, _, _, _, _, rfl⟩

theorem acceptPass_frame (e : GameEngine) (seat : Nat) :
    (e.acceptPass seat).players = e.state.players ∧
      (e.acceptPass seat).playerCount = e.state.playerCount ∧
      (e.acceptPass seat).allCards = e.state.allCards ∧
      (e.acceptPass seat).phase = e.state.phase := by
  obtain ⟨cards, pattern, last, count, current, turn, heq⟩ := acceptPass_eq e seat
  rw [heq]
  exact ⟨rfl, rfl, rfl, rfl⟩

theorem pass_eq (h : e.pass id = some (e', r)) : (e' = e ∧ r.code ≠ .ok) ∨
    (r = {} ∧ ∃ cards pattern last count current turn, e' = { e with state := { e.state with
      lastPlayedCards := cards
      lastPattern := pattern
      lastPlayedPlayerIndex := last
      passCount := count
      currentPlayerIndex := current
      turnId := turn
      stateVersion := e.state.stateVersion + 1 } }) := by
  rcases pass_cases h with hno | ⟨seat, s, -, -, -, -, hs, rfl, hr⟩
  · exact .inl hno
  · obtain ⟨i, turn, rfl⟩ := skipFinishedPlayers_frame hs
    obtain ⟨cards, pattern, last, count, current, turn', heq⟩ := acceptPass_eq e seat
    refine .inr ⟨hr, cards, pattern, last, count, i, turn, ?_⟩
    rw [heq]

/-- What a pass leaves alone: all but the trick and the turn. -/
theorem pass_frame (h : e.pass id = some (e', r)) :
    e'.state.players = e.state.players ∧ e'.state.playerCount = e.state.playerCount ∧
      e'.state.allCards = e.state.allCards ∧ e'.state.phase = e.state.phase ∧
      e'.config = e.config ∧ e'.tributeState = e.tributeState ∧
      e'.previousRound = e.previousRound := by
  rcases pass_eq h with ⟨rfl, -⟩ | ⟨-, cards, pattern, last, count, current, turn, rfl⟩
  · exact ⟨rfl, rfl, rfl, rfl, rfl, rfl, rfl⟩
  · exact ⟨rfl, rfl, rfl, rfl, rfl, rfl, rfl⟩

/-! ### Tributes and returns -/

/-- The play that follows the tribute phase begins with the hands as they are. -/
theorem finishTributePhase_frame (h : e.finishTributePhaseAndStartPlay = some (e', r)) :
    SameSeats e.state e'.state ∧ SameRules e e' ∧ e'.state.players = e.state.players ∧
      e'.state.phase = .playing := by
  obtain ⟨-, first, -, rfl⟩ := finishTributePhase_cases h
  exact ⟨⟨rfl, rfl, fun _ => rfl⟩, ⟨rfl, rfl⟩, rfl, rfl⟩

/-- The last tribute moves the assigned cards; returns are asked for, or play begins if nothing was
given. -/
theorem closeTributes_frame (h : e.closeTributes = some (e', r)) :
    ∃ s result, TributeManager.assignTributes e.state e.ruleContext e.tributeState.plan
        e.tributeState.tributeSubmissions
        { e.lastTribute with skipped := false, antiTribute := false } = some (s, result) ∧
      SameSeats (e.state.withHands (moveAll result.tributes e.state.hands)) e'.state ∧
      SameRules e e' ∧
      e'.state.players = (e.state.withHands (moveAll result.tributes e.state.hands)).players ∧
      ((result.tributes = [] ∧ e'.state.phase = .playing) ∨
        (result.tributes ≠ [] ∧ e' = e.askReturns s result)) := by
  obtain ⟨s, result, hassign, hrest⟩ := closeTributes_cases h
  obtain ⟨-, -, hs, -⟩ := TributeManager.assignTributes_cases hassign
  refine ⟨s, result, hassign, ?_⟩
  rcases hrest with ⟨hnone, hfinish⟩ | ⟨hsome, -, rfl⟩
  · obtain ⟨hsame, hrules, hplayers, hphase⟩ := finishTributePhase_frame hfinish
    rw [← hs]
    exact ⟨hsame, ⟨hrules.config, hrules.previousRound⟩, hplayers, .inl ⟨hnone, hphase⟩⟩
  · rw [← hs]
    exact ⟨⟨rfl, rfl, fun _ => rfl⟩, ⟨rfl, rfl⟩, rfl, .inr ⟨hsome, rfl⟩⟩

theorem recordReturn_state (e : GameEngine) (seat : Nat) (cardId : CardId) :
    (e.recordReturn seat cardId).state = (e.state.withHands (moveHeld e.state.hands seat
      ((e.tributeState.returnToTributer seat).getD 0) cardId)).incrementStateVersion := by
  show (TributeManager.transferCard e.state seat _ cardId).incrementStateVersion = _
  rw [TributeManager.transferCard_eq_withHands]

end GameEngine

end Guandan
