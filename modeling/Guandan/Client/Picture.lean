import Guandan.Client.GameController
import Guandan.Library.Replica

/-!
# What messages do to the client's picture

Of the hand, the turn and the phase the client shows, each message says what becomes of it
(`handAfter`, `turnAfter`, `phaseAfter`), whatever else the client has: for the turn always, for the
phase as far as play is concerned, and for the hand as long as the client watches nobody and its room
is not between two rounds. A tap takes cards from the hand and may begin play, and does no more.
-/

namespace Guandan

open Replica

namespace ServerMessage

/-- The client has a new picture, or none any more. -/
def renews : ServerMessage → Bool
  | .gameSnapshot _ | .cardsDealt _ | .tributePhaseUpdated _ | .settlement .. | .gameOver
  | .roomDismissed => true
  | _ => false

def deals : ServerMessage → Bool
  | .cardsDealt _ => true
  | _ => false

/-- Nothing about the game. -/
def silent : ServerMessage → Bool
  | .gameStarted | .roomCreated | .roomJoined .. | .roomState .. | .loginResult _ | .error _
  | .other _ => true
  | _ => false

/-- The room is between two rounds from then on. -/
def endsRound : ServerMessage → Bool
  | .roomJoined roomPhase _ | .roomState roomPhase _ | .loginResult (some roomPhase) =>
    roomPhase == .settlement
  | .settlement matchWon _ => !matchWon
  | _ => false

/-- The message shows the hand of its reader, or reports a turn, or is not about the game. -/
def isOwn : ServerMessage → Bool
  | .gameSnapshot view | .cardsDealt view | .tributePhaseUpdated view => !view.isSpectating
  | .spectateUpdate _ | .spectateChanged _ | .settlement .. | .gameOver | .roomDismissed => false
  | _ => true

end ServerMessage

namespace Client

def turnAfter (turn : Nat × Int) : ServerMessage → Nat × Int
  | .gameSnapshot view | .cardsDealt view | .tributePhaseUpdated view | .spectateUpdate view
  | .spectateChanged view => (view.turnId, seatNumber view.currentPlayerIndex)
  | .playerPlayed _ _ _ nextPlayer turnId | .playerPassed _ _ nextPlayer turnId =>
    (turnId, nextPlayer)
  | .roomDismissed => (0, 0)
  | _ => turn

def phaseAfter (phase : GamePhase) : ServerMessage → GamePhase
  | .gameSnapshot view | .cardsDealt view | .tributePhaseUpdated view => view.phase
  | .playerPlayed .. => .playing
  | .settlement matchWon _ => if matchWon then .settlement else .roundEnd
  | .gameOver => .finished
  | .roomDismissed => .waiting
  | _ => phase

/-- Of a hand that the messages are about. -/
def handAfter (userId : PlayerId) (hand : List CardId) : ServerMessage → List CardId
  | .gameSnapshot view | .cardsDealt view | .tributePhaseUpdated view => view.myCards
  | .playerPlayed playerId cards _ _ _ =>
    if playerId = userId then hand.filter (!cards.contains ·) else hand
  | _ => hand

/-- Whether the room may be between two rounds. -/
def betweenAfter (between : Bool) (m : ServerMessage) : Bool := m.endsRound || (!m.deals && between)

def turn (c : Client) : Nat × Int := (c.game.turnId, c.game.currentPlayerIndex)

/-- The room of the client is between two rounds. -/
def BetweenRounds (c : Client) : Prop := c.room.map (·.phase) = some .roundEnd

/-! ### Messages -/

section Messages

/-- What is not about the game changes nothing of it. -/
theorem silent_spec {m : ServerMessage} (h : m.silent = true) :
    m.renews = false ∧ m.isOwn = true ∧ m.deals = false ∧
      (∀ userId hand, handAfter userId hand m = hand) ∧ (∀ turn, turnAfter turn m = turn) ∧
      ∀ phase, phaseAfter phase m = phase := by
  cases m with
  | gameStarted | roomCreated | roomJoined | roomState | loginResult | error | other =>
    exact ⟨rfl, rfl, rfl, fun _ _ => rfl, fun _ => rfl, fun _ => rfl⟩
  | _ => cases h

@[simp] theorem handIds_fromSnapshot (view : PlayerView) :
    (ClientGameState.fromSnapshot view).handIds = view.myCards := by
  simp [ClientGameState.fromSnapshot, ClientGameState.handIds, cardsFromIds, Function.comp_def]

/-- Selecting a card changes nothing else. -/
theorem applyDealtSnapshot_frame (s : ClientGameState) :
    (applyDealtSnapshot s).handIds = s.handIds ∧ (applyDealtSnapshot s).phase = s.phase ∧
      (applyDealtSnapshot s).turnId = s.turnId ∧
      (applyDealtSnapshot s).currentPlayerIndex = s.currentPlayerIndex ∧
      (applyDealtSnapshot s).isSpectating = s.isSpectating := by
  unfold applyDealtSnapshot
  split_ifs
  · refine ⟨?_, rfl, rfl, rfl, rfl⟩
    simp [ClientGameState.handIds, Function.comp_def]
  · exact ⟨rfl, rfl, rfl, rfl, rfl⟩

variable {c : Client} {m : ServerMessage}

/-- A pass is about the trick and the turn. -/
theorem applyPlayerPassed_frame (s : ClientGameState) (roundReset : Bool) (nextPlayer turnId : Nat) :
    (applyPlayerPassed s roundReset nextPlayer turnId).handIds = s.handIds ∧
      (applyPlayerPassed s roundReset nextPlayer turnId).phase = s.phase ∧
      (applyPlayerPassed s roundReset nextPlayer turnId).isSpectating = s.isSpectating := by
  unfold applyPlayerPassed
  dsimp only
  split_ifs <;> exact ⟨rfl, rfl, rfl⟩

/-- Who watches nobody loses the cards of its own plays. -/
theorem applyPlayerPlayed_handIds (hsight : c.game.isSpectating = false) (playerId : PlayerId)
    (cards : List CardId) (hasFinished : Bool) (nextPlayer turnId : Nat) :
    (c.applyPlayerPlayed playerId cards hasFinished nextPlayer turnId).handIds =
      if playerId = c.userId then c.game.handIds.filter (!cards.contains ·) else c.game.handIds := by
  by_cases hown : playerId = c.userId
  · simp [applyPlayerPlayed, hsight, hown, ClientGameState.handIds, ClientGameState.without,
      List.filter_map, Function.comp_def]
  · simp [applyPlayerPlayed, hsight, hown, ClientGameState.handIds]

/-- The room's listener leaves the game alone. -/
theorem handleMessage_frame (c : Client) (m : ServerMessage) :
    (c.handleMessage m).game = c.game ∧ (c.handleMessage m).userId = c.userId := by
  unfold handleMessage
  split <;> exact ⟨rfl, rfl⟩

@[simp] theorem receive_userId (c : Client) (m : ServerMessage) :
    (c.receive m).userId = c.userId := by
  refine Eq.trans ?_ (handleMessage_frame c m).2
  unfold receive handleGameMessage setRoomPhase
  cases m with
  | settlement matchWon finishRanks => cases matchWon <;> rfl
  | _ => rfl

theorem turn_receive (c : Client) (m : ServerMessage) :
    (c.receive m).turn = turnAfter c.turn m := by
  have hgame := (handleMessage_frame c m).1
  unfold receive handleGameMessage turn
  cases m with
  | gameSnapshot view =>
    obtain ⟨-, -, hturn, hcurrent, -⟩ := applyDealtSnapshot_frame (.fromSnapshot view)
    show ((applyGameSnapshot _ view).turnId, (applyGameSnapshot _ view).currentPlayerIndex) = _
    unfold applyGameSnapshot
    dsimp only
    split_ifs <;> exact Prod.ext hturn hcurrent
  | cardsDealt view =>
    obtain ⟨-, -, hturn, hcurrent, -⟩ := applyDealtSnapshot_frame (resetTrick (.fromSnapshot view))
    exact Prod.ext hturn hcurrent
  | tributePhaseUpdated view =>
    obtain ⟨-, -, hturn, hcurrent, -⟩ := applyDealtSnapshot_frame (.fromSnapshot view)
    exact Prod.ext hturn hcurrent
  | playerPassed playerId roundReset nextPlayer turnId => rfl
  | settlement matchWon finishRanks =>
    cases matchWon <;> simp [applySettlement, resetTrick, setRoomPhase, turnAfter, hgame]
  | spectateUpdate view | spectateChanged view | playerPlayed playerId cards hasFinished nextPlayer turnId
  | roomDismissed => rfl
  | gameOver | gameStarted | roomCreated | roomJoined | roomState | loginResult | error | other =>
    simp only [hgame, turnAfter]

/-- Who takes the game to be in play has been told so. -/
theorem phase_receive (h : (c.receive m).game.phase = .playing) :
    phaseAfter c.game.phase m = .playing := by
  have hgame := (handleMessage_frame c m).1
  unfold receive handleGameMessage at h
  cases m with
  | gameSnapshot view =>
    have hphase := (applyDealtSnapshot_frame (.fromSnapshot view)).2.1
    change (applyGameSnapshot _ view).phase = _ at h
    unfold applyGameSnapshot at h
    dsimp only at h
    split_ifs at h
    exact hphase.symm.trans h
  | cardsDealt view =>
    exact (applyDealtSnapshot_frame (resetTrick (.fromSnapshot view))).2.1.symm.trans h
  | tributePhaseUpdated view => exact (applyDealtSnapshot_frame (.fromSnapshot view)).2.1.symm.trans h
  | settlement matchWon finishRanks => cases matchWon <;> cases h
  | playerPlayed playerId cards hasFinished nextPlayer turnId => rfl
  | playerPassed playerId roundReset nextPlayer turnId =>
    exact hgame ▸ (applyPlayerPassed_frame _ roundReset nextPlayer turnId).2.1.symm.trans h
  | gameOver | roomDismissed => cases h
  | spectateUpdate | spectateChanged | gameStarted | roomCreated | roomJoined | roomState | loginResult
  | error | other => exact hgame ▸ h

theorem phaseAfter_mono {p p' : GamePhase} (hp : p = .playing → p' = .playing) (m : ServerMessage)
    (h : phaseAfter p m = .playing) : phaseAfter p' m = .playing := by
  cases m <;> first | exact h | exact hp h

/-- Who watches nobody is shown nobody else's hand. -/
theorem sight_receive (hown : m.isOwn = true) (h : m.renews = false → c.game.isSpectating = false) :
    (c.receive m).game.isSpectating = false := by
  have hgame := (handleMessage_frame c m).1
  unfold receive handleGameMessage
  cases m with
  | gameSnapshot view =>
    have hsight := (applyDealtSnapshot_frame (.fromSnapshot view)).2.2.2.2
    show (applyGameSnapshot _ view).isSpectating = _
    unfold applyGameSnapshot
    dsimp only
    split_ifs <;> exact hsight.trans (Bool.not_eq_true' _ ▸ hown)
  | cardsDealt view =>
    exact (applyDealtSnapshot_frame (resetTrick (.fromSnapshot view))).2.2.2.2.trans
      (Bool.not_eq_true' _ ▸ hown)
  | tributePhaseUpdated view =>
    exact (applyDealtSnapshot_frame (.fromSnapshot view)).2.2.2.2.trans (Bool.not_eq_true' _ ▸ hown)
  | spectateUpdate | spectateChanged | settlement | gameOver | roomDismissed => cases hown
  | playerPlayed playerId cards hasFinished nextPlayer turnId =>
    exact (congrArg (·.isSpectating) hgame).trans (h rfl)
  | playerPassed playerId roundReset nextPlayer turnId =>
    exact (applyPlayerPassed_frame _ roundReset nextPlayer turnId).2.2.trans
      ((congrArg (·.isSpectating) hgame).trans (h rfl))
  | gameStarted | roomCreated | roomJoined | roomState | loginResult | error | other =>
    exact (congrArg (·.isSpectating) hgame).trans (h rfl)

/-- No snapshot brings the room to its next round. -/
theorem betweenRounds_receive (h : (c.receive m).BetweenRounds) :
    m.endsRound = true ∨ m.deals = false ∧ c.BetweenRounds := by
  unfold BetweenRounds receive at h
  cases m with
  | cardsDealt | tributePhaseUpdated =>
    rcases hroom : c.room with _ | room <;>
      simp [handleMessage, handleGameMessage, setRoomPhase, hroom] at h
  | settlement matchWon finishRanks =>
    cases matchWon
    · exact .inl rfl
    · exact .inr ⟨rfl, h⟩
  | roomJoined roomPhase players | roomState roomPhase players =>
    refine .inl ?_
    cases roomPhase <;> first | rfl | cases h
  | loginResult roomPhase =>
    rcases roomPhase with _ | roomPhase
    · exact .inr ⟨rfl, h⟩
    · refine .inl ?_
      cases roomPhase <;> first | rfl | cases h
  | roomCreated | gameStarted | roomDismissed => cases h
  | gameSnapshot | spectateUpdate | spectateChanged | playerPlayed | playerPassed | gameOver | error
  | other => exact .inr ⟨rfl, h⟩

theorem between_receive {between : Bool} (hbetween : c.BetweenRounds → between = true)
    (h : (c.receive m).BetweenRounds) : betweenAfter between m = true := by
  rcases betweenRounds_receive h with hends | ⟨hdeals, hbefore⟩
  · simp [betweenAfter, hends]
  · simp [betweenAfter, hdeals, hbetween hbefore]

theorem hand_receive (hown : m.isOwn = true) (hsight : m.renews = false → c.game.isSpectating = false)
    (hroom : m.renews = true → m.deals = false → ¬ c.BetweenRounds) :
    (c.receive m).game.handIds = handAfter c.userId c.game.handIds m := by
  obtain ⟨hgame, huser⟩ := handleMessage_frame c m
  unfold receive handleGameMessage
  cases m with
  | gameSnapshot view =>
    show (applyGameSnapshot _ view).handIds = _
    rw [applyGameSnapshot, if_neg (by exact hroom rfl rfl)]
    exact (applyDealtSnapshot_frame _).1.trans (handIds_fromSnapshot view)
  | cardsDealt view =>
    exact (applyDealtSnapshot_frame (resetTrick (.fromSnapshot view))).1.trans (handIds_fromSnapshot view)
  | tributePhaseUpdated view =>
    exact (applyDealtSnapshot_frame (.fromSnapshot view)).1.trans (handIds_fromSnapshot view)
  | spectateUpdate | spectateChanged | settlement | gameOver | roomDismissed => cases hown
  | playerPlayed playerId cards hasFinished nextPlayer turnId =>
    have hsight := (congrArg (·.isSpectating) hgame).trans (hsight rfl)
    refine (applyPlayerPlayed_handIds hsight playerId cards hasFinished nextPlayer turnId).trans ?_
    rw [huser, hgame]
    rfl
  | playerPassed playerId roundReset nextPlayer turnId =>
    exact (applyPlayerPassed_frame _ roundReset nextPlayer turnId).1.trans
      (congrArg ClientGameState.handIds hgame)
  | gameStarted | roomCreated | roomJoined | roomState | loginResult | error | other =>
    exact congrArg ClientGameState.handIds hgame

/-- A new hand leaves nothing of the old one. -/
theorem handAfter_renewed {userId : PlayerId} (hown : m.isOwn = true) (hrenews : m.renews = true)
    (hand hand' : List CardId) : handAfter userId hand m = handAfter userId hand' m := by
  cases m with
  | gameSnapshot | cardsDealt | tributePhaseUpdated => rfl
  | settlement | gameOver | roomDismissed => cases hown
  | _ => cases hrenews

/-- Once a new hand has come the hand is what it and the others say. -/
theorem hand_deliver_congr {userId : PlayerId} {ms : List ServerMessage}
    (hown : AtLast ServerMessage.renews (·.isOwn = true) ms) (hms : ¬ Quiet ServerMessage.renews ms)
    (hand hand' : List CardId) :
    deliver (handAfter userId) hand ms = deliver (handAfter userId) hand' ms :=
  deliver_congr_of_not_quiet (hown.mono fun _ hm hrenews => handAfter_renewed hm hrenews) hms hand hand'

/-- Cards that were missing before the messages are missing after them unless a new hand has come. -/
theorem mem_hand_deliver {userId : PlayerId} {hand taken : List CardId} {ms : List ServerMessage}
    (hown : AtLast ServerMessage.renews (·.isOwn = true) ms) (id : CardId) :
    id ∈ deliver (handAfter userId) (hand.filter (!taken.contains ·)) ms ↔
      id ∈ deliver (handAfter userId) hand ms ∧ (Quiet ServerMessage.renews ms → id ∉ taken) := by
  by_cases hquiet : Quiet ServerMessage.renews ms
  · have hrel : ∀ id, id ∈ deliver (handAfter userId) (hand.filter (!taken.contains ·)) ms ↔
        id ∈ deliver (handAfter userId) hand ms ∧ id ∉ taken := by
      refine deliver_rel
        (R := fun hand' hand : List CardId => ∀ id, id ∈ hand' ↔ id ∈ hand ∧ id ∉ taken)
        (by simp) fun hand' hand hR m hm id => ?_
      have hm' := hown.of_quiet hquiet m hm
      have hrenews := hquiet m hm
      cases m with
      | playerPlayed playerId cards hasFinished nextPlayer turnId =>
        simp only [handAfter]
        split_ifs
        · simp only [List.mem_filter, hR id]
          tauto
        · exact hR id
      | gameSnapshot | cardsDealt | tributePhaseUpdated | settlement | gameOver | roomDismissed =>
        cases hrenews
      | spectateUpdate | spectateChanged => cases hm'
      | _ => exact hR id
    simpa [hquiet] using hrel id
  · rw [hand_deliver_congr hown hquiet _ hand]
    exact ⟨fun h => ⟨h, fun h' => absurd h' hquiet⟩, And.left⟩

/-- A room that is not between two rounds once all messages have arrived has had a deal, or was not between
two rounds before. -/
theorem between_of_quiet {between : Bool} {ms : List ServerMessage}
    (hquiet : Quiet ServerMessage.renews ms) (h : deliver betweenAfter between ms = false) :
    between = false := by
  by_contra hbetween
  have hkept : deliver betweenAfter between ms = true :=
    deliver_keeps (P := (· = true)) (eq_true_of_ne_false hbetween) fun b hb m hm => by
      have hdeals : m.deals = false := by
        have hrenews := hquiet m hm
        cases m with
        | cardsDealt => cases hrenews
        | _ => rfl
      simp [betweenAfter, hdeals, hb]
  rw [h] at hkept
  cases hkept

/-- A message that is read again says nothing new. -/
theorem handAfter_again (userId : PlayerId) (hand : List CardId) (m : ServerMessage) :
    handAfter userId (handAfter userId hand m) m = handAfter userId hand m := by
  cases m with
  | playerPlayed playerId cards hasFinished nextPlayer turnId =>
    simp only [handAfter]
    split_ifs
    · simp
    · rfl
  | _ => rfl

theorem turnAfter_again (turn : Nat × Int) (m : ServerMessage) :
    turnAfter (turnAfter turn m) m = turnAfter turn m := by
  cases m <;> rfl

theorem phaseAfter_again (phase : GamePhase) (m : ServerMessage) :
    phaseAfter (phaseAfter phase m) m = phaseAfter phase m := by
  cases m <;> rfl

theorem betweenAfter_again (between : Bool) (m : ServerMessage) :
    betweenAfter (betweenAfter between m) m = betweenAfter between m := by
  unfold betweenAfter
  cases m.endsRound <;> cases m.deals <;> simp

theorem phase_deliver_mono {p p' : GamePhase} (hp : p = .playing → p' = .playing)
    {ms : List ServerMessage} (h : deliver phaseAfter p ms = .playing) :
    deliver phaseAfter p' ms = .playing :=
  deliver_rel (R := fun p p' : GamePhase => p = .playing → p' = .playing) hp
    (fun _ _ hR m _ => phaseAfter_mono hR m) h

end Messages

/-! ### Taps -/

/-- The cards that a request takes from the hand. -/
def Request.takes : Request → List CardId
  | .playCards cards _ => cards
  | .submitTribute cardId | .submitReturn cardId => [cardId]
  | _ => []

def Request.isPlay : Request → Bool
  | .playCards .. => true
  | _ => false

/-- What a tap does, if it is `request` that it sends. -/
structure Tapped (c c' : Client) (request : Option Request) : Prop where
  userId : c'.userId = c.userId
  hand : c'.game.handIds =
    c.game.handIds.filter fun id => !((request.map (·.takes)).getD []).contains id
  turn : c'.turn = c.turn
  sight : c'.game.isSpectating = c.game.isSpectating
  phase : c'.game.phase = .playing →
    c.game.phase = .playing ∨ ∃ r ∈ request, r.isPlay = true
  room : c'.BetweenRounds → c.BetweenRounds

theorem Tapped.refl (c : Client) : Tapped c c none where
  userId := rfl
  hand := by simp
  turn := rfl
  sight := rfl
  phase := .inl
  room := id

theorem handIds_without (s : ClientGameState) (cards : List CardId) :
    (s.without cards).map (·.id) = s.handIds.filter (!cards.contains ·) := by
  simp [ClientGameState.without, ClientGameState.handIds, List.filter_map, Function.comp_def]

theorem tapped (validate : List CardId → Nat → Option (List CardId) → Bool) (c : Client) (t : Tap) :
    Tapped c (c.tap validate t).1 (c.tap validate t).2 := by
  cases t with
  | playCards cards =>
    simp only [tap, playCards]
    split_ifs <;> first
      | exact .refl c
      | exact ⟨rfl, handIds_without c.game cards, rfl, rfl, fun _ => .inr ⟨_, rfl, rfl⟩, id⟩
  | pass => exact ⟨rfl, (Tapped.refl c).hand, rfl, rfl, .inl, id⟩
  | submitTribute =>
    simp only [tap, submitTribute]
    split_ifs
    · exact .refl c
    · exact ⟨rfl, handIds_without c.game _, rfl, rfl, .inl, id⟩
  | submitReturn =>
    simp only [tap, submitReturn]
    split
    · split_ifs
      · exact ⟨rfl, handIds_without c.game _, rfl, rfl, .inl, id⟩
      · exact .refl c
    · exact .refl c
  | select cards =>
    refine ⟨rfl, ?_, rfl, rfl, .inl, id⟩
    simp [tap, ClientGameState.handIds, Function.comp_def]
  | send request =>
    simp only [tap]
    split_ifs with hplain
    · refine ⟨rfl, ?_, rfl, rfl, .inl, id⟩
      cases request <;> first | exact (Tapped.refl c).hand | cases hplain
    · exact .refl c
  | forgetRoom => exact ⟨rfl, (Tapped.refl c).hand, rfl, rfl, .inl, fun h => by cases h⟩

end Client

end Guandan
