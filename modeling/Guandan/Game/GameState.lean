import Guandan.Game.CardAnalyzer
import Guandan.Library.Cyclic

/-!
# The state of a table and whose turn it is

`game_state.h`, `game_state.cpp` and `turn_manager.cpp`. The array of six players is a function of
the seat; a loop over the whole array runs over the seats below `kPlayerCount`. A seat that may be
absent (-1 in the source) is an `Option`. `getCardById` throws (`none`) for an unknown id.
-/

namespace Guandan

structure PlayerState where
  id : PlayerId := 0
  seatIndex : Nat := 0
  team : Team := 0
  hand : Hand := {}
  status : PlayerStatus := .online
  isReady : Bool := false
  hasFinished : Bool := false
  finishRank : Nat := 0
  deriving DecidableEq, Repr

structure GameState where
  roomId : RoomId := ""
  phase : GamePhase := .waiting
  players : Nat → PlayerState := fun _ => {}
  playerCount : Nat := 0
  currentPlayerIndex : Nat := 0
  currentLevel : Nat := 2
  attackingTeam : Team := 0
  isPassARound : Bool := false
  firstPlayerIndex : Nat := 0
  lastPlayedCards : List CardId := []
  lastPattern : CardPattern := {}
  lastPlayedPlayerIndex : Option Nat := none
  passCount : Nat := 0
  turnId : Nat := 0
  stateVersion : Nat := 0
  round : Nat := 0
  allCards : List Card := []

namespace GameState

def getCardById (s : GameState) (id : CardId) : Option Card := s.allCards.find? (·.id == id)

/-- The seat of the first player with this id, among all six of the array. -/
def getPlayerById (s : GameState) (id : PlayerId) : Option Nat :=
  (List.range kPlayerCount).find? fun i => (s.players i).id == id

/-- The cards behind a list of ids. -/
def cardsFromIds (s : GameState) (ids : List CardId) : Option (List Card) :=
  ids.mapM s.getCardById

def setPlayer (s : GameState) (seat : Nat) (p : PlayerState) : GameState :=
  { s with players := Function.update s.players seat p }

def setHand (s : GameState) (seat : Nat) (hand : Hand) : GameState :=
  s.setPlayer seat { s.players seat with hand := hand }

def incrementStateVersion (s : GameState) : GameState :=
  { s with stateVersion := s.stateVersion + 1 }

/-- The seats that still play. -/
def active (s : GameState) (seat : Nat) : Bool := !(s.players seat).hasFinished

end GameState

/-! ### `TurnManager` -/

namespace GameState

def nextActivePlayer (s : GameState) (fromIndex : Nat) : Nat :=
  (Cyclic.next? s.playerCount s.active fromIndex).getD fromIndex

def advanceTurn (s : GameState) : GameState :=
  { s with
    currentPlayerIndex := s.nextActivePlayer s.currentPlayerIndex
    turnId := s.turnId + 1 }

/-- The first unfinished teammate after a leader who is out. -/
def windPartnerSeat (s : GameState) (finishedLeaderSeat : Nat) : Nat :=
  if s.playerCount ≤ finishedLeaderSeat then s.nextActivePlayer s.currentPlayerIndex
  else
    let team := (s.players finishedLeaderSeat).team
    let partner := fun seat => s.active seat && (s.players seat).team == team
    (Cyclic.next? s.playerCount partner finishedLeaderSeat).getD
      (s.nextActivePlayer finishedLeaderSeat)

def resolveRoundLeadSeat (s : GameState) (trickWinnerSeat : Nat) : Nat :=
  if (s.players trickWinnerSeat).hasFinished then s.windPartnerSeat trickWinnerSeat
  else trickWinnerSeat

def resetRound (s : GameState) (winnerIndex : Nat) : GameState :=
  let s := { s with
    lastPlayedCards := []
    lastPattern := .none
    lastPlayedPlayerIndex := none
    passCount := 0 }
  { s with
    currentPlayerIndex := s.resolveRoundLeadSeat winnerIndex
    turnId := s.turnId + 1 }

def allOthersPassed (s : GameState) : Bool :=
  let responders := (List.range s.playerCount).countP fun i =>
    s.active i && some i != s.lastPlayedPlayerIndex
  0 < responders && responders ≤ s.passCount

def shouldResetRoundAfterPass (s : GameState) (seatIndex : Nat) : Bool :=
  match s.lastPlayedPlayerIndex with
  | none => false
  | some leader => s.nextActivePlayer seatIndex == leader

/-- The loop `while (players[current].hasFinished) advanceTurn()`; `none` if it does not end. -/
def skipFinished : Nat → GameState → Option GameState
  | 0, _ => none
  | fuel + 1, s =>
    if (s.players s.currentPlayerIndex).hasFinished then skipFinished fuel s.advanceTurn else some s

/-- The loop, with fuel enough for one round of the table. -/
def skipFinishedPlayers (s : GameState) : Option GameState := skipFinished (s.playerCount + 1) s

/-! ### Small lemmas -/

@[simp] theorem setPlayer_players (s : GameState) (seat : Nat) (p : PlayerState) :
    (s.setPlayer seat p).players = Function.update s.players seat p := rfl

@[simp] theorem setHand_players (s : GameState) (seat : Nat) (hand : Hand) :
    (s.setHand seat hand).players =
      Function.update s.players seat { s.players seat with hand := hand } := rfl

@[simp] theorem setPlayer_playerCount (s : GameState) (seat : Nat) (p : PlayerState) :
    (s.setPlayer seat p).playerCount = s.playerCount := rfl

@[simp] theorem setHand_playerCount (s : GameState) (seat : Nat) (hand : Hand) :
    (s.setHand seat hand).playerCount = s.playerCount := rfl

@[simp] theorem setHand_allCards (s : GameState) (seat : Nat) (hand : Hand) :
    (s.setHand seat hand).allCards = s.allCards := rfl

@[simp] theorem setHand_phase (s : GameState) (seat : Nat) (hand : Hand) :
    (s.setHand seat hand).phase = s.phase := rfl

theorem nextActivePlayer_lt {s : GameState} {i : Nat} (hi : i < s.playerCount) :
    s.nextActivePlayer i < s.playerCount := by
  unfold nextActivePlayer
  rcases h : Cyclic.next? s.playerCount s.active i with _ | j
  · simpa using hi
  · simpa using Cyclic.next?_lt (by omega) h

theorem nextActivePlayer_active {s : GameState} {i j : Nat} (hi : i < s.playerCount)
    (hj : j < s.playerCount) (hact : s.active j = true) :
    s.active (s.nextActivePlayer i) = true := by
  unfold nextActivePlayer
  obtain ⟨k, hk⟩ := Option.isSome_iff_exists.1 (Cyclic.next?_isSome hi hj hact)
  rw [hk]
  exact Cyclic.next?_sat hk

theorem skipFinished_of_active {s : GameState} {fuel : Nat}
    (h : s.active s.currentPlayerIndex = true) : skipFinished (fuel + 1) s = some s := by
  have hf : (s.players s.currentPlayerIndex).hasFinished = false := by simpa [active] using h
  simp [skipFinished, hf]

/-- Where the current player has not finished there is nothing to skip. -/
theorem skipFinishedPlayers_of_active {s : GameState}
    (h : s.active s.currentPlayerIndex = true) : s.skipFinishedPlayers = some s :=
  skipFinished_of_active h

theorem skipFinished_finished {s : GameState} (h : ∀ i < s.playerCount, s.active i = false)
    (hc : s.currentPlayerIndex < s.playerCount) (fuel : Nat) : skipFinished fuel s = none := by
  induction fuel generalizing s with
  | zero => rfl
  | succ fuel ih =>
    have hf : (s.players s.currentPlayerIndex).hasFinished = true := by
      simpa [active] using h _ hc
    rw [skipFinished, if_pos hf]
    exact ih (s := s.advanceTurn) h (nextActivePlayer_lt hc)

/-- The fuel is no bound of its own: the loop fails to end exactly when nobody is left to play. -/
theorem skipFinishedPlayers_eq_none {s : GameState} (hc : s.currentPlayerIndex < s.playerCount) :
    s.skipFinishedPlayers = none ↔ ∀ i < s.playerCount, s.active i = false := by
  constructor
  · intro h i hi
    by_contra hact
    have hact' : s.active i = true := by simpa using hact
    unfold skipFinishedPlayers at h
    obtain ⟨m, hm⟩ : ∃ m, s.playerCount = m + 1 := ⟨s.playerCount - 1, by omega⟩
    rw [hm] at h
    by_cases hf : (s.players s.currentPlayerIndex).hasFinished = true
    · have hnext : s.advanceTurn.active s.advanceTurn.currentPlayerIndex = true :=
        nextActivePlayer_active hc hi hact'
      rw [skipFinished, if_pos hf, skipFinished_of_active hnext] at h
      cases h
    · rw [skipFinished, if_neg hf] at h
      cases h
  · exact fun h => skipFinished_finished h hc _

end GameState

end Guandan
