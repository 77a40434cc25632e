import Guandan.Game.GameState
import Mathlib.Data.List.Sort

/-!
# Ranks, settlement and progress over the rounds

`finish_rank.cpp`, `settlement.cpp` and `team_progress.cpp`, with the two rank functions of
`game_engine.cpp`. A team that may be absent (-1 in the source) is an `Option`.
-/

namespace Guandan

def kLevelA : Nat := 14
def kPassAFailLimit : Nat := 3

namespace GameState

/-- The next rank is one more than the number of finished players in the array. -/
def assignFinishRank (s : GameState) (playerIndex : Nat) : GameState :=
  let rank := 1 + (List.range kPlayerCount).countP fun i => (s.players i).hasFinished
  s.setPlayer playerIndex { s.players playerIndex with hasFinished := true, finishRank := rank }

/-- Some team has `playersPerTeam` finished players. -/
def checkTeamWin (s : GameState) (playersPerTeam : Nat) : Bool :=
  ([0, 1] : List Team).any fun team =>
    playersPerTeam ≤ (List.range kPlayerCount).countP fun i =>
      (s.players i).team == team && (s.players i).hasFinished

/-- The finished player with the greatest rank, and that rank. -/
def lastFinished (s : GameState) : Option Nat × Nat :=
  (List.range s.playerCount).foldl (fun acc i =>
    if (s.players i).hasFinished && acc.2 < (s.players i).finishRank then
      (some i, (s.players i).finishRank)
    else acc) (none, 0)

/-- The loop of `assignRemainingFinishRanks`: players, next rank and seat. -/
structure RankWalk where
  players : Nat → PlayerState
  nextRank : Nat
  seat : Nat

def rankStep (playerCount : Nat) (w : RankWalk) : RankWalk :=
  if playerCount < w.nextRank then w
  else
    let player := w.players w.seat
    let seat := (w.seat + 1) % playerCount
    if player.hasFinished then { w with seat := seat }
    else
      { players := Function.update w.players w.seat
          { player with hasFinished := true, finishRank := w.nextRank }
        nextRank := w.nextRank + 1
        seat := seat }

def assignRemainingFinishRanks (s : GameState) : GameState :=
  match s.lastFinished with
  | (none, _) => s
  | (some last, maxRank) =>
    let walk : RankWalk := ⟨s.players, maxRank + 1, (last + 1) % s.playerCount⟩
    { s with players := ((rankStep s.playerCount)^[s.playerCount] walk).players }

end GameState

/-! ### `Settlement` -/

structure SettlementResult where
  winningTeam : Option Team := none
  levelUpgrade : Int := 0
  newLevel : Nat := 0
  teamLevels : Team → Nat := fun _ => 2
  inPassAPhase : Team → Bool := fun _ => false
  passAFailCounts : Team → Nat := fun _ => 0
  attackingTeam : Team := 0
  isPassARound : Bool := false
  passATeam : Option Team := none
  passASuccess : Bool := false
  matchWon : Bool := false
  enteredPassAPhase : Bool := false
  passAFailCount : Nat := 0
  passAFailReset : Bool := false
  ranks : List Nat := []
  playerIds : List PlayerId := []
  deriving DecidableEq

namespace Settlement

def findRank (s : GameState) (rank : Nat) : Option Nat :=
  (List.range s.playerCount).find? fun i => (s.players i).finishRank == rank

/-- The sum of the `count` best ranks of the team. -/
def sumWinningTeamRanks (s : GameState) (team : Team) (count : Nat) : Nat :=
  let ranks := ((List.range s.playerCount).filter fun i =>
    (s.players i).team == team && 0 < (s.players i).finishRank).map fun i => (s.players i).finishRank
  ((ranks.insertionSort (· ≤ ·)).take count).sum

def calculate (s : GameState) (playersPerTeam : Nat) : SettlementResult :=
  let result : SettlementResult :=
    { ranks := (List.range s.playerCount).map fun i => (s.players i).finishRank
      playerIds := (List.range s.playerCount).map fun i => (s.players i).id }
  match findRank s 1 with
  | none => result
  | some headIdx =>
    let winningTeam := (s.players headIdx).team
    let rankCount := if 3 ≤ playersPerTeam then 2 else playersPerTeam
    let rankSum := sumWinningTeamRanks s winningTeam rankCount
    let base : Int := if 3 ≤ playersPerTeam then 10 else 6
    { result with winningTeam := some winningTeam, levelUpgrade := base - rankSum }

end Settlement

/-! ### `TeamProgress` -/

structure TeamProgress where
  levels : Team → Nat := fun _ => 2
  inPassAPhase : Team → Bool := fun _ => false
  passAFailCounts : Team → Nat := fun _ => 0
  attackingTeam : Team := 0
  lastWinningTeam : Option Team := none
  deriving DecidableEq

namespace TeamProgress

def currentRoundLevel (t : TeamProgress) : Nat := t.levels t.attackingTeam

def isPassARound (t : TeamProgress) : Bool :=
  t.inPassAPhase t.attackingTeam && kLevelA ≤ t.levels t.attackingTeam

def isPlayingOwnRound (t : TeamProgress) (team : Team) : Bool := team == t.attackingTeam

/-- The last winner attacks; before the first settlement the attacker stays. -/
def prepareNextRound (t : TeamProgress) : TeamProgress :=
  match t.lastWinningTeam with
  | some team => { t with attackingTeam := team }
  | none => t

/-- The settlement's last lines: the winner attacks next, and the result shows the progress. -/
def closeSettlement (t : TeamProgress) (winningTeam : Team) (result : SettlementResult) :
    TeamProgress × SettlementResult :=
  let t := { t with lastWinningTeam := some winningTeam, attackingTeam := winningTeam }
  (t, { result with
    teamLevels := t.levels
    inPassAPhase := t.inPassAPhase
    passAFailCounts := t.passAFailCounts
    attackingTeam := t.attackingTeam })

def applySettlement (t : TeamProgress) (result : SettlementResult) :
    TeamProgress × SettlementResult :=
  let result := { result with
    teamLevels := t.levels
    inPassAPhase := t.inPassAPhase
    passAFailCounts := t.passAFailCounts
    attackingTeam := t.attackingTeam }
  match result.winningTeam with
  | none => (t, result)
  | some winningTeam =>
    let passARound := t.isPassARound
    let result := { result with isPassARound := passARound }
    if passARound then
      let passTeam := t.attackingTeam
      let success := winningTeam == passTeam && 0 < result.levelUpgrade
      let result := { result with passATeam := some passTeam, passASuccess := success }
      if success then
        closeSettlement t winningTeam
          { result with matchWon := true, newLevel := t.levels passTeam }
      else
        let fails := t.passAFailCounts passTeam + 1
        let result := { result with passAFailCount := fails }
        let t := { t with passAFailCounts := Function.update t.passAFailCounts passTeam fails }
        if kPassAFailLimit ≤ fails then
          let t := { t with
            levels := Function.update t.levels passTeam 2
            inPassAPhase := Function.update t.inPassAPhase passTeam false
            passAFailCounts := Function.update t.passAFailCounts passTeam 0 }
          closeSettlement t winningTeam
            { result with passAFailReset := true, newLevel := t.levels passTeam }
        else closeSettlement t winningTeam { result with newLevel := t.levels passTeam }
    else if 0 < result.levelUpgrade then
      let upgraded := t.levels winningTeam + result.levelUpgrade.toNat
      if !t.inPassAPhase winningTeam && kLevelA ≤ upgraded then
        let t := { t with
          inPassAPhase := Function.update t.inPassAPhase winningTeam true
          levels := Function.update t.levels winningTeam kLevelA }
        closeSettlement t winningTeam
          { result with enteredPassAPhase := true, newLevel := kLevelA }
      else
        let level := min kLevelA upgraded
        let t := { t with levels := Function.update t.levels winningTeam level }
        closeSettlement t winningTeam { result with newLevel := level }
    else closeSettlement t winningTeam result

/-! ### What a settlement can do -/

/-- What a settled round makes of the progress, by who attacked and who won. -/
inductive Outcome (t : TeamProgress) (w : Team) (gain : Nat) : TeamProgress → Prop
  | matchWon : t.isPassARound = true → w = t.attackingTeam → Outcome t w gain t
  | failed : t.isPassARound = true → w ≠ t.attackingTeam →
      t.passAFailCounts t.attackingTeam + 1 < kPassAFailLimit →
      Outcome t w gain { t with
        passAFailCounts := Function.update t.passAFailCounts t.attackingTeam
          (t.passAFailCounts t.attackingTeam + 1) }
  | reset : t.isPassARound = true → w ≠ t.attackingTeam →
      kPassAFailLimit ≤ t.passAFailCounts t.attackingTeam + 1 →
      Outcome t w gain { t with
        levels := Function.update t.levels t.attackingTeam 2
        inPassAPhase := Function.update t.inPassAPhase t.attackingTeam false
        passAFailCounts := Function.update t.passAFailCounts t.attackingTeam 0 }
  | enters : t.isPassARound = false → t.inPassAPhase w = false → kLevelA ≤ t.levels w + gain →
      Outcome t w gain { t with
        inPassAPhase := Function.update t.inPassAPhase w true
        levels := Function.update t.levels w kLevelA }
  | climbs : t.isPassARound = false → (t.inPassAPhase w = true ∨ t.levels w + gain < kLevelA) →
      Outcome t w gain { t with
        levels := Function.update t.levels w (min kLevelA (t.levels w + gain)) }

theorem applySettlement_cases {t t' : TeamProgress} {result result' : SettlementResult} {w : Team}
    (hwin : result.winningTeam = some w) (hup : 0 < result.levelUpgrade)
    (h : t.applySettlement result = (t', result')) :
    (∃ t₁, Outcome t w result.levelUpgrade.toNat t₁ ∧
      t' = { t₁ with lastWinningTeam := some w, attackingTeam := w }) ∧
    result'.winningTeam = some w ∧ result'.levelUpgrade = result.levelUpgrade ∧
    (result'.matchWon = true ↔
      result.matchWon = true ∨ t.isPassARound = true ∧ w = t.attackingTeam) := by
  unfold applySettlement at h
  dsimp only [closeSettlement] at h
  rw [hwin] at h
  dsimp only at h
  by_cases hpass : t.isPassARound = true
  · rw [if_pos hpass] at h
    by_cases hw : w = t.attackingTeam
    · rw [if_pos (by simp [hw, hup])] at h
      cases h
      exact ⟨⟨_, .matchWon hpass hw, rfl⟩, rfl, rfl, by simp [hpass, hw]⟩
    · rw [if_neg (by simp [hw])] at h
      by_cases hlimit : kPassAFailLimit ≤ t.passAFailCounts t.attackingTeam + 1
      · rw [if_pos hlimit] at h
        cases h
        exact ⟨⟨_, .reset hpass hw hlimit, by simp⟩, rfl, rfl, by simp [hw]⟩
      · rw [if_neg hlimit] at h
        cases h
        exact ⟨⟨_, .failed hpass hw (by omega), rfl⟩, rfl, rfl, by simp [hw]⟩
  · rw [if_neg hpass, if_pos hup] at h
    have hno := eq_false_of_ne_true hpass
    by_cases henter : (!t.inPassAPhase w && decide (kLevelA ≤ t.levels w +
        result.levelUpgrade.toNat)) = true
    · rw [if_pos henter] at h
      cases h
      simp only [Bool.and_eq_true, Bool.not_eq_true', decide_eq_true_eq] at henter
      exact ⟨⟨_, .enters hno henter.1 henter.2, rfl⟩, rfl, rfl, by simp [hno]⟩
    · rw [if_neg henter] at h
      cases h
      refine ⟨⟨_, .climbs hno ?_, rfl⟩, rfl, rfl, by simp [hno]⟩
      by_cases hin : t.inPassAPhase w = true
      · exact .inl hin
      · simp only [hin, Bool.not_false, Bool.true_and, decide_eq_true_eq] at henter
        omega
end TeamProgress

end Guandan
