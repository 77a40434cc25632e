import Guandan.Engine.Seating

/-!
# The turn id within a round

No call but a deal sets the turn id back: an engine at play has come from the same round with a turn
id that is no smaller, or from its tribute phase (`TurnsOn`). An accepted play or pass raises it,
unless the round is over.
-/

namespace Guandan

open GameState GameEngine

/-- Tributes or returns are asked for. -/
def AtTribute (e : GameEngine) : Prop :=
  e.state.phase = .tribute ∨ e.state.phase = .returnTribute

/-- What the calls that deal no cards make of an engine. -/
structure TurnsOn (e e' : GameEngine) : Prop where
  playing : e'.state.phase = .playing →
    e.state.phase = .playing ∧ e.state.turnId ≤ e'.state.turnId ∨ AtTribute e
  tribute : AtTribute e' → AtTribute e

/-! ### The turns -/

namespace GameState

theorem skipFinished_turnId {fuel : Nat} {s s' : GameState} (h : skipFinished fuel s = some s') :
    s.turnId ≤ s'.turnId := by
  induction fuel generalizing s with
  | zero => cases h
  | succ fuel ih =>
    rw [skipFinished] at h
    split_ifs at h
    · have hstep : s.turnId + 1 ≤ s'.turnId := ih h
      omega
    · cases h
      exact Nat.le_refl _

end GameState

section Turns

variable {e e' : GameEngine} {r : PlayResult} {id : PlayerId} {cards : List CardId}
  {cardId : CardId}

theorem passTurnOn_turnId (h : e.passTurnOn = some (e', r)) : e.state.turnId < e'.state.turnId := by
  obtain ⟨-, s, hs, rfl⟩ := passTurnOn_cases h
  have hskip : e.state.turnId + 1 ≤ s.turnId := skipFinished_turnId hs
  exact hskip

theorem acceptPass_turnId (e : GameEngine) (seat : Nat) :
    (e.acceptPass seat).turnId = e.state.turnId + 1 := by
  unfold acceptPass
  dsimp only
  split
  · split_ifs
    · rfl
    · rfl
  · rfl

/-- After an accepted play the round is over or another turn has begun. -/
theorem playCards_turnId (h : e.playCards id cards = some (e', r)) (hcode : r.code = .ok) :
    e.state.phase = .playing ∧ (e'.state.phase = .playing ∧ e.state.turnId < e'.state.turnId ∨
      e'.state.phase = .finished) := by
  rcases playCards_cases h with ⟨-, hno, -⟩ | ⟨seat, pattern, hplay, -, hrest⟩
  · exact absurd hcode hno
  refine ⟨hplay.phase, ?_⟩
  rcases hrest with ⟨-, hturn⟩ | ⟨-, -, hturn⟩ | ⟨-, -, hfinish⟩
  · have hlt := passTurnOn_turnId hturn
    obtain ⟨i, turn, rfl⟩ := passTurnOn_frame hturn
    exact .inl ⟨hplay.phase, hlt⟩
  · have hlt := passTurnOn_turnId hturn
    obtain ⟨i, turn, rfl⟩ := passTurnOn_frame hturn
    exact .inl ⟨hplay.phase, hlt⟩
  · exact .inr (congrArg (fun answer => answer.1.state.phase) hfinish).symm

theorem pass_turnId (h : e.pass id = some (e', r)) (hcode : r.code = .ok) :
    e.state.phase = .playing ∧ e'.state.phase = .playing ∧
      e.state.turnId < e'.state.turnId := by
  have hphase := (pass_frame h).2.2.2.1
  rcases pass_cases h with ⟨-, hno⟩ | ⟨seat, s, hplaying, -, -, -, hs, rfl, -⟩
  · exact absurd hcode hno
  · refine ⟨hplaying, hphase.trans hplaying, ?_⟩
    have hskip := skipFinished_turnId hs
    rw [acceptPass_turnId] at hskip
    exact hskip

end Turns

/-! ### Calls that deal no cards -/

namespace TurnsOn

variable {e e' e'' : GameEngine} {r : PlayResult} {id : PlayerId} {cards : List CardId}
  {cardId : CardId}

theorem of_phase (hphase : e'.state.phase = e.state.phase)
    (hturn : e.state.turnId ≤ e'.state.turnId) : TurnsOn e e' := by
  refine ⟨fun hp => .inl ⟨hphase ▸ hp, hturn⟩, fun ht => ?_⟩
  unfold AtTribute at ht ⊢
  rwa [hphase] at ht

theorem refl (e : GameEngine) : TurnsOn e e := of_phase rfl (Nat.le_refl _)

theorem of_tribute (h : AtTribute e) : TurnsOn e e' := ⟨fun _ => .inr h, fun _ => h⟩

/-- The round is over, or has not begun. -/
theorem of_idle (hplaying : e'.state.phase ≠ .playing) (htribute : ¬ AtTribute e') : TurnsOn e e' :=
  ⟨fun hp => absurd hp hplaying, fun ht => absurd ht htribute⟩

theorem of_finished (h : e'.state.phase = .finished) : TurnsOn e e' := by
  refine of_idle (by simp [h]) ?_
  simp [AtTribute, h]

theorem trans (h : TurnsOn e e') (h' : TurnsOn e' e'') : TurnsOn e e'' := by
  refine ⟨fun hp => ?_, fun ht => h.tribute (h'.tribute ht)⟩
  rcases h'.playing hp with ⟨hp', hle'⟩ | ht'
  · rcases h.playing hp' with ⟨hp'', hle⟩ | ht
    · exact .inl ⟨hp'', hle.trans hle'⟩
    · exact .inr ht
  · exact .inr (h.tribute ht')

theorem setPlayerReady (e : GameEngine) (id : PlayerId) (ready : Bool) :
    TurnsOn e (e.setPlayerReady id ready) := by
  unfold GameEngine.setPlayerReady
  rcases e.state.getPlayerById id with _ | seat
  · exact refl e
  · exact of_phase rfl (Nat.le_refl _)

theorem updateConfig (e : GameEngine) (config : GameRuleConfig) :
    TurnsOn e (e.updateConfig config) := by
  unfold GameEngine.updateConfig
  split_ifs
  · exact refl e
  · exact of_phase rfl (Nat.le_refl _)

theorem playCards (h : e.playCards id cards = some (e', r)) : TurnsOn e e' := by
  by_cases hcode : r.code = .ok
  · obtain ⟨hplaying, ⟨hplaying', hlt⟩ | hover⟩ := playCards_turnId h hcode
    · exact of_phase (hplaying'.trans hplaying.symm) hlt.le
    · exact of_finished hover
  · rcases playCards_cases h with ⟨rfl, -⟩ | ⟨seat, pattern, -, hok, -⟩
    · exact refl e'
    · exact absurd hok hcode

theorem pass (h : e.pass id = some (e', r)) : TurnsOn e e' := by
  by_cases hcode : r.code = .ok
  · obtain ⟨hplaying, hplaying', hlt⟩ := pass_turnId h hcode
    exact of_phase (hplaying'.trans hplaying.symm) hlt.le
  · rcases pass_cases h with ⟨rfl, -⟩ | ⟨seat, s, -, -, -, -, -, -, rfl⟩
    · exact refl e'
    · exact absurd rfl hcode

theorem submitTribute (h : e.submitTribute id cardId = some (e', r)) : TurnsOn e e' := by
  rcases submitTribute_cases h with ⟨rfl, -⟩ | ⟨seat, hphase, -⟩
  · exact refl e'
  · exact of_tribute (.inl hphase)

theorem submitReturn (h : e.submitReturn id cardId = some (e', r)) : TurnsOn e e' := by
  rcases submitReturn_cases h with ⟨rfl, -⟩ | ⟨seat, hphase, -⟩
  · exact refl e'
  · exact of_tribute (.inr hphase)

end TurnsOn

end Guandan
