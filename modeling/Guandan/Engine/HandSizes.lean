import Guandan.Engine.Course

/-!
# The sizes of hands

A round deals at most 27 cards to a seat. A recipient has one more while it has a return to make, and
from then on hands only shrink.
-/

namespace Guandan

open GameState GameEngine

variable {e e' : GameEngine} {log : RoundLog} {r : PlayResult} {id : PlayerId} {cards : List CardId}
  {op : EngineOp} {out : EngineOut}

theorem handSize_le {config : GameRuleConfig} (h : IsModeConfig config) :
    Deck.handSize (54 * config.deckCount) config.playerCount (cardsPerPlayer config) ≤ 27 := by
  obtain ⟨mode, enabled, rfl⟩ := h
  unfold RoomConfig.fromModeName
  split_ifs <;> simp [toGameRuleConfig, cardsPerPlayer, kSoloTestCardsPerPlayer, Deck.handSize]

/-- Everybody has been dealt as many cards, 27 at most. -/
theorem SeatingInv.dealt_le (h : SeatingInv e log) (hphase : e.state.phase ≠ .waiting) :
    ∃ k ≤ 27, ∀ i < e.state.playerCount, (log.hands i).length = k := by
  have hst := h.started hphase
  refine ⟨_, handSize_le h.mode, fun i hi => ?_⟩
  have hi' : i < log.dealt.length := hst.dealt ▸ hi
  rw [RoundLog.hands, List.getD_eq_getElem?_getD, List.getElem?_eq_getElem hi', Option.getD_some,
    hst.size _ (List.getElem_mem hi'), hst.full]

/-- In play, and once it is over, nobody has more cards than were dealt. -/
def HandsFit (e : GameEngine) : Prop :=
  e.state.phase = .playing ∨ e.state.phase = .finished →
    ∀ i < e.state.playerCount, (e.state.hands i).length ≤ 27

theorem Hand.length_remove_le (hand : Hand) (cards : List CardId) :
    (hand.remove cards).1.cards.length ≤ hand.cards.length := by
  unfold Hand.remove
  rcases h : Hand.removeFrom hand.cards cards with _ | rest
  · exact Nat.le_refl _
  · have hlen := (Hand.removeFrom_perm h).length_eq
    rw [List.length_append] at hlen
    show rest.length ≤ _
    omega

/-- The phase and the hands are as before, or not those of play. -/
theorem HandsFit.congr (h : HandsFit e) (hphase : e'.state.phase = e.state.phase)
    (hcount : e'.state.playerCount = e.state.playerCount) (hhands : e'.state.hands = e.state.hands) :
    HandsFit e' := by
  unfold HandsFit
  rw [hphase, hcount, hhands]
  exact h

theorem HandsFit.playCards (h : HandsFit e) (hplay : e.playCards id cards = some (e', r)) :
    HandsFit e' := by
  rcases playCards_frame hplay with ⟨rfl, -⟩ | ⟨seat, pattern, hok, -, hframe⟩
  · exact h
  intro _ i hi
  rw [hframe.seats.playerCount] at hi
  have hle := h (.inl hok.phase) i hi
  rw [hframe.seats.hands, hands_acceptPlay]
  by_cases heq : i = seat
  · subst heq
    rw [Function.update_self]
    exact (Hand.length_remove_le _ _).trans hle
  · rw [Function.update_of_ne heq]
    exact hle

/-- A call after which no round is in play or over. -/
theorem HandsFit.of_phase (phase : GamePhase) (h : e.state.phase = phase) (h1 : phase ≠ .playing)
    (h2 : phase ≠ .finished) : HandsFit e := by
  subst h
  exact fun h => (h.elim h1 h2).elim

theorem HandsFit.step {passes : List Nat} (h : HandsFit e) (hfacts : EngineFacts e log passes)
    (hok : CompleteOp e op) (hstep : engine.step e op = some (e', out)) : HandsFit e' := by
  have hround' := hfacts.round.step hok.called hstep
  by_cases hbegin : e.state.phase ≠ .playing ∧ e'.state.phase = .playing
  · -- play begins with the hands as full as they were dealt
    obtain ⟨k, hk, hdealt⟩ := hround'.seating.dealt_le (by simp [hbegin.2])
    have hfull := (hfacts.round.playBegins hfacts.phase hok hstep hbegin.1 hbegin.2).2 hdealt
    exact fun _ i hi => (hfull.1 i hi).le.trans hk
  cases engine_step hstep with
  | init hinit =>
    unfold GameEngine.init at hinit
    split_ifs at hinit
    cases hinit
    exact .of_phase .waiting rfl (by decide) (by decide)
  | setPlayerReady id ready =>
    obtain ⟨hhands, hcount, hphase, -⟩ := setPlayerReady_frame e id ready
    exact h.congr hphase hcount hhands
  | updateConfig config =>
    unfold GameEngine.updateConfig
    split_ifs
    · exact h
    · exact h
  | startGame hstart =>
    rcases startGame_cases hstart with ⟨rfl, -⟩ | ⟨hphase, -, -, e₁, -, rfl⟩
    · exact h
    · exact absurd ⟨by rcases hphase with hp | hp <;> simp [hp], rfl⟩ hbegin
  | startGameThrew σ hnone =>
    have hsome := hfacts.round.seating.startGame_isSome σ
    rw [hnone] at hsome
    cases hsome
  | startNextRound hstart =>
    rcases startNextRound_cases hstart with ⟨rfl, -⟩ | ⟨hphase, -, e₁, -, htribute⟩
    · exact h
    · obtain ⟨plan, -, ⟨result, -, rfl⟩ | ⟨-, -, rfl⟩⟩ := startTribute_cases htribute
      · exact absurd ⟨by simp [hphase], rfl⟩ hbegin
      · exact .of_phase .tribute rfl (by decide) (by decide)
  | startNextRoundThrew σ hnone =>
    have hsome := hfacts.round.startNextRound_isSome σ
    rw [hnone] at hsome
    cases hsome
  | playCards hplay => exact h.playCards hplay
  | pass hpass =>
    obtain ⟨hplayers, hcount, -, hphase, -⟩ := pass_frame hpass
    refine h.congr hphase hcount ?_
    funext i
    rw [GameState.hands, GameState.hands, hplayers]
  | submitTribute hsubmit =>
    rcases submitTribute_cases hsubmit with ⟨rfl, -⟩ | ⟨seat, hphase, -, -, -, -, hrest⟩
    · exact h
    rcases hrest with ⟨-, rfl, -⟩ | ⟨-, hclose⟩
    · exact h.congr rfl rfl rfl
    · obtain ⟨s, result, -, -, -, -, ⟨-, hto⟩ | ⟨-, rfl⟩⟩ := closeTributes_frame hclose
      · exact absurd ⟨by simp [hphase], hto⟩ hbegin
      · exact .of_phase .returnTribute rfl (by decide) (by decide)
  | submitReturn hsubmit =>
    rcases submitReturn_cases hsubmit with ⟨rfl, -⟩ | ⟨seat, hphase, -, -, -, -, rfl, -⟩
    · exact h
    · refine .of_phase .returnTribute ?_ (by decide) (by decide)
      exact (SeatingInv.quiet_recordReturn e seat _).2.trans hphase
  | finalizeTributePhase hfin =>
    refine absurd ⟨?_, (finishTributePhase_frame hfin).2.2.2⟩ hbegin
    rcases phase_of_pending hok.1 with hp | hp <;> simp [hp]
  | buildViewFor _ => exact h

theorem Reached.handsFit (h : Reached e) : HandsFit e := by
  obtain ⟨mode, hreach⟩ := h
  refine (hreach.invariant (P := fun e => Reached e ∧ HandsFit e)
    ⟨⟨mode, .refl⟩, .of_phase .waiting rfl (by decide) (by decide)⟩ ?_).2
  rintro e op e' out ⟨hreached, hfit⟩ hok hstep
  obtain ⟨log, passes, hfacts⟩ := hreached.facts
  exact ⟨hreached.step hok hstep, hfit.step hfacts hok hstep⟩

/-- In a match no hand ever has more than 28 cards. -/
theorem Reached.length_hands_le (h : Reached e) (hphase : e.state.phase ≠ .waiting) {i : Nat}
    (hi : i < e.state.playerCount) : (e.state.hands i).length ≤ 28 := by
  obtain ⟨log, passes, hfacts⟩ := h.facts
  obtain ⟨k, hk, hdealt⟩ := hfacts.round.seating.dealt_le hphase
  rcases hfacts.round.seating.phase with hp | hp | hp | hp | hp
  · exact absurd hp hphase
  · rw [(hfacts.phase.tribute hp).hands i hi, hdealt i hi]
    omega
  · obtain ⟨swaps, hinv⟩ := hfacts.phase.returns hp
    have hsizes := hinv.sizes hdealt
    by_cases hpending : i ∈ e.tributeState.pendingReturnSeats
    · have := (hsizes.recipient i hpending).2
      omega
    by_cases hgiver : ∃ seat ∈ e.tributeState.pendingReturnSeats,
        e.tributeState.returnToTributer seat = some i
    · obtain ⟨seat, hseat, hto⟩ := hgiver
      obtain ⟨giver, hto', -, hlen⟩ := hsizes.tributer seat hseat
      rw [hto] at hto'
      cases hto'
      omega
    · push Not at hgiver
      have := hsizes.other i hi hpending hgiver
      omega
  · exact (h.handsFit (.inl hp) i hi).trans (by decide)
  · exact (h.handsFit (.inr hp) i hi).trans (by decide)

end Guandan
