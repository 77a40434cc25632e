import Guandan.Engine.Seating
import Guandan.Rules.Order

/-!
# The plays of a trick

The history variable is the list of the patterns played since the lead. Only a pass that closes the trick
and a deal clear the table, so each play of the list beats all that came before it, along every run of
the engine (`beating_order`).
-/

namespace Guandan

open GameState GameEngine RuleEngine

/-- The pattern of the cards with these ids. -/
def GameEngine.patternOf (e : GameEngine) (cards : List CardId) : CardPattern :=
  ((e.state.cardsFromIds cards).map fun objs => CardAnalyzer.analyze objs e.ruleContext).getD .none

/-- Brings the plays of the trick up to date; a play on a clear table leads to a new one. -/
def recordPlays (plays : List CardPattern) (e : GameEngine) (op : EngineOp) (out : EngineOut) :
    List CardPattern :=
  match op, out with
  | .playCards _ cards, .result r =>
    if r.code ≠ .ok then plays
    else if e.state.lastPattern.isValid then plays ++ [e.patternOf cards]
    else [e.patternOf cards]
  | _, _ => plays

/-- The engine with the plays of the trick. -/
def playsEngine : Machine (GameEngine × List CardPattern) EngineOp EngineOut :=
  engine.withHistory fun plays e op out _ => recordPlays plays e op out

/-- Each play beats the earlier ones, and the last one lies on the table unless it has been cleared. -/
structure TrickPlays (e : GameEngine) (plays : List CardPattern) : Prop where
  chain : plays.Pairwise fun p q => ∀ ctx, canBeat q p ctx = true
  analyzed : ∀ p ∈ plays, Analyzed p
  last : e.state.lastPattern.isValid = true → plays.getLast? = some e.state.lastPattern

variable {e e' : GameEngine} {r : PlayResult} {id : PlayerId} {cards : List CardId} {cardId : CardId}
  {op : EngineOp} {out : EngineOut} {plays : List CardPattern}

/-! ### What lies on the table -/

theorem lastPattern_acceptPass (e : GameEngine) (seat : Nat) :
    (e.acceptPass seat).lastPattern = e.state.lastPattern ∨
      (e.acceptPass seat).lastPattern = .none := by
  unfold acceptPass
  dsimp only
  split
  · split_ifs
    · exact .inr rfl
    · exact .inl rfl
  · exact .inl rfl

theorem lastPattern_finishTributePhase (h : e.finishTributePhaseAndStartPlay = some (e', r)) :
    e'.state.lastPattern = e.state.lastPattern := by
  obtain ⟨-, first, -, rfl⟩ := finishTributePhase_cases h
  rfl

theorem lastPattern_submitTribute (h : e.submitTribute id cardId = some (e', r)) :
    e'.state.lastPattern = e.state.lastPattern := by
  rcases submitTribute_cases h with ⟨rfl, -⟩ | ⟨seat, -, -, -, -, -, ⟨-, rfl, -⟩ | ⟨-, hclose⟩⟩
  · rfl
  · rfl
  obtain ⟨s, result, hassign, hrest⟩ := closeTributes_cases hclose
  obtain ⟨-, -, hs, -⟩ := TributeManager.assignTributes_cases hassign
  subst hs
  rcases hrest with ⟨-, hfinish⟩ | ⟨-, -, rfl⟩
  · exact (lastPattern_finishTributePhase hfinish).trans rfl
  · rfl

theorem lastPattern_submitReturn (h : e.submitReturn id cardId = some (e', r)) :
    e'.state.lastPattern = e.state.lastPattern := by
  rcases submitReturn_cases h with ⟨rfl, -⟩ | ⟨seat, -, -, -, -, -, rfl, -⟩
  · rfl
  · rw [recordReturn_state]
    rfl

/-- The play that was accepted lies on the table. -/
theorem lastPattern_playCards (h : e.playCards id cards = some (e', r)) (hcode : r.code = .ok) :
    ∃ seat, Playable e id cards seat (e.patternOf cards) ∧
      e'.state.lastPattern = e.patternOf cards := by
  rcases playCards_cases h with ⟨-, hno, -⟩ | ⟨seat, pattern, hplay, -, hrest⟩
  · exact absurd hcode hno
  have hpattern : e.patternOf cards = pattern := by
    obtain ⟨objs, hobjs, rfl⟩ := hplay.recognised
    simp [patternOf, hobjs]
  rw [hpattern]
  refine ⟨seat, hplay, ?_⟩
  rcases hrest with ⟨-, hturn⟩ | ⟨-, -, hturn⟩ | ⟨-, -, hfinish⟩
  · obtain ⟨i, turn, rfl⟩ := passTurnOn_frame hturn
    rfl
  · obtain ⟨i, turn, rfl⟩ := passTurnOn_frame hturn
    rfl
  · obtain ⟨players, hs⟩ := assignRemaining_frame ((e.acceptPlay seat cards pattern).goOut seat).state
    have hlast : ((e.acceptPlay seat cards pattern).goOut seat).finishRound.1.state.lastPattern =
        ((e.acceptPlay seat cards pattern).goOut seat).state.assignRemainingFinishRanks.lastPattern :=
      rfl
    rw [hfinish, hs] at hlast
    exact hlast

/-- No other call lays a pattern on the table. -/
theorem lastPattern_other (h : Answers e op e' out) (hop : ∀ id cards, op ≠ .playCards id cards) :
    e'.state.lastPattern = e.state.lastPattern ∨ e'.state.lastPattern = .none := by
  cases h with
  | @init roomId playerIds _ h =>
    right
    unfold GameEngine.init at h
    split_ifs at h
    cases h
    rfl
  | setPlayerReady playerId ready =>
    left
    unfold GameEngine.setPlayerReady
    rcases e.state.getPlayerById playerId with _ | seat <;> rfl
  | updateConfig config =>
    left
    unfold GameEngine.updateConfig
    split_ifs <;> rfl
  | startGame h =>
    rcases startGame_cases h with ⟨rfl, -⟩ | ⟨-, -, -, e₁, hdeal, rfl⟩
    · exact .inl rfl
    · obtain ⟨hands, -, rfl⟩ := dealRound_cases hdeal
      exact .inr rfl
  | startGameThrew σ _ => exact .inl rfl
  | startNextRound h =>
    rcases startNextRound_cases h with ⟨rfl, -⟩ | ⟨-, -, e₁, hdeal, htribute⟩
    · exact .inl rfl
    · right
      obtain ⟨hands, -, rfl⟩ := dealRound_cases hdeal
      obtain ⟨plan, -, ⟨result, -, rfl⟩ | ⟨-, -, rfl⟩⟩ := startTribute_cases htribute
      · rfl
      · rfl
  | startNextRoundThrew σ _ => exact .inl rfl
  | playCards h => exact absurd rfl (hop _ _)
  | pass h =>
    rcases pass_cases h with ⟨rfl, -⟩ | ⟨seat, s, -, -, -, -, hs, rfl, -⟩
    · exact .inl rfl
    · obtain ⟨i, turn, rfl⟩ := skipFinishedPlayers_frame hs
      exact lastPattern_acceptPass e seat
  | submitTribute h => exact .inl (lastPattern_submitTribute h)
  | submitReturn h => exact .inl (lastPattern_submitReturn h)
  | finalizeTributePhase h => exact .inl (lastPattern_finishTributePhase h)
  | buildViewFor h => exact .inl rfl

/-! ### Along a run -/

theorem Analyzed.patternOf (e : GameEngine) (cards : List CardId) : Analyzed (e.patternOf cards) := by
  unfold GameEngine.patternOf
  rcases e.state.cardsFromIds cards with _ | objs
  · exact ⟨[], {}, rfl⟩
  · exact ⟨objs, e.ruleContext, rfl⟩

theorem recordPlays_other (plays : List CardPattern) (e : GameEngine) (out : EngineOut)
    (hop : ∀ id cards, op ≠ .playCards id cards) : recordPlays plays e op out = plays := by
  cases op with
  | playCards id cards => exact absurd rfl (hop id cards)
  | _ => rfl

/-- A new play beats the last one, and with it all that the last one beats. -/
theorem TrickPlays.append {p : CardPattern} (h : TrickPlays e plays)
    (hvalid : e.state.lastPattern.isValid = true) (hp : Analyzed p)
    (hbeats : ∀ ctx, canBeat p e.state.lastPattern ctx = true) :
    (plays ++ [p]).Pairwise fun p q => ∀ ctx, canBeat q p ctx = true := by
  have hlast := h.last hvalid
  obtain ⟨earlier, rfl⟩ := List.getLast?_eq_some_iff.1 hlast
  refine List.pairwise_append.2 ⟨h.chain, List.pairwise_singleton _ _, fun q hq p' hp' ctx => ?_⟩
  rw [List.mem_singleton] at hp'
  subst hp'
  rcases List.mem_append.1 hq with hmem | hmem
  · have hlower := (List.pairwise_append.1 h.chain).2.2 q hmem _ (List.mem_singleton_self _) ctx
    exact canBeat_trans hp (h.analyzed _ (by simp)) (h.analyzed q hq) (hbeats ctx) hlower
  · rw [List.mem_singleton] at hmem
    rw [hmem]
    exact hbeats ctx

theorem TrickPlays.step (h : TrickPlays e plays) (hstep : Answers e op e' out) :
    TrickPlays e' (recordPlays plays e op out) := by
  by_cases hop : ∀ id cards, op ≠ .playCards id cards
  · rw [recordPlays_other plays e out hop]
    refine ⟨h.chain, h.analyzed, fun hvalid => ?_⟩
    rcases lastPattern_other hstep hop with hsame | hnone
    · rw [hsame] at hvalid ⊢
      exact h.last hvalid
    · rw [hnone] at hvalid
      cases hvalid
  push Not at hop
  obtain ⟨id, cards, rfl⟩ := hop
  cases hstep with
  | @playCards _ _ _ r hplay =>
    by_cases hcode : r.code = .ok
    · obtain ⟨seat, hok, hlast⟩ := lastPattern_playCards hplay hcode
      have hp := Analyzed.patternOf e cards
      unfold recordPlays
      simp only [hcode, ne_eq, not_true_eq_false, if_false]
      by_cases hvalid : e.state.lastPattern.isValid = true
      · rw [if_pos hvalid]
        refine ⟨h.append hvalid hp fun ctx => hok.beats hvalid, fun p hmem => ?_, fun _ => ?_⟩
        · rcases List.mem_append.1 hmem with hmem | hmem
          · exact h.analyzed p hmem
          · exact List.mem_singleton.1 hmem ▸ hp
        · rw [List.getLast?_concat, hlast]
      · rw [if_neg hvalid]
        refine ⟨List.pairwise_singleton _ _, fun p hmem => ?_, fun _ => ?_⟩
        · exact List.mem_singleton.1 hmem ▸ hp
        · rw [List.getLast?_singleton, hlast]
    · rcases playCards_cases hplay with ⟨rfl, -⟩ | ⟨seat, pattern, -, hok, -⟩
      · have hsame : recordPlays plays e' (.playCards id cards) (.result r) = plays := by
          simp [recordPlays, hcode]
        rw [hsame]
        exact h
      · exact absurd hok hcode

theorem trickPlays_reachable {config : GameRuleConfig} {ep : GameEngine × List CardPattern}
    (h : playsEngine.Reachable (fun _ _ => True) (GameEngine.new config, []) ep) :
    TrickPlays ep.1 ep.2 := by
  refine h.invariant (P := fun ep => TrickPlays ep.1 ep.2) ?_ ?_
  · exact ⟨List.Pairwise.nil, fun p hp => absurd hp List.not_mem_nil, fun hvalid => by cases hvalid⟩
  · rintro ep op ep' out hplays - hstep
    obtain ⟨happly, hrecord⟩ := Machine.withHistory_step.1 hstep
    rw [hrecord]
    exact hplays.step (engine_step happly)

/-- On the patterns of the analyzer beating is a strict order; bombs, straight flushes and joker bombs are
comparable or alike, beat all other patterns and are beaten by none of them; within another type to be
incomparable is an equivalence; and the plays of a trick are a chain. -/
theorem beating_order :
    (∀ p ctx, Analyzed p → canBeat p p ctx = false) ∧
    (∀ p q ctx, Analyzed p → Analyzed q → canBeat p q ctx = true → canBeat q p ctx = false) ∧
    (∀ p q r ctx, Analyzed p → Analyzed q → Analyzed r → canBeat p q ctx = true →
      canBeat q r ctx = true → canBeat p r ctx = true) ∧
    (∀ p q ctx, Analyzed p → Analyzed q → Explosive p.type → Explosive q.type →
      canBeat p q ctx = true ∨ canBeat q p ctx = true ∨
        p.type = q.type ∧ p.length = q.length ∧ p.primaryRank = q.primaryRank) ∧
    (∀ p q ctx, Analyzed p → Analyzed q → Explosive p.type → ¬ Explosive q.type →
      canBeat p q ctx = true ∧ canBeat q p ctx = false) ∧
    (∀ type ctx, ¬ Explosive type →
      Equivalence fun p q : { p // Analyzed p ∧ p.type = type } =>
        canBeat p.1 q.1 ctx = false ∧ canBeat q.1 p.1 ctx = false) ∧
    ∀ config ep, playsEngine.Reachable (fun _ _ => True) (GameEngine.new config, []) ep →
      ep.2.Pairwise fun earlier later => ∀ ctx, canBeat later earlier ctx = true :=
  ⟨fun _ _ => canBeat_irrefl, fun _ _ _ => canBeat_asymm, fun _ _ _ _ => canBeat_trans,
    fun _ _ _ hp hq hpe _ => comparable_of_explosive hp hq hpe,
    fun _ _ _ => explosive_beats,
    fun _ _ => incomparable_equivalence, fun _ _ h => (trickPlays_reachable h).chain⟩

end Guandan
