import Guandan.Engine.Accounting

/-!
# Who sits where, and how the last round ended

The invariant that every other invariant of the engine rests on (`SeatingInv`): the rules are those
of a mode, the teams alternate, and only five of the phases occur. Once a match has started the
table is full, its players have different ids, and every dealt card is in the deck. The finished
seats are ranked in some order; at the end of a round the order contains every seat, and the record
that the next round's tribute reads is that order. The tribute phase is finalized only while it is
on (`CalledOp`).
-/

namespace Guandan

open GameState GameEngine

/-- What holds once a match has started. -/
structure Started (e : GameEngine) (log : RoundLog) : Prop where
  full : e.state.playerCount = e.config.playerCount
  distinct : ∀ i < e.state.playerCount, ∀ j < e.state.playerCount,
    (e.state.players i).id = (e.state.players j).id → i = j
  deck : ∀ id ∈ log.dealt.flatten, (e.state.getCardById id).isSome
  dealt : log.dealt.length = e.state.playerCount
  size : ∀ hand ∈ log.dealt, hand.length =
    Deck.handSize (54 * e.config.deckCount) e.state.playerCount (cardsPerPlayer e.config)

structure SeatingInv (e : GameEngine) (log : RoundLog) : Prop where
  mode : IsModeConfig e.config
  count : e.state.playerCount ≤ kPlayerCount
  team : ∀ i < e.state.playerCount, (e.state.players i).team = seatTeam i
  ready : ∀ i < e.state.playerCount, (e.state.players i).isReady = true →
    ∀ j < i, (e.state.players j).id ≠ (e.state.players i).id
  phase : e.state.phase = .waiting ∨ e.state.phase = .tribute ∨ e.state.phase = .returnTribute ∨
    e.state.phase = .playing ∨ e.state.phase = .finished
  started : e.state.phase ≠ .waiting → Started e log
  ranks : ∃ order, Ranked e.state order ∧
    (e.state.phase ≠ .playing → e.state.phase ≠ .finished → order = [])
  record : e.state.phase = .tribute ∨ e.state.phase = .returnTribute ∨ e.state.phase = .finished →
    ∃ order, TributeManager.RankRecord e.previousRound e.state.playerCount order

/-! ### Small facts -/

theorem GameState.getPlayerById_some {s : GameState} {id : PlayerId} {seat : Nat}
    (h : s.getPlayerById id = some seat) :
    (s.players seat).id = id ∧ ∀ j < seat, (s.players j).id ≠ id := by
  unfold getPlayerById at h
  rw [List.find?_range_eq_some] at h
  obtain ⟨hid, -, hfirst⟩ := h
  exact ⟨by simpa using hid, fun j hj => by simpa using hfirst j hj⟩

/-- A card of the deck is found. -/
theorem GameState.getCardById_isSome {s : GameState} {id : CardId}
    (h : id ∈ s.allCards.map (·.id)) : (s.getCardById id).isSome := by
  obtain ⟨card, hcard, rfl⟩ := List.mem_map.1 h
  unfold getCardById
  rw [List.find?_isSome]
  exact ⟨card, hcard, by simp⟩

theorem GameState.Ranked.congr {s s' : GameState} {order : List Nat} (h : Ranked s order)
    (hcount : s'.playerCount = s.playerCount)
    (hfin : ∀ i, (s'.players i).hasFinished = (s.players i).hasFinished)
    (hrank : ∀ i, (s'.players i).finishRank = (s.players i).finishRank) : Ranked s' order :=
  ⟨⟨fun i => by rw [hfin, h.finished], fun i => by rw [hrank, h.rank]⟩, h.nodup,
    fun i hi => by rw [hcount]; exact h.seats i hi⟩

theorem dealtPlayer_keeps (n : Nat) (hands : List (List CardId)) (players : Nat → PlayerState)
    (i : Nat) : (dealtPlayer n hands players i).id = (players i).id ∧
      (dealtPlayer n hands players i).team = (players i).team ∧
      (dealtPlayer n hands players i).isReady = (players i).isReady := by
  unfold dealtPlayer
  split <;> exact ⟨rfl, rfl, rfl⟩

/-- After a deal nobody has a rank. -/
theorem RankedBy.dealt {n : Nat} {players : Nat → PlayerState} {order : List Nat}
    (h : RankedBy players order) (hseats : ∀ seat ∈ order, seat < n) (hands : List (List CardId)) :
    RankedBy (dealtPlayer n hands players) [] := by
  have hplayer : ∀ i, (dealtPlayer n hands players i).hasFinished = false ∧
      (dealtPlayer n hands players i).finishRank = 0 := by
    intro i
    by_cases hi : i < n
    · rw [dealtPlayer, if_pos hi]
      exact ⟨rfl, rfl⟩
    · have hnot : i ∉ order := fun hmem => hi (hseats i hmem)
      rw [dealtPlayer, if_neg hi, h.rank, if_neg hnot]
      exact ⟨by simpa [hnot] using h.finished i, rfl⟩
  exact ⟨fun i => by simp [(hplayer i).1], fun i => by simp [(hplayer i).2]⟩

namespace SeatingInv

variable {e e' : GameEngine} {log : RoundLog} {r : PlayResult} {σ : Shuffle}

/-- The seat of a player who has one is found. -/
theorem seatOf_eq (h : Started e log) {seat : Nat} (hseat : seat < e.state.playerCount) :
    e.seatOf (e.state.players seat).id = some seat := by
  unfold seatOf
  rw [List.find?_range_eq_some]
  refine ⟨by simp, List.mem_range.2 hseat, fun j hj => ?_⟩
  simp only [Bool.not_eq_true', beq_eq_false_iff_ne, ne_eq]
  intro heq
  exact absurd (h.distinct j (by omega) seat hseat heq) (by omega)

/-! ### Calls that only move cards and turns -/

/-- All that the invariant reads stays, but for the phase, and hands may change. -/
structure Quiet (e e' : GameEngine) : Prop where
  config : e'.config = e.config
  previousRound : e'.previousRound = e.previousRound
  playerCount : e'.state.playerCount = e.state.playerCount
  allCards : e'.state.allCards = e.state.allCards
  players : ∀ i, { e'.state.players i with hand := {} } = { e.state.players i with hand := {} }

theorem Quiet.eqs (h : Quiet e e') (i : Nat) :
    (e'.state.players i).id = (e.state.players i).id ∧
      (e'.state.players i).team = (e.state.players i).team ∧
      (e'.state.players i).isReady = (e.state.players i).isReady ∧
      (e'.state.players i).hasFinished = (e.state.players i).hasFinished ∧
      (e'.state.players i).finishRank = (e.state.players i).finishRank := by
  have hi := h.players i
  simp only [PlayerState.mk.injEq] at hi
  simp [hi]

theorem Quiet.started (hq : Quiet e e') (h : Started e log) : Started e' log := by
  refine ⟨by rw [hq.playerCount, hq.config, h.full], ?_, ?_, ?_, ?_⟩
  · intro i hi j hj heq
    rw [hq.playerCount] at hi hj
    rw [(hq.eqs i).1, (hq.eqs j).1] at heq
    exact h.distinct i hi j hj heq
  · intro id hid
    rw [getCardById, hq.allCards]
    exact h.deck id hid
  · rw [hq.playerCount, h.dealt]
  · rw [hq.playerCount, hq.config]
    exact h.size

/-- Quiet calls keep the invariant if they stay outside `finished`, and enter the tribute phase and
the phase before the match from nowhere else. -/
theorem quiet (h : SeatingInv e log) (hq : Quiet e e')
    (hphase : e'.state.phase = e.state.phase ∨
      ((e.state.phase = .tribute ∨ e.state.phase = .returnTribute) ∧
        (e'.state.phase = .returnTribute ∨ e'.state.phase = .playing))) : SeatingInv e' log := by
  refine ⟨hq.config ▸ h.mode, hq.playerCount ▸ h.count, ?_, ?_, ?_, ?_, ?_, ?_⟩
  · intro i hi
    rw [hq.playerCount] at hi
    rw [(hq.eqs i).2.1, h.team i hi]
  · intro i hi hr j hj
    rw [hq.playerCount] at hi
    rw [(hq.eqs i).2.2.1] at hr
    rw [(hq.eqs i).1, (hq.eqs j).1]
    exact h.ready i hi hr j hj
  · rcases hphase with heq | ⟨-, hp | hp⟩
    · rw [heq]
      exact h.phase
    · simp [hp]
    · simp [hp]
  · intro hp
    refine hq.started (h.started ?_)
    rcases hphase with heq | ⟨hp' | hp', -⟩
    · rwa [heq] at hp
    · simp [hp']
    · simp [hp']
  · obtain ⟨order, hranked, hempty⟩ := h.ranks
    refine ⟨order, hranked.congr hq.playerCount (fun i => (hq.eqs i).2.2.2.1)
      (fun i => (hq.eqs i).2.2.2.2), ?_⟩
    rcases hphase with heq | ⟨hp | hp, -⟩
    · rw [heq]
      exact hempty
    · exact fun _ _ => hempty (by simp [hp]) (by simp [hp])
    · exact fun _ _ => hempty (by simp [hp]) (by simp [hp])
  · intro hp
    rw [hq.previousRound, hq.playerCount]
    refine h.record ?_
    rcases hphase with heq | ⟨hp' | hp', -⟩
    · rwa [heq] at hp
    · exact .inl hp'
    · exact .inr (.inl hp')

theorem Quiet.of_withHands {f : Nat → List CardId} (hrules : SameRules e e')
    (hsame : SameSeats (e.state.withHands f) e'.state)
    (hplayers : e'.state.players = (e.state.withHands f).players) : Quiet e e' := by
  refine ⟨hrules.config, hrules.previousRound, hsame.playerCount, hsame.allCards, fun i => ?_⟩
  rw [hplayers]
  rfl

theorem pass {id : PlayerId} (h : SeatingInv e log) (hpass : e.pass id = some (e', r)) :
    SeatingInv e' log := by
  obtain ⟨hplayers, hcount, hcards, hphase, hconfig, -, hprev⟩ := pass_frame hpass
  exact h.quiet ⟨hconfig, hprev, hcount, hcards, fun i => by rw [hplayers]⟩ (.inl hphase)

theorem finish (h : SeatingInv e log)
    (hphase : e.state.phase = .tribute ∨ e.state.phase = .returnTribute)
    (hfin : e.finishTributePhaseAndStartPlay = some (e', r)) : SeatingInv e' log := by
  obtain ⟨hsame, hrules, hplayers, hp⟩ := finishTributePhase_frame hfin
  exact h.quiet (.of_withHands (f := e.state.hands) hrules hsame hplayers)
    (.inr ⟨hphase, .inr hp⟩)

theorem submitTribute {id : PlayerId} {cardId : CardId} (h : SeatingInv e log)
    (hsubmit : e.submitTribute id cardId = some (e', r)) : SeatingInv e' log := by
  rcases submitTribute_cases hsubmit with ⟨rfl, -⟩ | ⟨seat, hphase, -, -, -, -, hrest⟩
  · exact h
  rcases hrest with ⟨-, rfl, -⟩ | ⟨-, hclose⟩
  · exact h.quiet ⟨rfl, rfl, rfl, rfl, fun _ => rfl⟩ (.inl rfl)
  · obtain ⟨s, result, -, hsame, hrules, hplayers, hrest⟩ := closeTributes_frame hclose
    have hquiet : Quiet e e' :=
      .of_withHands (f := moveAll result.tributes e.state.hands) ⟨hrules.config, hrules.previousRound⟩
        ⟨hsame.playerCount, hsame.allCards, hsame.players⟩ hplayers
    refine h.quiet hquiet (.inr ⟨.inl hphase, ?_⟩)
    rcases hrest with ⟨-, hp⟩ | ⟨-, rfl⟩
    · exact .inr hp
    · exact .inl rfl

theorem quiet_recordReturn (e : GameEngine) (seat : Nat) (cardId : CardId) :
    Quiet e (e.recordReturn seat cardId) ∧
      (e.recordReturn seat cardId).state.phase = e.state.phase := by
  have hstate := recordReturn_state e seat cardId
  refine ⟨⟨rfl, rfl, ?_, ?_, fun i => ?_⟩, ?_⟩ <;> rw [hstate] <;> rfl

theorem submitReturn {id : PlayerId} {cardId : CardId} (h : SeatingInv e log)
    (hsubmit : e.submitReturn id cardId = some (e', r)) : SeatingInv e' log := by
  rcases submitReturn_cases hsubmit with ⟨rfl, -⟩ | ⟨seat, -, -, -, -, -, rfl, -⟩
  · exact h
  · obtain ⟨hquiet, hphase⟩ := quiet_recordReturn e seat cardId
    exact h.quiet hquiet (.inl hphase)

/-! ### Before a match -/

theorem init {roomId : RoomId} {playerIds : List PlayerId} (h : SeatingInv e log)
    (hinit : e.init roomId playerIds = some e') : SeatingInv e' {} := by
  unfold GameEngine.init at hinit
  split_ifs at hinit with hlen
  cases hinit
  have hplayer : ∀ i, (seatPlayer playerIds i).hasFinished = false ∧
      (seatPlayer playerIds i).finishRank = 0 ∧ (seatPlayer playerIds i).isReady = false := by
    intro i
    unfold seatPlayer
    split <;> exact ⟨rfl, rfl, rfl⟩
  refine ⟨h.mode, by simpa using hlen, fun i hi => ?_, fun i _ hr => ?_, .inl rfl,
    fun hp => absurd rfl hp, ⟨[], ⟨⟨fun i => ?_, fun i => ?_⟩, List.nodup_nil, by simp⟩, by simp⟩, ?_⟩
  · have hi' : i < playerIds.length := hi
    simp [seatPlayer, hi']
  · simp [(hplayer i).2.2] at hr
  · simp [(hplayer i).1]
  · simp [(hplayer i).2.1]
  · simp

theorem setPlayerReady {id : PlayerId} {ready : Bool} (h : SeatingInv e log) :
    SeatingInv (e.setPlayerReady id ready) log := by
  unfold GameEngine.setPlayerReady
  rcases hseat : e.state.getPlayerById id with _ | seat
  · exact h
  obtain ⟨hid, hfirst⟩ := getPlayerById_some hseat
  have hplayer : ∀ i, ∃ b, Function.update e.state.players seat
      { e.state.players seat with isReady := ready } i = { e.state.players i with isReady := b } ∧
        (b = (e.state.players i).isReady ∨ i = seat) := by
    intro i
    by_cases hi : i = seat
    · subst hi
      exact ⟨ready, by simp, .inr rfl⟩
    · exact ⟨(e.state.players i).isReady, by simp [hi], .inl rfl⟩
  have hids : ∀ i, ((Function.update e.state.players seat
      { e.state.players seat with isReady := ready }) i).id = (e.state.players i).id := by
    intro i
    obtain ⟨b, hb, -⟩ := hplayer i
    rw [hb]
  refine ⟨h.mode, h.count, fun i hi => ?_, fun i hi hr j hj => ?_, h.phase, fun hp => ?_, ?_,
    h.record⟩
  · obtain ⟨b, hb, -⟩ := hplayer i
    show (Function.update e.state.players seat _ i).team = _
    rw [hb]
    exact h.team i hi
  · show (Function.update e.state.players seat _ j).id ≠ (Function.update e.state.players seat _ i).id
    rw [hids, hids]
    obtain ⟨b, hb, hold | rfl⟩ := hplayer i
    · change (Function.update e.state.players seat _ i).isReady = true at hr
      rw [hb, hold] at hr
      exact h.ready i hi hr j hj
    · rw [hid]
      exact hfirst j hj
  · have hst := h.started hp
    refine ⟨hst.full, fun i hi j hj heq => ?_, hst.deck, hst.dealt, hst.size⟩
    change (Function.update e.state.players seat _ i).id =
      (Function.update e.state.players seat _ j).id at heq
    rw [hids, hids] at heq
    exact hst.distinct i hi j hj heq
  · obtain ⟨order, hranked, hempty⟩ := h.ranks
    refine ⟨order, hranked.congr rfl (fun i => ?_) (fun i => ?_), hempty⟩
    · obtain ⟨b, hb, -⟩ := hplayer i
      show (Function.update e.state.players seat _ i).hasFinished = _
      rw [hb]
    · obtain ⟨b, hb, -⟩ := hplayer i
      show (Function.update e.state.players seat _ i).finishRank = _
      rw [hb]

theorem updateConfig {config : GameRuleConfig} (h : SeatingInv e log)
    (hconfig : IsModeConfig config) : SeatingInv (e.updateConfig config) log := by
  unfold GameEngine.updateConfig
  split_ifs with hphase
  · exact h
  · have hwait : e.state.phase = .waiting := by
      have := h.phase
      tauto
    refine ⟨hconfig, h.count, h.team, h.ready, h.phase, fun hp => absurd hwait hp, h.ranks, ?_⟩
    exact h.record

/-! ### Starting a round -/

theorem distinct_of_ready (h : SeatingInv e log) (hready : e.allReady = true) :
    ∀ i < e.state.playerCount, ∀ j < e.state.playerCount,
      (e.state.players i).id = (e.state.players j).id → i = j := by
  simp only [allReady, Bool.and_eq_true, List.all_eq_true, List.mem_range] at hready
  intro i hi j hj heq
  rcases Nat.lt_trichotomy i j with hlt | rfl | hgt
  · exact absurd heq (h.ready j hj (hready.1 j hj) i hlt)
  · rfl
  · exact absurd heq.symm (h.ready i hi (hready.1 i hi) j hgt)

/-- A deal at a full table, whatever happens to the turn, the trick and the phase. -/
theorem started_of_deal {e₁ : GameEngine} (hm : ModeFacts e.config)
    (hfull : e.state.playerCount = e.config.playerCount)
    (hdistinct : ∀ i < e.state.playerCount, ∀ j < e.state.playerCount,
      (e.state.players i).id = (e.state.players j).id → i = j)
    (hdeal : e.dealRound σ = some e₁) :
    Started e₁ { dealt := (e.dealtHands σ).getD [] } := by
  obtain ⟨hands, hhands, rfl⟩ := dealRound_cases hdeal
  have hspec := dealtHands_spec hm hhands
  have hid : ∀ i, (dealtPlayer e.state.playerCount hands e.state.players i).id =
      (e.state.players i).id := fun i => (dealtPlayer_keeps _ _ _ i).1
  rw [hhands, Option.getD_some]
  refine ⟨hfull, fun i hi j hj heq => hdistinct i hi j hj ?_, fun id hmem => ?_, hspec.length,
    hspec.size⟩
  · rwa [← hid i, ← hid j]
  · exact getCardById_isSome (hspec.deck id hmem)

/-- A deal keeps all of the invariant but the phase. -/
theorem deal {e₁ : GameEngine} (h : SeatingInv e log)
    (hfull : e.state.playerCount = e.config.playerCount)
    (hdistinct : ∀ i < e.state.playerCount, ∀ j < e.state.playerCount,
      (e.state.players i).id = (e.state.players j).id → i = j)
    (hdeal : e.dealRound σ = some e₁) (hq : Quiet e₁ e')
    (hphase : e'.state.phase = .tribute ∨ e'.state.phase = .playing)
    (hrecord : e'.state.phase = .tribute →
      ∃ order, TributeManager.RankRecord e.previousRound e.state.playerCount order) :
    SeatingInv e' { dealt := (e.dealtHands σ).getD [] } := by
  have hstarted := hq.started (started_of_deal h.mode.facts hfull hdistinct hdeal)
  obtain ⟨hands, hhands, rfl⟩ := dealRound_cases hdeal
  have hdealt := dealtPlayer_keeps e.state.playerCount hands e.state.players
  obtain ⟨order, hranked, -⟩ := h.ranks
  have hcount : e'.state.playerCount = e.state.playerCount := hq.playerCount
  refine ⟨hq.config ▸ h.mode, hcount ▸ h.count, fun i hi => ?_, fun i hi hr j hj => ?_, ?_,
    fun _ => hstarted, ⟨[], ?_, fun _ _ => rfl⟩, fun hp => ?_⟩
  · rw [(hq.eqs i).2.1]
    exact (hdealt i).2.1.trans (h.team i (hcount ▸ hi))
  · rw [(hq.eqs i).2.2.1] at hr
    rw [(hq.eqs i).1, (hq.eqs j).1]
    have hj' := (hdealt j).1
    have hi' := (hdealt i).1
    refine fun heq => h.ready i (hcount ▸ hi) ((hdealt i).2.2 ▸ hr) j hj ?_
    rw [← hj', ← hi']
    exact heq
  · rcases hphase with hp | hp
    · simp [hp]
    · simp [hp]
  · have hdealtRank := hranked.toRankedBy.dealt hranked.seats hands
    exact ⟨⟨fun i => by rw [(hq.eqs i).2.2.2.1]; exact hdealtRank.finished i,
      fun i => by rw [(hq.eqs i).2.2.2.2]; exact hdealtRank.rank i⟩, List.nodup_nil, by simp⟩
  · have htr : e'.state.phase = .tribute := by
      rcases hphase with hp' | hp'
      · exact hp'
      · simp [hp'] at hp
    rw [hq.previousRound, hcount]
    exact hrecord htr

theorem startGame (h : SeatingInv e log) (hstart : e.startGame σ = some (e', r)) :
    SeatingInv e' (recordRound log e (.startGame σ) (.result r) e') := by
  rcases startGame_cases hstart with ⟨rfl, hcode⟩ | ⟨hphase, hready, rfl, e₁, hdeal, rfl⟩
  · rw [recordRound, if_neg hcode]
    exact h
  · rw [recordRound, if_pos rfl]
    have hfull : e.state.playerCount = e.config.playerCount := by
      simp only [allReady, Bool.and_eq_true, beq_iff_eq] at hready
      exact hready.2
    have hdistinct := h.distinct_of_ready hready
    have hwait : e.state.phase = .waiting := by
      have := h.phase
      rcases hphase with hp | hp
      · exact hp
      · simp [hp] at this
    have h₀ : SeatingInv { e with previousRound := {} } log :=
      ⟨h.mode, h.count, h.team, h.ready, h.phase, fun hp => absurd hwait hp, h.ranks,
        fun hp => by simp [hwait] at hp⟩
    exact h₀.deal hfull hdistinct hdeal ⟨rfl, rfl, rfl, rfl, fun _ => rfl⟩ (.inr rfl)
      (fun hp => by cases hp)

theorem startNextRound (h : SeatingInv e log) (hstart : e.startNextRound σ = some (e', r)) :
    SeatingInv e' (recordRound log e (.startNextRound σ) (.result r) e') := by
  rcases startNextRound_cases hstart with ⟨rfl, hcode⟩ | ⟨hphase, rfl, e₁, hdeal, htribute⟩
  · rw [recordRound, if_neg hcode]
    exact h
  · rw [recordRound, if_pos rfl]
    have hst := h.started (by simp [hphase])
    refine h.deal hst.full hst.distinct hdeal ?_ ?_ (fun _ => h.record (.inr (.inr hphase)))
    · obtain ⟨plan, -, ⟨result, -, rfl⟩ | ⟨-, -, rfl⟩⟩ := startTribute_cases htribute
      · exact ⟨rfl, rfl, rfl, rfl, fun _ => rfl⟩
      · exact ⟨rfl, rfl, rfl, rfl, fun _ => rfl⟩
    · obtain ⟨plan, -, ⟨result, -, rfl⟩ | ⟨-, -, rfl⟩⟩ := startTribute_cases htribute
      · exact .inr rfl
      · exact .inl rfl

/-! ### Plays -/

theorem quiet_acceptPlay (e : GameEngine) (seat : Nat) (cards : List CardId)
    (pattern : CardPattern) : Quiet e (e.acceptPlay seat cards pattern) := by
  refine ⟨rfl, rfl, rfl, rfl, fun i => ?_⟩
  show { Function.update e.state.players seat _ i with hand := {} } = _
  by_cases hi : i = seat
  · subst hi
    rw [Function.update_self]
  · rw [Function.update_of_ne hi]

theorem passTurnOn (h : SeatingInv e log) (hturn : e.passTurnOn = some (e', r)) :
    SeatingInv e' log := by
  obtain ⟨seat, turn, rfl⟩ := passTurnOn_frame hturn
  exact h.quiet ⟨rfl, rfl, rfl, rfl, fun _ => rfl⟩ (.inl rfl)

/-- The seats and the people of two states with the same seats. -/
theorem Started.same (hst : Started e log) (hconfig : e'.config = e.config)
    (hsame : SameSeats e.state e'.state) : Started e' log := by
  have hid : ∀ i, (e'.state.players i).id = (e.state.players i).id :=
    fun i => (PlayerState.unranked_eq (hsame.players i)).2.1
  refine ⟨by rw [hsame.playerCount, hconfig, hst.full], fun i hi j hj heq => ?_, ?_, ?_, ?_⟩
  · rw [hid, hid] at heq
    exact hst.distinct i (hsame.playerCount ▸ hi) j (hsame.playerCount ▸ hj) heq
  · intro id hmem
    rw [getCardById, hsame.allCards]
    exact hst.deck id hmem
  · rw [hsame.playerCount, hst.dealt]
  · rw [hsame.playerCount, hconfig]
    exact hst.size

/-- A change of ranks only, while play is on. -/
theorem rerank {order : List Nat} (h : SeatingInv e log) (hphase : e.state.phase = .playing)
    (hconfig : e'.config = e.config) (hsame : SameSeats e.state e'.state)
    (hranked : Ranked e'.state order)
    (hp' : e'.state.phase = .playing ∨ e'.state.phase = .finished)
    (hrecord : e'.state.phase = .finished →
      ∃ order, TributeManager.RankRecord e'.previousRound e'.state.playerCount order) :
    SeatingInv e' log := by
  have heq := fun i => PlayerState.unranked_eq (hsame.players i)
  refine ⟨hconfig ▸ h.mode, hsame.playerCount ▸ h.count, fun i hi => ?_, fun i hi hr j hj => ?_,
    ?_, fun _ => ?_, ⟨order, hranked, ?_⟩, ?_⟩
  · rw [(heq i).2.2.1]
    exact h.team i (hsame.playerCount ▸ hi)
  · rw [(heq i).2.2.2] at hr
    rw [(heq i).2.1, (heq j).2.1]
    exact h.ready i (hsame.playerCount ▸ hi) hr j hj
  · rcases hp' with hp' | hp' <;> simp [hp']
  · exact Started.same (h.started (by simp [hphase])) hconfig hsame
  · rcases hp' with hp' | hp' <;> simp [hp']
  · rcases hp' with hp' | hp'
    · simp [hp']
    · exact fun _ => hrecord hp'

theorem goOut {seat : Nat} (h : SeatingInv e log) (hphase : e.state.phase = .playing)
    (hseat : seat < e.state.playerCount) (hact : e.state.active seat = true) :
    SeatingInv (e.goOut seat) log ∧ ∃ order, Ranked (e.goOut seat).state order ∧ order ≠ [] := by
  obtain ⟨order, hranked, -⟩ := h.ranks
  have hranked' : Ranked (e.goOut seat).state (order ++ [seat]) :=
    hranked.assignFinishRank h.count hseat (hranked.active.1 hact)
  refine ⟨h.rerank hphase rfl (sameSeats_assignFinishRank e.state seat) hranked' (.inl hphase) ?_,
    order ++ [seat], hranked', by simp⟩
  intro hp
  exact absurd (hphase.symm.trans hp) (by simp)

/-- The order in which the seats have ranks is the record of the round. -/
theorem rankRecord_of_ranked {s : GameState} {order : List Nat} (h : Ranked s order)
    (hperm : order.Perm (List.range s.playerCount)) (winningTeam : Option Team) :
    TributeManager.RankRecord (buildPreviousRoundInfo s winningTeam) s.playerCount order := by
  refine ⟨rfl, hperm, fun seat hseat => ?_⟩
  rw [buildPreviousRoundInfo]
  dsimp only
  rw [if_pos hseat, h.rank_of_mem (hperm.mem_iff.2 (List.mem_range.2 hseat))]

theorem finishRound (h : SeatingInv e log) (hphase : e.state.phase = .playing)
    (hranked : ∃ order, Ranked e.state order ∧ order ≠ []) : SeatingInv e.finishRound.1 log := by
  obtain ⟨order, hranked, hne⟩ := hranked
  obtain ⟨hranked', hperm⟩ := hranked.assignRemaining hne
  obtain ⟨hsame, hconfig, -, hp⟩ := finishRound_frame e
  have hcount : e.state.assignRemainingFinishRanks.playerCount = e.state.playerCount :=
    hsame.playerCount
  refine h.rerank hphase hconfig hsame ⟨hranked'.toRankedBy, hranked'.nodup, hranked'.seats⟩
    (.inr hp) fun _ => ⟨finalOrder e.state.playerCount order, ?_⟩
  exact rankRecord_of_ranked hranked' (hcount ▸ hperm) _

theorem playCards {id : PlayerId} {cards : List CardId} (h : SeatingInv e log)
    (hplay : e.playCards id cards = some (e', r)) :
    SeatingInv e' (recordRound log e (.playCards id cards) (.result r) e') := by
  rcases playCards_cases hplay with ⟨rfl, hcode, -⟩ | ⟨seat, pattern, hok, hcode, hrest⟩
  · rw [recordRound, if_neg hcode]
    exact h
  rw [recordRound, if_pos hcode]
  have hlt := (seatOf_some hok.seated).1
  have hst := h.started (by simp [hok.phase])
  have h₀ : SeatingInv e { log with plays := log.plays ++ [cards] } :=
    ⟨h.mode, h.count, h.team, h.ready, h.phase,
      fun _ => ⟨hst.full, hst.distinct, hst.deck, hst.dealt, hst.size⟩, h.ranks, h.record⟩
  have hquiet := quiet_acceptPlay e seat cards pattern
  have h₁ := h₀.quiet hquiet (.inl rfl)
  have hact : (e.acceptPlay seat cards pattern).state.active seat = true := by
    have := hok.active
    rw [GameState.active] at this ⊢
    rw [(hquiet.eqs seat).2.2.2.1]
    exact this
  rcases hrest with ⟨-, hturn⟩ | ⟨-, -, hturn⟩ | ⟨-, -, hfinish⟩
  · exact h₁.passTurnOn hturn
  · exact (h₁.goOut hok.phase hlt hact).1.passTurnOn hturn
  · obtain ⟨h₂, hranked⟩ := h₁.goOut hok.phase hlt hact
    have h₃ := h₂.finishRound hok.phase hranked
    rw [hfinish] at h₃
    exact h₃

/-! ### Deals do not fail -/

/-- At a full table of a mode the deck can be dealt. -/
theorem dealtHands_isSome (hm : ModeFacts e.config)
    (hfull : e.state.playerCount = e.config.playerCount) (σ : Shuffle) :
    (e.dealtHands σ).isSome := by
  rw [dealtHands, hfull]
  exact hm.deal _ (length_shuffled e σ)

theorem dealRound_isSome (hm : ModeFacts e.config)
    (hfull : e.state.playerCount = e.config.playerCount) (σ : Shuffle) :
    (e.dealRound σ).isSome := by
  obtain ⟨hands, hhands⟩ := Option.isSome_iff_exists.1 (dealtHands_isSome hm hfull σ)
  simp [dealRound, hhands]

theorem startGame_isSome (h : SeatingInv e log) (σ : Shuffle) : (e.startGame σ).isSome := by
  unfold GameEngine.startGame
  split_ifs with hphase hready
  · rfl
  · rfl
  · have hfull : e.state.playerCount = e.config.playerCount := by
      simp only [allReady, Bool.not_eq_true', Bool.not_eq_false, Bool.and_eq_true,
        beq_iff_eq] at hready
      exact hready.2
    obtain ⟨e₁, he₁⟩ := Option.isSome_iff_exists.1
      (dealRound_isSome (e := { e with previousRound := {} }) h.mode.facts hfull σ)
    simp [dealAndStartPlaying, he₁]

end SeatingInv

/-! ### Looking cards up -/

theorem mapM_isSome {α β : Type*} {f : α → Option β} {l : List α}
    (h : ∀ a ∈ l, (f a).isSome) : (l.mapM f).isSome := by
  induction l with
  | nil => rfl
  | cons a l ih =>
    obtain ⟨b, hb⟩ := Option.isSome_iff_exists.1 (h a (List.mem_cons_self ..))
    obtain ⟨bs, hbs⟩ := Option.isSome_iff_exists.1 (ih fun x hx => h x (List.mem_cons_of_mem _ hx))
    simp [List.mapM_cons, hb, hbs]

/-- Every card held at the table can be looked up. -/
def GameState.KnownHands (s : GameState) : Prop :=
  ∀ i < s.playerCount, ∀ id ∈ s.hands i, (s.getCardById id).isSome

theorem GameState.KnownHands.cardsFromIds {s : GameState} (h : s.KnownHands) {i : Nat}
    (hi : i < s.playerCount) : (s.cardsFromIds (s.hands i)).isSome :=
  mapM_isSome (h i hi)

theorem TributeManager.checkAntiTribute_isSome {s : GameState} (h : s.KnownHands) (down : Bool)
    {seats : List Nat} (hseats : ∀ seat ∈ seats, seat < s.playerCount) :
    (TributeManager.checkAntiTribute4 s down seats).isSome ∧
      (TributeManager.checkAntiTribute6 s down seats).isSome := by
  have hsome : (seats.mapM (TributeManager.countBigJokersInSeat s)).isSome := by
    refine mapM_isSome fun seat hseat => ?_
    obtain ⟨cards, hcards⟩ := Option.isSome_iff_exists.1 (h.cardsFromIds (hseats seat hseat))
    have hcards' : s.cardsFromIds (s.players seat).hand.cards = some cards := hcards
    simp [TributeManager.countBigJokersInSeat, hcards']
  obtain ⟨counts, hcounts⟩ := Option.isSome_iff_exists.1 hsome
  cases down <;>
    simp [TributeManager.checkAntiTribute4, TributeManager.checkAntiTribute6, hcounts]

theorem TributeManager.planRound_isSome {s : GameState} (config : GameRuleConfig)
    (previous : PreviousRoundInfo) (h : s.KnownHands) :
    (TributeManager.planRound s config previous).isSome := by
  have hdown : ∀ (head : Nat) (ranks recipients : List Nat) (summary : String),
      ∀ seat ∈ (TributeManager.downPlan previous s.playerCount head ranks recipients
        summary).tributerSeats, seat < s.playerCount := by
    intro head ranks recipients summary seat hseat
    obtain ⟨rank, -, hrank⟩ := List.mem_filterMap.1 hseat
    exact TributeManager.seatByFinishRank_lt hrank
  unfold TributeManager.planRound
  dsimp only
  split
  · rfl
  split
  · rfl
  split
  · rw [Option.isSome_map]
    refine (TributeManager.checkAntiTribute_isSome h _ ?_).2
    split
    · exact hdown _ _ _ _
    · exact hdown _ _ _ _
  · rw [Option.isSome_map]
    refine (TributeManager.checkAntiTribute_isSome h _ ?_).1
    split
    · exact hdown _ _ _ _
    · exact hdown _ _ _ _

/-! ### The invariants of a round together -/

structure RoundInv (e : GameEngine) (log : RoundLog) : Prop where
  accounting : AccountingInv e log
  seating : SeatingInv e log
  fresh : e.state.phase = .tribute ∨ e.state.phase = .returnTribute → log.plays = []

namespace RoundInv

variable {e e' : GameEngine} {log : RoundLog}

theorem knownHands (h : RoundInv e log) (hphase : e.state.phase ≠ .waiting) :
    e.state.KnownHands := by
  intro i hi id hid
  refine (h.seating.started hphase).deck id ?_
  have hbag : id ∈ e.state.handBag := Bags.mem_bag.2 ⟨i, hi, hid⟩
  have hsum : id ∈ e.state.handBag + ((cleanPlays log).flatten : Multiset CardId) :=
    Multiset.mem_add.2 (.inl hbag)
  rw [h.accounting.kept] at hsum
  exact hsum

/-- After the deal of the next round every card held can be looked up. -/
theorem knownHands_dealt {σ : Shuffle} {e₁ : GameEngine} (h : RoundInv e log)
    (hphase : e.state.phase = .finished) (hdeal : e.dealRound σ = some e₁) :
    e₁.state.KnownHands := by
  have hst := h.seating.started (by simp [hphase])
  have hst₁ := SeatingInv.started_of_deal h.seating.mode.facts hst.full hst.distinct hdeal
  obtain ⟨hbag, -⟩ := handBag_dealRound h.seating.mode.facts hdeal
  intro i hi id hid
  refine hst₁.deck id ?_
  have hmem : id ∈ e₁.state.handBag := Bags.mem_bag.2 ⟨i, hi, hid⟩
  rw [hbag] at hmem
  exact hmem

theorem startNextRound_isSome (h : RoundInv e log) (σ : Shuffle) : (e.startNextRound σ).isSome := by
  unfold GameEngine.startNextRound
  split_ifs with hphase
  · rfl
  · have hfin : e.state.phase = .finished := by simpa using hphase
    have hst := h.seating.started (by simp [hfin])
    obtain ⟨e₁, he₁⟩ := Option.isSome_iff_exists.1
      (SeatingInv.dealRound_isSome h.seating.mode.facts hst.full σ)
    obtain ⟨plan, hplan⟩ := Option.isSome_iff_exists.1 (TributeManager.planRound_isSome
      e₁.config e₁.previousRound (h.knownHands_dealt hfin he₁))
    have hplan' : TributeManager.planRound e₁.clearTributeState.state e₁.clearTributeState.config
        e₁.clearTributeState.previousRound = some plan := hplan
    simp only [dealAndStartPlaying, he₁, Option.bind_eq_bind, Option.bind_some, if_true,
      startTribute, hplan']
    split_ifs <;> rfl

theorem step {op : EngineOp} {out : EngineOut} (h : RoundInv e log) (hok : CalledOp e op)
    (hstep : engine.step e op = some (e', out)) : RoundInv e' (recordRound log e op out e') := by
  have hacc := h.accounting.step hok.mode hstep
  cases engine_step hstep with
  | init hinit =>
    refine ⟨hacc, h.seating.init hinit, fun _ => rfl⟩
  | setPlayerReady id ready =>
    refine ⟨hacc, h.seating.setPlayerReady, fun hp => h.fresh ?_⟩
    unfold setPlayerReady at hp
    split at hp <;> exact hp
  | updateConfig config =>
    refine ⟨hacc, h.seating.updateConfig hok, fun hp => h.fresh ?_⟩
    unfold updateConfig at hp
    split at hp <;> exact hp
  | startGame hstart =>
    refine ⟨hacc, h.seating.startGame hstart, fun hp => ?_⟩
    rcases startGame_cases hstart with ⟨rfl, hcode⟩ | ⟨-, -, rfl, e₁, -, rfl⟩
    · rw [recordRound, if_neg hcode]
      exact h.fresh hp
    · rfl
  | startGameThrew σ hnone =>
    have hsome := h.seating.startGame_isSome σ
    rw [hnone] at hsome
    cases hsome
  | startNextRound hstart =>
    refine ⟨hacc, h.seating.startNextRound hstart, fun hp => ?_⟩
    rcases startNextRound_cases hstart with ⟨rfl, hcode⟩ | ⟨-, rfl, e₁, -, -⟩
    · rw [recordRound, if_neg hcode]
      exact h.fresh hp
    · rfl
  | startNextRoundThrew σ hnone =>
    have hsome := h.startNextRound_isSome σ
    rw [hnone] at hsome
    cases hsome
  | playCards hplay =>
    refine ⟨hacc, h.seating.playCards hplay, fun hp => ?_⟩
    rcases playCards_frame hplay with ⟨rfl, hcode, -⟩ | ⟨seat, pattern, -, -, hframe⟩
    · rw [recordRound, if_neg hcode]
      exact h.fresh hp
    · rcases hframe.phase with hp' | hp' <;> simp [hp'] at hp
  | pass hpass =>
    refine ⟨hacc, h.seating.pass hpass, fun hp => h.fresh ?_⟩
    rwa [(pass_frame hpass).2.2.2.1] at hp
  | submitTribute hsubmit =>
    refine ⟨hacc, h.seating.submitTribute hsubmit, fun hp => h.fresh ?_⟩
    rcases submitTribute_cases hsubmit with ⟨rfl, -⟩ | ⟨seat, hphase, -⟩
    · exact hp
    · exact .inl hphase
  | submitReturn hsubmit =>
    refine ⟨hacc, h.seating.submitReturn hsubmit, fun hp => h.fresh ?_⟩
    rcases submitReturn_cases hsubmit with ⟨rfl, -⟩ | ⟨seat, hphase, -⟩
    · exact hp
    · exact .inr hphase
  | finalizeTributePhase hfin =>
    have hphase := phase_of_pending (e := e) hok
    refine ⟨hacc, h.seating.finish hphase hfin, fun hp => ?_⟩
    simp [(finishTributePhase_frame hfin).2.2.2] at hp
  | buildViewFor _ => exact ⟨hacc, h.seating, h.fresh⟩

end RoundInv

theorem roundInv_newEngine (mode : String) : RoundInv (newEngine mode).1 (newEngine mode).2 := by
  refine ⟨accountingInv_newEngine mode, ⟨isModeConfig_fromModeName mode, ?_, ?_, ?_, .inl rfl,
    fun hp => absurd rfl hp, ⟨[], ⟨⟨?_, ?_⟩, List.nodup_nil, ?_⟩, fun _ _ => rfl⟩, ?_⟩, fun _ => rfl⟩
  all_goals simp [newEngine, GameEngine.new]

end Guandan
