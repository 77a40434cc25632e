import Guandan.Engine.Trick

/-!
# The trick protocol along every run

Every state of play that an engine of a mode reaches is a `Trick`; plays and passes are always
answered; and a trick closes with the pass that completes one pass of every unfinished player but
the leader. The history variable is the list of the seats that have passed since the last play.
-/

namespace Guandan

open GameState GameEngine TributeManager

/-- Brings the seats that have passed since the last accepted play up to date. -/
def recordPasses (passes : List Nat) (e : GameEngine) (op : EngineOp) (out : EngineOut) :
    List Nat :=
  match op, out with
  | .playCards _ _, .result r => if r.code = .ok then [] else passes
  | .pass id, .result r => if r.code = .ok then passes ++ (e.seatOf id).toList else passes
  | _, _ => passes

/-- The engine with the passes of the trick beside the log of the round. -/
def trickEngine : Machine ((GameEngine × RoundLog) × List Nat) EngineOp EngineOut :=
  loggedEngine.withHistory fun passes sg op out _ => recordPasses passes sg.1 op out

/-- Nothing lies on the table. -/
structure TableClear (s : GameState) : Prop where
  pattern : s.lastPattern.isValid = false
  player : s.lastPlayedPlayerIndex = none
  passes : s.passCount = 0

structure TrickInv (e : GameEngine) (passes : List Nat) : Prop where
  trick : e.state.phase = .playing → Trick e.state
  holds : e.state.phase = .playing →
    ∀ i < e.state.playerCount, e.state.active i = true → e.state.hands i ≠ []
  passed : e.state.phase = .playing → ∀ leader, e.state.lastPlayedPlayerIndex = some leader →
    passes = e.state.between leader
  clear : e.state.phase = .tribute ∨ e.state.phase = .returnTribute → TableClear e.state

variable {e e' : GameEngine} {log log' : RoundLog} {passes : List Nat} {r : PlayResult}
  {op : EngineOp} {out : EngineOut}

/-! ### Where play begins -/

/-- A table where nothing has been played and everybody is still in. -/
structure Unplayed (s : GameState) : Prop where
  clear : TableClear s
  active : ∀ i < s.playerCount, s.active i = true
  holds : ∀ i < s.playerCount, s.hands i ≠ []

theorem Unplayed.trick {s : GameState} (h : Unplayed s) (hcount : 4 ≤ s.playerCount)
    (hteam : ∀ i < s.playerCount, (s.players i).team = seatTeam i)
    (hseat : s.currentPlayerIndex < s.playerCount) : Trick s := by
  refine ⟨hseat, h.active _ hseat, h.holds _ hseat, fun team => ?_, ?_, fun hv => ?_,
    fun _ => h.clear.passes⟩
  · have hpair : seatTeam 0 = team ∨ seatTeam 1 = team := by
      revert team
      decide
    rcases hpair with hp | hp
    · exact ⟨0, by omega, h.active 0 (by omega), (hteam 0 (by omega)).trans hp⟩
    · exact ⟨1, by omega, h.active 1 (by omega), (hteam 1 (by omega)).trans hp⟩
  · rw [h.clear.pattern, h.clear.player]
    simp
  · rw [h.clear.pattern] at hv
    cases hv

theorem unplayed_dealRound {σ : Shuffle} {e₁ : GameEngine} (hm : ModeFacts e.config)
    (hfull : e.state.playerCount = e.config.playerCount) (hdeal : e.dealRound σ = some e₁) :
    Unplayed e₁.state := by
  obtain ⟨hands, hhands, rfl⟩ := dealRound_cases hdeal
  have hspec := dealtHands_spec hm hhands
  refine ⟨⟨rfl, rfl, rfl⟩, fun i hi => ?_, fun i hi => ?_⟩
  · show (!(dealtPlayer e.state.playerCount hands e.state.players i).hasFinished) = true
    rw [dealtPlayer, if_pos hi]
    rfl
  · show (dealtPlayer e.state.playerCount hands e.state.players i).hand.cards ≠ []
    have hi' : i < hands.length := by
      rw [hspec.length]
      exact hi
    have hlen := hspec.size _ (List.getElem_mem hi')
    have hhand := hm.hand
    rw [hands_dealt hands e.state.players hi, List.getD_eq_getElem?_getD,
      List.getElem?_eq_getElem hi', Option.getD_some]
    intro hnil
    rw [hnil, List.length_nil, hfull] at hlen
    omega

/-- While returns are pending everybody has a card left. -/
theorem ReturnSizes.holds {k : Nat} (h : ReturnSizes e k) (hk : 1 < k) :
    ∀ i < e.state.playerCount, e.state.hands i ≠ [] := by
  intro i hi hnil
  by_cases hpending : i ∈ e.tributeState.pendingReturnSeats
  · have hlen := (h.recipient i hpending).2
    simp [hnil] at hlen
  by_cases hgiver : ∀ seat ∈ e.tributeState.pendingReturnSeats,
      e.tributeState.returnToTributer seat ≠ some i
  · have hlen := h.other i hi hpending hgiver
    rw [hnil, List.length_nil] at hlen
    omega
  · push Not at hgiver
    obtain ⟨seat, hseat, hto⟩ := hgiver
    obtain ⟨giver, hgiver, -, hlen⟩ := h.tributer seat hseat
    rw [hto] at hgiver
    cases hgiver
    rw [hnil, List.length_nil] at hlen
    omega

/-- During the tribute phase nothing has been played. -/
theorem TrickInv.unplayed (h : TrickInv e passes) (hround : RoundInv e log) (hph : PhaseInv e log)
    (hphase : e.state.phase = .tribute ∨ e.state.phase = .returnTribute) : Unplayed e.state := by
  have hne : e.state.phase ≠ .waiting := by rcases hphase with hp | hp <;> simp [hp]
  obtain ⟨k, hk, hsize⟩ := hround.seating.dealt_size hne
  obtain ⟨order, hranked, hnone⟩ := hround.seating.ranks
  have horder : order = [] := by rcases hphase with hp | hp <;> simp [hp] at hnone <;> exact hnone
  refine ⟨h.clear hphase, fun i _ => ?_, ?_⟩
  · rw [hranked.active, horder]
    exact List.not_mem_nil
  · rcases hphase with hp | hp
    · intro i hi hnil
      rw [(hph.tribute hp).hands i hi] at hnil
      have hlen := hsize i hi
      rw [hnil, List.length_nil] at hlen
      omega
    · obtain ⟨swaps, hinv⟩ := hph.returns hp
      exact (hinv.sizes hsize).holds hk

/-! ### Who plays first -/

theorem maxSeats_mem (ctx : RuleContext) (tributes : List (Nat × Card)) (best : List Nat × Int) :
    ∀ seat ∈ (tributes.foldl (maxSeatsStep ctx) best).1,
      seat ∈ best.1 ∨ seat ∈ tributes.map (·.1) := by
  induction tributes generalizing best with
  | nil => exact fun seat hseat => .inl hseat
  | cons tribute tributes ih =>
    intro seat hseat
    have hstep : ∀ seat ∈ (maxSeatsStep ctx best tribute).1, seat ∈ best.1 ∨ seat = tribute.1 := by
      intro seat hseat
      unfold maxSeatsStep at hseat
      dsimp only at hseat
      split_ifs at hseat
      · exact .inr (List.mem_singleton.1 hseat)
      · rcases List.mem_append.1 hseat with hseat | hseat
        · exact .inl hseat
        · exact .inr (List.mem_singleton.1 hseat)
      · exact .inl hseat
    rcases ih _ seat hseat with hmem | hmem
    · rcases hstep seat hmem with hmem | rfl
      · exact .inl hmem
      · exact .inr (List.mem_cons_self ..)
    · exact .inr (List.mem_cons_of_mem _ hmem)

/-- The first player is a tributer, the last of the previous round or the head. -/
theorem computeFirstPlayerSeat_lt {result : TributeRoundResult} {headSeat n first : Nat}
    {s : GameState} {ctx : RuleContext} {previous : PreviousRoundInfo} (hhead : headSeat < n)
    (hfrom : ∀ tr ∈ result.tributes, tr.fromSeat < n)
    (h : computeFirstPlayerSeat result headSeat s ctx previous n = some first) : first < n := by
  unfold computeFirstPlayerSeat at h
  split_ifs at h
  · cases h
    exact hhead
  simp only [Option.bind_eq_bind, Option.bind_eq_some_iff] at h
  obtain ⟨tributes, htributes, h⟩ := h
  split at h
  · rename_i seat hmax
    cases h
    have hmem := maxSeats_mem ctx tributes ([], -1) first (by rw [hmax]; exact List.mem_cons_self ..)
    rcases hmem with hmem | hmem
    · cases hmem
    obtain ⟨pair, hpair, rfl⟩ := List.mem_map.1 hmem
    obtain ⟨tr, htr, hcard⟩ := mem_of_mapM htributes pair hpair
    obtain ⟨card, -, rfl⟩ := Option.map_eq_some_iff.1 hcard
    exact hfrom tr htr
  · cases h
    rcases hlast : seatByFinishRank previous n n with _ | seat
    · exact hhead
    · exact seatByFinishRank_lt hlast

/-- The player whom the end of the tribute phase chooses sits at the table. -/
theorem PhaseInv.first_lt {first : Nat} (h : PhaseInv e log)
    (hphase : e.state.phase = .tribute ∨ e.state.phase = .returnTribute)
    (hfirst : computeFirstPlayerSeat e.lastTribute e.tributeState.plan.headSeat e.state
      e.ruleContext e.previousRound e.state.playerCount = some first) :
    first < e.state.playerCount := by
  rcases hphase with hp | hp
  · have ht := h.tribute hp
    refine computeFirstPlayerSeat_lt (ht.plan.headSeat_lt ht.started) (fun tr htr => ?_) hfirst
    rw [ht.unassigned.1] at htr
    cases htr
  · obtain ⟨swaps, hinv⟩ := h.returns hp
    refine computeFirstPlayerSeat_lt (hinv.plan.headSeat_lt hinv.started) (fun tr htr => ?_) hfirst
    rw [hinv.tributes, List.mem_map] at htr
    obtain ⟨sw, hsw, rfl⟩ := htr
    refine hinv.plan.lt _ (List.mem_append_left _ (hinv.givers.subset ?_))
    exact List.mem_map_of_mem hsw

/-- Play begins at an unplayed table. -/
theorem TrickInv.begins (h : TrickInv e passes) (hround : RoundInv e log) (hph : PhaseInv e log)
    (hround' : RoundInv e' log') (hok : CalledOp e op) (hbegins : BeginsPlay e op e' out)
    (hto : e'.state.phase = .playing) :
    Unplayed e'.state ∧ e'.state.currentPlayerIndex < e'.state.playerCount := by
  have hfull := (hround'.seating.started (by simp [hto])).full
  have hcount := hround'.seating.mode.facts.playerCount_pos
  cases hbegins with
  | startGame hphase hdeal =>
    obtain ⟨hn, hconfig, -⟩ := dealRound_frame hdeal
    have hun := unplayed_dealRound (e := { e with previousRound := {} }) hround.seating.mode.facts
      (hn.symm.trans (hfull.trans (congrArg _ hconfig))) hdeal
    refine ⟨⟨⟨hun.clear.pattern, hun.clear.player, hun.clear.passes⟩, hun.active, hun.holds⟩, ?_⟩
    rw [hfull]
    exact Nat.lt_of_lt_of_le (show 0 < 4 by decide) hcount
  | startNextRound hphase hdeal htribute =>
    have hun := unplayed_dealRound hround.seating.mode.facts
      (hround.seating.started (by simp [hphase])).full hdeal
    obtain ⟨plan, hplan, ⟨result, -, rfl⟩ | ⟨-, -, rfl⟩⟩ := startTribute_cases htribute
    · refine ⟨⟨⟨hun.clear.pattern, hun.clear.player, hun.clear.passes⟩, hun.active, hun.holds⟩, ?_⟩
      refine planRound_head_lt ?_ hplan
      have hn : (4 : Nat) ≤ _ := hfull ▸ hcount
      exact Nat.lt_of_lt_of_le (show 0 < 4 by decide) hn
    · cases hto
  | finalizeTributePhase hfin =>
    have hphase := phase_of_pending (e := e) hok
    have hun := h.unplayed hround hph hphase
    obtain ⟨-, first, hfirst, rfl⟩ := finishTributePhase_cases hfin
    refine ⟨⟨⟨hun.clear.pattern, hun.clear.player, hun.clear.passes⟩, hun.active, hun.holds⟩, ?_⟩
    exact hph.first_lt hphase hfirst

/-! ### Every step -/

/-- Outside play and tribute there is nothing to keep. -/
theorem TrickInv.of_phase (h1 : e.state.phase ≠ .playing) (h2 : e.state.phase ≠ .tribute)
    (h3 : e.state.phase ≠ .returnTribute) : TrickInv e passes :=
  ⟨fun h => absurd h h1, fun h => absurd h h1, fun h => absurd h h1,
    fun h => (h.elim h2 h3).elim⟩

/-- A change to the players that the trick does not see. -/
theorem TrickInv.congr_players {players : Nat → PlayerState} (h : TrickInv e passes)
    (hp : ∀ i, (players i).hasFinished = (e.state.players i).hasFinished ∧
      (players i).hand = (e.state.players i).hand ∧ (players i).team = (e.state.players i).team) :
    TrickInv { e with state := { e.state with players := players } } passes := by
  have hactive : GameState.active { e.state with players := players } = e.state.active := by
    funext i
    rw [GameState.active, GameState.active, (hp i).1]
  have hhands : GameState.hands { e.state with players := players } = e.state.hands := by
    funext i
    rw [GameState.hands, GameState.hands, (hp i).2.1]
  have hbetween : ∀ leader, GameState.between { e.state with players := players } leader =
      e.state.between leader := by
    intro leader
    rw [GameState.between, GameState.between, hactive]
  refine ⟨fun hphase => ?_, fun hphase => ?_, fun hphase => ?_, fun hphase => ?_⟩
  · have ht := h.trick hphase
    refine ⟨ht.seat, ?_, ?_, fun team => ?_, ht.table, fun hv leader hleader => ?_, ht.clear⟩
    · rw [hactive]
      exact ht.unfinished
    · rw [hhands]
      exact ht.holds
    · obtain ⟨i, hi, hact, hteam⟩ := ht.teams team
      exact ⟨i, hi, by rw [hactive]; exact hact, (hp i).2.2.trans hteam⟩
    · rw [hbetween]
      exact ht.open_trick hv leader hleader
  · rw [hactive, hhands]
    exact h.holds hphase
  · intro leader hleader
    rw [hbetween]
    exact h.passed hphase leader hleader
  · obtain ⟨h1, h2, h3⟩ := h.clear hphase
    exact ⟨h1, h2, h3⟩

theorem TrickInv.setPlayerReady (h : TrickInv e passes) (id : PlayerId) (ready : Bool) :
    TrickInv (e.setPlayerReady id ready) passes := by
  unfold GameEngine.setPlayerReady
  rcases e.state.getPlayerById id with _ | seat
  · exact h
  · refine h.congr_players fun i => ?_
    by_cases hi : i = seat
    · subst hi
      simp
    · simp [hi]

/-- While no team is out completely, both have an unfinished player. -/
theorem teams_of_not_win {s : GameState} {perTeam : Nat} (hcount : s.playerCount = 2 * perTeam)
    (hper : perTeam = 2 ∨ perTeam = 3)
    (hteam : ∀ i < s.playerCount, (s.players i).team = seatTeam i)
    (hwin : s.checkTeamWin perTeam = false) :
    ∀ team : Team, ∃ i < s.playerCount, s.active i = true ∧ (s.players i).team = team := by
  intro team
  by_contra hnone
  push Not at hnone
  have hall : ∀ i < s.playerCount, (s.players i).team = team → (s.players i).hasFinished = true := by
    intro i hi heq
    by_contra hact
    exact hnone i hi (by simpa [active] using hact) heq
  -- the team's seats are counted, and there are `perTeam` of them
  have hsub : (List.range s.playerCount).Sublist (List.range kPlayerCount) := by
    refine List.range_sublist.2 ?_
    rcases hper with rfl | rfl <;> simp [hcount, kPlayerCount]
  have hle := hsub.countP_le (p := fun i => (s.players i).team == team &&
    (s.players i).hasFinished)
  have heq : (List.range s.playerCount).countP
      (fun i => (s.players i).team == team && (s.players i).hasFinished) =
      (List.range s.playerCount).countP fun i => seatTeam i == team := by
    refine List.countP_congr fun i hi => ?_
    rw [List.mem_range] at hi
    rw [Bool.and_eq_true, beq_iff_eq, beq_iff_eq, hteam i hi]
    refine and_iff_left_of_imp fun ht => hall i hi ?_
    rw [hteam i hi, ht]
  have hnum : (List.range s.playerCount).countP (fun i => seatTeam i == team) = perTeam := by
    rw [hcount]
    exact countP_seatTeam hper team
  have hlt : (List.range kPlayerCount).countP
      (fun i => (s.players i).team == team && (s.players i).hasFinished) < perTeam := by
    unfold checkTeamWin at hwin
    rw [List.any_eq_false] at hwin
    have hmem : ∀ t : Team, t ∈ ([0, 1] : List Team) := by decide
    simpa using hwin team (hmem team)
  omega

/-- The turn passes on from a player who has just played. -/
theorem TrickInv.of_play {cur : Nat} (hphase : e.state.phase = .playing)
    (hcur : e.state.currentPlayerIndex = cur) (hlt : cur < e.state.playerCount)
    (hvalid : e.state.lastPattern.isValid = true)
    (hlast : e.state.lastPlayedPlayerIndex = some cur) (hpass : e.state.passCount = 0)
    (hteams : ∀ team : Team, ∃ i < e.state.playerCount, e.state.active i = true ∧
      (e.state.players i).team = team)
    (hholds : ∀ i < e.state.playerCount, e.state.active i = true → e.state.hands i ≠ [])
    (hturn : e.passTurnOn = some (e', r)) : TrickInv e' [] := by
  obtain ⟨-, s, hs, rfl⟩ := passTurnOn_cases hturn
  obtain ⟨htrick, hbetween⟩ := trick_of_play hcur hlt hvalid hlast hpass hteams hholds hs
  obtain ⟨seat, turn, rfl⟩ := skipFinishedPlayers_frame hs
  refine ⟨fun _ => htrick, fun _ => hholds, fun _ leader hleader => ?_, fun hp => ?_⟩
  · have heq : some leader = some cur := hleader.symm.trans hlast
    cases heq
    exact hbetween.symm
  · have hp' : e.state.phase = .tribute ∨ e.state.phase = .returnTribute := hp
    simp [hphase] at hp'

/-- An accepted play that does not end the round opens the trick anew. -/
theorem TrickInv.playCards {id : PlayerId} {cards : List CardId} (h : TrickInv e passes)
    (hround : RoundInv e log) (hplay : e.playCards id cards = some (e', r)) :
    TrickInv e' (recordPasses passes e (.playCards id cards) (.result r)) := by
  rcases playCards_cases hplay with ⟨rfl, hcode, -⟩ | ⟨seat, pattern, hok, hcode, hrest⟩
  · rw [recordPasses, if_neg hcode]
    exact h
  rw [recordPasses, if_pos hcode]
  have ht := h.trick hok.phase
  have hst := hround.seating.started (by simp [hok.phase])
  have hm := hround.seating.mode.facts
  have hseat : seat < e.state.playerCount := (seatOf_some hok.seated).1
  have heqs := (SeatingInv.quiet_acceptPlay e seat cards pattern).eqs
  have hactive : (e.acceptPlay seat cards pattern).state.active = e.state.active := by
    funext i
    rw [GameState.active, GameState.active, (heqs i).2.2.2.1]
  have hother : ∀ i ≠ seat, (e.acceptPlay seat cards pattern).state.hands i = e.state.hands i := by
    intro i hi
    rw [hands_acceptPlay, Function.update_of_ne hi]
  have hvalid : (e.acceptPlay seat cards pattern).state.lastPattern.isValid = true := hok.valid
  rcases hrest with ⟨hsome, hturn⟩ | ⟨-, hwin, hturn⟩ | ⟨-, -, hfinish⟩
  · refine .of_play (e := e.acceptPlay seat cards pattern) hok.phase hok.turn.symm hseat hvalid rfl
      rfl (fun team => ?_) (fun i hi hact => ?_) hturn
    · obtain ⟨i, hi, hact, hteam⟩ := ht.teams team
      exact ⟨i, hi, by rw [hactive]; exact hact, (heqs i).2.1.trans hteam⟩
    · by_cases heq : i = seat
      · subst heq
        exact hsome
      · rw [hother i heq]
        rw [hactive] at hact
        exact h.holds hok.phase i hi hact
  · have hteam : ∀ i < e.state.playerCount,
        (((e.acceptPlay seat cards pattern).goOut seat).state.players i).team = seatTeam i := by
      intro i hi
      have hsame := sameSeats_assignFinishRank (e.acceptPlay seat cards pattern).state seat
      rw [← hround.seating.team i hi, ← (heqs i).2.1]
      exact (PlayerState.unranked_eq (hsame.players i)).2.2.1
    refine .of_play (e := (e.acceptPlay seat cards pattern).goOut seat) hok.phase hok.turn.symm hseat
      hvalid rfl rfl (teams_of_not_win (hst.full.trans hm.players) hm.perTeam hteam hwin)
      (fun i hi hact => ?_) hturn
    -- whoever is still in had a hand before, and it is not the one that was played
    have hne : i ≠ seat := by
      rintro rfl
      simp [goOut, assignFinishRank, GameState.active] at hact
    have hsame := (sameSeats_assignFinishRank (e.acceptPlay seat cards pattern).state seat).hands
    have hhand : ((e.acceptPlay seat cards pattern).goOut seat).state.hands i =
        e.state.hands i := (congrFun hsame i).trans (hother i hne)
    rw [hhand]
    refine h.holds hok.phase i hi ?_
    rw [← hactive]
    rw [GameState.active, goOut, assignFinishRank, setPlayer_players,
      Function.update_of_ne hne] at hact
    exact hact
  · have hp : e'.state.phase = .finished := by
      have hfin := (finishRound_frame ((e.acceptPlay seat cards pattern).goOut seat)).2.2.2
      rw [hfinish] at hfin
      exact hfin
    exact .of_phase (by simp [hp]) (by simp [hp]) (by simp [hp])

/-- An accepted pass closes the trick, if it is the last one missing, or hands the turn on. -/
theorem TrickInv.pass_outcome {id : PlayerId} (h : TrickInv e passes)
    (hpass : e.pass id = some (e', r)) (hcode : r.code = .ok) :
    ∃ leader seat, e.state.lastPlayedPlayerIndex = some leader ∧ leader < e.state.playerCount ∧
      e.seatOf id = some seat ∧ Trick e'.state ∧ e'.state.active = e.state.active ∧
      e'.state.playerCount = e.state.playerCount ∧
      (((passes ++ [seat]).Perm (e.state.others leader) ∧
          e'.state.lastPlayedPlayerIndex = none ∧
          LeadsNext e.state leader e'.state.currentPlayerIndex) ∨
        (¬ (passes ++ [seat]).Perm (e.state.others leader) ∧
          e'.state.lastPlayedPlayerIndex = some leader ∧
          e'.state.between leader = passes ++ [seat])) := by
  rcases pass_cases hpass with ⟨-, hno⟩ | ⟨seat, s, hphase, hseat, hturn, hvalid, hs, rfl, -⟩
  · exact absurd hcode hno
  subst hturn
  have ht := h.trick hphase
  obtain ⟨leader, hl, hlast⟩ := ht.table.1 hvalid
  rw [h.passed hphase leader hlast]
  have hactive : (e.acceptPass e.state.currentPlayerIndex).active = e.state.active := by
    funext i
    rw [GameState.active, GameState.active, (acceptPass_frame e _).1]
  have hcount := (acceptPass_frame e e.state.currentPlayerIndex).2.1
  refine ⟨leader, _, hlast, hl, hseat, ?_⟩
  rw [ht.passed_perm_iff hvalid hlast hl]
  by_cases hall : (e.state.between leader ++ [e.state.currentPlayerIndex]).length =
      (e.state.others leader).length
  · obtain ⟨hnone, htrick, hnext⟩ :=
      acceptPass_closes ht hvalid hlast hl (h.holds hphase) hall
    rw [skipFinishedPlayers_of_active htrick.unfinished, Option.some.injEq] at hs
    subst hs
    exact ⟨htrick, hactive, hcount, .inl ⟨hall, hnone, hnext⟩⟩
  · obtain ⟨hsome, htrick, hbetween⟩ :=
      acceptPass_continues ht hvalid hlast hl (h.holds hphase) hall
    rw [skipFinishedPlayers_of_active htrick.unfinished, Option.some.injEq] at hs
    subst hs
    exact ⟨htrick, hactive, hcount, .inr ⟨hall, hsome, hbetween⟩⟩

theorem TrickInv.pass {id : PlayerId} (h : TrickInv e passes)
    (hpass : e.pass id = some (e', r)) :
    TrickInv e' (recordPasses passes e (.pass id) (.result r)) := by
  by_cases hcode : r.code = .ok
  swap
  · rcases pass_cases hpass with ⟨rfl, -⟩ | ⟨seat, s, -, -, -, -, -, -, rfl⟩
    · rw [recordPasses, if_neg hcode]
      exact h
    · exact absurd rfl hcode
  obtain ⟨leader, seat, hlast, hl, hseat, htrick, hactive, hcount, hcases⟩ :=
    h.pass_outcome hpass hcode
  have hphase : e.state.phase = .playing := by
    rcases pass_cases hpass with ⟨-, hno⟩ | ⟨_, _, hphase, -⟩
    · exact absurd hcode hno
    · exact hphase
  obtain ⟨hplayers, -, -, hp, -⟩ := pass_frame hpass
  rw [recordPasses, if_pos hcode, hseat, Option.toList_some]
  refine ⟨fun _ => htrick, fun _ => ?_, fun _ j hj => ?_, fun hp' => ?_⟩
  · have hhands : e'.state.hands = e.state.hands := by
      funext i
      rw [GameState.hands, GameState.hands, hplayers]
    rw [hcount, hactive, hhands]
    exact h.holds hphase
  · rcases hcases with ⟨-, hnone, -⟩ | ⟨-, hsome, hbetween⟩
    · rw [hnone] at hj
      cases hj
    · rw [hsome] at hj
      cases hj
      exact hbetween.symm
  · rw [hp, hphase] at hp'
    simp at hp'

/-- A tribute leaves the table clear. -/
theorem TrickInv.submitTribute {id : PlayerId} {cardId : CardId} (h : TrickInv e passes)
    (hph : PhaseInv e log) (hsubmit : e.submitTribute id cardId = some (e', r)) :
    TrickInv e' passes := by
  rcases submitTribute_cases hsubmit with ⟨rfl, -⟩ | ⟨seat, hphase, -, -, -, hvalid, hrest⟩
  · exact h
  obtain ⟨hclear, hclear', hclear''⟩ := h.clear (.inl hphase)
  obtain ⟨hseat, hne, hmem, -⟩ := isValidTributeSubmission_iff.1 hvalid
  rcases hrest with ⟨-, rfl, -⟩ | ⟨hnone, hclose⟩
  · have hp : (e.recordTribute seat cardId).state.phase ≠ .playing := by
      show e.state.phase ≠ _
      simp [hphase]
    exact ⟨fun hp' => absurd hp' hp, fun hp' => absurd hp' hp, fun hp' => absurd hp' hp,
      fun _ => ⟨hclear, hclear', hclear''⟩⟩
  · have hrec := (hph.tribute hphase).toCollecting.record hne hmem hseat
    have hp := (hrec.close hnone hclose).1
    refine ⟨fun hp' => absurd (hp.symm.trans hp') (by simp),
      fun hp' => absurd (hp.symm.trans hp') (by simp),
      fun hp' => absurd (hp.symm.trans hp') (by simp), fun _ => ?_⟩
    obtain ⟨s, result, hassign, ⟨-, hfin⟩ | ⟨-, -, rfl⟩⟩ := closeTributes_cases hclose
    · rw [(finishTributePhase_frame hfin).2.2.2] at hp
      cases hp
    · obtain ⟨-, -, rfl, -⟩ := assignTributes_cases hassign
      exact ⟨hclear, hclear', hclear''⟩

/-- A return leaves the table clear. -/
theorem TrickInv.submitReturn {id : PlayerId} {cardId : CardId} (h : TrickInv e passes)
    (hsubmit : e.submitReturn id cardId = some (e', r)) : TrickInv e' passes := by
  rcases submitReturn_cases hsubmit with ⟨rfl, -⟩ | ⟨seat, hphase, -, -, -, -, rfl, -⟩
  · exact h
  obtain ⟨hclear, hclear', hclear''⟩ := h.clear (.inr hphase)
  have hstate := recordReturn_state e seat cardId
  have hp : (e.recordReturn seat cardId).state.phase ≠ .playing := by
    rw [(SeatingInv.quiet_recordReturn e seat cardId).2]
    simp [hphase]
  refine ⟨fun hp' => absurd hp' hp, fun hp' => absurd hp' hp, fun hp' => absurd hp' hp, fun _ => ?_⟩
  rw [hstate]
  exact ⟨hclear, hclear', hclear''⟩

/-- A round that begins with tribute leaves the table clear. -/
theorem TrickInv.startNextRound {σ : Shuffle} {e₁ : GameEngine}
    (hdeal : e.dealRound σ = some e₁) (htribute : e₁.startTribute = some e')
    (hto : e'.state.phase ≠ .playing) : TrickInv e' passes := by
  refine ⟨fun hp => absurd hp hto, fun hp => absurd hp hto, fun hp => absurd hp hto, fun _ => ?_⟩
  obtain ⟨hands, -, rfl⟩ := dealRound_cases hdeal
  obtain ⟨plan, -, ⟨result, -, rfl⟩ | ⟨-, -, rfl⟩⟩ := startTribute_cases htribute
  · exact absurd rfl hto
  · exact ⟨rfl, rfl, rfl⟩

theorem TrickInv.step (h : TrickInv e passes) (hround : RoundInv e log) (hph : PhaseInv e log)
    (hok : CalledOp e op) (hstep : engine.step e op = some (e', out)) :
    TrickInv e' (recordPasses passes e op out) := by
  have hround' := hround.step hok hstep
  by_cases hbegin : e.state.phase ≠ .playing ∧ e'.state.phase = .playing
  · obtain ⟨hun, hseat⟩ := h.begins hround hph hround' hok
      (hph.beginsPlay hstep hbegin.1 hbegin.2) hbegin.2
    have hst := hround'.seating.started (by simp [hbegin.2])
    have hcount : 4 ≤ e'.state.playerCount := by
      rw [hst.full]
      exact hround'.seating.mode.facts.playerCount_pos
    refine ⟨fun _ => hun.trick hcount hround'.seating.team hseat, fun _ i hi _ => hun.holds i hi,
      fun _ leader hleader => ?_, fun _ => hun.clear⟩
    rw [hun.clear.player] at hleader
    cases hleader
  cases engine_step hstep with
  | init hinit =>
    unfold GameEngine.init at hinit
    split_ifs at hinit
    cases hinit
    exact .of_phase (by simp) (by simp) (by simp)
  | setPlayerReady id ready => exact h.setPlayerReady id ready
  | updateConfig config =>
    unfold updateConfig
    split_ifs
    · exact h
    · exact ⟨h.trick, h.holds, h.passed, h.clear⟩
  | startGame hstart =>
    rcases startGame_cases hstart with ⟨rfl, -⟩ | ⟨hphase, -, -, e₁, -, rfl⟩
    · exact h
    · refine absurd ⟨?_, rfl⟩ hbegin
      rcases hphase with hp | hp <;> simp [hp]
  | startGameThrew σ hnone =>
    have hsome := hround.seating.startGame_isSome σ
    rw [hnone] at hsome
    cases hsome
  | startNextRound hstart =>
    rcases startNextRound_cases hstart with ⟨rfl, -⟩ | ⟨hphase, -, e₁, hdeal, htribute⟩
    · exact h
    · exact .startNextRound hdeal htribute fun hto => hbegin ⟨by simp [hphase], hto⟩
  | startNextRoundThrew σ hnone =>
    have hsome := hround.startNextRound_isSome σ
    rw [hnone] at hsome
    cases hsome
  | playCards hplay => exact h.playCards hround hplay
  | pass hpass => exact h.pass hpass
  | submitTribute hsubmit => exact h.submitTribute hph hsubmit
  | submitReturn hsubmit => exact h.submitReturn hsubmit
  | finalizeTributePhase hfin =>
    have hphase := phase_of_pending (e := e) hok
    refine absurd ⟨?_, (finishTributePhase_frame hfin).2.2.2⟩ hbegin
    rcases hphase with hp | hp <;> simp [hp]
  | buildViewFor _ => exact h

/-! ### Every play and every pass is answered -/

theorem passTurnOn_isSome (hcur : e.state.currentPlayerIndex < e.state.playerCount)
    (hact : ∃ i < e.state.playerCount, e.state.active i = true) : e.passTurnOn.isSome := by
  obtain ⟨i, hi, hact⟩ := hact
  have hsome : e.state.advanceTurn.skipFinishedPlayers ≠ none := by
    intro hnone
    have hcur' : e.state.advanceTurn.currentPlayerIndex < e.state.advanceTurn.playerCount :=
      nextActivePlayer_lt hcur
    have hout := (skipFinishedPlayers_eq_none hcur').1 hnone i hi
    have hout' : e.state.active i = false := hout
    rw [hact] at hout'
    cases hout'
  obtain ⟨s, hs⟩ := Option.ne_none_iff_exists'.1 hsome
  simp [passTurnOn, hs]

/-- The cards of a hand can be looked up. -/
theorem checkPlay_isSome (hknown : e.state.KnownHands) (id : PlayerId) (cards : List CardId) :
    (e.checkPlay id cards).isSome := by
  unfold checkPlay
  split_ifs
  · rfl
  rcases hseat : e.seatOf id with _ | seat <;> dsimp only
  · rfl
  split_ifs with hturn hfin hhand
  · rfl
  · rfl
  · rfl
  have hcards : (e.state.cardsFromIds cards).isSome := by
    refine mapM_isSome fun cardId hmem => hknown seat (seatOf_some hseat).1 cardId ?_
    have hheld : ∀ cardId ∈ cards, cardId ∈ (e.state.players seat).hand.cards := by
      simpa using hhand
    exact hheld cardId hmem
  obtain ⟨objs, hobjs⟩ := Option.isSome_iff_exists.1 hcards
  rw [hobjs]
  simp only [Option.bind_eq_bind, Option.bind_some]
  split_ifs <;> rfl

theorem TrickInv.playCards_isSome (h : TrickInv e passes) (hround : RoundInv e log)
    (hphase : e.state.phase = .playing) (id : PlayerId) (cards : List CardId) :
    (e.playCards id cards).isSome := by
  have ht := h.trick hphase
  obtain ⟨checked, hchecked⟩ := Option.isSome_iff_exists.1
    (checkPlay_isSome (hround.knownHands (by simp [hphase])) id cards)
  unfold GameEngine.playCards
  rw [hchecked]
  rcases checked with code | ⟨seat, pattern⟩
  · rfl
  have hok := checkPlay_ok hchecked
  have heqs := (SeatingInv.quiet_acceptPlay e seat cards pattern).eqs
  have hturn : (e.acceptPlay seat cards pattern).passTurnOn.isSome := by
    refine passTurnOn_isSome ht.seat ⟨e.state.currentPlayerIndex, ht.seat, ?_⟩
    rw [GameState.active, (heqs _).2.2.2.1]
    exact ht.unfinished
  simp only [Option.bind_eq_bind, Option.bind_some]
  split_ifs with hempty hwin
  · rfl
  · -- somebody of the other team at least is still in
    have hst := hround.seating.started (by simp [hphase])
    have hm := hround.seating.mode.facts
    have hsame := sameSeats_assignFinishRank (e.acceptPlay seat cards pattern).state seat
    have hteams := teams_of_not_win
      (s := (e.acceptPlay seat cards pattern).state.assignFinishRank seat)
      (hst.full.trans hm.players) hm.perTeam (fun i hi => by
        rw [← hround.seating.team i hi, ← (heqs i).2.1]
        exact (PlayerState.unranked_eq (hsame.players i)).2.2.1) (eq_false_of_ne_true hwin)
    obtain ⟨i, hi, hact, -⟩ := hteams 0
    exact passTurnOn_isSome (e := (e.acceptPlay seat cards pattern).goOut seat) ht.seat ⟨i, hi, hact⟩
  · exact hturn

theorem TrickInv.pass_isSome (h : TrickInv e passes) (hphase : e.state.phase = .playing)
    (id : PlayerId) : (e.pass id).isSome := by
  have ht := h.trick hphase
  unfold GameEngine.pass
  rw [if_neg (not_not_intro hphase)]
  rcases hseat : e.seatOf id with _ | seat <;> dsimp only
  · rfl
  split_ifs with hturn hvalid
  · rfl
  · rfl
  have hturn' : seat = e.state.currentPlayerIndex := not_not.1 hturn
  have hvalid' : e.state.lastPattern.isValid = true := by simpa using hvalid
  subst hturn'
  obtain ⟨leader, hl, hlast⟩ := ht.table.1 hvalid'
  have htrick : Trick (e.acceptPass e.state.currentPlayerIndex) := by
    by_cases hall : (e.state.between leader ++ [e.state.currentPlayerIndex]).length =
        (e.state.others leader).length
    · exact (acceptPass_closes ht hvalid' hlast hl (h.holds hphase) hall).2.1
    · exact (acceptPass_continues ht hvalid' hlast hl (h.holds hphase) hall).2.1
  rw [skipFinishedPlayers_of_active htrick.unfinished]
  rfl

/-! ### Along a run -/

theorem trickInv_reachable {mode : String} {sgp : (GameEngine × RoundLog) × List Nat}
    (h : trickEngine.Reachable (fun sgp => CalledOp sgp.1.1) (newEngine mode, []) sgp) :
    TrickInv sgp.1.1 sgp.2 ∧ RoundInv sgp.1.1 sgp.1.2 ∧ PhaseInv sgp.1.1 sgp.1.2 := by
  refine h.invariant (P := fun sgp => TrickInv sgp.1.1 sgp.2 ∧ RoundInv sgp.1.1 sgp.1.2 ∧
    PhaseInv sgp.1.1 sgp.1.2) ⟨?_, roundInv_newEngine mode, phaseInv_newEngine mode⟩ ?_
  · exact .of_phase (by simp [newEngine, GameEngine.new]) (by simp [newEngine, GameEngine.new])
      (by simp [newEngine, GameEngine.new])
  · rintro sgp op sgp' out ⟨htrick, hround, hph⟩ hok hstep
    obtain ⟨hlogged, hpasses⟩ := Machine.withHistory_step.1 hstep
    obtain ⟨happly, hlog⟩ := Machine.withHistory_step.1 hlogged
    rw [hpasses, hlog]
    exact ⟨htrick.step hround hph hok happly, hround.step hok happly, hph.step hround happly⟩

/-- In every state of play that an engine of a mode reaches while the tribute phase is finalized only when
it is on (`CalledOp`): the turn and the table form a `Trick`; plays and passes are answered; a play
never closes the trick; and a pass closes it exactly when with it every other unfinished player has
passed once, the lead going to the last player to have played or to the first unfinished teammate. -/
theorem trick_protocol (mode : String) (sgp : (GameEngine × RoundLog) × List Nat)
    (h : trickEngine.Reachable (fun sgp => CalledOp sgp.1.1) (newEngine mode, []) sgp)
    (hplaying : sgp.1.1.state.phase = .playing) :
    Trick sgp.1.1.state ∧
    (∀ id cards, (sgp.1.1.playCards id cards).isSome) ∧
    (∀ id, (sgp.1.1.pass id).isSome) ∧
    (∀ id cards e' r, sgp.1.1.playCards id cards = some (e', r) → r.code = .ok →
      e'.state.phase = .playing → e'.state.lastPattern.isValid = true ∧
        e'.state.lastPlayedPlayerIndex = sgp.1.1.seatOf id) ∧
    ∀ id e' r, sgp.1.1.pass id = some (e', r) → r.code = .ok → ∃ leader seat,
      sgp.1.1.state.lastPlayedPlayerIndex = some leader ∧ sgp.1.1.seatOf id = some seat ∧
      (e'.state.lastPattern.isValid = false ↔
        (sgp.2 ++ [seat]).Perm (sgp.1.1.state.others leader)) ∧
      (e'.state.lastPattern.isValid = false →
        LeadsNext sgp.1.1.state leader e'.state.currentPlayerIndex) := by
  obtain ⟨htrick, hround, -⟩ := trickInv_reachable h
  refine ⟨htrick.trick hplaying, htrick.playCards_isSome hround hplaying,
    htrick.pass_isSome hplaying, fun id cards e' r hplay hcode hp => ?_,
    fun id e' r hpass hcode => ?_⟩
  · rcases playCards_cases hplay with ⟨-, hno, -⟩ | ⟨seat, pattern, hok, -, hrest⟩
    · exact absurd hcode hno
    rw [hok.seated]
    rcases hrest with ⟨-, hturn⟩ | ⟨-, -, hturn⟩ | ⟨-, -, hfinish⟩
    · obtain ⟨i, turn, rfl⟩ := passTurnOn_frame hturn
      exact ⟨hok.valid, rfl⟩
    · obtain ⟨i, turn, rfl⟩ := passTurnOn_frame hturn
      exact ⟨hok.valid, rfl⟩
    · have hfin := (finishRound_frame ((sgp.1.1.acceptPlay seat cards pattern).goOut seat)).2.2.2
      rw [hfinish, hp] at hfin
      cases hfin
  · obtain ⟨leader, seat, hlast, hl, hseat, htrick', -, hcount, hcases⟩ :=
      htrick.pass_outcome hpass hcode
    refine ⟨leader, seat, hlast, hseat, ?_⟩
    rcases hcases with ⟨hperm, hnone, hnext⟩ | ⟨hperm, hsome, -⟩
    · have hinvalid : e'.state.lastPattern.isValid = false := by
        refine eq_false_of_ne_true fun hv => ?_
        obtain ⟨j, -, hj⟩ := htrick'.table.1 hv
        rw [hnone] at hj
        cases hj
      exact ⟨iff_of_true hinvalid hperm, fun _ => hnext⟩
    · have hvalid : e'.state.lastPattern.isValid = true :=
        htrick'.table.2 ⟨leader, hcount.symm ▸ hl, hsome⟩
      exact ⟨iff_of_false (by simp [hvalid]) hperm, fun hno => by simp [hvalid] at hno⟩

theorem trick_protocol_soloPair : ∃ sgp,
    trickEngine.run (newEngine "solo", [])
      (startSolo (Shuffle.stack [1, 14]) ++ [.playCards 1 [1, 14], .pass 2]) = some sgp ∧
    Trick sgp.1.1.state ∧ sgp.1.1.state.passCount = 1 := by
  have hok : trickEngine.Follows (fun sgp => CalledOp sgp.1.1) (newEngine "solo", [])
      (startSolo (Shuffle.stack [1, 14]) ++ [.playCards 1 [1, 14], .pass 2]) :=
    .of_forall (by simp [startSolo, CalledOp])
  obtain ⟨sgp, hrun, hphase, hcount⟩ := Machine.exists_run_of_any
    (M := trickEngine) (s := (newEngine "solo", []))
    (P := fun sgp => sgp.1.1.state.phase = .playing ∧ sgp.1.1.state.passCount = 1)
    (l := startSolo (Shuffle.stack [1, 14]) ++ [.playCards 1 [1, 14], .pass 2])
    (by decide +kernel)
  exact ⟨sgp, hrun, (trick_protocol "solo" sgp (Machine.reachable_of_run hok hrun) hphase).1,
    hcount⟩

/-- A pair is led, and the tribute phase is finalized in the middle of the trick. -/
def finalizedInTrick : List EngineOp :=
  startSolo (Shuffle.stack [1, 14]) ++ [.playCards 1 [1, 14], .finalizeTributePhase]

/-- The turn is then the leader's again. -/
theorem leader_on_turn_again :
    ¬ ∀ (mode : String) (ops : List EngineOp),
      trickEngine.Follows (fun sgp => ModeOp sgp.1.1) (newEngine mode, []) ops →
        trickEngine.Always (fun sgp => sgp.1.1.state.phase = .playing → Trick sgp.1.1.state)
          (newEngine mode, []) ops := by
  intro h
  have hok : trickEngine.Follows (fun sgp => ModeOp sgp.1.1) (newEngine "solo", [])
      finalizedInTrick := .of_forall (by simp [finalizedInTrick, startSolo, ModeOp])
  obtain ⟨sgp, hrun, hphase, hvalid, hleader, hturn⟩ := Machine.exists_run_of_any
    (M := trickEngine) (s := (newEngine "solo", []))
    (P := fun sgp => sgp.1.1.state.phase = .playing ∧ sgp.1.1.state.lastPattern.isValid = true ∧
      sgp.1.1.state.lastPlayedPlayerIndex = some 0 ∧ sgp.1.1.state.currentPlayerIndex = 0)
    (l := finalizedInTrick) (by decide +kernel)
  have htrick := (h _ _ hok).of_run hrun hphase
  exact (htrick.open_trick hvalid 0 hleader).1 hturn

end Guandan
