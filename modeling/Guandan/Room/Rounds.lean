import Guandan.Engine.Course
import Guandan.Room.Members

/-!
# Rounds of a room

A room and its engine are in corresponding phases (`RoomInv`), so a round starts whenever the room
asks for one: `startGame` for everybody ready at a full table, with the members on the engine's
seats, and `startNextRound` for everybody ready in the settlement, with the engine's seats as they
are.
-/

namespace Guandan

open GameState GameEngine

/-- The phases of the engine that go with a phase of the room. -/
def RoomPhase.Matches : RoomPhase → GamePhase → Prop
  | .created, _ => False
  | .waiting, g => g = .waiting
  | .playing, g => g = .playing ∨ g = .tribute ∨ g = .returnTribute
  | .settlement, g => g = .finished
  | .finished, g => g = .finished

namespace Room

structure RoomInv (r : Room) : Prop where
  members : Members r
  config : ∃ mode enabled, r.config = { RoomConfig.fromModeName mode with enableTribute := enabled }
  rules : r.engine.config = toGameRuleConfig r.config
  reached : Reached r.engine
  phase : r.phase.Matches r.engine.state.phase

variable {r r' : Room} {σ : Shuffle}

theorem isModeConfig {config : RoomConfig}
    (h : ∃ mode enabled, config = { RoomConfig.fromModeName mode with enableTribute := enabled }) :
    IsModeConfig (toGameRuleConfig config) := by
  obtain ⟨mode, enabled, rfl⟩ := h
  exact ⟨mode, enabled, rfl⟩

namespace RoomInv

theorem facts (h : RoomInv r) : ModeFacts (toGameRuleConfig r.config) := (isModeConfig h.config).facts

theorem maxPlayers_le (h : RoomInv r) : r.config.maxPlayers ≤ kPlayerCount := h.facts.playerCount_le

/-- Once a match has started the engine has as many seats as the room. -/
theorem playerCount (h : RoomInv r) (hphase : r.engine.state.phase ≠ .waiting) :
    r.engine.state.playerCount = r.config.maxPlayers := by
  obtain ⟨log, passes, hfacts⟩ := h.reached.facts
  rw [(hfacts.round.seating.started hphase).full, h.rules]
  rfl

/-- The room goes on with an engine that calls of the match have made of its own. -/
theorem course {e : GameEngine} (h : RoomInv r) (hcourse : Course r.engine e) {phase : RoomPhase}
    (hphase : phase.Matches e.state.phase) :
    RoomInv { r with engine := e, phase := phase } :=
  ⟨⟨h.members.ids, h.members.seats, h.members.seat_lt, h.members.id_ne, h.members.bots⟩, h.config,
    hcourse.samePeople.config.trans h.rules, hcourse.reached h.reached, hphase⟩

end RoomInv

/-! ### Getting ready -/

/-- The engine once these players are marked ready, or not. -/
def readied (e : GameEngine) (ps : List RoomPlayer) (flag : RoomPlayer → Bool) : GameEngine :=
  ps.foldl (fun e p => e.setPlayerReady p.id (flag p)) e

theorem readied_course (e : GameEngine) (ps : List RoomPlayer) (flag : RoomPlayer → Bool) :
    Course e (readied e ps flag) ∧ (readied e ps flag).state.phase = e.state.phase := by
  induction ps generalizing e with
  | nil => exact ⟨.refl e, rfl⟩
  | cons p ps ih =>
    obtain ⟨hcourse, hphase⟩ := ih (e.setPlayerReady p.id (flag p))
    exact ⟨(Course.setPlayerReady e p.id (flag p)).trans hcourse,
      hphase.trans (setPlayerReady_frame e p.id (flag p)).2.2.1⟩

theorem getPlayerById_congr {s s' : GameState} (h : ∀ i, (s'.players i).id = (s.players i).id)
    (id : PlayerId) : s'.getPlayerById id = s.getPlayerById id := by
  unfold getPlayerById
  congr 1
  funext i
  rw [h i]

theorem setPlayerReady_isReady {e : GameEngine} {i : Nat} (id : PlayerId)
    (h : (e.state.players i).isReady = true ∨ e.state.getPlayerById id = some i) :
    ((e.setPlayerReady id true).state.players i).isReady = true := by
  unfold GameEngine.setPlayerReady
  rcases hseat : e.state.getPlayerById id with _ | seat
  · rw [hseat] at h
    exact h.resolve_right nofun
  · by_cases hi : i = seat
    · subst hi
      simp
    · rw [hseat] at h
      have hready := h.resolve_right fun heq => hi (Option.some.inj heq).symm
      simp [hi, hready]

/-- Everybody in the list is ready in the end, and who was ready stays so. -/
theorem readied_isReady {e : GameEngine} {ps : List RoomPlayer} {i : Nat}
    (h : (e.state.players i).isReady = true ∨
      ∃ p ∈ ps, e.state.getPlayerById p.id = some i) :
    ((readied e ps fun _ => true).state.players i).isReady = true := by
  induction ps generalizing e with
  | nil => exact h.resolve_right (by simp)
  | cons p ps ih =>
    refine ih ?_
    rw [List.exists_mem_cons_iff, ← or_assoc] at h
    rcases h with h | ⟨q, hq, hseat⟩
    · exact .inl (setPlayerReady_isReady p.id h)
    · refine .inr ⟨q, hq, ?_⟩
      rw [getPlayerById_congr (SamePeople.setPlayerReady e p.id true).ids]
      exact hseat

/-! ### Starting a match -/

/-- At a table of different players everybody is found. -/
theorem getPlayerById_seated (e : GameEngine) (roomId : RoomId) {ids : List PlayerId}
    (hlen : ids.length ≤ kPlayerCount) (hnodup : ids.Nodup) {i : Nat} (hi : i < ids.length) :
    (e.seated roomId ids).state.getPlayerById ids[i] = some i := by
  have hid : ∀ {j}, (hj : j < ids.length) → (seatPlayer ids j).id = ids[j] := by
    intro j hj
    simp [seatPlayer, hj]
  unfold getPlayerById
  rw [List.find?_range_eq_some]
  refine ⟨by simp [seated, hid hi], List.mem_range.2 (by omega), fun j hj => ?_⟩
  have hj' : j < ids.length := by omega
  simp only [seated, Bool.not_eq_true', beq_eq_false_iff_ne, ne_eq, hid hj']
  exact fun heq => absurd (hnodup.getElem_inj_iff.1 heq) (by omega)

/-- At a full table the ids by seat are different. -/
theorem Members.nodup_seatIds (h : Members r) (hfull : r.isFull = true) : r.seatIds.Nodup := by
  obtain ⟨hlen, hget⟩ := h.seatIds
  rw [List.nodup_iff_injective_getElem]
  rintro ⟨i, hi⟩ ⟨j, hj⟩ heq
  obtain ⟨p, hp, rfl⟩ := h.seated_of_full hfull (hlen ▸ hi)
  obtain ⟨q, hq, rfl⟩ := h.seated_of_full hfull (hlen ▸ hj)
  have hpid := hget p hp
  have hqid := hget q hq
  rw [List.getElem?_eq_getElem hi, Option.some.injEq] at hpid
  rw [List.getElem?_eq_getElem hj, Option.some.injEq] at hqid
  dsimp only at heq
  have hpq : p = q := List.inj_on_of_nodup_map h.ids hp hq (by rw [← hpid, ← hqid, heq])
  rw [Fin.mk.injEq, hpq]

/-- A waiting engine whose players are all ready starts. -/
theorem startGame_code {e e' : GameEngine} {result : PlayResult}
    (hstart : e.startGame σ = some (e', result)) (hphase : e.state.phase = .waiting)
    (hready : e.allReady = true) : result.code = .ok := by
  unfold GameEngine.startGame at hstart
  rw [if_neg (by simp [hphase]), if_neg (by simp [hready])] at hstart
  simp only [dealAndStartPlaying, Option.bind_eq_bind, Option.bind_eq_some_iff, Option.pure_def,
    Bool.false_eq_true, if_false, Option.some.injEq, Prod.mk.injEq] at hstart
  obtain ⟨e₁, -, -, rfl⟩ := hstart
  rfl

/-- The engine with the members of the room on its seats, all ready. -/
def seatedEngine (r : Room) : GameEngine :=
  readied (r.engine.seated r.roomId r.seatIds) r.players fun _ => true

namespace RoomInv

theorem seatedEngine_spec (h : RoomInv r) (hfull : r.isFull = true) :
    r.engine.init r.roomId r.seatIds = some (r.engine.seated r.roomId r.seatIds) ∧
      Reached r.seatedEngine ∧ r.seatedEngine.config = r.engine.config ∧
      r.seatedEngine.state.phase = .waiting ∧ r.seatedEngine.allReady = true ∧
      ∀ p ∈ r.players, (r.seatedEngine.state.players p.seatIndex).id = p.id := by
  obtain ⟨hlen, hget⟩ := h.members.seatIds
  have hle : r.seatIds.length ≤ kPlayerCount := hlen ▸ h.maxPlayers_le
  obtain ⟨hcourse, hphase⟩ :=
    readied_course (r.engine.seated r.roomId r.seatIds) r.players fun _ => true
  have hsame := hcourse.samePeople
  have hcount : r.seatedEngine.state.playerCount = r.seatIds.length := hsame.playerCount
  have hconfig : r.seatedEngine.config = r.engine.config := hsame.config
  have hstart : Reached (r.engine.seated r.roomId r.seatIds) :=
    h.reached.step (show CompleteOp _ (.init r.roomId r.seatIds) from trivial)
      (step_init r.engine r.roomId hle)
  refine ⟨init_eq_seated r.engine r.roomId hle, hcourse.reached hstart, hconfig, hphase, ?_,
    fun p hp => ?_⟩
  · rw [GameEngine.allReady, Bool.and_eq_true, List.all_eq_true, beq_iff_eq, hcount]
    refine ⟨fun i hi => ?_, ?_⟩
    · have hi' : i < r.seatIds.length := List.mem_range.1 hi
      obtain ⟨p, hp, rfl⟩ := h.members.seated_of_full hfull (hlen ▸ hi')
      have hpid := hget p hp
      rw [List.getElem?_eq_getElem hi', Option.some.injEq] at hpid
      refine readied_isReady (.inr ⟨p, hp, ?_⟩)
      rw [← hpid]
      exact getPlayerById_seated r.engine r.roomId hle (h.members.nodup_seatIds hfull) hi'
    · rw [hconfig, hlen, h.rules]
      rfl
  · refine (hsame.ids p.seatIndex).trans ?_
    show (seatPlayer r.seatIds p.seatIndex).id = p.id
    rw [seatPlayer, hget p hp]

/-- A match starts exactly when the table is full and everybody is ready: then the members sit on
the engine's seats, and play begins. Else nothing changes. -/
theorem startGame_spec (h : RoomInv r) (σ : Shuffle) :
    (r.allReady = false ∧ r.startGame σ = some (r, false)) ∨
    (r.allReady = true ∧ ∃ e, r.startGame σ = some ({ r with engine := e, phase := .playing }, true) ∧
      RoomInv { r with engine := e, phase := .playing } ∧ e.state.phase = .playing ∧
      ∀ p ∈ r.players, (e.state.players p.seatIndex).id = p.id) := by
  unfold Room.startGame
  by_cases hfull : r.isFull = true
  swap
  · refine .inl ⟨by simp [Room.allReady, hfull], ?_⟩
    simp [hfull]
  by_cases hready : r.players.all (·.isReady) = true
  swap
  · refine .inl ⟨by simp [Room.allReady, hready], ?_⟩
    rw [hfull, if_neg (by simp), if_pos]
    simpa using hready
  right
  obtain ⟨hinit, hreached, hconfig, hphase, hall, hids⟩ := h.seatedEngine_spec hfull
  refine ⟨by simp [Room.allReady, hfull, hready], ?_⟩
  have hseats : (r.players.any fun p => r.config.maxPlayers ≤ p.seatIndex) = false := by
    simpa using h.members.seat_lt
  have hzero : r.seatIds.contains 0 = false := by
    rw [List.contains_eq_mem, decide_eq_false_iff_not, h.members.mem_seatIds hfull]
    rintro ⟨p, hp, hid⟩
    exact h.members.id_ne p hp hid
  obtain ⟨log, passes, hfacts⟩ := hreached.facts
  obtain ⟨⟨e, result⟩, hstart⟩ :=
    Option.isSome_iff_exists.1 (hfacts.round.seating.startGame_isSome σ)
  have hcourse := Course.startGame hstart
  obtain ⟨hcode, hplaying⟩ : result.code = .ok ∧ e.state.phase = .playing := by
    rcases startGame_cases hstart with ⟨rfl, hcode⟩ | ⟨-, -, rfl, e₁, -, rfl⟩
    · exact absurd (startGame_code hstart hphase hall) hcode
    · exact ⟨rfl, rfl⟩
  refine ⟨e, ?_, ?_, hplaying, fun p hp => (hcourse.samePeople.ids _).trans (hids p hp)⟩
  · rw [hfull, if_neg (by simp), if_neg (by simpa using hready), hseats, if_neg (by simp), hzero,
      if_neg (by simp), hinit]
    show (r.seatedEngine.startGame σ).bind _ = _
    rw [hstart]
    simp [hcode]
  · exact ⟨⟨h.members.ids, h.members.seats, h.members.seat_lt, h.members.id_ne, h.members.bots⟩,
      h.config, hcourse.samePeople.config.trans (hconfig.trans h.rules), hcourse.reached hreached,
      .inl hplaying⟩

/-! ### The next round -/

/-- The next round starts exactly in the settlement, with a full table and everybody ready: by calls
of the match. Else nothing changes. -/
theorem startNextRound_spec (h : RoomInv r) (σ : Shuffle) :
    ((r.phase ≠ .settlement ∨ r.allReady = false) ∧ r.startNextRound σ = some (r, false)) ∨
    (r.phase = .settlement ∧ r.allReady = true ∧ ∃ e,
      r.startNextRound σ = some ({ r with engine := e, phase := .playing }, true) ∧
      Course r.engine e ∧ (e.state.phase = .playing ∨ e.state.phase = .tribute) ∧
      RoomInv { r with engine := e, phase := .playing }) := by
  unfold Room.startNextRound
  by_cases hphase : r.phase = .settlement
  swap
  · exact .inl ⟨.inl hphase, if_pos hphase⟩
  rw [if_neg (not_not_intro hphase)]
  by_cases hready : r.allReady = true
  swap
  · refine .inl ⟨.inr (eq_false_of_ne_true hready), ?_⟩
    rw [if_pos (by simpa using hready)]
  refine .inr ⟨hphase, hready, ?_⟩
  have hfinished : r.engine.state.phase = .finished := by
    have hmatch := h.phase
    rwa [hphase] at hmatch
  obtain ⟨log, passes, hfacts⟩ := h.reached.facts
  obtain ⟨⟨e, result⟩, hstart⟩ := Option.isSome_iff_exists.1 (hfacts.round.startNextRound_isSome σ)
  have hcourse := Course.startNextRound hstart
  have hstarted : result.code = .ok ∧
      (e.state.phase = .playing ∨ e.state.phase = .tribute) := by
    rcases startNextRound_cases hstart with ⟨rfl, hcode⟩ | ⟨-, rfl, e₁, -, htribute⟩
    · unfold GameEngine.startNextRound at hstart
      rw [if_neg (not_not_intro hfinished)] at hstart
      simp only [dealAndStartPlaying, Option.bind_eq_bind, Option.bind_eq_some_iff, Option.pure_def,
        if_true, Option.some.injEq, Prod.mk.injEq] at hstart
      obtain ⟨-, -, -, -, -, rfl⟩ := hstart
      exact absurd rfl hcode
    · obtain ⟨plan, -, ⟨_, -, rfl⟩ | ⟨-, -, rfl⟩⟩ := startTribute_cases htribute
      · exact ⟨rfl, .inl rfl⟩
      · exact ⟨rfl, .inr rfl⟩
  refine ⟨e, ?_, hcourse, hstarted.2, h.course hcourse ?_⟩
  · rw [hready, if_neg (by simp), hstart]
    simp [hstarted.1]
  · rcases hstarted.2 with hp | hp
    · exact .inl hp
    · exact .inr (.inl hp)

/-- The settlement takes the people's readiness back. -/
theorem enterSettlement (h : RoomInv r) (hphase : r.engine.state.phase = .finished) :
    RoomInv r.enterSettlement ∧ Course r.engine r.enterSettlement.engine := by
  obtain ⟨hcourse, hkept⟩ := readied_course r.engine r.players (·.isBot)
  refine ⟨⟨?_, h.config, hcourse.samePeople.config.trans h.rules, hcourse.reached h.reached, ?_⟩,
    hcourse⟩
  · exact h.members.of_map (g := fun p => { p with isReady := p.isBot }) rfl rfl
      fun _ => ⟨rfl, rfl, rfl⟩
  · exact hkept.trans hphase

theorem finishMatch (h : RoomInv r) (hphase : r.engine.state.phase = .finished) :
    RoomInv r.finishMatch :=
  ⟨⟨h.members.ids, h.members.seats, h.members.seat_lt, h.members.id_ne, h.members.bots⟩, h.config,
    h.rules, h.reached, hphase⟩

/-! ### Coming, going and getting ready -/

theorem join {id : PlayerId} (h : RoomInv r) (hne : id ≠ 0) (hjoin : r.join id = some r') :
    RoomInv r' := by
  obtain ⟨hmembers, hconfig, hengine, hphase⟩ := h.members.join hne hjoin
  exact ⟨hmembers, hconfig ▸ h.config, by rw [hengine, hconfig, h.rules], hengine ▸ h.reached,
    by rw [hphase, hengine]; exact h.phase⟩

theorem leave (h : RoomInv r) (id : PlayerId) : RoomInv (r.leave id) := by
  have hmembers := h.members.leave id
  unfold Room.leave at hmembers ⊢
  split_ifs at hmembers ⊢
  · exact h
  · exact ⟨hmembers, h.config, h.rules, h.reached, h.phase⟩

theorem ready {id : PlayerId} (h : RoomInv r) (hready : r.ready id = some r') :
    RoomInv r' ∧ Course r.engine r'.engine ∧ r'.phase = r.phase := by
  have hmembers := h.members.ready hready
  unfold Room.ready at hready
  split_ifs at hready
  rw [Option.map_eq_some_iff] at hready
  obtain ⟨p, -, rfl⟩ := hready
  dsimp only
  split_ifs at hmembers ⊢
  · exact ⟨⟨hmembers, h.config, h.rules, h.reached, h.phase⟩, .refl _, rfl⟩
  · have hcourse := Course.setPlayerReady r.engine id true
    have hphase := (setPlayerReady_frame r.engine id true).2.2.1
    refine ⟨⟨hmembers, h.config, hcourse.samePeople.config.trans h.rules,
      hcourse.reached h.reached, ?_⟩, hcourse, rfl⟩
    exact hphase.symm ▸ h.phase

theorem unready {id : PlayerId} (h : RoomInv r) (hunready : r.unready id = some r') :
    RoomInv r' ∧ r'.engine = r.engine ∧ r'.phase = r.phase := by
  have hmembers := h.members.unready hunready
  unfold Room.unready at hunready
  split_ifs at hunready
  rw [Option.map_eq_some_iff] at hunready
  obtain ⟨p, -, rfl⟩ := hunready
  exact ⟨⟨hmembers, h.config, h.rules, h.reached, h.phase⟩, rfl, rfl⟩

theorem changeSeat {id : PlayerId} {seat : Int} (h : RoomInv r)
    (hchange : r.changeSeat id seat = some r') :
    RoomInv r' ∧ r.phase = .waiting ∧ r'.phase = .waiting := by
  have hmembers := h.members.changeSeat hchange
  unfold Room.changeSeat at hchange
  split_ifs at hchange with hphase
  rw [Option.map_eq_some_iff] at hchange
  obtain ⟨p, -, rfl⟩ := hchange
  exact ⟨⟨hmembers, h.config, h.rules, h.reached, h.phase⟩, not_not.1 hphase, not_not.1 hphase⟩

theorem setEnableTribute {id : PlayerId} {enabled : Bool} (h : RoomInv r)
    (hset : r.setEnableTribute id enabled = some r') :
    RoomInv r' ∧ r.phase = .waiting ∧ r'.phase = .waiting := by
  unfold Room.setEnableTribute at hset
  split_ifs at hset with hphase
  cases hset
  have hwait : r.phase = .waiting := not_not.1 hphase
  obtain ⟨mode, old, hconfig⟩ := h.config
  have hnew : ∃ mode enabled', { r.config with enableTribute := enabled } =
      { RoomConfig.fromModeName mode with enableTribute := enabled' } :=
    ⟨mode, enabled, by rw [hconfig]⟩
  have hengine : r.engine.state.phase = .waiting := by
    have hmatch := h.phase
    rwa [hwait] at hmatch
  have hupdate : r.engine.updateConfig (toGameRuleConfig { r.config with enableTribute := enabled }) =
      { r.engine with config := toGameRuleConfig { r.config with enableTribute := enabled } } := by
    rw [GameEngine.updateConfig, if_neg (by simp [hengine])]
  refine ⟨⟨⟨h.members.ids, h.members.seats, h.members.seat_lt, h.members.id_ne, h.members.bots⟩,
    hnew, ?_, ?_, ?_⟩, hwait, hwait⟩
  · dsimp only
    rw [hupdate]
  · exact h.reached.step (show CompleteOp _ (.updateConfig (toGameRuleConfig _)) from isModeConfig hnew)
      rfl
  · dsimp only
    rw [hupdate, hwait]
    exact hengine

theorem fillBots (h : RoomInv r) (hpeople : r.players.all (!·.isBot) = true) :
    RoomInv r.fillBots := by
  obtain ⟨hmembers, hconfig, hengine, hphase⟩ := h.members.fillBots hpeople
  exact ⟨hmembers, hconfig ▸ h.config, by rw [hengine, hconfig, h.rules], hengine ▸ h.reached,
    by rw [hphase, hengine]; exact h.phase⟩

end RoomInv

/-! ### New rooms -/

theorem roomInv_new (roomId : RoomId) (ownerId : PlayerId) (mode : String) :
    RoomInv (Room.new roomId ownerId (RoomConfig.fromModeName mode)) := by
  refine ⟨⟨List.nodup_nil, List.nodup_nil, ?_, ?_, ?_⟩, ⟨mode, _, rfl⟩, rfl, ⟨mode, .refl⟩, rfl⟩
  all_goals simp [Room.new]

theorem roomInv_create (roomId : RoomId) {ownerId : PlayerId} (hne : ownerId ≠ 0) (mode : String) :
    RoomInv (Room.create roomId ownerId mode) ∧
      (Room.create roomId ownerId mode).phase = .waiting := by
  have hnew := roomInv_new roomId ownerId mode
  obtain ⟨hinv, hpeople, hphase⟩ : RoomInv (((Room.new roomId ownerId (RoomConfig.fromModeName
      mode)).join ownerId).getD (Room.new roomId ownerId (RoomConfig.fromModeName mode))) ∧
      (((Room.new roomId ownerId (RoomConfig.fromModeName mode)).join ownerId).getD
        (Room.new roomId ownerId (RoomConfig.fromModeName mode))).players.all (!·.isBot) = true ∧
      (((Room.new roomId ownerId (RoomConfig.fromModeName mode)).join ownerId).getD
        (Room.new roomId ownerId (RoomConfig.fromModeName mode))).phase = .waiting := by
    rcases hjoin : (Room.new roomId ownerId (RoomConfig.fromModeName mode)).join ownerId with _ | r
    · exact ⟨hnew, rfl, rfl⟩
    · refine ⟨hnew.join hne hjoin, ?_⟩
      unfold Room.join at hjoin
      split_ifs at hjoin
      rw [Option.map_eq_some_iff] at hjoin
      obtain ⟨seat, -, rfl⟩ := hjoin
      exact ⟨rfl, rfl⟩
  unfold Room.create
  dsimp only
  split_ifs
  · exact ⟨hinv.fillBots hpeople, (hinv.members.fillBots hpeople).2.2.2.trans hphase⟩
  · exact ⟨hinv, hphase⟩

end Room

end Guandan
