import Guandan.Game.Deck

/-!
# Room modes

`room_config.h` and `room_config.cpp`. `IsModeConfig` says that a rule config is one that a room can
have: that of one of the three modes, with or without tribute. What the engine needs to know of
such a config is collected in `ModeFacts`.
-/

namespace Guandan

def kBotIdBase : PlayerId := 9000000000

def isBotPlayer (id : PlayerId) : Bool := kBotIdBase ≤ id

inductive GameMode
  | six | four | solo
  deriving DecidableEq, Repr

structure RoomConfig where
  mode : GameMode := .six
  maxPlayers : Nat := 6
  deckCount : Nat := 3
  playersPerTeam : Nat := 3
  modeName : String := "six"
  enableTribute : Bool := true
  deriving DecidableEq, Repr

def RoomConfig.fromModeName (mode : String) : RoomConfig :=
  if mode == "four" || mode == "4" then
    { mode := .four, modeName := "four", maxPlayers := 4, deckCount := 2, playersPerTeam := 2 }
  else if mode == "solo" || mode == "single" then
    { mode := .solo, modeName := "solo", maxPlayers := 4, deckCount := 2, playersPerTeam := 2 }
  else { mode := .six, modeName := "six", maxPlayers := 6, deckCount := 3, playersPerTeam := 3 }

def toGameRuleConfig (config : RoomConfig) : GameRuleConfig :=
  { playerCount := config.maxPlayers
    deckCount := config.deckCount
    playersPerTeam := config.playersPerTeam
    enableTribute := config.enableTribute
    ruleVersion := match config.mode with
      | .four => "four_player_guandan_v1"
      | .solo => "solo_test_v1"
      | .six => "six_player_guandan_v1" }

/-- The number `dealAndStartPlaying` passes to `deal`. -/
def cardsPerPlayer (config : GameRuleConfig) : Nat :=
  if config.ruleVersion == "solo_test_v1" then kSoloTestCardsPerPlayer else 0

/-! ### The configs of the three modes -/

/-- The config of a mode, tribute being switched on or off. -/
def IsModeConfig (config : GameRuleConfig) : Prop :=
  ∃ mode enabled,
    config = toGameRuleConfig { RoomConfig.fromModeName mode with enableTribute := enabled }

theorem isModeConfig_fromModeName (mode : String) :
    IsModeConfig (toGameRuleConfig (RoomConfig.fromModeName mode)) :=
  ⟨mode, (RoomConfig.fromModeName mode).enableTribute, rfl⟩

structure ModeFacts (config : GameRuleConfig) : Prop where
  players : config.playerCount = 2 * config.playersPerTeam
  perTeam : config.playersPerTeam = 2 ∨ config.playersPerTeam = 3
  decks : 54 * config.deckCount ≤ 2 ^ 16
  hand : 2 ≤ Deck.handSize (54 * config.deckCount) config.playerCount (cardsPerPlayer config)
  deal : ∀ cards : List Card, cards.length = 54 * config.deckCount →
    (Deck.deal cards config.playerCount (cardsPerPlayer config)).isSome

theorem IsModeConfig.facts {config : GameRuleConfig} (h : IsModeConfig config) :
    ModeFacts config := by
  obtain ⟨mode, enabled, rfl⟩ := h
  unfold RoomConfig.fromModeName
  split_ifs
  all_goals
    refine ⟨rfl, ?_, ?_, ?_, fun cards hlen => ?_⟩
    · simp [toGameRuleConfig]
    · simp [toGameRuleConfig]
    · simp [toGameRuleConfig, cardsPerPlayer, kSoloTestCardsPerPlayer, Deck.handSize]
    · simp only [toGameRuleConfig] at hlen ⊢
      simp [Deck.deal, cardsPerPlayer, kSoloTestCardsPerPlayer, hlen]

namespace ModeFacts

variable {config : GameRuleConfig}

theorem playerCount_le (h : ModeFacts config) : config.playerCount ≤ kPlayerCount := by
  rcases h.perTeam with hp | hp <;> simp [h.players, hp, kPlayerCount]

theorem playerCount_pos (h : ModeFacts config) : 4 ≤ config.playerCount := by
  rcases h.perTeam with hp | hp <;> simp [h.players, hp]

/-- The cards of a shuffled deck have different ids. -/
theorem nodup_ids (h : ModeFacts config) (σ : Shuffle) :
    ((σ.run (createFullDeck config.deckCount)).map (·.id)).Nodup := by
  rw [((σ.perm _).map _).nodup_iff, createFullDeck_ids _ h.decks]
  exact List.nodup_range

end ModeFacts

end Guandan
