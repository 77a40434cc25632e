import Guandan.Protocol.Nicknames

/-!
# The texts about turns and rounds

What `game_view_builder.cpp` and `message_dispatcher.cpp` write of a play, a pass, the end of a round and a
new room, and the values behind these texts. Nothing in them needs an escape.
-/

namespace Guandan.Protocol.Views

open Quoted
open Json (Shorthand)

/-! ### The texts -/

def buildPlayerPlayedJson (playerId : PlayerId) (cards : List CardId) (remainingCardCount : Nat)
    (hasFinished : Bool) (finishRank nextPlayerIndex stateVersion turnId : Nat) : Text :=
  record [
    ("player_id", digits playerId),
    ("cards", cardIdsToJsonArray cards),
    ("card_count", digits remainingCardCount),
    ("has_finished", flag hasFinished),
    ("finish_rank", digits finishRank),
    ("next_player", digits nextPlayerIndex),
    ("state_version", digits stateVersion),
    ("turn_id", digits turnId)]

def buildPlayerPassedJson (playerId : PlayerId) (playerSeatIndex : Option Nat) (nextPlayerIndex : Nat)
    (roundReset : Bool) (stateVersion turnId : Nat) : Text :=
  record [
    ("player_id", digits playerId),
    ("seat_index", seatNumber playerSeatIndex),
    ("next_player", digits nextPlayerIndex),
    ("round_reset", flag roundReset),
    ("state_version", digits stateVersion),
    ("turn_id", digits turnId)]

/-- A team, -1 for none. -/
def teamNumber : Option Team → Option Nat := Option.map (·.val)

def finishRankJson (p : PlayerState) : Text :=
  record [
    ("player_id", digits p.id),
    ("seat_index", digits p.seatIndex),
    ("finish_rank", digits p.finishRank),
    ("has_finished", flag true)]

/-- What `onGameOver` writes of the end of a round, and again of the end of a match. -/
def settlementJson (result : SettlementResult) (s : GameState) : Text :=
  record [
    ("winning_team", seatNumber (teamNumber result.winningTeam)),
    ("level_upgrade", Json.writeInt result.levelUpgrade),
    ("new_level", digits result.newLevel),
    ("team_levels", sequence [digits (result.teamLevels 0), digits (result.teamLevels 1)]),
    ("attacking_team", digits result.attackingTeam.val),
    ("is_pass_a_round", flag result.isPassARound),
    ("pass_a_team", seatNumber (teamNumber result.passATeam)),
    ("pass_a_success", flag result.passASuccess),
    ("match_won", flag result.matchWon),
    ("entered_pass_a_phase", flag result.enteredPassAPhase),
    ("pass_a_fail_count", digits result.passAFailCount),
    ("pass_a_fail_reset", flag result.passAFailReset),
    ("in_pass_a_phase", sequence [flag (result.inPassAPhase 0), flag (result.inPassAPhase 1)]),
    ("pass_a_fail_counts",
      sequence [digits (result.passAFailCounts 0), digits (result.passAFailCounts 1)]),
    ("finish_ranks", sequence ((List.range s.playerCount).map fun i => finishRankJson (s.players i)))]

def roomCreatedJson (room : Room) : Text :=
  record [
    ("room_id", inQuotes room.roomId.toList),
    ("mode", inQuotes room.config.modeName.toList),
    ("max_players", digits room.config.maxPlayers)]

/-! ### The values behind them -/

def playerPlayedValues (playerId : PlayerId) (cards : List CardId) (remainingCardCount : Nat)
    (hasFinished : Bool) (finishRank nextPlayerIndex stateVersion turnId : Nat) : List (String × Json) :=
  [("player_id", .num playerId), ("cards", numbers cards), ("card_count", .num remainingCardCount),
    ("has_finished", .bool hasFinished), ("finish_rank", .num finishRank),
    ("next_player", .num nextPlayerIndex), ("state_version", .num stateVersion),
    ("turn_id", .num turnId)]

def playerPassedValues (playerId : PlayerId) (playerSeatIndex : Option Nat) (nextPlayerIndex : Nat)
    (roundReset : Bool) (stateVersion turnId : Nat) : List (String × Json) :=
  [("player_id", .num playerId), ("seat_index", .num (seatIndex playerSeatIndex)),
    ("next_player", .num nextPlayerIndex), ("round_reset", .bool roundReset),
    ("state_version", .num stateVersion), ("turn_id", .num turnId)]

def finishRankValues (p : PlayerState) : List (String × Json) :=
  [("player_id", .num p.id), ("seat_index", .num p.seatIndex), ("finish_rank", .num p.finishRank),
    ("has_finished", .bool true)]

def settlementValues (result : SettlementResult) (s : GameState) : List (String × Json) :=
  [("winning_team", .num (seatIndex (teamNumber result.winningTeam))),
    ("level_upgrade", .num result.levelUpgrade), ("new_level", .num result.newLevel),
    ("team_levels", numbers [result.teamLevels 0, result.teamLevels 1]),
    ("attacking_team", .num result.attackingTeam.val), ("is_pass_a_round", .bool result.isPassARound),
    ("pass_a_team", .num (seatIndex (teamNumber result.passATeam))),
    ("pass_a_success", .bool result.passASuccess), ("match_won", .bool result.matchWon),
    ("entered_pass_a_phase", .bool result.enteredPassAPhase),
    ("pass_a_fail_count", .num result.passAFailCount),
    ("pass_a_fail_reset", .bool result.passAFailReset),
    ("in_pass_a_phase", .arr ([result.inPassAPhase 0, result.inPassAPhase 1].map .bool)),
    ("pass_a_fail_counts", numbers [result.passAFailCounts 0, result.passAFailCounts 1]),
    ("finish_ranks",
      .arr ((List.range s.playerCount).map fun i => object (finishRankValues (s.players i))))]

def roomCreatedValues (room : Room) : List (String × Json) :=
  [("room_id", .str room.roomId.toList), ("mode", .str room.config.modeName.toList),
    ("max_players", .num room.config.maxPlayers)]

section Texts

variable (k : Shorthand) {playerId : PlayerId} {cards : List CardId} {playerSeatIndex : Option Nat}
  {hasFinished roundReset : Bool}
  {remainingCardCount finishRank nextPlayerIndex stateVersion turnId : Nat}

theorem plainKeys_playerPlayed : PlainKeys
    ((playerPlayedValues playerId cards remainingCardCount hasFinished finishRank
      nextPlayerIndex stateVersion turnId).map (·.1)) := by
  simp only [playerPlayedValues, List.map_cons, List.map_nil]
  decide

theorem plainKeys_playerPassed : PlainKeys
    ((playerPassedValues playerId playerSeatIndex nextPlayerIndex roundReset stateVersion
      turnId).map (·.1)) := by
  simp only [playerPassedValues, List.map_cons, List.map_nil]
  decide

theorem plainKeys_finishRank (p : PlayerState) : PlainKeys ((finishRankValues p).map (·.1)) := by
  simp only [finishRankValues, List.map_cons, List.map_nil]
  decide

theorem plainKeys_settlement (result : SettlementResult) (s : GameState) :
    PlainKeys ((settlementValues result s).map (·.1)) := by
  simp only [settlementValues, List.map_cons, List.map_nil]
  decide

theorem plainKeys_roomCreated (room : Room) : PlainKeys ((roomCreatedValues room).map (·.1)) := by
  simp only [roomCreatedValues, List.map_cons, List.map_nil]
  decide

theorem buildPlayerPlayedJson_eq :
    buildPlayerPlayedJson playerId cards remainingCardCount hasFinished finishRank nextPlayerIndex
        stateVersion turnId =
      Json.write k.run (object (playerPlayedValues playerId cards remainingCardCount hasFinished
        finishRank nextPlayerIndex stateVersion turnId)) := by
  apply write_record _ plainKeys_playerPlayed
  simp only [playerPlayedValues, List.map_cons, List.map_nil, cardIdsToJsonArray, write_numbers k,
    write_digits k, write_flag k]

theorem buildPlayerPassedJson_eq :
    buildPlayerPassedJson playerId playerSeatIndex nextPlayerIndex roundReset stateVersion turnId =
      Json.write k.run (object (playerPassedValues playerId playerSeatIndex nextPlayerIndex roundReset
        stateVersion turnId)) := by
  apply write_record _ plainKeys_playerPassed
  simp only [playerPassedValues, List.map_cons, List.map_nil, write_seat k, write_digits k, write_flag k]

theorem finishRankJson_eq (p : PlayerState) :
    finishRankJson p = Json.write k.run (object (finishRankValues p)) := by
  apply write_record _ (plainKeys_finishRank p)
  simp only [finishRankValues, List.map_cons, List.map_nil, write_digits k, write_flag k]

theorem settlementJson_eq (result : SettlementResult) (s : GameState) :
    settlementJson result s = Json.write k.run (object (settlementValues result s)) := by
  have hflags : sequence [flag (result.inPassAPhase 0), flag (result.inPassAPhase 1)] =
      Json.write k.run (.arr ([result.inPassAPhase 0, result.inPassAPhase 1].map .bool)) :=
    write_list k [result.inPassAPhase 0, result.inPassAPhase 1] fun b _ => write_flag k b
  have hlevels : sequence [digits (result.teamLevels 0), digits (result.teamLevels 1)] =
      Json.write k.run (numbers [result.teamLevels 0, result.teamLevels 1]) :=
    write_numbers k [result.teamLevels 0, result.teamLevels 1]
  have hfails : sequence [digits (result.passAFailCounts 0), digits (result.passAFailCounts 1)] =
      Json.write k.run (numbers [result.passAFailCounts 0, result.passAFailCounts 1]) :=
    write_numbers k [result.passAFailCounts 0, result.passAFailCounts 1]
  have hranks : sequence ((List.range s.playerCount).map fun i => finishRankJson (s.players i)) =
      Json.write k.run
        (.arr ((List.range s.playerCount).map fun i => object (finishRankValues (s.players i)))) :=
    write_list k _ fun i _ => finishRankJson_eq k (s.players i)
  have hupgrade : Json.writeInt result.levelUpgrade = Json.write k.run (.num result.levelUpgrade) := rfl
  apply write_record _ (plainKeys_settlement result s)
  rw [hflags, hlevels, hfails, hranks, hupgrade]
  simp only [settlementValues, List.map_cons, List.map_nil, write_seat k, write_digits k, write_flag k]

theorem roomCreatedJson_eq {room : Room} (hroom : Named room) :
    roomCreatedJson room = Json.write k.run (object (roomCreatedValues room)) := by
  apply write_record _ (plainKeys_roomCreated room)
  simp only [roomCreatedValues, List.map_cons, List.map_nil, write_digits k,
    write_plain k hroom.plain_id, write_plain k hroom.plain_mode]

theorem coversAll_playerPlayed :
    k.CoversAll (object (playerPlayedValues playerId cards remainingCardCount hasFinished finishRank
      nextPlayerIndex stateVersion turnId)) := by
  rw [coversAll_object k plainKeys_playerPlayed]
  simp [playerPlayedValues]

theorem coversAll_playerPassed :
    k.CoversAll (object (playerPassedValues playerId playerSeatIndex nextPlayerIndex roundReset
      stateVersion turnId)) := by
  rw [coversAll_object k plainKeys_playerPassed]
  simp [playerPassedValues]

theorem coversAll_finishRank (p : PlayerState) : k.CoversAll (object (finishRankValues p)) := by
  rw [coversAll_object k (plainKeys_finishRank p)]
  simp [finishRankValues]

theorem coversAll_settlement (result : SettlementResult) (s : GameState) :
    k.CoversAll (object (settlementValues result s)) := by
  have hranks : k.CoversAll
      (.arr ((List.range s.playerCount).map fun i => object (finishRankValues (s.players i)))) := by
    rw [k.coversAll_arr, List.forall_mem_map]
    exact fun i _ => coversAll_finishRank k (s.players i)
  have hflags : k.CoversAll
      (.arr ([result.inPassAPhase 0, result.inPassAPhase 1].map .bool)) := by
    rw [k.coversAll_arr, List.forall_mem_map]
    exact fun b _ => k.coversAll_bool b
  rw [coversAll_object k (plainKeys_settlement result s)]
  simp only [settlementValues, List.forall_mem_cons, List.not_mem_nil, false_imp_iff, implies_true,
    and_true, hranks, hflags, coversAll_numbers, k.coversAll_num, k.coversAll_bool]

theorem coversAll_roomCreated {room : Room} (hroom : Named room) :
    k.CoversAll (object (roomCreatedValues room)) := by
  rw [coversAll_object k (plainKeys_roomCreated room)]
  simp [roomCreatedValues, coversAll_plain k hroom.plain_id, coversAll_plain k hroom.plain_mode]

end Texts

end Guandan.Protocol.Views
