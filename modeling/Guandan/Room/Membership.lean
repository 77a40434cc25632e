import Guandan.Room.Members

/-!
# Who is in a room

The registry and the vote to dismiss a room only ask who is in it: the ids of the people there
(`humans`) and whether anybody is there at all. What joining, leaving and creating a room do to that
is said here once; everything else that happens to a room leaves it alone (`SameMembers`).
-/

namespace Guandan

namespace Room

/-- The ids of the members that are no bots, in the order of `humanVoteEntries`. -/
def humans (r : Room) : List PlayerId := (r.players.filter (!·.isBot)).map (·.id)

/-- Bots are told from people by their ids. -/
def BotsById (r : Room) : Prop := ∀ p ∈ r.players, p.isBot = isBotPlayer p.id

/-- Who somebody is, apart from the seat and being ready. -/
def people (r : Room) : List (PlayerId × Bool) := r.players.map fun p => (p.id, p.isBot)

variable {r r' r'' : Room} {id : PlayerId}

theorem humans_eq (r : Room) : r.humans = (r.people.filter (!·.2)).map (·.1) := by
  rw [humans, people, List.filter_map, List.map_map]
  rfl

theorem humanVoteEntries_eq (r : Room) :
    r.humanVoteEntries = r.humans.map fun id => { playerId := id } := by
  rw [humanVoteEntries, humans, List.map_map]
  rfl

theorem botsById_iff : r.BotsById ↔ ∀ a ∈ r.people, a.2 = isBotPlayer a.1 := by
  simp [BotsById, people]

theorem containsPlayer_iff_mem : r.containsPlayer id = true ↔ id ∈ r.players.map (·.id) := by
  rw [containsPlayer_iff, List.mem_map]

theorem mem_humans (hbots : r.BotsById) :
    id ∈ r.humans ↔ r.containsPlayer id = true ∧ isBotPlayer id = false := by
  rw [containsPlayer_iff, humans, List.mem_map]
  constructor
  · rintro ⟨p, hp, rfl⟩
    obtain ⟨hp, hbot⟩ := List.mem_filter.1 hp
    rw [hbots p hp, Bool.not_eq_true'] at hbot
    exact ⟨⟨p, hp, rfl⟩, hbot⟩
  · rintro ⟨⟨p, hp, rfl⟩, hbot⟩
    exact ⟨p, List.mem_filter.2 ⟨hp, by rw [hbots p hp, hbot]; rfl⟩, rfl⟩

/-! ### What leaves the members alone -/

structure SameMembers (r r' : Room) : Prop where
  roomId : r'.roomId = r.roomId
  ownerId : r'.ownerId = r.ownerId
  maxPlayers : r'.config.maxPlayers = r.config.maxPlayers
  people : r'.people = r.people

namespace SameMembers

theorem refl (r : Room) : SameMembers r r := ⟨rfl, rfl, rfl, rfl⟩

theorem trans (h : SameMembers r r') (h' : SameMembers r' r'') : SameMembers r r'' :=
  ⟨h'.roomId.trans h.roomId, h'.ownerId.trans h.ownerId, h'.maxPlayers.trans h.maxPlayers,
    h'.people.trans h.people⟩

theorem humans (h : SameMembers r r') : r'.humans = r.humans := by
  rw [humans_eq, humans_eq, h.people]

theorem botsById (h : SameMembers r r') (hbots : r.BotsById) : r'.BotsById := by
  rw [botsById_iff, h.people]
  exact botsById_iff.1 hbots

theorem ids (h : SameMembers r r') : r'.players.map (·.id) = r.players.map (·.id) := by
  have hfst : ∀ r : Room, r.players.map (·.id) = r.people.map (·.1) := by
    intro r
    rw [Room.people, List.map_map]
    rfl
  rw [hfst, hfst, h.people]

end SameMembers

/-- Neither the members nor the vote. -/
structure Undisturbed (r r' : Room) : Prop extends SameMembers r r' where
  vote : r'.dismissVote = r.dismissVote

namespace Undisturbed

theorem refl (r : Room) : Undisturbed r r := ⟨.refl r, rfl⟩

theorem trans (h : Undisturbed r r') (h' : Undisturbed r' r'') : Undisturbed r r'' :=
  ⟨h.toSameMembers.trans h'.toSameMembers, h'.vote.trans h.vote⟩

end Undisturbed

theorem sameMembers_requestDismiss (h : r.requestDismiss id = some r') : SameMembers r r' := by
  unfold requestDismiss at h
  split_ifs at h
  obtain ⟨vote, -, rfl⟩ := Option.map_eq_some_iff.1 h
  exact ⟨rfl, rfl, rfl, rfl⟩

theorem sameMembers_voteDismiss {agree : Bool} (h : r.voteDismiss id agree = some r') :
    SameMembers r r' := by
  unfold voteDismiss at h
  split_ifs at h
  obtain ⟨vote, -, rfl⟩ := Option.map_eq_some_iff.1 h
  exact ⟨rfl, rfl, rfl, rfl⟩

theorem undisturbed_ready (h : r.ready id = some r') : Undisturbed r r' := by
  unfold ready at h
  split_ifs at h
  obtain ⟨p, -, rfl⟩ := Option.map_eq_some_iff.1 h
  exact ⟨⟨rfl, rfl, rfl, map_modifyPlayer (by intro p; rfl) ..⟩, rfl⟩

theorem undisturbed_unready (h : r.unready id = some r') : Undisturbed r r' := by
  unfold unready at h
  split_ifs at h
  obtain ⟨p, -, rfl⟩ := Option.map_eq_some_iff.1 h
  exact ⟨⟨rfl, rfl, rfl, map_modifyPlayer (by intro p; rfl) ..⟩, rfl⟩

theorem undisturbed_changeSeat {seat : Int} (h : r.changeSeat id seat = some r') : Undisturbed r r' := by
  unfold changeSeat at h
  split_ifs at h
  obtain ⟨p, -, rfl⟩ := Option.map_eq_some_iff.1 h
  exact ⟨⟨rfl, rfl, rfl, map_modifyPlayer (by intro p; rfl) ..⟩, rfl⟩

theorem undisturbed_setEnableTribute {enabled : Bool} (h : r.setEnableTribute id enabled = some r') :
    Undisturbed r r' := by
  unfold setEnableTribute at h
  split_ifs at h
  cases h
  exact ⟨⟨rfl, rfl, rfl, rfl⟩, rfl⟩

theorem undisturbed_enterSettlement (r : Room) : Undisturbed r r.enterSettlement := by
  refine ⟨⟨rfl, rfl, rfl, ?_⟩, rfl⟩
  rw [people, enterSettlement, List.map_map]
  rfl

theorem undisturbed_startNextRound {σ : Shuffle} {started : Bool}
    (h : r.startNextRound σ = some (r', started)) : Undisturbed r r' := by
  unfold startNextRound at h
  split_ifs at h
  · cases h
    exact .refl r
  · cases h
    exact .refl r
  · obtain ⟨⟨e, result⟩, -, h⟩ := Option.bind_eq_some_iff.1 h
    dsimp only at h
    split_ifs at h <;> cases h <;> exact ⟨⟨rfl, rfl, rfl, rfl⟩, rfl⟩

theorem undisturbed_startGame {σ : Shuffle} {started : Bool}
    (h : r.startGame σ = some (r', started)) : Undisturbed r r' := by
  unfold startGame at h
  split_ifs at h
  · cases h
    exact .refl r
  · cases h
    exact .refl r
  · cases h
    exact .refl r
  · cases h
    exact .refl r
  · obtain ⟨e, -, h⟩ := Option.bind_eq_some_iff.1 h
    obtain ⟨⟨e', result⟩, -, h⟩ := Option.bind_eq_some_iff.1 h
    dsimp only at h
    split_ifs at h <;> cases h <;> exact ⟨⟨rfl, rfl, rfl, rfl⟩, rfl⟩

/-! ### Coming and going -/

/-- A room that is not full has a seat that nobody has. -/
theorem exists_emptySeat (hfull : r.isFull = false) : ∃ seat, r.firstEmptySeat = some seat := by
  have hlt : r.players.length < r.config.maxPlayers := by simpa [isFull] using hfull
  obtain ⟨seat, hseat, hfree⟩ :=
    Finset.exists_mem_notMem_of_card_lt_card (s := (r.players.map (·.seatIndex)).toFinset)
      (t := Finset.range r.config.maxPlayers) (by
        have hle := List.toFinset_card_le (r.players.map (·.seatIndex))
        rw [List.length_map] at hle
        rw [Finset.card_range]
        omega)
  rw [← Option.isSome_iff_exists, firstEmptySeat, List.find?_isSome]
  refine ⟨seat, List.mem_range.2 (Finset.mem_range.1 hseat), ?_⟩
  rw [isSeatTaken, Bool.not_eq_true', List.any_eq_false]
  intro p hp hcond
  rw [Bool.and_eq_true, beq_iff_eq] at hcond
  exact hfree (List.mem_toFinset.2 (List.mem_map.2 ⟨p, hp, hcond.1⟩))

theorem join_isSome (hbot : isBotPlayer id = false) (hfull : r.isFull = false)
    (hnew : r.containsPlayer id = false) : (r.join id).isSome := by
  obtain ⟨seat, hseat⟩ := exists_emptySeat hfull
  simp [join, hbot, hfull, hnew, hseat]

/-- Whoever joins was not there and is no bot; everybody else stays. -/
theorem join_spec (h : r.join id = some r') :
    isBotPlayer id = false ∧ r.containsPlayer id = false ∧ r'.humans = r.humans ++ [id] ∧
      r'.players.map (·.id) = r.players.map (·.id) ++ [id] ∧ (r.BotsById → r'.BotsById) ∧
      r'.roomId = r.roomId ∧ r'.ownerId = r.ownerId ∧ r'.dismissVote = r.dismissVote := by
  unfold join at h
  split_ifs at h with hbot hfull hthere
  obtain ⟨seat, -, rfl⟩ := Option.map_eq_some_iff.1 h
  rw [Bool.not_eq_true] at hbot hthere
  refine ⟨hbot, hthere, ?_, ?_, fun hbots p hp => ?_, rfl, rfl, rfl⟩
  · simp [humans]
  · simp
  · rcases List.mem_append.1 hp with hp | hp
    · exact hbots p hp
    · rw [List.mem_singleton.1 hp, hbot]

theorem leave_spec (hbot : isBotPlayer id = false) :
    (r.leave id).humans = r.humans.filter (· != id) ∧
      (r.leave id).players.map (·.id) = (r.players.map (·.id)).filter (· != id) ∧
      (r.BotsById → (r.leave id).BotsById) ∧ (r.leave id).roomId = r.roomId ∧
      (r.leave id).ownerId = r.ownerId ∧ (r.leave id).dismissVote = r.dismissVote := by
  unfold leave
  rw [if_neg (by rw [hbot]; exact Bool.false_ne_true)]
  refine ⟨?_, ?_, fun hbots p hp => hbots p (List.mem_of_mem_filter hp), rfl, rfl, rfl⟩
  · rw [humans, humans, List.filter_map, List.filter_filter, List.filter_filter]
    congr 1
    refine List.filter_congr fun p _ => ?_
    exact Bool.and_comm ..
  · rw [List.filter_map]
    rfl

theorem humans_of_isEmpty (hempty : r.isEmpty = true) : r.humans = [] := by
  rw [isEmpty, List.isEmpty_iff] at hempty
  rw [humans, hempty]
  rfl

theorem isEmpty_iff : r.isEmpty = true ↔ r.players.map (·.id) = [] := by
  rw [isEmpty, List.isEmpty_iff, List.map_eq_nil_iff]

/-- Nobody is left exactly if nobody else was there. -/
theorem isEmpty_leave (hbot : isBotPlayer id = false) :
    (r.leave id).isEmpty = true ↔ ∀ p ∈ r.players, p.id = id := by
  rw [isEmpty_iff, (leave_spec hbot).2.1, List.filter_eq_nil_iff]
  simp

/-! ### A new room -/

theorem fillBotsFrom_spec (fuel botIndex : Nat) (hbots : r.BotsById) :
    (fillBotsFrom fuel botIndex r).humans = r.humans ∧ (fillBotsFrom fuel botIndex r).BotsById ∧
      (fillBotsFrom fuel botIndex r).roomId = r.roomId ∧
      (fillBotsFrom fuel botIndex r).ownerId = r.ownerId ∧
      (fillBotsFrom fuel botIndex r).dismissVote = r.dismissVote := by
  induction fuel generalizing r botIndex with
  | zero => exact ⟨rfl, hbots, rfl, rfl, rfl⟩
  | succ fuel ih =>
    rw [fillBotsFrom]
    split_ifs
    · exact ⟨rfl, hbots, rfl, rfl, rfl⟩
    rcases r.firstEmptySeat with _ | seat
    · exact ⟨rfl, hbots, rfl, rfl, rfl⟩
    dsimp only
    rcases hbot : r.addBotAtSeat seat botIndex with _ | r₁
    · exact ⟨rfl, hbots, rfl, rfl, rfl⟩
    unfold addBotAtSeat at hbot
    split_ifs at hbot
    cases hbot
    refine (ih (botIndex + 1) fun p hp => ?_).imp_left fun h => h.trans ?_
    · rcases List.mem_append.1 hp with hp | hp
      · exact hbots p hp
      · rw [List.mem_singleton.1 hp]
        simp [isBotPlayer]
    · simp [humans]

/-- Whoever creates a room is the only person there, and its owner; no vote is open. -/
theorem create_spec (roomId : RoomId) {ownerId : PlayerId} (mode : String)
    (hbot : isBotPlayer ownerId = false) :
    (create roomId ownerId mode).humans = [ownerId] ∧ (create roomId ownerId mode).BotsById ∧
      (create roomId ownerId mode).roomId = roomId ∧
      (create roomId ownerId mode).ownerId = ownerId ∧
      (create roomId ownerId mode).dismissVote = {} := by
  have hfull : (new roomId ownerId (RoomConfig.fromModeName mode)).isFull = false := by
    unfold RoomConfig.fromModeName
    split_ifs <;> rfl
  obtain ⟨r, hjoin⟩ := Option.isSome_iff_exists.1 (join_isSome hbot hfull rfl)
  obtain ⟨-, -, hhumans, -, hbots, hroomId, howner, hvote⟩ := join_spec hjoin
  have hbots : r.BotsById := hbots fun p hp => by cases hp
  unfold create
  dsimp only
  rw [hjoin, Option.getD_some]
  split_ifs
  · obtain ⟨hhumans', hbots', hroomId', howner', hvote'⟩ :=
      fillBotsFrom_spec r.config.maxPlayers 0 hbots
    exact ⟨hhumans'.trans hhumans, hbots', hroomId'.trans hroomId, howner'.trans howner,
      hvote'.trans hvote⟩
  · exact ⟨hhumans, hbots, hroomId, howner, hvote⟩

end Room

end Guandan
