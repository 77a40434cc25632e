import Guandan.Library.Machine
import Guandan.Room.Membership

/-!
# Who sits where

The seats of a room over whole runs of joining, leaving, changing seats and the bots' filling up.
Seats are given up and taken in any order, and an empty one is looked for by scanning the members;
since these keep different seats of the table (`Members`), a room that is not full has one to give.
-/

namespace Guandan

namespace Room

inductive SeatOp
  | join (playerId : PlayerId)
  | leave (playerId : PlayerId)
  | changeSeat (playerId : PlayerId) (seatIndex : Int)
  | fillBots
  deriving DecidableEq, Repr

/-- The room after a call that may have been refused, and whether it was accepted. -/
def answered (r : Room) (called : Option Room) : Room × Bool := (called.getD r, called.isSome)

/-- A room whose members come, go and change seats; every call is answered. -/
def seating : Machine Room SeatOp Bool where
  step r op := some <| match op with
    | .join playerId => r.answered (r.join playerId)
    | .leave playerId => (r.leave playerId, true)
    | .changeSeat playerId seatIndex => r.answered (r.changeSeat playerId seatIndex)
    | .fillBots => (r.fillBots, true)

/-- What the callers see to: 0 stands for nobody and never joins, and bots fill a room once. -/
def SeatCall (r : Room) : SeatOp → Prop
  | .join playerId => playerId ≠ 0
  | .fillBots => r.players.all (!·.isBot) = true
  | _ => True

instance : ∀ (r : Room) (op : SeatOp), Decidable (SeatCall r op)
  | _, .join playerId => inferInstanceAs (Decidable (playerId ≠ 0))
  | _, .leave _ => isTrue trivial
  | _, .changeSeat _ _ => isTrue trivial
  | r, .fillBots => inferInstanceAs (Decidable (r.players.all (!·.isBot) = true))

variable {r r' : Room} {id : PlayerId}

theorem answered_cases (called : Option Room) :
    r.answered called = (r, false) ∨ ∃ r', called = some r' ∧ r.answered called = (r', true) := by
  rcases called with _ | r'
  · exact .inl rfl
  · exact .inr ⟨r', rfl, rfl⟩

namespace Members

theorem new (roomId : RoomId) (ownerId : PlayerId) (config : RoomConfig) :
    Members (Room.new roomId ownerId config) := by
  refine ⟨List.nodup_nil, List.nodup_nil, ?_, ?_, ?_⟩ <;> intro p hp <;> cases hp

theorem seatStep {op : SeatOp} {accepted : Bool} (h : Members r) (hop : SeatCall r op)
    (hstep : seating.step r op = some (r', accepted)) :
    Members r' ∧ r'.config = r.config := by
  simp only [seating, Option.some.injEq] at hstep
  cases op with
  | join playerId =>
    rcases answered_cases (r := r) (r.join playerId) with hno | ⟨r₁, hjoin, hyes⟩
    · cases hno.symm.trans hstep
      exact ⟨h, rfl⟩
    · cases hyes.symm.trans hstep
      obtain ⟨hmembers, hconfig, -, -⟩ := h.join hop hjoin
      exact ⟨hmembers, hconfig⟩
  | leave playerId =>
    cases hstep
    refine ⟨h.leave playerId, ?_⟩
    rw [leave_eq]
  | changeSeat playerId seatIndex =>
    rcases answered_cases (r := r) (r.changeSeat playerId seatIndex) with hno | ⟨r₁, hmove, hyes⟩
    · cases hno.symm.trans hstep
      exact ⟨h, rfl⟩
    · cases hyes.symm.trans hstep
      refine ⟨h.changeSeat hmove, ?_⟩
      unfold Room.changeSeat at hmove
      split_ifs at hmove
      obtain ⟨p, -, rfl⟩ := Option.map_eq_some_iff.1 hmove
      rfl
  | fillBots =>
    cases hstep
    obtain ⟨hmembers, hconfig, -, -⟩ := h.fillBots hop
    exact ⟨hmembers, hconfig⟩

/-- Different seats of the table are no more than the table has. -/
theorem length_le (h : Members r) : r.players.length ≤ r.config.maxPlayers := by
  have hsub : r.players.map (·.seatIndex) ⊆ List.range r.config.maxPlayers := by
    intro seat hseat
    obtain ⟨p, hp, rfl⟩ := List.mem_map.1 hseat
    exact List.mem_range.2 (h.seat_lt p hp)
  have hle := (h.seats.subperm hsub).length_le
  rwa [List.length_map, List.length_range] at hle

end Members

theorem members_of_seating {roomId : RoomId} {ownerId : PlayerId} {config : RoomConfig}
    (h : seating.Reachable SeatCall (Room.new roomId ownerId config) r) :
    Members r ∧ r.config = config := by
  refine h.invariant (P := fun r => Members r ∧ r.config = config)
    ⟨.new roomId ownerId config, rfl⟩ ?_
  rintro r op r' accepted ⟨hr, rfl⟩ hop hstep
  exact hr.seatStep hop hstep

theorem join_isSome_iff : (r.join id).isSome = true ↔
    isBotPlayer id = false ∧ r.containsPlayer id = false ∧ r.isFull = false := by
  constructor
  · intro h
    obtain ⟨r', hjoin⟩ := Option.isSome_iff_exists.1 h
    obtain ⟨hbot, hnew, -⟩ := join_spec hjoin
    refine ⟨hbot, hnew, ?_⟩
    unfold join at hjoin
    split_ifs at hjoin with hbot' hfull hthere
    exact Bool.not_eq_true _ ▸ hfull
  · rintro ⟨hbot, hnew, hfull⟩
    exact join_isSome hbot hfull hnew

/-- The ids by seat are the members' own, none is missing, and no two seats have the same one. -/
structure CompleteSeats (r : Room) : Prop where
  length : r.seatIds.length = r.config.maxPlayers
  seated : ∀ p ∈ r.players, r.seatIds[p.seatIndex]? = some p.id
  nobody : 0 ∉ r.seatIds
  members : r.seatIds.Perm (r.players.map (·.id))

theorem Members.completeSeats (h : Members r) (hfull : r.isFull = true) : CompleteSeats r := by
  obtain ⟨hlength, hseated⟩ := h.seatIds
  have hsub : r.players.map (·.id) ⊆ r.seatIds := by
    intro id hid
    exact (h.mem_seatIds hfull).2 (List.mem_map.1 hid)
  have hlen : r.seatIds.length ≤ (r.players.map (·.id)).length := by
    rw [hlength, List.length_map]
    simpa [isFull] using hfull
  refine ⟨hlength, hseated, fun hzero => ?_, ?_⟩
  · obtain ⟨p, hp, hid⟩ := (h.mem_seatIds hfull).1 hzero
    exact h.id_ne p hp hid
  · exact ((h.ids.subperm hsub).perm_of_length_le hlen).symm

/-- Whatever run of joining, leaving, changing seats and the first filling up a room has seen, its
members have different ids and different seats of the table, a seat is found while it is not full,
whoever is no member and no bot joins exactly then, and a full room starts with every seat's id. -/
theorem seating_invariant {roomId : RoomId} {ownerId : PlayerId} {config : RoomConfig}
    (h : seating.Reachable SeatCall (Room.new roomId ownerId config) r) :
    r.config.maxPlayers = config.maxPlayers ∧
      (r.players.map (·.id)).Nodup ∧ (r.players.map (·.seatIndex)).Nodup ∧
      (∀ p ∈ r.players, p.seatIndex < config.maxPlayers) ∧
      r.players.length ≤ config.maxPlayers ∧
      (r.isFull = false → ∃ seat < config.maxPlayers, r.firstEmptySeat = some seat ∧
        ∀ p ∈ r.players, p.seatIndex ≠ seat) ∧
      (∀ id, (r.join id).isSome = true ↔
        isBotPlayer id = false ∧ r.containsPlayer id = false ∧ r.isFull = false) ∧
      (r.isFull = true → CompleteSeats r) := by
  obtain ⟨hmembers, rfl⟩ := members_of_seating h
  refine ⟨rfl, hmembers.ids, hmembers.seats, hmembers.seat_lt, hmembers.length_le, fun hfull => ?_,
    fun id => join_isSome_iff, hmembers.completeSeats⟩
  obtain ⟨seat, hseat⟩ := exists_emptySeat hfull
  obtain ⟨hlt, hfree⟩ := firstEmptySeat_some hmembers.id_ne hseat
  exact ⟨seat, hlt, hseat, hfree⟩

/-- Two people sit down in a room for one, the first moves over and the second leaves; the bots take
the three seats that are left, and a match would start with these four. -/
theorem seating_invariant_solo : ∃ r, seating.Reachable SeatCall
    (Room.new "ROOM01" 10001 (RoomConfig.fromModeName "solo")) r ∧
      r.players.map (fun p => (p.id, p.seatIndex)) =
        [(10001, 2), (9000000001, 0), (9000000002, 1), (9000000003, 3)] ∧ CompleteSeats r := by
  obtain ⟨r, hrun, hplayers, hfull⟩ := Machine.exists_of_any
    (x := seating.runChecked SeatCall (Room.new "ROOM01" 10001 (RoomConfig.fromModeName "solo"))
      [.join 10001, .join 10002, .changeSeat 10001 2, .leave 10002, .fillBots])
    (P := fun r => r.players.map (fun p => (p.id, p.seatIndex)) =
      [(10001, 2), (9000000001, 0), (9000000002, 1), (9000000003, 3)] ∧ r.isFull = true) (by decide)
  have hreached := Machine.reachable_of_runChecked hrun
  obtain ⟨-, -, -, -, -, -, -, hcomplete⟩ := seating_invariant hreached
  exact ⟨r, hreached, hplayers, hcomplete hfull⟩

end Room

end Guandan
