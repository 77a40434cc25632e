import Guandan.Network.Lobby

/-!
# Rooms that nobody can start

A room is erased when nobody is left in its list of players, bots included, and its owner is the
player who created it for as long as it lasts. So it is left behind as soon as its owner goes: with
bots that nobody plays against, or with members of whom none may start the match.
-/

namespace Guandan

open Room

/-- Somebody is in the room, and its owner is. -/
structure Room.Tended (r : Room) : Prop where
  humans : r.humans ≠ []
  owner : r.containsPlayer r.ownerId = true

def NoneAbandoned (m : RoomManager) : Prop := Everywhere Room.Tended m.listed

/-- A leave that is not the owner's, or the owner's from a room where nobody else is, not even a
bot. -/
def OwnerLeavesLast (m : RoomManager) (op : LobbyOp) : Prop :=
  ∀ id msg σ roomId r, op = .request id msg σ → msg.type = .leaveRoom →
    m.listed roomId = some r → id ∈ r.humans → id = r.ownerId → ∀ p ∈ r.players, p.id = id

section Steps

variable {m m' : RoomManager} {op : LobbyOp} {answer : Bool} {id : PlayerId} {r r' : Room}
  {rooms rooms' : Listing} {roomId : RoomId}

theorem Room.SameMembers.tended (h : SameMembers r r') (hr : r.Tended) : r'.Tended := by
  constructor
  · rw [h.humans]
    exact hr.humans
  · rw [containsPlayer_iff_mem, h.ids, h.ownerId, ← containsPlayer_iff_mem]
    exact hr.owner

theorem tended_join (hjoin : r.join id = some r') (hr : r.Tended) : r'.Tended := by
  obtain ⟨-, -, hhumans, hids, -, -, howner, -⟩ := join_spec hjoin
  constructor
  · rw [hhumans]
    simp
  · rw [containsPlayer_iff_mem, hids, howner]
    exact List.mem_append_left _ (containsPlayer_iff_mem.1 hr.owner)

/-- Once a member has left, the room is tended unless that was the owner. -/
theorem tended_leave (hbots : r.BotsById) (howner : isBotPlayer r.ownerId = false)
    (hbot : isBotPlayer id = false) (hr : r.Tended) : (r.leave id).Tended ↔ id ≠ r.ownerId := by
  obtain ⟨hhumans, hids, -, -, hsame, -⟩ := leave_spec (r := r) hbot
  have hcontains : (r.leave id).containsPlayer (r.leave id).ownerId = true ↔ id ≠ r.ownerId := by
    rw [containsPlayer_iff_mem, hids, hsame, List.mem_filter, bne_iff_ne]
    exact (and_iff_right (containsPlayer_iff_mem.1 hr.owner)).trans ne_comm
  refine ⟨fun h => hcontains.1 h.owner, fun h => ⟨?_, hcontains.2 h⟩⟩
  have hthere : r.ownerId ∈ (r.leave id).humans := by
    rw [hhumans, List.mem_filter, bne_iff_ne]
    exact ⟨(mem_humans hbots).2 ⟨hr.owner, howner⟩, h.symm⟩
  exact List.ne_nil_of_mem hthere

/-- Rooms are created by people, and their owners stay the same. -/
theorem LobbyStep.peopleOwn (hstep : LobbyStep rooms op rooms') (hok : LobbyCall m op)
    (h : Everywhere (fun r => isBotPlayer r.ownerId = false) rooms) :
    Everywhere (fun r => isBotPlayer r.ownerId = false) rooms' := by
  apply hstep.everywhere_members h
  · rintro id mode roomId rfl
    obtain ⟨-, -, -, howner, -⟩ := create_spec roomId mode hok
    rw [howner]
    exact hok
  · intro id r r' hjoin hr
    obtain ⟨-, -, -, -, -, -, howner, -⟩ := join_spec hjoin
    rwa [howner]
  · intro id _ _ _ r _ _ _ _ _ hr
    rwa [leave_eq]
  · intro r r' hsame hr
    rwa [hsame.ownerId]

/-- What a step needs to know of the rooms. -/
structure OwnedByPeople (m : RoomManager) : Prop where
  registry : Registry m
  owners : Everywhere (fun r => isBotPlayer r.ownerId = false) m.listed

theorem ownedByPeople_step (hm : OwnedByPeople m) (hok : LobbyCall m op)
    (hstep : lobby.step m op = some (m', answer)) : OwnedByPeople m' := by
  obtain ⟨hm', hlobby⟩ := lobby_step hm.registry hok hstep
  exact ⟨hm', hlobby.peopleOwn hok hm.owners⟩

/-- The owner who leaves somebody behind is the one thing that abandons a room. -/
theorem noneAbandoned_iff (hm : OwnedByPeople m) (htended : NoneAbandoned m) (hok : LobbyCall m op)
    (hstep : lobby.step m op = some (m', answer)) : NoneAbandoned m' ↔ OwnerLeavesLast m op := by
  obtain ⟨-, hlobby⟩ := lobby_step hm.registry hok hstep
  constructor
  · rintro hall id msg σ roomId r rfl hleave hroom hid howner
    have hbots := hm.registry.bots hroom
    have hbot := ((mem_humans hbots).1 hid).2
    rw [← isEmpty_leave hbot]
    by_contra hleft
    have hlisted := hlobby.leaves hleave hroom hid fun _ _ hroom' hid' =>
      hm.registry.unique hroom' hid' hroom hid
    rw [if_neg hleft] at hlisted
    have hstill := hall roomId (r.leave id) (by rw [hlisted, Function.update_self])
    exact (tended_leave hbots (hm.owners _ _ hroom) hbot (htended _ _ hroom)).1 hstill howner
  · intro hlast
    apply hlobby.everywhere_members htended
    · rintro id mode roomId rfl
      obtain ⟨hhumans, hbots, -, howner, -⟩ := create_spec roomId mode hok
      have hthere : id ∈ (Room.create roomId id mode).humans := by simp [hhumans]
      refine ⟨List.ne_nil_of_mem hthere, ?_⟩
      rw [howner]
      exact ((mem_humans hbots).1 hthere).1
    · exact fun id r r' => tended_join
    · intro id msg σ roomId r hop hleave hroom hid hleft hr
      have hbots := hm.registry.bots hroom
      have hbot := ((mem_humans hbots).1 hid).2
      refine (tended_leave hbots (hm.owners _ _ hroom) hbot hr).2 fun howner => ?_
      have honly := hlast id msg σ roomId r hop hleave hroom hid howner
      rw [(isEmpty_leave hbot).2 honly] at hleft
      cases hleft
    · exact fun r r' hsame => hsame.tended

end Steps

/-- Over every run of calls, every listed room keeps a human member and its owner exactly when no
owner leaves anybody behind. -/
theorem rooms_tended {ops : List LobbyOp} (hok : lobby.Follows LobbyCall {} ops) :
    lobby.Always NoneAbandoned {} ops ↔
      lobby.EachStep (fun m op _ => OwnerLeavesLast m op) {} ops :=
  Machine.always_iff_eachStep (J := OwnedByPeople)
    (fun _ _ _ _ hm hop hstep => ownedByPeople_step hm hop hstep)
    (fun _ _ _ _ hm hp hop hstep => noneAbandoned_iff hm hp hop hstep)
    ⟨.empty, fun _ _ hroom => nomatch hroom⟩ (fun _ _ hroom => nomatch hroom) hok

/-- The only player leaves a room for one to its bots. -/
def leftToBots : List LobbyOp :=
  [.createRoom 1 "solo" "100000", .request 1 { type := .leaveRoom } (Shuffle.stack [])]

/-- The owner leaves a room to the player who has joined. -/
def leftWithoutOwner : List LobbyOp :=
  [.createRoom 1 "six" "100000", .joinRoom "100000" 2,
    .request 1 { type := .leaveRoom } (Shuffle.stack [])]

/-- The player who has joined leaves the room to its owner. -/
def leftToOwner : List LobbyOp :=
  [.createRoom 1 "six" "100000", .joinRoom "100000" 2,
    .request 2 { type := .leaveRoom } (Shuffle.stack [])]

theorem ownerLeavesLast_leftToOwner :
    lobby.EachStep (fun m op _ => OwnerLeavesLast m op) {} leftToOwner := by
  intro m₁ o₁ h₁
  refine ⟨fun _ _ _ _ _ heq => (nomatch heq), fun m₂ o₂ h₂ => ⟨fun _ _ _ _ _ heq => (nomatch heq),
    fun _ _ _ => ⟨?_, trivial⟩⟩⟩
  have hrun : lobby.run {} [.createRoom 1 "six" "100000", .joinRoom "100000" 2] = some m₂ := by
    rw [Machine.run_cons h₁, Machine.run_cons h₂]
    rfl
  obtain ⟨m, hrun', hentry, howner⟩ := Machine.exists_run_of_any (M := lobby) (s := {})
    (l := [.createRoom 1 "six" "100000", .joinRoom "100000" 2])
    (P := fun m => m.playerRoomMap 2 = some "100000" ∧
      (m.listed "100000").all (fun r => decide (r.ownerId ≠ 2)) = true) (by decide +kernel)
  cases hrun.symm.trans hrun'
  have hm : Registry m₂ := .of_requests (by decide) hrun
  intro id msg σ roomId r heq _ hroom hid hself
  cases heq
  have hthere := hm.entry.2 ⟨r, hroom, hid⟩
  cases hentry.symm.trans hthere
  simp [hroom, ← hself] at howner

/-- Left to its bots a room is abandoned, left to its owner it is not. -/
theorem rooms_tended_leftToBots :
    (lobby.Always NoneAbandoned {} leftToBots ↔
      lobby.EachStep (fun m op _ => OwnerLeavesLast m op) {} leftToBots) ∧
    (∃ m, lobby.run {} leftToOwner = some m ∧ m.playerRoomMap 2 = none) ∧
    lobby.Always NoneAbandoned {} leftToOwner := by
  refine ⟨rooms_tended (calls_of_requested (by decide)), ?_,
    (rooms_tended (calls_of_requested (by decide))).2 ownerLeavesLast_leftToOwner⟩
  exact Machine.exists_run_of_any (by decide +kernel)

/-- In the first of these rooms there are only bots, in the second there is no owner. -/
theorem rooms_abandoned : ¬ lobby.Always NoneAbandoned {} leftToBots ∧
    ¬ lobby.Always NoneAbandoned {} leftWithoutOwner := by
  constructor
  · intro hall
    obtain ⟨m, hrun, hm⟩ := Machine.exists_run_of_any (M := lobby) (s := {}) (l := leftToBots)
      (P := fun m => (m.listed "100000").any (fun r => decide (r.humans = [])) = true)
      (by decide +kernel)
    obtain ⟨r, hroom, hnobody⟩ := Machine.exists_of_any hm
    exact (hall.of_run hrun _ r hroom).humans hnobody
  · intro hall
    obtain ⟨m, hrun, hm⟩ := Machine.exists_run_of_any (M := lobby) (s := {})
      (l := leftWithoutOwner)
      (P := fun m => (m.listed "100000").any (fun r => decide (¬ r.containsPlayer r.ownerId)) = true)
      (by decide +kernel)
    obtain ⟨r, hroom, howner⟩ := Machine.exists_of_any hm
    exact howner (hall.of_run hrun _ r hroom).owner

end Guandan
