import Guandan.Room.Membership

/-!
# Who agrees to dismiss a room

The vote asks those on its list, and the list is that of the people who were there when it was
called. `Awaited` says that somebody on the list has not agreed yet, `Dissenting` that a member has
not; the two differ once people come or go.
-/

namespace Guandan

namespace DismissVoteEntry

def agreed (entry : DismissVoteEntry) : Bool := entry.voted && entry.agree

end DismissVoteEntry

namespace DismissVote

variable {v v' : DismissVote} {id other : PlayerId} {agree : Bool}

/-- The player is asked. -/
def listed (v : DismissVote) (id : PlayerId) : Prop := ∃ entry ∈ v.entries, entry.playerId = id

/-- The player has agreed. -/
def agreedBy (v : DismissVote) (id : PlayerId) : Prop :=
  ∃ entry ∈ v.entries, entry.playerId = id ∧ entry.agreed = true

instance (v : DismissVote) (id : PlayerId) : Decidable (v.agreedBy id) :=
  inferInstanceAs (Decidable (∃ entry ∈ v.entries, entry.playerId = id ∧ entry.agreed = true))

/-- Somebody else is asked who has not agreed. -/
def Awaited (v : DismissVote) (id : PlayerId) : Prop :=
  ∃ entry ∈ v.entries, entry.playerId ≠ id ∧ entry.agreed = false

instance (v : DismissVote) (id : PlayerId) : Decidable (v.Awaited id) :=
  inferInstanceAs (Decidable (∃ entry ∈ v.entries, _))

/-- A list has one entry for each player, and nobody on it has refused. -/
structure WellKept (v : DismissVote) : Prop where
  ids : (v.entries.map (·.playerId)).Nodup
  unopposed : v.hasRejection = false

theorem wellKept_empty : WellKept {} := ⟨List.nodup_nil, rfl⟩

theorem unopposed_iff : v.hasRejection = false ↔
    ∀ entry ∈ v.entries, entry.voted = true → entry.agree = true := by
  simp [hasRejection]

/-- Where every player has one entry the first is the only one. -/
theorem vote_eq_map {entries : List DismissVoteEntry} (h : (entries.map (·.playerId)).Nodup) :
    vote id agree entries = entries.map fun entry =>
      if entry.playerId = id then { entry with voted := true, agree := agree } else entry := by
  induction entries with
  | nil => rfl
  | cons entry entries ih =>
    rw [List.map_cons, List.nodup_cons] at h
    rw [vote, List.map_cons]
    by_cases heq : entry.playerId = id
    · rw [if_pos heq, if_pos heq]
      congr 1
      refine ((List.map_congr_left fun other hother => ?_).trans (List.map_id entries)).symm
      refine if_neg fun heq' => h.1 ?_
      rw [heq, ← heq']
      exact List.mem_map_of_mem hother
    · rw [if_neg heq, if_neg heq, ih h.2]

theorem recordVote_eq_some : v.recordVote id agree = some v' ↔ v.active = true ∧ v.listed id ∧
    v' = { v with entries := vote id agree v.entries } := by
  have hlisted : v.listed id ↔ v.entries.any (·.playerId == id) = true := by simp [listed]
  unfold recordVote
  rw [hlisted]
  split_ifs with hactive hthere
  · simp_all
  · have hopen : v.active = true := by simpa using hactive
    refine ⟨fun h => ⟨hopen, hthere, (Option.some.inj h).symm⟩, ?_⟩
    rintro ⟨-, -, rfl⟩
    rfl
  · simp_all

theorem allAgreed_iff : v.allAgreed = true ↔
    v.active = true ∧ v.entries ≠ [] ∧ ∀ entry ∈ v.entries, entry.agreed = true := by
  simp [allAgreed, DismissVoteEntry.agreed, and_assoc]

/-- The vote after a player on its list has agreed. -/
structure Agreed (v : DismissVote) (id : PlayerId) (v' : DismissVote) : Prop where
  active : v.active = true
  active' : v'.active = true
  listed : v.listed id
  wellKept : WellKept v'
  agreedBy : ∀ other, v'.agreedBy other ↔ other = id ∨ v.agreedBy other
  allAgreed : v'.allAgreed = true ↔ ¬ v.Awaited id

theorem recordVote_agreed (hv : WellKept v) (h : v.recordVote id true = some v') :
    Agreed v id v' := by
  obtain ⟨hactive, hlisted, rfl⟩ := recordVote_eq_some.1 h
  rw [vote_eq_map hv.ids]
  obtain ⟨mine, hmine, hid⟩ := hlisted
  refine ⟨hactive, hactive, ⟨mine, hmine, hid⟩, ⟨?_, ?_⟩, fun other => ?_, ?_⟩
  · have hids : ∀ entry : DismissVoteEntry,
        (if entry.playerId = id then { entry with voted := true, agree := true } else entry).playerId
          = entry.playerId := fun entry => by split_ifs <;> rfl
    simpa only [List.map_map, Function.comp_def, hids] using hv.ids
  · rw [unopposed_iff]
    intro entry hentry hvoted
    obtain ⟨old, hold, rfl⟩ := List.mem_map.1 hentry
    split_ifs at hvoted ⊢
    · rfl
    · exact unopposed_iff.1 hv.unopposed old hold hvoted
  · constructor
    · rintro ⟨entry, hentry, rfl, hagreed⟩
      obtain ⟨old, hold, rfl⟩ := List.mem_map.1 hentry
      split_ifs at hagreed ⊢ with heq
      · exact .inl heq
      · exact .inr ⟨old, hold, rfl, hagreed⟩
    · rintro (rfl | ⟨entry, hentry, rfl, hagreed⟩)
      · exact ⟨_, List.mem_map_of_mem hmine, by rw [if_pos hid]; exact hid, by rw [if_pos hid]; rfl⟩
      · refine ⟨_, List.mem_map_of_mem hentry, ?_⟩
        split_ifs
        · exact ⟨rfl, rfl⟩
        · exact ⟨rfl, hagreed⟩
  · rw [allAgreed_iff, Awaited]
    push Not
    have hne : v.entries ≠ [] := List.ne_nil_of_mem hmine
    simp only [hactive, ne_eq, List.map_eq_nil_iff, hne, not_false_eq_true, List.mem_map,
      forall_exists_index, and_imp, forall_apply_eq_imp_iff₂, true_and]
    refine forall₂_congr fun entry _ => ?_
    by_cases heq : entry.playerId = id
    · simp [heq, DismissVoteEntry.agreed]
    · simp [heq]

end DismissVote

namespace Room

variable {r r' : Room} {id : PlayerId}

/-- A member other than this one has not agreed. -/
def Dissenting (r : Room) (id : PlayerId) : Prop :=
  ∃ other ∈ r.humans, other ≠ id ∧ ¬ r.dismissVote.agreedBy other

instance (r : Room) (id : PlayerId) : Decidable (r.Dissenting id) :=
  inferInstanceAs (Decidable (∃ other ∈ r.humans, _))

/-- A vote is open in which every member has agreed, and nobody has refused. -/
structure Unanimous (r : Room) : Prop where
  active : r.dismissVote.active = true
  unopposed : r.dismissVote.hasRejection = false
  agreed : ∀ id ∈ r.humans, r.dismissVote.agreedBy id

instance (r : Room) : Decidable r.Unanimous :=
  decidable_of_iff (r.dismissVote.active = true ∧ r.dismissVote.hasRejection = false ∧
    ∀ id ∈ r.humans, r.dismissVote.agreedBy id)
    ⟨fun h => ⟨h.1, h.2.1, h.2.2⟩, fun h => ⟨h.active, h.unopposed, h.agreed⟩⟩

/-- A room has one entry for each person and its vote one for each that it asks. -/
structure VoteKept (r : Room) : Prop where
  humans : r.humans.Nodup
  vote : r.dismissVote.WellKept

theorem not_dissenting : ¬ r.Dissenting id ↔
    ∀ other ∈ r.humans, other = id ∨ r.dismissVote.agreedBy other := by
  simp [Dissenting, or_iff_not_imp_left]

/-! ### Votes -/

theorem voteDismiss_eq_some {agree : Bool} : r.voteDismiss id agree = some r' ↔
    isBotPlayer id = false ∧ ∃ vote, r.dismissVote.recordVote id agree = some vote ∧
      r' = { r with dismissVote := vote } := by
  unfold voteDismiss
  split_ifs with hbot
  · simp [hbot]
  · rw [Option.map_eq_some_iff]
    simp [hbot, eq_comm]

/-- A member of the list agrees: whether the room is dissolved depends on the list, whether it should
be depends on the members. -/
theorem voteDismiss_agreed (hr : VoteKept r) (h : r.voteDismiss id true = some r') :
    r.dismissVote.Agreed id r'.dismissVote ∧ (r'.Unanimous ↔ ¬ r.Dissenting id) := by
  obtain ⟨-, vote, hvote, rfl⟩ := voteDismiss_eq_some.1 h
  have hagreed := DismissVote.recordVote_agreed hr.vote hvote
  refine ⟨hagreed, ?_⟩
  rw [not_dissenting]
  constructor
  · intro hall other hother
    exact (hagreed.agreedBy other).1 (hall.agreed other hother)
  · intro hall
    exact ⟨hagreed.active', hagreed.wellKept.unopposed, fun other hother =>
      (hagreed.agreedBy other).2 (hall other hother)⟩

/-- The members are asked, and the one who calls the vote agrees. -/
theorem requestDismiss_eq_some : r.requestDismiss id = some r' → id ∈ r.humans ∧
    r' = { r with dismissVote := {
      active := true
      requesterId := id
      entries := r.humans.map fun other =>
        if other = id then { playerId := other, voted := true, agree := true }
        else { playerId := other } } } := by
  intro h
  unfold requestDismiss at h
  split_ifs at h with _ _ hmember
  rw [humanVoteEntries_eq, List.any_map, List.any_eq_true] at hmember
  obtain ⟨other, hother, heq⟩ := hmember
  obtain rfl : other = id := by simpa using heq
  obtain ⟨vote, hstart, rfl⟩ := Option.map_eq_some_iff.1 h
  unfold DismissVote.start at hstart
  split_ifs at hstart
  cases hstart
  refine ⟨hother, ?_⟩
  rw [humanVoteEntries_eq, List.map_map]
  rfl

/-- A new vote asks the members: so the list and the members agree. -/
theorem requestDismiss_called (hr : VoteKept r) (h : r.requestDismiss id = some r') :
    VoteKept r' ∧ (r'.Unanimous ↔ r'.dismissVote.allAgreed = true) := by
  obtain ⟨hmember, rfl⟩ := requestDismiss_eq_some h
  have hone : ∀ other : PlayerId,
      (if other = id then ({ playerId := other, voted := true, agree := true } : DismissVoteEntry)
        else { playerId := other }).playerId = other := fun other => by split_ifs <;> rfl
  have hunopposed : DismissVote.hasRejection {
      active := true
      requesterId := id
      entries := r.humans.map fun other =>
        if other = id then { playerId := other, voted := true, agree := true }
        else { playerId := other } } = false := by
    rw [DismissVote.unopposed_iff]
    intro entry hentry hvoted
    obtain ⟨other, -, rfl⟩ := List.mem_map.1 hentry
    split_ifs at hvoted ⊢
    rfl
  refine ⟨⟨hr.humans, ⟨?_, hunopposed⟩⟩, ?_⟩
  · simpa only [List.map_map, Function.comp_def, hone, List.map_id'] using hr.humans
  · rw [DismissVote.allAgreed_iff]
    constructor
    · intro hall
      refine ⟨rfl, List.ne_nil_of_mem (List.mem_map_of_mem hmember), fun entry hentry => ?_⟩
      obtain ⟨other, hother, rfl⟩ := List.mem_map.1 hentry
      obtain ⟨entry, hentry, heq, hagreed⟩ := hall.agreed other hother
      obtain ⟨third, -, rfl⟩ := List.mem_map.1 hentry
      rw [hone] at heq
      rwa [heq] at hagreed
    · rintro ⟨-, -, hall⟩
      refine ⟨rfl, hunopposed, fun other hother => ?_⟩
      exact ⟨_, List.mem_map_of_mem hother, hone other, hall _ (List.mem_map_of_mem hother)⟩

/-! ### Coming and going -/

theorem leave_unanimous (hr : VoteKept r) (hbot : isBotPlayer id = false) :
    (r.leave id).Unanimous ↔ r.dismissVote.active = true ∧ ¬ r.Dissenting id := by
  obtain ⟨hhumans, -, -, -, -, hvote⟩ := leave_spec (r := r) hbot
  rw [not_dissenting]
  constructor
  · intro hall
    refine ⟨hvote ▸ hall.active, fun other hother => or_iff_not_imp_left.2 fun hne => ?_⟩
    rw [← hvote]
    exact hall.agreed other (by simpa [hhumans] using ⟨hother, hne⟩)
  · rintro ⟨hactive, hall⟩
    refine ⟨hvote ▸ hactive, hvote ▸ hr.vote.unopposed, fun other hother => ?_⟩
    rw [hhumans, List.mem_filter, bne_iff_ne] at hother
    rw [hvote]
    exact (hall other hother.1).resolve_left hother.2

theorem unanimous_of_join (h : r.join id = some r') (hall : r'.Unanimous) : r.Unanimous := by
  obtain ⟨-, -, hhumans, -, -, -, -, hvote⟩ := join_spec h
  refine ⟨hvote ▸ hall.active, hvote ▸ hall.unopposed, fun other hother => ?_⟩
  rw [← hvote]
  exact hall.agreed other (by rw [hhumans]; exact List.mem_append_left _ hother)

theorem Undisturbed.unanimous (h : Undisturbed r r') : r'.Unanimous ↔ r.Unanimous := by
  constructor
  · intro hall
    refine ⟨h.vote ▸ hall.active, h.vote ▸ hall.unopposed, fun other hother => ?_⟩
    rw [← h.vote]
    exact hall.agreed other (by rwa [h.humans])
  · intro hall
    refine ⟨h.vote ▸ hall.active, h.vote ▸ hall.unopposed, fun other hother => ?_⟩
    rw [h.vote]
    exact hall.agreed other (by rwa [← h.humans])

namespace VoteKept

theorem create (roomId : RoomId) {ownerId : PlayerId} (mode : String)
    (hbot : isBotPlayer ownerId = false) : VoteKept (Room.create roomId ownerId mode) := by
  obtain ⟨hhumans, -, -, -, hvote⟩ := create_spec roomId mode hbot
  constructor
  · rw [hhumans]
    exact List.nodup_singleton ownerId
  · rw [hvote]
    exact DismissVote.wellKept_empty

theorem join (hr : VoteKept r) (h : r.join id = some r') : VoteKept r' := by
  obtain ⟨-, hnew, hhumans, -, -, -, -, hvote⟩ := join_spec h
  constructor
  · rw [hhumans, List.nodup_append]
    refine ⟨hr.humans, List.nodup_singleton id, ?_⟩
    rintro other hother _ hid rfl
    rw [List.mem_singleton] at hid
    subst hid
    obtain ⟨p, hp, rfl⟩ := List.mem_map.1 hother
    rw [← Bool.not_eq_true, containsPlayer_iff] at hnew
    exact hnew ⟨p, List.mem_of_mem_filter hp, rfl⟩
  · rw [hvote]
    exact hr.vote

theorem leave (hr : VoteKept r) (hbot : isBotPlayer id = false) : VoteKept (r.leave id) := by
  obtain ⟨hhumans, -, -, -, -, hvote⟩ := leave_spec (r := r) hbot
  constructor
  · rw [hhumans]
    exact hr.humans.filter _
  · rw [hvote]
    exact hr.vote

theorem cancel (hr : VoteKept r) (hsame : SameMembers r r') :
    VoteKept r'.cancelDismissVote ∧ ¬ r'.cancelDismissVote.Unanimous := by
  refine ⟨⟨?_, DismissVote.wellKept_empty⟩, fun hall => nomatch hall.active⟩
  show r'.humans.Nodup
  rw [hsame.humans]
  exact hr.humans

theorem voted (hr : VoteKept r) (h : r.voteDismiss id true = some r') : VoteKept r' := by
  refine ⟨?_, (voteDismiss_agreed hr h).1.wellKept⟩
  rw [(sameMembers_voteDismiss h).humans]
  exact hr.humans

theorem undisturbed (hr : VoteKept r) (h : Undisturbed r r') : VoteKept r' :=
  ⟨by rw [h.humans]; exact hr.humans, by rw [h.vote]; exact hr.vote⟩

end VoteKept

end Room

end Guandan
