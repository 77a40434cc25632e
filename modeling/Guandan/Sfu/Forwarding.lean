import Guandan.Sfu.RoomTable
import Mathlib.Data.List.Induction
import Mathlib.Data.List.Nodup
import Mathlib.Data.List.Perm.Basic

/-!
# Forwarding of tracks

Participants who join one room and send one track each, in any order of these events: who is given whose
track.
-/

namespace Guandan.Sfu

structure Participant (T : Type*) where
  ws : Nat
  playerId : String
  track : T
  deriving DecidableEq

inductive Arrival (T : Type*)
  | joins (p : Participant T)
  | sends (p : Participant T)
  deriving DecidableEq

section Orders

variable {R T : Type*}

def Arrival.toOp (roomId : R) : Arrival T → SfuOp R T
  | .joins p => .join p.ws roomId p.playerId
  | .sends p => .track p.ws p.track

def Arrival.joiner : Arrival T → Option (Participant T)
  | .joins p => some p
  | .sends _ => none

/-- Who joins in a list of events, in this order. -/
def joined (events : List (Arrival T)) : List (Participant T) := events.filterMap Arrival.joiner

/-- Everybody joins once, and sends one track after that; sockets, players and tracks are different. -/
structure Interleaving (ps : List (Participant T)) (events : List (Arrival T)) : Prop where
  sockets : (ps.map Participant.ws).Nodup
  players : (ps.map Participant.playerId).Nodup
  tracks : (ps.map Participant.track).Nodup
  perm : events.Perm (ps.map .joins ++ ps.map .sends)
  order : ∀ p ∈ ps, [.joins p, .sends p].Sublist events

/-- What the peer connection of a participant was given. -/
def SfuServer.given (s : SfuServer R T) (p : Participant T) : List T :=
  match (s.sockets p.ws).self with
  | none => []
  | some self => s.tracks self.pc

theorem pair_sublist_concat {α : Type*} {a b c : α} {l : List α} :
    [a, b].Sublist (l ++ [c]) ↔ [a, b].Sublist l ∨ (b = c ∧ a ∈ l) := by
  have hreversed : [a, b].Sublist l ↔ [b, a].Sublist l.reverse := List.reverse_sublist.symm
  rw [hreversed, ← List.reverse_sublist, List.reverse_append, List.reverse_singleton,
    List.singleton_append, List.reverse_cons, List.reverse_singleton, List.singleton_append,
    List.sublist_cons_iff]
  refine or_congr_right ?_
  simp [eq_comm]

theorem mem_joined {p : Participant T} {events : List (Arrival T)} :
    p ∈ joined events ↔ .joins p ∈ events := by
  simp only [joined, List.mem_filterMap]
  constructor
  · rintro ⟨event, hevent, hp⟩
    cases event with
    | joins q => cases hp; exact hevent
    | sends q => cases hp
  · exact fun h => ⟨_, h, rfl⟩

end Orders

section Tracks

variable {R T : Type*} {s : SfuServer R T} {sender : String} {pc : Nat} {track : T}

/-- A connection that is of none of the other members is given nothing. -/
theorem tracks_foldl_of_not {room : List PeerEntry}
    (h : ∀ peer ∈ room, peer.pc = pc → peer.playerId = sender) :
    (room.foldl (fun s peer =>
      if peer.playerId = sender then s else s.addTrack peer.pc track) s).tracks pc = s.tracks pc := by
  induction room generalizing s with
  | nil => rfl
  | cons peer room ih =>
    rw [List.foldl_cons, ih fun peer hpeer => h peer (List.mem_cons_of_mem _ hpeer)]
    split_ifs with hsender
    · rfl
    · have hpc : pc ≠ peer.pc := fun hpc => hsender (h peer (List.mem_cons_self ..) hpc.symm)
      unfold SfuServer.addTrack
      split_ifs
      · rfl
      · exact Function.update_of_ne hpc ..

/-- A connection of another member is given the track, once. -/
theorem tracks_foldl_of_mem {room : List PeerEntry} {member : PeerEntry}
    (hpcs : (room.map PeerEntry.pc).Nodup)
    (hclosed : s.closedPcs = []) (hmem : member ∈ room) (hsender : member.playerId ≠ sender) :
    (room.foldl (fun s peer =>
      if peer.playerId = sender then s else s.addTrack peer.pc track) s).tracks member.pc =
        s.tracks member.pc ++ [track] := by
  induction room generalizing s with
  | nil => cases hmem
  | cons peer room ih =>
    rw [List.map_cons, List.nodup_cons] at hpcs
    rw [List.foldl_cons]
    rcases List.mem_cons.1 hmem with rfl | hmem
    · have hrest : ∀ peer ∈ room, peer.pc = member.pc → peer.playerId = sender :=
        fun peer hpeer hpc => absurd (List.mem_map.2 ⟨peer, hpeer, hpc⟩) hpcs.1
      rw [tracks_foldl_of_not hrest, if_neg hsender, SfuServer.addTrack, if_neg (by simp [hclosed])]
      exact Function.update_self ..
    · have hpc : member.pc ≠ peer.pc := fun hpc => hpcs.1 (List.mem_map.2 ⟨member, hmem, hpc⟩)
      split_ifs with hself
      · exact ih hpcs.2 hclosed hmem
      · rw [ih hpcs.2 ((SfuServer.addTrack_frame peer.pc track).2.2.2.1.trans hclosed) hmem,
          SfuServer.addTrack, if_neg (by simp [hclosed])]
        exact congrArg (· ++ [track]) (Function.update_of_ne hpc ..)

end Tracks

/-! ### The room while events are handled -/

section Room

variable {R T : Type*} [DecidableEq R] [DecidableEq T] {truthy : R → Bool} {roomId : R}
  {ps : List (Participant T)} {events done rest : List (Arrival T)} {p q : Participant T}
  {s s' : SfuServer R T}

/-- The entry of a participant: peer connections are numbered in the order of the joins. -/
def entryOf (events : List (Arrival T)) (p : Participant T) : PeerEntry :=
  ⟨p.ws, (joined events).idxOf p, p.playerId⟩

/-- After a part of the events, the room has who joined, and each of them the tracks that were sent
since. -/
structure Present (roomId : R) (ps : List (Participant T)) (events done : List (Arrival T))
    (s : SfuServer R T) : Prop where
  closed : ∀ ws, s.closed ws = false
  closedPcs : s.closedPcs = []
  pcs : s.pcs = (joined done).length
  room : (s.rooms roomId).getD [] = (joined done).map (entryOf events)
  sockets : ∀ p ∈ joined done,
    s.sockets p.ws = ⟨some roomId, some p.playerId, some (entryOf events p)⟩
  given : ∀ p ∈ ps, ∀ q ∈ ps, p ≠ q → (s.tracks (entryOf events p).pc).count q.track =
    if [.joins p, .sends q].Sublist done then 1 else 0

section Interleavings

omit [DecidableEq T]

theorem Interleaving.nodup_ps (h : Interleaving ps events) : ps.Nodup := List.Nodup.of_map _ h.sockets

theorem Interleaving.nodup (h : Interleaving ps events) : events.Nodup := by
  refine h.perm.nodup_iff.2 (List.nodup_append.2 ⟨?_, ?_, ?_⟩)
  · exact h.nodup_ps.map fun _ _ heq => Arrival.joins.inj heq
  · exact h.nodup_ps.map fun _ _ heq => Arrival.sends.inj heq
  · intro a ha b hb heq
    obtain ⟨p, -, rfl⟩ := List.mem_map.1 ha
    obtain ⟨q, -, rfl⟩ := List.mem_map.1 hb
    cases heq

theorem Interleaving.joined_perm (h : Interleaving ps events) : (joined events).Perm ps := by
  have hjoins : (ps.map Arrival.joins).filterMap Arrival.joiner = ps := by
    rw [List.filterMap_map]
    exact List.filterMap_some
  have hsends : (ps.map Arrival.sends).filterMap Arrival.joiner = [] := by
    rw [List.filterMap_map]
    exact List.filterMap_eq_nil_iff.2 fun _ _ => rfl
  have hperm := h.perm.filterMap Arrival.joiner
  rwa [List.filterMap_append, hjoins, hsends, List.append_nil] at hperm

theorem Interleaving.mem_of_joins (h : Interleaving ps events) (hp : .joins p ∈ events) : p ∈ ps :=
  h.joined_perm.mem_iff.1 (mem_joined.2 hp)

theorem Interleaving.mem_of_sends (h : Interleaving ps events) (hp : .sends p ∈ events) : p ∈ ps := by
  have hmem := h.perm.mem_iff.1 hp
  simpa using hmem

theorem joined_concat_joins : joined (done ++ [.joins p]) = joined done ++ [p] := by
  simp [joined, Arrival.joiner]

theorem joined_concat_sends : joined (done ++ [.sends p]) = joined done := by
  simp [joined, Arrival.joiner]

/-- Whose turn it is to join is not there yet. -/
theorem Interleaving.not_mem_joined (h : Interleaving ps (done ++ .joins p :: rest)) : p ∉ joined done := by
  intro hp
  have hdisjoint := (List.nodup_append.1 h.nodup).2.2
  exact hdisjoint _ (mem_joined.1 hp) _ (List.mem_cons_self ..) rfl

theorem Interleaving.sends_not_mem (h : Interleaving ps (done ++ .sends p :: rest)) :
    .sends p ∉ done := by
  intro hp
  exact (List.nodup_append.1 h.nodup).2.2 _ hp _ (List.mem_cons_self ..) rfl

/-- Who sends a track is there. -/
theorem Interleaving.mem_joined_of_sends (h : Interleaving ps (done ++ .sends p :: rest)) :
    p ∈ joined done := by
  have horder := h.order p (h.mem_of_sends (by simp))
  obtain ⟨front, back, heq, hfront, hback⟩ := List.sublist_append_iff.1 horder
  cases front with
  | nil =>
    -- both would come after the track
    obtain rfl : _ = back := heq
    rcases List.sublist_cons_iff.1 hback with hback | ⟨_, hback, -⟩
    · have hnot := (List.nodup_cons.1 (List.nodup_append.1 h.nodup).2.1).1
      exact absurd (hback.subset (by simp)) hnot
    · cases hback
  | cons event front =>
    obtain ⟨rfl, -⟩ := List.cons.inj heq
    exact mem_joined.2 (hfront.subset (List.mem_cons_self ..))

end Interleavings

/-! ### The steps -/

theorem present_join (h : Interleaving ps (done ++ .joins p :: rest))
    (hs : Present roomId ps (done ++ .joins p :: rest) done s) :
    Present roomId ps (done ++ .joins p :: rest) (done ++ [.joins p]) (s.join p.ws roomId p.playerId) := by
  have hp := h.not_mem_joined
  have hps : ∀ q ∈ joined done, q ∈ ps := fun q hq =>
    h.mem_of_joins (List.mem_append_left _ (mem_joined.1 hq))
  have hpps : p ∈ ps := h.mem_of_joins (by simp)
  have hself : (⟨p.ws, s.pcs, p.playerId⟩ : PeerEntry) = entryOf (done ++ .joins p :: rest) p := by
    have hjoined : joined (done ++ .joins p :: rest) = joined done ++ p :: joined rest := by
      simp [joined, Arrival.joiner]
    rw [entryOf, hjoined, List.idxOf_append_of_notMem hp, List.idxOf_cons_self, hs.pcs, Nat.add_zero]
  constructor
  · exact hs.closed
  · exact hs.closedPcs
  · rw [joined_concat_joins, List.length_append, ← hs.pcs]
    rfl
  · have hnew : ((s.rooms roomId).getD []).any (·.playerId == p.playerId) = false := by
      rw [hs.room, List.any_map, List.any_eq_false]
      intro q hq hsame
      have heq : q = p :=
        List.inj_on_of_nodup_map h.players (hps q hq) hpps (beq_iff_eq.1 hsame)
      exact hp (heq ▸ hq)
    have hroom : (s.join p.ws roomId p.playerId).rooms roomId =
        some (setPeer ((s.rooms roomId).getD []) ⟨p.ws, s.pcs, p.playerId⟩) := Function.update_self ..
    rw [hroom, Option.getD_some, setPeer, if_neg (by simp [hnew]), hs.room, hself, joined_concat_joins,
      List.map_append]
    rfl
  · intro q hq
    rw [joined_concat_joins, List.mem_append, List.mem_singleton] at hq
    have hsockets : (s.join p.ws roomId p.playerId).sockets = Function.update s.sockets p.ws
        ⟨some roomId, some p.playerId, some ⟨p.ws, s.pcs, p.playerId⟩⟩ := rfl
    rcases hq with hq | rfl
    · have hws : q.ws ≠ p.ws := by
        intro hws
        have heq : q = p := List.inj_on_of_nodup_map h.sockets (hps q hq) hpps hws
        exact hp (heq ▸ hq)
      rw [hsockets, Function.update_of_ne hws]
      exact hs.sockets q hq
    · rw [hsockets, Function.update_self, hself]
  · intro q hq q' hq' hne
    have hbefore : [Arrival.joins q, .sends q'].Sublist (done ++ [.joins p]) ↔
        [Arrival.joins q, .sends q'].Sublist done := by
      rw [pair_sublist_concat]
      simp
    simp only [hbefore]
    exact hs.given q hq q' hq' hne

theorem entryOf_pc_inj (hp : p ∈ joined events) (heq : (entryOf events p).pc = (entryOf events q).pc) :
    p = q :=
  (List.idxOf_inj hp).1 heq

omit [DecidableEq R] [DecidableEq T] in
theorem onTrack_eq (hp : (s.sockets p.ws).roomId = some roomId)
    (hplayer : (s.sockets p.ws).playerId = some p.playerId) :
    s.onTrack p.ws p.track = ((s.rooms roomId).getD []).foldl (fun s peer =>
      if peer.playerId = p.playerId then s else s.addTrack peer.pc p.track) s := by
  simp only [SfuServer.onTrack, hp, hplayer, SfuServer.forwardTrackToRoom]
  cases s.rooms roomId <;> rfl

omit [DecidableEq R] in
/-- A track is added to the connections of who is there, and not to that of the sender. -/
theorem tracks_onTrack (h : Interleaving ps events) (hdone : ∀ q ∈ joined done, q ∈ joined events)
    (hnodup : (joined done).Nodup) (hs : Present roomId ps events done s) (hq : q ∈ joined done)
    (hp : p ∈ joined events) :
    (s.onTrack q.ws q.track).tracks (entryOf events p).pc =
      if p ∈ joined done ∧ p ≠ q then s.tracks (entryOf events p).pc ++ [q.track]
      else s.tracks (entryOf events p).pc := by
  have hvars := hs.sockets q hq
  rw [onTrack_eq (by rw [hvars]) (by rw [hvars]), hs.room]
  split_ifs with hmember
  · refine tracks_foldl_of_mem ?_ hs.closedPcs (List.mem_map.2 ⟨p, hmember.1, rfl⟩) ?_
    · rw [List.map_map]
      exact hnodup.map_on fun x hx y _ heq => entryOf_pc_inj (hdone x hx) heq
    · exact fun heq => hmember.2 (List.inj_on_of_nodup_map h.players
        (h.joined_perm.mem_iff.1 hp) (h.joined_perm.mem_iff.1 (hdone q hq)) heq)
  · refine tracks_foldl_of_not fun peer hpeer hpc => ?_
    obtain ⟨x, hx, rfl⟩ := List.mem_map.1 hpeer
    obtain rfl := entryOf_pc_inj (hdone x hx) hpc
    by_contra hplayer
    exact hmember ⟨hx, fun heq => hplayer (congrArg Participant.playerId heq)⟩

omit [DecidableEq R] in
theorem present_track (h : Interleaving ps (done ++ .sends q :: rest))
    (hs : Present roomId ps (done ++ .sends q :: rest) done s) :
    Present roomId ps (done ++ .sends q :: rest) (done ++ [.sends q]) (s.onTrack q.ws q.track) := by
  obtain ⟨hrooms, hsockets, hclosed, hclosedPcs, hpcs⟩ := SfuServer.onTrack_frame (s := s) q.ws q.track
  have hq := h.mem_joined_of_sends
  have hdone : ∀ p ∈ joined done, p ∈ joined (done ++ .sends q :: rest) := fun p hp =>
    mem_joined.2 (List.mem_append_left _ (mem_joined.1 hp))
  have hnodup : (joined done).Nodup := by
    have hall := h.joined_perm.nodup_iff.2 h.nodup_ps
    rw [joined, List.filterMap_append] at hall
    exact (List.nodup_append.1 hall).1
  constructor
  · rw [hclosed]
    exact hs.closed
  · rw [hclosedPcs]
    exact hs.closedPcs
  · rw [hpcs, joined_concat_sends]
    exact hs.pcs
  · rw [hrooms, joined_concat_sends]
    exact hs.room
  · rw [hsockets, joined_concat_sends]
    exact hs.sockets
  · intro p hp x hx hne
    rw [tracks_onTrack h hdone hnodup hs hq (h.joined_perm.mem_iff.2 hp)]
    have hgiven := hs.given p hp x hx hne
    simp only [pair_sublist_concat, Arrival.sends.injEq, ← mem_joined]
    by_cases hxq : x = q
    · -- nobody had the track before
      subst hxq
      have hnew : ¬ [Arrival.joins p, .sends x].Sublist done := fun hsub =>
        h.sends_not_mem (hsub.subset (by simp))
      rw [if_neg hnew] at hgiven
      by_cases hpj : p ∈ joined done
      · simp [hpj, hne, hgiven]
      · simp [hpj, hnew, hgiven]
    · have htrack : x.track ≠ q.track := fun heq => hxq
        (List.inj_on_of_nodup_map h.tracks hx (h.mem_of_sends (by simp)) heq)
      have hcount (l : List T) : (l ++ [q.track]).count x.track = l.count x.track := by
        simp [List.count_append, Ne.symm htrack]
      rw [apply_ite (List.count x.track), hcount, ite_self, hgiven]
      simp [hxq]

theorem present_run (h : Interleaving ps events) (heq : done ++ rest = events) :
    ∃ s : SfuServer R T, (sfuServer truthy).run {} (done.map (Arrival.toOp roomId)) = some s ∧
      Present roomId ps events done s := by
  subst heq
  induction done using List.reverseRecOn generalizing rest with
  | nil =>
    refine ⟨{}, rfl, fun _ => rfl, rfl, rfl, rfl, by simp [joined], fun p _ q _ _ => ?_⟩
    rw [if_neg (by simp)]
    rfl
  | append_singleton done event ih =>
    rw [List.append_assoc, List.singleton_append] at h ⊢
    obtain ⟨s, hrun, hs⟩ := ih h
    rw [List.map_append, Machine.run_append, hrun]
    cases event with
    | joins p =>
      refine ⟨_, ?_, present_join h hs⟩
      simp [Machine.run, sfuServer, Arrival.toOp, SfuServer.apply, hs.closed]
    | sends q =>
      refine ⟨_, ?_, present_track h hs⟩
      have hself : (s.sockets q.ws).self = some (entryOf (done ++ .sends q :: rest) q) := by
        rw [hs.sockets q h.mem_joined_of_sends]
      simp [Machine.run, sfuServer, Arrival.toOp, SfuServer.apply, hself, hs.closedPcs]

/-- In every interleaving, everybody is given the track of everybody else once exactly when everybody's join
comes before the tracks of all the others. -/
theorem forwarding_iff (h : Interleaving ps events) :
    ∃ s : SfuServer R T, (sfuServer truthy).run {} (events.map (Arrival.toOp roomId)) = some s ∧
      ((∀ p ∈ ps, ∀ q ∈ ps, p ≠ q → (s.given p).count q.track = 1) ↔
        ∀ p ∈ ps, ∀ q ∈ ps, p ≠ q → [.joins p, .sends q].Sublist events) := by
  obtain ⟨s, hrun, hs⟩ : ∃ s : SfuServer R T,
      (sfuServer truthy).run {} (events.map (Arrival.toOp roomId)) = some s ∧
        Present roomId ps events events s :=
    present_run h (List.append_nil events)
  refine ⟨s, hrun, forall₂_congr fun p hp => forall₂_congr fun q hq => forall_congr' fun hne => ?_⟩
  have hvars := hs.sockets p (h.joined_perm.mem_iff.2 hp)
  have hgiven : s.given p = s.tracks (entryOf events p).pc := by
    rw [SfuServer.given, hvars]
  rw [hgiven, hs.given p hp q hq hne]
  split_ifs with hbefore
  · exact iff_of_true rfl hbefore
  · exact iff_of_false (by decide) hbefore

end Room

/-- Two participants who both join first. -/
theorem forwarding_two : ∃ s : SfuServer String String,
    (sfuServer fun roomId => roomId != "").run {} ([.joins ⟨0, "a", "s"⟩, .joins ⟨1, "b", "t"⟩,
      .sends ⟨1, "b", "t"⟩, .sends ⟨0, "a", "s"⟩].map (Arrival.toOp "r")) = some s ∧
      ((∀ p ∈ [⟨0, "a", "s"⟩, ⟨1, "b", "t"⟩], ∀ q ∈ [⟨0, "a", "s"⟩, ⟨1, "b", "t"⟩], p ≠ q →
        (s.given p).count q.track = 1) ↔
        ∀ p ∈ [⟨0, "a", "s"⟩, ⟨1, "b", "t"⟩], ∀ q ∈ [⟨0, "a", "s"⟩, ⟨1, "b", "t"⟩], p ≠ q →
          [Arrival.joins p, .sends q].Sublist [.joins ⟨0, "a", "s"⟩, .joins ⟨1, "b", "t"⟩,
            .sends ⟨1, "b", "t"⟩, .sends ⟨0, "a", "s"⟩]) :=
  forwarding_iff ⟨by decide, by decide, by decide, by decide, by decide⟩

/-- The second participant joins when the first has sent its track. -/
theorem forwarding_late_joiner : ∃ s : SfuServer String String,
    (sfuServer fun roomId => roomId != "").run {} ([.joins ⟨0, "a", "s"⟩, .sends ⟨0, "a", "s"⟩,
      .joins ⟨1, "b", "t"⟩, .sends ⟨1, "b", "t"⟩].map (Arrival.toOp "r")) = some s ∧
      s.given ⟨0, "a", "s"⟩ = ["t"] ∧ s.given ⟨1, "b", "t"⟩ = [] :=
  ⟨_, rfl, by decide, by decide⟩

end Guandan.Sfu
