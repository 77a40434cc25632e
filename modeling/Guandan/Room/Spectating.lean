import Guandan.Engine.Hands
import Guandan.Room.Room

/-!
# Who sees whose cards

The part of `room.cpp` that decides from which seat a player's view is taken. A player who has
finished watches a teammate who has not: the stored target if it is still one of these, else the
first. What a view shows depends on the cards of the viewer and of that seat only, and on how many
cards the others hold.
-/

namespace Guandan

/-- The seats that players chose to watch; nothing is forgotten before the next deal. -/
abbrev SpectateTargets := PlayerId → Option Nat

namespace Room

def clearSpectateTargets : SpectateTargets := fun _ => none

def spectatableTeammateSeats (r : Room) (viewerId : PlayerId) : List Nat :=
  match r.engine.seatOf viewerId with
  | none => []
  | some viewerSeat => GameEngine.spectatableTeammates r.engine.state viewerSeat

def resolveViewAnchor (r : Room) (targets : SpectateTargets) (viewerId : PlayerId) : Option Nat :=
  match r.engine.seatOf viewerId with
  | none => none
  | some viewerSeat =>
    if !(r.engine.state.players viewerSeat).hasFinished then some viewerSeat
    else match r.spectatableTeammateSeats viewerId with
      | [] => some viewerSeat
      | front :: others => match targets viewerId with
        | some target => if target ∈ front :: others then some target else some front
        | none => some front

def setSpectateTarget (r : Room) (targets : SpectateTargets) (viewerId : PlayerId)
    (targetSeat : Int) : Option SpectateTargets :=
  ((r.spectatableTeammateSeats viewerId).find? fun seat : Nat => (seat : Int) == targetSeat).map
    fun seat => Function.update targets viewerId (some seat)

/-- What `sendPlayerView` sends. -/
def playerView (r : Room) (targets : SpectateTargets) (viewerId : PlayerId) : Option PlayerView :=
  r.engine.buildViewFor viewerId (r.resolveViewAnchor targets viewerId)

/-! ### The anchor of a view -/

/-- The seat of another player of the team who has not finished. -/
structure UnfinishedTeammate (s : GameState) (viewerSeat seat : Nat) : Prop where
  lt : seat < s.playerCount
  ne : seat ≠ viewerSeat
  team : (s.players seat).team = (s.players viewerSeat).team
  unfinished : (s.players seat).hasFinished = false

/-- No seat for who is not seated, the own seat, or that of an unfinished teammate for who has
finished. -/
inductive ViewAnchor (r : Room) (viewerId : PlayerId) : Option Nat → Prop
  | notSeated : r.engine.seatOf viewerId = none → ViewAnchor r viewerId none
  | own {viewerSeat : Nat} : r.engine.seatOf viewerId = some viewerSeat →
      ViewAnchor r viewerId (some viewerSeat)
  | watched {viewerSeat seat : Nat} : r.engine.seatOf viewerId = some viewerSeat →
      (r.engine.state.players viewerSeat).hasFinished = true →
      UnfinishedTeammate r.engine.state viewerSeat seat → ViewAnchor r viewerId (some seat)

section Anchor

variable {r : Room} {targets targets' : SpectateTargets} {viewerId : PlayerId} {viewerSeat seat : Nat}

theorem mem_spectatableTeammates {s : GameState}
    (h : seat ∈ GameEngine.spectatableTeammates s viewerSeat) :
    (s.players viewerSeat).hasFinished = true ∧ UnfinishedTeammate s viewerSeat seat := by
  unfold GameEngine.spectatableTeammates at h
  split_ifs at h with hfinished
  · simp only [List.mem_filter, List.mem_range, Bool.and_eq_true, bne_iff_ne, ne_eq, beq_iff_eq,
      Bool.not_eq_true'] at h
    obtain ⟨hlt, ⟨hne, hteam⟩, hunfinished⟩ := h
    exact ⟨hfinished, hlt, hne, hteam, hunfinished⟩
  · cases h

theorem mem_spectatableTeammateSeats (hseat : r.engine.seatOf viewerId = some viewerSeat)
    (h : seat ∈ r.spectatableTeammateSeats viewerId) : ViewAnchor r viewerId (some seat) := by
  rw [spectatableTeammateSeats, hseat] at h
  obtain ⟨hfinished, hteammate⟩ := mem_spectatableTeammates h
  exact .watched hseat hfinished hteammate

/-- Whatever targets are stored, the view is taken from a seat that the viewer may see. -/
theorem viewAnchor (r : Room) (targets : SpectateTargets) (viewerId : PlayerId) :
    ViewAnchor r viewerId (r.resolveViewAnchor targets viewerId) := by
  unfold resolveViewAnchor
  rcases hseat : r.engine.seatOf viewerId with _ | viewerSeat
  · exact .notSeated hseat
  dsimp only
  split_ifs with hfinished
  · exact .own hseat
  rcases hteammates : r.spectatableTeammateSeats viewerId with _ | ⟨front, others⟩
  · exact .own hseat
  have hwatched : ∀ seat ∈ front :: others, ViewAnchor r viewerId (some seat) := fun seat hmem =>
    mem_spectatableTeammateSeats hseat (hteammates ▸ hmem)
  rcases targets viewerId with _ | target <;> dsimp only
  · exact hwatched front (List.mem_cons_self ..)
  · split_ifs with htarget
    · exact hwatched target htarget
    · exact hwatched front (List.mem_cons_self ..)

/-- A target that is accepted is the seat that is watched from then on. -/
theorem resolveViewAnchor_setSpectateTarget {targetSeat : Int}
    (h : r.setSpectateTarget targets viewerId targetSeat = some targets') :
    ∃ seat : Nat, (seat : Int) = targetSeat ∧
      r.resolveViewAnchor targets' viewerId = some seat ∧
      ∀ id, id ≠ viewerId → targets' id = targets id := by
  obtain ⟨seat, hfind, rfl⟩ := Option.map_eq_some_iff.1 h
  have hmem := List.mem_of_find?_eq_some hfind
  refine ⟨seat, by simpa using List.find?_some hfind, ?_, fun id hne => Function.update_of_ne hne ..⟩
  rcases hseat : r.engine.seatOf viewerId with _ | viewerSeat
  · simp [spectatableTeammateSeats, hseat] at hmem
  have hfinished : (r.engine.state.players viewerSeat).hasFinished = true := by
    rw [spectatableTeammateSeats, hseat] at hmem
    exact (mem_spectatableTeammates hmem).1
  unfold resolveViewAnchor
  rw [hseat]
  rcases hteammates : r.spectatableTeammateSeats viewerId with _ | ⟨front, others⟩
  · rw [hteammates] at hmem
    cases hmem
  · rw [hteammates] at hmem
    simp only [hfinished, Function.update_self, Bool.not_true, Bool.false_eq_true, if_false]
    exact if_pos hmem

end Anchor

/-! ### Two tables that a viewer cannot tell apart -/

/-- The viewer's own seat and the one its view is taken from. -/
def Seen (r : Room) (targets : SpectateTargets) (viewerId : PlayerId) (i : Nat) : Prop :=
  r.engine.seatOf viewerId = some i ∨ r.resolveViewAnchor targets viewerId = some i

/-- The room where the seats hold these cards. -/
def withHands (r : Room) (hands : Nat → List CardId) : Room :=
  { r with engine := { r.engine with state := r.engine.state.withHands hands } }

/-- As many cards on every seat, and the same where the viewer sees them. -/
structure SameToViewer (r : Room) (targets : SpectateTargets) (viewerId : PlayerId)
    (hands : Nat → List CardId) : Prop where
  sizes : ∀ i < r.engine.state.playerCount, (hands i).length = (r.engine.state.hands i).length
  seen : ∀ i, r.Seen targets viewerId i → hands i = r.engine.state.hands i

section TwoTables

variable {r : Room} {targets : SpectateTargets} {viewerId : PlayerId} {hands : Nat → List CardId}

theorem resolveViewAnchor_withHands :
    (r.withHands hands).resolveViewAnchor targets viewerId = r.resolveViewAnchor targets viewerId :=
  rfl

/-- What a viewer is asked to give or return depends on its own cards. -/
theorem view_withHands (viewerSeat : Option Nat)
    (h : ∀ i, viewerSeat = some i → hands i = r.engine.state.hands i) :
    (r.withHands hands).engine.viewRequired viewerSeat = r.engine.viewRequired viewerSeat ∧
      (r.withHands hands).engine.viewReturns viewerSeat = r.engine.viewReturns viewerSeat := by
  rcases viewerSeat with _ | seat
  · exact ⟨rfl, rfl⟩
  have hhand : ((r.withHands hands).engine.state.players seat).hand =
      (r.engine.state.players seat).hand := congrArg Hand.mk (h seat rfl)
  unfold GameEngine.viewRequired GameEngine.viewReturns
  dsimp only
  rw [hhand]
  exact ⟨rfl, rfl⟩

theorem otherPlayer_withHands {i : Nat}
    (hsize : (hands i).length = (r.engine.state.hands i).length) :
    GameEngine.otherPlayer (r.withHands hands).engine.state i =
      GameEngine.otherPlayer r.engine.state i := by
  have hcount : ((r.withHands hands).engine.state.players i).hand.size =
      (r.engine.state.players i).hand.size := hsize
  unfold GameEngine.otherPlayer
  rw [hcount]
  rfl

/-- The cards a view shows are those of a seat that is seen. -/
theorem seen_of_anchorSeat {seat : Nat}
    (h : r.engine.anchorSeat (r.engine.seatOf viewerId) (r.resolveViewAnchor targets viewerId) =
      some seat) : r.Seen targets viewerId seat := by
  unfold GameEngine.anchorSeat at h
  rcases hresolve : r.resolveViewAnchor targets viewerId with _ | anchor <;> rw [hresolve] at h
  · exact .inl h
  · dsimp only at h
    split_ifs at h
    · exact .inr (hresolve.trans h)
    · exact .inl h

theorem playerView_withHands (h : r.SameToViewer targets viewerId hands) :
    (r.withHands hands).playerView targets viewerId = r.playerView targets viewerId := by
  obtain ⟨hrequired, hreturns⟩ := view_withHands (r.engine.seatOf viewerId)
    fun i hi => h.seen i (.inl hi)
  have hothers : ∀ shown : Nat → Bool, ((List.range r.engine.state.playerCount).filter shown).map
      (GameEngine.otherPlayer (r.withHands hands).engine.state) =
      ((List.range r.engine.state.playerCount).filter shown).map
        (GameEngine.otherPlayer r.engine.state) := by
    intro shown
    refine List.map_congr_left fun i hi => otherPlayer_withHands (h.sizes i ?_)
    exact List.mem_range.1 (List.mem_filter.1 hi).1
  have hcount : (r.withHands hands).engine.state.playerCount = r.engine.state.playerCount := rfl
  have hseat : (r.withHands hands).engine.seatOf viewerId = r.engine.seatOf viewerId := rfl
  have hanchor : (r.withHands hands).engine.anchorSeat = r.engine.anchorSeat := rfl
  unfold playerView GameEngine.buildViewFor
  rw [resolveViewAnchor_withHands]
  dsimp only
  rw [hseat, hanchor, hcount, hrequired, hreturns, hothers]
  rcases hshown : r.engine.anchorSeat (r.engine.seatOf viewerId)
    (r.resolveViewAnchor targets viewerId) with _ | seat
  · rfl
  · have hcards : ((r.withHands hands).engine.state.players seat).hand.cards =
        (r.engine.state.players seat).hand.cards := h.seen seat (seen_of_anchorSeat hshown)
    dsimp only
    rw [hcards]
    rfl

end TwoTables

/-- Whatever targets are stored: the view of a player is taken from no seat, from the own one or, for
who has finished, from that of an unfinished teammate; and it is the same if the seats that are not
seen hold other cards. -/
theorem hidden_hands (r : Room) (targets : SpectateTargets) (viewerId : PlayerId) :
    ViewAnchor r viewerId (r.resolveViewAnchor targets viewerId) ∧
      ∀ hands, r.SameToViewer targets viewerId hands →
        (r.withHands hands).playerView targets viewerId = r.playerView targets viewerId :=
  ⟨r.viewAnchor targets viewerId, fun _ h => playerView_withHands h⟩

/-- A table at play: player 1 has finished and watches seat 2, and seats 1 and 3 hold these cards. -/
def watchedTable (cards : List CardId) : Room :=
  { Room.create "room" 1 "solo" with
    engine := { state :=
      { phase := .playing
        playerCount := 4
        players := fun i =>
          { id := i + 1
            seatIndex := i
            team := GameEngine.seatTeam i
            hand := ⟨if i = 0 then [] else if i = 2 then [9, 10] else cards⟩
            hasFinished := i == 0 } } } }

theorem hidden_hands_watchedTable :
    (watchedTable [5, 6]).resolveViewAnchor clearSpectateTargets 1 = some 2 ∧
      (watchedTable [7, 8]).playerView clearSpectateTargets 1 =
        (watchedTable [5, 6]).playerView clearSpectateTargets 1 := by
  refine ⟨by decide, ?_⟩
  refine (hidden_hands (watchedTable [5, 6]) clearSpectateTargets 1).2
    (watchedTable [7, 8]).engine.state.hands ⟨?_, ?_⟩
  · decide
  · rintro i (hi | hi)
    · cases (by decide : (watchedTable [5, 6]).engine.seatOf 1 = some 0).symm.trans hi
      rfl
    · cases (by decide :
        (watchedTable [5, 6]).resolveViewAnchor clearSpectateTargets 1 = some 2).symm.trans hi
      rfl

end Room

end Guandan
