import Guandan.Library.Histories
import Guandan.Library.Machine
import Mathlib.Logic.Function.Basic
import Mathlib.Data.List.Basic

/-!
# The room table of the SFU

`server.js` of the audio server. A socket keeps the room and the player of its last join in variables, and
the table of the rooms is keyed by room and player. A room id is whatever value a message has for it, with
the language's own notion of which values count as true; sockets and peer connections are numbered.
-/

namespace Guandan.Sfu

structure PeerEntry where
  ws : Nat
  pc : Nat
  playerId : String
  deriving DecidableEq, Repr

/-- The variables of a socket, `null` until its first join. -/
structure SocketVars (R : Type*) where
  roomId : Option R := none
  playerId : Option String := none
  self : Option PeerEntry := none

structure SfuServer (R T : Type*) where
  rooms : R → Option (List PeerEntry) := fun _ => none
  sockets : Nat → SocketVars R := fun _ => {}
  closed : Nat → Bool := fun _ => false
  /-- How many peer connections were made. -/
  pcs : Nat := 0
  closedPcs : List Nat := []
  /-- The tracks that were added to each peer connection. -/
  tracks : Nat → List T := fun _ => []

/-- `room.set`: an entry is replaced where it stands. -/
def setPeer (room : List PeerEntry) (self : PeerEntry) : List PeerEntry :=
  if room.any (·.playerId == self.playerId) then
    room.map fun peer => if peer.playerId == self.playerId then self else peer
  else room ++ [self]

namespace SfuServer

variable {R T : Type*} [DecidableEq R] (truthy : R → Bool)

/-- A track is added to a connection; for a closed one `addTrack` throws, and the error is logged. -/
def addTrack (s : SfuServer R T) (pc : Nat) (track : T) : SfuServer R T :=
  if pc ∈ s.closedPcs then s
  else { s with tracks := Function.update s.tracks pc (s.tracks pc ++ [track]) }

def forwardTrackToRoom (s : SfuServer R T) (roomId : R) (fromPlayerId : String) (track : T) :
    SfuServer R T :=
  match s.rooms roomId with
  | none => s
  | some room => room.foldl (fun s peer =>
      if peer.playerId = fromPlayerId then s else s.addTrack peer.pc track) s

def removePeer (s : SfuServer R T) (roomId : R) (playerId : String) : SfuServer R T :=
  match s.rooms roomId with
  | none => s
  | some room =>
    let s := match room.find? (·.playerId == playerId) with
      | some peer => { s with closedPcs := s.closedPcs ++ [peer.pc] }
      | none => s
    let room := room.filter (·.playerId != playerId)
    { s with rooms := Function.update s.rooms roomId (if room.isEmpty then none else some room) }

/-- A message of type `join`. -/
def join (s : SfuServer R T) (ws : Nat) (roomId : R) (playerId : String) : SfuServer R T :=
  let room := (s.rooms roomId).getD []
  let self := { ws := ws, pc := s.pcs, playerId := playerId }
  { s with
    pcs := s.pcs + 1
    rooms := Function.update s.rooms roomId (some (setPeer room self))
    sockets := Function.update s.sockets ws ⟨some roomId, some playerId, some self⟩ }

/-- `ontrack` of the peer connection of a socket. -/
def onTrack (s : SfuServer R T) (ws : Nat) (track : T) : SfuServer R T :=
  match (s.sockets ws).roomId, (s.sockets ws).playerId with
  | some roomId, some playerId => s.forwardTrackToRoom roomId playerId track
  | _, _ => s

def onClose (s : SfuServer R T) (ws : Nat) : SfuServer R T :=
  let s := { s with closed := Function.update s.closed ws true }
  match (s.sockets ws).roomId, (s.sockets ws).playerId with
  | some roomId, some playerId =>
    if truthy roomId && playerId != "" then s.removePeer roomId playerId else s
  | _, _ => s

end SfuServer

/-- What happens on a socket, or on the peer connection it made last. -/
inductive SfuOp (R T : Type*)
  | join (ws : Nat) (roomId : R) (playerId : String)
  | track (ws : Nat) (track : T)
  | close (ws : Nat)

namespace SfuServer

variable {R T : Type*} [DecidableEq R] (truthy : R → Bool)

/-- A socket is silent once it is closed, and so is a peer connection. -/
def apply (s : SfuServer R T) : SfuOp R T → Option (SfuServer R T)
  | .join ws roomId playerId => if s.closed ws then none else some (s.join ws roomId playerId)
  | .track ws track => match (s.sockets ws).self with
    | none => none
    | some self => if self.pc ∈ s.closedPcs then none else some (s.onTrack ws track)
  | .close ws => if s.closed ws then none else some (s.onClose truthy ws)

end SfuServer

def sfuServer {R T : Type*} [DecidableEq R] (truthy : R → Bool) : Machine (SfuServer R T) (SfuOp R T) Unit :=
  ⟨fun s op => (s.apply truthy op).map (·, ())⟩

/-! ### Entries -/

theorem find?_setPeer (room : List PeerEntry) (self : PeerEntry) (playerId : String) :
    (setPeer room self).find? (·.playerId == playerId) =
      if playerId = self.playerId then some self else room.find? (·.playerId == playerId) := by
  unfold setPeer
  by_cases hany : room.any (·.playerId == self.playerId) = true
  · rw [if_pos hany, List.find?_map]
    have hsame : ((·.playerId == playerId) ∘ fun peer : PeerEntry =>
        if peer.playerId == self.playerId then self else peer) = (·.playerId == playerId) := by
      funext peer
      simp only [Function.comp_apply, beq_iff_eq]
      split_ifs with hpeer
      · rw [hpeer]
      · rfl
    rw [hsame]
    split_ifs with hself
    · obtain ⟨peer, hmem, hpeer⟩ := List.any_eq_true.1 hany
      have hsome : (room.find? (·.playerId == playerId)).isSome :=
        List.find?_isSome.2 ⟨peer, hmem, hself ▸ hpeer⟩
      obtain ⟨found, hfound⟩ := Option.isSome_iff_exists.1 hsome
      have hid := List.find?_some hfound
      rw [hfound, Option.map_some, if_pos (hself ▸ hid)]
    · cases hfound : room.find? (·.playerId == playerId) with
      | none => rfl
      | some found =>
        have hid : found.playerId = playerId := by simpa using List.find?_some hfound
        rw [Option.map_some, if_neg (by simpa [hid] using hself)]
  · rw [if_neg hany, List.find?_append]
    split_ifs with hself
    · have hnone : room.find? (·.playerId == playerId) = none := by
        rw [List.find?_eq_none]
        intro peer hpeer hid
        exact hany (List.any_eq_true.2 ⟨peer, hpeer, hself ▸ hid⟩)
      rw [hnone, hself]
      simp
    · simp [Ne.symm hself]

theorem find?_filter_ne (room : List PeerEntry) (gone playerId : String) :
    (room.filter (·.playerId != gone)).find? (·.playerId == playerId) =
      if playerId = gone then none else room.find? (·.playerId == playerId) := by
  split_ifs with hgone
  · rw [List.find?_eq_none]
    intro peer hpeer
    have hne := (List.mem_filter.1 hpeer).2
    rw [hgone]
    simpa using hne
  · induction room with
    | nil => rfl
    | cons peer room ih =>
      by_cases hpeer : peer.playerId = gone
      · have hne : ¬ peer.playerId = playerId := fun h => hgone (h.symm.trans hpeer)
        simp [hpeer, ih, Ne.symm hgone]
      · simp [hpeer, List.find?_cons, ih]

namespace SfuServer

variable {R T : Type*} [DecidableEq R] {truthy : R → Bool} {s : SfuServer R T}
  {ws socket : Nat} {roomId : R} {playerId : String} {key : R × String}

/-- The socket that the table has for a room and a player. -/
def owner (s : SfuServer R T) (key : R × String) : Option Nat :=
  ((s.rooms key.1).bind fun room => room.find? (·.playerId == key.2)).map PeerEntry.ws

/-- What a socket joined last. -/
def lastJoin (s : SfuServer R T) (ws : Nat) : Option (R × String) :=
  (s.sockets ws).roomId.bind fun roomId => (s.sockets ws).playerId.map fun playerId => (roomId, playerId)

/-- The entries that the end of a socket removes. -/
def Removed (truthy : R → Bool) (s : SfuServer R T) (ws : Nat) (key : R × String) : Prop :=
  s.lastJoin ws = some key ∧ truthy key.1 = true ∧ key.2 ≠ ""

instance : Decidable (Removed truthy s ws key) := inferInstanceAs (Decidable (_ ∧ _ ∧ _))

theorem owner_join : (s.join ws roomId playerId).owner key =
    if key = (roomId, playerId) then some ws else s.owner key := by
  obtain ⟨room, player⟩ := key
  simp only [owner, join, Function.update_apply, Prod.mk.injEq]
  by_cases hroom : room = roomId
  · subst hroom
    rw [if_pos rfl, Option.bind_some, find?_setPeer]
    by_cases hplayer : player = playerId
    · simp [hplayer]
    · cases s.rooms room <;> simp [hplayer]
  · simp [hroom]

theorem rooms_removePeer {peers : List PeerEntry} (h : s.rooms roomId = some peers) :
    (s.removePeer roomId playerId).rooms = Function.update s.rooms roomId
      (if (peers.filter (·.playerId != playerId)).isEmpty then none
        else some (peers.filter (·.playerId != playerId))) := by
  simp only [removePeer, h]
  cases peers.find? (·.playerId == playerId) <;> rfl

theorem owner_removePeer : (s.removePeer roomId playerId).owner key =
    if key = (roomId, playerId) then none else s.owner key := by
  obtain ⟨room, player⟩ := key
  simp only [Prod.mk.injEq]
  cases hrooms : s.rooms roomId with
  | none =>
    have hsame : s.removePeer roomId playerId = s := by simp only [removePeer, hrooms]
    rw [hsame]
    split_ifs with hkey
    · rw [owner, hkey.1, hrooms]
      rfl
    · rfl
  | some peers =>
    by_cases hroom : room = roomId
    · subst hroom
      have hfind : (if (peers.filter (·.playerId != playerId)).isEmpty then none
          else some (peers.filter (·.playerId != playerId))).bind
            (fun room => room.find? (·.playerId == player)) =
          (peers.filter (·.playerId != playerId)).find? (·.playerId == player) := by
        split_ifs with hempty
        · rw [List.isEmpty_iff.1 hempty]
          rfl
        · rfl
      rw [owner, rooms_removePeer hrooms, Function.update_self, hfind, find?_filter_ne, owner, hrooms]
      by_cases hplayer : player = playerId
      · simp [hplayer]
      · simp [hplayer]
    · rw [owner, rooms_removePeer hrooms, Function.update_of_ne hroom]
      simp [hroom, owner]

omit [DecidableEq R] in
theorem addTrack_frame (pc : Nat) (track : T) : (s.addTrack pc track).rooms = s.rooms ∧
    (s.addTrack pc track).sockets = s.sockets ∧ (s.addTrack pc track).closed = s.closed ∧
    (s.addTrack pc track).closedPcs = s.closedPcs ∧ (s.addTrack pc track).pcs = s.pcs := by
  unfold addTrack
  split_ifs <;> exact ⟨rfl, rfl, rfl, rfl, rfl⟩

omit [DecidableEq R] in
/-- Only tracks are added. -/
theorem foldl_addTrack_frame (room : List PeerEntry) (track : T) (t : SfuServer R T)
    (ht : t = room.foldl (fun s peer =>
      if peer.playerId = playerId then s else s.addTrack peer.pc track) s) :
    t.rooms = s.rooms ∧ t.sockets = s.sockets ∧ t.closed = s.closed ∧
      t.closedPcs = s.closedPcs ∧ t.pcs = s.pcs := by
  subst ht
  induction room generalizing s with
  | nil => exact ⟨rfl, rfl, rfl, rfl, rfl⟩
  | cons peer room ih =>
    rw [List.foldl_cons]
    split_ifs
    · exact ih
    · obtain ⟨hrooms, hsockets, hclosed, hclosedPcs, hpcs⟩ := addTrack_frame (s := s) peer.pc track
      rw [← hrooms, ← hsockets, ← hclosed, ← hclosedPcs, ← hpcs]
      exact ih

omit [DecidableEq R] in
theorem onTrack_frame (ws : Nat) (track : T) : (s.onTrack ws track).rooms = s.rooms ∧
    (s.onTrack ws track).sockets = s.sockets ∧ (s.onTrack ws track).closed = s.closed ∧
    (s.onTrack ws track).closedPcs = s.closedPcs ∧ (s.onTrack ws track).pcs = s.pcs := by
  unfold onTrack forwardTrackToRoom
  split
  · split
    · exact ⟨rfl, rfl, rfl, rfl, rfl⟩
    · exact foldl_addTrack_frame _ track _ rfl
  · exact ⟨rfl, rfl, rfl, rfl, rfl⟩

omit [DecidableEq R] in
theorem owner_onTrack (track : T) : (s.onTrack ws track).owner key = s.owner key := by
  rw [owner, (onTrack_frame ws track).1, owner]

omit [DecidableEq R] in
theorem lastJoin_onTrack (track : T) : (s.onTrack ws track).lastJoin socket = s.lastJoin socket := by
  rw [lastJoin, (onTrack_frame ws track).2.1, lastJoin]

/-- The server without a socket, its entries left as they are. -/
def shut (s : SfuServer R T) (ws : Nat) : SfuServer R T :=
  { s with closed := Function.update s.closed ws true }

theorem onClose_of_lastJoin (h : s.lastJoin ws = some (roomId, playerId)) : s.onClose truthy ws =
    if truthy roomId && playerId != "" then (s.shut ws).removePeer roomId playerId else s.shut ws := by
  obtain ⟨room, hroom, hrest⟩ := Option.bind_eq_some_iff.1 h
  obtain ⟨player, hplayer, hkey⟩ := Option.map_eq_some_iff.1 hrest
  obtain ⟨rfl, rfl⟩ := Prod.mk.inj hkey
  simp only [onClose, hroom, hplayer]
  rfl

theorem onClose_of_none (h : s.lastJoin ws = none) : s.onClose truthy ws = s.shut ws := by
  unfold lastJoin at h
  unfold onClose
  dsimp only
  split
  next roomId playerId hroom hplayer => simp [hroom, hplayer] at h
  next => rfl

theorem owner_onClose : (s.onClose truthy ws).owner key =
    if s.Removed truthy ws key then none else s.owner key := by
  cases hlast : s.lastJoin ws with
  | none =>
    rw [onClose_of_none hlast, if_neg fun hremoved => by cases hlast.symm.trans hremoved.1]
    rfl
  | some last =>
    obtain ⟨roomId, playerId⟩ := last
    rw [onClose_of_lastJoin hlast]
    by_cases hremoved : (truthy roomId && playerId != "") = true
    · rw [if_pos hremoved, owner_removePeer]
      rw [Bool.and_eq_true, bne_iff_ne] at hremoved
      have hiff : s.Removed truthy ws key ↔ key = (roomId, playerId) := by
        rw [Removed, hlast, Option.some.injEq]
        constructor
        · rintro ⟨hkey, -, -⟩
          exact hkey.symm
        · rintro rfl
          exact ⟨rfl, hremoved⟩
      simp only [hiff]
      rfl
    · rw [if_neg hremoved, if_neg]
      · rfl
      · rintro ⟨hkey, htruthy, hne⟩
        obtain rfl := Option.some.inj (hlast.symm.trans hkey)
        exact hremoved (by simp [htruthy, hne])

theorem removePeer_frame : (s.removePeer roomId playerId).sockets = s.sockets ∧
    (s.removePeer roomId playerId).closed = s.closed := by
  unfold removePeer
  split
  · exact ⟨rfl, rfl⟩
  · dsimp only
    split <;> exact ⟨rfl, rfl⟩

theorem onClose_frame : (s.onClose truthy ws).sockets = s.sockets ∧
    (s.onClose truthy ws).closed = Function.update s.closed ws true := by
  cases hlast : s.lastJoin ws with
  | none =>
    rw [onClose_of_none hlast]
    exact ⟨rfl, rfl⟩
  | some last =>
    rw [onClose_of_lastJoin hlast]
    split_ifs
    · exact removePeer_frame
    · exact ⟨rfl, rfl⟩

theorem lastJoin_onClose : (s.onClose truthy ws).lastJoin socket = s.lastJoin socket := by
  rw [lastJoin, onClose_frame.1, lastJoin]

theorem lastJoin_join : (s.join ws roomId playerId).lastJoin socket =
    if socket = ws then some (roomId, playerId) else s.lastJoin socket := by
  simp only [lastJoin, join, Function.update_apply]
  split_ifs <;> rfl

end SfuServer

/-! ### Who an entry belongs to -/

section Joins

variable {K : Type*} {isOpen : Nat → Prop} {joins : List (Nat × K)} {ws ws₀ : Nat} {key key₀ : K}

/-- What a socket joined last, in a list of joins from the first to the last. -/
def IsLast (joins : List (Nat × K)) (ws : Nat) (key : K) : Prop :=
  ∃ before rest, joins = before ++ (ws, key) :: rest ∧ ∀ join ∈ rest, join.1 ≠ ws

/-- An open socket that joined `key` last, and no other open socket joined it later. -/
def Holds (isOpen : Nat → Prop) (joins : List (Nat × K)) (ws : Nat) (key : K) : Prop :=
  isOpen ws ∧ ∃ before rest, joins = before ++ (ws, key) :: rest ∧ (∀ join ∈ rest, join.1 ≠ ws) ∧
    ∀ join ∈ rest, isOpen join.1 → join.2 ≠ key

theorem isLast_iff : IsLast joins ws key ↔ Histories.Since (·.1 ≠ ws) joins (ws, key) := Iff.rfl

theorem holds_iff : Holds isOpen joins ws key ↔
    isOpen ws ∧
      Histories.Since (fun join => join.1 ≠ ws ∧ (isOpen join.1 → join.2 ≠ key)) joins (ws, key) := by
  refine and_congr_right fun _ => exists_congr fun before => exists_congr fun rest =>
    and_congr_right fun _ => ?_
  exact ⟨fun ⟨hlast, hlater⟩ join hjoin => ⟨hlast join hjoin, hlater join hjoin⟩,
    fun h => ⟨fun join hjoin => (h join hjoin).1, fun join hjoin => (h join hjoin).2⟩⟩

theorem Holds.isLast (h : Holds isOpen joins ws key) : IsLast joins ws key :=
  (holds_iff.1 h).2.mono fun _ hjoin => hjoin.1

theorem isLast_concat : IsLast (joins ++ [(ws₀, key₀)]) ws key ↔
    (ws = ws₀ ∧ key = key₀) ∨ (ws ≠ ws₀ ∧ IsLast joins ws key) := by
  rw [isLast_iff, isLast_iff, Histories.since_concat, Prod.mk.injEq]
  refine or_congr (and_congr eq_comm eq_comm) (and_congr_left' ?_)
  exact ne_comm

/-- A new join takes the entry over, and gives up what the socket had. -/
theorem holds_concat (hopen : isOpen ws₀) : Holds isOpen (joins ++ [(ws₀, key₀)]) ws key ↔
    (ws = ws₀ ∧ key = key₀) ∨ (ws ≠ ws₀ ∧ key ≠ key₀ ∧ Holds isOpen joins ws key) := by
  rw [holds_iff, holds_iff, Histories.since_concat]
  constructor
  · rintro ⟨hws, heq | ⟨⟨hne, hkey⟩, hsince⟩⟩
    · cases heq
      exact .inl ⟨rfl, rfl⟩
    · exact .inr ⟨hne.symm, (hkey hopen).symm, hws, hsince⟩
  · rintro (⟨rfl, rfl⟩ | ⟨hne, hkey, hws, hsince⟩)
    · exact ⟨hopen, .inl rfl⟩
    · exact ⟨hws, .inr ⟨⟨hne.symm, fun _ => hkey.symm⟩, hsince⟩⟩

/-- Who holds an entry still holds it when fewer sockets are open. -/
theorem Holds.anti {isOpen' : Nat → Prop} (h : Holds isOpen joins ws key) (hws : isOpen' ws)
    (hsub : ∀ ws, isOpen' ws → isOpen ws) : Holds isOpen' joins ws key :=
  holds_iff.2 ⟨hws, (holds_iff.1 h).2.mono fun _ hjoin => ⟨hjoin.1, fun hopen => hjoin.2 (hsub _ hopen)⟩⟩

end Joins

/-! ### Runs -/

section Runs

variable {R T : Type*} [DecidableEq R] {truthy : R → Bool}

/-- The joins so far. -/
def recordJoin (joins : List (Nat × R × String)) (_ : SfuServer R T) (op : SfuOp R T) (_ : Unit)
    (_ : SfuServer R T) : List (Nat × R × String) :=
  match op with
  | .join ws roomId playerId => joins ++ [(ws, roomId, playerId)]
  | .track .. | .close .. => joins

def SfuServer.IsOpen (s : SfuServer R T) (ws : Nat) : Prop := s.closed ws = false

/-- The table has an entry for a socket exactly when the socket holds it. -/
def TableFollows (sj : SfuServer R T × List (Nat × R × String)) : Prop :=
  ∀ key ws, sj.1.owner key = some ws ↔ Holds sj.1.IsOpen sj.2 ws key

/-- The variables of a socket are those of its last join. -/
def VarsFollow (sj : SfuServer R T × List (Nat × R × String)) : Prop :=
  ∀ ws key, sj.1.lastJoin ws = some key ↔ IsLast sj.2 ws key

/-- A socket joins while it has no other entry. It closes with a room and a player that count as true if it
holds an entry; and nobody is to hold an entry after it who does not hold it before, nor the one it joined
last. -/
def Orderly (truthy : R → Bool) (sj : SfuServer R T × List (Nat × R × String)) : SfuOp R T → Prop
  | .join ws roomId playerId => ∀ key, sj.1.owner key = some ws → key = (roomId, playerId)
  | .track .. => True
  | .close ws =>
    (∀ key, Holds sj.1.IsOpen sj.2 ws key → truthy key.1 = true ∧ key.2 ≠ "") ∧
    ∀ ws' key, Holds (fun socket => sj.1.IsOpen socket ∧ socket ≠ ws) sj.2 ws' key →
      Holds sj.1.IsOpen sj.2 ws' key ∧ ¬ sj.1.Removed truthy ws key

variable {sj sj' : SfuServer R T × List (Nat × R × String)}

theorem sfuStep_cases {op : SfuOp R T} {o : Unit}
    (hstep : ((sfuServer truthy).withHistory recordJoin).step sj op = some (sj', o)) :
    (∃ ws roomId playerId, op = .join ws roomId playerId ∧ sj.1.IsOpen ws ∧
      sj' = (sj.1.join ws roomId playerId, sj.2 ++ [(ws, roomId, playerId)])) ∨
    (∃ ws track, op = .track ws track ∧ sj' = (sj.1.onTrack ws track, sj.2)) ∨
    ∃ ws, op = .close ws ∧ sj' = (sj.1.onClose truthy ws, sj.2) := by
  obtain ⟨hs, hj⟩ := Machine.withHistory_step.1 hstep
  obtain ⟨s, joins⟩ := sj
  obtain ⟨s', joins'⟩ := sj'
  dsimp only at hs hj
  subst hj
  simp only [sfuServer, Option.map_eq_some_iff, Prod.mk.injEq, and_true] at hs
  obtain ⟨t, happly, rfl⟩ := hs
  cases op with
  | join ws roomId playerId =>
    simp only [SfuServer.apply] at happly
    split_ifs at happly with hclosed
    obtain rfl := Option.some.inj happly
    exact .inl ⟨ws, roomId, playerId, rfl, by simpa [SfuServer.IsOpen] using hclosed, rfl⟩
  | track ws track =>
    simp only [SfuServer.apply] at happly
    split at happly
    · cases happly
    · split_ifs at happly
      obtain rfl := Option.some.inj happly
      exact .inr (.inl ⟨ws, track, rfl, rfl⟩)
  | close ws =>
    simp only [SfuServer.apply] at happly
    split_ifs at happly
    obtain rfl := Option.some.inj happly
    exact .inr (.inr ⟨ws, rfl, rfl⟩)

theorem varsFollow_step {op : SfuOp R T} {o : Unit} (h : VarsFollow sj)
    (hstep : ((sfuServer truthy).withHistory recordJoin).step sj op = some (sj', o)) :
    VarsFollow sj' := by
  intro socket key
  obtain ⟨ws, roomId, playerId, rfl, -, rfl⟩ | ⟨ws, track, rfl, rfl⟩ | ⟨ws, rfl, rfl⟩ :=
    sfuStep_cases hstep
  · rw [isLast_concat, ← h, SfuServer.lastJoin_join]
    split_ifs with hws
    · simp [hws, eq_comm]
    · simp [hws]
  · rw [SfuServer.lastJoin_onTrack]
    exact h socket key
  · rw [SfuServer.lastJoin_onClose]
    exact h socket key

section Steps

variable {s : SfuServer R T} {joins : List (Nat × R × String)}

/-- A join leaves the entry of its socket under another key where it is. -/
theorem tableFollows_join {ws : Nat} {roomId : R} {playerId : String} (hopen : s.IsOpen ws)
    (htable : TableFollows (s, joins)) :
    TableFollows (s.join ws roomId playerId, joins ++ [(ws, roomId, playerId)]) ↔
      Orderly truthy (s, joins) (.join ws roomId playerId) := by
  have hspec (key : R × String) (socket : Nat) :
      Holds (s.join ws roomId playerId).IsOpen (joins ++ [(ws, roomId, playerId)]) socket key ↔
        (socket = ws ∧ key = (roomId, playerId)) ∨
          (socket ≠ ws ∧ key ≠ (roomId, playerId) ∧ s.owner key = some socket) := by
    rw [htable key socket]
    exact holds_concat hopen
  simp only [TableFollows, hspec, SfuServer.owner_join, Orderly]
  constructor
  · intro hfollows key howner
    by_contra hkey
    have hother := (hfollows key ws).1 (by rw [if_neg hkey, howner])
    simp [hkey] at hother
  · intro horderly key socket
    split_ifs with hkey
    · simp [hkey, eq_comm]
    · refine ⟨fun howner => .inr ⟨?_, hkey, howner⟩, ?_⟩
      · rintro rfl
        exact hkey (horderly key howner)
      · rintro (⟨-, hkey'⟩ | ⟨-, -, howner⟩)
        · exact absurd hkey' hkey
        · exact howner

/-- A close removes the entry of the last join, whoever has it. -/
theorem tableFollows_close {ws : Nat} (h : VarsFollow (s, joins)) (htable : TableFollows (s, joins)) :
    TableFollows (s.onClose truthy ws, joins) ↔ Orderly truthy (s, joins) (.close ws) := by
  have hopen (socket : Nat) :
      (s.onClose truthy ws).IsOpen socket ↔ s.IsOpen socket ∧ socket ≠ ws := by
    rw [SfuServer.IsOpen, SfuServer.onClose_frame.2, Function.update_apply, SfuServer.IsOpen]
    split_ifs with hsocket
    · simp [hsocket]
    · simp [hsocket]
  have hspec : (s.onClose truthy ws).IsOpen = fun socket => s.IsOpen socket ∧ socket ≠ ws :=
    funext fun socket => propext (hopen socket)
  simp only [TableFollows, hspec, SfuServer.owner_onClose, Orderly]
  constructor
  · intro hfollows
    refine ⟨fun key hholds => ?_, fun socket key hholds => ?_⟩
    · by_contra hfalsy
      have hkept : ¬ s.Removed truthy ws key := fun hremoved => hfalsy hremoved.2
      have howner := (hfollows key ws).1 (by rw [if_neg hkept]; exact (htable key ws).2 hholds)
      exact howner.1.2 rfl
    · have howner := (hfollows key socket).2 hholds
      split_ifs at howner with hremoved
      exact ⟨(htable key socket).1 howner, hremoved⟩
  · rintro ⟨htruthy, hheir⟩ key socket
    split_ifs with hremoved
    · exact iff_of_false nofun fun hholds => (hheir socket key hholds).2 hremoved
    · rw [htable key socket]
      refine ⟨fun hholds => ?_, fun hholds => (hheir socket key hholds).1⟩
      have hsocket : socket ≠ ws := by
        rintro rfl
        exact hremoved ⟨(h socket key).2 hholds.isLast, htruthy key hholds⟩
      exact hholds.anti ⟨hholds.1, hsocket⟩ fun _ hws => hws.1

end Steps

theorem tableFollows_step {op : SfuOp R T} {o : Unit} (h : VarsFollow sj) (htable : TableFollows sj)
    (hstep : ((sfuServer truthy).withHistory recordJoin).step sj op = some (sj', o)) :
    TableFollows sj' ↔ Orderly truthy sj op := by
  obtain ⟨ws, roomId, playerId, rfl, hopen, rfl⟩ | ⟨ws, track, rfl, rfl⟩ | ⟨ws, rfl, rfl⟩ :=
    sfuStep_cases hstep
  · exact tableFollows_join hopen htable
  · refine iff_of_true (fun key socket => ?_) trivial
    have hopen : (sj.1.onTrack ws track).IsOpen = sj.1.IsOpen := by
      funext socket
      rw [SfuServer.IsOpen, (SfuServer.onTrack_frame ws track).2.2.1, SfuServer.IsOpen]
    rw [SfuServer.owner_onTrack, hopen]
    exact htable key socket
  · exact tableFollows_close h htable

/-- Along every run of the server, the table follows the sockets exactly when every join and every close is
an orderly one. -/
theorem roomTable_follows_iff (ops : List (SfuOp R T)) :
    ((sfuServer truthy).withHistory recordJoin).Always TableFollows ({}, []) ops ↔
      ((sfuServer truthy).withHistory recordJoin).EachStep (fun sj op _ => Orderly truthy sj op)
        ({}, []) ops := by
  have hvars : VarsFollow (({}, []) : SfuServer R T × List (Nat × R × String)) := by
    intro ws key
    refine iff_of_false nofun ?_
    rintro ⟨before, rest, heq, -⟩
    simp at heq
  have htable : TableFollows (({}, []) : SfuServer R T × List (Nat × R × String)) := by
    intro key ws
    refine iff_of_false nofun ?_
    rintro ⟨-, before, rest, heq, -⟩
    simp at heq
  have hfollows : ((sfuServer truthy).withHistory recordJoin).Follows (fun _ _ => True)
      (({}, []) : SfuServer R T × List (Nat × R × String)) ops := .of_forall fun _ _ _ => trivial
  exact Machine.always_iff_eachStep (J := VarsFollow) (fun _ _ _ _ h _ hstep => varsFollow_step h hstep)
    (fun _ _ _ _ h htable _ hstep => tableFollows_step h htable hstep) hvars htable hfollows

end Runs

/-- A player reconnects, and the old socket closes: the entry of the new one is removed. -/
theorem roomTable_reconnect_lost :
    ∃ sj : SfuServer String String × List (Nat × String × String),
      ((sfuServer fun roomId => roomId != "").withHistory recordJoin).run ({}, [])
        [.join 0 "r" "p", .join 1 "r" "p", .close 0] = some sj ∧
      sj.1.owner ("r", "p") = none ∧ ¬ TableFollows sj := by
  refine ⟨_, rfl, by decide, fun hfollows => ?_⟩
  have howner := (hfollows ("r", "p") 1).2
    ⟨rfl, [(0, "r", "p")], [], rfl, by simp, by simp⟩
  revert howner
  decide

end Guandan.Sfu
