import Guandan.Voice.VoicePacket

/-!
# Voice rooms

`voice_room_manager.cpp`, and what `voice_server.cpp` does with a datagram. A `std::string` is its bytes,
and time is in nanoseconds. `pruneIdle` visits the clients in the order of its hash table, which is an
argument here; nothing below depends on it.
-/

namespace Guandan.Voice

structure VoiceSocketAddr where
  sinAddr : UInt32
  sinPort : UInt16
  deriving DecidableEq, Repr

structure VoiceClient where
  userId : UInt32
  roomId : List UInt8
  addr : VoiceSocketAddr
  lastSeen : Int
  deriving DecidableEq, Repr

structure VoiceRoomManager where
  clients : UInt32 → Option VoiceClient := fun _ => none
  roomMembers : List UInt8 → Option (List UInt32) := fun _ => none

/-- A room that loses its last member is erased. -/
def removeFromRoom (rooms : List UInt8 → Option (List UInt32)) (roomId : List UInt8) (userId : UInt32) :
    List UInt8 → Option (List UInt32) :=
  match rooms roomId with
  | none => rooms
  | some members =>
    let members := members.filter (· != userId)
    Function.update rooms roomId (if members.isEmpty then none else some members)

namespace VoiceRoomManager

def join (m : VoiceRoomManager) (userId : UInt32) (roomId : List UInt8) (addr : VoiceSocketAddr)
    (now : Int) : VoiceRoomManager :=
  let rooms := match m.clients userId with
    | some existing =>
      if existing.roomId ≠ roomId then removeFromRoom m.roomMembers existing.roomId userId
      else m.roomMembers
    | none => m.roomMembers
  let members := (rooms roomId).getD []
  { clients := Function.update m.clients userId (some ⟨userId, roomId, addr, now⟩)
    roomMembers := Function.update rooms roomId
      (some (if userId ∈ members then members else members ++ [userId])) }

def leave (m : VoiceRoomManager) (userId : UInt32) : VoiceRoomManager :=
  match m.clients userId with
  | none => m
  | some client =>
    { clients := Function.update m.clients userId none
      roomMembers := removeFromRoom m.roomMembers client.roomId userId }

def touch (m : VoiceRoomManager) (userId : UInt32) (addr : VoiceSocketAddr) (now : Int) :
    VoiceRoomManager :=
  match m.clients userId with
  | none => m
  | some client =>
    { m with
      clients := Function.update m.clients userId (some { client with addr := addr, lastSeen := now }) }

def peersExcept (m : VoiceRoomManager) (userId : UInt32) (roomId : List UInt8) : List VoiceSocketAddr :=
  match m.roomMembers roomId with
  | none => []
  | some members => (members.filter (· != userId)).filterMap fun memberId =>
      (m.clients memberId).map VoiceClient.addr

def roomIdForUser (m : VoiceRoomManager) (userId : UInt32) : Option (List UInt8) :=
  (m.clients userId).map VoiceClient.roomId

/-- One client of the loop of `pruneIdle`. -/
def pruneClient (maxIdle now : Int) (m : VoiceRoomManager) (userId : UInt32) : VoiceRoomManager :=
  match m.clients userId with
  | none => m
  | some client =>
    if maxIdle < now - client.lastSeen then
      { clients := Function.update m.clients userId none
        roomMembers := removeFromRoom m.roomMembers client.roomId userId }
    else m

def pruneIdle (m : VoiceRoomManager) (order : List UInt32) (maxIdle now : Int) : VoiceRoomManager :=
  order.foldl (pruneClient maxIdle now) m

end VoiceRoomManager

/-! ### The server -/

inductive PacketType
  | join | leave | audio | heartbeat
  deriving DecidableEq, Repr

def PacketType.ofByte (b : UInt8) : Option PacketType :=
  if b = 1 then some .join
  else if b = 2 then some .leave
  else if b = 3 then some .audio
  else if b = 4 then some .heartbeat
  else none

/-- A datagram that is sent, and where to. -/
structure Sent where
  bytes : List UInt8
  addr : VoiceSocketAddr
  deriving DecidableEq, Repr

/-- The registry after a packet, and what is sent. -/
def handlePacket (rooms : VoiceRoomManager) (header : PacketHeader) (received : List UInt8)
    (source : VoiceSocketAddr) (now : Int) : VoiceRoomManager × List Sent :=
  match PacketType.ofByte header.type with
  | some .join =>
    let roomId := (received.drop kHeaderSize).take header.payloadLen.toNat
    if roomId.isEmpty ∨ header.userId = 0 then (rooms, [])
    else (rooms.join header.userId roomId source now, [])
  | some .leave => (rooms.leave header.userId, [])
  | some .heartbeat => (rooms.touch header.userId source now, [])
  | some .audio =>
    let rooms := rooms.touch header.userId source now
    match rooms.roomIdForUser header.userId with
    | none => (rooms, [])
    | some roomId =>
      -- a peer at the address the packet came from is left out
      (rooms, ((rooms.peersExcept header.userId roomId).filter (· != source)).map (⟨received, ·⟩))
  | none => (rooms, [])

/-- What is read of a datagram, and handled when its payload is there. -/
def receive (rooms : VoiceRoomManager) (datagram : List UInt8) (source : VoiceSocketAddr) (now : Int) :
    VoiceRoomManager × List Sent :=
  let received := datagram.take (kHeaderSize + kMaxPayload)
  match readHeader received with
  | none => (rooms, [])
  | some header =>
    if received.length < kHeaderSize + header.payloadLen.toNat then (rooms, [])
    else handlePacket rooms header received source now

namespace VoiceRoomManager

variable {m : VoiceRoomManager} {userId user : UInt32} {roomId room : List UInt8}
  {addr : VoiceSocketAddr} {now : Int} {client : VoiceClient}

/-! ### The two tables -/

def members (m : VoiceRoomManager) (roomId : List UInt8) : List UInt32 :=
  (m.roomMembers roomId).getD []

/-- The members of the rooms are the clients, each in the room it is in, and no room is empty. -/
structure Consistent (m : VoiceRoomManager) : Prop where
  listed : ∀ userId roomId, userId ∈ m.members roomId ↔ m.roomIdForUser userId = some roomId
  nodup : ∀ roomId, (m.members roomId).Nodup
  nonempty : ∀ roomId, m.roomMembers roomId ≠ some []

theorem consistent_empty : Consistent {} where
  listed := by simp [members, roomIdForUser]
  nodup := by simp [members]
  nonempty := by simp

theorem removeFromRoom_of_ne (rooms : List UInt8 → Option (List UInt32)) (h : room ≠ roomId) :
    removeFromRoom rooms roomId userId room = rooms room := by
  unfold removeFromRoom
  cases rooms roomId with
  | none => rfl
  | some members => exact Function.update_of_ne h ..

theorem removeFromRoom_self (rooms : List UInt8 → Option (List UInt32)) :
    removeFromRoom rooms roomId userId roomId = (rooms roomId).bind fun members =>
      if members.filter (· != userId) = [] then none else some (members.filter (· != userId)) := by
  unfold removeFromRoom
  cases hrooms : rooms roomId with
  | none => exact hrooms
  | some members =>
    refine (Function.update_self ..).trans ?_
    simp only [List.isEmpty_iff, Option.bind_some]

theorem removeFromRoom_ne_nil {rooms : List UInt8 → Option (List UInt32)}
    (h : ∀ roomId, rooms roomId ≠ some []) : removeFromRoom rooms roomId userId room ≠ some [] := by
  by_cases hroom : room = roomId
  · subst hroom
    rw [removeFromRoom_self]
    intro hnil
    obtain ⟨members, -, hmembers⟩ := Option.bind_eq_some_iff.1 hnil
    split_ifs at hmembers with hempty
    exact hempty (Option.some.inj hmembers)
  · rw [removeFromRoom_of_ne rooms hroom]
    exact h room

/-- The member list of a room without a user. -/
theorem getD_removeFromRoom (rooms : List UInt8 → Option (List UInt32)) :
    (removeFromRoom rooms roomId userId room).getD [] =
      if room = roomId then ((rooms room).getD []).filter (· != userId) else (rooms room).getD [] := by
  by_cases hroom : room = roomId
  · subst hroom
    rw [removeFromRoom_self, if_pos rfl]
    cases rooms room with
    | none => rfl
    | some members =>
      rw [Option.bind_some, Option.getD_some]
      split_ifs with hempty
      · exact hempty.symm
      · rfl
  · rw [removeFromRoom_of_ne rooms hroom, if_neg hroom]

/-! ### What the operations keep -/

theorem leave_of_client (h : m.clients userId = some client) : m.leave userId =
    { clients := Function.update m.clients userId none
      roomMembers := removeFromRoom m.roomMembers client.roomId userId } := by
  rw [leave, h]

theorem leave_of_none (h : m.clients userId = none) : m.leave userId = m := by
  rw [leave, h]

theorem roomIdForUser_leave : (m.leave userId).roomIdForUser user =
    if user = userId then none else m.roomIdForUser user := by
  cases hclient : m.clients userId with
  | none =>
    rw [leave_of_none hclient]
    split_ifs with huser
    · rw [huser, roomIdForUser, hclient, Option.map_none]
    · rfl
  | some client =>
    simp only [leave_of_client hclient, roomIdForUser, Function.update_apply]
    split_ifs
    · rfl
    · rfl

theorem Consistent.leave (h : m.Consistent) (userId : UInt32) : (m.leave userId).Consistent := by
  cases hclient : m.clients userId with
  | none => rwa [leave_of_none hclient]
  | some client =>
    have hmembers (roomId : List UInt8) : (m.leave userId).members roomId =
        (m.members roomId).filter (· != userId) := by
      rw [leave_of_client hclient, members, getD_removeFromRoom]
      split_ifs with hroom
      · rfl
      · -- the user is in no other room
        refine (List.filter_eq_self.2 fun user huser => ?_).symm
        rw [bne_iff_ne]
        rintro rfl
        have hlisted := (h.listed user roomId).1 huser
        rw [roomIdForUser, hclient] at hlisted
        exact hroom (Option.some.inj hlisted).symm
    refine ⟨fun user roomId => ?_, fun roomId => ?_, fun roomId => ?_⟩
    · rw [hmembers, List.mem_filter, h.listed, roomIdForUser_leave, bne_iff_ne]
      split_ifs with huser
      · simp [huser]
      · simp [huser]
    · rw [hmembers]
      exact (h.nodup roomId).filter _
    · rw [leave_of_client hclient]
      exact removeFromRoom_ne_nil h.nonempty

theorem roomIdForUser_touch : (m.touch userId addr now).roomIdForUser user = m.roomIdForUser user := by
  unfold touch
  cases hclient : m.clients userId with
  | none => rfl
  | some client =>
    simp only [roomIdForUser, Function.update_apply]
    split_ifs with huser
    · rw [huser, hclient, Option.map_some, Option.map_some]
    · rfl

theorem roomMembers_touch : (m.touch userId addr now).roomMembers = m.roomMembers := by
  unfold touch
  cases m.clients userId <;> rfl

theorem Consistent.touch (h : m.Consistent) : (m.touch userId addr now).Consistent where
  listed user roomId := by
    rw [members, roomMembers_touch, roomIdForUser_touch]
    exact h.listed user roomId
  nodup roomId := by
    rw [members, roomMembers_touch]
    exact h.nodup roomId
  nonempty roomId := by
    rw [roomMembers_touch]
    exact h.nonempty roomId

/-- A client of the loop of `pruneIdle` leaves or stays. -/
theorem pruneClient_eq (maxIdle now : Int) (m : VoiceRoomManager) (userId : UInt32) :
    pruneClient maxIdle now m userId = m.leave userId ∨ pruneClient maxIdle now m userId = m := by
  unfold pruneClient leave
  cases m.clients userId with
  | none => exact .inl rfl
  | some client =>
    by_cases hidle : maxIdle < now - client.lastSeen
    · exact .inl (if_pos hidle)
    · exact .inr (if_neg hidle)

theorem Consistent.pruneIdle (h : m.Consistent) (order : List UInt32) (maxIdle now : Int) :
    (m.pruneIdle order maxIdle now).Consistent := by
  unfold VoiceRoomManager.pruneIdle
  induction order generalizing m with
  | nil => exact h
  | cons userId order ih =>
    refine ih ?_
    rcases pruneClient_eq maxIdle now m userId with heq | heq
    · rw [heq]
      exact h.leave userId
    · rwa [heq]

/-- A client is entered, and listed in its room if it is not there. -/
def enter (m : VoiceRoomManager) (userId : UInt32) (roomId : List UInt8) (addr : VoiceSocketAddr)
    (now : Int) : VoiceRoomManager where
  clients := Function.update m.clients userId (some ⟨userId, roomId, addr, now⟩)
  roomMembers := Function.update m.roomMembers roomId
    (some (if userId ∈ m.members roomId then m.members roomId else m.members roomId ++ [userId]))

/-- Who joins another room leaves the one they are in. -/
theorem join_eq : m.join userId roomId addr now =
    (if m.roomIdForUser userId = some roomId then m else m.leave userId).enter userId roomId addr now := by
  unfold join enter roomIdForUser
  cases hclient : m.clients userId with
  | none =>
    rw [Option.map_none, if_neg (by simp), leave_of_none hclient]
    rfl
  | some client =>
    by_cases hroom : client.roomId = roomId
    · simp only [Option.map_some, hroom, ne_eq, not_true_eq_false, if_false, if_true]
      rfl
    · have hne : some client.roomId ≠ some roomId := fun h => hroom (Option.some.inj h)
      simp only [Option.map_some, if_neg hne, leave_of_client hclient, ne_eq, hroom,
        not_false_eq_true, if_true, Function.update_idem]
      rfl

theorem roomIdForUser_enter : (m.enter userId roomId addr now).roomIdForUser user =
    if user = userId then some roomId else m.roomIdForUser user := by
  simp only [enter, roomIdForUser, Function.update_apply]
  split_ifs
  · rfl
  · rfl

theorem members_enter : (m.enter userId roomId addr now).members room =
    if room = roomId ∧ userId ∉ m.members roomId then m.members roomId ++ [userId]
    else m.members room := by
  simp only [enter, members, Function.update_apply]
  by_cases hroom : room = roomId
  · subst hroom
    by_cases hlisted : userId ∈ (m.roomMembers room).getD []
    · simp [hlisted]
    · simp [hlisted]
  · simp [hroom]

theorem Consistent.enter (h : m.Consistent)
    (hroom : ∀ room, m.roomIdForUser userId = some room → room = roomId) :
    (m.enter userId roomId addr now).Consistent where
  listed user room := by
    rw [members_enter, roomIdForUser_enter]
    by_cases huser : user = userId
    · subst huser
      by_cases hsame : room = roomId
      · subst hsame
        by_cases hlisted : user ∈ m.members room
        · simp [hlisted]
        · simp [hlisted]
      · have hother : user ∉ m.members room := fun hmem => hsame (hroom room ((h.listed _ _).1 hmem))
        simp [hsame, hother, Ne.symm hsame]
    · rw [if_neg huser, ← h.listed]
      split_ifs with hnew
      · simp [huser, hnew.1]
      · rfl
  nodup room := by
    rw [members_enter]
    split_ifs with hnew
    · exact List.nodup_append.2 ⟨h.nodup roomId, List.nodup_cons.2 ⟨by simp, List.nodup_nil⟩,
        fun user huser user' huser' heq => hnew.2 (List.mem_singleton.1 huser' ▸ heq ▸ huser)⟩
    · exact h.nodup room
  nonempty room := by
    simp only [VoiceRoomManager.enter, Function.update_apply]
    split_ifs with hsame hlisted
    · exact fun hnil => List.ne_nil_of_mem hlisted (Option.some.inj hnil)
    · simp
    · exact h.nonempty room

theorem Consistent.join (h : m.Consistent) : (m.join userId roomId addr now).Consistent := by
  rw [join_eq]
  split_ifs with hroom
  · refine h.enter fun room hroom' => ?_
    exact Option.some.inj (hroom'.symm.trans hroom)
  · refine (h.leave userId).enter fun room hroom' => ?_
    rw [roomIdForUser_leave, if_pos rfl] at hroom'
    cases hroom'

/-! ### Peers -/

/-- The other clients of a room, each once. -/
def Others (m : VoiceRoomManager) (userId : UInt32) (roomId : List UInt8) (others : List UInt32) : Prop :=
  others.Nodup ∧ ∀ user, user ∈ others ↔ user ≠ userId ∧ m.roomIdForUser user = some roomId

/-- One address for each of the other clients of a room, the one it has now. -/
def PeerAddrs (m : VoiceRoomManager) (userId : UInt32) (roomId : List UInt8)
    (addrs : List VoiceSocketAddr) : Prop :=
  ∃ others, m.Others userId roomId others ∧
    addrs.map some = others.map fun user => (m.clients user).map VoiceClient.addr

/-- The addresses of the peers are those of the other clients of the room. -/
theorem Consistent.peersExcept (h : m.Consistent) (userId : UInt32) (roomId : List UInt8) :
    m.PeerAddrs userId roomId (m.peersExcept userId roomId) := by
  refine ⟨(m.members roomId).filter (· != userId),
    ⟨(h.nodup roomId).filter _, fun user => ?_⟩, ?_⟩
  · rw [List.mem_filter, h.listed, bne_iff_ne, and_comm]
  · have hclients : ∀ user ∈ (m.members roomId).filter (· != userId),
        ((m.clients user).map VoiceClient.addr).isSome := by
      intro user huser
      have hroom := (h.listed user roomId).1 (List.mem_filter.1 huser).1
      rw [roomIdForUser, Option.map_eq_some_iff] at hroom
      obtain ⟨client, hclient, -⟩ := hroom
      simp [hclient]
    have hpeers : m.peersExcept userId roomId =
        ((m.members roomId).filter (· != userId)).filterMap fun user =>
          (m.clients user).map VoiceClient.addr := by
      unfold VoiceRoomManager.peersExcept members
      cases m.roomMembers roomId <;> rfl
    rw [hpeers, List.map_filterMap_some_eq_filter_map_isSome, List.filter_eq_self]
    intro peer hpeer
    obtain ⟨user, huser, rfl⟩ := List.mem_map.1 hpeer
    exact hclients user huser

/-- A touch changes the address of no other client. -/
theorem peerAddrs_touch {addrs : List VoiceSocketAddr} :
    (m.touch userId addr now).PeerAddrs userId roomId addrs ↔ m.PeerAddrs userId roomId addrs := by
  have hothers (others : List UInt32) :
      (m.touch userId addr now).Others userId roomId others ↔ m.Others userId roomId others := by
    simp only [Others, roomIdForUser_touch]
  have hclients (user : UInt32) (huser : user ≠ userId) :
      (m.touch userId addr now).clients user = m.clients user := by
    unfold touch
    cases m.clients userId with
    | none => rfl
    | some client => exact Function.update_of_ne huser ..
  refine exists_congr fun others => ?_
  rw [hothers]
  refine and_congr_right fun hlist => ?_
  have haddrs : others.map (fun user => ((m.touch userId addr now).clients user).map VoiceClient.addr) =
      others.map fun user => (m.clients user).map VoiceClient.addr :=
    List.map_congr_left fun user huser => by rw [hclients user ((hlist.2 user).1 huser).1]
  rw [haddrs]

end VoiceRoomManager

/-! ### Runs -/

/-- The calls of a `VoiceRoomManager` that change it. -/
inductive VoiceOp
  | join (userId : UInt32) (roomId : List UInt8) (addr : VoiceSocketAddr) (now : Int)
  | leave (userId : UInt32)
  | touch (userId : UInt32) (addr : VoiceSocketAddr) (now : Int)
  | pruneIdle (order : List UInt32) (maxIdle now : Int)
  deriving DecidableEq, Repr

def VoiceRoomManager.apply (m : VoiceRoomManager) : VoiceOp → VoiceRoomManager
  | .join userId roomId addr now => m.join userId roomId addr now
  | .leave userId => m.leave userId
  | .touch userId addr now => m.touch userId addr now
  | .pruneIdle order maxIdle now => m.pruneIdle order maxIdle now

def VoiceRoomManager.after (ops : List VoiceOp) : VoiceRoomManager :=
  ops.foldl VoiceRoomManager.apply {}

namespace VoiceRoomManager

theorem Consistent.apply {m : VoiceRoomManager} (h : m.Consistent) (op : VoiceOp) :
    (m.apply op).Consistent := by
  cases op with
  | join userId roomId addr now => exact h.join
  | leave userId => exact h.leave userId
  | touch userId addr now => exact h.touch
  | pruneIdle order maxIdle now => exact h.pruneIdle order maxIdle now

theorem consistent_after (ops : List VoiceOp) : (after ops).Consistent := by
  unfold after
  induction ops using List.reverseRecOn with
  | nil => exact consistent_empty
  | append_singleton ops op ih =>
    rw [List.foldl_append]
    exact ih.apply op

end VoiceRoomManager

section Audio

variable {m : VoiceRoomManager} {datagram : List UInt8} {header : PacketHeader}
  {source : VoiceSocketAddr} {now : Int} {roomId : List UInt8}

/-- An audio packet that is read whole. -/
structure AudioPacket (datagram : List UInt8) (header : PacketHeader) : Prop where
  read : readHeader (datagram.take (kHeaderSize + kMaxPayload)) = some header
  whole : kHeaderSize + header.payloadLen.toNat ≤ (datagram.take (kHeaderSize + kMaxPayload)).length
  audio : PacketType.ofByte header.type = some .audio

theorem receive_audio (h : AudioPacket datagram header) :
    (receive m datagram source now).2 = match m.roomIdForUser header.userId with
      | none => []
      | some roomId =>
        (((m.touch header.userId source now).peersExcept header.userId roomId).filter
          (· != source)).map (⟨datagram.take (kHeaderSize + kMaxPayload), ·⟩) := by
  simp only [receive, h.read, if_neg (Nat.not_lt.2 h.whole), handlePacket, h.audio,
    VoiceRoomManager.roomIdForUser_touch]
  cases m.roomIdForUser header.userId <;> rfl

end Audio

/-- After any operations every client is listed in its room, once, and nobody else anywhere; no room is
empty; the peers of a client are the other clients of the room, each with its address. An audio packet is
sent to the peers of its sender once each, apart from those at the address it came from, and to nobody
else. -/
theorem voiceRooms_spec (ops : List VoiceOp) :
    (∀ userId roomId, userId ∈ (VoiceRoomManager.after ops).members roomId ↔
      ∃ client, (VoiceRoomManager.after ops).clients userId = some client ∧ client.roomId = roomId) ∧
    (∀ roomId, ((VoiceRoomManager.after ops).members roomId).Nodup) ∧
    (∀ userId roomId roomId', userId ∈ (VoiceRoomManager.after ops).members roomId →
      userId ∈ (VoiceRoomManager.after ops).members roomId' → roomId = roomId') ∧
    (∀ roomId, (VoiceRoomManager.after ops).roomMembers roomId ≠ some []) ∧
    (∀ userId roomId, (VoiceRoomManager.after ops).PeerAddrs userId roomId
      ((VoiceRoomManager.after ops).peersExcept userId roomId)) ∧
    (∀ datagram header source now, AudioPacket datagram header →
      match (VoiceRoomManager.after ops).roomIdForUser header.userId with
      | none => (receive (VoiceRoomManager.after ops) datagram source now).2 = []
      | some roomId => ∃ addrs, (VoiceRoomManager.after ops).PeerAddrs header.userId roomId addrs ∧
        (receive (VoiceRoomManager.after ops) datagram source now).2 =
          (addrs.filter (· != source)).map (⟨datagram.take (kHeaderSize + kMaxPayload), ·⟩)) := by
  have hkept := VoiceRoomManager.consistent_after ops
  generalize VoiceRoomManager.after ops = m at hkept
  refine ⟨fun userId roomId => ?_, hkept.nodup, fun userId roomId roomId' h h' => ?_, hkept.nonempty,
    hkept.peersExcept, fun datagram header source now hpacket => ?_⟩
  · rw [hkept.listed, VoiceRoomManager.roomIdForUser, Option.map_eq_some_iff]
  · rw [hkept.listed] at h h'
    exact Option.some.inj (h.symm.trans h')
  · rw [receive_audio hpacket]
    cases m.roomIdForUser header.userId with
    | none => rfl
    | some roomId =>
      exact ⟨_, VoiceRoomManager.peerAddrs_touch.1 (hkept.touch.peersExcept header.userId roomId), rfl⟩

theorem voiceRooms_spec_two :
    ∃ addrs, (VoiceRoomManager.after
        [.join 1 [65] ⟨7, 9⟩ 0, .join 2 [65] ⟨8, 9⟩ 0]).PeerAddrs 1 [65] addrs ∧
      (receive (VoiceRoomManager.after [.join 1 [65] ⟨7, 9⟩ 0, .join 2 [65] ⟨8, 9⟩ 0])
        (writeHeader (List.replicate 28 0) { type := 3, userId := 1 }) ⟨7, 9⟩ 0).2 =
        (addrs.filter (· != ⟨7, 9⟩)).map
          (⟨(writeHeader (List.replicate 28 0) { type := 3, userId := 1 }).take
            (kHeaderSize + kMaxPayload), ·⟩) := by
  obtain ⟨-, -, -, -, -, haudio⟩ :=
    voiceRooms_spec [.join 1 [65] ⟨7, 9⟩ 0, .join 2 [65] ⟨8, 9⟩ 0]
  have hsent := haudio (writeHeader (List.replicate 28 0) { type := 3, userId := 1 })
    { type := 3, userId := 1 } ⟨7, 9⟩ 0 ⟨by decide +kernel, by decide +kernel, rfl⟩
  rw [show VoiceRoomManager.roomIdForUser _ _ = some [65] from by decide +kernel] at hsent
  exact hsent

/-- Two clients at one address: the packet of one is not sent to the other. -/
theorem voiceRooms_shared_address :
    ∃ ops datagram header source now roomId, AudioPacket datagram header ∧
      (VoiceRoomManager.after ops).roomIdForUser header.userId = some roomId ∧
      ¬ ∃ addrs, (VoiceRoomManager.after ops).PeerAddrs header.userId roomId addrs ∧
        (receive (VoiceRoomManager.after ops) datagram source now).2.map Sent.addr = addrs := by
  refine ⟨[.join 1 [65] ⟨7, 9⟩ 0, .join 2 [65] ⟨7, 9⟩ 0],
    writeHeader (List.replicate 28 0) { type := 3, userId := 1 }, { type := 3, userId := 1 }, ⟨7, 9⟩, 0,
    [65], ⟨by decide +kernel, by decide +kernel, rfl⟩, by decide +kernel, ?_⟩
  rintro ⟨addrs, ⟨others, ⟨-, hothers⟩, haddrs⟩, hsent⟩
  have hnone : (receive (VoiceRoomManager.after [.join 1 [65] ⟨7, 9⟩ 0, .join 2 [65] ⟨7, 9⟩ 0])
      (writeHeader (List.replicate 28 0) { type := 3, userId := 1 }) ⟨7, 9⟩ 0).2 = [] := by
    decide +kernel
  rw [hnone, List.map_nil] at hsent
  have hpeer : (2 : UInt32) ∈ others := (hothers 2).2 ⟨by decide, by decide +kernel⟩
  rw [← hsent, List.map_nil, eq_comm, List.map_eq_nil_iff] at haddrs
  rw [haddrs] at hpeer
  cases hpeer

end Guandan.Voice
