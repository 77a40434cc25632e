import Guandan.Library.Spacing
import Guandan.Network.Lobby
import Guandan.Protocol.Views

/-!
# Emotions at the table

`emotion.cpp` and `handleSendEmotion` of `message_dispatcher.cpp`, in whatever state the rooms and their
members are. Readings of the steady clock are in nanoseconds; one is taken before the lock of the limiter,
so they may come in any order.
-/

namespace Guandan

open Quoted
open Guandan.Protocol.Views

/-! ### The limiter -/

structure EmotionRateLimiter where
  lastSendTime : PlayerId → Option Int := fun _ => none

/-- `std::chrono::milliseconds(1000)`. -/
def emotionGap : Int := 1000 * 1000000

/-- `now` is the reading of the steady clock. -/
def EmotionRateLimiter.tryAcquire (l : EmotionRateLimiter) (playerId : PlayerId) (now : Int) :
    Bool × EmotionRateLimiter :=
  if (l.lastSendTime playerId).any (fun last => now - last < emotionGap) then (false, l)
  else (true, { l with lastSendTime := Function.update l.lastSendTime playerId (some now) })

/-- The value is taken as the eight bits of an `EmotionType`. -/
def isValidEmotionType (value : Int) : Bool :=
  value % 2 ^ 8 = 1 || value % 2 ^ 8 = 2 || value % 2 ^ 8 = 3

/-- `static_cast<int>` of 64 bits. -/
def intOfUint64 (n : Nat) : Int := (BitVec.ofNat 32 n).toInt

/-! ### The handler -/

structure EmotionEvent where
  eventId : Nat
  senderId : PlayerId
  targetId : PlayerId
  emotionType : Int
  serverTimeMs : Int
  deriving DecidableEq, Repr

/-- The data of `emotion_event` and of `send_emotion_ack`. -/
def EmotionEvent.dataJson (e : EmotionEvent) : Text :=
  record [
    ("event_id", digits e.eventId),
    ("sender_id", digits e.senderId),
    ("target_id", digits e.targetId),
    ("emotion_type", Json.writeInt e.emotionType),
    ("server_time", Json.writeInt e.serverTimeMs)]

/-- The refusals of a request. -/
inductive EmotionRefusal
  | notInRoom
  | invalidEmotionType
  | cannotSendToSelf
  | targetNotInRoom
  | tooFrequent
  deriving DecidableEq, Repr

/-- The code in the data of `emotion_error`; the first is answered by `sendError`. -/
def EmotionRefusal.code : EmotionRefusal → Option String
  | notInRoom => none
  | invalidEmotionType => some "INVALID_EMOTION_TYPE"
  | cannotSendToSelf => some "CANNOT_SEND_TO_SELF"
  | targetNotInRoom => some "TARGET_NOT_IN_ROOM"
  | tooFrequent => some "TOO_FREQUENT"

structure EmotionServer where
  rooms : RoomManager := {}
  emotionRateLimiter : EmotionRateLimiter := {}
  /-- `emotionEventId_` of each room that was made. -/
  emotionEventId : RoomHandle → Nat := fun _ => 0

/-- `targetId` and `emotionType` are what is read of the data, `now` and `serverTimeMs` what the clocks
show. An accepted request is answered with the room and with what all in it are told. -/
def EmotionServer.handleSendEmotion (s : EmotionServer) (senderId targetId : PlayerId)
    (emotionType : Nat) (now serverTimeMs : Int) :
    Except EmotionRefusal (RoomHandle × EmotionEvent) × EmotionServer :=
  match s.rooms.findRoomByPlayer senderId with
  | none => (.error .notInRoom, s)
  | some h =>
    let emotionType := intOfUint64 emotionType
    if targetId = 0 then (.error .invalidEmotionType, s)
    else if !isValidEmotionType emotionType then (.error .invalidEmotionType, s)
    else if senderId = targetId then (.error .cannotSendToSelf, s)
    else if !(s.rooms.made[h]?).any (·.containsPlayer targetId) then (.error .targetNotInRoom, s)
    else match s.emotionRateLimiter.tryAcquire senderId now with
      | (false, _) => (.error .tooFrequent, s)
      | (true, limiter) =>
        let eventId := (s.emotionEventId h + 1) % 2 ^ 64
        (.ok (h, ⟨eventId, senderId, targetId, emotionType, serverTimeMs⟩),
          { s with
            emotionRateLimiter := limiter
            emotionEventId := Function.update s.emotionEventId h eventId })

/-- Players come and go, and send emotions. -/
inductive EmotionOp
  | lobby (op : LobbyOp)
  | sendEmotion (senderId targetId : PlayerId) (emotionType : Nat) (now serverTimeMs : Int)

def emotions : Machine EmotionServer EmotionOp
    (Option (Except EmotionRefusal (RoomHandle × EmotionEvent))) where
  step s
    | .lobby op => (lobby.step s.rooms op).map fun r => ({ s with rooms := r.1 }, none)
    | .sendEmotion senderId targetId emotionType now serverTimeMs =>
      let (result, s) := s.handleSendEmotion senderId targetId emotionType now serverTimeMs
      some (s, some result)

def EmotionCall (s : EmotionServer) : EmotionOp → Prop
  | .lobby op => LobbyCall s.rooms op
  | .sendEmotion .. => True

/-! ### What was accepted before -/

/-- An accepted request: its room and event, and the reading of the clock at which it was let through. -/
structure Accepted where
  room : RoomHandle
  event : EmotionEvent
  now : Int
  deriving DecidableEq, Repr

/-- The accepted requests, the oldest first. -/
def recordEmotion (log : List Accepted) (_ : EmotionServer) (op : EmotionOp)
    (out : Option (Except EmotionRefusal (RoomHandle × EmotionEvent))) (_ : EmotionServer) :
    List Accepted :=
  match op, out with
  | .sendEmotion _ _ _ now _, some (.ok (h, e)) => log ++ [⟨h, e, now⟩]
  | _, _ => log

def emotionsLogged : Machine (EmotionServer × List Accepted) EmotionOp
    (Option (Except EmotionRefusal (RoomHandle × EmotionEvent))) :=
  emotions.withHistory recordEmotion

/-- The readings at which the player's requests were let through. -/
def readingsOf (log : List Accepted) (playerId : PlayerId) : List Int :=
  (log.filter fun a => a.event.senderId == playerId).map (·.now)

/-- The events of a room. -/
def eventsOf (log : List Accepted) (h : RoomHandle) : List EmotionEvent :=
  (log.filter fun a => a.room == h).map (·.event)

def EmotionsReach (s : EmotionServer) (log : List Accepted) : Prop :=
  emotionsLogged.Reachable (fun s => EmotionCall s.1) ({}, []) (s, log)

/-- What the log says of the limiter and of the counters. -/
structure Metered (s : EmotionServer) (log : List Accepted) : Prop where
  registry : Registry s.rooms
  last : ∀ id, s.emotionRateLimiter.lastSendTime id = (readingsOf log id).getLast?
  count : ∀ h, s.emotionEventId h = (eventsOf log h).length % 2 ^ 64
  spaced : ∀ id, Spacing.Spaced emotionGap (readingsOf log id)
  numbered : ∀ h, (eventsOf log h).map (·.eventId) =
    (List.range (eventsOf log h).length).map fun i => (i + 1) % 2 ^ 64

section Steps

variable {s s' : EmotionServer} {log : List Accepted} {senderId targetId id : PlayerId} {emotionType : Nat}
  {now serverTimeMs : Int} {h : RoomHandle} {e : EmotionEvent}

/-- Who may send which emotion to whom. -/
structure MaySend (m : RoomManager) (senderId targetId : PlayerId) (emotionType : Nat) (h : RoomHandle) :
    Prop where
  room : m.findRoomByPlayer senderId = some h
  target : (m.made[h]?).any (·.containsPlayer targetId) = true
  target_pos : targetId ≠ 0
  other : senderId ≠ targetId
  valid : isValidEmotionType (intOfUint64 emotionType) = true

/-- The request is let through. -/
def Timely (l : EmotionRateLimiter) (senderId : PlayerId) (now : Int) : Prop :=
  ∀ last, l.lastSendTime senderId = some last → last + emotionGap ≤ now

theorem tryAcquire_of_timely {l : EmotionRateLimiter} (htimely : Timely l senderId now) :
    l.tryAcquire senderId now =
      (true, { l with lastSendTime := Function.update l.lastSendTime senderId (some now) }) := by
  rw [EmotionRateLimiter.tryAcquire, if_neg]
  rcases hlast : l.lastSendTime senderId with _ | last
  · simp
  · have hle := htimely last hlast
    simp only [Option.any_some, decide_eq_true_eq]
    omega

theorem tryAcquire_of_not_timely {l : EmotionRateLimiter} (htimely : ¬ Timely l senderId now) :
    l.tryAcquire senderId now = (false, l) := by
  rw [EmotionRateLimiter.tryAcquire, if_pos]
  by_contra hany
  refine htimely fun last hlast => ?_
  rw [hlast, Option.any_some, decide_eq_true_eq] at hany
  omega

/-- The event that an accepted request makes. -/
def EmotionServer.event (s : EmotionServer) (h : RoomHandle) (senderId targetId : PlayerId)
    (emotionType : Nat) (serverTimeMs : Int) : EmotionEvent :=
  ⟨(s.emotionEventId h + 1) % 2 ^ 64, senderId, targetId, intOfUint64 emotionType, serverTimeMs⟩

theorem handleSendEmotion_accepts (hmay : MaySend s.rooms senderId targetId emotionType h)
    (htimely : Timely s.emotionRateLimiter senderId now) :
    s.handleSendEmotion senderId targetId emotionType now serverTimeMs =
      (.ok (h, s.event h senderId targetId emotionType serverTimeMs), { s with
        emotionRateLimiter := ⟨Function.update s.emotionRateLimiter.lastSendTime senderId (some now)⟩
        emotionEventId := Function.update s.emotionEventId h ((s.emotionEventId h + 1) % 2 ^ 64) }) := by
  simp only [EmotionServer.handleSendEmotion, hmay.room]
  rw [if_neg hmay.target_pos, if_neg (by simp [hmay.valid]), if_neg hmay.other,
    if_neg (by simp [hmay.target]), tryAcquire_of_timely htimely]
  rfl

/-- A request that is not accepted changes nothing. -/
theorem handleSendEmotion_refuses (serverTimeMs : Int) (hno : ¬ ∃ h,
    MaySend s.rooms senderId targetId emotionType h ∧ Timely s.emotionRateLimiter senderId now) :
    ∃ refusal, s.handleSendEmotion senderId targetId emotionType now serverTimeMs =
      (.error refusal, s) := by
  unfold EmotionServer.handleSendEmotion
  rcases hroom : s.rooms.findRoomByPlayer senderId with _ | h
  · exact ⟨_, rfl⟩
  · dsimp only
    split_ifs with hzero hvalid hself htarget
    · exact ⟨_, rfl⟩
    · exact ⟨_, rfl⟩
    · exact ⟨_, rfl⟩
    · exact ⟨_, rfl⟩
    · have htimely : ¬ Timely s.emotionRateLimiter senderId now := fun htimely =>
        hno ⟨h, ⟨hroom, by simpa using htarget, hzero, hself, by simpa using hvalid⟩, htimely⟩
      rw [tryAcquire_of_not_timely htimely]
      exact ⟨_, rfl⟩

/-! ### Runs -/

theorem readingsOf_concat (a : Accepted) : readingsOf (log ++ [a]) id =
    readingsOf log id ++ if a.event.senderId = id then [a.now] else [] := by
  rw [readingsOf, List.filter_append, List.map_append, List.filter_singleton]
  by_cases hid : a.event.senderId = id
  · simp [hid, readingsOf]
  · simp [hid, beq_eq_false_iff_ne.2 hid, readingsOf]

theorem eventsOf_concat (a : Accepted) : eventsOf (log ++ [a]) h =
    eventsOf log h ++ if a.room = h then [a.event] else [] := by
  rw [eventsOf, List.filter_append, List.map_append, List.filter_singleton]
  by_cases hroom : a.room = h
  · simp [hroom, eventsOf]
  · simp [hroom, beq_eq_false_iff_ne.2 hroom, eventsOf]

theorem metered_start : Metered {} [] where
  registry := Registry.empty
  last _ := rfl
  count _ := rfl
  spaced _ := Spacing.spaced_nil
  numbered _ := rfl

theorem emotionGap_pos : 0 < emotionGap := by decide

/-- The last reading decides for all. -/
theorem Metered.timely_iff (hs : Metered s log) : Timely s.emotionRateLimiter senderId now ↔
    ∀ t ∈ readingsOf log senderId, t + emotionGap ≤ now := by
  unfold Timely
  rw [hs.last]
  constructor
  · intro htimely
    exact (hs.spaced senderId).all_of_last htimely emotionGap_pos.le
  · intro hall last hlast
    exact hall last (List.mem_of_getLast? hlast)

theorem Metered.accept (hs : Metered s log)
    (htimely : Timely s.emotionRateLimiter senderId now) (h : RoomHandle) :
    Metered { s with
        emotionRateLimiter := ⟨Function.update s.emotionRateLimiter.lastSendTime senderId (some now)⟩
        emotionEventId := Function.update s.emotionEventId h ((s.emotionEventId h + 1) % 2 ^ 64) }
      (log ++ [⟨h, s.event h senderId targetId emotionType serverTimeMs, now⟩]) := by
  have hsender : (s.event h senderId targetId emotionType serverTimeMs).senderId = senderId := rfl
  constructor
  · exact hs.registry
  · intro id
    rw [readingsOf_concat, hsender]
    by_cases hid : senderId = id
    · subst hid
      simp
    · dsimp only
      rw [if_neg hid, List.append_nil, ← hs.last, Function.update_of_ne (Ne.symm hid)]
  · intro h'
    rw [eventsOf_concat]
    dsimp only
    by_cases hroom : h = h'
    · subst hroom
      rw [Function.update_self, if_pos rfl, List.length_append, List.length_singleton, hs.count]
      omega
    · rw [Function.update_of_ne (Ne.symm hroom), if_neg hroom, List.append_nil, hs.count]
  · intro id
    rw [readingsOf_concat, hsender]
    split_ifs with hid
    · subst hid
      exact (hs.spaced senderId).concat (hs.timely_iff.1 htimely)
    · rw [List.append_nil]
      exact hs.spaced id
  · intro h'
    rw [eventsOf_concat]
    split_ifs with hroom
    · subst hroom
      rw [List.map_append, List.length_append, List.length_singleton, List.range_succ, List.map_append,
        hs.numbered, List.map_singleton, List.map_singleton, EmotionServer.event, hs.count]
      congr 2
      dsimp only
      omega
    · rw [List.append_nil]
      exact hs.numbered h'

theorem EmotionsReach.metered (hreach : EmotionsReach s log) : Metered s log := by
  have hinv : ∀ p op p' out, Metered p.1 p.2 → EmotionCall p.1 op →
      emotionsLogged.step p op = some (p', out) → Metered p'.1 p'.2 := by
    rintro ⟨s, log⟩ op ⟨s', log'⟩ out hs hcall hstep
    obtain ⟨hstep, hlog⟩ := Machine.withHistory_step.1 hstep
    obtain rfl : log' = recordEmotion log s op out s' := hlog
    cases op with
    | lobby op =>
      obtain ⟨⟨rooms, answer⟩, hlobby, heq⟩ := Option.map_eq_some_iff.1 hstep
      obtain ⟨rfl, rfl⟩ := Prod.mk.inj heq
      exact ⟨(lobby_step hs.registry hcall hlobby).1, hs.last, hs.count, hs.spaced, hs.numbered⟩
    | sendEmotion senderId targetId emotionType now serverTimeMs =>
      simp only [emotions, Option.some_inj, Prod.mk.injEq] at hstep
      obtain ⟨rfl, rfl⟩ := hstep
      by_cases hmay : ∃ h, MaySend s.rooms senderId targetId emotionType h ∧
          Timely s.emotionRateLimiter senderId now
      · obtain ⟨h, hmay, htimely⟩ := hmay
        rw [handleSendEmotion_accepts hmay htimely]
        exact hs.accept htimely h
      · obtain ⟨refusal, hrefused⟩ := handleSendEmotion_refuses serverTimeMs hmay
        rw [hrefused]
        exact hs
  exact Machine.Reachable.invariant (P := fun p => Metered p.1 p.2) hreach metered_start hinv

/-- The two are in the room: the one as a person, the other as a person or a bot. -/
def Together (m : RoomManager) (senderId targetId : PlayerId) (h : RoomHandle) : Prop :=
  ∃ roomId r, m.rooms roomId = some h ∧ m.made[h]? = some r ∧ senderId ∈ r.humans ∧
    r.containsPlayer targetId = true

theorem Registry.together_iff {m : RoomManager} (hm : Registry m) :
    Together m senderId targetId h ↔
      m.findRoomByPlayer senderId = some h ∧ (m.made[h]?).any (·.containsPlayer targetId) = true := by
  constructor
  · rintro ⟨roomId, r, hrooms, hr, hsender, htarget⟩
    have hentry := hm.entry.2 ⟨r, Registry.listed_iff.2 ⟨h, hrooms, hr⟩, hsender⟩
    exact ⟨by rw [RoomManager.findRoomByPlayer, hentry, Option.bind_some, hrooms], by rw [hr]; exact htarget⟩
  · rintro ⟨hfind, htarget⟩
    obtain ⟨roomId, hentry, hrooms⟩ := Option.bind_eq_some_iff.1 hfind
    obtain ⟨r, hlisted, hsender⟩ := hm.entry.1 hentry
    obtain ⟨h', hrooms', hr⟩ := Registry.listed_iff.1 hlisted
    rw [hrooms, Option.some_inj] at hrooms'
    subst hrooms'
    rw [hr] at htarget
    exact ⟨roomId, r, hrooms, hr, hsender, htarget⟩

/-- Of the number only the last eight bits count. -/
theorem isValidEmotionType_iff (n : Nat) :
    isValidEmotionType (intOfUint64 n) = true ↔ n % 256 ∈ [1, 2, 3] := by
  have hmod : intOfUint64 n % 2 ^ 8 = (n % 256 : Nat) := by
    rw [intOfUint64, BitVec.toInt_eq_toNat_cond, BitVec.toNat_ofNat]
    split_ifs
    · omega
    · omega
  simp only [isValidEmotionType, hmod, Bool.or_eq_true, decide_eq_true_eq, List.mem_cons, List.not_mem_nil,
    or_false, or_assoc]
  omega

/-- Whether a request is accepted is told from the rooms and from what was accepted before, and what is
not accepted changes nothing. The event is the next of its room. -/
theorem emotion_accepted_iff (hreach : EmotionsReach s log) (senderId targetId : PlayerId)
    (emotionType : Nat) (now serverTimeMs : Int) :
    let answer := s.handleSendEmotion senderId targetId emotionType now serverTimeMs
    (∀ h e, answer.1 = .ok (h, e) ↔
      Together s.rooms senderId targetId h ∧ targetId ≠ 0 ∧ senderId ≠ targetId ∧
        emotionType % 256 ∈ [1, 2, 3] ∧ (∀ t ∈ readingsOf log senderId, t + emotionGap ≤ now) ∧
        e = ⟨((eventsOf log h).length + 1) % 2 ^ 64, senderId, targetId, intOfUint64 emotionType,
          serverTimeMs⟩) ∧
      ((∀ r, answer.1 ≠ .ok r) → answer.2 = s) := by
  intro answer
  have hs := hreach.metered
  have hmay (h : RoomHandle) : MaySend s.rooms senderId targetId emotionType h ↔
      Together s.rooms senderId targetId h ∧ targetId ≠ 0 ∧ senderId ≠ targetId ∧
        emotionType % 256 ∈ [1, 2, 3] := by
    rw [hs.registry.together_iff, ← isValidEmotionType_iff]
    exact ⟨fun h => ⟨⟨h.room, h.target⟩, h.target_pos, h.other, h.valid⟩,
      fun ⟨⟨hroom, htarget⟩, hpos, hother, hvalid⟩ => ⟨hroom, htarget, hpos, hother, hvalid⟩⟩
  have hevent (h : RoomHandle) : s.event h senderId targetId emotionType serverTimeMs =
      ⟨((eventsOf log h).length + 1) % 2 ^ 64, senderId, targetId, intOfUint64 emotionType,
        serverTimeMs⟩ := by
    rw [EmotionServer.event, hs.count]
    congr 1
    omega
  by_cases haccepted : ∃ h, MaySend s.rooms senderId targetId emotionType h ∧
      Timely s.emotionRateLimiter senderId now
  · obtain ⟨h, hok, htimely⟩ := haccepted
    have hanswer : answer = _ := handleSendEmotion_accepts hok htimely
    refine ⟨fun h' e => ?_, fun hno => absurd (congrArg Prod.fst hanswer) (hno _)⟩
    rw [hanswer]
    constructor
    · intro heq
      obtain ⟨rfl, rfl⟩ := Prod.mk.inj (Except.ok.inj heq)
      obtain ⟨htogether, hzero, hself, htype⟩ := (hmay h).1 hok
      exact ⟨htogether, hzero, hself, htype, hs.timely_iff.1 htimely, hevent h⟩
    · rintro ⟨htogether, hzero, hself, htype, -, rfl⟩
      have hroom := ((hmay h').2 ⟨htogether, hzero, hself, htype⟩).room
      rw [hok.room, Option.some_inj] at hroom
      subst hroom
      rw [hevent h]
  · obtain ⟨refusal, hrefused⟩ := handleSendEmotion_refuses serverTimeMs haccepted
    have hanswer : answer = _ := hrefused
    refine ⟨fun h e => ?_, fun _ => congrArg Prod.snd hanswer⟩
    rw [hanswer]
    refine iff_of_false (fun heq => by cases heq) ?_
    rintro ⟨htogether, hzero, hself, htype, htimely, -⟩
    exact haccepted ⟨h, (hmay h).2 ⟨htogether, hzero, hself, htype⟩, hs.timely_iff.2 htimely⟩

/-- Two players meet, and one sends the other a flower twice within a second, and a tomato later. -/
def flowers : List EmotionOp :=
  [.lobby (.createRoom 10001 "4p" "100000"), .lobby (.joinRoom "100000" 10002),
    .sendEmotion 10001 10002 1 5 0, .sendEmotion 10001 10002 1 (5 + emotionGap - 1) 1,
    .sendEmotion 10001 10002 258 (5 + emotionGap) 2]

theorem flowers_reach : ∃ s log, EmotionsReach s log ∧ log.length = 2 := by
  obtain ⟨⟨s, log⟩, hrun, hlength⟩ := Machine.exists_run_of_any (M := emotionsLogged) (s := ({}, []))
    (l := flowers) (P := fun s => s.2.length = 2) (by decide +kernel)
  have hcalls : ∀ op ∈ flowers, ∀ s : EmotionServer × List Accepted, EmotionCall s.1 op := by
    simp only [flowers, List.forall_mem_cons]
    refine ⟨fun _ => rfl, fun _ => rfl, fun _ => trivial, fun _ => trivial, fun _ => trivial,
      List.forall_mem_nil _⟩
  exact ⟨s, log, Machine.reachable_of_run (Machine.Follows.of_forall hcalls) hrun, hlength⟩

theorem emotion_accepted_iff_flower : ∃ (s : EmotionServer) (log : List Accepted), log.length = 2 ∧
    let answer := s.handleSendEmotion 10002 10001 3 7 3
    (∀ h e, answer.1 = .ok (h, e) ↔
      Together s.rooms 10002 10001 h ∧ 10001 ≠ 0 ∧ 10002 ≠ 10001 ∧
        3 % 256 ∈ [1, 2, 3] ∧ (∀ t ∈ readingsOf log 10002, t + emotionGap ≤ 7) ∧
        e = ⟨((eventsOf log h).length + 1) % 2 ^ 64, 10002, 10001, intOfUint64 3, 3⟩) ∧
      ((∀ r, answer.1 ≠ .ok r) → answer.2 = s) := by
  obtain ⟨s, log, hreach, hlength⟩ := flowers_reach
  exact ⟨s, log, hlength, emotion_accepted_iff hreach 10002 10001 3 7 3⟩

/-- In any time a player gets through at most once a second and once more, in whatever rooms; and the events
of a room are numbered one after the other. -/
theorem emotions_metered (hreach : EmotionsReach s log) :
    (∀ id start width, 0 ≤ width →
      (((readingsOf log id).filter fun t => start ≤ t ∧ t ≤ start + width).length : Int) ≤
        width / emotionGap + 1) ∧
    ∀ h, (eventsOf log h).map (·.eventId) =
      (List.range (eventsOf log h).length).map fun i => (i + 1) % 2 ^ 64 :=
  ⟨fun id start _ hwidth => (hreach.metered.spaced id).length_filter_le emotionGap_pos start hwidth,
    hreach.metered.numbered⟩

theorem emotions_metered_flowers : ∃ log : List Accepted, log.length = 2 ∧
    (∀ id start width, 0 ≤ width →
      (((readingsOf log id).filter fun t => start ≤ t ∧ t ≤ start + width).length : Int) ≤
        width / emotionGap + 1) ∧
    ∀ h, (eventsOf log h).map (·.eventId) =
      (List.range (eventsOf log h).length).map fun i => (i + 1) % 2 ^ 64 := by
  obtain ⟨s, log, hreach, hlength⟩ := flowers_reach
  exact ⟨log, hlength, emotions_metered hreach⟩

end Steps

end Guandan
