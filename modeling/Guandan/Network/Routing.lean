import Guandan.Network.Hall
import Guandan.Network.Impersonation

/-!
# On which queue a handler runs

A handler works on the room in which its sender is found when it runs, or on the room that a
`join_room` names then (`roomOf`). Where it runs is decided before, by the looks of the sender's thread:
on the queue of the first room that they find or, if they find none, on the thread (`Arrival`). The two
agree exactly if every handled message is about the room that was found for it, or about none.
-/

namespace Guandan

/-- The handler runs on the queue of the room that it works on. -/
def HandlerRun.onOwnQueue (ev : HandlerRun) : Prop := ∀ h, ev.touched = some h → ev.queue = some h

instance (ev : HandlerRun) : Decidable ev.onOwnQueue :=
  match ev with
  | ⟨_, none⟩ => .isTrue fun _ h => by cases h
  | ⟨queue, some h⟩ => decidable_of_iff (queue = some h)
      ⟨fun hq _ heq => by cases heq; exact hq, fun hall => hall h rfl⟩

/-- What the looks for the room of a message found. -/
abbrev Arrival := RoomLook → Option RoomHandle

/-- The room on whose queue the message is put. -/
def Arrival.chosen (a : Arrival) : Option RoomHandle := (a .named).or ((a .sender).or (a .joined))

namespace Hall

/-- The room that a message is about when it is handled. -/
def roomOf (hall : Hall) (sessionId : SessionId) (msg : RoomMessage) : Option RoomHandle :=
  match msg.type with
  | .login | .createRoom | .ping | .unknown _ => none
  | .joinRoom => hall.manager.getRoom msg.roomId
  | .voiceJoin =>
    if hall.server.liveKitEnabled then hall.manager.findRoomByPlayer (hall.actor sessionId)
    else none
  | _ => hall.manager.findRoomByPlayer (hall.actor sessionId)

end Hall

/-- What was found for the messages that the threads are at, and for those on the queues. -/
structure Arrivals where
  threads : SessionId → Arrival := fun _ _ => none
  queues : RoomHandle → List Arrival := fun _ => []

/-- Brings the arrivals of the messages up to date. -/
def recordArrival (arrivals : Arrivals) (hall : Hall) (op : HallOp) (_out : Option HandlerRun)
    (_hall' : Hall) : Arrivals :=
  match op with
  | .message sessionId _ _ =>
    { arrivals with threads := Function.update arrivals.threads sessionId fun _ => none }
  | .proceed sessionId _ =>
    let a := arrivals.threads sessionId
    match hall.threads sessionId with
    | some (msg, .look look) =>
      let a := Function.update a look (hall.lookUp sessionId msg look).1
      { arrivals with threads := Function.update arrivals.threads sessionId a }
    | some (_, .resolved (some h)) =>
      { arrivals with queues := Function.update arrivals.queues h (arrivals.queues h ++ [a]) }
    | _ => arrivals
  | .runTask h _ =>
    { arrivals with queues := Function.update arrivals.queues h (arrivals.queues h).tail }
  | _ => arrivals

/-- The hall with the arrivals of its messages. -/
def routedHall (hashPassword : String → String → String) :
    Machine (Hall × Arrivals) HallOp (Option HandlerRun) :=
  (hall hashPassword).withHistory recordArrival

/-- A message is about the room that was found for it when it arrived, or about none. -/
def Arrival.Fits (a : Arrival) (hall : Hall) (sessionId : SessionId) (msg : RoomMessage) : Prop :=
  ∀ r, hall.roomOf sessionId msg = some r → a.chosen = some r

/-- A message that is handled, by a queue or by the thread of its connection, is about the room that was
found for it, or about none. -/
def AboutChosenRoom (sg : Hall × Arrivals) : HallOp → Prop
  | .proceed sessionId _ => ∀ msg, sg.1.threads sessionId = some (msg, .resolved none) →
      (sg.2.threads sessionId).Fits sg.1 sessionId msg
  | .runTask h _ => ∀ sessionId msg rest a rest', sg.1.queues h = (sessionId, msg) :: rest →
      sg.2.queues h = a :: rest' → a.Fits sg.1 sessionId msg
  | _ => True

/-- What a thread has found before the stage it is at. -/
def DispatchStage.room : DispatchStage → Option RoomHandle
  | .look _ => none
  | .resolved room => room

/-- The arrivals are those of the messages. -/
structure ArrivedHere (sg : Hall × Arrivals) : Prop where
  length_eq : ∀ h, (sg.2.queues h).length = (sg.1.queues h).length
  chosen : ∀ h, ∀ a ∈ sg.2.queues h, a.chosen = some h
  found : ∀ s msg stage, sg.1.threads s = some (msg, stage) → (sg.2.threads s).chosen = stage.room

/-! ### The dispatcher -/

section Dispatcher

variable {hall hall' : Hall} {sessionId : SessionId} {msg : RoomMessage} {w : Surroundings}

namespace Hall

theorem actor_eq (hall : Hall) (s : SessionId) : hall.actor s = hall.server.identity s :=
  (hall.server.resolvePlayerId_spec s).1

end Hall

/-- A handler that asks for the player goes on as the one the session acts as. -/
theorem Server.dispatchMessage_actsAs (sv : Server) (s : SessionId) (m : Message) (now : Nat) :
    if m.type.needsPlayer sv.liveKitEnabled then
      ∃ profile, (sv.dispatchMessage s m now).1 = .actsAs (sv.resolvePlayerId s).1 profile
    else ∀ id profile, (sv.dispatchMessage s m now).1 ≠ .actsAs id profile := by
  obtain ⟨type, token⟩ := m
  cases type with
  | login =>
    intro id profile
    simp only [dispatchMessage, handleLogin]
    split <;> simp
  | voiceJoin =>
    rcases hlive : sv.liveKitEnabled with _ | _
    · intro id profile
      simp [dispatchMessage, hlive]
    · exact ⟨none, by simp [dispatchMessage, hlive, actAsPlayer]⟩
  | ping => intro id profile; simp [dispatchMessage]
  | unknown name => intro id profile; simp [dispatchMessage]
  | createRoom => exact ⟨_, rfl⟩
  | joinRoom => exact ⟨_, rfl⟩
  | _ => exact ⟨_, rfl⟩

theorem Hall.roomOf_of_not_needsPlayer
    (h : ¬ msg.type.needsPlayer hall.server.liveKitEnabled = true) :
    hall.roomOf sessionId msg = none := by
  unfold roomOf
  cases htype : msg.type
  case voiceJoin =>
    rw [htype] at h
    exact if_neg h
  all_goals simp [htype, MessageType.needsPlayer] at h ⊢

theorem Hall.roomOf_of_needsPlayer (h : msg.type.needsPlayer hall.server.liveKitEnabled = true)
    (hcreate : msg.type ≠ .createRoom) (hjoin : msg.type ≠ .joinRoom) :
    hall.roomOf sessionId msg = hall.manager.findRoomByPlayer (hall.actor sessionId) := by
  unfold roomOf
  cases htype : msg.type
  case voiceJoin =>
    rw [htype] at h
    exact if_pos h
  all_goals simp_all [MessageType.needsPlayer]

/-- The handler works on the room that its message is about. -/
theorem dispatchMessage_touched {touched : Option RoomHandle}
    (h : hall.dispatchMessage sessionId msg w = some (hall', touched)) :
    touched = hall.roomOf sessionId msg ∧ hall'.queues = hall.queues ∧ hall'.threads = hall.threads := by
  have hacts := hall.server.dispatchMessage_actsAs sessionId msg.toMessage w.now
  unfold Hall.dispatchMessage at h
  rcases hd : hall.server.dispatchMessage sessionId msg.toMessage w.now with ⟨answer, server⟩
  rw [hd] at hacts h
  by_cases hneeds : msg.type.needsPlayer hall.server.liveKitEnabled = true
  · rw [if_pos hneeds] at hacts
    obtain ⟨profile, hanswer⟩ := hacts
    dsimp only at hanswer h
    subst hanswer
    dsimp only at h
    split at h
    case h_1 htype =>
      obtain ⟨-, hsome⟩ := Option.ite_none_left_eq_some.1 h
      cases hsome
      exact ⟨by rw [Hall.roomOf, htype], rfl, rfl⟩
    case h_2 htype =>
      cases h
      exact ⟨by rw [Hall.roomOf, htype], rfl, rfl⟩
    case h_3 hcreate hjoin =>
      rw [Hall.roomOf_of_needsPlayer hneeds hcreate hjoin, Hall.actor]
      rcases hroom : hall.manager.findRoomByPlayer (hall.server.resolvePlayerId sessionId).1
        with _ | r
      · rw [hroom] at h
        cases h
        exact ⟨rfl, rfl, rfl⟩
      · rw [hroom] at h
        obtain ⟨m, hm, heq⟩ := Option.map_eq_some_iff.1 h
        cases heq
        exact ⟨rfl, rfl, rfl⟩
  · rw [if_neg hneeds] at hacts
    have hnone : some (({ hall with server := server } : Hall), none) = some (hall', touched) := by
      cases answer with
      | actsAs id profile => exact absurd rfl (hacts id profile)
      | _ => exact h
    cases hnone
    exact ⟨(Hall.roomOf_of_not_needsPlayer hneeds).symm, rfl, rfl⟩

theorem RoomLook.room_after (look : RoomLook) (room : Option RoomHandle) :
    (look.after room).room = room := by
  rcases room with _ | h
  · cases look <;> rfl
  · cases look <;> rfl

/-- Where nothing was found before, the room that is found next is the chosen one. -/
theorem Arrival.chosen_update {a : Arrival} (h : a.chosen = none) (look : RoomLook)
    (room : Option RoomHandle) : Arrival.chosen (Function.update a look room) = room := by
  obtain ⟨hnamed, hrest⟩ := Option.or_eq_none_iff.1 h
  obtain ⟨hsender, hjoined⟩ := Option.or_eq_none_iff.1 hrest
  cases look <;> simp [Arrival.chosen, hnamed, hsender, hjoined]

theorem Hall.lookUp_frame (hall : Hall) (sessionId : SessionId) (msg : RoomMessage) (look : RoomLook) :
    (hall.lookUp sessionId msg look).2.queues = hall.queues ∧
      (hall.lookUp sessionId msg look).2.threads = hall.threads := by
  cases look <;> exact ⟨rfl, rfl⟩

/-- What the thread of a connection does next. -/
theorem postRoomMessage_cases {out : Option HandlerRun}
    (h : hall.postRoomMessage sessionId w = some (hall', out)) :
    (∃ msg look, hall.threads sessionId = some (msg, .look look) ∧ out = none ∧
      hall'.queues = hall.queues ∧ hall'.threads = Function.update hall.threads sessionId
        (some (msg, look.after (hall.lookUp sessionId msg look).1))) ∨
    (∃ msg r, hall.threads sessionId = some (msg, .resolved (some r)) ∧ out = none ∧
      hall'.queues = Function.update hall.queues r (hall.queues r ++ [(sessionId, msg)]) ∧
      hall'.threads = Function.update hall.threads sessionId none) ∨
    ∃ msg, hall.threads sessionId = some (msg, .resolved none) ∧
      out = some ⟨none, hall.roomOf sessionId msg⟩ ∧ hall'.queues = hall.queues ∧
      hall'.threads = Function.update hall.threads sessionId none := by
  unfold Hall.postRoomMessage at h
  rcases hthread : hall.threads sessionId with _ | ⟨msg, look | (_ | r)⟩
  · rw [hthread] at h
    cases h
  · rw [hthread] at h
    cases h
    obtain ⟨hqueues, hthreads⟩ := hall.lookUp_frame sessionId msg look
    exact .inl ⟨msg, look, rfl, rfl, hqueues, congrArg (Function.update · sessionId _) hthreads⟩
  · rw [hthread] at h
    obtain ⟨⟨hall₁, touched⟩, hdispatch, heq⟩ := Option.map_eq_some_iff.1 h
    cases heq
    obtain ⟨htouched, hqueues, hthreads⟩ := dispatchMessage_touched hdispatch
    exact .inr (.inr ⟨msg, rfl, by rw [htouched]; rfl, hqueues, hthreads⟩)
  · rw [hthread] at h
    cases h
    exact .inr (.inl ⟨msg, r, rfl, rfl, rfl, rfl⟩)

/-- A message that arrives is handled at once, or the thread begins to look for its room. -/
theorem dispatch_cases {out : Option HandlerRun}
    (h : hall.dispatch sessionId msg w = some (hall', out)) :
    out = none ∧ hall'.queues = hall.queues ∧ hall.threads sessionId = none ∧
      (hall'.threads = hall.threads ∨
        hall'.threads = Function.update hall.threads sessionId (some (msg, .look .named))) := by
  unfold Hall.dispatch at h
  split_ifs at h with hbusy hrun
  · have hidle := Option.not_isSome_iff_eq_none.1 hbusy
    obtain ⟨⟨hall₁, touched⟩, hdispatch, heq⟩ := Option.map_eq_some_iff.1 h
    cases heq
    obtain ⟨-, hqueues, hthreads⟩ := dispatchMessage_touched hdispatch
    exact ⟨rfl, hqueues, hidle, .inl hthreads⟩
  · have hidle := Option.not_isSome_iff_eq_none.1 hbusy
    cases h
    exact ⟨rfl, rfl, hidle, .inr rfl⟩

end Dispatcher

/-! ### Runs -/

section Runs

variable {hashPassword : String → String → String} {hall hall' : Hall} {sessionId : SessionId}
  {msg : RoomMessage} {w : Surroundings} {arrivals : Arrivals} {h : RoomHandle}
  {sg sg' : Hall × Arrivals} {op : HallOp} {out : Option HandlerRun}

/-- A step of one thread: of the others nothing is to be shown. -/
theorem ArrivedHere.found_update (hinv : ArrivedHere (hall, arrivals))
    {thread : Option (RoomMessage × DispatchStage)} {a : Arrival}
    (hthreads : hall'.threads = Function.update hall.threads sessionId thread)
    (hchosen : ∀ msg stage, thread = some (msg, stage) → a.chosen = stage.room) :
    ∀ s msg stage, hall'.threads s = some (msg, stage) →
      (Function.update arrivals.threads sessionId a s).chosen = stage.room := by
  intro s msg stage hs
  rw [hthreads] at hs
  by_cases heq : s = sessionId
  · rw [heq, Function.update_self] at hs ⊢
    exact hchosen msg stage hs
  · rw [Function.update_of_ne heq] at hs ⊢
    exact hinv.found s msg stage hs

/-- A thread that is done with its message. -/
theorem ArrivedHere.found_done (hinv : ArrivedHere (hall, arrivals))
    (hthreads : hall'.threads = Function.update hall.threads sessionId none) :
    ∀ s msg stage, hall'.threads s = some (msg, stage) → (arrivals.threads s).chosen = stage.room := by
  have hfound := hinv.found_update (a := arrivals.threads sessionId) hthreads
    fun msg stage hstage => by cases hstage
  rwa [Function.update_eq_self] at hfound

theorem ArrivedHere.length_of_queues (hinv : ArrivedHere (hall, arrivals))
    (hqueues : hall'.queues = hall.queues) (h : RoomHandle) :
    (arrivals.queues h).length = (hall'.queues h).length := by
  rw [hqueues]
  exact hinv.length_eq h

theorem ArrivedHere.message (hinv : ArrivedHere (hall, arrivals))
    (hstep : hall.dispatch sessionId msg w = some (hall', out)) :
    ArrivedHere (hall', recordArrival arrivals hall (.message sessionId msg w) out hall') := by
  obtain ⟨-, hqueues, hidle, hthreads⟩ := dispatch_cases hstep
  refine ⟨hinv.length_of_queues hqueues, hinv.chosen, ?_⟩
  rcases hthreads with hthreads | hthreads
  · have hself : hall'.threads = Function.update hall.threads sessionId none := by
      rw [hthreads, ← hidle, Function.update_eq_self]
    exact hinv.found_update hself fun msg stage hstage => by cases hstage
  · apply hinv.found_update hthreads
    intro msg stage hstage
    cases hstage
    rfl

/-- A message that is put on a queue is put where its arrival is. -/
theorem ArrivedHere.proceed (hinv : ArrivedHere (hall, arrivals))
    (hstep : hall.postRoomMessage sessionId w = some (hall', out)) :
    ArrivedHere (hall', recordArrival arrivals hall (.proceed sessionId w) out hall') := by
  rcases postRoomMessage_cases hstep with ⟨msg, look, hthread, -, hqueues, hthreads⟩ |
    ⟨msg, r, hthread, -, hqueues, hthreads⟩ | ⟨msg, hthread, -, hqueues, hthreads⟩
  · simp only [recordArrival, hthread]
    refine ⟨hinv.length_of_queues hqueues, hinv.chosen, ?_⟩
    apply hinv.found_update hthreads
    intro msg' stage hstage
    cases hstage
    rw [look.room_after]
    exact Arrival.chosen_update (hinv.found sessionId msg _ hthread) look _
  · simp only [recordArrival, hthread]
    refine ⟨fun r' => ?_, fun r' a ha => ?_, hinv.found_done hthreads⟩
    · dsimp only
      rw [hqueues]
      by_cases heq : r' = r
      · subst heq
        simpa using hinv.length_eq r'
      · simpa [heq] using hinv.length_eq r'
    · dsimp only at ha
      by_cases heq : r' = r
      · subst heq
        rw [Function.update_self, List.mem_append, List.mem_singleton] at ha
        rcases ha with ha | rfl
        · exact hinv.chosen r' a ha
        · exact hinv.found sessionId msg _ hthread
      · rw [Function.update_of_ne heq] at ha
        exact hinv.chosen r' a ha
  · simp only [recordArrival, hthread]
    exact ⟨hinv.length_of_queues hqueues, hinv.chosen, hinv.found_done hthreads⟩

/-- The first message on a queue is handled on that queue, about the room that it is about now. -/
theorem runTask_spec (hstep : hall.runTask h w = some (hall', out)) :
    ∃ sessionId msg rest, hall.queues h = (sessionId, msg) :: rest ∧
      out = some ⟨some h, hall.roomOf sessionId msg⟩ ∧
      hall'.queues = Function.update hall.queues h rest ∧ hall'.threads = hall.threads := by
  unfold Hall.runTask at hstep
  rcases hq : hall.queues h with _ | ⟨⟨sessionId, msg⟩, rest⟩
  · rw [hq] at hstep
    cases hstep
  · rw [hq] at hstep
    obtain ⟨⟨hall₁, touched⟩, hdispatch, heq⟩ := Option.map_eq_some_iff.1 hstep
    cases heq
    obtain ⟨htouched, hqueues, hthreads⟩ := dispatchMessage_touched hdispatch
    exact ⟨sessionId, msg, rest, rfl, by rw [htouched]; rfl, hqueues, hthreads⟩

theorem ArrivedHere.runTask (hinv : ArrivedHere (hall, arrivals))
    (hstep : hall.runTask h w = some (hall', out)) :
    ArrivedHere (hall', recordArrival arrivals hall (.runTask h w) out hall') := by
  obtain ⟨sessionId, msg, rest, hq, rfl, hqueues, hthreads⟩ := runTask_spec hstep
  refine ⟨fun r => ?_, fun r a ha => ?_, ?_⟩
  · have hlength := hinv.length_eq r
    simp only [recordArrival, hqueues]
    by_cases heq : r = h
    · subst heq
      rw [hq] at hlength
      simp [hlength]
    · simpa [heq] using hlength
  · simp only [recordArrival] at ha
    by_cases heq : r = h
    · subst heq
      rw [Function.update_self] at ha
      exact hinv.chosen r a (List.mem_of_mem_tail ha)
    · rw [Function.update_of_ne heq] at ha
      exact hinv.chosen r a ha
  · rw [hthreads]
    exact hinv.found

theorem routedHall_arrivedHere (hinv : ArrivedHere sg)
    (hstep : (routedHall hashPassword).step sg op = some (sg', out)) : ArrivedHere sg' := by
  obtain ⟨hstep, hrecord⟩ := Machine.withHistory_step.1 hstep
  obtain ⟨hall, arrivals⟩ := sg
  obtain ⟨hall', arrivals'⟩ := sg'
  dsimp only at hrecord
  subst hrecord
  cases op with
  | message sessionId msg w => exact hinv.message hstep
  | proceed sessionId w => exact hinv.proceed hstep
  | runTask h w => exact hinv.runTask hstep
  | disconnect sessionId =>
    obtain ⟨-, hsome⟩ := Option.ite_none_left_eq_some.1 hstep
    cases hsome
    exact ⟨hinv.length_eq, hinv.chosen, hinv.found⟩
  | _ =>
    cases hstep
    exact ⟨hinv.length_eq, hinv.chosen, hinv.found⟩

/-- A message that is handled where its arrival has chosen to. -/
theorem Arrival.fits_iff {a : Arrival} {queue : Option RoomHandle} (h : a.chosen = queue) :
    (∀ ev, some (HandlerRun.mk queue (hall.roomOf sessionId msg)) = some ev → ev.onOwnQueue) ↔
      a.Fits hall sessionId msg := by
  subst h
  constructor
  · intro hown r hr
    exact hown _ rfl r hr
  · intro hfits ev hev r hr
    cases hev
    exact hfits r hr

/-- A handler runs on the queue of its room exactly if that room was found for the message. -/
theorem routedHall_onOwnQueue (hinv : ArrivedHere sg)
    (hstep : (routedHall hashPassword).step sg op = some (sg', out)) :
    (∀ ev, out = some ev → ev.onOwnQueue) ↔ AboutChosenRoom sg op := by
  obtain ⟨hstep, -⟩ := Machine.withHistory_step.1 hstep
  obtain ⟨hall, arrivals⟩ := sg
  obtain ⟨hall', arrivals'⟩ := sg'
  have hsilent : out = none → ∀ ev, out = some ev → ev.onOwnQueue := by
    intro hout ev hev
    rw [hout] at hev
    cases hev
  cases op with
  | message sessionId msg w => exact iff_of_true (hsilent (dispatch_cases hstep).1) trivial
  | proceed sessionId w =>
    rcases postRoomMessage_cases hstep with ⟨msg, look, hthread, hout, -⟩ |
      ⟨msg, r, hthread, hout, -⟩ | ⟨msg, hthread, rfl, -⟩
    · refine iff_of_true (hsilent hout) fun msg' hmsg => ?_
      cases hthread.symm.trans hmsg
    · refine iff_of_true (hsilent hout) fun msg' hmsg => ?_
      cases hthread.symm.trans hmsg
    · have hchosen : (arrivals.threads sessionId).chosen = none := hinv.found sessionId msg _ hthread
      rw [Arrival.fits_iff hchosen]
      constructor
      · intro hfits msg' hmsg
        cases hthread.symm.trans hmsg
        exact hfits
      · intro habout
        exact habout msg hthread
  | runTask h w =>
    obtain ⟨sessionId, msg, rest, hq, rfl, -, -⟩ := runTask_spec hstep
    have hlength := hinv.length_eq h
    rw [hq] at hlength
    obtain ⟨a, rest', harrivals⟩ := List.exists_cons_of_length_eq_add_one hlength
    have hchosen : a.chosen = some h :=
      hinv.chosen h a (harrivals ▸ List.mem_cons_self ..)
    rw [Arrival.fits_iff hchosen]
    constructor
    · intro hfits s m rest₁ a₁ rest₁' hq₁ ha₁
      cases hq.symm.trans hq₁
      cases harrivals.symm.trans ha₁
      exact hfits
    · intro habout
      exact habout sessionId msg rest a rest' hq harrivals
  | disconnect sessionId =>
    obtain ⟨-, hsome⟩ := Option.ite_none_left_eq_some.1 hstep
    cases hsome
    exact iff_of_true (hsilent rfl) trivial
  | _ =>
    cases hstep
    exact iff_of_true (hsilent rfl) trivial

end Runs

/-- Every handler runs on the queue of the room that it works on exactly if every message, taken from a
queue or kept by the thread of its connection, is about the room that was found for it, or about none,
when it is handled. -/
theorem served_on_own_queue (hashPassword : String → String → String) (server : Server)
    (ops : List HallOp) :
    (routedHall hashPassword).EachAnswer (fun _ _ out _ => ∀ ev, out = some ev → ev.onOwnQueue)
        ({ server := server }, {}) ops ↔
      (routedHall hashPassword).EachStep (fun sg op _ => AboutChosenRoom sg op)
        ({ server := server }, {}) ops :=
  Machine.eachAnswer_iff_eachStep (J := ArrivedHere)
    (fun _ _ _ _ hinv _ hstep => routedHall_arrivedHere hinv hstep)
    (fun _ _ _ _ hinv _ hstep => routedHall_onOwnQueue hinv hstep)
    ⟨fun _ => rfl, fun _ _ ha => (List.not_mem_nil ha).elim, fun _ _ _ h => by cases h⟩
    ((Machine.Follows.of_forall fun _ _ _ => trivial : Machine.Follows _ (fun _ _ => True) _ _))

/-- Two visitors make a room each; the first names the room of the second in its `ready`. -/
def readyElsewhere : List HallOp :=
  [.connect true, .connect true, .message 1 { type := .createRoom } { draw := 1 },
    .message 2 { type := .createRoom } { draw := 2 },
    .message 1 { type := .ready, roomId := generateRoomId 2 } {}, .proceed 1 {}, .proceed 1 {}]

theorem ready_on_other_queue :
    ¬ (routedHall fun password salt => salt ++ password).EachAnswer
      (fun _ _ out _ => ∀ ev, out = some ev → ev.onOwnQueue)
      ({ server := Server.start .empty false }, {})
      (readyElsewhere ++ [.runTask 1 {}]) := by
  intro hall
  obtain ⟨sg, hrun, hready⟩ := Machine.exists_run_of_any
    (M := routedHall fun password salt => salt ++ password)
    (s := ({ server := Server.start .empty false }, {})) (l := readyElsewhere)
    (P := fun sg => (sg.1.runTask 1 {}).any (fun a => decide (a.2 = some ⟨some 1, some 0⟩)) = true)
    (by decide +kernel)
  obtain ⟨⟨hall', out⟩, htask, hout⟩ := Machine.exists_of_any hready
  have hstep : (routedHall fun password salt => salt ++ password).step sg (.runTask 1 {}) =
      some ((hall', recordArrival sg.2 sg.1 (.runTask 1 {}) out hall'), out) :=
    Machine.withHistory_step.2 ⟨htask, rfl⟩
  have hown := hall.of_run hrun hstep _ hout
  have hqueue : some 1 = some 0 := hown 0 rfl
  cases hqueue

/-- A visitor's `ready` finds no room while his `join_room` waits on the queue, and is handled behind it. -/
def readyBesideQueue : List HallOp :=
  [.connect true, .connect true, .message 1 { type := .createRoom } { draw := 1 },
    .message 2 { type := .joinRoom, roomId := generateRoomId 1 } {}, .proceed 2 {}, .proceed 2 {},
    .message 2 { type := .ready } {}, .proceed 2 {}, .proceed 2 {}, .proceed 2 {}, .runTask 0 {}]

example : ((hall fun password salt => salt ++ password).run { server := Server.start .empty false }
      readyBesideQueue).any
    (fun hall => decide ((hall.postRoomMessage 2 {}).map Prod.snd = some (some ⟨none, some 0⟩))) = true := by
  decide +kernel

end Guandan
