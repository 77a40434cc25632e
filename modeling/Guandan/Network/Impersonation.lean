import Guandan.Network.Sessions

/-!
# Guests and accounts

A session that has not logged in acts as player 10000 plus its own number, and a new account takes
the next id from 10001 on. Nothing keeps the two apart. A session acts under the id of an account it
has no token for exactly when a guest's id is given out while the account is there, or the account
is opened while the guest is there.
-/

namespace Guandan

/-! ### What a step does to the sessions -/

namespace MessageType

/-- The types whose handler asks for the player of the session. -/
def needsPlayer (liveKitEnabled : Bool) : MessageType → Bool
  | .login | .ping | .unknown _ => false
  | .voiceJoin => liveKitEnabled
  | _ => true

end MessageType

namespace Server

/-- The player a session acts as. -/
def identity (sv : Server) (s : SessionId) : PlayerId :=
  if sv.sessions.playerOf s = 0 then 10000 + s else sv.sessions.playerOf s

/-- The session whose message a step takes up, with the message and the time. -/
def handles (sv : Server) : ServerOp → Option (SessionId × Message × Nat)
  | .message s msg _ _ now => some (s, msg, now)
  | .runTask k now => sv.queued[k]?.map fun posted => (posted.1, posted.2, now)
  | _ => none

/-- The session of which a step asks the player. -/
def resolves (sv : Server) : ServerOp → Option SessionId
  | .message s msg named _ _ =>
    if shouldRunOnRoomQueue msg.type then (if named then none else some s)
    else if msg.type.needsPlayer sv.liveKitEnabled then some s else none
  | .runTask k _ => sv.queued[k]?.bind fun posted =>
    if posted.2.type.needsPlayer sv.liveKitEnabled then some posted.1 else none
  | _ => none

/-- The user for whom the token manager accepts the token of a login that a step takes up. -/
def accepts (sv : Server) (msg : Message) (now : Nat) : Option PlayerId :=
  if msg.type = .login then (sv.auth.tokenManager.validateToken msg.token now).1 else none

/-- From `sv` to `sv'` session `s` at most is bound anew, to `id`. -/
structure Binds (sv sv' : Server) (s : SessionId) (id : PlayerId) : Prop where
  bound : sv'.sessions.playerOf s = id
  others : ∀ s', s' ≠ s → sv'.sessions.playerOf s' = sv.sessions.playerOf s'
  users : sv'.auth.userStore = sv.auth.userStore

section Binds

variable {sv sv' sv'' : Server} {s s' : SessionId} {id id' : PlayerId} {msg : Message} {now : Nat}

theorem Binds.refl (sv : Server) (s : SessionId) : Binds sv sv s (sv.sessions.playerOf s) :=
  ⟨rfl, fun _ _ => rfl, rfl⟩

theorem Binds.trans (h : Binds sv sv' s id) (h' : Binds sv' sv'' s id') : Binds sv sv'' s id' :=
  ⟨h'.bound, fun s' hs => (h'.others s' hs).trans (h.others s' hs), h'.users.trans h.users⟩

/-- The player that is handed out is the one the session is bound to from then on. -/
theorem resolvePlayerId_spec (sv : Server) (s : SessionId) :
    (sv.resolvePlayerId s).1 = sv.identity s ∧
      Binds sv (sv.resolvePlayerId s).2 s (sv.identity s) := by
  obtain ⟨hfst, hsnd⟩ := @SessionManager.bindPlayer_ensureSession sv.sessions s 0
    ("Player" ++ toString s)
  unfold resolvePlayerId identity
  simp only [SessionManager.ensureSession_playerOf]
  split_ifs with hunbound
  · refine ⟨hfst, ?_, fun s' hs => ?_, rfl⟩
    · rw [hsnd s, if_pos rfl, if_pos rfl]
    · rw [hsnd s', if_neg hs]
  · refine ⟨rfl, ?_, fun s' _ => ?_, rfl⟩
    · exact SessionManager.ensureSession_playerOf
    · exact SessionManager.ensureSession_playerOf

theorem joinInfoFromSession_binds (sv : Server) (s : SessionId) (now : Nat) :
    Binds sv (sv.joinInfoFromSession s now).2 s (sv.sessions.playerOf s) := by
  unfold joinInfoFromSession
  rcases sv.sessions.getSession s with _ | session
  · exact Binds.refl sv s
  · by_cases htoken : session.token = ""
    · simp only [htoken, if_true]
      exact Binds.refl sv s
    · simp only [htoken, if_false]
      exact ⟨rfl, fun _ _ => rfl, sv.auth.validateToken_userStore session.token now⟩

theorem actAsPlayer_binds (sv : Server) (s : SessionId) :
    Binds sv (sv.actAsPlayer s).2 s (sv.identity s) :=
  (sv.resolvePlayerId_spec s).2

theorem actWithProfile_binds (sv : Server) (s : SessionId) (now : Nat) :
    Binds sv (sv.actWithProfile s now).2 s (sv.identity s) := by
  have hresolve := (sv.resolvePlayerId_spec s).2
  have hinfo := (sv.resolvePlayerId s).2.joinInfoFromSession_binds s now
  rw [hresolve.bound] at hinfo
  exact hresolve.trans hinfo

/-- A login is refused, or binds the session to a user for whom its token is accepted. -/
theorem handleLogin_binds (sv : Server) (s : SessionId) (msg : Message) (now : Nat) :
    Binds sv (sv.handleLogin s msg now).2 s (sv.sessions.playerOf s) ∨
      ∃ id, (sv.auth.tokenManager.validateToken msg.token now).1 = some id ∧
        Binds sv (sv.handleLogin s msg now).2 s id := by
  unfold handleLogin
  have hstore := sv.auth.validateToken_userStore msg.token now
  rcases hvalid : sv.auth.validateToken msg.token now with ⟨_ | user, auth⟩
  all_goals rw [hvalid] at hstore
  · exact .inl ⟨rfl, fun _ _ => rfl, hstore⟩
  · obtain ⟨hid, hfind⟩ := AuthService.validateToken_eq_some (congrArg Prod.fst hvalid)
    have hpos : user.id ≠ 0 := (UserStore.findById_registered hfind).pos.ne'
    obtain ⟨-, hsnd⟩ := @SessionManager.bindPlayer_ensureSession sv.sessions s user.id
      user.nickname
    simp only [if_neg hpos] at hsnd
    refine .inr ⟨user.id, hid, ?_, fun s' hs => ?_, hstore⟩
    · exact SessionManager.authenticate_playerOf.trans ((hsnd s).trans (if_pos rfl))
    · exact SessionManager.authenticate_playerOf.trans ((hsnd s').trans (if_neg hs))

/-- Handling a message binds its session to the player it acts as if the handler asks for the
player, and otherwise leaves it or logs it in. -/
theorem dispatchMessage_binds (sv : Server) (s : SessionId) (msg : Message) (now : Nat) :
    if msg.type.needsPlayer sv.liveKitEnabled then
      Binds sv (sv.dispatchMessage s msg now).2 s (sv.identity s)
    else Binds sv (sv.dispatchMessage s msg now).2 s (sv.sessions.playerOf s) ∨
      ∃ id, sv.accepts msg now = some id ∧ Binds sv (sv.dispatchMessage s msg now).2 s id := by
  unfold dispatchMessage accepts MessageType.needsPlayer
  obtain ⟨type, token⟩ := msg
  cases type with
  | login => exact sv.handleLogin_binds s _ now
  | createRoom => exact sv.actWithProfile_binds s now
  | joinRoom => exact sv.actWithProfile_binds s now
  | voiceJoin =>
    rcases sv.liveKitEnabled with _ | _
    · exact .inl (Binds.refl sv s)
    · exact sv.actAsPlayer_binds s
  | ping => exact .inl (Binds.refl sv s)
  | unknown name => exact .inl (Binds.refl sv s)
  | _ => exact sv.actAsPlayer_binds s

/-- What a step that takes up a message does to the session of the message. -/
def Takes (sv sv' : Server) (s : SessionId) (msg : Message) (now : Nat) (asks : Prop) : Prop :=
  (asks ∧ Binds sv sv' s (sv.identity s)) ∨
    ¬ asks ∧ (Binds sv sv' s (sv.sessions.playerOf s) ∨
      ∃ id, sv.accepts msg now = some id ∧ Binds sv sv' s id)

theorem dispatchMessage_takes (sv : Server) (s : SessionId) (msg : Message) (now : Nat) :
    Takes sv (sv.dispatchMessage s msg now).2 s msg now
      (msg.type.needsPlayer sv.liveKitEnabled = true) := by
  have hbinds := sv.dispatchMessage_binds s msg now
  by_cases hneeds : msg.type.needsPlayer sv.liveKitEnabled = true
  · rw [if_pos hneeds] at hbinds
    exact .inl ⟨hneeds, hbinds⟩
  · rw [if_neg hneeds] at hbinds
    exact .inr ⟨hneeds, hbinds⟩

theorem identity_ne_zero (sv : Server) (s : SessionId) : sv.identity s ≠ 0 := by
  unfold identity
  split_ifs with hunbound
  · exact Nat.ne_of_gt (Nat.add_pos_left (by decide) s)
  · exact hunbound

theorem accepts_of_shouldRun (h : shouldRunOnRoomQueue msg.type = true) :
    sv.accepts msg now = none := by
  refine if_neg fun hlogin => ?_
  rw [hlogin] at h
  cases h

theorem accepts_of_needsPlayer {live : Bool} (h : msg.type.needsPlayer live = true) :
    sv.accepts msg now = none := by
  refine if_neg fun hlogin => ?_
  rw [hlogin] at h
  cases h

/-- A message that is not handled at once has first asked for the player, unless it names a room. -/
theorem dispatch_takes (sv : Server) (s : SessionId) (msg : Message) (named inRoom : Bool)
    (now : Nat) : Takes sv (sv.dispatch s msg named inRoom now).2 s msg now
      (sv.resolves (.message s msg named inRoom now) = some s) := by
  rcases hrun : shouldRunOnRoomQueue msg.type with _ | _
  · have hasks : (sv.resolves (.message s msg named inRoom now) = some s) =
        (msg.type.needsPlayer sv.liveKitEnabled = true) := by
      simp [resolves, hrun]
    rw [hasks, dispatch, hrun]
    exact sv.dispatchMessage_takes s msg now
  · rcases named with _ | _
    · have hresolve := (sv.resolvePlayerId_spec s).2
      refine .inl ⟨by simp [resolves, hrun], ?_⟩
      simp only [dispatch, hrun, Bool.not_true, Bool.false_eq_true, if_false]
      split_ifs
      · exact ⟨hresolve.bound, hresolve.others, hresolve.users⟩
      · have hid : (sv.resolvePlayerId s).2.identity s = sv.identity s := by
          rw [identity, hresolve.bound, if_neg (sv.identity_ne_zero s)]
        rcases (sv.resolvePlayerId s).2.dispatchMessage_takes s msg now with
          ⟨-, hbinds⟩ | ⟨-, hbinds | ⟨id, haccepts, -⟩⟩
        · exact hresolve.trans (hid ▸ hbinds)
        · exact hresolve.trans (hresolve.bound ▸ hbinds)
        · rw [accepts_of_shouldRun hrun] at haccepts
          cases haccepts
    · refine .inr ⟨by simp [resolves, hrun], .inl ?_⟩
      rw [dispatch, hrun]
      exact ⟨rfl, fun _ _ => rfl, rfl⟩

theorem Takes.unqueue {q : List (SessionId × Message)} {asks : Prop}
    (h : Takes { sv with queued := q } sv' s msg now asks) : Takes sv sv' s msg now asks := by
  rcases h with ⟨hasks, hbinds⟩ | ⟨hno, hbinds | ⟨id, haccepts, hbinds⟩⟩
  · exact .inl ⟨hasks, hbinds.bound, hbinds.others, hbinds.users⟩
  · exact .inr ⟨hno, .inl ⟨hbinds.bound, hbinds.others, hbinds.users⟩⟩
  · exact .inr ⟨hno, .inr ⟨id, haccepts, hbinds.bound, hbinds.others, hbinds.users⟩⟩

end Binds

variable {hashPassword : String → String → String} {op : ServerOp} {out : ServerAnswer}

/-- A step that takes up a message. -/
theorem step_takes {sv sv' : Server} {s : SessionId} {msg : Message} {now : Nat}
    (h : (server hashPassword).step sv op = some (sv', out))
    (hop : sv.handles op = some (s, msg, now)) :
    Takes sv sv' s msg now (sv.resolves op = some s) := by
  cases op with
  | message s msg named inRoom now =>
    cases hop
    cases h
    exact sv.dispatch_takes s msg named inRoom now
  | runTask k now =>
    obtain ⟨⟨s, msg⟩, hposted, heq⟩ := Option.map_eq_some_iff.1 hop
    cases heq
    have hresolves : (sv.resolves (.runTask k now) = some s) =
        (msg.type.needsPlayer sv.liveKitEnabled = true) := by
      simp [resolves, hposted]
    cases h
    rw [hresolves, runTask, hposted]
    exact (dispatchMessage_takes { sv with queued := sv.queued.eraseIdx k } s msg now).unqueue
  | _ => cases hop

/-- The session that is asked for its player is the one whose message is taken up, and the message
is not a login. -/
theorem handles_of_resolves {sv : Server} {s : SessionId} (h : sv.resolves op = some s) :
    ∃ msg now, sv.handles op = some (s, msg, now) ∧ sv.accepts msg now = none := by
  cases op with
  | message s' msg named inRoom now =>
    refine ⟨msg, now, ?_⟩
    simp only [resolves] at h
    split_ifs at h with hrun hnamed hneeds
    · cases h
      exact ⟨rfl, accepts_of_shouldRun hrun⟩
    · cases h
      exact ⟨rfl, accepts_of_needsPlayer hneeds⟩
  | runTask k now =>
    obtain ⟨⟨s', msg⟩, hposted, hneeds⟩ := Option.bind_eq_some_iff.1 h
    split_ifs at hneeds with hneeds'
    cases hneeds
    exact ⟨msg, now, by simp [handles, hposted], accepts_of_needsPlayer hneeds'⟩
  | _ => cases h

/-- A step that takes up no message at most ends bindings, and only a registration adds a user. -/
theorem step_quiet {sv sv' : Server} (h : (server hashPassword).step sv op = some (sv', out))
    (hop : sv.handles op = none) :
    (∀ s, sv'.sessions.playerOf s = sv.sessions.playerOf s ∨ sv'.sessions.playerOf s = 0) ∧
      ∀ id, sv'.auth.userStore.Registered id ↔ sv.auth.userStore.Registered id ∨
        ∃ nickname password salt token now, op = .register nickname password salt token now ∧
          sv.auth.Registers nickname password ∧ id = sv.auth.userStore.nextId := by
  cases op with
  | message s msg named inRoom now => cases hop
  | runTask k now =>
    have hnone : sv.queued[k]? = none := Option.map_eq_none_iff.1 hop
    cases h
    rw [runTask, hnone]
    exact ⟨fun _ => .inl rfl, fun _ => by simp⟩
  | connect handshake =>
    cases h
    refine ⟨fun s => .inl ?_, fun _ => by simp [connect]⟩
    rcases handshake with _ | _
    · rfl
    · exact SessionManager.ensureSession_playerOf
  | disconnect s =>
    cases h
    refine ⟨fun s' => ?_, fun _ => by simp [disconnect]⟩
    rw [disconnect, SessionManager.removeSession_playerOf]
    split_ifs
    · exact .inr rfl
    · exact .inl rfl
  | httpLogin nickname password token now =>
    have hsessions : sv'.sessions = sv.sessions := by cases h; rfl
    have husers : sv'.auth = (sv.auth.login hashPassword nickname password token now).2 := by
      cases h; rfl
    rw [hsessions, husers, AuthService.login_userStore]
    exact ⟨fun _ => .inl rfl, fun _ => by simp⟩
  | register nickname password salt token now =>
    have hsessions : sv'.sessions = sv.sessions := by cases h; rfl
    have husers : sv'.auth =
        (sv.auth.registerUser hashPassword nickname password salt token now).2 := by cases h; rfl
    rw [hsessions, husers]
    refine ⟨fun _ => .inl rfl, fun _ => ?_⟩
    rw [AuthService.registerUser_registered_iff]
    simp

end Server

/-! ### The history of a run -/

/-- Which session has presented an accepted token for which user, and which session has been bound
to which player. -/
structure Visits where
  logins : List (SessionId × PlayerId) := []
  bound : List (SessionId × PlayerId) := []
  deriving DecidableEq, Repr

namespace Visits

def LoggedIn (v : Visits) (s : SessionId) : Prop := ∃ id, (s, id) ∈ v.logins

def record (v : Visits) (sv : Server) (op : ServerOp) (_ : ServerAnswer) (sv' : Server) : Visits :=
  match sv.handles op with
  | none => v
  | some (s, msg, now) =>
    { logins := v.logins ++ (sv.accepts msg now).toList.map fun id => (s, id)
      bound := v.bound ++
        (if sv'.sessions.playerOf s = 0 then [] else [(s, sv'.sessions.playerOf s)]) }

end Visits

/-- The server with its visits. -/
abbrev visitedServer (hashPassword : String → String → String) :
    Machine (Server × Visits) ServerOp ServerAnswer :=
  (server hashPassword).withHistory Visits.record

/-- A session bound to a registered user has presented a token accepted for that user, and no
player that was handed out to a session that never logged in is registered. -/
structure NoImpersonation (x : Server × Visits) : Prop where
  bound : ∀ s, x.1.auth.userStore.Registered (x.1.sessions.playerOf s) →
    (s, x.1.sessions.playerOf s) ∈ x.2.logins
  handed : ∀ s id, (s, id) ∈ x.2.bound → ¬ x.2.LoggedIn s → ¬ x.1.auth.userStore.Registered id

/-- A session that is to act as a guest finds no account under its guest's id, unless it has logged
in there before; and the account that is opened does not take the id of a guest: of session
`nextId - 10000`, if that has been bound to its default player. -/
def KeepsApart (x : Server × Visits) : ServerOp → Prop
  | .register nickname password _ _ _ => x.1.auth.Registers nickname password →
      ∀ s, x.1.auth.userStore.nextId = 10000 + s →
        (x.1.sessions.playerOf s = 10000 + s → (s, 10000 + s) ∈ x.2.logins) ∧
          ((s, 10000 + s) ∈ x.2.bound → x.2.LoggedIn s)
  | op => ∀ s, x.1.resolves op = some s → x.1.sessions.playerOf s = 0 →
      x.1.auth.userStore.Registered (10000 + s) → (s, 10000 + s) ∈ x.2.logins

/-- Every player a session has been bound to is its default player or one it has logged in as. -/
structure Known (x : Server × Visits) : Prop where
  current : ∀ s, x.1.sessions.playerOf s ≠ 0 → (s, x.1.sessions.playerOf s) ∈ x.2.bound
  known : ∀ s id, (s, id) ∈ x.2.bound → id = 10000 + s ∨ (s, id) ∈ x.2.logins

/-! ### Steps and runs -/

section Steps

variable {x x' : Server × Visits} {sv' : Server} {v' : Visits} {s : SessionId} {id : PlayerId}
  {op : ServerOp} {out : ServerAnswer} {hashPassword : String → String → String}

/-- A step that binds a session keeps impersonators out exactly when it binds the session to nobody
registered but a user it has logged in as. -/
theorem noImpersonation_binds (hx : NoImpersonation x) (hbinds : Server.Binds x.1 sv' s id)
    (hlogins : x.2.logins ⊆ v'.logins)
    (hbound : v'.bound = x.2.bound ++ (if id = 0 then [] else [(s, id)])) :
    NoImpersonation (sv', v') ↔
      (x.1.auth.userStore.Registered id → (s, id) ∈ v'.logins) := by
  constructor
  · intro hx' hid
    have hlogin := hx'.bound s
    rw [hbinds.bound, hbinds.users] at hlogin
    exact hlogin hid
  · intro hid
    refine ⟨fun s' hs' => ?_, fun s' id' hmem hno => ?_⟩
    · dsimp only at hs' ⊢
      by_cases heq : s' = s
      · subst heq
        rw [hbinds.bound] at hs' ⊢
        exact hid (hbinds.users ▸ hs')
      · rw [hbinds.others s' heq] at hs' ⊢
        exact hlogins (hx.bound s' (hbinds.users ▸ hs'))
    · dsimp only at hmem hno ⊢
      rw [hbinds.users]
      rw [hbound] at hmem
      rcases List.mem_append.1 hmem with hmem | hmem
      · exact hx.handed s' id' hmem fun ⟨u, hu⟩ => hno ⟨u, hlogins hu⟩
      · split_ifs at hmem
        · cases hmem
        · cases List.mem_singleton.1 hmem
          exact fun hreg => hno ⟨_, hid hreg⟩

/-- What a step adds to the visits. -/
theorem record_handles {sv : Server} (v : Visits) (out : ServerAnswer) {msg : Message} {now : Nat}
    (hop : sv.handles op = some (s, msg, now)) (hid : sv'.sessions.playerOf s = id) :
    (v.record sv op out sv').logins = v.logins ++ (sv.accepts msg now).toList.map ((s, ·)) ∧
      (v.record sv op out sv').bound = v.bound ++ (if id = 0 then [] else [(s, id)]) := by
  rw [Visits.record, hop, ← hid]
  exact ⟨rfl, rfl⟩

theorem noImpersonation_takes {msg : Message} {now : Nat} (hx : NoImpersonation x)
    (hop : x.1.handles op = some (s, msg, now))
    (htakes : Server.Takes x.1 sv' s msg now (x.1.resolves op = some s)) :
    NoImpersonation (sv', x.2.record x.1 op out sv') ↔
      (x.1.resolves op = some s → x.1.sessions.playerOf s = 0 →
        x.1.auth.userStore.Registered (10000 + s) → (s, 10000 + s) ∈ x.2.logins) := by
  have hlogins : x.2.logins ⊆ (x.2.record x.1 op out sv').logins := by
    rw [(record_handles x.2 out hop rfl).1]
    exact List.subset_append_left ..
  rcases htakes with ⟨hasks, hbinds⟩ | ⟨hno, hbinds | ⟨id, haccepts, hbinds⟩⟩
  · rw [noImpersonation_binds hx hbinds hlogins (record_handles x.2 out hop hbinds.bound).2,
      (record_handles x.2 out hop rfl).1]
    obtain ⟨msg', now', hop', hnone⟩ := Server.handles_of_resolves hasks
    cases hop.symm.trans hop'
    rw [hnone, Option.toList_none, List.map_nil, List.append_nil, Server.identity]
    split_ifs with hunbound
    · exact ⟨fun h _ _ => h, fun h => h hasks hunbound⟩
    · exact ⟨fun _ _ hzero => absurd hzero hunbound, fun _ => hx.bound s⟩
  · rw [noImpersonation_binds hx hbinds hlogins (record_handles x.2 out hop hbinds.bound).2]
    exact iff_of_true (fun hreg => hlogins (hx.bound s hreg)) fun hasks => absurd hasks hno
  · rw [noImpersonation_binds hx hbinds hlogins (record_handles x.2 out hop hbinds.bound).2,
      (record_handles x.2 out hop rfl).1, haccepts]
    exact iff_of_true (fun _ => by simp) fun hasks => absurd hasks hno

/-- A new account is taken by nobody but a guest of its number. -/
theorem noImpersonation_register {nickname password salt token : String} {now : Nat}
    (hknown : Known x) (hx : NoImpersonation x)
    (hbound : ∀ s, sv'.sessions.playerOf s = x.1.sessions.playerOf s)
    (husers : ∀ id, sv'.auth.userStore.Registered id ↔ x.1.auth.userStore.Registered id ∨
      x.1.auth.Registers nickname password ∧ id = x.1.auth.userStore.nextId) :
    NoImpersonation (sv', x.2) ↔ KeepsApart x (.register nickname password salt token now) := by
  constructor
  · intro hx' hreg s hnext
    have hnew : sv'.auth.userStore.Registered (10000 + s) :=
      (husers _).2 (.inr ⟨hreg, hnext.symm⟩)
    refine ⟨fun hs => ?_, fun hmem => ?_⟩
    · have hlogin := hx'.bound s
      rw [hbound, hs] at hlogin
      exact hlogin hnew
    · by_contra hno
      exact hx'.handed s _ hmem hno hnew
  · intro hapart
    refine ⟨fun s hs => ?_, fun s id hmem hno hreg => ?_⟩
    · dsimp only at hs ⊢
      rw [hbound] at hs ⊢
      rcases (husers _).1 hs with hold | ⟨hreg, hid⟩
      · exact hx.bound s hold
      · have hmem := hknown.current s hs.pos.ne'
        rcases hknown.known s _ hmem with hguest | hlogin
        · rw [hguest]
          exact (hapart hreg s (hid.symm.trans hguest)).1 hguest
        · exact hlogin
    · rcases (husers _).1 hreg with hold | ⟨hopens, hid⟩
      · exact hx.handed s id hmem hno hold
      · rcases hknown.known s id hmem with rfl | hlogin
        · exact hno ((hapart hopens s hid.symm).2 hmem)
        · exact hno ⟨id, hlogin⟩

theorem record_quiet {sv : Server} {v : Visits} (hop : sv.handles op = none) :
    v.record sv op out sv' = v := by
  rw [Visits.record, hop]

theorem known_step (hknown : Known x) (h : (visitedServer hashPassword).step x op = some (x', out)) :
    Known x' := by
  obtain ⟨hstep, hv⟩ := Machine.withHistory_step.1 h
  rcases hop : x.1.handles op with _ | ⟨s, msg, now⟩
  · rw [record_quiet hop] at hv
    have hquiet := (Server.step_quiet hstep hop).1
    refine ⟨fun s hs => ?_, fun s id hmem => ?_⟩
    · rcases hquiet s with hsame | hzero
      · rw [hv, hsame]
        exact hknown.current s (hsame ▸ hs)
      · exact absurd hzero hs
    · rw [hv] at hmem ⊢
      exact hknown.known s id hmem
  · obtain ⟨hlogins, hbound⟩ := record_handles x.2 out hop
      (rfl : x'.1.sessions.playerOf s = x'.1.sessions.playerOf s)
    rw [← hv] at hlogins hbound
    have hbinds : ∃ id, Server.Binds x.1 x'.1 s id ∧
        (id = 0 ∨ id = 10000 + s ∨ (s, id) ∈ x.2.bound ∨ (s, id) ∈ x'.2.logins) := by
      rcases Server.step_takes hstep hop with ⟨-, hbinds⟩ | ⟨-, hbinds | ⟨id, haccepts, hbinds⟩⟩
      · refine ⟨_, hbinds, ?_⟩
        unfold Server.identity
        split_ifs with hunbound
        · exact .inr (.inl rfl)
        · exact .inr (.inr (.inl (hknown.current s hunbound)))
      · refine ⟨_, hbinds, ?_⟩
        by_cases hunbound : x.1.sessions.playerOf s = 0
        · exact .inl hunbound
        · exact .inr (.inr (.inl (hknown.current s hunbound)))
      · refine ⟨id, hbinds, .inr (.inr (.inr ?_))⟩
        rw [hlogins, haccepts]
        simp
    obtain ⟨id, hbinds, hid⟩ := hbinds
    rw [hbinds.bound] at hbound
    refine ⟨fun s' hs' => ?_, fun s' id' hmem => ?_⟩
    · rw [hbound]
      by_cases heq : s' = s
      · subst heq
        rw [hbinds.bound] at hs' ⊢
        rw [if_neg hs']
        exact List.mem_append_right _ (List.mem_singleton.2 rfl)
      · rw [hbinds.others s' heq] at hs' ⊢
        exact List.mem_append_left _ (hknown.current s' hs')
    · have hold : ∀ {s' id'}, (s', id') ∈ x.2.bound → id' = 10000 + s' ∨ (s', id') ∈ x'.2.logins :=
        fun hmem => (hknown.known _ _ hmem).imp_right fun hmem => by
          rw [hlogins]
          exact List.mem_append_left _ hmem
      rw [hbound] at hmem
      rcases List.mem_append.1 hmem with hmem | hmem
      · exact hold hmem
      · split_ifs at hmem with hzero
        · cases hmem
        · obtain ⟨rfl, rfl⟩ := Prod.mk.inj (List.mem_singleton.1 hmem)
          rcases hid with hid | hid | hid | hid
          · exact absurd hid hzero
          · exact .inl hid
          · exact hold hid
          · exact .inr hid

theorem noImpersonation_step (hknown : Known x) (hx : NoImpersonation x)
    (h : (visitedServer hashPassword).step x op = some (x', out)) :
    NoImpersonation x' ↔ KeepsApart x op := by
  obtain ⟨hstep, hv⟩ := Machine.withHistory_step.1 h
  obtain ⟨sv', v'⟩ := x'
  obtain rfl : v' = x.2.record x.1 op out sv' := hv
  rcases hop : x.1.handles op with _ | ⟨s, msg, now⟩
  · obtain ⟨hsessions, husers⟩ := Server.step_quiet hstep hop
    rw [record_quiet hop]
    by_cases hreg : ∃ nickname password salt token now,
        op = .register nickname password salt token now
    · obtain ⟨nickname, password, salt, token, now, rfl⟩ := hreg
      refine noImpersonation_register hknown hx (fun s => ?_) fun id => ?_
      · cases hstep
        rfl
      · simpa using husers id
    · have husers' : ∀ id, sv'.auth.userStore.Registered id ↔ x.1.auth.userStore.Registered id := by
        intro id
        refine (husers id).trans (or_iff_left ?_)
        rintro ⟨nickname, password, salt, token, now, rfl, -⟩
        exact hreg ⟨nickname, password, salt, token, now, rfl⟩
      refine iff_of_true ⟨fun s hs => ?_, fun s id hmem hno => ?_⟩ ?_
      · rcases hsessions s with hsame | hzero
        · dsimp only at hs ⊢
          rw [hsame] at hs ⊢
          exact hx.bound s ((husers' _).1 hs)
        · exact absurd hzero hs.pos.ne'
      · exact fun hreg => hx.handed s id hmem hno ((husers' id).1 hreg)
      · cases op with
        | register nickname password salt token now =>
          exact absurd ⟨nickname, password, salt, token, now, rfl⟩ hreg
        | _ =>
          intro s hasks
          obtain ⟨msg, now, hhandles, -⟩ := Server.handles_of_resolves hasks
          rw [hop] at hhandles
          cases hhandles
  · rw [noImpersonation_takes hx hop (Server.step_takes hstep hop)]
    have hsession : ∀ s', x.1.resolves op = some s' → s' = s := by
      intro s' hasks
      obtain ⟨msg', now', hop', -⟩ := Server.handles_of_resolves hasks
      cases hop.symm.trans hop'
      rfl
    have hiff : KeepsApart x op ↔ ∀ s', x.1.resolves op = some s' →
        x.1.sessions.playerOf s' = 0 → x.1.auth.userStore.Registered (10000 + s') →
          (s', 10000 + s') ∈ x.2.logins := by
      cases op with
      | register => cases hop
      | _ => exact Iff.rfl
    rw [hiff]
    constructor
    · intro hkeeps s' hasks
      obtain rfl := hsession s' hasks
      exact hkeeps hasks
    · exact fun hkeeps => hkeeps s

end Steps

/-- Along every run of the server nobody is impersonated exactly when each step keeps guests and
accounts apart. -/
theorem no_impersonation (hashPassword : String → String → String) (users : UserStore)
    (liveKitEnabled : Bool) (ops : List ServerOp) :
    (visitedServer hashPassword).Always NoImpersonation (Server.start users liveKitEnabled, {}) ops ↔
      (visitedServer hashPassword).EachStep (fun x op _ => KeepsApart x op)
        (Server.start users liveKitEnabled, {}) ops := by
  refine Machine.always_iff_eachStep (J := Known)
    (fun _ _ _ _ hknown _ hstep => known_step hknown hstep)
    (fun _ _ _ _ hknown hx _ hstep => noImpersonation_step hknown hx hstep) ?_ ?_
    ((Machine.Follows.of_forall fun _ _ _ => trivial :
      Machine.Follows _ (fun _ _ => True) _ _))
  · exact ⟨fun s hs => absurd rfl hs, fun s id hmem => by cases hmem⟩
  · refine ⟨fun s hs => ?_, fun s id hmem => by cases hmem⟩
    exact absurd rfl hs.pos.ne'

/-! ### A guest whose id is taken -/

/-- The first visitor creates a room without logging in, and somebody else opens the first
account. -/
def guestThenAccount : List ServerOp :=
  [.connect true, .message 1 { type := .createRoom } false false 0,
    .register "alice" "secret1" "salt" "token" 0]

theorem guest_is_account :
    ¬ (visitedServer fun password salt => salt ++ password).Always NoImpersonation
      (Server.start .empty false, {}) guestThenAccount := by
  intro hall
  obtain ⟨x, hrun, hreg, hno⟩ := Machine.exists_run_of_any
    (M := visitedServer fun password salt => salt ++ password)
    (s := (Server.start .empty false, {})) (l := guestThenAccount)
    (P := fun x => x.1.auth.userStore.Registered (x.1.sessions.playerOf 1) ∧ x.2.logins = [])
    (by decide +kernel)
  have hlogin := (hall.of_run hrun).bound 1 hreg
  rw [hno] at hlogin
  cases hlogin

end Guandan
