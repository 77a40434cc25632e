import Guandan.Network.Sessions

/-!
# Whom a message reaches

`playerSessions_` is to name for each player a session that is bound to that player. Removing a
session takes its entry out, and binding it to another player does not: so the entries stay right
exactly as long as no session is bound anew while it is still the one its player is reached by.
-/

namespace Guandan

inductive SessionOp
  | ensureSession (sessionId : SessionId)
  | bindPlayer (sessionId : SessionId) (playerId : PlayerId) (nickname : String)
  | authenticate (sessionId : SessionId) (token : String)
  | removeSession (sessionId : SessionId)

/-- The session manager under any sequence of calls. -/
def sessionManager : Machine SessionManager SessionOp Unit where
  step m
    | .ensureSession s => some (m.ensureSession s, ())
    | .bindPlayer s id nickname => some ((m.bindPlayer s id nickname).2, ())
    | .authenticate s token => some ((m.authenticate s token).2, ())
    | .removeSession s => some (m.removeSession s, ())

/-- The session is there, and it is bound to the player. -/
def BoundTo (m : SessionManager) (s : SessionId) (id : PlayerId) : Prop :=
  ∃ session, m.sessions s = some session ∧ session.playerId = id

/-- The session of each player is bound to the player, and what is sent to a player reaches only a
session that is. -/
structure ReachesOwner (m : SessionManager) : Prop where
  current : ∀ id s, m.playerSessions id = some s → BoundTo m s id
  sent : ∀ id s, m.sendToPlayer id = some s → BoundTo m s id

/-- A session is not bound to another player while its player is reached by it. -/
def LeavesNoEntry (m : SessionManager) : SessionOp → Prop
  | .bindPlayer s id _ => ∀ session, m.sessions s = some session →
      m.playerSessions session.playerId = some s →
        session.playerId = if id = 0 then 10000 + s else id
  | _ => True

section Steps

variable {m m' : SessionManager} {s s' : SessionId} {id id' : PlayerId} {op : SessionOp}

/-- Sending looks the session up. -/
theorem reachesOwner_iff :
    ReachesOwner m ↔ ∀ id s, m.playerSessions id = some s → BoundTo m s id := by
  refine ⟨fun h => h.current, fun h => ⟨h, fun id s hsent => h id s ?_⟩⟩
  unfold SessionManager.sendToPlayer at hsent
  dsimp only at hsent
  by_cases hpos : 0 < m.findSessionIdByPlayerId id
  · rw [if_pos hpos, Option.some.injEq] at hsent
    rcases hentry : m.playerSessions id with _ | s'
    · simp [SessionManager.findSessionIdByPlayerId, hentry] at hpos
    · rw [← hsent, SessionManager.findSessionIdByPlayerId, hentry, Option.getD_some]
  · rw [if_neg hpos] at hsent
    cases hsent

/-- Player 0 has no session. -/
def NoNobody (m : SessionManager) : Prop := m.playerSessions 0 = none

theorem default_ne_zero (s : SessionId) (id : PlayerId) :
    (if id = 0 then 10000 + s else id) ≠ 0 := by
  split_ifs with h
  · exact Nat.ne_of_gt (Nat.add_pos_left (by decide) s)
  · exact h

theorem noNobody_step (h : NoNobody m) {out : Unit}
    (hstep : sessionManager.step m op = some (m', out)) : NoNobody m' := by
  unfold NoNobody at h ⊢
  cases op with
  | ensureSession s =>
    cases hstep
    unfold SessionManager.ensureSession
    rcases m.sessions s with _ | session
    · exact h
    · exact h
  | bindPlayer s id nickname =>
    cases hstep
    unfold SessionManager.bindPlayer
    rcases m.sessions s with _ | session
    · exact h
    · exact (Function.update_of_ne (default_ne_zero s id).symm _ _).trans h
  | authenticate s token =>
    cases hstep
    unfold SessionManager.authenticate
    rcases m.sessions s with _ | session
    · exact h
    · dsimp only
      split_ifs
      · exact h
      · exact h
  | removeSession s =>
    cases hstep
    unfold SessionManager.removeSession
    rcases m.sessions s with _ | session
    · exact h
    · dsimp only [SessionManager.setSession]
      split_ifs with hentry
      · exact (Function.update_of_ne hentry.1.ne _ _).trans h
      · exact h

/-- Sessions that keep their players keep the entries right. -/
theorem reachesOwner_of_bound (h : ReachesOwner m) (hentries : m'.playerSessions = m.playerSessions)
    (hbound : ∀ s id, BoundTo m s id → BoundTo m' s id) : ReachesOwner m' := by
  rw [reachesOwner_iff] at h ⊢
  intro id s hentry
  rw [hentries] at hentry
  exact hbound s id (h id s hentry)

theorem ensureSession_reaches (h : ReachesOwner m) (s : SessionId) :
    ReachesOwner (m.ensureSession s) := by
  unfold SessionManager.ensureSession
  rcases hs : m.sessions s with _ | session
  · refine reachesOwner_of_bound h rfl fun s' id ⟨session', hs', hid⟩ => ⟨session', ?_, hid⟩
    have hne : s' ≠ s := fun heq => by
      rw [heq, hs] at hs'
      cases hs'
    exact (Function.update_of_ne hne _ _).trans hs'
  · exact h

theorem authenticate_reaches (h : ReachesOwner m) (s : SessionId) (token : String) :
    ReachesOwner (m.authenticate s token).2 := by
  unfold SessionManager.authenticate
  rcases hs : m.sessions s with _ | session
  · exact h
  · dsimp only
    split_ifs
    · exact h
    · refine reachesOwner_of_bound h rfl fun s' id ⟨session', hs', hid⟩ => ?_
      by_cases heq : s' = s
      · subst heq
        cases hs.symm.trans hs'
        exact ⟨_, Function.update_self .., hid⟩
      · exact ⟨session', (Function.update_of_ne heq _ _).trans hs', hid⟩

/-- A session that goes takes the entry of its player along. -/
theorem removeSession_reaches (hnobody : NoNobody m) (h : ReachesOwner m) (s : SessionId) :
    ReachesOwner (m.removeSession s) := by
  unfold SessionManager.removeSession
  rcases hs : m.sessions s with _ | session
  · exact h
  · rw [reachesOwner_iff] at h ⊢
    intro id s' hentry
    dsimp only [SessionManager.setSession] at hentry
    have hold : m.playerSessions id = some s' ∧ s' ≠ s := by
      split_ifs at hentry with herased
      · by_cases heq : id = session.playerId
        · rw [heq, Function.update_self] at hentry
          cases hentry
        · rw [Function.update_of_ne heq] at hentry
          refine ⟨hentry, fun hsame => heq ?_⟩
          obtain ⟨session', hs', hid⟩ := h id s' hentry
          rw [hsame, hs] at hs'
          cases hs'
          exact hid.symm
      · refine ⟨hentry, fun hsame => herased ?_⟩
        obtain ⟨session', hs', hid⟩ := h id s' hentry
        rw [hsame, hs] at hs'
        cases hs'
        rw [hsame] at hentry
        refine ⟨Nat.pos_of_ne_zero fun hzero => ?_, hid.symm ▸ hentry⟩
        rw [← hid, hzero] at hentry
        cases hnobody.symm.trans hentry
    obtain ⟨session', hs', hid⟩ := h id s' hold.1
    exact ⟨session', (Function.update_of_ne hold.2 _ _).trans hs', hid⟩

/-- Binding a session leaves the entry of its former player behind. -/
theorem bindPlayer_reaches (h : ReachesOwner m) (s : SessionId) (id : PlayerId) (nickname : String) :
    ReachesOwner (m.bindPlayer s id nickname).2 ↔ LeavesNoEntry m (.bindPlayer s id nickname) := by
  unfold SessionManager.bindPlayer LeavesNoEntry
  rcases hs : m.sessions s with _ | session
  · exact iff_of_true h fun session hs' => absurd (hs.symm.trans hs') nofun
  · dsimp only
    generalize (if id = 0 then 10000 + s else id) = bound
    rw [reachesOwner_iff] at h ⊢
    constructor
    · intro h' session' hs' hentry
      obtain rfl : session' = session := Option.some.inj (hs'.symm.trans hs)
      by_contra hne
      obtain ⟨bound', hbound', hid⟩ := h' session'.playerId s
        ((Function.update_of_ne hne _ _).trans hentry)
      rw [show bound' = _ from Option.some.inj (hbound'.symm.trans (Function.update_self ..))] at hid
      exact hne hid.symm
    · intro hleaves id' s' hentry
      by_cases hid : id' = bound
      · subst hid
        rw [show s' = s from Option.some.inj (hentry.symm.trans (Function.update_self ..))]
        exact ⟨_, Function.update_self .., rfl⟩
      · have hold : m.playerSessions id' = some s' :=
          (Function.update_of_ne hid _ _).symm.trans hentry
        obtain ⟨session', hs', hid'⟩ := h id' s' hold
        have hne : s' ≠ s := fun heq => by
          subst heq
          exact hid (hid'.symm.trans (hleaves session' hs' (hid'.symm ▸ hold)))
        exact ⟨session', (Function.update_of_ne hne _ _).trans hs', hid'⟩

theorem reachesOwner_step (hnobody : NoNobody m) (h : ReachesOwner m) {out : Unit}
    (hstep : sessionManager.step m op = some (m', out)) : ReachesOwner m' ↔ LeavesNoEntry m op := by
  cases op with
  | ensureSession s =>
    cases hstep
    exact iff_of_true (ensureSession_reaches h s) trivial
  | bindPlayer s id nickname =>
    cases hstep
    exact bindPlayer_reaches h s id nickname
  | authenticate s token =>
    cases hstep
    exact iff_of_true (authenticate_reaches h s token) trivial
  | removeSession s =>
    cases hstep
    exact iff_of_true (removeSession_reaches hnobody h s) trivial

end Steps

/-- Along every run of the session manager messages reach their players only, exactly when no
session is bound anew while its player is reached by it. -/
theorem messages_reach_owner (ops : List SessionOp) :
    sessionManager.Always ReachesOwner {} ops ↔
      sessionManager.EachStep (fun m op _ => LeavesNoEntry m op) {} ops := by
  refine Machine.always_iff_eachStep (J := NoNobody)
    (fun _ _ _ _ h _ hstep => noNobody_step h hstep)
    (fun _ _ _ _ hnobody h _ hstep => reachesOwner_step hnobody h hstep) rfl ?_
    ((Machine.Follows.of_forall fun _ _ _ => trivial :
      Machine.Follows _ (fun _ _ => True) _ _))
  exact reachesOwner_iff.2 nofun

/-- A visitor plays as a guest and then logs in. -/
def guestLogsIn : List SessionOp :=
  [.ensureSession 1, .bindPlayer 1 0 "Player1", .bindPlayer 1 20000 "alice",
    .authenticate 1 "token"]

theorem guest_still_reached : ¬ sessionManager.Always ReachesOwner {} guestLogsIn := by
  intro hall
  obtain ⟨m, hrun, hentry, hbound⟩ := Machine.exists_run_of_any (M := sessionManager)
    (s := {}) (l := guestLogsIn)
    (P := fun m => m.sendToPlayer 10001 = some 1 ∧ m.playerOf 1 = 20000) (by decide +kernel)
  obtain ⟨session, hs, hid⟩ := (hall.of_run hrun).sent 10001 1 hentry
  rw [SessionManager.playerOf, hs] at hbound
  have hsame : session.playerId = 20000 := hbound
  exact absurd (hid.symm.trans hsame) (by decide)

end Guandan
