import Guandan.Library.Machine
import Mathlib.Tactic.Ring

/-!
# Automatic reconnection

`reconnect_manager.dart`, and the connection of `websocket_client.dart` as far as it reports its state. The
manager is not disposed, and nobody calls `disconnect` or `prepareManualReconnect`. What runs up to the next
`await` that waits for the network or a timer is one step; a state is what is left between two of them.
-/

namespace Guandan.Client

inductive WsConnectionState
  | disconnected | connecting | connected | reconnecting
  deriving DecidableEq, Repr

/-! ### The manager -/

structure ReconnectManager where
  /-- The delay of the timer that is set, in seconds. -/
  timer : Option Nat := none
  attempt : Nat := 0
  /-- The callback of the timer waits for an attempt. -/
  running : Bool := false
  deriving DecidableEq, Repr

def maxAttempts : Nat := 20

namespace ReconnectManager

def scheduleReconnect (m : ReconnectManager) : ReconnectManager :=
  if m.running ∨ maxAttempts ≤ m.attempt then m
  else { m with timer := some (min 30 (max 1 (2 ^ m.attempt))), attempt := m.attempt + 1 }

def onStateChanged (m : ReconnectManager) : WsConnectionState → ReconnectManager
  | .connected => { m with attempt := 0, timer := none }
  | .disconnected => m.scheduleReconnect
  | .connecting | .reconnecting => m

end ReconnectManager

/-! ### The client -/

/-- Where an attempt waits: for the old channel to close, for the new one to be ready, or for that one to
close when it was not. -/
inductive ConnectPhase
  | cleaning | opening | failing
  deriving DecidableEq, Repr

structure ClientState where
  state : WsConnectionState := .disconnected
  /-- `_connectingFuture`. -/
  connecting : Option ConnectPhase := none
  /-- The losses whose channel is still being closed. -/
  losses : Nat := 0
  manager : ReconnectManager := {}
  deriving DecidableEq, Repr

/-- What the client is told, or goes on with after waiting. -/
inductive ClientEvent
  /-- A page calls `connect`. -/
  | connect
  /-- The old channel is closed. -/
  | cleaned
  /-- The new channel is ready, or is not. -/
  | ready (ok : Bool)
  /-- The channel of a failed attempt is closed. -/
  | failed
  /-- A stream ends or breaks. A cleanup that overlaps with an attempt can leave an old one listened to, so
  this may happen in every state. -/
  | lost
  /-- The channel that was lost is closed. -/
  | lossCleaned
  | timerFired
  deriving DecidableEq, Repr

namespace ClientState

def setState (c : ClientState) (next : WsConnectionState) : ClientState :=
  if c.state = next then c
  else { c with state := next, manager := c.manager.onStateChanged next }

/-- An attempt that is under way is waited for instead of a new one. -/
def connect (c : ClientState) : ClientState :=
  if c.connecting.isSome then c else { c with connecting := some .cleaning }

/-- The future of an attempt completes, and the callback of the timer, if it waits, goes on. -/
def completed (c : ClientState) : ClientState :=
  { c with connecting := none, manager := { c.manager with running := false } }

def apply (c : ClientState) : ClientEvent → Option ClientState
  | .connect => some c.connect
  | .cleaned =>
    if c.connecting = some .cleaning then
      some ({ c with connecting := some .opening }.setState .connecting)
    else none
  | .ready ok =>
    if c.connecting = some .opening then
      some (if ok then (c.setState .connected).completed else { c with connecting := some .failing })
    else none
  | .failed =>
    if c.connecting = some .failing then some (c.setState .disconnected).completed else none
  | .lost => some ({ c with losses := c.losses + 1 }.setState .reconnecting)
  | .lossCleaned =>
    if 0 < c.losses then some ({ c with losses := c.losses - 1 }.setState .disconnected) else none
  | .timerFired =>
    if c.manager.timer.isSome then
      let c := { c with manager := { c.manager with timer := none } }
      if c.manager.running then some c
      else some { c with manager := { c.manager with running := true } }.connect
    else none

end ClientState

def reconnectingClient : Machine ClientState ClientEvent Unit := ⟨fun c e => (c.apply e).map (·, ())⟩

/-- The client when `connect` was called for the first time. -/
def connectCalled : ClientState := ({} : ClientState).connect

namespace ClientState

/-- A client that is disconnected, and made less than 20 attempts, tries again. -/
def TriesAgain (c : ClientState) : Prop :=
  c.state = .disconnected → c.manager.attempt < maxAttempts →
    c.manager.timer.isSome ∨ c.connecting.isSome

/-- An attempt that the callback of the timer waits for fails only when all attempts are made. -/
def RetrySucceeds (c : ClientState) : ClientEvent → Prop
  | .failed => c.manager.running = true → maxAttempts ≤ c.manager.attempt
  | _ => True

/-- The callback waits for an attempt, and no other timer is set then. A client that is disconnected before
its attempt has failed lost a connection, and the timer is set. -/
structure Retrying (c : ClientState) : Prop where
  waits : c.manager.running = true → c.connecting.isSome ∧ c.manager.timer = none
  lost : c.connecting = some .opening ∨ c.connecting = some .failing → c.state = .disconnected →
    c.manager.attempt < maxAttempts → c.manager.running = true ∨ c.manager.timer.isSome

variable {c c' : ClientState} {next : WsConnectionState}

theorem setState_of_eq (h : c.state = next) : c.setState next = c := if_pos h

theorem setState_of_ne (h : c.state ≠ next) :
    c.setState next = { c with state := next, manager := c.manager.onStateChanged next } := if_neg h

@[simp] theorem setState_state : (c.setState next).state = next := by
  unfold setState
  split_ifs with h
  · exact h
  · rfl

@[simp] theorem setState_connecting : (c.setState next).connecting = c.connecting := by
  unfold setState
  split_ifs <;> rfl

/-- The manager starts and stops nothing when an attempt or a loss begins. -/
theorem setState_manager_of_quiet (h : next = .connecting ∨ next = .reconnecting) :
    (c.setState next).manager = c.manager := by
  unfold setState
  split_ifs
  · rfl
  · obtain rfl | rfl := h <;> rfl

theorem scheduleReconnect_of_not {m : ReconnectManager} (h : m.running = true ∨ maxAttempts ≤ m.attempt) :
    m.scheduleReconnect = m := if_pos h

theorem scheduleReconnect_timer {m : ReconnectManager} (hrunning : m.running = false)
    (hattempt : m.attempt < maxAttempts) : m.scheduleReconnect.timer.isSome := by
  rw [ReconnectManager.scheduleReconnect, if_neg (by simp [hrunning, hattempt])]
  rfl

theorem scheduleReconnect_running (m : ReconnectManager) : m.scheduleReconnect.running = m.running := by
  unfold ReconnectManager.scheduleReconnect
  split_ifs <;> rfl

theorem attempt_le_scheduleReconnect (m : ReconnectManager) : m.attempt ≤ m.scheduleReconnect.attempt := by
  unfold ReconnectManager.scheduleReconnect
  split_ifs
  · exact Nat.le_refl _
  · exact Nat.le_succ _

/-- A client that becomes disconnected has its timer set, unless the callback waits or all attempts are
made; for one that was disconnected already nothing changes. -/
theorem setState_disconnected_timer {P : Prop} (hrunning : c.manager.running = false)
    (h : c.state = .disconnected → c.manager.attempt < maxAttempts → c.manager.timer.isSome ∨ P)
    (hattempt : (c.setState .disconnected).manager.attempt < maxAttempts) :
    (c.setState .disconnected).manager.timer.isSome ∨ P := by
  by_cases hstate : c.state = .disconnected
  · rw [setState_of_eq hstate] at hattempt ⊢
    exact h hstate hattempt
  · rw [setState_of_ne hstate] at hattempt ⊢
    exact .inl (scheduleReconnect_timer hrunning
      (Nat.lt_of_le_of_lt (attempt_le_scheduleReconnect c.manager) hattempt))

/-- A manager whose callback waits is left as it is. -/
theorem setState_disconnected_of_running (hrunning : c.manager.running = true) :
    (c.setState .disconnected).manager = c.manager := by
  unfold setState
  split_ifs
  · rfl
  · exact scheduleReconnect_of_not (.inl hrunning)

theorem setState_disconnected_running :
    (c.setState .disconnected).manager.running = c.manager.running := by
  unfold setState
  split_ifs
  · rfl
  · exact scheduleReconnect_running c.manager

theorem connect_connecting : c.connect.connecting.isSome := by
  unfold connect
  split_ifs with h
  · exact h
  · rfl

theorem connect_manager : c.connect.manager = c.manager := by
  unfold connect
  split_ifs <;> rfl

/-- The attempt that a call of `connect` leaves is the one under way, or a new one. -/
theorem connect_phase (h : c.connect.connecting = some .opening ∨ c.connect.connecting = some .failing) :
    c.connect = c := by
  unfold connect at h ⊢
  split_ifs at h ⊢ with hsome
  · rfl
  · rcases h with h | h <;> cases h

/-! ### Steps -/

theorem Retrying.connect (h : c.Retrying) : c.connect.Retrying where
  waits hrunning := by
    rw [connect_manager] at hrunning ⊢
    exact ⟨connect_connecting, (h.waits hrunning).2⟩
  lost hphase := by
    have hsame := connect_phase hphase
    rw [hsame] at hphase ⊢
    exact h.lost hphase

theorem Retrying.of_not_waiting (hrunning : c.manager.running = false)
    (hphase : c.connecting ≠ some .opening ∧ c.connecting ≠ some .failing) : c.Retrying where
  waits h := by rw [hrunning] at h; cases h
  lost h := absurd h (not_or.2 hphase)

theorem Retrying.step {e : ClientEvent} (h : c.Retrying) (hstep : c.apply e = some c') : c'.Retrying := by
  cases e with
  | connect =>
    obtain rfl := Option.some.inj hstep
    exact h.connect
  | cleaned =>
    simp only [apply] at hstep
    split_ifs at hstep with hphase
    obtain rfl := Option.some.inj hstep
    have hmanager := setState_manager_of_quiet (c := { c with connecting := some .opening }) (.inl rfl)
    refine ⟨fun hrunning => ?_, fun _ hstate => ?_⟩
    · rw [hmanager] at hrunning ⊢
      exact ⟨by simp, (h.waits hrunning).2⟩
    · simp at hstate
  | ready ok =>
    simp only [apply] at hstep
    split_ifs at hstep with hphase hok
    · obtain rfl := Option.some.inj hstep
      exact .of_not_waiting rfl ⟨nofun, nofun⟩
    · obtain rfl := Option.some.inj hstep
      exact ⟨fun hrunning => ⟨rfl, (h.waits hrunning).2⟩, fun _ => h.lost (.inl hphase)⟩
  | failed =>
    simp only [apply] at hstep
    split_ifs at hstep with hphase
    obtain rfl := Option.some.inj hstep
    exact .of_not_waiting rfl ⟨nofun, nofun⟩
  | lost =>
    obtain rfl := Option.some.inj hstep
    have hmanager := setState_manager_of_quiet (c := { c with losses := c.losses + 1 }) (.inr rfl)
    refine ⟨fun hrunning => ?_, fun _ hstate => ?_⟩
    · rw [hmanager] at hrunning ⊢
      simpa using h.waits hrunning
    · simp at hstate
  | lossCleaned =>
    simp only [apply] at hstep
    split_ifs at hstep with hlosses
    obtain rfl := Option.some.inj hstep
    refine ⟨fun hrunning => ?_, fun hphase _ hattempt => ?_⟩
    · rw [setState_disconnected_running] at hrunning
      rw [setState_disconnected_of_running hrunning, setState_connecting]
      exact h.waits hrunning
    · rw [setState_connecting] at hphase
      cases hrunning : c.manager.running with
      | true => exact .inl (setState_disconnected_running.trans hrunning)
      | false =>
        have hlost := setState_disconnected_timer (c := { c with losses := c.losses - 1 }) hrunning
          (fun hstate hleft => (h.lost hphase hstate hleft).symm) hattempt
        exact hlost.symm.imp_left setState_disconnected_running.trans
  | timerFired =>
    simp only [apply] at hstep
    split_ifs at hstep with htimer hrunning
    · rw [(h.waits hrunning).2] at htimer
      cases htimer
    · obtain rfl := Option.some.inj hstep
      refine ⟨fun _ => ⟨connect_connecting, ?_⟩, fun _ _ _ => .inl ?_⟩
      · rw [connect_manager]
      · rw [connect_manager]

/-- A step keeps the promise to try again unless the attempt that the callback waits for fails, with
attempts left. -/
theorem triesAgain_step {e : ClientEvent} (h : c.Retrying) (hc : c.TriesAgain)
    (hstep : c.apply e = some c') : c'.TriesAgain ↔ c.RetrySucceeds e := by
  cases e with
  | failed =>
    simp only [apply] at hstep
    split_ifs at hstep with hphase
    obtain rfl := Option.some.inj hstep
    cases hrunning : c.manager.running with
    | true =>
      -- the callback keeps the manager from setting its timer
      have hmanager := setState_disconnected_of_running hrunning
      have htimer := (h.waits hrunning).2
      simp [TriesAgain, RetrySucceeds, completed, hmanager, htimer, hrunning]
    | false =>
      refine iff_of_true (fun _ hattempt => .inl ?_) (fun h => by rw [hrunning] at h; cases h)
      have htimer := setState_disconnected_timer hrunning
        (fun hstate hleft => (h.lost (.inr hphase) hstate hleft).symm) hattempt
      exact htimer.resolve_right (by simp [hrunning])
  | connect =>
    obtain rfl := Option.some.inj hstep
    exact iff_of_true (fun _ _ => .inr connect_connecting) trivial
  | cleaned =>
    simp only [apply] at hstep
    split_ifs at hstep
    obtain rfl := Option.some.inj hstep
    exact iff_of_true (fun _ _ => .inr (by simp)) trivial
  | ready ok =>
    simp only [apply] at hstep
    split_ifs at hstep with hphase hok
    · obtain rfl := Option.some.inj hstep
      refine iff_of_true (fun hstate => ?_) trivial
      simp [completed] at hstate
    · obtain rfl := Option.some.inj hstep
      exact iff_of_true (fun _ _ => .inr rfl) trivial
  | lost =>
    obtain rfl := Option.some.inj hstep
    refine iff_of_true (fun hstate => ?_) trivial
    simp at hstate
  | lossCleaned =>
    simp only [apply] at hstep
    split_ifs at hstep with hlosses
    obtain rfl := Option.some.inj hstep
    refine iff_of_true (fun _ hattempt => ?_) trivial
    rw [setState_connecting]
    cases hrunning : c.manager.running with
    | true => exact .inr (h.waits hrunning).1
    | false =>
      exact setState_disconnected_timer (c := { c with losses := c.losses - 1 }) hrunning hc hattempt
  | timerFired =>
    simp only [apply] at hstep
    split_ifs at hstep with htimer hrunning
    · rw [(h.waits hrunning).2] at htimer
      cases htimer
    · obtain rfl := Option.some.inj hstep
      exact iff_of_true (fun _ _ => .inr connect_connecting) trivial

end ClientState

/-- Along every run from the first call of `connect` on, a disconnected client with attempts left has its
timer set or an attempt under way, exactly when no attempt fails that the callback of the timer waits for
before all attempts are made. -/
theorem triesAgain_iff (events : List ClientEvent) :
    reconnectingClient.Always ClientState.TriesAgain connectCalled events ↔
      reconnectingClient.EachStep (fun c e _ => c.RetrySucceeds e) connectCalled events := by
  have hstart : connectCalled.Retrying := .of_not_waiting rfl ⟨nofun, nofun⟩
  have hfollows : reconnectingClient.Follows (fun _ _ => True) connectCalled events :=
    .of_forall fun _ _ _ => trivial
  have hstep {c c' : ClientState} {e : ClientEvent} {u : Unit}
      (h : reconnectingClient.step c e = some (c', u)) : c.apply e = some c' := by
    simpa [reconnectingClient] using h
  exact Machine.always_iff_eachStep (J := ClientState.Retrying)
    (fun _ _ _ _ h _ hs => h.step (hstep hs))
    (fun _ _ _ _ h hc _ hs => ClientState.triesAgain_step h hc (hstep hs))
    hstart (fun _ _ => .inr rfl) hfollows

/-- The first attempt fails, and so does the one after the timer: nothing is tried any more. -/
theorem triesAgain_stuck :
    ∃ c, reconnectingClient.run connectCalled
        [.cleaned, .ready false, .failed, .timerFired, .cleaned, .ready false, .failed] = some c ∧
      c.state = .disconnected ∧ c.manager = { attempt := 1 } ∧ c.connecting = none ∧ c.losses = 0 ∧
      ¬ c.TriesAgain := by
  refine ⟨_, rfl, rfl, rfl, rfl, rfl, fun h => ?_⟩
  rcases h rfl (by decide) with htimer | hconnecting
  · cases htimer
  · cases hconnecting

end Guandan.Client
