import Guandan.Library.Machine

/-!
# The send queue of a session

`BeastSession` of `websocket_server_asio.cpp`. The handlers of a session are run by its strand one at a
time, in any order: what is posted by `send` and `requestClose`, and the completions of the operations
that were started on the stream. Texts sent to nobody (logs, the handlers of the server) are left out.
-/

namespace Guandan

/-- The members of a session that its handlers share. -/
structure BeastSession where
  sendQueue : List String := []
  writing : Bool := false
  closed : Bool := false
  deriving DecidableEq, Repr

/-- How an `async_read` completes. -/
inductive ReadResult
  | message | closed | failed
  deriving DecidableEq, Repr

def ReadResult.isEnd : ReadResult → Bool
  | .message => false
  | .closed | .failed => true

namespace BeastSession

/-- With the message that is given to `async_write`. -/
def doWrite (s : BeastSession) : BeastSession × Option String :=
  match s.sendQueue with
  | [] => ({ s with writing := false }, none)
  | front :: _ =>
    if s.closed then ({ s with writing := false }, none)
    else ({ s with writing := true }, some front)

def enqueueOnStrand (s : BeastSession) (message : String) : BeastSession × Option String :=
  if s.closed then (s, none)
  else
    let s := { s with sendQueue := s.sendQueue ++ [message] }
    if !s.writing then s.doWrite else (s, none)

def onClosed (s : BeastSession) : BeastSession :=
  if s.closed then s else { sendQueue := [], writing := false, closed := true }

/-- The handler of `async_write`. It has no answer where `pop_front` finds the queue empty. -/
def onWrite (s : BeastSession) (ok : Bool) : Option (BeastSession × Option String) :=
  if !ok then some (s.onClosed, none)
  else match s.sendQueue with
    | [] => none
    | _ :: rest =>
      let s := { s with sendQueue := rest }
      if !rest.isEmpty then some s.doWrite else some ({ s with writing := false }, none)

/-- The handler of `async_read`, and whether the next read is started. -/
def onRead (s : BeastSession) : ReadResult → BeastSession × Bool
  | .message => (s, true)
  | .closed | .failed => (s.onClosed, false)

def requestClose (s : BeastSession) : BeastSession := { s with closed := true }

section Handlers

variable {s : BeastSession} {message front : String} {rest : List String}

theorem doWrite_closed (h : s.closed = true) : s.doWrite = ({ s with writing := false }, none) := by
  unfold doWrite
  split
  · rfl
  · rw [if_pos h]

theorem enqueueOnStrand_closed (h : s.closed = true) : s.enqueueOnStrand message = (s, none) := by
  rw [enqueueOnStrand, if_pos h]

/-- Nothing is being written: the message is started at once. -/
theorem enqueueOnStrand_idle (h : s.closed = false) (hwriting : s.writing = false)
    (hqueue : s.sendQueue = []) :
    s.enqueueOnStrand message = (⟨[message], true, false⟩, some message) := by
  simp [enqueueOnStrand, doWrite, h, hwriting, hqueue]

theorem enqueueOnStrand_busy (h : s.closed = false) (hwriting : s.writing = true) :
    s.enqueueOnStrand message = ({ s with sendQueue := s.sendQueue ++ [message] }, none) := by
  simp [enqueueOnStrand, h, hwriting]

theorem onWrite_empty (hqueue : s.sendQueue = []) : s.onWrite true = none := by
  simp [onWrite, hqueue]

theorem onWrite_closed (h : s.closed = true) (hqueue : s.sendQueue = front :: rest) :
    s.onWrite true = some ({ s with sendQueue := rest, writing := false }, none) := by
  cases rest with
  | nil => simp [onWrite, hqueue]
  | cons next rest =>
    have hrest := doWrite_closed (s := { s with sendQueue := next :: rest }) h
    simp [onWrite, hqueue, hrest]

/-- The front has been written: the next message, if there is one, is started. -/
theorem onWrite_open (h : s.closed = false) (hqueue : s.sendQueue = front :: rest) :
    s.onWrite true = some (⟨rest, !rest.isEmpty, false⟩, rest.head?) := by
  cases rest with
  | nil => simp [onWrite, hqueue, h]
  | cons next rest => simp [onWrite, hqueue, doWrite, h]

@[simp] theorem onClosed_closed : s.onClosed.closed = true := by
  unfold onClosed
  split
  · assumption
  · rfl

theorem onClosed_of_closed (h : s.closed = true) : s.onClosed = s := by
  rw [onClosed, if_pos h]

theorem onClosed_of_open (h : s.closed = false) : s.onClosed = ⟨[], false, true⟩ := by
  simp [onClosed, h]

/-- Only the end of a connection changes the session when a read completes. -/
theorem onRead_eq (result : ReadResult) :
    s.onRead result = (if result.isEnd then s.onClosed else s, !result.isEnd) := by
  cases result <;> rfl

end Handlers

end BeastSession

/-! ### The strand -/

/-- A session and the operations on its stream that have not completed. The lists at the end are
kept for the statements only. -/
structure SessionStrand where
  session : BeastSession := {}
  accepting : Bool := true
  reading : Bool := false
  /-- What is being written. -/
  writes : List String := []
  /-- What was put into the queue. -/
  enqueued : List String := []
  /-- What was given to `async_write`. -/
  started : List String := []
  /-- What was written without an error. -/
  finished : List String := []
  deriving DecidableEq, Repr

/-- A handler that the strand runs; `writeDone i` is that of the write `i` of those not completed. -/
inductive StrandOp
  | accepted (ok : Bool)
  | enqueue (message : String)
  | requestClose
  | writeDone (i : Nat) (ok : Bool)
  | readDone (result : ReadResult)
  deriving DecidableEq, Repr

namespace SessionStrand

/-- The session after a handler, which may have started a write. -/
def wrote (r : SessionStrand) (answer : BeastSession × Option String) : SessionStrand :=
  { r with
    session := answer.1
    writes := r.writes ++ answer.2.toList
    started := r.started ++ answer.2.toList }

def apply (r : SessionStrand) : StrandOp → Option SessionStrand
  | .accepted ok =>
    if r.accepting then some { r with accepting := false, reading := ok } else none
  | .enqueue message =>
    let enqueued := if r.session.closed then r.enqueued else r.enqueued ++ [message]
    some ({ r with enqueued := enqueued }.wrote (r.session.enqueueOnStrand message))
  | .requestClose => some { r with session := r.session.requestClose }
  | .writeDone i ok =>
    if h : i < r.writes.length then
      let message := r.writes[i]
      let finished := if ok then r.finished ++ [message] else r.finished
      (r.session.onWrite ok).map
        { r with writes := r.writes.eraseIdx i, finished := finished }.wrote
    else none
  | .readDone result =>
    if r.reading then
      let (session, reading) := r.session.onRead result
      some { r with session := session, reading := reading }
    else none

end SessionStrand

/-- A session as its strand runs it. -/
def sessionStrand : Machine SessionStrand StrandOp Unit := ⟨fun r op => (r.apply op).map (·, ())⟩

theorem sessionStrand_step {r r' : SessionStrand} {op : StrandOp} {u : Unit} :
    sessionStrand.step r op = some (r', u) ↔ r.apply op = some r' := by
  simp [sessionStrand]

/-! ### The discipline -/

namespace SessionStrand

/-- What is being written is at the front of the queue, one message at a time, and `pop_front` finds a
message; what was written is a front part of what was started, and that of what was put into the queue;
and while the session is open the queue holds what is left to be written, the first of it on its way. -/
structure Disciplined (r : SessionStrand) : Prop where
  front : ∀ message ∈ r.writes, r.session.sendQueue.head? = some message
  single : r.writes.length ≤ 1
  pops : ∀ i ok, i < r.writes.length → (r.apply (.writeDone i ok)).isSome
  order : r.started <+: r.enqueued
  written : r.finished ++ r.writes <+: r.started
  rest : r.session.closed = false → r.finished ++ r.session.sendQueue = r.enqueued ∧
    r.writes = r.session.sendQueue.take 1

/-- An open session: `writing_` is set while there is something to write, and then the front of the
queue is being written. -/
structure Open (r : SessionStrand) : Prop where
  writing : r.session.writing = !r.session.sendQueue.isEmpty
  writes : r.writes = r.session.sendQueue.take 1
  started : r.started = r.finished ++ r.writes
  enqueued : r.enqueued = r.finished ++ r.session.sendQueue

/-- What holds of every session, whatever happens around its close. -/
structure Kept (r : SessionStrand) : Prop where
  single : r.writes.length ≤ 1
  order : r.started <+: r.enqueued
  written : r.finished ++ r.writes <+: r.started
  isOpen : r.session.closed = false → r.Open

theorem Open.kept {r : SessionStrand} (h : r.Open) : r.Kept where
  single := by
    rw [h.writes]
    exact List.length_take_le 1 _
  order := by
    rw [h.started, h.enqueued, h.writes]
    exact (List.prefix_append_right_inj _).2 (List.take_prefix 1 _)
  written := h.started ▸ List.prefix_refl _
  isOpen _ := h

/-- A session that is closed keeps what it was doing, and starts nothing. -/
theorem Kept.of_closed {r r' : SessionStrand} (h : r.Kept) (hclosed : r'.session.closed = true)
    (hwrites : r'.writes = r.writes) (henqueued : r'.enqueued = r.enqueued)
    (hstarted : r'.started = r.started) (hfinished : r'.finished = r.finished) : r'.Kept where
  single := hwrites ▸ h.single
  order := by
    rw [hstarted, henqueued]
    exact h.order
  written := by
    rw [hfinished, hwrites, hstarted]
    exact h.written
  isOpen hopen := by rw [hclosed] at hopen; cases hopen

/-- Reads and the handshake touch nothing else. -/
theorem Kept.of_reads {r : SessionStrand} (h : r.Kept) (accepting reading : Bool) :
    { r with accepting := accepting, reading := reading }.Kept where
  single := h.single
  order := h.order
  written := h.written
  isOpen hopen :=
    have hr := h.isOpen hopen
    ⟨hr.writing, hr.writes, hr.started, hr.enqueued⟩

section Steps

variable {r r' : SessionStrand}

theorem Kept.enqueue {message : String} (h : r.Kept)
    (hstep : r.apply (.enqueue message) = some r') : r'.Kept := by
  obtain rfl := Option.some.inj hstep
  cases hclosed : r.session.closed with
  | true =>
    refine h.of_closed ?_ ?_ ?_ ?_ rfl
    all_goals simp [wrote, BeastSession.enqueueOnStrand_closed hclosed, hclosed]
  | false =>
    obtain ⟨hwriting, hwrites, hstarted, henqueued⟩ := h.isOpen hclosed
    cases hqueue : r.session.sendQueue with
    | nil =>
      rw [hqueue] at hwriting hwrites henqueued
      rw [BeastSession.enqueueOnStrand_idle hclosed hwriting hqueue]
      exact Open.kept ⟨rfl, by simp [wrote, hwrites], by simp [wrote, hstarted, hwrites],
        by simp [wrote, henqueued]⟩
    | cons front queue =>
      rw [hqueue] at hwriting hwrites henqueued
      rw [BeastSession.enqueueOnStrand_busy hclosed hwriting]
      exact Open.kept ⟨by simp [wrote, hqueue, hwriting], by simp [wrote, hqueue, hwrites],
        by simp [wrote, hstarted], by simp [wrote, henqueued, hqueue]⟩

/-- The only write that can complete is the one at the front. -/
theorem Kept.writes_eq {i : Nat} (h : r.Kept) (hi : i < r.writes.length) :
    i = 0 ∧ r.writes = [r.writes[i]] := by
  have hsingle := h.single
  obtain ⟨message, hwrites⟩ : ∃ message, r.writes = [message] :=
    List.length_eq_one_iff.1 (by omega)
  simp only [hwrites, List.length_singleton, Nat.lt_one_iff] at hi ⊢
  subst hi
  exact ⟨rfl, rfl⟩

theorem apply_writeDone {i : Nat} {ok : Bool} (hi : i < r.writes.length) :
    r.apply (.writeDone i ok) = (r.session.onWrite ok).map
      { r with
        writes := r.writes.eraseIdx i
        finished := if ok then r.finished ++ [r.writes[i]] else r.finished }.wrote := by
  simp only [apply, dif_pos hi]

theorem Kept.writeDone {i : Nat} {ok : Bool} (h : r.Kept)
    (hstep : r.apply (.writeDone i ok) = some r') : r'.Kept := by
  have hi : i < r.writes.length := by
    by_contra hi
    simp [apply, hi] at hstep
  obtain ⟨rfl, hwrites⟩ := h.writes_eq hi
  rw [apply_writeDone hi, Option.map_eq_some_iff] at hstep
  obtain ⟨answer, honWrite, rfl⟩ := hstep
  generalize r.writes[0] = message at hwrites
  have hdone : r.finished ++ [message] <+: r.started := hwrites ▸ h.written
  have hfinished : r.finished <+: r.started := (List.prefix_append _ _).trans hdone
  cases ok with
  | false =>
    obtain rfl := Option.some.inj honWrite
    refine ⟨by simp [wrote, hwrites], by simpa [wrote] using h.order,
      by simpa [wrote, hwrites] using hfinished, fun hopen => ?_⟩
    simp [wrote] at hopen
  | true =>
    cases hqueue : r.session.sendQueue with
    | nil =>
      rw [BeastSession.onWrite_empty hqueue] at honWrite
      cases honWrite
    | cons front rest =>
      cases hclosed : r.session.closed with
      | true =>
        rw [BeastSession.onWrite_closed hclosed hqueue] at honWrite
        obtain rfl := Option.some.inj honWrite
        refine ⟨by simp [wrote, hwrites], by simpa [wrote] using h.order,
          by simpa [wrote, hwrites] using hdone, fun hopen => ?_⟩
        rw [show _ = true from hclosed] at hopen
        cases hopen
      | false =>
        obtain ⟨-, htake, hstarted, henqueued⟩ := h.isOpen hclosed
        rw [BeastSession.onWrite_open hclosed hqueue] at honWrite
        obtain rfl := Option.some.inj honWrite
        obtain rfl : message = front := by simpa [hwrites, hqueue] using htake
        refine Open.kept ⟨rfl, ?_, ?_, ?_⟩
        · cases rest <;> simp [wrote, hwrites]
        · simp [wrote, hwrites, hstarted]
        · simp [wrote, henqueued, hqueue]

theorem Kept.readDone {result : ReadResult} (h : r.Kept)
    (hstep : r.apply (.readDone result) = some r') : r'.Kept := by
  simp only [apply, BeastSession.onRead_eq] at hstep
  split at hstep
  · obtain rfl := Option.some.inj hstep
    cases hend : result.isEnd with
    | true => exact h.of_closed (by simp) rfl rfl rfl rfl
    | false => exact h.of_reads r.accepting true
  · cases hstep

theorem Kept.step {op : StrandOp} (h : r.Kept) (hstep : r.apply op = some r') : r'.Kept := by
  cases op with
  | accepted ok =>
    simp only [apply] at hstep
    split at hstep
    · obtain rfl := Option.some.inj hstep
      exact h.of_reads false ok
    · cases hstep
  | enqueue message => exact h.enqueue hstep
  | requestClose =>
    obtain rfl := Option.some.inj hstep
    exact h.of_closed rfl rfl rfl rfl rfl
  | writeDone i ok => exact h.writeDone hstep
  | readDone result => exact h.readDone hstep

/-- Of what is kept around a close, only the front of the queue may be lost. -/
theorem Kept.disciplined_iff (h : r.Kept) :
    r.Disciplined ↔ ∀ message ∈ r.writes, r.session.sendQueue.head? = some message := by
  refine ⟨fun hr => hr.front, fun hfront => ⟨hfront, h.single, fun i ok hi => ?_, h.order, h.written,
    fun hopen => ⟨(h.isOpen hopen).enqueued.symm, (h.isOpen hopen).writes⟩⟩⟩
  rw [apply_writeDone hi, Option.isSome_map]
  cases ok with
  | false => rfl
  | true =>
    obtain ⟨rest, hqueue⟩ := List.head?_eq_some_iff.1 (hfront _ (List.getElem_mem hi))
    cases hclosed : r.session.closed with
    | true => rw [BeastSession.onWrite_closed hclosed hqueue]; rfl
    | false => rw [BeastSession.onWrite_open hclosed hqueue]; rfl

theorem Open.front {message : String} (h : r.Open) (hmessage : message ∈ r.writes) :
    r.session.sendQueue.head? = some message := by
  rw [h.writes] at hmessage
  cases hqueue : r.session.sendQueue with
  | nil => simp [hqueue] at hmessage
  | cons front rest =>
    rw [hqueue] at hmessage
    simpa [eq_comm] using hmessage

/-- A read does not end while the session is open and something is being written. -/
def ReadsOutlastWrites (r : SessionStrand) : StrandOp → Prop
  | .readDone result => result.isEnd = true → r.session.closed = true ∨ r.writes = []
  | _ => True

/-- The front of the queue is lost by no handler that a read does not run. -/
theorem front_step {op : StrandOp} (h : r.Kept)
    (hfront : ∀ message ∈ r.writes, r.session.sendQueue.head? = some message)
    (hread : ∀ result, op ≠ .readDone result) (hstep : r.apply op = some r') :
    ∀ message ∈ r'.writes, r'.session.sendQueue.head? = some message := by
  cases hclosed' : r'.session.closed with
  | false => exact fun message => ((h.step hstep).isOpen hclosed').front
  | true =>
    cases op with
    | accepted ok =>
      simp only [apply] at hstep
      split at hstep
      · obtain rfl := Option.some.inj hstep
        exact hfront
      · cases hstep
    | enqueue message =>
      obtain rfl := Option.some.inj hstep
      cases hclosed : r.session.closed with
      | true => simpa [wrote, BeastSession.enqueueOnStrand_closed hclosed] using hfront
      | false =>
        -- the session would still be open
        cases hwriting : r.session.writing with
        | true =>
          rw [BeastSession.enqueueOnStrand_busy hclosed hwriting] at hclosed'
          cases hclosed.symm.trans hclosed'
        | false =>
          have hqueue : r.session.sendQueue = [] := by
            simpa [hwriting] using (h.isOpen hclosed).writing
          rw [BeastSession.enqueueOnStrand_idle hclosed hwriting hqueue] at hclosed'
          cases hclosed'
    | requestClose =>
      obtain rfl := Option.some.inj hstep
      exact hfront
    | writeDone i ok =>
      have hi : i < r.writes.length := by
        by_contra hi
        simp [apply, hi] at hstep
      obtain ⟨rfl, hwrites⟩ := h.writes_eq hi
      rw [apply_writeDone hi, Option.map_eq_some_iff] at hstep
      obtain ⟨answer, honWrite, rfl⟩ := hstep
      -- the write that completed was the only one, and a closed session starts no other
      have hnone : answer.2 = none := by
        cases ok with
        | false =>
          obtain rfl := Option.some.inj honWrite
          rfl
        | true =>
          obtain ⟨rest, hqueue⟩ := List.head?_eq_some_iff.1 (hfront _ (List.getElem_mem hi))
          cases hclosed : r.session.closed with
          | true =>
            rw [BeastSession.onWrite_closed hclosed hqueue] at honWrite
            obtain rfl := Option.some.inj honWrite
            rfl
          | false =>
            rw [BeastSession.onWrite_open hclosed hqueue] at honWrite
            obtain rfl := Option.some.inj honWrite
            cases hclosed'
      have hrest : r.writes.eraseIdx 0 = [] := by
        rw [hwrites]
        rfl
      intro message hmessage
      simp [wrote, hnone, hrest] at hmessage
    | readDone result => exact absurd rfl (hread result)

/-- The end of a read empties the queue under a write, and no other handler loses its front. -/
theorem disciplined_step_iff {op : StrandOp} (h : r.Kept) (hr : r.Disciplined)
    (hstep : r.apply op = some r') : r'.Disciplined ↔ r.ReadsOutlastWrites op := by
  rw [(h.step hstep).disciplined_iff]
  cases op with
  | readDone result =>
    simp only [apply, BeastSession.onRead_eq] at hstep
    split at hstep
    · obtain rfl := Option.some.inj hstep
      cases hend : result.isEnd with
      | false => simpa [ReadsOutlastWrites, hend] using hr.front
      | true =>
        cases hclosed : r.session.closed with
        | true =>
          simpa [ReadsOutlastWrites, hclosed, BeastSession.onClosed_of_closed hclosed] using hr.front
        | false =>
          simp [ReadsOutlastWrites, hend, hclosed, BeastSession.onClosed_of_open hclosed,
            List.eq_nil_iff_forall_not_mem]
    · cases hstep
  | _ => exact iff_of_true (front_step h hr.front (fun _ => StrandOp.noConfusion) hstep) trivial

end Steps

end SessionStrand

/-! ### Runs of a session -/

/-- Along every run of a session, the queue keeps its discipline exactly when no read ends in an open
session while a message is being written. -/
theorem sendQueue_disciplined_iff (ops : List StrandOp) :
    sessionStrand.Always SessionStrand.Disciplined {} ops ↔
      sessionStrand.EachStep (fun r op _ => r.ReadsOutlastWrites op) {} ops := by
  have hstart : SessionStrand.Kept {} := SessionStrand.Open.kept ⟨rfl, rfl, rfl, rfl⟩
  have hfollows : sessionStrand.Follows (fun _ _ => True) {} ops := .of_forall fun _ _ _ => trivial
  exact Machine.always_iff_eachStep (J := SessionStrand.Kept)
    (fun r op r' u h _ hstep => h.step (sessionStrand_step.1 hstep))
    (fun r op r' u h hr _ hstep =>
      SessionStrand.disciplined_step_iff h hr (sessionStrand_step.1 hstep))
    hstart (hstart.disciplined_iff.2 fun message hmessage => by cases hmessage) hfollows

/-- The connection fails while a message is being written: when the write completes, `pop_front` is
applied to an empty queue. -/
theorem sendQueue_lost :
    ¬ (∀ ops, sessionStrand.Always SessionStrand.Disciplined {} ops) ∧
      ∃ r, sessionStrand.run {} [.accepted true, .enqueue "m", .readDone .failed] = some r ∧
        r.writes = ["m"] ∧ r.session.sendQueue = [] ∧ r.apply (.writeDone 0 true) = none := by
  have hrun : sessionStrand.run {} [.accepted true, .enqueue "m", .readDone .failed] =
      some ⟨⟨[], false, true⟩, false, false, ["m"], ["m"], ["m"], []⟩ := rfl
  refine ⟨fun h => ?_, _, hrun, rfl, rfl, rfl⟩
  have hfront := ((h _).of_run hrun).front "m" (by simp)
  cases hfront

end Guandan
