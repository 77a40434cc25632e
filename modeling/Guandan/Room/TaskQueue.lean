import Guandan.Library.Machine
import Mathlib.Data.Multiset.Count
import Mathlib.Data.Multiset.Filter

/-!
# The task queues of the rooms

`room_task_queue.cpp` over `room_executor.cpp`. Each section under a mutex is one step, and so is
the hand-over of a drain to the executor; the executor starts the drains it holds in any order.
Posters, workers and queues are any number, and a task may post while it runs. A task that throws
ends like one that returns.
-/

namespace Guandan

structure RoomTaskQueue (T : Type*) where
  tasks : List T := []
  drainScheduled : Bool := false

namespace RoomTaskQueue

variable {T : Type*}

/-- The section of `post`, with `needSchedule`. -/
def post (queue : RoomTaskQueue T) (task : T) : RoomTaskQueue T × Bool :=
  let queue := { queue with tasks := queue.tasks ++ [task] }
  if !queue.drainScheduled then ({ queue with drainScheduled := true }, true) else (queue, false)

/-- The section of `drain`: without a task the drain returns. -/
def pop (queue : RoomTaskQueue T) : Option T × RoomTaskQueue T :=
  match queue.tasks with
  | [] => (none, { queue with drainScheduled := false })
  | task :: tasks => (some task, { queue with tasks := tasks })

end RoomTaskQueue

structure Pool (Q T : Type*) where
  queues : Q → RoomTaskQueue T := fun _ => {}
  /-- The calls of `post` that have still to hand a drain to the executor. -/
  handing : List Q := []
  /-- The drains that the executor holds. -/
  executor : List Q := []
  /-- The drains that run, with the task each is in. -/
  draining : List (Q × Option T) := []

inductive PoolOp (Q T : Type*)
  | post (q : Q) (task : T)
  | handOver (k : Nat)
  | start (k : Nat)
  | drain (k : Nat)
  | finish (k : Nat) (throws : Bool)

inductive PoolOut (Q T : Type*)
  | posted (q : Q) (task : T)
  | handed (q : Q)
  | started (q : Q)
  | took (q : Q) (task : T)
  | returned (q : Q)
  | finished (q : Q) (task : T)

/-- The posters, the executor and its workers in any interleaving. -/
def pool (Q T : Type*) [DecidableEq Q] : Machine (Pool Q T) (PoolOp Q T) (PoolOut Q T) where
  step p
    | .post q task =>
      let (queue, needSchedule) := (p.queues q).post task
      some ({ p with
        queues := Function.update p.queues q queue
        handing := if needSchedule then p.handing ++ [q] else p.handing }, .posted q task)
    | .handOver k => p.handing[k]?.map fun q =>
      ({ p with handing := p.handing.eraseIdx k, executor := p.executor ++ [q] }, .handed q)
    | .start k => p.executor[k]?.map fun q =>
      ({ p with executor := p.executor.eraseIdx k, draining := p.draining ++ [(q, none)] },
        .started q)
    | .drain k => p.draining[k]?.bind fun
      | (_, some _) => none
      | (q, none) => match (p.queues q).pop with
        | (none, queue) => some ({ p with
            queues := Function.update p.queues q queue
            draining := p.draining.eraseIdx k }, .returned q)
        | (some task, queue) => some ({ p with
            queues := Function.update p.queues q queue
            draining := p.draining.set k (q, some task) }, .took q task)
    | .finish k _ => p.draining[k]?.bind fun
      | (_, none) => none
      | (q, some task) =>
        some ({ p with draining := p.draining.set k (q, none) }, .finished q task)

/-- The tasks of each queue in the order in which they were posted, and in which they ended. -/
structure PoolLog (Q T : Type*) where
  posted : Q → List T := fun _ => []
  finished : Q → List T := fun _ => []

namespace PoolLog

variable {Q T : Type*} [DecidableEq Q]

def record (log : PoolLog Q T) (_ : Pool Q T) (_ : PoolOp Q T) (out : PoolOut Q T) (_ : Pool Q T) :
    PoolLog Q T :=
  match out with
  | .posted q task => { log with posted := Function.update log.posted q (log.posted q ++ [task]) }
  | .finished q task =>
    { log with finished := Function.update log.finished q (log.finished q ++ [task]) }
  | _ => log

end PoolLog

abbrev loggedPool (Q T : Type*) [DecidableEq Q] :
    Machine (Pool Q T × PoolLog Q T) (PoolOp Q T) (PoolOut Q T) :=
  (pool Q T).withHistory PoolLog.record

/-! ### One queue among the others -/

/-- What concerns one queue: its drains on their way, the tasks its drains are in, and itself. -/
@[ext]
structure Lane (T : Type*) where
  handing : Nat
  waiting : Nat
  idle : Nat
  busy : Multiset T
  queue : RoomTaskQueue T

section Lanes

variable {Q T : Type*}

def PoolOut.queue : PoolOut Q T → Q
  | .posted q _ | .handed q | .started q | .took q _ | .returned q | .finished q _ => q

/-- A step that brings the tasks of the queue nearer to their end. -/
def PoolOut.advances [DecidableEq Q] (q : Q) : PoolOut Q T → Bool
  | .posted _ _ => false
  | out => decide (out.queue = q)

/-- The steps as one queue sees them. -/
inductive LaneStep (q : Q) : PoolOut Q T → Lane T → Lane T → Prop
  | elsewhere {out : PoolOut Q T} (l : Lane T) (hout : out.queue ≠ q) : LaneStep q out l l
  | posted (l : Lane T) (task : T) : LaneStep q (.posted q task) l
      { l with
        handing := if (l.queue.post task).2 then l.handing + 1 else l.handing
        queue := (l.queue.post task).1 }
  | handed (l : Lane T) :
      LaneStep q (.handed q) { l with handing := l.handing + 1 } { l with waiting := l.waiting + 1 }
  | started (l : Lane T) :
      LaneStep q (.started q) { l with waiting := l.waiting + 1 } { l with idle := l.idle + 1 }
  | took (l : Lane T) {task : T} {queue : RoomTaskQueue T}
      (hpop : l.queue.pop = (some task, queue)) : LaneStep q (.took q task)
        { l with idle := l.idle + 1 } { l with busy := task ::ₘ l.busy, queue := queue }
  | returned (l : Lane T) {queue : RoomTaskQueue T} (hpop : l.queue.pop = (none, queue)) :
      LaneStep q (.returned q) { l with idle := l.idle + 1 } { l with queue := queue }
  | finished (l : Lane T) (task : T) : LaneStep q (.finished q task)
      { l with busy := task ::ₘ l.busy } { l with idle := l.idle + 1 }

variable [DecidableEq Q]

/-- The task of a drain of the queue. -/
def taskOf (q : Q) (d : Q × Option T) : Option T := if d.1 = q then d.2 else none

def Pool.lane (p : Pool Q T) (q : Q) : Lane T where
  handing := (p.handing : Multiset Q).count q
  waiting := (p.executor : Multiset Q).count q
  idle := (p.draining : Multiset (Q × Option T)).countP fun d => d.1 = q ∧ d.2.isNone
  busy := (p.draining : Multiset (Q × Option T)).filterMap (taskOf q)
  queue := p.queues q

theorem coe_eraseIdx {α : Type*} {l : List α} {k : Nat} {a : α} (h : l[k]? = some a) :
    (l : Multiset α) = a ::ₘ (l.eraseIdx k : List α) := by
  obtain ⟨hk, rfl⟩ := List.getElem?_eq_some_iff.1 h
  exact Multiset.coe_eq_coe.2 (List.getElem_cons_eraseIdx_perm hk).symm

theorem coe_set {α : Type*} {l : List α} {k : Nat} {a b : α} (h : l[k]? = some a) :
    ((l.set k b : List α) : Multiset α) = b ::ₘ (l.eraseIdx k : List α) := by
  obtain ⟨hk, -⟩ := List.getElem?_eq_some_iff.1 h
  exact Multiset.coe_eq_coe.2 (List.set_perm_cons_eraseIdx hk b)

theorem coe_concat {α : Type*} (l : List α) (a : α) :
    ((l ++ [a] : List α) : Multiset α) = a ::ₘ (l : Multiset α) :=
  Multiset.coe_eq_coe.2 (List.perm_append_singleton a l)

theorem taskOf_self (q : Q) (task : Option T) : taskOf q (q, task) = task := if_pos rfl

theorem taskOf_of_ne {q q' : Q} (h : q' ≠ q) (task : Option T) : taskOf q (q', task) = none :=
  if_neg h

/-- Every step of the pool is a step of each lane. -/
theorem lane_step {p p' : Pool Q T} {op : PoolOp Q T} {out : PoolOut Q T}
    (h : (pool Q T).step p op = some (p', out)) (q : Q) : LaneStep q out (p.lane q) (p'.lane q) := by
  have helsewhere : out.queue ≠ q → p'.lane q = p.lane q → LaneStep q out (p.lane q) (p'.lane q) := by
    intro hout hsame
    rw [hsame]
    exact .elsewhere _ hout
  simp only [pool] at h
  cases op with
  | post q' task =>
    rcases hpost : (p.queues q').post task with ⟨queue, need⟩
    simp only [hpost] at h
    cases h
    by_cases hq : q' = q
    · subst hq
      have hstep := LaneStep.posted (q := q') (p.lane q') task
      simp only [Pool.lane, hpost] at hstep
      rcases need with _ | _
      · simpa [Pool.lane] using hstep
      · simpa [Pool.lane, coe_concat] using hstep
    · refine helsewhere hq ?_
      rcases need with _ | _
      · simp [Pool.lane, Ne.symm hq]
      · simp [Pool.lane, coe_concat, Ne.symm hq, List.count_cons_of_ne hq]
  | handOver k =>
    obtain ⟨q', hk, heq⟩ := Option.map_eq_some_iff.1 h
    cases heq
    by_cases hq : q' = q
    · subst hq
      have hstep := LaneStep.handed (q := q')
        { p.lane q' with handing := ((p.handing.eraseIdx k : List Q) : Multiset Q).count q' }
      simpa only [Pool.lane, coe_eraseIdx hk, coe_concat, Multiset.count_cons_self] using hstep
    · refine helsewhere hq ?_
      simp only [Pool.lane, coe_eraseIdx hk, coe_concat, Multiset.count_cons_of_ne (Ne.symm hq)]
  | start k =>
    obtain ⟨q', hk, heq⟩ := Option.map_eq_some_iff.1 h
    cases heq
    by_cases hq : q' = q
    · subst hq
      have hstep := LaneStep.started (q := q')
        { p.lane q' with waiting := ((p.executor.eraseIdx k : List Q) : Multiset Q).count q' }
      simpa [Pool.lane, coe_eraseIdx hk, coe_concat, taskOf_self] using hstep
    · refine helsewhere hq ?_
      simp [Pool.lane, coe_eraseIdx hk, coe_concat, hq, taskOf_of_ne hq]
  | drain k =>
    obtain ⟨⟨q', task⟩, hk, hdrain⟩ := Option.bind_eq_some_iff.1 h
    rcases task with _ | task
    · have hdraining := coe_eraseIdx hk
      rcases hpop : (p.queues q').pop with ⟨_ | task, queue⟩
      · simp only [hpop] at hdrain
        cases hdrain
        by_cases hq : q' = q
        · subst hq
          have hstep := @LaneStep.returned _ _ q'
            { Pool.lane { p with draining := p.draining.eraseIdx k } q' with queue := p.queues q' } queue hpop
          simpa [Pool.lane, hdraining, taskOf_self] using hstep
        · refine helsewhere hq ?_
          simp [Pool.lane, hdraining, Ne.symm hq, hq, taskOf_of_ne hq]
      · simp only [hpop] at hdrain
        cases hdrain
        by_cases hq : q' = q
        · subst hq
          have hstep := @LaneStep.took _ _ q'
            { Pool.lane { p with draining := p.draining.eraseIdx k } q' with queue := p.queues q' } task queue
            hpop
          simpa [Pool.lane, hdraining, coe_set hk, taskOf_self] using hstep
        · refine helsewhere hq ?_
          simp [Pool.lane, hdraining, coe_set hk, Ne.symm hq, hq, taskOf_of_ne hq]
    · cases hdrain
  | finish k throws =>
    obtain ⟨⟨q', task⟩, hk, hfinish⟩ := Option.bind_eq_some_iff.1 h
    rcases task with _ | task
    · cases hfinish
    · cases hfinish
      have hdraining := coe_eraseIdx hk
      by_cases hq : q' = q
      · subst hq
        have hstep := LaneStep.finished (q := q')
          (Pool.lane { p with draining := p.draining.eraseIdx k } q') task
        simpa [Pool.lane, hdraining, coe_set hk, taskOf_self] using hstep
      · refine helsewhere hq ?_
        simp [Pool.lane, hdraining, coe_set hk, hq, taskOf_of_ne hq]

end Lanes

/-! ### A lane is serial -/

namespace Lane

variable {Q T : Type*} {q : Q} {l l' : Lane T} {posted finished : List T} {out : PoolOut Q T}

/-- The drains of a queue, scheduled or running. -/
def drains (l : Lane T) : Nat := l.handing + l.waiting + l.idle + l.busy.card

/-- There is one drain exactly when the flag is set, the flag is set whenever tasks wait, and the
tasks posted are those that ended, the one in hand and those that wait, in this order. -/
structure Serial (l : Lane T) (posted finished : List T) : Prop where
  drains : l.drains = if l.queue.drainScheduled then 1 else 0
  scheduled : l.queue.tasks ≠ [] → l.queue.drainScheduled = true
  inOrder : ∃ inHand : List T, l.busy = inHand ∧ posted = finished ++ inHand ++ l.queue.tasks

/-- A drain that runs is the only one. -/
theorem Serial.idle_one (h : Serial { l with idle := l.idle + 1 } posted finished) :
    l.queue.drainScheduled = true ∧ l.handing = 0 ∧ l.waiting = 0 ∧ l.idle = 0 ∧ l.busy = 0 := by
  have hdrains := h.drains
  simp only [Lane.drains] at hdrains
  rcases hflag : l.queue.drainScheduled with _ | _
  · simp only [hflag] at hdrains
    simp at hdrains
  · simp only [hflag, if_true] at hdrains
    refine ⟨rfl, by omega, by omega, by omega, Multiset.card_eq_zero.1 (by omega)⟩

/-- What a step adds to the tasks posted and ended. -/
def logs [DecidableEq Q] (q : Q) (out : PoolOut Q T) (posted finished : List T) : List T × List T :=
  match out with
  | .posted q' task => if q' = q then (posted ++ [task], finished) else (posted, finished)
  | .finished q' task => if q' = q then (posted, finished ++ [task]) else (posted, finished)
  | _ => (posted, finished)

theorem Serial.step [DecidableEq Q] (h : Serial l posted finished) (hstep : LaneStep q out l l') :
    Serial l' (logs q out posted finished).1 (logs q out posted finished).2 := by
  obtain ⟨hdrains, hscheduled, inHand, hbusy, hposted⟩ := id h
  cases hstep with
  | elsewhere l hout =>
    have hlogs : logs q out posted finished = (posted, finished) := by
      cases out <;> first | rfl | exact if_neg hout
    rw [hlogs]
    exact h
  | posted l task =>
    rw [logs, if_pos rfl]
    unfold RoomTaskQueue.post
    rcases hflag : l.queue.drainScheduled with _ | _
    · rw [hflag] at hdrains
      simp only [Lane.drains] at hdrains
      refine ⟨?_, fun _ => rfl, inHand, hbusy, ?_⟩
      · simp [Lane.drains]
        simp at hdrains
        simp [hdrains]
      · simp [hposted]
    · refine ⟨?_, fun _ => rfl, inHand, hbusy, ?_⟩
      · simp only [Lane.drains] at hdrains ⊢
        simp [hdrains, hflag]
      · simp [hposted]
  | handed l =>
    refine ⟨?_, hscheduled, inHand, hbusy, hposted⟩
    rw [← hdrains]
    simp only [Lane.drains]
    omega
  | started l =>
    refine ⟨?_, hscheduled, inHand, hbusy, hposted⟩
    rw [← hdrains]
    simp only [Lane.drains]
    omega
  | took l hpop =>
    rename_i task queue
    obtain ⟨hflag, hhanding, hwaiting, hidle, hnone⟩ := h.idle_one
    unfold RoomTaskQueue.pop at hpop
    rcases htasks : l.queue.tasks with _ | ⟨first, rest⟩
    · rw [htasks] at hpop
      cases hpop
    · rw [htasks] at hpop
      cases hpop
      refine ⟨?_, fun _ => hflag, [task], ?_, ?_⟩
      · simp [Lane.drains, hflag, hhanding, hwaiting, hidle, hnone]
      · simp [hnone]
      · have hempty : inHand = [] := by
          rw [hnone] at hbusy
          exact (Multiset.coe_eq_zero _).1 hbusy.symm
        simp [logs, hposted, hempty, htasks]
  | returned l hpop =>
    rename_i queue
    obtain ⟨hflag, hhanding, hwaiting, hidle, hnone⟩ := h.idle_one
    unfold RoomTaskQueue.pop at hpop
    rcases htasks : l.queue.tasks with _ | ⟨first, rest⟩
    · rw [htasks] at hpop
      cases hpop
      refine ⟨?_, fun hne => absurd rfl hne, inHand, hbusy, ?_⟩
      · simp [Lane.drains, hhanding, hwaiting, hidle, hnone]
      · simpa [logs, htasks] using hposted
    · rw [htasks] at hpop
      cases hpop
  | finished l task =>
    rw [logs, if_pos rfl]
    have hcard : inHand.length = 1 ∧ l.busy = 0 := by
      have hlength := congrArg Multiset.card hbusy
      rw [Multiset.coe_card, Multiset.card_cons] at hlength
      simp only [Lane.drains, Multiset.card_cons] at hdrains
      refine ⟨?_, Multiset.card_eq_zero.1 ?_⟩
      · split_ifs at hdrains
        omega
      · split_ifs at hdrains
        omega
    obtain ⟨first, rfl⟩ := List.length_eq_one_iff.1 hcard.1
    have hfirst : task = first := by
      rw [hcard.2] at hbusy
      exact Multiset.singleton_inj.1 hbusy
    refine ⟨?_, hscheduled, [], by rw [hcard.2]; rfl, ?_⟩
    · rw [← hdrains]
      simp only [Lane.drains, Multiset.card_cons]
      omega
    · simp [hposted, hfirst]

/-- The steps of a queue that are still to come until its first `n + 1` tasks have ended. -/
def ahead (l : Lane T) (finished : List T) (n : Nat) : Nat :=
  2 * (n + 1 - (finished.length + l.busy.card)) + 2 * l.handing + l.waiting + l.busy.card

/-- Nothing sets a task back, and each step of its own queue brings it nearer to its end. -/
theorem Serial.ahead_step [DecidableEq Q] (h : Serial l posted finished)
    (hstep : LaneStep q out l l') {n : Nat} (hn : n < posted.length) (hlate : finished.length ≤ n) :
    n < (logs q out posted finished).2.length ∨
      ahead l' (logs q out posted finished).2 n + (if out.advances q then 1 else 0) ≤
        ahead l finished n := by
  obtain ⟨hdrains, hscheduled, inHand, hbusy, hposted⟩ := id h
  have hcard : l.busy.card = inHand.length := by rw [hbusy, Multiset.coe_card]
  have hlength : posted.length = finished.length + inHand.length + l.queue.tasks.length := by
    rw [hposted, List.length_append, List.length_append]
  -- while the task has not ended, a drain is on its way to it
  have hflag : l.queue.drainScheduled = true := by
    by_contra hflag
    have hempty : l.queue.tasks = [] := by
      by_contra hne
      exact hflag (hscheduled hne)
    rw [if_neg hflag, Lane.drains] at hdrains
    rw [hempty, List.length_nil] at hlength
    omega
  rw [if_pos hflag, Lane.drains] at hdrains
  right
  cases hstep with
  | elsewhere l hout =>
    have hlogs : logs q out posted finished = (posted, finished) := by
      cases out <;> first | rfl | exact if_neg hout
    have hadvances : out.advances q = false := by
      cases out <;> first | rfl | exact decide_eq_false hout
    simp [hlogs, hadvances]
  | posted l task =>
    have hpost : (l.queue.post task).2 = false := by
      simp [RoomTaskQueue.post, hflag]
    simp [logs, PoolOut.advances, ahead, hpost]
  | handed l =>
    simp only [logs, PoolOut.advances, PoolOut.queue, ahead, decide_true, if_true]
    omega
  | started l =>
    simp only [logs, PoolOut.advances, PoolOut.queue, ahead, decide_true, if_true]
    omega
  | took l hpop =>
    simp only [logs, PoolOut.advances, PoolOut.queue, ahead, decide_true, if_true,
      Multiset.card_cons]
    simp only at hdrains
    omega
  | returned l hpop =>
    rcases htasks : l.queue.tasks with _ | ⟨first, rest⟩
    · rw [htasks, List.length_nil] at hlength
      simp only at hdrains hcard
      omega
    · rw [RoomTaskQueue.pop, htasks] at hpop
      cases hpop
  | finished l task =>
    simp only [logs, if_true, PoolOut.advances, PoolOut.queue, ahead, decide_true,
      List.length_append, List.length_singleton, Multiset.card_cons]
    omega

/-- Until a task has ended its queue can go on. -/
theorem Serial.drains_pos (h : Serial l posted finished) {n : Nat} (hn : n < posted.length)
    (hlate : finished.length ≤ n) : 0 < l.drains := by
  obtain ⟨hdrains, hscheduled, inHand, hbusy, hposted⟩ := h
  by_cases hempty : l.queue.tasks = []
  · have hlength := congrArg List.length hposted
    rw [hempty, List.append_nil, List.length_append] at hlength
    have hcard : l.busy.card = inHand.length := by rw [hbusy, Multiset.coe_card]
    unfold Lane.drains
    omega
  · rw [hdrains, if_pos (hscheduled hempty)]
    exact Nat.one_pos

end Lane

/-! ### Every queue of the pool -/

namespace Pool

variable {Q T : Type*} [DecidableEq Q]

/-- The drains of a queue that a poster or the executor holds or that run. -/
def drains (p : Pool Q T) (q : Q) : Nat :=
  p.handing.count q + p.executor.count q + p.draining.countP fun d => d.1 = q

/-- The tasks of a queue that are being run. -/
def inHand (p : Pool Q T) (q : Q) : List T := p.draining.filterMap (taskOf q)

theorem lane_drains (p : Pool Q T) (q : Q) : (p.lane q).drains = p.drains q := by
  have hsplit : ∀ l : List (Q × Option T),
      (l.countP fun d => d.1 = q ∧ d.2.isNone) + (l.filterMap (taskOf q)).length =
        l.countP fun d => d.1 = q := by
    intro l
    induction l with
    | nil => rfl
    | cons d l ih =>
      obtain ⟨q', task⟩ := d
      by_cases hq : q' = q
      · subst hq
        rcases task with _ | task
        · simp [taskOf_self, ← ih]
          omega
        · simp [taskOf_self, ← ih]
          omega
      · simp [taskOf_of_ne hq, hq, ← ih]
  rw [drains, ← hsplit, Lane.drains]
  simp only [lane, Multiset.coe_count, Multiset.coe_countP, Multiset.filterMap_coe,
    Multiset.coe_card]
  omega

/-- A queue with a drain can go on. -/
theorem can_advance {p : Pool Q T} {q : Q} (h : 0 < (p.lane q).drains) :
    ∃ op r, (pool Q T).step p op = some r ∧ r.2.advances q = true := by
  unfold Lane.drains at h
  by_cases hhanding : 0 < (p.lane q).handing
  · have hcount : 0 < (p.handing : Multiset Q).count q := hhanding
    obtain ⟨k, hk⟩ := List.mem_iff_getElem?.1 (Multiset.count_pos.1 hcount)
    exact ⟨.handOver k, _, Option.map_eq_some_iff.2 ⟨q, hk, rfl⟩, decide_eq_true rfl⟩
  by_cases hwaiting : 0 < (p.lane q).waiting
  · have hcount : 0 < (p.executor : Multiset Q).count q := hwaiting
    obtain ⟨k, hk⟩ := List.mem_iff_getElem?.1 (Multiset.count_pos.1 hcount)
    exact ⟨.start k, _, Option.map_eq_some_iff.2 ⟨q, hk, rfl⟩, decide_eq_true rfl⟩
  by_cases hidle : 0 < (p.lane q).idle
  · have hcount : 0 < (p.draining : Multiset (Q × Option T)).countP fun d =>
        d.1 = q ∧ d.2.isNone := hidle
    obtain ⟨⟨q', task⟩, hmem, rfl, hnone⟩ := Multiset.countP_pos.1 hcount
    obtain rfl : task = none := Option.isNone_iff_eq_none.1 hnone
    obtain ⟨k, hk⟩ := List.mem_iff_getElem?.1 hmem
    rcases hpop : (p.queues q').pop with ⟨_ | task, queue⟩
    · refine ⟨.drain k, ({ p with
        queues := Function.update p.queues q' queue
        draining := p.draining.eraseIdx k }, .returned q'), ?_, decide_eq_true rfl⟩
      simp [pool, hk, hpop]
    · refine ⟨.drain k, ({ p with
        queues := Function.update p.queues q' queue
        draining := p.draining.set k (q', some task) }, .took q' task), ?_, decide_eq_true rfl⟩
      simp [pool, hk, hpop]
  · obtain ⟨task, htask⟩ := Multiset.card_pos_iff_exists_mem.1
      (show 0 < (p.lane q).busy.card by omega)
    have hbusy : task ∈ (p.draining : Multiset (Q × Option T)).filterMap (taskOf q) := htask
    obtain ⟨⟨q', task'⟩, hmem, heq⟩ := (Multiset.mem_filterMap _ _).1 hbusy
    unfold taskOf at heq
    split_ifs at heq with hq
    obtain rfl : q' = q := hq
    obtain rfl : task' = some task := heq
    obtain ⟨k, hk⟩ := List.mem_iff_getElem?.1 hmem
    exact ⟨.finish k false, _, Option.bind_eq_some_iff.2 ⟨_, hk, rfl⟩, decide_eq_true rfl⟩

end Pool

/-- At most one drain of the queue is scheduled or runs, and one does while tasks wait; the tasks
are run one at a time and in the order in which they were posted. -/
structure SerialFifo {Q T : Type*} [DecidableEq Q] (x : Pool Q T × PoolLog Q T) (q : Q) : Prop where
  oneDrain : x.1.drains q ≤ 1
  noLostWakeup : (x.1.queues q).tasks ≠ [] → x.1.drains q = 1
  oneAtATime : (x.1.inHand q).length ≤ 1
  inOrder : x.2.posted q = x.2.finished q ++ x.1.inHand q ++ (x.1.queues q).tasks

/-- While a posted task has not ended its queue can go on, and after so many steps of the queue the
task has ended, in its place, whatever is posted or done elsewhere in between. -/
def EveryTaskEnds {Q T : Type*} [DecidableEq Q] (x : Pool Q T × PoolLog Q T) (q : Q) : Prop :=
  ∀ n < (x.2.posted q).length,
    ((x.2.finished q).length ≤ n →
      ∃ op x' out, (loggedPool Q T).step x op = some (x', out) ∧ out.advances q = true) ∧
    ∃ k, ∀ ops x', (loggedPool Q T).run x ops = some x' →
      k ≤ ((loggedPool Q T).outputs x ops).countP (PoolOut.advances q) →
        (x'.2.finished q)[n]? = (x.2.posted q)[n]?

section Runs

variable {Q T : Type*} [DecidableEq Q] {x x' : Pool Q T × PoolLog Q T} {op : PoolOp Q T}
  {ops : List (PoolOp Q T)} {out : PoolOut Q T} {q : Q}

theorem record_logs (log : PoolLog Q T) (p p' : Pool Q T) (op : PoolOp Q T) (out : PoolOut Q T)
    (q : Q) : Lane.logs q out (log.posted q) (log.finished q) =
      ((log.record p op out p').posted q, (log.record p op out p').finished q) := by
  cases out with
  | posted q' task =>
    by_cases hq : q' = q
    · subst hq
      simp [Lane.logs, PoolLog.record]
    · simp [Lane.logs, PoolLog.record, hq, Ne.symm hq]
  | finished q' task =>
    by_cases hq : q' = q
    · subst hq
      simp [Lane.logs, PoolLog.record]
    · simp [Lane.logs, PoolLog.record, hq, Ne.symm hq]
  | _ => rfl

/-- The lane of a queue with its logs. -/
def SerialLane (q : Q) (x : Pool Q T × PoolLog Q T) : Prop :=
  (x.1.lane q).Serial (x.2.posted q) (x.2.finished q)

theorem serialLane_step (h : SerialLane q x) (hstep : (loggedPool Q T).step x op = some (x', out)) :
    SerialLane q x' := by
  obtain ⟨hpool, hlog⟩ := Machine.withHistory_step.1 hstep
  have hserial := h.step (lane_step hpool q)
  rw [record_logs x.2 x.1 x'.1 op, ← hlog] at hserial
  exact hserial

theorem serialLane_init : SerialLane q (({}, {}) : Pool Q T × PoolLog Q T) := by
  refine ⟨?_, fun hne => absurd rfl hne, [], ?_, rfl⟩
  · simp [Pool.lane, Lane.drains]
  · simp [Pool.lane]

theorem SerialLane.serialFifo (h : SerialLane q x) : SerialFifo x q := by
  obtain ⟨hdrains, hscheduled, inHand, hbusy, hposted⟩ := h
  have hone : x.1.drains q ≤ 1 := by
    rw [← Pool.lane_drains, hdrains]
    split_ifs <;> decide
  have hperm : (x.1.inHand q).Perm inHand := Multiset.coe_eq_coe.1 hbusy
  have hlength : (x.1.inHand q).length ≤ 1 := by
    refine le_trans ?_ hone
    rw [← Pool.lane_drains, Lane.drains]
    exact Nat.le_add_left ..
  have hsame : x.1.inHand q = inHand := by
    rcases hcase : x.1.inHand q with _ | ⟨task, rest⟩
    · rw [hcase] at hperm
      exact hperm.nil_eq
    · rw [hcase, List.length_cons] at hlength
      obtain rfl : rest = [] := List.length_eq_zero_iff.1 (by omega)
      rw [hcase] at hperm
      exact (List.singleton_perm.1 hperm)
  refine ⟨hone, fun hne => ?_, hlength, by rw [hsame]; exact hposted⟩
  rw [← Pool.lane_drains, hdrains, if_pos (hscheduled hne)]

/-- What has been posted or has ended stays so. -/
theorem logs_grow (hstep : (loggedPool Q T).step x op = some (x', out)) (q : Q) :
    x.2.posted q <+: x'.2.posted q ∧ x.2.finished q <+: x'.2.finished q := by
  obtain ⟨-, hlog⟩ := Machine.withHistory_step.1 hstep
  have hlogs := record_logs x.2 x.1 x'.1 op out q
  rw [← hlog] at hlogs
  obtain ⟨hposted, hfinished⟩ := Prod.mk.inj hlogs.symm
  rw [hposted, hfinished]
  cases out with
  | posted q' task =>
    dsimp only
    split_ifs
    · exact ⟨List.prefix_append .., List.prefix_rfl⟩
    · exact ⟨List.prefix_rfl, List.prefix_rfl⟩
  | finished q' task =>
    dsimp only
    split_ifs
    · exact ⟨List.prefix_rfl, List.prefix_append ..⟩
    · exact ⟨List.prefix_rfl, List.prefix_rfl⟩
  | _ => exact ⟨List.prefix_rfl, List.prefix_rfl⟩

/-- After as many steps of its queue as are ahead, a task has ended. -/
theorem ended_of_run (h : SerialLane q x) {n : Nat} (hn : n < (x.2.posted q).length)
    (hrun : (loggedPool Q T).run x ops = some x')
    (hsteps : n < (x.2.finished q).length ∨ (x.1.lane q).ahead (x.2.finished q) n ≤
      ((loggedPool Q T).outputs x ops).countP (PoolOut.advances q)) :
    n < (x'.2.finished q).length ∧ x.2.posted q <+: x'.2.posted q ∧ SerialLane q x' := by
  induction ops generalizing x with
  | nil =>
    cases hrun
    refine ⟨?_, List.prefix_rfl, h⟩
    rcases hsteps with hended | hnone
    · exact hended
    · simp only [Machine.outputs, List.countP_nil, Lane.ahead] at hnone
      omega
  | cons op ops ih =>
    obtain ⟨⟨x₁, out⟩, hstep, hrun⟩ := Option.bind_eq_some_iff.1 hrun
    rw [Machine.outputs_cons hstep, List.countP_cons] at hsteps
    obtain ⟨hposted, hfinished⟩ := logs_grow hstep q
    obtain ⟨hended, hprefix, hlane⟩ := ih (serialLane_step h hstep)
      (Nat.lt_of_lt_of_le hn hposted.length_le) hrun (by
        rcases hsteps with hended | hsteps
        · exact .inl (Nat.lt_of_lt_of_le hended hfinished.length_le)
        · by_cases hlate : (x.2.finished q).length ≤ n
          · obtain ⟨hpool, hlog⟩ := Machine.withHistory_step.1 hstep
            have hahead := Lane.Serial.ahead_step h (lane_step hpool q) hn hlate
            rw [record_logs x.2 x.1 x₁.1 op, ← hlog] at hahead
            dsimp only at hahead
            exact hahead.imp_right fun hle => by omega
          · exact .inl (Nat.lt_of_lt_of_le (not_le.1 hlate) hfinished.length_le))
    exact ⟨hended, hposted.trans hprefix, hlane⟩

theorem SerialLane.everyTaskEnds (h : SerialLane q x) : EveryTaskEnds x q := by
  refine fun n hn => ⟨fun hlate => ?_, (x.1.lane q).ahead (x.2.finished q) n,
    fun ops x' hrun hsteps => ?_⟩
  · obtain ⟨op, ⟨p', out⟩, hstep, hadvances⟩ :=
      Pool.can_advance (Lane.Serial.drains_pos h hn hlate)
    exact ⟨op, (p', x.2.record x.1 op out p'), out, Machine.withHistory_step.2 ⟨hstep, rfl⟩,
      hadvances⟩
  · obtain ⟨hended, hposted, hlane⟩ := ended_of_run h hn hrun (.inr hsteps)
    have horder := hlane.serialFifo.inOrder
    have hfinished : x'.2.finished q <+: x'.2.posted q := by
      rw [horder, List.append_assoc]
      exact List.prefix_append ..
    rw [← List.prefix_iff_getElem?.1 hfinished n hended |>.trans (List.getElem?_eq_getElem hended).symm,
      List.prefix_iff_getElem?.1 hposted n hn, List.getElem?_eq_getElem hn]

end Runs

/-- In every state of every interleaving each queue runs its tasks one at a time and in order, and
every task that is posted ends. -/
theorem taskQueue_serial {Q T : Type*} [DecidableEq Q] {x : Pool Q T × PoolLog Q T}
    (h : (loggedPool Q T).Reachable (fun _ _ => True) ({}, {}) x) (q : Q) :
    SerialFifo x q ∧ EveryTaskEnds x q := by
  have hlane : SerialLane q x :=
    h.invariant serialLane_init fun _ _ _ _ hlane _ hstep => serialLane_step hlane hstep
  exact ⟨hlane.serialFifo, hlane.everyTaskEnds⟩

/-- Task 7 is posted twice and throws the first time; 8 comes in while it runs. -/
def throwingTask : List (PoolOp Nat Nat) :=
  [.post 0 7, .handOver 0, .start 0, .drain 0, .post 0 8, .finish 0 true, .post 0 7, .drain 0]

theorem taskQueue_serial_throwingTask : ∃ x, (loggedPool Nat Nat).run ({}, {}) throwingTask = some x ∧
    x.2.finished 0 = [7] ∧ x.1.inHand 0 = [8] ∧ SerialFifo x 0 ∧ EveryTaskEnds x 0 := by
  obtain ⟨x, hrun, hfinished, hinHand⟩ := Machine.exists_run_of_any (M := loggedPool Nat Nat)
    (s := ({}, {})) (l := throwingTask)
    (P := fun x => x.2.finished 0 = [7] ∧ x.1.inHand 0 = [8]) (by decide +kernel)
  have hreach : (loggedPool Nat Nat).Reachable (fun _ _ => True) ({}, {}) x :=
    Machine.reachable_of_run (Machine.Follows.of_forall fun _ _ _ => trivial) hrun
  exact ⟨x, hrun, hfinished, hinHand, taskQueue_serial hreach 0⟩

end Guandan
