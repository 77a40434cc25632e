import Guandan.Library.Histories
import Guandan.Room.Room

/-!
# Timers

`timer_manager.cpp`, and the keys under which `message_dispatcher.cpp` keeps the timers of all rooms in one
table. Readings of the steady clock are in nanoseconds, each taken under the lock. What a tick calls is told
from the history alone: the timers whose time has come, which nothing has replaced or cancelled since and no
tick has called before.
-/

namespace Guandan

variable {γ : Type*}

structure TimerEntry (γ : Type*) where
  expireAt : Int
  callback : γ

/-- The table in the order in which it is gone through, which nothing is known about. -/
structure TimerManager (γ : Type*) where
  timers : List (String × TimerEntry γ) := []
  distinct : (timers.map Prod.fst).Nodup := by simp

namespace TimerManager

def cancel (m : TimerManager γ) (key : String) : TimerManager γ where
  timers := m.timers.filter fun t => t.1 != key
  distinct := m.distinct.sublist (List.filter_sublist.map _)

/-- `timers_[key] = entry`. -/
def schedule (m : TimerManager γ) (key : String) (seconds : Int) (callback : γ) (now : Int) :
    TimerManager γ where
  timers := (m.cancel key).timers ++ [(key, ⟨now + seconds * 1000000000, callback⟩)]
  distinct := by
    rw [List.map_append, List.map_singleton]
    refine List.nodup_append.2 ⟨(m.cancel key).distinct, List.nodup_singleton _, ?_⟩
    intro other hother k hk
    obtain ⟨t, ht, rfl⟩ := List.mem_map.1 hother
    rw [List.mem_singleton.1 hk]
    simpa using (List.mem_filter.1 ht).2

/-- The timers whose time has come. -/
def due (m : TimerManager γ) (now : Int) : List (String × TimerEntry γ) :=
  m.timers.filter fun t => t.2.expireAt ≤ now

/-- What is called once the lock is free again, and the table that is left. -/
def tick (m : TimerManager γ) (now : Int) : List γ × TimerManager γ :=
  ((m.due now).map (·.2.callback), {
    timers := m.timers.filter fun t => !(t.2.expireAt ≤ now)
    distinct := m.distinct.sublist (List.filter_sublist.map _) })

end TimerManager

/-! ### The timers of the rooms -/

inductive TimerKind
  | turn
  | tribute
  deriving DecidableEq, Repr

def timerKey : TimerKind → RoomId → String
  | .turn, roomId => "turn:" ++ roomId
  | .tribute, roomId => "tribute:" ++ roomId

theorem timerKey_inj {kind kind' : TimerKind} {roomId roomId' : RoomId} :
    timerKey kind roomId = timerKey kind' roomId' ↔ kind = kind' ∧ roomId = roomId' := by
  constructor
  · intro h
    have hlist := congrArg String.toList h
    cases kind with
    | turn =>
      cases kind' with
      | turn => simpa [timerKey] using h
      | tribute => simp [timerKey] at hlist
    | tribute =>
      cases kind' with
      | turn => simp [timerKey] at hlist
      | tribute => simpa [timerKey] using h
  · rintro ⟨rfl, rfl⟩
    rfl

/-- The calls of the dispatcher and of the main loop. -/
inductive TimerEvent (γ : Type*)
  | schedule (kind : TimerKind) (roomId : RoomId) (seconds : Int) (callback : γ) (now : Int)
  | cancel (kind : TimerKind) (roomId : RoomId)
  | tick (now : Int)

namespace TimerManager

def apply (m : TimerManager γ) : TimerEvent γ → TimerManager γ
  | .schedule kind roomId seconds callback now => m.schedule (timerKey kind roomId) seconds callback now
  | .cancel kind roomId => m.cancel (timerKey kind roomId)
  | .tick now => (m.tick now).2

/-- The table after a history that starts with an empty one. -/
def after (events : List (TimerEvent γ)) : TimerManager γ := events.foldl apply {}

end TimerManager

/-- Nothing is left of a timer of this kind and room that expires at this time: it is replaced, cancelled
or called. -/
def TimerEvent.Ends (kind : TimerKind) (roomId : RoomId) (expireAt : Int) : TimerEvent γ → Prop
  | .schedule kind' roomId' .. | .cancel kind' roomId' => kind' = kind ∧ roomId' = roomId
  | .tick now => expireAt ≤ now

/-- The timer was started, and nothing since has ended it. -/
def Running (events : List (TimerEvent γ)) (kind : TimerKind) (roomId : RoomId) (entry : TimerEntry γ) :
    Prop :=
  ∃ seconds now, entry.expireAt = now + seconds * 1000000000 ∧
    Histories.Since (fun event => ¬ event.Ends kind roomId entry.expireAt) events
      (.schedule kind roomId seconds entry.callback now)

section Runs

variable {m : TimerManager γ} {events : List (TimerEvent γ)} {event : TimerEvent γ} {kind : TimerKind}
  {roomId : RoomId} {entry : TimerEntry γ} {key : String} {now : Int}

theorem TimerManager.mem_cancel : (timerKey kind roomId, entry) ∈ (m.cancel key).timers ↔
    timerKey kind roomId ≠ key ∧ (timerKey kind roomId, entry) ∈ m.timers := by
  simp [cancel, and_comm]

/-- One more event either starts the timer or leaves it running. -/
theorem running_concat : Running (events ++ [event]) kind roomId entry ↔
    (∃ seconds now, entry.expireAt = now + seconds * 1000000000 ∧
      event = .schedule kind roomId seconds entry.callback now) ∨
    (¬ event.Ends kind roomId entry.expireAt ∧ Running events kind roomId entry) := by
  unfold Running
  constructor
  · rintro ⟨seconds, now, hexpires, hsince⟩
    rcases Histories.since_concat.1 hsince with heq | ⟨hends, hsince⟩
    · exact .inl ⟨seconds, now, hexpires, heq⟩
    · exact .inr ⟨hends, seconds, now, hexpires, hsince⟩
  · rintro (⟨seconds, now, hexpires, heq⟩ | ⟨hends, seconds, now, hexpires, hsince⟩)
    · exact ⟨seconds, now, hexpires, Histories.since_concat.2 (.inl heq)⟩
    · exact ⟨seconds, now, hexpires, Histories.since_concat.2 (.inr ⟨hends, hsince⟩)⟩

theorem TimerManager.mem_apply : (timerKey kind roomId, entry) ∈ (m.apply event).timers ↔
    (∃ seconds now, entry.expireAt = now + seconds * 1000000000 ∧
      event = .schedule kind roomId seconds entry.callback now) ∨
    (¬ event.Ends kind roomId entry.expireAt ∧ (timerKey kind roomId, entry) ∈ m.timers) := by
  cases event with
  | schedule kind' roomId' seconds callback now =>
    rw [apply, schedule, List.mem_append, mem_cancel, List.mem_singleton, Prod.mk.injEq, ne_eq, timerKey_inj]
    constructor
    · rintro (⟨hkey, hmem⟩ | ⟨⟨rfl, rfl⟩, rfl⟩)
      · exact .inr ⟨fun hends => hkey ⟨hends.1.symm, hends.2.symm⟩, hmem⟩
      · exact .inl ⟨seconds, now, rfl, rfl⟩
    · rintro (⟨seconds', now', hexpires, heq⟩ | ⟨hends, hmem⟩)
      · obtain ⟨rfl, rfl, rfl, rfl, rfl⟩ := TimerEvent.schedule.inj heq
        refine .inr ⟨⟨rfl, rfl⟩, ?_⟩
        rw [← hexpires]
      · exact .inl ⟨fun hkey => hends ⟨hkey.1.symm, hkey.2.symm⟩, hmem⟩
  | cancel kind' roomId' =>
    rw [apply, mem_cancel, ne_eq, timerKey_inj]
    constructor
    · rintro ⟨hkey, hmem⟩
      exact .inr ⟨fun hends => hkey ⟨hends.1.symm, hends.2.symm⟩, hmem⟩
    · rintro (⟨seconds, now, -, heq⟩ | ⟨hends, hmem⟩)
      · cases heq
      · exact ⟨fun hkey => hends ⟨hkey.1.symm, hkey.2.symm⟩, hmem⟩
  | tick now =>
    rw [apply, tick, List.mem_filter]
    constructor
    · rintro ⟨hmem, hlater⟩
      exact .inr ⟨by simpa [TimerEvent.Ends] using hlater, hmem⟩
    · rintro (⟨seconds, now', -, heq⟩ | ⟨hends, hmem⟩)
      · cases heq
      · exact ⟨hmem, by simpa [TimerEvent.Ends] using hends⟩

theorem TimerManager.mem_after :
    (timerKey kind roomId, entry) ∈ (after events).timers ↔ Running events kind roomId entry := by
  induction events using List.reverseRecOn with
  | nil =>
    refine iff_of_false (fun h => by cases h) ?_
    rintro ⟨seconds, now, -, before, rest, heq, -⟩
    simp at heq
  | append_singleton events event ih =>
    have hafter : after (events ++ [event]) = (after events).apply event := by simp [after]
    rw [hafter, mem_apply, running_concat, ih]

/-- No key of the table is anything but the key of a room's timer. -/
theorem TimerManager.keys_after :
    ∀ t ∈ (after events).timers, ∃ kind roomId, t.1 = timerKey kind roomId := by
  induction events using List.reverseRecOn with
  | nil => exact List.forall_mem_nil _
  | append_singleton events event ih =>
    have hafter : after (events ++ [event]) = (after events).apply event := by simp [after]
    rw [hafter]
    cases event with
    | schedule kind roomId seconds callback now =>
      refine List.forall_mem_append.2 ⟨fun t ht => ih t (List.mem_filter.1 ht).1, ?_⟩
      exact List.forall_mem_singleton.2 ⟨kind, roomId, rfl⟩
    | cancel kind roomId => exact fun t ht => ih t (List.mem_filter.1 ht).1
    | tick now => exact fun t ht => ih t (List.mem_filter.1 ht).1

/-- After any history, a tick calls back for each room and kind at most once, and does so exactly when that
timer is running and its time has come. -/
theorem tick_calls_iff (events : List (TimerEvent γ)) (now : Int) :
    ∃ due : List ((TimerKind × RoomId) × TimerEntry γ), (due.map Prod.fst).Nodup ∧
      ((TimerManager.after events).tick now).1 = due.map (·.2.callback) ∧
      ∀ kind roomId entry, ((kind, roomId), entry) ∈ due ↔
        Running events kind roomId entry ∧ entry.expireAt ≤ now := by
  have hkeys : ∀ t ∈ (TimerManager.after events).due now, ∃ kind roomId, t.1 = timerKey kind roomId :=
    fun t ht => TimerManager.keys_after t (List.mem_filter.1 ht).1
  have hdistinct : (((TimerManager.after events).due now).map Prod.fst).Nodup :=
    (TimerManager.after events).distinct.sublist (List.filter_sublist.map _)
  have hmem (kind : TimerKind) (roomId : RoomId) (entry : TimerEntry γ) :
      (timerKey kind roomId, entry) ∈ (TimerManager.after events).due now ↔
        Running events kind roomId entry ∧ entry.expireAt ≤ now := by
    rw [TimerManager.due, List.mem_filter, TimerManager.mem_after, decide_eq_true_eq]
  rw [TimerManager.tick]
  generalize (TimerManager.after events).due now = fired at hkeys hdistinct hmem
  -- each key is the key of one kind and room
  have hnamed : ∃ due : List ((TimerKind × RoomId) × TimerEntry γ),
      fired = due.map fun t => (timerKey t.1.1 t.1.2, t.2) := by
    clear hdistinct hmem
    induction fired with
    | nil => exact ⟨[], rfl⟩
    | cons t fired ih =>
      obtain ⟨⟨kind, roomId, hkey⟩, hrest⟩ := List.forall_mem_cons.1 hkeys
      obtain ⟨due, rfl⟩ := ih hrest
      exact ⟨((kind, roomId), t.2) :: due, by rw [List.map_cons, ← hkey]⟩
  obtain ⟨due, rfl⟩ := hnamed
  refine ⟨due, ?_, ?_, fun kind roomId entry => ?_⟩
  · rw [List.map_map] at hdistinct
    refine List.Nodup.of_map (fun k : TimerKind × RoomId => timerKey k.1 k.2) ?_
    rwa [List.map_map]
  · rw [List.map_map]
    rfl
  · rw [← hmem, List.mem_map]
    constructor
    · intro h
      exact ⟨_, h, rfl⟩
    · rintro ⟨⟨⟨kind', roomId'⟩, entry'⟩, h, heq⟩
      obtain ⟨hkey, rfl⟩ := Prod.mk.inj heq
      obtain ⟨rfl, rfl⟩ := timerKey_inj.1 hkey
      exact h

end Runs

end Guandan
