import Mathlib.Data.List.Basic
import Mathlib.Tactic.TypeStar

/-!
# A copy that follows messages

A receiver applies messages in the order in which they were sent. Some messages renew what it has, the
others only bring it up to date. `AtLast` is a property of the messages from the last renewing one on:
what is said of a copy that is still on its way is said of these.
-/

namespace Replica

variable {C M : Type*}

/-- The copy once all messages have arrived. -/
def deliver (receive : C → M → C) (c : C) (ms : List M) : C := ms.foldl receive c

section Deliver

variable {receive : C → M → C} {c c' : C} {m : M} {ms ms' : List M}

@[simp] theorem deliver_nil : deliver receive c [] = c := rfl

@[simp] theorem deliver_cons : deliver receive c (m :: ms) = deliver receive (receive c m) ms := rfl

@[simp] theorem deliver_append :
    deliver receive c (ms ++ ms') = deliver receive (deliver receive c ms) ms' :=
  List.foldl_append

/-- What every message of a list keeps, the list keeps. -/
theorem deliver_keeps {P : C → Prop} (hP : P c) (hkeep : ∀ c, P c → ∀ m ∈ ms, P (receive c m)) :
    P (deliver receive c ms) := by
  induction ms generalizing c with
  | nil => exact hP
  | cons m ms ih =>
    refine ih (hkeep c hP m (List.mem_cons_self ..)) fun c hc m' hm' => ?_
    exact hkeep c hc m' (List.mem_cons_of_mem m hm')

/-- Copies that are related stay so. -/
theorem deliver_rel {R : C → C → Prop} (hR : R c c')
    (hkeep : ∀ c c', R c c' → ∀ m ∈ ms, R (receive c m) (receive c' m)) :
    R (deliver receive c ms) (deliver receive c' ms) := by
  induction ms generalizing c c' with
  | nil => exact hR
  | cons m ms ih =>
    refine ih (hkeep c c' hR m (List.mem_cons_self ..)) fun d d' hd m' hm' => ?_
    exact hkeep d d' hd m' (List.mem_cons_of_mem m hm')

end Deliver

/-- Nothing in the list renews the copy. -/
def Quiet (renews : M → Bool) (ms : List M) : Prop := ∀ m ∈ ms, renews m = false

/-- `Q` holds of each message after which nothing renews the copy any more. -/
def AtLast (renews : M → Bool) (Q : M → Prop) (ms : List M) : Prop :=
  ∀ before m after, ms = before ++ m :: after → Quiet renews after → Q m

section Quiet

variable {renews : M → Bool} {m : M} {ms ms' : List M}

instance : Decidable (Quiet renews ms) := List.decidableBAll _ ms

theorem quiet_nil : Quiet renews [] := fun _ hm => absurd hm List.not_mem_nil

theorem quiet_cons : Quiet renews (m :: ms) ↔ renews m = false ∧ Quiet renews ms :=
  List.forall_mem_cons

theorem quiet_append : Quiet renews (ms ++ ms') ↔ Quiet renews ms ∧ Quiet renews ms' :=
  List.forall_mem_append

theorem not_quiet_cons (hm : renews m = true) : ¬ Quiet renews (m :: ms) := fun hquiet => by
  rw [quiet_cons, hm] at hquiet
  cases hquiet.1

/-- A list that is not quiet has a last renewing message. -/
theorem exists_last (h : ¬ Quiet renews ms) :
    ∃ before m after, ms = before ++ m :: after ∧ renews m = true ∧ Quiet renews after := by
  induction ms with
  | nil => exact absurd quiet_nil h
  | cons m ms ih =>
    by_cases hms : Quiet renews ms
    · have hm : renews m = true := by
        rw [← Bool.not_eq_false]
        exact fun hm => h (quiet_cons.2 ⟨hm, hms⟩)
      exact ⟨[], m, ms, rfl, hm, hms⟩
    · obtain ⟨before, m', after, rfl, hm', hafter⟩ := ih hms
      exact ⟨m :: before, m', after, rfl, hm', hafter⟩

end Quiet

namespace AtLast

variable {renews : M → Bool} {P Q : M → Prop} {m : M} {ms ms' : List M}

theorem nil : AtLast renews Q [] := fun before m after heq _ => by
  simp at heq

theorem of_forall (h : ∀ m ∈ ms, Q m) : AtLast renews Q ms := by
  rintro before m after rfl -
  exact h m (by simp)

theorem mono (h : AtLast renews P ms) (hPQ : ∀ m, P m → Q m) : AtLast renews Q ms :=
  fun before m after heq hquiet => hPQ m (h before m after heq hquiet)

/-- A message arrives. -/
theorem received (h : AtLast renews Q (m :: ms)) : AtLast renews Q ms :=
  fun before m' after heq hquiet => h (m :: before) m' after (congrArg (m :: ·) heq) hquiet

/-- It holds of the first message if nothing after that renews the copy. -/
theorem head (h : AtLast renews Q (m :: ms)) (hquiet : Quiet renews ms) : Q m := h [] m ms rfl hquiet

/-- If nothing renews the copy it holds of every message. -/
theorem of_quiet (h : AtLast renews Q ms) (hquiet : Quiet renews ms) : ∀ m ∈ ms, Q m := by
  intro m hm
  obtain ⟨before, after, rfl⟩ := List.append_of_mem hm
  exact h before m after rfl (quiet_cons.1 (quiet_append.1 hquiet).2).2

/-- Messages are sent: what is already on the way matters only if none of them renews the copy. -/
theorem append (h : Quiet renews ms' → AtLast renews Q ms) (h' : AtLast renews Q ms') :
    AtLast renews Q (ms ++ ms') := by
  intro before m after heq hquiet
  rcases List.append_eq_append_iff.1 heq with ⟨mid, rfl, hms'⟩ | ⟨mid, rfl, hafter⟩
  · exact h' mid m after hms' hquiet
  · rcases mid with _ | ⟨m', mid⟩
    · rw [List.nil_append] at hafter
      exact h' [] m after hafter.symm hquiet
    · rw [List.cons_append, List.cons.injEq] at hafter
      obtain ⟨rfl, rfl⟩ := hafter
      obtain ⟨hmid, hms'⟩ := quiet_append.1 hquiet
      exact h hms' before m mid rfl hmid

/-- A renewing message is sent, and others after it. -/
theorem renewed {pre post : List M} (hrenews : renews m = true) (hm : Q m) (hpost : ∀ m ∈ post, Q m) :
    AtLast renews Q (pre ++ m :: post) :=
  append (fun hquiet => absurd hquiet (not_quiet_cons hrenews))
    (of_forall (List.forall_mem_cons.2 ⟨hm, hpost⟩))

end AtLast

/-- If the last renewing message leaves nothing of the copy, it does not matter what that was. -/
theorem deliver_congr_of_not_quiet {receive : C → M → C} {renews : M → Bool} {ms : List M}
    (h : AtLast renews (fun m => renews m = true → ∀ c c', receive c m = receive c' m) ms)
    (hms : ¬ Quiet renews ms) (c c' : C) : deliver receive c ms = deliver receive c' ms := by
  obtain ⟨before, m, after, rfl, hm, hquiet⟩ := exists_last hms
  rw [deliver_append, deliver_append, deliver_cons, deliver_cons,
    h before m after rfl hquiet hm _ (deliver receive c' before)]

end Replica
