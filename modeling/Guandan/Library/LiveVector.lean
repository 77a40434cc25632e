import Mathlib.Data.List.Nodup
import Mathlib.Data.List.Range

/-!
# A loop over a vector that shrinks under it

A loop goes over the cells of a vector, as many as there are elements when it begins, while the
elements it comes to erase themselves. An erasure moves the later elements one cell up and leaves
the last cells as they were. So the loop passes over the element behind each one that it erases:
all elements are erased only if there are at most two of them (`loop_eq_nil_iff`).
-/

namespace LiveVector

variable {α : Type*} [DecidableEq α] (acts : α → Prop) [DecidablePred acts]

/-- The elements without one, and the cells after its erasure. -/
def erase (s : List α × List α) (x : α) : List α × List α :=
  (s.1.filter (· != x), s.1.filter (· != x) ++ s.2.drop (s.1.filter (· != x)).length)

/-- One turn of the loop, on the elements and the cells: the element that is found in the cell
erases itself, if it is still there and can. -/
def turn (s : List α × List α) (i : Nat) : List α × List α :=
  match s.2[i]? with
  | some x => if x ∈ s.1 ∧ acts x then erase s x else s
  | none => s

def loop (l : List α) : List α × List α := (List.range l.length).foldl (turn acts) (l, l)

variable {acts} {s : List α × List α} {x : α} {i : Nat} {l : List α}

variable (acts) in
theorem turn_cases (h : s.2[i]? = some x) :
    (x ∈ s.1 ∧ acts x ∧ turn acts s i = erase s x) ∨
      (¬ (x ∈ s.1 ∧ acts x) ∧ turn acts s i = s) := by
  unfold turn
  rw [h]
  dsimp only
  by_cases hx : x ∈ s.1 ∧ acts x
  · exact .inl ⟨hx.1, hx.2, if_pos hx⟩
  · exact .inr ⟨hx, if_neg hx⟩

/-- The elements lie in the first cells. -/
theorem prefix_turn (h : s.1 <+: s.2) (i : Nat) :
    (turn acts s i).1 <+: (turn acts s i).2 ∧ (turn acts s i).2.length = s.2.length := by
  rcases hx : s.2[i]? with _ | x
  · rw [turn, hx]
    exact ⟨h, rfl⟩
  rcases turn_cases acts hx with ⟨-, -, hturn⟩ | ⟨-, hturn⟩ <;> rw [hturn]
  · have hle : (s.1.filter (· != x)).length ≤ s.2.length :=
      (List.length_filter_le _ _).trans h.length_le
    refine ⟨List.prefix_append _ _, ?_⟩
    rw [erase, List.length_append, List.length_drop]
    omega
  · exact ⟨h, rfl⟩

/-! ### An element that is passed over -/

/-- The first element is in no cell that the loop has still to come to. -/
structure Skipped (s : List α × List α) (x : α) : Prop where
  first : ∃ rest, s.1 = x :: rest ∧ x ∉ rest
  behind : x ∉ s.2.drop 1

theorem Skipped.turn (h : Skipped s x) (hi : 1 ≤ i) : Skipped (turn acts s i) x := by
  rcases hy : s.2[i]? with _ | y
  · rw [LiveVector.turn, hy]
    exact h
  have hmem : y ∈ s.2.drop 1 := by
    obtain ⟨k, rfl⟩ := Nat.exists_eq_add_of_le hi
    rw [← List.getElem?_drop] at hy
    exact List.mem_of_getElem? hy
  have hne : x ≠ y := fun heq => h.behind (heq ▸ hmem)
  obtain ⟨rest, hs, hx⟩ := h.first
  rcases turn_cases acts hy with ⟨-, -, hturn⟩ | ⟨-, hturn⟩ <;> rw [hturn]
  swap
  · exact h
  have hleft : s.1.filter (· != y) = x :: rest.filter (· != y) := by
    rw [hs, List.filter_cons_of_pos (by simpa using hne)]
  have hrest : x ∉ rest.filter (· != y) := fun hin => hx (List.mem_of_mem_filter hin)
  refine ⟨⟨_, hleft, hrest⟩, ?_⟩
  rw [erase, hleft, List.cons_append, List.drop_one, List.tail_cons, List.mem_append, not_or]
  refine ⟨hrest, fun hin => h.behind ?_⟩
  rw [List.length_cons, Nat.add_comm, ← List.drop_drop] at hin
  exact List.mem_of_mem_drop hin

/-- It is still there in the end. -/
theorem Skipped.foldl {is : List Nat} (h : Skipped s x) (his : ∀ i ∈ is, 1 ≤ i) :
    (is.foldl (LiveVector.turn acts) s).1 ≠ [] := by
  induction is generalizing s with
  | nil =>
    obtain ⟨rest, hs, -⟩ := h.first
    simp [hs]
  | cons i is ih =>
    rw [List.foldl_cons]
    exact ih (h.turn (his i (List.mem_cons_self ..)))
      fun j hj => his j (List.mem_cons_of_mem _ hj)

/-! ### When the loop erases everything -/

theorem loop_cons {x : α} {l : List α} : loop acts (x :: l) =
    (List.range' 1 l.length).foldl (turn acts) (turn acts (x :: l, x :: l) 0) := by
  unfold loop
  rw [List.range_eq_range', List.length_cons, List.range'_succ, List.foldl_cons]

theorem turn_zero {x : α} {l : List α} (hx : x ∉ l) : turn acts (x :: l, x :: l) 0 =
    if acts x then (l, l ++ (x :: l).drop l.length) else (x :: l, x :: l) := by
  have hfilter : (x :: l).filter (· != x) = l := by
    rw [List.filter_cons_of_neg (by simp)]
    exact List.filter_eq_self.2 fun y hy => by
      simpa using fun heq : y = x => hx (heq ▸ hy)
  unfold turn
  simp only [List.getElem?_cons_zero, List.mem_cons_self, true_and, erase, hfilter]

theorem loop_eq_nil_iff (hnodup : l.Nodup) (hne : l ≠ []) :
    (loop acts l).1 = [] ↔ l.length ≤ 2 ∧ ∀ x ∈ l, acts x := by
  obtain ⟨a, l, rfl⟩ := List.exists_cons_of_ne_nil hne
  obtain ⟨ha, hl⟩ := List.nodup_cons.1 hnodup
  have hlate : ∀ i ∈ List.range' 1 l.length, 1 ≤ i := fun i hi => (List.mem_range'_1.1 hi).1
  rw [loop_cons, turn_zero ha]
  by_cases hact : acts a
  swap
  · -- the first element stays, and is not come to again
    rw [if_neg hact]
    refine iff_of_false (Skipped.foldl (x := a) ⟨⟨l, rfl, ha⟩, ?_⟩ hlate) fun h =>
      hact (h.2 a (List.mem_cons_self ..))
    simpa using ha
  rw [if_pos hact]
  rcases l with _ | ⟨b, _ | ⟨c, l⟩⟩
  · simp [hact]
  · by_cases hb : acts b
    · simp [turn, erase, hact, hb]
    · simp [turn, hact, hb]
  · -- the second element takes the first cell, and is passed over
    have hb := (List.nodup_cons.1 hl).1
    refine iff_of_false (Skipped.foldl (x := b) ⟨⟨c :: l, rfl, hb⟩, ?_⟩ hlate) fun h => ?_
    · have hdrop : (a :: b :: c :: l).drop (b :: c :: l).length = (c :: l).drop l.length := rfl
      rw [hdrop, List.cons_append, List.drop_one, List.tail_cons, List.mem_append, not_or]
      exact ⟨hb, fun hin => hb (List.mem_of_mem_drop hin)⟩
    · simp at h

end LiveVector
