import Mathlib.Algebra.BigOperators.Group.Finset.Basic
import Mathlib.Algebra.Order.BigOperators.Group.Finset
import Mathlib.Data.Multiset.AddSub
import Mathlib.Data.Multiset.UnionInter
import Mathlib.Tactic.Abel

/-!
# Lists that share one bag of items

A family of lists `f i`, for the indices `i` below `n`, holds the bag `bag n f` of items. Where the
bag has no duplicates the lists have none, and no two of them share an item. Moving an item from one
list to another (`move`) leaves the bag alone.
-/

namespace Bags

variable {α : Type*} {n i j a b : Nat} {f g : Nat → List α} {c x : α}

/-- What the lists hold together. -/
def bag (n : Nat) (f : Nat → List α) : Multiset α := ∑ i ∈ Finset.range n, (f i : Multiset α)

theorem bag_congr (h : ∀ i < n, f i = g i) : bag n f = bag n g :=
  Finset.sum_congr rfl fun i hi => by rw [h i (Finset.mem_range.1 hi)]

theorem mem_bag : x ∈ bag n f ↔ ∃ i < n, x ∈ f i := by
  simp [bag, Multiset.mem_sum]

theorem le_bag (hi : i < n) : (f i : Multiset α) ≤ bag n f :=
  Finset.single_le_sum (f := fun i => (f i : Multiset α)) (fun _ _ => Multiset.zero_le _)
    (Finset.mem_range.2 hi)

/-- The lists one after the other. -/
theorem bag_getD (lists : List (List α)) :
    bag lists.length (fun i => lists.getD i []) = (lists.flatten : Multiset α) := by
  induction lists with
  | nil => rfl
  | cons l lists ih =>
    rw [bag] at ih ⊢
    rw [List.length_cons, Finset.sum_range_succ', List.flatten_cons, ← Multiset.coe_add, ← ih,
      add_comm]
    rfl

/-! ### Without duplicates -/

theorem nodup_of_bag (h : (bag n f).Nodup) (hi : i < n) : (f i).Nodup :=
  Multiset.coe_nodup.1 (Multiset.nodup_of_le (le_bag hi) h)

theorem bag_update (hi : i < n) (l : List α) :
    bag n (Function.update f i l) + (f i : Multiset α) = bag n f + (l : Multiset α) := by
  have hrest : ∑ k ∈ (Finset.range n).erase i, (Function.update f i l k : Multiset α)
      = ∑ k ∈ (Finset.range n).erase i, (f k : Multiset α) := by
    refine Finset.sum_congr rfl fun k hk => ?_
    rw [Function.update_of_ne (Finset.ne_of_mem_erase hk)]
  rw [bag, bag, ← Finset.add_sum_erase _ _ (Finset.mem_range.2 hi),
    ← Finset.add_sum_erase (Finset.range n) (fun k => (f k : Multiset α)) (Finset.mem_range.2 hi),
    hrest, Function.update_self]
  abel

/-! ### Moving an item -/

section Move

variable [DecidableEq α]

/-- The item leaves the list `a` and is put at the end of the list `b`. -/
def move (f : Nat → List α) (a b : Nat) (c : α) : Nat → List α :=
  Function.update (Function.update f a ((f a).erase c)) b
    (Function.update f a ((f a).erase c) b ++ [c])

theorem bag_move (ha : a < n) (hb : b < n) (hc : c ∈ f a) : bag n (move f a b c) = bag n f := by
  have htake := bag_update (f := f) ha ((f a).erase c)
  have hput := bag_update (f := Function.update f a ((f a).erase c)) hb
    (Function.update f a ((f a).erase c) b ++ [c])
  have hback : (f a : Multiset α) = ((f a).erase c : Multiset α) + {c} := by
    rw [← Multiset.coe_erase, add_comm, Multiset.singleton_add, Multiset.cons_erase]
    exact hc
  rw [← Multiset.coe_add, Multiset.coe_singleton] at hput
  rw [hback] at htake
  have hput' : bag n (move f a b c) = bag n (Function.update f a ((f a).erase c)) + {c} := by
    refine add_right_cancel (b := (Function.update f a ((f a).erase c) b : Multiset α)) ?_
    rw [move, hput]
    abel
  rw [hput']
  refine add_right_cancel (b := (((f a).erase c : List α) : Multiset α)) ?_
  rw [← htake]
  abel

theorem move_of_ne (ha : i ≠ a) (hb : i ≠ b) : move f a b c i = f i := by
  rw [move, Function.update_of_ne hb, Function.update_of_ne ha]

theorem move_giver (hab : a ≠ b) : move f a b c a = (f a).erase c := by
  rw [move, Function.update_of_ne hab, Function.update_self]

theorem move_taker (hab : a ≠ b) : move f a b c b = f b ++ [c] := by
  rw [move, Function.update_self, Function.update_of_ne hab.symm]

/-- Moves between different pairs of lists commute. -/
theorem move_comm {a' b' : Nat} {c' : α} (haa : a ≠ a') (hab : a ≠ b') (hba : b ≠ a') (hbb : b ≠ b')
    (hne : a ≠ b) (hne' : a' ≠ b') :
    move (move f a b c) a' b' c' = move (move f a' b' c') a b c := by
  funext i
  by_cases h1 : i = a
  · subst h1
    rw [move_of_ne haa hab, move_giver hne, move_giver hne, move_of_ne haa hab]
  by_cases h2 : i = b
  · subst h2
    rw [move_of_ne hba hbb, move_taker hne, move_taker hne, move_of_ne hba hbb]
  by_cases h3 : i = a'
  · subst h3
    rw [move_giver hne', move_of_ne h1 h2, move_of_ne h1 h2, move_giver hne']
  by_cases h4 : i = b'
  · subst h4
    rw [move_taker hne', move_of_ne h1 h2, move_of_ne h1 h2, move_taker hne']
  · rw [move_of_ne h3 h4, move_of_ne h1 h2, move_of_ne h1 h2, move_of_ne h3 h4]

end Move

end Bags
