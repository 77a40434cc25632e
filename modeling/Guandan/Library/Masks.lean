import Mathlib.Data.List.Basic
import Mathlib.Data.Nat.Bitwise

/-!
# The sublists of a list, by bit masks

A mask below `2 ^ n` picks from a list of `n` items those whose bit is set. Every sublist is picked by
some mask, and the mask 0 picks nothing, so the masks from 1 on run through all sublists but the empty
one.
-/

namespace Masks

variable {α : Type*}

/-- The items whose bit is set in the mask. -/
def pick (xs : List α) (mask : Nat) : List α :=
  (xs.zipIdx.filter fun item => mask.testBit item.2).map (·.1)

@[simp] theorem pick_nil (mask : Nat) : pick ([] : List α) mask = [] := rfl

/-- The lowest bit decides about the head, the others about the tail. -/
theorem pick_cons (x : α) (xs : List α) (mask : Nat) :
    pick (x :: xs) mask = if mask.testBit 0 then x :: pick xs (mask / 2) else pick xs (mask / 2) := by
  have htail : ((xs.zipIdx 1).filter fun item => mask.testBit item.2).map (·.1) =
      pick xs (mask / 2) := by
    rw [show xs.zipIdx 1 = xs.zipIdx.map fun item => (item.1, item.2 + 1) from by
      rw [List.zipIdx_succ], List.filter_map, List.map_map]
    unfold pick
    congr 1
    refine List.filter_congr fun item _ => ?_
    exact Nat.testBit_succ mask item.2
  unfold pick at htail ⊢
  rw [List.zipIdx_cons, List.filter_cons]
  split_ifs
  · rw [List.map_cons, htail]
  · exact htail

theorem pick_sublist (xs : List α) (mask : Nat) : (pick xs mask).Sublist xs := by
  induction xs generalizing mask with
  | nil => exact List.Sublist.refl _
  | cons x xs ih =>
    rw [pick_cons]
    split_ifs
    · exact (ih _).cons_cons x
    · exact (ih _).cons x

@[simp] theorem pick_zero (xs : List α) : pick xs 0 = [] := by
  simp [pick]

/-- Every sublist is picked by a mask of as many bits as there are items. -/
theorem exists_pick {xs ys : List α} (h : ys.Sublist xs) :
    ∃ mask < 2 ^ xs.length, pick xs mask = ys := by
  induction h with
  | slnil => exact ⟨0, Nat.one_pos, rfl⟩
  | cons x _ ih =>
    obtain ⟨mask, hlt, rfl⟩ := ih
    refine ⟨2 * mask, ?_, ?_⟩
    · rw [List.length_cons, Nat.pow_succ]
      omega
    · rw [pick_cons, if_neg (by simp), Nat.mul_div_cancel_left _ Nat.two_pos]
  | cons_cons x _ ih =>
    obtain ⟨mask, hlt, rfl⟩ := ih
    refine ⟨2 * mask + 1, ?_, ?_⟩
    · rw [List.length_cons, Nat.pow_succ]
      omega
    · rw [pick_cons, if_pos (by simp), show (2 * mask + 1) / 2 = mask by omega]

/-- The masks from 1 on pick every sublist but the empty one. -/
theorem exists_pick_of_ne_nil {xs ys : List α} (h : ys.Sublist xs) (hne : ys ≠ []) :
    ∃ mask ∈ List.range' 1 (2 ^ xs.length - 1), pick xs mask = ys := by
  obtain ⟨mask, hlt, rfl⟩ := exists_pick h
  have hpos : mask ≠ 0 := by
    rintro rfl
    exact hne (pick_zero xs)
  exact ⟨mask, List.mem_range'_1.2 (by omega), rfl⟩

end Masks
