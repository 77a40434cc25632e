import Mathlib.Algebra.GroupWithZero.Nat
import Mathlib.Data.List.Forall2
import Mathlib.Data.List.Perm.Basic

/-!
# Lists with places to fill

`Fills wild Ok xs ys`: the list `ys` is `xs` with every wild element replaced by one that is `Ok`. Up to
the order of its elements such a list is the rest of `xs` together with any list of `Ok` elements, as
many as there are wild ones (`Fills.perm`, `exists_fills`).
-/

namespace Filling

variable {α : Type*} (wild : α → Bool) (Ok : α → Prop)

def Fills (xs ys : List α) : Prop :=
  List.Forall₂ (fun x y => if wild x = true then Ok y else y = x) xs ys

variable {wild} {Ok} {xs ys fill : List α}

theorem Fills.perm (h : Fills wild Ok xs ys) :
    ∃ fill, fill.length = xs.countP wild ∧ (∀ y ∈ fill, Ok y) ∧
      ys.Perm (xs.filter (fun x => !wild x) ++ fill) := by
  induction h with
  | nil => exact ⟨[], rfl, nofun, List.Perm.refl _⟩
  | @cons x y xs ys hxy _ ih =>
    obtain ⟨fill, hlen, hok, hperm⟩ := ih
    by_cases hx : wild x = true
    · rw [if_pos hx] at hxy
      refine ⟨y :: fill, by simp [hx, hlen], ?_, ?_⟩
      · intro z hz
        rcases List.mem_cons.1 hz with rfl | hz
        · exact hxy
        · exact hok z hz
      · rw [List.filter_cons_of_neg (by simp [hx])]
        exact (hperm.cons y).trans List.perm_middle.symm
    · rw [if_neg hx] at hxy
      subst hxy
      refine ⟨fill, by simp [hx, hlen], hok, ?_⟩
      rw [List.filter_cons_of_pos (by simp [hx])]
      exact hperm.cons y

theorem exists_fills (hlen : fill.length = xs.countP wild) (hok : ∀ y ∈ fill, Ok y) :
    ∃ ys, Fills wild Ok xs ys ∧ ys.Perm (xs.filter (fun x => !wild x) ++ fill) := by
  induction xs generalizing fill with
  | nil =>
    rw [List.countP_nil, List.length_eq_zero_iff] at hlen
    subst hlen
    exact ⟨[], .nil, List.Perm.refl _⟩
  | cons x xs ih =>
    by_cases hx : wild x = true
    · rw [List.countP_cons_of_pos hx] at hlen
      obtain ⟨y, fill, rfl⟩ := List.exists_cons_of_length_eq_add_one hlen
      obtain ⟨ys, hfills, hperm⟩ := ih (Nat.succ.inj hlen) fun z hz => hok z (List.mem_cons_of_mem _ hz)
      refine ⟨y :: ys, .cons ?_ hfills, ?_⟩
      · rw [if_pos hx]
        exact hok y (List.mem_cons_self ..)
      · rw [List.filter_cons_of_neg (by simp [hx])]
        exact (hperm.cons y).trans List.perm_middle.symm
    · rw [List.countP_cons_of_neg hx] at hlen
      obtain ⟨ys, hfills, hperm⟩ := ih hlen hok
      refine ⟨x :: ys, .cons ?_ hfills, ?_⟩
      · rw [if_neg hx]
      · rw [List.filter_cons_of_pos (by simp [hx])]
        exact hperm.cons x

/-- Without wild elements the list is filled by itself only. -/
theorem fills_iff_eq (h : ∀ x ∈ xs, wild x = false) : Fills wild Ok xs ys ↔ ys = xs := by
  unfold Fills
  constructor
  · intro hfills
    induction hfills with
    | nil => rfl
    | @cons x y xs ys hxy _ ih =>
      rw [if_neg (by simp [h x (List.mem_cons_self ..)])] at hxy
      rw [hxy, ih fun z hz => h z (List.mem_cons_of_mem _ hz)]
  · rintro rfl
    induction ys with
    | nil => exact .nil
    | cons x xs ih =>
      refine .cons ?_ (ih fun z hz => h z (List.mem_cons_of_mem _ hz))
      rw [if_neg (by simp [h x (List.mem_cons_self ..)])]

/-! ### Filling up to a target -/

section Target

variable {β : Type*} {f : α → β} {target : List β}

theorem length_filter_add_countP (wild : α → Bool) (xs : List α) :
    (xs.filter fun x => !wild x).length + xs.countP wild = xs.length := by
  rw [← List.countP_eq_length_filter, List.length_eq_countP_add_countP wild (l := xs), Nat.add_comm]
  simp

theorem exists_map_eq (h : ∀ b ∈ target, ∃ y, Ok y ∧ f y = b) :
    ∃ fill : List α, fill.map f = target ∧ ∀ y ∈ fill, Ok y := by
  induction target with
  | nil => exact ⟨[], rfl, nofun⟩
  | cons b target ih =>
    obtain ⟨y, hy, rfl⟩ := h b (List.mem_cons_self ..)
    obtain ⟨fill, rfl, hok⟩ := ih fun c hc => h c (List.mem_cons_of_mem _ hc)
    refine ⟨y :: fill, rfl, fun z hz => ?_⟩
    rcases List.mem_cons.1 hz with rfl | hz
    · exact hy
    · exact hok z hz

theorem length_copies (window : List β) (need : Nat) :
    (window.flatMap (List.replicate need)).length = window.length * need := by
  simp

variable [DecidableEq β]

/-- A list can be filled up to a target exactly if its other elements are part of the target and
nothing that may not be filled in is missing. -/
theorem exists_filled_iff :
    (∃ ys, Fills wild Ok xs ys ∧ (ys.map f).Perm target) ↔
      xs.length = target.length ∧ ((xs.filter fun x => !wild x).map f).Subperm target ∧
        ∀ b, (∀ y, Ok y → f y ≠ b) →
          ((xs.filter fun x => !wild x).map f).count b = target.count b := by
  have hlength := length_filter_add_countP wild xs
  constructor
  · rintro ⟨ys, hfills, hperm⟩
    obtain ⟨fill, hlen, hok, hys⟩ := hfills.perm
    have hsplit := (hys.map f).symm.trans hperm
    rw [List.map_append] at hsplit
    refine ⟨?_, (List.sublist_append_left _ _).subperm.trans hsplit.subperm, fun b hb => ?_⟩
    · have := hsplit.length_eq
      simp only [List.length_append, List.length_map] at this
      omega
    · have hnone : (fill.map f).count b = 0 := by
        rw [List.count_eq_zero, List.mem_map]
        rintro ⟨y, hy, hyb⟩
        exact hb y (hok y hy) hyb
      rw [← hsplit.count_eq, List.count_append, hnone, Nat.add_zero]
  · rintro ⟨hlen, hsub, hcount⟩
    obtain ⟨rest, hrest⟩ : ∃ rest, (((xs.filter fun x => !wild x).map f) ++ rest).Perm target :=
      ⟨_, List.subperm_append_diff_self_of_count_le fun b _ => hsub.count_le b⟩
    have hfill : ∀ b ∈ rest, ∃ y, Ok y ∧ f y = b := by
      intro b hb
      by_contra hno
      push Not at hno
      have hmiss := hrest.count_eq b
      rw [List.count_append, hcount b hno] at hmiss
      have := List.count_pos_iff.2 hb
      omega
    obtain ⟨fill, rfl, hok⟩ := exists_map_eq hfill
    have hfilled := hrest.length_eq
    simp only [List.length_append, List.length_map] at hfilled
    have hcount : fill.length = xs.countP wild := by omega
    obtain ⟨ys, hfills, hys⟩ := exists_fills hcount hok
    refine ⟨ys, hfills, (hys.map f).trans ?_⟩
    rw [List.map_append]
    exact hrest

/-- The elements of a list without repetition, counted one by one. -/
theorem sum_count {zs window : List β} (hwindow : window.Nodup) :
    (window.map zs.count).sum = zs.countP (· ∈ window) := by
  induction window with
  | nil => simp
  | cons v window ih =>
    obtain ⟨hv, hwindow⟩ := List.nodup_cons.1 hwindow
    rw [List.map_cons, List.sum_cons, ih hwindow]
    clear ih
    induction zs with
    | nil => rfl
    | cons z zs ih =>
      simp only [List.countP_cons, List.count_cons] at ih ⊢
      by_cases hz : z = v
      · subst hz
        simp [hv] at ih ⊢
        omega
      · simp [hz] at ih ⊢
        omega

theorem count_copies {window : List β} (hwindow : window.Nodup) (need : Nat) (b : β) :
    (window.flatMap (List.replicate need)).count b = if b ∈ window then need else 0 := by
  induction window with
  | nil => rfl
  | cons v window ih =>
    obtain ⟨hv, hwindow⟩ := List.nodup_cons.1 hwindow
    rw [List.flatMap_cons, List.count_append, ih hwindow, List.count_replicate]
    by_cases hb : v = b
    · subst hb
      simp [hv]
    · simp [hb, Ne.symm hb]

/-- A list of the right length, up to `w` elements, is part of `need` copies of each element of the
window exactly if no element has too many and no more than `w` are missing. -/
theorem subperm_copies_iff {zs window : List β} (hwindow : window.Nodup) {need w : Nat}
    (hlen : zs.length + w = window.length * need) :
    zs.Subperm (window.flatMap (List.replicate need)) ↔
      (∀ b ∈ window, zs.count b ≤ need) ∧ (window.map fun b => need - zs.count b).sum ≤ w := by
  have htotal : (∀ b ∈ window, zs.count b ≤ need) →
      (window.map fun b => need - zs.count b).sum + zs.countP (· ∈ window) = window.length * need := by
    intro hle
    rw [← sum_count hwindow]
    clear hlen hwindow
    induction window with
    | nil => simp
    | cons v window ih =>
      have hv := hle v (List.mem_cons_self ..)
      have := ih fun b hb => hle b (List.mem_cons_of_mem _ hb)
      simp only [List.map_cons, List.sum_cons, List.length_cons, Nat.add_mul, Nat.one_mul] at this ⊢
      omega
  constructor
  · intro hsub
    have hle : ∀ b ∈ window, zs.count b ≤ need := by
      intro b hb
      have := hsub.count_le b
      rwa [count_copies hwindow, if_pos hb] at this
    have hall : zs.countP (· ∈ window) = zs.length := by
      rw [List.countP_eq_length]
      intro b hb
      obtain ⟨c, hc, hbc⟩ := List.mem_flatMap.1 (hsub.subset hb)
      rw [List.eq_of_mem_replicate hbc]
      exact decide_eq_true hc
    refine ⟨hle, ?_⟩
    have := htotal hle
    omega
  · rintro ⟨hle, hmiss⟩
    have := htotal hle
    have hall : zs.countP (· ∈ window) = zs.length := by
      have := List.countP_le_length (p := (· ∈ window)) (l := zs)
      omega
    rw [List.countP_eq_length] at hall
    refine List.subperm_ext_iff.2 fun b hb => ?_
    have hmem : b ∈ window := of_decide_eq_true (hall b hb)
    rw [count_copies hwindow, if_pos hmem]
    exact hle b hmem

end Target

end Filling
