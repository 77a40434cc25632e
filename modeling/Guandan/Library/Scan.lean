import Mathlib.Order.RelClasses

/-!
# Scanning a list for the best item

A loop over a list that keeps the best item so far, and gives it up only for one that is better
still, ends with the first of the best items (`First`), or with what it started from if no item is
better than that. Better means greater in a strict total order `r` of the keys, so that the scan for
a least item is the one with the reversed order.
-/

namespace Scan

variable {α β κ : Type*} (r : κ → κ → Prop)

/-- One step: the item is kept if it satisfies `p` and its key is better than the one kept. -/
def keep [DecidableRel r] (p : α → Bool) (key : α → κ) (val : α → β) (best : β × κ) (a : α) :
    β × κ :=
  if p a = true ∧ r best.2 (key a) then (val a, key a) else best

/-- Among the items satisfying `p` this one is better than all before it, and none after it is
better. -/
def First (p : α → Bool) (key : α → κ) (l : List α) (a : α) : Prop :=
  p a = true ∧ ∃ before after, l = before ++ a :: after ∧
    (∀ b ∈ before, p b = true → r (key b) (key a)) ∧ ∀ b ∈ after, p b = true → ¬ r (key a) (key b)

variable {r} {p : α → Bool} {f : α → κ} {v : α → β} {l : List α} {a b : α}

theorem First.mem (h : First r p f l a) : a ∈ l := by
  obtain ⟨-, before, after, rfl, -, -⟩ := h
  simp

theorem First.sat (h : First r p f l a) : p a = true := h.1

section StrictTotalOrder

variable [IsStrictTotalOrder κ r]

/-- No item is better than the first of the best. -/
theorem First.best (h : First r p f l a) (hb : b ∈ l) (hp : p b = true) :
    ¬ r (f a) (f b) := by
  obtain ⟨-, before, after, rfl, hbefore, hafter⟩ := h
  rcases List.mem_append.1 hb with hb | hb
  · exact asymm (hbefore b hb hp)
  · rcases List.mem_cons.1 hb with rfl | hb
    · exact irrefl _
    · exact hafter b hb hp

theorem rel_of_not_rel {x y z : κ} (hxz : r x z) (hxy : ¬ r x y) : r y z := by
  rcases trichotomous_of r x y with h | rfl | h
  · exact absurd h hxy
  · exact hxz
  · exact IsTrans.trans _ _ _ h hxz

/-- The result of a scan. -/
theorem foldl_keep [DecidableRel r] (init : β × κ) :
    (l.foldl (keep r p f v) init = init ∧ ∀ b ∈ l, p b = true → ¬ r init.2 (f b)) ∨
    ∃ a, First r p f l a ∧ r init.2 (f a) ∧
      l.foldl (keep r p f v) init = (v a, f a) := by
  induction l generalizing init with
  | nil => exact .inl ⟨rfl, by simp⟩
  | cons b l ih =>
    rw [List.foldl_cons]
    unfold keep
    split_ifs with hb
    · right
      rcases ih (v b, f b) with ⟨hres, hnone⟩ | ⟨a, ⟨hpa, before, after, rfl, h1, h2⟩, hba, hres⟩
      · exact ⟨b, ⟨hb.1, [], l, rfl, by simp, hnone⟩, hb.2, hres⟩
      · refine ⟨a, ⟨hpa, b :: before, after, rfl, ?_, h2⟩, IsTrans.trans _ _ _ hb.2 hba, hres⟩
        rintro c (_ | ⟨_, hc⟩) hpc
        · exact hba
        · exact h1 c hc hpc
    · rcases ih init with ⟨hres, hnone⟩ | ⟨a, ⟨hpa, before, after, rfl, h1, h2⟩, hia, hres⟩
      · refine .inl ⟨hres, ?_⟩
        rintro c (_ | ⟨_, hc⟩) hpc
        · exact fun h => hb ⟨hpc, h⟩
        · exact hnone c hc hpc
      · refine .inr ⟨a, ⟨hpa, b :: before, after, rfl, ?_, h2⟩, hia, hres⟩
        rintro c (_ | ⟨_, hc⟩) hpc
        · exact rel_of_not_rel hia fun h => hb ⟨hpc, h⟩
        · exact h1 c hc hpc

end StrictTotalOrder

end Scan
