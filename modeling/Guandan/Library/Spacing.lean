import Mathlib.Data.List.Induction
import Mathlib.Algebra.Order.Ring.Int

/-!
# Events that keep a distance

A list of readings of a clock, each at least `d` behind the one before it. However the readings of a window
are chosen, there are at most `w / d + 1` of them in a window of width `w`.
-/

namespace Spacing

/-- Each reading is at least `d` behind every earlier one. -/
def Spaced (d : Int) (l : List Int) : Prop := l.Pairwise fun s t => s + d ≤ t

variable {d : Int} {l : List Int} {t : Int}

theorem spaced_nil : Spaced d [] := List.Pairwise.nil

/-- What keeps away from the last reading keeps away from all. -/
theorem Spaced.all_of_last (h : Spaced d l) (hlast : ∀ s, l.getLast? = some s → s + d ≤ t)
    (hd : 0 ≤ d) : ∀ s ∈ l, s + d ≤ t := by
  intro s hs
  rcases List.eq_nil_or_concat l with rfl | ⟨front, last, rfl⟩
  · cases hs
  · rw [List.concat_eq_append] at hs h hlast
    have hle := hlast last (by simp)
    rcases List.mem_append.1 hs with hs | hs
    · have hbefore := (List.pairwise_append.1 h).2.2 s hs last (List.mem_singleton_self _)
      omega
    · rw [List.mem_singleton.1 hs]
      exact hle

theorem Spaced.concat (h : Spaced d l) (hall : ∀ s ∈ l, s + d ≤ t) : Spaced d (l ++ [t]) := by
  refine List.pairwise_append.2 ⟨h, List.pairwise_singleton _ _, fun s hs u hu => ?_⟩
  rw [List.mem_singleton.1 hu]
  exact hall s hs

/-- From the first to the last there are as many gaps as there are readings behind the first. -/
theorem Spaced.span {first : Int} (h : Spaced d (first :: l)) :
    ∀ last, (first :: l).getLast? = some last → first + d * l.length ≤ last := by
  induction l using List.reverseRecOn with
  | nil =>
    intro last hlast
    obtain rfl : first = last := by simpa using hlast
    simp
  | append_singleton l t ih =>
    intro last hlast
    rw [← List.cons_append] at h hlast
    rw [List.getLast?_concat, Option.some_inj] at hlast
    subst hlast
    obtain ⟨hl, -, hall⟩ := List.pairwise_append.1 h
    have hlen : ((l ++ [t]).length : Int) = l.length + 1 := by simp
    have hprev := ih hl ((first :: l).getLast (List.cons_ne_nil _ _))
      (List.getLast?_eq_some_getLast (List.cons_ne_nil _ _))
    have hgap := hall _ (List.getLast_mem (List.cons_ne_nil _ _)) t (List.mem_singleton_self _)
    rw [hlen, Int.mul_add, Int.mul_one]
    omega

/-- How many readings fit into a window. -/
theorem Spaced.length_filter_le (h : Spaced d l) (hd : 0 < d) (start : Int) {width : Int}
    (hwidth : 0 ≤ width) :
    ((l.filter fun t => start ≤ t ∧ t ≤ start + width).length : Int) ≤ width / d + 1 := by
  have hspaced : Spaced d (l.filter fun t => start ≤ t ∧ t ≤ start + width) := h.filter _
  have hinside : ∀ t ∈ l.filter fun t => start ≤ t ∧ t ≤ start + width,
      start ≤ t ∧ t ≤ start + width := fun t ht => by simpa using (List.mem_filter.1 ht).2
  generalize l.filter (fun t => start ≤ t ∧ t ≤ start + width) = inside at hspaced hinside
  rcases inside with _ | ⟨first, rest⟩
  · have hnonneg := Int.ediv_nonneg hwidth hd.le
    simp only [List.length_nil]
    omega
  · have hspan := hspaced.span _ (List.getLast?_eq_some_getLast (List.cons_ne_nil first rest))
    have hfirst := (hinside first (List.mem_cons_self ..)).1
    have hlast := (hinside _ (List.getLast_mem (List.cons_ne_nil first rest))).2
    have hle : (rest.length : Int) ≤ width / d := by
      rw [Int.le_ediv_iff_mul_le hd, Int.mul_comm]
      omega
    rw [List.length_cons]
    omega

end Spacing
