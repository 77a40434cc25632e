import Mathlib.Data.List.Perm.Basic
import Mathlib.Data.List.Nodup
import Mathlib.Data.List.Range
import Mathlib.Data.Nat.Find
import Mathlib.Data.Nat.ModEq

/-!
# Going round a circle of indices

The indices `0, …, n - 1` in a circle. `within n p a d` lists those that satisfy `p` among the `d`
steps that follow `a`, in order, and `next? n p i` is the first one that satisfies `p` when the
whole circle is searched from `i`. The two are related by `next?_within`: after the index reached in
`d` steps the search finds the next member of `within n p a (n - 1)`, or there is none left.
-/

namespace Cyclic

/-- The first index after `start` satisfying `p`, the circle being searched once. -/
def next? (n : Nat) (p : Nat → Bool) (start : Nat) : Option Nat :=
  ((List.range' 1 n).find? fun k => p ((start + k) % n)).map fun k => (start + k) % n

/-- The indices satisfying `p` among the `d` steps after `a`. -/
def within (n : Nat) (p : Nat → Bool) (a d : Nat) : List Nat :=
  ((List.range' 1 d).map fun k => (a + k) % n).filter p

/-- The steps from `a` on to `b`. -/
def dist (n a b : Nat) : Nat := (b + n - a) % n

variable {n a b d d' i j k : Nat} {p : Nat → Bool}

/-! ### Distances -/

theorem dist_lt (hn : 0 < n) : dist n a b < n := Nat.mod_lt _ hn

theorem add_dist (ha : a < n) (hb : b < n) : (a + dist n a b) % n = b := by
  rw [dist, Nat.add_mod_mod, show a + (b + n - a) = b + n by omega, Nat.add_mod_right,
    Nat.mod_eq_of_lt hb]

theorem dist_add (ha : a < n) (hd : d < n) : dist n a ((a + d) % n) = d := by
  rw [dist]
  by_cases h : a + d < n
  · rw [Nat.mod_eq_of_lt h, show a + d + n - a = d + n by omega, Nat.add_mod_right,
      Nat.mod_eq_of_lt hd]
  · have hwrap : (a + d) % n = a + d - n := by
      rw [Nat.mod_eq_sub_mod (by omega), Nat.mod_eq_of_lt (by omega)]
    rw [hwrap, show a + d - n + n - a = d by omega, Nat.mod_eq_of_lt hd]

theorem dist_pos (ha : a < n) (hb : b < n) (hab : a ≠ b) : 0 < dist n a b := by
  rcases Nat.eq_zero_or_pos (dist n a b) with h | h
  · have := add_dist ha hb
    rw [h, Nat.add_zero, Nat.mod_eq_of_lt ha] at this
    exact absurd this hab
  · exact h

theorem add_inj (hn : 0 < n) (hd : d ≤ n) (hd' : d' ≤ n) (hpos : 0 < d) (hpos' : 0 < d')
    (h : (a + d) % n = (a + d') % n) : d = d' := by
  have hmod : d % n = d' % n := Nat.ModEq.add_left_cancel' a h
  rcases Nat.lt_or_eq_of_le hd with hlt | rfl
  · rcases Nat.lt_or_eq_of_le hd' with hlt' | rfl
    · rwa [Nat.mod_eq_of_lt hlt, Nat.mod_eq_of_lt hlt'] at hmod
    · rw [Nat.mod_eq_of_lt hlt, Nat.mod_self] at hmod
      omega
  · rcases Nat.lt_or_eq_of_le hd' with hlt' | rfl
    · rw [Nat.mod_eq_of_lt hlt', Nat.mod_self] at hmod
      omega
    · rfl

/-! ### The search -/

theorem next?_eq_some_iff : next? n p i = some j ↔
    ∃ k, 1 ≤ k ∧ k ≤ n ∧ (i + k) % n = j ∧ p j = true ∧
      ∀ m, 1 ≤ m → m < k → p ((i + m) % n) = false := by
  simp only [next?, Option.map_eq_some_iff]
  constructor
  · rintro ⟨k, hk, rfl⟩
    rw [List.find?_range'_eq_some] at hk
    obtain ⟨hp, hmem, hnot⟩ := hk
    rw [List.mem_range'_1] at hmem
    exact ⟨k, hmem.1, by omega, rfl, hp, fun m hm hlt => by simpa using hnot m hm hlt⟩
  · rintro ⟨k, h1, h2, rfl, hp, hnot⟩
    refine ⟨k, ?_, rfl⟩
    rw [List.find?_range'_eq_some]
    exact ⟨hp, List.mem_range'_1.2 ⟨h1, by omega⟩, fun m hm hlt => by simp [hnot m hm hlt]⟩

theorem next?_lt (hn : 0 < n) (h : next? n p i = some j) : j < n := by
  obtain ⟨k, -, -, rfl, -⟩ := next?_eq_some_iff.1 h
  exact Nat.mod_lt _ hn

theorem next?_sat (h : next? n p i = some j) : p j = true := by
  obtain ⟨k, -, -, -, hp, -⟩ := next?_eq_some_iff.1 h
  exact hp

/-- The search from inside the circle finds an index as soon as one satisfies `p`. -/
theorem next?_isSome (hi : i < n) (hj : j < n) (hp : p j = true) : (next? n p i).isSome := by
  have hk : ∃ k, 1 ≤ k ∧ k ≤ n ∧ (i + k) % n = j := by
    by_cases hij : i = j
    · exact ⟨n, by omega, Nat.le_refl n, by rw [hij, Nat.add_mod_right, Nat.mod_eq_of_lt hj]⟩
    · exact ⟨dist n i j, dist_pos hi hj hij, (dist_lt (by omega)).le, add_dist hi hj⟩
  obtain ⟨k, h1, h2, rfl⟩ := hk
  simp only [next?, Option.isSome_map, List.find?_isSome]
  exact ⟨k, List.mem_range'_1.2 ⟨h1, by omega⟩, hp⟩

/-! ### The indices passed on the way -/

@[simp] theorem within_zero : within n p a 0 = [] := rfl

theorem within_succ : within n p a (d + 1) =
    within n p a d ++ if p ((a + (d + 1)) % n) then [(a + (d + 1)) % n] else [] := by
  simp only [within, List.range'_1_concat, List.map_append, List.filter_append, List.map_cons,
    List.map_nil, Nat.add_comm 1 d]
  congr 1
  by_cases h : p ((a + (d + 1)) % n) = true <;> simp [h]

theorem within_extend (hdd : d ≤ d') (h : ∀ m, d < m → m ≤ d' → p ((a + m) % n) = false) :
    within n p a d' = within n p a d := by
  induction d', hdd using Nat.le_induction with
  | base => rfl
  | succ m hm ih =>
    rw [within_succ, ih fun k h1 h2 => h k h1 (by omega), h (m + 1) (by omega) (Nat.le_refl _)]
    simp

theorem mem_within : j ∈ within n p a d ↔ (∃ k, 1 ≤ k ∧ k ≤ d ∧ (a + k) % n = j) ∧ p j = true := by
  simp only [within, List.mem_filter, List.mem_map, List.mem_range'_1]
  refine and_congr_left fun _ => exists_congr fun k => ?_
  constructor
  · rintro ⟨⟨h1, h2⟩, h3⟩
    exact ⟨h1, by omega, h3⟩
  · rintro ⟨h1, h2, h3⟩
    exact ⟨⟨h1, by omega⟩, h3⟩

theorem nodup_within (hn : 0 < n) (hd : d ≤ n) : (within n p a d).Nodup := by
  refine List.Nodup.filter _ (List.Nodup.map_on ?_ List.nodup_range')
  intro k hk m hm h
  rw [List.mem_range'_1] at hk hm
  exact add_inj hn (by omega) (by omega) (by omega) (by omega) h

/-- All the way round but the last step: every other index satisfying `p`, once. -/
theorem within_perm (ha : a < n) :
    (within n p a (n - 1)).Perm ((List.range n).filter fun i => p i && i != a) := by
  refine (List.perm_ext_iff_of_nodup (nodup_within (by omega) (by omega))
    (List.nodup_range.filter _)).2 fun j => ?_
  rw [mem_within]
  simp only [List.mem_filter, List.mem_range, Bool.and_eq_true, bne_iff_ne]
  constructor
  · rintro ⟨⟨k, h1, h2, rfl⟩, hp⟩
    refine ⟨Nat.mod_lt _ (by omega), hp, fun h => ?_⟩
    have hkn := dist_add ha (show k < n by omega)
    rw [h, dist, show a + n - a = n by omega, Nat.mod_self] at hkn
    omega
  · rintro ⟨hj, hp, hne⟩
    have hd := dist_lt (n := n) (a := a) (b := j) (by omega)
    exact ⟨⟨dist n a j, dist_pos ha hj (Ne.symm hne), by omega, add_dist ha hj⟩, hp⟩

theorem within_sublist (hd : d ≤ d') : (within n p a d).Sublist (within n p a d') := by
  induction d', hd using Nat.le_induction with
  | base => exact List.Sublist.refl _
  | succ m hm ih =>
    rw [within_succ]
    exact ih.trans (List.sublist_append_left _ _)

/-- The search from the index `d` steps after `a`: if fewer indices were passed than there are, it
finds the next one before it is back at `a`. -/
theorem next?_within (hd : d < n)
    (h : (within n p a d).length < (within n p a (n - 1)).length) :
    ∃ d', d < d' ∧ d' < n ∧ next? n p ((a + d) % n) = some ((a + d') % n) ∧
      p ((a + d') % n) = true ∧ within n p a (d' - 1) = within n p a d := by
  have hex : ∃ m, d < m ∧ m < n ∧ p ((a + m) % n) = true := by
    by_contra hnone
    push Not at hnone
    have hsame : within n p a (n - 1) = within n p a d :=
      within_extend (by omega) fun m h1 h2 => by simpa using hnone m h1 (by omega)
    rw [hsame] at h
    exact lt_irrefl _ h
  obtain ⟨hlt, hltn, hp⟩ := Nat.find_spec hex
  have hmin : ∀ m, d < m → m < Nat.find hex → p ((a + m) % n) = false := by
    intro m h1 h2
    have := Nat.find_min hex h2
    by_contra hpm
    exact this ⟨h1, by omega, by simpa using hpm⟩
  refine ⟨Nat.find hex, hlt, hltn, ?_, hp,
    within_extend (by omega) fun m h1 h2 => hmin m h1 (by omega)⟩
  refine next?_eq_some_iff.2 ⟨Nat.find hex - d, by omega, by omega, ?_, hp, ?_⟩
  · rw [Nat.mod_add_mod, show a + d + (Nat.find hex - d) = a + Nat.find hex by omega]
  · intro m h1 h2
    rw [Nat.mod_add_mod, show a + d + m = a + (d + m) by omega]
    exact hmin _ (by omega) (by omega)

end Cyclic
