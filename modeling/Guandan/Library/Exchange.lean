import Guandan.Library.Bags

/-!
# Exchanging items in pairs

In a swap the list `giver` gives an item to the list `taker`, which may give one back later.
`Exchanged n f g swaps` says that the lists `g` come from the lists `f` by these swaps, each list
taking part in at most one of them: a giver has lost what it gave and has what it got back, a taker
has what it got and has lost what it gave back, and every other list is as it was. The two steps of
a swap are moves (`Exchanged.give`, `Exchanged.giveBack`).
-/

namespace Exchange

structure Swap (α : Type*) where
  giver : Nat
  taker : Nat
  given : α
  back : Option α

variable {α : Type*} [DecidableEq α] {n : Nat} {f g : Nat → List α} {swaps : List (Swap α)}
  {sw : Swap α} {c : α} {i : Nat}

/-- The swap in which nothing has been given back yet. -/
def Swap.offer (a b : Nat) (c : α) : Swap α := ⟨a, b, c, none⟩

/-- What the giver's list becomes. -/
def Swap.giverList (sw : Swap α) (f : Nat → List α) : List α :=
  (f sw.giver).erase sw.given ++ sw.back.toList

/-- What the taker's list becomes. -/
def Swap.takerList (sw : Swap α) (f : Nat → List α) : List α :=
  match sw.back with
  | none => f sw.taker ++ [sw.given]
  | some c => (f sw.taker ++ [sw.given]).erase c

structure Exchanged (n : Nat) (f g : Nat → List α) (swaps : List (Swap α)) : Prop where
  nodup : (swaps.map Swap.giver ++ swaps.map Swap.taker).Nodup
  given : ∀ sw ∈ swaps, sw.given ∈ f sw.giver
  back : ∀ sw ∈ swaps, ∀ c, sw.back = some c → c ∈ f sw.taker ++ [sw.given]
  giver : ∀ sw ∈ swaps, g sw.giver = sw.giverList f
  taker : ∀ sw ∈ swaps, g sw.taker = sw.takerList f
  other : ∀ i < n, (∀ sw ∈ swaps, i ≠ sw.giver ∧ i ≠ sw.taker) → g i = f i

/-- The swap in which the taker `b` gives `c` back. -/
def Swap.close (b : Nat) (c : α) (sw : Swap α) : Swap α :=
  if sw.taker = b then { sw with back := some c } else sw

omit [DecidableEq α] in
@[simp] theorem Swap.close_giver (b : Nat) (c : α) (sw : Swap α) :
    (sw.close b c).giver = sw.giver := by
  unfold close
  split <;> rfl

omit [DecidableEq α] in
@[simp] theorem Swap.close_taker (b : Nat) (c : α) (sw : Swap α) :
    (sw.close b c).taker = sw.taker := by
  unfold close
  split <;> rfl

omit [DecidableEq α] in
@[simp] theorem Swap.close_given (b : Nat) (c : α) (sw : Swap α) :
    (sw.close b c).given = sw.given := by
  unfold close
  split <;> rfl

namespace Exchanged

theorem nil (h : ∀ i < n, g i = f i) : Exchanged n f g [] :=
  ⟨by simp, by simp, by simp, by simp, by simp, fun i hi _ => h i hi⟩

/-- A list that takes no part gives an item to another one. -/
theorem give (h : Exchanged n f g swaps) {a b : Nat} (ha : a < n) (hb : b < n)
    (hnodup : ((swaps ++ [Swap.offer a b c]).map Swap.giver ++
      (swaps ++ [Swap.offer a b c]).map Swap.taker).Nodup)
    (hc : c ∈ f a) :
    Exchanged n f (Bags.move g a b c) (swaps ++ [Swap.offer a b c]) := by
  have hnodup' := hnodup
  simp only [List.map_append, List.map_cons, List.map_nil, List.nodup_append, List.mem_append,
    List.mem_map, List.mem_singleton] at hnodup
  obtain ⟨⟨-, -, hga⟩, ⟨-, -, htb⟩, hgt⟩ := hnodup
  have hab : a ≠ b := hgt a (.inr rfl) b (.inr rfl)
  have hfresh : ∀ sw ∈ swaps, (a ≠ sw.giver ∧ a ≠ sw.taker) ∧ b ≠ sw.giver ∧ b ≠ sw.taker := by
    intro sw hsw
    exact ⟨⟨fun h => hga _ ⟨sw, hsw, rfl⟩ a rfl h.symm,
      hgt a (.inr rfl) _ (.inl ⟨sw, hsw, rfl⟩)⟩,
      fun h => hgt _ (.inl ⟨sw, hsw, rfl⟩) b (.inr rfl) h.symm,
      fun h => htb _ ⟨sw, hsw, rfl⟩ b rfl h.symm⟩
  have hfa : g a = f a := h.other a ha fun sw hsw => (hfresh sw hsw).1
  have hfb : g b = f b := h.other b hb fun sw hsw => (hfresh sw hsw).2
  refine ⟨hnodup', fun sw hsw => ?_, fun sw hsw => ?_, fun sw hsw => ?_, fun sw hsw => ?_,
    fun i hi hnot => ?_⟩
  · rcases List.mem_append.1 hsw with hsw | hsw
    · exact h.given sw hsw
    · rw [List.mem_singleton.1 hsw]
      exact hc
  · rcases List.mem_append.1 hsw with hsw | hsw
    · exact h.back sw hsw
    · rw [List.mem_singleton.1 hsw]
      intro d hd
      cases hd
  · rcases List.mem_append.1 hsw with hsw | hsw
    · obtain ⟨⟨h1, -⟩, h2, -⟩ := hfresh sw hsw
      rw [Bags.move_of_ne h1.symm h2.symm, h.giver sw hsw]
    · rw [List.mem_singleton.1 hsw]
      show Bags.move g a b c a = (f a).erase c ++ []
      rw [Bags.move_giver hab, hfa, List.append_nil]
  · rcases List.mem_append.1 hsw with hsw | hsw
    · obtain ⟨⟨-, h1⟩, -, h2⟩ := hfresh sw hsw
      rw [Bags.move_of_ne h1.symm h2.symm, h.taker sw hsw]
    · rw [List.mem_singleton.1 hsw]
      show Bags.move g a b c b = f b ++ [c]
      rw [Bags.move_taker hab, hfb]
  · have hlast : i ≠ a ∧ i ≠ b := hnot (Swap.offer a b c) (by simp)
    rw [Bags.move_of_ne hlast.1 hlast.2]
    exact h.other i hi fun sw hsw => hnot sw (List.mem_append_left _ hsw)

/-- The seats of two swaps are different. -/
theorem seats_ne (h : Exchanged n f g swaps) {sw sw' : Swap α} (hsw : sw ∈ swaps)
    (hsw' : sw' ∈ swaps) : sw.giver ≠ sw'.taker := by
  have hdisj := (List.nodup_append.1 h.nodup).2.2
  exact hdisj _ (List.mem_map_of_mem hsw) _ (List.mem_map_of_mem hsw')

theorem eq_of_taker (h : Exchanged n f g swaps) {sw sw' : Swap α} (hsw : sw ∈ swaps)
    (hsw' : sw' ∈ swaps) (heq : sw.taker = sw'.taker) : sw = sw' :=
  List.inj_on_of_nodup_map (List.nodup_append.1 h.nodup).2.1 hsw hsw' heq

theorem eq_of_giver (h : Exchanged n f g swaps) {sw sw' : Swap α} (hsw : sw ∈ swaps)
    (hsw' : sw' ∈ swaps) (heq : sw.giver = sw'.giver) : sw = sw' :=
  List.inj_on_of_nodup_map (List.nodup_append.1 h.nodup).1 hsw hsw' heq

/-- A taker gives an item back to its giver. -/
theorem giveBack (h : Exchanged n f g swaps) (hsw : sw ∈ swaps) (hopen : sw.back = none)
    (hc : c ∈ g sw.taker) :
    Exchanged n f (Bags.move g sw.taker sw.giver c) (swaps.map (Swap.close sw.taker c)) := by
  have hne : sw.taker ≠ sw.giver := (h.seats_ne hsw hsw).symm
  have hg : g sw.giver = (f sw.giver).erase sw.given := by
    rw [h.giver sw hsw, Swap.giverList, hopen, Option.toList_none, List.append_nil]
  have ht : g sw.taker = f sw.taker ++ [sw.given] := by
    rw [h.taker sw hsw, Swap.takerList, hopen]
  have hclosed : Swap.close sw.taker c sw = { sw with back := some c } := if_pos rfl
  have hother : ∀ sw' ∈ swaps, sw' ≠ sw → Swap.close sw.taker c sw' = sw' :=
    fun sw' hsw' hne' => if_neg fun heq => hne' (h.eq_of_taker hsw' hsw heq)
  refine ⟨?_, fun sw₁ hsw₁ => ?_, fun sw₁ hsw₁ => ?_, fun sw₁ hsw₁ => ?_, fun sw₁ hsw₁ => ?_,
    fun i hi hnot => ?_⟩
  · simpa [List.map_map, Function.comp_def] using h.nodup
  all_goals try obtain ⟨sw', hsw', rfl⟩ := List.mem_map.1 hsw₁
  · simpa using h.given sw' hsw'
  · by_cases heq : sw' = sw
    · subst heq
      rw [hclosed]
      intro d hd
      cases hd
      exact ht ▸ hc
    · rw [hother sw' hsw' heq]
      exact h.back sw' hsw'
  · by_cases heq : sw' = sw
    · subst heq
      rw [hclosed]
      show Bags.move g sw'.taker sw'.giver c sw'.giver = (f sw'.giver).erase sw'.given ++ [c]
      rw [Bags.move_taker hne, hg]
    · rw [hother sw' hsw' heq, Bags.move_of_ne, h.giver sw' hsw']
      · exact h.seats_ne hsw' hsw
      · exact fun hgg => heq (h.eq_of_giver hsw' hsw hgg)
  · by_cases heq : sw' = sw
    · subst heq
      rw [hclosed]
      show Bags.move g sw'.taker sw'.giver c sw'.taker = (f sw'.taker ++ [sw'.given]).erase c
      rw [Bags.move_giver hne, ht]
    · rw [hother sw' hsw' heq, Bags.move_of_ne, h.taker sw' hsw']
      · exact fun htt => heq (h.eq_of_taker hsw' hsw htt)
      · exact (h.seats_ne hsw hsw').symm
  · have hsw'' := hnot _ (List.mem_map_of_mem hsw)
    rw [Swap.close_giver, Swap.close_taker] at hsw''
    rw [Bags.move_of_ne hsw''.2 hsw''.1]
    refine h.other i hi fun sw' hsw' => ?_
    have := hnot _ (List.mem_map_of_mem hsw')
    rwa [Swap.close_giver, Swap.close_taker] at this

/-! ### Sizes -/

theorem length_giver (h : Exchanged n f g swaps) (hsw : sw ∈ swaps) :
    (g sw.giver).length + (if sw.back.isSome then 0 else 1) = (f sw.giver).length := by
  have hpos : 0 < (f sw.giver).length := List.length_pos_of_mem (h.given sw hsw)
  rw [h.giver sw hsw, Swap.giverList, List.length_append, List.length_erase_of_mem (h.given sw hsw)]
  rcases sw.back with _ | d
  · simp only [Option.toList_none, List.length_nil, Option.isSome_none, Bool.false_eq_true, if_false]
    omega
  · simp only [Option.toList_some, List.length_singleton, Option.isSome_some, if_true]
    omega

theorem length_taker (h : Exchanged n f g swaps) (hsw : sw ∈ swaps) :
    (g sw.taker).length = (f sw.taker).length + (if sw.back.isSome then 0 else 1) := by
  rw [h.taker sw hsw, Swap.takerList]
  rcases hback : sw.back with _ | d
  · simp
  · simp [List.length_erase_of_mem (h.back sw hsw d hback)]

end Exchanged

end Exchange
