import Mathlib.Data.List.Induction
import Mathlib.Tactic.TypeStar

/-!
# Iterated hashes

A text is padded to whole blocks, and a compression is folded over them. Where the last block tells the
length of the text, two texts have one digest exactly when the compression takes two different inputs to
one state on the way, and what follows these is the same (`digest_eq_iff`).
-/

namespace IteratedHash

/-! ### A compression on two lists of blocks -/

section Merge

variable {S B : Type*} {f : S → B → S} {s : S} {bs cs : List B} {b c : B}

/-- Two different inputs go to one state, and the blocks behind them are the same. -/
def Merge (f : S → B → S) (s : S) (bs cs : List B) : Prop :=
  ∃ pre b pre' c post, bs = pre ++ b :: post ∧ cs = pre' ++ c :: post ∧
    (pre.foldl f s, b) ≠ (pre'.foldl f s, c) ∧ f (pre.foldl f s) b = f (pre'.foldl f s) c

theorem Merge.foldl_eq (h : Merge f s bs cs) : bs.foldl f s = cs.foldl f s := by
  obtain ⟨pre, b, pre', c, post, rfl, rfl, -, heq⟩ := h
  rw [List.foldl_append, List.foldl_append, List.foldl_cons, List.foldl_cons, heq]

theorem Merge.ne (h : Merge f s bs cs) : bs ≠ cs := by
  obtain ⟨pre, b, pre', c, post, rfl, rfl, hne, -⟩ := h
  intro heq
  obtain ⟨hpre, hrest⟩ := List.append_inj' heq (by rw [List.length_cons, List.length_cons])
  obtain ⟨hhead, -⟩ := List.cons_eq_cons.1 hrest
  exact hne (by rw [hpre, hhead])

theorem Merge.concat (h : Merge f s bs cs) (b : B) : Merge f s (bs ++ [b]) (cs ++ [b]) := by
  obtain ⟨pre, b', pre', c', post, rfl, rfl, hne, heq⟩ := h
  exact ⟨pre, b', pre', c', post ++ [b], by simp, by simp, hne, heq⟩

/-- The last blocks either merge, or are the same and so are the states before them. -/
theorem merge_or_of_concat (h : (bs ++ [b]).foldl f s = (cs ++ [c]).foldl f s) :
    Merge f s (bs ++ [b]) (cs ++ [c]) ∨ b = c ∧ bs.foldl f s = cs.foldl f s := by
  rw [List.foldl_append, List.foldl_append] at h
  by_cases hsame : (bs.foldl f s, b) = (cs.foldl f s, c)
  · obtain ⟨hstate, hblock⟩ := Prod.mk.inj hsame
    exact .inr ⟨hblock, hstate⟩
  · exact .inl ⟨bs, b, cs, c, [], rfl, rfl, hsame, h⟩

/-- The induction is on both lists from their ends. -/
theorem merge_of_length (hlen : bs.length = cs.length) (h : bs.foldl f s = cs.foldl f s)
    (hne : bs ≠ cs) : Merge f s bs cs := by
  induction bs using List.reverseRecOn generalizing cs with
  | nil => exact absurd (List.length_eq_zero_iff.1 hlen.symm).symm hne
  | append_singleton bs b ih =>
    rcases List.eq_nil_or_concat cs with rfl | ⟨cs, c, rfl⟩
    · simp at hlen
    · rw [List.concat_eq_append] at hlen h hne ⊢
      rcases merge_or_of_concat h with hmerge | ⟨rfl, hstate⟩
      · exact hmerge
      · have hlen' : bs.length = cs.length := by simpa using hlen
        have hne' : bs ≠ cs := fun heq => hne (by rw [heq])
        exact (ih hlen' hstate hne').concat b

end Merge

/-! ### Padded texts -/

section Padding

variable {S B A D : Type*}

/-- Different texts have different blocks, also when these are not equally many: then the last ones
differ. -/
structure EndsInLength (ok : A → Prop) (pad : A → List B) : Prop where
  injective : ∀ {x y}, ok x → ok y → pad x = pad y → x = y
  last : ∀ {x y}, ok x → ok y → (pad x).length ≠ (pad y).length →
    ∃ bs b cs c, pad x = bs ++ [b] ∧ pad y = cs ++ [c] ∧ b ≠ c

/-- The state behind the blocks of a text, put out. -/
def digest (out : S → D) (f : S → B → S) (s : S) (pad : A → List B) (x : A) : D :=
  out ((pad x).foldl f s)

theorem digest_eq_iff {out : S → D} {f : S → B → S} {s : S} {pad : A → List B} {ok : A → Prop}
    {x y : A} (hout : Function.Injective out) (hpad : EndsInLength ok pad) (hx : ok x) (hy : ok y) :
    digest out f s pad x = digest out f s pad y ↔ x = y ∨ Merge f s (pad x) (pad y) := by
  constructor
  · intro h
    have hstate := hout h
    by_cases heq : pad x = pad y
    · exact .inl (hpad.injective hx hy heq)
    right
    by_cases hlen : (pad x).length = (pad y).length
    · exact merge_of_length hlen hstate heq
    · obtain ⟨bs, b, cs, c, hbs, hcs, hne⟩ := hpad.last hx hy hlen
      rw [hbs, hcs] at hstate ⊢
      exact (merge_or_of_concat hstate).resolve_right fun h => hne h.1
  · rintro (rfl | hmerge)
    · rfl
    · exact congrArg out hmerge.foldl_eq

end Padding

/-! ### Blocks -/

section Blocks

variable {α : Type*} {n : ℕ}

/-- The text cut into blocks of `n`; what is left at the end is dropped. -/
def blocks (n : ℕ) (l : List α) : List (List α) :=
  (List.range (l.length / n)).map fun i => (l.drop (i * n)).take n

theorem length_blocks (l : List α) : (blocks n l).length = l.length / n := by
  rw [blocks, List.length_map, List.length_range]

/-- A last block is cut off as it is. -/
theorem blocks_append (hn : 0 < n) {front last : List α} (hfront : n ∣ front.length)
    (hlast : last.length = n) : blocks n (front ++ last) = blocks n front ++ [last] := by
  obtain ⟨k, hk⟩ := hfront
  have hdiv : front.length / n = k := by rw [hk, Nat.mul_div_cancel_left k hn]
  have hmore : (front ++ last).length / n = k + 1 := by
    rw [List.length_append, hlast, Nat.add_div_right _ hn, hdiv]
  rw [blocks, hmore, List.range_succ, List.map_append, List.map_singleton, blocks, hdiv]
  congr 1
  · apply List.map_congr_left
    intro i hi
    have hle : (i + 1) * n ≤ k * n := Nat.mul_le_mul_right n (List.mem_range.1 hi)
    rw [Nat.succ_mul, Nat.mul_comm k n, ← hk] at hle
    rw [List.drop_append_of_le_length (by omega),
      List.take_append_of_le_length (by rw [List.length_drop]; omega)]
  · rw [List.drop_left' (by rw [hk, Nat.mul_comm]), List.take_of_length_le (Nat.le_of_eq hlast)]

theorem flatten_blocks (hn : 0 < n) {l : List α} (h : n ∣ l.length) : (blocks n l).flatten = l := by
  obtain ⟨k, hk⟩ := h
  induction k generalizing l with
  | zero =>
    obtain rfl := List.length_eq_zero_iff.1 (hk.trans (Nat.mul_zero n))
    rw [blocks, List.length_nil, Nat.zero_div]
    rfl
  | succ k ih =>
    have hlen : (l.take (n * k)).length = n * k := by
      rw [List.length_take, hk, Nat.mul_succ]
      omega
    have hlast : (l.drop (n * k)).length = n := by
      rw [List.length_drop, hk, Nat.mul_succ]
      omega
    rw [← List.take_append_drop (n * k) l, blocks_append hn (⟨k, hlen⟩) hlast,
      List.flatten_append, ih hlen, List.flatten_singleton]

/-- A mark behind the text, zeros, and the length of the text in the last block: how much is put between
is told by the length alone. -/
theorem endsInLength_blocks (hn : 0 < n) {bound : ℕ} {mark : α} {zeros : ℕ → List α}
    {lengthText : ℕ → List α} {k : ℕ} (hk : k ≤ n) (hlength : ∀ m, (lengthText m).length = k)
    (hinj : ∀ {m m'}, m < bound → m' < bound → lengthText m = lengthText m' → m = m')
    (hwhole : ∀ m, n ∣ m + 1 + (zeros m).length + k) :
    EndsInLength (fun l : List α => l.length < bound) fun l =>
      blocks n (l ++ mark :: zeros l.length ++ lengthText l.length) := by
  have hlen (l : List α) : (l ++ mark :: zeros l.length ++ lengthText l.length).length =
      l.length + 1 + (zeros l.length).length + k := by
    rw [List.length_append, List.length_append, List.length_cons, hlength]
    omega
  have hdvd (l : List α) : n ∣ (l ++ mark :: zeros l.length ++ lengthText l.length).length := by
    rw [hlen]
    exact hwhole _
  constructor
  · intro x y hx hy h
    have htext := congrArg List.flatten h
    rw [flatten_blocks hn (hdvd x), flatten_blocks hn (hdvd y)] at htext
    obtain ⟨hfront, hend⟩ := List.append_inj' htext ((hlength _).trans (hlength _).symm)
    exact (List.append_inj hfront (hinj hx hy hend)).1
  · -- the last `n` of the padded text are its last block, and its last `k` are the length
    have hcut (l : List α) : ∃ front last,
        blocks n (l ++ mark :: zeros l.length ++ lengthText l.length) = blocks n front ++ [last] ∧
          last.drop (n - k) = lengthText l.length := by
      have hge : n ≤ (l ++ mark :: zeros l.length ++ lengthText l.length).length :=
        Nat.le_of_dvd (by rw [hlen]; omega) (hdvd l)
      generalize htext : l ++ mark :: zeros l.length ++ lengthText l.length = text at hge
      have hsplit : text = text.take (text.length - n) ++ text.drop (text.length - n) :=
        (List.take_append_drop _ _).symm
      refine ⟨text.take (text.length - n), text.drop (text.length - n), ?_, ?_⟩
      · have hmul : n ∣ text.length := htext ▸ hdvd l
        have hfront : n ∣ (text.take (text.length - n)).length := by
          rw [List.length_take, Nat.min_eq_left (Nat.sub_le _ _)]
          exact Nat.dvd_sub hmul (Nat.dvd_refl n)
        have hlast : (text.drop (text.length - n)).length = n := by
          rw [List.length_drop]
          omega
        have happend := blocks_append hn hfront hlast
        rwa [← hsplit] at happend
      · have hend := hlen l
        rw [List.drop_drop]
        rw [← htext] at hge ⊢
        apply List.drop_left'
        rw [List.length_append, List.length_cons]
        omega
    intro x y hx hy hne
    obtain ⟨front, last, hblocks, hdrop⟩ := hcut x
    obtain ⟨front', last', hblocks', hdrop'⟩ := hcut y
    refine ⟨_, _, _, _, hblocks, hblocks', ?_⟩
    rintro rfl
    have hsame := hinj hx hy (hdrop.symm.trans hdrop')
    refine hne ?_
    rw [length_blocks, length_blocks, hlen, hlen, hsame]

end Blocks

end IteratedHash
