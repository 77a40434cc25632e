import Mathlib.Data.List.Basic
import Mathlib.Tactic.TypeStar

/-!
# Bytes that arrive in pieces

What a peer sends arrives in pieces, and one call to receive answers with no more than the piece at
hand (`recv`). So a call that asks for a number of bytes may get fewer, unless no cut falls into them
(`cut_iff`); a loop that asks until it has all of them does not depend on the cuts (`recvAll_eq`).
An empty piece stands for a call that answers with nothing, as at the end of the stream.
-/

abbrev Pieces (α : Type*) := List (List α)

namespace Pieces

variable {α : Type*}

/-- A call for at most `n` bytes. -/
def recv (n : ℕ) : Pieces α → List α × Pieces α
  | [] => ([], [])
  | piece :: rest =>
    if piece.length ≤ n then (piece, rest) else (piece.take n, piece.drop n :: rest)

/-- A call for `n` bytes that gives up with fewer. -/
def recvExact (n : ℕ) (s : Pieces α) : Option (List α × Pieces α) :=
  if (recv n s).1.length = n then some (recv n s) else none

/-- Calls until there are `n` bytes; a call that answers with nothing gives up. -/
def recvAll : ℕ → Pieces α → Option (List α × Pieces α)
  | 0, s => some ([], s)
  | _ + 1, [] => none
  | n + 1, piece :: rest =>
    if piece.isEmpty then none
    else if piece.length ≤ n + 1 then
      (recvAll (n + 1 - piece.length) rest).map fun r => (piece ++ r.1, r.2)
    else some (piece.take (n + 1), piece.drop (n + 1) :: rest)

/-- Every call answers with something as long as the stream has not ended. -/
def Proper (s : Pieces α) : Prop := ∀ piece ∈ s, piece ≠ []

/-- What is left behind `n` bytes. -/
def advance (n : ℕ) : Pieces α → Pieces α
  | [] => []
  | piece :: rest =>
    if piece.length ≤ n then advance (n - piece.length) rest else piece.drop n :: rest

/-- A piece ends behind `i` bytes. -/
def Cut (s : Pieces α) (i : ℕ) : Prop := ∃ before after, s = before ++ after ∧ before.flatten.length = i

variable {s : Pieces α} {n i : ℕ}

theorem Proper.tail {piece : List α} {rest : Pieces α} (h : Proper (piece :: rest)) : Proper rest :=
  fun p hp => h p (List.mem_cons_of_mem _ hp)

theorem Proper.head_pos {piece : List α} {rest : Pieces α} (h : Proper (piece :: rest)) :
    0 < piece.length :=
  List.length_pos_of_ne_nil (h piece (List.mem_cons_self ..))

theorem flatten_advance (n : ℕ) (s : Pieces α) : (advance n s).flatten = s.flatten.drop n := by
  induction s generalizing n with
  | nil => rw [advance, List.flatten_nil, List.drop_nil]
  | cons piece rest ih =>
    rw [advance, List.flatten_cons]
    split_ifs with hn
    · rw [ih, List.drop_append, List.drop_eq_nil_of_le hn, List.nil_append]
    · rw [List.flatten_cons, List.drop_append_of_le_length (Nat.le_of_not_le hn)]

theorem Proper.advance (h : Proper s) (n : ℕ) : Proper (advance n s) := by
  induction s generalizing n with
  | nil => exact h
  | cons piece rest ih =>
    rw [Pieces.advance]
    split_ifs with hn
    · exact ih h.tail _
    · intro p hp
      rcases List.mem_cons.1 hp with rfl | hp
      · exact mt List.drop_eq_nil_iff.1 hn
      · exact h.tail p hp

/-! ### Cuts -/

theorem cut_nil : Cut ([] : Pieces α) i ↔ i = 0 := by
  constructor
  · rintro ⟨before, after, h, rfl⟩
    rw [(List.append_eq_nil_iff.1 h.symm).1]
    rfl
  · rintro rfl
    exact ⟨[], [], rfl, rfl⟩

theorem cut_cons {piece : List α} {rest : Pieces α} :
    Cut (piece :: rest) i ↔ i = 0 ∨ piece.length ≤ i ∧ Cut rest (i - piece.length) := by
  constructor
  · rintro ⟨before, after, h, rfl⟩
    rcases before with _ | ⟨p, before⟩
    · exact .inl rfl
    · cases h
      refine .inr ⟨?_, before, after, rfl, ?_⟩ <;> simp
  · rintro (rfl | ⟨hle, before, after, rfl, hlength⟩)
    · exact ⟨[], _, rfl, rfl⟩
    · refine ⟨piece :: before, after, rfl, ?_⟩
      rw [List.flatten_cons, List.length_append, hlength]
      exact Nat.add_sub_cancel' hle

/-- The cuts behind the first `n` bytes are those of what is left. -/
theorem cut_advance (hi : 0 < i) : Cut (advance n s) i ↔ Cut s (n + i) := by
  induction s generalizing n with
  | nil =>
    rw [advance, cut_nil, cut_nil]
    omega
  | cons piece rest ih =>
    rw [advance, cut_cons]
    split_ifs with hn
    · rw [ih]
      have hsub : n - piece.length + i = n + i - piece.length := by omega
      rw [hsub, or_iff_right (by omega), and_iff_right (by omega)]
    · rw [cut_cons, List.length_drop]
      have hsub : i - (piece.length - n) = n + i - piece.length := by omega
      rw [hsub, or_iff_right (by omega), or_iff_right (by omega)]
      refine and_congr_left fun _ => ?_
      omega

/-- The first `n` bytes come in one piece. -/
def Uncut (n : ℕ) (s : Pieces α) : Prop := ∀ i, 0 < i → i < n → ¬ Cut s i

theorem uncut_advance {m : ℕ} :
    Uncut m (advance n s) ↔ ∀ i, n < i → i < n + m → ¬ Cut s i := by
  constructor
  · intro h i hlow hhigh
    have hcut := h (i - n) (by omega) (by omega)
    rwa [cut_advance (by omega), Nat.add_sub_cancel' (Nat.le_of_lt hlow)] at hcut
  · intro h i hpos hlt
    rw [cut_advance hpos]
    exact h (n + i) (by omega) (by omega)

/-- A piece that is too short is a cut. -/
theorem uncut_cons {piece : List α} {rest : Pieces α} (hpiece : 0 < piece.length) :
    Uncut n (piece :: rest) ↔ n ≤ piece.length := by
  constructor
  · intro h
    by_contra hlt
    refine h piece.length hpiece (Nat.lt_of_not_le hlt) (cut_cons.2 (.inr ⟨Nat.le_refl _, ?_⟩))
    exact ⟨[], rest, rfl, (Nat.sub_self _).symm⟩
  · intro h i hpos hlt hcut
    rcases cut_cons.1 hcut with hzero | ⟨hle, -⟩ <;> omega

theorem advance_zero (hs : Proper s) : advance 0 s = s := by
  rcases s with _ | ⟨piece, rest⟩
  · rfl
  · rw [advance, if_neg (Nat.not_le.2 hs.head_pos), List.drop_zero]

theorem advance_advance (m n : ℕ) (s : Pieces α) : advance m (advance n s) = advance (n + m) s := by
  induction s generalizing n with
  | nil => rfl
  | cons piece rest ih =>
    rw [advance]
    split_ifs with hn
    · rw [ih, advance, if_pos (by omega)]
      congr 1
      omega
    · rw [advance, advance, List.length_drop, List.drop_drop]
      have hiff : piece.length - n ≤ m ↔ piece.length ≤ n + m := by omega
      simp only [hiff]
      split_ifs
      · congr 1
        omega
      · rfl

theorem advance_of_le {piece : List α} {rest : Pieces α} (hrest : Proper rest)
    (hn : piece.length = n) : advance n (piece :: rest) = rest := by
  rw [advance, if_pos (Nat.le_of_eq hn), hn, Nat.sub_self, advance_zero hrest]

/-! ### Calls -/

/-- A call takes what it answers with from the front. -/
theorem recv_flatten (n : ℕ) (s : Pieces α) : (recv n s).1 ++ (recv n s).2.flatten = s.flatten := by
  rcases s with _ | ⟨piece, rest⟩
  · rfl
  · rw [recv, List.flatten_cons]
    split_ifs
    · rfl
    · rw [List.flatten_cons, ← List.append_assoc, List.take_append_drop]

theorem recvExact_some {got : List α} {s' : Pieces α} (h : recvExact n s = some (got, s')) :
    got.length = n ∧ got = s.flatten.take n ∧ s'.flatten = s.flatten.drop n := by
  rw [recvExact] at h
  split_ifs at h with hlength
  have hflatten := recv_flatten n s
  rw [Option.some.inj h] at hlength hflatten
  rw [← hflatten]
  subst hlength
  exact ⟨rfl, (List.take_left ..).symm, (List.drop_left ..).symm⟩

/-- A call gets all it asks for where no cut falls between these bytes. -/
theorem recvExact_eq (hs : Proper s) (hn : n ≤ s.flatten.length) (h : Uncut n s) :
    recvExact n s = some (s.flatten.take n, advance n s) := by
  rcases s with _ | ⟨piece, rest⟩
  · have hzero : n = 0 := Nat.le_zero.1 hn
    subst hzero
    rfl
  have hle := (uncut_cons hs.head_pos).1 h
  rw [List.flatten_cons, List.take_append_of_le_length hle, recvExact, recv]
  split_ifs with hshort hlen hlen
  · have hall : piece.length = n := Nat.le_antisymm hshort hle
    rw [advance_of_le hs.tail hall, ← hall, List.take_length]
  · exact absurd (Nat.le_antisymm hshort hle) hlen
  · rw [advance, if_neg hshort]
  · exact absurd (List.length_take_of_le hle) hlen

/-- A cut between them makes it give up. -/
theorem recvExact_eq_none (hs : Proper s) (h : ¬ Uncut n s) : recvExact n s = none := by
  rcases s with _ | ⟨piece, rest⟩
  · refine absurd (fun i hpos _ hcut => ?_) h
    exact Nat.ne_of_gt hpos (cut_nil.1 hcut)
  have hlt : piece.length < n := Nat.lt_of_not_le (mt (uncut_cons hs.head_pos).2 h)
  rw [recvExact, recv, if_pos (Nat.le_of_lt hlt)]
  exact if_neg (Nat.ne_of_lt hlt)

/-- So does the end of the stream. -/
theorem recvExact_eq_none_of_lt (hn : s.flatten.length < n) : recvExact n s = none := by
  rcases s with _ | ⟨piece, rest⟩
  · exact if_neg (Nat.ne_of_lt hn)
  rw [List.flatten_cons, List.length_append] at hn
  have hlt : piece.length < n := by omega
  rw [recvExact, recv, if_pos (Nat.le_of_lt hlt)]
  exact if_neg (Nat.ne_of_lt hlt)

/-- A loop of calls gets all it asks for wherever the cuts fall. -/
theorem recvAll_eq (hs : Proper s) (hn : n ≤ s.flatten.length) :
    recvAll n s = some (s.flatten.take n, advance n s) := by
  induction s generalizing n with
  | nil =>
    have hzero : n = 0 := Nat.le_zero.1 hn
    subst hzero
    rfl
  | cons piece rest ih =>
    rcases n with _ | n
    · rw [recvAll, advance_zero hs, List.take_zero]
    have hne : ¬ piece.isEmpty = true := by
      rw [List.isEmpty_iff]
      exact hs piece (List.mem_cons_self ..)
    rw [List.flatten_cons, List.length_append] at hn
    rw [recvAll, if_neg hne, advance, List.flatten_cons]
    split_ifs with hle
    · rw [ih hs.tail (by omega), List.take_append, List.take_of_length_le hle]
      rfl
    · rw [List.take_append_of_le_length (Nat.le_of_not_le hle)]

/-! ### Known bytes at the front -/

section Front

variable {front rest : List α}

theorem flatten_advance_front (h : s.flatten = front ++ rest) (hn : front.length = n) :
    (advance n s).flatten = rest := by
  rw [flatten_advance, h, ← hn, List.drop_left]

theorem recvExact_front (hs : Proper s) (h : s.flatten = front ++ rest) (hn : front.length = n)
    (huncut : Uncut n s) : recvExact n s = some (front, advance n s) := by
  have hle : n ≤ s.flatten.length := by
    rw [h, List.length_append, hn]
    exact Nat.le_add_right ..
  rw [recvExact_eq hs hle huncut, h, ← hn, List.take_left]

theorem recvAll_front (hs : Proper s) (h : s.flatten = front ++ rest) (hn : front.length = n) :
    recvAll n s = some (front, advance n s) := by
  have hle : n ≤ s.flatten.length := by
    rw [h, List.length_append, hn]
    exact Nat.le_add_right ..
  rw [recvAll_eq hs hle, h, ← hn, List.take_left]

end Front

end Pieces
