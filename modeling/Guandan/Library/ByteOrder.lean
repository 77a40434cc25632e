import Mathlib.Data.List.Induction
import Mathlib.Data.Nat.Bits
import Mathlib.Tactic.Ring

/-!
# Numbers and masks over bytes

Numbers in network byte order, written and read with shifts, in the byte order of a little-endian host,
and the exchange of the two by masks and shifts; and a key of bytes that is laid over a text again and
again: laying it over twice gives the text back.
-/

namespace Bytes

/-- The last `k` bytes of a number, the most significant first. -/
def ofNumber (k n : ℕ) : List UInt8 :=
  (List.range k).reverse.map fun i => UInt8.ofNat ((n >>> (i * 8)) &&& 0xFF)

def toNumber (bytes : List UInt8) : ℕ := bytes.foldl (fun n b => n <<< 8 ||| b.toNat) 0

theorem length_ofNumber (k n : ℕ) : (ofNumber k n).length = k := by simp [ofNumber]

theorem drop_ofNumber {k i : ℕ} (h : k ≤ i) (n : ℕ) : (ofNumber k n).drop i = [] :=
  List.drop_of_length_le ((length_ofNumber k n).trans_le h)

theorem ofNumber_succ (k n : ℕ) :
    ofNumber (k + 1) n = UInt8.ofNat (n / 256 ^ k % 256) :: ofNumber k n := by
  rw [ofNumber, ofNumber, List.range_succ, List.reverse_append, List.reverse_singleton,
    List.singleton_append, List.map_cons]
  congr 2
  rw [Nat.shiftRight_eq_div_pow, Nat.mul_comm k 8, Nat.pow_mul]
  exact Nat.and_two_pow_sub_one_eq_mod _ 8

/-- A byte is put behind the number read so far. -/
theorem shift_or_byte (n : ℕ) (b : UInt8) : n <<< 8 ||| b.toNat = n * 256 + b.toNat := by
  rw [← Nat.shiftLeft_add_eq_or_of_lt b.toNat_lt, Nat.shiftLeft_eq]

theorem foldl_ofNumber (k n start : ℕ) :
    (ofNumber k n).foldl (fun n b => n <<< 8 ||| b.toNat) start =
      start * 256 ^ k + n % 256 ^ k := by
  induction k generalizing start with
  | zero => simp [ofNumber, Nat.mod_one]
  | succ k ih =>
    have hbyte : (UInt8.ofNat (n / 256 ^ k % 256)).toNat = n / 256 ^ k % 256 := by simp
    rw [ofNumber_succ, List.foldl_cons, ih, shift_or_byte, hbyte, Nat.pow_succ, Nat.mod_mul]
    ring

theorem toNumber_ofNumber {k n : ℕ} (h : n < 256 ^ k) : toNumber (ofNumber k n) = n := by
  rw [toNumber, foldl_ofNumber, Nat.zero_mul, Nat.zero_add, Nat.mod_eq_of_lt h]

theorem toNumber_lt (bytes : List UInt8) : toNumber bytes < 256 ^ bytes.length := by
  induction bytes using List.reverseRecOn with
  | nil => exact Nat.one_pos
  | append_singleton bytes b ih =>
    have hb : b.toNat < 256 := b.toNat_lt
    rw [toNumber, List.foldl_append, List.foldl_cons, List.foldl_nil, shift_or_byte,
      List.length_append, List.length_singleton, Nat.pow_succ]
    rw [toNumber] at ih
    omega

theorem toNumber_concat (bytes : List UInt8) (b : UInt8) :
    toNumber (bytes ++ [b]) = toNumber bytes <<< 8 ||| b.toNat := by
  rw [toNumber, List.foldl_append]
  rfl

theorem ofNumber_concat (k n : ℕ) (b : UInt8) :
    ofNumber (k + 1) (n * 256 + b.toNat) = ofNumber k n ++ [b] := by
  have hb : b.toNat < 256 := b.toNat_lt
  induction k with
  | zero =>
    have hdigit : (n * 256 + b.toNat) % 256 = b.toNat := by omega
    rw [ofNumber_succ, pow_zero, Nat.div_one, hdigit, UInt8.ofNat_toNat]
    rfl
  | succ k ih =>
    have hdigit : (n * 256 + b.toNat) / 256 ^ (k + 1) = n / 256 ^ k := by
      rw [Nat.pow_succ', ← Nat.div_div_eq_div_mul]
      congr 1
      omega
    rw [ofNumber_succ, ih, ofNumber_succ, hdigit, List.cons_append]

theorem ofNumber_toNumber (bytes : List UInt8) : ofNumber bytes.length (toNumber bytes) = bytes := by
  induction bytes using List.reverseRecOn with
  | nil => rfl
  | append_singleton bytes b ih =>
    rw [toNumber_concat, shift_or_byte, List.length_append, List.length_singleton, ofNumber_concat, ih]

theorem toNumber_eq_iff {k n : ℕ} {bytes : List UInt8} (h : bytes.length = k) (hn : n < 256 ^ k) :
    toNumber bytes = n ↔ bytes = ofNumber k n := by
  constructor
  · rintro rfl
    rw [← h, ofNumber_toNumber]
  · rintro rfl
    exact toNumber_ofNumber hn

/-! ### Little-endian hosts -/

/-- The last `k` bytes of a number, the least significant first. -/
def ofNumberLE (k n : ℕ) : List UInt8 :=
  (List.range k).map fun i => UInt8.ofNat ((n >>> (i * 8)) &&& 0xFF)

def toNumberLE (bytes : List UInt8) : ℕ := bytes.foldr (fun b n => n <<< 8 ||| b.toNat) 0

theorem ofNumberLE_eq (k n : ℕ) : ofNumberLE k n = (ofNumber k n).reverse := by
  rw [ofNumber, ofNumberLE, List.map_reverse, List.reverse_reverse]

theorem toNumberLE_eq (bytes : List UInt8) : toNumberLE bytes = toNumber bytes.reverse := by
  rw [toNumber, toNumberLE, List.foldl_reverse]

theorem length_ofNumberLE (k n : ℕ) : (ofNumberLE k n).length = k := by simp [ofNumberLE]

theorem toNumberLE_lt (bytes : List UInt8) : toNumberLE bytes < 256 ^ bytes.length := by
  rw [toNumberLE_eq, ← List.length_reverse]
  exact toNumber_lt _

theorem ofNumberLE_toNumberLE (bytes : List UInt8) :
    ofNumberLE bytes.length (toNumberLE bytes) = bytes := by
  rw [ofNumberLE_eq, toNumberLE_eq, ← List.length_reverse, ofNumber_toNumber, List.reverse_reverse]

/-- The number with the bytes of another in the opposite order. -/
def swap (k n : ℕ) : ℕ := toNumber (ofNumberLE k n)

/-- What a little-endian host stores when the bytes were exchanged before. -/
theorem ofNumberLE_swap (k n : ℕ) : ofNumberLE k (swap k n) = ofNumber k n := by
  have h := ofNumber_toNumber (ofNumberLE k n)
  rw [length_ofNumberLE] at h
  rw [ofNumberLE_eq, swap, h, ofNumberLE_eq, List.reverse_reverse]

/-- What a little-endian host loads, with its bytes exchanged. -/
theorem swap_toNumberLE {k : ℕ} {bytes : List UInt8} (h : bytes.length = k) :
    swap k (toNumberLE bytes) = toNumber bytes := by
  subst h
  rw [swap, ofNumberLE_toNumberLE]

/-- A byte that is masked where it stands. -/
theorem and_mask (n i : ℕ) : n &&& (0xFF <<< i) = (n >>> i &&& 0xFF) <<< i := by
  apply Nat.eq_of_testBit_eq
  intro j
  simp only [Nat.testBit_and, Nat.testBit_shiftLeft, Nat.testBit_shiftRight]
  by_cases hij : i ≤ j
  · simp [hij]
  · simp [hij]

/-- A byte is moved to the left within `w` bits. -/
theorem mask_shiftLeft {n i s w : ℕ} (h : i + 8 + s ≤ w) :
    (n &&& 0xFF <<< i) <<< s % 2 ^ w = (n >>> i &&& 0xFF) <<< (i + s) := by
  have hbyte : n >>> i &&& 0xFF < 2 ^ 8 := Nat.and_lt_two_pow _ (by decide)
  rw [and_mask, ← Nat.shiftLeft_add, Nat.mod_eq_of_lt]
  rw [Nat.shiftLeft_eq]
  calc (n >>> i &&& 0xFF) * 2 ^ (i + s) < 2 ^ 8 * 2 ^ (i + s) :=
        Nat.mul_lt_mul_of_pos_right hbyte (Nat.two_pow_pos _)
    _ = 2 ^ (i + 8 + s) := by rw [← Nat.pow_add]; congr 1; omega
    _ ≤ 2 ^ w := Nat.pow_le_pow_right Nat.two_pos h

/-- A byte is moved to the right. -/
theorem mask_shiftRight (n i s : ℕ) :
    (n &&& 0xFF <<< (i + s)) >>> s = (n >>> (i + s) &&& 0xFF) <<< i := by
  rw [and_mask, Nat.shiftLeft_add, Nat.shiftLeft_shiftRight]

/-- The bytes of a number from the least significant one, put together in that order. -/
theorem swap_eq (k n : ℕ) : swap k n =
    (List.range k).foldl (fun m i => m <<< 8 ||| (n >>> (i * 8) &&& 0xFF)) 0 := by
  have hbyte (i : ℕ) : (UInt8.ofNat (n >>> (i * 8) &&& 0xFF)).toNat = n >>> (i * 8) &&& 0xFF := by
    have hlt : n >>> (i * 8) &&& 0xFF < 2 ^ 8 := Nat.and_lt_two_pow _ (by decide)
    exact UInt8.toNat_ofNat_of_lt' hlt
  rw [swap, toNumber, ofNumberLE, List.foldl_map]
  simp only [hbyte]

/-! ### Masks -/

def xorMask (mask text : List UInt8) : List UInt8 :=
  text.mapIdx fun i b => b ^^^ mask.getD (i % mask.length) 0

theorem length_xorMask (mask text : List UInt8) : (xorMask mask text).length = text.length := by
  rw [xorMask, List.length_mapIdx]

theorem xorMask_xorMask (mask text : List UInt8) : xorMask mask (xorMask mask text) = text := by
  have htwice : ∀ i (b : UInt8),
      b ^^^ mask.getD (i % mask.length) 0 ^^^ mask.getD (i % mask.length) 0 = b := by
    intro i b
    rw [UInt8.xor_assoc, UInt8.xor_self, UInt8.xor_zero]
  rw [xorMask, xorMask, List.mapIdx_mapIdx]
  simp only [Function.comp_def, htwice]
  exact List.mapIdx_eq_iff.2 fun i => by simp

end Bytes
