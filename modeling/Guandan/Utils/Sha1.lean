import Guandan.Library.ByteOrder
import Guandan.Library.IteratedHash
import Mathlib.Logic.Function.Iterate

/-!
# SHA-1

`sha1Hex` of `sha1.cpp`: what it returns are the twenty bytes of the digest. Two texts of less than 2^61
bytes have one digest exactly when they are the same or the compression of blocks merges them.
-/

namespace Guandan

open IteratedHash

/-! ### Bytes of strings -/

/-- The bytes of a string. -/
def utf8 (s : String) : List UInt8 := s.toByteArray.data.toList

theorem utf8_append (s t : String) : utf8 (s ++ t) = utf8 s ++ utf8 t := by
  simp [utf8]

theorem length_utf8 (s : String) : (utf8 s).length = s.utf8ByteSize := rfl

theorem utf8_injective : Function.Injective utf8 := by
  intro s t h
  exact String.toByteArray_inj.1 (ByteArray.ext (Array.toList_inj.1 h))

theorem length_utf8_ofList (l : List Char) : (utf8 (String.ofList l)).length ≤ 4 * l.length := by
  have hencode : utf8 (String.ofList l) = l.flatMap String.utf8EncodeChar := by
    simp [utf8, List.utf8Encode]
  rw [hencode]
  clear hencode
  induction l with
  | nil => exact Nat.le_refl _
  | cons c l ih =>
    have hc := c.utf8Size_le_four
    rw [List.flatMap_cons, List.length_append, String.length_utf8EncodeChar, List.length_cons]
    omega

/-! ### Padding -/

/-- `msg.push_back(0)`, unless the length is already right. -/
def padZero (msg : List UInt8) : List UInt8 := if msg.length % 64 = 56 then msg else msg ++ [0]

/-- `while ((msg.size() % 64) != 56) msg.push_back(0)`; no run of the loop is longer. -/
def padZeros (msg : List UInt8) : List UInt8 := padZero^[64] msg

/-- The text, a mark, zeros, and the number of its bits, which has 64 bits. -/
def padMessage (input : List UInt8) : List UInt8 :=
  padZeros (input ++ [0x80]) ++ Bytes.ofNumber 8 (input.length * 8 % 2 ^ 64)

theorem iterate_padZero {turns k : ℕ} {msg : List UInt8} (hk : k ≤ turns)
    (h : (msg.length + k) % 64 = 56) (hmin : k < 64) :
    padZero^[turns] msg = msg ++ List.replicate k 0 := by
  induction turns generalizing k msg with
  | zero =>
    obtain rfl := Nat.le_zero.1 hk
    simp
  | succ turns ih =>
    rw [Function.iterate_succ_apply, padZero]
    by_cases hdone : msg.length % 64 = 56
    · have hzero : k = 0 := by omega
      subst hzero
      rw [if_pos hdone, ih (Nat.zero_le _) h hmin]
    · obtain ⟨k, rfl⟩ : ∃ j, k = j + 1 := ⟨k - 1, by omega⟩
      rw [if_neg hdone, ih (k := k) (by omega)
        (by rw [List.length_append, List.length_singleton]; omega) (by omega), List.append_assoc,
        List.replicate_succ, List.singleton_append]

/-- How many zeros a text of this length is padded with. -/
def zeroCount (length : ℕ) : ℕ := (119 - length % 64) % 64

theorem padMessage_eq (input : List UInt8) : padMessage input =
    input ++ 0x80 :: List.replicate (zeroCount input.length) 0 ++
      Bytes.ofNumber 8 (input.length * 8 % 2 ^ 64) := by
  have hcount : (input ++ [0x80]).length = input.length + 1 := by
    rw [List.length_append, List.length_singleton]
  have hlt : zeroCount input.length < 64 := Nat.mod_lt _ (by decide)
  rw [padMessage, padZeros, iterate_padZero (k := zeroCount input.length) hlt.le
    (by rw [hcount, zeroCount]; omega) hlt]
  simp only [List.append_assoc, List.cons_append, List.nil_append]

/-- The blocks that the loop over the offsets compresses. -/
def messageBlocks (input : List UInt8) : List (List UInt8) := blocks 64 (padMessage input)

/-- The number of its bits has its 64 bits. -/
def HashedWhole (input : List UInt8) : Prop := input.length < 2 ^ 61

theorem messageBlocks_endsInLength : EndsInLength HashedWhole messageBlocks := by
  have hinj : ∀ {m m' : ℕ}, m < 2 ^ 61 → m' < 2 ^ 61 →
      Bytes.ofNumber 8 (m * 8 % 2 ^ 64) = Bytes.ofNumber 8 (m' * 8 % 2 ^ 64) → m = m' := by
    intro m m' hm hm' h
    have hnumber := congrArg Bytes.toNumber h
    have hpow : 256 ^ 8 = 2 ^ 64 := by decide
    have hlt : ∀ n, n % 2 ^ 64 < 256 ^ 8 := fun n => hpow ▸ Nat.mod_lt n (by decide)
    rw [Bytes.toNumber_ofNumber (hlt _), Bytes.toNumber_ofNumber (hlt _)] at hnumber
    omega
  have hwhole : ∀ m, 64 ∣ m + 1 + (List.replicate (zeroCount m) (0 : UInt8)).length + 8 := by
    intro m
    rw [List.length_replicate, zeroCount]
    omega
  have hpad := @endsInLength_blocks UInt8 64 (by decide) (2 ^ 61) 0x80
    (fun m => List.replicate (zeroCount m) 0) (fun m => Bytes.ofNumber 8 (m * 8 % 2 ^ 64)) 8 (by decide)
    (fun _ => Bytes.length_ofNumber 8 _) hinj hwhole
  have heq : messageBlocks = fun l => blocks 64 (l ++ 0x80 :: List.replicate (zeroCount l.length) 0 ++
      Bytes.ofNumber 8 (l.length * 8 % 2 ^ 64)) := by
    funext l
    rw [messageBlocks, padMessage_eq]
  rw [heq]
  exact hpad

/-! ### Compression -/

/-- The variables `h0` to `h4`, and `a` to `e`. -/
structure Sha1State where
  a : UInt32
  b : UInt32
  c : UInt32
  d : UInt32
  e : UInt32
  deriving DecidableEq, Repr

def rol (v bits : UInt32) : UInt32 := (v <<< bits) ||| (v >>> (32 - bits))

/-- Word `i` of a block, its most significant byte first. -/
def wordAt (block : List UInt8) (i : ℕ) : UInt32 :=
  (block.getD (i * 4) 0).toUInt32 <<< 24 ||| (block.getD (i * 4 + 1) 0).toUInt32 <<< 16 |||
    (block.getD (i * 4 + 2) 0).toUInt32 <<< 8 ||| (block.getD (i * 4 + 3) 0).toUInt32

namespace Sha1

def initial : Sha1State := ⟨0x67452301, 0xEFCDAB89, 0x98BADCFE, 0x10325476, 0xC3D2E1F0⟩

/-- The array `w`, from its first sixteen words on. -/
def schedule (block : List UInt8) : List UInt32 :=
  (List.range' 16 64).foldl (fun w i =>
    w ++ [rol (w.getD (i - 3) 0 ^^^ w.getD (i - 8) 0 ^^^ w.getD (i - 14) 0 ^^^ w.getD (i - 16) 0) 1])
    ((List.range 16).map (wordAt block))

/-- `f` and `k` of a round. -/
def mixed (s : Sha1State) (i : ℕ) : UInt32 × UInt32 :=
  if i < 20 then ((s.b &&& s.c) ||| (~~~s.b &&& s.d), 0x5A827999)
  else if i < 40 then (s.b ^^^ s.c ^^^ s.d, 0x6ED9EBA1)
  else if i < 60 then ((s.b &&& s.c) ||| (s.b &&& s.d) ||| (s.c &&& s.d), 0x8F1BBCDC)
  else (s.b ^^^ s.c ^^^ s.d, 0xCA62C1D6)

def round (w : List UInt32) (s : Sha1State) (i : ℕ) : Sha1State :=
  let (f, k) := mixed s i
  ⟨rol s.a 5 + f + s.e + k + w.getD i 0, s.a, rol s.b 30, s.c, s.d⟩

def compress (h : Sha1State) (block : List UInt8) : Sha1State :=
  let s := (List.range 80).foldl (round (schedule block)) h
  ⟨h.a + s.a, h.b + s.b, h.c + s.c, h.d + s.d, h.e + s.e⟩

def bytes (h : Sha1State) : List UInt8 :=
  [h.a, h.b, h.c, h.d, h.e].flatMap fun word => Bytes.ofNumber 4 word.toNat

end Sha1

def sha1Hex (input : List UInt8) : List UInt8 :=
  digest Sha1.bytes Sha1.compress Sha1.initial messageBlocks input

/-! ### Equal digests -/

/-- The bytes of a word, most significant first. -/
theorem wordBytes_injective : Function.Injective fun word : UInt32 => Bytes.ofNumber 4 word.toNat := by
  intro x y h
  have hpow : 256 ^ 4 = 2 ^ 32 := by decide
  have hlt : ∀ word : UInt32, word.toNat < 256 ^ 4 := fun word => hpow ▸ word.toNat_lt
  have hnumber := congrArg Bytes.toNumber h
  simp only [Bytes.toNumber_ofNumber (hlt _)] at hnumber
  exact UInt32.toNat_inj.1 hnumber

/-- Words are told from their bytes. -/
theorem words_of_bytes {xs ys : List UInt32} (hlen : xs.length = ys.length)
    (h : xs.flatMap (fun word => Bytes.ofNumber 4 word.toNat) =
      ys.flatMap (fun word => Bytes.ofNumber 4 word.toNat)) : xs = ys := by
  induction xs generalizing ys with
  | nil => exact (List.length_eq_zero_iff.1 hlen.symm).symm
  | cons x xs ih =>
    rcases ys with _ | ⟨y, ys⟩
    · cases hlen
    rw [List.flatMap_cons, List.flatMap_cons] at h
    obtain ⟨hword, hrest⟩ := List.append_inj h
      ((Bytes.length_ofNumber 4 _).trans (Bytes.length_ofNumber 4 _).symm)
    rw [wordBytes_injective hword, ih (Nat.succ.inj hlen) hrest]

theorem Sha1.bytes_injective : Function.Injective Sha1.bytes := by
  intro s t h
  obtain ⟨a, b, c, d, e⟩ := s
  obtain ⟨a', b', c', d', e'⟩ := t
  have hwords : [a, b, c, d, e] = [a', b', c', d', e'] := words_of_bytes rfl h
  simpa using hwords

/-- SHA-1 merges two texts: its compression takes two different inputs to one state. -/
def Sha1.Merges (x y : List UInt8) : Prop :=
  Merge Sha1.compress Sha1.initial (messageBlocks x) (messageBlocks y)

theorem sha1Hex_eq_iff {x y : List UInt8} (hx : HashedWhole x) (hy : HashedWhole y) :
    sha1Hex x = sha1Hex y ↔ x = y ∨ Sha1.Merges x y :=
  digest_eq_iff Sha1.bytes_injective messageBlocks_endsInLength hx hy

end Guandan
