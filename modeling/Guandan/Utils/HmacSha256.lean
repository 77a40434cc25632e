import Guandan.Utils.Sha1

/-!
# HMAC with SHA-256

`sha256` and `hmacSha256` of `hmac_sha256.cpp`, over bytes. Two codes are the same exactly when the keys
agree after they have been brought to 64 bytes and the texts are the same, or one of the two hashes merges
what it is given.
-/

namespace Guandan

open IteratedHash

/-! ### SHA-256 -/

/-- The array `h`, and the variables `a` to `hh`. -/
structure Sha256State where
  a : UInt32
  b : UInt32
  c : UInt32
  d : UInt32
  e : UInt32
  f : UInt32
  g : UInt32
  h : UInt32
  deriving DecidableEq, Repr

def rotr (x n : UInt32) : UInt32 := (x >>> n) ||| (x <<< (32 - n))

namespace Sha256

def initial : Sha256State :=
  ⟨0x6a09e667, 0xbb67ae85, 0x3c6ef372, 0xa54ff53a, 0x510e527f, 0x9b05688c, 0x1f83d9ab, 0x5be0cd19⟩

def k : List UInt32 := [
  0x428a2f98, 0x71374491, 0xb5c0fbcf, 0xe9b5dba5, 0x3956c25b, 0x59f111f1, 0x923f82a4,
  0xab1c5ed5, 0xd807aa98, 0x12835b01, 0x243185be, 0x550c7dc3, 0x72be5d74, 0x80deb1fe,
  0x9bdc06a7, 0xc19bf174, 0xe49b69c1, 0xefbe4786, 0x0fc19dc6, 0x240ca1cc, 0x2de92c6f,
  0x4a7484aa, 0x5cb0a9dc, 0x76f988da, 0x983e5152, 0xa831c66d, 0xb00327c8, 0xbf597fc7,
  0xc6e00bf3, 0xd5a79147, 0x06ca6351, 0x14292967, 0x27b70a85, 0x2e1b2138, 0x4d2c6dfc,
  0x53380d13, 0x650a7354, 0x766a0abb, 0x81c2c92e, 0x92722c85, 0xa2bfe8a1, 0xa81a664b,
  0xc24b8b70, 0xc76c51a3, 0xd192e819, 0xd6990624, 0xf40e3585, 0x106aa070, 0x19a4c116,
  0x1e376c08, 0x2748774c, 0x34b0bcb5, 0x391c0cb3, 0x4ed8aa4a, 0x5b9cca4f, 0x682e6ff3,
  0x748f82ee, 0x78a5636f, 0x84c87814, 0x8cc70208, 0x90befffa, 0xa4506ceb, 0xbef9a3f7,
  0xc67178f2]

/-- The array `w`, from its first sixteen words on. -/
def schedule (chunk : List UInt8) : List UInt32 :=
  (List.range' 16 48).foldl (fun w i =>
    let s0 := rotr (w.getD (i - 15) 0) 7 ^^^ rotr (w.getD (i - 15) 0) 18 ^^^ (w.getD (i - 15) 0 >>> 3)
    let s1 := rotr (w.getD (i - 2) 0) 17 ^^^ rotr (w.getD (i - 2) 0) 19 ^^^ (w.getD (i - 2) 0 >>> 10)
    w ++ [w.getD (i - 16) 0 + s0 + w.getD (i - 7) 0 + s1])
    ((List.range 16).map (wordAt chunk))

def round (w : List UInt32) (s : Sha256State) (i : ℕ) : Sha256State :=
  let s1 := rotr s.e 6 ^^^ rotr s.e 11 ^^^ rotr s.e 25
  let ch := (s.e &&& s.f) ^^^ (~~~s.e &&& s.g)
  let temp1 := s.h + s1 + ch + k.getD i 0 + w.getD i 0
  let s0 := rotr s.a 2 ^^^ rotr s.a 13 ^^^ rotr s.a 22
  let maj := (s.a &&& s.b) ^^^ (s.a &&& s.c) ^^^ (s.b &&& s.c)
  let temp2 := s0 + maj
  ⟨temp1 + temp2, s.a, s.b, s.c, s.d + temp1, s.e, s.f, s.g⟩

/-- `sha256Transform`. -/
def transform (h : Sha256State) (chunk : List UInt8) : Sha256State :=
  let s := (List.range 64).foldl (round (schedule chunk)) h
  ⟨h.a + s.a, h.b + s.b, h.c + s.c, h.d + s.d, h.e + s.e, h.f + s.f, h.g + s.g, h.h + s.h⟩

def bytes (h : Sha256State) : List UInt8 :=
  [h.a, h.b, h.c, h.d, h.e, h.f, h.g, h.h].flatMap fun word => Bytes.ofNumber 4 word.toNat

theorem bytes_injective : Function.Injective bytes := by
  intro s t h
  obtain ⟨a, b, c, d, e, f, g, i⟩ := s
  obtain ⟨a', b', c', d', e', f', g', i'⟩ := t
  have hwords : [a, b, c, d, e, f, g, i] = [a', b', c', d', e', f', g', i'] := words_of_bytes rfl h
  simpa using hwords

theorem length_bytes (h : Sha256State) : (bytes h).length = 32 := by
  simp [bytes, Bytes.length_ofNumber]

/-- SHA-256 merges two texts: its compression takes two different inputs to one state. -/
def Merges (x y : List UInt8) : Prop := Merge transform initial (messageBlocks x) (messageBlocks y)

end Sha256

def sha256 (data : List UInt8) : List UInt8 :=
  digest Sha256.bytes Sha256.transform Sha256.initial messageBlocks data

theorem length_sha256 (data : List UInt8) : (sha256 data).length = 32 := Sha256.length_bytes _

theorem sha256_eq_iff {x y : List UInt8} (hx : HashedWhole x) (hy : HashedWhole y) :
    sha256 x = sha256 y ↔ x = y ∨ Sha256.Merges x y :=
  digest_eq_iff Sha256.bytes_injective messageBlocks_endsInLength hx hy

/-! ### HMAC -/

/-- The key brought to 64 bytes: a longer one is hashed, and zeros are put behind. -/
def hmacKey (key : List UInt8) : List UInt8 :=
  let k := if 64 < key.length then sha256 key else key
  k ++ List.replicate (64 - k.length) 0

/-- A pad of one byte, with the key laid over it. -/
def keyPad (byte : UInt8) (key : List UInt8) : List UInt8 :=
  List.zipWith (· ^^^ ·) (List.replicate 64 byte) (hmacKey key)

def hmacSha256 (key data : List UInt8) : List UInt8 :=
  sha256 (keyPad 0x5c key ++ sha256 (keyPad 0x36 key ++ data))

theorem length_hmacKey (key : List UInt8) : (hmacKey key).length = 64 := by
  unfold hmacKey
  split_ifs with hlong
  · simp [length_sha256]
  · simp only [List.length_append, List.length_replicate]
    omega

theorem length_keyPad (byte : UInt8) (key : List UInt8) : (keyPad byte key).length = 64 := by
  rw [keyPad, List.length_zipWith, List.length_replicate, length_hmacKey, Nat.min_self]

theorem keyPad_eq_iff {byte : UInt8} {key key' : List UInt8} :
    keyPad byte key = keyPad byte key' ↔ hmacKey key = hmacKey key' := by
  refine ⟨fun h => ?_, fun h => by rw [keyPad, keyPad, h]⟩
  have hback (key : List UInt8) :
      List.zipWith (· ^^^ ·) (List.replicate 64 byte) (keyPad byte key) = hmacKey key := by
    have hlen := length_hmacKey key
    apply List.ext_getElem
    · rw [List.length_zipWith, length_keyPad, List.length_replicate, hlen, Nat.min_self]
    · intro i hi hi'
      simp only [keyPad, List.getElem_zipWith, List.getElem_replicate]
      rw [← UInt8.xor_assoc, UInt8.xor_self, UInt8.zero_xor]
  rw [← hback key, h, hback]

/-- One of the two hashes behind the codes of two texts merges what it is given. -/
def CodesMerge (key data data' : List UInt8) : Prop :=
  Sha256.Merges (keyPad 0x36 key ++ data) (keyPad 0x36 key ++ data') ∨
    Sha256.Merges (keyPad 0x5c key ++ sha256 (keyPad 0x36 key ++ data))
      (keyPad 0x5c key ++ sha256 (keyPad 0x36 key ++ data'))

/-- How the codes of two texts under two keys can be the same. -/
theorem hmacSha256_eq_iff {key key' data data' : List UInt8} (h : data.length < 2 ^ 60)
    (h' : data'.length < 2 ^ 60) : hmacSha256 key data = hmacSha256 key' data' ↔
      hmacKey key = hmacKey key' ∧
          (data = data' ∨ Sha256.Merges (keyPad 0x36 key ++ data) (keyPad 0x36 key' ++ data')) ∨
        Sha256.Merges (keyPad 0x5c key ++ sha256 (keyPad 0x36 key ++ data))
          (keyPad 0x5c key' ++ sha256 (keyPad 0x36 key' ++ data')) := by
  have houter (key data : List UInt8) : HashedWhole (keyPad 0x5c key ++ sha256 data) := by
    rw [HashedWhole, List.length_append, length_keyPad, length_sha256]
    decide
  have hinner {key data : List UInt8} (h : data.length < 2 ^ 60) :
      HashedWhole (keyPad 0x36 key ++ data) := by
    rw [HashedWhole, List.length_append, length_keyPad]
    omega
  have hsplit (byte : UInt8) (x y : List UInt8) :
      keyPad byte key ++ x = keyPad byte key' ++ y ↔ hmacKey key = hmacKey key' ∧ x = y := by
    rw [List.append_eq_append_iff_of_size_eq_left, keyPad_eq_iff]
    rw [length_keyPad, length_keyPad]
  rw [hmacSha256, hmacSha256, sha256_eq_iff (houter _ _) (houter _ _), hsplit,
    sha256_eq_iff (hinner h) (hinner h'), hsplit]
  constructor
  · rintro (⟨hkey, ⟨-, hdata⟩ | hmerge⟩ | hmerge)
    · exact .inl ⟨hkey, .inl hdata⟩
    · exact .inl ⟨hkey, .inr hmerge⟩
    · exact .inr hmerge
  · rintro (⟨hkey, hdata | hmerge⟩ | hmerge)
    · exact .inl ⟨hkey, .inl ⟨hkey, hdata⟩⟩
    · exact .inl ⟨hkey, .inr hmerge⟩
    · exact .inr hmerge

theorem hmacSha256_data_iff {key data data' : List UInt8} (h : data.length < 2 ^ 60)
    (h' : data'.length < 2 ^ 60) :
    hmacSha256 key data = hmacSha256 key data' ↔ data = data' ∨ CodesMerge key data data' := by
  rw [hmacSha256_eq_iff h h', CodesMerge, or_assoc.symm]
  simp only [true_and]

end Guandan
