import Guandan.Library.ByteOrder

/-!
# Voice packets

`voice_packet.h`, on a little-endian host: a header is written into a buffer and read from one at fixed
places, its numbers with their bytes exchanged.
-/

namespace Guandan.Voice

open Bytes

def kMagic : UInt32 := 0x4744564F
def kHeaderSize : Nat := 28
def kMaxPayload : Nat := 1024

structure PacketHeader where
  magic : UInt32 := kMagic
  type : UInt8 := 0
  reserved : UInt8 × UInt8 × UInt8 := (0, 0, 0)
  userId : UInt32 := 0
  sequence : UInt32 := 0
  timestamp : UInt64 := 0
  payloadLen : UInt16 := 0
  reserved2 : UInt16 := 0
  deriving DecidableEq, Repr

/-! ### Byte order -/

def hostToBe16 (v : UInt16) : UInt16 := (v >>> 8) ||| (v <<< 8)

def hostToBe32 (v : UInt32) : UInt32 :=
  ((v &&& 0xFF) <<< 24) ||| ((v &&& 0xFF00) <<< 8) ||| ((v &&& 0xFF0000) >>> 8) |||
    ((v &&& 0xFF000000) >>> 24)

def hostToBe64 (v : UInt64) : UInt64 :=
  ((v &&& 0xFF) <<< 56) ||| ((v &&& 0xFF00) <<< 40) ||| ((v &&& 0xFF0000) <<< 24) |||
    ((v &&& 0xFF000000) <<< 8) ||| ((v &&& 0xFF00000000) >>> 8) |||
    ((v &&& 0xFF0000000000) >>> 24) ||| ((v &&& 0xFF000000000000) >>> 40) |||
    ((v &&& 0xFF00000000000000) >>> 56)

def beToHost16 (v : UInt16) : UInt16 := hostToBe16 v
def beToHost32 (v : UInt32) : UInt32 := hostToBe32 v
def beToHost64 (v : UInt64) : UInt64 := hostToBe64 v

theorem hostToBe16_toNat (v : UInt16) : (hostToBe16 v).toNat = swap 2 v.toNat := by
  have hv : v.toNat < 65536 := v.toNat_lt
  simp only [hostToBe16, UInt16.toNat_or, UInt16.toNat_shiftLeft, UInt16.toNat_shiftRight,
    UInt16.reduceToNat, Nat.reduceMod]
  generalize v.toNat = n at hv
  have h0 : n <<< 8 % 2 ^ 16 = (n >>> 0 &&& 0xFF) <<< 8 := by
    rw [Nat.shiftLeft_eq, Nat.shiftLeft_eq, Nat.and_two_pow_sub_one_eq_mod _ 8, Nat.shiftRight_zero]
    omega
  have h1 : n >>> 8 = n >>> 8 &&& 0xFF := by
    rw [Nat.and_two_pow_sub_one_eq_mod _ 8, Nat.shiftRight_eq_div_pow]
    omega
  rw [h0, h1, Nat.or_comm, swap_eq]
  simp [List.range_succ]

theorem hostToBe32_toNat (v : UInt32) : (hostToBe32 v).toNat = swap 4 v.toNat := by
  simp only [hostToBe32, UInt32.toNat_or, UInt32.toNat_shiftLeft, UInt32.toNat_shiftRight,
    UInt32.toNat_and, UInt32.reduceToNat, Nat.reduceMod]
  generalize v.toNat = n
  have h0 : (n &&& 0xFF) <<< 24 % 2 ^ 32 = (n >>> 0 &&& 0xFF) <<< 24 :=
    mask_shiftLeft (i := 0) (by decide)
  have h1 : (n &&& 0xFF00) <<< 8 % 2 ^ 32 = (n >>> 8 &&& 0xFF) <<< 16 :=
    mask_shiftLeft (i := 8) (by decide)
  have h2 : (n &&& 0xFF0000) >>> 8 = (n >>> 16 &&& 0xFF) <<< 8 := mask_shiftRight n 8 8
  have h3 : (n &&& 0xFF000000) >>> 24 = (n >>> 24 &&& 0xFF) <<< 0 := mask_shiftRight n 0 24
  rw [h0, h1, h2, h3, swap_eq]
  simp [List.range_succ, Nat.shiftLeft_or_distrib, ← Nat.shiftLeft_add]

theorem hostToBe64_toNat (v : UInt64) : (hostToBe64 v).toNat = swap 8 v.toNat := by
  simp only [hostToBe64, UInt64.toNat_or, UInt64.toNat_shiftLeft, UInt64.toNat_shiftRight,
    UInt64.toNat_and, UInt64.reduceToNat, Nat.reduceMod]
  generalize v.toNat = n
  have h0 : (n &&& 0xFF) <<< 56 % 2 ^ 64 = (n >>> 0 &&& 0xFF) <<< 56 :=
    mask_shiftLeft (i := 0) (by decide)
  have h1 : (n &&& 0xFF00) <<< 40 % 2 ^ 64 = (n >>> 8 &&& 0xFF) <<< 48 :=
    mask_shiftLeft (i := 8) (by decide)
  have h2 : (n &&& 0xFF0000) <<< 24 % 2 ^ 64 = (n >>> 16 &&& 0xFF) <<< 40 :=
    mask_shiftLeft (i := 16) (by decide)
  have h3 : (n &&& 0xFF000000) <<< 8 % 2 ^ 64 = (n >>> 24 &&& 0xFF) <<< 32 :=
    mask_shiftLeft (i := 24) (by decide)
  have h4 : (n &&& 0xFF00000000) >>> 8 = (n >>> 32 &&& 0xFF) <<< 24 := mask_shiftRight n 24 8
  have h5 : (n &&& 0xFF0000000000) >>> 24 = (n >>> 40 &&& 0xFF) <<< 16 := mask_shiftRight n 16 24
  have h6 : (n &&& 0xFF000000000000) >>> 40 = (n >>> 48 &&& 0xFF) <<< 8 := mask_shiftRight n 8 40
  have h7 : (n &&& 0xFF00000000000000) >>> 56 = (n >>> 56 &&& 0xFF) <<< 0 :=
    mask_shiftRight n 0 56
  rw [h0, h1, h2, h3, h4, h5, h6, h7, swap_eq]
  simp [List.range_succ, Nat.shiftLeft_or_distrib, ← Nat.shiftLeft_add]

/-! ### Headers -/

/-- Bytes stored into a buffer. -/
def store (out : List UInt8) (offset : Nat) (bytes : List UInt8) : List UInt8 :=
  out.take offset ++ bytes ++ out.drop (offset + bytes.length)

/-- The `k` bytes at a place of a buffer. -/
def slice (input : List UInt8) (offset k : Nat) : List UInt8 := (input.drop offset).take k

def writeHeader (out : List UInt8) (h : PacketHeader) : List UInt8 :=
  let out := store out 0 (ofNumberLE 4 (hostToBe32 h.magic).toNat)
  let out := store out 4 [h.type]
  let out := store out 5 [0, 0, 0]
  let out := store out 8 (ofNumberLE 4 (hostToBe32 h.userId).toNat)
  let out := store out 12 (ofNumberLE 4 (hostToBe32 h.sequence).toNat)
  let out := store out 16 (ofNumberLE 8 (hostToBe64 h.timestamp).toNat)
  let out := store out 24 (ofNumberLE 2 (hostToBe16 h.payloadLen).toNat)
  store out 26 [0, 0]

/-- The fields that are not read keep what they are in `h`. -/
def readHeader (input : List UInt8) (h : PacketHeader := {}) : Option PacketHeader :=
  if input.length < kHeaderSize then none
  else
    let h := { h with magic := beToHost32 (UInt32.ofNat (toNumberLE (slice input 0 4))) }
    if h.magic ≠ kMagic then none
    else
      let h := { h with type := input.getD 4 0 }
      let h := { h with userId := beToHost32 (UInt32.ofNat (toNumberLE (slice input 8 4))) }
      let h := { h with sequence := beToHost32 (UInt32.ofNat (toNumberLE (slice input 12 4))) }
      let h := { h with timestamp := beToHost64 (UInt64.ofNat (toNumberLE (slice input 16 8))) }
      let h := { h with payloadLen := beToHost16 (UInt16.ofNat (toNumberLE (slice input 24 2))) }
      if kMaxPayload < h.payloadLen.toNat then none else some h

/-- A header as it is on the network: every number with its most significant byte first. -/
def PacketHeader.bytes (h : PacketHeader) : List UInt8 :=
  ofNumber 4 h.magic.toNat ++ h.type :: [0, 0, 0] ++ ofNumber 4 h.userId.toNat ++
    ofNumber 4 h.sequence.toNat ++ ofNumber 8 h.timestamp.toNat ++ ofNumber 2 h.payloadLen.toNat ++
    [0, 0]

/-! ### Reading and writing -/

theorem store_zero (out bytes : List UInt8) : store out 0 bytes = bytes ++ out.drop bytes.length := by
  simp [store]

theorem store_append {written rest bytes : List UInt8} {offset : Nat} (h : written.length = offset) :
    store (written ++ rest) offset bytes = (written ++ bytes) ++ rest.drop bytes.length := by
  subst h
  simp [store, List.drop_append]

theorem length_slice {input : List UInt8} {offset k : Nat} (h : offset + k ≤ input.length) :
    (slice input offset k).length = k := by
  rw [slice, List.length_take, List.length_drop]
  omega

theorem take_eq_slice (input : List UInt8) (m k : Nat) :
    input.take (m + k) = input.take m ++ slice input m k := by
  rw [slice, List.take_add]

theorem slice_one {input : List UInt8} {i : Nat} (h : i < input.length) :
    slice input i 1 = [input.getD i 0] := by
  rw [slice, List.drop_eq_getElem_cons h, List.take_succ_cons, List.take_zero,
    List.getD_eq_getElem?_getD, List.getElem?_eq_getElem h, Option.getD_some]

/-- The bytes that are read as `v`. -/
theorem beToHost16_eq {bytes : List UInt8} {v : UInt16} (h : bytes.length = 2) :
    beToHost16 (UInt16.ofNat (toNumberLE bytes)) = v ↔ bytes = ofNumber 2 v.toNat := by
  have hload : (UInt16.ofNat (toNumberLE bytes)).toNat = toNumberLE bytes :=
    UInt16.toNat_ofNat_of_lt' ((toNumberLE_lt bytes).trans_eq (by rw [h]; rfl))
  rw [← UInt16.toNat_inj, beToHost16, hostToBe16_toNat, hload, swap_toNumberLE h]
  exact toNumber_eq_iff h v.toNat_lt

theorem beToHost32_eq {bytes : List UInt8} {v : UInt32} (h : bytes.length = 4) :
    beToHost32 (UInt32.ofNat (toNumberLE bytes)) = v ↔ bytes = ofNumber 4 v.toNat := by
  have hload : (UInt32.ofNat (toNumberLE bytes)).toNat = toNumberLE bytes :=
    UInt32.toNat_ofNat_of_lt' ((toNumberLE_lt bytes).trans_eq (by rw [h]; rfl))
  rw [← UInt32.toNat_inj, beToHost32, hostToBe32_toNat, hload, swap_toNumberLE h]
  exact toNumber_eq_iff h v.toNat_lt

theorem beToHost64_eq {bytes : List UInt8} {v : UInt64} (h : bytes.length = 8) :
    beToHost64 (UInt64.ofNat (toNumberLE bytes)) = v ↔ bytes = ofNumber 8 v.toNat := by
  have hload : (UInt64.ofNat (toNumberLE bytes)).toNat = toNumberLE bytes :=
    UInt64.toNat_ofNat_of_lt' ((toNumberLE_lt bytes).trans_eq (by rw [h]; rfl))
  rw [← UInt64.toNat_inj, beToHost64, hostToBe64_toNat, hload, swap_toNumberLE h]
  exact toNumber_eq_iff h v.toNat_lt

/-- The header is written in front of what follows it in the buffer. -/
theorem writeHeader_eq (out : List UInt8) (h : PacketHeader) :
    writeHeader out h = h.bytes ++ out.drop kHeaderSize := by
  unfold writeHeader
  simp only [hostToBe16_toNat, hostToBe32_toNat, hostToBe64_toNat, ofNumberLE_swap]
  rw [store_zero, store_append, store_append, store_append, store_append, store_append, store_append,
    store_append]
  · simp [PacketHeader.bytes, length_ofNumber, kHeaderSize]
  all_goals simp [length_ofNumber]

/-- A header is read where its numbers stand, and nothing else is checked than the length, the magic and
the length of the payload. -/
structure PacketHeader.ReadFrom (h : PacketHeader) (input : List UInt8) : Prop where
  length : kHeaderSize ≤ input.length
  isMagic : h.magic = kMagic
  payloadLen_le : h.payloadLen.toNat ≤ kMaxPayload
  magic : slice input 0 4 = ofNumber 4 h.magic.toNat
  type : slice input 4 1 = [h.type]
  userId : slice input 8 4 = ofNumber 4 h.userId.toNat
  sequence : slice input 12 4 = ofNumber 4 h.sequence.toNat
  timestamp : slice input 16 8 = ofNumber 8 h.timestamp.toNat
  payloadLen : slice input 24 2 = ofNumber 2 h.payloadLen.toNat

theorem readHeader_eq_some {input : List UInt8} {h₀ h : PacketHeader} :
    readHeader input h₀ = some h ↔
      h.ReadFrom input ∧ h.reserved = h₀.reserved ∧ h.reserved2 = h₀.reserved2 := by
  unfold readHeader
  by_cases hshort : input.length < kHeaderSize
  · rw [if_pos hshort]
    exact iff_of_false (by simp) fun hread => absurd hread.1.length (Nat.not_le.2 hshort)
  · rw [if_neg hshort]
    have hlength : 28 ≤ input.length := Nat.not_lt.1 hshort
    have htype : slice input 4 1 = [input.getD 4 0] := slice_one (by omega)
    have hslice (offset k : Nat) (h : offset + k ≤ 28) : (slice input offset k).length = k :=
      length_slice (h.trans hlength)
    constructor
    · intro hread
      dsimp only at hread
      split_ifs at hread with hmagic hlong
      obtain rfl := Option.some.inj hread
      exact ⟨⟨hlength, not_not.1 hmagic, Nat.not_lt.1 hlong,
        (beToHost32_eq (hslice 0 4 (by decide))).1 rfl, htype,
        (beToHost32_eq (hslice 8 4 (by decide))).1 rfl,
        (beToHost32_eq (hslice 12 4 (by decide))).1 rfl,
        (beToHost64_eq (hslice 16 8 (by decide))).1 rfl,
        (beToHost16_eq (hslice 24 2 (by decide))).1 rfl⟩, rfl, rfl⟩
    · rintro ⟨hread, hreserved, hreserved2⟩
      have htype' : input.getD 4 0 = h.type := List.singleton_inj.1 (htype.symm.trans hread.type)
      dsimp only
      rw [(beToHost32_eq (hslice 0 4 (by decide))).2 hread.magic,
        (beToHost32_eq (hslice 8 4 (by decide))).2 hread.userId,
        (beToHost32_eq (hslice 12 4 (by decide))).2 hread.sequence,
        (beToHost64_eq (hslice 16 8 (by decide))).2 hread.timestamp,
        (beToHost16_eq (hslice 24 2 (by decide))).2 hread.payloadLen, htype',
        if_neg (not_not.2 hread.isMagic), if_neg (Nat.not_lt.2 hread.payloadLen_le), ← hreserved,
        ← hreserved2]

/-- Every header is read from its bytes, whatever comes after them. -/
theorem PacketHeader.readFrom_bytes {h : PacketHeader} (rest : List UInt8) (hmagic : h.magic = kMagic)
    (hpayload : h.payloadLen.toNat ≤ kMaxPayload) : h.ReadFrom (h.bytes ++ rest) where
  length := by
    simp only [PacketHeader.bytes, List.length_append, List.length_cons, length_ofNumber, kHeaderSize]
    omega
  isMagic := hmagic
  payloadLen_le := hpayload
  magic := by simp [slice, PacketHeader.bytes, length_ofNumber]
  type := by simp [slice, PacketHeader.bytes, length_ofNumber]
  userId := by simp [slice, PacketHeader.bytes, List.drop_append, length_ofNumber, drop_ofNumber]
  sequence := by simp [slice, PacketHeader.bytes, List.drop_append, length_ofNumber, drop_ofNumber]
  timestamp := by simp [slice, PacketHeader.bytes, List.drop_append, length_ofNumber, drop_ofNumber]
  payloadLen := by simp [slice, PacketHeader.bytes, List.drop_append, length_ofNumber, drop_ofNumber]

/-- What is read from a buffer whose reserved bytes are zero are its bytes. -/
theorem PacketHeader.ReadFrom.bytes_eq {h : PacketHeader} {input : List UInt8} (hread : h.ReadFrom input)
    (hreserved : slice input 5 3 = [0, 0, 0]) (hreserved2 : slice input 26 2 = [0, 0]) :
    h.bytes = input.take kHeaderSize := by
  rw [kHeaderSize, take_eq_slice input 26 2, take_eq_slice input 24 2, take_eq_slice input 16 8,
    take_eq_slice input 12 4, take_eq_slice input 8 4, take_eq_slice input 5 3,
    take_eq_slice input 4 1, take_eq_slice input 0 4, hread.magic, hread.type, hreserved, hread.userId,
    hread.sequence, hread.timestamp, hread.payloadLen, hreserved2]
  simp [PacketHeader.bytes]

/-- What is written is read again, whatever comes after it; it has every number with its most significant
byte first; and a header that is read from bytes whose reserved ones are zero is written as it was. -/
theorem voiceHeader_codec :
    (∀ (out : List UInt8) (h h₀ : PacketHeader), kHeaderSize ≤ out.length → h.magic = kMagic →
      h.payloadLen.toNat ≤ kMaxPayload →
      readHeader (writeHeader out h) h₀ =
        some { h with reserved := h₀.reserved, reserved2 := h₀.reserved2 }) ∧
    (∀ (out : List UInt8) (h : PacketHeader), kHeaderSize ≤ out.length →
      writeHeader out h = ofNumber 4 h.magic.toNat ++ [h.type, 0, 0, 0] ++ ofNumber 4 h.userId.toNat ++
        ofNumber 4 h.sequence.toNat ++ ofNumber 8 h.timestamp.toNat ++
        ofNumber 2 h.payloadLen.toNat ++ [0, 0] ++ out.drop kHeaderSize) ∧
    (∀ (input out : List UInt8) (h h₀ : PacketHeader), kHeaderSize ≤ out.length →
      readHeader input h₀ = some h → slice input 5 3 = [0, 0, 0] → slice input 26 2 = [0, 0] →
      (writeHeader out h).take kHeaderSize = input.take kHeaderSize) := by
  refine ⟨fun out h h₀ _ hmagic hpayload => ?_, fun out h _ => writeHeader_eq out h,
    fun input out h h₀ _ hread hreserved hreserved2 => ?_⟩
  · rw [writeHeader_eq, readHeader_eq_some]
    have hbytes := h.readFrom_bytes (out.drop kHeaderSize) hmagic hpayload
    exact ⟨⟨hbytes.length, hbytes.isMagic, hbytes.payloadLen_le, hbytes.magic, hbytes.type,
      hbytes.userId, hbytes.sequence, hbytes.timestamp, hbytes.payloadLen⟩, rfl, rfl⟩
  · have hlength : h.bytes.length = kHeaderSize := by simp [PacketHeader.bytes, length_ofNumber, kHeaderSize]
    rw [writeHeader_eq, ← hlength, List.take_left, hlength]
    exact (readHeader_eq_some.1 hread).1.bytes_eq hreserved hreserved2

theorem voiceHeader_codec_join :
    readHeader (writeHeader (List.replicate 34 9) { type := 1, userId := 10001, payloadLen := 6 }) =
        some { type := 1, userId := 10001, payloadLen := 6 } ∧
      (writeHeader (List.replicate 28 0) { type := 1, userId := 10001, payloadLen := 6 }).take 28 =
        (writeHeader (List.replicate 34 9) { type := 1, userId := 10001, payloadLen := 6 }).take 28 := by
  obtain ⟨hread, -, hwrite⟩ := voiceHeader_codec
  have hjoin := hread (List.replicate 34 9) { type := 1, userId := 10001, payloadLen := 6 } {}
    (by decide) rfl (by decide)
  exact ⟨hjoin, hwrite _ (List.replicate 28 0) _ {} (by decide) hjoin (by decide +kernel)
    (by decide +kernel)⟩

end Guandan.Voice
