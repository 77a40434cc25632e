import Guandan.Library.ByteOrder
import Guandan.Library.Pieces
import Guandan.Library.Rounds

/-!
# Frames on a connection

`readWebSocketMessage` and the loop of a connection (`websocket_server.cpp`), and
`sendWebSocketFrame` (`connection_manager.cpp`), over bytes that arrive in pieces. A `Frame` is what
the protocol calls one; the server writes some of these, and the client the masked ones.
-/

namespace Guandan.WebSocket

open Pieces Bytes Round

/-! ### Reading -/

structure FrameHeader where
  masked : Bool
  payloadLen : Nat
  mask : List UInt8
  deriving DecidableEq, Repr

/-- The length behind the second byte, if there is one; -/
def readLength (short : Nat) (s : Pieces UInt8) : Option (Nat × Pieces UInt8) :=
  if short = 126 then (recvExact 2 s).map fun r => (toNumber r.1, r.2)
  else if short = 127 then (recvExact 8 s).map fun r => (toNumber r.1, r.2)
  else some (short, s)

def readMask (masked : Bool) (s : Pieces UInt8) : Option (List UInt8 × Pieces UInt8) :=
  if masked then recvExact 4 s else some (List.replicate 4 0, s)

def readHeader (s : Pieces UInt8) : Option (FrameHeader × Pieces UInt8) := do
  let (header, s) ← recvExact 2 s
  let second := header.getD 1 0
  let masked := (second &&& 0x80) != 0
  let (payloadLen, s) ← readLength (second &&& 0x7F).toNat s
  let (mask, s) ← readMask masked s
  return ({ masked := masked, payloadLen := payloadLen, mask := mask }, s)

/-- What a call of `readWebSocketMessage` comes to. -/
inductive Received
  | message (bytes : List UInt8) (rest : Pieces UInt8)
  /-- It answers `false`, and the connection is closed. -/
  | dropped
  /-- `resize` throws `std::length_error`. -/
  | thrown
  /-- A payload of `2 ^ 31` bytes is asked for as a negative number, and what arrives may be written
  past the end of the message. -/
  | overrun
  deriving DecidableEq, Repr

/-- `maxSize` is the `max_size` of a string. -/
def readWebSocketMessage (maxSize : Nat) (s : Pieces UInt8) : Received :=
  match readHeader s with
  | none => .dropped
  | some (header, s) =>
    if maxSize < header.payloadLen then .thrown
    else if 2 ^ 31 ≤ header.payloadLen then .overrun
    else match recvAll header.payloadLen s with
      | none => .dropped
      | some (message, s) =>
        .message (if header.masked then xorMask header.mask message else message) s

/-- The messages handed on so far, and the bytes still to be read. -/
structure Connection where
  incoming : Pieces UInt8
  messages : List (List UInt8) := []
  deriving DecidableEq, Repr

/-- One round of the loop of a connection. -/
def connectionRound (maxSize : Nat) (c : Connection) : Round Connection (List (List UInt8)) :=
  match readWebSocketMessage maxSize c.incoming with
  | .message message rest => .again { incoming := rest, messages := c.messages ++ [message] }
  | _ => .done c.messages

/-! ### Writing -/

def webSocketFrame (message : List UInt8) : List UInt8 :=
  0x81 :: (if message.length ≤ 125 then [UInt8.ofNat message.length]
    else if message.length ≤ 65535 then 126 :: ofNumber 2 message.length
    else 127 :: ofNumber 8 message.length) ++ message

/-! ### Frames -/

/-- How long the length of a payload is written. -/
inductive LengthForm
  | seven | sixteen | sixtyFour
  deriving DecidableEq, Repr

namespace LengthForm

/-- The bytes behind the first two. -/
def width : LengthForm → Nat
  | seven => 0
  | sixteen => 2
  | sixtyFour => 8

def limit : LengthForm → Nat
  | seven => 126
  | sixteen => 2 ^ 16
  | sixtyFour => 2 ^ 64

def code (n : Nat) : LengthForm → Nat
  | seven => n
  | sixteen => 126
  | sixtyFour => 127

end LengthForm

structure Frame where
  first : UInt8
  form : LengthForm
  mask : Option (List UInt8)
  payload : List UInt8
  fits : payload.length < form.limit
  mask_length : ∀ bytes, mask = some bytes → bytes.length = 4

namespace Frame

/-- The bytes of a frame, its payload masked where it has a mask. -/
def encode (f : Frame) : List UInt8 :=
  f.first :: ((if f.mask.isSome then 0x80 else 0) ||| UInt8.ofNat (f.form.code f.payload.length)) ::
    (ofNumber f.form.width f.payload.length ++ f.mask.getD [] ++
      (f.mask.elim f.payload fun mask => xorMask mask f.payload))

def maskWidth (f : Frame) : Nat := if f.mask.isSome then 4 else 0

def headerLength (f : Frame) : Nat := 2 + f.form.width + f.maskWidth

def length (f : Frame) : Nat := f.headerLength + f.payload.length

/-- A cut behind `i` bytes falls into the first two, the length or the mask. -/
def Inside (f : Frame) (i : Nat) : Prop :=
  0 < i ∧ i < 2 ∨ 2 < i ∧ i < 2 + f.form.width ∨
    2 + f.form.width < i ∧ i < f.headerLength

/-- What the reader makes of the header. -/
def header (f : Frame) : FrameHeader where
  masked := f.mask.isSome
  payloadLen := f.payload.length
  mask := f.mask.getD (List.replicate 4 0)

end Frame

/-! ### Reading a frame -/

section Reading

variable {f : Frame} {s : Pieces UInt8} {rest : List UInt8}

/-- The second byte holds the bit of the mask and seven bits of the length. -/
theorem second_byte : ∀ (masked : Bool) (n : Nat), n < 128 →
    (((if masked then 0x80 else 0) ||| UInt8.ofNat n) &&& (0x80 : UInt8) != 0) = masked ∧
      (((if masked then 0x80 else 0) ||| UInt8.ofNat n) &&& (0x7F : UInt8)).toNat = n := by
  decide

theorem code_lt (f : Frame) : f.form.code f.payload.length < 128 := by
  have hfits := f.fits
  rcases hform : f.form with _ | _ | _ <;> rw [hform, LengthForm.limit] at hfits <;>
    rw [LengthForm.code]
  · omega
  · decide
  · decide

/-- The longer forms are read behind the first two bytes. -/
theorem readLength_code (form : LengthForm) (n : Nat) (hfits : n < form.limit) :
    readLength (form.code n) s =
      if form = .seven then some (n, s)
      else (recvExact form.width s).map fun r => (toNumber r.1, r.2) := by
  cases form with
  | seven =>
    have hlt : n < 126 := hfits
    rw [LengthForm.code, readLength, if_neg (by omega), if_neg (by omega), if_pos rfl]
  | sixteen => rfl
  | sixtyFour => rfl

theorem readLength_uncut (hs : Proper s)
    (h : s.flatten = ofNumber f.form.width f.payload.length ++ rest)
    (huncut : Uncut f.form.width s) :
    readLength (f.form.code f.payload.length) s =
      some (f.payload.length, advance f.form.width s) := by
  rw [readLength_code _ _ f.fits]
  split_ifs with hform
  · rw [hform, LengthForm.width, advance_zero hs]
  · have hpow : f.payload.length < 256 ^ f.form.width := by
      refine Nat.lt_of_lt_of_le f.fits ?_
      rcases hcases : f.form with _ | _ | _
      · exact absurd hcases hform
      · decide
      · decide
    rw [recvExact_front hs h (length_ofNumber _ _) huncut, Option.map_some,
      toNumber_ofNumber hpow]

theorem readLength_cut (hs : Proper s) (hcut : ¬ Uncut f.form.width s) :
    readLength (f.form.code f.payload.length) s = none := by
  rw [readLength_code _ _ f.fits]
  split_ifs with hform
  · refine absurd (fun i hpos hlt => ?_) hcut
    rw [hform] at hlt
    exact absurd hlt (Nat.not_lt_zero i)
  · rw [recvExact_eq_none hs hcut, Option.map_none]

theorem readMask_uncut (hs : Proper s) (h : s.flatten = f.mask.getD [] ++ rest)
    (huncut : Uncut f.maskWidth s) :
    readMask f.mask.isSome s = some (f.header.mask, advance f.maskWidth s) := by
  rcases hmask : f.mask with _ | bytes
  · rw [Frame.maskWidth, Frame.header, hmask]
    exact congrArg (fun s => some (List.replicate 4 0, s)) (advance_zero hs).symm
  · have hlength := f.mask_length bytes hmask
    rw [Frame.maskWidth, hmask] at huncut
    rw [hmask] at h
    rw [Frame.maskWidth, Frame.header, hmask]
    exact recvExact_front hs h hlength huncut

theorem readMask_cut (hs : Proper s) (hcut : ¬ Uncut f.maskWidth s) :
    readMask f.mask.isSome s = none := by
  rw [Frame.maskWidth] at hcut
  split_ifs at hcut with hmask
  · rw [hmask]
    exact recvExact_eq_none hs hcut
  · exact absurd (fun i _ hlt => absurd hlt (Nat.not_lt_zero i)) hcut

/-- No cut falls into the first two bytes, the length or the mask. -/
def HeaderUncut (f : Frame) (s : Pieces UInt8) : Prop :=
  Uncut 2 s ∧ Uncut f.form.width (advance 2 s) ∧
    Uncut f.maskWidth (advance (2 + f.form.width) s)

theorem headerUncut_iff : HeaderUncut f s ↔ ∀ i, Cut s i → ¬ f.Inside i := by
  rw [HeaderUncut, Uncut, uncut_advance, uncut_advance]
  simp only [Frame.Inside, Frame.headerLength]
  constructor
  · rintro ⟨htwo, hlength, hmask⟩ i hcut (h | h | h)
    · exact htwo i h.1 h.2 hcut
    · exact hlength i h.1 h.2 hcut
    · exact hmask i h.1 h.2 hcut
  · intro h
    exact ⟨fun i hlow hhigh hcut => h i hcut (.inl ⟨hlow, hhigh⟩),
      fun i hlow hhigh hcut => h i hcut (.inr (.inl ⟨hlow, hhigh⟩)),
      fun i hlow hhigh hcut => h i hcut (.inr (.inr ⟨hlow, hhigh⟩))⟩

/-- The payload as it is sent. -/
def Frame.body (f : Frame) : List UInt8 := f.mask.elim f.payload fun mask => xorMask mask f.payload

theorem encode_eq (f : Frame) : f.encode =
    [f.first, (if f.mask.isSome then 0x80 else 0) ||| UInt8.ofNat (f.form.code f.payload.length)] ++
      (ofNumber f.form.width f.payload.length ++ (f.mask.getD [] ++ f.body)) := by
  rw [Frame.encode, List.append_assoc]
  rfl

theorem length_mask (f : Frame) : (f.mask.getD []).length = f.maskWidth := by
  rw [Frame.maskWidth]
  rcases hbytes : f.mask with _ | bytes
  · rfl
  · exact f.mask_length bytes hbytes

/-- What is left of a frame behind its first two bytes, its length and its mask. -/
theorem frame_parts (h : s.flatten = f.encode ++ rest) :
    s.flatten = [f.first, (if f.mask.isSome then 0x80 else 0) |||
        UInt8.ofNat (f.form.code f.payload.length)] ++ (advance 2 s).flatten ∧
      (advance 2 s).flatten =
        ofNumber f.form.width f.payload.length ++ (advance (2 + f.form.width) s).flatten ∧
      (advance (2 + f.form.width) s).flatten =
        f.mask.getD [] ++ (advance f.headerLength s).flatten ∧
      (advance f.headerLength s).flatten = f.body ++ rest := by
  rw [encode_eq, List.append_assoc, List.append_assoc, List.append_assoc] at h
  have htwo := flatten_advance_front (n := 2) h rfl
  have hlength := flatten_advance_front htwo (length_ofNumber _ _)
  rw [advance_advance] at hlength
  have hmask := flatten_advance_front hlength (length_mask f)
  rw [advance_advance] at hmask
  rw [htwo, hlength, Frame.headerLength, hmask]
  exact ⟨h, rfl, rfl, rfl⟩

theorem readHeader_uncut (hs : Proper s) (h : s.flatten = f.encode ++ rest)
    (huncut : HeaderUncut f s) : readHeader s = some (f.header, advance f.headerLength s) := by
  obtain ⟨htwo, hlength, hmask⟩ := huncut
  obtain ⟨hfirst, hsecond, hthird, -⟩ := frame_parts h
  obtain ⟨hbit, hcode⟩ := second_byte f.mask.isSome _ (code_lt f)
  rw [readHeader, recvExact_front (n := 2) hs hfirst rfl htwo]
  simp only [Option.bind_eq_bind, Option.bind_some, List.getD_cons_succ, List.getD_cons_zero]
  rw [hbit, hcode, readLength_uncut (hs.advance 2) hsecond hlength]
  simp only [Option.bind_some]
  rw [advance_advance, readMask_uncut (hs.advance _) hthird hmask]
  simp only [Option.bind_some, advance_advance]
  rfl

theorem readHeader_cut (hs : Proper s) (h : s.flatten = f.encode ++ rest)
    (hcut : ¬ HeaderUncut f s) : readHeader s = none := by
  obtain ⟨hfirst, hsecond, -, -⟩ := frame_parts h
  obtain ⟨hbit, hcode⟩ := second_byte f.mask.isSome _ (code_lt f)
  rw [readHeader]
  by_cases htwo : Uncut 2 s
  · rw [recvExact_front (n := 2) hs hfirst rfl htwo]
    simp only [Option.bind_eq_bind, Option.bind_some, List.getD_cons_succ, List.getD_cons_zero]
    rw [hbit, hcode]
    by_cases hlength : Uncut f.form.width (advance 2 s)
    · rw [readLength_uncut (hs.advance 2) hsecond hlength]
      simp only [Option.bind_some]
      rw [advance_advance, readMask_cut (hs.advance _) fun hmask => hcut ⟨htwo, hlength, hmask⟩,
        Option.bind_none]
    · rw [readLength_cut (hs.advance 2) hlength, Option.bind_none]
  · rw [recvExact_eq_none hs htwo]
    rfl

theorem length_body (f : Frame) : f.body.length = f.payload.length := by
  rw [Frame.body]
  rcases f.mask with _ | mask
  · rfl
  · exact length_xorMask ..

theorem unmask_body (f : Frame) :
    (if f.header.masked then xorMask f.header.mask f.body else f.body) = f.payload := by
  rw [Frame.header, Frame.body]
  rcases f.mask with _ | mask
  · rfl
  · exact xorMask_xorMask ..

variable {maxSize : Nat}

/-- A frame is read where no cut falls into its header, whatever happens to its payload. -/
theorem readWebSocketMessage_uncut (hs : Proper s) (h : s.flatten = f.encode ++ rest)
    (huncut : HeaderUncut f s) (hshort : f.payload.length < 2 ^ 31) (hmax : 2 ^ 31 ≤ maxSize) :
    readWebSocketMessage maxSize s = .message f.payload (advance f.length s) ∧
      (advance f.length s).flatten = rest := by
  obtain ⟨-, -, -, hbody⟩ := frame_parts h
  have hsize : ¬ maxSize < f.header.payloadLen :=
    Nat.not_lt.2 (Nat.le_trans (Nat.le_of_lt hshort) hmax)
  have hcast : ¬ 2 ^ 31 ≤ f.header.payloadLen := Nat.not_le.2 hshort
  have hall := recvAll_front (hs.advance _) hbody (length_body f)
  have hrest := flatten_advance_front hbody (length_body f)
  rw [advance_advance] at hall hrest
  refine ⟨?_, hrest⟩
  rw [readWebSocketMessage, readHeader_uncut hs h huncut]
  simp only [if_neg hsize, if_neg hcast]
  have hpayload : f.header.payloadLen = f.payload.length := rfl
  rw [hpayload, hall]
  simp only [unmask_body]
  rfl

theorem readWebSocketMessage_cut (hs : Proper s) (h : s.flatten = f.encode ++ rest)
    (hcut : ¬ HeaderUncut f s) : readWebSocketMessage maxSize s = .dropped := by
  rw [readWebSocketMessage, readHeader_cut hs h hcut]

end Reading

/-! ### Frames that come whole -/

section Whole

variable {f : Frame} {maxSize : Nat}

theorem length_encode (f : Frame) : f.encode.length = f.length := by
  rw [encode_eq, List.length_append, List.length_append, List.length_append, length_ofNumber,
    length_mask, length_body, Frame.length, Frame.headerLength]
  simp only [List.length_cons, List.length_nil]
  omega

theorem proper_whole (f : Frame) : Proper [f.encode] := by
  intro piece hpiece
  rw [List.mem_singleton.1 hpiece]
  exact List.cons_ne_nil _ _

theorem headerUncut_whole (f : Frame) : HeaderUncut f [f.encode] := by
  rw [headerUncut_iff]
  intro i hcut hinside
  have hlt : 0 < i ∧ i < f.length := by
    rw [Frame.length, Frame.headerLength]
    rw [Frame.Inside, Frame.headerLength] at hinside
    omega
  rcases cut_cons.1 hcut with hzero | ⟨hle, -⟩
  · omega
  · rw [length_encode] at hle
    omega

theorem read_whole (hshort : f.payload.length < 2 ^ 31) (hmax : 2 ^ 31 ≤ maxSize) :
    readWebSocketMessage maxSize [f.encode] = .message f.payload [] := by
  have hbytes : [f.encode].flatten = f.encode ++ [] := by simp
  obtain ⟨hread, -⟩ := readWebSocketMessage_uncut (proper_whole f) hbytes (headerUncut_whole f)
    hshort hmax
  have hrest : Proper ([] : Pieces UInt8) := by simp [Proper]
  rw [hread, advance_of_le hrest (length_encode f)]

end Whole

/-- The form that the server writes a length in. -/
def LengthForm.shortest (n : Nat) : LengthForm :=
  if n ≤ 125 then .seven else if n ≤ 65535 then .sixteen else .sixtyFour

theorem LengthForm.lt_limit_shortest {n : Nat} (h : n < 2 ^ 64) : n < (shortest n).limit := by
  rw [shortest]
  split_ifs with hseven hsixteen
  · exact Nat.lt_succ_of_le hseven
  · exact Nat.lt_succ_of_le hsixteen
  · exact h

/-- The frame that `sendWebSocketFrame` sends. -/
def serverFrame (message : List UInt8) (h : message.length < 2 ^ 64) : Frame where
  first := 0x81
  form := .shortest message.length
  mask := none
  payload := message
  fits := LengthForm.lt_limit_shortest h
  mask_length := by simp

theorem encode_unmasked {f : Frame} (hmask : f.mask = none) :
    f.encode = f.first :: UInt8.ofNat (f.form.code f.payload.length) ::
      (ofNumber f.form.width f.payload.length ++ f.payload) := by
  rw [Frame.encode, hmask, List.append_assoc]
  simp only [Option.isSome_none, Bool.false_eq_true, if_false, UInt8.zero_or]
  rfl

theorem webSocketFrame_eq (message : List UInt8) (h : message.length < 2 ^ 64) :
    webSocketFrame message = (serverFrame message h).encode := by
  have hencode : (serverFrame message h).encode =
      0x81 :: UInt8.ofNat ((LengthForm.shortest message.length).code message.length) ::
        (ofNumber (LengthForm.shortest message.length).width message.length ++ message) :=
    encode_unmasked rfl
  rw [hencode, webSocketFrame, LengthForm.shortest]
  split_ifs <;> rfl

/-- A message that the server sends is read as it was, and so is the payload that a client masked. -/
theorem frame_roundtrip {maxSize : Nat} (hmax : 2 ^ 31 ≤ maxSize) :
    (∀ message : List UInt8, message.length < 2 ^ 31 →
      readWebSocketMessage maxSize [webSocketFrame message] = .message message []) ∧
    ∀ f : Frame, f.mask.isSome = true →
      (∃ rest, readHeader [f.encode] = some (f.header, rest) ∧ rest.flatten = f.body) ∧
        xorMask f.header.mask f.body = f.payload ∧
        (f.payload.length < 2 ^ 31 →
          readWebSocketMessage maxSize [f.encode] = .message f.payload []) := by
  refine ⟨fun message hshort => ?_, fun f hmask => ⟨?_, ?_, fun hshort => read_whole hshort hmax⟩⟩
  · rw [webSocketFrame_eq message (by omega)]
    exact read_whole (f := serverFrame message (by omega)) hshort hmax
  · have hbytes : [f.encode].flatten = f.encode ++ [] := by simp
    obtain ⟨-, -, -, hbody⟩ := frame_parts hbytes
    rw [List.append_nil] at hbody
    exact ⟨_, readHeader_uncut (proper_whole f) hbytes (headerUncut_whole f), hbody⟩
  · have hbody := unmask_body f
    have hmasked : f.header.masked = true := hmask
    rwa [if_pos hmasked] at hbody

/-- The text `Hi`, masked. -/
def maskedHi : Frame where
  first := 0x81
  form := .seven
  mask := some [1, 2, 3, 4]
  payload := [0x48, 0x69]
  fits := by decide
  mask_length := by simp

theorem frame_roundtrip_hi :
    readWebSocketMessage (2 ^ 63 - 1) [webSocketFrame [0x48, 0x69]] = .message [0x48, 0x69] [] ∧
      readWebSocketMessage (2 ^ 63 - 1) [maskedHi.encode] = .message [0x48, 0x69] [] :=
  ⟨(frame_roundtrip (by decide)).1 _ (by decide),
    ((frame_roundtrip (by decide)).2 maskedHi rfl).2.2 (by decide)⟩

/-! ### A connection -/

/-- A cut behind `i` bytes falls into the header of one of the frames. -/
def InsideHeader : List Frame → Nat → Prop
  | [], _ => False
  | f :: frames, i => f.Inside i ∨ f.length < i ∧ InsideHeader frames (i - f.length)

section Run

variable {frames : List Frame} {s : Pieces UInt8} {maxSize : Nat}

theorem not_insideHeader_zero (frames : List Frame) : ¬ InsideHeader frames 0 := by
  cases frames with
  | nil => exact id
  | cons f frames =>
    rintro (h | ⟨h, -⟩)
    · rw [Frame.Inside] at h
      omega
    · exact absurd h (Nat.not_lt_zero _)

/-- The cuts into headers are those into the first header and those into the headers behind it. -/
theorem insideHeader_cons (f : Frame) (frames : List Frame) :
    (∀ i, Cut s i → ¬ InsideHeader (f :: frames) i) ↔
      HeaderUncut f s ∧ ∀ i, Cut (advance f.length s) i → ¬ InsideHeader frames i := by
  rw [headerUncut_iff]
  constructor
  · intro h
    refine ⟨fun i hcut hinside => h i hcut (.inl hinside), fun i hcut hinside => ?_⟩
    have hpos : 0 < i := by
      rcases Nat.eq_zero_or_pos i with rfl | hpos
      · exact absurd hinside (not_insideHeader_zero frames)
      · exact hpos
    refine h (f.length + i) ((cut_advance hpos).1 hcut) (.inr ⟨by omega, ?_⟩)
    rwa [Nat.add_sub_cancel_left]
  · rintro ⟨hfirst, hrest⟩ i hcut (hinside | ⟨hlt, hinside⟩)
    · exact hfirst i hcut hinside
    · refine hrest (i - f.length) ((cut_advance (Nat.sub_pos_of_lt hlt)).2 ?_) hinside
      rwa [Nat.add_sub_cancel' (Nat.le_of_lt hlt)]

theorem connection_ends {messages : List (List UInt8)} (hs : Proper s)
    (hbytes : s.flatten = frames.flatMap Frame.encode)
    (hshort : ∀ f ∈ frames, f.payload.length < 2 ^ 31) (hmax : 2 ^ 31 ≤ maxSize) :
    Ends (connectionRound maxSize) { incoming := s, messages := messages }
        (messages ++ frames.map (·.payload)) ↔ ∀ i, Cut s i → ¬ InsideHeader frames i := by
  induction frames generalizing s messages with
  | nil =>
    have hend : recvExact 2 s = none := recvExact_eq_none_of_lt (by rw [hbytes]; decide)
    have hround : connectionRound maxSize { incoming := s, messages := messages } =
        .done messages := by
      rw [connectionRound, readWebSocketMessage, readHeader, hend]
      rfl
    rw [ends_done hround]
    exact iff_of_true (List.append_nil _) fun _ _ => id
  | cons f frames ih =>
    rw [List.flatMap_cons] at hbytes
    rw [insideHeader_cons]
    by_cases huncut : HeaderUncut f s
    · obtain ⟨hread, hrest⟩ := readWebSocketMessage_uncut hs hbytes huncut
        (hshort f (List.mem_cons_self ..)) hmax
      have hround : connectionRound maxSize { incoming := s, messages := messages } =
          .again { incoming := advance f.length s, messages := messages ++ [f.payload] } := by
        rw [connectionRound, hread]
      rw [ends_again hround, and_iff_right huncut, ← ih (hs.advance _) hrest
        (fun g hg => hshort g (List.mem_cons_of_mem _ hg)), List.append_assoc]
      rfl
    · have hround : connectionRound maxSize { incoming := s, messages := messages } =
          .done messages := by
        rw [connectionRound, readWebSocketMessage_cut hs hbytes huncut]
      rw [ends_done hround]
      refine iff_of_false (fun h => ?_) fun h => huncut h.1
      have hlength := congrArg List.length h
      rw [List.length_append, List.map_cons, List.length_cons] at hlength
      omega

/-- However the bytes of whole frames arrive, the messages handed on are their payloads exactly where
no call answers with a part of a header only. -/
theorem messages_iff_uncut (frames : List Frame) (hs : Proper s)
    (hbytes : s.flatten = frames.flatMap Frame.encode)
    (hshort : ∀ f ∈ frames, f.payload.length < 2 ^ 31) (hmax : 2 ^ 31 ≤ maxSize) :
    Ends (connectionRound maxSize) { incoming := s } (frames.map (·.payload)) ↔
      ∀ i, Cut s i → ¬ InsideHeader frames i :=
  connection_ends hs hbytes hshort hmax

end Run

/-- Two frames, the payload of the first in two pieces. -/
theorem messages_iff_uncut_hi :
    Ends (connectionRound (2 ^ 63 - 1))
      { incoming := [maskedHi.encode.take 7, maskedHi.encode.drop 7 ++ maskedHi.encode] }
      [[0x48, 0x69], [0x48, 0x69]] := by
  refine (messages_iff_uncut [maskedHi, maskedHi] ?_ (by decide) ?_ (by decide)).2 ?_
  · intro piece hpiece
    rcases List.mem_pair.1 hpiece with rfl | rfl <;> decide
  · intro f hf
    rcases List.mem_pair.1 hf with rfl | rfl <;> decide
  · intro i hcut
    have hi : i = 0 ∨ i = 7 ∨ i = 16 := by
      rcases cut_cons.1 hcut with h | ⟨hfirst, hcut⟩
      · exact .inl h
      change 7 ≤ i at hfirst
      change Cut _ (i - 7) at hcut
      rcases cut_cons.1 hcut with h | ⟨hsecond, hcut⟩
      · omega
      change 9 ≤ i - 7 at hsecond
      change Cut _ (i - 7 - 9) at hcut
      rw [cut_nil] at hcut
      omega
    rcases hi with rfl | rfl | rfl
    · exact not_insideHeader_zero _
    all_goals
      simp [InsideHeader, Frame.Inside, Frame.length, Frame.headerLength, Frame.maskWidth, maskedHi,
        LengthForm.width]

/-- A frame whose first byte arrives alone is the end of the connection. -/
theorem header_cut : ∃ (f : Frame) (s : Pieces UInt8), f.mask.isSome = true ∧ Proper s ∧
    s.flatten = f.encode ∧ ¬ Ends (connectionRound (2 ^ 63 - 1)) { incoming := s } [f.payload] := by
  refine ⟨maskedHi, [[0x81], maskedHi.encode.tail], rfl, ?_, by decide, fun h => ?_⟩
  · intro piece hpiece
    rcases List.mem_pair.1 hpiece with rfl | rfl <;> decide
  · have hnone : Ends (connectionRound (2 ^ 63 - 1))
        { incoming := [[0x81], maskedHi.encode.tail] } [] := ⟨1, by decide⟩
    cases h.unique hnone

end Guandan.WebSocket
