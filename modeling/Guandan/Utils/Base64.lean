import Guandan.Auth.AuthService
import Guandan.Library.Base64
import Mathlib.Data.List.DropRight

/-!
# Base64 of the server

`base64Encode` and `base64Decode` (`sha1.cpp`), `base64UrlEncode` (`hmac_sha256.cpp`). The accumulator is an
`int` that wraps; nothing is masked out of it, so after a few characters only its low bits mean anything.
-/

namespace Guandan

def base64Chars : List Char :=
  "ABCDEFGHIJKLMNOPQRSTUVWXYZabcdefghijklmnopqrstuvwxyz0123456789+/".toList

/-- `(val >> shift) & mask`. -/
def shiftedBits (val : BitVec 32) (shift : Int) (mask : BitVec 32) : Nat :=
  (val.sshiftRight shift.toNat &&& mask).toNat

/-- The sign does not reach the bits that are kept. -/
theorem shiftedBits_eq {val mask : BitVec 32} {shift k : Nat} (hmask : mask.toNat = 2 ^ k - 1)
    (h : shift + k ≤ 32) : shiftedBits val shift mask = val.toNat / 2 ^ shift % 2 ^ k := by
  rw [shiftedBits, Int.toNat_natCast, BitVec.toNat_and, hmask, Nat.and_two_pow_sub_one_eq_mod]
  apply Nat.eq_of_testBit_eq
  intro i
  rw [Nat.testBit_mod_two_pow, Nat.testBit_mod_two_pow, Nat.testBit_div_two_pow]
  by_cases hi : i < k
  · have hbit : shift + i < 32 := by omega
    have hsigned := BitVec.getLsbD_sshiftRight val shift i
    rw [if_pos hbit] at hsigned
    simp only [BitVec.getLsbD] at hsigned
    have hi32 : ¬ 32 ≤ i := by omega
    simp [hi, hsigned, hi32, Nat.add_comm]
  · simp [hi]

/-! ### Encoding -/

/-- The variables of the loop of the encoders. -/
structure EncodeState where
  val : BitVec 32 := 0
  valb : Int := -6
  out : List Char := []

/-- `while (valb >= 0)`. -/
def EncodeState.emit (s : EncodeState) : EncodeState :=
  if 0 ≤ s.valb then
    EncodeState.emit { s with
      valb := s.valb - 6
      out := s.out ++ [base64Chars.getD (shiftedBits s.val s.valb 0x3F) '='] }
  else s
termination_by (s.valb + 6).toNat

def EncodeState.byte (s : EncodeState) (c : UInt8) : EncodeState :=
  { s with val := s.val <<< 8 + BitVec.ofNat 32 c.toNat, valb := s.valb + 8 }.emit

/-- What is written behind the loop, when bits are left. -/
def EncodeState.last (s : EncodeState) : List Char :=
  if -6 < s.valb then
    s.out ++ [base64Chars.getD (shiftedBits (s.val <<< 8) (s.valb + 8) 0x3F) '=']
  else s.out

/-- How both encoders begin. -/
def encodeChars (data : List UInt8) : List Char := (data.foldl EncodeState.byte {}).last

/-- `while (out.size() % 4) out.push_back('=')`. -/
def padOut (out : List Char) : List Char :=
  if out.length % 4 = 0 then out else padOut (out ++ ['='])
termination_by (4 - out.length % 4) % 4
decreasing_by simp only [List.length_append, List.length_singleton]; omega

def base64Encode (data : List UInt8) : List Char := padOut (encodeChars data)

def urlChar (ch : Char) : Char := if ch = '+' then '-' else if ch = '/' then '_' else ch

/-- `while (!out.empty() && out.back() == '=') out.pop_back()`. -/
def unpad (out : List Char) : List Char := out.rdropWhile (· == '=')

def base64UrlEncode (data : List UInt8) : List Char := unpad ((encodeChars data).map urlChar)

/-! ### Decoding -/

def base64Table : List Int := [
  -1,-1,-1,-1,-1,-1,-1,-1,-1,-1,-1,-1,-1,-1,-1,-1,
  -1,-1,-1,-1,-1,-1,-1,-1,-1,-1,-1,-1,-1,-1,-1,-1,
  -1,-1,-1,-1,-1,-1,-1,-1,-1,-1,-1,62,-1,-1,-1,63,
  52,53,54,55,56,57,58,59,60,61,-1,-1,-1,-1,-1,-1,
  -1, 0, 1, 2, 3, 4, 5, 6, 7, 8, 9,10,11,12,13,14,
  15,16,17,18,19,20,21,22,23,24,25,-1,-1,-1,-1,-1,
  -1,26,27,28,29,30,31,32,33,34,35,36,37,38,39,40,
  41,42,43,44,45,46,47,48,49,50,51,-1,-1,-1,-1,-1,
  -1,-1,-1,-1,-1,-1,-1,-1,-1,-1,-1,-1,-1,-1,-1,-1,
  -1,-1,-1,-1,-1,-1,-1,-1,-1,-1,-1,-1,-1,-1,-1,-1,
  -1,-1,-1,-1,-1,-1,-1,-1,-1,-1,-1,-1,-1,-1,-1,-1,
  -1,-1,-1,-1,-1,-1,-1,-1,-1,-1,-1,-1,-1,-1,-1,-1,
  -1,-1,-1,-1,-1,-1,-1,-1,-1,-1,-1,-1,-1,-1,-1,-1,
  -1,-1,-1,-1,-1,-1,-1,-1,-1,-1,-1,-1,-1,-1,-1,-1,
  -1,-1,-1,-1,-1,-1,-1,-1,-1,-1,-1,-1,-1,-1,-1,-1,
  -1,-1,-1,-1,-1,-1,-1,-1,-1,-1,-1,-1,-1,-1,-1,-1]

/-- The variables of the loop of `base64Decode`. -/
structure DecodeState where
  val : BitVec 32 := 0
  valb : Int := -8
  out : List UInt8 := []

def DecodeState.sextet (s : DecodeState) (decoded : Int) : DecodeState :=
  let s := { s with val := s.val <<< 6 + BitVec.ofInt 32 decoded, valb := s.valb + 6 }
  if 0 ≤ s.valb then
    { s with valb := s.valb - 8, out := s.out ++ [UInt8.ofNat (shiftedBits s.val s.valb 0xFF)] }
  else s

/-- A character beyond the table is bytes that are all without an entry. -/
def DecodeState.char (s : DecodeState) (c : Char) : DecodeState :=
  if isSpace c || c == '=' then s
  else
    let decoded := base64Table.getD c.toNat (-1)
    if decoded < 0 then s else s.sextet decoded

def base64Decode (encoded : List Char) : List UInt8 := (encoded.foldl DecodeState.char {}).out

/-! ### The encoder -/

theorem base64Chars_getD {n : Nat} (h : n < 64) : base64Chars.getD n '=' = Base64.char n := by
  have hall : ∀ n < 64, base64Chars.getD n '=' = Base64.char n := by decide +kernel
  exact hall n h

/-- The character for six bits of the accumulator. -/
theorem base64Chars_shiftedBits {val : BitVec 32} {shift : Nat} (h : shift ≤ 26) :
    base64Chars.getD (shiftedBits val shift 0x3F) '=' = Base64.char (val.toNat / 2 ^ shift % 64) := by
  rw [shiftedBits_eq (k := 6) rfl (by omega)]
  exact base64Chars_getD (Nat.mod_lt _ (by decide))

namespace EncodeState

variable (val : BitVec 32) (out : List Char) (a b c : UInt8)

theorem emit_of_neg {valb : Int} (h : valb < 0) : emit ⟨val, valb, out⟩ = ⟨val, valb, out⟩ := by
  rw [emit, if_neg (Int.not_le.2 h)]

theorem emit_of_nonneg {shift : Nat} (h : shift ≤ 26) : emit ⟨val, shift, out⟩ =
    emit ⟨val, shift - 6, out ++ [Base64.char (val.toNat / 2 ^ shift % 64)]⟩ := by
  rw [emit, if_pos (Int.natCast_nonneg shift)]
  simp only [base64Chars_shiftedBits h]

/-- The accumulator with one more byte. -/
def push : BitVec 32 := val <<< 8 + BitVec.ofNat 32 c.toNat

theorem toNat_push : (push val c).toNat = (val.toNat * 256 + c.toNat) % 2 ^ 32 := by
  have hc : c.toNat < 256 := c.toNat_lt
  rw [push, BitVec.toNat_add, BitVec.toNat_shiftLeft, BitVec.toNat_ofNat, Nat.shiftLeft_eq]
  omega

theorem byte_first : byte ⟨val, -6, out⟩ a =
    ⟨push val a, -4, out ++ [Base64.char ((push val a).toNat / 2 ^ 2 % 64)]⟩ := by
  change emit ⟨push val a, (2 : Nat), out⟩ = _
  rw [emit_of_nonneg _ _ (by decide), emit_of_neg _ _ (by decide)]
  rfl

theorem byte_second : byte ⟨val, -4, out⟩ b =
    ⟨push val b, -2, out ++ [Base64.char ((push val b).toNat / 2 ^ 4 % 64)]⟩ := by
  change emit ⟨push val b, (4 : Nat), out⟩ = _
  rw [emit_of_nonneg _ _ (by decide), emit_of_neg _ _ (by decide)]
  rfl

theorem byte_third : byte ⟨val, -2, out⟩ c =
    ⟨push val c, -6, out ++ [Base64.char ((push val c).toNat / 2 ^ 6 % 64)] ++
      [Base64.char ((push val c).toNat % 64)]⟩ := by
  change emit ⟨push val c, (6 : Nat), out⟩ = _
  rw [emit_of_nonneg _ _ (by decide)]
  change emit ⟨push val c, (0 : Nat), _⟩ = _
  rw [emit_of_nonneg _ _ (by decide), emit_of_neg _ _ (by decide), Nat.pow_zero, Nat.div_one]
  rfl

/-- The six bits that are written for each byte are those of its group, whatever the accumulator held. -/
theorem sextets_of_push {v a b c : Nat} (hb : b < 256) (hc : c < 256) :
    (v * 256 + a) % 2 ^ 32 / 2 ^ 2 % 64 = ((a * 256 + b) * 256 + c) / 2 ^ 18 % 64 ∧
    ((v * 256 + a) % 2 ^ 32 * 256 + b) % 2 ^ 32 / 2 ^ 4 % 64 =
      ((a * 256 + b) * 256 + c) / 2 ^ 12 % 64 ∧
    (((v * 256 + a) % 2 ^ 32 * 256 + b) % 2 ^ 32 * 256 + c) % 2 ^ 32 / 2 ^ 6 % 64 =
      ((a * 256 + b) * 256 + c) / 2 ^ 6 % 64 ∧
    (((v * 256 + a) % 2 ^ 32 * 256 + b) % 2 ^ 32 * 256 + c) % 2 ^ 32 % 64 =
      ((a * 256 + b) * 256 + c) % 64 := by
  refine ⟨?_, ?_, ?_, ?_⟩
  · omega
  · omega
  · omega
  · omega

theorem foldl_group : ∃ val', [a, b, c].foldl byte ⟨val, -6, out⟩ =
    ⟨val', -6, out ++ (Base64.group a.toNat b.toNat c.toNat).map Base64.char⟩ := by
  obtain ⟨hfirst, hsecond, hthird, hfourth⟩ :=
    sextets_of_push (v := val.toNat) (a := a.toNat) b.toNat_lt c.toNat_lt
  refine ⟨push (push (push val a) b) c, ?_⟩
  simp only [List.foldl_cons, List.foldl_nil, byte_first, byte_second, byte_third, toNat_push,
    Base64.group, List.map_cons, List.map_nil, List.append_assoc, List.cons_append, List.nil_append,
    hfirst, hsecond, hthird, hfourth]

theorem last_none : last ⟨val, -6, out⟩ = out := rfl

/-- Zero bits are put behind what is left. -/
theorem last_some {shift : Nat} (h : shift ≤ 26) (hpos : 2 < shift) : last ⟨val, shift - 8, out⟩ =
    out ++ [Base64.char ((push val 0).toNat / 2 ^ shift % 64)] := by
  have hzero : push val 0 = val <<< 8 := by simp [push]
  rw [last, if_pos (by simp only; omega), Int.sub_add_cancel, base64Chars_shiftedBits h, hzero]

theorem foldl_last (data : List UInt8) :
    (data.foldl byte ⟨val, -6, out⟩).last = out ++ (Base64.sextets data).map Base64.char := by
  induction data using Base64.sextets.induct generalizing val out with
  | case1 => simp [Base64.sextets, last_none]
  | case2 a =>
    obtain ⟨hfirst, hsecond, -⟩ :=
      sextets_of_push (v := val.toNat) (a := a.toNat) (UInt8.toNat_lt 0) (UInt8.toNat_lt 0)
    rw [List.foldl_cons, List.foldl_nil, byte_first]
    change last ⟨push val a, (4 : Nat) - 8, _⟩ = _
    rw [last_some _ _ (by decide) (by decide)]
    simp only [toNat_push, hfirst, hsecond]
    simp [Base64.sextets, Base64.group]
  | case3 a b =>
    obtain ⟨hfirst, hsecond, hthird, -⟩ :=
      sextets_of_push (v := val.toNat) (a := a.toNat) b.toNat_lt (UInt8.toNat_lt 0)
    rw [List.foldl_cons, List.foldl_cons, List.foldl_nil, byte_first, byte_second]
    change last ⟨push (push val a) b, (6 : Nat) - 8, _⟩ = _
    rw [last_some _ _ (by decide) (by decide)]
    simp only [toNat_push, hfirst, hsecond, hthird]
    simp [Base64.sextets, Base64.group]
  | case4 a b c rest ih =>
    obtain ⟨val', hgroup⟩ := foldl_group val out a b c
    have hsplit : a :: b :: c :: rest = [a, b, c] ++ rest := rfl
    rw [hsplit, List.foldl_append, hgroup, ih, ← hsplit, Base64.sextets_cons, List.map_append,
      List.append_assoc]

end EncodeState

theorem encodeChars_eq (data : List UInt8) :
    encodeChars data = (Base64.sextets data).map Base64.char :=
  EncodeState.foldl_last 0 [] data

theorem padOut_eq (out : List Char) (k : Nat) (hk : k < 4) (h : (out.length + k) % 4 = 0) :
    padOut out = out ++ List.replicate k '=' := by
  induction k generalizing out with
  | zero => rw [padOut, if_pos (by simpa using h), List.replicate_zero, List.append_nil]
  | succ k ih =>
    rw [padOut, if_neg (by omega), ih _ (by omega)
      (by rw [List.length_append, List.length_singleton]; omega), List.replicate_succ,
      List.append_assoc, List.singleton_append]

theorem base64Encode_eq (data : List UInt8) : base64Encode data = Base64.encode data := by
  have hlength := Base64.length_sextets data
  rw [base64Encode, encodeChars_eq, padOut_eq _ ((3 - data.length % 3) % 3) (by omega)
    (by rw [List.length_map]; exact hlength)]
  rfl

/-! ### The decoder -/

namespace DecodeState

variable (val : BitVec 32) (out : List UInt8) {p q r s : Nat}

/-- The accumulator with six more bits. -/
def push (n : Nat) : BitVec 32 := val <<< 6 + BitVec.ofInt 32 n

theorem toNat_push (n : Nat) : (push val n).toNat = (val.toNat * 64 + n) % 2 ^ 32 := by
  rw [push, BitVec.ofInt_natCast, BitVec.toNat_add, BitVec.toNat_shiftLeft, BitVec.toNat_ofNat,
    Nat.shiftLeft_eq]
  omega

theorem sextet_first : sextet ⟨val, -8, out⟩ p = ⟨push val p, -2, out⟩ := rfl

/-- The later ones of a group complete a byte each. -/
theorem sextet_next {shift : Nat} (h : shift ≤ 24) : sextet ⟨val, shift - 6, out⟩ q =
    ⟨push val q, shift - 8, out ++ [UInt8.ofNat ((push val q).toNat / 2 ^ shift % 256)]⟩ := by
  have hbits : shiftedBits (push val q) shift 0xFF = (push val q).toNat / 2 ^ shift % 256 :=
    shiftedBits_eq (k := 8) rfl (by omega)
  simp only [sextet, Int.sub_add_cancel, Int.natCast_nonneg, if_true]
  rw [← hbits]
  rfl

/-- The bytes that are put out are those of the group, whatever the accumulator held. -/
theorem bytes_of_push {v : Nat} (hr : r < 64) (hs : s < 64) :
    ((v * 64 + p) % 2 ^ 32 * 64 + q) % 2 ^ 32 / 2 ^ 4 % 256 =
      (((p * 64 + q) * 64 + r) * 64 + s) / 2 ^ 16 % 256 ∧
    (((v * 64 + p) % 2 ^ 32 * 64 + q) % 2 ^ 32 * 64 + r) % 2 ^ 32 / 2 ^ 2 % 256 =
      (((p * 64 + q) * 64 + r) * 64 + s) / 2 ^ 8 % 256 ∧
    ((((v * 64 + p) % 2 ^ 32 * 64 + q) % 2 ^ 32 * 64 + r) % 2 ^ 32 * 64 + s) % 2 ^ 32 / 2 ^ 0 % 256 =
      (((p * 64 + q) * 64 + r) * 64 + s) % 256 := by
  refine ⟨?_, ?_, ?_⟩
  · omega
  · omega
  · omega

theorem ofNat_mod (n : Nat) : UInt8.ofNat (n % 256) = UInt8.ofNat n :=
  UInt8.toNat_inj.1 (by rw [UInt8.toNat_ofNat', UInt8.toNat_ofNat']; omega)

theorem foldl_sextet (ns : List Nat) (hns : ∀ n ∈ ns, n < 64) :
    (ns.foldl (fun s n => s.sextet n) (⟨val, -8, out⟩ : DecodeState)).out =
      out ++ Base64.bytes ns := by
  induction ns using Base64.bytes.induct generalizing val out with
  | case1 p q r s rest ih =>
    simp only [List.forall_mem_cons] at hns
    obtain ⟨-, -, hr, hs, hrest⟩ := hns
    obtain ⟨hfirst, hsecond, hthird⟩ := bytes_of_push (v := val.toNat) (p := p) (q := q) hr hs
    rw [List.foldl_cons, List.foldl_cons, List.foldl_cons, List.foldl_cons, sextet_first]
    change (rest.foldl _ (sextet (sextet (sextet ⟨push val p, (4 : Nat) - 6, out⟩ q) r) s)).out = _
    rw [sextet_next _ _ (by decide)]
    change (rest.foldl _ (sextet (sextet ⟨_, (2 : Nat) - 6, _⟩ r) s)).out = _
    rw [sextet_next _ _ (by decide)]
    change (rest.foldl _ (sextet ⟨_, (0 : Nat) - 6, _⟩ s)).out = _
    rw [sextet_next _ _ (by decide)]
    change (rest.foldl _ (⟨_, -8, _⟩ : DecodeState)).out = _
    rw [ih _ _ hrest, Base64.bytes_cons]
    simp only [toNat_push, hfirst, hsecond, hthird, ofNat_mod, Base64.ungroup, List.append_assoc,
      List.cons_append, List.nil_append]
  | case2 p q r =>
    simp only [List.forall_mem_cons] at hns
    obtain ⟨-, -, hr, -⟩ := hns
    obtain ⟨hfirst, hsecond, -⟩ :=
      bytes_of_push (v := val.toNat) (p := p) (q := q) (s := 0) hr (by decide)
    rw [List.foldl_cons, List.foldl_cons, List.foldl_cons, List.foldl_nil, sextet_first]
    change (sextet (sextet ⟨push val p, (4 : Nat) - 6, out⟩ q) r).out = _
    rw [sextet_next _ _ (by decide)]
    change (sextet ⟨_, (2 : Nat) - 6, _⟩ r).out = _
    rw [sextet_next _ _ (by decide)]
    simp only [toNat_push, hfirst, hsecond, ofNat_mod]
    simp [Base64.bytes, Base64.ungroup]
  | case3 p q =>
    obtain ⟨hfirst, -⟩ := bytes_of_push (v := val.toNat) (p := p) (q := q) (r := 0) (s := 0)
      (by decide) (by decide)
    rw [List.foldl_cons, List.foldl_cons, List.foldl_nil, sextet_first]
    change (sextet ⟨push val p, (4 : Nat) - 6, out⟩ q).out = _
    rw [sextet_next _ _ (by decide)]
    simp only [toNat_push, hfirst, ofNat_mod]
    simp [Base64.bytes, Base64.ungroup]
  | case4 ns hfour hthree htwo =>
    -- no byte is whole in less than two
    rcases ns with _ | ⟨p, _ | ⟨q, _ | ⟨r, _ | ⟨s, rest⟩⟩⟩⟩
    · exact (List.append_nil out).symm
    · exact (List.append_nil out).symm
    · exact absurd rfl (htwo p q)
    · exact absurd rfl (hthree p q r)
    · exact absurd rfl (hfour p q r s rest)

/-! ### Characters -/

/-- The six bits of a character, of those that are not skipped. -/
def value (c : Char) : Option Nat :=
  if isSpace c || c == '=' then none
  else
    let decoded := base64Table.getD c.toNat (-1)
    if decoded < 0 then none else some decoded.toNat

theorem foldl_char (encoded : List Char) (s : DecodeState) :
    encoded.foldl DecodeState.char s = (encoded.filterMap value).foldl (fun s n => s.sextet n) s := by
  induction encoded generalizing s with
  | nil => rfl
  | cons c encoded ih =>
    rw [List.foldl_cons, ih, List.filterMap_cons]
    unfold DecodeState.char value
    by_cases hskip : (isSpace c || c == '=') = true
    · rw [if_pos hskip, if_pos hskip]
    · rw [if_neg hskip, if_neg hskip]
      by_cases hnone : base64Table.getD c.toNat (-1) < 0
      · simp only [hnone, if_true]
      · have hcast : ((base64Table.getD c.toNat (-1)).toNat : Int) = base64Table.getD c.toNat (-1) := by
          omega
        simp only [hnone, if_false, List.foldl_cons, hcast]

theorem value_of_space {c : Char} (h : isSpace c = true) : value c = none := by
  rw [value, h, Bool.true_or, if_pos rfl]

theorem value_char {n : Nat} (h : n < 64) : value (Base64.char n) = some n := by
  have hall : ∀ n < 64, value (Base64.char n) = some n := by decide +kernel
  exact hall n h

theorem value_lt {c : Char} {n : Nat} (h : value c = some n) : n < 64 := by
  have hall : ∀ decoded ∈ base64Table, decoded < 64 := by decide +kernel
  have hdecoded : base64Table.getD c.toNat (-1) < 64 := by
    by_cases hc : c.toNat < base64Table.length
    · rw [← List.getElem_eq_getD (h := hc)]
      exact hall _ (List.getElem_mem hc)
    · rw [List.getD_eq_getElem?_getD, List.getElem?_eq_none (Nat.not_lt.1 hc)]
      decide
  simp only [value] at h
  split_ifs at h with hskip hnone
  have hn : (base64Table.getD c.toNat (-1)).toNat = n := Option.some.inj h
  omega

theorem char_facts {n : Nat} (h : n < 64) :
    isSpace (Base64.char n) = false ∧ Base64.char n ≠ '=' := by
  have hall : ∀ n < 64, isSpace (Base64.char n) = false ∧ Base64.char n ≠ '=' := by decide +kernel
  exact hall n h

end DecodeState

/-- What is decoded is told by the six bits of the characters alone. -/
theorem base64Decode_eq (encoded : List Char) :
    base64Decode encoded = Base64.bytes (encoded.filterMap DecodeState.value) := by
  have hlt : ∀ n ∈ encoded.filterMap DecodeState.value, n < 64 := by
    intro n hn
    obtain ⟨c, -, hc⟩ := List.mem_filterMap.1 hn
    exact DecodeState.value_lt hc
  rw [base64Decode, DecodeState.foldl_char]
  exact DecodeState.foldl_sextet 0 [] _ hlt

/-- White space is skipped. -/
theorem filterMap_value (text : List Char) : (text.filter fun c => !isSpace c).filterMap DecodeState.value =
    text.filterMap DecodeState.value := by
  rw [List.filterMap_filter]
  refine List.filterMap_congr fun c _ => ?_
  cases hspace : isSpace c with
  | true => simp [DecodeState.value_of_space hspace]
  | false => simp

theorem values_encode (data : List UInt8) :
    (Base64.encode data).filterMap DecodeState.value = Base64.sextets data := by
  have hpadding : (Base64.padding data).filterMap DecodeState.value = [] := by
    rw [List.filterMap_eq_nil_iff]
    intro c hc
    rw [List.eq_of_mem_replicate hc]
    rfl
  rw [Base64.encode, List.filterMap_append, hpadding, List.append_nil, List.filterMap_map]
  calc (Base64.sextets data).filterMap (DecodeState.value ∘ Base64.char)
      = (Base64.sextets data).filterMap some := List.filterMap_congr fun n hn =>
        DecodeState.value_char (Base64.sextets_lt data n hn)
    _ = Base64.sextets data := List.filterMap_some

/-- The encoding without its padding. -/
theorem filter_encode (data : List UInt8) :
    (Base64.encode data).filter (· != '=') = (Base64.sextets data).map Base64.char := by
  have hpadding : (Base64.padding data).filter (· != '=') = [] := by
    rw [List.filter_eq_nil_iff]
    intro c hc
    rw [List.eq_of_mem_replicate hc]
    decide
  rw [Base64.encode, List.filter_append, hpadding, List.append_nil, List.filter_eq_self]
  intro c hc
  obtain ⟨n, hn, rfl⟩ := List.mem_map.1 hc
  exact bne_iff_ne.2 (DecodeState.char_facts (Base64.sextets_lt data n hn)).2

theorem urlChar_ne_pad {c : Char} (h : c ≠ '=') : urlChar c ≠ '=' := by
  unfold urlChar
  split_ifs
  · decide
  · decide
  · exact h

/-- Nothing is taken away where there is no padding. -/
theorem base64UrlEncode_eq (data : List UInt8) :
    base64UrlEncode data = ((Base64.sextets data).map Base64.char).map urlChar := by
  rw [base64UrlEncode, encodeChars_eq, unpad, List.rdropWhile_eq_self_iff]
  intro hne hlast
  obtain ⟨c, hc, hpad⟩ := List.mem_map.1 (List.getLast_mem hne)
  obtain ⟨n, hn, rfl⟩ := List.mem_map.1 hc
  rw [← hpad, beq_iff_eq] at hlast
  exact urlChar_ne_pad (DecodeState.char_facts (Base64.sextets_lt data n hn)).2 hlast

/-- The codec of the server is that of RFC 4648: what is encoded is decoded again, with white space put
into it or not, and the other encoder writes the same with its own two characters and without padding. -/
theorem base64_codec (data : List UInt8) :
    base64Encode data = Base64.encode data ∧
    base64Decode (base64Encode data) = data ∧
    (∀ text : List Char, text.filter (fun c => !isSpace c) = base64Encode data →
      base64Decode text = data) ∧
    base64UrlEncode data = ((base64Encode data).filter (· != '=')).map urlChar := by
  refine ⟨base64Encode_eq data, ?_, fun text htext => ?_, ?_⟩
  · rw [base64Decode_eq, base64Encode_eq, values_encode, Base64.bytes_sextets]
  · rw [base64Decode_eq, ← filterMap_value, htext, base64Encode_eq, values_encode,
      Base64.bytes_sextets]
  · rw [base64UrlEncode_eq, base64Encode_eq, filter_encode]

theorem base64_codec_spaced : base64Decode "Zm9v\r\nYm E=".toList = [102, 111, 111, 98, 97] :=
  (base64_codec [102, 111, 111, 98, 97]).2.2.1 _ (by rw [base64Encode_eq]; decide +kernel)

end Guandan
