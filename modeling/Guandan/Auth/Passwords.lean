import Guandan.Auth.Persistence
import Guandan.Utils.Sha1

/-!
# Salted hashes of passwords

`password_hash.cpp`. The hash of a password is that of another under the same salt exactly when SHA-1 merges
the two salted texts; and salts and hashes are texts that the user file gives back as they are.
-/

namespace Guandan

/-- `std::hex << std::setfill('0') << std::setw(2)`. -/
def byteHex (n : ℕ) : List Char :=
  let digits := Nat.toDigits 16 n
  List.replicate (2 - digits.length) '0' ++ digits

def bytesToHex (bytes : List UInt8) : String :=
  String.ofList (bytes.flatMap fun c => byteHex c.toNat)

/-- The hex text of sixteen random bytes. -/
def generateSalt (draws : Vector UInt8 16) : String := bytesToHex draws.toList

def hashPassword (password salt : String) : String := bytesToHex (sha1Hex (utf8 (salt ++ password)))

/-! ### Hex text -/

/-- A byte is told from its two digits, and neither is a character that is escaped. -/
theorem byteHex_spec {n : ℕ} (h : n < 256) : (byteHex n).length = 2 ∧
    (byteHex n).foldl (fun m c => m * 16 + if c.isDigit then c.toNat - 48 else c.toNat - 87) 0 = n ∧
    ∀ c ∈ byteHex n, c ∉ escapedChars := by
  have hall : ∀ n < 256, (byteHex n).length = 2 ∧
      (byteHex n).foldl (fun m c => m * 16 + if c.isDigit then c.toNat - 48 else c.toNat - 87) 0 = n ∧
      ((byteHex n).all fun c => !escapedChars.contains c) = true := by decide +kernel
  obtain ⟨hlength, hvalue, hplain⟩ := hall n h
  exact ⟨hlength, hvalue, fun c hc => by simpa using List.all_eq_true.1 hplain c hc⟩

theorem byteHex_injective {b c : UInt8} (h : byteHex b.toNat = byteHex c.toNat) : b = c := by
  have hvalue := congrArg
    (List.foldl (fun m (c : Char) => m * 16 + if c.isDigit then c.toNat - 48 else c.toNat - 87) 0) h
  rw [(byteHex_spec b.toNat_lt).2.1, (byteHex_spec c.toNat_lt).2.1] at hvalue
  exact UInt8.toNat_inj.1 hvalue

theorem bytesToHex_injective : Function.Injective bytesToHex := by
  intro xs ys h
  have htext : (xs.flatMap fun c => byteHex c.toNat) = ys.flatMap fun c => byteHex c.toNat := by
    have hlist := congrArg String.toList h
    rwa [bytesToHex, bytesToHex, String.toList_ofList, String.toList_ofList] at hlist
  have hlength (b : UInt8) : (byteHex b.toNat).length = 2 := (byteHex_spec b.toNat_lt).1
  clear h
  induction xs generalizing ys with
  | nil =>
    rcases ys with _ | ⟨y, ys⟩
    · rfl
    · have hlen := congrArg List.length htext
      rw [List.flatMap_cons, List.length_append, hlength] at hlen
      simp at hlen
      omega
  | cons x xs ih =>
    rcases ys with _ | ⟨y, ys⟩
    · have hlen := congrArg List.length htext
      rw [List.flatMap_cons, List.length_append, hlength] at hlen
      simp at hlen
    · rw [List.flatMap_cons, List.flatMap_cons] at htext
      obtain ⟨hbyte, hrest⟩ := List.append_inj htext ((hlength x).trans (hlength y).symm)
      rw [byteHex_injective hbyte, ih hrest]

theorem plainText_bytesToHex (bytes : List UInt8) : PlainText (bytesToHex bytes) := by
  intro c hc
  rw [bytesToHex, String.toList_ofList, List.mem_flatMap] at hc
  obtain ⟨b, -, hb⟩ := hc
  rw [← Bool.not_eq_true, escaper_special]
  exact (byteHex_spec b.toNat_lt).2.2 c hb

theorem length_utf8_salt (draws : Vector UInt8 16) : (utf8 (generateSalt draws)).length ≤ 128 := by
  have hdigits (bytes : List UInt8) :
      (bytes.flatMap fun c => byteHex c.toNat).length = 2 * bytes.length := by
    induction bytes with
    | nil => rfl
    | cons b bytes ih =>
      rw [List.flatMap_cons, List.length_append, (byteHex_spec b.toNat_lt).1, ih, List.length_cons]
      omega
  have hle := length_utf8_ofList (draws.toList.flatMap fun c => byteHex c.toNat)
  rwa [hdigits, Vector.length_toList] at hle

/-! ### Equal hashes -/

/-- SHA-1 merges the two passwords under the salt. -/
def SaltedMerge (salt q p : String) : Prop := Sha1.Merges (utf8 (salt ++ q)) (utf8 (salt ++ p))

theorem hashPassword_eq_iff {salt q p : String} (hq : HashedWhole (utf8 (salt ++ q)))
    (hp : HashedWhole (utf8 (salt ++ p))) :
    hashPassword q salt = hashPassword p salt ↔ q = p ∨ SaltedMerge salt q p := by
  have hsalted : utf8 (salt ++ q) = utf8 (salt ++ p) ↔ q = p := by
    rw [utf8_append, utf8_append, List.append_cancel_left_eq]
    exact utf8_injective.eq_iff
  rw [hashPassword, hashPassword, bytesToHex_injective.eq_iff, sha1Hex_eq_iff hq hp, hsalted]
  rfl

end Guandan
