import Mathlib.Data.List.Basic
import Mathlib.Tactic.IntervalCases

/-!
# Base64

The encoding of RFC 4648: three bytes are one number of 24 bits, written as four of 6 bits each. Zero bits
are put behind a last group of fewer bytes, and padding stands for what is missing of its four characters.
-/

namespace Base64

/-- The four parts of 6 bits that three bytes have together. -/
def group (a b c : ℕ) : List ℕ :=
  let n := (a * 256 + b) * 256 + c
  [n / 2 ^ 18 % 64, n / 2 ^ 12 % 64, n / 2 ^ 6 % 64, n % 64]

def sextets : List UInt8 → List ℕ
  | [] => []
  | [a] => (group a.toNat 0 0).take 2
  | [a, b] => (group a.toNat b.toNat 0).take 3
  | a :: b :: c :: rest => group a.toNat b.toNat c.toNat ++ sextets rest

theorem sextets_cons (a b c : UInt8) (rest : List UInt8) :
    sextets (a :: b :: c :: rest) = group a.toNat b.toNat c.toNat ++ sextets rest := rfl

/-- The characters of the standard alphabet. -/
def char (n : ℕ) : Char :=
  if n < 26 then Char.ofNat ('A'.toNat + n)
  else if n < 52 then Char.ofNat ('a'.toNat + (n - 26))
  else if n < 62 then Char.ofNat ('0'.toNat + (n - 52))
  else if n = 62 then '+'
  else '/'

/-- One character of padding for each byte that is missing of the last group. -/
def padding (bytes : List UInt8) : List Char := List.replicate ((3 - bytes.length % 3) % 3) '='

def encode (bytes : List UInt8) : List Char := (sextets bytes).map char ++ padding bytes

example : encode [102, 111, 111, 98, 97] = "Zm9vYmE=".toList := by decide

/-- The three bytes of four numbers of 6 bits. -/
def ungroup (p q r s : ℕ) : List UInt8 :=
  let n := ((p * 64 + q) * 64 + r) * 64 + s
  [UInt8.ofNat (n / 2 ^ 16), UInt8.ofNat (n / 2 ^ 8), UInt8.ofNat n]

/-- The bytes that are whole in numbers of 6 bits. -/
def bytes : List ℕ → List UInt8
  | p :: q :: r :: s :: rest => ungroup p q r s ++ bytes rest
  | [p, q, r] => (ungroup p q r 0).take 2
  | [p, q] => (ungroup p q 0 0).take 1
  | _ => []

theorem bytes_cons (p q r s : ℕ) (rest : List ℕ) :
    bytes (p :: q :: r :: s :: rest) = ungroup p q r s ++ bytes rest := rfl

/-- The parts of a number of 24 bits, put together again. -/
theorem reassemble {n : ℕ} (h : n < 2 ^ 24) :
    ((n / 2 ^ 18 % 64 * 64 + n / 2 ^ 12 % 64) * 64 + n / 2 ^ 6 % 64) * 64 + n % 64 = n := by
  omega

theorem ungroup_group (a b c : UInt8) (p q r s : ℕ)
    (h : group a.toNat b.toNat c.toNat = [p, q, r, s]) : ungroup p q r s = [a, b, c] := by
  have ha : a.toNat < 256 := a.toNat_lt
  have hb : b.toNat < 256 := b.toNat_lt
  have hc : c.toNat < 256 := c.toNat_lt
  simp only [group, List.cons.injEq, and_true] at h
  obtain ⟨rfl, rfl, rfl, rfl⟩ := h
  have hn : (a.toNat * 256 + b.toNat) * 256 + c.toNat < 2 ^ 24 := by omega
  rw [ungroup, reassemble hn]
  have hfirst : ((a.toNat * 256 + b.toNat) * 256 + c.toNat) / 2 ^ 16 = a.toNat := by omega
  have hsecond : UInt8.ofNat (((a.toNat * 256 + b.toNat) * 256 + c.toNat) / 2 ^ 8) = b := by
    apply UInt8.toNat_inj.1
    rw [UInt8.toNat_ofNat']
    omega
  have hthird : UInt8.ofNat ((a.toNat * 256 + b.toNat) * 256 + c.toNat) = c := by
    apply UInt8.toNat_inj.1
    rw [UInt8.toNat_ofNat']
    omega
  simp only [hfirst, hsecond, hthird, UInt8.ofNat_toNat]

theorem bytes_sextets (data : List UInt8) : bytes (sextets data) = data := by
  induction data using sextets.induct with
  | case1 => rfl
  | case2 a =>
    obtain ⟨p, q, r, s, hgroup⟩ : ∃ p q r s, group a.toNat 0 0 = [p, q, r, s] := ⟨_, _, _, _, rfl⟩
    have hzero : r = 0 ∧ s = 0 := by
      simp only [group, List.cons.injEq] at hgroup
      omega
    rw [sextets, hgroup]
    obtain ⟨rfl, rfl⟩ := hzero
    change (ungroup p q 0 0).take 1 = [a]
    rw [ungroup_group a 0 0 p q 0 0 hgroup]
    rfl
  | case3 a b =>
    obtain ⟨p, q, r, s, hgroup⟩ : ∃ p q r s, group a.toNat b.toNat 0 = [p, q, r, s] :=
      ⟨_, _, _, _, rfl⟩
    have hzero : s = 0 := by
      simp only [group, List.cons.injEq] at hgroup
      omega
    rw [sextets, hgroup]
    subst hzero
    change (ungroup p q r 0).take 2 = [a, b]
    rw [ungroup_group a b 0 p q r 0 hgroup]
    rfl
  | case4 a b c rest ih =>
    obtain ⟨p, q, r, s, hgroup⟩ : ∃ p q r s, group a.toNat b.toNat c.toNat = [p, q, r, s] :=
      ⟨_, _, _, _, rfl⟩
    rw [sextets, hgroup]
    change ungroup p q r s ++ bytes (sextets rest) = a :: b :: c :: rest
    rw [ungroup_group a b c p q r s hgroup, ih]
    rfl

theorem group_lt (a b c : ℕ) : ∀ n ∈ group a b c, n < 64 := by
  simp only [group, List.forall_mem_cons]
  have h (n : ℕ) : n % 64 < 64 := Nat.mod_lt n (by decide)
  exact ⟨h _, h _, h _, h _, fun _ hn => by cases hn⟩

theorem sextets_lt (data : List UInt8) : ∀ n ∈ sextets data, n < 64 := by
  induction data using sextets.induct with
  | case1 => simp [sextets]
  | case2 a => exact fun n hn => group_lt _ _ _ n (List.mem_of_mem_take hn)
  | case3 a b => exact fun n hn => group_lt _ _ _ n (List.mem_of_mem_take hn)
  | case4 a b c rest ih =>
    intro n hn
    rcases List.mem_append.1 hn with hn | hn
    · exact group_lt _ _ _ n hn
    · exact ih n hn

/-- Four characters for each group, padding included. -/
theorem length_sextets (data : List UInt8) :
    ((sextets data).length + (3 - data.length % 3) % 3) % 4 = 0 := by
  induction data using sextets.induct with
  | case1 => rfl
  | case2 a => simp [sextets, group]
  | case3 a b => simp [sextets, group]
  | case4 a b c rest ih =>
    simp only [sextets, group, List.length_append, List.length_cons, List.length_nil]
    omega

end Base64
