import Guandan.Library.Quoted
import Mathlib.Algebra.Ring.Nat

/-!
# Reading a field without a parser

`message.cpp`, `message_dispatcher.cpp` and `user_store.cpp` look for a field by its key as a
substring and read what follows, and escape five characters when they write a string. The three files
have these functions under names of their own. Text is a list of characters: all that is looked for
is ASCII.
-/

namespace Guandan

open Quoted

/-- `std::stoull` on digits and minus signs; it throws (`none`) without digits and on overflow, and a
sign turns the number round. -/
def stoull (text : Text) : Option Nat :=
  let negative := ['-'].isPrefixOf text
  let digits := (if negative then text.tail else text).takeWhile Char.isDigit
  let n := Nat.ofDigitChars 10 digits 0
  if digits.isEmpty ∨ 2 ^ 64 ≤ n then none
  else if negative then some ((2 ^ 64 - n) % 2 ^ 64) else some n

/-- The number behind the first `"key":`, 0 without one. -/
def extractUint (json key : Text) : Nat :=
  match after (field key [':']) json with
  | none => 0
  | some rest => (stoull (rest.takeWhile fun c => c.isDigit || c == '-')).getD 0

/-- The text between the quote behind the first `"key":"` and the next one. -/
def extractString (json key : Text) : Text :=
  match after (field key [':', '"']) json with
  | none => []
  | some rest => if '"' ∈ rest then upToQuote rest else []

/-- The decimal digits of a number. -/
def digits (n : Nat) : Text := Nat.toDigits 10 n

theorem stoull_lt (text : Text) : (stoull text).getD 0 < 2 ^ 64 := by
  simp only [stoull]
  split_ifs with hsign hthrows hthrows
  · exact Nat.two_pow_pos 64
  · exact Nat.mod_lt _ (Nat.two_pow_pos 64)
  · exact Nat.two_pow_pos 64
  · exact Nat.lt_of_not_le (not_or.1 hthrows).2

theorem extractUint_lt (json key : Text) : extractUint json key < 2 ^ 64 := by
  unfold extractUint
  split
  · exact Nat.two_pow_pos 64
  · exact stoull_lt _

/-! ### Escaping -/

def escapeChar (c : Char) : Text :=
  if c = '"' then ['\\', '"']
  else if c = '\\' then ['\\', '\\']
  else if c = '\n' then ['\\', 'n']
  else if c = '\r' then ['\\', 'r']
  else if c = '\t' then ['\\', 't']
  else [c]

def escape (text : Text) : Text := text.flatMap escapeChar

/-- The five characters that are escaped. -/
def escapedChars : List Char := ['"', '\\', '\n', '\r', '\t']

theorem escapeChar_of_mem {c : Char} (hc : c ∈ escapedChars) :
    ∃ d, escapeChar c = ['\\', d] ∧ (d = '"' → c = '"') := by
  simp only [escapedChars, List.mem_cons, List.not_mem_nil, or_false] at hc
  rcases hc with rfl | rfl | rfl | rfl | rfl
  all_goals exact ⟨_, rfl, by decide⟩

theorem escapeChar_of_not_mem {c : Char} (hc : c ∉ escapedChars) : escapeChar c = [c] := by
  simp only [escapedChars, List.mem_cons, List.not_mem_nil, or_false, not_or] at hc
  obtain ⟨hquote, hslash, hnewline, hreturn, htab⟩ := hc
  rw [escapeChar, if_neg hquote, if_neg hslash, if_neg hnewline, if_neg hreturn, if_neg htab]

def escaper : Escaper where
  special c := c ∈ escapedChars
  mark c := (escapeChar c).tail
  quote := by decide
  slash := by decide
  mark_quote := rfl
  marks c hc := by
    obtain ⟨d, hd, hquote⟩ := escapeChar_of_mem (of_decide_eq_true hc)
    rw [hd]
    exact ⟨d, [], rfl, List.not_mem_nil, List.not_mem_nil, hquote⟩

theorem escaper_special {c : Char} : escaper.special c = true ↔ c ∈ escapedChars :=
  decide_eq_true_iff

theorem escape_eq (text : Text) : escape text = escaper.run text := by
  refine congrArg (text.flatMap ·) (funext fun c => ?_)
  by_cases hc : c ∈ escapedChars
  · obtain ⟨d, hd, -⟩ := escapeChar_of_mem hc
    have hmark : escaper.mark c = [d] := congrArg List.tail hd
    rw [Escaper.char, if_pos (escaper_special.2 hc), hmark, hd]
  · rw [Escaper.char, if_neg (mt escaper_special.1 hc), escapeChar_of_not_mem hc]

/-! ### Numbers -/

theorem digits_no_quote (n : Nat) : '"' ∉ digits n := by
  intro hmem
  have hdigit := Nat.isDigit_of_mem_toDigits (by decide) (by decide) hmem
  exact absurd hdigit (by decide)

theorem takeWhile_digits (n : Nat) : (digits n).takeWhile Char.isDigit = digits n :=
  List.takeWhile_eq_self_iff.2 fun _ hc => Nat.isDigit_of_mem_toDigits (by decide) (by decide) hc

theorem digits_isEmpty (n : Nat) : (digits n).isEmpty = false := by
  rw [List.isEmpty_eq_false_iff]
  exact Nat.toDigits_ne_nil

theorem ofDigitChars_digits (n : Nat) : Nat.ofDigitChars 10 (digits n) 0 = n :=
  Nat.ofDigitChars_ten_toDigits

/-- A number of 64 bits is read as it was written. -/
theorem stoull_digits (n : Nat) : (stoull (digits n)).getD 0 = if n < 2 ^ 64 then n else 0 := by
  have hsign : ¬ ['-'].isPrefixOf (digits n) = true := by
    intro h
    have hmem : '-' ∈ digits n := (List.isPrefixOf_iff_prefix.1 h).subset (List.mem_singleton.2 rfl)
    exact absurd (Nat.isDigit_of_mem_toDigits (by decide) (by decide) hmem) (by decide)
  simp only [stoull, if_neg hsign, takeWhile_digits, ofDigitChars_digits, digits_isEmpty]
  by_cases hn : n < 2 ^ 64
  · rw [if_neg (not_or.2 ⟨Bool.false_ne_true, Nat.not_le.2 hn⟩), if_pos hn, Option.getD_some]
  · rw [if_pos (Or.inr (Nat.not_lt.1 hn)), if_neg hn, Option.getD_none]

/-- A sign turns it round. -/
theorem stoull_sign (n : Nat) :
    (stoull ('-' :: digits n)).getD 0 = if n < 2 ^ 64 then (2 ^ 64 - n) % 2 ^ 64 else 0 := by
  have hsign : ['-'].isPrefixOf ('-' :: digits n) = true :=
    List.isPrefixOf_iff_prefix.2 (List.prefix_append ['-'] (digits n))
  simp only [stoull, if_pos hsign, List.tail_cons, takeWhile_digits, ofDigitChars_digits,
    digits_isEmpty]
  by_cases hn : n < 2 ^ 64
  · rw [if_neg (not_or.2 ⟨Bool.false_ne_true, Nat.not_le.2 hn⟩), if_pos hn, Option.getD_some]
  · rw [if_pos (Or.inr (Nat.not_lt.1 hn)), if_neg hn, Option.getD_none]

/-! ### Reading a table -/

section Tables

variable {ms : List Member} {key rest : Text}

theorem extractUint_before {before text : Text} (hbefore : '"' ∉ before) :
    extractUint (before ++ text) key = extractUint text key := by
  rw [extractUint, after_field_append hbefore, extractUint]

theorem extractString_before {before text : Text} (hbefore : '"' ∉ before) :
    extractString (before ++ text) key = extractString text key := by
  rw [extractString, after_field_append hbefore, extractString]

/-- What stands behind the first member under the key. -/
theorem extractUint_table (hms : ∀ m ∈ ms, m.WellFormed) (hkey : IsWord key) (hrest : '"' ∉ rest) :
    extractUint (texts ms ++ rest) key = ((firstWith (fun m => m.name == key) ms).map fun found =>
      (stoull ((found.1.value ++ found.1.sep ++ texts found.2 ++ rest).takeWhile fun c =>
        c.isDigit || c == '-')).getD 0).getD 0 := by
  rw [extractUint, after_key hms hkey hrest]
  rcases firstWith (fun m => m.name == key) ms with _ | found <;> rfl

theorem takeWhile_number {m : Member} (hm : m.WellFormed)
    (hnumber : ∀ c ∈ m.value, (c.isDigit || c == '-') = true) :
    ((m.value ++ m.sep ++ rest).takeWhile fun c => c.isDigit || c == '-') = m.value := by
  obtain ⟨c, cs, hsep, hc⟩ := hm.sep.head
  have hstop : (c.isDigit || c == '-') = false := by
    simp only [List.mem_cons, List.not_mem_nil, or_false] at hc
    rcases hc with rfl | rfl | rfl | rfl <;> decide
  rw [hsep, List.append_assoc, List.takeWhile_append_of_pos hnumber, List.cons_append,
    List.takeWhile_cons_of_neg (by simp [hstop]), List.append_nil]

/-- A value of digits and signs is read as a number. -/
theorem extractUint_number {m : Member} (hms : ∀ m ∈ ms, m.WellFormed) (hkey : IsWord key)
    (hrest : '"' ∉ rest) (hfind : ms.find? (fun m => m.name == key) = some m)
    (hnumber : ∀ c ∈ m.value, (c.isDigit || c == '-') = true) :
    extractUint (texts ms ++ rest) key = (stoull m.value).getD 0 := by
  rw [extractUint_table hms hkey hrest]
  rw [← firstWith_fst, Option.map_eq_some_iff] at hfind
  obtain ⟨found, hfound, rfl⟩ := hfind
  have hm := hms found.1 (firstWith_some hfound).1
  rw [hfound, Option.map_some, Option.getD_some, List.append_assoc _ (texts found.2),
    takeWhile_number hm hnumber]

/-- Any other value is read as 0. -/
theorem extractUint_other {m : Member} {c : Char} {cs : Text} (hms : ∀ m ∈ ms, m.WellFormed)
    (hkey : IsWord key) (hrest : '"' ∉ rest) (hfind : ms.find? (fun m => m.name == key) = some m)
    (hvalue : m.value = c :: cs) (hc : (c.isDigit || c == '-') = false) :
    extractUint (texts ms ++ rest) key = 0 := by
  rw [extractUint_table hms hkey hrest]
  rw [← firstWith_fst, Option.map_eq_some_iff] at hfind
  obtain ⟨found, hfound, rfl⟩ := hfind
  rw [hfound, Option.map_some, Option.getD_some, hvalue]
  simp only [List.cons_append]
  rw [List.takeWhile_cons_of_neg (by simp [hc])]
  rfl

theorem extractUint_missing (hms : ∀ m ∈ ms, m.WellFormed) (hkey : IsWord key)
    (hrest : '"' ∉ rest) (hfind : ms.find? (fun m => m.name == key) = none) :
    extractUint (texts ms ++ rest) key = 0 := by
  rw [extractUint_table hms hkey hrest]
  rw [← firstWith_fst, Option.map_eq_none_iff] at hfind
  rw [hfind]
  rfl

/-- A number written under the key is read, if it has 64 bits. -/
theorem extractUint_digits {m : Member} {n : Nat} (hms : ∀ m ∈ ms, m.WellFormed)
    (hkey : IsWord key) (hrest : '"' ∉ rest) (hfind : ms.find? (fun m => m.name == key) = some m)
    (hvalue : m.value = digits n) :
    extractUint (texts ms ++ rest) key = if n < 2 ^ 64 then n else 0 := by
  have hnumber : ∀ c ∈ m.value, (c.isDigit || c == '-') = true := by
    intro c hc
    rw [hvalue] at hc
    rw [Nat.isDigit_of_mem_toDigits (by decide) (by decide) hc, Bool.true_or]
  rw [extractUint_number hms hkey hrest hfind hnumber, hvalue]
  exact stoull_digits n

/-- The string under the key, up to its first quote. -/
theorem extractString_table (hms : ∀ m ∈ ms, m.WellFormed) (hkey : IsWord key)
    (hrest : '"' ∉ rest) : extractString (texts ms ++ rest) key =
      ((ms.find? fun m => m.name == key && m.isString).map fun m =>
        upToQuote m.value.tail).getD [] := by
  rw [extractString, after_string_key hms hkey hrest, ← firstWith_fst]
  rcases hfound : firstWith (fun m => m.name == key && m.isString) ms with _ | ⟨m, ms'⟩
  · rfl
  obtain ⟨hmem, hp⟩ := firstWith_some hfound
  rw [Bool.and_eq_true] at hp
  obtain ⟨body, -, hvalue⟩ := (hms m hmem).string hp.2
  simp only [Option.map_some, Option.getD_some, hvalue, List.tail_cons, List.cons_append,
    List.append_assoc, List.nil_append]
  rw [if_pos (by simp), upToQuote_append, upToQuote_append]

end Tables

end Guandan
