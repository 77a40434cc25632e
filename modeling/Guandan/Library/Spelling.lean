import Guandan.Library.Json
import Mathlib.Algebra.Order.BigOperators.Group.List
import Mathlib.Algebra.Order.Ring.Nat

/-!
# What an escape leaves out

A writer may know only some of the characters that have to be escaped, and write each of them with a
backslash and one more character (`Shorthand`). No text that reads as a value is shorter than the
value with two characters for each special one (`length_le_of_readValue`), and where a special
character is left as it is, the text is shorter. So the value is read back if and only if the writer
knows every special character of its strings (`Shorthand.decode_write_iff`).
-/

open Quoted

namespace Json

/-! ### The strings of a value -/

mutual

/-- The strings of a value, keys included. -/
def strings : Json → List Text
  | str s => [s]
  | arr items => stringsItems items
  | obj members => stringsMembers members
  | _ => []

def stringsItems : List Json → List Text
  | [] => []
  | j :: js => strings j ++ stringsItems js

def stringsMembers : List (Text × Json) → List Text
  | [] => []
  | (key, j) :: members => key :: (strings j ++ stringsMembers members)

end

section Strings

variable {esc esc' : Text → Text}

mutual

theorem write_congr : ∀ {j : Json}, (∀ s ∈ strings j, esc s = esc' s) → write esc j = write esc' j
  | null, _ => rfl
  | bool _, _ => rfl
  | num _, _ => rfl
  | str s, h => by rw [write, write, writeString, writeString, h s (List.mem_singleton.2 rfl)]
  | arr items, h => by rw [write, write, writeItems_congr h]
  | obj members, h => by rw [write, write, writeMembers_congr h]

theorem writeItems_congr : ∀ {js : List Json}, (∀ s ∈ stringsItems js, esc s = esc' s) →
    writeItems esc js = writeItems esc' js
  | [], _ => rfl
  | j :: js, h => by
    rw [stringsItems, List.forall_mem_append] at h
    rw [writeItems, writeItems, write_congr h.1, writeItems_congr h.2]

theorem writeMembers_congr : ∀ {members : List (Text × Json)},
    (∀ s ∈ stringsMembers members, esc s = esc' s) →
    writeMembers esc members = writeMembers esc' members
  | [], _ => rfl
  | (key, j) :: members, h => by
    rw [stringsMembers, List.forall_mem_cons, List.forall_mem_append] at h
    rw [writeMembers, writeMembers, writeString, writeString, h.1, write_congr h.2.1,
      writeMembers_congr h.2.2]

end

theorem length_commas (texts : List Text) :
    (commas texts).length = (texts.map List.length).sum + (texts.length - 1) := by
  cases texts with
  | nil => rfl
  | cons text texts =>
    rw [commas_cons, List.length_append, List.length_flatMap, List.map_cons, List.sum_cons,
      List.length_cons]
    have hcomma : (texts.map fun text => (',' :: text).length).sum =
        (texts.map List.length).sum + texts.length := by
      induction texts with
      | nil => rfl
      | cons text texts ih =>
        simp only [List.map_cons, List.sum_cons, List.length_cons] at ih ⊢
        omega
    omega

/-- How long strings are, put one after the other. -/
def escapedLength (esc : Text → Text) (ss : List Text) : Nat := (ss.map fun s => (esc s).length).sum

theorem escapedLength_cons (s : Text) (ss : List Text) :
    escapedLength esc (s :: ss) = (esc s).length + escapedLength esc ss := rfl

theorem escapedLength_append (ss more : List Text) :
    escapedLength esc (ss ++ more) = escapedLength esc ss + escapedLength esc more := by
  rw [escapedLength, List.map_append, List.sum_append, escapedLength, escapedLength]

theorem length_writeString (s : Text) : (writeString esc s).length = (esc s).length + 2 := by
  rw [writeString, List.length_append, List.length_cons, List.length_singleton]

/-- The value with every string empty. -/
def bare (j : Json) : Nat := (write (fun _ => []) j).length

mutual

theorem length_write (esc : Text → Text) : ∀ j : Json,
    (write esc j).length = bare j + escapedLength esc (strings j)
  | null => rfl
  | bool _ => rfl
  | num _ => rfl
  | str s => by
    rw [bare, write, write, length_writeString, length_writeString, strings, escapedLength_cons,
      List.length_nil]
    simp only [escapedLength, List.map_nil, List.sum_nil]
    omega
  | arr items => by
    obtain ⟨hsum, hlen⟩ := length_writeItems esc items
    rw [bare, write, write, strings]
    simp only [List.length_append, List.length_cons, List.length_nil, length_commas]
    omega
  | obj members => by
    obtain ⟨hsum, hlen⟩ := length_writeMembers esc members
    rw [bare, write, write, strings]
    simp only [List.length_append, List.length_cons, List.length_nil, length_commas]
    omega

theorem length_writeItems (esc : Text → Text) : ∀ js : List Json,
    ((writeItems esc js).map List.length).sum =
        ((writeItems (fun _ => []) js).map List.length).sum + escapedLength esc (stringsItems js) ∧
      (writeItems esc js).length = (writeItems (fun _ => []) js).length
  | [] => ⟨rfl, rfl⟩
  | j :: js => by
    obtain ⟨hsum, hlen⟩ := length_writeItems esc js
    have hj := length_write esc j
    rw [bare] at hj
    simp only [writeItems, List.map_cons, List.sum_cons, List.length_cons, stringsItems,
      escapedLength_append]
    omega

theorem length_writeMembers (esc : Text → Text) : ∀ members : List (Text × Json),
    ((writeMembers esc members).map List.length).sum =
        ((writeMembers (fun _ => []) members).map List.length).sum +
          escapedLength esc (stringsMembers members) ∧
      (writeMembers esc members).length = (writeMembers (fun _ => []) members).length
  | [] => ⟨rfl, rfl⟩
  | (key, j) :: members => by
    obtain ⟨hsum, hlen⟩ := length_writeMembers esc members
    have hj := length_write esc j
    rw [bare] at hj
    simp only [writeMembers, List.map_cons, List.sum_cons, List.length_cons, List.length_append,
      length_writeString, List.length_nil, stringsMembers, escapedLength_cons, escapedLength_append]
    omega

end

theorem eq_of_escapedLength_le {ss : List Text}
    (hle : ∀ s ∈ ss, (esc s).length ≤ (esc' s).length)
    (h : escapedLength esc' ss ≤ escapedLength esc ss) :
    ∀ s ∈ ss, (esc s).length = (esc' s).length := by
  induction ss with
  | nil => exact List.forall_mem_nil _
  | cons s ss ih =>
    obtain ⟨hs, hss⟩ := List.forall_mem_cons.1 hle
    have hmore : escapedLength esc ss ≤ escapedLength esc' ss := List.sum_le_sum hss
    rw [escapedLength_cons, escapedLength_cons] at h
    exact List.forall_mem_cons.2 ⟨by omega, ih hss (by omega)⟩

end Strings

/-! ### No text is shorter -/

/-- Two characters for each special one. -/
def short (s : Text) : Text := s.flatMap fun c => if standard.special c then ['\\', c] else [c]

theorem length_short_cons (c : Char) (s : Text) :
    (short (c :: s)).length = (if standard.special c then 2 else 1) + (short s).length := by
  rw [short, List.flatMap_cons, List.length_append, short]
  split_ifs <;> rfl

theorem length_short_cons_le (c : Char) (s : Text) :
    (short (c :: s)).length ≤ (short s).length + 2 := by
  rw [length_short_cons]
  split_ifs <;> omega

theorem length_readString {text s rest : Text} (h : readString text = some (s, rest)) :
    (short s).length + rest.length + 1 ≤ text.length := by
  induction text using readString.induct generalizing s rest with
  | case1 => cases h
  | case2 text =>
    cases h
    exact Nat.le_of_eq (by simp [short])
  | case3 a b c d text ih =>
    rw [readString] at h
    simp only [Option.bind_eq_bind, Option.bind_eq_some_iff, Prod.exists, Option.some.injEq,
      Prod.mk.injEq] at h
    obtain ⟨char, -, s, rest, hread, rfl, rfl⟩ := h
    have hle := length_short_cons_le char s
    have hrest := ih hread
    simp only [List.length_cons]
    omega
  | case4 c text hu ih =>
    rw [readString.eq_4 _ _ hu] at h
    simp only [Option.bind_eq_bind, Option.bind_eq_some_iff, Prod.exists, Option.some.injEq,
      Prod.mk.injEq] at h
    obtain ⟨char, -, s, rest, hread, rfl, rfl⟩ := h
    have hle := length_short_cons_le char s
    have hrest := ih hread
    simp only [List.length_cons]
    omega
  | case5 c text hquote hu hslash ih =>
    rw [readString.eq_5 _ _ hquote hu hslash] at h
    simp only [Option.bind_eq_bind, Option.bind_eq_some_iff, Prod.exists] at h
    obtain ⟨s, rest, hread, h⟩ := h
    split_ifs at h with hc
    cases h
    have hrest := ih hread
    have hplain : c ≠ '\\' := by
      rintro rfl
      cases text with
      | nil => cases hread
      | cons d text => exact hslash d text rfl rfl
    have hspecial : ¬ standard.special c = true := by
      rw [standard_special, not_or, not_or]
      exact ⟨hquote, hplain, hc⟩
    rw [length_short_cons, if_neg hspecial, List.length_cons]
    omega

theorem ofDigitChars_lt {ds : Text} (hds : ∀ c ∈ ds, c.isDigit = true) :
    Nat.ofDigitChars 10 ds 0 < 10 ^ ds.length := by
  induction ds with
  | nil => exact Nat.one_pos
  | cons c ds ih =>
    obtain ⟨hc, hds⟩ := List.forall_mem_cons.1 hds
    have hdigit : c.toNat - '0'.toNat ≤ 9 := by
      simp only [Char.isDigit, Bool.and_eq_true, decide_eq_true_eq] at hc
      have hle : c.toNat ≤ 57 := hc.2
      have hzero : '0'.toNat = 48 := rfl
      omega
    have hlt := ih hds
    have hhead : 10 ^ ds.length * (c.toNat - '0'.toNat) ≤ 10 ^ ds.length * 9 :=
      Nat.mul_le_mul_left _ hdigit
    rw [Nat.ofDigitChars_cons, Nat.mul_zero, Nat.zero_add, Nat.ofDigitChars_eq_ofDigitChars_zero,
      List.length_cons, Nat.pow_succ]
    omega

theorem length_readNat {text rest : Text} {n : Nat} (h : readNat text = some (n, rest)) :
    (Nat.toDigits 10 n).length + rest.length ≤ text.length := by
  simp only [readNat] at h
  split_ifs at h with hempty
  cases h
  have hpos : 0 < (text.takeWhile Char.isDigit).length :=
    List.length_pos_iff.2 fun hnil => hempty (List.isEmpty_iff.2 hnil)
  have hdigits : (Nat.toDigits 10 (Nat.ofDigitChars 10 (text.takeWhile Char.isDigit) 0)).length ≤
      (text.takeWhile Char.isDigit).length := by
    rw [Nat.length_toDigits_le_iff (by decide) hpos]
    exact ofDigitChars_lt fun c hc => List.mem_takeWhile_imp hc
  have hsplit := congrArg List.length (List.takeWhile_append_dropWhile (p := Char.isDigit) (l := text))
  rw [List.length_append] at hsplit
  omega

theorem length_readInt {text rest : Text} {n : Int} (h : readInt text = some (n, rest)) :
    (writeInt n).length + rest.length ≤ text.length := by
  unfold readInt at h
  split at h
  · next text =>
    obtain ⟨⟨k, more⟩, hread, h⟩ := Option.map_eq_some_iff.1 h
    cases h
    have hle := length_readNat hread
    dsimp only
    rw [writeInt, Int.natAbs_neg, Int.natAbs_natCast, List.length_cons]
    split_ifs
    · rw [List.length_cons]
      omega
    · omega
  · obtain ⟨⟨k, more⟩, hread, h⟩ := Option.map_eq_some_iff.1 h
    cases h
    rw [writeInt, if_neg (by omega), Int.natAbs_natCast]
    exact length_readNat hread

theorem length_skip_le (text : Text) : (skip text).length ≤ text.length :=
  (List.dropWhile_suffix _).length_le

theorem length_expect {c : Char} {text rest : Text} (h : expect c text = some rest) :
    rest.length + 1 ≤ text.length := by
  have hskip := length_skip_le text
  unfold expect at h
  split at h
  · cases h
  · next d more hd =>
    split_ifs at h
    cases h
    rw [hd, List.length_cons] at hskip
    exact hskip

section Lists

variable {α : Type} {item : Text → Option (α × Text)} {w : α → Text} {close : Char}

/-- What is read as an item is as long as that item written. -/
def Spends (item : Text → Option (α × Text)) (w : α → Text) : Prop :=
  ∀ {text a rest}, item text = some (a, rest) → (w a).length + rest.length ≤ text.length

theorem length_readMore (hitem : Spends item w) {n : Nat} {text rest : Text} {as : List α}
    (h : readMore item close n text = some (as, rest)) :
    (commas (as.map w)).length + rest.length + 1 ≤ text.length := by
  induction n generalizing text rest as with
  | zero => cases h
  | succ n ih =>
    rw [readMore] at h
    obtain ⟨⟨a, more⟩, hread, h⟩ := Option.bind_eq_some_iff.1 h
    have hfirst := hitem hread
    have hskip := length_skip_le more
    dsimp only at h
    split at h
    · cases h
    next d behind hd =>
    rw [hd, List.length_cons] at hskip
    split_ifs at h
    · cases h
      rw [List.map_cons, List.map_nil, commas]
      omega
    · obtain ⟨⟨as, rest⟩, hmore, h⟩ := Option.bind_eq_some_iff.1 h
      cases h
      have hle := ih hmore
      cases as with
      | nil =>
        dsimp only
        rw [List.map_cons, List.map_nil, commas]
        omega
      | cons b as =>
        simp only [List.map_cons, commas_cons_cons, List.length_append, List.length_cons] at hle ⊢
        omega

theorem length_readList (hitem : Spends item w) {text rest : Text} {as : List α}
    (h : readList item close text = some (as, rest)) :
    (commas (as.map w)).length + rest.length + 1 ≤ text.length := by
  unfold readList at h
  split at h
  · next hclose =>
    cases h
    have hle := length_expect hclose
    simpa [commas] using hle
  · exact length_readMore hitem h

end Lists

theorem spends_readMember {value : Text → Option (Json × Text)}
    (hvalue : Spends value (write short)) : Spends (readMember value) (writeMember short) := by
  intro text member rest h
  simp only [readMember, readKey, Option.bind_eq_bind, Option.bind_eq_some_iff, Prod.exists,
    Option.some.injEq, Prod.mk.injEq] at h
  obtain ⟨key, behind, ⟨opened, hopen, key, closed, hkey, behind, hcolon, rfl, rfl⟩, j, rest, hj, rfl,
    rfl⟩ := h
  have hopened := length_expect hopen
  have hclosed := length_readString hkey
  have hbehind := length_expect hcolon
  have hrest := hvalue hj
  rw [writeMember, List.length_append, length_writeString, List.length_cons]
  dsimp only
  omega

theorem spends_readValue (n : Nat) : Spends (readValue n) (write short) := by
  induction n with
  | zero =>
    intro text j rest h
    cases h
  | succ n ih =>
    intro text j rest h
    have hskip := length_skip_le text
    rw [readValue] at h
    split at h
    · next more hd =>
      cases h
      simp only [hd, List.length_cons] at hskip
      simp only [write, List.length_cons, List.length_nil]
      omega
    · next more hd =>
      cases h
      simp only [hd, List.length_cons] at hskip
      simp only [write, if_true, List.length_cons, List.length_nil]
      omega
    · next more hd =>
      cases h
      simp only [hd, List.length_cons] at hskip
      simp only [write, Bool.false_eq_true, if_false, List.length_cons, List.length_nil]
      omega
    · next more hd =>
      obtain ⟨⟨s, behind⟩, hread, h⟩ := Option.map_eq_some_iff.1 h
      cases h
      have hle := length_readString hread
      rw [hd, List.length_cons] at hskip
      rw [write, length_writeString]
      dsimp only
      omega
    · next more hd =>
      obtain ⟨⟨js, behind⟩, hread, h⟩ := Option.map_eq_some_iff.1 h
      cases h
      have hle := length_readList ih hread
      rw [hd, List.length_cons] at hskip
      rw [write, writeItems_eq, List.length_append, List.length_cons, List.length_singleton]
      dsimp only
      omega
    · next more hd =>
      obtain ⟨⟨members, behind⟩, hread, h⟩ := Option.map_eq_some_iff.1 h
      cases h
      have hle := length_readList (spends_readMember ih) hread
      rw [hd, List.length_cons] at hskip
      rw [write, writeMembers_eq, List.length_append, List.length_cons, List.length_singleton]
      dsimp only
      omega
    · obtain ⟨⟨k, behind⟩, hread, h⟩ := Option.map_eq_some_iff.1 h
      cases h
      have hle := length_readInt hread
      rw [write]
      dsimp only
      omega

/-- A text that reads as a value is at least as long as the value with every special character in two. -/
theorem length_le_of_decode {text : Text} {j : Json} (h : decode text = some j) :
    (write short j).length ≤ text.length := by
  unfold decode at h
  split at h
  · cases h
  · next k rest hread =>
    split_ifs at h
    cases h
    exact (Nat.le_add_right _ _).trans (spends_readValue _ hread)

/-! ### Writers that know some characters -/

/-- The characters that a writer escapes, each with the one behind its backslash. -/
structure Shorthand where
  pairs : List (Char × Char)
  reads : ∀ p ∈ pairs, unescape p.2 = some p.1
  special : ∀ p ∈ pairs, standard.special p.1 = true

namespace Shorthand

variable (k : Shorthand) {s : Text} {c d : Char}

def mark (c : Char) : Option Char := k.pairs.lookup c

def char (c : Char) : Text :=
  match k.mark c with
  | some d => ['\\', d]
  | none => [c]

def run (s : Text) : Text := s.flatMap k.char

/-- A writer that tries one character after the other. -/
theorem run_eq {f : Char → Text}
    (h : ∀ c, f c = k.pairs.foldr (fun p more => if c = p.1 then ['\\', p.2] else more) [c]) :
    s.flatMap f = k.run s := by
  refine congrArg (s.flatMap ·) (funext fun c => ?_)
  rw [h, char, mark]
  induction k.pairs with
  | nil => rfl
  | cons p pairs ih =>
    rw [List.foldr_cons, List.lookup_cons, ih]
    by_cases hc : c = p.1
    · rw [if_pos hc, beq_iff_eq.2 hc]
    · rw [if_neg hc, beq_eq_false_iff_ne.2 hc]

/-- The writer knows every special character of the string. -/
def Covers (s : Text) : Prop := ∀ c ∈ s, standard.special c = true → (k.mark c).isSome = true

instance : DecidablePred k.Covers := fun s =>
  inferInstanceAs (Decidable (∀ c ∈ s, standard.special c = true → (k.mark c).isSome = true))

theorem covers_cons : k.Covers (c :: s) ↔
    (standard.special c = true → (k.mark c).isSome = true) ∧ k.Covers s := List.forall_mem_cons

theorem covers_of_plain (h : standard.Plain s) : k.Covers s := by
  intro c hc hspecial
  rw [h c hc] at hspecial
  cases hspecial

theorem mem_of_mark (h : k.mark c = some d) : (c, d) ∈ k.pairs := by
  obtain ⟨before, after, hpairs, -⟩ := List.lookup_eq_some_iff.1 h
  rw [hpairs]
  exact List.mem_append_right _ (List.mem_cons_self ..)

theorem unescape_mark (h : k.mark c = some d) : unescape d = some c := k.reads _ (k.mem_of_mark h)

theorem special_mark (h : k.mark c = some d) : standard.special c = true :=
  k.special _ (k.mem_of_mark h)

theorem run_of_plain (h : standard.Plain s) : k.run s = s := by
  induction s with
  | nil => rfl
  | cons c s ih =>
    rw [Escaper.plain_cons] at h
    have hmark : k.mark c = none := by
      rcases hmark : k.mark c with _ | d
      · rfl
      · rw [k.special_mark hmark] at h
        cases h.1
    have hs : s.flatMap k.char = s := ih h.2
    rw [run, List.flatMap_cons, char, hmark, hs, List.singleton_append]

theorem readString_run (h : k.Covers s) (rest : Text) :
    readString (k.run s ++ '"' :: rest) = some (s, rest) := by
  induction s with
  | nil => rfl
  | cons c s ih =>
    rw [covers_cons] at h
    have hs : readString (s.flatMap k.char ++ '"' :: rest) = some (s, rest) := ih h.2
    rw [run, List.flatMap_cons, char]
    rcases hmark : k.mark c with _ | d
    · have hplain : ¬ standard.special c = true := by
        intro hspecial
        rw [hmark] at h
        cases h.1 hspecial
      rw [standard_special, not_or, not_or] at hplain
      simp only [List.cons_append, List.nil_append]
      rw [readString_plain hplain.1 hplain.2.1 (Nat.le_of_not_lt hplain.2.2), hs, Option.map_some]
    · have hd : d ≠ 'u' := by
        rintro rfl
        cases k.unescape_mark hmark
      simp only [List.cons_append, List.nil_append]
      rw [readString_short hd, k.unescape_mark hmark, hs]
      rfl

theorem length_run_le (s : Text) : (k.run s).length ≤ (short s).length := by
  induction s with
  | nil => exact Nat.le_refl _
  | cons c s ih =>
    rw [run] at ih
    rw [run, List.flatMap_cons, List.length_append, length_short_cons, char]
    rcases hmark : k.mark c with _ | d
    · simp only [List.length_singleton]
      split_ifs <;> omega
    · rw [if_pos (k.special_mark hmark)]
      simp only [List.length_cons, List.length_nil]
      omega

theorem covers_of_length (h : (short s).length ≤ (k.run s).length) : k.Covers s := by
  induction s with
  | nil => exact List.forall_mem_nil _
  | cons c s ih =>
    have hle := k.length_run_le s
    rw [run] at hle ih
    rw [run, List.flatMap_cons, List.length_append, length_short_cons, char] at h
    rw [covers_cons]
    rcases hmark : k.mark c with _ | d
    · simp only [hmark, List.length_singleton] at h
      split_ifs at h with hspecial
      · omega
      · exact ⟨fun h => absurd h hspecial, ih (by omega)⟩
    · simp only [hmark, if_pos (k.special_mark hmark), List.length_cons, List.length_nil] at h
      exact ⟨fun _ => rfl, ih (by omega)⟩

/-- The writer knows the special characters of all strings of a value. -/
def CoversAll (j : Json) : Prop := ∀ s ∈ strings j, k.Covers s

/-- Only what the writer covers is read back. -/
theorem decode_write_iff (j : Json) : decode (write k.run j) = some j ↔ k.CoversAll j := by
  constructor
  · intro h
    have hle := length_le_of_decode h
    rw [length_write, length_write, Nat.add_le_add_iff_left] at hle
    intro s hs
    apply k.covers_of_length
    rw [eq_of_escapedLength_le (fun s _ => k.length_run_le s) hle s hs]
  · intro h
    -- what the writer does with other strings does not matter
    have hwrite : write k.run j = write (fun s => if k.Covers s then k.run s else standard.run s) j :=
      write_congr fun s hs => (if_pos (h s hs)).symm
    rw [hwrite]
    apply decode_write
    intro s rest
    dsimp only
    split_ifs with hs
    · exact k.readString_run hs rest
    · exact codec_standard s rest

/-! ### What is covered -/

@[simp]
theorem coversAll_num (n : Int) : k.CoversAll (num n) := List.forall_mem_nil _

@[simp]
theorem coversAll_bool (b : Bool) : k.CoversAll (bool b) := List.forall_mem_nil _

@[simp]
theorem coversAll_str : k.CoversAll (str s) ↔ k.Covers s := List.forall_mem_singleton

@[simp]
theorem coversAll_arr (items : List Json) :
    k.CoversAll (arr items) ↔ ∀ j ∈ items, k.CoversAll j := by
  rw [CoversAll, strings]
  induction items with
  | nil => simp [stringsItems]
  | cons j js ih =>
    rw [stringsItems, List.forall_mem_append, ih, List.forall_mem_cons]
    rfl

theorem coversAll_obj (members : List (Text × Json)) :
    k.CoversAll (obj members) ↔ ∀ m ∈ members, k.Covers m.1 ∧ k.CoversAll m.2 := by
  rw [CoversAll, strings]
  induction members with
  | nil => simp [stringsMembers]
  | cons m members ih =>
    obtain ⟨key, j⟩ := m
    rw [stringsMembers, List.forall_mem_cons, List.forall_mem_append, ih, List.forall_mem_cons]
    exact and_assoc.symm

end Shorthand

end Json
