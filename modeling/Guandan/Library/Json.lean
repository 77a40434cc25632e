import Guandan.Library.Quoted
import Mathlib.Algebra.Order.Ring.Int

/-!
# JSON

Values, a writer without blanks and a reader. The writer takes the way strings are escaped as a
parameter: the reader has the value back whenever it has the strings back (`decode_write`). Numbers
are integers, and an escape of four digits is one character.
-/

open Quoted

inductive Json
  | null
  | bool (b : Bool)
  | num (n : Int)
  | str (s : Text)
  | arr (items : List Json)
  | obj (members : List (Text × Json))

namespace Json

/-- The value of a member; of two members under one key, the last one counts. -/
def get? (j : Json) (key : Text) : Option Json :=
  match j with
  | obj members => (members.reverse.find? fun member => member.1 == key).map (·.2)
  | _ => none

theorem get?_append (members more : List (Text × Json)) (key : Text) :
    (obj (members ++ more)).get? key = ((obj more).get? key).or ((obj members).get? key) := by
  rw [get?, get?, get?, List.reverse_append, List.find?_append, Option.map_or]

theorem get?_singleton (name : Text) (j : Json) (key : Text) :
    (obj [(name, j)]).get? key = if name = key then some j else none := by
  rw [get?, List.reverse_singleton, List.find?_singleton]
  by_cases hkey : name = key
  · rw [if_pos hkey, if_pos (beq_iff_eq.2 hkey), Option.map_some]
  · rw [if_neg hkey, if_neg (mt beq_iff_eq.1 hkey), Option.map_none]

/-! ### Writing -/

def writeInt (n : Int) : Text :=
  if n < 0 then '-' :: Nat.toDigits 10 n.natAbs else Nat.toDigits 10 n.natAbs

/-- Texts with commas between them. -/
def commas : List Text → Text
  | [] => []
  | [text] => text
  | text :: texts => text ++ ',' :: commas texts

theorem commas_cons_cons (text more : Text) (texts : List Text) :
    commas (text :: more :: texts) = text ++ ',' :: commas (more :: texts) := rfl

theorem commas_cons (text : Text) (texts : List Text) :
    commas (text :: texts) = text ++ texts.flatMap (',' :: ·) := by
  induction texts generalizing text with
  | nil => simp [commas]
  | cons more texts ih => rw [commas_cons_cons, ih, List.flatMap_cons, List.cons_append]

section Write

variable (esc : Text → Text)

def writeString (s : Text) : Text := '"' :: esc s ++ ['"']

mutual

def write : Json → Text
  | null => ['n', 'u', 'l', 'l']
  | bool b => if b then ['t', 'r', 'u', 'e'] else ['f', 'a', 'l', 's', 'e']
  | num n => writeInt n
  | str s => writeString esc s
  | arr items => '[' :: commas (writeItems items) ++ [']']
  | obj members => '{' :: commas (writeMembers members) ++ ['}']

def writeItems : List Json → List Text
  | [] => []
  | j :: js => write j :: writeItems js

def writeMembers : List (Text × Json) → List Text
  | [] => []
  | (key, j) :: members => (writeString esc key ++ ':' :: write j) :: writeMembers members

end

/-- A member of an object. -/
def writeMember (member : Text × Json) : Text :=
  writeString esc member.1 ++ ':' :: write esc member.2

theorem writeItems_eq (js : List Json) : writeItems esc js = js.map (write esc) := by
  induction js with
  | nil => rfl
  | cons j js ih => rw [writeItems, ih, List.map_cons]

theorem writeMembers_eq (members : List (Text × Json)) :
    writeMembers esc members = members.map (writeMember esc) := by
  induction members with
  | nil => rfl
  | cons member members ih =>
    obtain ⟨key, j⟩ := member
    rw [writeMembers, ih, List.map_cons, writeMember]

end Write

/-! ### Reading -/

def hexValue (c : Char) : Option Nat :=
  if c.isDigit then some (c.toNat - '0'.toNat)
  else if 'a' ≤ c ∧ c ≤ 'f' then some (c.toNat - 'a'.toNat + 10)
  else if 'A' ≤ c ∧ c ≤ 'F' then some (c.toNat - 'A'.toNat + 10)
  else none

def hexChar (a b c d : Char) : Option Char := do
  let a ← hexValue a
  let b ← hexValue b
  let c ← hexValue c
  let d ← hexValue d
  some (Char.ofNat (((a * 16 + b) * 16 + c) * 16 + d))

/-- The character behind a backslash. -/
def unescape : Char → Option Char
  | '"' => some '"'
  | '\\' => some '\\'
  | '/' => some '/'
  | 'b' => some '\x08'
  | 'f' => some '\x0c'
  | 'n' => some '\n'
  | 'r' => some '\r'
  | 't' => some '\t'
  | _ => none

/-- A string behind its opening quote, and the text behind its closing one. -/
def readString : Text → Option (Text × Text)
  | [] => none
  | '"' :: rest => some ([], rest)
  | '\\' :: 'u' :: a :: b :: c :: d :: rest => do
    let char ← hexChar a b c d
    let (s, rest) ← readString rest
    some (char :: s, rest)
  | '\\' :: c :: rest => do
    let char ← unescape c
    let (s, rest) ← readString rest
    some (char :: s, rest)
  | c :: rest => do
    let (s, rest) ← readString rest
    if c.toNat < 32 then none else some (c :: s, rest)

def isBlank (c : Char) : Bool := c == ' ' || c == '\t' || c == '\n' || c == '\r'

def skip (text : Text) : Text := text.dropWhile isBlank

/-- What is read after blanks. -/
def expect (c : Char) (text : Text) : Option Text :=
  match skip text with
  | [] => none
  | d :: rest => if d = c then some rest else none

def readNat (text : Text) : Option (Nat × Text) :=
  let ds := text.takeWhile Char.isDigit
  if ds.isEmpty then none else some (Nat.ofDigitChars 10 ds 0, text.dropWhile Char.isDigit)

def readInt : Text → Option (Int × Text)
  | '-' :: rest => (readNat rest).map fun r => (-(r.1 : Int), r.2)
  | text => (readNat text).map fun r => ((r.1 : Int), r.2)

section ReadList

variable {α : Type} (item : Text → Option (α × Text)) (close : Char)

/-- Items, with commas between them, up to the closing character. -/
def readMore : Nat → Text → Option (List α × Text)
  | 0, _ => none
  | n + 1, text => do
    let (a, rest) ← item text
    match skip rest with
    | [] => none
    | d :: rest =>
      if d = close then some ([a], rest)
      else if d = ',' then do
        let (as, rest) ← readMore n rest
        some (a :: as, rest)
      else none

def readList (text : Text) : Option (List α × Text) :=
  match expect close text with
  | some rest => some ([], rest)
  | none => readMore item close text.length text

end ReadList

def readKey (text : Text) : Option (Text × Text) := do
  let rest ← expect '"' text
  let (key, rest) ← readString rest
  let rest ← expect ':' rest
  some (key, rest)

def readMember (value : Text → Option (Json × Text)) (text : Text) : Option ((Text × Json) × Text) := do
  let (key, rest) ← readKey text
  let (j, rest) ← value rest
  some ((key, j), rest)

/-- A value of that depth at most, and the text behind it. -/
def readValue : Nat → Text → Option (Json × Text)
  | 0, _ => none
  | n + 1, text =>
    match skip text with
    | 'n' :: 'u' :: 'l' :: 'l' :: rest => some (null, rest)
    | 't' :: 'r' :: 'u' :: 'e' :: rest => some (bool true, rest)
    | 'f' :: 'a' :: 'l' :: 's' :: 'e' :: rest => some (bool false, rest)
    | '"' :: rest => (readString rest).map fun r => (str r.1, r.2)
    | '[' :: rest => (readList (readValue n) ']' rest).map fun r => (arr r.1, r.2)
    | '{' :: rest => (readList (readMember (readValue n)) '}' rest).map fun r => (obj r.1, r.2)
    | text => (readInt text).map fun r => (num r.1, r.2)

/-- The value that the whole text is. -/
def decode (text : Text) : Option Json :=
  match readValue text.length text with
  | none => none
  | some (j, rest) => if (skip rest).isEmpty then some j else none

/-! ### Reading what was written -/

mutual

/-- How deep arrays and objects are nested. -/
def depth : Json → Nat
  | arr items => depthItems items + 1
  | obj members => depthMembers members + 1
  | _ => 1

def depthItems : List Json → Nat
  | [] => 0
  | j :: js => max (depth j) (depthItems js)

def depthMembers : List (Text × Json) → Nat
  | [] => 0
  | (_, j) :: members => max (depth j) (depthMembers members)

end

theorem depth_le_items {j : Json} {js : List Json} (h : j ∈ js) : depth j ≤ depthItems js := by
  induction js with
  | nil => cases h
  | cons i js ih =>
    rw [depthItems]
    rcases List.mem_cons.1 h with rfl | h
    · exact Nat.le_max_left ..
    · exact (ih h).trans (Nat.le_max_right ..)

theorem depth_le_members {member : Text × Json} {members : List (Text × Json)} (h : member ∈ members) :
    depth member.2 ≤ depthMembers members := by
  induction members with
  | nil => cases h
  | cons first members ih =>
    obtain ⟨key, j⟩ := first
    rw [depthMembers]
    rcases List.mem_cons.1 h with rfl | h
    · exact Nat.le_max_left ..
    · exact (ih h).trans (Nat.le_max_right ..)

/-- The way strings are escaped is undone by reading them. -/
def Codec (esc : Text → Text) : Prop :=
  ∀ s rest, readString (esc s ++ '"' :: rest) = some (s, rest)

/-- A number ends where the text begins. -/
def Stops (text : Text) : Prop := ∀ c cs, text = c :: cs → c.isDigit = false

theorem stops_cons {c : Char} (hc : c.isDigit = false) (cs : Text) : Stops (c :: cs) := by
  rintro d ds ⟨⟩
  exact hc

theorem skip_cons {c : Char} (hc : isBlank c = false) (cs : Text) : skip (c :: cs) = c :: cs := by
  rw [skip, List.dropWhile_cons_of_neg (by simp [hc])]

section Lists

variable {α : Type} {item : Text → Option (α × Text)} {w : α → Text} {close : Char} {rest : Text}
  {as : List α}

/-- An item is read back, wherever a comma or the closing character follows. -/
def ReadsItems (item : Text → Option (α × Text)) (w : α → Text) (as : List α) : Prop :=
  ∀ a ∈ as, ∀ rest, Stops rest → item (w a ++ rest) = some (a, rest)

theorem readMore_commas (hread : ReadsItems item w as) (hne : as ≠ []) {n : Nat}
    (hn : as.length ≤ n) (hblank : isBlank close = false) (hdigit : close.isDigit = false)
    (hcomma : close ≠ ',') :
    readMore item close n (commas (as.map w) ++ close :: rest) = some (as, rest) := by
  induction as generalizing n with
  | nil => exact absurd rfl hne
  | cons a as ih =>
    obtain ⟨ha, has⟩ := List.forall_mem_cons.1 hread
    cases n with
    | zero => cases hn
    | succ n =>
      rw [List.length_cons, Nat.add_le_add_iff_right] at hn
      cases as with
      | nil =>
        rw [List.map_cons, List.map_nil, commas, readMore, ha _ (stops_cons hdigit rest)]
        simp [skip_cons hblank]
      | cons b as =>
        rw [List.map_cons, List.map_cons, commas_cons_cons, List.append_assoc, readMore,
          List.cons_append, ha _ (stops_cons (by decide) _)]
        have hmore := ih has (List.cons_ne_nil b as) hn
        rw [List.map_cons] at hmore
        simp [skip_cons (c := ',') (by decide), Ne.symm hcomma, hmore]

theorem length_le_commas (hne : ∀ a ∈ as, w a ≠ []) : as.length ≤ (commas (as.map w)).length := by
  induction as with
  | nil => exact Nat.le_refl _
  | cons a as ih =>
    obtain ⟨ha, has⟩ := List.forall_mem_cons.1 hne
    have hpos : 0 < (w a).length := List.length_pos_iff.2 ha
    cases as with
    | nil => exact hpos
    | cons b as =>
      have hlen := ih has
      rw [List.map_cons] at hlen
      simp only [List.map_cons, commas, List.length_cons, List.length_append] at hlen ⊢
      omega

theorem readList_commas (hread : ReadsItems item w as)
    (hfirst : ∀ a ∈ as, ∃ c cs, w a = c :: cs ∧ isBlank c = false ∧ c ≠ close)
    (hblank : isBlank close = false) (hdigit : close.isDigit = false) (hcomma : close ≠ ',') :
    readList item close (commas (as.map w) ++ close :: rest) = some (as, rest) := by
  rcases as with _ | ⟨a, as⟩
  · simp [readList, commas, expect, skip_cons hblank]
  · obtain ⟨c, cs, hw, hc, hne⟩ := hfirst a (List.mem_cons_self ..)
    have hstart : ∃ more, commas ((a :: as).map w) ++ close :: rest = c :: more := by
      rcases as with _ | ⟨b, as⟩ <;> simp [commas, hw]
    obtain ⟨more, hmore⟩ := hstart
    have hopen : expect close (commas ((a :: as).map w) ++ close :: rest) = none := by
      rw [hmore, expect, skip_cons hc]
      exact if_neg hne
    have hlen : (a :: as).length ≤ (commas ((a :: as).map w) ++ close :: rest).length := by
      rw [List.length_append]
      refine (length_le_commas fun a ha => ?_).trans (Nat.le_add_right _ _)
      obtain ⟨c, cs, hw, -⟩ := hfirst a ha
      rw [hw]
      exact List.cons_ne_nil c cs
    rw [readList, hopen]
    exact readMore_commas hread (List.cons_ne_nil a as) hlen hblank hdigit hcomma

end Lists

theorem readNat_digits (n : Nat) {rest : Text} (hrest : Stops rest) :
    readNat (Nat.toDigits 10 n ++ rest) = some (n, rest) := by
  have hall : ∀ c ∈ Nat.toDigits 10 n, c.isDigit = true := fun c hc =>
    Nat.isDigit_of_mem_toDigits (by decide) (by decide) hc
  have htake : rest.takeWhile Char.isDigit = [] := by
    rcases rest with _ | ⟨c, cs⟩
    · rfl
    · rw [List.takeWhile_cons_of_neg (by simp [hrest c cs rfl])]
  have hdrop : rest.dropWhile Char.isDigit = rest := by
    rcases rest with _ | ⟨c, cs⟩
    · rfl
    · rw [List.dropWhile_cons_of_neg (by simp [hrest c cs rfl])]
  have hne : (Nat.toDigits 10 n).isEmpty = false := by
    rw [List.isEmpty_eq_false_iff]
    exact Nat.toDigits_ne_nil
  have hread : Nat.ofDigitChars 10 (Nat.toDigits 10 n) 0 = n := Nat.ofDigitChars_ten_toDigits
  simp only [readNat, List.takeWhile_append_of_pos hall, List.dropWhile_append_of_pos hall, htake,
    hdrop, List.append_nil, hne, hread]
  rfl

theorem isDigit_of_mem {n : Nat} {c : Char} (hc : c ∈ Nat.toDigits 10 n) : c.isDigit = true :=
  Nat.isDigit_of_mem_toDigits (by decide) (by decide) hc

/-- A number is written with digits and a sign. -/
theorem writeInt_chars {n : Int} {c : Char} (hc : c ∈ writeInt n) : c.isDigit = true ∨ c = '-' := by
  unfold writeInt at hc
  split_ifs at hc
  · exact (List.mem_cons.1 hc).elim .inr fun hc => .inl (isDigit_of_mem hc)
  · exact .inl (isDigit_of_mem hc)

theorem writeInt_first (n : Int) :
    ∃ c cs, writeInt n = c :: cs ∧ (c.isDigit = true ∨ c = '-') := by
  have hne : writeInt n ≠ [] := by
    unfold writeInt
    split_ifs
    · exact List.cons_ne_nil _ _
    · exact Nat.toDigits_ne_nil
  obtain ⟨c, cs, hn⟩ := List.exists_cons_of_ne_nil hne
  exact ⟨c, cs, hn, writeInt_chars (hn ▸ List.mem_cons_self ..)⟩

theorem readInt_write (n : Int) {rest : Text} (hrest : Stops rest) :
    readInt (writeInt n ++ rest) = some (n, rest) := by
  unfold writeInt
  split_ifs with hneg
  · rw [List.cons_append, readInt, readNat_digits _ hrest, Option.map_some]
    congr 2
    omega
  · have hsign : readInt (Nat.toDigits 10 n.natAbs ++ rest) =
        (readNat (Nat.toDigits 10 n.natAbs ++ rest)).map fun r => ((r.1 : Int), r.2) := by
      obtain ⟨c, cs, hdigits⟩ :=
        List.exists_cons_of_ne_nil (Nat.toDigits_ne_nil (n := n.natAbs) (b := 10))
      have hc : c ≠ '-' := by
        rintro rfl
        exact absurd (isDigit_of_mem (hdigits ▸ List.mem_cons_self ..)) (by decide)
      rw [hdigits, List.cons_append, readInt.eq_def]
      split
      · next h => exact absurd (List.cons_eq_cons.1 h).1 hc
      · rfl
    rw [hsign, readNat_digits _ hrest, Option.map_some]
    congr 2
    omega

theorem number_not_blank {c : Char} (hc : c.isDigit = true ∨ c = '-') : isBlank c = false := by
  rw [Bool.eq_false_iff]
  intro hblank
  simp only [isBlank, Bool.or_eq_true, beq_iff_eq] at hblank
  rcases hblank with ((rfl | rfl) | rfl) | rfl <;> revert hc <;> decide

/-- What begins no other value is a number. -/
theorem readValue_number (n : Nat) {c : Char} (hc : c.isDigit = true ∨ c = '-') (cs : Text) :
    readValue (n + 1) (c :: cs) = (readInt (c :: cs)).map fun r => (num r.1, r.2) := by
  have hblank := number_not_blank hc
  have hother : c ∉ ['n', 't', 'f', '"', '[', '{'] := by
    intro hmem
    simp only [List.mem_cons, List.not_mem_nil, or_false] at hmem
    rcases hmem with rfl | rfl | rfl | rfl | rfl | rfl <;> revert hc <;> decide
  simp only [List.mem_cons, List.not_mem_nil, or_false, not_or] at hother
  obtain ⟨hn, ht, hf, hq, hb, ho⟩ := hother
  rw [readValue, skip_cons hblank]
  split
  all_goals first
    | rfl
    | next h => exact absurd (List.cons_eq_cons.1 h).1 ‹_›

theorem readValue_bool (n : Nat) (b : Bool) (esc : Text → Text) (rest : Text) :
    readValue (n + 1) (write esc (bool b) ++ rest) = some (bool b, rest) := by
  cases b <;> rfl

/-- A value begins with no blank and closes nothing. -/
theorem write_first (esc : Text → Text) (j : Json) :
    ∃ c cs, write esc j = c :: cs ∧ isBlank c = false ∧ c ≠ ']' := by
  cases j with
  | null => exact ⟨_, _, rfl, by decide, by decide⟩
  | bool b => cases b <;> exact ⟨_, _, rfl, by decide, by decide⟩
  | num n =>
    obtain ⟨c, cs, hn, hc⟩ := writeInt_first n
    refine ⟨c, cs, by rw [write, hn], number_not_blank hc, ?_⟩
    rintro rfl
    revert hc
    decide
  | str s => exact ⟨_, _, rfl, by decide, by decide⟩
  | arr items => exact ⟨_, _, rfl, by decide, by decide⟩
  | obj members => exact ⟨_, _, rfl, by decide, by decide⟩

theorem le_length_commas {text : Text} {texts : List Text} (h : text ∈ texts) :
    text.length ≤ (commas texts).length := by
  induction texts with
  | nil => cases h
  | cons first texts ih =>
    cases texts with
    | nil => rw [List.mem_singleton.1 h, commas]
    | cons next texts =>
      rw [commas_cons_cons, List.length_append, List.length_cons]
      rcases List.mem_cons.1 h with rfl | h
      · omega
      · have hle := ih h
        omega

mutual

theorem depth_le_length (esc : Text → Text) : ∀ j : Json, depth j ≤ (write esc j).length
  | null => Nat.succ_le_succ (Nat.zero_le _)
  | bool b => by cases b <;> exact Nat.succ_le_succ (Nat.zero_le _)
  | num n => by
    obtain ⟨c, cs, hn, -⟩ := writeInt_first n
    rw [write, hn]
    exact Nat.succ_le_succ (Nat.zero_le _)
  | str s => Nat.succ_le_succ (Nat.zero_le _)
  | arr items => by
    have hitems := depthItems_le_length esc items (commas (writeItems esc items)).length
      fun text htext => le_length_commas htext
    rw [depth, write, List.length_append, List.length_cons]
    omega
  | obj members => by
    have hmembers := depthMembers_le_length esc members (commas (writeMembers esc members)).length
      fun text htext => le_length_commas htext
    rw [depth, write, List.length_append, List.length_cons]
    omega

theorem depthItems_le_length (esc : Text → Text) : ∀ (js : List Json) (n : Nat),
    (∀ text ∈ writeItems esc js, text.length ≤ n) → depthItems js ≤ n
  | [], _, _ => Nat.zero_le _
  | j :: js, n, h => by
    rw [writeItems, List.forall_mem_cons] at h
    exact Nat.max_le.2 ⟨(depth_le_length esc j).trans h.1, depthItems_le_length esc js n h.2⟩

theorem depthMembers_le_length (esc : Text → Text) : ∀ (members : List (Text × Json)) (n : Nat),
    (∀ text ∈ writeMembers esc members, text.length ≤ n) → depthMembers members ≤ n
  | [], _, _ => Nat.zero_le _
  | (key, j) :: members, n, h => by
    rw [writeMembers, List.forall_mem_cons, List.length_append, List.length_cons] at h
    have hj := depth_le_length esc j
    exact Nat.max_le.2 ⟨by omega, depthMembers_le_length esc members n h.2⟩

end

section RoundTrip

variable {esc : Text → Text} (hesc : Codec esc)
include hesc

theorem readMember_write {value : Text → Option (Json × Text)} {member : Text × Json} {rest : Text}
    (hvalue : value (write esc member.2 ++ rest) = some (member.2, rest)) :
    readMember value (writeMember esc member ++ rest) = some (member, rest) := by
  have hkey : readKey (writeMember esc member ++ rest) =
      some (member.1, write esc member.2 ++ rest) := by
    simp only [readKey, writeMember, writeString, List.cons_append, List.append_assoc,
      List.nil_append, expect, skip_cons (c := '"') (by decide)]
    simp [hesc member.1, skip_cons (c := ':') (by decide)]
  simp [readMember, hkey, hvalue]

theorem readValue_write {n : Nat} {j : Json} (hn : depth j ≤ n) {rest : Text} (hrest : Stops rest) :
    readValue n (write esc j ++ rest) = some (j, rest) := by
  induction n generalizing j rest with
  | zero => cases j <;> simp [depth] at hn
  | succ n ih =>
    cases j with
    | null => rfl
    | bool b => exact readValue_bool n b esc rest
    | num m =>
      obtain ⟨c, cs, hm, hc⟩ := writeInt_first m
      rw [write, hm, List.cons_append, readValue_number n hc, ← List.cons_append, ← hm,
        readInt_write m hrest, Option.map_some]
    | str s =>
      rw [write, writeString, List.cons_append, List.cons_append, List.append_assoc, readValue,
        skip_cons (by decide)]
      simp [hesc s]
    | arr items =>
      have hitems : ReadsItems (readValue n) (write esc) items := by
        intro j hj rest hrest
        rw [depth, Nat.add_le_add_iff_right] at hn
        exact ih ((depth_le_items hj).trans hn) hrest
      rw [write, writeItems_eq, List.cons_append, List.cons_append, List.append_assoc, readValue,
        skip_cons (by decide)]
      have hlist : readList (readValue n) ']' (commas (items.map (write esc)) ++ ']' :: rest) =
          some (items, rest) :=
        readList_commas hitems (fun j _ => write_first esc j) (by decide) (by decide) (by decide)
      simp [hlist]
    | obj members =>
      have hmembers : ReadsItems (readMember (readValue n)) (writeMember esc) members := by
        intro member hmember rest hrest
        rw [depth, Nat.add_le_add_iff_right] at hn
        exact readMember_write hesc (ih ((depth_le_members hmember).trans hn) hrest)
      rw [write, writeMembers_eq, List.cons_append, List.cons_append, List.append_assoc, readValue,
        skip_cons (by decide)]
      have hlist : readList (readMember (readValue n)) '}'
          (commas (members.map (writeMember esc)) ++ '}' :: rest) = some (members, rest) :=
        readList_commas hmembers (fun _ _ => ⟨_, _, rfl, by decide, by decide⟩) (by decide)
          (by decide) (by decide)
      simp [hlist]

/-- The reader has back what the writer wrote. -/
theorem decode_write (j : Json) : decode (write esc j) = some j := by
  have hread : readValue (write esc j).length (write esc j ++ []) = some (j, []) :=
    readValue_write hesc (depth_le_length esc j) fun c cs h => by cases h
  rw [List.append_nil] at hread
  rw [decode, hread]
  rfl

end RoundTrip

/-! ### The standard escapes -/

def standardMark (c : Char) : Text :=
  if c = '"' then ['"']
  else if c = '\\' then ['\\']
  else if c = '\x08' then ['b']
  else if c = '\x0c' then ['f']
  else if c = '\n' then ['n']
  else if c = '\r' then ['r']
  else if c = '\t' then ['t']
  else ['u', '0', '0', Nat.digitChar (c.toNat / 16), Nat.digitChar (c.toNat % 16)]

/-- What the mark of a character is read as. -/
inductive MarkOf (c : Char) : Text → Prop
  | short (d : Char) (hd : unescape d = some c) (hu : d ≠ 'u') (hquote : d ≠ '"' ∨ c = '"') :
      MarkOf c [d]
  | hex (a b : Char) (hhex : hexChar '0' '0' a b = some c) (ha : a ∉ ['"', '\\'])
      (hb : b ∉ ['"', '\\']) : MarkOf c ['u', '0', '0', a, b]

theorem hexChar_digitChar : ∀ n < 32,
    hexChar '0' '0' (Nat.digitChar (n / 16)) (Nat.digitChar (n % 16)) = some (Char.ofNat n) ∧
      Nat.digitChar (n / 16) ∉ ['"', '\\'] ∧ Nat.digitChar (n % 16) ∉ ['"', '\\'] := by
  decide

theorem markOf_standard {c : Char} (hc : c = '"' ∨ c = '\\' ∨ c.toNat < 32) :
    MarkOf c (standardMark c) := by
  unfold standardMark
  split_ifs with hquote hslash hb hf hn hr ht
  · exact .short _ (by rw [hquote]; rfl) (by decide) (.inr hquote)
  · exact .short _ (by rw [hslash]; rfl) (by decide) (.inl (by decide))
  · exact .short _ (by rw [hb]; rfl) (by decide) (.inl (by decide))
  · exact .short _ (by rw [hf]; rfl) (by decide) (.inl (by decide))
  · exact .short _ (by rw [hn]; rfl) (by decide) (.inl (by decide))
  · exact .short _ (by rw [hr]; rfl) (by decide) (.inl (by decide))
  · exact .short _ (by rw [ht]; rfl) (by decide) (.inl (by decide))
  · obtain ⟨hhex, ha, hb⟩ := hexChar_digitChar c.toNat ((hc.resolve_left hquote).resolve_left hslash)
    rw [Char.ofNat_toNat] at hhex
    exact .hex _ _ hhex ha hb

def standard : Escaper where
  special c := c = '"' ∨ c = '\\' ∨ c.toNat < 32
  mark := standardMark
  quote := by decide
  slash := by decide
  mark_quote := rfl
  marks c hc := by
    have hmark := markOf_standard (of_decide_eq_true hc)
    revert hmark
    generalize standardMark c = mark
    rintro (⟨d, -, -, hquote⟩ | ⟨a, b, -, ha, hb⟩)
    · exact ⟨d, [], rfl, List.not_mem_nil, List.not_mem_nil, fun hd => hquote.resolve_left (not_not.2 hd)⟩
    · refine ⟨'u', ['0', '0', a, b], rfl, ?_, ?_, fun hd => absurd hd (by decide)⟩
      · simp only [List.mem_cons, List.not_mem_nil, or_false, not_or] at ha hb ⊢
        exact ⟨by decide, by decide, Ne.symm ha.1, Ne.symm hb.1⟩
      · simp only [List.mem_cons, List.not_mem_nil, or_false, not_or] at ha hb ⊢
        exact ⟨by decide, by decide, Ne.symm ha.2, Ne.symm hb.2⟩

theorem standard_special {c : Char} :
    standard.special c = true ↔ c = '"' ∨ c = '\\' ∨ c.toNat < 32 := decide_eq_true_iff

theorem readString_short {d : Char} (hd : d ≠ 'u') (rest : Text) :
    readString ('\\' :: d :: rest) = (unescape d).bind fun char =>
      (readString rest).bind fun r => some (char :: r.1, r.2) := by
  rw [readString.eq_def]
  split
  · next h => cases h
  · next h => exact absurd (List.cons_eq_cons.1 h).1 (by decide)
  · next h => exact absurd (List.cons_eq_cons.1 (List.cons_eq_cons.1 h).2).1 hd
  · next h =>
    obtain ⟨-, h⟩ := List.cons_eq_cons.1 h
    obtain ⟨rfl, rfl⟩ := List.cons_eq_cons.1 h
    rfl
  · next hother h =>
    exact (hother d rest (List.cons_eq_cons.1 h).1.symm (List.cons_eq_cons.1 h).2.symm).elim

theorem readString_mark {c : Char} {mark : Text} (h : MarkOf c mark) (rest : Text) :
    readString ('\\' :: (mark ++ rest)) = (readString rest).map fun r => (c :: r.1, r.2) := by
  cases h with
  | short d hd hu =>
    rw [List.cons_append, List.nil_append, readString_short hu, hd]
    rcases readString rest with _ | r <;> rfl
  | hex a b hhex =>
    simp only [List.cons_append, List.nil_append, readString, hhex]
    rcases readString rest with _ | r <;> rfl

theorem readString_plain {c : Char} (hquote : c ≠ '"') (hslash : c ≠ '\\') (hc : 32 ≤ c.toNat)
    (rest : Text) : readString (c :: rest) = (readString rest).map fun r => (c :: r.1, r.2) := by
  rw [readString.eq_def]
  split
  · next h => cases h
  · next h => exact absurd (List.cons_eq_cons.1 h).1 hquote
  · next h => exact absurd (List.cons_eq_cons.1 h).1 hslash
  · next h => exact absurd (List.cons_eq_cons.1 h).1 hslash
  · next h =>
    obtain ⟨rfl, rfl⟩ := List.cons_eq_cons.1 h
    rcases readString rest with _ | r
    · rfl
    · exact if_neg (Nat.not_lt.2 hc)

theorem codec_standard : Codec standard.run := by
  intro s rest
  induction s with
  | nil => rfl
  | cons c s ih =>
    rw [Escaper.run_cons, Escaper.char]
    split_ifs with hspecial
    · have hmark : MarkOf c (standard.mark c) := markOf_standard (standard_special.1 hspecial)
      rw [List.append_assoc, List.cons_append, readString_mark hmark, ih]
      rfl
    · rw [standard_special, not_or, not_or] at hspecial
      obtain ⟨hquote, hslash, hc⟩ := hspecial
      rw [List.append_assoc, List.cons_append, List.nil_append,
        readString_plain hquote hslash (Nat.le_of_not_lt hc), ih]
      rfl

/-! ### No control characters -/

/-- No control character is written. -/
def Printable (text : Text) : Prop := ∀ c ∈ text, 32 ≤ c.toNat

instance : DecidablePred Printable := fun text => List.decidableBAll _ text

theorem printable_append {text more : Text} :
    Printable (text ++ more) ↔ Printable text ∧ Printable more := List.forall_mem_append

theorem printable_cons {c : Char} {text : Text} :
    Printable (c :: text) ↔ 32 ≤ c.toNat ∧ Printable text := List.forall_mem_cons

theorem printable_digitChar : ∀ n < 32,
    32 ≤ (Nat.digitChar (n / 16)).toNat ∧ 32 ≤ (Nat.digitChar (n % 16)).toNat := by
  decide

theorem printable_mark {c : Char} (hc : c = '"' ∨ c = '\\' ∨ c.toNat < 32) :
    Printable (standardMark c) := by
  unfold standardMark
  split_ifs with hquote hslash
  iterate 7 decide
  obtain ⟨hhigh, hlow⟩ := printable_digitChar c.toNat ((hc.resolve_left hquote).resolve_left hslash)
  simp only [printable_cons]
  exact ⟨by decide, by decide, by decide, hhigh, hlow, List.forall_mem_nil _⟩

theorem printable_run (s : Text) : Printable (standard.run s) := by
  intro c hc
  obtain ⟨d, -, hd⟩ := List.mem_flatMap.1 hc
  rw [Escaper.char] at hd
  split_ifs at hd with hspecial
  · rcases List.mem_cons.1 hd with rfl | hd
    · decide
    · exact printable_mark (standard_special.1 hspecial) c hd
  · rw [standard_special, not_or, not_or] at hspecial
    rw [List.mem_singleton.1 hd]
    exact Nat.le_of_not_lt hspecial.2.2

theorem printable_commas {texts : List Text} (h : ∀ text ∈ texts, Printable text) :
    Printable (commas texts) := by
  induction texts with
  | nil => exact List.forall_mem_nil _
  | cons text texts ih =>
    obtain ⟨htext, htexts⟩ := List.forall_mem_cons.1 h
    cases texts with
    | nil => exact htext
    | cons more texts =>
      rw [commas_cons_cons, printable_append, printable_cons]
      exact ⟨htext, by decide, ih htexts⟩

theorem printable_brackets {text : Text} {opening closing : Char} (ho : 32 ≤ opening.toNat)
    (hc : 32 ≤ closing.toNat) (h : Printable text) : Printable (opening :: text ++ [closing]) :=
  List.forall_mem_cons.2 ⟨ho, printable_append.2 ⟨h, List.forall_mem_singleton.2 hc⟩⟩

theorem printable_writeString (s : Text) : Printable (writeString standard.run s) :=
  printable_brackets (by decide) (by decide) (printable_run s)

theorem printable_writeInt (n : Int) : Printable (writeInt n) := by
  intro c hc
  rcases writeInt_chars hc with h | rfl
  · simp only [Char.isDigit, Bool.and_eq_true, decide_eq_true_eq] at h
    have hle : (48 : Nat) ≤ c.toNat := h.1
    omega
  · decide

mutual

theorem printable_write : ∀ j : Json, Printable (write standard.run j)
  | null => by decide
  | bool b => by cases b <;> decide
  | num n => printable_writeInt n
  | str s => printable_writeString s
  | arr items =>
    printable_brackets (by decide) (by decide) (printable_commas (printable_writeItems items))
  | obj members =>
    printable_brackets (by decide) (by decide) (printable_commas (printable_writeMembers members))

theorem printable_writeItems : ∀ (items : List Json), ∀ text ∈ writeItems standard.run items,
    Printable text
  | [] => List.forall_mem_nil _
  | j :: js => List.forall_mem_cons.2 ⟨printable_write j, printable_writeItems js⟩

theorem printable_writeMembers : ∀ (members : List (Text × Json)),
    ∀ text ∈ writeMembers standard.run members, Printable text
  | [] => List.forall_mem_nil _
  | (key, j) :: members => by
    have hmember : Printable (writeString standard.run key ++ ':' :: write standard.run j) :=
      printable_append.2 ⟨printable_writeString key,
        printable_cons.2 ⟨by decide, printable_write j⟩⟩
    exact List.forall_mem_cons.2 ⟨hmember, printable_writeMembers members⟩

end

end Json
