import Guandan.Protocol.Envelope
import Mathlib.Data.List.DropRight

/-!
# What is read of a message

`parseMessage` on the text of `send`, field by field. The counter of `extractDataObject` takes the
braces inside of strings for braces, no search knows where the data begins, and `parseCardsArray` does
not get past a character that belongs to no card list.
-/

namespace Guandan.Protocol

open Quoted Guandan.Client

/-! ### Braces -/

/-- How many braces are open behind the text, unless one is closed that was not opened. -/
def nest : Nat → Text → Option Nat
  | depth, [] => some depth
  | depth, c :: cs =>
    if c = '{' then nest (depth + 1) cs
    else if c = '}' then (if depth = 0 then none else nest (depth - 1) cs)
    else nest depth cs

def isBrace (c : Char) : Bool := c == '{' || c == '}'

section Braces

variable {depth k : Nat} {text rest : Text}

theorem nest_filter (depth : Nat) (text : Text) : nest depth (text.filter isBrace) = nest depth text := by
  induction text generalizing depth with
  | nil => rfl
  | cons c text ih =>
    by_cases hopen : c = '{'
    · rw [List.filter_cons_of_pos (by simp [isBrace, hopen]), nest, nest, if_pos hopen, if_pos hopen, ih]
    · by_cases hclose : c = '}'
      · rw [List.filter_cons_of_pos (by simp [isBrace, hclose]), nest, nest, if_neg hopen, if_neg hopen,
          if_pos hclose, if_pos hclose, ih]
      · rw [List.filter_cons_of_neg (by simp [isBrace, hopen, hclose]), nest, if_neg hopen, if_neg hclose,
          ih]

theorem nest_append (depth : Nat) (text more : Text) :
    nest depth (text ++ more) = (nest depth text).bind fun k => nest k more := by
  induction text generalizing depth with
  | nil => rfl
  | cons c text ih =>
    rw [List.cons_append, nest, nest]
    split_ifs
    · exact ih _
    · rfl
    · exact ih _
    · exact ih _

/-- The scan passes text in which every brace finds its partner. -/
theorem scanObject_nest (h : nest depth text = some k) :
    scanObject (depth + 1) (text ++ rest) = (scanObject (k + 1) rest).map (text ++ ·) := by
  induction text generalizing depth with
  | nil =>
    cases h
    simp
  | cons c text ih =>
    rw [nest] at h
    rw [List.cons_append, scanObject]
    split_ifs at h ⊢ with hopen hclose hzero hone hone
    · rw [ih h, Option.map_map]
      rfl
    · omega
    · have hdepth : depth - 1 + 1 = depth + 1 - 1 := by omega
      rw [← hdepth, ih h, Option.map_map]
      rfl
    · rw [ih h, Option.map_map]
      rfl

/-- A brace that closes too much ends the scan inside of the text. -/
theorem scanObject_short (h : nest depth text = none) :
    ∃ found, scanObject (depth + 1) (text ++ rest) = some found ∧ found.length ≤ text.length := by
  induction text generalizing depth with
  | nil => cases h
  | cons c text ih =>
    rw [nest] at h
    rw [List.cons_append, scanObject]
    split_ifs at h ⊢ with hopen hclose hone hzero hzero
    · obtain ⟨found, hfound, hlen⟩ := ih h
      exact ⟨c :: found, by rw [hfound]; rfl, Nat.succ_le_succ hlen⟩
    · exact ⟨[c], rfl, Nat.succ_le_succ (Nat.zero_le _)⟩
    · omega
    · omega
    · obtain ⟨found, hfound, hlen⟩ := ih h
      have hdepth : depth - 1 + 1 = depth + 1 - 1 := by omega
      exact ⟨c :: found, by rw [← hdepth, hfound]; rfl, Nat.succ_le_succ hlen⟩
    · obtain ⟨found, hfound, hlen⟩ := ih h
      exact ⟨c :: found, by rw [hfound]; rfl, Nat.succ_le_succ hlen⟩

/-- An object before the brace that closes the message is read as it is when its braces are paired,
and only then. -/
theorem scanObject_eq_iff (text : Text) :
    ((scanObject 1 (text ++ ['}', '}'])).map ('{' :: ·)).getD noObject = '{' :: text ++ ['}'] ↔
      nest 0 text = some 0 := by
  rcases h : nest 0 text with _ | k
  · obtain ⟨found, hfound, hlen⟩ : ∃ found, scanObject 1 (text ++ ['}', '}']) = some found ∧
        found.length ≤ text.length := scanObject_short h
    rw [hfound]
    refine iff_of_false (fun heq => ?_) (by simp)
    have hlength := congrArg List.length heq
    simp at hlength
    omega
  · rw [scanObject_nest h]
    rcases k with _ | _ | k
    · simp [scanObject]
    · refine iff_of_false (fun heq => ?_) (by simp)
      have hlength := congrArg List.length heq
      simp [scanObject] at hlength
    · have hopen : scanObject (k + 1 + 1 + 1) ['}', '}'] = none := by
        simp [scanObject]
      rw [hopen]
      refine iff_of_false (fun heq => ?_) (by simp)
      have hlength := congrArg List.length heq
      have hnil : text = [] := List.length_eq_zero_iff.1 (by simpa [noObject] using hlength)
      rw [hnil] at h
      cases h

end Braces

/-- The text that a value has in quotes. -/
def quotedText : DataValue → Text
  | .string s => s
  | _ => []

/-- The keys and strings of the data. -/
def dataTexts (data : DataMap) : Text := data.flatMap fun e => e.1 ++ quotedText e.2

theorem filter_commas (ts : List Text) :
    (Json.commas ts).filter isBrace = ts.flatMap fun t => t.filter isBrace := by
  induction ts with
  | nil => rfl
  | cons t ts ih =>
    cases ts with
    | nil => simp [Json.commas]
    | cons u ts =>
      rw [Json.commas_cons_cons, List.filter_append, List.filter_cons_of_neg (by decide), ih]
      rfl

theorem filter_digitChar : ∀ n < 32,
    isBrace (Nat.digitChar (n / 16)) = false ∧ isBrace (Nat.digitChar (n % 16)) = false := by
  decide

theorem filter_char (c : Char) :
    (Json.standard.char c).filter isBrace = [c].filter isBrace := by
  rw [Escaper.char]
  split_ifs with hspecial
  · have hbrace : isBrace c = false := by
      rw [Bool.eq_false_iff]
      intro hbrace
      rw [isBrace, Bool.or_eq_true, beq_iff_eq, beq_iff_eq] at hbrace
      rcases hbrace with rfl | rfl <;> exact absurd hspecial (by decide)
    have hmark : (Json.standardMark c).filter isBrace = [] := by
      rcases Json.standard_special.1 hspecial with rfl | rfl | hlt
      · rfl
      · rfl
      · obtain ⟨hhigh, hlow⟩ := filter_digitChar c.toNat hlt
        unfold Json.standardMark
        split_ifs
        iterate 7 rfl
        simp only [List.filter_cons, hhigh, hlow]
        rfl
    rw [List.filter_cons_of_neg (by decide), List.filter_cons_of_neg (by simp [hbrace]), List.filter_nil]
    exact hmark
  · rfl

theorem filter_encoded (s : Text) : (encoded s).filter isBrace = s.filter isBrace := by
  induction s with
  | nil => rfl
  | cons c s ih =>
    rw [encoded, Escaper.run_cons, List.filter_append, filter_char, ih, ← List.filter_append]
    rfl

theorem filter_writeString (s : Text) :
    (Json.writeString Json.standard.run s).filter isBrace = s.filter isBrace := by
  rw [Json.writeString, List.cons_append, List.filter_cons_of_neg (by decide), List.filter_append,
    filter_encoded]
  simp [isBrace]

theorem filter_writeInt (n : Int) : (Json.writeInt n).filter isBrace = [] := by
  rw [List.filter_eq_nil_iff]
  intro c hc hbrace
  rw [isBrace, Bool.or_eq_true, beq_iff_eq, beq_iff_eq] at hbrace
  rcases hbrace with rfl | rfl <;> exact absurd (Json.writeInt_chars hc) (by decide)

theorem filter_value (v : DataValue) :
    (written v.toJson).filter isBrace = (quotedText v).filter isBrace := by
  cases v with
  | string s => exact filter_writeString s
  | bool b => cases b <;> rfl
  | int n => exact filter_writeInt n
  | ints ns =>
    have hitems : (Json.commas (Json.writeItems Json.standard.run (ns.map .num))).filter isBrace = [] := by
      rw [filter_commas, Json.writeItems_eq, List.map_map, List.flatMap_eq_nil_iff]
      intro t ht
      obtain ⟨n, -, rfl⟩ := List.mem_map.1 ht
      exact filter_writeInt n
    rw [DataValue.toJson, written, Json.write, List.cons_append, List.filter_cons_of_neg (by decide),
      List.filter_append, hitems]
    rfl

theorem filter_member (e : Text × DataValue) :
    (Json.writeMember Json.standard.run (e.1, e.2.toJson)).filter isBrace =
      (e.1 ++ quotedText e.2).filter isBrace := by
  rw [Json.writeMember, List.filter_append, filter_writeString, List.filter_cons_of_neg (by decide),
    List.filter_append]
  exact congrArg (e.1.filter isBrace ++ ·) (filter_value e.2)

/-- Only the keys and strings have braces between those of the object. -/
theorem nest_body (data : DataMap) : nest 0 (body data) = nest 0 (dataTexts data) := by
  rw [← nest_filter, ← nest_filter 0 (dataTexts data), body, filter_commas, dataTexts,
    DataMap.toJson, List.map_map, List.flatMap_map, List.filter_flatMap]
  exact congrArg (fun f => nest 0 (data.flatMap f)) (funext filter_member)

/-! ### Card lists -/

/-- Up to a closing bracket there are only digits, blanks and commas, and no number has more than 64
bits; the number that is being read stands at `n`. -/
def CardList : Nat → Text → Prop
  | n, [] => n < 2 ^ 64
  | n, c :: cs =>
    if c.isDigit then CardList (10 * n + (c.toNat - '0'.toNat)) cs
    else n < 2 ^ 64 ∧ (c = ']' ∨ (c = ' ' ∨ c = ',') ∧ CardList 0 cs)

section Cards

variable {text : Text} {n : Nat}

theorem cardList_word (n : Nat) (text : Text) :
    CardList n text ↔ Nat.ofDigitChars 10 (text.takeWhile Char.isDigit) n < 2 ^ 64 ∧
      CardList 0 (text.dropWhile Char.isDigit) := by
  induction text generalizing n with
  | nil => simp [CardList]
  | cons c text ih =>
    by_cases hc : c.isDigit
    · rw [CardList, if_pos hc, ih, List.takeWhile_cons_of_pos hc, List.dropWhile_cons_of_pos hc,
        Nat.ofDigitChars_cons]
    · rw [List.takeWhile_cons_of_neg hc, List.dropWhile_cons_of_neg hc, CardList, CardList, if_neg hc,
        if_neg hc]
      simp

theorem isCardSep_iff {c : Char} : isCardSep c = true ↔ c = ' ' ∨ c = ',' := by
  rw [isCardSep, Bool.or_eq_true, beq_iff_eq, beq_iff_eq]

theorem cardList_blanks (text : Text) : CardList 0 text ↔ CardList 0 (text.dropWhile isCardSep) := by
  induction text with
  | nil => rfl
  | cons c text ih =>
    by_cases hc : isCardSep c = true
    · rw [List.dropWhile_cons_of_pos hc, ← ih, CardList]
      rcases isCardSep_iff.1 hc with rfl | rfl <;> simp [Char.isDigit]
    · rw [List.dropWhile_cons_of_neg hc]

/-- Before any other character the loop stands still. -/
theorem cardsLoop_stuck {c : Char} (hsep : ¬ isCardSep c = true) (hc : c ≠ ']')
    (hdigit : ¬ c.isDigit = true) (n : Nat) (text : Text) : cardsLoop n (c :: text) = none := by
  induction n with
  | zero => rfl
  | succ n ih =>
    rw [cardsLoop, List.dropWhile_cons_of_neg hsep]
    simp only [if_neg hc, List.takeWhile_cons_of_neg hdigit]
    exact ih

/-- One round that reads a number. -/
theorem cardsLoop_number {c : Char} (hsep : ¬ isCardSep c = true) (hdigit : c.isDigit = true)
    (n : Nat) (text : Text) :
    cardsLoop (n + 1) (c :: text) =
      if 2 ^ 64 ≤ Nat.ofDigitChars 10 ((c :: text).takeWhile Char.isDigit) 0 then none
      else (cardsLoop n ((c :: text).dropWhile Char.isDigit)).map
        (Nat.ofDigitChars 10 ((c :: text).takeWhile Char.isDigit) 0 % 2 ^ 16 :: ·) := by
  have hc : c ≠ ']' := by
    rintro rfl
    exact absurd hdigit (by decide)
  have hword : ((c :: text).takeWhile Char.isDigit).isEmpty = false := by
    rw [List.takeWhile_cons_of_pos hdigit]
    rfl
  rw [cardsLoop, List.dropWhile_cons_of_neg hsep]
  simp only [if_neg hc, hword]
  rfl

theorem cardsLoop_skip (n : Nat) (text : Text) :
    cardsLoop n (text.dropWhile isCardSep) = cardsLoop n text := by
  cases n with
  | zero => rfl
  | succ n => rw [cardsLoop, cardsLoop, List.dropWhile_idempotent]

/-- The loop ends on a card list, and on nothing else. -/
theorem cardsLoop_isSome (hn : text.length < n) :
    (cardsLoop n text).isSome = true ↔ CardList 0 text := by
  induction n generalizing text with
  | zero => cases hn
  | succ n ih =>
    have hlen := (List.dropWhile_suffix (l := text) isCardSep).length_le
    have hhead := List.head?_dropWhile_not isCardSep text
    rw [cardList_blanks, ← cardsLoop_skip]
    revert hlen hhead
    generalize text.dropWhile isCardSep = rest
    intro hlen hhead
    rcases rest with _ | ⟨c, cs⟩
    · exact iff_of_true rfl (Nat.two_pow_pos 64)
    have hsep : ¬ isCardSep c = true := by simpa using hhead
    by_cases hdigit : c.isDigit = true
    · have hrest : ((c :: cs).dropWhile Char.isDigit).length < n := by
        have hsuffix := (List.dropWhile_suffix (l := cs) Char.isDigit).length_le
        rw [List.dropWhile_cons_of_pos hdigit]
        rw [List.length_cons] at hlen
        omega
      rw [cardsLoop_number hsep hdigit, cardList_word, ← ih hrest]
      split_ifs with hlarge
      · exact iff_of_false (by simp) fun h => absurd h.1 (Nat.not_lt.2 hlarge)
      · rw [Option.isSome_map]
        exact (and_iff_right (Nat.lt_of_not_le hlarge)).symm
    by_cases hclose : c = ']'
    · subst hclose
      exact iff_of_true rfl ⟨Nat.two_pow_pos 64, .inl rfl⟩
    · rw [cardsLoop_stuck hsep hclose hdigit, CardList, if_neg hdigit]
      refine iff_of_false (by simp) fun h => ?_
      exact h.2.elim hclose fun h => hsep (isCardSep_iff.2 h.1)

end Cards

/-! ### Numbers -/

theorem stoull_writeInt (n : Int) :
    (stoull (Json.writeInt n)).getD 0 =
      if 0 ≤ n then (if n.natAbs < 2 ^ 64 then n.natAbs else 0)
      else if n.natAbs < 2 ^ 64 then (2 ^ 64 - n.natAbs) % 2 ^ 64 else 0 := by
  unfold Json.writeInt
  by_cases hn : n < 0
  · rw [if_pos hn, if_neg (by omega)]
    exact stoull_sign n.natAbs
  · rw [if_neg hn, if_pos (by omega)]
    exact stoull_digits n.natAbs

theorem stoull_writeInt_eq (n : Int) :
    ((stoull (Json.writeInt n)).getD 0 : Int) = n ↔ 0 ≤ n ∧ n < 2 ^ 64 := by
  rw [stoull_writeInt]
  split_ifs <;> omega

theorem stoull_writeInt_zero (n : Int) :
    (stoull (Json.writeInt n)).getD 0 = 0 ↔ n = 0 ∨ 2 ^ 64 ≤ n.natAbs := by
  rw [stoull_writeInt]
  split_ifs <;> omega

/-! ### Reading a message -/

section Reading

variable {fields : List (Text × Json)} {data : DataMap} {key : String}

/-- The text of a message with these fields and data. -/
def messageText (fields : List (Text × Json)) (data : DataMap) : Text :=
  jsonEncode (.obj (fields ++ [("data".toList, .obj data.toJson)]))

theorem messageText_eq (fields : List (Text × Json)) (data : DataMap) :
    messageText fields data = ['{'] ++ (texts (messageTable fields data) ++ []) := by
  rw [messageText, jsonEncode_eq, List.append_nil]

theorem brace_no_quote : '"' ∉ ['{'] := by decide

theorem read_string (hfields : ∀ e ∈ fields, IsLeaf e.2) (hkey : IsWord key.toList) :
    extractJsonString (messageText fields data) key =
      (((messageTable fields data).find? fun m => m.name == key.toList && m.isString).map fun m =>
        upToQuote m.value.tail).getD [] := by
  rw [extractJsonString, messageText_eq, extractString_before brace_no_quote,
    extractString_table (messageTable_wellFormed hfields data) hkey List.not_mem_nil]

section Numbers

variable {ms : List Member} {word last : Text}

/-- A number is read wherever it is the first value under its key. -/
theorem extractUint_int (hms : ∀ m ∈ ms, m.WellFormed) (hword : IsWord word) {m : Member} {n : Int}
    (hfind : ms.find? (fun m => m.name == word) = some m) (hvalue : m.value = Json.writeInt n) :
    extractUint (texts ms ++ []) word = (stoull (Json.writeInt n)).getD 0 := by
  have hnumber : ∀ c ∈ m.value, (c.isDigit || c == '-') = true := by
    intro c hc
    rw [hvalue] at hc
    simpa using Json.writeInt_chars hc
  rw [extractUint_number hms hword List.not_mem_nil hfind hnumber, hvalue]

/-- A value of the data that is no number is read as 0. -/
theorem written_first {v : DataValue} (hv : ∀ n, v ≠ .int n) :
    ∃ c cs, written v.toJson = c :: cs ∧ (c.isDigit || c == '-') = false := by
  cases v with
  | string s => exact ⟨_, _, rfl, by decide⟩
  | bool b => cases b <;> exact ⟨_, _, rfl, by decide⟩
  | int n => exact absurd rfl (hv n)
  | ints ns => exact ⟨_, _, rfl, by decide⟩

/-- What is read of a value that should be a number. -/
def uintOf : Option DataValue → Nat
  | some (.int n) => (stoull (Json.writeInt n)).getD 0
  | _ => 0

/-- What a search for a number finds in the data only. -/
theorem extractUint_value (hms : ∀ m ∈ ms, m.WellFormed) (hword : IsWord word)
    (hplain : Json.standard.Plain word)
    (hfind : ms.find? (fun m => m.name == word) =
      (table last data.toJson).find? fun m => m.name == word) :
    extractUint (texts ms ++ []) word = uintOf (valueAt data word) := by
  have htable := table_valueAt hword hplain last data
  rcases hv : valueAt data word with _ | v
  · rw [hv, Option.map_none, Option.map_eq_none_iff] at htable
    rw [extractUint_missing hms hword List.not_mem_nil (hfind.trans htable)]
    rfl
  · rw [hv, Option.map_some, Option.map_eq_some_iff] at htable
    obtain ⟨m, hm, hvalue⟩ := htable
    by_cases hint : ∃ n, v = .int n
    · obtain ⟨n, rfl⟩ := hint
      exact extractUint_int hms hword (hfind.trans hm) hvalue
    · rw [not_exists] at hint
      obtain ⟨c, cs, hwritten, hc⟩ := written_first hint
      rw [extractUint_other hms hword List.not_mem_nil (hfind.trans hm) (hvalue.trans hwritten) hc]
      cases v with
      | int n => exact absurd rfl (hint n)
      | _ => rfl

end Numbers

theorem read_number (hfields : ∀ e ∈ fields, IsLeaf e.2) (hkey : IsWord key.toList) {m : Member}
    {n : Int} (hfind : (messageTable fields data).find? (fun m => m.name == key.toList) = some m)
    (hvalue : m.value = Json.writeInt n) :
    extractJsonUint (messageText fields data) key = (stoull (Json.writeInt n)).getD 0 := by
  rw [extractJsonUint, messageText_eq, extractUint_before brace_no_quote]
  exact extractUint_int (messageTable_wellFormed hfields data) hkey hfind hvalue

theorem read_dataNumber (hfields : ∀ e ∈ fields, IsLeaf e.2) (hkey : IsWord key.toList)
    (hplain : Json.standard.Plain key.toList)
    (hfind : (messageTable fields data).find? (fun m => m.name == key.toList) =
      (table ['}', '}'] data.toJson).find? fun m => m.name == key.toList) :
    extractJsonUint (messageText fields data) key = uintOf (valueAt data key.toList) := by
  rw [extractJsonUint, messageText_eq, extractUint_before brace_no_quote]
  exact extractUint_value (messageTable_wellFormed hfields data) hkey hplain hfind

/-- Behind a key that no field has, the text goes on with the data. -/
theorem after_dataKey (hfields : ∀ e ∈ fields, IsLeaf e.2)
    (hno : ∀ m ∈ fields.map (fun e => entry e [',']), (m.name == "data".toList) = false) :
    after (field "data".toList [':']) (messageText fields data) =
      some ('{' :: (body data ++ ['}', '}'])) := by
  rw [messageText_eq, after_field_append brace_no_quote,
    after_key (messageTable_wellFormed hfields data) (by decide) List.not_mem_nil, messageTable,
    firstWith_append hno, firstWith, if_pos (by rfl), Option.map_some, List.append_nil,
    ← sep_append_table]
  rfl

theorem read_data (hfields : ∀ e ∈ fields, IsLeaf e.2)
    (hno : ∀ m ∈ fields.map (fun e => entry e [',']), (m.name == "data".toList) = false) :
    extractDataObject (messageText fields data) =
      ((scanObject 1 (body data ++ ['}', '}'])).map ('{' :: ·)).getD noObject := by
  rw [extractDataObject, after_dataKey hfields hno]
  rfl

/-- The text behind the first key of the data that is `cards`, or ends with it behind a quote. -/
def behindCards (data : DataMap) : Option Text :=
  (firstWith (fun m => m.name == "cards".toList) (table ['}', '}'] data.toJson)).map fun found =>
    found.1.value ++ found.1.sep ++ texts found.2

/-- What is behind the first opening bracket is a card list. -/
def CardsReadable (text : Text) : Prop :=
  match text.dropWhile (· != '[') with
  | [] => True
  | _ :: cs => CardList 0 cs

theorem read_cards (hfields : ∀ e ∈ fields, IsLeaf e.2)
    (hno : ∀ m ∈ fields.map (fun e => entry e [',']), (m.name == "cards".toList) = false) :
    (parseCardsArray (messageText fields data)).isSome = true ↔
      ∀ text, behindCards data = some text → CardsReadable text := by
  have hafter : after (field "cards".toList [':']) (messageText fields data) = behindCards data := by
    have hdata : ((dataMember data).name == "cards".toList) = false := rfl
    rw [messageText_eq, after_field_append brace_no_quote,
      after_key (messageTable_wellFormed hfields data) (by decide) List.not_mem_nil, messageTable,
      firstWith_append hno, firstWith, if_neg (by rw [hdata]; exact Bool.false_ne_true), behindCards]
    exact congrArg (Option.map · _) (funext fun found => List.append_nil _)
  rw [parseCardsArray, hafter]
  rcases behindCards data with _ | text
  · simp
  · simp only [Option.some_inj, forall_eq', CardsReadable]
    rcases text.dropWhile (· != '[') with _ | ⟨c, cs⟩
    · simp
    · exact cardsLoop_isSome (Nat.lt_succ_self _)

end Reading

/-! ### The data on their own -/

/-- What is read of the first string of the data under a key. -/
def dataString (data : DataMap) (key : Text) : Text :=
  ((stringAt data key).map fun s => upToQuote (encoded s)).getD []

section Data

variable {word last : Text}

theorem data_eq (data : DataMap) (hne : data ≠ []) (last : Text) :
    '{' :: body data ++ last = ['{'] ++ (texts (table last data.toJson) ++ []) := by
  have hjson : data.toJson ≠ [] := by
    rw [DataMap.toJson]
    exact mt List.map_eq_nil_iff.1 hne
  rw [texts_table last hjson, body, List.append_nil]
  rfl

theorem extractString_data (hlast : IsSep last) (hword : IsWord word)
    (hplain : Json.standard.Plain word) (data : DataMap) :
    extractString ('{' :: body data ++ last) word = dataString data word := by
  by_cases hne : data = []
  · subst hne
    have hnone : '"' ∉ ['{'] ++ last := by
      rw [List.mem_append, not_or]
      exact ⟨brace_no_quote, hlast.quote⟩
    have hafter : after (field word [':', '"']) ('{' :: body [] ++ last) = none :=
      congrArg (Option.map _) (seek_field_none hnone)
    rw [extractString, hafter]
    rfl
  · rw [data_eq data hne, extractString_before brace_no_quote,
      extractString_table (table_wellFormed (isLeaf_data data) hlast) hword List.not_mem_nil]
    exact congrArg (·.getD []) (table_stringAt hword hplain last data)

theorem extractUint_data (hlast : IsSep last) (hword : IsWord word)
    (hplain : Json.standard.Plain word) (data : DataMap) (hne : data ≠ []) :
    extractUint ('{' :: body data ++ last) word = uintOf (valueAt data word) := by
  rw [data_eq data hne, extractUint_before brace_no_quote]
  exact extractUint_value (table_wellFormed (isLeaf_data data) hlast) hword hplain rfl

end Data

/-! ### The messages of the client -/

open WebSocketClient (envelope)

section Envelope

variable {requestId : Nat} {type : Text} {roomId : Option Text} {turnId : Option Int}
  {data : DataMap}

theorem envelope_leaf : ∀ e ∈ envelope requestId type roomId turnId, IsLeaf e.2 := by
  unfold envelope
  refine List.forall_mem_append.2 ⟨List.forall_mem_append.2 ⟨?_, ?_⟩, ?_⟩
  · exact List.forall_mem_cons.2 ⟨isLeaf_num _, List.forall_mem_cons.2 ⟨isLeaf_str _,
      List.forall_mem_singleton.2 (isLeaf_num _)⟩⟩
  · cases roomId with
    | none => exact List.forall_mem_nil _
    | some roomId => exact List.forall_mem_singleton.2 (isLeaf_str _)
  · cases turnId with
    | none => exact List.forall_mem_nil _
    | some turnId => exact List.forall_mem_singleton.2 (isLeaf_num _)

/-- The keys in front of the data. -/
def fieldKeys : List Text :=
  ["protocol_version".toList, "type".toList, "request_id".toList, "room_id".toList, "turn_id".toList]

theorem fieldKeys_word : ∀ key ∈ fieldKeys, lastWord (encoded key) = key := by decide

theorem envelope_keys : ∀ e ∈ envelope requestId type roomId turnId, e.1 ∈ fieldKeys := by
  have hversion : "protocol_version".toList ∈ fieldKeys := by decide
  have htype : "type".toList ∈ fieldKeys := by decide
  have hrequest : "request_id".toList ∈ fieldKeys := by decide
  have hroom : "room_id".toList ∈ fieldKeys := by decide
  have hturn : "turn_id".toList ∈ fieldKeys := by decide
  unfold envelope
  refine List.forall_mem_append.2 ⟨List.forall_mem_append.2 ⟨?_, ?_⟩, ?_⟩
  · exact List.forall_mem_cons.2 ⟨hversion, List.forall_mem_cons.2 ⟨htype,
      List.forall_mem_singleton.2 hrequest⟩⟩
  · cases roomId with
    | none => exact List.forall_mem_nil _
    | some roomId => exact List.forall_mem_singleton.2 hroom
  · cases turnId with
    | none => exact List.forall_mem_nil _
    | some turnId => exact List.forall_mem_singleton.2 hturn

theorem envelope_skip {key : Text} (hkey : key ∉ fieldKeys) :
    ∀ m ∈ (envelope requestId type roomId turnId).map (fun e => entry e [',']),
      (m.name == key) = false := by
  intro m hm
  obtain ⟨e, he, rfl⟩ := List.mem_map.1 hm
  have hname : (entry e [',']).name = e.1 := fieldKeys_word e.1 (envelope_keys e he)
  rw [hname, beq_eq_false_iff_ne]
  rintro rfl
  exact hkey (envelope_keys e he)

/-- The text that `send` makes. -/
def sentText (requestId : Nat) (type : Text) (roomId : Option Text) (turnId : Option Int)
    (data : DataMap) : Text :=
  messageText (envelope requestId type roomId turnId) data

theorem read_type :
    extractJsonString (sentText requestId type roomId turnId data) "type" = upToQuote (encoded type) := by
  have hfind : (messageTable (envelope requestId type roomId turnId) data).find?
      (fun m => m.name == "type".toList && m.isString) = some (entry ("type".toList, .str type) [',']) :=
    rfl
  rw [sentText, read_string envelope_leaf (by decide), hfind]
  exact upToQuote_append (encoded type) []

theorem read_requestId :
    extractJsonUint (sentText requestId type roomId turnId data) "request_id" =
      if requestId < 2 ^ 64 then requestId else 0 := by
  have hfind : (messageTable (envelope requestId type roomId turnId) data).find?
      (fun m => m.name == "request_id".toList) =
        some (entry ("request_id".toList, .num requestId) [',']) := rfl
  rw [sentText, read_number (n := (requestId : Int)) envelope_leaf (by decide) hfind rfl,
    stoull_writeInt, if_pos (by omega), Int.natAbs_natCast]

/-- Without a turn id of its own, the message has that of the data. -/
theorem read_turnId :
    extractJsonUint (sentText requestId type roomId turnId data) "turn_id" =
      match turnId with
      | some turnId => (stoull (Json.writeInt turnId)).getD 0
      | none => uintOf (valueAt data "turn_id".toList) := by
  cases turnId with
  | some turnId =>
    have hfind : (messageTable (envelope requestId type roomId (some turnId)) data).find?
        (fun m => m.name == "turn_id".toList) =
          some (entry ("turn_id".toList, .num turnId) [',']) := by
      cases roomId <;> rfl
    exact read_number (n := turnId) envelope_leaf (by decide) hfind rfl
  | none =>
    have hfind : (messageTable (envelope requestId type roomId none) data).find?
        (fun m => m.name == "turn_id".toList) =
          (table ['}', '}'] data.toJson).find? fun m => m.name == "turn_id".toList := by
      cases roomId <;> rfl
    exact read_dataNumber envelope_leaf (by decide) (by decide) hfind

theorem isWord_room : IsWord "room_id".toList := by decide

theorem plain_room : Json.standard.Plain "room_id".toList := by decide

theorem read_firstRoom :
    extractJsonString (sentText requestId type roomId turnId data) "room_id" =
      match roomId with
      | some roomId => upToQuote (encoded roomId)
      | none => dataString data "room_id".toList := by
  rw [sentText, read_string envelope_leaf (by decide)]
  cases roomId with
  | some roomId =>
    have hfind : (messageTable (envelope requestId type (some roomId) turnId) data).find?
        (fun m => m.name == "room_id".toList && m.isString) =
          some (entry ("room_id".toList, .str roomId) [',']) := rfl
    rw [hfind]
    exact upToQuote_append (encoded roomId) []
  | none =>
    have hfind : (messageTable (envelope requestId type none turnId) data).find?
        (fun m => m.name == "room_id".toList && m.isString) =
          (table ['}', '}'] data.toJson).find? fun m => m.name == "room_id".toList && m.isString := by
      cases turnId <;> rfl
    rw [hfind]
    exact congrArg (·.getD []) (table_stringAt isWord_room plain_room ['}', '}'] data)

/-- The data, read on their own. -/
theorem read_innerRoom (data : DataMap) :
    extractJsonString (jsonEncode (.obj data.toJson)) "room_id" = dataString data "room_id".toList := by
  rw [written_data]
  exact extractString_data ⟨by decide, _, _, rfl, by decide⟩ isWord_room plain_room data

end Envelope

end Guandan.Protocol
