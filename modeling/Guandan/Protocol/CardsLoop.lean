import Guandan.Library.Rounds
import Guandan.Protocol.Reading
import Mathlib.Data.List.DropRight
import Mathlib.Data.List.TakeWhile

/-!
# Whether the cards are ever read

`parseCardsArray` may return, throw or go on for ever, and with it `parseMessage` and `dispatch`,
which the thread of a connection calls on whatever a client sends. Here its loop is followed round
by round (`cardsRound`); the functions that call it take the number of rounds they may wait.
-/

namespace Guandan.Protocol

open Quoted Round

/-! ### The loop -/

/-- The text from `pos` on, and the cards read so far. -/
structure CardsState where
  text : Text
  cards : List CardId := []
  deriving DecidableEq, Repr

/-- One round of the outer loop; `none` is the exception that `stoul` throws. -/
def cardsRound (s : CardsState) : Round CardsState (Option (List CardId)) :=
  match s.text.dropWhile isCardSep with
  | [] => .done (some s.cards)
  | c :: cs =>
    if c = ']' then .done (some s.cards)
    else
      let word := (c :: cs).takeWhile Char.isDigit
      if word.isEmpty then .again { s with text := c :: cs }
      else if 2 ^ 64 ≤ Nat.ofDigitChars 10 word 0 then .done none
      else .again {
        text := (c :: cs).dropWhile Char.isDigit
        cards := s.cards ++ [Nat.ofDigitChars 10 word 0 % 2 ^ 16] }

/-- The text behind the bracket that opens the array. -/
def cardsArray (json : Text) : Option Text :=
  (after (field "cards".toList [':']) json).bind fun rest => (rest.dropWhile (· != '[')).tail?

def parseCardsArrayIn (n : Nat) (json : Text) : Option (Option (List CardId)) :=
  match cardsArray json with
  | none => some (some [])
  | some text => rounds cardsRound n { text := text }

/-- The message, apart from its cards. -/
def readMessage (json : Text) (cards : List CardId) : Message :=
  let data := extractDataObject json
  let roomId := extractJsonString json "room_id"
  let token := extractJsonString json "token"
  { type := extractJsonString json "type"
    roomId := if roomId.isEmpty then extractJsonString data "room_id" else roomId
    requestId := extractJsonUint json "request_id"
    turnId := extractJsonUint json "turn_id"
    stateVersion := extractJsonUint json "state_version"
    token := if token.isEmpty then extractJsonString data "token" else token
    dataJson := data
    cards := cards }

def parseMessageIn (n : Nat) (json : Text) : Option (Option Message) :=
  (parseCardsArrayIn n json).map (Option.map (readMessage json))

/-- What `dispatch` does with a message. -/
inductive Dispatched
  | refused (code : ErrorCode)
  | handled (msg : Message)
  | posted (msg : Message)
  deriving DecidableEq, Repr

def shouldRunOnRoomQueue (type : Text) : Bool :=
  type != "login".toList && type != "ping".toList && type != "create_room".toList

def dispatchIn (n : Nat) (rawJson : Text) : Option Dispatched :=
  (parseMessageIn n rawJson).map fun
    | none => .refused .invalidMessage
    | some msg => if shouldRunOnRoomQueue msg.type then .posted msg else .handled msg

/-- A call that is over after some number of rounds. -/
def Terminates {α : Type} (call : Nat → Option α) : Prop := ∃ n, (call n).isSome = true

/-! ### The numbers of an array -/

def isCardChar (c : Char) : Bool := c.isDigit || isCardSep c

/-- The runs of digits, as far as there are only digits, spaces and commas. -/
def cardWords (text : Text) : List Text :=
  ((text.takeWhile isCardChar).splitOnP isCardSep).filter fun word => !word.isEmpty

def cardNumber (word : Text) : Nat := Nat.ofDigitChars 10 word 0

/-- A number of more than 64 bits. -/
def Overlong (text : Text) : Prop := ∃ word ∈ cardWords text, 2 ^ 64 ≤ cardNumber word

/-- Nothing but a closing bracket follows the digits, spaces and commas. -/
def Closed (text : Text) : Prop := ∀ c ∈ (text.dropWhile isCardChar).head?, c = ']'

section Words

variable {c : Char} {word text : Text}

theorem isCardSep_not_digit (h : isCardSep c = true) : c.isDigit = false := by
  rcases Bool.or_eq_true_iff.1 h with hc | hc <;> rw [eq_of_beq hc] <;> rfl

theorem not_isCardSep_of_digit (h : c.isDigit = true) : isCardSep c = false := by
  rcases hsep : isCardSep c with _ | _
  · rfl
  · rw [isCardSep_not_digit hsep] at h
    cases h

theorem cardWords_sep (h : isCardSep c = true) : cardWords (c :: text) = cardWords text := by
  have hchar : isCardChar c = true := by rw [isCardChar, h, Bool.or_true]
  rw [cardWords, List.takeWhile_cons_of_pos hchar, List.splitOnP_cons_eq_if_modifyHead, if_pos h]
  rfl

theorem cardWords_seps (text : Text) : cardWords (text.dropWhile isCardSep) = cardWords text := by
  induction text with
  | nil => rfl
  | cons c text ih =>
    by_cases hc : isCardSep c = true
    · rw [List.dropWhile_cons_of_pos hc, ih, cardWords_sep hc]
    · rw [List.dropWhile_cons_of_neg hc]

theorem cardWords_end (h : isCardChar c = false) : cardWords (c :: text) = [] := by
  rw [cardWords, List.takeWhile_cons_of_neg (Bool.eq_false_iff.1 h)]
  rfl

/-- A run of digits that is not followed by another digit is a number of the array. -/
theorem cardWords_word (hne : word ≠ []) (hword : ∀ c ∈ word, c.isDigit = true)
    (htext : ∀ c ∈ text.head?, c.isDigit = false) :
    cardWords (word ++ text) = word :: cardWords text := by
  have hchars : ∀ c ∈ word, isCardChar c = true := fun c hc => by rw [isCardChar, hword c hc]; rfl
  have hseps : ∀ c ∈ word, isCardSep c = false := fun c hc => not_isCardSep_of_digit (hword c hc)
  have hword' : (fun word : Text => !word.isEmpty) word = true := by simpa using hne
  rw [cardWords, cardWords, List.takeWhile_append_of_pos hchars]
  rcases htail : text.takeWhile isCardChar with _ | ⟨c, cs⟩
  · rw [List.append_nil, List.splitOnP_eq_singleton hseps,
      List.filter_cons_of_pos (p := fun word : Text => !word.isEmpty) hword']
    rfl
  · -- what follows a number is a separator, before which a word ends
    have hc : isCardSep c = true := by
      rcases text with _ | ⟨d, text⟩
      · cases htail
      · rw [List.takeWhile_cons] at htail
        split_ifs at htail with hd
        rw [isCardChar, htext d rfl, Bool.false_or] at hd
        cases htail
        exact hd
    rw [List.splitOnP_append_cons_of_forall_mem hseps _ hc, List.splitOnP_cons_eq_if_modifyHead,
      if_pos hc, List.filter_cons_of_pos (p := fun word : Text => !word.isEmpty) hword']
    rfl

theorem closed_cons (h : isCardChar c = true) : Closed (c :: text) ↔ Closed text := by
  rw [Closed, Closed, List.dropWhile_cons_of_pos h]

theorem closed_seps (text : Text) : Closed (text.dropWhile isCardSep) ↔ Closed text := by
  induction text with
  | nil => exact Iff.rfl
  | cons c text ih =>
    by_cases hc : isCardSep c = true
    · rw [List.dropWhile_cons_of_pos hc, ih, closed_cons (by rw [isCardChar, hc, Bool.or_true])]
    · rw [List.dropWhile_cons_of_neg hc]

theorem closed_word (hword : ∀ c ∈ word, c.isDigit = true) :
    Closed (word ++ text) ↔ Closed text := by
  rw [Closed, Closed, List.dropWhile_append_of_pos]
  exact fun c hc => by rw [isCardChar, hword c hc]; rfl

theorem closed_end (h : isCardChar c = false) : Closed (c :: text) ↔ c = ']' := by
  rw [Closed, List.dropWhile_cons_of_neg (Bool.eq_false_iff.1 h), List.head?_cons]
  simp

end Words

/-! ### How the loop ends -/

section Loop

variable {c : Char} {cs text : Text} {cards : List CardId} {r : Option (List CardId)}

/-- The cards that an array of numbers stands for. -/
def cardsOf (text : Text) : List CardId := (cardWords text).map fun word => cardNumber word % 2 ^ 16

/-- Before a character that is no digit, separator or closing bracket the loop stands still. -/
theorem cardsLoop_stands (cards : List CardId) (hskip : text.dropWhile isCardSep = c :: cs) (hclose : c ≠ ']')
    (hdigit : c.isDigit = false) : ¬ Halts cardsRound { text := text, cards := cards } := by
  have hround : ∀ text : Text, text.dropWhile isCardSep = c :: cs →
      cardsRound { text := text, cards := cards } = .again { text := c :: cs, cards := cards } := by
    intro text hskip
    rw [cardsRound, hskip]
    simp only [if_neg hclose, List.takeWhile_cons_of_neg (Bool.eq_false_iff.1 hdigit)]
    rfl
  have hstay : (c :: cs).dropWhile isCardSep = c :: cs := by
    rw [← hskip, List.dropWhile_idempotent]
  rintro ⟨r, hends⟩
  exact not_halts_of_fixed (hround _ hstay) ⟨r, (ends_again (hround _ hskip)).1 hends⟩

/-- Before a digit a round reads the run of digits that begins there. -/
theorem cardsRound_number (cards : List CardId) (hskip : text.dropWhile isCardSep = c :: cs)
    (hdigit : c.isDigit = true) :
    ∃ word rest, c :: cs = word ++ rest ∧ word ≠ [] ∧ (∀ d ∈ word, d.isDigit = true) ∧
      (∀ d ∈ rest.head?, d.isDigit = false) ∧
      cardsRound { text := text, cards := cards } =
        if 2 ^ 64 ≤ cardNumber word then .done none
        else .again { text := rest, cards := cards ++ [cardNumber word % 2 ^ 16] } := by
  have hclose : c ≠ ']' := by
    rintro rfl
    cases hdigit
  have hne : (c :: cs).takeWhile Char.isDigit ≠ [] := by
    rw [List.takeWhile_cons_of_pos hdigit]
    exact List.cons_ne_nil _ _
  refine ⟨(c :: cs).takeWhile Char.isDigit, (c :: cs).dropWhile Char.isDigit,
    List.takeWhile_append_dropWhile.symm, hne, ?_, fun d hd => ?_, ?_⟩
  · exact fun d hd => List.all_eq_true.1 (List.all_takeWhile ..) d hd
  · have hnot := List.head?_dropWhile_not Char.isDigit (c :: cs)
    rw [Option.mem_def.1 hd] at hnot
    simpa using hnot
  · have hempty : ((c :: cs).takeWhile Char.isDigit).isEmpty = false := by simpa using hne
    rw [cardsRound, hskip]
    simp only [if_neg hclose, hempty]
    rfl

/-- The loop throws where a number is too long, returns the cards where the array is closed, and
does not end otherwise. -/
theorem cardsLoop_ends (cards : List CardId) : Ends cardsRound { text := text, cards := cards } r ↔
    Overlong text ∧ r = none ∨
      ¬ Overlong text ∧ Closed text ∧ r = some (cards ++ cardsOf text) := by
  induction hn : text.length using Nat.strong_induction_on generalizing text cards with
  | _ n ih =>
    subst hn
    have hlen := (List.dropWhile_suffix (l := text) isCardSep).length_le
    have hhead := List.head?_dropWhile_not isCardSep text
    rw [Overlong, cardsOf, ← cardWords_seps text, ← closed_seps text]
    rcases hskip : text.dropWhile isCardSep with _ | ⟨c, cs⟩
    · have hround : cardsRound { text := text, cards := cards } = .done (some cards) := by
        rw [cardsRound, hskip]
      rw [ends_done hround]
      simp [Closed, cardWords]
    rw [hskip] at hlen hhead
    have hsep : isCardSep c = false := by simpa using hhead
    rcases hdigit : c.isDigit with _ | _
    · have hchar : isCardChar c = false := by rw [isCardChar, hdigit, hsep]; rfl
      rw [cardWords_end hchar, closed_end hchar]
      by_cases hclose : c = ']'
      · have hround : cardsRound { text := text, cards := cards } = .done (some cards) := by
          rw [cardsRound, hskip]
          simp only [if_pos hclose]
        rw [ends_done hround]
        simp [hclose]
      · have hstands := cardsLoop_stands cards hskip hclose hdigit
        simpa [hclose] using fun h => hstands ⟨r, h⟩
    · -- a number is read, and the rest is shorter
      obtain ⟨word, rest, hsplit, hne, hdigits, hnext, hround⟩ :=
        cardsRound_number cards hskip hdigit
      have hshort : rest.length < text.length := by
        have hpos := List.length_pos_of_ne_nil hne
        have hlength := congrArg List.length hsplit
        rw [List.length_append] at hlength
        omega
      rw [hsplit, cardWords_word hne hdigits hnext, closed_word hdigits, List.exists_mem_cons_iff]
      split_ifs at hround with hlarge
      · rw [ends_done hround]
        constructor
        · exact fun h => .inl ⟨.inl hlarge, h⟩
        · rintro (⟨-, h⟩ | ⟨h, -⟩)
          · exact h
          · exact absurd (.inl hlarge) h
      · rw [ends_again hround, ih _ hshort _ rfl, or_iff_right hlarge, List.append_assoc]
        rfl

/-- The loop of `parseCardsArray`, counted in the same rounds. -/
theorem cardsLoop_eq_some {n : Nat} {out : List CardId} : cardsLoop n text = some out ↔
    rounds cardsRound n { text := text, cards := cards } = some (some (cards ++ out)) := by
  induction n generalizing text cards out with
  | zero => simp [cardsLoop, rounds]
  | succ n ih =>
    rw [cardsLoop, rounds, cardsRound]
    rcases text.dropWhile isCardSep with _ | ⟨c, cs⟩
    · simp
    dsimp only
    split_ifs with hclose hempty hlarge
    · simp
    · exact ih
    · simp
    · rw [Option.map_eq_some_iff]
      dsimp only
      constructor
      · rintro ⟨out, hrest, rfl⟩
        rw [ih.1 hrest, List.append_assoc]
        rfl
      · -- what the rest of the loop returns has the number it started with
        intro h
        rcases (cardsLoop_ends _).1 ⟨n, h⟩ with ⟨-, hnone⟩ | ⟨-, -, hsome⟩
        · cases hnone
        · rw [Option.some_inj, List.append_assoc, List.append_cancel_left_eq] at hsome
          subst hsome
          exact ⟨cardsOf _, ih.2 (by rw [h, List.append_assoc]), rfl⟩

/-- So many rounds as the text has characters are enough. -/
theorem cardsLoop_enough {n : Nat} {out : List CardId}
    (h : rounds cardsRound n { text := text } = some (some out)) :
    cardsLoop (text.length + 1) text = some out := by
  have hlong := cardsLoop_eq_some.2 (rounds_mono (Nat.le_max_left n (text.length + 1)) h)
  have hlist : CardList 0 text := by
    refine (cardsLoop_isSome ?_).1 (Option.isSome_of_eq_some hlong)
    exact Nat.lt_of_lt_of_le (Nat.lt_succ_self _) (Nat.le_max_right _ _)
  obtain ⟨out', hout⟩ :=
    Option.isSome_iff_exists.1 ((cardsLoop_isSome (Nat.lt_succ_self _)).2 hlist)
  have hends : Ends cardsRound { text := text } (some out') := ⟨_, cardsLoop_eq_some.1 hout⟩
  rw [hout, Option.some.inj (hends.unique ⟨n, h⟩)]

end Loop

/-! ### Whether a call is over -/

/-- The array, if there is one, is closed behind digits, separators and numbers, or holds a number
of more than 64 bits among these. -/
def CardsEnd (json : Text) : Prop :=
  ∀ text, cardsArray json = some text → Overlong text ∨ Closed text

section Calls

variable {json : Text}

theorem terminates_map {α β : Type} {call : Nat → Option α} {g : α → β} :
    (Terminates fun n => (call n).map g) ↔ Terminates call :=
  exists_congr fun _ => by rw [Option.isSome_map]

theorem terminates_parseCardsArray (json : Text) :
    (Terminates fun n => parseCardsArrayIn n json) ↔ CardsEnd json := by
  rw [Terminates, CardsEnd]
  rcases hjson : cardsArray json with _ | text
  · exact iff_of_true ⟨0, by rw [parseCardsArrayIn, hjson]; rfl⟩ (by simp)
  · have hin : ∀ n, parseCardsArrayIn n json = rounds cardsRound n { text := text } := by
      intro n
      rw [parseCardsArrayIn, hjson]
    simp only [hin, Option.some_inj, forall_eq', Option.isSome_iff_exists]
    constructor
    · rintro ⟨n, r, hn⟩
      rcases (cardsLoop_ends _).1 ⟨n, hn⟩ with ⟨hover, -⟩ | ⟨-, hclosed, -⟩
      · exact .inl hover
      · exact .inr hclosed
    · intro hend
      by_cases hover : Overlong text
      · obtain ⟨n, hn⟩ := (cardsLoop_ends []).2 (.inl ⟨hover, rfl⟩)
        exact ⟨n, _, hn⟩
      · obtain ⟨n, hn⟩ := (cardsLoop_ends []).2
          (.inr ⟨hover, hend.resolve_left hover, rfl⟩)
        exact ⟨n, _, hn⟩

theorem parseCardsArray_eq_some {cards : List CardId} : parseCardsArray json = some cards ↔
    ∃ n, parseCardsArrayIn n json = some (some cards) := by
  simp only [parseCardsArray, parseCardsArrayIn, cardsArray]
  rcases after (field "cards".toList [':']) json with _ | rest
  · simp
  simp only [Option.bind_some]
  rcases rest.dropWhile (· != '[') with _ | ⟨c, text⟩
  · simp
  · constructor
    · exact fun h => ⟨_, cardsLoop_eq_some.1 h⟩
    · rintro ⟨n, h⟩
      exact cardsLoop_enough h

/-- What is said of `parseMessage` where calls that throw and calls that go on for ever have no
answer alike is said of it here. -/
theorem parseMessage_returns {msg : Message} : parseMessage json = some msg ↔
    ∃ n, parseMessageIn n json = some (some msg) := by
  have hread : parseMessage json = (parseCardsArray json).map (readMessage json) := by
    rw [parseMessage]
    rcases parseCardsArray json with _ | cards <;> rfl
  simp only [hread, parseMessageIn, Option.map_eq_some_iff, parseCardsArray_eq_some]
  constructor
  · rintro ⟨cards, ⟨n, h⟩, rfl⟩
    exact ⟨n, _, h, cards, rfl, rfl⟩
  · rintro ⟨n, outcome, h, cards, rfl, rfl⟩
    exact ⟨cards, ⟨n, h⟩, rfl⟩

/-- The call returns, throws or is refused exactly where the array of cards comes to an end. -/
theorem parse_terminates_iff (json : Text) :
    ((Terminates fun n => parseCardsArrayIn n json) ↔ CardsEnd json) ∧
      ((Terminates fun n => parseMessageIn n json) ↔ CardsEnd json) ∧
      ((Terminates fun n => dispatchIn n json) ↔ CardsEnd json) := by
  have hcards := terminates_parseCardsArray json
  have hmessage : (Terminates fun n => parseMessageIn n json) ↔ CardsEnd json :=
    terminates_map.trans hcards
  exact ⟨hcards, hmessage, terminates_map.trans hmessage⟩

/-- A client that sends a card with a minus sign is never answered. -/
theorem dispatch_stands : ¬ Terminates fun n =>
    dispatchIn n "\x7b\"type\":\"play_cards\",\"data\":\x7b\"cards\":[-1]\x7d\x7d".toList := by
  have hdispatch : ∀ json, (Terminates fun n => dispatchIn n json) → CardsEnd json := fun json h =>
    (terminates_parseCardsArray _).1 (terminates_map.1 (terminates_map.1 h))
  intro h
  rcases hdispatch _ h "-1]\x7d\x7d".toList (by decide) with ⟨word, hword, -⟩ | hclosed
  · cases hword
  · exact absurd (hclosed '-' rfl) (by decide)

end Calls

end Guandan.Protocol
