import Guandan.Protocol.CardsLoop
import Guandan.Protocol.Relay
import Guandan.Room.Spectating

/-!
# The numbers that clients send

A card or a seat is written as a decimal number, scanned as digits, turned into 64 bits and cut down
to the width of its type before anything is checked. Which numbers come through that unchanged, or
not at all, is worked out here for the four fields that carry them: `cards`, `card_id`, `seat_index`
and `target_seat_index`.
-/

namespace Guandan.Protocol

open Quoted Round

/-! ### Literals -/

/-- A decimal number as it is written. -/
structure Literal where
  negative : Bool
  word : Text
  nonempty : word ≠ []
  digits : ∀ c ∈ word, c.isDigit = true

namespace Literal

def text (l : Literal) : Text := if l.negative then '-' :: l.word else l.word

def magnitude (l : Literal) : Nat := cardNumber l.word

def value (l : Literal) : Int := if l.negative then -(l.magnitude : Int) else l.magnitude

/-- A number as it is usually written. -/
def ofInt (n : Int) : Literal where
  negative := n < 0
  word := Guandan.digits n.natAbs
  nonempty h := by
    have hempty := digits_isEmpty n.natAbs
    rw [h] at hempty
    cases hempty
  digits c hc := Nat.isDigit_of_mem_toDigits (by decide) (by decide) hc

theorem magnitude_ofInt (n : Int) : (ofInt n).magnitude = n.natAbs := by
  rw [magnitude, ofInt, cardNumber, ofDigitChars_digits]

theorem value_ofInt (n : Int) : (ofInt n).value = n := by
  rw [value, magnitude_ofInt]
  simp only [ofInt, decide_eq_true_eq]
  split_ifs <;> omega

end Literal

def isNumberChar (c : Char) : Bool := c.isDigit || c == '-'

/-- A literal is not followed by what would be part of it. -/
def EndsLiteral (rest : Text) : Prop := ∀ c ∈ rest.head?, isNumberChar c = false

/-- Behind the first `"key":` of the data stands a literal, after blanks. -/
def Written (data : Text) (key : String) (blank : Text) (l : Literal) : Prop :=
  ∃ rest, after (field key.toList [':']) data = some (blank ++ (l.text ++ rest)) ∧
    (∀ c ∈ blank, isSpace c = true) ∧ EndsLiteral rest

/-- The literals of an array that is closed, with blanks and commas about them. -/
inductive IntArray : List Literal → Text → Prop
  | closed (rest : Text) : IntArray [] (']' :: rest)
  | between {ls : List Literal} {c : Char} {text : Text} : isSpace c = true ∨ c = ',' →
      IntArray ls text → IntArray ls (c :: text)
  | number {ls : List Literal} {text : Text} (l : Literal) : EndsLiteral text →
      IntArray ls text → IntArray (l :: ls) (l.text ++ text)

/-! ### What is made of them -/

/-- The card of `handleSubmitTribute` and `handleSubmitReturn`, which refuse 0. -/
def submittedCard (msg : Message) : CardId :=
  match msg.cards with
  | [] => extractJsonUintFromData msg.dataJson "card_id" % 2 ^ 16
  | cardId :: _ => cardId

/-- The seat of `handleChangeSeat`. -/
def requestedSeat (msg : Message) : Int := toInt (extractJsonUintFromData msg.dataJson "seat_index")

/-- The seat of `handleSpectateTeammate`. -/
def targetSeat (msg : Message) : Int :=
  toInt (extractJsonUintFromData msg.dataJson "target_seat_index")

def changeSeatRequested (r : Room) (playerId : PlayerId) (msg : Message) : Option Room :=
  r.changeSeat playerId (requestedSeat msg)

def spectateRequested (r : Room) (targets : SpectateTargets) (playerId : PlayerId) (msg : Message) :
    Option SpectateTargets :=
  if r.phase ≠ .playing then none else r.setSpectateTarget targets playerId (targetSeat msg)

/-! ### What keeps them -/

/-- The card is given by `card_id` alone, as a number of 16 bits or one that is refused; or the cards
come first, with this number or 0 before the others. -/
def CardIdKept (msg : Message) (blank : Text) (l : Literal) : Prop :=
  match msg.cards with
  | [] => blank = [] ∧ l.magnitude < 2 ^ 64 →
      0 ≤ l.value ∧ l.value < 2 ^ 16 ∨ l.value % 2 ^ 16 = 0
  | cardId :: _ => cardId = 0 ∨ (cardId : Int) = l.value

/-- The number is an `int`, or its last 32 bits are no seat that the player may take; a number that
is not read stands for seat 0. -/
def SeatKept (IsOpen : Nat → Prop) (blank : Text) (l : Literal) : Prop :=
  if blank = [] ∧ l.magnitude < 2 ^ 64 then
    0 ≤ l.value ∧ l.value < 2 ^ 31 ∨ ¬ IsOpen (l.value % 2 ^ 32).toNat
  else l.value = 0 ∨ ¬ IsOpen 0

/-! ### Reading a literal -/

section Literals

variable {l : Literal} {rest text : Text}

theorem isSpace_not_number {c : Char} (h : isSpace c = true) : isNumberChar c = false := by
  simp only [isSpace, Bool.or_eq_true, beq_iff_eq] at h
  rcases h with ((((rfl | rfl) | rfl) | rfl) | rfl) | rfl <;> rfl

theorem Literal.head_digit (l : Literal) : ∃ c cs, l.word = c :: cs ∧ c.isDigit = true := by
  rcases hword : l.word with _ | ⟨c, cs⟩
  · exact absurd hword l.nonempty
  · exact ⟨c, cs, rfl, l.digits c (by rw [hword]; exact List.mem_cons_self ..)⟩

theorem Literal.takeWhile_text (hrest : EndsLiteral rest) :
    (l.text ++ rest).takeWhile isNumberChar = l.text := by
  have hchars : ∀ c ∈ l.text, isNumberChar c = true := by
    intro c hc
    rw [Literal.text] at hc
    rw [isNumberChar]
    split_ifs at hc
    · rcases List.mem_cons.1 hc with rfl | hc
      · rfl
      · rw [l.digits c hc, Bool.true_or]
    · rw [l.digits c hc, Bool.true_or]
  rw [List.takeWhile_append_of_pos hchars]
  rcases rest with _ | ⟨c, cs⟩
  · rw [List.takeWhile_nil, List.append_nil]
  · rw [List.takeWhile_cons_of_neg (Bool.eq_false_iff.1 (hrest c rfl)), List.append_nil]

theorem Literal.stoull_text (l : Literal) : (stoull l.text).getD 0 =
    if l.magnitude < 2 ^ 64 then
      if l.negative then (2 ^ 64 - l.magnitude) % 2 ^ 64 else l.magnitude
    else 0 := by
  obtain ⟨c, cs, hword, hc⟩ := l.head_digit
  have hdigits : l.word.takeWhile Char.isDigit = l.word := by
    rw [List.takeWhile_eq_self_iff]
    exact l.digits
  have hempty : l.word.isEmpty = false := by simpa using l.nonempty
  have hsign : ['-'].isPrefixOf l.text = l.negative := by
    rw [Literal.text]
    rcases l.negative with _ | _
    · rw [if_neg Bool.false_ne_true, hword, List.isPrefixOf_cons_cons]
      have hne : ('-' == c) = false := by
        rw [beq_eq_false_iff_ne]
        rintro rfl
        cases hc
      rw [hne, Bool.false_and]
    · rfl
  have hunsigned : (if l.negative = true then l.text.tail else l.text) = l.word := by
    rw [Literal.text]
    split_ifs <;> rfl
  simp only [stoull, hsign, hunsigned, hdigits, hempty, Bool.false_eq_true, false_or]
  change Option.getD (if 2 ^ 64 ≤ l.magnitude then none else _) 0 = _
  by_cases hlarge : 2 ^ 64 ≤ l.magnitude
  · rw [if_pos hlarge, if_neg (Nat.not_lt.2 hlarge), Option.getD_none]
  · rw [if_neg hlarge, if_pos (Nat.lt_of_not_le hlarge), apply_ite (fun o => Option.getD o 0)]
    rfl

/-- A literal of fewer than 64 bits right behind the colon is read up to multiples of `2 ^ 64`, and
what is not is read as 0. -/
theorem Written.read {data blank : Text} {key : String} (h : Written data key blank l) :
    ((extractJsonUintFromData data key : Nat) : Int) =
      if blank = [] ∧ l.magnitude < 2 ^ 64 then l.value % 2 ^ 64 else 0 := by
  obtain ⟨rest, hafter, hblank, hrest⟩ := h
  have hread : extractJsonUintFromData data key =
      (stoull ((blank ++ (l.text ++ rest)).takeWhile isNumberChar)).getD 0 := by
    rw [extractJsonUintFromData, extractUint, hafter]
    rfl
  rw [hread]
  rcases blank with _ | ⟨c, cs⟩
  · rw [List.nil_append, Literal.takeWhile_text hrest, Literal.stoull_text, Literal.value]
    simp only [true_and]
    split_ifs with hsmall hneg
    · omega
    · omega
    · rfl
  · have hc := Bool.eq_false_iff.1 (isSpace_not_number (hblank c (List.mem_cons_self ..)))
    rw [List.cons_append, List.takeWhile_cons_of_neg hc, if_neg (by simp)]
    rfl

end Literals

/-! ### Cards -/

section Cards

variable {l : Literal} {ls : List Literal} {json text blank : Text} {msg : Message}

/-- The text is refused, or the numbers of the message are those of the literals. -/
def CardsKept (json : Text) (ls : List Literal) : Prop :=
  ∃ n outcome, parseMessageIn n json = some outcome ∧
    ∀ msg, outcome = some msg → (msg.cards.map fun card : CardId => (card : Int)) = ls.map Literal.value

theorem isSpace_cases {c : Char} (h : isSpace c = true ∨ c = ',') :
    isCardSep c = true ∨ isCardChar c = false ∧ c ≠ ']' := by
  rcases h with h | rfl
  · simp only [isSpace, Bool.or_eq_true, beq_iff_eq] at h
    rcases h with ((((rfl | rfl) | rfl) | rfl) | rfl) | rfl
    · exact .inl rfl
    all_goals exact .inr ⟨rfl, by decide⟩
  · exact .inl rfl

/-- A closed array has no signs, and its runs of digits are its literals. -/
theorem IntArray.words (h : IntArray ls text) (hclosed : Closed text) :
    cardWords text = ls.map (·.word) ∧ ∀ l ∈ ls, l.negative = false := by
  induction h with
  | closed rest => exact ⟨cardWords_end rfl, by simp⟩
  | @between ls c text hc _ ih =>
    rcases isSpace_cases hc with hsep | ⟨hend, hclose⟩
    · rw [cardWords_sep hsep]
      exact ih ((closed_cons (by rw [isCardChar, hsep, Bool.or_true])).1 hclosed)
    · exact absurd ((closed_end hend).1 hclosed) hclose
  | @number ls text l hend _ ih =>
    rw [Literal.text] at hclosed ⊢
    rcases hneg : l.negative with _ | _
    · rw [hneg, if_neg Bool.false_ne_true] at hclosed
      rw [if_neg Bool.false_ne_true]
      obtain ⟨hwords, hsigns⟩ := ih ((closed_word l.digits).1 hclosed)
      have hnext : ∀ c ∈ text.head?, c.isDigit = false := fun c hc =>
        (Bool.or_eq_false_iff.1 (hend c hc)).1
      rw [cardWords_word l.nonempty l.digits hnext, hwords]
      refine ⟨rfl, fun l' hl' => ?_⟩
      rcases List.mem_cons.1 hl' with rfl | hl'
      · exact hneg
      · exact hsigns l' hl'
    · rw [hneg, if_pos rfl, List.cons_append] at hclosed
      exact absurd ((closed_end (c := '-') rfl).1 hclosed) (by decide)

theorem cardsKept_ends (hjson : cardsArray json = some text) : CardsKept json ls ↔
    ∃ outcome, Ends cardsRound { text := text } outcome ∧
      ∀ cards, outcome = some cards →
        (cards.map fun card : CardId => (card : Int)) = ls.map Literal.value := by
  have hin : ∀ n, parseMessageIn n json =
      (rounds cardsRound n { text := text }).map (Option.map (readMessage json)) := by
    intro n
    rw [parseMessageIn, parseCardsArrayIn, hjson]
  simp only [CardsKept, hin, Option.map_eq_some_iff]
  constructor
  · rintro ⟨n, -, ⟨outcome, hn, rfl⟩, hkept⟩
    exact ⟨outcome, ⟨n, hn⟩, fun cards hcards =>
      hkept (readMessage json cards) (Option.map_eq_some_iff.2 ⟨cards, hcards, rfl⟩)⟩
  · rintro ⟨outcome, ⟨n, hn⟩, hkept⟩
    refine ⟨n, _, ⟨outcome, hn, rfl⟩, fun msg hmsg => ?_⟩
    obtain ⟨cards, hcards, rfl⟩ := Option.map_eq_some_iff.1 hmsg
    exact hkept cards hcards

theorem Literal.value_eq {l : Literal} (hsign : l.negative = false) : l.value = l.magnitude := by
  rw [value, hsign, if_neg Bool.false_ne_true]

/-- The numbers of an array are kept where they have 16 bits, and where one of them is too long for
64 the message is refused. -/
theorem cardsKept_iff (hjson : cardsArray json = some text) (hls : IntArray ls text) :
    CardsKept json ls ↔ Overlong text ∨ Closed text ∧ ∀ l ∈ ls, l.value < 2 ^ 16 := by
  have hsmall : ¬ Overlong text → Closed text →
      (((cardsOf text).map fun card : CardId => (card : Int)) = ls.map Literal.value ↔
        ∀ l ∈ ls, l.value < 2 ^ 16) := by
    intro hover hclosed
    obtain ⟨hwords, hsigns⟩ := hls.words hclosed
    rw [cardsOf, hwords, List.map_map, List.map_map, List.map_inj_left]
    refine forall₂_congr fun l hl => ?_
    rw [Literal.value_eq (hsigns l hl), Literal.magnitude]
    simp only [Function.comp_apply]
    omega
  rw [cardsKept_ends hjson]
  simp only [cardsLoop_ends, List.nil_append]
  by_cases hover : Overlong text
  · exact iff_of_true ⟨none, .inl ⟨hover, rfl⟩, by simp⟩ (.inl hover)
  rw [or_iff_right hover]
  constructor
  · rintro ⟨outcome, h | ⟨-, hclosed, houtcome⟩, hkept⟩
    · exact absurd h.1 hover
    · exact ⟨hclosed, (hsmall hover hclosed).1 (hkept _ houtcome)⟩
  · rintro ⟨hclosed, hvalues⟩
    refine ⟨_, .inr ⟨hover, hclosed, rfl⟩, fun cards hcards => ?_⟩
    rw [← Option.some.inj hcards]
    exact (hsmall hover hclosed).2 hvalues

theorem submittedCard_kept (h : Written msg.dataJson "card_id" blank l) :
    submittedCard msg = 0 ∨ (submittedCard msg : Int) = l.value ↔ CardIdKept msg blank l := by
  rw [submittedCard, CardIdKept]
  rcases msg.cards with _ | ⟨cardId, cards⟩
  · have hread := h.read
    generalize extractJsonUintFromData msg.dataJson "card_id" = number at hread ⊢
    change number % 2 ^ 16 = 0 ∨ ((number % 2 ^ 16 : Nat) : Int) = l.value ↔ _
    split_ifs at hread with hshort
    · rw [forall_prop_of_true hshort]
      omega
    · exact iff_of_true (.inl (by omega)) fun hyes => absurd hyes hshort
  · exact Iff.rfl

end Cards

/-! ### Seats -/

section Seats

variable {r : Room} {id : PlayerId} {msg : Message} {blank : Text} {l : Literal}
  {targets : SpectateTargets}

theorem toInt_kept {IsOpen : Nat → Prop} {data : Text} {key : String}
    (hopen : ∀ seat, IsOpen seat → seat < 2 ^ 31) (h : Written data key blank l) :
    ((∃ seat, IsOpen seat ∧ toInt (extractJsonUintFromData data key) = (seat : Int)) →
      toInt (extractJsonUintFromData data key) = l.value) ↔ SeatKept IsOpen blank l := by
  have hread := h.read
  rw [SeatKept]
  generalize extractJsonUintFromData data key = number at hread ⊢
  have hseat : ∀ seat : Nat, seat < 2 ^ 31 →
      (toInt number = (seat : Int) ↔ number % 2 ^ 32 = seat) := by
    intro seat hlt
    rw [toInt]
    split_ifs <;> omega
  have hopens : (∃ seat, IsOpen seat ∧ toInt number = (seat : Int)) ↔ IsOpen (number % 2 ^ 32) := by
    constructor
    · rintro ⟨seat, hyes, heq⟩
      rwa [(hseat seat (hopen seat hyes)).1 heq]
    · exact fun hyes => ⟨_, hyes, (hseat _ (hopen _ hyes)).2 rfl⟩
  rw [hopens]
  split_ifs at hread ⊢ with hshort
  · have hword : (l.value % 2 ^ 32).toNat = number % 2 ^ 32 := by omega
    rw [hword, or_comm, ← imp_iff_not_or]
    refine forall_congr' fun hyes => ?_
    have hlt := hopen _ hyes
    rw [(hseat _ hlt).2 rfl]
    omega
  · have hzero : number % 2 ^ 32 = 0 := by omega
    have hnumber : toInt number = 0 := (hseat 0 (Nat.two_pow_pos 31)).2 hzero
    rw [hzero, hnumber, or_comm, ← imp_iff_not_or]
    exact forall_congr' fun _ => eq_comm

/-- A seat that the player may change to. -/
def OpenSeat (r : Room) (playerId : PlayerId) (seat : Nat) : Prop :=
  r.phase = .waiting ∧ isBotPlayer playerId = false ∧ r.containsPlayer playerId = true ∧
    seat < r.config.maxPlayers ∧ r.isSeatTaken seat playerId = false

/-- A seat that the player may watch. -/
def OpenTarget (r : Room) (viewerId : PlayerId) (seat : Nat) : Prop :=
  r.phase = .playing ∧ seat ∈ r.spectatableTeammateSeats viewerId

theorem changeSeat_isSome {seatIndex : Int} : (r.changeSeat id seatIndex).isSome = true ↔
    ∃ seat, OpenSeat r id seat ∧ seatIndex = (seat : Int) := by
  have hplayer : (r.player? id).isSome = r.containsPlayer id := by
    rw [Room.player?, Room.containsPlayer, List.isSome_find?]
  constructor
  · intro h
    obtain ⟨r', hmove⟩ := Option.isSome_iff_exists.1 h
    unfold Room.changeSeat at hmove
    split_ifs at hmove with hphase hbot hseat hfree
    obtain ⟨p, hp, -⟩ := Option.map_eq_some_iff.1 hmove
    rw [hp] at hplayer
    exact ⟨seatIndex.toNat, ⟨not_not.1 hphase, eq_false_of_ne_true hbot, hplayer.symm, by omega,
      eq_false_of_ne_true hfree⟩, by omega⟩
  · rintro ⟨seat, ⟨hphase, hbot, hmember, hlt, hfree⟩, rfl⟩
    have hseat : ¬ ((seat : Int) < 0 ∨ (r.config.maxPlayers : Int) ≤ seat) := by omega
    rw [Room.changeSeat, if_neg (not_not.2 hphase), if_neg (by rw [hbot]; exact Bool.false_ne_true),
      if_neg hseat, Int.toNat_natCast, if_neg (by rw [hfree]; exact Bool.false_ne_true),
      Option.isSome_map, hplayer]
    exact hmember

theorem spectateRequested_isSome : (spectateRequested r targets id msg).isSome = true ↔
    ∃ seat, OpenTarget r id seat ∧ targetSeat msg = (seat : Int) := by
  rw [spectateRequested]
  split_ifs with hphase
  · simp [OpenTarget, hphase]
  · rw [Room.setSpectateTarget, Option.isSome_map, List.find?_isSome]
    simp only [OpenTarget, not_not.1 hphase, true_and, beq_iff_eq]
    exact exists_congr fun seat => and_congr_right fun _ => eq_comm

theorem lt_of_openTarget {seat : Nat} (h : OpenTarget r id seat) :
    seat < r.engine.state.playerCount := by
  have hmem := h.2
  rw [Room.spectatableTeammateSeats] at hmem
  rcases hviewer : r.engine.seatOf id with _ | viewerSeat
  · rw [hviewer] at hmem
    cases hmem
  · rw [hviewer] at hmem
    exact (Room.mem_spectatableTeammates hmem).2.lt

end Seats

/-! ### The four fields -/

/-- A number that a client puts in `cards`, `card_id`, `seat_index` or `target_seat_index` is acted
on as it is written or refused, exactly where it is cut down to nothing else that is accepted. The
numbers of seats of a table are of type `int`. -/
theorem numbers_kept_iff (json text : Text) (ls : List Literal) (msg : Message) (blank : Text)
    (l : Literal) (r : Room) (targets : SpectateTargets) (id : PlayerId) :
    (cardsArray json = some text → IntArray ls text →
      (CardsKept json ls ↔ Overlong text ∨ Closed text ∧ ∀ l ∈ ls, l.value < 2 ^ 16)) ∧
    (Written msg.dataJson "card_id" blank l →
      (submittedCard msg = 0 ∨ (submittedCard msg : Int) = l.value ↔ CardIdKept msg blank l)) ∧
    (r.config.maxPlayers ≤ 2 ^ 31 → Written msg.dataJson "seat_index" blank l →
      ((changeSeatRequested r id msg = none ∨ requestedSeat msg = l.value) ↔
        SeatKept (OpenSeat r id) blank l)) ∧
    (r.engine.state.playerCount ≤ 2 ^ 31 → Written msg.dataJson "target_seat_index" blank l →
      ((spectateRequested r targets id msg = none ∨ targetSeat msg = l.value) ↔
        SeatKept (OpenTarget r id) blank l)) := by
  refine ⟨cardsKept_iff, submittedCard_kept, ?_, ?_⟩
  · intro hmax h
    rw [← toInt_kept (fun seat hopen => Nat.lt_of_lt_of_le hopen.2.2.2.1 hmax) h,
      ← Option.not_isSome_iff_eq_none, changeSeatRequested, changeSeat_isSome, ← imp_iff_not_or]
    exact Iff.rfl
  · intro hcount h
    rw [← toInt_kept (fun seat hopen => Nat.lt_of_lt_of_le (lt_of_openTarget hopen) hcount) h,
      ← Option.not_isSome_iff_eq_none, spectateRequested_isSome, ← imp_iff_not_or]
    exact Iff.rfl

theorem numbers_kept_iff_written :
    CardsKept "\x7b\"cards\":[5, 7]\x7d".toList [.ofInt 5, .ofInt 7] ∧
      (submittedCard { dataJson := "\x7b\"card_id\":54\x7d".toList } = 0 ∨
        (submittedCard { dataJson := "\x7b\"card_id\":54\x7d".toList } : Int) = 54) ∧
      (changeSeatRequested (Room.create "ROOM01" 10001 "four") 10001
          { dataJson := "\x7b\"seat_index\":3\x7d".toList } = none ∨
        requestedSeat { dataJson := "\x7b\"seat_index\":3\x7d".toList } = 3) ∧
      (spectateRequested (Room.create "ROOM01" 10001 "four") Room.clearSpectateTargets 10001
          { dataJson := "\x7b\"target_seat_index\":2\x7d".toList } = none ∨
        targetSeat { dataJson := "\x7b\"target_seat_index\":2\x7d".toList } = 2) := by
  have hkept := fun json text ls msg l => numbers_kept_iff json text ls msg [] l
    (Room.create "ROOM01" 10001 "four") Room.clearSpectateTargets 10001
  have hends : EndsLiteral ['}'] := by
    intro c hc
    cases hc
    rfl
  have hsmall : ∀ n : Int, 0 ≤ n → n < 2 ^ 31 → ∀ IsOpen, SeatKept IsOpen [] (.ofInt n) := by
    intro n hnonneg hlt IsOpen
    have hmagnitude : (Literal.ofInt n).magnitude < 2 ^ 64 := by
      rw [Literal.magnitude_ofInt]
      omega
    rw [SeatKept, if_pos ⟨rfl, hmagnitude⟩, Literal.value_ofInt]
    exact .inl ⟨hnonneg, hlt⟩
  have harray : IntArray [.ofInt 5, .ofInt 7] "5, 7]\x7d".toList :=
    .number (.ofInt 5) (by intro c hc; cases hc; rfl) (.between (.inr rfl) (.between (.inl rfl)
      (.number (.ofInt 7) (by intro c hc; cases hc; rfl) (.closed ['}']))))
  refine ⟨((hkept _ _ _ {} (.ofInt 0)).1 (by decide) harray).2 (.inr ⟨?_, ?_⟩),
    ((hkept [] [] [] _ (.ofInt 54)).2.1 ⟨['}'], by decide, by simp, hends⟩).2 fun _ => .inl ?_,
    ((hkept [] [] [] _ (.ofInt 3)).2.2.1 (by decide) ⟨['}'], by decide, by simp, hends⟩).2
      (hsmall 3 (by decide) (by decide) _),
    ((hkept [] [] [] _ (.ofInt 2)).2.2.2 (by decide) ⟨['}'], by decide, by simp, hends⟩).2
      (hsmall 2 (by decide) (by decide) _)⟩
  · intro c hc
    cases hc
    rfl
  · intro l hl
    rcases List.mem_pair.1 hl with rfl | rfl <;> rw [Literal.value_ofInt] <;> decide
  · rw [Literal.value_ofInt]
    decide

/-- Card 65541 is card 5, and seat 4294967299 is seat 3. -/
theorem numbers_cut_down :
    (parseMessage "\x7b\"type\":\"submit_tribute\",\"data\":\x7b\"card_id\":65541\x7d\x7d".toList).map
        submittedCard = some 5 ∧
      requestedSeat { dataJson := "\x7b\"seat_index\":4294967299\x7d".toList } = 3 ∧
      (changeSeatRequested (Room.create "ROOM01" 10001 "four") 10001
        { dataJson := "\x7b\"seat_index\":4294967299\x7d".toList }).isSome = true := by
  decide

end Guandan.Protocol
