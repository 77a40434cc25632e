import Guandan.Client.GameController
import Guandan.Protocol.Agreement
import Guandan.Protocol.Numbers
import Guandan.Protocol.Transparency

/-!
# The requests of the client, as the server takes them

The messages that `websocket_client.dart` sends for the controllers, and what the handlers of
`message_dispatcher.cpp` read of a message once it is parsed.
-/

namespace Guandan

open Quoted

/-! ### Sending -/

namespace Client

/-- What is handed to `send`. -/
structure Outgoing where
  type : String
  data : DataMap := []
  roomId : Option Text := none
  turnId : Option Int := none

/-- The methods of the socket, each under the name of its request. -/
def Request.outgoing (roomId token : Text) : Request → Outgoing
  | .playCards cards turnId =>
    { type := "play_cards", data := [("cards".toList, .ints (cards.map fun card : Nat => (card : Int)))],
      roomId := some roomId, turnId := some turnId }
  | .pass turnId => { type := "pass", roomId := some roomId, turnId := some turnId }
  | .submitTribute cardId =>
    { type := "submit_tribute", data := [("cards".toList, .ints [(cardId : Int)])], roomId := some roomId }
  | .submitReturn cardId =>
    { type := "submit_return", data := [("cards".toList, .ints [(cardId : Int)])], roomId := some roomId }
  | .spectateTeammate targetSeatIndex =>
    { type := "spectate_teammate", data := [("target_seat_index".toList, .int targetSeatIndex)],
      roomId := some roomId }
  | .login => { type := "login", data := [("token".toList, .string token)] }
  | .reconnect => { type := "reconnect", roomId := some roomId }
  | .joinRoom =>
    { type := "join_room", data := [("room_id".toList, .string roomId)], roomId := some roomId }
  | .leaveRoom => { type := "leave_room", roomId := some roomId }
  | .ready => { type := "ready", roomId := some roomId }
  | .unready => { type := "unready", roomId := some roomId }
  | .changeSeat seatIndex =>
    { type := "change_seat", data := [("seat_index".toList, .int seatIndex)], roomId := some roomId }
  | .startGame => { type := "start_game", roomId := some roomId }
  | .setRoomOptions enableTribute =>
    { type := "set_room_options", data := [("enable_tribute".toList, .bool enableTribute)],
      roomId := some roomId }
  | .requestDismiss => { type := "request_dismiss", roomId := some roomId }
  | .voteDismiss agree =>
    { type := "vote_dismiss", data := [("agree".toList, .bool agree)], roomId := some roomId }

def Outgoing.send (o : Outgoing) (c : WebSocketClient) : Option Text × WebSocketClient :=
  c.send o.type.toList (some o.data) o.roomId o.turnId

/-- The numbers of a request have the width that the server gives them. -/
def Request.Fits : Request → Prop
  | .playCards cards turnId => (∀ card ∈ cards, card < 2 ^ 16) ∧ turnId < 2 ^ 64
  | .pass turnId => turnId < 2 ^ 64
  | .submitTribute cardId | .submitReturn cardId => cardId < 2 ^ 16
  | .spectateTeammate seatIndex | .changeSeat seatIndex => -2 ^ 31 ≤ seatIndex ∧ seatIndex < 2 ^ 31
  | _ => True

end Client

namespace Protocol

open Client

/-! ### Reading -/

/-- The request that the handler of a message takes it for; types that no request of a room has are left to
other models. -/
def asked (msg : Message) : Option Request :=
  match String.ofList msg.type with
  | "login" => some .login
  | "join_room" => some .joinRoom
  | "leave_room" => some .leaveRoom
  | "ready" => some .ready
  | "unready" => some .unready
  | "change_seat" => some (.changeSeat (requestedSeat msg))
  | "set_room_options" =>
    some (.setRoomOptions (extractJsonBoolFromData msg.dataJson "enable_tribute"))
  | "start_game" => some .startGame
  | "play_cards" => some (.playCards msg.cards msg.turnId)
  | "pass" => some (.pass msg.turnId)
  | "submit_tribute" => some (.submitTribute (submittedCard msg))
  | "submit_return" => some (.submitReturn (submittedCard msg))
  | "spectate_teammate" => some (.spectateTeammate (targetSeat msg))
  | "reconnect" => some .reconnect
  | "request_dismiss" => some .requestDismiss
  | "vote_dismiss" => some (.voteDismiss (extractJsonBoolFromData msg.dataJson "agree"))
  | _ => none

section Cards

theorem dropWhile_digits (n : Nat) {rest : Text} (hrest : ∀ c ∈ rest.head?, c.isDigit = false) :
    (digits n ++ rest).takeWhile Char.isDigit = digits n ∧
      (digits n ++ rest).dropWhile Char.isDigit = rest := by
  have hdigits : ∀ c ∈ digits n, c.isDigit = true := fun c hc =>
    Nat.isDigit_of_mem_toDigits (by decide) (by decide) hc
  rw [List.takeWhile_append_of_pos hdigits, List.dropWhile_append_of_pos hdigits]
  cases rest with
  | nil => simp
  | cons c rest =>
    have hc : ¬ c.isDigit = true := by simpa using hrest c rfl
    rw [List.takeWhile_cons_of_neg hc, List.dropWhile_cons_of_neg hc, List.append_nil]
    exact ⟨rfl, rfl⟩

/-- A separator in front of the text is passed over. -/
theorem cardsLoop_comma (n : Nat) (text : Text) : cardsLoop n (',' :: text) = cardsLoop n text := by
  rw [← cardsLoop_skip, List.dropWhile_cons_of_pos (by decide), cardsLoop_skip]

/-- A list of numbers is read number by number; one of more than 64 bits throws. -/
theorem cardsLoop_commas (ns : List Nat) (rest : Text) {n : Nat}
    (hn : (Json.commas (ns.map digits)).length < n) :
    cardsLoop n (Json.commas (ns.map digits) ++ ']' :: rest) =
      if ∀ k ∈ ns, k < 2 ^ 64 then some (ns.map (· % 2 ^ 16)) else none := by
  induction ns generalizing n with
  | nil =>
    obtain ⟨m, rfl⟩ := Nat.exists_eq_succ_of_ne_zero (Nat.ne_of_gt (Nat.lt_of_le_of_lt (Nat.zero_le _) hn))
    rw [if_pos (List.forall_mem_nil _)]
    rfl
  | cons k ns ih =>
    obtain ⟨m, rfl⟩ := Nat.exists_eq_succ_of_ne_zero (Nat.ne_of_gt (Nat.lt_of_le_of_lt (Nat.zero_le _) hn))
    have hpos : 0 < (digits k).length := List.length_pos_of_ne_nil Nat.toDigits_ne_nil
    -- what follows the first number, and the same loop on it
    obtain ⟨after, htext, hhead, hafter⟩ : ∃ after, Json.commas ((k :: ns).map digits) ++ ']' :: rest =
          digits k ++ after ∧ (∀ c ∈ after.head?, c.isDigit = false) ∧
        cardsLoop m after = if ∀ k ∈ ns, k < 2 ^ 64 then some (ns.map (· % 2 ^ 16)) else none := by
      cases ns with
      | nil =>
        have hm : (Json.commas (([] : List Nat).map digits)).length < m := by
          have hlen : (Json.commas ([k].map digits)).length = (digits k).length := rfl
          have hnil : (Json.commas (([] : List Nat).map digits)).length = 0 := rfl
          omega
        exact ⟨']' :: rest, rfl, by simp, ih hm⟩
      | cons k' ns =>
        have hcommas : Json.commas ((k :: k' :: ns).map digits) =
            digits k ++ ',' :: Json.commas ((k' :: ns).map digits) := rfl
        refine ⟨',' :: (Json.commas ((k' :: ns).map digits) ++ ']' :: rest), by rw [hcommas]; simp,
          by simp, ?_⟩
        rw [cardsLoop_comma]
        apply ih
        rw [hcommas, List.length_append, List.length_cons] at hn
        omega
    obtain ⟨c, cs, hdigits⟩ := List.exists_cons_of_ne_nil (Nat.toDigits_ne_nil (b := 10) (n := k))
    have hc : c.isDigit = true :=
      Nat.isDigit_of_mem_toDigits (b := 10) (n := k) (by decide) (by decide)
        (by rw [hdigits]; exact List.mem_cons_self ..)
    have hround := cardsLoop_number (c := c) (by simp [not_isCardSep_of_digit hc]) hc m (cs ++ after)
    obtain ⟨htake, hdrop⟩ := dropWhile_digits k hhead
    rw [htext]
    have hcons : digits k ++ after = c :: (cs ++ after) := by rw [digits, hdigits, List.cons_append]
    rw [← hcons, htake, hdrop, ofDigitChars_digits, hafter] at hround
    rw [hround]
    by_cases hk : k < 2 ^ 64
    · rw [if_neg (Nat.not_le.2 hk)]
      by_cases hns : ∀ k ∈ ns, k < 2 ^ 64
      · have hall : ∀ j ∈ k :: ns, j < 2 ^ 64 := List.forall_mem_cons.2 ⟨hk, hns⟩
        rw [if_pos hns, if_pos hall]
        rfl
      · have hnot : ¬ ∀ j ∈ k :: ns, j < 2 ^ 64 := fun h => hns (List.forall_mem_cons.1 h).2
        rw [if_neg hns, if_neg hnot]
        rfl
    · have hnot : ¬ ∀ j ∈ k :: ns, j < 2 ^ 64 := fun h => hk (List.forall_mem_cons.1 h).1
      rw [if_pos (Nat.not_lt.1 hk), if_neg hnot]

theorem writeInt_natCast (n : Nat) : Json.writeInt (n : Int) = digits n := by
  rw [digits_eq]
  rfl

end Cards

/-! ### Requests of one member -/

section Sent

variable {requestId : Nat} {type : Text} {roomId : Option Text} {turnId : Option Int} {data : DataMap}

theorem valueAt_eq_none {key : Text} (hwords : HasWords data) (hkey : key ∉ data.map (·.1)) :
    valueAt data key = none := by
  refine List.findSome?_eq_none_iff.2 fun e he => if_neg ?_
  rw [lastWord_of_isWord (hwords e he)]
  rintro rfl
  exact hkey (List.mem_map_of_mem he)

theorem after_cards : after (field "cards".toList [':']) (sentText requestId type roomId turnId data) =
    behindCards data := by
  have hdata : ((dataMember data).name == "cards".toList) = false := rfl
  rw [sentText, messageText_eq, after_field_append brace_no_quote,
    after_key (messageTable_wellFormed envelope_leaf data) (by decide) List.not_mem_nil, messageTable,
    firstWith_append (envelope_skip (by decide)), firstWith, if_neg (by rw [hdata]; exact Bool.false_ne_true),
    behindCards]
  exact congrArg (Option.map · _) (funext fun found => List.append_nil _)

/-- Data without cards are read as an empty list of them. -/
theorem cards_none (hwords : HasWords data) (hcards : "cards".toList ∉ data.map (·.1)) :
    parseCardsArray (sentText requestId type roomId turnId data) = some [] := by
  have hword : IsWord "cards".toList := by decide
  have htable := table_valueAt hword (plain_of_isWord hword) ['}', '}'] data
  rw [valueAt_eq_none hwords hcards, Option.map_none, Option.map_eq_none_iff, ← firstWith_fst,
    Option.map_eq_none_iff] at htable
  rw [parseCardsArray, after_cards, behindCards, htable]
  rfl

/-- The cards of a request. -/
theorem cards_sent (ns : List Nat) :
    parseCardsArray (sentText requestId type roomId turnId
      [("cards".toList, .ints (ns.map fun n : Nat => (n : Int)))]) =
        if ∀ k ∈ ns, k < 2 ^ 64 then some (ns.map (· % 2 ^ 16)) else none := by
  have hitems :
      Json.writeItems Json.standard.run ((ns.map fun n : Nat => (n : Int)).map .num) = ns.map digits := by
    rw [Json.writeItems_eq, List.map_map, List.map_map]
    exact List.map_congr_left fun n _ => writeInt_natCast n
  have hbehind : behindCards [("cards".toList, .ints (ns.map fun n : Nat => (n : Int)))] =
      some ('[' :: (Json.commas (ns.map digits) ++ ']' :: ['}', '}'])) := by
    rw [← hitems]
    have hfound : behindCards [("cards".toList, .ints (ns.map fun n : Nat => (n : Int)))] =
        some (written (.arr ((ns.map fun n : Nat => (n : Int)).map .num)) ++ ['}', '}'] ++ texts []) := rfl
    rw [hfound, texts_nil, written, Json.write]
    simp
  rw [parseCardsArray, after_cards, hbehind]
  refine cardsLoop_commas ns ['}', '}'] ?_
  rw [List.length_append]
  exact Nat.lt_succ_of_le (Nat.le_add_right _ _)

/-- Data without braces are found whole. -/
theorem data_sent (hbraces : (dataTexts data).filter isBrace = []) :
    extractDataObject (sentText requestId type roomId turnId data) = jsonEncode (.obj data.toJson) := by
  rw [readData_eq_iff, ← nest_filter, hbraces]
  rfl

/-- A seat is read as it was sent if and only if it is an `int`. -/
theorem toInt_sent (seat : Int) {key : Text} (hkey : IsWord key) :
    toInt (extractUint (jsonEncode (.obj (DataMap.toJson [(key, .int seat)]))) key) = seat ↔
      -2 ^ 31 ≤ seat ∧ seat < 2 ^ 31 := by
  have hvalue : valueAt [(key, .int seat)] key = some (.int seat) := by
    rw [valueAt, List.findSome?_cons, if_pos (lastWord_of_isWord hkey)]
  have hlast : IsSep ['}'] := ⟨by decide, _, _, rfl, by decide⟩
  rw [written_data, extractUint_data hlast hkey (plain_of_isWord hkey) _ (List.cons_ne_nil _ _), hvalue,
    uintOf, stoull_writeInt, toInt]
  split_ifs <;> omega

/-- A token is looked for in the data, since no field in front of them is one. -/
theorem token_sent : extractJsonString (sentText requestId type roomId turnId data) "token" =
    dataString data "token".toList := by
  have hword : IsWord "token".toList := by decide
  have hfields : ((WebSocketClient.envelope requestId type roomId turnId).map fun e => entry e [',']).find?
      (fun m => m.name == "token".toList && m.isString) = none := by
    rw [List.find?_eq_none]
    intro m hm
    rw [envelope_skip (by decide) m hm]
    exact Bool.false_ne_true
  have hdata : (dataMember data).name = "data".toList := rfl
  rw [sentText, read_string envelope_leaf hword, messageTable, List.find?_append, hfields, Option.none_or,
    List.find?_cons, hdata]
  exact congrArg (·.getD []) (table_stringAt hword (plain_of_isWord hword) ['}', '}'] data)

theorem parse_sent : parseMessage (sentText requestId type roomId turnId data) =
    (parseCardsArray (sentText requestId type roomId turnId data)).map
      (readMessage (sentText requestId type roomId turnId data)) := by
  rw [parseMessage]
  rcases parseCardsArray (sentText requestId type roomId turnId data) with _ | cards <;> rfl

end Sent

/-- Texts that no reader cuts off. -/
structure Sendable (s : Text) : Prop where
  nonempty : s ≠ []
  plain : Json.standard.Plain s
  braces : s.filter isBrace = []

section Requests

variable {requestId : Nat} {roomId token : Text} {q : Request} {cards : List CardId}

/-- The text of a request. -/
def requestText (requestId : Nat) (roomId token : Text) (q : Request) : Text :=
  let o := q.outgoing roomId token
  sentText requestId o.type.toList o.roomId o.turnId o.data

theorem plain_requestType (q : Request) : Json.standard.Plain (q.outgoing roomId token).type.toList := by
  cases q <;> dsimp only [Request.outgoing] <;> decide

theorem requestData_words (q : Request) : HasWords (q.outgoing roomId token).data := by
  cases q <;> simp only [Request.outgoing, HasWords, List.forall_mem_singleton] <;> decide

/-- Nothing of the data of a request is cut off. -/
theorem requestData_found (hroom : Sendable roomId) (htoken : Sendable token) (q : Request) :
    extractDataObject (requestText requestId roomId token q) =
      jsonEncode (.obj (q.outgoing roomId token).data.toJson) := by
  apply data_sent
  cases q with
  | login => simpa [Request.outgoing, dataTexts, quotedText, isBrace] using htoken.braces
  | joinRoom => simpa [Request.outgoing, dataTexts, quotedText, isBrace] using hroom.braces
  | _ => simp [Request.outgoing, dataTexts, quotedText, isBrace]

theorem parsed_iff {P : Message → Prop}
    (hcards : parseCardsArray (requestText requestId roomId token q) = some cards) :
    (∃ msg, parseMessage (requestText requestId roomId token q) = some msg ∧ P msg) ↔
      P (readMessage (requestText requestId roomId token q) cards) := by
  rw [requestText, parse_sent, ← requestText, hcards, Option.map_some]
  simp

theorem requestType_read (q : Request) :
    String.ofList (readMessage (requestText requestId roomId token q) cards).type =
      (q.outgoing roomId token).type := by
  rw [readMessage, requestText, read_type, Json.standard.upToQuote_run.2 (plain_requestType q),
    String.ofList_toList]

theorem type_of_parsed {msg : Message} (h : parseMessage (requestText requestId roomId token q) = some msg) :
    String.ofList msg.type = (q.outgoing roomId token).type := by
  rw [requestText, parse_sent, ← requestText, Option.map_eq_some_iff] at h
  obtain ⟨cards, -, rfl⟩ := h
  exact requestType_read q

theorem requestCards_none (h : "cards".toList ∉ (q.outgoing roomId token).data.map (·.1)) :
    parseCardsArray (requestText requestId roomId token q) = some [] :=
  cards_none (requestData_words q) h

theorem bool_sent (b : Bool) : ∀ key ∈ ["enable_tribute", "agree"],
    extractJsonBoolFromData (jsonEncode (.obj (DataMap.toJson [(key.toList, .bool b)]))) key = b := by
  cases b <;> decide

theorem turn_sent {turnId : Nat} (h : (q.outgoing roomId token).turnId = some (turnId : Int)) :
    (readMessage (requestText requestId roomId token q) cards).turnId = turnId ↔ turnId < 2 ^ 64 := by
  have hread : (readMessage (requestText requestId roomId token q) cards).turnId =
      (stoull (Json.writeInt turnId)).getD 0 := by
    rw [readMessage, requestText, read_turnId, h]
  rw [hread]
  have hiff := stoull_writeInt_eq (turnId : Int)
  omega

theorem map_mod_eq {ns : List Nat} : ns.map (· % 2 ^ 16) = ns ↔ ∀ n ∈ ns, n < 2 ^ 16 := by
  conv_lhs => rw [← List.map_id ns]
  rw [List.map_map, List.map_inj_left]
  refine forall₂_congr fun n _ => ?_
  simp only [Function.comp_apply, id_eq]
  omega

section Cards

variable {ns : List Nat} {msg : Message}
  (hdata : (q.outgoing roomId token).data = [("cards".toList, .ints (ns.map fun n : Nat => (n : Int)))])

include hdata in
theorem cards_of_parsed (h : parseMessage (requestText requestId roomId token q) = some msg) :
    msg.cards = ns.map (· % 2 ^ 16) := by
  rw [requestText, hdata, parse_sent, cards_sent, Option.map_eq_some_iff] at h
  obtain ⟨cards, hcards, rfl⟩ := h
  exact (Option.some.inj (Option.ite_none_right_eq_some.1 hcards).2).symm

include hdata in
/-- Cards are read as they were sent if and only if they have 16 bits. -/
theorem cards_sent_iff {P : Message → Prop} :
    (∃ msg, parseMessage (requestText requestId roomId token q) = some msg ∧ msg.cards = ns ∧ P msg) ↔
      (∀ n ∈ ns, n < 2 ^ 16) ∧ P (readMessage (requestText requestId roomId token q) ns) := by
  constructor
  · rintro ⟨msg, hparse, hcards, hmsg⟩
    have hfits := map_mod_eq.1 ((cards_of_parsed hdata hparse).symm.trans hcards)
    rw [requestText, parse_sent, ← requestText, Option.map_eq_some_iff] at hparse
    obtain ⟨cards, -, rfl⟩ := hparse
    obtain rfl : cards = ns := hcards
    exact ⟨hfits, hmsg⟩
  · rintro ⟨hfits, hmsg⟩
    have hwide : ∀ k ∈ ns, k < 2 ^ 64 := fun k hk => Nat.lt_trans (hfits k hk) (by decide)
    refine ⟨_, ?_, rfl, hmsg⟩
    have hcards : parseCardsArray (requestText requestId roomId token q) = some ns := by
      rw [requestText, hdata, cards_sent, if_pos hwide, map_mod_eq.2 hfits]
    rw [requestText, parse_sent, ← requestText, hcards]
    rfl

end Cards

/-- A single card is the one that is submitted. -/
theorem submitted_sent_iff {cardId : CardId}
    (hdata : (q.outgoing roomId token).data = [("cards".toList, .ints [(cardId : Int)])]) :
    (∃ msg, parseMessage (requestText requestId roomId token q) = some msg ∧ submittedCard msg = cardId) ↔
      cardId < 2 ^ 16 := by
  have hlist : (q.outgoing roomId token).data =
      [("cards".toList, .ints ([cardId].map fun n : Nat => (n : Int)))] := hdata
  have hiff : (∃ msg, parseMessage (requestText requestId roomId token q) = some msg ∧
      msg.cards = [cardId] ∧ True) ↔ _ := cards_sent_iff hlist
  rw [and_true, List.forall_mem_singleton] at hiff
  refine Iff.trans (exists_congr fun msg => and_congr_right fun hparse => ?_) hiff
  have hcards : msg.cards = [cardId % 2 ^ 16] := cards_of_parsed hlist hparse
  rw [submittedCard, hcards, and_true, List.singleton_inj]

/-- The text of a request is taken for this request if and only if its numbers fit. -/
theorem asked_iff (hroom : Sendable roomId) (htoken : Sendable token) (q : Request) :
    (∃ msg, parseMessage (requestText requestId roomId token q) = some msg ∧ asked msg = some q) ↔
      q.Fits := by
  have htype : ∀ cards, String.ofList (readMessage (requestText requestId roomId token q) cards).type =
      (q.outgoing roomId token).type := fun cards => requestType_read q
  have hdata : extractDataObject (requestText requestId roomId token q) =
      jsonEncode (.obj (q.outgoing roomId token).data.toJson) := requestData_found hroom htoken q
  cases q with
  | login | reconnect | joinRoom | leaveRoom | ready | unready | startGame | requestDismiss =>
    rw [parsed_iff (requestCards_none (by simp [Request.outgoing])), asked, htype]
    exact iff_of_true rfl trivial
  | setRoomOptions enableTribute =>
    rw [parsed_iff (requestCards_none (by simp [Request.outgoing])), asked, htype]
    refine iff_of_true (congrArg (some ∘ Request.setRoomOptions) ?_) trivial
    rw [readMessage, hdata]
    exact bool_sent enableTribute "enable_tribute" (by decide)
  | voteDismiss agree =>
    rw [parsed_iff (requestCards_none (by simp [Request.outgoing])), asked, htype]
    refine iff_of_true (congrArg (some ∘ Request.voteDismiss) ?_) trivial
    rw [readMessage, hdata]
    exact bool_sent agree "agree" (by decide)
  | changeSeat seatIndex =>
    rw [parsed_iff (requestCards_none (by simp [Request.outgoing])), asked, htype]
    change some (Request.changeSeat _) = _ ↔ _
    rw [Option.some_inj, Request.changeSeat.injEq, requestedSeat, readMessage, hdata]
    exact toInt_sent seatIndex (by decide)
  | spectateTeammate seatIndex =>
    rw [parsed_iff (requestCards_none (by simp [Request.outgoing])), asked, htype]
    change some (Request.spectateTeammate _) = _ ↔ _
    rw [Option.some_inj, Request.spectateTeammate.injEq, targetSeat, readMessage, hdata]
    exact toInt_sent seatIndex (by decide)
  | pass turnId =>
    rw [parsed_iff (requestCards_none (by simp [Request.outgoing])), asked, htype]
    change some (Request.pass _) = _ ↔ _
    rw [Option.some_inj, Request.pass.injEq]
    exact turn_sent rfl
  | playCards played turnId =>
    have hiff : (∃ msg,
        parseMessage (requestText requestId roomId token (.playCards played turnId)) = some msg ∧
        msg.cards = played ∧ msg.turnId = turnId) ↔ _ := cards_sent_iff rfl
    rw [turn_sent rfl] at hiff
    refine Iff.trans (exists_congr fun msg => and_congr_right fun hparse => ?_) hiff
    rw [asked, type_of_parsed hparse]
    change some (Request.playCards _ _) = _ ↔ _
    rw [Option.some_inj, Request.playCards.injEq]
  | submitTribute cardId =>
    have hiff : (∃ msg,
        parseMessage (requestText requestId roomId token (.submitTribute cardId)) = some msg ∧
        submittedCard msg = cardId) ↔ _ := submitted_sent_iff rfl
    refine Iff.trans (exists_congr fun msg => and_congr_right fun hparse => ?_) hiff
    rw [asked, type_of_parsed hparse]
    change some (Request.submitTribute _) = _ ↔ _
    rw [Option.some_inj, Request.submitTribute.injEq]
  | submitReturn cardId =>
    have hiff : (∃ msg,
        parseMessage (requestText requestId roomId token (.submitReturn cardId)) = some msg ∧
        submittedCard msg = cardId) ↔ _ := submitted_sent_iff rfl
    refine Iff.trans (exists_congr fun msg => and_congr_right fun hparse => ?_) hiff
    rw [asked, type_of_parsed hparse]
    change some (Request.submitReturn _) = _ ↔ _
    rw [Option.some_inj, Request.submitReturn.injEq]

/-- No two requests have the same text. -/
theorem requestText_injective {requestId' : Nat} {q' : Request}
    (h : requestText requestId roomId token q = requestText requestId' roomId token q') : q = q' := by
  have hdecode (requestId : Nat) (q : Request) : Json.decode (requestText requestId roomId token q) =
      some (.obj (WebSocketClient.envelope requestId (q.outgoing roomId token).type.toList
        (q.outgoing roomId token).roomId (q.outgoing roomId token).turnId ++
        [("data".toList, .obj (q.outgoing roomId token).data.toJson)])) :=
    Json.decode_write Json.codec_standard _
  have hfields := Json.obj.inj (Option.some.inj
    ((hdecode requestId q).symm.trans (h ▸ hdecode requestId' q')))
  obtain ⟨henvelope, hlast⟩ := List.append_inj' hfields rfl
  have htype : (q.outgoing roomId token).type = (q'.outgoing roomId token).type :=
    String.toList_inj.1 (Json.str.inj (Prod.mk.inj (List.cons.inj (List.cons.inj henvelope).2).1).2)
  have hdata : (q.outgoing roomId token).data.toJson = (q'.outgoing roomId token).data.toJson :=
    Json.obj.inj (Prod.mk.inj (List.cons.inj hlast).1).2
  -- the room and the turn
  have hrest := (List.cons.inj (List.cons.inj (List.cons.inj henvelope).2).2).2
  have hcards (cards cards' : List CardId) : cards.map (Json.num ∘ fun card : Nat => (card : Int)) =
      cards'.map (Json.num ∘ fun card : Nat => (card : Int)) ↔ cards = cards' := by
    refine List.map_inj_right fun card card' heq => ?_
    exact Int.ofNat.inj (Json.num.inj heq)
  clear h hdecode hfields hlast henvelope
  cases q <;> cases q' <;> first
    | rfl
    | (simp [Request.outgoing] at htype; done)
    | simpa [Request.outgoing, DataMap.toJson, DataValue.toJson, hcards] using And.intro hdata hrest

/-! ### What stands in front of the data -/

section Header

variable {msg : Message}

theorem outgoing_room (roomId token : Text) (q : Request) :
    (q.outgoing roomId token).roomId = some roomId ∨ q = .login := by
  cases q with
  | login => exact .inr rfl
  | _ => exact .inl rfl

theorem room_read (hroom : Sendable roomId) (htoken : Sendable token)
    (h : parseMessage (requestText requestId roomId token q) = some msg) :
    msg.roomId = (q.outgoing roomId token).roomId.getD [] := by
  rw [requestText, parse_sent, ← requestText, Option.map_eq_some_iff] at h
  obtain ⟨cards, -, rfl⟩ := h
  refine (readRoom_eq_iff (requestData_found hroom htoken q)).2 ?_
  rcases outgoing_room roomId token q with hid | rfl
  · rw [hid]
    refine ⟨fun id heq => Option.some.inj heq ▸ hroom.plain, fun hnone => ?_⟩
    exact absurd (hnone.resolve_left (Option.some_ne_none _)) fun h => hroom.nonempty (Option.some.inj h)
  · refine ⟨fun id hid => absurd hid (Ne.symm (Option.some_ne_none id)), fun _ s hs => ?_⟩
    have hnone : stringAt [("token".toList, .string token)] "room_id".toList = none := rfl
    rw [show (Request.outgoing roomId token .login).data = [("token".toList, .string token)] from rfl,
      hnone] at hs
    cases hs

theorem token_read (htoken : Sendable token)
    (h : parseMessage (requestText requestId roomId token .login) = some msg) : msg.token = token := by
  rw [requestText, parse_sent, ← requestText, Option.map_eq_some_iff] at h
  obtain ⟨cards, -, rfl⟩ := h
  have hword : IsWord "token".toList := by decide
  have hfound : extractJsonString (requestText requestId roomId token .login) "token" = token := by
    rw [requestText, token_sent]
    change dataString [("token".toList, .string token)] "token".toList = token
    rw [dataString, stringAt, List.findSome?_cons, lastWord_of_isWord hword]
    exact Json.standard.upToQuote_run.2 htoken.plain
  have hne : token.isEmpty = false := List.isEmpty_eq_false_iff.2 htoken.nonempty
  simp only [readMessage, hfound, hne]
  rfl

end Header

end Requests

/-- Every request of a connected client is taken for itself by the server if and only if its numbers have the
width that they have there; its id (below `2 ^ 64`), its room and the token of a login arrive in any case. The
room id and the token are `Sendable`: neither is empty or has a special character or a brace. -/
theorem request_taken_iff (c : WebSocketClient) (hc : c.connected = true) (hid : c.requestId + 1 < 2 ^ 64)
    {roomId token : Text} (hroom : Sendable roomId) (htoken : Sendable token) (q : Request) :
    ∃ payload, ((q.outgoing roomId token).send c).1 = some payload ∧
      ((∃ msg, parseMessage payload = some msg ∧ asked msg = some q) ↔ q.Fits) ∧
      ∀ msg, parseMessage payload = some msg → msg.requestId = c.requestId + 1 ∧
        msg.roomId = (q.outgoing roomId token).roomId.getD [] ∧ (q = .login → msg.token = token) := by
  have hsend : ((q.outgoing roomId token).send c).1 =
      some (requestText (c.requestId + 1) roomId token q) := by
    rw [Outgoing.send, WebSocketClient.send, hc]
    rfl
  refine ⟨_, hsend, asked_iff hroom htoken q, fun msg hparse => ⟨?_, room_read hroom htoken hparse, ?_⟩⟩
  · rw [requestText, parse_sent, Option.map_eq_some_iff] at hparse
    obtain ⟨cards, -, rfl⟩ := hparse
    exact read_requestId.trans (if_pos hid)
  · rintro rfl
    exact token_read htoken hparse

/-- A play, and a seat that is none. -/
theorem request_taken_iff_play :
    (∃ msg,
      parseMessage (requestText 7 "938271".toList "c0ffee".toList (.playCards [10, 23] 37)) = some msg ∧
      asked msg = some (.playCards [10, 23] 37)) ∧
    ¬ ∃ msg,
      parseMessage (requestText 7 "938271".toList "c0ffee".toList (.changeSeat (2 ^ 31))) = some msg ∧
      asked msg = some (.changeSeat (2 ^ 31)) := by
  have hroom : Sendable "938271".toList := ⟨by decide, by decide, by decide⟩
  have htoken : Sendable "c0ffee".toList := ⟨by decide, by decide, by decide⟩
  obtain ⟨payload, hsend, hplay, -⟩ := request_taken_iff { connected := true, requestId := 6 } rfl
    (by decide) hroom htoken (.playCards [10, 23] 37)
  obtain ⟨payload', hsend', hseat, -⟩ := request_taken_iff { connected := true, requestId := 6 } rfl
    (by decide) hroom htoken (.changeSeat (2 ^ 31))
  cases hsend
  cases hsend'
  exact ⟨hplay.2 (by simp [Request.Fits]), fun h => absurd (hseat.1 h).2 (by decide)⟩

end Protocol

end Guandan
