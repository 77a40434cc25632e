import Guandan.Protocol.Forwarded

/-!
# Which texts get through

A text arrives as it was sent when it is written without escapes: the server does not undo what the
encoder of the sender has done, it does it again. Of the data of a voice signal it reads no more than
up to the brace that closes too much.
-/

namespace Guandan.Protocol

open Quoted Guandan.Client
open Json (Printable)

/-! ### The data are cut off -/

theorem plain_of_isWord {word : Text} (h : IsWord word) : Json.standard.Plain word := by
  intro c hc
  rw [Bool.eq_false_iff, ne_eq, Json.standard_special, not_or, not_or]
  refine ⟨?_, ?_, ?_⟩
  · rintro rfl
    exact h.not_mem rfl (by decide) hc
  · rintro rfl
    exact h.not_mem rfl (by decide) hc
  · intro hlt
    rcases h c hc with hc | rfl
    · have hcase : c.isUpper = true ∨ c.isLower = true := Bool.or_eq_true_iff.1 hc
      have hle : 65 ≤ c.toNat ∨ 97 ≤ c.toNat :=
        hcase.imp (fun h => (of_decide_eq_true h).1) fun h =>
          of_decide_eq_true (Bool.and_eq_true_iff.1 h).1
      omega
    · exact absurd hlt (by decide)

theorem filter_isWord {word : Text} (h : IsWord word) : word.filter isBrace = [] := by
  rw [List.filter_eq_nil_iff]
  intro c hc hbrace
  rw [isBrace, Bool.or_eq_true, beq_iff_eq, beq_iff_eq] at hbrace
  rcases hbrace with rfl | rfl <;> exact h.not_mem rfl (by decide) hc

theorem entry_string {key : Text} (hkey : IsWord key) (t sep : Text) :
    (entry (key, (DataValue.string t).toJson) sep).text =
      field key [':', '"'] ++ (encoded t ++ '"' :: sep) := by
  rw [entry_text, DataValue.toJson, writeMember_string (plain_of_isWord hkey)]
  simp

theorem filter_entry (e : Text × DataValue) {sep : Text} (hsep : sep.filter isBrace = []) :
    (entry (e.1, e.2.toJson) sep).text.filter isBrace = (e.1 ++ quotedText e.2).filter isBrace := by
  rw [entry_text, List.filter_append, filter_member, hsep, List.append_nil]

/-- The scan that ends too early ends inside of a text. -/
theorem scanObject_cut {depth : Nat} {data : DataMap} (last : Text) (hkeys : ∀ e ∈ data, IsWord e.1)
    (h : nest depth (dataTexts data) = none) :
    ∃ (before : DataMap) (key t : Text) (more : DataMap) (q : Text),
      data = before ++ (key, .string t) :: more ∧ t ≠ [] ∧ q <+: encoded t ∧
      scanObject (depth + 1) (texts (table last data.toJson)) =
        some (texts (before.toJson.map fun e => entry e [',']) ++ (field key [':', '"'] ++ q)) := by
  induction data generalizing depth with
  | nil => cases h
  | cons e data ih =>
    obtain ⟨he, hkeys⟩ := List.forall_mem_cons.1 hkeys
    have htexts : texts (table last (DataMap.toJson (e :: data))) =
        (entry (e.1, e.2.toJson) (if (DataMap.toJson data).isEmpty then last else [','])).text ++
          texts (table last (DataMap.toJson data)) := rfl
    rw [dataTexts, List.flatMap_cons, ← dataTexts, nest_append] at h
    rw [htexts]
    rcases hfirst : nest depth (e.1 ++ quotedText e.2) with _ | k
    · -- the brace is in this text
      obtain ⟨key, v⟩ := e
      rw [← nest_filter, List.filter_append, filter_isWord he, List.nil_append, nest_filter] at hfirst
      obtain ⟨t, rfl⟩ : ∃ t, v = .string t := by
        cases v with
        | string t => exact ⟨t, rfl⟩
        | _ => cases hfirst
      have ht : t ≠ [] := by
        rintro rfl
        cases hfirst
      have hfield : nest depth (field key [':', '"']) = some depth := by
        have hnone : (field key [':', '"']).filter isBrace = [] := by
          simp [field, filter_isWord he, isBrace]
        rw [← nest_filter, hnone]
        rfl
      have hencoded : nest depth (encoded t) = none := by
        rw [← nest_filter, filter_encoded, nest_filter]
        exact hfirst
      generalize (if (DataMap.toJson data).isEmpty then last else [',']) = sep
      obtain ⟨q, hq, hlen⟩ : ∃ q, scanObject (depth + 1)
          (encoded t ++ ('"' :: sep ++ texts (table last (DataMap.toJson data)))) = some q ∧
          q.length ≤ (encoded t).length := scanObject_short hencoded
      have hprefix : q <+: encoded t :=
        List.prefix_of_prefix_length_le (scanObject_start hq) (List.prefix_append ..) hlen
      refine ⟨[], key, t, data, q, rfl, ht, hprefix, ?_⟩
      rw [entry_string he, List.append_assoc, List.append_assoc, scanObject_nest hfield, hq]
      rfl
    · rw [hfirst, Option.bind_some] at h
      obtain ⟨before, key, t, more, q, rfl, ht, hprefix, hscan⟩ := ih hkeys h
      have hsep : (if (DataMap.toJson (before ++ (key, .string t) :: more)).isEmpty then last else [',']) =
          [','] := by
        simp [DataMap.toJson]
      refine ⟨e :: before, key, t, more, q, rfl, ht, hprefix, ?_⟩
      have hnest : nest depth (entry (e.1, e.2.toJson) [',']).text = some k := by
        rw [← nest_filter, filter_entry e (by decide), nest_filter, hfirst]
      rw [hsep, scanObject_nest hnest, hscan, Option.map_some, ← List.append_assoc, ← texts_cons]
      rfl

/-! ### What the handlers read -/

/-- Every key of the data is found as it is. -/
def HasWords (data : DataMap) : Prop := ∀ e ∈ data, IsWord e.1

section Read

variable (requestId : Nat) (type : Text) (roomId : Option Text) (turnId : Option Int)
  {data : DataMap} {key t : Text}

theorem stringAt_of_mem (hwords : HasWords data) (hkeys : (data.map (·.1)).Nodup)
    (h : (key, .string t) ∈ data) : stringAt data key = some t := by
  induction data with
  | nil => cases h
  | cons e data ih =>
    obtain ⟨he, hwords⟩ := List.forall_mem_cons.1 hwords
    rw [List.map_cons, List.nodup_cons] at hkeys
    rw [stringAt, List.findSome?_cons, ← stringAt]
    rcases List.mem_cons.1 h with rfl | h
    · simp [lastWord_of_isWord he]
    · have hne : e.1 ≠ key := by
        rintro rfl
        exact hkeys.1 (List.mem_map.2 ⟨_, h, rfl⟩)
      rw [lastWord_of_isWord he, ih hwords hkeys.2 h]
      rcases e.2 with s | b | n | ns
      · simp only [if_neg hne]
      all_goals rfl

theorem mem_of_valueAt {v : DataValue} (hwords : HasWords data) (h : valueAt data key = some v) :
    (key, v) ∈ data := by
  obtain ⟨e, he, hfound⟩ := List.exists_of_findSome?_eq_some h
  split_ifs at hfound with hname
  cases hfound
  rw [lastWord_of_isWord (hwords e he)] at hname
  exact hname ▸ he

/-- Data without cards are read. -/
theorem cards_isSome (hwords : HasWords data) (hcards : "cards".toList ∉ data.map (·.1)) :
    (parseCardsArray (sentText requestId type roomId turnId data)).isSome = true := by
  have hvalue : valueAt data "cards".toList = none := by
    refine List.findSome?_eq_none_iff.2 fun e he => if_neg ?_
    rw [lastWord_of_isWord (hwords e he)]
    rintro hname
    exact hcards (List.mem_map.2 ⟨e, he, hname⟩)
  have hword : IsWord "cards".toList := by decide
  have htable := table_valueAt hword (plain_of_isWord hword) ['}', '}'] data
  rw [hvalue, Option.map_none, Option.map_eq_none_iff, ← firstWith_fst, Option.map_eq_none_iff] at htable
  refine (read_cards envelope_leaf (envelope_skip (by decide))).2 fun text htext => ?_
  rw [behindCards, htable] at htext
  cases htext

theorem parseMessage_data {json : Text} (hcards : (parseCardsArray json).isSome = true) :
    ∃ msg, parseMessage json = some msg ∧ msg.dataJson = extractDataObject json := by
  obtain ⟨cards, hsome⟩ := Option.isSome_iff_exists.1 hcards
  rw [parseMessage, hsome]
  exact ⟨_, rfl, rfl⟩

/-- The handler gets the data that are found in the text. -/
theorem relayed_sent (hwords : HasWords data) (hcards : "cards".toList ∉ data.map (·.1)) :
    ∃ msg, msg.dataJson = extractDataObject (sentText requestId type roomId turnId data) ∧
      ∀ handle, relayed handle (some (sentText requestId type roomId turnId data)) =
        (handle msg).toOption := by
  obtain ⟨msg, hparse, hdata⟩ :=
    parseMessage_data (cards_isSome requestId type roomId turnId hwords hcards)
  refine ⟨msg, hdata, fun handle => ?_⟩
  rw [relayed, Option.bind_some, hparse]
  rfl

theorem printable_sentData : Printable (extractDataObject (sentText requestId type roomId turnId data)) :=
  printable_extractDataObject (Json.printable_write _)

/-- With every brace closed that is opened, but for one, all of the data is found. -/
theorem found_all {k : Nat} (hbraces : nest 0 (dataTexts data) = some k) (hk : k ≤ 1) :
    ∃ last, IsSep last ∧
      extractDataObject (sentText requestId type roomId turnId data) = '{' :: body data ++ last := by
  rw [sentText, read_data envelope_leaf (envelope_skip (by decide)), scanObject_nest (by rwa [nest_body])]
  obtain rfl | rfl : k = 0 ∨ k = 1 := by omega
  · exact ⟨['}'], ⟨by decide, _, _, rfl, by decide⟩, rfl⟩
  · exact ⟨['}', '}'], ⟨by decide, _, _, rfl, by decide⟩, rfl⟩

/-- With more of them left open, nothing is found. -/
theorem found_nothing {k : Nat} (hbraces : nest 0 (dataTexts data) = some k) (hk : 1 < k) :
    extractDataObject (sentText requestId type roomId turnId data) = noObject := by
  have hopen : scanObject (k + 1) ['}', '}'] = none := by
    obtain ⟨k, rfl⟩ := Nat.exists_eq_add_of_lt hk
    simp [scanObject]
  rw [sentText, read_data envelope_leaf (envelope_skip (by decide)), scanObject_nest (by rwa [nest_body]),
    hopen]
  rfl

/-- A search behind other members finds the part of the text that is left. -/
theorem extractString_part {before : DataMap} {q : Text} (hwords : HasWords before) (hkey : IsWord key)
    (hother : key ∉ before.map (·.1)) :
    extractString (['{'] ++ (texts (before.toJson.map fun e => entry e [',']) ++
      (field key [':', '"'] ++ q))) key = if '"' ∈ q then upToQuote q else [] := by
  have hwell : ∀ m ∈ before.toJson.map (fun e => entry e [',']), m.WellFormed := by
    intro m hm
    obtain ⟨e, he, rfl⟩ := List.mem_map.1 hm
    exact entry_wellFormed (isLeaf_data before e he) ⟨by decide, _, _, rfl, by decide⟩
  have hnames : ∀ m ∈ before.toJson.map (fun e => entry e [',']), m.name ≠ key := by
    intro m hm
    obtain ⟨e, he, rfl⟩ := List.mem_map.1 hm
    obtain ⟨f, hf, rfl⟩ := List.mem_map.1 he
    have hword := hwords f hf
    have hname : (entry (f.1, f.2.toJson) [',']).name = f.1 :=
      ((Json.standard.lastWord_run_iff (hword.not_mem rfl (by decide)) (plain_of_isWord hword)).2
        (lastWord_of_isWord hword))
    rw [hname]
    rintro rfl
    exact hother (List.mem_map.2 ⟨f, hf, rfl⟩)
  rw [extractString_before brace_no_quote, extractString, after_skip hwell hkey hnames, after_start]

/-- With one closed too many, the text it stands in is not found as it is. -/
theorem found_cut (hwords : HasWords data) (hkeys : (data.map (·.1)).Nodup)
    (hbraces : nest 0 (dataTexts data) = none) :
    ∃ key t, (key, .string t) ∈ data ∧
      extractString (extractDataObject (sentText requestId type roomId turnId data)) key ≠ t := by
  have hne : DataMap.toJson data ≠ [] := by
    intro hnil
    rw [List.map_eq_nil_iff.1 hnil] at hbraces
    cases hbraces
  obtain ⟨before, key, t, more, q, rfl, ht, hq, hscan⟩ := scanObject_cut ['}', '}'] hwords hbraces
  rw [texts_table _ hne, ← body] at hscan
  obtain ⟨hbefore, hrest⟩ := List.forall_mem_append.1 hwords
  rw [List.map_append, List.map_cons, List.nodup_append] at hkeys
  have hother : key ∉ before.map (·.1) := fun hmem => hkeys.2.2 _ hmem _ (List.mem_cons_self ..) rfl
  refine ⟨key, t, by simp, ?_⟩
  rw [sentText, read_data envelope_leaf (envelope_skip (by decide)), hscan, Option.map_some,
    Option.getD_some, ← List.singleton_append,
    extractString_part hbefore (hrest _ (List.mem_cons_self ..)) hother]
  split_ifs with hquote
  · -- the text has a quote, what is found has none
    rintro rfl
    exact quote_not_mem_upToQuote q (Json.standard.quote_mem_run.1 (hq.subset hquote))
  · exact Ne.symm ht

end Read

/-! ### Transparency -/

theorem byteSize_mono {text more : Text} (h : text <+: more) : byteSize text ≤ byteSize more := by
  obtain ⟨rest, rfl⟩ := h
  rw [byteSize, byteSize, String.ofList_append, String.utf8ByteSize_append]
  exact Nat.le_add_right _ _

theorem toOption_eq_some {ε α : Type} {result : Except ε α} {a : α} :
    result.toOption = some a ↔ result = .ok a := by
  cases result <;> simp [Except.toOption]

section Transparency

variable {c : WebSocketClient} {room : Room} {draw : Fin 900000} {playerId : PlayerId} {roomId : Text}

theorem dataString_of_mem {data : DataMap} {key t : Text} (hwords : HasWords data)
    (hkeys : (data.map (·.1)).Nodup) (h : (key, .string t) ∈ data) :
    dataString data key = upToQuote (encoded t) := by
  rw [dataString, stringAt_of_mem hwords hkeys h]
  rfl

def chatMap (content : Text) (isEmoji : Bool) : DataMap :=
  [("content".toList, .string content), ("is_emoji".toList, .bool isEmoji)]

theorem chatMap_words (content : Text) (isEmoji : Bool) : HasWords (chatMap content isEmoji) := by
  have hcontent : IsWord "content".toList := by decide
  have hemoji : IsWord "is_emoji".toList := by decide
  exact List.forall_mem_cons.2 ⟨hcontent, List.forall_mem_singleton.2 hemoji⟩

theorem chatMap_keys (content : Text) (isEmoji : Bool) :
    (chatMap content isEmoji).map (·.1) = ["content".toList, "is_emoji".toList] := rfl

theorem chatMap_braces {content : Text} (isEmoji : Bool) (h : ∀ ch ∈ content, isBrace ch = false) :
    nest 0 (dataTexts (chatMap content isEmoji)) = some 0 := by
  have hcontent : content.filter isBrace = [] :=
    List.filter_eq_nil_iff.2 fun ch hch => by rw [h ch hch]; exact Bool.false_ne_true
  have hkeys : "content".toList.filter isBrace = [] ∧ "is_emoji".toList.filter isBrace = [] := by decide
  have hnone : (dataTexts (chatMap content isEmoji)).filter isBrace = [] := by
    simp only [dataTexts, chatMap, List.flatMap_cons, List.flatMap_nil, quotedText, List.filter_append,
      hcontent, hkeys.1, hkeys.2, List.append_nil]
  rw [← nest_filter, hnone, nest]

/-- What the server takes for the content. -/
theorem chat_read (roomId : Text) (isEmoji : Bool) (hc : c.connected = true) {content : Text}
    (hbraces : ∀ ch ∈ content, isBrace ch = false) :
    ∃ msg, Printable msg.dataJson ∧
      extractJsonStringFromData msg.dataJson "content" = upToQuote (encoded content) ∧
      ∀ handle, relayed handle (c.sendSeatChat roomId content isEmoji).1 = (handle msg).toOption := by
  have hwords := chatMap_words content isEmoji
  have hsend : (c.sendSeatChat roomId content isEmoji).1 =
      some (sentText (c.requestId + 1) "seat_chat".toList (some roomId) none (chatMap content isEmoji)) := by
    rw [WebSocketClient.sendSeatChat, WebSocketClient.send, hc]
    rfl
  have hcards : "cards".toList ∉ (chatMap content isEmoji).map (·.1) := by
    rw [chatMap_keys]
    decide
  have hkeys : ((chatMap content isEmoji).map (·.1)).Nodup := by
    rw [chatMap_keys]
    decide
  obtain ⟨msg, hdata, hrelayed⟩ := relayed_sent (c.requestId + 1) "seat_chat".toList (some roomId) none
    hwords hcards
  rw [hsend]
  refine ⟨msg, hdata ▸ printable_sentData _ _ _ _, ?_, hrelayed⟩
  obtain ⟨last, hlast, hfound⟩ := found_all (c.requestId + 1) "seat_chat".toList (some roomId) none
    (chatMap_braces isEmoji hbraces) (Nat.zero_le 1)
  rw [extractJsonStringFromData, hdata, hfound, extractString_data hlast (by decide) (by decide),
    dataString_of_mem hwords hkeys (List.mem_cons_self ..)]

/-- A chat line without braces is passed on, and heard as it was sent when it has no escapes. -/
theorem chat_transparent (hc : c.connected = true) (hid : room.roomId = generateRoomId draw)
    (hin : ∃ p ∈ room.players, p.id = playerId) {content : Text} {isEmoji : Bool}
    (hbraces : ∀ ch ∈ content, isBrace ch = false) (hsize : byteSize (encoded content) ≤ 64) :
    (content ≠ [] → ∃ relay, relayed (handleSeatChat (some room) playerId)
        (c.sendSeatChat roomId content isEmoji).1 = some relay) ∧
      ((∀ relay, relayed (handleSeatChat (some room) playerId)
          (c.sendSeatChat roomId content isEmoji).1 = some relay →
          heard (messageToJson relay.forward) "content".toList = content) ↔
        Json.standard.Plain content) := by
  obtain ⟨msg, hprintable, hread, hrelayed⟩ := chat_read roomId isEmoji hc hbraces
  simp only [hrelayed, toOption_eq_some]
  have hheard : ∀ relay, handleSeatChat (some room) playerId msg = .ok relay →
      heard (messageToJson relay.forward) "content".toList = upToQuote (encoded content) :=
    fun relay hok => (heard_chat hok hid hprintable).trans hread
  have hok : (∃ relay, handleSeatChat (some room) playerId msg = .ok relay) ↔ content ≠ [] := by
    rw [handleSeatChat_isOk_iff, hread]
    have hshort : byteSize (upToQuote (encoded content)) ≤ 64 :=
      (byteSize_mono (List.takeWhile_prefix _)).trans hsize
    refine ⟨fun h hnil => h.1 (by rw [hnil]; rfl), fun hne => ⟨?_, hshort, hin⟩⟩
    exact Json.standard.upToQuote_run_ne_nil hne
  refine ⟨hok.2, fun h => ?_, fun hplain relay hrelay => ?_⟩
  · by_cases hne : content = []
    · rw [hne]
      exact List.forall_mem_nil _
    · obtain ⟨relay, hrelay⟩ := hok.2 hne
      exact Json.standard.upToQuote_run.1 ((hheard relay hrelay).symm.trans (h relay hrelay))
  · rw [hheard relay hrelay, Json.standard.upToQuote_run.2 hplain]

/-- A signal to everyone or to another player of the room. -/
structure VoiceSignal (room : Room) (playerId : PlayerId) (data : DataMap) : Prop where
  keys : (data.map (·.1)).Nodup
  fields : ∀ e ∈ data, e.1 ∈ voiceKeys ∧ (∃ t, e.2 = .string t) ∨
    e.1 ∈ ["to_player_id".toList, "sdp_mline_index".toList] ∧ ∃ n, e.2 = .int n
  signal : ∃ t, t ≠ [] ∧ ("signal".toList, .string t) ∈ data
  target : ∀ n : Int, ("to_player_id".toList, .int n) ∈ data →
    n = 0 ∨ ∃ p ∈ room.players, p.id ≠ playerId ∧ p.id < 2 ^ 64 ∧ n = p.id

/-- No text of the data has an escape, and the braces of the texts are paired but for one. -/
def Relayable (data : DataMap) : Prop :=
  (∀ key t, (key, .string t) ∈ data → Json.standard.Plain t) ∧
    (nest 0 (dataTexts data) = some 0 ∨ nest 0 (dataTexts data) = some 1)

namespace VoiceSignal

variable {data : DataMap}

theorem key_mem (h : VoiceSignal room playerId data) {e : Text × DataValue} (he : e ∈ data) :
    e.1 ∈ voiceKeys ++ ["to_player_id".toList, "sdp_mline_index".toList] :=
  (h.fields e he).elim (fun h => List.mem_append_left _ h.1) fun h => List.mem_append_right _ h.1

theorem words (h : VoiceSignal room playerId data) : HasWords data := by
  have hall : ∀ key ∈ voiceKeys ++ ["to_player_id".toList, "sdp_mline_index".toList], IsWord key := by
    decide
  exact fun e he => hall e.1 (h.key_mem he)

theorem no_cards (h : VoiceSignal room playerId data) : "cards".toList ∉ data.map (·.1) := by
  intro hmem
  obtain ⟨e, he, hkey⟩ := List.mem_map.1 hmem
  have hall : "cards".toList ∉ voiceKeys ++ ["to_player_id".toList, "sdp_mline_index".toList] := by
    decide
  exact hall (hkey ▸ h.key_mem he)

/-- Only the texts of the signal are strings. -/
theorem voiceKey (h : VoiceSignal room playerId data) {key t : Text} (hmem : (key, .string t) ∈ data) :
    key ∈ voiceKeys := by
  rcases h.fields _ hmem with h | ⟨-, n, hn⟩
  · exact h.1
  · cases hn

theorem ne_nil (h : VoiceSignal room playerId data) : data ≠ [] := by
  rintro rfl
  obtain ⟨t, -, ht⟩ := h.signal
  cases ht

/-- The number read as the receiver. -/
theorem target_read (h : VoiceSignal room playerId data) :
    uintOf (valueAt data "to_player_id".toList) = 0 ∨
      uintOf (valueAt data "to_player_id".toList) ≠ playerId ∧
      ∃ p ∈ room.players, p.id = uintOf (valueAt data "to_player_id".toList) := by
  rcases hv : valueAt data "to_player_id".toList with _ | v
  · exact .inl rfl
  cases v with
  | int n =>
    rcases h.target n (mem_of_valueAt h.words hv) with rfl | ⟨p, hp, hother, hwidth, rfl⟩
    · exact .inl rfl
    · have hread : uintOf (some (.int (p.id : Int))) = p.id := by
        rw [uintOf, stoull_writeInt, if_pos (by omega), Int.natAbs_natCast, if_pos hwidth]
      rw [hread]
      exact .inr ⟨hother, p, hp, rfl⟩
  | _ => exact .inl rfl

end VoiceSignal

/-- A signal is passed on and every text of it heard as it was sent, when the texts have no escapes
and all of the data is found, and only then. -/
theorem voice_transparent (hc : c.connected = true) (hid : room.roomId = generateRoomId draw)
    {data : DataMap} (h : VoiceSignal room playerId data) :
    (∃ relay, relayed (handleVoiceSignal (some room) playerId) (c.sendVoiceSignal roomId data).1 =
        some relay ∧ ∀ key t, (key, .string t) ∈ data → heard (messageToJson relay.forward) key = t) ↔
      Relayable data := by
  have hsend : (c.sendVoiceSignal roomId data).1 =
      some (sentText (c.requestId + 1) "voice_signal".toList (some roomId) none data) := by
    rw [WebSocketClient.sendVoiceSignal, WebSocketClient.send, hc]
    rfl
  obtain ⟨msg, hdata, hrelayed⟩ := relayed_sent (c.requestId + 1) "voice_signal".toList (some roomId) none
    h.words h.no_cards
  have hprintable : Printable msg.dataJson := hdata ▸ printable_sentData _ _ _ _
  simp only [hsend, hrelayed, toOption_eq_some]
  have hheard : ∀ relay, handleVoiceSignal (some room) playerId msg = .ok relay →
      ∀ key t, (key, .string t) ∈ data →
        heard (messageToJson relay.forward) key = extractString msg.dataJson key :=
    fun relay hok key t hmem => heard_voice hok hid hprintable (h.voiceKey hmem)
  rcases hbraces : nest 0 (dataTexts data) with _ | k
  · -- the text that is cut is not heard
    refine iff_of_false (fun ⟨relay, hok, hall⟩ => ?_) fun hrelay => ?_
    · obtain ⟨key, t, hmem, hne⟩ := found_cut (c.requestId + 1) "voice_signal".toList (some roomId) none
        h.words h.keys hbraces
      rw [← hdata, ← hheard relay hok key t hmem] at hne
      exact hne (hall key t hmem)
    · rcases hrelay.2 with hpaired | hpaired <;> rw [hbraces] at hpaired <;> cases hpaired
  by_cases hk : k ≤ 1
  · obtain ⟨last, hlast, hfound⟩ := found_all (c.requestId + 1) "voice_signal".toList (some roomId)
      none hbraces hk
    rw [← hdata] at hfound
    have hread : ∀ key t, (key, .string t) ∈ data →
        extractString msg.dataJson key = upToQuote (encoded t) := by
      intro key t hmem
      have hword : IsWord key := h.words _ hmem
      rw [hfound, extractString_data hlast hword (plain_of_isWord hword),
        dataString_of_mem h.words h.keys hmem]
    have hok : ∃ relay, handleVoiceSignal (some room) playerId msg = .ok relay := by
      obtain ⟨t, ht, hsignal⟩ := h.signal
      refine handleVoiceSignal_isOk_iff.2 ⟨?_, ?_⟩
      · rw [extractJsonStringFromData, hread _ t hsignal]
        exact Json.standard.upToQuote_run_ne_nil ht
      · rw [extractJsonUintFromData, hfound, extractUint_data hlast (by decide) (by decide) data h.ne_nil]
        exact h.target_read
    constructor
    · rintro ⟨relay, hrelay, hall⟩
      refine ⟨fun key t hmem => ?_, ?_⟩
      · rw [← Json.standard.upToQuote_run, ← hread key t hmem, ← hheard relay hrelay key t hmem]
        exact hall key t hmem
      · obtain rfl | rfl : k = 0 ∨ k = 1 := by omega
        · exact .inl hbraces
        · exact .inr hbraces
    · rintro ⟨hplain, -⟩
      obtain ⟨relay, hrelay⟩ := hok
      refine ⟨relay, hrelay, fun key t hmem => ?_⟩
      rw [hheard relay hrelay key t hmem, hread key t hmem,
        Json.standard.upToQuote_run.2 (hplain key t hmem)]
  · -- without data there is no signal
    refine iff_of_false (fun ⟨relay, hok, _⟩ => ?_) fun hrelay => ?_
    · have hsignal := (handleVoiceSignal_isOk_iff.1 ⟨relay, hok⟩).1
      rw [hdata, found_nothing _ _ _ _ hbraces (Nat.lt_of_not_le hk)] at hsignal
      exact hsignal (by decide)
    · rcases hrelay.2 with hpaired | hpaired <;> rw [hbraces] at hpaired <;> cases hpaired <;> omega

end Transparency

/-- A chat line and a voice signal are passed on as they were sent, but for escapes and braces. -/
theorem relay_transparent_iff (c : WebSocketClient) (hc : c.connected = true) (room : Room)
    (draw : Fin 900000) (hid : room.roomId = generateRoomId draw) (playerId : PlayerId)
    (hin : ∃ p ∈ room.players, p.id = playerId) (roomId : Text) :
    (∀ (content : Text) (isEmoji : Bool), (∀ ch ∈ content, isBrace ch = false) →
      byteSize (encoded content) ≤ 64 →
      (content ≠ [] → ∃ relay, relayed (handleSeatChat (some room) playerId)
        (c.sendSeatChat roomId content isEmoji).1 = some relay) ∧
      ((∀ relay, relayed (handleSeatChat (some room) playerId)
          (c.sendSeatChat roomId content isEmoji).1 = some relay →
          heard (messageToJson relay.forward) "content".toList = content) ↔
        Json.standard.Plain content)) ∧
    (∀ data : DataMap, VoiceSignal room playerId data →
      ((∃ relay, relayed (handleVoiceSignal (some room) playerId) (c.sendVoiceSignal roomId data).1 =
          some relay ∧ ∀ key t, (key, .string t) ∈ data → heard (messageToJson relay.forward) key = t) ↔
        Relayable data)) :=
  ⟨fun _ _ hbraces hsize => chat_transparent hc hid hin hbraces hsize,
    fun _ hdata => voice_transparent hc hid hdata⟩

/-- A room with two players. -/
def pair : Room :=
  { Room.new (generateRoomId ⟨0, by decide⟩) 1 {} with
    players := [{ id := 1, seatIndex := 0, isOwner := true }, { id := 2, seatIndex := 1 }] }

/-- A greeting is heard, and so is an offer to the other player. -/
theorem relay_transparent_iff_pair :
    (∃ relay, relayed (handleSeatChat (some pair) 1) (WebSocketClient.sendSeatChat { connected := true }
        "100000".toList "hi".toList false).1 = some relay ∧
      heard (messageToJson relay.forward) "content".toList = "hi".toList) ∧
    (∃ relay, relayed (handleVoiceSignal (some pair) 1) (WebSocketClient.sendVoiceSignal
        { connected := true } "100000".toList [("to_player_id".toList, .int 2),
          ("signal".toList, .string "offer".toList), ("sdp".toList, .string "v=0".toList)]).1 =
        some relay ∧
      heard (messageToJson relay.forward) "sdp".toList = "v=0".toList) := by
  have htransparent := relay_transparent_iff { connected := true } rfl pair ⟨0, by decide⟩ rfl 1
    ⟨_, List.mem_cons_self .., rfl⟩ "100000".toList
  constructor
  · have hbraces : ∀ ch ∈ "hi".toList, isBrace ch = false :=
      List.forall_mem_cons.2 ⟨rfl, List.forall_mem_singleton.2 rfl⟩
    obtain ⟨hforward, hheard⟩ := htransparent.1 "hi".toList false hbraces (by decide +kernel)
    obtain ⟨relay, hrelay⟩ := hforward (by decide)
    exact ⟨relay, hrelay, hheard.2 (by decide) relay hrelay⟩
  · have hsignal : VoiceSignal pair 1 [("to_player_id".toList, .int 2),
        ("signal".toList, .string "offer".toList), ("sdp".toList, .string "v=0".toList)] := by
      refine ⟨by decide, List.forall_mem_cons.2 ⟨.inr ⟨by decide, _, rfl⟩, List.forall_mem_cons.2
        ⟨.inl ⟨by decide, _, rfl⟩, List.forall_mem_singleton.2 (.inl ⟨by decide, _, rfl⟩)⟩⟩,
        ⟨_, by decide, List.mem_cons_of_mem _ (List.mem_cons_self ..)⟩, fun n hn => .inr ?_⟩
      simp only [List.mem_cons, Prod.mk.injEq, DataValue.int.injEq, reduceCtorEq, and_false, or_false,
        List.not_mem_nil] at hn
      exact ⟨_, List.mem_cons_of_mem _ (List.mem_cons_self ..), by decide, by decide, hn.2⟩
    have hrelayable : Relayable [("to_player_id".toList, .int 2),
        ("signal".toList, .string "offer".toList), ("sdp".toList, .string "v=0".toList)] := by
      refine ⟨fun key t hmem => ?_, .inl (by decide)⟩
      simp only [List.mem_cons, Prod.mk.injEq, DataValue.string.injEq, reduceCtorEq, and_false,
        false_or, or_false, List.not_mem_nil] at hmem
      rcases hmem with ⟨-, rfl⟩ | ⟨-, rfl⟩ <;> decide
    obtain ⟨relay, hrelay, hheard⟩ := (htransparent.2 _ hsignal).2 hrelayable
    exact ⟨relay, hrelay, hheard _ _
      (List.mem_cons_of_mem _ (List.mem_cons_of_mem _ (List.mem_cons_self ..)))⟩

/-- The line break of a session description is heard as a backslash and a letter. -/
theorem voiceSignal_escaped_twice :
    ∃ relay, relayed (handleVoiceSignal (some pair) 1) (WebSocketClient.sendVoiceSignal
        { connected := true } "100000".toList
        [("signal".toList, .string "offer".toList), ("sdp".toList, .string "v=0\r\n".toList)]).1 =
        some relay ∧
      heard (messageToJson relay.forward) "sdp".toList = "v=0\\r\\n".toList ∧
      heard (messageToJson relay.forward) "sdp".toList ≠ "v=0\r\n".toList := by
  refine ⟨_, rfl, by decide +kernel, by decide +kernel⟩

end Guandan.Protocol
