import Guandan.Client.WebSocketClient
import Guandan.Protocol.Message

/-!
# What the client writes, as a table

The text of a message is a table for `Quoted`: the fields in front of the data are its first members,
`"data":{` is one without a value, and behind it come the members of the data. So each search of
`parseMessage` is answered by the first member under its key, at whichever of the two levels it stands.
-/

namespace Guandan.Protocol

open Quoted Guandan.Client

/-- The standard escapes of a text. -/
abbrev encoded (s : Text) : Text := Json.standard.run s

/-- The text of a value. -/
abbrev written (j : Json) : Text := Json.write Json.standard.run j

def entry (e : Text × Json) (sep : Text) : Member :=
  { key := encoded e.1, value := written e.2, sep := sep }

/-- The members of an object, with what follows the last one. -/
def table (last : Text) : List (Text × Json) → List Member
  | [] => []
  | e :: es => entry e (if es.isEmpty then last else [',']) :: table last es

/-- What opens the data. -/
def dataMember (data : DataMap) : Member :=
  { key := encoded "data".toList, value := [], sep := if data.isEmpty then ['{', '}', '}'] else ['{'] }

/-- Everything behind the first brace. -/
def messageTable (fields : List (Text × Json)) (data : DataMap) : List Member :=
  fields.map (fun e => entry e [',']) ++ dataMember data :: table ['}', '}'] data.toJson

/-! ### The text is that of the table -/

theorem entry_text (e : Text × Json) (sep : Text) :
    (entry e sep).text = Json.writeMember Json.standard.run e ++ sep := by
  simp [entry, Member.text, field, Json.writeMember, Json.writeString]

theorem texts_table (last : Text) {es : List (Text × Json)} (hne : es ≠ []) :
    texts (table last es) = Json.commas (es.map (Json.writeMember Json.standard.run)) ++ last := by
  induction es with
  | nil => exact absurd rfl hne
  | cons e es ih =>
    rw [table, texts_cons, entry_text]
    cases es with
    | nil =>
      rw [table, texts_nil, List.append_nil]
      rfl
    | cons f es =>
      rw [ih (List.cons_ne_nil f es)]
      simp [Json.commas_cons_cons]

theorem commas_append_singleton (ts : List Text) (t : Text) :
    Json.commas (ts ++ [t]) = ts.flatMap (fun u => u ++ [',']) ++ t := by
  induction ts with
  | nil => rfl
  | cons u ts ih =>
    rw [List.flatMap_cons, List.append_assoc, ← ih]
    cases ts with
    | nil => simp [Json.commas]
    | cons v ts => simp [Json.commas]

theorem texts_fields (fields : List (Text × Json)) :
    texts (fields.map fun e => entry e [',']) =
      (fields.map (Json.writeMember Json.standard.run)).flatMap fun u => u ++ [','] := by
  induction fields with
  | nil => rfl
  | cons e fields ih =>
    rw [List.map_cons, texts_cons, entry_text, ih, List.map_cons, List.flatMap_cons]

/-- The text of the data without its braces. -/
def body (data : DataMap) : Text :=
  Json.commas (data.toJson.map (Json.writeMember Json.standard.run))

theorem written_data (data : DataMap) : jsonEncode (.obj data.toJson) = '{' :: body data ++ ['}'] := by
  rw [jsonEncode, Json.write, Json.writeMembers_eq, body]

theorem sep_append_table (data : DataMap) :
    (dataMember data).sep ++ texts (table ['}', '}'] data.toJson) =
      '{' :: (body data ++ ['}', '}']) := by
  cases data with
  | nil => rfl
  | cons e data =>
    have hne : DataMap.toJson (e :: data) ≠ [] := List.cons_ne_nil _ _
    rw [texts_table _ hne]
    rfl

theorem jsonEncode_eq (fields : List (Text × Json)) (data : DataMap) :
    jsonEncode (.obj (fields ++ [("data".toList, .obj data.toJson)])) =
      ['{'] ++ texts (messageTable fields data) := by
  have hdata : texts (dataMember data :: table ['}', '}'] data.toJson) =
      Json.writeMember Json.standard.run ("data".toList, .obj data.toJson) ++ ['}'] := by
    rw [texts_cons, Member.text_append, List.append_assoc, sep_append_table, Json.writeMember,
      ← jsonEncode, written_data]
    simp [dataMember, Json.writeString]
  rw [jsonEncode, Json.write, Json.writeMembers_eq, List.map_append, List.map_singleton,
    commas_append_singleton, ← texts_fields, messageTable, texts_append, hdata]
  simp

/-! ### The table is well formed -/

theorem quote_not_mem_int (n : Int) : '"' ∉ Json.writeInt n := by
  unfold Json.writeInt
  split_ifs
  · rw [List.mem_cons, not_or]
    exact ⟨by decide, digits_no_quote _⟩
  · exact digits_no_quote _

theorem quote_not_mem_commas {ts : List Text} (h : ∀ t ∈ ts, '"' ∉ t) : '"' ∉ Json.commas ts := by
  induction ts with
  | nil => exact List.not_mem_nil
  | cons t ts ih =>
    obtain ⟨ht, hts⟩ := List.forall_mem_cons.1 h
    cases ts with
    | nil => exact ht
    | cons u ts =>
      rw [Json.commas_cons_cons, List.mem_append, List.mem_cons, not_or, not_or]
      exact ⟨ht, by decide, ih hts⟩

/-- The values a member of the table may have. -/
def IsLeaf (j : Json) : Prop :=
  '"' ∉ written j ∨ ∃ text, Body text ∧ written j = '"' :: text ++ ['"']

theorem isLeaf_str (s : Text) : IsLeaf (.str s) :=
  .inr ⟨encoded s, Json.standard.body_run s, rfl⟩

theorem isLeaf_num (n : Int) : IsLeaf (.num n) := .inl (quote_not_mem_int n)

theorem isLeaf_value (v : DataValue) : IsLeaf v.toJson := by
  cases v with
  | string s => exact isLeaf_str s
  | bool b => cases b <;> exact .inl (by decide)
  | int n => exact isLeaf_num n
  | ints ns =>
    left
    have hitems : '"' ∉ Json.commas (Json.writeItems Json.standard.run (ns.map .num)) := by
      rw [Json.writeItems_eq, List.map_map]
      apply quote_not_mem_commas
      intro t ht
      obtain ⟨n, -, rfl⟩ := List.mem_map.1 ht
      exact quote_not_mem_int n
    rw [DataValue.toJson, written, Json.write, List.cons_append, List.mem_cons, List.mem_append]
    simp [hitems]

theorem entry_wellFormed {e : Text × Json} {sep : Text} (he : IsLeaf e.2) (hsep : IsSep sep) :
    (entry e sep).WellFormed :=
  ⟨Json.standard.body_run e.1, he, hsep⟩

theorem table_wellFormed {es : List (Text × Json)} {last : Text} (hes : ∀ e ∈ es, IsLeaf e.2)
    (hlast : IsSep last) : ∀ m ∈ table last es, m.WellFormed := by
  induction es with
  | nil => exact List.forall_mem_nil _
  | cons e es ih =>
    obtain ⟨he, hes⟩ := List.forall_mem_cons.1 hes
    rw [table]
    refine List.forall_mem_cons.2 ⟨entry_wellFormed he ?_, ih hes⟩
    split_ifs
    · exact hlast
    · exact ⟨by decide, _, _, rfl, by decide⟩

theorem isLeaf_data (data : DataMap) : ∀ e ∈ data.toJson, IsLeaf e.2 := by
  intro e he
  obtain ⟨f, -, rfl⟩ := List.mem_map.1 he
  exact isLeaf_value f.2

theorem messageTable_wellFormed {fields : List (Text × Json)} (hfields : ∀ e ∈ fields, IsLeaf e.2)
    (data : DataMap) : ∀ m ∈ messageTable fields data, m.WellFormed := by
  have hdata : (dataMember data).WellFormed := by
    refine ⟨Json.standard.body_run _, .inl List.not_mem_nil, ?_⟩
    unfold dataMember
    dsimp only
    split_ifs <;> exact ⟨by decide, _, _, rfl, by decide⟩
  refine List.forall_mem_append.2 ⟨?_, List.forall_mem_cons.2 ⟨hdata, ?_⟩⟩
  · intro m hm
    obtain ⟨e, he, rfl⟩ := List.mem_map.1 hm
    exact entry_wellFormed (hfields e he) ⟨by decide, _, _, rfl, by decide⟩
  · exact table_wellFormed (isLeaf_data data) ⟨by decide, _, _, rfl, by decide⟩

/-! ### What is found in the data -/

/-- The first string whose key is the word, or ends with it behind a quote. -/
def stringAt (data : DataMap) (word : Text) : Option Text :=
  data.findSome? fun e => match e.2 with
    | .string s => if lastWord e.1 = word then some s else none
    | _ => none

/-- The first value whose key is the word, or ends with it behind a quote. -/
def valueAt (data : DataMap) (word : Text) : Option DataValue :=
  data.findSome? fun e => if lastWord e.1 = word then some e.2 else none

section Find

variable {word : Text} {e : Text × Json} {sep last : Text} {m : Member} {ms : List Member}

theorem name_entry (hword : IsWord word) (hplain : Json.standard.Plain word) :
    ((entry e sep).name == word) = decide (lastWord e.1 = word) := by
  have hiff : lastWord (encoded e.1) = word ↔ lastWord e.1 = word :=
    Json.standard.lastWord_run_iff (hword.not_mem rfl (by decide)) hplain
  rw [Member.name, entry, Bool.eq_iff_iff, beq_iff_eq, decide_eq_true_iff]
  exact hiff

theorem isString_string (key s sep : Text) :
    (entry (key, (DataValue.string s).toJson) sep).isString = true := rfl

theorem isString_bool (key : Text) (b : Bool) (sep : Text) :
    (entry (key, (DataValue.bool b).toJson) sep).isString = false := by
  cases b <;> rfl

theorem isString_num (key : Text) (n : Int) (sep : Text) :
    (entry (key, .num n) sep).isString = false := by
  obtain ⟨c, cs, hn, hc⟩ := Json.writeInt_first n
  rw [Member.isString, entry, written, Json.write, hn, List.head?_cons, beq_eq_false_iff_ne]
  rintro ⟨⟩
  revert hc
  decide

theorem isString_ints (key : Text) (ns : List Int) (sep : Text) :
    (entry (key, (DataValue.ints ns).toJson) sep).isString = false := rfl

theorem table_toJson_cons (last key : Text) (v : DataValue) (data : DataMap) :
    table last (DataMap.toJson ((key, v) :: data)) =
      entry (key, v.toJson) (if (DataMap.toJson data).isEmpty then last else [',']) ::
        table last (DataMap.toJson data) := rfl

/-- A search for a string looks at the data in order. -/
theorem table_stringAt (hword : IsWord word) (hplain : Json.standard.Plain word) (last : Text)
    (data : DataMap) :
    ((table last data.toJson).find? fun m => m.name == word && m.isString).map
        (fun m => upToQuote m.value.tail) =
      (stringAt data word).map fun s => upToQuote (encoded s) := by
  induction data with
  | nil => rfl
  | cons e data ih =>
    obtain ⟨key, v⟩ := e
    rw [table_toJson_cons, List.find?_cons, name_entry hword hplain, stringAt, List.findSome?_cons]
    generalize (if (DataMap.toJson data).isEmpty then last else [',']) = sep
    cases v with
    | string s =>
      rw [isString_string, Bool.and_true]
      by_cases hname : lastWord key = word
      · simp [hname, entry, DataValue.toJson, Json.write, Json.writeString, upToQuote_append]
      · simp only [hname, decide_false, if_false]
        exact ih
    | bool b =>
      rw [isString_bool, Bool.and_false]
      exact ih
    | int n =>
      rw [DataValue.toJson, isString_num, Bool.and_false]
      exact ih
    | ints ns =>
      rw [isString_ints, Bool.and_false]
      exact ih

theorem table_valueAt (hword : IsWord word) (hplain : Json.standard.Plain word) (last : Text)
    (data : DataMap) :
    ((table last data.toJson).find? fun m => m.name == word).map (·.value) =
      (valueAt data word).map fun v => written v.toJson := by
  induction data with
  | nil => rfl
  | cons e data ih =>
    obtain ⟨key, v⟩ := e
    rw [table_toJson_cons, List.find?_cons, name_entry hword hplain, valueAt, List.findSome?_cons]
    by_cases hname : lastWord key = word
    · simp [hname, entry]
    · simp only [hname, decide_false, if_false]
      exact ih

end Find

end Guandan.Protocol
