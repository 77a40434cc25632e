import Guandan.Auth.UserFile

/-!
# The file of the user store as a table

Each field of a user is one member of the table that `save` writes, and a field is read as the first
member under its key from the user on, whichever user that belongs to: `loadUsers_table` says what the
loop of `load` makes of the file.
-/

namespace Guandan

open Quoted

/-! ### The file as a table -/

def numberMember (key : String) (n : Nat) (sep : Text) : Member :=
  { key := key.toList, value := digits n, sep := sep }

def stringMember (key s : String) (sep : Text) : Member :=
  { key := key.toList, value := quoted s, sep := sep }

/-- A string that is left out when it is empty. -/
def optionalMember (key s : String) : List Member :=
  if s = "" then [] else [stringMember key s [',']]

/-- The fields of a user behind the id. -/
def UserRecord.fields (u : UserRecord) (sep : Text) : List Member :=
  [stringMember "nickname" u.nickname [','], stringMember "password" u.password [','],
    stringMember "password_hash" u.passwordHash [','], stringMember "salt" u.salt [',']] ++
  optionalMember "avatar" u.avatar ++ optionalMember "avatar_preset" u.avatarPreset ++
  [numberMember "total_games" u.stats.totalGames [','], numberMember "wins" u.stats.wins [','],
    numberMember "losses" u.stats.losses sep]

/-- What stands between the last field of a user and the next quote. -/
def userSep (us : List UserRecord) : Text :=
  if us = [] then "\x7d\n".toList else "\x7d,\n    \x7b".toList

def usersTable : List UserRecord → List Member
  | [] => []
  | u :: us => numberMember "id" u.id [','] :: u.fields (userSep us) ++ usersTable us

/-- What `save` writes up to the first user. -/
def headTable (st : UserStore) : List Member :=
  [numberMember "next_id" st.nextId ",\n  ".toList,
    { key := "users".toList, value := "[".toList,
      sep := if st.users = [] then "\n".toList else "\n    \x7b".toList }]

theorem numberMember_text (key : String) (n : Nat) (sep : Text) :
    (numberMember key n sep).text = keyed key (digits n) ++ sep := by
  simp [numberMember, Member.text, keyed, field]

theorem stringMember_text (key s : String) (sep : Text) :
    (stringMember key s sep).text = keyed key (quoted s) ++ sep := by
  simp [stringMember, Member.text, keyed, field]

/-- `save` writes the comma before an optional field, the table behind it. -/
theorem optionalMember_text (key s : String) (rest : Text) :
    (if s = "" then [] else ',' :: keyed key (quoted s)) ++ ',' :: rest =
      ',' :: (texts (optionalMember key s) ++ rest) := by
  unfold optionalMember
  split_ifs
  · rfl
  · rw [texts, List.flatMap_singleton, stringMember_text]
    simp

theorem userJson_append (u : UserRecord) (sep : Text) :
    userJson u ++ sep =
      "    \x7b".toList ++ texts (numberMember "id" u.id [','] :: u.fields ("\x7d".toList ++ sep)) := by
  have hcomma : ∀ rest, ",".toList ++ rest = ',' :: rest := fun _ => rfl
  unfold userJson UserRecord.fields
  simp only [texts_cons, texts_append, texts_nil, List.append_assoc]
  simp only [numberMember_text, stringMember_text]
  simp only [hcomma, List.append_assoc, List.cons_append, List.nil_append, List.append_nil]
  rw [optionalMember_text, optionalMember_text]

theorem texts_fields_append (u : UserRecord) (sep rest : Text) :
    texts (u.fields sep) ++ rest = texts (u.fields (sep ++ rest)) := by
  unfold UserRecord.fields
  simp only [texts_cons, texts_append, texts_nil, List.append_assoc]
  simp only [numberMember_text, List.append_assoc, List.nil_append, List.append_nil]

theorem userSep_append (us : List UserRecord) (rest : Text) :
    "\x7d".toList ++ ((if us = [] then [] else ",".toList) ++ ("\n".toList ++
      ((if us = [] then [] else "    \x7b".toList) ++ rest))) = userSep us ++ rest := by
  unfold userSep
  split_ifs <;> rfl

theorem usersJson_eq (us : List UserRecord) :
    usersJson us = (if us = [] then [] else "    \x7b".toList) ++ texts (usersTable us) := by
  induction us with
  | nil => rfl
  | cons u us ih =>
    rw [usersJson, ih, List.append_assoc, List.append_assoc, userJson_append, userSep_append,
      if_neg (List.cons_ne_nil u us), usersTable, List.cons_append, texts_cons, texts_cons,
      texts_append, texts_fields_append]

theorem headTable_append (st : UserStore) (rest : Text) :
    texts (headTable st) ++ rest =
      keyed "next_id" (digits st.nextId) ++ (",\n  ".toList ++ (keyed "users" "[\n".toList ++
        ((if st.users = [] then [] else "    \x7b".toList) ++ rest))) := by
  have hopen : (if st.users = [] then "\n".toList else "\n    \x7b".toList) =
      '\n' :: if st.users = [] then [] else "    \x7b".toList := by
    split_ifs <;> rfl
  have hbracket : "[\n".toList = "[".toList ++ ['\n'] := rfl
  unfold headTable
  rw [hopen, hbracket, texts_cons, numberMember_text, texts_cons, texts_nil]
  simp only [Member.text, keyed, field, List.append_assoc, List.cons_append, List.nil_append]

/-- The file is a table. -/
theorem UserStore.save_eq (st : UserStore) :
    st.save = "\x7b\n  ".toList ++ (texts (headTable st ++ usersTable st.users) ++ "  ]\n\x7d\n".toList) := by
  have hopen : "\x7b\n".toList ++ "  ".toList = "\x7b\n  ".toList := rfl
  have hsep : ",\n".toList ++ "  ".toList = ",\n  ".toList := rfl
  have hclose : "  ]\n".toList ++ "\x7d\n".toList = "  ]\n\x7d\n".toList := rfl
  calc
    st.save = "\x7b\n".toList ++ "  ".toList ++ (keyed "next_id" (digits st.nextId) ++
        (",\n".toList ++ "  ".toList ++ (keyed "users" "[\n".toList ++
          (usersJson st.users ++ ("  ]\n".toList ++ "\x7d\n".toList))))) := by
      simp only [← List.append_assoc]
      rfl
    _ = _ := by
      rw [hopen, hsep, hclose, usersJson_eq, texts_append, List.append_assoc (texts (headTable st)),
        headTable_append, List.append_assoc]

/-! ### Reading the table -/

theorem quoted_eq (s : String) : quoted s = '"' :: escaper.run s.toList ++ ['"'] := by
  rw [quoted, escapeJson, escape_eq]

theorem numberMember_wellFormed {key : String} {sep : Text} (n : Nat) (hkey : IsWord key.toList)
    (hsep : IsSep sep) : (numberMember key n sep).WellFormed :=
  ⟨.of_isWord hkey, .inl (digits_no_quote n), hsep⟩

theorem stringMember_wellFormed {key : String} {sep : Text} (s : String) (hkey : IsWord key.toList)
    (hsep : IsSep sep) : (stringMember key s sep).WellFormed :=
  ⟨.of_isWord hkey, .inr ⟨_, escaper.body_run _, quoted_eq s⟩, hsep⟩

theorem isSep_comma : IsSep [','] := ⟨by decide, _, _, rfl, by decide⟩

theorem optionalMember_wellFormed {key : String} (s : String) (hkey : IsWord key.toList) :
    ∀ m ∈ optionalMember key s, m.WellFormed := by
  unfold optionalMember
  split_ifs
  · exact List.forall_mem_nil _
  · exact List.forall_mem_singleton.2 (stringMember_wellFormed s hkey isSep_comma)

theorem UserRecord.fields_wellFormed (u : UserRecord) {sep : Text} (hsep : IsSep sep) :
    ∀ m ∈ u.fields sep, m.WellFormed := by
  unfold fields
  simp only [List.forall_mem_append, List.forall_mem_cons]
  refine ⟨⟨⟨⟨?_, ?_, ?_, ?_, List.forall_mem_nil _⟩, ?_⟩, ?_⟩, ?_, ?_, ?_, List.forall_mem_nil _⟩
  all_goals first
    | exact stringMember_wellFormed _ (by decide) isSep_comma
    | exact numberMember_wellFormed _ (by decide) isSep_comma
    | exact numberMember_wellFormed _ (by decide) hsep
    | exact optionalMember_wellFormed _ (by decide)

theorem isSep_userSep (us : List UserRecord) : IsSep (userSep us) := by
  unfold userSep
  split_ifs <;> exact ⟨by decide, _, _, rfl, by decide⟩

theorem usersTable_wellFormed (us : List UserRecord) : ∀ m ∈ usersTable us, m.WellFormed := by
  induction us with
  | nil => exact List.forall_mem_nil _
  | cons u us ih =>
    rw [usersTable]
    refine List.forall_mem_append.2 ⟨List.forall_mem_cons.2 ⟨?_, ?_⟩, ih⟩
    · exact numberMember_wellFormed _ (by decide) isSep_comma
    · exact u.fields_wellFormed (isSep_userSep us)

theorem headTable_wellFormed (st : UserStore) : ∀ m ∈ headTable st, m.WellFormed := by
  have hkey : IsWord "users".toList := by decide
  have hvalue : '"' ∉ "[".toList := by decide
  have hsep : IsSep (if st.users = [] then "\n".toList else "\n    \x7b".toList) := by
    split_ifs <;> exact ⟨by decide, _, _, rfl, by decide⟩
  unfold headTable
  refine List.forall_mem_cons.2 ⟨?_, List.forall_mem_singleton.2 ⟨.of_isWord hkey, .inl hvalue, hsep⟩⟩
  exact numberMember_wellFormed _ (by decide) ⟨by decide, _, _, rfl, by decide⟩

theorem scanString_plain {c : Char} (hquote : c ≠ '"') (hslash : c ≠ '\\') (text : Text) :
    scanString (c :: text) = (scanString text).map (c :: ·) := by
  rw [scanString.eq_def]
  split <;> simp_all

theorem scanString_body {body : Text} (hbody : Body body) (rest : Text) :
    scanString (body ++ '"' :: rest) = some body := by
  induction hbody with
  | nil => rfl
  | @plain c body hquote hslash _ ih =>
    rw [List.cons_append, scanString_plain hquote hslash, ih, Option.map_some]
  | @escaped c body _ ih =>
    rw [List.cons_append, List.cons_append, scanString, ih, Option.map_some]

section Lookup

variable {ms : List Member} {m : Member} {key s : String} {before rest : Text}

/-- A string that is found is the escaped one. -/
theorem extractJsonStringValue_found (hms : ∀ m ∈ ms, m.WellFormed) (hkey : IsWord key.toList)
    (hbefore : '"' ∉ before) (hrest : '"' ∉ rest)
    (hfind : ms.find? (fun m => m.name == key.toList) = some m) (hvalue : m.value = quoted s) :
    extractJsonStringValue (before ++ (texts ms ++ rest)) key = escapeJson s := by
  rw [← firstWith_fst, Option.map_eq_some_iff] at hfind
  obtain ⟨found, hfound, rfl⟩ := hfind
  rw [extractJsonStringValue, after_field_append hbefore, after_key hms hkey hrest, hfound,
    Option.map_some, hvalue, quoted_eq, escapeJson, escape_eq]
  simp only [List.cons_append, List.append_assoc, List.nil_append]
  rw [List.dropWhile_cons_of_neg (by decide)]
  exact congrArg (·.getD []) (scanString_body (escaper.body_run s.toList) _)

theorem extractJsonStringValue_missing (hms : ∀ m ∈ ms, m.WellFormed) (hkey : IsWord key.toList)
    (hbefore : '"' ∉ before) (hrest : '"' ∉ rest)
    (hfind : ms.find? (fun m => m.name == key.toList) = none) :
    extractJsonStringValue (before ++ (texts ms ++ rest)) key = [] := by
  rw [← firstWith_fst, Option.map_eq_none_iff] at hfind
  rw [extractJsonStringValue, after_field_append hbefore, after_key hms hkey hrest, hfind,
    Option.map_none]

end Lookup

/-! ### What is found under a key -/

section Find

variable {ms : List Member} {m : Member} {u : UserRecord} {sep key' : Text} {key s : String}

theorem find_skip (h : (m.name == key') = false) :
    (m :: ms).find? (fun m => m.name == key') = ms.find? (fun m => m.name == key') := by
  rw [List.find?_cons, h]

theorem find_take (h : (m.name == key') = true) :
    (m :: ms).find? (fun m => m.name == key') = some m := by
  rw [List.find?_cons, h]

theorem optionalMember_skip (h : ((stringMember key s [',']).name == key') = false) :
    (optionalMember key s ++ ms).find? (fun m => m.name == key') =
      ms.find? (fun m => m.name == key') := by
  unfold optionalMember
  split_ifs
  · rfl
  · exact find_skip h

theorem optionalMember_take (h : ((stringMember key s [',']).name == key') = true) :
    (optionalMember key s ++ ms).find? (fun m => m.name == key') =
      if s = "" then ms.find? (fun m => m.name == key') else some (stringMember key s [',']) := by
  unfold optionalMember
  split_ifs
  · rfl
  · exact find_take h

/-- Behind the strings that every user has. -/
theorem fields_skip (u : UserRecord) (sep : Text) (ms : List Member)
    (hkey : key' ∉ ["nickname".toList, "password".toList, "password_hash".toList, "salt".toList]) :
    (u.fields sep ++ ms).find? (fun m => m.name == key') =
      (optionalMember "avatar" u.avatar ++ (optionalMember "avatar_preset" u.avatarPreset ++
        (numberMember "total_games" u.stats.totalGames [','] ::
          numberMember "wins" u.stats.wins [','] ::
          numberMember "losses" u.stats.losses sep :: ms))).find? (fun m => m.name == key') := by
  simp only [List.mem_cons, List.not_mem_nil, or_false, not_or] at hkey
  obtain ⟨hnickname, hpassword, hhash, hsalt⟩ := hkey
  unfold UserRecord.fields
  simp only [List.append_assoc, List.cons_append, List.nil_append]
  rw [find_skip (beq_eq_false_iff_ne.2 (Ne.symm hnickname)),
    find_skip (beq_eq_false_iff_ne.2 (Ne.symm hpassword)),
    find_skip (beq_eq_false_iff_ne.2 (Ne.symm hhash)),
    find_skip (beq_eq_false_iff_ne.2 (Ne.symm hsalt))]

theorem fields_numbers (u : UserRecord) (sep : Text) (ms : List Member)
    (hkey : key' ∉ ["nickname".toList, "password".toList, "password_hash".toList, "salt".toList])
    (hkey' : key' ∉ ["avatar".toList, "avatar_preset".toList]) :
    (u.fields sep ++ ms).find? (fun m => m.name == key') =
      (numberMember "total_games" u.stats.totalGames [','] ::
        numberMember "wins" u.stats.wins [','] ::
        numberMember "losses" u.stats.losses sep :: ms).find? (fun m => m.name == key') := by
  simp only [List.mem_cons, List.not_mem_nil, or_false, not_or] at hkey'
  rw [fields_skip u sep ms hkey, optionalMember_skip (beq_eq_false_iff_ne.2 (Ne.symm hkey'.1)),
    optionalMember_skip (beq_eq_false_iff_ne.2 (Ne.symm hkey'.2))]

end Find

/-- The first of the strings that is not empty. -/
def firstNonempty (f : UserRecord → String) : List UserRecord → String
  | [] => ""
  | u :: us => if f u = "" then firstNonempty f us else f u

/-- Of the optional strings, the one that is found is the first there is. -/
structure Optional (key : String) (f : UserRecord → String) : Prop where
  word : IsWord key.toList
  ne_id : ("id".toList == key.toList) = false
  fields : ∀ (u : UserRecord) (sep : Text) (ms : List Member),
    (u.fields sep ++ ms).find? (fun m => m.name == key.toList) =
      if f u = "" then ms.find? (fun m => m.name == key.toList)
      else some (stringMember key (f u) [','])

theorem optional_avatar : Optional "avatar" (·.avatar) where
  word := by decide
  ne_id := by decide
  fields u sep ms := by
    rw [fields_skip u sep ms (by decide), optionalMember_take (by rfl), optionalMember_skip (by rfl),
      find_skip (by rfl), find_skip (by rfl), find_skip (by rfl)]

theorem optional_avatarPreset : Optional "avatar_preset" (·.avatarPreset) where
  word := by decide
  ne_id := by decide
  fields u sep ms := by
    rw [fields_skip u sep ms (by decide), optionalMember_skip (by rfl), optionalMember_take (by rfl),
      find_skip (by rfl), find_skip (by rfl), find_skip (by rfl)]

namespace Optional

variable {key : String} {f : UserRecord → String} {before rest : Text}

theorem usersTable (h : Optional key f) (us : List UserRecord) :
    (usersTable us).find? (fun m => m.name == key.toList) =
      (optionalMember key (firstNonempty f us)).head? := by
  induction us with
  | nil => rfl
  | cons u us ih =>
    rw [Guandan.usersTable, List.cons_append, find_skip h.ne_id, h.fields, ih, firstNonempty]
    by_cases hu : f u = ""
    · rw [if_pos hu, if_pos hu]
    · rw [if_neg hu, if_neg hu, optionalMember, if_neg hu, List.head?_cons]

/-- A user without the string is read with that of the next user who has one. -/
theorem read (h : Optional key f) (u : UserRecord) (us : List UserRecord) (hbefore : '"' ∉ before)
    (hrest : '"' ∉ rest) :
    extractJsonStringValue
      (before ++ (texts (u.fields (userSep us) ++ Guandan.usersTable us) ++ rest)) key =
        escapeJson (firstNonempty f (u :: us)) := by
  have hms : ∀ m ∈ u.fields (userSep us) ++ Guandan.usersTable us, m.WellFormed :=
    List.forall_mem_append.2 ⟨u.fields_wellFormed (isSep_userSep us), usersTable_wellFormed us⟩
  have hfind : (u.fields (userSep us) ++ Guandan.usersTable us).find?
      (fun m => m.name == key.toList) = (optionalMember key (firstNonempty f (u :: us))).head? := by
    rw [h.fields, h.usersTable, firstNonempty]
    by_cases hu : f u = ""
    · rw [if_pos hu, if_pos hu]
    · rw [if_neg hu, if_neg hu, optionalMember, if_neg hu, List.head?_cons]
  by_cases hempty : firstNonempty f (u :: us) = ""
  · rw [optionalMember, if_pos hempty, List.head?_nil] at hfind
    rw [extractJsonStringValue_missing hms h.word hbefore hrest hfind, hempty]
    rfl
  · rw [optionalMember, if_neg hempty, List.head?_cons] at hfind
    exact extractJsonStringValue_found hms h.word hbefore hrest hfind rfl

end Optional

/-! ### Reading a user -/

/-- A string as it stands in the file. -/
def escaped (s : String) : String := String.ofList (escapeJson s)

theorem escaped_eq_iff {s : String} : escaped s = s ↔ escaper.Plain s.toList := by
  rw [escaped, escapeJson, escape_eq, ← escaper.run_eq_iff]
  constructor
  · intro h
    have hlist := congrArg String.toList h
    rwa [String.toList_ofList] at hlist
  · intro h
    rw [h, String.ofList_toList]

/-- The user that is read where `u` was written before `us`. -/
def reread (u : UserRecord) (us : List UserRecord) : UserRecord where
  id := u.id
  nickname := String.ofList (upToQuote (escapeJson u.nickname))
  password := escaped u.password
  passwordHash := escaped u.passwordHash
  salt := escaped u.salt
  avatar := escaped (firstNonempty (·.avatar) (u :: us))
  avatarPreset := escaped (firstNonempty (·.avatarPreset) (u :: us))
  stats := u.stats

def rereadAll : List UserRecord → List UserRecord
  | [] => []
  | u :: us => reread u us :: rereadAll us

section Reading

variable {u : UserRecord} {us : List UserRecord} {before rest : Text}

/-- The text behind `"id":`. -/
def behindId (u : UserRecord) (us : List UserRecord) (rest : Text) : Text :=
  digits u.id ++ [','] ++ (texts (u.fields (userSep us) ++ usersTable us) ++ rest)

theorem before_quote (u : UserRecord) : '"' ∉ digits u.id ++ [','] := by
  rw [List.mem_append, not_or]
  exact ⟨digits_no_quote u.id, by decide⟩

theorem fields_usersTable_wellFormed (u : UserRecord) (us : List UserRecord) :
    ∀ m ∈ u.fields (userSep us) ++ usersTable us, m.WellFormed :=
  List.forall_mem_append.2 ⟨u.fields_wellFormed (isSep_userSep us), usersTable_wellFormed us⟩

theorem behindId_string (key : String) {s : String} {sep : Text} (hrest : '"' ∉ rest)
    (hkey : IsWord key.toList)
    (hfind : (u.fields (userSep us) ++ usersTable us).find? (fun m => m.name == key.toList) =
      some (stringMember key s sep)) :
    extractJsonStringValue (behindId u us rest) key = escapeJson s :=
  extractJsonStringValue_found (fields_usersTable_wellFormed u us) hkey (before_quote u) hrest hfind
    rfl

theorem behindId_number (key : String) {n : Nat} {sep : Text} (hrest : '"' ∉ rest) (hn : n < 2 ^ 32)
    (hkey : IsWord key.toList)
    (hfind : (u.fields (userSep us) ++ usersTable us).find? (fun m => m.name == key.toList) =
      some (numberMember key n sep)) :
    extractJsonUintValue (behindId u us rest) key % 2 ^ 32 = n := by
  rw [extractJsonUintValue, behindId, extractUint_before (before_quote u),
    extractUint_digits (fields_usersTable_wellFormed u us) hkey hrest hfind rfl,
    if_pos (Nat.lt_trans hn (by decide)), Nat.mod_eq_of_lt hn]

theorem readUser_table (hu : u.Loaded) (hrest : '"' ∉ rest) (more : Text) :
    readUser (field "id".toList (':' :: behindId u us rest)) (escapeJson u.nickname ++ '"' :: more) =
      reread u us := by
  have hid : extractJsonUintValue (field "id".toList (':' :: behindId u us rest)) "id" = u.id := by
    have hms : ∀ m ∈ numberMember "id" u.id [','] :: (u.fields (userSep us) ++ usersTable us),
        m.WellFormed :=
      List.forall_mem_cons.2 ⟨numberMember_wellFormed _ (by decide) isSep_comma,
        fields_usersTable_wellFormed u us⟩
    have htext : field "id".toList (':' :: behindId u us rest) =
        texts (numberMember "id" u.id [','] :: (u.fields (userSep us) ++ usersTable us)) ++ rest := by
      rw [texts_cons, numberMember_text, behindId]
      simp [keyed, field]
    rw [htext, extractJsonUintValue, extractUint_digits hms (by decide) hrest (find_take (by rfl)) rfl,
      if_pos hu.id_lt]
  have hdrop : (field "id".toList (':' :: behindId u us rest)).drop 5 = behindId u us rest := rfl
  have hgames : extractJsonUintValue (behindId u us rest) "total_games" % 2 ^ 32 =
      u.stats.totalGames :=
    behindId_number "total_games" hrest hu.totalGames (by decide)
      ((fields_numbers u _ _ (by decide) (by decide)).trans rfl)
  have hwins : extractJsonUintValue (behindId u us rest) "wins" % 2 ^ 32 = u.stats.wins :=
    behindId_number "wins" hrest hu.wins (by decide)
      ((fields_numbers u _ _ (by decide) (by decide)).trans rfl)
  have hlosses : extractJsonUintValue (behindId u us rest) "losses" % 2 ^ 32 = u.stats.losses :=
    behindId_number "losses" hrest hu.losses (by decide)
      ((fields_numbers u _ _ (by decide) (by decide)).trans rfl)
  have havatar : extractJsonStringValue (behindId u us rest) "avatar" =
      escapeJson (firstNonempty (·.avatar) (u :: us)) :=
    optional_avatar.read u us (before_quote u) hrest
  have hpreset : extractJsonStringValue (behindId u us rest) "avatar_preset" =
      escapeJson (firstNonempty (·.avatarPreset) (u :: us)) :=
    optional_avatarPreset.read u us (before_quote u) hrest
  rw [readUser, hdrop, hid, hgames, hwins, hlosses, havatar, hpreset, upToQuote_append,
    behindId_string "password" hrest (by decide) rfl,
    behindId_string "password_hash" hrest (by decide) rfl,
    behindId_string "salt" hrest (by decide) rfl]
  rfl

theorem reread_kept (hu : u.Loaded) : 0 < (reread u us).id ∧ (reread u us).nickname ≠ "" := by
  refine ⟨hu.id_pos, fun h => ?_⟩
  have hne : u.nickname.toList ≠ [] := fun hnil => hu.nickname (String.toList_eq_nil_iff.1 hnil)
  have hlist := congrArg String.toList h
  rw [reread, String.toList_ofList, escapeJson, escape_eq] at hlist
  exact escaper.upToQuote_run_ne_nil hne hlist

theorem fields_no_id (u : UserRecord) (sep : Text) :
    ∀ m ∈ u.fields sep, (m.name == "id".toList) = false := by
  have hoptional : ∀ key s : String, ((stringMember key s [',']).name == "id".toList) = false →
      ∀ m ∈ optionalMember key s, (m.name == "id".toList) = false := by
    intro key s h
    unfold optionalMember
    split_ifs
    · exact List.forall_mem_nil _
    · exact List.forall_mem_singleton.2 h
  unfold UserRecord.fields
  simp only [List.forall_mem_append, List.forall_mem_cons]
  exact ⟨⟨⟨⟨rfl, rfl, rfl, rfl, List.forall_mem_nil _⟩, hoptional _ _ rfl⟩, hoptional _ _ rfl⟩,
    rfl, rfl, rfl, List.forall_mem_nil _⟩

/-- The next user begins the table. -/
theorem nextUser_table {ms : List Member} (hbefore : '"' ∉ before) (hms : ∀ m ∈ ms, m.WellFormed)
    (hno : ∀ m ∈ ms, (m.name == "id".toList) = false) (hrest : '"' ∉ rest) :
    nextUser (before ++ (texts (ms ++ usersTable us) ++ rest)) =
      match us with
      | [] => none
      | u :: us => some (field "id".toList (':' :: behindId u us rest)) := by
  have hall : ∀ m ∈ ms ++ usersTable us, m.WellFormed :=
    List.forall_mem_append.2 ⟨hms, usersTable_wellFormed us⟩
  rw [nextUser, seek_field_append hbefore, seek_key hall (by decide) hrest, firstWith_append hno]
  cases us with
  | nil => rfl
  | cons u us =>
    rw [usersTable, List.cons_append, firstWith, if_pos (by rfl), Option.map_some]
    exact congrArg (fun text => some (field "id".toList (':' :: text))) (List.append_assoc _ _ _)

theorem nickname_table (u : UserRecord) (us : List UserRecord) (hrest : '"' ∉ rest) :
    ∃ more, after (field "nickname".toList [':', '"']) (behindId u us rest) =
      some (escapeJson u.nickname ++ '"' :: more) := by
  have hfirst : firstWith (fun m => m.name == "nickname".toList && m.isString)
      (u.fields (userSep us) ++ usersTable us) =
        some (stringMember "nickname" u.nickname [','],
          (u.fields (userSep us)).tail ++ usersTable us) := rfl
  rw [behindId, after_field_append (before_quote u),
    after_string_key (fields_usersTable_wellFormed u us) (by decide) hrest, hfirst, Option.map_some]
  refine ⟨[','] ++ (texts ((u.fields (userSep us)).tail ++ usersTable us) ++ rest), ?_⟩
  simp [stringMember, quoted]

/-- The loop of `load` reads one user after the other. -/
theorem loadUsers_table {ms : List Member} (hus : ∀ u ∈ us, u.Loaded) (hbefore : '"' ∉ before)
    (hms : ∀ m ∈ ms, m.WellFormed) (hno : ∀ m ∈ ms, (m.name == "id".toList) = false)
    (hrest : '"' ∉ rest) :
    loadUsers (before ++ (texts (ms ++ usersTable us) ++ rest)) = rereadAll us := by
  induction us generalizing before ms with
  | nil =>
    rw [loadUsers, nextUser_table hbefore hms hno hrest]
    rfl
  | cons u us ih =>
    obtain ⟨hu, hus⟩ := List.forall_mem_cons.1 hus
    have hdrop : (field "id".toList (':' :: behindId u us rest)).drop 5 = behindId u us rest := rfl
    obtain ⟨more, hnick⟩ := nickname_table u us hrest
    have hquote : '"' ∈ escapeJson u.nickname ++ '"' :: more := by simp
    rw [loadUsers, nextUser_table hbefore hms hno hrest]
    simp only [hdrop, hnick, if_neg (not_not.2 hquote), readUser_table hu hrest,
      if_pos (reread_kept hu)]
    rw [rereadAll, behindId]
    exact congrArg (reread u us :: ·)
      (ih hus (before_quote u) (u.fields_wellFormed (isSep_userSep us)) (fields_no_id u _))

end Reading

end Guandan
