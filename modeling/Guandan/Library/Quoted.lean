import Mathlib.Data.List.Infix
import Mathlib.Data.List.TakeWhile
import Mathlib.Tactic.Common

/-!
# Looking for a key in quoted text

A program that has no parser looks for `"key":` as a substring. `seek` is that search; the rules say
how it passes over text in which quotes occur in pairs, so that a search is followed from one quote to
the next: a key is found only where it stands between two quotes and a colon follows. The content of
a quoted string may be anything in which a backslash precedes every quote (`Body`). A sequence of
`Member`s is read like a table: a search for a key finds the first member whose key it is, or ends
with it behind a quote.
-/

namespace Quoted

abbrev Text := List Char

/-- The text from the first occurrence on. -/
def seek (needle : Text) : Text → Option Text
  | [] => if needle = [] then some [] else none
  | c :: cs => if needle <+: c :: cs then some (c :: cs) else seek needle cs

/-- The text behind the first occurrence. -/
def after (needle text : Text) : Option Text := (seek needle text).map (·.drop needle.length)

/-- A key in quotes and what follows it. -/
def field (key tail : Text) : Text := '"' :: key ++ '"' :: tail

/-- The text up to the first quote. -/
def upToQuote (text : Text) : Text := text.takeWhile (· ≠ '"')

/-- Keys are made of letters and underscores. -/
def IsWord (key : Text) : Prop := ∀ c ∈ key, c.isAlpha = true ∨ c = '_'

instance : DecidablePred IsWord := fun key => List.decidableBAll _ key

/-- The text behind the last quote. -/
def lastWord : Text → Text
  | [] => []
  | c :: cs => if '"' ∈ cs then lastWord cs else if c = '"' then cs else c :: cs

/-- What may stand in quotes: a backslash takes the next character with it. -/
inductive Body : Text → Prop
  | nil : Body []
  | plain {c : Char} {body : Text} : c ≠ '"' → c ≠ '\\' → Body body → Body (c :: body)
  | escaped {c : Char} {body : Text} : Body body → Body ('\\' :: c :: body)

section Rules

variable {needle key tail text rest body word : Text} {c : Char}

theorem seek_start (h : needle <+: text) : seek needle text = some text := by
  cases text with
  | nil =>
    rw [List.prefix_nil.1 h]
    rfl
  | cons c cs => rw [seek, if_pos h]

theorem seek_skip (h : ¬ needle <+: c :: rest) : seek needle (c :: rest) = seek needle rest := by
  rw [seek, if_neg h]

theorem after_start (needle rest : Text) : after needle (needle ++ rest) = some rest := by
  rw [after, seek_start (List.prefix_append ..), Option.map_some, List.drop_left]

theorem IsWord.not_mem (h : IsWord key) (hc : c.isAlpha = false) (hc' : c ≠ '_') : c ∉ key := by
  intro hmem
  rcases h c hmem with h | h
  · rw [hc] at h
    cases h
  · exact hc' h

theorem seek_spec {here : Text} (h : seek needle text = some here) :
    here <:+ text ∧ needle <+: here := by
  induction text with
  | nil =>
    rw [seek] at h
    split_ifs at h with hneedle
    cases h
    exact ⟨List.suffix_refl _, hneedle ▸ List.nil_prefix⟩
  | cons c cs ih =>
    rw [seek] at h
    split_ifs at h with hprefix
    · cases h
      exact ⟨List.suffix_refl _, hprefix⟩
    · exact ⟨(ih h).1.trans (List.suffix_cons c cs), (ih h).2⟩

/-! ### From one quote to the next -/

/-- A key begins with a quote. -/
theorem seek_field_skip (hc : c ≠ '"') : seek (field key tail) (c :: rest) =
    seek (field key tail) rest := by
  apply seek_skip
  intro h
  exact hc (List.cons_prefix_cons.1 h).1.symm

theorem seek_field_append (hword : '"' ∉ word) : seek (field key tail) (word ++ rest) =
    seek (field key tail) rest := by
  induction word with
  | nil => rfl
  | cons c word ih =>
    rw [List.mem_cons, not_or] at hword
    rw [List.cons_append, seek_field_skip (Ne.symm hword.1), ih hword.2]

theorem seek_field_none (hword : '"' ∉ word) : seek (field key tail) word = none := by
  have h : seek (field key tail) (word ++ []) = seek (field key tail) [] := seek_field_append hword
  rw [List.append_nil] at h
  rw [h, seek, if_neg (by simp [field])]

theorem prefix_quote (hkey : '"' ∉ key) (hword : '"' ∉ word) :
    key ++ '"' :: tail <+: word ++ '"' :: rest ↔ word = key ∧ tail <+: rest := by
  induction key generalizing word with
  | nil =>
    cases word with
    | nil => simp
    | cons c word =>
      rw [List.mem_cons, not_or] at hword
      simp [hword.1]
  | cons d key ih =>
    rw [List.mem_cons, not_or] at hkey
    cases word with
    | nil => simp [Ne.symm hkey.1]
    | cons c word =>
      rw [List.mem_cons, not_or] at hword
      simp [ih hkey.2 hword.2, and_assoc, eq_comm]

theorem field_start (hkey : '"' ∉ key) (hword : '"' ∉ word) :
    field key tail <+: '"' :: word ++ '"' :: rest ↔ word = key ∧ tail <+: rest := by
  rw [field, List.cons_append, List.cons_append, List.cons_prefix_cons, prefix_quote hkey hword]
  exact and_iff_right rfl

theorem after_field_append (hword : '"' ∉ word) : after (field key tail) (word ++ rest) =
    after (field key tail) rest := by
  rw [after, seek_field_append hword, after]

/-- What follows the closing quote is no key. -/
theorem seek_close (hc : c ≠ '"') (hkey : c ∉ key) :
    seek (field key tail) ('"' :: c :: rest) = seek (field key tail) rest := by
  rw [seek_skip, seek_field_skip hc]
  intro h
  rw [field, List.cons_append, List.cons_prefix_cons] at h
  cases key with
  | nil => exact hc (List.cons_prefix_cons.1 h.2).1.symm
  | cons d key => exact hkey (by simp [(List.cons_prefix_cons.1 h.2).1])

/-! ### Strings -/

theorem Body.append {more : Text} (hbody : Body body) (hquote : '"' ∉ more) (hslash : '\\' ∉ more) :
    Body (more ++ body) := by
  induction more with
  | nil => exact hbody
  | cons c more ih =>
    rw [List.mem_cons, not_or] at hquote hslash
    exact .plain (Ne.symm hquote.1) (Ne.symm hslash.1) (ih hquote.2 hslash.2)

theorem Body.of_isWord (h : IsWord key) : Body key := by
  have hbody := Body.nil.append (h.not_mem rfl (by decide)) (h.not_mem rfl (by decide))
  rwa [List.append_nil] at hbody

theorem lastWord_of_not_mem (hword : '"' ∉ word) : lastWord word = word := by
  cases word with
  | nil => rfl
  | cons c cs =>
    rw [List.mem_cons, not_or] at hword
    rw [lastWord, if_neg hword.2, if_neg (Ne.symm hword.1)]

theorem lastWord_of_isWord (h : IsWord key) : lastWord key = key :=
  lastWord_of_not_mem (h.not_mem rfl (by decide))

theorem lastWord_append (word rest : Text) : lastWord (word ++ '"' :: rest) = lastWord rest := by
  induction word with
  | nil =>
    by_cases hmem : '"' ∈ rest
    · rw [List.nil_append, lastWord, if_pos hmem]
    · rw [List.nil_append, lastWord, if_neg hmem, if_pos rfl, lastWord_of_not_mem hmem]
  | cons c word ih => rw [List.cons_append, lastWord, if_pos (by simp), ih]

theorem lastWord_append_of_mem (hrest : '"' ∈ rest) : lastWord (word ++ rest) = lastWord rest := by
  induction word with
  | nil => rfl
  | cons c word ih => rw [List.cons_append, lastWord, if_pos (List.mem_append_right _ hrest), ih]

/-- A string is passed over, unless it is followed like a key and ends like one. -/
theorem seek_body (hkey : '"' ∉ key) (hslash : '\\' ∉ key) (hbody : Body body) :
    seek (field key tail) ('"' :: body ++ '"' :: rest) =
      if lastWord body = key ∧ tail <+: rest then some (field key rest)
      else seek (field key tail) ('"' :: rest) := by
  suffices h : ∀ word : Text, '"' ∉ word →
      seek (field key tail) ('"' :: (word ++ body) ++ '"' :: rest) =
        if lastWord (word ++ body) = key ∧ tail <+: rest then some (field key rest)
        else seek (field key tail) ('"' :: rest) from h [] (by simp)
  induction hbody with
  | nil =>
    intro word hword
    rw [List.append_nil, lastWord_of_not_mem hword]
    split_ifs with hfound
    · rw [seek_start ((field_start hkey hword).2 hfound), hfound.1]
      rfl
    · rw [List.cons_append, seek_skip, seek_field_append hword]
      exact fun h => hfound ((field_start hkey hword).1 h)
  | @plain c body hc _ _ ih =>
    intro word hword
    rw [List.append_cons word c body]
    exact ih (word ++ [c]) (by simpa [hword] using Ne.symm hc)
  | @escaped c body _ ih =>
    intro word hword
    by_cases hc : c = '"'
    · -- an escaped quote: what stands before it ends with the backslash
      subst hc
      have hno : ¬ field key tail <+: '"' :: (word ++ ['\\']) ++ '"' :: (body ++ '"' :: rest) := by
        rw [field_start hkey (by simpa using hword)]
        rintro ⟨rfl, -⟩
        simp at hslash
      have hskip : seek (field key tail) ('"' :: (word ++ '\\' :: '"' :: body) ++ '"' :: rest) =
          seek (field key tail) ('"' :: body ++ '"' :: rest) := by
        have hpass : seek (field key tail) (word ++ ['\\'] ++ ('"' :: body ++ '"' :: rest)) =
            seek (field key tail) ('"' :: body ++ '"' :: rest) :=
          seek_field_append (by simpa using hword)
        rw [← hpass, List.cons_append, seek_skip]
        · simp
        · simpa using hno
      have hword' : lastWord (word ++ '\\' :: '"' :: body) = lastWord body := by
        simpa using lastWord_append (word ++ ['\\']) body
      rw [hskip, hword']
      simpa using ih [] (by simp)
    · have hstep := ih (word ++ ['\\', c]) (by simpa [hword] using Ne.symm hc)
      simpa using hstep

end Rules

/-! ### Escaping -/

section UpToQuote

variable {text : Text}

theorem upToQuote_of_not_mem (htext : '"' ∉ text) : upToQuote text = text := by
  rw [upToQuote, List.takeWhile_eq_self_iff]
  intro c hc
  have hne : c ≠ '"' := fun h => htext (h ▸ hc)
  simpa using hne

theorem quote_not_mem_upToQuote (text : Text) : '"' ∉ upToQuote text := by
  intro hmem
  simpa using List.mem_takeWhile_imp hmem

theorem upToQuote_append (text rest : Text) : upToQuote (text ++ '"' :: rest) = upToQuote text := by
  induction text with
  | nil => rfl
  | cons c text ih =>
    rw [upToQuote, upToQuote, List.cons_append, List.takeWhile_cons, List.takeWhile_cons]
    split_ifs
    · exact congrArg (c :: ·) ih
    · rfl

end UpToQuote

/-- How the special characters are written behind a backslash. Quotes are the only characters whose
mark has a quote. -/
structure Escaper where
  special : Char → Bool
  mark : Char → Text
  quote : special '"' = true
  slash : special '\\' = true
  mark_quote : mark '"' = ['"']
  marks : ∀ c, special c = true → ∃ d more, mark c = d :: more ∧ '"' ∉ more ∧ '\\' ∉ more ∧
    (d = '"' → c = '"')

namespace Escaper

variable (e : Escaper) {text : Text} {c : Char}

def char (c : Char) : Text := if e.special c then '\\' :: e.mark c else [c]

def run (text : Text) : Text := text.flatMap e.char

/-- No character of the text is special. -/
def Plain (text : Text) : Prop := ∀ c ∈ text, e.special c = false

instance : DecidablePred e.Plain := fun text => List.decidableBAll _ text

theorem run_cons (c : Char) (text : Text) : e.run (c :: text) = e.char c ++ e.run text := rfl

theorem plain_cons : e.Plain (c :: text) ↔ e.special c = false ∧ e.Plain text :=
  List.forall_mem_cons

theorem body_run (text : Text) : Body (e.run text) := by
  induction text with
  | nil => exact .nil
  | cons c text ih =>
    rw [run_cons, char]
    split_ifs with hspecial
    · obtain ⟨d, more, hmark, hquote, hslash, -⟩ := e.marks c hspecial
      rw [hmark]
      exact .escaped (ih.append hquote hslash)
    · refine .plain ?_ ?_ ih
      · rintro rfl
        exact hspecial e.quote
      · rintro rfl
        exact hspecial e.slash

theorem length_le_run (text : Text) : text.length ≤ (e.run text).length := by
  induction text with
  | nil => exact Nat.le_refl _
  | cons c text ih =>
    rw [run_cons, char, List.length_append]
    split_ifs <;> simp only [List.length_cons, List.length_nil] <;> omega

/-- A special character makes the text longer. -/
theorem run_eq_iff : e.run text = text ↔ e.Plain text := by
  induction text with
  | nil => simp [run, Plain]
  | cons c text ih =>
    rw [run_cons, char, plain_cons, ← ih]
    split_ifs with hspecial
    · refine iff_of_false (fun h => ?_) fun h => by simp [hspecial] at h
      obtain ⟨d, more, hmark, -⟩ := e.marks c hspecial
      have hlen := congrArg List.length h
      rw [hmark] at hlen
      simp only [List.length_append, List.length_cons] at hlen
      have hle := e.length_le_run text
      omega
    · simp [hspecial]

theorem quote_not_mem_run (htext : '"' ∉ text) : '"' ∉ e.run text := by
  induction text with
  | nil => simp [run]
  | cons c text ih =>
    rw [List.mem_cons, not_or] at htext
    rw [run_cons, List.mem_append, not_or, char]
    refine ⟨?_, ih htext.2⟩
    split_ifs with hspecial
    · obtain ⟨d, more, hmark, hquote, -, hd⟩ := e.marks c hspecial
      rw [hmark, List.mem_cons, List.mem_cons, not_or, not_or]
      exact ⟨by decide, fun h => htext.1 (hd h.symm).symm, hquote⟩
    · simpa using htext.1

theorem char_quote : e.char '"' = ['\\', '"'] := by
  rw [char, if_pos e.quote, e.mark_quote]

theorem quote_mem_run : '"' ∈ e.run text ↔ '"' ∈ text := by
  refine ⟨fun h => not_not.1 fun htext => e.quote_not_mem_run htext h, fun h => ?_⟩
  exact List.mem_flatMap.2 ⟨'"', h, by rw [char_quote]; decide⟩

theorem plain_of_slash_not_mem (h : '\\' ∉ e.run text) : e.Plain text := by
  intro c hc
  rw [Bool.eq_false_iff]
  intro hspecial
  exact h (List.mem_flatMap.2 ⟨c, hc, by rw [char, if_pos hspecial]; exact List.mem_cons_self ..⟩)

/-- The word behind the last quote is escaped like the whole text. -/
theorem lastWord_run (text : Text) : lastWord (e.run text) = e.run (lastWord text) := by
  induction text with
  | nil => rfl
  | cons c text ih =>
    by_cases hmem : '"' ∈ text
    · rw [run_cons, lastWord_append_of_mem (e.quote_mem_run.2 hmem), ih, lastWord, if_pos hmem]
    · rw [lastWord, if_neg hmem]
      split_ifs with hc
      · rw [hc, run_cons, char_quote]
        exact (lastWord_append ['\\'] (e.run text)).trans
          (lastWord_of_not_mem (e.quote_not_mem_run hmem))
      · refine lastWord_of_not_mem (e.quote_not_mem_run ?_)
        rw [List.mem_cons, not_or]
        exact ⟨Ne.symm hc, hmem⟩

theorem lastWord_run_iff {word : Text} (hslash : '\\' ∉ word) (hplain : e.Plain word) :
    lastWord (e.run text) = word ↔ lastWord text = word := by
  rw [lastWord_run]
  constructor
  · intro h
    have htext : e.Plain (lastWord text) := e.plain_of_slash_not_mem (by rwa [h])
    rwa [e.run_eq_iff.2 htext] at h
  · intro h
    rw [h, e.run_eq_iff.2 hplain]

theorem upToQuote_run_ne_nil (htext : text ≠ []) : upToQuote (e.run text) ≠ [] := by
  cases text with
  | nil => exact absurd rfl htext
  | cons c text =>
    rw [run_cons, char]
    split_ifs with hspecial
    · simp [upToQuote]
    · have hc : c ≠ '"' := by
        rintro rfl
        exact hspecial e.quote
      simp [upToQuote, hc]

/-- Cut at its first quote, the escaped text is the text only if nothing is escaped. -/
theorem upToQuote_run : upToQuote (e.run text) = text ↔ e.Plain text := by
  constructor
  · intro h
    have htext : '"' ∉ text := h ▸ quote_not_mem_upToQuote (e.run text)
    rw [upToQuote_of_not_mem (e.quote_not_mem_run htext)] at h
    exact e.run_eq_iff.1 h
  · intro h
    have htext : '"' ∉ text := by
      intro hmem
      have hquote := h _ hmem
      rw [e.quote] at hquote
      cases hquote
    rw [e.run_eq_iff.2 h, upToQuote_of_not_mem htext]

end Escaper

/-! ### Tables -/

/-- A key in quotes, a colon, a value and what separates it from the next member. -/
structure Member where
  key : Text
  value : Text
  sep : Text
  deriving DecidableEq, Repr

/-- What separates two members: it begins with a comma, a brace or the end of the line. -/
structure IsSep (sep : Text) : Prop where
  quote : '"' ∉ sep
  head : ∃ c cs, sep = c :: cs ∧ c ∈ [',', '{', '}', '\n']

namespace Member

def text (m : Member) : Text := field m.key (':' :: (m.value ++ m.sep))

/-- The word as which the key is found. -/
def name (m : Member) : Text := lastWord m.key

/-- The value is a string. -/
def isString (m : Member) : Bool := m.value.head? == some '"'

/-- A value is a string or has no quotes. -/
structure WellFormed (m : Member) : Prop where
  key : Body m.key
  value : '"' ∉ m.value ∨ ∃ body, Body body ∧ m.value = '"' :: body ++ ['"']
  sep : IsSep m.sep

end Member

/-- The members one after the other. -/
def texts (ms : List Member) : Text := ms.flatMap Member.text

/-- The first member with the property, and those behind it. -/
def firstWith (p : Member → Bool) : List Member → Option (Member × List Member)
  | [] => none
  | m :: ms => if p m then some (m, ms) else firstWith p ms

section Tables

variable {key rest : Text} {m : Member} {ms : List Member}

theorem firstWith_fst (p : Member → Bool) (ms : List Member) :
    (firstWith p ms).map (·.1) = ms.find? p := by
  induction ms with
  | nil => rfl
  | cons m ms ih =>
    rw [firstWith, List.find?_cons]
    split_ifs with hp
    · rw [hp]
      rfl
    · rw [eq_false_of_ne_true hp]
      exact ih

theorem firstWith_some {p : Member → Bool} {found : Member × List Member}
    (h : firstWith p ms = some found) : found.1 ∈ ms ∧ p found.1 = true := by
  induction ms with
  | nil => cases h
  | cons m ms ih =>
    rw [firstWith] at h
    split_ifs at h with hp
    · cases h
      exact ⟨List.mem_cons_self .., hp⟩
    · exact ⟨List.mem_cons_of_mem _ (ih h).1, (ih h).2⟩

theorem firstWith_append {p : Member → Bool} (h : ∀ m ∈ ms, p m = false) (ms' : List Member) :
    firstWith p (ms ++ ms') = firstWith p ms' := by
  induction ms with
  | nil => rfl
  | cons m ms ih =>
    obtain ⟨hm, hms⟩ := List.forall_mem_cons.1 h
    rw [List.cons_append, firstWith, if_neg (by simp [hm]), ih hms]

theorem texts_nil : texts [] = [] := rfl

theorem texts_append (ms ms' : List Member) : texts (ms ++ ms') = texts ms ++ texts ms' :=
  List.flatMap_append

theorem texts_cons (m : Member) (ms : List Member) : texts (m :: ms) = m.text ++ texts ms := rfl

theorem Member.text_append (m : Member) (rest : Text) :
    m.text ++ rest = '"' :: m.key ++ '"' :: ':' :: (m.value ++ m.sep ++ rest) := by
  simp [text, field]

theorem Member.WellFormed.string (hm : m.WellFormed) (hstring : m.isString = true) :
    ∃ body, Body body ∧ m.value = '"' :: body ++ ['"'] := by
  rcases hm.value with hbare | h
  · have hhead : m.value.head? = some '"' := by simpa [Member.isString] using hstring
    exact absurd (List.mem_of_mem_head? hhead) hbare
  · exact h

/-- Nothing is found in a value. -/
theorem Member.WellFormed.seek_value {tail : Text} (hm : m.WellFormed) (hkey : IsWord key) :
    seek (field key (':' :: tail)) (m.value ++ m.sep ++ rest) =
      seek (field key (':' :: tail)) rest := by
  obtain ⟨c, cs, hsep, hc⟩ := hm.sep.head
  obtain ⟨halpha, hunder, hcolon, hquote⟩ : c.isAlpha = false ∧ c ≠ '_' ∧ c ≠ ':' ∧ c ≠ '"' := by
    simp only [List.mem_cons, List.not_mem_nil, or_false] at hc
    rcases hc with rfl | rfl | rfl | rfl <;> decide
  have hpass : seek (field key (':' :: tail)) (cs ++ rest) =
      seek (field key (':' :: tail)) rest := by
    apply seek_field_append
    intro hmem
    exact hm.sep.quote (by simp [hsep, hmem])
  rw [hsep]
  rcases hm.value with hbare | ⟨body, hbody, hvalue⟩
  · rw [List.append_assoc, seek_field_append hbare, List.cons_append, seek_field_skip hquote, hpass]
  · have hstring : seek (field key (':' :: tail)) ('"' :: body ++ '"' :: c :: (cs ++ rest)) =
        if lastWord body = key ∧ ':' :: tail <+: c :: (cs ++ rest)
        then some (field key (c :: (cs ++ rest)))
        else seek (field key (':' :: tail)) ('"' :: c :: (cs ++ rest)) :=
      seek_body (hkey.not_mem rfl (by decide)) (hkey.not_mem rfl (by decide)) hbody
    rw [if_neg (by simp [Ne.symm hcolon]), seek_close hquote (hkey.not_mem halpha hunder), hpass]
      at hstring
    rw [hvalue]
    simpa using hstring

/-- A search looks at one member after the other. -/
theorem Member.WellFormed.seek_text {tail : Text} (hm : m.WellFormed) (hkey : IsWord key) :
    seek (field key (':' :: tail)) (m.text ++ rest) =
      if m.name = key ∧ tail <+: m.value ++ m.sep ++ rest
      then some (field key (':' :: (m.value ++ m.sep ++ rest)))
      else seek (field key (':' :: tail)) rest := by
  rw [m.text_append, seek_body (hkey.not_mem rfl (by decide)) (hkey.not_mem rfl (by decide)) hm.key,
    seek_close (by decide) (hkey.not_mem rfl (by decide)), hm.seek_value hkey]
  simp [Member.name]

/-- A search for a key ends at the first member found under it. -/
theorem seek_key (hms : ∀ m ∈ ms, m.WellFormed) (hkey : IsWord key) (hrest : '"' ∉ rest) :
    seek (field key [':']) (texts ms ++ rest) = (firstWith (fun m => m.name == key) ms).map
      fun found => field key (':' :: (found.1.value ++ found.1.sep ++ texts found.2 ++ rest)) := by
  induction ms with
  | nil =>
    rw [texts, List.flatMap_nil, List.nil_append, seek_field_none hrest]
    rfl
  | cons m ms ih =>
    obtain ⟨hm, hms⟩ := List.forall_mem_cons.1 hms
    rw [texts_cons, List.append_assoc, hm.seek_text hkey, firstWith]
    by_cases hname : m.name = key
    · rw [if_pos ⟨hname, List.nil_prefix⟩, if_pos (by simpa using hname)]
      simp
    · rw [if_neg (fun h => hname h.1), if_neg (by simpa using hname)]
      exact ih hms

/-- Members of other keys are passed over. -/
theorem after_skip {tail : Text} (hms : ∀ m ∈ ms, m.WellFormed) (hkey : IsWord key)
    (hother : ∀ m ∈ ms, m.name ≠ key) :
    after (field key (':' :: tail)) (texts ms ++ rest) = after (field key (':' :: tail)) rest := by
  induction ms with
  | nil => rfl
  | cons m ms ih =>
    obtain ⟨hm, hms⟩ := List.forall_mem_cons.1 hms
    obtain ⟨hname, hother⟩ := List.forall_mem_cons.1 hother
    rw [← ih hms hother, texts_cons, List.append_assoc, after, hm.seek_text hkey,
      if_neg (fun h => hname h.1), after]

theorem drop_field (tail : Text) (hrest : tail <+: rest) :
    (field key (':' :: rest)).drop (field key (':' :: tail)).length = rest.drop tail.length := by
  obtain ⟨more, rfl⟩ := hrest
  have hsplit : field key (':' :: (tail ++ more)) = field key (':' :: tail) ++ more := by
    simp [field]
  rw [hsplit, List.drop_left, List.drop_left]

theorem after_key (hms : ∀ m ∈ ms, m.WellFormed) (hkey : IsWord key) (hrest : '"' ∉ rest) :
    after (field key [':']) (texts ms ++ rest) = (firstWith (fun m => m.name == key) ms).map
      fun found => found.1.value ++ found.1.sep ++ texts found.2 ++ rest := by
  rw [after, seek_key hms hkey hrest, Option.map_map]
  refine congrArg (Option.map · _) (funext fun found => ?_)
  exact drop_field [] List.nil_prefix

/-- The same for the first member whose value is a string. -/
theorem after_string_key (hms : ∀ m ∈ ms, m.WellFormed) (hkey : IsWord key) (hrest : '"' ∉ rest) :
    after (field key [':', '"']) (texts ms ++ rest) =
      (firstWith (fun m => m.name == key && m.isString) ms).map
        fun found => found.1.value.tail ++ found.1.sep ++ texts found.2 ++ rest := by
  induction ms with
  | nil =>
    rw [after, texts, List.flatMap_nil, List.nil_append, seek_field_none hrest]
    rfl
  | cons m ms ih =>
    obtain ⟨hm, hms⟩ := List.forall_mem_cons.1 hms
    have hstring : ['"'] <+: m.value ++ m.sep ++ (texts ms ++ rest) ↔ m.isString = true := by
      obtain ⟨c, cs, hsep, -⟩ := hm.sep.head
      have hquote := hm.sep.quote
      rw [hsep, List.mem_cons, not_or] at hquote
      rcases hvalue : m.value with _ | ⟨d, value⟩
      · simp [Member.isString, hvalue, hsep, hquote.1]
      · rw [Member.isString, hvalue, List.cons_append, List.cons_append, List.cons_prefix_cons,
          List.head?_cons, beq_iff_eq, Option.some_inj, eq_comm]
        exact and_iff_left List.nil_prefix
    rw [texts_cons, List.append_assoc, after, hm.seek_text hkey, firstWith]
    by_cases hfound : m.name = key ∧ m.isString = true
    · have hprefix := hstring.2 hfound.2
      rw [if_pos ⟨hfound.1, hprefix⟩, if_pos (by simpa using hfound), Option.map_some, drop_field _ hprefix]
      rcases hvalue : m.value with _ | ⟨d, value⟩
      · simp [Member.isString, hvalue] at hfound
      · simp [hvalue]
    · rw [if_neg (fun h => hfound ⟨h.1, hstring.1 h.2⟩), if_neg (by simpa using hfound)]
      exact ih hms

end Tables

end Quoted
