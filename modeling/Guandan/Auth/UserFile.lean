import Guandan.Auth.AuthService
import Guandan.Library.Machine
import Guandan.Protocol.Extract

/-!
# The file behind the user store

What `save` of `user_store.cpp` writes, what `load` makes of a file, and the calls that change the
store. Reading the file is `load`, writing it has no effect on the store.
-/

namespace Guandan

open Quoted

/-! ### The functions of the file -/

def escapeJson (s : String) : Text := escape s.toList

def extractJsonUintValue (json : Text) (key : String) : Nat := extractUint json key.toList

/-- The text up to the first quote that no backslash precedes. -/
def scanString : Text → Option Text
  | [] => none
  | '\\' :: c :: cs => (scanString cs).map ('\\' :: c :: ·)
  | '"' :: _ => some []
  | c :: cs => (scanString cs).map (c :: ·)

def extractJsonStringValue (json : Text) (key : String) : Text :=
  match after (field key.toList [':']) json with
  | none => []
  | some rest => match rest.dropWhile isSpace with
    | '"' :: cs => (scanString cs).getD []
    | _ => []

/-- A key and its value. -/
def keyed (key : String) (value : Text) : Text := field key.toList [':'] ++ value

def quoted (s : String) : Text := '"' :: escapeJson s ++ ['"']

def userJson (u : UserRecord) : Text :=
  "    \x7b".toList ++ keyed "id" (digits u.id) ++
  ",".toList ++ keyed "nickname" (quoted u.nickname) ++
  ",".toList ++ keyed "password" (quoted u.password) ++
  ",".toList ++ keyed "password_hash" (quoted u.passwordHash) ++
  ",".toList ++ keyed "salt" (quoted u.salt) ++
  (if u.avatar = "" then [] else ",".toList ++ keyed "avatar" (quoted u.avatar)) ++
  (if u.avatarPreset = "" then [] else
    ",".toList ++ keyed "avatar_preset" (quoted u.avatarPreset)) ++
  ",".toList ++ keyed "total_games" (digits u.stats.totalGames) ++
  ",".toList ++ keyed "wins" (digits u.stats.wins) ++
  ",".toList ++ keyed "losses" (digits u.stats.losses) ++
  "\x7d".toList

def usersJson : List UserRecord → Text
  | [] => []
  | u :: us => userJson u ++ (if us = [] then [] else ",".toList) ++ "\n".toList ++ usersJson us

/-- The file from the next `"id":` on. -/
def nextUser (json : Text) : Option Text := seek (field "id".toList [':']) json

theorem nextUser_length {json here : Text} (h : nextUser json = some here) :
    (here.drop 5).length < json.length := by
  obtain ⟨hsuffix, hprefix⟩ := seek_spec h
  have hle := hsuffix.length_le
  have hlen : 5 ≤ here.length := hprefix.length_le
  rw [List.length_drop]
  omega

/-- The user whose `"id":` begins the text, with the nickname up to its first quote. -/
def readUser (here nick : Text) : UserRecord :=
  let rest := here.drop 5
  { id := extractJsonUintValue here "id"
    nickname := String.ofList (upToQuote nick)
    password := String.ofList (extractJsonStringValue rest "password")
    passwordHash := String.ofList (extractJsonStringValue rest "password_hash")
    salt := String.ofList (extractJsonStringValue rest "salt")
    avatar := String.ofList (extractJsonStringValue rest "avatar")
    avatarPreset := String.ofList (extractJsonStringValue rest "avatar_preset")
    stats :=
      { totalGames := extractJsonUintValue rest "total_games" % 2 ^ 32
        wins := extractJsonUintValue rest "wins" % 2 ^ 32
        losses := extractJsonUintValue rest "losses" % 2 ^ 32 } }

/-- The loop of `load`; users without id or nickname are left out. -/
def loadUsers (json : Text) : List UserRecord :=
  match _h : nextUser json with
  | none => []
  | some here =>
    match after (field "nickname".toList [':', '"']) (here.drop 5) with
    | none => []
    | some nick =>
      if '"' ∉ nick then []
      else if 0 < (readUser here nick).id ∧ (readUser here nick).nickname ≠ "" then
        readUser here nick :: loadUsers (here.drop 5)
      else loadUsers (here.drop 5)
termination_by json.length
decreasing_by all_goals exact nextUser_length ‹_›

/-- What `load` makes of any file: no user is without id or name, and the numbers have their width. -/
structure UserRecord.Loaded (u : UserRecord) : Prop where
  id_pos : 0 < u.id
  id_lt : u.id < 2 ^ 64
  nickname : u.nickname ≠ ""
  totalGames : u.stats.totalGames < 2 ^ 32
  wins : u.stats.wins < 2 ^ 32
  losses : u.stats.losses < 2 ^ 32

theorem readUser_loaded {here nick : Text}
    (h : 0 < (readUser here nick).id ∧ (readUser here nick).nickname ≠ "") :
    (readUser here nick).Loaded where
  id_pos := h.1
  id_lt := extractUint_lt here _
  nickname := h.2
  totalGames := Nat.mod_lt _ (by decide)
  wins := Nat.mod_lt _ (by decide)
  losses := Nat.mod_lt _ (by decide)

theorem loadUsers_loaded (json : Text) : ∀ u ∈ loadUsers json, u.Loaded := by
  induction json using loadUsers.induct with
  | case1 json hnext =>
    rw [loadUsers, hnext]
    exact List.forall_mem_nil _
  | case2 json here hnext hnick =>
    rw [loadUsers, hnext]
    simp only [hnick]
    exact List.forall_mem_nil _
  | case3 json here hnext nick hnick hquote =>
    rw [loadUsers, hnext]
    simp only [hnick, if_pos hquote]
    exact List.forall_mem_nil _
  | case4 json here hnext nick hnick hquote hkept ih =>
    rw [loadUsers, hnext]
    simp only [hnick, if_neg hquote, if_pos hkept, List.forall_mem_cons]
    exact ⟨readUser_loaded hkept, ih⟩
  | case5 json here hnext nick hnick hquote hskipped ih =>
    rw [loadUsers, hnext]
    simp only [hnick, if_neg hquote, if_neg hskipped]
    exact ih

namespace UserStore

def save (st : UserStore) : Text :=
  "\x7b\n".toList ++
  "  ".toList ++ keyed "next_id" (digits st.nextId) ++ ",\n".toList ++
  "  ".toList ++ keyed "users" "[\n".toList ++ usersJson st.users ++
  "  ]\n".toList ++ "\x7d\n".toList

def load (json : Text) : UserStore where
  nextId :=
    if extractJsonUintValue json "next_id" < 10001 then 10001
    else extractJsonUintValue json "next_id"
  users := loadUsers json
  nextId_ge := by
    split_ifs with hsmall
    · exact Nat.le_refl _
    · exact Nat.le_of_not_lt hsmall
  id_pos u hu := (loadUsers_loaded json u hu).id_pos

/-! ### The calls that change the store -/

/-- The first user under the id is changed. -/
def updateFirst (id : PlayerId) (f : UserRecord → UserRecord) : List UserRecord → List UserRecord
  | [] => []
  | u :: us => if u.id = id then f u :: us else u :: updateFirst id f us

theorem forall_updateFirst {P : UserRecord → Prop} {id : PlayerId} {f : UserRecord → UserRecord}
    {us : List UserRecord} (hf : ∀ u, P u → P (f u)) (hus : ∀ u ∈ us, P u) :
    ∀ u ∈ updateFirst id f us, P u := by
  induction us with
  | nil => exact hus
  | cons u us ih =>
    obtain ⟨hu, hus⟩ := List.forall_mem_cons.1 hus
    rw [updateFirst]
    split_ifs
    · exact List.forall_mem_cons.2 ⟨hf u hu, hus⟩
    · exact List.forall_mem_cons.2 ⟨hu, ih hus⟩

/-- Whether there was one, and the new store. -/
def update (st : UserStore) (id : PlayerId) (f : UserRecord → UserRecord)
    (hf : ∀ u, (f u).id = u.id) : Bool × UserStore :=
  (st.users.any fun u => u.id == id,
    { st with
      users := updateFirst id f st.users
      id_pos := forall_updateFirst (fun u hu => (hf u).symm ▸ hu) st.id_pos })

def updateStats (st : UserStore) (id : PlayerId) (stats : UserStats) : Bool × UserStore :=
  st.update id (fun u => { u with stats := stats }) fun _ => rfl

def updateAvatar (st : UserStore) (id : PlayerId) (avatarPath : String) : Bool × UserStore :=
  st.update id (fun u => { u with avatar := avatarPath }) fun _ => rfl

def updateAvatarPreset (st : UserStore) (id : PlayerId) (presetId : String) : Bool × UserStore :=
  st.update id (fun u => { u with avatarPreset := presetId }) fun _ => rfl

end UserStore

/-- The statistics have 32 bits. -/
inductive StoreCall
  | registerUser (nickname password passwordHash salt : String)
  | updateStats (id : PlayerId) (totalGames wins losses : UInt32)
  | updateAvatar (id : PlayerId) (avatarPath : String)
  | updateAvatarPreset (id : PlayerId) (presetId : String)
  deriving DecidableEq, Repr

/-- The store under its calls: an error text, or whether a user was changed. -/
def userStore : Machine UserStore StoreCall (Except String Bool) where
  step st call := some <| match call with
    | .registerUser nickname password passwordHash salt =>
      match st.registerUser nickname password passwordHash salt with
      | .error regErr => (st, .error regErr)
      | .ok st => (st, .ok true)
    | .updateStats id totalGames wins losses =>
      let (found, st) := st.updateStats id ⟨totalGames.toNat, wins.toNat, losses.toNat⟩
      (st, .ok found)
    | .updateAvatar id avatarPath =>
      let (found, st) := st.updateAvatar id avatarPath
      (st, .ok found)
    | .updateAvatarPreset id presetId =>
      let (found, st) := st.updateAvatarPreset id presetId
      (st, .ok found)

end Guandan
