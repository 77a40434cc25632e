import Guandan.Game.Card

/-!
# Users, tokens and passwords

`user_store.cpp`, `token_manager.cpp` and `auth_service.cpp`. The file behind the store is left out:
a store is what `load` can make of any file, and `save` does not change it. Randomness and the clock
are arguments (the salt, the new token, the time in nanoseconds), and the password hash is a
parameter.
-/

namespace Guandan

structure UserStats where
  totalGames : Nat := 0
  wins : Nat := 0
  losses : Nat := 0
  deriving DecidableEq, Repr

@[ext]
structure UserRecord where
  id : PlayerId := 0
  nickname : String := ""
  password : String := ""
  passwordHash : String := ""
  salt : String := ""
  avatar : String := ""
  avatarPreset : String := ""
  stats : UserStats := {}
  deriving DecidableEq, Repr

/-! ### `UserStore` -/

/-- `load` starts the ids at 10001 at least and skips users with id 0. -/
@[ext]
structure UserStore where
  nextId : PlayerId
  users : List UserRecord
  nextId_ge : 10001 ≤ nextId
  id_pos : ∀ u ∈ users, 0 < u.id

/-- `std::isspace` in the C locale. -/
def isSpace (c : Char) : Bool :=
  c == ' ' || c == '\t' || c == '\n' || c == '\x0b' || c == '\x0c' || c == '\r'

def trim (s : String) : String :=
  String.ofList (((s.toList.dropWhile isSpace).reverse.dropWhile isSpace).reverse)

namespace UserStore

/-- The store of a server that finds no database. -/
def empty : UserStore where
  nextId := 10001
  users := []
  nextId_ge := le_rfl
  id_pos := by simp

def findByNickname (st : UserStore) (nickname : String) : Option UserRecord :=
  st.users.find? fun u => u.nickname == trim nickname

def findById (st : UserStore) (id : PlayerId) : Option UserRecord :=
  st.users.find? fun u => u.id == id

/-- The new user of `registerUser`, under the next id. -/
def push (st : UserStore) (nickname password passwordHash salt : String) : UserStore where
  nextId := st.nextId + 1
  users := st.users ++ [{
    id := st.nextId
    nickname := nickname
    password := password
    passwordHash := passwordHash
    salt := salt
    avatarPreset := "avatar_2" }]
  nextId_ge := Nat.le_succ_of_le st.nextId_ge
  id_pos := by
    intro u hu
    rcases List.mem_append.1 hu with hu | hu
    · exact st.id_pos u hu
    · rw [List.mem_singleton.1 hu]
      exact Nat.lt_of_lt_of_le (by decide) st.nextId_ge

/-- The length is counted in bytes. -/
def registerUser (st : UserStore) (nickname password passwordHash salt : String) :
    Except String UserStore :=
  let nick := trim nickname
  if nick.utf8ByteSize < 2 ∨ 16 < nick.utf8ByteSize then
    .error "昵称长度需在 2-16 个字符之间"
  else if st.users.any (fun u => u.nickname == nick) then
    .error "昵称已被使用，请更换昵称"
  else .ok (st.push nick password passwordHash salt)

/-- The ids of the users. -/
def Registered (st : UserStore) (id : PlayerId) : Prop := ∃ u ∈ st.users, u.id = id

instance (st : UserStore) : DecidablePred st.Registered := fun id =>
  inferInstanceAs (Decidable (∃ u ∈ st.users, u.id = id))

variable {st : UserStore} {id : PlayerId} {u : UserRecord} {nickname : String}

theorem Registered.pos (h : st.Registered id) : 0 < id := by
  obtain ⟨u, hu, rfl⟩ := h
  exact st.id_pos u hu

theorem findById_id (h : st.findById id = some u) : u.id = id := by
  simpa using List.find?_some h

theorem findById_registered (h : st.findById id = some u) : st.Registered id :=
  ⟨u, List.mem_of_find?_eq_some h, findById_id h⟩

/-- The nicknames a new user may take. -/
def Accepts (st : UserStore) (nickname : String) : Prop :=
  2 ≤ (trim nickname).utf8ByteSize ∧ (trim nickname).utf8ByteSize ≤ 16 ∧
    ∀ u ∈ st.users, u.nickname ≠ trim nickname

instance (st : UserStore) : DecidablePred st.Accepts := fun nickname =>
  inferInstanceAs (Decidable (2 ≤ (trim nickname).utf8ByteSize ∧
    (trim nickname).utf8ByteSize ≤ 16 ∧ ∀ u ∈ st.users, u.nickname ≠ trim nickname))

theorem registerUser_ok (h : st.Accepts nickname) (password passwordHash salt : String) :
    st.registerUser nickname password passwordHash salt =
      .ok (st.push (trim nickname) password passwordHash salt) := by
  obtain ⟨hshort, hlong, hnew⟩ := h
  simp only [registerUser]
  rw [if_neg (by omega), if_neg (by simpa using hnew)]

theorem registerUser_error (h : ¬ st.Accepts nickname) (password passwordHash salt : String) :
    ∃ regErr, st.registerUser nickname password passwordHash salt = .error regErr := by
  simp only [registerUser]
  split_ifs with hlength htaken
  · exact ⟨_, rfl⟩
  · exact ⟨_, rfl⟩
  · refine absurd ⟨by omega, by omega, ?_⟩ h
    simpa using htaken

theorem registered_push {password passwordHash salt : String} :
    (st.push nickname password passwordHash salt).Registered id ↔
      st.Registered id ∨ id = st.nextId := by
  constructor
  · rintro ⟨u, hu, rfl⟩
    rcases List.mem_append.1 hu with hu | hu
    · exact .inl ⟨u, hu, rfl⟩
    · rw [List.mem_singleton.1 hu]
      exact .inr rfl
  · rintro (⟨u, hu, hid⟩ | rfl)
    · exact ⟨u, List.mem_append_left _ hu, hid⟩
    · exact ⟨_, List.mem_append_right _ (List.mem_singleton.2 rfl), rfl⟩

end UserStore

/-! ### `TokenManager` -/

structure TokenEntry where
  userId : PlayerId
  expiresAt : Nat
  deriving DecidableEq, Repr

def kTokenTtlDays : Nat := 30

/-- The life of a token in nanoseconds. -/
def tokenTtl : Nat := 24 * kTokenTtlDays * 3600 * 1000000000

structure TokenManager where
  tokens : String → Option TokenEntry := fun _ => none

namespace TokenManager

def revokeToken (m : TokenManager) (token : String) : TokenManager :=
  { m with tokens := Function.update m.tokens token none }

def revokeAllForUser (m : TokenManager) (userId : PlayerId) : TokenManager :=
  { m with tokens := fun token => (m.tokens token).filter fun entry => entry.userId != userId }

/-- `token` is what `generateUuid` returns. -/
def issueToken (m : TokenManager) (userId : PlayerId) (token : String) (now : Nat) : TokenManager :=
  let m := m.revokeAllForUser userId
  { m with tokens := Function.update m.tokens token (some ⟨userId, now + tokenTtl⟩) }

/-- An expired token is dropped. -/
def validateToken (m : TokenManager) (token : String) (now : Nat) :
    Option PlayerId × TokenManager :=
  if token = "" then (none, m)
  else match m.tokens token with
    | none => (none, m)
    | some entry =>
      if entry.expiresAt < now then (none, m.revokeToken token) else (some entry.userId, m)

end TokenManager

/-! ### `AuthService` -/

structure AuthService where
  userStore : UserStore
  tokenManager : TokenManager := {}

structure AuthError where
  httpStatus : Nat
  errorCode : String
  message : String
  deriving DecidableEq, Repr

/-- The user and the token issued, under status 200. -/
abbrev AuthResult := Except AuthError (UserRecord × String)

namespace AuthService

/-- The error text, or nothing. -/
def validatePassword (password : String) : Option String :=
  if password.utf8ByteSize < 6 then some "密码长度至少 6 位"
  else if 64 < password.utf8ByteSize then some "密码长度不能超过 64 位"
  else none

section Passwords

variable (hashPassword : String → String → String)

def verifyPassword (password salt expectedHash : String) : Bool :=
  hashPassword password salt == expectedHash

def registerUser (a : AuthService) (nickname password salt token : String) (now : Nat) :
    AuthResult × AuthService :=
  match validatePassword password with
  | some pwdErr => (.error ⟨400, "invalid_password", pwdErr⟩, a)
  | none =>
    match a.userStore.registerUser nickname password (hashPassword password salt) salt with
    | .error regErr => (.error ⟨409, "nickname_taken", regErr⟩, a)
    | .ok userStore =>
      let a := { a with userStore := userStore }
      match a.userStore.findByNickname nickname with
      | none => (.error ⟨500, "internal_error", "注册失败，请稍后重试"⟩, a)
      | some user =>
        (.ok (user, token), { a with tokenManager := a.tokenManager.issueToken user.id token now })

def login (a : AuthService) (nickname password token : String) (now : Nat) :
    AuthResult × AuthService :=
  match a.userStore.findByNickname nickname with
  | none => (.error ⟨401, "invalid_credentials", "昵称或密码错误"⟩, a)
  | some user =>
    if !verifyPassword hashPassword password user.salt user.passwordHash then
      (.error ⟨401, "invalid_credentials", "昵称或密码错误"⟩, a)
    else
      (.ok (user, token), { a with tokenManager := a.tokenManager.issueToken user.id token now })

end Passwords

def validateToken (a : AuthService) (token : String) (now : Nat) :
    Option UserRecord × AuthService :=
  let (userId, tokenManager) := a.tokenManager.validateToken token now
  (userId.bind a.userStore.findById, { a with tokenManager := tokenManager })

variable {a : AuthService} {nickname password salt token : String} {now : Nat} {u : UserRecord}
  {hashPassword : String → String → String}

/-- The registrations that add a user. -/
def Registers (a : AuthService) (nickname password : String) : Prop :=
  validatePassword password = none ∧ a.userStore.Accepts nickname

instance (a : AuthService) (nickname password : String) : Decidable (a.Registers nickname password) :=
  inferInstanceAs (Decidable (_ ∧ _))

theorem registerUser_registered_iff {id : PlayerId} :
    (a.registerUser hashPassword nickname password salt token now).2.userStore.Registered id ↔
      a.userStore.Registered id ∨ a.Registers nickname password ∧ id = a.userStore.nextId := by
  unfold registerUser Registers
  rcases validatePassword password with _ | pwdErr
  · by_cases hnick : a.userStore.Accepts nickname
    · rw [UserStore.registerUser_ok hnick]
      simp only [hnick, true_and]
      rcases (a.userStore.push _ _ _ _).findByNickname nickname with _ | user
      · exact UserStore.registered_push
      · exact UserStore.registered_push
    · obtain ⟨regErr, hreg⟩ := UserStore.registerUser_error hnick password
        (hashPassword password salt) salt
      rw [hreg]
      simp [hnick]
  · simp

theorem login_userStore (a : AuthService) (nickname password token : String) (now : Nat) :
    (a.login hashPassword nickname password token now).2.userStore = a.userStore := by
  unfold login
  rcases a.userStore.findByNickname nickname with _ | user
  · rfl
  · dsimp only
    split_ifs <;> rfl

theorem validateToken_userStore (a : AuthService) (token : String) (now : Nat) :
    (a.validateToken token now).2.userStore = a.userStore := rfl

/-- A token is valid when the token manager accepts it for a user of the store. -/
theorem validateToken_eq_some (h : (a.validateToken token now).1 = some u) :
    (a.tokenManager.validateToken token now).1 = some u.id ∧ a.userStore.findById u.id = some u := by
  obtain ⟨id, hid, hu⟩ := Option.bind_eq_some_iff.1 h
  have heq : u.id = id := UserStore.findById_id hu
  subst heq
  exact ⟨hid, hu⟩

end AuthService

end Guandan
