import Guandan.Auth.Passwords
import Guandan.Auth.Tokens
import Guandan.Utils.Base64

/-!
# Accounts

The authentication service over its whole life: registrations, logins, the calls that show a token, and
restarts, which read the user file and forget all tokens. Who holds a valid token for a user has given the
password that the user was registered with, or one that SHA-1 merges with it.
-/

namespace Guandan

/-! ### Avatars -/

def normalizeFormat (format : String) : String :=
  let lower := String.ofList (format.toList.map Char.toLower)
  if lower = "jpg" ∨ lower = "jpeg" then "jpg"
  else if lower = "png" then "png"
  else if lower = "webp" then "webp"
  else ""

def normalizePrefix (publicPath : String) : String :=
  let stripped := publicPath.toList.rdropWhile (· == '/')
  String.ofList (if stripped.head? = some '/' then stripped else '/' :: stripped)

/-- The public path of the file, when it could be written. -/
def saveUserAvatar (publicPathPrefix : String) (userId : PlayerId) (data : List UInt8) (format : String)
    (written : Bool) : Option String :=
  let ext := normalizeFormat format
  if ext = "" ∨ data = [] then none
  else if !written then none
  else some (normalizePrefix publicPathPrefix ++ "/user_" ++ toString userId ++ "." ++ ext)

def kMaxAvatarBytes : Nat := 512 * 1024

def isAllowedAvatarPreset (presetId : String) : Bool :=
  presetId ∈ ["avatar_1", "avatar_2", "avatar_3", "avatar_4", "avatar_5"]

namespace AuthService

/-- What both updates of a user end with. -/
def updated (answer : Bool × UserStore) (id : PlayerId) (tokenManager : TokenManager)
    (saveFailed internalError : String) : Except AuthError UserRecord × AuthService :=
  let a : AuthService := ⟨answer.2, tokenManager⟩
  if !answer.1 then (.error ⟨500, "save_failed", saveFailed⟩, a)
  else match answer.2.findById id with
    | none => (.error ⟨500, "internal_error", internalError⟩, a)
    | some user => (.ok user, a)

def updateAvatar (a : AuthService) (token imageBase64 format publicPathPrefix : String) (written : Bool)
    (now : Nat) : Except AuthError UserRecord × AuthService :=
  let (user, a) := a.validateToken token now
  match user with
  | none => (.error ⟨401, "unauthorized", "请先登录"⟩, a)
  | some user =>
    let bytes := base64Decode imageBase64.toList
    if imageBase64 = "" then (.error ⟨400, "invalid_image", "头像数据无效"⟩, a)
    else if bytes = [] ∨ kMaxAvatarBytes < bytes.length then
      (.error ⟨400, "invalid_image", "头像大小需在 512KB 以内"⟩, a)
    else match saveUserAvatar publicPathPrefix user.id bytes format written with
      | none => (.error ⟨500, "save_failed", "头像保存失败，请稍后重试"⟩, a)
      | some avatarPath =>
        updated (a.userStore.updateAvatar user.id avatarPath) user.id a.tokenManager
          "头像保存失败，请稍后重试" "头像更新失败"

def updateAvatarPreset (a : AuthService) (token presetId : String) (now : Nat) :
    Except AuthError UserRecord × AuthService :=
  let (user, a) := a.validateToken token now
  match user with
  | none => (.error ⟨401, "unauthorized", "请先登录"⟩, a)
  | some user =>
    if presetId ≠ "" ∧ !isAllowedAvatarPreset presetId then
      (.error ⟨400, "invalid_preset", "头像预设无效"⟩, a)
    else updated (a.userStore.updateAvatarPreset user.id presetId) user.id a.tokenManager
      "头像预设保存失败" "头像预设更新失败"

end AuthService

/-! ### The service over its life -/

/-- A registration draws a salt and a token, a login a token. -/
inductive AccountOp
  | registerUser (nickname password : String) (salt : Vector UInt8 16) (draws : UuidDraws) (now : Nat)
  | login (nickname password : String) (draws : UuidDraws) (now : Nat)
  | validateToken (token : String) (now : Nat)
  | updateAvatar (token imageBase64 format publicPathPrefix : String) (written : Bool) (now : Nat)
  | updateAvatarPreset (token presetId : String) (now : Nat)
  | restart

inductive AccountOut
  | issued (result : AuthResult)
  | validated (user : Option UserRecord)
  | updated (result : Except AuthError UserRecord)
  | restarted

def accounts : Machine AuthService AccountOp AccountOut where
  step a op := some <| match op with
    | .registerUser nickname password salt draws now =>
      let (result, a) := a.registerUser hashPassword nickname password (generateSalt salt)
        draws.generateUuid now
      (a, .issued result)
    | .login nickname password draws now =>
      let (result, a) := a.login hashPassword nickname password draws.generateUuid now
      (a, .issued result)
    | .validateToken token now =>
      let (user, a) := a.validateToken token now
      (a, .validated user)
    | .updateAvatar token imageBase64 format publicPathPrefix written now =>
      let (result, a) := a.updateAvatar token imageBase64 format publicPathPrefix written now
      (a, .updated result)
    | .updateAvatarPreset token presetId now =>
      let (result, a) := a.updateAvatarPreset token presetId now
      (a, .updated result)
    | .restart => ({ userStore := UserStore.load a.userStore.save }, .restarted)

def AccountOp.password? : AccountOp → Option String
  | .registerUser _ password _ _ _ | .login _ password _ _ => some password
  | _ => none

/-- A password comes in the body of a request, whose length is an `int`; and the ids have 64 bits. -/
def AccountCall (a : AuthService) (op : AccountOp) : Prop :=
  (∀ password ∈ op.password?, password.utf8ByteSize < 2 ^ 31) ∧ a.userStore.nextId < 2 ^ 64

instance (a : AuthService) (op : AccountOp) : Decidable (AccountCall a op) :=
  inferInstanceAs (Decidable (_ ∧ _))

/-- The calls that were made, with their answers. -/
abbrev AccountLog := List (AccountOp × AccountOut)

def accountsLogged : Machine (AuthService × AccountLog) AccountOp AccountOut :=
  accounts.withHistory fun log _ op out _ => log ++ [(op, out)]

/-- The user was registered with this password, under this salt. -/
def RegisteredWith (log : AccountLog) (id : PlayerId) (password salt : String) : Prop :=
  ∃ nickname draws token now u uuid, salt = generateSalt draws ∧ u.id = id ∧
    (.registerUser nickname password draws uuid now, .issued (.ok (u, token))) ∈ log

/-- The token was issued for this password to this user. -/
def PresentedFor (log : AccountLog) (token : String) (id : PlayerId) (password : String) : Prop :=
  ∃ op u, op.password? = some password ∧ u.id = id ∧ (op, .issued (.ok (u, token))) ∈ log

/-! ### The steps -/

section Steps

variable {a a' : AuthService} {op : AccountOp} {out : AccountOut} {log : AccountLog}
  {nickname password salt token : String} {now : Nat} {id : PlayerId}

/-- What a user is recognised by. -/
def UserRecord.credentials (u : UserRecord) : PlayerId × String × String := (u.id, u.salt, u.passwordHash)

def UserStore.credentials (st : UserStore) : List (PlayerId × String × String) :=
  st.users.map UserRecord.credentials

/-- The users with the names that they log in under. -/
def UserStore.names (st : UserStore) : List (PlayerId × String) := st.users.map fun u => (u.id, u.nickname)

/-- A call leaves who there is, under which name and with which password. -/
structure SameUsers (st st' : UserStore) : Prop where
  nextId : st'.nextId = st.nextId
  credentials : st'.credentials = st.credentials
  names : st'.names = st.names
  sound : st.Sound → st'.Sound

theorem SameUsers.refl (st : UserStore) : SameUsers st st := ⟨rfl, rfl, rfl, id⟩

theorem map_updateFirst {β : Type} {g : UserRecord → β} {f : UserRecord → UserRecord}
    (hf : ∀ u, g (f u) = g u) (id : PlayerId) (us : List UserRecord) :
    (UserStore.updateFirst id f us).map g = us.map g := by
  induction us with
  | nil => rfl
  | cons u us ih =>
    rw [UserStore.updateFirst]
    split_ifs
    · rw [List.map_cons, List.map_cons, hf]
    · rw [List.map_cons, List.map_cons, ih]

theorem sameUsers_updateAvatar (st : UserStore) (id : PlayerId) (avatarPath : String) :
    SameUsers st (st.updateAvatar id avatarPath).2 where
  nextId := rfl
  credentials := map_updateFirst (f := fun u => { u with avatar := avatarPath }) (fun _ => rfl) id st.users
  names := map_updateFirst (f := fun u => { u with avatar := avatarPath }) (fun _ => rfl) id st.users
  sound := fun hsound => UserStore.updateAvatar_sound hsound id avatarPath

theorem sameUsers_updateAvatarPreset (st : UserStore) (id : PlayerId) (presetId : String) :
    SameUsers st (st.updateAvatarPreset id presetId).2 where
  nextId := rfl
  credentials :=
    map_updateFirst (f := fun u => { u with avatarPreset := presetId }) (fun _ => rfl) id st.users
  names := map_updateFirst (f := fun u => { u with avatarPreset := presetId }) (fun _ => rfl) id st.users
  sound := fun hsound => UserStore.updateAvatarPreset_sound hsound id presetId

theorem credentials_push (st : UserStore) (passwordHash : String) :
    (st.push nickname password passwordHash salt).credentials =
      st.credentials ++ [(st.nextId, salt, passwordHash)] := by
  rw [UserStore.credentials, UserStore.push, List.map_append]
  rfl

theorem names_push (st : UserStore) (passwordHash : String) :
    (st.push nickname password passwordHash salt).names = st.names ++ [(st.nextId, nickname)] := by
  rw [UserStore.names, UserStore.push, List.map_append]
  rfl

/-- The nickname of a new user was free. -/
theorem findByNickname_push {st : UserStore} (h : st.Accepts nickname)
    (password passwordHash salt : String) :
    ∃ u, (st.push (trim nickname) password passwordHash salt).findByNickname nickname = some u ∧
      u.id = st.nextId := by
  have hnone : st.users.find? (fun u => u.nickname == trim nickname) = none :=
    List.find?_eq_none.2 fun u hu => by simpa using h.2.2 u hu
  let u : UserRecord := {
    id := st.nextId
    nickname := trim nickname
    password := password
    passwordHash := passwordHash
    salt := salt
    avatarPreset := "avatar_2" }
  refine ⟨u, ?_, rfl⟩
  rw [UserStore.findByNickname, UserStore.push, List.find?_append, hnone, Option.none_or,
    List.find?_singleton, if_pos (beq_self_eq_true _)]

/-- What a step leaves of the tokens. -/
def KeepsTokens (a a' : AuthService) : Prop :=
  ∀ token entry, a'.tokenManager.tokens token = some entry → a.tokenManager.tokens token = some entry

/-- What a call can do. -/
inductive AccountStep (a : AuthService) : AccountOp → AuthService → AccountOut → Prop
  | registered {nickname password : String} {salt : Vector UInt8 16} {draws : UuidDraws} {now : Nat}
      {u : UserRecord} {userStore : UserStore} : password.utf8ByteSize ≤ 64 →
      a.userStore.Accepts nickname → u.id = a.userStore.nextId →
      userStore.nextId = a.userStore.nextId + 1 →
      userStore.credentials = a.userStore.credentials ++
        [(a.userStore.nextId, generateSalt salt, hashPassword password (generateSalt salt))] →
      userStore.names = a.userStore.names ++ [(a.userStore.nextId, trim nickname)] →
      (a.userStore.Sound → userStore.Sound) →
      AccountStep a (.registerUser nickname password salt draws now)
        ⟨userStore, a.tokenManager.issueToken u.id draws.generateUuid now⟩
        (.issued (.ok (u, draws.generateUuid)))
  | loggedIn {nickname password : String} {draws : UuidDraws} {now : Nat} {u : UserRecord} :
      u ∈ a.userStore.users → hashPassword password u.salt = u.passwordHash →
      AccountStep a (.login nickname password draws now)
        { a with tokenManager := a.tokenManager.issueToken u.id draws.generateUuid now }
        (.issued (.ok (u, draws.generateUuid)))
  | restarted : AccountStep a .restart { userStore := UserStore.load a.userStore.save } .restarted
  | other {op : AccountOp} {a' : AuthService} {out : AccountOut} : op ≠ .restart →
      (∀ r, out ≠ .issued (.ok r)) →
      SameUsers a.userStore a'.userStore → KeepsTokens a a' → AccountStep a op a' out

theorem keepsTokens_validateToken (a : AuthService) (token : String) (now : Nat) :
    KeepsTokens a (a.validateToken token now).2 := by
  intro other entry h
  unfold AuthService.validateToken TokenManager.validateToken at h
  split_ifs at h with hempty
  · exact h
  · rcases hentry : a.tokenManager.tokens token with _ | found
    · simp only [hentry] at h
      exact h
    · simp only [hentry] at h
      split_ifs at h with hexpired
      · simp only [TokenManager.revokeToken, Function.update_apply] at h
        split_ifs at h
        exact h
      · exact h

/-- A token is valid by an entry of the table. -/
theorem AuthService.entry_of_validateToken {u : UserRecord} (h : (a.validateToken token now).1 = some u) :
    ∃ entry, a.tokenManager.tokens token = some entry ∧ entry.userId = u.id := by
  obtain ⟨hvalidated, -⟩ := AuthService.validateToken_eq_some h
  unfold TokenManager.validateToken at hvalidated
  split_ifs at hvalidated
  rcases hlook : a.tokenManager.tokens token with _ | entry
  · simp [hlook] at hvalidated
  · simp only [hlook] at hvalidated
    split_ifs at hvalidated
    exact ⟨entry, rfl, Option.some_inj.1 hvalidated⟩

/-- A registration either adds the new user or changes nothing. -/
theorem registerUser_result (a : AuthService) (nickname password salt token : String) (now : Nat) :
    (AuthService.validatePassword password = none ∧ a.userStore.Accepts nickname ∧
      let st := a.userStore.push (trim nickname) password (hashPassword password salt) salt
      ∃ u ∈ st.users, u.id = a.userStore.nextId ∧
        a.registerUser hashPassword nickname password salt token now =
          (.ok (u, token), ⟨st, a.tokenManager.issueToken u.id token now⟩)) ∨
    ∃ err, a.registerUser hashPassword nickname password salt token now = (.error err, a) := by
  by_cases hok : AuthService.validatePassword password = none ∧ a.userStore.Accepts nickname
  · left
    obtain ⟨hpassword, hnick⟩ := hok
    obtain ⟨u, hfind, hid⟩ := findByNickname_push hnick password (hashPassword password salt) salt
    refine ⟨hpassword, hnick, u, List.mem_of_find?_eq_some hfind, hid, ?_⟩
    simp only [AuthService.registerUser, hpassword, UserStore.registerUser_ok hnick, hfind]
  · right
    simp only [AuthService.registerUser]
    rcases hpassword : AuthService.validatePassword password with _ | pwdErr
    · have hnick : ¬ a.userStore.Accepts nickname := fun h => hok ⟨hpassword, h⟩
      obtain ⟨regErr, hreg⟩ := UserStore.registerUser_error hnick password (hashPassword password salt) salt
      simp only [hreg]
      exact ⟨_, rfl⟩
    · exact ⟨_, rfl⟩

/-- A login either issues a token to the user that it found or changes nothing. -/
theorem login_result (a : AuthService) (nickname password token : String) (now : Nat) :
    (∃ u ∈ a.userStore.users, hashPassword password u.salt = u.passwordHash ∧
      a.login hashPassword nickname password token now =
        (.ok (u, token), { a with tokenManager := a.tokenManager.issueToken u.id token now })) ∨
    ∃ err, a.login hashPassword nickname password token now = (.error err, a) := by
  rcases hfind : a.userStore.findByNickname nickname with _ | u
  · right
    simp only [AuthService.login, hfind]
    exact ⟨_, rfl⟩
  · by_cases hverify : hashPassword password u.salt = u.passwordHash
    · left
      refine ⟨u, List.mem_of_find?_eq_some hfind, hverify, ?_⟩
      simp [AuthService.login, hfind, AuthService.verifyPassword, hverify]
    · right
      simp [AuthService.login, hfind, AuthService.verifyPassword, hverify]

theorem registerUser_cases (a : AuthService) (nickname password : String) (salt : Vector UInt8 16)
    (draws : UuidDraws) (now : Nat) :
    let r := a.registerUser hashPassword nickname password (generateSalt salt) draws.generateUuid now
    AccountStep a (.registerUser nickname password salt draws now) r.2 (.issued r.1) := by
  intro r
  rcases registerUser_result a nickname password (generateSalt salt) draws.generateUuid now with
    ⟨hpassword, hnick, u, -, hid, hr⟩ | ⟨err, hr⟩
  · have hlength : password.utf8ByteSize ≤ 64 := by
      unfold AuthService.validatePassword at hpassword
      split_ifs at hpassword with hshort hlong
      exact Nat.le_of_not_lt hlong
    simp only [r, hr]
    exact .registered hlength hnick hid rfl (credentials_push _ _) (names_push _ _) fun hsound =>
      UserStore.push_sound hsound hnick.1 _ _ _
  · simp only [r, hr]
    exact .other (by simp) (by simp) (.refl _) fun _ _ h => h

theorem login_cases (a : AuthService) (nickname password : String) (draws : UuidDraws) (now : Nat) :
    let r := a.login hashPassword nickname password draws.generateUuid now
    AccountStep a (.login nickname password draws now) r.2 (.issued r.1) := by
  intro r
  rcases login_result a nickname password draws.generateUuid now with ⟨u, hu, hverify, hr⟩ | ⟨err, hr⟩
  · simp only [r, hr]
    exact .loggedIn hu hverify
  · simp only [r, hr]
    exact .other (by simp) (by simp) (.refl _) fun _ _ h => h

theorem updated_snd (answer : Bool × UserStore) (id : PlayerId) (tokenManager : TokenManager)
    (saveFailed internalError : String) :
    (AuthService.updated answer id tokenManager saveFailed internalError).2 = ⟨answer.2, tokenManager⟩ := by
  simp only [AuthService.updated]
  rcases answer.2.findById id with _ | u
  · split_ifs <;> rfl
  · split_ifs <;> rfl

/-- An update leaves who there is and the tokens as they were. -/
theorem updated_cases {answer : Bool × UserStore} {saveFailed internalError : String}
    (hop : op ≠ .restart) (hsame : SameUsers a.userStore answer.2) (hkeeps : KeepsTokens a a') :
    let r := AuthService.updated answer id a'.tokenManager saveFailed internalError
    AccountStep a op r.2 (.updated r.1) := by
  intro r
  have hr : r.2 = ⟨answer.2, a'.tokenManager⟩ := updated_snd _ _ _ _ _
  rw [hr]
  exact .other hop (by simp) hsame hkeeps

theorem updateAvatar_cases (a : AuthService) (token imageBase64 format publicPathPrefix : String)
    (written : Bool) (now : Nat) :
    let r := a.updateAvatar token imageBase64 format publicPathPrefix written now
    AccountStep a (.updateAvatar token imageBase64 format publicPathPrefix written now) r.2
      (.updated r.1) := by
  have hkeeps := keepsTokens_validateToken a token now
  have hrefused (err : AuthError) : AccountStep a
      (.updateAvatar token imageBase64 format publicPathPrefix written now)
      (a.validateToken token now).2 (.updated (.error err)) :=
    .other (by simp) (by simp) (.refl _) hkeeps
  simp only [AuthService.updateAvatar]
  rcases (a.validateToken token now).1 with _ | u
  · exact hrefused _
  · dsimp only
    split_ifs
    · exact hrefused _
    · exact hrefused _
    · rcases saveUserAvatar publicPathPrefix u.id (base64Decode imageBase64.toList) format written with
        _ | avatarPath
      · exact hrefused _
      · exact updated_cases (by simp) (sameUsers_updateAvatar _ _ _) hkeeps

theorem updateAvatarPreset_cases (a : AuthService) (token presetId : String) (now : Nat) :
    let r := a.updateAvatarPreset token presetId now
    AccountStep a (.updateAvatarPreset token presetId now) r.2 (.updated r.1) := by
  have hkeeps := keepsTokens_validateToken a token now
  have hrefused (err : AuthError) : AccountStep a (.updateAvatarPreset token presetId now)
      (a.validateToken token now).2 (.updated (.error err)) :=
    .other (by simp) (by simp) (.refl _) hkeeps
  simp only [AuthService.updateAvatarPreset]
  rcases (a.validateToken token now).1 with _ | u
  · exact hrefused _
  · dsimp only
    split_ifs
    · exact hrefused _
    · exact updated_cases (by simp) (sameUsers_updateAvatarPreset _ _ _) hkeeps

/-- What a call does is one of these. -/
theorem accounts_cases (h : accounts.step a op = some (a', out)) : AccountStep a op a' out := by
  cases op with
  | registerUser nickname password salt draws now =>
    simp only [accounts, Option.some_inj, Prod.mk.injEq] at h
    obtain ⟨rfl, rfl⟩ := h
    exact registerUser_cases a nickname password salt draws now
  | login nickname password draws now =>
    simp only [accounts, Option.some_inj, Prod.mk.injEq] at h
    obtain ⟨rfl, rfl⟩ := h
    exact login_cases a nickname password draws now
  | validateToken token now =>
    simp only [accounts, Option.some_inj, Prod.mk.injEq] at h
    obtain ⟨rfl, rfl⟩ := h
    exact .other (by simp) (by simp) (.refl _) (keepsTokens_validateToken a token now)
  | updateAvatar token imageBase64 format publicPathPrefix written now =>
    simp only [accounts, Option.some_inj, Prod.mk.injEq] at h
    obtain ⟨rfl, rfl⟩ := h
    exact updateAvatar_cases a token imageBase64 format publicPathPrefix written now
  | updateAvatarPreset token presetId now =>
    simp only [accounts, Option.some_inj, Prod.mk.injEq] at h
    obtain ⟨rfl, rfl⟩ := h
    exact updateAvatarPreset_cases a token presetId now
  | restart =>
    simp only [accounts, Option.some_inj, Prod.mk.injEq] at h
    obtain ⟨rfl, rfl⟩ := h
    exact .restarted

end Steps

/-! ### What the log says of the service -/

section Log

variable {a a' : AuthService} {op : AccountOp} {out : AccountOut} {log : AccountLog}
  {password salt token : String} {now : Nat} {id : PlayerId} {entry : TokenEntry} {r : UserRecord × String}

theorem RegisteredWith.mono (h : RegisteredWith log id password salt) (more : AccountLog) :
    RegisteredWith (log ++ more) id password salt := by
  obtain ⟨nickname, draws, token, now, u, uuid, hsalt, hid, hmem⟩ := h
  exact ⟨nickname, draws, token, now, u, uuid, hsalt, hid, List.mem_append_left _ hmem⟩

theorem PresentedFor.mono (h : PresentedFor log token id password) (more : AccountLog) :
    PresentedFor (log ++ more) token id password := by
  obtain ⟨op, u, hpassword, hid, hmem⟩ := h
  exact ⟨op, u, hpassword, hid, List.mem_append_left _ hmem⟩

/-- A call that registers nobody leaves the registrations as they were. -/
theorem registeredWith_concat (h : ∀ nickname password draws uuid now, op =
    .registerUser nickname password draws uuid now → ∀ r, out ≠ .issued (.ok r)) :
    RegisteredWith (log ++ [(op, out)]) id password salt ↔ RegisteredWith log id password salt := by
  refine ⟨?_, fun h => h.mono _⟩
  rintro ⟨nickname, draws, token, now, u, uuid, hsalt, hid, hmem⟩
  rcases List.mem_append.1 hmem with hmem | hmem
  · exact ⟨nickname, draws, token, now, u, uuid, hsalt, hid, hmem⟩
  · obtain ⟨hop, hout⟩ := Prod.mk.inj (List.mem_singleton.1 hmem)
    exact absurd hout.symm (h _ _ _ _ _ hop.symm _)

theorem presentedFor_concat (h : ∀ r, out ≠ .issued (.ok r)) :
    PresentedFor (log ++ [(op, out)]) token id password ↔ PresentedFor log token id password := by
  refine ⟨?_, fun h => h.mono _⟩
  rintro ⟨op', u, hpassword, hid, hmem⟩
  rcases List.mem_append.1 hmem with hmem | hmem
  · exact ⟨op', u, hpassword, hid, hmem⟩
  · obtain ⟨-, hout⟩ := Prod.mk.inj (List.mem_singleton.1 hmem)
    exact absurd hout.symm (h _)

/-- The token was issued for a password that has the hash of the registered one. -/
def Proved (log : AccountLog) (token : String) (id : PlayerId) : Prop :=
  ∃ p q salt, RegisteredWith log id p salt ∧ PresentedFor log token id q ∧
    hashPassword q salt = hashPassword p salt

theorem Proved.mono (h : Proved log token id) (more : AccountLog) : Proved (log ++ more) token id := by
  obtain ⟨p, q, salt, hregistered, hpresented, hhash⟩ := h
  exact ⟨p, q, salt, hregistered.mono more, hpresented.mono more, hhash⟩

/-- What the log says of the service. -/
structure Vouched (a : AuthService) (log : AccountLog) : Prop where
  sound : a.userStore.Sound
  below : ∀ c ∈ a.userStore.credentials, c.1 < a.userStore.nextId
  distinct : (a.userStore.credentials.map Prod.fst).Nodup
  known : ∀ c ∈ a.userStore.credentials,
    ∃ p, RegisteredWith log c.1 p c.2.1 ∧ c.2.2 = hashPassword p c.2.1
  old : ∀ id p salt, RegisteredWith log id p salt → id < a.userStore.nextId
  once : ∀ id p salt p' salt', RegisteredWith log id p salt → RegisteredWith log id p' salt' →
    p' = p ∧ salt' = salt
  short : ∀ id p salt, RegisteredWith log id p salt → p.utf8ByteSize ≤ 64
  tokens : ∀ token entry, a.tokenManager.tokens token = some entry → Proved log token entry.userId
  presented : ∀ token id q, PresentedFor log token id q → q.utf8ByteSize < 2 ^ 31

theorem vouched_empty : Vouched { userStore := .empty } [] where
  sound := fun _ => List.forall_mem_nil _
  below := List.forall_mem_nil _
  distinct := List.nodup_nil
  known := List.forall_mem_nil _
  old := by
    rintro id p salt ⟨_, _, _, _, _, _, -, -, hmem⟩
    cases hmem
  once := by
    rintro id p salt p' salt' ⟨_, _, _, _, _, _, -, -, hmem⟩
    cases hmem
  short := by
    rintro id p salt ⟨_, _, _, _, _, _, -, -, hmem⟩
    cases hmem
  tokens := by
    rintro token entry h
    cases h
  presented := by
    rintro token id q ⟨_, _, -, -, hmem⟩
    cases hmem

/-- The tokens after an issue are the new one and some of those before. -/
theorem issueToken_cases {m : TokenManager} {other : String}
    (h : (m.issueToken id token now).tokens other = some entry) :
    other = token ∧ entry.userId = id ∨ m.tokens other = some entry := by
  simp only [TokenManager.issueToken, TokenManager.revokeAllForUser, Function.update_apply] at h
  split_ifs at h with hother
  · cases h
    exact .inl ⟨hother, rfl⟩
  · exact .inr (Option.filter_eq_some_iff.1 h).1

/-- The file gives the credentials back: their texts are hex digits. -/
theorem credentials_reread {us : List UserRecord}
    (h : ∀ u ∈ us, PlainText u.salt ∧ PlainText u.passwordHash) :
    (rereadAll us).map UserRecord.credentials = us.map UserRecord.credentials := by
  induction us with
  | nil => rfl
  | cons u us ih =>
    obtain ⟨⟨hsalt, hhash⟩, hus⟩ := List.forall_mem_cons.1 h
    rw [rereadAll, List.map_cons, List.map_cons, ih hus]
    have hu : (reread u us).credentials = u.credentials := by
      simp only [UserRecord.credentials, reread, escaped_eq_iff.2 hsalt, escaped_eq_iff.2 hhash]
    rw [hu]

theorem Vouched.restart (h : Vouched a log) (hwidth : a.userStore.nextId < 2 ^ 64) :
    (UserStore.load a.userStore.save).nextId = a.userStore.nextId ∧
      (UserStore.load a.userStore.save).credentials = a.userStore.credentials := by
  constructor
  · rw [UserStore.load_save_nextId, if_pos hwidth]
  · have hplain : ∀ u ∈ a.userStore.users, PlainText u.salt ∧ PlainText u.passwordHash := by
      intro u hu
      obtain ⟨p, ⟨_, draws, _, _, _, _, hsalt, -, -⟩, hhash⟩ :=
        h.known _ (List.mem_map_of_mem (f := UserRecord.credentials) hu)
      constructor
      · change u.salt = _ at hsalt
        rw [hsalt]
        exact plainText_bytesToHex _
      · change u.passwordHash = _ at hhash
        rw [hhash]
        exact plainText_bytesToHex _
    rw [UserStore.credentials, UserStore.load_save_users (h.sound hwidth), credentials_reread hplain]
    rfl

/-- A call that issues nothing. -/
theorem Vouched.unissued (h : Vouched a log) (hout : ∀ r, out ≠ .issued (.ok r))
    (hnext : a'.userStore.nextId = a.userStore.nextId)
    (hcredentials : a'.userStore.credentials = a.userStore.credentials) (hsound : a'.userStore.Sound)
    (hkeeps : KeepsTokens a a') : Vouched a' (log ++ [(op, out)]) := by
  have hregistered (id : PlayerId) (p salt : String) :
      RegisteredWith (log ++ [(op, out)]) id p salt ↔ RegisteredWith log id p salt :=
    registeredWith_concat fun _ _ _ _ _ _ => hout
  constructor
  · exact hsound
  · rw [hnext, hcredentials]
    exact h.below
  · rw [hcredentials]
    exact h.distinct
  · simp only [hcredentials, hregistered]
    exact h.known
  · simp only [hregistered, hnext]
    exact h.old
  · simp only [hregistered]
    exact h.once
  · simp only [hregistered]
    exact h.short
  · intro token entry hentry
    exact (h.tokens token entry (hkeeps token entry hentry)).mono _
  · intro token id q hq
    exact h.presented token id q ((presentedFor_concat hout).1 hq)

theorem Vouched.step (h : Vouched a log) (hcall : AccountCall a op)
    (hstep : AccountStep a op a' out) : Vouched a' (log ++ [(op, out)]) := by
  cases hstep with
  | @registered nickname password salt draws now u userStore hlength _ hid hnext hcredentials _ hsound =>
    -- the registrations are those of before, and the new one under the next id
    have hcases (id : PlayerId) (p s : String)
        (hr : RegisteredWith (log ++ [(.registerUser nickname password salt draws now,
          .issued (.ok (u, draws.generateUuid)))]) id p s) :
        RegisteredWith log id p s ∨ id = a.userStore.nextId ∧ p = password ∧ s = generateSalt salt := by
      obtain ⟨nickname', draws', token', now', u', uuid', hsalt', hid', hmem⟩ := hr
      rcases List.mem_append.1 hmem with hmem | hmem
      · exact .inl ⟨nickname', draws', token', now', u', uuid', hsalt', hid', hmem⟩
      · cases List.mem_singleton.1 hmem
        exact .inr ⟨hid'.symm.trans hid, rfl, hsalt'⟩
    have hnew : RegisteredWith (log ++ [(.registerUser nickname password salt draws now,
        .issued (.ok (u, draws.generateUuid)))]) a.userStore.nextId password (generateSalt salt) :=
      ⟨nickname, salt, _, now, u, draws, rfl, hid, List.mem_append_right _ (List.mem_singleton_self _)⟩
    constructor
    · exact hsound h.sound
    · rw [hcredentials, hnext]
      exact List.forall_mem_append.2 ⟨fun c hc => Nat.lt_succ_of_lt (h.below c hc),
        List.forall_mem_singleton.2 (Nat.lt_succ_self _)⟩
    · rw [hcredentials, List.map_append, List.map_singleton]
      refine List.nodup_append.2 ⟨h.distinct, List.nodup_singleton _, ?_⟩
      intro id hmem other hother
      obtain ⟨c, hc, rfl⟩ := List.mem_map.1 hmem
      rw [List.mem_singleton.1 hother]
      exact Nat.ne_of_lt (h.below c hc)
    · rw [hcredentials]
      refine List.forall_mem_append.2 ⟨fun c hc => ?_, List.forall_mem_singleton.2 ⟨_, hnew, rfl⟩⟩
      obtain ⟨p, hp, hhash⟩ := h.known c hc
      exact ⟨p, hp.mono _, hhash⟩
    · intro id p s hr
      rw [hnext]
      rcases hcases id p s hr with hr | ⟨rfl, -, -⟩
      · exact Nat.lt_succ_of_lt (h.old id p s hr)
      · exact Nat.lt_succ_self _
    · intro id p s p' s' hr hr'
      rcases hcases id p s hr with hr | ⟨rfl, rfl, rfl⟩
      · rcases hcases id p' s' hr' with hr' | ⟨rfl, -, -⟩
        · exact h.once id p s p' s' hr hr'
        · exact absurd (h.old _ p s hr) (Nat.lt_irrefl _)
      · rcases hcases _ p' s' hr' with hr' | ⟨-, hp, hs⟩
        · exact absurd (h.old _ p' s' hr') (Nat.lt_irrefl _)
        · exact ⟨hp, hs⟩
    · intro id p s hr
      rcases hcases id p s hr with hr | ⟨-, rfl, -⟩
      · exact h.short id p s hr
      · exact hlength
    · intro token entry hentry
      rcases issueToken_cases hentry with ⟨rfl, huser⟩ | hold
      · rw [huser, hid]
        exact ⟨password, password, generateSalt salt, hnew, ⟨_, u, rfl, hid,
          List.mem_append_right _ (List.mem_singleton_self _)⟩, rfl⟩
      · exact (h.tokens token entry hold).mono _
    · rintro token id q ⟨op', u', hpassword, hid', hmem⟩
      rcases List.mem_append.1 hmem with hmem | hmem
      · exact h.presented token id q ⟨op', u', hpassword, hid', hmem⟩
      · cases List.mem_singleton.1 hmem
        exact hcall.1 q hpassword
  | @loggedIn nickname password draws now u hu hverify =>
    have hregistered (id : PlayerId) (p salt : String) :
        RegisteredWith (log ++ [(.login nickname password draws now,
          .issued (.ok (u, draws.generateUuid)))]) id p salt ↔ RegisteredWith log id p salt :=
      registeredWith_concat fun _ _ _ _ _ hop => by cases hop
    constructor
    · exact h.sound
    · exact h.below
    · exact h.distinct
    · simp only [hregistered]
      exact h.known
    · simp only [hregistered]
      exact h.old
    · simp only [hregistered]
      exact h.once
    · simp only [hregistered]
      exact h.short
    · intro token entry hentry
      rcases issueToken_cases hentry with ⟨rfl, huser⟩ | hold
      · obtain ⟨p, hp, hhash⟩ := h.known _ (List.mem_map_of_mem (f := UserRecord.credentials) hu)
        rw [huser]
        exact ⟨p, password, u.salt, hp.mono _, ⟨_, u, rfl, rfl,
          List.mem_append_right _ (List.mem_singleton_self _)⟩, hverify.trans hhash⟩
      · exact (h.tokens token entry hold).mono _
    · rintro token id q ⟨op', u', hpassword, hid', hmem⟩
      rcases List.mem_append.1 hmem with hmem | hmem
      · exact h.presented token id q ⟨op', u', hpassword, hid', hmem⟩
      · cases List.mem_singleton.1 hmem
        exact hcall.1 q hpassword
  | restarted =>
    obtain ⟨hnext, hcredentials⟩ := h.restart hcall.2
    exact h.unissued (fun _ hout => by cases hout) hnext hcredentials (UserStore.load_sound _)
      fun _ _ hentry => by cases hentry
  | other _ hout hsame hkeeps =>
    exact h.unissued hout hsame.nextId hsame.credentials (hsame.sound h.sound) hkeeps

/-- The service from its first start on, and the log of its calls. -/
def AccountsReach (a : AuthService) (log : AccountLog) : Prop :=
  accountsLogged.Reachable (fun s => AccountCall s.1) ({ userStore := .empty }, []) (a, log)

theorem AccountsReach.vouched (h : AccountsReach a log) : Vouched a log := by
  have hinv : ∀ s i s' o, Vouched s.1 s.2 → AccountCall s.1 i →
      accountsLogged.step s i = some (s', o) → Vouched s'.1 s'.2 := by
    intro s i s' o hs hcall hstep
    obtain ⟨hstep, hlog⟩ := Machine.withHistory_step.1 hstep
    rw [hlog]
    exact hs.step hcall (accounts_cases hstep)
  exact Machine.Reachable.invariant (P := fun s => Vouched s.1 s.2) h vouched_empty hinv

end Log

/-! ### Who is let in -/

section LetIn

variable {a : AuthService} {log : AccountLog} {nickname token password : String} {now : Nat}
  {u : UserRecord} {salt : Vector UInt8 16}

theorem hashedWhole_salted (h : password.utf8ByteSize < 2 ^ 31) :
    HashedWhole (utf8 (generateSalt salt ++ password)) := by
  have hsalt := length_utf8_salt salt
  rw [← length_utf8] at h
  rw [HashedWhole, utf8_append, List.length_append]
  omega

/-- The registration of a user whose credentials are in the store. -/
theorem Vouched.registration (h : Vouched a log) (hu : u ∈ a.userStore.users) :
    ∃ p draws, u.salt = generateSalt draws ∧ RegisteredWith log u.id p u.salt ∧
      u.passwordHash = hashPassword p u.salt ∧ p.utf8ByteSize ≤ 64 := by
  obtain ⟨p, hp, hhash⟩ := h.known _ (List.mem_map_of_mem (f := UserRecord.credentials) hu)
  obtain ⟨_, draws, _, _, _, _, hsalt, -, -⟩ := id hp
  exact ⟨p, draws, hsalt, hp, hhash, h.short _ _ _ hp⟩

/-- A login is accepted for the password that the user was registered with, and for one that SHA-1 merges
with it under the user's salt; and for no other. -/
theorem login_accepted_iff (hreach : AccountsReach a log)
    (hfind : a.userStore.findByNickname nickname = some u) :
    ∃ p, RegisteredWith log u.id p u.salt ∧ ∀ q token now, q.utf8ByteSize < 2 ^ 31 →
      ((∃ r, (a.login hashPassword nickname q token now).1 = .ok r) ↔
        q = p ∨ SaltedMerge u.salt q p) := by
  obtain ⟨p, draws, hsalt, hp, hhash, hshort⟩ :=
    hreach.vouched.registration (List.mem_of_find?_eq_some hfind)
  refine ⟨p, hp, fun q token now hq => ?_⟩
  have hverify : (∃ r, (a.login hashPassword nickname q token now).1 = .ok r) ↔
      hashPassword q u.salt = u.passwordHash := by
    by_cases hequal : hashPassword q u.salt = u.passwordHash
    · simp [AuthService.login, hfind, AuthService.verifyPassword, hequal]
    · simp [AuthService.login, hfind, AuthService.verifyPassword, hequal]
  have hpshort : p.utf8ByteSize < 2 ^ 31 := Nat.lt_of_le_of_lt hshort (by decide)
  rw [hverify, hhash, hsalt]
  exact hashPassword_eq_iff (hashedWhole_salted hq) (hashedWhole_salted hpshort)

def zeroDraws : UuidDraws := ⟨0, 0, 0, 0⟩

/-- A guest registers and logs in again. -/
def guestAccount : List AccountOp :=
  [.registerUser " Guest" "secret" (Vector.replicate 16 7) zeroDraws 0, .login "Guest" "secret" zeroDraws 5]

theorem guestAccount_reaches {P : AuthService × AccountLog → Prop} [DecidablePred P]
    (h : (accountsLogged.runChecked (fun s => AccountCall s.1) ({ userStore := .empty }, [])
      guestAccount).any (fun s => decide (P s)) = true) :
    ∃ a log, AccountsReach a log ∧ P (a, log) := by
  obtain ⟨⟨a, log⟩, hrun, hP⟩ := Machine.exists_of_any h
  exact ⟨a, log, Machine.reachable_of_runChecked hrun, hP⟩

theorem login_accepted_iff_guest : ∃ (a : AuthService) (log : AccountLog) (u : UserRecord),
    a.userStore.findByNickname "Guest" = some u ∧ ∃ p, RegisteredWith log u.id p u.salt ∧
      ∀ q token now, q.utf8ByteSize < 2 ^ 31 →
        ((∃ r, (a.login hashPassword "Guest" q token now).1 = .ok r) ↔ q = p ∨ SaltedMerge u.salt q p) := by
  obtain ⟨a, log, hreach, hfind⟩ := guestAccount_reaches
    (P := fun s => (s.1.userStore.findByNickname "Guest").isSome = true) (by decide +kernel)
  obtain ⟨u, hu⟩ := Option.isSome_iff_exists.1 hfind
  exact ⟨a, log, u, hu, login_accepted_iff hreach hu⟩

/-- A token is valid for a user only if it was issued for the password that the user was registered with,
or for one that SHA-1 merges with it. -/
theorem token_needs_password (hreach : AccountsReach a log)
    (hvalid : (a.validateToken token now).1 = some u) :
    ∃ p salt q, (∀ p' salt', RegisteredWith log u.id p' salt' ↔ p' = p ∧ salt' = salt) ∧
      PresentedFor log token u.id q ∧ (q = p ∨ SaltedMerge salt q p) := by
  have h := hreach.vouched
  obtain ⟨entry, hentry, huser⟩ := AuthService.entry_of_validateToken hvalid
  obtain ⟨p, q, salt, hp, hq, hhash⟩ := h.tokens token entry hentry
  rw [huser] at hp hq
  refine ⟨p, salt, q, fun p' salt' => ⟨h.once _ _ _ _ _ hp, ?_⟩, hq, ?_⟩
  · rintro ⟨rfl, rfl⟩
    exact hp
  · obtain ⟨_, draws, _, _, _, _, hsalt, -, -⟩ := id hp
    subst hsalt
    have hpshort : p.utf8ByteSize < 2 ^ 31 := Nat.lt_of_le_of_lt (h.short _ _ _ hp) (by decide)
    exact (hashPassword_eq_iff (hashedWhole_salted (h.presented _ _ _ hq))
      (hashedWhole_salted hpshort)).1 hhash

theorem token_needs_password_guest : ∃ (a : AuthService) (log : AccountLog) (u : UserRecord),
    (a.validateToken zeroDraws.generateUuid 9).1 = some u ∧
    ∃ p salt q, (∀ p' salt', RegisteredWith log u.id p' salt' ↔ p' = p ∧ salt' = salt) ∧
      PresentedFor log zeroDraws.generateUuid u.id q ∧ (q = p ∨ SaltedMerge salt q p) := by
  obtain ⟨a, log, hreach, hvalid⟩ := guestAccount_reaches
    (P := fun s => (s.1.validateToken zeroDraws.generateUuid 9).1.isSome = true) (by decide +kernel)
  obtain ⟨u, hu⟩ := Option.isSome_iff_exists.1 hvalid
  exact ⟨a, log, u, hu, token_needs_password hreach hu⟩

end LetIn

end Guandan
