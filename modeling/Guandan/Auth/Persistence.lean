import Guandan.Auth.UserTable

/-!
# What a restart keeps

A store comes back from its file exactly when nothing in it had to be escaped and no avatar that is
missing is followed by one that is not (`Restorable`).
-/

namespace Guandan

open Quoted

/-! ### What comes back -/

theorem escaped_eq_empty {s : String} : escaped s = "" ↔ s = "" := by
  constructor
  · intro h
    have hlist := congrArg String.toList h
    rw [escaped, String.toList_ofList, escapeJson, escape_eq] at hlist
    have hlen := escaper.length_le_run s.toList
    rw [hlist, String.toList_empty, List.length_nil] at hlen
    exact String.toList_eq_nil_iff.1 (List.length_eq_zero_iff.1 (Nat.le_zero.1 hlen))
  · rintro rfl
    rfl

theorem firstNonempty_eq_empty {f : UserRecord → String} {us : List UserRecord} :
    firstNonempty f us = "" ↔ ∀ u ∈ us, f u = "" := by
  induction us with
  | nil => exact iff_of_true rfl (List.forall_mem_nil _)
  | cons u us ih =>
    rw [firstNonempty, List.forall_mem_cons, ← ih]
    by_cases hu : f u = ""
    · rw [if_pos hu, and_iff_right hu]
    · rw [if_neg hu]
      exact iff_of_false hu fun h => hu h.1

/-- Nothing in the text is escaped. -/
def PlainText (s : String) : Prop := escaper.Plain s.toList

instance : DecidablePred PlainText := fun s => inferInstanceAs (Decidable (escaper.Plain s.toList))

theorem escaped_firstNonempty {f : UserRecord → String} {u : UserRecord} {us : List UserRecord} :
    escaped (firstNonempty f (u :: us)) = f u ↔
      PlainText (f u) ∧ (f u = "" → ∀ v ∈ us, f v = "") := by
  rw [firstNonempty]
  by_cases hu : f u = ""
  · have hplain : PlainText "" := by decide
    rw [if_pos hu, hu, escaped_eq_empty, firstNonempty_eq_empty]
    simp [hplain]
  · rw [if_neg hu, escaped_eq_iff]
    simp [hu, PlainText]

theorem nickname_eq_iff {s : String} :
    String.ofList (upToQuote (escapeJson s)) = s ↔ PlainText s := by
  rw [escapeJson, escape_eq, PlainText, ← escaper.upToQuote_run]
  constructor
  · intro h
    have hlist := congrArg String.toList h
    rwa [String.toList_ofList] at hlist
  · intro h
    rw [h, String.ofList_toList]

/-- Nothing that a user consists of is escaped. -/
structure UserRecord.Plain (u : UserRecord) : Prop where
  nickname : PlainText u.nickname
  password : PlainText u.password
  passwordHash : PlainText u.passwordHash
  salt : PlainText u.salt
  avatar : PlainText u.avatar
  avatarPreset : PlainText u.avatarPreset

/-- No later user has an avatar where this one has none. -/
def KeepsAvatars (u v : UserRecord) : Prop :=
  (u.avatar = "" → v.avatar = "") ∧ (u.avatarPreset = "" → v.avatarPreset = "")

theorem reread_eq_iff {u : UserRecord} {us : List UserRecord} :
    reread u us = u ↔ u.Plain ∧ ∀ v ∈ us, KeepsAvatars u v := by
  have hfields : reread u us = u ↔
      String.ofList (upToQuote (escapeJson u.nickname)) = u.nickname ∧
        escaped u.password = u.password ∧ escaped u.passwordHash = u.passwordHash ∧
        escaped u.salt = u.salt ∧ escaped (firstNonempty (·.avatar) (u :: us)) = u.avatar ∧
        escaped (firstNonempty (·.avatarPreset) (u :: us)) = u.avatarPreset := by
    rw [UserRecord.ext_iff]
    simp [reread]
  rw [hfields, nickname_eq_iff, escaped_eq_iff, escaped_eq_iff, escaped_eq_iff,
    escaped_firstNonempty, escaped_firstNonempty]
  constructor
  · rintro ⟨hnickname, hpassword, hhash, hsalt, ⟨havatar, hnone⟩, hpreset, hnone'⟩
    exact ⟨⟨hnickname, hpassword, hhash, hsalt, havatar, hpreset⟩,
      fun v hv => ⟨fun h => hnone h v hv, fun h => hnone' h v hv⟩⟩
  · rintro ⟨⟨hnickname, hpassword, hhash, hsalt, havatar, hpreset⟩, hkeeps⟩
    exact ⟨hnickname, hpassword, hhash, hsalt, ⟨havatar, fun h v hv => (hkeeps v hv).1 h⟩,
      hpreset, fun h v hv => (hkeeps v hv).2 h⟩

theorem rereadAll_eq_iff {us : List UserRecord} :
    rereadAll us = us ↔ (∀ u ∈ us, u.Plain) ∧ us.Pairwise KeepsAvatars := by
  induction us with
  | nil => exact iff_of_true rfl ⟨List.forall_mem_nil _, .nil⟩
  | cons u us ih =>
    rw [rereadAll, List.cons_eq_cons, reread_eq_iff, ih, List.forall_mem_cons, List.pairwise_cons]
    constructor
    · rintro ⟨⟨hu, hkeeps⟩, hus, hpairs⟩
      exact ⟨⟨hu, hus⟩, hkeeps, hpairs⟩
    · rintro ⟨⟨hu, hus⟩, hkeeps, hpairs⟩
      exact ⟨⟨hu, hkeeps⟩, hus, hpairs⟩

namespace UserStore

/-- The stores whose file can be read. -/
structure Restorable (st : UserStore) : Prop where
  nextId : st.nextId < 2 ^ 64
  plain : ∀ u ∈ st.users, u.Plain
  avatars : st.users.Pairwise KeepsAvatars

/-- As long as the next id has its width, the users are such as `load` makes them. -/
def Sound (st : UserStore) : Prop := st.nextId < 2 ^ 64 → ∀ u ∈ st.users, u.Loaded

theorem load_nextId (json : Text) :
    (load json).nextId = if extractJsonUintValue json "next_id" < 10001 then 10001
      else extractJsonUintValue json "next_id" := rfl

theorem load_save_nextId (st : UserStore) :
    (load st.save).nextId = if st.nextId < 2 ^ 64 then st.nextId else 10001 := by
  have hms : ∀ m ∈ headTable st ++ usersTable st.users, m.WellFormed :=
    List.forall_mem_append.2 ⟨headTable_wellFormed st, usersTable_wellFormed st.users⟩
  have hread : extractJsonUintValue st.save "next_id" = if st.nextId < 2 ^ 64 then st.nextId else 0 := by
    rw [extractJsonUintValue, save_eq, extractUint_before (by decide),
      extractUint_digits hms (by decide) (by decide) (find_take (by rfl)) rfl]
  rw [load_nextId, hread]
  by_cases hwidth : st.nextId < 2 ^ 64
  · rw [if_pos hwidth, if_pos hwidth, if_neg (Nat.not_lt.2 st.nextId_ge)]
  · rw [if_neg hwidth, if_neg hwidth, if_pos (by decide)]

theorem load_save_users {st : UserStore} (hst : ∀ u ∈ st.users, u.Loaded) :
    (load st.save).users = rereadAll st.users := by
  have hno : ∀ m ∈ headTable st, (m.name == "id".toList) = false :=
    List.forall_mem_cons.2 ⟨rfl, List.forall_mem_singleton.2 rfl⟩
  rw [load, save_eq]
  exact loadUsers_table hst (by decide) (headTable_wellFormed st) hno (by decide)

/-- A store comes back from its file when it is restorable, and only then. -/
theorem load_save_iff {st : UserStore} (hst : st.Sound) : load st.save = st ↔ st.Restorable := by
  rw [UserStore.ext_iff, load_save_nextId]
  have hge := st.nextId_ge
  by_cases hwidth : st.nextId < 2 ^ 64
  · rw [if_pos hwidth, load_save_users (hst hwidth), rereadAll_eq_iff, and_iff_right rfl]
    exact ⟨fun h => ⟨hwidth, h.1, h.2⟩, fun h => ⟨h.plain, h.avatars⟩⟩
  · rw [if_neg hwidth]
    refine iff_of_false (fun h => ?_) fun h => hwidth h.nextId
    rw [Nat.not_lt, ← h.1] at hwidth
    exact absurd hwidth (by decide)

theorem load_sound (json : Text) : (load json).Sound := fun _ => loadUsers_loaded json

theorem updateStats_sound {st : UserStore} (hst : st.Sound) (id : PlayerId)
    (totalGames wins losses : UInt32) :
    (st.updateStats id ⟨totalGames.toNat, wins.toNat, losses.toNat⟩).2.Sound := by
  intro hwidth
  refine forall_updateFirst (fun u hu => ?_) (hst hwidth)
  exact { hu with
    totalGames := totalGames.toNat_lt
    wins := wins.toNat_lt
    losses := losses.toNat_lt }

theorem updateAvatar_sound {st : UserStore} (hst : st.Sound) (id : PlayerId) (avatarPath : String) :
    (st.updateAvatar id avatarPath).2.Sound := by
  intro hwidth
  refine forall_updateFirst (fun u hu => ?_) (hst hwidth)
  exact ⟨hu.id_pos, hu.id_lt, hu.nickname, hu.totalGames, hu.wins, hu.losses⟩

theorem updateAvatarPreset_sound {st : UserStore} (hst : st.Sound) (id : PlayerId)
    (presetId : String) : (st.updateAvatarPreset id presetId).2.Sound := by
  intro hwidth
  refine forall_updateFirst (fun u hu => ?_) (hst hwidth)
  exact ⟨hu.id_pos, hu.id_lt, hu.nickname, hu.totalGames, hu.wins, hu.losses⟩

theorem push_sound {st : UserStore} {nickname : String} (hst : st.Sound)
    (hnickname : 2 ≤ nickname.utf8ByteSize) (password passwordHash salt : String) :
    (st.push nickname password passwordHash salt).Sound := by
  intro hwidth
  have hid : st.nextId < 2 ^ 64 := Nat.lt_of_succ_lt hwidth
  refine List.forall_mem_append.2 ⟨hst hid, List.forall_mem_singleton.2 ?_⟩
  have hzero : 0 < 2 ^ 32 := by decide
  refine ⟨Nat.lt_of_lt_of_le (by decide) st.nextId_ge, hid, ?_, hzero, hzero, hzero⟩
  rintro rfl
  exact absurd hnickname (by decide)

theorem userStore_sound {st st' : UserStore} {call : StoreCall} {answer : Except String Bool}
    (hst : st.Sound) (h : userStore.step st call = some (st', answer)) : st'.Sound := by
  cases call with
  | registerUser nickname password passwordHash salt =>
    by_cases hnick : st.Accepts nickname
    · simp only [userStore, registerUser_ok hnick, Option.some_inj, Prod.mk.injEq] at h
      obtain ⟨rfl, -⟩ := h
      exact push_sound hst hnick.1 password passwordHash salt
    · obtain ⟨regErr, hreg⟩ := registerUser_error hnick password passwordHash salt
      simp only [userStore, hreg, Option.some_inj, Prod.mk.injEq] at h
      obtain ⟨rfl, -⟩ := h
      exact hst
  | updateStats id totalGames wins losses =>
    cases h
    exact updateStats_sound hst id totalGames wins losses
  | updateAvatar id avatarPath =>
    cases h
    exact updateAvatar_sound hst id avatarPath
  | updateAvatarPreset id presetId =>
    cases h
    exact updateAvatarPreset_sound hst id presetId

end UserStore

/-! ### Restarts -/

/-- From whatever file a server starts, and whatever calls it serves: at every moment a restart gives
back the store it has exactly when the store is restorable. -/
theorem restart_restores_iff (json : Text) (calls : List StoreCall) :
    userStore.Always (fun st => UserStore.load st.save = st ↔ st.Restorable)
      (UserStore.load json) calls := by
  have hall : userStore.Follows (fun _ _ => True) (UserStore.load json) calls :=
    .of_forall fun _ _ _ => trivial
  have hsound : userStore.Always UserStore.Sound (UserStore.load json) calls :=
    Machine.always_of_invariant (fun _ _ _ _ hst _ hstep => UserStore.userStore_sound hst hstep)
      (UserStore.load_sound json) hall
  exact hsound.mono fun st hst => UserStore.load_save_iff hst

/-- A user without an avatar comes back with that of the user behind. -/
theorem restart_passes_avatar_on :
    ∃ st, userStore.run UserStore.empty
        [.registerUser "Ann" "secret" "h1" "s1", .registerUser "Bob" "secret" "h2" "s2",
          .updateAvatar 10002 "/uploads/bob.png"] = some st ∧
      UserStore.load st.save ≠ st ∧
      (st.findById 10001).map (·.avatar) = some "" ∧
      ((UserStore.load st.save).findById 10001).map (·.avatar) = some "/uploads/bob.png" := by
  obtain ⟨st, hrun, husers⟩ : ∃ st, userStore.run UserStore.empty
      [.registerUser "Ann" "secret" "h1" "s1", .registerUser "Bob" "secret" "h2" "s2",
        .updateAvatar 10002 "/uploads/bob.png"] = some st ∧
      st.users = [{ id := 10001, nickname := "Ann", password := "secret", passwordHash := "h1",
                    salt := "s1", avatarPreset := "avatar_2" },
                  { id := 10002, nickname := "Bob", password := "secret", passwordHash := "h2",
                    salt := "s2", avatar := "/uploads/bob.png", avatarPreset := "avatar_2" }] :=
    Machine.exists_run_of_any (by decide)
  have hloaded : ∀ u ∈ st.users, u.Loaded := by
    rw [husers]
    refine List.forall_mem_cons.2 ⟨?_, List.forall_mem_singleton.2 ?_⟩
    · constructor <;> decide
    · constructor <;> decide
  have hload : (UserStore.load st.save).users = rereadAll st.users :=
    UserStore.load_save_users hloaded
  have havatar : (st.findById 10001).map (·.avatar) = some "" := by
    rw [UserStore.findById, husers]
    decide
  have havatar' : ((UserStore.load st.save).findById 10001).map (·.avatar) =
      some "/uploads/bob.png" := by
    rw [UserStore.findById, hload, husers]
    decide
  refine ⟨st, hrun, fun hsame => ?_, havatar, havatar'⟩
  rw [hsame, havatar] at havatar'
  exact absurd havatar' (by decide)

end Guandan
