import Guandan.Auth.Accounts

/-!
# Who can log in again

A restart reads every nickname back up to its first quote and with its escapes. A person comes back to the
account under the nickname and the password of the registration as long as the nickname is plain, or no
restart lies between; and never otherwise, for a nickname that has changed never becomes what it was.
-/

namespace Guandan

open Quoted

/-! ### Nicknames over restarts -/

/-- The nickname that a restart reads. -/
def reloaded (nickname : String) : String := String.ofList (upToQuote (escapeJson nickname))

theorem reloaded_eq_iff {s : String} : reloaded s = s ↔ PlainText s := nickname_eq_iff

theorem toList_reloaded (s : String) : (reloaded s).toList = upToQuote (escaper.run s.toList) := by
  rw [reloaded, String.toList_ofList, escapeJson, escape_eq]

/-- Cut at its first quote, the escaped text still has the first of its backslashes. -/
theorem plain_of_upToQuote_run {text : Text} (h : escaper.Plain (upToQuote (escaper.run text))) :
    escaper.Plain text := by
  induction text with
  | nil => exact List.forall_mem_nil _
  | cons c text ih =>
    rw [Escaper.run_cons, Escaper.char] at h
    by_cases hspecial : escaper.special c = true
    · rw [if_pos hspecial] at h
      have hslash := h '\\' (by simp [upToQuote])
      rw [escaper.slash] at hslash
      cases hslash
    · have hc : c ≠ '"' := by
        intro hquote
        subst hquote
        exact hspecial escaper.quote
      rw [if_neg hspecial] at h
      have hcut : upToQuote ([c] ++ escaper.run text) = c :: upToQuote (escaper.run text) := by
        simp [upToQuote, hc]
      rw [hcut, Escaper.plain_cons] at h
      exact escaper.plain_cons.2 ⟨h.1, ih h.2⟩

/-- A special character makes the text longer. -/
theorem length_run_lt {text : Text} (h : ¬ escaper.Plain text) :
    text.length < (escaper.run text).length := by
  induction text with
  | nil => exact absurd (List.forall_mem_nil _) h
  | cons c text ih =>
    have hle := escaper.length_le_run text
    rw [Escaper.run_cons, Escaper.char, List.length_append, List.length_cons]
    by_cases hspecial : escaper.special c = true
    · obtain ⟨d, more, hmark, -⟩ := escaper.marks c hspecial
      rw [if_pos hspecial, hmark, List.length_cons, List.length_cons]
      omega
    · have htext : ¬ escaper.Plain text := fun hplain =>
        h (escaper.plain_cons.2 ⟨Bool.eq_false_iff.2 hspecial, hplain⟩)
      have hlt := ih htext
      rw [if_neg hspecial, List.length_singleton]
      omega

theorem plain_of_reloaded {s : String} (h : PlainText (reloaded s)) : PlainText s := by
  rw [PlainText, toList_reloaded] at h
  exact plain_of_upToQuote_run h

/-- A nickname that is not plain grows with every restart once it has no quote, which one restart sees
to. -/
theorem reloaded_grows {s : String} (hquote : '"' ∉ s.toList) (hplain : ¬ PlainText s) (k : ℕ) :
    s.toList.length + k ≤ (reloaded^[k] s).toList.length ∧ '"' ∉ (reloaded^[k] s).toList ∧
      ¬ PlainText (reloaded^[k] s) := by
  induction k with
  | zero => exact ⟨Nat.le_refl _, hquote, hplain⟩
  | succ k ih =>
    obtain ⟨hlen, hnoquote, hnotplain⟩ := ih
    rw [Function.iterate_succ_apply']
    generalize reloaded^[k] s = t at hlen hnoquote hnotplain
    have hrun : (reloaded t).toList = escaper.run t.toList := by
      rw [toList_reloaded, upToQuote_of_not_mem (escaper.quote_not_mem_run hnoquote)]
    have hgrown := length_run_lt hnotplain
    refine ⟨?_, ?_, fun h => hnotplain (plain_of_reloaded h)⟩
    · rw [hrun]
      omega
    · rw [hrun]
      exact escaper.quote_not_mem_run hnoquote

/-- After some restarts a nickname is what it was exactly when it is plain or there were none. -/
theorem iterate_reloaded_iff {s : String} {k : ℕ} : reloaded^[k] s = s ↔ PlainText s ∨ k = 0 := by
  constructor
  · intro h
    by_contra hno
    obtain ⟨hplain, hk⟩ := not_or.1 hno
    obtain ⟨j, rfl⟩ := Nat.exists_eq_succ_of_ne_zero hk
    by_cases hquote : '"' ∈ s.toList
    · -- the first restart cuts the quote off, and it never comes back
      have hfirst : '"' ∉ (reloaded s).toList := by
        rw [toList_reloaded]
        exact quote_not_mem_upToQuote _
      have hnever := (reloaded_grows hfirst (fun h => hplain (plain_of_reloaded h)) j).2.1
      rw [← Function.iterate_succ_apply, h] at hnever
      exact hnever hquote
    · have hlen := (reloaded_grows hquote hplain (j + 1)).1
      rw [h] at hlen
      omega
  · intro h
    rcases h with hplain | rfl
    · exact Function.iterate_fixed (reloaded_eq_iff.2 hplain) k
    · rfl

/-! ### Registrations in the log -/

/-- How many restarts there are among the calls. -/
def restarts (log : AccountLog) : ℕ :=
  log.countP fun call => match call.1 with
    | .restart => true
    | _ => false

/-- The log has this registration, and these calls since. -/
def RegisteredSince (log : AccountLog) (nickname password : String) (id : PlayerId) (rest : AccountLog) :
    Prop :=
  ∃ before salt draws now u uuid, u.id = id ∧
    log = before ++ (.registerUser nickname password salt draws now, .issued (.ok (u, uuid))) :: rest

section Log

variable {a a' : AuthService} {op : AccountOp} {out : AccountOut} {log rest : AccountLog}
  {nickname password : String} {id : PlayerId}

theorem restarts_restart : restarts (log ++ [(.restart, out)]) = restarts log + 1 := by
  rw [restarts, List.countP_append]
  rfl

theorem restarts_other (h : op ≠ .restart) : restarts (log ++ [(op, out)]) = restarts log := by
  rw [restarts, List.countP_append]
  cases op with
  | restart => exact absurd rfl h
  | _ => rfl

theorem registeredSince_concat : RegisteredSince (log ++ [(op, out)]) nickname password id rest ↔
    (rest = [] ∧ ∃ salt draws now u uuid, u.id = id ∧
      op = .registerUser nickname password salt draws now ∧ out = .issued (.ok (u, uuid))) ∨
    ∃ rest', rest = rest' ++ [(op, out)] ∧ RegisteredSince log nickname password id rest' := by
  constructor
  · intro h
    obtain ⟨before, salt, draws, now, u, uuid, hid, heq⟩ := h
    rcases Histories.concat_eq_append_cons.1 heq with ⟨hnil, -, hlast⟩ | ⟨rest', hrest, hlog⟩
    · obtain ⟨hop, hout⟩ := Prod.mk.inj hlast
      exact .inl ⟨hnil, salt, draws, now, u, uuid, hid, hop, hout⟩
    · exact .inr ⟨rest', hrest, before, salt, draws, now, u, uuid, hid, hlog⟩
  · intro h
    rcases h with ⟨rfl, salt, draws, now, u, uuid, hid, rfl, rfl⟩ | ⟨rest', rfl, hsince⟩
    · exact ⟨log, salt, draws, now, u, uuid, hid, rfl⟩
    · obtain ⟨before, salt, draws, now, u, uuid, hid, rfl⟩ := hsince
      exact ⟨before, salt, draws, now, u, uuid, hid, by simp⟩

theorem RegisteredSince.registeredWith (h : RegisteredSince log nickname password id rest) :
    ∃ salt, RegisteredWith log id password salt := by
  obtain ⟨before, salt, draws, now, u, uuid, hid, rfl⟩ := h
  exact ⟨_, nickname, salt, uuid, now, u, draws, rfl, hid, by simp⟩

/-- Under which names the registered users are in the store. -/
structure NamesKept (a : AuthService) (log : AccountLog) : Prop where
  kept : ∀ nickname password id rest, RegisteredSince log nickname password id rest →
    (id, reloaded^[restarts rest] (trim nickname)) ∈ a.userStore.names
  sole : ∀ nickname password id rest, RegisteredSince log nickname password id rest →
    PlainText (trim nickname) ∨ restarts rest = 0 →
    ∀ other, (other, trim nickname) ∈ a.userStore.names → other = id

theorem namesKept_empty : NamesKept { userStore := .empty } [] := by
  have hnone {nickname password : String} {id : PlayerId} {rest : AccountLog} :
      ¬ RegisteredSince [] nickname password id rest := by
    intro h
    obtain ⟨before, salt, draws, now, u, uuid, -, heq⟩ := h
    simp at heq
  constructor
  · intro nickname password id rest h
    exact absurd h hnone
  · intro nickname password id rest h
    exact absurd h hnone

/-- A call that neither registers nor restarts. -/
theorem NamesKept.other (h : NamesKept a log) (hrestart : op ≠ .restart)
    (hregister : ∀ nickname password salt draws now,
      op = .registerUser nickname password salt draws now → ∀ r, out ≠ .issued (.ok r))
    (hnames : a'.userStore.names = a.userStore.names) : NamesKept a' (log ++ [(op, out)]) := by
  have hback {nickname password : String} {id : PlayerId} {rest : AccountLog}
      (hsince : RegisteredSince (log ++ [(op, out)]) nickname password id rest) :
      ∃ rest', restarts rest = restarts rest' ∧ RegisteredSince log nickname password id rest' := by
    rcases registeredSince_concat.1 hsince with ⟨-, _, _, _, _, _, -, hop, hissued⟩ | ⟨rest', rfl, hbefore⟩
    · exact absurd hissued (hregister _ _ _ _ _ hop _)
    · exact ⟨rest', restarts_other hrestart, hbefore⟩
  constructor
  · intro nickname password id rest hsince
    obtain ⟨rest', hrestarts, hsince⟩ := hback hsince
    rw [hnames, hrestarts]
    exact h.kept nickname password id rest' hsince
  · intro nickname password id rest hsince hcome other hother
    obtain ⟨rest', hrestarts, hsince⟩ := hback hsince
    rw [hrestarts] at hcome
    rw [hnames] at hother
    exact h.sole nickname password id rest' hsince hcome other hother

theorem Vouched.names_restart (h : Vouched a log) (hwidth : a.userStore.nextId < 2 ^ 64) :
    (UserStore.load a.userStore.save).names = a.userStore.names.map (fun u => (u.1, reloaded u.2)) := by
  have hreread (us : List UserRecord) : (rereadAll us).map (fun u => (u.id, u.nickname)) =
      (us.map fun u => (u.id, u.nickname)).map (fun u => (u.1, reloaded u.2)) := by
    induction us with
    | nil => rfl
    | cons u us ih =>
      rw [rereadAll, List.map_cons, ih]
      rfl
  rw [UserStore.names, UserStore.load_save_users (h.sound hwidth)]
  exact hreread _

theorem NamesKept.step (h : NamesKept a log) (hvouched : Vouched a log) (hcall : AccountCall a op)
    (hstep : AccountStep a op a' out) : NamesKept a' (log ++ [(op, out)]) := by
  cases hstep with
  | @registered nick pass salt draws now u userStore _ haccepts hid _ _ hnames _ =>
    have hfree {id : PlayerId} {name : String} (hmem : (id, name) ∈ a.userStore.names) :
        name ≠ trim nick := by
      obtain ⟨v, hv, heq⟩ := List.mem_map.1 hmem
      rw [← (Prod.mk.inj heq).2]
      exact haccepts.2.2 v hv
    constructor
    · intro nickname password id rest hsince
      rw [hnames]
      rcases registeredSince_concat.1 hsince with
        ⟨rfl, _, _, _, _, _, hid', hop, hissued⟩ | ⟨rest', rfl, hbefore⟩
      · cases hop
        cases hissued
        apply List.mem_append_right
        rw [← hid', hid]
        exact List.mem_singleton_self _
      · rw [restarts_other (by simp)]
        exact List.mem_append_left _ (h.kept nickname password id rest' hbefore)
    · intro nickname password id rest hsince hcome other hother
      rw [hnames, List.mem_append, List.mem_singleton] at hother
      rcases registeredSince_concat.1 hsince with
        ⟨rfl, _, _, _, _, _, hid', hop, hissued⟩ | ⟨rest', rfl, hbefore⟩
      · cases hop
        cases hissued
        rcases hother with hold | hnew
        · exact absurd rfl (hfree hold)
        · rw [(Prod.mk.inj hnew).1, ← hid', hid]
      · rw [restarts_other (by simp)] at hcome
        have hmine := h.kept nickname password id rest' hbefore
        rw [iterate_reloaded_iff.2 hcome] at hmine
        rcases hother with hold | hnew
        · exact h.sole nickname password id rest' hbefore hcome other hold
        · exact absurd (Prod.mk.inj hnew).2 (hfree hmine)
  | loggedIn hu hverify => exact h.other (by simp) (by simp) rfl
  | restarted =>
    have hnames := hvouched.names_restart hcall.2
    have hback {nickname password : String} {id : PlayerId} {rest : AccountLog}
        (hsince : RegisteredSince (log ++ [(.restart, .restarted)]) nickname password id rest) :
        ∃ rest', restarts rest = restarts rest' + 1 ∧ RegisteredSince log nickname password id rest' := by
      rcases registeredSince_concat.1 hsince with ⟨-, _, _, _, _, _, -, hop, -⟩ | ⟨rest', rfl, hbefore⟩
      · cases hop
      · exact ⟨rest', restarts_restart, hbefore⟩
    constructor
    · intro nickname password id rest hsince
      obtain ⟨rest', hrestarts, hsince⟩ := hback hsince
      rw [hnames, hrestarts, Function.iterate_succ_apply']
      exact List.mem_map_of_mem (h.kept nickname password id rest' hsince)
    · intro nickname password id rest hsince hcome other hother
      obtain ⟨rest', hrestarts, hsince⟩ := hback hsince
      have hplain : PlainText (trim nickname) := hcome.resolve_right (by omega)
      rw [hnames] at hother
      obtain ⟨⟨id', name⟩, hmem, heq⟩ := List.mem_map.1 hother
      obtain ⟨rfl, hname⟩ := Prod.mk.inj heq
      -- what is read as a plain name was this name before
      have hbefore : name = trim nickname := by
        rw [← hname, reloaded_eq_iff.2 (plain_of_reloaded (by rw [hname]; exact hplain))]
      rw [hbefore] at hmem
      exact h.sole nickname password id rest' hsince (.inl hplain) _ hmem
  | other hop hout hsame _ => exact h.other hop (fun _ _ _ _ _ _ => hout) hsame.names

theorem AccountsReach.namesKept (h : AccountsReach a log) : NamesKept a log := by
  have hinv : ∀ s i s' o, Vouched s.1 s.2 ∧ NamesKept s.1 s.2 → AccountCall s.1 i →
      accountsLogged.step s i = some (s', o) → Vouched s'.1 s'.2 ∧ NamesKept s'.1 s'.2 := by
    intro s i s' o hs hcall hstep
    obtain ⟨hstep, hlog⟩ := Machine.withHistory_step.1 hstep
    have hcase := accounts_cases hstep
    rw [hlog]
    exact ⟨hs.1.step hcall hcase, hs.2.step hs.1 hcall hcase⟩
  exact (Machine.Reachable.invariant (P := fun s => Vouched s.1 s.2 ∧ NamesKept s.1 s.2) h
    ⟨vouched_empty, namesKept_empty⟩ hinv).2

end Log

/-! ### Logging in again -/

section Again

variable {a : AuthService} {log rest : AccountLog} {nickname password name name' : String} {id : PlayerId}
  {u : UserRecord}

theorem UserStore.mem_names (hu : u ∈ a.userStore.users) : (u.id, u.nickname) ∈ a.userStore.names :=
  List.mem_map_of_mem (f := fun u => (u.id, u.nickname)) hu

theorem Vouched.name_unique (h : Vouched a log) (hname : (id, name) ∈ a.userStore.names)
    (hname' : (id, name') ∈ a.userStore.names) : name = name' := by
  have hdistinct : (a.userStore.users.map (·.id)).Nodup := by
    have hids := h.distinct
    rwa [UserStore.credentials, List.map_map] at hids
  obtain ⟨u, hu, heq⟩ := List.mem_map.1 hname
  obtain ⟨v, hv, heq'⟩ := List.mem_map.1 hname'
  obtain ⟨hid, rfl⟩ := Prod.mk.inj heq
  obtain ⟨hid', rfl⟩ := Prod.mk.inj heq'
  rw [List.inj_on_of_nodup_map hdistinct hu hv (hid.trans hid'.symm)]

/-- Who logs in with what the account was registered with, gets into this account exactly when the nickname
is plain or the server has not been restarted since; whatever else was done with the service. -/
theorem login_again_iff (hreach : AccountsReach a log)
    (hsince : RegisteredSince log nickname password id rest) (token : String) (now : Nat) :
    (∃ r, (a.login hashPassword nickname password token now).1 = .ok r ∧ r.1.id = id) ↔
      PlainText (trim nickname) ∨ restarts rest = 0 := by
  have hvouched := hreach.vouched
  have hnames := hreach.namesKept
  have hkept := hnames.kept nickname password id rest hsince
  rw [← iterate_reloaded_iff]
  constructor
  · intro h
    obtain ⟨r, hlogin, hid⟩ := h
    have hfound : a.userStore.findByNickname nickname = some r.1 := by
      unfold AuthService.login at hlogin
      rcases hfind : a.userStore.findByNickname nickname with _ | u
      · simp [hfind] at hlogin
      · simp only [hfind] at hlogin
        split_ifs at hlogin
        rw [← Except.ok.inj hlogin]
    have hmem := UserStore.mem_names (List.mem_of_find?_eq_some hfound)
    have hnick : r.1.nickname = trim nickname := by simpa using List.find?_some hfound
    rw [hid, hnick] at hmem
    exact hvouched.name_unique hkept hmem
  · intro hsame
    have hcome := iterate_reloaded_iff.1 hsame
    rw [hsame] at hkept
    obtain ⟨v, hv, heq⟩ := List.mem_map.1 hkept
    have hfound : (a.userStore.findByNickname nickname).isSome = true := by
      rw [UserStore.findByNickname, List.find?_isSome]
      exact ⟨v, hv, by simpa using (Prod.mk.inj heq).2⟩
    obtain ⟨u, hfind⟩ := Option.isSome_iff_exists.1 hfound
    have hu := List.mem_of_find?_eq_some hfind
    have hnick : u.nickname = trim nickname := by simpa using List.find?_some hfind
    have hmem := UserStore.mem_names hu
    rw [hnick] at hmem
    have hid : u.id = id := hnames.sole nickname password id rest hsince hcome u.id hmem
    -- the password in the store is the one of this registration
    obtain ⟨p, draws, -, hp, hhash, -⟩ := hvouched.registration hu
    obtain ⟨salt, hregistered⟩ := hsince.registeredWith
    rw [hid] at hp
    obtain ⟨rfl, -⟩ := hvouched.once _ _ _ _ _ hregistered hp
    refine ⟨(u, token), ?_, hid⟩
    simp [AuthService.login, hfind, AuthService.verifyPassword, hhash]

/-- The call registered this user. -/
def isRegistration (nickname password : String) (id : PlayerId) : AccountOp × AccountOut → Bool
  | (.registerUser nickname' password' _ _ _, .issued (.ok (u, _))) =>
    nickname' = nickname && password' = password && u.id = id
  | _ => false

theorem registeredSince_cons {call : AccountOp × AccountOut}
    (h : isRegistration nickname password id call = true) :
    RegisteredSince (call :: rest) nickname password id rest := by
  obtain ⟨op, out⟩ := call
  cases op with
  | registerUser nickname' password' salt draws now =>
    cases out with
    | issued result =>
      rcases result with err | ⟨u, uuid⟩
      · cases h
      · simp only [isRegistration, Bool.and_eq_true, decide_eq_true_eq] at h
        obtain ⟨⟨rfl, rfl⟩, hid⟩ := h
        exact ⟨[], salt, draws, now, u, uuid, hid, rfl⟩
    | _ => cases h
  | _ => cases h

/-- A person with a quote in the nickname registers, and the server is restarted. -/
theorem login_again_iff_quote : ∃ (a : AuthService) (log rest : AccountLog),
    RegisteredSince log "a\"b" "secret" 10001 rest ∧ restarts rest = 1 ∧
      ((∃ r, (a.login hashPassword "a\"b" "secret" "token" 9).1 = .ok r ∧ r.1.id = 10001) ↔
        PlainText (trim "a\"b") ∨ restarts rest = 0) := by
  obtain ⟨⟨a, log⟩, hrun, hlog⟩ := Machine.exists_of_any
    (x := accountsLogged.runChecked (fun s => AccountCall s.1) ({ userStore := .empty }, [])
      [.registerUser "a\"b" "secret" (Vector.replicate 16 7) zeroDraws 0, .restart])
    (P := fun s => s.2.head?.any (isRegistration "a\"b" "secret" 10001) = true ∧ restarts s.2.tail = 1)
    (by decide +kernel)
  have hreach : AccountsReach a log := Machine.reachable_of_runChecked hrun
  rcases log with _ | ⟨call, rest⟩
  · simp at hlog
  · have hsince : RegisteredSince (call :: rest) "a\"b" "secret" 10001 rest :=
      registeredSince_cons (by simpa using hlog.1)
    exact ⟨a, call :: rest, rest, hsince, hlog.2, login_again_iff hreach hsince "token" 9⟩

end Again

end Guandan
