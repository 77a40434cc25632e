import Guandan.Auth.AuthService
import Guandan.Library.Histories

/-!
# Which tokens are valid

The operations of `TokenManager` and the steady clock, in any order. What a token is worth is told from
the history alone: it is valid for the user it was issued to until the user's next token, a revocation,
or the end of its life.
-/

namespace Guandan

/-- The text of `generateUuid` for its four draws. -/
structure UuidDraws where
  first : UInt64
  second : UInt64
  third : UInt64
  fourth : UInt64
  deriving DecidableEq, Repr

namespace UuidDraws

/-- `std::hex << std::setfill('0') << std::setw(8)`. -/
def hexPadded (draw : UInt64) : List Char :=
  let digits := Nat.toDigits 16 draw.toNat
  List.replicate (8 - digits.length) '0' ++ digits

def generateUuid (draws : UuidDraws) : String :=
  String.ofList (hexPadded draws.first ++ '-' :: hexPadded draws.second ++
    '-' :: hexPadded draws.third ++ '-' :: hexPadded draws.fourth)

theorem generateUuid_ne_empty (draws : UuidDraws) : draws.generateUuid ≠ "" := by
  intro h
  have hchars := congrArg String.toList h
  simp [generateUuid] at hchars

end UuidDraws

/-- The calls of a `TokenManager`, and the passage of time. -/
inductive TokenOp
  | issueToken (userId : PlayerId) (draws : UuidDraws)
  | validateToken (token : String)
  | revokeToken (token : String)
  | revokeAllForUser (userId : PlayerId)
  | elapse (nanoseconds : Nat)
  deriving DecidableEq, Repr

/-- A token manager and the clock it reads. -/
structure ClockedTokens where
  manager : TokenManager := {}
  now : Nat := 0

namespace ClockedTokens

def apply (c : ClockedTokens) : TokenOp → ClockedTokens
  | .issueToken userId draws =>
    { c with manager := c.manager.issueToken userId draws.generateUuid c.now }
  | .validateToken token => { c with manager := (c.manager.validateToken token c.now).2 }
  | .revokeToken token => { c with manager := c.manager.revokeToken token }
  | .revokeAllForUser userId => { c with manager := c.manager.revokeAllForUser userId }
  | .elapse nanoseconds => { c with now := c.now + nanoseconds }

/-- The table after a history that starts with an empty one. -/
def after (ops : List TokenOp) : ClockedTokens := ops.foldl apply {}

/-- `token` is accepted for the user. -/
def Accepts (c : ClockedTokens) (token : String) (userId : PlayerId) : Prop :=
  (c.manager.validateToken token c.now).1 = some userId

end ClockedTokens

namespace TokenOp

def elapsed : TokenOp → Nat
  | .elapse nanoseconds => nanoseconds
  | _ => 0

def issued : TokenOp → Option String
  | .issueToken _ draws => some draws.generateUuid
  | _ => none

/-- The calls that take from a user the token it was issued. -/
def Ends (token : String) (userId : PlayerId) : TokenOp → Prop
  | .issueToken user _ => user = userId
  | .revokeToken revoked => revoked = token
  | .revokeAllForUser user => user = userId
  | .validateToken _ | .elapse _ => False

end TokenOp

/-- The time that passes during a history. -/
def totalElapsed (ops : List TokenOp) : Nat := (ops.map TokenOp.elapsed).sum

/-- The tokens that a history issues. -/
def issuedTokens (ops : List TokenOp) : List String := ops.filterMap TokenOp.issued

namespace ClockedTokens

variable {c : ClockedTokens} {op : TokenOp} {ops before rest : List TokenOp} {token : String}
  {userId : PlayerId} {entry : TokenEntry} {draws : UuidDraws}

theorem after_concat : after (ops ++ [op]) = (after ops).apply op := by
  simp [after]

theorem apply_now : (c.apply op).now = c.now + op.elapsed := by
  cases op <;> rfl

theorem after_now : (after ops).now = totalElapsed ops := by
  induction ops using List.reverseRecOn with
  | nil => rfl
  | append_singleton ops op ih =>
    rw [after_concat, apply_now, ih]
    simp [totalElapsed]

/-! ### One operation -/

theorem validateToken_fst : c.Accepts token userId ↔
    token ≠ "" ∧ ∃ entry, c.manager.tokens token = some entry ∧ entry.userId = userId ∧
      c.now ≤ entry.expiresAt := by
  unfold Accepts TokenManager.validateToken
  by_cases htoken : token = ""
  · simp [htoken]
  · rw [if_neg htoken]
    rcases c.manager.tokens token with _ | entry
    · simp
    · by_cases hlate : entry.expiresAt < c.now
      · simp [hlate, Nat.not_le.2 hlate]
      · simp [hlate, htoken, Nat.not_lt.1 hlate]

/-- Validating takes away only an entry whose life has passed. -/
theorem validateToken_tokens (validated : String) :
    (c.manager.validateToken validated c.now).2.tokens token = some entry ↔
      c.manager.tokens token = some entry ∧
        (validated = token → token ≠ "" → c.now ≤ entry.expiresAt) := by
  unfold TokenManager.validateToken
  by_cases hempty : validated = ""
  · rw [if_pos hempty]
    refine (and_iff_left ?_).symm
    rintro rfl htoken
    exact absurd hempty htoken
  · rw [if_neg hempty]
    cases hfound : c.manager.tokens validated with
    | none =>
      refine (and_iff_left_of_imp ?_).symm
      rintro hentry rfl
      rw [hfound] at hentry
      cases hentry
    | some found =>
      by_cases hsame : validated = token
      · subst hsame
        by_cases hlate : found.expiresAt < c.now
        · have hdropped : (c.manager.revokeToken validated).tokens validated = none :=
            Function.update_self ..
          simp only [hlate, if_true, hdropped, hfound, Option.some.injEq, reduceCtorEq, false_iff,
            not_and]
          rintro rfl hle
          exact absurd (hle trivial hempty) (Nat.not_le.2 hlate)
        · simp only [hlate, if_false, hfound, Option.some.injEq]
          refine (and_iff_left_of_imp ?_).symm
          rintro rfl - -
          exact Nat.not_lt.1 hlate
      · have hkept : (c.manager.revokeToken validated).tokens token = c.manager.tokens token :=
          Function.update_of_ne (Ne.symm hsame) ..
        by_cases hlate : found.expiresAt < c.now
        · simp [hlate, hkept, hsame]
        · simp [hlate, hsame]

theorem revokeToken_tokens (revoked : String) :
    (c.manager.revokeToken revoked).tokens token = some entry ↔
      c.manager.tokens token = some entry ∧ revoked ≠ token := by
  by_cases hsame : token = revoked
  · subst hsame
    simp [TokenManager.revokeToken]
  · simp [TokenManager.revokeToken, Function.update_of_ne hsame, Ne.symm hsame]

theorem revokeAllForUser_tokens (user : PlayerId) :
    (c.manager.revokeAllForUser user).tokens token = some entry ↔
      c.manager.tokens token = some entry ∧ user ≠ entry.userId := by
  have hne : (entry.userId != user) = true ↔ user ≠ entry.userId := bne_iff_ne.trans ne_comm
  rw [← hne]
  exact Option.filter_eq_some_iff

theorem issueToken_tokens (user : PlayerId) (issued : String) :
    (c.manager.issueToken user issued c.now).tokens token = some entry ↔
      (issued = token ∧ entry = ⟨user, c.now + tokenTtl⟩) ∨
      issued ≠ token ∧ c.manager.tokens token = some entry ∧ user ≠ entry.userId := by
  by_cases hsame : token = issued
  · subst hsame
    simp [TokenManager.issueToken, eq_comm]
  · rw [← revokeAllForUser_tokens]
    simp [TokenManager.issueToken, Function.update_of_ne hsame, Ne.symm hsame]

/-- An entry is there after an operation because it was just issued, or because it was there and nothing
ended it. -/
theorem entry_of_apply (h : (c.apply op).manager.tokens token = some entry) :
    (∃ draws, op = .issueToken entry.userId draws ∧ draws.generateUuid = token ∧
      entry.expiresAt = c.now + tokenTtl) ∨
    c.manager.tokens token = some entry ∧ ¬ op.Ends token entry.userId := by
  cases op with
  | issueToken user draws =>
    rcases (issueToken_tokens user draws.generateUuid).1 h with ⟨htoken, rfl⟩ | ⟨-, hkept⟩
    · exact .inl ⟨draws, rfl, htoken, rfl⟩
    · exact .inr hkept
  | validateToken validated => exact .inr ⟨((validateToken_tokens validated).1 h).1, id⟩
  | revokeToken revoked => exact .inr ((revokeToken_tokens revoked).1 h)
  | revokeAllForUser user => exact .inr ((revokeAllForUser_tokens user).1 h)
  | elapse nanoseconds => exact .inr ⟨h, id⟩

/-- An entry whose life has not passed stays until something ends it. -/
theorem entry_apply (h : c.manager.tokens token = some entry)
    (hends : ¬ op.Ends token entry.userId) (hissued : op.issued ≠ some token)
    (hnow : c.now ≤ entry.expiresAt) : (c.apply op).manager.tokens token = some entry := by
  cases op with
  | issueToken user draws =>
    exact (issueToken_tokens user _).2 (.inr ⟨fun htoken => hissued (congrArg some htoken), h, hends⟩)
  | validateToken validated => exact (validateToken_tokens validated).2 ⟨h, fun _ _ => hnow⟩
  | revokeToken revoked => exact (revokeToken_tokens revoked).2 ⟨h, hends⟩
  | revokeAllForUser user => exact (revokeAllForUser_tokens user).2 ⟨h, hends⟩
  | elapse nanoseconds => exact h

/-! ### Histories -/

/-- The history issues the token to the user, and what follows does not end it. -/
def Holds (ops : List TokenOp) (token : String) (userId : PlayerId) (rest : List TokenOp) : Prop :=
  ∃ before draws, ops = before ++ .issueToken userId draws :: rest ∧ draws.generateUuid = token ∧
    ∀ op ∈ rest, ¬ op.Ends token userId

theorem totalElapsed_append (ops rest : List TokenOp) :
    totalElapsed (ops ++ rest) = totalElapsed ops + totalElapsed rest := by
  simp [totalElapsed]

/-- Every entry of the table was issued and not ended since. -/
theorem holds_of_entry (h : (after ops).manager.tokens token = some entry) :
    ∃ rest, Holds ops token entry.userId rest ∧
      entry.expiresAt + totalElapsed rest = totalElapsed ops + tokenTtl := by
  induction ops using List.reverseRecOn with
  | nil => cases h
  | append_singleton ops op ih =>
    rw [after_concat] at h
    rcases entry_of_apply h with ⟨draws, rfl, htoken, hexpires⟩ | ⟨hentry, hends⟩
    · refine ⟨[], ⟨ops, draws, rfl, htoken, fun _ hmem => by cases hmem⟩, ?_⟩
      rw [hexpires, after_now, totalElapsed_append]
      simp [totalElapsed, TokenOp.elapsed]
    · obtain ⟨rest, ⟨before, draws, rfl, htoken, hrest⟩, hexpires⟩ := ih hentry
      refine ⟨rest ++ [op], ⟨before, draws, by simp, htoken, fun op' hop' => ?_⟩, ?_⟩
      · rcases List.mem_append.1 hop' with hop' | hop'
        · exact hrest op' hop'
        · rw [List.mem_singleton.1 hop']
          exact hends
      · rw [totalElapsed_append, totalElapsed_append _ [op]]
        omega

/-- A token that was issued and not ended is in the table while its life lasts. -/
theorem entry_of_holds (hfresh : (issuedTokens (before ++ .issueToken userId draws :: rest)).Nodup)
    (hends : ∀ op ∈ rest, ¬ op.Ends draws.generateUuid userId)
    (hlife : totalElapsed rest ≤ tokenTtl) :
    (after (before ++ .issueToken userId draws :: rest)).manager.tokens draws.generateUuid =
      some ⟨userId, totalElapsed before + tokenTtl⟩ := by
  induction rest using List.reverseRecOn with
  | nil =>
    rw [after_concat]
    exact (issueToken_tokens userId draws.generateUuid).2 (.inl ⟨rfl, by rw [after_now]⟩)
  | append_singleton rest op ih =>
    have hsplit : before ++ TokenOp.issueToken userId draws :: (rest ++ [op]) =
        (before ++ .issueToken userId draws :: rest) ++ [op] := by simp
    rw [totalElapsed_append] at hlife
    rw [hsplit] at hfresh ⊢
    rw [issuedTokens, List.filterMap_append, List.nodup_append] at hfresh
    rw [after_concat]
    refine entry_apply (ih hfresh.1 (fun op' hop' => hends op' (List.mem_append_left _ hop'))
      (by omega)) (hends op (by simp)) (fun hissued => ?_) ?_
    · exact hfresh.2.2 draws.generateUuid (by simp [TokenOp.issued]) draws.generateUuid
        (by simp [hissued]) rfl
    · rw [after_now, totalElapsed_append]
      have : totalElapsed (TokenOp.issueToken userId draws :: rest) = totalElapsed rest := by
        simp [totalElapsed, TokenOp.elapsed]
      simp only
      omega

/-- A token is accepted when it is the user's and its life has not passed. -/
theorem accepts_iff (hfresh : (issuedTokens ops).Nodup) :
    (after ops).Accepts token userId ↔
      ∃ rest, Holds ops token userId rest ∧ totalElapsed rest ≤ tokenTtl := by
  rw [validateToken_fst, after_now]
  constructor
  · rintro ⟨-, entry, hentry, rfl, hnow⟩
    obtain ⟨rest, hholds, hexpires⟩ := holds_of_entry hentry
    exact ⟨rest, hholds, by omega⟩
  · rintro ⟨rest, ⟨before, draws, rfl, rfl, hends⟩, hlife⟩
    refine ⟨draws.generateUuid_ne_empty, _, entry_of_holds hfresh hends hlife, rfl, ?_⟩
    rw [totalElapsed_append]
    have hrest : totalElapsed (TokenOp.issueToken userId draws :: rest) = totalElapsed rest := by
      simp [totalElapsed, TokenOp.elapsed]
    simp only
    omega

/-- The later of two issues to a user ends the token of the earlier one. -/
theorem Holds.unique {token' : String} {rest' : List TokenOp} (h : Holds ops token userId rest)
    (h' : Holds ops token' userId rest') : token = token' := by
  obtain ⟨before, draws, rfl, rfl, hends⟩ := h
  obtain ⟨before', draws', heq, rfl, hends'⟩ := h'
  rcases List.append_eq_append_iff.1 heq with ⟨between, rfl, hrest⟩ | ⟨between, rfl, hrest⟩
  · cases between with
    | nil => cases hrest; rfl
    | cons op between =>
      obtain ⟨rfl, rfl⟩ := List.cons.inj hrest
      exact absurd rfl (hends (.issueToken userId draws') (by simp))
  · cases between with
    | nil => cases hrest; rfl
    | cons op between =>
      obtain ⟨rfl, rfl⟩ := List.cons.inj hrest
      exact absurd rfl (hends' (.issueToken userId draws) (by simp))

/-- An operation that does not end the token, and takes no time, leaves it as it is. -/
theorem holds_concat (hends : ¬ op.Ends token userId) (helapsed : op.elapsed = 0) :
    (∃ rest, Holds (ops ++ [op]) token userId rest ∧ totalElapsed rest ≤ tokenTtl) ↔
      ∃ rest, Holds ops token userId rest ∧ totalElapsed rest ≤ tokenTtl := by
  have hlast (rest : List TokenOp) : totalElapsed (rest ++ [op]) = totalElapsed rest := by
    simp [totalElapsed, helapsed]
  constructor
  · rintro ⟨rest, ⟨before, draws, heq, rfl, hrest⟩, hlife⟩
    rcases Histories.concat_eq_append_cons.1 heq with ⟨-, -, rfl⟩ | ⟨rest, rfl, rfl⟩
    · exact absurd rfl hends
    · exact ⟨rest, ⟨before, draws, rfl, rfl, fun op' hop' => hrest op' (by simp [hop'])⟩,
        by rwa [hlast] at hlife⟩
  · rintro ⟨rest, ⟨before, draws, rfl, rfl, hrest⟩, hlife⟩
    refine ⟨rest ++ [op], ⟨before, draws, by simp, rfl, fun op' hop' => ?_⟩, by rwa [hlast]⟩
    rcases List.mem_append.1 hop' with hop' | hop'
    · exact hrest op' hop'
    · rw [List.mem_singleton.1 hop']
      exact hends

end ClockedTokens

/-- Where `generateUuid` repeats no token: a token is valid for a user when it is the last one issued to
them, neither revocation came since, and its life has not passed. So no user has two of them, and what is
done to one user leaves the tokens of the others as they are. -/
theorem tokens_valid (ops : List TokenOp) (hfresh : (issuedTokens ops).Nodup) :
    (∀ token userId, (ClockedTokens.after ops).Accepts token userId ↔
      ∃ before draws rest, ops = before ++ .issueToken userId draws :: rest ∧
        draws.generateUuid = token ∧ (∀ draws', .issueToken userId draws' ∉ rest) ∧
        .revokeToken token ∉ rest ∧ .revokeAllForUser userId ∉ rest ∧
        totalElapsed rest ≤ tokenTtl) ∧
    (∀ token token' userId, (ClockedTokens.after ops).Accepts token userId →
      (ClockedTokens.after ops).Accepts token' userId → token = token') ∧
    (∀ before op token userId, before ++ [op] <+: ops → ¬ op.Ends token userId → op.elapsed = 0 →
      ((ClockedTokens.after (before ++ [op])).Accepts token userId ↔
        (ClockedTokens.after before).Accepts token userId)) := by
  refine ⟨fun token userId => ?_, fun token token' userId h h' => ?_,
    fun before op token userId hpre hends helapsed => ?_⟩
  · rw [ClockedTokens.accepts_iff hfresh]
    constructor
    · rintro ⟨rest, ⟨before, draws, rfl, rfl, hends⟩, hlife⟩
      exact ⟨before, draws, rest, rfl, rfl, fun draws' hmem => hends _ hmem rfl,
        fun hmem => hends _ hmem rfl, fun hmem => hends _ hmem rfl, hlife⟩
    · rintro ⟨before, draws, rest, rfl, rfl, hissue, hrevoke, hrevokeAll, hlife⟩
      refine ⟨rest, ⟨before, draws, rfl, rfl, fun op hop hends => ?_⟩, hlife⟩
      cases op with
      | issueToken user draws' => cases hends; exact hissue draws' hop
      | revokeToken revoked => cases hends; exact hrevoke hop
      | revokeAllForUser user => cases hends; exact hrevokeAll hop
      | validateToken validated => exact hends
      | elapse nanoseconds => exact hends
  · obtain ⟨rest, hholds, -⟩ := (ClockedTokens.accepts_iff hfresh).1 h
    obtain ⟨rest', hholds', -⟩ := (ClockedTokens.accepts_iff hfresh).1 h'
    exact hholds.unique hholds'
  · have hconcat : (issuedTokens (before ++ [op])).Nodup :=
      hfresh.sublist (hpre.sublist.filterMap _)
    have hbefore : (issuedTokens before).Nodup :=
      hconcat.sublist ((List.sublist_append_left ..).filterMap _)
    rw [ClockedTokens.accepts_iff hconcat, ClockedTokens.accepts_iff hbefore]
    exact ClockedTokens.holds_concat hends helapsed

/-- A second login: the first token is no longer valid, the second one is. -/
theorem tokens_valid_second_login :
    (ClockedTokens.after [.issueToken 10001 ⟨1, 2, 3, 4⟩, .elapse 7, .issueToken 10001 ⟨5, 6, 7, 8⟩,
        .elapse 9]).Accepts (UuidDraws.generateUuid ⟨5, 6, 7, 8⟩) 10001 ∧
      ¬ (ClockedTokens.after [.issueToken 10001 ⟨1, 2, 3, 4⟩, .elapse 7,
        .issueToken 10001 ⟨5, 6, 7, 8⟩, .elapse 9]).Accepts
          (UuidDraws.generateUuid ⟨1, 2, 3, 4⟩) 10001 := by
  have hne : UuidDraws.generateUuid ⟨1, 2, 3, 4⟩ ≠ UuidDraws.generateUuid ⟨5, 6, 7, 8⟩ := by
    decide +kernel
  have hfresh : (issuedTokens [.issueToken 10001 ⟨1, 2, 3, 4⟩, .elapse 7,
      .issueToken 10001 ⟨5, 6, 7, 8⟩, .elapse 9]).Nodup := by
    rw [show issuedTokens _ =
      [UuidDraws.generateUuid ⟨1, 2, 3, 4⟩, UuidDraws.generateUuid ⟨5, 6, 7, 8⟩] from rfl]
    simpa using hne
  obtain ⟨hvalid, hunique, -⟩ := tokens_valid _ hfresh
  have hsecond := (hvalid (UuidDraws.generateUuid ⟨5, 6, 7, 8⟩) 10001).2
    ⟨[.issueToken 10001 ⟨1, 2, 3, 4⟩, .elapse 7], ⟨5, 6, 7, 8⟩, [.elapse 9], rfl, rfl, by simp,
      by simp, by simp, by decide⟩
  exact ⟨hsecond, fun hfirst => hne (hunique _ _ 10001 hfirst hsecond)⟩

end Guandan
