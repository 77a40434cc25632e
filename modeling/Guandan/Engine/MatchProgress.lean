import Guandan.Engine.Course
import Guandan.Engine.RoundRanks

/-!
# The progress of the teams over a match

The history of a match is the number of settled rounds and, for each team, the number of pass-A
rounds it has failed: rounds dealt as such (`state.isPassARound`), with this team attacking, that the
other team won. The engine's own counter is that number modulo `kPassAFailLimit`; a team stands at
the ace exactly while it is in its pass-A phase, and it falls back to the two exactly when the
counter runs over (`MatchInv`, `match_progress`).
-/

namespace Guandan

open GameState GameEngine

structure MatchLog where
  settled : Nat := 0
  failed : Team → Nat := fun _ => 0
  deriving DecidableEq

/-- The call is a play that ends its round. -/
def EndsRound (op : EngineOp) (out : EngineOut) (e' : GameEngine) : Option SettlementResult :=
  match op, out with
  | .playCards _ _, .result r =>
    if r.code = .ok ∧ e'.state.phase = .finished then some r.settlement else none
  | _, _ => none

/-- The team that attacked in a pass-A round and did not win it. -/
def failedTeam (e : GameEngine) (settlement : SettlementResult) : Option Team :=
  if e.state.isPassARound ∧ settlement.winningTeam ≠ some e.state.attackingTeam then
    some e.state.attackingTeam
  else none

/-- Brings the history of the match up to date after a call. -/
def recordMatch (log : MatchLog) (e : GameEngine) (op : EngineOp) (out : EngineOut)
    (e' : GameEngine) : MatchLog :=
  match EndsRound op out e' with
  | some settlement =>
    { settled := log.settled + 1
      failed := match failedTeam e settlement with
        | some team => Function.update log.failed team (log.failed team + 1)
        | none => log.failed }
  | none => log

/-- The engine with the history of the match beside its state. -/
def matchEngine : Machine (GameEngine × MatchLog) EngineOp EngineOut :=
  engine.withHistory recordMatch

/-- What holds of a team in every state: its level, its pass-A phase, the counter of its failed pass-A
rounds and their number over the match. -/
structure Standing (level : Nat) (inPassA : Bool) (fails failed : Nat) : Prop where
  range : 2 ≤ level ∧ level ≤ kLevelA
  ace : inPassA = true ↔ level = kLevelA
  counter : fails = failed % kPassAFailLimit
  quiet : inPassA = false → fails = 0

structure MatchInv (t : TeamProgress) (log : MatchLog) : Prop where
  standing : ∀ team, Standing (t.levels team) (t.inPassAPhase team) (t.passAFailCounts team)
    (log.failed team)
  attack : 0 < log.settled → t.lastWinningTeam = some t.attackingTeam
  first : log.settled = 0 → t.lastWinningTeam = none

/-- The flags of a round are those of the progress it is played in. -/
def Shown (e : GameEngine) : Prop :=
  Ongoing e → e.state.attackingTeam = e.progress.attackingTeam ∧
    e.state.isPassARound = e.progress.isPassARound

/-- A level falls only with the third failed pass-A round. -/
structure Falls (t t' : TeamProgress) (log : MatchLog) (w team : Team) : Prop where
  round : t.isPassARound = true
  attacks : t.attackingTeam = team
  lost : w ≠ team
  counter : t.passAFailCounts team = 2
  third : (log.failed team + 1) % kPassAFailLimit = 0
  level : t'.levels team = 2

/-- The history once a round is settled for team `w`. -/
def MatchLog.settle (log : MatchLog) (t : TeamProgress) (w : Team) : MatchLog :=
  { settled := log.settled + 1
    failed := if t.isPassARound = true ∧ w ≠ t.attackingTeam then
        Function.update log.failed t.attackingTeam (log.failed t.attackingTeam + 1)
      else log.failed }

namespace Standing

variable {level fails failed gain : Nat} {inPassA : Bool}

/-- One more failure, which is not the last. -/
theorem fail (h : Standing level inPassA fails failed) (hin : inPassA = true)
    (hlt : fails + 1 < kPassAFailLimit) : Standing level inPassA (fails + 1) (failed + 1) := by
  have hfails : fails = failed % 3 := h.counter
  have hlt' : fails + 1 < 3 := hlt
  refine ⟨h.range, h.ace, ?_, fun hno => ?_⟩
  · show fails + 1 = (failed + 1) % 3
    omega
  · rw [hin] at hno
    cases hno

/-- The last failure. -/
theorem reset (h : Standing level inPassA fails failed) (hle : kPassAFailLimit ≤ fails + 1) :
    Standing 2 false 0 (failed + 1) ∧ fails = 2 ∧ (failed + 1) % kPassAFailLimit = 0 := by
  have hfails : fails = failed % 3 := h.counter
  have hle' : 3 ≤ fails + 1 := hle
  have hmod : (failed + 1) % 3 = 0 := by omega
  exact ⟨⟨by decide, by decide, hmod.symm, fun _ => rfl⟩, by omega, hmod⟩

theorem enter (h : Standing level false fails failed) :
    Standing kLevelA true fails failed := by
  refine ⟨by decide, by simp, h.counter, nofun⟩

theorem climb (h : Standing level inPassA fails failed)
    (hcap : inPassA = true ∨ level + gain < kLevelA) :
    Standing (min kLevelA (level + gain)) inPassA fails failed := by
  obtain ⟨hlow, hhigh⟩ := h.range
  refine ⟨by omega, ?_, h.counter, h.quiet⟩
  rcases hcap with hin | hlt
  · have hat := h.ace.1 hin
    exact iff_of_true hin (by omega)
  · rw [h.ace]
    omega

end Standing

namespace MatchInv

variable {t t' : TeamProgress} {log : MatchLog}

theorem prepareNextRound (h : MatchInv t log) : t.prepareNextRound = t := by
  unfold TeamProgress.prepareNextRound
  rcases Nat.eq_zero_or_pos log.settled with h0 | hpos
  · rw [h.first h0]
  · have hattack := h.attack hpos
    rw [hattack]
    dsimp only
    rw [← hattack]

/-- A pass-A round is one in which the attackers are in their pass-A phase. -/
theorem inPassAPhase (hpass : t.isPassARound = true) : t.inPassAPhase t.attackingTeam = true := by
  simp only [TeamProgress.isPassARound, Bool.and_eq_true] at hpass
  exact hpass.1

theorem outcome {w : Team} {gain : Nat} {t₁ : TeamProgress} (h : MatchInv t log)
    (hout : TeamProgress.Outcome t w gain t₁) :
    MatchInv { t₁ with lastWinningTeam := some w, attackingTeam := w } (log.settle t w) ∧
      ∀ team, t₁.levels team < t.levels team → Falls t t₁ log w team := by
  have hmark : ∀ {t₂ : TeamProgress} {failed : Team → Nat},
      (log.settle t w).failed = failed →
      (∀ team, Standing (t₂.levels team) (t₂.inPassAPhase team) (t₂.passAFailCounts team)
        (failed team)) →
      MatchInv { t₂ with lastWinningTeam := some w, attackingTeam := w } (log.settle t w) := by
    rintro t₂ failed rfl hstanding
    exact ⟨hstanding, fun _ => rfl, fun h0 => absurd h0 (Nat.succ_ne_zero _)⟩
  cases hout with
  | matchWon hpass hw =>
    refine ⟨hmark (if_neg fun hno => hno.2 hw) h.standing, fun team hlt => ?_⟩
    exact absurd hlt (Nat.lt_irrefl _)
  | failed hpass hw hlt =>
    refine ⟨hmark (if_pos ⟨hpass, hw⟩) fun team => ?_, fun team hlt => ?_⟩
    · by_cases hteam : team = t.attackingTeam
      · subst hteam
        simp only [Function.update_self]
        exact (h.standing _).fail (inPassAPhase hpass) hlt
      · simp only [Function.update_of_ne hteam]
        exact h.standing team
    · exact absurd hlt (Nat.lt_irrefl _)
  | reset hpass hw hle =>
    obtain ⟨hreset, hcounter, hthird⟩ := (h.standing t.attackingTeam).reset hle
    refine ⟨hmark (if_pos ⟨hpass, hw⟩) fun team => ?_, fun team hlt => ?_⟩
    · by_cases hteam : team = t.attackingTeam
      · subst hteam
        simp only [Function.update_self]
        exact hreset
      · simp only [Function.update_of_ne hteam]
        exact h.standing team
    · have hteam : team = t.attackingTeam := by
        by_contra hteam
        simp [Function.update_of_ne hteam] at hlt
      subst hteam
      refine ⟨hpass, rfl, hw, hcounter, hthird, ?_⟩
      simp only [Function.update_self]
  | enters hpass hin hle =>
    refine ⟨hmark (if_neg (by simp [hpass])) fun team => ?_, fun team hlt => ?_⟩
    · by_cases hteam : team = w
      · subst hteam
        simp only [Function.update_self]
        exact (hin ▸ h.standing team : Standing _ false _ _).enter
      · simp only [Function.update_of_ne hteam]
        exact h.standing team
    · by_cases hteam : team = w
      · subst hteam
        simp only [Function.update_self] at hlt
        exact absurd hlt (Nat.not_lt.2 (h.standing team).range.2)
      · simp [Function.update_of_ne hteam] at hlt
  | climbs hpass hcap =>
    refine ⟨hmark (if_neg (by simp [hpass])) fun team => ?_, fun team hlt => ?_⟩
    · by_cases hteam : team = w
      · subst hteam
        simp only [Function.update_self]
        exact (h.standing team).climb hcap
      · simp only [Function.update_of_ne hteam]
        exact h.standing team
    · by_cases hteam : team = w
      · subst hteam
        have hhigh := (h.standing team).range.2
        simp only [Function.update_self] at hlt
        omega
      · simp [Function.update_of_ne hteam] at hlt

/-- With its third failed pass-A round a team starts again at the two. -/
theorem levels_of_failed {w team : Team} {gain : Nat} {t₁ : TeamProgress}
    (hout : TeamProgress.Outcome t w gain t₁) (hpass : t.isPassARound = true)
    (hattacks : t.attackingTeam = team) (hlost : w ≠ team) (hcounter : t.passAFailCounts team = 2) :
    t₁.levels team = 2 := by
  subst hattacks
  cases hout with
  | matchWon _ hw => exact absurd hw hlost
  | failed _ _ hlt =>
    have hlt' : t.passAFailCounts t.attackingTeam + 1 < 3 := hlt
    omega
  | reset => simp only [Function.update_self]
  | enters hno => exact absurd (hpass.symm.trans hno) (by simp)
  | climbs hno => exact absurd (hpass.symm.trans hno) (by simp)

end MatchInv

/-! ### What a call does to the match -/

variable {e e' : GameEngine} {log : RoundLog} {order : List Nat} {mlog : MatchLog} {op : EngineOp}
  {out : EngineOut} {r : PlayResult}

/-- A call that neither deals nor settles. -/
structure SameMatch (e e' : GameEngine) : Prop where
  progress : e'.progress = e.progress
  flags : Ongoing e' → Ongoing e ∧ e'.state.attackingTeam = e.state.attackingTeam ∧
    e'.state.isPassARound = e.state.isPassARound

inductive MatchStep (e : GameEngine) : EngineOp → GameEngine → EngineOut → Prop
  | same {op : EngineOp} {e' : GameEngine} {out : EngineOut} : SameMatch e e' →
      EndsRound op out e' = none → MatchStep e op e' out
  | deals {op : EngineOp} {e' : GameEngine} {out : EngineOut} :
      e'.progress = e.progress.prepareNextRound →
      e'.state.attackingTeam = e'.progress.attackingTeam →
      e'.state.isPassARound = e'.progress.isPassARound →
      EndsRound op out e' = none → MatchStep e op e' out
  | settles {id : PlayerId} {cards : List CardId} {e' : GameEngine} {r : PlayResult} :
      Settles e e' r → EndsRound (.playCards id cards) (.result r) e' = some r.settlement →
      MatchStep e (.playCards id cards) e' (.result r)

namespace SameMatch

theorem refl (e : GameEngine) : SameMatch e e := ⟨rfl, fun h => ⟨h, rfl, rfl⟩⟩

theorem submitTribute {id : PlayerId} {cardId : CardId}
    (hsubmit : e.submitTribute id cardId = some (e', r)) : SameMatch e e' := by
  rcases submitTribute_cases hsubmit with ⟨rfl, -⟩ | ⟨seat, hphase, -, -, -, -, hrest⟩
  · exact .refl _
  have hon : Ongoing e := .inr (.inl hphase)
  rcases hrest with ⟨-, rfl, -⟩ | ⟨-, hclose⟩
  · exact ⟨rfl, fun _ => ⟨hon, rfl, rfl⟩⟩
  · obtain ⟨s, result, hassign, hrest⟩ := closeTributes_cases hclose
    obtain ⟨pending, -, rfl, -⟩ := TributeManager.assignTributes_cases hassign
    rcases hrest with ⟨-, hfinish⟩ | ⟨-, -, rfl⟩
    · obtain ⟨-, first, -, rfl⟩ := finishTributePhase_cases hfinish
      exact ⟨rfl, fun _ => ⟨hon, rfl, rfl⟩⟩
    · exact ⟨rfl, fun _ => ⟨hon, rfl, rfl⟩⟩

theorem submitReturn {id : PlayerId} {cardId : CardId}
    (hsubmit : e.submitReturn id cardId = some (e', r)) : SameMatch e e' := by
  rcases submitReturn_cases hsubmit with ⟨rfl, -⟩ | ⟨seat, hphase, -, -, -, -, rfl, -⟩
  · exact .refl _
  · refine ⟨rfl, fun _ => ⟨.inr (.inr hphase), ?_⟩⟩
    rw [recordReturn_state]
    exact ⟨rfl, rfl⟩

theorem pass {id : PlayerId} (hpass : e.pass id = some (e', r)) : SameMatch e e' := by
  rcases pass_eq hpass with ⟨rfl, -⟩ | ⟨-, cards, pattern, last, count, current, turn, rfl⟩
  · exact .refl _
  · exact ⟨rfl, fun h => ⟨h, rfl, rfl⟩⟩

theorem setPlayerReady (e : GameEngine) (id : PlayerId) (ready : Bool) :
    SameMatch e (e.setPlayerReady id ready) := by
  unfold GameEngine.setPlayerReady
  split
  · exact ⟨rfl, fun h => ⟨h, rfl, rfl⟩⟩
  · exact .refl _

end SameMatch

theorem endsRound_of_ongoing {id : PlayerId} {cards : List CardId}
    (h : e'.state.phase ≠ .finished) : EndsRound (.playCards id cards) (.result r) e' = none :=
  if_neg fun hover => h hover.2

theorem matchStep_playCards {id : PlayerId} {cards : List CardId} (hrank : RankInv e order)
    (hseating : SeatingInv e log) (hplay : e.playCards id cards = some (e', r)) :
    MatchStep e (.playCards id cards) e' (.result r) := by
  have hsettles := (hrank.playCards hseating hplay).2
  rcases playCards_cases hplay with ⟨rfl, hcode, -⟩ | ⟨seat, pattern, hok, hcode, hrest⟩
  · exact .same (.refl _) (if_neg fun hover => hcode hover.1)
  have hgoes : ∀ e₁ : GameEngine, e₁.state.phase = e.state.phase → e₁.progress = e.progress →
      e₁.state.attackingTeam = e.state.attackingTeam →
      e₁.state.isPassARound = e.state.isPassARound → e₁.passTurnOn = some (e', r) →
      MatchStep e (.playCards id cards) e' (.result r) := by
    intro e₁ hphase hprogress hattack hpassA hturn
    obtain ⟨i, turn, rfl⟩ := passTurnOn_frame hturn
    have hplaying := hphase.trans hok.phase
    refine .same ⟨hprogress, fun _ => ⟨.inl hok.phase, hattack, hpassA⟩⟩
      (endsRound_of_ongoing fun hover => ?_)
    exact absurd (hplaying.symm.trans hover) nofun
  rcases hrest with ⟨-, hturn⟩ | ⟨-, -, hturn⟩ | ⟨-, -, hfinish⟩
  · exact hgoes (e.acceptPlay seat cards pattern) rfl rfl rfl rfl hturn
  · exact hgoes ((e.acceptPlay seat cards pattern).goOut seat) rfl rfl rfl rfl hturn
  · have hphase : e'.state.phase = .finished := by
      have hfin := (finishRound_frame ((e.acceptPlay seat cards pattern).goOut seat)).2.2.2
      rw [hfinish] at hfin
      exact hfin
    exact .settles (hsettles hcode hphase) (if_pos ⟨hcode, hphase⟩)

theorem matchStep (hrank : RankInv e order) (hround : RoundInv e log) (hok : CalledOp e op)
    (hstep : engine.step e op = some (e', out)) : MatchStep e op e' out := by
  cases engine_step hstep with
  | init hinit =>
    unfold GameEngine.init at hinit
    split_ifs at hinit
    cases hinit
    refine .same ⟨rfl, fun hon => ?_⟩ rfl
    rcases hon with hp | hp | hp <;> cases hp
  | setPlayerReady id ready => exact .same (.setPlayerReady e id ready) rfl
  | updateConfig config =>
    refine .same ?_ rfl
    unfold GameEngine.updateConfig
    split_ifs
    · exact .refl _
    · exact ⟨rfl, fun h => ⟨h, rfl, rfl⟩⟩
  | startGame hstart =>
    rcases startGame_cases hstart with ⟨rfl, -⟩ | ⟨-, -, -, e₁, hdeal, rfl⟩
    · exact .same (.refl _) rfl
    · obtain ⟨hands, -, rfl⟩ := dealRound_cases hdeal
      exact .deals rfl rfl rfl rfl
  | startGameThrew σ hnone =>
    have hsome := hround.seating.startGame_isSome σ
    rw [hnone] at hsome
    cases hsome
  | startNextRound hstart =>
    rcases startNextRound_cases hstart with ⟨rfl, -⟩ | ⟨-, -, e₁, hdeal, htribute⟩
    · exact .same (.refl _) rfl
    · obtain ⟨hands, -, rfl⟩ := dealRound_cases hdeal
      obtain ⟨plan, -, ⟨result, -, rfl⟩ | ⟨-, -, rfl⟩⟩ := startTribute_cases htribute
      · exact .deals rfl rfl rfl rfl
      · exact .deals rfl rfl rfl rfl
  | startNextRoundThrew σ hnone =>
    have hsome := hround.startNextRound_isSome σ
    rw [hnone] at hsome
    cases hsome
  | playCards hplay => exact matchStep_playCards hrank hround.seating hplay
  | pass hpass => exact .same (.pass hpass) rfl
  | submitTribute hsubmit => exact .same (.submitTribute hsubmit) rfl
  | submitReturn hsubmit => exact .same (.submitReturn hsubmit) rfl
  | finalizeTributePhase hfin =>
    have hphase := phase_of_pending (e := e) hok
    obtain ⟨-, first, -, rfl⟩ := finishTributePhase_cases hfin
    exact .same ⟨rfl, fun _ => ⟨.inr hphase, rfl, rfl⟩⟩ rfl
  | buildViewFor _ => exact .same (.refl _) rfl

/-! ### Along a run -/

/-- A settled round: the winner attacks next, the match is won exactly by the attackers of a pass-A
round, no level falls but with a third failure, and with that it does. -/
theorem MatchInv.settles (h : MatchInv e.progress mlog) (hshown : Shown e)
    (hmode : ModeFacts e.config) (hsettles : Settles e e' r) :
    ∃ w, r.settlement.winningTeam = some w ∧ MatchInv e'.progress (mlog.settle e.progress w) ∧
      (∀ team, e'.progress.levels team < e.progress.levels team →
        Falls e.progress e'.progress mlog w team) ∧
      (∀ team, failedTeam e r.settlement = some team → e.progress.passAFailCounts team = 2 →
        e'.progress.levels team = 2) ∧
      (r.settlement.matchWon = true ↔
        e.state.isPassARound = true ∧ r.settlement.winningTeam = some e.state.attackingTeam) := by
  obtain ⟨s, order, -, hranked, hperm, hcount, hteam, happly⟩ := hsettles.settled
  obtain ⟨head, -, -, hwin, hbounds⟩ := hranked.calculate hperm hcount hmode.perTeam hteam
  have hpos := hbounds.pos hmode.perTeam
  have hnot : (Settlement.calculate s e.config.playersPerTeam).matchWon = false := by
    unfold Settlement.calculate
    dsimp only
    split <;> rfl
  obtain ⟨⟨t₁, hout, hprogress⟩, hwin', -, hwon⟩ :=
    TeamProgress.applySettlement_cases hwin hpos happly.symm
  obtain ⟨hattack, hpassA⟩ := hshown (.inl hsettles.playing)
  obtain ⟨hinv, hfalls⟩ := h.outcome hout
  refine ⟨_, hwin', ?_, fun team hlt => ?_, fun team hfailed hcounter => ?_, ?_⟩
  · rw [hprogress]
    exact hinv
  · rw [hprogress] at hlt
    obtain ⟨h1, h2, h3, h4, h5, h6⟩ := hfalls team hlt
    exact ⟨h1, h2, h3, h4, h5, by rw [hprogress]; exact h6⟩
  · rw [failedTeam, hattack, hpassA, hwin'] at hfailed
    obtain ⟨⟨hround, hlost⟩, hteam⟩ := Option.ite_none_right_eq_some.1 hfailed
    obtain rfl := Option.some.inj hteam
    have hlevel := MatchInv.levels_of_failed hout hround rfl (by simpa using hlost) hcounter
    rw [hprogress]
    exact hlevel
  · rw [hwon, hnot, hpassA, hattack, hwin', Option.some.injEq]
    simp

/-- All that a run keeps, for some log and order of the round. -/
structure MatchFacts (e : GameEngine) (mlog : MatchLog) : Prop where
  progress : MatchInv e.progress mlog
  shown : Shown e
  round : ∃ order log, RankInv e order ∧ RoundInv e log

theorem matchFacts_newEngine (mode : String) : MatchFacts (newEngine mode).1 {} := by
  have hstart : finishEngine.Reachable (fun sg => CalledOp sg.1) ((newEngine mode).1, [])
      ((newEngine mode).1, []) := .refl
  have hrank := (rankInv_reachable hstart).1
  refine ⟨⟨fun team => ?_, fun h0 => absurd h0 (Nat.lt_irrefl _), fun _ => rfl⟩, fun hon => ?_,
    [], _, hrank, roundInv_newEngine mode⟩
  · exact (⟨by decide, by decide, rfl, fun _ => rfl⟩ : Standing 2 false 0 0)
  · rcases hon with hp | hp | hp <;> cases hp

theorem recordMatch_settles {settlement : SettlementResult} {w : Team}
    (hends : EndsRound op out e' = some settlement) (hwin : settlement.winningTeam = some w)
    (hattack : e.state.attackingTeam = e.progress.attackingTeam)
    (hpassA : e.state.isPassARound = e.progress.isPassARound) :
    recordMatch mlog e op out e' = mlog.settle e.progress w := by
  unfold recordMatch MatchLog.settle
  rw [hends]
  dsimp only [failedTeam]
  rw [hwin, hattack, hpassA]
  by_cases hfail : e.progress.isPassARound = true ∧ w ≠ e.progress.attackingTeam
  · rw [if_pos hfail, if_pos ⟨hfail.1, by simpa using hfail.2⟩]
  · rw [if_neg hfail, if_neg (by simpa using hfail)]

theorem MatchFacts.step (h : MatchFacts e mlog) (hok : CalledOp e op)
    (hstep : engine.step e op = some (e', out)) :
    MatchFacts e' (recordMatch mlog e op out e') := by
  obtain ⟨order, log, hrank, hround⟩ := h.round
  have hround' := hround.step hok hstep
  have hrank' := hrank.step hround hok hstep
  cases matchStep hrank hround hok hstep with
  | same hsame hends =>
    refine ⟨?_, fun hon => ?_, _, _, hrank', hround'⟩
    · rw [recordMatch, hends, hsame.progress]
      exact h.progress
    · obtain ⟨hon', hattack, hpassA⟩ := hsame.flags hon
      rw [hattack, hpassA, hsame.progress]
      exact h.shown hon'
  | deals hprogress hattack hpassA hends =>
    refine ⟨?_, fun _ => ⟨hattack, hpassA⟩, _, _, hrank', hround'⟩
    rw [recordMatch, hends, hprogress, h.progress.prepareNextRound]
    exact h.progress
  | settles hsettles hends =>
    obtain ⟨hattack, hpassA⟩ := h.shown (.inl hsettles.playing)
    obtain ⟨w, hwin, hinv, -⟩ :=
      h.progress.settles h.shown hround.seating.mode.facts hsettles
    refine ⟨?_, fun hon => ?_, _, _, hrank', hround'⟩
    · rw [recordMatch_settles hends hwin hattack hpassA]
      exact hinv
    · rcases hon with hp | hp | hp <;> exact absurd (hsettles.finished.symm.trans hp) nofun

theorem matchFacts_reachable {mode : String} {sg : GameEngine × MatchLog}
    (h : matchEngine.Reachable (fun sg => CalledOp sg.1) ((newEngine mode).1, {}) sg) :
    MatchFacts sg.1 sg.2 := by
  refine h.invariant (P := fun sg => MatchFacts sg.1 sg.2) (matchFacts_newEngine mode) ?_
  intro sg op sg' out hinv hok hstep
  obtain ⟨happly, hlog⟩ := Machine.withHistory_step.1 hstep
  rw [hlog]
  exact hinv.step hok happly

/-- In every state that an engine of a mode reaches while the tribute phase is finalized only when it is
on (`CalledOp`), the levels, phases and counters are in order, and after the first settlement the last
winner attacks (`MatchInv`). A call lowers a team's level only if it settles the third pass-A round that
the team has failed; that settlement always sets the level to 2; and a settlement reports the match won
exactly if the round was dealt as a pass-A round and its attackers won it. -/
theorem match_progress (mode : String) (sg : GameEngine × MatchLog)
    (h : matchEngine.Reachable (fun sg => CalledOp sg.1) ((newEngine mode).1, {}) sg) :
    MatchInv sg.1.progress sg.2 ∧
    ∀ op e' out, CalledOp sg.1 op → engine.step sg.1 op = some (e', out) →
      (∀ team, e'.progress.levels team < sg.1.progress.levels team →
        ∃ settlement, EndsRound op out e' = some settlement ∧
          failedTeam sg.1 settlement = some team ∧ sg.1.progress.passAFailCounts team = 2 ∧
          (sg.2.failed team + 1) % kPassAFailLimit = 0 ∧ e'.progress.levels team = 2) ∧
      (∀ settlement team, EndsRound op out e' = some settlement →
        failedTeam sg.1 settlement = some team → sg.1.progress.passAFailCounts team = 2 →
        e'.progress.levels team = 2) ∧
      ∀ settlement, EndsRound op out e' = some settlement → (settlement.matchWon = true ↔
        sg.1.state.isPassARound = true ∧
          settlement.winningTeam = some sg.1.state.attackingTeam) := by
  have hfacts := matchFacts_reachable h
  refine ⟨hfacts.progress, fun op e' out hok hstep => ?_⟩
  obtain ⟨order, log, hrank, hround⟩ := hfacts.round
  cases matchStep hrank hround hok hstep with
  | same hsame hends =>
    refine ⟨fun team hlt => ?_, fun settlement team hsettles => ?_, fun settlement hsettles => ?_⟩
    · rw [hsame.progress] at hlt
      exact absurd hlt (Nat.lt_irrefl _)
    · rw [hends] at hsettles
      cases hsettles
    · rw [hends] at hsettles
      cases hsettles
  | deals hprogress hattack hpassA hends =>
    refine ⟨fun team hlt => ?_, fun settlement team hsettles => ?_, fun settlement hsettles => ?_⟩
    · rw [hprogress, hfacts.progress.prepareNextRound] at hlt
      exact absurd hlt (Nat.lt_irrefl _)
    · rw [hends] at hsettles
      cases hsettles
    · rw [hends] at hsettles
      cases hsettles
  | settles hsettles hends =>
    obtain ⟨hattack, hpassA⟩ := hfacts.shown (.inl hsettles.playing)
    obtain ⟨w, hwin, -, hfalls, hreset, hwon⟩ :=
      hfacts.progress.settles hfacts.shown hround.seating.mode.facts hsettles
    refine ⟨fun team hlt => ?_, fun settlement team hsettles' => ?_, fun settlement hsettles' => ?_⟩
    · have hfall := hfalls team hlt
      refine ⟨_, hends, ?_, hfall.counter, hfall.third, hfall.level⟩
      rw [failedTeam, hwin, hattack, hpassA, hfall.attacks, if_pos]
      exact ⟨hfall.round, by simpa using hfall.lost⟩
    · rw [hends, Option.some.injEq] at hsettles'
      rw [← hsettles']
      exact hreset team
    · rw [hends, Option.some.injEq] at hsettles'
      rw [← hsettles']
      exact hwon

theorem match_progress_doubleDown : ∃ sg,
    matchEngine.run ((newEngine "solo").1, {}) doubleDown = some sg ∧ sg.2.settled = 1 ∧
    MatchInv sg.1.progress sg.2 ∧ sg.1.progress.levels 0 = 5 := by
  have hok : matchEngine.Follows (fun sg => CalledOp sg.1) ((newEngine "solo").1, {}) doubleDown :=
    .of_forall (by simp [doubleDown, startSolo, CalledOp])
  obtain ⟨sg, hrun, hsettled, hlevel⟩ := Machine.exists_run_of_any
    (M := matchEngine) (s := ((newEngine "solo").1, {}))
    (P := fun sg => sg.2.settled = 1 ∧ sg.1.progress.levels 0 = 5)
    (l := doubleDown) (by decide +kernel)
  exact ⟨sg, hrun, hsettled, (match_progress "solo" sg (Machine.reachable_of_run hok hrun)).1,
    hlevel⟩

end Guandan
