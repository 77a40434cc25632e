import Guandan.Engine.PureExchange

/-!
# The protocol of a trick

While a round is played, `passCount` is the number of unfinished seats between the last player to
have played and the player to act (`Trick`). A pass therefore closes the trick, by either of the two
tests that `GameEngine.pass` makes, exactly when it is the last one missing (`acceptPass_cases`).
The history of a trick is the list of the seats that have passed since the last accepted play.
-/

namespace Guandan

open GameState GameEngine

namespace GameState

/-- The unfinished seats but for the leader's. -/
def others (s : GameState) (leader : Nat) : List Nat :=
  (List.range s.playerCount).filter fun i => s.active i && i != leader

/-- The unfinished seats strictly between the leader and the player to act, in the order of play. -/
def between (s : GameState) (leader : Nat) : List Nat :=
  Cyclic.within s.playerCount s.active leader
    (Cyclic.dist s.playerCount leader s.currentPlayerIndex - 1)

/-- The unfinished teammates of the leader. -/
def teammate (s : GameState) (leader seat : Nat) : Bool :=
  s.active seat && (s.players seat).team == (s.players leader).team

/-- What holds of the turn and the table while a round is played. -/
structure Trick (s : GameState) : Prop where
  seat : s.currentPlayerIndex < s.playerCount
  unfinished : s.active s.currentPlayerIndex = true
  holds : s.hands s.currentPlayerIndex ≠ []
  teams : ∀ team : Team, ∃ i < s.playerCount, s.active i = true ∧ (s.players i).team = team
  table : s.lastPattern.isValid = true ↔
    ∃ leader < s.playerCount, s.lastPlayedPlayerIndex = some leader
  open_trick : s.lastPattern.isValid = true → ∀ leader, s.lastPlayedPlayerIndex = some leader →
    s.currentPlayerIndex ≠ leader ∧ s.passCount = (s.between leader).length
  clear : s.lastPattern.isValid = false → s.passCount = 0

variable {s : GameState} {leader d : Nat}

/-! ### The turn -/

theorem length_others (hl : leader < s.playerCount) : (s.others leader).length =
    (Cyclic.within s.playerCount s.active leader (s.playerCount - 1)).length :=
  (Cyclic.within_perm hl).length_eq.symm

/-- While not all others have had their turn, the turn goes to the next of them. -/
theorem advanceTurn_between (leader d : Nat) (hl : leader < s.playerCount) (hd : d < s.playerCount)
    (hcur : s.currentPlayerIndex = (leader + d) % s.playerCount)
    (hlt : (Cyclic.within s.playerCount s.active leader d).length < (s.others leader).length) :
    s.advanceTurn.currentPlayerIndex < s.playerCount ∧
      s.active s.advanceTurn.currentPlayerIndex = true ∧
      s.advanceTurn.currentPlayerIndex ≠ leader ∧
      s.advanceTurn.between leader = Cyclic.within s.playerCount s.active leader d := by
  rw [length_others hl] at hlt
  obtain ⟨d', hdd, hdn, hnext, hact, hwithin⟩ := Cyclic.next?_within hd hlt
  have hnew : s.advanceTurn.currentPlayerIndex = (leader + d') % s.playerCount := by
    show s.nextActivePlayer s.currentPlayerIndex = _
    rw [nextActivePlayer, hcur, hnext, Option.getD_some]
  have hdist := Cyclic.dist_add hl hdn
  refine ⟨?_, ?_, fun heq => ?_, ?_⟩
  · rw [hnew]
    exact Nat.mod_lt _ (by omega)
  · rw [hnew]
    exact hact
  · rw [← hnew, heq, Cyclic.dist, show leader + s.playerCount - leader = s.playerCount by omega,
      Nat.mod_self] at hdist
    omega
  · show Cyclic.within s.playerCount s.active leader
      (Cyclic.dist s.playerCount leader s.advanceTurn.currentPlayerIndex - 1) = _
    rw [hnew, hdist, hwithin]

/-- The player to act is the next one in the order of play. -/
theorem Trick.between_append (h : Trick s) (hl : leader < s.playerCount)
    (hne : s.currentPlayerIndex ≠ leader) : s.between leader ++ [s.currentPlayerIndex] =
      Cyclic.within s.playerCount s.active leader
        (Cyclic.dist s.playerCount leader s.currentPlayerIndex) := by
  have hpos := Cyclic.dist_pos hl h.seat (Ne.symm hne)
  obtain ⟨d, hd⟩ : ∃ d, Cyclic.dist s.playerCount leader s.currentPlayerIndex = d + 1 :=
    ⟨_, (Nat.succ_pred_eq_of_pos hpos).symm⟩
  have hadd := Cyclic.add_dist hl h.seat
  rw [hd] at hadd
  rw [between, hd, Nat.add_sub_cancel, Cyclic.within_succ, hadd, if_pos h.unfinished]

/-- The passes so far and that of the player to act are among those of the others, one each. -/
theorem Trick.passed_perm_iff (h : Trick s) (hvalid : s.lastPattern.isValid = true)
    (hlast : s.lastPlayedPlayerIndex = some leader) (hl : leader < s.playerCount) :
    (s.between leader ++ [s.currentPlayerIndex]).Perm (s.others leader) ↔
      (s.between leader ++ [s.currentPlayerIndex]).length = (s.others leader).length := by
  have hd : Cyclic.dist s.playerCount leader s.currentPlayerIndex < s.playerCount :=
    Cyclic.dist_lt (by omega)
  have hsub := Cyclic.within_sublist (n := s.playerCount) (p := s.active) (a := leader)
    (show Cyclic.dist s.playerCount leader s.currentPlayerIndex ≤ s.playerCount - 1 by omega)
  rw [← h.between_append hl (h.open_trick hvalid leader hlast).1] at hsub
  constructor
  · exact fun hperm => hperm.length_eq
  · intro hlen
    rw [length_others hl] at hlen
    rw [hsub.eq_of_length hlen]
    exact Cyclic.within_perm hl

theorem shouldResetRoundAfterPass_of_last (hlast : s.lastPlayedPlayerIndex = some leader)
    (seat : Nat) : s.shouldResetRoundAfterPass seat = (s.nextActivePlayer seat == leader) := by
  rw [shouldResetRoundAfterPass, hlast]

/-- Both closing tests of `pass` amount to everybody else having passed. -/
theorem Trick.closes_iff (h : Trick s) (hvalid : s.lastPattern.isValid = true)
    (hlast : s.lastPlayedPlayerIndex = some leader) (hl : leader < s.playerCount) :
    (({ s with passCount := s.passCount + 1 }.incrementStateVersion.shouldResetRoundAfterPass
        s.currentPlayerIndex ||
      { s with passCount := s.passCount + 1 }.incrementStateVersion.allOthersPassed) = true) ↔
      (s.between leader ++ [s.currentPlayerIndex]).length = (s.others leader).length := by
  obtain ⟨hne, hcount⟩ := h.open_trick hvalid leader hlast
  have happend := h.between_append hl hne
  have hd : Cyclic.dist s.playerCount leader s.currentPlayerIndex < s.playerCount :=
    Cyclic.dist_lt (by omega)
  have hcur := Cyclic.add_dist hl h.seat
  have hpassed : s.passCount + 1 = (s.between leader ++ [s.currentPlayerIndex]).length := by
    rw [List.length_append, List.length_singleton, hcount]
  have hsub := (Cyclic.within_sublist (n := s.playerCount) (p := s.active) (a := leader)
    (show Cyclic.dist s.playerCount leader s.currentPlayerIndex ≤ s.playerCount - 1 by
      omega)).length_le
  rw [← happend, ← length_others hl] at hsub
  have hresponders : (List.range s.playerCount).countP
      (fun i => s.active i && some i != s.lastPlayedPlayerIndex) = (s.others leader).length := by
    rw [List.countP_eq_length_filter, others, hlast]
    rfl
  have hothers : ({ s with passCount := s.passCount + 1 }.incrementStateVersion.allOthersPassed
      = true) ↔ (s.others leader).length ≤ s.passCount + 1 := by
    show (decide (0 < (List.range s.playerCount).countP
        (fun i => s.active i && some i != s.lastPlayedPlayerIndex)) &&
      decide ((List.range s.playerCount).countP
        (fun i => s.active i && some i != s.lastPlayedPlayerIndex) ≤ s.passCount + 1)) = true ↔ _
    rw [hresponders, Bool.and_eq_true, decide_eq_true_eq, decide_eq_true_eq]
    omega
  rw [Bool.or_eq_true, hothers, hpassed]
  constructor
  · rintro (hreset | hall)
    · -- if somebody else were still to act, that seat would be next and not the leader's
      by_contra hnot
      have hlt : (Cyclic.within s.playerCount s.active leader
          (Cyclic.dist s.playerCount leader s.currentPlayerIndex)).length <
          (s.others leader).length := by
        rw [← happend]
        omega
      have hnext := (advanceTurn_between _ _ hl hd hcur.symm hlt).2.2.1
      refine hnext (beq_iff_eq.1 ((shouldResetRoundAfterPass_of_last ?_ _).symm.trans hreset))
      exact hlast
    · omega
  · exact fun heq => .inr heq.ge

/-- The lead passes from a leader who is out to the first unfinished teammate. -/
theorem resolveRoundLeadSeat_eq (hteam : ∃ i < s.playerCount, s.teammate leader i = true)
    (hl : leader < s.playerCount) :
    s.resolveRoundLeadSeat leader < s.playerCount ∧
      s.active (s.resolveRoundLeadSeat leader) = true ∧
      (s.active leader = true → s.resolveRoundLeadSeat leader = leader) ∧
      (s.active leader = false → Cyclic.next? s.playerCount (s.teammate leader) leader =
        some (s.resolveRoundLeadSeat leader)) := by
  unfold resolveRoundLeadSeat
  by_cases hfin : (s.players leader).hasFinished = true
  · have hout : s.active leader = false := by simp [active, hfin]
    obtain ⟨i, hi, hp⟩ := hteam
    obtain ⟨j, hj⟩ := Option.isSome_iff_exists.1 (Cyclic.next?_isSome hl hi hp)
    have hwind : s.windPartnerSeat leader = j := by
      rw [windPartnerSeat, if_neg (by omega)]
      show (Cyclic.next? s.playerCount (s.teammate leader) leader).getD _ = j
      rw [hj, Option.getD_some]
    have hsat := Cyclic.next?_sat hj
    rw [if_pos hfin, hwind]
    refine ⟨Cyclic.next?_lt (by omega) hj, ?_, by simp [hout], fun _ => hj⟩
    simp only [teammate, Bool.and_eq_true] at hsat
    exact hsat.1
  · have hact : s.active leader = true := by simpa [active] using hfin
    rw [if_neg hfin]
    exact ⟨hl, hact, fun _ => rfl, by simp [hact]⟩

/-! ### A play -/

/-- A state in which `cur` has just played, and some other seat is unfinished: it is the turn of the
next one, and nobody has passed. -/
theorem trick_of_play {s s' : GameState} {cur : Nat} (hcur : s.currentPlayerIndex = cur)
    (hlt : cur < s.playerCount) (hvalid : s.lastPattern.isValid = true)
    (hlast : s.lastPlayedPlayerIndex = some cur) (hpass : s.passCount = 0)
    (hteams : ∀ team : Team, ∃ i < s.playerCount, s.active i = true ∧ (s.players i).team = team)
    (hhands : ∀ i < s.playerCount, s.active i = true → s.hands i ≠ [])
    (hs : s.advanceTurn.skipFinishedPlayers = some s') : Trick s' ∧ s'.between cur = [] := by
  have hother : 0 < (s.others cur).length := by
    -- the two teams are not both of `cur`'s
    obtain ⟨i, hi, hact, hne⟩ : ∃ i < s.playerCount, s.active i = true ∧ i ≠ cur := by
      obtain ⟨i, hi, hact, hti⟩ := hteams ((s.players cur).team + 1)
      refine ⟨i, hi, hact, fun heq => ?_⟩
      rw [heq] at hti
      revert hti
      generalize (s.players cur).team = team
      revert team
      decide
    refine List.length_pos_of_mem (a := i) ?_
    simp [others, hi, hact, hne]
  have hturn := advanceTurn_between cur 0 hlt (by omega)
    (by rw [hcur, Nat.add_zero, Nat.mod_eq_of_lt hlt]) hother
  obtain ⟨hseat, hact, hne, hbetween⟩ := hturn
  have hact' : s.advanceTurn.active s.advanceTurn.currentPlayerIndex = true := hact
  rw [skipFinishedPlayers_of_active hact', Option.some.injEq] at hs
  subst hs
  refine ⟨⟨hseat, hact, hhands _ hseat hact, hteams, ?_, fun _ leader hleader => ?_, fun hno => ?_⟩,
    hbetween⟩
  · exact iff_of_true hvalid ⟨cur, hlt, hlast⟩
  · have heq : some leader = some cur := hleader.symm.trans hlast
    cases heq
    refine ⟨hne, ?_⟩
    rw [hbetween]
    exact hpass
  · exact absurd (hvalid.symm.trans hno) (by decide)

end GameState

/-! ### A pass -/

namespace GameEngine

variable {e : GameEngine} {leader : Nat}

/-- The leader who takes the trick, or whoever catches the wind. -/
def LeadsNext (s : GameState) (leader next : Nat) : Prop :=
  (s.active leader = true → next = leader) ∧
    (s.active leader = false →
      Cyclic.next? s.playerCount (s.teammate leader) leader = some next)

theorem acceptPass_of_last (hlast : e.state.lastPlayedPlayerIndex = some leader) (seat : Nat) :
    e.acceptPass seat =
      let s := { e.state with passCount := e.state.passCount + 1 }.incrementStateVersion
      if s.shouldResetRoundAfterPass seat || s.allOthersPassed then s.resetRound leader
      else s.advanceTurn := by
  obtain ⟨config, state⟩ := e
  cases state
  cases hlast
  rfl

/-- A pass closes the trick when it is the last one missing. -/
theorem acceptPass_closes (h : Trick e.state) (hvalid : e.state.lastPattern.isValid = true)
    (hlast : e.state.lastPlayedPlayerIndex = some leader) (hl : leader < e.state.playerCount)
    (hhands : ∀ i < e.state.playerCount, e.state.active i = true → e.state.hands i ≠ [])
    (hall : (e.state.between leader ++ [e.state.currentPlayerIndex]).length =
      (e.state.others leader).length) :
    (e.acceptPass e.state.currentPlayerIndex).lastPlayedPlayerIndex = none ∧
      Trick (e.acceptPass e.state.currentPlayerIndex) ∧
      LeadsNext e.state leader (e.acceptPass e.state.currentPlayerIndex).currentPlayerIndex := by
  have hreset : e.acceptPass e.state.currentPlayerIndex =
      resetRound { e.state with passCount := e.state.passCount + 1 }.incrementStateVersion
        leader := by
    rw [acceptPass_of_last hlast]
    exact if_pos ((h.closes_iff hvalid hlast hl).2 hall)
  obtain ⟨i, hi, hact, hteam⟩ := h.teams (e.state.players leader).team
  have hmate : e.state.teammate leader i = true := by simp [teammate, hact, hteam]
  obtain ⟨hlt, hact', hin, hout⟩ := resolveRoundLeadSeat_eq ⟨i, hi, hmate⟩ hl
  have hnext : (e.acceptPass e.state.currentPlayerIndex).currentPlayerIndex =
      e.state.resolveRoundLeadSeat leader := by
    rw [hreset]
    rfl
  rw [hnext]
  refine ⟨by rw [hreset]; rfl, ?_, hin, hout⟩
  rw [hreset]
  refine ⟨hlt, hact', hhands _ hlt hact', h.teams, ?_, fun hv => ?_, fun _ => rfl⟩
  · refine iff_of_false (fun hv => ?_) ?_
    · cases hv
    · rintro ⟨j, -, hj⟩
      cases hj
  · cases hv

/-- Any other pass hands the turn on. -/
theorem acceptPass_continues (h : Trick e.state) (hvalid : e.state.lastPattern.isValid = true)
    (hlast : e.state.lastPlayedPlayerIndex = some leader) (hl : leader < e.state.playerCount)
    (hhands : ∀ i < e.state.playerCount, e.state.active i = true → e.state.hands i ≠ [])
    (hall : (e.state.between leader ++ [e.state.currentPlayerIndex]).length ≠
      (e.state.others leader).length) :
    (e.acceptPass e.state.currentPlayerIndex).lastPlayedPlayerIndex = some leader ∧
      Trick (e.acceptPass e.state.currentPlayerIndex) ∧
      (e.acceptPass e.state.currentPlayerIndex).between leader =
        e.state.between leader ++ [e.state.currentPlayerIndex] := by
  obtain ⟨hne, hcount⟩ := h.open_trick hvalid leader hlast
  have happend := h.between_append hl hne
  have hd : Cyclic.dist e.state.playerCount leader e.state.currentPlayerIndex <
      e.state.playerCount := Cyclic.dist_lt (by omega)
  have hsub := (Cyclic.within_sublist (n := e.state.playerCount) (p := e.state.active)
    (a := leader) (show Cyclic.dist e.state.playerCount leader e.state.currentPlayerIndex ≤
      e.state.playerCount - 1 by omega)).length_le
  rw [← happend, ← length_others hl] at hsub
  have hgo : e.acceptPass e.state.currentPlayerIndex =
      advanceTurn { e.state with passCount := e.state.passCount + 1 }.incrementStateVersion := by
    rw [acceptPass_of_last hlast]
    exact if_neg fun hclose => hall ((h.closes_iff hvalid hlast hl).1 hclose)
  obtain ⟨hseat, hact, hnext, hbetween⟩ := advanceTurn_between _ _
    (s := { e.state with passCount := e.state.passCount + 1 }.incrementStateVersion) hl hd
    (Cyclic.add_dist hl h.seat).symm
    (show (Cyclic.within e.state.playerCount e.state.active leader
        (Cyclic.dist e.state.playerCount leader e.state.currentPlayerIndex)).length <
      (e.state.others leader).length by
      rw [← happend]
      omega)
  rw [hgo]
  have hbetween' := hbetween.trans happend.symm
  refine ⟨hlast, ⟨hseat, hact, hhands _ hseat hact, h.teams, ?_, fun _ j hj => ?_, fun hno => ?_⟩,
    hbetween'⟩
  · exact iff_of_true hvalid ⟨leader, hl, hlast⟩
  · have heq : some j = some leader := hj.symm.trans hlast
    cases heq
    refine ⟨hnext, ?_⟩
    rw [hbetween', List.length_append, List.length_singleton, ← hcount]
    rfl
  · exact absurd (hvalid.symm.trans hno) (by decide)

end GameEngine

end Guandan
