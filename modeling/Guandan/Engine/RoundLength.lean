import Guandan.Engine.BotPlays
import Guandan.Engine.Refusals
import Guandan.Rules.Grammar
import Guandan.Library.Progress

/-!
# How long a round can last

While a round is played there is a turn to accept, and every accepted turn uses up something: a play the
cards it takes from a hand, a pass one of the passes that the trick has left. So a round of `n` players who
hold `c` cards is over in less than `n * (c + 1)` more turns. This needs plays that name no card twice: a
play that does takes nothing from the hand, and with such plays every round can go on for ever.
-/

namespace Guandan

open GameState GameEngine

namespace GameState

/-- The cards still in hand. -/
def cardsHeld (s : GameState) : Nat := s.handBag.card

/-- The passes until the trick is closed. -/
def passesLeft (s : GameState) : Nat :=
  if s.lastPattern.isValid then (s.others (s.lastPlayedPlayerIndex.getD 0)).length - s.passCount else 0

variable {s : GameState} {leader : Nat}

theorem length_others_lt (hl : leader < s.playerCount) :
    (s.others leader).length < s.playerCount := by
  rw [others, ← List.countP_eq_length_filter]
  refine lt_of_lt_of_eq (List.countP_lt_length_iff.2 ⟨leader, List.mem_range.2 hl, ?_⟩)
    List.length_range
  simp

/-- The player to move has not passed yet. -/
theorem Trick.passCount_lt (h : Trick s) (hvalid : s.lastPattern.isValid = true)
    (hlast : s.lastPlayedPlayerIndex = some leader) (hl : leader < s.playerCount) :
    s.passCount < (s.others leader).length := by
  obtain ⟨hne, hcount⟩ := h.open_trick hvalid leader hlast
  have hd : Cyclic.dist s.playerCount leader s.currentPlayerIndex < s.playerCount :=
    Cyclic.dist_lt (by omega)
  have hsub := (Cyclic.within_sublist (n := s.playerCount) (p := s.active) (a := leader)
    (show Cyclic.dist s.playerCount leader s.currentPlayerIndex ≤ s.playerCount - 1 by
      omega)).length_le
  rw [← h.between_append hl hne, ← length_others hl, List.length_append, List.length_singleton] at hsub
  omega

theorem Trick.passesLeft_lt (h : Trick s) : s.passesLeft < s.playerCount := by
  have hpos := h.seat
  unfold passesLeft
  split_ifs with hvalid
  · obtain ⟨leader, hl, hlast⟩ := h.table.1 hvalid
    have hothers := length_others_lt hl
    rw [hlast, Option.getD_some]
    omega
  · exact Nat.zero_lt_of_lt hpos

end GameState

namespace GameEngine

/-- A bound for the turns that a round has left. -/
def turnsLeft (e : GameEngine) : Nat :=
  if e.state.phase = .playing then e.state.playerCount * e.state.cardsHeld + e.state.passesLeft else 0

end GameEngine

section Turns

variable {e e' : GameEngine} {r : PlayResult} {id : PlayerId} {cards : List CardId}

namespace AtPlay

theorem turnsLeft_eq (h : AtPlay e) :
    e.turnsLeft = e.state.playerCount * e.state.cardsHeld + e.state.passesLeft := if_pos h.phase

theorem turnsLeft_lt (h : AtPlay e) : e.turnsLeft < e.state.playerCount * (e.state.cardsHeld + 1) := by
  have hpasses := h.trick.passesLeft_lt
  rw [h.turnsLeft_eq, Nat.mul_succ]
  omega

/-- What a play leaves in the hands. -/
theorem cardsHeld_playCards (h : AtPlay e) (hplay : e.playCards id cards = some (e', r))
    (hcode : r.code = .ok) : e'.state.playerCount = e.state.playerCount ∧ cards ≠ [] ∧
      (cards.Nodup → e'.state.cardsHeld + cards.length = e.state.cardsHeld) ∧
      (¬ cards.Nodup → e'.state.hands = e.state.hands) := by
  obtain ⟨log, passes, hfacts⟩ := h.reached.facts
  rcases playCards_frame hplay with ⟨-, hno, -⟩ | ⟨seat, pattern, hok, -, hframe⟩
  · exact absurd hcode hno
  have hhands := hframe.seats.hands.trans (hands_acceptPlay e seat cards pattern)
  obtain ⟨hclean, hdirty⟩ := hfacts.round.accounting.acceptPlay_hand hok
  refine ⟨hframe.seats.playerCount, ?_, fun hnodup => ?_, fun hnot => ?_⟩
  · rintro rfl
    obtain ⟨objs, hobjs, hpattern⟩ := hok.recognised
    cases hobjs
    have hvalid := hok.valid
    rw [← hpattern] at hvalid
    cases hvalid
  · have hbag : e'.state.handBag + (e.state.hands seat : Multiset CardId) = e.state.handBag +
        (((e.state.players seat).hand.remove cards).1.cards : Multiset CardId) := by
      rw [GameState.handBag, GameState.handBag, hhands, hframe.seats.playerCount]
      exact Bags.bag_update (seatOf_some hok.seated).1 _
    have hcard := congrArg Multiset.card hbag
    have hhand := (hclean hnodup).length_eq
    rw [Multiset.card_add, Multiset.card_add, Multiset.coe_card, Multiset.coe_card] at hcard
    rw [List.length_append] at hhand
    unfold cardsHeld
    omega
  · rw [hhands, hdirty hnot]
    exact Function.update_eq_self seat e.state.hands

theorem turnsLeft_playCards (h : AtPlay e) (hplay : e.playCards id cards = some (e', r))
    (hcode : r.code = .ok) (hnodup : cards.Nodup) : e'.turnsLeft < e.turnsLeft := by
  obtain ⟨hcount, hne, hheld, -⟩ := h.cardsHeld_playCards hplay hcode
  have hheld := hheld hnodup
  have hpos : 0 < e.state.playerCount := Nat.zero_lt_of_lt h.trick.seat
  have hcards : 0 < cards.length := List.length_pos_iff.2 hne
  have hmul : e.state.playerCount * e'.state.cardsHeld + e.state.playerCount ≤
      e.state.playerCount * e.state.cardsHeld := by
    rw [← Nat.mul_succ]
    exact Nat.mul_le_mul_left _ (by omega)
  rw [h.turnsLeft_eq]
  by_cases hphase : e'.state.phase = .playing
  · have h' : AtPlay e' := ⟨(Course.playCards hplay).reached h.reached, hphase⟩
    have hpasses := h'.trick.passesLeft_lt
    rw [h'.turnsLeft_eq, hcount]
    omega
  · rw [GameEngine.turnsLeft, if_neg hphase]
    omega

/-- A pass leaves the hands alone, and there is one pass less until the trick is closed. -/
theorem passesLeft_pass (h : AtPlay e) (hpass : e.pass id = some (e', r)) (hcode : r.code = .ok) :
    AtPlay e' ∧ e'.state.hands = e.state.hands ∧ e'.state.playerCount = e.state.playerCount ∧
      e'.state.passesLeft < e.state.passesLeft := by
  obtain ⟨log, passes, hfacts⟩ := h.reached.facts
  obtain ⟨hplayers, hcount, -, hphase, -⟩ := pass_frame hpass
  obtain ⟨leader, seat, hlast, hl, -, htrick, hactive, -, hcases⟩ :=
    hfacts.trick.pass_outcome hpass hcode
  have hvalid : e.state.lastPattern.isValid = true := h.trick.table.2 ⟨leader, hl, hlast⟩
  have hleft := h.trick.passCount_lt hvalid hlast hl
  have hbefore : e.state.passesLeft = (e.state.others leader).length - e.state.passCount := by
    rw [passesLeft, if_pos hvalid, hlast, Option.getD_some]
  refine ⟨⟨(Course.pass hpass).reached h.reached, hphase.trans h.phase⟩, ?_, hcount, ?_⟩
  · unfold GameState.hands
    rw [hplayers]
  rw [hbefore]
  rcases hcases with ⟨-, hnone, -⟩ | ⟨-, hsome, hbetween⟩
  · have hclear : ¬ e'.state.lastPattern.isValid = true := fun hv => by
      obtain ⟨leader', -, hlast'⟩ := htrick.table.1 hv
      rw [hnone] at hlast'
      cases hlast'
    rw [passesLeft, if_neg hclear]
    omega
  · have hvalid' := htrick.table.2 ⟨leader, hcount.symm ▸ hl, hsome⟩
    have hpassed : e'.state.passCount = e.state.passCount + 1 := by
      rw [(htrick.open_trick hvalid' leader hsome).2, hbetween, List.length_append,
        List.length_singleton, (h.trick.open_trick hvalid leader hlast).2,
        hfacts.trick.passed h.phase leader hlast]
    have hothers : e'.state.others leader = e.state.others leader := by
      unfold others
      rw [hcount, hactive]
    rw [passesLeft, if_pos hvalid', hsome, Option.getD_some, hothers]
    omega

theorem turnsLeft_pass (h : AtPlay e) (hpass : e.pass id = some (e', r)) (hcode : r.code = .ok) :
    e'.turnsLeft < e.turnsLeft := by
  obtain ⟨h', hhands, hcount, hlt⟩ := h.passesLeft_pass hpass hcode
  have hheld : e'.state.cardsHeld = e.state.cardsHeld := by
    rw [cardsHeld, cardsHeld, GameState.handBag, GameState.handBag, hhands, hcount]
  rw [h'.turnsLeft_eq, h.turnsLeft_eq, hheld, hcount]
  omega

/-- Some turn is accepted. -/
theorem exists_turn (h : AtPlay e) : ∃ choice e' r,
    (∀ play ∈ choice, play.Nodup) ∧ botCall e e.state.turnPlayer choice = some (e', r) ∧ r.code = .ok := by
  obtain ⟨choice, -, hbest, e', r, hcall, hcode⟩ := h.botCall_ok
  exact ⟨choice, e', r, fun play hplay => (hbest.mayPlay play hplay).nodup, hcall, hcode⟩

/-- The player to move can play any card of the hand twice, on the lead. -/
theorem exists_double (h : AtPlay e) (hlead : e.state.lastPattern.isValid = false) :
    ∃ id e' r, e.playCards e.state.turnPlayer [id, id] = some (e', r) ∧ r.code = .ok := by
  obtain ⟨id, rest, hhand⟩ := List.exists_cons_of_ne_nil h.trick.holds
  have hheld : ∀ i ∈ [id, id], i ∈ e.state.hands e.state.currentPlayerIndex := by
    intro i hi
    obtain rfl : i = id := by simpa using hi
    rw [hhand]
    exact List.mem_cons_self
  have hknown := known_of_held h.knownHands h.trick.seat hheld
  have hvalid : (e.patternOf [id, id]).isValid = true := by
    rw [patternOf_of_known hknown]
    refine congrArg CardPattern.isValid (CardAnalyzer.Reads.pair rfl ?_).analyze_eq
    exact CardAnalyzer.length_present_le [((e.state.getCardById id).getD {}).rank] fun card hcard => by
      have hmem := (List.mem_filter.1 hcard).1
      simp only [List.map_cons, List.map_nil, List.mem_cons, List.not_mem_nil, or_false, or_self] at hmem
      rw [hmem]
      exact List.mem_singleton_self _
  obtain ⟨⟨e', r⟩, hplay⟩ :=
    Option.isSome_iff_exists.1 (h.playCards_isSome e.state.turnPlayer [id, id])
  refine ⟨id, e', r, hplay, ?_⟩
  rcases playCards_cases hplay with ⟨-, -, hno⟩ | ⟨seat, pattern, -, hcode, -⟩
  · refine absurd ⟨h.phase, h.seatOf_turnPlayer, rfl, h.trick.unfinished, hheld,
      exists_pattern hknown, hvalid, fun hv => ?_⟩ (hno e.state.currentPlayerIndex _)
    rw [hlead] at hv
    cases hv
  · exact hcode

/-- After a play that takes no card from the hand the round goes on. -/
theorem goesOn_of_dup (h : AtPlay e) (hplay : e.playCards id cards = some (e', r))
    (hcode : r.code = .ok) (hdup : ¬ cards.Nodup) : AtPlay e' := by
  refine ⟨(Course.playCards hplay).reached h.reached, ?_⟩
  obtain ⟨log, passes, hfacts⟩ := h.reached.facts
  rcases playCards_cases hplay with ⟨-, hno, -⟩ | ⟨seat, pattern, hok, -, hcases⟩
  · exact absurd hcode hno
  have hhand : ((e.acceptPlay seat cards pattern).state.players seat).hand.cards =
      e.state.hands seat := by
    have hacc := congrFun (hands_acceptPlay e seat cards pattern) seat
    rw [Function.update_self, (hfacts.round.accounting.acceptPlay_hand hok).2 hdup] at hacc
    exact hacc
  have hne : e.state.hands seat ≠ [] := by
    rw [hok.turn]
    exact h.trick.holds
  rw [hhand] at hcases
  rcases hcases with ⟨-, hturn⟩ | ⟨hempty, -⟩ | ⟨hempty, -⟩
  · obtain ⟨i, turn, rfl⟩ := passTurnOn_frame hturn
    exact hok.phase
  · exact absurd hempty hne
  · exact absurd hempty hne

end AtPlay

/-! ### Runs of a round -/

/-- A play or a pass. -/
def EngineOp.IsTurn : EngineOp → Prop
  | .playCards _ _ | .pass _ => True
  | _ => False

/-- A play that names no card twice, or a pass. -/
def EngineOp.CleanTurn : EngineOp → Prop
  | .playCards _ cards => cards.Nodup
  | .pass _ => True
  | _ => False

def EngineOut.accepted : EngineOut → Bool
  | .result r => r.code == .ok
  | _ => false

theorem EngineOp.CleanTurn.isTurn {op : EngineOp} (h : op.CleanTurn) : op.IsTurn := by
  cases op with
  | playCards id cards => trivial
  | pass id => trivial
  | _ => exact h.elim

/-- Where turns are made: a round that is played, or one that a turn has ended. -/
structure InRound (e : GameEngine) : Prop where
  reached : Reached e
  phase : e.state.phase = .playing ∨ e.state.phase = .finished

theorem AtPlay.inRound (h : AtPlay e) : InRound e := ⟨h.reached, .inl h.phase⟩

theorem InRound.step {op : EngineOp} {out : EngineOut} (h : InRound e) (hop : op.IsTurn)
    (hstep : engine.step e op = some (e', out)) : InRound e' := by
  cases engine_step hstep with
  | playCards hplay =>
    refine ⟨(Course.playCards hplay).reached h.reached, ?_⟩
    rcases playCards_frame hplay with ⟨rfl, -⟩ | ⟨_, _, -, -, hframe⟩
    · exact h.phase
    · exact hframe.phase
  | pass hpass =>
    refine ⟨(Course.pass hpass).reached h.reached, ?_⟩
    rw [(pass_frame hpass).2.2.2.1]
    exact h.phase
  | _ => exact hop.elim

/-- A turn is always answered. -/
theorem InRound.answers {op : EngineOp} (h : InRound e) (hop : op.IsTurn) :
    ∃ e' r, engine.step e op = some (e', .result r) := by
  obtain ⟨log, passes, hfacts⟩ := h.reached.facts
  cases op with
  | playCards id cards =>
    obtain ⟨⟨e', r⟩, hplay⟩ :=
      Option.isSome_iff_exists.1 (playCards_answered hfacts.trick hfacts.round id cards)
    exact ⟨e', r, by simp [engine, apply, hplay]⟩
  | pass id =>
    obtain ⟨⟨e', r⟩, hpass⟩ := Option.isSome_iff_exists.1 (pass_answered hfacts.trick id)
    exact ⟨e', r, by simp [engine, apply, hpass]⟩
  | _ => exact hop.elim

theorem InRound.run {ops : List EngineOp} (h : InRound e) (hops : ∀ op ∈ ops, op.IsTurn) :
    ∃ e', engine.run e ops = some e' ∧ InRound e' := by
  induction ops generalizing e with
  | nil => exact ⟨e, rfl, h⟩
  | cons op ops ih =>
    have hop := hops op (List.mem_cons_self ..)
    obtain ⟨e₁, r, hstep⟩ := h.answers hop
    obtain ⟨e', hrun, h'⟩ := ih (h.step hop hstep) fun op hmem => hops op (List.mem_cons_of_mem _ hmem)
    exact ⟨e', (Machine.run_cons hstep).trans hrun, h'⟩

/-- A clean turn uses up a turn, if it is accepted, and nothing otherwise. -/
theorem InRound.turnsLeft_step {op : EngineOp} {out : EngineOut} (h : InRound e) (hop : op.CleanTurn)
    (hstep : engine.step e op = some (e', out)) :
    e'.turnsLeft ≤ e.turnsLeft ∧ (out.accepted = true → e'.turnsLeft < e.turnsLeft) := by
  have hdone : ∀ {r : PlayResult}, (r.code = .ok → AtPlay e) → (r.code ≠ .ok → e' = e) →
      (AtPlay e → r.code = .ok → e'.turnsLeft < e.turnsLeft) →
      e'.turnsLeft ≤ e.turnsLeft ∧
        ((EngineOut.result r).accepted = true → e'.turnsLeft < e.turnsLeft) := by
    intro r hat hsame hlt
    by_cases hcode : r.code = .ok
    · exact ⟨(hlt (hat hcode) hcode).le, fun _ => hlt (hat hcode) hcode⟩
    · rw [hsame hcode]
      exact ⟨le_rfl, fun hacc => absurd (eq_of_beq hacc) hcode⟩
  cases engine_step hstep with
  | playCards hplay =>
    refine hdone (fun hcode => ?_) (fun hcode => ?_) fun hat hcode =>
      hat.turnsLeft_playCards hplay hcode hop
    · rcases playCards_cases hplay with ⟨-, hno, -⟩ | ⟨seat, pattern, hok, -⟩
      · exact absurd hcode hno
      · exact ⟨h.reached, hok.phase⟩
    · rcases playCards_cases hplay with ⟨hsame, -⟩ | ⟨seat, pattern, -, hok, -⟩
      · exact hsame
      · exact absurd hok hcode
  | pass hpass =>
    refine hdone (fun hcode => ?_) (fun hcode => ?_) fun hat hcode => hat.turnsLeft_pass hpass hcode
    · rcases pass_cases hpass with ⟨-, hno⟩ | ⟨seat, s, hon, -⟩
      · exact absurd hcode hno
      · exact ⟨h.reached, hon⟩
    · rcases pass_cases hpass with ⟨hsame, -⟩ | ⟨seat, s, -, -, -, -, -, -, rfl⟩
      · exact hsame
      · exact absurd rfl hcode
  | _ => exact hop.elim

theorem exists_soloPlay : ∃ e,
    engine.run (newEngine "solo").1 (startSolo (Shuffle.stack [])) = some e ∧
    engine.Reachable CompleteOp (newEngine "solo").1 e ∧ e.state.phase = .playing := by
  have hok : engine.Follows CompleteOp (newEngine "solo").1 (startSolo (Shuffle.stack [])) :=
    .of_forall (by simp [startSolo, CompleteOp])
  obtain ⟨e, hrun, hphase⟩ := Machine.exists_run_of_any (M := engine) (s := (newEngine "solo").1)
    (P := fun e => e.state.phase = .playing) (l := startSolo (Shuffle.stack [])) (by decide +kernel)
  exact ⟨e, hrun, Machine.reachable_of_run hok hrun, hphase⟩

/-- In a game in which the tribute phase is finalized only when nothing is pending in it any more
(`CompleteOp`), of the clean turns of a round fewer are accepted than there are cards and one more, for
each player; and as long as the round is not over some clean turn is accepted. -/
theorem round_ends (mode : String) (e : GameEngine)
    (h : engine.Reachable CompleteOp (newEngine mode).1 e) (hphase : e.state.phase = .playing)
    (ops : List EngineOp) (hops : ∀ op ∈ ops, op.CleanTurn) :
    (engine.outputs e ops).countP EngineOut.accepted < e.state.playerCount * (e.state.cardsHeld + 1) ∧
      ∃ e', engine.run e ops = some e' ∧ (e'.state.phase = .finished ∨ e'.state.phase = .playing ∧
        ∃ op e'' r, op.CleanTurn ∧ engine.step e' op = some (e'', .result r) ∧ r.code = .ok) := by
  have hplay : AtPlay e := ⟨⟨mode, h⟩, hphase⟩
  constructor
  · refine lt_of_le_of_lt ?_ hplay.turnsLeft_lt
    exact Machine.countP_outputs_le (M := engine) (P := InRound)
      (fun e op e' out hin (hop : op.CleanTurn) hstep =>
        ⟨hin.step hop.isTurn hstep, hin.turnsLeft_step hop hstep⟩)
      hplay.inRound (.of_forall fun op hop _ => hops op hop)
  · obtain ⟨e', hrun, h'⟩ := hplay.inRound.run fun op hop => (hops op hop).isTurn
    refine ⟨e', hrun, h'.phase.symm.imp_right fun hphase' => ⟨hphase', ?_⟩⟩
    obtain ⟨choice, e'', r, hnodup, hcall, hcode⟩ := (AtPlay.mk h'.reached hphase').exists_turn
    rcases choice with _ | play
    · exact ⟨.pass _, e'', r, trivial, by simpa [engine, apply, botCall] using hcall, hcode⟩
    · exact ⟨.playCards _ play, e'', r, hnodup play rfl, by simpa [engine, apply, botCall] using hcall, hcode⟩

theorem round_ends_solo : ∃ e,
    engine.run (newEngine "solo").1 (startSolo (Shuffle.stack [])) = some e ∧
    (engine.outputs e [.playCards 1 [0], .pass 2]).countP EngineOut.accepted <
      e.state.playerCount * (e.state.cardsHeld + 1) := by
  obtain ⟨e, hrun, hreach, hphase⟩ := exists_soloPlay
  exact ⟨e, hrun, (round_ends "solo" e hreach hphase [.playCards 1 [0], .pass 2]
    (by simp [EngineOp.CleanTurn])).1⟩

/-- A turn that changes no hand. -/
theorem AtPlay.exists_idle (h : AtPlay e) : ∃ op e' r, op.IsTurn ∧
    engine.step e op = some (e', .result r) ∧ r.code = .ok ∧ AtPlay e' ∧
    e'.state.hands = e.state.hands := by
  cases hlead : e.state.lastPattern.isValid with
  | true =>
    obtain ⟨e', r, hpass, hcode⟩ := h.pass_ok hlead
    obtain ⟨h', hhands, -⟩ := h.passesLeft_pass hpass hcode
    exact ⟨.pass e.state.turnPlayer, e', r, trivial, by simp [engine, apply, hpass], hcode, h', hhands⟩
  | false =>
    obtain ⟨id, e', r, hplay, hcode⟩ := h.exists_double hlead
    have hdup : ¬ [id, id].Nodup := by simp
    exact ⟨.playCards e.state.turnPlayer [id, id], e', r, trivial, by simp [engine, apply, hplay], hcode,
      h.goesOn_of_dup hplay hcode hdup, (h.cardsHeld_playCards hplay hcode).2.2.2 hdup⟩

/-- With plays that name a card twice a round can go on for ever, and nobody's hand changes: from every
state of play that is reached while the tribute phase is finalized as `CompleteOp` says. -/
theorem round_endless (mode : String) (e : GameEngine)
    (h : engine.Reachable CompleteOp (newEngine mode).1 e) (hphase : e.state.phase = .playing)
    (n : Nat) : ∃ ops e', (∀ op ∈ ops, op.IsTurn) ∧ engine.run e ops = some e' ∧
      (engine.outputs e ops).countP EngineOut.accepted = n ∧ e'.state.phase = .playing ∧
      e'.state.hands = e.state.hands := by
  suffices hruns : ∀ e, AtPlay e → ∃ ops e', (∀ op ∈ ops, op.IsTurn) ∧ engine.run e ops = some e' ∧
      (engine.outputs e ops).countP EngineOut.accepted = n ∧ e'.state.phase = .playing ∧
      e'.state.hands = e.state.hands from hruns e ⟨⟨mode, h⟩, hphase⟩
  induction n with
  | zero => exact fun e h => ⟨[], e, fun op hop => absurd hop List.not_mem_nil, rfl, rfl, h.phase, rfl⟩
  | succ n ih =>
    intro e h
    obtain ⟨op, e₁, r, hop, hstep, hcode, h₁, hhands₁⟩ := h.exists_idle
    obtain ⟨ops, e', hops, hrun, hcount, hphase', hhands⟩ := ih e₁ h₁
    refine ⟨op :: ops, e', ?_, (Machine.run_cons hstep).trans hrun, ?_, hphase', hhands.trans hhands₁⟩
    · rintro op' (_ | ⟨_, hmem⟩)
      · exact hop
      · exact hops op' hmem
    · rw [Machine.outputs_cons hstep, List.countP_cons_of_pos (show EngineOut.accepted (.result r) = true from
        beq_iff_eq.2 hcode), hcount]

theorem round_endless_solo : ∃ e ops,
    engine.run (newEngine "solo").1 (startSolo (Shuffle.stack [])) = some e ∧
    (engine.outputs e ops).countP EngineOut.accepted = 1000 := by
  obtain ⟨e, hrun, hreach, hphase⟩ := exists_soloPlay
  obtain ⟨ops, e', -, -, hcount, -⟩ := round_endless "solo" e hreach hphase 1000
  exact ⟨e, ops, hrun, hcount⟩

end Turns

end Guandan
