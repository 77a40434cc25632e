import Guandan.Engine.Course
import Guandan.Engine.TributeFlow
import Guandan.Library.LiveVector
import Guandan.Network.Table

/-!
# The loop in which the bots return

`executeBotTributeActions` goes over the seats that have a return to make while each return takes
its seat out of the vector. On the pending seats and the cells they lie in the loop is
`LiveVector.loop` (`Mirrors.step`): so it leaves no seat pending exactly when there are at most two,
and bots on all of them that can return.
-/

namespace Guandan

open GameState GameEngine Exchange TributeManager Table

/-- On the seat is a bot, and the card it chooses to return is accepted. -/
def BotReturns (e : GameEngine) (seat : Nat) : Prop :=
  isBotPlayer (e.state.players seat).id = true ∧ ∃ cardId,
    e.chooseBotReturnCard (e.state.players seat).id = some (some cardId) ∧
    isValidReturnSubmission seat cardId e.state e.ruleContext = some true

/-- The engine of a room that is at its returns. -/
structure Returning (e : GameEngine) : Prop where
  reached : Reached e
  phase : e.state.phase = .returnTribute

section Returning

variable {e e' : GameEngine} {seat seat' : Nat} {cardId : CardId}

namespace Returning

theorem swaps (h : Returning e) : ∃ dealt swaps, ReturnInv e dealt swaps := by
  obtain ⟨log, passes, hfacts⟩ := h.reached.facts
  obtain ⟨swaps, hinv⟩ := hfacts.phase.returns h.phase
  exact ⟨log.hands, swaps, hinv⟩

theorem nodup (h : Returning e) : e.tributeState.pendingReturnSeats.Nodup := by
  obtain ⟨dealt, swaps, hinv⟩ := h.swaps
  rw [hinv.pending]
  exact (List.nodup_append.1 hinv.exchanged.nodup).2.1.sublist (List.filter_sublist.map _)

theorem pending_lt (h : Returning e) (hseat : seat ∈ e.tributeState.pendingReturnSeats) :
    seat < e.state.playerCount := by
  obtain ⟨log, passes, hfacts⟩ := h.reached.facts
  exact (hfacts.round.accounting.seats.returns h.phase seat hseat).1

theorem seatOf (h : Returning e) (hseat : seat < e.state.playerCount) :
    e.seatOf (e.state.players seat).id = some seat := by
  obtain ⟨log, passes, hfacts⟩ := h.reached.facts
  exact SeatingInv.seatOf_eq (hfacts.round.seating.started (by simp [h.phase])) hseat

/-- What the engine answers to a return from a seat. -/
theorem submitReturn_eq (h : Returning e) (hseat : seat < e.state.playerCount)
    (cardId : CardId) :
    e.submitReturn (e.state.players seat).id cardId =
      if seat ∉ e.tributeState.pendingReturnSeats then some (e, { code := .notYourTurn })
      else (isValidReturnSubmission seat cardId e.state e.ruleContext).bind fun valid =>
        if !valid then some (e, { code := .invalidCards, message := "Invalid return card" })
        else some (e.recordReturn seat cardId, { tributeRoundComplete :=
          (e.recordReturn seat cardId).tributeState.pendingReturnSeats.isEmpty }) := by
  obtain ⟨dealt, swaps, hinv⟩ := h.swaps
  unfold submitReturn
  rw [if_neg (by simp [h.phase, hinv.active]), h.seatOf hseat]
  rfl

theorem record (h : Returning e) (hseat : seat ∈ e.tributeState.pendingReturnSeats)
    (hvalid : isValidReturnSubmission seat cardId e.state e.ruleContext = some true) :
    Returning (e.recordReturn seat cardId) := by
  have hsubmit := h.submitReturn_eq (h.pending_lt hseat) cardId
  rw [if_neg (not_not_intro hseat), hvalid] at hsubmit
  exact ⟨(Course.submitReturn hsubmit).reached h.reached,
    (SeatingInv.quiet_recordReturn e seat cardId).2.trans h.phase⟩

end Returning

/-- Only what is in the bot's own hand matters. -/
theorem botReturns_iff (h : Returning e) (hseat : seat < e.state.playerCount) :
    BotReturns e seat ↔ isBotPlayer (e.state.players seat).id = true ∧ ∃ cardId ≠ 0,
      pickReturnCard ⟨e.state.hands seat⟩ e.state e.ruleContext = some cardId ∧
      cardId ∈ e.state.hands seat ∧ ∃ ids,
        validReturnCardIds ⟨e.state.hands seat⟩ e.state e.ruleContext = some ids ∧
          cardId ∈ ids := by
  refine and_congr_right fun _ => exists_congr fun cardId => ?_
  rw [isValidReturnSubmission_iff, chooseBotReturnCard, h.seatOf hseat]
  constructor
  · rintro ⟨hchoose, -, hne, hmem, hids⟩
    obtain ⟨picked, hpick, hcard⟩ := Option.map_eq_some_iff.1 hchoose
    rw [cardOrNone] at hcard
    split_ifs at hcard
    cases hcard
    exact ⟨hne, hpick, hmem, hids⟩
  · rintro ⟨hne, hpick, hmem, hids⟩
    refine ⟨?_, hseat, hne, hmem, hids⟩
    show (pickReturnCard ⟨e.state.hands seat⟩ e.state e.ruleContext).map cardOrNone = _
    rw [hpick, Option.map_some, cardOrNone, if_neg hne]

/-- A return from one seat leaves the bots on the others as able to return as before. -/
theorem botReturns_recordReturn (h : Returning e)
    (hseat : seat ∈ e.tributeState.pendingReturnSeats)
    (hseat' : seat' ∈ e.tributeState.pendingReturnSeats) (hne : seat' ≠ seat)
    (hvalid : isValidReturnSubmission seat cardId e.state e.ruleContext = some true) :
    BotReturns (e.recordReturn seat cardId) seat' ↔ BotReturns e seat' := by
  obtain ⟨dealt, swaps, hinv⟩ := h.swaps
  obtain ⟨sw, hsw, -, rfl, hto⟩ := hinv.open_swap hseat
  obtain ⟨sw', hsw', -, rfl, -⟩ := hinv.open_swap hseat'
  have hstate := recordReturn_state e sw.taker cardId
  have hgiver : sw'.taker ≠ sw.giver := fun heq =>
    (List.nodup_append.1 hinv.exchanged.nodup).2.2 _ (List.mem_map_of_mem (f := Swap.giver) hsw)
      _ (List.mem_map_of_mem (f := Swap.taker) hsw') heq.symm
  rw [hto, Option.getD_some] at hstate
  have hhand : (e.recordReturn sw.taker cardId).state.hands sw'.taker =
      e.state.hands sw'.taker := by
    rw [hstate]
    exact moveHeld_of_ne hne hgiver
  have hcards : (e.recordReturn sw.taker cardId).state.allCards = e.state.allCards := by
    rw [hstate]
    rfl
  have hctx : (e.recordReturn sw.taker cardId).ruleContext = e.ruleContext := by
    rw [ruleContext, ruleContext, hstate]
    rfl
  have hsame := (Course.submitReturn (r := { tributeRoundComplete := _ }) (by
    rw [h.submitReturn_eq (h.pending_lt hseat) cardId, if_neg (not_not_intro hseat),
      hvalid]
    rfl)).samePeople
  have hlt := h.pending_lt hseat'
  rw [botReturns_iff h hlt, botReturns_iff (h.record hseat hvalid) (by rwa [hsame.playerCount]),
    hhand, hctx, hsame.ids, pickReturnCard_congr hcards, validReturnCardIds_congr hcards]

end Returning

/-! ### The loop -/

/-- What the loop does to the engine, on the pending seats and the cells they lie in. -/
structure Mirrors (e : GameEngine) (b : BotRound) (s : List Nat × List Nat) : Prop where
  returning : Returning b.engine
  pending : b.engine.tributeState.pendingReturnSeats = s.1
  cells : b.cells = s.2
  inFront : s.1 <+: s.2
  lt : ∀ seat ∈ s.2, seat < b.engine.state.playerCount
  acts : ∀ seat ∈ s.1, BotReturns b.engine seat ↔ BotReturns e seat

section Loop

variable {e : GameEngine} {b b' : BotRound} {s : List Nat × List Nat} {i seat : Nat}

theorem prefix_append_drop {l cells : List Nat} (h : l <+: cells) :
    l ++ cells.drop l.length = cells := by
  obtain ⟨rest, rfl⟩ := h
  rw [List.drop_left]

open Classical in
/-- One turn of the loop over the seats: the bot on the seat returns a card, if it has still to and
can, and its seat is erased. -/
theorem Mirrors.step (h : Mirrors e b s) (hi : i < s.2.length)
    (hstep : botRoundStep GameEngine.chooseBotReturnCard GameEngine.submitReturn
      (·.tributeState.pendingReturnSeats) b i = some b') :
    Mirrors e b' (LiveVector.turn (BotReturns e) s i) := by
  obtain ⟨seat, hcell⟩ : ∃ seat, s.2[i]? = some seat := ⟨s.2[i], List.getElem?_eq_getElem hi⟩
  have hlt := h.lt seat (List.mem_of_getElem? hcell)
  have hseat : b.cells.getD i 0 = seat := by
    rw [h.cells, List.getD_eq_getElem?_getD, hcell, Option.getD_some]
  -- a seat that is not pending or whose bot cannot return changes nothing
  have hstays : ¬ (seat ∈ s.1 ∧ BotReturns b.engine seat) → b'.engine = b.engine →
      (b'.cells = b.cells ∨ b'.cells = s.1 ++ b.cells.drop s.1.length) →
      Mirrors e b' (LiveVector.turn (BotReturns e) s i) := by
    intro hno hengine hcells
    have hno' : ¬ (seat ∈ s.1 ∧ BotReturns e seat) := fun ⟨hmem, hret⟩ =>
      hno ⟨hmem, (h.acts seat hmem).2 hret⟩
    rcases LiveVector.turn_cases (BotReturns e) hcell with ⟨hmem, hret, -⟩ | ⟨-, hturn⟩
    · exact absurd ⟨hmem, hret⟩ hno'
    · rw [hturn]
      refine ⟨hengine ▸ h.returning, hengine ▸ h.pending, ?_, h.inFront, hengine ▸ h.lt,
        hengine ▸ h.acts⟩
      rcases hcells with hcells | hcells
      · rw [hcells, h.cells]
      · rw [hcells, h.cells, prefix_append_drop h.inFront]
  unfold botRoundStep at hstep
  dsimp only at hstep
  rw [hseat, if_neg (by omega)] at hstep
  by_cases hbot : isBotPlayer (b.engine.state.players seat).id = true
  swap
  · rw [if_pos (by simpa using hbot)] at hstep
    cases hstep
    exact hstays (fun hret => hbot hret.2.1) rfl (.inl rfl)
  rw [if_neg (by simpa using hbot)] at hstep
  obtain ⟨choice, hchoose, hstep⟩ := Option.bind_eq_some_iff.1 hstep
  rcases choice with _ | cardId
  · cases hstep
    refine hstays (fun ⟨_, _, cardId, hcard, _⟩ => ?_) rfl (.inl rfl)
    rw [hchoose] at hcard
    cases hcard
  obtain ⟨⟨e', r⟩, hsubmit, hstep⟩ := Option.bind_eq_some_iff.1 hstep
  cases hstep
  rw [h.returning.submitReturn_eq hlt, h.pending] at hsubmit
  by_cases hmem : seat ∈ s.1
  swap
  · rw [if_pos hmem] at hsubmit
    cases hsubmit
    exact hstays (fun hret => hmem hret.1) rfl (.inr (by rw [h.pending]))
  rw [if_neg (not_not_intro hmem)] at hsubmit
  obtain ⟨valid, hvalid, hsubmit⟩ := Option.bind_eq_some_iff.1 hsubmit
  rcases valid with _ | _
  · cases hsubmit
    refine hstays (fun ⟨_, _, other, hother, hok⟩ => ?_) rfl (.inr (by rw [h.pending]))
    rw [hchoose] at hother
    cases hother
    rw [hvalid] at hok
    cases hok
  cases hsubmit
  have hpend : seat ∈ b.engine.tributeState.pendingReturnSeats := h.pending ▸ hmem
  have hret : BotReturns e seat := (h.acts seat hmem).1 ⟨hbot, cardId, hchoose, hvalid⟩
  have hturn : LiveVector.turn (BotReturns e) s i = LiveVector.erase s seat := by
    rcases LiveVector.turn_cases (BotReturns e) hcell with ⟨-, -, hturn⟩ | ⟨hno, -⟩
    · exact hturn
    · exact absurd ⟨hmem, hret⟩ hno
  have hleft : (b.engine.recordReturn seat cardId).tributeState.pendingReturnSeats =
      s.1.filter (· != seat) := by
    show b.engine.tributeState.pendingReturnSeats.filter (· != seat) = _
    rw [h.pending]
  have hcount : (b.engine.recordReturn seat cardId).state.playerCount =
      b.engine.state.playerCount := by
    rw [recordReturn_state]
    rfl
  rw [hturn]
  refine ⟨h.returning.record hpend hvalid, hleft, ?_, List.prefix_append _ _, fun seat' hin => ?_,
    fun seat' hin => ?_⟩
  · rw [hleft, h.cells]
    rfl
  · rw [hcount]
    rcases List.mem_append.1 hin with hin | hin
    · exact h.lt seat' (h.inFront.subset (List.mem_of_mem_filter hin))
    · exact h.lt seat' (List.mem_of_mem_drop hin)
  · obtain ⟨hmem', hne⟩ := List.mem_filter.1 hin
    rw [botReturns_recordReturn h.returning hpend (h.pending ▸ hmem') (by simpa using hne) hvalid]
    exact h.acts seat' hmem'

open Classical in
theorem Mirrors.foldlM {is : List Nat} (h : Mirrors e b s) (his : ∀ i ∈ is, i < s.2.length)
    (hfold : is.foldlM (botRoundStep GameEngine.chooseBotReturnCard GameEngine.submitReturn
      (·.tributeState.pendingReturnSeats)) b = some b') :
    Mirrors e b' (is.foldl (LiveVector.turn (BotReturns e)) s) := by
  induction is generalizing b s with
  | nil =>
    cases hfold
    exact h
  | cons i is ih =>
    rw [List.foldlM_cons] at hfold
    obtain ⟨b₁, hstep, hfold⟩ := Option.bind_eq_some_iff.1 hfold
    rw [List.foldl_cons]
    refine ih (h.step (his i (List.mem_cons_self ..)) hstep) (fun j hj => ?_) hfold
    rw [(LiveVector.prefix_turn h.inFront i).2]
    exact his j (List.mem_cons_of_mem _ hj)

/-- The loop leaves nobody pending exactly when at most two seats are, with bots that can return. -/
theorem botReturns_done_iff (h : Returning e) (hne : e.tributeState.pendingReturnSeats ≠ [])
    (hround : botReturns e = some b) :
    Returning b.engine ∧ (b.engine.tributeState.pendingReturnSeats = [] ↔
      e.tributeState.pendingReturnSeats.length ≤ 2 ∧
        ∀ seat ∈ e.tributeState.pendingReturnSeats, BotReturns e seat) := by
  classical
  have hstart : Mirrors e { engine := e, cells := e.tributeState.pendingReturnSeats }
      (e.tributeState.pendingReturnSeats, e.tributeState.pendingReturnSeats) :=
    ⟨h, rfl, rfl, List.prefix_rfl, fun seat hseat => h.pending_lt hseat, fun _ _ => Iff.rfl⟩
  have hend := hstart.foldlM (fun i hi => List.mem_range.1 hi) hround
  refine ⟨hend.returning, ?_⟩
  rw [hend.pending]
  exact LiveVector.loop_eq_nil_iff h.nodup hne

end Loop

end Guandan
