import Guandan.Engine.TributePhase

/-!
# Tribute is a pure exchange

From the deal to the first play the hands hold the deal, each card once (`HoldsDeal`). While returns
are pending the sizes of the hands show who has given and who has still to return (`ReturnSizes`),
and play begins with every tributer having swapped one card with its recipient (`PlayBegins`).
-/

namespace Guandan

open GameState GameEngine Exchange TributeManager

/-- A pending recipient has a card more than the `k` dealt, its tributer one less. -/
structure ReturnSizes (e : GameEngine) (k : Nat) : Prop where
  recipient : ∀ seat ∈ e.tributeState.pendingReturnSeats, seat < e.state.playerCount ∧
    (e.state.hands seat).length = k + 1
  tributer : ∀ seat ∈ e.tributeState.pendingReturnSeats, ∃ giver,
    e.tributeState.returnToTributer seat = some giver ∧ giver < e.state.playerCount ∧
      (e.state.hands giver).length + 1 = k
  other : ∀ i < e.state.playerCount, i ∉ e.tributeState.pendingReturnSeats →
    (∀ seat ∈ e.tributeState.pendingReturnSeats, e.tributeState.returnToTributer seat ≠ some i) →
      (e.state.hands i).length = k

/-- The first state of play: all hands are full again, and the swaps made, all of them closed, are
the round's tributes and returns; they are those that the tribute phase, where there was one, had
planned. -/
def PlayBegins (e e' : GameEngine) (dealt : Nat → List CardId) (k : Nat) : Prop :=
  (∀ i < e'.state.playerCount, (e'.state.hands i).length = k) ∧
  ∃ swaps, Exchanged e'.state.playerCount dealt e'.state.hands swaps ∧
    (∀ sw ∈ swaps, sw.back.isSome) ∧
    e'.lastTribute.tributes = swaps.map tributeOf ∧
    e'.lastTribute.returns.Perm (swaps.filterMap returnOf) ∧
    if e.state.phase = .returnTribute then
      (swaps.map Swap.giver).Perm e.tributeState.plan.tributerSeats ∧
        swaps.map Swap.taker = e.tributeState.plan.recipientSeats
    else swaps = []

variable {e e' : GameEngine} {log : RoundLog} {k : Nat} {dealt : Nat → List CardId}

/-! ### The deal -/

/-- Everybody is dealt as many cards, at least two. -/
theorem SeatingInv.dealt_size (h : SeatingInv e log) (hphase : e.state.phase ≠ .waiting) :
    ∃ k, 1 < k ∧ ∀ i < e.state.playerCount, (log.hands i).length = k := by
  have hst := h.started hphase
  have hsize : ∀ i < e.state.playerCount, (log.hands i).length =
      Deck.handSize (54 * e.config.deckCount) e.state.playerCount (cardsPerPlayer e.config) := by
    intro i hi
    have hi' : i < log.dealt.length := hst.dealt ▸ hi
    rw [RoundLog.hands, List.getD_eq_getElem?_getD, List.getElem?_eq_getElem hi', Option.getD_some]
    exact hst.size _ (List.getElem_mem hi')
  refine ⟨_, ?_, hsize⟩
  have hhand := h.mode.facts.hand
  rw [hst.full]
  omega

theorem ReturnInv.sizes {swaps : List (Swap CardId)} (h : ReturnInv e dealt swaps)
    (hk : ∀ i < e.state.playerCount, (dealt i).length = k) : ReturnSizes e k := by
  have hgiver : ∀ sw ∈ swaps, sw.giver < e.state.playerCount := by
    intro sw hsw
    refine h.plan.lt _ (List.mem_append_left _ (h.givers.subset ?_))
    exact List.mem_map_of_mem hsw
  have htaker : ∀ sw ∈ swaps, sw.taker < e.state.playerCount := by
    intro sw hsw
    refine h.plan.lt _ (List.mem_append_right _ ?_)
    rw [← h.takers]
    exact List.mem_map_of_mem hsw
  refine ⟨fun seat hseat => ?_, fun seat hseat => ?_, fun i hi hnot hgive => ?_⟩
  · obtain ⟨sw, hsw, hopen, rfl, -⟩ := h.open_swap hseat
    have hlen := h.exchanged.length_taker hsw
    rw [hk _ (htaker sw hsw), hopen] at hlen
    exact ⟨htaker sw hsw, hlen⟩
  · obtain ⟨sw, hsw, hopen, rfl, hto⟩ := h.open_swap hseat
    have hlen := h.exchanged.length_giver hsw
    rw [hk _ (hgiver sw hsw), hopen] at hlen
    exact ⟨sw.giver, hto, hgiver sw hsw, hlen⟩
  · -- a swap that `i` takes part in is closed
    have hclosed : ∀ sw ∈ swaps, i = sw.giver ∨ i = sw.taker → sw.back.isSome = true := by
      intro sw hsw hpart
      rw [Option.isSome_iff_ne_none]
      intro hopen
      have hpending : sw.taker ∈ e.tributeState.pendingReturnSeats := by
        rw [h.pending]
        exact List.mem_map_of_mem (List.mem_filter.2 ⟨hsw, by simp [hopen]⟩)
      rcases hpart with rfl | rfl
      · obtain ⟨sw', hsw', -, heq, hto⟩ := h.open_swap hpending
        rw [h.exchanged.eq_of_taker hsw' hsw heq] at hto
        exact hgive _ hpending hto
      · exact hnot hpending
    by_cases hpart : ∃ sw ∈ swaps, i = sw.giver ∨ i = sw.taker
    · obtain ⟨sw, hsw, hor⟩ := hpart
      have hback := hclosed sw hsw hor
      rcases hor with rfl | rfl
      · have hlen := h.exchanged.length_giver hsw
        rw [hback, if_pos rfl, hk _ hi] at hlen
        exact hlen
      · have hlen := h.exchanged.length_taker hsw
        rw [hback, if_pos rfl, hk _ hi] at hlen
        exact hlen
    · push Not at hpart
      rw [h.exchanged.other i hi hpart]
      exact hk i hi

/-! ### Where play begins -/

/-- Play that begins straight from a deal. -/
theorem PlayBegins.of_deal (hphase : e.state.phase ≠ .returnTribute)
    (hhands : ∀ i < e'.state.playerCount, e'.state.hands i = dealt i)
    (hnone : e'.lastTribute.tributes = [] ∧ e'.lastTribute.returns = [])
    (hk : ∀ i < e'.state.playerCount, (dealt i).length = k) :
    PlayBegins e e' dealt k := by
  refine ⟨fun i hi => ?_, [], .nil hhands, by simp, hnone.1, ?_, ?_⟩
  · rw [hhands i hi]
    exact hk i hi
  · rw [hnone.2]
    exact .refl _
  · rw [if_neg hphase]

/-- Play that begins when all returns are made. -/
theorem PlayBegins.of_returns {swaps : List (Swap CardId)} {r : PlayResult}
    (h : ReturnInv e dealt swaps) (hphase : e.state.phase = .returnTribute)
    (hdone : e.tributeState.pendingReturnSeats = [])
    (hk : ∀ i < e.state.playerCount, (dealt i).length = k)
    (hfin : e.finishTributePhaseAndStartPlay = some (e', r)) : PlayBegins e e' dealt k := by
  have hsizes := h.sizes hk
  obtain ⟨-, first, -, rfl⟩ := finishTributePhase_cases hfin
  refine ⟨fun i hi => ?_, swaps, h.exchanged, fun sw hsw => ?_, h.tributes, h.returns, ?_⟩
  · exact hsizes.other i hi (by simp [hdone]) (by simp [hdone])
  · rw [Option.isSome_iff_ne_none]
    intro hopen
    have hpending : sw.taker ∈ e.tributeState.pendingReturnSeats := by
      rw [h.pending]
      exact List.mem_map_of_mem (List.mem_filter.2 ⟨hsw, by simp [hopen]⟩)
    rw [hdone] at hpending
    cases hpending
  · rw [if_pos hphase]
    exact ⟨h.givers, h.takers⟩

theorem startTribute_playing {e₁ : GameEngine} (h : e₁.startTribute = some e')
    (hplaying : e'.state.phase = .playing) : e'.state.hands = e₁.state.hands ∧
      e'.lastTribute.tributes = [] ∧ e'.lastTribute.returns = [] := by
  unfold startTribute at h
  simp only [Option.bind_eq_bind, Option.bind_eq_some_iff, Option.pure_def] at h
  obtain ⟨plan, -, h⟩ := h
  split_ifs at h
  · cases h
    exact ⟨rfl, rfl, rfl⟩
  · cases h
    exact ⟨rfl, rfl, rfl⟩
  · cases h
    cases hplaying

/-- When play begins nothing is played yet, and the swaps are made. -/
theorem RoundInv.playBegins {op : EngineOp} {out : EngineOut} (h : RoundInv e log)
    (hph : PhaseInv e log) (hok : CompleteOp e op) (hstep : engine.step e op = some (e', out))
    (hfrom : e.state.phase ≠ .playing) (hto : e'.state.phase = .playing) :
    (recordRound log e op out e').plays = [] ∧
      ((∀ i < e'.state.playerCount, ((recordRound log e op out e').hands i).length = k) →
        PlayBegins e e' (recordRound log e op out e').hands k) := by
  cases hph.beginsPlay hstep hfrom hto with
  | startGame hphase hdeal =>
    refine ⟨rfl, .of_deal (by rcases hphase with hp | hp <;> simp [hp]) (fun i hi => ?_) ⟨rfl, rfl⟩⟩
    exact hands_dealRound hdeal i ((dealRound_frame hdeal).1 ▸ hi)
  | startNextRound hphase hdeal htribute =>
    obtain ⟨hhands, hnone⟩ := startTribute_playing htribute hto
    have hcount := (AccountingInv.startTribute_frame htribute).1.playerCount
    refine ⟨rfl, .of_deal (by simp [hphase]) (fun i hi => ?_) hnone⟩
    rw [hhands]
    exact hands_dealRound hdeal i ((hcount.trans (dealRound_frame hdeal).1) ▸ hi)
  | finalizeTributePhase hfin =>
    obtain ⟨hpending, htributers, hreturners⟩ := hok
    rcases phase_of_pending hpending with hphase | hphase
    · exact absurd htributers (hph.tribute hphase).waiting
    · obtain ⟨swaps, hinv⟩ := hph.returns hphase
      have hcount : e'.state.playerCount = e.state.playerCount :=
        (finishTributePhase_frame hfin).1.playerCount
      refine ⟨h.fresh (.inr hphase), fun hk => ?_⟩
      exact .of_returns hinv hphase hreturners (fun i hi => hk i (hcount.symm ▸ hi)) hfin

/-! ### The exchange -/

end Guandan
