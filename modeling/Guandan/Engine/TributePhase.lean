import Guandan.Engine.Seating
import Guandan.Library.Exchange

/-!
# The tribute phase is an exchange of cards

Until the last tribute is in, hands are as they were dealt (`TributeInv`). Then every tributer has
swapped, or is about to swap, a card with its recipient (`ReturnInv`): the state of the phase is the
list of the swaps, with the tributes and returns of the round's record and the pending seats read
off it. Play begins, if the phase is finalized when nothing is pending, with every swap closed.
-/

namespace Guandan

open GameState GameEngine Exchange TributeManager

/-- The dealt hand of a seat. -/
def RoundLog.hands (log : RoundLog) (seat : Nat) : List CardId := log.dealt.getD seat []

/-- The tribute of a swap. -/
def tributeOf (sw : Swap CardId) : TributeTransfer := ⟨sw.giver, sw.taker, sw.given⟩

/-- The return of a swap, once it is made. -/
def returnOf (sw : Swap CardId) : Option TributeTransfer :=
  sw.back.map fun cardId => ⟨sw.taker, sw.giver, cardId⟩

/-- The swap that a tribute opens. -/
def offerOf (tr : TributeTransfer) : Swap CardId := Swap.offer tr.fromSeat tr.toSeat tr.cardId

@[simp] theorem tributeOf_offerOf (tr : TributeTransfer) : tributeOf (offerOf tr) = tr := rfl

/-! ### The invariants of the two stages -/

/-- The tributes so far. -/
structure Collecting (e : GameEngine) (dealt : Nat → List CardId) : Prop where
  active : e.tributeState.active = true
  plan : PlanSeats e.tributeState.plan e.state.playerCount
  started : e.tributeState.plan.skipped = false
  hands : ∀ i < e.state.playerCount, e.state.hands i = dealt i
  pending : e.tributeState.pendingTributers = e.tributeState.plan.tributerSeats.filter
    fun seat => (e.tributeState.tributeSubmissions seat).isNone
  submitted : ∀ seat ∈ e.tributeState.plan.tributerSeats, ∀ cardId,
    e.tributeState.tributeSubmissions seat = some cardId → cardId ≠ 0 ∧ cardId ∈ dealt seat
  unassigned : e.lastTribute.tributes = [] ∧ e.lastTribute.returns = []

/-- Somebody has still to give a tribute. -/
structure TributeInv (e : GameEngine) (dealt : Nat → List CardId) : Prop extends
    Collecting e dealt where
  waiting : e.tributeState.pendingTributers ≠ []

/-- All tributes are given; each swap is open until its return is made. -/
structure ReturnInv (e : GameEngine) (dealt : Nat → List CardId) (swaps : List (Swap CardId)) :
    Prop where
  active : e.tributeState.active = true
  plan : PlanSeats e.tributeState.plan e.state.playerCount
  started : e.tributeState.plan.skipped = false
  exchanged : Exchanged e.state.playerCount dealt e.state.hands swaps
  givers : (swaps.map Swap.giver).Perm e.tributeState.plan.tributerSeats
  takers : swaps.map Swap.taker = e.tributeState.plan.recipientSeats
  tributes : e.lastTribute.tributes = swaps.map tributeOf
  returns : e.lastTribute.returns.Perm (swaps.filterMap returnOf)
  pending : e.tributeState.pendingReturnSeats =
    (swaps.filter fun sw => sw.back.isNone).map Swap.taker
  returnTo : e.tributeState.returnToTributer = returnMap e.lastTribute.tributes

structure PhaseInv (e : GameEngine) (log : RoundLog) : Prop where
  tribute : e.state.phase = .tribute → TributeInv e log.hands
  returns : e.state.phase = .returnTribute → ∃ swaps, ReturnInv e log.hands swaps

namespace PhaseInv

variable {e e' : GameEngine} {log log' : RoundLog}

theorem of_phase (h1 : e.state.phase ≠ .tribute) (h2 : e.state.phase ≠ .returnTribute) :
    PhaseInv e log :=
  ⟨fun h => absurd h h1, fun h => absurd h h2⟩

/-- A call that changes neither hands nor the state of the phase. -/
theorem congr (h : PhaseInv e log) (hphase : e'.state.phase = e.state.phase)
    (hcount : e'.state.playerCount = e.state.playerCount) (hhands : e'.state.hands = e.state.hands)
    (htribute : e'.tributeState = e.tributeState) (hlast : e'.lastTribute = e.lastTribute) :
    PhaseInv e' log := by
  constructor
  · intro hp
    have ht := h.tribute (hphase ▸ hp)
    refine ⟨⟨?_, ?_, ?_, ?_, ?_, ?_, ?_⟩, ?_⟩
    all_goals simp only [hcount, hhands, htribute, hlast]
    · exact ht.active
    · exact ht.plan
    · exact ht.started
    · exact ht.hands
    · exact ht.pending
    · exact ht.submitted
    · exact ht.unassigned
    · exact ht.waiting
  · intro hp
    obtain ⟨swaps, hr⟩ := h.returns (hphase ▸ hp)
    refine ⟨swaps, ?_⟩
    constructor
    all_goals simp only [hcount, hhands, htribute, hlast]
    · exact hr.active
    · exact hr.plan
    · exact hr.started
    · exact hr.exchanged
    · exact hr.givers
    · exact hr.takers
    · exact hr.tributes
    · exact hr.returns
    · exact hr.pending
    · exact hr.returnTo

end PhaseInv

/-! ### Assigning the tributes -/

theorem getCardById_id {s : GameState} {id : CardId} {card : Card}
    (h : s.getCardById id = some card) : card.id = id := by
  simpa using List.find?_some h

theorem mem_of_mapM {α β : Type*} {f : α → Option β} {l : List α} {r : List β}
    (h : l.mapM f = some r) : ∀ b ∈ r, ∃ a ∈ l, f a = some b := by
  induction l generalizing r with
  | nil =>
    cases h
    simp
  | cons a l ih =>
    simp only [List.mapM_cons, Option.bind_eq_bind, Option.bind_eq_some_iff, Option.pure_def,
      Option.some.injEq] at h
    obtain ⟨b, hb, bs, hbs, rfl⟩ := h
    rintro c (_ | ⟨_, hc⟩)
    · exact ⟨a, List.mem_cons_self .., hb⟩
    · obtain ⟨x, hx, hfx⟩ := ih hbs c hc
      exact ⟨x, List.mem_cons_of_mem _ hx, hfx⟩

/-- When everybody has submitted a card, everybody's card is assigned. -/
theorem pendingTributes_all {s : GameState} {plan : TributePhasePlan}
    {submissions : Nat → Option CardId} {pending : List PendingTribute}
    (h : pendingTributes s plan submissions = some pending)
    (hall : ∀ seat ∈ plan.tributerSeats, ∃ cardId, submissions seat = some cardId ∧ cardId ≠ 0) :
    pending.map (·.fromSeat) = plan.tributerSeats ∧
      ∀ p ∈ pending, submissions p.fromSeat = some p.card.id := by
  unfold pendingTributes at h
  have hpairs : ∀ pair ∈ plan.tributerSeats.filterMap (fun seat => (submissions seat).bind
      fun cardId => if cardId = 0 then none else some (seat, cardId)),
      submissions pair.1 = some pair.2 := by
    intro pair hpair
    obtain ⟨seat, -, hseat⟩ := List.mem_filterMap.1 hpair
    simp only [Option.bind_eq_some_iff] at hseat
    obtain ⟨cardId, hsub, hseat⟩ := hseat
    split_ifs at hseat
    cases hseat
    exact hsub
  constructor
  · rw [mapM_map_fst h]
    clear h hpairs
    generalize plan.tributerSeats = seats at hall ⊢
    induction seats with
    | nil => rfl
    | cons seat seats ih =>
      obtain ⟨cardId, hsub, hne⟩ := hall seat (List.mem_cons_self ..)
      rw [List.filterMap_cons_some (b := (seat, cardId)) (by simp [hsub, hne]), List.map_cons,
        ih fun other hother => hall other (List.mem_cons_of_mem _ hother)]
  · intro p hp
    obtain ⟨pair, hpair, hcard⟩ := mem_of_mapM h p hp
    obtain ⟨card, hget, rfl⟩ := Option.map_eq_some_iff.1 hcard
    rw [hpairs pair hpair, getCardById_id hget]

theorem sortTributes_perm (pending : List PendingTribute) (ctx : RuleContext) (headSeat n : Nat) :
    (sortTributes pending ctx headSeat n).Perm pending :=
  List.perm_insertionSort _ _

theorem transfersOf_fromSeat {sorted : List PendingTribute} {recipients : List Nat}
    (h : sorted.length = recipients.length) :
    (transfersOf sorted recipients).map (·.fromSeat) = sorted.map (·.fromSeat) := by
  have hfst := congrArg (List.map PendingTribute.fromSeat) (List.map_fst_zip h.le)
  rw [List.map_map] at hfst
  rw [transfersOf, List.map_map]
  exact hfst

theorem transfersOf_toSeat {sorted : List PendingTribute} {recipients : List Nat}
    (h : sorted.length = recipients.length) :
    (transfersOf sorted recipients).map (·.toSeat) = recipients := by
  rw [transfersOf, List.map_map]
  exact List.map_snd_zip h.ge

/-- Transfers between different seats, each of a card that the giver was dealt, open a swap each. -/
theorem exchanged_moveAll {n : Nat} {dealt hands : Nat → List CardId} {swaps : List (Swap CardId)}
    (transfers : List TributeTransfer) (h : Exchanged n dealt hands swaps)
    (hnodup : ((swaps ++ transfers.map offerOf).map Swap.giver ++
      (swaps ++ transfers.map offerOf).map Swap.taker).Nodup)
    (hcard : ∀ tr ∈ transfers, tr.cardId ≠ 0 ∧ tr.cardId ∈ dealt tr.fromSeat)
    (hlt : ∀ tr ∈ transfers, tr.fromSeat < n ∧ tr.toSeat < n) :
    Exchanged n dealt (moveAll transfers hands) (swaps ++ transfers.map offerOf) := by
  induction transfers generalizing hands swaps with
  | nil => simpa using h
  | cons tr transfers ih =>
    obtain ⟨hf, ht⟩ := hlt tr (List.mem_cons_self ..)
    obtain ⟨hne, hmem⟩ := hcard tr (List.mem_cons_self ..)
    have hsplit : swaps ++ (tr :: transfers).map offerOf =
        (swaps ++ [offerOf tr]) ++ transfers.map offerOf := by simp
    rw [hsplit] at hnodup ⊢
    have hnodup₁ : ((swaps ++ [offerOf tr]).map Swap.giver ++
        (swaps ++ [offerOf tr]).map Swap.taker).Nodup := by
      refine hnodup.sublist (List.Sublist.append ?_ ?_)
      · rw [@List.map_append _ _ _ (swaps ++ [offerOf tr])]
        exact List.sublist_append_left _ _
      · rw [@List.map_append _ _ _ (swaps ++ [offerOf tr])]
        exact List.sublist_append_left _ _
    have hgiver : hands tr.fromSeat = dealt tr.fromSeat := by
      refine h.other _ hf fun sw hsw => ?_
      simp only [List.map_append, List.map_cons, List.map_nil, List.nodup_append, List.mem_append,
        List.mem_map, List.mem_singleton] at hnodup₁
      obtain ⟨⟨-, -, hgg⟩, -, hgt⟩ := hnodup₁
      exact ⟨fun heq => hgg _ ⟨sw, hsw, rfl⟩ tr.fromSeat rfl heq.symm,
        hgt tr.fromSeat (.inr rfl) _ (.inl ⟨sw, hsw, rfl⟩)⟩
    have hmove : moveHeld hands tr.fromSeat tr.toSeat tr.cardId =
        Bags.move hands tr.fromSeat tr.toSeat tr.cardId := by
      rw [moveHeld, if_pos ⟨hne, hgiver ▸ hmem⟩]
    rw [moveAll_cons, hmove]
    exact ih (h.give hf ht hnodup₁ hmem) hnodup
      (fun tr' htr' => hcard tr' (List.mem_cons_of_mem _ htr'))
      (fun tr' htr' => hlt tr' (List.mem_cons_of_mem _ htr'))

/-- The tributes of a phase in which everybody has submitted: one from each tributer, one to each
recipient, and the swaps they open. -/
theorem assigned {e : GameEngine} {dealt : Nat → List CardId} {s : GameState}
    {base result : TributeRoundResult}
    (hplan : PlanSeats e.tributeState.plan e.state.playerCount)
    (hhands : ∀ i < e.state.playerCount, e.state.hands i = dealt i)
    (hall : ∀ seat ∈ e.tributeState.plan.tributerSeats, ∃ cardId,
      e.tributeState.tributeSubmissions seat = some cardId ∧ cardId ≠ 0 ∧ cardId ∈ dealt seat)
    (h : assignTributes e.state e.ruleContext e.tributeState.plan
      e.tributeState.tributeSubmissions base = some (s, result)) :
    (result.tributes.map (·.fromSeat)).Perm e.tributeState.plan.tributerSeats ∧
      result.tributes.map (·.toSeat) = e.tributeState.plan.recipientSeats ∧
      (∀ tr ∈ result.tributes,
        e.tributeState.tributeSubmissions tr.fromSeat = some tr.cardId) ∧
      Exchanged e.state.playerCount dealt (moveAll result.tributes e.state.hands)
        (result.tributes.map offerOf) := by
  obtain ⟨pending, hpending, -, htributes, -⟩ := assignTributes_cases h
  obtain ⟨hfrom, hsub⟩ := pendingTributes_all hpending fun seat hseat => by
    obtain ⟨cardId, h1, h2, -⟩ := hall seat hseat
    exact ⟨cardId, h1, h2⟩
  have hperm := sortTributes_perm pending e.ruleContext e.tributeState.plan.headSeat
    e.state.playerCount
  have hlen : (sortTributes pending e.ruleContext e.tributeState.plan.headSeat
      e.state.playerCount).length = e.tributeState.plan.recipientSeats.length := by
    rw [hperm.length_eq, ← hplan.length, ← hfrom, List.length_map]
  have hfromPerm : (result.tributes.map (·.fromSeat)).Perm e.tributeState.plan.tributerSeats := by
    rw [htributes, transfersOf_fromSeat hlen, ← hfrom]
    exact hperm.map _
  have hto : result.tributes.map (·.toSeat) = e.tributeState.plan.recipientSeats := by
    rw [htributes, transfersOf_toSeat hlen]
  have hcards : ∀ tr ∈ result.tributes,
      e.tributeState.tributeSubmissions tr.fromSeat = some tr.cardId := by
    intro tr htr
    rw [htributes] at htr
    obtain ⟨⟨p, toSeat⟩, hmem, rfl⟩ := List.mem_map.1 htr
    exact hsub p (hperm.subset (List.of_mem_zip hmem).1)
  refine ⟨hfromPerm, hto, hcards, ?_⟩
  have hgivers : (result.tributes.map offerOf).map Swap.giver =
      result.tributes.map (·.fromSeat) := by
    rw [List.map_map]
    rfl
  have htakers : (result.tributes.map offerOf).map Swap.taker =
      result.tributes.map (·.toSeat) := by
    rw [List.map_map]
    rfl
  have hnodup : ((result.tributes.map offerOf).map Swap.giver ++
      (result.tributes.map offerOf).map Swap.taker).Nodup := by
    rw [hgivers, htakers, hto]
    exact ((hfromPerm.append_right _).nodup_iff).2 hplan.nodup
  have hexch := exchanged_moveAll result.tributes (Exchanged.nil hhands)
    (by simpa using hnodup)
    (fun tr htr => ?_) (fun tr htr => ?_)
  · simpa using hexch
  · obtain ⟨cardId, h1, h2, h3⟩ := hall tr.fromSeat
      (hfromPerm.subset (List.mem_map_of_mem (f := TributeTransfer.fromSeat) htr))
    rw [hcards tr htr] at h1
    cases h1
    exact ⟨h2, h3⟩
  · refine ⟨hplan.lt _ (List.mem_append_left _ (hfromPerm.subset
      (List.mem_map_of_mem (f := TributeTransfer.fromSeat) htr))), ?_⟩
    refine hplan.lt _ (List.mem_append_right _ ?_)
    rw [← hto]
    exact List.mem_map_of_mem (f := TributeTransfer.toSeat) htr

/-! ### What is accepted -/

/-- The checks that tributes and returns have in common. -/
theorem submission_iff (s : GameState) (seat : Nat) (cardId : CardId) (own : Option Bool) :
    (if (s.playerCount ≤ seat || cardId == 0) = true then some false
      else if (!(s.players seat).hand.contains [cardId]) = true then some false
      else own) = some true ↔
      seat < s.playerCount ∧ cardId ≠ 0 ∧ cardId ∈ s.hands seat ∧ own = some true := by
  rw [Hand.contains_singleton]
  by_cases hseat : s.playerCount ≤ seat
  · simp [hseat]
  · by_cases hzero : cardId = 0
    · simp [hzero]
    · by_cases hmem : cardId ∈ (s.players seat).hand.cards
      · simp [hseat, hzero, hmem, GameState.hands, Nat.lt_of_not_le hseat]
      · simp [hseat, hzero, hmem, GameState.hands]

theorem isValidTributeSubmission_iff {s : GameState} {ctx : RuleContext} {seat : Nat}
    {cardId : CardId} : isValidTributeSubmission seat cardId s ctx = some true ↔
      seat < s.playerCount ∧ cardId ≠ 0 ∧ cardId ∈ s.hands seat ∧
        requiredTributeCard (s.players seat).hand s ctx = some cardId := by
  refine (submission_iff s seat cardId _).trans ?_
  simp only [Option.map_eq_some_iff, beq_iff_eq, exists_eq_right']

theorem isValidReturnSubmission_iff {s : GameState} {ctx : RuleContext} {seat : Nat}
    {cardId : CardId} : isValidReturnSubmission seat cardId s ctx = some true ↔
      seat < s.playerCount ∧ cardId ≠ 0 ∧ cardId ∈ s.hands seat ∧
        ∃ ids, validReturnCardIds (s.players seat).hand s ctx = some ids ∧ cardId ∈ ids := by
  refine (submission_iff s seat cardId _).trans ?_
  simp [Option.map_eq_some_iff]

/-! ### The steps of the phase -/

variable {e e' : GameEngine} {dealt : Nat → List CardId} {r : PlayResult} {seat : Nat}
  {cardId : CardId}

theorem Collecting.record (h : Collecting e dealt) (hne : cardId ≠ 0)
    (hmem : cardId ∈ e.state.hands seat) (hseat : seat < e.state.playerCount) :
    Collecting (e.recordTribute seat cardId) dealt := by
  refine ⟨h.active, h.plan, h.started, h.hands, ?_, fun i hi c hc => ?_, h.unassigned⟩
  · show e.tributeState.pendingTributers.filter (· != seat) = _
    rw [h.pending, List.filter_filter]
    refine List.filter_congr fun i _ => ?_
    show _ = (Function.update e.tributeState.tributeSubmissions seat (some cardId) i).isNone
    by_cases hi : i = seat
    · subst hi
      simp
    · simp [hi]
  · change Function.update e.tributeState.tributeSubmissions seat (some cardId) i = some c at hc
    by_cases hi' : i = seat
    · subst hi'
      rw [Function.update_self] at hc
      cases hc
      exact ⟨hne, h.hands i hseat ▸ hmem⟩
    · rw [Function.update_of_ne hi'] at hc
      exact h.submitted i hi c hc

/-- Nothing is pending, so everybody has submitted a card of the deal. -/
theorem Collecting.all_submitted (h : Collecting e dealt)
    (hnone : e.tributeState.pendingTributers = []) :
    ∀ seat ∈ e.tributeState.plan.tributerSeats, ∃ cardId,
      e.tributeState.tributeSubmissions seat = some cardId ∧ cardId ≠ 0 ∧
        cardId ∈ dealt seat := by
  intro i hi
  rw [h.pending, List.filter_eq_nil_iff] at hnone
  have hsome := hnone i hi
  rw [Option.isNone_iff_eq_none, ← ne_eq, Option.ne_none_iff_exists'] at hsome
  obtain ⟨c, hc⟩ := hsome
  exact ⟨c, hc, h.submitted i hi c hc⟩

/-- The last tribute opens the swaps. -/
theorem Collecting.close (h : Collecting e dealt) (hnone : e.tributeState.pendingTributers = [])
    (hclose : e.closeTributes = some (e', r)) :
    e'.state.phase = .returnTribute ∧ r = {} ∧ ∃ swaps, ReturnInv e' dealt swaps ∧
      ∀ sw ∈ swaps, sw.back = none := by
  obtain ⟨s, result, hassign, hrest⟩ := closeTributes_cases hclose
  obtain ⟨hfrom, hto, -, hexch⟩ := assigned h.plan h.hands (h.all_submitted hnone) hassign
  obtain ⟨-, -, hs, -, summary, hresult⟩ := assignTributes_cases hassign
  rcases hrest with ⟨hempty, -⟩ | ⟨-, rfl, rfl⟩
  · -- there is a tributer, so something was given
    rw [hempty] at hfrom
    exact absurd hfrom.nil_eq.symm (h.plan.nonempty h.started)
  refine ⟨rfl, rfl, result.tributes.map offerOf,
    ⟨h.active, ?_, h.started, ?_, ?_, ?_, ?_, ?_, ?_, rfl⟩, ?_⟩
  · rw [hs]
    exact h.plan
  · rw [hs]
    exact hexch
  · rw [List.map_map]
    exact hfrom
  · rw [List.map_map]
    exact hto
  · rw [List.map_map]
    exact (List.map_id _).symm
  · have hreturns : result.returns = [] := by
      rw [hresult]
      exact h.unassigned.2
    show result.returns.Perm _
    rw [hreturns, List.filterMap_map]
    have hnil : result.tributes.filterMap (returnOf ∘ offerOf) = [] :=
      List.filterMap_eq_nil_iff.2 fun _ _ => rfl
    rw [hnil]
  · show result.tributes.map (·.toSeat) = _
    rw [List.filter_eq_self.2, List.map_map]
    · rfl
    · intro sw hsw
      obtain ⟨tr, -, rfl⟩ := List.mem_map.1 hsw
      rfl
  · intro sw hsw
    obtain ⟨tr, -, rfl⟩ := List.mem_map.1 hsw
    rfl

/-- A pending return belongs to an open swap. -/
theorem ReturnInv.open_swap {swaps : List (Swap CardId)} (h : ReturnInv e dealt swaps)
    (hpending : seat ∈ e.tributeState.pendingReturnSeats) :
    ∃ sw ∈ swaps, sw.back = none ∧ sw.taker = seat ∧
      e.tributeState.returnToTributer seat = some sw.giver := by
  have hmem := hpending
  rw [h.pending, List.mem_map] at hmem
  obtain ⟨sw, hsw, rfl⟩ := hmem
  obtain ⟨hsw, hopen⟩ := List.mem_filter.1 hsw
  refine ⟨sw, hsw, by simpa using hopen, rfl, ?_⟩
  have hto : sw.taker ∈ e.lastTribute.tributes.map (·.toSeat) := by
    rw [h.tributes, List.map_map]
    exact List.mem_map_of_mem (f := Swap.taker) hsw
  obtain ⟨tr, htr, heq, hval⟩ := AccountingInv.returnMap_mem _ _ hto
  rw [h.tributes, List.mem_map] at htr
  obtain ⟨sw', hsw', rfl⟩ := htr
  have hsame : sw' = sw := h.exchanged.eq_of_taker hsw' hsw heq
  rw [h.returnTo, hval, hsame]
  rfl

/-- A return closes its swap. -/
theorem ReturnInv.record {swaps : List (Swap CardId)} (h : ReturnInv e dealt swaps)
    {sw : Swap CardId} (hsw : sw ∈ swaps) (hopen : sw.back = none)
    (hto : e.tributeState.returnToTributer sw.taker = some sw.giver) (hne : cardId ≠ 0)
    (hmem : cardId ∈ e.state.hands sw.taker) :
    ReturnInv (e.recordReturn sw.taker cardId) dealt (swaps.map (Swap.close sw.taker cardId)) := by
  have hstate := recordReturn_state e sw.taker cardId
  rw [hto, Option.getD_some, moveHeld, if_pos ⟨hne, hmem⟩] at hstate
  have hexch := h.exchanged.giveBack hsw hopen hmem
  have hgivers : (swaps.map (Swap.close sw.taker cardId)).map Swap.giver =
      swaps.map Swap.giver := by simp [List.map_map, Function.comp_def]
  have htakers : (swaps.map (Swap.close sw.taker cardId)).map Swap.taker =
      swaps.map Swap.taker := by simp [List.map_map, Function.comp_def]
  refine ⟨h.active, ?_, h.started, ?_, ?_, ?_, ?_, ?_, ?_, h.returnTo⟩
  · rw [hstate]
    exact h.plan
  · rw [hstate]
    exact hexch
  · rw [hgivers]
    exact h.givers
  · rw [htakers]
    exact h.takers
  · show e.lastTribute.tributes = _
    rw [h.tributes, List.map_map]
    refine List.map_congr_left fun sw' _ => ?_
    simp [tributeOf]
  · -- only the return of this swap is new
    show (e.lastTribute.returns ++ [(⟨sw.taker, _, cardId⟩ : TributeTransfer)]).Perm _
    rw [hto, Option.getD_some]
    obtain ⟨l₁, l₂, hl⟩ := List.append_of_mem hsw
    have hother : ∀ sw' ∈ l₁ ++ l₂, Swap.close sw.taker cardId sw' = sw' := by
      intro sw' hsw'
      refine if_neg fun heq => ?_
      have hnodup := (List.nodup_append.1 h.exchanged.nodup).2.1
      rw [hl, List.map_append, List.map_cons, List.nodup_middle, List.nodup_cons] at hnodup
      refine hnodup.1 ?_
      rw [← List.map_append, ← heq]
      exact List.mem_map_of_mem hsw'
    have hself : returnOf (Swap.close sw.taker cardId sw) =
        some ⟨sw.taker, sw.giver, cardId⟩ := by
      rw [Swap.close, if_pos rfl]
      rfl
    have hnone : returnOf sw = none := by rw [returnOf, hopen, Option.map_none]
    have h₁ : l₁.map (Swap.close sw.taker cardId) = l₁ :=
      (List.map_congr_left fun sw' hsw' => hother sw' (List.mem_append_left _ hsw')).trans
        (List.map_id _)
    have h₂ : l₂.map (Swap.close sw.taker cardId) = l₂ :=
      (List.map_congr_left fun sw' hsw' => hother sw' (List.mem_append_right _ hsw')).trans
        (List.map_id _)
    have hold := h.returns
    rw [hl, List.filterMap_append, List.filterMap_cons_none hnone] at hold
    rw [hl, List.map_append, List.map_cons, h₁, h₂, List.filterMap_append,
      List.filterMap_cons_some hself]
    refine (hold.append_right _).trans ?_
    rw [List.append_assoc]
    exact (List.perm_append_singleton _ _).append_left _
  · show e.tributeState.pendingReturnSeats.filter (· != sw.taker) = _
    rw [h.pending, List.filter_map, List.filter_filter, List.filter_map, List.map_map]
    have hmap : Swap.taker ∘ Swap.close sw.taker cardId = Swap.taker :=
      funext fun sw' => Swap.close_taker _ _ _
    rw [hmap]
    congr 1
    refine List.filter_congr fun sw' _ => ?_
    by_cases heq : sw'.taker = sw.taker
    · simp [Swap.close, heq]
    · simp [Swap.close, heq]

/-! ### Every step -/

/-- After a deal the seats hold the hands of the log. -/
theorem hands_dealRound {σ : Shuffle} {e₁ : GameEngine} (hdeal : e.dealRound σ = some e₁) :
    ∀ i < e.state.playerCount, e₁.state.hands i =
      RoundLog.hands { dealt := (e.dealtHands σ).getD [] } i := by
  obtain ⟨hands, hhands, rfl⟩ := dealRound_cases hdeal
  intro i hi
  rw [hhands]
  exact hands_dealt hands e.state.players hi

/-- The seats of the plan that the next round begins with. -/
theorem RoundInv.planSeats {log : RoundLog} {σ : Shuffle} {e₁ : GameEngine}
    {plan : TributePhasePlan} (h : RoundInv e log) (hphase : e.state.phase = .finished)
    (hdeal : e.dealRound σ = some e₁)
    (hplan : planRound e₁.state e₁.config e₁.previousRound = some plan) :
    PlanSeats plan e.state.playerCount := by
  have hst := h.seating.started (by simp [hphase])
  obtain ⟨order, hrecord⟩ := h.seating.record (.inr (.inr hphase))
  obtain ⟨hcount, hconfig, hprevious⟩ := dealRound_frame hdeal
  rw [hconfig, hprevious] at hplan
  rw [← hcount] at hrecord ⊢
  exact planSeats_of_record h.seating.mode.facts (hcount.trans hst.full) hrecord hplan

theorem PhaseInv.start {log : RoundLog} {σ : Shuffle} {e₁ : GameEngine} (h : RoundInv e log)
    (hphase : e.state.phase = .finished) (hdeal : e.dealRound σ = some e₁)
    (htribute : e₁.startTribute = some e') :
    PhaseInv e' { dealt := (e.dealtHands σ).getD [] } := by
  obtain ⟨plan, hplan, ⟨result, -, rfl⟩ | ⟨hskip, -, rfl⟩⟩ := startTribute_cases htribute
  · exact .of_phase (by simp [beginPlayingFromDeal]) (by simp [beginPlayingFromDeal])
  · have hseats := h.planSeats hphase hdeal hplan
    have hhands := hands_dealRound hdeal
    have hcount : e₁.state.playerCount = e.state.playerCount := (dealRound_frame hdeal).1
    refine ⟨fun _ => ⟨⟨rfl, ?_, hskip, ?_, ?_, ?_, rfl, rfl⟩, ?_⟩, fun hp => by cases hp⟩
    · show PlanSeats plan e₁.state.playerCount
      rw [hcount]
      exact hseats
    · show ∀ i < e₁.state.playerCount, _
      rw [hcount]
      exact hhands
    · exact (List.filter_eq_self.2 fun _ _ => rfl).symm
    · intro seat _ cardId hnone
      cases hnone
    · exact hseats.nonempty hskip

theorem PhaseInv.submitTribute {log : RoundLog} {id : PlayerId} (h : PhaseInv e log)
    (hsubmit : e.submitTribute id cardId = some (e', r)) : PhaseInv e' log := by
  rcases submitTribute_cases hsubmit with
    ⟨rfl, -⟩ | ⟨seat, hphase, -, -, hpending, hvalid, hrest⟩
  · exact h
  obtain ⟨hseat, hne, hmem, -⟩ := isValidTributeSubmission_iff.1 hvalid
  have hrec := (h.tribute hphase).toCollecting.record hne hmem hseat
  rcases hrest with ⟨hsome, rfl, -⟩ | ⟨hnone, hclose⟩
  · exact ⟨fun _ => ⟨hrec, hsome⟩, fun hp => absurd (hphase.symm.trans hp) (by simp)⟩
  · obtain ⟨hp, -, swaps, hinv, -⟩ := hrec.close hnone hclose
    exact ⟨fun hp' => absurd (hp.symm.trans hp') (by simp), fun _ => ⟨swaps, hinv⟩⟩

theorem PhaseInv.submitReturn {log : RoundLog} {id : PlayerId} (h : PhaseInv e log)
    (hsubmit : e.submitReturn id cardId = some (e', r)) : PhaseInv e' log := by
  rcases submitReturn_cases hsubmit with ⟨rfl, -⟩ | ⟨seat, hphase, -, -, hpending, hvalid, rfl, -⟩
  · exact h
  obtain ⟨-, hne, hmem, -⟩ := isValidReturnSubmission_iff.1 hvalid
  obtain ⟨swaps, hinv⟩ := h.returns hphase
  obtain ⟨sw, hsw, hopen, rfl, hto⟩ := hinv.open_swap hpending
  have hp : (e.recordReturn sw.taker cardId).state.phase = .returnTribute :=
    (SeatingInv.quiet_recordReturn e sw.taker cardId).2.trans hphase
  exact ⟨fun hp' => absurd (hp.symm.trans hp') (by simp),
    fun _ => ⟨_, hinv.record hsw hopen hto hne hmem⟩⟩

theorem PhaseInv.step {log : RoundLog} {op : EngineOp} {out : EngineOut} (h : PhaseInv e log)
    (hround : RoundInv e log) (hstep : engine.step e op = some (e', out)) :
    PhaseInv e' (recordRound log e op out e') := by
  cases engine_step hstep with
  | init hinit =>
    unfold GameEngine.init at hinit
    split_ifs at hinit
    cases hinit
    exact .of_phase (by simp) (by simp)
  | setPlayerReady id ready =>
    obtain ⟨hhands, hcount, hphase, -, htribute, hlast⟩ := setPlayerReady_frame e id ready
    exact h.congr hphase hcount hhands htribute hlast
  | updateConfig config =>
    unfold updateConfig
    split_ifs
    · exact h
    · exact h.congr rfl rfl rfl rfl rfl
  | startGame hstart =>
    rcases startGame_cases hstart with ⟨rfl, hcode⟩ | ⟨-, -, rfl, e₁, -, rfl⟩
    · rw [recordRound, if_neg hcode]
      exact h
    · exact .of_phase (by simp [beginPlayingFromDeal]) (by simp [beginPlayingFromDeal])
  | startGameThrew σ _ => exact h.congr rfl rfl rfl rfl rfl
  | startNextRound hstart =>
    rcases startNextRound_cases hstart with ⟨rfl, hcode⟩ | ⟨hphase, rfl, e₁, hdeal, htribute⟩
    · rw [recordRound, if_neg hcode]
      exact h
    · exact .start hround hphase hdeal htribute
  | startNextRoundThrew σ _ => exact h.congr rfl rfl rfl rfl rfl
  | playCards hplay =>
    rcases playCards_frame hplay with ⟨rfl, hcode, -⟩ | ⟨seat, pattern, -, -, hframe⟩
    · rw [recordRound, if_neg hcode]
      exact h
    · rcases hframe.phase with hp | hp
      · exact .of_phase (by simp [hp]) (by simp [hp])
      · exact .of_phase (by simp [hp]) (by simp [hp])
  | pass hpass =>
    rcases pass_cases hpass with ⟨rfl, -⟩ | ⟨seat, s, hphase, -⟩
    · exact h
    · have hp := (pass_frame hpass).2.2.2.1.trans hphase
      exact .of_phase (by simp [hp]) (by simp [hp])
  | submitTribute hsubmit => exact h.submitTribute hsubmit
  | submitReturn hsubmit => exact h.submitReturn hsubmit
  | finalizeTributePhase hfin =>
    have hp := (finishTributePhase_frame hfin).2.2.2
    exact .of_phase (by simp [hp]) (by simp [hp])
  | buildViewFor _ => exact h

/-- The calls with which play begins: from a deal, or at the end of the tribute phase. -/
inductive BeginsPlay (e : GameEngine) : EngineOp → GameEngine → EngineOut → Prop
  | startGame {σ : Shuffle} {e₁ : GameEngine} :
      e.state.phase = .waiting ∨ e.state.phase = .ready →
      GameEngine.dealRound { e with previousRound := {} } σ = some e₁ →
      BeginsPlay e (.startGame σ)
        (beginPlayingFromDeal { e₁ with lastTribute := { skipped := true } } 0) (.result {})
  | startNextRound {σ : Shuffle} {e₁ e' : GameEngine} : e.state.phase = .finished →
      e.dealRound σ = some e₁ → e₁.startTribute = some e' →
      BeginsPlay e (.startNextRound σ) e' (.result {})
  | finalizeTributePhase {e' : GameEngine} {r : PlayResult} :
      e.finishTributePhaseAndStartPlay = some (e', r) →
      BeginsPlay e .finalizeTributePhase e' (.result r)

theorem PhaseInv.beginsPlay {log : RoundLog} {op : EngineOp} {out : EngineOut}
    (h : PhaseInv e log) (hstep : engine.step e op = some (e', out))
    (hfrom : e.state.phase ≠ .playing) (hto : e'.state.phase = .playing) :
    BeginsPlay e op e' out := by
  cases engine_step hstep with
  | init hinit =>
    unfold GameEngine.init at hinit
    split_ifs at hinit
    cases hinit
    cases hto
  | setPlayerReady id ready =>
    rw [(setPlayerReady_frame e id ready).2.2.1] at hto
    exact absurd hto hfrom
  | updateConfig config =>
    unfold updateConfig at hto
    split_ifs at hto
    · exact absurd hto hfrom
    · exact absurd hto hfrom
  | startGame hstart =>
    rcases startGame_cases hstart with ⟨rfl, -⟩ | ⟨hphase, -, rfl, e₁, hdeal, rfl⟩
    · exact absurd hto hfrom
    · exact .startGame hphase hdeal
  | startGameThrew σ _ => exact absurd hto hfrom
  | startNextRound hstart =>
    rcases startNextRound_cases hstart with ⟨rfl, -⟩ | ⟨hphase, rfl, e₁, hdeal, htribute⟩
    · exact absurd hto hfrom
    · exact .startNextRound hphase hdeal htribute
  | startNextRoundThrew σ _ => exact absurd hto hfrom
  | playCards hplay =>
    rcases playCards_cases hplay with ⟨rfl, -⟩ | ⟨seat, pattern, hplayable, -⟩
    · exact absurd hto hfrom
    · exact absurd hplayable.phase hfrom
  | pass hpass =>
    rcases pass_cases hpass with ⟨rfl, -⟩ | ⟨seat, s, hphase, -⟩
    · exact absurd hto hfrom
    · exact absurd hphase hfrom
  | submitTribute hsubmit =>
    -- somebody has tributed, so the last tribute asks for returns
    rcases submitTribute_cases hsubmit with ⟨rfl, -⟩ | ⟨seat, hphase, -, -, -, hvalid, hrest⟩
    · exact absurd hto hfrom
    obtain ⟨hseat, hne, hmem, -⟩ := isValidTributeSubmission_iff.1 hvalid
    have hrec := (h.tribute hphase).toCollecting.record hne hmem hseat
    rcases hrest with ⟨-, rfl, -⟩ | ⟨hnone, hclose⟩
    · exact absurd hto hfrom
    · rw [(hrec.close hnone hclose).1] at hto
      cases hto
  | submitReturn hsubmit =>
    rcases submitReturn_cases hsubmit with ⟨rfl, -⟩ | ⟨seat, hphase, -, -, -, -, rfl, -⟩
    · exact absurd hto hfrom
    · rw [(SeatingInv.quiet_recordReturn _ _ _).2] at hto
      exact absurd hto hfrom
  | finalizeTributePhase hfin => exact .finalizeTributePhase hfin
  | buildViewFor _ => exact absurd hto hfrom

theorem phaseInv_newEngine (mode : String) : PhaseInv (newEngine mode).1 (newEngine mode).2 :=
  .of_phase (by simp [newEngine, GameEngine.new]) (by simp [newEngine, GameEngine.new])

end Guandan
