import Guandan.Engine.Choices
import Guandan.Engine.TributePhase

/-!
# Who can give and return

In the tribute phase a pending seat is live if the engine accepts some card from it, accepts what
the seat's view shows, and accepts what the bot would choose. The view, the choosers and the checks
all go by the cards of the hand, where the id 0 means "no card": a pending seat is live exactly when
its hand serves (`CanTribute`, `CanReturn`).
-/

namespace Guandan

open GameState GameEngine TributeManager

/-! ### The deck -/

theorem zeroCard_createFullDeck {deckCount : Nat} (h : 54 * deckCount ≤ 2 ^ 16) :
    ZeroCard (createFullDeck deckCount) := by
  intro card hcard hid
  obtain ⟨i, hi, rfl⟩ := List.mem_iff_getElem.1 hcard
  have hlen := length_createFullDeck deckCount
  simp only [createFullDeck, makeCard, List.getElem_map, List.getElem_zipIdx, Nat.zero_add]
    at hid ⊢
  have hzero : i = 0 := by
    rwa [Nat.mod_eq_of_lt (by omega)] at hid
  subst hzero
  obtain ⟨n, rfl⟩ : ∃ n, deckCount = n + 1 := ⟨deckCount - 1, by omega⟩
  exact ⟨rfl, rfl⟩

theorem ZeroCard.shuffled {e : GameEngine} (hm : ModeFacts e.config) (σ : Shuffle) :
    ZeroCard (e.shuffled σ) :=
  fun card hcard hid => zeroCard_createFullDeck hm.decks card ((σ.perm _).subset hcard) hid

theorem zeroCard_step {e e' : GameEngine} {op : EngineOp} {out : EngineOut}
    (h : ZeroCard e.state.allCards) (hm : ModeFacts e.config)
    (hstep : engine.step e op = some (e', out)) : ZeroCard e'.state.allCards := by
  cases engine_step hstep with
  | init hinit =>
    unfold GameEngine.init at hinit
    split_ifs at hinit
    cases hinit
    exact zeroCard_createFullDeck hm.decks
  | setPlayerReady id ready =>
    unfold setPlayerReady
    rcases e.state.getPlayerById id with _ | seat
    · exact h
    · exact h
  | updateConfig config =>
    unfold updateConfig
    split_ifs
    · exact h
    · exact h
  | startGame hstart =>
    rcases startGame_cases hstart with ⟨rfl, -⟩ | ⟨-, -, -, e₁, hdeal, rfl⟩
    · exact h
    · obtain ⟨hands, -, rfl⟩ := dealRound_cases hdeal
      exact ZeroCard.shuffled (e := { e with previousRound := {} }) hm _
  | startGameThrew σ _ => exact ZeroCard.shuffled (e := { e with previousRound := {} }) hm σ
  | startNextRound hstart =>
    rcases startNextRound_cases hstart with ⟨rfl, -⟩ | ⟨-, -, e₁, hdeal, htribute⟩
    · exact h
    · rw [(AccountingInv.startTribute_frame htribute).1.allCards]
      obtain ⟨hands, -, rfl⟩ := dealRound_cases hdeal
      exact ZeroCard.shuffled hm _
  | startNextRoundThrew σ _ => exact ZeroCard.shuffled hm σ
  | playCards hplay =>
    rcases playCards_frame hplay with ⟨rfl, -⟩ | ⟨seat, pattern, -, -, hframe⟩
    · exact h
    · rw [hframe.seats.allCards]
      exact h
  | pass hpass =>
    rw [(pass_frame hpass).2.2.1]
    exact h
  | submitTribute hsubmit =>
    rcases submitTribute_cases hsubmit with ⟨rfl, -⟩ | ⟨seat, -, -, -, -, -, hrest⟩
    · exact h
    rcases hrest with ⟨-, rfl, -⟩ | ⟨-, hclose⟩
    · exact h
    · obtain ⟨s, result, -, hsame, -⟩ := closeTributes_frame hclose
      rw [hsame.allCards]
      exact h
  | submitReturn hsubmit =>
    rcases submitReturn_cases hsubmit with ⟨rfl, -⟩ | ⟨seat, -, -, -, -, -, rfl, -⟩
    · exact h
    · rw [(SeatingInv.quiet_recordReturn e seat _).1.allCards]
      exact h
  | finalizeTributePhase hfin =>
    rw [(finishTributePhase_frame hfin).1.allCards]
    exact h
  | buildViewFor _ => exact h

/-! ### The cards of a hand -/

/-- The cards of a seat, looked up. -/
def handCards (e : GameEngine) (seat : Nat) : List Card :=
  (e.state.cardsFromIds (e.state.hands seat)).getD []

section HandCards

variable {e : GameEngine} {seat : Nat}

theorem cardsFromIds_handCards (hknown : e.state.KnownHands) (hseat : seat < e.state.playerCount) :
    e.state.cardsFromIds (e.state.players seat).hand.cards = some (handCards e seat) := by
  obtain ⟨cards, hcards⟩ := Option.isSome_iff_exists.1 (hknown.cardsFromIds hseat)
  rw [handCards, hcards, Option.getD_some]
  exact hcards

theorem ids_cardsFromIds {s : GameState} {ids : List CardId} {cards : List Card}
    (h : s.cardsFromIds ids = some cards) : cards.map (·.id) = ids := by
  unfold cardsFromIds at h
  induction ids generalizing cards with
  | nil =>
    cases h
    rfl
  | cons id ids ih =>
    simp only [List.mapM_cons, Option.bind_eq_bind, Option.bind_eq_some_iff, Option.pure_def,
      Option.some.injEq] at h
    obtain ⟨card, hcard, rest, hrest, rfl⟩ := h
    rw [List.map_cons, getCardById_id hcard, ih hrest]

theorem ids_handCards (hknown : e.state.KnownHands) (hseat : seat < e.state.playerCount) :
    (handCards e seat).map (·.id) = e.state.hands seat :=
  ids_cardsFromIds (cardsFromIds_handCards hknown hseat)

theorem zeroCard_handCards (hknown : e.state.KnownHands) (hseat : seat < e.state.playerCount)
    (hz : ZeroCard e.state.allCards) : ZeroCard (handCards e seat) := by
  intro card hcard hid
  obtain ⟨id, -, hget⟩ := mem_of_mapM (cardsFromIds_handCards hknown hseat) card hcard
  exact hz card (List.mem_of_find?_eq_some hget) hid

/-- The card a seat has to give, 0 standing for none. -/
def tributeChoice (e : GameEngine) (seat : Nat) : CardId :=
  ((handCards e seat).foldl (pickBestStep e.ruleContext) (0, -1)).1

theorem requiredTributeCard_eq (hknown : e.state.KnownHands) (hseat : seat < e.state.playerCount) :
    requiredTributeCard (e.state.players seat).hand e.state e.ruleContext =
      some (tributeChoice e seat) := by
  unfold requiredTributeCard pickBestTributeCard
  rw [cardsFromIds_handCards hknown hseat]
  rfl

theorem validReturnCardIds_eq (hknown : e.state.KnownHands) (hseat : seat < e.state.playerCount) :
    validReturnCardIds (e.state.players seat).hand e.state e.ruleContext =
      some (returnableCards (handCards e seat) e.ruleContext) := by
  unfold validReturnCardIds
  rw [cardsFromIds_handCards hknown hseat]
  rfl

end HandCards

/-! ### What is accepted from a pending seat -/

def TributeAccepted (e : GameEngine) (seat : Nat) (cardId : CardId) : Prop :=
  ∃ e' r, e.submitTribute (e.state.players seat).id cardId = some (e', r) ∧ r.code = .ok

def ReturnAccepted (e : GameEngine) (seat : Nat) (cardId : CardId) : Prop :=
  ∃ e' r, e.submitReturn (e.state.players seat).id cardId = some (e', r) ∧ r.code = .ok

section Accepted

variable {e : GameEngine} {log : RoundLog} {seat : Nat} {cardId : CardId}
  {dealt : Nat → List CardId}

/-- Once everybody has submitted the cards change hands. -/
theorem Collecting.closeTributes_isSome (h : Collecting e dealt) (hknown : e.state.KnownHands)
    (hnone : e.tributeState.pendingTributers = []) : e.closeTributes.isSome := by
  have hall := h.all_submitted hnone
  have hpending : (pendingTributes e.state e.tributeState.plan
      e.tributeState.tributeSubmissions).isSome := by
    unfold pendingTributes
    refine mapM_isSome fun pair hpair => ?_
    obtain ⟨seat, hseat, hpair⟩ := List.mem_filterMap.1 hpair
    obtain ⟨c, hsub, hne, hmem⟩ := hall seat hseat
    have hlt := h.plan.lt seat (List.mem_append_left _ hseat)
    simp only [hsub, Option.bind_some, if_neg hne, Option.some.injEq] at hpair
    subst hpair
    rw [Option.isSome_map]
    exact hknown seat hlt c (h.hands seat hlt ▸ hmem)
  obtain ⟨pending, hpending⟩ := Option.isSome_iff_exists.1 hpending
  have hassign : (assignTributes e.state e.ruleContext e.tributeState.plan
      e.tributeState.tributeSubmissions
      { e.lastTribute with skipped := false, antiTribute := false }).isSome := by
    unfold assignTributes
    rw [hpending]
    simp only [Option.bind_eq_bind, Option.bind_some]
    split_ifs <;> rfl
  obtain ⟨⟨s, result⟩, hassign⟩ := Option.isSome_iff_exists.1 hassign
  have hsome : result.tributes ≠ [] := by
    intro hnil
    have hfrom := (assigned h.plan h.hands hall hassign).1
    rw [hnil] at hfrom
    exact h.plan.nonempty h.started hfrom.nil_eq.symm
  unfold closeTributes
  rw [hassign]
  simp only [Option.bind_eq_bind, Option.bind_some]
  rw [if_neg (by simpa using hsome)]
  rfl

/-- What is known of a seat that still has to submit a tribute. -/
theorem tributer_facts (hround : RoundInv e log) (hph : PhaseInv e log)
    (hphase : e.state.phase = .tribute) (hpend : seat ∈ e.tributeState.pendingTributers) :
    e.state.KnownHands ∧ seat < e.state.playerCount ∧
      e.seatOf (e.state.players seat).id = some seat ∧
      requiredTributeCard (e.state.players seat).hand e.state e.ruleContext =
        some (tributeChoice e seat) := by
  have ht := hph.tribute hphase
  have hne : e.state.phase ≠ .waiting := by simp [hphase]
  have hknown := hround.knownHands hne
  have hmem : seat ∈ e.tributeState.plan.tributerSeats := by
    rw [ht.pending] at hpend
    exact List.mem_of_mem_filter hpend
  have hseat := ht.plan.lt seat (List.mem_append_left _ hmem)
  exact ⟨hknown, hseat, SeatingInv.seatOf_eq (hround.seating.started hne) hseat,
    requiredTributeCard_eq hknown hseat⟩

/-- What is known of a seat that still has to return a card. -/
theorem returner_facts (hround : RoundInv e log) (hphase : e.state.phase = .returnTribute)
    (hpend : seat ∈ e.tributeState.pendingReturnSeats) :
    e.state.KnownHands ∧ seat < e.state.playerCount ∧
      e.seatOf (e.state.players seat).id = some seat ∧
      validReturnCardIds (e.state.players seat).hand e.state e.ruleContext =
        some (returnableCards (handCards e seat) e.ruleContext) := by
  have hne : e.state.phase ≠ .waiting := by simp [hphase]
  have hknown := hround.knownHands hne
  have hseat := (hround.accounting.seats.returns hphase seat hpend).1
  exact ⟨hknown, hseat, SeatingInv.seatOf_eq (hround.seating.started hne) hseat,
    validReturnCardIds_eq hknown hseat⟩

theorem tributeAccepted_iff (cardId : CardId) (hround : RoundInv e log) (hph : PhaseInv e log)
    (hphase : e.state.phase = .tribute) (hpend : seat ∈ e.tributeState.pendingTributers) :
    TributeAccepted e seat cardId ↔ cardId ≠ 0 ∧ tributeChoice e seat = cardId := by
  have ht := hph.tribute hphase
  obtain ⟨hknown, hseat, hseatOf, hreq⟩ := tributer_facts hround hph hphase hpend
  constructor
  · rintro ⟨e', r, hsubmit, hcode⟩
    rcases submitTribute_cases hsubmit with ⟨-, hno⟩ | ⟨seat', -, -, hseat', -, hvalid, -⟩
    · exact absurd hcode hno
    · rw [hseatOf, Option.some.injEq] at hseat'
      subst hseat'
      obtain ⟨-, h0, -, hchoice⟩ := isValidTributeSubmission_iff.1 hvalid
      rw [hreq, Option.some.injEq] at hchoice
      exact ⟨h0, hchoice⟩
  · rintro ⟨h0, rfl⟩
    have hheld : tributeChoice e seat ∈ e.state.hands seat := by
      rw [← ids_handCards hknown hseat]
      exact pickBest_mem h0
    have hvalid := isValidTributeSubmission_iff.2 ⟨hseat, h0, hheld, hreq⟩
    have hrec := ht.toCollecting.record h0 hheld hseat
    unfold TributeAccepted submitTribute
    rw [if_neg (by simp [hphase, ht.active]), hseatOf]
    dsimp only
    rw [if_neg (not_not_intro hpend), hvalid]
    simp only [Option.bind_eq_bind, Option.bind_some, Bool.not_true, Bool.false_eq_true, if_false]
    by_cases hlast : (e.recordTribute seat (tributeChoice e seat)).tributeState.pendingTributers = []
    · rw [if_neg (by simp [hlast])]
      obtain ⟨⟨e', r⟩, hclose⟩ := Option.isSome_iff_exists.1
        (hrec.closeTributes_isSome hknown hlast)
      exact ⟨e', r, hclose, by rw [(hrec.close hlast hclose).2.1]⟩
    · rw [if_pos (by simpa using hlast)]
      exact ⟨_, _, rfl, rfl⟩

theorem returnAccepted_iff (cardId : CardId) (hround : RoundInv e log) (hph : PhaseInv e log)
    (hphase : e.state.phase = .returnTribute) (hpend : seat ∈ e.tributeState.pendingReturnSeats) :
    ReturnAccepted e seat cardId ↔
      cardId ≠ 0 ∧ cardId ∈ returnableCards (handCards e seat) e.ruleContext := by
  obtain ⟨swaps, hinv⟩ := hph.returns hphase
  obtain ⟨hknown, hseat, hseatOf, hids⟩ := returner_facts hround hphase hpend
  constructor
  · rintro ⟨e', r, hsubmit, hcode⟩
    rcases submitReturn_cases hsubmit with ⟨-, hno⟩ | ⟨seat', -, -, hseat', -, hvalid, -⟩
    · exact absurd hcode hno
    · rw [hseatOf, Option.some.injEq] at hseat'
      subst hseat'
      obtain ⟨-, h0, -, ids, hchoice, hmem⟩ := isValidReturnSubmission_iff.1 hvalid
      rw [hids, Option.some.injEq] at hchoice
      exact ⟨h0, hchoice ▸ hmem⟩
  · rintro ⟨h0, hmem⟩
    have hheld : cardId ∈ e.state.hands seat := by
      rw [← ids_handCards hknown hseat]
      exact returnable_subset hmem
    have hvalid := isValidReturnSubmission_iff.2 ⟨hseat, h0, hheld, _, hids, hmem⟩
    unfold ReturnAccepted submitReturn
    rw [if_neg (by simp [hphase, hinv.active]), hseatOf]
    dsimp only
    rw [if_neg (not_not_intro hpend), hvalid]
    exact ⟨_, _, rfl, rfl⟩

end Accepted

/-! ### Live seats -/

/-- A pending tributer can give: some card is accepted, and so are the card shown and the bot's. -/
structure TributeLive (e : GameEngine) (seat : Nat) : Prop where
  some_card : ∃ cardId, TributeAccepted e seat cardId
  view : ∀ anchor, ∃ v, e.buildViewFor (e.state.players seat).id anchor = some v ∧
    TributeAccepted e seat v.requiredTributeCardId
  bot : ∃ cardId, e.chooseBotTributeCard (e.state.players seat).id = some (some cardId) ∧
    TributeAccepted e seat cardId

/-- A pending recipient can return: some card is accepted, and so are the cards shown and the
bot's. -/
structure ReturnLive (e : GameEngine) (seat : Nat) : Prop where
  some_card : ∃ cardId, ReturnAccepted e seat cardId
  view : ∀ anchor, ∃ v, e.buildViewFor (e.state.players seat).id anchor = some v ∧
    ∀ cardId ∈ v.validReturnCardIds, ReturnAccepted e seat cardId
  bot : ∃ cardId, e.chooseBotReturnCard (e.state.players seat).id = some (some cardId) ∧
    ReturnAccepted e seat cardId

/-- Nobody is stranded. -/
structure Live (e : GameEngine) : Prop where
  tribute : e.state.phase = .tribute → ∀ seat ∈ e.tributeState.pendingTributers, TributeLive e seat
  returns : e.state.phase = .returnTribute → ∀ seat ∈ e.tributeState.pendingReturnSeats,
    ReturnLive e seat

/-- The hands of the pending seats serve. -/
def HandsServe (e : GameEngine) : Prop :=
  (e.state.phase = .tribute → ∀ seat ∈ e.tributeState.pendingTributers,
    CanTribute e.ruleContext (handCards e seat)) ∧
  (e.state.phase = .returnTribute → ∀ seat ∈ e.tributeState.pendingReturnSeats,
    CanReturn e.ruleContext (handCards e seat))

instance : DecidablePred HandsServe := fun _ => inferInstanceAs (Decidable (_ ∧ _))

section Live

variable {e : GameEngine} {log : RoundLog} {seat : Nat}

/-- The view of a seat, once what it has to give and may return is known. -/
theorem buildViewFor_of {id : PlayerId} {required : CardId} {returns : List CardId}
    (h1 : e.viewRequired (e.seatOf id) = some required)
    (h2 : e.viewReturns (e.seatOf id) = some returns) (anchor : Option Nat) :
    ∃ v, e.buildViewFor id anchor = some v ∧ v.requiredTributeCardId = required ∧
      v.validReturnCardIds = returns := by
  unfold buildViewFor
  dsimp only
  rw [h1, h2]
  exact ⟨_, rfl, rfl, rfl⟩

theorem tributeLive_iff (hround : RoundInv e log) (hph : PhaseInv e log)
    (hz : ZeroCard e.state.allCards) (hphase : e.state.phase = .tribute)
    (hpend : seat ∈ e.tributeState.pendingTributers) :
    TributeLive e seat ↔ CanTribute e.ruleContext (handCards e seat) := by
  have ht := hph.tribute hphase
  obtain ⟨hknown, hseat, hseatOf, hreq⟩ := tributer_facts hround hph hphase hpend
  have haccept := fun cardId =>
    tributeAccepted_iff cardId hround hph hphase hpend
  rw [← pickBest_ne_zero_iff (zeroCard_handCards hknown hseat hz)]
  change _ ↔ tributeChoice e seat ≠ 0
  constructor
  · rintro ⟨⟨cardId, hcard⟩, -, -⟩
    obtain ⟨h0, hchoice⟩ := (haccept cardId).1 hcard
    rwa [hchoice]
  · intro h0
    have hchoice := (haccept (tributeChoice e seat)).2 ⟨h0, rfl⟩
    refine ⟨⟨_, hchoice⟩, fun anchor => ?_, tributeChoice e seat, ?_, hchoice⟩
    · have hview : e.viewRequired (e.seatOf (e.state.players seat).id) =
          some (tributeChoice e seat) := by
        rw [hseatOf]
        unfold viewRequired
        dsimp only
        rw [if_pos ⟨ht.active, hphase, hpend⟩, hreq]
      have hreturns : e.viewReturns (e.seatOf (e.state.players seat).id) = some [] := by
        rw [hseatOf]
        unfold viewReturns viewMustReturn
        simp [hphase]
      obtain ⟨v, hv, hv', -⟩ := buildViewFor_of hview hreturns anchor
      exact ⟨v, hv, hv' ▸ hchoice⟩
    · unfold chooseBotTributeCard
      rw [hseatOf]
      dsimp only
      rw [hreq, Option.map_some, cardOrNone, if_neg h0]

theorem returnLive_iff (hround : RoundInv e log) (hph : PhaseInv e log)
    (hz : ZeroCard e.state.allCards) (hphase : e.state.phase = .returnTribute)
    (hpend : seat ∈ e.tributeState.pendingReturnSeats) :
    ReturnLive e seat ↔ CanReturn e.ruleContext (handCards e seat) := by
  obtain ⟨swaps, hinv⟩ := hph.returns hphase
  obtain ⟨hknown, hseat, hseatOf, hids⟩ := returner_facts hround hphase hpend
  have hcards : handCards e seat ≠ [] := by
    -- a pending recipient has the card it was given
    obtain ⟨sw, hsw, hopen, rfl, -⟩ := hinv.open_swap hpend
    have hlen := hinv.exchanged.length_taker hsw
    rw [hopen] at hlen
    intro hnil
    have hhand := ids_handCards hknown hseat
    rw [hnil] at hhand
    rw [← hhand] at hlen
    simp at hlen
  have haccept := fun cardId =>
    returnAccepted_iff cardId hround hph hphase hpend
  have hview : e.viewRequired (e.seatOf (e.state.players seat).id) = some 0 := by
    rw [hseatOf]
    unfold viewRequired
    simp [hphase]
  have hreturns : e.viewReturns (e.seatOf (e.state.players seat).id) =
      some (returnableCards (handCards e seat) e.ruleContext) := by
    rw [hseatOf]
    unfold viewReturns viewMustReturn
    dsimp only
    rw [if_pos (by simp [hinv.active, hphase, hpend]), hids]
  rw [← zero_not_returnable_iff (zeroCard_handCards hknown hseat hz) hcards]
  constructor
  · rintro ⟨-, hshown, -⟩ hzero
    obtain ⟨v, hv, hall⟩ := hshown none
    obtain ⟨v', hv', -, hoffer⟩ := buildViewFor_of hview hreturns none
    rw [hv, Option.some.injEq] at hv'
    subst hv'
    exact ((haccept 0).1 (hall 0 (hoffer ▸ hzero))).1 rfl
  · intro hzero
    have hoffer : ∀ cardId ∈ returnableCards (handCards e seat) e.ruleContext,
        ReturnAccepted e seat cardId := by
      intro cardId hmem
      exact (haccept cardId).2 ⟨fun h => hzero (h ▸ hmem), hmem⟩
    obtain ⟨h0, hpick⟩ := returnFrom_mem hcards hzero
    refine ⟨⟨_, hoffer _ hpick⟩, fun anchor => ?_, _, ?_, hoffer _ hpick⟩
    · obtain ⟨v, hv, -, hv'⟩ := buildViewFor_of hview hreturns anchor
      exact ⟨v, hv, hv' ▸ hoffer⟩
    · unfold chooseBotReturnCard
      rw [hseatOf]
      dsimp only
      rw [pickReturnCard_eq (cardsFromIds_handCards hknown hseat), Option.map_some, cardOrNone,
        if_neg h0]

theorem live_iff (hround : RoundInv e log) (hph : PhaseInv e log) (hz : ZeroCard e.state.allCards) :
    Live e ↔ HandsServe e := by
  constructor
  · intro h
    exact ⟨fun hp seat hpend => (tributeLive_iff hround hph hz hp hpend).1 (h.tribute hp seat hpend),
      fun hp seat hpend => (returnLive_iff hround hph hz hp hpend).1 (h.returns hp seat hpend)⟩
  · intro h
    exact ⟨fun hp seat hpend => (tributeLive_iff hround hph hz hp hpend).2 (h.1 hp seat hpend),
      fun hp seat hpend => (returnLive_iff hround hph hz hp hpend).2 (h.2 hp seat hpend)⟩

end Live

/-! ### Along a run -/

/-- What the states of a run have in common. -/
structure LivenessInv (sg : GameEngine × RoundLog) : Prop where
  round : RoundInv sg.1 sg.2
  phase : PhaseInv sg.1 sg.2
  deck : ZeroCard sg.1.state.allCards

theorem livenessInv_newEngine (mode : String) : LivenessInv (newEngine mode) :=
  ⟨roundInv_newEngine mode, phaseInv_newEngine mode, by simp [ZeroCard, newEngine, GameEngine.new]⟩

theorem LivenessInv.step {sg sg' : GameEngine × RoundLog} {op : EngineOp} {out : EngineOut}
    (h : LivenessInv sg) (hok : CalledOp sg.1 op)
    (hstep : loggedEngine.step sg op = some (sg', out)) : LivenessInv sg' := by
  obtain ⟨happly, hlog⟩ := Machine.withHistory_step.1 hstep
  refine ⟨?_, ?_, zeroCard_step h.deck h.round.seating.mode.facts happly⟩
  · rw [hlog]
    exact h.round.step hok happly
  · rw [hlog]
    exact h.phase.step h.round happly

/-- Along a run in which the tribute phase is finalized only when it is on (`CalledOp`), nobody is ever
stranded exactly when in every state the hands of the pending seats serve. -/
theorem tribute_liveness (mode : String) {ops : List EngineOp}
    (hok : loggedEngine.Follows (fun sg => CalledOp sg.1) (newEngine mode) ops) :
    loggedEngine.Always (fun sg => Live sg.1) (newEngine mode) ops ↔
      loggedEngine.Always (fun sg => HandsServe sg.1) (newEngine mode) ops :=
  Machine.always_congr (J := LivenessInv) (fun _ _ _ _ h hop hstep => h.step hop hstep)
    (fun _ h => live_iff h.round h.phase h.deck) (livenessInv_newEngine mode) hok

theorem tribute_liveness_doubleDown :
    loggedEngine.Always (fun sg => Live sg.1) (newEngine "solo")
        (doubleDown ++ [.startNextRound (Shuffle.stack [5, 6, 7, 8, 9, 10, 11, 12])]) ↔
      loggedEngine.Always (fun sg => HandsServe sg.1) (newEngine "solo")
        (doubleDown ++ [.startNextRound (Shuffle.stack [5, 6, 7, 8, 9, 10, 11, 12])]) :=
  tribute_liveness "solo" (.of_forall (by simp [doubleDown, startSolo, CalledOp]))

/-- At level 5 a tributer is dealt the two of spades, card 0, and the wild heart five. -/
theorem zero_and_wild_stranded :
    ¬ ∀ (mode : String) (ops : List EngineOp),
      loggedEngine.Follows (fun sg => CalledOp sg.1) (newEngine mode) ops →
        loggedEngine.Always (fun sg => Live sg.1) (newEngine mode) ops := by
  intro h
  have hok : loggedEngine.Follows (fun sg => CalledOp sg.1) (newEngine "solo")
      (doubleDown ++ [.startNextRound (Shuffle.stack [5, 6, 7, 8, 9, 10, 0, 16])]) :=
    .of_forall (by simp [doubleDown, startSolo, CalledOp])
  obtain ⟨sg, hrun, hnot⟩ := Machine.exists_run_of_any
    (M := loggedEngine) (s := newEngine "solo") (P := fun sg => ¬ HandsServe sg.1)
    (l := doubleDown ++ [.startNextRound (Shuffle.stack [5, 6, 7, 8, 9, 10, 0, 16])])
    (by decide +kernel)
  have hinv : LivenessInv sg := (Machine.reachable_of_run hok hrun).invariant
    (livenessInv_newEngine "solo") fun _ _ _ _ hs hop hstep => hs.step hop hstep
  exact hnot ((live_iff hinv.round hinv.phase hinv.deck).1 ((h _ _ hok).of_run hrun))

end Guandan
