import Guandan.Engine.TributePhase

/-!
# The interactive tribute refines the one-shot resolution

`TributeManager.resolveRound` resolves a tribute phase at once, the engine over a run of calls. From
any engine that has just been dealt to, and for any order in which tributers submit their required
cards and then recipients a card that `pickReturnCard` picks, the run ends in what `resolveRound`
computes. The run is in one of two stages, `Asking` and `Answering`; the returns made so far are a
list `done` of tributes answered, and the order of that list does not matter as no seat takes part
in two transfers (`Apart`).
-/

namespace Guandan

open GameState GameEngine TributeManager

/-! ### Only the deck counts for looking up a card -/

section Deck

variable {s s' : GameState}

theorem cardsFromIds_congr (h : s'.allCards = s.allCards) (ids : List CardId) :
    s'.cardsFromIds ids = s.cardsFromIds ids := by
  have hget : s'.getCardById = s.getCardById := by
    funext id
    rw [getCardById, getCardById, h]
  rw [cardsFromIds, cardsFromIds, hget]

theorem requiredTributeCard_congr (h : s'.allCards = s.allCards) (hand : Hand) (ctx : RuleContext) :
    requiredTributeCard hand s' ctx = requiredTributeCard hand s ctx := by
  unfold requiredTributeCard pickBestTributeCard
  rw [cardsFromIds_congr h]

theorem pickReturnCard_congr (h : s'.allCards = s.allCards) (hand : Hand) (ctx : RuleContext) :
    pickReturnCard hand s' ctx = pickReturnCard hand s ctx := by
  unfold pickReturnCard pickBestReturnCard pickSmallestCard
  rw [cardsFromIds_congr h]

theorem validReturnCardIds_congr (h : s'.allCards = s.allCards) (hand : Hand) (ctx : RuleContext) :
    validReturnCardIds hand s' ctx = validReturnCardIds hand s ctx := by
  unfold validReturnCardIds
  rw [cardsFromIds_congr h]

/-- The submissions of the tributers are all that is read of the submissions. -/
theorem pendingTributes_congr {plan : TributePhasePlan} {sub sub' : Nat → Option CardId}
    (h : s'.allCards = s.allCards) (hsub : ∀ seat ∈ plan.tributerSeats, sub' seat = sub seat) :
    pendingTributes s' plan sub' = pendingTributes s plan sub := by
  have hget : s'.getCardById = s.getCardById := by
    funext id
    rw [getCardById, getCardById, h]
  unfold pendingTributes
  rw [hget]
  congr 1
  refine List.filterMap_congr fun seat hseat => ?_
  rw [hsub seat hseat]

theorem computeFirstPlayerSeat_congr {result result' : TributeRoundResult} {headSeat n : Nat}
    {ctx : RuleContext} {previous : PreviousRoundInfo} (h : s'.allCards = s.allCards)
    (hskip : result'.skipped = result.skipped) (hanti : result'.antiTribute = result.antiTribute)
    (htributes : result'.tributes = result.tributes) :
    computeFirstPlayerSeat result' headSeat s' ctx previous n =
      computeFirstPlayerSeat result headSeat s ctx previous n := by
  have hget : s'.getCardById = s.getCardById := by
    funext id
    rw [getCardById, getCardById, h]
  unfold computeFirstPlayerSeat
  rw [hskip, hanti, htributes, hget]

end Deck

/-! ### The plan of any previous round -/

/-- Seats of different ranks are different, whatever the record of the previous round is. -/
theorem planRound_apart {s : GameState} {config : GameRuleConfig} {previous : PreviousRoundInfo}
    {plan : TributePhasePlan} (h : planRound s config previous = some plan) :
    (plan.tributerSeats ++ plan.recipientSeats).Nodup ∧
      plan.tributerSeats.length ≤ plan.recipientSeats.length := by
  rcases planRound_cases h with
    ⟨-, h1, h2, -⟩ | ⟨head, ranks, recipients, summary, anti, -, -, hhead, hdown, rfl⟩
  · rw [h1, h2]
    exact ⟨List.nodup_nil, Nat.le_refl _⟩
  rw [withAntiTribute_tributerSeats, withAntiTribute_recipientSeats]
  have hrank : ∀ rank seat, seatByFinishRank previous rank s.playerCount = some seat →
      previous.finishRankBySeat seat = rank := by
    intro rank seat hseat
    simpa using List.find?_some hseat
  have hsub : ((downPlan previous s.playerCount head ranks recipients summary).tributerSeats.map
      previous.finishRankBySeat).Sublist ranks := map_filterMap_sublist hrank
  have hlen : (downPlan previous s.playerCount head ranks recipients
      summary).tributerSeats.length ≤ ranks.length := List.length_filterMap_le ..
  suffices hrec : ∃ others, recipients.map previous.finishRankBySeat = others ∧
      (ranks ++ others).Nodup ∧ ranks.length = recipients.length by
    obtain ⟨others, hothers, hnodup, heq⟩ := hrec
    refine ⟨List.Nodup.of_map previous.finishRankBySeat ?_, hlen.trans heq.le⟩
    rw [List.map_append]
    refine hnodup.sublist (hsub.append ?_)
    show (recipients.map previous.finishRankBySeat).Sublist others
    rw [hothers]
  cases hdown with
  | triple _ h2 h3 => exact ⟨[1, 2, 3], by simp [hrank _ _ hhead, hrank _ _ h2, hrank _ _ h3], by simp⟩
  | singleOfSix _ => exact ⟨[1], by simp [hrank _ _ hhead], by simp⟩
  | double _ h2 => exact ⟨[1, 2], by simp [hrank _ _ hhead, hrank _ _ h2], by simp⟩
  | singleOfFour _ => exact ⟨[1], by simp [hrank _ _ hhead], by simp⟩

theorem map_snd_zip_sublist {α β : Type*} (l₁ : List α) (l₂ : List β) :
    ((l₁.zip l₂).map Prod.snd).Sublist l₂ := by
  induction l₁ generalizing l₂ with
  | nil => exact List.nil_sublist _
  | cons a l₁ ih =>
    cases l₂ with
    | nil => exact .slnil
    | cons b l₂ => exact (ih l₂).cons_cons b

/-- The transfers of a plan, one from each tributer. -/
theorem apart_transfersOf {plan : TributePhasePlan} {pending sorted : List PendingTribute}
    (hnodup : (plan.tributerSeats ++ plan.recipientSeats).Nodup)
    (hlen : plan.tributerSeats.length ≤ plan.recipientSeats.length)
    (hfrom : pending.map (·.fromSeat) = plan.tributerSeats) (hperm : sorted.Perm pending) :
    Apart (transfersOf sorted plan.recipientSeats) := by
  have hfst : (transfersOf sorted plan.recipientSeats).map (·.fromSeat) =
      sorted.map (·.fromSeat) := by
    have hle : sorted.length ≤ plan.recipientSeats.length := by
      rw [hperm.length_eq, ← List.length_map (f := PendingTribute.fromSeat), hfrom]
      exact hlen
    have hzip := congrArg (List.map PendingTribute.fromSeat) (List.map_fst_zip hle)
    rw [List.map_map] at hzip
    rw [transfersOf, List.map_map]
    exact hzip
  have hsnd : ((transfersOf sorted plan.recipientSeats).map (·.toSeat)).Sublist
      plan.recipientSeats := by
    rw [transfersOf, List.map_map]
    exact map_snd_zip_sublist sorted plan.recipientSeats
  rw [Apart, hfst]
  refine List.Nodup.sublist (List.Sublist.append (List.Sublist.refl _) hsnd) ?_
  refine (((hperm.map _).append_right _).nodup_iff).2 ?_
  rw [hfrom]
  exact hnodup

/-! ### The one-shot resolution -/

section Resolve

variable (e : GameEngine)

/-- The card that a seat has to give. -/
def required (seat : Nat) : Option CardId :=
  requiredTributeCard (e.state.players seat).hand e.state e.ruleContext

/-- The card that is picked for a return from the hand of a seat. -/
def picked (hands : Nat → List CardId) (seat : Nat) : Option CardId :=
  pickReturnCard ⟨hands seat⟩ e.state e.ruleContext

/-- The return to a tribute. -/
def answer (hands : Nat → List CardId) (tr : TributeTransfer) : TributeTransfer :=
  ⟨tr.toSeat, tr.fromSeat, (picked e hands tr.toSeat).getD 0⟩

/-- The tributes are those of the required cards, and a card is found to return for each. -/
structure Resolves (plan : TributePhasePlan) (tributes : List TributeTransfer) : Prop where
  given : ∀ seat ∈ plan.tributerSeats, ∃ cardId, required e seat = some cardId ∧ cardId ≠ 0
  assigned : ∃ pending, pendingTributes e.state plan (required e) = some pending ∧
    tributes = transfersOf (sortTributes pending e.ruleContext plan.headSeat e.state.playerCount)
      plan.recipientSeats

/-- A card can be picked to answer this tribute. -/
def Answerable (hands : Nat → List CardId) (tr : TributeTransfer) : Prop :=
  ∃ cardId, picked e hands tr.toSeat = some cardId ∧ cardId ≠ 0

variable {e} {plan : TributePhasePlan} {tributes : List TributeTransfer}

theorem requiredSubmissions_eq {seats : List Nat}
    (hreq : ∀ seat ∈ seats, ∃ cardId, required e seat = some cardId ∧ cardId ≠ 0) :
    ∃ submissions, requiredSubmissions e.state e.ruleContext seats = some submissions ∧
      ∀ seat ∈ seats, submissions seat = required e seat := by
  have hfold : ∀ init : Nat → Option CardId, ∃ submissions,
      seats.foldlM (fun submissions seat => do
        let cardId ← requiredTributeCard (e.state.players seat).hand e.state e.ruleContext
        if cardId = 0 then return submissions
        return Function.update submissions seat (some cardId)) init = some submissions ∧
      ∀ seat, (seat ∈ seats → submissions seat = required e seat) ∧
        (seat ∉ seats → submissions seat = init seat) := by
    induction seats with
    | nil => exact fun init => ⟨init, rfl, fun _ => ⟨by simp, fun _ => rfl⟩⟩
    | cons first seats ih =>
      intro init
      obtain ⟨cardId, hcard, hne⟩ := hreq first (List.mem_cons_self ..)
      obtain ⟨submissions, hsub, hspec⟩ := ih
        (fun seat hseat => hreq seat (List.mem_cons_of_mem _ hseat))
        (Function.update init first (some cardId))
      refine ⟨submissions, ?_, fun seat => ⟨fun hseat => ?_, fun hseat => ?_⟩⟩
      · change requiredTributeCard (e.state.players first).hand e.state e.ruleContext = _ at hcard
        rw [List.foldlM_cons, hcard]
        simp only [Option.bind_eq_bind, Option.bind_some, if_neg hne]
        exact hsub
      · by_cases hmem : seat ∈ seats
        · exact (hspec seat).1 hmem
        · have heq : seat = first := (List.mem_cons.1 hseat).resolve_right hmem
          rw [(hspec seat).2 hmem, heq, Function.update_self, hcard]
      · rw [List.mem_cons, not_or] at hseat
        rw [(hspec seat).2 hseat.2, Function.update_of_ne hseat.1]
  obtain ⟨submissions, hsub, hspec⟩ := hfold fun _ => none
  exact ⟨submissions, hsub, fun seat hseat => (hspec seat).1 hseat⟩

/-- The return loop of `resolveRound`: no return changes the hand that a later one is picked from. -/
theorem resolveReturns_eq {ctx : RuleContext} {s : GameState} {f hands : Nat → List CardId}
    {pick : TributeTransfer → CardId} {acc : List TributeTransfer} (hapart : Apart tributes)
    (hsame : ∀ tr ∈ tributes, f tr.toSeat = hands tr.toSeat)
    (hpick : ∀ tr ∈ tributes, pickReturnCard ⟨hands tr.toSeat⟩ s ctx = some (pick tr) ∧
      pick tr ≠ 0) :
    tributes.foldlM (resolveReturn ctx) (s.withHands f, acc) =
      some (s.withHands (moveAll (tributes.map fun tr => ⟨tr.toSeat, tr.fromSeat, pick tr⟩) f),
        acc ++ tributes.map fun tr => ⟨tr.toSeat, tr.fromSeat, pick tr⟩) := by
  induction tributes generalizing f acc with
  | nil => simp
  | cons tr tributes ih =>
    obtain ⟨hcard, hne⟩ := hpick tr (List.mem_cons_self ..)
    have hstep : resolveReturn ctx (s.withHands f, acc) tr =
        some (s.withHands (moveHeld f tr.toSeat tr.fromSeat (pick tr)),
          acc ++ [⟨tr.toSeat, tr.fromSeat, pick tr⟩]) := by
      have hcard' : pickReturnCard ((s.withHands f).players tr.toSeat).hand (s.withHands f) ctx =
          some (pick tr) := by
        have hdeck : (s.withHands f).allCards = s.allCards := rfl
        refine (pickReturnCard_congr hdeck _ ctx).trans ?_
        show pickReturnCard ⟨f tr.toSeat⟩ s ctx = _
        rw [hsame tr (List.mem_cons_self ..), hcard]
      unfold resolveReturn
      dsimp only
      rw [hcard']
      simp only [Option.bind_eq_bind, Option.bind_some, if_neg hne]
      rw [transferCard_eq_withHands]
      rfl
    have hrest : Apart tributes := by
      refine hapart.sublist (List.Sublist.append ?_ ?_)
      · exact (List.sublist_cons_self tr tributes).map _
      · exact (List.sublist_cons_self tr tributes).map _
    rw [List.foldlM_cons, hstep]
    simp only [Option.bind_eq_bind, Option.bind_some]
    rw [ih hrest (fun tr' htr' => ?_) fun tr' htr' => hpick tr' (List.mem_cons_of_mem _ htr')]
    · simp
    · have hmem := List.mem_cons_of_mem tr htr'
      rw [moveHeld_of_ne, hsame tr' hmem]
      · intro heq
        have htr : tr' = tr := hapart.eq_of_to hmem (List.mem_cons_self ..) heq
        rw [htr] at htr'
        have hnodup := (List.nodup_append.1 hapart).2.1
        rw [List.map_cons, List.nodup_cons] at hnodup
        exact hnodup.1 (List.mem_map_of_mem (f := TributeTransfer.toSeat) htr')
      · exact (hapart.from_ne_to (List.mem_cons_self ..) hmem).symm

/-- What `resolveRound` computes when every tributer has a card to give and every recipient one to
return. -/
theorem resolveRound_eq (hplan : planRound e.state e.config e.previousRound = some plan)
    (hskip : plan.skipped = false) (hanti : plan.antiTribute = false)
    (h : Resolves e plan tributes) (hsome : tributes ≠ [])
    (hpick : ∀ tr ∈ tributes, Answerable e (moveAll tributes e.state.hands) tr)
    {first : Nat} (hfirst : computeFirstPlayerSeat { tributes := tributes } plan.headSeat e.state
      e.ruleContext e.previousRound e.state.playerCount = some first) :
    ∃ summary, resolveRound e.state e.config e.previousRound e.ruleContext =
      some (e.state.withHands (moveAll (tributes.map (answer e (moveAll tributes e.state.hands)))
          (moveAll tributes e.state.hands)),
        { tributes := tributes
          returns := tributes.map (answer e (moveAll tributes e.state.hands))
          firstPlayerSeat := first
          headTributerSeat := headTributer tributes plan.headSeat
          summary := summary }) := by
  obtain ⟨submissions, hsub, hspec⟩ := requiredSubmissions_eq h.given
  obtain ⟨pending, hpending, htributes⟩ := h.assigned
  have hpending' : pendingTributes e.state plan submissions = some pending := by
    rw [pendingTributes_congr rfl hspec, hpending]
  have hassign : (assignTributes e.state e.ruleContext plan submissions {}).isSome := by
    unfold assignTributes
    rw [hpending']
    simp only [Option.bind_eq_bind, Option.bind_some]
    split_ifs <;> rfl
  obtain ⟨⟨s, result⟩, hassign⟩ := Option.isSome_iff_exists.1 hassign
  obtain ⟨pending', hp, hs, htr, summary, hresult⟩ := assignTributes_cases hassign
  rw [hpending', Option.some.injEq] at hp
  subst hp
  have heq : result.tributes = tributes := by rw [htr, htributes]
  have hfrom := (pendingTributes_all hpending h.given).1
  obtain ⟨hnodup, hlen⟩ := planRound_apart hplan
  have hapart : Apart tributes := by
    rw [htributes]
    exact apart_transfersOf hnodup hlen hfrom (sortTributes_perm _ _ _ _)
  rw [heq] at hs hresult
  subst hs
  subst hresult
  have hreturns := @resolveReturns_eq tributes e.ruleContext e.state
    (moveAll tributes e.state.hands) (moveAll tributes e.state.hands)
    (fun tr => (picked e (moveAll tributes e.state.hands) tr.toSeat).getD 0) []
    hapart (fun _ _ => rfl) fun tr htr => by
      obtain ⟨cardId, hcard, hne⟩ := hpick tr htr
      rw [hcard, Option.getD_some]
      exact ⟨hcard, hne⟩
  refine ⟨summary, ?_⟩
  unfold resolveRound
  rw [hplan]
  simp only [Option.bind_eq_bind, Option.bind_some, hskip, hanti, Bool.false_eq_true, if_false]
  rw [hsub]
  simp only [Option.bind_some]
  rw [hassign]
  simp only [Option.bind_some]
  rw [if_neg (by simpa using hsome), hreturns]
  simp only [Option.bind_some]
  refine Option.bind_eq_some_iff.2 ⟨first, ?_, rfl⟩
  exact (computeFirstPlayerSeat_congr rfl rfl rfl rfl).trans hfirst

end Resolve

/-! ### The stages of a run -/

/-- The calls of the interactive flow: required cards, picked returns, and the end of the phase when
nothing is pending. -/
def FlowOp (x : GameEngine) : EngineOp → Prop
  | .submitTribute id cardId => (x.seatOf id).bind (fun seat =>
      requiredTributeCard (x.state.players seat).hand x.state x.ruleContext) = some cardId
  | .submitReturn id cardId => (x.seatOf id).bind (fun seat =>
      pickReturnCard (x.state.players seat).hand x.state x.ruleContext) = some cardId
  | .finalizeTributePhase => x.hasPendingTributeAction = true ∧
      x.tributeState.pendingTributers = [] ∧ x.tributeState.pendingReturnSeats = []
  | _ => False

instance (x : GameEngine) : (op : EngineOp) → Decidable (FlowOp x op)
  | .submitTribute _ _ => inferInstanceAs (Decidable (_ = _))
  | .submitReturn _ _ => inferInstanceAs (Decidable (_ = _))
  | .finalizeTributePhase => inferInstanceAs (Decidable (_ ∧ _))
  | .init _ _ | .setPlayerReady _ _ | .updateConfig _ | .startGame _ | .startNextRound _
  | .playCards _ _ | .pass _ | .buildViewFor _ _ => inferInstanceAs (Decidable False)

/-- The table of `e` with these hands. -/
structure SameTable (e x : GameEngine) (hands : Nat → List CardId) : Prop where
  config : x.config = e.config
  previousRound : x.previousRound = e.previousRound
  allCards : x.state.allCards = e.state.allCards
  playerCount : x.state.playerCount = e.state.playerCount
  currentLevel : x.state.currentLevel = e.state.currentLevel
  hands : x.state.hands = hands

/-- The run has ended with what `resolveRound` computes for the dealt engine. -/
def Agrees (e x : GameEngine) : Prop :=
  ∃ s result, resolveRound e.state e.config e.previousRound e.ruleContext = some (s, result) ∧
    x.state.hands = s.hands ∧ x.lastTribute.tributes = result.tributes ∧
    x.lastTribute.returns.Perm result.returns ∧
    x.lastTribute.headTributerSeat = result.headTributerSeat ∧
    x.lastTribute.firstPlayerSeat = result.firstPlayerSeat ∧
    x.state.currentPlayerIndex = result.firstPlayerSeat

/-- The required cards that have been submitted so far. -/
structure Asked (e x : GameEngine) (plan : TributePhasePlan) : Prop where
  table : SameTable e x e.state.hands
  phase : x.state.phase = .tribute
  plan_eq : x.tributeState.plan = plan
  pending : x.tributeState.pendingTributers = plan.tributerSeats.filter
    fun seat => (x.tributeState.tributeSubmissions seat).isNone
  submitted : ∀ seat cardId, x.tributeState.tributeSubmissions seat = some cardId →
    required e seat = some cardId ∧ cardId ≠ 0
  fresh : x.lastTribute = {}

/-- Tributes are being asked for; nobody is pending only if nobody was to be asked. -/
structure Asking (e x : GameEngine) (plan : TributePhasePlan) : Prop extends Asked e x plan where
  waiting : plan.tributerSeats = [] ∨ x.tributeState.pendingTributers ≠ []

/-- The tributes are given, and those in `done` are answered. -/
structure Answering (e x : GameEngine) (plan : TributePhasePlan)
    (tributes done : List TributeTransfer) : Prop where
  resolves : Resolves e plan tributes
  some_tribute : tributes ≠ []
  apart : Apart tributes
  table : SameTable e x (moveAll (done.map (answer e (moveAll tributes e.state.hands)))
    (moveAll tributes e.state.hands))
  phase : x.state.phase = .returnTribute
  plan_eq : x.tributeState.plan = plan
  tributes_eq : x.lastTribute.tributes = tributes
  flags : x.lastTribute.skipped = false ∧ x.lastTribute.antiTribute = false
  returns : x.lastTribute.returns = done.map (answer e (moveAll tributes e.state.hands))
  nodup : done.Nodup
  sub : ∀ tr ∈ done, tr ∈ tributes ∧ Answerable e (moveAll tributes e.state.hands) tr
  pending : x.tributeState.pendingReturnSeats =
    (tributes.filter fun tr => tr ∉ done).map (·.toSeat)
  returnTo : x.tributeState.returnToTributer = returnMap tributes

section Stages

variable {e x x' : GameEngine} {plan : TributePhasePlan} {tributes done : List TributeTransfer}
  {hands : Nat → List CardId} {id : PlayerId} {cardId : CardId} {r : PlayResult}

theorem SameTable.ruleContext (h : SameTable e x hands) : x.ruleContext = e.ruleContext := by
  rw [GameEngine.ruleContext, GameEngine.ruleContext, h.currentLevel, h.config]

theorem SameTable.required (h : SameTable e x e.state.hands) (seat : Nat) :
    requiredTributeCard (x.state.players seat).hand x.state x.ruleContext = required e seat := by
  show requiredTributeCard ⟨x.state.hands seat⟩ _ _ = _
  rw [h.ruleContext, h.hands, requiredTributeCard_congr h.allCards]
  rfl

theorem SameTable.picked (h : SameTable e x hands) (seat : Nat) :
    pickReturnCard (x.state.players seat).hand x.state x.ruleContext = picked e hands seat := by
  show pickReturnCard ⟨x.state.hands seat⟩ _ _ = _
  rw [h.ruleContext, h.hands, pickReturnCard_congr h.allCards]
  rfl

theorem Asking.of_start (hstart : e.startTribute = some x)
    (hplan : planRound e.state e.config e.previousRound = some plan)
    (hskip : plan.skipped = false) (hanti : plan.antiTribute = false) : Asking e x plan := by
  obtain ⟨plan', hplan', ⟨result, hor, -⟩ | ⟨-, -, rfl⟩⟩ := startTribute_cases hstart
  all_goals
    rw [hplan, Option.some.injEq] at hplan'
    subst hplan'
  · simp [hskip, hanti] at hor
  · refine ⟨⟨⟨rfl, rfl, rfl, rfl, rfl, rfl⟩, rfl, rfl, ?_, ?_, rfl⟩, em _⟩
    · exact (List.filter_eq_self.2 fun _ _ => rfl).symm
    · intro seat cardId hnone
      cases hnone

/-- The last required card is in, and the cards of the tributers change hands. -/
theorem Asked.close (h : Asked e x plan)
    (hplan : planRound e.state e.config e.previousRound = some plan)
    (hpending : x.tributeState.pendingTributers = []) (hsome : plan.tributerSeats ≠ [])
    (hclose : x.closeTributes = some (x', r)) :
    ∃ tributes, Answering e x' plan tributes [] := by
  obtain ⟨s, result, hassign, hrest⟩ := closeTributes_cases hclose
  obtain ⟨pending, hpend, hs, htr, summary, hresult⟩ := assignTributes_cases hassign
  have hall : ∀ seat ∈ plan.tributerSeats, ∃ cardId,
      x.tributeState.tributeSubmissions seat = some cardId := by
    intro seat hseat
    have hnone := h.pending
    rw [hpending, eq_comm, List.filter_eq_nil_iff] at hnone
    have hne := hnone seat hseat
    rwa [Option.isNone_iff_eq_none, ← ne_eq, Option.ne_none_iff_exists'] at hne
  have hreq : ∀ seat ∈ plan.tributerSeats, x.tributeState.tributeSubmissions seat =
      required e seat ∧ ∃ cardId, required e seat = some cardId ∧ cardId ≠ 0 := by
    intro seat hseat
    obtain ⟨cardId, hcard⟩ := hall seat hseat
    obtain ⟨h1, h2⟩ := h.submitted seat cardId hcard
    exact ⟨hcard.trans h1.symm, cardId, h1, h2⟩
  rw [h.plan_eq, pendingTributes_congr h.table.allCards fun seat hseat => (hreq seat hseat).1]
    at hpend
  rw [h.plan_eq, h.table.ruleContext, h.table.playerCount] at htr
  have hresolves : Resolves e plan result.tributes :=
    ⟨fun seat hseat => (hreq seat hseat).2, pending, hpend, htr⟩
  have hfrom := (pendingTributes_all hpend hresolves.given).1
  obtain ⟨hnodup, hlen⟩ := planRound_apart hplan
  have hperm := sortTributes_perm pending e.ruleContext plan.headSeat e.state.playerCount
  have hapart : Apart result.tributes := by
    rw [htr]
    exact apart_transfersOf hnodup hlen hfrom hperm
  have hne : result.tributes ≠ [] := by
    intro hnil
    have hlength := congrArg List.length htr
    rw [hnil, transfersOf, List.length_map, List.length_zip, hperm.length_eq,
      ← List.length_map (f := PendingTribute.fromSeat), hfrom, Nat.min_eq_left hlen] at hlength
    exact hsome (List.length_eq_zero_iff.1 hlength.symm)
  rcases hrest with ⟨hnil, -⟩ | ⟨-, -, rfl⟩
  · exact absurd hnil hne
  refine ⟨result.tributes, hresolves, hne, hapart, ⟨h.table.config, h.table.previousRound, ?_, ?_,
    ?_, ?_⟩, rfl, h.plan_eq, rfl, ?_, ?_, List.nodup_nil, by simp, ?_, rfl⟩
  · rw [← h.table.allCards]
    show s.allCards = x.state.allCards
    rw [hs, withHands_allCards]
  · rw [← h.table.playerCount]
    show s.playerCount = x.state.playerCount
    rw [hs, withHands_playerCount]
  · rw [← h.table.currentLevel]
    show s.currentLevel = x.state.currentLevel
    rw [hs]
    rfl
  · show s.hands = moveAll result.tributes e.state.hands
    rw [hs, ← h.table.hands]
    rfl
  · rw [h.fresh] at hresult
    exact ⟨congrArg TributeRoundResult.skipped hresult,
      congrArg TributeRoundResult.antiTribute hresult⟩
  · rw [h.fresh] at hresult
    exact congrArg TributeRoundResult.returns hresult
  · show result.tributes.map (·.toSeat) = _
    simp

theorem Asked.record {seat : Nat} (h : Asked e x plan) (hreq : required e seat = some cardId)
    (hne : cardId ≠ 0) : Asked e (x.recordTribute seat cardId) plan := by
  refine ⟨⟨h.table.config, h.table.previousRound, h.table.allCards, h.table.playerCount,
    h.table.currentLevel, h.table.hands⟩, h.phase, h.plan_eq, ?_, fun i c hc => ?_, h.fresh⟩
  · show x.tributeState.pendingTributers.filter (· != seat) = _
    rw [h.pending, List.filter_filter]
    refine List.filter_congr fun i _ => ?_
    show _ = (Function.update x.tributeState.tributeSubmissions seat (some cardId) i).isNone
    by_cases hi : i = seat
    · subst hi
      simp
    · simp [hi]
  · change Function.update x.tributeState.tributeSubmissions seat (some cardId) i = some c at hc
    by_cases hi : i = seat
    · subst hi
      rw [Function.update_self] at hc
      cases hc
      exact ⟨hreq, hne⟩
    · rw [Function.update_of_ne hi] at hc
      exact h.submitted i c hc

theorem Asking.submit (h : Asking e x plan)
    (hplan : planRound e.state e.config e.previousRound = some plan)
    (hop : FlowOp x (.submitTribute id cardId))
    (hsubmit : x.submitTribute id cardId = some (x', r)) :
    Asking e x' plan ∨ ∃ tributes, Answering e x' plan tributes [] := by
  obtain ⟨seat, hseat, hreq⟩ := Option.bind_eq_some_iff.1 hop
  rw [h.table.required] at hreq
  rcases submitTribute_cases hsubmit with ⟨rfl, -⟩ | ⟨seat', -, -, hseat', hpend, hvalid, hrest⟩
  · exact .inl h
  rw [hseat, Option.some.injEq] at hseat'
  subst hseat'
  obtain ⟨-, hne, -, -⟩ := isValidTributeSubmission_iff.1 hvalid
  have hrec := h.toAsked.record hreq hne
  rcases hrest with ⟨hwait, rfl, -⟩ | ⟨hnone, hclose⟩
  · exact .inl ⟨hrec, .inr hwait⟩
  · refine .inr (hrec.close hplan hnone (fun hnil => ?_) hclose)
    rw [h.pending, hnil] at hpend
    cases hpend

/-- A pending return answers a tribute that is not answered yet. -/
theorem Answering.pending_tribute {seat : Nat} (h : Answering e x plan tributes done)
    (hpend : seat ∈ x.tributeState.pendingReturnSeats) :
    ∃ tr ∈ tributes, tr ∉ done ∧ tr.toSeat = seat ∧
      x.tributeState.returnToTributer seat = some tr.fromSeat := by
  rw [h.pending] at hpend
  obtain ⟨tr, htr, rfl⟩ := List.mem_map.1 hpend
  obtain ⟨hmem, hnot⟩ := List.mem_filter.1 htr
  refine ⟨tr, hmem, by simpa using hnot, rfl, ?_⟩
  obtain ⟨tr', hmem', heq, hval⟩ := AccountingInv.returnMap_mem tributes tr.toSeat
    (List.mem_map_of_mem (f := TributeTransfer.toSeat) hmem)
  rw [h.returnTo, hval, h.apart.eq_of_to hmem' hmem heq]

/-- No return made so far has changed the hand of a recipient still pending. -/
theorem Answering.hand_pending {tr : TributeTransfer} (h : Answering e x plan tributes done)
    (htr : tr ∈ tributes) (hnot : tr ∉ done) :
    moveAll (done.map (answer e (moveAll tributes e.state.hands))) (moveAll tributes e.state.hands)
      tr.toSeat = moveAll tributes e.state.hands tr.toSeat := by
  refine moveAll_of_ne fun ret hret => ?_
  obtain ⟨tr', htr', rfl⟩ := List.mem_map.1 hret
  obtain ⟨hmem, -⟩ := h.sub tr' htr'
  refine ⟨fun heq => hnot ?_, (h.apart.from_ne_to hmem htr).symm⟩
  have hsame : tr = tr' := h.apart.eq_of_to htr hmem heq
  rwa [hsame]

theorem Answering.submit (h : Answering e x plan tributes done)
    (hop : FlowOp x (.submitReturn id cardId))
    (hsubmit : x.submitReturn id cardId = some (x', r)) :
    ∃ done', Answering e x' plan tributes done' := by
  obtain ⟨seat, hseat, hpick⟩ := Option.bind_eq_some_iff.1 hop
  rw [h.table.picked] at hpick
  rcases submitReturn_cases hsubmit with
    ⟨rfl, -⟩ | ⟨seat', -, -, hseat', hpend, hvalid, rfl, -⟩
  · exact ⟨done, h⟩
  rw [hseat, Option.some.injEq] at hseat'
  subst hseat'
  obtain ⟨-, hne, -, -⟩ := isValidReturnSubmission_iff.1 hvalid
  obtain ⟨tr, htr, hnot, rfl, hto⟩ := h.pending_tribute hpend
  have hhand := h.hand_pending htr hnot
  have hpick' : picked e (moveAll tributes e.state.hands) tr.toSeat = some cardId := by
    rw [← hpick, picked, picked, hhand]
  have hanswer : answer e (moveAll tributes e.state.hands) tr = ⟨tr.toSeat, tr.fromSeat, cardId⟩ := by
    rw [answer, hpick', Option.getD_some]
  have hstate := recordReturn_state x tr.toSeat cardId
  rw [hto, Option.getD_some] at hstate
  have hdone : (done ++ [tr]).map (answer e (moveAll tributes e.state.hands)) =
      done.map (answer e (moveAll tributes e.state.hands)) ++ [⟨tr.toSeat, tr.fromSeat, cardId⟩] := by
    rw [List.map_append, List.map_singleton, hanswer]
  refine ⟨done ++ [tr], h.resolves, h.some_tribute, h.apart, ⟨h.table.config, h.table.previousRound,
    ?_, ?_, ?_, ?_⟩, ?_, h.plan_eq, h.tributes_eq, h.flags, ?_, ?_, fun tr' htr' => ?_, ?_,
    h.returnTo⟩
  · rw [hstate]
    exact h.table.allCards
  · rw [hstate]
    exact h.table.playerCount
  · rw [hstate]
    exact h.table.currentLevel
  · rw [hstate, hdone]
    show moveHeld x.state.hands tr.toSeat tr.fromSeat cardId = _
    rw [h.table.hands, moveAll.eq_1 (_ ++ _), List.foldl_append]
    rfl
  · rw [hstate]
    exact h.phase
  · show x.lastTribute.returns ++ [(⟨tr.toSeat, _, cardId⟩ : TributeTransfer)] = _
    rw [hdone, h.returns, hto, Option.getD_some]
  · exact List.Nodup.append h.nodup (List.nodup_singleton _) (by simpa using hnot)
  · rcases List.mem_append.1 htr' with hmem | hmem
    · exact h.sub tr' hmem
    · rw [List.mem_singleton.1 hmem]
      exact ⟨htr, cardId, hpick', hne⟩
  · show x.tributeState.pendingReturnSeats.filter (· != tr.toSeat) = _
    rw [h.pending, List.filter_map, List.filter_filter]
    congr 1
    refine List.filter_congr fun tr' htr' => ?_
    by_cases heq : tr' = tr
    · simp [heq]
    · have hseat : tr'.toSeat ≠ tr.toSeat := fun hs => heq (h.apart.eq_of_to htr' htr hs)
      simp [heq, hseat]

/-- With nobody to be asked there is nothing to resolve. -/
theorem Asking.finish (h : Asking e x plan)
    (hplan : planRound e.state e.config e.previousRound = some plan)
    (hskip : plan.skipped = false) (hanti : plan.antiTribute = false)
    (hpending : x.tributeState.pendingTributers = [])
    (hfin : x.finishTributePhaseAndStartPlay = some (x', r)) : Agrees e x' := by
  have hnone : plan.tributerSeats = [] := h.waiting.resolve_right (not_not_intro hpending)
  obtain ⟨-, first, hfirst, rfl⟩ := finishTributePhase_cases hfin
  rw [h.fresh, h.plan_eq] at hfirst
  cases hfirst
  have hassign : ∀ submissions, assignTributes e.state e.ruleContext plan submissions {} =
      some (e.state, { summary := plan.summary ++ "_no_card" }) := by
    intro submissions
    have hpend : pendingTributes e.state plan submissions = some [] := by
      rw [pendingTributes, hnone]
      rfl
    rw [assignTributes, hpend]
    rfl
  have hsub : requiredSubmissions e.state e.ruleContext [] = some fun _ => none := rfl
  refine ⟨e.state, { firstPlayerSeat := plan.headSeat, summary := plan.summary ++ "_no_card" }, ?_,
    h.table.hands, ?_, ?_, ?_, rfl, rfl⟩
  · unfold resolveRound
    rw [hplan]
    simp only [Option.bind_eq_bind, Option.bind_some, hskip, hanti, Bool.false_eq_true, if_false,
      hnone]
    rw [hsub, Option.bind_some, hassign]
    rfl
  · show x.lastTribute.tributes = []
    rw [h.fresh]
  · show x.lastTribute.returns.Perm []
    rw [h.fresh]
  · show headTributer x.lastTribute.tributes x.tributeState.plan.headSeat = none
    rw [h.fresh]
    rfl

/-- All tributes are answered. -/
theorem Answering.finish (h : Answering e x plan tributes done)
    (hplan : planRound e.state e.config e.previousRound = some plan)
    (hskip : plan.skipped = false) (hanti : plan.antiTribute = false)
    (hpending : x.tributeState.pendingReturnSeats = [])
    (hfin : x.finishTributePhaseAndStartPlay = some (x', r)) : Agrees e x' := by
  have hall : ∀ tr ∈ tributes, tr ∈ done := by
    intro tr htr
    rw [h.pending, List.map_eq_nil_iff, List.filter_eq_nil_iff] at hpending
    simpa using hpending tr htr
  have hnodup : tributes.Nodup := List.Nodup.of_map _ (List.nodup_append.1 h.apart).1
  have hperm : done.Perm tributes :=
    (List.perm_ext_iff_of_nodup h.nodup hnodup).2 fun tr => ⟨fun htr => (h.sub tr htr).1, hall tr⟩
  have hmoves : moveAll (done.map (answer e (moveAll tributes e.state.hands)))
      (moveAll tributes e.state.hands) =
      moveAll (tributes.map (answer e (moveAll tributes e.state.hands)))
        (moveAll tributes e.state.hands) := by
    refine Apart.moveAll_perm ?_ (hperm.map _) _
    -- the returns go the way of the tributes, backwards
    have hfrom : (done.map (answer e (moveAll tributes e.state.hands))).map (·.fromSeat) =
        done.map (·.toSeat) := by
      rw [List.map_map]
      rfl
    have hto : (done.map (answer e (moveAll tributes e.state.hands))).map (·.toSeat) =
        done.map (·.fromSeat) := by
      rw [List.map_map]
      rfl
    rw [Apart, hfrom, hto]
    refine (List.Perm.nodup_iff ?_).1 h.apart
    exact (List.perm_append_comm).trans
      ((hperm.symm.map _).append (hperm.symm.map _))
  obtain ⟨-, first, hfirst, rfl⟩ := finishTributePhase_cases hfin
  have hfirst' : computeFirstPlayerSeat { tributes := tributes } plan.headSeat e.state
      e.ruleContext e.previousRound e.state.playerCount = some first := by
    rw [← hfirst, h.plan_eq, h.table.ruleContext, h.table.previousRound, h.table.playerCount]
    exact computeFirstPlayerSeat_congr h.table.allCards.symm h.flags.1.symm h.flags.2.symm
      h.tributes_eq.symm
  obtain ⟨summary, hresolve⟩ := resolveRound_eq hplan hskip hanti h.resolves h.some_tribute
    (fun tr htr => (h.sub tr (hall tr htr)).2) hfirst'
  refine ⟨_, _, hresolve, ?_, h.tributes_eq, ?_, ?_, rfl, rfl⟩
  · show x.state.hands = _
    rw [h.table.hands, hmoves]
    rfl
  · show x.lastTribute.returns.Perm _
    rw [h.returns]
    exact hperm.map _
  · show headTributer x.lastTribute.tributes x.tributeState.plan.headSeat = _
    rw [h.tributes_eq, h.plan_eq]

/-! ### The run -/

/-- The three stages of a run. -/
inductive FlowInv (e x : GameEngine) (plan : TributePhasePlan) : Prop
  | asking : Asking e x plan → FlowInv e x plan
  | answering {tributes done : List TributeTransfer} :
      Answering e x plan tributes done → FlowInv e x plan
  | agrees : x.state.phase = .playing → Agrees e x → FlowInv e x plan

theorem FlowInv.step {op : EngineOp} {out : EngineOut} (h : FlowInv e x plan)
    (hplan : planRound e.state e.config e.previousRound = some plan)
    (hskip : plan.skipped = false) (hanti : plan.antiTribute = false) (hop : FlowOp x op)
    (hstep : engine.step x op = some (x', out)) : FlowInv e x' plan := by
  cases engine_step hstep with
  | submitTribute hsubmit =>
    cases h with
    | asking h =>
      rcases h.submit hplan hop hsubmit with hask | ⟨tributes, hans⟩
      · exact .asking hask
      · exact .answering hans
    | answering h =>
      rcases submitTribute_cases hsubmit with ⟨rfl, -⟩ | ⟨seat, hp, -⟩
      · exact .answering h
      · exact absurd (h.phase.symm.trans hp) (by simp)
    | agrees hphase h =>
      rcases submitTribute_cases hsubmit with ⟨rfl, -⟩ | ⟨seat, hp, -⟩
      · exact .agrees hphase h
      · exact absurd (hphase.symm.trans hp) (by simp)
  | submitReturn hsubmit =>
    cases h with
    | asking h =>
      rcases submitReturn_cases hsubmit with ⟨rfl, -⟩ | ⟨seat, hp, -⟩
      · exact .asking h
      · exact absurd (h.phase.symm.trans hp) (by simp)
    | answering h =>
      obtain ⟨done', hans⟩ := h.submit hop hsubmit
      exact .answering hans
    | agrees hphase h =>
      rcases submitReturn_cases hsubmit with ⟨rfl, -⟩ | ⟨seat, hp, -⟩
      · exact .agrees hphase h
      · exact absurd (hphase.symm.trans hp) (by simp)
  | finalizeTributePhase hfin =>
    obtain ⟨hpending, htributers, hreturners⟩ := hop
    have hp := (finishTributePhase_frame hfin).2.2.2
    cases h with
    | asking h => exact .agrees hp (h.finish hplan hskip hanti htributers hfin)
    | answering h => exact .agrees hp (h.finish hplan hskip hanti hreturners hfin)
    | agrees hphase h => simp [hasPendingTributeAction, hphase] at hpending
  | _ => exact hop.elim

/-- However the submissions are ordered, a run from a deal that reaches play has resolved the
tribute as `resolveRound` does. -/
theorem tribute_flow_refines (e x x' : GameEngine) (plan : TributePhasePlan)
    (hplan : planRound e.state e.config e.previousRound = some plan)
    (hskip : plan.skipped = false) (hanti : plan.antiTribute = false)
    (hstart : e.startTribute = some x) (hrun : engine.Reachable FlowOp x x')
    (hplaying : x'.state.phase = .playing) : Agrees e x' := by
  have hinv := hrun.invariant (P := fun y => FlowInv e y plan)
    (.asking (.of_start hstart hplan hskip hanti)) fun y op y' out hy hop hstep =>
      hy.step hplan hskip hanti hop hstep
  cases hinv with
  | asking h => exact absurd (h.phase.symm.trans hplaying) (by simp)
  | answering h => exact absurd (h.phase.symm.trans hplaying) (by simp)
  | agrees _ h => exact h

/-- A double down of two pairs, dealt to for the next round. -/
def dealtDoubleDown : Option GameEngine :=
  (loggedEngine.run (newEngine "solo") doubleDown).bind fun sg =>
    sg.1.dealRound (Shuffle.stack [5, 6, 7, 8, 1, 2, 11, 12])

/-- The seats give and return in the order of their numbers. -/
def doubleDownFlow : List EngineOp :=
  [.submitTribute 2 8, .submitTribute 4 12, .submitReturn 1 5, .submitReturn 3 1,
    .finalizeTributePhase]

theorem tribute_flow_refines_doubleDown : ∃ e x x', dealtDoubleDown = some e ∧
    e.startTribute = some x ∧ engine.runChecked FlowOp x doubleDownFlow = some x' ∧
      Agrees e x' := by
  obtain ⟨e, he, hplan, hrest⟩ := Machine.exists_of_any (x := dealtDoubleDown)
    (P := fun e => (planRound e.state e.config e.previousRound).any
      (fun plan => decide (plan.skipped = false ∧ plan.antiTribute = false)) = true ∧
      e.startTribute.any (fun x => decide ((engine.runChecked FlowOp x doubleDownFlow).any
        (fun x' => decide (x'.state.phase = .playing)) = true)) = true) (by decide +kernel)
  obtain ⟨plan, hplan, hskip, hanti⟩ := Machine.exists_of_any hplan
  obtain ⟨x, hx, hrun⟩ := Machine.exists_of_any hrest
  obtain ⟨x', hrun, hplaying⟩ := Machine.exists_of_any hrun
  exact ⟨e, x, x', he, hx, hrun, tribute_flow_refines e x x' plan hplan hskip hanti hx
    (Machine.reachable_of_runChecked hrun) hplaying⟩

end Stages

end Guandan
