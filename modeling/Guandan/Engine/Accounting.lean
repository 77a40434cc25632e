import Guandan.Engine.Frames

/-!
# Card accounting over a round

The history of a round (`RoundLog`) records the hands the round's deal gave out and the lists of ids
of the plays accepted since. The round is `Accounted` for if hands and plays together are the deal,
each id once. `playCards` checks membership with `Hand.contains`, which does not count, and removes
with `Hand.remove`, which does; a play that names an id twice passes the check and removes nothing.
The invariant is therefore about the plays without repetitions: they and the hands are the deal
(`AccountingInv`), and the round is accounted for exactly as long as there are no others.
-/

namespace Guandan

open GameState GameEngine

structure RoundLog where
  dealt : List (List CardId) := []
  plays : List (List CardId) := []
  deriving DecidableEq

/-- Brings the log up to date after a call. -/
def recordRound (log : RoundLog) (e : GameEngine) (op : EngineOp) (out : EngineOut)
    (_e' : GameEngine) : RoundLog :=
  match op, out with
  | .init _ _, _ => {}
  | .startGame σ, .result r =>
    if r.code = .ok then { dealt := (e.dealtHands σ).getD [] } else log
  | .startNextRound σ, .result r =>
    if r.code = .ok then { dealt := (e.dealtHands σ).getD [] } else log
  | .playCards _ cards, .result r =>
    if r.code = .ok then { log with plays := log.plays ++ [cards] } else log
  | _, _ => log

/-- Hands and accepted plays are the deal, each id once. -/
def Accounted (sg : GameEngine × RoundLog) : Prop :=
  sg.1.state.handBag + (sg.2.plays.flatten : Multiset CardId) =
      (sg.2.dealt.flatten : Multiset CardId) ∧
    sg.2.dealt.flatten.Nodup

instance : DecidablePred Accounted := fun _ => inferInstanceAs (Decidable (_ = _ ∧ _))

/-! ### The invariant -/

/-- The seats between which cards can move are at the table. -/
structure TransferSeats (e : GameEngine) : Prop where
  plan : e.state.phase = .tribute →
    (∀ seat ∈ e.tributeState.plan.tributerSeats, seat < e.state.playerCount) ∧
      ∀ seat ∈ e.tributeState.plan.recipientSeats, seat < e.state.playerCount
  returns : e.state.phase = .returnTribute → ∀ seat ∈ e.tributeState.pendingReturnSeats,
    seat < e.state.playerCount ∧
      (e.tributeState.returnToTributer seat).getD 0 < e.state.playerCount

/-- Outside the tribute phase no card moves. -/
theorem TransferSeats.of_phase {e : GameEngine} (h1 : e.state.phase ≠ .tribute)
    (h2 : e.state.phase ≠ .returnTribute) : TransferSeats e :=
  ⟨fun h => absurd h h1, fun h => absurd h h2⟩

/-- The plays that name no id twice. -/
def cleanPlays (log : RoundLog) : List (List CardId) := log.plays.filter fun play => play.Nodup

structure AccountingInv (e : GameEngine) (log : RoundLog) : Prop where
  mode : IsModeConfig e.config
  dealt : log.dealt.flatten.Nodup
  kept : e.state.handBag + ((cleanPlays log).flatten : Multiset CardId) =
    (log.dealt.flatten : Multiset CardId)
  seats : TransferSeats e

namespace AccountingInv

variable {e e' : GameEngine} {log : RoundLog} {seat : Nat}

theorem nodup_handBag (h : AccountingInv e log) : e.state.handBag.Nodup := by
  have hd : (log.dealt.flatten : Multiset CardId).Nodup := Multiset.coe_nodup.2 h.dealt
  rw [← h.kept] at hd
  exact Multiset.nodup_of_le (Multiset.le_add_right _ _) hd

theorem nodup_hand (h : AccountingInv e log) (hseat : seat < e.state.playerCount) :
    (e.state.hands seat).Nodup :=
  Bags.nodup_of_bag h.nodup_handBag hseat

/-- The round is accounted for exactly when no accepted play names an id twice. -/
theorem accounted_iff (h : AccountingInv e log) :
    Accounted (e, log) ↔ ∀ play ∈ log.plays, play.Nodup := by
  constructor
  · rintro ⟨hsum, hnodup⟩ play hplay
    have hd : (log.dealt.flatten : Multiset CardId).Nodup := Multiset.coe_nodup.2 hnodup
    rw [← hsum] at hd
    have hflat := Multiset.coe_nodup.1 (Multiset.nodup_of_le (Multiset.le_add_left _ _) hd)
    exact (List.nodup_flatten.1 hflat).1 play hplay
  · intro hplays
    have hclean : cleanPlays log = log.plays :=
      List.filter_eq_self.2 fun play hplay => decide_eq_true (hplays play hplay)
    have hkept := h.kept
    rw [hclean] at hkept
    exact ⟨hkept, h.dealt⟩

/-! ### The operations keep it -/

/-- A call that moves no card between the hands and the table. -/
theorem keep (h : AccountingInv e log) (hmode : IsModeConfig e'.config)
    (hbag : e'.state.handBag = e.state.handBag) (hseats : TransferSeats e') :
    AccountingInv e' log :=
  ⟨hmode, h.dealt, by rw [hbag, h.kept], hseats⟩

theorem deal {σ : Shuffle} {e₁ : GameEngine} (hmode : IsModeConfig e.config)
    (hdeal : e.dealRound σ = some e₁) (hconfig : e'.config = e.config)
    (hbag : e'.state.handBag = e₁.state.handBag) (hseats : TransferSeats e') :
    AccountingInv e' { dealt := (e.dealtHands σ).getD [] } := by
  obtain ⟨hhands, hnodup⟩ := handBag_dealRound hmode.facts hdeal
  refine ⟨hconfig ▸ hmode, hnodup, ?_, hseats⟩
  rw [hbag, hhands]
  simp [cleanPlays]

theorem startTribute_seats (h : e.startTribute = some e') : TransferSeats e' := by
  obtain ⟨plan, hplan, ⟨result, -, rfl⟩ | ⟨-, -, rfl⟩⟩ := startTribute_cases h
  · exact .of_phase (by simp [beginPlayingFromDeal]) (by simp [beginPlayingFromDeal])
  · refine ⟨fun _ => ⟨TributeManager.planRound_tributer_lt hplan,
      TributeManager.planRound_recipient_lt hplan⟩, fun hphase => ?_⟩
    cases hphase

theorem startTribute_frame (h : e.startTribute = some e') :
    SameSeats e.state e'.state ∧ e'.config = e.config := by
  obtain ⟨plan, -, ⟨result, -, rfl⟩ | ⟨-, -, rfl⟩⟩ := startTribute_cases h
  · exact ⟨⟨rfl, rfl, fun _ => rfl⟩, rfl⟩
  · exact ⟨⟨rfl, rfl, fun _ => rfl⟩, rfl⟩

theorem startGame {σ : Shuffle} {r : PlayResult} (h : AccountingInv e log)
    (hstart : e.startGame σ = some (e', r)) :
    AccountingInv e' (recordRound log e (.startGame σ) (.result r) e') := by
  rcases startGame_cases hstart with ⟨rfl, hcode⟩ | ⟨-, -, rfl, e₁, hdeal, rfl⟩
  · rw [recordRound, if_neg hcode]
    exact h
  · have hconfig : e₁.config = e.config := (dealRound_frame hdeal).2.1
    rw [recordRound, if_pos rfl]
    exact deal (e := { e with previousRound := {} }) h.mode hdeal hconfig rfl
      (.of_phase (by simp [beginPlayingFromDeal]) (by simp [beginPlayingFromDeal]))

theorem startNextRound {σ : Shuffle} {r : PlayResult} (h : AccountingInv e log)
    (hstart : e.startNextRound σ = some (e', r)) :
    AccountingInv e' (recordRound log e (.startNextRound σ) (.result r) e') := by
  rcases startNextRound_cases hstart with ⟨rfl, hcode⟩ | ⟨-, rfl, e₁, hdeal, htribute⟩
  · rw [recordRound, if_neg hcode]
    exact h
  · have hconfig : e₁.config = e.config := (dealRound_frame hdeal).2.1
    obtain ⟨hsame, hconfig'⟩ := startTribute_frame htribute
    rw [recordRound, if_pos rfl]
    exact deal h.mode hdeal (hconfig'.trans hconfig) hsame.handBag (startTribute_seats htribute)

/-- The hand a play leaves, with the cards it shows if these are different. -/
theorem acceptPlay_hand {id : PlayerId} {cards : List CardId} {pattern : CardPattern}
    (h : AccountingInv e log) (hplay : Playable e id cards seat pattern) :
    (cards.Nodup → (e.state.hands seat).Perm
      (cards ++ ((e.state.players seat).hand.remove cards).1.cards)) ∧
    (¬ cards.Nodup → ((e.state.players seat).hand.remove cards).1.cards = e.state.hands seat) := by
  constructor
  · intro hnodup
    exact Hand.remove_perm hnodup hplay.holds
  · intro hnot
    rw [Hand.remove_of_not_nodup (h.nodup_hand (seatOf_some hplay.seated).1) hnot]
    rfl

theorem playCards {id : PlayerId} {cards : List CardId} {r : PlayResult} (h : AccountingInv e log)
    (hplay : e.playCards id cards = some (e', r)) :
    AccountingInv e' (recordRound log e (.playCards id cards) (.result r) e') := by
  rcases playCards_frame hplay with ⟨rfl, hcode, -⟩ | ⟨seat, pattern, hok, hcode, hframe⟩
  · rw [recordRound, if_neg hcode]
    exact h
  rw [recordRound, if_pos hcode]
  have hlt := (seatOf_some hok.seated).1
  have hbag : e'.state.handBag + (e.state.hands seat : Multiset CardId) = e.state.handBag +
      (((e.state.players seat).hand.remove cards).1.cards : Multiset CardId) := by
    rw [hframe.seats.handBag, GameState.handBag, hands_acceptPlay]
    exact Bags.bag_update hlt _
  obtain ⟨hclean, hdirty⟩ := h.acceptPlay_hand hok
  refine ⟨hframe.config ▸ h.mode, h.dealt, ?_, ?_⟩
  · by_cases hnodup : cards.Nodup
    · -- the cards go from the hand to the table
      have hplays : cleanPlays { log with plays := log.plays ++ [cards] } =
          cleanPlays log ++ [cards] := by
        simp [cleanPlays, List.filter_append, hnodup]
      have hhand : (e.state.hands seat : Multiset CardId) = (cards : Multiset CardId) +
          (((e.state.players seat).hand.remove cards).1.cards : Multiset CardId) := by
        rw [Multiset.coe_add]
        exact Multiset.coe_eq_coe.2 (hclean hnodup)
      rw [hplays, List.flatten_append, ← Multiset.coe_add, ← h.kept]
      rw [hhand] at hbag
      have hgone : e'.state.handBag + (cards : Multiset CardId) = e.state.handBag := by
        refine add_right_cancel
          (b := (((e.state.players seat).hand.remove cards).1.cards : Multiset CardId)) ?_
        rw [← hbag]
        abel
      rw [← hgone]
      simp only [List.flatten_cons, List.flatten_nil, List.append_nil]
      abel
    · -- nothing is removed
      have hplays : cleanPlays { log with plays := log.plays ++ [cards] } = cleanPlays log := by
        simp [cleanPlays, List.filter_append, hnodup]
      rw [hdirty hnodup] at hbag
      rw [hplays, add_right_cancel hbag, h.kept]
  · rcases hframe.phase with hphase | hphase
    · exact .of_phase (by simp [hphase]) (by simp [hphase])
    · exact .of_phase (by simp [hphase]) (by simp [hphase])

theorem pass {id : PlayerId} {r : PlayResult} (h : AccountingInv e log)
    (hpass : e.pass id = some (e', r)) : AccountingInv e' log := by
  obtain ⟨hplayers, hcount, -, hphase, hconfig, htribute, -⟩ := pass_frame hpass
  refine h.keep (hconfig ▸ h.mode) ?_ ⟨?_, ?_⟩
  · rw [GameState.handBag, GameState.handBag, hcount]
    exact Bags.bag_congr fun i _ => by rw [GameState.hands, GameState.hands, hplayers]
  · rw [hphase, htribute, hcount]
    exact h.seats.plan
  · rw [hphase, htribute, hcount]
    exact h.seats.returns

theorem transfersOf_seats {sorted : List TributeManager.PendingTribute} {recipients : List Nat} :
    ∀ tr ∈ TributeManager.transfersOf sorted recipients,
      tr.fromSeat ∈ sorted.map (·.fromSeat) ∧ tr.toSeat ∈ recipients := by
  intro tr htr
  obtain ⟨⟨tribute, toSeat⟩, hmem, rfl⟩ := List.mem_map.1 htr
  obtain ⟨h1, h2⟩ := List.of_mem_zip hmem
  exact ⟨List.mem_map_of_mem h1, h2⟩

/-- Tributes go from tributers to recipients of the plan. -/
theorem assigned_seats {s s' : GameState} {ctx : RuleContext} {plan : TributePhasePlan}
    {submissions : Nat → Option CardId} {result result' : TributeRoundResult}
    (h : TributeManager.assignTributes s ctx plan submissions result = some (s', result')) :
    ∀ tr ∈ result'.tributes, tr.fromSeat ∈ plan.tributerSeats ∧ tr.toSeat ∈ plan.recipientSeats := by
  obtain ⟨pending, hpending, -, htributes, -⟩ := TributeManager.assignTributes_cases h
  intro tr htr
  rw [htributes] at htr
  obtain ⟨hf, ht⟩ := transfersOf_seats tr htr
  refine ⟨?_, ht⟩
  have hperm := (List.perm_insertionSort (fun a b =>
    ¬ TributeManager.compareTributeCards b a ctx plan.headSeat s.playerCount < 0) pending).map
      TributeManager.PendingTribute.fromSeat
  exact (TributeManager.pendingTributes_fromSeat hpending).subset (hperm.subset hf)

/-- Every recipient of a tribute returns to somebody who gave one. -/
theorem returnMap_mem (tributes : List TributeTransfer) :
    ∀ seat ∈ tributes.map (·.toSeat), ∃ tr ∈ tributes, tr.toSeat = seat ∧
      returnMap tributes seat = some tr.fromSeat := by
  unfold returnMap
  induction tributes using List.reverseRecOn with
  | nil => simp
  | append_singleton tributes last ih =>
    intro seat hseat
    rw [List.foldl_append, List.foldl_cons, List.foldl_nil]
    by_cases hlast : seat = last.toSeat
    · subst hlast
      exact ⟨last, by simp, rfl, by simp⟩
    · have hmem : seat ∈ tributes.map (·.toSeat) := by
        simpa [Ne.symm hlast, hlast] using hseat
      obtain ⟨tr, htr, hto, hval⟩ := ih seat hmem
      refine ⟨tr, List.mem_append_left _ htr, hto, ?_⟩
      rw [Function.update_of_ne hlast, hval]

theorem closeTributes {r : PlayResult} (h : AccountingInv e log)
    (hphase : e.state.phase = .tribute) (hclose : e.closeTributes = some (e', r)) :
    AccountingInv e' log := by
  obtain ⟨s, result, hassign, hsame, hrules, -, hrest⟩ := closeTributes_frame hclose
  obtain ⟨hfrom, hto⟩ := h.seats.plan hphase
  have hseats := assigned_seats hassign
  refine h.keep (hrules.config ▸ h.mode) ?_ ?_
  · rw [hsame.handBag, handBag_withHands]
    exact bag_moveAll fun tr htr => ⟨hfrom _ (hseats tr htr).1, hto _ (hseats tr htr).2⟩
  · rcases hrest with ⟨-, hplaying⟩ | ⟨-, rfl⟩
    · exact .of_phase (by simp [hplaying]) (by simp [hplaying])
    · refine ⟨fun hp => (by cases hp), fun _ seat hseat => ?_⟩
      obtain ⟨tr, htr, rfl, hval⟩ := returnMap_mem result.tributes seat hseat
      rw [hsame.playerCount]
      refine ⟨hto _ (hseats tr htr).2, ?_⟩
      show (returnMap result.tributes tr.toSeat).getD 0 < e.state.playerCount
      rw [hval]
      exact hfrom _ (hseats tr htr).1

theorem submitTribute {id : PlayerId} {cardId : CardId} {r : PlayResult}
    (h : AccountingInv e log) (hsubmit : e.submitTribute id cardId = some (e', r)) :
    AccountingInv e' log := by
  rcases submitTribute_cases hsubmit with ⟨rfl, -⟩ | ⟨seat, hphase, -, -, -, -, hrest⟩
  · exact h
  have hrec : AccountingInv (e.recordTribute seat cardId) log :=
    ⟨h.mode, h.dealt, h.kept, ⟨h.seats.plan, fun hp => absurd (hphase.symm.trans hp) (by simp)⟩⟩
  rcases hrest with ⟨-, rfl, -⟩ | ⟨-, hclose⟩
  · exact hrec
  · exact hrec.closeTributes hphase hclose

theorem submitReturn {id : PlayerId} {cardId : CardId} {r : PlayResult}
    (h : AccountingInv e log) (hsubmit : e.submitReturn id cardId = some (e', r)) :
    AccountingInv e' log := by
  rcases submitReturn_cases hsubmit with
    ⟨rfl, -⟩ | ⟨seat, hphase, -, -, hpending, -, rfl, -⟩
  · exact h
  obtain ⟨hseat, hto⟩ := h.seats.returns hphase seat hpending
  have hstate := recordReturn_state e seat cardId
  have hph : (e.recordReturn seat cardId).state.phase = .returnTribute := by
    rw [hstate]
    exact hphase
  refine h.keep h.mode ?_ ⟨fun hp => absurd (hph.symm.trans hp) (by simp), fun _ i hi => ?_⟩
  · rw [hstate]
    exact bag_moveHeld hseat hto
  · rw [hstate]
    exact h.seats.returns hphase i (List.mem_of_mem_filter hi)

theorem finalize {r : PlayResult} (h : AccountingInv e log)
    (hfin : e.finalizeTributePhase = some (e', r)) : AccountingInv e' log := by
  obtain ⟨hsame, hrules, -, hphase⟩ := finishTributePhase_frame hfin
  exact h.keep (hrules.config ▸ h.mode) hsame.handBag (.of_phase (by simp [hphase]) (by simp [hphase]))

theorem setPlayerReady {id : PlayerId} {ready : Bool} (h : AccountingInv e log) :
    AccountingInv (e.setPlayerReady id ready) log := by
  obtain ⟨hhands, hcount, hphase, hconfig, htribute, -⟩ := setPlayerReady_frame e id ready
  refine h.keep (hconfig ▸ h.mode) ?_ ⟨?_, ?_⟩
  · rw [GameState.handBag, GameState.handBag, hhands, hcount]
  · rw [hphase, htribute, hcount]
    exact h.seats.plan
  · rw [hphase, htribute, hcount]
    exact h.seats.returns

theorem init {roomId : RoomId} {playerIds : List PlayerId} (h : AccountingInv e log)
    (hinit : e.init roomId playerIds = some e') : AccountingInv e' {} := by
  unfold GameEngine.init at hinit
  split_ifs at hinit
  cases hinit
  refine ⟨h.mode, List.nodup_nil, ?_, .of_phase (by simp) (by simp)⟩
  have hempty : ∀ i < playerIds.length, (seatPlayer playerIds i).hand.cards = [] := by
    intro i hi
    simp [seatPlayer, hi]
  have hbag : Bags.bag playerIds.length (fun i => (seatPlayer playerIds i).hand.cards) = 0 := by
    rw [Bags.bag_congr (g := fun _ => []) hempty, Bags.bag]
    simp
  simp only [cleanPlays, List.filter_nil, List.flatten_nil, Multiset.coe_nil, add_zero]
  exact hbag

theorem updateConfig {config : GameRuleConfig} (h : AccountingInv e log)
    (hconfig : IsModeConfig config) : AccountingInv (e.updateConfig config) log := by
  unfold GameEngine.updateConfig
  split_ifs
  · exact h
  · exact ⟨hconfig, h.dealt, h.kept, ⟨h.seats.plan, h.seats.returns⟩⟩

theorem step {op : EngineOp} {out : EngineOut} (h : AccountingInv e log) (hok : ModeOp e op)
    (hstep : engine.step e op = some (e', out)) :
    AccountingInv e' (recordRound log e op out e') := by
  cases engine_step hstep with
  | init hinit => exact h.init hinit
  | setPlayerReady id ready => exact h.setPlayerReady
  | updateConfig config => exact h.updateConfig hok
  | startGame hstart => exact h.startGame hstart
  | startGameThrew _ _ => exact h.keep h.mode rfl ⟨h.seats.plan, h.seats.returns⟩
  | startNextRound hstart => exact h.startNextRound hstart
  | startNextRoundThrew _ _ => exact h.keep h.mode rfl ⟨h.seats.plan, h.seats.returns⟩
  | playCards hplay => exact h.playCards hplay
  | pass hpass => exact h.pass hpass
  | submitTribute hsubmit => exact h.submitTribute hsubmit
  | submitReturn hsubmit => exact h.submitReturn hsubmit
  | finalizeTributePhase hfin => exact h.finalize hfin
  | buildViewFor _ => exact h

end AccountingInv

/-- A new engine has dealt nothing. -/
theorem accountingInv_new {config : GameRuleConfig} (h : IsModeConfig config) :
    AccountingInv (GameEngine.new config) {} := by
  refine ⟨h, List.nodup_nil, ?_, .of_phase (by simp [GameEngine.new]) (by simp [GameEngine.new])⟩
  simp [cleanPlays, GameState.handBag, Bags.bag, GameEngine.new]

/-! ### Exactly which plays break the accounting -/

/-- A request that passes the checks of `playCards` names no id twice. -/
def CleanRequest (e : GameEngine) (op : EngineOp) : Prop :=
  ∀ id cards seat pattern, op = .playCards id cards → Playable e id cards seat pattern →
    cards.Nodup

/-- Only a play adds to the plays of the log. -/
theorem recordRound_plays {log : RoundLog} {e e' : GameEngine} {op : EngineOp} {out : EngineOut}
    (hop : ∀ id cards, op ≠ .playCards id cards) :
    ∀ play ∈ (recordRound log e op out e').plays, play ∈ log.plays := by
  intro play hplay
  unfold recordRound at hplay
  split at hplay
  · cases hplay
  · split_ifs at hplay
    · cases hplay
    · exact hplay
  · split_ifs at hplay
    · cases hplay
    · exact hplay
  · exact absurd rfl (hop _ _)
  · exact hplay

/-- A step keeps the accounting exactly when it is no play that names an id twice. -/
theorem accounted_step {e e' : GameEngine} {log : RoundLog} {op : EngineOp} {out : EngineOut}
    (h : AccountingInv e log) (hacc : Accounted (e, log)) (hok : ModeOp e op)
    (hstep : engine.step e op = some (e', out)) :
    Accounted (e', recordRound log e op out e') ↔ CleanRequest e op := by
  rw [(h.step hok hstep).accounted_iff]
  rw [h.accounted_iff] at hacc
  by_cases hop : ∃ id cards, op = .playCards id cards
  · obtain ⟨id, cards, rfl⟩ := hop
    rcases engine_step hstep with _ | _ | _ | _ | _ | _ | _ | hplay
    rename_i r
    rcases playCards_cases hplay with ⟨rfl, hcode, hnone⟩ | ⟨seat, pattern, hok, hcode, -⟩
    · rw [recordRound, if_neg hcode]
      refine iff_of_true hacc fun id' cards' seat pattern heq hplayable => ?_
      cases heq
      exact absurd hplayable (hnone seat pattern)
    · rw [recordRound, if_pos hcode]
      constructor
      · intro hall id' cards' seat' pattern' heq _
        cases heq
        exact hall cards (by simp)
      · intro hclean play hmem
        rcases List.mem_append.1 hmem with hmem | hmem
        · exact hacc play hmem
        · rw [List.mem_singleton.1 hmem]
          exact hclean id cards seat pattern rfl hok
  · push Not at hop
    refine iff_of_true (fun play hmem => ?_) fun id cards seat pattern heq => ?_
    · exact hacc play (recordRound_plays hop play hmem)
    · exact absurd heq (hop id cards)

/-- A play shows different cards and takes each of them from the hand exactly when it names no id
twice. -/
theorem play_shrinks_iff {e e' : GameEngine} {log : RoundLog} {id : PlayerId} {cards : List CardId}
    {r : PlayResult} {seat : Nat} {pattern : CardPattern} (h : AccountingInv e log)
    (hplay : e.playCards id cards = some (e', r)) (hok : Playable e id cards seat pattern) :
    (cards.toFinset.card = cards.length ∧
      (e'.state.hands seat).length + cards.length = (e.state.hands seat).length) ↔
      cards.Nodup := by
  rcases playCards_frame hplay with ⟨-, -, hnone⟩ | ⟨seat', pattern', hok', -, hframe⟩
  · exact absurd hok (hnone seat pattern)
  have hseat : seat' = seat := Option.some.inj (hok'.seated.symm.trans hok.seated)
  subst hseat
  have hhand : e'.state.hands seat' = ((e.state.players seat').hand.remove cards).1.cards := by
    rw [hframe.seats.hands, hands_acceptPlay, Function.update_self]
  constructor
  · exact fun hcard => Multiset.toFinset_card_eq_card_iff_nodup.1 hcard.1
  · intro hnodup
    refine ⟨List.toFinset_card_of_nodup hnodup, ?_⟩
    have hperm := ((h.acceptPlay_hand hok').1 hnodup).length_eq
    rw [List.length_append] at hperm
    rw [hhand, hperm, Nat.add_comm]

/-! ### Runs -/

/-- The engine with the log of its round. -/
def loggedEngine : Machine (GameEngine × RoundLog) EngineOp EngineOut :=
  engine.withHistory recordRound

/-- The engine of a new room of this mode. -/
def newEngine (mode : String) : GameEngine × RoundLog :=
  (GameEngine.new (toGameRuleConfig (RoomConfig.fromModeName mode)), {})

theorem accountingInv_newEngine (mode : String) :
    AccountingInv (newEngine mode).1 (newEngine mode).2 :=
  accountingInv_new (isModeConfig_fromModeName mode)

theorem accountingInv_step {sg sg' : GameEngine × RoundLog} {op : EngineOp} {out : EngineOut}
    (h : AccountingInv sg.1 sg.2) (hok : ModeOp sg.1 op)
    (hstep : loggedEngine.step sg op = some (sg', out)) : AccountingInv sg'.1 sg'.2 := by
  obtain ⟨happly, hlog⟩ := Machine.withHistory_step.1 hstep
  rw [hlog]
  exact h.step hok happly

/-- Along a run the round is accounted for in every state exactly when every step of the run is
clean; and a play shows as many cards as it takes from the hand exactly when it is clean. -/
theorem card_accounting (mode : String) {ops : List EngineOp}
    (hok : loggedEngine.Follows (fun sg => ModeOp sg.1) (newEngine mode) ops) :
    (loggedEngine.Always Accounted (newEngine mode) ops ↔
      loggedEngine.EachStep (fun sg op _ => CleanRequest sg.1 op) (newEngine mode) ops) ∧
    ∀ sg, loggedEngine.run (newEngine mode) ops = some sg →
      ∀ id cards seat pattern e' r, sg.1.playCards id cards = some (e', r) →
        Playable sg.1 id cards seat pattern →
        ((cards.toFinset.card = cards.length ∧
          (e'.state.hands seat).length + cards.length = (sg.1.state.hands seat).length) ↔
          cards.Nodup) := by
  constructor
  · refine Machine.always_iff_eachStep (J := fun sg => AccountingInv sg.1 sg.2)
      (fun sg op sg' out h hop hstep => accountingInv_step h hop hstep) ?_
      (accountingInv_newEngine mode) ?_ hok
    · intro sg op sg' out h hacc hop hstep
      obtain ⟨happly, hlog⟩ := Machine.withHistory_step.1 hstep
      obtain ⟨e', log'⟩ := sg'
      dsimp only at hlog
      subst hlog
      exact accounted_step h hacc hop happly
    · exact (accountingInv_newEngine mode).accounted_iff.2 (by simp [newEngine])
  · intro sg hrun id cards seat pattern e' r hplay hplayable
    have hinv : AccountingInv sg.1 sg.2 :=
      (Machine.reachable_of_run hok hrun).invariant (P := fun sg => AccountingInv sg.1 sg.2)
        (accountingInv_newEngine mode) fun sg op sg' out h hop hstep =>
          accountingInv_step h hop hstep
    exact play_shrinks_iff hinv hplay hplayable

/-- Four players sit down and the deck is dealt as it is. -/
def startSolo (σ : Shuffle) : List EngineOp :=
  [.init "table" [1, 2, 3, 4], .setPlayerReady 1 true, .setPlayerReady 2 true,
    .setPlayerReady 3 true, .setPlayerReady 4 true, .startGame σ]

/-- The first and the third player go out, each with a pair: a round that ends double down. -/
def doubleDown : List EngineOp :=
  startSolo (Shuffle.stack [1, 14, 3, 16, 2, 15, 4, 17]) ++
    [.playCards 1 [1, 14], .pass 2, .playCards 3 [2, 15]]

/-- The first player leads one card. -/
def soloLead : List EngineOp := startSolo (Shuffle.stack []) ++ [.playCards 1 [0]]

theorem soloLead_follows :
    loggedEngine.Follows (fun sg => ModeOp sg.1) (newEngine "solo") soloLead :=
  .of_forall (by simp [soloLead, startSolo, ModeOp])

theorem card_accounting_soloLead :
    loggedEngine.Always Accounted (newEngine "solo") soloLead ↔
      loggedEngine.EachStep (fun sg op _ => CleanRequest sg.1 op) (newEngine "solo") soloLead :=
  (card_accounting "solo" soloLead_follows).1

/-- The first player leads card 0 twice: the pair is accepted, and the card stays in the hand. -/
theorem repeated_card_unaccounted :
    ¬ ∀ (mode : String) (ops : List EngineOp),
      loggedEngine.Follows (fun sg => ModeOp sg.1) (newEngine mode) ops →
        loggedEngine.Always Accounted (newEngine mode) ops := by
  intro h
  have hok : loggedEngine.Follows (fun sg => ModeOp sg.1) (newEngine "solo")
      (startSolo (Shuffle.stack []) ++ [.playCards 1 [0, 0]]) :=
    .of_forall (by simp [startSolo, ModeOp])
  obtain ⟨sg, hrun, hnot⟩ := Machine.exists_run_of_any
    (M := loggedEngine) (s := newEngine "solo") (P := fun sg => ¬ Accounted sg)
    (l := startSolo (Shuffle.stack []) ++ [.playCards 1 [0, 0]]) (by decide +kernel)
  exact hnot ((h _ _ hok).of_run hrun)

end Guandan
