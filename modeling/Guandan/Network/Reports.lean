import Guandan.Client.Picture
import Guandan.Engine.Liveness

/-!
# What a player learns of a step

`Report` lists what the messages of a step can tell a player who has not finished the round: nothing, a
new hand, a turn, or the end of the round; what they say is true of the engine after the step. Who has
finished is told more than that, of which nothing is needed.
-/

namespace Guandan

open Room GameState GameEngine Replica

/-- The player has not gone out in this round, or had cards left when it ended. -/
def StillIn (e : GameEngine) (viewer : PlayerId) : Prop :=
  ∀ seat, e.seatOf viewer = some seat →
    (e.state.players seat).hasFinished = false ∨ e.state.phase = .finished ∧ e.state.hands seat ≠ []

/-- A member whom the room manager finds in the room. -/
structure Table.Seated (t : Table) (viewer : PlayerId) : Prop where
  found : t.finds viewer = true
  member : t.room.containsPlayer viewer = true

/-! ### The end of the tribute phase -/

/-- A tribute phase that is active is the phase of the game. -/
def TributeInTime (e : GameEngine) : Prop :=
  e.tributeState.active = true → e.state.phase = .tribute ∨ e.state.phase = .returnTribute

namespace TributeInTime

variable {e e' : GameEngine} {r : PlayResult} {id : PlayerId} {cardId : CardId}

theorem of_inactive (h : e.tributeState.active = false) : TributeInTime e := fun hactive => by
  rw [h] at hactive
  cases hactive

theorem congr (h : TributeInTime e) (htribute : e'.tributeState.active = e.tributeState.active)
    (hphase : e'.state.phase = e.state.phase) : TributeInTime e' := by
  unfold TributeInTime
  rw [htribute, hphase]
  exact h

theorem inactive (h : TributeInTime e)
    (hphase : e.state.phase ≠ .tribute ∧ e.state.phase ≠ .returnTribute) :
    e.tributeState.active = false := by
  rw [← Bool.not_eq_true]
  exact fun hactive => (h hactive).elim hphase.1 hphase.2

theorem finished (hfin : e.finishTributePhaseAndStartPlay = some (e', r)) : TributeInTime e' := by
  obtain ⟨-, first, -, rfl⟩ := finishTributePhase_cases hfin
  exact of_inactive rfl

theorem submitTribute (h : TributeInTime e) (hsubmit : e.submitTribute id cardId = some (e', r)) :
    TributeInTime e' := by
  rcases submitTribute_cases hsubmit with
    ⟨rfl, -⟩ | ⟨seat, hphase, -, -, -, -, ⟨-, rfl, -⟩ | ⟨-, hclose⟩⟩
  · exact h
  · exact fun _ => .inl hphase
  · obtain ⟨s, result, -, ⟨-, hfin⟩ | ⟨-, -, rfl⟩⟩ := closeTributes_cases hclose
    · exact finished hfin
    · exact fun _ => .inr rfl

theorem setPlayerReady (h : TributeInTime e) (id : PlayerId) (ready : Bool) :
    TributeInTime (e.setPlayerReady id ready) := by
  obtain ⟨-, -, hphase, -, htribute, -⟩ := setPlayerReady_frame e id ready
  exact h.congr (congrArg (·.active) htribute) hphase

theorem step {op : EngineOp} {out : EngineOut} (h : TributeInTime e) (hok : MatchCall e op)
    (hstep : engine.step e op = some (e', out)) : TributeInTime e' := by
  cases engine_step hstep with
  | init hinit => exact absurd rfl (hok.2.1 _ _)
  | setPlayerReady id ready => exact h.setPlayerReady id ready
  | updateConfig config => exact absurd rfl (hok.2.2 _)
  | startGame hstart =>
    rcases startGame_cases hstart with ⟨rfl, -⟩ | ⟨hphase, -, -, e₁, hdeal, rfl⟩
    · exact h
    · obtain ⟨hands, -, rfl⟩ := dealRound_cases hdeal
      refine of_inactive (h.inactive ?_)
      rcases hphase with hphase | hphase <;> simp [hphase]
  | startGameThrew _ _ => exact h
  | startNextRound hstart =>
    rcases startNextRound_cases hstart with ⟨rfl, -⟩ | ⟨-, -, e₁, -, htribute⟩
    · exact h
    · obtain ⟨plan, -, ⟨result, -, rfl⟩ | ⟨-, -, rfl⟩⟩ := startTribute_cases htribute
      · exact of_inactive rfl
      · exact fun _ => .inl rfl
  | startNextRoundThrew _ _ => exact h
  | playCards hplay =>
    rcases playCards_frame hplay with ⟨rfl, -⟩ | ⟨seat, pattern, hplayable, -, hframe⟩
    · exact h
    · refine of_inactive (congrArg (·.active) hframe.tributeState |>.trans (h.inactive ?_))
      simp [hplayable.phase]
  | pass hpass =>
    obtain ⟨-, -, -, hphase, -, htribute, -⟩ := pass_frame hpass
    exact h.congr (congrArg (·.active) htribute) hphase
  | submitTribute hsubmit => exact h.submitTribute hsubmit
  | submitReturn hsubmit =>
    rcases submitReturn_cases hsubmit with ⟨rfl, -⟩ | ⟨seat, hphase, -, -, -, -, rfl, -⟩
    · exact h
    · exact fun _ => .inr ((SeatingInv.quiet_recordReturn _ seat _).2.trans hphase)
  | finalizeTributePhase hfin => exact finished hfin
  | buildViewFor _ => exact h

theorem course (h : TributeInTime e) (hcourse : Course e e') : TributeInTime e' :=
  hcourse.invariant h fun _ _ _ _ he hok hstep => he.step hok hstep

/-- A new match begins with the tribute state as it was left. -/
theorem startGame {r r' : Room} {σ : Shuffle} (h : r.engine.tributeState.active = false)
    (hstart : r.startGame σ = some (r', true)) : TributeInTime r'.engine := by
  unfold Room.startGame at hstart
  split_ifs at hstart
  · cases hstart
  · cases hstart
  · cases hstart
  · cases hstart
  simp only [Option.bind_eq_bind, Option.bind_eq_some_iff, Prod.exists] at hstart
  obtain ⟨e, hinit, e', result, hgame, hstart⟩ := hstart
  have hready : TributeInTime (r.players.foldl (fun e p => e.setPlayerReady p.id true) e) := by
    refine List.foldlRecOn _ _ ?_ fun e he p _ => he.setPlayerReady p.id true
    rw [init] at hinit
    split_ifs at hinit
    cases hinit
    exact of_inactive h
  have he' := hready.course (Course.startGame hgame)
  split_ifs at hstart
  · cases hstart
    exact he'
  · cases hstart

theorem create (roomId : RoomId) (ownerId : PlayerId) (mode : String) :
    TributeInTime (Room.create roomId ownerId mode).engine := by
  have hfill : ∀ fuel botIndex (r : Room), (fillBotsFrom fuel botIndex r).engine = r.engine := by
    intro fuel
    induction fuel with
    | zero => exact fun _ _ => rfl
    | succ fuel ih =>
      intro botIndex r
      rw [fillBotsFrom]
      split_ifs
      · rfl
      rcases r.firstEmptySeat with _ | seat
      · rfl
      rcases hadd : r.addBotAtSeat seat botIndex with _ | r' <;> simp only [hadd]
      unfold addBotAtSeat at hadd
      split_ifs at hadd
      cases hadd
      exact ih _ _
  have hjoin : ∀ r : Room, ((r.join ownerId).getD r).engine = r.engine := by
    intro r
    unfold Room.join
    split_ifs
    · rfl
    · rfl
    · rfl
    · rcases r.firstEmptySeat with _ | seat <;> rfl
  refine of_inactive ?_
  unfold Room.create fillBots
  dsimp only
  split_ifs
  · rw [hfill, hjoin]
    rfl
  · rw [hjoin]
    rfl

theorem played {r r' : Room} {starts : List RoundStart} (h : TributeInTime r.engine) (hinv : RoomInv r)
    (hplayed : Played r r' starts) : TributeInTime r'.engine := by
  cases hplayed with
  | goesOn hcourse _ => exact h.course hcourse
  | won hcourse _ => exact h.course hcourse
  | settled hcourse hover => exact h.course (hinv.settle hcourse hover).2
  | next hcourse hover hstart =>
    obtain ⟨hsettled, hcourse'⟩ := hinv.settle hcourse hover
    obtain ⟨-, -, -, e, hnext, -, rfl⟩ := roomInv_startNextRound hsettled hstart
    exact h.course (hcourse'.trans hnext)

theorem handled {t : Table} {op : TableOp} {r : Room} {starts : List RoundStart}
    (h : TributeInTime t.room.engine) (hinv : RoomInv t.room) (hok : TableCall t op)
    (hstart : .startGame t.room.phase ∈ starts → t.room.engine.tributeState.active = false)
    (hhandled : Handled t op r starts) : TributeInTime r.engine := by
  cases hhandled with
  | stays _ | notFound _ _ | voted _ _ | notStarted _ => exact h
  | left _ =>
    unfold Room.leave
    split_ifs
    · exact h
    · exact h
  | joined hjoin =>
    unfold Room.join at hjoin
    split_ifs at hjoin
    obtain ⟨seat, -, rfl⟩ := Option.map_eq_some_iff.1 hjoin
    exact h
  | readied hready _ => exact hready ▸ h.course (hinv.ready_getD _).2.1
  | nextRound _ hnext =>
    obtain ⟨hready, hcourse, -⟩ := hinv.ready_getD _
    obtain ⟨-, -, -, e, hcourse', -, rfl⟩ := roomInv_startNextRound hready hnext
    exact h.course (hcourse.trans hcourse')
  | unreadied hunready => exact (hinv.unready hunready).2.1 ▸ h
  | moved hmove =>
    unfold Room.changeSeat at hmove
    split_ifs at hmove
    obtain ⟨p, -, rfl⟩ := Option.map_eq_some_iff.1 hmove
    exact h
  | optioned hset =>
    unfold Room.setEnableTribute at hset
    split_ifs at hset
    cases hset
    unfold updateConfig
    split_ifs
    · exact h
    · exact h.congr rfl rfl
  | started _ _ hgame => exact startGame (hstart (List.mem_singleton_self _)) hgame
  | played _ _ hplayed => exact h.played hinv hplayed
  | tributed _ _ hcourse _ => exact h.course hcourse
  | filled _ hpeople => exact (hinv.members.fillBots hpeople).2.2.1 ▸ h

end TributeInTime

/-- Nobody goes out before play has begun. -/
theorem stillIn_of_tribute {e : GameEngine} (h : Reached e)
    (hphase : e.state.phase = .tribute ∨ e.state.phase = .returnTribute) (viewer : PlayerId) :
    StillIn e viewer := by
  obtain ⟨log, passes, hfacts⟩ := h.facts
  obtain ⟨order, hranked, horder⟩ := hfacts.round.seating.ranks
  have hnobody : order = [] := by
    rcases hphase with hphase | hphase <;> exact horder (by simp [hphase]) (by simp [hphase])
  intro seat _
  left
  rw [← Bool.not_eq_true, hranked.finished, hnobody]
  exact List.not_mem_nil

/-! ### Views -/

/-- The view of a player who has not finished. -/
structure OwnView (e : GameEngine) (viewer : PlayerId) (view : PlayerView) : Prop where
  phase : view.phase = e.state.phase
  turnId : view.turnId = e.state.turnId
  current : view.currentPlayerIndex =
    if e.tributeState.active then none else some e.state.currentPlayerIndex
  sight : view.isSpectating = false
  hand : ∀ seat, e.seatOf viewer = some seat → view.myCards = e.state.hands seat

section Views

variable {r : Room} {viewer : PlayerId} {targets : SpectateTargets} {view : PlayerView}

/-- Everybody can be shown a view. -/
theorem playerView_isSome (h : Reached r.engine) (targets : SpectateTargets) (viewer : PlayerId) :
    ∃ view, r.playerView targets viewer = some view := by
  obtain ⟨log, passes, hfacts⟩ := h.facts
  have hknown : ∀ seat, r.engine.seatOf viewer = some seat → r.engine.state.phase ≠ .waiting →
      r.engine.state.KnownHands ∧ seat < r.engine.state.playerCount := fun seat hseat hne =>
    ⟨hfacts.round.knownHands hne, (seatOf_some hseat).1⟩
  obtain ⟨required, hrequired⟩ : ∃ required,
      r.engine.viewRequired (r.engine.seatOf viewer) = some required := by
    unfold viewRequired
    rcases hseat : r.engine.seatOf viewer with _ | seat <;> dsimp only
    · exact ⟨0, rfl⟩
    · split_ifs with hpending
      · obtain ⟨hhands, hlt⟩ := hknown seat hseat (by simp [hpending.2.1])
        exact ⟨_, requiredTributeCard_eq hhands hlt⟩
      · exact ⟨0, rfl⟩
  obtain ⟨returns, hreturns⟩ : ∃ returns,
      r.engine.viewReturns (r.engine.seatOf viewer) = some returns := by
    unfold viewReturns
    rcases hseat : r.engine.seatOf viewer with _ | seat <;> dsimp only
    · exact ⟨[], rfl⟩
    · split_ifs with hpending
      · have hphase : r.engine.state.phase = .returnTribute := by
          simp only [viewMustReturn, Bool.and_eq_true, beq_iff_eq] at hpending
          exact hpending.1.2
        obtain ⟨hhands, hlt⟩ := hknown seat hseat (by simp [hphase])
        exact ⟨_, validReturnCardIds_eq hhands hlt⟩
      · exact ⟨[], rfl⟩
  obtain ⟨view, hview, -⟩ := buildViewFor_of hrequired hreturns (r.resolveViewAnchor targets viewer)
  exact ⟨view, hview⟩

theorem playerView_phase (hview : r.playerView targets viewer = some view) :
    view.phase = r.engine.state.phase := by
  unfold playerView buildViewFor at hview
  simp only [Option.bind_eq_bind, Option.bind_eq_some_iff, Option.pure_def, Option.some.injEq] at hview
  obtain ⟨required, -, returns, -, rfl⟩ := hview
  rfl

/-- Who has not finished sees its own hand, whatever is stored of whom it watches. -/
theorem ownView (hon : Ongoing r.engine) (hin : StillIn r.engine viewer)
    (hview : r.playerView targets viewer = some view) : OwnView r.engine viewer view := by
  have hanchor : r.engine.anchorSeat (r.engine.seatOf viewer) (r.resolveViewAnchor targets viewer) =
      r.engine.seatOf viewer := by
    unfold resolveViewAnchor
    rcases hseat : r.engine.seatOf viewer with _ | seat
    · rfl
    have hnot : (r.engine.state.players seat).hasFinished = false := by
      refine (hin seat hseat).resolve_right fun hover => ?_
      unfold Ongoing at hon
      simp [hover.1] at hon
    simp [hnot, anchorSeat, (seatOf_some hseat).1]
  unfold playerView buildViewFor at hview
  simp only [Option.bind_eq_bind, Option.bind_eq_some_iff, Option.pure_def, Option.some.injEq,
    hanchor] at hview
  obtain ⟨required, -, returns, -, rfl⟩ := hview
  refine ⟨rfl, rfl, rfl, by simp, fun seat hseat => ?_⟩
  simp only [hseat]
  rfl

end Views

/-! ### Reports -/

/-- The turn as a view shows it. -/
def turnOf (e : GameEngine) : Nat × Int := (e.state.turnId, e.state.currentPlayerIndex)

/-- The same round, with the same cards but for those taken from the viewer, and its reader is told no more
than the turn. -/
structure Kept (viewer : PlayerId) (taken : List CardId) (e e' : GameEngine)
    (ms : List ServerMessage) : Prop where
  phase : e'.state.phase = e.state.phase
  seat : e'.seatOf viewer = e.seatOf viewer
  stillIn : StillIn e' viewer → StillIn e viewer
  hands : ∀ seat, e.seatOf viewer = some seat →
    ∀ id, id ∈ e'.state.hands seat ↔ id ∈ e.state.hands seat ∧ id ∉ taken
  quiet : Quiet ServerMessage.renews ms
  own : ∀ m ∈ ms, m.isOwn = true
  ends : Ongoing e' → ∀ m ∈ ms, m.endsRound = false
  hand : ∀ hand id, id ∈ deliver (Client.handAfter viewer) hand ms ↔ id ∈ hand ∧ id ∉ taken
  turn : e'.state.phase = .playing → deliver Client.turnAfter (turnOf e) ms = turnOf e'
  play : ∀ phase, deliver Client.phaseAfter phase ms = .playing →
    phase = .playing ∨ e'.state.phase = .playing

/-- A new picture of a round that is going on. -/
structure Renewed (viewer : PlayerId) (e e' : GameEngine) (ms : List ServerMessage) : Prop where
  ongoing : Ongoing e'
  renews : ¬ Quiet ServerMessage.renews ms
  own : AtLast ServerMessage.renews (·.isOwn = true) ms
  hand : ∀ seat, e'.seatOf viewer = some seat → ∀ hand id,
    id ∈ deliver (Client.handAfter viewer) hand ms ↔ id ∈ e'.state.hands seat
  turn : e'.state.phase = .playing → ∀ turn, deliver Client.turnAfter turn ms = turnOf e'
  play : ∀ phase, deliver Client.phaseAfter phase ms = .playing → e'.state.phase = .playing
  between : ∀ between, (Ongoing e → StillIn e viewer → between = false) →
    deliver Client.betweenAfter between ms = false

/-- The round is over, and nobody takes it to be in play. -/
structure Over (e' : GameEngine) (ms : List ServerMessage) : Prop where
  ended : ¬ Ongoing e'
  play : ∀ phase, deliver Client.phaseAfter phase ms ≠ .playing

/-- What the messages of a step tell the viewer, who has lost the cards `taken` in it. -/
inductive Report (viewer : PlayerId) (taken : List CardId) (e e' : GameEngine)
    (ms : List ServerMessage) : Prop
  | kept : Kept viewer taken e e' ms → Report viewer taken e e' ms
  | renewed : Renewed viewer e e' ms → Report viewer taken e e' ms
  | ended : Over e' ms → Report viewer taken e e' ms

/-- A message that is not about the game, nor about the end of a round while one is going on. -/
def ServerMessage.Plain (e : GameEngine) (m : ServerMessage) : Prop :=
  m.silent = true ∧ (Ongoing e → m.endsRound = false)

/-- Nothing that a picture shows is different. -/
structure Unchanged (e e' : GameEngine) : Prop where
  phase : e'.state.phase = e.state.phase
  turn : turnOf e' = turnOf e
  playerCount : e'.state.playerCount = e.state.playerCount
  ids : ∀ i, (e'.state.players i).id = (e.state.players i).id
  finished : ∀ i, (e'.state.players i).hasFinished = (e.state.players i).hasFinished
  hands : e'.state.hands = e.state.hands

section Report

variable {viewer : PlayerId} {e e' : GameEngine} {ms pre post : List ServerMessage} {m : ServerMessage}
  {view : PlayerView}

theorem seatOf_congr (hcount : e'.state.playerCount = e.state.playerCount)
    (hids : ∀ i, (e'.state.players i).id = (e.state.players i).id) (id : PlayerId) :
    e'.seatOf id = e.seatOf id := by
  unfold seatOf
  simp only [hcount, hids]

theorem Unchanged.refl (e : GameEngine) : Unchanged e e := ⟨rfl, rfl, rfl, fun _ => rfl, fun _ => rfl, rfl⟩

theorem Unchanged.trans {e'' : GameEngine} (h : Unchanged e e') (h' : Unchanged e' e'') :
    Unchanged e e'' where
  phase := h'.phase.trans h.phase
  turn := h'.turn.trans h.turn
  playerCount := h'.playerCount.trans h.playerCount
  ids := fun i => (h'.ids i).trans (h.ids i)
  finished := fun i => (h'.finished i).trans (h.finished i)
  hands := h'.hands.trans h.hands

theorem Unchanged.stillIn (h : Unchanged e e') (hin : StillIn e' viewer) : StillIn e viewer := by
  intro seat hseat
  have hin := hin seat ((seatOf_congr h.playerCount h.ids viewer).trans hseat)
  rwa [h.finished, h.phase, h.hands] at hin

theorem Kept.of_plain (h : Unchanged e e') (hplain : ∀ m ∈ ms, m.Plain e') :
    Kept viewer [] e e' ms where
  phase := h.phase
  seat := seatOf_congr h.playerCount h.ids viewer
  stillIn := h.stillIn
  hands := fun seat _ id => by simp [h.hands]
  quiet := fun m hm => (Client.silent_spec (hplain m hm).1).1
  own := fun m hm => (Client.silent_spec (hplain m hm).1).2.1
  ends := fun hon m hm => (hplain m hm).2 hon
  hand := fun hand id => by
    have hsame : deliver (Client.handAfter viewer) hand ms = hand := deliver_keeps (P := (· = hand)) rfl
      fun hand' heq m hm => ((Client.silent_spec (hplain m hm).1).2.2.2.1 viewer hand').trans heq
    simp [hsame]
  turn := fun _ => by
    have hsame : deliver Client.turnAfter (turnOf e) ms = turnOf e := deliver_keeps (P := (· = turnOf e)) rfl
      fun turn heq m hm => ((Client.silent_spec (hplain m hm).1).2.2.2.2.1 turn).trans heq
    rw [hsame, h.turn]
  play := fun phase hphase => by
    have hsame : deliver Client.phaseAfter phase ms = phase := deliver_keeps (P := (· = phase)) rfl
      fun phase' heq m hm => ((Client.silent_spec (hplain m hm).1).2.2.2.2.2 phase').trans heq
    exact .inl (hsame.symm.trans hphase)

theorem Report.nothing (e : GameEngine) : Report viewer [] e e [] :=
  .kept (.of_plain (.refl e) (List.forall_mem_nil _))

/-- A message that shows a view, and renews the picture. -/
def ServerMessage.Shows (m : ServerMessage) (view : PlayerView) : Prop :=
  m = .gameSnapshot view ∨ m = .cardsDealt view ∨ m = .tributePhaseUpdated view

/-- A new picture, and nothing about the game after it. -/
theorem Renewed.of_last (hon' : Ongoing e') (htribute : TributeInTime e') (hview : OwnView e' viewer view)
    (hm : m.Shows view) (hpost : ∀ m ∈ post, m.Plain e')
    (hpre : m.deals = true ∨ (Ongoing e ∧ StillIn e viewer ∧ ∀ m ∈ pre, m.endsRound = false)) :
    Renewed viewer e e' (pre ++ m :: post) := by
  have hrenews : m.renews = true := by obtain rfl | rfl | rfl := hm <;> rfl
  have hown : m.isOwn = true := by
    obtain rfl | rfl | rfl := hm <;> simp [ServerMessage.isOwn, hview.sight]
  have hhand (hand : List CardId) :
      deliver (Client.handAfter viewer) hand (pre ++ m :: post) = view.myCards := by
    rw [deliver_append, deliver_cons]
    have hshown : Client.handAfter viewer (deliver (Client.handAfter viewer) hand pre) m = view.myCards := by
      obtain rfl | rfl | rfl := hm <;> rfl
    rw [hshown]
    exact deliver_keeps (P := (· = view.myCards)) rfl
      fun hand' heq m hm => ((Client.silent_spec (hpost m hm).1).2.2.2.1 viewer hand').trans heq
  have hphase (phase : GamePhase) : deliver Client.phaseAfter phase (pre ++ m :: post) = view.phase := by
    rw [deliver_append, deliver_cons]
    have hshown : Client.phaseAfter (deliver Client.phaseAfter phase pre) m = view.phase := by
      obtain rfl | rfl | rfl := hm <;> rfl
    rw [hshown]
    exact deliver_keeps (P := (· = view.phase)) rfl
      fun phase' heq m hm => ((Client.silent_spec (hpost m hm).1).2.2.2.2.2 phase').trans heq
  refine ⟨hon', fun hquiet => ?_, .renewed hrenews hown fun m hm => (Client.silent_spec (hpost m hm).1).2.1,
    fun seat hseat hand id => by rw [hhand, hview.hand seat hseat], fun hplaying turn => ?_,
    fun phase hplaying => ?_, fun between hbetween => ?_⟩
  · exact not_quiet_cons hrenews (quiet_append.1 hquiet).2
  · rw [deliver_append, deliver_cons]
    have hshown : Client.turnAfter (deliver Client.turnAfter turn pre) m = turnOf e' := by
      have hinactive := htribute.inactive (by simp [hplaying])
      have hcurrent : view.currentPlayerIndex = some e'.state.currentPlayerIndex := by
        rw [hview.current, if_neg (by simp [hinactive])]
      have hturn : Client.turnAfter (deliver Client.turnAfter turn pre) m =
          (view.turnId, Client.seatNumber view.currentPlayerIndex) := by
        obtain rfl | rfl | rfl := hm <;> rfl
      rw [hturn, hview.turnId, hcurrent]
      rfl
    rw [hshown]
    exact deliver_keeps (P := (· = turnOf e')) rfl
      fun turn' heq m hm => ((Client.silent_spec (hpost m hm).1).2.2.2.2.1 turn').trans heq
  · rw [← hview.phase, ← hphase phase]
    exact hplaying
  · rw [deliver_append, deliver_cons]
    have hshown : Client.betweenAfter (deliver Client.betweenAfter between pre) m = false := by
      have hends : m.endsRound = false := by obtain rfl | rfl | rfl := hm <;> rfl
      rcases hpre with hdeals | ⟨hon, hin, hpre⟩
      · simp [Client.betweenAfter, hends, hdeals]
      · have hsame : deliver Client.betweenAfter between pre = false :=
          deliver_keeps (P := (· = false)) (hbetween hon hin) fun b hb m hm => by
            simp [Client.betweenAfter, hpre m hm, hb]
        simp [Client.betweenAfter, hends, hsame]
    rw [hshown]
    exact deliver_keeps (P := (· = false)) rfl fun b hb m hm => by
      simp [Client.betweenAfter, (hpost m hm).2 hon', hb]

end Report

/-! ### Requests about the room -/

/-- A step of a room in which the viewer sits, and has not finished the round when it is done. -/
structure Watching (t t' : Table) (viewer : PlayerId) : Prop where
  before : RoomInv t.room
  after : RoomInv t'.room
  tribute : TributeInTime t'.room.engine
  person : isBotPlayer viewer = false
  isOpen : t'.isOpen = true
  member : t'.room.containsPlayer viewer = true
  stillIn : StillIn t'.room.engine viewer

section RoomRequests

variable {t t' : Table} {r r' : Room} {out : TableOut} {viewer id : PlayerId} {targets : SpectateTargets}
  {e e' : GameEngine} {ms : List ServerMessage} {m : ServerMessage} {taken : List CardId}
  {P : ServerMessage → Prop}

theorem forall_broadcast (r : Room) (h : ∀ m ∈ ms, P m) : ∀ m ∈ broadcastToRoom viewer r ms, P m := by
  unfold broadcastToRoom
  split_ifs
  · exact h
  · exact List.forall_mem_nil _

theorem forall_response (sender : PlayerId) (h : P m) : ∀ m' ∈ sendResponse viewer sender m, P m' := by
  unfold sendResponse
  split_ifs
  · exact List.forall_mem_singleton.2 h
  · exact List.forall_mem_nil _

theorem plain_other (e : GameEngine) (type : String) : (ServerMessage.other type).Plain e :=
  ⟨rfl, fun _ => rfl⟩

theorem plain_error (e : GameEngine) (code : ErrorCode) : (ServerMessage.error code).Plain e :=
  ⟨rfl, fun _ => rfl⟩

theorem plain_roomState (h : RoomInv r) : (roomStateMessage r).Plain r.engine :=
  ⟨rfl, fun hon => by simp [roomStateMessage, ServerMessage.endsRound, h.playing hon]⟩

/-- A refused request is answered with an error, to its sender alone. -/
theorem report_refused (hroom : t'.room = t.room) {sender : PlayerId} {op : TableOp} {code : ErrorCode}
    (hsender : op.sender? = some sender) (hreply : out.reply = some code) (hcode : code ≠ .ok) :
    Report viewer [] t.room.engine t'.room.engine (sent viewer targets t op t' out) := by
  unfold sent
  rw [hsender, hreply]
  dsimp only
  rw [if_neg hcode, hroom]
  exact .kept (.of_plain (.refl _) (forall_response sender (plain_error _ code)))

/-- An accepted request. -/
theorem sent_accepted {sender : PlayerId} {op : TableOp} (hsender : op.sender? = some sender)
    (hreply : out.reply = some .ok) :
    sent viewer targets t op t' out = acceptedSent viewer targets t t' out.starts op := by
  unfold sent
  rw [hsender, hreply]
  dsimp only
  rw [if_pos rfl]

theorem report_joinRoom (h : Watching t t' viewer) (hstep : t.handleJoinRoom id = some (t', out)) :
    Report viewer [] t.room.engine t'.room.engine (sent viewer targets t (.joinRoom id) t' out) := by
  unfold Table.handleJoinRoom at hstep
  rcases hjoin : t.joinRoom id with _ | t₁ <;> rw [hjoin] at hstep <;> dsimp only at hstep
  · split_ifs at hstep
    all_goals
      cases hstep
      exact report_refused rfl rfl rfl (by simp)
  · cases hstep
    unfold Table.joinRoom at hjoin
    split_ifs at hjoin
    obtain ⟨r, hr, rfl⟩ := Option.map_eq_some_iff.1 hjoin
    have hengine : r.engine = t.room.engine := by
      unfold Room.join at hr
      split_ifs at hr
      obtain ⟨seat, -, rfl⟩ := Option.map_eq_some_iff.1 hr
      rfl
    rw [sent_accepted rfl rfl, hengine]
    refine .kept (.of_plain (.refl _) (List.forall_mem_append.2
      ⟨forall_response id ?_, forall_broadcast r ?_⟩))
    · refine ⟨rfl, fun hon => ?_⟩
      have hphase : r.phase = .playing := h.after.playing (hengine ▸ hon)
      simp [ServerMessage.endsRound, hphase]
    · exact List.forall_mem_cons.2 ⟨plain_other _ _,
        List.forall_mem_singleton.2 (hengine ▸ plain_roomState h.after)⟩

theorem report_leaveRoom (h : Watching t t' viewer) (hstep : t.handleLeaveRoom id = some (t', out)) :
    Report viewer [] t.room.engine t'.room.engine (sent viewer targets t (.leaveRoom id) t' out) := by
  unfold Table.handleLeaveRoom at hstep
  split_ifs at hstep
  · cases hstep
    exact report_refused rfl rfl rfl (by simp)
  · cases hstep
    have hengine : (Table.removePlayerFromRoom { t with room := t.room.leave id } id).room.engine =
        t.room.engine := by
      unfold Table.removePlayerFromRoom Room.leave
      split_ifs <;> rfl
    rw [sent_accepted rfl rfl, hengine]
    refine .kept (.of_plain (.refl _) (List.forall_mem_append.2
      ⟨forall_response id (plain_other _ _), ?_⟩))
    split_ifs
    · exact forall_broadcast _ (List.forall_mem_singleton.2 (hengine ▸ plain_roomState h.after))
    · exact List.forall_mem_nil _

/-- A request that only concerns the room. -/
theorem report_handleRoom {call : Option Room} {code : ErrorCode} {op : TableOp}
    (hsender : op.sender? = some id) (hcode : code ≠ .ok)
    (hstep : t.handleRoom id call code = some (t', out))
    (hcall : ∀ r, call = some r → Unchanged t.room.engine r.engine)
    (hsent : ∀ m ∈ acceptedSent viewer targets t t' out.starts op, m.Plain t'.room.engine) :
    Report viewer [] t.room.engine t'.room.engine (sent viewer targets t op t' out) := by
  unfold Table.handleRoom at hstep
  split_ifs at hstep
  · cases hstep
    exact report_refused rfl hsender rfl (by simp)
  · rcases call with _ | r
    · cases hstep
      exact report_refused rfl hsender rfl hcode
    · cases hstep
      rw [sent_accepted hsender rfl]
      exact .kept (.of_plain (hcall r rfl) hsent)

theorem plain_roomSent (h : RoomInv r) (type : String) :
    ∀ m ∈ roomSent viewer type r, m.Plain r.engine :=
  forall_broadcast r <| List.forall_mem_cons.2
    ⟨plain_other _ _, List.forall_mem_singleton.2 (plain_roomState h)⟩

theorem report_unready (h : Watching t t' viewer) (hstep : t.handleUnready id = some (t', out)) :
    Report viewer [] t.room.engine t'.room.engine (sent viewer targets t (.unready id) t' out) :=
  report_handleRoom rfl (by simp) hstep
    (fun r hr => (h.before.unready hr).2.1 ▸ .refl _) (plain_roomSent h.after _)

theorem report_changeSeat {seat : Int} (h : Watching t t' viewer)
    (hstep : t.handleChangeSeat id seat = some (t', out)) :
    Report viewer [] t.room.engine t'.room.engine
      (sent viewer targets t (.changeSeat id seat) t' out) := by
  refine report_handleRoom rfl (by simp) hstep (fun r hr => ?_) (plain_roomSent h.after _)
  unfold Room.changeSeat at hr
  split_ifs at hr
  obtain ⟨p, -, rfl⟩ := Option.map_eq_some_iff.1 hr
  exact .refl _

theorem report_setRoomOptions {enabled : Bool} (h : Watching t t' viewer)
    (hstep : t.handleSetRoomOptions id enabled = some (t', out)) :
    Report viewer [] t.room.engine t'.room.engine
      (sent viewer targets t (.setRoomOptions id enabled) t' out) := by
  refine report_handleRoom rfl (by split_ifs <;> simp) hstep (fun r hr => ?_)
    (List.forall_mem_append.2 ⟨forall_response id (plain_other _ _), forall_broadcast _ ?_⟩)
  · unfold Room.setEnableTribute at hr
    split_ifs at hr
    cases hr
    unfold updateConfig
    split_ifs
    · exact .refl _
    · exact ⟨rfl, rfl, rfl, fun _ => rfl, fun _ => rfl, rfl⟩
  · exact List.forall_mem_singleton.2 (plain_roomState h.after)

/-- Nobody is told of the end of a room that is still open. -/
theorem plain_dissolve (hopen : r.dismissVote.allAgreed = false) :
    ∀ m ∈ dissolveSent viewer r, m.Plain r.engine := by
  unfold dissolveSent
  rw [hopen]
  exact List.forall_mem_nil _

theorem report_requestDismiss (h : Watching t t' viewer)
    (hstep : t.handleRequestDismiss id = some (t', out)) :
    Report viewer [] t.room.engine t'.room.engine (sent viewer targets t (.requestDismiss id) t' out) := by
  unfold Table.handleRequestDismiss at hstep
  split_ifs at hstep
  · cases hstep
    exact report_refused rfl rfl rfl (by simp)
  rcases hrequest : t.room.requestDismiss id with _ | r <;> rw [hrequest] at hstep <;> dsimp only at hstep
  · cases hstep
    exact report_refused rfl rfl rfl (by simp)
  have hengine : r.engine = t.room.engine := by
    unfold Room.requestDismiss at hrequest
    split_ifs at hrequest
    obtain ⟨vote, -, rfl⟩ := Option.map_eq_some_iff.1 hrequest
    rfl
  cases hstep
  rw [sent_accepted rfl rfl]
  have hopen := h.isOpen
  split_ifs at hopen ⊢ with hagreed
  · cases hopen
  · refine .kept (.of_plain (by rw [hengine]; exact .refl _) (List.forall_mem_append.2
      ⟨List.forall_mem_append.2 ⟨forall_broadcast _ ?_, forall_response id (plain_other _ _)⟩,
        plain_dissolve (eq_false_of_ne_true hagreed)⟩))
    exact List.forall_mem_singleton.2 (plain_other _ _)

theorem report_voteDismiss {agree : Bool} (h : Watching t t' viewer)
    (hstep : t.handleVoteDismiss id agree = some (t', out)) :
    Report viewer [] t.room.engine t'.room.engine
      (sent viewer targets t (.voteDismiss id agree) t' out) := by
  unfold Table.handleVoteDismiss at hstep
  split_ifs at hstep
  · cases hstep
    exact report_refused rfl rfl rfl (by simp)
  · cases hstep
    exact report_refused rfl rfl rfl (by simp)
  rcases hvote : t.room.voteDismiss id agree with _ | r <;> rw [hvote] at hstep <;> dsimp only at hstep
  · cases hstep
    exact report_refused rfl rfl rfl (by simp)
  have hengine : r.engine = t.room.engine := by
    unfold Room.voteDismiss at hvote
    split_ifs at hvote
    obtain ⟨vote, -, rfl⟩ := Option.map_eq_some_iff.1 hvote
    rfl
  have hopen := h.isOpen
  split_ifs at hstep with hrejected hagreed
  · cases hstep
    rw [sent_accepted rfl rfl]
    refine .kept (.of_plain (by rw [← hengine]; exact .refl _) (List.forall_mem_append.2
      ⟨forall_response id (plain_other _ _), ?_⟩))
    exact forall_broadcast _ (List.forall_mem_singleton.2 (plain_other _ _))
  · cases hstep
    cases hopen
  · cases hstep
    rw [sent_accepted rfl rfl]
    refine .kept (.of_plain (by rw [hengine]; exact .refl _) (List.forall_mem_append.2
      ⟨forall_response id (plain_other _ _), ?_⟩))
    split_ifs
    · exact List.forall_mem_append.2 ⟨forall_broadcast _ (List.forall_mem_singleton.2 (plain_other _ _)),
        plain_dissolve (eq_false_of_ne_true hagreed)⟩
    · exact forall_broadcast _ (List.forall_mem_singleton.2 (plain_other _ _))

/-! ### The start of a round -/

theorem sendPlayerViews_eq (hinv : RoomInv r) (hon : Ongoing r.engine)
    (hmember : r.containsPlayer viewer = true) (hin : StillIn r.engine viewer) (targets : SpectateTargets)
    (message : PlayerView → ServerMessage) :
    ∃ view, OwnView r.engine viewer view ∧ sendPlayerViews viewer targets r message = [message view] := by
  obtain ⟨view, hview⟩ := playerView_isSome hinv.reached targets viewer
  refine ⟨view, ownView hon hin hview, ?_⟩
  rw [sendPlayerViews, broadcastToRoom, if_pos hmember, sendPlayerView, hview]
  rfl

/-- Everybody is dealt a new hand. -/
theorem renewed_roundStarted (pre post : List ServerMessage) (hinv : RoomInv r) (hon : Ongoing r.engine)
    (htribute : TributeInTime r.engine) (hmember : r.containsPlayer viewer = true)
    (hin : StillIn r.engine viewer) (targets : SpectateTargets) (hpost : ∀ m ∈ post, m.Plain r.engine) :
    Renewed viewer e r.engine (pre ++ (onRoundStartedSent viewer targets r ++ post)) := by
  obtain ⟨view, hview, hsent⟩ := sendPlayerViews_eq hinv hon hmember hin targets .cardsDealt
  rw [onRoundStartedSent, hsent, List.append_assoc, List.singleton_append]
  refine .of_last hon htribute hview (.inr (.inl rfl)) (List.forall_mem_append.2 ⟨?_, hpost⟩) (.inl rfl)
  split_ifs
  · exact List.forall_mem_nil _
  · exact forall_broadcast r (List.forall_mem_singleton.2 (plain_other _ _))
  · exact List.forall_mem_nil _

theorem unchanged_setPlayerReady (e : GameEngine) (id : PlayerId) (ready : Bool) :
    Unchanged e (e.setPlayerReady id ready) := by
  obtain ⟨hhands, hcount, hphase, -⟩ := setPlayerReady_frame e id ready
  have hplayer (i : Nat) : ((e.setPlayerReady id ready).state.players i).id = (e.state.players i).id ∧
      ((e.setPlayerReady id ready).state.players i).hasFinished = (e.state.players i).hasFinished := by
    unfold setPlayerReady
    rcases e.state.getPlayerById id with _ | seat
    · exact ⟨rfl, rfl⟩
    · by_cases hi : i = seat
      · subst hi
        simp
      · simp [hi]
  refine ⟨hphase, ?_, hcount, fun i => (hplayer i).1, fun i => (hplayer i).2, hhands⟩
  unfold setPlayerReady
  split <;> rfl

theorem unchanged_enterSettlement (r : Room) : Unchanged r.engine r.enterSettlement.engine :=
  List.foldlRecOn r.players (fun (e : GameEngine) p => e.setPlayerReady p.id p.isBot)
    (motive := Unchanged r.engine) (.refl r.engine)
    fun e he p _ => he.trans (unchanged_setPlayerReady e p.id p.isBot)

@[simp] theorem containsPlayer_enterSettlement (r : Room) (id : PlayerId) :
    r.enterSettlement.containsPlayer id = r.containsPlayer id := by
  simp [containsPlayer, enterSettlement, Function.comp_def]

/-- A person is not ready when a round has been settled. -/
theorem not_allReady_enterSettlement (hbots : ∀ p ∈ r.players, p.isBot = isBotPlayer p.id)
    (hperson : isBotPlayer viewer = false) (hmember : r.containsPlayer viewer = true) :
    r.enterSettlement.allReady = false := by
  obtain ⟨p, hp, hid⟩ := List.any_eq_true.1 hmember
  have hbot : p.isBot = false := (hbots p hp).trans (eq_of_beq hid ▸ hperson)
  have hready : ∃ q ∈ r.enterSettlement.players, q.isReady = false :=
    ⟨_, List.mem_map_of_mem hp, hbot⟩
  simpa [Room.allReady] using fun _ => hready

theorem unchanged_ready_getD (r : Room) (id : PlayerId) :
    Unchanged r.engine ((r.ready id).getD r).engine := by
  unfold Room.ready
  split_ifs
  · exact .refl _
  rcases r.player? id with _ | p
  · exact .refl _
  · dsimp only [Option.map_some, Option.getD_some]
    split_ifs
    · exact .refl _
    · exact unchanged_setPlayerReady ..

theorem accept_reply {answer : Option (Table × List RoundStart)}
    (h : Table.accept answer = some (t', out)) : out.reply = some .ok := by
  obtain ⟨⟨t₁, starts⟩, -, heq⟩ := Option.map_eq_some_iff.1 h
  cases heq
  rfl

theorem report_ready {σ : Shuffle} (h : Watching t t' viewer)
    (hstep : t.handleReady id σ = some (t', out)) :
    Report viewer [] t.room.engine t'.room.engine (sent viewer targets t (.ready id σ) t' out) := by
  unfold Table.handleReady at hstep
  by_cases hfinds : (!t.finds id) = true
  · rw [if_pos hfinds] at hstep
    cases hstep
    exact report_refused rfl rfl rfl (by simp)
  rw [if_neg hfinds] at hstep
  have hready : RoomInv ((t.room.ready id).getD t.room) := (h.before.ready_getD id).1
  rw [sent_accepted rfl (accept_reply hstep)]
  rcases Table.tryStartNextRound_cases (by exact hready) (Table.accept_some hstep) with
    ⟨rfl, hstarts, -⟩ | ⟨hstart, hstarts⟩
  · rw [hstarts]
    refine .kept (.of_plain (unchanged_ready_getD t.room id) (List.forall_mem_append.2
      ⟨forall_broadcast _ (List.forall_mem_cons.2 ⟨plain_other _ _, ?_⟩), ?_⟩))
    · exact List.forall_mem_singleton.2 (plain_roomState hready)
    · exact List.forall_mem_nil _
  · rw [hstarts]
    obtain ⟨-, -, -, e, -, hphase, hroom⟩ := roomInv_startNextRound (by exact hready) hstart
    have hon : Ongoing t'.room.engine := by
      rw [hroom]
      exact hphase.imp_right .inl
    have hrenewed := renewed_roundStarted (e := t.room.engine)
      (broadcastToRoom viewer t'.room
        [.other "player_ready", roomStateMessage ((t.room.ready id).getD t.room)]) []
      h.after hon h.tribute h.member h.stillIn Room.clearSpectateTargets
      (List.forall_mem_nil _)
    rw [List.append_nil] at hrenewed
    exact .renewed hrenewed

theorem report_startGame {σ : Shuffle} (h : Watching t t' viewer)
    (hstep : t.handleStartGame id σ = some (t', out)) :
    Report viewer [] t.room.engine t'.room.engine (sent viewer targets t (.startGame id σ) t' out) := by
  unfold Table.handleStartGame at hstep
  by_cases hfinds : (!t.finds id) = true
  · rw [if_pos hfinds] at hstep
    cases hstep
    exact report_refused rfl rfl rfl (by simp)
  rw [if_neg hfinds] at hstep
  split_ifs at hstep with howner
  · cases hstep
    exact report_refused rfl rfl rfl (by simp)
  rcases h.before.startGame_spec σ with ⟨-, heq⟩ | ⟨-, e, heq, -, hphase, -⟩
  · rw [heq] at hstep
    cases hstep
    exact report_refused rfl rfl rfl (by simp)
  · rw [heq] at hstep
    cases hstep
    rw [sent_accepted rfl rfl]
    generalize hstarted : Table.onRoundStarted
      { t with room := { t.room with engine := e, phase := .playing } } = t' at h ⊢
    have hon : Ongoing t'.room.engine := by
      rw [← hstarted, Table.onRoundStarted_room]
      exact .inl hphase
    have hrenewed := renewed_roundStarted (e := t.room.engine)
      (broadcastToRoom viewer t'.room [.gameStarted]) (sendResponse viewer id .gameStarted)
      h.after hon h.tribute h.member h.stillIn Room.clearSpectateTargets
      (forall_response id ⟨rfl, fun _ => rfl⟩)
    rw [← List.append_assoc] at hrenewed
    exact .renewed hrenewed

end RoomRequests

end Guandan
