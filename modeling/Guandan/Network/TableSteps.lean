import Guandan.Network.Table
import Guandan.Room.Rounds

/-!
# What a step can make of a room

`Handled` lists all that a request, a timer or a task can do to a room, and the rounds it starts
with that (`table_step`); every case keeps the invariant of the room (`Handled.roomInv`). No later
proof unfolds a handler.
-/

namespace Guandan

open Room

/-! ### After a play -/

/-- What follows a play or pass of a match: the round goes on, or the match is won, or the room
settles the round, and the next one starts at once if everybody is ready. -/
inductive Played (r : Room) : Room → List RoundStart → Prop
  | goesOn {e : GameEngine} : Course r.engine e → e.state.phase = .playing →
      Played r { r with engine := e } []
  | won {e : GameEngine} : Course r.engine e → e.state.phase = .finished →
      Played r (finishMatch { r with engine := e }) []
  | settled {e : GameEngine} : Course r.engine e → e.state.phase = .finished →
      Played r (enterSettlement { r with engine := e }) []
  | next {e : GameEngine} {σ : Shuffle} {r' : Room} : Course r.engine e →
      e.state.phase = .finished →
      (enterSettlement { r with engine := e }).startNextRound σ = some (r', true) →
      Played r r' [.startNextRound .settlement]

/-- The requests and tasks with which cards are played. -/
def TableOp.isPlay : TableOp → Prop
  | .playCards .. | .pass .. | .runTask _ => True
  | _ => False

/-- The requests and tasks with which tributes are given and returned. -/
def TableOp.isTribute : TableOp → Prop
  | .submitTribute .. | .submitReturn .. | .runTask _ => True
  | _ => False

/-- The steps that can leave the room as it is for other reasons than that their player is in no
room. -/
def TableOp.mayStay : TableOp → Prop
  | .leaveRoom _ | .ready .. | .startGame .. => False
  | _ => True

/-- What a step can make of the room, and the rounds it starts. -/
inductive Handled (t : Table) : TableOp → Room → List RoundStart → Prop
  | stays {op : TableOp} : op.mayStay → Handled t op t.room []
  | notFound {op : TableOp} {id : PlayerId} : op.sender? = some id → t.finds id = false →
      Handled t op t.room []
  | joined {id : PlayerId} {r : Room} : t.room.join id = some r → Handled t (.joinRoom id) r []
  | left {id : PlayerId} : t.finds id = true → Handled t (.leaveRoom id) (t.room.leave id) []
  | readied {id : PlayerId} {σ : Shuffle} {r : Room} : r = (t.room.ready id).getD t.room →
      r.phase ≠ .settlement ∨ r.allReady = false → Handled t (.ready id σ) r []
  | nextRound {id : PlayerId} {σ : Shuffle} {r : Room} : t.finds id = true →
      ((t.room.ready id).getD t.room).startNextRound σ = some (r, true) →
      Handled t (.ready id σ) r [.startNextRound .settlement]
  | unreadied {id : PlayerId} {r : Room} : t.room.unready id = some r → Handled t (.unready id) r []
  | moved {id : PlayerId} {seat : Int} {r : Room} : t.room.changeSeat id seat = some r →
      Handled t (.changeSeat id seat) r []
  | optioned {id : PlayerId} {enabled : Bool} {r : Room} :
      t.room.setEnableTribute id enabled = some r → Handled t (.setRoomOptions id enabled) r []
  | voted {op : TableOp} (vote : DismissVote) : op.mayStay →
      Handled t op { t.room with dismissVote := vote } []
  | notStarted {id : PlayerId} {σ : Shuffle} : t.room.ownerId ≠ id ∨ t.room.allReady = false →
      Handled t (.startGame id σ) t.room []
  | started {id : PlayerId} {σ : Shuffle} {r : Room} : t.finds id = true → t.room.ownerId = id →
      t.room.startGame σ = some (r, true) → Handled t (.startGame id σ) r [.startGame t.room.phase]
  | played {op : TableOp} {r : Room} {starts : List RoundStart} : op.isPlay →
      t.room.phase = .playing → Played t.room r starts → Handled t op r starts
  | tributed {op : TableOp} {e : GameEngine} : op.isTribute → t.room.phase = .playing →
      Course t.room.engine e → Ongoing e → Handled t op { t.room with engine := e } []
  | filled : t.room.phase = .waiting → t.room.players.all (!·.isBot) = true →
      Handled t .fillBots t.room.fillBots []

/-! ### The room invariant -/

section Invariant

variable {t : Table} {r r' : Room} {op : TableOp} {starts : List RoundStart} {e : GameEngine}
  {σ : Shuffle}

theorem Room.RoomInv.playing (h : RoomInv r) (hon : Ongoing r.engine) : r.phase = .playing := by
  have hmatch := h.phase
  unfold Ongoing at hon
  cases hr : r.phase with
  | playing => rfl
  | created => rw [hr] at hmatch; exact hmatch.elim
  | waiting | settlement | finished =>
    rw [hr] at hmatch
    simp [show r.engine.state.phase = _ from hmatch] at hon

theorem Room.RoomInv.ongoing (h : RoomInv r) (hphase : r.phase = .playing) : Ongoing r.engine := by
  have hmatch := h.phase
  rw [hphase] at hmatch
  exact hmatch

/-- The match goes on with this engine. -/
theorem Room.RoomInv.goOn (h : RoomInv r) (hphase : r.phase = .playing)
    (hcourse : Course r.engine e) (hon : Ongoing e) : RoomInv { r with engine := e } := by
  have hmatches : r.phase.Matches e.state.phase := by
    rw [hphase]
    exact hon
  exact h.course hcourse hmatches

/-- The round is over, and the room settles it. -/
theorem Room.RoomInv.settle (h : RoomInv r) (hcourse : Course r.engine e)
    (hphase : e.state.phase = .finished) :
    RoomInv (Room.enterSettlement { r with engine := e }) ∧
      Course r.engine (Room.enterSettlement { r with engine := e }).engine := by
  have hover : RoomInv { r with engine := e, phase := .finished } := h.course hcourse hphase
  obtain ⟨hinv, hready⟩ := hover.enterSettlement hphase
  exact ⟨hinv, hcourse.trans hready⟩

theorem roomInv_startNextRound (h : RoomInv r) (hstart : r.startNextRound σ = some (r', true)) :
    r.phase = .settlement ∧ r.allReady = true ∧ RoomInv r' ∧ ∃ e, Course r.engine e ∧
      (e.state.phase = .playing ∨ e.state.phase = .tribute) ∧
      r' = { r with engine := e, phase := .playing } := by
  rcases h.startNextRound_spec σ with ⟨-, hno⟩ | ⟨hphase, hready, e, heq, hcourse, hon, hinv⟩
  · rw [hno] at hstart
    cases hstart
  · rw [heq] at hstart
    cases hstart
    exact ⟨hphase, hready, hinv, e, hcourse, hon, rfl⟩

theorem roomInv_startGame (h : RoomInv r) (hstart : r.startGame σ = some (r', true)) :
    r.allReady = true ∧ RoomInv r' ∧ ∃ e, r' = { r with engine := e, phase := .playing } ∧
      e.state.phase = .playing ∧ ∀ p ∈ r.players, (e.state.players p.seatIndex).id = p.id := by
  rcases h.startGame_spec σ with ⟨-, hno⟩ | ⟨hready, e, heq, hinv, hphase, hids⟩
  · rw [hno] at hstart
    cases hstart
  · rw [heq] at hstart
    cases hstart
    exact ⟨hready, hinv, e, rfl, hphase, hids⟩

theorem Room.RoomInv.ready_getD (h : RoomInv r) (id : PlayerId) :
    RoomInv ((r.ready id).getD r) ∧ Course r.engine ((r.ready id).getD r).engine ∧
      ((r.ready id).getD r).phase = r.phase := by
  rcases hready : r.ready id with _ | r₁
  · exact ⟨h, .refl _, rfl⟩
  · exact h.ready hready

theorem Played.roomInv (hplayed : Played r r' starts) (h : RoomInv r) (hphase : r.phase = .playing) :
    RoomInv r' := by
  cases hplayed with
  | goesOn hcourse hplaying => exact h.goOn hphase hcourse (.inl hplaying)
  | won hcourse hover =>
    have hinv : RoomInv { r with engine := _, phase := .finished } := h.course hcourse hover
    exact hinv
  | settled hcourse hover => exact (h.settle hcourse hover).1
  | next hcourse hover hstart => exact (roomInv_startNextRound (h.settle hcourse hover).1 hstart).2.2.1

theorem Handled.roomInv (hhandled : Handled t op r starts) (h : RoomInv t.room)
    (hok : TableCall t op) : RoomInv r := by
  cases hhandled with
  | stays _ => exact h
  | notFound _ _ => exact h
  | joined hjoin => exact h.join (fun hid => hok.1 (congrArg some hid)) hjoin
  | left _ => exact h.leave _
  | readied hready _ => exact hready ▸ (h.ready_getD _).1
  | nextRound _ hstart => exact (roomInv_startNextRound (h.ready_getD _).1 hstart).2.2.1
  | unreadied hunready => exact (h.unready hunready).1
  | moved hmove => exact (h.changeSeat hmove).1
  | optioned hset => exact (h.setEnableTribute hset).1
  | voted vote _ => exact ⟨⟨h.members.ids, h.members.seats, h.members.seat_lt, h.members.id_ne,
      h.members.bots⟩, h.config, h.rules, h.reached, h.phase⟩
  | notStarted _ => exact h
  | started _ _ hstart => exact (roomInv_startGame h hstart).2.1
  | played _ hphase hplayed => exact hplayed.roomInv h hphase
  | tributed _ hphase hcourse hon => exact h.goOn hphase hcourse hon
  | filled _ hpeople => exact h.fillBots hpeople

end Invariant

/-! ### Timers leave the room alone -/

namespace Table

variable {t t' : Table} {r : Room} {op : TableOp} {out : TableOut} {starts : List RoundStart}
  {e : GameEngine} {σ : Shuffle} {result : PlayResult} {id : PlayerId}

@[simp] theorem scheduleTurnTimer_room (t : Table) : t.scheduleTurnTimer.room = t.room := by
  unfold scheduleTurnTimer
  dsimp only
  split_ifs <;> rfl

@[simp] theorem scheduleTributeTimer_room (t : Table) : t.scheduleTributeTimer.room = t.room := rfl

@[simp] theorem onRoundStarted_room (t : Table) : t.onRoundStarted.room = t.room := by
  unfold onRoundStarted
  split_ifs
  · exact scheduleTributeTimer_room t
  · exact scheduleTurnTimer_room t
  · rfl

/-! ### The course of a round -/

theorem tryStartNextRound_cases (h : RoomInv t.room)
    (htry : t.tryStartNextRound σ = some (t', starts)) :
    (t' = t ∧ starts = [] ∧ (t.room.phase ≠ .settlement ∨ t.room.allReady = false)) ∨
      (t.room.startNextRound σ = some (t'.room, true) ∧
        starts = [.startNextRound .settlement]) := by
  unfold tryStartNextRound at htry
  split_ifs at htry with hno
  · cases htry
    exact .inl ⟨rfl, rfl, hno⟩
  · push Not at hno
    rcases h.startNextRound_spec σ with ⟨hnot, -⟩ | ⟨hphase, -, e, heq, -, -⟩
    · rcases hnot with hnot | hnot
      · exact absurd hno.1 hnot
      · exact absurd hnot hno.2
    · rw [heq] at htry
      cases htry
      refine .inr ⟨?_, by rw [hphase]⟩
      rw [onRoundStarted_room]
      exact heq

/-- The play that made this engine of the room's has been accepted. -/
theorem afterPlay_played (h : RoomInv r) (hroom : t.room = { r with engine := e })
    (hplay : Advances r.engine e result) (hafter : t.afterPlay result σ = some (t', starts)) :
    Played r t'.room starts := by
  rcases hplay.outcome with ⟨hgo, hphase⟩ | ⟨hover, hphase⟩
  · rw [afterPlay, hgo] at hafter
    cases hafter
    rw [scheduleTurnTimer_room, hroom]
    exact .goesOn hplay.course hphase
  · rw [afterPlay, hover, if_pos rfl] at hafter
    unfold onGameOver at hafter
    split_ifs at hafter
    · cases hafter
      show Played r t.room.finishMatch []
      rw [hroom]
      exact .won hplay.course hphase
    · have hsettled : RoomInv t.room.enterSettlement := by
        rw [hroom]
        exact (h.settle hplay.course hphase).1
      rcases tryStartNextRound_cases (by exact hsettled) hafter with
        ⟨rfl, rfl, -⟩ | ⟨hstart, rfl⟩
      · show Played r t.room.enterSettlement []
        rw [hroom]
        exact .settled hplay.course hphase
      · refine .next hplay.course hphase (σ := σ) ?_
        rw [← hroom]
        exact hstart

/-! ### Bots -/

/-- A turn, carried out or not. -/
def TurnTaken (r r' : Room) (starts : List RoundStart) : Prop :=
  r' = r ∧ starts = [] ∨ r.phase = .playing ∧ Played r r' starts

theorem turnTaken_of_afterPlay (h : RoomInv r) (hplay : Advances r.engine e result)
    (hroom : t.room = { r with engine := e }) (hafter : t.afterPlay result σ = some (t', starts)) :
    TurnTaken r t'.room starts :=
  .inr ⟨h.playing (.inl hplay.playing), afterPlay_played h hroom hplay hafter⟩

theorem botPass_turn (h : RoomInv t.room) (hpass : t.botPass id σ = some (t', starts)) :
    TurnTaken t.room t'.room starts := by
  simp only [botPass, Option.bind_eq_bind, Option.bind_eq_some_iff, Prod.exists] at hpass
  obtain ⟨e, result, hpass, hafter⟩ := hpass
  split_ifs at hafter with hcode
  · exact turnTaken_of_afterPlay h (advances_pass hpass hcode) rfl hafter
  · cases hafter
    exact .inl ⟨rfl, rfl⟩

theorem executeBotTurn_turn (h : RoomInv t.room)
    (hturn : t.executeBotTurn id σ = some (t', starts)) : TurnTaken t.room t'.room starts := by
  unfold executeBotTurn at hturn
  split_ifs at hturn
  · cases hturn
    exact .inl ⟨rfl, rfl⟩
  · cases hturn
    exact .inl ⟨rfl, rfl⟩
  · cases hturn
    exact .inl ⟨rfl, rfl⟩
  have hpass : ∀ {t'}, t.cancelTurnTimer.botPass id σ = some (t', starts) →
      TurnTaken t.room t'.room starts := fun hpass => botPass_turn (t := t.cancelTurnTimer) h hpass
  obtain ⟨choice, -, hturn⟩ := Option.bind_eq_some_iff.1 hturn
  rcases choice with _ | play
  · exact hpass hturn
  · obtain ⟨⟨e, result⟩, hplay, hturn⟩ := Option.bind_eq_some_iff.1 hturn
    dsimp only at hturn
    split_ifs at hturn with hcode
    · exact turnTaken_of_afterPlay h (advances_playCards hplay hcode) rfl hturn
    · exact hpass hturn

/-- What every submission keeps, the loops of the bots keep; it may say whether one has been accepted. -/
theorem botRound_acted {choose : GameEngine → PlayerId → Option (Option CardId)}
    {submit : GameEngine → PlayerId → CardId → Option (GameEngine × PlayResult)}
    {pending : GameEngine → List Nat} {P : Bool → GameEngine → Prop} {b : BotRound}
    (hsubmit : ∀ acted e id cardId e' result, P acted e → submit e id cardId = some (e', result) →
      P (acted || result.code == .ok) e')
    (he : P false e) (hround : botRound choose submit pending e = some b) : P b.acted b.engine := by
  unfold botRound at hround
  have hall : ∀ (is : List Nat) (b₀ : BotRound), P b₀.acted b₀.engine →
      is.foldlM (botRoundStep choose submit pending) b₀ = some b → P b.acted b.engine := by
    intro is
    induction is with
    | nil =>
      intro b₀ h₀ hfold
      cases hfold
      exact h₀
    | cons i is ih =>
      intro b₀ h₀ hfold
      rw [List.foldlM_cons] at hfold
      obtain ⟨b₁, hstep, hfold⟩ := Option.bind_eq_some_iff.1 hfold
      refine ih b₁ ?_ hfold
      unfold botRoundStep at hstep
      dsimp only at hstep
      split_ifs at hstep
      · cases hstep
        exact h₀
      · cases hstep
        exact h₀
      · obtain ⟨choice, -, hstep⟩ := Option.bind_eq_some_iff.1 hstep
        rcases choice with _ | cardId
        · cases hstep
          exact h₀
        · obtain ⟨⟨e', result⟩, hsub, hstep⟩ := Option.bind_eq_some_iff.1 hstep
          cases hstep
          exact hsubmit _ _ _ _ _ _ h₀ hsub
  exact hall _ _ he hround

theorem botRound_invariant {choose : GameEngine → PlayerId → Option (Option CardId)}
    {submit : GameEngine → PlayerId → CardId → Option (GameEngine × PlayResult)}
    {pending : GameEngine → List Nat} {P : GameEngine → Prop} {b : BotRound}
    (hsubmit : ∀ e id cardId e' result, P e → submit e id cardId = some (e', result) → P e')
    (he : P e) (hround : botRound choose submit pending e = some b) : P b.engine :=
  botRound_acted (P := fun _ => P) (fun _ => hsubmit) he hround

theorem ongoing_of_pending (hpending : e.hasPendingTributeAction = true) : Ongoing e :=
  .inr (GameEngine.phase_of_pending hpending)

theorem botTributes_course {b : BotRound} (hon : Ongoing e) (hround : botTributes e = some b) :
    Course e b.engine ∧ Ongoing b.engine :=
  botRound_invariant (P := fun x => Course e x ∧ Ongoing x)
    (fun _ _ _ _ _ hx hsub => ⟨hx.1.trans (.submitTribute hsub), ongoing_submitTribute hsub hx.2⟩)
    ⟨.refl e, hon⟩ hround

theorem botReturns_course {b : BotRound} (hon : Ongoing e) (hround : botReturns e = some b) :
    Course e b.engine ∧ Ongoing b.engine :=
  botRound_invariant (P := fun x => Course e x ∧ Ongoing x)
    (fun _ _ _ _ _ hx hsub => ⟨hx.1.trans (.submitReturn hsub), ongoing_submitReturn hsub hx.2⟩)
    ⟨.refl e, hon⟩ hround

@[simp] theorem continueTribute_room (t : Table) : t.continueTribute.room = t.room := by
  unfold continueTribute
  split_ifs
  · exact scheduleTributeTimer_room t
  · exact scheduleTurnTimer_room t
  · rfl

theorem executeBotTributeActions_cases (hact : t.executeBotTributeActions = some t') :
    (t.room.engine.hasPendingTributeAction = false ∧ t' = t) ∨
    (t.room.engine.hasPendingTributeAction = true ∧ ∃ b,
      (t.room.engine.state.phase = .tribute ∧ botTributes t.room.engine = some b ∨
        t.room.engine.state.phase = .returnTribute ∧ botReturns t.room.engine = some b) ∧
      t' = (t.cancelTributeTimer.setEngine b.engine).continueTribute) := by
  unfold executeBotTributeActions at hact
  by_cases hpending : t.room.engine.hasPendingTributeAction = true
  swap
  · rw [if_pos (by simpa using hpending)] at hact
    cases hact
    exact .inl ⟨by simpa using hpending, rfl⟩
  rw [if_neg (by simpa using hpending)] at hact
  have hsame : t.cancelTributeTimer.room.engine = t.room.engine := rfl
  dsimp only at hact
  rw [hsame] at hact
  rcases (ongoing_of_pending hpending) with hp | hp | hp
  · simp [GameEngine.hasPendingTributeAction, hp] at hpending
  all_goals
    rw [hp] at hact
    obtain ⟨b, hround, hact⟩ := Option.bind_eq_some_iff.1 hact
    cases hact
  · exact .inr ⟨hpending, b, .inl ⟨hp, hround⟩, rfl⟩
  · exact .inr ⟨hpending, b, .inr ⟨hp, hround⟩, rfl⟩

/-- A step of the tribute phase, carried out or not. -/
def TributeTaken (r r' : Room) : Prop :=
  r' = r ∨ Ongoing r.engine ∧ ∃ e, r' = { r with engine := e } ∧ Course r.engine e ∧ Ongoing e

theorem executeBotTributeActions_taken (hact : t.executeBotTributeActions = some t') :
    TributeTaken t.room t'.room := by
  rcases executeBotTributeActions_cases hact with ⟨-, rfl⟩ | ⟨hpending, b, hround, rfl⟩
  · exact .inl rfl
  · have hon := ongoing_of_pending hpending
    refine .inr ⟨hon, b.engine, continueTribute_room _, ?_⟩
    rcases hround with ⟨-, hround⟩ | ⟨-, hround⟩
    · exact botTributes_course hon hround
    · exact botReturns_course hon hround

/-! ### Requests and tasks -/

theorem accept_some {answer : Option (Table × List RoundStart)}
    (h : accept answer = some (t', out)) : answer = some (t', out.starts) := by
  obtain ⟨⟨t₁, starts⟩, rfl, heq⟩ := Option.map_eq_some_iff.1 h
  cases heq
  rfl

theorem done_some {answer : Option (Table × List RoundStart)}
    (h : done answer = some (t', out)) : answer = some (t', out.starts) := by
  obtain ⟨⟨t₁, starts⟩, rfl, heq⟩ := Option.map_eq_some_iff.1 h
  cases heq
  rfl

theorem refuse_handled {code : ErrorCode} (hop : op.mayStay) (h : t.refuse code = some (t', out)) :
    Handled t op t'.room out.starts := by
  cases h
  exact .stays hop

/-- A request of a player who is in no room. -/
theorem notFound_handled {code : ErrorCode} (hsender : op.sender? = some id)
    (hfinds : (!t.finds id) = true) (h : t.refuse code = some (t', out)) :
    Handled t op t'.room out.starts := by
  cases h
  exact .notFound hsender (by simpa using hfinds)

theorem handled_of_turn (hplay : op.isPlay) (h : TurnTaken t.room r starts) :
    Handled t op r starts := by
  rcases h with ⟨rfl, rfl⟩ | ⟨hphase, hplayed⟩
  · exact .stays (by cases op <;> trivial)
  · exact .played hplay hphase hplayed

theorem handled_of_tribute (h : RoomInv t.room) (htribute : op.isTribute)
    (htaken : TributeTaken t.room r) : Handled t op r [] := by
  rcases htaken with rfl | ⟨hon, e, rfl, hcourse, hon'⟩
  · exact .stays (by cases op <;> trivial)
  · exact .tributed htribute (h.playing hon) hcourse hon'

theorem handleJoinRoom_handled (h : t.handleJoinRoom id = some (t', out)) :
    Handled t (.joinRoom id) t'.room out.starts := by
  unfold handleJoinRoom at h
  rcases hjoin : t.joinRoom id with _ | t₁ <;> rw [hjoin] at h <;> dsimp only at h
  · split_ifs at h
    all_goals exact refuse_handled trivial h
  · cases h
    unfold joinRoom at hjoin
    split_ifs at hjoin
    obtain ⟨r, hr, rfl⟩ := Option.map_eq_some_iff.1 hjoin
    exact .joined hr

theorem handleLeaveRoom_handled (h : t.handleLeaveRoom id = some (t', out)) :
    Handled t (.leaveRoom id) t'.room out.starts := by
  unfold handleLeaveRoom at h
  by_cases hfinds : (!t.finds id) = true
  · rw [if_pos hfinds] at h
    exact notFound_handled rfl hfinds h
  · rw [if_neg hfinds] at h
    cases h
    have hroom : (removePlayerFromRoom { t with room := t.room.leave id } id).room =
        t.room.leave id := by
      unfold removePlayerFromRoom
      split_ifs <;> rfl
    rw [hroom]
    exact .left (by simpa using hfinds)

theorem handleReady_handled (hinv : RoomInv t.room) (h : t.handleReady id σ = some (t', out)) :
    Handled t (.ready id σ) t'.room out.starts := by
  unfold handleReady at h
  by_cases hfinds : (!t.finds id) = true
  · rw [if_pos hfinds] at h
    exact notFound_handled rfl hfinds h
  · rw [if_neg hfinds] at h
    have hready : RoomInv ((t.room.ready id).getD t.room) := (hinv.ready_getD id).1
    rcases tryStartNextRound_cases (by exact hready) (accept_some h) with
      ⟨rfl, hstarts, hno⟩ | ⟨hstart, hstarts⟩
    · rw [hstarts]
      exact .readied rfl hno
    · rw [hstarts]
      exact .nextRound (by simpa using hfinds) hstart

theorem handleRoom_handled {call : Option Room} {code : ErrorCode} (hsender : op.sender? = some id)
    (hop : op.mayStay) (hcall : ∀ r, call = some r → Handled t op r [])
    (h : t.handleRoom id call code = some (t', out)) : Handled t op t'.room out.starts := by
  unfold handleRoom at h
  split_ifs at h with hfinds
  · exact notFound_handled hsender hfinds h
  · rcases call with _ | r
    · exact refuse_handled hop h
    · cases h
      exact hcall r rfl

theorem handleStartGame_handled (hinv : RoomInv t.room)
    (h : t.handleStartGame id σ = some (t', out)) :
    Handled t (.startGame id σ) t'.room out.starts := by
  unfold handleStartGame at h
  by_cases hfinds : (!t.finds id) = true
  · rw [if_pos hfinds] at h
    exact notFound_handled rfl hfinds h
  rw [if_neg hfinds] at h
  split_ifs at h with howner
  · cases h
    exact .notStarted (.inl howner)
  rcases hinv.startGame_spec σ with ⟨hready, heq⟩ | ⟨-, e, heq, -⟩
  · rw [heq] at h
    cases h
    exact .notStarted (.inr hready)
  · rw [heq] at h
    cases h
    rw [onRoundStarted_room]
    exact .started (by simpa using hfinds) (not_not.1 howner) heq

theorem validateTurn_error {turnId : Nat} {code : ErrorCode}
    (h : t.validateTurn id turnId = some code) : code ≠ .ok := by
  unfold validateTurn at h
  dsimp only at h
  split_ifs at h <;> cases h <;> simp

theorem handlePlayCards_cases {turnId : Nat} {cards : List CardId}
    (h : t.handlePlayCards id turnId cards σ = some (t', out)) :
    (t' = t ∧ ∃ code, code ≠ .ok ∧ out = { reply := some code } ∧
      (t.finds id = false ∨ (t.validateTurn id turnId).isSome ∨ cards = [] ∨
        ∃ e result, t.room.engine.playCards id cards = some (e, result) ∧ result.code ≠ .ok)) ∨
    (t.finds id = true ∧ t.validateTurn id turnId = none ∧ cards ≠ [] ∧ out.reply = some .ok ∧
      ∃ e result, t.room.engine.playCards id cards = some (e, result) ∧ result.code = .ok ∧
        (t.setEngine e).cancelTurnTimer.afterPlay result σ = some (t', out.starts)) := by
  unfold handlePlayCards at h
  by_cases hfinds : t.finds id = true
  swap
  · rw [Bool.not_eq_true] at hfinds
    rw [hfinds] at h
    cases h
    exact .inl ⟨rfl, _, by simp, rfl, .inl hfinds⟩
  rw [hfinds] at h
  rcases hturn : t.validateTurn id turnId with _ | code <;> rw [hturn] at h
  swap
  · cases h
    exact .inl ⟨rfl, code, validateTurn_error hturn, rfl, .inr (.inl rfl)⟩
  simp only [Bool.not_true, Bool.false_eq_true, if_false] at h
  split_ifs at h with hcards
  · cases h
    exact .inl ⟨rfl, _, by simp, rfl, .inr (.inr (.inl (by simpa using hcards)))⟩
  obtain ⟨⟨e, result⟩, hplay, h⟩ := Option.bind_eq_some_iff.1 h
  dsimp only at h
  split_ifs at h with hcode
  · cases h
    exact .inl ⟨rfl, _, hcode, rfl, .inr (.inr (.inr ⟨e, result, hplay, hcode⟩))⟩
  · obtain ⟨answer, hafter, heq⟩ := Option.map_eq_some_iff.1 h
    cases heq
    exact .inr ⟨hfinds, rfl, by simpa using hcards, rfl, e, result, hplay, not_not.1 hcode, hafter⟩

theorem handlePass_cases {turnId : Nat} (h : t.handlePass id turnId = some (t', out)) :
    (t' = t ∧ ∃ code, code ≠ .ok ∧ out = { reply := some code } ∧
      (t.finds id = false ∨ (t.validateTurn id turnId).isSome ∨
        ∃ e result, t.room.engine.pass id = some (e, result) ∧ result.code ≠ .ok)) ∨
    (t.finds id = true ∧ t.validateTurn id turnId = none ∧ out = { reply := some .ok } ∧
      ∃ e result, t.room.engine.pass id = some (e, result) ∧ result.code = .ok ∧
        t' = (t.setEngine e).scheduleTurnTimer) := by
  unfold handlePass at h
  by_cases hfinds : t.finds id = true
  swap
  · rw [Bool.not_eq_true] at hfinds
    rw [hfinds] at h
    cases h
    exact .inl ⟨rfl, _, by simp, rfl, .inl hfinds⟩
  rw [hfinds] at h
  rcases hturn : t.validateTurn id turnId with _ | code <;> rw [hturn] at h
  swap
  · cases h
    exact .inl ⟨rfl, code, validateTurn_error hturn, rfl, .inr (.inl rfl)⟩
  simp only [Bool.not_true, Bool.false_eq_true, if_false] at h
  obtain ⟨⟨e, result⟩, hpass, h⟩ := Option.bind_eq_some_iff.1 h
  dsimp only at h
  split_ifs at h with hcode
  · cases h
    exact .inl ⟨rfl, _, hcode, rfl, .inr (.inr ⟨e, result, hpass, hcode⟩)⟩
  · cases h
    exact .inr ⟨hfinds, rfl, rfl, e, result, hpass, not_not.1 hcode, rfl⟩

theorem handlePlayCards_handled {turnId : Nat} {cards : List CardId} (hinv : RoomInv t.room)
    (h : t.handlePlayCards id turnId cards σ = some (t', out)) :
    Handled t (.playCards id turnId cards σ) t'.room out.starts := by
  rcases handlePlayCards_cases h with
    ⟨rfl, code, -, rfl, -⟩ | ⟨-, -, -, -, e, result, hplay, hcode, hafter⟩
  · exact .stays trivial
  · exact handled_of_turn trivial (turnTaken_of_afterPlay hinv (advances_playCards hplay hcode) rfl
      hafter)

theorem handlePass_handled {turnId : Nat} (hinv : RoomInv t.room)
    (h : t.handlePass id turnId = some (t', out)) :
    Handled t (.pass id turnId) t'.room out.starts := by
  rcases handlePass_cases h with ⟨rfl, code, -, rfl, -⟩ | ⟨-, -, rfl, e, result, hpass, hcode, rfl⟩
  · exact .stays trivial
  · have hadv := advances_pass hpass hcode
    rw [scheduleTurnTimer_room]
    refine .played trivial (hinv.playing (.inl hadv.playing)) (.goesOn hadv.course ?_)
    exact (GameEngine.pass_frame hpass).2.2.2.1.trans hadv.playing

theorem handleSubmitTribute_cases {cardId : CardId}
    (h : t.handleSubmitTribute id cardId = some (t', out)) :
    (t' = t ∧ out.starts = []) ∨ ∃ e result, t.room.engine.submitTribute id cardId = some (e, result) ∧
      result.code = .ok ∧ t' = (t.setEngine e).cancelTributeTimer.continueTribute ∧
      out.starts = [] := by
  unfold handleSubmitTribute at h
  split_ifs at h
  · cases h
    exact .inl ⟨rfl, rfl⟩
  · cases h
    exact .inl ⟨rfl, rfl⟩
  obtain ⟨⟨e, result⟩, hsubmit, h⟩ := Option.bind_eq_some_iff.1 h
  dsimp only at h
  split_ifs at h with hcode
  · cases h
    exact .inl ⟨rfl, rfl⟩
  · cases h
    exact .inr ⟨e, result, hsubmit, not_not.1 hcode, rfl, rfl⟩

theorem handleSubmitTribute_handled {cardId : CardId} (hinv : RoomInv t.room)
    (h : t.handleSubmitTribute id cardId = some (t', out)) :
    Handled t (.submitTribute id cardId) t'.room out.starts := by
  rcases handleSubmitTribute_cases h with
    ⟨rfl, hstarts⟩ | ⟨e, result, hsubmit, hcode, rfl, hstarts⟩ <;> rw [hstarts]
  · exact .stays trivial
  · have hon := submitTribute_ongoing hsubmit hcode
    rw [continueTribute_room]
    exact handled_of_tribute hinv trivial (.inr ⟨hon, e, rfl, .submitTribute hsubmit,
      ongoing_submitTribute hsubmit hon⟩)

/-- The last return, after which the phase is finalized. -/
theorem course_finalize {cardId : CardId} {e₁ e₂ : GameEngine} {r₁ r₂ : PlayResult}
    (he : Reached e) (hsubmit : e.submitReturn id cardId = some (e₁, r₁)) (hcode : r₁.code = .ok)
    (hlast : r₁.tributeRoundComplete = true) (hfin : e₁.finalizeTributePhase = some (e₂, r₂)) :
    Course e e₂ ∧ e₂.state.phase = .playing := by
  have hcourse := Course.submitReturn hsubmit
  have hreached := hcourse.reached he
  rcases GameEngine.submitReturn_cases hsubmit with ⟨-, hno⟩ | ⟨seat, hphase, hactive, -, -, -, rfl, rfl⟩
  · exact absurd hcode hno
  have hphase' : (e.recordReturn seat cardId).state.phase = .returnTribute :=
    (SeatingInv.quiet_recordReturn e seat cardId).2.trans hphase
  have hon : (e.recordReturn seat cardId).hasPendingTributeAction = true := by
    rw [GameEngine.hasPendingTributeAction, hphase']
    exact Bool.and_eq_true_iff.2 ⟨hactive, rfl⟩
  refine ⟨hcourse.trans (.finalizeTributePhase hon (hreached.pendingTributers hphase') ?_ hfin),
    (GameEngine.finishTributePhase_frame hfin).2.2.2⟩
  simpa using hlast

theorem handleSubmitReturn_cases {cardId : CardId}
    (h : t.handleSubmitReturn id cardId = some (t', out)) :
    (t' = t ∧ out.starts = []) ∨ ∃ e result, t.room.engine.submitReturn id cardId = some (e, result) ∧
      result.code = .ok ∧ out.starts = [] ∧
      ((result.tributeRoundComplete = false ∧
          t' = (t.setEngine e).cancelTributeTimer.continueTribute) ∨
        (result.tributeRoundComplete = true ∧ ∃ e' r', e.finalizeTributePhase = some (e', r') ∧
          t' = ((t.setEngine e).cancelTributeTimer.setEngine e').onTributePhaseCompleted)) := by
  unfold handleSubmitReturn at h
  split_ifs at h
  · cases h
    exact .inl ⟨rfl, rfl⟩
  · cases h
    exact .inl ⟨rfl, rfl⟩
  obtain ⟨⟨e, result⟩, hsubmit, h⟩ := Option.bind_eq_some_iff.1 h
  dsimp only at h
  split_ifs at h with hcode hlast
  · cases h
    exact .inl ⟨rfl, rfl⟩
  · obtain ⟨⟨e', r'⟩, hfin, h⟩ := Option.bind_eq_some_iff.1 h
    cases h
    exact .inr ⟨e, result, hsubmit, not_not.1 hcode, rfl, .inr ⟨hlast, e', r', hfin, rfl⟩⟩
  · cases h
    exact .inr ⟨e, result, hsubmit, not_not.1 hcode, rfl, .inl ⟨eq_false_of_ne_true hlast, rfl⟩⟩

theorem handleSubmitReturn_handled {cardId : CardId} (hinv : RoomInv t.room)
    (h : t.handleSubmitReturn id cardId = some (t', out)) :
    Handled t (.submitReturn id cardId) t'.room out.starts := by
  rcases handleSubmitReturn_cases h with
    ⟨rfl, hstarts⟩ | ⟨e, result, hsubmit, hcode, hstarts, hrest⟩ <;> rw [hstarts]
  · exact .stays trivial
  have hon := submitReturn_ongoing hsubmit hcode
  rcases hrest with ⟨-, rfl⟩ | ⟨hlast, e', r', hfin, rfl⟩
  · rw [continueTribute_room]
    exact handled_of_tribute hinv trivial (.inr ⟨hon, e, rfl, .submitReturn hsubmit,
      ongoing_submitReturn hsubmit hon⟩)
  · obtain ⟨hcourse, hphase⟩ := course_finalize hinv.reached hsubmit hcode hlast hfin
    exact handled_of_tribute hinv trivial (.inr ⟨hon, e', scheduleTurnTimer_room _, hcourse,
      .inl hphase⟩)

theorem handleRequestDismiss_handled (h : t.handleRequestDismiss id = some (t', out)) :
    Handled t (.requestDismiss id) t'.room out.starts := by
  unfold handleRequestDismiss at h
  split_ifs at h
  · exact refuse_handled trivial h
  rcases hrequest : t.room.requestDismiss id with _ | r <;> rw [hrequest] at h <;> dsimp only at h
  · exact refuse_handled trivial h
  · cases h
    unfold Room.requestDismiss at hrequest
    split_ifs at hrequest
    obtain ⟨vote, -, rfl⟩ := Option.map_eq_some_iff.1 hrequest
    split_ifs
    · exact .voted vote trivial
    · exact .voted vote trivial

theorem handleVoteDismiss_handled {agree : Bool} (h : t.handleVoteDismiss id agree = some (t', out)) :
    Handled t (.voteDismiss id agree) t'.room out.starts := by
  unfold handleVoteDismiss at h
  split_ifs at h
  · exact refuse_handled trivial h
  · exact refuse_handled trivial h
  rcases hvote : t.room.voteDismiss id agree with _ | r <;> rw [hvote] at h <;> dsimp only at h
  · exact refuse_handled trivial h
  · unfold Room.voteDismiss at hvote
    split_ifs at hvote
    obtain ⟨vote, -, rfl⟩ := Option.map_eq_some_iff.1 hvote
    split_ifs at h <;> cases h
    · exact .voted _ trivial
    · exact .voted vote trivial
    · exact .voted vote trivial

theorem runTask_cases (h : t.runTask σ = some (t', out)) : ∃ task tasks, t.tasks = task :: tasks ∧
    match task with
    | .botTurn playerId => executeBotTurn { t with tasks := tasks } playerId σ =
        some (t', out.starts)
    | .botTribute => executeBotTributeActions { t with tasks := tasks } = some t' ∧
        out.starts = [] := by
  unfold runTask at h
  rcases htasks : t.tasks with _ | ⟨task, tasks⟩ <;> rw [htasks] at h
  · cases h
  refine ⟨task, tasks, rfl, ?_⟩
  rcases task with playerId | _ <;> dsimp only at h ⊢
  · exact done_some h
  · obtain ⟨t₁, hact, heq⟩ := Option.map_eq_some_iff.1 (done_some h)
    rw [← (Prod.mk.inj heq).1]
    exact ⟨hact, (Prod.mk.inj heq).2.symm⟩

theorem runTask_handled (hinv : RoomInv t.room) (h : t.runTask σ = some (t', out)) :
    Handled t (.runTask σ) t'.room out.starts := by
  obtain ⟨task, tasks, -, h⟩ := runTask_cases h
  rcases task with playerId | _ <;> dsimp only at h
  · exact handled_of_turn trivial (executeBotTurn_turn (t := { t with tasks := tasks }) hinv h)
  · rw [h.2]
    exact handled_of_tribute hinv trivial
      (executeBotTributeActions_taken (t := { t with tasks := tasks }) h.1)

end Table

open Table in
theorem table_step {t t' : Table} {op : TableOp} {out : TableOut} (hinv : RoomInv t.room)
    (hok : TableCall t op) (h : table.step t op = some (t', out)) :
    Handled t op t'.room out.starts := by
  change t.apply op = some (t', out) at h
  cases op with
  | joinRoom id => exact handleJoinRoom_handled h
  | leaveRoom id => exact handleLeaveRoom_handled h
  | ready id σ => exact handleReady_handled hinv h
  | unready id => exact handleRoom_handled rfl trivial (fun _ hr => .unreadied hr) h
  | changeSeat id seat => exact handleRoom_handled rfl trivial (fun _ hr => .moved hr) h
  | setRoomOptions id enabled => exact handleRoom_handled rfl trivial (fun _ hr => .optioned hr) h
  | startGame id σ => exact handleStartGame_handled hinv h
  | playCards id turnId cards σ => exact handlePlayCards_handled hinv h
  | pass id turnId => exact handlePass_handled hinv h
  | submitTribute id cardId => exact handleSubmitTribute_handled hinv h
  | submitReturn id cardId => exact handleSubmitReturn_handled hinv h
  | requestDismiss id => exact handleRequestDismiss_handled h
  | voteDismiss id agree => exact handleVoteDismiss_handled h
  | runTask σ => exact runTask_handled hinv h
  | fireTurnTimer =>
    obtain ⟨playerId, -, heq⟩ := Option.map_eq_some_iff.1 h
    cases heq
    exact .stays trivial
  | fireTributeTimer =>
    rw [Table.apply, fireTributeTimer] at h
    split_ifs at h
    cases h
    exact .stays trivial
  | fillBots =>
    cases h
    obtain ⟨hphase, hpeople⟩ := hok.2 rfl
    exact .filled hphase hpeople

theorem roomInv_step {t t' : Table} {op : TableOp} {out : TableOut} (hinv : RoomInv t.room)
    (hok : TableCall t op) (h : table.step t op = some (t', out)) : RoomInv t'.room :=
  (table_step hinv hok h).roomInv hinv hok

/-- What holds of the room holds of every state that is reached. -/
theorem roomInv_reachable {roomId : RoomId} {ownerId : PlayerId} (howner : ownerId ≠ 0) {mode : String}
    {t : Table} (h : table.Reachable TableCall (Table.create roomId ownerId mode) t) :
    RoomInv t.room :=
  h.invariant (P := fun t => RoomInv t.room) (roomInv_create roomId howner mode).1
    fun _ _ _ _ hinv hok hstep => roomInv_step hinv hok hstep

end Guandan
