import Guandan.Engine.Refusals
import Guandan.Network.TurnReports

/-!
# What a player learns of the tributes

Whoever has given a tribute or returned a card: everybody is shown the hands as they are then, and once
more when play begins.
-/

namespace Guandan

open Room GameState GameEngine Replica

section Tributes

variable {t t' t₁ : Table} {viewer id : PlayerId} {e : GameEngine} {r : Room} {targets : SpectateTargets}
  {pre post : List ServerMessage} {out : TableOut} {cardId : CardId} {σ : Shuffle}

/-- The end of the tribute phase shows a new hand. -/
theorem renewed_completed (hinv : RoomInv r) (hon : Ongoing r.engine) (htribute : TributeInTime r.engine)
    (hmember : r.containsPlayer viewer = true) (hin : StillIn r.engine viewer) (targets : SpectateTargets)
    (hpost : ∀ m ∈ post, m.Plain r.engine) :
    Renewed viewer e r.engine (pre ++ (onTributePhaseCompletedSent viewer targets r ++ post)) := by
  obtain ⟨view, hview, hsent⟩ := sendPlayerViews_eq hinv hon hmember hin targets .cardsDealt
  rw [onTributePhaseCompletedSent, hsent, List.append_assoc, ← List.append_assoc, List.singleton_append]
  exact .of_last hon htribute hview (.inr (.inl rfl)) hpost (.inl rfl)

/-- So does every step of it. -/
theorem renewed_continueTribute (hinv : RoomInv r) (hon : Ongoing r.engine)
    (htribute : TributeInTime r.engine) (hmember : r.containsPlayer viewer = true)
    (hin : StillIn r.engine viewer) (targets : SpectateTargets) (hbefore : Ongoing e)
    (hin' : StillIn e viewer) (post : List ServerMessage) (hpost : ∀ m ∈ post, m.Plain r.engine) :
    Renewed viewer e r.engine (sendPlayerViews viewer targets r .tributePhaseUpdated ++
      continueTributeSent viewer targets r ++ post) := by
  obtain ⟨view, hview, hsent⟩ := sendPlayerViews_eq hinv hon hmember hin targets .tributePhaseUpdated
  have hshown : Renewed viewer e r.engine ([] ++ .tributePhaseUpdated view :: post) :=
    .of_last hon htribute hview (.inr (.inr rfl)) hpost
      (.inr ⟨hbefore, hin', List.forall_mem_nil _⟩)
  unfold continueTributeSent
  rw [hsent]
  split_ifs
  · exact hshown
  · rw [List.append_assoc]
    exact renewed_completed hinv hon htribute hmember hin targets hpost
  · exact hshown

/-- A submission that is refused is another player's. -/
theorem report_refusedSubmission {op : TableOp} {code : ErrorCode} (hroom : t'.room = t.room)
    (hown : id = viewer → out.reply = some .ok) (hsender : op.sender? = some id)
    (hreply : out.reply = some code) (hcode : code ≠ .ok) :
    Report viewer (if id = viewer then [cardId] else []) t.room.engine t'.room.engine
      (sent viewer targets t op t' out) := by
  have hid : id ≠ viewer := fun hid => hcode (Option.some.inj (hreply.symm.trans (hown hid)))
  rw [if_neg hid]
  exact report_refused hroom hsender hreply hcode

theorem report_submitTribute (h : Watching t t' viewer) (hown : id = viewer → out.reply = some .ok)
    (hstep : t.handleSubmitTribute id cardId = some (t', out)) :
    Report viewer (if id = viewer then [cardId] else []) t.room.engine t'.room.engine
      (sent viewer targets t (.submitTribute id cardId) t' out) := by
  unfold Table.handleSubmitTribute at hstep
  split_ifs at hstep
  · cases hstep
    exact report_refusedSubmission rfl hown rfl rfl (by simp)
  · cases hstep
    exact report_refusedSubmission rfl hown rfl rfl (by simp)
  obtain ⟨⟨e, result⟩, hsubmit, hstep⟩ := Option.bind_eq_some_iff.1 hstep
  dsimp only at hstep
  split_ifs at hstep with hcode
  · cases hstep
    exact report_refusedSubmission rfl hown rfl rfl hcode
  rcases submitTribute_cases hsubmit with ⟨-, hno⟩ | ⟨seat, hphase, -⟩
  · exact absurd hno hcode
  have hbefore : Ongoing t.room.engine := .inr (.inl hphase)
  have hon : Ongoing t'.room.engine := by
    cases hstep
    rw [Table.continueTribute_room]
    exact ongoing_submitTribute hsubmit hbefore
  rw [sent_accepted rfl (accept_reply hstep)]
  exact .renewed (renewed_continueTribute h.after hon h.tribute h.member h.stillIn targets hbefore
    (stillIn_of_tribute h.before.reached (.inl hphase) viewer) _ (forall_response id (plain_other _ _)))

theorem report_submitReturn (h : Watching t t' viewer) (hown : id = viewer → out.reply = some .ok)
    (hstep : t.handleSubmitReturn id cardId = some (t', out)) :
    Report viewer (if id = viewer then [cardId] else []) t.room.engine t'.room.engine
      (sent viewer targets t (.submitReturn id cardId) t' out) := by
  unfold Table.handleSubmitReturn at hstep
  split_ifs at hstep
  · cases hstep
    exact report_refusedSubmission rfl hown rfl rfl (by simp)
  · cases hstep
    exact report_refusedSubmission rfl hown rfl rfl (by simp)
  obtain ⟨⟨e, result⟩, hsubmit, hstep⟩ := Option.bind_eq_some_iff.1 hstep
  dsimp only at hstep
  split_ifs at hstep with hcode hlast
  · cases hstep
    exact report_refusedSubmission rfl hown rfl rfl hcode
  · obtain ⟨⟨e', r'⟩, hfin, hstep⟩ := Option.bind_eq_some_iff.1 hstep
    have hon : Ongoing t'.room.engine := by
      cases hstep
      exact .inl ((congrArg (·.engine.state.phase) (Table.scheduleTurnTimer_room _)).trans
        (Table.course_finalize h.before.reached hsubmit (not_not.1 hcode) hlast hfin).2)
    rw [sent_accepted rfl (accept_reply hstep)]
    simp only [acceptedSent, submitReturnSent, hsubmit, if_pos hlast]
    rw [List.append_assoc]
    exact .renewed (renewed_completed h.after hon h.tribute h.member h.stillIn targets
      (forall_response id (plain_other _ _)))
  · rcases submitReturn_cases hsubmit with ⟨-, hno⟩ | ⟨seat, hphase, -⟩
    · exact absurd hno hcode
    have hbefore : Ongoing t.room.engine := .inr (.inr hphase)
    have hroom : t'.room = { t.room with engine := e } := by
      cases hstep
      exact Table.continueTribute_room _
    have hon : Ongoing t'.room.engine := by
      rw [hroom]
      exact ongoing_submitReturn hsubmit hbefore
    rw [sent_accepted rfl (accept_reply hstep)]
    simp only [acceptedSent, submitReturnSent, hsubmit, if_neg hlast]
    rw [← hroom]
    exact .renewed (renewed_continueTribute h.after hon h.tribute h.member h.stillIn targets hbefore
      (stillIn_of_tribute h.before.reached (.inr hphase) viewer) _ (forall_response id (plain_other _ _)))

/-! ### Bots -/

/-- Bots of which none has acted have changed nothing. -/
theorem botRound_idle {b : Table.BotRound}
    (hround : Table.botTributes e = some b ∨ Table.botReturns e = some b) (hidle : b.acted = false) :
    b.engine = e := by
  have hkept : b.acted = false → b.engine = e := by
    rcases hround with hround | hround
    · refine Table.botRound_acted (P := fun acted x => acted = false → x = e) ?_ (fun _ => rfl) hround
      intro acted x id cardId x' result hx hsub hacted
      rw [Bool.or_eq_false_iff] at hacted
      rw [(Answered.submitTribute hsub).refused (by simpa using hacted.2)]
      exact hx hacted.1
    · refine Table.botRound_acted (P := fun acted x => acted = false → x = e) ?_ (fun _ => rfl) hround
      intro acted x id cardId x' result hx hsub hacted
      rw [Bool.or_eq_false_iff] at hacted
      rw [(Answered.submitReturn hsub).refused (by simpa using hacted.2)]
      exact hx hacted.1
  exact hkept hidle

theorem report_executeBotTributeActions (h : Watching t t' viewer)
    (hact : t₁.executeBotTributeActions = some t') (hroom : t₁.room = t.room) :
    Report viewer [] t.room.engine t'.room.engine (executeBotTributeActionsSent viewer targets t.room) := by
  rcases Table.executeBotTributeActions_cases hact with ⟨hpending, rfl⟩ | ⟨hpending, b, hround, rfl⟩
  · rw [hroom] at hpending ⊢
    unfold executeBotTributeActionsSent
    rw [hpending]
    exact .nothing _
  · have hon := Table.ongoing_of_pending hpending
    rw [hroom] at hpending hround hon
    have hsent : executeBotTributeActionsSent viewer targets t.room =
        botRoundSent viewer targets t.room (some b) := by
      unfold executeBotTributeActionsSent
      rw [hpending]
      rcases hround with ⟨hphase, hround⟩ | ⟨hphase, hround⟩
      · rw [hphase, hround]
        rfl
      · rw [hphase, hround]
        rfl
    have hafter : (Table.continueTribute (t₁.cancelTributeTimer.setEngine b.engine)).room =
        { t.room with engine := b.engine } := by
      rw [Table.continueTribute_room, ← hroom]
      rfl
    rw [hsent, botRoundSent, ← hafter]
    rcases hacted : b.acted with _ | _
    · have hidle := botRound_idle (hround.imp And.right And.right) hacted
      rw [hafter, hidle, continueTributeSent, if_pos hpending]
      exact .nothing _
    · have hon' : Ongoing b.engine := by
        rcases hround with ⟨-, hround⟩ | ⟨-, hround⟩
        · exact (Table.botTributes_course hon hround).2
        · exact (Table.botReturns_course hon hround).2
      have hin := stillIn_of_tribute h.before.reached (hround.imp And.left And.left) viewer
      have hrenewed := renewed_continueTribute h.after (by rw [hafter]; exact hon') h.tribute
        h.member h.stillIn targets hon hin [] (List.forall_mem_nil _)
      rw [List.append_nil] at hrenewed
      exact .renewed hrenewed

end Tributes

/-! ### All steps -/

/-- The cards that the viewer has taken from its hand for a request. -/
def TableOp.takenFrom (viewer : PlayerId) : TableOp → List CardId
  | .playCards id _ cards _ => if id = viewer then cards else []
  | .submitTribute id cardId | .submitReturn id cardId => if id = viewer then [cardId] else []
  | _ => []

/-- What the viewer has taken cards from its hand for is accepted, and a play names no card twice. -/
def TableOp.Granted (viewer : PlayerId) (out : TableOut) : TableOp → Prop
  | .playCards id _ cards _ => id = viewer → out.reply = some .ok ∧ cards.Nodup
  | .submitTribute id _ | .submitReturn id _ => id = viewer → out.reply = some .ok
  | _ => True

theorem report_step {t t' : Table} {op : TableOp} {out : TableOut} {viewer : PlayerId}
    {targets : SpectateTargets} (h : Watching t t' viewer) (hcall : TableCall t op)
    (hgranted : op.Granted viewer out) (hstep : table.step t op = some (t', out)) :
    Report viewer (op.takenFrom viewer) t.room.engine t'.room.engine (sent viewer targets t op t' out) := by
  have hnothing (hengine : t'.room.engine = t.room.engine) :
      Report viewer [] t.room.engine t'.room.engine [] := by
    rw [hengine]
    exact .nothing _
  cases op with
  | joinRoom id => exact report_joinRoom h hstep
  | leaveRoom id => exact report_leaveRoom h hstep
  | ready id σ => exact report_ready h hstep
  | unready id => exact report_unready h hstep
  | changeSeat id seat => exact report_changeSeat h hstep
  | setRoomOptions id enabled => exact report_setRoomOptions h hstep
  | startGame id σ => exact report_startGame h hstep
  | playCards id turnId cards σ => exact report_playCards h hgranted hstep
  | pass id turnId => exact report_pass h hstep
  | submitTribute id cardId => exact report_submitTribute h hgranted hstep
  | submitReturn id cardId => exact report_submitReturn h hgranted hstep
  | requestDismiss id => exact report_requestDismiss h hstep
  | voteDismiss id agree => exact report_voteDismiss h hstep
  | runTask σ =>
    obtain ⟨task, tasks, htasks, hrun⟩ := Table.runTask_cases hstep
    simp only [sent, TableOp.sender?, acceptedSent, htasks]
    rcases task with botId | _ <;> dsimp only at hrun
    · exact report_executeBotTurn h hrun rfl
    · exact report_executeBotTributeActions h hrun.1 rfl
  | fireTurnTimer =>
    obtain ⟨id, -, heq⟩ := Option.map_eq_some_iff.1 hstep
    cases heq
    exact hnothing rfl
  | fireTributeTimer =>
    change Table.fireTributeTimer t = _ at hstep
    unfold Table.fireTributeTimer at hstep
    split_ifs at hstep
    cases hstep
    exact hnothing rfl
  | fillBots =>
    cases hstep
    exact hnothing (h.before.members.fillBots (hcall.2 rfl).2).2.2.1

end Guandan
