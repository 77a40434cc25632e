import Guandan.Network.Lobby
import Guandan.Room.Consent

/-!
# Dissolving a room

Whether a vote to dismiss is over is looked at when somebody votes, and by the list of those who were
there when it was called. Members who leave stay on that list and members who join never get on it,
so the rooms that are dissolved are those whose members agree only as long as nobody comes or goes
at the wrong moment (`CountsRight`).
-/

namespace Guandan

open Room

/-- The room once the sender of a request has left it or has been counted. -/
def Room.counted (r : Room) (id : PlayerId) (msg : RoomMessage) : Room :=
  match msg.type with
  | .leaveRoom => r.leave id
  | .requestDismiss => (r.requestDismiss id).getD r
  | .voteDismiss => (r.voteDismiss id msg.agree).getD r
  | _ => r

/-- No vote stays open in which all members have agreed. -/
def NoneUnanimous (m : RoomManager) : Prop := Everywhere (fun r => ¬ r.Unanimous) m.listed

/-- A room that a step takes off the list is empty, or all of its members have agreed. -/
def DissolvedByAll (m : RoomManager) (op : LobbyOp) (m' : RoomManager) : Prop :=
  ∀ roomId r, m.listed roomId = some r → m'.listed roomId = none →
    ∃ id msg σ, op = .request id msg σ ∧
      ((r.counted id msg).isEmpty = true ∨ (r.counted id msg).Unanimous)

/-- Nobody else stays who has not agreed when a member leaves an open vote; and when a member on the
list agrees, the list waits for somebody else exactly if some other member has not agreed. -/
structure CountsRight (m : RoomManager) (op : LobbyOp) : Prop where
  leave : ∀ id msg σ roomId r, op = .request id msg σ → msg.type = .leaveRoom →
    m.listed roomId = some r → id ∈ r.humans → r.dismissVote.active = true →
    (∀ p ∈ r.players, p.id = id) ∨ r.Dissenting id
  vote : ∀ id msg σ roomId r, op = .request id msg σ → msg.type = .voteDismiss →
    m.listed roomId = some r → id ∈ r.humans → msg.agree = true → r.dismissVote.active = true →
    r.dismissVote.listed id → (r.dismissVote.Awaited id ↔ r.Dissenting id)

/-- What a step needs to know of the rooms. -/
structure VotesKept (m : RoomManager) : Prop where
  registry : Registry m
  votes : Everywhere VoteKept m.listed

section Steps

variable {m m' : RoomManager} {op : LobbyOp} {answer : Bool} {rooms rooms' : Listing}

theorem LobbyStep.voteKept (hstep : LobbyStep rooms op rooms') (hok : LobbyCall m op)
    (h : Everywhere VoteKept rooms) : Everywhere VoteKept rooms' := by
  apply hstep.everywhere h
  · rintro id mode roomId rfl
    exact .create roomId mode hok
  · exact fun id r r' hjoin hr => hr.join hjoin
  · rintro id msg σ roomId r rfl _ _ _ _ hr
    exact hr.leave hok
  · exact fun id r r' hcall _ hr => (requestDismiss_called hr hcall).1
  · exact fun id agree r r' hvote hr => (hr.cancel (sameMembers_voteDismiss hvote)).1
  · exact fun id msg σ roomId r r' _ _ _ _ _ hvote _ _ hr => hr.voted hvote
  · exact fun r r' hsame hr => hr.undisturbed hsame

theorem votesKept_step (hm : VotesKept m) (hok : LobbyCall m op)
    (hstep : lobby.step m op = some (m', answer)) : VotesKept m' := by
  obtain ⟨hm', hlobby⟩ := lobby_step hm.registry hok hstep
  exact ⟨hm', hlobby.voteKept hok hm.votes⟩

/-- No vote is left open in which all agree, if everybody is counted right. -/
theorem noneUnanimous_step (hm : VotesKept m) (hnone : NoneUnanimous m) (hok : LobbyCall m op)
    (hlobby : LobbyStep m.listed op m'.listed) (hright : CountsRight m op) : NoneUnanimous m' := by
  have hbefore : Everywhere (fun r => VoteKept r ∧ ¬ r.Unanimous) m.listed :=
    fun roomId r hroom => ⟨hm.votes roomId r hroom, hnone roomId r hroom⟩
  have hboth : Everywhere (fun r => VoteKept r ∧ ¬ r.Unanimous) m'.listed := by
    apply hlobby.everywhere hbefore
    · rintro id mode roomId rfl
      refine ⟨.create roomId mode hok, fun hall => ?_⟩
      have hactive := hall.active
      rw [(create_spec roomId mode hok).2.2.2.2] at hactive
      cases hactive
    · exact fun id r r' hjoin hr =>
        ⟨hr.1.join hjoin, fun hall => hr.2 (unanimous_of_join hjoin hall)⟩
    · rintro id msg σ roomId r rfl hleave hroom hid hleft hr
      refine ⟨hr.1.leave hok, fun hall => ?_⟩
      obtain ⟨hactive, hagree⟩ := (leave_unanimous hr.1 hok).1 hall
      rcases hright.leave id msg σ roomId r rfl hleave hroom hid hactive with honly | hdissent
      · rw [(isEmpty_leave hok).2 honly] at hleft
        cases hleft
      · exact hagree hdissent
    · intro id r r' hcall hnot hr
      obtain ⟨hkept, hall⟩ := requestDismiss_called hr.1 hcall
      exact ⟨hkept, by rw [hall, hnot]; exact Bool.false_ne_true⟩
    · exact fun id agree r r' hvote hr => hr.1.cancel (sameMembers_voteDismiss hvote)
    · intro id msg σ roomId r r' hop htype hroom hid hagree hvote _ hnot hr
      obtain ⟨hagreed, hall⟩ := voteDismiss_agreed hr.1 hvote
      refine ⟨hr.1.voted hvote, ?_⟩
      rw [hall, not_not, ← hright.vote id msg σ roomId r hop htype hroom hid hagree hagreed.active
        hagreed.listed]
      by_contra hawaited
      rw [hagreed.allAgreed.2 hawaited] at hnot
      cases hnot
    · exact fun r r' hsame hr => ⟨hr.1.undisturbed hsame, by rw [hsame.unanimous]; exact hr.2⟩
  exact fun roomId r hroom => (hboth roomId r hroom).2

/-- A room that goes has been left by its last member or counted out. -/
theorem LobbyStep.dissolved {roomId : RoomId} {r : Room} (hstep : LobbyStep rooms op rooms')
    (hroom : rooms roomId = some r) (hgone : rooms' roomId = none)
    (hnot : ∀ roomId, op ≠ .removeRoom roomId) :
    ∃ id msg σ, op = .request id msg σ ∧ id ∈ r.humans ∧
      (msg.type = .leaveRoom ∧ (r.leave id).isEmpty = true ∨
      (∃ r', msg.type = .requestDismiss ∧ r.requestDismiss id = some r' ∧
        r'.dismissVote.allAgreed = true) ∨
      ∃ r', msg.type = .voteDismiss ∧ msg.agree = true ∧ r.voteDismiss id true = some r' ∧
        r'.dismissVote.allAgreed = true) := by
  have hhere : ∀ {roomId' : RoomId} {x : Option Room} {r' : Room}, rooms roomId' = some r' →
      Function.update rooms roomId' x roomId = none → r' = r ∧ x = none := by
    intro roomId' x r' hroom' hnone
    by_cases heq : roomId = roomId'
    · subst heq
      rw [Function.update_self] at hnone
      rw [hroom, Option.some_inj] at hroom'
      exact ⟨hroom'.symm, hnone⟩
    · rw [Function.update_of_ne heq, hroom] at hnone
      cases hnone
  cases hstep with
  | refused _ | notInRoom _ =>
    rw [hroom] at hgone
    cases hgone
  | created hnone _ =>
    have hne : roomId ≠ _ := fun heq => by
      rw [heq, hnone] at hroom
      cases hroom
    rw [Function.update_of_ne hne, hroom] at hgone
    cases hgone
  | joined hroom' _ _ => exact absurd (hhere hroom' hgone).2 (Option.some_ne_none _)
  | left hroom' hid htype =>
    obtain ⟨rfl, hnone⟩ := hhere hroom' hgone
    split_ifs at hnone with hempty
    exact ⟨_, _, _, rfl, hid, .inl ⟨htype, hempty⟩⟩
  | called hroom' hid htype hcall =>
    obtain ⟨rfl, hnone⟩ := hhere hroom' hgone
    split_ifs at hnone with hagreed
    exact ⟨_, _, _, rfl, hid, .inr (.inl ⟨_, htype, hcall, hagreed⟩)⟩
  | voted hroom' hid htype hvote =>
    obtain ⟨rfl, hnone⟩ := hhere hroom' hgone
    split_ifs at hnone with hrejected hagreed
    rw [Bool.not_eq_true, Bool.or_eq_false_iff, Bool.not_eq_false'] at hrejected
    rw [hrejected.1] at hvote
    exact ⟨_, _, _, rfl, hid, .inr (.inr ⟨_, htype, hrejected.1, hvote, hagreed⟩)⟩
  | undisturbed hroom' _ _ _ _ => exact absurd (hhere hroom' hgone).2 (Option.some_ne_none _)
  | removed _ => exact absurd rfl (hnot _)

/-- Whoever is dissolved has agreed, if everybody is counted right. -/
theorem dissolvedByAll_step (hm : VotesKept m) (hok : LobbyRequest m op)
    (hlobby : LobbyStep m.listed op m'.listed) (hright : CountsRight m op) :
    DissolvedByAll m op m' := by
  intro roomId r hroom hgone
  obtain ⟨id, msg, σ, rfl, hid, hend⟩ := hlobby.dissolved hroom hgone hok.2
  have hr := hm.votes roomId r hroom
  refine ⟨id, msg, σ, rfl, ?_⟩
  rcases hend with ⟨htype, hempty⟩ | ⟨r', htype, hcall, hagreed⟩ | ⟨r', htype, hagree, hvote, hagreed⟩
  · left
    simpa only [Room.counted, htype] using hempty
  · right
    have hunanimous := (requestDismiss_called hr hcall).2.2 hagreed
    simpa only [Room.counted, htype, hcall, Option.getD_some] using hunanimous
  · right
    obtain ⟨hafter, hall⟩ := voteDismiss_agreed hr hvote
    have hunanimous : r'.Unanimous := by
      rw [hall, ← hright.vote id msg σ roomId r rfl htype hroom hid hagree hafter.active hafter.listed]
      exact hafter.allAgreed.1 hagreed
    simpa only [Room.counted, htype, hagree, hvote, Option.getD_some] using hunanimous

/-- If a step counts somebody wrong, a vote stays open in which all agree or somebody is dissolved
who does not. -/
theorem countsRight_step (hm : VotesKept m) (hok : LobbyRequest m op)
    (hlobby : LobbyStep m.listed op m'.listed) (hnone : NoneUnanimous m')
    (hall : DissolvedByAll m op m') : CountsRight m op := by
  have hunique : ∀ {id : PlayerId} {roomId : RoomId} {r : Room}, m.listed roomId = some r →
      id ∈ r.humans → ∀ roomId' r', m.listed roomId' = some r' → id ∈ r'.humans →
      roomId' = roomId := fun hroom hid _ _ hroom' hid' => hm.registry.unique hroom' hid' hroom hid
  constructor
  · rintro id msg σ roomId r rfl htype hroom hid hactive
    have hlisted := hlobby.leaves htype hroom hid (hunique hroom hid)
    rw [or_iff_not_imp_left, ← isEmpty_leave hok.1]
    intro hleft
    rw [if_neg hleft] at hlisted
    have hopen : ¬ (r.leave id).Unanimous := hnone roomId _ (by rw [hlisted, Function.update_self])
    rw [leave_unanimous (hm.votes roomId r hroom) hok.1, not_and, not_not] at hopen
    exact hopen hactive
  · rintro id msg σ roomId r rfl htype hroom hid hagree hactive hasked
    have hr := hm.votes roomId r hroom
    obtain ⟨r', hvote⟩ : ∃ r', r.voteDismiss id msg.agree = some r' :=
      ⟨_, voteDismiss_eq_some.2 ⟨hok.1, _, DismissVote.recordVote_eq_some.2 ⟨hactive, hasked, rfl⟩, rfl⟩⟩
    have hlisted := hlobby.votes htype hroom hid (hunique hroom hid) hvote
    rw [hagree] at hvote
    obtain ⟨hafter, hunanimous⟩ := voteDismiss_agreed hr hvote
    rw [hagree, hafter.wellKept.unopposed, if_neg (by decide)] at hlisted
    constructor
    · intro hawaited
      have hnot : ¬ r'.dismissVote.allAgreed = true := fun h => hafter.allAgreed.1 h hawaited
      rw [if_neg hnot] at hlisted
      have hopen : ¬ r'.Unanimous := hnone roomId _ (by rw [hlisted, Function.update_self])
      rwa [hunanimous, not_not] at hopen
    · intro hdissent
      by_contra hawaited
      rw [if_pos (hafter.allAgreed.2 hawaited)] at hlisted
      obtain ⟨id', msg', σ', heq, hend⟩ :=
        hall roomId r hroom (by rw [hlisted, Function.update_self])
      cases heq
      simp only [Room.counted, htype, hagree, hvote, Option.getD_some] at hend
      rcases hend with hempty | hagreed
      · have hnobody := humans_of_isEmpty hempty
        rw [(sameMembers_voteDismiss hvote).humans] at hnobody
        rw [hnobody] at hid
        cases hid
      · exact hunanimous.1 hagreed hdissent

/-- A step is right exactly when it counts everybody right. -/
theorem dismissal_iff (hm : VotesKept m) (hnone : NoneUnanimous m) (hok : LobbyRequest m op)
    (hstep : lobby.step m op = some (m', answer)) :
    NoneUnanimous m' ∧ DissolvedByAll m op m' ↔ CountsRight m op := by
  obtain ⟨-, hlobby⟩ := lobby_step hm.registry hok.1 hstep
  constructor
  · rintro ⟨hnone', hall⟩
    exact countsRight_step hm hok hlobby hnone' hall
  · intro hright
    exact ⟨noneUnanimous_step hm hnone hok.1 hlobby hright,
      dissolvedByAll_step hm hok hlobby hright⟩

end Steps

/-- Over every run of requests, rooms are dissolved exactly when all their members agree, if and
only if every leave and every vote of the run is counted right. -/
theorem dissolved_when_all_agree {ops : List LobbyOp} (hok : lobby.Follows LobbyRequest {} ops) :
    (lobby.Always NoneUnanimous {} ops ∧ lobby.EachStep DissolvedByAll {} ops) ↔
      lobby.EachStep (fun m op _ => CountsRight m op) {} ops :=
  Machine.always_and_eachStep_iff (J := VotesKept)
    (fun _ _ _ _ hm hop hstep => votesKept_step hm hop.1 hstep)
    (fun _ _ _ _ hm hnone hop hstep => dismissal_iff hm hnone hop hstep)
    ⟨.empty, fun _ _ hroom => nomatch hroom⟩ (fun _ _ hroom => nomatch hroom) hok

/-- Two players are in a room, and the one who created it calls a vote. -/
def callVote : List LobbyOp :=
  [.createRoom 1 "six" "100000", .joinRoom "100000" 2,
    .request 1 { type := .requestDismiss } (Shuffle.stack [])]

/-- The other one leaves. -/
def leftVote : List LobbyOp :=
  callVote ++ [.request 2 { type := .leaveRoom } (Shuffle.stack [])]

/-- A third player comes in, and the second one agrees. -/
def lateComer : List LobbyOp :=
  callVote ++ [.joinRoom "100000" 3,
    .request 2 { type := .voteDismiss, agree := true } (Shuffle.stack [])]

/-- The second player agrees, too. -/
def agreedVote : List LobbyOp :=
  callVote ++ [.request 2 { type := .voteDismiss, agree := true } (Shuffle.stack [])]

/-- What is neither a leave nor a vote counts nobody. -/
theorem CountsRight.of_uncounted {m : RoomManager} {op : LobbyOp}
    (h : ∀ id msg σ, op = .request id msg σ → msg.type ≠ .leaveRoom ∧ msg.type ≠ .voteDismiss) :
    CountsRight m op where
  leave id msg σ _ _ heq htype := absurd htype (h id msg σ heq).1
  vote id msg σ _ _ heq htype := absurd htype (h id msg σ heq).2

theorem countsRight_agreedVote :
    lobby.EachStep (fun m op _ => CountsRight m op) {} agreedVote := by
  intro m₁ o₁ h₁
  refine ⟨.of_uncounted fun _ _ _ heq => (nomatch heq), fun m₂ o₂ h₂ =>
    ⟨.of_uncounted fun _ _ _ heq => (nomatch heq), fun m₃ o₃ h₃ =>
      ⟨.of_uncounted ?_, fun _ _ _ => ⟨⟨?_, ?_⟩, trivial⟩⟩⟩⟩
  · intro id msg σ heq
    cases heq
    exact ⟨by decide, by decide⟩
  · intro id msg σ roomId r heq htype
    cases heq
    cases htype
  · -- in the room that the second player is in, nobody is waited for and nobody dissents
    have hrun : lobby.run {} callVote = some m₃ := by
      rw [callVote, Machine.run_cons h₁, Machine.run_cons h₂, Machine.run_cons h₃]
      rfl
    obtain ⟨m, hrun', hentry, hcounts⟩ := Machine.exists_run_of_any (M := lobby) (s := {})
      (l := callVote) (P := fun m => m.playerRoomMap 2 = some "100000" ∧ (m.listed "100000").all
        (fun r => decide (r.dismissVote.Awaited 2 ↔ r.Dissenting 2)) = true) (by decide +kernel)
    cases hrun.symm.trans hrun'
    have hm : Registry m₃ := .of_requests (by decide) hrun
    intro id msg σ roomId r heq _ hroom hid _ _ _
    cases heq
    have hthere := hm.entry.2 ⟨r, hroom, hid⟩
    cases hentry.symm.trans hthere
    simpa [hroom] using hcounts

/-- The vote that a member leaves stays open; with both members' consent the room is dissolved. -/
theorem dissolved_when_all_agree_leftVote :
    ((lobby.Always NoneUnanimous {} leftVote ∧ lobby.EachStep DissolvedByAll {} leftVote) ↔
      lobby.EachStep (fun m op _ => CountsRight m op) {} leftVote) ∧
    (∃ m, lobby.run {} agreedVote = some m ∧ m.listed "100000" = none) ∧
    lobby.Always NoneUnanimous {} agreedVote ∧ lobby.EachStep DissolvedByAll {} agreedVote := by
  refine ⟨dissolved_when_all_agree (follows_of_requested (by decide)), ?_,
    (dissolved_when_all_agree (follows_of_requested (by decide))).2 countsRight_agreedVote⟩
  exact Machine.exists_run_of_any (by decide +kernel)

/-- In the first of these runs the only member left has agreed and the vote stays open, in the second
a member is dissolved who was never asked. -/
theorem agreed_and_dissolved_apart :
    ¬ (lobby.Always NoneUnanimous {} leftVote ∧ lobby.EachStep DissolvedByAll {} leftVote) ∧
    ¬ (lobby.Always NoneUnanimous {} lateComer ∧ lobby.EachStep DissolvedByAll {} lateComer) := by
  constructor
  · rintro ⟨hnone, -⟩
    obtain ⟨m, hrun, hm⟩ := Machine.exists_run_of_any (M := lobby) (s := {}) (l := leftVote)
      (P := fun m => (m.listed "100000").any (fun r => decide r.Unanimous) = true)
      (by decide +kernel)
    obtain ⟨r, hroom, hunanimous⟩ := Machine.exists_of_any hm
    exact hnone.of_run hrun _ r hroom hunanimous
  · rintro ⟨-, hall⟩
    let vote : RoomMessage := { type := .voteDismiss, agree := true }
    obtain ⟨m, hrun, hm⟩ := Machine.exists_run_of_any (M := lobby) (s := {})
      (l := callVote ++ [.joinRoom "100000" 3])
      (P := fun m => (m.listed "100000").any (fun r => decide (¬ (r.counted 2 vote).isEmpty = true ∧
        ¬ (r.counted 2 vote).Unanimous ∧
        (lobby.step m (.request 2 vote (Shuffle.stack []))).any
          (fun a => decide (a.1.listed "100000" = none)) = true)) = true)
      (by decide +kernel)
    obtain ⟨r, hroom, hpeople, hdissent, hgone⟩ := Machine.exists_of_any hm
    obtain ⟨⟨m', answer⟩, hstep, hgone⟩ := Machine.exists_of_any hgone
    have hall : lobby.EachStep _ {} (callVote ++ [.joinRoom "100000" 3] ++
        [.request 2 vote (Shuffle.stack [])]) := hall
    have hstep := hall.of_run hrun hstep
    obtain ⟨id, msg, σ, heq, hend⟩ := hstep "100000" r hroom hgone
    cases heq
    exact hend.elim hpeople hdissent

end Guandan
