import Guandan.Network.TributeReports

/-!
# A client that is kept up to date

`InPicture` relates a client, with the messages and requests that are on their way, to the engine: once all
messages have arrived it shows the hand of its player, but for cards that requests on their way have taken,
and the turn; and it takes the game to be in play only if it is, or if it has asked for a play. A step of the
server that is reported, a message that is read and a tap of the player keep this.
-/

namespace Guandan

open Client GameEngine Replica

/-- A request on its way has taken the card. -/
def Taken (outbox : List Request) (id : CardId) : Prop := ∃ q ∈ outbox, id ∈ q.takes

def PlayAsked (outbox : List Request) : Prop := ∃ q ∈ outbox, q.isPlay = true

/-- What is shown of a round that is going on. -/
structure RoundInPicture (viewer : PlayerId) (e : GameEngine) (c : Client) (inbox : List ServerMessage)
    (outbox : List Request) : Prop where
  own : AtLast ServerMessage.renews (·.isOwn = true) inbox
  sight : Quiet ServerMessage.renews inbox → c.game.isSpectating = false
  shown : ∀ seat, e.seatOf viewer = some seat →
    ∀ id ∈ deliver (handAfter viewer) c.game.handIds inbox, id ∈ e.state.hands seat
  held : ∀ seat, e.seatOf viewer = some seat → ∀ id ∈ e.state.hands seat,
    id ∈ deliver (handAfter viewer) c.game.handIds inbox ∨ Taken outbox id
  turn : e.state.phase = .playing → deliver turnAfter c.turn inbox = turnOf e
  between : ∃ between, (c.BetweenRounds → between = true) ∧ deliver betweenAfter between inbox = false

structure InPicture (viewer : PlayerId) (e : GameEngine) (c : Client) (inbox : List ServerMessage)
    (outbox : List Request) : Prop where
  play : deliver phaseAfter c.game.phase inbox = .playing → e.state.phase = .playing ∨ PlayAsked outbox
  round : Ongoing e → RoundInPicture viewer e c inbox outbox

/-! ### The server -/

section Server

variable {viewer : PlayerId} {taken : List CardId} {e e' : GameEngine} {c : Client}
  {inbox ms : List ServerMessage} {outbox outbox' : List Request}

theorem RoundInPicture.kept (h : RoundInPicture viewer e c inbox outbox) (hkept : Kept viewer taken e e' ms)
    (hon : Ongoing e') (htaken : ∀ id, Taken outbox id → id ∈ taken ∨ Taken outbox' id) :
    RoundInPicture viewer e' c (inbox ++ ms) outbox' where
  own := .append (fun _ => h.own) (.of_forall hkept.own)
  sight := fun hquiet => h.sight (quiet_append.1 hquiet).1
  shown := fun seat hseat id hid => by
    have hseat' := hkept.seat.symm.trans hseat
    rw [deliver_append, hkept.hand] at hid
    exact (hkept.hands seat hseat' id).2 ⟨h.shown seat hseat' id hid.1, hid.2⟩
  held := fun seat hseat id hid => by
    have hseat' := hkept.seat.symm.trans hseat
    obtain ⟨hhand, hnot⟩ := (hkept.hands seat hseat' id).1 hid
    rw [deliver_append, hkept.hand]
    rcases h.held seat hseat' id hhand with hshown | hasked
    · exact .inl ⟨hshown, hnot⟩
    · exact .inr ((htaken id hasked).resolve_left hnot)
  turn := fun hphase => by
    rw [deliver_append, h.turn (hkept.phase.symm.trans hphase)]
    exact hkept.turn hphase
  between := by
    obtain ⟨between, hroom, hbetween⟩ := h.between
    refine ⟨between, hroom, ?_⟩
    rw [deliver_append, hbetween]
    exact deliver_keeps (P := (· = false)) rfl fun b hb m hm => by
      simp [betweenAfter, hkept.ends hon m hm, hb]

/-- A new picture does not depend on the old one. -/
theorem RoundInPicture.renewed (h : Ongoing e → StillIn e viewer → RoundInPicture viewer e c inbox outbox)
    (hrenewed : Renewed viewer e e' ms) : RoundInPicture viewer e' c (inbox ++ ms) outbox' where
  own := .append (fun hquiet => absurd hquiet hrenewed.renews) hrenewed.own
  sight := fun hquiet => absurd (quiet_append.1 hquiet).2 hrenewed.renews
  shown := fun seat hseat id hid => by
    rw [deliver_append, hrenewed.hand seat hseat] at hid
    exact hid
  held := fun seat hseat id hid => by
    rw [deliver_append, hrenewed.hand seat hseat]
    exact .inl hid
  turn := fun hphase => by
    rw [deliver_append]
    exact hrenewed.turn hphase _
  between := by
    by_cases hbefore : Ongoing e ∧ StillIn e viewer
    · obtain ⟨between, hroom, hbetween⟩ := (h hbefore.1 hbefore.2).between
      refine ⟨between, hroom, ?_⟩
      rw [deliver_append]
      exact hrenewed.between _ fun _ _ => hbetween
    · refine ⟨true, fun _ => rfl, ?_⟩
      rw [deliver_append]
      exact hrenewed.between _ fun hon hin => absurd ⟨hon, hin⟩ hbefore

/-- A step of the server, with what it has told the client. -/
theorem InPicture.reported (h : StillIn e viewer → InPicture viewer e c inbox outbox)
    (hin : StillIn e' viewer) (hreport : Report viewer taken e e' ms)
    (htaken : ∀ id, Taken outbox id → id ∈ taken ∨ Taken outbox' id)
    (hplay : PlayAsked outbox → e.state.phase = .playing ∨ PlayAsked outbox') :
    InPicture viewer e' c (inbox ++ ms) outbox' := by
  cases hreport with
  | kept hkept =>
    have h := h (hkept.stillIn hin)
    refine ⟨fun hphase => ?_, fun hon => ?_⟩
    · rw [deliver_append] at hphase
      rcases hkept.play _ hphase with hbefore | hplaying
      · rw [hkept.phase]
        exact (h.play hbefore).elim .inl hplay
      · exact .inl hplaying
    · have hbefore : Ongoing e := by
        unfold Ongoing
        rw [← hkept.phase]
        exact hon
      exact (h.round hbefore).kept hkept hon htaken
  | renewed hrenewed =>
    refine ⟨fun hphase => ?_, fun _ => .renewed (fun hon hbefore => (h hbefore).round hon) hrenewed⟩
    rw [deliver_append] at hphase
    exact .inl (hrenewed.play _ hphase)
  | ended hover =>
    refine ⟨fun hphase => ?_, fun hon => absurd hon hover.ended⟩
    rw [deliver_append] at hphase
    exact absurd hphase (hover.play _)

end Server

/-! ### The client -/

section Reader

variable {viewer : PlayerId} {e : GameEngine} {c c' : Client} {m : ServerMessage}
  {inbox : List ServerMessage} {outbox outbox' : List Request} {request : Option Request}

/-- More requests on their way explain more. -/
theorem InPicture.asked (h : InPicture viewer e c inbox outbox) (hsub : outbox ⊆ outbox') :
    InPicture viewer e c inbox outbox' where
  play := fun hphase => (h.play hphase).imp_right fun ⟨q, hq, hplay⟩ => ⟨q, hsub hq, hplay⟩
  round := fun hon => { h.round hon with
    held := fun seat hseat id hid => ((h.round hon).held seat hseat id hid).imp_right
      fun ⟨q, hq, htakes⟩ => ⟨q, hsub hq, htakes⟩ }

/-- The room is not between two rounds when the last new picture of one comes. -/
theorem RoundInPicture.room (h : RoundInPicture viewer e c (m :: inbox) outbox)
    (hquiet : Quiet ServerMessage.renews inbox) (hdeals : m.deals = false) : ¬ c.BetweenRounds := by
  obtain ⟨between, hroom, hbetween⟩ := h.between
  intro hrounds
  rw [hroom hrounds, deliver_cons] at hbetween
  have hfalse := between_of_quiet hquiet hbetween
  simp [betweenAfter, hdeals] at hfalse

/-- The hand of a client that has read the message. -/
theorem RoundInPicture.hand_receive (h : RoundInPicture viewer e c (m :: inbox) outbox)
    (huser : c.userId = viewer) (hquiet : Quiet ServerMessage.renews inbox) :
    (c.receive m).game.handIds = handAfter viewer c.game.handIds m := by
  rw [← huser]
  exact Client.hand_receive (h.own.head hquiet) (fun hm => h.sight (quiet_cons.2 ⟨hm, hquiet⟩))
    fun _ hdeals => h.room hquiet hdeals

/-- A message is read, and no longer on its way. -/
theorem InPicture.read (h : InPicture viewer e c (m :: inbox) outbox) (huser : c.userId = viewer) :
    InPicture viewer e (c.receive m) inbox outbox where
  play := fun hphase => h.play (phase_deliver_mono phase_receive hphase)
  round := fun hon => by
    have hround := h.round hon
    have hhand : deliver (handAfter viewer) (c.receive m).game.handIds inbox =
        deliver (handAfter viewer) c.game.handIds (m :: inbox) := by
      by_cases hquiet : Quiet ServerMessage.renews inbox
      · rw [deliver_cons, hround.hand_receive huser hquiet]
      · exact hand_deliver_congr hround.own.received hquiet _ _
    refine ⟨hround.own.received, fun hquiet => ?_, ?_, ?_, fun hphase => ?_, ?_⟩
    · exact sight_receive (hround.own.head hquiet) fun hm => hround.sight (quiet_cons.2 ⟨hm, hquiet⟩)
    · rw [hhand]
      exact hround.shown
    · rw [hhand]
      exact hround.held
    · rw [turn_receive]
      exact hround.turn hphase
    · obtain ⟨between, hroom, hbetween⟩ := hround.between
      exact ⟨betweenAfter between m, between_receive hroom, hbetween⟩

/-- A message is read, and will be once more. -/
theorem InPicture.readAgain (h : InPicture viewer e c (m :: inbox) outbox) (huser : c.userId = viewer) :
    InPicture viewer e (c.receive m) (m :: inbox) outbox where
  play := fun hphase => by
    have hagain := phase_deliver_mono phase_receive hphase
    rw [deliver_cons, phaseAfter_again] at hagain
    exact h.play hagain
  round := fun hon => by
    have hround := h.round hon
    have hhand : deliver (handAfter viewer) (c.receive m).game.handIds (m :: inbox) =
        deliver (handAfter viewer) c.game.handIds (m :: inbox) := by
      by_cases hquiet : Quiet ServerMessage.renews inbox
      · rw [deliver_cons, deliver_cons, hround.hand_receive huser hquiet, handAfter_again]
      · exact hand_deliver_congr hround.own (fun hall => hquiet (quiet_cons.1 hall).2) _ _
    refine ⟨hround.own, fun hquiet => ?_, ?_, ?_, fun hphase => ?_, ?_⟩
    · exact sight_receive (hround.own.head (quiet_cons.1 hquiet).2) fun _ => hround.sight hquiet
    · rw [hhand]
      exact hround.shown
    · rw [hhand]
      exact hround.held
    · rw [turn_receive, deliver_cons, turnAfter_again]
      exact hround.turn hphase
    · obtain ⟨between, hroom, hbetween⟩ := hround.between
      refine ⟨betweenAfter between m, between_receive hroom, ?_⟩
      rw [deliver_cons, betweenAfter_again]
      exact hbetween

/-- The player taps. -/
theorem InPicture.tapped (h : InPicture viewer e c inbox outbox) (htap : Tapped c c' request) :
    InPicture viewer e c' inbox (outbox ++ request.toList) where
  play := fun hphase => by
    by_cases hplay : ∃ q ∈ request, q.isPlay = true
    · obtain ⟨q, hq, hplay⟩ := hplay
      exact .inr ⟨q, List.mem_append_right _ (Option.mem_toList.2 hq), hplay⟩
    · have hsame : c'.game.phase = .playing → c.game.phase = .playing := fun hc' =>
        (htap.phase hc').resolve_right hplay
      refine (h.play (phase_deliver_mono hsame hphase)).imp_right fun ⟨q, hq, hplay⟩ => ?_
      exact ⟨q, List.mem_append_left _ hq, hplay⟩
  round := fun hon => by
    have hround := h.round hon
    have hhand : ∀ id, id ∈ deliver (handAfter viewer) c'.game.handIds inbox ↔
        id ∈ deliver (handAfter viewer) c.game.handIds inbox ∧
          (Quiet ServerMessage.renews inbox → id ∉ (request.map (·.takes)).getD []) := by
      rw [htap.hand]
      exact mem_hand_deliver hround.own
    refine ⟨hround.own, fun hquiet => htap.sight.trans (hround.sight hquiet), ?_, ?_, fun hphase => ?_, ?_⟩
    · exact fun seat hseat id hid => hround.shown seat hseat id ((hhand id).1 hid).1
    · intro seat hseat id hid
      rcases hround.held seat hseat id hid with hshown | ⟨q, hq, htakes⟩
      · by_cases htaken : id ∈ (request.map (·.takes)).getD []
        · rcases request with _ | q
          · cases htaken
          · exact .inr ⟨q, List.mem_append_right _ (List.mem_singleton_self q), htaken⟩
        · exact .inl ((hhand id).2 ⟨hshown, fun _ => htaken⟩)
      · exact .inr ⟨q, List.mem_append_left _ hq, htakes⟩
    · rw [htap.turn]
      exact hround.turn hphase
    · obtain ⟨between, hroom, hbetween⟩ := hround.between
      exact ⟨between, fun hc' => hroom (htap.room hc'), hbetween⟩

end Reader

end Guandan
