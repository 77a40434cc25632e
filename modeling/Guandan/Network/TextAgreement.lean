import Guandan.Network.Writing

/-!
# Texts and messages

A room and a client that exchange texts do what they do when they exchange messages: every run of the one is
a run of the other (`exchange_refines`, `exchange_follows`). So with texts on the way, too, the client agrees
with the server whenever nothing is (`texts_agree`).
-/

namespace Guandan

open Quoted Client Protocol.Views

/-! ### A match of one person -/

instance : DecidablePred Request.Fits
  | .playCards .. => inferInstanceAs (Decidable ((∀ _ ∈ _, _) ∧ _))
  | .spectateTeammate _ | .changeSeat _ => inferInstanceAs (Decidable (_ ∧ _))
  | .pass _ | .submitTribute _ | .submitReturn _ => inferInstanceAs (Decidable (_ < _))
  | .login | .reconnect | .joinRoom | .leaveRoom | .ready | .unready | .startGame | .setRoomOptions _
  | .requestDismiss | .voteDismiss _ => isTrue trivial

def soloTable : Table := Table.create (generateRoomId ⟨0, Nat.succ_pos 899999⟩) 1 "solo"

theorem soloTable_made : Made soloTable := Made.create ⟨0, Nat.succ_pos 899999⟩ (by decide) (by decide) "solo"

/-- The owner has created the room, and not been told yet. -/
def soloMessages : ClientServer :=
  .create 1 (generateRoomId ⟨0, Nat.succ_pos 899999⟩) 1 "solo" { userId := 1 } [] []

def soloTexts : Exchange :=
  { table := soloTable
    notices := [.created]
    inbox := [Protocol.messageToJson
      { type := "room_created".toList, requestId := 1, dataJson := roomCreatedJson soloTable.room }]
    client := { userId := 1 }
    socket := { connected := true } }

theorem soloTexts_carries : soloTexts.Carries "100000".toList "c0ffee".toList soloMessages :=
  ⟨rfl, .cons ⟨_, .roomCreated 1 ⟨soloTable.room, soloTable_made.named⟩, rfl⟩ .nil, .nil, rfl⟩

theorem soloMessages_start : soloMessages.Start 1 where
  created := ⟨generateRoomId ⟨0, Nat.succ_pos 899999⟩, 1, "solo", { userId := 1 }, [], [], by decide, rfl⟩
  user := rfl
  outOfGame := fun _ => by decide

/-- A step of the owner and the server, about requests that fit. -/
def SoloStep (w : ClientServer) (op : ClientServerOp) : Prop :=
  op.own = true ∧ op.Careful 1 w ∧ w.table.Seated 1 ∧ ∀ q ∈ w.outbox, q.Fits

instance (w : ClientServer) (op : ClientServerOp) : Decidable (SoloStep w op) :=
  inferInstanceAs (Decidable (_ ∧ _ ∧ _ ∧ ∀ q ∈ w.outbox, q.Fits))

theorem SoloStep.call {w : ClientServer} {op : ClientServerOp} (h : SoloStep w op) :
    ClientServerCall 1 w op ∧ op.Fits w := by
  refine ⟨call_of_own h.1, ?_⟩
  cases op with
  | answer i σ => exact fun q hq => h.2.2.2 q (List.mem_of_getElem? hq)
  | elsewhere i ms => cases h.1
  | _ => trivial

theorem soloMessages_play : ∃ w : ClientServer,
    (clientServer 1 fun _ _ _ => true).Reachable SoloStep soloMessages w ∧
    w.Idle ∧ w.table.Seated 1 ∧ StillIn w.table.room.engine 1 ∧
    w.table.room.engine.state.phase = .playing := by
  obtain ⟨w, hrun, hw⟩ := Machine.exists_of_any
    (x := (clientServer 1 fun _ _ _ => true).runChecked SoloStep soloMessages soloPlay)
    (P := fun w => w.Idle ∧ w.table.Seated 1 ∧ StillIn w.table.room.engine 1 ∧
      w.table.room.engine.state.phase = .playing) (by decide +kernel)
  exact ⟨w, Machine.reachable_of_runChecked hrun, hw⟩

/-- The same match, with texts on the way. -/
theorem soloTexts_play : ∃ x w,
    (exchange 1 (fun _ _ _ => true) "100000".toList "c0ffee".toList).Reachable
      (fun x op => ExchangeCall 1 "100000".toList "c0ffee".toList x op ∧
        op.Careful 1 "100000".toList "c0ffee".toList x) soloTexts x ∧
    x.Carries "100000".toList "c0ffee".toList w ∧ w.Idle ∧ w.table.Seated 1 ∧
    StillIn w.table.room.engine 1 ∧ w.table.room.engine.state.phase = .playing := by
  obtain ⟨w, hreach, hidle, hseated, hin, hphase⟩ := soloMessages_play
  have hsim : (exchange 1 (fun _ _ _ => true) "100000".toList "c0ffee".toList).Simulates
      (fun x op => ExchangeCall 1 "100000".toList "c0ffee".toList x op ∧
        op.Careful 1 "100000".toList "c0ffee".toList x)
      (fun w x => x.Carries "100000".toList "c0ffee".toList w ∧ Made w.table)
      (clientServer 1 fun _ _ _ => true) SoloStep := by
    intro w x op w' o hR hok hstep
    obtain ⟨op', x', hcall', htable, hstep', hcarries', hmade'⟩ := hR.1.follow hR.2 (by decide)
      (by constructor <;> decide) (by constructor <;> decide) hok.call.1 hok.call.2 hstep
    obtain ⟨-, hcareful, hseated, -⟩ := hok
    refine ⟨op', x', (), ⟨hcall', fun w₁ hw₁ o ho a ha => ?_⟩, hstep', hcarries', hmade'⟩
    have hsame : w₁.table = w.table := hw₁.table.symm.trans hR.1.table
    have hwell := hcareful o (htable ▸ ho) a (hR.1.table ▸ ha)
    refine ⟨hwell.granted, hsame ▸ hwell.starts, fun hnot => ?_⟩
    exact absurd (hsame ▸ hseated) hnot
  obtain ⟨x, hx, hcarries, -⟩ := hreach.simulated hsim ⟨soloTexts_carries, soloTable_made⟩
  exact ⟨x, w, hx, hcarries, hidle, hseated, hin, hphase⟩

/-! ### Every run -/

section Runs

variable {viewer : PlayerId} {roomId token : Text} {x₀ x : Exchange} {w₀ : ClientServer}

/-- What the parties do with texts on the way, they do without: every run is one of the room and the client
that exchange messages, and what is on the way are the texts of what is on the way there. In such a run
(`ExchangeCall`) the special characters of the nicknames and pictures that are shown are ones that their
writer escapes (`Written`) and the requests that are taken fit; the room id and the token are `Sendable`. -/
theorem exchange_refines (validate : List CardId → Nat → Option (List CardId) → Bool)
    (hroom : Protocol.Sendable roomId) (htoken : Protocol.Sendable token)
    (hstart : x₀.Carries roomId token w₀)
    (hreach : (exchange viewer validate roomId token).Reachable (ExchangeCall viewer roomId token) x₀ x) :
    ∃ w, (clientServer viewer validate).Reachable (ClientServerCall viewer) w₀ w ∧
      x.Carries roomId token w := by
  refine hreach.simulated (fun x w op x' o hcarries hcall hstep => ?_) hstart
  obtain ⟨op', w', hcall', -, hstep', hcarries'⟩ := hcarries.step hroom htoken hcall hstep
  exact ⟨op', w', (), hcall', hstep', hcarries'⟩

theorem exchange_refines_solo : ∃ (x : Exchange) (w : ClientServer),
    (clientServer 1 fun _ _ _ => true).Reachable (ClientServerCall 1) soloMessages w ∧
    x.Carries "100000".toList "c0ffee".toList w ∧ x.table.room.engine.state.phase = .playing := by
  obtain ⟨x, w, hreach, hcarries, -, -, -, hphase⟩ := soloTexts_play
  obtain ⟨w', hreach', hcarries'⟩ := exchange_refines (fun _ _ _ => true) (by constructor <;> decide)
    (by constructor <;> decide) soloTexts_carries (hreach.mono fun _ _ h => h.1)
  exact ⟨x, w', hreach', hcarries', hcarries.table ▸ hphase⟩

/-- With texts on the way, too, the client agrees with the server whenever nothing is, in every `Careful` run
of which `exchange_refines` speaks: what is shown is escaped, what is taken fits, and the room id and the
token are `Sendable`. -/
theorem texts_agree (hperson : isBotPlayer viewer = false) (hne : viewer ≠ 0)
    (validate : List CardId → Nat → Option (List CardId) → Bool)
    (hroom : Protocol.Sendable roomId) (htoken : Protocol.Sendable token)
    (hstart : w₀.Start viewer) (hcarries : x₀.Carries roomId token w₀)
    (hreach : (exchange viewer validate roomId token).Reachable
      (fun x op => ExchangeCall viewer roomId token x op ∧ op.Careful viewer roomId token x) x₀ x)
    (hinbox : x.inbox = []) (houtbox : x.outbox = []) (hnotices : x.notices = [])
    (hseated : x.table.Seated viewer) (hin : StillIn x.table.room.engine viewer) :
    x.parties.Agrees viewer := by
  have hsim : (clientServer viewer validate).Simulates
      (fun w op => ClientServerCall viewer w op ∧ op.Careful viewer w) (Exchange.Carries roomId token)
      (exchange viewer validate roomId token)
      (fun x op => ExchangeCall viewer roomId token x op ∧ op.Careful viewer roomId token x) := by
    intro x w op x' o hcarries hok hstep
    obtain ⟨op', w', hcall', htable, hstep', hcarries'⟩ := hcarries.step hroom htoken hok.1 hstep
    refine ⟨op', w', (), ⟨hcall', fun o ho a ha => ?_⟩, hstep', hcarries'⟩
    exact hok.2 w hcarries o (htable ▸ ho) a (hcarries.table ▸ ha)
  obtain ⟨w, hw, h⟩ := hreach.simulated hsim hcarries
  have hinv : ClientServerInv viewer w := hw.invariant (clientServerInv_start hstart)
    fun _ _ _ _ hinv hop hstep => clientServerInv_step hinv hperson hne hop.1 hop.2 hstep
  have hidle : w.Idle := by
    refine ⟨?_, ?_, h.notices.symm.trans hnotices⟩
    · exact List.forall₂_nil_right_iff.1 (hinbox ▸ h.inbox)
    · exact List.forall₂_nil_right_iff.1 (houtbox ▸ h.outbox)
  have hagrees := hinv.agrees hidle (h.table ▸ hseated) (h.table ▸ hin)
  rw [h.parties]
  exact ⟨hagrees.hand, hagrees.turn, hagrees.phase⟩

theorem texts_agree_solo : ∃ x : Exchange,
    x.table.room.engine.state.phase = .playing ∧ x.parties.Agrees 1 := by
  obtain ⟨x, w, hreach, hcarries, hidle, hseated, hin, hphase⟩ := soloTexts_play
  refine ⟨x, hcarries.table ▸ hphase, texts_agree (by decide) (by decide) (fun _ _ _ => true)
    (by constructor <;> decide) (by constructor <;> decide) soloMessages_start soloTexts_carries hreach ?_ ?_
    (hcarries.notices.trans hidle.notices) (hcarries.table ▸ hseated) (hcarries.table ▸ hin)⟩
  · exact List.forall₂_nil_left_iff.1 (hidle.inbox ▸ hcarries.inbox)
  · exact List.forall₂_nil_left_iff.1 (hidle.outbox ▸ hcarries.outbox)

/-- What a room and a client do that exchange messages, they do with texts on the way: for every run in which
the requests that are taken fit and what comes from elsewhere can be written (`ClientServerOp.Fits`) there
are texts that the server can write, those for players without nicknames (`stranger`), and with them it is a
run of the two. The room id and the token are `Sendable`. -/
theorem exchange_follows (hne : viewer ≠ 0) (validate : List CardId → Nat → Option (List CardId) → Bool)
    (hroom : Protocol.Sendable roomId) (htoken : Protocol.Sendable token)
    (hstart : x₀.Carries roomId token w₀) (hmade : Made w₀.table) {w : ClientServer}
    (hreach : (clientServer viewer validate).Reachable
      (fun w op => ClientServerCall viewer w op ∧ op.Fits w) w₀ w) :
    ∃ x, (exchange viewer validate roomId token).Reachable (ExchangeCall viewer roomId token) x₀ x ∧
      x.Carries roomId token w := by
  have hsim : (exchange viewer validate roomId token).Simulates (ExchangeCall viewer roomId token)
      (fun w x => x.Carries roomId token w ∧ Made w.table) (clientServer viewer validate)
      (fun w op => ClientServerCall viewer w op ∧ op.Fits w) := by
    intro w x op w' o hR hok hstep
    obtain ⟨op', x', hcall', -, hstep', hcarries', hmade'⟩ :=
      hR.1.follow hR.2 hne hroom htoken hok.1 hok.2 hstep
    exact ⟨op', x', (), hcall', hstep', hcarries', hmade'⟩
  obtain ⟨x, hreach', hcarries, -⟩ := hreach.simulated hsim ⟨hstart, hmade⟩
  exact ⟨x, hreach', hcarries⟩

theorem exchange_follows_solo : ∃ x w,
    (exchange 1 (fun _ _ _ => true) "100000".toList "c0ffee".toList).Reachable
      (ExchangeCall 1 "100000".toList "c0ffee".toList) soloTexts x ∧
    x.Carries "100000".toList "c0ffee".toList w ∧ w.table.room.engine.state.phase = .playing := by
  obtain ⟨w, hreach, -, -, -, hphase⟩ := soloMessages_play
  have hne : (1 : PlayerId) ≠ 0 := by decide
  obtain ⟨x, hx, hcarries⟩ := exchange_follows hne (fun _ _ _ => true) (by constructor <;> decide)
    (by constructor <;> decide) soloTexts_carries soloTable_made (hreach.mono fun _ _ h => h.call)
  exact ⟨x, w, hx, hcarries, hphase⟩

end Runs

end Guandan
