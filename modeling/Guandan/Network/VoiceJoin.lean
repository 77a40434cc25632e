import Guandan.Livekit.AccessToken
import Guandan.Network.Lobby

/-!
# Who gets an access token

`handleVoiceJoin` of `message_dispatcher.cpp`, in whatever state the rooms and their members are: a token
names the player it is given to and the one room that this player is in.
-/

namespace Guandan

open Livekit

/-- The name under which the player is shown to the others. -/
def voiceName (r : Room) (nickname : PlayerId → String) (playerId : PlayerId) : String :=
  match r.players.find? (·.id == playerId) with
  | some p => if nickname p.id = "" then "Player" else nickname p.id
  | none => "Player"

/-- The token and the name of the voice room; `now` is the time in seconds. -/
def handleVoiceJoin (m : RoomManager) (config : LiveKitConfig) (nickname : PlayerId → String) (now : Int)
    (playerId : PlayerId) : Except ErrorCode (String × RoomId) :=
  if config.enabled = false then .error .invalidState
  else match (m.findRoomByPlayer playerId).bind (m.made[·]?) with
    | none => .error .notInRoom
    | some r =>
      let token := createLiveKitAccessToken config now r.roomId (toString playerId)
        (voiceName r nickname playerId)
      if token = "" then .error .internalError else .ok (token, r.roomId)

/-- What a token for this player in this room is good for. -/
structure Admits (config : LiveKitConfig) (now : Int) (roomId : RoomId) (playerId : PlayerId)
    (name token : String) : Prop where
  tells : Tells token (tokenClaims config now roomId (toString playerId) name) ↔
    ∀ s ∈ [config.apiKey, name, roomId], Json.Printable s.toList
  signed : SignedWith config.apiSecret token

section

variable {m : RoomManager} {config : LiveKitConfig} {nickname : PlayerId → String} {now : Int}
  {playerId : PlayerId} {token : String} {roomId : RoomId}

theorem printable_digits (n : Nat) : Json.Printable (Nat.toDigits 10 n) := by
  intro c hc
  have hdigit := Nat.isDigit_of_mem_toDigits (by decide) (by decide) hc
  simp only [Char.isDigit, Bool.and_eq_true, decide_eq_true_eq] at hdigit
  have hle : 48 ≤ c.toNat := hdigit.1
  omega

theorem admits_of_token {name : String}
    (h : createLiveKitAccessToken config now roomId (toString playerId) name ≠ "") :
    Admits config now roomId playerId name
      (createLiveKitAccessToken config now roomId (toString playerId) name) where
  tells := by
    rw [tells_iff h]
    simp [printable_digits]
  signed := signedWith h

/-- Whoever gets a token is in the room that it names, and in no other; and no one else is told. -/
theorem voice_join_admits (hreach : lobby.Reachable LobbyCall {} m)
    (h : handleVoiceJoin m config nickname now playerId = .ok (token, roomId)) :
    ∃ r, m.listed roomId = some r ∧ playerId ∈ r.humans ∧
      (∀ roomId' r', m.listed roomId' = some r' → playerId ∈ r'.humans → roomId' = roomId) ∧
      Admits config now roomId playerId (voiceName r nickname playerId) token := by
  have hm : Registry m := hreach.invariant Registry.empty fun _ _ _ _ hm hop hstep =>
    (lobby_step hm hop hstep).1
  unfold handleVoiceJoin at h
  split_ifs at h with hdisabled
  rcases hfind : (m.findRoomByPlayer playerId).bind (m.made[·]?) with _ | r
  · simp [hfind] at h
  · simp only [hfind] at h
    split_ifs at h with hempty
    obtain ⟨rfl, rfl⟩ := Prod.mk.inj (Except.ok.inj h)
    obtain ⟨handle, hhandle, hr⟩ := Option.bind_eq_some_iff.1 hfind
    obtain ⟨roomId, hentry, hrooms⟩ := Option.bind_eq_some_iff.1 hhandle
    have hid : r.roomId = roomId := hm.roomId_eq hrooms hr
    obtain ⟨r', hlisted, hmember⟩ := hm.entry.1 hentry
    rw [Registry.listed_iff.2 ⟨handle, hrooms, hr⟩, Option.some_inj] at hlisted
    subst hlisted
    subst hid
    have hroom := Registry.listed_iff.2 ⟨handle, hrooms, hr⟩
    exact ⟨r, hroom, hmember, fun roomId' r' hroom' hmember' => hm.unique hroom' hmember' hroom hmember,
      admits_of_token hempty⟩

end

/-- A server with voice. -/
def voiceConfig : LiveKitConfig := { enabled := true, apiKey := "key", apiSecret := "secret" }

theorem voice_join_admits_owner : ∃ (m : RoomManager) (token : String) (roomId : RoomId) (r : Room),
    m.listed roomId = some r ∧ 10001 ∈ r.humans ∧
      (∀ roomId' r', m.listed roomId' = some r' → 10001 ∈ r'.humans → roomId' = roomId) ∧
      Admits voiceConfig 0 roomId 10001 (voiceName r (fun _ => "") 10001) token := by
  obtain ⟨m, hrun, hfound⟩ := Machine.exists_run_of_any (M := lobby) (s := {})
    (l := [.createRoom 10001 "solo" "100000"])
    (P := fun m => ((m.findRoomByPlayer 10001).bind (m.made[·]?)).isSome = true) (by decide +kernel)
  have hreach : lobby.Reachable LobbyCall {} m :=
    Machine.reachable_of_run (Machine.Follows.of_forall fun op hop _ => by
      rw [List.mem_singleton.1 hop]
      rfl) hrun
  obtain ⟨r, hr⟩ := Option.isSome_iff_exists.1 hfound
  have htoken : createLiveKitAccessToken voiceConfig 0 r.roomId (toString 10001)
      (voiceName r (fun _ => "") 10001) ≠ "" := by
    rw [ne_eq, createLiveKitAccessToken_eq_empty]
    simp [voiceConfig]
  have hjoin : handleVoiceJoin m voiceConfig (fun _ => "") 0 10001 =
      .ok (createLiveKitAccessToken voiceConfig 0 r.roomId (toString 10001)
        (voiceName r (fun _ => "") 10001), r.roomId) := by
    rw [handleVoiceJoin, if_neg (by simp [voiceConfig]), hr]
    exact if_neg htoken
  obtain ⟨r', hjoined⟩ := voice_join_admits hreach hjoin
  exact ⟨m, _, _, r', hjoined⟩

end Guandan
