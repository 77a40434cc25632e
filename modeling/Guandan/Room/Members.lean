import Guandan.Room.Room
import Mathlib.Data.List.Perm.Subperm

/-!
# The members of a room

However players come, go, change seats and get ready, the members of a room have different ids and
different seats of the table (`Members`). Where the table is full every seat is taken, so the ids by
seat that a match starts with are those of the members.
-/

namespace Guandan

/-! ### The players of a list -/

section ModifyPlayer

variable {id : PlayerId} {f : RoomPlayer → RoomPlayer} {ps : List RoomPlayer}

/-- Where ids are different the first player with an id is the only one. -/
theorem modifyPlayer_eq_map (id : PlayerId) (h : (ps.map (·.id)).Nodup) :
    modifyPlayer id f ps = ps.map fun p => if p.id = id then f p else p := by
  induction ps with
  | nil => rfl
  | cons p ps ih =>
    rw [List.map_cons, List.nodup_cons] at h
    rw [modifyPlayer, List.map_cons]
    by_cases hp : p.id = id
    · rw [if_pos hp, if_pos hp]
      congr 1
      refine ((List.map_congr_left fun q hq => ?_).trans (List.map_id ps)).symm
      refine if_neg fun hq' => h.1 ?_
      rw [hp, ← hq']
      exact List.mem_map_of_mem hq
    · rw [if_neg hp, if_neg hp, ih h.2]

theorem map_modifyPlayer {α : Type*} {g : RoomPlayer → α} (hg : ∀ p, g (f p) = g p)
    (id : PlayerId) (ps : List RoomPlayer) : (modifyPlayer id f ps).map g = ps.map g := by
  induction ps with
  | nil => rfl
  | cons p ps ih =>
    rw [modifyPlayer]
    split
    · rw [List.map_cons, List.map_cons, hg]
    · rw [List.map_cons, List.map_cons, ih]

theorem mem_modifyPlayer {p : RoomPlayer} (h : p ∈ modifyPlayer id f ps) :
    p ∈ ps ∨ ∃ q ∈ ps, q.id = id ∧ p = f q := by
  induction ps with
  | nil => cases h
  | cons q ps ih =>
    rw [modifyPlayer] at h
    split at h
    · rename_i hq
      rcases List.mem_cons.1 h with rfl | h
      · exact .inr ⟨q, List.mem_cons_self .., hq, rfl⟩
      · exact .inl (List.mem_cons_of_mem _ h)
    · rcases List.mem_cons.1 h with rfl | h
      · exact .inl (List.mem_cons_self ..)
      · rcases ih h with hp | ⟨q', hq', hid, hp⟩
        · exact .inl (List.mem_cons_of_mem _ hp)
        · exact .inr ⟨q', List.mem_cons_of_mem _ hq', hid, hp⟩

end ModifyPlayer

namespace Room

/-! ### The invariant -/

structure Members (r : Room) : Prop where
  ids : (r.players.map (·.id)).Nodup
  seats : (r.players.map (·.seatIndex)).Nodup
  seat_lt : ∀ p ∈ r.players, p.seatIndex < r.config.maxPlayers
  id_ne : ∀ p ∈ r.players, p.id ≠ 0
  bots : ∀ p ∈ r.players, p.isBot = isBotPlayer p.id

variable {r r' : Room} {id : PlayerId}

theorem containsPlayer_iff : r.containsPlayer id = true ↔ ∃ p ∈ r.players, p.id = id := by
  simp [containsPlayer]

theorem firstEmptySeat_some {seat : Nat} (hid : ∀ p ∈ r.players, p.id ≠ 0)
    (h : r.firstEmptySeat = some seat) :
    seat < r.config.maxPlayers ∧ ∀ p ∈ r.players, p.seatIndex ≠ seat := by
  refine ⟨List.mem_range.1 (List.mem_of_find?_eq_some h), fun p hp hseat => ?_⟩
  have hfree := List.find?_some h
  simp only [isSeatTaken, Bool.not_eq_true', List.any_eq_false, Bool.and_eq_true, beq_iff_eq,
    bne_iff_ne, not_and, not_not] at hfree
  exact hid p hp (hfree p hp hseat)

/-- Whoever joins is added to the list. -/
theorem join_cases (hjoin : r.join id = some r') :
    ∃ p : RoomPlayer, p.id = id ∧ r' = { r with players := r.players ++ [p] } := by
  unfold Room.join at hjoin
  split_ifs at hjoin
  obtain ⟨seat, -, rfl⟩ := Option.map_eq_some_iff.1 hjoin
  exact ⟨_, rfl, rfl⟩

/-- Bots do not leave. -/
theorem leave_eq (r : Room) (id : PlayerId) : r.leave id = { r with
    players := r.players.filter fun p => isBotPlayer id || p.id != id } := by
  unfold Room.leave
  split_ifs with hbot
  · simp [hbot]
  · simp [hbot]

namespace Members

/-- A player who is not there yet sits down on an empty seat. -/
theorem add {p : RoomPlayer} (h : Members r) (hplayers : r'.players = r.players ++ [p])
    (hconfig : r'.config = r.config) (hid : ∀ q ∈ r.players, q.id ≠ p.id)
    (hseat : ∀ q ∈ r.players, q.seatIndex ≠ p.seatIndex) (hlt : p.seatIndex < r.config.maxPlayers)
    (hne : p.id ≠ 0) (hbot : p.isBot = isBotPlayer p.id) : Members r' := by
  have hnew : ∀ {q}, q ∈ r'.players → q ∈ r.players ∨ q = p := by
    intro q hq
    rw [hplayers] at hq
    simpa using hq
  refine ⟨?_, ?_, fun q hq => ?_, fun q hq => ?_, fun q hq => ?_⟩
  · rw [hplayers, List.map_append, List.nodup_append]
    refine ⟨h.ids, by simp, ?_⟩
    simpa using hid
  · rw [hplayers, List.map_append, List.nodup_append]
    refine ⟨h.seats, by simp, ?_⟩
    simpa using hseat
  · rw [hconfig]
    rcases hnew hq with hq | rfl
    · exact h.seat_lt q hq
    · exact hlt
  · rcases hnew hq with hq | rfl
    · exact h.id_ne q hq
    · exact hne
  · rcases hnew hq with hq | rfl
    · exact h.bots q hq
    · exact hbot

theorem join (h : Members r) (hne : id ≠ 0) (hjoin : r.join id = some r') :
    Members r' ∧ r'.config = r.config ∧ r'.engine = r.engine ∧ r'.phase = r.phase := by
  unfold Room.join at hjoin
  split_ifs at hjoin with hbot hfull hthere
  rw [Option.map_eq_some_iff] at hjoin
  obtain ⟨seat, hseat, rfl⟩ := hjoin
  obtain ⟨hlt, hfree⟩ := firstEmptySeat_some h.id_ne hseat
  refine ⟨h.add rfl rfl (fun q hq heq => hthere ?_) hfree hlt hne ?_, rfl, rfl, rfl⟩
  · exact containsPlayer_iff.2 ⟨q, hq, heq⟩
  · exact (eq_false_of_ne_true hbot).symm

theorem leave (h : Members r) (id : PlayerId) : Members (r.leave id) := by
  unfold Room.leave
  split_ifs
  · exact h
  · have hsub : (r.players.filter fun p => p.id != id).Sublist r.players := List.filter_sublist
    exact ⟨h.ids.sublist (hsub.map _), h.seats.sublist (hsub.map _),
      fun p hp => h.seat_lt p (hsub.subset hp), fun p hp => h.id_ne p (hsub.subset hp),
      fun p hp => h.bots p (hsub.subset hp)⟩

/-- Being ready or not is nothing that the invariant reads. -/
theorem of_map (h : Members r) {g : RoomPlayer → RoomPlayer}
    (hplayers : r'.players = r.players.map g) (hconfig : r'.config.maxPlayers = r.config.maxPlayers)
    (hg : ∀ p, (g p).id = p.id ∧ (g p).seatIndex = p.seatIndex ∧ (g p).isBot = p.isBot) :
    Members r' := by
  have hmap : ∀ {α : Type} (k : RoomPlayer → α), (∀ p, k (g p) = k p) →
      r'.players.map k = r.players.map k := by
    intro α k hk
    rw [hplayers, List.map_map]
    exact List.map_congr_left fun p _ => hk p
  have hold : ∀ {q}, q ∈ r'.players → ∃ p ∈ r.players, g p = q := by
    intro q hq
    rwa [hplayers, List.mem_map] at hq
  refine ⟨?_, ?_, fun q hq => ?_, fun q hq => ?_, fun q hq => ?_⟩
  · rw [hmap _ fun p => (hg p).1]
    exact h.ids
  · rw [hmap _ fun p => (hg p).2.1]
    exact h.seats
  · obtain ⟨p, hp, rfl⟩ := hold hq
    rw [hconfig, (hg p).2.1]
    exact h.seat_lt p hp
  · obtain ⟨p, hp, rfl⟩ := hold hq
    rw [(hg p).1]
    exact h.id_ne p hp
  · obtain ⟨p, hp, rfl⟩ := hold hq
    rw [(hg p).2.2, (hg p).1]
    exact h.bots p hp

theorem ready (h : Members r) (hready : r.ready id = some r') : Members r' := by
  unfold Room.ready at hready
  split_ifs at hready
  rw [Option.map_eq_some_iff] at hready
  obtain ⟨p, -, rfl⟩ := hready
  refine h.of_map (modifyPlayer_eq_map id h.ids) rfl fun q => ?_
  split_ifs <;> exact ⟨rfl, rfl, rfl⟩

theorem unready (h : Members r) (hunready : r.unready id = some r') : Members r' := by
  unfold Room.unready at hunready
  split_ifs at hunready
  rw [Option.map_eq_some_iff] at hunready
  obtain ⟨p, -, rfl⟩ := hunready
  refine h.of_map (modifyPlayer_eq_map id h.ids) rfl fun q => ?_
  split_ifs <;> exact ⟨rfl, rfl, rfl⟩

theorem changeSeat {seat : Int} (h : Members r) (hchange : r.changeSeat id seat = some r') :
    Members r' := by
  unfold Room.changeSeat at hchange
  split_ifs at hchange with hphase hbot hseat hfree
  rw [Option.map_eq_some_iff] at hchange
  obtain ⟨p, -, rfl⟩ := hchange
  simp only [isSeatTaken, Bool.not_eq_true, List.any_eq_false, Bool.and_eq_true, beq_iff_eq,
    bne_iff_ne, not_and, not_not] at hfree
  have hmap := modifyPlayer_eq_map id
    (f := fun p => { p with seatIndex := seat.toNat, isReady := false }) h.ids
  refine ⟨?_, ?_, fun q hq => ?_, fun q hq => ?_, fun q hq => ?_⟩
  · rw [map_modifyPlayer]
    · exact h.ids
    · exact fun _ => rfl
  · -- the player who moves goes to a seat that nobody else has
    rw [hmap, List.map_map]
    refine (h.ids.of_map _).map_on fun p hp q hq heq => ?_
    have hother : ∀ {a b : RoomPlayer}, a ∈ r.players → b ∈ r.players → a.id = id → b.id ≠ id →
        seat.toNat ≠ b.seatIndex := fun _ hb _ hne hs => hne (hfree _ hb hs.symm)
    simp only [Function.comp_apply] at heq
    by_cases hpid : p.id = id
    · by_cases hqid : q.id = id
      · exact List.inj_on_of_nodup_map h.ids hp hq (hpid.trans hqid.symm)
      · rw [if_pos hpid, if_neg hqid] at heq
        exact absurd heq (hother hp hq hpid hqid)
    · by_cases hqid : q.id = id
      · rw [if_neg hpid, if_pos hqid] at heq
        exact absurd heq.symm (hother hq hp hqid hpid)
      · rw [if_neg hpid, if_neg hqid] at heq
        exact List.inj_on_of_nodup_map h.seats hp hq heq
  · rcases mem_modifyPlayer hq with hq | ⟨p, hp, -, rfl⟩
    · exact h.seat_lt q hq
    · push Not at hseat
      show seat.toNat < r.config.maxPlayers
      omega
  · rcases mem_modifyPlayer hq with hq | ⟨p, hp, -, rfl⟩
    · exact h.id_ne q hq
    · exact h.id_ne p hp
  · rcases mem_modifyPlayer hq with hq | ⟨p, hp, -, rfl⟩
    · exact h.bots q hq
    · exact h.bots p hp

/-! ### Bots -/

/-- The bots seated so far have smaller numbers than the next. -/
theorem fillBotsFrom {fuel botIndex : Nat} (h : Members r)
    (hsmall : ∀ p ∈ r.players, p.id ≤ kBotIdBase + botIndex) :
    Members (fillBotsFrom fuel botIndex r) ∧ (fillBotsFrom fuel botIndex r).config = r.config ∧
      (fillBotsFrom fuel botIndex r).engine = r.engine ∧
      (fillBotsFrom fuel botIndex r).phase = r.phase := by
  induction fuel generalizing r botIndex with
  | zero => exact ⟨h, rfl, rfl, rfl⟩
  | succ fuel ih =>
    rw [Room.fillBotsFrom]
    split_ifs
    · exact ⟨h, rfl, rfl, rfl⟩
    rcases hempty : r.firstEmptySeat with _ | seat
    · exact ⟨h, rfl, rfl, rfl⟩
    dsimp only
    rcases hbot : r.addBotAtSeat seat botIndex with _ | r₁
    · exact ⟨h, rfl, rfl, rfl⟩
    obtain ⟨hlt, hfree⟩ := firstEmptySeat_some h.id_ne hempty
    unfold addBotAtSeat at hbot
    split_ifs at hbot
    cases hbot
    have hone : Members { r with players := r.players ++ [{
        id := kBotIdBase + (botIndex + 1), seatIndex := seat, isReady := true, isBot := true }] } := by
      refine h.add rfl rfl (fun q hq => ?_) hfree hlt ?_ ?_
      · exact Nat.ne_of_lt (Nat.lt_succ_of_le (hsmall q hq))
      · simp [kBotIdBase]
      · simp [isBotPlayer]
    refine ih hone fun q hq => ?_
    rcases List.mem_append.1 hq with hq | hq
    · exact Nat.le_succ_of_le (hsmall q hq)
    · rw [List.mem_singleton] at hq
      subst hq
      exact Nat.le_refl _

theorem fillBots (h : Members r) (hpeople : r.players.all (!·.isBot) = true) :
    Members r.fillBots ∧ r.fillBots.config = r.config ∧ r.fillBots.engine = r.engine ∧
      r.fillBots.phase = r.phase := by
  refine h.fillBotsFrom fun p hp => ?_
  have hbot : p.isBot = false := by simpa using List.all_eq_true.1 hpeople p hp
  rw [h.bots p hp] at hbot
  simp only [isBotPlayer, decide_eq_false_iff_not, Nat.not_le] at hbot
  exact Nat.le_of_lt hbot

/-! ### A full table -/

/-- At a full table every seat is somebody's. -/
theorem seated_of_full (h : Members r) (hfull : r.isFull = true) {seat : Nat}
    (hseat : seat < r.config.maxPlayers) : ∃ p ∈ r.players, p.seatIndex = seat := by
  have hsub : r.players.map (·.seatIndex) ⊆ List.range r.config.maxPlayers := by
    intro s hs
    obtain ⟨p, hp, rfl⟩ := List.mem_map.1 hs
    exact List.mem_range.2 (h.seat_lt p hp)
  have hlen : r.config.maxPlayers ≤ r.players.length := by simpa [isFull] using hfull
  have hperm := (h.seats.subperm hsub).perm_of_length_le (by simpa using hlen)
  exact List.mem_map.1 (hperm.mem_iff.2 (List.mem_range.2 hseat))

end Members

/-- Writing the ids of players with different seats by seat. -/
theorem foldl_set_getElem? {ps : List RoomPlayer} (hseats : (ps.map (·.seatIndex)).Nodup)
    (ids : List PlayerId) (hlt : ∀ p ∈ ps, p.seatIndex < ids.length) :
    (ps.foldl (fun ids p => ids.set p.seatIndex p.id) ids).length = ids.length ∧
      ∀ p ∈ ps, (ps.foldl (fun ids p => ids.set p.seatIndex p.id) ids)[p.seatIndex]? = some p.id := by
  induction ps using List.reverseRecOn with
  | nil => simp
  | append_singleton ps p ih =>
    rw [List.map_append, List.nodup_append] at hseats
    obtain ⟨hlen, hget⟩ := ih hseats.1 fun q hq => hlt q (by simp [hq])
    rw [List.foldl_append, List.foldl_cons, List.foldl_nil]
    refine ⟨by rw [List.length_set, hlen], fun q hq => ?_⟩
    rcases List.mem_append.1 hq with hq | hq
    · have hne : p.seatIndex ≠ q.seatIndex := by
        intro heq
        exact hseats.2.2 _ (List.mem_map_of_mem hq) p.seatIndex (by simp) heq.symm
      rw [List.getElem?_set_ne hne]
      exact hget q hq
    · rw [List.mem_singleton] at hq
      subst hq
      rw [List.getElem?_set_self]
      rw [hlen]
      exact hlt q (by simp)

/-- The ids by seat are the members', and there are as many as seats. -/
theorem Members.seatIds (h : Members r) : r.seatIds.length = r.config.maxPlayers ∧
    ∀ p ∈ r.players, r.seatIds[p.seatIndex]? = some p.id := by
  obtain ⟨hlen, hget⟩ := foldl_set_getElem? h.seats (List.replicate r.config.maxPlayers 0)
    fun p hp => by simpa using h.seat_lt p hp
  exact ⟨by rw [Room.seatIds, hlen, List.length_replicate], hget⟩

/-- At a full table the ids by seat are exactly those of the members. -/
theorem Members.mem_seatIds (h : Members r) (hfull : r.isFull = true) {id : PlayerId} :
    id ∈ r.seatIds ↔ ∃ p ∈ r.players, p.id = id := by
  obtain ⟨hlen, hget⟩ := h.seatIds
  constructor
  · intro hmem
    obtain ⟨i, hi, rfl⟩ := List.getElem_of_mem hmem
    obtain ⟨p, hp, rfl⟩ := h.seated_of_full hfull (hlen ▸ hi)
    refine ⟨p, hp, Option.some.inj ?_⟩
    rw [← hget p hp, List.getElem?_eq_getElem hi]
  · rintro ⟨p, hp, rfl⟩
    exact List.mem_of_getElem? (hget p hp)

end Room

end Guandan
