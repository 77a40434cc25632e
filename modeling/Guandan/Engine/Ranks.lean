import Guandan.Engine.Hands
import Guandan.Library.Scan

/-!
# Finish ranks

Players get their ranks in the order in which they go out (`assignFinishRank`); when a team is out,
the others get theirs in the order of the seats after the last one (`assignRemainingFinishRanks`).
`Ranked s order` says that the finished seats are those of the list `order`, ranked in its order. At
the end of a round the order contains every seat once, and the round's record names the seat of each
rank by its place in the order.
-/

namespace Guandan

/-- At a full table each team has its seats. -/
theorem GameEngine.countP_seatTeam {perTeam : Nat} (hper : perTeam = 2 ∨ perTeam = 3)
    (team : Team) : (List.range (2 * perTeam)).countP (fun i => seatTeam i == team) = perTeam := by
  have htwo : ∀ t : Team, (List.range 4).countP (fun i => seatTeam i == t) = 2 := by decide
  have hthree : ∀ t : Team, (List.range 6).countP (fun i => seatTeam i == t) = 3 := by decide
  rcases hper with rfl | rfl
  · exact htwo team
  · exact hthree team

/-- The player without a rank: the rest of what there is to know. -/
def PlayerState.unranked (p : PlayerState) : PlayerState :=
  { p with hasFinished := false, finishRank := 0 }

theorem PlayerState.unranked_eq {p q : PlayerState} (h : p.unranked = q.unranked) :
    p.hand = q.hand ∧ p.id = q.id ∧ p.team = q.team ∧ p.isReady = q.isReady := by
  cases p
  cases q
  simp only [unranked, PlayerState.mk.injEq] at h
  simp [h]

/-- The finished players are those of the list, ranked in its order. -/
structure RankedBy (players : Nat → PlayerState) (order : List Nat) : Prop where
  finished : ∀ seat, (players seat).hasFinished = true ↔ seat ∈ order
  rank : ∀ seat, (players seat).finishRank = if seat ∈ order then order.idxOf seat + 1 else 0

namespace RankedBy

variable {players : Nat → PlayerState} {order : List Nat} {seat : Nat}

theorem rank_of_mem (h : RankedBy players order) (hseat : seat ∈ order) :
    (players seat).finishRank = order.idxOf seat + 1 := by
  rw [h.rank, if_pos hseat]

/-- One more player, with the next rank. -/
theorem append (h : RankedBy players order) (hseat : seat ∉ order) :
    RankedBy (Function.update players seat
      { players seat with hasFinished := true, finishRank := order.length + 1 })
      (order ++ [seat]) := by
  constructor
  · intro i
    by_cases hi : i = seat
    · subst hi
      simp
    · rw [Function.update_of_ne hi, h.finished]
      simp [hi]
  · intro i
    by_cases hi : i = seat
    · subst hi
      simp [List.idxOf_append_of_notMem hseat]
    · rw [Function.update_of_ne hi, h.rank]
      by_cases hmem : i ∈ order
      · simp [hmem, List.idxOf_append_of_mem hmem]
      · simp [hmem, hi]

end RankedBy

namespace GameState

structure Ranked (s : GameState) (order : List Nat) : Prop extends
    RankedBy s.players order where
  nodup : order.Nodup
  seats : ∀ seat ∈ order, seat < s.playerCount

variable {s : GameState} {order : List Nat} {seat : Nat}

theorem Ranked.active (h : Ranked s order) : s.active seat = true ↔ seat ∉ order := by
  rw [← h.finished, GameState.active]
  simp

/-! ### Going out -/

theorem Ranked.countP_finished (h : Ranked s order) (hn : s.playerCount ≤ kPlayerCount) :
    (List.range kPlayerCount).countP (fun i => (s.players i).hasFinished) = order.length := by
  rw [List.countP_eq_length_filter]
  apply List.Perm.length_eq
  refine (List.perm_ext_iff_of_nodup (List.nodup_range.filter _) h.nodup).2 fun i => ?_
  rw [List.mem_filter, h.finished, List.mem_range]
  exact ⟨fun hi => hi.2, fun hi => ⟨lt_of_lt_of_le (h.seats i hi) hn, hi⟩⟩

theorem Ranked.assignFinishRank (h : Ranked s order) (hn : s.playerCount ≤ kPlayerCount)
    (hlt : seat < s.playerCount) (hseat : seat ∉ order) :
    Ranked (s.assignFinishRank seat) (order ++ [seat]) := by
  have hrank : 1 + (List.range kPlayerCount).countP (fun i => (s.players i).hasFinished)
      = order.length + 1 := by
    rw [h.countP_finished hn, Nat.add_comm]
  refine ⟨?_, ?_, ?_⟩
  · simp only [GameState.assignFinishRank, hrank]
    exact h.toRankedBy.append hseat
  · exact h.nodup.append (List.nodup_singleton _) (by simpa using hseat)
  · intro i hi
    rcases List.mem_append.1 hi with hi | hi
    · exact h.seats i hi
    · rw [List.mem_singleton.1 hi]
      exact hlt

theorem unranked_assignFinishRank (s : GameState) (seat i : Nat) :
    ((s.assignFinishRank seat).players i).unranked = (s.players i).unranked := by
  unfold GameState.assignFinishRank
  by_cases hi : i = seat
  · subst hi
    simp [PlayerState.unranked]
  · simp [hi]

/-! ### The last to finish -/

theorem lastFinished_eq_scan (s : GameState) :
    s.lastFinished = (List.range s.playerCount).foldl
      (Scan.keep (· < ·) (fun i => (s.players i).hasFinished) (fun i => (s.players i).finishRank)
        some) (none, 0) := by
  unfold GameState.lastFinished
  congr 1
  funext acc i
  simp [Scan.keep]

/-- The last of the order has the greatest rank. -/
theorem Ranked.lastFinished (h : Ranked s order) (hne : order ≠ []) :
    s.lastFinished = (some (order.getLast hne), order.length) := by
  have hlast : order.getLast hne ∈ order := List.getLast_mem hne
  have hidx : order.idxOf (order.getLast hne) + 1 = order.length := by
    have hpos : 0 < order.length := List.length_pos_of_ne_nil hne
    rw [List.getLast_eq_getElem, h.nodup.idxOf_getElem]
    omega
  have hle : ∀ i ∈ order, (s.players i).finishRank ≤ order.length := by
    intro i hi
    rw [h.rank_of_mem hi]
    exact List.idxOf_lt_length_of_mem hi
  rw [lastFinished_eq_scan]
  rcases Scan.foldl_keep (r := (· < ·)) (p := fun i => (s.players i).hasFinished)
    (f := fun i => (s.players i).finishRank) (v := some) (l := List.range s.playerCount)
    (none, 0) with ⟨-, hnone⟩ | ⟨a, hfirst, -, hres⟩
  · refine absurd ?_ (hnone _ (List.mem_range.2 (h.seats _ hlast)) ((h.finished _).2 hlast))
    rw [h.rank_of_mem hlast]
    exact Nat.succ_pos _
  · have ha : a ∈ order := (h.finished a).1 hfirst.sat
    have hmax : ¬ (s.players a).finishRank < (s.players (order.getLast hne)).finishRank :=
      hfirst.best (List.mem_range.2 (h.seats _ hlast)) ((h.finished _).2 hlast)
    rw [h.rank_of_mem hlast, hidx] at hmax
    have hrank : (s.players a).finishRank = order.length := le_antisymm (hle a ha) (by omega)
    have heq : a = order.getLast hne := by
      have hia := h.rank_of_mem ha
      have hidxeq : order.idxOf a = order.idxOf (order.getLast hne) := by omega
      exact (List.idxOf_inj ha).1 hidxeq
    rw [hres, hrank, heq]

/-! ### The remaining ranks -/

/-- The seats that have a rank after `d` steps of the walk from the seat after `last`. -/
def walkOrder (n : Nat) (order : List Nat) (last d : Nat) : List Nat :=
  order ++ Cyclic.within n (fun i => decide (i ∉ order)) last d

theorem mem_walkOrder_or {n last d j : Nat} (hlast : last < n) (hd : n ≤ d) (hj : j < n) :
    j ∈ walkOrder n order last d := by
  by_cases hmem : j ∈ order
  · exact List.mem_append_left _ hmem
  · refine List.mem_append_right _ (Cyclic.mem_within.2 ⟨?_, by simpa using hmem⟩)
    by_cases hjl : last = j
    · exact ⟨n, by omega, hd, by rw [Nat.add_mod_right, hjl, Nat.mod_eq_of_lt hj]⟩
    · have hlt := Cyclic.dist_lt (n := n) (a := last) (b := j) (by omega)
      exact ⟨Cyclic.dist n last j, Cyclic.dist_pos hlast hj hjl, by omega,
        Cyclic.add_dist hlast hj⟩

theorem nodup_walkOrder {n last d : Nat} (hn : 0 < n) (hd : d ≤ n) (hnodup : order.Nodup) :
    (walkOrder n order last d).Nodup := by
  refine hnodup.append (Cyclic.nodup_within hn hd) fun j hj hwithin => ?_
  simpa [hj] using (Cyclic.mem_within.1 hwithin).2

theorem walkOrder_lt {n : Nat} (last d : Nat) (hn : 0 < n) (hseats : ∀ seat ∈ order, seat < n) :
    ∀ seat ∈ walkOrder n order last d, seat < n := by
  intro j hj
  rcases List.mem_append.1 hj with hj | hj
  · exact hseats j hj
  · obtain ⟨⟨k, -, -, rfl⟩, -⟩ := Cyclic.mem_within.1 hj
    exact Nat.mod_lt _ hn

/-- The next seat of the walk joins the order unless it has a rank already. -/
theorem walkOrder_succ (order : List Nat) {n d : Nat} (last : Nat) (hn : 0 < n) (hd : d < n) :
    walkOrder n order last (d + 1) =
      if (last + (d + 1)) % n ∈ walkOrder n order last d then walkOrder n order last d
      else walkOrder n order last d ++ [(last + (d + 1)) % n] := by
  have hnew : (last + (d + 1)) % n ∉
      Cyclic.within n (fun i => decide (i ∉ order)) last d := by
    intro h
    obtain ⟨⟨k, hk1, hk2, hk⟩, -⟩ := Cyclic.mem_within.1 h
    have := Cyclic.add_inj hn (by omega) (by omega) (by omega) (by omega) hk
    omega
  by_cases hmem : (last + (d + 1)) % n ∈ order
  · have h1 : (last + (d + 1)) % n ∈ walkOrder n order last d := List.mem_append_left _ hmem
    rw [if_pos h1, walkOrder, walkOrder, Cyclic.within_succ]
    simp [hmem]
  · have h1 : (last + (d + 1)) % n ∉ walkOrder n order last d := by
      rw [walkOrder, List.mem_append]
      exact fun h => h.elim hmem hnew
    rw [if_neg h1, walkOrder, walkOrder, Cyclic.within_succ]
    simp [hmem]

theorem rankStep_cases (n : Nat) (w : RankWalk) :
    (n < w.nextRank ∧ rankStep n w = w) ∨
    (w.nextRank ≤ n ∧ (w.players w.seat).hasFinished = true ∧
      rankStep n w = { w with seat := (w.seat + 1) % n }) ∨
    (w.nextRank ≤ n ∧ ¬ (w.players w.seat).hasFinished = true ∧ rankStep n w =
      { players := Function.update w.players w.seat
          { w.players w.seat with hasFinished := true, finishRank := w.nextRank }
        nextRank := w.nextRank + 1
        seat := (w.seat + 1) % n }) := by
  unfold rankStep
  by_cases hdone : n < w.nextRank
  · exact .inl ⟨hdone, if_pos hdone⟩
  rw [if_neg hdone]
  by_cases hfin : (w.players w.seat).hasFinished = true
  · exact .inr (.inl ⟨by omega, hfin, if_pos hfin⟩)
  · exact .inr (.inr ⟨by omega, hfin, if_neg hfin⟩)

/-- The walk after `d` steps. -/
structure WalkInv (n : Nat) (order : List Nat) (last d : Nat) (w : RankWalk) : Prop where
  ranked : RankedBy w.players (walkOrder n order last d)
  next : w.nextRank = (walkOrder n order last d).length + 1
  seat : w.nextRank ≤ n → w.seat = (last + (d + 1)) % n

theorem walkInv_step {n last d : Nat} {w : RankWalk} (hn : 0 < n) (hd : d < n)
    (hnodup : order.Nodup) (hseats : ∀ seat ∈ order, seat < n)
    (h : WalkInv n order last d w) : WalkInv n order last (d + 1) (rankStep n w) := by
  have hlt : (last + (d + 1)) % n < n := Nat.mod_lt _ hn
  have hstep := walkOrder_succ order last hn hd
  rcases rankStep_cases n w with ⟨hdone, hres⟩ | ⟨hle, hfin, hres⟩ | ⟨hle, hfin, hres⟩ <;> rw [hres]
  · -- every rank is given, so the seat has one
    have hall : (last + (d + 1)) % n ∈ walkOrder n order last d := by
      by_contra hout
      have hnodup' : ((last + (d + 1)) % n :: walkOrder n order last d).Nodup :=
        List.nodup_cons.2 ⟨hout, nodup_walkOrder hn hd.le hnodup⟩
      have hsub : (last + (d + 1)) % n :: walkOrder n order last d ⊆ List.range n := by
        rintro j (_ | ⟨_, hj⟩)
        · exact List.mem_range.2 hlt
        · exact List.mem_range.2 (walkOrder_lt _ _ hn hseats j hj)
      have hlen := (hnodup'.subperm hsub).length_le
      rw [List.length_cons, List.length_range] at hlen
      have := h.next
      omega
    rw [if_pos hall] at hstep
    refine ⟨by rw [hstep]; exact h.ranked, by rw [hstep]; exact h.next, fun hle => by omega⟩
  · have hseat := h.seat hle
    rw [hseat, h.ranked.finished] at hfin
    rw [if_pos hfin] at hstep
    refine ⟨by rw [hstep]; exact h.ranked, by rw [hstep]; exact h.next, fun _ => ?_⟩
    show (w.seat + 1) % n = _
    rw [hseat, Nat.mod_add_mod, Nat.add_assoc]
  · have hseat := h.seat hle
    rw [hseat, h.ranked.finished] at hfin
    rw [if_neg hfin] at hstep
    refine ⟨?_, ?_, fun _ => ?_⟩
    · rw [hstep, ← hseat, h.next]
      rw [← hseat] at hfin
      exact h.ranked.append hfin
    · show w.nextRank + 1 = _
      rw [hstep, List.length_append, List.length_singleton, h.next]
    · show (w.seat + 1) % n = _
      rw [hseat, Nat.mod_add_mod, Nat.add_assoc]

theorem walkInv_iterate {n last d : Nat} {w : RankWalk} (hn : 0 < n) (hd : d ≤ n)
    (hnodup : order.Nodup) (hseats : ∀ seat ∈ order, seat < n) (h : WalkInv n order last 0 w) :
    WalkInv n order last d ((rankStep n)^[d] w) := by
  induction d with
  | zero => exact h
  | succ d ih =>
    rw [Function.iterate_succ_apply']
    exact walkInv_step hn (by omega) hnodup hseats (ih (by omega))

/-- The order at the end of a round: behind the players who went out, the others in the order of the
seats after the last of them. -/
def finalOrder (n : Nat) (order : List Nat) : List Nat :=
  walkOrder n order (order.getLastD 0) n

/-- When all ranks are given, every seat has one. -/
theorem Ranked.assignRemaining (h : Ranked s order) (hne : order ≠ []) :
    Ranked s.assignRemainingFinishRanks (finalOrder s.playerCount order) ∧
      (finalOrder s.playerCount order).Perm (List.range s.playerCount) := by
  have hlast : order.getLast hne < s.playerCount := h.seats _ (List.getLast_mem hne)
  have hn : 0 < s.playerCount := by omega
  have hstart : WalkInv s.playerCount order (order.getLast hne) 0
      ⟨s.players, order.length + 1, (order.getLast hne + 1) % s.playerCount⟩ := by
    refine ⟨?_, ?_, fun _ => rfl⟩
    · simpa [walkOrder] using h.toRankedBy
    · simp [walkOrder]
  have hend := walkInv_iterate hn (Nat.le_refl _) h.nodup h.seats hstart
  have hnodup : (walkOrder s.playerCount order (order.getLast hne) s.playerCount).Nodup :=
    nodup_walkOrder hn (Nat.le_refl _) h.nodup
  have hseats := walkOrder_lt (order.getLast hne) s.playerCount hn h.seats
  have hfinal : finalOrder s.playerCount order =
      walkOrder s.playerCount order (order.getLast hne) s.playerCount := by
    rw [finalOrder, List.getLastD_eq_getLast?, List.getLast?_eq_some_getLast hne, Option.getD_some]
  rw [hfinal]
  refine ⟨⟨?_, hnodup, ?_⟩, ?_⟩
  · unfold assignRemainingFinishRanks
    rw [h.lastFinished hne]
    exact hend.ranked
  · unfold assignRemainingFinishRanks
    rw [h.lastFinished hne]
    exact hseats
  · refine (List.perm_ext_iff_of_nodup hnodup List.nodup_range).2 fun j => ?_
    rw [List.mem_range]
    exact ⟨hseats j, mem_walkOrder_or hlast (Nat.le_refl _)⟩

theorem unranked_rankStep (n : Nat) (w : RankWalk) (i : Nat) :
    ((rankStep n w).players i).unranked = (w.players i).unranked := by
  rcases rankStep_cases n w with ⟨-, hres⟩ | ⟨-, -, hres⟩ | ⟨-, -, hres⟩ <;> rw [hres]
  by_cases hi : i = w.seat
  · subst hi
    simp [PlayerState.unranked]
  · simp [hi]

theorem unranked_iterate (n d : Nat) (w : RankWalk) (i : Nat) :
    (((rankStep n)^[d] w).players i).unranked = (w.players i).unranked := by
  induction d with
  | zero => rfl
  | succ d ih => rw [Function.iterate_succ_apply', unranked_rankStep, ih]

theorem unranked_assignRemaining (s : GameState) (i : Nat) :
    (s.assignRemainingFinishRanks.players i).unranked = (s.players i).unranked := by
  unfold assignRemainingFinishRanks
  split
  · rfl
  · exact unranked_iterate _ _ _ i

end GameState

end Guandan
