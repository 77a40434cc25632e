import Guandan.Engine.TrickProtocol

/-!
# The ranks of a round and its settlement

The history of a round is the list of the seats in the order in which their hands were emptied. At
every point the finished seats are ranked in that order; at the end of the round the others follow in
the order of the seats (`finalOrder`), so that the ranks are `1, …, n`. Then the first of the order
decides the winning team, and by how much its level rises: the second of its players has at best
rank 2, and in teams of three at worst rank 5.
-/

namespace Guandan

open GameState GameEngine

/-- Brings the order in which the hands of the round were emptied up to date. -/
def recordFinish (order : List Nat) (e : GameEngine) (op : EngineOp) (out : EngineOut)
    (e' : GameEngine) : List Nat :=
  match op, out with
  | .init _ _, _ => []
  | .startGame _, .result r => if r.code = .ok then [] else order
  | .startNextRound _, .result r => if r.code = .ok then [] else order
  | .playCards id _, .result r =>
    order ++ (e.seatOf id).toList.filter fun seat =>
      r.code == .ok && (e'.state.hands seat).isEmpty
  | _, _ => order

/-- The engine with the order of the round beside its state. -/
def finishEngine : Machine (GameEngine × List Nat) EngineOp EngineOut :=
  engine.withHistory recordFinish

/-! ### The settlement of a ranked table -/

/-- The two best of the ranks `1, …, 2 * k` that a team with the first of them has. -/
theorem sum_bestRanks {ranks : List Nat} {k : Nat} (hk : k = 2 ∨ k = 3) (hlen : ranks.length = k)
    (hnodup : ranks.Nodup) (hone : 1 ∈ ranks) (hrange : ∀ r ∈ ranks, 1 ≤ r ∧ r ≤ 2 * k) :
    3 ≤ ((ranks.insertionSort (· ≤ ·)).take 2).sum ∧
      ((ranks.insertionSort (· ≤ ·)).take 2).sum ≤ k + 3 := by
  have hperm := List.perm_insertionSort (· ≤ ·) ranks
  have hsorted := List.pairwise_insertionSort (· ≤ ·) ranks
  generalize ranks.insertionSort (· ≤ ·) = sorted at hperm hsorted
  have hlen' : sorted.length = k := hperm.length_eq.trans hlen
  have hnodup' := hperm.nodup_iff.2 hnodup
  have hone' : 1 ∈ sorted := hperm.mem_iff.2 hone
  have hrange' : ∀ r ∈ sorted, 1 ≤ r ∧ r ≤ 2 * k := fun r hr => hrange r (hperm.mem_iff.1 hr)
  rcases hk with rfl | rfl
  · obtain ⟨a, b, rfl⟩ := List.length_eq_two.1 hlen'
    simp only [List.mem_cons, List.not_mem_nil, or_false, List.pairwise_cons, List.nodup_cons,
      forall_eq_or_imp, forall_eq] at hone' hrange' hsorted hnodup'
    simp only [List.take_succ_cons, List.take_zero, List.sum_cons, List.sum_nil]
    omega
  · obtain ⟨a, b, c, rfl⟩ := List.length_eq_three.1 hlen'
    simp only [List.mem_cons, List.not_mem_nil, or_false, List.pairwise_cons, List.nodup_cons,
      forall_eq_or_imp, forall_eq] at hone' hrange' hsorted hnodup'
    simp only [List.take_succ_cons, List.take_zero, List.sum_cons, List.sum_nil]
    omega

/-- How much a settlement may raise the level, by the size of the teams. -/
structure UpgradeBounds (perTeam : Nat) (levelUpgrade : Int) : Prop where
  pairs : perTeam = 2 → 1 ≤ levelUpgrade ∧ levelUpgrade ≤ 3
  triples : perTeam = 3 → 4 ≤ levelUpgrade ∧ levelUpgrade ≤ 7

theorem UpgradeBounds.pos {perTeam : Nat} {levelUpgrade : Int} (h : UpgradeBounds perTeam levelUpgrade)
    (hper : perTeam = 2 ∨ perTeam = 3) : 0 < levelUpgrade := by
  rcases hper with hper | hper
  · have := h.pairs hper
    omega
  · have := h.triples hper
    omega

namespace GameState.Ranked

variable {s : GameState} {order : List Nat} {perTeam : Nat}

/-- The one seat of each rank. -/
theorem rank_eq_iff (h : Ranked s order) (hperm : order.Perm (List.range s.playerCount)) {i : Nat}
    (hi : i < s.playerCount) (k : Nat) :
    (s.players i).finishRank = k + 1 ↔ order[k]? = some i := by
  have hmem : i ∈ order := hperm.mem_iff.2 (List.mem_range.2 hi)
  rw [h.rank_of_mem hmem, Nat.succ_inj]
  constructor
  · rintro rfl
    exact List.getElem?_idxOf hmem
  · intro hk
    obtain ⟨hlt, heq⟩ := List.getElem?_eq_some_iff.1 hk
    rw [← heq]
    exact h.nodup.idxOf_getElem k hlt

theorem findRank_one (h : Ranked s order) (hperm : order.Perm (List.range s.playerCount))
    {head : Nat} (hhead : order[0]? = some head) : Settlement.findRank s 1 = some head := by
  have hlt : head < s.playerCount :=
    List.mem_range.1 (hperm.subset (List.mem_of_getElem? hhead))
  unfold Settlement.findRank
  rw [List.find?_range_eq_some]
  refine ⟨?_, List.mem_range.2 hlt, fun j hj => ?_⟩
  · rw [beq_iff_eq]
    exact (h.rank_eq_iff hperm hlt 0).2 hhead
  · rw [Bool.not_eq_true', beq_eq_false_iff_ne]
    intro hrank
    have hj' := (h.rank_eq_iff hperm (by omega) 0).1 hrank
    rw [hhead, Option.some.injEq] at hj'
    omega

/-- The ranks of the seats of a team. -/
theorem teamRanks (h : Ranked s order) (hperm : order.Perm (List.range s.playerCount))
    (hcount : s.playerCount = 2 * perTeam) (hper : perTeam = 2 ∨ perTeam = 3)
    (hteam : ∀ i < s.playerCount, (s.players i).team = seatTeam i) (team : Team) :
    let seats := (List.range s.playerCount).filter fun i =>
      (s.players i).team == team && 0 < (s.players i).finishRank
    (seats.map fun i => (s.players i).finishRank).length = perTeam ∧
      (seats.map fun i => (s.players i).finishRank).Nodup ∧
      ∀ r ∈ seats.map fun i => (s.players i).finishRank, 1 ≤ r ∧ r ≤ 2 * perTeam := by
  intro seats
  have hlt : ∀ i ∈ seats, i < s.playerCount := fun i hi =>
    List.mem_range.1 (List.mem_of_mem_filter hi)
  have hrank : ∀ i < s.playerCount, (s.players i).finishRank = order.idxOf i + 1 := fun i hi =>
    h.rank_of_mem (hperm.mem_iff.2 (List.mem_range.2 hi))
  refine ⟨?_, ?_, ?_⟩
  · have hcongr : (List.range s.playerCount).countP (fun i =>
        (s.players i).team == team && 0 < (s.players i).finishRank) =
        (List.range s.playerCount).countP fun i => seatTeam i == team := by
      refine List.countP_congr fun i hi => ?_
      rw [List.mem_range] at hi
      simp [hteam i hi, hrank i hi]
    rw [List.length_map, ← List.countP_eq_length_filter, hcongr, hcount]
    exact countP_seatTeam hper team
  · refine (List.nodup_range.filter _).map_on fun i hi j hj heq => ?_
    rw [hrank i (hlt i hi), hrank j (hlt j hj), Nat.succ_inj] at heq
    exact (List.idxOf_inj (hperm.mem_iff.2 (List.mem_range.2 (hlt i hi)))).1 heq
  · intro r hr
    obtain ⟨i, hi, rfl⟩ := List.mem_map.1 hr
    have hmem : i ∈ order := hperm.mem_iff.2 (List.mem_range.2 (hlt i hi))
    have hidx := List.idxOf_lt_length_of_mem hmem
    rw [hperm.length_eq, List.length_range, hcount] at hidx
    rw [hrank i (hlt i hi)]
    omega

/-- The settlement of a table where every seat has a rank: the team of the first wins, and how much
it gains is positive. -/
theorem calculate (h : Ranked s order) (hperm : order.Perm (List.range s.playerCount))
    (hcount : s.playerCount = 2 * perTeam) (hper : perTeam = 2 ∨ perTeam = 3)
    (hteam : ∀ i < s.playerCount, (s.players i).team = seatTeam i) :
    ∃ head < s.playerCount, (s.players head).finishRank = 1 ∧
      (Settlement.calculate s perTeam).winningTeam = some (s.players head).team ∧
      UpgradeBounds perTeam (Settlement.calculate s perTeam).levelUpgrade := by
  have hlen : order.length = 2 * perTeam := by rw [hperm.length_eq, List.length_range, hcount]
  obtain ⟨head, hhead⟩ : ∃ head, order[0]? = some head :=
    ⟨order[0], List.getElem?_eq_getElem (by omega)⟩
  have hlt : head < s.playerCount :=
    List.mem_range.1 (hperm.subset (List.mem_of_getElem? hhead))
  have hrank : (s.players head).finishRank = 1 := (h.rank_eq_iff hperm hlt 0).2 hhead
  obtain ⟨hlength, hnodup, hrange⟩ := h.teamRanks hperm hcount hper hteam (s.players head).team
  have hsum := sum_bestRanks hper hlength hnodup
    (List.mem_map.2 ⟨head, List.mem_filter.2 ⟨List.mem_range.2 hlt, by simp [hrank]⟩, hrank⟩) hrange
  refine ⟨head, hlt, hrank, ?_, fun hpairs => ?_, fun htriples => ?_⟩
  · rw [Settlement.calculate, h.findRank_one hperm hhead]
  · subst hpairs
    rw [Settlement.calculate, h.findRank_one hperm hhead]
    simp only [Settlement.sumWinningTeamRanks, show ¬ 3 ≤ 2 by decide, if_false]
    omega
  · subst htriples
    rw [Settlement.calculate, h.findRank_one hperm hhead]
    simp only [Settlement.sumWinningTeamRanks, Nat.le_refl, if_true]
    omega

end GameState.Ranked

/-! ### Settling a round -/

/-- The call ends the round: the table is ranked to the end, and settled. -/
structure Settles (e e' : GameEngine) (r : PlayResult) : Prop where
  playing : e.state.phase = .playing
  finished : e'.state.phase = .finished
  settled : ∃ s order, e'.state = { s with phase := .finished } ∧ Ranked s order ∧
    order.Perm (List.range s.playerCount) ∧ s.playerCount = 2 * e.config.playersPerTeam ∧
    (∀ i < s.playerCount, (s.players i).team = seatTeam i) ∧
    (e'.progress, r.settlement) =
      e.progress.applySettlement (Settlement.calculate s e.config.playersPerTeam)

structure RankInv (e : GameEngine) (order : List Nat) : Prop where
  ongoing : e.state.phase ≠ .finished → Ranked e.state order
  finished : e.state.phase = .finished → Ranked e.state (finalOrder e.state.playerCount order) ∧
    (finalOrder e.state.playerCount order).Perm (List.range e.state.playerCount)
  early : e.state.phase ≠ .playing → e.state.phase ≠ .finished → order = []

variable {e e' : GameEngine} {log : RoundLog} {order : List Nat} {r : PlayResult} {id : PlayerId}
  {cards : List CardId} {op : EngineOp} {out : EngineOut}

theorem GameState.Ranked.sameRanks {s s' : GameState} (h : Ranked s order)
    (hcount : s'.playerCount = s.playerCount) (hplayers : s'.players = s.players) :
    Ranked s' order :=
  h.congr hcount (fun i => by rw [hplayers]) (fun i => by rw [hplayers])

namespace RankInv

/-- A call that changes neither ranks nor the seats, and stays in its phase or in those before the
first play. -/
theorem keep (h : RankInv e order) (hcount : e'.state.playerCount = e.state.playerCount)
    (hfin : ∀ i, (e'.state.players i).hasFinished = (e.state.players i).hasFinished)
    (hrank : ∀ i, (e'.state.players i).finishRank = (e.state.players i).finishRank)
    (hphase : e'.state.phase = e.state.phase ∨
      (e.state.phase ≠ .playing ∧ e.state.phase ≠ .finished ∧ e'.state.phase ≠ .finished)) :
    RankInv e' order := by
  rcases hphase with heq | ⟨hp, hf, hf'⟩
  · refine ⟨fun hne => ?_, fun hover => ?_, fun h1 h2 => ?_⟩
    · exact (h.ongoing (heq ▸ hne)).congr hcount hfin hrank
    · obtain ⟨hranked, hperm⟩ := h.finished (heq ▸ hover)
      rw [hcount]
      exact ⟨hranked.congr hcount hfin hrank, hperm⟩
    · exact h.early (heq ▸ h1) (heq ▸ h2)
  · exact ⟨fun _ => (h.ongoing hf).congr hcount hfin hrank, fun hover => absurd hover hf',
      fun _ _ => h.early hp hf⟩

theorem keep_quiet (h : RankInv e order) (hq : SeatingInv.Quiet e e')
    (hphase : e'.state.phase = e.state.phase ∨
      (e.state.phase ≠ .playing ∧ e.state.phase ≠ .finished ∧ e'.state.phase ≠ .finished)) :
    RankInv e' order :=
  h.keep hq.playerCount (fun i => (hq.eqs i).2.2.2.1) (fun i => (hq.eqs i).2.2.2.2) hphase

/-- A deal leaves nobody with a rank. -/
theorem dealt {σ : Shuffle} {e₁ : GameEngine} (hranks : ∃ order, Ranked e.state order)
    (hdeal : e.dealRound σ = some e₁) (hq : SeatingInv.Quiet e₁ e')
    (hphase : e'.state.phase ≠ .finished) : RankInv e' [] := by
  obtain ⟨order, hranked⟩ := hranks
  obtain ⟨hands, -, rfl⟩ := dealRound_cases hdeal
  have hnone := hranked.toRankedBy.dealt hranked.seats hands
  refine ⟨fun _ => ⟨⟨fun i => ?_, fun i => ?_⟩, List.nodup_nil, by simp⟩,
    fun hover => absurd hover hphase, fun _ _ => rfl⟩
  · rw [(hq.eqs i).2.2.2.1]
    exact hnone.finished i
  · rw [(hq.eqs i).2.2.2.2]
    exact hnone.rank i

/-- At the end of a round every seat has its rank. -/
theorem settled {s : GameState} (hstate : e'.state = { s with phase := .finished })
    (hranked : Ranked s (finalOrder s.playerCount order))
    (hperm : (finalOrder s.playerCount order).Perm (List.range s.playerCount)) :
    RankInv e' order := by
  have hphase : e'.state.phase = .finished := by rw [hstate]
  refine ⟨fun hne => absurd hphase hne, fun _ => ?_, fun _ hne => absurd hphase hne⟩
  rw [hstate]
  exact ⟨hranked.sameRanks rfl rfl, hperm⟩

theorem recordFinish_playCards {seat : Nat} {pattern : CardPattern}
    (hok : Playable e id cards seat pattern) (hcode : r.code = .ok)
    (hframe : PlayFrame e e' seat cards pattern) :
    recordFinish order e (.playCards id cards) (.result r) e' =
      if (e.acceptPlay seat cards pattern).state.hands seat = [] then order ++ [seat]
      else order := by
  rw [recordFinish, hok.seated, Option.toList_some, hframe.seats.hands]
  by_cases hnil : (e.acceptPlay seat cards pattern).state.hands seat = []
  · simp [hcode, hnil]
  · simp [hnil]

/-- An accepted play: the seat has its rank behind the others if it is out now, and the round is
settled if its team is out with it. -/
theorem playCards (h : RankInv e order) (hseating : SeatingInv e log)
    (hplay : e.playCards id cards = some (e', r)) :
    RankInv e' (recordFinish order e (.playCards id cards) (.result r) e') ∧
      (r.code = .ok → e'.state.phase = .finished → Settles e e' r) := by
  rcases playCards_cases hplay with ⟨rfl, hcode, -⟩ | ⟨seat, pattern, hok, hcode, hrest⟩
  · refine ⟨?_, fun hok => absurd hok hcode⟩
    have hsame : recordFinish order e' (.playCards id cards) (.result r) e' = order := by
      simp [recordFinish, hcode]
    rw [hsame]
    exact h
  have hframe : PlayFrame e e' seat cards pattern := by
    rcases playCards_frame hplay with ⟨-, hno, -⟩ | ⟨seat', pattern', hok', -, hframe⟩
    · exact absurd hcode hno
    · obtain rfl := Option.some.inj (hok.seated.symm.trans hok'.seated)
      have hpattern := checkPlay_of_playable hok
      rw [checkPlay_of_playable hok'] at hpattern
      cases hpattern
      exact hframe
  rw [recordFinish_playCards hok hcode hframe]
  have hquiet := SeatingInv.quiet_acceptPlay e seat cards pattern
  have hlt := (seatOf_some hok.seated).1
  have hranked : Ranked (e.acceptPlay seat cards pattern).state order :=
    (h.ongoing (by simp [hok.phase])).congr rfl (fun i => (hquiet.eqs i).2.2.2.1)
      fun i => (hquiet.eqs i).2.2.2.2
  have hact : seat ∉ order := by
    rw [← hranked.active, GameState.active, (hquiet.eqs seat).2.2.2.1]
    exact hok.active
  have hout : Ranked ((e.acceptPlay seat cards pattern).goOut seat).state (order ++ [seat]) :=
    hranked.assignFinishRank hseating.count hlt hact
  rcases hrest with ⟨hsome, hturn⟩ | ⟨hnil, -, hturn⟩ | ⟨hnil, -, hfinish⟩
  · change (e.acceptPlay seat cards pattern).state.hands seat ≠ [] at hsome
    rw [if_neg hsome]
    obtain ⟨i, turn, rfl⟩ := passTurnOn_frame hturn
    refine ⟨⟨fun _ => hranked.sameRanks rfl rfl, fun hover => ?_, fun hp => absurd hok.phase hp⟩,
      fun _ hover => ?_⟩
    · exact absurd (hok.phase.symm.trans hover) (by decide)
    · exact absurd (hok.phase.symm.trans hover) (by decide)
  · change (e.acceptPlay seat cards pattern).state.hands seat = [] at hnil
    rw [if_pos hnil]
    obtain ⟨i, turn, rfl⟩ := passTurnOn_frame hturn
    refine ⟨⟨fun _ => hout.sameRanks rfl rfl, fun hover => ?_, fun hp => absurd hok.phase hp⟩,
      fun _ hover => ?_⟩
    · exact absurd (hok.phase.symm.trans hover) (by decide)
    · exact absurd (hok.phase.symm.trans hover) (by decide)
  · change (e.acceptPlay seat cards pattern).state.hands seat = [] at hnil
    rw [if_pos hnil]
    obtain ⟨hranked', hperm⟩ := hout.assignRemaining (by simp)
    have hsame := (sameSeats_assignFinishRank (e.acceptPlay seat cards pattern).state seat).trans
      (sameSeats_assignRemaining ((e.acceptPlay seat cards pattern).goOut seat).state)
    have hcount := hsame.playerCount
    have hst := hseating.started (by simp [hok.phase])
    have hteam : ∀ i < e.state.playerCount,
        (((e.acceptPlay seat cards pattern).goOut seat).state.assignRemainingFinishRanks.players
          i).team = seatTeam i := by
      intro i hi
      rw [← hseating.team i hi, ← (hquiet.eqs i).2.1]
      exact (PlayerState.unranked_eq (hsame.players i)).2.2.1
    have hn := (sameSeats_assignRemaining
      ((e.acceptPlay seat cards pattern).goOut seat).state).playerCount
    rw [← hn] at hranked' hperm
    cases hfinish
    refine ⟨.settled rfl hranked' hperm, fun _ _ => ⟨hok.phase, rfl, _, _, rfl, hranked', hperm,
      hcount.trans (hst.full.trans hseating.mode.facts.players), fun i hi => ?_, rfl⟩⟩
    exact hteam i (hcount ▸ hi)

/-- Every call keeps the order of the round. -/
theorem step (h : RankInv e order) (hround : RoundInv e log) (hok : CalledOp e op)
    (hstep : engine.step e op = some (e', out)) : RankInv e' (recordFinish order e op out e') := by
  have hseating := hround.seating
  have hranks : ∃ order, Ranked e.state order :=
    hseating.ranks.imp fun _ hranked => hranked.1
  cases engine_step hstep with
  | init hinit =>
    obtain ⟨order', hranked, hnone⟩ := (hseating.init hinit).ranks
    have hphase : e'.state.phase = .waiting := by
      unfold GameEngine.init at hinit
      split_ifs at hinit
      cases hinit
      rfl
    have hnil : order' = [] := hnone (by simp [hphase]) (by simp [hphase])
    rw [hnil] at hranked
    exact ⟨fun _ => hranked, fun hover => absurd (hphase.symm.trans hover) nofun, fun _ _ => rfl⟩
  | setPlayerReady id ready =>
    have hplayers : ∀ i, ((e.setPlayerReady id ready).state.players i).hasFinished =
        (e.state.players i).hasFinished ∧ ((e.setPlayerReady id ready).state.players i).finishRank =
        (e.state.players i).finishRank := by
      intro i
      unfold GameEngine.setPlayerReady
      rcases e.state.getPlayerById id with _ | seat
      · exact ⟨rfl, rfl⟩
      · by_cases hi : i = seat
        · subst hi
          simp
        · simp [hi]
    obtain ⟨-, hcount, hphase, -⟩ := setPlayerReady_frame e id ready
    exact h.keep hcount (fun i => (hplayers i).1) (fun i => (hplayers i).2) (.inl hphase)
  | updateConfig config =>
    unfold GameEngine.updateConfig
    split_ifs
    · exact h
    · exact ⟨h.ongoing, h.finished, h.early⟩
  | startGame hstart =>
    rcases startGame_cases hstart with ⟨rfl, hcode⟩ | ⟨hphase, -, rfl, e₁, hdeal, rfl⟩
    · rw [recordFinish, if_neg hcode]
      exact h
    · exact .dealt (e := { e with previousRound := {} }) hranks hdeal
        ⟨rfl, rfl, rfl, rfl, fun _ => rfl⟩ nofun
  | startGameThrew σ hnone =>
    have hsome := hseating.startGame_isSome σ
    rw [hnone] at hsome
    cases hsome
  | startNextRound hstart =>
    rcases startNextRound_cases hstart with ⟨rfl, hcode⟩ | ⟨hphase, rfl, e₁, hdeal, htribute⟩
    · rw [recordFinish, if_neg hcode]
      exact h
    · obtain ⟨plan, -, ⟨result, -, rfl⟩ | ⟨-, -, rfl⟩⟩ := startTribute_cases htribute
      · exact .dealt hranks hdeal ⟨rfl, rfl, rfl, rfl, fun _ => rfl⟩ nofun
      · exact .dealt hranks hdeal ⟨rfl, rfl, rfl, rfl, fun _ => rfl⟩ nofun
  | startNextRoundThrew σ hnone =>
    have hsome := hround.startNextRound_isSome σ
    rw [hnone] at hsome
    cases hsome
  | playCards hplay => exact (h.playCards hseating hplay).1
  | pass hpass =>
    obtain ⟨hplayers, hcount, -, hphase, -⟩ := pass_frame hpass
    exact h.keep hcount (fun i => by rw [hplayers]) (fun i => by rw [hplayers]) (.inl hphase)
  | submitTribute hsubmit =>
    rcases submitTribute_cases hsubmit with ⟨rfl, -⟩ | ⟨seat, hphase, -, -, -, -, hrest⟩
    · exact h
    rcases hrest with ⟨-, rfl, -⟩ | ⟨-, hclose⟩
    · exact h.keep rfl (fun _ => rfl) (fun _ => rfl) (.inl rfl)
    · obtain ⟨s, result, -, hsame, -, hplayers, hrest⟩ := closeTributes_frame hclose
      refine h.keep hsame.playerCount (fun i => by rw [hplayers]; rfl)
        (fun i => by rw [hplayers]; rfl) (.inr ⟨by simp [hphase], by simp [hphase], ?_⟩)
      rcases hrest with ⟨-, hp⟩ | ⟨-, rfl⟩
      · simp [hp]
      · nofun
  | submitReturn hsubmit =>
    rcases submitReturn_cases hsubmit with ⟨rfl, -⟩ | ⟨seat, hphase, -, -, -, -, rfl, -⟩
    · exact h
    · obtain ⟨hq, hp⟩ := SeatingInv.quiet_recordReturn e seat _
      exact h.keep_quiet hq (.inl hp)
  | finalizeTributePhase hfin =>
    have hphase := phase_of_pending (e := e) hok
    obtain ⟨hsame, -, hplayers, hp⟩ := finishTributePhase_frame hfin
    refine h.keep hsame.playerCount (fun i => by rw [hplayers]) (fun i => by rw [hplayers])
      (.inr ⟨?_, ?_, by simp [hp]⟩)
    · rcases hphase with hp' | hp' <;> simp [hp']
    · rcases hphase with hp' | hp' <;> simp [hp']
  | buildViewFor _ => exact h

end RankInv

/-! ### Along a run -/

theorem rankInv_reachable {mode : String} {sg : GameEngine × List Nat}
    (h : finishEngine.Reachable (fun sg => CalledOp sg.1) ((newEngine mode).1, []) sg) :
    RankInv sg.1 sg.2 ∧ ∃ log, RoundInv sg.1 log := by
  refine h.invariant (P := fun sg => RankInv sg.1 sg.2 ∧ ∃ log, RoundInv sg.1 log) ⟨?_, ?_⟩ ?_
  · refine ⟨fun _ => ⟨⟨fun i => ?_, fun i => ?_⟩, List.nodup_nil, ?_⟩, nofun, fun _ _ => rfl⟩
    all_goals simp [newEngine, GameEngine.new]
  · exact ⟨_, roundInv_newEngine mode⟩
  · rintro sg op sg' out ⟨hrank, log, hround⟩ hok hstep
    obtain ⟨happly, horder⟩ := Machine.withHistory_step.1 hstep
    rw [horder]
    exact ⟨hrank.step hround hok happly, _, hround.step hok happly⟩

/-- In every state that an engine of a mode reaches while the tribute phase is finalized only when it is
on (`CalledOp`): while a round is on, the finished seats are ranked `1, …, f` in the order in which their
hands were emptied; at its end every seat has a rank, that order being extended by the other seats in
the order of the seats after the last of it; and the play that ends a round is settled for the team of
rank 1, by 1 to 3 levels if a team has two players and by 4 to 7 if it has three. -/
theorem round_ranks (mode : String) (sg : GameEngine × List Nat)
    (h : finishEngine.Reachable (fun sg => CalledOp sg.1) ((newEngine mode).1, []) sg) :
    (sg.1.state.phase ≠ .finished → Ranked sg.1.state sg.2) ∧
    (sg.1.state.phase = .finished →
      Ranked sg.1.state (finalOrder sg.1.state.playerCount sg.2) ∧
        (finalOrder sg.1.state.playerCount sg.2).Perm (List.range sg.1.state.playerCount)) ∧
    ∀ id cards e' r, sg.1.playCards id cards = some (e', r) → r.code = .ok →
      e'.state.phase = .finished →
      (sg.1.config.playersPerTeam = 2 ∨ sg.1.config.playersPerTeam = 3) ∧
      (∀ seat < e'.state.playerCount, (e'.state.players seat).finishRank = 1 →
        r.settlement.winningTeam = some (e'.state.players seat).team) ∧
      UpgradeBounds sg.1.config.playersPerTeam r.settlement.levelUpgrade ∧
      0 < r.settlement.levelUpgrade := by
  obtain ⟨hrank, log, hround⟩ := rankInv_reachable h
  refine ⟨hrank.ongoing, hrank.finished, fun id cards e' r hplay hcode hover => ?_⟩
  have hper := hround.seating.mode.facts.perTeam
  obtain ⟨-, -, s, order, hstate, hranked, hperm, hcount, hteam, happly⟩ :=
    (hrank.playCards hround.seating hplay).2 hcode hover
  obtain ⟨head, hlt, hone, hwin, hbounds⟩ := hranked.calculate hperm hcount hper hteam
  have hpos := hbounds.pos hper
  obtain ⟨-, hwin', hup, -⟩ := TeamProgress.applySettlement_cases hwin hpos happly.symm
  rw [hup]
  refine ⟨hper, fun seat hseat hrank1 => ?_, hbounds, hpos⟩
  rw [hstate] at hseat hrank1 ⊢
  have hfirst := (hranked.rank_eq_iff hperm hseat 0).1 hrank1
  rw [(hranked.rank_eq_iff hperm hlt 0).1 hone, Option.some.injEq] at hfirst
  rw [hwin', hfirst]

theorem round_ranks_doubleDown : ∃ sg,
    finishEngine.run ((newEngine "solo").1, []) doubleDown = some sg ∧ sg.2 = [0, 2] ∧
    Ranked sg.1.state (finalOrder 4 sg.2) ∧ finalOrder 4 sg.2 = [0, 2, 3, 1] := by
  have hok : finishEngine.Follows (fun sg => CalledOp sg.1) ((newEngine "solo").1, []) doubleDown :=
    .of_forall (by simp [doubleDown, startSolo, CalledOp])
  obtain ⟨sg, hrun, hphase, hcount, horder⟩ := Machine.exists_run_of_any
    (M := finishEngine) (s := ((newEngine "solo").1, []))
    (P := fun sg => sg.1.state.phase = .finished ∧ sg.1.state.playerCount = 4 ∧ sg.2 = [0, 2])
    (l := doubleDown) (by decide +kernel)
  have hranked := ((round_ranks "solo" sg (Machine.reachable_of_run hok hrun)).2.1 hphase).1
  rw [hcount] at hranked
  exact ⟨sg, hrun, horder, hranked, by rw [horder]; decide⟩

end Guandan
