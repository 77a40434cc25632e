import Guandan.Engine.Ranks

/-!
# How a round begins

What a deal leaves in the hands, and which seats the plan of the tribute phase names. With the ranks
of a finished round (`RankRecord`) the plan is read off its finish order: tributers and recipients
are different seats, as many of the one as of the other.
-/

namespace Guandan

namespace GameEngine

variable {e e' : GameEngine} {σ : Shuffle} {hands : List (List CardId)}

/-! ### The deal -/

/-- The hands of a deal: one for each seat, of one size, and no card twice. -/
structure DealtHands (e : GameEngine) (σ : Shuffle) (hands : List (List CardId)) : Prop where
  length : hands.length = e.state.playerCount
  size : ∀ hand ∈ hands, hand.length =
    Deck.handSize (54 * e.config.deckCount) e.state.playerCount (cardsPerPlayer e.config)
  nodup : hands.flatten.Nodup
  deck : ∀ id ∈ hands.flatten, id ∈ (e.shuffled σ).map (·.id)

theorem length_shuffled (e : GameEngine) (σ : Shuffle) :
    (e.shuffled σ).length = 54 * e.config.deckCount := by
  rw [shuffled, (σ.perm _).length_eq, length_createFullDeck]

theorem dealtHands_spec (hm : ModeFacts e.config) (h : e.dealtHands σ = some hands) :
    DealtHands e σ hands := by
  obtain ⟨hlen, hsize, hsub⟩ := Deck.deal_spec h
  refine ⟨hlen, ?_, ?_, fun id hid => hsub.subset hid⟩
  · rw [← length_shuffled e σ]
    exact hsize
  · obtain ⟨l, hperm, hsubl⟩ := hsub
    exact hperm.nodup_iff.1 (hsubl.nodup (hm.nodup_ids σ))

theorem hands_dealt (hands : List (List CardId)) (players : Nat → PlayerState) {n i : Nat}
    (hi : i < n) : (dealtPlayer n hands players i).hand.cards = hands.getD i [] := by
  rw [dealtPlayer, if_pos hi]
  rfl

/-- A deal leaves the table, the rules and the record of the last round alone. -/
theorem dealRound_frame (h : e.dealRound σ = some e') :
    e'.state.playerCount = e.state.playerCount ∧ e'.config = e.config ∧
      e'.previousRound = e.previousRound := by
  obtain ⟨hands, -, rfl⟩ := dealRound_cases h
  exact ⟨rfl, rfl, rfl⟩

/-- After the deal the hands hold what was dealt. -/
theorem handBag_dealRound (hm : ModeFacts e.config) (h : e.dealRound σ = some e') :
    e'.state.handBag = (((e.dealtHands σ).getD []).flatten : Multiset CardId) ∧
      ((e.dealtHands σ).getD []).flatten.Nodup := by
  obtain ⟨hands, hhands, rfl⟩ := dealRound_cases h
  have hspec := dealtHands_spec hm hhands
  rw [hhands, Option.getD_some]
  refine ⟨?_, hspec.nodup⟩
  rw [← Bags.bag_getD, hspec.length]
  exact Bags.bag_congr fun i hi => hands_dealt _ _ hi

end GameEngine

/-! ### The plan -/

namespace TributeManager

variable {s : GameState} {config : GameRuleConfig} {previous : PreviousRoundInfo}
  {plan : TributePhasePlan}

/-- The ranks that pay tribute and the seats that receive it. -/
inductive Down (s : GameState) (config : GameRuleConfig) (previous : PreviousRoundInfo)
    (head : Nat) : List Nat → List Nat → Prop
  | triple {second third : Nat} : 3 ≤ config.playersPerTeam →
      seatByFinishRank previous 2 s.playerCount = some second →
      seatByFinishRank previous 3 s.playerCount = some third →
      Down s config previous head [4, 5, 6] [head, second, third]
  | singleOfSix : 3 ≤ config.playersPerTeam → Down s config previous head [6] [head]
  | double {second : Nat} : ¬ 3 ≤ config.playersPerTeam →
      seatByFinishRank previous 2 s.playerCount = some second →
      Down s config previous head [3, 4] [head, second]
  | singleOfFour : ¬ 3 ≤ config.playersPerTeam → Down s config previous head [4] [head]

theorem seatByFinishRank_lt {rank n seat : Nat} (h : seatByFinishRank previous rank n = some seat) :
    seat < n :=
  List.mem_range.1 (List.mem_of_find?_eq_some h)

theorem sameTeam_some {head : Nat} {seat : Option Nat} (h : sameTeam s head seat = true) :
    ∃ i, seat = some i ∧ (s.players head).team = (s.players i).team := by
  rcases seat with _ | i
  · cases h
  · exact ⟨i, rfl, by simpa [sameTeam] using h⟩

theorem planRound_cases (h : planRound s config previous = some plan) :
    (plan.skipped = true ∧ plan.tributerSeats = [] ∧ plan.recipientSeats = [] ∧
      (0 < s.playerCount → plan.headSeat < s.playerCount)) ∨
    ∃ head ranks recipients summary anti, config.enableTribute = true ∧ previous.valid = true ∧
      seatByFinishRank previous 1 s.playerCount = some head ∧
      Down s config previous head ranks recipients ∧
      plan = withAntiTribute (downPlan previous s.playerCount head ranks recipients summary) anti
    := by
  unfold planRound at h
  by_cases hskip : (!config.enableTribute || !previous.valid) = true
  · rw [if_pos hskip] at h
    cases h
    refine .inl ⟨rfl, rfl, rfl, fun hpos => ?_⟩
    show (seatByFinishRank previous 1 s.playerCount).getD 0 < s.playerCount
    rcases hhead : seatByFinishRank previous 1 s.playerCount with _ | head
    · exact hpos
    · exact seatByFinishRank_lt hhead
  rw [if_neg hskip] at h
  rcases hhead : seatByFinishRank previous 1 s.playerCount with _ | head <;>
    rw [hhead] at h <;> dsimp only at h
  · cases h
    exact .inl ⟨rfl, rfl, rfl, fun hpos => hpos⟩
  right
  have hon : config.enableTribute = true ∧ previous.valid = true := by simpa using hskip
  by_cases hsix : 3 ≤ config.playersPerTeam
  · rw [if_pos hsix, Option.map_eq_some_iff] at h
    obtain ⟨anti, -, rfl⟩ := h
    split_ifs with hdown
    · rw [Bool.and_eq_true] at hdown
      obtain ⟨second, hsecond, -⟩ := sameTeam_some hdown.1
      obtain ⟨third, hthird, -⟩ := sameTeam_some hdown.2
      rw [hsecond, hthird]
      exact ⟨head, _, _, _, anti, hon.1, hon.2, rfl, .triple hsix hsecond hthird, rfl⟩
    · exact ⟨head, _, _, _, anti, hon.1, hon.2, rfl, .singleOfSix hsix, rfl⟩
  · rw [if_neg hsix, Option.map_eq_some_iff] at h
    obtain ⟨anti, -, rfl⟩ := h
    split_ifs with hdown
    · obtain ⟨second, hsecond, -⟩ := sameTeam_some hdown
      rw [hsecond]
      exact ⟨head, _, _, _, anti, hon.1, hon.2, rfl, .double hsix hsecond, rfl⟩
    · exact ⟨head, _, _, _, anti, hon.1, hon.2, rfl, .singleOfFour hsix, rfl⟩

@[simp] theorem withAntiTribute_tributerSeats (plan : TributePhasePlan) (anti : Bool) :
    (withAntiTribute plan anti).tributerSeats = plan.tributerSeats := by
  cases anti <;> rfl

@[simp] theorem withAntiTribute_recipientSeats (plan : TributePhasePlan) (anti : Bool) :
    (withAntiTribute plan anti).recipientSeats = plan.recipientSeats := by
  cases anti <;> rfl

@[simp] theorem withAntiTribute_headSeat (plan : TributePhasePlan) (anti : Bool) :
    (withAntiTribute plan anti).headSeat = plan.headSeat := by
  cases anti <;> rfl

theorem planRound_tributer_lt (h : planRound s config previous = some plan) :
    ∀ seat ∈ plan.tributerSeats, seat < s.playerCount := by
  rcases planRound_cases h with
    ⟨-, h1, -, -⟩ | ⟨head, ranks, recipients, summary, anti, -, -, -, -, rfl⟩
  · simp [h1]
  · intro seat hseat
    rw [withAntiTribute_tributerSeats] at hseat
    obtain ⟨rank, -, hrank⟩ := List.mem_filterMap.1 hseat
    exact seatByFinishRank_lt hrank

theorem planRound_recipient_lt (h : planRound s config previous = some plan) :
    ∀ seat ∈ plan.recipientSeats, seat < s.playerCount := by
  rcases planRound_cases h with
    ⟨-, -, h2, -⟩ | ⟨head, ranks, recipients, summary, anti, -, -, hhead, hdown, rfl⟩
  · simp [h2]
  · intro seat hseat
    rw [withAntiTribute_recipientSeats] at hseat
    cases hdown with
    | triple _ h2 h3 =>
      simp only [downPlan, List.mem_cons, List.not_mem_nil, or_false] at hseat
      rcases hseat with rfl | rfl | rfl
      · exact seatByFinishRank_lt hhead
      · exact seatByFinishRank_lt h2
      · exact seatByFinishRank_lt h3
    | singleOfSix _ =>
      rw [List.mem_singleton.1 hseat]
      exact seatByFinishRank_lt hhead
    | double _ h2 =>
      simp only [downPlan, List.mem_cons, List.not_mem_nil, or_false] at hseat
      rcases hseat with rfl | rfl
      · exact seatByFinishRank_lt hhead
      · exact seatByFinishRank_lt h2
    | singleOfFour _ =>
      rw [List.mem_singleton.1 hseat]
      exact seatByFinishRank_lt hhead

theorem planRound_head_lt (hpos : 0 < s.playerCount) (h : planRound s config previous = some plan) :
    plan.headSeat < s.playerCount := by
  rcases planRound_cases h with
    ⟨-, -, -, hhead⟩ | ⟨head, ranks, recipients, summary, anti, -, -, hhead, -, rfl⟩
  · exact hhead hpos
  · rw [withAntiTribute_headSeat]
    exact seatByFinishRank_lt hhead

/-! ### The plan after a finished round -/

/-- The record of a round in which the seats finished in this order. -/
structure RankRecord (previous : PreviousRoundInfo) (n : Nat) (order : List Nat) : Prop where
  valid : previous.valid = true
  perm : order.Perm (List.range n)
  rank : ∀ seat < n, previous.finishRankBySeat seat = order.idxOf seat + 1

namespace RankRecord

variable {n : Nat} {order : List Nat}

theorem nodup (h : RankRecord previous n order) : order.Nodup := h.perm.nodup_iff.2 List.nodup_range

theorem length (h : RankRecord previous n order) : order.length = n := by
  rw [h.perm.length_eq, List.length_range]

theorem lt_of_mem (h : RankRecord previous n order) {seat : Nat} (hseat : seat ∈ order) : seat < n :=
  List.mem_range.1 (h.perm.subset hseat)

/-- The seat of a rank is at its place in the order. -/
theorem seatByFinishRank (h : RankRecord previous n order) (rank : Nat) (hrank : 0 < rank) :
    seatByFinishRank previous rank n = order[rank - 1]? := by
  rcases hfind : TributeManager.seatByFinishRank previous rank n with _ | seat
  · -- nobody has the rank, so the order is too short for it
    symm
    rw [List.getElem?_eq_none_iff]
    by_contra hlt
    push Not at hlt
    have hseat := h.lt_of_mem (List.getElem_mem hlt)
    have hnot := List.find?_eq_none.1 hfind _ (List.mem_range.2 hseat)
    rw [h.rank _ hseat, h.nodup.idxOf_getElem] at hnot
    exact hnot (by simp only [beq_iff_eq]; omega)
  · have hseat := seatByFinishRank_lt hfind
    have heq : previous.finishRankBySeat seat = rank := by simpa using List.find?_some hfind
    rw [h.rank seat hseat] at heq
    have hmem : seat ∈ order := h.perm.mem_iff.2 (List.mem_range.2 hseat)
    rw [← heq, Nat.add_sub_cancel, List.getElem?_idxOf hmem]

theorem exists_four (h : RankRecord previous n order) (hn : n = 4) :
    ∃ a b c d, order = [a, b, c, d] := by
  match order, h.length.trans hn with
  | [a, b, c, d], _ => exact ⟨a, b, c, d, rfl⟩

theorem exists_six (h : RankRecord previous n order) (hn : n = 6) :
    ∃ a b c d x y, order = [a, b, c, d, x, y] := by
  match order, h.length.trans hn with
  | [a, b, c, d, x, y], _ => exact ⟨a, b, c, d, x, y, rfl⟩

end RankRecord

/-- Tributers and recipients are different seats of the table, as many of the one as of the other;
and there are some unless tribute is skipped. -/
structure PlanSeats (plan : TributePhasePlan) (n : Nat) : Prop where
  nodup : (plan.tributerSeats ++ plan.recipientSeats).Nodup
  length : plan.tributerSeats.length = plan.recipientSeats.length
  lt : ∀ seat ∈ plan.tributerSeats ++ plan.recipientSeats, seat < n
  nonempty : plan.skipped = false → plan.tributerSeats ≠ []
  head : plan.skipped = false → plan.recipientSeats.head? = some plan.headSeat

theorem PlanSeats.headSeat_lt {plan : TributePhasePlan} {n : Nat} (h : PlanSeats plan n)
    (hstarted : plan.skipped = false) : plan.headSeat < n := by
  refine h.lt _ (List.mem_append_right _ ?_)
  exact List.mem_of_mem_head? (h.head hstarted)

theorem PlanSeats.of_sublist {n : Nat} {order : List Nat} (hr : RankRecord previous n order)
    (hsub : (plan.recipientSeats ++ plan.tributerSeats).Sublist order)
    (hlen : plan.tributerSeats.length = plan.recipientSeats.length)
    (hsome : plan.tributerSeats ≠ [])
    (hhead : plan.recipientSeats.head? = some plan.headSeat) : PlanSeats plan n := by
  refine ⟨?_, hlen, fun seat hseat => ?_, fun _ => hsome, fun _ => hhead⟩
  · exact List.nodup_append_comm.1 (hsub.nodup hr.nodup)
  · exact hr.lt_of_mem (hsub.subset (by simpa [or_comm] using hseat))

/-- After a finished round of a mode the plan is read off the finish order. -/
theorem planSeats_of_record {order : List Nat} (hm : ModeFacts config)
    (hn : s.playerCount = config.playerCount) (hr : RankRecord previous s.playerCount order)
    (h : planRound s config previous = some plan) : PlanSeats plan s.playerCount := by
  rcases planRound_cases h with ⟨hskip, h1, h2, -⟩ |
    ⟨head, ranks, recipients, summary, anti, -, -, hhead, hdown, rfl⟩
  · refine ⟨by simp [h1, h2], by simp [h1, h2], by simp [h1, h2], ?_, ?_⟩
    · simp [hskip]
    · simp [hskip]
  have hseat := hr.seatByFinishRank
  have hplayers := hm.players
  rw [hseat 1 (by decide)] at hhead
  cases hdown with
  | triple hsix h2 h3 =>
    obtain ⟨a, b, c, d, x, y, rfl⟩ := hr.exists_six (by rcases hm.perTeam with h | h <;> omega)
    rw [hseat 2 (by decide)] at h2
    rw [hseat 3 (by decide)] at h3
    cases hhead
    cases h2
    cases h3
    refine .of_sublist hr ?_ ?_ ?_ ?_ <;> simp [downPlan, hseat]
  | singleOfSix hsix =>
    obtain ⟨a, b, c, d, x, y, rfl⟩ := hr.exists_six (by rcases hm.perTeam with h | h <;> omega)
    cases hhead
    refine .of_sublist hr ?_ ?_ ?_ ?_ <;> simp [downPlan, hseat]
  | double hfour h2 =>
    obtain ⟨a, b, c, d, rfl⟩ := hr.exists_four (by rcases hm.perTeam with h | h <;> omega)
    rw [hseat 2 (by decide)] at h2
    cases hhead
    cases h2
    refine .of_sublist hr ?_ ?_ ?_ ?_ <;> simp [downPlan, hseat]
  | singleOfFour hfour =>
    obtain ⟨a, b, c, d, rfl⟩ := hr.exists_four (by rcases hm.perTeam with h | h <;> omega)
    cases hhead
    refine .of_sublist hr ?_ ?_ ?_ ?_ <;> simp [downPlan, hseat]

end TributeManager

end Guandan
