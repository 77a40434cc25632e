import Guandan.Game.Card
import Mathlib.Data.List.Perm.Basic
import Mathlib.Data.List.Nodup

/-!
# Shuffling and dealing

`deck.cpp`. A shuffle is any rearrangement of the deck (`Shuffle`). `deal` throws (`none`) without
players, and when the cards do not suffice or do not divide evenly. What a deal that succeeds looks
like is `Deck.deal_spec`: hands of one length whose cards are, together, distinct cards of the deck.
When it succeeds for a full deck, and what becomes of its ids, is `deal_partition`.
-/

namespace Guandan

/-- A rearrangement of the cards, whatever they are. -/
structure Shuffle where
  run : List Card → List Card
  perm : ∀ cards, (run cards).Perm cards

namespace Shuffle

/-- The shuffle that moves the card `id` to the front and then does nothing else. -/
def toFront (id : CardId) : Shuffle where
  run cards := cards.filter (·.id == id) ++ cards.filter (!·.id == id)
  perm cards := List.filter_append_perm (·.id == id) cards

def comp (s t : Shuffle) : Shuffle where
  run cards := s.run (t.run cards)
  perm cards := (s.perm _).trans (t.perm cards)

/-- The shuffle that puts the cards with the given ids on top, in this order. -/
def stack : List CardId → Shuffle
  | [] => ⟨fun cards => cards, fun cards => .refl cards⟩
  | id :: ids => (toFront id).comp (stack ids)

end Shuffle

namespace Deck

/-- `playerCount` blocks of `cardsPerPlayer` cards, the cursor being the list that is left. -/
def dealBlocks (cardsPerPlayer : Nat) : Nat → List Card → List (List CardId)
  | 0, _ => []
  | players + 1, cards =>
    (cards.take cardsPerPlayer).map (·.id) ::
      dealBlocks cardsPerPlayer players (cards.drop cardsPerPlayer)

/-- Card `i` goes to player `i % playerCount`. -/
def dealStep (playerCount : Nat) (hands : List (List CardId)) (card : Card × Nat) :
    List (List CardId) :=
  hands.modify (card.2 % playerCount) (· ++ [card.1.id])

def dealRoundRobin (playerCount : Nat) (cards : List Card) : List (List CardId) :=
  cards.zipIdx.foldl (dealStep playerCount) (List.replicate playerCount [])

def deal (cards : List Card) (playerCount cardsPerPlayer : Nat) : Option (List (List CardId)) :=
  if playerCount = 0 then none
  else if 0 < cardsPerPlayer then
    if cards.length < playerCount * cardsPerPlayer then none
    else some (dealBlocks cardsPerPlayer playerCount cards)
  else if cards.length % playerCount ≠ 0 then none
  else some (dealRoundRobin playerCount cards)

/-! ### Blocks -/

theorem length_dealBlocks (k n : Nat) (cards : List Card) : (dealBlocks k n cards).length = n := by
  induction n generalizing cards with
  | zero => rfl
  | succ n ih => simp [dealBlocks, ih]

theorem flatten_dealBlocks (k n : Nat) (cards : List Card) :
    (dealBlocks k n cards).flatten = (cards.take (n * k)).map (·.id) := by
  induction n generalizing cards with
  | zero => simp [dealBlocks]
  | succ n ih =>
    rw [dealBlocks, List.flatten_cons, ih, ← List.map_append, Nat.succ_mul, Nat.add_comm,
      List.take_add]

theorem mem_dealBlocks_length {k n : Nat} {cards : List Card} (h : n * k ≤ cards.length) :
    ∀ hand ∈ dealBlocks k n cards, hand.length = k := by
  induction n generalizing cards with
  | zero => simp [dealBlocks]
  | succ n ih =>
    rw [Nat.succ_mul] at h
    intro hand hmem
    rw [dealBlocks, List.mem_cons] at hmem
    rcases hmem with rfl | hmem
    · simp only [List.length_map, List.length_take]
      omega
    · exact ih (by rw [List.length_drop]; omega) hand hmem

/-! ### Round robin -/

theorem length_dealStep (n : Nat) (hands : List (List CardId)) (card : Card × Nat) :
    (dealStep n hands card).length = hands.length := by
  simp [dealStep]

theorem flatten_modify_append {hands : List (List CardId)} {p : Nat} (hp : p < hands.length)
    (id : CardId) : (hands.modify p (· ++ [id])).flatten.Perm (id :: hands.flatten) := by
  induction hands generalizing p with
  | nil => simp at hp
  | cons hand hands ih =>
    cases p with
    | zero =>
      simp only [List.modify_zero_cons, List.flatten_cons, List.append_assoc, List.singleton_append]
      exact List.perm_middle
    | succ p =>
      simp only [List.modify_succ_cons, List.flatten_cons]
      exact ((ih (by simpa using hp)).append_left hand).trans List.perm_middle

/-- The hands while the cards from index `start` on are still to be dealt. -/
structure Dealing (n start : Nat) (hands : List (List CardId)) : Prop where
  players : hands.length = n
  size : ∀ p (hp : p < hands.length), hands[p].length = (start + n - 1 - p) / n

theorem dealing_step {n start : Nat} {hands : List (List CardId)} (hn : 0 < n) (card : Card)
    (h : Dealing n start hands) : Dealing n (start + 1) (dealStep n hands (card, start)) := by
  refine ⟨by rw [length_dealStep, h.players], fun p hp => ?_⟩
  rw [length_dealStep] at hp
  have hpn : p < n := h.players ▸ hp
  have hsize := h.size p hp
  have hshift : start + 1 + n - 1 - p = start + n - 1 - p + 1 := by omega
  rw [hshift, Nat.succ_div]
  simp only [dealStep, List.getElem_modify]
  -- the turn of seat `p` comes exactly when the next quotient is reached
  have hiff : n ∣ start + n - 1 - p + 1 ↔ start % n = p := by
    have hsub : start + n - 1 - p + 1 = start + (n - p) := by omega
    have hmod := Nat.mod_lt start hn
    rw [hsub, Nat.dvd_iff_mod_eq_zero, Nat.add_mod]
    by_cases hp0 : p = 0
    · subst hp0
      simp
    · rw [Nat.mod_eq_of_lt (by omega : n - p < n)]
      by_cases hle : start % n + (n - p) < n
      · rw [Nat.mod_eq_of_lt hle]
        omega
      · rw [Nat.mod_eq_sub_mod (by omega), Nat.mod_eq_of_lt (by omega)]
        omega
  by_cases hturn : start % n = p
  · simp [hturn, hiff.2 hturn, hsize]
  · simp [hturn, hiff, hsize]

theorem dealing_foldl {n : Nat} (hn : 0 < n) (cards : List Card) (start : Nat)
    (hands : List (List CardId)) (h : Dealing n start hands) :
    Dealing n (start + cards.length) ((cards.zipIdx start).foldl (dealStep n) hands) ∧
      ((cards.zipIdx start).foldl (dealStep n) hands).flatten.Perm
        (cards.map (·.id) ++ hands.flatten) := by
  induction cards generalizing start hands with
  | nil => exact ⟨h, .refl _⟩
  | cons card cards ih =>
    rw [List.zipIdx_cons, List.foldl_cons]
    obtain ⟨hdeal, hperm⟩ := ih (start + 1) _ (dealing_step hn card h)
    refine ⟨by simpa [Nat.add_assoc, Nat.add_comm, Nat.add_left_comm] using hdeal, ?_⟩
    have hlt : start % n < hands.length := by
      rw [h.players]
      exact Nat.mod_lt start hn
    exact hperm.trans (((flatten_modify_append hlt card.id).append_left _).trans List.perm_middle)

/-! ### What a deal looks like -/

/-- The number of cards each player is dealt. -/
def handSize (deckSize playerCount cardsPerPlayer : Nat) : Nat :=
  if 0 < cardsPerPlayer then cardsPerPlayer else deckSize / playerCount

theorem deal_spec {cards : List Card} {n k : Nat} {hands : List (List CardId)}
    (h : deal cards n k = some hands) :
    hands.length = n ∧ (∀ hand ∈ hands, hand.length = handSize cards.length n k) ∧
      hands.flatten.Subperm (cards.map (·.id)) := by
  unfold deal at h
  split_ifs at h with hn hk hlen hdiv
  · cases h
    refine ⟨length_dealBlocks .., ?_, ?_⟩
    · rw [handSize, if_pos hk]
      exact mem_dealBlocks_length (by omega)
    · rw [flatten_dealBlocks, List.map_take]
      exact (List.take_sublist _ _).subperm
  · cases h
    have hn' : 0 < n := Nat.pos_of_ne_zero hn
    have hstart : Dealing n 0 (List.replicate n []) := by
      refine ⟨by simp, fun p hp => ?_⟩
      simp only [List.length_replicate] at hp
      simp only [List.getElem_replicate, List.length_nil]
      exact (Nat.div_eq_of_lt (by omega)).symm
    obtain ⟨hdeal, hperm⟩ := dealing_foldl hn' cards 0 _ hstart
    refine ⟨hdeal.players, fun hand hmem => ?_, ?_⟩
    · obtain ⟨p, hp, rfl⟩ := List.getElem_of_mem hmem
      have hpn : p < n := hdeal.players ▸ hp
      rw [handSize, if_neg hk]
      refine (hdeal.size p hp).trans ?_
      obtain ⟨m, hm⟩ : n ∣ cards.length := Nat.dvd_of_mod_eq_zero (by omega)
      rw [Nat.zero_add, hm, Nat.mul_div_cancel_left _ hn']
      have hsplit : n * m + n - 1 - p = n - 1 - p + n * m := by omega
      rw [hsplit, Nat.add_mul_div_left _ _ hn', Nat.div_eq_of_lt (by omega), Nat.zero_add]
    · simpa [dealRoundRobin] using hperm.subperm

end Deck

/-! ### A full deck -/

theorem count_deckFaces (suit : Suit) (rank : Rank) :
    deckFaces.count (suit, rank) =
      if suit = .joker ↔ rank = .smallJoker ∨ rank = .bigJoker then 1 else 0 := by
  cases suit <;> cases rank <;> rfl

/-- Every deck brings each of its cards once. -/
theorem countP_createFullDeck (deckCount : Nat) (suit : Suit) (rank : Rank) :
    (createFullDeck deckCount).countP (fun card => card.suit = suit ∧ card.rank = rank) =
      if suit = .joker ↔ rank = .smallJoker ∨ rank = .bigJoker then deckCount else 0 := by
  have hfaces : (createFullDeck deckCount).countP (fun card => card.suit = suit ∧ card.rank = rank) =
      (List.replicate deckCount deckFaces).flatten.count (suit, rank) := by
    rw [createFullDeck, List.countP_map, List.count]
    conv_rhs => rw [← List.zipIdx_map_fst 0 (List.replicate deckCount deckFaces).flatten, List.countP_map]
    refine List.countP_congr fun face _ => ?_
    simp [makeCard, Prod.ext_iff]
  rw [hfaces, List.count_flatten, List.map_replicate, List.sum_replicate, count_deckFaces]
  split_ifs <;> simp

namespace Deck

variable {deckCount n k : Nat} {cards : List Card}

theorem ids_perm (hdecks : 54 * deckCount ≤ 2 ^ 16) (hcards : cards.Perm (createFullDeck deckCount)) :
    (cards.map (·.id)).Perm (List.range (54 * deckCount)) :=
  createFullDeck_ids deckCount hdecks ▸ hcards.map _

/-- A deal of the whole deck deals every card. -/
theorem deal_all (hdecks : 54 * deckCount ≤ 2 ^ 16) (hcards : cards.Perm (createFullDeck deckCount))
    (hn : 0 < n) (hdvd : n ∣ 54 * deckCount) : ∃ hands, deal cards n 0 = some hands ∧
      hands.length = n ∧ (∀ hand ∈ hands, hand.length = 54 * deckCount / n) ∧
      hands.flatten.Perm (List.range (54 * deckCount)) := by
  have hlength : cards.length = 54 * deckCount := by rw [hcards.length_eq, length_createFullDeck]
  have hdeal : deal cards n 0 = some (dealRoundRobin n cards) := by
    rw [deal, if_neg (by omega), if_neg (Nat.lt_irrefl 0), hlength,
      if_neg (not_not.2 (Nat.mod_eq_zero_of_dvd hdvd))]
  obtain ⟨hplayers, hsize, hsub⟩ := deal_spec hdeal
  rw [handSize, if_neg (Nat.lt_irrefl 0), hlength] at hsize
  refine ⟨_, hdeal, hplayers, hsize, (hsub.perm_of_length_le ?_).trans (ids_perm hdecks hcards)⟩
  rw [List.length_map, hlength, List.length_flatten, List.eq_replicate_of_mem
    (l := (dealRoundRobin n cards).map List.length) (a := 54 * deckCount / n) ?_]
  · simp [hplayers, Nat.mul_div_cancel' hdvd]
  · intro m hm
    obtain ⟨hand, hhand, rfl⟩ := List.mem_map.1 hm
    exact hsize hand hhand

/-- A deal of `k` cards each deals no card twice. -/
theorem deal_some (hdecks : 54 * deckCount ≤ 2 ^ 16) (hcards : cards.Perm (createFullDeck deckCount))
    (hn : 0 < n) (hk : 0 < k) (hle : n * k ≤ 54 * deckCount) : ∃ hands, deal cards n k = some hands ∧
      hands.length = n ∧ (∀ hand ∈ hands, hand.length = k) ∧ hands.flatten.Nodup ∧
      ∀ id ∈ hands.flatten, id < 54 * deckCount := by
  have hlength : cards.length = 54 * deckCount := by rw [hcards.length_eq, length_createFullDeck]
  have hdeal : deal cards n k = some (dealBlocks k n cards) := by
    rw [deal, if_neg (by omega), if_pos hk, hlength, if_neg (by omega)]
  obtain ⟨hplayers, hsize, hsub⟩ := deal_spec hdeal
  rw [handSize, if_pos hk] at hsize
  have hids := ids_perm hdecks hcards
  refine ⟨_, hdeal, hplayers, hsize, ?_, fun id hid => ?_⟩
  · obtain ⟨dealt, hperm, hsublist⟩ := hsub
    exact hperm.nodup_iff.1 ((hids.nodup_iff.2 List.nodup_range).sublist hsublist)
  · exact List.mem_range.1 (hids.mem_iff.1 (hsub.subset hid))

end Deck

/-- A full deck has every id and every face of each of its decks. Dealt out evenly after any shuffle, the
hands have every id once; and a deal of some cards to each player deals no id twice. -/
theorem deal_partition (deckCount : Nat) (hdecks : 54 * deckCount ≤ 2 ^ 16) :
    (createFullDeck deckCount).map (·.id) = List.range (54 * deckCount) ∧
    (∀ suit rank, (createFullDeck deckCount).countP (fun card => card.suit = suit ∧ card.rank = rank) =
      if suit = .joker ↔ rank = .smallJoker ∨ rank = .bigJoker then deckCount else 0) ∧
    ∀ cards, cards.Perm (createFullDeck deckCount) → ∀ n, 0 < n →
      (n ∣ 54 * deckCount → ∃ hands, Deck.deal cards n 0 = some hands ∧ hands.length = n ∧
        (∀ hand ∈ hands, hand.length = 54 * deckCount / n) ∧
        hands.flatten.Perm (List.range (54 * deckCount))) ∧
      ∀ k, 0 < k → n * k ≤ 54 * deckCount → ∃ hands, Deck.deal cards n k = some hands ∧
        hands.length = n ∧ (∀ hand ∈ hands, hand.length = k) ∧ hands.flatten.Nodup ∧
        ∀ id ∈ hands.flatten, id < 54 * deckCount :=
  ⟨createFullDeck_ids deckCount hdecks, countP_createFullDeck deckCount, fun _ hcards _ hn =>
    ⟨Deck.deal_all hdecks hcards hn, fun _ => Deck.deal_some hdecks hcards hn⟩⟩

theorem deal_partition_two : ∃ hands, Deck.deal (createFullDeck 2).reverse 4 0 = some hands ∧
    hands.length = 4 ∧ (∀ hand ∈ hands, hand.length = 54 * 2 / 4) ∧
    hands.flatten.Perm (List.range (54 * 2)) :=
  ((deal_partition 2 (by decide)).2.2 _ (createFullDeck 2).reverse_perm 4 (by decide)).1 (by decide)

end Guandan
