import Guandan.Engine.Operations
import Guandan.Library.Bags

/-!
# Hands as lists of cards by seat

The operations change hands by `Hand.remove` and by `transferCard`. Both are described on the family
`hands` of the lists of ids by seat: `withHands` is a state with other hands and nothing else
changed, `moveHeld` moves a card that its giver holds.
-/

namespace Guandan

/-! ### Removing cards -/

namespace Hand

theorem removeFrom_perm {temp ids rest : List CardId} (h : removeFrom temp ids = some rest) :
    temp.Perm (ids ++ rest) := by
  induction ids generalizing temp with
  | nil =>
    cases h
    exact .refl _
  | cons id ids ih =>
    rw [removeFrom] at h
    split_ifs at h with hmem
    exact (List.perm_cons_erase hmem).trans ((ih h).cons id)

theorem removeFrom_isSome {temp ids : List CardId} (hnodup : ids.Nodup)
    (hsub : ∀ id ∈ ids, id ∈ temp) : (removeFrom temp ids).isSome := by
  induction ids generalizing temp with
  | nil => rfl
  | cons id ids ih =>
    rw [List.nodup_cons] at hnodup
    rw [removeFrom, if_pos (hsub id (List.mem_cons_self ..))]
    refine ih hnodup.2 fun other hother => ?_
    have hne : other ≠ id := fun h => hnodup.1 (h ▸ hother)
    exact (List.mem_erase_of_ne hne).2 (hsub other (List.mem_cons_of_mem _ hother))

/-- Different cards of a hand are found and leave it. -/
theorem remove_perm {hand : Hand} {ids : List CardId} (hnodup : ids.Nodup)
    (hsub : ∀ id ∈ ids, id ∈ hand.cards) : hand.cards.Perm (ids ++ (hand.remove ids).1.cards) := by
  obtain ⟨rest, hrest⟩ := Option.isSome_iff_exists.1 (removeFrom_isSome hnodup hsub)
  rw [remove, hrest]
  exact removeFrom_perm hrest

/-- From a hand without duplicates a list with duplicates is not removed. -/
theorem remove_of_not_nodup {hand : Hand} {ids : List CardId} (hhand : hand.cards.Nodup)
    (hids : ¬ ids.Nodup) : (hand.remove ids).1 = hand := by
  rcases h : removeFrom hand.cards ids with _ | rest
  · rw [remove, h]
  · have hperm := (removeFrom_perm h).nodup_iff.1 hhand
    exact absurd (List.Nodup.of_append_left hperm) hids

theorem contains_singleton (hand : Hand) (id : CardId) :
    hand.contains [id] = decide (id ∈ hand.cards) := by
  simp [contains]

theorem remove_singleton {hand : Hand} {id : CardId} (h : id ∈ hand.cards) :
    (hand.remove [id]).1.cards = hand.cards.erase id := by
  simp [remove, removeFrom, h]

end Hand

/-! ### The hands of a state -/

namespace GameState

def hands (s : GameState) (seat : Nat) : List CardId := (s.players seat).hand.cards

/-- All cards in hands. -/
def handBag (s : GameState) : Multiset CardId := Bags.bag s.playerCount s.hands

/-- The state with these hands. -/
def withHands (s : GameState) (hands : Nat → List CardId) : GameState :=
  { s with players := fun i => { s.players i with hand := ⟨hands i⟩ } }

@[simp] theorem hands_withHands (s : GameState) (hands : Nat → List CardId) :
    (s.withHands hands).hands = hands := rfl

@[simp] theorem withHands_withHands (s : GameState) (f g : Nat → List CardId) :
    (s.withHands f).withHands g = s.withHands g := rfl

@[simp] theorem withHands_hands (s : GameState) : s.withHands s.hands = s := rfl

@[simp] theorem withHands_playerCount (s : GameState) (f : Nat → List CardId) :
    (s.withHands f).playerCount = s.playerCount := rfl

@[simp] theorem withHands_allCards (s : GameState) (f : Nat → List CardId) :
    (s.withHands f).allCards = s.allCards := rfl

theorem setHand_eq_withHands (s : GameState) (seat : Nat) (hand : Hand) :
    s.setHand seat hand = s.withHands (Function.update s.hands seat hand.cards) := by
  unfold setHand setPlayer withHands
  congr 1
  funext i
  by_cases hi : i = seat
  · subst hi
    simp
  · rw [Function.update_of_ne hi, Function.update_of_ne hi]
    rfl

theorem handBag_withHands (s : GameState) (f : Nat → List CardId) :
    (s.withHands f).handBag = Bags.bag s.playerCount f := rfl

end GameState

/-! ### Moving cards -/

/-- Moves a card other than 0 that the giver holds. -/
def moveHeld (hands : Nat → List CardId) (fromSeat toSeat : Nat) (cardId : CardId) :
    Nat → List CardId :=
  if cardId ≠ 0 ∧ cardId ∈ hands fromSeat then Bags.move hands fromSeat toSeat cardId else hands

/-- The moves one after the other. -/
def moveAll (transfers : List TributeTransfer) (hands : Nat → List CardId) : Nat → List CardId :=
  transfers.foldl (fun hands tr => moveHeld hands tr.fromSeat tr.toSeat tr.cardId) hands

@[simp] theorem moveAll_nil (hands : Nat → List CardId) : moveAll [] hands = hands := rfl

@[simp] theorem moveAll_cons (tr : TributeTransfer) (transfers : List TributeTransfer)
    (hands : Nat → List CardId) : moveAll (tr :: transfers) hands =
      moveAll transfers (moveHeld hands tr.fromSeat tr.toSeat tr.cardId) := rfl

theorem bag_moveHeld {n fromSeat toSeat : Nat} {cardId : CardId} {hands : Nat → List CardId}
    (hf : fromSeat < n) (ht : toSeat < n) :
    Bags.bag n (moveHeld hands fromSeat toSeat cardId) = Bags.bag n hands := by
  unfold moveHeld
  split_ifs with h
  · exact Bags.bag_move hf ht h.2
  · rfl

theorem bag_moveAll {n : Nat} {transfers : List TributeTransfer} {hands : Nat → List CardId}
    (h : ∀ tr ∈ transfers, tr.fromSeat < n ∧ tr.toSeat < n) :
    Bags.bag n (moveAll transfers hands) = Bags.bag n hands := by
  induction transfers generalizing hands with
  | nil => rfl
  | cons tr transfers ih =>
    obtain ⟨hf, ht⟩ := h tr (List.mem_cons_self ..)
    rw [moveAll_cons, ih fun tr htr => h tr (List.mem_cons_of_mem _ htr), bag_moveHeld hf ht]

theorem moveHeld_of_ne {hands : Nat → List CardId} {a b i : Nat} {c : CardId} (ha : i ≠ a)
    (hb : i ≠ b) : moveHeld hands a b c i = hands i := by
  unfold moveHeld
  split_ifs
  · exact Bags.move_of_ne ha hb
  · rfl

theorem moveAll_of_ne {transfers : List TributeTransfer} {hands : Nat → List CardId} {i : Nat}
    (h : ∀ tr ∈ transfers, i ≠ tr.fromSeat ∧ i ≠ tr.toSeat) : moveAll transfers hands i = hands i := by
  induction transfers generalizing hands with
  | nil => rfl
  | cons tr transfers ih =>
    obtain ⟨hf, ht⟩ := h tr (List.mem_cons_self ..)
    rw [moveAll_cons, ih fun tr htr => h tr (List.mem_cons_of_mem _ htr), moveHeld_of_ne hf ht]

theorem moveHeld_comm {hands : Nat → List CardId} {a b a' b' : Nat} {c c' : CardId} (haa : a ≠ a')
    (hab : a ≠ b') (hba : b ≠ a') (hbb : b ≠ b') (hne : a ≠ b) (hne' : a' ≠ b') :
    moveHeld (moveHeld hands a b c) a' b' c' = moveHeld (moveHeld hands a' b' c') a b c := by
  have h1 : moveHeld hands a b c a' = hands a' := moveHeld_of_ne haa.symm hba.symm
  have h2 : moveHeld hands a' b' c' a = hands a := moveHeld_of_ne haa hab
  rw [moveHeld, h1, moveHeld.eq_1 (moveHeld hands a' b' c'), h2]
  unfold moveHeld
  by_cases hc : c ≠ 0 ∧ c ∈ hands a
  · by_cases hc' : c' ≠ 0 ∧ c' ∈ hands a'
    · rw [if_pos hc, if_pos hc', if_pos hc', if_pos hc]
      exact Bags.move_comm haa hab hba hbb hne hne'
    · rw [if_pos hc, if_neg hc', if_neg hc', if_pos hc]
  · by_cases hc' : c' ≠ 0 ∧ c' ∈ hands a'
    · rw [if_neg hc, if_pos hc', if_neg hc]
    · rw [if_neg hc, if_neg hc', if_neg hc]

/-- No seat takes part in two of the transfers. -/
def Apart (transfers : List TributeTransfer) : Prop :=
  (transfers.map (·.fromSeat) ++ transfers.map (·.toSeat)).Nodup

namespace Apart

variable {transfers transfers' : List TributeTransfer} {tr tr' : TributeTransfer}

theorem from_ne_to (h : Apart transfers) (htr : tr ∈ transfers) (htr' : tr' ∈ transfers) :
    tr.fromSeat ≠ tr'.toSeat :=
  (List.nodup_append.1 h).2.2 _ (List.mem_map_of_mem (f := TributeTransfer.fromSeat) htr) _
    (List.mem_map_of_mem (f := TributeTransfer.toSeat) htr')

theorem eq_of_from (h : Apart transfers) (htr : tr ∈ transfers) (htr' : tr' ∈ transfers)
    (heq : tr.fromSeat = tr'.fromSeat) : tr = tr' :=
  List.inj_on_of_nodup_map (List.nodup_append.1 h).1 htr htr' heq

theorem eq_of_to (h : Apart transfers) (htr : tr ∈ transfers) (htr' : tr' ∈ transfers)
    (heq : tr.toSeat = tr'.toSeat) : tr = tr' :=
  List.inj_on_of_nodup_map (List.nodup_append.1 h).2.1 htr htr' heq

/-- The order of such transfers does not matter. -/
theorem moveAll_perm (h : Apart transfers) (hperm : transfers.Perm transfers')
    (hands : Nat → List CardId) : moveAll transfers hands = moveAll transfers' hands := by
  refine hperm.foldl_eq' (fun x hx y hy f => ?_) hands
  by_cases hxy : x = y
  · rw [hxy]
  · exact moveHeld_comm (fun heq => hxy (h.eq_of_from hx hy heq)) (h.from_ne_to hx hy)
      (h.from_ne_to hy hx).symm (fun heq => hxy (h.eq_of_to hx hy heq)) (h.from_ne_to hx hx)
      (h.from_ne_to hy hy)

end Apart

namespace TributeManager

theorem transferCard_eq_withHands (s : GameState) (fromSeat toSeat : Nat) (cardId : CardId) :
    transferCard s fromSeat toSeat cardId =
      s.withHands (moveHeld s.hands fromSeat toSeat cardId) := by
  unfold transferCard moveHeld
  by_cases h0 : cardId = 0
  · simp [h0]
  by_cases hmem : cardId ∈ s.hands fromSeat
  · rw [if_neg h0, if_neg (by simpa [GameState.hands] using hmem), if_pos ⟨h0, hmem⟩]
    simp only [GameState.setHand_eq_withHands, GameState.withHands_withHands,
      GameState.hands_withHands, Hand.cards_add, Hand.remove_singleton hmem]
    rfl
  · rw [if_neg h0, Hand.contains_singleton, if_pos (by simpa [GameState.hands] using hmem),
      if_neg (fun h => hmem h.2)]
    rfl

theorem foldl_transferCard (s : GameState) (transfers : List TributeTransfer) :
    transfers.foldl (fun s tr => transferCard s tr.fromSeat tr.toSeat tr.cardId) s =
      s.withHands (moveAll transfers s.hands) := by
  induction transfers generalizing s with
  | nil => rfl
  | cons tr transfers ih =>
    rw [List.foldl_cons, ih, transferCard_eq_withHands]
    rfl

/-- The transfers that sorted tributes make to the recipients. -/
def transfersOf (sorted : List PendingTribute) (recipientSeats : List Nat) :
    List TributeTransfer :=
  (sorted.zip recipientSeats).map fun p => ⟨p.1.fromSeat, p.2, p.1.card.id⟩

/-- The tributes are transfers from tributers to recipients, and only hands change. -/
theorem assignTributes_cases {s s' : GameState} {ctx : RuleContext} {plan : TributePhasePlan}
    {submissions : Nat → Option CardId} {result result' : TributeRoundResult}
    (h : assignTributes s ctx plan submissions result = some (s', result')) :
    ∃ pending, pendingTributes s plan submissions = some pending ∧
      s' = s.withHands (moveAll result'.tributes s.hands) ∧
      result'.tributes =
        transfersOf (sortTributes pending ctx plan.headSeat s.playerCount) plan.recipientSeats ∧
      ∃ summary, result' = { result with tributes := result'.tributes, summary := summary } := by
  unfold assignTributes at h
  simp only [Option.bind_eq_bind, Option.bind_eq_some_iff, Option.pure_def] at h
  obtain ⟨pending, hpending, h⟩ := h
  refine ⟨pending, hpending, ?_⟩
  split_ifs at h with hempty
  · cases h
    rw [List.isEmpty_iff] at hempty
    subst hempty
    exact ⟨rfl, rfl, _, rfl⟩
  · cases h
    exact ⟨foldl_transferCard _ _, rfl, _, rfl⟩

theorem mapM_map_fst {s : GameState} {pairs : List (Nat × CardId)} {pending : List PendingTribute}
    (h : pairs.mapM (fun p => (s.getCardById p.2).map (⟨p.1, ·⟩)) = some pending) :
    pending.map (·.fromSeat) = pairs.map (·.1) := by
  induction pairs generalizing pending with
  | nil =>
    cases h
    rfl
  | cons pair pairs ih =>
    simp only [List.mapM_cons, Option.bind_eq_bind, Option.bind_eq_some_iff, Option.map_eq_some_iff,
      Option.pure_def, Option.some.injEq] at h
    obtain ⟨-, ⟨card, -, rfl⟩, rest, hrest, rfl⟩ := h
    rw [List.map_cons, List.map_cons, ih hrest]

theorem map_filterMap_sublist {α β : Type*} {f : α → Option β} {g : β → α}
    (hfg : ∀ a b, f a = some b → g b = a) {l : List α} : ((l.filterMap f).map g).Sublist l := by
  induction l with
  | nil => exact .slnil
  | cons a l ih =>
    rcases h : f a with _ | b
    · rw [List.filterMap_cons_none h]
      exact ih.cons a
    · rw [List.filterMap_cons_some h, List.map_cons, hfg a b h]
      exact ih.cons_cons a

theorem pendingTributes_fromSeat {s : GameState} {plan : TributePhasePlan}
    {submissions : Nat → Option CardId} {pending : List PendingTribute}
    (h : pendingTributes s plan submissions = some pending) :
    (pending.map (·.fromSeat)).Sublist plan.tributerSeats := by
  unfold pendingTributes at h
  rw [mapM_map_fst h]
  refine map_filterMap_sublist fun seat pair hpair => ?_
  simp only [Option.bind_eq_some_iff] at hpair
  obtain ⟨cardId, -, hpair⟩ := hpair
  split_ifs at hpair
  cases hpair
  rfl

end TributeManager

end Guandan
