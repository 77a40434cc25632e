import Guandan.Engine.HandSizes
import Guandan.Engine.TrickPlays
import Guandan.Library.Masks
import Guandan.Library.Scan

/-!
# What a bot plays

A bot tries every set of cards of its hand, by the masks of an `int`, and keeps the one of least score.
No hand of a round has more than 28 cards, so there are few enough masks (`HandsFit`); the score puts
few cards before many, then low ranks, then the types in their order (`score_le_iff`); and the choice is
the best of all sets of cards that may be played (`chooseBotPlay_spec`).
-/

namespace Guandan

open GameState GameEngine RuleEngine

/-! ### Scores -/

namespace BotPlayer

/-- Few cards before many, then low ranks, then the types in their order. -/
def preference (cardCount : Nat) (pattern : CardPattern) : ℕ ×ₗ ℕ ×ₗ ℕ :=
  toLex (cardCount, toLex (pattern.primaryRank, pattern.type.toNat))

/-- Rank and type have a place each in the score. -/
structure Scored (pattern : CardPattern) : Prop where
  rank : pattern.primaryRank ≤ kBigJokerPatternRank
  type : 1 ≤ pattern.type.toNat

variable {p q : CardPattern} {m n : Nat}

theorem type_le (type : CardType) : type.toNat ≤ 10 := by cases type <;> decide

theorem preference_le_iff : preference m p ≤ preference n q ↔ m < n ∨ m = n ∧
    (p.primaryRank < q.primaryRank ∨ p.primaryRank = q.primaryRank ∧ p.type.toNat ≤ q.type.toNat) := by
  unfold preference
  rw [Prod.Lex.toLex_le_toLex, Prod.Lex.toLex_le_toLex]

theorem score_le_iff (hp : Scored p) (hq : Scored q) :
    leadScore m p ≤ leadScore n q ↔ preference m p ≤ preference n q := by
  have h1 := hp.rank
  have h2 := hq.rank
  have h3 := hp.type
  have h4 := hq.type
  have h5 := type_le p.type
  have h6 := type_le q.type
  unfold kBigJokerPatternRank at h1 h2
  rw [preference_le_iff, leadScore, leadScore]
  omega

/-- The scores of a hand of at most 28 cards are below the first bound of the search. -/
theorem score_lt_max (hp : Scored p) (hm : m ≤ 28) : leadScore m p < INT_MAX := by
  have h1 := hp.rank
  have h2 := type_le p.type
  unfold kBigJokerPatternRank at h1
  unfold leadScore INT_MAX
  omega

theorem scored_analyze {cards : List Card} {ctx : RuleContext}
    (h : (CardAnalyzer.analyze cards ctx).isValid = true) : Scored (CardAnalyzer.analyze cards ctx) := by
  refine ⟨(CardAnalyzer.reads_of_valid h).primaryRank_le, ?_⟩
  have htype := (Analyzed.wellFormed ⟨cards, ctx, rfl⟩).valid.1 h
  generalize (CardAnalyzer.analyze cards ctx).type = type at htype
  cases type with
  | invalid => exact absurd rfl htype
  | _ => decide

end BotPlayer

/-! ### Looking cards up -/

section Lookup

variable {e : GameEngine} {cards cards' : List CardId}

/-- Ids that can all be looked up. -/
def GameState.Known (s : GameState) (ids : List CardId) : Prop :=
  ∀ id ∈ ids, (s.getCardById id).isSome

theorem cardsFromIds_of_known {s : GameState} {ids : List CardId} (h : s.Known ids) :
    s.cardsFromIds ids = some (ids.map fun id => (s.getCardById id).getD {}) := by
  unfold cardsFromIds
  induction ids with
  | nil => rfl
  | cons id ids ih =>
    obtain ⟨card, hcard⟩ := Option.isSome_iff_exists.1 (h id List.mem_cons_self)
    rw [List.mapM_cons, ih fun i hi => h i (List.mem_cons_of_mem _ hi), hcard, List.map_cons, hcard]
    rfl

theorem patternOf_of_known (h : e.state.Known cards) :
    e.patternOf cards = CardAnalyzer.analyze
      (cards.map fun id => (e.state.getCardById id).getD {}) e.ruleContext := by
  rw [GameEngine.patternOf, cardsFromIds_of_known h]
  rfl

theorem exists_pattern (h : e.state.Known cards) : ∃ objs, e.state.cardsFromIds cards = some objs ∧
    CardAnalyzer.analyze objs e.ruleContext = e.patternOf cards :=
  ⟨_, cardsFromIds_of_known h, (patternOf_of_known h).symm⟩

theorem patternOf_perm (h : e.state.Known cards) (hperm : cards.Perm cards') :
    e.patternOf cards = e.patternOf cards' := by
  rw [patternOf_of_known h, patternOf_of_known fun id hid => h id (hperm.mem_iff.2 hid)]
  exact CardAnalyzer.analyze_perm (hperm.map _) _

/-- A single card is always a pattern. -/
theorem patternOf_singleton {id : CardId} (h : e.state.Known [id]) :
    (e.patternOf [id]).isValid = true := by
  rw [patternOf_of_known h, List.map_singleton]
  have hread : CardAnalyzer.Reads [(e.state.getCardById id).getD {}] e.ruleContext _ :=
    .single _ rfl
  rw [hread.analyze_eq]

end Lookup

/-! ### The search -/

/-- Cards of the hand, each once, that may be played now: any pattern on the lead, else one that beats
the table. -/
structure MayPlay (e : GameEngine) (seat : Nat) (cards : List CardId) : Prop where
  nodup : cards.Nodup
  held : ∀ id ∈ cards, id ∈ e.state.hands seat
  valid : (e.patternOf cards).isValid = true
  beats : e.state.lastPattern.isValid = true →
    canBeat (e.patternOf cards) e.state.lastPattern e.ruleContext = true

/-- The order in which a bot prefers sets of cards. -/
def cost (e : GameEngine) (cards : List CardId) : ℕ ×ₗ ℕ ×ₗ ℕ :=
  BotPlayer.preference cards.length (e.patternOf cards)

/-- The choice is the best of all plays there are, and there is one if there are any. -/
structure BestPlay (e : GameEngine) (seat : Nat) (choice : Option (List CardId)) : Prop where
  exists_iff : choice.isSome = true ↔ ∃ cards, MayPlay e seat cards
  mayPlay : ∀ play, choice = some play → MayPlay e seat play
  best : ∀ play, choice = some play → ∀ cards, MayPlay e seat cards → cost e play ≤ cost e cards

section Search

variable {e : GameEngine} {seat : Nat} {cards : List CardId}

/-- What a mask has to satisfy to be kept. -/
def playable (e : GameEngine) (cards : List CardId) : Bool :=
  (e.patternOf cards).isValid && (!e.state.lastPattern.isValid ||
    canBeat (e.patternOf cards) e.state.lastPattern e.ruleContext)

def score (e : GameEngine) (cards : List CardId) : Nat :=
  BotPlayer.leadScore cards.length (e.patternOf cards)

/-- The cards that a mask picks from the hand. -/
def maskCards (e : GameEngine) (seat mask : Nat) : List CardId := Masks.pick (e.state.hands seat) mask

/-- One round of the loop over the masks, when all cards are found. -/
def keepMask (e : GameEngine) (seat : Nat) :
    Option (List CardId) × Nat → Nat → Option (List CardId) × Nat :=
  Scan.keep (· > ·) (fun mask => playable e (maskCards e seat mask))
    (fun mask => score e (maskCards e seat mask)) fun mask => some (maskCards e seat mask)

theorem playable_iff : playable e cards = true ↔ (e.patternOf cards).isValid = true ∧
    (e.state.lastPattern.isValid = true →
      canBeat (e.patternOf cards) e.state.lastPattern e.ruleContext = true) := by
  unfold playable
  cases e.state.lastPattern.isValid <;> simp

theorem maskCards_sublist (e : GameEngine) (seat mask : Nat) :
    (maskCards e seat mask).Sublist (e.state.hands seat) := Masks.pick_sublist _ mask

theorem patternOf_nil (e : GameEngine) : (e.patternOf []).isValid = false := by
  rw [patternOf_of_known fun id hid => absurd hid List.not_mem_nil]
  exact CardAnalyzer.analyze_nil _

theorem mayPlay_maskCards (hnodup : (e.state.hands seat).Nodup) {mask : Nat}
    (hplay : playable e (maskCards e seat mask) = true) : MayPlay e seat (maskCards e seat mask) :=
  ⟨hnodup.sublist (maskCards_sublist e seat mask), fun _ hid => (maskCards_sublist e seat mask).subset hid,
    (playable_iff.1 hplay).1, (playable_iff.1 hplay).2⟩

section Known

variable (hknown : e.state.KnownHands) (hseat : seat < e.state.playerCount)
include hknown hseat

theorem known_of_held (hheld : ∀ id ∈ cards, id ∈ e.state.hands seat) : e.state.Known cards :=
  fun id hid => hknown seat hseat id (hheld id hid)

theorem known_maskCards (mask : Nat) : e.state.Known (maskCards e seat mask) :=
  known_of_held hknown hseat fun _ hid => (maskCards_sublist e seat mask).subset hid

theorem MayPlay.scored (h : MayPlay e seat cards) : BotPlayer.Scored (e.patternOf cards) := by
  have hvalid := h.valid
  rw [patternOf_of_known (known_of_held hknown hseat h.held)] at hvalid ⊢
  exact BotPlayer.scored_analyze hvalid

theorem score_le_iff_cost {cards' : List CardId} (h : MayPlay e seat cards)
    (h' : MayPlay e seat cards') : score e cards ≤ score e cards' ↔ cost e cards ≤ cost e cards' :=
  BotPlayer.score_le_iff (h.scored hknown hseat) (h'.scored hknown hseat)

theorem tryMask_eq (best : Option (List CardId) × Nat) (mask : Nat) :
    BotPlayer.tryMask e.state e.ruleContext (e.state.hands seat) best mask =
      some (keepMask e seat best mask) := by
  have hpick : BotPlayer.subsetOf (e.state.hands seat) mask = maskCards e seat mask := rfl
  obtain ⟨objs, hobjs, hpattern⟩ := exists_pattern (known_maskCards hknown hseat mask)
  unfold BotPlayer.tryMask
  dsimp only
  rw [hpick, hobjs]
  simp only [Option.bind_eq_bind, Option.bind_some, Option.pure_def]
  rw [hpattern]
  cases hvalid : (e.patternOf (maskCards e seat mask)).isValid
  · simp [keepMask, Scan.keep, playable, hvalid]
  cases hlead : e.state.lastPattern.isValid
  · simp [keepMask, Scan.keep, playable, hvalid, hlead]
    rfl
  · cases hbeats : canBeat (e.patternOf (maskCards e seat mask)) e.state.lastPattern e.ruleContext
    · simp [keepMask, Scan.keep, playable, hvalid, hlead, hbeats]
    · simp [keepMask, Scan.keep, playable, hvalid, hlead, hbeats]
      rfl

/-- What may be played is tried, in some order of the cards. -/
theorem MayPlay.exists_mask (h : MayPlay e seat cards) :
    ∃ mask ∈ List.range' 1 (2 ^ (e.state.hands seat).length - 1),
      playable e (maskCards e seat mask) = true ∧ cost e (maskCards e seat mask) = cost e cards := by
  obtain ⟨sub, hperm, hsub⟩ := List.subperm_of_subset h.nodup h.held
  have hpattern : e.patternOf sub = e.patternOf cards :=
    patternOf_perm (known_of_held hknown hseat fun id hid => hsub.subset hid) hperm
  have hne : sub ≠ [] := by
    rintro rfl
    have hvalid := h.valid
    rw [← hpattern, patternOf_nil] at hvalid
    cases hvalid
  obtain ⟨mask, hmask, hpick⟩ := Masks.exists_pick_of_ne_nil hsub hne
  have hpick : maskCards e seat mask = sub := hpick
  refine ⟨mask, hmask, ?_, ?_⟩
  · rw [playable_iff, hpick, hpattern]
    exact ⟨h.valid, h.beats⟩
  · rw [cost, cost, hpick, hpattern, hperm.length_eq]

/-- The search over the masks of a hand of at most 28 cards ends with the best play. -/
theorem choosePlay_spec (hnodup : (e.state.hands seat).Nodup) (hactive : e.state.active seat = true)
    (hfew : (e.state.hands seat).length ≤ 28) :
    ∃ choice, BotPlayer.choosePlay e.state seat e.ruleContext = some choice ∧
      BestPlay e seat choice := by
  have hin : (e.state.players seat).hasFinished = false := by simpa [GameState.active] using hactive
  have hloop : BotPlayer.tryMask e.state e.ruleContext (e.state.hands seat) =
      fun best mask => some (keepMask e seat best mask) := by
    funext best mask
    exact tryMask_eq hknown hseat best mask
  have hchoose : BotPlayer.choosePlay e.state seat e.ruleContext =
      some ((List.range' 1 (2 ^ (e.state.hands seat).length - 1)).foldl (keepMask e seat)
        (none, BotPlayer.INT_MAX)).1 := by
    unfold BotPlayer.choosePlay
    rw [if_neg (Nat.not_le.2 hseat), hin, if_neg Bool.false_ne_true]
    change Option.map _ (List.foldlM (BotPlayer.tryMask e.state e.ruleContext (e.state.hands seat))
      _ _) = _
    rw [hloop]
    exact congrArg (Option.map Prod.fst) (List.foldlM_pure (m := Option))
  refine ⟨_, hchoose, ?_⟩
  rcases Scan.foldl_keep (r := (· > ·)) (p := fun mask => playable e (maskCards e seat mask))
    (f := fun mask => score e (maskCards e seat mask)) (v := fun mask => some (maskCards e seat mask))
    (l := List.range' 1 (2 ^ (e.state.hands seat).length - 1))
    ((none, BotPlayer.INT_MAX) : Option (List CardId) × Nat) with
      ⟨hres, hnone⟩ | ⟨mask, hfirst, -, hres⟩
  · rw [keepMask, hres]
    refine ⟨iff_of_false Bool.false_ne_true ?_, by simp, by simp⟩
    intro hany
    obtain ⟨cards, hcards⟩ := hany
    obtain ⟨mask, hmask, hplay, -⟩ := hcards.exists_mask hknown hseat
    have hmay := mayPlay_maskCards hnodup hplay
    refine hnone mask hmask hplay (BotPlayer.score_lt_max (hmay.scored hknown hseat) ?_)
    exact (maskCards_sublist e seat mask).length_le.trans hfew
  · rw [keepMask, hres]
    have hmay := mayPlay_maskCards hnodup hfirst.sat
    refine ⟨iff_of_true rfl ⟨_, hmay⟩, ?_, ?_⟩
    · rintro play hplay
      cases hplay
      exact hmay
    · rintro play hplay cards hcards
      cases hplay
      obtain ⟨mask', hmask', hplay', hcost⟩ := hcards.exists_mask hknown hseat
      rw [← hcost, ← score_le_iff_cost hknown hseat hmay (mayPlay_maskCards hnodup hplay')]
      exact Nat.le_of_not_lt (hfirst.best hmask' hplay')

end Known

end Search

/-! ### The turn of a player at play -/

/-- The player to move. -/
def GameState.turnPlayer (s : GameState) : PlayerId := (s.players s.currentPlayerIndex).id

/-- What a bot does with its choice. -/
def botCall (e : GameEngine) (id : PlayerId) : Option (List CardId) → Option (GameEngine × PlayResult)
  | some play => e.playCards id play
  | none => e.pass id

section Turn

variable {e e' : GameEngine} {log : RoundLog} {passes : List Nat} {r : PlayResult} {id : PlayerId}
  {cards : List CardId}

/-- A state of play that a room reaches. -/
structure AtPlay (e : GameEngine) : Prop where
  reached : Reached e
  phase : e.state.phase = .playing

namespace AtPlay

theorem seatOf (h : AtPlay e) {seat : Nat} (hseat : seat < e.state.playerCount) :
    e.seatOf (e.state.players seat).id = some seat := by
  obtain ⟨log, passes, hfacts⟩ := h.reached.facts
  exact SeatingInv.seatOf_eq (hfacts.round.seating.started (by simp [h.phase])) hseat

theorem trick (h : AtPlay e) : Trick e.state := by
  obtain ⟨log, passes, hfacts⟩ := h.reached.facts
  exact hfacts.trick.trick h.phase

theorem seatOf_turnPlayer (h : AtPlay e) :
    e.seatOf e.state.turnPlayer = some e.state.currentPlayerIndex := h.seatOf h.trick.seat

theorem knownHands (h : AtPlay e) : e.state.KnownHands := by
  obtain ⟨log, passes, hfacts⟩ := h.reached.facts
  exact hfacts.round.knownHands (by simp [h.phase])

theorem nodup_hands (h : AtPlay e) {seat : Nat} (hseat : seat < e.state.playerCount) :
    (e.state.hands seat).Nodup := by
  obtain ⟨log, passes, hfacts⟩ := h.reached.facts
  exact hfacts.round.accounting.nodup_hand hseat

theorem playCards_isSome (h : AtPlay e) (id : PlayerId) (cards : List CardId) :
    (e.playCards id cards).isSome := by
  obtain ⟨log, passes, hfacts⟩ := h.reached.facts
  exact hfacts.trick.playCards_isSome hfacts.round h.phase id cards

theorem pass_isSome (h : AtPlay e) (id : PlayerId) : (e.pass id).isSome := by
  obtain ⟨log, passes, hfacts⟩ := h.reached.facts
  exact hfacts.trick.pass_isSome h.phase id

/-- What may be played is accepted. -/
theorem playCards_ok (h : AtPlay e) (hmay : MayPlay e e.state.currentPlayerIndex cards) :
    ∃ e' r, e.playCards e.state.turnPlayer cards = some (e', r) ∧ r.code = .ok := by
  obtain ⟨⟨e', r⟩, hplay⟩ := Option.isSome_iff_exists.1 (h.playCards_isSome e.state.turnPlayer cards)
  refine ⟨e', r, hplay, ?_⟩
  rcases playCards_cases hplay with ⟨-, -, hno⟩ | ⟨seat, pattern, -, hcode, -⟩
  · have hknown := known_of_held h.knownHands h.trick.seat hmay.held
    exact absurd ⟨h.phase, h.seatOf_turnPlayer, rfl, h.trick.unfinished, hmay.held,
      exists_pattern hknown, hmay.valid, hmay.beats⟩ (hno e.state.currentPlayerIndex _)
  · exact hcode

/-- Unless the table is clear, the player to move may pass. -/
theorem pass_ok (h : AtPlay e) (hvalid : e.state.lastPattern.isValid = true) :
    ∃ e' r, e.pass e.state.turnPlayer = some (e', r) ∧ r.code = .ok := by
  obtain ⟨⟨e', r⟩, hpass⟩ := Option.isSome_iff_exists.1 (h.pass_isSome e.state.turnPlayer)
  refine ⟨e', r, hpass, ?_⟩
  unfold GameEngine.pass at hpass
  rw [if_neg (not_not_intro h.phase), h.seatOf_turnPlayer] at hpass
  dsimp only at hpass
  rw [if_neg (not_not_intro rfl), hvalid, if_neg (by decide)] at hpass
  obtain ⟨s, -, heq⟩ := Option.bind_eq_some_iff.1 hpass
  cases heq
  rfl

/-- On the lead any card of the hand may be played. -/
theorem exists_lead (h : AtPlay e) (hlead : e.state.lastPattern.isValid = false) :
    ∃ cards, MayPlay e e.state.currentPlayerIndex cards := by
  obtain ⟨id, rest, hhand⟩ := List.exists_cons_of_ne_nil h.trick.holds
  have hheld : ∀ i ∈ [id], i ∈ e.state.hands e.state.currentPlayerIndex := by
    intro i hi
    rw [List.mem_singleton.1 hi, hhand]
    exact List.mem_cons_self
  refine ⟨[id], List.nodup_singleton id, hheld, ?_, fun hvalid => ?_⟩
  · exact patternOf_singleton (known_of_held h.knownHands h.trick.seat hheld)
  · rw [hlead] at hvalid
    cases hvalid

/-- The player to move has a choice, the best one; played, or passed if there is none, it is accepted. -/
theorem botCall_ok (h : AtPlay e) : ∃ choice, e.chooseBotPlay e.state.turnPlayer = some choice ∧
    BestPlay e e.state.currentPlayerIndex choice ∧
    ∃ e' r, botCall e e.state.turnPlayer choice = some (e', r) ∧ r.code = .ok := by
  have hseat := h.trick.seat
  obtain ⟨choice, hchoose, hbest⟩ := choosePlay_spec h.knownHands hseat (h.nodup_hands hseat)
    h.trick.unfinished (h.reached.length_hands_le (by simp [h.phase]) hseat)
  refine ⟨choice, ?_, hbest, ?_⟩
  · unfold chooseBotPlay
    rw [h.seatOf_turnPlayer]
    exact hchoose
  rcases choice with _ | play
  · refine h.pass_ok ?_
    by_contra hlead
    have hsome := hbest.exists_iff.2 (h.exists_lead (eq_false_of_ne_true hlead))
    cases hsome
  · exact h.playCards_ok (hbest.mayPlay play rfl)

end AtPlay

end Turn

end Guandan
