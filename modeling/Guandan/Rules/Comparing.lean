import Guandan.Rules.Readings

/-!
# What beats a pattern

`canBeat` of two valid patterns, by the type of the one that is played: joker bombs, straight flushes and
bombs beat other types, every other pattern only its own. A higher pattern of the same type and size
beats whatever the lower one does (`canBeat_of_le`).
-/

namespace Guandan

namespace RuleEngine

open CardAnalyzer

variable {cur cur' prev : CardPattern} {ctx : RuleContext}

theorem canBeat_jokerBomb (hcur : cur.isValid = true) (hprev : prev.isValid = true)
    (htype : cur.type = .jokerBomb) :
    canBeat cur prev ctx = true ↔ (prev.type = .jokerBomb → prev.length < cur.length) := by
  unfold canBeat
  rw [htype]
  by_cases h : prev.type = .jokerBomb <;> simp [hcur, hprev, h]

theorem canBeat_straightFlush (hcur : cur.isValid = true) (hprev : prev.isValid = true)
    (htype : cur.type = .straightFlush) :
    canBeat cur prev ctx = true ↔ prev.type ≠ .jokerBomb ∧ (prev.type = .bomb → prev.length < 6) ∧
      (prev.type = .straightFlush →
        cur.length = prev.length ∧ prev.primaryRank < cur.primaryRank) := by
  unfold canBeat sameTypeBeat
  rw [htype]
  rcases prev with ⟨type, rank, length, pair, valid⟩
  cases type <;> simp_all

theorem canBeat_bomb (hcur : cur.isValid = true) (hprev : prev.isValid = true)
    (htype : cur.type = .bomb) :
    canBeat cur prev ctx = true ↔ prev.type ≠ .jokerBomb ∧
      (prev.type = .straightFlush → 6 ≤ cur.length) ∧
      (prev.type = .bomb → prev.length < cur.length ∨
        prev.length = cur.length ∧ prev.primaryRank < cur.primaryRank) := by
  unfold canBeat
  rw [htype]
  rcases prev with ⟨type, rank, length, pair, valid⟩
  cases type <;> simp_all
  by_cases hlen : cur.length = length
  · simp [hlen]
  · simp [hlen, Ne.symm hlen]

/-- The types that beat their own type only. -/
def Ordinary (type : CardType) : Prop :=
  type ≠ .jokerBomb ∧ type ≠ .straightFlush ∧ type ≠ .bomb

theorem canBeat_ordinary (hcur : cur.isValid = true) (hprev : prev.isValid = true)
    (htype : Ordinary cur.type) : canBeat cur prev ctx = sameTypeBeat cur prev := by
  obtain ⟨hjoker, hflush, hbomb⟩ := htype
  unfold canBeat
  rw [hcur, hprev]
  rcases cur with ⟨type, rank, length, pair, valid⟩
  rcases prev with ⟨type', rank', length', pair', valid'⟩
  cases type <;> cases type' <;> simp_all [sameTypeBeat]

theorem canBeat_tripleWithPair (hcur : cur.isValid = true) (hprev : prev.isValid = true)
    (htype : cur.type = .tripleWithPair) :
    canBeat cur prev ctx = true ↔ prev.type = .tripleWithPair ∧
      (prev.primaryRank < cur.primaryRank ∨
        prev.primaryRank = cur.primaryRank ∧ prev.pairRank < cur.pairRank) := by
  rw [canBeat_ordinary hcur hprev (by rw [htype]; exact ⟨nofun, nofun, nofun⟩)]
  unfold sameTypeBeat
  rw [htype]
  rw [@eq_comm _ prev.type]
  by_cases hrank : cur.primaryRank = prev.primaryRank
  · simp [hrank]
  · simp [hrank, Ne.symm hrank]

/-- The types that are compared by their rank alone. -/
def ByRank (type : CardType) : Prop :=
  type = .single ∨ type = .pair ∨ type = .triple ∨ type = .straight ∨ type = .threePairs ∨
    type = .twoTriples

theorem canBeat_byRank (hcur : cur.isValid = true) (hprev : prev.isValid = true)
    (htype : ByRank cur.type) :
    canBeat cur prev ctx = true ↔ prev.type = cur.type ∧ cur.length = prev.length ∧
      prev.primaryRank < cur.primaryRank := by
  have hordinary : Ordinary cur.type := by
    rcases htype with h | h | h | h | h | h <;> rw [h] <;> exact ⟨nofun, nofun, nofun⟩
  rw [canBeat_ordinary hcur hprev hordinary]
  unfold sameTypeBeat
  rw [@eq_comm _ prev.type]
  rcases htype with h | h | h | h | h | h <;> rw [h] <;> simp

/-- A run beats the lower runs of its type and length. -/
theorem canBeat_run {type : CardType} {len start : Nat} (hprev : prev.isValid = true)
    (htype : type = .straight ∨ type = .threePairs ∨ type = .twoTriples) :
    canBeat (runPattern type len start) prev ctx = true ↔ prev.type = type ∧ len = prev.length ∧
      prev.primaryRank < start + len - 1 :=
  canBeat_byRank rfl hprev (.inr (.inr (.inr htype)))

/-- Joker bombs are beaten by joker bombs only. -/
theorem prev_ne_jokerBomb (hcur : cur.isValid = true) (hprev : prev.isValid = true)
    (htype : cur.type ≠ .jokerBomb) (h : canBeat cur prev ctx = true) : prev.type ≠ .jokerBomb := by
  by_cases hflush : cur.type = .straightFlush
  · exact ((canBeat_straightFlush hcur hprev hflush).1 h).1
  by_cases hbomb : cur.type = .bomb
  · exact ((canBeat_bomb hcur hprev hbomb).1 h).1
  rw [canBeat_ordinary hcur hprev ⟨htype, hflush, hbomb⟩] at h
  intro hjoker
  unfold sameTypeBeat at h
  rw [if_pos (fun heq => htype (heq.trans hjoker))] at h
  exact Bool.false_ne_true h

/-- A higher pattern of the same type and size beats what the lower one beats. -/
theorem canBeat_of_le (hcur' : cur'.isValid = true) (hprev : prev.isValid = true)
    (htype : cur'.type = cur.type) (hlength : cur'.length = cur.length)
    (hrank : cur.primaryRank ≤ cur'.primaryRank) (hpair : cur'.pairRank = cur.pairRank)
    (h : canBeat cur prev ctx = true) : canBeat cur' prev ctx = true := by
  have hcur : cur.isValid = true := by
    by_contra hcur
    simp [canBeat, hcur] at h
  obtain hinvalid | hjoker | hflush | hbomb | htriple | hrank' : cur.type = .invalid ∨
      cur.type = .jokerBomb ∨ cur.type = .straightFlush ∨ cur.type = .bomb ∨
      cur.type = .tripleWithPair ∨ ByRank cur.type := by
    cases cur.type <;> simp [ByRank]
  · rw [canBeat_ordinary hcur hprev (by rw [hinvalid]; exact ⟨nofun, nofun, nofun⟩)] at h
    simp [sameTypeBeat, hinvalid] at h
  · rw [canBeat_jokerBomb hcur hprev hjoker] at h
    rw [canBeat_jokerBomb hcur' hprev (htype.trans hjoker), hlength]
    exact h
  · rw [canBeat_straightFlush hcur hprev hflush] at h
    rw [canBeat_straightFlush hcur' hprev (htype.trans hflush), hlength]
    exact ⟨h.1, h.2.1, fun hprev' => ⟨(h.2.2 hprev').1, (h.2.2 hprev').2.trans_le hrank⟩⟩
  · rw [canBeat_bomb hcur hprev hbomb] at h
    rw [canBeat_bomb hcur' hprev (htype.trans hbomb), hlength]
    refine ⟨h.1, h.2.1, fun hprev' => ?_⟩
    have := h.2.2 hprev'
    omega
  · rw [canBeat_tripleWithPair hcur hprev htriple] at h
    rw [canBeat_tripleWithPair hcur' hprev (htype.trans htriple), hpair]
    refine ⟨h.1, ?_⟩
    have := h.2
    omega
  · rw [canBeat_byRank hcur hprev hrank'] at h
    rw [canBeat_byRank hcur' hprev (htype ▸ hrank'), htype, hlength]
    exact ⟨h.1, h.2.1, h.2.2.trans_le hrank⟩

end RuleEngine

end Guandan
