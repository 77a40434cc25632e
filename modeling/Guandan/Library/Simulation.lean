import Guandan.Library.Machine
import Mathlib.Data.List.Forall2

/-!
# Simulations

A machine simulates another one if every admissible step of that one is matched by a step of its own
(`Simulates`); every run is then matched by a run. Where the two differ in how they write down what is on its
way, their queues are related element by element.
-/

namespace Machine

variable {S S' I I' O O' : Type*} {M : Machine S I O} {M' : Machine S' I' O'}
  {ok : S → I → Prop} {ok' : S' → I' → Prop} {R : S → S' → Prop} {s₀ s : S} {s₀' : S'}

/-- An admissible step of `M` is an admissible step of `M'`, up to `R`. -/
def Simulates (M' : Machine S' I' O') (ok' : S' → I' → Prop) (R : S → S' → Prop) (M : Machine S I O)
    (ok : S → I → Prop) : Prop :=
  ∀ s s' i t o, R s s' → ok s i → M.step s i = some (t, o) →
    ∃ i' t' o', ok' s' i' ∧ M'.step s' i' = some (t', o') ∧ R t t'

theorem Reachable.simulated (h : M.Reachable ok s₀ s) (hsim : M'.Simulates ok' R M ok) (hR : R s₀ s₀') :
    ∃ s', M'.Reachable ok' s₀' s' ∧ R s s' := by
  induction h with
  | refl => exact ⟨s₀', .refl, hR⟩
  | step _ hok hstep ih =>
    obtain ⟨s', hreach, hs⟩ := ih
    obtain ⟨i', t', o', hok', hstep', ht⟩ := hsim _ _ _ _ _ hs hok hstep
    exact ⟨t', hreach.step hok' hstep', ht⟩

end Machine

namespace List

variable {α β : Type*} {R : α → β → Prop} {as : List α} {bs : List β}

theorem Forall₂.append {as' : List α} {bs' : List β} (h : Forall₂ R as bs) (h' : Forall₂ R as' bs') :
    Forall₂ R (as ++ as') (bs ++ bs') := rel_append h h'

theorem Forall₂.eraseIdx (h : Forall₂ R as bs) (i : Nat) : Forall₂ R (as.eraseIdx i) (bs.eraseIdx i) := by
  induction h generalizing i with
  | nil => exact .nil
  | cons hab htail ih =>
    cases i with
    | zero => exact htail
    | succ i => exact .cons hab (ih i)

/-- An element of the one list belongs to one of the other. -/
theorem Forall₂.getElem?_right (h : Forall₂ R as bs) {i : Nat} {b : β} (hb : bs[i]? = some b) :
    ∃ a, as[i]? = some a ∧ R a b := by
  induction h generalizing i with
  | nil => cases hb
  | @cons a b' _ _ hab _ ih =>
    cases i with
    | zero => exact ⟨a, rfl, Option.some.inj hb ▸ hab⟩
    | succ i => exact ih hb

theorem Forall₂.getElem?_left (h : Forall₂ R as bs) {i : Nat} {a : α} (ha : as[i]? = some a) :
    ∃ b, bs[i]? = some b ∧ R a b := h.flip.getElem?_right ha

theorem Forall₂.of_mem_right (h : Forall₂ R as bs) {b : β} (hb : b ∈ bs) : ∃ a, R a b := by
  obtain ⟨i, hi⟩ := mem_iff_getElem?.1 hb
  obtain ⟨a, -, hab⟩ := h.getElem?_right hi
  exact ⟨a, hab⟩

/-- A list whose elements are all related to something is related to a list. -/
theorem exists_forall₂ (h : ∀ b ∈ bs, ∃ a, R a b) : ∃ as, Forall₂ R as bs := by
  induction bs with
  | nil => exact ⟨[], .nil⟩
  | cons b bs ih =>
    obtain ⟨a, hab⟩ := h b mem_cons_self
    obtain ⟨as, has⟩ := ih fun b' hb' => h b' (mem_cons_of_mem b hb')
    exact ⟨a :: as, .cons hab has⟩

end List
