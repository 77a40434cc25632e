import Mathlib.Data.Option.Basic
import Mathlib.Tactic.SplitIfs
import Mathlib.Tactic.TypeStar

/-!
# Machines that answer inputs

A `Machine` takes an input and answers with an output and its next state, or does not answer at
all (`none`: the call throws or never returns). Three kinds of statement about its runs are
developed here:

* properties of every state a run reaches (`Reachable`, `Reachable.invariant`), also of the
  machine together with a history variable (`withHistory`);
* properties of every state and every step along one list of inputs (`Always`, `EachStep`): a
  step-wise equivalence between the two lifts to the whole run (`always_iff_eachStep`);
* two-run properties (`outputs`, `Bisimulation`): related states answer every list of inputs alike.
-/

structure Machine (S I O : Type*) where
  step : S → I → Option (S × O)

namespace Machine

variable {S I O G : Type*} (M : Machine S I O)

/-! ### Reachable states -/

/-- The states reached from `s₀` by inputs that are admissible (`ok`) where they are given. -/
inductive Reachable (ok : S → I → Prop) (s₀ : S) : S → Prop
  | refl : Reachable ok s₀ s₀
  | step {s s' : S} {i : I} {o : O} : Reachable ok s₀ s → ok s i → M.step s i = some (s', o) →
      Reachable ok s₀ s'

section Reachable

variable {M} {ok ok' : S → I → Prop} {s₀ s s' : S}

/-- What holds at the start and survives every admissible step holds of every reachable state. -/
theorem Reachable.invariant {P : S → Prop} (h : M.Reachable ok s₀ s) (h0 : P s₀)
    (hstep : ∀ s i s' o, P s → ok s i → M.step s i = some (s', o) → P s') : P s := by
  induction h with
  | refl => exact h0
  | step _ hok hs ih => exact hstep _ _ _ _ ih hok hs

theorem Reachable.mono (hok : ∀ s i, ok s i → ok' s i) (h : M.Reachable ok s₀ s) :
    M.Reachable ok' s₀ s := by
  induction h with
  | refl => exact .refl
  | step _ hi hs ih => exact ih.step (hok _ _ hi) hs

theorem Reachable.trans {s₁ : S} (h : M.Reachable ok s₀ s₁) (h' : M.Reachable ok s₁ s) :
    M.Reachable ok s₀ s := by
  induction h' with
  | refl => exact h
  | step _ hi hs ih => exact ih.step hi hs

end Reachable

/-! ### Runs over a list of inputs -/

/-- The state after a list of inputs, if all of them are answered. -/
def run : S → List I → Option S
  | s, [] => some s
  | s, i :: is => (M.step s i).bind fun r => run r.1 is

/-- The answers to a list of inputs, up to the first one that is not answered. -/
def outputs : S → List I → List O
  | _, [] => []
  | s, i :: is => match M.step s i with
    | none => []
    | some (s', o) => o :: outputs s' is

/-- Every input of the list is admissible where it is given. -/
def Follows (ok : S → I → Prop) : S → List I → Prop
  | _, [] => True
  | s, i :: is => ok s i ∧ ∀ s' o, M.step s i = some (s', o) → Follows ok s' is

/-- The state after a list of inputs that are all admissible and answered. -/
def runChecked (ok : S → I → Prop) [∀ s i, Decidable (ok s i)] : S → List I → Option S
  | s, [] => some s
  | s, i :: is => if ok s i then (M.step s i).bind fun r => runChecked ok r.1 is else none

/-- `P` holds of every state the list of inputs goes through. -/
def Always (P : S → Prop) : S → List I → Prop
  | s, [] => P s
  | s, i :: is => P s ∧ ∀ s' o, M.step s i = some (s', o) → Always P s' is

instance decidableAlways (P : S → Prop) [DecidablePred P] : ∀ s is, Decidable (M.Always P s is)
  | s, [] => inferInstanceAs (Decidable (P s))
  | s, i :: is => match h : M.step s i with
    | none => decidable_of_iff (P s) ⟨fun hp => ⟨hp, fun _ _ hs => nomatch h.symm.trans hs⟩, And.left⟩
    | some (s', _) =>
      have := decidableAlways P s' is
      decidable_of_iff (P s ∧ M.Always P s' is) (and_congr_right fun _ =>
        ⟨fun hrest _ _ hs => by cases h.symm.trans hs; exact hrest, fun hrest => hrest _ _ h⟩)

/-- `C` holds of every answered step of the list of inputs. -/
def EachStep (C : S → I → S → Prop) : S → List I → Prop
  | _, [] => True
  | s, i :: is => ∀ s' o, M.step s i = some (s', o) → C s i s' ∧ EachStep C s' is

/-- `C` holds of every answered step of the list of inputs, and of its answer. -/
def EachAnswer (C : S → I → O → S → Prop) : S → List I → Prop
  | _, [] => True
  | s, i :: is => ∀ s' o, M.step s i = some (s', o) → C s i o s' ∧ EachAnswer C s' is

section Runs

variable {M} {ok : S → I → Prop} {s s' : S} {i : I} {is js : List I} {o : O}

theorem run_cons (h : M.step s i = some (s', o)) : M.run s (i :: is) = M.run s' is := by
  simp [run, h]

theorem run_append : M.run s (is ++ js) = (M.run s is).bind (M.run · js) := by
  induction is generalizing s with
  | nil => rfl
  | cons i is ih =>
    rcases h : M.step s i with _ | ⟨s', o⟩
    · simp [run, h]
    · simp [run, h, ih]

theorem outputs_cons (h : M.step s i = some (s', o)) :
    M.outputs s (i :: is) = o :: M.outputs s' is := by
  simp [outputs, h]

theorem outputs_append (h : M.run s is = some s') :
    M.outputs s (is ++ js) = M.outputs s is ++ M.outputs s' js := by
  induction is generalizing s with
  | nil => cases h; rfl
  | cons i is ih =>
    simp only [run, Option.bind_eq_some_iff, Prod.exists] at h
    obtain ⟨s₁, o, hs, hrun⟩ := h
    rw [List.cons_append, outputs_cons hs, outputs_cons hs, ih hrun, List.cons_append]

/-- A run that is answered to its end gives one answer for each input. -/
theorem length_outputs (h : M.run s is = some s') : (M.outputs s is).length = is.length := by
  induction is generalizing s with
  | nil => rfl
  | cons i is ih =>
    simp only [run, Option.bind_eq_some_iff, Prod.exists] at h
    obtain ⟨s₁, o, hs, hrun⟩ := h
    rw [outputs_cons hs, List.length_cons, List.length_cons, ih hrun]

theorem reachable_of_run (hok : M.Follows ok s is) (h : M.run s is = some s') :
    M.Reachable ok s s' := by
  induction is generalizing s with
  | nil => cases h; exact .refl
  | cons i is ih =>
    simp only [run, Option.bind_eq_some_iff, Prod.exists] at h
    obtain ⟨s₁, o, hs, hrun⟩ := h
    have hstep : M.Reachable ok s s₁ := Reachable.refl.step hok.1 hs
    exact hstep.trans (ih (hok.2 _ _ hs) hrun)

theorem reachable_of_runChecked [∀ s i, Decidable (ok s i)]
    (h : M.runChecked ok s is = some s') : M.Reachable ok s s' := by
  induction is generalizing s with
  | nil => cases h; exact .refl
  | cons i is ih =>
    rw [runChecked] at h
    split_ifs at h with hok
    simp only [Option.bind_eq_some_iff, Prod.exists] at h
    obtain ⟨s₁, o, hs, hrun⟩ := h
    have hstep : M.Reachable ok s s₁ := Reachable.refl.step hok hs
    exact hstep.trans (ih hrun)

/-- Inputs that are admissible wherever they are given. -/
theorem Follows.of_forall (h : ∀ i ∈ is, ∀ s, ok s i) : M.Follows ok s is := by
  induction is generalizing s with
  | nil => trivial
  | cons i is ih =>
    exact ⟨h i (List.mem_cons_self ..) s, fun _ _ _ =>
      ih fun j hj => h j (List.mem_cons_of_mem _ hj)⟩

theorem Always.head {P : S → Prop} (h : M.Always P s is) : P s := by
  cases is with
  | nil => exact h
  | cons i is => exact h.1

theorem EachStep.mono {C D : S → I → S → Prop} (hCD : ∀ s i s', C s i s' → D s i s')
    (h : M.EachStep C s is) : M.EachStep D s is := by
  induction is generalizing s with
  | nil => trivial
  | cons i is ih => exact fun s' o hs => ⟨hCD _ _ _ (h s' o hs).1, ih (h s' o hs).2⟩

theorem Always.mono {P Q : S → Prop} (hPQ : ∀ s, P s → Q s) (h : M.Always P s is) :
    M.Always Q s is := by
  induction is generalizing s with
  | nil => exact hPQ _ h
  | cons i is ih => exact ⟨hPQ _ h.1, fun s' o hs => ih (h.2 s' o hs)⟩

/-- What survives every admissible step holds all along a run. -/
theorem always_of_invariant {P : S → Prop}
    (hinv : ∀ s i s' o, P s → ok s i → M.step s i = some (s', o) → P s') (hs : P s)
    (hok : M.Follows ok s is) : M.Always P s is := by
  induction is generalizing s with
  | nil => exact hs
  | cons i is ih =>
    exact ⟨hs, fun s' o hstep => ih (hinv _ _ _ _ hs hok.1 hstep) (hok.2 _ _ hstep)⟩

theorem Always.of_run {P : S → Prop} (h : M.Always P s is) (hrun : M.run s is = some s') : P s' := by
  induction is generalizing s with
  | nil =>
    cases hrun
    exact h
  | cons i is ih =>
    simp only [run, Option.bind_eq_some_iff, Prod.exists] at hrun
    obtain ⟨s₁, o, hs, hrun⟩ := hrun
    exact ih (h.2 s₁ o hs) hrun

theorem EachStep.of_run {C : S → I → S → Prop} {s₁ s₂ : S} (h : M.EachStep C s (is ++ i :: js))
    (hrun : M.run s is = some s₁) (hstep : M.step s₁ i = some (s₂, o)) : C s₁ i s₂ := by
  induction is generalizing s with
  | nil =>
    cases hrun
    exact (h s₂ o hstep).1
  | cons j is ih =>
    simp only [run, Option.bind_eq_some_iff, Prod.exists] at hrun
    obtain ⟨s₃, o₃, hs, hrun⟩ := hrun
    exact ih (h s₃ o₃ hs).2 hrun

theorem EachAnswer.of_run {C : S → I → O → S → Prop} {s₁ s₂ : S}
    (h : M.EachAnswer C s (is ++ i :: js)) (hrun : M.run s is = some s₁)
    (hstep : M.step s₁ i = some (s₂, o)) : C s₁ i o s₂ := by
  induction is generalizing s with
  | nil =>
    cases hrun
    exact (h s₂ o hstep).1
  | cons j is ih =>
    simp only [run, Option.bind_eq_some_iff, Prod.exists] at hrun
    obtain ⟨s₃, o₃, hs, hrun⟩ := hrun
    exact ih (h s₃ o₃ hs).2 hrun

/-- If, from a state with `J` and `P`, an admissible step keeps `P` and has `Q` exactly when it
meets `C`, then `P` holds all along a run whose steps all have `Q` exactly when every step of the run
meets `C`. -/
theorem always_and_eachStep_iff {J P : S → Prop} {Q C : S → I → S → Prop}
    (hinv : ∀ s i s' o, J s → ok s i → M.step s i = some (s', o) → J s')
    (hiff : ∀ s i s' o, J s → P s → ok s i → M.step s i = some (s', o) →
      (P s' ∧ Q s i s' ↔ C s i s'))
    (hs : J s) (hp : P s) (hok : M.Follows ok s is) :
    M.Always P s is ∧ M.EachStep Q s is ↔ M.EachStep C s is := by
  induction is generalizing s with
  | nil => exact ⟨fun _ => trivial, fun _ => ⟨hp, trivial⟩⟩
  | cons i is ih =>
    constructor
    · rintro ⟨⟨-, hrest⟩, hsteps⟩ s' o hstep
      have hi := hinv _ _ _ _ hs hok.1 hstep
      have hp' := (hrest s' o hstep).head
      obtain ⟨hq, hsteps'⟩ := hsteps s' o hstep
      exact ⟨(hiff _ _ _ _ hs hp hok.1 hstep).1 ⟨hp', hq⟩,
        (ih hi hp' (hok.2 _ _ hstep)).1 ⟨hrest s' o hstep, hsteps'⟩⟩
    · intro hrest
      have hboth : ∀ s' o, M.step s i = some (s', o) →
          Q s i s' ∧ M.Always P s' is ∧ M.EachStep Q s' is := by
        intro s' o hstep
        have hi := hinv _ _ _ _ hs hok.1 hstep
        obtain ⟨hp', hq⟩ := (hiff _ _ _ _ hs hp hok.1 hstep).2 (hrest s' o hstep).1
        exact ⟨hq, (ih hi hp' (hok.2 _ _ hstep)).2 (hrest s' o hstep).2⟩
      exact ⟨⟨hp, fun s' o hstep => (hboth s' o hstep).2.1⟩,
        fun s' o hstep => ⟨(hboth s' o hstep).1, (hboth s' o hstep).2.2⟩⟩

theorem eachStep_true : M.EachStep (fun _ _ _ => True) s is := by
  induction is generalizing s with
  | nil => trivial
  | cons i is ih => exact fun _ _ _ => ⟨trivial, ih⟩

/-- If, from a state with `J` and `P`, an admissible step keeps `P` exactly when it meets `C`, then
`P` holds all along a run exactly when every step of the run meets `C`. -/
theorem always_iff_eachStep {J P : S → Prop} {C : S → I → S → Prop}
    (hinv : ∀ s i s' o, J s → ok s i → M.step s i = some (s', o) → J s')
    (hiff : ∀ s i s' o, J s → P s → ok s i → M.step s i = some (s', o) → (P s' ↔ C s i s'))
    (hs : J s) (hp : P s) (hok : M.Follows ok s is) : M.Always P s is ↔ M.EachStep C s is := by
  have hboth := always_and_eachStep_iff (Q := fun _ _ _ => True) (C := C) hinv
    (fun s i s' o hi hp hok hstep =>
      (and_iff_left trivial).trans (hiff s i s' o hi hp hok hstep)) hs hp hok
  exact ⟨fun h => hboth.1 ⟨h, eachStep_true⟩, fun h => (hboth.2 h).1⟩

/-- Two properties that agree wherever `J` holds hold along the same runs. -/
theorem always_congr {J P Q : S → Prop}
    (hinv : ∀ s i s' o, J s → ok s i → M.step s i = some (s', o) → J s')
    (hiff : ∀ s, J s → (P s ↔ Q s)) (hs : J s) (hok : M.Follows ok s is) :
    M.Always P s is ↔ M.Always Q s is := by
  induction is generalizing s with
  | nil => exact hiff s hs
  | cons i is ih =>
    refine and_congr (hiff s hs) (forall₂_congr fun s' o => forall_congr' fun hstep => ?_)
    exact ih (hinv _ _ _ _ hs hok.1 hstep) (hok.2 _ _ hstep)

/-- A result is evaluated with a decidable property of it. -/
theorem exists_of_any {α : Type*} {x : Option α} {P : α → Prop} [DecidablePred P]
    (h : x.any (fun a => decide (P a)) = true) : ∃ a, x = some a ∧ P a := by
  rcases x with _ | a
  · cases h
  · exact ⟨a, rfl, of_decide_eq_true h⟩

/-- A run is evaluated with a decidable property of the state it ends in. -/
theorem exists_run_of_any {P : S → Prop} [DecidablePred P] {l : List I}
    (h : (M.run s l).any (fun s => decide (P s)) = true) : ∃ s', M.run s l = some s' ∧ P s' :=
  exists_of_any h

/-- What a step answers and does is right exactly when the step meets `D`: so along every run. -/
theorem eachAnswer_iff_eachStep {J : S → Prop} {C : S → I → O → S → Prop} {D : S → I → S → Prop}
    (hinv : ∀ s i s' o, J s → ok s i → M.step s i = some (s', o) → J s')
    (hiff : ∀ s i s' o, J s → ok s i → M.step s i = some (s', o) → (C s i o s' ↔ D s i s'))
    (hs : J s) (hok : M.Follows ok s is) : M.EachAnswer C s is ↔ M.EachStep D s is := by
  induction is generalizing s with
  | nil => exact Iff.rfl
  | cons i is ih =>
    refine forall₂_congr fun s' o => forall_congr' fun hstep => ?_
    exact and_congr (hiff _ _ _ _ hs hok.1 hstep)
      (ih (hinv _ _ _ _ hs hok.1 hstep) (hok.2 _ _ hstep))

end Runs

/-! ### History variables -/

/-- The machine with a history variable beside its state, brought up to date after each step. -/
def withHistory (record : G → S → I → O → S → G) : Machine (S × G) I O where
  step sg i := (M.step sg.1 i).map fun r => ((r.1, record sg.2 sg.1 i r.2 r.1), r.2)

section History

variable {M} {record : G → S → I → O → S → G} {ok : S → I → Prop}

theorem withHistory_step {sg sg' : S × G} {i : I} {o : O} :
    (M.withHistory record).step sg i = some (sg', o) ↔
      M.step sg.1 i = some (sg'.1, o) ∧ sg'.2 = record sg.2 sg.1 i o sg'.1 := by
  obtain ⟨s, g⟩ := sg
  obtain ⟨s', g'⟩ := sg'
  simp only [withHistory, Option.map_eq_some_iff, Prod.mk.injEq, Prod.exists]
  constructor
  · rintro ⟨t, o', h, ⟨rfl, rfl⟩, rfl⟩
    exact ⟨h, rfl⟩
  · rintro ⟨h, rfl⟩
    exact ⟨s', o, h, ⟨rfl, rfl⟩, rfl⟩

/-- A run of the machine is one with a history beside it. -/
theorem Reachable.remember {s₀ s : S} (h : M.Reachable ok s₀ s)
    (record : G → S → I → O → S → G) (g₀ : G) :
    ∃ g, (M.withHistory record).Reachable (fun sg => ok sg.1) (s₀, g₀) (s, g) := by
  induction h with
  | refl => exact ⟨g₀, .refl⟩
  | @step s s' i o _ hok hs ih =>
    obtain ⟨g, hg⟩ := ih
    exact ⟨record g s i o s', hg.step hok (withHistory_step.2 ⟨hs, rfl⟩)⟩

end History

/-! ### Two runs -/

section Related

variable {A B C D : Type*} {R : A → B → Prop} {T : C → D → Prop}

/-- Two computations whose first parts are related, and whose continuations keep that. -/
theorem rel_bind {x : Option A} {y : Option B} {g : A → Option C} {g' : B → Option D}
    (h : Option.Rel R x y)
    (hg : ∀ a b, x = some a → y = some b → R a b → Option.Rel T (g a) (g' b)) :
    Option.Rel T (x.bind g) (y.bind g') := by
  cases h with
  | none => exact .none
  | some hab => exact hg _ _ rfl rfl hab

/-- Two computations that begin by looking up the same thing. -/
theorem rel_look {x : Option A} {g : A → Option C} {g' : A → Option D}
    (hg : ∀ a, x = some a → Option.Rel T (g a) (g' a)) : Option.Rel T (x.bind g) (x.bind g') := by
  rcases x with _ | a
  · exact .none
  · exact hg a rfl

/-- Two computations that branch on the same condition. -/
theorem rel_ite {p : Prop} [Decidable p] {x y : Option C} {x' y' : Option D}
    (hx : p → Option.Rel T x x') (hy : ¬ p → Option.Rel T y y') :
    Option.Rel T (if p then x else y) (if p then x' else y') := by
  by_cases hp : p
  · rw [if_pos hp, if_pos hp]
    exact hx hp
  · rw [if_neg hp, if_neg hp]
    exact hy hp

end Related

/-- Related states answer an admissible input alike and move to related states. -/
def Bisimulation (ok : S → I → Prop) (R : S → S → Prop) : Prop :=
  ∀ s t i, R s t → ok s i →
    Option.Rel (fun a b : S × O => R a.1 b.1 ∧ a.2 = b.2) (M.step s i) (M.step t i)

/-- Related states answer every list of admissible inputs alike. -/
theorem Bisimulation.outputs_eq {M : Machine S I O} {ok : S → I → Prop} {R : S → S → Prop}
    (hR : M.Bisimulation ok R) {s t : S} {is : List I} (hst : R s t) (hok : M.Follows ok s is) :
    M.outputs s is = M.outputs t is := by
  induction is generalizing s t with
  | nil => rfl
  | cons i is ih =>
    have h := hR s t i hst hok.1
    cases hs : M.step s i with
    | none =>
      cases ht : M.step t i with
      | none => simp [outputs, hs, ht]
      | some b => rw [hs, ht] at h; cases h
    | some a =>
      cases ht : M.step t i with
      | none => rw [hs, ht] at h; cases h
      | some b =>
        rw [hs, ht] at h
        cases h with
        | some hab =>
          rw [outputs_cons hs, outputs_cons ht, hab.2, ih hab.1 (hok.2 _ _ hs)]

end Machine
