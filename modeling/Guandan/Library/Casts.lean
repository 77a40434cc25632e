import Guandan.Library.Json

/-!
# Members read with a cast

How a program reads the members of a decoded object when it states their types: a member that is missing or
`null` is nothing, and one of another type is an error (`none`).
-/

open Quoted

namespace Json

variable {α : Type*}

def asInt : Json → Option Int
  | num n => some n
  | _ => none

def asBool : Json → Option Bool
  | bool b => some b
  | _ => none

def asText : Json → Option Text
  | str s => some s
  | _ => none

def asList : Json → Option (List Json)
  | arr items => some items
  | _ => none

/-- An object as it is. -/
def asObject : Json → Option Json
  | obj members => some (obj members)
  | _ => none

/-- The cast of a value that may be missing or `null`. -/
def castOpt (cast : Json → Option α) : Option Json → Option (Option α)
  | none | some null => some none
  | some j => (cast j).map some

/-- The member under a key. -/
def find (j : Json) (key : String) : Option Json := j.get? key.toList

/-- The member under a key, cast. -/
def member (cast : Json → Option α) (j : Json) (key : String) : Option (Option α) :=
  castOpt cast (j.find key)

def holds : Option Json → Bool
  | some (bool b) => b
  | _ => false

/-- The member under a key is `true`. -/
def flagged (j : Json) (key : String) : Bool := holds (j.find key)

@[simp]
theorem castOpt_num (n : Int) : castOpt asInt (some (num n)) = some (some n) := rfl

@[simp]
theorem castOpt_bool (b : Bool) : castOpt asBool (some (bool b)) = some (some b) := rfl

@[simp]
theorem castOpt_str (s : Text) : castOpt asText (some (str s)) = some (some s) := rfl

@[simp]
theorem castOpt_arr (items : List Json) : castOpt asList (some (arr items)) = some (some items) := rfl

@[simp]
theorem castOpt_none (cast : Json → Option α) : castOpt cast none = some none := rfl

@[simp]
theorem castOpt_obj (members : List (Text × Json)) :
    castOpt asObject (some (obj members)) = some (some (obj members)) := rfl

@[simp]
theorem holds_bool (b : Bool) : holds (some (bool b)) = b := rfl

@[simp]
theorem holds_none : holds none = false := rfl

/-- In an object whose keys are given by name they are looked up by name, the last one first. -/
theorem find_names (fields : List (String × Json)) (key : String) :
    (obj (fields.map fun f => (f.1.toList, f.2))).find key =
      (fields.reverse.find? fun f => f.1 == key).map (·.2) := by
  have hname : ((fun m : Text × Json => m.1 == key.toList) ∘ fun f : String × Json => (f.1.toList, f.2)) =
      fun f => f.1 == key := by
    funext f
    by_cases h : f.1 = key <;> simp [h, String.toList_inj]
  rw [find, get?, ← List.map_reverse, List.find?_map, hname, Option.map_map]
  rfl

/-- A list of values that are all cast. -/
theorem mapM_map {β γ : Type*} {cast : γ → Option β} {f : α → γ} {g : α → β} {as : List α}
    (h : ∀ a ∈ as, cast (f a) = some (g a)) : (as.map f).mapM cast = some (as.map g) := by
  induction as with
  | nil => rfl
  | cons a as ih =>
    rw [List.map_cons, List.mapM_cons, h a (List.mem_cons_self ..),
      ih fun b hb => h b (List.mem_cons_of_mem a hb)]
    rfl

end Json
