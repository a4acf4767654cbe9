/-
  Three-valued truth.

  A condition over nulls may be neither true nor false.  The connectives are Kleene's: on the
  order `no < unknown < yes`, conjunction is the minimum, disjunction the maximum, and
  negation turns the order around.

  `Truth.someOf` is how a database decides a comparison with several values; it is the
  disjunction of the single comparisons (`any_eq_someOf`).
-/
import Mathlib.Data.List.Basic

namespace LateralSql

/-- The truth values of a database. -/
inductive Truth where
  | no | unknown | yes
  deriving Repr, DecidableEq

namespace Truth

/-- Conjunction: no if one of them is, unknown if one of the others is. -/
def and : Truth → Truth → Truth
  | no, _ => no
  | unknown, no => no
  | unknown, _ => unknown
  | yes, t => t

/-- Disjunction: yes if one of them is, unknown if one of the others is. -/
def or : Truth → Truth → Truth
  | no, t => t
  | unknown, yes => yes
  | unknown, _ => unknown
  | yes, _ => yes

/-- Negation, which keeps what is unknown. -/
def not : Truth → Truth
  | no => yes
  | unknown => unknown
  | yes => no

/-- What is decided. -/
def ofBool (b : Bool) : Truth := if b then yes else no

/-- All of them hold. -/
def all (ts : List Truth) : Truth := ts.foldr and yes

/-- One of them holds. -/
def any (ts : List Truth) : Truth := ts.foldr or no

/-- `yes` if there is one, else `unknown` if there is one, else `no`. -/
def someOf (ts : List Truth) : Truth :=
  if yes ∈ ts then yes else if unknown ∈ ts then unknown else no

/-! ## Laws -/

@[simp] theorem and_yes (t : Truth) : t.and yes = t := by cases t <;> rfl

@[simp] theorem yes_and (t : Truth) : yes.and t = t := rfl

@[simp] theorem and_no (t : Truth) : t.and no = no := by cases t <;> rfl

@[simp] theorem or_no (t : Truth) : t.or no = t := by cases t <;> rfl

@[simp] theorem no_or (t : Truth) : no.or t = t := rfl

@[simp] theorem or_yes (t : Truth) : t.or yes = yes := by cases t <;> rfl

@[simp] theorem not_not (t : Truth) : t.not.not = t := by cases t <;> rfl

theorem and_assoc (s t u : Truth) : (s.and t).and u = s.and (t.and u) := by
  cases s <;> cases t <;> cases u <;> rfl

theorem or_assoc (s t u : Truth) : (s.or t).or u = s.or (t.or u) := by
  cases s <;> cases t <;> cases u <;> rfl

theorem and_eq_yes {s t : Truth} : s.and t = yes ↔ s = yes ∧ t = yes := by
  cases s <;> cases t <;> simp [and]

@[simp] theorem ofBool_eq_yes {b : Bool} : ofBool b = yes ↔ b = true := by
  cases b <;> simp [ofBool]

@[simp] theorem all_nil : all [] = yes := rfl

@[simp] theorem all_cons (t : Truth) (ts : List Truth) : all (t :: ts) = t.and (all ts) := rfl

@[simp] theorem any_nil : any [] = no := rfl

@[simp] theorem any_cons (t : Truth) (ts : List Truth) : any (t :: ts) = t.or (any ts) := rfl

theorem all_append (ts us : List Truth) : all (ts ++ us) = (all ts).and (all us) := by
  induction ts with
  | nil => rfl
  | cons t ts ih => rw [List.cons_append, all_cons, ih, all_cons, and_assoc]

theorem any_append (ts us : List Truth) : any (ts ++ us) = (any ts).or (any us) := by
  induction ts with
  | nil => rfl
  | cons t ts ih => rw [List.cons_append, any_cons, ih, any_cons, or_assoc]

/-- One that fails decides a conjunction. -/
theorem all_of_no {ts : List Truth} (h : no ∈ ts) : all ts = no := by
  obtain ⟨us, vs, rfl⟩ := List.append_of_mem h
  rw [all_append, all_cons]
  exact and_no _

/-- One that holds decides a disjunction. -/
theorem any_of_yes {ts : List Truth} (h : yes ∈ ts) : any ts = yes := by
  obtain ⟨us, vs, rfl⟩ := List.append_of_mem h
  rw [any_append, any_cons]
  exact or_yes _

theorem all_eq_yes {ts : List Truth} : all ts = yes ↔ ∀ t ∈ ts, t = yes := by
  induction ts with
  | nil => simp
  | cons t ts ih => rw [all_cons, and_eq_yes, ih, List.forall_mem_cons]

/-- **A disjunction is decided by the best of its members.** -/
theorem any_eq_someOf (ts : List Truth) : any ts = someOf ts := by
  induction ts with
  | nil => simp [someOf]
  | cons t ts ih =>
    rw [any_cons, ih]
    cases t <;> by_cases hy : yes ∈ ts <;> by_cases hu : unknown ∈ ts <;> simp [someOf, or, hy, hu]

end Truth

end LateralSql
