/-
  What a database makes of conditions.

  A `Database` has rows for its tables and an order on the values that are not null.  A
  condition is evaluated where some tables are bound to a row each (`Bindings`), and so has
  one of three truth values (`Cond.truth`); a select has the bindings of its tables that satisfy
  its joins and its condition (`Select.bindings`).

  Meaning is given to what restricts rows: columns and values, comparisons, tests for
  null, membership, existence, and selects that join stored tables and tables of values.
  All else (aggregates, functions, lateral joins, paging) evaluates to `none`.
-/
import LateralSql.Proofs.Truth
import LateralSql.Row.Assembler
import LateralSql.Sql.Tree

namespace LateralSql

/-- The content of a database, and how it orders values that are not null. -/
structure Database where
  /-- The rows of a table, by its schema and its name. -/
  rows : Option String → String → List Row
  order : Value → Value → Ordering
  order_swap : ∀ a b, order b a = (order a b).swap

namespace Database

/-- A test on the order of two values. With a null it is unknown. -/
def test (db : Database) (a b : Value) (p : Ordering → Bool) : Truth :=
  if a.isNull || b.isNull then .unknown else .ofBool (p (db.order a b))

/-- The two values are equal. -/
def equal (db : Database) (a b : Value) : Truth := db.test a b Ordering.isEq

theorem equal_comm (db : Database) (a b : Value) : db.equal a b = db.equal b a := by
  unfold equal test
  rw [db.order_swap a b, Bool.or_comm]
  cases db.order a b <;> rfl

end Database

/-- The rows in scope, by the names they are read under, innermost first. -/
abbrev Bindings := List (String × Row)

/-- The elements of which a condition holds, if it has a truth value for all of them. -/
def keep {α : Type} (p : α → Option Truth) : List α → Option (List α)
  | [] => some []
  | a :: as => do
    let t ← p a
    let rest ← keep p as
    return if t = .yes then a :: rest else rest

theorem keep_map {α β : Type} {p : β → Option Truth} {q : α → Truth} {f : α → β} {as : List α}
    (h : ∀ a ∈ as, p (f a) = some (q a)) :
    keep p (as.map f) = some ((as.filter (q · = .yes)).map f) := by
  induction as with
  | nil => rfl
  | cons a as ih =>
    rw [List.map_cons, keep, h a (by simp), ih fun b hb => h b (by simp [hb])]
    by_cases hq : q a = .yes <;> simp [hq]

theorem mapM_some {α β : Type} {f : α → Option β} {g : α → β} {as : List α}
    (h : ∀ a ∈ as, f a = some (g a)) : as.mapM f = some (as.map g) := by
  induction as with
  | nil => rfl
  | cons a as ih =>
    rw [List.mapM_cons, h a (by simp), ih fun b hb => h b (by simp [hb])]
    rfl

namespace Sql

/-- Whether the comparison holds of values in the given order. -/
def Comparison.holds : Comparison → Ordering → Bool
  | eq, o => o.isEq
  | ne, o => o.isNe
  | lt, o => o.isLT
  | le, o => o.isLE
  | gt, o => o.isGT
  | ge, o => o.isGE

/-- The value of a column of a table in scope, or of a parameter or literal. -/
def Expr.value (e : Expr) (env : Bindings) : Option Value :=
  match e.bare with
  | .column ⟨some table, name⟩ => (env.lookup table).map (·.get name)
  | .param v | .typed v _ | .literal v => some v
  | _ => none

/-- The value equals an element of the array; unknown if there is no array. -/
def equalsSome (db : Database) (v : Value) : Value → Truth
  | .list items => .someOf (items.map (db.equal v))
  | _ => .unknown

/-- The rows of a stored table, or of a table of values with named columns. -/
def Table.rows (db : Database) : Table → Option (List Row)
  | ⟨.table schema name, _, []⟩ => some (db.rows schema name)
  | ⟨.values rows, _, columns⟩ =>
    rows.mapM fun cells => do return columns.zip (← cells.mapM (·.value []))
  | _ => none

/-- The name a table is read under, which is its own if it is given no other. -/
def Table.label : Table → Option String
  | ⟨.table _ name, none, _⟩ => some name
  | ⟨_, name, _⟩ => name

/-- The bindings that a table adds to those before it, one for each of its rows. -/
def Table.bind (db : Database) (t : Table) (env : Bindings) : Option (List Bindings) := do
  let label ← t.label
  return (← t.rows db).map fun row => (label, row) :: env

/-- The bindings of several tables, in all combinations of their rows. -/
def bindTables (db : Database) : List Table → Bindings → Option (List Bindings)
  | [], env => some [env]
  | t :: ts, env => do return (← (← t.bind db env).mapM (bindTables db ts)).flatten

mutual

/-- The truth of an expression that states a condition. -/
def Expr.truth (db : Database) : Expr → Bindings → Option Truth
  | .compare op l r, env => do return db.test (← l.value env) (← r.value env) op.holds
  | .isIn e items, env => do
    let v ← e.value env
    return .someOf ((← items.mapM (·.value env)).map (db.equal v))
  | .isNull e, env => do return .ofBool (← e.value env).isNull
  | .isNotNull e, env => do return .ofBool !(← e.value env).isNull
  | .equalsAny v array, env => do return equalsSome db (← v.value env) (← array.value env)
  | .hasRows s, env => do return .ofBool !(← s.bindings db env).isEmpty
  | .hasNoRows s, env => do return .ofBool (← s.bindings db env).isEmpty
  | .cond c, env => c.truth db env
  | .named e _, env => e.truth db env
  | _, _ => none
termination_by structural e => e

/-- The truths of expressions that state conditions. -/
def truths (db : Database) : List Expr → Bindings → Option (List Truth)
  | [], _ => some []
  | e :: es, env => do return (← e.truth db env) :: (← truths db es env)
termination_by structural es => es

/-- The truth of a condition. -/
def Cond.truth (db : Database) : Cond → Bindings → Option Truth
  | .and es, env => (truths db es env).map .all
  | .or es, env => (truths db es env).map .any
  | .not e, env => (e.truth db env).map .not
  | .single e, env => e.truth db env
  | .always, _ => some .yes
  | .never, _ => some .no
termination_by structural c => c

/-- The bindings that a select yields a row for. -/
def Select.bindings (db : Database) : Select → Bindings → Option (List Bindings)
  | ⟨tables, _, joins, condition, _, none, none⟩, env => do
    keep (condition.truth db) (← bindJoins db joins (← bindTables db tables env))
  | _, _ => none
termination_by structural s => s

/-- The bindings with inner joins added, in order. -/
def bindJoins (db : Database) : List Join → List Bindings → Option (List Bindings)
  | [], envs => some envs
  | ⟨.inner, table, on, false⟩ :: js, envs => do
    let joined ← envs.mapM fun env => do keep (on.truth db) (← table.bind db env)
    bindJoins db js joined.flatten
  | _, _ => none
termination_by structural js => js

end

/-! ## Values -/

section
variable {env : Bindings} {t : String} {row : Row}

theorem Expr.value_col (h : env.lookup t = some row) (name : String) :
    (Expr.column (col t name)).value env = some (row.get name) := by
  simp [Expr.value, Expr.bare, col, h]

@[simp] theorem Expr.value_param (v : Value) : (Expr.param v).value env = some v := rfl

end

theorem mapM_value_params (vs : List Value) (env : Bindings) :
    (vs.map Expr.param).mapM (·.value env) = some vs := by
  rw [mapM_some (g := fun e => (e.value env).getD .null)]
  · simp [Function.comp_def]
  · simp

theorem truths_eq_mapM (db : Database) (es : List Expr) (env : Bindings) :
    truths db es env = es.mapM (·.truth db env) := by
  induction es with
  | nil => simp [truths]
  | cons e es ih => rw [truths, List.mapM_cons, ih]

end Sql

end LateralSql
