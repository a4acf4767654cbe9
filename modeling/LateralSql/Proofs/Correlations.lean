/-
  Which columns a correlation asks to be equal.

  The conditions that tie a query to its parent are conjunctions of equations between columns
  (`Cond.equations`).  A correlation equates all columns of its link: the parent's with those of the
  child or of the junction, and the junction's with the child's.
-/
import LateralSql.Proofs.Runs

namespace LateralSql

open Sql (col)

namespace Sql

/-- The columns that a conjunct asks to be equal, if it is an equation between columns. -/
def Expr.equation? : Expr → Option (Column × Column)
  | .cond (.single (.compare .eq (.column l) (.column r))) => some (l, r)
  | _ => none

/-- The pairs of columns that a condition asks to be equal. -/
def Cond.equations (c : Cond) : List (Column × Column) := c.conjuncts.filterMap Expr.equation?

/-- The conjuncts of equalities are the equalities. -/
theorem Cond.conjuncts_equalities (pairs : List (String × String)) (l r : String) :
    (equalities pairs l r).conjuncts =
      pairs.map fun p => .cond (single ((col l p.1).equals (col r p.2))) := by
  have hnever : (pairs.map fun p => single ((col l p.1).equals (col r p.2))).any isNever =
      false := by
    rw [List.any_map, List.any_eq_false]
    intro p _
    simp [isNever]
  have hparts : (pairs.map fun p => single ((col l p.1).equals (col r p.2))).flatMap conjuncts =
      pairs.map fun p => .cond (single ((col l p.1).equals (col r p.2))) := by
    rw [List.flatMap_map, List.map_eq_flatMap]
    rfl
  unfold equalities all
  rw [hnever, hparts, if_neg Bool.false_ne_true]
  rcases pairs with _ | ⟨p, _ | ⟨q, pairs⟩⟩
  · rfl
  · rfl
  · rfl

theorem Cond.isNever_equalities (pairs : List (String × String)) (l r : String) :
    (equalities pairs l r).isNever = false := by
  cases hc : equalities pairs l r with
  | never =>
    have hparts := conjuncts_equalities pairs l r
    rw [hc] at hparts
    have hmem : Expr.cond never ∈ never.conjuncts := List.mem_singleton_self _
    rw [hparts] at hmem
    obtain ⟨_, -, h⟩ := List.mem_map.1 hmem
    cases h
  | _ => rfl

theorem Cond.equations_equalities (pairs : List (String × String)) (l r : String) :
    (equalities pairs l r).equations = pairs.map fun p => (col l p.1, col r p.2) := by
  rw [equations, conjuncts_equalities, List.filterMap_map]
  exact List.filterMap_eq_map_iff_forall_eq_some.2 fun p _ => rfl

end Sql

namespace Link

variable {c : Compiler} {l : Link} {parent child : String} {r : Correlation} {n n' : Names}

/-- **The parent's columns are equated**, in order, with columns of the child's table or of the
    junction. -/
theorem equations_condition (h : l.correlate c parent child n = .ok (r, n')) :
    r.condition.equations.map (·.2) = l.parentColumns.map (col parent) ∧
      ∀ p ∈ r.condition.equations,
        p.1.table = some child ∨ ∃ j ∈ r.joins, p.1.table = j.table.name := by
  rcases correlate_cases h with
    ⟨pairs, htop, -, rfl⟩ | ⟨table, toParent, toChild, htop, junction, -, rfl⟩
  · rw [Sql.Cond.equations_equalities, parentColumns, htop, List.map_map, List.map_map,
      List.map_map]
    refine ⟨rfl, fun p hp => ?_⟩
    obtain ⟨pair, -, rfl⟩ := List.mem_map.1 hp
    exact .inl rfl
  · rw [Sql.Cond.equations_equalities, parentColumns, htop, List.map_map, List.map_map]
    refine ⟨rfl, fun p hp => ?_⟩
    obtain ⟨pair, -, rfl⟩ := List.mem_map.1 hp
    exact .inr ⟨_, List.mem_singleton_self _, rfl⟩

/-- **A junction's columns are equated with the child's**, in order. -/
theorem equations_joins (h : l.correlate c parent child n = .ok (r, n')) :
    ∀ j ∈ r.joins, j.on.equations.map (·.2) = l.childColumns.map (col child) ∧
      ∀ p ∈ j.on.equations, p.1.table = j.table.name := by
  rcases correlate_cases h with
    ⟨pairs, htop, -, rfl⟩ | ⟨table, toParent, toChild, htop, junction, -, rfl⟩
  · intro j hj
    cases hj
  · intro j hj
    obtain rfl := List.mem_singleton.1 hj
    rw [Sql.Cond.equations_equalities, childColumns, htop, List.map_map, List.map_map]
    refine ⟨rfl, fun p hp => ?_⟩
    obtain ⟨pair, -, rfl⟩ := List.mem_map.1 hp
    rfl

end Link

end LateralSql
