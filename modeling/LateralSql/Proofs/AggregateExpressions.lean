/-
  The expressions that aggregates are written as.

  `Aggregate.WrittenAs` lists them: the function, whether equal values count once, the column that
  is read, and the type of a number.  An aggregate compiles to an expression exactly if it is
  written so (`Aggregate.expr_ok`).
-/
import LateralSql.Proofs.Runs
import LateralSql.Query.Aggregate

namespace LateralSql

open Sql (Expr)

/-- The functions over numbers, as the database has them. -/
inductive AggregateFunction.Folds : AggregateFunction → Sql.NumericAggregate → Prop
  | sum : Folds .sum .sum
  | avg : Folds .avg .avg
  | min : Folds .min .min
  | max : Folds .max .max

namespace Aggregate

/-- The type that a number is cast to: the wanted one, else `decimal` for averages and for fields
    with fractions, else `integer`. -/
inductive CastTo (a : Aggregate) (f : ScalarField) : String → Prop
  | wantedInt : a.resultType = some .int → CastTo a f "integer"
  | wantedFloat : a.resultType = some .float → CastTo a f "decimal"
  | fraction : a.resultType = none → a.function = .avg ∨ f.type = .float → CastTo a f "decimal"
  | whole : a.resultType = none → a.function ≠ .avg → f.type ≠ .float → CastTo a f "integer"

/-- How an aggregate is written over what it reads, which is a field in a column unless it counts
    rows. Equal values cannot be left out of a number. -/
inductive WrittenAs (a : Aggregate) : Option (ScalarField × Sql.Column) → Expr → Prop
  | rows : a.function = .count → a.distinct = false → WrittenAs a none .countAll
  | count {f : ScalarField} {column : Sql.Column} : a.function = .count →
      WrittenAs a (some (f, column)) (.count a.distinct (.column column))
  | texts {f : ScalarField} {column : Sql.Column} : a.function = .join → f.type = .string →
      WrittenAs a (some (f, column))
        (.stringAgg a.distinct (.column column) (.param (.string (a.separator.getD ","))))
  | number {f : ScalarField} {column : Sql.Column} {function : Sql.NumericAggregate}
      {type : String} : a.function.Folds function → f.type = .int ∨ f.type = .float →
      f.isList = false → a.distinct = false → a.CastTo f type →
      WrittenAs a (some (f, column)) (.cast (.aggregate function (.column column)) type)

theorem castTo_iff {a : Aggregate} {f : ScalarField} {type : String} :
    a.CastTo f type ↔ (a.numericType f).sqlName = type := by
  unfold numericType
  constructor
  · rintro (h | h | ⟨h, hfraction⟩ | ⟨h, havg, hfloat⟩)
    · rw [h]; rfl
    · rw [h]; rfl
    · rw [h, Option.getD_none, if_pos hfraction]; rfl
    · rw [h, Option.getD_none, if_neg (not_or.2 ⟨havg, hfloat⟩)]; rfl
  · rintro rfl
    cases h : a.resultType with
    | some wanted =>
      cases wanted with
      | int => exact .wantedInt h
      | float => exact .wantedFloat h
    | none =>
      rw [Option.getD_none]
      split_ifs with hfraction
      · exact .fraction h hfraction
      · exact .whole h (not_or.1 hfraction).1 (not_or.1 hfraction).2

theorem numericExpr_ok {a : Aggregate} {f : ScalarField} {column : Sql.Column}
    {function : Sql.NumericAggregate} {e : Expr} :
    a.numericExpr f column function = .ok e ↔
      (f.type = .int ∨ f.type = .float) ∧ f.isList = false ∧ a.distinct = false ∧
        .cast (.aggregate function (.column column)) (a.numericType f).sqlName = e := by
  unfold numericExpr
  split_ifs with htype hdistinct
  · refine iff_of_false not_false fun ⟨hnumeric, hlist, _⟩ => ?_
    simp [ScalarType.isNumeric, hnumeric, hlist] at htype
  · refine iff_of_false not_false fun ⟨_, _, h, _⟩ => ?_
    simp [h] at hdistinct
  · rw [pure_ok]
    simp only [ScalarType.isNumeric, Bool.or_eq_true, not_or, Bool.not_eq_true,
      Bool.not_eq_false', decide_eq_true_eq] at htype hdistinct
    simp [htype, hdistinct]

/-- **An aggregate compiles to the expression that it is written as.** -/
theorem expr_ok {a : Aggregate} {source : Option (ScalarField × Sql.Column)} {e : Expr} :
    a.expr source = .ok e ↔ a.WrittenAs source e := by
  have hnumber {f : ScalarField} {column : Sql.Column} {function : Sql.NumericAggregate}
      (hfolds : a.function.Folds function) (h : a.numericExpr f column function = .ok e) :
      a.WrittenAs (some (f, column)) e := by
    obtain ⟨hnumeric, hlist, hdistinct, rfl⟩ := numericExpr_ok.1 h
    exact .number hfolds hnumeric hlist hdistinct (castTo_iff.2 rfl)
  constructor
  · intro h
    unfold expr at h
    split at h
    · split_ifs at h with hcount hdistinct
      obtain rfl := pure_ok.1 h
      exact .rows hcount (by simpa using hdistinct)
    · split at h
      · next hcount =>
        obtain rfl := pure_ok.1 h
        exact .count hcount
      · next hjoin =>
        split_ifs at h with htype
        obtain rfl := pure_ok.1 h
        exact .texts hjoin htype
      · next hsum => exact hnumber (hsum ▸ .sum) h
      · next havg => exact hnumber (havg ▸ .avg) h
      · next hmin => exact hnumber (hmin ▸ .min) h
      · next hmax => exact hnumber (hmax ▸ .max) h
  · intro h
    cases h with
    | rows hcount hdistinct => simp only [expr, hcount, hdistinct]; rfl
    | count hcount => simp only [expr, hcount]; rfl
    | texts hjoin htype => simp only [expr, hjoin, htype]; rfl
    | @number f column function type hfolds hnumeric hlist hdistinct hcast =>
      have h : a.numericExpr f column function =
          .ok (.cast (.aggregate function (.column column)) type) :=
        numericExpr_ok.2 ⟨hnumeric, hlist, hdistinct, by rw [castTo_iff.1 hcast]⟩
      -- for each function over numbers the compiler has a branch of its own
      unfold expr
      cases hfunction : a.function <;> rw [hfunction] at hfolds <;> cases hfolds <;> exact h

/-- What an aggregate reads determines the expression. -/
theorem WrittenAs.unique {a : Aggregate} {source : Option (ScalarField × Sql.Column)} {e e' : Expr}
    (h : a.WrittenAs source e) (h' : a.WrittenAs source e') : e = e' :=
  Except.ok.inj ((expr_ok.2 h).symm.trans (expr_ok.2 h'))

/-- The expression of an aggregate has no name of its own. -/
theorem WrittenAs.as {a : Aggregate} {source : Option (ScalarField × Sql.Column)} {e : Expr}
    (h : a.WrittenAs source e) (name : String) : e.as name = e.named name := by
  cases h <;> rfl

end Aggregate

end LateralSql
