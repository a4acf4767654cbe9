/-
  Selects with other names and values.

  A `Rewriting` says what is put in the place of the names, the parameters and the literals of a
  tree; the words and the shape of the statement stay as they are.  The statement of the rewritten
  tree is the rewritten statement, piece by piece (`Select.pieces_rewrite`).  Conditions are
  combined without a look at names and values, so that combining commutes with rewriting.
-/
import LateralSql.Proofs.Contents

namespace LateralSql.Sql

/-! ## Rewritings -/

/-- The token with other names and texts. -/
def Token.rewrite (name text : String → String) : Token → Token
  | .plain s => .plain s
  | .ident n => .ident (name n)
  | .text s => .text (text s)

/-- What is put in the place of names, parameters and literals.  A literal has as many tokens as
    the one that it replaces. -/
structure Rewriting where
  name : String → String
  text : String → String
  param : Value → Value
  literal : Value → Value
  literal_tokens : ∀ v, Sql.literal (literal v) = (Sql.literal v).map (Token.rewrite name text)

/-- What a piece becomes. -/
def Rewriting.piece (w : Rewriting) : Piece → List Piece
  | .token t => [.token (t.rewrite w.name w.text)]
  | .param v type => [.param (w.param v) type]

/-! ## Rewritten trees -/

variable (w : Rewriting)

mutual

/-- The expression with its names, parameters and literals rewritten. -/
def Expr.rewrite : Expr → Expr
  | .column c => .column ⟨c.table.map w.name, w.name c.name⟩
  | .star t => .star (t.map w.name)
  | .param v => .param (w.param v)
  | .typed v type => .typed (w.param v) type
  | .literal v => .literal (w.literal v)
  | .countAll => .countAll
  | .count distinct e => .count distinct e.rewrite
  | .aggregate f e => .aggregate f e.rewrite
  | .stringAgg distinct e separator => .stringAgg distinct e.rewrite separator.rewrite
  | .cast e type => .cast e.rewrite type
  | .call name args => .call name (rewriteExprs args)
  | .unnest e => .unnest e.rewrite
  | .compare op l r => .compare op l.rewrite r.rewrite
  | .isIn e items => .isIn e.rewrite (rewriteExprs items)
  | .isNull e => .isNull e.rewrite
  | .isNotNull e => .isNotNull e.rewrite
  | .equalsAny value array => .equalsAny value.rewrite array.rewrite
  | .hasRows s => .hasRows s.rewrite
  | .hasNoRows s => .hasNoRows s.rewrite
  | .cond c => .cond c.rewrite
  | .named e name => .named e.rewrite (w.name name)
termination_by structural e => e

/-- The expressions, each rewritten. -/
def rewriteExprs : List Expr → List Expr
  | [] => []
  | e :: es => e.rewrite :: rewriteExprs es
termination_by structural es => es

/-- The condition with its expressions rewritten. -/
def Cond.rewrite : Cond → Cond
  | .and es => .and (rewriteExprs es)
  | .or es => .or (rewriteExprs es)
  | .not e => .not e.rewrite
  | .single e => .single e.rewrite
  | .always => .always
  | .never => .never
termination_by structural c => c

/-- The select with all of its parts rewritten. -/
def Select.rewrite : Select → Select
  | ⟨tables, columns, joins, condition, order, limit, offset⟩ =>
    ⟨rewriteTables tables, rewriteExprs columns, rewriteJoins joins, condition.rewrite,
      rewriteOrder order, rewriteOption limit, rewriteOption offset⟩
termination_by structural s => s

/-- The expression rewritten, if there is one. -/
def rewriteOption : Option Expr → Option Expr
  | none => none
  | some e => some e.rewrite
termination_by structural e => e

/-- The tables, each rewritten. -/
def rewriteTables : List Table → List Table
  | [] => []
  | t :: ts => t.rewrite :: rewriteTables ts
termination_by structural ts => ts

/-- The table with its source and its names rewritten. -/
def Table.rewrite : Table → Table
  | ⟨source, name, columns⟩ => ⟨source.rewrite, name.map w.name, columns.map w.name⟩
termination_by structural t => t

/-- The source with its names and expressions rewritten. -/
def Source.rewrite : Source → Source
  | .table schema name => .table (schema.map w.name) (w.name name)
  | .query s => .query s.rewrite
  | .values rows => .values (rewriteRows rows)
  | .function schema name args => .function (schema.map w.name) (w.name name) (rewriteExprs args)
  | .expr e => .expr e.rewrite
termination_by structural s => s

/-- The rows, each rewritten. -/
def rewriteRows : List (List Expr) → List (List Expr)
  | [] => []
  | row :: rows => rewriteExprs row :: rewriteRows rows
termination_by structural rows => rows

/-- The joins, each rewritten. -/
def rewriteJoins : List Join → List Join
  | [] => []
  | j :: js => j.rewrite :: rewriteJoins js
termination_by structural js => js

/-- The join with its table and its condition rewritten. -/
def Join.rewrite : Join → Join
  | ⟨kind, table, on, lateral⟩ => ⟨kind, table.rewrite, on.rewrite, lateral⟩
termination_by structural j => j

/-- The terms of an order, each rewritten. -/
def rewriteOrder : List SortTerm → List SortTerm
  | [] => []
  | o :: os => o.rewrite :: rewriteOrder os
termination_by structural os => os

/-- The term with its expression rewritten. -/
def SortTerm.rewrite : SortTerm → SortTerm
  | ⟨e, direction⟩ => ⟨e.rewrite, direction⟩
termination_by structural o => o

end

theorem rewriteExprs_eq (es : List Expr) : rewriteExprs w es = es.map (Expr.rewrite w) := by
  induction es with
  | nil => rfl
  | cons e es ih => rw [rewriteExprs, ih, List.map_cons]

theorem rewriteJoins_eq (js : List Join) : rewriteJoins w js = js.map (Join.rewrite w) := by
  induction js with
  | nil => rfl
  | cons j js ih => rw [rewriteJoins, ih, List.map_cons]

theorem rewriteRows_eq (rows : List (List Expr)) :
    rewriteRows w rows = rows.map (List.map (Expr.rewrite w)) := by
  induction rows with
  | nil => rfl
  | cons row rows ih => rw [rewriteRows, ih, List.map_cons, rewriteExprs_eq]

/-! ## Rewritten pieces -/

@[simp] theorem rewrite_plain (s : String) : (plain s).flatMap w.piece = plain s := rfl

@[simp] theorem rewrite_ident (name : String) :
    (ident name).flatMap w.piece = ident (w.name name) := rfl

@[simp] theorem rewrite_qualified (qualifier : Option String) (name : String) :
    (qualified qualifier name).flatMap w.piece =
      qualified (qualifier.map w.name) (w.name name) := by
  cases qualifier <;> rfl

@[simp] theorem rewrite_literal (v : Value) :
    ((literal v).map .token).flatMap w.piece = (literal (w.literal v)).map .token := by
  rw [w.literal_tokens, List.map_map, List.flatMap_map, List.map_eq_flatMap]
  rfl

@[simp] theorem rewrite_namePieces (name : Option String) (columns : List String) :
    (namePieces name columns).flatMap w.piece =
      namePieces (name.map w.name) (columns.map w.name) := by
  have hident : (List.flatMap w.piece ·) ∘ ident = ident ∘ w.name := rfl
  cases name with
  | none => rfl
  | some n => cases columns <;> simp [namePieces, parens, separated_eq, hident]

theorem Cond.isAlways_rewrite (c : Cond) : (c.rewrite w).isAlways = c.isAlways := by
  cases c <;> rfl

theorem eq_of_parens {ps qs : List Piece} (h : parens ps = (parens qs).flatMap w.piece) :
    ps = qs.flatMap w.piece := by
  rw [flatMap_parens] at h
  exact List.append_cancel_left (List.append_cancel_right h)

/-- A negation has its brackets, or those of what it negates, in the rewritten form too. -/
theorem unbracketed_rewrite {e : Expr} (h : (e.rewrite w).pieces = e.pieces.flatMap w.piece) :
    (e.rewrite w).unbracketed = e.unbracketed.flatMap w.piece := by
  cases e with
  | cond c =>
    cases c with
    | and es => exact eq_of_parens w h
    | or es => exact eq_of_parens w h
    | _ => exact h
  | named e name =>
    -- the brackets are those of the bare expression, so its name is dropped from both sides
    have hnamed : (e.rewrite w).pieces = e.pieces.flatMap w.piece := by
      rw [Expr.rewrite, Expr.pieces, Expr.pieces, List.flatMap_append, List.flatMap_append,
        rewrite_plain, rewrite_ident] at h
      exact List.append_cancel_right (List.append_cancel_right h)
    cases e with
    | cond c =>
      cases c with
      | and es => exact eq_of_parens w hnamed
      | or es => exact eq_of_parens w hnamed
      | _ => exact h
    | _ => exact h
  | _ => exact h

attribute [local simp] parens separated_eq Expr.pieces Expr.rewrite Cond.pieces Cond.rewrite

mutual

theorem Expr.pieces_rewrite : ∀ e : Expr, (e.rewrite w).pieces = e.pieces.flatMap w.piece
  | .column c => by simp
  | .star none => rfl
  | .star (some t) => rfl
  | .param v => rfl
  | .typed v type => rfl
  | .literal v => by simp
  | .countAll => rfl
  | .count distinct e => by cases distinct <;> simp [distinctText, e.pieces_rewrite]
  | .aggregate _ e => by simp [e.pieces_rewrite]
  | .stringAgg distinct e separator => by
    cases distinct <;> simp [distinctText, e.pieces_rewrite, separator.pieces_rewrite]
  | .cast e _ => by simp [e.pieces_rewrite]
  | .call _ args => by simp [exprPieces_rewrite args]
  | .unnest e => by simp [e.pieces_rewrite]
  | .compare _ l r => by simp [l.pieces_rewrite, r.pieces_rewrite]
  | .isIn _ [] => rfl
  | .isIn e (item :: items) => by
    simp [rewriteExprs, e.pieces_rewrite, item.pieces_rewrite, exprPieces_rewrite items]
  | .isNull e => by simp [e.pieces_rewrite]
  | .isNotNull e => by simp [e.pieces_rewrite]
  | .equalsAny value array => by simp [value.pieces_rewrite, array.pieces_rewrite]
  | .hasRows s => by simp [s.pieces_rewrite]
  | .hasNoRows s => by simp [s.pieces_rewrite]
  | .cond c => by simp [c.pieces_rewrite]
  | .named e name => by simp [e.pieces_rewrite]
termination_by structural e => e

theorem exprPieces_rewrite :
    ∀ es : List Expr, exprPieces (rewriteExprs w es) = (exprPieces es).map (·.flatMap w.piece)
  | [] => rfl
  | e :: es => by simp [exprPieces, rewriteExprs, e.pieces_rewrite, exprPieces_rewrite es]
termination_by structural es => es

theorem Cond.pieces_rewrite : ∀ c : Cond, (c.rewrite w).pieces = c.pieces.flatMap w.piece
  | .and es => by simp [exprPieces_rewrite es]
  | .or es => by simp [exprPieces_rewrite es]
  | .not e => by
    rw [Cond.rewrite, Cond.pieces_not, Cond.pieces_not, unbracketed_rewrite w e.pieces_rewrite]
    simp
  | .single e => by simp [e.pieces_rewrite]
  | .always => rfl
  | .never => rfl
termination_by structural c => c

theorem Select.pieces_rewrite : ∀ s : Select, (s.rewrite w).pieces = s.pieces.flatMap w.piece
  | ⟨tables, columns, joins, condition, order, limit, offset⟩ => by
    have hcolumns : columnPieces (rewriteExprs w columns) =
        (columnPieces columns).flatMap w.piece := by
      rw [columnPieces, columnPieces, exprPieces_rewrite columns]
      cases columns <;> simp [rewriteExprs]
    have htables : (rewriteTables w tables).isEmpty = tables.isEmpty := by cases tables <;> rfl
    have horder : (rewriteOrder w order).isEmpty = order.isEmpty := by cases order <;> rfl
    rw [Select.rewrite, Select.pieces_eq, Select.pieces_eq, hcolumns, htables, horder,
      tablePieces_rewrite tables, joinPieces_rewrite joins, Cond.isAlways_rewrite,
      condition.pieces_rewrite, orderPieces_rewrite order, optionPieces_rewrite _ limit,
      optionPieces_rewrite _ offset]
    simp only [List.flatMap_append, flatMap_clause, flatMap_intercalate, rewrite_plain,
      separated_eq]
    rfl
termination_by structural s => s

theorem optionPieces_rewrite (word : String) : ∀ e : Option Expr,
    optionPieces word (rewriteOption w e) = (optionPieces word e).flatMap w.piece
  | none => rfl
  | some e => by simp [optionPieces, rewriteOption, e.pieces_rewrite]
termination_by structural e => e

theorem tablePieces_rewrite :
    ∀ ts : List Table, tablePieces (rewriteTables w ts) = (tablePieces ts).map (·.flatMap w.piece)
  | [] => rfl
  | t :: ts => by simp [tablePieces, rewriteTables, t.pieces_rewrite, tablePieces_rewrite ts]
termination_by structural ts => ts

theorem Table.pieces_rewrite : ∀ t : Table, (t.rewrite w).pieces = t.pieces.flatMap w.piece
  | ⟨source, name, columns⟩ => by simp [Table.pieces, Table.rewrite, source.pieces_rewrite]
termination_by structural t => t

theorem Source.pieces_rewrite : ∀ s : Source, (s.rewrite w).pieces = s.pieces.flatMap w.piece
  | .table schema name => by simp [Source.pieces, Source.rewrite]
  | .query s => by simp [Source.pieces, Source.rewrite, s.pieces_rewrite]
  | .values rows => by simp [Source.pieces, Source.rewrite, rowPieces_rewrite rows]
  | .function schema name args => by
    simp [Source.pieces, Source.rewrite, exprPieces_rewrite args]
  | .expr e => by simp [Source.pieces, Source.rewrite, e.pieces_rewrite]
termination_by structural s => s

theorem rowPieces_rewrite : ∀ rows : List (List Expr),
    rowPieces (rewriteRows w rows) = (rowPieces rows).map (·.flatMap w.piece)
  | [] => rfl
  | row :: rows => by
    simp [rowPieces, rewriteRows, exprPieces_rewrite row, rowPieces_rewrite rows]
termination_by structural rows => rows

theorem joinPieces_rewrite :
    ∀ js : List Join, joinPieces (rewriteJoins w js) = (joinPieces js).flatMap w.piece
  | [] => rfl
  | j :: js => by simp [joinPieces, rewriteJoins, j.pieces_rewrite, joinPieces_rewrite js]
termination_by structural js => js

theorem Join.pieces_rewrite : ∀ j : Join, (j.rewrite w).pieces = j.pieces.flatMap w.piece
  | ⟨kind, table, on, lateral⟩ => by
    have hon : (if (on.rewrite w).isAlways then plain "true" else (on.rewrite w).pieces) =
        (if on.isAlways then plain "true" else on.pieces).flatMap w.piece := by
      rw [Cond.isAlways_rewrite, on.pieces_rewrite]
      split <;> simp
    rw [Join.rewrite, Join.pieces, Join.pieces, hon, table.pieces_rewrite]
    cases lateral <;> simp
termination_by structural j => j

theorem orderPieces_rewrite : ∀ os : List SortTerm,
    orderPieces (rewriteOrder w os) = (orderPieces os).map (·.flatMap w.piece)
  | [] => rfl
  | o :: os => by simp [orderPieces, rewriteOrder, o.pieces_rewrite, orderPieces_rewrite os]
termination_by structural os => os

theorem SortTerm.pieces_rewrite : ∀ o : SortTerm, (o.rewrite w).pieces = o.pieces.flatMap w.piece
  | ⟨e, .ascending⟩ => by simp [SortTerm.pieces, SortTerm.rewrite, e.pieces_rewrite]
  | ⟨e, .descending⟩ => by simp [SortTerm.pieces, SortTerm.rewrite, e.pieces_rewrite]
termination_by structural o => o

end

/-! ## Combining conditions -/

theorem Expr.bare_rewrite (e : Expr) : (e.rewrite w).bare = e.bare.rewrite w := by
  cases e <;> rfl

@[simp] theorem Expr.as_rewrite (e : Expr) (name : String) :
    (e.as name).rewrite w = (e.rewrite w).as (w.name name) := by
  rw [Expr.as, Expr.as, e.bare_rewrite, Expr.rewrite]

namespace Cond

theorem ofExpr_rewrite (e : Expr) : (ofExpr e).rewrite w = ofExpr (e.rewrite w) := by
  unfold ofExpr
  rw [e.bare_rewrite]
  cases e.bare <;> rfl

theorem any_isNever_rewrite (cs : List Cond) :
    (cs.map (rewrite w)).any isNever = cs.any isNever := by
  rw [List.any_map]
  congr 1
  funext c
  cases c <;> rfl

theorem any_isAlways_rewrite (cs : List Cond) :
    (cs.map (rewrite w)).any isAlways = cs.any isAlways := by
  rw [List.any_map]
  congr 1
  funext c
  exact c.isAlways_rewrite w

theorem flatMap_conjuncts_rewrite (cs : List Cond) :
    (cs.map (rewrite w)).flatMap conjuncts = (cs.flatMap conjuncts).map (Expr.rewrite w) := by
  rw [List.flatMap_map, List.map_flatMap]
  congr 1
  funext c
  cases c <;> simp [conjuncts, rewriteExprs_eq]

theorem flatMap_disjuncts_rewrite (cs : List Cond) :
    (cs.map (rewrite w)).flatMap disjuncts = (cs.flatMap disjuncts).map (Expr.rewrite w) := by
  rw [List.flatMap_map, List.map_flatMap]
  congr 1
  funext c
  cases c <;> simp [disjuncts, rewriteExprs_eq]

theorem all_rewrite (cs : List Cond) : (all cs).rewrite w = all (cs.map (rewrite w)) := by
  rw [all, all, any_isNever_rewrite, flatMap_conjuncts_rewrite]
  split
  · rfl
  · rcases cs.flatMap conjuncts with _ | ⟨e, _ | ⟨f, es⟩⟩
    · rfl
    · exact ofExpr_rewrite w e
    · exact congrArg and (rewriteExprs_eq w _)

theorem any_rewrite (cs : List Cond) : (any cs).rewrite w = any (cs.map (rewrite w)) := by
  rw [any, any, any_isAlways_rewrite, flatMap_disjuncts_rewrite]
  split
  · rfl
  · rcases cs.flatMap disjuncts with _ | ⟨e, _ | ⟨f, es⟩⟩
    · rfl
    · exact ofExpr_rewrite w e
    · exact congrArg or (rewriteExprs_eq w _)

theorem both_rewrite (c d : Cond) : (c.both d).rewrite w = (c.rewrite w).both (d.rewrite w) :=
  all_rewrite w [c, d]

theorem negate_rewrite (c : Cond) : c.negate.rewrite w = (c.rewrite w).negate := by
  cases c with
  | not e => exact ofExpr_rewrite w e
  | _ => rfl

end Cond

end LateralSql.Sql
