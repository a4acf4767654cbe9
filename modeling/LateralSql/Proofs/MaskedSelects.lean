/-
  Selects without the values of their parameters.

  `Select.masked` puts zero in the place of every value that would be bound to a placeholder.
  Two selects with the same masked form differ in those values only, so their statements have the
  same text and as many parameters (`statement_text_eq`, `length_params_eq`).  Drafts are searched
  for a column without a look at the values, so that the search commutes with masking.
-/
import LateralSql.Proofs.RewrittenSelects
import LateralSql.Query.Draft

namespace LateralSql.Sql

/-! ## Masked trees -/

/-- What stands for the value of a parameter. -/
def maskedValue : Value := .int 0

theorem Token.rewrite_id (t : Token) : t.rewrite id id = t := by
  cases t <;> rfl

/-- Puts zero in the place of every parameter. -/
def masking : Rewriting where
  name := id
  text := id
  param _ := maskedValue
  literal := id
  literal_tokens v := by
    rw [funext Token.rewrite_id, List.map_id', id]

/-- The expression with every parameter masked. -/
abbrev Expr.masked : Expr → Expr := Expr.rewrite masking

/-- The condition with every parameter masked. -/
abbrev Cond.masked : Cond → Cond := Cond.rewrite masking

/-- The select with every parameter masked, the numbers of rows among them. -/
abbrev Select.masked : Select → Select := Select.rewrite masking

/-- The table with every parameter masked. -/
abbrev Table.masked : Table → Table := Table.rewrite masking

/-- The join with every parameter masked. -/
abbrev Join.masked : Join → Join := Join.rewrite masking

/-! ## Statements -/

theorem bindTokens_masked (n : Nat) (ps : List Piece) :
    bindTokens n (ps.flatMap masking.piece) = bindTokens n ps := by
  induction ps generalizing n with
  | nil => rfl
  | cons p ps ih =>
    cases p with
    | token t => exact congrArg₂ List.cons t.rewrite_id (ih n)
    | param v type => exact congrArg (placeholder n type ++ ·) (ih (n + 1))

theorem length_params_masked (ps : List Piece) :
    (params (ps.flatMap masking.piece)).length = (params ps).length := by
  induction ps with
  | nil => rfl
  | cons p ps ih =>
    cases p with
    | token t => exact ih
    | param v type => exact congrArg (· + 1) ih

section
variable {s t : Select}

theorem statement_text_eq (h : s.masked = t.masked) :
    (s.statement .bind).text = (t.statement .bind).text := by
  rw [Select.statement, Select.statement, ← bindTokens_masked 1 s.pieces,
    ← bindTokens_masked 1 t.pieces, ← s.pieces_rewrite, ← t.pieces_rewrite,
    show s.rewrite masking = t.rewrite masking from h]

theorem length_params_eq (h : s.masked = t.masked) :
    (s.statement .bind).params.length = (t.statement .bind).params.length := by
  rw [Select.statement, Select.statement, ← length_params_masked s.pieces,
    ← length_params_masked t.pieces, ← s.pieces_rewrite, ← t.pieces_rewrite,
    show s.rewrite masking = t.rewrite masking from h]

end

/-! ## Parts of selects -/

theorem Expr.as_masked (e : Expr) (name : String) : (e.as name).masked = e.masked.as name :=
  e.as_rewrite masking name

theorem Table.as_masked (t : Table) (name : String) : (t.as name).masked = t.masked.as name := by
  cases t
  rfl

theorem Table.inSchema_masked (t : Table) (schema : Option String) :
    (t.inSchema schema).masked = t.masked.inSchema schema := by
  obtain ⟨source, name, columns⟩ := t
  cases source with
  | table s name => cases s <;> cases schema <;> rfl
  | function s name args => cases s <;> cases schema <;> rfl
  | _ => rfl

theorem Select.first_masked (s : Select) : s.first.masked = s.masked.first := by
  cases s
  rfl

end LateralSql.Sql

namespace LateralSql

/-! ## Drafts -/

/-- The draft with every parameter masked. -/
def Draft.masked (d : Draft) : Draft := ⟨d.columns.map Sql.Expr.masked, d.joins.map Sql.Join.masked⟩

namespace Draft

theorem columnName?_masked (c : Sql.Column) (e : Sql.Expr) :
    columnName? c e.masked = columnName? c e := by
  cases e with
  | named e name =>
    cases e with
    | column c =>
      obtain ⟨table, _⟩ := c
      cases table <;> rfl
    | _ => rfl
  | _ => rfl

theorem nameOf?_masked (d : Draft) (c : Sql.Column) : d.masked.nameOf? c = d.nameOf? c := by
  rw [nameOf?, nameOf?, masked, List.findSome?_map]
  congr 1
  funext e
  exact columnName?_masked c e

theorem withColumn_masked (d : Draft) (e : Sql.Expr) :
    (d.withColumn e).masked = d.masked.withColumn e.masked := by
  simp [withColumn, masked]

theorem withLateral_masked (d : Draft) (s : Sql.Select) (name : String) :
    (d.withLateral s name).masked = d.masked.withLateral s.masked name := by
  simp only [withLateral, masked, List.map_append]
  rfl

end Draft

end LateralSql
