/-
  Which names a select binds, and where they can be read.

  A table is read under its name, a select, a list of values or the elements of an array by the
  columns that the statement gives them (`Binding`).  `Select.scoped` says what a database asks of
  a select that stands where some names are bound already: the tables of a select are in scope in
  its columns, in its condition and in the selects within these; a joined table comes into scope
  with its own condition, and a lateral one may read what was joined before it.
  `Select.tablesWithin` lists the tables that a select has at any depth.
-/
import LateralSql.Proofs.Outputs

namespace LateralSql.Sql

/-! ## Bindings -/

/-- A name by which columns are read. -/
structure Binding where
  name : String
  /-- The columns there are, if the statement tells. -/
  columns : Option (List String)
  deriving Repr, DecidableEq

/-- Whether there is such a column, as far as the statement tells. -/
def Binding.offers (b : Binding) (column : String) : Bool := b.columns.all (·.contains column)

/-- The column is read by a name that is bound and offers it. -/
def Column.visible (env : List Binding) (c : Column) : Bool :=
  env.any fun b => c.table == some b.name && b.offers c.name

/-- The columns that the statement gives to a table: those of a select, as far as they are not
    declared anew, and those declared of values and of an expression. -/
def Source.columns? (declared : List String) : Source → Option (List String)
  | .query s => some (declared ++ s.outputs.drop declared.length)
  | .values _ => some declared
  | .expr _ => some declared
  | .table _ _ => none
  | .function _ _ _ => none

/-- The name that a table is read under, with the columns that it offers. -/
def Table.bindings (t : Table) : List Binding :=
  t.name.toList.map (⟨·, t.source.columns? t.columns⟩)

/-- The names that tables are read under. -/
def tableBindings (ts : List Table) : List Binding := ts.flatMap Table.bindings

/-- The names that joined tables are read under. -/
def joinBindings (js : List Join) : List Binding := js.flatMap (·.table.bindings)

/-- What the columns and the condition of a select can read. -/
def Select.scope (s : Select) : List Binding := tableBindings s.tables ++ joinBindings s.joins

/-! ## Scopes -/

/-- All columns of a table that is joined. -/
def Expr.isStarOf (joined : List String) : Expr → Bool
  | .star (some t) => joined.contains t
  | _ => false

/-- The rows are sorted by one of the columns. -/
def SortTerm.namesOutput (outputs : List String) : SortTerm → Bool
  | ⟨.column ⟨none, x⟩, _⟩ => outputs.contains x
  | _ => false

mutual

/-- Every column of the expression can be read where `env` is bound. -/
def Expr.scoped (env : List Binding) : Expr → Bool
  | .column c => c.visible env
  | .star _ => false
  | .param _ => true
  | .typed _ _ => true
  | .literal _ => true
  | .countAll => true
  | .count _ e => e.scoped env
  | .aggregate _ e => e.scoped env
  | .stringAgg _ e separator => e.scoped env && separator.scoped env
  | .cast e _ => e.scoped env
  | .call _ args => exprsScoped env args
  | .unnest e => e.scoped env
  | .compare _ l r => l.scoped env && r.scoped env
  | .isIn e items => e.scoped env && exprsScoped env items
  | .isNull e => e.scoped env
  | .isNotNull e => e.scoped env
  | .equalsAny value array => value.scoped env && array.scoped env
  | .hasRows s => s.scoped env
  | .hasNoRows s => s.scoped env
  | .cond c => c.scoped env
  | .named e _ => e.scoped env
termination_by structural e => e

/-- Every column of the expressions can be read where `env` is bound. -/
def exprsScoped (env : List Binding) : List Expr → Bool
  | [] => true
  | e :: es => e.scoped env && exprsScoped env es
termination_by structural es => es

/-- Every column of the condition can be read where `env` is bound. -/
def Cond.scoped (env : List Binding) : Cond → Bool
  | .and es => exprsScoped env es
  | .or es => exprsScoped env es
  | .not e => e.scoped env
  | .single e => e.scoped env
  | .always => true
  | .never => true
termination_by structural c => c

/-- A select that stands where `outer` is bound reads one table and yields a column. Its columns are
    expressions or all columns of what it joins, and it is sorted by columns that it yields. How
    many rows it yields depends on none of its own. -/
def Select.scoped (outer : List Binding) : Select → Bool
  | ⟨tables, columns, joins, condition, order, limit, offset⟩ =>
    tables.length == 1 && !columns.isEmpty &&
    tablesScoped outer tables && joinsScoped outer (tableBindings tables) joins &&
    columnsScoped (joins.filterMap (·.table.name))
      (tableBindings tables ++ joinBindings joins ++ outer) columns &&
    condition.scoped (tableBindings tables ++ joinBindings joins ++ outer) &&
    order.all (·.namesOutput (columns.flatMap (Expr.outputs (joinOutputs joins)))) &&
    optionScoped outer limit && optionScoped outer offset
termination_by structural s => s

/-- Every column of the expression, if there is one, can be read where `env` is bound. -/
def optionScoped (env : List Binding) : Option Expr → Bool
  | none => true
  | some e => e.scoped env
termination_by structural e => e

/-- Every column can be read, or stands for all columns of what is joined. -/
def columnsScoped (joined : List String) (env : List Binding) : List Expr → Bool
  | [] => true
  | e :: es => (e.isStarOf joined || e.scoped env) && columnsScoped joined env es
termination_by structural es => es

/-- The tables have names and read what `env` binds. -/
def tablesScoped (env : List Binding) : List Table → Bool
  | [] => true
  | t :: ts => t.scoped env && tablesScoped env ts
termination_by structural ts => ts

/-- A table has a name and reads what `env` binds. -/
def Table.scoped (env : List Binding) : Table → Bool
  | ⟨source, name, _⟩ => name.isSome && source.scoped env
termination_by structural t => t

/-- What a table is read from reads what `env` binds. -/
def Source.scoped (env : List Binding) : Source → Bool
  | .table _ _ => true
  | .query s => s.scoped env
  | .values rows => rowsScoped env rows
  | .function _ _ args => exprsScoped env args
  | .expr e => e.scoped env
termination_by structural s => s

/-- The rows of values read what `env` binds. -/
def rowsScoped (env : List Binding) : List (List Expr) → Bool
  | [] => true
  | row :: rows => exprsScoped env row && rowsScoped env rows
termination_by structural rows => rows

/-- The tables `before` have been joined already. -/
def joinsScoped (outer before : List Binding) : List Join → Bool
  | [] => true
  | j :: js => j.scoped outer before && joinsScoped outer (before ++ j.table.bindings) js
termination_by structural js => js

/-- A lateral table reads what was joined before it, its condition the table itself as well. -/
def Join.scoped (outer before : List Binding) : Join → Bool
  | ⟨_, table, on, lateral⟩ =>
    table.scoped (if lateral then before ++ outer else outer) &&
    on.scoped (before ++ table.bindings ++ outer)
termination_by structural j => j

end

/-! ## Tables at any depth -/

mutual

/-- The tables of the selects in an expression. -/
def Expr.tablesWithin : Expr → List Table
  | .column _ => []
  | .star _ => []
  | .param _ => []
  | .typed _ _ => []
  | .literal _ => []
  | .countAll => []
  | .count _ e => e.tablesWithin
  | .aggregate _ e => e.tablesWithin
  | .stringAgg _ e separator => e.tablesWithin ++ separator.tablesWithin
  | .cast e _ => e.tablesWithin
  | .call _ args => exprTables args
  | .unnest e => e.tablesWithin
  | .compare _ l r => l.tablesWithin ++ r.tablesWithin
  | .isIn e items => e.tablesWithin ++ exprTables items
  | .isNull e => e.tablesWithin
  | .isNotNull e => e.tablesWithin
  | .equalsAny value array => value.tablesWithin ++ array.tablesWithin
  | .hasRows s => s.tablesWithin
  | .hasNoRows s => s.tablesWithin
  | .cond c => c.tablesWithin
  | .named e _ => e.tablesWithin
termination_by structural e => e

/-- The tables of the selects in expressions. -/
def exprTables : List Expr → List Table
  | [] => []
  | e :: es => e.tablesWithin ++ exprTables es
termination_by structural es => es

/-- The tables of the selects in a condition. -/
def Cond.tablesWithin : Cond → List Table
  | .and es => exprTables es
  | .or es => exprTables es
  | .not e => e.tablesWithin
  | .single e => e.tablesWithin
  | .always => []
  | .never => []
termination_by structural c => c

/-- The tables that a select reads, joins, or has in a select within it. -/
def Select.tablesWithin : Select → List Table
  | ⟨tables, columns, joins, condition, order, limit, offset⟩ =>
    fromTables tables ++ joinTables joins ++ exprTables columns ++ condition.tablesWithin ++
      orderTables order ++ optionTables limit ++ optionTables offset
termination_by structural s => s

/-- The tables of the selects in an expression, if there is one. -/
def optionTables : Option Expr → List Table
  | none => []
  | some e => e.tablesWithin
termination_by structural e => e

/-- Tables, each with those inside it. -/
def fromTables : List Table → List Table
  | [] => []
  | t :: ts => t.tablesWithin ++ fromTables ts
termination_by structural ts => ts

/-- A table and those inside it. -/
def Table.tablesWithin : Table → List Table
  | ⟨source, name, columns⟩ => ⟨source, name, columns⟩ :: source.tablesWithin
termination_by structural t => t

/-- The tables inside what a table is read from. -/
def Source.tablesWithin : Source → List Table
  | .table _ _ => []
  | .query s => s.tablesWithin
  | .values rows => rowTables rows
  | .function _ _ args => exprTables args
  | .expr e => e.tablesWithin
termination_by structural s => s

/-- The tables of the selects in rows of values. -/
def rowTables : List (List Expr) → List Table
  | [] => []
  | row :: rows => exprTables row ++ rowTables rows
termination_by structural rows => rows

/-- The tables of joins, each with those inside it and in its condition. -/
def joinTables : List Join → List Table
  | [] => []
  | j :: js => j.tablesWithin ++ joinTables js
termination_by structural js => js

/-- The table of a join, with those inside it and in its condition. -/
def Join.tablesWithin : Join → List Table
  | ⟨_, table, on, _⟩ => table.tablesWithin ++ on.tablesWithin
termination_by structural j => j

/-- The tables of the selects in an order. -/
def orderTables : List SortTerm → List Table
  | [] => []
  | t :: ts => t.tablesWithin ++ orderTables ts
termination_by structural ts => ts

/-- The tables of the selects in what is sorted by. -/
def SortTerm.tablesWithin : SortTerm → List Table
  | ⟨e, _⟩ => e.tablesWithin
termination_by structural t => t

end

/-- The names that tables are read under, at any depth. -/
def Select.aliases (s : Select) : List String := s.tablesWithin.filterMap (·.name)

/-- A select that can be run as it stands: no two of its tables have one name, and whatever it
    refers to is in scope. -/
def Select.IsClosed (s : Select) : Prop := s.aliases.Nodup ∧ s.scoped [] = true

instance (s : Select) : Decidable s.IsClosed := inferInstanceAs (Decidable (_ ∧ _))

/-- The authors of a book cannot be found by a table that is joined after them. -/
example : ¬ Select.IsClosed {
    tables := [(Table.ofRef { name := "book" }).as "t1"]
    columns := [.star (some "t2")]
    joins := [
      .ofLateral {
        tables := [(Table.ofRef { name := "author" }).as "t3"]
        columns := [(Expr.column (col "t3" "name")).as "x1"]
        condition := .equalities [("id", "author_id")] "t3" "t4" } "t2",
      {
        kind := .inner
        table := (Table.ofRef { name := "book_author" }).as "t4"
        on := .equalities [("book_id", "id")] "t4" "t1" }]
    condition := .always } := by
  decide

/-! ## Lists -/

theorem exprsScoped_iff {env : List Binding} {es : List Expr} :
    exprsScoped env es = true ↔ ∀ e ∈ es, e.scoped env = true := by
  induction es with
  | nil => simp [exprsScoped]
  | cons e es ih => simp [exprsScoped, ih]

theorem columnsScoped_iff {joined : List String} {env : List Binding} {es : List Expr} :
    columnsScoped joined env es = true ↔
      ∀ e ∈ es, e.isStarOf joined = true ∨ e.scoped env = true := by
  induction es with
  | nil => simp [columnsScoped]
  | cons e es ih => simp [columnsScoped, ih]

theorem rowsScoped_iff {env : List Binding} {rows : List (List Expr)} :
    rowsScoped env rows = true ↔ ∀ row ∈ rows, ∀ e ∈ row, e.scoped env = true := by
  induction rows with
  | nil => simp [rowsScoped]
  | cons row rows ih => simp [rowsScoped, exprsScoped_iff, ih]

theorem joinsScoped_append {outer before : List Binding} {js ks : List Join} :
    joinsScoped outer before (js ++ ks) = true ↔
      joinsScoped outer before js = true ∧
        joinsScoped outer (before ++ joinBindings js) ks = true := by
  induction js generalizing before with
  | nil => simp [joinsScoped, joinBindings]
  | cons j js ih => simp [joinsScoped, joinBindings, ih, and_assoc]

theorem exprTables_eq (es : List Expr) : exprTables es = es.flatMap (·.tablesWithin) := by
  induction es with
  | nil => rfl
  | cons e es ih => rw [exprTables, ih, List.flatMap_cons]

theorem exprTables_append (es fs : List Expr) :
    exprTables (es ++ fs) = exprTables es ++ exprTables fs := by
  simp only [exprTables_eq, List.flatMap_append]

theorem rowTables_eq (rows : List (List Expr)) :
    rowTables rows = rows.flatMap (·.flatMap (·.tablesWithin)) := by
  induction rows with
  | nil => rfl
  | cons row rows ih => rw [rowTables, ih, exprTables_eq, List.flatMap_cons]

theorem joinTables_append (js ks : List Join) :
    joinTables (js ++ ks) = joinTables js ++ joinTables ks := by
  induction js with
  | nil => rfl
  | cons j js ih => rw [List.cons_append, joinTables, joinTables, ih, List.append_assoc]

theorem joinBindings_append (js ks : List Join) :
    joinBindings (js ++ ks) = joinBindings js ++ joinBindings ks := List.flatMap_append

/-! ## Visible columns -/

theorem visible_iff {env : List Binding} {c : Column} :
    c.visible env = true ↔ ∃ b ∈ env, c.table = some b.name ∧ b.offers c.name = true := by
  simp [Column.visible]

theorem visible_of_subset {env env' : List Binding} {c : Column} (h : c.visible env = true)
    (hsub : env ⊆ env') : c.visible env' = true := by
  obtain ⟨b, hb, hc⟩ := visible_iff.1 h
  exact visible_iff.2 ⟨b, hsub hb, hc⟩

/-- A table whose columns the statement does not tell is read by any column. -/
theorem visible_of_mem {env : List Binding} {name : String} (h : ⟨name, none⟩ ∈ env)
    (column : String) : (col name column).visible env = true :=
  visible_iff.2 ⟨_, h, rfl, rfl⟩

theorem visible_of_offered {env : List Binding} {name column : String} {columns : List String}
    (h : ⟨name, some columns⟩ ∈ env) (hcolumn : column ∈ columns) :
    (col name column).visible env = true :=
  visible_iff.2 ⟨_, h, rfl, by simpa [Binding.offers, col] using hcolumn⟩

/-! ## Names -/

@[simp] theorem Expr.scoped_as (e : Expr) (name : String) (env : List Binding) :
    (e.as name).scoped env = e.scoped env := by
  cases e <;> simp [Expr.as, Expr.bare, Expr.scoped]

@[simp] theorem Expr.tablesWithin_as (e : Expr) (name : String) :
    (e.as name).tablesWithin = e.tablesWithin := by
  cases e <;> simp [Expr.as, Expr.bare, Expr.tablesWithin]

theorem namesOutput_of_subset {outputs outputs' : List String} {t : SortTerm}
    (h : t.namesOutput outputs = true) (hsub : outputs ⊆ outputs') :
    t.namesOutput outputs' = true := by
  unfold SortTerm.namesOutput at h ⊢
  split at h
  · exact List.contains_iff_mem.2 (hsub (List.contains_iff_mem.1 h))
  · cases h

/-- Rows are sorted by columns, so no table stands in an order. -/
theorem orderTables_eq_nil {outputs : List String} {order : List SortTerm}
    (h : ∀ o ∈ order, o.namesOutput outputs = true) : orderTables order = [] := by
  induction order with
  | nil => rfl
  | cons o order ih =>
    rw [orderTables, ih fun o' ho' => h o' (List.mem_cons_of_mem _ ho'), List.append_nil]
    have ho := h o List.mem_cons_self
    unfold SortTerm.namesOutput at ho
    split at ho
    · rfl
    · cases ho

/-! ## Numbers of rows -/

/-- The expression reads nothing. -/
structure Expr.IsConstant (e : Expr) : Prop where
  inScope : ∀ env, e.scoped env = true
  tables : e.tablesWithin = []

/-- How many rows the select yields, and leaves out, depends on no other rows. -/
structure Select.RowsConstant (s : Select) : Prop where
  limit : ∀ e ∈ s.limit, e.IsConstant
  offset : ∀ e ∈ s.offset, e.IsConstant

theorem Select.RowsConstant.unlimited {s : Select} (hlimit : s.limit = none)
    (hoffset : s.offset = none) : s.RowsConstant := by
  constructor
  · rw [hlimit]
    simp
  · rw [hoffset]
    simp

theorem atMost_constant (n : Option UInt64) : ∀ e ∈ n.map RowLimit.atMost, e.IsConstant := by
  intro e he
  obtain ⟨n, -, rfl⟩ := Option.map_eq_some_iff.1 he
  exact ⟨fun _ => rfl, rfl⟩

theorem optionScoped_of_constant {e : Option Expr} (h : ∀ e' ∈ e, e'.IsConstant)
    (env : List Binding) : optionScoped env e = true := by
  cases e with
  | none => rfl
  | some e => exact (h e rfl).inScope env

theorem optionTables_of_constant {e : Option Expr} (h : ∀ e' ∈ e, e'.IsConstant) :
    optionTables e = [] := by
  cases e with
  | none => rfl
  | some e => exact (h e rfl).tables

theorem Select.RowsConstant.first {s : Select} (h : s.RowsConstant) : s.first.RowsConstant := by
  refine ⟨fun e he => ?_, h.offset⟩
  obtain rfl := Option.some.inj he
  exact ⟨fun _ => rfl, rfl⟩

/-! ## Selects -/

/-- What is asked of a select of one table. -/
theorem Select.scoped_of_single {s : Select} {outer : List Binding} {t : Table}
    (htables : s.tables = [t]) (ht : t.scoped outer = true) (hcolumns : s.columns ≠ [])
    (hjoins : joinsScoped outer t.bindings s.joins = true)
    (hcolumn : ∀ e ∈ s.columns, e.isStarOf (s.joins.filterMap (·.table.name)) = true ∨
      e.scoped (s.scope ++ outer) = true)
    (hcondition : s.condition.scoped (s.scope ++ outer) = true)
    (horder : ∀ o ∈ s.order, o.namesOutput s.outputs = true) (hrows : s.RowsConstant) :
    s.scoped outer = true := by
  obtain ⟨tables, columns, joins, condition, order, limit, offset⟩ := s
  obtain rfl : tables = [t] := htables
  have hbindings : tableBindings [t] = t.bindings := by simp [tableBindings]
  rw [Select.outputs_eq] at horder
  rw [Select.scope] at hcolumn hcondition
  simp only [Select.scoped, Bool.and_eq_true, columnsScoped_iff, List.all_eq_true]
  refine ⟨⟨⟨⟨⟨⟨⟨⟨rfl, ?_⟩, ?_⟩, ?_⟩, hcolumn⟩, hcondition⟩, horder⟩,
    optionScoped_of_constant hrows.limit outer⟩, optionScoped_of_constant hrows.offset outer⟩
  · simpa using hcolumns
  · simp [tablesScoped, ht]
  · rwa [hbindings]

/-- The first row is in scope where all are. -/
theorem Select.scoped_first {s : Select} {outer : List Binding} (h : s.scoped outer = true) :
    s.first.scoped outer = true := by
  obtain ⟨tables, columns, joins, condition, order, limit, offset⟩ := s
  simp only [Select.scoped, Bool.and_eq_true] at h
  simp only [Select.first, Select.scoped, Bool.and_eq_true]
  exact ⟨⟨h.1.1, rfl⟩, h.2⟩

theorem Select.tablesWithin_eq (s : Select) (h : s.RowsConstant) :
    s.tablesWithin = fromTables s.tables ++ joinTables s.joins ++ exprTables s.columns ++
      s.condition.tablesWithin ++ orderTables s.order := by
  obtain ⟨tables, columns, joins, condition, order, limit, offset⟩ := s
  have hlimit : optionTables limit = [] := optionTables_of_constant h.limit
  have hoffset : optionTables offset = [] := optionTables_of_constant h.offset
  rw [Select.tablesWithin, hlimit, hoffset, List.append_nil, List.append_nil]

theorem Select.tablesWithin_first {s : Select} (h : s.RowsConstant) :
    s.first.tablesWithin = s.tablesWithin := by
  rw [s.tablesWithin_eq h, s.first.tablesWithin_eq h.first]
  rfl

/-! ## Conditions -/

namespace Cond

variable {env : List Binding}

attribute [local simp] Expr.scoped Cond.scoped Expr.tablesWithin Cond.tablesWithin

/-- A condition made of an expression refers to the same. -/
theorem scoped_ofExpr (e : Expr) : (ofExpr e).scoped env = e.scoped env := by
  unfold ofExpr
  split
  · next c h =>
    cases e with
    | cond c' => simp only [Expr.bare] at h; cases h; rw [Expr.scoped]
    | named e' name => simp only [Expr.bare] at h; rw [Expr.scoped, h, Expr.scoped]
    | _ => simp [Expr.bare] at h
  · rw [Cond.scoped]

theorem tablesWithin_ofExpr (e : Expr) : (ofExpr e).tablesWithin = e.tablesWithin := by
  unfold ofExpr
  split
  · next c h =>
    cases e with
    | cond c' => simp only [Expr.bare] at h; cases h; rw [Expr.tablesWithin]
    | named e' name => simp only [Expr.bare] at h; rw [Expr.tablesWithin, h, Expr.tablesWithin]
    | _ => simp [Expr.bare] at h
  · rw [Cond.tablesWithin]

theorem scoped_conjuncts (c : Cond) : exprsScoped env c.conjuncts = c.scoped env := by
  cases c <;> simp [conjuncts, exprsScoped]

theorem scoped_disjuncts (c : Cond) : exprsScoped env c.disjuncts = c.scoped env := by
  cases c <;> simp [disjuncts, exprsScoped]

theorem tablesWithin_conjuncts (c : Cond) : exprTables c.conjuncts = c.tablesWithin := by
  cases c <;> simp [conjuncts, exprTables]

theorem tablesWithin_disjuncts (c : Cond) : exprTables c.disjuncts = c.tablesWithin := by
  cases c <;> simp [disjuncts, exprTables]

/-- What conditions are made of is in scope where they are. -/
theorem scoped_parts {parts : Cond → List Expr} {cs : List Cond}
    (hparts : ∀ c, exprsScoped env (parts c) = c.scoped env)
    (h : ∀ c ∈ cs, c.scoped env = true) : ∀ e ∈ cs.flatMap parts, e.scoped env = true := by
  intro e he
  obtain ⟨c, hc, he⟩ := List.mem_flatMap.1 he
  exact exprsScoped_iff.1 ((hparts c).trans (h c hc)) e he

theorem tablesWithin_parts {parts : Cond → List Expr}
    (hparts : ∀ c, exprTables (parts c) = c.tablesWithin) (cs : List Cond) :
    (cs.flatMap parts).flatMap (·.tablesWithin) = cs.flatMap (·.tablesWithin) := by
  rw [List.flatMap_assoc]
  exact List.flatMap_congr fun c _ => (exprTables_eq _).symm.trans (hparts c)

theorem scoped_all {cs : List Cond} (h : ∀ c ∈ cs, c.scoped env = true) :
    (all cs).scoped env = true := by
  have hparts := scoped_parts scoped_conjuncts h
  unfold all
  split
  · rfl
  split
  · rfl
  · next e heq =>
    rw [scoped_ofExpr]
    exact hparts e (by rw [heq]; exact List.mem_singleton_self e)
  · rw [Cond.scoped, exprsScoped_iff]
    exact hparts

theorem scoped_any {cs : List Cond} (h : ∀ c ∈ cs, c.scoped env = true) :
    (any cs).scoped env = true := by
  have hparts := scoped_parts scoped_disjuncts h
  unfold any
  split
  · rfl
  split
  · rfl
  · next e heq =>
    rw [scoped_ofExpr]
    exact hparts e (by rw [heq]; exact List.mem_singleton_self e)
  · rw [Cond.scoped, exprsScoped_iff]
    exact hparts

/-- A conjunction has the tables of its conditions, or none if one of them never holds. -/
theorem tablesWithin_all_eq (cs : List Cond) :
    (all cs).tablesWithin = if cs.any isNever then [] else cs.flatMap (·.tablesWithin) := by
  have hparts := tablesWithin_parts tablesWithin_conjuncts cs
  unfold all
  split
  · rfl
  split
  · next heq =>
    rw [heq] at hparts
    exact hparts
  · next e heq =>
    rw [heq, List.flatMap_singleton] at hparts
    rw [tablesWithin_ofExpr, hparts]
  · rw [Cond.tablesWithin, exprTables_eq, hparts]

/-- A disjunction has the tables of its conditions, or none if one of them always holds. -/
theorem tablesWithin_any_eq (cs : List Cond) :
    (any cs).tablesWithin = if cs.any isAlways then [] else cs.flatMap (·.tablesWithin) := by
  have hparts := tablesWithin_parts tablesWithin_disjuncts cs
  unfold any
  split
  · rfl
  split
  · next heq =>
    rw [heq] at hparts
    exact hparts
  · next e heq =>
    rw [heq, List.flatMap_singleton] at hparts
    rw [tablesWithin_ofExpr, hparts]
  · rw [Cond.tablesWithin, exprTables_eq, hparts]

theorem tablesWithin_all (cs : List Cond) :
    List.Sublist (all cs).tablesWithin (cs.flatMap (·.tablesWithin)) := by
  rw [tablesWithin_all_eq]
  split
  · exact List.nil_sublist _
  · exact List.Sublist.refl _

theorem tablesWithin_any (cs : List Cond) :
    List.Sublist (any cs).tablesWithin (cs.flatMap (·.tablesWithin)) := by
  rw [tablesWithin_any_eq]
  split
  · exact List.nil_sublist _
  · exact List.Sublist.refl _

theorem scoped_both {c d : Cond} (hc : c.scoped env = true) (hd : d.scoped env = true) :
    (c.both d).scoped env = true := by
  refine scoped_all fun x hx => ?_
  rcases List.mem_cons.1 hx with rfl | hx
  · exact hc
  · exact List.mem_singleton.1 hx ▸ hd

theorem tablesWithin_both (c d : Cond) :
    List.Sublist (c.both d).tablesWithin (c.tablesWithin ++ d.tablesWithin) := by
  rw [both]
  simpa using tablesWithin_all [c, d]

theorem scoped_negate {c : Cond} (h : c.scoped env = true) : c.negate.scoped env = true := by
  cases c with
  | not e =>
    rw [negate, scoped_ofExpr]
    exact h
  | always | never => rfl
  | and es | or es | single e => simpa [negate] using h

theorem tablesWithin_negate (c : Cond) : c.negate.tablesWithin = c.tablesWithin := by
  cases c with
  | not e => rw [negate, tablesWithin_ofExpr, Cond.tablesWithin]
  | always | never => rfl
  | and es | or es | single e => simp [negate]

theorem scoped_equalities {pairs : List (String × String)} {l r : String}
    (hl : ∀ p ∈ pairs, (col l p.1).visible env = true)
    (hr : ∀ p ∈ pairs, (col r p.2).visible env = true) :
    (equalities pairs l r).scoped env = true := by
  refine scoped_all fun c hc => ?_
  obtain ⟨p, hp, rfl⟩ := List.mem_map.1 hc
  simp [Column.equals, Expr.equals, hl p hp, hr p hp]

theorem tablesWithin_equalities (pairs : List (String × String)) (l r : String) :
    (equalities pairs l r).tablesWithin = [] := by
  have hnone : ∀ c ∈ pairs.map fun p => single ((col l p.1).equals (col r p.2)),
      c.tablesWithin = [] := by
    intro c hc
    obtain ⟨p, -, rfl⟩ := List.mem_map.1 hc
    rfl
  exact List.sublist_nil.1 (List.flatMap_eq_nil_iff.2 hnone ▸ tablesWithin_all _)

end Cond

end LateralSql.Sql
