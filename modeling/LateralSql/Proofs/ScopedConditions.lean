/-
  Filters, keys and relations refer to what is in scope.

  The parts of a select are made without a look at where they will stand.  So each is shown to be
  in scope wherever the names that it was made for are bound, and to name its tables anew
  (`Cond.Fits`, `Restricts`, `Select.Fits`).
-/
import LateralSql.Proofs.Scoping

namespace LateralSql

open Sql (col Binding Cond Expr Join Select Table)

/-! ## Named tables -/

/-- Tables that have been named between two states of the names. -/
abbrev NamedTables (n n' : Names) (ts : List Table) : Prop := NewTables n n' (ts.filterMap (·.name))

namespace NamedTables

variable {n m n' : Names} {ts us : List Table}

theorem append (ht : NamedTables n m ts) (hu : NamedTables m n' us) (h : n ≤ m) (h' : m ≤ n') :
    NamedTables n n' (ts ++ us) := by
  rw [NamedTables, List.filterMap_append]
  exact NewTables.append ht hu h h'

theorem sublist (hu : NamedTables n n' us) (h : ts.Sublist us) : NamedTables n n' ts :=
  ⟨hu.nodup.sublist (h.filterMap _), fun x hx => hu.number x ((h.filterMap _).subset hx)⟩

theorem perm (hu : NamedTables n n' us) (h : ts.Perm us) : NamedTables n n' ts :=
  ⟨((h.filterMap _).nodup_iff).2 hu.nodup, fun x hx => hu.number x ((h.filterMap _).subset hx)⟩

end NamedTables

namespace Sql

/-- The condition is in scope where `env` is bound, and names its tables anew. -/
structure Cond.Fits (env : List Binding) (n n' : Names) (c : Cond) : Prop where
  inScope : c.scoped env = true
  tables : NamedTables n n' c.tablesWithin

/-- The select is in scope where `outer` is bound, and names its tables anew. -/
structure Select.Fits (outer : List Binding) (n n' : Names) (s : Select) : Prop where
  inScope : s.scoped outer = true
  tables : NamedTables n n' s.tablesWithin

/-- The condition reads columns of `name` alone. -/
structure Cond.ReadsOnly (name : String) (c : Cond) : Prop where
  inScope : ∀ env, ⟨name, none⟩ ∈ env → c.scoped env = true
  tables : c.tablesWithin = []

theorem Cond.ReadsOnly.fits {name : String} {c : Cond} (h : c.ReadsOnly name) {env : List Binding}
    (henv : ⟨name, none⟩ ∈ env) (n n' : Names) : c.Fits env n n' := by
  refine ⟨h.inScope env henv, ?_⟩
  rw [h.tables]
  exact .nil _ _ _

theorem Cond.ReadsOnly.all {name : String} {cs : List Cond} (h : ∀ c ∈ cs, c.ReadsOnly name) :
    (Cond.all cs).ReadsOnly name := by
  refine ⟨fun env henv => Cond.scoped_all fun c hc => (h c hc).inScope env henv, ?_⟩
  have hnone := List.flatMap_eq_nil_iff.2 fun c hc => (h c hc).tables
  exact List.sublist_nil.1 (hnone ▸ Cond.tablesWithin_all cs)

/-- A select of one table fits if what it reads is in scope wherever its tables are bound. -/
theorem Select.fits_of_single {s : Select} {t : Table} {outer : List Binding} {n m n' : Names}
    (hfrom : s.tables = [t]) (hcolumns : s.columns ≠ []) (ht : t.scoped outer = true)
    (hjoins : joinsScoped outer t.bindings s.joins = true)
    (hcolumn : ∀ env, t.bindings ⊆ env → joinBindings s.joins ⊆ env → outer ⊆ env →
      ∀ e ∈ s.columns, e.isStarOf (s.joins.filterMap (·.table.name)) = true ∨ e.scoped env = true)
    (hcondition : ∀ env, t.bindings ⊆ env → joinBindings s.joins ⊆ env → outer ⊆ env →
      s.condition.scoped env = true)
    (horder : ∀ o ∈ s.order, o.namesOutput s.outputs = true) (hrows : s.RowsConstant)
    (hle : n ≤ m) (hle' : m ≤ n') (htables : NamedTables n m t.tablesWithin)
    (hrest : NamedTables m n' (joinTables s.joins ++ exprTables s.columns ++
      s.condition.tablesWithin ++ orderTables s.order)) : s.Fits outer n n' := by
  have hbindings : s.scope = t.bindings ++ joinBindings s.joins := by
    simp [Select.scope, hfrom, tableBindings]
  have hsub₁ : t.bindings ⊆ s.scope ++ outer := by simp [hbindings]
  have hsub₂ : joinBindings s.joins ⊆ s.scope ++ outer := by simp [hbindings]
  have hsub₃ : outer ⊆ s.scope ++ outer := List.subset_append_right _ _
  refine ⟨Select.scoped_of_single hfrom ht hcolumns hjoins (hcolumn _ hsub₁ hsub₂ hsub₃)
    (hcondition _ hsub₁ hsub₂ hsub₃) horder hrows, ?_⟩
  rw [s.tablesWithin_eq hrows, hfrom, fromTables, fromTables, List.append_nil]
  simpa only [List.append_assoc] using htables.append hrest hle hle'

/-- A table whose columns the statement does not tell, read as `name`. -/
structure Table.IsPlain (t : Table) (name : String) : Prop where
  bindings : t.bindings = [⟨name, none⟩]
  inScope : ∀ env, t.scoped env = true
  tables : t.tablesWithin = [t]
  name : t.name = some name

theorem Table.IsPlain.named {t : Table} {name : String} (h : t.IsPlain name) {n n' : Names}
    (hfresh : freshTable n = .ok (name, n')) : NamedTables n n' t.tablesWithin := by
  rw [h.tables, NamedTables, List.filterMap_cons, h.name]
  exact newTables_of_freshTable hfresh

theorem Table.IsPlain.mem {t : Table} {name : String} (h : t.IsPlain name) {env : List Binding}
    (hsub : t.bindings ⊆ env) : ⟨name, none⟩ ∈ env :=
  hsub (h.bindings ▸ List.mem_singleton_self _)

theorem Table.inSchema_table (schema schema' : Option String) (name : String) :
    ∃ s, Table.inSchema { source := .table schema name } schema' =
      { source := .table s name } := by
  cases schema with
  | none => exact ⟨schema', rfl⟩
  | some s => exact ⟨some s, rfl⟩

theorem Table.inSchema_function (schema schema' : Option String) (name : String)
    (args : List Expr) : ∃ s, Table.inSchema { source := .function schema name args } schema' =
      { source := .function s name args } := by
  cases schema with
  | none => exact ⟨schema', rfl⟩
  | some s => exact ⟨some s, rfl⟩

end Sql

theorem Compiler.table_isPlain (c : Compiler) (t : TableRef) (name : String) :
    ((c.table t).as name).IsPlain name := by
  obtain ⟨s, hs⟩ := Table.inSchema_table t.schema c.settings.defaultSchema t.name
  rw [Compiler.table, Table.ofRef, hs]
  exact ⟨rfl, fun _ => rfl, rfl, rfl⟩

/-- The arguments of a context are values. -/
theorem Compiler.entityTable_isPlain (c : Compiler) (e : Entity) (context : List ContextValue)
    (name : String) : ((c.entityTable e context).as name).IsPlain name := by
  unfold Compiler.entityTable
  split
  · exact c.table_isPlain e.table name
  · obtain ⟨s, hs⟩ := Table.inSchema_function e.table.schema c.settings.defaultSchema
      (e.table.name ++ c.settings.contextSuffix) (context.map fun v => .param v.value)
    rw [Table.ofFunction, hs]
    have hscoped (env : List Binding) : Sql.exprsScoped env (context.map fun v => .param v.value) =
        true := by
      rw [Sql.exprsScoped_iff]
      intro e he
      obtain ⟨v, -, rfl⟩ := List.mem_map.1 he
      rfl
    have htables : Sql.exprTables (context.map fun v => .param v.value) = [] := by
      rw [Sql.exprTables_eq, List.flatMap_eq_nil_iff]
      intro e he
      obtain ⟨v, -, rfl⟩ := List.mem_map.1 he
      rfl
    exact ⟨rfl, hscoped, congrArg (_ :: ·) htables, rfl⟩

/-! ## Restrictions -/

/-- Joins and a condition that restrict the rows read as `name`. They read these rows, what is
    joined for it, and the given columns. -/
structure Restricts (name : String) (read : List Sql.Column) (n n' : Names) (joins : List Join)
    (condition : Cond) : Prop where
  le : n ≤ n'
  tables : NamedTables n n' (Sql.joinTables joins)
  noTables : condition.tablesWithin = []
  joinsInScope : ∀ outer before, ⟨name, none⟩ ∈ before →
    Sql.joinsScoped outer before joins = true
  inScope : ∀ env, ⟨name, none⟩ ∈ env → Sql.joinBindings joins ⊆ env →
    (∀ k ∈ read, k.visible env = true) → condition.scoped env = true

/-- A correlation reads the child, the parent's columns and the junction table. -/
theorem restricts_of_correlate {c : Compiler} {l : Link} {parent child : String} {r : Correlation}
    {n n' : Names} (h : l.correlate c parent child n = .ok (r, n')) :
    Restricts child (l.parentColumns.map (col parent)) n n' r.joins r.condition ∧
      ∀ env, ⟨child, none⟩ ∈ env → Sql.joinBindings r.joins ⊆ env →
        ∀ k ∈ r.existsColumns, k.visible env = true := by
  have hle := Grows.correlate c l parent child h
  rcases Link.correlate_cases h with
    ⟨pairs, htop, rfl, rfl⟩ | ⟨table, toParent, toChild, htop, junction, hfresh, rfl⟩
  · have hparent : l.parentColumns = pairs.map (·.1) := by rw [Link.parentColumns, htop]
    refine ⟨⟨hle, .nil _ _ _, Cond.tablesWithin_equalities _ _ _, fun _ _ _ => rfl,
      fun env hchild _ hread => ?_⟩, fun env hchild _ k hk => ?_⟩
    · refine Cond.scoped_equalities (fun p _ => Sql.visible_of_mem hchild _) fun p hp => ?_
      obtain ⟨q, hq, rfl⟩ := List.mem_map.1 hp
      refine hread _ (List.mem_map_of_mem ?_)
      rw [hparent]
      exact List.mem_map_of_mem hq
    · obtain ⟨p, -, rfl⟩ := List.mem_map.1 hk
      exact Sql.visible_of_mem hchild _
  · have hparent : l.parentColumns = toParent.map (·.2) := by rw [Link.parentColumns, htop]
    obtain ⟨hbindings, hscoped, htables, hname⟩ := c.table_isPlain table junction
    have hjunction {env : List Binding} {on : Cond}
        (hsub : Sql.joinBindings [⟨.inner, (c.table table).as junction, on, false⟩] ⊆ env) :
        ⟨junction, none⟩ ∈ env := by
      refine hsub ?_
      simp [Sql.joinBindings, hbindings]
    refine ⟨⟨hle, ?_, Cond.tablesWithin_equalities _ _ _, fun outer before hchild => ?_,
      fun env _ hsub hread => ?_⟩, fun env _ hsub k hk => ?_⟩
    · simp only [Sql.joinTables, Join.tablesWithin, htables, Cond.tablesWithin_equalities,
        List.append_nil, NamedTables, List.filterMap_cons, hname, List.filterMap_nil]
      exact newTables_of_freshTable hfresh
    · simp only [Sql.joinsScoped, Join.scoped, hscoped, Bool.true_and, Bool.and_true, hbindings]
      refine Cond.scoped_equalities (fun p _ => Sql.visible_of_mem (by simp) _)
        fun p _ => Sql.visible_of_mem (by simp [hchild]) _
    · refine Cond.scoped_equalities (fun p _ => Sql.visible_of_mem (hjunction hsub) _)
        fun p hp => hread _ (List.mem_map_of_mem ?_)
      rw [hparent]
      exact List.mem_map_of_mem hp
    · obtain ⟨p, -, rfl⟩ := List.mem_map.1 hk
      exact Sql.visible_of_mem (hjunction hsub) _

/-- A node without a parent is not restricted. -/
theorem Restricts.none (name : String) (n : Names) : Restricts name [] n n [] .always :=
  ⟨le_rfl, .nil _ _ _, rfl, fun _ _ _ => rfl, fun _ _ _ _ => rfl⟩

theorem mem_keyCells {k : KeyMap} {types : List (Option ScalarType)} {e : Expr}
    (h : e ∈ k.values.zipWith keyCell types) : ∃ v type, e = keyCell v type := by
  rw [← List.map_uncurry_zip_eq_zipWith] at h
  obtain ⟨p, -, rfl⟩ := List.mem_map.1 h
  exact ⟨p.1, p.2, rfl⟩

/-- The cells of a table of keys are values. -/
theorem keyTable_scoped (keys : JoinKeys) (types : List (Option ScalarType)) (name : String)
    (env : List Binding) : (keyTable keys types name).scoped env = true := by
  simp only [keyTable, Table.scoped, Sql.Source.scoped, Option.isSome_some, Bool.true_and,
    Sql.rowsScoped_iff]
  intro row hrow e he
  obtain ⟨key, -, rfl⟩ := List.mem_map.1 hrow
  obtain ⟨v, type, rfl⟩ := mem_keyCells he
  cases type <;> rfl

theorem keyTable_tables (keys : JoinKeys) (types : List (Option ScalarType)) (name : String) :
    (keyTable keys types name).tablesWithin = [keyTable keys types name] := by
  have hrows : Sql.rowTables (keys.keys.map fun k => k.values.zipWith keyCell types) = [] := by
    simp only [Sql.rowTables_eq, List.flatMap_eq_nil_iff]
    intro row hrow e he
    obtain ⟨key, -, rfl⟩ := List.mem_map.1 hrow
    obtain ⟨v, type, rfl⟩ := mem_keyCells he
    cases type <;> rfl
  exact congrArg (_ :: ·) hrows

/-- The table of keys is joined by the columns that it is declared with. -/
theorem restricts_of_keyTable {s : Scope} {keys : JoinKeys} {fields : List ScalarField}
    {name : String} {n n' : Names} (hfresh : freshTable n = .ok (name, n'))
    (types : List (Option ScalarType)) :
    Restricts s.name [] n n' [{
      kind := .inner
      table := keyTable keys types name
      on := .all ((fields.zip keys.names).map fun p =>
        Cond.single ((s.column p.1).equals (col name p.2))) }] .always := by
  refine ⟨Grows.freshTable hfresh, ?_, rfl, fun outer before hbefore => ?_, fun _ _ _ _ => rfl⟩
  · have hon : (Cond.all ((fields.zip keys.names).map fun p =>
        Cond.single ((s.column p.1).equals (col name p.2)))).tablesWithin = [] := by
      refine List.sublist_nil.1 ((Cond.tablesWithin_all _).trans (List.sublist_nil.2 ?_))
      simp only [List.flatMap_eq_nil_iff, List.mem_map]
      rintro _ ⟨p, -, rfl⟩
      rfl
    simp only [Sql.joinTables, Join.tablesWithin, keyTable_tables, hon, List.append_nil]
    exact newTables_of_freshTable hfresh
  · simp only [Sql.joinsScoped, Join.scoped, keyTable_scoped, Bool.true_and, Bool.and_true]
    refine Cond.scoped_all fun c hc => ?_
    obtain ⟨p, hp, rfl⟩ := List.mem_map.1 hc
    have hfield : (s.column p.1).visible
        (before ++ (keyTable keys types name).bindings ++ outer) = true :=
      Sql.visible_of_mem (by simp [hbefore]) _
    have hkey : (col name p.2).visible
        (before ++ (keyTable keys types name).bindings ++ outer) = true := by
      refine Sql.visible_of_offered ?_ (List.of_mem_zip hp).2
      simp [Table.bindings, keyTable, Sql.Source.columns?]
    rw [Cond.scoped, Sql.Column.equals, Expr.equals, Expr.scoped, Expr.scoped, Expr.scoped, hfield,
      hkey]
    rfl

theorem restricts_of_keyCriteria {s : Scope} {keys : List KeyMap} {r : KeyCriteria} {n n' : Names}
    (h : keyCriteria s keys n = .ok (r, n')) : Restricts s.name [] n n' r.joins r.condition := by
  unfold keyCriteria at h
  split at h
  · obtain ⟨rfl, rfl⟩ := pure_run.1 h
    exact .none _ _
  · obtain ⟨conditions, n₁, hconditions, h⟩ := bind_run.1 h
    obtain ⟨rfl, rfl⟩ := pure_run.1 h
    have hle := Grows.mapM (fun m => (Grows.lift_model _).bind fun _ => Grows.pure _) _ hconditions
    have hreads : (Cond.all conditions).ReadsOnly s.name := by
      refine .all (mapM_run_forall (fun m _ n c n' hrun => ?_) hconditions)
      obtain ⟨f, n₂, -, hrun⟩ := bind_run.1 hrun
      obtain ⟨rfl, -⟩ := pure_run.1 hrun
      refine ⟨fun env henv => ?_, rfl⟩
      simp [Cond.scoped, Expr.equals, Expr.scoped, Scope.column, Sql.visible_of_mem henv]
    exact ⟨hle, .nil _ _ _, hreads.tables, fun _ _ _ => rfl,
      fun env henv _ _ => hreads.inScope env henv⟩
  · obtain ⟨keys, n₁, hkeys, h⟩ := bind_run.1 h
    obtain ⟨name, n₂, hfresh, h⟩ := bind_run.1 h
    obtain ⟨fields, n₃, hfields, h⟩ := bind_run.1 h
    obtain ⟨rfl, rfl⟩ := pure_run.1 h
    obtain ⟨-, rfl⟩ := lift_model_run.1 hkeys
    obtain ⟨-, rfl⟩ := lift_model_run.1 hfields
    exact restricts_of_keyTable hfresh _

/-! ## Tests -/

theorem equalsCondition_reads {s : Scope} {f : ScalarField} {v : Value} {cond : Cond}
    (h : equalsCondition s f v = .ok cond) : cond.ReadsOnly s.name := by
  unfold equalsCondition at h
  simp only at h
  split_ifs at h
  all_goals
    obtain rfl := pure_ok.1 h
    refine ⟨fun env henv => ?_, rfl⟩
    simp [Cond.scoped, Expr.equals, Expr.scoped, Scope.column, Sql.visible_of_mem henv]

theorem rangeCondition_reads {s : Scope} {f : ScalarField} {op : Sql.Comparison} {v : Value}
    {cond : Cond} (h : rangeCondition s f op v = .ok cond) : cond.ReadsOnly s.name := by
  unfold rangeCondition at h
  split_ifs at h
  obtain rfl := pure_ok.1 h
  refine ⟨fun env henv => ?_, rfl⟩
  simp [Cond.scoped, Expr.scoped, Scope.column, Sql.visible_of_mem henv]

theorem inCondition_reads {s : Scope} {f : ScalarField} {vs : List Value} {cond : Cond}
    (h : inCondition s f vs = .ok cond) : cond.ReadsOnly s.name := by
  unfold inCondition at h
  split_ifs at h
  · obtain rfl := pure_ok.1 h
    exact ⟨fun _ _ => rfl, rfl⟩
  · obtain rfl := pure_ok.1 h
    refine ⟨fun env henv => ?_, ?_⟩
    · simp [Cond.scoped, Expr.scoped, Scope.column, Sql.visible_of_mem henv, Sql.exprsScoped_iff]
    · simp [Cond.tablesWithin, Expr.tablesWithin, Sql.exprTables_eq]

/-! ### Spatial tests -/

theorem literal_isConstant {t : SpatialTest} {native srid : Srid} {e : Expr}
    (h : t.literal native = .ok (e, srid)) : e.IsConstant := by
  unfold SpatialTest.literal at h
  split at h
  · exact (throw_ok.1 h).elim
  split at h
  · exact (throw_ok.1 h).elim
  simp only at h
  split at h <;>
  · obtain ⟨rfl, -⟩ := Prod.mk.inj (pure_ok.1 h)
    exact ⟨fun _ => rfl, rfl⟩

theorem transformed_isConstant {e : Expr} (h : e.IsConstant) (srid : Srid) :
    (transformed e srid).IsConstant := by
  refine ⟨fun env => ?_, ?_⟩
  · simp [transformed, Expr.scoped, Sql.exprsScoped, h.inScope env]
  · simp [transformed, Expr.tablesWithin, Sql.exprTables, h.tables]

theorem directCondition_reads {c : Compiler} {s : Scope} {f : ScalarField} {info : GeometryInfo}
    {t : SpatialTest} {cond : Cond} (h : directCondition c s f info t = .ok cond) :
    cond.ReadsOnly s.name := by
  unfold directCondition at h
  split_ifs at h
  · obtain rfl := pure_ok.1 h
    exact ⟨fun _ _ => rfl, rfl⟩
  obtain ⟨function, -, h⟩ := bind_ok.1 h
  obtain ⟨⟨literal, srid⟩, hliteral, h⟩ := bind_ok.1 h
  have hconstant := literal_isConstant hliteral
  have hcall {column : Sql.Column} {e : Expr} (hcolumn : ∃ x, column = col s.name x)
      (he : e.IsConstant) : (callCondition function (.column column) e).ReadsOnly s.name := by
    obtain ⟨x, rfl⟩ := hcolumn
    refine ⟨fun env henv => ?_, ?_⟩
    · simp [callCondition, Cond.scoped, Expr.scoped, Sql.exprsScoped, Sql.visible_of_mem henv,
        he.inScope env]
    · simp [callCondition, Cond.tablesWithin, Expr.tablesWithin, Sql.exprTables, he.tables]
  simp only at h
  split_ifs at h
  · obtain rfl := pure_ok.1 h
    exact hcall ⟨_, rfl⟩ hconstant
  split at h
  · next column hcolumn =>
    obtain rfl := pure_ok.1 h
    obtain ⟨suffix, -, rfl⟩ := Option.map_eq_some_iff.1 hcolumn
    exact hcall ⟨_, rfl⟩ hconstant
  · obtain rfl := pure_ok.1 h
    exact hcall ⟨_, rfl⟩ (transformed_isConstant hconstant _)

/-- The pieces of a literal in the tiles of a grid. -/
theorem tilePieces_fits (c : Compiler) (g : TileGrid) (tile piece : String) {literal : Expr}
    (hliteral : literal.IsConstant) {tiles : String} {n n' : Names}
    (hfresh : freshTable n = .ok (tiles, n')) (outer : List Binding) :
    Select.Fits outer n n' {
      tables := [(c.table g.table).as tiles]
      columns := [
        (Expr.column (col tiles g.idColumn)).as tile,
        (Expr.call "ST_Intersection" [.column (col tiles g.geometryColumn), literal]).as piece]
      condition :=
        callCondition "ST_Intersects" (.column (col tiles g.geometryColumn)) literal } := by
  have hplain := c.table_isPlain g.table tiles
  refine Select.fits_of_single rfl (by simp) (hplain.inScope _) rfl (fun env henv _ _ e he => ?_)
    (fun env henv _ _ => ?_) (by simp) (.unlimited rfl rfl) (Grows.freshTable hfresh) le_rfl
    (hplain.named hfresh) ?_
  · have htiles := Sql.visible_of_mem (hplain.mem henv)
    rcases List.mem_cons.1 he with rfl | he
    · simp [Expr.as, Expr.bare, Expr.scoped, htiles]
    · obtain rfl := List.mem_singleton.1 he
      simp [Expr.as, Expr.bare, Expr.scoped, Sql.exprsScoped, htiles, hliteral.inScope env]
  · have htiles := Sql.visible_of_mem (hplain.mem henv)
    simp [callCondition, Cond.scoped, Expr.scoped, Sql.exprsScoped, htiles, hliteral.inScope env]
  · simp only [callCondition, Sql.joinTables, Sql.exprTables, Sql.orderTables, Cond.tablesWithin,
      Expr.tablesWithin, Expr.as, Expr.bare, hliteral.tables, List.append_nil]
    exact .nil _ _ _

/-- A query over segments reads the segments, the pieces of the literal and the row in scope. -/
theorem segmentQuery_fits {c : Compiler} {s : Scope} {g : GeometrySegments} {literal : Expr}
    {f : Expr → Expr → Cond} {q : Select} {n n' : Names}
    (h : segmentQuery c s g literal f n = .ok (q, n')) (hliteral : literal.IsConstant)
    (hscoped : ∀ {env l r}, l.scoped env = true → r.scoped env = true → (f l r).scoped env = true)
    (htables : ∀ k k', (f (.column k) (.column k')).tablesWithin = []) {outer : List Binding}
    (houter : ⟨s.name, none⟩ ∈ outer) : q.Fits outer n n' := by
  unfold segmentQuery at h
  obtain ⟨pieces, n₁, hpieces, h⟩ := bind_run.1 h
  obtain ⟨tiles, n₂, htiles, h⟩ := bind_run.1 h
  obtain ⟨segments, n₃, hsegments, h⟩ := bind_run.1 h
  obtain ⟨tile, n₄, htile, h⟩ := bind_run.1 h
  obtain ⟨piece, n₅, hpiece, h⟩ := bind_run.1 h
  obtain ⟨owner, n₆, howner, h⟩ := bind_run.1 h
  obtain ⟨rfl, rfl⟩ := pure_run.1 h
  obtain ⟨-, rfl⟩ := lift_model_run.1 howner
  have hinner := tilePieces_fits c g.tiles tile piece hliteral htiles outer
  have hplain := c.table_isPlain g.table segments
  have hle₃ : n₃ ≤ n₅ := (Grows.freshColumn htile).trans (Grows.freshColumn hpiece)
  refine Select.fits_of_single rfl (by simp) ?_ ?_ (fun _ _ _ _ e he => ?_)
    (fun env hfrom hjoined hsub => ?_) (by simp) (.unlimited rfl rfl)
    ((Grows.freshTable hpieces).trans (Grows.freshTable htiles))
    ((Grows.freshTable hsegments).trans hle₃) ?_ ?_
  · simpa [Table.ofSelect, Table.as, Table.scoped, Sql.Source.scoped] using hinner.inScope
  · have hon : (Cond.single ((col segments g.tileColumn).equals (col pieces tile))).scoped
        ([⟨pieces, some [tile, piece]⟩] ++ [⟨segments, none⟩] ++ outer) = true := by
      have htile : (col pieces tile).visible
          ([⟨pieces, some [tile, piece]⟩] ++ [⟨segments, none⟩] ++ outer) = true :=
        Sql.visible_of_offered List.mem_cons_self List.mem_cons_self
      have hsegment : (col segments g.tileColumn).visible
          ([⟨pieces, some [tile, piece]⟩] ++ [⟨segments, none⟩] ++ outer) = true :=
        Sql.visible_of_mem (by simp) _
      rw [Cond.scoped, Sql.Column.equals, Expr.equals, Expr.scoped, Expr.scoped, Expr.scoped, htile,
        hsegment]
      rfl
    simp only [Sql.joinsScoped, Join.scoped, hplain.inScope, hplain.bindings, Bool.true_and,
      Bool.and_true]
    exact hon
  · obtain rfl := List.mem_singleton.1 he
    exact .inr rfl
  · have hsegment : ⟨segments, none⟩ ∈ env :=
      hplain.mem (List.Subset.trans (by simp [Sql.joinBindings]) hjoined)
    have hpieces : ⟨pieces, some [tile, piece]⟩ ∈ env := hfrom (List.mem_singleton_self _)
    refine Cond.scoped_both (Cond.scoped_equalities (fun p _ => Sql.visible_of_mem hsegment _)
      fun p _ => Sql.visible_of_mem (hsub houter) _) (hscoped ?_ ?_)
    · exact Sql.visible_of_mem hsegment _
    · exact Sql.visible_of_offered hpieces (by simp)
  · simp only [Table.ofSelect, Table.as, Table.tablesWithin, Sql.Source.tablesWithin]
    exact NewTables.append (newTables_of_freshTable hpieces) hinner.tables
      (Grows.freshTable hpieces) (Grows.freshTable htiles)
  · have hcondition : ((Cond.equalities owner segments s.name).both
        (f (.column (col segments g.geometryColumn)) (.column (col pieces piece)))).tablesWithin =
          [] := by
      refine List.sublist_nil.1 ((Cond.tablesWithin_both _ _).trans (List.sublist_nil.2 ?_))
      rw [Cond.tablesWithin_equalities, htables, List.append_nil]
    simp only [Sql.joinTables, Join.tablesWithin, Cond.tablesWithin, Sql.exprTables,
      Sql.orderTables, Expr.tablesWithin, Sql.Column.equals, Expr.equals, hcondition,
      List.append_nil]
    exact (hplain.named hsegments).mono le_rfl hle₃.1

/-- A condition is in scope wherever the row read as `name` is. -/
def FitsWhere (name : String) (x : Compile Cond) : Prop :=
  ∀ ⦃n cond n'⦄, x n = .ok (cond, n') → ∀ env, ⟨name, none⟩ ∈ env → cond.Fits env n n'

theorem FitsWhere.lift {name : String} {x : Except QueryError Cond}
    (h : ∀ cond, x = .ok cond → cond.ReadsOnly name) : FitsWhere name (liftM x) := by
  intro n cond n' hrun env henv
  obtain ⟨hx, rfl⟩ := lift_run.1 hrun
  exact (h cond hx).fits henv n n

theorem segmentedCondition_fits (c : Compiler) (s : Scope) (info : GeometryInfo)
    (g : GeometrySegments) (t : SpatialTest) :
    FitsWhere s.name (segmentedCondition c s info g t) := by
  intro n cond n' hrun env henv
  unfold segmentedCondition at hrun
  obtain ⟨function, n₁, hfunction, hrun⟩ := bind_run.1 hrun
  obtain ⟨⟨literal, srid⟩, n₂, hliteral, hrun⟩ := bind_run.1 hrun
  obtain ⟨-, rfl⟩ := lift_run.1 hfunction
  obtain ⟨hliteral', rfl⟩ := lift_run.1 hliteral
  obtain ⟨overlapping, n₃, hoverlapping, hrun⟩ := bind_run.1 hrun
  have hconstant : Expr.IsConstant
      (if srid = info.srid then literal else transformed literal info.srid) := by
    have hread := literal_isConstant hliteral'
    split
    · exact hread
    · exact transformed_isConstant hread _
  have hscoped (function : String) {env : List Binding} {l r : Expr} (hl : l.scoped env = true)
      (hr : r.scoped env = true) : (callCondition function l r).scoped env = true := by
    simp [callCondition, Cond.scoped, Expr.scoped, Sql.exprsScoped, hl, hr]
  have hfits := segmentQuery_fits hoverlapping hconstant (hscoped _) (fun _ _ => rfl) henv
  by_cases hoperator : t.operator = .intersects
  · rw [if_pos hoperator] at hrun
    obtain ⟨rfl, rfl⟩ := pure_run.1 hrun
    exact ⟨hfits.inScope, hfits.tables⟩
  · rw [if_neg hoperator] at hrun
    obtain ⟨failing, n₄, hfailing, hrun⟩ := bind_run.1 hrun
    obtain ⟨rfl, rfl⟩ := pure_run.1 hrun
    have hfits' := segmentQuery_fits hfailing hconstant
      (fun hl hr => Cond.scoped_negate (hscoped _ hl hr)) (fun _ _ => rfl) henv
    refine ⟨Cond.scoped_both hfits.inScope hfits'.inScope, ?_⟩
    exact (hfits.tables.append hfits'.tables (Grows.segmentQuery _ _ _ _ _ hoverlapping)
      (Grows.segmentQuery _ _ _ _ _ hfailing)).sublist (Cond.tablesWithin_both _ _)

theorem spatialCondition_fits (c : Compiler) (s : Scope) (f : ScalarField) (t : SpatialTest) :
    FitsWhere s.name (spatialCondition c s f t) := by
  unfold spatialCondition
  split
  · exact fun _ _ _ hrun => (throw_run.1 hrun).elim
  · split
    · exact .lift fun _ => directCondition_reads
    · exact segmentedCondition_fits c s _ _ t

theorem fieldCondition_fits (c : Compiler) (s : Scope) (name : String) (t : FieldTest) :
    FitsWhere s.name (fieldCondition c s name t) := by
  intro n cond n' hrun
  obtain ⟨f, n₁, hf, hrun⟩ := bind_run.1 hrun
  obtain ⟨-, rfl⟩ := lift_run.1 hf
  cases t with
  | equals v => exact FitsWhere.lift (fun _ => equalsCondition_reads) hrun
  | greater orEqual v => exact FitsWhere.lift (fun _ => rangeCondition_reads) hrun
  | lower orEqual v => exact FitsWhere.lift (fun _ => rangeCondition_reads) hrun
  | isIn vs => exact FitsWhere.lift (fun _ => inCondition_reads) hrun
  | spatial t => exact spatialCondition_fits c s f t hrun

/-! ## Filters -/

/-- A select of related rows: what it joins for the relation comes first, and the relation is part
    of its condition. -/
theorem related_fits {c : Compiler} {t : TableRef} {name : String} {read : List Sql.Column}
    {correlation : Correlation} {condition : Cond} {more : List Join} {columns : List Expr}
    {n n₁ n₂ n₃ n' : Names} {outer : List Binding} (hname : freshTable n = .ok (name, n₁))
    (hrestricts : Restricts name read n₁ n₂ correlation.joins correlation.condition)
    (hread : ∀ k ∈ read, k.visible outer = true)
    (hcondition : ∀ env, ⟨name, none⟩ ∈ env → condition.Fits env n₂ n₃)
    (hle₃ : n₂ ≤ n₃) (hle : n₃ ≤ n')
    (hmore : ∀ before, ⟨name, none⟩ ∈ before → Sql.joinsScoped outer before more = true)
    (htables : NamedTables n₃ n' (Sql.joinTables more)) (hcolumns : columns ≠ [])
    (hcolumn : ∀ e ∈ columns, e.tablesWithin = [] ∧
      ∀ env, ⟨name, none⟩ ∈ env → Sql.joinBindings more ⊆ env → e.scoped env = true) :
    Select.Fits outer n n' {
      tables := [(c.table t).as name]
      columns
      joins := correlation.joins ++ more
      condition := correlation.condition.both condition } := by
  have hplain := c.table_isPlain t name
  refine Select.fits_of_single rfl hcolumns (hplain.inScope _) ?_
    (fun env hfrom hjoined _ e he => ?_) (fun env hfrom hjoined hsub => ?_) (by simp)
    (.unlimited rfl rfl) (Grows.freshTable hname)
    (hrestricts.le.trans (hle₃.trans hle)) (hplain.named hname) ?_
  · rw [hplain.bindings, Sql.joinsScoped_append]
    exact ⟨hrestricts.joinsInScope _ _ (by simp), hmore _ (by simp)⟩
  · rw [Sql.joinBindings_append] at hjoined
    exact .inr ((hcolumn e he).2 env (hplain.mem hfrom) (List.append_subset.1 hjoined).2)
  · rw [Sql.joinBindings_append] at hjoined
    have hbound := hplain.mem hfrom
    refine Cond.scoped_both (hrestricts.inScope env hbound (List.append_subset.1 hjoined).1 ?_)
      (hcondition env hbound).inScope
    exact fun k hk => Sql.visible_of_subset (hread k hk) hsub
  · have hnone : Sql.exprTables columns = [] := by
      rw [Sql.exprTables_eq, List.flatMap_eq_nil_iff]
      exact fun e he => (hcolumn e he).1
    have hfits := hcondition [⟨name, none⟩] List.mem_cons_self
    have hboth := Cond.tablesWithin_both correlation.condition condition
    rw [hrestricts.noTables, List.nil_append] at hboth
    have hjoined := hrestricts.tables.append (hfits.tables.append htables hle₃ hle) hrestricts.le
      (hle₃.trans hle)
    simp only [Sql.joinTables_append, hnone, Sql.orderTables, List.append_nil]
    -- the condition is made before the further joins
    refine (hjoined.perm ?_).sublist (hboth.append_left _)
    rw [List.append_assoc]
    exact List.perm_append_comm.append_left _

theorem existsRelated_fits {c : Compiler} {parent : String} {l : Link}
    {nested : Scope → Compile Cond} (hgrows : ∀ s, Grows (nested s))
    (hnested : ∀ s, FitsWhere s.name (nested s)) :
    FitsWhere parent (existsRelated c parent l nested) := by
  intro n cond n' hrun env henv
  unfold existsRelated at hrun
  obtain ⟨child, n₁, hchild, hrun⟩ := bind_run.1 hrun
  obtain ⟨correlation, n₂, hcorrelate, hrun⟩ := bind_run.1 hrun
  obtain ⟨condition, n₃, hcondition, hrun⟩ := bind_run.1 hrun
  obtain ⟨rfl, rfl⟩ := pure_run.1 hrun
  obtain ⟨hrestricts, -⟩ := restricts_of_correlate hcorrelate
  have hread : ∀ k ∈ l.parentColumns.map (col parent), k.visible env = true := by
    intro k hk
    obtain ⟨x, -, rfl⟩ := List.mem_map.1 hk
    exact Sql.visible_of_mem henv x
  have hone : ∀ e ∈ [Expr.literal (.int 1)], e.tablesWithin = [] ∧
      ∀ env, ⟨child, none⟩ ∈ env → Sql.joinBindings [] ⊆ env → e.scoped env = true := by
    intro e he
    obtain rfl := List.mem_singleton.1 he
    exact ⟨rfl, fun _ _ _ => rfl⟩
  have hfits := related_fits (c := c) (t := l.child.table) hchild hrestricts hread
    (hnested _ hcondition) (hgrows _ hcondition) le_rfl (fun _ _ => rfl) (.nil _ _ _)
    (List.cons_ne_nil _ _) hone
  rw [List.append_nil] at hfits
  exact ⟨hfits.inScope, hfits.tables⟩

theorem pathCondition_fits (c : Compiler) (t : FieldTest) (path : FieldPath) (s : Scope) :
    FitsWhere s.name (pathCondition c t path s) := by
  induction path generalizing s with
  | nil => exact fun _ _ _ hrun => (throw_run.1 hrun).elim
  | cons name rest ih =>
    cases rest with
    | nil => exact fieldCondition_fits c s name t
    | cons next rest =>
      intro n cond n' hrun
      rw [pathCondition] at hrun
      obtain ⟨f, n₁, hf, hrun⟩ := bind_run.1 hrun
      obtain ⟨target, n₂, htarget, hrun⟩ := bind_run.1 hrun
      obtain ⟨-, rfl⟩ := lift_model_run.1 hf
      obtain ⟨-, rfl⟩ := lift_model_run.1 htarget
      split_ifs at hrun
      · exact ih ⟨target, s.name⟩ hrun
      · obtain ⟨link, n₃, hlink, hrun⟩ := bind_run.1 hrun
        obtain ⟨-, rfl⟩ := lift_run.1 hlink
        exact existsRelated_fits (Grows.pathCondition c t _) (fun s => ih s) hrun

mutual

theorem condition_fits (c : Compiler) (s : Scope) : ∀ f, FitsWhere s.name (condition c s f)
  | .test path t => pathCondition_fits c t path s
  | .not f => by
    intro n cond n' hrun env henv
    obtain ⟨d, n₁, hd, hrun⟩ := bind_run.1 hrun
    obtain ⟨rfl, rfl⟩ := pure_run.1 hrun
    have hfits := condition_fits c s f hd env henv
    refine ⟨Cond.scoped_negate hfits.inScope, ?_⟩
    rw [Cond.tablesWithin_negate]
    exact hfits.tables
  | .and fs => by
    intro n cond n' hrun env henv
    obtain ⟨cs, n₁, hcs, hrun⟩ := bind_run.1 hrun
    obtain ⟨rfl, rfl⟩ := pure_run.1 hrun
    obtain ⟨hscoped, htables⟩ := conditions_fit c s fs hcs env henv
    exact ⟨Cond.scoped_all hscoped, htables.sublist (Cond.tablesWithin_all cs)⟩
  | .or fs => by
    intro n cond n' hrun env henv
    obtain ⟨cs, n₁, hcs, hrun⟩ := bind_run.1 hrun
    obtain ⟨rfl, rfl⟩ := pure_run.1 hrun
    obtain ⟨hscoped, htables⟩ := conditions_fit c s fs hcs env henv
    exact ⟨Cond.scoped_any hscoped, htables.sublist (Cond.tablesWithin_any cs)⟩
termination_by structural f => f

theorem conditions_fit (c : Compiler) (s : Scope) : ∀ (fs : List Filter) ⦃n cs n'⦄,
    conditions c s fs n = .ok (cs, n') → ∀ env, ⟨s.name, none⟩ ∈ env →
      (∀ cond ∈ cs, cond.scoped env = true) ∧ NamedTables n n' (cs.flatMap (·.tablesWithin))
  | [] => by
    intro n cs n' hrun env henv
    obtain ⟨rfl, rfl⟩ := pure_run.1 hrun
    exact ⟨by simp, .nil _ _ _⟩
  | f :: fs => by
    intro n cs n' hrun env henv
    obtain ⟨cond, n₁, hcond, hrun⟩ := bind_run.1 hrun
    obtain ⟨rest, n₂, hrest, hrun⟩ := bind_run.1 hrun
    obtain ⟨rfl, rfl⟩ := pure_run.1 hrun
    have hfits := condition_fits c s f hcond env henv
    obtain ⟨hscoped, htables⟩ := conditions_fit c s fs hrest env henv
    refine ⟨?_, ?_⟩
    · intro d hd
      rcases List.mem_cons.1 hd with rfl | hd
      · exact hfits.inScope
      · exact hscoped d hd
    · rw [List.flatMap_cons]
      exact hfits.tables.append htables (Grows.condition c s f hcond)
        (Grows.conditions c s fs hrest)
termination_by structural fs => fs

end

theorem conjunction_fits (c : Compiler) (s : Scope) (fs : List Filter) :
    FitsWhere s.name (conjunction c s fs) := by
  intro n cond n' hrun env henv
  obtain ⟨cs, n₁, hcs, hrun⟩ := bind_run.1 hrun
  obtain ⟨rfl, rfl⟩ := pure_run.1 hrun
  obtain ⟨hscoped, htables⟩ := conditions_fit c s fs hcs env henv
  exact ⟨Cond.scoped_all hscoped, htables.sublist (Cond.tablesWithin_all cs)⟩

end LateralSql
