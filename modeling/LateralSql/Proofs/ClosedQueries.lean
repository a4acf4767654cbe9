/-
  Compiled selects are closed: their tables have distinct names, and whatever they refer to is in
  scope.

  The select of a node stands where its parent is bound; what it joins stands where the node itself
  is bound.  So the selects within a select are in scope by induction on the request, and since
  names are handed out in order, those of different parts are distinct.
-/
import LateralSql.Proofs.AggregateExpressions
import LateralSql.Proofs.AliasAgreement
import LateralSql.Proofs.KeyedLists
import LateralSql.Proofs.Relations
import LateralSql.Proofs.ScopedConditions

namespace LateralSql

open Sql (col Binding Cond Expr Join Select Table)

/-! ## Aggregates -/

/-- An aggregate reads the column of its field. -/
theorem Aggregate.expr_reads {a : Aggregate} {source : Option (ScalarField × Sql.Column)} {e : Expr}
    (h : a.expr source = .ok e) : e.tablesWithin = [] ∧
      ∀ env, (∀ p ∈ source, p.2.visible env = true) → e.scoped env = true := by
  cases Aggregate.expr_ok.1 h with
  | rows => exact ⟨rfl, fun _ _ => rfl⟩
  | count | number => exact ⟨rfl, fun env henv => henv _ rfl⟩
  | @texts f column =>
    refine ⟨rfl, fun env henv => ?_⟩
    simp [Expr.scoped, henv (f, column) rfl]

theorem sharedResults_read {source : String} {as : List SourcedAggregate} {n n' : Names}
    {rs : List (Expr × String)} (h : sharedResults source as n = .ok (rs, n')) :
    rs.length = as.length ∧ ∀ e ∈ rs.map (·.1), e.tablesWithin = [] ∧
      ∀ env, ⟨source, none⟩ ∈ env → e.scoped env = true := by
  induction as generalizing n rs with
  | nil =>
    obtain ⟨rfl, rfl⟩ := pure_run.1 h
    exact ⟨rfl, by simp⟩
  | cons a as ih =>
    unfold sharedResults at h
    obtain ⟨name, n₁, hfresh, h⟩ := bind_run.1 h
    obtain ⟨e, n₂, he, h⟩ := bind_run.1 h
    obtain ⟨rest, n₃, hrest, h⟩ := bind_run.1 h
    obtain ⟨rfl, rfl⟩ := pure_run.1 h
    obtain ⟨he', rfl⟩ := lift_run.1 he
    obtain ⟨hlength, hresults⟩ := ih hrest
    refine ⟨congrArg (· + 1) hlength, fun x hx => ?_⟩
    rcases List.mem_cons.1 hx with rfl | hx
    · obtain ⟨htables, hscoped⟩ := Aggregate.expr_reads he'
      refine ⟨by simpa using htables, fun env henv => ?_⟩
      rw [Expr.scoped_as]
      refine hscoped env fun p hp => ?_
      obtain ⟨f, -, rfl⟩ := Option.map_eq_some_iff.1 hp
      exact Sql.visible_of_mem henv _
    · exact hresults x hx

/-! ## Joined selects -/

theorem NodeRun.rowsConstant {c : Compiler} {parent : Option Parent} {r : ObjectRequest}
    {n n' : Names} (run : NodeRun c parent r n n') : run.node.select.RowsConstant :=
  ⟨Sql.atMost_constant _, Sql.atMost_constant _⟩

/-- The parent's columns that a node reads. -/
def Parent.reads (p : Parent) : List Sql.Column := p.link.parentColumns.map (col p.name)

/-- The queries of a request fit where the columns of the parent are visible. -/
def FittingNodes (c : Compiler) (request : ObjectRequest) : Prop :=
  ∀ ⦃parent n child n'⦄, node c parent request n = .ok (child, n') → ∀ outer,
    (∀ p ∈ parent, ∀ k ∈ p.reads, k.visible outer = true) → child.select.Fits outer n n'

/-- What is joined to the rows read as `name` reads these rows. -/
theorem Joined.fits {c : Compiler} {name : String} {bound : Nat} {n n' : Names} {s : Select}
    (h : Joined c name bound n s n') (hnode : ∀ r, sizeOf r < bound → FittingNodes c r)
    {outer : List Binding} (houter : ⟨name, none⟩ ∈ outer) : s.Fits outer n n' := by
  have hread (l : Link) : ∀ k ∈ l.parentColumns.map (col name), k.visible outer = true := by
    intro k hk
    obtain ⟨x, -, rfl⟩ := List.mem_map.1 hk
    exact Sql.visible_of_mem houter x
  cases h with
  | @object link request n n' child hsize hrun =>
    have hfits := hnode _ hsize hrun outer fun p hp => by
      obtain rfl := Option.some.inj hp
      exact hread link
    obtain ⟨run, rfl⟩ := node_run hrun
    refine ⟨Select.scoped_first hfits.inScope, ?_⟩
    rw [Select.tablesWithin_first run.rowsConstant]
    exact hfits.tables
  | @shared link filters as source correlation condition results n n₁ n₂ n₃ n' has hsource
      hcorrelate hcondition hresults =>
    obtain ⟨hrestricts, -⟩ := restricts_of_correlate hcorrelate
    obtain ⟨hlength, hcolumns⟩ := sharedResults_read hresults
    have hne : results.map (·.1) ≠ [] := by
      intro hnil
      rw [List.map_eq_nil_iff] at hnil
      rw [hnil, List.length_nil, eq_comm, List.length_eq_zero_iff] at hlength
      exact has hlength
    have hcolumn : ∀ e ∈ results.map (·.1), e.tablesWithin = [] ∧
        ∀ env, ⟨source, none⟩ ∈ env → Sql.joinBindings [] ⊆ env → e.scoped env = true :=
      fun e he => ⟨(hcolumns e he).1, fun env henv _ => (hcolumns e he).2 env henv⟩
    have hfits := related_fits (c := c) (t := link.child.table) hsource hrestricts (hread link)
      (conjunction_fits c _ _ hcondition) (Grows.conjunction c _ _ hcondition)
      (sharedResults_run hresults).1 (fun _ _ => rfl) (.nil _ _ _) hne hcolumn
    rwa [List.append_nil] at hfits
  | @unnested link filters a f source elements element result correlation condition e n n₁ n₂ n₃ n₄
      n₅ n' hsource hcorrelate hcondition helements helement hresult he =>
    obtain ⟨hrestricts, -⟩ := restricts_of_correlate hcorrelate
    obtain ⟨htables, hscoped⟩ := Aggregate.expr_reads he
    refine related_fits hsource hrestricts (hread link) (conjunction_fits c _ _ hcondition)
      (Grows.conjunction c _ _ hcondition) (((Grows.freshTable helements).trans
        (Grows.freshColumn helement)).trans (Grows.freshColumn hresult)) ?_ ?_ (by simp) ?_
    · intro before hbefore
      have hlist : (col source f.column).visible (before ++ outer) = true :=
        Sql.visible_of_mem (List.mem_append_left _ hbefore) _
      simp [Sql.joinsScoped, Join.scoped, Table.scoped, Sql.Source.scoped, Expr.scoped, Cond.scoped,
        hlist]
    · have hle := (Grows.freshColumn helement).trans (Grows.freshColumn hresult)
      exact (newTables_of_freshTable helements).mono le_rfl hle.1
    · intro x hx
      obtain rfl := List.mem_singleton.1 hx
      refine ⟨by simpa using htables, fun env _ hjoined => ?_⟩
      rw [Expr.scoped_as]
      refine hscoped env fun p hp => ?_
      obtain rfl := Option.some.inj hp
      have helement : ⟨elements, some [element]⟩ ∈ env := hjoined (List.mem_singleton_self _)
      exact Sql.visible_of_offered helement (List.mem_singleton_self _)

/-! ## Drafts -/

/-- A select joined to each row reads what was joined before it. -/
theorem ofLateral_fits {s : Select} {name : String} {outer before : List Binding} {n n₁ n' : Names}
    (hfresh : freshTable n = .ok (name, n₁)) (hle : n₁ ≤ n') (hs : s.Fits (before ++ outer) n₁ n') :
    Sql.joinsScoped outer before [.ofLateral s name] = true ∧
      NamedTables n n' (Sql.joinTables [.ofLateral s name]) := by
  refine ⟨?_, ?_⟩
  · simpa [Sql.joinsScoped, Join.ofLateral, Join.scoped, Table.ofSelect, Table.as, Table.scoped,
      Sql.Source.scoped, Cond.scoped] using hs.inScope
  · simp only [Sql.joinTables, Join.ofLateral, Join.tablesWithin, Table.ofSelect, Table.as,
      Table.tablesWithin, Sql.Source.tablesWithin, Cond.tablesWithin, List.append_nil]
    exact NewTables.append (newTables_of_freshTable hfresh) hs.tables (Grows.freshTable hfresh) hle

/-- What a node read as `name` has drafted is in scope where `name` is, with the columns that tell
    its rows from none, and names its tables anew. -/
structure Draft.Fits (name : String) (related : List Sql.Column) (n n' : Names) (d : Draft) :
    Prop where
  tables : NamedTables n n' (Sql.joinTables d.joins)
  joinsInScope : ∀ outer before, ⟨name, none⟩ ∈ before →
    Sql.joinsScoped outer before d.joins = true
  inScope : ∀ joined env, ⟨name, none⟩ ∈ env → (∀ k ∈ related, k.visible env = true) →
    d.joins.filterMap (·.table.name) ⊆ joined →
    ∀ e ∈ d.columns, e.isStarOf joined = true ∨ e.scoped env = true

theorem Selected.reads {name : String} {related : List Sql.Column} {e : Expr}
    (h : Selected name related e) : e.tablesWithin = [] ∧
      ∀ env, ⟨name, none⟩ ∈ env → (∀ k ∈ related, k.visible env = true) → e.scoped env = true := by
  cases h with
  | column x => exact ⟨rfl, fun env henv _ => Sql.visible_of_mem henv x⟩
  | relabelled x v =>
    refine ⟨rfl, fun env henv _ => ?_⟩
    simp [Expr.scoped, Sql.exprsScoped, Sql.visible_of_mem henv x]
  | related hc => exact ⟨rfl, fun env _ hrelated => hrelated _ hc⟩

/-- What a draft selects reads no tables but those it joins. -/
theorem Added.noTables {name : String} {related : List Sql.Column}
    {Lat : Names → Select → Names → Prop} {n n' : Names} {d : Draft}
    (h : Added (Selected name related) Lat n d n') : Sql.exprTables d.columns = [] := by
  induction h with
  | nothing _ | lateral => rfl
  | column he _ => simpa [Draft.withColumn, Sql.exprTables] using he.reads.1
  | append _ _ ihd ihe =>
    rw [Draft.columns_append, Sql.exprTables_append, ihd, ihe]
    rfl

theorem Added.fits {c : Compiler} {name : String} {bound : Nat} {related : List Sql.Column}
    {n n' : Names} {d : Draft} (h : Added (Selected name related) (Joined c name bound) n d n')
    (hnode : ∀ r, sizeOf r < bound → FittingNodes c r) : d.Fits name related n n' := by
  induction h with
  | nothing _ => exact ⟨.nil _ _ _, fun _ _ _ => rfl, by simp⟩
  | @column n n' e x he hfresh =>
    refine ⟨.nil _ _ _, fun _ _ _ => rfl, fun joined env henv hrelated _ y hy => ?_⟩
    obtain rfl : y = e.as x := List.mem_singleton.1 hy
    rw [Expr.scoped_as]
    exact .inr (he.reads.2 env henv hrelated)
  | @lateral n n₁ n' s x hfresh hle hs =>
    have hfits {outer before : List Binding} (hbefore : ⟨name, none⟩ ∈ before) :=
      ofLateral_fits hfresh hle (hs.fits hnode (List.mem_append_left outer hbefore))
    refine ⟨?_, fun outer before hbefore => (hfits hbefore).1,
      fun joined env _ _ hsub y hy => ?_⟩
    · exact (@hfits [] _ (List.mem_singleton_self _)).2
    · obtain rfl : y = .star (some x) := List.mem_singleton.1 hy
      exact .inl (List.contains_iff_mem.2 (hsub (List.mem_singleton_self _)))
  | @append n n₁ n' d e hd he ihd ihe =>
    refine ⟨?_, fun outer before hbefore => ?_, fun joined env henv hrelated hsub y hy => ?_⟩
    · rw [Draft.joins_append, Sql.joinTables_append]
      exact ihd.tables.append ihe.tables hd.le he.le
    · rw [Draft.joins_append, Sql.joinsScoped_append]
      exact ⟨ihd.joinsInScope _ _ hbefore, ihe.joinsInScope _ _ (List.mem_append_left _ hbefore)⟩
    · rw [Draft.joins_append, List.filterMap_append, List.append_subset] at hsub
      rcases List.mem_append.1 hy with hy | hy
      · exact ihd.inScope joined env henv hrelated hsub.1 y hy
      · exact ihe.inScope joined env henv hrelated hsub.2 y hy

/-! ## Nodes -/

theorem selectOrder_named {s : Scope} {k : SortKey} {d d' : Draft} {n n' : Names}
    {t : Sql.SortTerm} (h : selectOrder s k d n = .ok ((t, d'), n')) :
    t.namesOutput d'.named = true := by
  unfold selectOrder at h
  obtain ⟨f, _, _, hf, h⟩ := draft_bind_run.1 h
  obtain ⟨name, d₁, n₁, hname, h⟩ := draft_bind_run.1 h
  obtain ⟨rfl, rfl, rfl⟩ := draft_pure_run.1 h
  refine List.contains_iff_mem.2 ?_
  rcases selectColumn_run.1 hname with ⟨hfound, rfl, -⟩ | ⟨-, hselect⟩
  · exact Draft.mem_named_of_nameOf? hfound
  · obtain ⟨-, rfl⟩ := selectExpr_run.1 hselect
    rw [Draft.withColumn_eq, Draft.named_append, Draft.named_withColumn]
    exact List.mem_append_right _ (List.mem_singleton_self _)

/-- The order names columns of the draft. -/
theorem order_named {s : Scope} {ks : List SortKey} {d d' : Draft} {n n' : Names}
    {ts : List Sql.SortTerm} (h : ks.mapM (selectOrder s) d n = .ok ((ts, d'), n')) :
    ∀ t ∈ ts, t.namesOutput d'.named = true := by
  induction ks generalizing d n ts with
  | nil =>
    obtain ⟨rfl, -, -⟩ := draft_pure_run.1 h
    simp
  | cons k ks ih =>
    rw [List.mapM_cons] at h
    obtain ⟨t, d₁, n₁, ht, h⟩ := draft_bind_run.1 h
    obtain ⟨rest, d₂, n₂, hrest, h⟩ := draft_bind_run.1 h
    obtain ⟨rfl, rfl, rfl⟩ := draft_pure_run.1 h
    have hextends : Extends (Selected s.name []) (fun _ _ _ => False) [] (ks.mapM (selectOrder s))
        (·.flatMap fun _ => []) := .mapM fun k _ => .selectOrder s k
    intro x hx
    rcases List.mem_cons.1 hx with rfl | hx
    · obtain ⟨e, rfl, -⟩ := hextends hrest
      refine Sql.namesOutput_of_subset (selectOrder_named ht) ?_
      rw [Draft.named_append]
      exact List.subset_append_left _ _
    · exact ih hrest x hx

theorem restricts_of_correlateParent {c : Compiler} {parent : Option Parent} {name : String}
    {r : Correlation} {n n' : Names} (h : correlateParent c parent name n = .ok (r, n')) :
    Restricts name (parent.toList.flatMap Parent.reads) n n' r.joins r.condition ∧
      ∀ env, ⟨name, none⟩ ∈ env → Sql.joinBindings r.joins ⊆ env →
        ∀ k ∈ r.existsColumns, k.visible env = true := by
  cases parent with
  | none =>
    obtain ⟨rfl, rfl⟩ := pure_run.1 h
    exact ⟨.none _ _, by simp⟩
  | some p =>
    rw [Option.toList_some, List.flatMap_singleton]
    exact restricts_of_correlate h

section
variable {c : Compiler} {parent : Option Parent} {r : ObjectRequest} {n n' : Names}

/-- The order of a node names columns of its select. -/
theorem NodeRun.order_named (run : NodeRun c parent r n n') :
    ∀ o ∈ run.node.select.order, o.namesOutput run.node.select.outputs = true := by
  have hsound : ∀ r', sizeOf r' < sizeOf r → SoundNodes c r' := fun r' _ => node_sound c r'
  obtain ⟨e, hdraft, he, -, -⟩ := run.last (Joined c run.name (sizeOf r))
  intro o ho
  refine Sql.namesOutput_of_subset (LateralSql.order_named run.order_run o ho) ?_
  rw [run.outputs hsound hdraft he]
  exact List.subset_append_of_subset_left _ run.d₅.named_subset_outputs

theorem NodeRun.noTables (run : NodeRun c parent r n n') :
    Sql.exprTables run.node.select.columns = [] := by
  obtain ⟨hd, -, -⟩ := run.fields fun r' _ => node_sound c r'
  obtain ⟨e, hdraft, he, -, -⟩ := run.last (Joined c run.name (sizeOf r))
  rw [NodeRun.node, hdraft, Draft.columns_append, Sql.exprTables_append, hd.noTables, he.noTables]
  rfl

/-- The tables of a node besides its own are named one part after the other. -/
theorem NodeRun.tables_named (run : NodeRun c parent r n n')
    (hnode : ∀ r', sizeOf r' < sizeOf r → FittingNodes c r') :
    NamedTables run.n₁ n' (Sql.joinTables run.node.select.joins ++
      Sql.exprTables run.node.select.columns ++ run.node.select.condition.tablesWithin ++
      Sql.orderTables run.node.select.order) := by
  obtain ⟨hd, -, -⟩ := run.fields fun r' _ => node_sound c r'
  obtain ⟨e, hdraft, he, -, -⟩ := run.last (Joined c run.name (sizeOf r))
  obtain ⟨hcorrelation, -⟩ := restricts_of_correlateParent run.correlation_run
  have hkeys := restricts_of_keyCriteria run.keys_run
  have hdrafted := hd.fits hnode
  have hlast := he.fits hnode
  have hle := Grows.conjunction c _ _ run.filters_run
  have hfiltered :=
    (conjunction_fits c _ _ run.filters_run [⟨run.name, none⟩] List.mem_cons_self).tables
  have hkeyed := hkeys.tables.append hlast.tables hkeys.le he.le
  have hle' := hle.trans (hkeys.le.trans he.le)
  have hdrafting := hdrafted.tables.append
    (hfiltered.append hkeyed hle (hkeys.le.trans he.le)) hd.le hle'
  have hall := hcorrelation.tables.append hdrafting hcorrelation.le (hd.le.trans hle')
  have hjoins : Sql.joinTables run.node.select.joins =
      Sql.joinTables run.correlation.joins ++ Sql.joinTables run.keys.joins ++
        (Sql.joinTables run.d₅.joins ++ Sql.joinTables e.joins) := by
    rw [NodeRun.node, hdraft, Draft.joins_append, Sql.joinTables_append, Sql.joinTables_append,
      Sql.joinTables_append]
  have hcondition : List.Sublist run.node.select.condition.tablesWithin
      run.filters.tablesWithin := by
    have h := (Cond.tablesWithin_both (run.correlation.condition.both run.filters)
      run.keys.condition).trans
        ((Cond.tablesWithin_both run.correlation.condition run.filters).append_right _)
    rwa [hcorrelation.noTables, hkeys.noTables, List.nil_append, List.append_nil] at h
  rw [Sql.orderTables_eq_nil run.order_named, run.noTables, List.append_nil, List.append_nil,
    hjoins]
  -- the keys are joined before what the draft joins, but named after most of it
  refine (hall.perm ?_).sublist (hcondition.append_left _)
  classical
  refine List.perm_iff_count.2 fun t => ?_
  simp only [List.count_append]
  omega

/-- A node fits if the nodes of smaller requests do. -/
theorem NodeRun.fits (run : NodeRun c parent r n n')
    (hnode : ∀ r', sizeOf r' < sizeOf r → FittingNodes c r') {outer : List Binding}
    (hparent : ∀ p ∈ parent, ∀ k ∈ p.reads, k.visible outer = true) :
    run.node.select.Fits outer n n' := by
  obtain ⟨hd, -, -⟩ := run.fields fun r' _ => node_sound c r'
  obtain ⟨e, hdraft, he, -, -⟩ := run.last (Joined c run.name (sizeOf r))
  obtain ⟨hcorrelation, hrelated⟩ := restricts_of_correlateParent run.correlation_run
  have hkeys := restricts_of_keyCriteria run.keys_run
  have hfilters := conjunction_fits c _ _ run.filters_run
  have hle := (Grows.conjunction c _ _ run.filters_run).trans hkeys.le
  have hplain := c.entityTable_isPlain run.entity r.context run.name
  have hdrafted := ((hd.mono hle).append he).fits hnode
  rw [← hdraft] at hdrafted
  refine Select.fits_of_single rfl run.columns_ne (hplain.inScope _) ?_
    (fun env hfrom hjoined _ => ?_) (fun env hfrom hjoined hsub => ?_) run.order_named
    run.rowsConstant
    (Grows.freshTable run.name_run) (hcorrelation.le.trans (hd.le.trans (hle.trans he.le)))
    (hplain.named run.name_run) (run.tables_named hnode)
  · change Sql.joinsScoped outer _ (_ ++ _ ++ _) = true
    rw [hplain.bindings, Sql.joinsScoped_append, Sql.joinsScoped_append]
    exact ⟨⟨hcorrelation.joinsInScope _ _ (by simp), hkeys.joinsInScope _ _ (by simp)⟩,
      hdrafted.joinsInScope _ _ (by simp)⟩
  · have hbound := hplain.mem hfrom
    change Sql.joinBindings (_ ++ _ ++ _) ⊆ env at hjoined
    simp only [Sql.joinBindings_append, List.append_subset] at hjoined
    refine hdrafted.inScope _ env hbound (hrelated env hbound hjoined.1.1) ?_
    change _ ⊆ List.filterMap _ (_ ++ _)
    rw [List.filterMap_append]
    exact List.subset_append_right _ _
  · have hbound := hplain.mem hfrom
    change Sql.joinBindings (_ ++ _ ++ _) ⊆ env at hjoined
    simp only [Sql.joinBindings_append, List.append_subset] at hjoined
    refine Cond.scoped_both (Cond.scoped_both (hcorrelation.inScope env hbound hjoined.1.1 ?_)
      (hfilters env hbound).inScope) (hkeys.inScope env hbound hjoined.1.2 (by simp))
    intro k hk
    obtain ⟨p, hp, hk⟩ := List.mem_flatMap.1 hk
    exact Sql.visible_of_subset (hparent p (Option.mem_toList.1 hp) k hk) hsub

end

theorem node_fits (c : Compiler) (r : ObjectRequest) : FittingNodes c r := by
  intro parent n nd n' hrun outer hparent
  obtain ⟨run, rfl⟩ := node_run hrun
  exact run.fits (fun r' _ => node_fits c r') hparent
termination_by sizeOf r

/-! ## Requests -/

theorem object_closed {c : Compiler} {r : ObjectRequest} {q : CompiledQuery}
    (h : c.object r = .ok q) :
    ∃ root, Compiler.run (node c none r) = .ok root ∧
      q = ⟨c.statement root.select, root.assembler⟩ ∧ root.select.IsClosed := by
  obtain ⟨root, hroot, h⟩ := bind_ok.1 h
  obtain rfl := pure_ok.1 h
  obtain ⟨n', hrun⟩ := run_ok.1 hroot
  have hfits := node_fits c r hrun [] (by simp)
  exact ⟨root, hroot, rfl, hfits.tables.nodup, hfits.inScope⟩

/-- A link gives each column of the parent a type. -/
theorem Link.length_parentTypes {s : Schema} {parent : Entity} {f : ObjectField} {l : Link}
    (h : Link.resolve s parent f = .ok l) : l.parentTypes.length = l.parentColumns.length := by
  have hlength {e : Entity} {js : List JoinColumn} {pairs : List (String × String)}
      (h : JoinColumn.pairs e js = .ok pairs) : js.length = pairs.length := by
    unfold JoinColumn.pairs at h
    induction js generalizing pairs with
    | nil => cases h; rfl
    | cons j js ih =>
      obtain ⟨p, ps, -, hps, rfl⟩ := mapM_cons_ok.1 h
      exact congrArg (· + 1) (ih hps)
  cases Link.resolved_of_resolve h with
  | joinColumns _ _ hpairs => simp [Link.parentColumns, hlength hpairs]
  | joinTable _ _ hpairs _ => simp [Link.parentColumns, hlength hpairs]
  | ownedColumns _ _ _ _ hpairs => simp [Link.parentColumns, hlength hpairs]
  | ownedTable _ _ _ _ hpairs _ => simp [Link.parentColumns, hlength hpairs]

/-- The keys of a batch are a table with the columns that its relation reads. -/
theorem BatchRun.parentColumns_subset {c : Compiler} {r : BatchRequest} {n n' : Names}
    (run : BatchRun c r n n') : run.link.parentColumns ⊆ r.keys.names := by
  intro x hx
  rw [run.names_eq, ((sortBy_perm _ _).map _).mem_iff,
    List.map_fst_zip (Link.length_parentTypes run.link_run).ge]
  exact hx

theorem BatchRun.noTables {c : Compiler} {r : BatchRequest} {n n' : Names}
    (run : BatchRun c r n n') : Sql.exprTables run.result.select.columns = [] := by
  rw [Sql.exprTables_eq, List.flatMap_eq_nil_iff]
  intro e he
  rcases List.mem_append.1 he with he | he
  · obtain ⟨k, -, rfl⟩ := List.mem_map.1 he
    rfl
  · obtain rfl := List.mem_singleton.1 he
    rfl

theorem batchSelect_fits {c : Compiler} {r : BatchRequest} {b : BatchSelect} {n n' : Names}
    (h : batchSelect c r n = .ok (b, n')) : b.select.Fits [] n n' := by
  obtain ⟨run, rfl⟩ := batchSelect_run h
  have hle := (newColumns_of_keys run.keys_run).1
  have hleChild := (node_sound c r.request run.child_run).le
  have hchild := node_fits c r.request run.child_run ([⟨run.name, some r.keys.names⟩] ++ [])
    fun p hp k hk => by
      obtain rfl := Option.some.inj hp
      obtain ⟨x, hx, rfl⟩ := List.mem_map.1 hk
      exact Sql.visible_of_offered List.mem_cons_self (run.parentColumns_subset hx)
  obtain ⟨hjoin, htables⟩ := ofLateral_fits run.wrapper_run hleChild hchild
  have hkey : ∀ k ∈ run.keyColumns, k.1 ∈ r.keys.names := by
    refine mapM_run_forall (fun x hx n k n' hrun => ?_) run.keys_run
    obtain ⟨column, n₁, -, hrun⟩ := bind_run.1 hrun
    obtain ⟨rfl, -⟩ := pure_run.1 hrun
    exact hx
  refine Select.fits_of_single rfl (by simp [BatchRun.result]) (keyTable_scoped _ _ _ _) hjoin
    (fun env hfrom _ _ e he => ?_) (fun _ _ _ _ => rfl) (by simp [BatchRun.result])
    (.unlimited rfl rfl) ((Grows.freshTable run.name_run).trans hle)
    ((Grows.freshTable run.wrapper_run).trans hleChild) ?_ ?_
  · rcases List.mem_append.1 he with he | he
    · obtain ⟨k, hk, rfl⟩ := List.mem_map.1 he
      have hbound : ⟨run.name, some r.keys.names⟩ ∈ env := hfrom (List.mem_singleton_self _)
      rw [Expr.scoped_as]
      exact .inr (Sql.visible_of_offered hbound (hkey k hk))
    · obtain rfl := List.mem_singleton.1 he
      exact .inl (List.contains_iff_mem.2 (List.mem_singleton_self _))
  · rw [keyTable_tables]
    exact (newTables_of_freshTable run.name_run).mono le_rfl hle.1
  · rw [run.noTables, List.append_nil]
    simpa [BatchRun.result, Cond.tablesWithin, Sql.orderTables] using htables

/-- **Compiled selects are closed.**  In the select of an object, a collection or a batch no two
    tables have one name, at any depth, and every column, every order and every selection of all
    columns refers to what is in scope. -/
theorem compiled_selects_closed (c : Compiler) :
    (∀ r q, c.object r = .ok q → ∃ root, Compiler.run (node c none r) = .ok root ∧
      q = ⟨c.statement root.select, root.assembler⟩ ∧ root.select.IsClosed) ∧
    (∀ r q, c.collection r = .ok q → ∃ root, Compiler.run (node c none r.root) = .ok root ∧
      q = ⟨c.statement root.select, root.assembler⟩ ∧ root.select.IsClosed) ∧
    (∀ r q, c.batch r = .ok q → ∃ root, Compiler.run (batchSelect c r) = .ok root ∧
      q = ⟨⟨c.statement root.select, root.assembler⟩, root.grouping⟩ ∧ root.select.IsClosed) := by
  refine ⟨fun _ _ => object_closed, fun _ _ => object_closed, fun r q h => ?_⟩
  obtain ⟨root, hroot, h⟩ := bind_ok.1 h
  obtain rfl := pure_ok.1 h
  obtain ⟨n', hrun⟩ := run_ok.1 hroot
  have hfits := batchSelect_fits hrun
  exact ⟨root, hroot, rfl, hfits.tables.nodup, hfits.inScope⟩

/-- Two books if they have a certain loan, the last one first. -/
def lentRequest : ObjectRequest :=
  { bookRequest with
    filters := [.test ["loans", "id"] (.equals (.int 7))]
    sort := [⟨"id", .descending⟩]
    keys := [idKey 1, idKey 2] }

/-- The table `t10` of the keys is joined first and named last. -/
theorem compiled_selects_closed_library :
    (Compiler.run (node library none lentRequest)).toOption.map (·.select.aliases) =
      some ["t1", "t10", "t2", "t3", "t4", "t5", "t6", "t7", "t8", "t9"] ∧
    (∃ q root, library.object lentRequest = .ok q ∧
      Compiler.run (node library none lentRequest) = .ok root ∧ root.select.IsClosed) ∧
    (∃ q root, library.collection { object := lentRequest } = .ok q ∧
      Compiler.run (node library none lentRequest) = .ok root ∧ root.select.IsClosed) ∧
    (Compiler.run (batchSelect library loansRequest)).toOption.map (·.select.aliases) =
      some ["t1", "t2", "t3"] ∧
    ∃ q root, library.batch loansRequest = .ok q ∧
      Compiler.run (batchSelect library loansRequest) = .ok root ∧ root.select.IsClosed := by
  obtain ⟨q, hq⟩ : ∃ q, library.object lentRequest = .ok q := ⟨_, rfl⟩
  obtain ⟨b, hb⟩ : ∃ b, library.batch loansRequest = .ok b := ⟨_, rfl⟩
  obtain ⟨hobject, hcollection, hbatch⟩ := compiled_selects_closed library
  refine ⟨by decide +kernel, ?_, ?_, by decide +kernel, ?_⟩
  · obtain ⟨root, hroot, -, hclosed⟩ := hobject lentRequest q hq
    exact ⟨q, root, hq, hroot, hclosed⟩
  · obtain ⟨root, hroot, -, hclosed⟩ := hcollection { object := lentRequest } q hq
    exact ⟨q, root, hq, hroot, hclosed⟩
  · obtain ⟨root, hroot, -, hclosed⟩ := hbatch loansRequest b hb
    exact ⟨b, root, hb, hroot, hclosed⟩

end LateralSql
