/-
  What the select of a node is made of.

  A node selects columns of its own table, and those that tell its rows from none (`Selected`).
  It joins the selects of its to-one objects and of its aggregates (`Joined`), and nothing else.
  `node_run` and `batchSelect_run` take the runs of a node and of a batch apart.
-/
import LateralSql.Proofs.Additions

namespace LateralSql

open Sql (col)

/-! ## Columns -/

/-- What a node read as `name` selects: columns of its own, perhaps with a new label of their
    reference system, and the given columns, by which a related row is told from none. -/
inductive Selected (name : String) (related : List Sql.Column) : Sql.Expr → Prop
  | column (column : String) : Selected name related (.column (col name column))
  | relabelled (column : String) (v : Value) :
      Selected name related (.call "ST_SetSRID" [.column (col name column), .param v])
  | related {c : Sql.Column} : c ∈ related → Selected name related (.column c)

/-- A geometry is put out as one of its columns, under its own label or another. -/
theorem selected_of_geometryOutput {c : Compiler} {name : String} {f : ScalarField}
    {srid : Option Srid} {e : Sql.Expr} {related : List Sql.Column}
    (h : geometryOutput c name f srid = .ok e) : Selected name related e := by
  have hsuffixed {srid : Srid} {column : Sql.Column}
      (h : suffixedColumn? c name f srid = some column) : ∃ x, column = col name x := by
    obtain ⟨suffix, -, rfl⟩ := Option.map_eq_some_iff.1 h
    exact ⟨_, rfl⟩
  unfold geometryOutput at h
  split at h
  · obtain rfl := pure_ok.1 h
    exact .column _
  split at h
  · exact (throw_ok.1 h).elim
  split_ifs at h
  · obtain rfl := pure_ok.1 h
    exact .column _
  split at h
  · next column hcolumn =>
    obtain rfl := pure_ok.1 h
    obtain ⟨x, rfl⟩ := hsuffixed hcolumn
    exact .column x
  · simp only at h
    split at h
    · next column hsource =>
      obtain rfl := pure_ok.1 h
      obtain ⟨equivalent, -, hcolumn⟩ := Option.bind_eq_some_iff.1 hsource
      split_ifs at hcolumn
      · obtain rfl := Option.some.inj hcolumn
        exact .relabelled _ _
      · obtain ⟨x, rfl⟩ := hsuffixed hcolumn
        exact .relabelled x _
    · exact (throw_ok.1 h).elim

/-! ## Joins -/

/-- What is joined to the rows that are read as `name`: the query of a to-one object, whose request
    is smaller than `bound`; aggregates that share a select; an aggregate over the elements of a
    list. -/
inductive Joined (c : Compiler) (name : String) (bound : Nat) :
    Names → Sql.Select → Names → Prop
  | object {link : Link} {request : ObjectRequest} {n n' : Names} {child : Node} :
      sizeOf request < bound → node c (some ⟨link, name, false⟩) request n = .ok (child, n') →
      Joined c name bound n child.select.first n'
  | shared {link : Link} {filters : List Filter} {as : List SourcedAggregate} {source : String}
      {correlation : Correlation} {condition : Sql.Cond} {results : List (Sql.Expr × String)}
      {n n₁ n₂ n₃ n' : Names} :
      as ≠ [] → freshTable n = .ok (source, n₁) →
      link.correlate c name source n₁ = .ok (correlation, n₂) →
      conjunction c ⟨link.child, source⟩ filters n₂ = .ok (condition, n₃) →
      sharedResults source as n₃ = .ok (results, n') →
      Joined c name bound n {
        tables := [(c.table link.child.table).as source]
        columns := results.map (·.1)
        joins := correlation.joins
        condition := correlation.condition.both condition } n'
  | unnested {link : Link} {filters : List Filter} {a : Aggregate} {f : ScalarField}
      {source elements element result : String} {correlation : Correlation} {condition : Sql.Cond}
      {e : Sql.Expr} {n n₁ n₂ n₃ n₄ n₅ n' : Names} :
      freshTable n = .ok (source, n₁) →
      link.correlate c name source n₁ = .ok (correlation, n₂) →
      conjunction c ⟨link.child, source⟩ filters n₂ = .ok (condition, n₃) →
      freshTable n₃ = .ok (elements, n₄) → freshColumn n₄ = .ok (element, n₅) →
      freshColumn n₅ = .ok (result, n') → a.expr (some (f, col elements element)) = .ok e →
      Joined c name bound n {
        tables := [(c.table link.child.table).as source]
        columns := [e.as result]
        joins := correlation.joins ++ [{
          kind := .inner
          table := {
            source := .expr (.unnest (.column (col source f.column)))
            name := some elements
            columns := [element] }
          on := .always
          lateral := true }]
        condition := correlation.condition.both condition } n'

/-- The results of aggregates are the columns of their select. -/
theorem sharedResults_run {source : String} {as : List SourcedAggregate} {n n' : Names}
    {rs : List (Sql.Expr × String)} (h : sharedResults source as n = .ok (rs, n')) :
    n ≤ n' ∧ NewColumns n n' (rs.map (·.2)) ∧
      ∀ joined, (rs.map (·.1)).flatMap (Sql.Expr.outputs joined) = rs.map (·.2) := by
  induction as generalizing n rs with
  | nil =>
    obtain ⟨rfl, rfl⟩ := pure_run.1 h
    exact ⟨le_rfl, .nil _ _ _, fun _ => rfl⟩
  | cons a as ih =>
    unfold sharedResults at h
    obtain ⟨name, n₁, hfresh, h⟩ := bind_run.1 h
    obtain ⟨e, n₂, he, h⟩ := bind_run.1 h
    obtain ⟨rest, n₃, hrest, h⟩ := bind_run.1 h
    obtain ⟨rfl, rfl⟩ := pure_run.1 h
    obtain ⟨-, rfl⟩ := lift_run.1 he
    obtain ⟨hle, hnew, houtputs⟩ := ih hrest
    have hle₁ : n ≤ n₁ := Grows.freshColumn hfresh
    refine ⟨hle₁.trans hle, (newColumns_of_freshColumn hfresh).append hnew hle₁ hle,
      fun joined => ?_⟩
    rw [List.map_cons, List.flatMap_cons, houtputs]
    rfl

theorem aggregateSelect_run {c : Compiler} {l : Link} {parent : String} {filters : List Filter}
    {n n' : Names} {s : AggregateSelect} (h : aggregateSelect c l parent filters n = .ok (s, n')) :
    ∃ n₁ n₂ n₃ correlation condition, freshTable n = .ok (s.wrapper, n₁) ∧
      freshTable n₁ = .ok (s.source, n₂) ∧
      l.correlate c parent s.source n₂ = .ok (correlation, n₃) ∧
      conjunction c ⟨l.child, s.source⟩ filters n₃ = .ok (condition, n') ∧
      s.select = {
        tables := [(c.table l.child.table).as s.source]
        joins := correlation.joins
        condition := correlation.condition.both condition } := by
  unfold aggregateSelect at h
  obtain ⟨wrapper, n₁, hfresh, h⟩ := bind_run.1 h
  obtain ⟨source, n₂, hsource, h⟩ := bind_run.1 h
  obtain ⟨correlation, n₃, hcorrelate, h⟩ := bind_run.1 h
  obtain ⟨condition, n₄, hcondition, h⟩ := bind_run.1 h
  obtain ⟨rfl, rfl⟩ := pure_run.1 h
  exact ⟨n₁, n₂, n₃, correlation, condition, hfresh, hsource, hcorrelate, hcondition, rfl⟩

/-- A merged list has no elements but those of the two. -/
theorem unsplit_subset {α β : Type} {p : α → Bool} {as : List α} {yes no : List β} :
    unsplit p as yes no ⊆ yes ++ no := by
  fun_induction unsplit p as yes no with
  | case1 => exact List.nil_subset _
  | case2 a as _ y yes no ih => grind
  | case3 a as _ yes n no ih => grind
  | case4 => exact List.nil_subset _

/-! ## Steps -/

namespace Extends

variable {c : Compiler} {bound : Nat} {related : List Sql.Column}

/-- A field is selected as it is put out. -/
theorem selectField_of {Sel : Sql.Expr → Prop} {Lat : Names → Sql.Select → Names → Prop}
    {c : Compiler} {s : Scope} {f : SelectedField}
    (hSel : ∀ field e, s.entity.field f.name = .ok (.scalar field) →
      geometryOutput c s.name field f.srid = .ok e → Sel e) :
    Extends Sel Lat [] (selectField c s f) fun p => [p.2] := by
  refine model_bind fun field hfield => ?_
  cases field with
  | object _ => exact throw
  | scalar field =>
    refine lift_bind fun e he => ?_
    have hselected : Sel e := hSel field e hfield he
    cases e with
    | column column =>
      exact (selectColumn hselected).bind fun _ => pure (List.subset_append_right _ _)
    | _ => exact (selectExpr hselected).bind fun _ => pure (List.subset_append_right _ _)

theorem selectField (c : Compiler) (s : Scope) (f : SelectedField)
    {Lat : Names → Sql.Select → Names → Prop} :
    Extends (Selected s.name related) Lat [] (selectField c s f) fun p => [p.2] :=
  selectField_of fun _ _ _ he => selected_of_geometryOutput he

/-- The column of a key field is one that is selected, or is selected now. -/
theorem selectKey_of {Sel : Sql.Expr → Prop} {Lat : Names → Sql.Select → Names → Prop} {s : Scope}
    {selected : List (SelectedField × String)}
    (hSel : ∀ f fs, selectedKey? s.entity selected = none → s.entity.keyFields = .ok (f :: fs) →
      Sel (.column (s.column f))) :
    Extends Sel Lat (selected.map (·.2)) (selectKey s selected) (·.toList) := by
  unfold LateralSql.selectKey
  cases hkey : selectedKey? s.entity selected with
  | some name =>
    obtain ⟨p, hp, rfl⟩ := Option.map_eq_some_iff.1 hkey
    refine pure fun x hx => ?_
    obtain rfl := List.mem_singleton.1 hx
    exact List.mem_map_of_mem (List.mem_of_find?_eq_some hp)
  | none =>
    refine model_bind fun fields hfields => ?_
    cases fields with
    | nil => exact pure (List.nil_subset _)
    | cons f fs =>
      exact ((selectColumn (hSel f fs hkey hfields)).weaken (List.nil_subset _)).bind fun _ =>
        pure (List.subset_append_right _ _)

theorem selectKey (s : Scope) (selected : List (SelectedField × String))
    {Lat : Names → Sql.Select → Names → Prop} :
    Extends (Selected s.name related) Lat (selected.map (·.2)) (selectKey s selected)
      (·.toList) :=
  selectKey_of fun _ _ _ _ => .column _

theorem selectJoinKey (c : Compiler) (s : Scope) (f : ObjectField) (label : String)
    {Lat : Names → Sql.Select → Names → Prop} :
    Extends (Selected s.name related) Lat [] (selectJoinKey c s f label) (·.2.reads) := by
  refine lift_bind fun link _ => ?_
  have hcolumn (column : String) :
      Extends (Selected s.name related) Lat []
        (return (column, ← LateralSql.selectColumn (col s.name column)))
        fun p : String × String => [p.2] :=
    (selectColumn (.column column)).bind fun _ => pure (List.subset_append_right _ _)
  exact (mapM_single fun column _ => hcolumn column).bind fun columns =>
    pure (List.subset_append_right _ _)

theorem selectOrder (s : Scope) (k : SortKey) {Lat : Names → Sql.Select → Names → Prop} :
    Extends (Selected s.name related) Lat [] (selectOrder s k) fun _ => [] :=
  model_bind fun _ _ => (selectColumn (.column _)).bind fun _ => pure (List.nil_subset _)

theorem selectExists (name : String) (parent : Option Parent)
    {Lat : Names → Sql.Select → Names → Prop} :
    Extends (Selected name related) Lat [] (selectExists parent related) fun names => names := by
  unfold LateralSql.selectExists
  cases parent with
  | none => exact pure (List.Subset.refl _)
  | some p =>
    dsimp only
    split
    · have hcolumns : Extends (Selected name related) Lat []
          (related.mapM LateralSql.selectColumn) (·.map id) :=
        mapM_single fun column hcolumn => selectColumn (.related hcolumn)
      simpa only [List.map_id] using hcolumns
    · exact pure (List.Subset.refl _)

theorem selectRelated (name : String) (checkNull : Option String)
    {Lat : Names → Sql.Select → Names → Prop} :
    Extends (Selected name related) Lat checkNull.toList (selectRelated checkNull related)
      (·.toList) := by
  unfold LateralSql.selectRelated
  split
  · next column rest =>
    exact ((selectColumn (.related List.mem_cons_self)).weaken (List.nil_subset _)).bind fun _ =>
      pure (List.subset_append_right _ _)
  · exact pure (List.Subset.refl _)

/-! ### Aggregates -/

/-- A select that has been joined is read by its columns. -/
theorem joinLateral {Sel : Sql.Expr → Prop} {Lat : Names → Sql.Select → Names → Prop}
    {n n₁ n' : Names} {d : Draft} {s : Sql.Select} {wrapper : String}
    (hfresh : freshTable n = .ok (wrapper, n₁)) (hle : n₁ ≤ n') (hs : Lat n₁ s n')
    {reads : List String} (hreads : reads ⊆ s.outputs) :
    ∃ e, d.withLateral s wrapper = d ++ e ∧ Added Sel Lat n e n' ∧
      ∀ y ∈ reads, y ∈ ([] : List String) ∨ y ∈ d.named ∨ y ∈ e.outputs := by
  refine ⟨_, d.withLateral_eq s wrapper, .lateral hfresh hle hs, fun y hy => .inr (.inr ?_)⟩
  rw [Draft.outputs_withLateral]
  exact hreads hy

theorem selectShared (c : Compiler) (l : Link) (name : String) (filters : List Filter)
    (as : List SourcedAggregate) {Sel : Sql.Expr → Prop} :
    Extends Sel (Joined c name bound) [] (selectShared c l name filters as) fun names => names := by
  unfold LateralSql.selectShared
  split
  · exact pure (List.nil_subset _)
  · next hempty =>
    intro d n names d' n' hrun
    obtain ⟨s, _, n₂, hs, hrun⟩ := draft_bind_run.1 hrun
    obtain ⟨results, _, n₃, hresults, hrun⟩ := draft_bind_run.1 hrun
    obtain ⟨_, _, n₄, hjoin, hrun⟩ := draft_bind_run.1 hrun
    obtain ⟨rfl, rfl, rfl⟩ := draft_pure_run.1 hrun
    obtain ⟨rfl, rfl⟩ := joinLateral_run.1 hjoin
    obtain ⟨hselect, rfl⟩ := draft_compile_run.1 hs
    obtain ⟨hshared, rfl⟩ := draft_compile_run.1 hresults
    obtain ⟨n₅, n₆, n₇, correlation, condition, hwrapper, hsource, hcorrelate, hcondition, heq⟩ :=
      aggregateSelect_run hselect
    obtain ⟨hle, -, houtputs⟩ := sharedResults_run hshared
    rw [heq]
    refine joinLateral hwrapper ?_
      (.shared (by simpa using hempty) hsource hcorrelate hcondition hshared) ?_
    · exact (((Grows.freshTable hsource).trans (Grows.correlate c l _ _ hcorrelate)).trans
        (Grows.conjunction c _ _ hcondition)).trans hle
    · rw [Sql.Select.outputs_eq, houtputs]
      exact List.Subset.refl _

theorem selectUnnested (c : Compiler) (l : Link) (name : String) (filters : List Filter)
    {a : SourcedAggregate} (ha : a.isUnnested = true) {Sel : Sql.Expr → Prop} :
    Extends Sel (Joined c name bound) [] (selectUnnested c l name filters a)
      fun name => [name] := by
  obtain ⟨a, _ | f⟩ := a
  · cases ha
  intro d n result d' n' hrun
  obtain ⟨s, _, n₂, hs, hrun⟩ := draft_bind_run.1 hrun
  obtain ⟨elements, _, n₃, helements, hrun⟩ := draft_bind_run.1 hrun
  obtain ⟨element, _, n₄, helement, hrun⟩ := draft_bind_run.1 hrun
  obtain ⟨_, _, n₅, hname, hrun⟩ := draft_bind_run.1 hrun
  obtain ⟨e, _, n₆, he, hrun⟩ := draft_bind_run.1 hrun
  obtain ⟨_, _, n₇, hjoin, hrun⟩ := draft_bind_run.1 hrun
  obtain ⟨rfl, rfl, rfl⟩ := draft_pure_run.1 hrun
  obtain ⟨rfl, rfl⟩ := joinLateral_run.1 hjoin
  obtain ⟨hexpr, rfl, rfl⟩ := draft_lift_run.1 he
  obtain ⟨hfresh₃, rfl⟩ := draft_compile_run.1 hname
  obtain ⟨hfresh₂, rfl⟩ := draft_compile_run.1 helement
  obtain ⟨hfresh₁, rfl⟩ := draft_compile_run.1 helements
  obtain ⟨hselect, rfl⟩ := draft_compile_run.1 hs
  obtain ⟨n₈, n₉, n₁₀, correlation, condition, hwrapper, hsource, hcorrelate, hcondition, heq⟩ :=
    aggregateSelect_run hselect
  rw [heq]
  refine joinLateral hwrapper ?_
    (.unnested hsource hcorrelate hcondition hfresh₁ hfresh₂ hfresh₃ hexpr) ?_
  · exact (((((Grows.freshTable hsource).trans (Grows.correlate c l _ _ hcorrelate)).trans
      (Grows.conjunction c _ _ hcondition)).trans (Grows.freshTable hfresh₁)).trans
      (Grows.freshColumn hfresh₂)).trans (Grows.freshColumn hfresh₃)
  · rw [Sql.Select.outputs_eq]
    exact List.Subset.refl _

theorem selectAggregates (c : Compiler) (s : Scope) (r : AggregateRequest) {Sel : Sql.Expr → Prop} :
    Extends Sel (Joined c s.name bound) [] (selectAggregates c s r) (·.2.reads) := by
  refine model_bind fun f _ => lift_bind fun link _ => model_bind fun sourced _ =>
    (selectShared c link s.name r.filters _).bind fun shared => ?_
  have hunnested : Extends Sel (Joined c s.name bound) []
      ((sourced.filter (·.isUnnested)).mapM (LateralSql.selectUnnested c link s.name r.filters))
      (·.map id) :=
    mapM_single fun a ha => selectUnnested c link s.name r.filters (List.mem_filter.1 ha).2
  refine (hunnested.weaken (List.nil_subset _)).bind fun unnested => pure ?_
  rw [FieldReader.reads, Assembler.reads, Option.toList_none, List.nil_append]
  refine List.Subset.trans (fieldReads_zip_columns _ _) (List.Subset.trans unsplit_subset ?_)
  rw [List.map_id]
  refine List.append_subset.2 ⟨List.subset_append_right _ _, ?_⟩
  exact List.Subset.trans (List.subset_append_right _ _) (List.subset_append_left _ _)

end Extends

/-! ### Objects -/

/-- The node has been named between `n` and `n'` and yields all that is read of it. -/
structure Node.Sound (node : Node) (n n' : Names) : Prop where
  le : n ≤ n'
  outputs : NewColumns n n' node.select.outputs
  reads : node.assembler.reads ⊆ node.select.outputs
  existsColumns : node.existsColumns ⊆ node.select.outputs

theorem Node.Sound.mono {lo n n' : Names} {node : Node} (h : node.Sound n n') (hle : lo ≤ n) :
    node.Sound lo n' :=
  ⟨hle.trans h.le, h.outputs.mono hle.2 le_rfl, h.reads, h.existsColumns⟩

/-- The queries of a request yield all that is read of them. -/
def SoundNodes (c : Compiler) (request : ObjectRequest) : Prop :=
  ∀ ⦃parent n child n'⦄, node c parent request n = .ok (child, n') → child.Sound n n'

mutual

theorem objectReaders_extends {c : Compiler} {bound : Nat} {related : List Sql.Column}
    (hnode : ∀ r, sizeOf r < bound → SoundNodes c r) :
    ∀ (os : List ObjectFieldRequest) (s : Scope), sizeOf os < bound →
      Extends (Selected s.name related) (Joined c s.name bound) [] (objectReaders c s os) fieldReads
  | [], s, _ => by
    rw [objectReaders]
    exact .pure (List.Subset.refl _)
  | o :: rest, s, hsize => by
    rw [List.cons.sizeOf_spec] at hsize
    rw [objectReaders]
    refine (objectReader_extends hnode o s (by omega)).bind fun f =>
      ((objectReaders_extends hnode rest s (by omega)).weaken (List.nil_subset _)).bind fun fs =>
        .pure ?_
    exact List.Subset.refl _
termination_by structural os => os

theorem objectReader_extends {c : Compiler} {bound : Nat} {related : List Sql.Column}
    (hnode : ∀ r, sizeOf r < bound → SoundNodes c r) :
    ∀ (o : ObjectFieldRequest) (s : Scope), sizeOf o < bound →
      Extends (Selected s.name related) (Joined c s.name bound) [] (objectReader c s o) (·.2.reads)
  | ⟨field, label, request⟩, s, hsize => by
    rw [ObjectFieldRequest.mk.sizeOf_spec] at hsize
    have hrequest : sizeOf request < bound := by omega
    rw [objectReader]
    refine .model_bind fun f _ => ?_
    split_ifs with htarget hembedded hcriteria hlist
    · exact .throw
    · exact .throw
    · exact .model_bind fun target _ =>
        (embeddedReaders_extends hnode request ⟨target, s.name⟩ hrequest).bind fun fields =>
          .pure (List.subset_append_right _ _)
    · exact .selectJoinKey c s f label
    · intro d n reader d' n' hrun
      obtain ⟨wrapper, _, n₁, hwrapper, hrun⟩ := draft_bind_run.1 hrun
      obtain ⟨link, _, n₂, hlink, hrun⟩ := draft_bind_run.1 hrun
      obtain ⟨child, _, n₃, hchild, hrun⟩ := draft_bind_run.1 hrun
      obtain ⟨_, _, n₄, hjoin, hend⟩ := draft_bind_run.1 hrun
      obtain ⟨rfl, rfl, rfl⟩ := draft_pure_run.1 hend
      obtain ⟨rfl, rfl⟩ := joinLateral_run.1 hjoin
      obtain ⟨hchildRun, rfl⟩ := draft_compile_run.1 hchild
      obtain ⟨-, rfl, rfl⟩ := draft_lift_run.1 hlink
      obtain ⟨hfresh, rfl⟩ := draft_compile_run.1 hwrapper
      have hsound := hnode request hrequest hchildRun
      refine Extends.joinLateral hfresh hsound.le (.object hrequest hchildRun) ?_
      rw [Sql.Select.outputs_first]
      exact hsound.reads
termination_by structural o => o

theorem embeddedReaders_extends {c : Compiler} {bound : Nat} {related : List Sql.Column}
    (hnode : ∀ r, sizeOf r < bound → SoundNodes c r) :
    ∀ (r : ObjectRequest) (s : Scope), sizeOf r < bound →
      Extends (Selected s.name related) (Joined c s.name bound) [] (embeddedReaders c s r)
        fieldReads
  | ⟨entity, selected, objects, aggregates, filters, sort, paging, keys, context⟩, s, hsize => by
    rw [ObjectRequest.mk.sizeOf_spec] at hsize
    rw [embeddedReaders]
    refine (Extends.mapM_single fun f _ => .selectField c s f).bind fun selected =>
      ((objectReaders_extends hnode objects s (by omega)).weaken (List.nil_subset _)).bind
        fun objects =>
      ((Extends.mapM fun a _ => .selectAggregates c s a).weaken (List.nil_subset _)).bind
        fun aggregates => .pure ?_
    rw [fieldReads_append, fieldReads_append, fieldReads_columnReaders, fieldReads_eq aggregates]
    exact List.Subset.refl _
termination_by structural r => r

end

/-! ## Runs of an object -/

/-- The key of a to-many object has the parent's columns of its link. -/
theorem selectJoinKey_run {c : Compiler} {s : Scope} {f : ObjectField} {label : String}
    {d d' : Draft} {n n' : Names} {reader : String × FieldReader}
    (h : selectJoinKey c s f label d n = .ok ((reader, d'), n')) :
    ∃ link columns, Link.resolve c.schema s.entity f = .ok link ∧
      columns.map (·.1) = link.parentColumns ∧ reader = (joinLabel label, .joinKey columns) := by
  unfold selectJoinKey at h
  obtain ⟨link, _, n₁, hlink, h⟩ := draft_bind_run.1 h
  obtain ⟨columns, _, n₂, hcolumns, h⟩ := draft_bind_run.1 h
  obtain ⟨rfl, -⟩ := draft_pure_run.1 h
  have hnames : columns.map (·.1) = link.parentColumns.map id := by
    refine draft_mapM_map (fun column _ d n p d' n' hp => ?_) hcolumns
    obtain ⟨name, _, _, -, hp⟩ := draft_bind_run.1 hp
    obtain ⟨rfl, -⟩ := draft_pure_run.1 hp
    rfl
  rw [List.map_id] at hnames
  exact ⟨link, columns, (draft_lift_run.1 hlink).1, hnames, rfl⟩

/-- A successful run of `objectReader` on a request for the field `f`: the object is embedded, or
    many objects are related and there is their key, or one is and its query is joined. -/
inductive ObjectRun (c : Compiler) (s : Scope) (o : ObjectFieldRequest) (f : ObjectField)
    (d : Draft) (n : Names) : String × FieldReader → Draft → Names → Prop
  | embedded {target : Entity} {fields : List (String × FieldReader)} {d' : Draft} {n' : Names} :
      f.isEmbedded = true → c.schema.entity o.request.entity = .ok target →
      embeddedReaders c ⟨target, s.name⟩ o.request d n = .ok ((fields, d'), n') →
      ObjectRun c s o f d n (o.label, .object { fields }) d' n'
  | toMany {reader : String × FieldReader} {d' : Draft} {n' : Names} :
      f.isEmbedded = false → f.isList = true →
      selectJoinKey c s f o.label d n = .ok ((reader, d'), n') →
      ObjectRun c s o f d n reader d' n'
  | toOne {wrapper : String} {link : Link} {child : Node} {n₁ n' : Names} :
      f.isEmbedded = false → f.isList = false → freshTable n = .ok (wrapper, n₁) →
      Link.resolve c.schema s.entity f = .ok link →
      node c (some ⟨link, s.name, false⟩) o.request n₁ = .ok (child, n') →
      ObjectRun c s o f d n (o.label, .object child.assembler)
        (d.withLateral child.select.first wrapper) n'

theorem objectReader_run {c : Compiler} {s : Scope} {o : ObjectFieldRequest} {d d' : Draft}
    {n n' : Names} {reader : String × FieldReader}
    (h : objectReader c s o d n = .ok ((reader, d'), n')) :
    ∃ f, s.entity.objectField o.field = .ok f ∧ o.request.entity = f.target ∧
      ObjectRun c s o f d n reader d' n' := by
  obtain ⟨name, label, request⟩ := o
  rw [objectReader] at h
  obtain ⟨f, _, n₁, hfield, h⟩ := draft_bind_run.1 h
  obtain ⟨hf, rfl, rfl⟩ := draft_lift_model_run.1 hfield
  split_ifs at h with htarget hembedded hcriteria hlist
  · exact (draft_throw_run.1 h).elim
  · exact (draft_throw_run.1 h).elim
  · refine ⟨f, hf, Decidable.not_not.1 htarget, ?_⟩
    obtain ⟨target, _, n₂, hlookup, h⟩ := draft_bind_run.1 h
    obtain ⟨hentity, rfl, rfl⟩ := draft_lift_model_run.1 hlookup
    obtain ⟨fields, d₁, n₃, hfields, h⟩ := draft_bind_run.1 h
    obtain ⟨rfl, rfl, rfl⟩ := draft_pure_run.1 h
    rw [← Decidable.not_not.1 htarget] at hentity
    exact .embedded hembedded hentity hfields
  · exact ⟨f, hf, Decidable.not_not.1 htarget, .toMany (by simpa using hembedded) hlist h⟩
  · refine ⟨f, hf, Decidable.not_not.1 htarget, ?_⟩
    obtain ⟨wrapper, _, n₂, hwrapper, h⟩ := draft_bind_run.1 h
    obtain ⟨hfresh, rfl⟩ := draft_compile_run.1 hwrapper
    obtain ⟨link, _, n₃, hlink, h⟩ := draft_bind_run.1 h
    obtain ⟨hresolve, rfl, rfl⟩ := draft_lift_run.1 hlink
    obtain ⟨child, _, n₄, hchild, h⟩ := draft_bind_run.1 h
    obtain ⟨hnode, rfl⟩ := draft_compile_run.1 hchild
    obtain ⟨_, _, n₅, hjoin, h⟩ := draft_bind_run.1 h
    obtain ⟨rfl, rfl⟩ := joinLateral_run.1 hjoin
    obtain ⟨rfl, rfl, rfl⟩ := draft_pure_run.1 h
    exact .toOne (by simpa using hembedded) (by simpa using hlist) hfresh hresolve hnode

/-! ## Runs of a node -/

/-- A successful run of `node`, step by step: the names handed out and the draft after each step,
    and what the step gives. -/
structure NodeRun (c : Compiler) (parent : Option Parent) (r : ObjectRequest) (n n' : Names) where
  entity : Entity
  name : String
  correlation : Correlation
  selected : List (SelectedField × String)
  key : Option String
  objects : List (String × FieldReader)
  aggregates : List (String × FieldReader)
  order : List Sql.SortTerm
  filters : Sql.Cond
  keys : KeyCriteria
  existsColumns : List String
  checkNull : Option String
  /-- The names after each step. -/
  (n₁ n₂ n₃ n₄ n₅ n₆ n₇ n₈ n₉ n₁₀ : Names)
  /-- The draft after each step that adds to it. -/
  (d₁ d₂ d₃ d₄ d₅ d₆ draft : Draft)
  entity_run : c.schema.entity r.entity = .ok entity
  name_run : freshTable n = .ok (name, n₁)
  correlation_run : correlateParent c parent name n₁ = .ok (correlation, n₂)
  selected_run : r.selected.mapM (selectField c ⟨entity, name⟩) {} n₂ = .ok ((selected, d₁), n₃)
  key_run : selectKey ⟨entity, name⟩ selected d₁ n₃ = .ok ((key, d₂), n₄)
  objects_run : objectReaders c ⟨entity, name⟩ r.objects d₂ n₄ = .ok ((objects, d₃), n₅)
  aggregates_run :
    r.aggregates.mapM (selectAggregates c ⟨entity, name⟩) d₃ n₅ = .ok ((aggregates, d₄), n₆)
  order_run : r.sort.mapM (selectOrder ⟨entity, name⟩) d₄ n₆ = .ok ((order, d₅), n₇)
  filters_run : conjunction c ⟨entity, name⟩ r.filters n₇ = .ok (filters, n₈)
  keys_run : keyCriteria ⟨entity, name⟩ r.keys n₈ = .ok (keys, n₉)
  exists_run :
    selectExists parent correlation.existsColumns d₅ n₉ = .ok ((existsColumns, d₆), n₁₀)
  related_run :
    selectRelated key correlation.existsColumns d₆ n₁₀ = .ok ((checkNull, draft), n')
  columns_ne : draft.columns ≠ []

/-- What the run gives. -/
def NodeRun.node {c : Compiler} {parent : Option Parent} {r : ObjectRequest} {n n' : Names}
    (run : NodeRun c parent r n n') : Node where
  select := {
    tables := [(c.entityTable run.entity r.context).as run.name]
    columns := run.draft.columns
    joins := run.correlation.joins ++ run.keys.joins ++ run.draft.joins
    condition := (run.correlation.condition.both run.filters).both run.keys.condition
    order := run.order
    limit := (r.paging.bind (·.limit)).map Sql.RowLimit.atMost
    offset := (r.paging.bind (·.offset)).map Sql.RowLimit.atMost }
  assembler := {
    fields := columnReaders run.selected ++ run.objects ++ run.aggregates
    checkNull := run.checkNull }
  existsColumns := run.existsColumns

theorem node_run {c : Compiler} {parent : Option Parent} {r : ObjectRequest} {n n' : Names}
    {nd : Node} (h : node c parent r n = .ok (nd, n')) :
    ∃ run : NodeRun c parent r n n', run.node = nd := by
  obtain ⟨entity, selected, objects, aggregates, filters, sort, paging, keys, context⟩ := r
  rw [node] at h
  obtain ⟨e, _, hentity, h⟩ := bind_run.1 h
  obtain ⟨hentity', rfl⟩ := lift_model_run.1 hentity
  obtain ⟨name, n₁, hname, h⟩ := bind_run.1 h
  obtain ⟨correlation, n₂, hcorrelate, h⟩ := bind_run.1 h
  obtain ⟨d', h⟩ := run'_run.1 h
  obtain ⟨columns, d₁, n₃, hselected, h⟩ := draft_bind_run.1 h
  obtain ⟨key, d₂, n₄, hkey, h⟩ := draft_bind_run.1 h
  obtain ⟨objects, d₃, n₅, hobjects, h⟩ := draft_bind_run.1 h
  obtain ⟨aggregates, d₄, n₆, haggregates, h⟩ := draft_bind_run.1 h
  unfold finish at h
  obtain ⟨order, d₅, n₇, horder, h⟩ := draft_bind_run.1 h
  obtain ⟨filters, _, n₈, hfilters, h⟩ := draft_bind_run.1 h
  obtain ⟨hfilters', rfl⟩ := draft_compile_run.1 hfilters
  obtain ⟨keys, _, n₉, hkeys, h⟩ := draft_bind_run.1 h
  obtain ⟨hkeys', rfl⟩ := draft_compile_run.1 hkeys
  obtain ⟨existsColumns, d₆, n₁₀, hexists, h⟩ := draft_bind_run.1 h
  obtain ⟨checkNull, draft, n₁₁, hrelated, h⟩ := draft_bind_run.1 h
  obtain ⟨_, _, _, hget, hend⟩ := draft_bind_run.1 h
  obtain ⟨rfl, rfl, rfl⟩ := draft_get_run.1 hget
  split_ifs at hend with hempty
  · exact (draft_throw_run.1 hend).elim
  obtain ⟨rfl, rfl, rfl⟩ := draft_pure_run.1 hend
  exact ⟨⟨e, name, correlation, columns, key, objects, aggregates, order, filters, keys,
    existsColumns, checkNull, n₁, n₂, n₃, n₄, n₅, n₆, n₇, n₈, n₉, n₁₀, d₁, d₂, d₃, d₄, d₅, d₆,
    draft, hentity', hname, hcorrelate, hselected, hkey, hobjects, haggregates, horder, hfilters',
    hkeys', hexists, hrelated, by simpa using hempty⟩, rfl⟩

namespace NodeRun

variable {c : Compiler} {parent : Option Parent} {r : ObjectRequest} {n n' : Names}

/-- What a node selects and joins for its fields and its order. -/
theorem fields (run : NodeRun c parent r n n')
    (hnode : ∀ r', sizeOf r' < sizeOf r → SoundNodes c r') :
    Added (Selected run.name run.correlation.existsColumns) (Joined c run.name (sizeOf r))
        run.n₂ run.d₅ run.n₇ ∧
      run.key.toList ⊆ run.d₅.outputs ∧
      fieldReads (columnReaders run.selected ++ run.objects ++ run.aggregates) ⊆
        run.d₅.outputs := by
  have hsize : sizeOf r.objects < sizeOf r := by
    cases r
    rw [ObjectRequest.mk.sizeOf_spec]
    dsimp only
    omega
  obtain ⟨hd₁, -, hselected⟩ := (Extends.mapM_single fun f _ => .selectField c _ f).from_start
    run.selected_run (.nothing le_rfl) (List.nil_subset _)
  obtain ⟨hd₂, hsub₂, hkey⟩ := (Extends.selectKey _ _).from_start run.key_run hd₁ hselected
  obtain ⟨hd₃, hsub₃, hobjects⟩ := (objectReaders_extends hnode r.objects _ hsize).from_start
    run.objects_run hd₂ (List.nil_subset _)
  obtain ⟨hd₄, hsub₄, haggregates⟩ := (Extends.mapM fun a _ => .selectAggregates c _ a).from_start
    run.aggregates_run hd₃ (List.nil_subset _)
  obtain ⟨hd₅, hsub₅, -⟩ := (Extends.mapM fun k _ => .selectOrder _ k).from_start
    run.order_run hd₄ (List.nil_subset _)
  have hsub₃₅ : run.d₃.outputs ⊆ run.d₅.outputs := List.Subset.trans hsub₄ hsub₅
  have hsub₂₅ : run.d₂.outputs ⊆ run.d₅.outputs := List.Subset.trans hsub₃ hsub₃₅
  refine ⟨hd₅, List.Subset.trans hkey hsub₂₅, ?_⟩
  rw [fieldReads_append, fieldReads_append, fieldReads_columnReaders, fieldReads_eq run.aggregates]
  refine List.append_subset.2 ⟨List.append_subset.2 ⟨?_, ?_⟩, ?_⟩
  · exact List.Subset.trans hselected (List.Subset.trans hsub₂ hsub₂₅)
  · exact List.Subset.trans hobjects hsub₃₅
  · exact List.Subset.trans haggregates hsub₅

/-- What is selected last, to tell a related row from none. -/
theorem last (run : NodeRun c parent r n n') (Lat : Names → Sql.Select → Names → Prop) :
    ∃ e, run.draft = run.d₅ ++ e ∧
      Added (Selected run.name run.correlation.existsColumns) Lat run.n₉ e n' ∧
      (∀ y ∈ run.existsColumns, y ∈ run.d₅.named ∨ y ∈ e.outputs) ∧
      ∀ y ∈ run.checkNull, y ∈ run.key ∨ y ∈ run.d₅.named ∨ y ∈ e.outputs := by
  obtain ⟨e₁, h₁, hadded₁, hexists⟩ := Extends.selectExists run.name parent run.exists_run
  obtain ⟨e₂, h₂, hadded₂, hnull⟩ := Extends.selectRelated run.name run.key run.related_run
  have hadded : Added (Selected run.name run.correlation.existsColumns) Lat run.n₉ (e₁ ++ e₂) n' :=
    hadded₁.append hadded₂
  have houtputs := hadded₁.outputs_append hadded₂
  refine ⟨e₁ ++ e₂, ?_, hadded, fun y hy => ?_, fun y hy => ?_⟩
  · rw [h₂, h₁, Draft.append_assoc]
  · rw [houtputs, List.mem_append]
    rcases hexists y hy with h | h | h
    · cases h
    · exact .inl h
    · exact .inr (.inl h)
  · rw [houtputs, List.mem_append]
    rcases hnull y (by simpa using hy) with h | h | h
    · exact .inl (by simpa using h)
    · rw [h₁, Draft.named_append, List.mem_append] at h
      rcases h with h | h
      · exact .inr (.inl h)
      · exact .inr (.inr (.inl (e₁.named_subset_outputs h)))
    · exact .inr (.inr (.inr h))

end NodeRun

/-! ## Runs of a batch -/

/-- A successful run of `batchSelect`, step by step. -/
structure BatchRun (c : Compiler) (r : BatchRequest) (n n' : Names) where
  entity : Entity
  field : ObjectField
  link : Link
  name : String
  keyColumns : List (String × String)
  wrapper : String
  child : Node
  (n₁ n₂ n₃ : Names)
  entity_run : c.schema.entity r.entity = .ok entity
  field_run : entity.objectField r.field = .ok field
  link_run : Link.resolve c.schema entity field = .ok link
  names_eq : r.keys.names =
    (sortBy Prod.fst (link.parentColumns.zip link.parentTypes)).map (·.1)
  name_run : freshTable n = .ok (name, n₁)
  keys_run : (r.keys.names.mapM fun key => return (key, ← freshColumn) : Compile _) n₁ =
    .ok (keyColumns, n₂)
  wrapper_run : freshTable n₂ = .ok (wrapper, n₃)
  child_run : node c (some ⟨link, name, true⟩) r.request n₃ = .ok (child, n')

/-- What the run gives. -/
def BatchRun.result {c : Compiler} {r : BatchRequest} {n n' : Names} (run : BatchRun c r n n') :
    BatchSelect where
  select := {
    tables := [keyTable r.keys
      ((sortBy Prod.fst (run.link.parentColumns.zip run.link.parentTypes)).map (·.2)) run.name]
    columns := run.keyColumns.map (fun k => (Sql.Expr.column (col run.name k.1)).as k.2) ++
      [.star (some run.wrapper)]
    joins := [.ofLateral run.child.select run.wrapper]
    condition := .always }
  assembler := run.child.assembler
  grouping := ⟨r.keys.keys, run.keyColumns, run.child.existsColumns⟩

theorem batchSelect_run {c : Compiler} {r : BatchRequest} {b : BatchSelect} {n n' : Names}
    (h : batchSelect c r n = .ok (b, n')) : ∃ run : BatchRun c r n n', run.result = b := by
  unfold batchSelect at h
  obtain ⟨entity, n₁, hentity, h⟩ := bind_run.1 h
  obtain ⟨field, n₂, hfield, h⟩ := bind_run.1 h
  split_ifs at h
  · exact (throw_run.1 h).elim
  obtain ⟨link, n₃, hlink, h⟩ := bind_run.1 h
  split_ifs at h with hnames
  · exact (throw_run.1 h).elim
  obtain ⟨name, n₄, hname, h⟩ := bind_run.1 h
  obtain ⟨keyColumns, n₅, hkeys, h⟩ := bind_run.1 h
  obtain ⟨wrapper, n₆, hwrapper, h⟩ := bind_run.1 h
  obtain ⟨child, n₇, hchild, h⟩ := bind_run.1 h
  obtain ⟨rfl, rfl⟩ := pure_run.1 h
  obtain ⟨hentity', rfl⟩ := lift_model_run.1 hentity
  obtain ⟨hfield', rfl⟩ := lift_model_run.1 hfield
  obtain ⟨hlink', rfl⟩ := lift_run.1 hlink
  exact ⟨⟨entity, field, link, name, keyColumns, wrapper, child, n₄, n₅, n₆, hentity', hfield',
    hlink', not_not.1 hnames, hname, hkeys, hwrapper, hchild⟩, rfl⟩

/-- The link of a batch is that of its field. -/
theorem BatchRun.eq_link {c : Compiler} {r : BatchRequest} {n n' : Names} (run : BatchRun c r n n')
    {e : Entity} (he : c.schema.entity r.entity = .ok e) {f : ObjectField}
    (hf : e.objectField r.field = .ok f) {link : Link}
    (hl : Link.resolve c.schema e f = .ok link) : run.link = link := by
  obtain rfl : run.entity = e := Except.ok.inj (run.entity_run.symm.trans he)
  obtain rfl : run.field = f := Except.ok.inj (run.field_run.symm.trans hf)
  exact Except.ok.inj (run.link_run.symm.trans hl)

end LateralSql
