/-
  Empty paths are refused only where a filter has one.

  A test needs a path to name its field, and the compiler refuses an empty one when it comes to it.
  All its other steps go on or stop at an error of their own (`PathSafe`), so a request whose
  filters have paths, at any depth, is not refused for an empty one (`node_pathSafe`).
-/
import LateralSql.Proofs.Outcomes
import LateralSql.Query.Compiled

namespace LateralSql

/-! ## Paths -/

mutual

/-- Every test of the filter names a field. -/
def Filter.hasPaths : Filter → Bool
  | .test path _ => !path.isEmpty
  | .not f => f.hasPaths
  | .and fs => filtersHavePaths fs
  | .or fs => filtersHavePaths fs
termination_by structural f => f

/-- Every test of the filters names a field. -/
def filtersHavePaths : List Filter → Bool
  | [] => true
  | f :: fs => f.hasPaths && filtersHavePaths fs
termination_by structural fs => fs

end

/-- Every filter of the aggregates names fields. -/
def AggregateRequest.hasPaths (r : AggregateRequest) : Bool := filtersHavePaths r.filters

mutual

/-- Every filter of the request, of its aggregates and of its nested objects names fields. -/
def ObjectRequest.hasPaths : ObjectRequest → Bool
  | ⟨_, _, objects, aggregates, filters, _, _, _, _⟩ =>
    filtersHavePaths filters && aggregates.all AggregateRequest.hasPaths && objectsHavePaths objects
termination_by structural r => r

/-- Every filter of the objects names fields. -/
def objectsHavePaths : List ObjectFieldRequest → Bool
  | [] => true
  | o :: os => o.hasPaths && objectsHavePaths os
termination_by structural os => os

/-- Every filter of the object names fields. -/
def ObjectFieldRequest.hasPaths : ObjectFieldRequest → Bool
  | ⟨_, _, request⟩ => request.hasPaths
termination_by structural o => o

end

/-! ## Results without the error -/

/-- A compilation that does not refuse an empty path. -/
abbrev PathSafe {α : Type} (x : Compile α) : Prop := Outcome (· ≠ .emptyPath) (fun _ => True) x

/-- A compilation with a draft that does not refuse an empty path. -/
abbrev DraftPathSafe {α : Type} (x : Drafting α) : Prop :=
  DraftOutcome (· ≠ .emptyPath) (fun _ => True) (fun _ => True) x

/-- The schema knows no paths. -/
theorem PathSafe.model {α : Type} (x : Except ModelError α) : PathSafe (liftM x) :=
  .lift_model (fun _ => nofun) fun _ _ => trivial

theorem DraftPathSafe.model {α : Type} (x : Except ModelError α) : DraftPathSafe (liftM x) :=
  .compile (PathSafe.model x)

/-! ## Conditions -/

section
variable {c : Compiler}

theorem filtered_ends (s : Scope) (name : String) :
    Ends (· ≠ .emptyPath) (fun _ => True) (s.filtered name) := by
  refine (Ends.lift_model (fun _ => nofun) fun _ _ => trivial).bind fun f _ => ?_
  cases f with
  | scalar f => exact .pure trivial
  | object f => exact .throw nofun

theorem equalsCondition_ends (s : Scope) (f : ScalarField) (v : Value) :
    Ends (· ≠ .emptyPath) (fun _ => True) (equalsCondition s f v) := by
  unfold equalsCondition
  dsimp only
  split_ifs
  · exact .throw nofun
  all_goals exact .pure trivial

theorem rangeCondition_ends (s : Scope) (f : ScalarField) (op : Sql.Comparison) (v : Value) :
    Ends (· ≠ .emptyPath) (fun _ => True) (rangeCondition s f op v) := by
  unfold rangeCondition
  split_ifs
  · exact .throw nofun
  · exact .throw nofun
  · exact .pure trivial

theorem inCondition_ends (s : Scope) (f : ScalarField) (vs : List Value) :
    Ends (· ≠ .emptyPath) (fun _ => True) (inCondition s f vs) := by
  unfold inCondition
  split_ifs
  · exact .throw nofun
  all_goals exact .pure trivial

theorem function_ends (o : SpatialOperator) (strategy : SpatialStrategy) :
    Ends (· ≠ .emptyPath) (fun _ => True) (o.function strategy) := by
  cases o with
  | contains | within | intersects | touches => exact .pure trivial
  | srid | type => exact .throw nofun

theorem literal_ends (t : SpatialTest) (native : Srid) :
    Ends (· ≠ .emptyPath) (fun _ => True) (t.literal native) := by
  unfold SpatialTest.literal
  cases t.geometry with
  | none => exact .throw nofun
  | some input =>
    dsimp only
    cases input.read with
    | error fault => exact .throw nofun
    | ok g =>
      dsimp only
      cases g.text with
      | wkt text => exact .pure trivial
      | geoJson text => exact .pure trivial

theorem directCondition_ends (s : Scope) (f : ScalarField) (info : GeometryInfo)
    (t : SpatialTest) : Ends (· ≠ .emptyPath) (fun _ => True) (directCondition c s f info t) := by
  unfold directCondition
  split_ifs
  · exact .pure trivial
  · refine (function_ends _ _).bind fun function _ => ?_
    exact (literal_ends _ _).bind fun literal _ => .pure trivial

theorem segmentQuery_pathSafe (s : Scope) (g : GeometrySegments) (literal : Sql.Expr)
    (condition : Sql.Expr → Sql.Expr → Sql.Cond) :
    PathSafe (segmentQuery c s g literal condition) := by
  unfold segmentQuery
  refine Outcome.freshTable.bind fun pieces _ => ?_
  refine Outcome.freshTable.bind fun tiles _ => ?_
  refine Outcome.freshTable.bind fun segments _ => ?_
  refine Outcome.freshColumn.bind fun tile _ => ?_
  refine Outcome.freshColumn.bind fun piece _ => ?_
  exact (PathSafe.model _).bind fun owner _ => .pure trivial

theorem segmentedCondition_pathSafe (s : Scope) (info : GeometryInfo) (g : GeometrySegments)
    (t : SpatialTest) : PathSafe (segmentedCondition c s info g t) := by
  unfold segmentedCondition
  refine (Outcome.lift (function_ends _ _)).bind fun function _ => ?_
  refine (Outcome.lift (literal_ends _ _)).bind fun literal _ => ?_
  refine (segmentQuery_pathSafe s g _ _).bind fun overlapping _ => ?_
  split
  · exact .pure trivial
  · exact (segmentQuery_pathSafe s g _ _).bind fun failing _ => .pure trivial

theorem spatialCondition_pathSafe (s : Scope) (f : ScalarField) (t : SpatialTest) :
    PathSafe (spatialCondition c s f t) := by
  unfold spatialCondition
  cases f.geometry with
  | none => exact .throw nofun
  | some info =>
    dsimp only
    cases info.segments with
    | none => exact .lift (directCondition_ends s f info t)
    | some g => exact segmentedCondition_pathSafe s info g t

theorem fieldCondition_pathSafe (s : Scope) (name : String) (t : FieldTest) :
    PathSafe (fieldCondition c s name t) := by
  unfold fieldCondition
  refine (Outcome.lift (filtered_ends s name)).bind fun f _ => ?_
  cases t with
  | equals v => exact .lift (equalsCondition_ends s f v)
  | greater orEqual v | lower orEqual v => exact .lift (rangeCondition_ends s f _ v)
  | isIn vs => exact .lift (inCondition_ends s f vs)
  | spatial t => exact spatialCondition_pathSafe s f t

theorem correlate_pathSafe (l : Link) (parent child : String) :
    PathSafe (l.correlate c parent child) := by
  unfold Link.correlate
  cases l.topology with
  | direct pairs => exact .pure trivial
  | junction table toParent toChild => exact Outcome.freshTable.bind fun _ _ => .pure trivial

theorem resolve_ends (s : Schema) (parent : Entity) (f : ObjectField) :
    Ends (· ≠ .emptyPath) (fun _ => True) (Link.resolve s parent f) := by
  have hlift {α : Type} (x : Except ModelError α) :
      Ends (· ≠ .emptyPath) (fun _ => True) (liftM x : Except QueryError α) :=
    .lift_model (fun _ => nofun) fun _ _ => trivial
  unfold Link.resolve
  refine (hlift _).bind fun child _ => ?_
  cases f.relation with
  | none => exact .throw nofun
  | some relation =>
    cases relation with
    | joinColumns columns => exact (hlift _).bind fun _ _ => .pure trivial
    | joinTable j => exact (hlift _).bind fun _ _ => (hlift _).bind fun _ _ => .pure trivial
    | mappedBy owner =>
      refine (hlift _).bind fun g _ => ?_
      cases g.relation with
      | none => exact .throw nofun
      | some relation =>
        cases relation with
        | joinColumns columns => exact (hlift _).bind fun _ _ => .pure trivial
        | joinTable j => exact (hlift _).bind fun _ _ => (hlift _).bind fun _ _ => .pure trivial
        | mappedBy owner => exact .throw nofun

theorem pathCondition_pathSafe (t : FieldTest) : ∀ (path : FieldPath) (s : Scope),
    path ≠ [] → PathSafe (pathCondition c t path s)
  | [], s, hpath => absurd rfl hpath
  | [name], s, _ => fieldCondition_pathSafe s name t
  | name :: next :: rest, s, _ => by
    -- behind a hop the path still has a name, so the induction needs no more of the filter
    have hrest (s : Scope) : PathSafe (pathCondition c t (next :: rest) s) :=
      pathCondition_pathSafe t (next :: rest) s (List.cons_ne_nil _ _)
    refine (PathSafe.model _).bind fun f _ => ?_
    refine (PathSafe.model _).bind fun target _ => ?_
    split_ifs
    · exact hrest _
    · refine (Outcome.lift (resolve_ends _ _ _)).bind fun link _ => ?_
      refine Outcome.freshTable.bind fun child _ => ?_
      refine (correlate_pathSafe link _ _).bind fun correlation _ => ?_
      exact (hrest _).bind fun condition _ => .pure trivial

mutual

theorem condition_pathSafe {c : Compiler} (s : Scope) : ∀ f : Filter, f.hasPaths = true →
    PathSafe (condition c s f)
  | .test path t, hpaths =>
    pathCondition_pathSafe t path s (by simpa [Filter.hasPaths] using hpaths)
  | .not f, hpaths => by
    rw [condition]
    exact (condition_pathSafe s f hpaths).bind fun _ _ => .pure trivial
  | .and fs, hpaths => by
    rw [condition]
    exact (conditions_pathSafe s fs hpaths).bind fun _ _ => .pure trivial
  | .or fs, hpaths => by
    rw [condition]
    exact (conditions_pathSafe s fs hpaths).bind fun _ _ => .pure trivial
termination_by structural f => f

theorem conditions_pathSafe {c : Compiler} (s : Scope) : ∀ fs : List Filter,
    filtersHavePaths fs = true → PathSafe (conditions c s fs)
  | [], _ => .pure trivial
  | f :: fs, hpaths => by
    obtain ⟨hf, hfs⟩ := Bool.and_eq_true_iff.1 hpaths
    rw [conditions]
    refine (condition_pathSafe s f hf).bind fun _ _ => ?_
    exact (conditions_pathSafe s fs hfs).bind fun _ _ => .pure trivial
termination_by structural fs => fs

end

/-! ## Fields and keys -/

theorem keyCriteria_pathSafe (s : Scope) (keys : List KeyMap) : PathSafe (keyCriteria s keys) := by
  unfold keyCriteria
  split
  · exact .pure trivial
  · refine (Outcome.mapM (P := fun _ => True) fun m _ => ?_).bind fun _ _ => .pure trivial
    exact (PathSafe.model _).bind fun _ _ => .pure trivial
  · refine (PathSafe.model _).bind fun keys _ => ?_
    refine Outcome.freshTable.bind fun name _ => ?_
    exact (PathSafe.model _).bind fun fields _ => .pure trivial

theorem selectExpr_pathSafe (e : Sql.Expr) : DraftPathSafe (selectExpr e) :=
  .selectExpr fun _ _ _ => trivial

theorem selectColumn_pathSafe (column : Sql.Column) : DraftPathSafe (selectColumn column) :=
  .selectColumn fun _ _ _ => trivial

theorem joinLateral_pathSafe (s : Sql.Select) (name : String) :
    DraftPathSafe (joinLateral s name) :=
  .joinLateral fun _ _ => trivial

theorem selectExists_pathSafe (parent : Option Parent) (columns : List Sql.Column) :
    DraftPathSafe (selectExists parent columns) := by
  cases parent with
  | none => exact .pure trivial
  | some p =>
    unfold selectExists
    dsimp only
    split_ifs
    · exact (DraftOutcome.mapM fun column _ => selectColumn_pathSafe column).mono fun _ _ => trivial
    · exact .pure trivial

theorem selectRelated_pathSafe (checkNull : Option String) (columns : List Sql.Column) :
    DraftPathSafe (selectRelated checkNull columns) := by
  unfold selectRelated
  split
  · exact (selectColumn_pathSafe _).bind fun _ _ => .pure trivial
  · exact .pure trivial

theorem geometryOutput_ends (table : String) (f : ScalarField) (srid : Option Srid) :
    Ends (· ≠ .emptyPath) (fun _ => True) (geometryOutput c table f srid) := by
  unfold geometryOutput
  cases srid with
  | none => exact .pure trivial
  | some requested =>
    dsimp only
    cases f.geometry with
    | none => exact .throw nofun
    | some info =>
      dsimp only
      split_ifs
      · exact .pure trivial
      · split
        · exact .pure trivial
        · split
          · exact .pure trivial
          · exact .throw nofun

theorem selectField_pathSafe (s : Scope) (f : SelectedField) :
    DraftPathSafe (selectField c s f) := by
  refine (DraftPathSafe.model _).bind fun field _ => ?_
  cases field with
  | object _ => exact .throw nofun
  | scalar field =>
    refine (DraftOutcome.lift (geometryOutput_ends s.name field f.srid)).bind fun e _ => ?_
    cases e with
    | column column => exact (selectColumn_pathSafe column).bind fun _ _ => .pure trivial
    | _ => exact (selectExpr_pathSafe _).bind fun _ _ => .pure trivial

theorem selectKey_pathSafe (s : Scope) (selected : List (SelectedField × String)) :
    DraftPathSafe (selectKey s selected) := by
  unfold selectKey
  cases selectedKey? s.entity selected with
  | some name => exact .pure trivial
  | none =>
    refine (DraftPathSafe.model _).bind fun fields _ => ?_
    cases fields with
    | nil => exact .pure trivial
    | cons f fields => exact (selectColumn_pathSafe _).bind fun _ _ => .pure trivial

theorem selectJoinKey_pathSafe (s : Scope) (f : ObjectField) (label : String) :
    DraftPathSafe (selectJoinKey c s f label) := by
  refine (DraftOutcome.lift (resolve_ends _ _ _)).bind fun link _ => ?_
  refine (DraftOutcome.mapM (P := fun _ => True) fun column _ => ?_).bind fun _ _ => .pure trivial
  exact (selectColumn_pathSafe _).bind fun _ _ => .pure trivial

theorem selectOrder_pathSafe (s : Scope) (k : SortKey) : DraftPathSafe (selectOrder s k) := by
  refine (DraftPathSafe.model _).bind fun f _ => ?_
  exact (selectColumn_pathSafe _).bind fun _ _ => .pure trivial

/-! ## Aggregates -/

theorem numericExpr_ends (a : Aggregate) (f : ScalarField) (column : Sql.Column)
    (function : Sql.NumericAggregate) :
    Ends (· ≠ .emptyPath) (fun _ => True) (a.numericExpr f column function) := by
  unfold Aggregate.numericExpr
  split_ifs
  · exact .throw nofun
  · exact .throw nofun
  · exact .pure trivial

theorem aggregateExpr_ends (a : Aggregate) (source : Option (ScalarField × Sql.Column)) :
    Ends (· ≠ .emptyPath) (fun _ => True) (a.expr source) := by
  unfold Aggregate.expr
  split
  · split
    · split_ifs
      · exact .throw nofun
      · exact .pure trivial
    · exact .throw nofun
  · split
    · exact .pure trivial
    · split_ifs
      · exact .pure trivial
      · exact .throw nofun
    all_goals exact numericExpr_ends a _ _ _

theorem sharedResults_pathSafe (source : String) (as : List SourcedAggregate) :
    PathSafe (sharedResults source as) := by
  induction as with
  | nil => exact .pure trivial
  | cons a as ih =>
    refine Outcome.freshColumn.bind fun name _ => ?_
    refine (Outcome.lift (aggregateExpr_ends a.1 _)).bind fun e _ => ?_
    exact ih.bind fun rest _ => .pure trivial

section
variable {filters : List Filter} (hpaths : filtersHavePaths filters = true) (l : Link)
  (parent : String)
include hpaths

theorem aggregateSelect_pathSafe : PathSafe (aggregateSelect c l parent filters) := by
  unfold aggregateSelect
  refine Outcome.freshTable.bind fun wrapper _ => ?_
  refine Outcome.freshTable.bind fun source _ => ?_
  refine (correlate_pathSafe l parent source).bind fun correlation _ => ?_
  exact (condition_pathSafe _ (.and filters) hpaths).bind fun condition _ => .pure trivial

theorem selectShared_pathSafe (as : List SourcedAggregate) :
    DraftPathSafe (selectShared c l parent filters as) := by
  unfold selectShared
  split_ifs
  · exact .pure trivial
  · refine (DraftOutcome.compile (aggregateSelect_pathSafe hpaths l parent)).bind fun s _ => ?_
    refine (DraftOutcome.compile (sharedResults_pathSafe s.source as)).bind fun results _ => ?_
    exact (joinLateral_pathSafe _ s.wrapper).bind fun _ _ => .pure trivial

theorem selectUnnested_pathSafe (a : SourcedAggregate) :
    DraftPathSafe (selectUnnested c l parent filters a) := by
  unfold selectUnnested
  refine (DraftOutcome.compile (aggregateSelect_pathSafe hpaths l parent)).bind fun s _ => ?_
  refine (DraftOutcome.compile .freshTable).bind fun elements _ => ?_
  refine (DraftOutcome.compile .freshColumn).bind fun element _ => ?_
  refine (DraftOutcome.compile .freshColumn).bind fun name _ => ?_
  refine (DraftOutcome.lift (aggregateExpr_ends a.1 _)).bind fun e _ => ?_
  exact (joinLateral_pathSafe _ s.wrapper).bind fun _ _ => .pure trivial

end

theorem selectAggregates_pathSafe (s : Scope) {r : AggregateRequest} (hpaths : r.hasPaths = true) :
    DraftPathSafe (selectAggregates c s r) := by
  unfold selectAggregates
  refine (DraftPathSafe.model _).bind fun f _ => ?_
  refine (DraftOutcome.lift (resolve_ends _ _ _)).bind fun link _ => ?_
  refine (DraftPathSafe.model _).bind fun sourced _ => ?_
  refine (selectShared_pathSafe hpaths link s.name _).bind fun shared _ => ?_
  exact (DraftOutcome.mapM fun a _ => selectUnnested_pathSafe hpaths link s.name a).bind
    fun unnested _ => .pure trivial

/-! ## Requests -/

theorem correlateParent_pathSafe (parent : Option Parent) (name : String) :
    PathSafe (correlateParent c parent name) := by
  cases parent with
  | none => exact .pure trivial
  | some p => exact correlate_pathSafe p.link p.name name

theorem finish_pathSafe (s : Scope) (table : Sql.Table) (parent : Option Parent)
    (correlation : Correlation) {r : RowCriteria} (hpaths : filtersHavePaths r.filters = true)
    (fields : List (String × FieldReader)) (checkNull : Option String) :
    DraftPathSafe (finish c s table parent correlation r fields checkNull) := by
  unfold finish
  refine (DraftOutcome.mapM fun k _ => selectOrder_pathSafe s k).bind fun order _ => ?_
  refine (DraftOutcome.compile (condition_pathSafe s (.and r.filters) hpaths)).bind
    fun filters _ => ?_
  refine (DraftOutcome.compile (keyCriteria_pathSafe s r.keys)).bind fun keys _ => ?_
  refine (selectExists_pathSafe parent _).bind fun existsColumns _ => ?_
  refine (selectRelated_pathSafe checkNull _).bind fun checkNull _ => ?_
  refine DraftOutcome.get.bind fun draft _ => ?_
  split_ifs
  · exact .throw nofun
  · exact .pure trivial

mutual

/-- A request whose filters have paths is not refused for an empty one. -/
theorem node_pathSafe {c : Compiler} (parent : Option Parent) : ∀ r : ObjectRequest,
    r.hasPaths = true → PathSafe (node c parent r)
  | ⟨entity, selected, objects, aggregates, filters, sort, paging, keys, context⟩, hpaths => by
    simp only [ObjectRequest.hasPaths, Bool.and_eq_true, List.all_eq_true] at hpaths
    rw [node]
    refine (PathSafe.model _).bind fun entity _ => ?_
    refine Outcome.freshTable.bind fun name _ => ?_
    refine (correlateParent_pathSafe parent name).bind fun correlation _ => ?_
    refine DraftOutcome.run' (D := fun _ => True) ?_ trivial
    refine (DraftOutcome.mapM fun f _ => selectField_pathSafe _ f).bind fun selected _ => ?_
    refine (selectKey_pathSafe _ selected).bind fun checkNull _ => ?_
    refine (objectReaders_pathSafe _ objects hpaths.2).bind fun objects _ => ?_
    refine (DraftOutcome.mapM fun r hr => selectAggregates_pathSafe _ (hpaths.1.2 r hr)).bind
      fun aggregates _ => ?_
    exact finish_pathSafe _ _ parent correlation hpaths.1.1 _ checkNull
termination_by structural r => r

theorem objectReaders_pathSafe {c : Compiler} (s : Scope) : ∀ os : List ObjectFieldRequest,
    objectsHavePaths os = true → DraftPathSafe (objectReaders c s os)
  | [], _ => .pure trivial
  | o :: os, hpaths => by
    obtain ⟨ho, hos⟩ := Bool.and_eq_true_iff.1 hpaths
    rw [objectReaders]
    refine (objectReader_pathSafe s o ho).bind fun _ _ => ?_
    exact (objectReaders_pathSafe s os hos).bind fun _ _ => .pure trivial
termination_by structural os => os

theorem objectReader_pathSafe {c : Compiler} (s : Scope) : ∀ o : ObjectFieldRequest,
    o.hasPaths = true → DraftPathSafe (objectReader c s o)
  | ⟨field, label, request⟩, hpaths => by
    rw [objectReader]
    refine (DraftPathSafe.model _).bind fun f _ => ?_
    split_ifs
    · exact .throw nofun
    · exact .throw nofun
    · refine (DraftPathSafe.model _).bind fun target _ => ?_
      exact (embeddedReaders_pathSafe _ request hpaths).bind fun _ _ => .pure trivial
    · exact selectJoinKey_pathSafe s f label
    · refine (DraftOutcome.compile .freshTable).bind fun wrapper _ => ?_
      refine (DraftOutcome.lift (resolve_ends _ _ _)).bind fun link _ => ?_
      refine (DraftOutcome.compile (node_pathSafe _ request hpaths)).bind fun child _ => ?_
      exact (joinLateral_pathSafe _ wrapper).bind fun _ _ => .pure trivial
termination_by structural o => o

theorem embeddedReaders_pathSafe {c : Compiler} (s : Scope) : ∀ r : ObjectRequest,
    r.hasPaths = true → DraftPathSafe (embeddedReaders c s r)
  | ⟨entity, selected, objects, aggregates, filters, sort, paging, keys, context⟩, hpaths => by
    simp only [ObjectRequest.hasPaths, Bool.and_eq_true, List.all_eq_true] at hpaths
    rw [embeddedReaders]
    refine (DraftOutcome.mapM fun f _ => selectField_pathSafe _ f).bind fun selected _ => ?_
    refine (objectReaders_pathSafe _ objects hpaths.2).bind fun objects _ => ?_
    exact (DraftOutcome.mapM fun r hr => selectAggregates_pathSafe _ (hpaths.1.2 r hr)).bind
      fun aggregates _ => .pure trivial
termination_by structural r => r

end

theorem batchSelect_pathSafe {r : BatchRequest} (hpaths : r.request.hasPaths = true) :
    PathSafe (batchSelect c r) := by
  unfold batchSelect
  refine (PathSafe.model _).bind fun parent _ => ?_
  refine (PathSafe.model _).bind fun f _ => ?_
  split_ifs
  · exact .throw nofun
  · refine (Outcome.lift (resolve_ends _ _ _)).bind fun link _ => ?_
    dsimp only
    split_ifs
    · exact .throw nofun
    · refine Outcome.freshTable.bind fun name _ => ?_
      refine (Outcome.mapM (P := fun _ => True) fun key _ =>
        Outcome.freshColumn.bind fun _ _ => .pure trivial).bind fun keyColumns _ => ?_
      refine Outcome.freshTable.bind fun wrapper _ => ?_
      exact (node_pathSafe _ r.request hpaths).bind fun child _ => .pure trivial

end

end LateralSql
