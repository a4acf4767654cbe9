/-
  Tables of compiled selects are schema-qualified as the metadata and the settings say.

  `ObjectRequest.origins` lists the tables of the metadata that a request reads, one for each place
  where its select has a stored table: an entity's own or the function that takes its place, the
  tables of relations and aggregates, and those of the filters (`Filter.footprint`).  The select has
  the same tables in the same order, each in the schema that it names in the metadata or else in the
  default one.
-/
import LateralSql.Proofs.ClosedQueries
import LateralSql.Proofs.Footprints

namespace LateralSql

open Sql (Cond Expr Join Select)

/-! ## Tables of a request -/

/-- The tables of aggregates over the rows that a field relates.  The related rows are read once
    for the aggregates that share a select, and once for each of those over elements. -/
def AggregateRequest.origins (s : Schema) (e : Entity) (r : AggregateRequest) : List Origin :=
  match e.objectField r.field with
  | .error _ => []
  | .ok f =>
    match s.entity f.target with
    | .error _ => []
    | .ok target =>
      let rows := f.origins s target ++ ((Filter.and r.filters).footprint s target).origins
      let shared := r.aggregates.filter (!·.joinsElements target)
      let unnested := r.aggregates.filter (·.joinsElements target)
      (if shared.isEmpty then [] else rows) ++ unnested.flatMap fun _ => rows

mutual

/-- The tables of a request, whose rows are related through the table `via` if there is one. -/
def ObjectRequest.origins (s : Schema) (via : Option TableRef) : ObjectRequest → List Origin
  | ⟨entity, _, objects, aggregates, filters, _, _, _, context⟩ =>
    match s.entity entity with
    | .error _ => []
    | .ok e =>
      e.origin context :: via.toList.map .table ++
        (objectOrigins s e objects ++ aggregates.flatMap (·.origins s e)) ++
        ((Filter.and filters).footprint s e).origins
termination_by structural r => r

/-- The tables of the objects of a row. -/
def objectOrigins (s : Schema) (e : Entity) : List ObjectFieldRequest → List Origin
  | [] => []
  | o :: os => o.origins s e ++ objectOrigins s e os
termination_by structural os => os

/-- The tables of an object: an embedded one is in the same row, and the rows of a list come with a
    query of their own. -/
def ObjectFieldRequest.origins (s : Schema) (e : Entity) : ObjectFieldRequest → List Origin
  | ⟨field, _, request⟩ =>
    match e.objectField field with
    | .error _ => []
    | .ok f =>
      if f.isEmbedded then
        match s.entity f.target with
        | .error _ => []
        | .ok target => request.embeddedOrigins s target
      else if f.isList then []
      else request.origins s (f.joinTable? s)
termination_by structural o => o

/-- The tables of what an embedded object asks for. -/
def ObjectRequest.embeddedOrigins (s : Schema) (e : Entity) : ObjectRequest → List Origin
  | ⟨_, _, objects, aggregates, _, _, _, _, _⟩ =>
    objectOrigins s e objects ++ aggregates.flatMap (·.origins s e)
termination_by structural r => r

end

/-- The tables of a batch are those of the related rows. -/
def BatchRequest.origins (s : Schema) (r : BatchRequest) : List Origin :=
  match s.entity r.entity >>= (·.objectField r.field) with
  | .error _ => []
  | .ok f => r.request.origins s (f.joinTable? s)

/-! ## Drafts -/

/-- What a step joins behind the joins of its draft reads the given tables. -/
def Draft.ReadsFrom (c : Compiler) (d d' : Draft) (os : List Origin) : Prop :=
  ∃ js, d'.joins = d.joins ++ js ∧ c.ReadsFrom (Sql.joinTables js) os

section
variable {c : Compiler} {l : Link} {parent : String} {filters : List Filter} {d d₁ d' : Draft}
  {n n' : Names} {os ps : List Origin}

theorem Draft.ReadsFrom.append (h : d.ReadsFrom c d₁ os) (h' : d₁.ReadsFrom c d' ps) :
    d.ReadsFrom c d' (os ++ ps) := by
  obtain ⟨js, hjs, hos⟩ := h
  obtain ⟨ks, hks, hps⟩ := h'
  refine ⟨js ++ ks, by rw [hks, hjs, List.append_assoc], ?_⟩
  rw [Sql.joinTables_append]
  exact hos.append hps

theorem Draft.ReadsFrom.nil (h : d'.joins = d.joins) : d.ReadsFrom c d' [] :=
  ⟨[], by rw [h, List.append_nil], .nil⟩

theorem Draft.ReadsFrom.lateral {s : Select} (h : c.ReadsFrom s.tablesWithin os) (name : String) :
    d.ReadsFrom c (d.withLateral s name) os :=
  ⟨[.ofLateral s name], rfl, .join (.ofSelect h name) rfl⟩

/-! ## Aggregates -/

/-- What is added to a select of aggregates reads nothing. -/
theorem aggregateSelect_readsFrom {a : AggregateSelect}
    (h : aggregateSelect c l parent filters n = .ok (a, n')) (columns : List Expr)
    (hcolumns : Sql.exprTables columns = []) (more : List Join)
    (hmore : c.ReadsFrom (Sql.joinTables more) []) :
    c.ReadsFrom (Select.tablesWithin { a.select with columns, joins := a.select.joins ++ more })
      (l.origins ++ ((Filter.and filters).footprint c.schema l.child).origins) := by
  obtain ⟨_, _, _, correlation, condition, -, -, hcorrelate, hcondition, heq⟩ :=
    aggregateSelect_run h
  rw [heq]
  exact related_readsFrom hcorrelate (conjunction_footprint hcondition) columns hcolumns more hmore

theorem selectShared_readsFrom {as : List SourcedAggregate} {names : List String}
    (h : selectShared c l parent filters as d n = .ok ((names, d'), n')) :
    d.ReadsFrom c d' (if as.isEmpty then []
      else l.origins ++ ((Filter.and filters).footprint c.schema l.child).origins) := by
  unfold selectShared at h
  split_ifs at h ⊢ with hempty
  · obtain ⟨-, rfl, -⟩ := draft_pure_run.1 h
    exact .nil rfl
  · obtain ⟨a, _, n₁, ha, h⟩ := draft_bind_run.1 h
    obtain ⟨results, _, n₂, hresults, h⟩ := draft_bind_run.1 h
    obtain ⟨_, _, n₃, hjoin, h⟩ := draft_bind_run.1 h
    obtain ⟨-, rfl, -⟩ := draft_pure_run.1 h
    obtain ⟨rfl, -⟩ := joinLateral_run.1 hjoin
    obtain ⟨hselect, rfl⟩ := draft_compile_run.1 ha
    obtain ⟨hshared, rfl⟩ := draft_compile_run.1 hresults
    have hcolumns : Sql.exprTables (results.map (·.1)) = [] := by
      rw [Sql.exprTables_eq, List.flatMap_eq_nil_iff]
      exact fun e he => ((sharedResults_read hshared).2 e he).1
    have hreads := aggregateSelect_readsFrom hselect _ hcolumns [] .nil
    rw [List.append_nil] at hreads
    exact .lateral hreads _

theorem selectUnnested_readsFrom {a : SourcedAggregate} {name : String}
    (h : selectUnnested c l parent filters a d n = .ok ((name, d'), n')) :
    d.ReadsFrom c d' (l.origins ++ ((Filter.and filters).footprint c.schema l.child).origins) := by
  unfold selectUnnested at h
  obtain ⟨base, _, n₁, hbase, h⟩ := draft_bind_run.1 h
  obtain ⟨elements, _, n₂, helements, h⟩ := draft_bind_run.1 h
  obtain ⟨element, _, n₃, helement, h⟩ := draft_bind_run.1 h
  obtain ⟨_, _, n₄, hname, h⟩ := draft_bind_run.1 h
  obtain ⟨e, _, n₅, he, h⟩ := draft_bind_run.1 h
  obtain ⟨_, _, n₆, hjoin, h⟩ := draft_bind_run.1 h
  obtain ⟨-, rfl, -⟩ := draft_pure_run.1 h
  obtain ⟨rfl, -⟩ := joinLateral_run.1 hjoin
  obtain ⟨hexpr, rfl, -⟩ := draft_lift_run.1 he
  obtain ⟨-, rfl⟩ := draft_compile_run.1 hname
  obtain ⟨-, rfl⟩ := draft_compile_run.1 helement
  obtain ⟨-, rfl⟩ := draft_compile_run.1 helements
  obtain ⟨hselect, rfl⟩ := draft_compile_run.1 hbase
  refine .lateral (aggregateSelect_readsFrom hselect _ ?_ _ ?_) _
  · simpa [Sql.exprTables] using (Aggregate.expr_reads hexpr).1
  · cases a.2 with
    | none => exact .nil
    | some f => exact .join rfl rfl

theorem unnested_readFrom {as : List SourcedAggregate} {names : List String}
    (h : as.mapM (selectUnnested c l parent filters) d n = .ok ((names, d'), n')) :
    d.ReadsFrom c d' (as.flatMap fun _ =>
      l.origins ++ ((Filter.and filters).footprint c.schema l.child).origins) := by
  induction as generalizing d n names with
  | nil =>
    obtain ⟨-, rfl, -⟩ := draft_pure_run.1 h
    exact .nil rfl
  | cons a as ih =>
    rw [List.mapM_cons] at h
    obtain ⟨name, d₁, n₁, hname, h⟩ := draft_bind_run.1 h
    obtain ⟨rest, d₂, n₂, hrest, h⟩ := draft_bind_run.1 h
    obtain ⟨-, rfl, rfl⟩ := draft_pure_run.1 h
    exact (selectUnnested_readsFrom hname).append (ih hrest)

theorem selectAggregates_readsFrom {s : Scope} {r : AggregateRequest} {f : String × FieldReader}
    (h : selectAggregates c s r d n = .ok ((f, d'), n')) :
    d.ReadsFrom c d' (r.origins c.schema s.entity) := by
  unfold selectAggregates at h
  obtain ⟨field, _, n₁, hfield, h⟩ := draft_bind_run.1 h
  obtain ⟨link, _, n₂, hlink, h⟩ := draft_bind_run.1 h
  obtain ⟨sourced, _, n₃, hsourced, h⟩ := draft_bind_run.1 h
  obtain ⟨shared, d₁, n₄, hshared, h⟩ := draft_bind_run.1 h
  obtain ⟨unnested, d₂, n₅, hunnested, h⟩ := draft_bind_run.1 h
  obtain ⟨-, rfl, -⟩ := draft_pure_run.1 h
  obtain ⟨hfields, rfl, -⟩ := draft_lift_model_run.1 hsourced
  obtain ⟨hresolve, rfl, -⟩ := draft_lift_run.1 hlink
  obtain ⟨hobject, rfl, -⟩ := draft_lift_model_run.1 hfield
  have hsharedNames := map_filter_sourced hfields (!·)
  have hunnestedNames : _ = r.aggregates.filter (·.joinsElements link.child) :=
    map_filter_sourced hfields id
  have hreads := (selectShared_readsFrom hshared).append (unnested_readFrom hunnested)
  rw [Link.origins_of_resolve hresolve] at hreads
  simp only [AggregateRequest.origins, hobject, Link.entity_of_resolve hresolve]
  rw [← hsharedNames, ← hunnestedNames, List.isEmpty_map, List.flatMap_map]
  exact hreads

theorem aggregates_readFrom {s : Scope} {rs : List AggregateRequest}
    {fields : List (String × FieldReader)}
    (h : rs.mapM (selectAggregates c s) d n = .ok ((fields, d'), n')) :
    d.ReadsFrom c d' (rs.flatMap (·.origins c.schema s.entity)) := by
  induction rs generalizing d n fields with
  | nil =>
    obtain ⟨-, rfl, -⟩ := draft_pure_run.1 h
    exact .nil rfl
  | cons r rs ih =>
    rw [List.mapM_cons] at h
    obtain ⟨f, d₁, n₁, hf, h⟩ := draft_bind_run.1 h
    obtain ⟨rest, d₂, n₂, hrest, h⟩ := draft_bind_run.1 h
    obtain ⟨-, rfl, rfl⟩ := draft_pure_run.1 h
    exact (selectAggregates_readsFrom hf).append (ih hrest)

end

/-! ## Nodes -/

section
variable {c : Compiler} {n n' : Names}

theorem correlateParent_readsFrom {parent : Option Parent} {name : String} {r : Correlation}
    (h : correlateParent c parent name n = .ok (r, n')) :
    c.ReadsFrom (Sql.joinTables r.joins) ((parent.bind (·.link.junction?)).toList.map .table) ∧
      r.condition.Silent := by
  cases parent with
  | none =>
    obtain ⟨rfl, -⟩ := pure_run.1 h
    exact ⟨.nil, .always⟩
  | some p => exact Link.correlate_readsFrom h

/-- Keys are values, and nothing is read for them. -/
theorem keyCriteria_readsFrom {s : Scope} {keys : List KeyMap} {r : KeyCriteria}
    (h : keyCriteria s keys n = .ok (r, n')) :
    c.ReadsFrom (Sql.joinTables r.joins) [] ∧ r.condition.Silent := by
  unfold keyCriteria at h
  split at h
  · obtain ⟨rfl, -⟩ := pure_run.1 h
    exact ⟨.nil, .always⟩
  · obtain ⟨conditions, n₁, hconditions, h⟩ := bind_run.1 h
    obtain ⟨rfl, -⟩ := pure_run.1 h
    refine ⟨.nil, .all (mapM_run_forall (fun m _ _ _ _ hrun => ?_) hconditions)⟩
    obtain ⟨f, _, -, hrun⟩ := bind_run.1 hrun
    obtain ⟨rfl, -⟩ := pure_run.1 hrun
    exact ⟨rfl, rfl⟩
  · obtain ⟨joined, n₁, hjoined, h⟩ := bind_run.1 h
    obtain ⟨name, n₂, hname, h⟩ := bind_run.1 h
    obtain ⟨fields, n₃, hfields, h⟩ := bind_run.1 h
    obtain ⟨rfl, -⟩ := pure_run.1 h
    refine ⟨.join ?_ (Cond.Silent.all fun on hon => ?_).noTables, .always⟩
    · rw [keyTable_tables]
      rfl
    · obtain ⟨p, -, rfl⟩ := List.mem_map.1 hon
      exact ⟨rfl, rfl⟩

/-- The tables of a node, if those of its objects are as they should be. -/
theorem NodeRun.readsFrom {parent : Option Parent} {r : ObjectRequest}
    (run : NodeRun c parent r n n')
    (hobjects : run.d₂.ReadsFrom c run.d₃ (objectOrigins c.schema run.entity r.objects)) :
    c.ReadsFrom run.node.select.tablesWithin
      (r.origins c.schema (parent.bind (·.link.junction?))) := by
  obtain ⟨hties, hcorrelation⟩ := correlateParent_readsFrom run.correlation_run
  obtain ⟨hkeyed, hkeys⟩ := keyCriteria_readsFrom (c := c) run.keys_run
  obtain ⟨js, hjs, hlaterals⟩ := hobjects.append (aggregates_readFrom run.aggregates_run)
  obtain ⟨hbefore, hafter⟩ := run.draft_joins
  have hjoins : run.draft.joins = js := by rw [hafter, hjs, hbefore, List.nil_append]
  -- the tie to the parent and the keys add nothing to what the filters read
  have hread : c.ReadsFrom run.node.select.condition.tablesWithin
      ((Filter.and r.filters).footprint c.schema run.entity).origins := by
    change c.ReadsFrom ((run.correlation.condition.both run.filters).both
      run.keys.condition).tablesWithin _
    rw [hkeys.both.2, hcorrelation.both.1]
    exact (conjunction_footprint run.filters_run).readsFrom
  have hjoined : c.ReadsFrom (Sql.joinTables run.node.select.joins)
      ((parent.bind (·.link.junction?)).toList.map .table ++
        (objectOrigins c.schema run.entity r.objects ++
          r.aggregates.flatMap (·.origins c.schema run.entity))) := by
    change c.ReadsFrom (Sql.joinTables (_ ++ _ ++ _)) _
    rw [Sql.joinTables_append, Sql.joinTables_append, hjoins,
      ← List.append_nil ((parent.bind _).toList.map Origin.table)]
    exact (hties.append hkeyed).append hlaterals
  have hselect := Compiler.ReadsFrom.select run.rowsConstant rfl
    (c.readsFrom_entityTable run.entity r.context run.name) hjoined run.noTables hread
    (Sql.orderTables_eq_nil run.order_named)
  obtain ⟨entity, selected, objects, aggregates, filters, sort, paging, keys, context⟩ := r
  rw [ObjectRequest.origins, run.entity_run]
  simpa only [List.cons_append, List.nil_append] using hselect

mutual

theorem node_readsFrom {c : Compiler} :
    ∀ (r : ObjectRequest) {parent : Option Parent} {n n' : Names} {nd : Node},
      node c parent r n = .ok (nd, n') →
      c.ReadsFrom nd.select.tablesWithin (r.origins c.schema (parent.bind (·.link.junction?)))
  | ⟨entity, selected, objects, aggregates, filters, sort, paging, keys, context⟩,
    parent, n, n', nd, h => by
    obtain ⟨run, rfl⟩ := node_run h
    exact run.readsFrom (objectReaders_readFrom objects run.objects_run)
termination_by structural r => r

theorem objectReaders_readFrom {c : Compiler} :
    ∀ (os : List ObjectFieldRequest) {s : Scope} {d d' : Draft} {n n' : Names}
      {fields : List (String × FieldReader)},
      objectReaders c s os d n = .ok ((fields, d'), n') →
      d.ReadsFrom c d' (objectOrigins c.schema s.entity os)
  | [], s, d, d', n, n', fields, h => by
    rw [objectReaders] at h
    obtain ⟨-, rfl, -⟩ := draft_pure_run.1 h
    exact .nil rfl
  | o :: rest, s, d, d', n, n', fields, h => by
    rw [objectReaders] at h
    obtain ⟨f, d₁, n₁, hf, h⟩ := draft_bind_run.1 h
    obtain ⟨fs, d₂, n₂, hfs, h⟩ := draft_bind_run.1 h
    obtain ⟨-, rfl, -⟩ := draft_pure_run.1 h
    rw [objectOrigins]
    exact (objectReader_readsFrom o hf).append (objectReaders_readFrom rest hfs)
termination_by structural os => os

theorem objectReader_readsFrom {c : Compiler} :
    ∀ (o : ObjectFieldRequest) {s : Scope} {d d' : Draft} {n n' : Names}
      {field : String × FieldReader},
      objectReader c s o d n = .ok ((field, d'), n') →
      d.ReadsFrom c d' (o.origins c.schema s.entity)
  | ⟨name, label, request⟩, s, d, d', n, n', field, h => by
    obtain ⟨f, hf, htarget, hrun⟩ := objectReader_run h
    simp only [ObjectFieldRequest.origins, hf]
    cases hrun with
    | embedded hembedded hentity hfields =>
      rw [htarget] at hentity
      simp only [hembedded, if_true, hentity]
      exact embeddedReaders_readFrom request hfields
    | toMany hembedded hlist hkey =>
      simp only [hembedded, hlist, Bool.false_eq_true, if_false, if_true]
      exact .nil ((@Extends.selectJoinKey [] c s f label _).joins_eq hkey)
    | toOne hembedded hlist _ hresolve hchild =>
      have hreads := node_readsFrom request hchild
      rw [Option.bind_some, Link.junction?_of_resolve hresolve] at hreads
      obtain ⟨run, rfl⟩ := node_run hchild
      simp only [hembedded, hlist, Bool.false_eq_true, if_false]
      -- the one row that is kept of the child is still read from all of its tables
      refine .lateral ?_ _
      rwa [Select.tablesWithin_first run.rowsConstant]
termination_by structural o => o

theorem embeddedReaders_readFrom {c : Compiler} :
    ∀ (r : ObjectRequest) {s : Scope} {d d' : Draft} {n n' : Names}
      {fields : List (String × FieldReader)},
      embeddedReaders c s r d n = .ok ((fields, d'), n') →
      d.ReadsFrom c d' (r.embeddedOrigins c.schema s.entity)
  | ⟨entity, selected, objects, aggregates, filters, sort, paging, keys, context⟩,
    s, d, d', n, n', fields, h => by
    rw [embeddedReaders] at h
    obtain ⟨columns, d₁, n₁, hcolumns, h⟩ := draft_bind_run.1 h
    obtain ⟨readers, d₂, n₂, hreaders, h⟩ := draft_bind_run.1 h
    obtain ⟨results, d₃, n₃, hresults, h⟩ := draft_bind_run.1 h
    obtain ⟨-, rfl, -⟩ := draft_pure_run.1 h
    have hselected := (Extends.mapM fun f _ => @Extends.selectField [] c s f _).joins_eq hcolumns
    rw [ObjectRequest.embeddedOrigins]
    exact (Draft.ReadsFrom.nil hselected).append
      ((objectReaders_readFrom objects hreaders).append (aggregates_readFrom hresults))
termination_by structural r => r

end

end

/-! ## Requests -/

theorem object_readsFrom {c : Compiler} {r : ObjectRequest} {q : CompiledQuery}
    (h : c.object r = .ok q) :
    ∃ root, Compiler.run (node c none r) = .ok root ∧
      q = ⟨c.statement root.select, root.assembler⟩ ∧
      c.ReadsFrom root.select.tablesWithin (r.origins c.schema none) := by
  obtain ⟨root, hroot, h⟩ := bind_ok.1 h
  obtain rfl := pure_ok.1 h
  obtain ⟨n', hrun⟩ := run_ok.1 hroot
  exact ⟨root, hroot, rfl, node_readsFrom r hrun⟩

theorem BatchRun.readsFrom {c : Compiler} {r : BatchRequest} {n n' : Names}
    (run : BatchRun c r n n') :
    c.ReadsFrom run.result.select.tablesWithin (r.origins c.schema) := by
  have hfield : c.schema.entity r.entity >>= (·.objectField r.field) = .ok run.field :=
    bind_ok.2 ⟨run.entity, run.entity_run, run.field_run⟩
  have hchild := node_readsFrom r.request run.child_run
  rw [Option.bind_some, Link.junction?_of_resolve run.link_run] at hchild
  have hkeys : c.ReadsFrom (keyTable r.keys ((sortBy Prod.fst
      (run.link.parentColumns.zip run.link.parentTypes)).map (·.2)) run.name).tablesWithin [] := by
    rw [keyTable_tables]
    rfl
  have hselect := Compiler.ReadsFrom.select (s := run.result.select) (.unlimited rfl rfl) rfl hkeys
    (.join (.ofSelect hchild run.wrapper) rfl) run.noTables .nil rfl
  rw [BatchRequest.origins, hfield]
  rwa [List.append_nil] at hselect

/-- **Tables are read from the schemas that the metadata names.**  The tables and functions of the
    database that a compiled select has, at any depth, are in order those that its request reads:
    each stands for its own table of the metadata, whose schema is the one it has there, else the
    default one of the settings, else none. -/
theorem compiled_tables_qualified (c : Compiler) :
    (∀ r q, c.object r = .ok q → ∃ root, Compiler.run (node c none r) = .ok root ∧
      q = ⟨c.statement root.select, root.assembler⟩ ∧
      Sql.storedIn root.select.tablesWithin =
        (r.origins c.schema none).map c.settings.stored) ∧
    (∀ r q, c.collection r = .ok q → ∃ root, Compiler.run (node c none r.root) = .ok root ∧
      q = ⟨c.statement root.select, root.assembler⟩ ∧
      Sql.storedIn root.select.tablesWithin =
        (r.root.origins c.schema none).map c.settings.stored) ∧
    (∀ r q, c.batch r = .ok q → ∃ root, Compiler.run (batchSelect c r) = .ok root ∧
      q = ⟨⟨c.statement root.select, root.assembler⟩, root.grouping⟩ ∧
      Sql.storedIn root.select.tablesWithin = (r.origins c.schema).map c.settings.stored) := by
  refine ⟨fun _ _ => object_readsFrom, fun _ _ => object_readsFrom, fun r q h => ?_⟩
  obtain ⟨root, hroot, h⟩ := bind_ok.1 h
  obtain rfl := pure_ok.1 h
  obtain ⟨n', hrun⟩ := run_ok.1 hroot
  obtain ⟨run, rfl⟩ := batchSelect_run hrun
  exact ⟨_, hroot, rfl, run.readsFrom⟩

/-- Cities here and their partners abroad, in tables of one name; where no schema is named, tables
    are in the base one. -/
def atlas : Compiler where
  schema := ⟨[
    { name := "City", table := ⟨some "geo", "city"⟩, keys := ["id"]
      fields := [
        .scalar { name := "id", column := "id", type := .int },
        .scalar {
          name := "area", column := "area", type := .geometry
          geometry := some {
            srid := 4326
            segments := some {
              table := ⟨none, "city_part"⟩
              joinColumns := [⟨"city", .column "id"⟩]
              tileColumn := "tile", geometryColumn := "part"
              tiles := ⟨⟨some "grid", "tile"⟩, "id", "area"⟩ } } },
        .object {
          name := "country", target := "Country"
          relation := some (.joinColumns [⟨"country", .field "id"⟩]) },
        .object {
          name := "partner", target := "Partner"
          relation := some (.joinColumns [⟨"partner", .field "id"⟩]) },
        .object {
          name := "rivers", target := "River", isList := true
          relation := some (.joinTable {
            table := ⟨none, "city_river"⟩
            joinColumns := [⟨"city", .field "id"⟩]
            inverseJoinColumns := [⟨"river", .field "id"⟩] }) }] },
    { name := "Partner", table := ⟨some "abroad", "city"⟩, keys := ["id"]
      fields := [
        .scalar { name := "id", column := "id", type := .int },
        .object {
          name := "cities", target := "City", isList := true
          relation := some (.mappedBy "partner") }] },
    { name := "Country", table := ⟨none, "country"⟩, keys := ["id"]
      fields := [.scalar { name := "id", column := "id", type := .int }] },
    { name := "River", table := ⟨some "water", "river"⟩, keys := ["id"]
      fields := [.scalar { name := "id", column := "id", type := .int }] }]⟩
  settings := { defaultSchema := some "base" }

/-- A city of a certain edition, if it meets a point and lies on a river. -/
def cityRequest : ObjectRequest where
  entity := "City"
  selected := [⟨"id", "id", none⟩]
  objects := [
    ⟨"country", "country", { entity := "Country", selected := [⟨"id", "id", none⟩] }⟩,
    ⟨"partner", "partner", { entity := "Partner", selected := [⟨"id", "id", none⟩] }⟩]
  aggregates := [{
    field := "rivers", label := "rivers"
    aggregates := [{ label := "count", function := .count }] }]
  filters := [
    .test ["area"] (.spatial { operator := .intersects, geometry := some (.wkt "POINT(1 2)") }),
    .test ["rivers", "id"] (.equals (.int 7))]
  context := [⟨"edition", .int 3⟩]

/-- The partners of a city. -/
def partnerRequest : ObjectRequest where
  entity := "Partner"
  selected := [⟨"id", "id", none⟩]
  filters := [.test ["cities", "id"] (.equals (.int 1))]

/-- The rivers of a city. -/
def riversRequest : BatchRequest where
  entity := "City"
  field := "rivers"
  keys := firstRow
  request := { entity := "River", selected := [⟨"id", "id", none⟩] }

/-- The two tables named `city` are told apart by their schemas, whichever is read first.  Without a
    base schema, what names none has none. -/
theorem compiled_tables_qualified_atlas :
    (∃ q root, atlas.object cityRequest = .ok q ∧
      Compiler.run (node atlas none cityRequest) = .ok root ∧
      Sql.storedIn root.select.tablesWithin = [
        .function (some "geo") "city_ctx",
        .table (some "base") "country", .table (some "abroad") "city",
        .table (some "water") "river", .table (some "base") "city_river",
        .table (some "grid") "tile", .table (some "base") "city_part",
        .table (some "water") "river", .table (some "base") "city_river"]) ∧
    (∃ q root, atlas.collection { object := partnerRequest } = .ok q ∧
      Compiler.run (node atlas none partnerRequest) = .ok root ∧
      Sql.storedIn root.select.tablesWithin = [
        .table (some "abroad") "city", .table (some "geo") "city"]) ∧
    ∃ q root, { atlas with settings := {} }.batch riversRequest = .ok q ∧
      Compiler.run (batchSelect { atlas with settings := {} } riversRequest) = .ok root ∧
      Sql.storedIn root.select.tablesWithin = [
        .table (some "water") "river", .table none "city_river"] := by
  obtain ⟨q, hq⟩ : ∃ q, atlas.object cityRequest = .ok q := ⟨_, rfl⟩
  obtain ⟨p, hp⟩ : ∃ p, atlas.collection { object := partnerRequest } = .ok p := ⟨_, rfl⟩
  obtain ⟨b, hb⟩ : ∃ b, { atlas with settings := {} }.batch riversRequest = .ok b := ⟨_, rfl⟩
  obtain ⟨hobject, hcollection, -⟩ := compiled_tables_qualified atlas
  obtain ⟨-, -, hbatch⟩ := compiled_tables_qualified { atlas with settings := {} }
  refine ⟨?_, ?_, ?_⟩
  · obtain ⟨root, hroot, -, hstored⟩ := hobject cityRequest q hq
    exact ⟨q, root, hq, hroot, hstored.trans (by decide +kernel)⟩
  · obtain ⟨root, hroot, -, hstored⟩ := hcollection { object := partnerRequest } p hp
    exact ⟨p, root, hp, hroot, hstored.trans (by decide +kernel)⟩
  · obtain ⟨root, hroot, -, hstored⟩ := hbatch riversRequest b hb
    exact ⟨b, root, hb, hroot, hstored.trans (by decide +kernel)⟩

end LateralSql
