/-
  The stored tables that filters read.

  A filter that is decided without a look at the rows reads nothing.  Any other one reads the tables
  of the relations on its paths, and those of segments and tiles (`Filter.footprint`).  The
  condition it compiles to reads these tables and no others, in the same order, each in the schema
  that the metadata and the settings give it (`condition_footprint`).
-/
import LateralSql.Proofs.Correlations
import LateralSql.Proofs.NestedFetching
import LateralSql.Proofs.NormalConditions
import LateralSql.Proofs.ScopedConditions

namespace LateralSql

open Sql (Cond Expr Join Select Table col)

/-! ## Stored tables -/

namespace Sql

/-- A table or a function of the database. -/
inductive Stored where
  | table (schema : Option String) (name : String)
  | function (schema : Option String) (name : String)
  deriving Repr, DecidableEq

/-- What a source reads stored rows from, if it does. -/
def Source.stored? : Source → Option Stored
  | .table schema name => some (.table schema name)
  | .function schema name _ => some (.function schema name)
  | .query _ | .values _ | .expr _ => none

/-- What tables read stored rows from, in order. -/
def storedIn (ts : List Table) : List Stored := ts.filterMap (·.source.stored?)

end Sql

/-- What a request reads: a table of the metadata, or the function that takes its place under a
    context. -/
inductive Origin where
  | table (t : TableRef)
  | function (t : TableRef)
  deriving Repr, DecidableEq

/-- Where the rows of an entity are read from. -/
def Entity.origin (e : Entity) (context : List ContextValue) : Origin :=
  if context.isEmpty then .table e.table else .function e.table

namespace Settings

/-- The schema that a table is read from: the one it names, else the default one if there is one. -/
def schemaOf (s : Settings) (t : TableRef) : Option String := t.schema <|> s.defaultSchema

/-- What stands for a table of the metadata, or for its function, in the database. -/
def stored (s : Settings) : Origin → Sql.Stored
  | .table t => .table (s.schemaOf t) t.name
  | .function t => .function (s.schemaOf t) (t.name ++ s.contextSuffix)

end Settings

namespace Compiler

/-- The tables read what is given, in that order. -/
def ReadsFrom (c : Compiler) (ts : List Table) (os : List Origin) : Prop :=
  Sql.storedIn ts = os.map c.settings.stored

variable {c : Compiler} {ts us : List Table} {os ps : List Origin}

theorem ReadsFrom.nil : c.ReadsFrom [] [] := rfl

theorem ReadsFrom.of_nil (h : ts = []) : c.ReadsFrom ts [] := h ▸ .nil

theorem ReadsFrom.append (ht : c.ReadsFrom ts os) (hu : c.ReadsFrom us ps) :
    c.ReadsFrom (ts ++ us) (os ++ ps) := by
  rw [ReadsFrom, Sql.storedIn, List.filterMap_append, List.map_append]
  exact congrArg₂ _ ht hu

theorem ReadsFrom.single {t : Table} {o : Origin}
    (h : t.source.stored? = some (c.settings.stored o)) : c.ReadsFrom [t] [o] := by
  simp [ReadsFrom, Sql.storedIn, h]

theorem source_table (c : Compiler) (t : TableRef) :
    (c.table t).source = .table (c.settings.schemaOf t) t.name := by
  obtain ⟨schema, name⟩ := t
  cases schema with
  | none => rfl
  | some schema => rfl

theorem source_entityTable (c : Compiler) (e : Entity) (context : List ContextValue) :
    (c.entityTable e context).source.stored? = some (c.settings.stored (e.origin context)) := by
  unfold entityTable Entity.origin
  split
  · rw [source_table]
    rfl
  · obtain ⟨schema, name⟩ := e.table
    cases schema with
    | none => rfl
    | some schema => rfl

theorem readsFrom_table (c : Compiler) (t : TableRef) (name : String) :
    c.ReadsFrom ((c.table t).as name).tablesWithin [.table t] := by
  rw [(c.table_isPlain t name).tables]
  exact .single (congrArg Sql.Source.stored? (c.source_table t))

theorem readsFrom_entityTable (c : Compiler) (e : Entity) (context : List ContextValue)
    (name : String) :
    c.ReadsFrom ((c.entityTable e context).as name).tablesWithin [e.origin context] := by
  rw [(c.entityTable_isPlain e context name).tables]
  exact .single (c.source_entityTable e context)

theorem ReadsFrom.ofSelect {s : Select} (h : c.ReadsFrom s.tablesWithin os) (name : String) :
    c.ReadsFrom ((Table.ofSelect s).as name).tablesWithin os := h

theorem ReadsFrom.join {j : Join} (ht : c.ReadsFrom j.table.tablesWithin os)
    (hon : j.on.tablesWithin = []) : c.ReadsFrom (Sql.joinTables [j]) os := by
  cases j
  simpa only [Sql.joinTables, Join.tablesWithin, List.append_nil, hon] using ht

/-- The parts of a select of one table, where only its table, its joins and its condition read. -/
theorem ReadsFrom.select {s : Select} {t : Table} {qs : List Origin} (hrows : s.RowsConstant)
    (hfrom : s.tables = [t]) (ht : c.ReadsFrom t.tablesWithin os)
    (hjoins : c.ReadsFrom (Sql.joinTables s.joins) ps) (hcolumns : Sql.exprTables s.columns = [])
    (hcondition : c.ReadsFrom s.condition.tablesWithin qs) (horder : Sql.orderTables s.order = []) :
    c.ReadsFrom s.tablesWithin (os ++ ps ++ qs) := by
  rw [s.tablesWithin_eq hrows, hfrom, horder, hcolumns, List.append_nil, List.append_nil,
    Sql.fromTables, Sql.fromTables, List.append_nil]
  exact (ht.append hjoins).append hcondition

end Compiler

/-! ## Silent conditions -/

/-- The condition reads nothing, and decides no conjunction. -/
structure Sql.Cond.Silent (d : Cond) : Prop where
  noTables : d.tablesWithin = []
  notNever : d.isNever = false

namespace Sql.Cond.Silent

theorem always : Cond.always.Silent := ⟨rfl, rfl⟩

theorem equalities (pairs : List (String × String)) (l r : String) :
    (Cond.equalities pairs l r).Silent :=
  ⟨tablesWithin_equalities pairs l r, isNever_equalities pairs l r⟩

theorem all {cs : List Cond} (h : ∀ c ∈ cs, c.isProper = true ∧ c.tablesWithin = []) :
    (Cond.all cs).Silent := by
  have hnone := List.flatMap_eq_nil_iff.2 fun c hc => (h c hc).2
  refine ⟨List.sublist_nil.1 (hnone ▸ tablesWithin_all cs), ?_⟩
  have hnever : ¬ cs.any isNever = true := fun hany => by cases (h _ (any_isNever.1 hany)).1
  cases cs with
  | nil => rfl
  | cons c cs =>
    have hproper := isProper_all (fun c hc => isNormal_of_isProper (h c hc).1) hnever
      ⟨c, List.mem_cons_self, (h c List.mem_cons_self).1⟩
    refine Bool.eq_false_iff.2 fun hd => ?_
    rw [isNever_iff.1 hd] at hproper
    cases hproper

/-- Beside it, a condition reads what it reads alone. -/
theorem both {c d : Cond} (h : c.Silent) :
    (c.both d).tablesWithin = d.tablesWithin ∧ (d.both c).tablesWithin = d.tablesWithin := by
  rw [Cond.both, Cond.both, tablesWithin_all_eq, tablesWithin_all_eq]
  cases hd : d.isNever with
  | true =>
    -- the whole is decided, and what decides it reads nothing either
    obtain rfl := isNever_iff.1 hd
    simp [isNever, Cond.tablesWithin]
  | false => simp [h.notNever, h.noTables, hd]

end Sql.Cond.Silent

/-! ## Footprints -/

/-- What a filter reads: nothing if it holds of all rows or of none, whatever is stored, and else
    some tables, in order. -/
inductive Footprint where
  | decided (holds : Bool)
  | reads (origins : List Origin)
  deriving Repr, DecidableEq

namespace Footprint

/-- The tables that are read. -/
def origins : Footprint → List Origin
  | decided _ => []
  | reads os => os

/-- What the negation of a filter reads. -/
def negate : Footprint → Footprint
  | decided holds => decided !holds
  | reads os => reads os

/-- What a conjunction of filters reads, whose `unit` is true, or a disjunction, whose `unit` is
    false.  A filter that is decided otherwise decides it, and if all are decided it is, too. -/
def join (unit : Bool) (fs : List Footprint) : Footprint :=
  if decided (!unit) ∈ fs then decided (!unit)
  else if ∀ f ∈ fs, f = decided unit then decided unit
  else reads (fs.flatMap origins)

/-- The condition that a decided filter becomes. -/
def verdict (holds : Bool) : Cond := if holds then .always else .never

/-- The condition is decided or reads as the footprint says. -/
inductive Of (c : Compiler) : Footprint → Cond → Prop
  | decided (holds : Bool) : Of c (decided holds) (verdict holds)
  | reads {os : List Origin} {d : Cond} : d.isProper = true → c.ReadsFrom d.tablesWithin os →
      Of c (reads os) d

theorem verdict_isProper (holds : Bool) : (verdict holds).isProper = false := by
  cases holds <;> rfl

variable {c : Compiler} {f : Footprint} {d : Cond} {fs : List Footprint} {ds : List Cond}

theorem Of.readsFrom (h : f.Of c d) : c.ReadsFrom d.tablesWithin f.origins := by
  cases h with
  | decided holds => cases holds <;> exact .nil
  | reads _ hreads => exact hreads

theorem Of.decided_iff (h : f.Of c d) (holds : Bool) :
    f = Footprint.decided holds ↔ d = verdict holds := by
  cases h with
  | decided holds' => cases holds <;> cases holds' <;> simp [verdict]
  | reads hproper _ =>
    refine iff_of_false Footprint.noConfusion ?_
    rintro rfl
    cases (verdict_isProper holds).symm.trans hproper

theorem Of.negate (h : f.Of c d) : f.negate.Of c d.negate := by
  cases h with
  | decided holds => cases holds <;> exact .decided _
  | reads hproper hreads =>
    exact .reads (Cond.isProper_negate hproper) (by rwa [Cond.tablesWithin_negate])

theorem Of.single {e : Expr} {os : List Origin} (hatomic : e.isAtomic = true)
    (h : c.ReadsFrom e.tablesWithin os) : (Footprint.reads os).Of c (.single e) :=
  .reads hatomic h

/-! ### Lists of conditions -/

theorem mem_decided_iff (h : List.Forall₂ (Of c) fs ds) (holds : Bool) :
    decided holds ∈ fs ↔ verdict holds ∈ ds := by
  induction h with
  | nil => simp
  | cons hf _ ih => rw [List.mem_cons, List.mem_cons, ih, eq_comm, hf.decided_iff holds, eq_comm]

theorem forall_decided_iff (h : List.Forall₂ (Of c) fs ds) (holds : Bool) :
    (∀ f ∈ fs, f = decided holds) ↔ ∀ d ∈ ds, d = verdict holds := by
  induction h with
  | nil => simp
  | cons hf _ ih => rw [List.forall_mem_cons, List.forall_mem_cons, ih, hf.decided_iff holds]

theorem Of.verdict_or_proper (h : f.Of c d) (unit : Bool) :
    d = verdict unit ∨ d = verdict (!unit) ∨ d.isProper = true := by
  cases h with
  | decided holds => cases holds <;> cases unit <;> simp
  | reads hproper _ => exact .inr (.inr hproper)

theorem forall_verdict_or_proper (h : List.Forall₂ (Of c) fs ds) (unit : Bool) :
    ∀ d ∈ ds, d = verdict unit ∨ d = verdict (!unit) ∨ d.isProper = true := by
  induction h with
  | nil => exact List.forall_mem_nil _
  | cons hf _ ih => exact List.forall_mem_cons.2 ⟨hf.verdict_or_proper unit, ih⟩

theorem readsFrom_flatMap (h : List.Forall₂ (Of c) fs ds) :
    c.ReadsFrom (ds.flatMap (·.tablesWithin)) (fs.flatMap origins) := by
  induction h with
  | nil => exact .nil
  | cons hf _ ih => exact hf.readsFrom.append ih

/-- What is decided by one of the conditions, left out if all are the unit, and else reads what they
    read. -/
theorem Of.join (h : List.Forall₂ (Of c) fs ds) {unit : Bool}
    (hdecided : verdict (!unit) ∈ ds → d = verdict (!unit))
    (hunit : (∀ x ∈ ds, x = verdict unit) → d = verdict unit)
    (hproper : verdict (!unit) ∉ ds → (∃ x ∈ ds, x.isProper = true) →
      d.isProper = true ∧ d.tablesWithin = ds.flatMap (·.tablesWithin)) :
    (join unit fs).Of c d := by
  unfold Footprint.join
  split_ifs with hmem hall
  · rw [hdecided ((mem_decided_iff h _).1 hmem)]
    exact .decided _
  · rw [hunit ((forall_decided_iff h _).1 hall)]
    exact .decided _
  · have hnone := mt (mem_decided_iff h _).2 hmem
    obtain ⟨x, hx, hne⟩ : ∃ x ∈ ds, x ≠ verdict unit := by
      simpa using mt (forall_decided_iff h _).2 hall
    have hsome : ∃ x ∈ ds, x.isProper = true := by
      rcases forall_verdict_or_proper h unit x hx with rfl | rfl | hx'
      · exact absurd rfl hne
      · exact absurd hx hnone
      · exact ⟨x, hx, hx'⟩
    obtain ⟨hd, htables⟩ := hproper hnone hsome
    exact .reads hd (htables ▸ readsFrom_flatMap h)

theorem forall_isNormal (h : List.Forall₂ (Of c) fs ds) : ∀ d ∈ ds, d.isNormal = true :=
  fun d hd => Cond.isNormal_iff.2 (forall_verdict_or_proper h true d hd)

/-- A conjunction of conditions reads what that of their footprints says. -/
theorem Of.all (h : List.Forall₂ (Of c) fs ds) : (Footprint.join true fs).Of c (Cond.all ds) := by
  refine .join h (fun hmem => ?_) Cond.all_eq_always fun hnone hproper => ?_
  · rw [Cond.all, if_pos (Cond.any_isNever.2 hmem)]
    rfl
  · have hnever := mt Cond.any_isNever.1 hnone
    rw [Cond.tablesWithin_all_eq, if_neg hnever]
    exact ⟨Cond.isProper_all (forall_isNormal h) hnever hproper, rfl⟩

/-- A disjunction of conditions reads what that of their footprints says. -/
theorem Of.any (h : List.Forall₂ (Of c) fs ds) : (Footprint.join false fs).Of c (Cond.any ds) := by
  refine .join h (fun hmem => ?_) Cond.any_eq_never fun hnone hproper => ?_
  · rw [Cond.any, if_pos (Cond.any_isAlways.2 hmem)]
    rfl
  · have halways := mt Cond.any_isAlways.1 hnone
    rw [Cond.tablesWithin_any_eq, if_neg halways]
    exact ⟨Cond.isProper_any (forall_isNormal h) halways hproper, rfl⟩

end Footprint

/-! ## Filters -/

/-- The tables of the rows that a field relates: the target's, and the one that the relation passes
    through, if there is one. -/
def ObjectField.origins (s : Schema) (f : ObjectField) (target : Entity) : List Origin :=
  .table target.table :: (f.joinTable? s).toList.map .table

/-- The tables of a geometry's segments: the pieces of a literal are found in the tiles first. -/
def GeometrySegments.origins (g : GeometrySegments) : List Origin :=
  [.table g.tiles.table, .table g.table]

/-- What a test on a field reads beside the row.  No value is one of none.  A test on segments asks
    for one that meets the literal, and but for that test itself, also for one that fails. -/
def FieldTest.footprint (f : ScalarField) : FieldTest → Footprint
  | .equals _ | .greater _ _ | .lower _ _ => .reads []
  | .isIn vs => if vs.isEmpty then .decided false else .reads []
  | .spatial t =>
    match f.geometry.bind (·.segments) with
    | some g => .reads (if t.operator = .intersects then g.origins else g.origins ++ g.origins)
    | none => if t.operator = .srid ∨ t.operator = .type then .decided true else .reads []

/-- What a test at the end of a path reads.  An embedded object is in the same row; through a
    relation the test asks for the related rows. -/
def FieldTest.footprintAt (s : Schema) (t : FieldTest) : FieldPath → Entity → Footprint
  | [], _ => .reads []
  | [name], e =>
    match e.scalarField name with
    | .ok f => t.footprint f
    | .error _ => .reads []
  | name :: next :: rest, e =>
    match e.objectField name with
    | .error _ => .reads []
    | .ok f =>
      match s.entity f.target with
      | .error _ => .reads []
      | .ok target =>
        let nested := t.footprintAt s (next :: rest) target
        if f.isEmbedded then nested else .reads (f.origins s target ++ nested.origins)

mutual

/-- What a filter on the rows of an entity reads. -/
def Filter.footprint (s : Schema) (e : Entity) : Filter → Footprint
  | .test path t => t.footprintAt s path e
  | .not f => (f.footprint s e).negate
  | .and fs => .join true (footprints s e fs)
  | .or fs => .join false (footprints s e fs)
termination_by structural f => f

/-- What each of some filters reads. -/
def footprints (s : Schema) (e : Entity) : List Filter → List Footprint
  | [] => []
  | f :: fs => f.footprint s e :: footprints s e fs
termination_by structural fs => fs

end

/-! ## Conditions of tests -/

section
variable {c : Compiler} {s : Scope} {f : ScalarField} {d : Cond} {n n' : Names}

theorem equalsCondition_footprint {v : Value} (h : equalsCondition s f v = .ok d) :
    (Footprint.reads []).Of c d := by
  refine .reads ?_ (.of_nil (equalsCondition_reads h).tables)
  unfold equalsCondition at h
  simp only at h
  split_ifs at h
  all_goals
    obtain rfl := pure_ok.1 h
    rfl

theorem rangeCondition_footprint {op : Sql.Comparison} {v : Value}
    (h : rangeCondition s f op v = .ok d) : (Footprint.reads []).Of c d := by
  refine .reads ?_ (.of_nil (rangeCondition_reads h).tables)
  unfold rangeCondition at h
  split_ifs at h
  obtain rfl := pure_ok.1 h
  rfl

theorem inCondition_footprint {vs : List Value} (h : inCondition s f vs = .ok d) :
    (if vs.isEmpty then Footprint.decided false else .reads []).Of c d := by
  have hreads := (inCondition_reads h).tables
  unfold inCondition at h
  split_ifs at h ⊢
  · obtain rfl := pure_ok.1 h
    exact .decided false
  · obtain rfl := pure_ok.1 h
    exact .single rfl (.of_nil hreads)

theorem SpatialOperator.isPredicate_iff {o : SpatialOperator} :
    o.isPredicate = false ↔ o = .srid ∨ o = .type := by
  cases o <;> simp [isPredicate]

theorem directCondition_footprint {info : GeometryInfo} {t : SpatialTest}
    (h : directCondition c s f info t = .ok d) :
    (if t.operator = .srid ∨ t.operator = .type then Footprint.decided true
      else .reads []).Of c d := by
  have hreads := (directCondition_reads h).tables
  simp only [← SpatialOperator.isPredicate_iff]
  unfold directCondition at h
  cases hpredicate : t.operator.isPredicate with
  | false =>
    rw [hpredicate] at h
    obtain rfl := pure_ok.1 h
    exact .decided true
  | true =>
    rw [hpredicate] at h
    obtain ⟨function, -, h⟩ := bind_ok.1 h
    obtain ⟨literal, -, h⟩ := bind_ok.1 h
    obtain rfl := pure_ok.1 h
    exact .single rfl (.of_nil hreads)

/-- The query of segments reads the tiles, then the segments. -/
theorem segmentQuery_readsFrom {g : GeometrySegments} {literal : Expr}
    {condition : Expr → Expr → Cond} {q : Select}
    (h : segmentQuery c s g literal condition n = .ok (q, n')) (hliteral : literal.IsConstant)
    (hcondition : ∀ l r, (condition (.column l) (.column r)).tablesWithin = []) :
    c.ReadsFrom q.tablesWithin g.origins := by
  unfold segmentQuery at h
  obtain ⟨pieces, n₁, -, h⟩ := bind_run.1 h
  obtain ⟨tiles, n₂, -, h⟩ := bind_run.1 h
  obtain ⟨segments, n₃, -, h⟩ := bind_run.1 h
  obtain ⟨tile, n₄, -, h⟩ := bind_run.1 h
  obtain ⟨piece, n₅, -, h⟩ := bind_run.1 h
  obtain ⟨owner, n₆, -, h⟩ := bind_run.1 h
  obtain ⟨rfl, -⟩ := pure_run.1 h
  change c.ReadsFrom _ ([.table g.tiles.table] ++ [] ++ [] ++ [.table g.table] ++ [])
  refine .select (.unlimited rfl rfl) rfl (.ofSelect (.select (.unlimited rfl rfl) rfl
    (c.readsFrom_table g.tiles.table tiles) .nil ?_ (.of_nil ?_) rfl) pieces)
    (.join (c.readsFrom_table g.table segments) rfl) rfl (.of_nil ?_) rfl
  · simp [Sql.exprTables, Expr.as, Expr.bare, Expr.tablesWithin, hliteral.tables]
  · simp [callCondition, Cond.tablesWithin, Sql.exprTables, Expr.tablesWithin, hliteral.tables]
  · rw [(Cond.Silent.equalities _ _ _).both.1]
    exact hcondition _ _

theorem segmentedCondition_footprint {info : GeometryInfo} {g : GeometrySegments} {t : SpatialTest}
    (h : segmentedCondition c s info g t n = .ok (d, n')) :
    (Footprint.reads (if t.operator = .intersects then g.origins
      else g.origins ++ g.origins)).Of c d := by
  unfold segmentedCondition at h
  obtain ⟨function, n₁, -, h⟩ := bind_run.1 h
  obtain ⟨⟨literal, srid⟩, n₂, hliteral, h⟩ := bind_run.1 h
  obtain ⟨overlapping, n₃, hoverlapping, h⟩ := bind_run.1 h
  have hconstant : Expr.IsConstant
      (if srid = info.srid then literal else transformed literal info.srid) := by
    have hread := literal_isConstant (lift_run.1 hliteral).1
    split
    · exact hread
    · exact transformed_isConstant hread _
  have hreads := segmentQuery_readsFrom hoverlapping hconstant fun _ _ => rfl
  by_cases hoperator : t.operator = .intersects
  · rw [if_pos hoperator] at h ⊢
    obtain ⟨rfl, -⟩ := pure_run.1 h
    exact .single rfl hreads
  · rw [if_neg hoperator] at h ⊢
    obtain ⟨failing, n₄, hfailing, h⟩ := bind_run.1 h
    obtain ⟨rfl, -⟩ := pure_run.1 h
    have hreads' := segmentQuery_readsFrom hfailing hconstant fun _ _ => rfl
    refine .reads rfl ?_
    change c.ReadsFrom (_ ++ (_ ++ [])) _
    rw [List.append_nil]
    exact hreads.append hreads'

theorem spatialCondition_footprint {t : SpatialTest}
    (h : spatialCondition c s f t n = .ok (d, n')) :
    ((FieldTest.spatial t).footprint f).Of c d := by
  unfold spatialCondition at h
  rw [FieldTest.footprint]
  cases hinfo : f.geometry with
  | none =>
    rw [hinfo] at h
    exact (throw_run.1 h).elim
  | some info =>
    rw [hinfo] at h
    rw [Option.bind_some]
    cases hsegments : info.segments with
    | none =>
      simp only [hsegments] at h
      exact directCondition_footprint (lift_run.1 h).1
    | some g =>
      simp only [hsegments] at h
      exact segmentedCondition_footprint h

theorem fieldCondition_footprint {name : String} {t : FieldTest}
    (h : fieldCondition c s name t n = .ok (d, n')) :
    (t.footprintAt c.schema [name] s.entity).Of c d := by
  unfold fieldCondition at h
  obtain ⟨f, n₁, hf, h⟩ := bind_run.1 h
  obtain ⟨hfiltered, rfl⟩ := lift_run.1 hf
  rw [FieldTest.footprintAt, Scope.scalarField_of_filtered hfiltered]
  cases t with
  | equals v => exact equalsCondition_footprint (lift_run.1 h).1
  | greater orEqual v | lower orEqual v => exact rangeCondition_footprint (lift_run.1 h).1
  | isIn vs => exact inCondition_footprint (lift_run.1 h).1
  | spatial t => exact spatialCondition_footprint h

/-- The tables of the rows that a link relates. -/
def Link.origins (l : Link) : List Origin := .table l.child.table :: l.junction?.toList.map .table

theorem Link.origins_of_resolve {e : Entity} {f : ObjectField} {l : Link}
    (h : Link.resolve c.schema e f = .ok l) : l.origins = f.origins c.schema l.child := by
  rw [Link.origins, Link.junction?_of_resolve h, ObjectField.origins]

theorem Link.correlate_readsFrom {l : Link} {parent name : String} {r : Correlation}
    (h : l.correlate c parent name n = .ok (r, n')) :
    c.ReadsFrom (Sql.joinTables r.joins) (l.junction?.toList.map .table) ∧ r.condition.Silent := by
  rw [Link.junction?]
  rcases Link.correlate_cases h with ⟨pairs, htop, -, rfl⟩ | ⟨t, _, _, htop, junction, -, rfl⟩
  · rw [htop]
    exact ⟨.nil, .equalities _ _ _⟩
  · rw [htop]
    exact ⟨.join (c.readsFrom_table t junction) (Cond.tablesWithin_equalities _ _ _),
      .equalities _ _ _⟩

/-- A select of related rows reads the child's table, the junction and what its condition reads. -/
theorem related_readsFrom {l : Link} {parent name : String} {correlation : Correlation}
    {f : Footprint} (h : l.correlate c parent name n = .ok (correlation, n')) (hd : f.Of c d)
    (columns : List Expr)
    (hcolumns : Sql.exprTables columns = []) (more : List Join)
    (hmore : c.ReadsFrom (Sql.joinTables more) []) :
    c.ReadsFrom (Select.tablesWithin {
        tables := [(c.table l.child.table).as name], columns
        joins := correlation.joins ++ more
        condition := correlation.condition.both d }) (l.origins ++ f.origins) := by
  obtain ⟨hjoins, hsilent⟩ := Link.correlate_readsFrom h
  refine .select (.unlimited rfl rfl) rfl (c.readsFrom_table l.child.table name) ?_ hcolumns ?_ rfl
  · rw [Sql.joinTables_append, ← List.append_nil (l.junction?.toList.map Origin.table)]
    exact hjoins.append hmore
  · rw [hsilent.both.1]
    exact hd.readsFrom

theorem pathCondition_footprint {t : FieldTest} : ∀ {path : FieldPath} {s : Scope} {n n' : Names}
    {d : Cond}, pathCondition c t path s n = .ok (d, n') →
      (t.footprintAt c.schema path s.entity).Of c d
  | [], s, n, n', d, h => (throw_run.1 h).elim
  | [name], s, n, n', d, h => fieldCondition_footprint h
  | name :: next :: rest, s, n, n', d, h => by
    rw [pathCondition] at h
    obtain ⟨f, n₁, hf, h⟩ := bind_run.1 h
    obtain ⟨target, n₂, htarget, h⟩ := bind_run.1 h
    obtain ⟨hfield, rfl⟩ := lift_model_run.1 hf
    obtain ⟨hentity, rfl⟩ := lift_model_run.1 htarget
    simp only [FieldTest.footprintAt, hfield, hentity]
    split_ifs at h ⊢
    · exact pathCondition_footprint h
    · obtain ⟨link, n₃, hlink, h⟩ := bind_run.1 h
      obtain ⟨hresolve, rfl⟩ := lift_run.1 hlink
      obtain ⟨child, n₄, -, h⟩ := bind_run.1 h
      obtain ⟨correlation, n₅, hcorrelate, h⟩ := bind_run.1 h
      obtain ⟨condition, n₆, hcondition, h⟩ := bind_run.1 h
      obtain ⟨rfl, -⟩ := pure_run.1 h
      -- the link looks its child up anew
      obtain rfl : link.child = target :=
        Except.ok.inj ((Link.entity_of_resolve hresolve).symm.trans hentity)
      have hreads := related_readsFrom hcorrelate (pathCondition_footprint hcondition)
        [.literal (.int 1)] rfl [] .nil
      rw [Link.origins_of_resolve hresolve, List.append_nil] at hreads
      exact .single rfl hreads

end

/-! ## Conditions of filters -/

mutual

/-- **A condition reads what its filter does.** -/
theorem condition_footprint {c : Compiler} {s : Scope} : ∀ (f : Filter) {n n' : Names} {d : Cond},
    condition c s f n = .ok (d, n') → (f.footprint c.schema s.entity).Of c d
  | .test path t, n, n', d, h => pathCondition_footprint h
  | .not f, n, n', d, h => by
    obtain ⟨d', n₁, hd, h⟩ := bind_run.1 h
    obtain ⟨rfl, -⟩ := pure_run.1 h
    exact (condition_footprint f hd).negate
  | .and fs, n, n', d, h => by
    obtain ⟨ds, n₁, hds, h⟩ := bind_run.1 h
    obtain ⟨rfl, -⟩ := pure_run.1 h
    exact .all (conditions_footprints fs hds)
  | .or fs, n, n', d, h => by
    obtain ⟨ds, n₁, hds, h⟩ := bind_run.1 h
    obtain ⟨rfl, -⟩ := pure_run.1 h
    exact .any (conditions_footprints fs hds)
termination_by structural f => f

theorem conditions_footprints {c : Compiler} {s : Scope} :
    ∀ (fs : List Filter) {n n' : Names} {ds : List Cond}, conditions c s fs n = .ok (ds, n') →
      List.Forall₂ (Footprint.Of c) (footprints c.schema s.entity fs) ds
  | [], n, n', ds, h => by
    obtain ⟨rfl, -⟩ := pure_run.1 h
    exact .nil
  | f :: fs, n, n', ds, h => by
    obtain ⟨d, n₁, hd, h⟩ := bind_run.1 h
    obtain ⟨rest, n₂, hrest, h⟩ := bind_run.1 h
    obtain ⟨rfl, -⟩ := pure_run.1 h
    exact .cons (condition_footprint f hd) (conditions_footprints fs hrest)
termination_by structural fs => fs

end

/-- The conjunction of some filters reads what they do together. -/
theorem conjunction_footprint {c : Compiler} {s : Scope} {fs : List Filter} {n n' : Names}
    {d : Cond} (h : conjunction c s fs n = .ok (d, n')) :
    ((Filter.and fs).footprint c.schema s.entity).Of c d :=
  condition_footprint (.and fs) h

end LateralSql
