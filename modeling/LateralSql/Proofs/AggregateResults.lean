/-
  Where the results of aggregates come from.

  The aggregates of a request are split in two: those that share a select, and those over the
  elements of a list, with a select each.  Their results are merged again in the order of the
  request, so that each is read under the name that its own expression has, in exactly one of these
  selects (`AggregateSelect.Computes`).  All of the selects read the related rows that satisfy the
  filters of the request, and no others (`AggregateSelect.ReadsRelated`).
-/
import LateralSql.Proofs.ColumnSharing
import LateralSql.Proofs.FilterMeaning
import LateralSql.Proofs.NestedFetching

namespace LateralSql

open Sql (Cond Expr Join Select col)

/-! ## Results -/

/-- The names that a select gives to its columns. -/
def Sql.Select.names (s : Select) : List String := s.columns.filterMap Expr.name?

/-- The field of the target that an aggregate reads, if it names one. -/
inductive Aggregate.Reads (a : Aggregate) (target : Entity) : Option ScalarField → Prop
  | rows : a.field = none → Reads a target none
  | field {name : String} {f : ScalarField} : a.field = some name →
      target.scalarField name = .ok f → Reads a target (some f)

/-- The join that reads the elements of a list as rows of one column. -/
def elementsJoin (list : Sql.Column) (elements element : String) : Join where
  kind := .inner
  table := { source := .expr (.unnest (.column list)), name := some elements, columns := [element] }
  on := .always
  lateral := true

namespace AggregateSelect

/-- The select reads the child's table, tied to the parent's row, under all of the filters, and
    joins what is given. -/
structure Over (c : Compiler) (link : Link) (parent : String) (filters : List Filter)
    (l : AggregateSelect) (joins : List Join) : Prop where
  tables : l.select.tables = [(c.table link.child.table).as l.source]
  restricted : ∃ correlation condition n n₁ n₂,
    link.correlate c parent l.source n = .ok (correlation, n₁) ∧
    conjunction c ⟨link.child, l.source⟩ filters n₁ = .ok (condition, n₂) ∧
    l.select.joins = correlation.joins ++ joins ∧
    l.select.condition = correlation.condition.both condition
  whole : l.select.order = [] ∧ l.select.limit = none ∧ l.select.offset = none

/-- The select has the result of an aggregate under the given name.  It is written over the column
    of the child's table that stores the field, or, if the aggregate joins the elements of a list,
    over the elements alone, in a select that has no other column. -/
inductive Computes (c : Compiler) (link : Link) (parent : String) (filters : List Filter)
    (l : AggregateSelect) (a : Aggregate) (e : Expr) (name : String) : Prop
  | column {f : Option ScalarField} : a.joinsElements link.child = false →
      l.Over c link parent filters [] → a.Reads link.child f →
      a.WrittenAs (f.map fun f => (f, col l.source f.column)) e →
      e.named name ∈ l.select.columns → Computes c link parent filters l a e name
  | elements {f : ScalarField} {elements element : String} : a.joinsElements link.child = true →
      l.Over c link parent filters [elementsJoin (col l.source f.column) elements element] →
      a.Reads link.child (some f) → a.WrittenAs (some (f, col elements element)) e →
      l.select.columns = [e.named name] → Computes c link parent filters l a e name

/-- In every database, the rows that the select reads for a row of the parent are the rows that the
    field relates and that satisfy the filters. What is joined to each of them is left out. -/
def ReadsRelated (c : Compiler) (s : Scope) (f : ObjectField) (target : Entity)
    (filters : List Filter) (l : AggregateSelect) : Prop :=
  ∀ (db : Database) (env : Bindings) (row : Row), env.lookup s.name = some row →
    ∃ bs, Select.bindings db { l.select with joins := l.select.joins.filter (!·.lateral) } env =
        some bs ∧
      ∀ other, (∃ b ∈ bs, b.lookup l.source = some other) ↔
        other ∈ c.rows db target.table ∧ f.relates c db s.entity row other = true ∧
          (Filter.and filters).truth c db target other = some .yes

end AggregateSelect

/-- One of the selects has the result of an aggregate under the given name. -/
def ComputedBy (c : Compiler) (link : Link) (parent : String) (filters : List Filter)
    (ls : List AggregateSelect) (a : Aggregate) (name : String) : Prop :=
  ∃ l ∈ ls, ∃ e, l.Computes c link parent filters a e name

theorem ComputedBy.mono {c : Compiler} {link : Link} {parent : String} {filters : List Filter}
    {ls ls' : List AggregateSelect} {a : Aggregate} {name : String}
    (h : ComputedBy c link parent filters ls a name) (hsub : ls ⊆ ls') :
    ComputedBy c link parent filters ls' a name :=
  h.imp fun _ hl => hl.imp_left (hsub ·)

theorem Aggregate.Reads.unique {a : Aggregate} {target : Entity} {f f' : Option ScalarField}
    (h : a.Reads target f) (h' : a.Reads target f') : f = f' := by
  cases h with
  | rows hnone =>
    cases h' with
    | rows => rfl
    | field hname => cases hnone.symm.trans hname
  | field hname hf =>
    cases h' with
    | rows hnone => cases hnone.symm.trans hname
    | field hname' hf' =>
      cases hname.symm.trans hname'
      cases hf.symm.trans hf'
      rfl

/-- A result that joins no elements is the one expression of its aggregate over the rows. -/
theorem AggregateSelect.Computes.mem_columns {c : Compiler} {link : Link} {parent : String}
    {filters : List Filter} {l : AggregateSelect} {a : Aggregate} {e e' : Expr} {name : String}
    {f : Option ScalarField} (h : l.Computes c link parent filters a e name)
    (hjoins : a.joinsElements link.child = false) (hreads : a.Reads link.child f)
    (hwritten : a.WrittenAs (f.map fun f => (f, col l.source f.column)) e') :
    e'.named name ∈ l.select.columns := by
  cases h with
  | elements hjoins' => cases hjoins.symm.trans hjoins'
  | column _ _ hreads' hwritten' hmem =>
    obtain rfl := hreads.unique hreads'
    obtain rfl := hwritten.unique hwritten'
    exact hmem

/-! ## Related rows -/

section
variable {c : Compiler} {db : Database} {child : TableRef} {parent name : String} {d : Cond}
  {g : Row → Truth} {env : Bindings} {row : Row} {columns : List Expr}

/-- The rows that agree with the parent's row and satisfy a condition. -/
theorem bindings_direct (hne : parent ≠ name)
    (hd : ∀ {env : Bindings} {other : Row}, env.lookup name = some other →
      d.truth db env = some (g other))
    (hrow : env.lookup parent = some row) (pairs : List (String × String)) :
    ∃ bs, Select.bindings db {
        tables := [(c.table child).as name], columns
        condition := (Cond.equalities (pairs.map Prod.swap) name parent).both d } env = some bs ∧
      ∀ other, (∃ b ∈ bs, b.lookup name = some other) ↔
        other ∈ c.rows db child ∧ agree db pairs row other = true ∧ g other = .yes := by
  have htruth (other : Row) : (Cond.both (.equalities (pairs.map Prod.swap) name parent) d).truth
      db ((name, other) :: env) =
        some ((Truth.all (pairs.map fun p => db.equal (row.get p.1) (other.get p.2))).and
          (g other)) := by
    have hlookup : List.lookup parent ((name, other) :: env) = some row := by
      rw [List.lookup_cons, beq_false_of_ne hne, hrow]
    have hother : List.lookup name ((name, other) :: env) = some other := by simp
    refine (db.valuation _).cond_both ?_ (hd hother)
    refine (equalities_truth hother hlookup _).trans ?_
    simp only [List.map_map, Function.comp_def, Prod.fst_swap, Prod.snd_swap,
      db.equal_comm (other.get _)]
  refine ⟨_, bindings_table htruth, fun other => ?_⟩
  simp [Truth.and_eq_yes, all_equal_iff_agree]

/-- The rows that a row of the junction ties to the parent's row and that satisfy a condition. -/
theorem bindings_junction {table : TableRef} {junction : String} (hne : parent ≠ name)
    (hparent : parent ≠ junction) (hname : name ≠ junction)
    (hd : ∀ {env : Bindings} {other : Row}, env.lookup name = some other →
      d.truth db env = some (g other))
    (hrow : env.lookup parent = some row) (toParent toChild : List (String × String)) :
    ∃ bs, Select.bindings db {
        tables := [(c.table child).as name], columns
        joins := [⟨.inner, (c.table table).as junction, .equalities toChild junction name, false⟩]
        condition := (Cond.equalities toParent junction parent).both d } env = some bs ∧
      ∀ other, (∃ b ∈ bs, b.lookup name = some other) ↔ other ∈ c.rows db child ∧
        (∃ j ∈ c.rows db table, agree db toParent j row = true ∧ agree db toChild j other = true) ∧
        g other = .yes := by
  have hother (other j : Row) :
      List.lookup name ((junction, j) :: (name, other) :: env) = some other := by
    rw [List.lookup_cons, beq_false_of_ne hname]
    simp
  have hon (other j : Row) : (Cond.equalities toChild junction name).truth db
      ((junction, j) :: (name, other) :: env) =
        some (Truth.all (toChild.map fun p => db.equal (j.get p.1) (other.get p.2))) :=
    equalities_truth (by simp) (hother other j) _
  have htruth (other j : Row) : (Cond.both (.equalities toParent junction parent) d).truth db
      ((junction, j) :: (name, other) :: env) =
        some ((Truth.all (toParent.map fun p => db.equal (j.get p.1) (row.get p.2))).and
          (g other)) := by
    have hlookup : List.lookup parent ((junction, j) :: (name, other) :: env) = some row := by
      rw [List.lookup_cons, beq_false_of_ne hparent, List.lookup_cons, beq_false_of_ne hne, hrow]
    exact (db.valuation _).cond_both (equalities_truth (by simp) hlookup _) (hd (hother other j))
  refine ⟨_, bindings_join (bind_table c db table junction) hon htruth, fun other => ?_⟩
  simp only [List.mem_map, List.mem_filter, List.mem_flatMap, Truth.and_eq_yes,
    all_equal_iff_agree, decide_eq_true_eq]
  constructor
  · rintro ⟨_, ⟨r, ⟨⟨other', hmem, j, ⟨hj, hchild⟩, rfl⟩, hparent, hg⟩, rfl⟩, hlookup⟩
    obtain rfl : other' = other := Option.some.inj ((hother other' j).symm.trans hlookup)
    exact ⟨hmem, ⟨j, hj, hparent, hchild⟩, hg⟩
  · rintro ⟨hmem, ⟨j, hj, hparent, hchild⟩, hg⟩
    exact ⟨_, ⟨(other, j), ⟨⟨other, hmem, j, ⟨hj, hchild⟩, rfl⟩, hparent, hg⟩, rfl⟩,
      hother other j⟩

end

/-- The rows of the child that a correlated select reads. -/
theorem bindings_correlated {c : Compiler} {db : Database} {l : Link} {parent child : String}
    {r : Correlation} {n n' : Names} (h : l.correlate c parent child n = .ok (r, n'))
    (hne : parent ≠ child) (hparent : n.Past parent) (hchild : n.Past child) {d : Cond}
    {g : Row → Truth}
    (hd : ∀ {env : Bindings} {other : Row}, env.lookup child = some other →
      d.truth db env = some (g other))
    {env : Bindings} {row : Row} (hrow : env.lookup parent = some row) (columns : List Expr) :
    ∃ bs, Select.bindings db {
        tables := [(c.table l.child.table).as child], columns, joins := r.joins
        condition := r.condition.both d } env = some bs ∧
      ∀ other, (∃ b ∈ bs, b.lookup child = some other) ↔
        other ∈ c.rows db l.child.table ∧ l.relates c db row other = true ∧ g other = .yes := by
  rcases Link.correlate_cases h with
    ⟨pairs, htop, rfl, rfl⟩ | ⟨table, toParent, toChild, htop, junction, hfresh, rfl⟩
  · simp only [Link.relates, htop]
    exact bindings_direct hne hd hrow pairs
  · have hne₁ : parent ≠ junction := (freshTable_run.1 hfresh).1 ▸ hparent _ (Nat.lt_succ_self _)
    have hne₂ : child ≠ junction := (freshTable_run.1 hfresh).1 ▸ hchild _ (Nat.lt_succ_self _)
    simp only [Link.relates, htop, List.any_eq_true, Bool.and_eq_true]
    exact bindings_junction hne hne₁ hne₂ hd hrow toParent toChild

/-- **The rows that aggregates are computed from** are the related rows that satisfy the filters. -/
theorem aggregateSelect_related {c : Compiler} {es : List Entity}
    (hs : Schema.ofEntities es = .ok c.schema) {s : Scope}
    (he : c.schema.entity s.entity.name = .ok s.entity) {f : ObjectField}
    {name : String} (hf : s.entity.objectField name = .ok f) {link : Link}
    (hlink : Link.resolve c.schema s.entity f = .ok link) {filters : List Filter}
    (hfilters : anySpatial filters = false) {n n' : Names} (hpast : n.Past s.name)
    {l : AggregateSelect} (h : aggregateSelect c link s.name filters n = .ok (l, n'))
    (db : Database) {env : Bindings} {row : Row} (hrow : env.lookup s.name = some row)
    (columns : List Expr) :
    ∃ bs, Select.bindings db { l.select with columns } env = some bs ∧
      ∀ other, (∃ b ∈ bs, b.lookup l.source = some other) ↔
        other ∈ c.rows db link.child.table ∧ f.relates c db s.entity row other = true ∧
          (Filter.and filters).truth c db link.child other = some .yes := by
  obtain ⟨n₁, n₂, n₃, correlation, condition, hwrapper, hsource, hcorrelate, hcondition, heq⟩ :=
    aggregateSelect_run h
  have hpast₁ := hpast.mono (Grows.freshTable hwrapper)
  have hpast₂ := hpast₁.mono (Grows.freshTable hsource)
  obtain ⟨hname, rfl⟩ := freshTable_run.1 hsource
  have hne : s.name ≠ l.source := hname ▸ hpast₁ _ (Nat.lt_succ_self _)
  have hchild : Names.Past { n₁ with tables := n₁.tables + 1 } l.source :=
    hname ▸ Names.past_tableName le_rfl
  have hentity := Schema.entity_name (Link.entity_of_resolve hlink)
  have htruth {env : Bindings} {other : Row} (hother : env.lookup l.source = some other) :
      condition.truth db env =
        some (((Filter.and filters).truth c db link.child other).getD .unknown) := by
    obtain ⟨t, ht, hd⟩ := filter_truth hs db (s := ⟨link.child, l.source⟩) hentity hother
      (.and filters) hfilters hcondition (hchild.mono (Grows.correlate c link _ _ hcorrelate))
    rw [ht, hd, Option.getD_some]
  obtain ⟨bs, hbs, hrows⟩ :=
    bindings_correlated hcorrelate hne hpast₂ hchild htruth hrow columns
  rw [heq]
  refine ⟨bs, hbs, fun other => (hrows other).trans ?_⟩
  rw [Link.relates_of_resolve hs he (Entity.mem_of_objectField hf) hlink]
  cases (Filter.and filters).truth c db link.child other <;> simp

/-! ## Selects of a run -/

/-- The draft with selects joined to each of its rows, and all of their columns. -/
def Draft.withLaterals (d : Draft) (ls : List AggregateSelect) : Draft where
  columns := d.columns ++ ls.map fun l => .star (some l.wrapper)
  joins := d.joins ++ ls.map fun l => {
    kind := .left
    table := { source := .query l.select, name := some l.wrapper }
    on := .always
    lateral := true }

theorem Draft.withLaterals_append (d : Draft) (ls ls' : List AggregateSelect) :
    d.withLaterals (ls ++ ls') = (d.withLaterals ls).withLaterals ls' := by
  simp [Draft.withLaterals]

section
variable {c : Compiler} {link : Link} {parent : String} {filters : List Filter}

/-- A select over the rows of another that joins more to each of them. -/
structure AggregateSelect.BuiltOn (base : AggregateSelect) (joins : List Join)
    (l : AggregateSelect) : Prop where
  source : l.source = base.source
  select : l.select =
    { base.select with columns := l.select.columns, joins := base.select.joins ++ joins }

theorem AggregateSelect.BuiltOn.over {base l : AggregateSelect} {joins : List Join} {n n' : Names}
    (h : base.BuiltOn joins l) (hbase : aggregateSelect c link parent filters n = .ok (base, n')) :
    l.Over c link parent filters joins := by
  obtain ⟨n₁, n₂, n₃, correlation, condition, -, -, hcorrelate, hcondition, heq⟩ :=
    aggregateSelect_run hbase
  have hselect := h.select
  rw [heq] at hselect
  refine ⟨?_, ⟨correlation, condition, n₂, n₃, n', ?_, ?_, ?_, ?_⟩, ?_⟩
  · rw [hselect, h.source]
  · rw [h.source]; exact hcorrelate
  · rw [h.source]; exact hcondition
  · rw [hselect]
  · rw [hselect]
  · rw [hselect]; exact ⟨rfl, rfl, rfl⟩

/-- What aggregates join between two states of the names: selects over the related rows, whose
    columns are all named anew. -/
structure AggregateSelects (c : Compiler) (link : Link) (parent : String) (filters : List Filter)
    (n n' : Names) (ls : List AggregateSelect) : Prop where
  le : n ≤ n'
  names : NewColumns n n' (ls.flatMap (·.select.names))
  built : ∀ l ∈ ls, ∃ base joins m m', n ≤ m ∧
    aggregateSelect c link parent filters m = .ok (base, m') ∧ base.BuiltOn joins l ∧
    (joins = [] ∨ ∃ list elements element, joins = [elementsJoin list elements element])

namespace AggregateSelects

variable {n n₁ n' : Names} {ls ls' : List AggregateSelect}

theorem nil (c : Compiler) (link : Link) (parent : String) (filters : List Filter) (n : Names) :
    AggregateSelects c link parent filters n n [] :=
  ⟨le_rfl, .nil _ _ _, List.forall_mem_nil _⟩

theorem append (h : AggregateSelects c link parent filters n n₁ ls)
    (h' : AggregateSelects c link parent filters n₁ n' ls') :
    AggregateSelects c link parent filters n n' (ls ++ ls') := by
  refine ⟨h.le.trans h'.le, ?_, fun l hl => ?_⟩
  · rw [List.flatMap_append]
    exact h.names.append h'.names h.le h'.le
  · rcases List.mem_append.1 hl with hl | hl
    · exact h.built l hl
    · obtain ⟨base, joins, m, m', hle, hbuilt⟩ := h'.built l hl
      exact ⟨base, joins, m, m', h.le.trans hle, hbuilt⟩

end AggregateSelects

/-! ### Shared selects -/

theorem Aggregate.reads_of_sourced {target : Entity} {p : SourcedAggregate}
    (h : p.1.sourced target = .ok p) : p.1.Reads target p.2 := by
  obtain ⟨a, f⟩ := p
  unfold Aggregate.sourced at h
  cases hfield : a.field with
  | none =>
    rw [hfield] at h
    obtain ⟨-, rfl⟩ := Prod.mk.inj (pure_ok.1 h)
    exact .rows hfield
  | some name =>
    rw [hfield] at h
    obtain ⟨g, hg, h⟩ := bind_ok.1 h
    obtain ⟨-, rfl⟩ := Prod.mk.inj (pure_ok.1 h)
    exact .field hfield hg

theorem sharedResults_written {source : String} {as : List SourcedAggregate}
    {rs : List (Expr × String)} {n n' : Names} (h : sharedResults source as n = .ok (rs, n')) :
    (rs.map (·.1)).filterMap Expr.name? = rs.map (·.2) ∧
      List.Forall₂ (fun p name =>
        ∃ e, p.1.WrittenAs (p.2.map fun f => (f, col source f.column)) e ∧
          e.named name ∈ rs.map (·.1)) as (rs.map (·.2)) := by
  induction as generalizing n rs with
  | nil =>
    obtain ⟨rfl, -⟩ := pure_run.1 h
    exact ⟨rfl, .nil⟩
  | cons p as ih =>
    unfold sharedResults at h
    obtain ⟨name, n₁, -, h⟩ := bind_run.1 h
    obtain ⟨e, n₂, he, h⟩ := bind_run.1 h
    obtain ⟨rest, n₃, hrest, h⟩ := bind_run.1 h
    obtain ⟨rfl, rfl⟩ := pure_run.1 h
    obtain ⟨hnames, hwritten⟩ := ih hrest
    have he' := Aggregate.expr_ok.1 (lift_run.1 he).1
    rw [he'.as]
    refine ⟨congrArg (name :: ·) hnames, .cons ⟨e, he', List.mem_cons_self⟩ (hwritten.imp ?_)⟩
    rintro q x ⟨e', he', hmem⟩
    exact ⟨e', he', List.mem_cons_of_mem _ hmem⟩

theorem aggregateSelect_le {l : AggregateSelect} {n n' : Names}
    (h : aggregateSelect c link parent filters n = .ok (l, n')) : n ≤ n' := by
  obtain ⟨n₁, n₂, n₃, correlation, condition, hwrapper, hsource, hcorrelate, hcondition, -⟩ :=
    aggregateSelect_run h
  exact (((Grows.freshTable hwrapper).trans (Grows.freshTable hsource)).trans
    (Grows.correlate c link _ _ hcorrelate)).trans (Grows.conjunction c _ _ hcondition)

theorem selectShared_computes {as : List SourcedAggregate}
    (has : ∀ p ∈ as, p.1.sourced link.child = .ok p ∧ p.isUnnested = false) {names : List String}
    {d d' : Draft} {n n' : Names}
    (h : selectShared c link parent filters as d n = .ok ((names, d'), n')) :
    ∃ ls, d' = d.withLaterals ls ∧ AggregateSelects c link parent filters n n' ls ∧
      List.Forall₂ (fun p => ComputedBy c link parent filters ls p.1) as names := by
  unfold selectShared at h
  split_ifs at h with hempty
  · obtain ⟨rfl, rfl, rfl⟩ := draft_pure_run.1 h
    rw [List.isEmpty_iff.1 hempty]
    exact ⟨[], by simp [Draft.withLaterals], .nil c link parent filters n, .nil⟩
  · obtain ⟨base, _, n₁, hs, h⟩ := draft_bind_run.1 h
    obtain ⟨results, _, n₂, hresults, h⟩ := draft_bind_run.1 h
    obtain ⟨_, _, n₃, hjoin, h⟩ := draft_bind_run.1 h
    obtain ⟨rfl, rfl, rfl⟩ := draft_pure_run.1 h
    obtain ⟨rfl, rfl⟩ := joinLateral_run.1 hjoin
    obtain ⟨hbase, rfl⟩ := draft_compile_run.1 hs
    obtain ⟨hshared, rfl⟩ := draft_compile_run.1 hresults
    obtain ⟨hnames, hwritten⟩ := sharedResults_written hshared
    obtain ⟨hle, hnew, -⟩ := sharedResults_run hshared
    have hle₁ := aggregateSelect_le hbase
    let l : AggregateSelect :=
      { base with select := { base.select with columns := results.map (·.1) } }
    have hbuilt : base.BuiltOn [] l := ⟨rfl, by simp [l]⟩
    refine ⟨[l], rfl, ⟨hle₁.trans hle, ?_, ?_⟩, ?_⟩
    · rw [List.flatMap_singleton, Select.names, hnames]
      exact hnew.mono hle₁.2 le_rfl
    · exact List.forall_mem_singleton.2
        ⟨base, [], n, n₁, le_rfl, hbase, hbuilt, .inl rfl⟩
    · refine ((List.forall₂_and_left _ _).2 ⟨has, hwritten⟩).imp ?_
      rintro p name ⟨⟨hp, hshared⟩, e, he, hmem⟩
      rw [(Aggregate.sourced_ok hp).2] at hshared
      exact ⟨l, List.mem_singleton_self l, e,
        .column hshared (hbuilt.over hbase) (Aggregate.reads_of_sourced hp) he hmem⟩

/-! ### Selects over elements -/

theorem selectUnnested_computes {p : SourcedAggregate} (hp : p.1.sourced link.child = .ok p)
    (hunnested : p.isUnnested = true) {name : String} {d d' : Draft} {n n' : Names}
    (h : selectUnnested c link parent filters p d n = .ok ((name, d'), n')) :
    ∃ l, d' = d.withLaterals [l] ∧ AggregateSelects c link parent filters n n' [l] ∧
      ∃ e, l.Computes c link parent filters p.1 e name := by
  obtain ⟨a, _ | f⟩ := p
  · cases hunnested
  unfold selectUnnested at h
  obtain ⟨base, _, n₁, hs, h⟩ := draft_bind_run.1 h
  obtain ⟨elements, _, n₂, helements, h⟩ := draft_bind_run.1 h
  obtain ⟨element, _, n₃, helement, h⟩ := draft_bind_run.1 h
  obtain ⟨result, _, n₄, hname, h⟩ := draft_bind_run.1 h
  obtain ⟨e, _, n₅, he, h⟩ := draft_bind_run.1 h
  obtain ⟨_, _, n₆, hjoin, h⟩ := draft_bind_run.1 h
  obtain ⟨rfl, rfl, rfl⟩ := draft_pure_run.1 h
  obtain ⟨rfl, rfl⟩ := joinLateral_run.1 hjoin
  obtain ⟨hexpr, rfl, rfl⟩ := draft_lift_run.1 he
  obtain ⟨hfresh, rfl⟩ := draft_compile_run.1 hname
  obtain ⟨hfresh₂, rfl⟩ := draft_compile_run.1 helement
  obtain ⟨hfresh₁, rfl⟩ := draft_compile_run.1 helements
  obtain ⟨hbase, rfl⟩ := draft_compile_run.1 hs
  have hle := ((aggregateSelect_le hbase).trans (Grows.freshTable hfresh₁)).trans
    (Grows.freshColumn hfresh₂)
  let join := elementsJoin (col base.source f.column) elements element
  let l : AggregateSelect := { base with
    select := { base.select with columns := [e.as result], joins := base.select.joins ++ [join] } }
  have hbuilt : base.BuiltOn [join] l := ⟨rfl, rfl⟩
  have hwritten := Aggregate.expr_ok.1 hexpr
  refine ⟨l, rfl, ⟨hle.trans (Grows.freshColumn hfresh), ?_, ?_⟩, e, ?_⟩
  · exact (newColumns_of_freshColumn hfresh).mono hle.2 le_rfl
  · exact List.forall_mem_singleton.2
      ⟨base, [join], n, n₁, le_rfl, hbase, hbuilt, .inr ⟨_, _, _, rfl⟩⟩
  · exact .elements ((Aggregate.sourced_ok hp).2 ▸ hunnested) (hbuilt.over hbase)
      (Aggregate.reads_of_sourced hp) hwritten (congrArg ([·]) (hwritten.as result))

theorem selectUnnested_compute {as : List SourcedAggregate}
    (has : ∀ p ∈ as, p.1.sourced link.child = .ok p ∧ p.isUnnested = true) {names : List String}
    {d d' : Draft} {n n' : Names}
    (h : as.mapM (selectUnnested c link parent filters) d n = .ok ((names, d'), n')) :
    ∃ ls, d' = d.withLaterals ls ∧ AggregateSelects c link parent filters n n' ls ∧
      List.Forall₂ (fun p => ComputedBy c link parent filters ls p.1) as names := by
  induction as generalizing d n names with
  | nil =>
    obtain ⟨rfl, rfl, rfl⟩ := draft_pure_run.1 h
    exact ⟨[], by simp [Draft.withLaterals], .nil c link parent filters n, .nil⟩
  | cons p as ih =>
    obtain ⟨hp, has⟩ := List.forall_mem_cons.1 has
    rw [List.mapM_cons] at h
    obtain ⟨name, d₁, n₁, hname, h⟩ := draft_bind_run.1 h
    obtain ⟨rest, d₂, n₂, hrest, h⟩ := draft_bind_run.1 h
    obtain ⟨rfl, rfl, rfl⟩ := draft_pure_run.1 h
    obtain ⟨l, rfl, hl, hcomputes⟩ := selectUnnested_computes hp.1 hp.2 hname
    obtain ⟨ls, rfl, hls, hcompute⟩ := ih has hrest
    refine ⟨[l] ++ ls, (d.withLaterals_append _ _).symm, hl.append hls,
      .cons ⟨l, List.mem_cons_self, hcomputes⟩ (hcompute.imp fun _ _ hq => hq.mono ?_)⟩
    exact List.subset_append_right _ _

/-! ## Merged results -/

/-- Merging puts the results of the two parts of a list back to their elements. -/
theorem forall₂_unsplit {α β : Type} {R : α → β → Prop} {p : α → Bool} {as : List α}
    {yes no : List β} (hyes : List.Forall₂ R (as.filter p) yes)
    (hno : List.Forall₂ R (as.filter (!p ·)) no) : List.Forall₂ R as (unsplit p as yes no) := by
  induction as generalizing yes no with
  | nil => exact .nil
  | cons a as ih =>
    cases ha : p a with
    | true =>
      rw [List.filter_cons_of_pos ha] at hyes
      rw [List.filter_cons_of_neg (by simp [ha])] at hno
      cases hyes with
      | cons hy hyes =>
        rw [unsplit]
        · exact .cons hy (ih hyes hno)
        · exact ha
    | false =>
      rw [List.filter_cons_of_neg (by simp [ha])] at hyes
      rw [List.filter_cons_of_pos (by simp [ha])] at hno
      cases hno with
      | cons hn hno =>
        rw [unsplit]
        · exact .cons hn (ih hyes hno)
        · exact ha

/-- Labels and names side by side, as readers of columns. -/
theorem forall₂_columns {R : Aggregate → String → Prop} {as : List Aggregate} {names : List String}
    (h : List.Forall₂ R as names) :
    List.Forall₂ (fun a field => ∃ name, field = (a.label, FieldReader.column name) ∧ R a name) as
      ((as.map (·.label)).zip (names.map .column)) := by
  induction h with
  | nil => exact .nil
  | cons hR _ ih => exact .cons ⟨_, rfl, hR⟩ ih

/-- The select of a result has it under a name that no other select gives. -/
theorem AggregateSelects.alone {n n' : Names} {ls : List AggregateSelect}
    (hls : AggregateSelects c link parent filters n n' ls) {l : AggregateSelect} (hl : l ∈ ls)
    {a : Aggregate} {e : Expr} {name : String} (h : l.Computes c link parent filters a e name) :
    ls.filter (fun l => name ∈ l.select.names) = [l] ∧
      l.select.columns.filter (fun e' => e'.name? = some name) = [e.named name] := by
  have hmem : e.named name ∈ l.select.columns := by
    cases h with
    | column _ _ _ _ hmem => exact hmem
    | elements _ _ _ _ hcolumns => exact hcolumns ▸ List.mem_singleton_self _
  have hname : name ∈ l.select.names := List.mem_filterMap.2 ⟨_, hmem, rfl⟩
  have hnodup := hls.names.nodup
  refine ⟨filter_mem_eq_singleton hnodup hl hname, filter_eq_singleton ?_ hmem rfl⟩
  exact (List.nodup_flatMap.1 hnodup).1 l hl

end

/-- The tables of a relation are joined to all rows alike. -/
theorem aggregateSelect_lateral {c : Compiler} {link : Link} {parent : String}
    {filters : List Filter} {l : AggregateSelect} {n n' : Names}
    (h : aggregateSelect c link parent filters n = .ok (l, n')) :
    ∀ j ∈ l.select.joins, j.lateral = false := by
  obtain ⟨_, _, _, correlation, condition, -, -, hcorrelate, -, heq⟩ := aggregateSelect_run h
  rw [heq]
  rcases Link.correlate_cases hcorrelate with ⟨_, -, -, rfl⟩ | ⟨_, _, _, -, _, -, rfl⟩
  · exact List.forall_mem_nil _
  · exact List.forall_mem_singleton.2 rfl

/-- What a select over elements joins beside the tables of the relation is left out. -/
theorem AggregateSelects.readsRelated {c : Compiler} {es : List Entity}
    (hs : Schema.ofEntities es = .ok c.schema) {s : Scope}
    (he : c.schema.entity s.entity.name = .ok s.entity) {f : ObjectField} {name : String}
    (hf : s.entity.objectField name = .ok f) {link : Link}
    (hlink : Link.resolve c.schema s.entity f = .ok link) {filters : List Filter}
    (hfilters : anySpatial filters = false) {n n' : Names} (hpast : n.Past s.name)
    {ls : List AggregateSelect} (hls : AggregateSelects c link s.name filters n n' ls)
    {l : AggregateSelect} (hl : l ∈ ls) : l.ReadsRelated c s f link.child filters := by
  intro db env row hrow
  obtain ⟨base, joins, m, m', hle, hbase, hbuilt, hjoins⟩ := hls.built l hl
  have hstored : l.select.joins.filter (!·.lateral) = base.select.joins := by
    rw [congrArg Select.joins hbuilt.select, List.filter_append,
      List.filter_eq_self.2 (by simpa using aggregateSelect_lateral hbase)]
    rcases hjoins with rfl | ⟨_, _, _, rfl⟩ <;> simp [elementsJoin]
  have hselect : { l.select with joins := base.select.joins } =
      { base.select with columns := l.select.columns } :=
    congrArg (fun t : Select => { t with joins := base.select.joins }) hbuilt.select
  rw [hstored, hselect, hbuilt.source]
  exact aggregateSelect_related hs he hf hlink hfilters (hpast.mono hle) hbase db hrow _

theorem Aggregate.mapM_sourced {as : List Aggregate} {target : Entity} {ps : List SourcedAggregate}
    (h : as.mapM (Aggregate.sourced target) = .ok ps) :
    as = ps.map (·.1) ∧ ∀ p ∈ ps, p.1.sourced target = .ok p := by
  refine ⟨?_, fun p hp => ?_⟩
  · have hall := map_filter_sourced h fun _ => true
    rwa [List.filter_true, List.filter_true, eq_comm] at hall
  · obtain ⟨a, -, ha⟩ := (mem_mapM_ok h).1 hp
    rwa [(Aggregate.sourced_ok ha).1]

/-- The selects of a request, and a name for each aggregate that one of them computes. -/
theorem selectAggregates_computes {c : Compiler} {s : Scope} {r : AggregateRequest} {d d' : Draft}
    {n n' : Names} {reader : String × FieldReader}
    (h : selectAggregates c s r d n = .ok ((reader, d'), n')) :
    ∃ f link ls names, s.entity.objectField r.field = .ok f ∧
      Link.resolve c.schema s.entity f = .ok link ∧ d' = d.withLaterals ls ∧
      AggregateSelects c link s.name r.filters n n' ls ∧
      List.Forall₂ (ComputedBy c link s.name r.filters ls) r.aggregates names ∧
      reader = (r.label, .object {
        fields := (r.aggregates.map (·.label)).zip (names.map .column) }) := by
  unfold selectAggregates at h
  obtain ⟨f, _, n₁, hfield, h⟩ := draft_bind_run.1 h
  obtain ⟨link, _, n₂, hlink, h⟩ := draft_bind_run.1 h
  obtain ⟨sourced, _, n₃, hsourced, h⟩ := draft_bind_run.1 h
  obtain ⟨shared, d₁, n₄, hshared, h⟩ := draft_bind_run.1 h
  obtain ⟨unnested, d₂, n₅, hunnested, h⟩ := draft_bind_run.1 h
  obtain ⟨rfl, rfl, rfl⟩ := draft_pure_run.1 h
  obtain ⟨hfields, rfl, rfl⟩ := draft_lift_model_run.1 hsourced
  obtain ⟨hresolve, rfl, rfl⟩ := draft_lift_run.1 hlink
  obtain ⟨hobject, rfl, rfl⟩ := draft_lift_model_run.1 hfield
  obtain ⟨haggregates, hsource⟩ := Aggregate.mapM_sourced hfields
  obtain ⟨ls, rfl, hls, hcomputes⟩ := selectShared_computes
    (fun p hp => ⟨hsource p (List.mem_filter.1 hp).1, by simpa using (List.mem_filter.1 hp).2⟩)
    hshared
  obtain ⟨ls', rfl, hls', hcomputes'⟩ := selectUnnested_compute
    (fun p hp => ⟨hsource p (List.mem_filter.1 hp).1, (List.mem_filter.1 hp).2⟩) hunnested
  refine ⟨f, link, ls ++ ls', _, hobject, hresolve, (d.withLaterals_append ls ls').symm,
    hls.append hls', ?_, rfl⟩
  rw [haggregates, List.forall₂_map_left_iff]
  exact forall₂_unsplit (hcomputes'.imp fun _ _ h => h.mono (List.subset_append_right _ _))
    (hcomputes.imp fun _ _ h => h.mono (List.subset_append_left _ _))

/-- **Each aggregate is read from its own expression.**  Let a request of aggregates compile.  Its
    object has a field for each aggregate, in order, which is read under a name that one of the
    selects joined for the request gives, and no other: the name of the aggregate's own expression,
    over the column of the child's table, or over the elements of a list in a select of its own.
    All of the selects are tied to the parent's row and have all of the filters; in every database
    they read the related rows that satisfy the filters, and no others. -/
theorem aggregates_read_own {c : Compiler} {s : Scope} {r : AggregateRequest} {d d' : Draft}
    {n n' : Names} {reader : String × FieldReader}
    (h : selectAggregates c s r d n = .ok ((reader, d'), n')) :
    ∃ f link ls fields, s.entity.objectField r.field = .ok f ∧
      Link.resolve c.schema s.entity f = .ok link ∧ d' = d.withLaterals ls ∧
      reader = (r.label, .object { fields }) ∧
      List.Forall₂ (fun a field => ∃ name, field = (a.label, FieldReader.column name) ∧
        ∃ l e, ls.filter (fun l => name ∈ l.select.names) = [l] ∧
          l.select.columns.filter (fun e' => e'.name? = some name) = [e.named name] ∧
          l.Computes c link s.name r.filters a e name) r.aggregates fields ∧
      ∀ l ∈ ls, (∃ joins, l.Over c link s.name r.filters joins ∧
          (joins = [] ∨ ∃ list elements element, joins = [elementsJoin list elements element])) ∧
        ∀ es, Schema.ofEntities es = .ok c.schema → c.schema.entity s.entity.name = .ok s.entity →
          n.Past s.name → anySpatial r.filters = false →
          l.ReadsRelated c s f link.child r.filters := by
  obtain ⟨f, link, ls, names, hobject, hresolve, hd, hls, hcomputes, rfl⟩ :=
    selectAggregates_computes h
  refine ⟨f, link, ls, _, hobject, hresolve, hd, rfl, ?_, ?_⟩
  · refine (forall₂_columns hcomputes).imp ?_
    rintro a field ⟨name, rfl, l, hl, e, hcomputes⟩
    obtain ⟨halone, hcolumn⟩ := hls.alone hl hcomputes
    exact ⟨name, rfl, l, e, halone, hcolumn, hcomputes⟩
  · intro l hl
    refine ⟨?_, fun es hs he hpast hfilters =>
      hls.readsRelated hs he hobject hresolve hfilters hpast hl⟩
    obtain ⟨base, joins, m, m', -, hbase, hbuilt, hjoins⟩ := hls.built l hl
    exact ⟨joins, hbuilt.over hbase, hjoins⟩

/-- The number of a book's loans after the third, their readers, each of them once, the first loan
    and the mean of their numbers. -/
def loanStatistics : AggregateRequest where
  field := "loans"
  label := "stats"
  aggregates := [
    { label := "count", function := .count },
    { label := "readers", function := .join, field := some "readers", distinct := true },
    { label := "first", function := .min, field := some "id" },
    { label := "mean", function := .avg, field := some "id" }]
  filters := [.test ["id"] (.greater false (.int 3))]

/-- The readers are those of a select of their own; the others are numbers over the loans. -/
theorem aggregates_read_own_loans :
    Names.Past ⟨1, 0⟩ "t1" ∧
    Schema.ofEntities [book, author, imprint, loan] = .ok library.schema ∧
    ∃ d' n' f link ls,
      selectAggregates library ⟨book, "t1"⟩ loanStatistics {} ⟨1, 0⟩ =
        .ok ((("stats", .object { fields := [
          ("count", .column "x1"), ("readers", .column "x5"),
          ("first", .column "x2"), ("mean", .column "x3")] }), d'), n') ∧
      d' = ({} : Draft).withLaterals ls ∧ Link.resolve library.schema book f = .ok link ∧
      (∃ l, ls.filter (fun l => "x1" ∈ l.select.names) = [l] ∧
        Expr.countAll.named "x1" ∈ l.select.columns) ∧
      (∃ l elements element, ls.filter (fun l => "x5" ∈ l.select.names) = [l] ∧
        l.select.columns = [
          (Expr.stringAgg true (.column (col elements element)) (.param (.string ","))).named
            "x5"] ∧
        l.Over library link "t1" loanStatistics.filters
          [elementsJoin (col l.source "readers") elements element]) ∧
      (∃ l, ls.filter (fun l => "x2" ∈ l.select.names) = [l] ∧
        (Expr.cast (.aggregate .min (.column (col l.source "id"))) "integer").named "x2" ∈
          l.select.columns) ∧
      (∃ l, ls.filter (fun l => "x3" ∈ l.select.names) = [l] ∧
        (Expr.cast (.aggregate .avg (.column (col l.source "id"))) "decimal").named "x3" ∈
          l.select.columns) ∧
      ∀ l ∈ ls, l.ReadsRelated library ⟨book, "t1"⟩ f link.child loanStatistics.filters := by
  have hpast : Names.Past ⟨1, 0⟩ "t1" := Names.past_tableName (k := 1) le_rfl
  obtain ⟨d', n', hrun⟩ : ∃ d' n',
      selectAggregates library ⟨book, "t1"⟩ loanStatistics {} ⟨1, 0⟩ =
        .ok ((("stats", .object { fields := [
          ("count", .column "x1"), ("readers", .column "x5"),
          ("first", .column "x2"), ("mean", .column "x3")] }), d'), n') :=
    ⟨_, _, rfl⟩
  obtain ⟨f, link, ls, fields, hf, hlink, hd, hreader, hfields, hls⟩ := aggregates_read_own hrun
  cases hreader
  cases hf
  have hchild : link.child = loan :=
    Except.ok.inj ((Link.entity_of_resolve hlink).symm.trans rfl)
  have hid : link.child.scalarField "id" = .ok { name := "id", column := "id", type := .int } := by
    rw [hchild]; rfl
  have hlist : link.child.scalarField "readers" =
      .ok { name := "readers", column := "readers", type := .string, isList := true } := by
    rw [hchild]; rfl
  obtain ⟨⟨_, hname₁, l₁, e₁, halone₁, -, hcount⟩, hfields⟩ := List.forall₂_cons.1 hfields
  obtain ⟨⟨_, hname₂, l₂, e₂, halone₂, -, hreaders⟩, hfields⟩ := List.forall₂_cons.1 hfields
  obtain ⟨⟨_, hname₃, l₃, e₃, halone₃, -, hfirst⟩, hfields⟩ := List.forall₂_cons.1 hfields
  obtain ⟨_, hname₄, l₄, e₄, halone₄, -, hmean⟩ := (List.forall₂_cons.1 hfields).1
  cases hname₁
  cases hname₂
  cases hname₃
  cases hname₄
  refine ⟨hpast, rfl, d', n', _, link, ls, hrun, hd, hlink, ⟨l₁, halone₁, ?_⟩, ?_,
    ⟨l₃, halone₃, ?_⟩, ⟨l₄, halone₄, ?_⟩, fun l hl =>
      (hls l hl).2 [book, author, imprint, loan] rfl rfl hpast rfl⟩
  · exact hcount.mem_columns rfl (.rows rfl) (.rows rfl rfl)
  · cases hreaders with
    | column hjoins => rw [hchild] at hjoins; cases hjoins
    | elements _ hover hreads hwritten hcolumns =>
      cases hreads.unique (.field rfl hlist)
      obtain rfl := hwritten.unique (.texts rfl rfl)
      exact ⟨l₂, _, _, halone₂, hcolumns, hover⟩
  · exact hfirst.mem_columns (hchild ▸ rfl) (.field rfl hid)
      (.number .min (.inl rfl) rfl rfl (.whole rfl (by decide) (by decide)))
  · exact hmean.mem_columns (hchild ▸ rfl) (.field rfl hid)
      (.number .avg (.inl rfl) rfl rfl (.fraction rfl (.inl rfl)))

end LateralSql
