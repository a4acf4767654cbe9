/-
  Filters mean what their conditions say.

  The truth of a filter is defined on the request's side, by the row of its entity and the
  rows related to it (`Filter.truth`); nothing in it knows about conditions, names or joins.
  A filter that compiles becomes a condition with the same truth, wherever the name of its
  scope is bound to the row (`condition_truth`).
-/
import LateralSql.Proofs.Connectives
import LateralSql.Proofs.Relations
import LateralSql.Proofs.ValueOrder

namespace LateralSql

open Sql (Cond Expr Select col)

/-! ## The truth of filters -/

/-- Whether a value is among the elements of a list. -/
def isElement (db : Database) (v : Value) : Value → Truth
  | .list items => .any (items.map (db.equal · v))
  | _ => .unknown

/-- The truth of a test on a field that has the value `cell`. Spatial tests have none here. -/
def FieldTest.truth (db : Database) (isList : Bool) (cell : Value) : FieldTest → Option Truth
  | .equals v =>
    if v.isNull then some (.ofBool cell.isNull)
    else if isList then some (isElement db v cell)
    else some (db.equal cell v)
  | .greater orEqual v => some (db.test cell v fun o => o = .gt || (orEqual && o = .eq))
  | .lower orEqual v => some (db.test cell v fun o => o = .lt || (orEqual && o = .eq))
  | .isIn vs => some (.any (vs.map (db.equal cell)))
  | .spatial _ => none

/-- The truth of a test at the end of a path from a row of `e`. An embedded object is in the same
    row; of related rows one has to satisfy the rest. -/
def pathTruth (c : Compiler) (db : Database) (t : FieldTest) :
    FieldPath → Entity → Row → Option Truth
  | [], _, _ => none
  | [name], e, row => do
    let f ← (e.scalarField name).toOption
    t.truth db f.isList (row.get f.column)
  | name :: next :: rest, e, row => do
    let f ← (e.objectField name).toOption
    let target ← (c.schema.entity f.target).toOption
    if f.isEmbedded then pathTruth c db t (next :: rest) target row
    else
      return .ofBool ((c.rows db target.table).any fun other =>
        f.relates c db e row other && pathTruth c db t (next :: rest) target other = some .yes)

mutual

/-- The truth of a filter for a row of `e`. -/
def Filter.truth (c : Compiler) (db : Database) (e : Entity) (row : Row) : Filter → Option Truth
  | .test path t => pathTruth c db t path e row
  | .not f => (f.truth c db e row).map .not
  | .and fs => (filterTruths c db e row fs).map .all
  | .or fs => (filterTruths c db e row fs).map .any
termination_by structural f => f

/-- The truths of some filters for a row of `e`. -/
def filterTruths (c : Compiler) (db : Database) (e : Entity) (row : Row) :
    List Filter → Option (List Truth)
  | [] => some []
  | f :: fs => do return (← f.truth c db e row) :: (← filterTruths c db e row fs)
termination_by structural fs => fs

end

/-- Whether a test is spatial. -/
def FieldTest.isSpatial : FieldTest → Bool
  | .spatial _ => true
  | _ => false

mutual

/-- Whether one of the tests of a filter is spatial. -/
def Filter.isSpatial : Filter → Bool
  | .test _ t => t.isSpatial
  | .not f => f.isSpatial
  | .and fs => anySpatial fs
  | .or fs => anySpatial fs
termination_by structural f => f

/-- Whether one of the tests of some filters is spatial. -/
def anySpatial : List Filter → Bool
  | [] => false
  | f :: fs => f.isSpatial || anySpatial fs
termination_by structural fs => fs

end

/-! ## Tests on a field -/

section
variable {db : Database} {s : Scope} {f : ScalarField} {env : Bindings} {row : Row} {d : Cond}

theorem value_scope (hrow : env.lookup s.name = some row) (f : ScalarField) :
    (Expr.column (s.column f)).value env = some (row.get f.column) :=
  Expr.value_col hrow f.column

theorem equalsSome_eq_isElement (db : Database) (v cell : Value) :
    Sql.equalsSome db v cell = isElement db v cell := by
  cases cell with
  | list items =>
    rw [Sql.equalsSome, isElement, Truth.any_eq_someOf]
    congr 2
    funext item
    exact db.equal_comm v item
  | _ => rfl

theorem equalsCondition_truth {v : Value} (hrow : env.lookup s.name = some row)
    (h : equalsCondition s f v = .ok d) :
    d.truth db env = (FieldTest.equals v).truth db f.isList (row.get f.column) := by
  have hcol := value_scope hrow f
  unfold equalsCondition at h
  rw [FieldTest.truth]
  split_ifs at h ⊢ with hnull hlist
  · obtain rfl := pure_ok.1 h
    simp [Cond.truth, Expr.truth, hcol]
  · obtain rfl := pure_ok.1 h
    simp [Cond.truth, Expr.truth, hcol, equalsSome_eq_isElement]
  · obtain rfl := pure_ok.1 h
    simp only [Cond.truth, Expr.truth, Expr.equals, hcol, Expr.value_param]
    rfl

theorem rangeCondition_truth {op : Sql.Comparison} {v : Value}
    (hrow : env.lookup s.name = some row) (h : rangeCondition s f op v = .ok d) :
    d.truth db env = some (db.test (row.get f.column) v op.holds) := by
  unfold rangeCondition at h
  split_ifs at h
  obtain rfl := pure_ok.1 h
  simp [Cond.truth, Expr.truth, value_scope hrow f]

theorem inCondition_truth {vs : List Value} (hrow : env.lookup s.name = some row)
    (h : inCondition s f vs = .ok d) :
    d.truth db env = (FieldTest.isIn vs).truth db f.isList (row.get f.column) := by
  unfold inCondition at h
  rw [FieldTest.truth]
  split_ifs at h with _ hempty
  · obtain rfl := pure_ok.1 h
    rw [List.isEmpty_iff.1 hempty, Cond.truth]; rfl
  · obtain rfl := pure_ok.1 h
    simp only [Cond.truth, Expr.truth, value_scope hrow f, Sql.mapM_value_params,
      Truth.any_eq_someOf]
    rfl

end

/-- **A test on a field of the row itself.** -/
theorem fieldCondition_truth {c : Compiler} {db : Database} {s : Scope} {name : String}
    {t : FieldTest} (ht : t.isSpatial = false) {n n' : Names} {d : Cond}
    (h : fieldCondition c s name t n = .ok (d, n')) {env : Bindings} {row : Row}
    (hrow : env.lookup s.name = some row) :
    ∃ u, pathTruth c db t [name] s.entity row = some u ∧ d.truth db env = some u := by
  obtain ⟨f, m, hlift, h⟩ := bind_run.1 h
  obtain ⟨hf, rfl⟩ := lift_run.1 hlift
  have hpath : pathTruth c db t [name] s.entity row =
      t.truth db f.isList (row.get f.column) := by
    rw [pathTruth, Scope.scalarField_of_filtered hf]; rfl
  rw [hpath]
  cases t with
  | equals v =>
    rw [equalsCondition_truth hrow (lift_run.1 h).1, FieldTest.truth]
    split_ifs <;> exact ⟨_, rfl, rfl⟩
  | greater orEqual v =>
    refine ⟨_, rfl, ?_⟩
    rw [rangeCondition_truth hrow (lift_run.1 h).1]
    congr 2
    funext o
    cases orEqual <;> cases o <;> rfl
  | lower orEqual v =>
    refine ⟨_, rfl, ?_⟩
    rw [rangeCondition_truth hrow (lift_run.1 h).1]
    congr 2
    funext o
    cases orEqual <;> cases o <;> rfl
  | isIn vs => exact ⟨_, rfl, inCondition_truth hrow (lift_run.1 h).1⟩
  | spatial t => simp [FieldTest.isSpatial] at ht

/-! ## Related rows -/

section
variable {c : Compiler} {db : Database} {env : Bindings}

/-- Binding a table of the model under a name, once for each of its rows. -/
theorem bind_table (c : Compiler) (db : Database) (t : TableRef) (name : String) (env : Bindings) :
    ((c.table t).as name).bind db env = some ((c.rows db t).map fun row => (name, row) :: env) := by
  obtain ⟨schema, table⟩ := t
  cases schema <;> rfl

theorem bindTables_single {t : Sql.Table} {envs : List Bindings} (h : t.bind db env = some envs) :
    Sql.bindTables db [t] env = some envs := by
  have hnil : envs.mapM (Sql.bindTables db []) = some (envs.map fun env => [env]) :=
    mapM_some fun _ _ => rfl
  rw [Sql.bindTables, h, Option.bind_eq_bind, Option.bind_some, hnil]
  simp [← List.flatMap_def]

/-- The conjunction of the conditions for the elements of a list. -/
theorem all_map_truth {α : Type} {f : α → Cond} {t : α → Truth} {as : List α}
    (h : ∀ a ∈ as, (f a).truth db env = some (t a)) :
    (Cond.all (as.map f)).truth db env = some (.all (as.map t)) := by
  refine (db.valuation env).cond_all ?_
  rw [List.mapM_map]
  exact mapM_some h

theorem equals_truth {l r : String} {left right : Row} (hl : env.lookup l = some left)
    (hr : env.lookup r = some right) (p : String × String) :
    (Cond.single ((col l p.1).equals (col r p.2))).truth db env =
      some (db.equal (left.get p.1) (right.get p.2)) := by
  simp only [Cond.truth, Sql.Column.equals, Expr.equals, Expr.truth, Expr.value_col hl,
    Expr.value_col hr]
  rfl

theorem equalities_truth {l r : String} {left right : Row} (hl : env.lookup l = some left)
    (hr : env.lookup r = some right) (pairs : List (String × String)) :
    (Cond.equalities pairs l r).truth db env =
      some (.all (pairs.map fun p => db.equal (left.get p.1) (right.get p.2))) :=
  all_map_truth fun p _ => equals_truth hl hr p

theorem all_equal_iff_agree {pairs : List (String × String)} {left right : Row} :
    Truth.all (pairs.map fun p => db.equal (left.get p.1) (right.get p.2)) = .yes ↔
      agree db pairs left right = true := by
  rw [Truth.all_eq_yes, List.forall_mem_map, agree, List.all_eq_true]
  simp

theorem not_isEmpty_map_filter {α β : Type} {p : α → Bool} {f : α → β} {as : List α} :
    (!((as.filter p).map f).isEmpty) = as.any p := by
  rw [Bool.eq_iff_iff, List.any_eq_true, Bool.not_eq_true', List.isEmpty_eq_false_iff]
  simp [List.filter_eq_nil_iff]

/-- The rows of a table that satisfy a condition. -/
theorem bindings_table {t : TableRef} {name : String} {columns : List Expr} {d : Cond}
    {p : Row → Truth} (hd : ∀ row, d.truth db ((name, row) :: env) = some (p row)) :
    Select.bindings db { tables := [(c.table t).as name], columns, condition := d } env =
      some (((c.rows db t).filter (p · = .yes)).map fun row => (name, row) :: env) := by
  simp only [Select.bindings, bindTables_single (bind_table c db t name env),
    Option.bind_eq_bind, Option.bind_some, Sql.bindJoins, keep_map fun row _ => hd row]

/-- The rows of a table with the rows of a table joined to it that satisfy a condition with them. -/
theorem bindings_join {t : TableRef} {u : Sql.Table} {name joined : String} {others : List Row}
    (hu : ∀ env, u.bind db env = some (others.map fun other => (joined, other) :: env))
    {columns : List Expr} {on d : Cond} {p q : Row → Row → Truth}
    (hon : ∀ row other, on.truth db ((joined, other) :: (name, row) :: env) = some (q row other))
    (hd : ∀ row other, d.truth db ((joined, other) :: (name, row) :: env) = some (p row other)) :
    Select.bindings db {
        tables := [(c.table t).as name], columns
        joins := [⟨.inner, u, on, false⟩], condition := d } env =
      some ((((c.rows db t).flatMap fun row => (others.filter (q row · = .yes)).map (row, ·)).filter
        fun r => p r.1 r.2 = .yes).map fun r => (joined, r.2) :: (name, r.1) :: env) := by
  have hjoin : ((c.rows db t).map fun row => (name, row) :: env).mapM
      (fun env => do keep (on.truth db) (← u.bind db env)) =
      some ((c.rows db t).map fun row =>
        (others.filter (q row · = .yes)).map fun other =>
          (joined, other) :: (name, row) :: env) := by
    rw [List.mapM_map]
    refine mapM_some fun row _ => ?_
    rw [Function.comp_apply, hu, Option.bind_eq_bind, Option.bind_some]
    exact keep_map fun other _ => hon row other
  have hpairs : ((c.rows db t).map fun row =>
      (others.filter (q row · = .yes)).map fun other =>
        (joined, other) :: (name, row) :: env).flatten =
      ((c.rows db t).flatMap fun row => (others.filter (q row · = .yes)).map (row, ·)).map
        fun r => (joined, r.2) :: (name, r.1) :: env := by
    simp [List.flatMap_def, List.map_flatten, Function.comp_def]
  simp only [Option.bind_eq_bind] at hjoin
  simp only [Select.bindings, bindTables_single (bind_table c db t name env), Option.bind_eq_bind,
    Option.bind_some, Sql.bindJoins, hjoin, hpairs, keep_map fun (r : Row × Row) _ => hd r.1 r.2]

/-- Some row of a table satisfies a condition. -/
theorem hasRows_truth {t : TableRef} {name : String} {columns : List Expr} {d : Cond}
    {p : Row → Truth} (hd : ∀ row, d.truth db ((name, row) :: env) = some (p row)) :
    (Expr.hasRows { tables := [(c.table t).as name], columns, condition := d }).truth db env =
      some (.ofBool ((c.rows db t).any (p · = .yes))) := by
  simp only [Expr.truth, bindings_table hd, Option.bind_eq_bind, Option.bind_some]
  exact congrArg some (congrArg Truth.ofBool not_isEmpty_map_filter)

/-- Some row of a table and one of a table joined to it satisfy a condition. -/
theorem hasRows_join_truth {t u : TableRef} {name joined : String} {columns : List Expr}
    {on d : Cond} {p q : Row → Row → Truth}
    (hon : ∀ row other, on.truth db ((joined, other) :: (name, row) :: env) = some (q row other))
    (hd : ∀ row other, d.truth db ((joined, other) :: (name, row) :: env) = some (p row other)) :
    (Expr.hasRows {
        tables := [(c.table t).as name], columns
        joins := [⟨.inner, (c.table u).as joined, on, false⟩], condition := d }).truth db env =
      some (.ofBool ((c.rows db t).any fun row => (c.rows db u).any fun other =>
        q row other = .yes && p row other = .yes)) := by
  simp only [Expr.truth, bindings_join (bind_table c db u joined) hon hd, Option.bind_eq_bind,
    Option.bind_some]
  refine congrArg some ((congrArg Truth.ofBool not_isEmpty_map_filter).trans ?_)
  simp [List.any_flatMap, List.any_map, List.any_filter, Function.comp_def]

end

/-- **Existence of a related row.** If the nested condition is worth `g other` where the related
    table is bound to the row `other`, the whole asks for a related row of which `g` holds. -/
theorem existsRelated_truth {c : Compiler} {db : Database} {parent : String} {l : Link}
    {nested : Scope → Compile Cond} {g : Row → Truth} {n n' : Names} {d : Cond}
    (h : existsRelated c parent l nested n = .ok (d, n')) (hpast : n.Past parent)
    (hnested : ∀ {child : String} {m m' : Names} {cond : Cond}, m.Past child →
      nested ⟨l.child, child⟩ m = .ok (cond, m') → ∀ {env : Bindings} {other : Row},
      env.lookup child = some other → cond.truth db env = some (g other))
    {env : Bindings} {row : Row} (hrow : env.lookup parent = some row) :
    d.truth db env = some (.ofBool ((c.rows db l.child.table).any fun other =>
      l.relates c db row other && g other = .yes)) := by
  unfold existsRelated at h
  simp only [bind_run, freshTable_run, pure_run] at h
  obtain ⟨child, n₁, ⟨hname, rfl⟩, correlation, n₂, hcor, cond, n₃, hcond, rfl, rfl⟩ := h
  have hne : parent ≠ child := hname ▸ hpast _ (Nat.lt_succ_self _)
  have hpast₁ : Names.Past { n with tables := n.tables + 1 } child :=
    hname ▸ Names.past_tableName le_rfl
  rw [Cond.truth]
  rcases Link.correlate_cases hcor with
    ⟨pairs, htop, rfl, rfl⟩ | ⟨table, toParent, toChild, htop, junction, hfresh, rfl⟩
  · rw [hasRows_truth (p := fun other =>
      (Truth.all (pairs.map fun p => db.equal (row.get p.1) (other.get p.2))).and (g other)) ?_]
    · simp only [Truth.and_eq_yes, all_equal_iff_agree, Link.relates, htop, Bool.decide_and,
        Bool.decide_eq_true]
    · intro other
      have hlookup : List.lookup parent ((child, other) :: env) = some row := by
        rw [List.lookup_cons, beq_false_of_ne hne, hrow]
      have hother : List.lookup child ((child, other) :: env) = some other := by simp
      refine (db.valuation _).cond_both ?_ (hnested hpast₁ hcond hother)
      refine (equalities_truth hother hlookup _).trans ?_
      simp only [List.map_map, Function.comp_def, Prod.fst_swap, Prod.snd_swap,
        db.equal_comm (other.get _)]
  · obtain ⟨hjunction, rfl⟩ := freshTable_run.1 hfresh
    have hne₁ : parent ≠ junction := hjunction ▸ hpast _ (Nat.lt_add_of_pos_right Nat.two_pos)
    have hne₂ : child ≠ junction := hjunction ▸ hpast₁ _ (Nat.lt_succ_self _)
    have hpast₂ := hpast₁.mono (Grows.freshTable hfresh)
    rw [hasRows_join_truth
      (p := fun other j =>
        (Truth.all (toParent.map fun p => db.equal (j.get p.1) (row.get p.2))).and (g other))
      (q := fun other j => Truth.all (toChild.map fun p => db.equal (j.get p.1) (other.get p.2)))
      ?_ ?_]
    · simp only [Truth.and_eq_yes, all_equal_iff_agree, Link.relates, htop, Bool.decide_and,
        Bool.decide_eq_true]
      congr 3
      funext other
      rw [Bool.eq_iff_iff]
      simp only [List.any_eq_true, Bool.and_eq_true]
      constructor
      · rintro ⟨j, hj, hchild, hparent, hg⟩; exact ⟨⟨j, hj, hparent, hchild⟩, hg⟩
      · rintro ⟨⟨j, hj, hparent, hchild⟩, hg⟩; exact ⟨j, hj, hchild, hparent, hg⟩
    · intro other j
      refine equalities_truth (by simp) ?_ _
      rw [List.lookup_cons, beq_false_of_ne hne₂]; simp
    · intro other j
      have hlookup : List.lookup parent ((junction, j) :: (child, other) :: env) = some row := by
        rw [List.lookup_cons, beq_false_of_ne hne₁, List.lookup_cons, beq_false_of_ne hne, hrow]
      have hother : List.lookup child ((junction, j) :: (child, other) :: env) = some other := by
        rw [List.lookup_cons, beq_false_of_ne hne₂]; simp
      exact (db.valuation _).cond_both (equalities_truth (by simp) hlookup _)
        (hnested hpast₂ hcond hother)

/-! ## Paths and filters -/

/-- **A test at the end of a path.** The induction is on the path; a hop through a relation moves to
    another row, under a name that is past by then. -/
theorem pathCondition_truth {c : Compiler} {es : List Entity}
    (hs : Schema.ofEntities es = .ok c.schema) (db : Database) {t : FieldTest}
    (ht : t.isSpatial = false) {path : FieldPath} {s : Scope}
    (he : c.schema.entity s.entity.name = .ok s.entity) {n n' : Names} {d : Cond}
    (h : pathCondition c t path s n = .ok (d, n')) (hpast : n.Past s.name) {env : Bindings}
    {row : Row} (hrow : env.lookup s.name = some row) :
    ∃ u, pathTruth c db t path s.entity row = some u ∧ d.truth db env = some u := by
  induction path generalizing s n n' d env row with
  | nil => exact (throw_run.1 h).elim
  | cons name rest ih =>
    cases rest with
    | nil => exact fieldCondition_truth ht h hrow
    | cons next rest =>
      rw [pathCondition] at h
      simp only [bind_run, lift_model_run] at h
      obtain ⟨f, _, ⟨hf, rfl⟩, target, _, ⟨htarget, rfl⟩, h⟩ := h
      simp only [pathTruth, hf, htarget, Except.toOption, Option.bind_eq_bind, Option.bind_some]
      have hent := Schema.entity_name htarget
      split_ifs at h ⊢ with hemb
      · exact ih (s := ⟨target, s.name⟩) hent h hpast hrow
      · obtain ⟨link, _, hlink, h⟩ := bind_run.1 h
        obtain ⟨hresolve, rfl⟩ := lift_run.1 hlink
        obtain rfl : target = link.child :=
          Except.ok.inj (htarget.symm.trans (Link.entity_of_resolve hresolve))
        refine ⟨_, rfl, ?_⟩
        refine (existsRelated_truth
          (g := fun other => (pathTruth c db t (next :: rest) link.child other).getD .unknown)
          h hpast ?_ hrow).trans ?_
        rotate_left
        · congr 3
          funext other
          rw [Link.relates_of_resolve hs he (Entity.mem_of_objectField hf) hresolve]
          congr 2
          cases pathTruth c db t (next :: rest) link.child other <;> simp
        · intro child m m' cond hchild hcond env' other hother
          obtain ⟨u, hu, hd⟩ := ih (s := ⟨link.child, child⟩) hent hcond hchild hother
          rw [hu, hd]; rfl

mutual

theorem filter_truth {c : Compiler} {es : List Entity}
    (hs : Schema.ofEntities es = .ok c.schema) (db : Database) {s : Scope}
    (he : c.schema.entity s.entity.name = .ok s.entity) {env : Bindings} {row : Row}
    (hrow : env.lookup s.name = some row) : ∀ (f : Filter) {n n' : Names} {d : Cond},
    f.isSpatial = false → condition c s f n = .ok (d, n') → n.Past s.name →
    ∃ t, f.truth c db s.entity row = some t ∧ d.truth db env = some t
  | .test path t, n, n', d, hf, h, hpast => pathCondition_truth hs db hf he h hpast hrow
  | .not f, n, n', d, hf, h, hpast => by
    obtain ⟨d', m, hd, h⟩ := bind_run.1 h
    obtain ⟨rfl, rfl⟩ := pure_run.1 h
    obtain ⟨t, ht, hd⟩ := filter_truth hs db he hrow f hf hd hpast
    exact ⟨t.not, by rw [Filter.truth, ht]; rfl, (db.valuation env).cond_negate hd⟩
  | .and fs, n, n', d, hf, h, hpast => by
    obtain ⟨ds, m, hds, h⟩ := bind_run.1 h
    obtain ⟨rfl, rfl⟩ := pure_run.1 h
    obtain ⟨ts, hts, hds⟩ := filterTruths_truth hs db he hrow fs hf hds hpast
    exact ⟨.all ts, by rw [Filter.truth, hts]; rfl, (db.valuation env).cond_all hds⟩
  | .or fs, n, n', d, hf, h, hpast => by
    obtain ⟨ds, m, hds, h⟩ := bind_run.1 h
    obtain ⟨rfl, rfl⟩ := pure_run.1 h
    obtain ⟨ts, hts, hds⟩ := filterTruths_truth hs db he hrow fs hf hds hpast
    exact ⟨.any ts, by rw [Filter.truth, hts]; rfl, (db.valuation env).cond_any hds⟩
termination_by structural f => f

theorem filterTruths_truth {c : Compiler} {es : List Entity}
    (hs : Schema.ofEntities es = .ok c.schema) (db : Database) {s : Scope}
    (he : c.schema.entity s.entity.name = .ok s.entity) {env : Bindings} {row : Row}
    (hrow : env.lookup s.name = some row) : ∀ (fs : List Filter) {n n' : Names} {ds : List Cond},
    anySpatial fs = false → conditions c s fs n = .ok (ds, n') → n.Past s.name →
    ∃ ts, filterTruths c db s.entity row fs = some ts ∧
      ds.mapM (db.valuation env).cond = some ts
  | [], n, n', ds, _, h, _ => by
    obtain ⟨rfl, rfl⟩ := pure_run.1 h
    exact ⟨[], rfl, rfl⟩
  | f :: fs, n, n', ds, hf, h, hpast => by
    rw [conditions] at h
    simp only [bind_run, pure_run] at h
    obtain ⟨d, m, hd, ds', m', hds, rfl, rfl⟩ := h
    rw [anySpatial, Bool.or_eq_false_iff] at hf
    obtain ⟨t, ht, hd'⟩ := filter_truth hs db he hrow f hf.1 hd hpast
    obtain ⟨ts, hts, hds⟩ :=
      filterTruths_truth hs db he hrow fs hf.2 hds (hpast.mono (Grows.condition c s f hd))
    refine ⟨t :: ts, by rw [filterTruths, ht, hts]; rfl, ?_⟩
    rw [List.mapM_cons, hds]
    exact (congrArg (· >>= _) hd').trans rfl
termination_by structural fs => fs

end

/-- **Filters mean what their conditions say.** Let a filter without spatial tests compile in the
    scope of an entity of an accepted schema, whose name is none that is handed out later.  In
    every database, and wherever that name is bound to a row, the condition then has a truth
    value, and it is that of the filter for the row. -/
theorem condition_truth {c : Compiler} {es : List Entity}
    (hs : Schema.ofEntities es = .ok c.schema) {s : Scope}
    (he : c.schema.entity s.entity.name = .ok s.entity) {f : Filter} (hf : f.isSpatial = false)
    {n n' : Names} {d : Cond} (h : condition c s f n = .ok (d, n')) (hpast : n.Past s.name)
    (db : Database) {env : Bindings} {row : Row} (hrow : env.lookup s.name = some row) :
    ∃ t, f.truth c db s.entity row = some t ∧ d.truth db env = some t :=
  filter_truth hs db he hrow f hf h hpast

/-! ## Breweries -/

/-- A brewery with its beers. -/
def brewery : Entity where
  name := "Brewery"
  table := { name := "brewery" }
  fields := [
    .scalar { name := "id", column := "id", type := .int },
    .scalar { name := "name", column := "name", type := .string },
    .object {
      name := "beers", target := "Beer", isList := true, relation := some (.mappedBy "brewery") }]

/-- A beer, which a brewery makes and which is of several styles. -/
def beer : Entity where
  name := "Beer"
  table := { schema := some "shop", name := "beer" }
  fields := [
    .scalar { name := "id", column := "id", type := .int },
    .scalar { name := "hops", column := "hops", type := .string, isList := true },
    .object {
      name := "brewery", target := "Brewery"
      relation := some (.joinColumns [⟨"brewery_id", .field "id"⟩]) },
    .object {
      name := "styles", target := "Style", isList := true
      relation := some (.joinTable
        ⟨{ name := "beer_style" }, [⟨"beer_id", .field "id"⟩], [⟨"style_id", .field "id"⟩]⟩) }]

/-- A style of beer, which knows nothing of the beers. -/
def style : Entity where
  name := "Style"
  table := { name := "style" }
  fields := [
    .scalar { name := "id", column := "id", type := .int },
    .scalar { name := "name", column := "name", type := .string }]

/-- Breweries in the public schema, and their beers in that of the shop. -/
def breweries : Compiler where
  schema := ⟨[brewery, beer, style]⟩
  settings := { defaultSchema := some "public" }

/-- One beer, of one style, by the first of two breweries, whose name is null. -/
def stock : Database where
  rows schema name :=
    match schema, name with
    | some "public", "brewery" =>
      [[("id", .int 1), ("name", .null)], [("id", .int 2), ("name", .string "Two")]]
    | some "shop", "beer" =>
      [[("id", .int 7), ("brewery_id", .int 1), ("hops", .list [.string "citra", .null])]]
    | some "public", "beer_style" => [[("beer_id", .int 7), ("style_id", .int 3)]]
    | some "public", "style" => [[("id", .int 3), ("name", .string "ipa")]]
    | _, _ => []
  order := Value.compare
  order_swap a b := (Value.compare_swap a b).symm

/-- No beer is an ale, and the name is "One" or a beer has citra hops. -/
def hoppyFilter : Filter :=
  .and [
    .not (.test ["beers", "styles", "name"] (.equals (.string "ale"))),
    .or [
      .test ["name"] (.isIn [.string "One"]),
      .test ["beers", "hops"] (.equals (.string "citra"))]]

theorem condition_truth_hoppy :
    ∃ d n', condition breweries ⟨brewery, "t1"⟩ hoppyFilter ⟨1, 0⟩ = .ok (d, n') ∧
      hoppyFilter.truth breweries stock brewery [("id", .int 1), ("name", .null)] = some .yes ∧
      d.truth stock [("t1", [("id", .int 1), ("name", .null)])] = some .yes := by
  have hs : Schema.ofEntities [brewery, beer, style] = .ok breweries.schema := rfl
  have hpast : Names.Past ⟨1, 0⟩ "t1" := Names.past_tableName (k := 1) le_rfl
  refine ⟨_, _, rfl, rfl, ?_⟩
  have hrow : List.lookup "t1" [("t1", [("id", Value.int 1), ("name", .null)])] = some _ := rfl
  obtain ⟨t, ht, hd⟩ := condition_truth hs (s := ⟨brewery, "t1"⟩) rfl (f := hoppyFilter) rfl
    (n := ⟨1, 0⟩) rfl hpast stock hrow
  rw [hd, ← ht]
  rfl

end LateralSql
