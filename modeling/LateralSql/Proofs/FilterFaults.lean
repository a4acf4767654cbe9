/-
  Which filters compile, and which error the others have.

  A leaf is well formed if its path leads to a scalar field (`Leads`) that takes the test
  (`FieldTest.Fits`).  Whether a leaf compiles, and if not with which error, is settled by the
  schema alone and does not depend on the names that are handed out (`Settles`).  A filter has no
  errors but those of its leaves, whatever its conditions simplify to, and stops at the first
  (`Stops`).
-/
import LateralSql.Proofs.DanglingReferences

namespace LateralSql

open Sql (Cond Expr)

/-! ## Families of compilations -/

/-- If `P` holds, every member of the family has a result from any names, and otherwise all of them
    always have the same error. -/
inductive Settles {ι α : Type} (P : Prop) (x : ι → Compile α) : Prop
  | ok (h : P) (hx : ∀ i n, ∃ p, x i n = .ok p)
  | error (h : ¬ P) (e : QueryError) (hx : ∀ i n, x i n = .error e)

namespace Settles

variable {ι κ α β : Type} {P Q : Prop}

theorem pure (f : ι → α) : Settles True fun i => (Pure.pure (f i) : Compile α) :=
  ok trivial fun _ _ => ⟨_, rfl⟩

theorem throw (e : QueryError) : Settles False fun _ : ι => (MonadExcept.throw e : Compile α) :=
  error not_false e fun _ _ => rfl

theorem congr {x : ι → Compile α} (h : Settles P x) (hPQ : P ↔ Q) : Settles Q x := by
  cases h with
  | ok h hx => exact ok (hPQ.1 h) hx
  | error h e hx => exact error (fun hQ => h (hPQ.2 hQ)) e hx

theorem comp {x : ι → Compile α} (h : Settles P x) (f : κ → ι) : Settles P fun k => x (f k) := by
  cases h with
  | ok h hx => exact ok h fun k => hx (f k)
  | error h e hx => exact error h e fun k => hx (f k)

/-- A step that fails in any case leaves nothing to settle. -/
theorem fails {x : ι → Compile α} {f : ι → α → Compile β} {e : QueryError} (h : ¬ P)
    (hx : ∀ i n, x i n = .error e) : Settles P fun i => x i >>= f i := by
  refine error h e fun i n => ?_
  change (x i n >>= _) = _
  rw [hx i n]
  rfl

/-- A step whose value is known hands it to the rest. -/
theorem known {x : ι → Compile α} {f : ι → α → Compile β} {a : α} (hx : ∀ i n, x i n = .ok (a, n))
    (hf : Settles Q fun i => f i a) : Settles Q fun i => x i >>= f i := by
  have hrun : (fun i => x i >>= f i) = fun i => f i a :=
    funext fun i => funext fun n => bind_of_run (hx i n)
  rw [hrun]
  exact hf

theorem bind {x : ι → Compile α} {f : ι → α → Compile β} (hx : Settles P x)
    (hf : Settles Q fun p : ι × α => f p.1 p.2) : Settles (P ∧ Q) fun i => x i >>= f i := by
  cases hx with
  | error hP e hx => exact fails (fun h => hP h.1) hx
  | ok hP hx =>
    cases hf with
    | error hQ e hf =>
      refine error (fun h => hQ h.2) e fun i n => ?_
      obtain ⟨⟨a, m⟩, ha⟩ := hx i n
      rw [bind_of_run ha]
      exact hf (i, a) m
    | ok hQ hf =>
      refine ok ⟨hP, hQ⟩ fun i n => ?_
      obtain ⟨⟨a, m⟩, ha⟩ := hx i n
      rw [bind_of_run ha]
      exact hf (i, a) m

/-- A step that has a result in any case leaves the rest to settle. -/
theorem after {x : ι → Compile α} {f : ι → α → Compile β} (hx : ∀ i n, ∃ p, x i n = .ok p)
    (hf : Settles Q fun p : ι × α => f p.1 p.2) : Settles Q fun i => x i >>= f i :=
  ((ok trivial hx).bind hf).congr (iff_of_eq (true_and Q))

theorem map {x : ι → Compile α} (hx : Settles P x) (f : ι → α → β) :
    Settles P fun i => x i >>= fun a => Pure.pure (f i a) :=
  (hx.bind (pure fun p : ι × α => f p.1 p.2)).congr (iff_of_eq (and_true P))

theorem ok_lift {x : ι → Except QueryError α} (h : P) (hx : ∀ i, ∃ a, x i = .ok a) :
    Settles P fun i => (liftM (x i) : Compile α) := by
  refine ok h fun i n => ?_
  obtain ⟨a, ha⟩ := hx i
  exact ⟨_, lift_run.2 ⟨ha, rfl⟩⟩

theorem error_lift {x : ι → Except QueryError α} {e : QueryError} (h : ¬ P)
    (hx : ∀ i, x i = .error e) : Settles P fun i => (liftM (x i) : Compile α) := by
  refine error h e fun i n => ?_
  rw [hx i]
  rfl

theorem lift {x : Except QueryError α} (h : Ends (fun _ => ¬ P) (fun _ => P) x) :
    Settles P fun _ : ι => (liftM x : Compile α) := by
  cases h with
  | error h => exact error_lift h fun _ => rfl
  | ok h => exact ok_lift h fun _ => ⟨_, rfl⟩

theorem lift_model {x : Except ModelError α} (h : Ends (fun _ => ¬ P) (fun _ => P) x) :
    Settles P fun _ : ι => (liftM x : Compile α) := by
  cases h with
  | error h => exact error h _ fun _ _ => rfl
  | ok h => exact ok h fun _ _ => ⟨_, rfl⟩

end Settles

/-! ## Tests that fit a field -/

/-- The test has a geometry that can be read. -/
def SpatialTest.Readable (t : SpatialTest) : Prop :=
  ∃ input g, t.geometry = some input ∧ input.read = .ok g

/-- The scalar field `f` of `e` takes the test. -/
def FieldTest.Fits (e : Entity) (f : ScalarField) : FieldTest → Prop
  | .equals _ => f.type ≠ .geometry
  | .greater _ v | .lower _ v =>
    f.isList = false ∧ f.type ≠ .geometry ∧ f.type ≠ .json ∧ f.type ≠ .boolean ∧ v.isNull = false
  | .isIn _ => f.isList = false ∧ f.type ≠ .geometry
  | .spatial t =>
    ∃ info, f.geometry = some info ∧
      match info.segments with
      | none => t.operator = .srid ∨ t.operator = .type ∨ t.Readable
      | some g =>
        (t.operator ≠ .srid ∧ t.operator ≠ .type) ∧ t.Readable ∧
          ∀ j ∈ g.joinColumns, ¬ j.Dangles e

section
variable {ι : Type} (c : Compiler) (e : Entity) (f : ScalarField)

theorem equalsCondition_settles (v : Value) :
    Settles (f.type ≠ .geometry) fun a : String =>
      (liftM (equalsCondition ⟨e, a⟩ f v) : Compile Cond) := by
  by_cases htype : f.type = .geometry
  · exact .error_lift (not_not_intro htype) fun a => if_pos htype
  · refine .ok_lift htype fun a => ?_
    rw [equalsCondition, if_neg htype]
    split
    · exact ⟨_, rfl⟩
    · split <;> exact ⟨_, rfl⟩

theorem ScalarField.isOrdered_iff : f.isOrdered = true ↔
    f.isList = false ∧ f.type ≠ .geometry ∧ f.type ≠ .json ∧ f.type ≠ .boolean := by
  simp [isOrdered, and_assoc]

theorem rangeCondition_settles (op : Sql.Comparison) (v : Value) :
    Settles (f.isOrdered = true ∧ v.isNull = false) fun a : String =>
      (liftM (rangeCondition ⟨e, a⟩ f op v) : Compile Cond) := by
  unfold rangeCondition
  cases f.isOrdered with
  | false => exact .error_lift (by simp) fun a => rfl
  | true =>
    cases v.isNull with
    | true => exact .error_lift (by simp) fun a => rfl
    | false => exact .ok_lift (by simp) fun a => ⟨_, rfl⟩

theorem inCondition_settles (vs : List Value) :
    Settles (f.isList = false ∧ f.type ≠ .geometry) fun a : String =>
      (liftM (inCondition ⟨e, a⟩ f vs) : Compile Cond) := by
  by_cases h : (f.isList || decide (f.type = .geometry)) = true
  · exact .error_lift (by simpa [or_iff_not_imp_left] using h) fun a => if_pos h
  · refine .ok_lift (by simpa using h) fun a => ?_
    rw [inCondition, if_neg h]
    split <;> exact ⟨_, rfl⟩

/-! ### Spatial tests -/

theorem SpatialOperator.not_isPredicate_iff (o : SpatialOperator) :
    (!o.isPredicate) = true ↔ o = .srid ∨ o = .type := by
  cases o <;> decide

theorem SpatialOperator.function_ends (o : SpatialOperator) (strategy : SpatialStrategy) :
    Ends (fun _ => ¬ (o ≠ .srid ∧ o ≠ .type)) (fun _ => o ≠ .srid ∧ o ≠ .type)
      (o.function strategy) := by
  cases o with
  | srid | type => exact .error (by simp)
  | _ => exact .ok (by simp)

theorem SpatialTest.literal_ends (t : SpatialTest) (native : Srid) :
    Ends (fun _ => ¬ t.Readable) (fun _ => t.Readable) (t.literal native) := by
  unfold literal
  cases hinput : t.geometry with
  | none => exact .throw (by simp [Readable, hinput])
  | some input =>
    dsimp only
    cases hread : input.read with
    | error fault => exact .throw (by simp [Readable, hinput, hread])
    | ok g =>
      have hreadable : t.Readable := ⟨input, g, hinput, hread⟩
      dsimp only
      split <;> exact .pure hreadable

theorem directCondition_settles (info : GeometryInfo) (t : SpatialTest) :
    Settles (t.operator = .srid ∨ t.operator = .type ∨ t.Readable) fun a : String =>
      (liftM (directCondition c ⟨e, a⟩ f info t) : Compile Cond) := by
  unfold directCondition
  split
  · next hop =>
    have hunasked := t.operator.not_isPredicate_iff.1 hop
    exact .ok_lift (or_assoc.1 (.inl hunasked)) fun a => ⟨_, rfl⟩
  · next hop =>
    have hpredicate := not_or.1 (mt t.operator.not_isPredicate_iff.2 hop)
    cases hfunction : t.operator.function .direct with
    | error err => exact absurd hpredicate ((t.operator.function_ends _).of_error hfunction)
    | ok function =>
      cases hliteral : t.literal info.srid with
      | error err =>
        have hunreadable := (t.literal_ends _).of_error hliteral
        exact .error_lift (by simp [hpredicate, hunreadable]) fun a => rfl
      | ok p => exact .ok_lift (.inr (.inr ((t.literal_ends _).of_ok hliteral))) fun a => ⟨_, rfl⟩

theorem segmentQuery_settles (g : GeometrySegments) (name : ι → String) (literal : ι → Expr)
    (cond : ι → Expr → Expr → Cond) :
    Settles (∀ j ∈ g.joinColumns, ¬ j.Dangles e) fun i =>
      segmentQuery c ⟨e, name i⟩ g (literal i) (cond i) := by
  have hpairs := (JoinColumn.pairs_ends e g.joinColumns).mono_error fun m ⟨j, hj, hdangles, _⟩ =>
    show ¬ ∀ j ∈ g.joinColumns, ¬ j.Dangles e from fun h => h j hj hdangles
  unfold segmentQuery
  -- five names are handed out before the join columns are looked up
  iterate 5 refine .after (fun _ _ => ⟨_, rfl⟩) ?_
  dsimp only
  exact .map (.lift_model hpairs) _

theorem segmentedCondition_settles (info : GeometryInfo) (g : GeometrySegments) (t : SpatialTest) :
    Settles ((t.operator ≠ .srid ∧ t.operator ≠ .type) ∧ t.Readable ∧
      ∀ j ∈ g.joinColumns, ¬ j.Dangles e) fun a : String =>
      segmentedCondition c ⟨e, a⟩ info g t := by
  unfold segmentedCondition
  refine .bind (.lift (t.operator.function_ends .segmented)) (.bind (.lift (t.literal_ends _)) ?_)
  dsimp only
  split
  · exact .map (segmentQuery_settles c e g ..) _
  · -- the same join columns are looked up twice
    refine Settles.congr ?_ and_self_iff
    exact .bind (segmentQuery_settles c e g ..) (.map (segmentQuery_settles c e g ..) _)

theorem spatialCondition_settles (t : SpatialTest) :
    Settles ((FieldTest.spatial t).Fits e f) fun a : String => spatialCondition c ⟨e, a⟩ f t := by
  unfold spatialCondition FieldTest.Fits
  cases f.geometry with
  | none => exact (Settles.throw _).congr (by simp)
  | some info =>
    simp only [Option.some.injEq, exists_eq_left']
    cases info.segments with
    | none => exact directCondition_settles c e f info t
    | some g => exact segmentedCondition_settles c e info g t

theorem fieldCondition_settles (name : String) (t : FieldTest) :
    Settles (∃ f, e.field name = .ok (.scalar f) ∧ t.Fits e f) fun a : String =>
      fieldCondition c ⟨e, a⟩ name t := by
  unfold fieldCondition
  cases hfield : e.field name with
  | error err =>
    exact .fails (e := .model err) (by simp) fun a n => by rw [Scope.filtered, hfield]; rfl
  | ok field =>
    cases field with
    | object g =>
      exact .fails (e := .unsupportedFilter (e.name ++ "." ++ name) .objectField) (by simp)
        fun a n => by rw [Scope.filtered, hfield]; rfl
    | scalar f =>
      simp only [Except.ok.injEq, Field.scalar.injEq, exists_eq_left']
      refine .known (fun a n => by rw [Scope.filtered, hfield]; rfl) ?_
      cases t with
      | equals v => exact equalsCondition_settles e f v
      | greater orEqual v | lower orEqual v =>
        refine (rangeCondition_settles e f _ v).congr ?_
        rw [f.isOrdered_iff]
        simp only [FieldTest.Fits, and_assoc]
      | isIn vs => exact inCondition_settles e f vs
      | spatial t => exact spatialCondition_settles c e f t

end

/-! ## Paths that lead to a field -/

/-- The path from `e` goes through object fields, each embedded or with a link, and ends at the
    scalar field `f` of the entity that is reached. -/
inductive Leads (s : Schema) : Entity → FieldPath → Entity → ScalarField → Prop
  | here {e : Entity} {name : String} {f : ScalarField} :
      e.field name = .ok (.scalar f) → Leads s e [name] e f
  | through {e target reached : Entity} {name : String} {path : FieldPath} {g : ObjectField}
      {f : ScalarField} :
      e.field name = .ok (.object g) → s.entity g.target = .ok target →
      g.isEmbedded = true ∨ (∃ l, Link.resolve s e g = .ok l) →
      Leads s target path reached f → Leads s e (name :: path) reached f

/-- A leaf of a filter: a test of the field at the end of a path. -/
abbrev Leaf := FieldPath × FieldTest

/-- The path of the leaf leads to a field that takes its test. -/
def Leaf.WellFormed (s : Schema) (e : Entity) (leaf : Leaf) : Prop :=
  ∃ reached f, Leads s e leaf.1 reached f ∧ leaf.2.Fits reached f

section
variable {s : Schema} {e : Entity} {name next : String} {path : FieldPath} {t : FieldTest}

theorem Leaf.wellFormed_single : Leaf.WellFormed s e ([name], t) ↔
    ∃ f, e.field name = .ok (.scalar f) ∧ t.Fits e f := by
  constructor
  · rintro ⟨reached, f, hleads, hfits⟩
    cases hleads with
    | here hfield => exact ⟨f, hfield, hfits⟩
    | through _ _ _ hrest => cases hrest
  · rintro ⟨f, hfield, hfits⟩
    exact ⟨e, f, .here hfield, hfits⟩

theorem Leaf.wellFormed_cons : Leaf.WellFormed s e (name :: next :: path, t) ↔
    ∃ g target, e.field name = .ok (.object g) ∧ s.entity g.target = .ok target ∧
      (g.isEmbedded = true ∨ ∃ l, Link.resolve s e g = .ok l) ∧
      Leaf.WellFormed s target (next :: path, t) := by
  constructor
  · rintro ⟨reached, f, hleads, hfits⟩
    cases hleads with
    | through hfield htarget hlinked hrest =>
      exact ⟨_, _, hfield, htarget, hlinked, reached, f, hrest, hfits⟩
  · rintro ⟨g, target, hfield, htarget, hlinked, reached, f, hrest, hfits⟩
    exact ⟨reached, f, .through hfield htarget hlinked hrest, hfits⟩

theorem Leaf.wellFormed_nil : ¬ Leaf.WellFormed s e ([], t) := by
  rintro ⟨reached, f, hleads, -⟩
  cases hleads

end

theorem existsRelated_settles {P : Prop} (c : Compiler) (l : Link)
    {nested : Scope → Compile Cond} (h : Settles P fun a => nested ⟨l.child, a⟩) :
    Settles P fun parent => existsRelated c parent l nested := by
  unfold existsRelated
  refine .after (fun _ _ => ⟨_, rfl⟩) (.after (fun p n => ?_) (.map ?_ _))
  · obtain ⟨r, n', hr⟩ := l.exists_correlate c p.1 p.2 n
    exact ⟨_, hr⟩
  · exact h.comp fun p : (String × String) × Correlation => p.1.2

theorem pathCondition_settles (c : Compiler) (t : FieldTest) : ∀ (path : FieldPath) (e : Entity),
    Settles (Leaf.WellFormed c.schema e (path, t)) fun a => pathCondition c t path ⟨e, a⟩
  | [], e => (Settles.throw .emptyPath).congr (iff_of_false not_false Leaf.wellFormed_nil)
  | [name], e => (fieldCondition_settles c e name t).congr Leaf.wellFormed_single.symm
  | name :: next :: rest, e => by
    have hrest := pathCondition_settles c t (next :: rest)
    refine Settles.congr ?_ Leaf.wellFormed_cons.symm
    unfold pathCondition
    simp only [← Entity.objectField_ok]
    -- every lookup is in the schema alone, so it ends the same under all names
    cases hfield : e.objectField name with
    | error err => exact .fails (by simp) fun _ _ => rfl
    | ok g =>
      simp only [Except.ok.injEq, exists_and_left, exists_eq_left']
      refine .known (fun _ _ => rfl) ?_
      cases htarget : c.schema.entity g.target with
      | error err => exact .fails (by simp) fun _ _ => rfl
      | ok target =>
        simp only [Except.ok.injEq, exists_eq_left']
        refine .known (fun _ _ => rfl) ?_
        split
        · next hembedded => exact (hrest target).congr (by simp [hembedded])
        · next hembedded =>
          cases hlink : Link.resolve c.schema e g with
          | error err => exact .fails (by simp [hembedded]) fun _ _ => rfl
          | ok l =>
            have hchild : target = l.child :=
              Except.ok.inj (htarget.symm.trans (Link.entity_of_resolve hlink))
            subst hchild
            refine .known (fun _ _ => rfl) ((existsRelated_settles c l (hrest _)).congr ?_)
            simp

/-! ## Leaves of a filter -/

mutual

/-- The leaves of a filter, from left to right. -/
def Filter.leaves : Filter → List Leaf
  | .test path t => [(path, t)]
  | .not f => f.leaves
  | .and fs | .or fs => filterLeaves fs
termination_by structural f => f

/-- The leaves of some filters, from left to right. -/
def filterLeaves : List Filter → List Leaf
  | [] => []
  | f :: fs => f.leaves ++ filterLeaves fs
termination_by structural fs => fs

end

/-- The error is that of the first leaf that is not well formed, whatever names it is compiled
    with. -/
def FirstFault (c : Compiler) (e : Entity) (leaves : List Leaf) (err : QueryError) : Prop :=
  ∃ before leaf after, leaves = before ++ leaf :: after ∧
    (∀ l ∈ before, Leaf.WellFormed c.schema e l) ∧ ¬ leaf.WellFormed c.schema e ∧
    ∀ name n, pathCondition c leaf.2 leaf.1 ⟨e, name⟩ n = .error err

/-- A compilation of leaves on `e` in order, which stops at the first that is not well formed. -/
def Stops {α : Type} (c : Compiler) (e : Entity) (leaves : List Leaf) (x : Compile α) : Prop :=
  Outcome (FirstFault c e leaves) (fun _ => ∀ leaf ∈ leaves, leaf.WellFormed c.schema e) x

namespace Stops

variable {α β : Type} {c : Compiler} {e : Entity} {leaves rest : List Leaf}

theorem nil (a : α) : Stops c e [] (Pure.pure a) := .pure (List.forall_mem_nil _)

theorem single (path : FieldPath) (t : FieldTest) (name : String) :
    Stops c e [(path, t)] (pathCondition c t path ⟨e, name⟩) := by
  intro n
  cases pathCondition_settles c t path e with
  | ok h hx =>
    obtain ⟨p, hp⟩ := hx name n
    exact hp ▸ .ok (List.forall_mem_singleton.2 h)
  | error h err hx => exact hx name n ▸ .error ⟨[], (path, t), [], rfl, by simp, h, hx⟩

theorem append {x : Compile α} {f : α → Compile β} (hx : Stops c e leaves x)
    (hf : ∀ a, Stops c e rest (f a)) : Stops c e (leaves ++ rest) (x >>= f) := by
  intro n
  refine ((hx n).mono_error ?_).bind fun p hleaves => ?_
  · rintro err ⟨before, leaf, after, rfl, hbefore, hleaf, halone⟩
    exact ⟨before, leaf, after ++ rest, by simp, hbefore, hleaf, halone⟩
  · refine ((hf p.1 p.2).mono_error ?_).mono fun _ hrest =>
      List.forall_mem_append.2 ⟨hleaves, hrest⟩
    rintro err ⟨before, leaf, after, rfl, hbefore, hleaf, halone⟩
    exact ⟨leaves ++ before, leaf, after, by simp, List.forall_mem_append.2 ⟨hleaves, hbefore⟩,
      hleaf, halone⟩

theorem map {x : Compile α} (h : Stops c e leaves x) (f : α → β) :
    Stops c e leaves (x >>= fun a => Pure.pure (f a)) := by
  simpa only [List.append_nil] using h.append fun a => nil (f a)

end Stops

mutual

theorem condition_stops (c : Compiler) (s : Scope) : ∀ f : Filter,
    Stops c s.entity f.leaves (condition c s f)
  | .test path t => .single path t s.name
  | .not f => by
    rw [condition]
    exact (condition_stops c s f).map _
  | .and fs | .or fs => by
    rw [condition]
    exact (conditions_stops c s fs).map _
termination_by structural f => f

theorem conditions_stops (c : Compiler) (s : Scope) : ∀ fs : List Filter,
    Stops c s.entity (filterLeaves fs) (conditions c s fs)
  | [] => .nil []
  | f :: fs => by
    rw [conditions]
    exact (condition_stops c s f).append fun cond => (conditions_stops c s fs).map _
termination_by structural fs => fs

end

/-- **A filter compiles exactly if each of its leaves is well formed**, wherever they stand and
    whatever the conditions beside them simplify to: no conjunction, disjunction or negation hides a
    leaf.  Otherwise its error is the one that the first ill-formed leaf from the left has by
    itself, under any name of the table and from any names. -/
theorem filter_compiles_iff (c : Compiler) (s : Scope) (f : Filter) (n : Names) :
    ((∃ cond n', condition c s f n = .ok (cond, n')) ↔
      ∀ leaf ∈ f.leaves, Leaf.WellFormed c.schema s.entity leaf) ∧
    ∀ err, condition c s f n = .error err →
      ∃ before leaf after, f.leaves = before ++ leaf :: after ∧
        (∀ l ∈ before, Leaf.WellFormed c.schema s.entity l) ∧
        ¬ leaf.WellFormed c.schema s.entity ∧
        ∀ name m, condition c ⟨s.entity, name⟩ (.test leaf.1 leaf.2) m = .error err := by
  have hstops := condition_stops c s f n
  refine ⟨⟨fun ⟨cond, n', hcond⟩ => hstops.of_ok hcond, fun hleaves => ?_⟩, fun err herr => ?_⟩
  · cases hcond : condition c s f n with
    | ok p => exact ⟨p.1, p.2, rfl⟩
    | error err =>
      obtain ⟨before, leaf, after, hsplit, -, hleaf, -⟩ := hstops.of_error hcond
      exact absurd (hleaves leaf (by simp [hsplit])) hleaf
  · exact hstops.of_error herr

/-- The first part holds of every brewery and the second starts with a condition on beers that no
    beer satisfies.  Two leaves are ill formed: hops are a list, and a brewery is no scalar. -/
def faultyFilter : Filter :=
  .or [
    .not (.test ["id"] (.isIn [])),
    .and [
      .test ["beers", "id"] (.isIn []),
      .test ["beers", "hops"] (.greater false (.string "citra"))],
    .test ["beers", "brewery"] (.equals .null)]

theorem filter_compiles_iff_breweries :
    (∀ leaf ∈ hoppyFilter.leaves, leaf.WellFormed breweries.schema brewery) ∧
    (∃ n', condition breweries ⟨brewery, "t1"⟩ (.not (.test ["id"] (.isIn []))) ⟨1, 0⟩ =
      .ok (.always, n')) ∧
    condition breweries ⟨brewery, "t1"⟩ faultyFilter ⟨1, 0⟩ =
      .error (.unsupportedFilter "hops" (.unordered "list of String")) ∧
    ∃ before leaf after, faultyFilter.leaves = before ++ leaf :: after ∧
      (∀ l ∈ before, l.WellFormed breweries.schema brewery) ∧
      ¬ leaf.WellFormed breweries.schema brewery ∧
      ∀ name m, condition breweries ⟨brewery, name⟩ (.test leaf.1 leaf.2) m =
        .error (.unsupportedFilter "hops" (.unordered "list of String")) :=
  ⟨(filter_compiles_iff breweries ⟨brewery, "t1"⟩ hoppyFilter ⟨1, 0⟩).1.1 ⟨_, _, rfl⟩,
    ⟨_, rfl⟩, rfl, (filter_compiles_iff breweries ⟨brewery, "t1"⟩ faultyFilter ⟨1, 0⟩).2 _ rfl⟩

end LateralSql
