/-
  The keys of a query as a table of values.

  Such a table has a row for each of the distinct keys, in the order in which they are first seen,
  and in each row a cell for each column, which holds the value of the key at the column's name
  (`Table.ListsKeys`).  The names of the columns come from the keys and their types from elsewhere:
  from the fields of an entity for the keys of its rows, and for a batch from the fields that the
  join columns of its relation refer to, which are sorted with the columns that they belong to.
-/
import LateralSql.Proofs.JoinKeyAgreement
import LateralSql.Proofs.NestedFetching
import LateralSql.Proofs.ParamModes

namespace LateralSql

open Sql (Expr Table)

/-! ## Cells -/

/-- The names that the database has for types. -/
inductive ScalarType.Named : ScalarType → String → Prop
  | string : Named .string "text"
  | int : Named .int "bigint"
  | float : Named .float "numeric"
  | boolean : Named .boolean "boolean"
  | dateTime : Named .dateTime "timestamptz"
  | json : Named .json "jsonb"
  | geometry : Named .geometry "geometry"

theorem ScalarType.named_sqlName (type : ScalarType) : type.Named type.sqlName := by
  cases type <;> constructor

theorem ScalarType.rel_named (type : Option ScalarType) :
    Option.Rel ScalarType.Named type (type.map sqlName) := by
  cases type with
  | none => exact .none
  | some type => exact .some type.named_sqlName

/-- The expression is a parameter with the given value.  Where it is bound, it is cast to the type
    with the given name, if there is one. -/
structure Sql.Expr.IsCell (e : Expr) (v : Value) (type : Option String) : Prop where
  params : Sql.params e.pieces = [v]
  bound : ∀ n, Sql.writeAll (Sql.bindTokens n e.pieces) = Sql.Slot.bound n ⟨v, type⟩
  inlined : Sql.writeAll (Sql.inlineTokens e.pieces) = Sql.writeAll (Sql.literal v)

theorem isCell_keyCell (v : Value) (type : Option ScalarType) :
    (keyCell v type).IsCell v (type.map ScalarType.sqlName) := by
  cases type with
  | none =>
    refine ⟨rfl, fun n => ?_, ?_⟩
    · rw [← Sql.writeAll_placeholder]
      simp [keyCell, Expr.pieces, Sql.bindTokens]
    · simp [keyCell, Expr.pieces, Sql.inlineTokens]
  | some type =>
    refine ⟨rfl, fun n => ?_, ?_⟩
    · rw [← Sql.writeAll_placeholder]
      simp [keyCell, Expr.pieces, Sql.bindTokens]
    · simp [keyCell, Expr.pieces, Sql.inlineTokens]

/-! ## Rows -/

/-- The cell holds the value of the key at the column's name, and names a type of the column. -/
def KeyMap.CellAt (key : KeyMap) (Typed : String → Option ScalarType → Prop) (column : String)
    (cell : Expr) : Prop :=
  ∃ v type name, key.get? column = some v ∧ Typed column type ∧
    Option.Rel ScalarType.Named type name ∧ cell.IsCell v name

/-- The table has a row for each key, and in it a cell for each column. -/
def Sql.Table.ListsKeys (t : Table) (keys : List KeyMap)
    (Typed : String → Option ScalarType → Prop) : Prop :=
  ∃ rows, t.source = .values rows ∧
    List.Forall₂ (fun key row => List.Forall₂ (KeyMap.CellAt key Typed) t.columns row) keys rows

theorem KeyMap.get?_of_mem {k : KeyMap} {m : String × Value} (hm : m ∈ k.members) :
    k.get? m.1 = some m.2 := by
  simpa [get?] using lookup_map_of_nodup k.nodup_names Prod.snd hm

/-- The cells of some members of a key, with types in the same order. -/
theorem cells_of_members {k : KeyMap} {Typed : String → Option ScalarType → Prop}
    {ms : List (String × Value)} (hget : ∀ m ∈ ms, k.get? m.1 = some m.2)
    {types : List (Option ScalarType)} (htypes : List.Forall₂ Typed (ms.map (·.1)) types) :
    List.Forall₂ (k.CellAt Typed) (ms.map (·.1)) ((ms.map (·.2)).zipWith keyCell types) := by
  induction ms generalizing types with
  | nil => exact .nil
  | cons m ms ih =>
    obtain ⟨hm, hms⟩ := List.forall_mem_cons.1 hget
    cases htypes with
    | cons htype htypes =>
      exact .cons ⟨m.2, _, _, hm, htype, ScalarType.rel_named _, isCell_keyCell m.2 _⟩
        (ih hms htypes)

/-- **The table of keys lists them.** -/
theorem keyTable_listsKeys {keys : JoinKeys} {Typed : String → Option ScalarType → Prop}
    {types : List (Option ScalarType)} (htypes : List.Forall₂ Typed keys.names types)
    (name : String) :
    (keyTable keys types name).ListsKeys keys.keys Typed := by
  refine ⟨_, rfl, List.forall₂_map_right_iff.2 (List.forall₂_same.2 fun k hk => ?_)⟩
  have hmembers : keys.names = k.members.map (·.1) := (JoinKeys.names_eq_of_mem hk).symm
  change List.Forall₂ _ keys.names _
  rw [hmembers] at htypes ⊢
  exact cells_of_members (fun m hm => KeyMap.get?_of_mem hm) htypes

/-! ## Keys of rows -/

/-- The criteria for several keys are a join with their table. -/
theorem keyCriteria_table {s : Scope} {keys : List KeyMap} {r : KeyCriteria} {n n' : Names}
    (h : keyCriteria s keys n = .ok (r, n')) (hkeys : 2 ≤ keys.length) :
    ∃ (joined : JoinKeys) (name : String) (fields : List ScalarField),
      JoinKeys.ofList keys = .ok joined ∧ freshTable n = .ok (name, n') ∧
      joined.names.map s.entity.scalarField = fields.map .ok ∧
      r = { joins := [{
        kind := .inner
        table := keyTable joined (fields.map fun f => some f.type) name
        on := .all ((fields.zip joined.names).map fun p =>
          .single ((s.column p.1).equals (Sql.col name p.2))) }] } := by
  unfold keyCriteria at h
  split at h
  · simp at hkeys
  · simp at hkeys
  · obtain ⟨joined, n₁, hjoined, h⟩ := bind_run.1 h
    obtain ⟨name, n₂, hname, h⟩ := bind_run.1 h
    obtain ⟨fields, n₃, hfields, h⟩ := bind_run.1 h
    obtain ⟨rfl, rfl⟩ := pure_run.1 h
    obtain ⟨hofList, rfl⟩ := lift_model_run.1 hjoined
    obtain ⟨hscalar, rfl⟩ := lift_model_run.1 hfields
    exact ⟨joined, name, fields, hofList, hname, mapM_ok_iff.1 hscalar, rfl⟩

/-- The keys of a list, each once, with the names that all of them have. -/
theorem JoinKeys.lists_firstSeen {given : List KeyMap} {keys : JoinKeys}
    (h : JoinKeys.ofList given = .ok keys) {Typed : String → Option ScalarType → Prop}
    {types : List (Option ScalarType)} (htypes : List.Forall₂ Typed keys.names types)
    (name : String) :
    (keyTable keys types name).ListsKeys (firstSeen given) Typed := by
  rw [← firstOccurrences_eq_firstSeen, ← JoinKeys.ofList_eq_ok.1 h]
  exact keyTable_listsKeys htypes name

/-- The column is named for a field of the entity, and has its type. -/
def Entity.TypedByField (e : Entity) (column : String) (type : Option ScalarType) : Prop :=
  ∃ f, e.scalarField column = .ok f ∧ type = some f.type

theorem forall₂_typedByField {e : Entity} {names : List String} {fields : List ScalarField}
    (h : names.map e.scalarField = fields.map .ok) :
    List.Forall₂ e.TypedByField names (fields.map fun f => some f.type) := by
  induction names generalizing fields with
  | nil =>
    obtain rfl := List.map_eq_nil_iff.1 h.symm
    exact .nil
  | cons x names ih =>
    obtain ⟨f, fields', rfl, hf, hfields⟩ := List.map_eq_cons_iff.1 h.symm
    exact .cons ⟨f, hf.symm, rfl⟩ (ih hfields.symm)

/-! ## Keys of a batch -/

/-- A join column that ties a relation to its parent. -/
structure ParentJoin where
  column : JoinColumn
  /-- The entity in which it refers to a column. -/
  entity : Entity
  /-- The column of the parent. -/
  parentColumn : Except ModelError String

/-- A join column of another table, which refers to the parent. -/
def JoinColumn.toParent (parent : Entity) (j : JoinColumn) : ParentJoin :=
  ⟨j, parent, j.referencedColumn parent⟩

/-- The join columns of a relation on the side of its target, which refer to `parent`. -/
def Relation.inverseJoins (parent : Entity) : Relation → List ParentJoin
  | joinColumns js => js.map (·.toParent parent)
  | joinTable t => t.inverseJoinColumns.map (·.toParent parent)
  | mappedBy _ => []

/-- The join columns of the relation of `f` on the side of its parent.  Join columns that the field
    declares itself are columns of the parent; all others refer to them. -/
def ObjectField.parentJoins (s : Schema) (parent : Entity) (f : ObjectField) : List ParentJoin :=
  match f.relation, s.entity f.target with
  | some (.joinColumns js), .ok target => js.map fun j => ⟨j, target, .ok j.name⟩
  | some (.joinTable t), _ => t.joinColumns.map (·.toParent parent)
  | some (.mappedBy owner), .ok target =>
    match target.objectField owner with
    | .ok g => g.relation.toList.flatMap (·.inverseJoins parent)
    | .error _ => []
  | _, _ => []

/-- The field of an entity that a join column refers to: by its name, or as the first one that is
    stored in the column, if there is one. -/
inductive JoinColumn.RefersToField (e : Entity) (j : JoinColumn) : Option ScalarField → Prop
  | field {name : String} {f : ScalarField} :
      j.referenced = .field name → e.scalarField name = .ok f → RefersToField e j (some f)
  | stored {column : String} {f : ScalarField} : j.referenced = .column column →
      (e.fields.filterMap Field.scalar?).find? (·.column = column) = some f →
      RefersToField e j (some f)
  | unknown {column : String} : j.referenced = .column column →
      (∀ f ∈ e.fields.filterMap Field.scalar?, f.column ≠ column) → RefersToField e j none

/-- The column belongs to a join column of the relation, and for each such join column has the type
    of the field that it refers to. -/
def ObjectField.TypedByRelation (s : Schema) (parent : Entity) (f : ObjectField) (column : String)
    (type : Option ScalarType) : Prop :=
  (∃ p ∈ f.parentJoins s parent, p.parentColumn = .ok column) ∧
  ∀ p ∈ f.parentJoins s parent, p.parentColumn = .ok column →
    ∃ field, p.column.RefersToField p.entity field ∧ type = field.map (·.type)

theorem JoinColumn.refersToField_of_column {e : Entity} {j : JoinColumn} {column : String}
    (h : j.referencedColumn e = .ok column) :
    ∃ field, j.RefersToField e field ∧ j.referencedType e = field.map (·.type) := by
  unfold JoinColumn.referencedColumn at h
  unfold JoinColumn.referencedType
  cases hreferenced : j.referenced with
  | column name =>
    cases hfind : (e.fields.filterMap Field.scalar?).find? (·.column = name) with
    | some f => exact ⟨some f, .stored hreferenced hfind, by simp [hfind]⟩
    | none =>
      refine ⟨none, .unknown hreferenced fun f hf => ?_, by simp [hfind]⟩
      simpa using List.find?_eq_none.1 hfind f hf
  | field name =>
    rw [hreferenced] at h
    obtain ⟨f, hf, -⟩ := bind_ok.1 h
    exact ⟨some f, .field hreferenced hf, by simp [hf, Except.toOption]⟩

/-- The type that a join column gives to the parent's column. -/
def ParentJoin.type (p : ParentJoin) : Option ScalarType := p.column.referencedType p.entity

/-- **A link has the columns and the types of its relation's join columns**, all of which refer to
    some column. -/
theorem Link.parentJoins_of_resolve {s : Schema} {parent : Entity} {f : ObjectField} {l : Link}
    (h : Link.resolve s parent f = .ok l) :
    (f.parentJoins s parent).map (·.parentColumn) = l.parentColumns.map .ok ∧
    (f.parentJoins s parent).map ParentJoin.type = l.parentTypes ∧
    ∀ p ∈ f.parentJoins s parent, ∃ column, p.column.referencedColumn p.entity = .ok column := by
  have href {e : Entity} {js : List JoinColumn} {pairs : List (String × String)}
      (hpairs : JoinColumn.pairs e js = .ok pairs) :
      js.map (·.referencedColumn e) = (pairs.map (·.2)).map .ok :=
    mapM_ok_iff.1 (JoinColumn.pairs_ok hpairs).2
  have hall {e : Entity} {js : List JoinColumn} {pairs : List (String × String)}
      (hpairs : JoinColumn.pairs e js = .ok pairs) :
      ∀ j ∈ js, ∃ column, j.referencedColumn e = .ok column := by
    intro j hj
    have hmem : j.referencedColumn e ∈ (pairs.map (·.2)).map .ok :=
      href hpairs ▸ List.mem_map_of_mem hj
    obtain ⟨column, -, heq⟩ := List.mem_map.1 hmem
    exact ⟨column, heq.symm⟩
  have hparent {js : List JoinColumn} {pairs : List (String × String)} {joins : List ParentJoin}
      (hjoins : joins = js.map (·.toParent parent))
      (hpairs : JoinColumn.pairs parent js = .ok pairs) :
      joins.map (·.parentColumn) = (pairs.map (·.2)).map .ok ∧
      joins.map ParentJoin.type = js.map (·.referencedType parent) ∧
      ∀ p ∈ joins, ∃ column, p.column.referencedColumn p.entity = .ok column := by
    subst hjoins
    refine ⟨?_, ?_, ?_⟩
    · rw [List.map_map, ← href hpairs]
      rfl
    · rw [List.map_map]
      rfl
    · intro p hp
      obtain ⟨j, hj, rfl⟩ := List.mem_map.1 hp
      exact hall hpairs j hj
  cases Link.resolved_of_resolve h with
  | @joinColumns child js pairs ht hr hpairs =>
    have hjoins : f.parentJoins s parent = js.map fun j => ⟨j, child, .ok j.name⟩ := by
      simp [ObjectField.parentJoins, hr, ht]
    rw [hjoins]
    refine ⟨?_, ?_, ?_⟩
    · simp [Link.parentColumns, (JoinColumn.pairs_ok hpairs).1]
    · rw [List.map_map]
      rfl
    · intro p hp
      obtain ⟨j, hj, rfl⟩ := List.mem_map.1 hp
      exact hall hpairs j hj
  | joinTable ht hr hp hc =>
    exact hparent (by simp [ObjectField.parentJoins, hr]) hp
  | @ownedColumns child owner g js pairs ht hr hg hgr hp =>
    have hcolumns : (pairs.map Prod.swap).map (·.1) = pairs.map (·.2) := by
      rw [List.map_map]
      rfl
    simp only [Link.parentColumns, hcolumns]
    exact hparent (by simp [ObjectField.parentJoins, hr, ht, hg, hgr, Relation.inverseJoins]) hp
  | ownedTable ht hr hg hgr hp hc =>
    exact hparent (by simp [ObjectField.parentJoins, hr, ht, hg, hgr, Relation.inverseJoins]) hp

/-- The columns of a link have the types of their join columns, if no column is repeated. -/
theorem Link.typedByRelation {s : Schema} {parent : Entity} {f : ObjectField} {l : Link}
    (h : Link.resolve s parent f = .ok l) (hnodup : l.parentColumns.Nodup) {column : String}
    {type : Option ScalarType} (hmem : (column, type) ∈ l.parentColumns.zip l.parentTypes) :
    f.TypedByRelation s parent column type := by
  obtain ⟨hcolumns, htypes, hrefer⟩ := Link.parentJoins_of_resolve h
  -- the join columns in order, each with its column and its type
  have hpairs : (l.parentColumns.zip l.parentTypes).map (Prod.map .ok id) =
      (f.parentJoins s parent).map fun p => (p.parentColumn, p.type) := by
    rw [← List.zip_map_left, ← hcolumns, ← htypes, List.zip_map']
  have hunique : ∀ q ∈ l.parentColumns.zip l.parentTypes, q.1 = column → q.2 = type := by
    intro q hq heq
    have hfst : ((l.parentColumns.zip l.parentTypes).map Prod.fst).Nodup := by
      rwa [List.map_fst_zip (Link.length_parentTypes h).ge]
    rw [List.inj_on_of_nodup_map hfst hq hmem heq]
  refine ⟨?_, fun p hp hcolumn => ?_⟩
  · have hjoin : (.ok column, type) ∈ (f.parentJoins s parent).map fun p =>
        (p.parentColumn, p.type) := hpairs ▸ List.mem_map_of_mem hmem
    obtain ⟨p, hp, heq⟩ := List.mem_map.1 hjoin
    exact ⟨p, hp, (Prod.mk.inj heq).1⟩
  · have hpair : (p.parentColumn, p.type) ∈
        (l.parentColumns.zip l.parentTypes).map (Prod.map .ok id) :=
      hpairs ▸ List.mem_map_of_mem hp
    obtain ⟨q, hq, heq⟩ := List.mem_map.1 hpair
    obtain ⟨hfirst, hsecond⟩ := Prod.mk.inj heq
    have htype : type = p.type := by
      rw [← hunique q hq (Except.ok.inj (hfirst.trans hcolumn))]
      exact hsecond
    obtain ⟨referenced, hreferenced⟩ := hrefer p hp
    rw [htype]
    exact JoinColumn.refersToField_of_column hreferenced

/-- The names of a batch's keys are sorted together with their types. -/
theorem BatchRun.typedByRelation {c : Compiler} {r : BatchRequest} {n n' : Names}
    (run : BatchRun c r n n') (hnodup : r.keys.names.Nodup) :
    List.Forall₂ (run.field.TypedByRelation c.schema run.entity) r.keys.names
      ((sortBy Prod.fst (run.link.parentColumns.zip run.link.parentTypes)).map (·.2)) := by
  have hperm := sortBy_perm Prod.fst (run.link.parentColumns.zip run.link.parentTypes)
  have hcolumns : run.link.parentColumns.Nodup := by
    rw [run.names_eq, (hperm.map (·.1)).nodup_iff,
      List.map_fst_zip (Link.length_parentTypes run.link_run).ge] at hnodup
    exact hnodup
  rw [run.names_eq]
  refine List.forall₂_map_left_iff.2 (List.forall₂_map_right_iff.2 (List.forall₂_same.2 ?_))
  intro p hp
  exact Link.typedByRelation run.link_run hcolumns (hperm.mem_iff.1 hp)

/-! ## Tables of a query -/

theorem Sql.Join.isTable.not_isValues {c : Compiler} {t : TableRef} {j : Sql.Join}
    (h : j.isTable c t) : ¬ j.isValues := by
  rintro ⟨-, -, rows, hrows⟩
  obtain ⟨-, -, name, htable⟩ := h
  obtain ⟨schema, hsource⟩ : ∃ schema, (c.table t).source = .table schema t.name := by
    unfold Compiler.table Sql.Table.ofRef Sql.Table.inSchema
    cases t.schema with
    | none => exact ⟨_, rfl⟩
    | some schema => exact ⟨some schema, rfl⟩
  rw [htable, Sql.Table.as, hsource] at hrows
  cases hrows

theorem Attaches.not_isValues {c : Compiler} {a : Attachment} {j : Sql.Join} (h : Attaches c a j) :
    ¬ j.isValues := by
  rintro ⟨-, hstored, -⟩
  cases h with
  | object hlateral => exact Bool.false_ne_true (hstored.symm.trans hlateral.lateral)
  | aggregates hlateral => exact Bool.false_ne_true (hstored.symm.trans hlateral.lateral)

theorem of_forall₂_right {α β : Type} {R : α → β → Prop} {P : β → Prop}
    (h : ∀ a b, R a b → P b) {as : List α} {bs : List β} (hall : List.Forall₂ R as bs) :
    ∀ b ∈ bs, P b := by
  induction hall with
  | nil => simp
  | cons hab _ ih => exact List.forall_mem_cons.2 ⟨h _ _ hab, ih⟩

/-- **The keys of a node's rows are a table that lists them**, the only one that the node joins. -/
theorem node_listsKeys {c : Compiler} {parent : Option Parent} {r : ObjectRequest} {n n' : Names}
    {nd : Node} (h : node c parent r n = .ok (nd, n')) (hkeys : 2 ≤ r.keys.length) :
    ∃ e ties j laterals, c.schema.entity r.entity = .ok e ∧
      nd.select.joins = ties ++ [j] ++ laterals ∧ (∀ i ∈ ties ++ laterals, ¬ i.isValues) ∧
      j.table.ListsKeys (firstSeen r.keys) e.TypedByField := by
  have hfetches := node_fetches r h
  obtain ⟨run, rfl⟩ := node_run h
  obtain ⟨joined, name, fields, hjoined, -, hfields, hcriteria⟩ :=
    keyCriteria_table run.keys_run hkeys
  have hlists := JoinKeys.lists_firstSeen hjoined (forall₂_typedByField hfields) name
  -- the one join with a table of values that the node has
  let keyJoin : Sql.Join := {
    kind := .inner
    table := keyTable joined (fields.map fun f => some f.type) name
    on := .all ((fields.zip joined.names).map fun p =>
      .single ((Scope.column ⟨run.entity, run.name⟩ p.1).equals (Sql.col name p.2))) }
  cases hfetches with
  | @node _ _ _ e attached ties keys laterals he _ hjoins hties hvalues hlaterals =>
    obtain rfl : run.entity = e := Except.ok.inj (run.entity_run.symm.trans he)
    rw [if_pos hkeys] at hvalues
    obtain ⟨j, rfl, -⟩ := hvalues
    have hties' := of_forall₂_right (fun _ _ ht => Sql.Join.isTable.not_isValues ht) hties
    have hlaterals' := of_forall₂_right (fun _ _ ha => Attaches.not_isValues ha) hlaterals
    have hj : keyJoin = j := by
      have hmem : keyJoin ∈ ties ++ [j] ++ laterals := by
        rw [← hjoins]
        simp [NodeRun.node, hcriteria, keyJoin]
      simp only [List.mem_append, List.mem_singleton] at hmem
      rcases hmem with (hmem | rfl) | hmem
      · exact absurd ⟨rfl, rfl, _, rfl⟩ (hties' _ hmem)
      · rfl
      · exact absurd ⟨rfl, rfl, _, rfl⟩ (hlaterals' _ hmem)
    refine ⟨run.entity, ties, j, laterals, he, hjoins, ?_, hj ▸ hlists⟩
    exact List.forall_mem_append.2 ⟨hties', hlaterals'⟩

/-- **The keys of a batch are a table that lists them.** -/
theorem BatchRun.listsKeys {c : Compiler} {r : BatchRequest} {n n' : Names}
    (run : BatchRun c r n n') {given : List KeyMap} (hkeys : JoinKeys.ofList given = .ok r.keys) :
    ∃ t, run.result.select.tables = [t] ∧
      t.ListsKeys (firstSeen given) (run.field.TypedByRelation c.schema run.entity) := by
  have hnodup : r.keys.names.Nodup := by
    obtain ⟨k, hk⟩ := List.exists_mem_of_ne_nil _ r.keys.nonempty
    rw [← JoinKeys.names_eq_of_mem hk]
    exact k.nodup_names
  exact ⟨_, rfl, JoinKeys.lists_firstSeen hkeys (run.typedByRelation hnodup) _⟩

/-- **Tables of keys line up.**  A node with two keys or more joins one table of values, and the
    query of a batch reads from one.  It has a row for each distinct key, in the order in which they
    are first seen, and in each row a cell for each column, which has the value of the key at the
    column's name.  The cells of a node are typed by the entity's fields, and those of a batch by
    the fields that the join columns of its relation refer to. -/
theorem key_tables_line_up (c : Compiler) :
    (∀ parent r n nd n', node c parent r n = .ok (nd, n') → 2 ≤ r.keys.length →
      ∃ e ties j laterals, c.schema.entity r.entity = .ok e ∧
        nd.select.joins = ties ++ [j] ++ laterals ∧ (∀ i ∈ ties ++ laterals, ¬ i.isValues) ∧
        j.table.ListsKeys (firstSeen r.keys) e.TypedByField) ∧
    ∀ r b given, c.batch r = .ok b → JoinKeys.ofList given = .ok r.keys →
      ∃ root e f t, Compiler.run (batchSelect c r) = .ok root ∧
        b.statement = c.statement root.select ∧ c.schema.entity r.entity = .ok e ∧
        e.objectField r.field = .ok f ∧ root.select.tables = [t] ∧
        t.ListsKeys (firstSeen given) (f.TypedByRelation c.schema e) := by
  refine ⟨fun parent r n nd n' h hkeys => node_listsKeys h hkeys, fun r b given hb hkeys => ?_⟩
  obtain ⟨root, hroot, hb⟩ := bind_ok.1 hb
  obtain rfl := pure_ok.1 hb
  obtain ⟨n', hrun⟩ := run_ok.1 hroot
  obtain ⟨run, rfl⟩ := batchSelect_run hrun
  obtain ⟨t, htables, hlists⟩ := run.listsKeys hkeys
  exact ⟨_, run.entity, run.field, t, hroot, rfl, run.entity_run, run.field_run, htables, hlists⟩

/-! ## Purchases -/

/-- The key of a purchase, the number given first. -/
def purchaseKey (number : Int64) (branch : String) : KeyMap :=
  .ofMembers [("number", .int number), ("branch", .string branch)]

/-- The keys of two purchases, the first of them twice. -/
def purchaseKeys : List KeyMap :=
  [purchaseKey 7 "north", purchaseKey 3 "south", purchaseKey 7 "north"]

/-- The purchases with certain keys. -/
def purchaseRequest : ObjectRequest where
  entity := "Purchase"
  selected := [⟨"number", "number", none⟩]
  keys := purchaseKeys

/-- The relation declares the number before the branch, and the table has them the other way
    around, each with the type of its field. -/
theorem key_tables_line_up_purchases :
    firstSeen purchaseKeys = [purchaseKey 7 "north", purchaseKey 3 "south"] ∧
    (∃ nd n' j, node purchases none purchaseRequest {} = .ok (nd, n') ∧ j ∈ nd.select.joins ∧
      j.table.ListsKeys (firstSeen purchaseKeys) purchase.TypedByField) ∧
    ∃ keys b root t, JoinKeys.ofList purchaseKeys = .ok keys ∧
      purchases.batch ⟨"Purchase", "lines", keys, lineRequest⟩ = .ok b ∧
      Compiler.run (batchSelect purchases ⟨"Purchase", "lines", keys, lineRequest⟩) = .ok root ∧
      root.select.tables = [t] ∧ t.columns = ["branch", "number"] ∧
      t.source = .values [
        [.typed (.string "north") "text", .typed (.int 7) "bigint"],
        [.typed (.string "south") "text", .typed (.int 3) "bigint"]] ∧
      t.ListsKeys (firstSeen purchaseKeys)
        (purchaseLines.TypedByRelation purchases.schema purchase) := by
  obtain ⟨hnode, hbatch⟩ := key_tables_line_up purchases
  obtain ⟨⟨nd, n'⟩, hnd⟩ : ∃ p, node purchases none purchaseRequest {} = .ok p := ⟨_, rfl⟩
  obtain ⟨keys, hkeys⟩ : ∃ keys, JoinKeys.ofList purchaseKeys = .ok keys := ⟨_, rfl⟩
  obtain ⟨b, hb⟩ : ∃ b, purchases.batch ⟨"Purchase", "lines", keys, lineRequest⟩ = .ok b := by
    obtain rfl := Except.ok.inj hkeys
    exact ⟨_, rfl⟩
  obtain ⟨e, ties, j, laterals, he, hjoins, -, hlists⟩ :=
    hnode none purchaseRequest {} nd n' hnd (by decide)
  obtain ⟨root, e', f, t, hroot, -, he', hf, htables, hbatchLists⟩ := hbatch _ b _ hb hkeys
  obtain rfl : purchase = e := Except.ok.inj he
  obtain rfl : purchase = e' := Except.ok.inj he'
  obtain rfl : purchaseLines = f := Except.ok.inj hf
  have ht : t.columns = ["branch", "number"] ∧ t.source = .values [
      [.typed (.string "north") "text", .typed (.int 7) "bigint"],
      [.typed (.string "south") "text", .typed (.int 3) "bigint"]] := by
    obtain rfl := Except.ok.inj hkeys
    obtain rfl := Except.ok.inj hroot
    obtain rfl := (List.cons.inj htables).1
    exact ⟨rfl, rfl⟩
  refine ⟨rfl, ⟨nd, n', j, hnd, ?_, hlists⟩, keys, b, root, t, hkeys, hb, hroot, htables, ht.1,
    ht.2, hbatchLists⟩
  rw [hjoins]
  simp

end LateralSql
