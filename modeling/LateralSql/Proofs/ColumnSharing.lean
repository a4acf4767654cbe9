/-
  Columns that are selected once.

  A column of a table may be wanted many times: as a field under several labels, in an embedded
  object, in the key of related rows, to sort by, to tell a row from none.  A select has it once,
  and whoever wants it reads it under the one name it has (`NodeReads`).  What a step of drafting
  gives is said of every select that the draft may become part of (`Provides`), so the steps after
  it make no difference.
-/
import Mathlib.Data.Finset.Card
import LateralSql.Proofs.AliasAgreement
import LateralSql.Proofs.Relations

namespace LateralSql

open Sql (Expr Join Select col)

/-! ## Columns under one name -/

/-- The column that an expression is, under whatever name. -/
def Sql.Expr.column? (e : Expr) : Option Sql.Column :=
  match e.bare with
  | .column c => some c
  | _ => none

/-- No column of a table is selected twice. -/
def Sql.ColumnsOnce (es : List Expr) : Prop := (es.filterMap Expr.column?).Nodup

/-- The select has the expression under the given name. If it is a column of a table, it has it
    under no other, and only once. -/
def Sql.Select.Gives (s : Select) (e : Expr) (name : String) : Prop :=
  e.as name ∈ s.columns ∧
    ∀ c, e = .column c → s.columns.filter (fun e' => e'.column? = some c) = [e.as name]

/-! ## What is read of a node -/

namespace Scope

/-- What a selected field is read from. -/
def fieldExpr (c : Compiler) (s : Scope) (f : SelectedField) : Except QueryError Expr := do
  geometryOutput c s.name (← s.entity.scalarField f.name) f.srid

/-- What tells an object from none: the first selected field that is a key, else the first key
    field, else the first of the columns that tell a related row from none. -/
def presence (c : Compiler) (s : Scope) (selected : List SelectedField)
    (related : List Sql.Column) : Except QueryError (Option Expr) :=
  match selected.find? fun f => s.entity.isKey f.name with
  | some f => return some (← s.fieldExpr c f)
  | none => return ((← s.entity.keyFields).map s.column ++ related).head?.map .column

end Scope

/-- The columns that tell a related row of a node read as `name` from none: columns of its own, or
    of the table between it and its parent. -/
inductive Related (c : Compiler) (select : Select) (name : String) :
    Option Parent → List Sql.Column → Prop
  | root : Related c select name none []
  | direct {p : Parent} {pairs : List (String × String)} : p.link.topology = .direct pairs →
      Related c select name (some p) (pairs.map fun q => col name q.2)
  | junction {p : Parent} {table : TableRef} {toParent toChild : List (String × String)}
      {j : Join} {junction : String} : p.link.topology = .junction table toParent toChild →
      j ∈ select.joins → j.table = (c.table table).as junction →
      Related c select name (some p) (toChild.map fun q => col junction q.1)

/-- What is read of the rows of a node apart from its fields. -/
structure RowReads (c : Compiler) (s : Scope) (parent : Option Parent) (r : ObjectRequest)
    (nd : Node) : Prop where
  entity : c.schema.entity r.entity = .ok s.entity
  tables : nd.select.tables = [(c.entityTable s.entity r.context).as s.name]
  once : Sql.ColumnsOnce nd.select.columns
  order : List.Forall₂ (fun k term => ∃ f x, s.entity.scalarField k.field = .ok f ∧
    nd.select.Gives (.column (s.column f)) x ∧ term = ⟨.column { name := x }, k.direction⟩)
    r.sort nd.select.order
  related : ∃ related, Related c nd.select s.name parent related ∧
    List.Forall₂ nd.select.Gives
      (if parent.any (·.selectsExists) then related.map .column else []) nd.existsColumns ∧
    ∃ presence, s.presence c r.selected related = .ok presence ∧
      Option.Rel nd.select.Gives presence nd.assembler.checkNull

mutual

/-- A node has every column once, and all that is read of its rows is read under these names. -/
inductive NodeReads (c : Compiler) : Option Parent → ObjectRequest → Node → Prop
  | node {parent : Option Parent} {r : ObjectRequest} {nd : Node} {s : Scope} :
      RowReads c s parent r nd → FieldsRead c nd.select s r nd.assembler.fields →
      NodeReads c parent r nd

/-- How the fields of a request are read from the rows of a select. -/
inductive FieldsRead (c : Compiler) :
    Select → Scope → ObjectRequest → List (String × FieldReader) → Prop
  | fields {select : Select} {s : Scope} {r : ObjectRequest}
      {selected objects aggregates : List (String × FieldReader)} :
      List.Forall₂ (fun f field => ∃ e x, s.fieldExpr c f = .ok e ∧ select.Gives e x ∧
        field = (f.label, .column x)) r.selected selected →
      ObjectsRead c select s r.objects objects →
      List.Forall₂ (fun a field => field.1 = a.label) r.aggregates aggregates →
      FieldsRead c select s r (selected ++ objects ++ aggregates)

/-- How nested objects are read, one by one. -/
inductive ObjectsRead (c : Compiler) :
    Select → Scope → List ObjectFieldRequest → List (String × FieldReader) → Prop
  | nil {select : Select} {s : Scope} : ObjectsRead c select s [] []
  | cons {select : Select} {s : Scope} {o : ObjectFieldRequest} {os : List ObjectFieldRequest}
      {field : String × FieldReader} {fields : List (String × FieldReader)} :
      ObjectReads c select s o field → ObjectsRead c select s os fields →
      ObjectsRead c select s (o :: os) (field :: fields)

/-- An embedded object is read from the same rows under the same names; of many objects there is
    the key; and the query of one object is joined, which is a node of its own. -/
inductive ObjectReads (c : Compiler) :
    Select → Scope → ObjectFieldRequest → String × FieldReader → Prop
  | embedded {select : Select} {s : Scope} {o : ObjectFieldRequest} {f : ObjectField}
      {target : Entity} {fields : List (String × FieldReader)} :
      s.entity.objectField o.field = .ok f → f.isEmbedded = true →
      c.schema.entity f.target = .ok target →
      FieldsRead c select ⟨target, s.name⟩ o.request fields →
      ObjectReads c select s o (o.label, .object { fields })
  | toMany {select : Select} {s : Scope} {o : ObjectFieldRequest} {f : ObjectField} {link : Link}
      {columns : List (String × String)} :
      s.entity.objectField o.field = .ok f → f.isEmbedded = false → f.isList = true →
      Link.resolve c.schema s.entity f = .ok link →
      List.Forall₂ (fun column p => p.1 = column ∧ select.Gives (.column (col s.name column)) p.2)
        link.parentColumns columns →
      ObjectReads c select s o (joinLabel o.label, .joinKey columns)
  | toOne {select : Select} {s : Scope} {o : ObjectFieldRequest} {f : ObjectField} {link : Link}
      {child : Node} {wrapper : String} :
      s.entity.objectField o.field = .ok f → f.isEmbedded = false → f.isList = false →
      Link.resolve c.schema s.entity f = .ok link →
      NodeReads c (some ⟨link, s.name, false⟩) o.request child →
      .ofLateral child.select.first wrapper ∈ select.joins →
      ObjectReads c select s o (o.label, .object child.assembler)

end

/-! ## Drafts -/

/-- If nothing is given twice, what is given by a member is given by it alone. -/
theorem filter_mem_eq_singleton {α β : Type} [DecidableEq β] {g : α → List β} {l : List α}
    (h : (l.flatMap g).Nodup) {a : α} {b : β} (ha : a ∈ l) (hb : b ∈ g a) :
    l.filter (fun x => b ∈ g x) = [a] := by
  induction l with
  | nil => cases ha
  | cons x l ih =>
    rw [List.flatMap_cons] at h
    have hdisjoint {y : α} (hy : y ∈ l) (hyb : b ∈ g y) : b ∉ g x := fun hx =>
      List.disjoint_of_nodup_append h hx (List.mem_flatMap.2 ⟨y, hy, hyb⟩)
    rcases List.mem_cons.1 ha with rfl | ha
    · have hnone : l.filter (fun x => b ∈ g x) = [] :=
        List.filter_eq_nil_iff.2 fun y hy hyb => hdisjoint hy (by simpa using hyb) hb
      rw [List.filter_cons_of_pos (by simpa using hb), hnone]
    · rw [List.filter_cons_of_neg (by simpa using hdisjoint ha hb), ih h.of_append_right ha]

theorem filter_eq_singleton {α β : Type} [DecidableEq β] {f : α → Option β} {l : List α}
    (h : (l.filterMap f).Nodup) {a : α} {b : β} (ha : a ∈ l) (hb : f a = some b) :
    l.filter (fun x => f x = some b) = [a] := by
  have hflat : (l.flatMap fun x => (f x).toList).Nodup := by
    rwa [← List.filterMap_eq_flatMap_toList]
  simpa using filter_mem_eq_singleton hflat ha (b := b) (by simpa using hb)

@[simp] theorem Sql.Expr.column?_as (e : Expr) (name : String) : (e.as name).column? = e.column? :=
  rfl

/-- Among columns that stand once, a member is under the one name that its column has. -/
theorem Sql.Select.gives_of_mem {s : Select} (h : Sql.ColumnsOnce s.columns) {e : Expr}
    {name : String} (he : e.as name ∈ s.columns) : s.Gives e name := by
  refine ⟨he, ?_⟩
  rintro c rfl
  exact filter_eq_singleton h he rfl

namespace Draft

/-- The draft has every column once, and all columns under names. -/
structure Tidy (d : Draft) : Prop where
  once : Sql.ColumnsOnce d.columns
  named : ∀ c, .column c ∉ d.columns

/-- The draft has become part of the select. -/
def PartOf (d : Draft) (s : Select) : Prop := d.columns ⊆ s.columns ∧ d.joins ⊆ s.joins

theorem Tidy.empty : ({} : Draft).Tidy := ⟨List.nodup_nil, fun _ => List.not_mem_nil⟩

variable {d : Draft}

theorem mem_of_nameOf? {c : Sql.Column} {name : String} (h : d.nameOf? c = some name) :
    (Expr.column c).as name ∈ d.columns := by
  obtain ⟨e, he, hname⟩ := List.exists_of_findSome?_eq_some h
  unfold columnName? at hname
  split at hname
  · split_ifs at hname with hc
    obtain rfl := Option.some.inj hname
    exact hc ▸ he
  · cases hname

/-- A column without a name is not selected. -/
theorem Tidy.notMem_of_nameOf? (hd : d.Tidy) {c : Sql.Column} (h : d.nameOf? c = none) :
    c ∉ d.columns.filterMap Expr.column? := by
  intro hc
  obtain ⟨e, he, hec⟩ := List.mem_filterMap.1 hc
  have hname := List.findSome?_eq_none_iff.1 h e he
  cases e with
  | column c' => exact hd.named c' he
  | named e name =>
    cases e with
    | column c' =>
      obtain rfl : c' = c := Option.some.inj hec
      simp [columnName?] at hname
    | _ => cases hec
  | _ => cases hec

/-- An expression that is no column may be selected any number of times. -/
theorem Tidy.withColumn (hd : d.Tidy) {e : Expr} (name : String)
    (he : ∀ c ∈ e.column?, c ∉ d.columns.filterMap Expr.column?) :
    (d.withColumn (e.as name)).Tidy := by
  refine ⟨?_, fun c hc => ?_⟩
  · unfold Sql.ColumnsOnce Draft.withColumn
    rw [List.filterMap_append, List.nodup_append]
    refine ⟨hd.once, ?_, ?_⟩
    · cases hcolumn : e.column? <;> simp [hcolumn]
    · rintro c hc c' hc' rfl
      exact he c (by simpa using hc') hc
  · rcases List.mem_append.1 hc with hc | hc
    · exact hd.named c hc
    · simp [Expr.as] at hc

theorem Tidy.withLateral (hd : d.Tidy) (s : Select) (name : String) :
    (d.withLateral s name).Tidy := by
  refine ⟨?_, fun c hc => ?_⟩
  · have hstar : (Expr.star (some name)).column? = none := rfl
    simpa [Sql.ColumnsOnce, Draft.withLateral, List.filterMap_append, hstar] using hd.once
  · rcases List.mem_append.1 hc with hc | hc
    · exact hd.named c hc
    · simp at hc

end Draft

/-! ## Steps -/

/-- The step keeps the draft tidy, and what it gives holds in every select that has each column once
    and that its draft becomes part of. -/
def Provides {α : Type} (x : Drafting α) (P : Select → α → Prop) : Prop :=
  ∀ ⦃d n a d' n'⦄, x d n = .ok ((a, d'), n') → d.Tidy →
    d'.Tidy ∧ ∀ s : Select, d'.PartOf s → d.PartOf s ∧ (Sql.ColumnsOnce s.columns → P s a)

namespace Provides

variable {α β : Type} {P : Select → α → Prop}

theorem pure (a : α) : Provides (Pure.pure a) fun _ b => b = a := by
  intro d n b d' n' hrun hd
  obtain ⟨rfl, rfl, rfl⟩ := draft_pure_run.1 hrun
  exact ⟨hd, fun s hs => ⟨hs, fun _ => rfl⟩⟩

theorem throw {e : QueryError} : Provides (MonadExcept.throw e : Drafting α) P :=
  fun _ _ _ _ _ hrun => (draft_throw_run.1 hrun).elim

theorem imp {P' : Select → α → Prop} {x : Drafting α} (hx : Provides x P)
    (h : ∀ s a, P s a → P' s a) : Provides x P' := by
  intro d n a d' n' hrun hd
  obtain ⟨hd', hs⟩ := hx hrun hd
  exact ⟨hd', fun s hpart => (hs s hpart).imp_right fun hP honce => h s a (hP honce)⟩

theorem bind {x : Drafting α} {f : α → Drafting β} {Q : α → Select → β → Prop} (hx : Provides x P)
    (hf : ∀ a, Provides (f a) (Q a)) : Provides (x >>= f) fun s b => ∃ a, P s a ∧ Q a s b := by
  intro d n b d' n' hrun hd
  obtain ⟨a, d₁, n₁, h₁, h₂⟩ := draft_bind_run.1 hrun
  obtain ⟨hd₁, hs₁⟩ := hx h₁ hd
  obtain ⟨hd', hs₂⟩ := hf a h₂ hd₁
  refine ⟨hd', fun s hpart => ?_⟩
  obtain ⟨hpart₁, hQ⟩ := hs₂ s hpart
  obtain ⟨hpart₀, hP⟩ := hs₁ s hpart₁
  exact ⟨hpart₀, fun honce => ⟨a, hP honce, hQ honce⟩⟩

theorem compile_bind {x : Compile β} {f : β → Drafting α}
    (hf : ∀ ⦃n b n'⦄, x n = .ok (b, n') → Provides (f b) P) : Provides (liftM x >>= f) P := by
  intro d n a d' n' hrun
  obtain ⟨b, d₁, n₁, h₁, h₂⟩ := draft_bind_run.1 hrun
  obtain ⟨hx, rfl⟩ := draft_compile_run.1 h₁
  exact hf hx h₂

theorem lift_bind {x : Except QueryError β} {f : β → Drafting α}
    (hf : ∀ b, x = .ok b → Provides (f b) P) : Provides (liftM x >>= f) P :=
  compile_bind fun _ _ _ h => hf _ (lift_run.1 h).1

theorem model_bind {x : Except ModelError β} {f : β → Drafting α}
    (hf : ∀ b, x = .ok b → Provides (f b) P) : Provides (liftM x >>= f) P :=
  compile_bind fun _ _ _ h => hf _ (lift_model_run.1 h).1

theorem mapM {f : α → Drafting β} {P : α → Select → β → Prop} {as : List α}
    (hf : ∀ a ∈ as, Provides (f a) (P a)) :
    Provides (as.mapM f) fun s bs => List.Forall₂ (fun a b => P a s b) as bs := by
  induction as with
  | nil =>
    refine (pure []).imp ?_
    rintro s _ rfl
    exact .nil
  | cons a as ih =>
    rw [List.mapM_cons]
    have htail := ih fun b hb => hf b (List.mem_cons_of_mem _ hb)
    refine ((hf a List.mem_cons_self).bind fun b => htail.bind fun bs => pure (b :: bs)).imp ?_
    rintro s _ ⟨b, hb, bs, hbs, rfl⟩
    exact .cons hb hbs

theorem selectExpr {e : Expr} (he : e.column? = none) :
    Provides (selectExpr e) fun s x => s.Gives e x := by
  intro d n x d' n' hrun hd
  obtain ⟨-, rfl⟩ := selectExpr_run.1 hrun
  refine ⟨hd.withColumn x (by simp [he]), fun s hs => ⟨⟨?_, hs.2⟩, fun honce => ?_⟩⟩
  · exact (List.append_subset.1 hs.1).1
  · exact Select.gives_of_mem honce (hs.1 (List.mem_append_right _ List.mem_cons_self))

/-- A column is selected unless it is, and has one name. -/
theorem selectColumn (c : Sql.Column) :
    Provides (selectColumn c) fun s x => s.Gives (.column c) x := by
  intro d n x d' n' hrun hd
  rcases selectColumn_run.1 hrun with ⟨hname, rfl, rfl⟩ | ⟨hname, hrun⟩
  · exact ⟨hd, fun s hs => ⟨hs, fun honce =>
      Select.gives_of_mem honce (hs.1 (Draft.mem_of_nameOf? hname))⟩⟩
  · obtain ⟨-, rfl⟩ := selectExpr_run.1 hrun
    have hnew := hd.notMem_of_nameOf? hname
    refine ⟨hd.withColumn x ?_, fun s hs => ⟨⟨?_, hs.2⟩, fun honce => ?_⟩⟩
    · rintro _ ⟨rfl⟩
      exact hnew
    · exact (List.append_subset.1 hs.1).1
    · exact Select.gives_of_mem honce (hs.1 (List.mem_append_right _ List.mem_cons_self))

theorem joinLateral (s : Select) (name : String) :
    Provides (joinLateral s name) fun s' _ => .ofLateral s name ∈ s'.joins := by
  intro d n u d' n' hrun hd
  obtain ⟨rfl, -⟩ := joinLateral_run.1 hrun
  refine ⟨hd.withLateral s name, fun s' hs => ⟨⟨?_, ?_⟩, fun _ => ?_⟩⟩
  · exact (List.append_subset.1 hs.1).1
  · exact (List.append_subset.1 hs.2).1
  · exact hs.2 (List.mem_append_right _ List.mem_cons_self)

end Provides

/-! ### Fields -/

/-- A geometry is put out as a column, or as something that is none. -/
theorem Provides.selectField (c : Compiler) (s : Scope) (f : SelectedField) :
    Provides (selectField c s f) fun select p =>
      p.1 = f ∧ ∃ e, s.fieldExpr c f = .ok e ∧ select.Gives e p.2 := by
  refine model_bind fun field hfield => ?_
  cases field with
  | object _ => exact throw
  | scalar field =>
    refine lift_bind fun e he => ?_
    have hexpr : s.fieldExpr c f = .ok e :=
      bind_ok.2 ⟨field, lift_model_ok.2 (Entity.scalarField_ok.2 hfield), he⟩
    have hpair {x : Drafting String} (hx : Provides x fun select name => select.Gives e name) :
        Provides (do return (f, ← x)) fun select p =>
          p.1 = f ∧ ∃ e, s.fieldExpr c f = .ok e ∧ select.Gives e p.2 := by
      refine (hx.bind fun name => pure (f, name)).imp ?_
      rintro select _ ⟨name, hname, rfl⟩
      exact ⟨rfl, e, hexpr, hname⟩
    have hselected : Selected s.name [] e := selected_of_geometryOutput he
    cases hselected with
    | column column => exact hpair (selectColumn _)
    | relabelled column v => exact hpair (selectExpr rfl)
    | related h => cases h

/-- The label of aggregates is that of their request. -/
theorem Provides.selectAggregates (c : Compiler) (s : Scope) (r : AggregateRequest) :
    Provides (selectAggregates c s r) fun _ field => field.1 = r.label := by
  have hshared (link : Link) (as : List SourcedAggregate) :
      Provides (selectShared c link s.name r.filters as) fun _ _ => True := by
    unfold LateralSql.selectShared
    split
    · exact (pure _).imp fun _ _ _ => trivial
    · refine compile_bind fun _ _ _ _ => compile_bind fun _ _ _ _ => ?_
      exact ((joinLateral _ _).bind fun _ => pure _).imp fun _ _ _ => trivial
  have hunnested (link : Link) (a : SourcedAggregate) :
      Provides (selectUnnested c link s.name r.filters a) fun _ _ => True := by
    refine compile_bind fun _ _ _ _ => compile_bind fun _ _ _ _ => compile_bind fun _ _ _ _ =>
      compile_bind fun _ _ _ _ => lift_bind fun _ _ => ?_
    exact ((joinLateral _ _).bind fun _ => pure _).imp fun _ _ _ => trivial
  refine model_bind fun f _ => lift_bind fun link _ => model_bind fun sourced _ => ?_
  refine ((hshared link _).bind fun shared =>
    (mapM fun a _ => hunnested link a).bind fun unnested => pure _).imp ?_
  rintro select _ ⟨_, -, _, -, rfl⟩
  rfl

/-- The key of many objects has the columns of the parent. -/
theorem Provides.selectJoinKey (c : Compiler) (s : Scope) (f : ObjectField) (label : String) :
    Provides (selectJoinKey c s f label) fun select field => ∃ link columns,
      Link.resolve c.schema s.entity f = .ok link ∧
      List.Forall₂ (fun column p => p.1 = column ∧ select.Gives (.column (col s.name column)) p.2)
        link.parentColumns columns ∧ field = (joinLabel label, .joinKey columns) := by
  refine lift_bind fun link hlink => ?_
  have hcolumn (column : String) :
      Provides (do return (column, ← LateralSql.selectColumn (col s.name column)))
        fun select (p : String × String) =>
          p.1 = column ∧ select.Gives (.column (col s.name column)) p.2 := by
    refine ((selectColumn _).bind fun name => pure (column, name)).imp ?_
    rintro select _ ⟨name, hname, rfl⟩
    exact ⟨rfl, hname⟩
  refine ((mapM fun column _ => hcolumn column).bind fun columns =>
    pure (joinLabel label, FieldReader.joinKey columns)).imp ?_
  rintro select _ ⟨columns, hcolumns, rfl⟩
  exact ⟨link, columns, hlink, hcolumns, rfl⟩

theorem Provides.selectOrder (s : Scope) (k : SortKey) :
    Provides (selectOrder s k) fun select term => ∃ f x, s.entity.scalarField k.field = .ok f ∧
      select.Gives (.column (s.column f)) x ∧ term = ⟨.column { name := x }, k.direction⟩ := by
  refine model_bind fun f hf => ((selectColumn (s.column f)).bind fun x => pure _).imp ?_
  rintro select _ ⟨x, hx, rfl⟩
  exact ⟨f, x, hf, hx, rfl⟩

/-! ### Presence -/

theorem Provides.selectKey (s : Scope) (selected : List (SelectedField × String)) :
    Provides (selectKey s selected) fun select key =>
      (∃ x, selectedKey? s.entity selected = some x ∧ key = some x) ∨
      (selectedKey? s.entity selected = none ∧ ∃ keys, s.entity.keyFields = .ok keys ∧
        Option.Rel select.Gives ((keys.map s.column).head?.map .column) key) := by
  unfold LateralSql.selectKey
  cases hkey : selectedKey? s.entity selected with
  | some x =>
    refine (pure _).imp ?_
    rintro select _ rfl
    exact .inl ⟨x, rfl, rfl⟩
  | none =>
    refine model_bind fun keys hkeys => ?_
    cases keys with
    | nil =>
      refine (pure _).imp ?_
      rintro select _ rfl
      exact .inr ⟨rfl, [], hkeys, .none⟩
    | cons f fs =>
      refine ((selectColumn (s.column f)).bind fun x => pure (some x)).imp ?_
      rintro select _ ⟨x, hx, rfl⟩
      exact .inr ⟨rfl, f :: fs, hkeys, .some hx⟩

theorem Provides.selectRelated (key : Option String) (related : List Sql.Column) :
    Provides (selectRelated key related) fun select checkNull =>
      (∃ x, key = some x ∧ checkNull = some x) ∨
      (key = none ∧ Option.Rel select.Gives (related.head?.map .column) checkNull) := by
  cases key with
  | some x =>
    refine (pure (some x)).imp ?_
    rintro select _ rfl
    exact .inl ⟨x, rfl, rfl⟩
  | none =>
    cases related with
    | nil =>
      refine (pure none).imp ?_
      rintro select _ rfl
      exact .inr ⟨rfl, .none⟩
    | cons column rest =>
      refine ((selectColumn column).bind fun x => pure (some x)).imp ?_
      rintro select _ ⟨x, hx, rfl⟩
      exact .inr ⟨rfl, .some hx⟩

theorem Provides.selectExists (parent : Option Parent) (related : List Sql.Column) :
    Provides (selectExists parent related) fun select names =>
      List.Forall₂ select.Gives
        (if parent.any (·.selectsExists) then related.map .column else []) names := by
  have hnone : Provides (Pure.pure [] : Drafting (List String)) fun select names =>
      List.Forall₂ select.Gives [] names := by
    refine (pure []).imp ?_
    rintro select _ rfl
    exact .nil
  unfold LateralSql.selectExists
  cases parent with
  | none => exact hnone
  | some p =>
    simp only [Option.any_some]
    split
    · refine (mapM fun column _ => selectColumn column).imp fun select names h => ?_
      exact List.forall₂_map_left_iff.2 h
    · exact hnone

/-- Of related lists, the first elements of a kind are related, if related elements are of one
    kind. -/
theorem find?_rel {α β : Type} {R : α → β → Prop} {p : α → Bool} {q : β → Bool}
    {as : List α} {bs : List β} (h : List.Forall₂ R as bs) (hpq : ∀ a b, R a b → p a = q b) :
    Option.Rel R (as.find? p) (bs.find? q) := by
  induction h with
  | nil => exact .none
  | @cons a b as bs hab _ ih =>
    rw [List.find?_cons, List.find?_cons, hpq a b hab]
    split
    · exact .some hab
    · exact ih

/-- What tells an object from none is read of a selected key, of the first key field, or of a
    column that tells a related row from none. -/
theorem presence_reads {c : Compiler} {s : Scope} {select : Select} {fs : List SelectedField}
    {selected : List (SelectedField × String)} {related : List Sql.Column}
    {key checkNull : Option String}
    (hselected : List.Forall₂ (fun f p => p.1 = f ∧ ∃ e, s.fieldExpr c f = .ok e ∧
      select.Gives e p.2) fs selected)
    (hkey : (∃ x, selectedKey? s.entity selected = some x ∧ key = some x) ∨
      (selectedKey? s.entity selected = none ∧ ∃ keys, s.entity.keyFields = .ok keys ∧
        Option.Rel select.Gives ((keys.map s.column).head?.map .column) key))
    (hrelated : (∃ x, key = some x ∧ checkNull = some x) ∨
      (key = none ∧ Option.Rel select.Gives (related.head?.map .column) checkNull)) :
    ∃ presence, s.presence c fs related = .ok presence ∧
      Option.Rel select.Gives presence checkNull := by
  have hfind := find?_rel (p := fun f => s.entity.isKey f.name)
    (q := fun p => s.entity.isKey p.1.name) hselected fun f p h => by rw [h.1]
  unfold selectedKey? at hkey
  unfold Scope.presence
  generalize (fs.find? fun f => s.entity.isKey f.name) = wanted at hfind ⊢
  generalize (selected.find? fun p => s.entity.isKey p.1.name) = read at hfind hkey
  cases hfind with
  | none =>
    obtain ⟨-, keys, hkeys, hkey⟩ := hkey.resolve_left (by simp)
    refine ⟨_, bind_ok.2 ⟨keys, lift_model_ok.2 hkeys, rfl⟩, ?_⟩
    cases keys with
    | nil =>
      cases hkey
      obtain ⟨-, hnull⟩ := hrelated.resolve_left (by simp)
      exact hnull
    | cons f rest =>
      cases hkey with
      | @some _ x hx =>
        obtain ⟨_, hx', rfl⟩ := hrelated.resolve_right (by simp)
        obtain rfl := Option.some.inj hx'
        exact .some hx
  | @some f p hp =>
    obtain ⟨-, e, he, hgives⟩ := hp
    obtain ⟨_, hx, rfl⟩ := hkey.resolve_right (by simp)
    obtain ⟨_, hx', rfl⟩ := hrelated.resolve_right (by simp)
    obtain rfl := Option.some.inj hx'
    obtain rfl := Option.some.inj hx
    exact ⟨some e, bind_ok.2 ⟨e, he, rfl⟩, .some hgives⟩

/-! ## Nodes -/

theorem related_of_correlate {c : Compiler} {parent : Option Parent} {name : String}
    {r : Correlation} {n n' : Names} (h : correlateParent c parent name n = .ok (r, n'))
    {select : Select} (hjoins : r.joins ⊆ select.joins) :
    Related c select name parent r.existsColumns := by
  cases parent with
  | none =>
    obtain ⟨rfl, -⟩ := pure_run.1 h
    exact .root
  | some p =>
    rcases Link.correlate_cases h with ⟨_, htop, -, rfl⟩ | ⟨t, _, _, htop, junction, -, rfl⟩
    · exact .direct htop
    · exact .junction htop (hjoins List.mem_cons_self) rfl

theorem fields_read {c : Compiler} {select : Select} {s : Scope} {r : ObjectRequest}
    {selected : List (SelectedField × String)} {objects aggregates : List (String × FieldReader)}
    (hselected : List.Forall₂ (fun f p => p.1 = f ∧ ∃ e, s.fieldExpr c f = .ok e ∧
      select.Gives e p.2) r.selected selected)
    (hobjects : ObjectsRead c select s r.objects objects)
    (haggregates : List.Forall₂ (fun a field => field.1 = a.label) r.aggregates aggregates) :
    FieldsRead c select s r (columnReaders selected ++ objects ++ aggregates) := by
  refine .fields ?_ hobjects haggregates
  rw [columnReaders, List.forall₂_map_right_iff]
  refine hselected.imp ?_
  rintro f p ⟨rfl, e, he, hgives⟩
  exact ⟨e, p.2, he, hgives, rfl⟩

/-- How a node is read, if its objects are read as wanted. -/
theorem NodeRun.reads {c : Compiler} {parent : Option Parent} {r : ObjectRequest} {n n' : Names}
    (run : NodeRun c parent r n n')
    (hobjects : Provides (objectReaders c ⟨run.entity, run.name⟩ r.objects) fun select fields =>
      ObjectsRead c select ⟨run.entity, run.name⟩ r.objects fields) :
    NodeReads c parent r run.node := by
  obtain ⟨hd₁, hselected⟩ := Provides.mapM (fun f _ => .selectField c _ f) run.selected_run .empty
  obtain ⟨hd₂, hkey⟩ := Provides.selectKey _ _ run.key_run hd₁
  obtain ⟨hd₃, hobjects⟩ := hobjects run.objects_run hd₂
  obtain ⟨hd₄, haggregates⟩ :=
    Provides.mapM (fun a _ => .selectAggregates c _ a) run.aggregates_run hd₃
  obtain ⟨hd₅, horder⟩ := Provides.mapM (fun k _ => .selectOrder _ k) run.order_run hd₄
  obtain ⟨hd₆, hexists⟩ := Provides.selectExists _ _ run.exists_run hd₅
  obtain ⟨hdraft, hrelated⟩ := Provides.selectRelated _ _ run.related_run hd₆
  have honce : Sql.ColumnsOnce run.node.select.columns := hdraft.once
  -- each draft is part of the next, and the last is part of the select
  have hpart : run.draft.PartOf run.node.select :=
    ⟨List.Subset.refl _, List.subset_append_right _ _⟩
  obtain ⟨hpart, hrelated⟩ := hrelated _ hpart
  obtain ⟨hpart, hexists⟩ := hexists _ hpart
  obtain ⟨hpart, horder⟩ := horder _ hpart
  obtain ⟨hpart, haggregates⟩ := haggregates _ hpart
  obtain ⟨hpart, hobjects⟩ := hobjects _ hpart
  obtain ⟨hpart, hkey⟩ := hkey _ hpart
  obtain ⟨-, hselected⟩ := hselected _ hpart
  refine .node (s := ⟨run.entity, run.name⟩) ⟨run.entity_run, rfl, honce, horder honce, ?_⟩ ?_
  · refine ⟨run.correlation.existsColumns, ?_, hexists honce,
      presence_reads (hselected honce) (hkey honce) (hrelated honce)⟩
    refine related_of_correlate run.correlation_run ?_
    exact List.Subset.trans (List.subset_append_left _ _) (List.subset_append_left _ _)
  · exact fields_read (hselected honce) (hobjects honce) (haggregates honce)

mutual

theorem node_reads {c : Compiler} :
    ∀ (r : ObjectRequest) {parent : Option Parent} {n n' : Names} {nd : Node},
      node c parent r n = .ok (nd, n') → NodeReads c parent r nd
  | ⟨entity, selected, objects, aggregates, filters, sort, paging, keys, context⟩,
    parent, n, n', nd, h => by
    obtain ⟨run, rfl⟩ := node_run h
    exact run.reads (objectReaders_provide objects _)
termination_by structural r => r

theorem objectReaders_provide {c : Compiler} :
    ∀ (os : List ObjectFieldRequest) (s : Scope),
      Provides (objectReaders c s os) fun select fields => ObjectsRead c select s os fields
  | [], s => by
    rw [objectReaders]
    refine (Provides.pure []).imp ?_
    rintro select _ rfl
    exact .nil
  | o :: rest, s => by
    rw [objectReaders]
    refine ((objectReader_provides o s).bind fun field =>
      (objectReaders_provide rest s).bind fun fields => .pure (field :: fields)).imp ?_
    rintro select _ ⟨field, hfield, fields, hfields, rfl⟩
    exact .cons hfield hfields
termination_by structural os => os

theorem objectReader_provides {c : Compiler} :
    ∀ (o : ObjectFieldRequest) (s : Scope),
      Provides (objectReader c s o) fun select field => ObjectReads c select s o field
  | ⟨field, label, request⟩, s => by
    rw [objectReader]
    refine .model_bind fun f hf => ?_
    split_ifs with htarget hembedded hcriteria hlist
    · exact .throw
    · exact .throw
    · refine .model_bind fun target hentity => ?_
      refine ((embeddedReaders_provide request ⟨target, s.name⟩).bind fun fields =>
        .pure (label, FieldReader.object { fields })).imp ?_
      rintro select _ ⟨fields, hfields, rfl⟩
      exact .embedded hf hembedded hentity hfields
    · refine (Provides.selectJoinKey c s f label).imp ?_
      rintro select _ ⟨link, columns, hlink, hcolumns, rfl⟩
      exact .toMany hf (by simpa using hembedded) hlist hlink hcolumns
    · refine .compile_bind fun _ wrapper _ _ => .lift_bind fun link hlink =>
        .compile_bind fun _ child _ hchild => ?_
      refine ((Provides.joinLateral child.select.first wrapper).bind fun _ =>
        .pure (label, FieldReader.object child.assembler)).imp ?_
      rintro select _ ⟨_, hjoin, rfl⟩
      exact .toOne hf (by simpa using hembedded) (by simpa using hlist) hlink
        (node_reads request hchild) hjoin
termination_by structural o => o

theorem embeddedReaders_provide {c : Compiler} :
    ∀ (r : ObjectRequest) (s : Scope),
      Provides (embeddedReaders c s r) fun select fields => FieldsRead c select s r fields
  | ⟨entity, selected, objects, aggregates, filters, sort, paging, keys, context⟩, s => by
    rw [embeddedReaders]
    refine ((Provides.mapM fun f _ => .selectField c s f).bind fun selected =>
      (objectReaders_provide objects s).bind fun objects =>
      (Provides.mapM fun a _ => .selectAggregates c s a).bind fun aggregates =>
      .pure (columnReaders selected ++ objects ++ aggregates)).imp ?_
    rintro select _ ⟨selected, hselected, objects, hobjects, aggregates, haggregates, rfl⟩
    exact fields_read hselected hobjects haggregates
termination_by structural r => r

end

/-! ## How many columns there are -/

namespace Entity

/-- The key field that is needed beside the selected fields: the first, if no key is selected. -/
def unselectedKey (e : Entity) (selected : List SelectedField) :
    Except ModelError (List ScalarField) :=
  if selected.any fun f => e.isKey f.name then return [] else return (← e.keyFields).take 1

/-- The columns that a request for scalar fields alone needs, as often as it needs them. -/
def neededColumns (e : Entity) (selected : List SelectedField) :
    Except ModelError (List String) := do
  let fields ← selected.mapM fun f => e.scalarField f.name
  let key ← e.unselectedKey selected
  return (fields ++ key).map (·.column)

end Entity

/-- There are as many expressions as columns of a table, if each is a column and each column is
    among them. -/
theorem length_eq_card {es : List Expr} (table : String) {columns : List String}
    (honce : Sql.ColumnsOnce es)
    (hes : ∀ e ∈ es, ∃ column ∈ columns, e.column? = some (col table column))
    (hcolumns : ∀ column ∈ columns, ∃ e ∈ es, e.column? = some (col table column)) :
    es.length = columns.toFinset.card := by
  have hinjective : (col table).Injective := fun _ _ h => congrArg Sql.Column.name h
  have hlength : (es.filterMap Expr.column?).length = es.length := by
    rw [List.length_filterMap_eq_countP, List.countP_eq_length]
    intro e he
    obtain ⟨_, -, hcolumn⟩ := hes e he
    simp [hcolumn]
  rw [← hlength, ← List.toFinset_card_of_nodup honce,
    ← Finset.card_image_of_injective _ hinjective]
  congr 1
  ext c
  rw [List.mem_toFinset, List.mem_filterMap, Finset.mem_image]
  constructor
  · rintro ⟨e, he, hc⟩
    obtain ⟨column, hmem, hcolumn⟩ := hes e he
    exact ⟨column, List.mem_toFinset.2 hmem, Option.some.inj (hcolumn.symm.trans hc)⟩
  · rintro ⟨column, hmem, rfl⟩
    exact hcolumns column (List.mem_toFinset.1 hmem)

theorem Added.mem_columns {Sel : Expr → Prop} {n n' : Names} {d : Draft}
    (h : Added Sel (fun _ _ _ => False) n d n') :
    ∀ e ∈ d.columns, ∃ e' x, Sel e' ∧ e'.as x = e := by
  induction h with
  | nothing _ => exact fun _ he => (List.not_mem_nil he).elim
  | @column _ _ e name hSel _ =>
    intro e' he'
    exact ⟨e, name, hSel, (List.mem_singleton.1 he').symm⟩
  | lateral _ _ hfalse => exact hfalse.elim
  | append _ _ ih₁ ih₂ => exact fun e he => (List.mem_append.1 he).elim (ih₁ e) (ih₂ e)

/-- A field without a reference system is read from its column. -/
theorem Scope.fieldExpr_of_srid {c : Compiler} {s : Scope} {f : SelectedField} {e : Expr}
    (hsrid : f.srid = none) (h : s.fieldExpr c f = .ok e) :
    ∃ field, s.entity.scalarField f.name = .ok field ∧ e = .column (s.column field) := by
  obtain ⟨field, hfield, he⟩ := bind_ok.1 h
  rw [hsrid] at he
  exact ⟨field, lift_model_ok.1 hfield, (pure_ok.1 he).symm⟩

/-- The fields of a request for scalars are read from their columns. -/
theorem exists_fields {c : Compiler} {s : Scope} {select : Select} {fs : List SelectedField}
    (hfs : ∀ f ∈ fs, ∃ e x, s.fieldExpr c f = .ok e ∧ select.Gives e x)
    (hsrid : ∀ f ∈ fs, f.srid = none) :
    ∃ fields, fs.mapM (fun f => s.entity.scalarField f.name) = .ok fields ∧
      ∀ field ∈ fields, ∃ x, select.Gives (.column (s.column field)) x := by
  have hread : ∀ f ∈ fs, ∃ field, s.entity.scalarField f.name = .ok field ∧
      ∃ x, select.Gives (.column (s.column field)) x := by
    intro f hf
    obtain ⟨e, x, he, hgives⟩ := hfs f hf
    obtain ⟨field, hfield, rfl⟩ := Scope.fieldExpr_of_srid (hsrid f hf) he
    exact ⟨field, hfield, x, hgives⟩
  obtain ⟨fields, hfields⟩ := exists_mapM_ok.2 fun f hf => (hread f hf).imp fun _ h => h.1
  refine ⟨fields, hfields, fun field hmem => ?_⟩
  obtain ⟨f, hf, hfield⟩ := (mem_mapM_ok hfields).1 hmem
  obtain ⟨field', hfield', hgives⟩ := hread f hf
  rwa [← Except.ok.inj (hfield'.symm.trans hfield)]

/-- No key is selected if no field of the request is one. -/
theorem selectedKey?_eq_none {e : Entity} {selected : List (SelectedField × String)} :
    selectedKey? e selected = none ↔
      (selected.map (·.1)).any (fun f => e.isKey f.name) = false := by
  simp [selectedKey?]

theorem exists_unselectedKey {s : Scope} {select : Select} {key : Option String}
    {selected : List (SelectedField × String)}
    (hkey : (∃ x, selectedKey? s.entity selected = some x ∧ key = some x) ∨
      (selectedKey? s.entity selected = none ∧ ∃ keys, s.entity.keyFields = .ok keys ∧
        Option.Rel select.Gives ((keys.map s.column).head?.map .column) key)) :
    ∃ fields, s.entity.unselectedKey (selected.map (·.1)) = .ok fields ∧
      (∀ f ∈ fields, ∃ x, select.Gives (.column (s.column f)) x) ∧
      ∀ f fs, selectedKey? s.entity selected = none → s.entity.keyFields = .ok (f :: fs) →
        f ∈ fields := by
  unfold Entity.unselectedKey
  rcases hkey with ⟨x, hx, -⟩ | ⟨hnone, keys, hkeys, hrel⟩
  · have hany : (selected.map (·.1)).any (fun f => s.entity.isKey f.name) = true := by
      by_contra hany
      rw [Bool.not_eq_true, ← selectedKey?_eq_none, hx] at hany
      cases hany
    rw [if_pos hany]
    refine ⟨[], rfl, List.forall_mem_nil _, fun f fs hnone => ?_⟩
    rw [hx] at hnone
    cases hnone
  · rw [if_neg (Bool.not_eq_true _ ▸ selectedKey?_eq_none.1 hnone)]
    refine ⟨keys.take 1, bind_ok.2 ⟨keys, hkeys, rfl⟩, ?_, fun f fs _ hfs => ?_⟩
    · cases keys with
      | nil => exact List.forall_mem_nil _
      | cons f fs =>
        cases hrel with
        | some hx => exact List.forall_mem_singleton.2 ⟨_, hx⟩
    · obtain rfl := Except.ok.inj (hkeys.symm.trans hfs)
      exact List.mem_cons_self

namespace NodeRun

variable {c : Compiler} {parent : Option Parent} {r : ObjectRequest} {n n' : Names}

/-- A root without objects, aggregates and order has what its fields and its key need. -/
theorem draft_of_scalar (run : NodeRun c none r n n') (hobjects : r.objects = [])
    (haggregates : r.aggregates = []) (hsort : r.sort = []) : run.draft = run.d₂ := by
  have h₃ := run.objects_run
  have h₄ := run.aggregates_run
  have h₅ := run.order_run
  rw [hobjects, objectReaders] at h₃
  rw [haggregates] at h₄
  rw [hsort] at h₅
  obtain ⟨hcorrelation, -⟩ := pure_run.1 run.correlation_run
  have h₇ := run.related_run
  rw [← hcorrelation] at h₇
  obtain ⟨-, h₂₃, -⟩ := draft_pure_run.1 h₃
  obtain ⟨-, h₃₄, -⟩ := draft_pure_run.1 h₄
  obtain ⟨-, h₄₅, -⟩ := draft_pure_run.1 h₅
  obtain ⟨-, h₅₆, -⟩ := draft_pure_run.1 run.exists_run
  have h₆₇ : run.d₆ = run.draft := by
    generalize run.key = key at h₇
    cases key <;> exact (draft_pure_run.1 h₇).2.1
  rw [← h₆₇, ← h₅₆, ← h₄₅, ← h₃₄, ← h₂₃]

/-- What is selected for the fields and the key of a request for scalars. -/
theorem added_of_scalar (run : NodeRun c parent r n n') (hsrid : ∀ f ∈ r.selected, f.srid = none)
    (fields : List ScalarField)
    (hfields : ∀ f ∈ r.selected, ∀ field, run.entity.scalarField f.name = .ok field →
      field ∈ fields)
    (hkey : ∀ f fs, selectedKey? run.entity run.selected = none →
      run.entity.keyFields = .ok (f :: fs) → f ∈ fields) :
    Added (fun e => ∃ f ∈ fields, e = .column (col run.name f.column)) (fun _ _ _ => False)
      run.n₂ run.d₂ run.n₄ := by
  have hselect (f : SelectedField) (hf : f ∈ r.selected) :
      Extends (fun e => ∃ f ∈ fields, e = .column (col run.name f.column)) (fun _ _ _ => False) []
        (selectField c ⟨run.entity, run.name⟩ f) fun p => [p.2] := by
    refine .selectField_of fun field e hfield he => ?_
    rw [hsrid f hf] at he
    exact ⟨field, hfields f hf field (Entity.scalarField_ok.2 hfield), (pure_ok.1 he).symm⟩
  obtain ⟨hd₁, -, hselected⟩ := (Extends.mapM_single hselect).from_start run.selected_run
    (.nothing le_rfl) (List.nil_subset _)
  refine ((Extends.selectKey_of fun f fs hnone hfs => ?_).from_start run.key_run hd₁ hselected).1
  exact ⟨f, hkey f fs hnone hfs, rfl⟩

/-- What the fields and the key of a request are read from, if nothing else is selected. -/
theorem reads_of_scalar (run : NodeRun c none r n n') (hdraft : run.draft = run.d₂) :
    Sql.ColumnsOnce run.node.select.columns ∧
    List.Forall₂ (fun f p => p.1 = f ∧ ∃ e, Scope.fieldExpr c ⟨run.entity, run.name⟩ f = .ok e ∧
      run.node.select.Gives e p.2) r.selected run.selected ∧
    ((∃ x, selectedKey? run.entity run.selected = some x ∧ run.key = some x) ∨
      (selectedKey? run.entity run.selected = none ∧ ∃ keys, run.entity.keyFields = .ok keys ∧
        Option.Rel run.node.select.Gives
          ((keys.map (Scope.column ⟨run.entity, run.name⟩)).head?.map .column) run.key)) := by
  obtain ⟨hd₁, hselected⟩ := Provides.mapM (fun f _ => .selectField c _ f) run.selected_run .empty
  obtain ⟨hd₂, hkey⟩ := Provides.selectKey _ _ run.key_run hd₁
  have honce : Sql.ColumnsOnce run.node.select.columns := by
    change Sql.ColumnsOnce run.draft.columns
    rw [hdraft]
    exact hd₂.once
  have hpart : run.d₂.PartOf run.node.select := by
    rw [← hdraft]
    exact ⟨List.Subset.refl _, List.subset_append_right _ _⟩
  obtain ⟨hpart, hkey⟩ := hkey _ hpart
  exact ⟨honce, (hselected _ hpart).2 honce, hkey honce⟩

theorem length_columns (run : NodeRun c none r n n') (hobjects : r.objects = [])
    (haggregates : r.aggregates = []) (hsort : r.sort = [])
    (hsrid : ∀ f ∈ r.selected, f.srid = none) :
    ∃ columns, run.entity.neededColumns r.selected = .ok columns ∧
      run.node.select.columns.length = columns.toFinset.card := by
  have hdraft := run.draft_of_scalar hobjects haggregates hsort
  obtain ⟨honce, hselected, hkey⟩ := run.reads_of_scalar hdraft
  have hnames : run.selected.map (·.1) = r.selected := by
    rw [eq_comm, ← List.forall₂_eq_eq_eq, List.forall₂_map_right_iff]
    exact hselected.imp fun _ _ h => h.1.symm
  have hread := ((List.forall₂_and_left _ _).1 (hselected.imp fun f p h =>
    (⟨h.2.imp fun e he => ⟨p.2, he⟩, trivial⟩ : (∃ e x, Scope.fieldExpr c _ f = .ok e ∧
      run.node.select.Gives e x) ∧ True))).1
  obtain ⟨fields, hfields, hgives⟩ := exists_fields hread hsrid
  obtain ⟨key, hneeded, hkeyGives, hfirst⟩ :=
    exists_unselectedKey (s := ⟨run.entity, run.name⟩) hkey
  rw [hnames] at hneeded
  have hadded := run.added_of_scalar hsrid (fields ++ key)
    (fun f hf field hfield => List.mem_append_left _ ((mem_mapM_ok hfields).2 ⟨f, hf, hfield⟩))
    fun f fs hnone hfs => List.mem_append_right _ (hfirst f fs hnone hfs)
  refine ⟨_, bind_ok.2 ⟨fields, hfields, bind_ok.2 ⟨key, hneeded, rfl⟩⟩, ?_⟩
  refine length_eq_card run.name honce (fun e he => ?_) fun column hcolumn => ?_
  · change e ∈ run.draft.columns at he
    rw [hdraft] at he
    obtain ⟨_, x, ⟨f, hf, rfl⟩, rfl⟩ := hadded.mem_columns e he
    exact ⟨f.column, List.mem_map_of_mem hf, rfl⟩
  · obtain ⟨f, hf, rfl⟩ := List.mem_map.1 hcolumn
    obtain ⟨x, hx, -⟩ : ∃ x, run.node.select.Gives (.column (col run.name f.column)) x :=
      (List.mem_append.1 hf).elim (hgives f) (hkeyGives f)
    exact ⟨_, hx, rfl⟩

end NodeRun

/-! ## Compiled requests -/

/-- The request is for scalar fields as they are stored, in no order. -/
structure ObjectRequest.IsScalar (r : ObjectRequest) : Prop where
  objects : r.objects = []
  aggregates : r.aggregates = []
  sort : r.sort = []
  srid : ∀ f ∈ r.selected, f.srid = none

theorem object_reads {c : Compiler} {r : ObjectRequest} {q : CompiledQuery}
    (h : c.object r = .ok q) :
    ∃ root, Compiler.run (node c none r) = .ok root ∧
      q = ⟨c.statement root.select, root.assembler⟩ ∧ NodeReads c none r root ∧
      (r.IsScalar → ∃ e columns, c.schema.entity r.entity = .ok e ∧
        e.neededColumns r.selected = .ok columns ∧
        root.select.columns.length = columns.toFinset.card) := by
  obtain ⟨root, hroot, h⟩ := bind_ok.1 h
  obtain rfl := pure_ok.1 h
  obtain ⟨n', hnode⟩ := run_ok.1 hroot
  refine ⟨root, hroot, rfl, node_reads r hnode, fun hscalar => ?_⟩
  obtain ⟨run, rfl⟩ := node_run hnode
  obtain ⟨columns, hcolumns, hlength⟩ :=
    run.length_columns hscalar.objects hscalar.aggregates hscalar.sort hscalar.srid
  exact ⟨run.entity, columns, run.entity_run, hcolumns, hlength⟩

/-- **A column is selected once and read under the one name it has.**  In the query of an object, a
    collection or a batch, the select of every node has no column of a table twice; the fields of
    the node and of its embedded objects, the keys of its to-many objects, its order, the columns
    that tell a related row from none, and the one that tells an object from none are read under the
    one name that their column has.  So a request for scalar fields alone selects as many columns as
    its fields have, and one more if no key is among them and the first key field is in none of
    these columns. -/
theorem columns_read_once (c : Compiler) :
    (∀ r q, c.object r = .ok q → ∃ root, Compiler.run (node c none r) = .ok root ∧
      q = ⟨c.statement root.select, root.assembler⟩ ∧ NodeReads c none r root ∧
      (r.IsScalar → ∃ e columns, c.schema.entity r.entity = .ok e ∧
        e.neededColumns r.selected = .ok columns ∧
        root.select.columns.length = columns.toFinset.card)) ∧
    (∀ r q, c.collection r = .ok q → ∃ root, Compiler.run (node c none r.root) = .ok root ∧
      q = ⟨c.statement root.select, root.assembler⟩ ∧ NodeReads c none r.root root ∧
      (r.root.IsScalar → ∃ e columns, c.schema.entity r.root.entity = .ok e ∧
        e.neededColumns r.root.selected = .ok columns ∧
        root.select.columns.length = columns.toFinset.card)) ∧
    ∀ r q, c.batch r = .ok q → ∃ b e f link name child wrapper,
      Compiler.run (batchSelect c r) = .ok b ∧ q.statement = c.statement b.select ∧
      b.select.joins = [.ofLateral child.select wrapper] ∧ q.assembler = child.assembler ∧
      q.grouping.existsColumns = child.existsColumns ∧
      c.schema.entity r.entity = .ok e ∧ e.objectField r.field = .ok f ∧
      Link.resolve c.schema e f = .ok link ∧
      NodeReads c (some ⟨link, name, true⟩) r.request child := by
  refine ⟨fun r q h => object_reads h, fun r q h => object_reads h, fun r q h => ?_⟩
  obtain ⟨b, hb, h⟩ := bind_ok.1 h
  obtain rfl := pure_ok.1 h
  obtain ⟨n', hselect⟩ := run_ok.1 hb
  obtain ⟨run, rfl⟩ := batchSelect_run hselect
  exact ⟨_, run.entity, run.field, run.link, run.name, run.child, run.wrapper, hb, rfl, rfl, rfl,
    rfl, run.entity_run, run.field_run, run.link_run, node_reads r.request run.child_run⟩

/-- A book's title under two labels and in its imprint, by which the books are sorted, and the key
    of its loans. -/
def titlesRequest : ObjectRequest where
  entity := "Book"
  selected := [⟨"title", "title", none⟩, ⟨"title", "name", none⟩]
  objects := [
    ⟨"imprint", "imprint", { entity := "Imprint", selected := [⟨"title", "title", none⟩] }⟩,
    ⟨"loans", "loans", { entity := "Loan" }⟩]
  sort := [⟨"title", .ascending⟩, ⟨"id", .descending⟩]

/-- The title is selected once, and so is the key: as the key of the loans, to sort by, and because
    no key is among the fields. -/
theorem columns_read_once_titles :
    (Compiler.run (node library none titlesRequest)).toOption.map
      (fun n => (n.select.columns.length, n.assembler.reads)) =
        some (2, ["x2", "x1", "x1", "x1", "x2"]) ∧
    (∃ q root, library.object titlesRequest = .ok q ∧
      q = ⟨library.statement root.select, root.assembler⟩ ∧
      NodeReads library none titlesRequest root) ∧
    (∃ root, Compiler.run (node library none { titlesRequest with objects := [], sort := [] }) =
      .ok root ∧ root.select.columns.length = 2) ∧
    (∃ q root, library.collection { object := titlesRequest } = .ok q ∧
      q = ⟨library.statement root.select, root.assembler⟩ ∧
      NodeReads library none titlesRequest root) ∧
    ∃ q parent child, library.batch loansRequest = .ok q ∧ q.assembler = child.assembler ∧
      NodeReads library (some parent) loansRequest.request child := by
  obtain ⟨q, hq⟩ : ∃ q, library.object titlesRequest = .ok q := ⟨_, rfl⟩
  obtain ⟨q', hq'⟩ : ∃ q, library.object { titlesRequest with objects := [], sort := [] } = .ok q :=
    ⟨_, rfl⟩
  obtain ⟨b, hb⟩ : ∃ b, library.batch loansRequest = .ok b := ⟨_, rfl⟩
  obtain ⟨hobject, hcollection, hbatch⟩ := columns_read_once library
  refine ⟨by decide +kernel, ?_, ?_, ?_, ?_⟩
  · obtain ⟨root, -, hroot, hreads, -⟩ := hobject titlesRequest q hq
    exact ⟨q, root, hq, hroot, hreads⟩
  · obtain ⟨root, hroot, -, -, hcount⟩ := hobject _ q' hq'
    obtain ⟨e, columns, he, hcolumns, hlength⟩ := hcount ⟨rfl, rfl, rfl, by simp [titlesRequest]⟩
    obtain rfl : book = e := Except.ok.inj he
    obtain rfl : ["title", "title", "id"] = columns := Except.ok.inj hcolumns
    exact ⟨root, hroot, hlength.trans (by decide)⟩
  · obtain ⟨root, -, hroot, hreads, -⟩ := hcollection { object := titlesRequest } q hq
    exact ⟨q, root, hq, hroot, hreads⟩
  · obtain ⟨_, _, _, link, name, child, _, -, -, -, hassembler, -, -, -, -, hreads⟩ :=
      hbatch loansRequest b hb
    exact ⟨b, ⟨link, name, true⟩, child, hb, hassembler, hreads⟩

end LateralSql
