/-
  The object that is read of a row has the shape of its request.

  The shape of a request is known before any query is compiled (`ObjectRequest.shape`): the labels
  of its fields in order, and below them the shapes of its nested objects.  Whatever a row holds,
  the assembler of a compiled request reads an object of that shape, or nothing.
-/
import LateralSql.Proofs.AliasAgreement
import LateralSql.Proofs.Reading

namespace LateralSql

/-! ## Shapes of answers -/

/-- What stands under a label of an answer. -/
inductive Shape where
  /-- Any value. -/
  | scalar
  /-- An object with the given members. -/
  | object (fields : List (String × Shape))
  /-- Null, or an object with the given members. -/
  | optional (fields : List (String × Shape))
  deriving Repr

mutual

/-- Whether a value has the shape. -/
def Shape.fits : Shape → Value → Bool
  | .scalar, _ => true
  | .object fields, .object members => fitsAll fields members
  | .optional fields, .object members => fitsAll fields members
  | .optional _, .null => true
  | _, _ => false
termination_by structural s => s

/-- Whether the members have the given labels and shapes, in order. -/
def Shape.fitsAll : List (String × Shape) → List (String × Value) → Bool
  | [], [] => true
  | (label, s) :: fields, (key, v) :: members => label == key && s.fits v && fitsAll fields members
  | _, _ => false
termination_by structural fields => fields

end

/-- The columns of `e` that the relation of its field `f` compares, in the order of declaration. -/
def ObjectField.declaredColumns (s : Schema) (e : Entity) (f : ObjectField) :
    Except ModelError (List String) :=
  match f.relation with
  | none => return []
  | some (.joinColumns columns) => return columns.map (·.name)
  | some (.joinTable j) => j.joinColumns.mapM (·.referencedColumn e)
  | some (.mappedBy owner) => do
    match (← (← s.entity f.target).objectField owner).relation with
    | some (.joinColumns columns) => columns.mapM (·.referencedColumn e)
    | some (.joinTable j) => j.inverseJoinColumns.mapM (·.referencedColumn e)
    | _ => return []

/-- A selected field is a scalar under its label. -/
def SelectedField.shape (f : SelectedField) : String × Shape := (f.label, .scalar)

/-- Aggregates are an object of scalars. -/
def AggregateRequest.shape (r : AggregateRequest) : String × Shape :=
  (r.label, .object (r.aggregates.map fun a => (a.label, .scalar)))

mutual

/-- The members of the object that a request asks for: the selected fields, the nested objects, the
    aggregates. -/
def ObjectRequest.shape (s : Schema) : ObjectRequest → Except ModelError (List (String × Shape))
  | ⟨entity, selected, objects, aggregates, _, _, _, _, _⟩ => do
    let nested ← objectShapes s (← s.entity entity) objects
    return selected.map (·.shape) ++ nested ++ aggregates.map (·.shape)
termination_by structural r => r

/-- The members for some of the objects of a row of `e`. -/
def objectShapes (s : Schema) (e : Entity) :
    List ObjectFieldRequest → Except ModelError (List (String × Shape))
  | [] => return []
  | o :: rest => return (← o.shape s e) :: (← objectShapes s e rest)
termination_by structural os => os

/-- An embedded object is always there, and one that a field relates may be missing.  Of many
    related objects there is their key, by its columns. -/
def ObjectFieldRequest.shape (s : Schema) (e : Entity) :
    ObjectFieldRequest → Except ModelError (String × Shape)
  | ⟨field, label, request⟩ => do
    let f ← e.objectField field
    if f.isEmbedded then return (label, .object (← request.shape s))
    else if f.isList then
      return ("$join:" ++ label, .object ((← f.declaredColumns s e).map (·, .scalar)))
    else return (label, .optional (← request.shape s))
termination_by structural o => o

end

/-! ## Members -/

namespace Shape

theorem fitsAll_append {fs gs : List (String × Shape)} {ms ks : List (String × Value)}
    (hf : fitsAll fs ms = true) (hg : fitsAll gs ks = true) :
    fitsAll (fs ++ gs) (ms ++ ks) = true := by
  induction fs generalizing ms with
  | nil =>
    cases ms with
    | nil => exact hg
    | cons m ms => cases hf
  | cons f fs ih =>
    cases ms with
    | nil => cases hf
    | cons m ms =>
      rw [fitsAll, Bool.and_eq_true] at hf
      rw [List.cons_append, List.cons_append, fitsAll, Bool.and_eq_true]
      exact ⟨hf.1, ih hf.2⟩

/-- Members without a shape of their own are given by their labels. -/
theorem fitsAll_scalars {α : Type} {label : α → String} {xs : List α} {ms : List (String × Value)}
    (h : ms.map (·.1) = xs.map label) :
    fitsAll (xs.map fun x => (label x, .scalar)) ms = true := by
  induction xs generalizing ms with
  | nil =>
    obtain rfl := List.map_eq_nil_iff.1 h
    rfl
  | cons x xs ih =>
    obtain ⟨m, rest, rfl, hm, hrest⟩ := List.map_eq_cons_iff.1 h
    rw [List.map_cons, fitsAll, ih hrest, hm]
    simp [fits]

end Shape

/-- Whatever the row, the fields are read to members of the given shapes. -/
def Yields (fields : List (String × FieldReader)) (shapes : List (String × Shape)) : Prop :=
  ∀ row, Shape.fitsAll shapes (Assembler.readFields row fields) = true

namespace Yields

theorem append {fs gs : List (String × FieldReader)} {ss ts : List (String × Shape)}
    (hf : Yields fs ss) (hg : Yields gs ts) : Yields (fs ++ gs) (ss ++ ts) := by
  intro row
  rw [Assembler.readFields_eq, List.map_append, ← Assembler.readFields_eq,
    ← Assembler.readFields_eq]
  exact Shape.fitsAll_append (hf row) (hg row)

theorem nil : Yields [] [] := fun _ => rfl

theorem single {label : String} {f : FieldReader} {s : Shape}
    (h : ∀ row, s.fits (Assembler.readField row f) = true) : Yields [(label, f)] [(label, s)] := by
  intro row
  rw [Assembler.readFields, Shape.fitsAll, h row]
  simp [Assembler.readFields, Shape.fitsAll]

/-- Fields without a shape of their own are given by their labels. -/
theorem columns {α : Type} {label : α → String} {xs : List α}
    {fields : List (String × FieldReader)} (h : fields.map (·.1) = xs.map label) :
    Yields fields (xs.map fun x => (label x, .scalar)) := by
  intro row
  refine Shape.fitsAll_scalars ?_
  rw [Assembler.readFields_eq, List.map_map]
  exact h

theorem fits_object {a : Assembler} {shapes : List (String × Shape)} (h : Yields a.fields shapes)
    (hnull : a.checkNull = none) (row : Row) :
    (Shape.object shapes).fits (Assembler.readField row (.object a)) = true := by
  have hpresent : Assembler.isAbsent a.checkNull row = false := by
    rw [hnull]
    rfl
  rw [Assembler.readField, Assembler.read_of_present hpresent, Option.getD_some, Shape.fits]
  exact h row

theorem fits_optional {a : Assembler} {shapes : List (String × Shape)} (h : Yields a.fields shapes)
    (hnull : a.nullObject = none) (row : Row) :
    (Shape.optional shapes).fits (Assembler.readField row (.object a)) = true := by
  rw [Assembler.readField]
  cases habsent : Assembler.isAbsent a.checkNull row with
  | true =>
    rw [Assembler.read_of_absent habsent, hnull]
    rfl
  | false =>
    rw [Assembler.read_of_present habsent, Option.getD_some, Shape.fits]
    exact h row

end Yields

/-! ## Keys of related objects -/

theorem JoinColumn.pairs_ok {e : Entity} {js : List JoinColumn} {ps : List (String × String)}
    (h : JoinColumn.pairs e js = .ok ps) :
    ps.map (·.1) = js.map (·.name) ∧ js.mapM (·.referencedColumn e) = .ok (ps.map (·.2)) := by
  rw [pairs] at h
  induction js generalizing ps with
  | nil =>
    obtain rfl := pure_ok.1 h
    exact ⟨rfl, rfl⟩
  | cons j js ih =>
    obtain ⟨p, ps, hp, hps, rfl⟩ := mapM_cons_ok.1 h
    obtain ⟨column, hcolumn, hp⟩ := bind_ok.1 hp
    obtain rfl := pure_ok.1 hp
    obtain ⟨hnames, hcolumns⟩ := ih hps
    exact ⟨by rw [List.map_cons, List.map_cons, hnames],
      mapM_cons_ok.2 ⟨_, _, hcolumn, hcolumns, rfl⟩⟩

/-- A link compares the columns of the parent that are declared. -/
theorem Link.resolve_parentColumns {s : Schema} {e : Entity} {f : ObjectField} {link : Link}
    (h : Link.resolve s e f = .ok link) : f.declaredColumns s e = .ok link.parentColumns := by
  unfold Link.resolve at h
  obtain ⟨child, hchild, h⟩ := bind_ok.1 h
  rw [lift_model_ok] at hchild
  split at h
  · exact (throw_ok.1 h).elim
  · next columns hrelation =>
    obtain ⟨pairs, hpairs, h⟩ := bind_ok.1 h
    obtain rfl := pure_ok.1 h
    rw [ObjectField.declaredColumns, hrelation]
    exact congrArg Except.ok (JoinColumn.pairs_ok (lift_model_ok.1 hpairs)).1.symm
  · next j hrelation =>
    obtain ⟨toParent, hparent, h⟩ := bind_ok.1 h
    obtain ⟨toChild, -, h⟩ := bind_ok.1 h
    obtain rfl := pure_ok.1 h
    rw [ObjectField.declaredColumns, hrelation]
    exact (JoinColumn.pairs_ok (lift_model_ok.1 hparent)).2
  · next owner hrelation =>
    obtain ⟨owned, howned, h⟩ := bind_ok.1 h
    rw [lift_model_ok] at howned
    split at h
    · next columns howner =>
      obtain ⟨pairs, hpairs, h⟩ := bind_ok.1 h
      obtain rfl := pure_ok.1 h
      rw [ObjectField.declaredColumns, hrelation]
      refine bind_ok.2 ⟨child, hchild, bind_ok.2 ⟨owned, howned, ?_⟩⟩
      rw [howner]
      refine (JoinColumn.pairs_ok (lift_model_ok.1 hpairs)).2.trans (congrArg Except.ok ?_)
      change pairs.map (·.2) = (pairs.map Prod.swap).map (·.1)
      rw [List.map_map]
      rfl
    · next j howner =>
      obtain ⟨toParent, hparent, h⟩ := bind_ok.1 h
      obtain ⟨toChild, -, h⟩ := bind_ok.1 h
      obtain rfl := pure_ok.1 h
      rw [ObjectField.declaredColumns, hrelation]
      refine bind_ok.2 ⟨child, hchild, bind_ok.2 ⟨owned, howned, ?_⟩⟩
      rw [howner]
      exact (JoinColumn.pairs_ok (lift_model_ok.1 hparent)).2
    · exact (throw_ok.1 h).elim

/-! ## Aggregates -/

theorem mapM_length {ε α β : Type} {f : α → Except ε β} {as : List α} {bs : List β}
    (h : as.mapM f = .ok bs) : bs.length = as.length := by
  induction as generalizing bs with
  | nil =>
    obtain rfl := pure_ok.1 h
    rfl
  | cons a as ih =>
    obtain ⟨b, bs, -, hbs, rfl⟩ := mapM_cons_ok.1 h
    rw [List.length_cons, List.length_cons, ih hbs]

theorem length_unsplit {α β : Type} {p : α → Bool} {as : List α} {yes no : List β}
    (hyes : yes.length = (as.filter p).length) (hno : no.length = (as.filter (!p ·)).length) :
    (unsplit p as yes no).length = as.length := by
  fun_induction unsplit p as yes no with
  | case1 => rfl
  | case2 a as ha y yes no ih => grind
  | case3 a as ha yes n no ih => grind
  | case4 a as yes no hnoYes hnoNo =>
    -- neither list ends before its elements do
    cases ha : p a with
    | true =>
      cases yes with
      | nil => simp [ha] at hyes
      | cons y yes => exact (hnoYes y yes ha rfl).elim
    | false =>
      cases no with
      | nil => simp [ha] at hno
      | cons n no => exact (hnoNo n no ha rfl).elim

theorem sharedResults_length {source : String} {as : List SourcedAggregate} {n n' : Names}
    {rs : List (Sql.Expr × String)} (h : sharedResults source as n = .ok (rs, n')) :
    rs.length = as.length := by
  induction as generalizing n rs with
  | nil =>
    obtain ⟨rfl, rfl⟩ := pure_run.1 h
    rfl
  | cons a as ih =>
    unfold sharedResults at h
    obtain ⟨name, n₁, -, h⟩ := bind_run.1 h
    obtain ⟨e, n₂, -, h⟩ := bind_run.1 h
    obtain ⟨rest, n₃, hrest, h⟩ := bind_run.1 h
    obtain ⟨rfl, rfl⟩ := pure_run.1 h
    rw [List.length_cons, List.length_cons, ih hrest]

section
variable {c : Compiler} {d d' : Draft} {n n' : Names}

theorem selectShared_length {l : Link} {parent : String} {filters : List Filter}
    {as : List SourcedAggregate} {names : List String}
    (h : selectShared c l parent filters as d n = .ok ((names, d'), n')) :
    names.length = as.length := by
  unfold selectShared at h
  split_ifs at h with hempty
  · obtain ⟨rfl, -⟩ := draft_pure_run.1 h
    rw [List.isEmpty_iff.1 hempty]
    rfl
  · obtain ⟨s, _, n₁, -, h⟩ := draft_bind_run.1 h
    obtain ⟨results, _, n₂, hresults, h⟩ := draft_bind_run.1 h
    obtain ⟨_, _, n₃, -, h⟩ := draft_bind_run.1 h
    obtain ⟨rfl, -⟩ := draft_pure_run.1 h
    rw [List.length_map, sharedResults_length (draft_compile_run.1 hresults).1]

/-- The aggregates of a request are read under their labels. -/
theorem selectAggregates_shape {s : Scope} {r : AggregateRequest} {f : String × FieldReader}
    (h : selectAggregates c s r d n = .ok ((f, d'), n')) : Yields [f] [r.shape] := by
  unfold selectAggregates at h
  obtain ⟨field, _, n₁, -, h⟩ := draft_bind_run.1 h
  obtain ⟨link, _, n₂, -, h⟩ := draft_bind_run.1 h
  obtain ⟨sourced, _, n₃, hsourced, h⟩ := draft_bind_run.1 h
  obtain ⟨shared, _, n₄, hshared, h⟩ := draft_bind_run.1 h
  obtain ⟨unnested, _, n₅, hunnested, h⟩ := draft_bind_run.1 h
  obtain ⟨rfl, -⟩ := draft_pure_run.1 h
  have hsourcedLength := mapM_length (draft_lift_model_run.1 hsourced).1
  have hlength := length_unsplit (draft_mapM_length hunnested) (selectShared_length hshared)
  refine .single (Yields.fits_object ?_ rfl)
  refine Yields.columns (List.map_fst_zip ?_)
  rw [List.length_map, List.length_map, hlength, hsourcedLength]

/-! ## Objects -/

theorem selectJoinKey_shape {s : Scope} {f : ObjectField} {label : String}
    {r : String × FieldReader} (h : selectJoinKey c s f label d n = .ok ((r, d'), n')) :
    ∃ columns, f.declaredColumns c.schema s.entity = .ok columns ∧
      Yields [r] [("$join:" ++ label, .object (columns.map (·, .scalar)))] := by
  obtain ⟨link, columns, hlink, hnames, rfl⟩ := selectJoinKey_run h
  refine ⟨_, Link.resolve_parentColumns hlink, .single fun row => ?_⟩
  rw [Assembler.readField, Shape.fits, ← List.map_id link.parentColumns, List.map_map]
  refine Shape.fitsAll_scalars ?_
  rw [List.map_map, List.map_id]
  exact hnames

theorem selectField_label {s : Scope} {f : SelectedField} {p : SelectedField × String}
    (h : selectField c s f d n = .ok ((p, d'), n')) : p.1 = f := by
  unfold selectField at h
  obtain ⟨field, _, n₁, -, h⟩ := draft_bind_run.1 h
  cases field with
  | object f => exact (draft_throw_run.1 h).elim
  | scalar field =>
    obtain ⟨e, _, n₂, -, h⟩ := draft_bind_run.1 h
    cases e <;>
    · obtain ⟨name, _, n₃, -, h⟩ := draft_bind_run.1 h
      obtain ⟨rfl, -⟩ := draft_pure_run.1 h
      rfl

theorem selectedFields_shape {s : Scope} {fs : List SelectedField}
    {selected : List (SelectedField × String)}
    (h : fs.mapM (selectField c s) d n = .ok ((selected, d'), n')) :
    Yields (columnReaders selected) (fs.map (·.shape)) := by
  have hfields : selected.map (·.1) = fs.map id :=
    draft_mapM_map (fun f _ _ _ _ _ _ hf => selectField_label hf) h
  rw [List.map_id] at hfields
  refine Yields.columns ?_
  rw [← hfields, columnReaders, List.map_map, List.map_map]
  rfl

theorem aggregates_shape {s : Scope} {rs : List AggregateRequest}
    {fields : List (String × FieldReader)}
    (h : rs.mapM (selectAggregates c s) d n = .ok ((fields, d'), n')) :
    Yields fields (rs.map (·.shape)) := by
  induction rs generalizing d n fields with
  | nil =>
    obtain ⟨rfl, -⟩ := draft_pure_run.1 h
    exact .nil
  | cons r rs ih =>
    rw [List.mapM_cons] at h
    obtain ⟨f, d₁, n₁, hf, h⟩ := draft_bind_run.1 h
    obtain ⟨rest, d₂, n₂, hrest, h⟩ := draft_bind_run.1 h
    obtain ⟨rfl, rfl, rfl⟩ := draft_pure_run.1 h
    exact (selectAggregates_shape hf).append (ih hrest)

end

mutual

/-- The query of a request reads what the request describes. -/
theorem node_shape {c : Compiler} :
    ∀ (r : ObjectRequest) {parent : Option Parent} {n n' : Names} {nd : Node},
      node c parent r n = .ok (nd, n') →
      ∃ shapes, r.shape c.schema = .ok shapes ∧ Yields nd.assembler.fields shapes ∧
        nd.assembler.nullObject = none
  | ⟨entity, selected, objects, aggregates, filters, sort, paging, keys, context⟩,
    parent, n, n', nd, h => by
    obtain ⟨run, rfl⟩ := node_run h
    obtain ⟨nested, hnested, hobjects⟩ := objectReaders_shape objects run.objects_run
    refine ⟨selected.map (·.shape) ++ nested ++ aggregates.map (·.shape), ?_, ?_, rfl⟩
    · rw [ObjectRequest.shape]
      exact bind_ok.2 ⟨run.entity, run.entity_run, bind_ok.2 ⟨nested, hnested, rfl⟩⟩
    · exact ((selectedFields_shape run.selected_run).append hobjects).append
        (aggregates_shape run.aggregates_run)
termination_by structural r => r

theorem objectReaders_shape {c : Compiler} :
    ∀ (os : List ObjectFieldRequest) {s : Scope} {d d' : Draft} {n n' : Names}
      {fields : List (String × FieldReader)},
      objectReaders c s os d n = .ok ((fields, d'), n') →
      ∃ shapes, objectShapes c.schema s.entity os = .ok shapes ∧ Yields fields shapes
  | [], s, d, d', n, n', fields, h => by
    rw [objectReaders] at h
    obtain ⟨rfl, -⟩ := draft_pure_run.1 h
    exact ⟨[], rfl, .nil⟩
  | o :: rest, s, d, d', n, n', fields, h => by
    rw [objectReaders] at h
    obtain ⟨f, d₁, n₁, hf, h⟩ := draft_bind_run.1 h
    obtain ⟨fs, d₂, n₂, hfs, h⟩ := draft_bind_run.1 h
    obtain ⟨rfl, -⟩ := draft_pure_run.1 h
    obtain ⟨shape, hshape, hf⟩ := objectReader_shape o hf
    obtain ⟨shapes, hshapes, hfs⟩ := objectReaders_shape rest hfs
    refine ⟨shape :: shapes, ?_, hf.append hfs⟩
    rw [objectShapes]
    exact bind_ok.2 ⟨shape, hshape, bind_ok.2 ⟨shapes, hshapes, rfl⟩⟩
termination_by structural os => os

theorem objectReader_shape {c : Compiler} :
    ∀ (o : ObjectFieldRequest) {s : Scope} {d d' : Draft} {n n' : Names}
      {field : String × FieldReader},
      objectReader c s o d n = .ok ((field, d'), n') →
      ∃ shape, o.shape c.schema s.entity = .ok shape ∧ Yields [field] [shape]
  | ⟨name, label, request⟩, s, d, d', n, n', field, h => by
    obtain ⟨f, hf, -, hrun⟩ := objectReader_run h
    rw [ObjectFieldRequest.shape]
    cases hrun with
    | embedded hembedded hentity hfields =>
      obtain ⟨shapes, hshapes, hyields⟩ := embeddedReaders_shape request hentity hfields
      refine ⟨(label, .object shapes), bind_ok.2 ⟨f, hf, ?_⟩, .single (hyields.fits_object rfl)⟩
      rw [hembedded, if_pos rfl]
      exact bind_ok.2 ⟨shapes, hshapes, rfl⟩
    | toMany hembedded hlist hkey =>
      obtain ⟨columns, hcolumns, hyields⟩ := selectJoinKey_shape hkey
      refine ⟨_, bind_ok.2 ⟨f, hf, ?_⟩, hyields⟩
      rw [hembedded, hlist, if_neg Bool.false_ne_true, if_pos rfl]
      exact bind_ok.2 ⟨columns, hcolumns, rfl⟩
    | toOne hembedded hlist _ _ hchild =>
      obtain ⟨shapes, hshapes, hyields, hnull⟩ := node_shape request hchild
      refine ⟨(label, .optional shapes), bind_ok.2 ⟨f, hf, ?_⟩,
        .single (hyields.fits_optional hnull)⟩
      rw [hembedded, hlist, if_neg Bool.false_ne_true, if_neg Bool.false_ne_true]
      exact bind_ok.2 ⟨shapes, hshapes, rfl⟩
termination_by structural o => o

theorem embeddedReaders_shape {c : Compiler} :
    ∀ (r : ObjectRequest) {s : Scope} {d d' : Draft} {n n' : Names}
      {fields : List (String × FieldReader)}, c.schema.entity r.entity = .ok s.entity →
      embeddedReaders c s r d n = .ok ((fields, d'), n') →
      ∃ shapes, r.shape c.schema = .ok shapes ∧ Yields fields shapes
  | ⟨entity, selected, objects, aggregates, filters, sort, paging, keys, context⟩,
    s, d, d', n, n', fields, hentity, h => by
    rw [embeddedReaders] at h
    obtain ⟨columns, d₁, n₁, hcolumns, h⟩ := draft_bind_run.1 h
    obtain ⟨readers, d₂, n₂, hreaders, h⟩ := draft_bind_run.1 h
    obtain ⟨results, d₃, n₃, hresults, h⟩ := draft_bind_run.1 h
    obtain ⟨rfl, -⟩ := draft_pure_run.1 h
    obtain ⟨nested, hnested, hobjects⟩ := objectReaders_shape objects hreaders
    refine ⟨selected.map (·.shape) ++ nested ++ aggregates.map (·.shape), ?_, ?_⟩
    · rw [ObjectRequest.shape]
      exact bind_ok.2 ⟨s.entity, hentity, bind_ok.2 ⟨nested, hnested, rfl⟩⟩
    · exact ((selectedFields_shape hcolumns).append hobjects).append (aggregates_shape hresults)
termination_by structural r => r

end

/-- **An answer has the shape of its request.**  Whatever a row holds, the object that is read of it
    has the labels of the request in order, at every depth, unless the column is null by which a
    row is told from none: then there is no object. -/
theorem object_has_shape {c : Compiler} {r : ObjectRequest} {q : CompiledQuery}
    (h : c.object r = .ok q) :
    ∃ shapes, r.shape c.schema = .ok shapes ∧ ∀ row : Row,
      ((∀ x ∈ q.assembler.checkNull, row.get x ≠ .null) →
        ∃ members, q.assembler.read row = some (.object members) ∧
          Shape.fitsAll shapes members = true) ∧
      ((∃ x ∈ q.assembler.checkNull, row.get x = .null) → q.assembler.read row = none) := by
  obtain ⟨root, hroot, h⟩ := bind_ok.1 h
  obtain rfl := pure_ok.1 h
  obtain ⟨n', hrun⟩ := run_ok.1 hroot
  obtain ⟨shapes, hshapes, hyields, hnull⟩ := node_shape r hrun
  refine ⟨shapes, hshapes, fun row => ⟨fun hpresent => ?_, fun ⟨x, hx, habsent⟩ => ?_⟩⟩
  · refine ⟨_, Assembler.read_of_present ?_, hyields row⟩
    refine Assembler.isAbsent_eq_false.2 fun x hx => ?_
    exact Value.isNull_eq_false.2 (hpresent x (by simpa using hx))
  · rw [← hnull]
    refine Assembler.read_of_absent ?_
    rw [hx, Assembler.isAbsent, habsent]
    rfl

/-- A book without an author has the shape of its request, a row without its key has no book. -/
theorem object_has_shape_book :
    bookRequest.shape library.schema = .ok [
      ("title", .scalar), ("author", .optional [("name", .scalar)]),
      ("imprint", .object [("title", .scalar)]), ("$join:loans", .object [("id", .scalar)]),
      ("stats", .object [("readers", .scalar), ("count", .scalar)])] ∧
    ∃ q shapes, library.object bookRequest = .ok q ∧ bookRequest.shape library.schema = .ok shapes ∧
      q.assembler.checkNull = some "x2" ∧
      (∃ members, q.assembler.read [("x1", .string "The Sea"), ("x2", .int 7)] =
          some (.object members) ∧ Shape.fitsAll shapes members = true) ∧
      q.assembler.read [("x1", .string "The Sea")] = none := by
  obtain ⟨q, hq⟩ : ∃ q, library.object bookRequest = .ok q := ⟨_, rfl⟩
  have hcompiled : (library.object bookRequest).toOption.map (·.assembler.checkNull) =
      some (some "x2") := rfl
  rw [hq] at hcompiled
  have hnull : q.assembler.checkNull = some "x2" := Option.some.inj hcompiled
  obtain ⟨shapes, hshapes, hrows⟩ := object_has_shape hq
  refine ⟨rfl, q, shapes, hq, hshapes, hnull, (hrows _).1 fun x hx => ?_, (hrows _).2 ?_⟩
  · obtain rfl : "x2" = x := Option.some.inj (hnull ▸ hx)
    intro hvalue
    cases hvalue
  · exact ⟨"x2", hnull, rfl⟩

end LateralSql
