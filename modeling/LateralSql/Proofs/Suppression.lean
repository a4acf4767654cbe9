/-
  A to-one object that is missing is null, and nothing else depends on it.

  The query of a to-one object is joined to each row of the query around it (`LateralAt`).  Its
  columns are named while it is compiled, so what is compiled before cannot read them; and what is
  compiled after reads columns of the draft by their own names, never those of a joined select.
-/
import LateralSql.Proofs.AliasAgreement
import LateralSql.Proofs.Positions

namespace LateralSql

/-! ## To-one objects -/

/-- A to-one object at a position of the answer to a request for `e`, with the link and the request
    of its field.  All objects around it are embedded or to-one. -/
inductive ToOneAt (s : Schema) : Entity → ObjectRequest → List Nat → Link → ObjectRequest → Prop
  | here {e : Entity} {r : ObjectRequest} {i : Nat} {o : ObjectFieldRequest} {f : ObjectField}
      {link : Link} :
      r.objects[i]? = some o → e.objectField o.field = .ok f → f.isEmbedded = false →
      f.isList = false → Link.resolve s e f = .ok link →
      ToOneAt s e r [r.selected.length + i] link o.request
  | inside {e target : Entity} {r request : ObjectRequest} {i : Nat} {o : ObjectFieldRequest}
      {f : ObjectField} {path : List Nat} {link : Link} :
      r.objects[i]? = some o → e.objectField o.field = .ok f →
      f.isEmbedded = true ∨ f.isList = false → s.entity f.target = .ok target →
      ToOneAt s target o.request path link request →
      ToOneAt s e r ((r.selected.length + i) :: path) link request

/-- The select that is joined for a to-one object: the query of its request, read by the assembler
    at its position. -/
inductive LateralAt (c : Compiler) : List Sql.Join → List (String × FieldReader) → List Nat →
    Link → ObjectRequest → Sql.Select → Prop
  | here {joins : List Sql.Join} {fields : List (String × FieldReader)} {i : Nat}
      {label name wrapper : String} {link : Link} {request : ObjectRequest} {child : Node}
      {n n' : Names} :
      fields[i]? = some (label, .object child.assembler) →
      node c (some ⟨link, name, false⟩) request n = .ok (child, n') →
      .ofLateral child.select.first wrapper ∈ joins →
      LateralAt c joins fields [i] link request child.select.first
  | embedded {joins : List Sql.Join} {fields : List (String × FieldReader)} {i : Nat}
      {label : String} {a : Assembler} {path : List Nat} {link : Link} {request : ObjectRequest}
      {l : Sql.Select} :
      fields[i]? = some (label, .object a) → LateralAt c joins a.fields path link request l →
      LateralAt c joins fields (i :: path) link request l
  | toOne {joins : List Sql.Join} {fields : List (String × FieldReader)} {i : Nat}
      {label wrapper : String} {a : Assembler} {outer l : Sql.Select} {path : List Nat}
      {link : Link} {request : ObjectRequest} :
      fields[i]? = some (label, .object a) → .ofLateral outer wrapper ∈ joins →
      LateralAt c outer.joins a.fields path link request l →
      LateralAt c joins fields (i :: path) link request l

namespace LateralAt

variable {c : Compiler} {joins joins' : List Sql.Join} {fields : List (String × FieldReader)}
  {path : List Nat} {link : Link} {request : ObjectRequest} {l : Sql.Select}

theorem mono (h : LateralAt c joins fields path link request l) (hjoins : joins ⊆ joins') :
    LateralAt c joins' fields path link request l := by
  induction h generalizing joins' with
  | here hfield hnode hjoin => exact .here hfield hnode (hjoins hjoin)
  | embedded hfield _ ih => exact .embedded hfield (ih hjoins)
  | toOne hfield hjoin hinside _ => exact .toOne hfield (hjoins hjoin) hinside

/-- Fields around others move their positions. -/
theorem extend {i : Nat} (h : LateralAt c joins fields (i :: path) link request l)
    (before after : List (String × FieldReader)) :
    LateralAt c joins (before ++ fields ++ after) ((before.length + i) :: path) link request l := by
  have hmoved {f : String × FieldReader} (hf : fields[i]? = some f) :=
    getElem?_append_between hf before after
  cases h with
  | here hfield hnode hjoin => exact .here (hmoved hfield) hnode hjoin
  | embedded hfield hinside => exact .embedded (hmoved hfield) hinside
  | toOne hfield hjoin hinside => exact .toOne (hmoved hfield) hjoin hinside

end LateralAt

/-! ## Steps and the columns they read -/

/-- The column has been named. -/
def Names.Named (n : Names) (x : String) : Prop := ∃ k ≤ n.columns, Names.columnName k = x

namespace Names.Named

variable {n n' : Names} {x : String} {xs : List String}

theorem mono (h : n.Named x) (hle : n ≤ n') : n'.Named x := by
  obtain ⟨k, hk, rfl⟩ := h
  exact ⟨k, hk.trans hle.2, rfl⟩

theorem notMem (h : n.Named x) (hxs : NewColumns n n' xs) : x ∉ xs := by
  obtain ⟨k, hk, rfl⟩ := h
  exact hxs.notMem Names.columnName_inj (.inl hk)

end Names.Named

/-- A step adds to the draft under new names, and reads what is `known`, what the draft has selected
    itself, or what the step adds. -/
def Adds (known : List String) (d : Draft) (n : Names) (d' : Draft) (n' : Names)
    (reads : List String) : Prop :=
  ∃ e, d' = d ++ e ∧ n ≤ n' ∧ NewColumns n n' e.outputs ∧
    ∀ y ∈ reads, y ∈ known ∨ y ∈ d.named ∨ y ∈ e.outputs

theorem Extends.adds {α : Type} {c : Compiler} {Sel : Sql.Expr → Prop} {name : String} {bound : Nat}
    {known : List String} {x : Drafting α} {reads : α → List String}
    (hx : Extends Sel (Joined c name bound) known x reads) {d d' : Draft} {n n' : Names} {a : α}
    (hrun : x d n = .ok ((a, d'), n')) : Adds known d n d' n' (reads a) := by
  obtain ⟨e, hd, hadded, hreads⟩ := hx hrun
  exact ⟨e, hd, hadded.le,
    hadded.newColumns fun _ _ _ h => h.newColumns fun r _ => node_sound c r, hreads⟩

namespace Adds

variable {known reads xs : List String} {d d' : Draft} {lo n n' : Names}

theorem le (h : Adds known d n d' n' reads) : n ≤ n' := by
  obtain ⟨_, -, hle, -⟩ := h
  exact hle

theorem joins (h : Adds known d n d' n' reads) : d.joins ⊆ d'.joins := by
  obtain ⟨e, rfl, -⟩ := h
  exact List.subset_append_left _ _

/-- All that a step reads or selects has been named after it. -/
theorem named (h : Adds known d n d' n' reads) (hd : ∀ y ∈ d.named, n.Named y)
    (hknown : ∀ y ∈ known, n.Named y) :
    (∀ y ∈ reads, n'.Named y) ∧ ∀ y ∈ d'.named, n'.Named y := by
  obtain ⟨e, rfl, hle, hnew, hreads⟩ := h
  have hadded : ∀ y ∈ e.outputs, n'.Named y := by
    intro y hy
    obtain ⟨k, -, hk, rfl⟩ := hnew.number y hy
    exact ⟨k, hk, rfl⟩
  refine ⟨fun y hy => ?_, fun y hy => ?_⟩
  · rcases hreads y hy with h | h | h
    · exact (hknown y h).mono hle
    · exact (hd y h).mono hle
    · exact hadded y h
  · rw [Draft.named_append, List.mem_append] at hy
    rcases hy with h | h
    · exact (hd y h).mono hle
    · exact hadded y (e.named_subset_outputs h)

/-- A step does not read columns that were named before it, unless the draft has selected them. -/
theorem avoids (h : Adds known d n d' n' reads) (hxs : NewColumns lo n xs)
    (hd : ∀ y ∈ d.named, y ∉ xs) (hknown : ∀ y ∈ known, y ∉ xs) :
    (∀ y ∈ reads, y ∉ xs) ∧ ∀ y ∈ d'.named, y ∉ xs := by
  obtain ⟨e, rfl, hle, hnew, hreads⟩ := h
  have hadded : ∀ y ∈ e.outputs, y ∉ xs := by
    intro y hy
    obtain ⟨k, hk, -, rfl⟩ := hnew.number y hy
    exact hxs.notMem Names.columnName_inj (.inr hk)
  refine ⟨fun y hy => ?_, fun y hy => ?_⟩
  · rcases hreads y hy with h | h | h
    · exact hknown y h
    · exact hd y h
    · exact hadded y h
  · rw [Draft.named_append, List.mem_append] at hy
    exact hy.elim (hd y) fun h => hadded y (e.named_subset_outputs h)

end Adds

/-! ## Isolated objects -/

/-- Among the fields that have been compiled there is a to-one object whose columns have been named
    since `n`, and nothing else reads them. -/
structure Isolated (c : Compiler) (n : Names) (d' : Draft) (n' : Names)
    (fields : List (String × FieldReader)) (path : List Nat) (link : Link) (request : ObjectRequest)
    (l : Sql.Select) : Prop where
  outputs : NewColumns n n' l.outputs
  named : ∀ y ∈ d'.named, y ∉ l.outputs
  isolates : Isolates l.outputs fields path
  lateral : LateralAt c d'.joins fields path link request l

namespace Isolated

variable {c : Compiler} {n n₁ n' n₂ : Names} {d' d₂ : Draft}
  {fields more : List (String × FieldReader)} {i : Nat} {path : List Nat} {link : Link}
  {request : ObjectRequest} {l : Sql.Select} {reads : List String}

/-- Fields that were compiled before. -/
theorem before (h : Isolated c n₁ d' n' fields (i :: path) link request l) (hle : n ≤ n₁)
    (hmore : ∀ y ∈ fieldReads more, n₁.Named y) :
    Isolated c n d' n' (more ++ fields) ((more.length + i) :: path) link request l := by
  have hisolates : Isolates l.outputs (more ++ fields ++ []) ((more.length + i) :: path) := by
    refine h.isolates.extend ?_
    rw [List.forall_mem_append]
    exact ⟨fun y hy => (hmore y hy).notMem h.outputs, by simp [fieldReads]⟩
  have hlateral := h.lateral.extend more []
  rw [List.append_nil] at hisolates hlateral
  exact ⟨h.outputs.mono hle.2 le_rfl, h.named, hisolates, hlateral⟩

/-- Fields that are compiled after. -/
theorem after (h : Isolated c n d' n' fields (i :: path) link request l)
    (hadds : Adds [] d' n' d₂ n₂ reads) (hmore : fieldReads more ⊆ reads) :
    Isolated c n d₂ n₂ (fields ++ more) (i :: path) link request l := by
  obtain ⟨hreads, hnamed⟩ := hadds.avoids h.outputs h.named (by simp)
  have hisolates : Isolates l.outputs ([] ++ fields ++ more) ((0 + i) :: path) := by
    refine h.isolates.extend ?_
    rw [List.forall_mem_append]
    exact ⟨by simp [fieldReads], fun y hy => hreads y (hmore hy)⟩
  have hlateral := (h.lateral.mono hadds.joins).extend [] more
  rw [List.nil_append, Nat.zero_add] at hisolates
  rw [List.nil_append, List.length_nil, Nat.zero_add] at hlateral
  exact ⟨h.outputs.mono le_rfl hadds.le.2, hnamed, hisolates, hlateral⟩

end Isolated

/-! ## Runs -/

section
variable {c : Compiler} {s : Scope} {d d' : Draft} {n n' : Names}

theorem selectedFields_adds {fs : List SelectedField} {selected : List (SelectedField × String)}
    (h : fs.mapM (selectField c s) d n = .ok ((selected, d'), n')) :
    Adds [] d n d' n' (fieldReads (columnReaders selected)) := by
  have hextends : Extends (Selected s.name []) (Joined c s.name 0) [] (fs.mapM (selectField c s))
      (·.map (·.2)) := .mapM_single fun f _ => .selectField c s f
  rw [fieldReads_columnReaders]
  exact hextends.adds h

theorem length_columnReaders {fs : List SelectedField} {selected : List (SelectedField × String)}
    (h : fs.mapM (selectField c s) d n = .ok ((selected, d'), n')) :
    (columnReaders selected).length = fs.length := by
  rw [columnReaders, List.length_map, draft_mapM_length h]

theorem selectKey_adds (c : Compiler) {selected : List (SelectedField × String)}
    {key : Option String} (h : selectKey s selected d n = .ok ((key, d'), n')) :
    Adds (fieldReads (columnReaders selected)) d n d' n' key.toList := by
  have hextends : Extends (Selected s.name []) (Joined c s.name 0) (selected.map (·.2))
      (selectKey s selected) (·.toList) := .selectKey s selected
  rw [fieldReads_columnReaders]
  exact hextends.adds h

theorem objectReaders_adds {os : List ObjectFieldRequest} {fields : List (String × FieldReader)}
    (h : objectReaders c s os d n = .ok ((fields, d'), n')) :
    Adds [] d n d' n' (fieldReads fields) := by
  have hextends : Extends (Selected s.name []) (Joined c s.name (sizeOf os + 1)) []
      (objectReaders c s os) fieldReads :=
    objectReaders_extends (fun r _ => node_sound c r) os s (Nat.lt_succ_self _)
  exact hextends.adds h

theorem aggregates_adds {rs : List AggregateRequest} {fields : List (String × FieldReader)}
    (h : rs.mapM (selectAggregates c s) d n = .ok ((fields, d'), n')) :
    Adds [] d n d' n' (fieldReads fields) := by
  have hextends : Extends (Selected s.name []) (Joined c s.name 0) []
      (rs.mapM (selectAggregates c s)) (·.flatMap (·.2.reads)) :=
    .mapM fun r _ => .selectAggregates c s r
  rw [fieldReads_eq]
  exact hextends.adds h

theorem order_adds (c : Compiler) {sort : List SortKey} {order : List Sql.SortTerm}
    (h : sort.mapM (selectOrder s) d n = .ok ((order, d'), n')) : Adds [] d n d' n' [] := by
  have hextends : Extends (Selected s.name []) (Joined c s.name 0) [] (sort.mapM (selectOrder s))
      (·.flatMap fun _ => []) := .mapM fun k _ => .selectOrder s k
  have hreads : order.flatMap (fun _ => ([] : List String)) = [] :=
    List.flatMap_eq_nil_iff.2 fun _ _ => rfl
  have hadds := hextends.adds h
  rwa [hreads] at hadds

/-- The run of one of several objects, between the runs of those before and after it. -/
theorem objectReaders_split {os : List ObjectFieldRequest} {i : Nat} {o : ObjectFieldRequest}
    {fields : List (String × FieldReader)} (ho : os[i]? = some o)
    (h : objectReaders c s os d n = .ok ((fields, d'), n')) :
    ∃ before f after d₁ n₁ d₂ n₂, fields = before ++ f :: after ∧ before.length = i ∧
      objectReaders c s (os.take i) d n = .ok ((before, d₁), n₁) ∧
      objectReader c s o d₁ n₁ = .ok ((f, d₂), n₂) ∧
      objectReaders c s (os.drop (i + 1)) d₂ n₂ = .ok ((after, d'), n') := by
  induction os generalizing i d n fields with
  | nil => cases ho
  | cons o' os ih =>
    rw [objectReaders] at h
    obtain ⟨f, d₁, n₁, hf, h⟩ := draft_bind_run.1 h
    obtain ⟨fs, d₂, n₂, hfs, h⟩ := draft_bind_run.1 h
    obtain ⟨rfl, rfl, rfl⟩ := draft_pure_run.1 h
    cases i with
    | zero =>
      obtain rfl : o' = o := by simpa using ho
      exact ⟨[], f, fs, d, n, d₁, n₁, rfl, rfl, draft_pure_run.2 ⟨rfl, rfl, rfl⟩, hf, hfs⟩
    | succ i =>
      obtain ⟨before, g, after, d₃, n₃, d₄, n₄, rfl, rfl, hbefore, hg, hafter⟩ :=
        ih (by simpa using ho) hfs
      refine ⟨f :: before, g, after, d₃, n₃, d₄, n₄, rfl, rfl, ?_, hg, hafter⟩
      rw [List.take_succ_cons, objectReaders]
      exact draft_bind_run.2 ⟨f, d₁, n₁, hf, draft_bind_run.2 ⟨before, d₃, n₃, hbefore,
        draft_pure_run.2 ⟨rfl, rfl, rfl⟩⟩⟩

end

/-- There is a column to tell rows from none, if there is one that a related row fills. -/
theorem selectRelated_isSome {key checkNull : Option String} {columns : List Sql.Column}
    {d d' : Draft} {n n' : Names} (h : selectRelated key columns d n = .ok ((checkNull, d'), n'))
    (hcolumns : columns ≠ []) : ∃ x, checkNull = some x := by
  cases key with
  | some x => exact ⟨x, (draft_pure_run.1 h).1.symm⟩
  | none =>
    cases columns with
    | nil => exact (hcolumns rfl).elim
    | cons column columns =>
      obtain ⟨x, _, _, -, h⟩ := draft_bind_run.1 h
      exact ⟨x, (draft_pure_run.1 h).1.symm⟩

theorem NodeRun.exists_checkNull {c : Compiler} {p : Parent} {r : ObjectRequest} {n n' : Names}
    (run : NodeRun c (some p) r n n') (hchild : p.link.childColumns ≠ []) :
    ∃ x, run.checkNull = some x := by
  refine selectRelated_isSome run.related_run fun hnone => ?_
  have hlength := Link.length_existsColumns run.correlation_run
  rw [hnone] at hlength
  exact hchild (List.length_eq_zero_iff.1 hlength.symm)

/-- What a request relates at a position is isolated among its objects, wherever it is compiled. -/
def IsolatesObjects (c : Compiler) (s : Scope) (r : ObjectRequest) (path : List Nat) (link : Link)
    (request : ObjectRequest) : Prop :=
  ∀ ⦃d n objects d' n'⦄, objectReaders c s r.objects d n = .ok ((objects, d'), n') →
    (∀ y ∈ d.named, n.Named y) →
    ∃ i rest l, path = (r.selected.length + i) :: rest ∧
      Isolated c n d' n' objects (i :: rest) link request l

theorem embeddedReaders_isolated {c : Compiler} {s : Scope} {r : ObjectRequest} {path : List Nat}
    {link : Link} {request : ObjectRequest} (hobjects : IsolatesObjects c s r path link request)
    {d d' : Draft} {n n' : Names} {fields : List (String × FieldReader)}
    (h : embeddedReaders c s r d n = .ok ((fields, d'), n')) (hd : ∀ y ∈ d.named, n.Named y) :
    ∃ l, Isolated c n d' n' fields path link request l := by
  obtain ⟨entity, selected, objects, aggregates, filters, sort, paging, keys, context⟩ := r
  rw [embeddedReaders] at h
  obtain ⟨columns, d₁, n₁, hcolumns, h⟩ := draft_bind_run.1 h
  obtain ⟨readers, d₂, n₂, hreaders, h⟩ := draft_bind_run.1 h
  obtain ⟨results, d₃, n₃, hresults, h⟩ := draft_bind_run.1 h
  obtain ⟨rfl, rfl, rfl⟩ := draft_pure_run.1 h
  have hselected := selectedFields_adds hcolumns
  obtain ⟨hreads, hd₁⟩ := hselected.named hd (by simp)
  obtain ⟨i, rest, l, rfl, hisolated⟩ := hobjects hreaders hd₁
  refine ⟨l, ?_⟩
  rw [← length_columnReaders hcolumns]
  exact (hisolated.before hselected.le hreads).after (aggregates_adds hresults)
    (List.Subset.refl _)

/-- A to-one object at a position of a node's answer, whose columns nothing else reads. -/
structure Node.Isolated (nd : Node) (c : Compiler) (n n' : Names) (path : List Nat) (link : Link)
    (request : ObjectRequest) (l : Sql.Select) : Prop where
  outputs : NewColumns n n' l.outputs
  checkNull : ∀ y ∈ nd.assembler.checkNull, y ∉ l.outputs
  isolates : Isolates l.outputs nd.assembler.fields path
  lateral : LateralAt c nd.select.joins nd.assembler.fields path link request l

/-- The fields of a node, and the key that is selected before its objects. -/
theorem NodeRun.isolated_fields {c : Compiler} {parent : Option Parent} {r request : ObjectRequest}
    {n n' : Names} (run : NodeRun c parent r n n') {path : List Nat} {link : Link}
    (hobjects : IsolatesObjects c ⟨run.entity, run.name⟩ r path link request) :
    ∃ l, Isolated c run.n₂ run.d₅ run.n₇ run.node.assembler.fields path link request l ∧
      ∀ y ∈ run.key, y ∉ l.outputs := by
  have hselected := selectedFields_adds run.selected_run
  have hkey := selectKey_adds c run.key_run
  obtain ⟨hreads, hd₁⟩ := hselected.named (by simp) (by simp)
  obtain ⟨hkeyNamed, hd₂⟩ := hkey.named hd₁ hreads
  obtain ⟨i, rest, l, rfl, hisolated⟩ := hobjects run.objects_run hd₂
  have hbefore := hisolated.before (hselected.le.trans hkey.le)
    fun y hy => (hreads y hy).mono hkey.le
  rw [length_columnReaders run.selected_run] at hbefore
  have hafter := (hbefore.after (aggregates_adds run.aggregates_run) (List.Subset.refl _)).after
    (order_adds c run.order_run) (List.Subset.refl (fieldReads []))
  refine ⟨l, ?_, fun y hy => (hkeyNamed y (Option.mem_toList.2 hy)).notMem hisolated.outputs⟩
  rw [List.append_nil] at hafter
  exact hafter

theorem NodeRun.isolated {c : Compiler} {parent : Option Parent} {r request : ObjectRequest}
    {n n' : Names} (run : NodeRun c parent r n n') {path : List Nat} {link : Link}
    (hobjects : IsolatesObjects c ⟨run.entity, run.name⟩ r path link request) :
    ∃ l, run.node.Isolated c n n' path link request l := by
  obtain ⟨l, hfields, hkey⟩ := run.isolated_fields hobjects
  obtain ⟨e, hdraft, he, -, hnull⟩ := run.last (Joined c run.name 0)
  have hstart : n ≤ run.n₂ :=
    (Grows.freshTable run.name_run).trans (newTables_of_correlateParent run.correlation_run).1
  have hcriteria : run.n₇ ≤ run.n₉ :=
    (Grows.conjunction c _ _ run.filters_run).trans (newTables_of_keyCriteria run.keys_run).1
  refine ⟨l, hfields.outputs.mono hstart.2 (hcriteria.trans he.le).2, fun y hy => ?_,
    hfields.isolates, hfields.lateral.mono ?_⟩
  · -- rows are told from none by the key, by a column of the draft, or by one selected last
    rcases hnull y hy with h | h | h
    · exact hkey y h
    · exact hfields.named y h
    · have hnew := he.newColumns fun _ _ _ h => h.newColumns fun r _ => node_sound c r
      obtain ⟨k, hk, -, rfl⟩ := hnew.number y h
      exact hfields.outputs.notMem Names.columnName_inj (.inr (lt_of_le_of_lt hcriteria.2 hk))
  · change run.d₅.joins ⊆ run.correlation.joins ++ run.keys.joins ++ run.draft.joins
    rw [hdraft]
    exact List.subset_append_of_subset_right _ (List.subset_append_left _ _)

/-! ## Objects -/

theorem Draft.named_of_withLateral (d : Draft) (s : Sql.Select) (name : String) :
    (d.withLateral s name).named = d.named := by
  rw [withLateral_eq, named_append, named_withLateral, List.append_nil]

theorem Draft.ofLateral_mem_joins (d : Draft) (s : Sql.Select) (name : String) :
    .ofLateral s name ∈ (d.withLateral s name).joins :=
  List.mem_append_right _ (List.mem_singleton_self _)

section
variable {c : Compiler} {s : Scope} {o : ObjectFieldRequest} {f : ObjectField} {d d' : Draft}
  {n n' : Names} {reader : String × FieldReader} {link : Link} {request : ObjectRequest}
  {path : List Nat}

/-- The object of a to-one field. -/
theorem ObjectRun.isolated (run : ObjectRun c s o f d n reader d' n')
    (hembedded : f.isEmbedded = false) (hlist : f.isList = false)
    (hlink : Link.resolve c.schema s.entity f = .ok link) (hchild : link.childColumns ≠ [])
    (hd : ∀ y ∈ d.named, n.Named y) : ∃ l, Isolated c n d' n' [reader] [0] link o.request l := by
  cases run with
  | embedded h => rw [hembedded] at h; cases h
  | toMany _ h => rw [hlist] at h; cases h
  | @toOne wrapper link' child n₁ _ _ _ hwrapper hlink' hnode =>
    obtain rfl : link' = link := Except.ok.inj (hlink'.symm.trans hlink)
    have hsound := (node_sound c o.request hnode).mono (Grows.freshTable hwrapper)
    obtain ⟨run, rfl⟩ := node_run hnode
    obtain ⟨x, hx⟩ := run.exists_checkNull hchild
    have hread : x ∈ run.node.select.outputs := by
      refine hsound.reads (List.mem_append_left _ ?_)
      rw [hx]
      exact List.mem_singleton_self x
    refine ⟨run.node.select.first, ?_, ?_, ?_, .here rfl hnode (d.ofLateral_mem_joins _ _)⟩ <;>
      rw [Sql.Select.outputs_first]
    · exact hsound.outputs
    · rw [Draft.named_of_withLateral]
      exact fun y hy => (hd y hy).notMem hsound.outputs
    · exact .single hx hread rfl

/-- An object inside that of an embedded or a to-one field. -/
theorem ObjectRun.isolated_inside (run : ObjectRun c s o f d n reader d' n')
    (hkind : f.isEmbedded = true ∨ f.isList = false) {target : Entity}
    (htarget : c.schema.entity o.request.entity = .ok target)
    (hobjects : ∀ name, IsolatesObjects c ⟨target, name⟩ o.request path link request)
    (hd : ∀ y ∈ d.named, n.Named y) :
    ∃ l, Isolated c n d' n' [reader] (0 :: path) link request l := by
  cases run with
  | @embedded target' fields _ _ _ hentity hfields =>
    obtain rfl : target' = target := Except.ok.inj (hentity.symm.trans htarget)
    obtain ⟨l, hl⟩ := embeddedReaders_isolated (hobjects s.name) hfields hd
    exact ⟨l, hl.outputs, hl.named, .nested rfl (by simp) hl.isolates, .embedded rfl hl.lateral⟩
  | toMany hembedded hlist =>
    rw [hembedded, hlist] at hkind
    simp at hkind
  | @toOne wrapper _ child n₁ _ _ _ hwrapper _ hnode =>
    obtain ⟨run, rfl⟩ := node_run hnode
    obtain rfl : run.entity = target := Except.ok.inj (run.entity_run.symm.trans htarget)
    obtain ⟨l, hl⟩ := run.isolated (hobjects run.name)
    have hle := Grows.freshTable hwrapper
    refine ⟨l, hl.outputs.mono hle.2 le_rfl, ?_, .nested rfl hl.checkNull hl.isolates,
      .toOne rfl (d.ofLateral_mem_joins _ _) hl.lateral⟩
    rw [Draft.named_of_withLateral]
    exact fun y hy => ((hd y hy).mono hle).notMem hl.outputs

/-- An object that is isolated in its own field is so among all. -/
theorem isolatesObjects_of_field {r : ObjectRequest} {i : Nat} (ho : r.objects[i]? = some o)
    (hfield : ∀ ⦃d n reader d' n'⦄, objectReader c s o d n = .ok ((reader, d'), n') →
      (∀ y ∈ d.named, n.Named y) → ∃ l, Isolated c n d' n' [reader] (0 :: path) link request l) :
    IsolatesObjects c s r ((r.selected.length + i) :: path) link request := by
  intro d n objects d' n' hrun hd
  obtain ⟨before, reader, after, d₁, n₁, d₂, n₂, rfl, rfl, hbefore, hreader, hafter⟩ :=
    objectReaders_split ho hrun
  have hadds := objectReaders_adds hbefore
  obtain ⟨hreads, hd₁⟩ := hadds.named hd (by simp)
  obtain ⟨l, hl⟩ := hfield hreader hd₁
  have hall := (hl.before hadds.le hreads).after (objectReaders_adds hafter) (List.Subset.refl _)
  rw [List.append_assoc] at hall
  exact ⟨before.length, path, l, rfl, hall⟩

end

theorem isolatesObjects_of_toOneAt {c : Compiler} {e : Entity} {r request : ObjectRequest}
    {path : List Nat} {link : Link} (h : ToOneAt c.schema e r path link request)
    (hchild : link.childColumns ≠ []) (name : String) :
    IsolatesObjects c ⟨e, name⟩ r path link request := by
  induction h generalizing name with
  | here ho hfield hembedded hlist hlink =>
    refine isolatesObjects_of_field ho fun d n reader d' n' hrun hd => ?_
    obtain ⟨f, hf, -, hobject⟩ := objectReader_run hrun
    obtain rfl := Except.ok.inj (hf.symm.trans hfield)
    exact hobject.isolated hembedded hlist hlink hchild hd
  | inside ho hfield hkind htarget _ ih =>
    refine isolatesObjects_of_field ho fun d n reader d' n' hrun hd => ?_
    obtain ⟨f, hf, hentity, hobject⟩ := objectReader_run hrun
    obtain rfl := Except.ok.inj (hf.symm.trans hfield)
    rw [← hentity] at htarget
    exact hobject.isolated_inside hkind htarget (ih hchild) hd

/-! ## Answers -/

/-- **A missing to-one object is suppressed, and nothing else changes.**  Take a row in which all
    objects around a to-one object are there, and set all columns of its select to null.  Then the
    object is null in the answer, and every position outside of it has the value that it had. -/
theorem missing_object_suppressed {c : Compiler} {r : ObjectRequest} {q : CompiledQuery}
    (h : c.object r = .ok q) :
    ∃ root, Compiler.run (node c none r) = .ok root ∧
      q = ⟨c.statement root.select, root.assembler⟩ ∧
      ∀ e path link request, c.schema.entity r.entity = .ok e →
        ToOneAt c.schema e r path link request → link.childColumns ≠ [] →
        ∃ l, LateralAt c root.select.joins q.assembler.fields path link request l ∧
          ∀ (row : Row) (v : Value), q.assembler.read row = some v →
            (∀ p, p <+: path → p ≠ path → ∃ members, v.at? p = some (.object members)) →
            q.assembler.read (row.nullAt l.outputs) = some (v.put path .null) ∧
              (v.put path .null).at? path = some .null ∧
              ∀ p, ¬ p <+: path → ¬ path <+: p → (v.put path .null).at? p = v.at? p := by
  obtain ⟨root, hroot, h⟩ := bind_ok.1 h
  obtain rfl := pure_ok.1 h
  obtain ⟨n', hrun⟩ := run_ok.1 hroot
  obtain ⟨run, rfl⟩ := node_run hrun
  refine ⟨_, hroot, rfl, fun e path link request he hpath hchild => ?_⟩
  obtain rfl : run.entity = e := Except.ok.inj (run.entity_run.symm.trans he)
  obtain ⟨l, hl⟩ := run.isolated (isolatesObjects_of_toOneAt hpath hchild run.name)
  refine ⟨l, hl.lateral, fun row v hread hpresent => ?_⟩
  have hthere : Assembler.isAbsent run.checkNull row = false := by
    cases habsent : Assembler.isAbsent run.checkNull row with
    | false => rfl
    | true =>
      rw [Assembler.read_of_absent habsent] at hread
      cases hread
  have hthere' : Assembler.isAbsent run.checkNull (row.nullAt l.outputs) = false := by
    rw [← hthere]
    exact Assembler.isAbsent_congr fun y hy =>
      Row.get_nullAt_of_notMem (hl.checkNull y (Option.mem_toList.1 hy))
  rw [Assembler.read_of_present hthere] at hread
  obtain rfl := Option.some.inj hread
  obtain ⟨hput, u, hu⟩ := hl.isolates.readFields hpresent
  rw [Assembler.read_of_present hthere']
  exact ⟨congrArg some hput, Value.at?_put hu _, fun p hp hp' => Value.at?_put_of_apart hp hp' _⟩

/-- A loan with its book, the author and the imprint of that, and the key of its loans. -/
def loanRequest : ObjectRequest where
  entity := "Loan"
  selected := [⟨"id", "id", none⟩]
  objects := [⟨"book", "book", { bookRequest with aggregates := [] }⟩]

/-- The name of an author. -/
def authorRequest : ObjectRequest where
  entity := "Author"
  selected := [⟨"name", "name", none⟩]

/-- How a book is tied to its author. -/
def authorLink : Link := ⟨author, .direct [("author_id", "id")], [some .int]⟩

/-- The row of a loan, its book and the author. -/
def loanRow : Row := [
  ("x1", .int 1), ("x2", .string "The Sea"), ("x3", .int 7), ("x4", .string "anonymous"),
  ("x5", .int 9)]

/-- The answer of `loanRow`, with the given author. -/
def loanAnswer (author : Value) : Value :=
  .object [("id", .int 1), ("book", .object [
    ("title", .string "The Sea"), ("author", author),
    ("imprint", .object [("title", .string "The Sea")]),
    ("$join:loans", .object [("id", .int 7)])])]

theorem missing_object_suppressed_author :
    ToOneAt library.schema loan loanRequest [1, 1] authorLink authorRequest ∧
    ∃ q root l, library.object loanRequest = .ok q ∧
      Compiler.run (node library none loanRequest) = .ok root ∧
      LateralAt library root.select.joins q.assembler.fields [1, 1] authorLink authorRequest l ∧
      q.assembler.read loanRow = some (loanAnswer (.object [("name", .string "anonymous")])) ∧
      q.assembler.read (loanRow.nullAt l.outputs) = some (loanAnswer .null) := by
  have hbook : ToOneAt library.schema book { bookRequest with aggregates := [] }
      [bookRequest.selected.length + 0] authorLink authorRequest :=
    .here (o := ⟨"author", "author", authorRequest⟩) rfl rfl rfl rfl rfl
  have hauthor : ToOneAt library.schema loan loanRequest [1, 1] authorLink authorRequest :=
    .inside (i := 0) rfl rfl (.inr rfl) rfl hbook
  obtain ⟨q, hq⟩ : ∃ q, library.object loanRequest = .ok q := ⟨_, rfl⟩
  have hanswer : (library.object loanRequest).toOption.bind (·.assembler.read loanRow) =
      some (loanAnswer (.object [("name", .string "anonymous")])) := rfl
  rw [hq] at hanswer
  obtain ⟨root, hroot, -, hpaths⟩ := missing_object_suppressed hq
  obtain ⟨l, hl, hrows⟩ := hpaths loan [1, 1] authorLink authorRequest rfl hauthor (by decide)
  refine ⟨hauthor, q, root, l, hq, hroot, hl, hanswer, (hrows loanRow _ hanswer ?_).1⟩
  intro p hp hne
  simp only [List.prefix_cons_iff, List.prefix_nil] at hp
  rcases hp with rfl | ⟨_, rfl, rfl | ⟨_, rfl, rfl⟩⟩
  · exact ⟨_, rfl⟩
  · exact ⟨_, rfl⟩
  · exact (hne rfl).elim

end LateralSql
