/-
  A compiled select yields every column that its assembler reads, each under one name.

  A node's columns are named after those of its parent and before those that come next, so they
  are distinct, by induction on the request.  Its assembler reads its own columns and those of
  the selects that it joins, and whatever it joins besides has another name.
-/
import LateralSql.Proofs.NodeParts

namespace LateralSql

/-! ## Joins of a finished select -/

/-- The tables that tie a node to its parent are named while it is tied. -/
theorem newTables_of_correlateParent {c : Compiler} {parent : Option Parent} {name : String}
    {r : Correlation} {n n' : Names} (h : correlateParent c parent name n = .ok (r, n')) :
    n ≤ n' ∧ NewTables n n' ((Sql.joinOutputs r.joins).map (·.1)) := by
  cases parent with
  | none =>
    obtain ⟨rfl, rfl⟩ := pure_run.1 h
    exact ⟨le_rfl, .nil _ _ _⟩
  | some p =>
    refine ⟨Grows.correlate c p.link _ _ h, ?_⟩
    rcases Link.correlate_cases h with ⟨_, -, rfl, rfl⟩ | ⟨_, _, _, -, junction, hfresh, rfl⟩
    · exact .nil _ _ _
    · exact newTables_of_freshTable hfresh

theorem newTables_of_keyCriteria {s : Scope} {keys : List KeyMap} {r : KeyCriteria} {n n' : Names}
    (h : keyCriteria s keys n = .ok (r, n')) :
    n ≤ n' ∧ NewTables n n' ((Sql.joinOutputs r.joins).map (·.1)) := by
  unfold keyCriteria at h
  split at h
  · obtain ⟨rfl, rfl⟩ := pure_run.1 h
    exact ⟨le_rfl, .nil _ _ _⟩
  · obtain ⟨conditions, n₁, hconditions, h⟩ := bind_run.1 h
    obtain ⟨rfl, rfl⟩ := pure_run.1 h
    refine ⟨Grows.mapM (fun m => ?_) _ hconditions, .nil _ _ _⟩
    exact (Grows.lift_model _).bind fun _ => Grows.pure _
  · obtain ⟨keys, n₁, hkeys, h⟩ := bind_run.1 h
    obtain ⟨name, n₂, hfresh, h⟩ := bind_run.1 h
    obtain ⟨fields, n₃, hfields, h⟩ := bind_run.1 h
    obtain ⟨rfl, rfl⟩ := pure_run.1 h
    obtain ⟨-, rfl⟩ := lift_model_run.1 hkeys
    obtain ⟨-, rfl⟩ := lift_model_run.1 hfields
    exact ⟨Grows.freshTable hfresh, newTables_of_freshTable hfresh⟩

section
variable {Sel : Sql.Expr → Prop} {Lat : Names → Sql.Select → Names → Prop}

/-- What is joined besides does not hide what a draft joins. -/
theorem outputs_of_joins {lo n₁ n₂ n₃ n₄ : Names} {d e : Draft} {before keys : List Sql.Join}
    (hbefore : NewTables lo n₁ ((Sql.joinOutputs before).map (·.1))) (hd : Added Sel Lat n₁ d n₂)
    (hkeys : NewTables n₂ n₃ ((Sql.joinOutputs keys).map (·.1))) (hle : n₂ ≤ n₃)
    (he : Added Sel Lat n₃ e n₄) :
    (d ++ e).columns.flatMap
        (Sql.Expr.outputs (Sql.joinOutputs (before ++ keys ++ (d ++ e).joins))) =
      (d ++ e).outputs := by
  refine Sql.flatMap_outputs_congr fun t ht => ?_
  have hnumber : ∃ k, n₁.tables < k ∧ (k ≤ n₂.tables ∨ n₃.tables < k) ∧ Names.tableName k = t := by
    rcases List.mem_append.1 ht with ht | ht
    · obtain ⟨k, hlo, hhi, hk⟩ := hd.labels.number t (hd.stars t ht)
      exact ⟨k, hlo, .inl hhi, hk⟩
    · obtain ⟨k, hlo, hhi, hk⟩ := he.labels.number t (he.stars t ht)
      exact ⟨k, lt_of_le_of_lt (hd.le.trans hle).1 hlo, .inr hlo, hk⟩
  obtain ⟨k, hlo, hother, rfl⟩ := hnumber
  have h₁ := Sql.lookup_of_notMem_labels (hbefore.notMem Names.tableName_inj (.inr hlo))
  have h₂ := Sql.lookup_of_notMem_labels (hkeys.notMem Names.tableName_inj hother)
  rw [Sql.joinOutputs_append, Sql.joinOutputs_append, List.lookup_append, List.lookup_append, h₁,
    h₂, Option.none_or, Option.none_or]

end

/-! ## Nodes -/

/-- The columns of what is joined are named while it is compiled. -/
theorem Joined.newColumns {c : Compiler} {name : String} {bound : Nat} {n n' : Names}
    {s : Sql.Select} (h : Joined c name bound n s n')
    (hnode : ∀ r, sizeOf r < bound → SoundNodes c r) : NewColumns n n' s.outputs := by
  cases h with
  | object hsize hrun =>
    rw [Sql.Select.outputs_first]
    exact (hnode _ hsize hrun).outputs
  | shared _ hsource hcorrelate hcondition hresults =>
    have hle := ((Grows.freshTable hsource).trans (Grows.correlate c _ _ _ hcorrelate)).trans
      (Grows.conjunction c _ _ hcondition)
    obtain ⟨-, hnew, houtputs⟩ := sharedResults_run hresults
    rw [Sql.Select.outputs_eq, houtputs]
    exact hnew.mono hle.2 le_rfl
  | unnested hsource hcorrelate hcondition helements helement hresult _ =>
    have hle := ((((Grows.freshTable hsource).trans (Grows.correlate c _ _ _ hcorrelate)).trans
      (Grows.conjunction c _ _ hcondition)).trans (Grows.freshTable helements)).trans
      (Grows.freshColumn helement)
    rw [Sql.Select.outputs_eq]
    exact (newColumns_of_freshColumn hresult).mono hle.2 le_rfl

section
variable {c : Compiler} {parent : Option Parent} {r : ObjectRequest} {n n' : Names}

/-- The columns of a node are those of its draft. -/
theorem NodeRun.outputs (run : NodeRun c parent r n n')
    (hnode : ∀ r', sizeOf r' < sizeOf r → SoundNodes c r') {e : Draft}
    (hdraft : run.draft = run.d₅ ++ e)
    (he : Added (Selected run.name run.correlation.existsColumns) (Joined c run.name (sizeOf r))
      run.n₉ e n') : run.node.select.outputs = run.d₅.outputs ++ e.outputs := by
  obtain ⟨hd, -, -⟩ := run.fields hnode
  obtain ⟨hle, hbefore⟩ := newTables_of_correlateParent run.correlation_run
  obtain ⟨hleKeys, hkeys⟩ := newTables_of_keyCriteria run.keys_run
  have hd' := hd.mono (Grows.conjunction c _ _ run.filters_run)
  rw [← (hd'.mono hleKeys).outputs_append he, Sql.Select.outputs_eq, NodeRun.node, hdraft]
  exact outputs_of_joins hbefore hd' hkeys hleKeys he

/-- A node is sound if the nodes of smaller requests are. -/
theorem NodeRun.sound (run : NodeRun c parent r n n')
    (hnode : ∀ r', sizeOf r' < sizeOf r → SoundNodes c r') : run.node.Sound n n' := by
  obtain ⟨hd, hkey, hfields⟩ := run.fields hnode
  obtain ⟨e, hdraft, he, hexists, hnull⟩ := run.last (Joined c run.name (sizeOf r))
  obtain ⟨hle, -⟩ := newTables_of_correlateParent run.correlation_run
  obtain ⟨hleKeys, -⟩ := newTables_of_keyCriteria run.keys_run
  have hd' := hd.mono ((Grows.conjunction c _ _ run.filters_run).trans hleKeys)
  have hnamed := run.d₅.named_subset_outputs
  have hnew : NewColumns run.n₂ n' (run.d₅ ++ e).outputs :=
    (hd'.append he).newColumns fun _ _ _ h => h.newColumns hnode
  have hstart : n ≤ run.n₂ := (Grows.freshTable run.name_run).trans hle
  refine ⟨hstart.trans (hd'.le.trans he.le), ?_, ?_, ?_⟩ <;> rw [run.outputs hnode hdraft he]
  · rw [← hd'.outputs_append he]
    exact hnew.mono hstart.2 le_rfl
  · refine List.append_subset.2 ⟨fun y hy => ?_, List.subset_append_of_subset_left _ hfields⟩
    rcases hnull y (by simpa using hy) with h | h | h
    · exact List.mem_append_left _ (hkey (by simpa using h))
    · exact List.mem_append_left _ (hnamed h)
    · exact List.mem_append_right _ h
  · exact fun y hy => List.mem_append.2 ((hexists y hy).imp_left (hnamed ·))

end

theorem node_sound (c : Compiler) (r : ObjectRequest) : SoundNodes c r := by
  intro parent n nd n' hrun
  obtain ⟨run, rfl⟩ := node_run hrun
  exact run.sound fun r' _ => node_sound c r'
termination_by sizeOf r

/-! ## Requests -/

theorem run_ok {α : Type} {x : Compile α} {a : α} :
    Compiler.run x = .ok a ↔ ∃ n', x {} = .ok (a, n') := by
  change Prod.fst <$> x {} = .ok a ↔ _
  cases x {} <;> simp [Prod.ext_iff]

/-- The columns of keys are named one after the other. -/
theorem newColumns_of_keys {names : List String} {ks : List (String × String)} {n n' : Names}
    (h : (names.mapM fun key => return (key, ← freshColumn) : Compile _) n = .ok (ks, n')) :
    n ≤ n' ∧ NewColumns n n' (ks.map (·.2)) := by
  induction names generalizing n ks with
  | nil =>
    obtain ⟨rfl, rfl⟩ := pure_run.1 h
    exact ⟨le_rfl, .nil _ _ _⟩
  | cons name names ih =>
    rw [List.mapM_cons] at h
    simp only [bind_run, pure_run] at h
    obtain ⟨_, n₁, ⟨column, _, hfresh, rfl, rfl⟩, rest, n₂, hrest, rfl, rfl⟩ := h
    obtain ⟨hle, hnew⟩ := ih hrest
    have hle₁ := Grows.freshColumn hfresh
    exact ⟨hle₁.trans hle, (newColumns_of_freshColumn hfresh).append hnew hle₁ hle⟩

section
variable {c : Compiler} {r : BatchRequest} {n n' : Names}

/-- The columns of a batch: those of the keys, then those of the related rows. -/
theorem BatchRun.outputs (run : BatchRun c r n n') :
    run.result.select.outputs = run.keyColumns.map (·.2) ++ run.child.select.outputs := by
  have hkeys (joined : List (String × List String)) :
      (run.keyColumns.map fun k => (Sql.Expr.column (Sql.col run.name k.1)).as k.2).flatMap
        (Sql.Expr.outputs joined) = run.keyColumns.map (·.2) := by
    rw [List.flatMap_map, List.map_eq_flatMap]
    rfl
  rw [Sql.Select.outputs_eq, BatchRun.result, List.flatMap_append, hkeys,
    Sql.joinOutputs_ofLateral]
  simp only [List.flatMap_singleton, Sql.Expr.outputs, List.lookup_cons_self, Option.getD_some]

theorem BatchRun.newColumns (run : BatchRun c r n n') :
    NewColumns run.n₁ n' run.result.select.outputs := by
  have hchild := (node_sound c r.request run.child_run).mono (Grows.freshTable run.wrapper_run)
  obtain ⟨hle, hnew⟩ := newColumns_of_keys run.keys_run
  rw [run.outputs]
  exact hnew.append hchild.outputs hle hchild.le

theorem batchSelect_sound {b : BatchSelect} (h : batchSelect c r n = .ok (b, n')) :
    b.select.outputs.Nodup ∧ b.assembler.reads ⊆ b.select.outputs ∧
      b.grouping.keyColumns.map (·.2) ⊆ b.select.outputs ∧
      b.grouping.existsColumns ⊆ b.select.outputs := by
  obtain ⟨run, rfl⟩ := batchSelect_run h
  have hchild := node_sound c r.request run.child_run
  refine ⟨run.newColumns.nodup, ?_, ?_, ?_⟩ <;> rw [run.outputs]
  · exact List.subset_append_of_subset_right _ hchild.reads
  · exact List.subset_append_left _ _
  · exact List.subset_append_of_subset_right _ hchild.existsColumns

end

theorem object_columns {c : Compiler} {r : ObjectRequest} {q : CompiledQuery}
    (h : c.object r = .ok q) :
    ∃ root, Compiler.run (node c none r) = .ok root ∧
      q = ⟨c.statement root.select, root.assembler⟩ ∧
      root.select.outputs.Nodup ∧ q.assembler.reads ⊆ root.select.outputs := by
  obtain ⟨root, hroot, h⟩ := bind_ok.1 h
  obtain rfl := pure_ok.1 h
  obtain ⟨n', hrun⟩ := run_ok.1 hroot
  have hsound := node_sound c r hrun
  exact ⟨root, hroot, rfl, hsound.outputs.nodup, hsound.reads⟩

/-- **A compiled select yields what is read of its rows.**  The columns of the select of an object,
    a collection or a batch have distinct names, and every column that the assembler reads, at any
    depth, is one of them; so is every column of a batch's keys, and every column that tells a
    related row from none. -/
theorem compiled_columns_agree (c : Compiler) :
    (∀ r q, c.object r = .ok q → ∃ root, Compiler.run (node c none r) = .ok root ∧
      q = ⟨c.statement root.select, root.assembler⟩ ∧
      root.select.outputs.Nodup ∧ q.assembler.reads ⊆ root.select.outputs) ∧
    (∀ r q, c.collection r = .ok q → ∃ root, Compiler.run (node c none r.root) = .ok root ∧
      q = ⟨c.statement root.select, root.assembler⟩ ∧
      root.select.outputs.Nodup ∧ q.assembler.reads ⊆ root.select.outputs) ∧
    (∀ r q, c.batch r = .ok q → ∃ root, Compiler.run (batchSelect c r) = .ok root ∧
      q = ⟨⟨c.statement root.select, root.assembler⟩, root.grouping⟩ ∧
      root.select.outputs.Nodup ∧ q.assembler.reads ⊆ root.select.outputs ∧
      q.grouping.keyColumns.map (·.2) ⊆ root.select.outputs ∧
      q.grouping.existsColumns ⊆ root.select.outputs) := by
  refine ⟨fun _ _ => object_columns, fun _ _ => object_columns, fun r q h => ?_⟩
  obtain ⟨root, hroot, h⟩ := bind_ok.1 h
  obtain rfl := pure_ok.1 h
  obtain ⟨n', hrun⟩ := run_ok.1 hroot
  exact ⟨root, hroot, rfl, batchSelect_sound hrun⟩

/-! ## Books -/

/-- A book is stored with its imprint and belongs to an author. -/
def book : Entity where
  name := "Book"
  table := { name := "book" }
  keys := ["id"]
  fields := [
    .scalar { name := "id", column := "id", type := .int },
    .scalar { name := "title", column := "title", type := .string },
    .object {
      name := "author", target := "Author"
      relation := some (.joinColumns [⟨"author_id", .field "id"⟩]) },
    .object { name := "imprint", target := "Imprint", relation := none },
    .object {
      name := "loans", target := "Loan", isList := true, relation := some (.mappedBy "book") }]

/-- The author of a book; no field identifies one. -/
def author : Entity where
  name := "Author"
  table := { name := "author" }
  fields := [
    .scalar { name := "id", column := "id", type := .int },
    .scalar { name := "name", column := "name", type := .string }]

/-- What is printed on a book, stored in the row of the book. -/
def imprint : Entity where
  name := "Imprint"
  table := { name := "book" }
  fields := [.scalar { name := "title", column := "title", type := .string }]

/-- A loan of a book, perhaps to several readers. -/
def loan : Entity where
  name := "Loan"
  table := { name := "loan" }
  fields := [
    .scalar { name := "id", column := "id", type := .int },
    .scalar { name := "readers", column := "readers", type := .string, isList := true },
    .object {
      name := "book", target := "Book"
      relation := some (.joinColumns [⟨"book_id", .field "id"⟩]) }]

/-- The library with its books, authors and loans. -/
def library : Compiler where
  schema := ⟨[book, author, imprint, loan]⟩

/-- A book with its author, its imprint, the key of its loans and two aggregates over them. -/
def bookRequest : ObjectRequest where
  entity := "Book"
  selected := [⟨"title", "title", none⟩]
  objects := [
    ⟨"author", "author", { entity := "Author", selected := [⟨"name", "name", none⟩] }⟩,
    ⟨"imprint", "imprint", { entity := "Imprint", selected := [⟨"title", "title", none⟩] }⟩,
    ⟨"loans", "loans", { entity := "Loan" }⟩]
  aggregates := [{
    field := "loans", label := "stats"
    aggregates := [
      { label := "readers", function := .join, field := some "readers" },
      { label := "count", function := .count }] }]

/-- The key of the row with the given number. -/
def idKey (id : Int64) : KeyMap := .ofMembers [("id", .int id)]

/-- The key of the first row alone. -/
def firstRow : JoinKeys := { keys := [idKey 1] }

/-- The loans of two books. -/
def loansRequest : BatchRequest where
  entity := "Book"
  field := "loans"
  keys := { keys := [idKey 1, idKey 2] }
  request := { entity := "Loan", selected := [⟨"id", "id", none⟩] }

/-- The column `x6` of the elements of a list is read within the select alone. -/
theorem compiled_columns_agree_library :
    (library.object bookRequest).toOption.map (·.assembler.reads) =
      some ["x2", "x1", "x4", "x3", "x1", "x2", "x7", "x5"] ∧
    (Compiler.run (node library none bookRequest)).toOption.map (·.select.outputs) =
      some ["x1", "x2", "x3", "x4", "x5", "x7"] ∧
    (∃ q root, library.object bookRequest = .ok q ∧
      Compiler.run (node library none bookRequest) = .ok root ∧
      root.select.outputs.Nodup ∧ q.assembler.reads ⊆ root.select.outputs) ∧
    (∃ q root, library.collection { object := bookRequest } = .ok q ∧
      Compiler.run (node library none bookRequest) = .ok root ∧
      root.select.outputs.Nodup ∧ q.assembler.reads ⊆ root.select.outputs) ∧
    (library.batch loansRequest).toOption.map (fun q => (q.assembler.reads, q.grouping.keyColumns,
      q.grouping.existsColumns)) = some (["x3", "x2"], [("id", "x1")], ["x3"]) ∧
    (Compiler.run (batchSelect library loansRequest)).toOption.map (·.select.outputs) =
      some ["x1", "x2", "x3"] ∧
    ∃ q root, library.batch loansRequest = .ok q ∧
      Compiler.run (batchSelect library loansRequest) = .ok root ∧
      root.select.outputs.Nodup ∧ q.assembler.reads ⊆ root.select.outputs ∧
      q.grouping.keyColumns.map (·.2) ⊆ root.select.outputs ∧
      q.grouping.existsColumns ⊆ root.select.outputs := by
  obtain ⟨q, hq⟩ : ∃ q, library.object bookRequest = .ok q := ⟨_, rfl⟩
  obtain ⟨b, hb⟩ : ∃ b, library.batch loansRequest = .ok b := ⟨_, rfl⟩
  obtain ⟨hobject, hcollection, hbatch⟩ := compiled_columns_agree library
  refine ⟨by decide +kernel, by decide +kernel, ?_, ?_, by decide +kernel, by decide +kernel, ?_⟩
  · obtain ⟨root, hroot, -, hcolumns⟩ := hobject bookRequest q hq
    exact ⟨q, root, hq, hroot, hcolumns⟩
  · obtain ⟨root, hroot, -, hcolumns⟩ := hcollection { object := bookRequest } q hq
    exact ⟨q, root, hq, hroot, hcolumns⟩
  · obtain ⟨root, hroot, -, hcolumns⟩ := hbatch loansRequest b hb
    exact ⟨b, root, hb, hroot, hcolumns⟩

end LateralSql
