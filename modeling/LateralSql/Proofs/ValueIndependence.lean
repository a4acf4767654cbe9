/-
  The text of a statement with placeholders does not depend on values.

  Requests that are alike are compiled in lockstep: at every step the two compilations make the
  same choices, so they hand out the same names and build selects of the same masked form, or they
  stop at the same error (`node_lockstep`).
-/
import LateralSql.Proofs.AliasAgreement
import LateralSql.Proofs.AlikeRequests

namespace LateralSql

open List (Forall₂)

/-! ## Fields -/

section
variable {c : Compiler} {s : Scope}

theorem selectField_lockstep (f : SelectedField) :
    DraftLockstep Eq (selectField c s f) (selectField c s f) := by
  refine (DraftLockstep.lift_model .rfl).bind ?_
  rintro field _ rfl
  cases field with
  | object _ => exact .throw _
  | scalar field =>
    refine (DraftLockstep.lift .rfl).bind ?_
    rintro e _ rfl
    cases e with
    | column column =>
      refine (DraftLockstep.selectColumn column).bind ?_
      rintro name _ rfl
      exact .pure rfl
    | _ =>
      refine (DraftLockstep.selectExpr rfl).bind ?_
      rintro name _ rfl
      exact .pure rfl

theorem selectKey_lockstep (selected : List (SelectedField × String)) :
    DraftLockstep Eq (selectKey s selected) (selectKey s selected) := by
  unfold selectKey
  cases selectedKey? s.entity selected with
  | some name => exact .pure rfl
  | none =>
    refine (DraftLockstep.lift_model .rfl).bind ?_
    rintro fields _ rfl
    cases fields with
    | nil => exact .pure rfl
    | cons f fields =>
      refine (DraftLockstep.selectColumn _).bind ?_
      rintro name _ rfl
      exact .pure rfl

theorem selectJoinKey_lockstep (f : ObjectField) (label : String) :
    DraftLockstep Eq (selectJoinKey c s f label) (selectJoinKey c s f label) := by
  refine (DraftLockstep.lift .rfl).bind ?_
  rintro link _ rfl
  refine (DraftLockstep.mapM_same (fun column => ?_) _).bind ?_
  · refine (DraftLockstep.selectColumn _).bind ?_
    rintro name _ rfl
    exact .pure rfl
  · rintro columns _ rfl
    exact .pure rfl

theorem selectOrder_lockstep (k : SortKey) :
    DraftLockstep Eq (selectOrder s k) (selectOrder s k) := by
  refine (DraftLockstep.lift_model .rfl).bind ?_
  rintro f _ rfl
  refine (DraftLockstep.selectColumn _).bind ?_
  rintro name _ rfl
  exact .pure rfl

theorem selectExists_lockstep (parent : Option Parent) (columns : List Sql.Column) :
    DraftLockstep Eq (selectExists parent columns) (selectExists parent columns) := by
  cases parent with
  | none => exact .pure rfl
  | some p =>
    unfold selectExists
    dsimp only
    split
    · exact .mapM_same .selectColumn columns
    · exact .pure rfl

theorem selectRelated_lockstep (checkNull : Option String) (columns : List Sql.Column) :
    DraftLockstep Eq (selectRelated checkNull columns) (selectRelated checkNull columns) := by
  unfold selectRelated
  split
  · refine (DraftLockstep.selectColumn _).bind ?_
    rintro name _ rfl
    exact .pure rfl
  · exact .pure rfl

end

/-! ## Rows -/

/-- Of a context only its names matter. -/
theorem entityTable_masked (c : Compiler) (e : Entity) {context context' : List ContextValue}
    (h : context.map ContextValue.name = context'.map ContextValue.name) :
    (c.entityTable e context).masked = (c.entityTable e context').masked := by
  have hlength : context.length = context'.length := by simpa using congrArg List.length h
  have hargs : ∀ vs : List ContextValue,
      Sql.rewriteExprs Sql.masking (vs.map fun v => .param v.value) =
        List.replicate vs.length (.param Sql.maskedValue) := by
    intro vs
    simpa [Function.comp_def] using masked_params (vs.map (·.value))
  unfold Compiler.entityTable
  rw [isEmpty_eq_of_map h]
  split
  · rfl
  · rw [Sql.Table.inSchema_masked, Sql.Table.inSchema_masked]
    simp only [Sql.Table.ofFunction, Sql.Table.rewrite, Sql.Source.rewrite, hargs, hlength]

/-- Of a number of rows only matters whether there is one. -/
theorem atMost_masked {m n : Option UInt64} (h : m.isSome = n.isSome) :
    Sql.rewriteOption Sql.masking (m.map Sql.RowLimit.atMost) =
      Sql.rewriteOption Sql.masking (n.map Sql.RowLimit.atMost) := by
  cases m with
  | none => cases n with
    | none => rfl
    | some n => cases h
  | some m => cases n with
    | none => cases h
    | some n => rfl

theorem Paging.Alike.isSome {p p' : Option Paging} (h : Option.Rel Paging.Alike p p') :
    (p.bind (·.limit)).isSome = (p'.bind (·.limit)).isSome ∧
      (p.bind (·.offset)).isSome = (p'.bind (·.offset)).isSome := by
  cases h with
  | none => exact ⟨rfl, rfl⟩
  | some h => exact h

/-- Nodes that differ in values only. -/
structure Node.Alike (m n : Node) : Prop where
  select : m.select.masked = n.select.masked
  assembler : m.assembler = n.assembler
  existsColumns : m.existsColumns = n.existsColumns

theorem finish_lockstep {c : Compiler} {s : Scope} {table table' : Sql.Table}
    {parent : Option Parent} {correlation : Correlation} {r r' : RowCriteria}
    {fields : List (String × FieldReader)} {checkNull : Option String}
    (htable : table.masked = table'.masked) (hfilters : Forall₂ Filter.Alike r.filters r'.filters)
    (hsort : r.sort = r'.sort) (hpaging : Option.Rel Paging.Alike r.paging r'.paging)
    (hkeys : KeysAlike r.keys r'.keys) :
    DraftLockstep Node.Alike (finish c s table parent correlation r fields checkNull)
      (finish c s table' parent correlation r' fields checkNull) := by
  unfold finish
  rw [hsort]
  refine (DraftLockstep.mapM_same selectOrder_lockstep _).bind ?_
  rintro order _ rfl
  refine (DraftLockstep.compile (conjunction_lockstep hfilters)).bind
    fun d d' (hd : d.masked = d'.masked) => ?_
  refine (DraftLockstep.compile (keyCriteria_lockstep s hkeys)).bind fun keys keys' hkeys => ?_
  refine (selectExists_lockstep parent _).bind ?_
  rintro existsColumns _ rfl
  refine (selectRelated_lockstep checkNull _).bind ?_
  rintro checkNull _ rfl
  -- only here do the drafts themselves matter, and only up to their values
  refine DraftLockstep.get.bind fun draft draft' (hdraft : draft.masked = draft'.masked) => ?_
  obtain ⟨hcolumns, hjoins⟩ := Draft.mk.inj hdraft
  rw [isEmpty_eq_of_map hcolumns]
  split
  · exact .throw _
  · obtain ⟨hlimit, hoffset⟩ := Paging.Alike.isSome hpaging
    refine .pure ⟨?_, rfl, rfl⟩
    simp only [Sql.Select.rewrite, Sql.rewriteTables, Sql.rewriteExprs_eq, Sql.rewriteJoins_eq,
      List.map_append, Sql.Cond.both_rewrite, htable, hcolumns, hjoins, hd, hkeys.1, hkeys.2,
      atMost_masked hlimit, atMost_masked hoffset]

/-! ## Nodes -/

theorem ObjectRequest.Alike.hasRowCriteria_eq {r r' : ObjectRequest} (h : r.Alike r') :
    r.hasRowCriteria = r'.hasRowCriteria := by
  cases h with
  | intro _ _ _ _ _ hfilters hpaging hkeys hcontext =>
    cases hfilters <;> cases hpaging <;> simp only [ObjectRequest.hasRowCriteria,
      isEmpty_eq_of_map hkeys.names, isEmpty_eq_of_map hcontext, List.isEmpty_cons,
      List.isEmpty_nil, Option.isSome_some, Option.isSome_none]

theorem ObjectRequest.Alike.entity_eq {r r' : ObjectRequest} (h : r.Alike r') :
    r.entity = r'.entity := by
  cases h
  rfl

mutual

theorem node_lockstep {c : Compiler} {parent : Option Parent} : ∀ {r r' : ObjectRequest},
    r.Alike r' → Lockstep Node.Alike (node c parent r) (node c parent r')
  | ⟨entity, selected, objects, aggregates, filters, sort, paging, keys, context⟩, _,
    .intro _ _ _ hobjects haggregates hfilters hpaging hkeys hcontext => by
    rw [node, node]
    refine (Lockstep.lift_model .rfl).bind ?_
    rintro entity _ rfl
    refine Lockstep.rfl.bind ?_
    rintro name _ rfl
    refine Lockstep.rfl.bind ?_
    rintro correlation _ rfl
    refine DraftLockstep.run' ?_ _
    refine (DraftLockstep.mapM_same selectField_lockstep _).bind ?_
    rintro selected _ rfl
    refine (selectKey_lockstep selected).bind ?_
    rintro checkNull _ rfl
    refine (objectReaders_lockstep hobjects).bind ?_
    rintro objects _ rfl
    refine (DraftLockstep.mapM haggregates fun _ _ => selectAggregates_lockstep).bind
      fun aggregates aggregates' h => ?_
    obtain rfl := eq_of_forall₂ h
    refine finish_lockstep ?_ hfilters rfl hpaging hkeys
    rw [Sql.Table.as_masked, Sql.Table.as_masked, entityTable_masked c entity hcontext]
termination_by structural r => r

theorem objectReaders_lockstep {c : Compiler} {s : Scope} : ∀ {os os' : List ObjectFieldRequest},
    Forall₂ ObjectFieldRequest.Alike os os' →
    DraftLockstep Eq (objectReaders c s os) (objectReaders c s os')
  | [], _, .nil => .pure rfl
  | o :: os, _, .cons h hs => by
    rw [objectReaders, objectReaders]
    refine (objectReader_lockstep h).bind ?_
    rintro reader _ rfl
    refine (objectReaders_lockstep hs).bind ?_
    rintro readers _ rfl
    exact .pure rfl
termination_by structural os => os

theorem objectReader_lockstep {c : Compiler} {s : Scope} : ∀ {o o' : ObjectFieldRequest},
    o.Alike o' → DraftLockstep Eq (objectReader c s o) (objectReader c s o')
  | ⟨field, label, request⟩, _, .intro _ _ h => by
    rw [objectReader, objectReader, h.entity_eq, h.hasRowCriteria_eq]
    refine (DraftLockstep.lift_model .rfl).bind ?_
    rintro f _ rfl
    split
    · exact .throw _
    · split
      · split
        · exact .throw _
        · refine (DraftLockstep.lift_model .rfl).bind ?_
          rintro target _ rfl
          refine (embeddedReaders_lockstep h).bind ?_
          rintro fields _ rfl
          exact .pure rfl
      · split
        -- of a list only the key is selected, whatever is asked of its members
        · exact selectJoinKey_lockstep f label
        · refine (DraftLockstep.compile .rfl).bind ?_
          rintro wrapper _ rfl
          refine (DraftLockstep.lift .rfl).bind ?_
          rintro link _ rfl
          refine (DraftLockstep.compile (node_lockstep h)).bind fun child child' hchild => ?_
          refine (DraftLockstep.joinLateral ?_ wrapper).bind fun _ _ _ => .pure ?_
          · rw [Sql.Select.first_masked, Sql.Select.first_masked, hchild.select]
          · rw [hchild.assembler]
termination_by structural o => o

theorem embeddedReaders_lockstep {c : Compiler} {s : Scope} : ∀ {r r' : ObjectRequest},
    r.Alike r' → DraftLockstep Eq (embeddedReaders c s r) (embeddedReaders c s r')
  | ⟨entity, selected, objects, aggregates, filters, sort, paging, keys, context⟩, _,
    .intro _ _ _ hobjects haggregates _ _ _ _ => by
    rw [embeddedReaders, embeddedReaders]
    refine (DraftLockstep.mapM_same selectField_lockstep _).bind ?_
    rintro selected _ rfl
    refine (objectReaders_lockstep hobjects).bind ?_
    rintro objects _ rfl
    refine (DraftLockstep.mapM haggregates fun _ _ => selectAggregates_lockstep).bind
      fun aggregates aggregates' h => ?_
    obtain rfl := eq_of_forall₂ h
    exact .pure rfl
termination_by structural r => r

end

/-! ## Statements -/

/-- Batches that differ in values only. -/
structure BatchSelect.Alike (b b' : BatchSelect) : Prop where
  select : b.select.masked = b'.select.masked
  assembler : b.assembler = b'.assembler
  keyColumns : b.grouping.keyColumns = b'.grouping.keyColumns
  existsColumns : b.grouping.existsColumns = b'.grouping.existsColumns

theorem batchSelect_lockstep {c : Compiler} {r r' : BatchRequest} (h : r.Alike r') :
    Lockstep BatchSelect.Alike (batchSelect c r) (batchSelect c r') := by
  unfold batchSelect
  rw [h.entity, h.field, h.request.entity_eq, JoinKeys.names_eq h.keys.names]
  refine (Lockstep.lift_model .rfl).bind ?_
  rintro parent _ rfl
  refine (Lockstep.lift_model .rfl).bind ?_
  rintro f _ rfl
  split
  · exact .throw _
  · refine (Lockstep.lift .rfl).bind ?_
    rintro link _ rfl
    dsimp only
    split
    · exact .throw _
    · refine Lockstep.rfl.bind ?_
      rintro name _ rfl
      refine Lockstep.rfl.bind ?_
      rintro keyColumns _ rfl
      refine Lockstep.rfl.bind ?_
      rintro wrapper _ rfl
      refine (node_lockstep h.request).bind fun child child' hchild =>
        .pure ⟨?_, hchild.assembler, rfl, hchild.existsColumns⟩
      simp only [Sql.Select.rewrite, Sql.rewriteTables, Sql.rewriteJoins, Sql.Join.ofLateral,
        Sql.Join.rewrite, keyTable_masked h.keys.names, Sql.Table.as_masked, Sql.Table.ofSelect,
        Sql.Table.rewrite, Sql.Source.rewrite, hchild.select]

theorem CollectionRequest.Alike.root {r r' : CollectionRequest} (h : r.Alike r') :
    r.root.Alike r'.root := by
  obtain ⟨object, filters, sort, paging⟩ := r
  obtain ⟨object', filters', sort', paging'⟩ := r'
  obtain ⟨hobject, hfilters, hsort, hpaging⟩ := h
  dsimp only at hobject hfilters hsort hpaging
  subst hsort
  cases hobject with
  | intro entity selected sort hobjects haggregates hown hpages hkeys hcontext =>
    refine .intro _ _ _ hobjects haggregates (List.rel_append hown hfilters) ?_ hkeys hcontext
    cases hpaging with
    | none => exact hpages
    | some h => exact .some h

/-- The same text, read in the same way, with as many parameters. -/
structure CompiledQuery.SameText (q q' : CompiledQuery) : Prop where
  text : q.statement.text = q'.statement.text
  assembler : q.assembler = q'.assembler
  params : q.statement.params.length = q'.statement.params.length

/-- Besides, the rows are given back to the parents by the same columns. -/
structure CompiledBatch.SameText (q q' : CompiledBatch) : Prop extends
    q.toCompiledQuery.SameText q'.toCompiledQuery where
  keyColumns : q.grouping.keyColumns = q'.grouping.keyColumns
  existsColumns : q.grouping.existsColumns = q'.grouping.existsColumns

theorem run_agrees {α β : Type} {R : α → β → Prop} {x : Compile α} {y : Compile β}
    (h : Lockstep R x y) : Agree R (Compiler.run x) (Compiler.run y) := by
  change Agree R (Prod.fst <$> x {}) (Prod.fst <$> y {})
  rw [map_eq_pure_bind, map_eq_pure_bind]
  exact (h {}).bind fun _ _ h => .ok h.1

section
variable {c : Compiler}

theorem statement_sameText (hmode : c.settings.paramMode = .bind) {s s' : Sql.Select}
    {a a' : Assembler} (hs : s.masked = s'.masked) (ha : a = a') :
    CompiledQuery.SameText ⟨c.statement s, a⟩ ⟨c.statement s', a'⟩ := by
  refine ⟨?_, ha, ?_⟩ <;> simp only [Compiler.statement, hmode]
  · exact Sql.statement_text_eq hs
  · exact Sql.length_params_eq hs

theorem object_agrees (hmode : c.settings.paramMode = .bind) {r r' : ObjectRequest}
    (h : r.Alike r') : Agree CompiledQuery.SameText (c.object r) (c.object r') :=
  (run_agrees (node_lockstep h)).bind fun _ _ hn =>
    .ok (statement_sameText hmode hn.select hn.assembler)

/-- **With placeholders the text does not depend on values.**  Two requests that differ in values
    only are refused with the same error, or they are compiled to the same text with as many
    parameters, and rows are read in the same way.  This includes the keys of a batch, from which
    those that occur twice are dropped first. -/
theorem placeholder_text_independent (hmode : c.settings.paramMode = .bind) :
    (∀ r r' : ObjectRequest, r.Alike r' →
      Agree CompiledQuery.SameText (c.object r) (c.object r')) ∧
    (∀ r r' : CollectionRequest, r.Alike r' →
      Agree CompiledQuery.SameText (c.collection r) (c.collection r')) ∧
    (∀ ks ks' : List KeyMap, KeysAlike ks ks' →
      Agree (InvImage KeysAlike JoinKeys.keys) (JoinKeys.ofList ks) (JoinKeys.ofList ks')) ∧
    (∀ r r' : BatchRequest, r.Alike r' →
      Agree CompiledBatch.SameText (c.batch r) (c.batch r')) := by
  refine ⟨fun _ _ h => object_agrees hmode h, fun _ _ h => object_agrees hmode h.root,
    fun _ _ => ofList_agrees, fun r r' h => ?_⟩
  refine (run_agrees (batchSelect_lockstep h)).bind fun b b' hb => .ok ?_
  exact ⟨statement_sameText hmode hb.select hb.assembler, hb.keyColumns, hb.existsColumns⟩

end

/-- Some books in a language, found by title, author and key, with their later readers.  One of the
    keys is given twice. -/
def searchRequest (title language separator : String) (first second : Int64) (limit : UInt64) :
    ObjectRequest where
  entity := "Book"
  selected := [⟨"title", "title", none⟩]
  aggregates := [{
    field := "loans", label := "stats"
    aggregates := [
      { label := "readers", function := .join, field := some "readers",
        separator := some separator }]
    filters := [.test ["id"] (.greater false (.int first))] }]
  filters := [
    .or [
      .test ["title"] (.equals (.string title)),
      .not (.test ["author", "name"] (.equals .null))],
    .test ["id"] (.isIn [.int first, .int second])]
  paging := some { limit := some limit }
  keys := [idKey first, idKey second, idKey first]
  context := [⟨"language", .string language⟩]

/-- The two searches have no value in common. -/
theorem placeholder_text_independent_library :
    (library.object (searchRequest "Emma" "en" ", " 1 2 10)).toOption.map (·.statement.params ==
      [.string "en", .int 1, .int 2, .string ", ", .int 1, .string "Emma", .int 1, .int 2,
        .int 10]) = some true ∧
    (library.object (searchRequest "Zadig" "fr" "; " 4 3 25)).toOption.map (·.statement.params ==
      [.string "fr", .int 4, .int 3, .string "; ", .int 4, .string "Zadig", .int 4, .int 3,
        .int 25]) = some true ∧
    (∃ q q', library.object (searchRequest "Emma" "en" ", " 1 2 10) = .ok q ∧
      library.object (searchRequest "Zadig" "fr" "; " 4 3 25) = .ok q' ∧ q.SameText q') ∧
    (∃ q q', library.collection { object := searchRequest "Emma" "en" ", " 1 2 10 } = .ok q ∧
      library.collection { object := searchRequest "Zadig" "fr" "; " 4 3 25 } = .ok q' ∧
      q.SameText q') ∧
    ∃ b b', library.batch loansRequest = .ok b ∧
      library.batch { loansRequest with keys := { keys := [idKey 5, idKey 3] } } =
        .ok b' ∧ b.SameText b' := by
  obtain ⟨hobject, hcollection, -, hbatch⟩ := placeholder_text_independent (c := library) rfl
  have hsearch : (searchRequest "Emma" "en" ", " 1 2 10).Alike
      (searchRequest "Zadig" "fr" "; " 4 3 25) := by
    refine .intro _ _ _ .nil (.cons ⟨rfl, rfl, .cons rfl .nil, ?_⟩ .nil) ?_ (.some ⟨rfl, rfl⟩)
      ⟨rfl, by decide +kernel⟩ rfl
    · exact .cons (.test _ (.greater _ rfl)) .nil
    · refine .cons (.or (.cons (.test _ (.equals rfl)) (.cons (.not ?_) .nil))) (.cons ?_ .nil)
      · exact .test _ (.equals rfl)
      · exact .test _ (.isIn rfl)
  have hsearches : CollectionRequest.Alike { object := searchRequest "Emma" "en" ", " 1 2 10 }
      { object := searchRequest "Zadig" "fr" "; " 4 3 25 } := ⟨hsearch, .nil, rfl, .none⟩
  have hloans : loansRequest.Alike
      { loansRequest with keys := { keys := [idKey 5, idKey 3] } } := by
    refine ⟨rfl, rfl, ⟨rfl, by decide +kernel⟩, ?_⟩
    exact .intro _ _ _ .nil .nil .nil .none ⟨rfl, by decide +kernel⟩ rfl
  obtain ⟨q, hq⟩ : ∃ q, library.object (searchRequest "Emma" "en" ", " 1 2 10) = .ok q := ⟨_, rfl⟩
  obtain ⟨q', hq'⟩ : ∃ q, library.object (searchRequest "Zadig" "fr" "; " 4 3 25) = .ok q :=
    ⟨_, rfl⟩
  obtain ⟨b, hb⟩ : ∃ b, library.batch loansRequest = .ok b := ⟨_, rfl⟩
  obtain ⟨b', hb'⟩ : ∃ b, library.batch
      { loansRequest with keys := { keys := [idKey 5, idKey 3] } } = .ok b := ⟨_, rfl⟩
  refine ⟨by decide +kernel, by decide +kernel, ?_, ?_, ?_⟩
  · exact ⟨q, q', hq, hq', (hobject _ _ hsearch).of_ok hq hq'⟩
  · exact ⟨q, q', hq, hq', (hcollection _ _ hsearches).of_ok hq hq'⟩
  · exact ⟨b, b', hb, hb', (hbatch _ _ hloans).of_ok hb hb'⟩

end LateralSql
