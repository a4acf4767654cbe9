/-
  Requests that differ in values only, and the parts of a select that are made from them.

  Two requests are alike if they have the same shape, ask for the same fields and test for null at
  the same places.  The values themselves, numbers of rows and separators may differ; of a list of
  keys only the names and which of them are equal must be the same.
-/
import LateralSql.Proofs.KeyMaps
import LateralSql.Proofs.Lockstep

namespace LateralSql

open List (Forall₂)

/-! ## Alike requests -/

/-- A test of the same kind. Null is asked for by both or by none, and lists are equally long. -/
inductive FieldTest.Alike : FieldTest → FieldTest → Prop where
  | equals {v w : Value} (h : v.isNull = w.isNull) : Alike (.equals v) (.equals w)
  | greater (orEqual : Bool) {v w : Value} (h : v.isNull = w.isNull) :
      Alike (.greater orEqual v) (.greater orEqual w)
  | lower (orEqual : Bool) {v w : Value} (h : v.isNull = w.isNull) :
      Alike (.lower orEqual v) (.lower orEqual w)
  | isIn {vs ws : List Value} (h : vs.length = ws.length) : Alike (.isIn vs) (.isIn ws)
  | spatial (t : SpatialTest) : Alike (.spatial t) (.spatial t)

/-- The same tree of tests, those at each place alike. -/
inductive Filter.Alike : Filter → Filter → Prop where
  | test (path : FieldPath) {t u : FieldTest} (h : t.Alike u) : Alike (.test path t) (.test path u)
  | not {f g : Filter} (h : Alike f g) : Alike (.not f) (.not g)
  | and {fs gs : List Filter} (h : Forall₂ Alike fs gs) : Alike (.and fs) (.and gs)
  | or {fs gs : List Filter} (h : Forall₂ Alike fs gs) : Alike (.or fs) (.or gs)

/-- Keys of the same names, equal at the same places. -/
structure KeysAlike (ks ks' : List KeyMap) : Prop where
  names : ks.map KeyMap.names = ks'.map KeyMap.names
  pattern : ∀ p ∈ ks.zip ks', ∀ q ∈ ks.zip ks', (p.1 == q.1) = (p.2 == q.2)

/-- The same of limit and offset are given. -/
def Paging.Alike (p q : Paging) : Prop :=
  p.limit.isSome = q.limit.isSome ∧ p.offset.isSome = q.offset.isSome

/-- The same aggregate, up to its separator. -/
def Aggregate.Alike (a b : Aggregate) : Prop :=
  { a with separator := none } = { b with separator := none }

/-- The same aggregates over the same relation, with filters that are alike. -/
structure AggregateRequest.Alike (r r' : AggregateRequest) : Prop where
  field : r.field = r'.field
  label : r.label = r'.label
  aggregates : Forall₂ Aggregate.Alike r.aggregates r'.aggregates
  filters : Forall₂ Filter.Alike r.filters r'.filters

mutual

/-- The same tree of fields, with criteria that are alike at each node. -/
inductive ObjectRequest.Alike : ObjectRequest → ObjectRequest → Prop where
  | intro (entity : String) (selected : List SelectedField)
      {objects objects' : List ObjectFieldRequest} {aggregates aggregates' : List AggregateRequest}
      {filters filters' : List Filter} (sort : List SortKey) {paging paging' : Option Paging}
      {keys keys' : List KeyMap} {context context' : List ContextValue}
      (hobjects : Forall₂ ObjectFieldRequest.Alike objects objects')
      (haggregates : Forall₂ AggregateRequest.Alike aggregates aggregates')
      (hfilters : Forall₂ Filter.Alike filters filters')
      (hpaging : Option.Rel Paging.Alike paging paging')
      (hkeys : KeysAlike keys keys')
      (hcontext : context.map ContextValue.name = context'.map ContextValue.name) :
      ObjectRequest.Alike
        ⟨entity, selected, objects, aggregates, filters, sort, paging, keys, context⟩
        ⟨entity, selected, objects', aggregates', filters', sort, paging', keys', context'⟩

/-- The same field under the same label, with requests that are alike. -/
inductive ObjectFieldRequest.Alike : ObjectFieldRequest → ObjectFieldRequest → Prop where
  | intro (field label : String) {request request' : ObjectRequest}
      (h : ObjectRequest.Alike request request') :
      ObjectFieldRequest.Alike ⟨field, label, request⟩ ⟨field, label, request'⟩

end

/-- Requests that are alike, in the same order, paged alike. -/
structure CollectionRequest.Alike (r r' : CollectionRequest) : Prop where
  object : r.object.Alike r'.object
  filters : Forall₂ Filter.Alike r.filters r'.filters
  sort : r.sort = r'.sort
  paging : Option.Rel Paging.Alike r.paging r'.paging

/-- The same relation, with keys and requests that are alike. -/
structure BatchRequest.Alike (r r' : BatchRequest) : Prop where
  entity : r.entity = r'.entity
  field : r.field = r'.field
  keys : KeysAlike r.keys.keys r'.keys.keys
  request : r.request.Alike r'.request

/-! ## Conditions -/

theorem masked_params (vs : List Value) : Sql.rewriteExprs Sql.masking (vs.map .param) =
    List.replicate vs.length (.param Sql.maskedValue) := by
  have hparam : Sql.Expr.rewrite Sql.masking ∘ Sql.Expr.param =
      fun _ => .param Sql.maskedValue := rfl
  rw [Sql.rewriteExprs_eq, List.map_map, hparam]
  exact List.map_const' ..

section
variable {c : Compiler} {s : Scope}

theorem equalsCondition_agrees (f : ScalarField) {v w : Value} (h : v.isNull = w.isNull) :
    Agree (InvImage Eq Sql.Cond.masked) (equalsCondition s f v) (equalsCondition s f w) := by
  unfold equalsCondition
  rw [h]
  split
  · exact .error _
  · split
    · exact .ok rfl
    · split
      · exact .ok rfl
      · exact .ok rfl

theorem rangeCondition_agrees (f : ScalarField) (op : Sql.Comparison) {v w : Value}
    (h : v.isNull = w.isNull) :
    Agree (InvImage Eq Sql.Cond.masked) (rangeCondition s f op v) (rangeCondition s f op w) := by
  unfold rangeCondition
  rw [h]
  split
  · exact .error _
  · split
    · exact .error _
    · exact .ok rfl

theorem inCondition_agrees (f : ScalarField) {vs ws : List Value} (h : vs.length = ws.length) :
    Agree (InvImage Eq Sql.Cond.masked) (inCondition s f vs) (inCondition s f ws) := by
  have hempty : vs.isEmpty = ws.isEmpty := by
    cases vs <;> cases ws <;> simp_all
  unfold inCondition
  rw [hempty]
  split
  · exact .error _
  · split
    · exact .ok rfl
    · refine .ok ?_
      simp only [InvImage, Sql.Cond.rewrite, Sql.Expr.rewrite, masked_params, h]

theorem fieldCondition_lockstep (name : String) {t u : FieldTest} (h : t.Alike u) :
    Lockstep (InvImage Eq Sql.Cond.masked) (fieldCondition c s name t)
      (fieldCondition c s name u) := by
  refine (Lockstep.lift .rfl).bind ?_
  rintro f _ rfl
  cases h with
  | equals h => exact .lift (equalsCondition_agrees f h)
  | greater _ h => exact .lift (rangeCondition_agrees f _ h)
  | lower _ h => exact .lift (rangeCondition_agrees f _ h)
  | isIn h => exact .lift (inCondition_agrees f h)
  | spatial t => exact Lockstep.rfl.mono fun _ _ h => congrArg Sql.Cond.masked h

theorem pathCondition_lockstep {t u : FieldTest} (h : t.Alike u) (path : FieldPath) :
    Lockstep (InvImage Eq Sql.Cond.masked) (pathCondition c t path s)
      (pathCondition c u path s) := by
  induction path generalizing s with
  | nil => exact .throw _
  | cons name rest ih =>
    cases rest with
    | nil => exact fieldCondition_lockstep name h
    | cons next rest =>
      rw [pathCondition, pathCondition]
      refine (Lockstep.lift_model .rfl).bind ?_
      rintro f _ rfl
      refine (Lockstep.lift_model .rfl).bind ?_
      rintro target _ rfl
      split
      · exact ih
      · refine (Lockstep.lift .rfl).bind ?_
        rintro link _ rfl
        refine Lockstep.rfl.bind ?_
        rintro child _ rfl
        refine Lockstep.rfl.bind ?_
        rintro correlation _ rfl
        refine ih.bind fun d d' (hd : d.masked = d'.masked) => .pure ?_
        simp only [InvImage, Sql.Cond.rewrite, Sql.Expr.rewrite, Sql.Select.rewrite,
          Sql.Cond.both_rewrite, hd]

mutual

theorem condition_lockstep : ∀ {f g : Filter}, f.Alike g →
    Lockstep (InvImage Eq Sql.Cond.masked) (condition c s f) (condition c s g)
  | .test path _, _, .test _ h => pathCondition_lockstep h path
  | .not f, _, .not h => by
    refine (condition_lockstep h).bind fun d d' (hd : d.masked = d'.masked) => .pure ?_
    simp only [InvImage, Sql.Cond.negate_rewrite, hd]
  | .and fs, _, .and h => by
    refine (conditions_lockstep h).bind fun cs cs' (hcs : cs.map _ = cs'.map _) => .pure ?_
    simp only [InvImage, Sql.Cond.all_rewrite, hcs]
  | .or fs, _, .or h => by
    refine (conditions_lockstep h).bind fun cs cs' (hcs : cs.map _ = cs'.map _) => .pure ?_
    simp only [InvImage, Sql.Cond.any_rewrite, hcs]
termination_by structural f => f

theorem conditions_lockstep : ∀ {fs gs : List Filter}, Forall₂ Filter.Alike fs gs →
    Lockstep (InvImage Eq (List.map Sql.Cond.masked)) (conditions c s fs) (conditions c s gs)
  | [], _, .nil => .pure rfl
  | f :: fs, _, .cons h hs => by
    refine (condition_lockstep h).bind fun d d' (hd : d.masked = d'.masked) => ?_
    refine (conditions_lockstep hs).bind fun cs cs' (hcs : cs.map _ = cs'.map _) => .pure ?_
    simp only [InvImage, List.map_cons, hd, hcs]
termination_by structural fs => fs

end

theorem conjunction_lockstep {fs gs : List Filter} (h : Forall₂ Filter.Alike fs gs) :
    Lockstep (InvImage Eq Sql.Cond.masked) (conjunction c s fs) (conjunction c s gs) := by
  refine (conditions_lockstep h).bind fun cs cs' (hcs : cs.map _ = cs'.map _) => .pure ?_
  simp only [InvImage, Sql.Cond.all_rewrite, hcs]

end

/-! ## Keys -/

theorem forall₂_of_map_eq {α β γ : Type} {f : α → γ} {g : β → γ} {as : List α} {bs : List β}
    (h : as.map f = bs.map g) : Forall₂ (fun a b => f a = g b) as bs := by
  rwa [← List.forall₂_eq_eq_eq, List.forall₂_map_left_iff, List.forall₂_map_right_iff] at h

/-- What is left of a key is its names. -/
theorem map_masked_keyCells (k : KeyMap) (types : List (Option ScalarType)) :
    (k.values.zipWith keyCell types).map Sql.Expr.masked =
      k.names.zipWith (fun _ type => keyCell Sql.maskedValue type) types := by
  rw [List.map_zipWith, KeyMap.values, KeyMap.names, List.zipWith_map_left, List.zipWith_map_left]
  congr 1
  funext m type
  cases type <;> rfl

section
variable {keys keys' : JoinKeys}

theorem JoinKeys.names_eq (h : keys.keys.map KeyMap.names = keys'.keys.map KeyMap.names) :
    keys.names = keys'.names := by
  rw [JoinKeys.names, JoinKeys.names, ← List.head?_map, ← List.head?_map, h]

theorem keyTable_masked (h : keys.keys.map KeyMap.names = keys'.keys.map KeyMap.names)
    (types : List (Option ScalarType)) (name : String) :
    (keyTable keys types name).masked = (keyTable keys' types name).masked := by
  have hrows : ∀ ks : List KeyMap,
      Sql.rewriteRows Sql.masking (ks.map fun k => k.values.zipWith keyCell types) =
      (ks.map KeyMap.names).map fun names =>
        names.zipWith (fun _ type => keyCell Sql.maskedValue type) types := by
    intro ks
    rw [Sql.rewriteRows_eq, List.map_map, List.map_map]
    exact List.map_congr_left fun k _ => map_masked_keyCells k types
  simp only [keyTable, Sql.Table.rewrite, Sql.Source.rewrite, hrows, h, JoinKeys.names_eq h]

end

/-- Which key is the first one of other names is told by the names. -/
theorem map_find?_names {ks ks' : List KeyMap} (h : ks.map KeyMap.names = ks'.map KeyMap.names)
    (names : List String) : (ks.find? fun k => k.names ≠ names).map KeyMap.names =
      (ks'.find? fun k => k.names ≠ names).map KeyMap.names := by
  have hfind : ∀ ks : List KeyMap, (ks.find? fun k => k.names ≠ names).map KeyMap.names =
      (ks.map KeyMap.names).find? (· ≠ names) := by
    intro ks
    rw [List.find?_map]
    rfl
  rw [hfind, hfind, h]

/-- Keys of the same names are accepted, or refused for the same names. -/
theorem ofDistinct_agrees {ks ks' : List KeyMap} (h : KeysAlike ks ks')
    (hks : ks.Pairwise fun k l => (k == l) = false)
    (hks' : ks'.Pairwise fun k l => (k == l) = false) :
    Agree (InvImage KeysAlike JoinKeys.keys) (JoinKeys.ofDistinct ks hks)
      (JoinKeys.ofDistinct ks' hks') := by
  cases ks with
  | nil =>
    cases List.map_eq_nil_iff.1 h.names.symm
    exact .error _
  | cons first rest =>
    cases ks' with
    | nil => cases h.names
    | cons first' rest' =>
      obtain ⟨hfirst, hrest⟩ := List.cons.inj h.names
      have hfind := map_find?_names hrest first.names
      cases hother : rest.find? fun k => k.names ≠ first.names with
      | some other =>
        rw [hother] at hfind
        obtain ⟨other', hother', hnames⟩ := Option.map_eq_some_iff.1 hfind.symm
        rw [JoinKeys.ofDistinct_eq_error hother, ← hnames, hfirst]
        rw [hfirst] at hother'
        rw [JoinKeys.ofDistinct_eq_error hother']
        exact .error _
      | none =>
        rw [hother] at hfind
        have hnone := Option.map_eq_none_iff.1 hfind.symm
        rw [hfirst] at hnone
        obtain ⟨j, hj, hkeys⟩ := JoinKeys.exists_ofDistinct (h := hks) hother
        obtain ⟨j', hj', hkeys'⟩ := JoinKeys.exists_ofDistinct (h := hks') hnone
        rw [hj, hj']
        refine .ok ?_
        rwa [InvImage, hkeys, hkeys']

/-- The keys that are kept are at the same places of both lists. -/
theorem ofList_agrees {ks ks' : List KeyMap} (h : KeysAlike ks ks') :
    Agree (InvImage KeysAlike JoinKeys.keys) (JoinKeys.ofList ks) (JoinKeys.ofList ks') := by
  have hlength : ks.length = ks'.length := by simpa using congrArg List.length h.names
  obtain ⟨-, hzip⟩ := List.forall₂_iff_zip.1 (forall₂_of_map_eq h.names)
  -- `ws` are the places that are kept, with the key of each list there
  obtain ⟨ws, hsub, hfst, hsnd⟩ := exists_firstOccurrences h.pattern
  rw [List.map_fst_zip hlength.le] at hfst
  rw [List.map_snd_zip hlength.ge] at hsnd
  have hnames : (ws.map Prod.fst).map KeyMap.names = (ws.map Prod.snd).map KeyMap.names := by
    rw [List.map_map, List.map_map]
    exact List.map_congr_left fun p hp => hzip (hsub hp)
  have hkept : KeysAlike (ws.map Prod.fst) (ws.map Prod.snd) := by
    refine ⟨hnames, ?_⟩
    rw [← List.unzip_fst, ← List.unzip_snd, List.zip_unzip]
    exact fun p hp q hq => h.pattern p (hsub hp) q (hsub hq)
  rw [← hfst, ← hsnd] at hkept
  exact ofDistinct_agrees hkept _ _

/-- The criteria differ in values only. -/
def KeyCriteria.Alike (k k' : KeyCriteria) : Prop :=
  k.condition.masked = k'.condition.masked ∧
    k.joins.map Sql.Join.masked = k'.joins.map Sql.Join.masked

theorem keyCriteria_lockstep (s : Scope) {ks ks' : List KeyMap} (h : KeysAlike ks ks') :
    Lockstep KeyCriteria.Alike (keyCriteria s ks) (keyCriteria s ks') := by
  have hnames := h.names
  rcases ks with _ | ⟨k, _ | ⟨l, ks⟩⟩ <;> rcases ks' with _ | ⟨k', _ | ⟨l', ks'⟩⟩ <;>
    simp only [List.map_nil, List.map_cons, reduceCtorEq, List.cons.injEq, and_false] at hnames
  -- one key is a condition, and of several those that are repeated are dropped first
  · exact .pure ⟨rfl, rfl⟩
  · refine (Lockstep.mapM (R := InvImage Eq Sql.Cond.masked) (forall₂_of_map_eq hnames.1) ?_).bind
      fun cs cs' hcs => .pure ⟨?_, rfl⟩
    · rintro ⟨name, v⟩ ⟨_, w⟩ rfl
      refine (Lockstep.lift_model .rfl).bind ?_
      rintro f _ rfl
      exact .pure rfl
    · simp only [Sql.Cond.all_rewrite, map_eq_of_forall₂ hcs]
  · refine (Lockstep.lift_model (ofList_agrees h)).bind fun keys keys' hkeys => ?_
    refine Lockstep.rfl.bind ?_
    rintro name _ rfl
    rw [JoinKeys.names_eq hkeys.names]
    refine (Lockstep.lift_model .rfl).bind ?_
    rintro fields _ rfl
    refine .pure ⟨rfl, ?_⟩
    simp only [List.map_cons, Sql.Join.rewrite, keyTable_masked hkeys.names]

/-! ## Aggregates -/

section
variable {a b : Aggregate}

theorem Aggregate.Alike.eq_with (h : a.Alike b) : b = { a with separator := b.separator } := by
  cases a
  cases b
  simp_all [Aggregate.Alike]

theorem Aggregate.expr_agrees (h : a.Alike b) (field : Option (ScalarField × Sql.Column)) :
    Agree (InvImage Eq Sql.Expr.masked) (a.expr field) (b.expr field) := by
  have hsame : ∀ {x : Except QueryError Sql.Expr}, Agree (InvImage Eq Sql.Expr.masked) x x :=
    Agree.rfl.mono fun _ _ h => congrArg Sql.Expr.masked h
  rw [h.eq_with]
  cases field with
  | none => exact hsame
  | some p =>
    obtain ⟨f, column⟩ := p
    obtain ⟨label, function, name, type, distinct, separator⟩ := a
    -- only joined texts have a separator
    cases function with
    | join =>
      simp only [Aggregate.expr]
      split
      · exact .ok rfl
      · exact .error _
    | _ => exact hsame

end

/-- Aggregates that read the same field and differ in their separators at most. -/
inductive SourcedAggregate.Alike : SourcedAggregate → SourcedAggregate → Prop where
  | intro {a b : Aggregate} (h : a.Alike b) (f : Option ScalarField) : Alike (a, f) (b, f)

theorem Aggregate.sourced_agrees {a b : Aggregate} (h : a.Alike b) (target : Entity) :
    Agree SourcedAggregate.Alike (a.sourced target) (b.sourced target) := by
  have hfield : a.field = b.field := by rw [h.eq_with]
  unfold Aggregate.sourced
  rw [hfield]
  cases b.field with
  | none => exact .ok (.intro h none)
  | some name =>
    refine Agree.rfl.bind ?_
    rintro f _ rfl
    exact .ok (.intro h (some f))

theorem SourcedAggregate.Alike.isUnnested_eq {p q : SourcedAggregate} (h : p.Alike q) :
    p.isUnnested = q.isUnnested := by
  cases h with
  | @intro a b h f =>
    have hfunction : a.function = b.function := by rw [h.eq_with]
    cases f with
    | none => rfl
    | some f => rw [isUnnested, isUnnested, hfunction]

/-- The selects differ in the values of their conditions only. -/
def AggregateSelect.Alike (s t : AggregateSelect) : Prop :=
  ∃ condition : Sql.Cond, s.select.condition.masked = condition.masked ∧
    t = { s with select := { s.select with condition } }

section
variable {c : Compiler} {l : Link} {parent source : String} {filters filters' : List Filter}

theorem aggregateSelect_lockstep (h : Forall₂ Filter.Alike filters filters') :
    Lockstep AggregateSelect.Alike (aggregateSelect c l parent filters)
      (aggregateSelect c l parent filters') := by
  refine Lockstep.rfl.bind ?_
  rintro wrapper _ rfl
  refine Lockstep.rfl.bind ?_
  rintro source _ rfl
  refine Lockstep.rfl.bind ?_
  rintro correlation _ rfl
  refine (conjunction_lockstep h).bind fun d d' (hd : d.masked = d'.masked) => .pure ⟨_, ?_, rfl⟩
  simp only [Sql.Cond.both_rewrite, hd]

theorem sharedResults_lockstep {as bs : List SourcedAggregate}
    (h : Forall₂ SourcedAggregate.Alike as bs) :
    Lockstep (Forall₂ fun r r' => r.1.masked = r'.1.masked ∧ r.2 = r'.2) (sharedResults source as)
      (sharedResults source bs) := by
  induction h with
  | nil => exact .pure .nil
  | cons hpq _ ih =>
    obtain ⟨hab, f⟩ := hpq
    rw [sharedResults, sharedResults]
    refine Lockstep.rfl.bind ?_
    rintro name _ rfl
    refine (Lockstep.lift (Aggregate.expr_agrees hab _)).bind fun e e' he => ?_
    refine ih.bind fun rs rs' hrs => .pure (.cons ⟨?_, rfl⟩ hrs)
    rw [Sql.Expr.as_masked, Sql.Expr.as_masked, he]

theorem selectShared_lockstep (h : Forall₂ Filter.Alike filters filters')
    {as bs : List SourcedAggregate} (hs : Forall₂ SourcedAggregate.Alike as bs) :
    DraftLockstep Eq (selectShared c l parent filters as)
      (selectShared c l parent filters' bs) := by
  unfold selectShared
  have hempty : as.isEmpty = bs.isEmpty := by cases hs <;> rfl
  rw [hempty]
  split
  · exact .pure rfl
  · refine (DraftLockstep.compile (aggregateSelect_lockstep h)).bind ?_
    rintro ⟨wrapper, source, ⟨tables, columns, joins, condition, order, limit, offset⟩⟩ _
      ⟨condition', hcondition, rfl⟩
    refine (DraftLockstep.compile (sharedResults_lockstep hs)).bind fun rs rs' hrs => ?_
    have hcolumns : (rs.map (·.1)).map Sql.Expr.masked = (rs'.map (·.1)).map Sql.Expr.masked := by
      rw [List.map_map, List.map_map]
      exact map_eq_of_forall₂ (hrs.imp fun _ _ h => h.1)
    refine (DraftLockstep.joinLateral ?_ _).bind fun _ _ _ => .pure ?_
    · simp only [Sql.Select.rewrite, Sql.rewriteExprs_eq, hcolumns, hcondition]
    · exact map_eq_of_forall₂ (hrs.imp fun _ _ h => h.2)

theorem selectUnnested_lockstep (h : Forall₂ Filter.Alike filters filters')
    {p q : SourcedAggregate} (hpq : p.Alike q) :
    DraftLockstep Eq (selectUnnested c l parent filters p)
      (selectUnnested c l parent filters' q) := by
  obtain ⟨hab, f⟩ := hpq
  refine (DraftLockstep.compile (aggregateSelect_lockstep h)).bind ?_
  rintro ⟨wrapper, source, ⟨tables, columns, joins, condition, order, limit, offset⟩⟩ _
    ⟨condition', hcondition, rfl⟩
  refine (DraftLockstep.compile .rfl).bind ?_
  rintro elements _ rfl
  refine (DraftLockstep.compile .rfl).bind ?_
  rintro element _ rfl
  refine (DraftLockstep.compile .rfl).bind ?_
  rintro name _ rfl
  refine (DraftLockstep.lift (Aggregate.expr_agrees hab _)).bind
    fun e e' (he : e.masked = e'.masked) => ?_
  refine (DraftLockstep.joinLateral ?_ _).bind fun _ _ _ => .pure rfl
  simp only [Sql.Select.rewrite, Sql.rewriteExprs, Sql.Expr.as_rewrite, he, hcondition]

end

theorem unsplit_congr {α β : Type} {p : α → Bool} {as bs : List α} (h : as.map p = bs.map p)
    (yes no : List β) : unsplit p as yes no = unsplit p bs yes no := by
  induction as generalizing bs yes no with
  | nil =>
    obtain rfl : bs = [] := by simpa using h.symm
    rfl
  | cons a as ih =>
    cases bs with
    | nil => cases h
    | cons b bs =>
      simp only [List.map_cons, List.cons.injEq] at h
      simp only [unsplit, h.1, ih h.2]

theorem selectAggregates_lockstep {c : Compiler} {s : Scope} {r r' : AggregateRequest}
    (h : r.Alike r') : DraftLockstep Eq (selectAggregates c s r) (selectAggregates c s r') := by
  unfold selectAggregates
  rw [h.field, h.label]
  refine (DraftLockstep.lift_model .rfl).bind ?_
  rintro f _ rfl
  refine (DraftLockstep.lift .rfl).bind ?_
  rintro link _ rfl
  refine (DraftLockstep.lift_model (Agree.mapM h.aggregates fun a b hab =>
    Aggregate.sourced_agrees hab link.child)).bind fun as bs hs => ?_
  have hfilter : ∀ p : Bool → Bool, Forall₂ SourcedAggregate.Alike
      (as.filter fun a => p a.isUnnested) (bs.filter fun a => p a.isUnnested) := by
    intro p
    refine List.rel_filter (fun a b hab => ?_) hs
    exact iff_of_eq (congrArg (p · = true) hab.isUnnested_eq)
  refine (selectShared_lockstep h.filters (hfilter not)).bind ?_
  rintro shared _ rfl
  refine (DraftLockstep.mapM (hfilter id) fun a b hab =>
    selectUnnested_lockstep h.filters hab).bind fun unnested unnested' hunnested => ?_
  obtain rfl := eq_of_forall₂ hunnested
  refine .pure ?_
  have hlabels : r.aggregates.map (·.label) = r'.aggregates.map (·.label) :=
    map_eq_of_forall₂ (h.aggregates.imp fun a b hab => by rw [hab.eq_with])
  rw [hlabels, unsplit_congr (map_eq_of_forall₂ (hs.imp fun _ _ hab => hab.isUnnested_eq))]

end LateralSql
