/-
  Compilation reads and writes lists within their bounds.

  Three accesses take for granted that a list is long enough: the first name of a filter's path, the
  first of the keys of many parents, and the slots for the names of aggregated values, one for each
  aggregate.  Each is made here with a fault for a list that is too short, and no fault is reached
  if the filters of a request have paths (`compilation_in_bounds`).
-/
import LateralSql.Proofs.AliasAgreement
import LateralSql.Proofs.FilterPaths
import LateralSql.Proofs.Shapes

namespace LateralSql

/-! ## Keys -/

/-- The names of the first of the keys. -/
def JoinKeys.firstNames (fault : QueryError) (k : JoinKeys) : Except QueryError (List String) :=
  match k.keys with
  | [] => .error fault
  | first :: _ => .ok first.names

theorem JoinKeys.firstNames_eq (fault : QueryError) (k : JoinKeys) :
    k.firstNames fault = .ok k.names := by
  unfold firstNames names
  cases hkeys : k.keys with
  | nil => exact absurd hkeys k.nonempty
  | cons first rest => rfl

/-- The criteria for rows with the given keys. Several keys are joined by the names of the first. -/
def checkedKeyCriteria (fault : QueryError) (s : Scope) (keys : List KeyMap) :
    Compile KeyCriteria := do
  if 1 < keys.length then
    let joined ← JoinKeys.ofList keys
    let _ ← joined.firstNames fault
  keyCriteria s keys

/-- The select of a batch, whose keys are a table with the names of the first. -/
def checkedBatchSelect (fault : QueryError) (c : Compiler) (r : BatchRequest) :
    Compile BatchSelect := do
  let _ ← r.keys.firstNames fault
  batchSelect c r

theorem checkedKeyCriteria_eq (fault : QueryError) (s : Scope) (keys : List KeyMap) :
    checkedKeyCriteria fault s keys = keyCriteria s keys := by
  cases keys with
  | nil => rfl
  | cons key keys =>
    cases keys with
    | nil => rfl
    | cons other keys =>
      cases hjoined : JoinKeys.ofList (key :: other :: keys) with
      | error e =>
        simp only [checkedKeyCriteria, keyCriteria, hjoined]
        rfl
      | ok joined =>
        unfold checkedKeyCriteria
        rw [if_pos (by simp), hjoined]
        change (liftM (joined.firstNames fault) >>= fun _ => keyCriteria s _ : Compile _) = _
        rw [JoinKeys.firstNames_eq]
        rfl

theorem checkedBatchSelect_eq (fault : QueryError) (c : Compiler) (r : BatchRequest) :
    checkedBatchSelect fault c r = batchSelect c r := by
  unfold checkedBatchSelect
  rw [JoinKeys.firstNames_eq]
  rfl

/-! ## Slots -/

/-- Writes names into slots, one after the other. -/
def writeSlots (fault : QueryError) : List String → List (Nat × String) →
    Except QueryError (List String)
  | slots, [] => .ok slots
  | slots, (i, name) :: rest =>
    if i < slots.length then writeSlots fault (slots.set i name) rest else .error fault

/-- The places of the elements with a property. -/
def positions {α : Type} (p : α → Bool) (as : List α) : List Nat :=
  (as.zipIdx.filter (p ·.1)).map (·.2)

/-- The aggregates over related rows, with a slot for the name of each, in their order. -/
def slottedAggregates (fault : QueryError) (c : Compiler) (s : Scope) (r : AggregateRequest) :
    Drafting (String × FieldReader) := do
  let f ← s.entity.objectField r.field
  let link ← Link.resolve c.schema s.entity f
  let sourced ← (r.aggregates.mapM (Aggregate.sourced link.child) : Except ModelError _)
  let slots := List.replicate r.aggregates.length ""
  let sharedAt := positions (!SourcedAggregate.isUnnested ·) sourced
  let unnestedAt := positions SourcedAggregate.isUnnested sourced
  -- no aggregate is selected that has no slot
  if (sharedAt ++ unnestedAt).any (slots.length ≤ ·) then throw fault
  else
    let shared ← selectShared c link s.name r.filters (sourced.filter (!·.isUnnested))
    let slots ← writeSlots fault slots (sharedAt.zip shared)
    let unnested ← (sourced.filter (·.isUnnested)).mapM (selectUnnested c link s.name r.filters)
    let slots ← writeSlots fault slots (unnestedAt.zip unnested)
    return (r.label, .object { fields := (r.aggregates.map (·.label)).zip (slots.map .column) })

theorem positions_cons {α : Type} (p : α → Bool) (a : α) (as : List α) :
    positions p (a :: as) = (if p a then [0] else []) ++ (positions p as).map (· + 1) := by
  have htail : as.zipIdx 1 = as.zipIdx.map fun q => (q.1, q.2 + 1) := List.zipIdx_succ
  unfold positions
  rw [List.zipIdx_cons, htail, List.filter_cons, List.filter_map]
  split
  · simp [Function.comp_def]
  · simp [Function.comp_def]

theorem lt_of_mem_positions {α : Type} {p : α → Bool} {as : List α} {i : Nat}
    (h : i ∈ positions p as) : i < as.length := by
  obtain ⟨q, hq, rfl⟩ := List.mem_map.1 h
  have hmem := List.mem_zipIdx (List.mem_of_mem_filter hq)
  omega

/-- Slots after the first are written as if it was not there. -/
theorem writeSlots_succ (fault : QueryError) (slot : String) (slots : List String) (is : List Nat)
    (names : List String) :
    writeSlots fault (slot :: slots) ((is.map (· + 1)).zip names) =
      (writeSlots fault slots (is.zip names)).map (slot :: ·) := by
  induction is generalizing slots names with
  | nil => rfl
  | cons i is ih =>
    cases names with
    | nil => rfl
    | cons name names =>
      simp only [List.map_cons, List.zip_cons_cons, writeSlots, List.length_cons,
        Nat.add_lt_add_iff_right, List.set_cons_succ, ih]
      split
      · rfl
      · rfl

/-- Slots that are written by position hold the results in the order of the list. -/
theorem writeSlots_positions {α : Type} (fault : QueryError) {p : α → Bool} {as : List α}
    {no : List String} (hno : no.length = (as.filter (!p ·)).length) :
    ∃ slots, writeSlots fault (List.replicate as.length "") ((positions (!p ·) as).zip no) =
      .ok slots ∧ ∀ yes : List String, yes.length = (as.filter p).length →
        writeSlots fault slots ((positions p as).zip yes) = .ok (unsplit p as yes no) := by
  induction as generalizing no with
  | nil => exact ⟨[], rfl, fun _ _ => rfl⟩
  | cons a as ih =>
    rw [List.length_cons, List.replicate_succ, positions_cons, positions_cons]
    cases ha : p a with
    | true =>
      rw [List.filter_cons_of_neg (by simp [ha])] at hno
      obtain ⟨slots, hslots, hall⟩ := ih hno
      refine ⟨"" :: slots, by simp [writeSlots_succ, hslots, Except.map], fun yes hyes => ?_⟩
      rw [List.filter_cons_of_pos ha] at hyes
      obtain ⟨y, yes, rfl⟩ := List.exists_cons_of_length_eq_add_one hyes
      have htail := hall yes (Nat.succ.inj hyes)
      simp [writeSlots, writeSlots_succ, htail, unsplit, ha, Except.map]
    | false =>
      rw [List.filter_cons_of_pos (by simp [ha])] at hno
      obtain ⟨x, no, rfl⟩ := List.exists_cons_of_length_eq_add_one hno
      obtain ⟨slots, hslots, hall⟩ := ih (Nat.succ.inj hno)
      refine ⟨x :: slots, by simp [writeSlots, writeSlots_succ, hslots, Except.map],
        fun yes hyes => ?_⟩
      rw [List.filter_cons_of_neg (by simp [ha])] at hyes
      have htail := hall yes hyes
      simp [writeSlots_succ, htail, unsplit, ha, Except.map]

/-- Computations that go on in the same way from each result are the same. -/
theorem draft_bind_congr {α β : Type} {x : Drafting α} {f g : α → Drafting β}
    (h : ∀ ⦃d n a d' n'⦄, x d n = .ok ((a, d'), n') → f a d' n' = g a d' n') :
    (x >>= f) = x >>= g := by
  funext d n
  change (x d n >>= fun p => f p.1.1 p.1.2 p.2) = x d n >>= fun p => g p.1.1 p.1.2 p.2
  cases hx : x d n with
  | error e => rfl
  | ok p => exact h hx

theorem draft_lift_bind {α β : Type} {x : Except QueryError α} {a : α} (hx : x = .ok a)
    (f : α → Drafting β) : ((liftM x : Drafting α) >>= f) = f a := by
  subst hx
  rfl

theorem slottedAggregates_eq (fault : QueryError) (c : Compiler) (s : Scope)
    (r : AggregateRequest) : slottedAggregates fault c s r = selectAggregates c s r := by
  unfold slottedAggregates selectAggregates
  refine draft_bind_congr fun _ _ f _ _ _ => congrFun (congrFun ?_ _) _
  refine draft_bind_congr fun _ _ link _ _ _ => congrFun (congrFun ?_ _) _
  refine draft_bind_congr fun _ _ sourced _ _ hsourced => congrFun (congrFun ?_ _) _
  have hlength := mapM_length (draft_lift_model_run.1 hsourced).1
  have hbound : ¬ (positions (!SourcedAggregate.isUnnested ·) sourced ++
      positions SourcedAggregate.isUnnested sourced).any
        ((List.replicate r.aggregates.length "").length ≤ ·) = true := by
    simp only [List.any_eq_true, List.length_replicate, decide_eq_true_eq, not_exists, not_and]
    intro i hi
    rcases List.mem_append.1 hi with hi | hi
    · have := lt_of_mem_positions hi
      omega
    · have := lt_of_mem_positions hi
      omega
  dsimp only
  rw [if_neg hbound, ← hlength]
  refine draft_bind_congr fun _ _ shared _ _ hshared => congrFun (congrFun ?_ _) _
  obtain ⟨slots, hslots, hall⟩ := writeSlots_positions fault (p := SourcedAggregate.isUnnested)
    (selectShared_length hshared)
  rw [draft_lift_bind hslots]
  refine draft_bind_congr fun _ _ unnested _ _ hunnested => congrFun (congrFun ?_ _) _
  rw [draft_lift_bind (hall unnested (draft_mapM_length hunnested))]

/-! ## Requests -/

/-- Every filter of the collection and of its objects names fields. -/
def CollectionRequest.hasPaths (r : CollectionRequest) : Bool :=
  r.object.hasPaths && filtersHavePaths r.filters

theorem filtersHavePaths_append (fs gs : List Filter) :
    filtersHavePaths (fs ++ gs) = (filtersHavePaths fs && filtersHavePaths gs) := by
  induction fs with
  | nil => rfl
  | cons f fs ih => rw [List.cons_append, filtersHavePaths, filtersHavePaths, ih, Bool.and_assoc]

theorem CollectionRequest.root_hasPaths {r : CollectionRequest} (h : r.hasPaths = true) :
    r.root.hasPaths = true := by
  obtain ⟨⟨entity, selected, objects, aggregates, own, _, _, keys, context⟩, filters, _, _⟩ := r
  simp only [CollectionRequest.hasPaths, ObjectRequest.hasPaths, Bool.and_eq_true] at h
  simp only [CollectionRequest.root, ObjectRequest.hasPaths, filtersHavePaths_append,
    Bool.and_eq_true]
  exact ⟨⟨⟨h.1.1.1, h.2⟩, h.1.1.2⟩, h.1.2⟩

section
variable {c : Compiler}

theorem object_ends {r : ObjectRequest} (h : r.hasPaths = true) :
    Ends (· ≠ .emptyPath) (fun _ => True) (c.object r) :=
  (node_pathSafe none r h).run.bind fun _ _ => .pure trivial

theorem batch_ends {r : BatchRequest} (h : r.request.hasPaths = true) :
    Ends (· ≠ .emptyPath) (fun _ => True) (c.batch r) :=
  (batchSelect_pathSafe h).run.bind fun _ _ => .pure trivial

/-- **Compilation stays within the bounds of lists.**  A request whose filters have paths is
    compiled or refused with another error than that of an empty path.  To look for the first of the
    keys, or for the slot of an aggregate, never ends in the fault that would stand for a list
    without it. -/
theorem compilation_in_bounds (c : Compiler) :
    (∀ r : ObjectRequest, r.hasPaths = true →
      Ends (· ≠ .emptyPath) (fun _ => True) (c.object r)) ∧
    (∀ r : CollectionRequest, r.hasPaths = true →
      Ends (· ≠ .emptyPath) (fun _ => True) (c.collection r)) ∧
    (∀ r : BatchRequest, r.request.hasPaths = true →
      Ends (· ≠ .emptyPath) (fun _ => True) (c.batch r)) ∧
    ∀ fault,
      (∀ s keys, checkedKeyCriteria fault s keys = keyCriteria s keys) ∧
      (∀ r, checkedBatchSelect fault c r = batchSelect c r) ∧
      ∀ s r, slottedAggregates fault c s r = selectAggregates c s r := by
  refine ⟨fun _ => object_ends, fun _ h => object_ends (CollectionRequest.root_hasPaths h),
    fun _ => batch_ends, fun fault => ⟨checkedKeyCriteria_eq fault, checkedBatchSelect_eq fault c,
    slottedAggregates_eq fault c⟩⟩

end

/-- Two books that are not both by an unknown author and out on a loan, with their later loans. -/
def shelfRequest (path : FieldPath) : ObjectRequest :=
  { bookRequest with
    aggregates := bookRequest.aggregates.map fun a =>
      { a with filters := [.test ["id"] (.greater false (.int 7))] }
    filters := [.not (.and [
      .test ["author", "name"] (.equals .null),
      .or [.test ["loans", "id"] (.equals (.int 7)), .test path (.equals (.string "Emma"))]])]
    keys := [idKey 1, idKey 2] }

/-- The same filter with an empty path is a fault, however deep it stands.  The first aggregate of a
    book reads the elements of a list, so its slot is written last. -/
theorem compilation_in_bounds_library :
    library.object (shelfRequest []) = .error .emptyPath ∧
    ((shelfRequest ["title"]).hasPaths = true ∧
      Ends (· ≠ .emptyPath) (fun _ => True) (library.object (shelfRequest ["title"]))) ∧
    (CollectionRequest.hasPaths { object := shelfRequest ["title"] } = true ∧
      Ends (· ≠ .emptyPath) (fun _ => True)
        (library.collection { object := shelfRequest ["title"] })) ∧
    (loansRequest.request.hasPaths = true ∧
      Ends (· ≠ .emptyPath) (fun _ => True) (library.batch loansRequest)) ∧
    checkedBatchSelect .emptyPath library loansRequest = batchSelect library loansRequest ∧
    checkedKeyCriteria .emptyPath ⟨book, "t1"⟩ (shelfRequest ["title"]).keys =
      keyCriteria ⟨book, "t1"⟩ (shelfRequest ["title"]).keys ∧
    ∀ r ∈ (shelfRequest ["title"]).aggregates,
      (r.aggregates.mapM (Aggregate.sourced loan)).toOption.map
        (positions SourcedAggregate.isUnnested) = some [0] ∧
      slottedAggregates .emptyPath library ⟨book, "t1"⟩ r =
        selectAggregates library ⟨book, "t1"⟩ r := by
  have hpaths : (shelfRequest ["title"]).hasPaths = true := by decide
  obtain ⟨hobject, hcollection, hbatch, hchecked⟩ := compilation_in_bounds library
  obtain ⟨hcriteria, hbatchKeys, hslots⟩ := hchecked .emptyPath
  refine ⟨rfl, ⟨hpaths, hobject _ hpaths⟩, ⟨by decide, hcollection _ (by decide)⟩,
    ⟨by decide, hbatch _ (by decide)⟩, hbatchKeys _, hcriteria _ _, ?_⟩
  intro r hr
  obtain rfl := List.mem_singleton.1 hr
  exact ⟨by decide, hslots _ _⟩

end LateralSql
