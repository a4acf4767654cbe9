/-
  Which rows the keys of a request keep.

  One key becomes equalities, and several become a join with a table of their distinct values.  In a
  database whose equality is that of values (`Database.EqualsByValue`) both keep the rows that have
  one of the keys (`Entity.hasKey`), and keep each of them once: two keys that one row has are
  equal, so the table has a single row for them.
-/
import LateralSql.Proofs.FilterMeaning
import LateralSql.Proofs.KeyTables

namespace LateralSql

open Sql (Cond Expr Select)

/-! ## Rows that have a key -/

/-- Two values are equal in the database if and only if they are equal and neither is null. -/
def Database.EqualsByValue (db : Database) : Prop :=
  ∀ a b, db.equal a b = .yes ↔ a.isNull = false ∧ b.isNull = false ∧ (a == b) = true

/-- The row has the value of the member, which is not null, in the column of the field that the
    member is named for. -/
def Entity.hasMember (e : Entity) (row : Row) (m : String × Value) : Bool :=
  match e.scalarField m.1 with
  | .ok f => !m.2.isNull && row.get f.column == m.2
  | .error _ => false

/-- The row has all members of the key. -/
def Entity.hasKey (e : Entity) (row : Row) (key : KeyMap) : Bool :=
  key.members.all (e.hasMember row)

theorem Value.isNull_congr {a b : Value} (h : (a == b) = true) : a.isNull = b.isNull := by
  cases a <;> cases b <;> first | rfl | cases h

section
variable {e : Entity} {row : Row}

theorem Entity.hasMember_iff {m : String × Value} :
    e.hasMember row m = true ↔ ∃ f, e.scalarField m.1 = .ok f ∧
      m.2.isNull = false ∧ (row.get f.column == m.2) = true := by
  unfold hasMember
  cases e.scalarField m.1 <;> simp

/-- In the database, the column of the field equals the value. -/
theorem Entity.hasMember_iff_equal {db : Database} (hdb : db.EqualsByValue) {m : String × Value}
    {f : ScalarField} (hf : e.scalarField m.1 = .ok f) :
    e.hasMember row m = true ↔ db.equal (row.get f.column) m.2 = .yes := by
  rw [hdb, hasMember_iff, hf]
  constructor
  · rintro ⟨g, hg, hnull, heq⟩
    obtain rfl := Except.ok.inj hg
    exact ⟨Value.isNull_congr heq ▸ hnull, hnull, heq⟩
  · rintro ⟨-, hnull, heq⟩
    exact ⟨f, rfl, hnull, heq⟩

theorem all_hasMember_congr : ∀ {as bs : List (String × Value)}, Value.beqMembers as bs = true →
    as.all (e.hasMember row) = bs.all (e.hasMember row)
  | [], [], _ => rfl
  | (k, a) :: as, (l, b) :: bs, h => by
    simp only [Value.beqMembers, Bool.and_eq_true] at h
    obtain ⟨⟨hkl, hab⟩, hrest⟩ := h
    obtain rfl := eq_of_beq hkl
    have hcell : ∀ cell : Value, (cell == a) = (cell == b) := fun cell => BEq.congr_right hab
    have hhead : e.hasMember row (k, a) = e.hasMember row (k, b) := by
      simp only [Entity.hasMember, Value.isNull_congr hab, hcell]
    rw [List.all_cons, List.all_cons, hhead, all_hasMember_congr hrest]

theorem beqMembers_of_hasMember : ∀ {as bs : List (String × Value)},
    as.map (·.1) = bs.map (·.1) → as.all (e.hasMember row) = true →
    bs.all (e.hasMember row) = true → Value.beqMembers as bs = true
  | [], [], _, _, _ => rfl
  | (k, a) :: as, (l, b) :: bs, hnames, has, hbs => by
    obtain ⟨rfl, hrest⟩ := List.cons.inj hnames
    rw [List.all_cons, Bool.and_eq_true] at has hbs
    obtain ⟨f, hf, -, hfa⟩ := Entity.hasMember_iff.1 has.1
    obtain ⟨g, hg, -, hgb⟩ := Entity.hasMember_iff.1 hbs.1
    obtain rfl : f = g := Except.ok.inj (hf.symm.trans hg)
    have hab : (a == b) = true := BEq.trans (BEq.symm hfa) hgb
    simp only [Value.beqMembers, Bool.and_eq_true, beq_self_eq_true, true_and]
    exact ⟨hab, beqMembers_of_hasMember hrest has.2 hbs.2⟩

/-- A row that has a key has all equal keys. -/
theorem Entity.hasKey_congr {k l : KeyMap} (h : (k == l) = true) :
    e.hasKey row k = e.hasKey row l :=
  all_hasMember_congr h

/-- Two keys with the same names that a row has are equal. -/
theorem Entity.beq_of_hasKey {k l : KeyMap} (hnames : k.names = l.names)
    (hk : e.hasKey row k = true) (hl : e.hasKey row l = true) : (k == l) = true :=
  beqMembers_of_hasMember hnames hk hl

/-- A row that has some key of a list has one that is the first to occur. -/
theorem any_hasKey_firstOccurrences (keys : List KeyMap) :
    (firstOccurrences keys).any (e.hasKey row) = keys.any (e.hasKey row) :=
  any_firstOccurrences (fun _ _ h => Entity.hasKey_congr h) keys

/-- Of distinct keys with the same names, a row has at most one. -/
theorem filter_hasKey {keys : List KeyMap} {names : List String}
    (hnames : ∀ key ∈ keys, key.names = names)
    (hdistinct : keys.Pairwise fun k l => (k == l) = false) :
    (keys.filter (e.hasKey row)).length = if keys.any (e.hasKey row) then 1 else 0 := by
  induction keys with
  | nil => rfl
  | cons key keys ih =>
    obtain ⟨hkey, hkeys⟩ := List.forall_mem_cons.1 hnames
    obtain ⟨hfirst, hrest⟩ := List.pairwise_cons.1 hdistinct
    by_cases hrow : e.hasKey row key = true
    · have hnone : keys.filter (e.hasKey row) = [] := by
        refine List.filter_eq_nil_iff.2 fun other hother hrow' => ?_
        have heq := Entity.beq_of_hasKey (hkey.trans (hkeys other hother).symm) hrow hrow'
        rw [hfirst other hother] at heq
        cases heq
      rw [List.filter_cons_of_pos hrow, hnone, List.any_cons, hrow]
      rfl
    · rw [List.filter_cons_of_neg hrow, List.any_cons, Bool.eq_false_iff.2 hrow, Bool.false_or]
      exact ih hkeys hrest

end

/-! ## Kept rows -/

/-- The rows of the entity in scope that the criteria keep, as often as they keep them. -/
def KeyCriteria.keptRows (k : KeyCriteria) (c : Compiler) (s : Scope) (db : Database)
    (env : Bindings) : Option (List Row) := do
  let rows : Select :=
    { tables := [(c.table s.entity.table).as s.name], joins := k.joins, condition := k.condition }
  (← rows.bindings db env).mapM (·.lookup s.name)

/-- The columns of the fields equal the values of the key if and only if the row has the key. -/
theorem all_equal_iff_hasKey {db : Database} (hdb : db.EqualsByValue) {e : Entity} {row : Row} :
    ∀ {ms : List (String × Value)} {fields : List ScalarField},
      (ms.map (·.1)).map e.scalarField = fields.map .ok →
      (Truth.all ((fields.zip (ms.map (·.2))).map fun p => db.equal (row.get p.1.column) p.2) = .yes
        ↔ ms.all (e.hasMember row) = true)
  | [], fields, h => by
    obtain rfl := List.map_eq_nil_iff.1 h.symm
    simp
  | m :: ms, fields, h => by
    obtain ⟨f, fields, rfl, hf, hfields⟩ := List.map_eq_cons_iff.1 h.symm
    rw [List.map_cons, List.zip_cons_cons, List.map_cons, Truth.all_cons, Truth.and_eq_yes,
      List.all_cons, Bool.and_eq_true, Entity.hasMember_iff_equal hdb hf.symm,
      all_equal_iff_hasKey hdb hfields.symm]

/-- The equality of the column of a field with a value. -/
def Scope.equality (s : Scope) (p : ScalarField × Value) : Cond :=
  .single ((Expr.column (s.column p.1)).equals (.param p.2))

theorem mapM_equality {s : Scope} {ms : List (String × Value)} {conditions : List Cond}
    {n n' : Names}
    (h : ms.mapM (fun m => do return s.equality (← s.entity.scalarField m.1, m.2) :
      _ → Compile Cond) n = .ok (conditions, n')) :
    ∃ fields : List ScalarField, (ms.map (·.1)).map s.entity.scalarField = fields.map .ok ∧
      conditions = (fields.zip (ms.map (·.2))).map s.equality := by
  induction ms generalizing n n' conditions with
  | nil =>
    obtain ⟨rfl, -⟩ := pure_run.1 h
    exact ⟨[], rfl, rfl⟩
  | cons m ms ih =>
    rw [List.mapM_cons] at h
    obtain ⟨first, n₁, hfirst, h⟩ := bind_run.1 h
    obtain ⟨rest, n₂, hrest, h⟩ := bind_run.1 h
    obtain ⟨rfl, -⟩ := pure_run.1 h
    obtain ⟨f, n₃, hf, hfirst⟩ := bind_run.1 hfirst
    obtain ⟨rfl, -⟩ := pure_run.1 hfirst
    obtain ⟨fields, hfields, rfl⟩ := ih hrest
    refine ⟨f :: fields, ?_, rfl⟩
    rw [List.map_cons, List.map_cons, (lift_model_run.1 hf).1, hfields]
    rfl

/-- The criteria for one key are equalities of its fields. -/
theorem keyCriteria_single {s : Scope} {key : KeyMap} {k : KeyCriteria} {n n' : Names}
    (h : keyCriteria s [key] n = .ok (k, n')) :
    ∃ fields : List ScalarField, key.names.map s.entity.scalarField = fields.map .ok ∧
      k = { condition := .all ((fields.zip key.values).map s.equality) } := by
  obtain ⟨conditions, n₁, hconditions, h⟩ := bind_run.1 h
  obtain ⟨rfl, -⟩ := pure_run.1 h
  obtain ⟨fields, hfields, rfl⟩ := mapM_equality hconditions
  exact ⟨fields, hfields, rfl⟩

section
variable {c : Compiler} {s : Scope} {db : Database} {env : Bindings}

/-- **One key keeps the rows that have it.** -/
theorem keptRows_single (hdb : db.EqualsByValue) {key : KeyMap} {fields : List ScalarField}
    (hfields : key.names.map s.entity.scalarField = fields.map .ok) :
    KeyCriteria.keptRows { condition := .all ((fields.zip key.values).map s.equality) } c s db env =
      some ((c.rows db s.entity.table).filter fun row => s.entity.hasKey row key) := by
  let equal (row : Row) : Truth :=
    .all ((fields.zip key.values).map fun p => db.equal (row.get p.1.column) p.2)
  have htruth : ∀ row, (Cond.all ((fields.zip key.values).map s.equality)).truth db
      ((s.name, row) :: env) = some (equal row) := by
    intro row
    refine all_map_truth fun p _ => ?_
    have hrow : List.lookup s.name ((s.name, row) :: env) = some row := by simp
    simp only [Scope.equality, Cond.truth, Expr.equals, Expr.truth, value_scope hrow p.1,
      Expr.value_param]
    rfl
  have hkey : ∀ row, decide (equal row = .yes) = s.entity.hasKey row key := by
    intro row
    rw [Bool.eq_iff_iff, decide_eq_true_iff]
    exact all_equal_iff_hasKey hdb hfields
  rw [KeyCriteria.keptRows, bindings_table htruth, Option.bind_eq_bind, Option.bind_some,
    List.mapM_map]
  simp only [hkey]
  refine (mapM_some (g := id) fun row _ => ?_).trans (by rw [List.map_id])
  simp

theorem mapM_value_keyCells {vs : List Value} {types : List (Option ScalarType)}
    (h : vs.length = types.length) : (vs.zipWith keyCell types).mapM (·.value []) = some vs := by
  induction vs generalizing types with
  | nil => simp
  | cons v vs ih =>
    cases types with
    | nil => cases h
    | cons type types =>
      have hcell : (keyCell v type).value [] = some v := by cases type <;> rfl
      rw [List.zipWith_cons_cons, List.mapM_cons, hcell, ih (Nat.succ.inj h)]
      rfl

/-- Binding the table of the keys under its name, once for each key. -/
theorem bind_keyTable {keys : JoinKeys} (hnames : ∀ key ∈ keys.keys, key.names = keys.names)
    {types : List (Option ScalarType)} (htypes : types.length = keys.names.length) (name : String)
    (env : Bindings) :
    (keyTable keys types name).bind db env =
      some ((keys.keys.map (·.members)).map fun row => (name, row) :: env) := by
  have hrow : ∀ key ∈ keys.keys, (do
      return keys.names.zip (← (key.values.zipWith keyCell types).mapM (·.value [])) :
      Option Row) = some key.members := by
    intro key hkey
    have hlength : key.values.length = types.length := by
      rw [htypes, ← hnames key hkey, KeyMap.values, KeyMap.names, List.length_map, List.length_map]
    rw [mapM_value_keyCells hlength, ← hnames key hkey]
    exact congrArg some ((List.zip_map' ..).trans (List.map_id key.members))
  have hrows : (keyTable keys types name).rows db = some (keys.keys.map (·.members)) := by
    refine Eq.trans ?_ (mapM_some hrow)
    exact List.mapM_map
  rw [Sql.Table.bind, hrows]
  rfl

/-- The values of a key are found under its names. -/
theorem KeyMap.map_get_names (k : KeyMap) : k.names.map (Row.get k.members) = k.values := by
  rw [names, values, List.map_map]
  refine List.map_congr_left fun m hm => ?_
  have hget : k.members.lookup m.1 = some m.2 := get?_of_mem hm
  rw [Function.comp_apply, Row.get, Row.get?, hget]
  rfl

/-- The truth of the equalities between the fields of a row and the columns of another. -/
def columnsEqual (db : Database) (fields : List ScalarField) (names : List String)
    (row other : Row) : Truth :=
  .all ((fields.zip names).map fun p => db.equal (row.get p.1.column) (other.get p.2))

/-- A row has the key that is a row of a table if and only if their columns are equal. -/
theorem columnsEqual_iff_hasKey (hdb : db.EqualsByValue) {e : Entity} {key : KeyMap}
    {fields : List ScalarField}
    (hfields : key.names.map e.scalarField = fields.map .ok) (row : Row) :
    columnsEqual db fields key.names row key.members = .yes ↔ e.hasKey row key = true := by
  have hvalues : columnsEqual db fields key.names row key.members =
      .all ((fields.zip key.values).map fun p => db.equal (row.get p.1.column) p.2) := by
    rw [← key.map_get_names, List.zip_map_right, List.map_map]
    rfl
  rw [hvalues]
  exact all_equal_iff_hasKey hdb hfields

/-- Where each element gives itself once or not at all, the others are left out. -/
theorem flatMap_eq_filter {α : Type} {f : α → List α} {p : α → Bool}
    (h : ∀ a, f a = if p a then [a] else []) (as : List α) : as.flatMap f = as.filter p := by
  induction as with
  | nil => rfl
  | cons a as ih =>
    rw [List.flatMap_cons, ih, h]
    by_cases hp : p a = true <;> simp [hp]

/-- **Several keys keep the rows that have one of them, each row once.** -/
theorem keptRows_table (hdb : db.EqualsByValue) {given : List KeyMap} {keys : JoinKeys}
    (hkeys : JoinKeys.ofList given = .ok keys) {fields : List ScalarField}
    (hfields : keys.names.map s.entity.scalarField = fields.map .ok) {name : String}
    (hname : s.name ≠ name) :
    KeyCriteria.keptRows { joins := [{
        kind := .inner
        table := keyTable keys (fields.map fun f => some f.type) name
        on := .all ((fields.zip keys.names).map fun p =>
          .single ((s.column p.1).equals (Sql.col name p.2))) }] } c s db env =
      some ((c.rows db s.entity.table).filter fun row => given.any (s.entity.hasKey row)) := by
  have hfirst := JoinKeys.ofList_eq_ok.1 hkeys
  have hnames : ∀ key ∈ keys.keys, key.names = keys.names := fun _ => JoinKeys.names_eq_of_mem
  have htypes : (fields.map fun f => some f.type).length = keys.names.length := by
    simpa using congrArg List.length hfields.symm
  have hon : ∀ row other, (Cond.all ((fields.zip keys.names).map fun p =>
      .single ((s.column p.1).equals (Sql.col name p.2)))).truth db
      ((name, other) :: (s.name, row) :: env) =
        some (columnsEqual db fields keys.names row other) := by
    intro row other
    refine all_map_truth fun p _ => equals_truth ?_ (by simp) (p.1.column, p.2)
    rw [List.lookup_cons, beq_false_of_ne hname]
    simp
  have hkept : ∀ row, (keys.keys.map (·.members)).filter
      (fun other => columnsEqual db fields keys.names row other = .yes) =
      (keys.keys.filter (s.entity.hasKey row)).map (·.members) := by
    intro row
    rw [List.filter_map]
    refine congrArg _ (List.filter_congr fun key hkey => ?_)
    rw [← hnames key hkey] at hfields ⊢
    rw [Bool.eq_iff_iff, Function.comp_apply, decide_eq_true_iff]
    exact columnsEqual_iff_hasKey hdb hfields row
  rw [KeyCriteria.keptRows, bindings_join (bind_keyTable hnames htypes name) hon
    fun _ _ => by rw [Cond.truth], Option.bind_eq_bind, Option.bind_some, List.mapM_map]
  refine (mapM_some (g := Prod.fst) fun r _ => ?_).trans (congrArg some ?_)
  · rw [Function.comp_apply, List.lookup_cons, beq_false_of_ne hname]
    simp
  · rw [List.filter_eq_self.2 (by simp), List.map_flatMap]
    refine flatMap_eq_filter (fun row => ?_) _
    rw [hkept, List.map_map, List.map_map, ← any_hasKey_firstOccurrences given, ← hfirst]
    refine List.map_const'.trans ?_
    rw [filter_hasKey hnames keys.distinct]
    split <;> rfl

/-- The rows that the keys keep are those that have one of them. -/
theorem keptRows_of_keyCriteria (hdb : db.EqualsByValue) {keys : List KeyMap} {k : KeyCriteria}
    {n n' : Names} (h : keyCriteria s keys n = .ok (k, n')) (hne : keys ≠ [])
    (hpast : n.Past s.name) :
    k.keptRows c s db env =
      some ((c.rows db s.entity.table).filter fun row => keys.any (s.entity.hasKey row)) := by
  match keys, hne with
  | [key], _ =>
    obtain ⟨fields, hfields, rfl⟩ := keyCriteria_single h
    simp only [keptRows_single hdb hfields, List.any_cons, List.any_nil, Bool.or_false]
  | key :: other :: keys, _ =>
    obtain ⟨joined, name, fields, hjoined, hname, hfields, rfl⟩ := keyCriteria_table h (by simp)
    obtain ⟨rfl, -⟩ := freshTable_run.1 hname
    exact keptRows_table hdb hjoined hfields (hpast _ (Nat.lt_succ_self _))

end

/-- Copies of a key compile if the key does. -/
theorem exists_keyCriteria_copies {s : Scope} {key : KeyMap} {k : KeyCriteria} {n n' : Names}
    (h : keyCriteria s [key] n = .ok (k, n')) (copies : Nat) :
    ∃ k' n'', keyCriteria s (List.replicate (copies + 1) key) n = .ok (k', n'') := by
  cases copies with
  | zero => exact ⟨k, n', h⟩
  | succ copies =>
    obtain ⟨fields, hfields, -⟩ := keyCriteria_single h
    have hsame : ∀ other ∈ key :: key :: List.replicate copies key, other.names = key.names := by
      simp
    obtain ⟨joined, hjoined, hnames⟩ := JoinKeys.exists_ofList (by simp) hsame
    have hscalar : joined.names.mapM s.entity.scalarField = .ok fields := by
      rw [mapM_ok_iff, hnames, hfields]
    exact ⟨_, _, bind_run.2 ⟨joined, n, lift_model_run.2 ⟨hjoined, rfl⟩,
      bind_run.2 ⟨_, _, freshTable_run.2 ⟨rfl, rfl⟩,
        bind_run.2 ⟨fields, _, lift_model_run.2 ⟨hscalar, rfl⟩, pure_run.2 ⟨rfl, rfl⟩⟩⟩⟩⟩

/-- **Keys keep the rows that have one of them, and each such row once.**  The criteria of a list of
    keys, be they equalities or a join, keep the rows of the entity's table that have some key of
    the list, in the order of the table; copies of a key keep the rows that the key keeps alone. -/
theorem keys_keep_rows_once (c : Compiler) {s : Scope} {n : Names} (hpast : n.Past s.name)
    {db : Database} (hdb : db.EqualsByValue) (env : Bindings) :
    (∀ keys k n', keys ≠ [] → keyCriteria s keys n = .ok (k, n') →
      k.keptRows c s db env =
        some ((c.rows db s.entity.table).filter fun row => keys.any (s.entity.hasKey row))) ∧
    ∀ key k n', keyCriteria s [key] n = .ok (k, n') →
      ∀ copies, ∃ k' n'', keyCriteria s (List.replicate (copies + 1) key) n = .ok (k', n'') ∧
        k'.keptRows c s db env = k.keptRows c s db env := by
  refine ⟨fun keys k n' hne h => keptRows_of_keyCriteria hdb h hne hpast,
    fun key k n' h copies => ?_⟩
  obtain ⟨k', n'', h'⟩ := exists_keyCriteria_copies h copies
  refine ⟨k', n'', h', ?_⟩
  rw [keptRows_of_keyCriteria hdb h' (by simp) hpast,
    keptRows_of_keyCriteria hdb h (by simp) hpast]
  simp

/-- Values that are ordered alike are equal. -/
theorem Database.equalsByValue_of_compare {db : Database} (h : db.order = Value.compare) :
    db.EqualsByValue := by
  intro a b
  rw [equal, test, h]
  split
  · next hnull =>
    refine iff_of_false nofun ?_
    rintro ⟨ha, hb, -⟩
    rw [ha, hb] at hnull
    cases hnull
  · next hnull =>
    obtain ⟨ha, hb⟩ : a.isNull = false ∧ b.isNull = false := by simpa using hnull
    rw [Truth.ofBool_eq_yes, Ordering.isEq_iff_eq_eq, Value.compare_eq_iff]
    exact ⟨fun heq => ⟨ha, hb, heq⟩, fun h => h.2.2⟩

/-- The key of the second brewery. -/
def breweryTwo : KeyMap := .ofMembers [("name", .string "Two"), ("id", .int 2)]

/-- A key twice, and a key that no row has, since one of its values is null. -/
def breweryKeys : List KeyMap :=
  [breweryTwo, .ofMembers [("id", .int 1), ("name", .null)], breweryTwo]

theorem keys_keep_rows_once_breweries :
    (∃ k n', keyCriteria ⟨brewery, "t1"⟩ breweryKeys ⟨1, 0⟩ = .ok (k, n') ∧
      k.keptRows breweries ⟨brewery, "t1"⟩ stock [] =
        some [[("id", .int 2), ("name", .string "Two")]]) ∧
    ∀ copies, ∃ k n',
      keyCriteria ⟨brewery, "t1"⟩ (List.replicate (copies + 1) breweryTwo) ⟨1, 0⟩ = .ok (k, n') ∧
        k.keptRows breweries ⟨brewery, "t1"⟩ stock [] =
          some [[("id", .int 2), ("name", .string "Two")]] := by
  have hpast : Names.Past ⟨1, 0⟩ "t1" := Names.past_tableName (k := 1) le_rfl
  have hdb : stock.EqualsByValue := Database.equalsByValue_of_compare rfl
  obtain ⟨hkeys, hcopies⟩ :=
    keys_keep_rows_once breweries (s := ⟨brewery, "t1"⟩) hpast hdb []
  refine ⟨⟨_, _, rfl, ?_⟩, fun copies => ?_⟩
  · rw [hkeys breweryKeys _ _ (List.cons_ne_nil _ _) rfl]
    rfl
  · obtain ⟨k, n', hk, hkept⟩ := hcopies breweryTwo _ _ rfl copies
    exact ⟨k, n', hk, hkept.trans rfl⟩

end LateralSql
