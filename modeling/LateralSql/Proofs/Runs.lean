/-
  Runs of `Compile`.

  A run that succeeds is taken apart step by step (`bind_run` and the lemmas beside it).  Names
  are only ever handed out, never taken back (`Grows`), so a name that is past (`Names.Past`)
  stays so and differs from every fresh one.
-/
import Mathlib.Order.Basic
import Mathlib.Data.String.Basic
import LateralSql.Query.Condition

namespace LateralSql

/-! ## Names -/

namespace Names

/-- Numbers with the same digits are the same. -/
theorem append_toString_inj {p : String} {k l : Nat} :
    p ++ toString k = p ++ toString l ↔ k = l := by
  refine ⟨fun h => ?_, fun h => h ▸ rfl⟩
  have hd : Nat.toDigits 10 k = Nat.toDigits 10 l := by
    have hr : k.repr = l.repr := by simpa [ToString.toString] using h
    rw [← Nat.toList_repr, hr, Nat.toList_repr]
  simpa only [Nat.ofDigitChars_ten_toDigits] using congrArg (Nat.ofDigitChars 10 · 0) hd

theorem tableName_inj {k l : Nat} : tableName k = tableName l ↔ k = l := append_toString_inj

theorem columnName_inj {k l : Nat} : columnName k = columnName l ↔ k = l := append_toString_inj

instance : Preorder Names := Preorder.lift fun n => (n.tables, n.columns)

theorem le_iff {n m : Names} : n ≤ m ↔ n.tables ≤ m.tables ∧ n.columns ≤ m.columns := Iff.rfl

/-- The name is none that will be handed out for a table. -/
def Past (n : Names) (name : String) : Prop := ∀ k, n.tables < k → name ≠ tableName k

theorem Past.mono {n m : Names} {name : String} (h : n.Past name) (hle : n ≤ m) : m.Past name :=
  fun k hk => h k (hle.1.trans_lt hk)

theorem past_tableName {n : Names} {k : Nat} (h : k ≤ n.tables) : n.Past (tableName k) :=
  fun l hl heq => by rw [tableName_inj] at heq; omega

end Names

/-! ## Results that may be errors -/

section
variable {ε α β : Type}

theorem bind_ok {x : Except ε α} {f : α → Except ε β} {b : β} :
    x >>= f = .ok b ↔ ∃ a, x = .ok a ∧ f a = .ok b := by
  cases x <;> simp [bind, Except.bind]

theorem pure_ok {a b : α} : (pure a : Except ε α) = .ok b ↔ a = b := by
  simp [pure, Except.pure]

theorem throw_ok {e : ε} {a : α} : (throw e : Except ε α) = .ok a ↔ False := by
  simp [throw, throwThe, MonadExceptOf.throw]

theorem lift_model_ok {x : Except ModelError α} {a : α} :
    (liftM x : Except QueryError α) = .ok a ↔ x = .ok a := by
  cases x <;> simp [liftM, monadLift, MonadLift.monadLift]

theorem mapM_cons_ok {f : α → Except ε β} {a : α} {as : List α} {bs : List β} :
    (a :: as).mapM f = .ok bs ↔ ∃ b bs', f a = .ok b ∧ as.mapM f = .ok bs' ∧ b :: bs' = bs := by
  simp only [List.mapM_cons, bind_ok, pure_ok]
  constructor
  · rintro ⟨b, hb, bs', hbs, h⟩; exact ⟨b, bs', hb, hbs, h⟩
  · rintro ⟨b, bs', hb, hbs, h⟩; exact ⟨b, hb, bs', hbs, h⟩

/-- Every result of a list comes from an element. -/
theorem mapM_ok_mem {f : α → Except ε β} {as : List α} {bs : List β} (h : as.mapM f = .ok bs)
    {b : β} (hb : b ∈ bs) : ∃ a, f a = .ok b := by
  induction as generalizing bs with
  | nil =>
    obtain rfl := pure_ok.1 h
    cases hb
  | cons a as ih =>
    obtain ⟨b', bs', hb', hbs', rfl⟩ := mapM_cons_ok.1 h
    rcases List.mem_cons.1 hb with rfl | hb
    · exact ⟨a, hb'⟩
    · exact ih hbs' hb

/-- The results of a list are those of its elements, in order. -/
theorem mapM_ok_iff {f : α → Except ε β} {as : List α} {bs : List β} :
    as.mapM f = .ok bs ↔ as.map f = bs.map .ok := by
  induction as generalizing bs with
  | nil =>
    rw [List.mapM_nil, pure_ok, List.map_nil, eq_comm, eq_comm (a := []), List.map_eq_nil_iff]
  | cons a as ih =>
    rw [mapM_cons_ok, List.map_cons, eq_comm, List.map_eq_cons_iff]
    constructor
    · rintro ⟨b, rest, hb, hrest, rfl⟩
      exact ⟨b, rest, rfl, hb.symm, (ih.1 hrest).symm⟩
    · rintro ⟨b, rest, rfl, hb, hrest⟩
      exact ⟨b, rest, hb.symm, ih.2 hrest.symm, rfl⟩

theorem mem_mapM_ok {f : α → Except ε β} {as : List α} {bs : List β} (h : as.mapM f = .ok bs)
    {b : β} : b ∈ bs ↔ ∃ a ∈ as, f a = .ok b := by
  rw [← List.mem_map, mapM_ok_iff.1 h]
  exact (List.mem_map_of_injective fun _ _ => Except.ok.inj).symm

/-- A whole list has results if each of its elements has one. -/
theorem exists_mapM_ok {f : α → Except ε β} {as : List α} :
    (∃ bs, as.mapM f = .ok bs) ↔ ∀ a ∈ as, ∃ b, f a = .ok b := by
  induction as with
  | nil => exact ⟨fun _ => List.forall_mem_nil _, fun _ => ⟨[], rfl⟩⟩
  | cons a as ih =>
    rw [List.forall_mem_cons, ← ih]
    constructor
    · rintro ⟨bs, h⟩
      obtain ⟨b, rest, hb, hrest, -⟩ := mapM_cons_ok.1 h
      exact ⟨⟨b, hb⟩, rest, hrest⟩
    · rintro ⟨⟨b, hb⟩, rest, hrest⟩
      exact ⟨b :: rest, mapM_cons_ok.2 ⟨b, rest, hb, hrest, rfl⟩⟩

theorem forM_ok {f : α → Except ε Unit} {as : List α} :
    as.forM f = .ok () ↔ ∀ a ∈ as, f a = .ok () := by
  induction as with
  | nil => exact ⟨fun _ => List.forall_mem_nil _, fun _ => rfl⟩
  | cons a as ih =>
    rw [List.forM, bind_ok, List.forall_mem_cons, ← ih]
    exact ⟨fun ⟨_, ha, has⟩ => ⟨ha, has⟩, fun ⟨ha, has⟩ => ⟨(), ha, has⟩⟩

end

/-! ## Steps of a run -/

section
variable {α β : Type} {n n' : Names}

theorem bind_run {x : Compile α} {f : α → Compile β} {b : β} :
    (x >>= f) n = .ok (b, n') ↔ ∃ a m, x n = .ok (a, m) ∧ f a m = .ok (b, n') := by
  simp only [bind, StateT.bind, Except.bind]
  cases x n with
  | error e => simp
  | ok p => obtain ⟨a, m⟩ := p; simp

/-- A step that succeeds is followed by the rest. -/
theorem bind_of_run {x : Compile α} {f : α → Compile β} {a : α} (h : x n = .ok (a, n')) :
    (x >>= f) n = f a n' := by
  change (x n >>= fun p => f p.1 p.2) = _
  rw [h]
  rfl

theorem pure_run {a b : α} : (pure a : Compile α) n = .ok (b, n') ↔ a = b ∧ n = n' := by
  change (.ok (a, n) : Except QueryError (α × Names)) = .ok (b, n') ↔ _
  rw [Except.ok.injEq, Prod.mk.injEq]

theorem throw_run {e : QueryError} {a : α} : (throw e : Compile α) n = .ok (a, n') ↔ False := by
  simp [throw, throwThe, MonadExceptOf.throw, StateT.lift, bind, Except.bind]

theorem lift_run {x : Except QueryError α} {a : α} :
    (liftM x : Compile α) n = .ok (a, n') ↔ x = .ok a ∧ n = n' := by
  cases x <;> simp [liftM, monadLift, MonadLift.monadLift, StateT.lift, bind, Except.bind, pure,
    Except.pure]

theorem lift_model_run {x : Except ModelError α} {a : α} :
    (liftM x : Compile α) n = .ok (a, n') ↔ x = .ok a ∧ n = n' := by
  cases x <;> simp [liftM, monadLift, MonadLift.monadLift, StateT.lift, bind, Except.bind, pure,
    Except.pure]

theorem freshTable_run {a : String} :
    freshTable n = .ok (a, n') ↔
      Names.tableName (n.tables + 1) = a ∧ { n with tables := n.tables + 1 } = n' := by
  change (.ok (Names.tableName (n.tables + 1), { n with tables := n.tables + 1 }) :
    Except QueryError (String × Names)) = .ok (a, n') ↔ _
  rw [Except.ok.injEq, Prod.mk.injEq]

theorem freshColumn_run {a : String} :
    freshColumn n = .ok (a, n') ↔
      Names.columnName (n.columns + 1) = a ∧ { n with columns := n.columns + 1 } = n' := by
  change (.ok (Names.columnName (n.columns + 1), { n with columns := n.columns + 1 }) :
    Except QueryError (String × Names)) = .ok (a, n') ↔ _
  rw [Except.ok.injEq, Prod.mk.injEq]

/-- What each step of a list gives holds of all its results. -/
theorem mapM_run_forall {f : α → Compile β} {P : β → Prop} {as : List α}
    (hf : ∀ a ∈ as, ∀ ⦃n b n'⦄, f a n = .ok (b, n') → P b) {bs : List β}
    (h : as.mapM f n = .ok (bs, n')) : ∀ b ∈ bs, P b := by
  induction as generalizing n bs with
  | nil =>
    obtain ⟨rfl, -⟩ := pure_run.1 h
    simp
  | cons a as ih =>
    rw [List.mapM_cons] at h
    obtain ⟨b, n₁, hb, h⟩ := bind_run.1 h
    obtain ⟨rest, n₂, hrest, h⟩ := bind_run.1 h
    obtain ⟨rfl, rfl⟩ := pure_run.1 h
    intro x hx
    rcases List.mem_cons.1 hx with rfl | hx
    · exact hf a List.mem_cons_self hb
    · exact ih (fun a' ha' => hf a' (List.mem_cons_of_mem _ ha')) hrest x hx

/-- What each step of a list keeps of its element is kept of the list. -/
theorem mapM_run_map {γ : Type} {f : α → Compile β} {g : α → γ} {g' : β → γ} {as : List α}
    (hf : ∀ a ∈ as, ∀ ⦃n b n'⦄, f a n = .ok (b, n') → g' b = g a) {bs : List β}
    (h : as.mapM f n = .ok (bs, n')) : bs.map g' = as.map g := by
  induction as generalizing n bs with
  | nil =>
    obtain ⟨rfl, -⟩ := pure_run.1 h
    rfl
  | cons a as ih =>
    rw [List.mapM_cons] at h
    obtain ⟨b, n₁, hb, h⟩ := bind_run.1 h
    obtain ⟨rest, n₂, hrest, h⟩ := bind_run.1 h
    obtain ⟨rfl, rfl⟩ := pure_run.1 h
    rw [List.map_cons, List.map_cons, hf a List.mem_cons_self hb,
      ih (fun a' ha' => hf a' (List.mem_cons_of_mem _ ha')) hrest]

theorem Scope.scalarField_of_filtered {s : Scope} {name : String} {f : ScalarField}
    (h : s.filtered name = .ok f) : s.entity.scalarField name = .ok f := by
  obtain ⟨g, hg, h⟩ := bind_ok.1 h
  rw [lift_model_ok] at hg
  cases g with
  | scalar g => rw [Entity.scalarField, hg]; obtain rfl := pure_ok.1 h; rfl
  | object g => exact (throw_ok.1 h).elim

/-- A correlation names at most a junction table. -/
theorem Link.correlate_cases {c : Compiler} {l : Link} {parent child : String} {r : Correlation}
    (h : l.correlate c parent child n = .ok (r, n')) :
    (∃ pairs, l.topology = .direct pairs ∧ n = n' ∧
      r = ⟨[], .equalities (pairs.map Prod.swap) child parent,
        pairs.map fun p => Sql.col child p.2⟩) ∨
    (∃ table toParent toChild, l.topology = .junction table toParent toChild ∧
      ∃ junction, freshTable n = .ok (junction, n') ∧
        r = ⟨[⟨.inner, (c.table table).as junction, .equalities toChild junction child, false⟩],
          .equalities toParent junction parent, toChild.map fun p => Sql.col junction p.1⟩) := by
  unfold Link.correlate at h
  cases htop : l.topology with
  | direct pairs =>
    rw [htop] at h
    obtain ⟨rfl, rfl⟩ := pure_run.1 h
    exact .inl ⟨pairs, rfl, rfl, rfl⟩
  | junction table toParent toChild =>
    rw [htop] at h
    obtain ⟨junction, m, hfresh, h⟩ := bind_run.1 h
    obtain ⟨rfl, rfl⟩ := pure_run.1 h
    exact .inr ⟨table, toParent, toChild, rfl, junction, hfresh, rfl⟩

/-- The child's columns, in the order of declaration. -/
def Link.childColumns (l : Link) : List String :=
  match l.topology with
  | .direct pairs => pairs.map (·.2)
  | .junction _ _ child => child.map (·.2)

/-- There is a column to tell a related row from none for each column of the child. -/
theorem Link.length_existsColumns {c : Compiler} {l : Link} {parent child : String}
    {r : Correlation} (h : l.correlate c parent child n = .ok (r, n')) :
    r.existsColumns.length = l.childColumns.length := by
  rcases Link.correlate_cases h with ⟨_, htop, -, rfl⟩ | ⟨_, _, _, htop, _, -, rfl⟩
  · simp [childColumns, htop]
  · simp [childColumns, htop]

end

/-! ## Names are handed out, not taken back -/

/-- Whoever runs it has at least as many names behind them. -/
def Grows {α : Type} (x : Compile α) : Prop := ∀ ⦃n a n'⦄, x n = .ok (a, n') → n ≤ n'

namespace Grows

variable {α β : Type}

theorem pure (a : α) : Grows (Pure.pure a) := by
  intro n b n' h
  rw [(pure_run.1 h).2]

theorem throw (e : QueryError) : Grows (MonadExcept.throw e : Compile α) :=
  fun _ _ _ h => (throw_run.1 h).elim

theorem lift (x : Except QueryError α) : Grows (liftM x : Compile α) := by
  intro n a n' h
  rw [(lift_run.1 h).2]

theorem lift_model (x : Except ModelError α) : Grows (liftM x : Compile α) := by
  intro n a n' h
  rw [(lift_model_run.1 h).2]

theorem bind {x : Compile α} {f : α → Compile β} (hx : Grows x) (hf : ∀ a, Grows (f a)) :
    Grows (x >>= f) := by
  intro n b n' h
  obtain ⟨a, m, h₁, h₂⟩ := bind_run.1 h
  exact (hx h₁).trans (hf a h₂)

theorem mapM {f : α → Compile β} (hf : ∀ a, Grows (f a)) (as : List α) : Grows (as.mapM f) := by
  induction as with
  | nil => exact pure _
  | cons a as ih =>
    rw [List.mapM_cons]
    exact (hf a).bind fun _ => ih.bind fun _ => pure _

theorem freshTable : Grows freshTable := by
  intro n a n' h
  obtain ⟨-, rfl⟩ := freshTable_run.1 h
  exact Names.le_iff.2 ⟨Nat.le_succ _, le_rfl⟩

theorem freshColumn : Grows freshColumn := by
  intro n a n' h
  obtain ⟨-, rfl⟩ := freshColumn_run.1 h
  exact Names.le_iff.2 ⟨le_rfl, Nat.le_succ _⟩

theorem correlate (c : Compiler) (l : Link) (parent child : String) :
    Grows (l.correlate c parent child) := by
  unfold Link.correlate
  split
  · exact pure _
  · exact freshTable.bind fun _ => pure _

/-! ### Conditions -/

theorem segmentQuery (c : Compiler) (s : Scope) (g : GeometrySegments) (literal : Sql.Expr)
    (f : Sql.Expr → Sql.Expr → Sql.Cond) : Grows (segmentQuery c s g literal f) :=
  freshTable.bind fun _ => freshTable.bind fun _ => freshTable.bind fun _ =>
    freshColumn.bind fun _ => freshColumn.bind fun _ => (lift_model _).bind fun _ => pure _

theorem spatialCondition (c : Compiler) (s : Scope) (f : ScalarField) (t : SpatialTest) :
    Grows (spatialCondition c s f t) := by
  unfold LateralSql.spatialCondition
  split
  · exact throw _
  · split
    · exact lift _
    · refine (lift _).bind fun function => (lift _).bind fun literal =>
        (segmentQuery _ _ _ _ _).bind fun overlapping => ?_
      split
      · exact pure _
      · exact (segmentQuery _ _ _ _ _).bind fun _ => pure _

theorem fieldCondition (c : Compiler) (s : Scope) (name : String) (t : FieldTest) :
    Grows (fieldCondition c s name t) := by
  refine (lift _).bind fun f => ?_
  cases t with
  | spatial t => exact spatialCondition c s f t
  | _ => exact lift _

theorem pathCondition (c : Compiler) (t : FieldTest) (path : FieldPath) (s : Scope) :
    Grows (pathCondition c t path s) := by
  induction path generalizing s with
  | nil => exact throw _
  | cons name rest ih =>
    cases rest with
    | nil => exact fieldCondition c s name t
    | cons next rest =>
      rw [LateralSql.pathCondition]
      refine (lift_model _).bind fun f => (lift_model _).bind fun target => ?_
      split
      · exact ih _
      · refine (lift _).bind fun link => freshTable.bind fun child =>
          (correlate _ _ _ _).bind fun _ => (ih _).bind fun _ => pure _

mutual

theorem condition (c : Compiler) (s : Scope) : ∀ f, Grows (condition c s f)
  | .test path t => pathCondition c t path s
  | .not f => (condition c s f).bind fun _ => pure _
  | .and fs => (conditions c s fs).bind fun _ => pure _
  | .or fs => (conditions c s fs).bind fun _ => pure _
termination_by structural f => f

theorem conditions (c : Compiler) (s : Scope) : ∀ fs, Grows (conditions c s fs)
  | [] => pure _
  | f :: fs => (condition c s f).bind fun _ => (conditions c s fs).bind fun _ => pure _
termination_by structural fs => fs

end

theorem conjunction (c : Compiler) (s : Scope) (fs : List Filter) : Grows (conjunction c s fs) :=
  (conditions c s fs).bind fun _ => pure _

end Grows

end LateralSql
