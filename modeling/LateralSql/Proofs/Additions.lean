/-
  What a step of drafting adds.

  A step leaves the draft it starts with as it is and puts something behind it: columns under
  fresh names, and selects joined under fresh names (`Added`).  Its result reads what the draft
  has selected itself or what the step adds, but never the columns of a select that was joined
  before (`Extends`).  Whatever holds of a draft is shown once for the four ways in which an
  addition is made.
-/
import LateralSql.Proofs.Outputs

namespace LateralSql

/-- The name that an expression is given. -/
def Sql.Expr.name? : Sql.Expr → Option String
  | .named _ name => some name
  | _ => none

/-! ## Drafts one behind the other -/

namespace Draft

instance : Append Draft := ⟨fun d e => ⟨d.columns ++ e.columns, d.joins ++ e.joins⟩⟩

@[simp] theorem columns_append (d e : Draft) : (d ++ e).columns = d.columns ++ e.columns := rfl

@[simp] theorem joins_append (d e : Draft) : (d ++ e).joins = d.joins ++ e.joins := rfl

@[simp] theorem append_empty (d : Draft) : d ++ ({} : Draft) = d :=
  congrArg₂ Draft.mk (List.append_nil _) (List.append_nil _)

theorem append_assoc (d e f : Draft) : d ++ e ++ f = d ++ (e ++ f) :=
  congrArg₂ Draft.mk (List.append_assoc _ _ _) (List.append_assoc _ _ _)

theorem withColumn_eq (d : Draft) (e : Sql.Expr) :
    d.withColumn e = d ++ ({} : Draft).withColumn e :=
  congrArg (Draft.mk (d.columns ++ [e])) (List.append_nil _).symm

theorem withLateral_eq (d : Draft) (s : Sql.Select) (name : String) :
    d.withLateral s name = d ++ ({} : Draft).withLateral s name := rfl

theorem labels_append (d e : Draft) : (d ++ e).labels = d.labels ++ e.labels := by
  simp [labels, Sql.joinOutputs_append]

@[simp] theorem outputs_withLateral (s : Sql.Select) (name : String) :
    (({} : Draft).withLateral s name).outputs = s.outputs := by
  simp [outputs, withLateral, Sql.joinOutputs_ofLateral, Sql.Expr.outputs]

/-- The names of the columns that the draft selects itself. -/
def named (d : Draft) : List String := d.columns.filterMap Sql.Expr.name?

@[simp] theorem named_empty : ({} : Draft).named = [] := rfl

@[simp] theorem named_append (d e : Draft) : (d ++ e).named = d.named ++ e.named :=
  List.filterMap_append

@[simp] theorem named_withColumn (e : Sql.Expr) (name : String) :
    (({} : Draft).withColumn (e.as name)).named = [name] := rfl

@[simp] theorem named_withLateral (s : Sql.Select) (name : String) :
    (({} : Draft).withLateral s name).named = [] := rfl

theorem named_subset_outputs (d : Draft) : d.named ⊆ d.outputs := by
  intro x hx
  obtain ⟨e, he, hname⟩ := List.mem_filterMap.1 hx
  refine List.mem_flatMap.2 ⟨e, he, ?_⟩
  cases e with
  | named e name => exact List.mem_singleton.2 (Option.some.inj hname).symm
  | _ => cases hname

theorem mem_named_of_nameOf? {d : Draft} {c : Sql.Column} {name : String}
    (h : d.nameOf? c = some name) : name ∈ d.named := by
  obtain ⟨e, he, hname⟩ := List.exists_of_findSome?_eq_some h
  refine List.mem_filterMap.2 ⟨e, he, ?_⟩
  unfold columnName? at hname
  split at hname
  · split_ifs at hname
    exact hname
  · cases hname

end Draft

/-! ## Additions -/

section
variable (Sel : Sql.Expr → Prop) (Lat : Names → Sql.Select → Names → Prop)

/-- What is put behind a draft while names are handed out: expressions in `Sel` under fresh names,
    and selects in `Lat`, whose own names come after the one they are joined under. -/
inductive Added : Names → Draft → Names → Prop
  | nothing {n n' : Names} : n ≤ n' → Added n {} n'
  | column {n n' : Names} {e : Sql.Expr} {name : String} : Sel e →
      freshColumn n = .ok (name, n') → Added n (({} : Draft).withColumn (e.as name)) n'
  | lateral {n n₁ n' : Names} {s : Sql.Select} {name : String} :
      freshTable n = .ok (name, n₁) → n₁ ≤ n' → Lat n₁ s n' →
      Added n (({} : Draft).withLateral s name) n'
  | append {n n₁ n' : Names} {d e : Draft} : Added n d n₁ → Added n₁ e n' → Added n (d ++ e) n'

end

namespace Added

variable {Sel : Sql.Expr → Prop} {Lat : Names → Sql.Select → Names → Prop} {n n₁ n' : Names}
  {d e : Draft}

theorem le (h : Added Sel Lat n d n') : n ≤ n' := by
  induction h with
  | nothing hle => exact hle
  | column _ hfresh => exact Grows.freshColumn hfresh
  | lateral hfresh hle _ => exact (Grows.freshTable hfresh).trans hle
  | append _ _ ih₁ ih₂ => exact ih₁.trans ih₂

theorem mono (h : Added Sel Lat n d n₁) (hle : n₁ ≤ n') : Added Sel Lat n d n' := by
  simpa only [Draft.append_empty] using h.append (.nothing hle)

theorem labels (h : Added Sel Lat n d n') : NewTables n n' d.labels := by
  induction h with
  | nothing _ => exact .nil _ _ _
  | column _ _ => exact .nil _ _ _
  | lateral hfresh hle _ => exact (newTables_of_freshTable hfresh).mono le_rfl hle.1
  | append h₁ h₂ ih₁ ih₂ =>
    rw [Draft.labels_append]
    exact ih₁.append ih₂ h₁.le h₂.le

theorem stars (h : Added Sel Lat n d n') :
    ∀ t, .star (some t) ∈ d.columns → t ∈ d.labels := by
  induction h with
  | nothing _ => intro t ht; cases ht
  | column _ _ => intro t ht; simp [Draft.withColumn, Sql.Expr.as] at ht
  | lateral _ _ _ =>
    intro t ht
    obtain rfl : t = _ := by simpa [Draft.withLateral] using ht
    exact List.mem_singleton_self _
  | append _ _ ih₁ ih₂ =>
    intro t ht
    rw [Draft.labels_append, List.mem_append]
    exact (List.mem_append.1 ht).imp (ih₁ t) (ih₂ t)

/-- What comes later hides nothing, and is not hidden. -/
theorem outputs_append (hd : Added Sel Lat n d n₁) (he : Added Sel Lat n₁ e n') :
    (d ++ e).outputs = d.outputs ++ e.outputs := by
  rw [Draft.outputs, Draft.joins_append, Draft.columns_append, Sql.joinOutputs_append,
    List.flatMap_append]
  congr 1
  · refine Sql.flatMap_outputs_congr fun t ht => ?_
    obtain ⟨os, hos⟩ := Sql.lookup_of_mem_labels (hd.stars t ht)
    rw [List.lookup_append, hos, Option.some_or]
  · refine Sql.flatMap_outputs_congr fun t ht => ?_
    obtain ⟨k, hlo, -, rfl⟩ := he.labels.number t (he.stars t ht)
    have hnone := Sql.lookup_of_notMem_labels (hd.labels.notMem Names.tableName_inj (.inr hlo))
    rw [List.lookup_append, hnone, Option.none_or]

/-- The columns of an addition are new, if those of what is joined are. -/
theorem newColumns (h : Added Sel Lat n d n')
    (hLat : ∀ ⦃n s n'⦄, Lat n s n' → NewColumns n n' s.outputs) : NewColumns n n' d.outputs := by
  induction h with
  | nothing _ => exact .nil _ _ _
  | column _ hfresh => exact newColumns_of_freshColumn hfresh
  | lateral hfresh hle hs =>
    rw [Draft.outputs_withLateral]
    exact (hLat hs).mono (Grows.freshTable hfresh).2 le_rfl
  | append h₁ h₂ ih₁ ih₂ =>
    rw [h₁.outputs_append h₂]
    exact ih₁.append ih₂ h₁.le h₂.le

end Added

/-! ## Steps -/

section
variable (Sel : Sql.Expr → Prop) (Lat : Names → Sql.Select → Names → Prop)

/-- Whatever draft it starts with, the step only adds to it, and its result reads what is `known`,
    what the draft has selected itself, or what has been added. -/
def Extends {α : Type} (known : List String) (x : Drafting α) (reads : α → List String) : Prop :=
  ∀ ⦃d n a d' n'⦄, x d n = .ok ((a, d'), n') → ∃ e, d' = d ++ e ∧ Added Sel Lat n e n' ∧
    ∀ y ∈ reads a, y ∈ known ∨ y ∈ d.named ∨ y ∈ e.outputs

end

namespace Extends

variable {α β : Type} {Sel : Sql.Expr → Prop} {Lat : Names → Sql.Select → Names → Prop}
  {known : List String}

theorem pure {a : α} {reads : α → List String} (h : reads a ⊆ known) :
    Extends Sel Lat known (Pure.pure a) reads := by
  intro d n b d' n' hrun
  obtain ⟨rfl, rfl, rfl⟩ := draft_pure_run.1 hrun
  exact ⟨{}, by simp, .nothing le_rfl, fun y hy => .inl (h hy)⟩

theorem throw {e : QueryError} {reads : α → List String} :
    Extends Sel Lat known (MonadExcept.throw e : Drafting α) reads :=
  fun _ _ _ _ _ hrun => (draft_throw_run.1 hrun).elim

/-- Names handed out elsewhere make no difference. -/
theorem compile_bind {x : Compile α} {f : α → Drafting β} {reads : β → List String}
    (hx : Grows x) (hf : ∀ ⦃n a n'⦄, x n = .ok (a, n') → Extends Sel Lat known (f a) reads) :
    Extends Sel Lat known (liftM x >>= f) reads := by
  intro d n b d' n' hrun
  obtain ⟨a, d₁, n₁, h₁, h₂⟩ := draft_bind_run.1 hrun
  obtain ⟨hnames, rfl⟩ := draft_compile_run.1 h₁
  obtain ⟨e, hd, hadded, hreads⟩ := hf hnames h₂
  exact ⟨e, hd, .append (.nothing (hx hnames)) hadded, hreads⟩

theorem lift_bind {x : Except QueryError α} {f : α → Drafting β} {reads : β → List String}
    (hf : ∀ a, x = .ok a → Extends Sel Lat known (f a) reads) :
    Extends Sel Lat known (liftM x >>= f) reads :=
  compile_bind (.lift x) fun _ _ _ h => hf _ (lift_run.1 h).1

theorem model_bind {x : Except ModelError α} {f : α → Drafting β} {reads : β → List String}
    (hf : ∀ a, x = .ok a → Extends Sel Lat known (f a) reads) :
    Extends Sel Lat known (liftM x >>= f) reads :=
  compile_bind (.lift_model x) fun _ _ _ h => hf _ (lift_model_run.1 h).1

/-- What a step reads is known to the steps after it. -/
theorem bind {x : Drafting α} {f : α → Drafting β} {reads : α → List String}
    {reads' : β → List String} (hx : Extends Sel Lat known x reads)
    (hf : ∀ a, Extends Sel Lat (known ++ reads a) (f a) reads') :
    Extends Sel Lat known (x >>= f) reads' := by
  intro d n b d' n' hrun
  obtain ⟨a, d₁, n₁, h₁, h₂⟩ := draft_bind_run.1 hrun
  obtain ⟨e₁, rfl, hadded₁, hreads₁⟩ := hx h₁
  obtain ⟨e₂, rfl, hadded₂, hreads₂⟩ := hf a h₂
  refine ⟨e₁ ++ e₂, Draft.append_assoc _ _ _, hadded₁.append hadded₂, fun y hy => ?_⟩
  have houtputs := hadded₁.outputs_append hadded₂
  have hadded {y : String} (h : y ∈ e₁.outputs ∨ y ∈ e₂.outputs) : y ∈ (e₁ ++ e₂).outputs := by
    rw [houtputs]
    exact List.mem_append.2 h
  rcases hreads₂ y hy with hknown | hnamed | hnew
  · rcases List.mem_append.1 hknown with hknown | hread
    · exact .inl hknown
    · exact (hreads₁ y hread).imp_right fun h => h.imp_right fun h => hadded (.inl h)
  · rw [Draft.named_append, List.mem_append] at hnamed
    rcases hnamed with hnamed | hnamed
    · exact .inr (.inl hnamed)
    · exact .inr (.inr (hadded (.inl (e₁.named_subset_outputs hnamed))))
  · exact .inr (.inr (hadded (.inr hnew)))

theorem weaken {known' : List String} {x : Drafting α} {reads : α → List String}
    (hx : Extends Sel Lat known x reads) (h : known ⊆ known') :
    Extends Sel Lat known' x reads := by
  intro d n a d' n' hrun
  obtain ⟨e, hd, hadded, hreads⟩ := hx hrun
  exact ⟨e, hd, hadded, fun y hy => (hreads y hy).imp_left (h ·)⟩

theorem mapM {f : α → Drafting β} {reads : β → List String} {as : List α}
    (hf : ∀ a ∈ as, Extends Sel Lat [] (f a) reads) :
    Extends Sel Lat [] (as.mapM f) (·.flatMap reads) := by
  induction as with
  | nil => exact pure (List.Subset.refl _)
  | cons a as ih =>
    rw [List.mapM_cons]
    have htail := ih fun b hb => hf b (List.mem_cons_of_mem _ hb)
    refine (hf a List.mem_cons_self).bind fun b =>
      (htail.weaken (List.nil_subset _)).bind fun bs => pure ?_
    rw [List.flatMap_cons, List.nil_append]
    exact List.Subset.refl _

theorem mapM_single {f : α → Drafting β} {read : β → String} {as : List α}
    (hf : ∀ a ∈ as, Extends Sel Lat [] (f a) fun b => [read b]) :
    Extends Sel Lat [] (as.mapM f) (·.map read) := by
  simpa only [List.map_eq_flatMap] using mapM hf

/-- A step of a draft that has been made from the start. -/
theorem from_start {x : Drafting α} {reads : α → List String} (hx : Extends Sel Lat known x reads)
    {lo n n' : Names} {d d' : Draft} {a : α} (hrun : x d n = .ok ((a, d'), n'))
    (hd : Added Sel Lat lo d n) (hknown : known ⊆ d.outputs) :
    Added Sel Lat lo d' n' ∧ d.outputs ⊆ d'.outputs ∧ reads a ⊆ d'.outputs := by
  obtain ⟨e, rfl, hadded, hreads⟩ := hx hrun
  rw [hd.outputs_append hadded]
  refine ⟨hd.append hadded, List.subset_append_left _ _, fun y hy => List.mem_append.2 ?_⟩
  rcases hreads y hy with h | h | h
  · exact .inl (hknown h)
  · exact .inl (d.named_subset_outputs h)
  · exact .inr h

/-! ### Columns -/

theorem selectExpr {e : Sql.Expr} (he : Sel e) :
    Extends Sel Lat [] (selectExpr e) fun name => [name] := by
  intro d n name d' n' hrun
  obtain ⟨hfresh, rfl⟩ := selectExpr_run.1 hrun
  refine ⟨_, Draft.withColumn_eq _ _, .column he hfresh, fun y hy => .inr (.inr ?_)⟩
  obtain rfl := List.mem_singleton.1 hy
  exact List.mem_singleton_self _

theorem selectColumn {c : Sql.Column} (hc : Sel (.column c)) :
    Extends Sel Lat [] (selectColumn c) fun name => [name] := by
  intro d n name d' n' hrun
  rcases selectColumn_run.1 hrun with ⟨hname, rfl, rfl⟩ | ⟨-, hrun⟩
  · refine ⟨{}, by simp, .nothing le_rfl, fun y hy => .inr (.inl ?_)⟩
    obtain rfl := List.mem_singleton.1 hy
    exact Draft.mem_named_of_nameOf? hname
  · exact selectExpr hc hrun

end Extends

end LateralSql
