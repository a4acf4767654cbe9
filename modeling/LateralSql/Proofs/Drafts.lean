/-
  Runs of `Drafting`: what a step does to the draft and to the names.
-/
import LateralSql.Proofs.Runs
import LateralSql.Query.Compiled

namespace LateralSql

section
variable {α β : Type} {d d' : Draft} {n n' : Names}

theorem draft_bind_run {x : Drafting α} {f : α → Drafting β} {b : β} :
    (x >>= f) d n = .ok ((b, d'), n') ↔
      ∃ a d₁ n₁, x d n = .ok ((a, d₁), n₁) ∧ f a d₁ n₁ = .ok ((b, d'), n') := by
  change (x d >>= fun p => f p.1 p.2) n = _ ↔ _
  rw [bind_run]
  constructor
  · rintro ⟨⟨a, d₁⟩, n₁, hx, hf⟩; exact ⟨a, d₁, n₁, hx, hf⟩
  · rintro ⟨a, d₁, n₁, hx, hf⟩; exact ⟨(a, d₁), n₁, hx, hf⟩

theorem draft_pure_run {a b : α} :
    (pure a : Drafting α) d n = .ok ((b, d'), n') ↔ a = b ∧ d = d' ∧ n = n' := by
  change (pure (a, d) : Compile (α × Draft)) n = _ ↔ _
  rw [pure_run, Prod.mk.injEq, and_assoc]

theorem draft_throw_run {e : QueryError} {a : α} :
    (throw e : Drafting α) d n = .ok ((a, d'), n') ↔ False := by
  simp [throw, throwThe, MonadExceptOf.throw, StateT.lift, bind, StateT.bind, Except.bind]

theorem draft_compile_run {x : Compile α} {a : α} :
    (liftM x : Drafting α) d n = .ok ((a, d'), n') ↔ x n = .ok (a, n') ∧ d = d' := by
  change (x >>= fun a => pure (a, d) : Compile (α × Draft)) n = _ ↔ _
  simp only [bind_run, pure_run, Prod.mk.injEq]
  constructor
  · rintro ⟨a', m, hx, ⟨rfl, rfl⟩, rfl⟩; exact ⟨hx, rfl⟩
  · rintro ⟨hx, rfl⟩; exact ⟨a, n', hx, ⟨rfl, rfl⟩, rfl⟩

theorem draft_lift_run {x : Except QueryError α} {a : α} :
    (liftM x : Drafting α) d n = .ok ((a, d'), n') ↔ x = .ok a ∧ d = d' ∧ n = n' := by
  change (liftM (liftM x : Compile α) : Drafting α) d n = _ ↔ _
  rw [draft_compile_run, lift_run, and_assoc, and_comm (b := d = d')]

theorem draft_lift_model_run {x : Except ModelError α} {a : α} :
    (liftM x : Drafting α) d n = .ok ((a, d'), n') ↔ x = .ok a ∧ d = d' ∧ n = n' := by
  change (liftM (liftM x : Compile α) : Drafting α) d n = _ ↔ _
  rw [draft_compile_run, lift_model_run, and_assoc, and_comm (b := d = d')]

theorem draft_get_run {a : Draft} :
    (get : Drafting Draft) d n = .ok ((a, d'), n') ↔ d = a ∧ d = d' ∧ n = n' := by
  change (pure (d, d) : Compile (Draft × Draft)) n = _ ↔ _
  rw [pure_run, Prod.mk.injEq, and_assoc]

/-- A draft that is started and given up for its result. -/
theorem run'_run {x : Drafting α} {a : α} :
    (x.run' d : Compile α) n = .ok (a, n') ↔ ∃ d', x d n = .ok ((a, d'), n') := by
  change (Prod.fst <$> x d : Compile α) n = _ ↔ _
  rw [map_eq_pure_bind]
  simp only [bind_run, pure_run]
  constructor
  · rintro ⟨⟨a', d'⟩, m, hx, rfl, rfl⟩; exact ⟨d', hx⟩
  · rintro ⟨d', hx⟩; exact ⟨(a, d'), n', hx, rfl, rfl⟩

/-- What each step of a list keeps of its element is kept of the list. -/
theorem draft_mapM_map {γ : Type} {f : α → Drafting β} {g : α → γ} {g' : β → γ} {as : List α}
    (hf : ∀ a ∈ as, ∀ ⦃d n b d' n'⦄, f a d n = .ok ((b, d'), n') → g' b = g a) {bs : List β}
    (h : as.mapM f d n = .ok ((bs, d'), n')) : bs.map g' = as.map g := by
  induction as generalizing d n bs with
  | nil =>
    obtain ⟨rfl, -⟩ := draft_pure_run.1 h
    rfl
  | cons a as ih =>
    rw [List.mapM_cons] at h
    obtain ⟨b, d₁, n₁, hb, h⟩ := draft_bind_run.1 h
    obtain ⟨rest, d₂, n₂, hrest, h⟩ := draft_bind_run.1 h
    obtain ⟨rfl, rfl, rfl⟩ := draft_pure_run.1 h
    rw [List.map_cons, List.map_cons, hf a List.mem_cons_self hb,
      ih (fun a' ha' => hf a' (List.mem_cons_of_mem _ ha')) hrest]

theorem draft_mapM_length {f : α → Drafting β} {as : List α} {bs : List β}
    (h : as.mapM f d n = .ok ((bs, d'), n')) : bs.length = as.length := by
  have hunits : bs.map (fun _ => ()) = as.map fun _ => () :=
    draft_mapM_map (fun _ _ _ _ _ _ _ _ => rfl) h
  simpa using congrArg List.length hunits

/-! ## Steps -/

theorem selectExpr_run {e : Sql.Expr} {name : String} :
    selectExpr e d n = .ok ((name, d'), n') ↔
      freshColumn n = .ok (name, n') ∧ d.withColumn (e.as name) = d' := by
  unfold selectExpr
  simp only [draft_bind_run, draft_compile_run, draft_pure_run]
  constructor
  · rintro ⟨a, _, _, ⟨hfresh, rfl⟩, _, _, _, hmod, rfl, rfl, rfl⟩
    cases hmod
    exact ⟨hfresh, rfl⟩
  · rintro ⟨hfresh, rfl⟩
    exact ⟨name, d, n', ⟨hfresh, rfl⟩, (), _, n', rfl, rfl, rfl, rfl⟩

/-- A column is read under the name it has, or selected under a new one. -/
theorem selectColumn_run {c : Sql.Column} {name : String} :
    selectColumn c d n = .ok ((name, d'), n') ↔
      (d.nameOf? c = some name ∧ d = d' ∧ n = n') ∨
      (d.nameOf? c = none ∧ selectExpr (.column c) d n = .ok ((name, d'), n')) := by
  unfold selectColumn
  simp only [draft_bind_run, draft_get_run]
  constructor
  · rintro ⟨_, _, _, ⟨rfl, rfl, rfl⟩, h⟩
    cases hname : d.nameOf? c with
    | some x =>
      rw [hname] at h
      obtain ⟨rfl, rfl, rfl⟩ := draft_pure_run.1 h
      exact .inl ⟨rfl, rfl, rfl⟩
    | none =>
      rw [hname] at h
      exact .inr ⟨rfl, h⟩
  · rintro (⟨hname, rfl, rfl⟩ | ⟨hname, h⟩)
    · exact ⟨d, d, n, ⟨rfl, rfl, rfl⟩, by rw [hname]; exact draft_pure_run.2 ⟨rfl, rfl, rfl⟩⟩
    · exact ⟨d, d, n, ⟨rfl, rfl, rfl⟩, by rw [hname]; exact h⟩

theorem joinLateral_run {s : Sql.Select} {name : String} {u : Unit} :
    joinLateral s name d n = .ok ((u, d'), n') ↔ d.withLateral s name = d' ∧ n = n' := by
  change (pure ((), d.withLateral s name) : Compile (Unit × Draft)) n = _ ↔ _
  simp [pure_run]

end

end LateralSql
