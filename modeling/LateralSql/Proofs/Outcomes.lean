/-
  What a compilation can end in.

  `Ends E P` says that a result is an error of `E` or a value of `P`.  `Outcome` is this for a
  compilation from any names, and `DraftOutcome` for one that also keeps a property of the draft.
  Each has a rule for every way to put computations together, so that a proof follows the code.
-/
import LateralSql.Proofs.Drafts

namespace LateralSql

/-! ## Results that may be errors -/

/-- An error of `E`, or a value of `P`. -/
inductive Ends {ε α : Type} (E : ε → Prop) (P : α → Prop) : Except ε α → Prop where
  | error {e : ε} (h : E e) : Ends E P (.error e)
  | ok {a : α} (h : P a) : Ends E P (.ok a)

namespace Ends

variable {ε α β : Type} {E : ε → Prop} {P : α → Prop} {Q : β → Prop}

theorem intro {x : Except ε α} (herror : ∀ e, x = .error e → E e) (hok : ∀ a, x = .ok a → P a) :
    Ends E P x := by
  cases x with
  | error e => exact error (herror e rfl)
  | ok a => exact ok (hok a rfl)

theorem of_ok {x : Except ε α} {a : α} (h : Ends E P x) (hx : x = .ok a) : P a := by
  subst hx
  cases h with
  | ok h => exact h

theorem of_error {x : Except ε α} {e : ε} (h : Ends E P x) (hx : x = .error e) : E e := by
  subst hx
  cases h with
  | error h => exact h

theorem pure {a : α} (h : P a) : Ends E P (Pure.pure a) := ok h

theorem throw {e : ε} (h : E e) : Ends E P (MonadExcept.throw e) := error h

theorem bind {x : Except ε α} {f : α → Except ε β} (hx : Ends E P x)
    (hf : ∀ a, P a → Ends E Q (f a)) : Ends E Q (x >>= f) := by
  cases hx with
  | error h => exact error h
  | ok h => exact hf _ h

theorem mono {P' : α → Prop} {x : Except ε α} (h : Ends E P x) (hP : ∀ a, P a → P' a) :
    Ends E P' x := by
  cases h with
  | error h => exact error h
  | ok h => exact ok (hP _ h)

theorem mono_error {E' : ε → Prop} {x : Except ε α} (h : Ends E P x) (hE : ∀ e, E e → E' e) :
    Ends E' P x := by
  cases h with
  | error h => exact error (hE _ h)
  | ok h => exact ok h

/-- The error of a list is that of an element. -/
theorem mapM {γ : Type} {F : γ → ε → Prop} {R : γ → Prop} {f : γ → Except ε α} {cs : List γ}
    (hf : ∀ c ∈ cs, Ends (F c) (fun _ => R c) (f c)) :
    Ends (fun e => ∃ c ∈ cs, F c e) (fun _ => ∀ c ∈ cs, R c) (cs.mapM f) := by
  induction cs with
  | nil => exact pure (List.forall_mem_nil _)
  | cons c cs ih =>
    have hfirst := (hf c List.mem_cons_self).mono_error fun e he =>
      (⟨c, List.mem_cons_self, he⟩ : ∃ c' ∈ c :: cs, F c' e)
    have hrest := (ih fun c' hc' => hf c' (List.mem_cons_of_mem _ hc')).mono_error
      fun e ⟨c', hc', he⟩ => (⟨c', List.mem_cons_of_mem _ hc', he⟩ : ∃ c' ∈ c :: cs, F c' e)
    rw [List.mapM_cons]
    exact hfirst.bind fun _ hc => hrest.bind fun _ hcs => pure (List.forall_mem_cons.2 ⟨hc, hcs⟩)

theorem of_model {E : QueryError → Prop} {F : ModelError → Prop} {x : Except ModelError α}
    (h : Ends F P x) (hE : ∀ e, F e → E (.model e)) : Ends E P (liftM x) := by
  cases h with
  | error h => exact error (hE _ h)
  | ok h => exact ok h

theorem lift_model {E : QueryError → Prop} {x : Except ModelError α} (hE : ∀ e, E (.model e))
    (h : ∀ a, x = .ok a → P a) : Ends E P (liftM x) :=
  of_model (intro (fun _ _ => trivial) h) fun e _ => hE e

end Ends

/-! ## Compilations -/

/-- From any names, an error of `E` or a value of `P`. -/
def Outcome {α : Type} (E : QueryError → Prop) (P : α → Prop) (x : Compile α) : Prop :=
  ∀ n, Ends E (fun p => P p.1) (x n)

namespace Outcome

variable {α β : Type} {E : QueryError → Prop} {P : α → Prop} {Q : β → Prop}

theorem pure {a : α} (h : P a) : Outcome E P (Pure.pure a) := fun _ => .ok h

theorem throw {e : QueryError} (h : E e) : Outcome E P (MonadExcept.throw e) := fun _ => .error h

theorem lift {x : Except QueryError α} (h : Ends E P x) : Outcome E P (liftM x) := by
  intro n
  cases h with
  | error h => exact .error h
  | ok h => exact .ok h

theorem lift_model {x : Except ModelError α} (hE : ∀ e, E (.model e)) (h : ∀ a, x = .ok a → P a) :
    Outcome E P (liftM x) :=
  lift (.lift_model hE h)

theorem bind {x : Compile α} {f : α → Compile β} (hx : Outcome E P x)
    (hf : ∀ a, P a → Outcome E Q (f a)) : Outcome E Q (x >>= f) :=
  fun n => (hx n).bind fun p h => hf p.1 h p.2

theorem mono {P' : α → Prop} {x : Compile α} (h : Outcome E P x) (hP : ∀ a, P a → P' a) :
    Outcome E P' x :=
  fun n => (h n).mono fun p => hP p.1

theorem mapM {γ : Type} {f : γ → Compile α} {cs : List γ} (hf : ∀ c ∈ cs, Outcome E P (f c)) :
    Outcome E (fun as => ∀ a ∈ as, P a) (cs.mapM f) := by
  induction cs with
  | nil => exact pure (by simp)
  | cons c cs ih =>
    rw [List.mapM_cons]
    refine (hf c List.mem_cons_self).bind fun a ha => ?_
    refine (ih fun c' hc' => hf c' (List.mem_cons_of_mem _ hc')).bind fun as has => pure ?_
    exact List.forall_mem_cons.2 ⟨ha, has⟩

theorem freshTable : Outcome E (fun _ => True) freshTable := fun _ => .ok trivial

theorem freshColumn : Outcome E (fun _ => True) freshColumn := fun _ => .ok trivial

theorem run {x : Compile α} (h : Outcome E P x) : Ends E P (Compiler.run x) := by
  change Ends E P (Prod.fst <$> x {})
  rw [map_eq_pure_bind]
  exact (h {}).bind fun _ h => .ok h

end Outcome

/-! ## Drafts -/

/-- From a draft of `D` and any names, an error of `E`, or a value of `P` and a draft of `D`. -/
def DraftOutcome {α : Type} (E : QueryError → Prop) (D : Draft → Prop) (P : α → Prop)
    (x : Drafting α) : Prop :=
  ∀ d, D d → Outcome E (fun p => P p.1 ∧ D p.2) (x d)

namespace DraftOutcome

variable {α β : Type} {E : QueryError → Prop} {D : Draft → Prop} {P : α → Prop} {Q : β → Prop}

theorem pure {a : α} (h : P a) : DraftOutcome E D P (Pure.pure a) :=
  fun _ hd => .pure ⟨h, hd⟩

theorem throw {e : QueryError} (h : E e) : DraftOutcome E D P (MonadExcept.throw e) :=
  fun _ _ => .throw h

theorem compile {x : Compile α} (h : Outcome E P x) : DraftOutcome E D P (liftM x) := by
  intro d hd
  change Outcome E _ (x >>= fun a => Pure.pure (a, d))
  exact h.bind fun _ h => .pure ⟨h, hd⟩

theorem lift {x : Except QueryError α} (h : Ends E P x) : DraftOutcome E D P (liftM x) :=
  compile (.lift h)

theorem lift_model {x : Except ModelError α} (hE : ∀ e, E (.model e)) (h : ∀ a, x = .ok a → P a) :
    DraftOutcome E D P (liftM x) :=
  compile (.lift_model hE h)

theorem bind {x : Drafting α} {f : α → Drafting β} (hx : DraftOutcome E D P x)
    (hf : ∀ a, P a → DraftOutcome E D Q (f a)) : DraftOutcome E D Q (x >>= f) :=
  fun d hd => (hx d hd).bind fun p h => hf p.1 h.1 p.2 h.2

/-- A draft that is started and given up for its result. -/
theorem run' {x : Drafting α} (h : DraftOutcome E D P x) {d : Draft} (hd : D d) :
    Outcome E P (StateT.run' x d) := by
  change Outcome E P (Prod.fst <$> x d)
  rw [map_eq_pure_bind]
  exact (h d hd).bind fun _ h => .pure h.1

theorem mono {P' : α → Prop} {x : Drafting α} (h : DraftOutcome E D P x) (hP : ∀ a, P a → P' a) :
    DraftOutcome E D P' x :=
  fun d hd => (h d hd).mono fun _ h => ⟨hP _ h.1, h.2⟩

theorem mapM {γ : Type} {f : γ → Drafting α} {cs : List γ}
    (hf : ∀ c ∈ cs, DraftOutcome E D P (f c)) :
    DraftOutcome E D (fun as => ∀ a ∈ as, P a) (cs.mapM f) := by
  induction cs with
  | nil => exact pure (by simp)
  | cons c cs ih =>
    rw [List.mapM_cons]
    refine (hf c List.mem_cons_self).bind fun a ha => ?_
    refine (ih fun c' hc' => hf c' (List.mem_cons_of_mem _ hc')).bind fun as has => pure ?_
    exact List.forall_mem_cons.2 ⟨ha, has⟩

theorem get : DraftOutcome E D D MonadState.get := fun _ hd => .pure ⟨hd, hd⟩

theorem selectExpr {e : Sql.Expr} (h : ∀ d name, D d → D (d.withColumn (e.as name))) :
    DraftOutcome E D (fun _ => True) (selectExpr e) := by
  refine (compile .freshColumn).bind fun name _ d hd => ?_
  exact .pure ⟨trivial, h d name hd⟩

theorem selectColumn {c : Sql.Column}
    (h : ∀ d name, D d → D (d.withColumn ((Sql.Expr.column c).as name))) :
    DraftOutcome E D (fun _ => True) (selectColumn c) := by
  refine get.bind fun d _ => ?_
  cases d.nameOf? c with
  | some name => exact pure trivial
  | none => exact selectExpr h

theorem joinLateral {s : Sql.Select} {name : String} (h : ∀ d, D d → D (d.withLateral s name)) :
    DraftOutcome E D (fun _ => True) (joinLateral s name) :=
  fun d hd => .pure ⟨trivial, h d hd⟩

end DraftOutcome

end LateralSql
