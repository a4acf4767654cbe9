/-
  Two runs side by side.

  Two computations agree (`Agree`) if they fail with the same error or both give a result, and the
  results are related.  `Lockstep` is this for two compilations that start with the same
  names, which must stay the same, and `DraftLockstep` for two that start with drafts of the same
  masked form, which must keep one.  Each has a rule for every way to put computations
  together, so that a proof follows the code of the two.
-/
import Mathlib.Data.List.Forall2
import LateralSql.Proofs.Drafts
import LateralSql.Proofs.MaskedSelects

namespace LateralSql

open List (Forall₂)

theorem map_eq_of_forall₂ {α β γ : Type} {f : α → γ} {g : β → γ} {as : List α} {bs : List β}
    (h : Forall₂ (fun a b => f a = g b) as bs) : as.map f = bs.map g := by
  induction h with
  | nil => rfl
  | cons hab _ ih => rw [List.map_cons, List.map_cons, hab, ih]

theorem eq_of_forall₂ {α : Type} {as bs : List α} (h : Forall₂ Eq as bs) : as = bs := by
  rwa [List.forall₂_eq_eq_eq] at h

theorem isEmpty_eq_of_map {α β : Type} {f : α → β} {as bs : List α} (h : as.map f = bs.map f) :
    as.isEmpty = bs.isEmpty := by
  rw [← List.isEmpty_map, h, List.isEmpty_map]

/-! ## Results that may be errors -/

/-- Both are the same error, or results that are related. -/
inductive Agree {ε α β : Type} (R : α → β → Prop) : Except ε α → Except ε β → Prop where
  | error (e : ε) : Agree R (.error e) (.error e)
  | ok {a : α} {b : β} (h : R a b) : Agree R (.ok a) (.ok b)

namespace Agree

variable {ε α β γ δ : Type} {R : α → β → Prop} {S : γ → δ → Prop}

protected theorem rfl {x : Except ε α} : Agree Eq x x := by
  cases x with
  | error e => exact error e
  | ok a => exact ok rfl

theorem of_ok {x : Except ε α} {y : Except ε β} {a : α} {b : β} (h : Agree R x y)
    (hx : x = .ok a) (hy : y = .ok b) : R a b := by
  subst hx hy
  cases h with
  | ok h => exact h

theorem bind {x : Except ε α} {y : Except ε β} {f : α → Except ε γ} {g : β → Except ε δ}
    (hx : Agree R x y) (hf : ∀ a b, R a b → Agree S (f a) (g b)) :
    Agree S (x >>= f) (y >>= g) := by
  cases hx with
  | error e => exact error e
  | ok h => exact hf _ _ h

theorem mono {Q : α → β → Prop} {x : Except ε α} {y : Except ε β} (h : Agree R x y)
    (hR : ∀ a b, R a b → Q a b) : Agree Q x y := by
  cases h with
  | error e => exact error e
  | ok h => exact ok (hR _ _ h)

theorem mapM {T : γ → δ → Prop} {f : γ → Except ε α} {g : δ → Except ε β} {as : List γ}
    {bs : List δ} (hs : Forall₂ T as bs) (hf : ∀ a b, T a b → Agree R (f a) (g b)) :
    Agree (Forall₂ R) (as.mapM f) (bs.mapM g) := by
  induction hs with
  | nil => exact ok .nil
  | cons hab _ ih =>
    rw [List.mapM_cons, List.mapM_cons]
    exact (hf _ _ hab).bind fun _ _ h => ih.bind fun _ _ hs => ok (.cons h hs)

end Agree

/-! ## Compilations -/

/-- From the same names both fail with the same error, or both give related results and have handed
    out the same names. -/
def Lockstep {α β : Type} (R : α → β → Prop) (x : Compile α) (y : Compile β) : Prop :=
  ∀ n, Agree (fun p q => R p.1 q.1 ∧ p.2 = q.2) (x n) (y n)

namespace Lockstep

variable {α β γ δ : Type} {R : α → β → Prop} {S : γ → δ → Prop}

protected theorem rfl {x : Compile α} : Lockstep Eq x x := by
  intro n
  cases x n with
  | error e => exact .error e
  | ok p => exact .ok ⟨rfl, rfl⟩

theorem pure {a : α} {b : β} (h : R a b) : Lockstep R (Pure.pure a) (Pure.pure b) :=
  fun _ => .ok ⟨h, rfl⟩

theorem throw (e : QueryError) : Lockstep R (MonadExcept.throw e) (MonadExcept.throw e) :=
  fun _ => .error e

theorem lift {x : Except QueryError α} {y : Except QueryError β} (h : Agree R x y) :
    Lockstep R (liftM x) (liftM y) := by
  intro n
  cases h with
  | error e => exact .error e
  | ok h => exact .ok ⟨h, rfl⟩

theorem lift_model {x : Except ModelError α} {y : Except ModelError β} (h : Agree R x y) :
    Lockstep R (liftM x) (liftM y) := by
  intro n
  cases h with
  | error e => exact .error (QueryError.model e)
  | ok h => exact .ok ⟨h, rfl⟩

theorem bind {x : Compile α} {y : Compile β} {f : α → Compile γ} {g : β → Compile δ}
    (hx : Lockstep R x y) (hf : ∀ a b, R a b → Lockstep S (f a) (g b)) :
    Lockstep S (x >>= f) (y >>= g) := by
  intro n
  refine (hx n).bind ?_
  rintro ⟨a, m⟩ ⟨b, _⟩ ⟨h, rfl⟩
  exact hf a b h m

theorem mono {Q : α → β → Prop} {x : Compile α} {y : Compile β} (h : Lockstep R x y)
    (hR : ∀ a b, R a b → Q a b) : Lockstep Q x y :=
  fun n => (h n).mono fun _ _ h => ⟨hR _ _ h.1, h.2⟩

theorem mapM {T : γ → δ → Prop} {f : γ → Compile α} {g : δ → Compile β} {as : List γ}
    {bs : List δ} (hs : Forall₂ T as bs) (hf : ∀ a b, T a b → Lockstep R (f a) (g b)) :
    Lockstep (Forall₂ R) (as.mapM f) (bs.mapM g) := by
  induction hs with
  | nil => exact pure .nil
  | cons hab _ ih =>
    rw [List.mapM_cons, List.mapM_cons]
    exact (hf _ _ hab).bind fun _ _ h => ih.bind fun _ _ hs => pure (.cons h hs)

end Lockstep

/-! ## Drafts -/

/-- From drafts of the same masked form and the same names both fail with the same error, or both
    give related results, and have drafts of the same masked form and the same names again. -/
def DraftLockstep {α β : Type} (R : α → β → Prop) (x : Drafting α) (y : Drafting β) : Prop :=
  ∀ d d', d.masked = d'.masked →
    Lockstep (fun p q => R p.1 q.1 ∧ p.2.masked = q.2.masked) (x d) (y d')

namespace DraftLockstep

variable {α β γ δ : Type} {R : α → β → Prop} {S : γ → δ → Prop}

theorem pure {a : α} {b : β} (h : R a b) : DraftLockstep R (Pure.pure a) (Pure.pure b) :=
  fun _ _ hd => .pure ⟨h, hd⟩

theorem throw (e : QueryError) : DraftLockstep R (MonadExcept.throw e) (MonadExcept.throw e) :=
  fun _ _ _ => .throw e

theorem compile {x : Compile α} {y : Compile β} (h : Lockstep R x y) :
    DraftLockstep R (liftM x) (liftM y) := by
  intro d d' hd
  change Lockstep _ (x >>= fun a => Pure.pure (a, d)) (y >>= fun b => Pure.pure (b, d'))
  exact h.bind fun _ _ h => .pure ⟨h, hd⟩

theorem lift {x : Except QueryError α} {y : Except QueryError β} (h : Agree R x y) :
    DraftLockstep R (liftM x) (liftM y) :=
  compile (.lift h)

theorem lift_model {x : Except ModelError α} {y : Except ModelError β} (h : Agree R x y) :
    DraftLockstep R (liftM x) (liftM y) :=
  compile (.lift_model h)

theorem bind {x : Drafting α} {y : Drafting β} {f : α → Drafting γ} {g : β → Drafting δ}
    (hx : DraftLockstep R x y) (hf : ∀ a b, R a b → DraftLockstep S (f a) (g b)) :
    DraftLockstep S (x >>= f) (y >>= g) :=
  fun d d' hd => (hx d d' hd).bind fun p q h => hf p.1 q.1 h.1 p.2 q.2 h.2

/-- Drafts that are started and given up for their results. -/
theorem run' {x : Drafting α} {y : Drafting β} (h : DraftLockstep R x y) (d : Draft) :
    Lockstep R (StateT.run' x d) (StateT.run' y d) := by
  change Lockstep R (Prod.fst <$> x d) (Prod.fst <$> y d)
  rw [map_eq_pure_bind, map_eq_pure_bind]
  exact (h d d rfl).bind fun _ _ h => .pure h.1

theorem mono {Q : α → β → Prop} {x : Drafting α} {y : Drafting β} (h : DraftLockstep R x y)
    (hR : ∀ a b, R a b → Q a b) : DraftLockstep Q x y :=
  fun d d' hd => (h d d' hd).mono fun _ _ h => ⟨hR _ _ h.1, h.2⟩

theorem mapM {T : γ → δ → Prop} {f : γ → Drafting α} {g : δ → Drafting β} {as : List γ}
    {bs : List δ} (hs : Forall₂ T as bs) (hf : ∀ a b, T a b → DraftLockstep R (f a) (g b)) :
    DraftLockstep (Forall₂ R) (as.mapM f) (bs.mapM g) := by
  induction hs with
  | nil => exact pure .nil
  | cons hab _ ih =>
    rw [List.mapM_cons, List.mapM_cons]
    exact (hf _ _ hab).bind fun _ _ h => ih.bind fun _ _ hs => pure (.cons h hs)

/-- A list that both go through in the same way. -/
theorem mapM_same {f g : γ → Drafting α} (hf : ∀ a, DraftLockstep Eq (f a) (g a)) (as : List γ) :
    DraftLockstep Eq (as.mapM f) (as.mapM g) := by
  have hs : Forall₂ Eq as as := by rw [List.forall₂_eq_eq_eq]
  refine (mapM hs fun a _ h => h ▸ hf a).mono fun _ _ h => eq_of_forall₂ h

/-! ### Steps of a draft -/

theorem get : DraftLockstep (InvImage Eq Draft.masked) MonadState.get MonadState.get :=
  fun _ _ hd => .pure ⟨hd, hd⟩

theorem selectExpr {e e' : Sql.Expr} (h : e.masked = e'.masked) :
    DraftLockstep Eq (selectExpr e) (selectExpr e') := by
  refine (compile .rfl).bind ?_
  rintro name _ rfl d d' hd
  have hdraft : (d.withColumn (e.as name)).masked = (d'.withColumn (e'.as name)).masked := by
    rw [Draft.withColumn_masked, Draft.withColumn_masked, Sql.Expr.as_masked, Sql.Expr.as_masked,
      hd, h]
  exact .pure ⟨rfl, hdraft⟩

theorem selectColumn (c : Sql.Column) : DraftLockstep Eq (selectColumn c) (selectColumn c) := by
  refine get.bind fun d d' (hd : d.masked = d'.masked) => ?_
  have hname : d.nameOf? c = d'.nameOf? c := by
    rw [← d.nameOf?_masked, ← d'.nameOf?_masked, hd]
  rw [hname]
  cases d'.nameOf? c with
  | some name => exact pure rfl
  | none => exact selectExpr rfl

theorem joinLateral {s s' : Sql.Select} (h : s.masked = s'.masked) (name : String) :
    DraftLockstep Eq (joinLateral s name) (joinLateral s' name) := by
  intro d d' hd
  have hdraft : (d.withLateral s name).masked = (d'.withLateral s' name).masked := by
    rw [Draft.withLateral_masked, Draft.withLateral_masked, hd, h]
  exact .pure ⟨rfl, hdraft⟩

end DraftLockstep

end LateralSql
