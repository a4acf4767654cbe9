/-
  The simplifying connectives keep the meaning of conditions.

  A `Valuation` gives truth values to conditions and to the expressions in them, such that
  the connectives of the tree are Kleene's.  Under any valuation, `Cond.all`, `Cond.any` and
  `Cond.negate` are conjunction, disjunction and negation, whatever they drop, flatten or
  cancel.  A database is a valuation wherever tables are bound (`Database.valuation`).
-/
import LateralSql.Proofs.Evaluation

namespace LateralSql

namespace Sql

/-- Truth values of conditions and expressions, by which the connectives are those of Kleene.  Where
    there is none, the condition cannot be decided. -/
structure Valuation where
  cond : Cond → Option Truth
  expr : Expr → Option Truth
  cond_and : ∀ es, cond (.and es) = (es.mapM expr).map .all
  cond_or : ∀ es, cond (.or es) = (es.mapM expr).map .any
  cond_not : ∀ e, cond (.not e) = (expr e).map .not
  cond_single : ∀ e, cond (.single e) = expr e
  cond_always : cond .always = some .yes
  cond_never : cond .never = some .no
  expr_cond : ∀ c, expr (.cond c) = cond c
  expr_named : ∀ e name, expr (.named e name) = expr e

/-! ## Lists of truth values -/

theorem mem_of_mapM {α β : Type} {f : α → Option β} {as : List α} {bs : List β}
    (h : as.mapM f = some bs) {a : α} (ha : a ∈ as) : ∃ b ∈ bs, f a = some b := by
  induction as generalizing bs with
  | nil => simp at ha
  | cons a' as ih =>
    simp only [List.mapM_cons, Option.bind_eq_bind, Option.bind_eq_some_iff] at h
    obtain ⟨b, hb, bs', hbs, h⟩ := h
    obtain rfl := Option.some.inj h
    rcases List.mem_cons.1 ha with rfl | ha
    · exact ⟨b, by simp, hb⟩
    · obtain ⟨b', hb', hf⟩ := ih hbs ha; exact ⟨b', by simp [hb'], hf⟩

namespace Valuation

variable (v : Valuation)

/-- A condition made of an expression means what the expression does. -/
theorem cond_ofExpr (e : Expr) : v.cond (Cond.ofExpr e) = v.expr e := by
  unfold Cond.ofExpr
  split
  · next c h =>
    cases e with
    | cond c' => simp only [Expr.bare] at h; cases h; exact (v.expr_cond c).symm
    | named e' name =>
      simp only [Expr.bare] at h
      rw [v.expr_named, h, v.expr_cond]
    | _ => simp [Expr.bare] at h
  · exact v.cond_single e

/-- A single expression among truth values. -/
theorem expr_of_mapM {e : Expr} {us : List Truth} (h : [e].mapM v.expr = some us) :
    ∃ u, v.expr e = some u ∧ us = [u] := by
  simp only [List.mapM_cons, List.mapM_nil, Option.bind_eq_bind, Option.bind_eq_some_iff] at h
  obtain ⟨u, hu, _, hnil, h⟩ := h
  cases hnil; cases h
  exact ⟨u, hu, rfl⟩

/-- Replacing each condition by parts that are worth as much together keeps what the list is worth.
    -/
theorem flatMap_parts {parts : Cond → List Expr} {f : List Truth → Truth}
    {g : Truth → Truth → Truth} (hcons : ∀ t ts, f (t :: ts) = g t (f ts))
    (happend : ∀ ts us, f (ts ++ us) = g (f ts) (f us))
    (hparts : ∀ {c t}, v.cond c = some t → ∃ us, (parts c).mapM v.expr = some us ∧ f us = t)
    {cs : List Cond} {ts : List Truth} (h : cs.mapM v.cond = some ts) :
    ∃ us, (cs.flatMap parts).mapM v.expr = some us ∧ f us = f ts := by
  induction cs generalizing ts with
  | nil => cases h; exact ⟨[], rfl, rfl⟩
  | cons c cs ih =>
    simp only [List.mapM_cons, Option.bind_eq_bind, Option.bind_eq_some_iff] at h
    obtain ⟨t, ht, ts', hts, h⟩ := h
    obtain rfl := Option.some.inj h
    obtain ⟨us, hus, rfl⟩ := hparts ht
    obtain ⟨us', hus', heq⟩ := ih hts
    refine ⟨us ++ us', ?_, ?_⟩
    · rw [List.flatMap_cons, List.mapM_append, hus, hus']; rfl
    · rw [happend, heq, hcons]

/-! ## Conjunction -/

/-- What a condition adds to a conjunction is worth as much as the condition. -/
theorem conjuncts {c : Cond} {t : Truth} (h : v.cond c = some t) :
    ∃ us, c.conjuncts.mapM v.expr = some us ∧ Truth.all us = t := by
  cases c with
  | always => rw [v.cond_always] at h; cases h; exact ⟨[], rfl, rfl⟩
  | and es =>
    rw [v.cond_and, Option.map_eq_some_iff] at h
    exact h
  | or _ | not _ | single _ | never =>
    exact ⟨[t], by simp [Cond.conjuncts, v.expr_cond, h], Truth.and_yes t⟩

/-- **`Cond.all` is conjunction.** -/
theorem cond_all {cs : List Cond} {ts : List Truth} (h : cs.mapM v.cond = some ts) :
    v.cond (Cond.all cs) = some (Truth.all ts) := by
  unfold Cond.all
  split_ifs with hn
  · obtain ⟨c, hc, hnever⟩ := List.any_eq_true.1 hn
    cases c <;> simp [Cond.isNever] at hnever
    obtain ⟨t, ht, h'⟩ := mem_of_mapM h hc
    rw [v.cond_never] at h' ⊢
    cases h'
    rw [Truth.all_of_no ht]
  · obtain ⟨us, hus, heq⟩ := v.flatMap_parts Truth.all_cons Truth.all_append v.conjuncts h
    rw [← heq]
    split
    · next hes => rw [hes] at hus; cases hus; exact v.cond_always
    · next e hes =>
      rw [hes] at hus
      obtain ⟨u, hu, rfl⟩ := v.expr_of_mapM hus
      rw [v.cond_ofExpr, hu, Truth.all_cons, Truth.all_nil, Truth.and_yes]
    · rw [v.cond_and, hus]; rfl

theorem cond_both {c d : Cond} {s t : Truth} (hc : v.cond c = some s) (hd : v.cond d = some t) :
    v.cond (c.both d) = some (s.and t) := by
  have h : [c, d].mapM v.cond = some [s, t] := by simp [hc, hd]
  rw [Cond.both, v.cond_all h, Truth.all_cons, Truth.all_cons, Truth.all_nil, Truth.and_yes]

/-! ## Disjunction -/

/-- What a condition adds to a disjunction is worth as much as the condition. -/
theorem disjuncts {c : Cond} {t : Truth} (h : v.cond c = some t) :
    ∃ us, c.disjuncts.mapM v.expr = some us ∧ Truth.any us = t := by
  cases c with
  | never => rw [v.cond_never] at h; cases h; exact ⟨[], rfl, rfl⟩
  | or es =>
    rw [v.cond_or, Option.map_eq_some_iff] at h
    exact h
  | and _ | not _ | single _ | always =>
    exact ⟨[t], by simp [Cond.disjuncts, v.expr_cond, h], Truth.or_no t⟩

/-- **`Cond.any` is disjunction.** -/
theorem cond_any {cs : List Cond} {ts : List Truth} (h : cs.mapM v.cond = some ts) :
    v.cond (Cond.any cs) = some (Truth.any ts) := by
  unfold Cond.any
  split_ifs with hn
  · obtain ⟨c, hc, halways⟩ := List.any_eq_true.1 hn
    cases c <;> simp [Cond.isAlways] at halways
    obtain ⟨t, ht, h'⟩ := mem_of_mapM h hc
    rw [v.cond_always] at h' ⊢
    cases h'
    rw [Truth.any_of_yes ht]
  · obtain ⟨us, hus, heq⟩ := v.flatMap_parts Truth.any_cons Truth.any_append v.disjuncts h
    rw [← heq]
    split
    · next hes => rw [hes] at hus; cases hus; exact v.cond_never
    · next e hes =>
      rw [hes] at hus
      obtain ⟨u, hu, rfl⟩ := v.expr_of_mapM hus
      rw [v.cond_ofExpr, hu, Truth.any_cons, Truth.any_nil, Truth.or_no]
    · rw [v.cond_or, hus]; rfl

/-! ## Negation -/

/-- **`Cond.negate` is negation.** -/
theorem cond_negate {c : Cond} {t : Truth} (h : v.cond c = some t) :
    v.cond c.negate = some t.not := by
  cases c with
  | always => rw [v.cond_always] at h; cases h; exact v.cond_never
  | never => rw [v.cond_never] at h; cases h; exact v.cond_always
  | not e =>
    rw [v.cond_not, Option.map_eq_some_iff] at h
    obtain ⟨u, hu, rfl⟩ := h
    rw [Cond.negate, v.cond_ofExpr, hu, Truth.not_not]
  | and _ | or _ | single _ => simp [Cond.negate, v.cond_not, v.expr_cond, h]

end Valuation

end Sql

/-! ## Evaluation -/

open Sql

/-- The truth values that a database gives where the tables of `env` are bound. -/
def Database.valuation (db : Database) (env : Bindings) : Valuation where
  cond c := c.truth db env
  expr e := e.truth db env
  cond_and es := by rw [Cond.truth, truths_eq_mapM]
  cond_or es := by rw [Cond.truth, truths_eq_mapM]
  cond_not e := by rw [Cond.truth]
  cond_single e := by rw [Cond.truth]
  cond_always := by rw [Cond.truth]
  cond_never := by rw [Cond.truth]
  expr_cond c := by rw [Expr.truth]
  expr_named e name := by rw [Expr.truth]

end LateralSql
