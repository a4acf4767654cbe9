/-
  Simplified conditions: what they are worth, and what they look like.

  Truth values for the atomic expressions give every condition a truth value (`Cond.worth`).  The
  simplifying connectives are Kleene's on all conditions, and on those that they build themselves
  (`Cond.Built`) they keep a normal form (`Cond.isNormal`): a condition that always or never holds
  is so as a whole, and below that no connective stands directly under itself.
-/
import LateralSql.Proofs.Connectives

namespace LateralSql.Sql

/-! ## Worth -/

mutual

/-- The truth of an expression, where `v` gives the truth of the atomic ones. -/
def Expr.worth (v : Expr → Truth) : Expr → Truth
  | .cond c => c.worth v
  | .named e _ => e.worth v
  | e => v e
termination_by structural e => e

/-- The truths of expressions, where `v` gives the truth of the atomic ones. -/
def worths (v : Expr → Truth) : List Expr → List Truth
  | [] => []
  | e :: es => e.worth v :: worths v es
termination_by structural es => es

/-- The truth of a condition, where `v` gives the truth of the atomic expressions. -/
def Cond.worth (v : Expr → Truth) : Cond → Truth
  | .and es => .all (worths v es)
  | .or es => .any (worths v es)
  | .not e => (e.worth v).not
  | .single e => e.worth v
  | .always => .yes
  | .never => .no
termination_by structural c => c

end

theorem worths_eq_map (v : Expr → Truth) (es : List Expr) : worths v es = es.map (·.worth v) := by
  induction es with
  | nil => rfl
  | cons e es ih => rw [worths, ih, List.map_cons]

theorem mapM_worth (v : Expr → Truth) (es : List Expr) :
    es.mapM (fun e => some (e.worth v)) = some (worths v es) := by
  rw [worths_eq_map]
  exact mapM_some fun _ _ => rfl

/-- Truth values for the atomic expressions are a valuation. -/
def Valuation.ofAtoms (v : Expr → Truth) : Valuation where
  cond c := some (c.worth v)
  expr e := some (e.worth v)
  cond_and es := by rw [mapM_worth, Cond.worth]; rfl
  cond_or es := by rw [mapM_worth, Cond.worth]; rfl
  cond_not e := by rw [Cond.worth]; rfl
  cond_single e := by rw [Cond.worth]
  cond_always := by rw [Cond.worth]
  cond_never := by rw [Cond.worth]
  expr_cond c := by rw [Expr.worth]
  expr_named e name := by rw [Expr.worth]

namespace Cond

section
variable (v : Expr → Truth)

theorem mapM_cond_ofAtoms (cs : List Cond) :
    cs.mapM (Valuation.ofAtoms v).cond = some (cs.map (·.worth v)) :=
  mapM_some fun _ _ => rfl

theorem worth_all (cs : List Cond) : (all cs).worth v = .all (cs.map (·.worth v)) :=
  Option.some.inj ((Valuation.ofAtoms v).cond_all (mapM_cond_ofAtoms v cs))

theorem worth_any (cs : List Cond) : (any cs).worth v = .any (cs.map (·.worth v)) :=
  Option.some.inj ((Valuation.ofAtoms v).cond_any (mapM_cond_ofAtoms v cs))

theorem worth_both (c d : Cond) : (c.both d).worth v = (c.worth v).and (d.worth v) :=
  Option.some.inj ((Valuation.ofAtoms v).cond_both rfl rfl)

theorem worth_negate (c : Cond) : c.negate.worth v = (c.worth v).not :=
  Option.some.inj ((Valuation.ofAtoms v).cond_negate rfl)

end

end Cond

/-! ## Normal form -/

/-- The condition is a conjunction. -/
def Cond.isAnd : Cond → Bool
  | and _ => true
  | _ => false

/-- The condition is a disjunction. -/
def Cond.isOr : Cond → Bool
  | or _ => true
  | _ => false

/-- The condition is a negation. -/
def Cond.isNot : Cond → Bool
  | not _ => true
  | _ => false

namespace Expr

/-- The condition that an expression is, with a name or without. -/
def cond? (e : Expr) : Option Cond :=
  match e.bare with
  | cond c => some c
  | _ => none

/-- The expression is no condition. -/
def isAtomic (e : Expr) : Bool := e.cond?.isNone

end Expr

mutual

/-- The expression is atomic, or a condition that may be part of another one. -/
def Expr.isProper : Expr → Bool
  | .cond c => c.isProper
  | .named e _ => e.isProper
  | _ => true
termination_by structural e => e

/-- All of the expressions may be part of a condition. -/
def allProper : List Expr → Bool
  | [] => true
  | e :: es => e.isProper && allProper es
termination_by structural es => es

/-- A condition in normal form that may be part of another one. -/
def Cond.isProper : Cond → Bool
  | .and es => decide (2 ≤ es.length) && es.all (!·.cond?.any Cond.isAnd) && allProper es
  | .or es => decide (2 ≤ es.length) && es.all (!·.cond?.any Cond.isOr) && allProper es
  | .not e => !e.cond?.any Cond.isNot && e.isProper
  | .single e => e.isAtomic
  | .always | .never => false
termination_by structural c => c

end

/-- Conjunctions and disjunctions have two members or more, of which none is of the same kind, no
    negation is negated, single expressions are atomic, and a condition that always or never holds
    is part of no other. -/
def Cond.isNormal : Cond → Bool
  | always | never => true
  | c => c.isProper

theorem allProper_iff {es : List Expr} : allProper es = true ↔ ∀ e ∈ es, e.isProper = true := by
  induction es with
  | nil => simp [allProper]
  | cons e es ih => simp [allProper, ih]

namespace Cond

theorem isNormal_of_isProper {c : Cond} (h : c.isProper = true) : c.isNormal = true := by
  cases c <;> first | exact h | rfl

theorem isProper_ofExpr {e : Expr} (h : e.isProper = true) : (ofExpr e).isProper = true := by
  unfold ofExpr
  split
  · next c hbare =>
    cases e with
    | cond c' => cases hbare; exact h
    | named e name => cases hbare; exact h
    | _ => cases hbare
  · next hbare =>
    have hatomic : e.cond? = none := by
      unfold Expr.cond?
      split
      · next c hc => exact absurd hc (hbare c)
      · rfl
    rw [isProper, Expr.isAtomic, hatomic]
    rfl

end Cond

/-- The members are in normal form, and none is a condition of the given kind. -/
def NormalMembers (kind : Cond → Bool) (es : List Expr) : Prop :=
  ∀ e ∈ es, e.isProper = true ∧ e.cond?.any kind = false

theorem normalMembers_iff {kind : Cond → Bool} {es : List Expr} :
    (es.all (!·.cond?.any kind) && allProper es) = true ↔ NormalMembers kind es := by
  rw [Bool.and_eq_true, List.all_eq_true, allProper_iff]
  constructor
  · rintro ⟨hkind, hproper⟩ e he
    exact ⟨hproper e he, by simpa using hkind e he⟩
  · intro h
    exact ⟨fun e he => by simpa using (h e he).2, fun e he => (h e he).1⟩

/-- A list that is neither empty nor of one element has two. -/
theorem two_le_length {α : Type} {as : List α} (hnil : as ≠ []) (hsingle : ∀ a, as ≠ [a]) :
    2 ≤ as.length := by
  rcases as with _ | ⟨a, _ | ⟨b, as⟩⟩
  · exact absurd rfl hnil
  · exact absurd rfl (hsingle a)
  · simp

namespace Cond

theorem isProper_and {es : List Expr} :
    (and es).isProper = true ↔ 2 ≤ es.length ∧ NormalMembers isAnd es := by
  rw [isProper, Bool.and_assoc, Bool.and_eq_true, normalMembers_iff, decide_eq_true_iff]

theorem isProper_or {es : List Expr} :
    (or es).isProper = true ↔ 2 ≤ es.length ∧ NormalMembers isOr es := by
  rw [isProper, Bool.and_assoc, Bool.and_eq_true, normalMembers_iff, decide_eq_true_iff]

/-- A proper condition of another kind is a member on its own. -/
theorem normalMembers_single {kind : Cond → Bool} {c : Cond} (h : c.isProper = true)
    (hkind : kind c = false) : NormalMembers kind [.cond c] := by
  intro e he
  obtain rfl := List.mem_singleton.1 he
  exact ⟨h, hkind⟩

theorem normalMembers_conjuncts {c : Cond} (h : c.isNormal = true) (hnever : c.isNever = false) :
    NormalMembers isAnd c.conjuncts := by
  cases c with
  | always => simp [conjuncts, NormalMembers]
  | never => cases hnever
  | and es => exact (isProper_and.1 h).2
  | or _ | not _ | single _ => exact normalMembers_single h rfl

theorem normalMembers_disjuncts {c : Cond} (h : c.isNormal = true) (halways : c.isAlways = false) :
    NormalMembers isOr c.disjuncts := by
  cases c with
  | always => cases halways
  | never => simp [disjuncts, NormalMembers]
  | or es => exact (isProper_or.1 h).2
  | and _ | not _ | single _ => exact normalMembers_single h rfl

/-- What several conditions add is in normal form if what each of them adds is. -/
theorem normalMembers_flatMap {kind decides : Cond → Bool} {parts : Cond → List Expr}
    {cs : List Cond} (hparts : ∀ c ∈ cs, decides c = false → NormalMembers kind (parts c))
    (h : ¬ cs.any decides = true) : NormalMembers kind (cs.flatMap parts) := by
  intro e he
  obtain ⟨c, hc, he⟩ := List.mem_flatMap.1 he
  have hdecides : decides c = false := by
    simpa using fun heq => h (List.any_eq_true.2 ⟨c, hc, heq⟩)
  exact hparts c hc hdecides e he

theorem isProper_of_member {kind : Cond → Bool} {e : Expr} (h : NormalMembers kind [e]) :
    (ofExpr e).isProper = true :=
  isProper_ofExpr (h e (List.mem_singleton_self e)).1

theorem conjuncts_ne_nil {c : Cond} (h : c.isProper = true) : c.conjuncts ≠ [] := by
  cases c with
  | always | never => cases h
  | and es => exact List.ne_nil_of_length_pos (Nat.lt_of_lt_of_le Nat.two_pos (isProper_and.1 h).1)
  | or _ | not _ | single _ => exact List.cons_ne_nil _ _

theorem disjuncts_ne_nil {c : Cond} (h : c.isProper = true) : c.disjuncts ≠ [] := by
  cases c with
  | always | never => cases h
  | or es => exact List.ne_nil_of_length_pos (Nat.lt_of_lt_of_le Nat.two_pos (isProper_or.1 h).1)
  | and _ | not _ | single _ => exact List.cons_ne_nil _ _

/-- A conjunction is open if one of its conditions is, and none never holds. -/
theorem isProper_all {cs : List Cond} (h : ∀ c ∈ cs, c.isNormal = true)
    (hnever : ¬ cs.any isNever = true) (hopen : ∃ c ∈ cs, c.isProper = true) :
    (all cs).isProper = true := by
  have hmembers := normalMembers_flatMap (fun c hc => normalMembers_conjuncts (h c hc)) hnever
  rw [all, if_neg hnever]
  split
  · next hnil =>
    obtain ⟨c, hc, hproper⟩ := hopen
    exact absurd (List.flatMap_eq_nil_iff.1 hnil c hc) (conjuncts_ne_nil hproper)
  · next e hes => exact isProper_of_member (hes ▸ hmembers)
  · next hnil hsingle => exact isProper_and.2 ⟨two_le_length hnil hsingle, hmembers⟩

/-- A disjunction is open if one of its conditions is, and none always holds. -/
theorem isProper_any {cs : List Cond} (h : ∀ c ∈ cs, c.isNormal = true)
    (halways : ¬ cs.any isAlways = true) (hopen : ∃ c ∈ cs, c.isProper = true) :
    (any cs).isProper = true := by
  have hmembers := normalMembers_flatMap (fun c hc => normalMembers_disjuncts (h c hc)) halways
  rw [any, if_neg halways]
  split
  · next hnil =>
    obtain ⟨c, hc, hproper⟩ := hopen
    exact absurd (List.flatMap_eq_nil_iff.1 hnil c hc) (disjuncts_ne_nil hproper)
  · next e hes => exact isProper_of_member (hes ▸ hmembers)
  · next hnil hsingle => exact isProper_or.2 ⟨two_le_length hnil hsingle, hmembers⟩

theorem isNormal_iff {c : Cond} :
    c.isNormal = true ↔ c = always ∨ c = never ∨ c.isProper = true := by
  cases c <;> simp [isNormal, isProper]

theorem isNever_iff {c : Cond} : c.isNever = true ↔ c = never := by
  cases c <;> simp [isNever]

theorem isAlways_iff {c : Cond} : c.isAlways = true ↔ c = always := by
  cases c <;> simp [isAlways]

theorem any_isNever {cs : List Cond} : cs.any isNever = true ↔ never ∈ cs := by
  simp [List.any_eq_true, isNever_iff]

theorem any_isAlways {cs : List Cond} : cs.any isAlways = true ↔ always ∈ cs := by
  simp [List.any_eq_true, isAlways_iff]

theorem all_eq_always {cs : List Cond} (h : ∀ c ∈ cs, c = always) : all cs = always := by
  have hnever : ¬ cs.any isNever = true := fun hany => by cases h _ (any_isNever.1 hany)
  have hnil : cs.flatMap conjuncts = [] := by
    refine List.flatMap_eq_nil_iff.2 fun c hc => ?_
    rw [h c hc]
    rfl
  rw [all, if_neg hnever, hnil]

theorem any_eq_never {cs : List Cond} (h : ∀ c ∈ cs, c = never) : any cs = never := by
  have halways : ¬ cs.any isAlways = true := fun hany => by cases h _ (any_isAlways.1 hany)
  have hnil : cs.flatMap disjuncts = [] := by
    refine List.flatMap_eq_nil_iff.2 fun c hc => ?_
    rw [h c hc]
    rfl
  rw [any, if_neg halways, hnil]

theorem isNormal_all {cs : List Cond} (h : ∀ c ∈ cs, c.isNormal = true) :
    (all cs).isNormal = true := by
  by_cases hnever : cs.any isNever = true
  · rw [all, if_pos hnever]
    rfl
  · by_cases hopen : ∃ c ∈ cs, c.isProper = true
    · exact isNormal_of_isProper (isProper_all h hnever hopen)
    · rw [all_eq_always fun c hc => ?_]
      · rfl
      · rcases isNormal_iff.1 (h c hc) with halways | rfl | hproper
        · exact halways
        · exact absurd (any_isNever.2 hc) hnever
        · exact absurd ⟨c, hc, hproper⟩ hopen

theorem isNormal_any {cs : List Cond} (h : ∀ c ∈ cs, c.isNormal = true) :
    (any cs).isNormal = true := by
  by_cases halways : cs.any isAlways = true
  · rw [any, if_pos halways]
    rfl
  · by_cases hopen : ∃ c ∈ cs, c.isProper = true
    · exact isNormal_of_isProper (isProper_any h halways hopen)
    · rw [any_eq_never fun c hc => ?_]
      · rfl
      · rcases isNormal_iff.1 (h c hc) with rfl | hnever | hproper
        · exact absurd (any_isAlways.2 hc) halways
        · exact hnever
        · exact absurd ⟨c, hc, hproper⟩ hopen

theorem isProper_negate {c : Cond} (h : c.isProper = true) : c.negate.isProper = true := by
  cases c with
  | always | never => cases h
  | not e => exact isProper_ofExpr (Bool.and_eq_true_iff.1 h).2
  | and _ | or _ | single _ => exact h

theorem isNormal_negate {c : Cond} (h : c.isNormal = true) : c.negate.isNormal = true := by
  rcases isNormal_iff.1 h with rfl | rfl | hproper
  · rfl
  · rfl
  · exact isNormal_of_isProper (isProper_negate hproper)

/-- The conditions that the simplifying connectives build from atomic expressions. -/
inductive Built : Cond → Prop
  | single {e : Expr} : e.isAtomic = true → Built (single e)
  | always : Built always
  | never : Built never
  | all {cs : List Cond} : (∀ c ∈ cs, Built c) → Built (all cs)
  | any {cs : List Cond} : (∀ c ∈ cs, Built c) → Built (any cs)
  | both {c d : Cond} : Built c → Built d → Built (c.both d)
  | negate {c : Cond} : Built c → Built c.negate

theorem Built.isNormal {c : Cond} (h : c.Built) : c.isNormal = true := by
  induction h with
  | single hatomic => exact hatomic
  | always | never => rfl
  | all _ ih => exact isNormal_all ih
  | any _ ih => exact isNormal_any ih
  | both _ _ ihc ihd => exact isNormal_all (by simp [ihc, ihd])
  | negate _ ih => exact isNormal_negate ih

end Cond

/-- **Simplification keeps meaning and a normal form.**  Whatever is true, false or unknown of the
    atomic expressions, the connectives are Kleene's on all conditions.  The conditions that they
    build from atomic expressions are in normal form. -/
theorem simplified_conditions :
    (∀ v : Expr → Truth,
      (∀ cs, (Cond.all cs).worth v = .all (cs.map (·.worth v))) ∧
      (∀ cs, (Cond.any cs).worth v = .any (cs.map (·.worth v))) ∧
      (∀ c d, (Cond.both c d).worth v = (c.worth v).and (d.worth v)) ∧
      (∀ c, (Cond.negate c).worth v = (c.worth v).not) ∧
      Cond.always.worth v = .yes ∧ Cond.never.worth v = .no) ∧
    ∀ c : Cond, c.Built → c.isNormal = true :=
  ⟨fun v => ⟨Cond.worth_all v, Cond.worth_any v, Cond.worth_both v, Cond.worth_negate v, rfl, rfl⟩,
    fun _ h => h.isNormal⟩

/-- The column is null. -/
def absent (name : String) : Cond := .single (.isNull (.column { name }))

/-- A conjunction inside of two negations, and a disjunction with a member that never holds. -/
def layered : Cond :=
  .all [((absent "a").both (.all [.always, absent "b"])).negate.negate,
    .any [.never, (absent "c").negate]]

/-- The layers are flattened, also where the truth of a member is unknown. -/
theorem simplified_conditions_layered :
    layered.Built ∧ layered.isNormal = true ∧
    layered = .and [.cond (absent "a"), .cond (absent "b"), .cond (.not (.cond (absent "c")))] ∧
    ∀ v : Expr → Truth, (absent "a").worth v = .yes → (absent "b").worth v = .yes →
      (absent "c").worth v = .unknown → layered.worth v = .unknown := by
  have hatom (name : String) : (absent name).Built := .single rfl
  have hbuilt : layered.Built := by
    refine .all (List.forall_mem_cons.2 ⟨?_, List.forall_mem_cons.2 ⟨?_, by simp⟩⟩)
    · refine .negate (.negate (.both (hatom "a") (.all ?_)))
      exact List.forall_mem_cons.2 ⟨.always, List.forall_mem_cons.2 ⟨hatom "b", by simp⟩⟩
    · refine .any (List.forall_mem_cons.2 ⟨.never, List.forall_mem_cons.2 ⟨?_, by simp⟩⟩)
      exact (hatom "c").negate
  obtain ⟨hworth, hnormal⟩ := simplified_conditions
  refine ⟨hbuilt, hnormal layered hbuilt, rfl, fun v ha hb hc => ?_⟩
  obtain ⟨hall, hany, hboth, hnegate, halways, hnever⟩ := hworth v
  simp [layered, hall, hany, hboth, hnegate, halways, hnever, ha, hb, hc, Truth.not]

end LateralSql.Sql
