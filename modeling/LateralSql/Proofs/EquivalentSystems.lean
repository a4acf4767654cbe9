/-
  Reference systems that are registered as equivalent.

  A call gives a partner to both of its identifiers, but the second one keeps a partner that it has
  already.  After any calls an identifier has the partner from the last call that names it first,
  else that from the first call that names it second (`equivalent?_registered`), and partners do
  not always have each other (`mutual_withEquivalent_iff`).
-/
import Mathlib.Data.List.Induction
import LateralSql.Geometry.Crs

namespace LateralSql.CrsRegistry

/-! ## Calls -/

/-- A call that adds to a registry. -/
inductive Registration where
  | suffix (srid : Srid) (suffix : String)
  | equivalent (srid equivalent : Srid)
  deriving Repr, DecidableEq

namespace Registration

/-- The partner that a call names after `s`. -/
def after? (s : Srid) : Registration → Option Srid
  | suffix _ _ => none
  | equivalent a b => if a = s then some b else none

/-- The partner that a call names before `s`. -/
def before? (s : Srid) : Registration → Option Srid
  | suffix _ _ => none
  | equivalent a b => if b = s then some a else none

end Registration

/-- The registry after one call. -/
def register (r : CrsRegistry) : Registration → CrsRegistry
  | .suffix srid suffix => r.withSuffix srid suffix
  | .equivalent srid equivalent => r.withEquivalent srid equivalent

/-- The registry after some calls. -/
def registered (calls : List Registration) : CrsRegistry := calls.foldl register {}

theorem registered_concat (calls : List Registration) (c : Registration) :
    registered (calls ++ [c]) = (registered calls).register c := by
  rw [registered, List.foldl_append]
  rfl

/-! ## One call -/

theorem lookup_filter_ne {α : Type} {srid key : Srid} (h : key ≠ srid) (entries : List (Srid × α)) :
    (entries.filter fun e => e.1 ≠ srid).lookup key = entries.lookup key := by
  induction entries with
  | nil => rfl
  | cons e entries ih =>
    by_cases he : e.1 = srid
    · have hkey : (key == e.1) = false := beq_false_of_ne fun heq => h (heq.trans he)
      rw [List.filter_cons_of_neg (by simp [he]), List.lookup_cons, hkey, ih]
    · rw [List.filter_cons_of_pos (by simp [he]), List.lookup_cons, List.lookup_cons, ih]

theorem lookup_set {α : Type} (srid key : Srid) (a : α) (entries : List (Srid × α)) :
    (set srid a entries).lookup key = if key = srid then some a else entries.lookup key := by
  rw [set, List.lookup_cons]
  by_cases h : key = srid
  · simp [h]
  · rw [beq_false_of_ne h, if_neg h]
    exact lookup_filter_ne h entries

/-- The first identifier gets the second one, which keeps a partner that it has. -/
theorem equivalent?_withEquivalent (r : CrsRegistry) (a b s : Srid) :
    (r.withEquivalent a b).equivalent? s =
      if s = a then some b else if s = b then some ((r.equivalent? b).getD a)
      else r.equivalent? s := by
  unfold withEquivalent
  dsimp only
  cases hb : (set a b r.equivalents).lookup b with
  | some t =>
    rw [equivalent?, lookup_set]
    rw [lookup_set] at hb
    by_cases hsa : s = a
    · rw [if_pos hsa, if_pos hsa]
    · rw [if_neg hsa, if_neg hsa]
      by_cases hsb : s = b
      · subst hsb
        rw [if_neg hsa] at hb
        rw [if_pos rfl, equivalent?, hb]
        rfl
      · rw [if_neg hsb, equivalent?]
  | none =>
    rw [lookup_set] at hb
    by_cases hba : b = a
    · rw [if_pos hba] at hb
      cases hb
    · rw [if_neg hba] at hb
      rw [equivalent?, lookup_set, lookup_set, equivalent?, equivalent?, hb]
      by_cases hsa : s = a
      · have hsb : s ≠ b := fun heq => hba (heq.symm.trans hsa)
        rw [if_neg hsb, if_pos hsa, if_pos hsa]
      · rw [if_neg hsa, if_neg hsa]
        rfl

/-- **An identifier has the partner from the last call that names it first**, else that from the
    first call that names it second. -/
theorem equivalent?_registered (calls : List Registration) (s : Srid) :
    (registered calls).equivalent? s =
      (calls.reverse.findSome? (·.after? s)).or (calls.findSome? (·.before? s)) := by
  induction calls using List.reverseRecOn generalizing s with
  | nil => rfl
  | append_singleton calls c ih =>
    rw [registered_concat, List.reverse_concat, List.findSome?_cons, List.findSome?_append]
    cases c with
    | suffix srid suffix =>
      refine (ih s).trans ?_
      simp [Registration.after?, Registration.before?]
    | equivalent a b =>
      rw [register, equivalent?_withEquivalent]
      by_cases hsa : s = a
      · simp [hsa, Registration.after?]
      · rw [if_neg hsa]
        have hafter : Registration.after? s (.equivalent a b) = none := by
          simp [Registration.after?, Ne.symm hsa]
        rw [hafter]
        by_cases hsb : s = b
        · subst hsb
          rw [if_pos rfl, ih s]
          cases List.findSome? (·.after? s) calls.reverse <;>
            cases List.findSome? (·.before? s) calls <;> simp [Registration.before?]
        · rw [if_neg hsb, ih s]
          simp [Registration.before?, Ne.symm hsb]

/-! ## Partners that have each other -/

/-- Every identifier is the partner of its partner. -/
def Mutual (r : CrsRegistry) : Prop :=
  ∀ s t, r.equivalent? s = some t → r.equivalent? t = some s

/-- The second identifier has no other partner that it would keep. -/
def Accepts (r : CrsRegistry) (a b : Srid) : Prop := a ≠ b → ∀ t ∈ r.equivalent? b, t = a

/-- The other identifiers have each other for partners, and not one of the two. -/
def PairsOthers (r : CrsRegistry) (a b : Srid) : Prop :=
  ∀ s t, s ≠ a → s ≠ b → r.equivalent? s = some t → t ≠ a ∧ t ≠ b ∧ r.equivalent? t = some s

theorem equivalent?_first (r : CrsRegistry) (a b : Srid) :
    (r.withEquivalent a b).equivalent? a = some b := by
  rw [equivalent?_withEquivalent, if_pos rfl]

theorem equivalent?_second_iff (r : CrsRegistry) (a b : Srid) :
    (r.withEquivalent a b).equivalent? b = some a ↔ r.Accepts a b := by
  rw [equivalent?_withEquivalent, Accepts]
  by_cases hba : b = a
  · simp [hba]
  · rw [if_neg hba, if_pos rfl]
    cases r.equivalent? b with
    | none => simp
    | some t => simp [Ne.symm hba]

theorem equivalent?_other (r : CrsRegistry) {a b s : Srid} (hsa : s ≠ a) (hsb : s ≠ b) :
    (r.withEquivalent a b).equivalent? s = r.equivalent? s := by
  rw [equivalent?_withEquivalent, if_neg hsa, if_neg hsb]

/-- **When all partners have each other after a call.** -/
theorem mutual_withEquivalent_iff (r : CrsRegistry) (a b : Srid) :
    (r.withEquivalent a b).Mutual ↔ r.Accepts a b ∧ r.PairsOthers a b := by
  constructor
  · intro h
    have hfirst := r.equivalent?_first a b
    have hsecond := h a b hfirst
    refine ⟨(r.equivalent?_second_iff a b).1 hsecond, fun s t hsa hsb hst => ?_⟩
    have hts := h s t (by rw [r.equivalent?_other hsa hsb, hst])
    have hta : t ≠ a := by
      rintro rfl
      exact hsb (Option.some.inj (hts.symm.trans hfirst))
    have htb : t ≠ b := by
      rintro rfl
      exact hsa (Option.some.inj (hts.symm.trans hsecond))
    rw [r.equivalent?_other hta htb] at hts
    exact ⟨hta, htb, hts⟩
  · rintro ⟨haccepts, hothers⟩ s t hst
    have hsecond := (r.equivalent?_second_iff a b).2 haccepts
    by_cases hsa : s = a
    · subst hsa
      rw [equivalent?_first] at hst
      obtain rfl := Option.some.inj hst
      exact hsecond
    by_cases hsb : s = b
    · subst hsb
      obtain rfl := Option.some.inj (hsecond.symm.trans hst)
      exact r.equivalent?_first a s
    · rw [r.equivalent?_other hsa hsb] at hst
      obtain ⟨hta, htb, hts⟩ := hothers s t hsa hsb hst
      rw [r.equivalent?_other hta htb, hts]

/-- **What a registered equivalence gives.**  The first identifier of a call gets the second one as
    its partner, and the second gets the first one if and only if it has no other yet.  Then all
    partners have each other if and only if, besides, those of the other identifiers do and are
    neither of the two.  The partners before the call are those of the last calls that name an
    identifier first, else of the first calls that name it second. -/
theorem equivalents_hold_iff (calls : List Registration) (a b : Srid) :
    ((registered calls).withEquivalent a b).equivalent? a = some b ∧
    (((registered calls).withEquivalent a b).equivalent? b = some a ↔
      (registered calls).Accepts a b) ∧
    ((∀ s t, ((registered calls).withEquivalent a b).equivalent? s = some t →
        ((registered calls).withEquivalent a b).equivalent? t = some s) ↔
      (registered calls).Accepts a b ∧ (registered calls).PairsOthers a b) ∧
    ∀ s, (registered calls).equivalent? s =
      (calls.reverse.findSome? (·.after? s)).or (calls.findSome? (·.before? s)) :=
  ⟨equivalent?_first _ a b, equivalent?_second_iff _ a b, mutual_withEquivalent_iff _ a b,
    equivalent?_registered calls⟩

/-- A pair that is registered twice, the second time the other way round. -/
theorem equivalents_hold_iff_mercator :
    ((registered [.suffix 28992 "_rd", .equivalent 3857 900913]).withEquivalent 900913
      3857).Mutual := by
  obtain ⟨-, -, hmutual, hpartners⟩ :=
    equivalents_hold_iff [.suffix 28992 "_rd", .equivalent 3857 900913] 900913 3857
  refine hmutual.2 ⟨fun _ t ht => ?_, fun s t hsa hsb hst => ?_⟩
  · rw [hpartners] at ht
    exact (Option.some.inj ht).symm
  · rw [hpartners] at hst
    simp [Registration.after?, Registration.before?, Ne.symm hsa, Ne.symm hsb] at hst

/-- **An equivalence that holds in one direction.**  The second identifier has a partner already,
    or the first one leaves its own behind. -/
theorem mercator_one_way :
    (((registered [.equivalent 3857 900913]).withEquivalent 3785 900913).equivalent? 3785 =
        some 900913 ∧
      ((registered [.equivalent 3857 900913]).withEquivalent 3785 900913).equivalent? 900913 =
        some 3857) ∧
    ((registered [.equivalent 3857 900913]).withEquivalent 3857 3785).equivalent? 900913 =
        some 3857 ∧
      ((registered [.equivalent 3857 900913]).withEquivalent 3857 3785).equivalent? 3857 =
        some 3785 := by
  decide

end LateralSql.CrsRegistry
