/-
  Lists in the order of their names, and lists without repetitions.
-/
import Mathlib.Data.List.Induction
import Mathlib.Data.List.Nodup
import LateralSql.Keyed

namespace LateralSql

theorem insertBy_perm {α : Type} (key : α → String) (a : α) (xs : List α) :
    (insertBy key a xs).Perm (a :: xs) := by
  induction xs with
  | nil => rfl
  | cons b xs ih =>
    rw [insertBy]
    split
    · rfl
    · exact (ih.cons b).trans (.swap a b xs)

/-- Sorting moves the elements only. -/
theorem sortBy_perm {α : Type} (key : α → String) (xs : List α) : (sortBy key xs).Perm xs := by
  have hfold (acc : List α) :
      (xs.foldl (fun acc a => insertBy key a acc) acc).Perm (xs ++ acc) := by
    induction xs generalizing acc with
    | nil => rfl
    | cons a xs ih =>
      exact (ih _).trans (((insertBy_perm key a acc).append_left xs).trans List.perm_middle)
  rw [sortBy]
  simpa using hfold []

theorem insertBy_pairwise {α : Type} {key : α → String} (a : α) {xs : List α}
    (h : (xs.map key).Pairwise (· ≤ ·)) : ((insertBy key a xs).map key).Pairwise (· ≤ ·) := by
  induction xs with
  | nil => exact List.pairwise_singleton _ _
  | cons b xs ih =>
    obtain ⟨hfirst, hrest⟩ := List.pairwise_cons.1 h
    rw [insertBy]
    split
    · next hlt =>
      refine List.pairwise_cons.2 ⟨fun x hx => ?_, h⟩
      rcases List.mem_cons.1 hx with rfl | hx
      · exact String.not_lt.1 (String.lt_asymm hlt)
      · exact String.le_trans (String.not_lt.1 (String.lt_asymm hlt)) (hfirst x hx)
    · next hge =>
      refine List.pairwise_cons.2 ⟨fun x hx => ?_, ih hrest⟩
      rw [((insertBy_perm key a xs).map key).mem_iff] at hx
      rcases List.mem_cons.1 hx with rfl | hx
      · exact String.not_lt.1 hge
      · exact hfirst x hx

/-- Sorting brings the names into order. -/
theorem sortBy_pairwise {α : Type} (key : α → String) (xs : List α) :
    ((sortBy key xs).map key).Pairwise (· ≤ ·) := by
  rw [sortBy]
  induction xs using List.reverseRecOn with
  | nil => exact .nil
  | append_singleton xs a ih =>
    rw [List.foldl_append]
    exact insertBy_pairwise a ih

/-! ## One element per name -/

theorem putBy_subset {α : Type} (key : α → String) (a : α) (xs : List α) :
    putBy key a xs ⊆ a :: xs := by
  induction xs with
  | nil => exact List.Subset.refl _
  | cons b xs ih =>
    rw [putBy]
    split
    · exact List.cons_subset_cons a (List.subset_cons_self b xs)
    · refine List.cons_subset.2 ⟨by simp, List.Subset.trans ih ?_⟩
      exact List.cons_subset_cons a (List.subset_cons_self b xs)

theorem lastBy_subset {α : Type} (key : α → String) (xs : List α) : lastBy key xs ⊆ xs := by
  rw [lastBy]
  induction xs using List.reverseRecOn with
  | nil => exact List.nil_subset _
  | append_singleton xs a ih =>
    rw [List.foldl_append]
    refine List.Subset.trans (putBy_subset key a _) (List.cons_subset.2 ⟨by simp, ?_⟩)
    exact List.subset_append_of_subset_left _ ih

/-- A further element adds its name unless it replaces an element. -/
theorem map_putBy {α : Type} (key : α → String) (a : α) (xs : List α) :
    (putBy key a xs).map key =
      if key a ∈ xs.map key then xs.map key else xs.map key ++ [key a] := by
  induction xs with
  | nil => rfl
  | cons b xs ih =>
    rw [putBy]
    by_cases hkey : key b = key a
    · simp [hkey]
    · rw [if_neg hkey, List.map_cons, ih]
      by_cases hmem : key a ∈ xs.map key
      · rw [if_pos hmem, if_pos (by simp [hmem])]
        rfl
      · rw [if_neg hmem, if_neg (by simpa [Ne.symm hkey] using hmem)]
        rfl

theorem lastBy_nodup {α : Type} (key : α → String) (xs : List α) :
    ((lastBy key xs).map key).Nodup := by
  rw [lastBy]
  induction xs using List.reverseRecOn with
  | nil => exact .nil
  | append_singleton xs a ih =>
    rw [List.foldl_append, List.foldl_cons, List.foldl_nil, map_putBy]
    split
    · exact ih
    · next hnew => exact List.Nodup.append ih (List.nodup_singleton _) (by simpa using hnew)

theorem putBy_of_notMem {α : Type} {key : α → String} {a : α} {xs : List α}
    (h : key a ∉ xs.map key) : putBy key a xs = xs ++ [a] := by
  induction xs with
  | nil => rfl
  | cons b xs ih =>
    rw [List.map_cons, List.mem_cons, not_or] at h
    rw [putBy, if_neg (Ne.symm h.1), ih h.2, List.cons_append]

/-- Elements with distinct names are all kept. -/
theorem lastBy_of_nodup {α : Type} {key : α → String} {xs : List α} (h : (xs.map key).Nodup) :
    lastBy key xs = xs := by
  rw [lastBy]
  induction xs using List.reverseRecOn with
  | nil => rfl
  | append_singleton xs a ih =>
    rw [List.map_append, List.map_singleton, List.nodup_append_comm, List.singleton_append,
      List.nodup_cons] at h
    rw [List.foldl_append, ih h.2]
    exact putBy_of_notMem h.1

/-- The element stands in the list, and no later one has its key. -/
def IsLast {α : Type} (key : α → String) (a : α) (xs : List α) : Prop :=
  ∃ before after, xs = before ++ a :: after ∧ ∀ b ∈ after, key b ≠ key a

section
variable {α β : Type} {key : α → String} {a b : α} {xs : List α} {k : String}

theorem isLast_concat : IsLast key a (xs ++ [b]) ↔ a = b ∨ IsLast key a xs ∧ key b ≠ key a := by
  constructor
  · rintro ⟨before, after, h, hlater⟩
    rcases List.eq_nil_or_concat' after with rfl | ⟨rest, c, rfl⟩
    · obtain ⟨-, hb⟩ := List.append_inj' h rfl
      exact .inl (List.singleton_inj.1 hb).symm
    · rw [← List.cons_append, ← List.append_assoc] at h
      obtain ⟨rfl, hb⟩ := List.append_inj' h rfl
      obtain rfl := List.singleton_inj.1 hb
      obtain ⟨hrest, hb⟩ := List.forall_mem_append.1 hlater
      exact .inr ⟨⟨before, rest, rfl, hrest⟩, hb b (List.mem_singleton_self b)⟩
  · rintro (rfl | ⟨⟨before, after, rfl, hlater⟩, hne⟩)
    · exact ⟨xs, [], rfl, List.forall_mem_nil _⟩
    · refine ⟨before, after ++ [b], by simp, List.forall_mem_append.2 ⟨hlater, ?_⟩⟩
      exact List.forall_mem_singleton.2 hne

theorem isLast_map {f : β → α} {ys : List β} :
    IsLast key a (ys.map f) ↔ ∃ b, IsLast (fun b => key (f b)) b ys ∧ f b = a := by
  constructor
  · rintro ⟨before, after, h, hlater⟩
    obtain ⟨ys₁, ys₂, rfl, rfl, hys⟩ := List.map_eq_append_iff.1 h
    obtain ⟨b, ys₃, rfl, rfl, rfl⟩ := List.map_eq_cons_iff.1 hys
    exact ⟨b, ⟨ys₁, ys₃, rfl, fun c hc => hlater _ (List.mem_map_of_mem hc)⟩, rfl⟩
  · rintro ⟨b, ⟨before, after, rfl, hlater⟩, rfl⟩
    exact ⟨before.map f, after.map f, by simp, List.forall_mem_map.2 hlater⟩

theorem isLast_iff_mem (h : (xs.map key).Nodup) : IsLast key a xs ↔ a ∈ xs := by
  constructor
  · rintro ⟨before, after, rfl, -⟩
    simp
  · intro ha
    obtain ⟨before, after, rfl⟩ := List.append_of_mem ha
    refine ⟨before, after, rfl, fun b hb heq => ?_⟩
    rw [List.map_append, List.map_cons] at h
    exact (List.nodup_cons.1 h.of_append_right).1 (heq ▸ List.mem_map_of_mem hb)

theorem mem_putBy (h : (xs.map key).Nodup) :
    a ∈ putBy key b xs ↔ a = b ∨ a ∈ xs ∧ key b ≠ key a := by
  induction xs with
  | nil => simp [putBy]
  | cons x xs ih =>
    obtain ⟨hx, hxs⟩ := List.nodup_cons.1 h
    rw [putBy]
    split
    · next heq =>
      have hother : ∀ y ∈ xs, key b ≠ key y := fun y hy hby =>
        hx (heq.trans hby ▸ List.mem_map_of_mem hy)
      grind
    · next hne =>
      rw [List.mem_cons, ih hxs, List.mem_cons]
      grind

/-- The elements that are kept are the last of their keys. -/
theorem mem_lastBy : a ∈ lastBy key xs ↔ IsLast key a xs := by
  induction xs using List.reverseRecOn with
  | nil => simp [lastBy, IsLast]
  | append_singleton xs b ih =>
    rw [isLast_concat, ← ih, lastBy, List.foldl_append]
    exact mem_putBy (lastBy_nodup key xs)

/-- Among distinct keys an element is found by its own. -/
theorem find?_key (h : (xs.map key).Nodup) :
    xs.find? (key · = k) = some a ↔ a ∈ xs ∧ key a = k := by
  constructor
  · intro hfind
    exact ⟨List.mem_of_find?_eq_some hfind, by simpa using List.find?_some hfind⟩
  · rintro ⟨ha, rfl⟩
    obtain ⟨b, hb⟩ : ∃ b, xs.find? (key · = key a) = some b :=
      Option.isSome_iff_exists.1 (List.find?_isSome.2 ⟨a, ha, by simp⟩)
    have hkey : key b = key a := by simpa using List.find?_some hb
    rw [hb, List.inj_on_of_nodup_map h (List.mem_of_find?_eq_some hb) ha hkey]

end

/-! ## First occurrences -/

section
variable {α : Type} [BEq α]

/-- A further element is kept unless it equals one before it. -/
theorem firstOccurrences_concat (xs : List α) (a : α) :
    firstOccurrences (xs ++ [a]) =
      if (firstOccurrences xs).any (· == a) then firstOccurrences xs
      else firstOccurrences xs ++ [a] := by
  rw [firstOccurrences, List.foldl_append]
  rfl

/-- The first element with a property that equal elements share is a first occurrence. -/
theorem find?_firstOccurrences {p : α → Bool} (hp : ∀ a b, (a == b) = true → p a = p b)
    (xs : List α) : (firstOccurrences xs).find? p = xs.find? p := by
  induction xs using List.reverseRecOn with
  | nil => rfl
  | append_singleton xs a ih =>
    rw [firstOccurrences_concat, List.find?_append]
    split
    · next hold =>
      -- `a` has the property only if the element that it equals has been found for it
      obtain ⟨b, hb, hba⟩ := List.any_eq_true.1 hold
      cases hfind : xs.find? p with
      | some c => rw [ih, hfind, Option.some_or]
      | none =>
        have ha : ¬ p a = true := hp b a hba ▸ List.find?_eq_none.1 (ih.trans hfind) b hb
        rw [ih, hfind, Option.none_or, List.find?_cons_of_neg ha, List.find?_nil]
    · rw [List.find?_append, ih]

theorem any_firstOccurrences {p : α → Bool} (hp : ∀ a b, (a == b) = true → p a = p b)
    (xs : List α) : (firstOccurrences xs).any p = xs.any p := by
  rw [← List.isSome_find?, ← List.isSome_find?, find?_firstOccurrences hp]

theorem head?_firstOccurrences (xs : List α) : (firstOccurrences xs).head? = xs.head? := by
  have hhead (ys : List α) : ys.find? (fun _ => true) = ys.head? := by cases ys <;> rfl
  rw [← hhead, ← hhead, find?_firstOccurrences fun _ _ _ => rfl]

theorem firstOccurrences_nodup [ReflBEq α] (xs : List α) : (firstOccurrences xs).Nodup := by
  refine (firstOccurrences_pairwise xs).imp fun {a b} hne heq => ?_
  subst heq
  simp at hne

theorem firstOccurrences_subset (xs : List α) : firstOccurrences xs ⊆ xs := by
  induction xs using List.reverseRecOn with
  | nil => exact List.nil_subset _
  | append_singleton xs a ih =>
    rw [firstOccurrences_concat]
    split
    · exact List.subset_append_of_subset_left _ ih
    · exact List.append_subset.2 ⟨List.subset_append_of_subset_left _ ih,
        List.subset_append_right _ _⟩

/-- Every element equals a first occurrence. -/
theorem exists_firstOccurrence [ReflBEq α] {xs : List α} {a : α} (h : a ∈ xs) :
    ∃ b ∈ firstOccurrences xs, (b == a) = true := by
  induction xs using List.reverseRecOn with
  | nil => cases h
  | append_singleton xs c ih =>
    rw [firstOccurrences_concat]
    rcases List.mem_append.1 h with h | h
    · obtain ⟨b, hb, heq⟩ := ih h
      refine ⟨b, ?_, heq⟩
      split
      · exact hb
      · exact List.mem_append_left _ hb
    · obtain rfl := List.mem_singleton.1 h
      split
      · next hold => exact List.any_eq_true.1 hold
      · exact ⟨a, List.mem_append_right _ (List.mem_singleton_self a), BEq.rfl⟩

/-- Elements that have occurred add nothing. -/
theorem firstOccurrences_append {xs ys : List α}
    (h : ∀ a ∈ ys, ∃ b ∈ firstOccurrences xs, (b == a) = true) :
    firstOccurrences (xs ++ ys) = firstOccurrences xs := by
  induction ys using List.reverseRecOn with
  | nil => rw [List.append_nil]
  | append_singleton ys a ih =>
    have hys := ih fun b hb => h b (List.mem_append_left _ hb)
    have ha := h a (List.mem_append_right _ (List.mem_singleton_self a))
    rw [← List.append_assoc, firstOccurrences_concat, hys, if_pos (List.any_eq_true.2 ha)]

theorem firstOccurrences_of_pairwise {xs : List α}
    (h : xs.Pairwise fun a b => (a == b) = false) : firstOccurrences xs = xs := by
  induction xs using List.reverseRecOn with
  | nil => rfl
  | append_singleton xs a ih =>
    obtain ⟨hxs, -, hnew⟩ := List.pairwise_append.1 h
    rw [firstOccurrences_concat, ih hxs, if_neg]
    intro hold
    obtain ⟨b, hb, heq⟩ := List.any_eq_true.1 hold
    rw [hnew b hb a (List.mem_singleton_self a)] at heq
    cases heq

/-- The elements at whose place no equal element has been seen. -/
def firstSeen (xs : List α) : List α :=
  (xs.zipIdx.filter fun p => !(xs.take p.2).any (· == p.1)).map (·.1)

theorem firstSeen_concat (xs : List α) (a : α) :
    firstSeen (xs ++ [a]) = if xs.any (· == a) then firstSeen xs else firstSeen xs ++ [a] := by
  have hbefore : ∀ p ∈ xs.zipIdx, (xs ++ [a]).take p.2 = xs.take p.2 := by
    intro p hp
    have hlt : p.2 < 0 + xs.length := (List.mem_zipIdx hp).2.1
    rw [List.take_append_of_le_length (by omega)]
  have hfilter : xs.zipIdx.filter (fun p => !((xs ++ [a]).take p.2).any (· == p.1)) =
      xs.zipIdx.filter fun p => !(xs.take p.2).any (· == p.1) :=
    List.filter_congr fun p hp => by rw [hbefore p hp]
  rw [firstSeen, List.zipIdx_append, List.filter_append, hfilter, List.map_append, ← firstSeen]
  cases hseen : xs.any (· == a) <;> simp [hseen]

/-- It is enough to compare with the first occurrences. -/
theorem firstOccurrences_eq_firstSeen [EquivBEq α] (xs : List α) :
    firstOccurrences xs = firstSeen xs := by
  induction xs using List.reverseRecOn with
  | nil => rfl
  | append_singleton xs a ih =>
    have hany := any_firstOccurrences (p := (· == a)) (fun _ _ hbc => BEq.congr_left hbc) xs
    rw [firstOccurrences_concat, firstSeen_concat, hany, ih]

/-- An element has been seen first if it is the first that equals it. -/
theorem mem_firstSeen [EquivBEq α] {xs : List α} {a : α} :
    a ∈ firstSeen xs ↔ (xs.filter (a == ·)).head? = some a := by
  induction xs using List.reverseRecOn with
  | nil => simp [firstSeen]
  | append_singleton xs b ih =>
    rw [firstSeen_concat, List.filter_append, List.head?_append]
    cases hab : a == b with
    | false =>
      have hne : a ≠ b := by
        rintro rfl
        simp at hab
      split <;> simp [ih, hab, hne]
    | true =>
      -- an element before `b` equals `b` if and only if it equals `a`
      have hsame : xs.any (· == b) = xs.any (a == ·) := by
        refine congrArg xs.any (funext fun c => ?_)
        rw [BEq.comm, BEq.congr_left hab]
      cases hfilter : xs.filter (a == ·) with
      | nil =>
        have hnone : xs.any (a == ·) = false := by
          simpa [List.filter_eq_nil_iff] using hfilter
        simp [hsame, hnone, ih, hfilter, hab, eq_comm]
      | cons c rest =>
        have hc : c ∈ xs.filter (a == ·) := hfilter ▸ List.mem_cons_self
        have hsome : xs.any (a == ·) = true :=
          List.any_eq_true.2 ⟨c, (List.mem_filter.1 hc).1, (List.mem_filter.1 hc).2⟩
        simp [hsame, hsome, ih, hfilter]

/-- What has been seen in the first part is not seen anew in the second. -/
theorem firstSeen_append [EquivBEq α] (xs ys : List α) :
    firstSeen (xs ++ ys) = firstSeen xs ++ firstSeen (ys.filter fun a => !xs.any (· == a)) := by
  induction ys using List.reverseRecOn with
  | nil => simp [firstSeen]
  | append_singleton ys a ih =>
    rw [← List.append_assoc, firstSeen_concat, List.any_append, List.filter_append, ih]
    cases hxs : xs.any (· == a) with
    | true => simp [hxs]
    | false =>
      -- what equals `a` has not been seen in `xs` either
      have hany : (ys.filter fun b => !xs.any (· == b)).any (· == a) = ys.any (· == a) := by
        rw [List.any_filter]
        refine congrArg ys.any (funext fun b => ?_)
        cases hba : b == a with
        | false => rw [Bool.and_false]
        | true =>
          have hnew : xs.any (· == b) = false := by
            rw [← hxs]
            exact congrArg xs.any (funext fun c => BEq.congr_right hba)
          rw [hnew]
          rfl
      simp only [List.filter_cons, hxs, Bool.false_or]
      rw [Bool.not_false, if_pos rfl, List.filter_nil, firstSeen_concat, hany]
      split <;> simp

/-- Lists with equal elements at the same places have their first occurrences at the same places. -/
theorem exists_firstOccurrences {β : Type} [BEq β] {zs : List (α × β)}
    (h : ∀ p ∈ zs, ∀ q ∈ zs, (p.1 == q.1) = (p.2 == q.2)) :
    ∃ ws ⊆ zs, firstOccurrences (zs.map Prod.fst) = ws.map Prod.fst ∧
      firstOccurrences (zs.map Prod.snd) = ws.map Prod.snd := by
  induction zs using List.reverseRecOn with
  | nil => exact ⟨[], List.Subset.refl _, rfl, rfl⟩
  | append_singleton zs p ih =>
    obtain ⟨ws, hsub, hfst, hsnd⟩ := ih fun q hq r hr =>
      h q (List.mem_append_left _ hq) r (List.mem_append_left _ hr)
    have hany : (ws.map Prod.fst).any (· == p.1) = (ws.map Prod.snd).any (· == p.2) := by
      have hp : ∀ q ∈ ws, (q.1 == p.1) = (q.2 == p.2) := fun q hq =>
        h q (List.mem_append_left _ (hsub hq)) p (by simp)
      rw [List.any_map, List.any_map, Bool.eq_iff_iff, List.any_eq_true, List.any_eq_true]
      refine exists_congr fun q => and_congr_right fun hq => ?_
      rw [Function.comp_apply, Function.comp_apply, hp q hq]
    simp only [List.map_append, List.map_cons, List.map_nil, firstOccurrences_concat, hfst, hsnd,
      hany]
    split
    · exact ⟨ws, List.subset_append_of_subset_left _ hsub, rfl, rfl⟩
    · refine ⟨ws ++ [p], ?_, by simp, by simp⟩
      exact List.append_subset.2 ⟨List.subset_append_of_subset_left _ hsub,
        List.subset_append_right _ _⟩

end

end LateralSql
