/-
  Lists whose elements have a name, in the order in which the names first occurred.

  * `putBy` replaces the element of the same name in place, or appends;
  * `lastBy` keeps one element per name: the first position, the last element;
  * `firstOccurrences` keeps the first of equal elements;
  * `sortBy` brings the elements into the order of their names.
-/

namespace LateralSql

/-- Replaces the element with the same key in place, or appends the element. -/
def putBy {α : Type} (key : α → String) (a : α) : List α → List α
  | [] => [a]
  | b :: rest => if key b = key a then a :: rest else b :: putBy key a rest

/-- One element per key: the first position, the last element. -/
def lastBy {α : Type} (key : α → String) (xs : List α) : List α :=
  xs.foldl (fun acc a => putBy key a acc) []

/-- The elements that equal none before them. -/
def firstOccurrences {α : Type} [BEq α] (xs : List α) : List α :=
  xs.foldl (fun acc a => if acc.any (· == a) then acc else acc ++ [a]) []

/-- No two first occurrences are equal. -/
theorem firstOccurrences_pairwise {α : Type} [BEq α] (xs : List α) :
    (firstOccurrences xs).Pairwise fun a b => (a == b) = false := by
  -- what is kept so far has no equal elements, and keeps it so
  suffices h : ∀ kept : List α, (kept.Pairwise fun a b => (a == b) = false) →
      (xs.foldl (fun acc a => if acc.any (· == a) then acc else acc ++ [a]) kept).Pairwise
        fun a b => (a == b) = false from h [] .nil
  induction xs with
  | nil => exact fun _ hkept => hkept
  | cons a xs ih =>
    intro kept hkept
    refine ih _ ?_
    dsimp only
    split
    · exact hkept
    · next hnew =>
      refine List.pairwise_append.2 ⟨hkept, List.pairwise_singleton _ _, fun b hb c hc => ?_⟩
      obtain rfl := List.mem_singleton.1 hc
      simpa using fun heq => hnew (List.any_eq_true.2 ⟨b, hb, heq⟩)

/-- Puts an element before the first one with a greater key. -/
def insertBy {α : Type} (key : α → String) (a : α) : List α → List α
  | [] => [a]
  | b :: rest => if key a < key b then a :: b :: rest else b :: insertBy key a rest

/-- The elements with keys ascending; those of one key stay in their order. -/
def sortBy {α : Type} (key : α → String) (xs : List α) : List α :=
  xs.foldl (fun acc a => insertBy key a acc) []

end LateralSql
