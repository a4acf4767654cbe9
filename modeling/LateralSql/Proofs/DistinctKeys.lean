/-
  The keys of a batch are the given ones, each where it first occurs.

  Keys are compared by value, so that two ways to write a number or an instant make one key.  What
  `JoinKeys.ofList` accepts is kept in a canonical form: some keys, no two of them equal, with one
  list of names in ascending order.  Keys in this form are built from themselves, and further copies
  of the given keys (`Repeats`) change neither the result nor the error.
-/
import LateralSql.Proofs.KeyMaps

namespace LateralSql

/-! ## Repetitions -/

section
variable {α : Type} [BEq α]

/-- Further elements are put into the list, one by one, each at any place behind an element that it
    equals. -/
inductive Repeats (xs : List α) : List α → Prop
  | refl : Repeats xs xs
  | insert {before after : List α} {a b : α} :
    Repeats xs (before ++ after) → b ∈ before → (b == a) = true → Repeats xs (before ++ a :: after)

variable [EquivBEq α]

/-- An element behind one that it equals is no first occurrence, and what follows is kept as
    without it. -/
theorem firstOccurrences_insert {before : List α} {a b : α} (hb : b ∈ before)
    (hba : (b == a) = true) (after : List α) :
    firstOccurrences (before ++ a :: after) = firstOccurrences (before ++ after) := by
  have hseen : firstOccurrences (before ++ [a]) = firstOccurrences before := by
    refine firstOccurrences_append fun c hc => ?_
    obtain rfl := List.mem_singleton.1 hc
    obtain ⟨first, hfirst, hfb⟩ := exists_firstOccurrence hb
    exact ⟨first, hfirst, BEq.trans hfb hba⟩
  rw [List.append_cons]
  unfold firstOccurrences at hseen ⊢
  rw [List.foldl_append, hseen, List.foldl_append]

theorem Repeats.firstOccurrences_eq {xs ys : List α} (h : Repeats xs ys) :
    firstOccurrences ys = firstOccurrences xs := by
  induction h with
  | refl => rfl
  | insert _ hb hba ih => rw [firstOccurrences_insert hb hba, ih]

end

/-! ## Canonical keys -/

namespace JoinKeys

variable {given : List KeyMap}

/-- The result and the error depend on the first occurrences only. -/
theorem ofList_congr {given' : List KeyMap}
    (h : firstOccurrences given = firstOccurrences given') : ofList given = ofList given' := by
  simp only [ofList, h]

/-- **Keys are accepted if and only if there are any and all have the same names.** -/
theorem exists_ofList_iff :
    (∃ j, ofList given = .ok j) ↔ given ≠ [] ∧ ∀ k ∈ given, ∀ l ∈ given, k.SameNames l := by
  constructor
  · rintro ⟨j, hj⟩
    refine ⟨?_, fun k hk l hl => KeyMap.sameNames_iff.2 ?_⟩
    · rintro rfl
      cases hj
    · rw [names_eq_of_ofList hj k hk, names_eq_of_ofList hj l hl]
  · rintro ⟨hne, hsame⟩
    obtain ⟨first, hfirst⟩ := List.exists_mem_of_ne_nil given hne
    obtain ⟨j, hj, -⟩ := exists_ofList hne fun k hk =>
      KeyMap.sameNames_iff.1 (hsame k hk first hfirst)
    exact ⟨j, hj⟩

theorem names_pairwise (j : JoinKeys) : j.names.Pairwise (· < ·) := by
  obtain ⟨first, hfirst⟩ := List.exists_mem_of_ne_nil j.keys j.nonempty
  rw [← names_eq_of_mem hfirst]
  exact first.ascending

/-- The keys of a batch are built from themselves. -/
theorem ofList_keys (j : JoinKeys) : ofList j.keys = .ok j :=
  ofList_eq_ok.2 (firstOccurrences_of_pairwise j.distinct).symm

end JoinKeys

/-- **The keys of a batch are canonical.**  Keys are accepted if and only if there are any and all
    have the same names.  The batch then has each key where it is first seen: some keys, no two of
    them equal, all with the names of the batch, which ascend, and every given key equals one of
    them.  The keys of a batch are again the keys of this batch, and copies of keys, put in
    anywhere behind them, change nothing, be the keys accepted or refused. -/
theorem join_keys_canonical (given : List KeyMap) :
    ((∃ j, JoinKeys.ofList given = .ok j) ↔
      given ≠ [] ∧ ∀ k ∈ given, ∀ l ∈ given, k.SameNames l) ∧
    (∀ j, JoinKeys.ofList given = .ok j →
      j.keys = firstSeen given ∧ j.keys ≠ [] ∧
      (j.keys.Pairwise fun k l => (k == l) = false) ∧ (∀ k ∈ j.keys, k.names = j.names) ∧
      j.names.Pairwise (· < ·) ∧ (∀ k ∈ given, ∃ l ∈ j.keys, (l == k) = true) ∧
      JoinKeys.ofList j.keys = .ok j) ∧
    ∀ longer, Repeats given longer → JoinKeys.ofList longer = JoinKeys.ofList given := by
  refine ⟨JoinKeys.exists_ofList_iff, fun j hj => ?_, fun longer hlonger => ?_⟩
  · have hkeys := JoinKeys.ofList_eq_ok.1 hj
    refine ⟨hkeys.trans (firstOccurrences_eq_firstSeen given), j.nonempty, j.distinct,
      fun k hk => JoinKeys.names_eq_of_mem hk, j.names_pairwise, fun k hk => ?_, j.ofList_keys⟩
    rw [hkeys]
    exact exists_firstOccurrence hk
  · exact JoinKeys.ofList_congr hlonger.firstOccurrences_eq

/-! ## Measurements -/

/-- A measurement is known by its station and time. -/
def measurementKey (station : String) (hour : Nat) (offset : Int) : KeyMap :=
  .ofMembers [
    ("time", .dateTime ⟨2024, 2, 29, hour, 0, 0, 0, offset⟩), ("station", .string station)]

/-- The third key is the first one, with its time an hour to the east. -/
def measurementKeys : List KeyMap :=
  [measurementKey "north" 12 0, measurementKey "south" 12 0, measurementKey "north" 13 60]

/-- A key without a time. -/
def stationKey : KeyMap := .ofMembers [("station", .string "north")]

/-- The same keys with a copy of the first one behind it, its time an hour to the west, and a copy
    of the second one at the end. -/
def repeatedMeasurements : List KeyMap :=
  [measurementKey "north" 12 0, measurementKey "north" 11 (-60), measurementKey "south" 12 0,
    measurementKey "north" 13 60, measurementKey "south" 12 0]

theorem join_keys_canonical_measurements :
    Repeats measurementKeys repeatedMeasurements ∧
    (∃ j, JoinKeys.ofList measurementKeys = .ok j ∧
      j.keys = [measurementKey "north" 12 0, measurementKey "south" 12 0] ∧
      j.names = ["station", "time"] ∧ j.names.Pairwise (· < ·) ∧ JoinKeys.ofList j.keys = .ok j ∧
      JoinKeys.ofList repeatedMeasurements = .ok j) ∧
    ¬ ∃ j, JoinKeys.ofList (stationKey :: measurementKeys) = .ok j := by
  have hcopies : Repeats measurementKeys repeatedMeasurements := by
    have hfirst : Repeats measurementKeys ([measurementKey "north" 12 0] ++
        measurementKey "north" 11 (-60) :: measurementKeys.tail) :=
      .insert .refl (List.mem_singleton_self _) (by decide)
    exact (.insert hfirst (.tail _ (.tail _ (.head _))) BEq.rfl :
      Repeats measurementKeys (repeatedMeasurements.take 4 ++ measurementKey "south" 12 0 :: []))
  obtain ⟨j, hj⟩ : ∃ j, JoinKeys.ofList measurementKeys = .ok j := ⟨_, rfl⟩
  obtain ⟨-, hbuilt, hlonger⟩ := join_keys_canonical measurementKeys
  obtain ⟨hseen, -, -, hnamed, hascending, -, hagain⟩ := hbuilt j hj
  have hkeys : j.keys = [measurementKey "north" 12 0, measurementKey "south" 12 0] :=
    hseen.trans rfl
  refine ⟨hcopies, ⟨j, hj, hkeys, ?_, hascending, hagain, (hlonger _ hcopies).trans hj⟩,
    fun hstored => ?_⟩
  · exact (hnamed (measurementKey "north" 12 0) (hkeys ▸ .head _)).symm.trans rfl
  · obtain ⟨-, hsame⟩ := (join_keys_canonical (stationKey :: measurementKeys)).1.1 hstored
    have htime : "time" ∈ stationKey.names :=
      (hsame stationKey (.head _) (measurementKey "north" 12 0) (.tail _ (.head _)) "time").2
        (by decide)
    exact absurd htime (by decide)

end LateralSql
