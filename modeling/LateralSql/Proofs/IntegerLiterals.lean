/-
  Integers and the literals that write them in a JSON document.

  A text that starts like a number is read as one (`value?_number`), digits without a point and an
  exponent are a literal (`number?_digits`), and an integer of 64 bits, signed or not, is read from
  its digits (`parse?_toString`).
-/
import LateralSql.Proofs.DigitTexts
import LateralSql.Json.Reader

namespace LateralSql.Json

/-- A text that starts like a number is read as one. -/
theorem value?_number (fuel depth : Nat) {c : Char} (hc : c = '-' ∨ c.isDigit = true)
    (s : List Char) : value? (fuel + 1) depth (c :: s) = number? (c :: s) := by
  have hblank : isBlank c = false := by
    rcases hc with rfl | hc
    · rfl
    · unfold isBlank
      rw [decide_eq_false_iff_not]
      rintro (rfl | rfl | rfl | rfl) <;> exact absurd hc (by decide)
  have hskip : skipBlanks (c :: s) = c :: s := List.dropWhile_cons_of_neg (by simp [hblank])
  unfold value?
  rw [hskip]
  split
  case h_7 => rfl
  all_goals
    next heq =>
      obtain ⟨rfl, -⟩ := List.cons.inj heq
      exact absurd hc (by decide)

/-- Digits without a leading zero, perhaps after a minus, are a literal. -/
theorem number?_digits {ds : List Char} (hds : ∀ c ∈ ds, c.isDigit = true) (hne : ds ≠ [])
    (hzero : ds.head? = some '0' → ds.length = 1) (minus : Bool) {j : Json}
    (hj : ofLiteral? minus ds none none = some j) :
    number? (if minus then '-' :: ds else ds) = some (j, []) := by
  have hspan : Text.spanDigits (ds ++ []) = (ds, []) := Text.spanDigits_append hds (by simp)
  have hwhole : wholePart? ds = some (ds, []) := by
    unfold wholePart?
    rw [List.append_nil] at hspan
    rw [hspan]
    refine if_neg ?_
    rintro (h | ⟨h, hlength⟩)
    · exact hne h
    · exact hlength (hzero h)
  unfold number?
  split
  next minus' s heq =>
    have hsign : minus = minus' ∧ ds = s := by
      cases minus with
      | true => exact Prod.mk.inj (show (true, ds) = (minus', s) from heq)
      | false =>
        split at heq
        · next rest hminus =>
          have hmem : '-' ∈ ds := by
            rw [show ds = '-' :: rest from hminus]
            exact List.mem_cons_self
          exact absurd (hds '-' hmem) (by decide)
        · exact Prod.mk.inj heq
    obtain ⟨rfl, rfl⟩ := hsign
    -- neither a point nor the mark of an exponent follows
    refine Option.bind_eq_some_iff.2 ⟨(ds, []), hwhole, ?_⟩
    refine Option.bind_eq_some_iff.2 ⟨(none, []), rfl, ?_⟩
    refine Option.bind_eq_some_iff.2 ⟨(none, []), rfl, ?_⟩
    exact Option.bind_eq_some_iff.2 ⟨j, hj, rfl⟩

/-- **An integer is read from its digits.** -/
theorem parse?_toString {n : Int} (hmin : Int64.minValue.toInt ≤ n) (hmax : n < UInt64.size) :
    parse? (toString n) = some (.int n) := by
  have hmin' : Int64.minValue.toInt = -9223372036854775808 := rfl
  have hmax' : UInt64.size = 18446744073709551616 := rfl
  have hchars : (toString n).toList =
      if decide (n < 0) then '-' :: Nat.toDigits 10 n.natAbs else Nat.toDigits 10 n.natAbs := by
    cases n with
    | ofNat k => exact Nat.toList_repr
    | negSucc k =>
      change ("-" ++ Nat.repr (k + 1)).toList = _
      rw [String.toList_append, Nat.toList_repr, if_pos (decide_eq_true (Int.negSucc_lt_zero k))]
      rfl
  have hliteral : ofLiteral? (decide (n < 0)) (Nat.toDigits 10 n.natAbs) none none =
      some (.int n) := by
    unfold ofLiteral?
    dsimp only
    rw [Text.digitsValue_toDigits]
    by_cases hneg : n < 0
    · rw [if_pos (decide_eq_true hneg), if_neg (by omega), if_pos (by omega)]
      congr 2
      omega
    · rw [if_neg (by simpa using hneg), if_pos (by omega)]
      congr 2
      omega
  have hnumber : number? (toString n).toList = some (.int n, []) := by
    rw [hchars]
    refine number?_digits (fun c => Text.isDigit_toDigits) Nat.toDigits_ne_nil ?_ _ hliteral
    intro hzero
    rcases Nat.eq_zero_or_pos n.natAbs with h | h
    · rw [h]
      rfl
    · exact absurd hzero (Text.head?_toDigits h)
  obtain ⟨c, s, hcs, hc⟩ : ∃ c s, (toString n).toList = c :: s ∧ (c = '-' ∨ c.isDigit = true) := by
    rw [hchars]
    split
    · exact ⟨'-', _, rfl, .inl rfl⟩
    · have hne : Nat.toDigits 10 n.natAbs ≠ [] := Nat.toDigits_ne_nil
      obtain ⟨c, s, hcs⟩ := List.exists_cons_of_ne_nil hne
      exact ⟨c, s, hcs, .inr (Text.isDigit_toDigits (hcs ▸ List.mem_cons_self))⟩
  unfold parse? read?
  dsimp only
  rw [hcs] at hnumber ⊢
  rw [value?_number _ _ hc, hnumber]
  rfl

/-- A zero with a sign is the only other spelling, and is read as a double. -/
example : parse? "-0" = some (.float (-0.0)) := rfl

end LateralSql.Json
