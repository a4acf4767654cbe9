/-
  Numbers and the digits that write them.

  A run of digits is less than the power of ten of its length (`digitsValue_lt`).  A number that
  fits a width is read back from its digits (`digits?_padded`), and so is every number from as many
  digits as it takes (`digitsValue_toDigits`).
-/
import Mathlib.Data.List.Induction
import LateralSql.Text.Digits

namespace LateralSql.Text

theorem digitsValue_concat (ds : List Char) (c : Char) :
    digitsValue (ds ++ [c]) = 10 * digitsValue ds + digitValue c := by
  rw [digitsValue, List.foldl_append]
  rfl

theorem digitValue_lt {c : Char} (h : c.isDigit = true) : digitValue c < 10 := by
  have hle : c.toNat ≤ 57 := (Char.isDigit_iff_toNat.1 h).2
  rw [digitValue]
  omega

theorem digitsValue_lt {ds : List Char} (h : ∀ c ∈ ds, c.isDigit = true) :
    digitsValue ds < Nat.pow 10 ds.length := by
  induction ds using List.reverseRecOn with
  | nil => decide
  | append_singleton ds c ih =>
    obtain ⟨hds, hc⟩ := List.forall_mem_append.1 h
    have hvalue := ih hds
    have hdigit := digitValue_lt (hc c (List.mem_singleton_self c))
    rw [digitsValue_concat, List.length_append, List.length_singleton]
    change _ < Nat.pow 10 ds.length * 10
    omega

theorem digitChar_spec : ∀ d < 10, (digitChar d).isDigit = true ∧ digitValue (digitChar d) = d := by
  decide

theorem length_padded (w n : Nat) : (padded w n).length = w := by
  induction w generalizing n with
  | zero => rfl
  | succ w ih => rw [padded, List.length_append, ih, List.length_singleton]

theorem isDigit_of_mem_padded {w n : Nat} {c : Char} (h : c ∈ padded w n) : c.isDigit = true := by
  induction w generalizing n with
  | zero => cases h
  | succ w ih =>
    rw [padded, List.mem_append, List.mem_singleton] at h
    rcases h with h | rfl
    · exact ih h
    · exact (digitChar_spec (n % 10) (Nat.mod_lt n (by decide))).1

theorem digitsValue_padded {w n : Nat} (h : n < Nat.pow 10 w) : digitsValue (padded w n) = n := by
  induction w generalizing n with
  | zero =>
    have hzero : n = 0 := Nat.lt_one_iff.1 h
    rw [hzero]
    rfl
  | succ w ih =>
    have hrest : n / 10 < Nat.pow 10 w := by
      change n < Nat.pow 10 w * 10 at h
      omega
    rw [padded, digitsValue_concat, ih hrest,
      (digitChar_spec (n % 10) (Nat.mod_lt n (by decide))).2]
    omega

/-- A number that fits is read back from its digits. -/
theorem digits?_padded {w n : Nat} (h : n < Nat.pow 10 w) (rest : List Char) :
    digits? w (padded w n ++ rest) = some (n, rest) := by
  have htake : (padded w n ++ rest).take w = padded w n := List.take_left' (length_padded w n)
  have hdrop : (padded w n ++ rest).drop w = rest := List.drop_left' (length_padded w n)
  have hdigits : (padded w n).all Char.isDigit = true :=
    List.all_eq_true.2 fun c hc => isDigit_of_mem_padded hc
  rw [digits?, htake, hdrop, if_pos ⟨length_padded w n, hdigits⟩, digitsValue_padded h]

theorem digits?_lt {w n : Nat} {s rest : List Char} (h : digits? w s = some (n, rest)) :
    n < Nat.pow 10 w := by
  rw [digits?] at h
  split at h
  · next hds =>
    obtain ⟨rfl, -⟩ := Prod.mk.inj (Option.some.inj h)
    have hlt := digitsValue_lt (List.all_eq_true.1 hds.2)
    rwa [hds.1] at hlt
  · cases h

/-- A run of digits ends where something else follows. -/
theorem spanDigits_append {ds rest : List Char} (hds : ∀ c ∈ ds, c.isDigit = true)
    (hrest : ∀ c ∈ rest.head?, c.isDigit = false) : spanDigits (ds ++ rest) = (ds, rest) := by
  have hrest' : rest.takeWhile Char.isDigit = [] ∧ rest.dropWhile Char.isDigit = rest := by
    cases rest with
    | nil => exact ⟨rfl, rfl⟩
    | cons c rest => simp [hrest c rfl]
  rw [spanDigits, List.takeWhile_append_of_pos hds, List.dropWhile_append_of_pos hds, hrest'.1,
    hrest'.2, List.append_nil]

/-! ## Digits without padding -/

theorem digitsValue_toDigits (n : Nat) : digitsValue (Nat.toDigits 10 n) = n :=
  Nat.ofDigitChars_eq_foldl.symm.trans Nat.ofDigitChars_ten_toDigits

theorem isDigit_toDigits {n : Nat} {c : Char} (h : c ∈ Nat.toDigits 10 n) : c.isDigit = true :=
  Nat.isDigit_of_mem_toDigits (by decide) (by decide) h

/-- A number does not start with a zero unless it is zero. -/
theorem head?_toDigits {n : Nat} (h : 0 < n) : (Nat.toDigits 10 n).head? ≠ some '0' := by
  induction n using Nat.strongRecOn with
  | _ n ih =>
    rw [Nat.toDigits_eq_if (by decide)]
    split
    · next hlt =>
      have hdigit : ∀ d < 10, 0 < d → [d.digitChar].head? ≠ some '0' := by decide
      exact hdigit n hlt h
    · next hge =>
      have hrest := ih (n / 10) (by omega) (by omega)
      have hne : Nat.toDigits 10 (n / 10) ≠ [] := Nat.toDigits_ne_nil
      obtain ⟨c, cs, hcs⟩ := List.exists_cons_of_ne_nil hne
      rw [hcs] at hrest ⊢
      exact hrest

end LateralSql.Text
