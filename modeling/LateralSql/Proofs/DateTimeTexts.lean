/-
  Date-times survive being displayed and read again, down to the millisecond.

  What is read is valid (`DateTime.Valid`), and the text of a valid date-time is read as the
  date-time without the part of its fraction below a millisecond (`DateTime.readChars?_chars`).
-/
import LateralSql.Proofs.DigitTexts
import LateralSql.Proofs.ValueEquality
import LateralSql.Value.Read
import LateralSql.Value.Text

namespace LateralSql

/-! ## Valid date-times -/

theorem Calendar.isDate_bounds {year month day : Nat} (h : isDate year month day = true) :
    month ≤ 12 ∧ day ≤ 31 := by
  have hlength : ∀ n ∈ monthLengths year, n ≤ 31 := by
    unfold monthLengths
    split <;> decide
  rw [isDate, decide_eq_true_eq] at h
  obtain ⟨-, hmonth, -, hday⟩ := h
  refine ⟨hmonth, hday.trans ?_⟩
  cases hget : (monthLengths year)[month - 1]? with
  | none => exact Nat.zero_le _
  | some n => exact hlength n (List.mem_of_getElem? hget)

namespace DateTime

/-- The fields are in their ranges, the day is one of the calendar, and the offset is less than a
    day. -/
structure Valid (t : DateTime) : Prop where
  year : t.year < 10000
  date : Calendar.isDate t.year t.month t.day = true
  hour : t.hour ≤ 23
  minute : t.minute ≤ 59
  second : t.second ≤ 60
  nano : t.nano < 1000000000
  offset : t.offset.natAbs < 1440

theorem fraction?_point (s : List Char) :
    fraction? ('.' :: s) =
      if (Text.spanDigits s).1 = [] then none
      else some (Text.digitsValue ((Text.spanDigits s).1.take 9) *
        Nat.pow 10 (9 - (Text.spanDigits s).1.length), (Text.spanDigits s).2) :=
  rfl

/-- Nine digits, or fewer with zeros after them, are less than a second. -/
theorem fraction?_lt {s rest : List Char} {nano : Nat} (h : fraction? s = some (nano, rest)) :
    nano < 1000000000 := by
  by_cases hpoint : ∃ s', s = '.' :: s'
  · obtain ⟨s', rfl⟩ := hpoint
    rw [fraction?_point] at h
    split at h
    · cases h
    · obtain ⟨rfl, -⟩ := Prod.mk.inj (Option.some.inj h)
      generalize hds : (Text.spanDigits s').1 = ds
      have hdigits : ∀ c ∈ ds.take 9, c.isDigit = true := by
        intro c hc
        rw [← hds] at hc
        exact List.all_eq_true.1 List.all_takeWhile c (List.mem_of_mem_take hc)
      have hvalue := Text.digitsValue_lt hdigits
      rw [List.length_take] at hvalue
      have hnine : min 9 ds.length + (9 - ds.length) = 9 := by omega
      calc Text.digitsValue (ds.take 9) * Nat.pow 10 (9 - ds.length)
          < Nat.pow 10 (min 9 ds.length) * Nat.pow 10 (9 - ds.length) :=
            Nat.mul_lt_mul_of_pos_right hvalue (Nat.pow_pos (by decide))
        _ = Nat.pow 10 (min 9 ds.length + (9 - ds.length)) := (Nat.pow_add 10 _ _).symm
        _ = 1000000000 := by rw [hnine]
  · have hnone : fraction? s = some (0, s) := by
      unfold fraction?
      split
      · exact absurd ⟨_, rfl⟩ hpoint
      · rfl
    rw [hnone] at h
    obtain ⟨rfl, -⟩ := Prod.mk.inj (Option.some.inj h)
    decide

theorem offset?_lt {s : List Char} {offset : Int} (h : offset? s = some offset) :
    offset.natAbs < 1440 := by
  unfold offset? at h
  split at h
  · obtain rfl := Option.some.inj h
    decide
  · obtain rfl := Option.some.inj h
    decide
  · next c s _ _ =>
    simp only [Option.bind_eq_bind, Option.bind_eq_some_iff, Option.guard_eq_some',
      Prod.exists] at h
    obtain ⟨_, hsign, hours, s₁, hhours, s₂, hcolon, minutes, s₃, hminutes, _, ⟨-, hh, hm⟩, h⟩ := h
    obtain rfl := Option.some.inj h
    split <;> omega
  · cases h

/-- **What is read is valid.** -/
theorem readChars?_valid {s : List Char} {t : DateTime} (h : readChars? s = some t) : t.Valid := by
  obtain ⟨⟨year, s⟩, hyear, h⟩ := Option.bind_eq_some_iff.1 h
  obtain ⟨s, -, h⟩ := Option.bind_eq_some_iff.1 h
  obtain ⟨⟨month, s⟩, -, h⟩ := Option.bind_eq_some_iff.1 h
  obtain ⟨s, -, h⟩ := Option.bind_eq_some_iff.1 h
  obtain ⟨⟨day, s⟩, -, h⟩ := Option.bind_eq_some_iff.1 h
  obtain ⟨s, -, h⟩ := Option.bind_eq_some_iff.1 h
  obtain ⟨⟨hour, s⟩, -, h⟩ := Option.bind_eq_some_iff.1 h
  obtain ⟨s, -, h⟩ := Option.bind_eq_some_iff.1 h
  obtain ⟨⟨minute, s⟩, -, h⟩ := Option.bind_eq_some_iff.1 h
  obtain ⟨s, -, h⟩ := Option.bind_eq_some_iff.1 h
  obtain ⟨⟨second, s⟩, -, h⟩ := Option.bind_eq_some_iff.1 h
  obtain ⟨⟨nano, s⟩, hnano, h⟩ := Option.bind_eq_some_iff.1 h
  obtain ⟨offset, hoffset, h⟩ := Option.bind_eq_some_iff.1 h
  obtain ⟨_, hguard, h⟩ := Option.bind_eq_some_iff.1 h
  obtain ⟨hdate, hhour, hminute, hsecond⟩ := (Option.guard_eq_some' _).1 hguard
  obtain rfl := Option.some.inj h
  exact ⟨Text.digits?_lt hyear, hdate, hhour, hminute, hsecond, fraction?_lt hnano,
    offset?_lt hoffset⟩

/-! ## Texts that are read again -/

theorem after?_cons (c : Char) (s : List Char) : after? c (c :: s) = some s := if_pos rfl

theorem offset?_sign {c : Char} (hc : c ≠ 'Z' ∧ c ≠ 'z') (hsign : c = '+' ∨ isMinus c = true)
    {hours minutes : Nat} (hhours : hours ≤ 23) (hminutes : minutes ≤ 59) :
    offset? (c :: (Text.padded 2 hours ++ ':' :: Text.padded 2 minutes)) =
      some (if c = '+' then (60 * hours + minutes : Int) else -(60 * hours + minutes)) := by
  have hh : Text.digits? 2 (Text.padded 2 hours ++ ':' :: Text.padded 2 minutes) =
      some (hours, ':' :: Text.padded 2 minutes) :=
    Text.digits?_padded (show hours < 100 by omega) _
  have hm : Text.digits? 2 (Text.padded 2 minutes) = some (minutes, []) := by
    have h := Text.digits?_padded (w := 2) (show minutes < 100 by omega) []
    rwa [List.append_nil] at h
  unfold offset?
  split
  · next heq => exact absurd (List.cons.inj heq).1 hc.1
  · next heq => exact absurd (List.cons.inj heq).1 hc.2
  · next heq =>
    obtain ⟨rfl, rfl⟩ := List.cons.inj heq
    simp [hsign, hh, after?, hm, hhours, hminutes]
  · next heq => cases heq

theorem offset?_offsetText {offset : Int} (h : offset.natAbs < 1440) :
    offset? (offsetText offset) = some offset := by
  have hhours : offset.natAbs / 60 ≤ 23 := by omega
  have hminutes : offset.natAbs % 60 ≤ 59 := by omega
  unfold offsetText
  split
  · next hzero =>
    rw [hzero]
    rfl
  · by_cases hneg : offset < 0
    · rw [if_pos hneg, offset?_sign (by decide) (by decide) hhours hminutes, if_neg (by decide)]
      congr 1
      omega
    · rw [if_neg hneg, offset?_sign (by decide) (by decide) hhours hminutes, if_pos rfl]
      congr 1
      omega

theorem offsetText_head (offset : Int) : ∀ c ∈ (offsetText offset).head?, c.isDigit = false := by
  intro c hc
  unfold offsetText at hc
  split at hc
  · obtain rfl := Option.some.inj hc
    rfl
  · obtain rfl := Option.some.inj hc
    split <;> rfl

/-- Three digits of a fraction are read as milliseconds. -/
theorem fraction?_millis {m : Nat} (h : m < 1000) {rest : List Char}
    (hrest : ∀ c ∈ rest.head?, c.isDigit = false) :
    fraction? ('.' :: (Text.padded 3 m ++ rest)) = some (m * 1000000, rest) := by
  have hlength := Text.length_padded 3 m
  have hne : Text.padded 3 m ≠ [] := List.ne_nil_of_length_pos (by rw [hlength]; decide)
  rw [fraction?_point, Text.spanDigits_append (fun c => Text.isDigit_of_mem_padded) hrest,
    if_neg hne, hlength, List.take_of_length_le (by rw [hlength]; decide),
    Text.digitsValue_padded h]

/-- The date-time without the part of its fraction below a millisecond. -/
def toMillis (t : DateTime) : DateTime := { t with nano := t.nano / 1000000 * 1000000 }

/-- **The text of a valid date-time is read again.** -/
theorem readChars?_chars {t : DateTime} (h : t.Valid) : readChars? t.chars = some t.toMillis := by
  obtain ⟨hmonth, hday⟩ := Calendar.isDate_bounds h.date
  have hyear : t.year < Nat.pow 10 4 := h.year
  have hmonth : t.month < Nat.pow 10 2 := show t.month < 100 by omega
  have hday : t.day < Nat.pow 10 2 := show t.day < 100 by omega
  have hhour : t.hour < Nat.pow 10 2 := show t.hour < 100 by have := h.hour; omega
  have hminute : t.minute < Nat.pow 10 2 := show t.minute < 100 by have := h.minute; omega
  have hsecond : t.second < Nat.pow 10 2 := show t.second < 100 by have := h.second; omega
  have hmillis : t.nano / 1000000 < 1000 := by have := h.nano; omega
  have hchars : t.chars =
      Text.padded 4 t.year ++ '-' :: (Text.padded 2 t.month ++ '-' :: (Text.padded 2 t.day ++
        'T' :: (Text.padded 2 t.hour ++ ':' :: (Text.padded 2 t.minute ++ ':' ::
          (Text.padded 2 t.second ++ '.' :: (Text.padded 3 (t.nano / 1000000) ++
            offsetText t.offset)))))) := by
    simp only [chars, List.append_assoc, List.cons_append]
  rw [hchars]
  refine Option.bind_eq_some_iff.2 ⟨_, Text.digits?_padded hyear _, ?_⟩
  refine Option.bind_eq_some_iff.2 ⟨_, after?_cons '-' _, ?_⟩
  refine Option.bind_eq_some_iff.2 ⟨_, Text.digits?_padded hmonth _, ?_⟩
  refine Option.bind_eq_some_iff.2 ⟨_, after?_cons '-' _, ?_⟩
  refine Option.bind_eq_some_iff.2 ⟨_, Text.digits?_padded hday _, ?_⟩
  refine Option.bind_eq_some_iff.2 ⟨_, show separated? ('T' :: _) = some _ from rfl, ?_⟩
  refine Option.bind_eq_some_iff.2 ⟨_, Text.digits?_padded hhour _, ?_⟩
  refine Option.bind_eq_some_iff.2 ⟨_, after?_cons ':' _, ?_⟩
  refine Option.bind_eq_some_iff.2 ⟨_, Text.digits?_padded hminute _, ?_⟩
  refine Option.bind_eq_some_iff.2 ⟨_, after?_cons ':' _, ?_⟩
  refine Option.bind_eq_some_iff.2 ⟨_, Text.digits?_padded hsecond _, ?_⟩
  refine Option.bind_eq_some_iff.2 ⟨_, fraction?_millis hmillis (offsetText_head t.offset), ?_⟩
  refine Option.bind_eq_some_iff.2 ⟨_, offset?_offsetText h.offset, ?_⟩
  refine Option.bind_eq_some_iff.2 ⟨_, (Option.guard_eq_some' ()).2 ?_, rfl⟩
  exact ⟨h.date, h.hour, h.minute, h.second⟩

/-! ## Milliseconds -/

/-- The instant without the part below a millisecond. -/
def Instant.toMillis (i : Instant) : Instant := { i with nanos := i.nanos / 1000000 * 1000000 }

theorem text_toMillis (t : DateTime) : t.toMillis.text = t.text := by
  have hmillis : t.nano / 1000000 * 1000000 / 1000000 = t.nano / 1000000 := by omega
  unfold text chars toMillis
  dsimp only
  rw [hmillis]

/-- The second billion of a leap second is whole milliseconds. -/
theorem instant_toMillis (t : DateTime) : t.toMillis.instant = t.instant.toMillis := by
  unfold instant Instant.toMillis toMillis
  dsimp only
  rw [Instant.mk.injEq]
  refine ⟨rfl, ?_⟩
  split <;> omega

theorem beq_toMillis (t : DateTime) : (t.toMillis == t) = true ↔ t.nano % 1000000 = 0 := by
  rw [beq_iff, instant_toMillis, Instant.toMillis, instant]
  dsimp only
  rw [Instant.mk.injEq]
  constructor
  · rintro ⟨-, h⟩
    split at h <;> omega
  · intro h
    refine ⟨rfl, ?_⟩
    split <;> omega

end DateTime

/-! ## Main result -/

theorem Value.ofDateTimeText_ok {s : String} {v : Value} :
    ofDateTimeText s = .ok v ↔ ∃ t, DateTime.read? s = some t ∧ v = .dateTime t := by
  unfold ofDateTimeText
  cases DateTime.read? s with
  | none => simp
  | some t => simp [eq_comm]

/-- **Date-times survive display.**  The display of a date-time that was read is read again, with
    the same offset and the same instant up to milliseconds, and is displayed alike.  It equals what
    was displayed if and only if that had whole milliseconds. -/
theorem date_times_read_again {s : String} {v : Value} (h : Value.ofDateTimeText s = .ok v) :
    ∃ t t' : DateTime, v = .dateTime t ∧ Value.ofDateTimeText v.display = .ok (.dateTime t') ∧
      t'.offset = t.offset ∧ t'.instant = t.instant.toMillis ∧
      (Value.dateTime t').display = v.display ∧
      ((Value.dateTime t' == v) = true ↔ t.nano % 1000000 = 0) := by
  obtain ⟨t, hread, rfl⟩ := Value.ofDateTimeText_ok.1 h
  have hagain : DateTime.read? t.text = some t.toMillis := by
    rw [DateTime.read?, DateTime.text, String.toList_ofList]
    exact DateTime.readChars?_chars (DateTime.readChars?_valid hread)
  refine ⟨t, t.toMillis, rfl, Value.ofDateTimeText_ok.2 ⟨_, hagain, rfl⟩, rfl, ?_, ?_, ?_⟩
  · exact t.instant_toMillis
  · exact t.text_toMillis
  · exact t.beq_toMillis

/-- A leap second in its own offset, with a blank, ten digits and a typographic minus. -/
theorem date_times_read_again_leap :
    Value.ofDateTimeText "2020-02-29 23:59:60.1234567899−00:30" =
        .ok (.dateTime ⟨2020, 2, 29, 23, 59, 60, 123456789, -30⟩) ∧
      ∃ t', Value.ofDateTimeText "2020-02-29T23:59:60.123-00:30" = .ok (.dateTime t') ∧
        t'.offset = -30 ∧ t'.instant.nanos = 1123000000 ∧
        (Value.dateTime t').display = "2020-02-29T23:59:60.123-00:30" ∧
        (Value.dateTime t' == .dateTime ⟨2020, 2, 29, 23, 59, 60, 123456789, -30⟩) = false := by
  have hread : Value.ofDateTimeText "2020-02-29 23:59:60.1234567899−00:30" =
      .ok (.dateTime ⟨2020, 2, 29, 23, 59, 60, 123456789, -30⟩) := rfl
  obtain ⟨t, t', ht, hagain, hoffset, hinstant, hdisplay, hequal⟩ := date_times_read_again hread
  obtain rfl := Value.dateTime.inj ht
  have hne := Bool.eq_false_iff.2 (mt hequal.1 (by decide))
  exact ⟨hread, t', hagain, hoffset, congrArg (·.nanos) hinstant, hdisplay, hne⟩

end LateralSql
