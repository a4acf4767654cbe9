/-
  The reader of well-known text accepts its grammar.

  A recogniser that is greedy and tries alternatives in order might refuse a phrase of the
  grammar.  `Complete p L` says that `p` does not: whatever phrase of `L` stands at the start
  of a text, `p` takes it off, provided that the text goes on in a way that ends a phrase
  (`Ends`: after blanks a comma, a closing bracket or nothing).  Blanks between two phrases
  may be taken with either of them, so the rests agree up to the blanks at their starts.
-/
import Mathlib.Data.List.DropRight
import LateralSql.Proofs.WellKnownGrammar

namespace LateralSql.WellKnownText

open Computability Grammar

/-! ## Blanks, words and marks -/

section
variable {b u s t : List Char} {c k m : Char} {w : String}

theorem skipBlanks_append (hb : b ∈ blanks) (s : List Char) :
    skipBlanks (b ++ s) = skipBlanks s :=
  List.dropWhile_append_of_pos fun c hc => isBlank_iff.2 (hb c hc)

theorem skipBlanks_skipBlanks (s : List Char) : skipBlanks (skipBlanks s) = skipBlanks s :=
  List.dropWhile_idempotent isBlank s

theorem skipBlanks_cons (hc : isBlank c = false) : skipBlanks (c :: s) = c :: s :=
  List.dropWhile_cons_of_neg (by simp [hc])

theorem isBlank_of_toUpper (h : isBlank c.toUpper = false) : isBlank c = false := by
  by_contra hc
  rw [Bool.not_eq_false, isBlank_iff] at hc
  rcases hc with rfl | rfl | rfl | rfl <;> exact absurd h (by decide)

/-- The first character of a word, which is no blank. -/
theorem word_cons (hu : u ∈ word w) (hw : w.toList.head? = some k) (hk : isBlank k = false) :
    ∃ c v, u = c :: v ∧ c.toUpper = k ∧ isBlank c = false := by
  cases u with
  | nil => rw [← (show [] = w.toList from hu)] at hw; cases hw
  | cons c v =>
    rw [← (show (c :: v).map Char.toUpper = w.toList from hu)] at hw
    obtain rfl : c.toUpper = k := Option.some.inj hw
    exact ⟨c, v, rfl, rfl, isBlank_of_toUpper hk⟩

theorem word_append (hu : u ∈ word w) (s : List Char) : word? w.toList (u ++ s) = some s :=
  word?_eq_some_iff.2 ⟨u, hu, rfl⟩

theorem skipBlanks_word (hu : u ∈ word w) (hw : w.toList.head? = some k)
    (hk : isBlank k = false) : skipBlanks (u ++ s) = u ++ s := by
  obtain ⟨c, v, rfl, -, hc⟩ := word_cons hu hw hk
  exact skipBlanks_cons hc

theorem spacedWord_append (hu : u ∈ word w) (hw : w.toList.head? = some k)
    (hk : isBlank k = false) (s : List Char) :
    spacedWord? w.toList (u ++ s) = some (skipBlanks s) := by
  rw [spacedWord?, skipBlanks_word hu hw hk, word_append hu, Option.map_some]

theorem word_eq_none {ks : List Char} (hs : ∀ c ∈ s.head?, c.toUpper ≠ k) :
    word? (k :: ks) s = none := by
  cases s with
  | nil => rfl
  | cons c s => simp [word?, hs c rfl]

theorem spacedWord_eq_none {ks : List Char} (hs : ∀ c ∈ (skipBlanks s).head?, c.toUpper ≠ k) :
    spacedWord? (k :: ks) s = none := by
  rw [spacedWord?, word_eq_none hs, Option.map_none]

/-- A blank is no letter. -/
theorem head_toUpper_ne (hs : ∀ c ∈ (skipBlanks s).head?, c.toUpper ≠ k) (hk : isBlank k = false) :
    ∀ c ∈ s.head?, c.toUpper ≠ k := by
  cases s with
  | nil => rintro _ ⟨⟩
  | cons c s =>
    rintro _ ⟨⟩ rfl
    exact hs c (by rw [skipBlanks_cons (isBlank_of_toUpper hk)]; rfl) rfl

theorem mem_mark : u ∈ mark m ↔ ∃ b ∈ blanks, ∃ b' ∈ blanks, u = b ++ m :: b' := by
  constructor
  · rintro ⟨_, ⟨b, hb, _, rfl, rfl⟩, b', hb', rfl⟩
    exact ⟨b, hb, b', hb', by simp⟩
  · rintro ⟨b, hb, b', hb', rfl⟩
    exact ⟨b ++ [m], Language.append_mem_mul hb rfl, b', hb', by simp⟩

theorem mark_head (hu : u ∈ mark m) (hm : isBlank m = false) (s : List Char) :
    ∃ b ∈ blanks, skipBlanks (u ++ s) = m :: (b ++ s) := by
  obtain ⟨b, hb, b', hb', rfl⟩ := mem_mark.1 hu
  refine ⟨b', hb', ?_⟩
  rw [List.append_assoc, skipBlanks_append hb, List.cons_append, skipBlanks_cons hm]

theorem mark_append (hu : u ∈ mark m) (hm : isBlank m = false) (s : List Char) :
    mark? m (u ++ s) = some (skipBlanks s) := by
  obtain ⟨b, hb, hs⟩ := mark_head hu hm s
  simp [mark?, hs, skipBlanks_append hb]

theorem mark_congr (h : skipBlanks s = skipBlanks t) : mark? m s = mark? m t := by
  rw [mark?, mark?, h]

theorem mark_eq_none (hs : skipBlanks s = c :: t) (hc : c ≠ m) : mark? m s = none := by
  simp [mark?, hs, hc]

end

/-! ## Numbers -/

/-- The text does not continue a number. -/
def Closed (s : List Char) : Prop := ∀ c ∈ s.head?, c.isDigit = false ∧ c ≠ '.' ∧ c ≠ 'e' ∧ c ≠ 'E'

/-- A number may start with the character. -/
def startsNumber (c : Char) : Bool := c = '+' ∨ c = '-' ∨ c = '.' ∨ c.isDigit

section
variable {u rest : List Char}

theorem dropDigits_append (hu : u ∈ 1 + digits) (hrest : ∀ c ∈ rest.head?, c.isDigit = false) :
    (u ++ rest).dropWhile Char.isDigit = rest := by
  have hall : ∀ c ∈ u, c.isDigit := by
    rcases hu with rfl | ⟨-, hall⟩
    · simp
    · exact hall
  rw [List.dropWhile_append_of_pos hall]
  cases rest with
  | nil => rfl
  | cons c s => rw [List.dropWhile_cons_of_neg (by simp [hrest c rfl])]

theorem digits_cons (hu : u ∈ digits) : ∃ c v, u = c :: v ∧ c.isDigit ∧ v ∈ 1 + digits := by
  obtain ⟨hne, hall⟩ := hu
  cases u with
  | nil => exact absurd rfl hne
  | cons c v =>
    refine ⟨c, v, rfl, hall c (by simp), ?_⟩
    by_cases hv : v = []
    · exact .inl hv
    · exact .inr ⟨hv, fun d hd => hall d (List.mem_cons_of_mem c hd)⟩

theorem digits_append (hu : u ∈ digits) (hrest : ∀ c ∈ rest.head?, c.isDigit = false) :
    digits? (u ++ rest) = some rest := by
  obtain ⟨c, v, rfl, hc, hv⟩ := digits_cons hu
  rw [List.cons_append, digits?, if_pos hc, dropDigits_append hv hrest]

theorem mantissa_cons (hu : u ∈ mantissa) : ∃ c v, u = c :: v ∧ (c = '.' ∨ c.isDigit) := by
  rcases hu with ⟨ds, hds, v, -, rfl⟩ | ⟨_, rfl, v, -, rfl⟩
  · obtain ⟨c, w, rfl, hc, -⟩ := digits_cons hds
    exact ⟨c, w ++ v, rfl, .inr hc⟩
  · exact ⟨'.', v, rfl, .inl rfl⟩

theorem mantissa_append (hu : u ∈ mantissa)
    (hrest : ∀ c ∈ rest.head?, c.isDigit = false ∧ c ≠ '.') :
    mantissa? (u ++ rest) = some rest := by
  have hdigit : ∀ c ∈ rest.head?, c.isDigit = false := fun c hc => (hrest c hc).1
  unfold mantissa?
  rcases hu with ⟨ds, hds, _, rfl | ⟨_, rfl, v, hv, rfl⟩, rfl⟩ | ⟨_, rfl, v, hv, rfl⟩
  · -- digits alone, and the rest is no point
    have hread : digits? (ds ++ [] ++ rest) = some rest := by
      rw [List.append_nil]
      exact digits_append hds hdigit
    dsimp only
    rw [hread]
    split
    · rename_i h
      cases h
      exact absurd rfl (hrest '.' rfl).2
    · rename_i h
      cases h
      rfl
    · rename_i h
      cases h
  · -- digits, a point and perhaps more digits
    have hread : digits? (ds ++ (['.'] ++ v) ++ rest) = some ('.' :: (v ++ rest)) := by
      rw [List.append_assoc]
      exact digits_append hds (by simp)
    dsimp only
    rw [hread]
    exact congrArg some (dropDigits_append hv hdigit)
  · -- a point and digits
    exact digits_append hv hdigit

theorem skipSign_append (hu : u ∈ 1 + sign) (hrest : ∀ c ∈ rest.head?, c ≠ '+' ∧ c ≠ '-') :
    skipSign (u ++ rest) = rest := by
  rcases hu with rfl | rfl | rfl
  · cases rest with
    | nil => rfl
    | cons c s => simp [skipSign, hrest c rfl]
  · rfl
  · rfl

theorem digits_head (hu : u ∈ digits) : ∀ c ∈ (u ++ rest).head?, c ≠ '+' ∧ c ≠ '-' := by
  obtain ⟨d, v, rfl, hd, -⟩ := digits_cons hu
  rintro _ ⟨⟩
  exact ⟨isDigit_ne hd rfl, isDigit_ne hd rfl⟩

theorem skipExponent_append (hu : u ∈ 1 + exponent) (hrest : Closed rest) :
    skipExponent (u ++ rest) = rest := by
  rcases hu with rfl | ⟨_, ⟨_, he, sg, hsg, rfl⟩, ds, hds, rfl⟩
  · cases rest with
    | nil => rfl
    | cons c s => simp [skipExponent, hrest c rfl]
  · have hread : digits? (skipSign (sg ++ (ds ++ rest))) = some rest := by
      rw [skipSign_append hsg (digits_head hds)]
      exact digits_append hds fun c hc => (hrest c hc).1
    rcases he with rfl | rfl
    all_goals simp [skipExponent, hread]

theorem exponent_head (hu : u ∈ 1 + exponent) (hrest : Closed rest) :
    ∀ c ∈ (u ++ rest).head?, c.isDigit = false ∧ c ≠ '.' := by
  rcases hu with rfl | ⟨_, ⟨_, rfl | rfl, sg, hsg, rfl⟩, ds, hds, rfl⟩
  · exact fun c hc => ⟨(hrest c hc).1, (hrest c hc).2.1⟩
  · rintro _ ⟨⟩
    exact ⟨rfl, by decide⟩
  · rintro _ ⟨⟩
    exact ⟨rfl, by decide⟩

theorem number_append (hu : u ∈ number) (hrest : Closed rest) :
    number? (u ++ rest) = some rest := by
  obtain ⟨_, ⟨sg, hsg, m, hm, rfl⟩, e, he, rfl⟩ := hu
  have hhead : ∀ c ∈ (m ++ (e ++ rest)).head?, c ≠ '+' ∧ c ≠ '-' := by
    obtain ⟨d, v, rfl, hd⟩ := mantissa_cons hm
    rintro _ ⟨⟩
    rcases hd with rfl | hd
    · exact ⟨by decide, by decide⟩
    · exact ⟨isDigit_ne hd rfl, isDigit_ne hd rfl⟩
  simp only [List.append_assoc]
  rw [number?, skipSign_append hsg hhead, mantissa_append hm (exponent_head he hrest),
    Option.map_some, skipExponent_append he hrest]

theorem number_cons (hu : u ∈ number) : ∃ c v, u = c :: v ∧ startsNumber c := by
  obtain ⟨_, ⟨sg, hsg, m, hm, rfl⟩, e, he, rfl⟩ := hu
  rcases hsg with rfl | rfl | rfl
  · obtain ⟨c, v, rfl, hc⟩ := mantissa_cons hm
    exact ⟨c, v ++ e, rfl, by simp [startsNumber, hc]⟩
  · exact ⟨'+', m ++ e, rfl, rfl⟩
  · exact ⟨'-', m ++ e, rfl, rfl⟩

end

/-! ## Coordinates -/

/-- After blanks the text is over, or goes on with a comma or a closing bracket. -/
def Ends (s : List Char) : Prop := ∀ c ∈ (skipBlanks s).head?, c = ',' ∨ c = ')'

section
variable {u rest : List Char} {c : Char}

theorem isBlank_of_startsNumber (h : startsNumber c) : isBlank c = false := by
  by_contra hc
  rw [Bool.not_eq_false, isBlank_iff] at hc
  rcases hc with rfl | rfl | rfl | rfl <;> exact absurd h (by decide)

theorem closed_of_isBlank {s : List Char} (hc : isBlank c) : Closed (c :: s) := by
  rintro _ ⟨⟩
  rw [isBlank_iff] at hc
  rcases hc with rfl | rfl | rfl | rfl <;> decide

theorem Ends.closed (h : Ends rest) : Closed rest := by
  cases rest with
  | nil => rintro _ ⟨⟩
  | cons c s =>
    by_cases hc : isBlank c
    · exact closed_of_isBlank hc
    · rintro _ ⟨⟩
      rw [Bool.not_eq_true] at hc
      rcases h c (by rw [skipBlanks_cons hc]; rfl) with rfl | rfl <;> decide

theorem skipBlanks_number (hu : u ∈ number) : skipBlanks (u ++ rest) = u ++ rest := by
  obtain ⟨c, v, rfl, hc⟩ := number_cons hu
  exact skipBlanks_cons (isBlank_of_startsNumber hc)

/-- No number follows. -/
theorem Ends.nextNumber_eq_none (h : Ends rest) : nextNumber? rest = none := by
  rw [Option.eq_none_iff_forall_ne_some]
  intro r hr
  obtain ⟨_, ⟨b, ⟨hb, -⟩, v, hv, rfl⟩, rfl⟩ := nextNumber_sound hr
  have hskip : skipBlanks (b ++ v ++ r) = v ++ r := by
    rw [List.append_assoc, skipBlanks_append hb, skipBlanks_number hv]
  obtain ⟨c, w, rfl, hc⟩ := number_cons hv
  rcases h c (by simp only [hskip]; rfl) with rfl | rfl <;> exact absurd hc (by decide)

theorem nextNumber_append (hu : u ∈ gap * number) (hrest : Closed rest) :
    nextNumber? (u ++ rest) = some rest := by
  obtain ⟨b, ⟨hb, hne⟩, v, hv, rfl⟩ := hu
  cases b with
  | nil => exact absurd rfl hne
  | cons c b =>
    have hc : isBlank c := isBlank_iff.2 (hb c (by simp))
    have hb' : b ∈ blanks := fun d hd => hb d (List.mem_cons_of_mem c hd)
    simp only [List.cons_append, nextNumber?, if_pos hc, List.append_assoc, skipBlanks_append hb',
      skipBlanks_number hv, number_append hv hrest]

theorem closed_gap (hu : u ∈ gap * number) : Closed (u ++ rest) := by
  obtain ⟨b, ⟨hb, hne⟩, v, hv, rfl⟩ := hu
  cases b with
  | nil => exact absurd rfl hne
  | cons c b => exact closed_of_isBlank (isBlank_iff.2 (hb c (by simp)))

theorem closed_upTo {n : Nat} (hu : u ∈ upTo (gap * number) n) (h : Ends rest) :
    Closed (u ++ rest) := by
  cases n with
  | zero => obtain rfl := hu; exact h.closed
  | succ n =>
    rcases hu with rfl | ⟨v, hv, w, -, rfl⟩
    · exact h.closed
    · simp only [List.append_assoc]
      exact closed_gap hv

theorem skipNumbers_append {n : Nat} (hu : u ∈ upTo (gap * number) n) (h : Ends rest) :
    skipNumbers n (u ++ rest) = rest := by
  induction n generalizing u with
  | zero => obtain rfl := hu; rfl
  | succ n ih =>
    rcases hu with rfl | ⟨v, hv, w, hw, rfl⟩
    · rw [List.nil_append, skipNumbers, h.nextNumber_eq_none]
    · simp only [List.append_assoc]
      rw [skipNumbers, nextNumber_append hv (closed_upTo hw h)]
      exact ih hw

theorem coordinate_append (hu : u ∈ coordinate) (h : Ends rest) :
    coordinate? (u ++ rest) = some rest := by
  obtain ⟨_, ⟨x, hx, y, hy, rfl⟩, w, hw, rfl⟩ := hu
  simp only [coordinate?, List.append_assoc, number_append hx (closed_gap hy),
    nextNumber_append hy (closed_upTo hw h), skipNumbers_append hw h, Option.bind_eq_bind,
    Option.bind_some]
  rfl

theorem coordinate_cons (hu : u ∈ coordinate) : ∃ c v, u = c :: v ∧ startsNumber c := by
  obtain ⟨_, ⟨x, hx, y, -, rfl⟩, w, -, rfl⟩ := hu
  obtain ⟨c, v, rfl, hc⟩ := number_cons hx
  exact ⟨c, v ++ y ++ w, rfl, hc⟩

end

/-! ## Lists and bodies -/

/-- Off every text that starts with a phrase of `L` and then ends, `p` takes the phrase,
    whatever blanks it takes with it. -/
def Complete (p : List Char → Option (List Char)) (L : Language Char) : Prop :=
  ∀ ⦃u⦄, u ∈ L → ∀ ⦃rest⦄, Ends rest →
    ∃ r, p (skipBlanks (u ++ rest)) = some r ∧ skipBlanks r = skipBlanks rest

/-- The first alternative must not take what is meant for the second one. -/
theorem Complete.orElse {p q : List Char → Option (List Char)} {L M : Language Char}
    (hp : Complete p L) (hq : Complete q M)
    (hne : ∀ u ∈ M, ∀ rest, p (skipBlanks (u ++ rest)) = none) :
    Complete (fun s => (p s).orElse fun _ => q s) (L + M) := by
  rintro u (hu | hu) rest hrest
  · obtain ⟨r, hr, hskip⟩ := hp hu hrest
    exact ⟨r, by simp [hr], hskip⟩
  · obtain ⟨r, hr, hskip⟩ := hq hu hrest
    exact ⟨r, by simp [hne u hu, hr], hskip⟩

theorem spacedWord_complete {w : String} {k : Char} (hw : w.toList.head? = some k)
    (hk : isBlank k = false) : Complete (spacedWord? w.toList) (word w) := by
  intro u hu rest _
  refine ⟨skipBlanks rest, ?_, skipBlanks_skipBlanks rest⟩
  rw [skipBlanks_word hu hw hk, spacedWord_append hu hw hk]

theorem coordinate_complete : Complete coordinate? coordinate := by
  intro u hu rest h
  refine ⟨rest, ?_, rfl⟩
  have hread := coordinate_append hu h
  obtain ⟨c, v, rfl, hc⟩ := coordinate_cons hu
  rwa [List.cons_append, skipBlanks_cons (isBlank_of_startsNumber hc)]

section
variable {u s rest : List Char}

theorem ends_mark {m : Char} (hu : u ∈ mark m) (hm : m = ',' ∨ m = ')') : Ends (u ++ s) := by
  have hblank : isBlank m = false := by rcases hm with rfl | rfl <;> rfl
  obtain ⟨b, -, hs⟩ := mark_head hu hblank s
  intro c hc
  rw [hs] at hc
  cases hc
  exact hm

theorem point_complete : Complete point? point := by
  rintro _ ⟨_, ⟨o, ho, v, hv, rfl⟩, e, he, rfl⟩ rest h
  obtain ⟨r, hr, hskip⟩ := coordinate_complete hv (ends_mark (s := rest) he (.inr rfl))
  refine ⟨skipBlanks rest, ?_, skipBlanks_skipBlanks rest⟩
  simp only [List.append_assoc]
  rw [point?, mark_congr (skipBlanks_skipBlanks _), mark_append ho rfl]
  simp only [Option.bind_eq_bind, Option.bind_some, hr]
  rw [mark_congr hskip, mark_append he rfl]

variable {item : List Char → Option (List Char)} {L : Language Char}

theorem ends_items {xs : List (List Char)} (hxs : ∀ x ∈ xs, x ∈ mark ',' * L) {e : List Char}
    (he : e ∈ mark ')') (s : List Char) : Ends (xs.flatten ++ (e ++ s)) := by
  cases xs with
  | nil => exact ends_mark (s := s) he (.inr rfl)
  | cons x xs =>
    obtain ⟨m, hm, v, -, rfl⟩ := hxs _ List.mem_cons_self
    simp only [List.flatten_cons, List.append_assoc]
    exact ends_mark hm (.inl rfl)

theorem length_skipBlanks_le (s : List Char) : (skipBlanks s).length ≤ s.length :=
  (List.dropWhile_suffix isBlank).length_le

/-- All items up to a closing bracket are taken, if there is fuel for the commas. -/
theorem skipItems_append (hitem : Complete item L) {xs : List (List Char)}
    (hxs : ∀ x ∈ xs, x ∈ mark ',' * L) {e : List Char} (he : e ∈ mark ')') {n : Nat}
    (hs : skipBlanks s = skipBlanks (xs.flatten ++ (e ++ rest)))
    (hn : (skipBlanks s).length ≤ n) :
    skipBlanks (skipItems item n s) = skipBlanks (e ++ rest) := by
  induction xs generalizing s n with
  | nil =>
    obtain ⟨b, -, hhead⟩ := mark_head he rfl rest
    have hcomma : mark? ',' s = none := mark_eq_none (hs.trans hhead) (by decide)
    cases n with
    | zero => exact hs
    | succ n => simpa [skipItems, hcomma] using hs
  | cons x xs ih =>
    obtain ⟨m, hm, v, hv, rfl⟩ := hxs _ List.mem_cons_self
    have hxs' : ∀ x ∈ xs, x ∈ mark ',' * L := fun x hx => hxs x (List.mem_cons_of_mem _ hx)
    simp only [List.flatten_cons, List.append_assoc] at hs
    obtain ⟨b, -, hhead⟩ := mark_head hm rfl (v ++ (xs.flatten ++ (e ++ rest)))
    obtain ⟨r, hr, hskip⟩ := hitem hv (ends_items hxs' he rest)
    have hlength := length_skipBlanks_le (xs.flatten ++ (e ++ rest))
    -- the comma is a character that the rest does not have, so the fuel lasts
    rw [hs, hhead] at hn
    simp only [List.length_cons, List.length_append] at hn hlength
    obtain ⟨n, rfl⟩ : ∃ n', n = n' + 1 := ⟨n - 1, by omega⟩
    have hnext : (mark? ',' s).bind item = some r := by
      rw [mark_congr hs, mark_append hm rfl]
      exact hr
    rw [skipItems, hnext]
    exact ih hxs' hskip (by rw [hskip]; omega)

theorem list_complete (hitem : Complete item L) : Complete (list? item) (list L) := by
  rintro _ ⟨_, ⟨_, ⟨o, ho, v, hv, rfl⟩, m, hm, rfl⟩, e, he, rfl⟩ rest h
  obtain ⟨xs, rfl, hxs⟩ := Language.mem_kstar.1 hm
  obtain ⟨r, hr, hskip⟩ := hitem hv (ends_items hxs he rest)
  have hitems := skipItems_append hitem hxs he hskip (length_skipBlanks_le r)
  refine ⟨skipBlanks rest, ?_, skipBlanks_skipBlanks rest⟩
  simp only [List.append_assoc]
  rw [list?, mark_congr (skipBlanks_skipBlanks _), mark_append ho rfl]
  simp only [Option.bind_eq_bind, Option.bind_some, hr]
  rw [mark_congr hitems, mark_append he rfl]

/-- A member of a multipoint, with or without brackets: a number is no bracket. -/
theorem member_complete :
    Complete (fun s => (point? s).orElse fun _ => coordinate? s) (point + coordinate) := by
  refine point_complete.orElse coordinate_complete fun u hu rest => ?_
  obtain ⟨c, v, rfl, hc⟩ := coordinate_cons hu
  have hhead : skipBlanks (c :: v ++ rest) = c :: (v ++ rest) :=
    skipBlanks_cons (isBlank_of_startsNumber hc)
  have hc' : c ≠ '(' := by
    rintro rfl
    exact absurd hc (by decide)
  rw [point?, mark_congr (skipBlanks_skipBlanks _), mark_eq_none hhead hc']
  rfl

theorem body_complete {nested : List Char → Option (List Char)} (hnested : Complete nested L) :
    ∀ kind, Complete (body? nested kind) (body L kind)
  | .point => point_complete
  | .lineString => list_complete coordinate_complete
  | .polygon | .multiLineString => list_complete (list_complete coordinate_complete)
  | .multiPoint => list_complete member_complete
  | .multiPolygon => list_complete (list_complete (list_complete coordinate_complete))
  | .geometryCollection => list_complete hnested

end

/-! ## Geometries -/

section
variable {L : Language Char} {kind : GeometryKind} {u s rest : List Char}

theorem list_head (hu : u ∈ list L) : ∃ t, skipBlanks (u ++ s) = '(' :: t := by
  obtain ⟨_, ⟨_, ⟨o, ho, v, -, rfl⟩, m, -, rfl⟩, e, -, rfl⟩ := hu
  simp only [List.append_assoc]
  obtain ⟨b, -, hhead⟩ := mark_head ho rfl (v ++ (m ++ (e ++ s)))
  exact ⟨_, hhead⟩

theorem body_head (hu : u ∈ body L kind) : ∃ t, skipBlanks (u ++ s) = '(' :: t := by
  cases kind
  case point =>
    obtain ⟨_, ⟨o, ho, v, -, rfl⟩, e, -, rfl⟩ := hu
    simp only [List.append_assoc]
    obtain ⟨b, -, hhead⟩ := mark_head ho rfl (v ++ (e ++ s))
    exact ⟨_, hhead⟩
  all_goals exact list_head hu

theorem mark_length {m : Char} (hu : u ∈ mark m) : 0 < u.length := by
  obtain ⟨b, -, b', -, rfl⟩ := mem_mark.1 hu
  simp only [List.length_append, List.length_cons]
  omega

/-- The members of a list are shorter than the list. -/
theorem list_shorter {n : Nat} (hu : u ∈ list L) (hn : u.length ≤ n) :
    u ∈ list {v | v ∈ L ∧ v.length < n} := by
  obtain ⟨_, ⟨_, ⟨o, ho, v, hv, rfl⟩, m, hm, rfl⟩, e, he, rfl⟩ := hu
  obtain ⟨xs, rfl, hxs⟩ := Language.mem_kstar.1 hm
  have hpos := mark_length ho
  simp only [List.length_append] at hn
  refine ⟨_, ⟨_, ⟨o, ho, v, ⟨hv, by omega⟩, rfl⟩, _, ⟨xs, rfl, fun x hx => ?_⟩, rfl⟩, e, he, rfl⟩
  have hle := (List.sublist_flatten_of_mem hx).length_le
  obtain ⟨c, hc, w, hw, rfl⟩ := hxs x hx
  simp only [List.length_append] at hle
  exact Language.append_mem_mul hc ⟨hw, by omega⟩

theorem body_shorter {n : Nat} (hu : u ∈ body L kind) (hn : u.length ≤ n) :
    u ∈ body {v | v ∈ L ∧ v.length < n} kind := by
  cases kind
  case geometryCollection => exact list_shorter hu hn
  all_goals exact hu

/-- Dimensions are taken off, if there are any, before a letter that starts none of them. -/
theorem skipDimensions_append (hu : u ∈ 1 + dimensions * blanks)
    (hz : ∀ c ∈ (skipBlanks s).head?, c.toUpper ≠ 'Z')
    (hm : ∀ c ∈ (skipBlanks s).head?, c.toUpper ≠ 'M') :
    skipDimensions (skipBlanks (u ++ s)) = skipBlanks s := by
  rcases hu with rfl | ⟨d, hd, b, hb, rfl⟩
  · rw [List.nil_append, skipDimensions]
    rw [← skipBlanks_skipBlanks] at hz hm
    simp [spacedWord_eq_none hz, spacedWord_eq_none hm]
  · have hrest : skipBlanks (b ++ s) = skipBlanks s := skipBlanks_append hb s
    simp only [List.append_assoc]
    rcases hd with (hd | hd) | hd
    · have hzm : spacedWord? ['Z', 'M'] (d ++ (b ++ s)) = some (skipBlanks s) :=
        hrest ▸ spacedWord_append hd rfl rfl (b ++ s)
      rw [skipBlanks_word hd rfl rfl, skipDimensions]
      simp [hzm]
    · have hz : spacedWord? ['Z'] (d ++ (b ++ s)) = some (skipBlanks s) :=
        hrest ▸ spacedWord_append hd rfl rfl (b ++ s)
      have hzm : spacedWord? ['Z', 'M'] (d ++ (b ++ s)) = none := by
        obtain ⟨c, rfl, hc⟩ : ∃ c, d = [c] ∧ c.toUpper = 'Z' := by simpa [word] using hd
        have hm' : word? ['M'] (b ++ s) = none :=
          word_eq_none (head_toUpper_ne (hrest ▸ hm) rfl)
        rw [spacedWord?, skipBlanks_word hd rfl rfl]
        simp [word?, hc, hm']
      rw [skipBlanks_word hd rfl rfl, skipDimensions]
      simp [hzm, hz]
    · have hm : spacedWord? ['M'] (d ++ (b ++ s)) = some (skipBlanks s) :=
        hrest ▸ spacedWord_append hd rfl rfl (b ++ s)
      have hz : ∀ ks, spacedWord? ('Z' :: ks) (d ++ (b ++ s)) = none := by
        intro ks
        apply spacedWord_eq_none
        rw [skipBlanks_word hd rfl rfl]
        obtain ⟨c, v, rfl, hc, -⟩ := word_cons hd rfl rfl
        rintro _ ⟨⟩
        rw [hc]
        decide
      rw [skipBlanks_word hd rfl rfl, skipDimensions]
      simp [hm, hz]

theorem content_head (hu : u ∈ word "EMPTY" + body L kind) :
    ∀ c ∈ (skipBlanks (u ++ s)).head?, c.toUpper = 'E' ∨ c = '(' := by
  rcases hu with hu | hu
  · rw [skipBlanks_word hu rfl rfl]
    obtain ⟨c, v, rfl, hc, -⟩ := word_cons hu rfl rfl
    rintro _ ⟨⟩
    exact .inl hc
  · obtain ⟨t, ht⟩ := body_head (s := s) hu
    rw [ht]
    rintro _ ⟨⟩
    exact .inr rfl

theorem content_complete {nested : List Char → Option (List Char)} (hnested : Complete nested L) :
    Complete (fun s => (spacedWord? "EMPTY".toList s).orElse fun _ => body? nested kind s)
      (word "EMPTY" + body L kind) := by
  refine (spacedWord_complete rfl rfl).orElse (body_complete hnested kind) fun u hu rest => ?_
  apply spacedWord_eq_none (k := 'E')
  obtain ⟨t, ht⟩ := body_head (s := rest) hu
  rw [skipBlanks_skipBlanks, ht]
  rintro _ ⟨⟩
  decide

theorem tag_head (kind : GeometryKind) :
    ∃ k, (tag kind).toList.head? = some k ∧ isBlank k = false ∧ k ≠ 'S' := by
  cases kind <;> exact ⟨_, rfl, by decide⟩

/-- One level of a geometry, given that its members are read. -/
theorem shape_step {n : Nat} (hnested : Complete (fun s => (shape? n s).map (·.2)) L)
    (hu : u ∈ geometryOf L kind) (hrest : Ends rest) :
    ∃ r, shape? (n + 1) (skipBlanks (u ++ rest)) = some (kind, r) ∧
      skipBlanks r = skipBlanks rest := by
  obtain ⟨_, ⟨_, ⟨_, ⟨_, ⟨b₁, hb₁, w, hw, rfl⟩, b₂, hb₂, rfl⟩, d, hd, rfl⟩, x, hx, rfl⟩,
    b₃, hb₃, rfl⟩ := hu
  have hskip : skipBlanks (b₃ ++ rest) = skipBlanks rest := skipBlanks_append hb₃ rest
  have hends : Ends (b₃ ++ rest) := by rwa [Ends, hskip]
  obtain ⟨r, hr, hr'⟩ := content_complete hnested hx hends
  refine ⟨r, ?_, hr'.trans hskip⟩
  obtain ⟨k, hk, hblank, -⟩ := tag_head kind
  have hkind : ∀ y, kind? (w ++ y) = some (kind, y) := by
    intro y
    rw [kind?_eq_some_iff, keyword_eq]
    exact word_append hw y
  have hdims : skipDimensions (skipBlanks (d ++ (x ++ (b₃ ++ rest)))) =
      skipBlanks (x ++ (b₃ ++ rest)) := by
    apply skipDimensions_append hd
    all_goals
      intro c hc
      rcases content_head hx c hc with h | rfl
      · rw [h]
        decide
      · decide
  simp only [List.append_assoc]
  rw [skipBlanks_append hb₁, skipBlanks_word hw hk hblank, shape?, skipBlanks_word hw hk hblank,
    hkind]
  simp only [Option.bind_eq_bind, Option.bind_some, skipBlanks_append hb₂, hdims]
  exact Option.bind_eq_some_iff.2 ⟨r, hr, rfl⟩

theorem geometryOf_shorter {n : Nat} (hu : u ∈ geometryOf L kind)
    (hn : (skipBlanks u).length ≤ n) : u ∈ geometryOf {v | v ∈ L ∧ v.length < n} kind := by
  obtain ⟨_, ⟨_, ⟨_, ⟨_, ⟨b₁, hb₁, w, hw, rfl⟩, b₂, hb₂, rfl⟩, d, hd, rfl⟩, x, hx, rfl⟩,
    b₃, hb₃, rfl⟩ := hu
  have hx' : x ∈ word "EMPTY" + body {v | v ∈ L ∧ v.length < n} kind := by
    rcases hx with hx | hx
    · exact .inl hx
    · obtain ⟨k, hk, hblank, -⟩ := tag_head kind
      simp only [List.append_assoc] at hn
      rw [skipBlanks_append hb₁, skipBlanks_word hw hk hblank] at hn
      simp only [List.length_append] at hn
      exact .inr (body_shorter hx (by omega))
  exact ⟨_, ⟨_, ⟨_, ⟨_, ⟨b₁, hb₁, w, hw, rfl⟩, b₂, hb₂, rfl⟩, d, hd, rfl⟩, x, hx', rfl⟩,
    b₃, hb₃, rfl⟩

/-- The fuel of `shape?` bounds the depth of the nesting, which the length of the text bounds. -/
theorem shape_complete (hu : Derives kind u) : ∀ {n : Nat}, (skipBlanks u).length < n →
    ∀ {rest}, Ends rest →
      ∃ r, shape? n (skipBlanks (u ++ rest)) = some (kind, r) ∧ skipBlanks r = skipBlanks rest := by
  induction hu with
  | @step kind u nested _ mem ih =>
    intro n hn rest hrest
    obtain ⟨n, rfl⟩ : ∃ n', n = n' + 1 := ⟨n - 1, by omega⟩
    -- with one unit less, only the members that are shorter than the whole are known to be read
    have hnested : Complete (fun s => (shape? n s).map (·.2))
        {v | (∃ k, v ∈ nested k) ∧ v.length < n} := by
      rintro v ⟨⟨k, hv⟩, hlength⟩ rest hrest
      obtain ⟨r, hr, hskip⟩ := ih k v hv (lt_of_le_of_lt (length_skipBlanks_le v) hlength) hrest
      exact ⟨r, by simp [hr], hskip⟩
    exact shape_step hnested (geometryOf_shorter mem (Nat.le_of_lt_succ hn)) hrest

theorem geometry_head (hu : u ∈ geometry kind) :
    ∀ c ∈ (skipBlanks (u ++ s)).head?, c.toUpper ≠ 'S' := by
  obtain ⟨nested, -, mem⟩ := hu
  obtain ⟨_, ⟨_, ⟨_, ⟨_, ⟨b₁, hb₁, w, hw, rfl⟩, b₂, -, rfl⟩, d, -, rfl⟩, x, -, rfl⟩,
    b₃, -, rfl⟩ := mem
  obtain ⟨k, hk, hblank, hne⟩ := tag_head kind
  simp only [List.append_assoc]
  rw [skipBlanks_append hb₁, skipBlanks_word hw hk hblank]
  obtain ⟨c, v, rfl, rfl, -⟩ := word_cons hw hk hblank
  rintro _ ⟨⟩
  exact hne

end

/-! ## Whole texts -/

section
variable {u s : List Char} {n : Srid}

theorem srid_eq_none (hs : ∀ c ∈ (skipBlanks s).head?, c.toUpper ≠ 'S') : srid? s = none := by
  have hnone : spacedWord? ['S', 'R', 'I', 'D', '='] s = none := spacedWord_eq_none hs
  rw [srid?, hnone]
  rfl

theorem mark_head_not_digit (hu : u ∈ mark ';') : ∀ c ∈ (u ++ s).head?, c.isDigit = false := by
  obtain ⟨b, hb, b', -, rfl⟩ := mem_mark.1 hu
  cases b with
  | nil => rintro _ ⟨⟩; rfl
  | cons c b =>
    rintro _ ⟨⟩
    rcases hb c (by simp) with rfl | rfl | rfl | rfl <;> rfl

theorem takeDigits_append (hu : u ∈ digits) (hs : ∀ c ∈ s.head?, c.isDigit = false) :
    (u ++ s).takeWhile Char.isDigit = u := by
  rw [List.takeWhile_append_of_pos hu.2]
  cases s with
  | nil => simp
  | cons c s => simp [hs c rfl]

theorem identifier_split (hu : u ∈ identifier n) : ∃ minus ds, u = minus ++ ds ∧ ds ∈ digits ∧
    (minus = ['-'] ∨ minus = []) ∧ Srid.read? u = some n := by
  rcases hu with ⟨hds, hn⟩ | ⟨ds, hds, rfl, hn⟩
  · exact ⟨[], u, rfl, hds, .inr rfl, by rw [readSrid_eq_some_iff, integer_digits hds, hn]⟩
  · exact ⟨['-'], ds, rfl, hds, .inl rfl, by rw [readSrid_eq_some_iff, integer_minus hds, hn]⟩

theorem skipBlanks_identifier (hu : u ∈ identifier n) : skipBlanks (u ++ s) = u ++ s := by
  rcases hu with ⟨hds, -⟩ | ⟨ds, -, rfl, -⟩
  · obtain ⟨c, v, rfl, hc, -⟩ := digits_cons hds
    exact skipBlanks_cons (isBlank_of_startsNumber (by simp [startsNumber, hc]))
  · exact skipBlanks_cons rfl

theorem srid_append (hu : u ∈ sridPrefix n) (s : List Char) :
    srid? (u ++ s) = some (n, skipBlanks s) := by
  obtain ⟨_, ⟨_, ⟨_, ⟨b, hb, w, hw, rfl⟩, b', hb', rfl⟩, i, hi, rfl⟩, m, hm, rfl⟩ := hu
  have hword : spacedWord? "SRID=".toList (b ++ w ++ b' ++ i ++ m ++ s) = some (i ++ (m ++ s)) := by
    simp only [List.append_assoc]
    rw [spacedWord?, skipBlanks_append hb, ← spacedWord?, spacedWord_append hw rfl rfl,
      skipBlanks_append hb', skipBlanks_identifier hi]
  obtain ⟨minus, ds, rfl, hds, hminus, hn⟩ := identifier_split hi
  have htake := takeDigits_append hds (mark_head_not_digit (s := s) hm)
  have hdrop := dropDigits_append (.inr hds) (mark_head_not_digit (s := s) hm)
  refine srid?_eq_some_iff.2 ⟨minus, ds ++ (m ++ s), ?_, hminus, ?_, ?_, ?_⟩
  · simpa using hword
  · rw [htake]
    exact hds.1
  · rwa [htake]
  · rw [hdrop, mark_append hm rfl]

theorem ends_blanks (hu : u ∈ blanks) : Ends u := by
  intro c hc
  rw [← List.append_nil u, skipBlanks_append hu] at hc
  cases hc

theorem length_skipBlanks_append (u s : List Char) :
    (skipBlanks u).length ≤ (skipBlanks (u ++ s)).length := by
  simp only [skipBlanks, List.dropWhile_append]
  split
  · rename_i h
    rw [List.isEmpty_iff.1 h]
    exact Nat.zero_le _
  · simp

theorem geometry_complete {kind : GeometryKind} (hu : u ∈ blanks * geometry kind * blanks) :
    ∃ r, shape? ((skipBlanks u).length + 1) (skipBlanks u) = some (kind, r) ∧
      skipBlanks r = [] := by
  obtain ⟨_, ⟨b, hb, g, hg, rfl⟩, b', hb', rfl⟩ := hu
  have hlength : (skipBlanks g).length < (skipBlanks (g ++ b')).length + 1 :=
    Nat.lt_succ_of_le (length_skipBlanks_append g b')
  obtain ⟨r, hr, hskip⟩ := shape_complete hg hlength (ends_blanks hb')
  simp only [List.append_assoc]
  rw [skipBlanks_append hb]
  refine ⟨r, hr, hskip.trans ?_⟩
  rw [← List.append_nil b', skipBlanks_append hb']
  rfl

end

/-- A text is read exactly if it derives from the grammar, and then with the kind and the
    reference system of the derivation. -/
theorem read_iff_derives (s : String) (kind : GeometryKind) (srid : Option Srid) :
    (∃ text, read? s = some ⟨kind, srid, text⟩) ↔ s.toList ∈ input srid kind := by
  constructor
  · rintro ⟨text, h⟩
    exact read_sound h
  · intro h
    rw [exists_read_iff]
    cases srid with
    | none =>
      obtain ⟨r, hr, hend⟩ := geometry_complete h
      refine ⟨s.toList, r, ⟨srid_eq_none ?_, fun _ => rfl⟩, hr, hend⟩
      obtain ⟨_, ⟨b, hb, g, hg, rfl⟩, b', -, hs⟩ := h
      rw [← hs]
      simp only [List.append_assoc]
      rw [skipBlanks_append hb]
      exact geometry_head hg
    | some n =>
      obtain ⟨u, hu, v, hv, hs⟩ := h
      obtain ⟨r, hr, hend⟩ := geometry_complete hv
      rw [← skipBlanks_skipBlanks v] at hr
      refine ⟨skipBlanks v, r, ⟨?_, fun h => nomatch h⟩, hr, hend⟩
      rw [← hs]
      exact srid_append hu v

end LateralSql.WellKnownText
