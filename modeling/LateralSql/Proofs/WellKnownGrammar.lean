/-
  The grammar of well-known text, and that everything the reader accepts derives from it.

  The phrases are languages over characters, written with the operations of a Kleene algebra:
  `1` is the empty phrase, `+` the choice, `*` the sequence and `∗` the repetition.  A
  geometry may hold geometries, so `Grammar.Derives` is an inductive predicate: one step
  derives a geometry from any family of phrases that are derived already.

  * `Grammar.input srid kind` are the texts of a geometry of the kind, with the reference
    system in front;
  * `Sound p L`: what the recogniser `p` takes off a text is a phrase of `L`.  Every
    recogniser of `WellKnownText` is sound for its phrase, up to `shape_sound`.
-/
import Mathlib.Computability.Language
import LateralSql.Geometry.WellKnownText

namespace LateralSql.WellKnownText

open Computability

/-! ## Phrases -/

namespace Grammar

/-- Any run of blanks, possibly empty. -/
def blanks : Language Char := {u | ∀ c ∈ u, c = ' ' ∨ c = '\t' ∨ c = '\r' ∨ c = '\n'}

/-- At least one blank. -/
def gap : Language Char := {u | u ∈ blanks ∧ u ≠ []}

/-- A word, given in capitals, in any letter case. -/
def word (w : String) : Language Char := {u | u.map Char.toUpper = w.toList}

/-- A bracket, comma or semicolon with blanks around it. -/
def mark (m : Char) : Language Char := blanks * {[m]} * blanks

/-- At least one digit. -/
def digits : Language Char := {u | u ≠ [] ∧ ∀ c ∈ u, c.isDigit}

/-- A plus or a minus. -/
def sign : Language Char := {['+'], ['-']}

/-- Digits with an optional point among or after them, or a point and digits. -/
def mantissa : Language Char := digits * (1 + {['.']} * (1 + digits)) + {['.']} * digits

/-- The power of ten of a number. -/
def exponent : Language Char := {['e'], ['E']} * (1 + sign) * digits

/-- A number with an optional sign and an optional exponent. -/
def number : Language Char := (1 + sign) * mantissa * (1 + exponent)

/-- At most `n` phrases in a row. -/
def upTo (L : Language Char) : Nat → Language Char
  | 0 => 1
  | n + 1 => 1 + L * upTo L n

/-- Two to four numbers with blanks between them. -/
def coordinate : Language Char := number * (gap * number) * upTo (gap * number) 2

/-- Items between brackets, at least one, with commas between them. -/
def list (item : Language Char) : Language Char :=
  mark '(' * item * (mark ',' * item)∗ * mark ')'

/-- A coordinate between brackets. -/
def point : Language Char := mark '(' * coordinate * mark ')'

/-- What follows the keyword of a kind, `nested` being the members of a collection. -/
def body (nested : Language Char) : GeometryKind → Language Char
  | .point => point
  | .lineString => list coordinate
  | .polygon | .multiLineString => list (list coordinate)
  | .multiPoint => list (point + coordinate)
  | .multiPolygon => list (list (list coordinate))
  | .geometryCollection => list nested

/-- The keyword of a kind, in capitals. -/
def tag : GeometryKind → String
  | .point => "POINT"
  | .lineString => "LINESTRING"
  | .polygon => "POLYGON"
  | .multiPoint => "MULTIPOINT"
  | .multiLineString => "MULTILINESTRING"
  | .multiPolygon => "MULTIPOLYGON"
  | .geometryCollection => "GEOMETRYCOLLECTION"

/-- The dimensions beyond the plane. -/
def dimensions : Language Char := word "ZM" + word "Z" + word "M"

/-- A geometry of the kind whose members, if it is a collection, are out of `nested`. -/
def geometryOf (nested : Language Char) (kind : GeometryKind) : Language Char :=
  blanks * word (tag kind) * blanks * (1 + dimensions * blanks) *
    (word "EMPTY" + body nested kind) * blanks

/-- The text is a geometry of the kind, with members nested to any depth. -/
inductive Derives : GeometryKind → List Char → Prop where
  | step {kind : GeometryKind} {u : List Char} (nested : GeometryKind → Language Char)
      (derived : ∀ k, ∀ v ∈ nested k, Derives k v)
      (mem : u ∈ geometryOf {v | ∃ k, v ∈ nested k} kind) : Derives kind u

/-- The geometries of a kind. -/
def geometry (kind : GeometryKind) : Language Char := {u | Derives kind u}

/-- The decimal notation of an identifier, with an optional minus sign. -/
def identifier (n : Srid) : Language Char :=
  {u | (u ∈ digits ∧ n.toInt = Text.digitsValue u) ∨
    ∃ ds ∈ digits, u = '-' :: ds ∧ n.toInt = -Text.digitsValue ds}

/-- A prefix that names the reference system. -/
def sridPrefix (n : Srid) : Language Char :=
  blanks * word "SRID=" * blanks * identifier n * mark ';'

/-- A whole text. -/
def input : Option Srid → GeometryKind → Language Char
  | none, kind => blanks * geometry kind * blanks
  | some n, kind => sridPrefix n * (blanks * geometry kind * blanks)

end Grammar

open Grammar

/-! ## Soundness -/

/-- What `p` takes off a text is a phrase of `L`. -/
def Sound (p : List Char → Option (List Char)) (L : Language Char) : Prop :=
  ∀ ⦃s r⦄, p s = some r → ∃ u ∈ L, u ++ r = s

section
variable {p q : List Char → Option (List Char)} {L M : Language Char}

theorem Sound.bind (hp : Sound p L) (hq : Sound q M) : Sound (fun s => (p s).bind q) (L * M) := by
  intro s r h
  obtain ⟨t, ht, hr⟩ := Option.bind_eq_some_iff.1 h
  obtain ⟨u, hu, rfl⟩ := hp ht
  obtain ⟨v, hv, rfl⟩ := hq hr
  exact ⟨u ++ v, Language.append_mem_mul hu hv, List.append_assoc ..⟩

theorem Sound.orElse (hp : Sound p L) (hq : Sound q M) :
    Sound (fun s => (p s).orElse fun _ => q s) (L + M) := by
  intro s r h
  dsimp only at h
  cases hs : p s with
  | some t =>
    obtain rfl : t = r := by simpa [hs] using h
    obtain ⟨u, hu, rfl⟩ := hp hs
    exact ⟨u, .inl hu, rfl⟩
  | none =>
    obtain ⟨u, hu, rfl⟩ := hq (by simpa [hs] using h : q s = some r)
    exact ⟨u, .inr hu, rfl⟩

end

theorem isBlank_iff {c : Char} : isBlank c ↔ c = ' ' ∨ c = '\t' ∨ c = '\r' ∨ c = '\n' := by
  simp [isBlank]

theorem skipBlanks_sound : Sound (fun s => some (skipBlanks s)) blanks := by
  rintro s _ ⟨⟩
  refine ⟨s.takeWhile isBlank, fun c hc => isBlank_iff.1 ?_, List.takeWhile_append_dropWhile⟩
  exact List.all_eq_true.1 List.all_takeWhile c hc

theorem word?_eq_some_iff {ks s r : List Char} :
    word? ks s = some r ↔ ∃ u, u.map Char.toUpper = ks ∧ u ++ r = s := by
  induction ks generalizing s with
  | nil => simp [word?, eq_comm]
  | cons k ks ih =>
    constructor
    · intro h
      cases s with
      | nil => simp [word?] at h
      | cons c s =>
        simp only [word?, Option.ite_none_right_eq_some] at h
        obtain ⟨u, rfl, rfl⟩ := ih.1 h.2
        exact ⟨c :: u, by simp [h.1], rfl⟩
    · rintro ⟨u, hu, rfl⟩
      obtain ⟨c, v, rfl, rfl, rfl⟩ := List.map_eq_cons_iff.1 hu
      simpa [word?] using ih.2 ⟨v, rfl, rfl⟩

theorem word_sound (w : String) : Sound (word? w.toList) (word w) :=
  fun _ _ h => word?_eq_some_iff.1 h

theorem spacedWord_sound (w : String) :
    Sound (spacedWord? w.toList) (blanks * word w * blanks) := by
  intro s r h
  rw [spacedWord?, Option.map_eq_bind] at h
  exact (skipBlanks_sound.bind (word_sound w)).bind skipBlanks_sound h

theorem mark_sound (m : Char) : Sound (mark? m) (mark m) := by
  intro s r h
  obtain ⟨a, ha, hs⟩ := skipBlanks_sound (s := s) rfl
  rw [mark?] at h
  cases hrest : skipBlanks s with
  | nil => simp [hrest] at h
  | cons c t =>
    simp only [hrest, Option.ite_none_right_eq_some, Option.some.injEq] at h
    obtain ⟨rfl, rfl⟩ := h
    obtain ⟨b, hb, ht⟩ := skipBlanks_sound (s := t) rfl
    refine ⟨a ++ [c] ++ b, Language.append_mem_mul (Language.append_mem_mul ha rfl) hb, ?_⟩
    rw [List.append_assoc, ht, List.append_assoc, List.singleton_append, ← hrest, hs]

theorem digits_sound : Sound digits? digits := by
  rintro (_ | ⟨c, s⟩) r h
  · simp [digits?] at h
  · simp only [digits?, Option.ite_none_right_eq_some, Option.some.injEq] at h
    obtain ⟨hc, rfl⟩ := h
    refine ⟨c :: s.takeWhile Char.isDigit, ⟨by simp, ?_⟩, ?_⟩
    · rintro d (_ | ⟨_, hd⟩)
      · exact hc
      · exact List.all_eq_true.1 List.all_takeWhile d hd
    · rw [List.cons_append, List.takeWhile_append_dropWhile]

/-- A run of digits that may be empty. -/
theorem dropDigits_sound : Sound (fun s => some (s.dropWhile Char.isDigit)) (1 + digits) := by
  rintro (_ | ⟨c, s⟩) _ ⟨⟩
  · exact ⟨[], .inl rfl, rfl⟩
  · by_cases hc : c.isDigit
    · obtain ⟨u, hu, hs⟩ := digits_sound (s := c :: s) (by rw [digits?, if_pos hc])
      exact ⟨u, .inr hu, by rwa [List.dropWhile_cons_of_pos hc]⟩
    · exact ⟨[], .inl rfl, by rw [List.dropWhile_cons_of_neg hc]; rfl⟩

theorem skipSign_sound : Sound (fun s => some (skipSign s)) (1 + sign) := by
  rintro (_ | ⟨c, s⟩) _ ⟨⟩
  · exact ⟨[], .inl rfl, rfl⟩
  · by_cases hc : c = '+' ∨ c = '-'
    · refine ⟨[c], .inr ?_, by simp [skipSign, hc]⟩
      rcases hc with rfl | rfl
      · exact .inl rfl
      · exact .inr rfl
    · exact ⟨[], .inl rfl, by simp [skipSign, hc]⟩

theorem mantissa_sound : Sound mantissa? mantissa := by
  intro s r h
  unfold mantissa? at h
  split at h
  case h_1 t ht =>
    cases h
    obtain ⟨u, hu, rfl⟩ := digits_sound ht
    obtain ⟨v, hv, hs⟩ := dropDigits_sound (s := t) rfl
    refine ⟨u ++ ('.' :: v), .inl (Language.append_mem_mul hu (.inr ?_)), by simp [hs]⟩
    exact Language.append_mem_mul (a := ['.']) rfl hv
  case h_2 t _ ht =>
    cases h
    obtain ⟨u, hu, rfl⟩ := digits_sound ht
    exact ⟨u ++ [], .inl (Language.append_mem_mul hu (.inl rfl)), by simp⟩
  case h_3 =>
    split at h
    · obtain ⟨u, hu, rfl⟩ := digits_sound h
      exact ⟨'.' :: u, .inr (Language.append_mem_mul (a := ['.']) rfl hu), rfl⟩
    · cases h

theorem skipExponent_sound : Sound (fun s => some (skipExponent s)) (1 + exponent) := by
  rintro (_ | ⟨c, s⟩) _ ⟨⟩
  · exact ⟨[], .inl rfl, rfl⟩
  · rw [skipExponent]
    split
    · rename_i hc
      cases hd : digits? (skipSign s) with
      | none => exact ⟨[], .inl rfl, rfl⟩
      | some r =>
        obtain ⟨u, hu, rfl⟩ := (skipSign_sound.bind digits_sound) (s := s) hd
        have he : [c] ∈ ({['e'], ['E']} : Language Char) := by
          rcases hc with rfl | rfl
          · exact .inl rfl
          · exact .inr rfl
        refine ⟨c :: u, .inr ?_, rfl⟩
        rw [exponent, mul_assoc]
        exact Language.append_mem_mul he hu
    · exact ⟨[], .inl rfl, rfl⟩

theorem number_sound : Sound number? number := by
  intro s r h
  rw [number?, Option.map_eq_bind] at h
  exact (skipSign_sound.bind mantissa_sound).bind skipExponent_sound h

theorem nextNumber_sound : Sound nextNumber? (gap * number) := by
  rintro (_ | ⟨c, s⟩) r h
  · simp [nextNumber?] at h
  · simp only [nextNumber?, Option.ite_none_right_eq_some] at h
    obtain ⟨b, hb, hs⟩ := skipBlanks_sound (s := s) rfl
    obtain ⟨u, hu, hr⟩ := number_sound h.2
    refine ⟨(c :: b) ++ u, Language.append_mem_mul ⟨?_, by simp⟩ hu, by simp [hr, hs]⟩
    rintro d (_ | ⟨_, hd⟩)
    · exact isBlank_iff.1 h.1
    · exact hb d hd

theorem skipNumbers_sound (n : Nat) :
    Sound (fun s => some (skipNumbers n s)) (upTo (gap * number) n) := by
  induction n with
  | zero => rintro s _ ⟨⟩; exact ⟨[], rfl, rfl⟩
  | succ n ih =>
    rintro s _ ⟨⟩
    rw [skipNumbers]
    cases hs : nextNumber? s with
    | none => exact ⟨[], .inl rfl, rfl⟩
    | some t =>
      obtain ⟨u, hu, rfl⟩ := nextNumber_sound hs
      obtain ⟨v, hv, ht⟩ := ih (s := t) rfl
      exact ⟨u ++ v, .inr (Language.append_mem_mul hu hv), by simpa using ht⟩

theorem coordinate_sound : Sound coordinate? coordinate :=
  fun _ _ h => by
    rw [coordinate, mul_assoc]
    exact number_sound.bind (nextNumber_sound.bind (skipNumbers_sound 2)) h

section
variable {item : List Char → Option (List Char)} {L : Language Char}

theorem append_mem_kstar {u v : List Char} (hu : u ∈ L) (hv : v ∈ L∗) : u ++ v ∈ L∗ :=
  (mul_kstar_le_kstar : L * L∗ ≤ L∗) (Language.append_mem_mul hu hv)

theorem skipItems_sound (hitem : Sound item L) (n : Nat) :
    Sound (fun s => some (skipItems item n s)) (mark ',' * L)∗ := by
  induction n with
  | zero => rintro s _ ⟨⟩; exact ⟨[], Language.nil_mem_kstar _, rfl⟩
  | succ n ih =>
    rintro s _ ⟨⟩
    rw [skipItems]
    cases hs : (mark? ',' s).bind item with
    | none => exact ⟨[], Language.nil_mem_kstar _, rfl⟩
    | some t =>
      obtain ⟨u, hu, rfl⟩ := (mark_sound ',').bind hitem hs
      obtain ⟨v, hv, ht⟩ := ih (s := t) rfl
      exact ⟨u ++ v, append_mem_kstar hu hv, by simpa using ht⟩

theorem list_sound (hitem : Sound item L) : Sound (list? item) (list L) := by
  intro s r h
  obtain ⟨t, ht, h⟩ := Option.bind_eq_some_iff.1 h
  obtain ⟨t', ht', hr⟩ := Option.bind_eq_some_iff.1 h
  obtain ⟨u, hu, rfl⟩ := (mark_sound '(').bind hitem (s := s) (by simpa [ht] using ht')
  obtain ⟨v, hv, rfl⟩ := (skipItems_sound hitem t'.length).bind (mark_sound ')') hr
  rw [list, mul_assoc]
  exact ⟨u ++ v, Language.append_mem_mul hu hv, List.append_assoc ..⟩

end

theorem point_sound : Sound point? point :=
  fun _ _ h => by
    rw [point, mul_assoc]
    exact (mark_sound '(').bind (coordinate_sound.bind (mark_sound ')')) h

theorem body_sound {nested : List Char → Option (List Char)} {L : Language Char}
    (hnested : Sound nested L) : ∀ kind, Sound (body? nested kind) (body L kind)
  | .point => point_sound
  | .lineString => list_sound coordinate_sound
  | .polygon | .multiLineString => list_sound (list_sound coordinate_sound)
  | .multiPoint => list_sound (point_sound.orElse coordinate_sound)
  | .multiPolygon => list_sound (list_sound (list_sound coordinate_sound))
  | .geometryCollection => list_sound hnested

/-! ## Kinds and geometries -/

theorem keyword_eq (kind : GeometryKind) : keyword kind = (tag kind).toList := by
  cases kind <;> decide

/-- No keyword starts another one. -/
theorem eq_of_keyword_starts {j k : GeometryKind} (h : keyword j <+: keyword k) : j = k := by
  revert h
  cases j <;> cases k <;> decide

theorem kind_unique {s r r' : List Char} {j k : GeometryKind} (hj : word? (keyword j) s = some r)
    (hk : word? (keyword k) s = some r') : j = k := by
  obtain ⟨u, hu, rfl⟩ := word?_eq_some_iff.1 hj
  obtain ⟨v, hv, hs⟩ := word?_eq_some_iff.1 hk
  have hp : v <+: u ++ r := ⟨r', hs⟩
  rcases List.prefix_or_prefix_of_prefix (List.prefix_append u r) hp with h | h
  · exact eq_of_keyword_starts (hu ▸ hv ▸ h.map Char.toUpper)
  · exact (eq_of_keyword_starts (hu ▸ hv ▸ h.map Char.toUpper)).symm

theorem kind?_eq_some_iff {s r : List Char} {kind : GeometryKind} :
    kind? s = some (kind, r) ↔ word? (keyword kind) s = some r := by
  have hsound : ∀ {k t}, kind? s = some (k, t) → word? (keyword k) s = some t := by
    intro k t h
    obtain ⟨j, -, hj⟩ := List.exists_of_findSome?_eq_some h
    obtain ⟨t', ht', heq⟩ := Option.map_eq_some_iff.1 hj
    cases heq
    exact ht'
  refine ⟨hsound, fun h => ?_⟩
  have hmem : kind ∈ GeometryKind.all := by cases kind <;> decide
  have hsome : (kind? s).isSome := List.findSome?_isSome_iff.2 ⟨kind, hmem, by simp [h]⟩
  obtain ⟨⟨k, t⟩, hk⟩ := Option.isSome_iff_exists.1 hsome
  obtain rfl := kind_unique (hsound hk) h
  obtain rfl : r = t := Option.some.inj (h.symm.trans (hsound hk))
  exact hk

theorem skipDimensions_sound :
    Sound (fun s => some (skipDimensions s)) (1 + blanks * dimensions * blanks) := by
  rintro s _ ⟨⟩
  cases h : ([['Z', 'M'], ['Z'], ['M']] : List (List Char)).findSome? fun w => spacedWord? w s with
  | none => exact ⟨[], .inl rfl, by simp [skipDimensions, h]⟩
  | some r =>
    obtain ⟨w, hw, hr⟩ := List.exists_of_findSome?_eq_some h
    have hmem : ∃ v : String, w = v.toList ∧ word v ≤ dimensions := by
      rcases hw with _ | ⟨_, _ | ⟨_, _ | ⟨_, ⟨⟩⟩⟩⟩
      · exact ⟨"ZM", rfl, fun _ hu => .inl (.inl hu)⟩
      · exact ⟨"Z", rfl, fun _ hu => .inl (.inr hu)⟩
      · exact ⟨"M", rfl, fun _ hu => .inr hu⟩
    obtain ⟨v, rfl, hle⟩ := hmem
    obtain ⟨u, hu, rfl⟩ := spacedWord_sound v hr
    refine ⟨u, .inr ?_, by simp [skipDimensions, h]⟩
    exact mul_le_mul_left (mul_le_mul_right hle blanks) blanks hu

theorem blanks_append {u v : List Char} (hu : u ∈ blanks) (hv : v ∈ blanks) : u ++ v ∈ blanks :=
  fun c hc => (List.mem_append.1 hc).elim (hu c) (hv c)

theorem nil_mem_blanks : [] ∈ blanks := fun _ hc => absurd hc List.not_mem_nil

theorem blanks_mul_blanks : blanks * blanks = blanks := by
  ext u
  constructor
  · rintro ⟨a, ha, b, hb, rfl⟩
    exact blanks_append ha hb
  · exact fun hu => ⟨u, hu, [], nil_mem_blanks, List.append_nil u⟩

/-- The recognisers skip blanks more often than the grammar asks for. -/
theorem mem_geometryOf {nested : Language Char} {kind : GeometryKind} {s : List Char}
    (h : s ∈ blanks * word (tag kind) * (blanks * (1 + blanks * dimensions * blanks)) *
      (blanks * word "EMPTY" * blanks + body nested kind)) : s ∈ geometryOf nested kind := by
  have hfront : blanks * (1 + blanks * dimensions * blanks) =
      blanks * (1 + dimensions * blanks) := by
    rw [mul_add, mul_add, mul_assoc blanks dimensions, ← mul_assoc blanks blanks, blanks_mul_blanks]
  have hblanks : blanks * (1 + dimensions * blanks) * blanks =
      blanks * (1 + dimensions * blanks) := by
    simp only [mul_add, add_mul, mul_one, mul_assoc, blanks_mul_blanks]
  rw [hfront] at h
  rw [geometryOf, mul_assoc _ blanks (1 + _)]
  generalize blanks * (1 + dimensions * blanks) = front at h hblanks
  obtain ⟨u, hu, v, ⟨_, ⟨b, hb, e, he, rfl⟩, b', hb', rfl⟩ | hv, rfl⟩ := h
  · have hub : u ++ b ∈ blanks * word (tag kind) * front := by
      rw [← hblanks, ← mul_assoc]
      exact Language.append_mem_mul hu hb
    exact ⟨u ++ b ++ e, Language.append_mem_mul hub (.inl he), b', hb', by simp⟩
  · exact ⟨u ++ v, Language.append_mem_mul hu (.inr hv), [], nil_mem_blanks, List.append_nil _⟩

theorem shape_sound {n : Nat} {s r : List Char} {kind : GeometryKind}
    (h : shape? n s = some (kind, r)) : ∃ u, Derives kind u ∧ u ++ r = s := by
  induction n generalizing s r kind with
  | zero => cases h
  | succ n ih =>
    obtain ⟨⟨k, t⟩, hk, h⟩ := Option.bind_eq_some_iff.1 h
    obtain ⟨r', hr, h⟩ := Option.bind_eq_some_iff.1 h
    cases h
    have hnested : Sound (fun s => (shape? n s).map (·.2)) {v | ∃ k, v ∈ geometry k} := by
      intro s r h
      obtain ⟨⟨k, _⟩, hs, rfl⟩ := Option.map_eq_some_iff.1 h
      obtain ⟨u, hu, rfl⟩ := ih hs
      exact ⟨u, ⟨k, hu⟩, rfl⟩
    rw [kind?_eq_some_iff, keyword_eq] at hk
    obtain ⟨u, hu, rfl⟩ := skipBlanks_sound.bind (word_sound (tag kind)) hk
    obtain ⟨v, hv, ht⟩ := skipBlanks_sound.bind skipDimensions_sound (s := t) rfl
    obtain ⟨w, hw, hs⟩ := (spacedWord_sound "EMPTY").orElse (body_sound hnested kind) hr
    refine ⟨u ++ v ++ w, .step geometry (fun _ _ hv => hv) (mem_geometryOf ?_), ?_⟩
    · exact Language.append_mem_mul (Language.append_mem_mul hu hv) hw
    · rw [List.append_assoc, List.append_assoc, hs, ht]

/-! ## The reference system -/

theorem readSrid_eq_some_iff {s : List Char} {n : Srid} :
    Srid.read? s = some n ↔ Text.integer? ['+', '-'] s = some n.toInt := by
  constructor
  · intro h
    obtain ⟨i, hi, h⟩ := Option.bind_eq_some_iff.1 h
    obtain ⟨_, hrange, ⟨⟩⟩ := Option.bind_eq_some_iff.1 h
    obtain ⟨hmin, hmax⟩ := (Option.guard_eq_some' _).1 hrange
    rw [hi, Int32.toInt_ofInt_of_le hmin (Int.lt_add_one_of_le hmax)]
  · intro h
    refine Option.bind_eq_some_iff.2 ⟨n.toInt, h, Option.bind_eq_some_iff.2 ⟨(), ?_, ?_⟩⟩
    · exact (Option.guard_eq_some' _).2 ⟨n.minValue_le_toInt, n.toInt_le⟩
    · exact congrArg some (Int32.ofInt_toInt n)

theorem isDigit_ne {c d : Char} (hc : c.isDigit) (hd : d.isDigit = false) : c ≠ d := by
  rintro rfl
  simp [hd] at hc

theorem integer_digits {u : List Char} (hu : u ∈ digits) :
    Text.integer? ['+', '-'] u = some (Text.digitsValue u : Int) := by
  obtain ⟨hne, hall⟩ := hu
  cases u with
  | nil => exact absurd rfl hne
  | cons c u =>
    have hplus : c ≠ '+' := isDigit_ne (hall c (by simp)) rfl
    have hminus : c ≠ '-' := isDigit_ne (hall c (by simp)) rfl
    have hdigits : (c :: u).all Char.isDigit := List.all_eq_true.2 hall
    simp [Text.integer?, hplus, hminus, hdigits]

theorem integer_minus {u : List Char} (hu : u ∈ digits) :
    Text.integer? ['+', '-'] ('-' :: u) = some (-Text.digitsValue u : Int) := by
  have hdigits : u.all Char.isDigit := List.all_eq_true.2 hu.2
  simp [Text.integer?, hu.1, hdigits]

theorem takeDigits_mem {s : List Char} (h : s.takeWhile Char.isDigit ≠ []) :
    s.takeWhile Char.isDigit ∈ digits :=
  ⟨h, fun c hc => List.all_eq_true.1 List.all_takeWhile c hc⟩

theorem srid?_eq_some_iff {s r : List Char} {n : Srid} :
    srid? s = some (n, r) ↔ ∃ minus rest, spacedWord? "SRID=".toList s = some (minus ++ rest) ∧
      (minus = ['-'] ∨ minus = []) ∧ rest.takeWhile Char.isDigit ≠ [] ∧
      Srid.read? (minus ++ rest.takeWhile Char.isDigit) = some n ∧
      mark? ';' (rest.dropWhile Char.isDigit) = some r := by
  constructor
  · intro h
    obtain ⟨t, ht, h₁⟩ := Option.bind_eq_some_iff.1 h
    split at h₁
    rename_i minus rest hminus
    obtain ⟨_, hds, h₂⟩ := Option.bind_eq_some_iff.1 h₁
    rw [Option.guard_eq_some'] at hds
    obtain ⟨n', hn, h₃⟩ := Option.bind_eq_some_iff.1 h₂
    obtain ⟨r', hr, ⟨⟩⟩ := Option.bind_eq_some_iff.1 h₃
    split at hminus
    · cases hminus
      exact ⟨['-'], rest, ht, .inl rfl, hds, hn, hr⟩
    · cases hminus
      exact ⟨[], t, ht, .inr rfl, hds, hn, hr⟩
  · rintro ⟨minus, rest, ht, hsign, hds, hn, hr⟩
    have htail : (do
        guard (rest.takeWhile Char.isDigit ≠ [])
        let srid ← Srid.read? (minus ++ rest.takeWhile Char.isDigit)
        return (srid, ← mark? ';' (rest.dropWhile Char.isDigit))) = some (n, r) := by
      simp [hds, hn, hr]
    refine Option.bind_eq_some_iff.2 ⟨_, ht, ?_⟩
    rcases hsign with rfl | rfl
    · exact htail
    · split
      rename_i minus' rest' hminus
      split at hminus
      · rename_i rest'' heq
        rw [List.nil_append] at heq
        simp [heq] at hds
      · cases hminus
        exact htail

theorem srid_sound {s r : List Char} {n : Srid} (h : srid? s = some (n, r)) :
    ∃ u ∈ sridPrefix n, u ++ r = s := by
  obtain ⟨minus, rest, ht, hsign, hds, hn, hr⟩ := srid?_eq_some_iff.1 h
  obtain ⟨u, hu, rfl⟩ := spacedWord_sound "SRID=" ht
  obtain ⟨w, hw, hs⟩ := mark_sound ';' hr
  have hv : minus ++ rest.takeWhile Char.isDigit ∈ identifier n := by
    rw [readSrid_eq_some_iff] at hn
    rcases hsign with rfl | rfl
    · rw [List.singleton_append, integer_minus (takeDigits_mem hds)] at hn
      exact .inr ⟨_, takeDigits_mem hds, rfl, (Option.some.inj hn).symm⟩
    · rw [List.nil_append, integer_digits (takeDigits_mem hds)] at hn
      exact .inl ⟨takeDigits_mem hds, (Option.some.inj hn).symm⟩
  refine ⟨u ++ (minus ++ rest.takeWhile Char.isDigit) ++ w, ?_, ?_⟩
  · exact Language.append_mem_mul (Language.append_mem_mul hu hv) hw
  · simp only [List.append_assoc, hs, List.takeWhile_append_dropWhile]

/-! ## Whole texts -/

theorem exists_read_iff {s : String} {kind : GeometryKind} {srid : Option Srid} :
    (∃ text, read? s = some ⟨kind, srid, text⟩) ↔
      ∃ cs r, (srid? s.toList = srid.map (·, cs) ∧ (srid = none → cs = s.toList)) ∧
        shape? ((skipBlanks cs).length + 1) (skipBlanks cs) = some (kind, r) ∧
        skipBlanks r = [] := by
  unfold read?
  cases hsrid : srid? s.toList with
  | none =>
    simp only [hsrid, Option.bind_eq_bind, Option.bind_eq_some_iff, Option.guard_eq_some']
    constructor
    · rintro ⟨_, ⟨k, r⟩, hshape, _, hr, ⟨⟩⟩
      exact ⟨_, r, ⟨rfl, fun _ => rfl⟩, hshape, hr⟩
    · rintro ⟨cs, r, ⟨hnone, hcs⟩, hshape, hr⟩
      cases srid with
      | none =>
        obtain rfl := hcs rfl
        exact ⟨_, _, hshape, (), hr, rfl⟩
      | some n => cases hnone
  | some n =>
    simp only [hsrid, Option.bind_eq_bind, Option.bind_eq_some_iff, Option.guard_eq_some']
    constructor
    · rintro ⟨_, ⟨k, r⟩, hshape, _, hr, ⟨⟩⟩
      exact ⟨_, r, ⟨rfl, fun h => nomatch h⟩, hshape, hr⟩
    · rintro ⟨cs, r, ⟨hsome, -⟩, hshape, hr⟩
      cases srid with
      | none => cases hsome
      | some n =>
        cases hsome
        exact ⟨_, _, hshape, (), hr, rfl⟩

theorem read_sound {s : String} {kind : GeometryKind} {srid : Option Srid} {text : GeometryText}
    (h : read? s = some ⟨kind, srid, text⟩) : s.toList ∈ input srid kind := by
  obtain ⟨cs, r, ⟨hsrid, hnone⟩, hshape, hr⟩ := exists_read_iff.1 ⟨text, h⟩
  have hcs : cs ∈ blanks * geometry kind * blanks := by
    obtain ⟨u, hu, hs⟩ := shape_sound hshape
    obtain ⟨b, hb, hcs⟩ := skipBlanks_sound (s := cs) rfl
    obtain ⟨b', hb', hr'⟩ := skipBlanks_sound (s := r) rfl
    rw [hr, List.append_nil] at hr'
    subst hr'
    refine ⟨b ++ u, Language.append_mem_mul hb hu, b', hb', ?_⟩
    show b ++ u ++ b' = cs
    rw [List.append_assoc, hs, hcs]
  cases srid with
  | none =>
    obtain rfl := hnone rfl
    exact hcs
  | some n =>
    obtain ⟨u, hu, hs⟩ := srid_sound hsrid
    rw [← hs]
    exact Language.append_mem_mul hu hcs

end LateralSql.WellKnownText
