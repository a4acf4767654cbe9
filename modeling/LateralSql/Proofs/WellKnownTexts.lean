/-
  The text that the reader of well-known text hands on is the same geometry.

  A phrase that stands last in a geometry may take blanks with it.  It is a phrase without
  them as well (`Trims`), so a geometry is one when the blanks at its end are cut off.  What is
  left starts with a letter, which is none of a prefix, and is read to itself.
-/
import LateralSql.Proofs.WellKnownReading

namespace LateralSql.WellKnownText

open Computability Grammar

/-! ## Blanks at the end -/

/-- The text ends with a letter or a closing bracket. -/
def Finished (u : List Char) : Prop := ∃ c ∈ u.getLast?, c.isAlpha ∨ c = ')'

/-- Every phrase is a finished one with blanks after it. -/
def Trims (L : Language Char) : Prop :=
  ∀ u ∈ L, ∃ v ∈ L, ∃ b ∈ blanks, u = v ++ b ∧ Finished v

section
variable {u v b : List Char} {L M : Language Char}

theorem Finished.append (h : Finished v) (u : List Char) : Finished (u ++ v) := by
  obtain ⟨c, hc, hend⟩ := h
  refine ⟨c, ?_, hend⟩
  rw [List.getLast?_append, hc]
  rfl

theorem Trims.mul (hM : Trims M) (L : Language Char) : Trims (L * M) := by
  rintro _ ⟨x, hx, y, hy, rfl⟩
  obtain ⟨v, hv, b, hb, rfl, hend⟩ := hM y hy
  exact ⟨x ++ v, Language.append_mem_mul hx hv, b, hb, (List.append_assoc x v b).symm,
    hend.append x⟩

theorem Trims.add (hL : Trims L) (hM : Trims M) : Trims (L + M) := by
  rintro u (hu | hu)
  · obtain ⟨v, hv, h⟩ := hL u hu
    exact ⟨v, .inl hv, h⟩
  · obtain ⟨v, hv, h⟩ := hM u hu
    exact ⟨v, .inr hv, h⟩

theorem Trims.mul_blanks (hL : Trims L) : Trims (L * blanks) := by
  rintro _ ⟨x, hx, b', hb', rfl⟩
  obtain ⟨v, hv, b, hb, rfl, hend⟩ := hL x hx
  refine ⟨v, ⟨v, hv, [], nil_mem_blanks, List.append_nil v⟩, b ++ b', blanks_append hb hb', ?_,
    hend⟩
  exact List.append_assoc v b b'

theorem mark_trims : Trims (mark ')') := by
  intro u hu
  obtain ⟨b, hb, b', hb', rfl⟩ := mem_mark.1 hu
  refine ⟨b ++ [')'], mem_mark.2 ⟨b, hb, [], nil_mem_blanks, rfl⟩, b', hb', by simp, ')', ?_,
    .inr rfl⟩
  simp

theorem isAlpha_of_toUpper {c : Char} (h : c.toUpper.isAlpha) : c.isAlpha := by
  by_cases hc : c.isLower
  · change (c.isUpper || c.isLower) = true
    rw [hc, Bool.or_true]
  · have hsame : c.toUpper = c := by
      refine dif_neg fun hrange => hc ?_
      change (decide _ && decide _) = true
      rw [Bool.and_eq_true, decide_eq_true_eq, decide_eq_true_eq]
      exact hrange
    rwa [hsame] at h

theorem word_trims {w : String} (hw : ∃ k ∈ w.toList.getLast?, k.isAlpha) : Trims (word w) := by
  intro u hu
  refine ⟨u, hu, [], nil_mem_blanks, (List.append_nil u).symm, ?_⟩
  obtain ⟨k, hk, hletter⟩ := hw
  rw [← (show u.map Char.toUpper = w.toList from hu), List.getLast?_map, Option.mem_map] at hk
  obtain ⟨c, hc, rfl⟩ := hk
  exact ⟨c, hc, .inl (isAlpha_of_toUpper hletter)⟩

theorem body_trims (L : Language Char) (kind : GeometryKind) : Trims (body L kind) := by
  cases kind <;> exact mark_trims.mul _

theorem geometry_trims (kind : GeometryKind) : Trims (geometry kind) := by
  rintro u ⟨nested, derived, mem⟩
  have hempty : Trims (word "EMPTY") := word_trims ⟨'Y', rfl, rfl⟩
  obtain ⟨v, hv, h⟩ := ((hempty.add (body_trims _ kind)).mul _).mul_blanks u mem
  exact ⟨v, Derives.step nested derived hv, h⟩

theorem isBlank_of_letter {c : Char} (h : c.isAlpha ∨ c = ')') : isBlank c = false := by
  by_contra hc
  rw [Bool.not_eq_false, isBlank_iff] at hc
  rcases hc with rfl | rfl | rfl | rfl <;> exact absurd h (by decide)

/-- Trimming takes the blanks off and nothing else. -/
theorem trimEnd_append (hu : Finished u) (hb : b ∈ blanks) : trimEnd (u ++ b) = u := by
  have hblanks : ∀ c ∈ b.reverse, isBlank c := fun c hc => isBlank_iff.2 (hb c (by simpa using hc))
  obtain ⟨c, hc, hend⟩ := hu
  obtain ⟨rest, hrest⟩ := List.head?_eq_some_iff.1 (List.head?_reverse.trans hc)
  have hstop : u.reverse.dropWhile isBlank = u.reverse := by
    rw [hrest]
    exact skipBlanks_cons (isBlank_of_letter hend)
  rw [trimEnd, List.reverse_append, List.dropWhile_append_of_pos hblanks, hstop,
    List.reverse_reverse]

end

/-! ## The first letter -/

/-- The text starts with a letter. -/
def Started (u : List Char) : Prop := ∃ c ∈ u.head?, c.isAlpha

section
variable {u v b r s : List Char} {kind : GeometryKind}

theorem Started.append (h : Started u) (s : List Char) : Started (u ++ s) := by
  obtain ⟨c, hc, hletter⟩ := h
  refine ⟨c, ?_, hletter⟩
  rw [List.head?_append, hc]
  rfl

theorem Started.skipBlanks_append (h : Started u) (s : List Char) :
    skipBlanks (u ++ s) = u ++ s := by
  obtain ⟨c, hc, hletter⟩ := h
  obtain ⟨rest, rfl⟩ := List.head?_eq_some_iff.1 hc
  exact skipBlanks_cons (isBlank_of_letter (.inl hletter))

theorem Started.of_append (h : Started (v ++ b)) (hv : Finished v) : Started v := by
  obtain ⟨c, hc, hletter⟩ := h
  obtain ⟨d, hd, -⟩ := hv
  cases v with
  | nil => cases hd
  | cons e v => exact ⟨c, hc, hletter⟩

theorem word_started {w : String} (hw : ∃ k ∈ w.toList.head?, k.isAlpha) (hu : u ∈ word w) :
    Started u := by
  obtain ⟨k, hk, hletter⟩ := hw
  rw [← (show u.map Char.toUpper = w.toList from hu), List.head?_map, Option.mem_map] at hk
  obtain ⟨c, hc, rfl⟩ := hk
  exact ⟨c, hc, isAlpha_of_toUpper hletter⟩

theorem tag_letter (kind : GeometryKind) : ∃ k ∈ (tag kind).toList.head?, k.isAlpha := by
  cases kind <;> exact ⟨_, rfl, by decide⟩

/-- A geometry that the blanks before it have been skipped of starts with its keyword. -/
theorem geometry_started (hu : u ∈ geometry kind) (hs : u ++ r = skipBlanks s) : Started u := by
  obtain ⟨nested, -, mem⟩ := hu
  obtain ⟨_, ⟨_, ⟨_, ⟨_, ⟨b₁, hb₁, w, hw, rfl⟩, b₂, -, rfl⟩, d, -, rfl⟩, x, -, rfl⟩,
    b₃, -, rfl⟩ := mem
  have hstart := word_started (tag_letter kind) hw
  have hskipped := congrArg skipBlanks hs
  simp only [List.append_assoc] at hs hskipped ⊢
  rw [skipBlanks_skipBlanks, ← hs, skipBlanks_append hb₁, hstart.skipBlanks_append,
    List.self_eq_append_left] at hskipped
  rw [hskipped]
  exact hstart.append _

/-! ## What is handed on -/

/-- What may stand before a geometry. -/
def leading : Option Srid → Language Char
  | none => blanks
  | some n => sridPrefix n * blanks

/-- The geometry that a text holds, and the blanks around it. -/
theorem shape_parts (hr : shape? ((skipBlanks s).length + 1) (skipBlanks s) = some (kind, r))
    (hend : skipBlanks r = []) :
    ∃ b ∈ blanks, ∃ u ∈ geometry kind, Started u ∧ r ∈ blanks ∧ s = b ++ u ++ r ∧
      (skipBlanks s).take ((skipBlanks s).length - r.length) = u := by
  obtain ⟨u, hu, hs⟩ := shape_sound hr
  obtain ⟨b, hb, hcs⟩ := skipBlanks_sound (s := s) rfl
  obtain ⟨b', hb', hr'⟩ := skipBlanks_sound (s := r) rfl
  rw [hend, List.append_nil] at hr'
  refine ⟨b, hb, u, hu, geometry_started hu hs, hr' ▸ hb', ?_, ?_⟩
  · rw [List.append_assoc, hs, hcs]
  · rw [← hs, List.length_append, Nat.add_sub_cancel, List.take_left]

/-- A text that is read consists of what stands before the geometry, the geometry, and blanks. -/
theorem read_parts {s : String} {g : Geometry} (h : read? s = some g) :
    ∃ lead u trail, s.toList = lead ++ u ++ trail ∧ lead ∈ leading g.srid ∧
      u ∈ geometry g.kind ∧ Started u ∧ trail ∈ blanks ∧
      g.text = .wkt (String.ofList (trimEnd u)) := by
  unfold read? at h
  obtain ⟨⟨kind, r⟩, hr, h⟩ := Option.bind_eq_some_iff.1 h
  obtain ⟨_, hend, h⟩ := Option.bind_eq_some_iff.1 h
  rw [Option.guard_eq_some'] at hend
  obtain rfl := Option.some.inj h
  obtain ⟨b, hb, u, hu, hstart, htrail, hcs, htake⟩ := shape_parts hr hend
  cases hsrid : srid? s.toList with
  | none =>
    simp only [hsrid] at hcs htake
    exact ⟨b, u, r, hcs, hb, hu, hstart, htrail, by simp only [htake]⟩
  | some p =>
    obtain ⟨n, rest⟩ := p
    simp only [hsrid] at hcs htake
    obtain ⟨lead, hlead, hs⟩ := srid_sound hsrid
    refine ⟨lead ++ b, u, r, ?_, Language.append_mem_mul hlead hb, hu, hstart, htrail,
      by simp only [htake]⟩
    rw [← hs, hcs]
    simp only [List.append_assoc]

/-- A text that is read is handed on as it is, if nothing stands before it and after it. -/
theorem text_of_finished {s : String} {g : Geometry} (h : read? s = some g) (hsrid : g.srid = none)
    (hstart : Started s.toList) (hend : Finished s.toList) : g.text = .wkt s := by
  obtain ⟨lead, u, trail, hs, hlead, hu, hstart', htrail, htext⟩ := read_parts h
  obtain ⟨v, hv, b, hb, rfl, hend'⟩ := geometry_trims g.kind u hu
  rw [hsrid] at hlead
  have hskip := hstart.skipBlanks_append []
  rw [List.append_nil, hs, List.append_assoc, skipBlanks_append hlead,
    hstart'.skipBlanks_append] at hskip
  have hsame : s.toList = v := by
    rw [← trimEnd_append hend nil_mem_blanks, List.append_nil, hs, List.append_assoc, ← hskip,
      List.append_assoc, trimEnd_append hend' (blanks_append hb htrail)]
  rw [htext, trimEnd_append hend' hb, ← hsame, String.ofList_toList]

/-- A geometry is read, and no reference system is found before it. -/
theorem exists_read_of_geometry (hu : u ∈ geometry kind) :
    ∃ text, read? (String.ofList u) = some ⟨kind, none, text⟩ := by
  have hmem : u ∈ blanks * geometry kind * blanks :=
    ⟨u, ⟨[], nil_mem_blanks, u, hu, rfl⟩, [], nil_mem_blanks, List.append_nil u⟩
  obtain ⟨r, hr, hend⟩ := geometry_complete hmem
  have hhead := geometry_head (s := []) hu
  rw [List.append_nil] at hhead
  refine exists_read_iff.2 ⟨u, r, ⟨?_, fun _ => ?_⟩, hr, hend⟩
  · rw [String.toList_ofList]
    exact srid_eq_none hhead
  · rw [String.toList_ofList]

end

/-- **The text that is handed on is the same geometry.**  A text that is read is an optional prefix
    with a reference system and blanks, then the text that is handed on, then blanks.  What is
    handed on starts with a letter, ends with a letter or a bracket, and is read as a geometry of
    the same kind, without a reference system, whose text it is. -/
theorem text_reads_again {s : String} {g : Geometry} (h : read? s = some g) :
    ∃ text lead trail, g.text = .wkt text ∧ s.toList = lead ++ text.toList ++ trail ∧
      lead ∈ leading g.srid ∧ trail ∈ blanks ∧
      (∃ c ∈ text.toList.head?, c.isAlpha) ∧ (∃ c ∈ text.toList.getLast?, c.isAlpha ∨ c = ')') ∧
      read? text = some ⟨g.kind, none, .wkt text⟩ := by
  obtain ⟨lead, u, trail, hs, hlead, hu, hstart, htrail, htext⟩ := read_parts h
  obtain ⟨v, hv, b, hb, rfl, hend⟩ := geometry_trims g.kind u hu
  have hstart' := hstart.of_append hend
  rw [trimEnd_append hend hb] at htext
  refine ⟨String.ofList v, lead, b ++ trail, htext, ?_, hlead, blanks_append hb htrail, ?_, ?_, ?_⟩
  · rw [hs, String.toList_ofList]
    simp only [List.append_assoc]
  · rwa [String.toList_ofList]
  · rwa [String.toList_ofList]
  · obtain ⟨text, hread⟩ := exists_read_of_geometry hv
    have hsame : text = .wkt (String.ofList v) := by
      refine text_of_finished hread rfl ?_ ?_ <;> rwa [String.toList_ofList]
    rw [hread, hsame]

/-- A collection with a prefix, with blanks wherever they may stand and with members that end in
    them. -/
def spacedCollection : String :=
  " srid= -4326 ; \tGeometryCollection Z ( Point(1 2) , LineString EMPTY\r\n) \n"

theorem text_reads_again_collection :
    read? spacedCollection = some ⟨.geometryCollection, some (-4326),
      .wkt "GeometryCollection Z ( Point(1 2) , LineString EMPTY\r\n)"⟩ ∧
    read? "GeometryCollection Z ( Point(1 2) , LineString EMPTY\r\n)" =
      some ⟨.geometryCollection, none,
        .wkt "GeometryCollection Z ( Point(1 2) , LineString EMPTY\r\n)"⟩ := by
  have hread : read? spacedCollection = some ⟨.geometryCollection, some (-4326),
      .wkt "GeometryCollection Z ( Point(1 2) , LineString EMPTY\r\n)"⟩ := by decide +kernel
  obtain ⟨text, lead, trail, htext, -, -, -, -, -, hagain⟩ := text_reads_again hread
  obtain rfl := GeometryText.wkt.inj htext
  exact ⟨hread, hagain⟩

end LateralSql.WellKnownText
