/-
  Which columns of a row an object depends on.

  `Assembler.columns` lists the columns that the fields are read from.  An object also depends on
  the columns that tell by a null that it, or an object inside it, is missing (`Assembler.checks`):
  rows that agree on both kinds are read alike.  None of the second kind can be left out, so the
  list is complete if and only if they are in it (`Assembler.columns_suffice_iff`).
-/
import LateralSql.Proofs.Reading

namespace LateralSql

/-! ## Objects inside objects -/

mutual

/-- The assembler itself and those of all objects inside it. -/
def Assembler.parts : Assembler → List Assembler
  | ⟨fields, checkNull, nullObject⟩ => ⟨fields, checkNull, nullObject⟩ :: fieldParts fields
termination_by structural a => a

/-- The assemblers of all objects inside some fields. -/
def fieldParts : List (String × FieldReader) → List Assembler
  | [] => []
  | (_, f) :: rest => f.parts ++ fieldParts rest
termination_by structural fields => fields

/-- The assemblers of all objects inside a field. -/
def FieldReader.parts : FieldReader → List Assembler
  | .column _ => []
  | .object a => a.parts
  | .joinKey _ => []
termination_by structural f => f

end

namespace Assembler

theorem self_mem_parts (a : Assembler) : a ∈ a.parts := by
  cases a
  exact List.mem_cons_self

/-- The columns that are tested for null, of the object and of those inside it. -/
def checks (a : Assembler) : List String := a.parts.flatMap (·.checkNull.toList)

/-- What stands for missing objects, of the object and of those inside it. -/
def standIns (a : Assembler) : List Value := a.parts.flatMap (·.nullObject.toList)

mutual

/-- Fields and tests are all that is read. -/
theorem mem_reads {x : String} : ∀ {a : Assembler}, x ∈ a.reads ↔ x ∈ a.columns ∨ x ∈ a.checks
  | ⟨fields, checkNull, nullObject⟩ => by
    rw [reads, columns, checks, parts, List.flatMap_cons, List.mem_append, List.mem_append,
      mem_fieldReads]
    exact or_left_comm
termination_by structural a => a

theorem mem_fieldReads {x : String} : ∀ {fields : List (String × FieldReader)},
    x ∈ fieldReads fields ↔
      x ∈ columnsOf fields ∨ x ∈ (fieldParts fields).flatMap (·.checkNull.toList)
  | [] => by simp [fieldReads, columnsOf, fieldParts]
  | (name, f) :: rest => by
    rw [fieldReads, columnsOf, fieldParts, List.flatMap_append, List.mem_append, List.mem_append,
      List.mem_append, mem_readerReads, mem_fieldReads]
    exact or_or_or_comm
termination_by structural fields => fields

theorem mem_readerReads {x : String} : ∀ {f : FieldReader},
    x ∈ f.reads ↔ x ∈ fieldColumns f ∨ x ∈ f.parts.flatMap (·.checkNull.toList)
  | .column c => by simp [FieldReader.reads, fieldColumns, FieldReader.parts]
  | .object a => mem_reads (a := a)
  | .joinKey columns => by simp [FieldReader.reads, fieldColumns, FieldReader.parts]
termination_by structural f => f

end

/-! ## A null where an object was -/

section
variable {row row' : Row} {x : String}

/-- The object is there in the row, and nothing that looks like it stands for a missing one. -/
structure Solid (row : Row) (a : Assembler) : Prop where
  present : isAbsent a.checkNull row = false
  plain : ∀ v ∈ a.nullObject, v.members? = none

mutual

/-- If all objects are there in one row and a test fails in the other, the rows are not read
    alike. -/
theorem read_ne (hnull : (row'.get x).isNull = true) : ∀ {a : Assembler},
    (∀ b ∈ a.parts, b.Solid row) → (∃ b ∈ a.parts, b.checkNull = some x) →
      a.read row ≠ a.read row'
  | ⟨fields, checkNull, nullObject⟩, hsolid, htested => by
    rw [parts] at hsolid htested
    obtain ⟨hself, hinner⟩ := List.forall_mem_cons.1 hsolid
    rw [read_of_present hself.present]
    intro heq
    cases habsent : isAbsent checkNull row' with
    | true =>
      rw [read_of_absent habsent] at heq
      cases hself.plain _ heq.symm
    | false =>
      rw [read_of_present habsent, Option.some.injEq, Value.object.injEq] at heq
      obtain ⟨b, hb, hx⟩ := htested
      rcases List.mem_cons.1 hb with rfl | hb
      · rw [show checkNull = some x from hx, isAbsent, hnull] at habsent
        cases habsent
      · exact readFields_ne hnull hinner ⟨b, hb, hx⟩ heq
termination_by structural a => a

theorem readFields_ne (hnull : (row'.get x).isNull = true) :
    ∀ {fields : List (String × FieldReader)},
      (∀ b ∈ fieldParts fields, b.Solid row) → (∃ b ∈ fieldParts fields, b.checkNull = some x) →
        readFields row fields ≠ readFields row' fields
  | [], _, htested => by simp [fieldParts] at htested
  | (name, f) :: rest, hsolid, htested => by
    rw [fieldParts] at hsolid htested
    obtain ⟨hfirst, hrest⟩ := List.forall_mem_append.1 hsolid
    rw [readFields, readFields]
    intro heq
    obtain ⟨hvalue, hvalues⟩ := List.cons.inj heq
    obtain ⟨b, hb, hx⟩ := htested
    rcases List.mem_append.1 hb with hb | hb
    · exact readField_ne hnull hfirst ⟨b, hb, hx⟩ (Prod.mk.inj hvalue).2
    · exact readFields_ne hnull hrest ⟨b, hb, hx⟩ hvalues
termination_by structural fields => fields

theorem readField_ne (hnull : (row'.get x).isNull = true) : ∀ {f : FieldReader},
    (∀ b ∈ f.parts, b.Solid row) → (∃ b ∈ f.parts, b.checkNull = some x) →
      readField row f ≠ readField row' f
  | .column _, _, htested => by simp [FieldReader.parts] at htested
  | .object a, hsolid, htested => by
    have hne := read_ne hnull hsolid htested
    rw [read_of_present (hsolid a a.self_mem_parts).present] at hne
    rw [readField, readField, read_of_present (hsolid a a.self_mem_parts).present,
      Option.getD_some]
    intro heq
    cases hread : a.read row' with
    | none =>
      rw [hread] at heq
      cases heq
    | some v =>
      rw [hread, Option.getD_some] at heq
      exact hne (by rw [hread, heq])
  | .joinKey _, _, htested => by simp [FieldReader.parts] at htested
termination_by structural f => f

end

end

/-! ## The list of columns -/

/-- A row in which the given columns are true. -/
theorem get?_flags (xs : List String) (y : String) :
    Row.get? (xs.map (·, .boolean true)) y = if y ∈ xs then some (.boolean true) else none := by
  induction xs with
  | nil => rfl
  | cons x xs ih =>
    rw [Row.get?] at ih ⊢
    rw [List.map_cons, List.lookup_cons]
    by_cases h : y = x
    · simp [h]
    · have hne : (y == x) = false := beq_false_of_ne h
      simp [h, hne, ih]

/-- Rows that agree on what is shown and on what is tested are read alike. -/
theorem read_alike {a : Assembler} {row row' : Row}
    (hcolumns : ∀ x ∈ a.columns, row.get? x = row'.get? x)
    (hchecks : ∀ x ∈ a.checks, row.get? x = row'.get? x) : a.read row = a.read row' := by
  refine read_congr a fun x hx => ?_
  rw [Row.get, Row.get]
  rcases mem_reads.1 hx with hx | hx
  · rw [hcolumns x hx]
  · rw [hchecks x hx]

/-- The result is determined by the columns that are listed. -/
def Determined (a : Assembler) : Prop :=
  ∀ row row' : Row, (∀ x ∈ a.columns, row.get? x = row'.get? x) → a.read row = a.read row'

theorem determined_of_listed {a : Assembler} (h : ∀ x ∈ a.checks, x ∈ a.columns) :
    a.Determined := by
  intro row row' hagree
  exact read_alike hagree fun x hx => hagree x (h x hx)

theorem listed_of_determined {a : Assembler} (hplain : ∀ v ∈ a.standIns, v.members? = none)
    (h : a.Determined) : ∀ x ∈ a.checks, x ∈ a.columns := by
  intro x hx
  by_contra hlisted
  obtain ⟨b, hb, hxb⟩ := List.mem_flatMap.1 hx
  -- all columns are true in one row, and all but `x` in the other
  have hsolid (b : Assembler) (hb : b ∈ a.parts) :
      b.Solid (a.reads.map (·, .boolean true)) := by
    refine ⟨isAbsent_eq_false.2 fun y hy => ?_, fun v hv => hplain v ?_⟩
    · have hread : y ∈ a.reads := mem_reads.2 (.inr (List.mem_flatMap.2 ⟨b, hb, hy⟩))
      rw [Row.get, get?_flags, if_pos hread]
      rfl
    · exact List.mem_flatMap.2 ⟨b, hb, by simpa using hv⟩
  have hmissing : (Row.get ((a.reads.filter (· ≠ x)).map (·, .boolean true)) x).isNull = true := by
    rw [Row.get, get?_flags, if_neg (by simp)]
    rfl
  refine read_ne hmissing hsolid ⟨b, hb, by simpa using hxb⟩ (h _ _ fun y hy => ?_)
  have hne : y ≠ x := fun heq => hlisted (heq ▸ hy)
  rw [get?_flags, get?_flags]
  simp [hne]

/-- **Fields and tests determine an object.**  Rows that agree on the listed columns and on those
    that are tested are read alike.  The listed columns are enough by themselves if and only if the
    tested ones are among them, unless a missing object is replaced by an object. -/
theorem columns_suffice_iff (a : Assembler) :
    (∀ row row' : Row, (∀ x ∈ a.columns, row.get? x = row'.get? x) →
      (∀ x ∈ a.checks, row.get? x = row'.get? x) → a.read row = a.read row') ∧
    ((∀ v ∈ a.standIns, v.members? = none) →
      ((∀ row row' : Row, (∀ x ∈ a.columns, row.get? x = row'.get? x) →
        a.read row = a.read row') ↔ ∀ x ∈ a.checks, x ∈ a.columns)) := by
  refine ⟨fun row row' hcolumns hchecks => read_alike hcolumns hchecks, fun hplain => ?_⟩
  exact ⟨listed_of_determined hplain, determined_of_listed⟩

/-- A beer with its brewery; both are told from none by columns that are not shown. -/
def beerReader : Assembler where
  fields := [
    ("name", .column "x1"),
    ("brewery", .object { fields := [("name", .column "x3")], checkNull := some "x4" })]
  checkNull := some "x2"

/-- A brewery whose key is shown. -/
def breweryReader : Assembler where
  fields := [("id", .column "x1"), ("name", .column "x2")]
  checkNull := some "x1"

/-- The row of a beer and its brewery. -/
def beerRow : Row :=
  [("x1", .string "Pilsener"), ("x2", .int 1), ("x3", .string "Heineken"), ("x4", .int 7)]

/-- The same row where the brewery is not tied to the beer. -/
def looseBeerRow : Row :=
  [("x1", .string "Pilsener"), ("x2", .int 1), ("x3", .string "Heineken"), ("x4", .null)]

/-- The columns of a brewery are enough, and those of a beer are not. -/
theorem columns_suffice_iff_breweries :
    beerReader.read beerRow = beerReader.read (("x9", .int 5) :: beerRow) ∧
    (∀ row row' : Row, (∀ x ∈ breweryReader.columns, row.get? x = row'.get? x) →
      breweryReader.read row = breweryReader.read row') ∧
    ¬ ∀ row row' : Row, (∀ x ∈ beerReader.columns, row.get? x = row'.get? x) →
      beerReader.read row = beerReader.read row' := by
  obtain ⟨halike, hbeer⟩ := columns_suffice_iff beerReader
  obtain ⟨-, hbrewery⟩ := columns_suffice_iff breweryReader
  have hlisted : ∀ x ∈ breweryReader.checks, x ∈ breweryReader.columns := by decide
  refine ⟨halike _ _ ?_ ?_, (hbrewery (List.forall_mem_nil _)).2 hlisted, fun h => ?_⟩
  · exact List.forall_mem_cons.2 ⟨rfl, List.forall_mem_cons.2 ⟨rfl, List.forall_mem_nil _⟩⟩
  · exact List.forall_mem_cons.2 ⟨rfl, List.forall_mem_cons.2 ⟨rfl, List.forall_mem_nil _⟩⟩
  · exact absurd ((hbeer (List.forall_mem_nil _)).1 h "x4" (by decide)) (by decide)

/-- **The list of columns is not complete.**  Two rows agree on all columns that are listed for a
    beer, and only one of them has a brewery. -/
theorem beer_columns_incomplete :
    (∀ x ∈ beerReader.columns, beerRow.get? x = looseBeerRow.get? x) ∧
    beerReader.read beerRow = some (.object [
      ("name", .string "Pilsener"), ("brewery", .object [("name", .string "Heineken")])]) ∧
    beerReader.read looseBeerRow = some (.object [
      ("name", .string "Pilsener"), ("brewery", .null)]) := by
  refine ⟨?_, rfl, rfl⟩
  exact List.forall_mem_cons.2 ⟨rfl, List.forall_mem_cons.2 ⟨rfl, List.forall_mem_nil _⟩⟩

end Assembler

end LateralSql
