/-
  What is read of a row.

  An object depends on the columns that its assembler reads and on no others
  (`Assembler.read_congr`).
-/
import LateralSql.Proofs.Outputs

namespace LateralSql

/-! ## Rows -/

theorem Value.isNull_eq_false {v : Value} : v.isNull = false ↔ v ≠ .null := by
  cases v <;> simp [isNull]

namespace Row

variable {row row' : Row} {x : String}

theorem get_append_of_notMem (h : x ∉ row.map (·.1)) : Row.get (row ++ row') x = row'.get x := by
  have hnone : row.lookup x = none := by
    refine List.lookup_eq_none_iff.2 fun p hp => ?_
    rw [bne_iff_ne]
    rintro rfl
    exact h (List.mem_map_of_mem hp)
  rw [get, get?, List.lookup_append, hnone, Option.none_or]
  rfl

theorem get_append_of_lookup {v : Value} (h : row.lookup x = some v) :
    Row.get (row ++ row') x = v := by
  rw [get, get?, List.lookup_append, h]
  rfl

/-- A row of nulls. -/
theorem get_nulls (xs : List String) (x : String) : Row.get (xs.map (·, .null)) x = .null := by
  induction xs with
  | nil => rfl
  | cons y xs ih =>
    rw [List.map_cons, get, get?, List.lookup_cons]
    split
    · rfl
    · exact ih

end Row

/-! ## Objects -/

theorem Assembler.readFields_eq (row : Row) (fields : List (String × FieldReader)) :
    readFields row fields = fields.map fun f => (f.1, readField row f.2) := by
  induction fields with
  | nil => rfl
  | cons f fields ih => rw [readFields, ih, List.map_cons]

theorem Assembler.readFields_split (row : Row) (before after : List (String × FieldReader))
    (f : String × FieldReader) :
    readFields row (before ++ f :: after) =
      readFields row before ++ (f.1, readField row f.2) :: readFields row after := by
  simp only [readFields_eq, List.map_append, List.map_cons]

theorem Assembler.isAbsent_congr {checkNull : Option String} {row row' : Row}
    (h : ∀ x ∈ checkNull.toList, row.get x = row'.get x) :
    isAbsent checkNull row = isAbsent checkNull row' := by
  cases checkNull with
  | none => rfl
  | some x => rw [isAbsent, isAbsent, h x (by simp)]

/-- An object is present unless the column is null that tells so. -/
theorem Assembler.isAbsent_eq_false {checkNull : Option String} {row : Row} :
    isAbsent checkNull row = false ↔ ∀ x ∈ checkNull.toList, (row.get x).isNull = false := by
  cases checkNull <;> simp [isAbsent]

theorem Assembler.read_of_present {a : Assembler} {row : Row}
    (h : isAbsent a.checkNull row = false) :
    a.read row = some (.object (readFields row a.fields)) := by
  obtain ⟨fields, checkNull, nullObject⟩ := a
  rw [read, if_neg (by simpa using h)]

theorem Assembler.read_of_absent {a : Assembler} {row : Row}
    (h : isAbsent a.checkNull row = true) : a.read row = a.nullObject := by
  obtain ⟨fields, checkNull, nullObject⟩ := a
  rw [read, if_pos h]

/-- What is read where nothing stands for a missing object. -/
theorem Assembler.eq_of_read {a : Assembler} (hnone : a.nullObject = none) {row : Row} {v : Value}
    (h : a.read row = some v) : v = .object (readFields row a.fields) := by
  cases habsent : isAbsent a.checkNull row with
  | true =>
    rw [read_of_absent habsent, hnone] at h
    cases h
  | false =>
    rw [read_of_present habsent] at h
    exact (Option.some.inj h).symm

/-! An object depends on the columns that it is read from, and on no other. -/

mutual

theorem Assembler.read_congr {row row' : Row} :
    ∀ a : Assembler, (∀ x ∈ a.reads, row.get x = row'.get x) → a.read row = a.read row'
  | ⟨fields, checkNull, nullObject⟩, h => by
    rw [reads] at h
    rw [read, read, isAbsent_congr fun x hx => h x (List.mem_append_left _ hx),
      readFields_congr fields fun x hx => h x (List.mem_append_right _ hx)]
termination_by structural a => a

theorem Assembler.readFields_congr {row row' : Row} :
    ∀ fields, (∀ x ∈ fieldReads fields, row.get x = row'.get x) →
      readFields row fields = readFields row' fields
  | [], _ => rfl
  | (name, f) :: rest, h => by
    rw [fieldReads] at h
    rw [readFields, readFields, readField_congr f fun x hx => h x (List.mem_append_left _ hx),
      readFields_congr rest fun x hx => h x (List.mem_append_right _ hx)]
termination_by structural fields => fields

theorem Assembler.readField_congr {row row' : Row} :
    ∀ f : FieldReader, (∀ x ∈ f.reads, row.get x = row'.get x) → readField row f = readField row' f
  | .column c, h => h c (List.mem_singleton_self c)
  | .object a, h => by
    rw [readField, readField, Assembler.read_congr a h]
  | .joinKey columns, h => by
    rw [readField, readField]
    refine congrArg Value.object (List.map_congr_left fun c hc => ?_)
    rw [h c.2 (List.mem_map_of_mem hc)]
termination_by structural f => f

end

end LateralSql
