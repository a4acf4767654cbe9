/-
  Positions in an answer, and rows in which a select has no row.

  A nested object disappears from an answer if the column is null that tells it from none.  If no
  other field reads the columns that are null, nothing else changes (`Isolates.readFields`).
-/
import Mathlib.Data.List.Basic
import LateralSql.Proofs.Reading

namespace LateralSql

/-! ## Positions -/

namespace Value

/-- The value at a position: the places of members, from the outermost object inwards. -/
def at? : Value → List Nat → Option Value
  | v, [] => some v
  | .object members, i :: path => members[i]?.bind fun m => m.2.at? path
  | _, _ :: _ => none

/-- The value with another one at a position. -/
def put : Value → List Nat → Value → Value
  | _, [], w => w
  | .object members, i :: path, w => .object (members.modify i fun m => (m.1, m.2.put path w))
  | v, _ :: _, _ => v

theorem at?_member (ms ks : List (String × Value)) (m : String × Value) (path : List Nat) :
    (Value.object (ms ++ m :: ks)).at? (ms.length :: path) = m.2.at? path := by
  simp [at?]

theorem put_member (ms ks : List (String × Value)) (m : String × Value) (path : List Nat)
    (w : Value) :
    (Value.object (ms ++ m :: ks)).put (ms.length :: path) w =
      .object (ms ++ (m.1, m.2.put path w) :: ks) := by
  rw [put]
  congr 1
  induction ms with
  | nil => rfl
  | cons m ms ih => rw [List.cons_append, List.length_cons, List.modify_succ_cons, ih]; rfl

theorem at?_put {v u : Value} {path : List Nat} (h : v.at? path = some u) (w : Value) :
    (v.put path w).at? path = some w := by
  induction path generalizing v with
  | nil => cases v <;> rfl
  | cons i path ih =>
    cases v with
    | object members =>
      obtain ⟨m, hm, h⟩ := Option.bind_eq_some_iff.1 h
      rw [put, at?, List.getElem?_modify_eq, hm]
      exact ih h
    | _ => cases h

/-- A position that neither encloses the changed one nor lies in it keeps its value. -/
theorem at?_put_of_apart {v : Value} {p path : List Nat} (hp : ¬ p <+: path) (hpath : ¬ path <+: p)
    (w : Value) : (v.put path w).at? p = v.at? p := by
  induction path generalizing v p with
  | nil => exact (hpath List.nil_prefix).elim
  | cons i path ih =>
    cases p with
    | nil => exact (hp List.nil_prefix).elim
    | cons j p =>
      cases v with
      | object members =>
        rw [put, at?, at?]
        by_cases hij : i = j
        · subst hij
          rw [List.prefix_cons_inj] at hp hpath
          rw [List.getElem?_modify_eq]
          cases members[i]? with
          | none => rfl
          | some m => exact ih hp hpath
        · rw [List.getElem?_modify_ne _ _ hij]
      | _ => rfl

end Value

/-! ## Positions of fields -/

/-- An element stands among others at its own place, moved by those before it. -/
theorem getElem?_append_between {α : Type} {xs : List α} {i : Nat} {a : α} (h : xs[i]? = some a)
    (before after : List α) : (before ++ xs ++ after)[before.length + i]? = some a := by
  have hi : i < xs.length := (List.getElem?_eq_some_iff.1 h).1
  rw [List.append_assoc, List.getElem?_append_right (by omega), Nat.add_sub_cancel_left,
    List.getElem?_append_left hi, h]

namespace Assembler

variable (row : Row) (before after : List (String × FieldReader)) (f : String × FieldReader)

theorem at?_readFields (path : List Nat) :
    (Value.object (readFields row (before ++ f :: after))).at? (before.length :: path) =
      (readField row f.2).at? path := by
  have hlength : (readFields row before).length = before.length := by simp [readFields_eq]
  rw [readFields_split, ← hlength, Value.at?_member]

theorem put_readFields (path : List Nat) (w : Value) :
    (Value.object (readFields row (before ++ f :: after))).put (before.length :: path) w =
      .object (readFields row before ++
        (f.1, (readField row f.2).put path w) :: readFields row after) := by
  have hlength : (readFields row before).length = before.length := by simp [readFields_eq]
  rw [readFields_split, ← hlength, Value.put_member]

end Assembler

/-! ## Columns set to null -/

/-- The row with nulls in the given columns. -/
def Row.nullAt (row : Row) (xs : List String) : Row := xs.map (·, .null) ++ row

theorem Row.get_nullAt_of_mem {row : Row} {xs : List String} {x : String} (h : x ∈ xs) :
    (row.nullAt xs).get x = .null := by
  have hlookup : (xs.map (·, Value.null)).lookup x = some .null := by
    induction xs with
    | nil => cases h
    | cons y xs ih =>
      rw [List.map_cons, List.lookup_cons]
      split
      · rfl
      · next hne => exact ih ((List.mem_cons.1 h).resolve_left (by simpa using hne))
  exact get_append_of_lookup hlookup

theorem Row.get_nullAt_of_notMem {row : Row} {xs : List String} {x : String} (h : x ∉ xs) :
    (row.nullAt xs).get x = row.get x := by
  refine get_append_of_notMem ?_
  rw [List.map_map]
  simpa using h

theorem Assembler.readFields_nullAt {row : Row} {xs : List String}
    {fields : List (String × FieldReader)} (h : ∀ y ∈ fieldReads fields, y ∉ xs) :
    readFields (row.nullAt xs) fields = readFields row fields :=
  readFields_congr fields fun y hy => Row.get_nullAt_of_notMem (h y hy)

/-! ## Fields that nothing else is read with -/

/-- The given columns tell the object at a position from none, and no other field reads them. -/
inductive Isolates (xs : List String) : List (String × FieldReader) → List Nat → Prop
  | here {before after : List (String × FieldReader)} {label x : String} {a : Assembler} :
      a.checkNull = some x → x ∈ xs → a.nullObject = none →
      (∀ y ∈ fieldReads before ++ fieldReads after, y ∉ xs) →
      Isolates xs (before ++ (label, .object a) :: after) [before.length]
  | inside {before after : List (String × FieldReader)} {label : String} {a : Assembler}
      {path : List Nat} :
      a.nullObject = none →
      (∀ y ∈ a.checkNull.toList ++ (fieldReads before ++ fieldReads after), y ∉ xs) →
      Isolates xs a.fields path →
      Isolates xs (before ++ (label, .object a) :: after) (before.length :: path)

namespace Isolates

variable {xs : List String} {fields : List (String × FieldReader)} {path : List Nat}

theorem ne_nil (h : Isolates xs fields path) : path ≠ [] := by
  cases h <;> simp

theorem single {label x : String} {a : Assembler} (hnull : a.checkNull = some x) (hx : x ∈ xs)
    (hnone : a.nullObject = none) : Isolates xs [(label, .object a)] [0] := by
  have h : Isolates xs ([] ++ (label, .object a) :: []) [([] : List Nat).length] :=
    .here hnull hx hnone (by simp [fieldReads])
  exact h

theorem nested {label : String} {a : Assembler} (hnone : a.nullObject = none)
    (hnull : ∀ y ∈ a.checkNull, y ∉ xs) (h : Isolates xs a.fields path) :
    Isolates xs [(label, .object a)] (0 :: path) := by
  have h : Isolates xs ([] ++ (label, .object a) :: []) (([] : List Nat).length :: path) :=
    .inside hnone (by simpa [fieldReads] using hnull) h
  exact h

/-- Fields around others move their positions. -/
theorem extend {i : Nat} (h : Isolates xs fields (i :: path))
    {before after : List (String × FieldReader)}
    (hreads : ∀ y ∈ fieldReads before ++ fieldReads after, y ∉ xs) :
    Isolates xs (before ++ fields ++ after) ((before.length + i) :: path) := by
  rw [List.forall_mem_append] at hreads
  generalize hi : i :: path = position at h
  cases h with
  | @here before' after' label x a hnull hx habsent hothers =>
    obtain ⟨rfl, rfl⟩ := List.cons.inj hi
    rw [List.forall_mem_append] at hothers
    have hsplit : before ++ (before' ++ (label, .object a) :: after') ++ after =
        (before ++ before') ++ (label, .object a) :: (after' ++ after) := by simp
    rw [hsplit, ← List.length_append]
    refine .here hnull hx habsent ?_
    simp only [fieldReads_append, List.forall_mem_append]
    exact ⟨⟨hreads.1, hothers.1⟩, hothers.2, hreads.2⟩
  | @inside before' after' label a path' habsent hothers hinside =>
    obtain ⟨rfl, rfl⟩ := List.cons.inj hi
    simp only [List.forall_mem_append] at hothers
    have hsplit : before ++ (before' ++ (label, .object a) :: after') ++ after =
        (before ++ before') ++ (label, .object a) :: (after' ++ after) := by simp
    rw [hsplit, ← List.length_append]
    refine .inside habsent ?_ hinside
    simp only [fieldReads_append, List.forall_mem_append]
    exact ⟨hothers.1, ⟨hreads.1, hothers.2.1⟩, hothers.2.2, hreads.2⟩

/-- **Absence is local.**  With nulls in the columns of an object it is null itself, and all else is
    as it was, if what encloses it is there. -/
theorem readFields (h : Isolates xs fields path) {row : Row}
    (hpresent : ∀ p, p <+: path → p ≠ path →
      ∃ ms, (Value.object (Assembler.readFields row fields)).at? p = some (.object ms)) :
    .object (Assembler.readFields (row.nullAt xs) fields) =
        (Value.object (Assembler.readFields row fields)).put path .null ∧
      ∃ u, (Value.object (Assembler.readFields row fields)).at? path = some u := by
  induction h with
  | @here before after label x a hnull hx hnone hothers =>
    have habsent : Assembler.isAbsent a.checkNull (row.nullAt xs) = true := by
      rw [hnull, Assembler.isAbsent, Row.get_nullAt_of_mem hx]
      rfl
    have hread : Assembler.readField (row.nullAt xs) (.object a) = .null := by
      rw [Assembler.readField, Assembler.read_of_absent habsent, hnone]
      rfl
    rw [List.forall_mem_append] at hothers
    rw [Assembler.put_readFields, Assembler.at?_readFields, Assembler.readFields_split, hread,
      Assembler.readFields_nullAt hothers.1, Assembler.readFields_nullAt hothers.2]
    exact ⟨rfl, _, rfl⟩
  | @inside before after label a path hnone hothers hinside ih =>
    simp only [List.forall_mem_append] at hothers
    obtain ⟨hcheck, hbefore, hafter⟩ := hothers
    -- the object itself encloses the position, so it is there
    obtain ⟨ms, hms⟩ := hpresent [before.length] (by simp) (by simpa using hinside.ne_nil.symm)
    rw [Assembler.at?_readFields] at hms
    have hthere : Assembler.isAbsent a.checkNull row = false := by
      cases habsent : Assembler.isAbsent a.checkNull row with
      | false => rfl
      | true =>
        rw [Assembler.readField, Assembler.read_of_absent habsent, hnone] at hms
        cases hms
    have hthere' : Assembler.isAbsent a.checkNull (row.nullAt xs) = false := by
      rw [← hthere]
      exact Assembler.isAbsent_congr fun y hy => Row.get_nullAt_of_notMem (hcheck y hy)
    have hread (row : Row) (h : Assembler.isAbsent a.checkNull row = false) :
        Assembler.readField row (.object a) = .object (Assembler.readFields row a.fields) := by
      rw [Assembler.readField, Assembler.read_of_present h]
      rfl
    have hinner : ∀ p, p <+: path → p ≠ path →
        ∃ ms, (Value.object (Assembler.readFields row a.fields)).at? p = some (.object ms) := by
      intro p hp hne
      obtain ⟨ms, hms⟩ := hpresent (before.length :: p) (by simpa using hp) (by simpa using hne)
      rw [Assembler.at?_readFields, hread _ hthere] at hms
      exact ⟨ms, hms⟩
    obtain ⟨hput, u, hu⟩ := ih hinner
    rw [Assembler.put_readFields, Assembler.at?_readFields, Assembler.readFields_split,
      hread _ hthere', hread _ hthere, hput, Assembler.readFields_nullAt hbefore,
      Assembler.readFields_nullAt hafter]
    exact ⟨rfl, u, hu⟩

end Isolates

end LateralSql
