/-
  The columns that a select yields, and those that an assembler reads.

  `Select.outputs` lists the names of the columns of a select's rows: an expression has the name
  it is given, and all columns of a joined select are that select's columns.  `Assembler.reads`
  lists the columns that an object is read from, tests for a missing object included.

  Names are handed out in the order of their numbers, so names from different stretches of a
  compilation are distinct (`Numbered`).
-/
import Mathlib.Data.List.Nodup
import LateralSql.Proofs.Drafts

namespace LateralSql

namespace Sql

/-! ## Columns of selects -/

/-- The columns that an expression adds, where the joined selects have the given columns. -/
def Expr.outputs (joined : List (String × List String)) : Expr → List String
  | .named _ name => [name]
  | .star (some t) => (joined.lookup t).getD []
  | _ => []

mutual

/-- The names of the columns that a select yields. -/
def Select.outputs : Select → List String
  | ⟨_, columns, joins, _, _, _, _⟩ => columns.flatMap (Expr.outputs (joinOutputs joins))
termination_by structural s => s

/-- The columns of the joined selects, by the names they are joined under. -/
def joinOutputs : List Join → List (String × List String)
  | [] => []
  | j :: js => j.outputs ++ joinOutputs js
termination_by structural js => js

/-- The columns of a joined select, by the name it is joined under. -/
def Join.outputs : Join → List (String × List String)
  | ⟨_, table, _, _⟩ => table.outputs
termination_by structural j => j

/-- The columns of a table that is a select, by the name it is read under. -/
def Table.outputs : Table → List (String × List String)
  | ⟨source, name, _⟩ => name.toList.map (·, source.outputs)
termination_by structural t => t

/-- The columns of a table that is a select. -/
def Source.outputs : Source → List String
  | .query s => s.outputs
  | _ => []
termination_by structural s => s

end

theorem Select.outputs_eq (s : Select) :
    s.outputs = s.columns.flatMap (Expr.outputs (joinOutputs s.joins)) := by
  cases s; rw [Select.outputs]

theorem joinOutputs_append (js ks : List Join) :
    joinOutputs (js ++ ks) = joinOutputs js ++ joinOutputs ks := by
  induction js with
  | nil => rfl
  | cons j js ih => rw [List.cons_append, joinOutputs, joinOutputs, ih, List.append_assoc]

@[simp] theorem Select.outputs_first (s : Select) : s.first.outputs = s.outputs := by
  simp [Select.outputs_eq, Select.first]

theorem joinOutputs_ofLateral (s : Select) (name : String) :
    joinOutputs [Join.ofLateral s name] = [(name, s.outputs)] := rfl

theorem lookup_of_mem_labels {joined : List (String × List String)} {t : String}
    (h : t ∈ joined.map (·.1)) : ∃ os, joined.lookup t = some os := by
  obtain ⟨p, hp, rfl⟩ := List.mem_map.1 h
  exact Option.isSome_iff_exists.1 (List.lookup_isSome_iff.2 ⟨p, hp, beq_self_eq_true _⟩)

theorem lookup_of_notMem_labels {joined : List (String × List String)} {t : String}
    (h : t ∉ joined.map (·.1)) : joined.lookup t = none := by
  refine List.lookup_eq_none_iff.2 fun p hp => ?_
  simpa using fun heq : t = p.1 => h (heq ▸ List.mem_map_of_mem hp)

/-- Only the joins that an expression refers to matter. -/
theorem flatMap_outputs_congr {columns : List Expr} {joined joined' : List (String × List String)}
    (h : ∀ t, .star (some t) ∈ columns → joined.lookup t = joined'.lookup t) :
    columns.flatMap (Expr.outputs joined) = columns.flatMap (Expr.outputs joined') := by
  refine List.flatMap_congr fun e he => ?_
  cases e with
  | star t =>
    cases t with
    | some t => rw [Expr.outputs, Expr.outputs, h t he]
    | none => rfl
  | _ => rfl

end Sql

/-! ## Columns of assemblers -/

mutual

/-- The columns that an object is read from. -/
def Assembler.reads : Assembler → List String
  | ⟨fields, checkNull, _⟩ => checkNull.toList ++ fieldReads fields
termination_by structural a => a

/-- The columns that fields are read from. -/
def fieldReads : List (String × FieldReader) → List String
  | [] => []
  | (_, f) :: rest => f.reads ++ fieldReads rest
termination_by structural fields => fields

/-- The columns that a field is read from. -/
def FieldReader.reads : FieldReader → List String
  | .column c => [c]
  | .object a => a.reads
  | .joinKey columns => columns.map (·.2)
termination_by structural f => f

end

theorem fieldReads_eq (fields : List (String × FieldReader)) :
    fieldReads fields = fields.flatMap (·.2.reads) := by
  induction fields with
  | nil => rfl
  | cons f fields ih => rw [fieldReads, ih, List.flatMap_cons]

theorem fieldReads_append (fs gs : List (String × FieldReader)) :
    fieldReads (fs ++ gs) = fieldReads fs ++ fieldReads gs := by
  simp only [fieldReads_eq, List.flatMap_append]

theorem fieldReads_columnReaders (selected : List (SelectedField × String)) :
    fieldReads (columnReaders selected) = selected.map (·.2) := by
  rw [fieldReads_eq, columnReaders, List.flatMap_map, List.map_eq_flatMap]
  rfl

theorem fieldReads_zip_columns (labels names : List String) :
    fieldReads (labels.zip (names.map .column)) ⊆ names := by
  rw [fieldReads_eq]
  intro x hx
  obtain ⟨p, hp, hx⟩ := List.mem_flatMap.1 hx
  obtain ⟨name, hname, heq⟩ := List.mem_map.1 (List.of_mem_zip hp).2
  rw [← heq, FieldReader.reads, List.mem_singleton] at hx
  exact hx ▸ hname

/-! ## Numbered names -/

/-- Distinct names with numbers above `lo` and up to `hi`. -/
structure Numbered (name : Nat → String) (lo hi : Nat) (xs : List String) : Prop where
  nodup : xs.Nodup
  number : ∀ x ∈ xs, ∃ k, lo < k ∧ k ≤ hi ∧ name k = x

namespace Numbered

variable {name : Nat → String} {lo mid hi : Nat} {xs ys : List String}

theorem nil (name : Nat → String) (lo hi : Nat) : Numbered name lo hi [] := ⟨.nil, by simp⟩

theorem mono {lo' hi' : Nat} (h : Numbered name lo hi xs) (hlo : lo' ≤ lo) (hhi : hi ≤ hi') :
    Numbered name lo' hi' xs := by
  refine ⟨h.nodup, fun x hx => ?_⟩
  obtain ⟨k, h₁, h₂, rfl⟩ := h.number x hx
  exact ⟨k, by omega, by omega, rfl⟩

theorem single (name : Nat → String) (k : Nat) : Numbered name k (k + 1) [name (k + 1)] :=
  ⟨by simp, fun x hx => ⟨k + 1, by omega, le_rfl, (List.mem_singleton.1 hx).symm⟩⟩

/-- Later numbers are other names. -/
theorem append (hinj : ∀ {k l}, name k = name l ↔ k = l) (hx : Numbered name lo mid xs)
    (hy : Numbered name mid hi ys) (hlo : lo ≤ mid) (hhi : mid ≤ hi) :
    Numbered name lo hi (xs ++ ys) := by
  refine ⟨List.Nodup.append hx.nodup hy.nodup fun x h₁ h₂ => ?_, fun x hmem => ?_⟩
  · obtain ⟨k, -, hk, rfl⟩ := hx.number x h₁
    obtain ⟨l, hl, -, heq⟩ := hy.number _ h₂
    rw [hinj] at heq
    omega
  · rcases List.mem_append.1 hmem with h | h
    · exact (hx.mono le_rfl hhi).number x h
    · exact (hy.mono hlo le_rfl).number x h

theorem notMem (hinj : ∀ {k l}, name k = name l ↔ k = l) (h : Numbered name lo hi xs) {k : Nat}
    (hk : k ≤ lo ∨ hi < k) : name k ∉ xs := by
  intro hmem
  obtain ⟨l, h₁, h₂, heq⟩ := h.number _ hmem
  rw [hinj] at heq
  omega

end Numbered

/-- Columns named between two states of the names. -/
abbrev NewColumns (n n' : Names) (xs : List String) : Prop :=
  Numbered Names.columnName n.columns n'.columns xs

/-- Tables named between two states of the names. -/
abbrev NewTables (n n' : Names) (xs : List String) : Prop :=
  Numbered Names.tableName n.tables n'.tables xs

theorem NewColumns.append {n m n' : Names} {xs ys : List String} (hx : NewColumns n m xs)
    (hy : NewColumns m n' ys) (h : n ≤ m) (h' : m ≤ n') : NewColumns n n' (xs ++ ys) :=
  Numbered.append Names.columnName_inj hx hy h.2 h'.2

theorem NewTables.append {n m n' : Names} {xs ys : List String} (hx : NewTables n m xs)
    (hy : NewTables m n' ys) (h : n ≤ m) (h' : m ≤ n') : NewTables n n' (xs ++ ys) :=
  Numbered.append Names.tableName_inj hx hy h.1 h'.1

theorem newColumns_of_freshColumn {n n' : Names} {x : String} (h : freshColumn n = .ok (x, n')) :
    NewColumns n n' [x] := by
  obtain ⟨rfl, rfl⟩ := freshColumn_run.1 h
  exact Numbered.single _ _

theorem newTables_of_freshTable {n n' : Names} {x : String} (h : freshTable n = .ok (x, n')) :
    NewTables n n' [x] := by
  obtain ⟨rfl, rfl⟩ := freshTable_run.1 h
  exact Numbered.single _ _

/-! ## Drafts -/

namespace Draft

/-- The names of the columns drafted so far. -/
def outputs (d : Draft) : List String :=
  d.columns.flatMap (Sql.Expr.outputs (Sql.joinOutputs d.joins))

/-- The names of the joined selects. -/
def labels (d : Draft) : List String := (Sql.joinOutputs d.joins).map (·.1)

end Draft

end LateralSql
