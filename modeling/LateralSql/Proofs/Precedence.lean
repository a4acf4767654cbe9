/-
  Reading conditions.

  The symbols between a bracket and its counterpart are one part of what stands around it
  (`bracketStep`).  Of the parts on one level, `or` binds least, then `and`, then `not`, and
  whatever else stands together is an atom; a group on its own is worth what is inside
  (`disjunctionTruth`).  What an atom is worth is a matter of its symbols, except that some are
  constant.  The conditions of a select are those that follow the words of its clauses
  (`Statement.conditions`).
-/
import LateralSql.Proofs.Symbols
import LateralSql.Proofs.Truth

namespace LateralSql.Sql

/-- A symbol, or what stands between two brackets: what it is worth, and its symbols. -/
inductive Part where
  | symbol (s : Symbol)
  | group (truth : Truth) (inside : List Symbol)

namespace Part

/-- The part is the given word. -/
def isWord (w : String) : Part → Bool
  | symbol (.word v) => v = w
  | _ => false

/-- The symbols that a part was read from. -/
def symbols : Part → List Symbol
  | symbol s => [s]
  | group _ inside => .sign '(' :: (inside ++ [.sign ')'])

end Part

/-- What is true or false whatever the rows are. -/
def constant? : List Symbol → Option Truth
  | [.word a] => if a = "true" then some .yes else if a = "false" then some .no else none
  | [.word a, .sign c, .word b] =>
    if c = '=' ∧ a = "1" ∧ b = "1" then some .yes
    else if c = '=' ∧ a = "1" ∧ b = "0" then some .no
    else none
  | _ => none

section
-- what is true of the atoms
variable (ρ : List Symbol → Truth)

/-- The truth of an atom, which may be a constant. -/
def atomTruth (ts : List Symbol) : Truth := (constant? ts).getD (ρ ts)

/-- The truth of brackets, or of an atom. -/
def primaryTruth : List Part → Truth
  | [.group t _] => t
  | ps => atomTruth ρ (ps.flatMap Part.symbols)

/-- The truth of what may start with `not`, which binds most tightly. -/
def negationTruth : List Part → Truth
  | [] => primaryTruth ρ []
  | p :: ps => if p.isWord "not" then (negationTruth ps).not else primaryTruth ρ (p :: ps)

/-- The truth of what `and` joins, which binds more tightly than `or`. -/
def conjunctionTruth (ps : List Part) : Truth :=
  .all ((ps.splitOnP (·.isWord "and")).map (negationTruth ρ))

/-- The truth of what `or` joins. -/
def disjunctionTruth (ps : List Part) : Truth :=
  .any ((ps.splitOnP (·.isWord "or")).map (conjunctionTruth ρ))

/-- Where the reader is: after some parts on one level, with those before the brackets around it. -/
structure Level where
  parts : List Part := []
  outer : List (List Part) := []

/-- Reads a symbol.  A closing bracket makes the parts of its level into one. -/
def bracketStep (level : Level) (s : Symbol) : Option Level :=
  match s with
  | .sign '(' => some ⟨[], level.parts :: level.outer⟩
  | .sign ')' =>
    match level.outer with
    | [] => none
    | around :: outer =>
      let inside := level.parts.flatMap Part.symbols
      some ⟨around ++ [.group (disjunctionTruth ρ level.parts) inside], outer⟩
  | s => some ⟨level.parts ++ [.symbol s], level.outer⟩

/-- The parts of the symbols, if all brackets have their counterparts. -/
def readParts (ts : List Symbol) : Option (List Part) :=
  match ts.foldlM (bracketStep ρ) {} with
  | some ⟨ps, []⟩ => some ps
  | _ => none

/-- The truth of a condition that is the text of a statement. -/
def Statement.truth (st : Statement) : Option Truth := do
  return disjunctionTruth ρ (← readParts ρ (← st.symbols))

/-! ## Clauses -/

/-- The words that start the clauses of a select. -/
def clauseWords : List String :=
  ["select", "from", "inner", "left", "on", "where", "order", "limit", "offset"]

/-- The word of a clause that starts with the part, if one does. -/
def Part.clauseWord? : Part → Option String
  | symbol (.word w) => if w ∈ clauseWords then some w else none
  | _ => none

/-- The parts before the first clause, and each clause with its word. -/
def readClauses : List Part → List Part × List (String × List Part)
  | [] => ([], [])
  | p :: ps =>
    let rest := readClauses ps
    match p.clauseWord? with
    | some w => ([], (w, rest.1) :: rest.2)
    | none => (p :: rest.1, rest.2)

/-- What the clauses with the given word have after it. -/
def bodiesAfter (w : String) (ps : List Part) : List (List Part) :=
  (readClauses ps).2.filterMap fun c => if c.1 = w then some c.2 else none

/-- The truth of all conditions that follow the given word in a select. -/
def Statement.conditions (w : String) (st : Statement) : Option (List Truth) := do
  return (bodiesAfter w (← readParts ρ (← st.symbols))).map (disjunctionTruth ρ)

/-- The truth of the condition of a select. A missing one is true. -/
def Statement.whereTruth (st : Statement) : Option Truth := (st.conditions ρ "where").map .all

/-- The truth of the conditions of the joins of a select. -/
def Statement.onTruths (st : Statement) : Option (List Truth) := st.conditions ρ "on"

/-! ## Parts -/

/-- The symbols are read as the parts, whatever stands before them and around them. -/
structure Groups (ts : List Symbol) (ps : List Part) : Prop where
  run : ∀ qs outer, ts.foldlM (bracketStep ρ) ⟨qs, outer⟩ = some ⟨qs ++ ps, outer⟩
  symbols : ps.flatMap Part.symbols = ts

variable {ρ} {ts us : List Symbol} {ps qs : List Part}

namespace Groups

theorem readParts_eq (h : Groups ρ ts ps) : readParts ρ ts = some ps := by
  rw [readParts, h.run]
  rfl

theorem nil : Groups ρ [] [] := ⟨fun qs outer => by simp, rfl⟩

theorem append (h : Groups ρ ts ps) (h' : Groups ρ us qs) : Groups ρ (ts ++ us) (ps ++ qs) := by
  refine ⟨fun rs outer => ?_, ?_⟩
  · rw [List.foldlM_append, h.run, Option.bind_eq_bind, Option.bind_some, h'.run,
      List.append_assoc]
  · rw [List.flatMap_append, h.symbols, h'.symbols]

end Groups

/-- The symbol opens or closes brackets. -/
def Symbol.isBracket : Symbol → Bool
  | sign c => c = '(' || c = ')'
  | _ => false

theorem bracketStep_symbol {s : Symbol} (h : s.isBracket = false) (ps : List Part)
    (outer : List (List Part)) : bracketStep ρ ⟨ps, outer⟩ s = some ⟨ps ++ [.symbol s], outer⟩ := by
  unfold bracketStep
  split
  · cases h
  · cases h
  · rfl

namespace Groups

theorem symbol {t : Symbol} (h : t.isBracket = false) : Groups ρ [t] [.symbol t] :=
  ⟨fun qs outer => by simp [bracketStep_symbol h], rfl⟩

theorem of_no_brackets (h : ∀ t ∈ ts, t.isBracket = false) : Groups ρ ts (ts.map .symbol) := by
  induction ts with
  | nil => exact nil
  | cons t ts ih =>
    obtain ⟨ht, hts⟩ := List.forall_mem_cons.1 h
    exact (symbol ht).append (ih hts)

theorem group (h : Groups ρ ts ps) :
    Groups ρ (.sign '(' :: (ts ++ [.sign ')'])) [.group (disjunctionTruth ρ ps) ts] := by
  refine ⟨fun qs outer => ?_, by simp [Part.symbols]⟩
  rw [List.foldlM_cons]
  change List.foldlM (bracketStep ρ) ⟨[], qs :: outer⟩ (ts ++ [.sign ')']) = _
  rw [List.foldlM_append, h.run]
  simp [bracketStep, h.symbols]

end Groups

end

end LateralSql.Sql
