/-
  How the parts of a select are read.

  Outside of all brackets an expression has none of the words that join conditions or start a
  clause, so that a select is read as its clauses (`Select.Readings`), provided that the names of
  functions and types, which are written as they are, look like names (`PlainName`).  An expression
  starts with `not` only if it is a negation or starts with one (`Expr.opensNegated`).
-/
import LateralSql.Proofs.Phrases

namespace LateralSql.Sql

/-! ## Clauses -/

/-- The clauses of a select after its columns. -/
inductive ClauseKind where
  | tables
  | join (kind : JoinKind)
  | on
  | condition
  | order
  | limit
  | offset

namespace ClauseKind

/-- The text that starts the clause. -/
def start : ClauseKind → String
  | tables => " from "
  | join kind => kind.text
  | on => " on "
  | condition => " where "
  | order => " order by "
  | limit => " limit "
  | offset => " offset "

/-- The word by which the clause is known. -/
def word : ClauseKind → String
  | tables => "from"
  | join .inner => "inner"
  | join .left => "left"
  | on => "on"
  | condition => "where"
  | order => "order"
  | limit => "limit"
  | offset => "offset"

/-- What follows that word in all clauses of the kind. -/
def joint : ClauseKind → List Symbol
  | join _ => [.word "join"]
  | order => [.word "by"]
  | _ => []

theorem plainSymbols_start (k : ClauseKind) : plainSymbols k.start = .word k.word :: k.joint := by
  cases k with
  | join kind => cases kind <;> rfl
  | _ => rfl

theorem start_fits (k : ClauseKind) :
    opensApart k.start = true ∧ closesApart k.start = true ∧ fits [] k.start = true := by
  cases k with
  | join kind => cases kind <;> exact ⟨rfl, rfl, rfl⟩
  | _ => exact ⟨rfl, rfl, rfl⟩

theorem clauseWord?_word (k : ClauseKind) :
    (Part.symbol (.word k.word)).clauseWord? = some k.word := by
  cases k with
  | join kind => cases kind <;> rfl
  | _ => rfl

theorem noneOf_joint (k : ClauseKind) :
    ∀ p ∈ k.joint.map Part.symbol, p.isNoneOf clauseWords = true := by
  intro p hp
  cases k with
  | join _ | order =>
    obtain rfl := List.mem_singleton.1 hp
    rfl
  | _ => cases hp

end ClauseKind

/-- A clause of a select. -/
structure Clause where
  kind : ClauseKind
  body : List Piece

/-- The pieces of a clause, its word first. -/
def Clause.pieces (c : Clause) : List Piece := plain c.kind.start ++ c.body

/-- The condition of a join, which is always written. -/
def Join.onPieces (j : Join) : List Piece := if j.on.isAlways then plain "true" else j.on.pieces

/-- The clauses of a join. -/
def Join.clauses (j : Join) : List Clause :=
  [⟨.join j.kind, (if j.lateral then plain "lateral " else []) ++ j.table.pieces⟩,
    ⟨.on, j.onPieces⟩]

/-- The clauses of a select after its columns. -/
def Select.clauses (s : Select) : List Clause :=
  (if s.tables.isEmpty then [] else [⟨.tables, separated ", " (tablePieces s.tables)⟩]) ++
  s.joins.flatMap Join.clauses ++
  (if s.condition.isAlways then [] else [⟨.condition, s.condition.pieces⟩]) ++
  (if s.order.isEmpty then [] else [⟨.order, separated ", " (orderPieces s.order)⟩]) ++
  s.limit.toList.map (fun e => ⟨.limit, e.pieces⟩) ++
  s.offset.toList.map fun e => ⟨.offset, e.pieces⟩

theorem joinPieces_eq (js : List Join) :
    joinPieces js = (js.flatMap Join.clauses).flatMap Clause.pieces := by
  induction js with
  | nil => rfl
  | cons j js ih =>
    obtain ⟨kind, table, on, lateral⟩ := j
    rw [joinPieces, ih, List.flatMap_cons, List.flatMap_append, Join.pieces]
    simp [Join.clauses, Join.onPieces, Clause.pieces, ClauseKind.start]

theorem clause_eq (empty : Bool) (kind : ClauseKind) (ps : List Piece) :
    clause empty kind.start ps =
      (if empty then [] else [⟨kind, ps⟩] : List Clause).flatMap Clause.pieces := by
  cases empty <;> simp [clause, Clause.pieces]

theorem optionPieces_eq (kind : ClauseKind) (e : Option Expr) :
    optionPieces kind.start e =
      (e.toList.map fun e => (⟨kind, e.pieces⟩ : Clause)).flatMap Clause.pieces := by
  cases e <;> simp [optionPieces, Clause.pieces]

theorem Select.pieces_eq_clauses (s : Select) :
    s.pieces = plain "select " ++ columnPieces s.columns ++ s.clauses.flatMap Clause.pieces := by
  obtain ⟨tables, columns, joins, condition, order, limit, offset⟩ := s
  simp only [Select.pieces_eq, Select.clauses, joinPieces_eq, ← clause_eq, ← optionPieces_eq,
    List.flatMap_append, List.append_assoc]
  rfl

/-! ## Expressions -/

/-- The expression is neither a condition nor named. -/
def Expr.isAtom : Expr → Bool
  | .cond _ | .named _ _ => false
  | _ => true

mutual

/-- The text of the expression starts with `not`. -/
def Expr.opensNegated : Expr → Bool
  | .compare _ l _ => l.opensNegated
  | .isIn _ [] => false
  | .isIn e (_ :: _) => e.opensNegated
  | .isNull e => e.opensNegated
  | .isNotNull e => e.opensNegated
  | .equalsAny value _ => value.opensNegated
  | .hasNoRows _ => true
  | .cond c => c.opensNegated
  | .named e _ => e.opensNegated
  | _ => false
termination_by structural e => e

/-- The text of the condition starts with `not`. -/
def Cond.opensNegated : Cond → Bool
  | .not _ => true
  | .single e => e.opensNegated
  | _ => false
termination_by structural c => c

end

section
variable {ρ : List Symbol → Truth} {mode : ParamMode} {ps : List Piece} {s : String}

/-- A text that follows an operand. -/
structure Operator (s : String) : Prop where
  opens : opensApart s = true
  fits : fits reserved s = true
  head : (plainSymbols s).head?.any (Symbol.isNoneOf ["not"]) = true

theorem Comparison.operator_text (op : Comparison) : Operator op.text := by
  cases op <;> exact ⟨rfl, rfl, rfl⟩

theorem Comparison.closesApart_text (op : Comparison) : closesApart op.text = true := by
  cases op <;> rfl

/-- An operator with what follows it. -/
theorem Operator.exists_head (hs : Operator s) {words : List String} (h : Reads ρ mode words ps) :
    ∃ t parts, partsOf ρ mode (plain s ++ ps) = .symbol t :: parts ∧
      (Part.symbol t).isWord "not" = false := by
  have hparts : partsOf ρ mode (plain s ++ ps) =
      (plainSymbols s).map .symbol ++ partsOf ρ mode ps := by
    rw [(Reads.plain hs.fits).partsOf_append h, Reads.partsOf_plain hs.fits]
  cases hsymbols : plainSymbols s with
  | nil =>
    have hhead := hs.head
    rw [hsymbols] at hhead
    cases hhead
  | cons t ts =>
    have hhead := hs.head
    rw [hsymbols] at hhead hparts
    exact ⟨t, _, hparts, Part.isWord_eq_false (p := .symbol t) hhead List.mem_cons_self⟩

/-! ## Readings of expressions -/

variable (ρ mode) in
/-- The expression is read as its parts, also without the brackets that a negation has in their
    place. -/
structure Expr.Readings (e : Expr) : Prop where
  reads : Reads ρ mode reserved e.pieces
  unbracketed : Reads ρ mode [] e.unbracketed
  head : e.opensNegated = false → ∀ p ∈ (partsOf ρ mode e.pieces).head?, p.isWord "not" = false
  ne_group : e.isAtom = true → ∀ t ts, partsOf ρ mode e.pieces ≠ [.group t ts]

namespace Expr.Readings

/-- Most expressions are written alike inside of a negation. -/
theorem ofPhrase {e : Expr} (hu : e.unbracketed = e.pieces) (h : Phrase ρ mode e.pieces) :
    e.Readings ρ mode where
  reads := h.reads.mono reserved_subset
  unbracketed := hu ▸ h.reads.mono (List.nil_subset _)
  head _ p hp := Part.isWord_eq_false (h.reads.noneOf p (List.mem_of_mem_head? hp))
    List.mem_cons_self
  ne_group _ := h.ne_group

/-- An expression that starts with an operand starts as that does. -/
theorem ofOperand {e l : Expr} (hl : l.Readings ρ mode) (hs : Operator s)
    (hrest : Reads ρ mode reserved ps) (hmeets : Meets mode (plain s) ps)
    (hpieces : e.pieces = l.pieces ++ (plain s ++ ps))
    (hu : e.unbracketed = e.pieces ∨ e.unbracketed = l.unbracketed)
    (hnegated : e.opensNegated = l.opensNegated) : e.Readings ρ mode := by
  have hoperator : Reads ρ mode reserved (plain s ++ ps) :=
    (Reads.plain hs.fits).append hrest hmeets
  have hreads : Reads ρ mode reserved e.pieces :=
    hpieces ▸ hl.reads.append hoperator (.plain_right hs.opens)
  obtain ⟨t, parts, hparts, ht⟩ := hs.exists_head hrest
  have heq : partsOf ρ mode e.pieces = partsOf ρ mode l.pieces ++ .symbol t :: parts := by
    rw [hpieces, hl.reads.partsOf_append hoperator, hparts]
  refine ⟨hreads, ?_, fun hopens p hp => ?_, fun _ => ?_⟩
  · rcases hu with hu | hu
    · exact hu ▸ hreads.mono (List.nil_subset _)
    · exact hu ▸ hl.unbracketed
  · rw [heq, List.head?_append] at hp
    cases hhead : (partsOf ρ mode l.pieces).head? with
    | none =>
      rw [hhead] at hp
      obtain rfl := Option.some.inj hp
      exact ht
    | some q =>
      rw [hhead] at hp
      obtain rfl := Option.some.inj hp
      exact hl.head (hnegated ▸ hopens) q hhead
  · rw [heq]
    exact ne_group_of_mem (List.mem_append_right _ List.mem_cons_self)

/-- A negation, with whatever it negates. -/
theorem ofNegation {e : Expr} (hreads : Reads ρ mode reserved e.pieces)
    (hu : e.unbracketed = e.pieces) (hnegated : e.opensNegated = true)
    (hgroup : e.isAtom = true → ∀ t ts, partsOf ρ mode e.pieces ≠ [.group t ts]) :
    e.Readings ρ mode where
  reads := hreads
  unbracketed := hu ▸ hreads.mono (List.nil_subset _)
  head hopens := by rw [hnegated] at hopens; cases hopens
  ne_group := hgroup

/-- A conjunction or disjunction is one group. -/
theorem ofJunction {c : Cond} (h : Reads ρ mode [] ps) (hpieces : c.pieces = parens ps)
    (hu : (Expr.cond c).unbracketed = ps) : (Expr.cond c).Readings ρ mode where
  reads := by
    rw [Expr.pieces, hpieces]
    exact h.parens
  unbracketed := hu ▸ h
  head _ p hp := by
    rw [Expr.pieces, hpieces, h.partsOf_parens] at hp
    obtain rfl := Option.some.inj hp
    rfl
  ne_group := nofun

end Expr.Readings

theorem Expr.unbracketed_named (e : Expr) (name : String) :
    (Expr.named e name).unbracketed = (Expr.named e name).pieces ∨
      (Expr.named e name).unbracketed = e.unbracketed := by
  cases e with
  | cond c =>
    cases c with
    | and es => exact .inr rfl
    | or es => exact .inr rfl
    | _ => exact .inl rfl
  | _ => exact .inl rfl

/-! ## Readings of selects -/

section
variable (ρ : List Symbol → Truth) (mode : ParamMode)

/-- The word of the clause and the parts that follow. -/
def Clause.reading (c : Clause) : String × List Part :=
  (c.kind.word, c.kind.joint.map .symbol ++ partsOf ρ mode c.body)

/-- The parts of a clause, its word first. -/
def Clause.parts (c : Clause) : List Part :=
  .symbol (.word (c.reading ρ mode).1) :: (c.reading ρ mode).2

end

/-- Clauses may follow each other. -/
theorem Reads.clauses (hp : Reads ρ mode [] ps) {cs : List Clause}
    (hcs : ∀ c ∈ cs, Reads ρ mode reserved c.body) :
    Reads ρ mode [] (ps ++ cs.flatMap Clause.pieces) ∧
      partsOf ρ mode (ps ++ cs.flatMap Clause.pieces) =
        partsOf ρ mode ps ++ cs.flatMap (Clause.parts ρ mode) := by
  induction cs generalizing ps with
  | nil => simpa using hp
  | cons c cs ih =>
    obtain ⟨hbody, hcs⟩ := List.forall_mem_cons.1 hcs
    obtain ⟨hopens, hcloses, hfits⟩ := c.kind.start_fits
    have hbody' := hbody.mono (List.nil_subset _)
    have hclause : Reads ρ mode [] c.pieces := .plain_append hfits hcloses hbody'
    have hparts : partsOf ρ mode c.pieces = c.parts ρ mode := by
      rw [Clause.pieces, (Reads.plain hfits).partsOf_append hbody', partsOf_plain hfits,
        c.kind.plainSymbols_start]
      rfl
    obtain ⟨hreads, hrest⟩ := ih (hp.apart hopens hcloses hfits hbody') hcs
    rw [List.flatMap_cons, ← List.append_assoc, List.flatMap_cons, ← List.append_assoc, ← hparts]
    refine ⟨hreads, hrest.trans ?_⟩
    exact congrArg (· ++ cs.flatMap (Clause.parts ρ mode)) (hp.partsOf_append hclause)

/-- Parts that start no clause belong to what stands before. -/
theorem readClauses_append {parts : List Part} (h : ∀ p ∈ parts, p.isNoneOf clauseWords = true)
    (rest : List Part) :
    readClauses (parts ++ rest) = (parts ++ (readClauses rest).1, (readClauses rest).2) := by
  induction parts with
  | nil => rfl
  | cons p parts ih =>
    obtain ⟨hp, hparts⟩ := List.forall_mem_cons.1 h
    rw [List.cons_append, readClauses, p.clauseWord?_eq_none hp, ih hparts]
    rfl

theorem readClauses_clauses {cs : List Clause} (h : ∀ c ∈ cs, Reads ρ mode reserved c.body) :
    readClauses (cs.flatMap (Clause.parts ρ mode)) = ([], cs.map (Clause.reading ρ mode)) := by
  induction cs with
  | nil => rfl
  | cons c cs ih =>
    obtain ⟨hc, hcs⟩ := List.forall_mem_cons.1 h
    have hreading : ∀ p ∈ (c.reading ρ mode).2, p.isNoneOf clauseWords = true :=
      List.forall_mem_append.2 ⟨c.kind.noneOf_joint, (hc.mono clauseWords_subset).noneOf⟩
    rw [List.flatMap_cons, Clause.parts, List.cons_append, readClauses,
      readClauses_append hreading, ih hcs, List.append_nil, Clause.reading, c.kind.clauseWord?_word]
    rfl

variable (ρ mode) in
/-- The parts of the clause after its word, if that is the given one. -/
def Clause.bodyAfter (w : String) (c : Clause) : Option (List Part) :=
  if c.kind.word = w then some (c.reading ρ mode).2 else none

theorem filterMap_optional {α β : Type} (f : α → Option β) (empty : Bool) (a : α) :
    (if empty then [] else [a]).filterMap f = if empty then [] else (f a).toList := by
  cases empty with
  | true => rfl
  | false => cases h : f a <;> simp [h]

theorem Join.clauses_after_where (j : Join) :
    j.clauses.filterMap (Clause.bodyAfter ρ mode "where") = [] := by
  obtain ⟨kind, table, on, lateral⟩ := j
  cases kind <;> rfl

theorem Join.clauses_after_on (j : Join) :
    j.clauses.filterMap (Clause.bodyAfter ρ mode "on") = [partsOf ρ mode j.onPieces] := by
  obtain ⟨kind, table, on, lateral⟩ := j
  cases kind <;> rfl

variable (ρ mode) in
/-- The columns and all clauses of the select are read as their parts. -/
structure Select.Readings (s : Select) : Prop where
  columns : Reads ρ mode reserved (columnPieces s.columns)
  clauses : ∀ c ∈ s.clauses, Reads ρ mode reserved c.body

namespace Select.Readings

variable {sel : Select}

theorem start (h : sel.Readings ρ mode) :
    Reads ρ mode [] (plain "select " ++ columnPieces sel.columns) :=
  .plain_append rfl rfl (h.columns.mono (List.nil_subset _))

theorem reads (h : sel.Readings ρ mode) : Reads ρ mode [] sel.pieces := by
  rw [sel.pieces_eq_clauses]
  exact (h.start.clauses h.clauses).1

/-- The parts of a select are those of its clauses. -/
theorem partsOf_eq (h : sel.Readings ρ mode) : partsOf ρ mode sel.pieces =
    .symbol (.word "select") :: (partsOf ρ mode (columnPieces sel.columns) ++
      sel.clauses.flatMap (Clause.parts ρ mode)) := by
  have hfits : fits [] "select " = true := rfl
  rw [sel.pieces_eq_clauses, (h.start.clauses h.clauses).2,
    (Reads.plain hfits).partsOf_append h.columns, Reads.partsOf_plain hfits, List.append_assoc]
  rfl

/-- A select is read as its clauses, of which the first has the columns. -/
theorem readClauses_eq (h : sel.Readings ρ mode) : readClauses (partsOf ρ mode sel.pieces) =
    ([], ("select", partsOf ρ mode (columnPieces sel.columns)) ::
      sel.clauses.map (Clause.reading ρ mode)) := by
  have hcolumns := readClauses_append (h.columns.mono clauseWords_subset).noneOf
    (sel.clauses.flatMap (Clause.parts ρ mode))
  rw [readClauses_clauses h.clauses, List.append_nil] at hcolumns
  rw [h.partsOf_eq, readClauses, hcolumns]
  rfl

theorem bodiesAfter_eq (h : sel.Readings ρ mode) {w : String} (hw : w ≠ "select") :
    bodiesAfter w (partsOf ρ mode sel.pieces) =
      sel.clauses.filterMap (Clause.bodyAfter ρ mode w) := by
  rw [bodiesAfter, h.readClauses_eq, List.filterMap_cons, if_neg hw.symm, List.filterMap_map]
  rfl

theorem bodiesAfter_where (h : sel.Readings ρ mode) :
    bodiesAfter "where" (partsOf ρ mode sel.pieces) =
      if sel.condition.isAlways then [] else [partsOf ρ mode sel.condition.pieces] := by
  rw [h.bodiesAfter_eq (by decide)]
  obtain ⟨tables, columns, joins, condition, order, limit, offset⟩ := sel
  simp only [Select.clauses, List.filterMap_append, filterMap_optional, List.filterMap_flatMap,
    Join.clauses_after_where]
  cases limit <;> cases offset <;>
    simp [Clause.bodyAfter, Clause.reading, ClauseKind.word, ClauseKind.joint]

theorem bodiesAfter_on (h : sel.Readings ρ mode) :
    bodiesAfter "on" (partsOf ρ mode sel.pieces) =
      sel.joins.map fun j => partsOf ρ mode j.onPieces := by
  rw [h.bodiesAfter_eq (by decide)]
  obtain ⟨tables, columns, joins, condition, order, limit, offset⟩ := sel
  simp only [Select.clauses, List.filterMap_append, filterMap_optional, List.filterMap_flatMap,
    Join.clauses_after_on, List.map_eq_flatMap]
  cases limit <;> cases offset <;> simp [Clause.bodyAfter, ClauseKind.word]

end Select.Readings

/-! ## Trees -/

theorem forall_mem_optional {α : Type} {P : α → Prop} {empty : Bool} {a : α} (h : P a) :
    ∀ b ∈ (if empty then [] else [a]), P b := by
  cases empty with
  | true => simp
  | false => simpa using h

theorem Reads.distinctText_append (distinct : Bool) (h : Reads ρ mode reserved ps) :
    Reads ρ mode reserved (distinctText distinct ++ ps) := by
  cases distinct with
  | true => exact .plain_append rfl rfl h
  | false => exact h

theorem Reads.namePieces (name : Option String) (columns : List String)
    (h : Reads ρ mode reserved ps) : Reads ρ mode reserved (ps ++ namePieces name columns) := by
  cases name with
  | none => rwa [Sql.namePieces, List.append_nil]
  | some n =>
    have hname : Reads ρ mode reserved (ps ++ (Sql.plain " as " ++ Sql.ident n)) :=
      h.apart rfl rfl rfl (.ident n)
    cases columns with
    | nil => simpa [Sql.namePieces] using hname
    | cons c cs =>
      have hcolumns : Reads ρ mode reserved (Sql.separated ", " ((c :: cs).map Sql.ident)) := by
        refine .listed fun qs hqs => ?_
        obtain ⟨c, -, rfl⟩ := List.mem_map.1 hqs
        exact .ident c
      simpa [Sql.namePieces] using hname.append_parens hcolumns

/-- All rows are counted. -/
theorem Phrase.countAll : Phrase ρ mode (Sql.plain "count(*)") := by
  have hcount : Groups ρ [.word "count"] [.symbol (.word "count")] := .symbol rfl
  have hstar : Groups ρ [.sign '*'] [.symbol (.sign '*')] := .symbol rfl
  have hgroups : Groups ρ (symbolsOf mode (Sql.plain "count(*)")) _ := hcount.append hstar.group
  refine ⟨.intro (.plain (by decide)) hgroups fun p hp => ?_, ?_⟩
  · rcases List.mem_cons.1 hp with rfl | hp
    · rfl
    · obtain rfl := List.mem_singleton.1 hp
      rfl
  · rw [partsOf_eq hgroups]
    exact ne_group_of_mem List.mem_cons_self

mutual

theorem Expr.readings : ∀ e : Expr, (∀ w ∈ e.words, PlainName w) → e.Readings ρ mode
  | .column c, _ => .ofPhrase rfl (.flat (.qualified c.table c.name))
  | .star none, _ => .ofPhrase rfl (.plain rfl)
  | .star (some t), _ =>
    .ofPhrase rfl (.flat ((Flat.ident t).append (.plain (s := ".*") rfl) (.plain_last rfl)))
  | .param v, _ => .ofPhrase rfl (.flat (.param v))
  | .typed v type, h => .ofPhrase rfl (.typed v (h type List.mem_cons_self))
  | .literal v, _ => .ofPhrase rfl (.flat (literal_flat v))
  | .countAll, _ => .ofPhrase rfl .countAll
  | .count distinct e, h => by
    refine .ofPhrase rfl ?_
    rw [Expr.pieces, List.append_assoc (plain _)]
    exact .enclosed (w := "count") rfl rfl rfl (.distinctText_append distinct (e.readings h).reads)
  | .aggregate f e, h => by
    refine .ofPhrase rfl ?_
    rw [Expr.pieces, List.append_assoc, List.append_assoc, ← List.append_assoc (plain "(")]
    exact .call (by cases f <;> rfl) (by cases f <;> rfl) (e.readings h).reads
  | .stringAgg distinct e separator, h => by
    rw [Expr.words, List.forall_mem_append] at h
    have hinside := Reads.distinctText_append distinct
      ((e.readings h.1).reads.apart (s := ", ") rfl rfl rfl (separator.readings h.2).reads)
    refine .ofPhrase rfl ?_
    simpa [Expr.pieces] using Phrase.enclosed (w := "string_agg") rfl rfl rfl hinside
  | .cast e type, h => by
    rw [Expr.words, List.forall_mem_append] at h
    have htype : fits reserved type = true :=
      fits_mono reserved_subset (h.2 type List.mem_cons_self).fits
    have hinside := (e.readings h.1).reads.apart (s := " as ") rfl rfl rfl (.plain htype)
    refine .ofPhrase rfl ?_
    simpa [Expr.pieces] using Phrase.enclosed (w := "cast") rfl rfl rfl hinside
  | .call name args, h => by
    rw [Expr.words, List.forall_mem_cons] at h
    exact .ofPhrase rfl (.call h.1.fits h.1.nonempty (.listed (exprPieces_read args h.2)))
  | .unnest e, h => .ofPhrase rfl (.enclosed (w := "unnest") rfl rfl rfl (e.readings h).reads)
  | .compare op l r, h => by
    rw [Expr.words, List.forall_mem_append] at h
    refine .ofOperand (l.readings h.1) op.operator_text (r.readings h.2).reads
      (.plain_left op.closesApart_text) ?_ (.inl rfl) rfl
    rw [Expr.pieces, List.append_assoc]
  | .isIn _ [], _ => .ofPhrase rfl (.plain rfl)
  | .isIn e (item :: items), h => by
    rw [Expr.words, exprWords, List.forall_mem_append, List.forall_mem_append] at h
    have hitems : ∀ ps ∈ item.pieces :: exprPieces items, Reads ρ mode reserved ps :=
      List.forall_mem_cons.2 ⟨(item.readings h.2.1).reads, exprPieces_read items h.2.2⟩
    refine .ofOperand (s := " in ") (e.readings h.1) ⟨rfl, rfl, rfl⟩ (Reads.listed hitems).parens
      .parens ?_ (.inl rfl) rfl
    rw [Expr.pieces, List.append_assoc]
  | .isNull e, h =>
    .ofOperand (s := " is null") (e.readings h) ⟨rfl, rfl, rfl⟩ .nil .nil rfl (.inl rfl) rfl
  | .isNotNull e, h =>
    .ofOperand (s := " is not null") (e.readings h) ⟨rfl, rfl, rfl⟩ .nil .nil rfl (.inl rfl) rfl
  | .equalsAny value array, h => by
    rw [Expr.words, List.forall_mem_append] at h
    refine .ofOperand (s := " = any") (value.readings h.1) ⟨rfl, rfl, rfl⟩
      (array.readings h.2).reads.parens .parens ?_ (.inl rfl) rfl
    rw [Expr.pieces, List.append_assoc]
  | .hasRows s, h => .ofPhrase rfl (.enclosed (w := "exists ") rfl rfl rfl (s.readings h).reads)
  | .hasNoRows s, h => by
    have hs : Reads ρ mode [] s.pieces := (s.readings h).reads
    refine .ofNegation (.enclosed (w := "not exists ") rfl rfl hs) rfl rfl fun _ => ?_
    have hfits : fits reserved "not exists " = true := rfl
    rw [Expr.pieces, hs.partsOf_enclosed (s := "not exists (") rfl hfits]
    exact ne_group_of_mem List.mem_cons_self
  | .cond c, h => c.readings h
  | .named e name, h => by
    refine .ofOperand (s := " as ") (e.readings h) ⟨rfl, rfl, rfl⟩ (.ident name) (.plain_left rfl)
      ?_ (e.unbracketed_named name) rfl
    rw [Expr.pieces, List.append_assoc]
termination_by structural e => e

theorem exprPieces_read : ∀ es : List Expr, (∀ w ∈ exprWords es, PlainName w) →
    ∀ ps ∈ exprPieces es, Reads ρ mode reserved ps
  | [], _ => by simp [exprPieces]
  | e :: es, h => by
    rw [exprWords, List.forall_mem_append] at h
    exact List.forall_mem_cons.2 ⟨(e.readings h.1).reads, exprPieces_read es h.2⟩
termination_by structural es => es

theorem Cond.readings : ∀ c : Cond, (∀ w ∈ c.words, PlainName w) → (Expr.cond c).Readings ρ mode
  | .and es, h => by
    refine .ofJunction (.separated rfl rfl rfl fun ps hps => ?_) rfl rfl
    exact (exprPieces_read es h ps hps).mono (List.nil_subset _)
  | .or es, h => by
    refine .ofJunction (.separated rfl rfl rfl fun ps hps => ?_) rfl rfl
    exact (exprPieces_read es h ps hps).mono (List.nil_subset _)
  | .not e, h => by
    refine .ofNegation ?_ rfl rfl nofun
    rw [Expr.pieces, Cond.pieces_not]
    exact (Reads.plain (s := "not") rfl).append_parens (e.readings h).unbracketed
  | .single e, h =>
    have he := e.readings h
    { reads := he.reads
      unbracketed := he.reads.mono (List.nil_subset _)
      head := he.head
      ne_group := nofun }
  | .always, _ => .ofPhrase rfl (.plain rfl)
  | .never, _ => .ofPhrase rfl (.plain rfl)
termination_by structural c => c

theorem Select.readings : ∀ s : Select, (∀ w ∈ s.words, PlainName w) → s.Readings ρ mode
  | ⟨tables, columns, joins, condition, order, limit, offset⟩, h => by
    simp only [Select.words, List.forall_mem_append] at h
    obtain ⟨⟨⟨⟨⟨⟨hcolumns, htables⟩, hjoins⟩, hcondition⟩, horder⟩, hlimit⟩, hoffset⟩ := h
    constructor
    · change Reads ρ mode reserved (columnPieces columns)
      unfold columnPieces
      split
      · exact .plain rfl
      · exact .listed (exprPieces_read columns hcolumns)
    · simp only [Select.clauses, List.forall_mem_append]
      refine ⟨⟨⟨⟨⟨forall_mem_optional ?_, joinClauses_read joins hjoins⟩, forall_mem_optional ?_⟩,
        forall_mem_optional ?_⟩, List.forall_mem_map.2 (option_read limit hlimit)⟩,
        List.forall_mem_map.2 (option_read offset hoffset)⟩
      · exact .listed (tablePieces_read tables htables)
      · exact (condition.readings hcondition).reads
      · exact .listed (orderPieces_read order horder)
termination_by structural s => s

theorem option_read : ∀ e : Option Expr, (∀ w ∈ optionWords e, PlainName w) →
    ∀ e' ∈ e.toList, Reads ρ mode reserved e'.pieces
  | none, _ => by simp
  | some e, h => by simpa using (e.readings h).reads
termination_by structural e => e

theorem tablePieces_read : ∀ ts : List Table, (∀ w ∈ tableWords ts, PlainName w) →
    ∀ ps ∈ tablePieces ts, Reads ρ mode reserved ps
  | [], _ => by simp [tablePieces]
  | t :: ts, h => by
    rw [tableWords, List.forall_mem_append] at h
    exact List.forall_mem_cons.2 ⟨t.reads h.1, tablePieces_read ts h.2⟩
termination_by structural ts => ts

theorem Table.reads : ∀ t : Table, (∀ w ∈ t.words, PlainName w) → Reads ρ mode reserved t.pieces
  | ⟨source, name, columns⟩, h => (source.reads h).namePieces name columns
termination_by structural t => t

theorem Source.reads : ∀ s : Source, (∀ w ∈ s.words, PlainName w) → Reads ρ mode reserved s.pieces
  | .table schema name, _ => (Flat.qualified schema name).reads
  | .query s, h => (s.readings h).reads.parens
  | .values rows, h => by
    have hrows : Reads ρ mode reserved (separated ", " (rowPieces rows)) :=
      .listed (rowPieces_read rows h)
    exact (Reads.plain_append (s := "values ") rfl rfl hrows).parens
  | .function schema name args, h =>
    (Flat.qualified schema name).reads.append_parens (.listed (exprPieces_read args h))
  | .expr e, h => (e.readings h).reads
termination_by structural s => s

theorem rowPieces_read : ∀ rows : List (List Expr), (∀ w ∈ rowWords rows, PlainName w) →
    ∀ ps ∈ rowPieces rows, Reads ρ mode reserved ps
  | [], _ => by simp [rowPieces]
  | row :: rows, h => by
    rw [rowWords, List.forall_mem_append] at h
    have hrow : Reads ρ mode reserved (separated ", " (exprPieces row)) :=
      .listed (exprPieces_read row h.1)
    exact List.forall_mem_cons.2 ⟨hrow.parens, rowPieces_read rows h.2⟩
termination_by structural rows => rows

theorem joinClauses_read : ∀ js : List Join, (∀ w ∈ joinWords js, PlainName w) →
    ∀ c ∈ js.flatMap Join.clauses, Reads ρ mode reserved c.body
  | [], _ => by simp
  | j :: js, h => by
    rw [joinWords, List.forall_mem_append] at h
    rw [List.flatMap_cons, List.forall_mem_append]
    exact ⟨j.clauses_read h.1, joinClauses_read js h.2⟩
termination_by structural js => js

theorem Join.clauses_read : ∀ j : Join, (∀ w ∈ j.words, PlainName w) →
    ∀ c ∈ j.clauses, Reads ρ mode reserved c.body
  | ⟨kind, table, on, lateral⟩, h => by
    rw [Join.words, List.forall_mem_append] at h
    have htable : Reads ρ mode reserved ((if lateral then plain "lateral " else []) ++
        table.pieces) := by
      cases lateral with
      | true => exact .plain_append (s := "lateral ") rfl rfl (table.reads h.1)
      | false => exact table.reads h.1
    have hon : Reads ρ mode reserved (if on.isAlways then plain "true" else on.pieces) := by
      split
      · exact .plain rfl
      · exact (on.readings h.2).reads
    simp only [Join.clauses, List.forall_mem_cons]
    exact ⟨htable, hon, by simp⟩
termination_by structural j => j

theorem orderPieces_read : ∀ os : List SortTerm, (∀ w ∈ orderWords os, PlainName w) →
    ∀ ps ∈ orderPieces os, Reads ρ mode reserved ps
  | [], _ => by simp [orderPieces]
  | o :: os, h => by
    rw [orderWords, List.forall_mem_append] at h
    exact List.forall_mem_cons.2 ⟨o.reads h.1, orderPieces_read os h.2⟩
termination_by structural os => os

theorem SortTerm.reads : ∀ o : SortTerm, (∀ w ∈ o.words, PlainName w) →
    Reads ρ mode reserved o.pieces
  | ⟨e, .ascending⟩, h => (e.readings h).reads.append_plain rfl rfl
  | ⟨e, .descending⟩, h => (e.readings h).reads.append_plain rfl rfl
termination_by structural o => o

end

end

end LateralSql.Sql
