/-
  What a select puts into its text besides fixed words: its identifiers, the texts of its literals
  and its parameters.

  `Select.contents` lists them in the order in which they are written, by a walk over the tree that
  knows nothing of words and brackets.  They are the pieces of the statement that are not plain
  text (`Select.contents_pieces`).
-/
import Mathlib.Data.List.Basic
import LateralSql.Sql.Statement

namespace LateralSql.Sql

/-- What a select puts into its text besides fixed words. -/
inductive Content where
  | ident (name : String)
  /-- A text written as a literal. -/
  | text (s : String)
  /-- A parameter, with its type if the place of use does not show it. -/
  | param (v : Value) (type : Option String)
  deriving Repr

/-! ## Values -/

mutual

/-- The texts in a value. An object is written as its JSON text. -/
def texts : Value → List String
  | .string s => [s]
  | .json s => [s]
  | .dateTime t => [t.text]
  | .object members => [(Value.object members).serialized]
  | .list items => textsAll items
  | .null | .boolean _ | .int _ | .decimal _ => []
termination_by structural v => v

/-- The texts in the items of a list. -/
def textsAll : List Value → List String
  | [] => []
  | v :: vs => texts v ++ textsAll vs
termination_by structural vs => vs

end

/-! ## The walk -/

/-- A name with its qualifier before it. -/
def qualifiedContents (qualifier : Option String) (name : String) : List Content :=
  qualifier.toList.map .ident ++ [.ident name]

/-- The names a table is read under; without one its columns have none. -/
def nameContents (name : Option String) (columns : List String) : List Content :=
  match name with
  | none => []
  | some n => .ident n :: columns.map .ident

mutual

/-- The contents of an expression, in the order in which they are written. -/
def Expr.contents : Expr → List Content
  | .column c => qualifiedContents c.table c.name
  | .star t => t.toList.map .ident
  | .param v => [.param v none]
  | .typed v type => [.param v (some type)]
  | .literal v => (texts v).map .text
  | .countAll => []
  | .count _ e => e.contents
  | .aggregate _ e => e.contents
  | .stringAgg _ e separator => e.contents ++ separator.contents
  | .cast e _ => e.contents
  | .call _ args => exprContents args
  | .unnest e => e.contents
  | .compare _ l r => l.contents ++ r.contents
  -- nothing is in an empty list, whatever it is
  | .isIn _ [] => []
  | .isIn e (item :: items) => e.contents ++ (item.contents ++ exprContents items)
  | .isNull e => e.contents
  | .isNotNull e => e.contents
  | .equalsAny value array => value.contents ++ array.contents
  | .hasRows s => s.contents
  | .hasNoRows s => s.contents
  | .cond c => c.contents
  | .named e name => e.contents ++ [.ident name]
termination_by structural e => e

/-- The contents of expressions, one after another. -/
def exprContents : List Expr → List Content
  | [] => []
  | e :: es => e.contents ++ exprContents es
termination_by structural es => es

/-- A negated conjunction or disjunction loses its name. -/
def Cond.contents : Cond → List Content
  | .and es => exprContents es
  | .or es => exprContents es
  | .not (.named (.cond (.and es)) _) => exprContents es
  | .not (.named (.cond (.or es)) _) => exprContents es
  | .not e => e.contents
  | .single e => e.contents
  | .always => []
  | .never => []
termination_by structural c => c

/-- The contents of a select, its columns first. -/
def Select.contents : Select → List Content
  | ⟨tables, columns, joins, condition, order, limit, offset⟩ =>
    exprContents columns ++ tableContents tables ++ joinContents joins ++ condition.contents ++
      orderContents order ++ optionContents limit ++ optionContents offset
termination_by structural s => s

/-- The contents of an expression, if there is one. -/
def optionContents : Option Expr → List Content
  | none => []
  | some e => e.contents
termination_by structural e => e

/-- The contents of tables, one after another. -/
def tableContents : List Table → List Content
  | [] => []
  | t :: ts => t.contents ++ tableContents ts
termination_by structural ts => ts

/-- The contents of a table, and the names it is read under. -/
def Table.contents : Table → List Content
  | ⟨source, name, columns⟩ => source.contents ++ nameContents name columns
termination_by structural t => t

/-- The contents of what a table is read from. -/
def Source.contents : Source → List Content
  | .table schema name => qualifiedContents schema name
  | .query s => s.contents
  | .values rows => rowContents rows
  | .function schema name args => qualifiedContents schema name ++ exprContents args
  | .expr e => e.contents
termination_by structural s => s

/-- The contents of rows of values, one after another. -/
def rowContents : List (List Expr) → List Content
  | [] => []
  | row :: rows => exprContents row ++ rowContents rows
termination_by structural rows => rows

/-- The contents of joins, one after another. -/
def joinContents : List Join → List Content
  | [] => []
  | j :: js => j.contents ++ joinContents js
termination_by structural js => js

/-- The contents of a joined table and its condition. -/
def Join.contents : Join → List Content
  | ⟨_, table, on, _⟩ => table.contents ++ on.contents
termination_by structural j => j

/-- The contents of an order, term by term. -/
def orderContents : List SortTerm → List Content
  | [] => []
  | o :: os => o.contents ++ orderContents os
termination_by structural os => os

/-- The contents of the expression that is sorted by. -/
def SortTerm.contents : SortTerm → List Content
  | ⟨e, _⟩ => e.contents
termination_by structural o => o

end

/-! ## Pieces -/

/-- What a negation writes between its brackets. -/
def Expr.unbracketed : Expr → List Piece
  | .cond (.and es) => separated " and " (exprPieces es)
  | .cond (.or es) => separated " or " (exprPieces es)
  | .named (.cond (.and es)) _ => separated " and " (exprPieces es)
  | .named (.cond (.or es)) _ => separated " or " (exprPieces es)
  | e => e.pieces

theorem Cond.pieces_not (e : Expr) : (Cond.not e).pieces = plain "not" ++ parens e.unbracketed := by
  cases e with
  | cond c => cases c <;> rfl
  | named e name =>
    cases e with
    | cond c => cases c <;> rfl
    | _ => rfl
  | _ => rfl

/-- A negation brackets an expression, or has the brackets of the bare one for its own. -/
theorem Expr.unbracketed_cases (e : Expr) :
    (e.unbracketed = e.pieces ∧ (Cond.not e).contents = e.contents) ∨
      (e.bare.pieces = parens e.unbracketed ∧ (Cond.not e).contents = e.bare.contents) := by
  cases e with
  | cond c =>
    cases c with
    | and es => exact .inr ⟨rfl, rfl⟩
    | or es => exact .inr ⟨rfl, rfl⟩
    | _ => exact .inl ⟨rfl, rfl⟩
  | named e name =>
    cases e with
    | cond c =>
      cases c with
      | and es => exact .inr ⟨rfl, rfl⟩
      | or es => exact .inr ⟨rfl, rfl⟩
      | _ => exact .inl ⟨rfl, rfl⟩
    | _ => exact .inl ⟨rfl, rfl⟩
  | _ => exact .inl ⟨rfl, rfl⟩

/-- What a select yields; without columns, all there are. -/
def columnPieces (columns : List Expr) : List Piece :=
  if columns.isEmpty then plain "*" else separated ", " (exprPieces columns)

/-- A part of a select that is left out if it is empty. -/
def clause (empty : Bool) (word : String) (ps : List Piece) : List Piece :=
  if empty then [] else plain word ++ ps

theorem Select.pieces_eq (tables : List Table) (columns : List Expr) (joins : List Join)
    (condition : Cond) (order : List SortTerm) (limit offset : Option Expr) :
    (Select.mk tables columns joins condition order limit offset).pieces =
      plain "select " ++ columnPieces columns ++
        clause tables.isEmpty " from " (separated ", " (tablePieces tables)) ++
        joinPieces joins ++
        clause condition.isAlways " where " condition.pieces ++
        clause order.isEmpty " order by " (separated ", " (orderPieces order)) ++
        optionPieces " limit " limit ++ optionPieces " offset " offset := by
  simp [Select.pieces.eq_def, columnPieces, clause]

/-! ## Maps over pieces -/

/-- Separated pieces are lists with the separator between them. -/
theorem separated_eq (separator : String) (pss : List (List Piece)) :
    separated separator pss = (plain separator).intercalate pss := by
  fun_induction separated separator pss with
  | case1 => rfl
  | case2 p => simp
  | case3 p pss hne ih => rw [ih, List.intercalate_cons_of_ne_nil hne]

section
variable {α β : Type}

/-- Nothing between the parts leaves the parts. -/
@[simp] theorem intercalate_nil_left (bss : List (List β)) : [].intercalate bss = bss.flatten := by
  induction bss with
  | nil => rfl
  | cons bs bss ih =>
    cases bss with
    | nil => simp
    | cons cs bss => simpa using ih

/-- What is between separators is mapped to what is between those that they become. -/
@[simp] theorem flatMap_intercalate (f : α → List β) (separator : List α) (xss : List (List α)) :
    (separator.intercalate xss).flatMap f =
      (separator.flatMap f).intercalate (xss.map (·.flatMap f)) := by
  induction xss with
  | nil => rfl
  | cons xs xss ih =>
    cases xss with
    | nil => simp
    | cons ys xss => simpa using ih

variable (f : Piece → List β)

@[simp] theorem flatMap_parens (ps : List Piece) :
    (parens ps).flatMap f = (plain "(").flatMap f ++ ps.flatMap f ++ (plain ")").flatMap f := by
  simp [parens]

@[simp] theorem flatMap_distinctText (distinct : Bool) :
    (distinctText distinct).flatMap f = if distinct then (plain "distinct ").flatMap f else [] := by
  cases distinct <;> rfl

@[simp] theorem flatMap_clause (empty : Bool) (word : String) (ps : List Piece) :
    (clause empty word ps).flatMap f =
      if empty then [] else (plain word).flatMap f ++ ps.flatMap f := by
  cases empty <;> simp [clause]

end

attribute [local simp] separated_eq

/-! ## Contents of pieces -/

/-- The identifier or the literal that a token is. -/
def Token.contents : Token → List Content
  | plain _ => []
  | ident name => [.ident name]
  | text s => [.text s]

/-- The identifier, the literal or the parameter that a piece is. -/
def Piece.contents : Piece → List Content
  | token t => t.contents
  | param v type => [.param v type]

@[simp] theorem contents_plain (s : String) : (plain s).flatMap Piece.contents = [] := rfl

@[simp] theorem contents_ident (name : String) :
    (ident name).flatMap Piece.contents = [.ident name] := rfl

@[simp] theorem contents_qualified (qualifier : Option String) (name : String) :
    (qualified qualifier name).flatMap Piece.contents = qualifiedContents qualifier name := by
  cases qualifier <;> simp [qualified, qualifiedContents]

@[simp] theorem contents_namePieces (name : Option String) (columns : List String) :
    (namePieces name columns).flatMap Piece.contents = nameContents name columns := by
  have hcolumns : ((columns.map ident).map (·.flatMap Piece.contents)).flatten =
      columns.map .ident := by
    rw [List.map_map, ← List.flatMap_def, List.map_eq_flatMap]
    rfl
  cases name with
  | none => rfl
  | some n => cases columns <;> simp_all [namePieces, nameContents]

mutual

theorem literal_contents : ∀ v, (literal v).flatMap Token.contents = (texts v).map .text
  | .null | .boolean _ | .int _ | .decimal _ | .string _ | .json _ | .dateTime _ | .object _ => rfl
  | .list items => by
    simp [literal, texts, literals_contents items, Token.contents]
termination_by structural v => v

theorem literals_contents : ∀ vs, (literals vs).flatMap Token.contents = (textsAll vs).map .text
  | [] => rfl
  | v :: vs => by
    simp [literals, textsAll, literal_contents v, furtherLiterals_contents vs]
termination_by structural vs => vs

theorem furtherLiterals_contents :
    ∀ vs, (furtherLiterals vs).flatMap Token.contents = (textsAll vs).map .text
  | [] => rfl
  | v :: vs => by
    simp [furtherLiterals, textsAll, literal_contents v, furtherLiterals_contents vs,
      Token.contents]
termination_by structural vs => vs

end

@[simp] theorem contents_literal (v : Value) :
    ((literal v).map .token).flatMap Piece.contents = (texts v).map .text := by
  rw [← literal_contents, List.flatMap_map]
  rfl

theorem contents_bare {e : Expr} (h : e.pieces.flatMap Piece.contents = e.contents) :
    e.bare.pieces.flatMap Piece.contents = e.bare.contents := by
  cases e with
  | named e name =>
    rw [Expr.pieces, Expr.contents, List.flatMap_append, List.flatMap_append, contents_plain,
      contents_ident, List.append_nil] at h
    exact List.append_cancel_right h
  | _ => exact h

theorem contents_unbracketed {e : Expr} (h : e.pieces.flatMap Piece.contents = e.contents) :
    e.unbracketed.flatMap Piece.contents = (Cond.not e).contents := by
  rcases e.unbracketed_cases with ⟨hpieces, hcontents⟩ | ⟨hpieces, hcontents⟩
  · rw [hpieces, h, hcontents]
  · rw [hcontents, ← contents_bare h, hpieces]
    simp

mutual

theorem Expr.contents_pieces : ∀ e : Expr, e.pieces.flatMap Piece.contents = e.contents
  | .column c => by simp [Expr.pieces, Expr.contents]
  | .star none => rfl
  | .star (some t) => rfl
  | .param v => rfl
  | .typed v type => rfl
  | .literal v => by simp [Expr.pieces, Expr.contents]
  | .countAll => rfl
  | .count _ e => by simp [Expr.pieces, Expr.contents, e.contents_pieces]
  | .aggregate _ e => by simp [Expr.pieces, Expr.contents, e.contents_pieces]
  | .stringAgg _ e separator => by
    simp [Expr.pieces, Expr.contents, e.contents_pieces, separator.contents_pieces]
  | .cast e _ => by simp [Expr.pieces, Expr.contents, e.contents_pieces]
  | .call _ args => by simp [Expr.pieces, Expr.contents, exprContents_pieces args]
  | .unnest e => by simp [Expr.pieces, Expr.contents, e.contents_pieces]
  | .compare _ l r => by simp [Expr.pieces, Expr.contents, l.contents_pieces, r.contents_pieces]
  | .isIn _ [] => rfl
  | .isIn e (item :: items) => by
    simp [Expr.pieces, Expr.contents, e.contents_pieces, item.contents_pieces,
      exprContents_pieces items]
  | .isNull e => by simp [Expr.pieces, Expr.contents, e.contents_pieces]
  | .isNotNull e => by simp [Expr.pieces, Expr.contents, e.contents_pieces]
  | .equalsAny value array => by
    simp [Expr.pieces, Expr.contents, value.contents_pieces, array.contents_pieces]
  | .hasRows s => by simp [Expr.pieces, Expr.contents, s.contents_pieces]
  | .hasNoRows s => by simp [Expr.pieces, Expr.contents, s.contents_pieces]
  | .cond c => by simp [Expr.pieces, Expr.contents, c.contents_pieces]
  | .named e name => by simp [Expr.pieces, Expr.contents, e.contents_pieces]
termination_by structural e => e

theorem exprContents_pieces :
    ∀ es : List Expr, ((exprPieces es).map (·.flatMap Piece.contents)).flatten = exprContents es
  | [] => rfl
  | e :: es => by simp [exprPieces, exprContents, e.contents_pieces, exprContents_pieces es]
termination_by structural es => es

theorem Cond.contents_pieces : ∀ c : Cond, c.pieces.flatMap Piece.contents = c.contents
  | .and es => by simp [Cond.pieces, Cond.contents, exprContents_pieces es]
  | .or es => by simp [Cond.pieces, Cond.contents, exprContents_pieces es]
  | .not e => by
    simp [Cond.pieces_not, contents_unbracketed e.contents_pieces]
  | .single e => by simp [Cond.pieces, Cond.contents, e.contents_pieces]
  | .always => rfl
  | .never => rfl
termination_by structural c => c

theorem Select.contents_pieces : ∀ s : Select, s.pieces.flatMap Piece.contents = s.contents
  | ⟨tables, columns, joins, condition, order, limit, offset⟩ => by
    have hcolumns := exprContents_pieces columns
    have htables := tableContents_pieces tables
    have hjoins := joinContents_pieces joins
    have hcondition := condition.contents_pieces
    have horder := orderContents_pieces order
    have hc : (columnPieces columns).flatMap Piece.contents = exprContents columns := by
      cases columns with
      | nil => rfl
      | cons => simpa [columnPieces] using hcolumns
    have ht : (clause tables.isEmpty " from " (separated ", " (tablePieces tables))).flatMap
        Piece.contents = tableContents tables := by
      cases tables with
      | nil => rfl
      | cons => simpa using htables
    have hw : (clause condition.isAlways " where " condition.pieces).flatMap Piece.contents =
        condition.contents := by
      cases condition with
      | always => rfl
      | _ => exact hcondition
    have ho : (clause order.isEmpty " order by " (separated ", " (orderPieces order))).flatMap
        Piece.contents = orderContents order := by
      cases order with
      | nil => rfl
      | cons => simpa using horder
    rw [Select.pieces_eq, Select.contents]
    simp only [List.flatMap_append, contents_plain, List.nil_append, hc, ht, hjoins, hw, ho,
      optionContents_pieces " limit " limit, optionContents_pieces " offset " offset]
termination_by structural s => s

theorem optionContents_pieces (word : String) :
    ∀ e : Option Expr, (optionPieces word e).flatMap Piece.contents = optionContents e
  | none => rfl
  | some e => by simp [optionPieces, optionContents, e.contents_pieces]
termination_by structural e => e

theorem tableContents_pieces :
    ∀ ts : List Table, ((tablePieces ts).map (·.flatMap Piece.contents)).flatten = tableContents ts
  | [] => rfl
  | t :: ts => by simp [tablePieces, tableContents, t.contents_pieces, tableContents_pieces ts]
termination_by structural ts => ts

theorem Table.contents_pieces : ∀ t : Table, t.pieces.flatMap Piece.contents = t.contents
  | ⟨source, name, columns⟩ => by simp [Table.pieces, Table.contents, source.contents_pieces]
termination_by structural t => t

theorem Source.contents_pieces : ∀ s : Source, s.pieces.flatMap Piece.contents = s.contents
  | .table schema name => by simp [Source.pieces, Source.contents]
  | .query s => by simp [Source.pieces, Source.contents, s.contents_pieces]
  | .values rows => by simp [Source.pieces, Source.contents, rowContents_pieces rows]
  | .function schema name args => by
    simp [Source.pieces, Source.contents, exprContents_pieces args]
  | .expr e => by simp [Source.pieces, Source.contents, e.contents_pieces]
termination_by structural s => s

theorem rowContents_pieces :
    ∀ rows : List (List Expr),
      ((rowPieces rows).map (·.flatMap Piece.contents)).flatten = rowContents rows
  | [] => rfl
  | row :: rows => by
    simp [rowPieces, rowContents, exprContents_pieces row, rowContents_pieces rows]
termination_by structural rows => rows

theorem joinContents_pieces : ∀ js : List Join,
    (joinPieces js).flatMap Piece.contents = joinContents js
  | [] => rfl
  | j :: js => by simp [joinPieces, joinContents, j.contents_pieces, joinContents_pieces js]
termination_by structural js => js

theorem Join.contents_pieces : ∀ j : Join, j.pieces.flatMap Piece.contents = j.contents
  | ⟨kind, table, on, lateral⟩ => by
    have htable := table.contents_pieces
    have hon := on.contents_pieces
    have ho : (if on.isAlways then plain "true" else on.pieces).flatMap Piece.contents =
        on.contents := by
      cases on with
      | always => rfl
      | _ => exact hon
    have hl : (if lateral then plain "lateral " else []).flatMap Piece.contents = [] := by
      cases lateral <;> rfl
    simp [Join.pieces, Join.contents, htable, ho, hl]
termination_by structural j => j

theorem orderContents_pieces :
    ∀ os : List SortTerm,
      ((orderPieces os).map (·.flatMap Piece.contents)).flatten = orderContents os
  | [] => rfl
  | o :: os => by simp [orderPieces, orderContents, o.contents_pieces, orderContents_pieces os]
termination_by structural os => os

theorem SortTerm.contents_pieces : ∀ o : SortTerm, o.pieces.flatMap Piece.contents = o.contents
  | ⟨e, .ascending⟩ => by simp [SortTerm.pieces, SortTerm.contents, e.contents_pieces]
  | ⟨e, .descending⟩ => by simp [SortTerm.pieces, SortTerm.contents, e.contents_pieces]
termination_by structural o => o

end

end LateralSql.Sql
