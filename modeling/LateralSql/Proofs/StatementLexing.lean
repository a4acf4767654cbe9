/-
  What is written between quotes stays there.

  The quoted tokens of a statement are the identifiers and texts that its select puts into it, and
  the text outside of them is that of the blank select (`Select.blank`), in which all identifiers
  and texts are empty.
-/
import LateralSql.Proofs.Rendering
import LateralSql.Proofs.RewrittenSelects

namespace LateralSql.Sql

/-! ## Blank selects -/

mutual

/-- The value with all texts empty. -/
def blankValue : Value → Value
  | .string _ | .json _ | .dateTime _ | .object _ => .string ""
  | .list items => .list (blankValues items)
  | .null => .null
  | .boolean b => .boolean b
  | .int n => .int n
  | .decimal d => .decimal d
termination_by structural v => v

/-- The values with all texts empty. -/
def blankValues : List Value → List Value
  | [] => []
  | v :: vs => blankValue v :: blankValues vs
termination_by structural vs => vs

end

/-- The token without the text between its quotes. -/
def Token.blank : Token → Token := Token.rewrite (fun _ => "") fun _ => ""

mutual

theorem literal_blank : ∀ v, literal (blankValue v) = (literal v).map Token.blank
  | .null | .boolean _ | .int _ | .decimal _ | .string _ | .json _ | .dateTime _ | .object _ => rfl
  | .list items => by
    simp [literal, blankValue, literals_blank items, Token.blank, Token.rewrite]
termination_by structural v => v

theorem literals_blank : ∀ vs, literals (blankValues vs) = (literals vs).map Token.blank
  | [] => rfl
  | v :: vs => by simp [literals, blankValues, literal_blank v, furtherLiterals_blank vs]
termination_by structural vs => vs

theorem furtherLiterals_blank :
    ∀ vs, furtherLiterals (blankValues vs) = (furtherLiterals vs).map Token.blank
  | [] => rfl
  | v :: vs => by
    simp [furtherLiterals, blankValues, literal_blank v, furtherLiterals_blank vs, Token.blank,
      Token.rewrite]
termination_by structural vs => vs

end

/-- Makes all identifiers and texts empty. -/
def blanking : Rewriting where
  name _ := ""
  text _ := ""
  param := blankValue
  literal := blankValue
  literal_tokens := literal_blank

/-- The select with all identifiers and texts empty. -/
def Select.blank (s : Select) : Select := s.rewrite blanking

/-! ## What is read back -/

/-- The quoted tokens that a content is written as. -/
def Content.lexemes : ParamMode → Content → List Lexeme
  | _, .ident name => [.ident name]
  | _, .text s => [.string s]
  | .inline, .param v _ => (texts v).map .string
  | .bind, .param _ _ => []

theorem Token.filter_lexemes (t : Token) (mode : ParamMode) :
    t.lexemes.filter Lexeme.isQuoted = t.contents.flatMap (Content.lexemes mode) := by
  cases t with
  | plain s => simp [Token.lexemes, Token.contents, Lexeme.isQuoted]
  | _ => rfl

theorem filter_flatMap_lexemes (ts : List Token) (mode : ParamMode) :
    (ts.flatMap Token.lexemes).filter Lexeme.isQuoted =
      (ts.flatMap Token.contents).flatMap (Content.lexemes mode) := by
  rw [List.filter_flatMap, List.flatMap_assoc]
  exact List.flatMap_congr fun t _ => t.filter_lexemes mode

/-- A placeholder is no quoted token; a literal has those of its texts. -/
theorem filter_lexemes_param (mode : ParamMode) (n : Nat) (v : Value) (type : Option String) :
    ((tokens mode n [.param v type]).flatMap Token.lexemes).filter Lexeme.isQuoted =
      Content.lexemes mode (.param v type) := by
  rw [filter_flatMap_lexemes _ mode]
  cases mode with
  | inline =>
    rw [tokens, inlineTokens, List.flatMap_singleton, literal_contents, List.flatMap_map,
      Content.lexemes, List.map_eq_flatMap]
    rfl
  | bind => cases type <;> rfl

/-- The quoted tokens of pieces are their contents. -/
theorem filter_lexemes_tokens (mode : ParamMode) (n : Nat) (ps : List Piece) :
    ((tokens mode n ps).flatMap Token.lexemes).filter Lexeme.isQuoted =
      (ps.flatMap Piece.contents).flatMap (Content.lexemes mode) := by
  induction ps generalizing n with
  | nil => cases mode <;> rfl
  | cons p ps ih =>
    rw [← List.singleton_append, tokens_append, List.flatMap_append, List.flatMap_append,
      List.filter_append, List.flatMap_append, ih]
    congr 1
    cases p with
    | token t =>
      rw [show [Piece.token t] = [t].map .token from rfl, tokens_map_token,
        filter_flatMap_lexemes _ mode]
      rfl
    | param v type =>
      rw [filter_lexemes_param, List.flatMap_singleton, Piece.contents, List.flatMap_singleton]

theorem tokens_blank (mode : ParamMode) (n : Nat) (ps : List Piece) :
    tokens mode n (ps.flatMap blanking.piece) = (tokens mode n ps).map Token.blank := by
  induction ps generalizing n with
  | nil => cases mode <;> rfl
  | cons p ps ih =>
    cases mode with
    | inline =>
      cases p with
      | token t => exact congrArg (t.blank :: ·) (ih n)
      | param v type =>
        change literal (blankValue v) ++ tokens .inline n (ps.flatMap blanking.piece) = _
        rw [ih, literal_blank, ← List.map_append]
        rfl
    | bind =>
      cases p with
      | token t => exact congrArg (t.blank :: ·) (ih n)
      | param v type =>
        change placeholder n type ++ tokens .bind (n + 1) (ps.flatMap blanking.piece) =
          (placeholder n type ++ tokens .bind (n + 1) ps).map Token.blank
        rw [ih, List.map_append]
        cases type <;> rfl

theorem Token.outside_blank (t : Token) :
    t.blank.lexemes.filterMap Lexeme.outside? = t.lexemes.filterMap Lexeme.outside? := by
  cases t <;> rfl

/-- What is outside of quotes does not show what is inside. -/
theorem outside_of_blank {ts us : List Token} (h : ts.map Token.blank = us.map Token.blank) :
    (ts.flatMap Token.lexemes).filterMap Lexeme.outside? =
      (us.flatMap Token.lexemes).filterMap Lexeme.outside? := by
  have houtside (ts : List Token) : (ts.flatMap Token.lexemes).filterMap Lexeme.outside? =
      (ts.map Token.blank).flatMap fun t => t.lexemes.filterMap Lexeme.outside? := by
    rw [List.filterMap_flatMap, List.flatMap_map]
    exact List.flatMap_congr fun t _ => t.outside_blank.symm
  rw [houtside, houtside, h]

theorem Select.lex_statement {s : Select} (h : ∀ w ∈ s.words, QuoteFree w) (mode : ParamMode) :
    lex (s.statement mode).text.toList =
      some ((tokens mode 1 s.pieces).flatMap Token.lexemes) := by
  rw [Select.statement_text]
  exact s.renders h mode 1

/-- **What is written between quotes stays there.**  The quoted tokens of a statement are the
    identifiers and texts of its select, in order and with exactly their contents.  The text outside
    of them is the same for all selects that differ in identifiers and texts only. -/
theorem statement_lexes (s : Select) (mode : ParamMode) (h : ∀ w ∈ s.words, QuoteFree w) :
    ∃ out, lex (s.statement mode).text.toList = some out ∧
      out.filter Lexeme.isQuoted = s.contents.flatMap (Content.lexemes mode) ∧
      ∀ s' : Select, (∀ w ∈ s'.words, QuoteFree w) → s'.blank = s.blank →
        ∃ out', lex (s'.statement mode).text.toList = some out' ∧
          out'.filterMap Lexeme.outside? = out.filterMap Lexeme.outside? := by
  refine ⟨_, Select.lex_statement h mode, ?_, fun s' h' hblank =>
    ⟨_, Select.lex_statement h' mode, ?_⟩⟩
  · rw [filter_lexemes_tokens, s.contents_pieces]
  · refine outside_of_blank ?_
    rw [← tokens_blank, ← tokens_blank, ← Select.pieces_rewrite, ← Select.pieces_rewrite]
    exact congrArg (fun t => tokens mode 1 (Select.pieces t)) hblank

/-- A select for the rows of a table in which some column is one of some values. -/
def lookupSelect (table column : String) (values : List Value) : Select where
  tables := [{ source := .table none table, name := some column }]
  columns := [.call "lower" [.column (col table column)]]
  condition := .single (.isIn (.column { name := column }) [.param (.list values), .literal .null])

/-- Names and values that would end their tokens if they were written as they are. -/
theorem statement_lexes_hostile :
    ∃ out, lex ((lookupSelect "a\"; --" "\"\"" [.string "'", .object [("'", .null)]]).statement
        .inline).text.toList = some out ∧
      out.filter Lexeme.isQuoted = [.ident "a\"; --", .ident "\"\"", .ident "a\"; --",
        .ident "\"\"", .ident "\"\"", .string "'", .string "\x7b\"'\":null\x7d"] ∧
      ∃ out', lex ((lookupSelect "t" "c" [.string "", .json "1"]).statement
          .inline).text.toList = some out' ∧
        out'.filterMap Lexeme.outside? = out.filterMap Lexeme.outside? := by
  obtain ⟨out, hlex, hquoted, houtside⟩ := statement_lexes
    (lookupSelect "a\"; --" "\"\"" [.string "'", .object [("'", .null)]]) .inline (by decide)
  exact ⟨out, hlex, hquoted,
    houtside (lookupSelect "t" "c" [.string "", .json "1"]) (by decide) rfl⟩

end LateralSql.Sql
