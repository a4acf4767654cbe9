/-
  The text of a statement is read back as what was written into it.

  Every part of a select is written so that its text is read back token by token (`Renders`),
  provided that the names of functions and types (`Select.words`), which are written as they are,
  have no quotes.  A part that is put right after another (`Follows`) starts with a fixed word, so
  that no two quoted tokens meet.
-/
import LateralSql.Proofs.Contents
import LateralSql.Proofs.Lexing

namespace LateralSql.Sql

/-! ## Names that are written as they are -/

mutual

/-- The names of functions and types. -/
def Expr.words : Expr → List String
  | .column _ | .star _ | .param _ | .literal _ | .countAll => []
  | .typed _ type => [type]
  | .count _ e => e.words
  | .aggregate _ e => e.words
  | .stringAgg _ e separator => e.words ++ separator.words
  | .cast e type => e.words ++ [type]
  | .call name args => name :: exprWords args
  | .unnest e => e.words
  | .compare _ l r => l.words ++ r.words
  | .isIn e items => e.words ++ exprWords items
  | .isNull e => e.words
  | .isNotNull e => e.words
  | .equalsAny value array => value.words ++ array.words
  | .hasRows s => s.words
  | .hasNoRows s => s.words
  | .cond c => c.words
  | .named e _ => e.words
termination_by structural e => e

/-- The names in expressions. -/
def exprWords : List Expr → List String
  | [] => []
  | e :: es => e.words ++ exprWords es
termination_by structural es => es

/-- The names in a condition. -/
def Cond.words : Cond → List String
  | .and es => exprWords es
  | .or es => exprWords es
  | .not e => e.words
  | .single e => e.words
  | .always | .never => []
termination_by structural c => c

/-- The names in a select. -/
def Select.words : Select → List String
  | ⟨tables, columns, joins, condition, order, limit, offset⟩ =>
    exprWords columns ++ tableWords tables ++ joinWords joins ++ condition.words ++
      orderWords order ++ optionWords limit ++ optionWords offset
termination_by structural s => s

/-- The names in an expression, if there is one. -/
def optionWords : Option Expr → List String
  | none => []
  | some e => e.words
termination_by structural e => e

/-- The names in tables. -/
def tableWords : List Table → List String
  | [] => []
  | t :: ts => t.words ++ tableWords ts
termination_by structural ts => ts

/-- The names in a table. -/
def Table.words : Table → List String
  | ⟨source, _, _⟩ => source.words
termination_by structural t => t

/-- The names in what a table is read from.  That of a function of the database is quoted. -/
def Source.words : Source → List String
  | .table _ _ => []
  | .query s => s.words
  | .values rows => rowWords rows
  | .function _ _ args => exprWords args
  | .expr e => e.words
termination_by structural s => s

/-- The names in rows of values. -/
def rowWords : List (List Expr) → List String
  | [] => []
  | row :: rows => exprWords row ++ rowWords rows
termination_by structural rows => rows

/-- The names in joins. -/
def joinWords : List Join → List String
  | [] => []
  | j :: js => j.words ++ joinWords js
termination_by structural js => js

/-- The names in a joined table and its condition. -/
def Join.words : Join → List String
  | ⟨_, table, on, _⟩ => table.words ++ on.words
termination_by structural j => j

/-- The names in an order. -/
def orderWords : List SortTerm → List String
  | [] => []
  | o :: os => o.words ++ orderWords os
termination_by structural os => os

/-- The names in what is sorted by. -/
def SortTerm.words : SortTerm → List String
  | ⟨e, _⟩ => e.words
termination_by structural o => o

end

/-! ## Pieces in both modes -/

/-- The tokens of pieces, with placeholders numbered from `n` if there are any. -/
def tokens : ParamMode → Nat → List Piece → List Token
  | .inline, _, ps => inlineTokens ps
  | .bind, n, ps => bindTokens n ps

theorem Select.statement_text (s : Select) (mode : ParamMode) :
    (s.statement mode).text = writeAll (tokens mode 1 s.pieces) := by
  cases mode <;> rfl

theorem bindTokens_append (n : Nat) (ps qs : List Piece) :
    bindTokens n (ps ++ qs) = bindTokens n ps ++ bindTokens (n + (params ps).length) qs := by
  induction ps generalizing n with
  | nil => rfl
  | cons p ps ih =>
    cases p with
    | token t => simp [bindTokens, ih, params]
    | param v type => simp [bindTokens, ih, params, Nat.add_assoc, Nat.add_comm 1]

theorem tokens_append (mode : ParamMode) (n : Nat) (ps qs : List Piece) :
    tokens mode n (ps ++ qs) = tokens mode n ps ++ tokens mode (n + (params ps).length) qs := by
  cases mode with
  | inline => exact List.flatMap_append
  | bind => exact bindTokens_append n ps qs

theorem tokens_map_token (mode : ParamMode) (n : Nat) (ts : List Token) :
    tokens mode n (ts.map .token) = ts := by
  cases mode with
  | inline => simp [tokens, inlineTokens, List.flatMap_map]
  | bind =>
    change bindTokens n (ts.map .token) = ts
    induction ts with
    | nil => rfl
    | cons t ts ih => rw [List.map_cons, bindTokens, ih]

/-- Whatever the mode, the text of the pieces is read back as their tokens. -/
def Renders (ps : List Piece) : Prop := ∀ mode n, Readable (tokens mode n ps)

/-- The pieces may follow any others. -/
def Follows (qs : List Piece) : Prop := ∀ ps, Renders ps → Renders (ps ++ qs)

namespace Renders

variable {ps qs : List Piece} {s : String}

theorem tokens {ts : List Token} (h : Readable ts) : Renders (ts.map .token) := by
  intro mode n
  rwa [tokens_map_token]

theorem nil : Renders [] := @tokens [] .nil

theorem ident (name : String) : Renders (ident name) := @tokens [.ident name] (.ident name)

theorem literal (v : Value) : Renders ((literal v).map .token) := tokens (literal_readable v)

/-- A parameter is a literal or a placeholder. -/
theorem param (v : Value) {type : Option String} (h : ∀ t ∈ type, QuoteFree t) :
    Renders [.param v type] := by
  intro mode n
  have hn : QuoteFree ("$" ++ toString n) := .append (by decide) (Numeral.nat n).quoteFree
  cases mode with
  | inline =>
    rw [Sql.tokens, inlineTokens, List.flatMap_singleton]
    exact literal_readable v
  | bind =>
    rw [Sql.tokens, bindTokens, bindTokens, List.append_nil]
    cases type with
    | none => exact .plain hn
    | some t =>
      have ht : QuoteFree (" as " ++ t ++ ")") :=
        .append (.append (by decide) (h t rfl)) (by decide)
      exact .plain_cons (by decide) (.plain_cons hn (.plain ht))

theorem plain_append (hs : QuoteFree s) (h : Renders ps) : Renders (plain s ++ ps) := by
  intro mode n
  rw [tokens_append, show plain s = [Token.plain s].map .token from rfl, tokens_map_token]
  exact (h mode _).plain_cons hs

theorem plain (hs : QuoteFree s) : Renders (plain s) := plain_append hs nil

/-- Two parts may stand on either side of a fixed text. -/
theorem apart (hp : Renders ps) (hs : Separates s) (hq : Renders qs) :
    Renders (ps ++ (Sql.plain s ++ qs)) := by
  intro mode n
  rw [tokens_append, tokens_append, show Sql.plain s = [Token.plain s].map .token from rfl,
    tokens_map_token]
  exact (hp mode n).apart hs (hq mode _)

theorem append_plain (hp : Renders ps) (hs : Separates s) : Renders (ps ++ Sql.plain s) := by
  simpa only [List.append_nil] using hp.apart hs nil

theorem parens (h : Renders ps) : Renders (parens ps) := by
  rw [Sql.parens, List.append_assoc]
  exact plain_append (by decide) (h.append_plain (by decide))

theorem separated (hs : Separates s) {pss : List (List Piece)}
    (h : ∀ ps ∈ pss, Renders ps) : Renders (separated s pss) := by
  fun_induction Sql.separated s pss with
  | case1 => exact nil
  | case2 p => exact h p List.mem_cons_self
  | case3 p pss _ ih =>
    rw [List.forall_mem_cons] at h
    rw [List.append_assoc]
    exact h.1.apart hs (ih h.2)

theorem qualified (qualifier : Option String) (name : String) :
    Renders (qualified qualifier name) := by
  cases qualifier with
  | none => exact ident name
  | some q =>
    rw [Sql.qualified, List.append_assoc]
    exact (ident q).apart (by decide) (ident name)

theorem distinctText_append (distinct : Bool) (h : Renders ps) :
    Renders (distinctText distinct ++ ps) := by
  cases distinct with
  | true => exact plain_append (by decide) h
  | false => exact h

end Renders

namespace Follows

variable {ps qs : List Piece} {s : String}

theorem nil : Follows [] := fun ps h => by rwa [List.append_nil]

theorem plain_append (hs : Separates s) (h : Renders qs) : Follows (plain s ++ qs) :=
  fun _ hp => hp.apart hs h

theorem append (hp : Follows ps) (hq : Follows qs) : Follows (ps ++ qs) := by
  intro rs hr
  rw [← List.append_assoc]
  exact hq _ (hp rs hr)

theorem parens (h : Renders ps) : Follows (parens ps) := by
  rw [Sql.parens, List.append_assoc]
  exact plain_append (by decide) (h.append_plain (by decide))

theorem clause {empty : Bool} (hs : Separates s) (h : Renders ps) :
    Follows (clause empty s ps) := by
  cases empty with
  | true => exact nil
  | false => exact plain_append hs h

theorem namePieces (name : Option String) (columns : List String) :
    Follows (namePieces name columns) := by
  cases name with
  | none => exact nil
  | some n =>
    refine (plain_append (by decide) (.ident n)).append ?_
    cases columns with
    | nil => exact nil
    | cons c cs =>
      refine parens (.separated (by decide) fun ps hps => ?_)
      obtain ⟨c, -, rfl⟩ := List.mem_map.1 hps
      exact .ident c

end Follows

/-! ## Trees -/

theorem Comparison.separates_text (op : Comparison) : Separates op.text := by
  cases op <;> decide

theorem JoinKind.separates_text (kind : JoinKind) : Separates kind.text := by
  cases kind <;> decide

theorem NumericAggregate.quoteFree_text (f : NumericAggregate) : QuoteFree f.text := by
  cases f <;> decide

theorem Renders.not {e : Expr} (h : Renders e.pieces) (hbare : Renders e.bare.pieces) :
    Renders (Cond.not e).pieces := by
  rw [Cond.pieces_not]
  refine plain_append (by decide) ?_
  rcases e.unbracketed_cases with ⟨hpieces, -⟩ | ⟨hpieces, -⟩
  · rw [hpieces]
    exact h.parens
  · rwa [← hpieces]

mutual

/-- A named expression may lose its name, so it renders with and without it. -/
theorem Expr.renders : ∀ e : Expr, (∀ w ∈ e.words, QuoteFree w) →
    Renders e.pieces ∧ Renders e.bare.pieces
  | .column c, _ => and_self_iff.2 (.qualified c.table c.name)
  | .star none, _ => and_self_iff.2 (.plain (by decide))
  | .star (some t), _ => and_self_iff.2 ((Renders.ident t).append_plain (by decide))
  | .param v, _ => and_self_iff.2 (.param v (by simp))
  | .typed v type, h => and_self_iff.2 (.param v (by simpa [Expr.words] using h))
  | .literal v, _ => and_self_iff.2 (.literal v)
  | .countAll, _ => and_self_iff.2 (.plain (by decide))
  | .count distinct e, h => by
    refine and_self_iff.2 ?_
    rw [Expr.pieces, List.append_assoc, List.append_assoc]
    exact .plain_append (by decide)
      (.distinctText_append distinct ((e.renders h).1.append_plain (by decide)))
  | .aggregate f e, h => by
    refine and_self_iff.2 ?_
    rw [Expr.pieces, List.append_assoc, List.append_assoc]
    exact .plain_append f.quoteFree_text (.plain_append (by decide)
      ((e.renders h).1.append_plain (by decide)))
  | .stringAgg distinct e separator, h => by
    rw [Expr.words, List.forall_mem_append] at h
    refine and_self_iff.2 ?_
    simp only [Expr.pieces, List.append_assoc]
    exact .plain_append (by decide) (.distinctText_append distinct
      ((e.renders h.1).1.apart (by decide)
        ((separator.renders h.2).1.append_plain (by decide))))
  | .cast e type, h => by
    rw [Expr.words, List.forall_mem_append] at h
    have htype : QuoteFree type := h.2 type List.mem_cons_self
    refine and_self_iff.2 ?_
    simp only [Expr.pieces, List.append_assoc]
    exact .plain_append (by decide) ((e.renders h.1).1.apart (by decide)
      (.plain_append htype (.plain (by decide))))
  | .call name args, h => by
    rw [Expr.words, List.forall_mem_cons] at h
    exact and_self_iff.2 (.plain_append h.1
      (.parens (.separated (by decide) (exprPieces_render args h.2))))
  | .unnest e, h => by
    refine and_self_iff.2 ?_
    rw [Expr.pieces, List.append_assoc]
    exact .plain_append (by decide) ((e.renders h).1.append_plain (by decide))
  | .compare op l r, h => by
    rw [Expr.words, List.forall_mem_append] at h
    refine and_self_iff.2 ?_
    rw [Expr.pieces, List.append_assoc]
    exact (l.renders h.1).1.apart op.separates_text (r.renders h.2).1
  | .isIn _ [], _ => and_self_iff.2 (.plain (by decide))
  | .isIn e (item :: items), h => by
    rw [Expr.words, exprWords, List.forall_mem_append, List.forall_mem_append] at h
    have hitems : ∀ ps ∈ item.pieces :: exprPieces items, Renders ps :=
      List.forall_mem_cons.2 ⟨(item.renders h.2.1).1, exprPieces_render items h.2.2⟩
    refine and_self_iff.2 ?_
    rw [Expr.pieces, List.append_assoc]
    exact (e.renders h.1).1.apart (by decide)
      (.parens (.separated (by decide) hitems))
  | .isNull e, h => and_self_iff.2 ((e.renders h).1.append_plain (by decide))
  | .isNotNull e, h => and_self_iff.2 ((e.renders h).1.append_plain (by decide))
  | .equalsAny value array, h => by
    rw [Expr.words, List.forall_mem_append] at h
    refine and_self_iff.2 ?_
    rw [Expr.pieces, List.append_assoc]
    exact (value.renders h.1).1.apart (by decide) (array.renders h.2).1.parens
  | .hasRows s, h => by
    refine and_self_iff.2 ?_
    rw [Expr.pieces, List.append_assoc]
    exact .plain_append (by decide) ((s.renders h).append_plain (by decide))
  | .hasNoRows s, h => by
    refine and_self_iff.2 ?_
    rw [Expr.pieces, List.append_assoc]
    exact .plain_append (by decide) ((s.renders h).append_plain (by decide))
  | .cond c, h => and_self_iff.2 (c.renders h)
  | .named e name, h => by
    refine ⟨?_, (e.renders h).1⟩
    rw [Expr.pieces, List.append_assoc]
    exact (e.renders h).1.apart (by decide) (.ident name)
termination_by structural e => e

theorem exprPieces_render : ∀ es : List Expr, (∀ w ∈ exprWords es, QuoteFree w) →
    ∀ ps ∈ exprPieces es, Renders ps
  | [], _ => by simp [exprPieces]
  | e :: es, h => by
    rw [exprWords, List.forall_mem_append] at h
    exact List.forall_mem_cons.2 ⟨(e.renders h.1).1, exprPieces_render es h.2⟩
termination_by structural es => es

theorem Cond.renders : ∀ c : Cond, (∀ w ∈ c.words, QuoteFree w) → Renders c.pieces
  | .and es, h => .parens (.separated (by decide) (exprPieces_render es h))
  | .or es, h => .parens (.separated (by decide) (exprPieces_render es h))
  | .not e, h => .not (e.renders h).1 (e.renders h).2
  | .single e, h => (e.renders h).1
  | .always, _ => .plain (by decide)
  | .never, _ => .plain (by decide)
termination_by structural c => c

theorem Select.renders : ∀ s : Select, (∀ w ∈ s.words, QuoteFree w) → Renders s.pieces
  | ⟨tables, columns, joins, condition, order, limit, offset⟩, h => by
    simp only [Select.words, List.forall_mem_append] at h
    obtain ⟨⟨⟨⟨⟨⟨hcolumns, htables⟩, hjoins⟩, hcondition⟩, horder⟩, hlimit⟩, hoffset⟩ := h
    have hc : Renders (columnPieces columns) := by
      unfold columnPieces
      split
      · exact .plain (by decide)
      · exact .separated (by decide) (exprPieces_render columns hcolumns)
    have ht : Renders (separated ", " (tablePieces tables)) :=
      .separated (by decide) (tablePieces_render tables htables)
    have ho : Renders (separated ", " (orderPieces order)) :=
      .separated (by decide) (orderPieces_render order horder)
    rw [Select.pieces_eq]
    refine optionPieces_follow (by decide) offset hoffset _
      (optionPieces_follow (by decide) limit hlimit _ (Follows.clause (by decide) ho _
      (Follows.clause (by decide) (condition.renders hcondition) _
      (joinPieces_follow joins hjoins _ (Follows.clause (by decide) ht _ ?_)))))
    exact .plain_append (by decide) hc
termination_by structural s => s

theorem optionPieces_follow {word : String} (hword : Separates word) :
    ∀ e : Option Expr, (∀ w ∈ optionWords e, QuoteFree w) → Follows (optionPieces word e)
  | none, _ => .nil
  | some e, h => .plain_append hword (e.renders h).1
termination_by structural e => e

theorem tablePieces_render : ∀ ts : List Table, (∀ w ∈ tableWords ts, QuoteFree w) →
    ∀ ps ∈ tablePieces ts, Renders ps
  | [], _ => by simp [tablePieces]
  | t :: ts, h => by
    rw [tableWords, List.forall_mem_append] at h
    exact List.forall_mem_cons.2 ⟨t.renders h.1, tablePieces_render ts h.2⟩
termination_by structural ts => ts

theorem Table.renders : ∀ t : Table, (∀ w ∈ t.words, QuoteFree w) → Renders t.pieces
  | ⟨source, name, columns⟩, h => Follows.namePieces name columns _ (source.renders h)
termination_by structural t => t

theorem Source.renders : ∀ s : Source, (∀ w ∈ s.words, QuoteFree w) → Renders s.pieces
  | .table schema name, _ => .qualified schema name
  | .query s, h => (s.renders h).parens
  | .values rows, h =>
    .parens (.plain_append (by decide)
      (.separated (by decide) (rowPieces_render rows h)))
  | .function schema name args, h =>
    Follows.parens (.separated (by decide) (exprPieces_render args h)) _
      (.qualified schema name)
  | .expr e, h => (e.renders h).1
termination_by structural s => s

theorem rowPieces_render : ∀ rows : List (List Expr), (∀ w ∈ rowWords rows, QuoteFree w) →
    ∀ ps ∈ rowPieces rows, Renders ps
  | [], _ => by simp [rowPieces]
  | row :: rows, h => by
    rw [rowWords, List.forall_mem_append] at h
    exact List.forall_mem_cons.2
      ⟨.parens (.separated (by decide) (exprPieces_render row h.1)),
        rowPieces_render rows h.2⟩
termination_by structural rows => rows

theorem joinPieces_follow : ∀ js : List Join, (∀ w ∈ joinWords js, QuoteFree w) →
    Follows (joinPieces js)
  | [], _ => .nil
  | j :: js, h => by
    rw [joinWords, List.forall_mem_append] at h
    exact .append (j.follows h.1) (joinPieces_follow js h.2)
termination_by structural js => js

theorem Join.follows : ∀ j : Join, (∀ w ∈ j.words, QuoteFree w) → Follows j.pieces
  | ⟨kind, table, on, lateral⟩, h => by
    rw [Join.words, List.forall_mem_append] at h
    have hon : Renders (if on.isAlways then plain "true" else on.pieces) := by
      split
      · exact .plain (by decide)
      · exact on.renders h.2
    have htable : Renders (table.pieces ++ (plain " on " ++
        if on.isAlways then plain "true" else on.pieces)) :=
      (table.renders h.1).apart (by decide) hon
    simp only [Join.pieces, List.append_assoc]
    refine .plain_append kind.separates_text ?_
    cases lateral with
    | true => exact .plain_append (by decide) htable
    | false => exact htable
termination_by structural j => j

theorem orderPieces_render : ∀ os : List SortTerm, (∀ w ∈ orderWords os, QuoteFree w) →
    ∀ ps ∈ orderPieces os, Renders ps
  | [], _ => by simp [orderPieces]
  | o :: os, h => by
    rw [orderWords, List.forall_mem_append] at h
    exact List.forall_mem_cons.2 ⟨o.renders h.1, orderPieces_render os h.2⟩
termination_by structural os => os

theorem SortTerm.renders : ∀ o : SortTerm, (∀ w ∈ o.words, QuoteFree w) → Renders o.pieces
  | ⟨e, .ascending⟩, h => (e.renders h).1.append_plain (by decide)
  | ⟨e, .descending⟩, h => (e.renders h).1.append_plain (by decide)
termination_by structural o => o

end

end LateralSql.Sql
