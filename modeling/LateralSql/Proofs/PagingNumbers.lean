/-
  How the numbers of a paging reach the statement.

  A select with a limit or an offset is written as the select without them and two clauses after it
  (`Select.statement_paged`).  In each stands a number of 64 signed bits (`rowNumber`), as a literal
  or as the value of the next placeholder.  It is the requested number unless that is greater than
  any signed one, and then it is negative (`rowNumber_eq_iff`, `rowNumber_neg_iff`).
-/
import LateralSql.Proofs.AliasAgreement
import LateralSql.Proofs.Symbols

namespace LateralSql

namespace Sql

/-! ## Numbers of rows -/

/-- The number that is written for a number of rows. -/
def rowNumber (n : UInt64) : Int := n.toInt64.toInt

theorem rowNumber_eq (n : UInt64) :
    rowNumber n = if (n.toNat : Int) ≤ Int64.maxValue.toInt then (n.toNat : Int)
      else n.toNat - 18446744073709551616 := by
  have hmax : Int64.maxValue.toInt = 9223372036854775807 := rfl
  have hsigned : rowNumber n = n.toBitVec.toInt := rfl
  rw [hsigned, BitVec.toInt_eq_toNat_cond, hmax, UInt64.toNat_toBitVec]
  split <;> split <;> omega

theorem rowNumber_eq_iff (n : UInt64) :
    rowNumber n = n.toNat ↔ (n.toNat : Int) ≤ Int64.maxValue.toInt := by
  rw [rowNumber_eq]
  split <;> omega

theorem rowNumber_neg_iff (n : UInt64) :
    rowNumber n < 0 ↔ Int64.maxValue.toInt < n.toNat := by
  have hlt := n.toNat_lt
  rw [rowNumber_eq]
  split <;> omega

/-! ## Clauses -/

/-- The select with all of its rows. -/
def Select.unpaged (s : Select) : Select := { s with limit := none, offset := none }

/-- How a number of rows is written where `k` parameters stand before it. -/
def numberText (mode : ParamMode) (k : Nat) (n : UInt64) : String :=
  match mode with
  | .inline => toString (rowNumber n)
  | .bind => "$" ++ toString (k + 1)

/-- The clauses of a paging where `k` parameters stand before it. -/
def pagingText (mode : ParamMode) (k : Nat) (limit offset : Option UInt64) : String :=
  limit.elim "" (fun n => " limit " ++ numberText mode k n) ++
    offset.elim "" fun n => " offset " ++ numberText mode (k + limit.toList.length) n

/-- The values of the placeholders of a paging. -/
def pagingParams (mode : ParamMode) (limit offset : Option UInt64) : List Value :=
  match mode with
  | .inline => []
  | .bind => (limit.toList ++ offset.toList).map fun n => .int n.toInt64

/-- The pieces of a clause with a number of rows, if there is one. -/
def numberPieces (word : String) (n : Option UInt64) : List Piece :=
  n.toList.flatMap fun n => plain word ++ [.param (rowCount n) none]

theorem params_numberPieces (word : String) (n : Option UInt64) :
    params (numberPieces word n) = n.toList.map rowCount := by
  cases n <;> rfl

theorem writeAll_numberPieces (mode : ParamMode) (k : Nat) (word : String) (n : Option UInt64) :
    writeAll (tokens mode (1 + k) (numberPieces word n)) =
      n.elim "" fun n => word ++ numberText mode k n := by
  cases n with
  | none => cases mode <;> rfl
  | some n =>
    cases mode with
    | inline =>
      simp [tokens, numberPieces, inlineTokens, plain, rowCount, literal, writeAll, Token.write,
        numberText, rowNumber]
    | bind =>
      simp [tokens, numberPieces, bindTokens, plain, placeholder, writeAll, Token.write,
        numberText, Nat.add_comm]

theorem optionPieces_atMost (word : String) (n : Option UInt64) :
    optionPieces word (n.map RowLimit.atMost) = numberPieces word n := by
  cases n <;> rfl

section
variable {s : Select} {limit offset : Option UInt64}

theorem Select.pieces_paged (hlimit : s.limit = limit.map RowLimit.atMost)
    (hoffset : s.offset = offset.map RowLimit.atMost) :
    s.pieces = s.unpaged.pieces ++ numberPieces " limit " limit ++
      numberPieces " offset " offset := by
  obtain ⟨tables, columns, joins, condition, order, limit', offset'⟩ := s
  obtain rfl : limit' = limit.map RowLimit.atMost := hlimit
  obtain rfl : offset' = offset.map RowLimit.atMost := hoffset
  rw [Select.unpaged, Select.pieces_eq, Select.pieces_eq, optionPieces_atMost, optionPieces_atMost]
  simp [optionPieces]

/-- **A select with a paging** is written as the one without, with the clauses of the paging after
    it. -/
theorem Select.statement_paged (hlimit : s.limit = limit.map RowLimit.atMost)
    (hoffset : s.offset = offset.map RowLimit.atMost) (mode : ParamMode) :
    s.statement mode = ⟨
      (s.unpaged.statement mode).text ++
        pagingText mode (s.unpaged.statement mode).params.length limit offset,
      (s.unpaged.statement mode).params ++ pagingParams mode limit offset⟩ := by
  have hpieces := Select.pieces_paged hlimit hoffset
  have hlength : (params (numberPieces " limit " limit)).length = limit.toList.length := by
    rw [params_numberPieces, List.length_map]
  have htext : (s.statement mode).text = (s.unpaged.statement mode).text ++
      pagingText mode (params s.unpaged.pieces).length limit offset := by
    rw [Select.statement_text, Select.statement_text, hpieces, tokens_append, tokens_append,
      writeAll_append, writeAll_append, writeAll_numberPieces, params_append, List.length_append,
      hlength, writeAll_numberPieces, String.append_assoc, pagingText]
  cases mode with
  -- without placeholders it does not matter how many there are
  | inline => exact congrArg (Statement.mk · []) htext
  | bind =>
    have hparams :
        params s.pieces = params s.unpaged.pieces ++ pagingParams .bind limit offset := by
      rw [hpieces, params_append, params_append, params_numberPieces, params_numberPieces,
        List.append_assoc, ← List.map_append]
      rfl
    exact congrArg₂ Statement.mk htext hparams

end

end Sql

/-! ## Collections -/

namespace CollectionRequest

/-- The paging of the collection as a whole, if it has one, else that of its objects. -/
def effectivePaging (r : CollectionRequest) : Option Paging :=
  match r.paging with
  | some p => some p
  | none => r.object.paging

/-- The greatest number of rows that is requested. -/
def limit? (r : CollectionRequest) : Option UInt64 := r.effectivePaging.bind (·.limit)

/-- The number of rows that are left out first. -/
def offset? (r : CollectionRequest) : Option UInt64 := r.effectivePaging.bind (·.offset)

theorem paging_root (r : CollectionRequest) : r.root.paging = r.effectivePaging := by
  obtain ⟨object, filters, sort, paging⟩ := r
  cases paging <;> rfl

end CollectionRequest

/-- **The numbers of a paging are those of the request as far as they fit.**  The select of a
    collection has a limit and an offset if and only if the paging in effect has them.  Its
    statement is that of all rows with the numbers after it, as literals or as parameters; each is
    the requested number if that is not greater than any signed one, and negative otherwise. -/
theorem paging_numbers {c : Compiler} {r : CollectionRequest} {q : CompiledQuery}
    (h : c.collection r = .ok q) :
    ∃ root, Compiler.run (node c none r.root) = .ok root ∧
      root.select.limit = r.limit?.map (fun n => .param (.int n.toInt64)) ∧
      root.select.offset = r.offset?.map (fun n => .param (.int n.toInt64)) ∧
      q.statement = ⟨
        (c.statement root.select.unpaged).text ++ Sql.pagingText c.settings.paramMode
          (c.statement root.select.unpaged).params.length r.limit? r.offset?,
        (c.statement root.select.unpaged).params ++
          Sql.pagingParams c.settings.paramMode r.limit? r.offset?⟩ ∧
      ∀ n ∈ r.limit?.toList ++ r.offset?.toList,
        (Sql.rowNumber n = n.toNat ↔ (n.toNat : Int) ≤ Int64.maxValue.toInt) ∧
        (Sql.rowNumber n < 0 ↔ Int64.maxValue.toInt < n.toNat) := by
  obtain ⟨root, hroot, h⟩ := bind_ok.1 h
  obtain rfl := pure_ok.1 h
  obtain ⟨n', hnode⟩ := run_ok.1 hroot
  obtain ⟨run, rfl⟩ := node_run hnode
  have hlimit : run.node.select.limit = r.limit?.map Sql.RowLimit.atMost := by
    rw [CollectionRequest.limit?, ← r.paging_root]
    rfl
  have hoffset : run.node.select.offset = r.offset?.map Sql.RowLimit.atMost := by
    rw [CollectionRequest.offset?, ← r.paging_root]
    rfl
  refine ⟨run.node, hroot, hlimit, hoffset, ?_, fun n _ => ?_⟩
  · exact Sql.Select.statement_paged hlimit hoffset c.settings.paramMode
  · exact ⟨Sql.rowNumber_eq_iff n, Sql.rowNumber_neg_iff n⟩

/-- The first authors. The paging of the object is replaced as a whole, with its offset. -/
def authorsPage (limit : UInt64) : CollectionRequest where
  object := {
    entity := "Author"
    selected := [⟨"name", "name", none⟩]
    paging := some { limit := some 3, offset := some 4 } }
  paging := some { limit := some limit }

theorem paging_numbers_authors :
    ∃ q root, library.collection (authorsPage 9223372036854775807) = .ok q ∧
      Compiler.run (node library none (authorsPage 9223372036854775807).root) = .ok root ∧
      root.select.limit = some (.param (.int 9223372036854775807)) ∧ root.select.offset = none ∧
      q.statement = ⟨(library.statement root.select.unpaged).text ++ " limit $1",
        [.int 9223372036854775807]⟩ ∧
      Sql.rowNumber 9223372036854775807 = 9223372036854775807 := by
  obtain ⟨q, hq⟩ : ∃ q, library.collection (authorsPage 9223372036854775807) = .ok q := ⟨_, rfl⟩
  obtain ⟨root, hroot, hlimit, hoffset, hstatement, hnumbers⟩ := paging_numbers hq
  have hparams : (library.statement root.select.unpaged).params = [] := by
    obtain rfl := Except.ok.inj hroot
    rfl
  rw [hparams] at hstatement
  have hnumber := (hnumbers 9223372036854775807 (by decide)).1.2 (by decide)
  exact ⟨q, root, hq, hroot, hlimit, hoffset, hstatement, hnumber⟩

/-- **A limit that is written as a negative number**, the first one that does not fit. -/
theorem huge_limit_negative :
    (({ library with settings := { paramMode := .inline } } : Compiler).collection
        (authorsPage 9223372036854775808)).toOption.map (·.statement.text) =
      some "select \"t1\".\"name\" as \"x1\" from \"author\" as \"t1\" limit -9223372036854775808" ∧
    (library.collection (authorsPage 9223372036854775808)).toOption.map (·.statement.params) =
      some [.int (-9223372036854775808)] :=
  ⟨by decide +kernel, rfl⟩

end LateralSql
