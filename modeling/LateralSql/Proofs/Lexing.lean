/-
  Reading the text of a statement back into tokens.

  A single quote opens a string and a double quote an identifier; either ends at the next quote of
  its kind that is not written twice, and no other character inside is special.  The lexer is a
  machine that reads one character at a time (`LexState.step`).

  Two texts that are read completely may stand side by side if between them stands some text
  without quotes (`lex_append`): a closing quote followed by a quote of the same kind would be a
  quote inside.  Tokens whose text is read back as they are (`Readable`) are put together in this
  way.
-/
import Mathlib.Data.List.Basic
import LateralSql.Sql.Statement

namespace LateralSql.Sql

/-! ## The lexer -/

/-- The quotes: single ones around strings, double ones around identifiers. -/
inductive Quote where
  | single | double
  deriving Repr, DecidableEq

namespace Quote

/-- The character that a quote is. -/
def char : Quote → Char
  | single => '\''
  | double => '"'

/-- The quote that a character is, if it is one. -/
def ofChar? (c : Char) : Option Quote :=
  if c = '\'' then some single else if c = '"' then some double else none

@[simp] theorem ofChar?_char (q : Quote) : ofChar? q.char = some q := by cases q <;> rfl

theorem ne_char {c : Char} (h : ofChar? c = none) (q : Quote) : c ≠ q.char := by
  rintro rfl
  simp at h

end Quote

/-- What a text is made of. -/
inductive Lexeme where
  /-- A character outside of quotes. -/
  | other (c : Char)
  | ident (name : String)
  | string (s : String)
  deriving Repr, DecidableEq

namespace Lexeme

/-- The token between two quotes. -/
def ofQuoted : Quote → List Char → Lexeme
  | .single, cs => string (String.ofList cs)
  | .double, cs => ident (String.ofList cs)

/-- The character, if it is outside of quotes. -/
def outside? : Lexeme → Option Char
  | other c => some c
  | _ => none

/-- The lexeme stands between quotes. -/
def isQuoted : Lexeme → Bool
  | other _ => false
  | _ => true

end Lexeme

/-- Where the lexer is. -/
inductive LexState where
  | outside
  /-- Between quotes, after the characters `cs`. -/
  | inside (q : Quote) (cs : List Char)
  /-- The same, after a quote that ends the token unless another follows. -/
  | closing (q : Quote) (cs : List Char)

namespace LexState

/-- Reads a character outside of quotes. -/
def start (c : Char) : LexState × List Lexeme :=
  match Quote.ofChar? c with
  | some q => (inside q [], [])
  | none => (outside, [.other c])

/-- Reads a character; the lexemes that are complete with it. -/
def step : LexState → Char → LexState × List Lexeme
  | outside, c => start c
  | inside q cs, c => if c = q.char then (closing q cs, []) else (inside q (cs ++ [c]), [])
  | closing q cs, c =>
    if c = q.char then (inside q (cs ++ [c]), [])
    else ((start c).1, .ofQuoted q cs :: (start c).2)

/-- Reads a text; the lexemes that are complete with it. -/
def run (state : LexState) : List Char → LexState × List Lexeme
  | [] => (state, [])
  | c :: cs => (((state.step c).1.run cs).1, (state.step c).2 ++ ((state.step c).1.run cs).2)

/-- The lexemes that are complete at the end of the text, unless it is inside of quotes. -/
def finish : LexState → Option (List Lexeme)
  | outside => some []
  | inside _ _ => none
  | closing q cs => some [.ofQuoted q cs]

theorem run_append (state : LexState) (cs ds : List Char) :
    state.run (cs ++ ds) =
      (((state.run cs).1.run ds).1, (state.run cs).2 ++ ((state.run cs).1.run ds).2) := by
  induction cs generalizing state with
  | nil => rfl
  | cons c cs ih => simp only [List.cons_append, run, ih, List.append_assoc]

/-- A text between quotes is read up to its closing quote. -/
theorem run_doubled (q : Quote) (cs read : List Char) :
    (inside q read).run (Text.doubled q.char cs ++ [q.char]) = (closing q (read ++ cs), []) := by
  induction cs generalizing read with
  | nil => simp [Text.doubled, run, step]
  | cons c cs ih =>
    by_cases hc : c = q.char
    · simp [Text.doubled, run, step, hc, ih]
    · simp [Text.doubled, run, step, hc, ih]

theorem run_quoted (q : Quote) (s : String) :
    outside.run (Text.quoted q.char s).toList = (closing q s.toList, []) := by
  rw [Text.quoted, String.toList_ofList]
  simp [run, step, start, run_doubled]

end LexState

/-- The lexemes of a text. -/
def lex (cs : List Char) : Option (List Lexeme) :=
  (LexState.outside.run cs).1.finish.map ((LexState.outside.run cs).2 ++ ·)

theorem lex_quoted (q : Quote) (s : String) :
    lex (Text.quoted q.char s).toList = some [.ofQuoted q s.toList] := by
  simp [lex, LexState.run_quoted, LexState.finish]

/-! ## Text without quotes -/

/-- The text has no quotes of either kind. -/
def QuoteFree (s : String) : Prop := ∀ c ∈ s.toList, Quote.ofChar? c = none

instance (s : String) : Decidable (QuoteFree s) := List.decidableBAll _ _

/-- Text that keeps the quoted tokens on its two sides apart. -/
def Separates (s : String) : Prop := QuoteFree s ∧ s ≠ ""

instance (s : String) : Decidable (Separates s) := instDecidableAnd

namespace QuoteFree

theorem append {s t : String} (hs : QuoteFree s) (ht : QuoteFree t) : QuoteFree (s ++ t) := by
  intro c hc
  rw [String.toList_append, List.mem_append] at hc
  exact hc.elim (hs c) (ht c)

end QuoteFree

theorem start_other {c : Char} (h : Quote.ofChar? c = none) :
    LexState.start c = (.outside, [.other c]) := by
  rw [LexState.start, h]

theorem run_other {cs : List Char} (h : ∀ c ∈ cs, Quote.ofChar? c = none) :
    LexState.outside.run cs = (.outside, cs.map .other) := by
  induction cs with
  | nil => rfl
  | cons c cs ih =>
    rw [List.forall_mem_cons] at h
    simp [LexState.run, LexState.step, start_other h.1, ih h.2]

/-- Text without quotes completes what is complete at the end of the text before it. -/
theorem run_other_of_finish {state : LexState} {out : List Lexeme}
    (hfinish : state.finish = some out) {cs : List Char} (h : ∀ c ∈ cs, Quote.ofChar? c = none)
    (hne : cs ≠ []) :
    state.run cs = (.outside, out ++ cs.map .other) := by
  cases state with
  | outside => rw [run_other h, ← Option.some.inj hfinish, List.nil_append]
  | inside => cases hfinish
  | closing q read =>
    obtain ⟨c, cs, rfl⟩ := List.exists_cons_of_ne_nil hne
    rw [List.forall_mem_cons] at h
    rw [← Option.some.inj hfinish]
    simp [LexState.run, LexState.step, Quote.ne_char h.1, start_other h.1, run_other h.2]

theorem lex_eq_some {cs : List Char} {out : List Lexeme} :
    lex cs = some out ↔ ∃ last, (LexState.outside.run cs).1.finish = some last ∧
      (LexState.outside.run cs).2 ++ last = out :=
  Option.map_eq_some_iff

/-- Text without quotes may stand before any other. -/
theorem lex_other_append {s : String} (hs : QuoteFree s) {cs : List Char} {out : List Lexeme}
    (h : lex cs = some out) : lex (s.toList ++ cs) = some (s.toList.map .other ++ out) := by
  obtain ⟨last, hfinish, rfl⟩ := lex_eq_some.1 h
  refine lex_eq_some.2 ⟨last, ?_, ?_⟩ <;> rw [LexState.run_append, run_other hs]
  · exact hfinish
  · rw [List.append_assoc]

/-- **Texts that are kept apart are read on their own.** -/
theorem lex_append {cs ds : List Char} {out out' : List Lexeme} (hc : lex cs = some out)
    {s : String} (hs : Separates s) (hd : lex ds = some out') :
    lex (cs ++ (s.toList ++ ds)) = some (out ++ (s.toList.map .other ++ out')) := by
  obtain ⟨last, hfinish, rfl⟩ := lex_eq_some.1 hc
  obtain ⟨last', hfinish', rfl⟩ := lex_eq_some.1 hd
  have hrun := run_other_of_finish hfinish hs.1 (by simpa using hs.2)
  refine lex_eq_some.2 ⟨last', ?_, ?_⟩ <;> rw [LexState.run_append, LexState.run_append, hrun]
  · exact hfinish'
  · simp only [List.append_assoc]

/-! ## Tokens -/

/-- The lexemes of a token. -/
def Token.lexemes : Token → List Lexeme
  | plain s => s.toList.map .other
  | ident name => [.ident name]
  | text s => [.string s]

/-- The text of the tokens is read back as the tokens. -/
def Readable (ts : List Token) : Prop :=
  lex (writeAll ts).toList = some (ts.flatMap Token.lexemes)

theorem writeAll_append (ts us : List Token) :
    writeAll (ts ++ us) = writeAll ts ++ writeAll us := by
  rw [writeAll, List.map_append, String.join_append, writeAll, writeAll]

theorem writeAll_cons (t : Token) (ts : List Token) :
    writeAll (t :: ts) = t.write ++ writeAll ts := by
  rw [writeAll, List.map_cons, String.join_cons, writeAll]

namespace Readable

theorem nil : Readable [] := rfl

theorem plain_cons {s : String} (hs : QuoteFree s) {ts : List Token} (h : Readable ts) :
    Readable (.plain s :: ts) := by
  rw [Readable, writeAll_cons, String.toList_append, List.flatMap_cons]
  exact lex_other_append hs h

theorem plain {s : String} (hs : QuoteFree s) : Readable [.plain s] := nil.plain_cons hs

theorem ident (name : String) : Readable [.ident name] := by
  have h := lex_quoted .double name
  rw [Lexeme.ofQuoted, String.ofList_toList] at h
  simpa [Readable, writeAll, Token.write, Token.lexemes, Quote.char] using h

theorem text (s : String) : Readable [.text s] := by
  have h := lex_quoted .single s
  rw [Lexeme.ofQuoted, String.ofList_toList] at h
  simpa [Readable, writeAll, Token.write, Token.lexemes, Quote.char] using h

theorem apart {ts us : List Token} (ht : Readable ts) {s : String} (hs : Separates s)
    (hu : Readable us) : Readable (ts ++ .plain s :: us) := by
  rw [Readable, writeAll_append, writeAll_cons, String.toList_append, String.toList_append,
    List.flatMap_append, List.flatMap_cons]
  exact lex_append ht hs hu

end Readable

/-- The tokens may follow any others. -/
def Trailing (us : List Token) : Prop := ∀ ts, Readable ts → Readable (ts ++ us)

namespace Trailing

theorem nil : Trailing [] := fun ts h => by rwa [List.append_nil]

theorem plain_cons {s : String} (hs : Separates s) {us : List Token} (h : Readable us) :
    Trailing (.plain s :: us) := fun _ ht => ht.apart hs h

end Trailing

/-! ## Values -/

/-- The text is made of digits, points and minus signs. -/
def Numeral (s : String) : Prop := ∀ c ∈ s.toList, c.isDigit ∨ c = '-' ∨ c = '.'

instance (s : String) : Decidable (Numeral s) := List.decidableBAll _ _

namespace Numeral

theorem append {s t : String} (hs : Numeral s) (ht : Numeral t) : Numeral (s ++ t) := by
  intro c hc
  rw [String.toList_append, List.mem_append] at hc
  exact hc.elim (hs c) (ht c)

theorem ofDigits {cs : List Char} (h : ∀ c ∈ cs, c.isDigit) : Numeral (String.ofList cs) := by
  intro c hc
  rw [String.toList_ofList] at hc
  exact .inl (h c hc)

theorem nat (n : Nat) : Numeral (toString n) := by
  have h := ofDigits fun c (hc : c ∈ Nat.toDigits 10 n) =>
    Nat.isDigit_of_mem_toDigits (by decide) (by decide) hc
  rwa [← Nat.toList_repr, String.ofList_toList] at h

theorem int (n : Int) : Numeral (toString n) := by
  cases n with
  | ofNat n => exact nat n
  | negSucc n => exact append (by decide) (nat (n + 1))

theorem decimal (d : Decimal) : Numeral d.text := by
  have hsign : Numeral (if d.digits < 0 then "-" else "") := by split <;> decide
  have hdigit (c : Char) (hc : c ∈ (toString d.digits.natAbs).toList) : c.isDigit :=
    Nat.isDigit_of_mem_toDigits (by decide) (by decide) (Nat.toList_repr ▸ hc)
  have hzeros (n : Nat) : Numeral (String.ofList (List.replicate n '0')) :=
    ofDigits fun c hc => (List.eq_of_mem_replicate hc) ▸ rfl
  unfold Decimal.text
  dsimp only
  generalize (if d.digits < 0 then "-" else "") = sign at hsign ⊢
  split
  · exact (hsign.append (nat _)).append (hzeros _)
  split
  · exact ((hsign.append (by decide)).append (hzeros _)).append (nat _)
  · refine ((hsign.append (ofDigits fun c hc => ?_)).append (by decide)).append
      (ofDigits fun c hc => ?_)
    · exact hdigit c (List.mem_of_mem_take hc)
    · exact hdigit c (List.mem_of_mem_drop hc)

theorem quoteFree {s : String} (h : Numeral s) : QuoteFree s := by
  intro c hc
  unfold Quote.ofChar?
  split_ifs with h₁ h₂
  · exact absurd (h₁ ▸ h c hc) (by decide)
  · exact absurd (h₂ ▸ h c hc) (by decide)
  · rfl

end Numeral

mutual

theorem literal_readable : ∀ v : Value, Readable (literal v)
  | .null => .plain (by decide)
  | .boolean b => .plain (by cases b <;> decide)
  | .int n => .plain (Numeral.int n.toInt).quoteFree
  | .decimal d => .plain (Numeral.decimal d).quoteFree
  | .string s => .text s
  | .json s => .text s
  | .dateTime t => .text t.text
  | .list items => by
    rw [literal]
    exact .plain_cons (by decide) ((literals_readable items).apart (by decide) .nil)
  | .object members => .text _
termination_by structural v => v

theorem literals_readable : ∀ vs : List Value, Readable (literals vs)
  | [] => .nil
  | v :: vs => by
    rw [literals]
    exact furtherLiterals_trailing vs _ (literal_readable v)
termination_by structural vs => vs

theorem furtherLiterals_trailing : ∀ vs : List Value, Trailing (furtherLiterals vs)
  | [] => .nil
  | v :: vs => by
    rw [furtherLiterals]
    exact .plain_cons (by decide) (furtherLiterals_trailing vs _ (literal_readable v))
termination_by structural vs => vs

end

end LateralSql.Sql
