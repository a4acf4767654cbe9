/-
  The symbols of a statement.

  Outside of quotes a text is made of words, signs and blanks.  A word is as long as it can be, and
  upper case is not told from lower case (`scan`).  A placeholder stands for the value of its
  parameter (`Symbol.resolve`), so that a part of a statement has the same symbols wherever it
  stands (`Spells`).
-/
import LateralSql.Proofs.Rendering
import LateralSql.Proofs.Runs

namespace LateralSql.Sql

/-! ## The scanner -/

/-- What a text is made of, blanks apart. -/
inductive Symbol where
  | word (w : String)
  | sign (c : Char)
  | ident (name : String)
  | string (s : String)
  /-- The value of a parameter. -/
  | value (v : Value)
  deriving Repr

/-- A character that words and numbers are made of. -/
def isWordChar (c : Char) : Bool := c.isAlphanum || c = '_' || c = '$' || 128 ≤ c.toNat

namespace Lexeme

/-- The character, if it is part of a word. -/
def wordChar? : Lexeme → Option Char
  | other c => if isWordChar c then some c else none
  | _ => none

/-- The symbol of a lexeme that is part of no word. A blank has none. -/
def symbols : Lexeme → List Symbol
  | other c => if c.isWhitespace then [] else [.sign c]
  | ident name => [.ident name]
  | string s => [.string s]

end Lexeme

/-- The word with the given characters, if there are any. -/
def wordSymbol (cs : List Char) : List Symbol :=
  if cs.isEmpty then [] else [.word (String.ofList (cs.map Char.toLower))]

/-- The symbols of a text whose first word starts with the characters `cs`. -/
def scanFrom (cs : List Char) : List Lexeme → List Symbol
  | [] => wordSymbol cs
  | l :: ls =>
    match l.wordChar? with
    | some c => scanFrom (cs ++ [c]) ls
    | none => wordSymbol cs ++ (l.symbols ++ scanFrom [] ls)

/-- The symbols of a text. -/
def scan (ls : List Lexeme) : List Symbol := scanFrom [] ls

/-- The lexeme that comes first, if there is one, is part of no word. -/
def OpensApart (ls : List Lexeme) : Prop := ∀ l ∈ ls.head?, l.wordChar? = none

/-- The lexeme that comes last, if there is one, is part of no word. -/
def ClosesApart (ls : List Lexeme) : Prop := ∀ l ∈ ls.getLast?, l.wordChar? = none

theorem scanFrom_of_none {l : Lexeme} (h : l.wordChar? = none) (cs : List Char)
    (ls : List Lexeme) : scanFrom cs (l :: ls) = wordSymbol cs ++ (l.symbols ++ scan ls) := by
  rw [scanFrom, h]
  rfl

theorem scan_of_none {l : Lexeme} (h : l.wordChar? = none) (ls : List Lexeme) :
    scan (l :: ls) = l.symbols ++ scan ls := scanFrom_of_none h [] ls

/-- A text that does not go on with a word is scanned on its own. -/
theorem scanFrom_append (cs : List Char) (ls : List Lexeme) {ms : List Lexeme}
    (h : OpensApart ms) : scanFrom cs (ls ++ ms) = scanFrom cs ls ++ scan ms := by
  induction ls generalizing cs with
  | nil =>
    cases ms with
    | nil => exact (List.append_nil _).symm
    | cons m ms =>
      have hm : m.wordChar? = none := h m rfl
      rw [List.nil_append, scanFrom_of_none hm, scan_of_none hm, scanFrom]
  | cons l ls ih =>
    rw [List.cons_append, scanFrom, scanFrom]
    split
    · exact ih _
    · rw [ih, List.append_assoc, List.append_assoc]

theorem scan_append {ls ms : List Lexeme} (h : ClosesApart ls ∨ OpensApart ms) :
    scan (ls ++ ms) = scan ls ++ scan ms := by
  rcases h with h | h
  · rcases List.eq_nil_or_concat ls with rfl | ⟨ls, l, rfl⟩
    · rfl
    · rw [List.concat_eq_append] at h ⊢
      have hl : l.wordChar? = none := h l (by simp)
      have hsplit (ns : List Lexeme) :
          scan (ls ++ l :: ns) = scan ls ++ (l.symbols ++ scan ns) := by
        have hopens : OpensApart (l :: ns) := by
          intro k hk
          obtain rfl := Option.some.inj hk
          exact hl
        rw [← scan_of_none hl]
        exact scanFrom_append [] ls hopens
      rw [List.append_assoc, List.singleton_append, hsplit, hsplit]
      simp [scan, scanFrom, wordSymbol]
  · exact scanFrom_append [] ls h

/-! ## Placeholders -/

namespace Symbol

/-- The placeholders with the values that stand for them. -/
def placeholders (vs : List Value) : List (String × Value) :=
  (vs.zipIdx 1).map fun p => ("$" ++ toString p.2, p.1)

/-- The symbol, or the value of the parameter if it is a placeholder. -/
def resolve (vs : List Value) : Symbol → Symbol
  | word w => ((placeholders vs).lookup w).elim (word w) value
  | s => s

/-- The symbol looks like a placeholder. -/
def isPlaceholder : Symbol → Bool
  | word w => w.toList.head? = some '$'
  | _ => false

theorem resolve_of_not_isPlaceholder {s : Symbol} (h : s.isPlaceholder = false)
    (vs : List Value) : s.resolve vs = s := by
  cases s with
  | word w =>
    have hnone : (placeholders vs).lookup w = none := by
      refine List.lookup_eq_none_iff.2 fun p hp => ?_
      obtain ⟨q, -, rfl⟩ := List.mem_map.1 hp
      rw [bne_iff_ne]
      rintro rfl
      simp [isPlaceholder] at h
    rw [resolve, hnone]
    rfl
  | _ => rfl

theorem resolve_placeholder (before after : List Value) (v : Value) :
    (word ("$" ++ toString (before.length + 1))).resolve (before ++ v :: after) = value v := by
  have hlookup : (placeholders (before ++ v :: after)).lookup
      ("$" ++ toString (before.length + 1)) = some v := by
    have hbefore : (placeholders before).lookup ("$" ++ toString (before.length + 1)) = none := by
      refine List.lookup_eq_none_iff.2 fun p hp => ?_
      obtain ⟨q, hq, rfl⟩ := List.mem_map.1 hp
      have hlt : q.2 < 1 + before.length := (List.mem_zipIdx hq).2.1
      rw [bne_iff_ne, Ne, Names.append_toString_inj]
      omega
    rw [placeholders, List.zipIdx_append, List.map_append, List.lookup_append, ← placeholders,
      hbefore, Option.none_or, List.zipIdx_cons, List.map_cons, Nat.add_comm 1]
    exact List.lookup_cons_self
  rw [resolve, hlookup]
  rfl

end Symbol

/-- The symbols of a statement, with the values of its parameters in place of the placeholders. -/
def Statement.symbols (st : Statement) : Option (List Symbol) :=
  (lex st.text.toList).map fun ls => (scan ls).map (·.resolve st.params)

/-! ## Symbols of pieces -/

/-- The symbols of text without quotes. -/
def plainSymbols (s : String) : List Symbol := scan (s.toList.map .other)

/-- The symbols of a token. -/
def Token.symbols : Token → List Symbol
  | plain s => plainSymbols s
  | ident name => [.ident name]
  | text s => [.string s]

/-- The symbols of a piece. A parameter is a literal or its value, in a cast if it is typed. -/
def Piece.symbols (mode : ParamMode) : Piece → List Symbol
  | token t => t.symbols
  | param v type =>
    match mode, type with
    | .inline, _ => (literal v).flatMap Token.symbols
    | .bind, none => [.value v]
    | .bind, some t =>
      [.word "cast", .sign '(', .value v, .word "as"] ++ (plainSymbols t ++ [.sign ')'])

/-- The symbols of some pieces. -/
def symbolsOf (mode : ParamMode) (ps : List Piece) : List Symbol := ps.flatMap (Piece.symbols mode)

/-- The lexemes of pieces whose parameters are numbered from `n`. -/
def lexemesOf (mode : ParamMode) (n : Nat) (ps : List Piece) : List Lexeme :=
  (tokens mode n ps).flatMap Token.lexemes

/-- The parameters of the pieces are numbered from `n` among the values `vs`. -/
def Numbered : ParamMode → List Value → Nat → List Piece → Prop
  | .inline, _, _, _ => True
  | .bind, vs, n, ps => ∃ before after, vs = before ++ (params ps ++ after) ∧ n = before.length + 1

/-- The text of the pieces has their symbols, whatever the numbers of their parameters. -/
def Spells (mode : ParamMode) (ps : List Piece) : Prop :=
  ∀ vs n, Numbered mode vs n ps →
    (scan (lexemesOf mode n ps)).map (·.resolve vs) = symbolsOf mode ps

section
variable {mode : ParamMode} {ps qs : List Piece} {s : String}

theorem lexemesOf_append (n : Nat) : lexemesOf mode n (ps ++ qs) =
    lexemesOf mode n ps ++ lexemesOf mode (n + (params ps).length) qs := by
  rw [lexemesOf, tokens_append, List.flatMap_append]
  rfl

theorem lexemesOf_plain (n : Nat) (s : String) :
    lexemesOf mode n (plain s) = s.toList.map .other := by
  rw [lexemesOf, show plain s = [Token.plain s].map .token from rfl, tokens_map_token]
  exact List.append_nil _

theorem symbolsOf_append : symbolsOf mode (ps ++ qs) = symbolsOf mode ps ++ symbolsOf mode qs :=
  List.flatMap_append

@[simp] theorem symbolsOf_plain (s : String) : symbolsOf mode (plain s) = plainSymbols s :=
  List.append_nil _

theorem params_append (ps qs : List Piece) : params (ps ++ qs) = params ps ++ params qs :=
  List.filterMap_append

theorem Numbered.append {vs : List Value} {n : Nat} (h : Numbered mode vs n (ps ++ qs)) :
    Numbered mode vs n ps ∧ Numbered mode vs (n + (params ps).length) qs := by
  cases mode with
  | inline => exact ⟨trivial, trivial⟩
  | bind =>
    obtain ⟨before, after, rfl, rfl⟩ := h
    rw [params_append]
    refine ⟨⟨before, params qs ++ after, by simp, rfl⟩, before ++ params ps, after, by simp, ?_⟩
    rw [List.length_append]
    omega

/-- Where no word goes on from the one to the other, pieces are scanned on their own. -/
theorem Spells.append (hp : Spells mode ps) (hq : Spells mode qs)
    (h : ∀ n m, ClosesApart (lexemesOf mode n ps) ∨ OpensApart (lexemesOf mode m qs)) :
    Spells mode (ps ++ qs) := by
  intro vs n hn
  obtain ⟨hps, hqs⟩ := hn.append
  rw [lexemesOf_append, scan_append (h _ _), List.map_append, hp vs n hps, hq vs _ hqs,
    symbolsOf_append]

/-- The first character is part of no word. -/
def opensApart (s : String) : Bool := s.toList.head?.any (!isWordChar ·)

/-- The last character, if there is one, is part of no word. -/
def closesApart (s : String) : Bool := s.toList.getLast?.all (!isWordChar ·)

theorem OpensApart.other_append (h : opensApart s = true) (ls : List Lexeme) :
    OpensApart (s.toList.map .other ++ ls) := by
  intro l hl
  cases hs : s.toList with
  | nil => simp [opensApart, hs] at h
  | cons c cs =>
    rw [hs] at hl
    obtain rfl := Option.some.inj hl
    rw [opensApart, hs] at h
    have hc : isWordChar c = false := by simpa using h
    rw [Lexeme.wordChar?, hc]
    rfl

theorem ClosesApart.other (h : closesApart s = true) : ClosesApart (s.toList.map .other) := by
  intro l hl
  rw [List.getLast?_map] at hl
  obtain ⟨c, hc, rfl⟩ := Option.map_eq_some_iff.1 hl
  rw [closesApart, hc] at h
  have hword : isWordChar c = false := by simpa using h
  rw [Lexeme.wordChar?, hword]
  rfl

theorem map_resolve {ts : List Symbol} (h : ∀ t ∈ ts, t.isPlaceholder = false)
    (vs : List Value) : ts.map (·.resolve vs) = ts :=
  (List.map_congr_left fun t ht => Symbol.resolve_of_not_isPlaceholder (h t ht) vs).trans
    (List.map_id _)

namespace Spells

theorem nil : Spells mode [] := by
  intro vs n _
  cases mode <;> rfl

theorem ident (name : String) : Spells mode (ident name) := by
  intro vs n _
  cases mode <;> rfl

theorem text (s : String) : Spells mode [.token (.text s)] := by
  intro vs n _
  cases mode <;> rfl

theorem plain (h : ∀ t ∈ plainSymbols s, t.isPlaceholder = false) : Spells mode (plain s) := by
  intro vs n _
  rw [lexemesOf_plain, symbolsOf_plain]
  exact map_resolve h vs

end Spells

theorem scanFrom_word {cs : List Char} (h : ∀ c ∈ cs, isWordChar c = true) (ds : List Char) :
    scanFrom ds (cs.map .other) = wordSymbol (ds ++ cs) := by
  induction cs generalizing ds with
  | nil => rw [List.append_nil]; rfl
  | cons c cs ih =>
    obtain ⟨hc, hcs⟩ := List.forall_mem_cons.1 h
    have hword : (Lexeme.other c).wordChar? = some c := by rw [Lexeme.wordChar?, hc]; rfl
    rw [List.map_cons, scanFrom, hword]
    exact (ih hcs _).trans (by rw [List.append_assoc, List.singleton_append])

theorem isWordChar_of_isDigit {c : Char} (h : c.isDigit = true) : isWordChar c = true := by
  simp [isWordChar, Char.isAlphanum, h]

theorem toLower_of_isDigit {c : Char} (h : c.isDigit = true) : c.toLower = c := by
  simp only [Char.isDigit, ge_iff_le, Bool.and_eq_true, decide_eq_true_eq] at h
  refine dif_neg ?_
  rintro ⟨hupper, -⟩
  exact absurd (UInt32.le_trans hupper h.2) (by decide)

theorem plainSymbols_placeholder (n : Nat) :
    plainSymbols ("$" ++ toString n) = [.word ("$" ++ toString n)] := by
  have hdigit : ∀ c ∈ (toString n).toList, c.isDigit = true := fun c hc =>
    Nat.isDigit_of_mem_toDigits (by decide) (by decide) (Nat.toList_repr ▸ hc)
  have hword : ∀ c ∈ ("$" ++ toString n).toList, isWordChar c = true := by
    rw [String.toList_append, List.forall_mem_append]
    exact ⟨by simp [isWordChar], fun c hc => isWordChar_of_isDigit (hdigit c hc)⟩
  have hlower : ("$" ++ toString n).toList.map Char.toLower = ("$" ++ toString n).toList := by
    rw [String.toList_append, List.map_append]
    exact congrArg ("$".toList ++ ·)
      ((List.map_congr_left fun c hc => toLower_of_isDigit (hdigit c hc)).trans (List.map_id _))
  rw [plainSymbols, scan, scanFrom_word hword, List.nil_append, wordSymbol, hlower,
    String.ofList_toList, if_neg (by simp)]

theorem plainSymbols_append {t : String} (h : closesApart s = true ∨ opensApart t = true) :
    plainSymbols (s ++ t) = plainSymbols s ++ plainSymbols t := by
  rw [plainSymbols, String.toList_append, List.map_append]
  refine scan_append (h.imp ClosesApart.other fun h => ?_)
  simpa using OpensApart.other_append h []

theorem scan_placeholder (n : Nat) :
    scan ((placeholder n none).flatMap Token.lexemes) = [.word ("$" ++ toString n)] := by
  rw [← plainSymbols_placeholder, placeholder, List.flatMap_singleton]
  rfl

/-- A placeholder in a cast. -/
theorem scan_typed_placeholder (n : Nat) (t : String) :
    scan ((placeholder n (some t)).flatMap Token.lexemes) =
      [.word "cast", .sign '(', .word ("$" ++ toString n), .word "as"] ++
        (plainSymbols t ++ [.sign ')']) := by
  have hopens : OpensApart ((" as " ++ t ++ ")").toList.map .other) := by
    rw [String.append_assoc, String.toList_append, List.map_append]
    exact .other_append rfl _
  have htype : plainSymbols (" as " ++ t ++ ")") =
      plainSymbols " as " ++ (plainSymbols t ++ plainSymbols ")") := by
    rw [plainSymbols_append (.inr rfl), plainSymbols_append (.inl rfl), List.append_assoc]
  calc scan ((placeholder n (some t)).flatMap Token.lexemes)
      = plainSymbols "cast(" ++
          (plainSymbols ("$" ++ toString n) ++ plainSymbols (" as " ++ t ++ ")")) := by
        simp only [placeholder, List.flatMap_cons, List.flatMap_nil, Token.lexemes, List.append_nil]
        rw [scan_append (.inl (.other rfl)), scan_append (.inr hopens)]
        rfl
    _ = _ := by rw [plainSymbols_placeholder, htype]; rfl

theorem Spells.param {v : Value} {type : Option String}
    (hliteral : Spells .inline ((literal v).map .token))
    (htype : ∀ t ∈ type, ∀ u ∈ plainSymbols t, u.isPlaceholder = false) :
    Spells mode [.param v type] := by
  intro vs n hn
  cases mode with
  | inline =>
    have h := hliteral vs n trivial
    rw [lexemesOf, tokens_map_token, symbolsOf, List.flatMap_map] at h
    rw [lexemesOf, symbolsOf, List.flatMap_singleton, tokens, inlineTokens, List.flatMap_singleton]
    exact h
  | bind =>
    obtain ⟨before, after, rfl, rfl⟩ := hn
    have hvalue := Symbol.resolve_placeholder before after v
    rw [lexemesOf, tokens, bindTokens, bindTokens, List.append_nil]
    cases type with
    | none =>
      rw [scan_placeholder, List.map_singleton]
      exact congrArg (· :: []) hvalue
    | some t =>
      have hvs : before ++ (params [.param v (some t)] ++ after) = before ++ v :: after := rfl
      have hword (w : String) (hw : (Symbol.word w).isPlaceholder = false) :
          (Symbol.word w).resolve (before ++ v :: after) = .word w :=
        Symbol.resolve_of_not_isPlaceholder hw _
      rw [scan_typed_placeholder, hvs]
      simp only [List.cons_append, List.nil_append, List.map_cons, List.map_append, List.map_nil,
        map_resolve (htype t rfl), hvalue, hword "cast" rfl, hword "as" rfl]
      exact (List.append_nil _).symm

end

end LateralSql.Sql
