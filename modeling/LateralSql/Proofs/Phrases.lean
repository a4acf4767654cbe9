/-
  How pieces are read.

  Pieces that are read as their parts wherever they stand (`Reads`) are put together where no word
  goes on from the one to the other (`Meets`).  They may stand between brackets, which hide the
  words inside.  Pieces without brackets (`Flat`) have a part for each symbol; among them are
  literals, whatever their values.
-/
import LateralSql.Proofs.Precedence

namespace LateralSql.Sql

/-! ## Reading pieces -/

/-- The symbol is none of the words. -/
def Symbol.isNoneOf (words : List String) : Symbol → Bool
  | word w => !words.contains w
  | _ => true

theorem Symbol.isNoneOf_word {words : List String} {w : String} :
    (word w).isNoneOf words = true ↔ w ∉ words := by
  rw [isNoneOf, Bool.not_eq_true', List.contains_eq_mem, decide_eq_false_iff_not]

/-- The part is none of the words. A group may contain them. -/
def Part.isNoneOf (words : List String) : Part → Bool
  | symbol s => s.isNoneOf words
  | group _ _ => true

theorem Part.isNoneOf_mono {words words' : List String} (hsub : words' ⊆ words) {p : Part}
    (h : p.isNoneOf words = true) : p.isNoneOf words' = true := by
  cases p with
  | group _ _ => rfl
  | symbol t =>
    cases t with
    | word w => exact Symbol.isNoneOf_word.2 fun hw => Symbol.isNoneOf_word.1 h (hsub hw)
    | _ => rfl

theorem Part.isWord_eq_false {words : List String} {p : Part} (h : p.isNoneOf words = true)
    {w : String} (hw : w ∈ words) : p.isWord w = false := by
  cases p with
  | group _ _ => rfl
  | symbol t =>
    cases t with
    | word v =>
      rw [isWord, decide_eq_false_iff_not]
      rintro rfl
      exact Symbol.isNoneOf_word.1 h hw
    | _ => rfl

theorem Part.clauseWord?_eq_none (p : Part) (h : p.isNoneOf clauseWords = true) :
    p.clauseWord? = none := by
  cases p with
  | group _ _ => rfl
  | symbol t =>
    cases t with
    | word w => exact if_neg (Symbol.isNoneOf_word.1 h)
    | _ => rfl

section
variable (ρ : List Symbol → Truth) (mode : ParamMode)

/-- The parts of pieces. -/
def partsOf (ps : List Piece) : List Part := (readParts ρ (symbolsOf mode ps)).getD []

/-- The text of the pieces is read as their parts, wherever it stands, and has none of the words
    outside of brackets. -/
structure Reads (words : List String) (ps : List Piece) : Prop where
  spells : Spells mode ps
  groups : Groups ρ (symbolsOf mode ps) (partsOf ρ mode ps)
  noneOf : ∀ p ∈ partsOf ρ mode ps, p.isNoneOf words = true

/-- No word goes on from the pieces `ps` to the pieces `qs`. -/
def Meets (ps qs : List Piece) : Prop :=
  ∀ n m, ClosesApart (lexemesOf mode n ps) ∨ OpensApart (lexemesOf mode m qs)

end

section
variable {ρ : List Symbol → Truth} {mode : ParamMode} {words : List String}
  {ps qs : List Piece} {s : String}

namespace Meets

theorem plain_left (h : closesApart s = true) : Meets mode (plain s) ps := by
  intro n _
  rw [lexemesOf_plain]
  exact .inl (.other h)

theorem plain_right (h : opensApart s = true) : Meets mode ps (plain s ++ qs) := by
  intro _ n
  rw [lexemesOf_append, lexemesOf_plain]
  exact .inr (.other_append h _)

theorem plain_last (h : opensApart s = true) : Meets mode ps (plain s) := by
  have h' : Meets mode ps (plain s ++ []) := plain_right h
  rwa [List.append_nil] at h'

theorem nil : Meets mode ps [] := by
  intro _ _
  cases mode <;> exact .inr nofun

theorem parens : Meets mode ps (parens qs) := by
  rw [Sql.parens, List.append_assoc]
  exact plain_right rfl

end Meets

theorem partsOf_eq {parts : List Part} (h : Groups ρ (symbolsOf mode ps) parts) :
    partsOf ρ mode ps = parts := by
  rw [partsOf, h.readParts_eq]
  rfl

namespace Reads

theorem intro {parts : List Part} (hspells : Spells mode ps)
    (hgroups : Groups ρ (symbolsOf mode ps) parts)
    (hnone : ∀ p ∈ parts, p.isNoneOf words = true) : Reads ρ mode words ps := by
  obtain rfl := partsOf_eq hgroups
  exact ⟨hspells, hgroups, hnone⟩

theorem mono {words' : List String} (h : Reads ρ mode words ps) (hsub : words' ⊆ words) :
    Reads ρ mode words' ps :=
  ⟨h.spells, h.groups, fun p hp => Part.isNoneOf_mono hsub (h.noneOf p hp)⟩

theorem partsOf_append {words' : List String} (hp : Reads ρ mode words ps)
    (hq : Reads ρ mode words' qs) :
    partsOf ρ mode (ps ++ qs) = partsOf ρ mode ps ++ partsOf ρ mode qs := by
  refine partsOf_eq ?_
  rw [symbolsOf_append]
  exact hp.groups.append hq.groups

theorem append (hp : Reads ρ mode words ps) (hq : Reads ρ mode words qs) (h : Meets mode ps qs) :
    Reads ρ mode words (ps ++ qs) := by
  refine ⟨hp.spells.append hq.spells h, ?_, ?_⟩
  · rw [symbolsOf_append, hp.partsOf_append hq]
    exact hp.groups.append hq.groups
  · rw [hp.partsOf_append hq]
    exact List.forall_mem_append.2 ⟨hp.noneOf, hq.noneOf⟩

end Reads

/-! ## Pieces without brackets -/

/-- The symbols of the text are none of the words, and neither placeholders nor brackets. -/
def fits (words : List String) (s : String) : Bool :=
  (plainSymbols s).all fun t => !t.isPlaceholder && !t.isBracket && t.isNoneOf words

theorem fits_iff : fits words s = true ↔ ∀ t ∈ plainSymbols s,
    t.isPlaceholder = false ∧ t.isBracket = false ∧ t.isNoneOf words = true := by
  simp [fits, and_assoc]

theorem fits_mono {words' : List String} (hsub : words' ⊆ words) (h : fits words s = true) :
    fits words' s = true := by
  rw [fits_iff] at h ⊢
  intro t ht
  obtain ⟨hplaceholder, hbracket, hnone⟩ := h t ht
  exact ⟨hplaceholder, hbracket, Part.isNoneOf_mono (p := .symbol t) hsub hnone⟩

/-- The text of the pieces has their symbols, and these are neither brackets nor one of the
    words. -/
structure Flat (mode : ParamMode) (words : List String) (ps : List Piece) : Prop where
  spells : Spells mode ps
  symbols : ∀ t ∈ symbolsOf mode ps, t.isBracket = false ∧ t.isNoneOf words = true

namespace Flat

theorem groups (h : Flat mode words ps) :
    Groups ρ (symbolsOf mode ps) ((symbolsOf mode ps).map .symbol) :=
  .of_no_brackets fun t ht => (h.symbols t ht).1

theorem partsOf_eq (h : Flat mode words ps) :
    partsOf ρ mode ps = (symbolsOf mode ps).map .symbol := Sql.partsOf_eq h.groups

theorem reads (h : Flat mode words ps) : Reads ρ mode words ps := by
  refine .intro h.spells h.groups fun p hp => ?_
  obtain ⟨t, ht, rfl⟩ := List.mem_map.1 hp
  exact (h.symbols t ht).2

theorem append (hp : Flat mode words ps) (hq : Flat mode words qs) (h : Meets mode ps qs) :
    Flat mode words (ps ++ qs) := by
  refine ⟨hp.spells.append hq.spells h, ?_⟩
  rw [symbolsOf_append]
  exact List.forall_mem_append.2 ⟨hp.symbols, hq.symbols⟩

theorem nil : Flat mode words [] := ⟨.nil, by simp [symbolsOf]⟩

theorem ident (name : String) : Flat mode words (ident name) :=
  ⟨.ident name, by simp [symbolsOf, Sql.ident, Piece.symbols, Token.symbols, Symbol.isBracket,
    Symbol.isNoneOf]⟩

theorem text (s : String) : Flat mode words [.token (.text s)] :=
  ⟨.text s, by simp [symbolsOf, Piece.symbols, Token.symbols, Symbol.isBracket, Symbol.isNoneOf]⟩

theorem plain (h : fits words s = true) : Flat mode words (plain s) := by
  refine ⟨.plain fun t ht => (fits_iff.1 h t ht).1, ?_⟩
  rw [symbolsOf_plain]
  exact fun t ht => (fits_iff.1 h t ht).2

theorem qualified (qualifier : Option String) (name : String) :
    Flat mode words (qualified qualifier name) := by
  cases qualifier with
  | none => exact ident name
  | some q =>
    rw [Sql.qualified, List.append_assoc]
    exact (ident q).append ((plain rfl).append (ident name) (.plain_left rfl)) (.plain_right rfl)

end Flat

/-! ## Pieces with brackets -/

namespace Reads

theorem nil : Reads ρ mode words [] := Flat.nil.reads

theorem ident (name : String) : Reads ρ mode words (ident name) := (Flat.ident name).reads

theorem plain (h : fits words s = true) : Reads ρ mode words (plain s) := (Flat.plain h).reads

theorem partsOf_plain (h : fits words s = true) :
    partsOf ρ mode (Sql.plain s) = (plainSymbols s).map .symbol := by
  rw [(Flat.plain h).partsOf_eq, symbolsOf_plain]

theorem plain_append (hfits : fits words s = true) (hcloses : closesApart s = true)
    (h : Reads ρ mode words ps) : Reads ρ mode words (Sql.plain s ++ ps) :=
  (plain hfits).append h (.plain_left hcloses)

theorem append_plain (h : Reads ρ mode words ps) (hopens : opensApart s = true)
    (hfits : fits words s = true) : Reads ρ mode words (ps ++ Sql.plain s) :=
  h.append (plain hfits) (.plain_last hopens)

/-- A part may follow another if a text stands between them in which no word goes on. -/
theorem apart (hp : Reads ρ mode words ps) (hopens : opensApart s = true)
    (hcloses : closesApart s = true) (hfits : fits words s = true)
    (hq : Reads ρ mode words qs) : Reads ρ mode words (ps ++ (Sql.plain s ++ qs)) :=
  hp.append (plain_append hfits hcloses hq) (.plain_right hopens)

section
variable {w : String} {words' : List String}

/-- Pieces between brackets, where a text ends with the opening one. -/
theorem groups_enclosed (hs : s = w ++ "(") (hfits : fits words w = true)
    (h : Reads ρ mode words' ps) :
    Groups ρ (symbolsOf mode (Sql.plain s ++ ps ++ Sql.plain ")"))
      ((plainSymbols w).map .symbol ++
        [.group (disjunctionTruth ρ (partsOf ρ mode ps)) (symbolsOf mode ps)]) := by
  have hsymbols : symbolsOf mode (Sql.plain s ++ ps ++ Sql.plain ")") =
      plainSymbols w ++ (.sign '(' :: (symbolsOf mode ps ++ [.sign ')'])) := by
    rw [symbolsOf_append, symbolsOf_append, symbolsOf_plain, symbolsOf_plain, hs,
      plainSymbols_append (.inr rfl), List.append_assoc, List.append_assoc]
    rfl
  rw [hsymbols]
  exact (Groups.of_no_brackets fun t ht => (fits_iff.1 hfits t ht).2.1).append h.groups.group

theorem partsOf_enclosed (hs : s = w ++ "(") (hfits : fits words w = true)
    (h : Reads ρ mode words' ps) : partsOf ρ mode (Sql.plain s ++ ps ++ Sql.plain ")") =
      (plainSymbols w).map .symbol ++
        [.group (disjunctionTruth ρ (partsOf ρ mode ps)) (symbolsOf mode ps)] :=
  partsOf_eq (groups_enclosed hs hfits h)

theorem spells_enclosed (hs : s = w ++ "(") (hfits : fits words w = true)
    (h : Reads ρ mode words' ps) : Spells mode (Sql.plain s ++ ps ++ Sql.plain ")") := by
  have hopen : Spells mode (Sql.plain s) := by
    refine .plain fun t ht => ?_
    rw [hs, plainSymbols_append (.inr rfl), List.mem_append] at ht
    rcases ht with ht | ht
    · exact (fits_iff.1 hfits t ht).1
    · obtain rfl := List.mem_singleton.1 ht
      rfl
  have hcloses : closesApart s = true := by
    rw [hs, closesApart, String.toList_append, List.getLast?_append]
    rfl
  have hclose : Spells mode (Sql.plain ")") := .plain (by decide)
  rw [List.append_assoc]
  exact hopen.append (h.spells.append hclose (Meets.plain_last rfl)) (Meets.plain_left hcloses)

theorem enclosed (hs : s = w ++ "(") (hfits : fits words w = true) (h : Reads ρ mode words' ps) :
    Reads ρ mode words (Sql.plain s ++ ps ++ Sql.plain ")") := by
  refine .intro (spells_enclosed hs hfits h) (groups_enclosed hs hfits h) ?_
  rw [List.forall_mem_append]
  refine ⟨fun p hp => ?_, by simp [Part.isNoneOf]⟩
  obtain ⟨t, ht, rfl⟩ := List.mem_map.1 hp
  exact (fits_iff.1 hfits t ht).2.2

theorem parens (h : Reads ρ mode words' ps) : Reads ρ mode words (parens ps) :=
  enclosed (w := "") rfl rfl h

theorem partsOf_parens (h : Reads ρ mode words' ps) : partsOf ρ mode (Sql.parens ps) =
    [.group (disjunctionTruth ρ (partsOf ρ mode ps)) (symbolsOf mode ps)] :=
  partsOf_enclosed (w := "") rfl (rfl : fits [] "" = true) h

theorem append_parens (hp : Reads ρ mode words ps) (hq : Reads ρ mode words' qs) :
    Reads ρ mode words (ps ++ Sql.parens qs) := hp.append hq.parens .parens

end

theorem separated (hopens : opensApart s = true) (hcloses : closesApart s = true)
    (hfits : fits words s = true) {pss : List (List Piece)}
    (h : ∀ ps ∈ pss, Reads ρ mode words ps) : Reads ρ mode words (separated s pss) := by
  fun_induction Sql.separated s pss with
  | case1 => exact nil
  | case2 p => exact h p List.mem_cons_self
  | case3 p pss _ ih =>
    rw [List.forall_mem_cons] at h
    rw [List.append_assoc]
    exact h.1.apart hopens hcloses hfits (ih h.2)

/-- Parts with commas between them. -/
theorem listed {pss : List (List Piece)} (h : ∀ ps ∈ pss, Reads ρ mode words ps) :
    Reads ρ mode words (Sql.separated ", " pss) := separated rfl rfl rfl h

end Reads

/-! ## Names and values -/

/-- The words that join conditions or start a clause. -/
def reserved : List String := "and" :: "or" :: clauseWords

/-- The words that no name may be. -/
def keywords : List String := "not" :: reserved

theorem clauseWords_subset : clauseWords ⊆ reserved := fun _ h => .tail _ (.tail _ h)

theorem reserved_subset : reserved ⊆ keywords := List.subset_cons_self _ _

/-- A name that is written as it is has no quotes and no brackets, and is not taken for a keyword or
    a placeholder. -/
structure PlainName (w : String) : Prop where
  quoteFree : QuoteFree w
  nonempty : (plainSymbols w).isEmpty = false
  fits : fits keywords w = true

/-- A word of digits is no keyword. -/
theorem fits_digits {cs : List Char} (h : ∀ c ∈ cs, c.isDigit = true) :
    ∀ t ∈ wordSymbol cs,
      t.isPlaceholder = false ∧ t.isBracket = false ∧ t.isNoneOf keywords = true := by
  intro t ht
  cases cs with
  | nil => cases ht
  | cons c cs =>
    obtain rfl := List.mem_singleton.1 ht
    have hc : c.isDigit = true := h c List.mem_cons_self
    have hhead : (String.ofList ((c :: cs).map Char.toLower)).toList.head? = some c := by
      rw [String.toList_ofList, List.map_cons, List.head?_cons, toLower_of_isDigit hc]
    have hkeywords : ∀ w ∈ keywords, w.toList.head?.any Char.isDigit = false := by decide
    refine ⟨?_, rfl, ?_⟩
    · rw [Symbol.isPlaceholder, hhead, decide_eq_false_iff_not, Option.some.injEq]
      rintro rfl
      cases hc
    · refine Symbol.isNoneOf_word.2 fun hmem => ?_
      have hdigit := hkeywords _ hmem
      rw [hhead, Option.any_some, hc] at hdigit
      cases hdigit

/-- The induction is on the text; the word that has begun has digits only. -/
theorem fits_numeral {cs ds : List Char} (hds : ∀ c ∈ ds, c.isDigit = true)
    (hcs : ∀ c ∈ cs, c.isDigit ∨ c = '-' ∨ c = '.') : ∀ t ∈ scanFrom ds (cs.map .other),
      t.isPlaceholder = false ∧ t.isBracket = false ∧ t.isNoneOf keywords = true := by
  induction cs generalizing ds with
  | nil => exact fits_digits hds
  | cons c cs ih =>
    obtain ⟨hc, hcs⟩ := List.forall_mem_cons.1 hcs
    rw [List.map_cons]
    rcases hc with hc | hc
    · have hword : (Lexeme.other c).wordChar? = some c := by
        rw [Lexeme.wordChar?, isWordChar_of_isDigit hc]
        rfl
      rw [scanFrom, hword]
      exact ih (List.forall_mem_append.2 ⟨hds, by simpa using hc⟩) hcs
    · have hsign : (Lexeme.other c).wordChar? = none ∧ (Lexeme.other c).symbols = [.sign c] ∧
          (Symbol.sign c).isBracket = false := by
        rcases hc with rfl | rfl <;> exact ⟨rfl, rfl, rfl⟩
      obtain ⟨hnone, hsymbols, hbracket⟩ := hsign
      rw [scanFrom_of_none hnone, hsymbols, List.forall_mem_append, List.singleton_append,
        List.forall_mem_cons]
      exact ⟨fits_digits hds, ⟨rfl, hbracket, rfl⟩, ih (by simp) hcs⟩

theorem Numeral.fits (h : Numeral s) : Sql.fits keywords s = true :=
  fits_iff.2 (fits_numeral (by simp) h)

mutual

theorem literal_flat : ∀ v : Value, Flat mode keywords ((literal v).map .token)
  | .null => .plain rfl
  | .boolean b => .plain (by cases b <;> rfl)
  | .int n => .plain (Numeral.int n.toInt).fits
  | .decimal d => .plain (Numeral.decimal d).fits
  | .string s => .text s
  | .json s => .text s
  | .dateTime t => .text t.text
  | .list items => by
    have hclose : Flat mode keywords (plain "]") := .plain rfl
    rw [literal, List.map_cons, List.map_append]
    exact Flat.append (.plain (s := "array[") rfl)
      ((literals_flat items).append hclose (.plain_last rfl)) (.plain_left rfl)
  | .object members => .text _
termination_by structural v => v

theorem literals_flat : ∀ vs : List Value, Flat mode keywords ((literals vs).map .token)
  | [] => .nil
  | v :: vs => by
    rw [literals, List.map_append]
    exact furtherLiterals_flat vs _ (literal_flat v)
termination_by structural vs => vs

theorem furtherLiterals_flat : ∀ (vs : List Value) (ps : List Piece), Flat mode keywords ps →
    Flat mode keywords (ps ++ (furtherLiterals vs).map .token)
  | [], ps, h => by rwa [furtherLiterals, List.map_nil, List.append_nil]
  | v :: vs, ps, h => by
    rw [furtherLiterals, List.map_cons, List.map_append]
    exact h.append (.append (.plain (s := ", ") rfl) (furtherLiterals_flat vs _ (literal_flat v))
      (.plain_left rfl)) (.plain_right rfl)
termination_by structural vs => vs

end

theorem Spells.param_named (v : Value) {type : Option String} (h : ∀ t ∈ type, PlainName t) :
    Spells mode [.param v type] :=
  .param (literal_flat v).spells fun t ht u hu => (fits_iff.1 (h t ht).fits u hu).1

theorem symbolsOf_inline_param (v : Value) (type : Option String) :
    symbolsOf .inline [.param v type] = symbolsOf .inline ((literal v).map .token) := by
  rw [symbolsOf, List.flatMap_singleton, symbolsOf, List.flatMap_map]
  rfl

theorem Flat.inlined (v : Value) {type : Option String} (h : ∀ t ∈ type, PlainName t) :
    Flat .inline keywords [.param v type] := by
  refine ⟨.param_named v h, ?_⟩
  rw [symbolsOf_inline_param]
  exact (literal_flat v).symbols

/-- A parameter is a literal or a value. -/
theorem Flat.param (v : Value) : Flat mode keywords [.param v none] := by
  cases mode with
  | inline => exact inlined v (by simp)
  | bind =>
    refine ⟨.param_named v (by simp), ?_⟩
    simp [symbolsOf, Piece.symbols, Symbol.isBracket, Symbol.isNoneOf]

/-! ## Phrases -/

variable (ρ mode) in
/-- Outside of brackets the pieces have no keywords, and they are not just what stands between two
    brackets. -/
structure Phrase (ps : List Piece) : Prop where
  reads : Reads ρ mode keywords ps
  ne_group : ∀ t ts, partsOf ρ mode ps ≠ [.group t ts]

theorem ne_group_of_mem {parts : List Part} {t : Symbol} (h : .symbol t ∈ parts) (u : Truth)
    (ts : List Symbol) : parts ≠ [.group u ts] := by
  rintro rfl
  cases List.mem_singleton.1 h

/-- A text with symbols has a first one. -/
theorem exists_mem_symbols (h : (plainSymbols s).isEmpty = false) :
    ∃ t, Part.symbol t ∈ (plainSymbols s).map Part.symbol := by
  cases hs : plainSymbols s with
  | nil => rw [hs] at h; cases h
  | cons t ts => exact ⟨t, List.mem_cons_self⟩

namespace Phrase

theorem flat (h : Flat mode keywords ps) : Phrase ρ mode ps := by
  refine ⟨h.reads, fun t ts hgroup => ?_⟩
  have hmem : Part.group t ts ∈ (symbolsOf mode ps).map .symbol := by
    rw [← h.partsOf_eq, hgroup]
    exact List.mem_singleton_self _
  obtain ⟨u, -, hu⟩ := List.mem_map.1 hmem
  cases hu

theorem plain (h : fits keywords s = true) : Phrase ρ mode (plain s) := flat (.plain h)

section
variable {w : String} {words' : List String}

theorem enclosed (hs : s = w ++ "(") (hfits : fits keywords w = true)
    (hname : (plainSymbols w).isEmpty = false) (h : Reads ρ mode words' ps) :
    Phrase ρ mode (Sql.plain s ++ ps ++ Sql.plain ")") := by
  obtain ⟨t, ht⟩ := exists_mem_symbols hname
  refine ⟨.enclosed hs hfits h, ne_group_of_mem (t := t) ?_⟩
  rw [Reads.partsOf_enclosed hs hfits h]
  exact List.mem_append_left _ ht

/-- The call of a function. -/
theorem call (hfits : fits keywords w = true) (hname : (plainSymbols w).isEmpty = false)
    (h : Reads ρ mode words' ps) : Phrase ρ mode (Sql.plain w ++ parens ps) := by
  obtain ⟨t, ht⟩ := exists_mem_symbols hname
  have hw : Reads ρ mode keywords (Sql.plain w) := .plain hfits
  have hargs : Reads ρ mode keywords (parens ps) := h.parens
  refine ⟨hw.append_parens h, ne_group_of_mem (t := t) ?_⟩
  rw [hw.partsOf_append hargs, Reads.partsOf_plain hfits]
  exact List.mem_append_left _ ht

end

/-- A typed parameter is a literal, or a value in a cast. -/
theorem typed (v : Value) {type : String} (h : PlainName type) :
    Phrase ρ mode [.param v (some type)] := by
  have hnamed : ∀ t ∈ some type, PlainName t := by
    rintro t ⟨⟩
    exact h
  cases mode with
  | inline => exact flat (.inlined v hnamed)
  | bind =>
    have hinside : ∀ u ∈ [.value v, .word "as"] ++ plainSymbols type, u.isBracket = false :=
      List.forall_mem_append.2 ⟨by simp [Symbol.isBracket],
        fun u hu => (fits_iff.1 h.fits u hu).2.1⟩
    have hcast : Groups ρ [.word "cast"] [.symbol (.word "cast")] := .symbol rfl
    have hgroups := hcast.append (Groups.of_no_brackets hinside).group
    have hsymbols : symbolsOf .bind [.param v (some type)] =
        [.word "cast"] ++ (.sign '(' ::
          (([.value v, .word "as"] ++ plainSymbols type) ++ [.sign ')'])) := by
      simp [symbolsOf, Piece.symbols]
    rw [← hsymbols] at hgroups
    refine ⟨.intro (.param_named v hnamed) hgroups ?_, ?_⟩
    · intro p hp
      rcases List.mem_cons.1 hp with rfl | hp
      · rfl
      · obtain rfl := List.mem_singleton.1 hp
        rfl
    · rw [partsOf_eq hgroups]
      exact ne_group_of_mem List.mem_cons_self

end Phrase

end

end LateralSql.Sql
