/-
  Conditions are read back with the grouping they have.

  The text of a condition is read with the usual precedence, and worth what the condition is, where
  an atom is worth what its own text is (`Expr.Grouped.truthOf_eq`).  The induction is on the
  condition; its members are read on their own between `and` or `or` (`truthOf_conjunction`,
  `truthOf_disjunction`) and as a whole between brackets (`truthOf_parens`).  The same is true of
  the conditions inside of a select.
-/
import LateralSql.Proofs.Clauses
import LateralSql.Proofs.NormalConditions

namespace LateralSql.Sql

/-! ## Statements of pieces -/

/-- The statement with the given pieces. -/
def statementOf (mode : ParamMode) (ps : List Piece) : Statement :=
  match mode with
  | .inline => ⟨writeAll (inlineTokens ps), []⟩
  | .bind => ⟨writeAll (bindTokens 1 ps), params ps⟩

theorem Select.statement_eq (s : Select) (mode : ParamMode) :
    s.statement mode = statementOf mode s.pieces := by
  cases mode <;> rfl

section
variable {ρ : List Symbol → Truth} {mode : ParamMode} {words : List String}
  {ps : List Piece} {pss : List (List Piece)}

theorem statementOf_text : (statementOf mode ps).text = writeAll (tokens mode 1 ps) := by
  cases mode <;> rfl

theorem statementOf_numbered : Numbered mode (statementOf mode ps).params 1 ps := by
  cases mode with
  | inline => trivial
  | bind => exact ⟨[], [], by simp [statementOf], rfl⟩

/-- The symbols of a statement are those of its pieces. -/
theorem statementOf_symbols (hrenders : Renders ps) (hspells : Spells mode ps) :
    (statementOf mode ps).symbols = some (symbolsOf mode ps) := by
  have hlex : lex (writeAll (tokens mode 1 ps)).toList = some (lexemesOf mode 1 ps) :=
    hrenders mode 1
  rw [Statement.symbols, statementOf_text, hlex, Option.map_some, hspells _ _ statementOf_numbered]

/-! ## Truth of pieces -/

variable (ρ mode) in
/-- The truth of a condition with the given pieces. -/
def truthOf (ps : List Piece) : Truth := disjunctionTruth ρ (partsOf ρ mode ps)

theorem statementOf_truth (hrenders : Renders ps) (h : Reads ρ mode words ps) :
    (statementOf mode ps).truth ρ = some (truthOf ρ mode ps) := by
  rw [Statement.truth, statementOf_symbols hrenders h.spells]
  simp [h.groups.readParts_eq, truthOf]

theorem conjunctionTruth_of_noneOf {parts : List Part}
    (h : ∀ p ∈ parts, p.isNoneOf ["and"] = true) :
    conjunctionTruth ρ parts = negationTruth ρ parts := by
  have hsplit : parts.splitOnP (·.isWord "and") = [parts] :=
    List.splitOnP_eq_singleton fun p hp => Part.isWord_eq_false (h p hp) List.mem_cons_self
  rw [conjunctionTruth, hsplit]
  exact Truth.and_yes _

theorem disjunctionTruth_of_noneOf {parts : List Part}
    (h : ∀ p ∈ parts, p.isNoneOf ["or"] = true) :
    disjunctionTruth ρ parts = conjunctionTruth ρ parts := by
  have hsplit : parts.splitOnP (·.isWord "or") = [parts] :=
    List.splitOnP_eq_singleton fun p hp => Part.isWord_eq_false (h p hp) List.mem_cons_self
  rw [disjunctionTruth, hsplit]
  exact Truth.or_no _

theorem negationTruth_eq {parts : List Part}
    (h : ∀ p ∈ parts.head?, p.isWord "not" = false) :
    negationTruth ρ parts = primaryTruth ρ parts := by
  cases parts with
  | nil => rfl
  | cons p parts => rw [negationTruth, h p rfl, if_neg Bool.false_ne_true]

theorem primaryTruth_eq {parts : List Part} (h : ∀ t ts, parts ≠ [.group t ts]) :
    primaryTruth ρ parts = atomTruth ρ (parts.flatMap Part.symbols) := by
  unfold primaryTruth
  split
  · next t ts => exact absurd rfl (h t ts)
  · rfl

theorem Reads.conjunctionTruth_eq (h : Reads ρ mode reserved ps) :
    conjunctionTruth ρ (partsOf ρ mode ps) = negationTruth ρ (partsOf ρ mode ps) :=
  conjunctionTruth_of_noneOf (h.mono (by decide)).noneOf

theorem Reads.truthOf_eq (h : Reads ρ mode reserved ps) :
    truthOf ρ mode ps = negationTruth ρ (partsOf ρ mode ps) :=
  (disjunctionTruth_of_noneOf (h.mono (by decide)).noneOf).trans h.conjunctionTruth_eq

/-- What stands between the separators is found again. -/
theorem splitOnP_separated {w s : String} (hw : plainSymbols s = [.word w]) (hmem : w ∈ reserved)
    (hopens : opensApart s = true) (hcloses : closesApart s = true) (hfits : fits [] s = true)
    (hne : pss ≠ []) (h : ∀ ps ∈ pss, Reads ρ mode reserved ps) :
    (partsOf ρ mode (separated s pss)).splitOnP (·.isWord w) = pss.map (partsOf ρ mode) := by
  have hsep : partsOf ρ mode (plain s) = [.symbol (.word w)] := by
    rw [Reads.partsOf_plain hfits, hw]
    rfl
  fun_induction separated s pss with
  | case1 => exact absurd rfl hne
  | case2 p =>
    have hp := (h p List.mem_cons_self).noneOf
    exact List.splitOnP_eq_singleton fun q hq => Part.isWord_eq_false (hp q hq) hmem
  | case3 p pss hcons ih =>
    obtain ⟨hp, hpss⟩ := List.forall_mem_cons.1 h
    have hrest : Reads ρ mode [] (separated s pss) :=
      .separated hopens hcloses hfits fun ps hps => (hpss ps hps).mono (List.nil_subset _)
    have hsplain : Reads ρ mode [] (plain s) := .plain hfits
    rw [List.append_assoc, hp.partsOf_append (hsplain.append hrest (.plain_left hcloses)),
      hsplain.partsOf_append hrest, hsep, List.map_cons, List.singleton_append]
    rw [List.splitOnP_append_cons_of_forall_mem
      (fun q hq => Part.isWord_eq_false (hp.noneOf q hq) hmem) _ (by simp [Part.isWord])]
    exact congrArg _ (ih (fun h0 => hcons h0) hpss)

/-- Members with `and` between them. -/
theorem truthOf_conjunction (hne : pss ≠ []) (h : ∀ ps ∈ pss, Reads ρ mode reserved ps) :
    truthOf ρ mode (separated " and " pss) = .all (pss.map (truthOf ρ mode)) := by
  have hreads : Reads ρ mode ["or"] (separated " and " pss) :=
    .separated rfl rfl rfl fun ps hps => (h ps hps).mono (by decide)
  have hsplit := splitOnP_separated (w := "and") (s := " and ") rfl (by decide) rfl rfl rfl hne h
  rw [truthOf, disjunctionTruth_of_noneOf hreads.noneOf, conjunctionTruth, hsplit, List.map_map]
  exact congrArg Truth.all (List.map_congr_left fun ps hps => (h ps hps).truthOf_eq.symm)

/-- Members with `or` between them. -/
theorem truthOf_disjunction (hne : pss ≠ []) (h : ∀ ps ∈ pss, Reads ρ mode reserved ps) :
    truthOf ρ mode (separated " or " pss) = .any (pss.map (truthOf ρ mode)) := by
  have hsplit := splitOnP_separated (w := "or") (s := " or ") rfl (by decide) rfl rfl rfl hne h
  rw [truthOf, disjunctionTruth, hsplit, List.map_map]
  refine congrArg Truth.any (List.map_congr_left fun ps hps => ?_)
  rw [Function.comp_apply, (h ps hps).conjunctionTruth_eq, (h ps hps).truthOf_eq]

/-- Brackets around a condition do not matter to it. -/
theorem truthOf_parens (h : Reads ρ mode words ps) :
    truthOf ρ mode (parens ps) = truthOf ρ mode ps := by
  have hgroup : Reads ρ mode reserved (parens ps) := h.parens
  rw [hgroup.truthOf_eq, h.partsOf_parens]
  rfl

theorem truthOf_not (h : Reads ρ mode words ps) :
    truthOf ρ mode (plain "not" ++ parens ps) = (truthOf ρ mode ps).not := by
  have hfits : fits reserved "not" = true := rfl
  have hnot : Reads ρ mode reserved (plain "not") := .plain hfits
  have hgroup : Reads ρ mode reserved (parens ps) := h.parens
  rw [(hnot.append_parens h).truthOf_eq, hnot.partsOf_append hgroup, Reads.partsOf_plain hfits,
    h.partsOf_parens]
  rfl

/-! ## Conditions -/

/-- No conjunction or disjunction in the expression is empty, and no condition is named. -/
inductive Expr.Grouped : Expr → Prop
  | atom {e : Expr} : e.isAtom = true → Grouped e
  | and {es : List Expr} : es ≠ [] → (∀ e ∈ es, Grouped e) → Grouped (.cond (.and es))
  | or {es : List Expr} : es ≠ [] → (∀ e ∈ es, Grouped e) → Grouped (.cond (.or es))
  | not {e : Expr} : Grouped e → Grouped (.cond (.not e))
  | single {e : Expr} : Grouped e → Grouped (.cond (.single e))
  | always : Grouped (.cond .always)
  | never : Grouped (.cond .never)

theorem exprPieces_eq_map (es : List Expr) : exprPieces es = es.map Expr.pieces := by
  induction es with
  | nil => rfl
  | cons e es ih => rw [exprPieces, ih, List.map_cons]

theorem exprPieces_ne_nil {es : List Expr} (h : es ≠ []) : exprPieces es ≠ [] := by
  rwa [exprPieces_eq_map, Ne, List.map_eq_nil_iff]

theorem exprWords_eq_flatMap (es : List Expr) : exprWords es = es.flatMap Expr.words := by
  induction es with
  | nil => rfl
  | cons e es ih => rw [exprWords, ih, List.flatMap_cons]

theorem joinWords_eq_flatMap (js : List Join) : joinWords js = js.flatMap Join.words := by
  induction js with
  | nil => rfl
  | cons j js ih => rw [joinWords, ih, List.flatMap_cons]

theorem Cond.eq_always {c : Cond} (h : c.isAlways = true) : c = always := by
  cases c with
  | always => rfl
  | _ => cases h

namespace Select

theorem condition_words_subset (s : Select) : s.condition.words ⊆ s.words := by
  obtain ⟨tables, columns, joins, condition, order, limit, offset⟩ := s
  intro w hw
  simp only [words, List.mem_append]
  exact .inl (.inl (.inl (.inr hw)))

theorem on_words_subset (s : Select) {j : Join} (h : j ∈ s.joins) : j.on.words ⊆ s.words := by
  obtain ⟨tables, columns, joins, condition, order, limit, offset⟩ := s
  intro w hw
  have hjoin : w ∈ joinWords joins := by
    obtain ⟨kind, table, on, lateral⟩ := j
    rw [joinWords_eq_flatMap]
    exact List.mem_flatMap.2 ⟨_, h, List.mem_append_right _ hw⟩
  simp only [words, List.mem_append]
  exact .inl (.inl (.inl (.inl (.inr hjoin))))

end Select

namespace Expr

theorem worth_of_isAtom {e : Expr} (h : e.isAtom = true) (v : Expr → Truth) : e.worth v = v e := by
  cases e with
  | cond _ | named _ _ => cases h
  | _ => rfl

theorem unbracketed_of_isAtom {e : Expr} (h : e.isAtom = true) : e.unbracketed = e.pieces := by
  cases e with
  | cond _ | named _ _ => cases h
  | _ => rfl

variable (ρ mode) in
/-- The truth of the text of the expression. -/
def textTruth (e : Expr) : Truth := ((statementOf mode e.pieces).truth ρ).getD .unknown

theorem truth_text {e : Expr} (hnames : ∀ w ∈ e.words, PlainName w) :
    (statementOf mode e.pieces).truth ρ = some (truthOf ρ mode e.pieces) :=
  statementOf_truth (e.renders fun w hw => (hnames w hw).quoteFree).1 (e.readings hnames).reads

theorem textTruth_eq {e : Expr} (hnames : ∀ w ∈ e.words, PlainName w) :
    e.textTruth ρ mode = truthOf ρ mode e.pieces := by
  rw [textTruth, truth_text hnames]
  rfl

/-- The text of an atom is an atom, unless it starts with a negation. -/
theorem truthOf_atom {e : Expr} (hnames : ∀ w ∈ e.words, PlainName w) (hatom : e.isAtom = true)
    (hopens : e.opensNegated = false) :
    truthOf ρ mode e.pieces = atomTruth ρ (symbolsOf mode e.pieces) := by
  have he : e.Readings ρ mode := e.readings hnames
  rw [he.reads.truthOf_eq, negationTruth_eq (he.head hopens), primaryTruth_eq (he.ne_group hatom),
    he.reads.groups.symbols]

theorem truthOf_hasNoRows {s : Select} (hnames : ∀ w ∈ s.words, PlainName w) :
    truthOf ρ mode (hasNoRows s).pieces = (truthOf ρ mode (hasRows s).pieces).not := by
  have hs : Reads ρ mode [] s.pieces := (s.readings hnames).reads
  have hnot : fits reserved "not exists " = true := rfl
  have hexists : fits reserved "exists " = true := rfl
  rw [((hasNoRows s).readings hnames).reads.truthOf_eq,
    ((hasRows s).readings hnames).reads.truthOf_eq, pieces, pieces,
    hs.partsOf_enclosed (s := "not exists (") rfl hnot,
    hs.partsOf_enclosed (s := "exists (") rfl hexists]
  rfl

theorem map_truthOf_exprPieces {es : List Expr} {v : Expr → Truth}
    (hnames : ∀ w ∈ exprWords es, PlainName w)
    (h : ∀ e ∈ es, (∀ w ∈ e.words, PlainName w) → truthOf ρ mode e.pieces = e.worth v) :
    (exprPieces es).map (truthOf ρ mode) = worths v es := by
  rw [exprPieces_eq_map, List.map_map, worths_eq_map]
  refine List.map_congr_left fun e he => h e he fun w hw => hnames w ?_
  rw [exprWords_eq_flatMap]
  exact List.mem_flatMap.2 ⟨e, he, hw⟩

namespace Grouped

/-- The induction is on the condition, with and without the brackets around it. -/
theorem truthOf_eq {e : Expr} (h : e.Grouped) (hnames : ∀ w ∈ e.words, PlainName w) :
    truthOf ρ mode e.pieces = e.worth (textTruth ρ mode) ∧
      truthOf ρ mode e.unbracketed = e.worth (textTruth ρ mode) := by
  induction h with
  | atom hatom =>
    rw [unbracketed_of_isAtom hatom, worth_of_isAtom hatom, textTruth_eq hnames]
    exact ⟨rfl, rfl⟩
  | @and es hne _ ih =>
    have hinside : truthOf ρ mode (separated " and " (exprPieces es)) =
        (Cond.and es).worth (textTruth ρ mode) := by
      rw [truthOf_conjunction (exprPieces_ne_nil hne) (exprPieces_read es hnames),
        map_truthOf_exprPieces hnames fun e he hwords => (ih e he hwords).1]
      rfl
    exact ⟨(truthOf_parens ((Cond.and es).readings hnames).unbracketed).trans hinside, hinside⟩
  | @or es hne _ ih =>
    have hinside : truthOf ρ mode (separated " or " (exprPieces es)) =
        (Cond.or es).worth (textTruth ρ mode) := by
      rw [truthOf_disjunction (exprPieces_ne_nil hne) (exprPieces_read es hnames),
        map_truthOf_exprPieces hnames fun e he hwords => (ih e he hwords).1]
      rfl
    exact ⟨(truthOf_parens ((Cond.or es).readings hnames).unbracketed).trans hinside, hinside⟩
  | @not e _ ih =>
    have hnot : truthOf ρ mode (Cond.not e).pieces = (Cond.not e).worth (textTruth ρ mode) := by
      rw [Cond.pieces_not, truthOf_not (e.readings hnames).unbracketed, (ih hnames).2]
      rfl
    exact ⟨hnot, hnot⟩
  | single _ ih => exact ⟨(ih hnames).1, (ih hnames).1⟩
  | always => exact ⟨rfl, rfl⟩
  | never => exact ⟨rfl, rfl⟩

/-- The text of a grouped condition is worth what the condition is. -/
theorem truth_text {c : Cond} (h : (Expr.cond c).Grouped) (hnames : ∀ w ∈ c.words, PlainName w) :
    (statementOf mode c.pieces).truth ρ = some (c.worth (textTruth ρ mode)) :=
  (Expr.truth_text (e := .cond c) hnames).trans (congrArg some (h.truthOf_eq hnames).1)

end Grouped

end Expr

/-! ## Conditions inside of a select -/

theorem Join.truthOf_onPieces {j : Join} (h : (Expr.cond j.on).Grouped)
    (hnames : ∀ w ∈ j.on.words, PlainName w) :
    truthOf ρ mode j.onPieces = j.on.worth (Expr.textTruth ρ mode) := by
  unfold onPieces
  split
  · next halways =>
    rw [Cond.eq_always halways]
    rfl
  · exact (h.truthOf_eq hnames).1

namespace Select

variable {sel : Select}

theorem conditions_statement (hnames : ∀ w ∈ sel.words, PlainName w) (w : String) :
    (sel.statement mode).conditions ρ w =
      some ((bodiesAfter w (partsOf ρ mode sel.pieces)).map (disjunctionTruth ρ)) := by
  have hreads : Reads ρ mode [] sel.pieces := (sel.readings hnames).reads
  have hrenders : Renders sel.pieces := sel.renders fun w hw => (hnames w hw).quoteFree
  rw [Statement.conditions, sel.statement_eq, statementOf_symbols hrenders hreads.spells]
  simp [hreads.groups.readParts_eq]

theorem whereTruth_statement (hnames : ∀ w ∈ sel.words, PlainName w)
    (h : (Expr.cond sel.condition).Grouped) :
    (sel.statement mode).whereTruth ρ = some (sel.condition.worth (Expr.textTruth ρ mode)) := by
  have hwords : ∀ w ∈ sel.condition.words, PlainName w :=
    fun w hw => hnames w (sel.condition_words_subset hw)
  rw [Statement.whereTruth, conditions_statement hnames, (sel.readings hnames).bodiesAfter_where]
  split
  · next halways =>
    rw [Cond.eq_always halways]
    rfl
  · rw [List.map_singleton, Option.map_some, Truth.all_cons, Truth.all_nil, Truth.and_yes]
    exact congrArg some (h.truthOf_eq hwords).1

theorem onTruths_statement (hnames : ∀ w ∈ sel.words, PlainName w)
    (h : ∀ j ∈ sel.joins, (Expr.cond j.on).Grouped) :
    (sel.statement mode).onTruths ρ =
      some (sel.joins.map fun j => j.on.worth (Expr.textTruth ρ mode)) := by
  rw [Statement.onTruths, conditions_statement hnames, (sel.readings hnames).bodiesAfter_on,
    List.map_map]
  refine congrArg some (List.map_congr_left fun j hj => ?_)
  exact Join.truthOf_onPieces (h j hj) fun w hw => hnames w (sel.on_words_subset hj hw)

end Select

end

/-- **Conditions read back with the same grouping.**  Whatever is true of the atoms, which are told
    apart by their symbols: the text of an atom that does not start with a negation is that atom,
    and the text that there are no rows negates the one that there are.  The text of a condition is
    worth what the condition is, with each atom worth what its own text is.  So is, in the text of a
    select, what follows `where`, which is true where it is missing, and what follows each `on`. -/
theorem conditions_read_back (mode : ParamMode) (ρ : List Symbol → Truth) :
    (∀ e : Expr, (∀ w ∈ e.words, PlainName w) → e.isAtom = true → e.opensNegated = false →
      (statementOf mode e.pieces).truth ρ = some (atomTruth ρ (symbolsOf mode e.pieces))) ∧
    (∀ s : Select, (∀ w ∈ s.words, PlainName w) →
      (statementOf mode (Expr.hasNoRows s).pieces).truth ρ =
        ((statementOf mode (Expr.hasRows s).pieces).truth ρ).map Truth.not) ∧
    (∀ c : Cond, (∀ w ∈ c.words, PlainName w) → (Expr.cond c).Grouped →
      (statementOf mode c.pieces).truth ρ = some (c.worth (Expr.textTruth ρ mode))) ∧
    ∀ s : Select, (∀ w ∈ s.words, PlainName w) → (Expr.cond s.condition).Grouped →
      (∀ j ∈ s.joins, (Expr.cond j.on).Grouped) →
      (s.statement mode).whereTruth ρ = some (s.condition.worth (Expr.textTruth ρ mode)) ∧
      (s.statement mode).onTruths ρ =
        some (s.joins.map fun j => j.on.worth (Expr.textTruth ρ mode)) := by
  refine ⟨fun e hnames hatom hopens => ?_, fun s hnames => ?_, fun c hnames h => ?_,
    fun s hnames hcondition hjoins => ?_⟩
  · rw [Expr.truth_text hnames, Expr.truthOf_atom hnames hatom hopens]
  · rw [Expr.truth_text (e := .hasNoRows s) hnames, Expr.truth_text (e := .hasRows s) hnames,
      Expr.truthOf_hasNoRows hnames]
    rfl
  · exact h.truth_text hnames
  · exact ⟨s.whereTruth_statement hnames hcondition, s.onTruths_statement hnames hjoins⟩

/-- The column has the value of a parameter. -/
def hasValue : Expr := .compare .eq (.column { name := "a" }) (.param (.int 1))

/-- The column is null. -/
def isMissing : Expr := .isNull (.column { name := "b" })

/-- A function is called with the column. -/
def isContained : Expr := .call "ST_Contains" [.column { name := "c" }]

/-- A select whose condition has all connectives, with one join that needs no condition and one on
    a disjunction. -/
def layeredSelect : Select where
  tables := [{ source := .table none "t" }]
  joins := [{ kind := .left, table := { source := .table none "u" }, on := .always },
    { kind := .inner, table := { source := .table none "v" }, on := .or [isMissing, isContained] }]
  condition := .and [.cond (.or [hasValue, isMissing]),
    .cond (.not (.cond (.and [isMissing, isContained])))]

/-- The connectives are found again in the text, each with its members. -/
theorem conditions_read_back_layered :
    (layeredSelect.statement .bind).text = "select * from \"t\" left join \"u\" on true " ++
      "inner join \"v\" on (\"b\" is null or ST_Contains(\"c\")) where " ++
      "((\"a\" = $1 or \"b\" is null) and not(\"b\" is null and ST_Contains(\"c\")))" ∧
    (∀ w ∈ layeredSelect.words, PlainName w) ∧ (Expr.cond layeredSelect.condition).Grouped ∧
    (∀ j ∈ layeredSelect.joins, (Expr.cond j.on).Grouped) ∧
    ∀ ρ : List Symbol → Truth,
      let a := ρ [.ident "a", .sign '=', .value (.int 1)]
      let b := ρ [.ident "b", .word "is", .word "null"]
      let c := ρ [.word "st_contains", .sign '(', .ident "c", .sign ')']
      (layeredSelect.statement .bind).whereTruth ρ = some ((a.or b).and (b.and c).not) ∧
      (layeredSelect.statement .bind).onTruths ρ = some [.yes, b.or c] := by
  have hcontains : PlainName "ST_Contains" := ⟨by decide, rfl, rfl⟩
  have hwords : ∀ w ∈ layeredSelect.words, PlainName w := by
    rw [show layeredSelect.words = ["ST_Contains", "ST_Contains"] from rfl]
    simpa using hcontains
  have hmissing : isMissing.Grouped := .atom rfl
  have hcontained : isContained.Grouped := .atom rfl
  have hcondition : (Expr.cond layeredSelect.condition).Grouped := by
    refine .and (by simp) (List.forall_mem_cons.2 ⟨.or (by simp) ?_, List.forall_mem_cons.2
      ⟨.not (.and (by simp) ?_), by simp⟩⟩)
    · exact List.forall_mem_cons.2 ⟨.atom rfl, by simpa using hmissing⟩
    · exact List.forall_mem_cons.2 ⟨hmissing, by simpa using hcontained⟩
  have hjoins : ∀ j ∈ layeredSelect.joins, (Expr.cond j.on).Grouped := by
    refine List.forall_mem_cons.2 ⟨.always, List.forall_mem_cons.2 ⟨.or (by simp) ?_, by simp⟩⟩
    exact List.forall_mem_cons.2 ⟨hmissing, by simpa using hcontained⟩
  refine ⟨by decide +kernel, hwords, hcondition, hjoins, ?_⟩
  intro ρ a b c
  obtain ⟨hatom, -, -, hselect⟩ := conditions_read_back .bind ρ
  have ha : hasValue.textTruth ρ .bind = a := by
    rw [Expr.textTruth, hatom hasValue (by simp [hasValue, Expr.words]) rfl rfl]
    rfl
  have hb : isMissing.textTruth ρ .bind = b := by
    rw [Expr.textTruth, hatom isMissing (by simp [isMissing, Expr.words]) rfl rfl]
    rfl
  have hc : isContained.textTruth ρ .bind = c := by
    rw [Expr.textTruth, hatom isContained (by simpa [isContained, Expr.words, exprWords]) rfl rfl]
    rfl
  obtain ⟨hwhere, hon⟩ := hselect layeredSelect hwords hcondition hjoins
  rw [hwhere, hon, ← ha, ← hb, ← hc]
  constructor
  · simp [layeredSelect, Cond.worth, worths, Expr.worth, isMissing, isContained, hasValue]
  · simp [layeredSelect, Cond.worth, worths, Expr.worth, isMissing, isContained]

end LateralSql.Sql
