/-
  Relations seen from the other side.

  A field whose relation another field owns resolves if and only if its owner does, and then to the
  owner's columns with the two sides exchanged (`Topology.swap`).  What ties a child to its parent
  is evaluated where both are bound to a row each (`Correlation.relates`); the two fields tie the
  same pairs of rows (`inverse_mirrors_owner`).
-/
import LateralSql.Proofs.FilterMeaning
import LateralSql.Proofs.KeyedLists

namespace LateralSql

open Sql (Cond)

/-- The same columns with parent and child exchanged. -/
def Topology.swap : Topology → Topology
  | direct pairs => direct (pairs.map Prod.swap)
  | junction table parent child => junction table child parent

/-- Whether what ties a child to its parent holds of the rows that are bound: with some rows of the
    joined tables they satisfy all conditions. -/
def Correlation.relates (db : Database) (r : Correlation) (env : Bindings) : Option Bool := do
  let joined ← Sql.bindJoins db r.joins [env]
  return !(← keep (r.condition.truth db) joined).isEmpty

/-! ## Owners -/

namespace Schema

/-- An entity of an accepted schema is found under its name. -/
theorem entity_of_mem {es : List Entity} {s : Schema} (h : ofEntities es = .ok s) {e : Entity}
    (he : e ∈ s.entities) : s.entity e.name = .ok e := by
  obtain ⟨_, -, h⟩ := bind_ok.1 h
  obtain rfl := pure_ok.1 h
  exact entity_ok.2 ((find?_key (lastBy_nodup Entity.name es)).2 ⟨he, rfl⟩)

/-- The owner of an inverse relation exists, owns a relation and points back. -/
theorem exists_owner {s : Schema} (h : s.check = .ok ()) {e : Entity} (he : e ∈ s.entities)
    {f : ObjectField} (hf : .object f ∈ e.fields) {owner : String}
    (hr : f.relation = some (.mappedBy owner)) :
    ∃ target g, s.entity f.target = .ok target ∧ target.objectField owner = .ok g ∧
      g.target = e.name ∧
      ((∃ js, g.relation = some (.joinColumns js)) ∨ ∃ j, g.relation = some (.joinTable j)) := by
  obtain ⟨target, ht, howner⟩ := checkField_ok.1 (checkField_of_check h he hf)
  obtain ⟨g, hg, howns, hback⟩ := howner owner hr
  exact ⟨target, g, ht, hg, hback, howns.cases⟩

end Schema

/-! ## Links -/

section
variable {s : Schema} {e target : Entity} {f g : ObjectField} {name : String}

theorem Link.resolve_iff {l : Link} : Link.resolve s e f = .ok l ↔ Link.Resolved s e f l := by
  refine ⟨Link.resolved_of_resolve, fun h => ?_⟩
  unfold Link.resolve
  cases h with
  | joinColumns ht hr hpairs =>
    rw [ht, hr]
    exact bind_ok.2 ⟨_, rfl, bind_ok.2 ⟨_, lift_model_ok.2 hpairs, rfl⟩⟩
  | joinTable ht hr hparent hchild =>
    rw [ht, hr]
    exact bind_ok.2 ⟨_, rfl, bind_ok.2 ⟨_, lift_model_ok.2 hparent,
      bind_ok.2 ⟨_, lift_model_ok.2 hchild, rfl⟩⟩⟩
  | ownedColumns ht hr hg hgr hpairs =>
    rw [ht, hr]
    refine bind_ok.2 ⟨_, rfl, bind_ok.2 ⟨_, lift_model_ok.2 hg, ?_⟩⟩
    rw [hgr]
    exact bind_ok.2 ⟨_, lift_model_ok.2 hpairs, rfl⟩
  | ownedTable ht hr hg hgr hparent hchild =>
    rw [ht, hr]
    refine bind_ok.2 ⟨_, rfl, bind_ok.2 ⟨_, lift_model_ok.2 hg, ?_⟩⟩
    rw [hgr]
    exact bind_ok.2 ⟨_, lift_model_ok.2 hparent, bind_ok.2 ⟨_, lift_model_ok.2 hchild, rfl⟩⟩

/-- An inverse field has the link of its owner from the other side. -/
theorem Link.Resolved.owner (hr : f.relation = some (.mappedBy name))
    (ht : s.entity f.target = .ok target) (hg : target.objectField name = .ok g)
    (hback : s.entity g.target = .ok e) {l : Link} (h : Link.Resolved s e f l) :
    ∃ l', Link.Resolved s target g l' ∧ l.topology = l'.topology.swap := by
  cases h with
  | joinColumns _ hr' _ => cases hr.symm.trans hr'
  | joinTable _ hr' _ _ => cases hr.symm.trans hr'
  | ownedColumns ht' hr' hg' hgr hpairs =>
    cases hr.symm.trans hr'
    cases ht.symm.trans ht'
    cases hg.symm.trans hg'
    exact ⟨_, .joinColumns hback hgr hpairs, rfl⟩
  | ownedTable ht' hr' hg' hgr hparent hchild =>
    cases hr.symm.trans hr'
    cases ht.symm.trans ht'
    cases hg.symm.trans hg'
    exact ⟨_, .joinTable hback hgr hchild hparent, rfl⟩

theorem Link.Resolved.inverse (hr : f.relation = some (.mappedBy name))
    (ht : s.entity f.target = .ok target) (hg : target.objectField name = .ok g)
    (hback : s.entity g.target = .ok e)
    (howns : (∃ js, g.relation = some (.joinColumns js)) ∨ ∃ j, g.relation = some (.joinTable j))
    {l : Link} (h : Link.Resolved s target g l) : ∃ l', Link.Resolved s e f l' := by
  cases h with
  | joinColumns hback' hgr hpairs =>
    cases hback.symm.trans hback'
    exact ⟨_, .ownedColumns ht hr hg hgr hpairs⟩
  | joinTable hback' hgr hparent hchild =>
    cases hback.symm.trans hback'
    exact ⟨_, .ownedTable ht hr hg hgr hchild hparent⟩
  | ownedColumns _ hgr _ _ _ => rcases howns with ⟨_, h⟩ | ⟨_, h⟩ <;> cases hgr.symm.trans h
  | ownedTable _ hgr _ _ _ _ => rcases howns with ⟨_, h⟩ | ⟨_, h⟩ <;> cases hgr.symm.trans h

end

/-! ## Correlations -/

section
variable {c : Compiler} {db : Database} {env : Bindings}

theorem Correlation.relates_of_condition {d : Cond} {columns : List Sql.Column} {t : Truth}
    (hd : d.truth db env = some t) :
    Correlation.relates db ⟨[], d, columns⟩ env = some (decide (t = .yes)) := by
  simp only [Correlation.relates, Sql.bindJoins, Option.bind_eq_bind, Option.bind_some, keep, hd]
  by_cases h : t = .yes <;> simp [h]

/-- With a joined table, both the condition of the join and that of the rows have to hold. -/
theorem Correlation.relates_of_join {t : TableRef} {joined : String} {on d : Cond}
    {columns : List Sql.Column} {p q : Row → Truth}
    (hon : ∀ row, on.truth db ((joined, row) :: env) = some (p row))
    (hd : ∀ row, d.truth db ((joined, row) :: env) = some (q row)) :
    Correlation.relates db ⟨[⟨.inner, (c.table t).as joined, on, false⟩], d, columns⟩ env =
      some ((c.rows db t).any fun row => p row = .yes && q row = .yes) := by
  have hkept : keep (on.truth db) ((c.rows db t).map fun row => (joined, row) :: env) =
      some (((c.rows db t).filter (p · = .yes)).map fun row => (joined, row) :: env) :=
    keep_map fun row _ => hon row
  simp only [Correlation.relates, Sql.bindJoins, List.mapM_cons, List.mapM_nil, bind_table, hkept,
    Option.bind_eq_bind, Option.bind_some, Option.pure_def, List.flatten_cons, List.flatten_nil,
    List.append_nil, keep_map fun row _ => hd row]
  refine congrArg some (not_isEmpty_map_filter.trans ?_)
  rw [List.any_filter]

end

/-- The row that is read under a name, `row` unless the table `joined`, bound to `other`, has it. -/
def shadowed (name joined : String) (row other : Row) : Row := if name = joined then other else row

theorem lookup_shadowed {env : Bindings} {name joined : String} {row : Row}
    (h : env.lookup name = some row) (other : Row) :
    List.lookup name ((joined, other) :: env) = some (shadowed name joined row other) := by
  rw [List.lookup_cons, shadowed]
  by_cases heq : name = joined
  · simp [heq]
  · rw [beq_false_of_ne heq, if_neg heq]
    exact h

namespace Link

/-- Whether a link relates two rows that are read as `parent` and `child`, where the next name is
    that of the junction. -/
def relatesAs (c : Compiler) (db : Database) (n : Names) (parent child : String) (l : Link)
    (row other : Row) : Bool :=
  match l.topology with
  | .direct pairs => agree db pairs row other
  | .junction t toParent toChild => (c.rows db t).any fun junction =>
    agree db toParent junction (shadowed parent (Names.tableName (n.tables + 1)) row junction) &&
      agree db toChild junction (shadowed child (Names.tableName (n.tables + 1)) other junction)

variable {c : Compiler} {db : Database} {n n' : Names} {parent child : String} {row other : Row}

/-- No name that has been handed out is that of the junction. -/
theorem relatesAs_of_past (l : Link) (hparent : n.Past parent) (hchild : n.Past child) :
    l.relatesAs c db n parent child row other = l.relates c db row other := by
  have hne {name : String} (h : n.Past name) : name ≠ Names.tableName (n.tables + 1) :=
    h _ (Nat.lt_succ_self _)
  unfold relatesAs relates
  cases l.topology with
  | direct pairs => rfl
  | junction t toParent toChild => simp only [shadowed, hne hparent, hne hchild, if_false]

theorem relatesAs_swap {l l' : Link} (h : l.topology = l'.topology.swap) :
    l.relatesAs c db n parent child row other = l'.relatesAs c db n child parent other row := by
  unfold relatesAs
  rw [h]
  cases l'.topology with
  | direct pairs => exact agree_swap db pairs row other
  | junction t toParent toChild => simp only [Topology.swap, Bool.and_comm]

/-- **What a correlation relates.** -/
theorem correlate_relates (l : Link) {env : Bindings} (hparent : env.lookup parent = some row)
    (hchild : env.lookup child = some other) {r : Correlation}
    (h : l.correlate c parent child n = .ok (r, n')) :
    r.relates db env = some (l.relatesAs c db n parent child row other) := by
  unfold relatesAs
  rcases correlate_cases h with
    ⟨pairs, htop, rfl, rfl⟩ | ⟨t, toParent, toChild, htop, junction, hfresh, rfl⟩
  · rw [htop, Correlation.relates_of_condition (equalities_truth hchild hparent _)]
    simp only [all_equal_iff_agree, agree_swap, Bool.decide_eq_true]
  · obtain ⟨rfl, rfl⟩ := freshTable_run.1 hfresh
    -- the junction is bound last, so it hides a row that is read under the same name
    have hjunction (j : Row) :
        List.lookup (Names.tableName (n.tables + 1)) ((Names.tableName (n.tables + 1), j) :: env) =
          some j := List.lookup_cons_self
    rw [htop, Correlation.relates_of_join
      (fun j => equalities_truth (hjunction j) (lookup_shadowed hchild j) _)
      (fun j => equalities_truth (hjunction j) (lookup_shadowed hparent j) _)]
    simp only [all_equal_iff_agree, Bool.decide_eq_true, Bool.and_comm]

theorem exists_correlate (l : Link) (c : Compiler) (parent child : String) (n : Names) :
    ∃ r n', l.correlate c parent child n = .ok (r, n') := by
  unfold correlate
  cases l.topology with
  | direct pairs => exact ⟨_, _, rfl⟩
  | junction t toParent toChild => exact ⟨_, _, rfl⟩

end Link

/-- **Inverse relations mirror their owners.**  In an accepted schema, a field of `e` that names its
    owner has one: a field `g` of its target.  It has a link if and only if `g` has, with the same
    columns from the other side.  Under all names `a` and `b` that the two entities are read under,
    the two correlations hold of the same rows; and these are the rows that the relation declares,
    if the names are none that are handed out later. -/
theorem inverse_mirrors_owner {c : Compiler} {es : List Entity}
    (hs : Schema.ofEntities es = .ok c.schema) {e : Entity} (he : e ∈ c.schema.entities)
    {f : ObjectField} (hf : .object f ∈ e.fields) {name : String}
    (hr : f.relation = some (.mappedBy name)) :
    ∃ target g, c.schema.entity f.target = .ok target ∧ target.objectField name = .ok g ∧
      ((∃ l, Link.resolve c.schema e f = .ok l) ↔ ∃ l, Link.resolve c.schema target g = .ok l) ∧
      ∀ lf lg, Link.resolve c.schema e f = .ok lf → Link.resolve c.schema target g = .ok lg →
        lf.topology = lg.topology.swap ∧
        ∀ (db : Database) (a b : String) (n : Names) (env : Bindings) (row other : Row),
          env.lookup a = some row → env.lookup b = some other →
          ∃ rf nf rg ng, lf.correlate c a b n = .ok (rf, nf) ∧ lg.correlate c b a n = .ok (rg, ng) ∧
            ∃ related, rf.relates db env = some related ∧ rg.relates db env = some related ∧
              (n.Past a → n.Past b → related = f.relates c db e row other) := by
  obtain ⟨target, g, ht, hg, hback, howns⟩ :=
    Schema.exists_owner (Schema.check_of_ofEntities hs) he hf hr
  have hentity := Schema.entity_of_mem hs he
  rw [← hback] at hentity
  refine ⟨target, g, ht, hg, ⟨?_, ?_⟩, fun lf lg hlf hlg => ?_⟩
  · rintro ⟨l, hl⟩
    obtain ⟨l', hl', -⟩ := (Link.resolve_iff.1 hl).owner hr ht hg hentity
    exact ⟨l', Link.resolve_iff.2 hl'⟩
  · rintro ⟨l, hl⟩
    obtain ⟨l', hl'⟩ := (Link.resolve_iff.1 hl).inverse hr ht hg hentity howns
    exact ⟨l', Link.resolve_iff.2 hl'⟩
  · obtain ⟨l, hl, hswap⟩ := (Link.resolve_iff.1 hlf).owner hr ht hg hentity
    obtain rfl : l = lg := Except.ok.inj ((Link.resolve_iff.2 hl).symm.trans hlg)
    refine ⟨hswap, fun db a b n env row other hrow hother => ?_⟩
    obtain ⟨rf, nf, hrf⟩ := lf.exists_correlate c a b n
    obtain ⟨rg, ng, hrg⟩ := l.exists_correlate c b a n
    refine ⟨rf, nf, rg, ng, hrf, hrg, _, lf.correlate_relates hrow hother hrf, ?_,
      fun ha hb => ?_⟩
    · rw [l.correlate_relates hother hrow hrg, Link.relatesAs_swap hswap]
    · rw [lf.relatesAs_of_past ha hb,
        Link.relates_of_resolve hs (Schema.entity_of_mem hs he) hf hlf]

/-! ## Styles -/

/-- The beers of a style, by the field of a beer that owns the relation. -/
def beersOfStyle : ObjectField where
  name := "beers"
  target := "Beer"
  isList := true
  relation := some (.mappedBy "styles")

/-- A style that also has its beers. -/
def taggedStyle : Entity := { style with fields := style.fields ++ [.object beersOfStyle] }

/-- Breweries where the relation of beers and styles has a field on both sides. -/
def taggedBreweries : Compiler := { breweries with schema := ⟨[brewery, beer, taggedStyle]⟩ }

/-- The only style and the only beer are related, whichever is the parent. -/
theorem inverse_mirrors_owner_styles :
    ∃ (g : ObjectField) (lf lg : Link) (rf rg : Correlation) (nf ng : Names),
      beer.objectField "styles" = .ok g ∧
      Link.resolve taggedBreweries.schema taggedStyle beersOfStyle = .ok lf ∧
      Link.resolve taggedBreweries.schema beer g = .ok lg ∧
      lf.topology = .junction { name := "beer_style" } [("style_id", "id")] [("beer_id", "id")] ∧
      lf.topology = lg.topology.swap ∧
      lf.correlate taggedBreweries "t1" "t2" ⟨2, 0⟩ = .ok (rf, nf) ∧
      lg.correlate taggedBreweries "t2" "t1" ⟨2, 0⟩ = .ok (rg, ng) ∧
      rf.relates stock [("t1", [("id", .int 3)]), ("t2", [("id", .int 7)])] = some true ∧
      rg.relates stock [("t1", [("id", .int 3)]), ("t2", [("id", .int 7)])] = some true := by
  have hs : Schema.ofEntities [brewery, beer, taggedStyle] = .ok taggedBreweries.schema := rfl
  obtain ⟨target, g, ht, hg, hresolve, hlinks⟩ := inverse_mirrors_owner hs (e := taggedStyle)
    (by simp [taggedBreweries]) (f := beersOfStyle) (by simp [taggedStyle]) rfl
  obtain ⟨lf, hlf⟩ : ∃ l, Link.resolve taggedBreweries.schema taggedStyle beersOfStyle = .ok l :=
    ⟨_, rfl⟩
  obtain rfl : beer = target := Except.ok.inj ht
  obtain ⟨lg, hlg⟩ := hresolve.1 ⟨lf, hlf⟩
  obtain ⟨hswap, hrows⟩ := hlinks lf lg hlf hlg
  obtain ⟨rf, nf, rg, ng, hrf, hrg, related, hfRows, hgRows, hdeclared⟩ :=
    hrows stock "t1" "t2" ⟨2, 0⟩ [("t1", [("id", .int 3)]), ("t2", [("id", .int 7)])] _ _ rfl rfl
  obtain rfl : related = true :=
    hdeclared (Names.past_tableName (k := 1) (by decide)) (Names.past_tableName (k := 2) le_rfl)
  refine ⟨g, lf, lg, rf, rg, nf, ng, hg, hlf, hlg, ?_, hswap, hrf, hrg, hfRows, hgRows⟩
  obtain rfl := Except.ok.inj hlf
  rfl

end LateralSql
