/-
  Related rows.

  Which rows an object field relates is read off its declaration (`ObjectField.relates`): by
  join columns, through a row of a join table, or, for a field that another one owns, by
  what that one declares, from the other side.  A `Link` relates rows by pairs of columns
  (`Link.relates`).  In an accepted schema the two agree (`Link.relates_of_resolve`).
-/
import LateralSql.Proofs.Evaluation
import LateralSql.Proofs.Runs

namespace LateralSql

/-! ## Declared relations -/

/-- The rows of a table of the model. -/
def Compiler.rows (c : Compiler) (db : Database) (t : TableRef) : List Row :=
  db.rows (t.schema <|> c.settings.defaultSchema) t.name

/-- The join column of `row` equals the column of `e` that it refers to in `target`. -/
def JoinColumn.refersTo (db : Database) (e : Entity) (row target : Row) (j : JoinColumn) : Bool :=
  match j.referencedColumn e with
  | .ok column => db.equal (row.get j.name) (target.get column) = .yes
  | .error _ => false

/-- Whether a relation declared by `owner` holds between a row of `owner` and one of `target`. -/
def Relation.holds (c : Compiler) (db : Database) (owner target : Entity) (row other : Row) :
    Relation → Bool
  | .joinColumns js => js.all (·.refersTo db target row other)
  | .joinTable t => (c.rows db t.table).any fun junction =>
    t.joinColumns.all (·.refersTo db owner junction row) &&
      t.inverseJoinColumns.all (·.refersTo db target junction other)
  | .mappedBy _ => false

/-- Whether the field `f` of `e` relates a row of `e` to one of its target. -/
def ObjectField.relates (c : Compiler) (db : Database) (e : Entity) (f : ObjectField)
    (row other : Row) : Bool :=
  match c.schema.entity f.target, f.relation with
  | .ok target, some (.mappedBy owner) =>
    match target.objectField owner with
    | .ok g =>
      match c.schema.entity g.target, g.relation with
      | .ok back, some relation => relation.holds c db target back other row
      | _, _ => false
    | .error _ => false
  | .ok target, some relation => relation.holds c db e target row other
  | _, _ => false

/-! ## Links -/

/-- The columns of each pair have equal values. -/
def agree (db : Database) (pairs : List (String × String)) (l r : Row) : Bool :=
  pairs.all fun p => db.equal (l.get p.1) (r.get p.2) = .yes

/-- Whether a link relates a row of the parent to one of the child. -/
def Link.relates (c : Compiler) (db : Database) (l : Link) (row other : Row) : Bool :=
  match l.topology with
  | .direct pairs => agree db pairs row other
  | .junction t toParent toChild => (c.rows db t).any fun junction =>
    agree db toParent junction row && agree db toChild junction other

theorem agree_swap (db : Database) (pairs : List (String × String)) (l r : Row) :
    agree db (pairs.map Prod.swap) l r = agree db pairs r l := by
  simp only [agree, List.all_map, Function.comp_def, Prod.fst_swap, Prod.snd_swap,
    db.equal_comm (l.get _)]

/-- The pairs of join columns agree where the join columns refer. -/
theorem agree_pairs (db : Database) {e : Entity} {js : List JoinColumn}
    {pairs : List (String × String)} (h : JoinColumn.pairs e js = .ok pairs) (row other : Row) :
    agree db pairs row other = js.all (·.refersTo db e row other) := by
  unfold JoinColumn.pairs at h
  induction js generalizing pairs with
  | nil => cases h; rfl
  | cons j js ih =>
    obtain ⟨p, ps, hp, hps, rfl⟩ := mapM_cons_ok.1 h
    obtain ⟨column, hc, hp⟩ := bind_ok.1 hp
    obtain rfl := pure_ok.1 hp
    have htail := ih hps
    rw [agree] at htail ⊢
    rw [List.all_cons, List.all_cons, htail, JoinColumn.refersTo, hc]

/-! ## Resolution -/

/-- The links of a field, by the four ways in which its relation may be declared. -/
inductive Link.Resolved (s : Schema) (parent : Entity) (f : ObjectField) : Link → Prop
  | joinColumns {child : Entity} {js : List JoinColumn} {pairs : List (String × String)} :
      s.entity f.target = .ok child → f.relation = some (.joinColumns js) →
      JoinColumn.pairs child js = .ok pairs →
      Resolved s parent f ⟨child, .direct pairs, js.map (·.referencedType child)⟩
  | joinTable {child : Entity} {j : JoinTable} {toParent toChild : List (String × String)} :
      s.entity f.target = .ok child → f.relation = some (.joinTable j) →
      JoinColumn.pairs parent j.joinColumns = .ok toParent →
      JoinColumn.pairs child j.inverseJoinColumns = .ok toChild →
      Resolved s parent f
        ⟨child, .junction j.table toParent toChild, j.joinColumns.map (·.referencedType parent)⟩
  | ownedColumns {child : Entity} {owner : String} {g : ObjectField} {js : List JoinColumn}
      {pairs : List (String × String)} :
      s.entity f.target = .ok child → f.relation = some (.mappedBy owner) →
      child.objectField owner = .ok g → g.relation = some (.joinColumns js) →
      JoinColumn.pairs parent js = .ok pairs →
      Resolved s parent f
        ⟨child, .direct (pairs.map Prod.swap), js.map (·.referencedType parent)⟩
  | ownedTable {child : Entity} {owner : String} {g : ObjectField} {j : JoinTable}
      {toParent toChild : List (String × String)} :
      s.entity f.target = .ok child → f.relation = some (.mappedBy owner) →
      child.objectField owner = .ok g → g.relation = some (.joinTable j) →
      JoinColumn.pairs parent j.inverseJoinColumns = .ok toParent →
      JoinColumn.pairs child j.joinColumns = .ok toChild →
      Resolved s parent f
        ⟨child, .junction j.table toParent toChild,
          j.inverseJoinColumns.map (·.referencedType parent)⟩

theorem Link.resolved_of_resolve {s : Schema} {parent : Entity} {f : ObjectField} {l : Link}
    (h : Link.resolve s parent f = .ok l) : Link.Resolved s parent f l := by
  unfold Link.resolve at h
  simp only [bind_ok, lift_model_ok] at h
  obtain ⟨child, hchild, h⟩ := h
  split at h
  · exact (throw_ok.1 h).elim
  · next js hr =>
    obtain ⟨pairs, hp, h⟩ := bind_ok.1 h
    obtain rfl := pure_ok.1 h
    exact .joinColumns hchild hr (lift_model_ok.1 hp)
  · next j hr =>
    simp only [bind_ok, lift_model_ok] at h
    obtain ⟨toParent, hp, toChild, hc, h⟩ := h
    obtain rfl := pure_ok.1 h
    exact .joinTable hchild hr hp hc
  · next owner hr =>
    obtain ⟨g, hg, h⟩ := bind_ok.1 h
    rw [lift_model_ok] at hg
    split at h
    · next js hgr =>
      obtain ⟨pairs, hp, h⟩ := bind_ok.1 h
      obtain rfl := pure_ok.1 h
      exact .ownedColumns hchild hr hg hgr (lift_model_ok.1 hp)
    · next j hgr =>
      simp only [bind_ok, lift_model_ok] at h
      obtain ⟨toParent, hp, toChild, hc, h⟩ := h
      obtain rfl := pure_ok.1 h
      exact .ownedTable hchild hr hg hgr hp hc
    · exact (throw_ok.1 h).elim

theorem Link.entity_of_resolve {s : Schema} {parent : Entity} {f : ObjectField} {l : Link}
    (h : Link.resolve s parent f = .ok l) : s.entity f.target = .ok l.child := by
  cases Link.resolved_of_resolve h <;> assumption

/-! ## Accepted schemas -/

namespace Entity

variable {e : Entity} {name : String}

theorem field_ok {f : Field} :
    e.field name = .ok f ↔ e.fields.find? (·.name = name) = some f := by
  unfold field
  split
  · next hfind => rw [hfind, Except.ok.injEq, Option.some.injEq]
  · next hfind => simp [hfind]

theorem scalarField_ok {f : ScalarField} :
    e.scalarField name = .ok f ↔ e.field name = .ok (.scalar f) := by
  rw [scalarField, bind_ok]
  constructor
  · rintro ⟨g, hg, h⟩
    cases g with
    | scalar g => rw [hg, Except.ok.inj h]
    | object g => cases h
  · exact fun h => ⟨_, h, rfl⟩

theorem objectField_ok {f : ObjectField} :
    e.objectField name = .ok f ↔ e.field name = .ok (.object f) := by
  rw [objectField, bind_ok]
  constructor
  · rintro ⟨g, hg, h⟩
    cases g with
    | object g => rw [hg, Except.ok.inj h]
    | scalar g => cases h
  · exact fun h => ⟨_, h, rfl⟩

theorem mem_of_field {f : Field} (h : e.field name = .ok f) : f ∈ e.fields :=
  List.mem_of_find?_eq_some (field_ok.1 h)

theorem mem_of_objectField {f : ObjectField} (h : e.objectField name = .ok f) :
    .object f ∈ e.fields :=
  mem_of_field (objectField_ok.1 h)

end Entity

/-- The field has a relation, and declares it itself. -/
def ObjectField.Owns (f : ObjectField) : Prop :=
  ∃ r, f.relation = some r ∧ ∀ owner, r ≠ .mappedBy owner

theorem ObjectField.Owns.cases {f : ObjectField} (h : f.Owns) :
    (∃ js, f.relation = some (.joinColumns js)) ∨ ∃ j, f.relation = some (.joinTable j) := by
  obtain ⟨r, hr, hown⟩ := h
  cases r with
  | joinColumns js => exact .inl ⟨js, hr⟩
  | joinTable j => exact .inr ⟨j, hr⟩
  | mappedBy owner => exact absurd rfl (hown owner)

namespace Schema

variable {s : Schema} {e : Entity} {name : String}

theorem entity_ok :
    s.entity name = .ok e ↔ s.entities.find? (·.name = name) = some e := by
  unfold entity
  split
  · next hfind => rw [hfind, Except.ok.injEq, Option.some.injEq]
  · next hfind => simp [hfind]

theorem mem_of_entity (h : s.entity name = .ok e) : e ∈ s.entities ∧ e.name = name :=
  ⟨List.mem_of_find?_eq_some (entity_ok.1 h), by simpa using List.find?_some (entity_ok.1 h)⟩

theorem entity_name (h : s.entity name = .ok e) : s.entity e.name = .ok e := by
  rw [(mem_of_entity h).2, h]

/-- A field is accepted if its target exists and, for an inverse relation, has an owner that points
    back. -/
theorem checkField_ok {f : ObjectField} : s.checkField e f = .ok () ↔
    ∃ target, s.entity f.target = .ok target ∧ ∀ owner, f.relation = some (.mappedBy owner) →
      ∃ g, target.objectField owner = .ok g ∧ g.Owns ∧ g.target = e.name := by
  rw [checkField, bind_ok]
  refine exists_congr fun target => and_congr_right fun _ => ?_
  split
  · next inverse hr =>
    simp only [hr, Option.some.injEq, Relation.mappedBy.injEq, forall_eq', bind_ok]
    refine exists_congr fun g => and_congr_right fun _ => ?_
    split
    · next hnone => simp [throw_ok, ObjectField.Owns, hnone]
    · next hinverse => simp [throw_ok, ObjectField.Owns, hinverse]
    · next r hown hr =>
      have howns : g.Owns := ⟨r, hr, hown⟩
      by_cases hback : g.target = e.name
      · simp [hback, howns, pure_ok]
      · simp [hback, throw_ok]
  · next hother => exact ⟨fun _ owner hr => absurd hr (hother owner), fun _ => rfl⟩

theorem checkEntity_ok : s.checkEntity e = .ok () ↔
    (∀ k ∈ e.keys, ∃ f, e.scalarField k = .ok f) ∧
      ∀ f, .object f ∈ e.fields → s.checkField e f = .ok () := by
  rw [checkEntity, bind_ok]
  constructor
  · rintro ⟨fs, hkeys, hfields⟩
    exact ⟨exists_mapM_ok.1 ⟨fs, hkeys⟩, fun f hf => forM_ok.1 hfields _ hf⟩
  · rintro ⟨hkeys, hfields⟩
    obtain ⟨fs, hkeys⟩ := exists_mapM_ok.2 hkeys
    refine ⟨fs, hkeys, forM_ok.2 fun f hf => ?_⟩
    cases f with
    | object f => exact hfields f hf
    | scalar f => rfl

theorem check_of_ofEntities {es : List Entity} (h : ofEntities es = .ok s) : s.check = .ok () := by
  obtain ⟨_, hcheck, h⟩ := bind_ok.1 h
  obtain rfl := pure_ok.1 h
  exact hcheck

theorem checkField_of_check (h : s.check = .ok ()) (he : e ∈ s.entities) {f : ObjectField}
    (hf : .object f ∈ e.fields) : s.checkField e f = .ok () :=
  (checkEntity_ok.1 (forM_ok.1 h e he)).2 f hf

/-- **The owner of an inverse relation points back.** -/
theorem owner_of_mappedBy (h : s.check = .ok ()) (he : e ∈ s.entities) {f : ObjectField}
    (hf : .object f ∈ e.fields) {owner : String} (hr : f.relation = some (.mappedBy owner))
    {target : Entity} (ht : s.entity f.target = .ok target) {g : ObjectField}
    (hg : target.objectField owner = .ok g) : g.target = e.name := by
  obtain ⟨target', ht', howner⟩ := checkField_ok.1 (checkField_of_check h he hf)
  obtain rfl := Except.ok.inj (ht.symm.trans ht')
  obtain ⟨g', hg', -, hback⟩ := howner owner hr
  obtain rfl := Except.ok.inj (hg.symm.trans hg')
  exact hback

end Schema

/-- **A resolved link relates the rows that its field declares.** -/
theorem Link.relates_of_resolve {c : Compiler} {es : List Entity}
    (hs : Schema.ofEntities es = .ok c.schema) {e : Entity} (he : c.schema.entity e.name = .ok e)
    {f : ObjectField} (hf : .object f ∈ e.fields) {l : Link}
    (hl : Link.resolve c.schema e f = .ok l) (db : Database) (row other : Row) :
    l.relates c db row other = f.relates c db e row other := by
  cases Link.resolved_of_resolve hl with
  | joinColumns ht hr hp =>
    simp only [Link.relates, ObjectField.relates, ht, hr, Relation.holds]
    exact agree_pairs db hp row other
  | joinTable ht hr hp hc =>
    simp only [Link.relates, ObjectField.relates, ht, hr, Relation.holds, agree_pairs db hp,
      agree_pairs db hc]
  | ownedColumns ht hr hg hgr hp =>
    have hback := Schema.owner_of_mappedBy (Schema.check_of_ofEntities hs)
      (Schema.mem_of_entity he).1 hf hr ht hg
    simp only [Link.relates, ObjectField.relates, ht, hr, hg, hback, he, hgr, Relation.holds]
    rw [agree_swap, agree_pairs db hp]
  | ownedTable ht hr hg hgr hp hc =>
    have hback := Schema.owner_of_mappedBy (Schema.check_of_ofEntities hs)
      (Schema.mem_of_entity he).1 hf hr ht hg
    simp only [Link.relates, ObjectField.relates, ht, hr, hg, hback, he, hgr, Relation.holds,
      agree_pairs db hp, agree_pairs db hc, Bool.and_comm]

end LateralSql
