/-
  When a relation restricts the rows that it joins.

  A correlation ties the child's rows to the parent (`Correlation.Ties`) if the link has a column on
  each of its two sides.  A schema document whose field has an empty list of join columns is refused
  (`Schema.joinColumns_of_ofText`), but a join table may have an empty list for either side.  Then
  the junction is joined to all rows, or no row carries a child.
-/
import LateralSql.Schema.Document
import LateralSql.Proofs.Correlations
import LateralSql.Proofs.InverseRelations
import LateralSql.Proofs.Regrouping
import LateralSql.Proofs.Shapes

namespace LateralSql

/-! ## Ties -/

/-- Some equation ties the parent's row to the child's table or to a junction, some equation ties
    each junction to the child's table, and some column tells a related row from none. -/
structure Correlation.Ties (r : Correlation) (parent child : String) : Prop where
  toParent : ∃ p ∈ r.condition.equations, p.2.table = some parent ∧
    (p.1.table = some child ∨ ∃ j ∈ r.joins, p.1.table = j.table.name)
  toChild : ∀ j ∈ r.joins, ∃ p ∈ j.on.equations, p.1.table = j.table.name ∧ p.2.table = some child
  existsColumns : r.existsColumns ≠ []

/-- Equations with columns of one table. -/
theorem exists_equation {equations : List (Sql.Column × Sql.Column)} {columns : List String}
    {table : String} (h : equations.map (·.2) = columns.map (Sql.col table))
    (hne : columns ≠ []) : ∃ p ∈ equations, p.2.table = some table := by
  obtain ⟨x, hx⟩ := List.exists_mem_of_ne_nil columns hne
  have hcolumn : Sql.col table x ∈ equations.map (·.2) := h ▸ List.mem_map_of_mem hx
  obtain ⟨p, hp, heq⟩ := List.mem_map.1 hcolumn
  exact ⟨p, hp, by rw [heq, Sql.col]⟩

/-- **A correlation ties if and only if its link has columns on both sides.** -/
theorem Link.ties_iff {c : Compiler} {l : Link} {parent child : String} {r : Correlation}
    {n n' : Names} (h : l.correlate c parent child n = .ok (r, n')) :
    r.Ties parent child ↔ l.parentColumns ≠ [] ∧ l.childColumns ≠ [] := by
  obtain ⟨hparent, hsource⟩ := equations_condition h
  have hjoins := equations_joins h
  have hlength := length_existsColumns h
  constructor
  · rintro ⟨⟨p, hp, -⟩, -, hexists⟩
    refine ⟨fun hnil => ?_, fun hnil => hexists ?_⟩
    · rw [hnil, List.map_nil, List.map_eq_nil_iff] at hparent
      rw [hparent] at hp
      cases hp
    · rwa [hnil, List.length_nil, List.length_eq_zero_iff] at hlength
  · rintro ⟨hparentColumns, hchildColumns⟩
    refine ⟨?_, fun j hj => ?_, fun hnil => hchildColumns ?_⟩
    · obtain ⟨p, hp, htable⟩ := exists_equation hparent hparentColumns
      exact ⟨p, hp, htable, hsource p hp⟩
    · obtain ⟨hequations, hjunction⟩ := hjoins j hj
      obtain ⟨p, hp, htable⟩ := exists_equation hequations hchildColumns
      exact ⟨p, hp, hjunction p hp, htable⟩
    · rwa [hnil, List.length_nil, eq_comm, List.length_eq_zero_iff] at hlength

/-! ## Read documents -/

theorem orMalformed_ok {α : Type} {x : Option α} {a : α} : orMalformed x = .ok a ↔ x = some a := by
  cases x <;> simp [orMalformed]

theorem RelationConfig.relation_ne {config : RelationConfig} {r : Relation}
    (h : config.relation = .ok r) : r ≠ .joinColumns [] := by
  unfold relation at h
  split at h
  · split at h
    · cases h
    · next hne =>
      obtain rfl := Except.ok.inj h
      simpa using hne
  · obtain rfl := Except.ok.inj h
    simp
  · obtain rfl := Except.ok.inj h
    simp
  · cases h

theorem ObjectFieldConfig.relation_ne {config : ObjectFieldConfig} {f : ObjectField}
    (h : config.field = .ok f) : f.relation ≠ some (.joinColumns []) := by
  obtain ⟨relation, hkind, h⟩ := bind_ok.1 h
  obtain rfl := pure_ok.1 h
  unfold kind at hkind
  split at hkind
  · obtain rfl := Except.ok.inj hkind
    simp
  · next declared _ _ =>
    cases hrelation : declared.relation with
    | error fault =>
      rw [hrelation] at hkind
      cases hkind
    | ok r =>
      rw [hrelation] at hkind
      obtain rfl := Except.ok.inj hkind
      simpa using declared.relation_ne hrelation
  · cases hkind
  · cases hkind

/-- A field that is read has join columns if it is related by them. -/
theorem Field.relation_ne {j : Json} {f : ObjectField} (h : Field.ofJson j = .ok (.object f)) :
    f.relation ≠ some (.joinColumns []) := by
  obtain ⟨⟨kind, j⟩, -, h⟩ := bind_ok.1 h
  dsimp only at h
  split_ifs at h
  · obtain ⟨scalar, -, h⟩ := bind_ok.1 h
    cases pure_ok.1 h
  · obtain ⟨config, -, h⟩ := bind_ok.1 h
    split at h
    · next hconfig =>
      cases pure_ok.1 h
      exact config.relation_ne hconfig
    · exact (throw_ok.1 h).elim

/-- Every field is read from some part of a document. -/
def EntityParts.ReadFields (p : EntityParts) : Prop :=
  ∀ fields, p.fields = some fields → ∀ f ∈ fields, ∃ j, Field.ofJson j = .ok f

/-- What is read only where nothing is wrong. -/
theorem of_checked {α : Type} {wrong : Bool} {x : Except ModelError α} {a : α}
    (h : (do
      if wrong then throw .malformedSchema
      x : Except ModelError α) = .ok a) : x = .ok a := by
  cases wrong with
  | true => cases h
  | false => exact h

/-- A further member of an entity's description. -/
theorem EntityParts.ReadFields.put {p p' : EntityParts} (hp : p.ReadFields) {key : String}
    {j : Json} (h : p.put key j = .ok p') : p'.ReadFields := by
  unfold EntityParts.put at h
  split at h
  · obtain ⟨name, -, h⟩ := bind_ok.1 (of_checked h)
    obtain rfl := pure_ok.1 h
    exact hp
  split at h
  · obtain ⟨table, -, h⟩ := bind_ok.1 (of_checked h)
    obtain rfl := pure_ok.1 h
    exact hp
  split at h
  · obtain ⟨keys, -, h⟩ := bind_ok.1 (of_checked h)
    obtain rfl := pure_ok.1 h
    exact hp
  split at h
  · obtain ⟨items, -, h⟩ := bind_ok.1 (of_checked h)
    obtain ⟨fields, hfields, h⟩ := bind_ok.1 h
    obtain rfl := pure_ok.1 h
    intro fields' heq f hf
    obtain rfl := Option.some.inj heq
    exact mapM_ok_mem hfields hf
  · obtain rfl := pure_ok.1 h
    exact hp

theorem EntityParts.ReadFields.foldlM {members : List (String × Json)} {p p' : EntityParts}
    (hp : p.ReadFields)
    (h : members.foldlM (fun (p : EntityParts) m => p.put m.1 m.2) p = .ok p') :
    p'.ReadFields := by
  induction members generalizing p with
  | nil =>
    obtain rfl := pure_ok.1 h
    exact hp
  | cons m members ih =>
    obtain ⟨p₁, hput, h⟩ := bind_ok.1 h
    exact ih (hp.put hput) h

theorem Entity.exists_field_of_ofJson {j : Json} {e : Entity} (h : Entity.ofJson j = .ok e)
    {f : Field} (hf : f ∈ e.fields) : ∃ j, Field.ofJson j = .ok f := by
  obtain ⟨members, -, h⟩ := bind_ok.1 h
  obtain ⟨parts, hparts, h⟩ := bind_ok.1 h
  have hread : parts.ReadFields :=
    EntityParts.ReadFields.foldlM (by simp [EntityParts.ReadFields]) hparts
  have hentity : orMalformed parts.entity? = .ok e := by
    split at h
    · split at h
      · cases h
      · exact h
    · exact h
  obtain ⟨name, -, hentity⟩ := Option.bind_eq_some_iff.1 (orMalformed_ok.1 hentity)
  obtain ⟨table, -, hentity⟩ := Option.bind_eq_some_iff.1 hentity
  obtain ⟨fields, hfields, hentity⟩ := Option.bind_eq_some_iff.1 hentity
  obtain rfl := Option.some.inj hentity
  exact hread fields hfields f (lastBy_subset _ _ hf)

theorem Schema.exists_entity_of_ofText {text : String} {s : Schema}
    (h : Schema.ofText text = .ok s) :
    ∃ es, Schema.ofEntities es = .ok s ∧ ∀ e ∈ es, ∃ j, Entity.ofJson j = .ok e := by
  obtain ⟨⟨j, whole⟩, -, h⟩ := bind_ok.1 h
  obtain ⟨items, -, h⟩ := bind_ok.1 h
  obtain ⟨es, hes, h⟩ := bind_ok.1 h
  split_ifs at h
  exact ⟨es, h, fun e he => mapM_ok_mem hes he⟩

/-- **A field of a document has join columns if it is related by them.** -/
theorem Schema.joinColumns_of_ofText {text : String} {s : Schema} (h : Schema.ofText text = .ok s)
    {name : String} {e : Entity} (he : s.entity name = .ok e) {field : String} {f : ObjectField}
    (hf : e.objectField field = .ok f) : f.relation ≠ some (.joinColumns []) := by
  obtain ⟨es, hes, hread⟩ := Schema.exists_entity_of_ofText h
  obtain ⟨_, -, hs⟩ := bind_ok.1 hes
  obtain rfl := pure_ok.1 hs
  obtain ⟨j, hj⟩ := hread e (lastBy_subset _ _ (Schema.mem_of_entity he).1)
  obtain ⟨jf, hjf⟩ := Entity.exists_field_of_ofJson hj (Entity.mem_of_objectField hf)
  exact Field.relation_ne hjf

/-! ## Join tables -/

/-- The join table that a relation declares, if it does. -/
def Relation.declaredTable? : Relation → Option JoinTable
  | joinTable j => some j
  | _ => none

/-- The join table of a field: its own, or that of the field that owns its relation. -/
def ObjectField.declaredTable? (s : Schema) (f : ObjectField) : Option JoinTable :=
  match f.relation with
  | none => none
  | some (.mappedBy owner) => do
    let target ← (s.entity f.target).toOption
    let owning ← (target.objectField owner).toOption
    (← owning.relation).declaredTable?
  | some relation => relation.declaredTable?

/-- Each side of the relation has a column in the join table. -/
def JoinTable.joinsBoth (j : JoinTable) : Prop := j.joinColumns ≠ [] ∧ j.inverseJoinColumns ≠ []

theorem JoinColumn.pairs_eq_nil {e : Entity} {js : List JoinColumn} {ps : List (String × String)}
    (h : JoinColumn.pairs e js = .ok ps) : ps = [] ↔ js = [] := by
  rw [← List.length_eq_zero_iff, ← List.length_eq_zero_iff, mapM_length h]

/-- **Which links have columns on both sides**, in a schema that is read from a text. -/
theorem Link.columns_iff {text : String} {s : Schema} (hs : Schema.ofText text = .ok s)
    {name : String} {e : Entity} (he : s.entity name = .ok e) {field : String} {f : ObjectField}
    (hf : e.objectField field = .ok f) {link : Link} (hl : Link.resolve s e f = .ok link) :
    link.parentColumns ≠ [] ∧ link.childColumns ≠ [] ↔ ∀ j ∈ f.declaredTable? s, j.joinsBoth := by
  cases Link.resolved_of_resolve hl with
  | @joinColumns child js pairs _ hr hpairs =>
    have hne : js ≠ [] := fun hnil => Schema.joinColumns_of_ofText hs he hf (hnil ▸ hr)
    have htable : f.declaredTable? s = none := by rw [ObjectField.declaredTable?, hr]; rfl
    have hpairs' := (JoinColumn.pairs_eq_nil hpairs).not.2 hne
    simp [parentColumns, childColumns, htable, hpairs']
  | @joinTable child j toParent toChild _ hr hparent hchild =>
    have htable : f.declaredTable? s = some j := by rw [ObjectField.declaredTable?, hr]; rfl
    simp [parentColumns, childColumns, htable, JoinTable.joinsBoth,
      JoinColumn.pairs_eq_nil hparent, JoinColumn.pairs_eq_nil hchild]
  | @ownedColumns child owner g js pairs htarget hr hg hgr hpairs =>
    have hne : js ≠ [] := fun hnil => Schema.joinColumns_of_ofText hs htarget hg (hnil ▸ hgr)
    have htable : f.declaredTable? s = none := by
      rw [ObjectField.declaredTable?, hr]
      simp [htarget, hg, hgr, Except.toOption, Relation.declaredTable?]
    have hpairs' := (JoinColumn.pairs_eq_nil hpairs).not.2 hne
    simp [parentColumns, childColumns, htable, hpairs']
  | @ownedTable child owner g j toParent toChild htarget hr hg hgr hparent hchild =>
    have htable : f.declaredTable? s = some j := by
      rw [ObjectField.declaredTable?, hr]
      simp [htarget, hg, hgr, Except.toOption, Relation.declaredTable?]
    simp [parentColumns, childColumns, htable, JoinTable.joinsBoth,
      JoinColumn.pairs_eq_nil hparent, JoinColumn.pairs_eq_nil hchild, and_comm]

/-! ## Batches -/

/-- A batch tells a related row from none if its relation has columns of the child. -/
theorem existsColumns_of_batch {c : Compiler} {r : BatchRequest} {b : CompiledBatch}
    (hb : c.batch r = .ok b) {e : Entity} (he : c.schema.entity r.entity = .ok e)
    {f : ObjectField} (hf : e.objectField r.field = .ok f) {link : Link}
    (hl : Link.resolve c.schema e f = .ok link) :
    b.grouping.existsColumns.length = link.childColumns.length := by
  obtain ⟨root, hroot, hb⟩ := bind_ok.1 hb
  obtain rfl := pure_ok.1 hb
  obtain ⟨n', hrun⟩ := run_ok.1 hroot
  obtain ⟨run, rfl⟩ := batchSelect_run hrun
  obtain rfl := run.eq_link he hf hl
  obtain ⟨childRun, hchild⟩ := node_run run.child_run
  change run.child.existsColumns.length = _
  rw [← hchild]
  exact childRun.length_existsColumns rfl

/-- Some row carries a related row if there is a column to tell it. -/
theorem Grouping.exists_carriesChild {g : Grouping} (h : g.existsColumns ≠ []) :
    ∃ row, g.carriesChild row = true := by
  obtain ⟨x, hx⟩ := List.exists_mem_of_ne_nil _ h
  refine ⟨[(x, .int 0)], List.any_eq_true.2 ⟨x, hx, ?_⟩⟩
  simp [Row.get, Row.get?, Value.isNull]

/-- **A relation restricts what it joins, unless its join table has an empty side.**  Every field
    of a schema that is read from a text and has a link has its correlation, under all names.  The
    correlation ties the child to the parent, through the junction if there is one, if and only if
    the join table has columns for both sides, or there is none.  Then a batch over the field has
    columns to tell a child from none. -/
theorem relation_ties_iff {text : String} {c : Compiler} (hs : Schema.ofText text = .ok c.schema)
    {name : String} {e : Entity} (he : c.schema.entity name = .ok e) {field : String}
    {f : ObjectField} (hf : e.objectField field = .ok f) {link : Link}
    (hl : Link.resolve c.schema e f = .ok link) :
    (∀ parent child n, ∃ r n', link.correlate c parent child n = .ok (r, n') ∧
      (r.Ties parent child ↔ ∀ j ∈ f.declaredTable? c.schema, j.joinsBoth)) ∧
    ∀ keys request b, c.batch ⟨name, field, keys, request⟩ = .ok b →
      (∀ j ∈ f.declaredTable? c.schema, j.joinsBoth) →
        b.grouping.existsColumns ≠ [] ∧ ∃ row, b.grouping.carriesChild row = true := by
  have hcolumns := Link.columns_iff hs he hf hl
  refine ⟨fun parent child n => ?_, fun keys request b hb hboth => ?_⟩
  · obtain ⟨r, n', hr⟩ := link.exists_correlate c parent child n
    exact ⟨r, n', hr, (Link.ties_iff hr).trans hcolumns⟩
  · have hlength := existsColumns_of_batch hb he hf hl
    have hne : b.grouping.existsColumns ≠ [] := by
      intro hnil
      rw [hnil, List.length_nil, eq_comm, List.length_eq_zero_iff] at hlength
      exact (hcolumns.2 hboth).2 hlength
    exact ⟨hne, Grouping.exists_carriesChild hne⟩

/-! ## Posts and tags -/

/-- A document with two join tables, of which the second has no column for its target. -/
def blogText : String :=
  "[\x7b\"name\":\"Post\",\"table\":\"post\",\"fields\":[
   \x7b\"kind\":\"object\",\"name\":\"tags\",\"target\":\"Tag\",\"isList\":true,
     \"relation\":\x7b\"joinTable\":\x7b\"table\":\"post_tag\",
     \"joinColumns\":[\x7b\"name\":\"post_id\",\"referencedColumn\":\"id\"\x7d],
     \"inverseJoinColumns\":[\x7b\"name\":\"tag_id\",\"referencedColumn\":\"id\"\x7d]\x7d\x7d\x7d,
   \x7b\"kind\":\"object\",\"name\":\"topics\",\"target\":\"Tag\",\"isList\":true,
     \"relation\":\x7b\"joinTable\":\x7b\"table\":\"post_topic\",
     \"joinColumns\":[\x7b\"name\":\"post_id\",\"referencedColumn\":\"id\"\x7d],
     \"inverseJoinColumns\":[]\x7d\x7d\x7d]\x7d,
  \x7b\"name\":\"Tag\",\"table\":\"tag\",\"fields\":[
   \x7b\"kind\":\"scalar\",\"name\":\"word\",\"column\":\"word\",\"type\":\"String\"\x7d,
   \x7b\"kind\":\"object\",\"name\":\"posts\",\"target\":\"Post\",\"isList\":true,
     \"relation\":\x7b\"mappedBy\":\"tags\"\x7d\x7d]\x7d]"

/-- The tags of a post, through a join table with columns for both. -/
def postTags : ObjectField where
  name := "tags"
  target := "Tag"
  isList := true
  relation := some (.joinTable
    ⟨{ name := "post_tag" }, [⟨"post_id", .column "id"⟩], [⟨"tag_id", .column "id"⟩]⟩)

/-- The topics of a post, through a join table without a column for them. -/
def postTopics : ObjectField where
  name := "topics"
  target := "Tag"
  isList := true
  relation := some (.joinTable ⟨{ name := "post_topic" }, [⟨"post_id", .column "id"⟩], []⟩)

/-- A post, with its tags and topics. -/
def post : Entity where
  name := "Post"
  table := { name := "post" }
  fields := [.object postTags, .object postTopics]

/-- The posts of a tag, by the field of a post that owns the relation. -/
def tagPosts : ObjectField where
  name := "posts"
  target := "Post"
  isList := true
  relation := some (.mappedBy "tags")

/-- A tag, with its posts. -/
def tag : Entity where
  name := "Tag"
  table := { name := "tag" }
  fields := [.scalar { name := "word", column := "word", type := .string }, .object tagPosts]

/-- Posts and their tags. -/
def blog : Compiler where
  schema := ⟨[post, tag]⟩

/-- The posts of a tag. -/
def postsRequest : BatchRequest where
  entity := "Tag"
  field := "posts"
  keys := firstRow
  request := { entity := "Post" }

/-- The topics of a post. -/
def topicsRequest : BatchRequest where
  entity := "Post"
  field := "topics"
  keys := firstRow
  request := { entity := "Tag", selected := [⟨"word", "word", none⟩] }

set_option maxRecDepth 8000 in
theorem ofText_blog : Schema.ofText blogText = .ok blog.schema := by
  have hread : (Schema.ofText blogText).toOption = some blog.schema := by
    -- the characters are taken off the literal, which is faster than to decode its bytes
    rw [Schema.ofText, Json.readAlong?, show blogText.toList = _ from String.toList_ofList]
    decide +kernel
  generalize Schema.ofText blogText = x at hread
  cases x with
  | error e => cases hread
  | ok s => rw [Option.some.inj hread]

/-- The relation is declared on the other side of its join table. -/
theorem relation_ties_iff_posts :
    Schema.ofText blogText = .ok blog.schema ∧
    ∃ link r n' b, Link.resolve blog.schema tag tagPosts = .ok link ∧
      link.correlate blog "t1" "t2" ⟨2, 0⟩ = .ok (r, n') ∧ r.Ties "t1" "t2" ∧
      blog.batch postsRequest = .ok b ∧ b.grouping.existsColumns ≠ [] ∧
      ∃ row, b.grouping.carriesChild row = true := by
  obtain ⟨link, hlink⟩ : ∃ link, Link.resolve blog.schema tag tagPosts = .ok link := ⟨_, rfl⟩
  obtain ⟨b, hb⟩ : ∃ b, blog.batch postsRequest = .ok b := ⟨_, rfl⟩
  have htag : blog.schema.entity "Tag" = .ok tag := rfl
  have hposts : tag.objectField "posts" = .ok tagPosts := rfl
  obtain ⟨hties, hbatch⟩ := relation_ties_iff ofText_blog htag hposts hlink
  have hboth : ∀ j ∈ tagPosts.declaredTable? blog.schema, j.joinsBoth := by
    rintro j ⟨⟩
    exact ⟨List.cons_ne_nil _ _, List.cons_ne_nil _ _⟩
  obtain ⟨r, n', hr, hiff⟩ := hties "t1" "t2" ⟨2, 0⟩
  exact ⟨ofText_blog, link, r, n', b, hlink, hr, hiff.2 hboth, hb, hbatch _ _ b hb hboth⟩

/-- **An accepted schema joins all tags to each post.**  The field `topics` has a link, but no
    equation ties the junction to the tags, and a batch counts no row as a topic. -/
theorem topics_untied :
    Schema.ofText blogText = .ok blog.schema ∧
    ∃ link, Link.resolve blog.schema post postTopics = .ok link ∧
      (∀ parent child n, ∃ r n' j, link.correlate blog parent child n = .ok (r, n') ∧
        ¬ r.Ties parent child ∧ r.joins = [j] ∧ j.on = .always ∧ r.existsColumns = []) ∧
      ∃ b, blog.batch topicsRequest = .ok b ∧ ∀ row, b.grouping.carriesChild row = false := by
  refine ⟨ofText_blog, _, rfl, fun parent child n => ?_, _, rfl, fun row => rfl⟩
  exact ⟨_, _, _, rfl, fun hties => hties.existsColumns rfl, rfl, rfl, rfl⟩

end LateralSql
