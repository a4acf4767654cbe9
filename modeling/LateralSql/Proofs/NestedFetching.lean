/-
  What a node joins to its rows.

  A request tells which selects its query joins to each row (`ObjectRequest.attachments`): one for
  each to-one object and one or more for each request of aggregates, those of embedded objects
  included.  The query joins the table that its relation passes through, its keys if there are
  several, and then exactly these selects, by left joins that yield one row each (`Fetches`), so
  that what is nested neither drops nor repeats a row.
-/
import LateralSql.Proofs.AggregateExpressions
import LateralSql.Proofs.Relations
import LateralSql.Proofs.Shapes

namespace LateralSql

open Sql (Expr Join Select)

/-! ## What a request asks for -/

/-- The table that a relation declares between the two entities, if it does. -/
def Relation.joinTable? : Relation → Option TableRef
  | joinTable j => some j.table
  | _ => none

/-- The table that the relation of a field passes through, if there is one. -/
def ObjectField.joinTable? (s : Schema) (f : ObjectField) : Option TableRef :=
  match f.relation with
  | some (.mappedBy owner) =>
    match s.entity f.target >>= (·.objectField owner) with
    | .ok g => g.relation.bind Relation.joinTable?
    | .error _ => none
  | relation => relation.bind Relation.joinTable?

/-- Whether an aggregate joins the elements of a list. -/
def Aggregate.joinsElements (target : Entity) (a : Aggregate) : Bool :=
  a.function = .join &&
    match a.field.map target.scalarField with
    | some (.ok f) => f.isList
    | _ => false

/-- What is joined to each row of a node. -/
inductive Attachment where
  /-- The one object that a field relates, perhaps through a table. -/
  | object (via : Option TableRef) (request : ObjectRequest)
  /-- Aggregates in one select. -/
  | aggregates (as : List Aggregate)

/-- The aggregates over the elements of a list have a select each, the others share one. -/
def AggregateRequest.attachments (s : Schema) (e : Entity) (r : AggregateRequest) :
    Except ModelError (List Attachment) := do
  let target ← s.entity (← e.objectField r.field).target
  let shared := r.aggregates.filter (!·.joinsElements target)
  let unnested := r.aggregates.filter (·.joinsElements target)
  return (if shared.isEmpty then [] else [.aggregates shared]) ++ unnested.map (.aggregates [·])

mutual

/-- What is joined to the rows of `e` for a request: its to-one objects, then its aggregates. -/
def ObjectRequest.attachments (s : Schema) (e : Entity) :
    ObjectRequest → Except ModelError (List Attachment)
  | ⟨_, _, objects, aggregates, _, _, _, _, _⟩ => do
    let nested ← objectAttachments s e objects
    return nested ++ (← aggregates.mapM (·.attachments s e)).flatten
termination_by structural r => r

/-- What is joined to the rows of `e` for some of their objects. -/
def objectAttachments (s : Schema) (e : Entity) :
    List ObjectFieldRequest → Except ModelError (List Attachment)
  | [] => return []
  | o :: rest => return (← o.attachments s e) ++ (← objectAttachments s e rest)
termination_by structural os => os

/-- An embedded object is in the same row, and has joined to it what it asks for. -/
def ObjectFieldRequest.attachments (s : Schema) (e : Entity) :
    ObjectFieldRequest → Except ModelError (List Attachment)
  | ⟨field, _, request⟩ => do
    let f ← e.objectField field
    if f.isEmbedded then request.attachments s (← s.entity f.target)
    else if f.isList then return []
    else return [.object (f.joinTable? s) request]
termination_by structural o => o

end

/-! ## What a select joins -/

/-- An aggregate over all rows, perhaps cast to a type and under a name. -/
def Sql.Expr.isAggregate : Expr → Bool
  | .named e _ => e.isAggregate
  | .cast e _ => e.isAggregate
  | .countAll | .count _ _ | .aggregate _ _ | .stringAgg _ _ _ => true
  | _ => false

/-- An inner join with a table of the model. -/
def Sql.Join.isTable (c : Compiler) (t : TableRef) (j : Join) : Prop :=
  j.kind = .inner ∧ j.lateral = false ∧ ∃ name, j.table = (c.table t).as name

/-- An inner join with a table of values. -/
def Sql.Join.isValues (j : Join) : Prop :=
  j.kind = .inner ∧ j.lateral = false ∧ ∃ rows, j.table.source = .values rows

/-- A left join, on no condition, with the rows of a select for each row. -/
structure Sql.Join.IsLateral (j : Join) (s : Select) : Prop where
  kind : j.kind = .left
  on : j.on = .always
  lateral : j.lateral = true
  table : ∃ name, j.table = { source := .query s, name := some name }

mutual

/-- The query of a request, whose rows are related through the table `via` if there is one: it
    joins that table, then a table of values if there are two keys or more, and then what the
    request asks for. -/
inductive Fetches (c : Compiler) : Option TableRef → ObjectRequest → Select → Prop
  | node {via : Option TableRef} {r : ObjectRequest} {select : Select} {e : Entity}
      {attached : List Attachment} {ties keys laterals : List Join} :
      c.schema.entity r.entity = .ok e → r.attachments c.schema e = .ok attached →
      select.joins = ties ++ keys ++ laterals →
      List.Forall₂ (Join.isTable c) via.toList ties →
      (if 2 ≤ r.keys.length then ∃ j, keys = [j] ∧ j.isValues else keys = []) →
      List.Forall₂ (Attaches c) attached laterals → Fetches c via r select

/-- A join with a select for each row: the first row of the query of an object, or a row of
    aggregates. -/
inductive Attaches (c : Compiler) : Attachment → Join → Prop
  | object {via : Option TableRef} {r : ObjectRequest} {select : Select} {j : Join} :
      j.IsLateral select → Fetches c via r select → select.limit = some (.literal (.int 1)) →
      Attaches c (.object via r) j
  | aggregates {as : List Aggregate} {select : Select} {j : Join} :
      j.IsLateral select → as ≠ [] → select.columns.length = as.length →
      (∀ e ∈ select.columns, e.isAggregate = true) →
      select.order = [] → select.limit = none → select.offset = none →
      Attaches c (.aggregates as) j

end

theorem Sql.Join.isLateral_ofLateral (s : Select) (name : String) :
    (Join.ofLateral s name).IsLateral s :=
  ⟨rfl, rfl, rfl, name, rfl⟩

/-- Only the joins of a query matter. -/
theorem Fetches.first {c : Compiler} {via : Option TableRef} {r : ObjectRequest} {s : Select}
    (h : Fetches c via r s) : Fetches c via r s.first := by
  cases h with
  | node he hattached hjoins hties hkeys hlaterals =>
    exact .node he hattached hjoins hties hkeys hlaterals

/-! ## Joins before the draft's -/

/-- The table that a link passes through. -/
def Link.junction? (l : Link) : Option TableRef :=
  match l.topology with
  | .direct _ => none
  | .junction t _ _ => some t

theorem Link.junction?_of_resolve {s : Schema} {e : Entity} {f : ObjectField} {l : Link}
    (h : Link.resolve s e f = .ok l) : l.junction? = f.joinTable? s := by
  have howner {target : Entity} {owner : String} {g : ObjectField}
      (ht : s.entity f.target = .ok target) (hr : f.relation = some (.mappedBy owner))
      (hg : target.objectField owner = .ok g) :
      f.joinTable? s = g.relation.bind Relation.joinTable? := by
    have hfound : s.entity f.target >>= (·.objectField owner) = .ok g := bind_ok.2 ⟨target, ht, hg⟩
    simp only [ObjectField.joinTable?, hr, hfound]
  cases Link.resolved_of_resolve h with
  | joinColumns _ hr _ => simp [Link.junction?, ObjectField.joinTable?, hr, Relation.joinTable?]
  | joinTable _ hr _ _ => simp [Link.junction?, ObjectField.joinTable?, hr, Relation.joinTable?]
  | ownedColumns ht hr hg hgr _ => simp [Link.junction?, howner ht hr hg, hgr, Relation.joinTable?]
  | ownedTable ht hr hg hgr _ _ => simp [Link.junction?, howner ht hr hg, hgr, Relation.joinTable?]

theorem correlateParent_joins {c : Compiler} {parent : Option Parent} {name : String}
    {r : Correlation} {n n' : Names} (h : correlateParent c parent name n = .ok (r, n')) :
    List.Forall₂ (Join.isTable c) (parent.bind (·.link.junction?)).toList r.joins := by
  cases parent with
  | none =>
    obtain ⟨rfl, -⟩ := pure_run.1 h
    exact .nil
  | some p =>
    rw [Option.bind_some, Link.junction?]
    rcases Link.correlate_cases h with ⟨_, htop, -, rfl⟩ | ⟨t, _, _, htop, junction, -, rfl⟩
    · rw [htop]
      exact .nil
    · rw [htop]
      exact .cons ⟨rfl, rfl, junction, rfl⟩ .nil

theorem keyCriteria_joins {s : Scope} {ks : List KeyMap} {r : KeyCriteria} {n n' : Names}
    (h : keyCriteria s ks n = .ok (r, n')) :
    if 2 ≤ ks.length then ∃ j, r.joins = [j] ∧ j.isValues else r.joins = [] := by
  unfold keyCriteria at h
  split at h
  · obtain ⟨rfl, -⟩ := pure_run.1 h
    rfl
  · obtain ⟨_, _, -, h⟩ := bind_run.1 h
    obtain ⟨rfl, -⟩ := pure_run.1 h
    rfl
  · next hnil hone =>
    obtain ⟨_, _, -, h⟩ := bind_run.1 h
    obtain ⟨_, _, -, h⟩ := bind_run.1 h
    obtain ⟨_, _, -, h⟩ := bind_run.1 h
    obtain ⟨rfl, -⟩ := pure_run.1 h
    rw [if_pos]
    · exact ⟨_, rfl, rfl, rfl, _, rfl⟩
    · match ks, hnil, hone with
      | [], hnil, _ => exact (hnil rfl).elim
      | [k], _, hone => exact (hone k rfl).elim
      | _ :: _ :: _, _, _ => simp

/-! ## Steps that only select -/

theorem Added.joins_eq_nil {Sel : Expr → Prop} {n n' : Names} {d : Draft}
    (h : Added Sel (fun _ _ _ => False) n d n') : d.joins = [] := by
  induction h with
  | nothing _ => rfl
  | column _ _ => rfl
  | lateral _ _ hfalse => exact hfalse.elim
  | append _ _ ih₁ ih₂ => rw [Draft.joins_append, ih₁, ih₂, List.append_nil]

/-- A step that joins nothing leaves the joins as they are. -/
theorem Extends.joins_eq {α : Type} {Sel : Expr → Prop} {known : List String} {x : Drafting α}
    {reads : α → List String} (hx : Extends Sel (fun _ _ _ => False) known x reads) {d d' : Draft}
    {n n' : Names} {a : α} (hrun : x d n = .ok ((a, d'), n')) : d'.joins = d.joins := by
  obtain ⟨e, rfl, hadded, -⟩ := hx hrun
  rw [Draft.joins_append, hadded.joins_eq_nil, List.append_nil]

/-! ## Aggregates -/

@[simp] theorem Sql.Expr.isAggregate_as (e : Expr) (name : String) :
    (e.as name).isAggregate = e.isAggregate := by
  cases e <;> rfl

theorem Aggregate.isAggregate_expr {a : Aggregate} {source : Option (ScalarField × Sql.Column)}
    {e : Expr} (h : a.expr source = .ok e) : e.isAggregate = true := by
  cases Aggregate.expr_ok.1 h <;> rfl

theorem sharedResults_aggregate {source : String} {as : List SourcedAggregate} {n n' : Names}
    {rs : List (Expr × String)} (h : sharedResults source as n = .ok (rs, n')) :
    ∀ e ∈ rs.map (·.1), e.isAggregate = true := by
  induction as generalizing n rs with
  | nil =>
    obtain ⟨rfl, -⟩ := pure_run.1 h
    simp
  | cons a as ih =>
    unfold sharedResults at h
    obtain ⟨name, n₁, -, h⟩ := bind_run.1 h
    obtain ⟨e, n₂, he, h⟩ := bind_run.1 h
    obtain ⟨rest, n₃, hrest, h⟩ := bind_run.1 h
    obtain ⟨rfl, rfl⟩ := pure_run.1 h
    have hexpr := Aggregate.isAggregate_expr (lift_run.1 he).1
    simpa [hexpr] using ih hrest

/-- The fields of aggregates tell those over the elements of a list. -/
theorem Aggregate.sourced_ok {target : Entity} {a : Aggregate} {p : SourcedAggregate}
    (h : a.sourced target = .ok p) : p.1 = a ∧ p.isUnnested = a.joinsElements target := by
  unfold Aggregate.sourced at h
  split at h
  · next hfield =>
    obtain rfl := pure_ok.1 h
    simp [SourcedAggregate.isUnnested, Aggregate.joinsElements, hfield]
  · next name hfield =>
    obtain ⟨f, hf, h⟩ := bind_ok.1 h
    obtain rfl := pure_ok.1 h
    simp [SourcedAggregate.isUnnested, Aggregate.joinsElements, hfield, hf, Bool.and_comm]

theorem map_filter_sourced {target : Entity} {as : List Aggregate} {ps : List SourcedAggregate}
    (h : as.mapM (Aggregate.sourced target) = .ok ps) (keep : Bool → Bool) :
    (ps.filter fun p => keep p.isUnnested).map (·.1) =
      as.filter fun a => keep (a.joinsElements target) := by
  induction as generalizing ps with
  | nil =>
    obtain rfl := pure_ok.1 h
    rfl
  | cons a as ih =>
    obtain ⟨p, ps, hp, hps, rfl⟩ := mapM_cons_ok.1 h
    obtain ⟨rfl, hunnested⟩ := Aggregate.sourced_ok hp
    rw [List.filter_cons, List.filter_cons, hunnested]
    split <;> simp [ih hps]

section
variable {c : Compiler} {l : Link} {parent : String} {filters : List Filter} {d d' : Draft}
  {n n' : Names}

/-- What a step joins behind the joins of its draft. -/
def Draft.Attached (c : Compiler) (d d' : Draft) (attached : List Attachment) : Prop :=
  ∃ js, d'.joins = d.joins ++ js ∧ List.Forall₂ (Attaches c) attached js

theorem Draft.Attached.append {d₁ : Draft} {xs ys : List Attachment} (h : d.Attached c d₁ xs)
    (h' : d₁.Attached c d' ys) : d.Attached c d' (xs ++ ys) := by
  obtain ⟨js, hjs, hxs⟩ := h
  obtain ⟨ks, hks, hys⟩ := h'
  exact ⟨js ++ ks, by rw [hks, hjs, List.append_assoc], List.rel_append hxs hys⟩

theorem Draft.Attached.nil (h : d'.joins = d.joins) : d.Attached c d' [] :=
  ⟨[], by rw [h, List.append_nil], .nil⟩

theorem Draft.Attached.lateral {x : Attachment} {s : Select} {name : String}
    (h : Attaches c x (.ofLateral s name)) : d.Attached c (d.withLateral s name) [x] :=
  ⟨[.ofLateral s name], rfl, .cons h .nil⟩

theorem selectShared_attaches {as : List SourcedAggregate} {names : List String}
    (h : selectShared c l parent filters as d n = .ok ((names, d'), n')) :
    d.Attached c d' (if as.isEmpty then [] else [.aggregates (as.map (·.1))]) := by
  unfold selectShared at h
  split_ifs at h ⊢ with hempty
  · obtain ⟨-, rfl, -⟩ := draft_pure_run.1 h
    exact .nil rfl
  · obtain ⟨s, _, n₁, hs, h⟩ := draft_bind_run.1 h
    obtain ⟨results, _, n₂, hresults, h⟩ := draft_bind_run.1 h
    obtain ⟨_, _, n₃, hjoin, h⟩ := draft_bind_run.1 h
    obtain ⟨-, rfl, -⟩ := draft_pure_run.1 h
    obtain ⟨rfl, -⟩ := joinLateral_run.1 hjoin
    obtain ⟨hselect, rfl⟩ := draft_compile_run.1 hs
    obtain ⟨hshared, rfl⟩ := draft_compile_run.1 hresults
    obtain ⟨-, -, -, correlation, condition, -, -, -, -, heq⟩ := aggregateSelect_run hselect
    rw [heq]
    refine .lateral (.aggregates (Join.isLateral_ofLateral _ _) ?_ ?_
      (sharedResults_aggregate hshared) rfl rfl rfl)
    · simpa using hempty
    · simpa using sharedResults_length hshared

theorem selectUnnested_attaches {a : SourcedAggregate} {name : String}
    (h : selectUnnested c l parent filters a d n = .ok ((name, d'), n')) :
    d.Attached c d' [.aggregates [a.1]] := by
  unfold selectUnnested at h
  obtain ⟨s, _, n₁, hs, h⟩ := draft_bind_run.1 h
  obtain ⟨elements, _, n₂, helements, h⟩ := draft_bind_run.1 h
  obtain ⟨element, _, n₃, helement, h⟩ := draft_bind_run.1 h
  obtain ⟨_, _, n₄, hname, h⟩ := draft_bind_run.1 h
  obtain ⟨e, _, n₅, he, h⟩ := draft_bind_run.1 h
  obtain ⟨_, _, n₆, hjoin, h⟩ := draft_bind_run.1 h
  obtain ⟨-, rfl, -⟩ := draft_pure_run.1 h
  obtain ⟨rfl, -⟩ := joinLateral_run.1 hjoin
  obtain ⟨hexpr, rfl, -⟩ := draft_lift_run.1 he
  obtain ⟨-, rfl⟩ := draft_compile_run.1 hname
  obtain ⟨-, rfl⟩ := draft_compile_run.1 helement
  obtain ⟨-, rfl⟩ := draft_compile_run.1 helements
  obtain ⟨hselect, rfl⟩ := draft_compile_run.1 hs
  obtain ⟨-, -, -, correlation, condition, -, -, -, -, heq⟩ := aggregateSelect_run hselect
  rw [heq]
  refine .lateral (.aggregates (Join.isLateral_ofLateral _ _) (by simp) rfl ?_ rfl rfl rfl)
  simpa using Aggregate.isAggregate_expr hexpr

theorem unnested_attach {as : List SourcedAggregate} {names : List String}
    (h : as.mapM (selectUnnested c l parent filters) d n = .ok ((names, d'), n')) :
    d.Attached c d' ((as.map (·.1)).map (.aggregates [·])) := by
  induction as generalizing d n names with
  | nil =>
    obtain ⟨-, rfl, -⟩ := draft_pure_run.1 h
    exact .nil rfl
  | cons a as ih =>
    rw [List.mapM_cons] at h
    obtain ⟨name, d₁, n₁, hname, h⟩ := draft_bind_run.1 h
    obtain ⟨rest, d₂, n₂, hrest, h⟩ := draft_bind_run.1 h
    obtain ⟨-, rfl, rfl⟩ := draft_pure_run.1 h
    exact (selectUnnested_attaches hname).append (ih hrest)

theorem selectAggregates_attaches {s : Scope} {r : AggregateRequest} {f : String × FieldReader}
    (h : selectAggregates c s r d n = .ok ((f, d'), n')) :
    ∃ attached, r.attachments c.schema s.entity = .ok attached ∧ d.Attached c d' attached := by
  unfold selectAggregates at h
  obtain ⟨field, _, n₁, hfield, h⟩ := draft_bind_run.1 h
  obtain ⟨link, _, n₂, hlink, h⟩ := draft_bind_run.1 h
  obtain ⟨sourced, _, n₃, hsourced, h⟩ := draft_bind_run.1 h
  obtain ⟨shared, d₁, n₄, hshared, h⟩ := draft_bind_run.1 h
  obtain ⟨unnested, d₂, n₅, hunnested, h⟩ := draft_bind_run.1 h
  obtain ⟨-, rfl, -⟩ := draft_pure_run.1 h
  obtain ⟨hfields, rfl, -⟩ := draft_lift_model_run.1 hsourced
  obtain ⟨hresolve, rfl, -⟩ := draft_lift_run.1 hlink
  obtain ⟨hobject, rfl, -⟩ := draft_lift_model_run.1 hfield
  have htarget := Link.entity_of_resolve hresolve
  have hattached := (selectShared_attaches hshared).append (unnested_attach hunnested)
  have hsharedNames := map_filter_sourced hfields (!·)
  have hunnestedNames : _ = r.aggregates.filter (·.joinsElements link.child) :=
    map_filter_sourced hfields id
  refine ⟨_, bind_ok.2 ⟨field, hobject, bind_ok.2 ⟨link.child, htarget, rfl⟩⟩, ?_⟩
  rw [← hsharedNames, ← hunnestedNames, List.isEmpty_map]
  exact hattached

theorem aggregates_attach {s : Scope} {rs : List AggregateRequest}
    {fields : List (String × FieldReader)}
    (h : rs.mapM (selectAggregates c s) d n = .ok ((fields, d'), n')) :
    ∃ attached, rs.mapM (·.attachments c.schema s.entity) = .ok attached ∧
      d.Attached c d' attached.flatten := by
  induction rs generalizing d n fields with
  | nil =>
    obtain ⟨-, rfl, -⟩ := draft_pure_run.1 h
    exact ⟨[], rfl, .nil rfl⟩
  | cons r rs ih =>
    rw [List.mapM_cons] at h
    obtain ⟨f, d₁, n₁, hf, h⟩ := draft_bind_run.1 h
    obtain ⟨rest, d₂, n₂, hrest, h⟩ := draft_bind_run.1 h
    obtain ⟨-, rfl, rfl⟩ := draft_pure_run.1 h
    obtain ⟨attached, hr, hattached⟩ := selectAggregates_attaches hf
    obtain ⟨others, hrs, hothers⟩ := ih hrest
    exact ⟨attached :: others, mapM_cons_ok.2 ⟨_, _, hr, hrs, rfl⟩, hattached.append hothers⟩

end

/-! ## Objects -/

/-- Only the objects and the aggregates of a node are joined by its draft. -/
theorem NodeRun.draft_joins {c : Compiler} {parent : Option Parent} {r : ObjectRequest}
    {n n' : Names} (run : NodeRun c parent r n n') :
    run.d₂.joins = [] ∧ run.draft.joins = run.d₄.joins := by
  have hselected : run.d₁.joins = [] :=
    (Extends.mapM fun f _ => @Extends.selectField [] c _ f _).joins_eq run.selected_run
  have hkey : run.d₂.joins = run.d₁.joins :=
    (@Extends.selectKey [] _ _ _).joins_eq run.key_run
  have horder : run.d₅.joins = run.d₄.joins :=
    (Extends.mapM fun k _ => @Extends.selectOrder [] _ k _).joins_eq run.order_run
  have hexists : run.d₆.joins = run.d₅.joins :=
    (Extends.selectExists run.name parent).joins_eq run.exists_run
  have hrelated : run.draft.joins = run.d₆.joins :=
    (Extends.selectRelated run.name run.key).joins_eq run.related_run
  exact ⟨hkey.trans hselected, hrelated.trans (hexists.trans horder)⟩

/-- The joins of a node, if those of its objects are as wanted. -/
theorem NodeRun.fetches {c : Compiler} {parent : Option Parent} {r : ObjectRequest} {n n' : Names}
    (run : NodeRun c parent r n n') {nested : List Attachment}
    (hnested : objectAttachments c.schema run.entity r.objects = .ok nested)
    (hobjects : run.d₂.Attached c run.d₃ nested) :
    Fetches c (parent.bind (·.link.junction?)) r run.node.select := by
  obtain ⟨aggregates, hwanted, haggregates⟩ := aggregates_attach run.aggregates_run
  have hattached : r.attachments c.schema run.entity = .ok (nested ++ aggregates.flatten) := by
    cases r
    rw [ObjectRequest.attachments]
    exact bind_ok.2 ⟨nested, hnested, bind_ok.2 ⟨aggregates, hwanted, rfl⟩⟩
  obtain ⟨js, hjs, hlaterals⟩ := hobjects.append haggregates
  obtain ⟨hbefore, hafter⟩ := run.draft_joins
  have hjoins : run.draft.joins = js := by rw [hafter, hjs, hbefore, List.nil_append]
  refine .node run.entity_run hattached ?_ (correlateParent_joins run.correlation_run)
    (keyCriteria_joins run.keys_run) hlaterals
  rw [← hjoins]
  rfl

mutual

theorem node_fetches {c : Compiler} :
    ∀ (r : ObjectRequest) {parent : Option Parent} {n n' : Names} {nd : Node},
      node c parent r n = .ok (nd, n') → Fetches c (parent.bind (·.link.junction?)) r nd.select
  | ⟨entity, selected, objects, aggregates, filters, sort, paging, keys, context⟩,
    parent, n, n', nd, h => by
    obtain ⟨run, rfl⟩ := node_run h
    obtain ⟨nested, hnested, hobjects⟩ := objectReaders_attach objects run.objects_run
    exact run.fetches hnested hobjects
termination_by structural r => r

theorem objectReaders_attach {c : Compiler} :
    ∀ (os : List ObjectFieldRequest) {s : Scope} {d d' : Draft} {n n' : Names}
      {fields : List (String × FieldReader)},
      objectReaders c s os d n = .ok ((fields, d'), n') →
      ∃ attached, objectAttachments c.schema s.entity os = .ok attached ∧ d.Attached c d' attached
  | [], s, d, d', n, n', fields, h => by
    rw [objectReaders] at h
    obtain ⟨-, rfl, -⟩ := draft_pure_run.1 h
    exact ⟨[], rfl, .nil rfl⟩
  | o :: rest, s, d, d', n, n', fields, h => by
    rw [objectReaders] at h
    obtain ⟨f, d₁, n₁, hf, h⟩ := draft_bind_run.1 h
    obtain ⟨fs, d₂, n₂, hfs, h⟩ := draft_bind_run.1 h
    obtain ⟨-, rfl, -⟩ := draft_pure_run.1 h
    obtain ⟨attached, ho, hattached⟩ := objectReader_attaches o hf
    obtain ⟨others, hos, hothers⟩ := objectReaders_attach rest hfs
    refine ⟨attached ++ others, ?_, hattached.append hothers⟩
    rw [objectAttachments]
    exact bind_ok.2 ⟨attached, ho, bind_ok.2 ⟨others, hos, rfl⟩⟩
termination_by structural os => os

theorem objectReader_attaches {c : Compiler} :
    ∀ (o : ObjectFieldRequest) {s : Scope} {d d' : Draft} {n n' : Names}
      {field : String × FieldReader},
      objectReader c s o d n = .ok ((field, d'), n') →
      ∃ attached, o.attachments c.schema s.entity = .ok attached ∧ d.Attached c d' attached
  | ⟨name, label, request⟩, s, d, d', n, n', field, h => by
    obtain ⟨f, hf, htarget, hrun⟩ := objectReader_run h
    rw [ObjectFieldRequest.attachments]
    cases hrun with
    | @embedded target _ _ _ hembedded hentity hfields =>
      obtain ⟨attached, hwanted, hattached⟩ := embeddedReaders_attach request hfields
      refine ⟨attached, bind_ok.2 ⟨f, hf, ?_⟩, hattached⟩
      rw [hembedded, if_pos rfl, ← htarget]
      exact bind_ok.2 ⟨target, hentity, hwanted⟩
    | toMany hembedded hlist hkey =>
      -- the rows of a list come with a query of their own
      have hjoins := (@Extends.selectJoinKey [] c s f label _).joins_eq hkey
      refine ⟨[], bind_ok.2 ⟨f, hf, ?_⟩, .nil hjoins⟩
      rw [hembedded, hlist, if_neg Bool.false_ne_true, if_pos rfl]
      rfl
    | toOne hembedded hlist _ hresolve hchild =>
      have hfetches := node_fetches request hchild
      rw [Option.bind_some, Link.junction?_of_resolve hresolve] at hfetches
      refine ⟨[.object (f.joinTable? c.schema) request], bind_ok.2 ⟨f, hf, ?_⟩,
        .lateral (.object (Join.isLateral_ofLateral _ _) hfetches.first rfl)⟩
      rw [hembedded, hlist, if_neg Bool.false_ne_true, if_neg Bool.false_ne_true]
      rfl
termination_by structural o => o

theorem embeddedReaders_attach {c : Compiler} :
    ∀ (r : ObjectRequest) {s : Scope} {d d' : Draft} {n n' : Names}
      {fields : List (String × FieldReader)},
      embeddedReaders c s r d n = .ok ((fields, d'), n') →
      ∃ attached, r.attachments c.schema s.entity = .ok attached ∧ d.Attached c d' attached
  | ⟨entity, selected, objects, aggregates, filters, sort, paging, keys, context⟩,
    s, d, d', n, n', fields, h => by
    rw [embeddedReaders] at h
    obtain ⟨columns, d₁, n₁, hcolumns, h⟩ := draft_bind_run.1 h
    obtain ⟨readers, d₂, n₂, hreaders, h⟩ := draft_bind_run.1 h
    obtain ⟨results, d₃, n₃, hresults, h⟩ := draft_bind_run.1 h
    obtain ⟨-, rfl, -⟩ := draft_pure_run.1 h
    have hselected := (Extends.mapM fun f _ => @Extends.selectField [] c s f _).joins_eq hcolumns
    obtain ⟨nested, hnested, hobjects⟩ := objectReaders_attach objects hreaders
    obtain ⟨others, hothers, haggregates⟩ := aggregates_attach hresults
    refine ⟨nested ++ others.flatten, ?_, ?_⟩
    · rw [ObjectRequest.attachments]
      exact bind_ok.2 ⟨nested, hnested, bind_ok.2 ⟨others, hothers, rfl⟩⟩
    · exact (Draft.Attached.nil hselected).append (hobjects.append haggregates)
termination_by structural r => r

end

/-- **Nested objects keep the rows.**  In the query of an object, at every depth, a node joins the
    table of its relation and its keys, and then one select for each to-one object and each select
    of aggregates that its request asks for.  These are left joins on no condition with selects of
    one row: the first row of an object's query, whatever its paging, or a row of aggregates. -/
theorem object_fetches_nested {c : Compiler} {r : ObjectRequest} {q : CompiledQuery}
    (h : c.object r = .ok q) :
    ∃ root, Compiler.run (node c none r) = .ok root ∧
      q = ⟨c.statement root.select, root.assembler⟩ ∧ Fetches c none r root.select := by
  obtain ⟨root, hroot, h⟩ := bind_ok.1 h
  obtain rfl := pure_ok.1 h
  obtain ⟨n', hrun⟩ := run_ok.1 hroot
  exact ⟨root, hroot, rfl, node_fetches r hrun⟩

/-- Two books with their authors, of whom three at most are asked for, and with aggregates over
    their loans. -/
def authoredRequest : ObjectRequest where
  entity := "Book"
  selected := [⟨"title", "title", none⟩]
  objects := [⟨"author", "author", {
    entity := "Author", selected := [⟨"name", "name", none⟩], paging := some { limit := some 3 } }⟩]
  aggregates := bookRequest.aggregates
  keys := [idKey 1, idKey 2]

/-- The keys are joined first, then the author, the number of loans and the names of the readers. -/
theorem object_fetches_nested_books :
    (authoredRequest.attachments library.schema book).toOption.map List.length = some 3 ∧
    (Compiler.run (node library none authoredRequest)).toOption.map
      (·.select.joins.map fun j => (j.kind, j.on, j.lateral)) =
        some [
          (.inner, .single ((Sql.col "t1" "id").equals (Sql.col "t9" "id")), false),
          (.left, .always, true), (.left, .always, true), (.left, .always, true)] ∧
    ∃ q root, library.object authoredRequest = .ok q ∧
      Compiler.run (node library none authoredRequest) = .ok root ∧
      Fetches library none authoredRequest root.select := by
  obtain ⟨q, hq⟩ : ∃ q, library.object authoredRequest = .ok q := ⟨_, rfl⟩
  obtain ⟨root, hroot, -, hfetches⟩ := object_fetches_nested hq
  exact ⟨by decide +kernel, rfl, q, root, hq, hroot, hfetches⟩

end LateralSql
