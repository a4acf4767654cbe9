/-
  The keys in an answer are those that a batch accepts.

  An answer lists the columns of a key in the order of their declaration, and a client collects them
  into key maps, which have their names in ascending order and each name once.  A batch compares
  these names with the sorted columns of its link (`Link.keyNames`).  The two are the same list if
  and only if no column of the link is repeated (`Link.names_eq_keyNames_iff`).
-/
import LateralSql.Proofs.ClosedQueries
import LateralSql.Proofs.Correlations
import LateralSql.Proofs.ExposedKeys
import LateralSql.Proofs.KeyMaps
import LateralSql.Proofs.Outcomes

namespace LateralSql

/-! ## Names of keys -/

/-- The names that the keys of a batch must have. -/
def Link.keyNames (l : Link) : List String :=
  (sortBy Prod.fst (l.parentColumns.zip l.parentTypes)).map (·.1)

/-- The columns of the parent, sorted. -/
theorem Link.keyNames_perm {s : Schema} {e : Entity} {f : ObjectField} {link : Link}
    (h : Link.resolve s e f = .ok link) : link.keyNames.Perm link.parentColumns := by
  have hzip : (link.parentColumns.zip link.parentTypes).map (·.1) = link.parentColumns :=
    List.map_fst_zip (Link.length_parentTypes h).ge
  have hperm := (sortBy_perm Prod.fst (link.parentColumns.zip link.parentTypes)).map (·.1)
  rwa [hzip] at hperm

/-- Lists of names in order are the same if they have the same names, as often. -/
theorem eq_of_perm_of_pairwise {xs ys : List String} (h : xs.Perm ys)
    (hxs : xs.Pairwise (· ≤ ·)) (hys : ys.Pairwise (· ≤ ·)) : xs = ys :=
  List.Perm.eq_of_pairwise (fun _ _ _ _ => String.le_antisymm) hxs hys h

theorem KeyMap.names_pairwise (k : KeyMap) : k.names.Pairwise (· ≤ ·) :=
  k.ascending.imp fun hlt => String.not_lt.1 (String.lt_asymm hlt)

/-- The names of a key map depend on those of its members alone. -/
theorem KeyMap.names_ofMembers_congr {members members' : List (String × Value)}
    (h : members.map (·.1) = members'.map (·.1)) :
    (KeyMap.ofMembers members).names = (KeyMap.ofMembers members').names := by
  refine sameNames_iff.1 fun x => ?_
  rw [mem_names_ofMembers, mem_names_ofMembers, h]

/-- **A key has the names that a batch expects if and only if no column is repeated.** -/
theorem Link.names_eq_keyNames_iff {s : Schema} {e : Entity} {f : ObjectField} {link : Link}
    (hl : Link.resolve s e f = .ok link) {members : List (String × Value)}
    (hmembers : members.map (·.1) = link.parentColumns) :
    (KeyMap.ofMembers members).names = link.keyNames ↔ link.parentColumns.Nodup := by
  have hperm := Link.keyNames_perm hl
  constructor
  · intro heq
    rw [← hperm.nodup_iff, ← heq]
    exact KeyMap.nodup_names _
  · intro hnodup
    refine eq_of_perm_of_pairwise ?_ (KeyMap.names_pairwise _) (sortBy_pairwise _ _)
    refine (List.perm_ext_iff_of_nodup (KeyMap.nodup_names _) (hperm.nodup_iff.2 hnodup)).2 ?_
    intro x
    rw [KeyMap.mem_names_ofMembers, hmembers, hperm.mem_iff]

/-! ## Collected keys -/

section
variable {a : Assembler} {path : List Nat} {label : String} {names : List String} {rows : List Row}

/-- A collected key has the members that its position exposes. -/
theorem Exposes.of_mem_joinKeys (h : Exposes a.fields path (joinLabel label) names)
    (hnone : a.nullObject = none) {k : KeyMap} (hk : k ∈ a.joinKeys label path rows) :
    ∃ ms, k = .ofMembers ms ∧ ms.map (·.1) = names := by
  obtain ⟨row, -, hrow⟩ := List.mem_filterMap.1 hk
  obtain ⟨v, hv, hkey⟩ := Option.bind_eq_some_iff.1 hrow
  obtain rfl := Assembler.eq_of_read hnone hv
  unfold Value.joinKey? at hkey
  split at hkey
  · next members hmember =>
    obtain ⟨ms, heq, hms⟩ := h.members row hmember
    obtain ⟨-, hobject⟩ := Prod.mk.inj heq
    split_ifs at hkey
    obtain rfl := Option.some.inj hkey
    obtain rfl := Value.object.inj hobject
    exact ⟨_, rfl, hms⟩
  · cases hkey

/-- **Collected keys are the keys of a batch**, which has the names that it expects if and only if
    no column is repeated. -/
theorem Exposes.exists_joinKeys {s : Schema} {e : Entity} {f : ObjectField} {link : Link}
    (hl : Link.resolve s e f = .ok link)
    (h : Exposes a.fields path (joinLabel label) link.parentColumns) (hnone : a.nullObject = none)
    (hrows : a.joinKeys label path rows ≠ []) :
    ∃ keys, JoinKeys.ofList (a.joinKeys label path rows) = .ok keys ∧
      (keys.names = link.keyNames ↔ link.parentColumns.Nodup) := by
  obtain ⟨first, hfirst⟩ := List.exists_mem_of_ne_nil _ hrows
  obtain ⟨ms, rfl, hms⟩ := h.of_mem_joinKeys hnone hfirst
  have hsame : ∀ k ∈ a.joinKeys label path rows, k.names = (KeyMap.ofMembers ms).names := by
    intro k hk
    obtain ⟨ms', rfl, hms'⟩ := h.of_mem_joinKeys hnone hk
    exact KeyMap.names_ofMembers_congr (hms'.trans hms.symm)
  obtain ⟨keys, hkeys, hnames⟩ := JoinKeys.exists_ofList hrows hsame
  exact ⟨keys, hkeys, hnames ▸ Link.names_eq_keyNames_iff hl hms⟩

end

/-! ## Batches -/

/-- The entity of a to-many object is found under its name, and has its field. -/
theorem ToManyAt.field {s : Schema} {e e' : Entity} {r : ObjectRequest} {path : List Nat}
    {o : ObjectFieldRequest} {f : ObjectField} {link : Link}
    (h : ToManyAt s e r path e' o f link) (he : s.entity e.name = .ok e) :
    s.entity e'.name = .ok e' ∧ e'.objectField o.field = .ok f ∧
      Link.resolve s e' f = .ok link := by
  induction h with
  | here _ hfield _ _ hlink => exact ⟨he, hfield, hlink⟩
  | inside _ _ _ htarget _ ih => exact ih (Schema.entity_name htarget)

/-- Why a batch over a link fails: its keys have other names than it expects, or they have these and
    the query of the related rows fails. -/
def BatchRequest.FailsBy (c : Compiler) (link : Link) (r : BatchRequest) (err : QueryError) :
    Prop :=
  r.keys.names ≠ link.keyNames ∧ err = .model (.inconsistentKeys link.keyNames r.keys.names) ∨
    r.keys.names = link.keyNames ∧
      ∃ name n, node c (some ⟨link, name, true⟩) r.request n = .error err

/-- How a batch ends.  It is compiled only if its keys have the names that it expects. -/
theorem batch_ends_by_names {c : Compiler} {r : BatchRequest} {e : Entity} {f : ObjectField}
    {link : Link} (he : c.schema.entity r.entity = .ok e) (hf : e.objectField r.field = .ok f)
    (htarget : r.request.entity = f.target) (hl : Link.resolve c.schema e f = .ok link) :
    Ends (r.FailsBy c link) (fun _ => r.keys.names = link.keyNames) (c.batch r) := by
  have hselect : Outcome (r.FailsBy c link) (fun _ => r.keys.names = link.keyNames)
      (batchSelect c r) := by
    intro n
    unfold batchSelect
    rw [bind_of_run (lift_model_run.2 ⟨he, rfl⟩), bind_of_run (lift_model_run.2 ⟨hf, rfl⟩),
      if_neg (not_not.2 htarget.symm), bind_of_run (lift_run.2 ⟨hl, rfl⟩), ← Link.keyNames]
    by_cases hnames : r.keys.names = link.keyNames
    · have hnode (name : String) : Outcome (r.FailsBy c link) (fun _ => True)
          (node c (some ⟨link, name, true⟩) r.request) :=
        fun n => .intro (fun _ herror => .inr ⟨hnames, name, n, herror⟩) fun _ _ => trivial
      rw [if_neg (not_not.2 hnames)]
      refine (?_ : Outcome (r.FailsBy c link) (fun _ => r.keys.names = link.keyNames) _) n
      refine .bind .freshTable fun name _ => ?_
      have hkey (key : String) : Outcome (r.FailsBy c link) (fun _ => True)
          (do return (key, ← freshColumn)) := .bind .freshColumn fun _ _ => .pure trivial
      refine .bind (.mapM fun key _ => hkey key) fun _ _ => ?_
      refine .bind .freshTable fun _ _ => ?_
      exact (hnode name).bind fun _ _ => .pure hnames
    · rw [if_pos hnames]
      exact .error (.inl ⟨hnames, rfl⟩)
  exact hselect.run.bind fun _ hnames => .pure hnames

/-- The select of a batch over a link: the keys are a table of values, and to each of them a query
    is joined that is tied to it by a correlation of the link. -/
structure Sql.Select.TiedTo (s : Sql.Select) (c : Compiler) (link : Link) (keys : Sql.Table)
    (child : Sql.Select) (correlation : Correlation) : Prop where
  tables : s.tables = [keys]
  values : ∃ rows, keys.source = .values rows
  joins : ∃ wrapper, s.joins = [.ofLateral child wrapper]
  correlate : ∃ name source n n', keys.name = some name ∧
    link.correlate c name source n = .ok (correlation, n')
  condition : ∃ filters criteria,
    child.condition = (correlation.condition.both filters).both criteria

/-- The query of the related rows reads columns that the keys of the batch declare. -/
theorem BatchRun.tied {c : Compiler} {r : BatchRequest} {n n' : Names} (run : BatchRun c r n n') :
    ∃ keys child correlation, run.result.select.TiedTo c run.link keys child correlation ∧
      correlation.condition.equations.map (·.2) = run.link.parentColumns.map (⟨keys.name, ·⟩) ∧
      run.link.parentColumns ⊆ keys.columns ∧ child.scoped keys.bindings = true := by
  obtain ⟨childRun, hchild⟩ := node_run run.child_run
  have hcorrelate : run.link.correlate c run.name childRun.name childRun.n₁ =
      .ok (childRun.correlation, childRun.n₂) := childRun.correlation_run
  have hfits := node_fits c r.request run.child_run [⟨run.name, some r.keys.names⟩]
    fun p hp k hk => by
      obtain rfl := Option.some.inj hp
      obtain ⟨x, hx, rfl⟩ := List.mem_map.1 hk
      exact Sql.visible_of_offered List.mem_cons_self (run.parentColumns_subset hx)
  refine ⟨_, run.child.select, childRun.correlation, ⟨rfl, ⟨_, rfl⟩, ⟨_, rfl⟩,
    ⟨_, _, _, _, rfl, hcorrelate⟩, ?_⟩, ?_, run.parentColumns_subset, hfits.inScope⟩
  · rw [← hchild]
    exact ⟨_, _, rfl⟩
  · exact (Link.equations_condition hcorrelate).1

/-- **Join keys are what a batch accepts.**  Take a to-many object at a position of a request that
    is compiled.  If the objects around it are there, the answer of a row holds its key under the
    label of the object, with the parent's columns of its link.  Keys that are collected from the
    answers of any rows are the keys of a batch, and they have the names that a batch over the
    object's field expects if and only if the parent's columns are distinct.  If they are not, the
    batch is refused.  If they are, a batch fails at most in the query of the related rows, and that
    query reads columns of the keys that the table of values declares. -/
theorem join_keys_accepted_iff {c : Compiler} {r : ObjectRequest} {a : Assembler} (h : c.Reads r a)
    {e e' : Entity} (he : c.schema.entity r.entity = .ok e) {path : List Nat}
    {o : ObjectFieldRequest} {f : ObjectField} {link : Link}
    (hat : ToManyAt c.schema e r path e' o f link) :
    (∀ row v, a.read row = some v →
      (∀ p, p <+: path → p ≠ path → ∃ ms, v.at? p = some (.object ms)) →
      ∃ ms, v.member? path = some (joinLabel o.label, .object ms) ∧
        ms.map (·.1) = link.parentColumns) ∧
    ∀ rows, a.joinKeys o.label path rows ≠ [] →
      ∃ keys, JoinKeys.ofList (a.joinKeys o.label path rows) = .ok keys ∧
        (keys.names = link.keyNames ↔ link.parentColumns.Nodup) ∧
        ∀ request : ObjectRequest, request.entity = f.target →
          (¬ link.parentColumns.Nodup → c.batch ⟨e'.name, o.field, keys, request⟩ =
            .error (.model (.inconsistentKeys link.keyNames keys.names))) ∧
          (link.parentColumns.Nodup →
            (∀ err, c.batch ⟨e'.name, o.field, keys, request⟩ = .error err →
              ∃ name n, node c (some ⟨link, name, true⟩) request n = .error err) ∧
            ∀ b, c.batch ⟨e'.name, o.field, keys, request⟩ = .ok b →
              ∃ root table child correlation,
                Compiler.run (batchSelect c ⟨e'.name, o.field, keys, request⟩) = .ok root ∧
                b = ⟨⟨c.statement root.select, root.assembler⟩, root.grouping⟩ ∧
                root.select.TiedTo c link table child correlation ∧
                correlation.condition.equations.map (·.2) =
                  link.parentColumns.map (⟨table.name, ·⟩) ∧
                link.parentColumns ⊆ table.columns ∧ child.scoped table.bindings = true) := by
  obtain ⟨hexposes, hnone⟩ := h.exposes he hat
  obtain ⟨hentity, hfield, hlink⟩ := hat.field (Schema.entity_name he)
  refine ⟨fun row v hv hpresent => ?_, fun rows hrows => ?_⟩
  · obtain rfl := Assembler.eq_of_read hnone hv
    obtain ⟨m, hm⟩ := hexposes.exists_member hpresent
    obtain ⟨ms, rfl, hms⟩ := hexposes.members row hm
    exact ⟨ms, hm, hms⟩
  · obtain ⟨keys, hkeys, hnames⟩ := hexposes.exists_joinKeys hlink hnone hrows
    refine ⟨keys, hkeys, hnames, fun request htarget => ?_⟩
    have hends :=
      batch_ends_by_names (r := ⟨e'.name, o.field, keys, request⟩) hentity hfield htarget hlink
    refine ⟨fun hrepeated => ?_, fun hdistinct => ⟨fun err herr => ?_, fun b hb => ?_⟩⟩
    · have hne : keys.names ≠ link.keyNames := fun heq => hrepeated (hnames.1 heq)
      cases hbatch : c.batch ⟨e'.name, o.field, keys, request⟩ with
      | ok b => exact (hne (hends.of_ok hbatch)).elim
      | error err =>
        rcases hends.of_error hbatch with ⟨-, rfl⟩ | ⟨heq, -⟩
        · rfl
        · exact (hne heq).elim
    · rcases hends.of_error herr with ⟨hne, -⟩ | ⟨-, hchild⟩
      · exact (hne (hnames.2 hdistinct)).elim
      · exact hchild
    · obtain ⟨root, hroot, hb⟩ := bind_ok.1 hb
      obtain rfl := pure_ok.1 hb
      obtain ⟨n', hrun⟩ := run_ok.1 hroot
      obtain ⟨run, rfl⟩ := batchSelect_run hrun
      obtain rfl := run.eq_link hentity hfield hlink
      obtain ⟨table, child, correlation, htied, hreads⟩ := run.tied
      exact ⟨_, table, child, correlation, hroot, rfl, htied, hreads⟩

/-! ## Purchases -/

/-- The lines of a purchase, by the field of a line that owns the relation. -/
def purchaseLines : ObjectField where
  name := "lines"
  target := "Line"
  isList := true
  relation := some (.mappedBy "purchase")

/-- A relation in which both columns of the child refer to one column of the parent. -/
def purchaseAudits : ObjectField where
  name := "audits"
  target := "Line"
  isList := true
  relation := some (.joinColumns [⟨"number", .column "first"⟩, ⟨"number", .column "last"⟩])

/-- A purchase at a branch, which numbers its purchases on its own. -/
def purchase : Entity where
  name := "Purchase"
  table := { name := "purchase" }
  fields := [
    .scalar { name := "number", column := "number", type := .int },
    .scalar { name := "branch", column := "branch", type := .string },
    .object purchaseLines, .object purchaseAudits]

/-- A line of a purchase, which it refers to by number and branch. -/
def purchaseLine : Entity where
  name := "Line"
  table := { name := "line" }
  fields := [
    .scalar { name := "text", column := "text", type := .string },
    .object {
      name := "purchase", target := "Purchase"
      relation := some (.joinColumns
        [⟨"purchase_number", .field "number"⟩, ⟨"purchase_branch", .field "branch"⟩]) }]

/-- A delivery, which refers to its purchase by number. -/
def delivery : Entity where
  name := "Delivery"
  table := { name := "delivery" }
  keys := ["id"]
  fields := [
    .scalar { name := "id", column := "id", type := .int },
    .object {
      name := "purchase", target := "Purchase"
      relation := some (.joinColumns [⟨"purchase_number", .field "number"⟩]) }]

/-- Purchases with their lines and deliveries. -/
def purchases : Compiler where
  schema := ⟨[delivery, purchase, purchaseLine]⟩

/-- A request for the lines of a purchase. -/
def requestedLines : ObjectFieldRequest := ⟨"lines", "lines", { entity := "Line" }⟩

/-- A request for the audits of a purchase. -/
def requestedAudits : ObjectFieldRequest := ⟨"audits", "audits", { entity := "Line" }⟩

/-- A delivery with its purchase, and the keys of the lines and the audits of that. -/
def deliveryRequest : ObjectRequest where
  entity := "Delivery"
  selected := [⟨"id", "id", none⟩]
  objects := [⟨"purchase", "purchase",
    { entity := "Purchase", objects := [requestedLines, requestedAudits] }⟩]

/-- The rows of two deliveries, the second of which has no purchase. -/
def deliveryRows : List Row :=
  [[("x1", .int 1), ("x2", .int 7), ("x3", .string "north")], [("x1", .int 2)]]

/-- The texts of lines. -/
def lineRequest : ObjectRequest where
  entity := "Line"
  selected := [⟨"text", "text", none⟩]

/-- The columns of the lines' key are not in the order of their names, and the audits' key has one
    column twice. -/
theorem join_keys_accepted_iff_purchases :
    Schema.ofEntities [delivery, purchase, purchaseLine] = .ok purchases.schema ∧
    ∃ q lines audits linesKeys auditsKeys, purchases.object deliveryRequest = .ok q ∧
      ToManyAt purchases.schema delivery deliveryRequest [1, 0] purchase requestedLines
        purchaseLines lines ∧
      ToManyAt purchases.schema delivery deliveryRequest [1, 1] purchase requestedAudits
        purchaseAudits audits ∧
      lines.parentColumns = ["number", "branch"] ∧ audits.parentColumns = ["number", "number"] ∧
      JoinKeys.ofList (q.assembler.joinKeys "lines" [1, 0] deliveryRows) = .ok linesKeys ∧
      linesKeys.names = lines.keyNames ∧
      (∃ b root table child correlation,
        purchases.batch ⟨"Purchase", "lines", linesKeys, lineRequest⟩ = .ok b ∧
        Compiler.run (batchSelect purchases ⟨"Purchase", "lines", linesKeys, lineRequest⟩) =
          .ok root ∧
        root.select.TiedTo purchases lines table child correlation ∧
        lines.parentColumns ⊆ table.columns) ∧
      JoinKeys.ofList (q.assembler.joinKeys "audits" [1, 1] deliveryRows) = .ok auditsKeys ∧
      purchases.batch ⟨"Purchase", "audits", auditsKeys, lineRequest⟩ =
        .error (.model (.inconsistentKeys audits.keyNames auditsKeys.names)) := by
  obtain ⟨q, hq⟩ : ∃ q, purchases.object deliveryRequest = .ok q := ⟨_, rfl⟩
  obtain ⟨lines, hlines⟩ : ∃ link, Link.resolve purchases.schema purchase purchaseLines =
    .ok link := ⟨_, rfl⟩
  obtain ⟨audits, haudits⟩ : ∃ link, Link.resolve purchases.schema purchase purchaseAudits =
    .ok link := ⟨_, rfl⟩
  have hinside {i : Nat} {o : ObjectFieldRequest} {f : ObjectField} {link : Link}
      (h : ToManyAt purchases.schema purchase
        { entity := "Purchase", objects := [requestedLines, requestedAudits] } [i] purchase o f
        link) :
      ToManyAt purchases.schema delivery deliveryRequest [1, i] purchase o f link :=
    .inside (i := 0) rfl rfl (.inr rfl) rfl h
  have hlinesAt := hinside (.here (i := 0) (o := requestedLines) rfl rfl rfl rfl hlines)
  have hauditsAt := hinside (.here (i := 1) (o := requestedAudits) rfl rfl rfl rfl haudits)
  have hlinesColumns : lines.parentColumns = ["number", "branch"] := by
    obtain rfl := Except.ok.inj hlines
    rfl
  have hauditsColumns : audits.parentColumns = ["number", "number"] := by
    obtain rfl := Except.ok.inj haudits
    rfl
  obtain ⟨-, hlinesKeys⟩ := join_keys_accepted_iff (.object hq) rfl hlinesAt
  obtain ⟨-, hauditsKeys⟩ := join_keys_accepted_iff (.object hq) rfl hauditsAt
  obtain rfl := Except.ok.inj hq
  obtain ⟨linesKeys, hofLines, hlinesNames, hlinesBatch⟩ :=
    hlinesKeys deliveryRows (List.cons_ne_nil _ _)
  obtain ⟨auditsKeys, hofAudits, -, hauditsBatch⟩ :=
    hauditsKeys deliveryRows (List.cons_ne_nil _ _)
  have hdistinct : lines.parentColumns.Nodup := by rw [hlinesColumns]; decide
  have hrepeated : ¬ audits.parentColumns.Nodup := by rw [hauditsColumns]; decide
  obtain ⟨b, hb⟩ : ∃ b, purchases.batch ⟨"Purchase", "lines", linesKeys, lineRequest⟩ = .ok b := by
    obtain rfl := Except.ok.inj hofLines
    exact ⟨_, rfl⟩
  obtain ⟨root, table, child, correlation, hroot, -, htied, -, hcolumns, -⟩ :=
    ((hlinesBatch lineRequest rfl).2 hdistinct).2 b hb
  exact ⟨rfl, _, lines, audits, linesKeys, auditsKeys, hq, hlinesAt, hauditsAt, hlinesColumns,
    hauditsColumns, hofLines, hlinesNames.2 hdistinct,
    ⟨b, root, table, child, correlation, hb, hroot, htied, hcolumns⟩, hofAudits,
    (hauditsBatch lineRequest rfl).1 hrepeated⟩

end LateralSql
