/-
  The rows of a batch go back to the keys that they were asked for.

  Whatever the rows, their groups are those of the keys in the order in which they first occur, and
  a group has the objects of the rows with its key, in the order of the rows (`Grouping.group_eq`).
  The rows of a batch come from a left join, in any order that keeps those of one key in theirs
  (`Interleaving`), so every key gets exactly the objects that it was joined with.
-/
import LateralSql.Proofs.AliasAgreement
import LateralSql.Proofs.KeyMaps
import LateralSql.Proofs.Reading

namespace LateralSql

/-! ## Interleavings -/

section
variable {α : Type}

/-- The elements of two lists in one, those of each in their order. -/
inductive Shuffle : List α → List α → List α → Prop
  | nil : Shuffle [] [] []
  | left {a : α} {xs ys zs : List α} : Shuffle xs ys zs → Shuffle (a :: xs) ys (a :: zs)
  | right {a : α} {xs ys zs : List α} : Shuffle xs ys zs → Shuffle xs (a :: ys) (a :: zs)

/-- The elements of some lists in one, those of each in their order. -/
inductive Interleaving : List (List α) → List α → Prop
  | nil : Interleaving [] []
  | cons {xs ys zs : List α} {parts : List (List α)} :
      Interleaving parts ys → Shuffle xs ys zs → Interleaving (xs :: parts) zs

namespace Shuffle

variable {xs ys zs : List α}

theorem mem (h : Shuffle xs ys zs) {a : α} (ha : a ∈ zs) : a ∈ xs ∨ a ∈ ys := by
  induction h with
  | nil => cases ha
  | left _ ih =>
    rcases List.mem_cons.1 ha with rfl | ha
    · exact .inl List.mem_cons_self
    · exact (ih ha).imp_left (List.mem_cons_of_mem _)
  | right _ ih =>
    rcases List.mem_cons.1 ha with rfl | ha
    · exact .inr List.mem_cons_self
    · exact (ih ha).imp_right (List.mem_cons_of_mem _)

theorem filter (h : Shuffle xs ys zs) (p : α → Bool) :
    Shuffle (xs.filter p) (ys.filter p) (zs.filter p) := by
  induction h with
  | nil => exact .nil
  | @left a xs ys zs _ ih =>
    cases ha : p a with
    | true => rw [List.filter_cons_of_pos ha, List.filter_cons_of_pos ha]; exact .left ih
    | false =>
      rw [List.filter_cons_of_neg (by simp [ha]), List.filter_cons_of_neg (by simp [ha])]
      exact ih
  | @right a xs ys zs _ ih =>
    cases ha : p a with
    | true => rw [List.filter_cons_of_pos ha, List.filter_cons_of_pos ha]; exact .right ih
    | false =>
      rw [List.filter_cons_of_neg (by simp [ha]), List.filter_cons_of_neg (by simp [ha])]
      exact ih

theorem eq_of_nil_left (h : Shuffle [] ys zs) : zs = ys := by
  induction ys generalizing zs with
  | nil => cases h; rfl
  | cons y ys ih => cases h with | right h => rw [ih h]

theorem eq_of_nil_right (h : Shuffle xs [] zs) : zs = xs := by
  induction xs generalizing zs with
  | nil => cases h; rfl
  | cons x xs ih => cases h with | left h => rw [ih h]

/-- A property that holds of the elements of one list alone finds that list again. -/
theorem filter_eq_left (h : Shuffle xs ys zs) {p : α → Bool} (hxs : ∀ a ∈ xs, p a = true)
    (hys : ∀ a ∈ ys, p a = false) : zs.filter p = xs := by
  have hfiltered := h.filter p
  rw [List.filter_eq_self.2 hxs, List.filter_eq_nil_iff.2 fun a ha => by simp [hys a ha]]
    at hfiltered
  exact hfiltered.eq_of_nil_right

theorem filter_eq_right (h : Shuffle xs ys zs) {p : α → Bool} (hxs : ∀ a ∈ xs, p a = false) :
    zs.filter p = ys.filter p := by
  have hfiltered := h.filter p
  rw [List.filter_eq_nil_iff.2 fun a ha => by simp [hxs a ha]] at hfiltered
  exact hfiltered.eq_of_nil_left

end Shuffle

namespace Interleaving

theorem mem {parts : List (List α)} {zs : List α} (h : Interleaving parts zs) {a : α}
    (ha : a ∈ zs) : ∃ part ∈ parts, a ∈ part := by
  induction h with
  | nil => cases ha
  | cons _ hshuffle ih =>
    rcases hshuffle.mem ha with ha | ha
    · exact ⟨_, List.mem_cons_self, ha⟩
    · obtain ⟨part, hpart, ha⟩ := ih ha
      exact ⟨part, List.mem_cons_of_mem _ hpart, ha⟩

/-- The elements of one key are found again in the order of their list. -/
theorem filter_key {β : Type} [BEq β] [EquivBEq β] {keys : List β} {elements : β → List α}
    {keyOf : α → β} (hkeys : keys.Pairwise fun a b => (a == b) = false)
    (hkeyOf : ∀ k ∈ keys, ∀ a ∈ elements k, keyOf a = k) {zs : List α}
    (h : Interleaving (keys.map elements) zs) :
    ∀ k ∈ keys, zs.filter (k == keyOf ·) = elements k := by
  induction keys generalizing zs with
  | nil => simp
  | cons k keys ih =>
    obtain ⟨hnew, hkeys⟩ := List.pairwise_cons.1 hkeys
    have hown : ∀ a ∈ elements k, keyOf a = k := hkeyOf k List.mem_cons_self
    have hrest : ∀ k' ∈ keys, ∀ a ∈ elements k', keyOf a = k' :=
      fun k' hk' => hkeyOf k' (List.mem_cons_of_mem _ hk')
    cases h with
    | @cons _ ys _ _ hys hshuffle =>
      intro k' hk'
      rcases List.mem_cons.1 hk' with rfl | hk'
      · refine hshuffle.filter_eq_left (fun a ha => ?_) fun a ha => ?_
        · rw [hown a ha]
          exact BEq.rfl
        · obtain ⟨part, hpart, ha⟩ := hys.mem ha
          obtain ⟨l, hl, rfl⟩ := List.mem_map.1 hpart
          rw [hrest l hl a ha]
          exact hnew l hl
      · rw [hshuffle.filter_eq_right fun a ha => ?_]
        · exact ih hkeys hrest hys k' hk'
        · rw [hown a ha, BEq.comm]
          exact hnew k' hk'

end Interleaving

end

/-! ## Groups -/

/-- Objects join the group of their key, or make one. -/
theorem Groups.add_map (key : KeyMap) (objects : List Value) {keys : List KeyMap}
    (hkeys : keys.Pairwise fun a b => (a == b) = false) (f : KeyMap → List Value) :
    Groups.add key objects (keys.map fun k => (k, f k)) =
      if keys.any (· == key) then
        keys.map fun k => (k, f k ++ if k == key then objects else [])
      else keys.map (fun k => (k, f k)) ++ [(key, objects)] := by
  induction keys with
  | nil => rfl
  | cons k keys ih =>
    obtain ⟨hnew, hkeys⟩ := List.pairwise_cons.1 hkeys
    rw [List.map_cons, Groups.add]
    cases hk : k == key with
    | true =>
      -- no later key equals this one, so no other group changes
      have hothers : ∀ l ∈ keys, (l == key) = false := by
        intro l hl
        rw [Bool.eq_false_iff]
        intro hkey
        have heq : (k == l) = true := BEq.trans hk (BEq.symm hkey)
        rw [hnew l hl] at heq
        cases heq
      rw [List.any_cons, hk, Bool.true_or, if_pos rfl, if_pos rfl, List.map_cons, hk, if_pos rfl]
      congr 1
      refine List.map_congr_left fun l hl => ?_
      simp [hothers l hl]
    | false =>
      rw [List.any_cons, hk, Bool.false_or, if_neg (by simp), ih hkeys, List.map_cons, hk]
      split <;> simp

/-- Groups in the order in which their keys first occur, with the objects of each in their order. -/
theorem Groups.foldl_add (pairs : List (KeyMap × List Value)) :
    pairs.foldl (fun groups p => Groups.add p.1 p.2 groups) [] =
      (firstOccurrences (pairs.map (·.1))).map fun k =>
        (k, (pairs.filter (k == ·.1)).flatMap (·.2)) := by
  induction pairs using List.reverseRecOn with
  | nil => rfl
  | append_singleton pairs p ih =>
    have hpairwise := firstOccurrences_pairwise (pairs.map (·.1))
    rw [List.foldl_append, ih, List.foldl_cons, List.foldl_nil, Groups.add_map _ _ hpairwise,
      List.map_append, List.map_cons, List.map_nil, firstOccurrences_concat]
    have hfilter (k : KeyMap) : ((pairs ++ [p]).filter (k == ·.1)).flatMap (·.2) =
        (pairs.filter (k == ·.1)).flatMap (·.2) ++ if k == p.1 then p.2 else [] := by
      rw [List.filter_append, List.flatMap_append]
      congr 1
      cases hk : k == p.1 <;> simp [hk]
    simp only [hfilter]
    split
    · rfl
    · next hnew =>
      have hother : ∀ k ∈ firstOccurrences (pairs.map (·.1)), (k == p.1) = false := by
        intro k hk
        rw [Bool.eq_false_iff]
        exact fun heq => hnew (List.any_eq_true.2 ⟨k, hk, heq⟩)
      have hnone : pairs.filter (p.1 == ·.1) = [] := by
        refine List.filter_eq_nil_iff.2 fun q hq heq => ?_
        obtain ⟨k, hk, hkq⟩ := exists_firstOccurrence (List.mem_map_of_mem (f := Prod.fst) hq)
        have hkp : (k == p.1) = true := BEq.trans hkq (BEq.symm heq)
        rw [hother k hk] at hkp
        cases hkp
      rw [List.map_append, List.map_cons, List.map_nil, hnone, BEq.rfl]
      congr 1
      refine List.map_congr_left fun k hk => ?_
      simp [hother k hk]

/-- **Groups by their rows.**  The groups are those of the requested keys and of the keys of the
    rows, in the order in which they first occur; each has the objects of its rows, in order. -/
theorem Grouping.group_eq (g : Grouping) (a : Assembler) (rows : List Row) :
    g.group a rows = (firstOccurrences (g.keys ++ rows.map g.keyOf)).map fun k =>
      (k, (rows.filter (k == g.keyOf ·)).flatMap (g.objectsOf a)) := by
  -- a requested key is a pair without objects
  have hgroup : g.group a rows =
      List.foldl (fun groups p => Groups.add p.1 p.2 groups) []
        (g.keys.map (·, []) ++ rows.map fun row => (g.keyOf row, g.objectsOf a row)) := by
    rw [List.foldl_append, List.foldl_map, List.foldl_map]
    rfl
  have hkeys : (g.keys.map fun k => (k, ([] : List Value))).map (·.1) = g.keys := by
    rw [List.map_map]
    exact List.map_id _
  have hrows : (rows.map fun row => (g.keyOf row, g.objectsOf a row)).map (·.1) =
      rows.map g.keyOf := by
    rw [List.map_map]
    rfl
  rw [hgroup, Groups.foldl_add, List.map_append, hkeys, hrows]
  refine List.map_congr_left fun k _ => ?_
  rw [List.filter_append, List.flatMap_append, List.filter_map, List.filter_map, List.flatMap_map,
    List.flatMap_map, List.flatMap_eq_nil_iff.2 fun _ _ => rfl, List.nil_append]
  rfl

/-! ## Left joins -/

namespace Grouping

/-- The columns of a key. -/
def keyRow (g : Grouping) (k : KeyMap) : Row :=
  g.keyColumns.map fun c => (c.2, (k.get? c.1).getD .null)

/-- The rows of a key in a left join with its related rows: each related row with the key, or the
    key with nulls in all other columns if there is none. -/
def leftJoin (g : Grouping) (columns : List String) (k : KeyMap) (related : List Row) : List Row :=
  if related.isEmpty then
    [g.keyRow k ++ (columns.filter (· ∉ g.keyColumns.map (·.2))).map (·, .null)]
  else related.map (g.keyRow k ++ ·)

/-- What makes the rows of a left join fall apart again into a key and an object. -/
structure Separates (g : Grouping) (a : Assembler) : Prop where
  names : ∀ k ∈ g.keys, g.keyColumns.map (·.1) = k.names
  distinct : g.keys.Pairwise fun k l => (k == l) = false
  columns : (g.keyColumns.map (·.2)).Nodup
  reads : ∀ x ∈ a.reads, x ∉ g.keyColumns.map (·.2)
  existsColumns : ∀ x ∈ g.existsColumns, x ∉ g.keyColumns.map (·.2)
  exists_ne : g.existsColumns ≠ []

/-- Whether the row is that of a related row: no column is null that would tell so. -/
def IsRelated (g : Grouping) (a : Assembler) (row : Row) : Prop :=
  ∀ x ∈ g.existsColumns ++ a.checkNull.toList, (row.get x).isNull = false

instance (g : Grouping) (a : Assembler) (row : Row) : Decidable (g.IsRelated a row) :=
  inferInstanceAs (Decidable (∀ x ∈ g.existsColumns ++ a.checkNull.toList, _))

variable {g : Grouping} {a : Assembler} {k : KeyMap}

theorem names_keyRow (g : Grouping) (k : KeyMap) :
    (g.keyRow k).map (·.1) = g.keyColumns.map (·.2) := by
  rw [keyRow, List.map_map]
  rfl

namespace Separates

/-- The key of a row of a left join is read back. -/
theorem keyOf_append (h : g.Separates a) (hk : k ∈ g.keys) (row : Row) :
    g.keyOf (g.keyRow k ++ row) = k := by
  have hvalues : ∀ c ∈ g.keyColumns,
      (c.1, Row.get (g.keyRow k ++ row) c.2) = (c.1, (k.get? c.1).getD .null) := by
    intro c hc
    have hlookup : (g.keyRow k).lookup c.2 = some ((k.get? c.1).getD .null) :=
      KeyMap.lookup_map_of_nodup h.columns (fun c => (k.get? c.1).getD .null) hc
    rw [Row.get_append_of_lookup hlookup]
  rw [keyOf, List.map_congr_left hvalues, KeyMap.members_eq (h.names k hk),
    KeyMap.ofMembers_members]

theorem keyOf_leftJoin (h : g.Separates a) {columns : List String} (hk : k ∈ g.keys)
    {related : List Row} : ∀ row ∈ g.leftJoin columns k related, g.keyOf row = k := by
  intro row hrow
  rw [leftJoin] at hrow
  split at hrow
  · obtain rfl := List.mem_singleton.1 hrow
    exact h.keyOf_append hk _
  · obtain ⟨child, -, rfl⟩ := List.mem_map.1 hrow
    exact h.keyOf_append hk child

theorem get_append (h : g.Separates a) {x : String} (hx : x ∈ g.existsColumns ∨ x ∈ a.reads)
    (row : Row) : Row.get (g.keyRow k ++ row) x = row.get x := by
  refine Row.get_append_of_notMem ?_
  rw [names_keyRow]
  exact hx.elim (h.existsColumns x) (h.reads x)

/-- A row without a related one brings no object. -/
theorem objectsOf_nulls (h : g.Separates a) (columns : List String) :
    g.objectsOf a (g.keyRow k ++ columns.map (·, .null)) = [] := by
  have hnone : g.carriesChild (g.keyRow k ++ columns.map (·, .null)) = false := by
    refine List.any_eq_false.2 fun x hx => ?_
    rw [h.get_append (.inl hx), Row.get_nulls]
    decide
  rw [objectsOf, hnone]
  rfl

/-- A related row brings its object. -/
theorem objectsOf_related (h : g.Separates a) {row : Row} (hrow : g.IsRelated a row) :
    (g.objectsOf a (g.keyRow k ++ row)).map some = [a.read row] := by
  have hcarries : g.carriesChild (g.keyRow k ++ row) = true := by
    obtain ⟨x, hx⟩ := List.exists_mem_of_ne_nil _ h.exists_ne
    refine List.any_eq_true.2 ⟨x, hx, ?_⟩
    rw [h.get_append (.inl hx), hrow x (List.mem_append_left _ hx)]
    rfl
  have hread : a.read (g.keyRow k ++ row) = a.read row :=
    Assembler.read_congr a fun x hx => h.get_append (.inr hx) row
  have hpresent := Assembler.read_of_present (Assembler.isAbsent_eq_false.2 fun x hx =>
    hrow x (List.mem_append_right _ hx))
  rw [objectsOf, hcarries, if_pos rfl, hread, hpresent]
  rfl

theorem objectsOf_leftJoin (h : g.Separates a) (columns : List String) {related : List Row}
    (hrelated : ∀ row ∈ related, g.IsRelated a row) :
    ((g.leftJoin columns k related).flatMap (g.objectsOf a)).map some = related.map a.read := by
  cases related with
  | nil =>
    rw [leftJoin, List.isEmpty_nil, if_pos rfl, List.flatMap_singleton, h.objectsOf_nulls]
    rfl
  | cons row rest =>
    rw [leftJoin, List.isEmpty_cons, if_neg Bool.false_ne_true, List.map_flatMap,
      List.flatMap_map, List.map_eq_flatMap]
    exact List.flatMap_congr fun row hrow => h.objectsOf_related (hrelated row hrow)

/-- **Regrouping.**  However the rows of a left join are interleaved, each key gets the objects of
    its related rows back. -/
theorem group_leftJoin (h : g.Separates a) {columns : List String} {related : KeyMap → List Row}
    (hrelated : ∀ k ∈ g.keys, ∀ row ∈ related k, g.IsRelated a row) {rows : List Row}
    (hrows : Interleaving (g.keys.map fun k => g.leftJoin columns k (related k)) rows) :
    (g.group a rows).map (fun group => (group.1, group.2.map some)) =
      g.keys.map fun k => (k, (related k).map a.read) := by
  have hown : ∀ k ∈ g.keys, ∀ row ∈ g.leftJoin columns k (related k), g.keyOf row = k :=
    fun k hk => h.keyOf_leftJoin hk
  have hkeys : firstOccurrences (g.keys ++ rows.map g.keyOf) = g.keys := by
    rw [firstOccurrences_append, firstOccurrences_of_pairwise h.distinct]
    intro k hk
    obtain ⟨row, hrow, rfl⟩ := List.mem_map.1 hk
    obtain ⟨part, hpart, hrow⟩ := hrows.mem hrow
    obtain ⟨l, hl, rfl⟩ := List.mem_map.1 hpart
    rw [hown l hl row hrow, firstOccurrences_of_pairwise h.distinct]
    exact ⟨l, hl, BEq.rfl⟩
  rw [group_eq, hkeys, List.map_map]
  refine List.map_congr_left fun k hk => ?_
  rw [Function.comp_apply, hrows.filter_key h.distinct hown k hk,
    h.objectsOf_leftJoin columns (hrelated k hk)]

end Separates

end Grouping

/-! ## Batches -/

/-- The link of the field that a batch follows. -/
def BatchRequest.link (s : Schema) (r : BatchRequest) : Except QueryError Link := do
  let parent ← s.entity r.entity
  let f ← parent.objectField r.field
  Link.resolve s parent f

theorem NodeRun.length_existsColumns {c : Compiler} {p : Parent} {r : ObjectRequest} {n n' : Names}
    (run : NodeRun c (some p) r n n') (hp : p.selectsExists = true) :
    run.existsColumns.length = p.link.childColumns.length := by
  have hrun := run.exists_run
  rw [selectExists] at hrun
  simp only [hp, if_true] at hrun
  exact (draft_mapM_length hrun).trans (Link.length_existsColumns run.correlation_run)

theorem BatchRun.link_eq {c : Compiler} {r : BatchRequest} {n n' : Names}
    (run : BatchRun c r n n') : r.link c.schema = .ok run.link :=
  bind_ok.2 ⟨run.entity, lift_model_ok.2 run.entity_run,
    bind_ok.2 ⟨run.field, lift_model_ok.2 run.field_run, run.link_run⟩⟩

theorem BatchRun.keyColumns_names {c : Compiler} {r : BatchRequest} {n n' : Names}
    (run : BatchRun c r n n') : run.keyColumns.map (·.1) = r.keys.names := by
  have hnames : run.keyColumns.map (·.1) = r.keys.names.map id := by
    refine mapM_run_map (fun key _ n₁ b n₂ hkey => ?_) run.keys_run
    obtain ⟨column, n₃, -, hkey⟩ := bind_run.1 hkey
    obtain ⟨rfl, -⟩ := pure_run.1 hkey
    rfl
  rw [hnames, List.map_id]

/-- The rows of a batch fall apart into a key and an object. -/
theorem BatchRun.separates {c : Compiler} {r : BatchRequest} {n n' : Names}
    (run : BatchRun c r n n') (hchild : run.link.childColumns ≠ []) :
    run.result.grouping.Separates run.result.assembler := by
  obtain ⟨childRun, hchildRun⟩ := node_run run.child_run
  have hsound := node_sound c r.request run.child_run
  have hnew := run.newColumns
  rw [run.outputs] at hnew
  have hnodup := List.nodup_append.1 hnew.nodup
  have hapart : ∀ x ∈ run.child.select.outputs, x ∉ run.keyColumns.map (·.2) :=
    fun x hx hkey => hnodup.2.2 x hkey x hx rfl
  refine ⟨fun k hk => ?_, r.keys.distinct, hnodup.1, ?_, ?_, ?_⟩
  · exact run.keyColumns_names.trans (JoinKeys.names_eq_of_mem hk).symm
  · exact fun x hx => hapart x (hsound.reads hx)
  · exact fun x hx => hapart x (hsound.existsColumns hx)
  · have hlength : run.child.existsColumns.length = run.link.childColumns.length := by
      rw [← hchildRun]
      exact childRun.length_existsColumns rfl
    intro (hnone : run.child.existsColumns = [])
    rw [hnone] at hlength
    exact hchild (List.length_eq_zero_iff.1 hlength.symm)

/-- **The related rows of a batch go back to their keys.**  Let the rows be those of a left join of
    the keys with their related rows, in any order that keeps the rows of a key in theirs.  Then
    there is one group for each distinct key, in the order of the request, and it has the objects of
    the key's related rows, in their order: none at all if there are no such rows. -/
theorem batch_regroups {c : Compiler} {r : BatchRequest} {q : CompiledBatch}
    (h : c.batch r = .ok q) {requested : List (List (String × Value))}
    (hkeys : JoinKeys.ofList (requested.map .ofMembers) = .ok r.keys) {link : Link}
    (hlink : r.link c.schema = .ok link) (hchild : link.childColumns ≠ []) :
    ∃ root, Compiler.run (batchSelect c r) = .ok root ∧
      q = ⟨⟨c.statement root.select, root.assembler⟩, root.grouping⟩ ∧
      q.grouping.keys = firstOccurrences (requested.map .ofMembers) ∧
      ∀ related : KeyMap → List Row,
        (∀ k ∈ q.grouping.keys, ∀ row ∈ related k, q.grouping.IsRelated q.assembler row) →
        ∀ rows, Interleaving (q.grouping.keys.map fun k =>
            q.grouping.leftJoin root.select.outputs k (related k)) rows →
          (q.grouping.group q.assembler rows).map (fun group => (group.1, group.2.map some)) =
            q.grouping.keys.map fun k => (k, (related k).map q.assembler.read) := by
  obtain ⟨root, hroot, h⟩ := bind_ok.1 h
  obtain rfl := pure_ok.1 h
  obtain ⟨n', hrun⟩ := run_ok.1 hroot
  obtain ⟨run, rfl⟩ := batchSelect_run hrun
  obtain rfl : run.link = link := Except.ok.inj (run.link_eq.symm.trans hlink)
  have hseparates := run.separates hchild
  exact ⟨_, hroot, rfl, JoinKeys.ofList_eq_ok.1 hkeys, fun related hrelated rows hrows =>
    hseparates.group_leftJoin hrelated hrows⟩

/-- The keys of two books, one of them twice. -/
def requestedBooks : List (List (String × Value)) :=
  [[("id", .int 1)], [("id", .int 2)], [("id", .int 1)]]

/-- Two loans of the first book, and none of the second. -/
def relatedLoans (k : KeyMap) : List Row :=
  if k == idKey 1 then
    [[("x2", .int 10), ("x3", .int 1)], [("x2", .int 11), ("x3", .int 1)]]
  else []

/-- The rows of both books, those of the first not side by side. -/
def joinedLoans : List Row := [
  [("x1", .int 1), ("x2", .int 10), ("x3", .int 1)],
  [("x1", .int 2), ("x2", .null), ("x3", .null)],
  [("x1", .int 1), ("x2", .int 11), ("x3", .int 1)]]

theorem batch_regroups_loans :
    JoinKeys.ofList (requestedBooks.map .ofMembers) = .ok loansRequest.keys ∧
    ∃ q root, library.batch loansRequest = .ok q ∧
      Compiler.run (batchSelect library loansRequest) = .ok root ∧
      (∀ k ∈ q.grouping.keys, ∀ row ∈ relatedLoans k, q.grouping.IsRelated q.assembler row) ∧
      Interleaving (q.grouping.keys.map fun k =>
        q.grouping.leftJoin root.select.outputs k (relatedLoans k)) joinedLoans ∧
      (q.grouping.group q.assembler joinedLoans).map (fun group => (group.1, group.2.map some)) = [
        (idKey 1, [some (.object [("id", .int 10)]), some (.object [("id", .int 11)])]),
        (idKey 2, [])] := by
  have hkeys : JoinKeys.ofList (requestedBooks.map .ofMembers) = .ok loansRequest.keys := rfl
  have hlink : loansRequest.link library.schema = .ok _ := rfl
  have hparts : (Compiler.run (batchSelect library loansRequest)).toOption.map (fun b =>
      (b.grouping, b.assembler, b.select.outputs)) = some (
        ⟨loansRequest.keys.keys, [("id", "x1")], ["x3"]⟩,
        ⟨[("id", .column "x2")], some "x3", none⟩, ["x1", "x2", "x3"]) := rfl
  obtain ⟨q, hq⟩ : ∃ q, library.batch loansRequest = .ok q := ⟨_, rfl⟩
  obtain ⟨root, hroot, rfl, -, hgroup⟩ := batch_regroups hq hkeys hlink (by decide)
  refine ⟨hkeys, _, root, hq, hroot, ?_⟩
  clear hq
  obtain ⟨select, assembler, grouping⟩ := root
  rw [hroot] at hparts
  dsimp only [Except.toOption, Option.map_some] at hparts hgroup ⊢
  rw [Option.some.injEq, Prod.mk.injEq, Prod.mk.injEq] at hparts
  obtain ⟨rfl, rfl, houtputs⟩ := hparts
  rw [houtputs] at hgroup ⊢
  refine ⟨?related, ?rows, hgroup relatedLoans ?related joinedLoans ?rows⟩
  case related => decide
  case rows => exact .cons (.cons .nil (.left .nil)) (.left (.right (.left .nil)))

end LateralSql
