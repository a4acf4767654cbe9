/-
  The keys of to-many objects in an answer.

  Of a to-many object an answer holds a key alone, under a label of its own.  Wherever the object
  stands in the request (`ToManyAt`), the assembler has the key at the same position (`Exposes`),
  and the key has the parent's columns of the object's link, in their order.
-/
import LateralSql.Proofs.Suppression

namespace LateralSql

/-! ## Members -/

namespace Value

/-- The member at a position, with its name. -/
def member? : Value → List Nat → Option (String × Value)
  | .object members, [i] => members[i]?
  | .object members, i :: path => members[i]?.bind fun m => m.2.member? path
  | _, _ => none

theorem member?_cons {members : List (String × Value)} {i : Nat} {path : List Nat}
    (hpath : path ≠ []) :
    (Value.object members).member? (i :: path) = members[i]?.bind fun m => m.2.member? path := by
  cases path with
  | nil => exact (hpath rfl).elim
  | cons j path => rfl

theorem member?_null (path : List Nat) : Value.null.member? path = none := by
  cases path <;> rfl

/-- The key that stands at a position under the label of a to-many object. -/
def joinKey? (label : String) (path : List Nat) (v : Value) : Option KeyMap :=
  match v.member? path with
  | some (name, .object members) =>
    if name = joinLabel label then some (.ofMembers members) else none
  | _ => none

end Value

/-- The keys that the answers of some rows hold. -/
def Assembler.joinKeys (a : Assembler) (label : String) (path : List Nat) (rows : List Row) :
    List KeyMap :=
  rows.filterMap fun row => (a.read row).bind (·.joinKey? label path)

/-! ## Positions of keys -/

/-- A to-many object at a position of the answer to a request for `e`: the entity that has its
    field, what is requested of it, the field and the link.  All objects around it are embedded or
    to-one. -/
inductive ToManyAt (s : Schema) : Entity → ObjectRequest → List Nat → Entity →
    ObjectFieldRequest → ObjectField → Link → Prop
  | here {e : Entity} {r : ObjectRequest} {i : Nat} {o : ObjectFieldRequest} {f : ObjectField}
      {link : Link} :
      r.objects[i]? = some o → e.objectField o.field = .ok f → f.isEmbedded = false →
      f.isList = true → Link.resolve s e f = .ok link →
      ToManyAt s e r [r.selected.length + i] e o f link
  | inside {e target e' : Entity} {r : ObjectRequest} {i : Nat} {o o' : ObjectFieldRequest}
      {f f' : ObjectField} {path : List Nat} {link : Link} :
      r.objects[i]? = some o → e.objectField o.field = .ok f →
      f.isEmbedded = true ∨ f.isList = false → s.entity f.target = .ok target →
      ToManyAt s target o.request path e' o' f' link →
      ToManyAt s e r ((r.selected.length + i) :: path) e' o' f' link

/-- A key at a position, with its label and the names of its members. -/
inductive Exposes : List (String × FieldReader) → List Nat → String → List String → Prop
  | here {fields : List (String × FieldReader)} {i : Nat} {label : String}
      {columns : List (String × String)} :
      fields[i]? = some (label, .joinKey columns) → Exposes fields [i] label (columns.map (·.1))
  | inside {fields : List (String × FieldReader)} {i : Nat} {name label : String} {a : Assembler}
      {path : List Nat} {names : List String} :
      fields[i]? = some (name, .object a) → a.nullObject = none →
      Exposes a.fields path label names → Exposes fields (i :: path) label names

namespace Exposes

variable {fields : List (String × FieldReader)} {path : List Nat} {label : String}
  {names : List String}

theorem ne_nil (h : Exposes fields path label names) : path ≠ [] := by
  cases h <;> simp

/-- Fields around others move their positions. -/
theorem extend {i : Nat} (h : Exposes fields (i :: path) label names)
    (before after : List (String × FieldReader)) :
    Exposes (before ++ fields ++ after) ((before.length + i) :: path) label names := by
  have hmoved {f : String × FieldReader} (hf : fields[i]? = some f) :=
    getElem?_append_between hf before after
  cases h with
  | here hfield => exact .here (hmoved hfield)
  | inside hfield hnone hinside => exact .inside (hmoved hfield) hnone hinside

/-- **What stands at the position of a key** in an answer is the key, under its label. -/
theorem members (h : Exposes fields path label names) (row : Row) {m : String × Value}
    (hm : (Value.object (Assembler.readFields row fields)).member? path = some m) :
    ∃ ms, m = (label, .object ms) ∧ ms.map (·.1) = names := by
  induction h with
  | @here fields i label columns hfield =>
    rw [Value.member?, Assembler.readFields_eq, List.getElem?_map, hfield] at hm
    obtain rfl := Option.some.inj hm
    exact ⟨_, rfl, by rw [List.map_map]; rfl⟩
  | @inside fields i name label a path names hfield hnone hinside ih =>
    rw [Value.member?_cons hinside.ne_nil, Assembler.readFields_eq, List.getElem?_map,
      hfield] at hm
    change (Assembler.readField row (.object a)).member? path = some m at hm
    rw [Assembler.readField] at hm
    cases habsent : Assembler.isAbsent a.checkNull row with
    | true =>
      rw [Assembler.read_of_absent habsent, hnone, Option.getD_none, Value.member?_null] at hm
      cases hm
    | false =>
      rw [Assembler.read_of_present habsent] at hm
      exact ih hm

/-- A key is there if all objects around it are. -/
theorem exists_member (h : Exposes fields path label names) {row : Row}
    (hpresent : ∀ p, p <+: path → p ≠ path →
      ∃ ms, (Value.object (Assembler.readFields row fields)).at? p = some (.object ms)) :
    ∃ m, (Value.object (Assembler.readFields row fields)).member? path = some m := by
  induction h with
  | @here fields i label columns hfield =>
    rw [Value.member?, Assembler.readFields_eq, List.getElem?_map, hfield]
    exact ⟨_, rfl⟩
  | @inside fields i name label a path names hfield hnone hinside ih =>
    have hat (p : List Nat) :
        (Value.object (Assembler.readFields row fields)).at? (i :: p) =
          (Assembler.readField row (.object a)).at? p := by
      rw [Value.at?, Assembler.readFields_eq, List.getElem?_map, hfield]
      rfl
    -- the object itself encloses the key, so it is there
    obtain ⟨ms, hms⟩ := hpresent [i] (by simp) (by simpa using hinside.ne_nil.symm)
    rw [hat] at hms
    have hread : Assembler.readField row (.object a) =
        .object (Assembler.readFields row a.fields) := by
      rw [Assembler.readField]
      cases habsent : Assembler.isAbsent a.checkNull row with
      | true =>
        rw [Assembler.readField, Assembler.read_of_absent habsent, hnone] at hms
        cases hms
      | false =>
        rw [Assembler.read_of_present habsent]
        rfl
    have hinner : ∀ p, p <+: path → p ≠ path →
        ∃ ms, (Value.object (Assembler.readFields row a.fields)).at? p = some (.object ms) := by
      intro p hp hne
      obtain ⟨ms, hms⟩ := hpresent (i :: p) (by simpa using hp) (by simpa using hne)
      rw [hat, hread] at hms
      exact ⟨ms, hms⟩
    obtain ⟨m, hm⟩ := ih hinner
    refine ⟨m, ?_⟩
    rw [Value.member?_cons hinside.ne_nil, Assembler.readFields_eq, List.getElem?_map, hfield]
    change (Assembler.readField row (.object a)).member? path = some m
    rw [hread, hm]

end Exposes

/-! ## Compiled requests -/

/-- The key of a request's object is among what is read of its objects, wherever it is compiled. -/
def ExposesObjects (c : Compiler) (s : Scope) (r : ObjectRequest) (path : List Nat)
    (label : String) (names : List String) : Prop :=
  ∀ ⦃d n objects d' n'⦄, objectReaders c s r.objects d n = .ok ((objects, d'), n') →
    ∃ i rest, path = (r.selected.length + i) :: rest ∧ Exposes objects (i :: rest) label names

section
variable {c : Compiler} {s : Scope} {r : ObjectRequest} {path : List Nat} {label : String}
  {names : List String} {d d' : Draft} {n n' : Names}

theorem embeddedReaders_exposes (hobjects : ExposesObjects c s r path label names)
    {fields : List (String × FieldReader)}
    (h : embeddedReaders c s r d n = .ok ((fields, d'), n')) : Exposes fields path label names := by
  obtain ⟨entity, selected, objects, aggregates, filters, sort, paging, keys, context⟩ := r
  rw [embeddedReaders] at h
  obtain ⟨columns, d₁, n₁, hcolumns, h⟩ := draft_bind_run.1 h
  obtain ⟨readers, d₂, n₂, hreaders, h⟩ := draft_bind_run.1 h
  obtain ⟨results, d₃, n₃, -, h⟩ := draft_bind_run.1 h
  obtain ⟨rfl, rfl, rfl⟩ := draft_pure_run.1 h
  obtain ⟨i, rest, rfl, hexposes⟩ := hobjects hreaders
  rw [← length_columnReaders hcolumns]
  exact hexposes.extend _ _

theorem NodeRun.exposes {parent : Option Parent} (run : NodeRun c parent r n n')
    (hobjects : ExposesObjects c ⟨run.entity, run.name⟩ r path label names) :
    Exposes run.node.assembler.fields path label names := by
  obtain ⟨i, rest, rfl, hexposes⟩ := hobjects run.objects_run
  rw [← length_columnReaders run.selected_run]
  exact hexposes.extend _ _

/-- A key in one of the objects is a key of the request. -/
theorem exposesObjects_of_field {i : Nat} {o : ObjectFieldRequest} (ho : r.objects[i]? = some o)
    (hfield : ∀ ⦃d n reader d' n'⦄, objectReader c s o d n = .ok ((reader, d'), n') →
      Exposes [reader] (0 :: path) label names) :
    ExposesObjects c s r ((r.selected.length + i) :: path) label names := by
  intro d n objects d' n' hrun
  obtain ⟨before, reader, after, d₁, n₁, d₂, n₂, rfl, rfl, -, hreader, -⟩ :=
    objectReaders_split ho hrun
  have hall := (hfield hreader).extend before after
  rw [List.append_assoc] at hall
  exact ⟨before.length, path, rfl, hall⟩

end

theorem exposesObjects_of_toManyAt {c : Compiler} {e e' : Entity} {r : ObjectRequest}
    {path : List Nat} {o : ObjectFieldRequest} {f : ObjectField} {link : Link}
    (h : ToManyAt c.schema e r path e' o f link) (name : String) :
    ExposesObjects c ⟨e, name⟩ r path (joinLabel o.label) link.parentColumns := by
  induction h generalizing name with
  | here ho hfield hembedded hlist hlink =>
    refine exposesObjects_of_field ho fun d n reader d' n' hrun => ?_
    obtain ⟨f, hf, -, hobject⟩ := objectReader_run hrun
    obtain rfl := Except.ok.inj (hf.symm.trans hfield)
    cases hobject with
    | embedded h => rw [hembedded] at h; cases h
    | toMany _ _ hkey =>
      obtain ⟨link', columns, hlink', hnames, rfl⟩ := selectJoinKey_run hkey
      obtain rfl := Except.ok.inj (hlink'.symm.trans hlink)
      rw [← hnames]
      exact .here rfl
    | toOne _ h => rw [hlist] at h; cases h
  | inside ho hfield hkind htarget _ ih =>
    refine exposesObjects_of_field ho fun d n reader d' n' hrun => ?_
    obtain ⟨f, hf, hentity, hobject⟩ := objectReader_run hrun
    obtain rfl := Except.ok.inj (hf.symm.trans hfield)
    rw [← hentity] at htarget
    cases hobject with
    | embedded _ hentity' hfields =>
      obtain rfl := Except.ok.inj (hentity'.symm.trans htarget)
      exact .inside rfl rfl (embeddedReaders_exposes (ih _) hfields)
    | toMany hembedded hlist =>
      rw [hembedded, hlist] at hkind
      simp at hkind
    | toOne _ _ _ _ hnode =>
      obtain ⟨run, rfl⟩ := node_run hnode
      obtain rfl := Except.ok.inj (run.entity_run.symm.trans htarget)
      exact .inside rfl rfl (run.exposes (ih _))

/-- How the rows of a request are read that is compiled: on its own, as the root of a collection, or
    as what is requested in a batch. -/
inductive Compiler.Reads (c : Compiler) : ObjectRequest → Assembler → Prop
  | object {r : ObjectRequest} {q : CompiledQuery} : c.object r = .ok q → Reads c r q.assembler
  | collection {r : CollectionRequest} {q : CompiledQuery} :
      c.collection r = .ok q → Reads c r.root q.assembler
  | batch {r : BatchRequest} {q : CompiledBatch} :
      c.batch r = .ok q → Reads c r.request q.assembler

namespace Compiler.Reads

variable {c : Compiler} {r : ObjectRequest} {a : Assembler}

theorem exists_nodeRun (h : c.Reads r a) :
    ∃ parent n n', ∃ run : NodeRun c parent r n n', run.node.assembler = a := by
  have hobject {r : ObjectRequest} {q : CompiledQuery} (hq : c.object r = .ok q) :
      ∃ parent n n', ∃ run : NodeRun c parent r n n', run.node.assembler = q.assembler := by
    obtain ⟨root, hroot, hq⟩ := bind_ok.1 hq
    obtain rfl := pure_ok.1 hq
    obtain ⟨n', hrun⟩ := run_ok.1 hroot
    obtain ⟨run, rfl⟩ := node_run hrun
    exact ⟨none, {}, n', run, rfl⟩
  cases h with
  | object hq => exact hobject hq
  | collection hq => exact hobject hq
  | batch hq =>
    obtain ⟨root, hroot, hq⟩ := bind_ok.1 hq
    obtain rfl := pure_ok.1 hq
    obtain ⟨n', hrun⟩ := run_ok.1 hroot
    obtain ⟨batch, rfl⟩ := batchSelect_run hrun
    obtain ⟨run, hrun⟩ := node_run batch.child_run
    exact ⟨_, _, n', run, congrArg Node.assembler hrun⟩

/-- **A compiled request has the key of each to-many object** at the position of the object. -/
theorem exposes (h : c.Reads r a) {e e' : Entity} (he : c.schema.entity r.entity = .ok e)
    {path : List Nat} {o : ObjectFieldRequest} {f : ObjectField} {link : Link}
    (hat : ToManyAt c.schema e r path e' o f link) :
    Exposes a.fields path (joinLabel o.label) link.parentColumns ∧ a.nullObject = none := by
  obtain ⟨parent, n, n', run, rfl⟩ := h.exists_nodeRun
  obtain rfl := Except.ok.inj (run.entity_run.symm.trans he)
  exact ⟨run.exposes (exposesObjects_of_toManyAt hat run.name), rfl⟩

end Compiler.Reads

end LateralSql
