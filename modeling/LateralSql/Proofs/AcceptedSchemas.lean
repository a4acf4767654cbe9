/-
  Which lists of entities make a schema.

  Of several entities with one name the last counts, and of an entity's fields the last of each name
  (`IsLast`).  A list is accepted if and only if each entity that counts is well formed among those
  that count (`Entity.WellFormed`).  Nothing else of the order matters, so entities with distinct
  names are accepted in every order or in none.
-/
import LateralSql.Proofs.InverseRelations

namespace LateralSql

/-! ## Declarations -/

/-- The entity with its fields added one by one, the last of a name in the place of the first. -/
def Entity.built (e : Entity) : Entity := e.fields.foldl Entity.withField { e with fields := [] }

/-- What the names of an entity have to stand for among the entities `es`. -/
structure Entity.WellFormed (es : List Entity) (e : Entity) : Prop where
  /-- A key is a scalar field. -/
  keys : ∀ k ∈ e.keys, ∃ f : ScalarField, IsLast Field.name (.scalar f) e.fields ∧ f.name = k
  /-- An object field has a target.  The inverse of a relation names an object field of the target,
      which has a relation of its own, back to the entity. -/
  objects : ∀ f : ObjectField, IsLast Field.name (.object f) e.fields →
    ∃ target, IsLast Entity.name target es ∧ target.name = f.target ∧
      ∀ owner, f.relation = some (.mappedBy owner) →
        ∃ g : ObjectField, IsLast Field.name (.object g) target.fields ∧ g.name = owner ∧
          g.Owns ∧ g.target = e.name

section
variable {es es' : List Entity} {e : Entity} {name : String}

theorem Entity.foldl_withField (e : Entity) (fs : List Field) :
    fs.foldl Entity.withField e =
      { e with fields := fs.foldl (fun acc f => putBy Field.name f acc) e.fields } := by
  induction fs generalizing e with
  | nil => rfl
  | cons f fs ih => exact ih (e.withField f)

theorem Entity.built_eq (e : Entity) : e.built = { e with fields := lastBy Field.name e.fields } :=
  Entity.foldl_withField _ _

theorem Entity.built_name (e : Entity) : e.built.name = e.name := by rw [e.built_eq]

theorem Entity.mem_built_fields {f : Field} :
    f ∈ e.built.fields ↔ IsLast Field.name f e.fields := by
  rw [e.built_eq]
  exact mem_lastBy

theorem Entity.built_field_ok {f : Field} :
    e.built.field name = .ok f ↔ IsLast Field.name f e.fields ∧ f.name = name := by
  rw [field_ok, e.built_eq, find?_key (lastBy_nodup _ _), mem_lastBy]

/-- The schema of the entities, before it is checked. -/
def Schema.ofBuilt (es : List Entity) : Schema := ⟨lastBy Entity.name (es.map Entity.built)⟩

namespace Schema

theorem mem_ofBuilt {d : Entity} :
    d ∈ (ofBuilt es).entities ↔ ∃ e, IsLast Entity.name e es ∧ e.built = d := by
  rw [ofBuilt, mem_lastBy, isLast_map]
  simp only [Entity.built_name]

theorem entity_ofBuilt {d : Entity} :
    (ofBuilt es).entity name = .ok d ↔
      ∃ e, IsLast Entity.name e es ∧ e.name = name ∧ e.built = d := by
  rw [entity_ok, ofBuilt, find?_key (lastBy_nodup _ _)]
  refine (and_congr_left' mem_ofBuilt).trans ?_
  constructor
  · rintro ⟨⟨e, he, rfl⟩, hname⟩
    exact ⟨e, he, e.built_name ▸ hname, rfl⟩
  · rintro ⟨e, he, hname, rfl⟩
    exact ⟨⟨e, he, rfl⟩, e.built_name.trans hname⟩

theorem checkField_ofBuilt {f : ObjectField} : (ofBuilt es).checkField e.built f = .ok () ↔
    ∃ target, IsLast Entity.name target es ∧ target.name = f.target ∧
      ∀ owner, f.relation = some (.mappedBy owner) →
        ∃ g : ObjectField, IsLast Field.name (.object g) target.fields ∧ g.name = owner ∧
          g.Owns ∧ g.target = e.name := by
  simp only [checkField_ok, entity_ofBuilt, Entity.built_name]
  constructor
  · rintro ⟨_, ⟨target, ht, hname, rfl⟩, howner⟩
    refine ⟨target, ht, hname, fun owner hr => ?_⟩
    obtain ⟨g, hg, hown⟩ := howner owner hr
    obtain ⟨hlast, hname⟩ := Entity.built_field_ok.1 (Entity.objectField_ok.1 hg)
    exact ⟨g, hlast, hname, hown⟩
  · rintro ⟨target, ht, hname, howner⟩
    refine ⟨target.built, ⟨target, ht, hname, rfl⟩, fun owner hr => ?_⟩
    obtain ⟨g, hlast, hname, hown⟩ := howner owner hr
    exact ⟨g, Entity.objectField_ok.2 (Entity.built_field_ok.2 ⟨hlast, hname⟩), hown⟩

theorem checkEntity_ofBuilt :
    (ofBuilt es).checkEntity e.built = .ok () ↔ e.WellFormed es := by
  have hkeys : e.built.keys = e.keys := by rw [e.built_eq]
  simp only [checkEntity_ok, checkField_ofBuilt, hkeys, Entity.mem_built_fields,
    Entity.scalarField_ok, Entity.built_field_ok]
  exact ⟨fun ⟨hkeys, hobjects⟩ => ⟨hkeys, hobjects⟩, fun h => ⟨h.keys, h.objects⟩⟩

theorem exists_ofEntities {ds : List Entity} :
    (∃ s, ofEntities ds = .ok s) ↔ check ⟨lastBy Entity.name ds⟩ = .ok () := by
  constructor
  · rintro ⟨s, h⟩
    obtain ⟨_, hcheck, -⟩ := bind_ok.1 h
    exact hcheck
  · exact fun h => ⟨_, bind_ok.2 ⟨(), h, rfl⟩⟩

/-- A schema is accepted if the entities that count are well formed. -/
theorem exists_ofEntities_built : (∃ s, ofEntities (es.map Entity.built) = .ok s) ↔
    ∀ e, IsLast Entity.name e es → e.WellFormed es := by
  rw [exists_ofEntities]
  refine forM_ok.trans ⟨fun h e he => ?_, fun h d hd => ?_⟩
  · exact checkEntity_ofBuilt.1 (h e.built (mem_ofBuilt.2 ⟨e, he, rfl⟩))
  · obtain ⟨e, he, rfl⟩ := mem_ofBuilt.1 hd
    exact checkEntity_ofBuilt.2 (h e he)

end Schema

/-- What is well formed among some entities is so among others if those that count are the same. -/
theorem Entity.WellFormed.mono (h : e.WellFormed es)
    (hlast : ∀ d, IsLast Entity.name d es → IsLast Entity.name d es') : e.WellFormed es' where
  keys := h.keys
  objects f hf := by
    obtain ⟨target, ht, howner⟩ := h.objects f hf
    exact ⟨target, hlast target ht, howner⟩

theorem wellFormed_of_perm (hnodup : (es.map Entity.name).Nodup) (hperm : es.Perm es')
    (h : ∀ e, IsLast Entity.name e es → e.WellFormed es) :
    ∀ e, IsLast Entity.name e es' → e.WellFormed es' := by
  have hnodup' : (es'.map Entity.name).Nodup := (hperm.map Entity.name).nodup_iff.1 hnodup
  have hlast (d : Entity) : IsLast Entity.name d es ↔ IsLast Entity.name d es' := by
    rw [isLast_iff_mem hnodup, isLast_iff_mem hnodup', hperm.mem_iff]
  exact fun e he => (h e ((hlast e).2 he)).mono fun d => (hlast d).1

end

/-- **Schemas are accepted if they are well formed.**  Entities, given by their fields in the order
    of declaration, make a schema if and only if each that is the last of its name is well formed:
    its keys are scalar fields, the targets of its objects exist, and an inverse relation has an
    owner in its target that points back.  If all names are distinct, the order does not matter. -/
theorem schema_accepted_iff (es : List Entity) :
    ((∃ s, Schema.ofEntities (es.map Entity.built) = .ok s) ↔
      ∀ e, IsLast Entity.name e es → e.WellFormed es) ∧
    ∀ es' : List Entity, (es.map Entity.name).Nodup → es.Perm es' →
      ((∃ s, Schema.ofEntities (es.map Entity.built) = .ok s) ↔
        ∃ s, Schema.ofEntities (es'.map Entity.built) = .ok s) := by
  refine ⟨Schema.exists_ofEntities_built, fun es' hnodup hperm => ?_⟩
  have hnodup' : (es'.map Entity.name).Nodup := (hperm.map Entity.name).nodup_iff.1 hnodup
  rw [Schema.exists_ofEntities_built, Schema.exists_ofEntities_built]
  exact ⟨wellFormed_of_perm hnodup hperm, wellFormed_of_perm hnodup' hperm.symm⟩

/-- A style whose beers are declared twice, first as a number. -/
def redeclaredStyle : Entity :=
  { taggedStyle with
    keys := ["id"]
    fields := .scalar { name := "beers", column := "beers", type := .int } :: taggedStyle.fields }

/-- The entities may come in another order, but the brewery of a beer must not be left out. -/
theorem schema_accepted_iff_styles :
    (∃ s, Schema.ofEntities ([redeclaredStyle, brewery, beer].map Entity.built) = .ok s) ∧
    redeclaredStyle.WellFormed [redeclaredStyle, brewery, beer] ∧
    ([redeclaredStyle, brewery, beer].map Entity.name).Nodup ∧
    [redeclaredStyle, brewery, beer].Perm [brewery, beer, redeclaredStyle] ∧
    (∃ s, Schema.ofEntities ([brewery, beer, redeclaredStyle].map Entity.built) = .ok s) ∧
    Schema.ofEntities ([redeclaredStyle, beer].map Entity.built) =
      .error (.entityNotFound "Brewery") := by
  have haccepted :
      ∃ s, Schema.ofEntities ([redeclaredStyle, brewery, beer].map Entity.built) = .ok s := ⟨_, rfl⟩
  have hnodup : ([redeclaredStyle, brewery, beer].map Entity.name).Nodup := by decide
  have hperm : [redeclaredStyle, brewery, beer].Perm [brewery, beer, redeclaredStyle] :=
    show ([redeclaredStyle] ++ [brewery, beer]).Perm ([brewery, beer] ++ [redeclaredStyle]) from
      List.perm_append_comm
  obtain ⟨hiff, hpermuted⟩ := schema_accepted_iff [redeclaredStyle, brewery, beer]
  have hlast : IsLast Entity.name redeclaredStyle [redeclaredStyle, brewery, beer] :=
    ⟨[], _, rfl, by decide⟩
  exact ⟨haccepted, hiff.1 haccepted _ hlast, hnodup, hperm,
    (hpermuted _ hnodup hperm).1 haccepted, rfl⟩

end LateralSql
