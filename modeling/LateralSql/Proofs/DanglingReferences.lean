/-
  When a relation has no link.

  The join columns of a relation are looked up, each in one of the two entities: those of the field
  itself, or those of its owner as the owner reads them (`ObjectField.Reads`).  In an accepted
  schema the entities and owners are there, so only two things can go wrong: the field is embedded,
  or a join column refers to a field that its entity does not have as a scalar
  (`JoinColumn.Dangles`).
-/
import LateralSql.Proofs.InverseRelations
import LateralSql.Proofs.Outcomes

namespace LateralSql

/-! ## Join columns -/

/-- The join column refers to a field that the entity does not have, or that is not a scalar. -/
def JoinColumn.Dangles (e : Entity) (j : JoinColumn) : Prop :=
  ∃ name, j.referenced = .field name ∧ ∀ f, e.field name ≠ .ok (.scalar f)

/-- The error is that an entity does not have a field, or not as a scalar. -/
def ModelError.IsScalarFault : ModelError → Prop
  | .fieldNotFound _ _ | .notScalar _ _ => True
  | _ => False

theorem Entity.scalarField_ends (e : Entity) (name : String) :
    Ends (fun m => (∀ f, e.field name ≠ .ok (.scalar f)) ∧ m.IsScalarFault)
      (fun f => e.field name = .ok (.scalar f)) (e.scalarField name) := by
  unfold scalarField field
  cases e.fields.find? (·.name = name) with
  | none => exact .error ⟨by simp, trivial⟩
  | some f =>
    cases f with
    | scalar f => exact .ok rfl
    | object f => exact .error ⟨by simp, trivial⟩

namespace JoinColumn

theorem referencedColumn_ends (e : Entity) (j : JoinColumn) :
    Ends (fun m => j.Dangles e ∧ m.IsScalarFault) (fun _ => ¬ j.Dangles e)
      (j.referencedColumn e) := by
  unfold referencedColumn
  split
  · next name hcolumn =>
    refine .ok ?_
    rintro ⟨_, hfield, -⟩
    cases hcolumn.symm.trans hfield
  · next name hfield =>
    refine ((e.scalarField_ends name).mono_error fun m hm => ?_).bind fun f hf => .pure ?_
    · exact ⟨⟨name, hfield, hm.1⟩, hm.2⟩
    · rintro ⟨name', hfield', hnone⟩
      cases hfield.symm.trans hfield'
      exact hnone f hf

theorem pairs_ends (e : Entity) (js : List JoinColumn) :
    Ends (fun m => ∃ j ∈ js, j.Dangles e ∧ m.IsScalarFault) (fun _ => ∀ j ∈ js, ¬ j.Dangles e)
      (JoinColumn.pairs e js) :=
  .mapM fun j _ => (j.referencedColumn_ends e).bind fun _ h => .pure h

end JoinColumn

/-! ## Fields -/

/-- The join columns of the field `f` of `e`, each with the entity in which it is looked up. -/
inductive ObjectField.Reads (s : Schema) : Entity → ObjectField → JoinColumn → Entity → Prop
  | ownColumn {e target : Entity} {f : ObjectField} {js : List JoinColumn} {j : JoinColumn} :
      f.relation = some (.joinColumns js) → s.entity f.target = .ok target → j ∈ js →
      Reads s e f j target
  | ownerSide {e : Entity} {f : ObjectField} {t : JoinTable} {j : JoinColumn} :
      f.relation = some (.joinTable t) → j ∈ t.joinColumns → Reads s e f j e
  | targetSide {e target : Entity} {f : ObjectField} {t : JoinTable} {j : JoinColumn} :
      f.relation = some (.joinTable t) → s.entity f.target = .ok target →
      j ∈ t.inverseJoinColumns → Reads s e f j target
  /-- An inverse relation reads what its owner reads. -/
  | throughOwner {e target x : Entity} {f g : ObjectField} {owner : String} {j : JoinColumn} :
      f.relation = some (.mappedBy owner) → s.entity f.target = .ok target →
      target.objectField owner = .ok g → Reads s target g j x → Reads s e f j x

section
variable {s : Schema} {e target x : Entity} {f g : ObjectField} {j : JoinColumn}

namespace ObjectField

theorem reads_joinColumns {js : List JoinColumn} (hr : f.relation = some (.joinColumns js))
    (ht : s.entity f.target = .ok target) : f.Reads s e j x ↔ j ∈ js ∧ x = target := by
  constructor
  · intro h
    cases h with
    | ownColumn hr' ht' hj =>
      cases hr.symm.trans hr'
      cases ht.symm.trans ht'
      exact ⟨hj, rfl⟩
    | ownerSide hr' _ | targetSide hr' _ _ | throughOwner hr' _ _ _ => cases hr.symm.trans hr'
  · rintro ⟨hj, rfl⟩
    exact .ownColumn hr ht hj

theorem reads_joinTable {t : JoinTable} (hr : f.relation = some (.joinTable t))
    (ht : s.entity f.target = .ok target) :
    f.Reads s e j x ↔ j ∈ t.joinColumns ∧ x = e ∨ j ∈ t.inverseJoinColumns ∧ x = target := by
  constructor
  · intro h
    cases h with
    | ownerSide hr' hj =>
      cases hr.symm.trans hr'
      exact .inl ⟨hj, rfl⟩
    | targetSide hr' ht' hj =>
      cases hr.symm.trans hr'
      cases ht.symm.trans ht'
      exact .inr ⟨hj, rfl⟩
    | ownColumn hr' _ _ | throughOwner hr' _ _ _ => cases hr.symm.trans hr'
  · rintro (⟨hj, rfl⟩ | ⟨hj, rfl⟩)
    · exact .ownerSide hr hj
    · exact .targetSide hr ht hj

theorem reads_mappedBy {owner : String} (hr : f.relation = some (.mappedBy owner))
    (ht : s.entity f.target = .ok target) (hg : target.objectField owner = .ok g) :
    f.Reads s e j x ↔ g.Reads s target j x := by
  constructor
  · intro h
    cases h with
    | throughOwner hr' ht' hg' h =>
      cases hr.symm.trans hr'
      cases ht.symm.trans ht'
      cases hg.symm.trans hg'
      exact h
    | ownColumn hr' _ _ | ownerSide hr' _ | targetSide hr' _ _ => cases hr.symm.trans hr'
  · exact .throughOwner hr ht hg

end ObjectField

variable (s e f) in
/-- Why the field `f` of `e` has no link. -/
inductive ObjectField.Unlinked : QueryError → Prop
  | embedded :
      f.isEmbedded = true → Unlinked (.invalidRequest (.embeddedJoin e.name f.name))
  | dangling {j : JoinColumn} {x : Entity} {m : ModelError} :
      f.Reads s e j x → j.Dangles x → m.IsScalarFault → Unlinked (.model m)

theorem ObjectField.pairs_ends_reading {js : List JoinColumn} (h : ∀ j ∈ js, f.Reads s e j x) :
    Ends (f.Unlinked s e) (fun _ => ∀ j ∈ js, ¬ j.Dangles x)
      (liftM (JoinColumn.pairs x js) : Except QueryError _) := by
  refine (JoinColumn.pairs_ends x js).of_model ?_
  rintro m ⟨j, hj, hdangles, hm⟩
  exact .dangling (h j hj) hdangles hm

/-- What resolving a field of an accepted schema ends in. -/
theorem Link.resolve_ends_reading {es : List Entity} (hs : Schema.ofEntities es = .ok s)
    (he : e ∈ s.entities) (hf : .object f ∈ e.fields) :
    Ends (f.Unlinked s e)
      (fun _ => f.isEmbedded = false ∧ ∀ j x, f.Reads s e j x → ¬ j.Dangles x)
      (Link.resolve s e f) := by
  obtain ⟨target, ht, howner⟩ := Schema.checkField_ok.1
    (Schema.checkField_of_check (Schema.check_of_ofEntities hs) he hf)
  have htarget : Ends (fun _ => False) (· = target) (s.entity f.target) := ht ▸ .ok rfl
  unfold Link.resolve
  refine (htarget.of_model fun _ h => h.elim).bind ?_
  rintro child rfl
  cases hr : f.relation with
  | none => exact .throw (.embedded (by simp [ObjectField.isEmbedded, hr]))
  | some r =>
    have hrelated : f.isEmbedded = false := by simp [ObjectField.isEmbedded, hr]
    cases r with
    | joinColumns js =>
      refine (ObjectField.pairs_ends_reading fun j => .ownColumn hr ht).bind fun _ hjs =>
        .pure ⟨hrelated, fun j x h => ?_⟩
      obtain ⟨hj, rfl⟩ := (ObjectField.reads_joinColumns hr ht).1 h
      exact hjs j hj
    | joinTable t =>
      refine (ObjectField.pairs_ends_reading fun j => .ownerSide hr).bind fun _ hparent =>
        (ObjectField.pairs_ends_reading fun j => .targetSide hr ht).bind fun _ hchild =>
          .pure ⟨hrelated, fun j x h => ?_⟩
      rcases (ObjectField.reads_joinTable hr ht).1 h with ⟨hj, rfl⟩ | ⟨hj, rfl⟩
      · exact hparent j hj
      · exact hchild j hj
    | mappedBy owner =>
      obtain ⟨g, hg, howns, hback⟩ := howner owner hr
      have hentity : s.entity g.target = .ok e := hback ▸ Schema.entity_of_mem hs he
      have hfound : Ends (fun _ => False) (· = g) (child.objectField owner) := hg ▸ .ok rfl
      -- the owner's columns are looked up as the owner reads them, with `e` as its target
      have hreads {j : JoinColumn} {x : Entity} : f.Reads s e j x ↔ g.Reads s child j x :=
        ObjectField.reads_mappedBy hr ht hg
      refine (hfound.of_model fun _ h => h.elim).bind ?_
      rintro _ rfl
      rcases howns.cases with ⟨js, hgr⟩ | ⟨t, hgr⟩
      · rw [hgr]
        refine (ObjectField.pairs_ends_reading fun j hj =>
          hreads.2 (.ownColumn hgr hentity hj)).bind fun _ hjs => .pure ⟨hrelated, fun j x h => ?_⟩
        obtain ⟨hj, rfl⟩ := (ObjectField.reads_joinColumns hgr hentity).1 (hreads.1 h)
        exact hjs j hj
      · rw [hgr]
        refine (ObjectField.pairs_ends_reading fun j hj =>
          hreads.2 (.targetSide hgr hentity hj)).bind fun _ hparent => ?_
        refine (ObjectField.pairs_ends_reading fun j hj =>
          hreads.2 (.ownerSide hgr hj)).bind fun _ hchild => .pure ⟨hrelated, fun j x h => ?_⟩
        rcases (ObjectField.reads_joinTable hgr hentity).1 (hreads.1 h) with ⟨hj, rfl⟩ | ⟨hj, rfl⟩
        · exact hchild j hj
        · exact hparent j hj

end

/-- **What acceptance guarantees to links.**  In an accepted schema a field has no link if and only
    if it is embedded or some join column that it reads, its own or its owner's, refers to a field
    that is missing or not a scalar in the entity where it is looked up.  It never fails for want of
    an entity, nor because the owner of an inverse relation does not own it. -/
theorem link_missing_iff {es : List Entity} {s : Schema} (hs : Schema.ofEntities es = .ok s)
    {e : Entity} (he : e ∈ s.entities) {f : ObjectField} (hf : .object f ∈ e.fields) :
    ((∃ err, Link.resolve s e f = .error err) ↔
      f.isEmbedded = true ∨ ∃ j x, f.Reads s e j x ∧ j.Dangles x) ∧
    ∀ err, Link.resolve s e f = .error err →
      (∀ name, err ≠ .model (.entityNotFound name)) ∧
      ∀ field fault, err ≠ .model (.invalidRelation field fault) := by
  have hends := Link.resolve_ends_reading hs he hf
  refine ⟨⟨?_, fun h => ?_⟩, fun err herr => ?_⟩
  · rintro ⟨err, herr⟩
    cases hends.of_error herr with
    | embedded hembedded => exact .inl hembedded
    | dangling hreads hdangles _ => exact .inr ⟨_, _, hreads, hdangles⟩
  · cases hresolve : Link.resolve s e f with
    | error err => exact ⟨err, rfl⟩
    | ok l =>
      obtain ⟨hrelated, hresolves⟩ := hends.of_ok hresolve
      rcases h with hembedded | ⟨j, x, hreads, hdangles⟩
      · rw [hrelated] at hembedded
        cases hembedded
      · exact absurd hdangles (hresolves j x hreads)
  · cases hends.of_error herr with
    | embedded _ => exact ⟨fun _ => nofun, fun _ _ => nofun⟩
    | dangling _ _ hm =>
      refine ⟨fun name h => ?_, fun field fault h => ?_⟩
      · cases h
        exact hm
      · cases h
        exact hm

/-- A beer that refers to its brewery by the brewery's beers. -/
def misreferringBeer : Entity where
  name := "Beer"
  table := { name := "beer" }
  fields := [
    .object {
      name := "brewery", target := "Brewery"
      relation := some (.joinColumns [⟨"brewery_id", .field "beers"⟩]) }]

/-- The beers of a brewery, by the field of a beer that owns the relation. -/
def beersOfBrewery : ObjectField where
  name := "beers"
  target := "Beer"
  isList := true
  relation := some (.mappedBy "brewery")

/-- The brewery's beers have no link, since their owner looks for a scalar where they are.  With
    another owner they have one. -/
theorem link_missing_iff_beers :
    (∃ s, Schema.ofEntities [brewery, misreferringBeer] = .ok s ∧
      (∃ j, beersOfBrewery.Reads s brewery j brewery ∧ j.Dangles brewery) ∧
      ∃ err, Link.resolve s brewery beersOfBrewery = .error err ∧
        ∀ name, err ≠ .model (.entityNotFound name)) ∧
    ∃ s, Schema.ofEntities [brewery, beer, style] = .ok s ∧
      ∀ j x, beersOfBrewery.Reads s brewery j x → ¬ j.Dangles x := by
  have hfield : Field.object beersOfBrewery ∈ brewery.fields := by simp [brewery, beersOfBrewery]
  have hmisreferring : Schema.ofEntities [brewery, misreferringBeer] =
      .ok ⟨[brewery, misreferringBeer]⟩ := rfl
  have hreferring : Schema.ofEntities [brewery, beer, style] = .ok ⟨[brewery, beer, style]⟩ := rfl
  refine ⟨⟨_, hmisreferring, ?_⟩, _, hreferring, ?_⟩
  · obtain ⟨hiff, hnever⟩ := link_missing_iff hmisreferring List.mem_cons_self hfield
    have htarget : Schema.entity ⟨[brewery, misreferringBeer]⟩ "Beer" = .ok misreferringBeer := rfl
    have hreads : beersOfBrewery.Reads ⟨[brewery, misreferringBeer]⟩ brewery
        ⟨"brewery_id", .field "beers"⟩ brewery :=
      .throughOwner rfl htarget rfl (.ownColumn rfl rfl List.mem_cons_self)
    have hdangles : JoinColumn.Dangles brewery ⟨"brewery_id", .field "beers"⟩ :=
      ⟨"beers", rfl, fun f h => by cases h⟩
    obtain ⟨err, herr⟩ := hiff.2 (.inr ⟨_, _, hreads, hdangles⟩)
    exact ⟨⟨_, hreads, hdangles⟩, err, herr, (hnever err herr).1⟩
  · obtain ⟨hiff, -⟩ := link_missing_iff hreferring List.mem_cons_self hfield
    intro j x hreads hdangles
    obtain ⟨err, herr⟩ := hiff.2 (.inr ⟨j, x, hreads, hdangles⟩)
    cases herr

end LateralSql
