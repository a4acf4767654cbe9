/-
  Grouping is an order-stable partition of the rows.

  The groups are in the order of the requested keys, then of the keys that rows bring
  (`Grouping.group_eq_parts`).  Rows of different keys never meet, so any reordering that keeps
  the rows of each key in their order (`StableReordering`) has the same groups.  Rows that arrive
  one by one make the same groups, unless one of them fails to arrive.
-/
import LateralSql.Proofs.Regrouping

namespace LateralSql

/-! ## Reorderings -/

section
variable {α β : Type} [BEq β]

/-- The elements in another order, in which those with equal keys stand as before: with their old
    places, the elements are a permutation, and the places of equal keys ascend. -/
def StableReordering (key : α → β) (xs ys : List α) : Prop :=
  ∃ zs : List (α × Nat), zs.Perm xs.zipIdx ∧ zs.map (·.1) = ys ∧
    zs.Pairwise fun p q => (key p.1 == key q.1) = true → p.2 < q.2

/-- The elements of one key stand as before. -/
theorem StableReordering.filter_key [EquivBEq β] {key : α → β} {xs ys : List α}
    (h : StableReordering key xs ys) (k : β) :
    ys.filter (k == key ·) = xs.filter (k == key ·) := by
  obtain ⟨zs, hperm, rfl, hstable⟩ := h
  have hzs : (zs.filter fun p => k == key p.1).Pairwise fun p q => p.2 < q.2 := by
    refine (hstable.filter _).imp_of_mem fun {p q} hp hq hlt => hlt ?_
    exact BEq.trans (BEq.symm (List.mem_filter.1 hp).2) (List.mem_filter.1 hq).2
  have hplaces : xs.zipIdx.Pairwise fun p q => p.2 < q.2 := by
    rw [← List.pairwise_map, List.zipIdx_map_snd]
    exact List.pairwise_lt_range'
  have hxs : (xs.zipIdx.filter fun p => k == key p.1).Pairwise fun p q => p.2 < q.2 :=
    hplaces.filter _
  have heq : (zs.filter fun p => k == key p.1) = xs.zipIdx.filter fun p => k == key p.1 :=
    (hperm.filter _).eq_of_pairwise (fun p q _ _ hpq hqp => absurd hpq hqp.asymm) hzs hxs
  calc (zs.map (·.1)).filter (k == key ·)
      = (zs.filter fun p => k == key p.1).map (·.1) := List.filter_map
    _ = (xs.zipIdx.filter fun p => k == key p.1).map (·.1) := by rw [heq]
    _ = (xs.zipIdx.map (·.1)).filter (k == key ·) := by rw [List.filter_map]; rfl
    _ = xs.filter (k == key ·) := by rw [List.zipIdx_map_fst]

end

/-! ## Groups -/

namespace Grouping

variable {g : Grouping} {a : Assembler}

theorem flatMap_objectsOf (g : Grouping) (a : Assembler) (rows : List Row) :
    rows.flatMap (g.objectsOf a) = (rows.filter g.carriesChild).filterMap a.read := by
  induction rows with
  | nil => rfl
  | cons row rows ih =>
    rw [List.flatMap_cons, ih, objectsOf, List.filter_cons]
    split
    · cases hread : a.read row <;> simp [hread]
    · rfl

theorem group_eq_parts (g : Grouping) (a : Assembler) (rows : List Row) :
    g.group a rows =
      (firstSeen g.keys ++
        firstSeen ((rows.map g.keyOf).filter fun k => !g.keys.any (· == k))).map fun k =>
      (k, (rows.filter fun row => k == g.keyOf row && g.carriesChild row).filterMap a.read) := by
  rw [group_eq, firstOccurrences_eq_firstSeen, firstSeen_append]
  refine List.map_congr_left fun k _ => ?_
  rw [flatMap_objectsOf, List.filter_filter]
  simp only [Bool.and_comm]

/-- The keys that occur are the same, each as it first occurs. -/
theorem firstOccurrences_perm {rows rows' : List Row} (h : StableReordering g.keyOf rows rows') :
    (firstOccurrences (g.keys ++ rows'.map g.keyOf)).Perm
      (firstOccurrences (g.keys ++ rows.map g.keyOf)) := by
  -- the first row of a key stays the first, so that the key is also written as before
  have hkeys (k : KeyMap) :
      (rows'.map g.keyOf).filter (k == ·) = (rows.map g.keyOf).filter (k == ·) := by
    rw [List.filter_map, List.filter_map]
    exact congrArg (List.map g.keyOf) (h.filter_key k)
  refine (List.perm_ext_iff_of_nodup (firstOccurrences_nodup _) (firstOccurrences_nodup _)).2
    fun k => ?_
  rw [firstOccurrences_eq_firstSeen, firstOccurrences_eq_firstSeen, mem_firstSeen, mem_firstSeen,
    List.filter_append, List.filter_append, hkeys]

theorem group_perm {rows rows' : List Row} (h : StableReordering g.keyOf rows rows') :
    (g.group a rows').Perm (g.group a rows) := by
  rw [group_eq, group_eq]
  simp only [h.filter_key]
  exact (firstOccurrences_perm h).map _

theorem groupArriving_ok (g : Grouping) (a : Assembler) (rows : List Row) (ε : Type) :
    g.groupArriving a (rows.map (.ok : Row → Except ε Row)) = .ok (g.group a rows) := by
  rw [groupArriving, List.foldlM_map]
  exact List.foldlM_pure

theorem groupArriving_error {ε : Type} (g : Grouping) (a : Assembler) (rows : List Row) (e : ε)
    (rest : List (Except ε Row)) :
    g.groupArriving a (rows.map .ok ++ .error e :: rest) = .error e := by
  have hrows := g.groupArriving_ok a rows ε
  rw [groupArriving] at hrows
  rw [groupArriving, List.foldlM_append, hrows]
  rfl

end Grouping

/-- **Grouping is an order-stable partition.**  The groups are those of the distinct requested keys
    in order, then those of the distinct other keys of rows as they first appear.  Each has what is
    read, in order, from exactly the rows of its key that carry a child and hold an object.  Hence
    rows in another order, those with equal keys as before, make the same groups in some order.
    Rows that all arrive one by one make the same groups; otherwise the first failure is the result,
    whatever comes before or after it. -/
theorem grouping_partitions (g : Grouping) (a : Assembler) (rows : List Row) :
    (g.group a rows = (firstSeen g.keys ++
        firstSeen ((rows.map g.keyOf).filter fun k => !g.keys.any (· == k))).map fun k =>
      (k, (rows.filter fun row => k == g.keyOf row && g.carriesChild row).filterMap a.read)) ∧
    ((g.group a rows).map (·.1)).Pairwise (fun k l => (k == l) = false) ∧
    (∀ rows', StableReordering g.keyOf rows rows' → (g.group a rows').Perm (g.group a rows)) ∧
    (∀ ε : Type, g.groupArriving a (rows.map (.ok : Row → Except ε Row)) = .ok (g.group a rows)) ∧
    ∀ (ε : Type) (e : ε) (rest : List (Except ε Row)),
      g.groupArriving a (rows.map .ok ++ .error e :: rest) = .error e := by
  refine ⟨g.group_eq_parts a rows, ?_, fun rows' h => Grouping.group_perm h,
    g.groupArriving_ok a rows, fun ε e rest => g.groupArriving_error a rows e rest⟩
  rw [g.group_eq, List.map_map]
  exact (List.map_id _).symm ▸ firstOccurrences_pairwise _

/-! ## Parcels -/

/-- Parcels by weight; 1.5 and 2 are asked for. -/
def parcels : Grouping where
  keys := [.ofMembers [("weight", .decimal ⟨15, 1⟩)], .ofMembers [("weight", .decimal ⟨2, 0⟩)]]
  keyColumns := [("weight", "x1")]
  existsColumns := ["x2"]

/-- A parcel, read by its number. -/
def parcelReader : Assembler where
  fields := [("id", .column "x2")]
  checkNull := some "x3"

/-- The row of a parcel, which holds it unless the last column is null. -/
def parcelRow (weight : Decimal) (id held : Value) : Row :=
  [("x1", .decimal weight), ("x2", id), ("x3", held)]

/-- The weights 1.5, 1.50 and 1.500 are equal.  One row carries no parcel and one does not hold
    it. -/
def parcelRows : List Row := [
  parcelRow ⟨3, 0⟩ (.int 30) (.int 1),
  parcelRow ⟨150, 2⟩ (.int 10) (.int 1),
  parcelRow ⟨15, 1⟩ .null (.int 1),
  parcelRow ⟨4, 0⟩ (.int 40) .null,
  parcelRow ⟨1500, 3⟩ (.int 11) (.int 1)]

/-- The same rows, with that of the weight 3 after that of the weight 4. -/
def laterParcels : List Row := [
  parcelRow ⟨150, 2⟩ (.int 10) (.int 1),
  parcelRow ⟨15, 1⟩ .null (.int 1),
  parcelRow ⟨4, 0⟩ (.int 40) .null,
  parcelRow ⟨3, 0⟩ (.int 30) (.int 1),
  parcelRow ⟨1500, 3⟩ (.int 11) (.int 1)]

theorem grouping_partitions_parcels :
    parcels.group parcelReader parcelRows = [
      (.ofMembers [("weight", .decimal ⟨15, 1⟩)],
        [.object [("id", .int 10)], .object [("id", .int 11)]]),
      (.ofMembers [("weight", .decimal ⟨2, 0⟩)], []),
      (.ofMembers [("weight", .decimal ⟨3, 0⟩)], [.object [("id", .int 30)]]),
      (.ofMembers [("weight", .decimal ⟨4, 0⟩)], [])] ∧
    StableReordering parcels.keyOf parcelRows laterParcels ∧
    (parcels.group parcelReader laterParcels).Perm (parcels.group parcelReader parcelRows) ∧
    parcels.groupArriving parcelReader
      (parcelRows.map .ok ++ [.error "lost", .ok (parcelRow ⟨2, 0⟩ (.int 20) (.int 1)),
        .error "late"]) = .error "lost" := by
  obtain ⟨hgroups, -, hstable, -, herror⟩ := grouping_partitions parcels parcelReader parcelRows
  have hlater : StableReordering parcels.keyOf parcelRows laterParcels := by
    refine ⟨[
      (parcelRow ⟨150, 2⟩ (.int 10) (.int 1), 1), (parcelRow ⟨15, 1⟩ .null (.int 1), 2),
      (parcelRow ⟨4, 0⟩ (.int 40) .null, 3), (parcelRow ⟨3, 0⟩ (.int 30) (.int 1), 0),
      (parcelRow ⟨1500, 3⟩ (.int 11) (.int 1), 4)], ?_, rfl, by decide⟩
    exact (List.perm_middle : ([_, _, _] ++ _ :: [_]).Perm _)
  exact ⟨hgroups.trans rfl, hlater, hstable laterParcels hlater, herror String "lost" _⟩

end LateralSql
