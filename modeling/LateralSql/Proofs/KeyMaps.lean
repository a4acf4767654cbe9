/-
  Key maps have their names in ascending order, and the keys of a batch all have the same names.
-/
import Mathlib.Data.List.Nodup
import Mathlib.Data.List.Sort
import LateralSql.Proofs.KeyedLists
import LateralSql.Proofs.ValueEquality
import LateralSql.Request.Basic

namespace LateralSql

namespace KeyMap

/-! ## Members in order -/

theorem ofMembers_concat (pairs : List (String × Value)) (p : String × Value) :
    ofMembers (pairs ++ [p]) = (ofMembers pairs).insert p := List.foldl_append

/-- A key map has the names of all its members, also of those that are replaced. -/
theorem mem_names_ofMembers {x : String} {pairs : List (String × Value)} :
    x ∈ (ofMembers pairs).names ↔ x ∈ pairs.map (·.1) := by
  induction pairs using List.reverseRecOn with
  | nil => rfl
  | append_singleton pairs p ih =>
    rw [ofMembers_concat, names, insert, mem_names_insertMember, List.map_append, List.mem_append,
      or_comm]
    exact or_congr ih (by simp)

/-- A member with the greatest name comes last. -/
theorem insertMember_of_greatest {k : String} {v : Value} {members : List (String × Value)}
    (h : ∀ m ∈ members, m.1 < k) : insertMember k v members = members ++ [(k, v)] := by
  induction members with
  | nil => rfl
  | cons m members ih =>
    have hlt : m.1 < k := h m List.mem_cons_self
    have hne : k ≠ m.1 := by
      rintro rfl
      exact String.lt_irrefl _ hlt
    rw [insertMember, if_neg hne, if_neg (String.lt_asymm hlt),
      ih fun m' hm' => h m' (List.mem_cons_of_mem _ hm'), List.cons_append]

/-- Members in order are kept as they are. -/
theorem members_ofMembers {members : List (String × Value)}
    (h : (members.map (·.1)).Pairwise (· < ·)) : (ofMembers members).members = members := by
  induction members using List.reverseRecOn with
  | nil => rfl
  | append_singleton members m ih =>
    rw [List.map_append, List.pairwise_append] at h
    have hmembers : (ofMembers (members ++ [m])).members = insertMember m.1 m.2 members := by
      rw [ofMembers_concat]
      exact congrArg (insertMember m.1 m.2) (ih h.1)
    rw [hmembers]
    refine insertMember_of_greatest fun m' hm' => ?_
    exact h.2.2 _ (List.mem_map_of_mem hm') _ (List.mem_singleton_self _)

/-- A key map is built from its members. -/
theorem ofMembers_members (k : KeyMap) : ofMembers k.members = k :=
  KeyMap.ext (members_ofMembers k.ascending)

/-! ## Values by name -/

/-- Among distinct names each is looked up to its own value. -/
theorem lookup_map_of_nodup {α : Type} {name : α → String} {xs : List α}
    (h : (xs.map name).Nodup) (value : α → Value) {a : α} (ha : a ∈ xs) :
    (xs.map fun a => (name a, value a)).lookup (name a) = some (value a) := by
  induction xs with
  | nil => cases ha
  | cons b xs ih =>
    obtain ⟨hb, hxs⟩ := List.nodup_cons.1 h
    rw [List.map_cons]
    rcases List.mem_cons.1 ha with rfl | ha
    · exact List.lookup_cons_self
    · have hne : (name a == name b) = false := by
        rw [beq_eq_false_iff_ne]
        exact fun heq => hb (heq ▸ List.mem_map_of_mem ha)
      rw [List.lookup_cons, hne]
      exact ih hxs ha

theorem nodup_names (k : KeyMap) : k.names.Nodup := by
  refine List.Pairwise.imp (fun {x y} (hlt : x < y) => ?_) k.ascending
  rintro rfl
  exact String.lt_irrefl _ hlt

/-- The members are the names with the values that are found for them. -/
theorem members_eq {k : KeyMap} {columns : List (String × String)}
    (hnames : columns.map (·.1) = k.names) :
    columns.map (fun c => (c.1, (k.get? c.1).getD .null)) = k.members := by
  have hown : ∀ m ∈ k.members, (m.1, (k.get? m.1).getD .null) = m := by
    intro m hm
    have hlookup : k.members.lookup m.1 = some m.2 := by
      simpa using lookup_map_of_nodup k.nodup_names Prod.snd hm
    rw [get?, hlookup]
    rfl
  calc columns.map (fun c => (c.1, (k.get? c.1).getD .null))
      = (columns.map (·.1)).map fun x => (x, (k.get? x).getD .null) := by rw [List.map_map]; rfl
    _ = k.names.map fun x => (x, (k.get? x).getD .null) := by rw [hnames]
    _ = k.members.map fun m => (m.1, (k.get? m.1).getD .null) := by rw [names, List.map_map]; rfl
    _ = k.members := (List.map_congr_left hown).trans (List.map_id _)

/-! ## Names -/

/-- The key maps have values for the same names. -/
def SameNames (k l : KeyMap) : Prop := ∀ name, name ∈ k.names ↔ name ∈ l.names

/-- Names in ascending order are the same list if they are the same names. -/
theorem sameNames_iff {k l : KeyMap} : k.SameNames l ↔ k.names = l.names := by
  constructor
  · intro h
    exact List.Pairwise.eq_of_mem_iff k.ascending l.ascending h
  · intro h name
    rw [h]

theorem names_eq_of_beqMembers : ∀ {as bs : List (String × Value)},
    Value.beqMembers as bs = true → as.map (·.1) = bs.map (·.1)
  | [], [], _ => rfl
  | (k, a) :: as, (l, b) :: bs, h => by
    simp only [Value.beqMembers, Bool.and_eq_true] at h
    obtain ⟨⟨hkl, -⟩, hrest⟩ := h
    rw [List.map_cons, List.map_cons, eq_of_beq hkl, names_eq_of_beqMembers hrest]

/-- Equal keys have the same names. -/
theorem names_eq_of_beq {k l : KeyMap} (h : (k == l) = true) : k.names = l.names :=
  names_eq_of_beqMembers h

end KeyMap

/-! ## Keys of a batch -/

namespace JoinKeys

variable {given : List KeyMap} {j : JoinKeys}

theorem names_eq_of_mem {k : KeyMap} (h : k ∈ j.keys) : k.names = j.names := by
  obtain ⟨first, rest, hkeys⟩ := List.exists_cons_of_ne_nil j.nonempty
  rw [j.named k h first (hkeys ▸ List.mem_cons_self), names, hkeys]
  rfl

/-- The names are those of the first given key. -/
theorem names_of_firstOccurrences (h : j.keys = firstOccurrences given) :
    j.names = (given.head?.map KeyMap.names).getD [] := by
  rw [names, h, head?_firstOccurrences]

theorem ofDistinct_eq_ok {keys : List KeyMap} {h : keys.Pairwise fun k l => (k == l) = false} :
    ofDistinct keys h = .ok j ↔ j.keys = keys := by
  fun_cases ofDistinct keys h with
  | case1 => exact iff_of_false nofun j.nonempty
  | case2 first rest _ other hother =>
    refine iff_of_false nofun fun hkeys => ?_
    have hmem : other ∈ first :: rest := .tail _ (List.mem_of_find?_eq_some hother)
    have hnames : other.names ≠ first.names := by simpa using List.find?_some hother
    rw [← hkeys] at hmem
    exact hnames (j.named other hmem first (hkeys ▸ List.mem_cons_self))
  | case3 first rest =>
    constructor
    · rintro ⟨⟩
      rfl
    · intro hkeys
      exact congrArg Except.ok (JoinKeys.ext hkeys.symm)

section
variable {first other : KeyMap} {rest : List KeyMap}
    {h : (first :: rest).Pairwise fun k l => (k == l) = false}

theorem exists_ofDistinct (hrest : rest.find? (fun k => k.names ≠ first.names) = none) :
    ∃ j, ofDistinct (first :: rest) h = .ok j ∧ j.keys = first :: rest := by
  rw [ofDistinct]
  split
  · next found hfound => cases hfound.symm.trans hrest
  · exact ⟨_, rfl, rfl⟩

/-- Keys of which the first one with other names is `other` are refused for it. -/
theorem ofDistinct_eq_error
    (hother : rest.find? (fun k => k.names ≠ first.names) = some other) :
    ofDistinct (first :: rest) h = .error (.inconsistentKeys first.names other.names) := by
  rw [ofDistinct]
  split
  · next found hfound => rw [Option.some.inj (hfound.symm.trans hother)]
  · next hnone => cases hnone.symm.trans hother

end

/-- **The keys of a batch are those of the list, each where it first occurs.** -/
theorem ofList_eq_ok : ofList given = .ok j ↔ j.keys = firstOccurrences given := ofDistinct_eq_ok

/-- Keys that have the same names are the keys of a batch. -/
theorem exists_ofList {names : List String} (hne : given ≠ [])
    (hnames : ∀ k ∈ given, k.names = names) : ∃ j, ofList given = .ok j ∧ j.names = names := by
  obtain ⟨first, rest, rfl⟩ := List.exists_cons_of_ne_nil hne
  obtain ⟨kept, hkept⟩ : ∃ kept, firstOccurrences (first :: rest) = first :: kept :=
    List.head?_eq_some_iff.1 (head?_firstOccurrences (first :: rest))
  have hsame : ∀ k ∈ firstOccurrences (first :: rest), k.names = names := fun k hk =>
    hnames k (firstOccurrences_subset _ hk)
  let j : JoinKeys := ⟨firstOccurrences (first :: rest), hkept ▸ List.cons_ne_nil _ _,
    firstOccurrences_pairwise _, fun k hk l hl => (hsame k hk).trans (hsame l hl).symm⟩
  have hj : j.names = ((first :: rest).head?.map KeyMap.names).getD [] :=
    names_of_firstOccurrences rfl
  exact ⟨j, ofList_eq_ok.2 rfl, hj.trans (hnames first List.mem_cons_self)⟩

/-- All given keys have the names of the batch. -/
theorem names_eq_of_ofList (h : ofList given = .ok j) : ∀ k ∈ given, k.names = j.names := by
  intro k hk
  obtain ⟨first, hfirst, hbeq⟩ := exists_firstOccurrence hk
  rw [← KeyMap.names_eq_of_beq hbeq]
  exact names_eq_of_mem (ofList_eq_ok.1 h ▸ hfirst)

end JoinKeys

end LateralSql
