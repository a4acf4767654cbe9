/-
  Key maps: the values of the key columns that identify one row, in the order of their
  names.

  A key map is the list of its members, names strictly ascending; `KeyMap.ofMembers`
  builds it, the last value of a repeated name winning.
-/
import LateralSql.Value.Basic

namespace LateralSql

/-- Values by name, names strictly ascending. -/
@[ext] structure KeyMap where
  members : List (String × Value)
  ascending : (members.map (·.1)).Pairwise (· < ·)
  deriving Repr

namespace KeyMap

instance : Inhabited KeyMap := ⟨⟨[], .nil⟩⟩

/-- Puts a member at its place, replacing one of the same name. -/
def insertMember (k : String) (v : Value) : List (String × Value) → List (String × Value)
  | [] => [(k, v)]
  | (l, w) :: rest =>
    if k = l then (k, v) :: rest
    else if k < l then (k, v) :: (l, w) :: rest
    else (l, w) :: insertMember k v rest

theorem lt_of_not_lt {k l : String} (hne : k ≠ l) (h : ¬ k < l) : l < k :=
  Decidable.byContradiction fun hle =>
    hne (String.le_antisymm (String.not_lt.1 hle) (String.not_lt.1 h))

/-- A further member adds its name. -/
theorem mem_names_insertMember {k x : String} {v : Value} {members : List (String × Value)} :
    x ∈ (insertMember k v members).map (·.1) ↔ x = k ∨ x ∈ members.map (·.1) := by
  fun_induction insertMember k v members with
  | case1 => simp
  | case2 => simp
  | case3 => simp
  | case4 l w rest hne hlt ih =>
    rw [List.map_cons, List.mem_cons, ih, List.map_cons, List.mem_cons]
    exact or_left_comm

theorem insertMember_ascending {k : String} {v : Value} {members : List (String × Value)}
    (h : (members.map (·.1)).Pairwise (· < ·)) :
    ((insertMember k v members).map (·.1)).Pairwise (· < ·) := by
  fun_induction insertMember k v members with
  | case1 => exact List.pairwise_singleton _ _
  | case2 w rest => exact h
  | case3 l w rest hne hlt =>
    refine List.pairwise_cons.2 ⟨fun x hx => ?_, h⟩
    rcases List.mem_cons.1 hx with rfl | hx
    · exact hlt
    · exact String.lt_trans hlt ((List.pairwise_cons.1 h).1 x hx)
  | case4 l w rest hne hlt ih =>
    obtain ⟨hfirst, hrest⟩ := List.pairwise_cons.1 h
    refine List.pairwise_cons.2 ⟨fun x hx => ?_, ih hrest⟩
    rcases mem_names_insertMember.1 hx with rfl | hx
    · exact lt_of_not_lt hne hlt
    · exact hfirst x hx

/-- The key map with a further member, in place of one of the same name. -/
def insert (k : KeyMap) (m : String × Value) : KeyMap :=
  ⟨insertMember m.1 m.2 k.members, insertMember_ascending k.ascending⟩

/-- The key map of the given members; of those of one name, the last one is kept. -/
def ofMembers (pairs : List (String × Value)) : KeyMap := pairs.foldl insert default

/-- The names, ascending. -/
def names (k : KeyMap) : List String := k.members.map (·.1)

/-- The values, in the order of their names. -/
def values (k : KeyMap) : List Value := k.members.map (·.2)

/-- The value of a name. -/
def get? (k : KeyMap) (name : String) : Option Value := k.members.lookup name

/-- Key maps are compared member by member, each by its name and then by its value. -/
def compare (a b : KeyMap) : Ordering := Value.compareMembers a.members b.members

/-- Key maps are equal if their names are the same and their values equal. -/
def beq (a b : KeyMap) : Bool := Value.beqMembers a.members b.members

instance : BEq KeyMap := ⟨beq⟩

instance : Ord KeyMap := ⟨compare⟩

end KeyMap

end LateralSql
