/-
  Values and JSON documents as trees.

  A tree is built from leaves by lists and by objects whose keys are distinct (`Value.Tree`,
  `Json.Tree`).  The conversions between values and documents and the two writers of JSON text all
  go through a tree from its root, so what holds of its leaves holds of the whole:

  * values and documents whose numbers are integers of 64 signed bits are converted into each other
    (`Value.Mirrors`), and nothing is lost on the way there and back;
  * the serialized text of a value is the text of its document.
-/
import Mathlib.Data.List.Forall2
import LateralSql.Proofs.KeyedLists
import LateralSql.Value.Read
import LateralSql.Value.Text

namespace LateralSql

/-! ## Trees -/

/-- A document built from leaves by arrays and by objects with distinct keys. -/
inductive Json.Tree (leaf : Json → Prop) : Json → Prop where
  | leaf {j : Json} (h : leaf j) : Tree leaf j
  | arr {items : List Json} (h : ∀ j ∈ items, Tree leaf j) : Tree leaf (.arr items)
  | obj {members : List (String × Json)} (hkeys : (members.map Prod.fst).Nodup)
      (h : ∀ m ∈ members, Tree leaf m.2) : Tree leaf (.obj members)

/-- A value built from leaves by lists and by objects with distinct keys. -/
inductive Value.Tree (leaf : Value → Prop) : Value → Prop where
  | leaf {v : Value} (h : leaf v) : Tree leaf v
  | list {items : List Value} (h : ∀ v ∈ items, Tree leaf v) : Tree leaf (.list items)
  | object {members : List (String × Value)} (hkeys : (members.map Prod.fst).Nodup)
      (h : ∀ m ∈ members, Tree leaf m.2) : Tree leaf (.object members)

/-- A leaf of a document that is no number, or an integer of 64 signed bits. -/
def Json.IsScalar : Json → Prop
  | .null => True
  | .bool _ => True
  | .str _ => True
  | .int n => Int64.minValue.toInt ≤ n ∧ n ≤ Int64.maxValue.toInt
  | _ => False

/-- A leaf that is null, a truth value, a text or an integer. -/
def Value.IsScalar : Value → Prop
  | .null => True
  | .boolean _ => True
  | .string _ => True
  | .int _ => True
  | _ => False

/-- A leaf that is written as it is: no JSON text, which would be read, and no decimal beyond the
    doubles. -/
def Value.IsWritable : Value → Prop
  | .list _ => False
  | .object _ => False
  | .json _ => False
  | .decimal d => (Double.ofDecimal d).isFinite
  | _ => True

/-! ## The texts and the documents of lists and objects -/

namespace Json

theorem text_arr (items : List Json) : text (.arr items) = brackets (items.map text) := by
  have htexts : texts items = items.map text := by
    induction items with
    | nil => rfl
    | cons j items ih => rw [texts, ih, List.map_cons]
  rw [text, htexts]

theorem text_obj (members : List (String × Json)) :
    text (.obj members) = braces (members.map fun m => (m.1, text m.2)) := by
  have htexts : memberTexts members = members.map fun m => (m.1, text m.2) := by
    induction members with
    | nil => rfl
    | cons m members ih => rw [memberTexts, ih, List.map_cons]
  rw [text, htexts]

end Json

namespace Value

theorem serialized_list (items : List Value) :
    serialized (.list items) = Json.brackets (items.map serialized) := by
  have htexts : serializedAll items = items.map serialized := by
    induction items with
    | nil => rfl
    | cons v items ih => rw [serializedAll, ih, List.map_cons]
  rw [serialized, htexts]

theorem serialized_object (members : List (String × Value)) :
    serialized (.object members) = Json.braces (members.map fun m => (m.1, serialized m.2)) := by
  have htexts : serializedMembers members = members.map fun m => (m.1, serialized m.2) := by
    induction members with
    | nil => rfl
    | cons m members ih => rw [serializedMembers, ih, List.map_cons]
  rw [serialized, htexts]

theorem toJson_list (items : List Value) : toJson (.list items) = .arr (items.map toJson) := by
  have hall : toJsonAll items = items.map toJson := by
    induction items with
    | nil => rfl
    | cons v items ih => rw [toJsonAll, ih, List.map_cons]
  rw [toJson, hall]

/-- Members with distinct keys are all kept. -/
theorem toJson_object {members : List (String × Value)} (hkeys : (members.map Prod.fst).Nodup) :
    toJson (.object members) = .obj (members.map fun m => (m.1, toJson m.2)) := by
  have hall : toJsonMembers members = members.map fun m => (m.1, toJson m.2) := by
    induction members with
    | nil => rfl
    | cons m members ih =>
      rw [toJsonMembers, ih (List.nodup_cons.1 hkeys).2, List.map_cons]
  rw [toJson, hall, lastBy_of_nodup]
  rw [List.map_map]
  exact hkeys

/-! ## There and back -/

/-- The value and the document are converted into each other. -/
structure Mirrors (v : Value) (j : Json) : Prop where
  read : ofJson j = .ok v
  written : v.toJson = j

namespace Mirrors

theorem int (n : Int64) : Mirrors (.int n) (.int n.toInt) := by
  refine ⟨?_, rfl⟩
  rw [ofJson, ofInt, if_pos ⟨n.minValue_le_toInt, n.toInt_le⟩, Int64.ofInt_toInt]

theorem list {vs : List Value} {js : List Json} (h : List.Forall₂ Mirrors vs js) :
    Mirrors (.list vs) (.arr js) := by
  have hall : ofJsonAll js = .ok vs ∧ vs.map toJson = js := by
    induction h with
    | nil => exact ⟨rfl, rfl⟩
    | cons hv _ ih =>
      constructor
      · rw [ofJsonAll, hv.read, ih.1]
        rfl
      · rw [List.map_cons, hv.written, ih.2]
  constructor
  · rw [ofJson, hall.1]
    rfl
  · rw [toJson_list, hall.2]

theorem object {ms : List (String × Value)} {ns : List (String × Json)}
    (hkeys : (ms.map Prod.fst).Nodup)
    (h : List.Forall₂ (fun m n => m.1 = n.1 ∧ Mirrors m.2 n.2) ms ns) :
    Mirrors (.object ms) (.obj ns) := by
  have hall : ofJsonMembers ns = .ok ms ∧ (ms.map fun m => (m.1, toJson m.2)) = ns := by
    clear hkeys
    induction h with
    | nil => exact ⟨rfl, rfl⟩
    | @cons m n ms ns hm _ ih =>
      obtain ⟨k, v⟩ := m
      obtain ⟨l, j⟩ := n
      obtain ⟨rfl, hv⟩ := hm
      constructor
      · rw [ofJsonMembers, hv.read, ih.1]
        rfl
      · rw [List.map_cons, hv.written, ih.2]
  constructor
  · rw [ofJson, hall.1]
    rfl
  · rw [toJson_object hkeys, hall.2]

end Mirrors

theorem exists_forall₂ {α β : Type} {R : α → β → Prop} {bs : List β}
    (h : ∀ b ∈ bs, ∃ a, R a b) : ∃ as, List.Forall₂ R as bs := by
  induction bs with
  | nil => exact ⟨[], .nil⟩
  | cons b bs ih =>
    obtain ⟨⟨a, ha⟩, hbs⟩ := List.forall_mem_cons.1 h
    obtain ⟨as, has⟩ := ih hbs
    exact ⟨a :: as, .cons ha has⟩

/-- A document of scalars is the document of a value. -/
theorem exists_mirrors {j : Json} (h : j.Tree Json.IsScalar) :
    ∃ v, Tree IsScalar v ∧ Mirrors v j := by
  induction h with
  | @leaf j h =>
    cases j with
    | null => exact ⟨.null, .leaf trivial, rfl, rfl⟩
    | bool b => exact ⟨.boolean b, .leaf trivial, rfl, rfl⟩
    | str s => exact ⟨.string s, .leaf trivial, rfl, rfl⟩
    | int n =>
      refine ⟨.int (.ofInt n), .leaf trivial, ?_⟩
      have hn : (Int64.ofInt n).toInt = n := Int64.toInt_ofInt_of_le h.1 (Int.lt_add_one_of_le h.2)
      have hint := Mirrors.int (Int64.ofInt n)
      rwa [hn] at hint
    | float x => exact h.elim
    | arr items => exact h.elim
    | obj members => exact h.elim
  | arr _ ih =>
    obtain ⟨vs, hvs⟩ := exists_forall₂ ih
    obtain ⟨htree, hmirrors⟩ := (List.forall₂_and_left _ _).1 hvs
    exact ⟨.list vs, .list htree, .list hmirrors⟩
  | @obj ns hkeys _ ih =>
    have hmember (n) (hn : n ∈ ns) :
        ∃ m : String × Value, Tree IsScalar m.2 ∧ m.1 = n.1 ∧ Mirrors m.2 n.2 := by
      obtain ⟨v, htree, hv⟩ := ih n hn
      exact ⟨(n.1, v), htree, rfl, hv⟩
    obtain ⟨ms, hms⟩ := exists_forall₂ hmember
    obtain ⟨htree, hmirrors⟩ := (List.forall₂_and_left _ _).1 hms
    have hnames : ms.map Prod.fst = ns.map Prod.fst := by
      rw [← List.forall₂_eq_eq_eq, List.forall₂_map_left_iff, List.forall₂_map_right_iff]
      exact hmirrors.imp fun _ _ hm => hm.1
    exact ⟨.object ms, .object (hnames ▸ hkeys) htree, .object (hnames ▸ hkeys) hmirrors⟩

/-- A value of scalars is the value of its document. -/
theorem mirrors_toJson {v : Value} (h : Tree IsScalar v) :
    v.toJson.Tree Json.IsScalar ∧ Mirrors v v.toJson := by
  induction h with
  | @leaf v h =>
    cases v with
    | null => exact ⟨.leaf trivial, rfl, rfl⟩
    | boolean b => exact ⟨.leaf trivial, rfl, rfl⟩
    | string s => exact ⟨.leaf trivial, rfl, rfl⟩
    | int n => exact ⟨.leaf ⟨n.minValue_le_toInt, n.toInt_le⟩, .int n⟩
    | _ => exact h.elim
  | @list vs _ ih =>
    rw [toJson_list]
    constructor
    · exact .arr (List.forall_mem_map.2 fun v hv => (ih v hv).1)
    · exact .list (List.forall₂_map_right_iff.2 (List.forall₂_same.2 fun v hv => (ih v hv).2))
  | @object ms hkeys _ ih =>
    rw [toJson_object hkeys]
    constructor
    · refine .obj ?_ (List.forall_mem_map.2 fun m hm => (ih m hm).1)
      rw [List.map_map]
      exact hkeys
    · refine .object hkeys (List.forall₂_map_right_iff.2 (List.forall₂_same.2 fun m hm => ?_))
      exact ⟨rfl, (ih m hm).2⟩

/-! ## The two texts -/

/-- A leaf is written as its document is. -/
theorem serialized_leaf {v : Value} (h : v.IsWritable) : v.serialized = v.toJson.text := by
  cases v with
  | decimal d =>
    have hfinite : (Double.ofDecimal d).isFinite = true := h
    rw [serialized, toJson]
    simp only [hfinite, if_true, Json.text]
  | list items => exact h.elim
  | object members => exact h.elim
  | json text => exact h.elim
  | _ => rfl

end Value

/-! ## Main results -/

/-- **Values and documents of scalars are converted back to what they were**, with their keys in
    order: every such document has a value, of which it is the document, and every such value is
    the value of its document. -/
theorem conversions_inverse :
    (∀ j : Json, j.Tree Json.IsScalar →
      ∃ v : Value, v.Tree Value.IsScalar ∧ Value.ofJson j = .ok v ∧ v.toJson = j) ∧
    (∀ v : Value, v.Tree Value.IsScalar →
      v.toJson.Tree Json.IsScalar ∧ Value.ofJson v.toJson = .ok v) := by
  constructor
  · intro j h
    obtain ⟨v, htree, hread, hwritten⟩ := Value.exists_mirrors h
    exact ⟨v, htree, hread, hwritten⟩
  · intro v h
    obtain ⟨htree, hmirrors⟩ := Value.mirrors_toJson h
    exact ⟨htree, hmirrors.read⟩

/-- A beer with the least and the greatest integer. The keys of the inner object are among those of
    the outer one. -/
def beerDocument : Json :=
  .obj [("name", .str "Heineken"),
    ("range", .arr [.int (-9223372036854775808), .int 9223372036854775807, .null]),
    ("brewery", .obj [("range", .arr []), ("name", .bool true)])]

theorem conversions_inverse_beer :
    beerDocument.Tree Json.IsScalar ∧
      ∃ v : Value, v.Tree Value.IsScalar ∧ Value.ofJson beerDocument = .ok v ∧
        v.toJson = beerDocument ∧ Value.ofJson v.toJson = .ok v := by
  have hrange : Json.Tree Json.IsScalar
      (.arr [.int (-9223372036854775808), .int 9223372036854775807, .null]) := by
    exact .arr (List.forall_mem_cons.2 ⟨.leaf ⟨by decide, by decide⟩, List.forall_mem_cons.2
      ⟨.leaf ⟨by decide, by decide⟩, List.forall_mem_singleton.2 (.leaf trivial)⟩⟩)
  have hbrewery : Json.Tree Json.IsScalar (.obj [("range", .arr []), ("name", .bool true)]) := by
    exact .obj (by decide) (List.forall_mem_cons.2
      ⟨.arr (List.forall_mem_nil _), List.forall_mem_singleton.2 (.leaf trivial)⟩)
  have htree : beerDocument.Tree Json.IsScalar := by
    exact .obj (by decide) (List.forall_mem_cons.2 ⟨.leaf trivial, List.forall_mem_cons.2
      ⟨hrange, List.forall_mem_singleton.2 hbrewery⟩⟩)
  obtain ⟨v, hv, hread, hwritten⟩ := conversions_inverse.1 beerDocument htree
  exact ⟨htree, v, hv, hread, hwritten, (conversions_inverse.2 v hv).2⟩

/-- **The two writers agree**: a value without JSON texts, repeated keys and decimals beyond the
    doubles is serialized to the text of its document. -/
theorem writers_agree {v : Value} (h : v.Tree Value.IsWritable) :
    v.serialized = v.toJson.text := by
  induction h with
  | leaf h => exact Value.serialized_leaf h
  | list _ ih =>
    rw [Value.serialized_list, Value.toJson_list, Json.text_arr, List.map_map]
    exact congrArg Json.brackets (List.map_congr_left ih)
  | object hkeys _ ih =>
    rw [Value.serialized_object, Value.toJson_object hkeys, Json.text_obj, List.map_map]
    refine congrArg Json.braces (List.map_congr_left fun m hm => ?_)
    exact congrArg (m.1, ·) (ih m hm)

/-- A beer with a decimal that has no double of its own and a time that is not shown in full. -/
def beerValue : Value :=
  .object [("name", .string "Grolsch \"Kanon\""),
    ("brewed", .dateTime ⟨2020, 2, 29, 23, 59, 60, 123456789, 330⟩),
    ("measures", .list [.decimal ⟨3, 1⟩, .int (-1), .object [("name", .null)]])]

theorem writers_agree_beer :
    beerValue.Tree Value.IsWritable ∧ beerValue.serialized = beerValue.toJson.text := by
  have hfinite : Value.IsWritable (.decimal ⟨3, 1⟩) := by
    change (Double.ofDecimal ⟨3, 1⟩).isFinite = true
    decide +kernel
  have hname : Value.Tree Value.IsWritable (.object [("name", .null)]) :=
    .object (by decide) (List.forall_mem_singleton.2 (.leaf trivial))
  have hmeasures : Value.Tree Value.IsWritable
      (.list [.decimal ⟨3, 1⟩, .int (-1), .object [("name", .null)]]) := by
    exact .list (List.forall_mem_cons.2 ⟨.leaf hfinite, List.forall_mem_cons.2
      ⟨.leaf trivial, List.forall_mem_singleton.2 hname⟩⟩)
  have htree : beerValue.Tree Value.IsWritable := by
    exact .object (by decide) (List.forall_mem_cons.2 ⟨.leaf trivial, List.forall_mem_cons.2
      ⟨.leaf trivial, List.forall_mem_singleton.2 hmeasures⟩⟩)
  exact ⟨htree, writers_agree htree⟩

end LateralSql
