/-
  Reading a JSON document from front to back.

  An outline says which arrays and objects of a document are read part by part.  Such a
  document may break off: what stands before the break is read all the same, down to the
  parts that the outline takes as a whole.

  * `Outline` is the outline of a value;
  * `readAlong? outline s` is what can be read of a text, and whether that is all of it.
-/
import LateralSql.Json.Skim

namespace LateralSql.Json

/-- Which parts of a value are read one by one. -/
inductive Outline where
  /-- None: the value is read as a whole. -/
  | whole
  /-- The items of an array. -/
  | items (item : Outline)
  /-- The fields of a record, which are the members of an object or, in order, the items of an
      array. Members with other keys are passed over. -/
  | record (fields : List (String × Outline))

/-! ## Values along an outline -/

mutual

/-- The value at the start of a text and the text after it. If the text breaks off in a part that
    is read one by one, the value has the parts before the break and there is no text. -/
def along? : Nat → Outline → Nat → List Char → Option (Json × Option (List Char))
  | 0, _, _, _ => none
  | fuel + 1, outline, depth, s =>
    match outline, depth, skipBlanks s with
    | .items item, depth + 1, '[' :: s =>
      let (items, rest) := itemsAlong fuel [] item depth s
      some (.arr items, rest)
    | .record fields, depth + 1, '[' :: s =>
      let (items, rest) := itemsAlong fuel (fields.map (·.2)) .whole depth s
      some (.arr items, rest)
    | .record fields, depth + 1, '\x7b' :: s =>
      let (members, rest) := membersAlong fuel fields depth s
      some (.obj members, rest)
    | _, _, s => (value? (s.length + 1) depth s).map fun (j, rest) => (j, some rest)

/-- The items of an array, the first ones along outlines of their own. -/
def itemsAlong : Nat → List Outline → Outline → Nat → List Char → List Json × Option (List Char)
  | 0, _, _, _, _ => ([], none)
  | fuel + 1, first, others, depth, s =>
    match skipBlanks s with
    | ']' :: rest => ([], some rest)
    | s => itemsFrom fuel first others depth s

/-- The items of an array from an item on. -/
def itemsFrom : Nat → List Outline → Outline → Nat → List Char → List Json × Option (List Char)
  | 0, _, _, _, _ => ([], none)
  | fuel + 1, first, others, depth, s =>
    match along? fuel (first.headD others) depth s with
    | none => ([], none)
    | some (j, none) => ([j], none)
    | some (j, some rest) =>
      match skipBlanks rest with
      | ',' :: rest =>
        let (js, rest) := itemsFrom fuel first.tail others depth rest
        (j :: js, rest)
      | ']' :: rest => ([j], some rest)
      | _ => ([j], none)

/-- The members of an object that have an outline. -/
def membersAlong : Nat → List (String × Outline) → Nat → List Char →
    List (String × Json) × Option (List Char)
  | 0, _, _, _ => ([], none)
  | fuel + 1, fields, depth, s =>
    match skipBlanks s with
    | '\x7d' :: rest => ([], some rest)
    | s => membersFrom fuel fields depth s

/-- The members of an object from a member on. -/
def membersFrom : Nat → List (String × Outline) → Nat → List Char →
    List (String × Json) × Option (List Char)
  | 0, _, _, _ => ([], none)
  | fuel + 1, fields, depth, s =>
    match key? s with
    | none => ([], none)
    | some (key, s) =>
      let member := match fields.lookup key with
        | some outline => (along? fuel outline depth s).map fun (j, rest) => ([(key, j)], rest)
        | none => (skim? (s.length + 1) s).map fun rest => ([], some rest)
      match member with
      | none => ([], none)
      | some (m, none) => (m, none)
      | some (m, some rest) =>
        match skipBlanks rest with
        | ',' :: rest =>
          let (ms, rest) := membersFrom fuel fields depth rest
          (m ++ ms, rest)
        | '\x7d' :: rest => (m, some rest)
        | _ => (m, none)

end

/-! ## Texts along an outline -/

/-- What can be read of a text, and whether that is all of it. -/
def readAlong? (outline : Outline) (s : String) : Option (Json × Bool) :=
  let cs := s.toList
  match along? (3 * cs.length + 3) outline maxDepth cs with
  | none => none
  | some (j, none) => some (j, false)
  | some (j, some rest) => some (j, skipBlanks rest = [])

end LateralSql.Json
