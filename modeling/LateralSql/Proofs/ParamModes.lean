/-
  Statements with parameters and with literals.

  Both are the same text around the places of the parameters (`fragments`); at each place stands a
  numbered placeholder or the literal of its value.
-/
import LateralSql.Proofs.Contents
import LateralSql.Proofs.Lexing

namespace LateralSql.Sql

/-- A parameter of a select, with its type if it is typed. -/
structure Slot where
  value : Value
  type : Option String
  deriving Repr

namespace Slot

/-- What stands for the parameter with the given number. A typed one is cast. -/
def bound (n : Nat) : Slot → String
  | ⟨_, none⟩ => "$" ++ toString n
  | ⟨_, some type⟩ => "cast(" ++ ("$" ++ toString n) ++ " as " ++ type ++ ")"

/-- What stands for the parameter in a text without parameters. -/
def inlined (s : Slot) : String := writeAll (literal s.value)

end Slot

/-- The place of a parameter, if it is one. -/
def Content.slot? : Content → Option Slot
  | param v type => some ⟨v, type⟩
  | _ => none

/-- The parameters of a select, in the order in which it is written. -/
def Select.slots (s : Select) : List Slot := s.contents.filterMap Content.slot?

/-- The first fragment, and each filler with the fragment after it. -/
def interleave (first : String) : List (String × String) → String
  | [] => first
  | (filler, next) :: rest => first ++ filler ++ interleave next rest

theorem interleave_append (s first : String) (rest : List (String × String)) :
    interleave (s ++ first) rest = s ++ interleave first rest := by
  cases rest with
  | nil => rfl
  | cons p rest => simp only [interleave, String.append_assoc]

/-! ## Pieces -/

/-- The parameters of some pieces, in their order. -/
def slotsOf (ps : List Piece) : List Slot :=
  (ps.flatMap Piece.contents).filterMap Content.slot?

/-- The text before the first parameter, and that after each of them. -/
def fragments : List Piece → String × List String
  | [] => ("", [])
  | .token t :: ps => (t.write ++ (fragments ps).1, (fragments ps).2)
  | .param _ _ :: ps => ("", (fragments ps).1 :: (fragments ps).2)

theorem slotsOf_token (t : Token) (ps : List Piece) : slotsOf (.token t :: ps) = slotsOf ps := by
  cases t <;> rfl

theorem slotsOf_param (v : Value) (type : Option String) (ps : List Piece) :
    slotsOf (.param v type :: ps) = ⟨v, type⟩ :: slotsOf ps := rfl

theorem length_fragments (ps : List Piece) : (fragments ps).2.length = (slotsOf ps).length := by
  induction ps with
  | nil => rfl
  | cons p ps ih =>
    cases p with
    | token t => rw [slotsOf_token, fragments, ih]
    | param v type => rw [slotsOf_param, fragments, List.length_cons, List.length_cons, ih]

theorem params_eq (ps : List Piece) : params ps = (slotsOf ps).map Slot.value := by
  induction ps with
  | nil => rfl
  | cons p ps ih =>
    cases p with
    | token t => rw [slotsOf_token, ← ih]; rfl
    | param v type => rw [slotsOf_param, List.map_cons, ← ih]; rfl

theorem writeAll_placeholder (n : Nat) (v : Value) (type : Option String) :
    writeAll (placeholder n type) = Slot.bound n ⟨v, type⟩ := by
  cases type <;> simp [placeholder, writeAll, Token.write, Slot.bound, String.append_assoc]

theorem writeAll_inlineTokens (ps : List Piece) :
    writeAll (inlineTokens ps) =
      interleave (fragments ps).1 (((slotsOf ps).map Slot.inlined).zip (fragments ps).2) := by
  induction ps with
  | nil => rfl
  | cons p ps ih =>
    cases p with
    | token t =>
      rw [slotsOf_token, fragments, interleave_append, ← ih, ← writeAll_cons]
      rfl
    | param v type =>
      rw [slotsOf_param, fragments, List.map_cons, List.zip_cons_cons, interleave, ← ih,
        String.empty_append, Slot.inlined, ← writeAll_append]
      rfl

theorem writeAll_bindTokens (n : Nat) (ps : List Piece) :
    writeAll (bindTokens n ps) = interleave (fragments ps).1
      ((((slotsOf ps).zipIdx n).map fun p => p.1.bound p.2).zip (fragments ps).2) := by
  induction ps generalizing n with
  | nil => rfl
  | cons p ps ih =>
    cases p with
    | token t => rw [slotsOf_token, fragments, interleave_append, ← ih, ← writeAll_cons, bindTokens]
    | param v type =>
      rw [slotsOf_param, fragments, List.zipIdx_cons, List.map_cons, List.zip_cons_cons, interleave,
        ← ih, String.empty_append, bindTokens, writeAll_append, writeAll_placeholder n v]

/-- **Both kinds of statements are the same text.**  The parameters are those of the select, in
    order.  Around them stands the same text in both; at the place of the `i`-th parameter stands
    the `i`-th placeholder, in a cast if the parameter is typed, or the literal of its value. -/
theorem statement_modes_agree (s : Select) :
    ∃ first rest, rest.length = s.slots.length ∧
      s.statement .bind =
        ⟨interleave first (((s.slots.zipIdx 1).map fun p => p.1.bound p.2).zip rest),
          s.slots.map Slot.value⟩ ∧
      s.statement .inline = ⟨interleave first ((s.slots.map Slot.inlined).zip rest), []⟩ := by
  have hslots : slotsOf s.pieces = s.slots := by rw [slotsOf, s.contents_pieces, Select.slots]
  refine ⟨(fragments s.pieces).1, (fragments s.pieces).2, ?_, ?_, ?_⟩
  · rw [length_fragments, hslots]
  · rw [Select.statement, writeAll_bindTokens, params_eq, hslots]
  · rw [Select.statement, writeAll_inlineTokens, hslots]

end LateralSql.Sql
