import Mathlib.Data.List.Infix
import Mathlib.Data.Nat.Notation

/-!
# Patterns with wildcards

A pattern is a text in which `?` stands for any one symbol and `*` for any run of them, the empty
one included.
-/

namespace Wildcard

variable {α : Type*} [DecidableEq α]

inductive Piece (α : Type*) where
  | symbol (c : α)
  /-- `?` -/
  | one
  /-- `*` -/
  | many
deriving DecidableEq

/-- The whole text matches the pattern. -/
def matchesPattern : List (Piece α) → List α → Bool
  | [], text => text.isEmpty
  | .symbol c :: pattern, text =>
    match text with
    | [] => false
    | a :: text => decide (c = a) && matchesPattern pattern text
  | .one :: pattern, text =>
    match text with
    | [] => false
    | _ :: text => matchesPattern pattern text
  | .many :: pattern, text => text.tails.any (matchesPattern pattern)

/-- Symbols that stand for themselves. -/
def literal (text : List α) : List (Piece α) := text.map .symbol

/-- A literal matches itself. -/
theorem matchesPattern_literal_append {front : List α} {pattern : List (Piece α)}
    {text : List α} : matchesPattern (literal front ++ pattern) text = true ↔
      ∃ rest, text = front ++ rest ∧ matchesPattern pattern rest = true := by
  induction front generalizing text with
  | nil => exact ⟨fun h => ⟨text, rfl, h⟩, fun ⟨_, heq, h⟩ => heq ▸ h⟩
  | cons c front ih =>
    rw [literal, List.map_cons, List.cons_append]
    cases text with
    | nil =>
      refine iff_of_false Bool.false_ne_true ?_
      rintro ⟨rest, heq, -⟩
      cases heq
    | cons a text =>
      rw [matchesPattern, Bool.and_eq_true, decide_eq_true_iff]
      constructor
      · rintro ⟨rfl, h⟩
        obtain ⟨rest, rfl, hrest⟩ := ih.mp h
        exact ⟨rest, rfl, hrest⟩
      · rintro ⟨rest, heq, hrest⟩
        obtain ⟨rfl, rfl⟩ := List.cons.inj heq
        exact ⟨rfl, ih.mpr ⟨rest, rfl, hrest⟩⟩

/-- A star matches everything. -/
theorem matchesPattern_many (text : List α) : matchesPattern [Piece.many] text = true := by
  rw [matchesPattern, List.any_eq_true]
  exact ⟨[], (List.mem_tails _ _).mpr List.nil_suffix, rfl⟩

/-- A final `*` asks for the text before it as a prefix. -/
theorem matchesPattern_literal_many {front text : List α} :
    matchesPattern (literal front ++ [.many]) text = true ↔ front <+: text := by
  rw [matchesPattern_literal_append]
  constructor
  · rintro ⟨rest, rfl, -⟩
    exact List.prefix_append front rest
  · rintro ⟨rest, rfl⟩
    exact ⟨rest, rfl, matchesPattern_many rest⟩

end Wildcard
