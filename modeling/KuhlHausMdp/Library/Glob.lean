import Mathlib.Order.Defs.LinearOrder
import Mathlib.Data.Char

/-! Glob patterns of Redis keys and channels: `*`, `?`, classes with ranges and
negation, and escapes. A pattern is cut into tokens before it is matched. -/

set_option autoImplicit false

namespace Glob

inductive Token where
  | star
  | any
  | oneOf (negated : Bool) (ranges : List (Char × Char))
  | char (c : Char)
  deriving DecidableEq, Repr

/-- The ranges of a class up to its closing bracket, and what follows it. -/
def ranges : List Char → List (Char × Char) × List Char
  | [] => ([], [])
  | '\\' :: c :: rest => ((c, c) :: (ranges rest).1, (ranges rest).2)
  | ']' :: rest => ([], rest)
  | first :: '-' :: last :: rest => ((min first last, max first last) :: (ranges rest).1, (ranges rest).2)
  | c :: rest => ((c, c) :: (ranges rest).1, (ranges rest).2)

/-- The tokens of a pattern; a class is consumed at once, hence the fuel. -/
def tokens : Nat → List Char → List Token
  | 0, _ => []
  | _, [] => []
  | fuel + 1, '*' :: rest => .star :: tokens fuel rest
  | fuel + 1, '?' :: rest => .any :: tokens fuel rest
  | fuel + 1, '[' :: '^' :: rest => .oneOf true (ranges rest).1 :: tokens fuel (ranges rest).2
  | fuel + 1, '[' :: rest => .oneOf false (ranges rest).1 :: tokens fuel (ranges rest).2
  | fuel + 1, '\\' :: c :: rest => .char c :: tokens fuel rest
  | fuel + 1, c :: rest => .char c :: tokens fuel rest

def someSuffix (accepts : List Char → Bool) : List Char → Bool
  | [] => accepts []
  | c :: rest => accepts (c :: rest) || someSuffix accepts rest

def accepts : List Token → List Char → Bool
  | [], text => text.isEmpty
  | .star :: rest, text => someSuffix (accepts rest) text
  | .any :: rest, _ :: text => accepts rest text
  | .oneOf negated ranges :: rest, c :: text =>
      (ranges.any fun range => range.1 ≤ c && c ≤ range.2) != negated && accepts rest text
  | .char expected :: rest, c :: text => expected == c && accepts rest text
  | _ :: _, [] => false

def Matches (pattern text : String) : Prop :=
  accepts (tokens pattern.toList.length pattern.toList) text.toList = true

instance (pattern text : String) : Decidable (Matches pattern text) := inferInstanceAs (Decidable (_ = true))

theorem accepts_star (text : List Char) : accepts [.star] text = true := by
  rw [accepts]
  induction text with
  | nil => rfl
  | cons c rest ih => rw [someSuffix, ih, Bool.or_true]

theorem someSuffix_iff {accepts : List Char → Bool} {text : List Char} :
    someSuffix accepts text = true ↔ ∃ front rest, text = front ++ rest ∧ accepts rest = true := by
  induction text with
  | nil =>
      constructor
      · exact fun accepted => ⟨[], [], rfl, accepted⟩
      · rintro ⟨front, rest, same, accepted⟩
        obtain ⟨rfl, rfl⟩ := List.append_eq_nil_iff.mp same.symm
        exact accepted
  | cons c text ih =>
      rw [someSuffix, Bool.or_eq_true, ih]
      constructor
      · rintro (accepted | ⟨front, rest, rfl, accepted⟩)
        · exact ⟨[], c :: text, rfl, accepted⟩
        · exact ⟨c :: front, rest, rfl, accepted⟩
      · rintro ⟨front, rest, same, accepted⟩
        cases front with
        | nil =>
            rw [List.nil_append] at same
            exact .inl (same ▸ accepted)
        | cons first front => exact .inr ⟨front, rest, (List.cons.inj same).2, accepted⟩

theorem accepts_chars {chars text : List Char} {rest : List Token} :
    accepts (chars.map .char ++ rest) text = true ↔ ∃ tail, text = chars ++ tail ∧ accepts rest tail = true := by
  induction chars generalizing text with
  | nil => simp
  | cons c chars ih =>
      cases text with
      | nil => simp [accepts]
      | cons first text =>
          simp only [List.map_cons, List.cons_append, accepts, Bool.and_eq_true, beq_iff_eq, ih, List.cons.injEq,
            @eq_comm _ c, and_assoc, exists_and_left]

theorem accepts_prefix_star (chars text : List Char) :
    accepts (chars.map .char ++ [.star]) text = true ↔ ∃ rest, text = chars ++ rest := by
  rw [accepts_chars]
  simp only [accepts_star, and_true]

theorem accepts_infix_star {front back text : List Char} :
    accepts (front.map .char ++ .star :: back.map .char) text = true ↔ ∃ middle, text = front ++ (middle ++ back) := by
  have plain (tail : List Char) : accepts (back.map .char) tail = true ↔ tail = back := by
    have whole : accepts (back.map .char ++ []) tail = true ↔ ∃ rest, tail = back ++ rest ∧ accepts [] rest = true :=
      accepts_chars
    simpa [accepts] using whole
  rw [accepts_chars]
  constructor
  · rintro ⟨tail, rfl, accepted⟩
    obtain ⟨middle, rest, rfl, ends⟩ := someSuffix_iff.mp accepted
    exact ⟨middle, by rw [(plain rest).mp ends]⟩
  · rintro ⟨middle, rfl⟩
    exact ⟨middle ++ back, rfl, someSuffix_iff.mpr ⟨middle, back, rfl, (plain back).mpr rfl⟩⟩

example : Matches "leaderboard:*" "leaderboard:top_volume" ∧ ¬Matches "quote:?[^A-C]*" "quote:AB" := by decide

end Glob
