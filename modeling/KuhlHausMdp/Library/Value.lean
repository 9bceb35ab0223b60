import Mathlib.Data.Rat.Defs

/-! Values of a dynamically typed program that travel as JSON. Numbers are
exact rationals. -/

set_option autoImplicit false

inductive Value where
  | none
  | bool (b : Bool)
  | num (q : ℚ)
  | str (s : String)
  | list (items : List Value)
  | dict (entries : List (String × Value))

namespace Value

def truthy : Value → Bool
  | none => false
  | bool b => b
  | num q => decide (q ≠ 0)
  | str s => decide (s ≠ "")
  | list items => !items.isEmpty
  | dict entries => !entries.isEmpty

/-- The operand of an arithmetic operation; booleans count as 0 and 1, and
anything else is a type error. -/
def number? : Value → Option ℚ
  | bool b => some (if b then 1 else 0)
  | num q => some q
  | _ => Option.none

def lookup (value : Value) (key : String) : Value :=
  match value with
  | dict entries => (entries.lookup key).getD none
  | _ => none

/-- `first or second`: the first operand when it is truthy, else the second. -/
def orElse (first second : Value) : Value := if first.truthy then first else second

instance : Inhabited Value := ⟨none⟩

end Value

/-- JSON texts: what was written is read back. -/
structure Json (Text : Type*) where
  dumps : Value → Text
  loads : Text → Option Value
  loads_dumps : ∀ value, loads (dumps value) = some value

def Json.document : Json Value := ⟨id, some, fun _ => rfl⟩
