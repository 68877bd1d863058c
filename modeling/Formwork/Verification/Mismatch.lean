import Formwork.Number.Digits

/-!
# Mismatches of a value

A value that a field does not accept mismatches it in one way, at the value itself or
at the first of its entries that is wrong.
-/

namespace Formwork

/-- Why a field does not accept a value. -/
inductive Mismatch where
  | notText
  | notNumber
  | notBoolean
  | notOption
  | notOptionList
  | notList
  | notDate
  | notObject
  | unknownProperty (key : String)
  | property (key : String) (inner : Mismatch)
  | item (index : Nat) (inner : Mismatch)
  deriving DecidableEq, Repr

namespace Mismatch

/-- The wording of a mismatch. -/
def message : Mismatch → String
  | .notText => "Value must be a string"
  | .notNumber => "Value must be a number"
  | .notBoolean => "Value must be a boolean"
  | .notOption => "Invalid option value"
  | .notOptionList => "Value must be an array of option values"
  | .notList => "Value must be an array"
  | .notDate => "Value must be a valid date string"
  | .notObject => "Value must be an object"
  | .unknownProperty key => "Unknown property " ++ key
  | .property key inner => "Property " ++ key ++ ": " ++ inner.message
  | .item index inner => "Item " ++ Number.shown index ++ ": " ++ inner.message

/-- Where in the value the mismatch is, empty for the value itself. -/
def path : Mismatch → String
  | .unknownProperty key => "." ++ key
  | .property key inner => "." ++ key ++ inner.path
  | .item index inner => "[" ++ Number.shown index ++ "]" ++ inner.path
  | _ => ""

end Mismatch

end Formwork
