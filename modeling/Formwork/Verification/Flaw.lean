import Formwork.Field.Basic
import Formwork.Verification.Mismatch

/-!
# Flaws of a field

Each check of a field has one flaw that it reports. The wording names the field, so it
is a function of the flaw and the name.
-/

namespace Formwork

/-- What is wrong with the description of a field. -/
inductive Flaw where
  | notObject
  | noName
  | unknownType
  | duplicateName
  | required
  | label
  | placeholder
  | newline
  | span
  | rules
  | card
  | cardText (key : String)
  | cardBordered
  | cardSize
  | defaultNotText
  | defaultNotNumber
  | defaultNotBoolean
  | defaultNotList
  | defaultNotObject
  | defaultNotFileList
  | bound (key : String)
  | boundOrder (lower upper : String)
  | rows
  | notNumber (key : String)
  | rangeOrder
  | defaultBelowMin
  | defaultAboveMax
  | defaultChecked
  | noOptions (type : FieldType)
  | emptyOptions (type : FieldType)
  | optionFormat
  | defaultNotOption
  | defaultNotOptionList
  | defaultNotOptions
  | mode
  | multiple
  | maxCount
  | maxSize
  | accept
  | listType
  | noItems
  | nestedArray
  | fewItems (least : Nat)
  | manyItems (most : Nat)
  | item (index : Nat) (mismatch : Mismatch)
  | noProperties
  | emptyKey
  | unknownProperty (key : String)
  | property (key : String) (mismatch : Mismatch)
  | date
  | dateFormat
  | showTime
  deriving DecidableEq, Repr

namespace Flaw

/-- A key with its first letter in upper case. -/
def capitalized (key : String) : String :=
  match key.toList with
  | [] => ""
  | c :: rest => String.ofList (c.toUpper :: rest)

/-- The wording of a flaw in the field of a name. -/
def message (name : String) : Flaw → String
  | .notObject => "Field description must be an object"
  | .noName => "Field name is required and must be a string"
  | .unknownType =>
    "Invalid field type for " ++ name ++ ". Must be one of: " ++ FieldType.listing
  | .duplicateName => "Duplicate field name " ++ name
  | .required => "Required property must be a boolean for field " ++ name
  | .label => "Label must be a string for field " ++ name
  | .placeholder => "Placeholder must be a string for field " ++ name
  | .newline => "Newline must be a boolean for field " ++ name
  | .span => "Span must be an integer between 1 and 24 for field " ++ name
  | .rules => "Rules must be an array of objects for field " ++ name
  | .card => "Card configuration must be an object for field " ++ name
  | .cardText key => "Card " ++ key ++ " must be a string for field " ++ name
  | .cardBordered => "Card bordered must be a boolean for field " ++ name
  | .cardSize => "Card size must be either 'default' or 'small' for field " ++ name
  | .defaultNotText => "Default value must be a string for field " ++ name
  | .defaultNotNumber => "Default value must be a number for field " ++ name
  | .defaultNotBoolean => "Default value must be a boolean for field " ++ name
  | .defaultNotList => "Default value must be an array for field " ++ name
  | .defaultNotObject => "Default value must be an object for field " ++ name
  | .defaultNotFileList => "Default value must be an array for upload field " ++ name
  | .bound key => capitalized key ++ " must be a non-negative integer for field " ++ name
  | .boundOrder lower upper => lower ++ " cannot be greater than " ++ upper ++ " for field " ++ name
  | .rows => "Rows must be a positive integer for field " ++ name
  | .notNumber key => capitalized key ++ " value must be a number for field " ++ name
  | .rangeOrder => "Min value cannot be greater than max value for field " ++ name
  | .defaultBelowMin => "Default value cannot be less than min value for field " ++ name
  | .defaultAboveMax => "Default value cannot be greater than max value for field " ++ name
  | .defaultChecked => "DefaultChecked must be a boolean for field " ++ name
  | .noOptions type => type.name ++ " field " ++ name ++ " must have an options array"
  | .emptyOptions type => type.name ++ " field " ++ name ++ " must have at least one option"
  | .optionFormat =>
    "Invalid options format for " ++ name
      ++ ". Each option must have label and value properties"
  | .defaultNotOption => "Invalid default value for field " ++ name
  | .defaultNotOptionList =>
    "Default value must be an array for multiple select field " ++ name
  | .defaultNotOptions => "Default value contains invalid options for field " ++ name
  | .mode => "Invalid select mode for " ++ name ++ ". Must be either 'multiple' or 'tags'"
  | .multiple => "Multiple property must be a boolean for upload field " ++ name
  | .maxCount => "MaxCount must be a positive integer for upload field " ++ name
  | .maxSize => "MaxSize must be a positive number for upload field " ++ name
  | .accept => "Accept must be a MIME pattern string for upload field " ++ name
  | .listType =>
    "Invalid list type for upload field " ++ name
      ++ ". Must be one of: text, picture, picture-card"
  | .noItems =>
    "Array field " ++ name ++ " must have an items property defining the array elements"
  | .nestedArray => "Nested arrays are not supported for field " ++ name
  | .fewItems least =>
    "Default value has fewer than " ++ Number.shown least ++ " items for field " ++ name
  | .manyItems most =>
    "Default value has more than " ++ Number.shown most ++ " items for field " ++ name
  | .item _ mismatch =>
    "Invalid default value item for field " ++ name ++ ": " ++ mismatch.message
  | .noProperties => "Object field " ++ name ++ " must have a properties object"
  | .emptyKey => "Property keys must be non-empty strings in object field " ++ name
  | .unknownProperty key => "Unknown property " ++ key ++ " in default value for field " ++ name
  | .property key mismatch =>
    "Invalid default value for property " ++ key ++ " in field " ++ name ++ ": "
      ++ mismatch.message
  | .date => "Invalid date format for default value in field " ++ name
  | .dateFormat => "Date format must be a string for field " ++ name
  | .showTime => "ShowTime must be a boolean for field " ++ name

/-- What the flaw adds to the path of its field: a place inside the default, or nothing. -/
def suffix : Flaw → String
  | .item index mismatch =>
    ".defaultValue[" ++ Number.shown index ++ "]" ++ mismatch.path
  | .unknownProperty key => ".defaultValue." ++ key
  | .property key mismatch => ".defaultValue." ++ key ++ mismatch.path
  | _ => ""

/-- The flaw lies in the contents of the default of an array or an object. -/
def concernsContents : Flaw → Bool
  | .fewItems _ | .manyItems _ | .item _ _ | .unknownProperty _ | .property _ _ => true
  | _ => false

end Flaw

end Formwork
