import Formwork.Resolution.InitialValue

/-!
# Validation rules

Rules that were authored are taken over as they are, even if there are none of them.
Else a field that is required, a number with bounds and a date have rules of their own.
-/

namespace Formwork

/-- The numbers that lie within the bounds of a field, of which at least one is given. -/
inductive Range where
  | atLeast (min : Number)
  | atMost (max : Number)
  | between (min max : Number)
  deriving DecidableEq, Repr

namespace Range

/-- The range of optional bounds, none without bounds. -/
def of? : Option Number → Option Number → Option Range
  | none, none => none
  | some l, none => some (.atLeast l)
  | none, some u => some (.atMost u)
  | some l, some u => some (.between l u)

/-- The least number of a range. -/
def min? : Range → Option Number
  | .atLeast l | .between l _ => some l
  | .atMost _ => none

/-- The greatest number of a range. -/
def max? : Range → Option Number
  | .atMost u | .between _ u => some u
  | .atLeast _ => none

/-- The words for a range. -/
def message : Range → String
  | .between l u => "between " ++ l.display ++ " and " ++ u.display
  | .atLeast l => "at least " ++ l.display
  | .atMost u => "at most " ++ u.display

theorem min?_of_mem {min max : Option Number} {r : Range} (h : of? min max = some r) :
    r.min? = min := by
  cases min <;> cases max <;> simp_all [of?] <;> subst h <;> rfl

theorem max?_of_mem {min max : Option Number} {r : Range} (h : of? min max = some r) :
    r.max? = max := by
  cases min <;> cases max <;> simp_all [of?] <;> subst h <;> rfl

end Range

/-- A rule that a value is validated by. A date rule reads the value first and takes what it
leaves out from a reference. An authored rule is kept as a copy. -/
inductive Rule where
  | required (label : String)
  | range (label : String) (bounds : Range)
  | date (label : String) (reference : DateTime)
  | custom (copies : List (String × Frozen))
  deriving Repr

namespace Rule

/-- The name of the kind of a rule. -/
def kind : Rule → String
  | .required _ => "required"
  | .range _ _ => "range"
  | .date _ _ => "date"
  | .custom _ => "custom"

/-- The message of a rule; an authored rule may hold any value in its place. -/
def message : Rule → Json
  | .required label => .str ("Please input " ++ label)
  | .range label bounds => .str (label ++ " must be " ++ bounds.message)
  | .date label _ => .str (label ++ " must be a valid date")
  | .custom copies => ((Entries.get? copies "message").map Frozen.thaw).getD .null

/-- The least value that a rule allows. -/
def min? : Rule → Option Number
  | .range _ bounds => bounds.min?
  | _ => none

/-- The greatest value that a rule allows. -/
def max? : Rule → Option Number
  | .range _ bounds => bounds.max?
  | _ => none

/-- The rule reads values as dates before it looks at them. -/
def transforms : Rule → Bool
  | .date _ _ => true
  | _ => false

/-- The rule as a document value. -/
def toJson : Rule → Json
  | .custom copies => .obj (Frozen.thawMembers copies)
  | r =>
    .obj ([("kind", .str r.kind), ("message", r.message)]
      ++ memberOf "min" .num r.min? ++ memberOf "max" .num r.max?
      ++ (if r.transforms then [("transform", .str "parse_date")] else []))

@[simp] theorem toJson_custom (ms : List (String × Json)) :
    (custom (Json.freezeMembers ms)).toJson = .obj ms := by
  rw [toJson, Json.thawMembers_freezeMembers]

/-- Reads a value as a date. What is null, empty or no date stays as it is. -/
def readDate [Host] (reference : DateTime) (value : Json) : Audit Fault InitialValue :=
  match value with
  | .null | .str "" => pure (.json value)
  | _ => do
    match ← tryDate reference value with
    | some d => return .date d
    | none => return .json value

end Rule

namespace Field

/-- The rules that a field has of its own. -/
def ownRules (reference : DateTime) (f : Field) : List Rule :=
  (if f.attributes.required = some true then [.required f.displayLabel] else [])
    ++ (match f with
      | .leaf _ (.number min max _) _ =>
        ((Range.of? min max).map (Rule.range f.displayLabel)).toList
      | .leaf _ (.date _ _) _ => [.date f.displayLabel reference]
      | _ => [])

/-- The rules of a field, in the order in which they are applied. -/
def rules (reference : DateTime) (f : Field) : List Rule :=
  match f.attributes.rules with
  | some descriptors => descriptors.map fun ms => .custom (Json.freezeMembers ms)
  | none => f.ownRules reference

end Field

end Formwork
