import Formwork.Entries
import Formwork.Number.Basic

/-!
# Document values

A document is a tree of objects, arrays and scalars. Members of an object keep
their order, and no key occurs twice in what a reader returns.
-/

namespace Formwork

/-- A value of a document. -/
inductive Json where
  | null
  | bool (value : Bool)
  | num (value : Number)
  | str (value : String)
  | arr (elements : List Json)
  | obj (members : List (String × Json))
  deriving Repr, Inhabited

namespace Json

/-- An integer as a value. -/
def int (n : Int) : Json :=
  .num (.int n)

/-- The value of a member; what is no object has no members. -/
def member? (key : String) : Json → Option Json
  | .obj members => Entries.get? members key
  | _ => none

/-- The value of a member, and null if there is none. -/
def member (key : String) (j : Json) : Json :=
  (j.member? key).getD .null

/-- The name of a kind of value in messages. -/
def kindName : Json → String
  | .null => "NoneType"
  | .bool _ => "bool"
  | .num (.int _) => "int"
  | .num (.float _) => "float"
  | .str _ => "str"
  | .arr _ => "list"
  | .obj _ => "dict"

mutual

/-- The greatest number of containers around a scalar, the outermost one included. -/
def depth : Json → Nat
  | .arr elements => 1 + depthList elements
  | .obj members => 1 + depthMembers members
  | _ => 0

/-- The greatest depth of the elements. -/
def depthList : List Json → Nat
  | [] => 0
  | j :: rest => max j.depth (depthList rest)

/-- The greatest depth of the members. -/
def depthMembers : List (String × Json) → Nat
  | [] => 0
  | (_, j) :: rest => max j.depth (depthMembers rest)

end

mutual

/-- The two values are equal, numbers of different kinds counting as different. -/
def equal : Json → Json → Bool
  | .null, .null => true
  | .bool a, .bool b => a == b
  | .num a, .num b => a == b
  | .str a, .str b => a == b
  | .arr a, .arr b => equalList a b
  | .obj a, .obj b => equalMembers a b
  | _, _ => false

/-- The two lists of values are equal. -/
def equalList : List Json → List Json → Bool
  | [], [] => true
  | a :: as, b :: bs => equal a b && equalList as bs
  | _, _ => false

/-- The two lists of members are equal, order included. -/
def equalMembers : List (String × Json) → List (String × Json) → Bool
  | [], [] => true
  | (k, a) :: as, (l, b) :: bs => k == l && equal a b && equalMembers as bs
  | _, _ => false

end

mutual

theorem equal_iff : ∀ a b : Json, equal a b = true ↔ a = b
  | .null, b => by cases b <;> simp [equal]
  | .bool a, b => by cases b <;> simp [equal]
  | .num a, b => by cases b <;> simp [equal]
  | .str a, b => by cases b <;> simp [equal]
  | .arr a, b => by cases b <;> simp [equal, equalList_iff a]
  | .obj a, b => by cases b <;> simp [equal, equalMembers_iff a]

theorem equalList_iff : ∀ a b : List Json, equalList a b = true ↔ a = b
  | [], b => by cases b <;> simp [equalList]
  | a :: as, b => by cases b <;> simp [equalList, equal_iff a, equalList_iff as]

theorem equalMembers_iff : ∀ a b : List (String × Json), equalMembers a b = true ↔ a = b
  | [], b => by cases b <;> simp [equalMembers]
  | (k, a) :: as, b => by
    cases b <;> simp [equalMembers, equal_iff a, equalMembers_iff as, Prod.ext_iff]

end

instance : DecidableEq Json := fun a b => decidable_of_iff _ (equal_iff a b)

@[simp] theorem member?_obj (key : String) (members : List (String × Json)) :
    (Json.obj members).member? key = Entries.get? members key := rfl

end Json

end Formwork
