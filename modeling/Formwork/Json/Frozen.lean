import Formwork.Json.Basic

/-!
# Copies of values

A value is kept as a copy that cannot be changed, and is handed out as a fresh value made
of the copy. While a copy is made one call is open for each level of the value, and there
may be no room for so many. `freeze?_eq` says when there is room, and `thaw_freeze` that
the value comes back as it was.
-/

namespace Formwork

/-- A copy that cannot be changed, with views for objects and tuples for arrays. -/
inductive Frozen where
  | null
  | bool (value : Bool)
  | num (value : Number)
  | str (value : String)
  | tuple (elements : List Frozen)
  | view (members : List (String × Frozen))
  deriving Repr

namespace Frozen

mutual

/-- The value that a copy was made of. -/
def thaw : Frozen → Json
  | .null => .null
  | .bool b => .bool b
  | .num n => .num n
  | .str s => .str s
  | .tuple elements => .arr (thawList elements)
  | .view members => .obj (thawMembers members)

/-- The values that elements were made of. -/
def thawList : List Frozen → List Json
  | [] => []
  | f :: rest => f.thaw :: thawList rest

/-- The values that members were made of. -/
def thawMembers : List (String × Frozen) → List (String × Json)
  | [] => []
  | (key, f) :: rest => (key, f.thaw) :: thawMembers rest

end

end Frozen

namespace Json

mutual

/-- The copy of a value, none if there is no room for its calls. -/
def freeze? : Nat → Json → Option Frozen
  | 0, _ => none
  | _ + 1, .null => some .null
  | _ + 1, .bool b => some (.bool b)
  | _ + 1, .num n => some (.num n)
  | _ + 1, .str s => some (.str s)
  | room + 1, .arr elements => (freezeList? room elements).map .tuple
  | room + 1, .obj members => (freezeMembers? room members).map .view

/-- The copies of elements. -/
def freezeList? (room : Nat) : List Json → Option (List Frozen)
  | [] => some []
  | j :: rest => do
    let f ← freeze? room j
    return f :: (← freezeList? room rest)

/-- The copies of members. -/
def freezeMembers? (room : Nat) : List (String × Json) → Option (List (String × Frozen))
  | [] => some []
  | (key, j) :: rest => do
    let f ← freeze? room j
    return (key, f) :: (← freezeMembers? room rest)

end

mutual

/-- The copy of a value where there is room enough. -/
def freeze : Json → Frozen
  | .null => .null
  | .bool b => .bool b
  | .num n => .num n
  | .str s => .str s
  | .arr elements => .tuple (freezeList elements)
  | .obj members => .view (freezeMembers members)

/-- The copies of elements where there is room enough. -/
def freezeList : List Json → List Frozen
  | [] => []
  | j :: rest => j.freeze :: freezeList rest

/-- The copies of members where there is room enough. -/
def freezeMembers : List (String × Json) → List (String × Frozen)
  | [] => []
  | (key, j) :: rest => (key, j.freeze) :: freezeMembers rest

end

mutual

/-- The calls of a copy that are open at once: one for each level. -/
def height : Json → Nat
  | .arr elements => 1 + heightList elements
  | .obj members => 1 + heightMembers members
  | _ => 1

/-- The greatest height of the elements. -/
def heightList : List Json → Nat
  | [] => 0
  | j :: rest => max j.height (heightList rest)

/-- The greatest height of the members. -/
def heightMembers : List (String × Json) → Nat
  | [] => 0
  | (_, j) :: rest => max j.height (heightMembers rest)

end

theorem height_pos (j : Json) : 0 < j.height := by
  cases j <;> simp only [height] <;> omega

theorem heightList_le_iff {js : List Json} {limit : Nat} :
    heightList js ≤ limit ↔ ∀ j ∈ js, j.height ≤ limit := by
  induction js with
  | nil => simp [heightList]
  | cons j rest ih => rw [heightList, Nat.max_le, ih, List.forall_mem_cons]

theorem heightMembers_le_iff {ms : List (String × Json)} {limit : Nat} :
    heightMembers ms ≤ limit ↔ ∀ e ∈ ms, e.2.height ≤ limit := by
  induction ms with
  | nil => simp [heightMembers]
  | cons e rest ih => rw [heightMembers, Nat.max_le, ih, List.forall_mem_cons]

theorem height_arr_le_iff {js : List Json} {limit : Nat} :
    (Json.arr js).height ≤ limit + 1 ↔ ∀ j ∈ js, j.height ≤ limit := by
  rw [height, ← heightList_le_iff, Nat.add_comm 1, Nat.add_le_add_iff_right]

theorem height_obj_le_iff {ms : List (String × Json)} {limit : Nat} :
    (Json.obj ms).height ≤ limit + 1 ↔ ∀ e ∈ ms, e.2.height ≤ limit := by
  rw [height, ← heightMembers_le_iff, Nat.add_comm 1, Nat.add_le_add_iff_right]

mutual

/-- A value has at least as many levels as it nests containers. -/
theorem depth_le_height : ∀ j : Json, j.depth ≤ j.height
  | .null | .bool _ | .num _ | .str _ => Nat.zero_le _
  | .arr elements => Nat.add_le_add_left (depthList_le_heightList elements) 1
  | .obj members => Nat.add_le_add_left (depthMembers_le_heightMembers members) 1

theorem depthList_le_heightList : ∀ js : List Json, depthList js ≤ heightList js
  | [] => Nat.le_refl _
  | j :: rest => by
    have hj := depth_le_height j
    have hrest := depthList_le_heightList rest
    simp only [depthList, heightList]
    omega

theorem depthMembers_le_heightMembers :
    ∀ ms : List (String × Json), depthMembers ms ≤ heightMembers ms
  | [] => Nat.le_refl _
  | (_, j) :: rest => by
    have hj := depth_le_height j
    have hrest := depthMembers_le_heightMembers rest
    simp only [depthMembers, heightMembers]
    omega

end

mutual

@[simp] theorem thaw_freeze : ∀ j : Json, j.freeze.thaw = j
  | .null | .bool _ | .num _ | .str _ => rfl
  | .arr elements => by rw [freeze, Frozen.thaw, thawList_freezeList elements]
  | .obj members => by rw [freeze, Frozen.thaw, thawMembers_freezeMembers members]

@[simp] theorem thawList_freezeList : ∀ js : List Json, Frozen.thawList (freezeList js) = js
  | [] => rfl
  | j :: rest => by rw [freezeList, Frozen.thawList, thaw_freeze j, thawList_freezeList rest]

@[simp] theorem thawMembers_freezeMembers :
    ∀ ms : List (String × Json), Frozen.thawMembers (freezeMembers ms) = ms
  | [] => rfl
  | (_, j) :: rest => by
    rw [freezeMembers, Frozen.thawMembers, thaw_freeze j, thawMembers_freezeMembers rest]

end

mutual

theorem freeze?_eq : ∀ (room : Nat) (j : Json),
    freeze? room j = if j.height ≤ room then some j.freeze else none
  | 0, j => by cases j <;> simp [freeze?, height]
  | room + 1, .null | room + 1, .bool _ | room + 1, .num _ | room + 1, .str _ => by
    simp [freeze?, height, freeze]
  | room + 1, .arr elements => by
    simp only [freeze?, freezeList?_eq room elements, height, freeze, Nat.add_comm 1,
      Nat.add_le_add_iff_right]
    split <;> rfl
  | room + 1, .obj members => by
    simp only [freeze?, freezeMembers?_eq room members, height, freeze, Nat.add_comm 1,
      Nat.add_le_add_iff_right]
    split <;> rfl

theorem freezeList?_eq : ∀ (room : Nat) (js : List Json),
    freezeList? room js = if heightList js ≤ room then some (freezeList js) else none
  | room, [] => by simp [freezeList?, heightList, freezeList]
  | room, j :: rest => by
    rw [freezeList?, freeze?_eq room j, freezeList?_eq room rest]
    by_cases hj : j.height ≤ room <;> by_cases hrest : heightList rest ≤ room <;>
      simp [heightList, freezeList, hj, hrest, Nat.max_le]

theorem freezeMembers?_eq : ∀ (room : Nat) (ms : List (String × Json)),
    freezeMembers? room ms = if heightMembers ms ≤ room then some (freezeMembers ms) else none
  | room, [] => by simp [freezeMembers?, heightMembers, freezeMembers]
  | room, (key, j) :: rest => by
    rw [freezeMembers?, freeze?_eq room j, freezeMembers?_eq room rest]
    by_cases hj : j.height ≤ room <;> by_cases hrest : heightMembers rest ≤ room <;>
      simp [heightMembers, freezeMembers, hj, hrest, Nat.max_le]

end

/-- What is handed out of a value that was kept. -/
def copy? (room : Nat) (j : Json) : Option Json :=
  (freeze? room j).map Frozen.thaw

/-- What is handed out of the members of an object that was kept. -/
def copyObject? (room : Nat) (members : List (String × Json)) : Option (List (String × Json)) :=
  match freeze? room (.obj members) with
  | some (.view copies) => some (Frozen.thawMembers copies)
  | _ => none

theorem copy?_eq (room : Nat) (j : Json) :
    j.copy? room = if j.height ≤ room then some j else none := by
  rw [copy?, freeze?_eq]
  split <;> simp

theorem copyObject?_eq (room : Nat) (ms : List (String × Json)) :
    copyObject? room ms = if (Json.obj ms).height ≤ room then some ms else none := by
  rw [copyObject?, freeze?_eq]
  by_cases h : (Json.obj ms).height ≤ room <;> simp [h, freeze]

theorem mapM_copyObject? (room : Nat) (rules : List (List (String × Json))) :
    rules.mapM (copyObject? room) =
      if rules.all fun rule => (Json.obj rule).height ≤ room then some rules else none := by
  induction rules with
  | nil => rfl
  | cons rule rest ih =>
      rw [List.mapM_cons, ih, copyObject?_eq]
      by_cases hrule : (Json.obj rule).height ≤ room <;>
        by_cases hrest : rest.all fun rule => (Json.obj rule).height ≤ room <;>
        simp [hrule, hrest]

end Json

end Formwork
