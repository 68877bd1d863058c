import Formwork.Json.Basic
import Formwork.Proofs.Entries

/-!
# Regular document values

In a regular value no object has a key twice and every number satisfies a condition. What a reader
that refuses constants returns is regular, and so is what can be written and read back, each with
a condition of its own. How deep a value nests is told by its parts too.
-/

namespace Formwork

namespace Json

variable {p q : Number → Prop}

mutual

/-- Every number satisfies the condition, and no object has a key twice. -/
def Regular (p : Number → Prop) : Json → Prop
  | .num n => p n
  | .arr elements => RegularList p elements
  | .obj members => (Entries.keys members).Nodup ∧ RegularMembers p members
  | .null | .bool _ | .str _ => True

/-- The values of a list are regular. -/
def RegularList (p : Number → Prop) : List Json → Prop
  | [] => True
  | j :: rest => j.Regular p ∧ RegularList p rest

/-- The values of members are regular. -/
def RegularMembers (p : Number → Prop) : List (String × Json) → Prop
  | [] => True
  | (_, j) :: rest => j.Regular p ∧ RegularMembers p rest

end

theorem regularList_iff {js : List Json} : RegularList p js ↔ ∀ j ∈ js, j.Regular p := by
  induction js with
  | nil => simp [RegularList]
  | cons j rest ih => rw [RegularList, ih, List.forall_mem_cons]

theorem regularMembers_iff {ms : List (String × Json)} :
    RegularMembers p ms ↔ ∀ e ∈ ms, e.2.Regular p := by
  induction ms with
  | nil => simp [RegularMembers]
  | cons e rest ih => rw [RegularMembers, ih, List.forall_mem_cons]

@[simp] theorem regular_null : Json.null.Regular p := trivial

@[simp] theorem regular_bool {b : Bool} : (Json.bool b).Regular p := trivial

@[simp] theorem regular_str {s : String} : (Json.str s).Regular p := trivial

@[simp] theorem regular_num {n : Number} : (Json.num n).Regular p ↔ p n := by
  rw [Regular]

@[simp] theorem regular_arr {js : List Json} :
    (Json.arr js).Regular p ↔ ∀ j ∈ js, j.Regular p := by
  rw [Regular, regularList_iff]

@[simp] theorem regular_obj {ms : List (String × Json)} :
    (Json.obj ms).Regular p ↔ (Entries.keys ms).Nodup ∧ ∀ e ∈ ms, e.2.Regular p := by
  rw [Regular, regularMembers_iff]

mutual

/-- A condition that follows from another one holds where that one does. -/
theorem Regular.mono (hpq : ∀ n, p n → q n) : ∀ {j : Json}, j.Regular p → j.Regular q
  | .null, _ => trivial
  | .bool _, _ => trivial
  | .str _, _ => trivial
  | .num n, h => regular_num.mpr (hpq n (regular_num.mp h))
  | .arr _, h => RegularList.mono hpq h
  | .obj _, h => ⟨h.1, RegularMembers.mono hpq h.2⟩

theorem RegularList.mono (hpq : ∀ n, p n → q n) :
    ∀ {js : List Json}, RegularList p js → RegularList q js
  | [], _ => trivial
  | _ :: _, h => ⟨Regular.mono hpq h.1, RegularList.mono hpq h.2⟩

theorem RegularMembers.mono (hpq : ∀ n, p n → q n) :
    ∀ {ms : List (String × Json)}, RegularMembers p ms → RegularMembers q ms
  | [], _ => trivial
  | _ :: _, h => ⟨Regular.mono hpq h.1, RegularMembers.mono hpq h.2⟩

end

/-- A member of a regular object is regular. -/
theorem Regular.get? {ms : List (String × Json)} {key : String} {v : Json}
    (h : (Json.obj ms).Regular p) (hv : Entries.get? ms key = some v) : v.Regular p :=
  (regular_obj.mp h).2 _ (Entries.mem_of_get? hv)

/-- A regular object stays so when a key is set to a regular value. -/
theorem Regular.set {ms : List (String × Json)} {v : Json} (h : (Json.obj ms).Regular p)
    (hv : v.Regular p) (key : String) : (Json.obj (Entries.set ms key v)).Regular p := by
  obtain ⟨hkeys, hall⟩ := regular_obj.mp h
  refine regular_obj.mpr ⟨Entries.nodup_keys_set hkeys key v, fun e he => ?_⟩
  rcases Entries.eq_or_mem_of_mem_set he with heq | he
  · rwa [heq]
  · exact hall e he

theorem depthList_le_iff {js : List Json} {limit : Nat} :
    depthList js ≤ limit ↔ ∀ j ∈ js, j.depth ≤ limit := by
  induction js with
  | nil => simp [depthList]
  | cons j rest ih => rw [depthList, Nat.max_le, ih, List.forall_mem_cons]

theorem depthMembers_le_iff {ms : List (String × Json)} {limit : Nat} :
    depthMembers ms ≤ limit ↔ ∀ e ∈ ms, e.2.depth ≤ limit := by
  induction ms with
  | nil => simp [depthMembers]
  | cons e rest ih => rw [depthMembers, Nat.max_le, ih, List.forall_mem_cons]

theorem depth_arr_le_iff {js : List Json} {limit : Nat} :
    (Json.arr js).depth ≤ limit + 1 ↔ ∀ j ∈ js, j.depth ≤ limit := by
  rw [depth, ← depthList_le_iff]
  omega

theorem depth_obj_le_iff {ms : List (String × Json)} {limit : Nat} :
    (Json.obj ms).depth ≤ limit + 1 ↔ ∀ e ∈ ms, e.2.depth ≤ limit := by
  rw [depth, ← depthMembers_le_iff]
  omega

end Json

end Formwork
