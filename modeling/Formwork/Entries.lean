/-!
# Entries

Entries are pairs of a key and a value in the order in which the keys first came.
Setting a key that is present changes its value and keeps its place.
-/

namespace Formwork

/-- Keys with their values, in order. -/
abbrev Entries (α : Type) := List (String × α)

namespace Entries

variable {α β : Type}

/-- The keys in order. -/
def keys (es : Entries α) : List String :=
  es.map (·.1)

/-- The value of a key. -/
def get? (es : Entries α) (key : String) : Option α :=
  es.lookup key

/-- Sets the value of a key, at the end if the key is new. -/
def set (es : Entries α) (key : String) (value : α) : Entries α :=
  match es with
  | [] => [(key, value)]
  | (k, v) :: rest => if k = key then (k, value) :: rest else (k, v) :: set rest key value

/-- Sets all of the given entries, one after another. -/
def merge (es more : Entries α) : Entries α :=
  more.foldl (fun es e => es.set e.1 e.2) es

/-- Removes a key. -/
def erase (es : Entries α) (key : String) : Entries α :=
  es.filter (·.1 ≠ key)

/-- Changes the values only. -/
def mapValues (f : α → β) (es : Entries α) : Entries β :=
  es.map fun e => (e.1, f e.2)

@[simp] theorem get?_nil (key : String) : get? ([] : Entries α) key = none := rfl

theorem get?_cons (k : String) (v : α) (es : Entries α) (key : String) :
    get? ((k, v) :: es) key = if key = k then some v else get? es key := by
  unfold get?
  rw [List.lookup_cons]
  by_cases h : key = k
  · simp [h]
  · simp [h, beq_eq_false_iff_ne.mpr h]

/-- A key that was set has the value, and every other key is as before. -/
theorem get?_set (es : Entries α) (key other : String) (value : α) :
    (es.set key value).get? other = if other = key then some value else es.get? other := by
  induction es with
  | nil => simp [set, get?_cons]
  | cons e rest ih =>
    obtain ⟨k, v⟩ := e
    by_cases h : k = key
    · subst h
      by_cases ho : other = k <;> simp [set, get?_cons, ho]
    · by_cases ho : other = k
      · subst ho
        simp [set, get?_cons, h]
      · simp [set, get?_cons, h, ho, ih]

/-- A key keeps its place when it is set, and a new key comes last. -/
theorem keys_set (es : Entries α) (key : String) (value : α) :
    (es.set key value).keys = if key ∈ es.keys then es.keys else es.keys ++ [key] := by
  induction es with
  | nil => simp [set, keys]
  | cons e rest ih =>
    obtain ⟨k, v⟩ := e
    by_cases h : k = key
    · subst h
      simp [set, keys]
    · have h' : ¬ key = k := fun e => h e.symm
      by_cases hm : key ∈ keys rest
      · simp_all [set, keys]
      · simp_all [set, keys]

@[simp] theorem merge_nil (es : Entries α) : es.merge [] = es := rfl

end Entries

end Formwork
