import Formwork.Entries

/-!
# Laws of entries

Setting and merging keep keys different. A key has the value that was set for it last, and no
other values come in than those that are set. Entries that are merged step by step may as well be
merged at once.
-/

namespace Formwork

namespace Entries

variable {α β : Type}

/-- The value that comes last under a key. -/
def last? (es : Entries α) (key : String) : Option α :=
  match es with
  | [] => none
  | (k, v) :: rest => (last? rest key).or (if key = k then some v else none)

/-- After a merge a key has the last value that was merged in, or else the one that it had. -/
theorem get?_merge (es more : Entries α) (key : String) :
    (es.merge more).get? key = (more.last? key).or (es.get? key) := by
  induction more generalizing es with
  | nil => rfl
  | cons e rest ih =>
      obtain ⟨k, v⟩ := e
      have hset : es.merge ((k, v) :: rest) = (es.set k v).merge rest := rfl
      rw [hset, ih, get?_set, last?, Option.or_assoc]
      by_cases hkey : key = k <;> simp [hkey]

theorem last?_mapValues (f : α → β) (es : Entries α) (key : String) :
    (es.mapValues f).last? key = (es.last? key).map f := by
  induction es with
  | nil => rfl
  | cons e rest ih =>
      obtain ⟨k, v⟩ := e
      have hcons : mapValues f ((k, v) :: rest) = (k, f v) :: mapValues f rest := rfl
      rw [hcons, last?, last?, ih]
      cases last? rest key <;> by_cases hkey : key = k <;> simp [hkey]

theorem last?_eq_none_iff {es : Entries α} {key : String} :
    es.last? key = none ↔ key ∉ es.keys := by
  induction es with
  | nil => simp [last?, keys]
  | cons e rest ih =>
      obtain ⟨k, v⟩ := e
      have hkeys : keys ((k, v) :: rest) = k :: keys rest := rfl
      rw [last?, Option.or_eq_none_iff, ih, hkeys, List.mem_cons, not_or, and_comm]
      by_cases hkey : key = k <;> simp [hkey]

theorem mem_of_last? {es : Entries α} {key : String} {value : α} (h : es.last? key = some value) :
    (key, value) ∈ es := by
  induction es with
  | nil => cases h
  | cons e rest ih =>
      obtain ⟨k, v⟩ := e
      rw [last?, Option.or_eq_some_iff] at h
      rcases h with h | ⟨-, h⟩
      · exact List.mem_cons_of_mem _ (ih h)
      · obtain ⟨rfl, hv⟩ := Option.ite_none_right_eq_some.mp h
        rw [Option.some.inj hv]
        exact List.mem_cons_self

theorem nodup_keys_set {es : Entries α} (h : es.keys.Nodup) (key : String) (value : α) :
    (es.set key value).keys.Nodup := by
  rw [keys_set]
  by_cases hkey : key ∈ es.keys
  · rwa [if_pos hkey]
  · rw [if_neg hkey]
    apply List.nodup_append.mpr
    refine ⟨h, by simp, fun k hk l hl => ?_⟩
    rw [List.mem_singleton] at hl
    rintro rfl
    exact hkey (hl ▸ hk)

theorem mem_keys_set {es : Entries α} {key other : String} {value : α} :
    other ∈ (es.set key value).keys ↔ other ∈ es.keys ∨ other = key := by
  rw [keys_set]
  by_cases h : key ∈ es.keys
  · rw [if_pos h]
    constructor
    · exact .inl
    · rintro (hother | rfl)
      · exact hother
      · exact h
  · rw [if_neg h, List.mem_append, List.mem_singleton]

theorem mem_keys_merge {es more : Entries α} {key : String} :
    key ∈ (es.merge more).keys ↔ key ∈ es.keys ∨ key ∈ more.keys := by
  induction more generalizing es with
  | nil => simp [merge, keys]
  | cons e rest ih =>
      have hkeys : keys (e :: rest) = e.1 :: keys rest := rfl
      have hmerge : es.merge (e :: rest) = (es.set e.1 e.2).merge rest := rfl
      rw [hmerge, ih, mem_keys_set, hkeys, List.mem_cons, or_assoc]

/-- Setting a key adds no value but the one that is set. -/
theorem eq_or_mem_of_mem_set {es : Entries α} {key : String} {value : α} {e : String × α}
    (h : e ∈ es.set key value) : e.2 = value ∨ e ∈ es := by
  induction es with
  | nil =>
      rw [List.mem_singleton.mp h]
      exact .inl rfl
  | cons d rest ih =>
      obtain ⟨k, v⟩ := d
      rw [set] at h
      split at h
      · rcases List.mem_cons.mp h with rfl | h
        · exact .inl rfl
        · exact .inr (List.mem_cons_of_mem _ h)
      · rcases List.mem_cons.mp h with rfl | h
        · exact .inr List.mem_cons_self
        · exact (ih h).imp_right (List.mem_cons_of_mem _)

/-- What holds of the values of entries and of those that are merged in holds of all afterwards. -/
theorem forall_mem_merge {P : α → Prop} {es more : Entries α} (h : ∀ e ∈ es, P e.2)
    (hmore : ∀ e ∈ more, P e.2) : ∀ e ∈ es.merge more, P e.2 := by
  induction more generalizing es with
  | nil => exact h
  | cons d rest ih =>
      obtain ⟨hd, hrest⟩ := List.forall_mem_cons.mp hmore
      refine ih (fun e he => ?_) hrest
      rcases eq_or_mem_of_mem_set he with heq | he
      · rwa [heq]
      · exact h e he

/-- A key that is new comes last. -/
theorem set_of_not_mem {es : Entries α} {key : String} (h : key ∉ es.keys) (value : α) :
    es.set key value = es ++ [(key, value)] := by
  induction es with
  | nil => rfl
  | cons d rest ih =>
      obtain ⟨k, v⟩ := d
      have hkeys : keys ((k, v) :: rest) = k :: keys rest := rfl
      rw [hkeys, List.mem_cons, not_or] at h
      rw [set, if_neg fun hk => h.1 hk.symm, ih h.2]
      rfl

/-- A merge keeps the keys in their order, and new ones follow in the order in which they first
come. -/
theorem keys_merge (es more : Entries α) :
    (es.merge more).keys = es.keys ++ (more.keys.removeAll es.keys).eraseDups := by
  induction more generalizing es with
  | nil => simp [keys, List.removeAll]
  | cons e rest ih =>
      obtain ⟨k, v⟩ := e
      have hmerge : es.merge ((k, v) :: rest) = (es.set k v).merge rest := rfl
      have hkeys : keys ((k, v) :: rest) = k :: keys rest := rfl
      rw [hmerge, ih, keys_set, hkeys, List.cons_removeAll]
      by_cases hk : k ∈ es.keys
      · simp [hk]
      · have hrest : (keys rest).removeAll (es.keys ++ [k]) =
            ((keys rest).removeAll es.keys).filter fun other => !other == k := by
          rw [List.removeAll, List.removeAll, List.filter_filter]
          refine List.filter_congr fun other _ => ?_
          by_cases hother : other = k <;> simp [hother]
        simp [hk, hrest, List.eraseDups_cons]

/-- Merging keeps keys different. -/
theorem nodup_keys_merge {es : Entries α} (h : es.keys.Nodup) (more : Entries α) :
    (es.merge more).keys.Nodup := by
  induction more generalizing es with
  | nil => exact h
  | cons e rest ih => exact ih (nodup_keys_set h e.1 e.2)

theorem get?_of_mem {es : Entries α} (h : es.keys.Nodup) {e : String × α} (he : e ∈ es) :
    es.get? e.1 = some e.2 := by
  induction es with
  | nil => cases he
  | cons d rest ih =>
      obtain ⟨k, v⟩ := d
      obtain ⟨hk, hrest⟩ := List.nodup_cons.mp h
      rw [get?_cons]
      rcases List.mem_cons.mp he with rfl | he
      · exact if_pos rfl
      · have hmem : e.1 ∈ keys rest := List.mem_map_of_mem he
        have hne : e.1 ≠ k := fun heq => hk (heq ▸ hmem)
        rw [if_neg hne]
        exact ih hrest he

theorem mem_of_lookup {es : List (String × α)} {key : String} {value : α}
    (h : es.lookup key = some value) : (key, value) ∈ es := by
  obtain ⟨before, after, rfl, -⟩ := List.lookup_eq_some_iff.mp h
  exact List.mem_append_right _ (List.mem_cons_self ..)

theorem mem_of_get? {es : Entries α} {key : String} {value : α} (h : es.get? key = some value) :
    (key, value) ∈ es := by
  induction es with
  | nil => cases h
  | cons d rest ih =>
      obtain ⟨k, v⟩ := d
      rw [get?_cons] at h
      split at h
      · cases h
        rename_i hkey
        rw [hkey]
        exact List.mem_cons_self
      · exact List.mem_cons_of_mem _ (ih h)

theorem mem_iff_get? {es : Entries α} (h : es.keys.Nodup) {e : String × α} :
    e ∈ es ↔ es.get? e.1 = some e.2 :=
  ⟨get?_of_mem h, mem_of_get?⟩

/-- Where keys are different, the value that comes last under a key is the only one. -/
theorem last?_eq_get? {es : Entries α} (h : es.keys.Nodup) (key : String) :
    es.last? key = es.get? key := by
  cases hlast : es.last? key with
  | some v => exact (get?_of_mem h (mem_of_last? hlast)).symm
  | none =>
      cases hget : es.get? key with
      | none => rfl
      | some v => exact absurd (List.mem_map_of_mem (mem_of_get? hget)) (last?_eq_none_iff.mp hlast)

/-- The order of entries does not matter where their keys are different. -/
theorem get?_of_perm {es more : Entries α} (h : es.keys.Nodup) (hperm : es.Perm more)
    (key : String) : es.get? key = more.get? key := by
  have h' : more.keys.Nodup := (hperm.map Prod.fst).nodup_iff.mp h
  apply Option.ext
  intro v
  rw [← mem_iff_get? h (e := (key, v)), ← mem_iff_get? h' (e := (key, v)), hperm.mem_iff]

@[simp] theorem get?_append (es more : Entries α) (key : String) :
    get? (es ++ more) key = (get? es key).or (get? more key) := by
  induction es with
  | nil => simp
  | cons e rest ih =>
      obtain ⟨k, v⟩ := e
      rw [List.cons_append, get?_cons, get?_cons, ih]
      split <;> rfl

theorem keys_append_cons (before after : Entries α) (key : String) (v : α) :
    keys (before ++ (key, v) :: after) = before.keys ++ key :: after.keys := by
  simp [keys]

theorem get?_append_cons_self {before after : Entries α} {key : String} {v : α}
    (h : (keys (before ++ (key, v) :: after)).Nodup) :
    get? (before ++ (key, v) :: after) key = some v :=
  get?_of_mem h (List.mem_append_right before List.mem_cons_self)

theorem get?_append_cons_of_ne {before after : Entries α} {key other : String} (v : α)
    (h : other ≠ key) :
    get? (before ++ (key, v) :: after) other = get? (before ++ after) other := by
  rw [get?_append, get?_append, get?_cons, if_neg h]

theorem last?_filterMap_cons {rest : Entries α} {f : α → Option β} {k key : String} {a : α} :
    last? (((k, a) :: rest).filterMap fun e => (f e.2).map fun b => (e.1, b)) key =
      (last? (rest.filterMap fun e => (f e.2).map fun b => (e.1, b)) key).or
        (if key = k then f a else none) := by
  cases ha : f a with
  | none =>
      rw [List.filterMap_cons_none (by simp [ha]), ite_self, Option.or_none]
  | some b =>
      rw [List.filterMap_cons_some (b := (k, b)) (by simp [ha]), last?]

/-- Nothing is given under a key if no entry with the key gives anything. -/
theorem last?_filterMap_eq_none_iff {es : Entries α} {f : α → Option β} {key : String} :
    last? (es.filterMap fun e => (f e.2).map fun b => (e.1, b)) key = none ↔
      ∀ e ∈ es, e.1 = key → f e.2 = none := by
  induction es with
  | nil => simp [last?]
  | cons e rest ih =>
      obtain ⟨k, a⟩ := e
      rw [last?_filterMap_cons, Option.or_eq_none_iff, ih, ite_eq_right_iff, List.forall_mem_cons,
        and_comm, eq_comm]

/-- What is given under a key comes from the last entry with the key that gives anything. -/
theorem last?_filterMap_eq_some_iff {es : Entries α} {f : α → Option β} {key : String}
    {value : β} :
    last? (es.filterMap fun e => (f e.2).map fun b => (e.1, b)) key = some value ↔
      ∃ before a after, es = before ++ (key, a) :: after ∧ f a = some value ∧
        ∀ e ∈ after, e.1 = key → f e.2 = none := by
  induction es with
  | nil => simp [last?]
  | cons e rest ih =>
      obtain ⟨k, a⟩ := e
      rw [last?_filterMap_cons, Option.or_eq_some_iff, ih, last?_filterMap_eq_none_iff]
      constructor
      · rintro (⟨before, b, after, rfl, hb, hafter⟩ | ⟨hrest, h⟩)
        · exact ⟨(k, a) :: before, b, after, rfl, hb, hafter⟩
        · obtain ⟨rfl, ha⟩ := Option.ite_none_right_eq_some.mp h
          exact ⟨[], a, rest, rfl, ha, hrest⟩
      · rintro ⟨_ | ⟨p, before⟩, b, after, hes, hb, hafter⟩
        · cases hes
          exact .inr ⟨hafter, by rw [if_pos rfl, hb]⟩
        · cases hes
          exact .inl ⟨before, b, after, rfl, hb, hafter⟩

theorem set_set (es : Entries α) (key : String) (v w : α) :
    (es.set key v).set key w = es.set key w := by
  induction es with
  | nil => simp [set]
  | cons e rest ih =>
      obtain ⟨k, u⟩ := e
      by_cases hk : k = key <;> simp [set, hk, ih]

/-- Where a key has a place, it does not matter whether it is set before another key or after. -/
theorem set_set_comm {es : Entries α} {key other : String} (hkey : key ∈ es.keys)
    (hne : other ≠ key) (v w : α) : (es.set other w).set key v = (es.set key v).set other w := by
  induction es with
  | nil => cases hkey
  | cons e rest ih =>
      obtain ⟨k, u⟩ := e
      by_cases hk : k = key
      · subst hk
        simp [set, hne.symm]
      · have hrest : key ∈ keys rest := (List.mem_cons.mp hkey).resolve_left (Ne.symm hk)
        by_cases ho : k = other
        · simp [set, ho, hne]
        · simp [set, hk, ho, ih hrest]

/-- A key that has a place and is not set again may be set before a merge or after it. -/
theorem set_merge {es more : Entries α} {key : String} (hkey : key ∈ es.keys)
    (hmore : key ∉ more.keys) (v : α) : (es.merge more).set key v = (es.set key v).merge more := by
  induction more generalizing es with
  | nil => rfl
  | cons e rest ih =>
      obtain ⟨k, w⟩ := e
      obtain ⟨hne, hrest⟩ := not_or.mp fun h => hmore (List.mem_cons.mpr h)
      have hset : key ∈ (es.set k w).keys := mem_keys_set.mpr (.inl hkey)
      calc ((es.set k w).merge rest).set key v
          = ((es.set k w).set key v).merge rest := ih hset hrest
        _ = ((es.set key v).set k w).merge rest := by rw [set_set_comm hkey (Ne.symm hne)]

/-- Setting a key in what is merged sets it in the outcome. -/
theorem merge_set {es more : Entries α} (h : more.keys.Nodup) (key : String) (v : α) :
    es.merge (more.set key v) = (es.merge more).set key v := by
  induction more generalizing es with
  | nil => rfl
  | cons e rest ih =>
      obtain ⟨k, w⟩ := e
      obtain ⟨hk, hrest⟩ := List.nodup_cons.mp h
      rw [set]
      by_cases heq : k = key
      · subst heq
        have hset : k ∈ (es.set k w).keys := mem_keys_set.mpr (.inr rfl)
        rw [if_pos rfl]
        show (es.set k v).merge rest = ((es.set k w).merge rest).set k v
        rw [set_merge hset hk, set_set]
      · rw [if_neg heq]
        exact ih hrest

/-- Merging step by step is the same as merging at once. -/
theorem merge_merge {es more : Entries α} (h : more.keys.Nodup) (last : Entries α) :
    (es.merge more).merge last = es.merge (more.merge last) := by
  induction last generalizing more with
  | nil => rfl
  | cons e rest ih =>
      obtain ⟨k, v⟩ := e
      calc (es.merge more).merge ((k, v) :: rest)
          = (es.merge (more.set k v)).merge rest := by rw [merge_set h]; rfl
        _ = es.merge (more.merge ((k, v) :: rest)) := ih (nodup_keys_set h k v)

theorem set_of_get? {es : Entries α} {key : String} {v : α} (h : es.get? key = some v) :
    es.set key v = es := by
  induction es with
  | nil => cases h
  | cons e rest ih =>
      obtain ⟨k, w⟩ := e
      rw [get?_cons] at h
      by_cases hk : key = k
      · rw [if_pos hk] at h
        simp [set, hk, Option.some.inj h]
      · rw [if_neg hk] at h
        simp [set, Ne.symm hk, ih h]

/-- Merging what is there already changes nothing. -/
theorem merge_of_get? {es more : Entries α} (h : ∀ e ∈ more, es.get? e.1 = some e.2) :
    es.merge more = es := by
  induction more with
  | nil => rfl
  | cons e rest ih =>
      obtain ⟨he, hrest⟩ := List.forall_mem_cons.mp h
      show (es.set e.1 e.2).merge rest = es
      rw [set_of_get? he, ih hrest]

theorem merge_self {es : Entries α} (h : es.keys.Nodup) : es.merge es = es :=
  merge_of_get? fun _ he => get?_of_mem h he

end Entries

end Formwork
