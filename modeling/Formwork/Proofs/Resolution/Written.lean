import Formwork.Proofs.DateText.Offset
import Formwork.Proofs.Resolution.Values

/-!
# The written form of a resolution

A document value is a tree whose leaves are scalars, so all that can keep a valid resolution from
being written is a date without a written form.
-/

namespace Formwork

/-- A value has a written form unless it is a date whose offset reaches a day. -/
theorem InitialValue.exists_toJson?_iff {v : InitialValue} :
    (∃ j, v.toJson? = some j) ↔ ∀ d, v = .date d → d.isWritable = true := by
  cases v with
  | json j => simp [toJson?]
  | date d => simp [toJson?, DateTime.iso?]

theorem InitialValues.exists_toMembers?_iff {values : InitialValues} :
    (∃ members, toMembers? values = some members) ↔ ∀ e ∈ values, ∃ j, e.2.toJson? = some j := by
  rw [toMembers?, exists_mapM_eq_some_iff]
  simp [Option.bind_eq_some_iff]

namespace Descriptor

theorem exists_widgetMembers?_iff {w : Widget} :
    (∃ members, widgetMembers? w = some members) ↔
      ∀ v, w.initial = some v → ∃ j, v.toJson? = some j := by
  cases hinitial : w.initial with
  | none => simp [widgetMembers?, hinitial]
  | some v => simp [widgetMembers?, hinitial, Option.bind_eq_some_iff]

mutual

/-- A descriptor can be written if the initial values of all its inputs can. -/
theorem exists_toJson?_iff : ∀ d : Descriptor,
    (∃ j, d.toJson? = some j) ↔ ∀ e ∈ d.walk, ∃ members, widgetMembers? e.widget = some members
  | .node w cs => by
      have hchildren := exists_toJsonAll?_iff cs
      rw [walk, List.forall_mem_cons, ← hchildren, toJson?]
      simp only [Option.bind_eq_bind, Option.bind_eq_some_iff, Option.pure_def,
        Option.some.injEq]
      constructor
      · rintro ⟨j, members, hmembers, children, hall, -⟩
        exact ⟨⟨members, hmembers⟩, children, hall⟩
      · rintro ⟨⟨members, hmembers⟩, children, hall⟩
        exact ⟨_, members, hmembers, children, hall, rfl⟩

theorem exists_toJsonAll?_iff : ∀ ds : List Descriptor,
    (∃ js, toJsonAll? ds = some js) ↔
      ∀ e ∈ walkAll ds, ∃ members, widgetMembers? e.widget = some members
  | [] => by simp [toJsonAll?, walkAll]
  | d :: rest => by
      have hfirst := exists_toJson?_iff d
      have hrest := exists_toJsonAll?_iff rest
      rw [walkAll, List.forall_mem_append, ← hfirst, ← hrest, toJsonAll?]
      simp only [Option.bind_eq_bind, Option.bind_eq_some_iff, Option.pure_def,
        Option.some.injEq]
      constructor
      · rintro ⟨js, j, hj, others, hothers, -⟩
        exact ⟨⟨j, hj⟩, others, hothers⟩
      · rintro ⟨⟨j, hj⟩, others, hothers⟩
        exact ⟨_, j, hj, others, hothers, rfl⟩

end

end Descriptor

namespace Form

section

variable [Host]

/-- A date among the values is one that a field gives last and the caller does not replace. -/
theorem Resolves.get?_eq_date_iff {options : Options} {initial : Overrides} {source : Source}
    {r : Resolution} (h : Resolves options initial source r) {key : String} {d : DateTime} :
    Entries.get? r.values key = some (.date d) ↔
      key ∉ Entries.keys (initial.getD []) ∧ ∃ f v,
        r.form.GivesLast options.dateReference key f ∧ f.dateDefault = some v ∧
        DateText.parse options.dateReference v = .ok d := by
  rw [h.get?_values, ← Entries.last?_eq_none_iff]
  cases hcaller : Entries.last? (initial.getD []) key with
  | some j => simp
  | none =>
      simp only [Option.map_none, Option.none_or, last?_given_eq_some_iff,
        Field.given?_eq_date_iff, true_and]
      constructor
      · rintro ⟨f, hlast, v, hv, hd⟩
        exact ⟨f, v, hlast, hv, hd⟩
      · rintro ⟨f, v, hlast, hv, hd⟩
        exact ⟨f, hlast, v, hv, hd⟩

/-- A resolution can be written if each of its values can. -/
theorem Resolves.exists_toJson?_iff {options : Options} {initial : Overrides} {source : Source}
    {r : Resolution} (h : Resolves options initial source r) :
    (∃ j, r.toJson? = some j) ↔
      ∀ key d, Entries.get? r.values key = some (.date d) → d.isWritable = true := by
  have hmembers : (∃ j, r.toJson? = some j) ↔
      (∃ fields, Descriptor.toJsonAll? r.tree = some fields) ∧
      ∃ members, InitialValues.toMembers? r.values = some members := by
    simp [Resolution.toJson?, Option.bind_eq_some_iff]
  rw [hmembers, Descriptor.exists_toJsonAll?_iff, InitialValues.exists_toMembers?_iff]
  constructor
  · rintro ⟨-, hvalues⟩ key d hd
    have hmem : (key, InitialValue.date d) ∈ r.values := Entries.mem_of_get? hd
    exact InitialValue.exists_toJson?_iff.mp (hvalues _ hmem) d rfl
  · intro hdates
    have hvalue : ∀ key v, Entries.get? r.values key = some v → ∃ j, v.toJson? = some j := by
      intro key v hv
      apply InitialValue.exists_toJson?_iff.mpr
      rintro d rfl
      exact hdates key d hv
    constructor
    · intro e he
      apply Descriptor.exists_widgetMembers?_iff.mpr
      intro v hv
      exact hvalue _ v (h.get?_of_initial he hv)
    · intro e he
      exact hvalue e.1 e.2 (Entries.get?_of_mem h.nodup_keys he)

/-- A valid resolution can be written exactly if every date that a field gives last under a key
which the caller leaves alone has an offset below a day. Any other offset is spelled by the text
of the date. -/
theorem resolveSource_written_iff {options : Options} {initial : Overrides} {source : Source}
    {r : Resolution}
    (h : (resolveSource options (initial.map .obj) source).outcome = .ok (.ok r)) :
    ((∃ j, r.toJson? = some j) ↔
      ∀ key f v d, r.form.GivesLast options.dateReference key f →
        key ∉ Entries.keys (initial.getD []) → f.dateDefault = some v →
        DateText.parse options.dateReference v = .ok d → d.isWritable = true) ∧
    ∀ v d, DateText.parse options.dateReference v = .ok d → d.isWritable = false →
      ∃ s offset, v = .str s ∧
        DateText.Reading.SpellsOffset (DateText.tokens s.toList) offset ∧
        DateTime.daySeconds ≤ offset.natAbs := by
  have hr := resolves_of_resolveSource h
  refine ⟨?_, fun v d => DateText.spellsOffset_of_not_isWritable⟩
  rw [hr.exists_toJson?_iff]
  constructor
  · intro hdates key f v d hlast hkey hv hd
    exact hdates key d (hr.get?_eq_date_iff.mpr ⟨hkey, f, v, hlast, hv, hd⟩)
  · intro hall key d hd
    obtain ⟨hkey, f, v, hlast, hv, hparse⟩ := hr.get?_eq_date_iff.mp hd
    exact hall key f v d hlast hkey hv hparse

end

/-- A document with a date whose offset is left open. -/
def offsetDate (offset : String) : Source :=
  .text ("\x7b\"fields\": [\x7b\"name\": \"d\", \"type\": \"date\", "
    ++ "\"defaultValue\": \"2024-05-06 10:00" ++ offset ++ "\"\x7d]\x7d")

attribute [local instance] Host.standard in
/-- An offset of one minute less than a day can be written. -/
theorem resolveSource_written_belowDay :
    ∃ r, (resolveSource .standard ((none : Overrides).map .obj) (offsetDate "+23:59")).outcome =
        .ok (.ok r) ∧
      ∀ key f v d, r.form.GivesLast Options.standard.dateReference key f →
        key ∉ Entries.keys ((none : Overrides).getD []) → f.dateDefault = some v →
        DateText.parse Options.standard.dateReference v = .ok d → d.isWritable = true := by
  have hwritten : ((resolution? .standard none (offsetDate "+23:59")).bind
      Resolution.toJson?).isSome = true := by
    decide +kernel
  obtain ⟨j, hj⟩ := Option.isSome_iff_exists.mp hwritten
  obtain ⟨r, hr, hjson⟩ := Option.bind_eq_some_iff.mp hj
  have hresolved : (resolveSource .standard ((none : Overrides).map .obj)
      (offsetDate "+23:59")).outcome = .ok (.ok r) := resolution?_eq_some_iff.mp hr
  exact ⟨r, hresolved, (resolveSource_written_iff hresolved).1.mp ⟨j, hjson⟩⟩

attribute [local instance] Host.standard in
/-- An offset of a day is verified and resolved, and then cannot be written. -/
theorem resolveSource_fullDay_not_written :
    ∃ r, (resolveSource .standard none (offsetDate "+24:00")).outcome = .ok (.ok r) ∧
      r.toJson? = none := by
  have hrefused : (resolution? .standard none (offsetDate "+24:00")).map Resolution.toJson? =
      some none := by
    decide +kernel
  obtain ⟨r, hr, hjson⟩ := Option.map_eq_some_iff.mp hrefused
  exact ⟨r, resolution?_eq_some_iff.mp hr, hjson⟩

end Form

end Formwork
