import Formwork.Proofs.DateText.Steps

/-!
# The offset of a date text

A date has the offset that the text spells: the hours and minutes after a sign. Nothing bounds
them below a day, and a date whose offset reaches a day has no written form.
-/

namespace Formwork.DateText

namespace Reading

/-- The offset of a reading is zero or spelled by the tokens, whatever it began with. -/
theorem offset_of_run {currentYear taken : Nat} {before ts all : List Token} {r r' : Reading}
    (h : run currentYear before taken r ts = .ok r') (hsuffix : ts <:+ all)
    (hr : ∀ offset, r.offset = some offset → offset = 0 ∨ SpellsOffset all offset) :
    ∀ offset, r'.offset = some offset → offset = 0 ∨ SpellsOffset all offset := by
  induction ts generalizing before taken r with
  | nil =>
      cases taken <;> cases h <;> exact hr
  | cons t rest ih =>
      have hrest : rest <:+ all := (List.suffix_cons t rest).trans hsuffix
      cases taken with
      | succ taken => exact ih h hrest hr
      | zero =>
          rw [run, bind_eq_ok_iff] at h
          obtain ⟨⟨r₁, k⟩, hstep, h⟩ := h
          apply ih h hrest
          rcases (step_eq_ok hstep).2 with hsame | hspelled
          · intro offset ho
            exact hr offset (hsame ▸ ho)
          · intro offset ho
            rcases hspelled offset ho with hzero | ⟨sign, after, hours, minutes, count, hs, hp⟩
            · exact .inl hzero
            · exact .inr ⟨sign, after, hours, minutes, count, hs.trans hsuffix, hp⟩

end Reading

/-- The offset of a date is zero or spelled by the text. -/
theorem offset_of_parseIn {currentYear : Nat} {reference d : DateTime} {s : String}
    (h : parseIn currentYear reference s = .ok d) (offset : Int) (ho : d.offset = some offset) :
    offset = 0 ∨ Reading.SpellsOffset (tokens s.toList) offset := by
  obtain ⟨-, r, hreading, hbuild⟩ := parseIn_eq_ok_iff.mp h
  have hzone := (build?_eq_some hbuild).1.symm.trans ho
  rw [zoneOffset] at hzone
  split at hzone
  · cases hzone
    exact .inl rfl
  · refine Reading.offset_of_run hreading (List.suffix_refl _) ?_ offset hzone
    intro offset ho
    cases ho

variable [Host]

/-- A date without a written form was read from a text that spells an offset of a day or more. -/
theorem spellsOffset_of_not_isWritable {reference d : DateTime} {v : Json}
    (h : parse reference v = .ok d) (hd : d.isWritable = false) :
    ∃ s offset, v = .str s ∧ Reading.SpellsOffset (tokens s.toList) offset ∧
      DateTime.daySeconds ≤ offset.natAbs := by
  cases v with
  | str s =>
      cases ho : d.offset with
      | none => simp [DateTime.isWritable, ho] at hd
      | some offset =>
          have hsize : DateTime.daySeconds ≤ offset.natAbs := by
            simpa [DateTime.isWritable, ho] using hd
          rcases offset_of_parseIn h offset ho with rfl | hspelled
          · exact absurd hsize (by decide)
          · exact ⟨s, offset, rfl, hspelled, hsize⟩
  | _ => cases h

end Formwork.DateText
