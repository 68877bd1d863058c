import Formwork.Proofs.Value.Stalls
import Formwork.Verification.Field

/-!
# The mismatch that a check reports

A check ends in one of three ways: it accepts the value, it breaks off, or it reports a mismatch.
The mismatch is that of the value itself, if this is not of the kind that the field asks for, and
else that of the first entry that is wrong. Entries are not opened any further, so the path of a
mismatch has one step at most, and the message is that of the entry after words that say which one
it is.

## Main results

* `check_decides`: which values a check accepts, where it breaks off, and what it reports.
* `longHour_not_decided`: a text that is no date, at which a check breaks off.
-/

namespace Formwork

/-- A leaf reports a mismatch of the value itself. -/
theorem Leaf.path_of_check [Host] {l : Leaf} {v : Json} {m : Mismatch}
    (h : (l.check v).outcome = .ok (some m)) : m.path = "" := by
  have hunless : ∀ {holds m'}, mismatchUnless holds m' = some m → m'.path = "" → m.path = "" := by
    intro holds m' hm hpath
    cases holds with
    | true => cases hm
    | false =>
        cases hm
        exact hpath
  cases l with
  | radio options => exact hunless (Except.ok.inj h) rfl
  | select options mode =>
      cases mode with
      | none => exact hunless (Except.ok.inj h) rfl
      | some mode =>
          cases v with
          | arr vs => exact hunless (Except.ok.inj h) rfl
          | _ => cases h; rfl
  | date format showTime =>
      obtain ⟨d, -, hd⟩ := Audit.outcome_bind_eq_ok_iff.mp h
      exact hunless (Except.ok.inj hd) rfl
  | _ =>
      cases v <;> cases h <;> rfl

namespace Field

section

variable [Host] {f : Field} {v : Json} {m : Mismatch}

/-- The value is of the kind that the field asks for: one that a leaf accepts, and otherwise an
object or a list, whatever it holds. -/
def HasKind (v : Json) : Field → Prop
  | .leaf _ l _ => l.Accepts v
  | .object _ _ _ => ∃ es, v = .obj es
  | .array _ _ _ _ => ∃ vs, v = .arr vs

/-- The mismatch is that of the first entry that is wrong: one without a property, or one that the
check of its property, or of the items, reports a mismatch for. Its path leads to the entry, and its
message is that of the entry after words that say which one it is. -/
inductive FirstWrong : Json → Field → Mismatch → Prop
  | unknown {a properties d before key w after m}
      (earlier : ∀ e ∈ before, AcceptsEntry properties e) (lacking : properties.lookup key = none)
      (path : m.path = "." ++ key) (message : m.message = "Unknown property " ++ key) :
      FirstWrong (.obj (before ++ (key, w) :: after)) (.object a properties d) m
  | property {a properties d before key w after m p own}
      (earlier : ∀ e ∈ before, AcceptsEntry properties e)
      (known : properties.lookup key = some p) (opened : p.type ≠ .object ∧ p.type ≠ .array)
      (wrong : (p.check w).outcome = .ok (some own)) (path : m.path = "." ++ key)
      (message : m.message = "Property " ++ key ++ ": " ++ own.message) :
      FirstWrong (.obj (before ++ (key, w) :: after)) (.object a properties d) m
  | item {a items count d before w after m own} (earlier : ∀ x ∈ before, items.AcceptsInside x)
      (opened : items.type ≠ .object ∧ items.type ≠ .array)
      (wrong : (items.check w).outcome = .ok (some own))
      (path : m.path = "[" ++ Number.shown before.length ++ "]")
      (message : m.message = "Item " ++ Number.shown before.length ++ ": " ++ own.message) :
      FirstWrong (.arr (before ++ w :: after)) (.array a items count d) m

/-- Inside an object or an array, only leaves report mismatches, as they do elsewhere. -/
theorem check_of_checkInner (h : (f.checkInner v).outcome = .ok (some m)) :
    (f.type ≠ .object ∧ f.type ≠ .array) ∧ (f.check v).outcome = .ok (some m) ∧ m.path = "" := by
  cases f with
  | leaf a l d =>
      refine ⟨?_, h, Leaf.path_of_check h⟩
      cases l <;> exact ⟨nofun, nofun⟩
  | _ => cases h

/-- The check of entries reports the first one that has no property or is wrong for its own. -/
theorem reached_of_checkEntries {properties : List (String × Field)} {es : List (String × Json)}
    (h : (checkEntries properties es).outcome = .ok (some m)) :
    Reached (AcceptsEntry properties)
      (fun e => properties.lookup e.1 = none ∧ m = .unknownProperty e.1 ∨
        ∃ p own, properties.lookup e.1 = some p ∧ (p.checkInner e.2).outcome = .ok (some own) ∧
          m = .property e.1 own) es := by
  induction es with
  | nil => cases h
  | cons e rest ih =>
      obtain ⟨key, w⟩ := e
      rw [reached_cons_iff]
      rw [checkEntries] at h
      cases hp : properties.lookup key with
      | none =>
          rw [hp] at h
          cases h
          exact .inl (.inl ⟨rfl, rfl⟩)
      | some p =>
          simp only [hp] at h
          obtain ⟨_ | own, hinner, h⟩ := Audit.outcome_bind_eq_ok_iff.mp h
          · exact .inr ⟨⟨p, hp, (checkInner_eq_none_iff p w).mp hinner⟩, ih h⟩
          · cases h
            exact .inl (.inr ⟨p, own, rfl, hinner, rfl⟩)

/-- The check of elements reports the first one that is wrong for the items, with its index. -/
theorem exists_item_of_checkElements {items : Field} {index : Nat} {vs : List Json}
    (h : (checkElements items index vs).outcome = .ok (some m)) :
    ∃ before w after own, vs = before ++ w :: after ∧ (∀ x ∈ before, items.AcceptsInside x) ∧
      (items.checkInner w).outcome = .ok (some own) ∧ m = .item (index + before.length) own := by
  induction vs generalizing index with
  | nil => cases h
  | cons w rest ih =>
      obtain ⟨_ | own, hinner, h⟩ := Audit.outcome_bind_eq_ok_iff.mp h
      · obtain ⟨before, x, after, own, rfl, hearlier, hx, rfl⟩ := ih h
        have hw : items.AcceptsInside w := (checkInner_eq_none_iff items w).mp hinner
        refine ⟨w :: before, x, after, own, rfl, List.forall_mem_cons.mpr ⟨hw, hearlier⟩, hx, ?_⟩
        rw [List.length_cons, Nat.add_assoc, Nat.add_comm 1]
      · cases h
        exact ⟨[], w, rest, own, rfl, nofun, hinner, rfl⟩

/-- A mismatch is that of the value itself, if this is not of the kind that the field asks for, and
else that of its first entry that is wrong. -/
theorem mismatch_of_check (h : (f.check v).outcome = .ok (some m)) :
    ¬ f.HasKind v ∧ m.path = "" ∨ f.HasKind v ∧ FirstWrong v f m := by
  cases f with
  | leaf a l d =>
      refine .inl ⟨fun haccepts => ?_, Leaf.path_of_check h⟩
      have hnone : (l.check v).outcome = .ok none := (l.check_eq_none_iff v).mpr haccepts
      cases hnone.symm.trans h
  | object a properties d =>
      cases v with
      | obj es =>
          refine .inr ⟨⟨es, rfl⟩, ?_⟩
          obtain ⟨before, ⟨key, w⟩, after, rfl, hearlier, ⟨hlacking, rfl⟩ | hwrong⟩ :=
            reached_of_checkEntries h
          · exact .unknown hearlier hlacking rfl rfl
          · obtain ⟨p, own, hp, hinner, rfl⟩ := hwrong
            obtain ⟨hopened, hcheck, hpath⟩ := check_of_checkInner hinner
            refine .property hearlier hp hopened hcheck ?_ rfl
            rw [Mismatch.path, hpath, String.append_empty]
      | _ =>
          cases h
          exact .inl ⟨nofun, rfl⟩
  | array a items count d =>
      cases v with
      | arr vs =>
          refine .inr ⟨⟨vs, rfl⟩, ?_⟩
          obtain ⟨before, w, after, own, rfl, hearlier, hinner, hm⟩ :=
            exists_item_of_checkElements h
          rw [Nat.zero_add] at hm
          subst hm
          obtain ⟨hopened, hcheck, hpath⟩ := check_of_checkInner hinner
          refine .item hearlier hopened hcheck ?_ rfl
          rw [Mismatch.path, hpath, String.append_empty]
      | _ =>
          cases h
          exact .inl ⟨nofun, rfl⟩

theorem check_ne_ok_of_stalls (h : f.Stalls v) (verdict : Option Mismatch) :
    (f.check v).outcome ≠ .ok verdict := by
  rw [check_eq_error_iff.mpr ⟨rfl, h⟩]
  nofun

/-- A check accepts exactly the values of the field, looking into entries but no further; it breaks
off exactly where it comes to a text that stalls the reading of dates; and otherwise it reports that
the value is not of the right kind, or else the first entry that is wrong. -/
theorem check_decides (f : Field) (v : Json) :
    ((f.check v).outcome = .ok none ↔ f.Accepts v) ∧
      ((∃ fault, (f.check v).outcome = .error fault) ↔ f.Stalls v) ∧
      ∀ m, (f.check v).outcome = .ok (some m) →
        ¬ f.HasKind v ∧ m.path = "" ∨ f.HasKind v ∧ FirstWrong v f m := by
  refine ⟨check_eq_none_iff f v, ?_, fun m => mismatch_of_check⟩
  simp only [check_eq_error_iff, exists_eq_left]

end

attribute [local instance] Host.standard in
/-- A text that is no date, and for which a verified field for dates gives no verdict. -/
theorem longHour_not_decided :
    let v := Json.str "99999999999999999999999999999.5 h"
    ∃ f, (verify none (.obj [("name", .str "d"), ("type", .str "date")])).outcome = .ok f ∧
      ¬ f.Accepts v ∧ ∀ verdict, (f.check v).outcome ≠ .ok verdict := by
  intro v
  obtain ⟨a, hf⟩ : ∃ a, (verify none (.obj [("name", .str "d"), ("type", .str "date")])).outcome =
      .ok (.leaf a (.date none none) none) := ⟨_, rfl⟩
  have hstalls : DateText.Stalls v := rfl
  exact ⟨_, hf, DateText.not_isDate_of_stalls hstalls, check_ne_ok_of_stalls hstalls⟩

end Field

end Formwork
