import Formwork.Proofs.Description.Edits

/-!
# Values in another order

A value whose members are put in another order, at any depth, is the same for all that looks at it
when a document is verified: scalars are not changed at all, lists keep their elements one by one,
and objects keep their entries. So it nests as deeply as before, and is accepted where it was.
-/

namespace Formwork

namespace Json

/-- The value is neither a list nor an object. -/
def IsScalar : Json → Prop
  | .arr _ | .obj _ => False
  | _ => True

/-- The values are the same scalar, lists with related elements, or objects with related entries in
any order. -/
def Matches (R : Json → Json → Prop) : Json → Json → Prop
  | .arr vs, .arr vs' => List.Forall₂ R vs vs'
  | .obj es, .obj es' => (∀ e ∈ es, ∃ e' ∈ es', e.1 = e'.1 ∧ R e.2 e'.2) ∧
      ∀ e' ∈ es', ∃ e ∈ es, e.1 = e'.1 ∧ R e.2 e'.2
  | v, v' => v = v'

variable {R : Json → Json → Prop} {u v w : Json}

theorem matches_scalar (hv : v.IsScalar) : Matches R v w ↔ w = v := by
  cases v with
  | arr vs => exact hv.elim
  | obj es => exact hv.elim
  | _ => cases w <;> exact eq_comm

theorem matches_arr {vs : List Json} :
    Matches R (.arr vs) w ↔ ∃ vs', w = .arr vs' ∧ List.Forall₂ R vs vs' := by
  cases w <;> simp [Matches]

theorem matches_obj {es : List (String × Json)} :
    Matches R (.obj es) w ↔ ∃ es', w = .obj es' ∧
      (∀ e ∈ es, ∃ e' ∈ es', e.1 = e'.1 ∧ R e.2 e'.2) ∧
      ∀ e' ∈ es', ∃ e ∈ es, e.1 = e'.1 ∧ R e.2 e'.2 := by
  cases w <;> simp [Matches]

theorem matches_refl (hR : ∀ v, R v v) (v : Json) : Matches R v v := by
  cases v with
  | arr vs => exact List.forall₂_same.mpr fun v _ => hR v
  | obj es => exact ⟨fun e he => ⟨e, he, rfl, hR _⟩, fun e he => ⟨e, he, rfl, hR _⟩⟩
  | _ => rfl

theorem Matches.symm (hR : ∀ v w, R v w → R w v) (h : Matches R v w) : Matches R w v := by
  cases v with
  | arr vs =>
      obtain ⟨vs', rfl, hall⟩ := matches_arr.mp h
      exact List.Forall₂.flip (hall.imp hR)
  | obj es =>
      obtain ⟨es', rfl, hleft, hright⟩ := matches_obj.mp h
      constructor
      · intro e he
        obtain ⟨e', he', hkey, hvalue⟩ := hright e he
        exact ⟨e', he', hkey.symm, hR _ _ hvalue⟩
      · intro e he
        obtain ⟨e', he', hkey, hvalue⟩ := hleft e he
        exact ⟨e', he', hkey.symm, hR _ _ hvalue⟩
  | _ =>
      rw [(matches_scalar (by exact trivial)).mp h]
      rfl

theorem Matches.trans (hR : ∀ u v w, R u v → R v w → R u w) (h : Matches R u v)
    (h' : Matches R v w) : Matches R u w := by
  cases u with
  | arr us =>
      obtain ⟨vs, rfl, hall⟩ := matches_arr.mp h
      obtain ⟨ws, rfl, hall'⟩ := matches_arr.mp h'
      exact forall₂_trans hR hall hall'
  | obj es =>
      obtain ⟨es', rfl, hleft, hright⟩ := matches_obj.mp h
      obtain ⟨es'', rfl, hleft', hright'⟩ := matches_obj.mp h'
      constructor
      · intro e he
        obtain ⟨e', he', hkey, hvalue⟩ := hleft e he
        obtain ⟨e'', he'', hkey', hvalue'⟩ := hleft' e' he'
        exact ⟨e'', he'', hkey.trans hkey', hR _ _ _ hvalue hvalue'⟩
      · intro e'' he''
        obtain ⟨e', he', hkey', hvalue'⟩ := hright' e'' he''
        obtain ⟨e, he, hkey, hvalue⟩ := hright e' he'
        exact ⟨e, he, hkey.trans hkey', hR _ _ _ hvalue hvalue'⟩
  | _ => rwa [(matches_scalar (by exact trivial)).mp h] at h'

end Json

open Json (Matches)

namespace Description

/-- The members of the value and of all that lies in it are put in another order. -/
def Reordered : Json → Json → Prop :=
  Relation.EqvGen (Edit .value)

namespace Reordered

variable {v v' : Json}

theorem refl (v : Json) : Reordered v v :=
  Relation.EqvGen.refl v

theorem symm (h : Reordered v v') : Reordered v' v :=
  Relation.EqvGen.symm _ _ h

/-- One edit of a value changes at most one element or entry. -/
theorem matches_of_edit (h : Edit .value v v') : Matches Reordered v v' := by
  cases h with
  | order perm =>
      constructor
      · intro e he
        exact ⟨e, perm.mem_iff.mp he, rfl, refl _⟩
      · intro e he
        exact ⟨e, perm.mem_iff.mpr he, rfl, refl _⟩
  | unread unread => cases unread
  | @member _ before after key v v' edit =>
      have hedit : Reordered v v' := Relation.EqvGen.rel _ _ edit
      constructor
      · intro e he
        rcases List.mem_append.mp he with he | he
        · exact ⟨e, List.mem_append_left _ he, rfl, refl _⟩
        · rcases List.mem_cons.mp he with rfl | he
          · exact ⟨(key, v'), by simp, rfl, hedit⟩
          · exact ⟨e, by simp [he], rfl, refl _⟩
      · intro e he
        rcases List.mem_append.mp he with he | he
        · exact ⟨e, List.mem_append_left _ he, rfl, refl _⟩
        · rcases List.mem_cons.mp he with rfl | he
          · exact ⟨(key, v), by simp, rfl, hedit⟩
          · exact ⟨e, by simp [he], rfl, refl _⟩
  | element edit =>
      have hrefl : ∀ vs, List.Forall₂ Reordered vs vs := fun vs =>
        List.forall₂_same.mpr fun v _ => refl v
      exact List.rel_append (hrefl _) (.cons (Relation.EqvGen.rel _ _ edit) (hrefl _))

/-- Values in another order match, one level after another. -/
theorem matches_of (h : Reordered v v') : Matches Reordered v v' := by
  induction h with
  | rel v v' edit => exact matches_of_edit edit
  | refl v => exact Json.matches_refl refl v
  | symm v v' _ ih => exact ih.symm fun _ _ h => h.symm
  | trans u v w _ _ ih ih' => exact ih.trans Relation.EqvGen.trans ih'

theorem eq_of_scalar (h : Reordered v v') (hv : v.IsScalar) : v' = v :=
  (Json.matches_scalar hv).mp h.matches_of

theorem arr {vs : List Json} (h : Reordered (.arr vs) v') :
    ∃ vs', v' = .arr vs' ∧ List.Forall₂ Reordered vs vs' :=
  Json.matches_arr.mp h.matches_of

theorem obj {es : List (String × Json)} (h : Reordered (.obj es) v') :
    ∃ es', v' = .obj es' ∧ ∀ e' ∈ es', ∃ e ∈ es, e.1 = e'.1 ∧ Reordered e.2 e'.2 := by
  obtain ⟨es', rfl, -, hright⟩ := Json.matches_obj.mp h.matches_of
  exact ⟨es', rfl, hright⟩

/-- What holds of all elements of a list holds of them in another order. -/
theorem forall_mem {P Q : Json → Prop} {vs vs' : List Json} (h : List.Forall₂ Reordered vs vs')
    (hPQ : ∀ v v', Reordered v v' → P v → Q v') (hvs : ∀ v ∈ vs, P v) : ∀ v' ∈ vs', Q v' := by
  intro v' hv'
  obtain ⟨v, hv, hvalue⟩ := exists_left_of_mem h v' hv'
  exact hPQ v v' hvalue (hvs v hv)

theorem height_le {limit : Nat} (h : Reordered v v') (hv : v.height ≤ limit) :
    v'.height ≤ limit := by
  induction limit generalizing v v' with
  | zero => exact absurd v.height_pos (Nat.not_lt.mpr hv)
  | succ limit ih =>
      cases v with
      | arr vs =>
          obtain ⟨vs', rfl, hall⟩ := h.arr
          rw [Json.height_arr_le_iff] at hv ⊢
          exact forall_mem hall (fun _ _ => ih) hv
      | obj es =>
          obtain ⟨es', rfl, hall⟩ := h.obj
          rw [Json.height_obj_le_iff] at hv ⊢
          intro e' he'
          obtain ⟨e, he, -, hvalue⟩ := hall e' he'
          exact ih hvalue (hv e he)
      | _ => rwa [h.eq_of_scalar trivial]

/-- A copy of a value in another order takes as many open calls. -/
theorem height_eq (h : Reordered v v') : v.height = v'.height :=
  Nat.le_antisymm (h.symm.height_le (Nat.le_refl _)) (h.height_le (Nat.le_refl _))

/-- An offered value is a scalar. -/
theorem offered {options : List Choice} (h : Reordered v v') (hv : Choice.Offered options v) :
    Choice.Offered options v' := by
  have hscalar : v.IsScalar := by
    obtain ⟨c, -, ⟨s, -, rfl⟩ | ⟨x, y, p, -, rfl, -⟩⟩ := hv <;> trivial
  rwa [h.eq_of_scalar hscalar]

variable [Host]

/-- A leaf accepts a value in any order. -/
theorem accepts_leaf {l : Leaf} (h : Reordered v v') (hv : l.Accepts v) : l.Accepts v' := by
  have hsame : v.IsScalar → l.Accepts v' := fun hscalar => by rwa [h.eq_of_scalar hscalar]
  cases l with
  | string | longtext | json =>
      obtain ⟨s, rfl⟩ := hv
      exact hsame trivial
  | number =>
      obtain ⟨x, rfl⟩ := hv
      exact hsame trivial
  | checkbox =>
      obtain ⟨b, rfl⟩ := hv
      exact hsame trivial
  | date format showTime =>
      obtain ⟨d, hd⟩ := hv
      cases v with
      | str s => exact hsame trivial
      | _ => cases hd
  | radio options => exact h.offered hv
  | select options mode =>
      cases mode with
      | none => exact h.offered hv
      | some mode =>
          obtain ⟨vs, rfl, hall⟩ := hv
          obtain ⟨vs', rfl, hvs⟩ := h.arr
          exact ⟨vs', rfl, forall_mem hvs (fun _ _ => offered) hall⟩
  | upload =>
      obtain ⟨vs, rfl⟩ := hv
      obtain ⟨vs', rfl, -⟩ := h.arr
      exact ⟨vs', rfl⟩

/-- A default of a leaf is one in any order. -/
theorem leafDefault {l : Leaf} (h : Reordered v v') (hv : LeafDefault l v) : LeafDefault l v' := by
  refine ⟨h.accepts_leaf hv.1, ?_⟩
  cases l with
  | number =>
      obtain ⟨⟨x, rfl⟩, hbounds⟩ := hv
      rwa [h.eq_of_scalar trivial]
  | _ => trivial

end Reordered

end Description

end Formwork
