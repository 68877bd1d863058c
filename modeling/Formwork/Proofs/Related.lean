import Formwork.Entries
import Mathlib.Data.List.Forall2

/-!
# Lists whose elements are related

Two lists are related if their elements are, one by one. What is known of the elements of one list
is known of the elements that they are related to, and one element can be replaced alone.
-/

namespace Formwork

variable {α β γ : Type} {R : α → β → Prop} {xs : List α} {ys : List β}

theorem exists_left_of_mem (h : List.Forall₂ R xs ys) : ∀ y ∈ ys, ∃ x ∈ xs, R x y := by
  induction h with
  | nil => simp
  | cons hxy _ ih =>
      refine List.forall_mem_cons.mpr ⟨⟨_, List.mem_cons_self, hxy⟩, fun y hy => ?_⟩
      obtain ⟨x, hx, hR⟩ := ih y hy
      exact ⟨x, List.mem_cons_of_mem _ hx, hR⟩

theorem exists_right_of_mem (h : List.Forall₂ R xs ys) : ∀ x ∈ xs, ∃ y ∈ ys, R x y :=
  exists_left_of_mem h.flip

theorem exists_forall₂ (h : ∀ x ∈ xs, ∃ y, R x y) : ∃ ys, List.Forall₂ R xs ys := by
  induction xs with
  | nil => exact ⟨[], .nil⟩
  | cons x rest ih =>
      obtain ⟨⟨y, hy⟩, hrest⟩ := List.forall_mem_cons.mp h
      obtain ⟨ys, hys⟩ := ih hrest
      exact ⟨y :: ys, .cons hy hys⟩

theorem forall₂_trans {S : β → γ → Prop} {T : α → γ → Prop} {zs : List γ}
    (hRST : ∀ x y z, R x y → S y z → T x z) (h : List.Forall₂ R xs ys)
    (h' : List.Forall₂ S ys zs) : List.Forall₂ T xs zs := by
  induction h generalizing zs with
  | nil => rw [List.forall₂_nil_left_iff.mp h']; exact .nil
  | cons hxy _ ih =>
      obtain ⟨z, zs, hyz, hrest, rfl⟩ := List.forall₂_cons_left_iff.mp h'
      exact .cons (hRST _ _ _ hxy hyz) (ih hrest)

/-- If one element is replaced, only what is related to it has to be. -/
theorem forall₂_replace {S : β → β → Prop} (hS : ∀ y, S y y) {before after : List α} {x x' : α}
    (hx : ∀ y, R x y → ∃ y', R x' y' ∧ S y y') (h : List.Forall₂ R (before ++ x :: after) ys) :
    ∃ ys', List.Forall₂ R (before ++ x' :: after) ys' ∧ List.Forall₂ S ys ys' := by
  induction before generalizing ys with
  | nil =>
      obtain ⟨y, rest, hy, hrest, rfl⟩ := List.forall₂_cons_left_iff.mp h
      obtain ⟨y', hy', hyy⟩ := hx y hy
      exact ⟨y' :: rest, .cons hy' hrest, .cons hyy (List.forall₂_same.mpr fun y _ => hS y)⟩
  | cons b before ih =>
      obtain ⟨y, rest, hy, hrest, rfl⟩ := List.forall₂_cons_left_iff.mp h
      obtain ⟨ys', hys', hall⟩ := ih hrest
      exact ⟨y :: ys', .cons hy hys', .cons (hS y) hall⟩

/-- What is gathered from related lists is related if what comes from related elements is. -/
theorem forall₂_flatMap_flatMap {δ : Type} {S : γ → δ → Prop} {f : α → List γ} {g : β → List δ}
    (h : List.Forall₂ R xs ys) (hfg : ∀ x, ∀ y ∈ ys, R x y → List.Forall₂ S (f x) (g y)) :
    List.Forall₂ S (xs.flatMap f) (ys.flatMap g) := by
  induction h with
  | nil => exact .nil
  | cons hxy _ ih =>
      rw [List.flatMap_cons, List.flatMap_cons]
      exact List.rel_append (hfg _ _ List.mem_cons_self hxy)
        (ih fun x y hy => hfg x y (List.mem_cons_of_mem _ hy))

/-- What is gathered from one list in two ways is related if what comes from each element is. -/
theorem forall₂_flatMap {f : γ → List α} {g : γ → List β} {zs : List γ}
    (h : ∀ z ∈ zs, List.Forall₂ R (f z) (g z)) :
    List.Forall₂ R (zs.flatMap f) (zs.flatMap g) := by
  refine forall₂_flatMap_flatMap (List.forall₂_same.mpr fun z _ => @rfl _ z) ?_
  rintro z _ hz rfl
  exact h z hz

/-- Related lists are filtered to the same list if what comes from related elements is the same. -/
theorem filterMap_congr_of_forall₂ {f : α → Option γ} {g : β → Option γ}
    (h : List.Forall₂ R xs ys) (hfg : ∀ x y, R x y → f x = g y) :
    xs.filterMap f = ys.filterMap g := by
  induction h with
  | nil => rfl
  | cons hxy _ ih => rw [List.filterMap_cons, List.filterMap_cons, hfg _ _ hxy, ih]

/-- Entries have the same keys, and values at the same place are related, exactly if they are so
one by one. -/
theorem keys_zip_iff_forall₂ {es : List (String × α)} {fs : List (String × β)} :
    (Entries.keys es = Entries.keys fs ∧ ∀ p ∈ es.zip fs, R p.1.2 p.2.2) ↔
      List.Forall₂ (fun e f => e.1 = f.1 ∧ R e.2 f.2) es fs := by
  induction es generalizing fs with
  | nil => cases fs <;> simp [Entries.keys]
  | cons e es ih =>
      cases fs with
      | nil => simp [Entries.keys]
      | cons f fs =>
          simp only [Entries.keys, List.map_cons, List.cons.injEq, List.zip_cons_cons,
            List.forall_mem_cons, List.forall₂_cons] at ih ⊢
          rw [← ih]
          constructor
          · rintro ⟨⟨hkey, hkeys⟩, hR, hall⟩
            exact ⟨⟨hkey, hR⟩, hkeys, hall⟩
          · rintro ⟨⟨hkey, hR⟩, hkeys, hall⟩
            exact ⟨⟨hkey, hkeys⟩, hR, hall⟩

end Formwork
