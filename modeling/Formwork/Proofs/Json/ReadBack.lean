import Formwork.Proofs.Json.Tokens

/-!
# Documents that are written and read back

A value that is written with one element on each line is read back as itself exactly if it is
regular and all its numbers are legible: the reader goes from a value that may come next to the
same value behind it, over the tokens of the value. A number that is not finite is written as a
constant, which no reader that refuses constants gets past.
-/

namespace Formwork

namespace Json

/-- Over the tokens the reader comes from one state to another, whatever follows. -/
def Leads (state state' : List Open × Phase) (ts : List Token) : Prop :=
  ∀ length placed more, placed.map Placed.token = ts ++ more →
    ∃ left, left.map Placed.token = more ∧
      run .refused length state.1 state.2 placed = run .refused length state'.1 state'.2 left

variable {state state' state'' : List Open × Phase} {t : Token} {ts us : List Token}

theorem leads_nil (state : List Open × Phase) : Leads state state [] :=
  fun _ placed _ h => ⟨placed, h, rfl⟩

theorem Leads.append (h : Leads state state' ts) (h' : Leads state' state'' us) :
    Leads state state'' (ts ++ us) := by
  intro length placed more hplaced
  rw [List.append_assoc] at hplaced
  obtain ⟨left, hleft, hrun⟩ := h length placed (us ++ more) hplaced
  obtain ⟨left', hleft', hrun'⟩ := h' length left more hleft
  exact ⟨left', hleft', hrun.trans hrun'⟩

/-- One token leads to the state that the step gives. -/
theorem Leads.step (state' : List Open × Phase)
    (hstep : ∀ position, step .refused state.1 state.2 ⟨position, t⟩ = .ok state')
    (h : Leads state' state'' ts) : Leads state state'' (t :: ts) := by
  intro length placed more hplaced
  cases placed with
  | nil => cases hplaced
  | cons p placed =>
      obtain ⟨htoken, hplaced⟩ := List.cons.inj hplaced
      obtain ⟨left, hleft, hrun⟩ := h length placed more hplaced
      refine ⟨left, hleft, ?_⟩
      obtain ⟨position, token⟩ := p
      cases htoken
      rw [run, hstep position]
      exact hrun

theorem leads_step (hstep : ∀ position, step .refused state.1 state.2 ⟨position, t⟩ = .ok state') :
    Leads state state' [t] :=
  .step state' hstep (leads_nil state')

/-- The first element of an array is read like any value, unless the array ends. -/
theorem Leads.firstElement {stack : List Open} (ht : t ≠ .endArray)
    (h : Leads (.array [] :: stack, .value) state' (t :: ts)) :
    Leads (stack, .firstElement) state' (t :: ts) := by
  intro length placed more hplaced
  cases placed with
  | nil => cases hplaced
  | cons p placed =>
      obtain ⟨left, hleft, hrun⟩ := h length (p :: placed) more hplaced
      refine ⟨left, hleft, ?_⟩
      have hp : p.token = t := (List.cons.inj hplaced).1
      have hstep : Json.step .refused stack .firstElement p =
          Json.step .refused (.array [] :: stack) .value p := by
        simp only [Json.step]
        split
        · rename_i hend
          exact absurd (hp.symm.trans hend) ht
        · rfl
      rw [← hrun]
      simp only [run, hstep]

theorem exists_tokensOf_cons (j : Json) :
    ∃ t ts, tokensOf j = t :: ts ∧ t ≠ .endArray := by
  cases j with
  | null => exact ⟨_, _, rfl, nofun⟩
  | bool b => exact ⟨_, _, rfl, nofun⟩
  | str s => exact ⟨_, _, rfl, nofun⟩
  | num n =>
      refine ⟨_, _, rfl, ?_⟩
      unfold Token.ofNumber
      split <;> nofun
  | arr js => cases js <;> exact ⟨_, _, rfl, nofun⟩
  | obj ms => cases ms <;> exact ⟨_, _, rfl, nofun⟩

theorem ofNumber_of_legible {n : Number} (h : n.Legible) : Token.ofNumber n = .scalar (.num n) := by
  unfold Token.ofNumber
  split
  · exact h.elim
  · exact h.elim
  · exact h.elim
  · rfl

/-- A key that differs from those before it comes last. -/
theorem set_eq_append {before ms : List (String × Json)} {key : String} {value : Json}
    (h : (Entries.keys (before ++ (key, value) :: ms)).Nodup) :
    Entries.set before key value = before ++ [(key, value)] := by
  apply Entries.set_of_not_mem
  intro hmem
  rw [Entries.keys, List.map_append, List.nodup_append] at h
  exact h.2.2 key hmem key List.mem_cons_self rfl

mutual

/-- The tokens of a value lead from where it may come next to behind it. -/
theorem leads_tokensOf : ∀ (j : Json) (stack : List Open), j.Regular Number.Legible →
    stack.length + j.depth ≤ openLimit → Leads (stack, .value) (stack, .after j) (tokensOf j)
  | .null, _, _, _ => leads_step fun _ => rfl
  | .bool b, _, _, _ => leads_step fun _ => rfl
  | .num n, _, hn, _ => by
      rw [tokensOf, ofNumber_of_legible (regular_num.mp hn)]
      exact leads_step fun _ => rfl
  | .str s, _, _, _ => leads_step fun _ => rfl
  | .arr [], stack, _, hdepth => by
      rw [depth] at hdepth
      have hroom : stack.length < openLimit := by omega
      exact .step (stack, .firstElement) (fun _ => if_pos hroom)
        (leads_step fun _ => rfl)
  | .arr (j :: js), stack, hj, hdepth => by
      obtain ⟨hj, hjs⟩ := List.forall_mem_cons.mp (regular_arr.mp hj)
      rw [depth, depthList] at hdepth
      have hroom : stack.length < openLimit := by omega
      obtain ⟨t, ts, htokens, ht⟩ := exists_tokensOf_cons j
      have hfirst := leads_tokensOf j (.array [] :: stack) hj (by rw [List.length_cons]; omega)
      have hrest := leads_tokensOfElements js [] j stack hjs (by omega)
      have hall := hfirst.append hrest
      rw [tokensOf]
      refine .step (stack, .firstElement) (fun _ => if_pos hroom) ?_
      rw [htokens, List.cons_append] at hall ⊢
      exact hall.firstElement ht
  | .obj [], stack, _, hdepth => by
      rw [depth] at hdepth
      have hroom : stack.length < openLimit := by omega
      exact .step (stack, .firstKey) (fun _ => if_pos hroom)
        (leads_step fun _ => rfl)
  | .obj ((key, j) :: ms), stack, hj, hdepth => by
      obtain ⟨hkeys, hj⟩ := regular_obj.mp hj
      obtain ⟨hj, hms⟩ := List.forall_mem_cons.mp hj
      rw [depth, depthMembers] at hdepth
      have hroom : stack.length < openLimit := by omega
      have hfirst := leads_tokensOf j (.object [] key :: stack) hj (by rw [List.length_cons]; omega)
      have hrest := leads_tokensOfMembers ms [] key j stack hms hkeys (by omega)
      rw [tokensOf]
      refine .step (stack, .firstKey) (fun _ => if_pos hroom) ?_
      refine .step (stack, .colon [] key) (fun _ => rfl) ?_
      refine .step (.object [] key :: stack, .value) (fun _ => rfl) ?_
      exact hfirst.append hrest

/-- Behind an element of an array, the tokens of the others lead to behind the array. -/
theorem leads_tokensOfElements : ∀ (js before : List Json) (value : Json) (stack : List Open),
    (∀ j ∈ js, j.Regular Number.Legible) → stack.length + 1 + depthList js ≤ openLimit →
      Leads (.array before :: stack, .after value)
        (stack, .after (.arr ((value :: before).reverse ++ js)))
        (tokensOfElements js ++ [.endArray])
  | [], before, value, stack, _, _ => by
      rw [List.append_nil]
      exact leads_step fun _ => rfl
  | j :: js, before, value, stack, hjs, hdepth => by
      obtain ⟨hj, hjs⟩ := List.forall_mem_cons.mp hjs
      rw [depthList] at hdepth
      have hfirst := leads_tokensOf j (.array (value :: before) :: stack) hj
        (by rw [List.length_cons]; omega)
      have hrest := leads_tokensOfElements js (value :: before) j stack hjs (by omega)
      have hreverse : (j :: value :: before).reverse ++ js =
          (value :: before).reverse ++ j :: js := by
        simp
      rw [hreverse] at hrest
      rw [tokensOfElements, List.cons_append, List.append_assoc]
      refine .step (.array (value :: before) :: stack, .value) (fun _ => rfl) ?_
      exact hfirst.append hrest

/-- Behind a member of an object, the tokens of the others lead to behind the object. -/
theorem leads_tokensOfMembers : ∀ (ms before : List (String × Json)) (key : String) (value : Json)
    (stack : List Open), (∀ m ∈ ms, m.2.Regular Number.Legible) →
      (Entries.keys (before ++ (key, value) :: ms)).Nodup →
      stack.length + 1 + depthMembers ms ≤ openLimit →
      Leads (.object before key :: stack, .after value)
        (stack, .after (.obj (before ++ (key, value) :: ms)))
        (tokensOfMembers ms ++ [.endObject])
  | [], before, key, value, stack, _, hkeys, _ => by
      have hset := set_eq_append hkeys
      apply leads_step fun _ => ?_
      rw [← hset]
      rfl
  | (k, j) :: ms, before, key, value, stack, hms, hkeys, hdepth => by
      have hset := set_eq_append hkeys
      obtain ⟨hj, hms⟩ := List.forall_mem_cons.mp hms
      rw [depthMembers] at hdepth
      have hfirst := leads_tokensOf j (.object (before ++ [(key, value)]) k :: stack) hj
        (by rw [List.length_cons]; omega)
      have happend : before ++ (key, value) :: (k, j) :: ms =
          before ++ [(key, value)] ++ (k, j) :: ms := by
        simp
      rw [happend] at hkeys ⊢
      have hrest := leads_tokensOfMembers ms (before ++ [(key, value)]) k j stack hms hkeys
        (by omega)
      rw [tokensOfMembers, List.cons_append, List.cons_append, List.cons_append,
        List.append_assoc (tokensOf j)]
      refine .step (stack, .key (Entries.set before key value)) (fun _ => rfl) ?_
      rw [hset]
      refine .step (stack, .colon (before ++ [(key, value)]) k) (fun _ => rfl) ?_
      refine .step (.object (before ++ [(key, value)]) k :: stack, .value) (fun _ => rfl) ?_
      exact hfirst.append hrest

end

mutual

/-- A value without constants among its tokens is legible as far as it can be spelled. -/
theorem legible_of_tokensOf : ∀ j : Json, j.Regular Number.Spelled →
    (∀ name, .constant name ∉ tokensOf j) → j.Regular Number.Legible
  | .null, _, _ => trivial
  | .bool b, _, _ => trivial
  | .str s, _, _ => trivial
  | .num n, hn, hconstant => by
      have hspelled := regular_num.mp hn
      rw [regular_num]
      cases n with
      | int n => exact hspelled
      | float x =>
          cases x with
          | undefined => exact hspelled rfl
          | finite negative e f => trivial
          | infinity negative =>
              cases negative with
              | false => exact hconstant .infinity List.mem_cons_self
              | true => exact hconstant .negativeInfinity List.mem_cons_self
  | .arr [], _, _ => regular_arr.mpr (by simp)
  | .arr (j :: js), hj, hconstant => by
      obtain ⟨hj, hjs⟩ := List.forall_mem_cons.mp (regular_arr.mp hj)
      simp only [tokensOf, List.mem_cons, List.mem_append, not_or, reduceCtorEq] at hconstant
      refine regular_arr.mpr (List.forall_mem_cons.mpr ⟨?_, ?_⟩)
      · exact legible_of_tokensOf j hj fun name => (hconstant name).2.1
      · exact legible_of_tokensOfElements js hjs fun name => (hconstant name).2.2.1
  | .obj [], hj, _ => regular_obj.mpr ⟨(regular_obj.mp hj).1, by simp⟩
  | .obj ((key, j) :: ms), hj, hconstant => by
      obtain ⟨hkeys, hj⟩ := regular_obj.mp hj
      obtain ⟨hj, hms⟩ := List.forall_mem_cons.mp hj
      simp only [tokensOf, List.mem_cons, List.mem_append, not_or, reduceCtorEq] at hconstant
      refine regular_obj.mpr ⟨hkeys, List.forall_mem_cons.mpr ⟨?_, ?_⟩⟩
      · exact legible_of_tokensOf j hj fun name => (hconstant name).2.2.2.1
      · exact legible_of_tokensOfMembers ms hms fun name => (hconstant name).2.2.2.2.1

theorem legible_of_tokensOfElements : ∀ js : List Json, (∀ j ∈ js, j.Regular Number.Spelled) →
    (∀ name, .constant name ∉ tokensOfElements js) → ∀ j ∈ js, j.Regular Number.Legible
  | [], _, _ => by simp
  | j :: js, hjs, hconstant => by
      obtain ⟨hj, hjs⟩ := List.forall_mem_cons.mp hjs
      simp only [tokensOfElements, List.mem_cons, List.mem_append, not_or,
        reduceCtorEq] at hconstant
      refine List.forall_mem_cons.mpr ⟨?_, ?_⟩
      · exact legible_of_tokensOf j hj fun name => (hconstant name).2.1
      · exact legible_of_tokensOfElements js hjs fun name => (hconstant name).2.2

theorem legible_of_tokensOfMembers : ∀ ms : List (String × Json),
    (∀ m ∈ ms, m.2.Regular Number.Spelled) → (∀ name, .constant name ∉ tokensOfMembers ms) →
      ∀ m ∈ ms, m.2.Regular Number.Legible
  | [], _, _ => by simp
  | (key, j) :: ms, hms, hconstant => by
      obtain ⟨hj, hms⟩ := List.forall_mem_cons.mp hms
      simp only [tokensOfMembers, List.mem_cons, List.mem_append, not_or, reduceCtorEq] at hconstant
      refine List.forall_mem_cons.mpr ⟨?_, ?_⟩
      · exact legible_of_tokensOf j hj fun name => (hconstant name).2.2.2.1
      · exact legible_of_tokensOfMembers ms hms fun name => (hconstant name).2.2.2.2

end

/-- No step goes over a constant that is refused. -/
theorem step_constant_ne_ok (stack : List Open) (phase : Phase) (position : Nat) (name : Constant)
    (next : List Open × Phase) :
    step .refused stack phase ⟨position, .constant name⟩ ≠ .ok next := by
  cases phase with
  | after value =>
      cases stack with
      | nil => nofun
      | cons o stack => cases o <;> nofun
  | _ => nofun

/-- A reader that refuses constants ends only where there are none. -/
theorem constant_not_mem_of_run {length : Nat} {stack : List Open} {phase : Phase}
    {placed : List Placed} {j : Json} (h : run .refused length stack phase placed = .ok j) :
    ∀ name, .constant name ∉ placed.map Placed.token := by
  intro name
  induction placed generalizing stack phase with
  | nil => simp
  | cons p placed ih =>
      rw [run, bind_eq_ok_iff] at h
      obtain ⟨next, hstep, h⟩ := h
      rw [List.map_cons, List.mem_cons, not_or]
      refine ⟨fun heq => ?_, ih h⟩
      obtain ⟨position, token⟩ := p
      cases heq
      exact step_constant_ne_ok stack phase position name next hstep

/-- What is written is cut into the tokens of the value. -/
theorem map_token_tokens {j : Json} (h : j.Regular Number.Spelled) :
    (tokens (print indented 0 j)).map Placed.token = tokensOf j := by
  have hlexes : Lexes (print indented 0 j ++ []) (tokensOf j ++ []) :=
    lexes_print j 0 h (by nofun) lexes_nil
  rw [List.append_nil, List.append_nil] at hlexes
  exact hlexes _ _ (Nat.le_refl _)

theorem readChars_print {j : Json} (h : j.Regular Number.Legible) (hdepth : j.depth ≤ openLimit) :
    readChars .refused (print indented 0 j) = .ok j := by
  have htokens := map_token_tokens (h.mono fun n hn => hn.spelled)
  obtain ⟨left, hleft, hrun⟩ := leads_tokensOf j [] h (by rw [List.length_nil]; omega)
    (print indented 0 j).length (tokens (print indented 0 j)) [] (by rw [htokens, List.append_nil])
  rw [List.map_eq_nil_iff] at hleft
  rw [readChars, hrun, hleft]
  rfl

end Json

/-- A text that was rendered is read from the characters that were printed. -/
theorem Source.load_render_eq_ok_iff {v document : Json} :
    (Source.text (v.render Json.indented)).load = .ok document ↔
      Json.read .refused (Json.print Json.indented 0 v) = .ok document := by
  have hchars : (v.render Json.indented).toList = Json.print Json.indented 0 v := by
    simp [Json.render]
  rw [load, mapError_eq_ok_iff, hchars]

/-- An object that is written and read again is the same one exactly if it is regular and all its
numbers are legible. -/
theorem Source.load_render_iff {ms : List (String × Json)}
    (hdepth : (Json.obj ms).depth ≤ Json.openLimit) :
    (Source.text ((Json.obj ms).render Json.indented)).load = .ok (.obj ms) ↔
      (Json.obj ms).Regular Number.Legible := by
  have hmark : (Json.print Json.indented 0 (.obj ms)).head? ≠ some Json.byteOrderMark := by
    cases ms <;> simp [Json.print, Json.byteOrderMark]
  have hload : (Source.text ((Json.obj ms).render Json.indented)).load = .ok (.obj ms) ↔
      Json.readChars .refused (Json.print Json.indented 0 (.obj ms)) = .ok (.obj ms) := by
    rw [load_render_eq_ok_iff, Json.read, if_neg hmark]
  constructor
  · intro h
    have hspelled := regular_load h
    have hconstant := Json.constant_not_mem_of_run (hload.mp h)
    rw [Json.map_token_tokens hspelled] at hconstant
    exact Json.legible_of_tokensOf _ hspelled hconstant
  · intro h
    exact hload.mpr (Json.readChars_print h hdepth)

end Formwork
