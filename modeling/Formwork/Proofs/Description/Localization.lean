import Formwork.Proofs.Description.Blame
import Formwork.Proofs.Value.Stalls

/-!
# Where a description fails

A failure of a description comes from the description itself or from one that lies in it. It is
passed on level by level, and each level puts its words before the message and leaves the path as it
is. So a failure tells the way to the description that fails by itself, along which everything that
is verified before was accepted.

## Main results

* `verify_localized`: the way to the description that fails, and the path and the message that a
  failure has from it.
-/

namespace Formwork

namespace Field

variable [Host]

/-- Verifies a description at a level. -/
def verifyAt (level : Nat) (path : Option String) (n : Json) : Audit Stop Field :=
  verifyBelow (nestingLimit + 1 - level) path n

theorem verifyAt_eq_verifyNode {level : Nat} (h : level ≤ 32) (path : Option String) (n : Json) :
    verifyAt level path n =
      verifyNode level (fun path n => verifyAt (level + 1) (some path) n) path n := by
  have hlevels : nestingLimit + 1 - level = nestingLimit + 1 - (level + 1) + 1 := by
    unfold nestingLimit
    omega
  have htop : level + (nestingLimit + 1 - (level + 1) + 1) = nestingLimit + 1 := by
    unfold nestingLimit
    omega
  rw [verifyAt, hlevels, verifyBelow_succ htop]
  rfl

theorem verifyAt_eq_ok_iff {level : Nat} (h : level ≤ 33) {path : Option String} {n : Json}
    {f : Field} : (verifyAt level path n).outcome = .ok f ↔
      Description.Describes level n f ∧ f.Copyable level :=
  verifyBelow_eq_ok_iff (by unfold nestingLimit; omega)

/-- One level below, too, a description is accepted exactly if it describes a field. -/
theorem verifyAt_succ_eq_ok_iff {level : Nat} (h : level ≤ 32) (path : String) (n : Json)
    (f : Field) : (verifyAt (level + 1) (some path) n).outcome = .ok f ↔
      Description.Describes (level + 1) n f ∧ f.Copyable (level + 1) :=
  verifyAt_eq_ok_iff (Nat.succ_le_succ h)

end Field

namespace Description

open Formwork.Field (verifyAt)

variable [Host]

/-- The description is accepted at the level. -/
def Accepted (level : Nat) (n : Json) : Prop :=
  ∃ f, (verifyAt level none n).outcome = .ok f

theorem accepted_iff {level : Nat} (h : level ≤ 33) {n : Json} :
    Accepted level n ↔ ∃ f, Describes level n f ∧ f.Copyable level := by
  simp only [Accepted, Field.verifyAt_eq_ok_iff h]

/-- A description that is not accepted is refused, at any path. -/
theorem exists_error_of_not_accepted {level : Nat} (h : level ≤ 33) {n : Json}
    (hn : ¬ Accepted level n) (path : Option String) :
    ∃ stop, (verifyAt level path n).outcome = .error stop := by
  cases houtcome : (verifyAt level path n).outcome with
  | ok f => exact absurd ⟨f, (Field.verifyAt_eq_ok_iff h).mp houtcome⟩ ((accepted_iff h).not.mp hn)
  | error stop => exact ⟨stop, rfl⟩

/-- Verification comes from a description at a level to one that lies directly in it: to the items
of an array, or to a property of an object after those before it are accepted. -/
inductive Reaches (level : Nat) : Json → Enclosure → Json → Prop
  | items {ms a inside} (bound : level ≤ 32) (attributes : AttributesOf ms .array a)
      (element : Entries.get? ms "items" = some (.obj inside))
      (flat : Entries.get? inside "type" ≠ some (.str FieldType.array.name)) :
      Reaches level (.obj ms) (.items a.name) (.obj inside)
  | property {ms a before key node after} (bound : level ≤ 32)
      (attributes : AttributesOf ms .object a)
      (element : Entries.get? ms "properties" = some (.obj (before ++ (key, node) :: after)))
      (earlier : ∀ e ∈ before, e.1 ≠ "" ∧ Accepted (level + 1) e.2) (named : key ≠ "") :
      Reaches level (.obj ms) (.property key a.name) node

/-- Verification comes from a description at a level to another one, level by level. -/
inductive Leads : Nat → Json → List Enclosure → Json → Prop
  | here {level n} : Leads level n [] n
  | step {level n enclosure m way last} (first : Reaches level n enclosure m)
      (rest : Leads (level + 1) m way last) : Leads level n (enclosure :: way) last

/-- The description fails at the level, and whatever verification comes to directly in it is
accepted. -/
structure FailsItself (level : Nat) (path : String) (n : Json) (own : Failure) : Prop where
  fails : (verifyAt level (some path) n).outcome = .error (.failure own)
  inner : ∀ enclosure m, Reaches level n enclosure m → Accepted (level + 1) m

/-- The failure is that of the description at the path: by a flaw of its own, which names the field
if it has a name and lies in a default only if there is one, or since it lies too deep. -/
inductive IsOwn (path : String) (n : Json) : Failure → Prop
  | nesting : IsOwn path n (.shape .nesting (some path))
  | flaw {owner flaw}
      (named : ∀ ms name, n = .obj ms → Field.nameOf? ms = some name →
        owner = name ∧ flaw.isNameless = false)
      (inDefault : flaw.isInDefault = true →
        ∃ ms, n = .obj ms ∧ (Entries.get? ms "defaultValue").isSome = true) :
      IsOwn path n (Field.ownFailure path owner flaw)

end Description

/-- What a path goes on with below a field. -/
def Enclosure.key : Enclosure → String
  | .items _ => "items"
  | .property key _ => key

/-- The path that goes on from another one along a way. -/
def along (path : String) (way : List Enclosure) : String :=
  way.foldl (fun path enclosure => path ++ "." ++ enclosure.key) path

/-- The failure as the fields along a way pass it on. -/
def Failure.enclosed (way : List Enclosure) : Failure → Failure
  | .field f => .field { f with chain := way ++ f.chain }
  | e => e

namespace Field

open Description Checked

variable {child : String → Json → Audit Stop Field} {inner : Json → Field → Prop}
  {path name : String} {ms : Members} {a : Attributes}

/-- The properties are refused at the first one that has no key or is refused itself. -/
theorem propertiesOf_eq_error_iff
    (hchild : ∀ path n f, (child path n).outcome = .ok f ↔ inner n f)
    {nodes : List (String × Json)} {stop : Stop} :
    (propertiesOf child path name nodes).outcome = .error stop ↔
      Reached (fun e => e.1 ≠ "" ∧ ∃ f, inner e.2 f)
        (fun e => e.1 = "" ∧ stop = .failure (ownFailure path name .emptyKey) ∨
          e.1 ≠ "" ∧ ∃ stop', (child (joinPath path e.1) e.2).outcome = .error stop' ∧
            stop'.within (.property e.1 name) = stop) nodes := by
  induction nodes with
  | nil => simp [propertiesOf]
  | cons e rest ih =>
      obtain ⟨key, n⟩ := e
      rw [reached_cons_iff, ← ih, propertiesOf]
      by_cases hkey : key = ""
      · simp [hkey, ownFailure, eq_comm]
      · rw [if_neg hkey]
        simp only [Audit.outcome_bind_eq_error_iff, Audit.outcome_mapError, mapError_eq_error_iff,
          mapError_eq_ok_iff, hchild, Audit.outcome_pure, reduceCtorEq, and_false, exists_false,
          or_false, ne_eq, hkey, not_false_eq_true, true_and, false_and, false_or,
          exists_and_right]

variable [Host] {level : Nat}

/-- What the items are refused for is passed on. -/
theorem arrayOf_of_items {inside : Members} {stop : Stop}
    (hinside : Entries.get? ms "items" = some (.obj inside))
    (hflat : Entries.get? inside "type" ≠ some (.str FieldType.array.name))
    (h : (child (joinPath path "items") (.obj inside)).outcome = .error stop) :
    (arrayOf level child path name ms a).outcome = .error (stop.within (.items name)) := by
  unfold arrayOf
  rw [hinside]
  dsimp only
  rw [if_neg hflat, Audit.outcome_bind_eq_error_iff, Audit.outcome_mapError, h]
  exact .inl rfl

/-- An array fails at its items or by a flaw of its own. -/
theorem arrayOf_eq_failure {e : Failure}
    (h : (arrayOf level child path name ms a).outcome = .error (.failure e)) :
    (∃ inside stop, Entries.get? ms "items" = some (.obj inside) ∧
      Entries.get? inside "type" ≠ some (.str FieldType.array.name) ∧
      (child (joinPath path "items") (.obj inside)).outcome = .error stop) ∨
    ∃ flaw, OwnFlaw ms flaw ∧ e = ownFailure path name flaw := by
  have hP := compositional_blames ms path name
  unfold arrayOf at h
  split at h
  · rename_i inside hinside
    by_cases hflat : Entries.get? inside "type" = some (.str FieldType.array.name)
    · rw [if_pos hflat] at h
      exact .inr (hP.refuse (.of_outright ⟨rfl, rfl⟩) e h)
    · rw [if_neg hflat] at h
      rcases Audit.outcome_bind_eq_error_iff.mp h with h | ⟨items, -, h⟩
      · obtain ⟨stop, hstop, -⟩ := mapError_eq_error_iff.mp h
        exact .inl ⟨inside, stop, hinside, hflat, hstop⟩
      · refine .inr (hP.bind (hP.checked (blames_bounds _ _ _)) (fun count => ?_) e h)
        exact hP.bind (hP.arrayDefault items count) fun _ => hP.store _ _
  · exact .inr (hP.refuse (.of_outright ⟨rfl, rfl⟩) e h)

/-- What a property is refused for is passed on, if those before it are accepted. -/
theorem objectOf_of_property (hchild : ∀ path n f, (child path n).outcome = .ok f ↔ inner n f)
    {before after : Members} {key : String} {n : Json} {stop : Stop}
    (hnodes : Entries.get? ms "properties" = some (.obj (before ++ (key, n) :: after)))
    (hearlier : ∀ e ∈ before, e.1 ≠ "" ∧ ∃ f, inner e.2 f) (hkey : key ≠ "")
    (h : (child (joinPath path key) n).outcome = .error stop) :
    (objectOf level child path name ms a).outcome = .error (stop.within (.property key name)) := by
  unfold objectOf
  rw [hnodes]
  dsimp only
  rw [Audit.outcome_bind_eq_error_iff, propertiesOf_eq_error_iff hchild]
  exact .inl ⟨before, (key, n), after, rfl, hearlier, .inr ⟨hkey, stop, h, rfl⟩⟩

/-- An object fails at a property after others that are accepted, or by a flaw of its own. -/
theorem objectOf_eq_failure (hchild : ∀ path n f, (child path n).outcome = .ok f ↔ inner n f)
    {e : Failure} (h : (objectOf level child path name ms a).outcome = .error (.failure e)) :
    (∃ before key n after stop,
      Entries.get? ms "properties" = some (.obj (before ++ (key, n) :: after)) ∧
      (∀ e ∈ before, e.1 ≠ "" ∧ ∃ f, inner e.2 f) ∧ key ≠ "" ∧
      (child (joinPath path key) n).outcome = .error stop) ∨
    ∃ flaw, OwnFlaw ms flaw ∧ e = ownFailure path name flaw := by
  have hP := compositional_blames ms path name
  unfold objectOf at h
  split at h
  · rename_i nodes hnodes
    rcases Audit.outcome_bind_eq_error_iff.mp h with h | ⟨properties, -, h⟩
    · obtain ⟨before, ⟨key, n⟩, after, rfl, hearlier, h | h⟩ :=
        (propertiesOf_eq_error_iff hchild).mp h
      · obtain ⟨-, h⟩ := h
        exact .inr ⟨.emptyKey, .of_outright ⟨rfl, rfl⟩, Stop.failure.inj h⟩
      · obtain ⟨hkey, stop, hstop, -⟩ := h
        exact .inl ⟨before, key, n, after, stop, hnodes, hearlier, hkey, hstop⟩
    · have hstore := hP.store level (.object a properties (authoredDefault ms))
      right
      cases hdefault : authoredDefault ms with
      | none =>
          rw [hdefault] at h hstore
          exact hstore e h
      | some v =>
          rw [hdefault] at h hstore
          have hsome : (Entries.get? ms "defaultValue").isSome = true :=
            Option.isSome_iff_exists.mpr ⟨v, hdefault⟩
          cases v with
          | obj es => exact hP.bind (hP.defaultEntries hsome properties es) (fun _ => hstore) e h
          | _ => exact hP.bind (hP.refuse (.of_outright ⟨rfl, rfl⟩)) (fun _ => hstore) e h
  · exact .inr (hP.refuse (.of_outright ⟨rfl, rfl⟩) e h)

omit [Host] in
theorem ownFailure_of_no_suffix {flaw : Flaw} (h : flaw.isInDefault = false) :
    ownFailure path name flaw = .field ⟨some path, [], name, flaw⟩ := by
  rw [ownFailure, Flaw.suffix_of_not_isInDefault h, String.append_empty]

omit [Host] in
/-- A flaw of a description without a name is its own. -/
theorem isOwn_of_nameless {n : Json} (hn : ∀ ms, n = .obj ms → nameOf? ms = none) {flaw : Flaw}
    (h : flaw.isInDefault = false) : IsOwn path n (.field ⟨some path, [], "", flaw⟩) := by
  rw [← ownFailure_of_no_suffix h]
  refine .flaw (fun ms name hms hname => ?_) fun hdefault => ?_
  · rw [hn ms hms] at hname
    cases hname
  · rw [h] at hdefault
    cases hdefault

omit [Host] in
/-- A flaw that a named description is blamed for is its own. -/
theorem isOwn_of_ownFlaw (hname : nameOf? ms = some name) {flaw : Flaw} (h : OwnFlaw ms flaw) :
    IsOwn path (.obj ms) (ownFailure path name flaw) := by
  refine .flaw (fun ms' name' hms hname' => ?_) fun hdefault => ⟨ms, rfl, h.2 hdefault⟩
  cases hms
  rw [hname] at hname'
  exact ⟨Option.some.inj hname', h.1⟩

/-- Without a name, a type and attributes in order, a description fails by a flaw of its own. -/
theorem isOwn_of_not_attributesOf {n : Json} {e : Failure}
    (hnone : ∀ ms a t, n = .obj ms → ¬ AttributesOf ms t a)
    (h : (verifyNode level child (some path) n).outcome = .error (.failure e)) :
    IsOwn path n e := by
  cases n with
  | obj ms =>
      simp only [verifyNode] at h
      cases hname : nameOf? ms with
      | none =>
          rw [hname] at h
          cases h
          exact isOwn_of_nameless (fun ms' hms => by cases hms; exact hname) rfl
      | some name =>
          simp only [hname, Option.getD_some] at h
          cases htype : typeOf? ms with
          | none =>
              rw [htype] at h
              cases h
              exact isOwn_of_ownFlaw hname (.of_outright ⟨rfl, rfl⟩)
          | some t =>
              simp only [htype] at h
              cases hattributes : Checked.attributes ms name with
              | error flaw =>
                  rw [hattributes] at h
                  cases h
                  exact isOwn_of_ownFlaw hname (.of_outright (blames_attributes ms name flaw
                    hattributes))
              | ok a =>
                  obtain ⟨hget, hne⟩ := nameOf?_eq_some_iff.mp hname
                  obtain ⟨rfl, hs⟩ := attributes_eq_ok_iff.mp hattributes
                  exact absurd ⟨hget, hne, typeOf?_eq_some_iff.mp htype, hs⟩ (hnone ms a t rfl)
  | _ =>
      cases h
      exact isOwn_of_nameless (fun ms hms => by cases hms) rfl

end Field

namespace Description

open Formwork.Field

section

variable [Host] {level : Nat} {path : String} {n m : Json} {enclosure : Enclosure}

theorem Reaches.bound (h : Reaches level n enclosure m) : level ≤ 32 := by
  cases h <;> assumption

/-- What a description that verification comes to is refused for is passed on. -/
theorem Reaches.passes_on (h : Reaches level n enclosure m) (hpath : path ≠ "") {stop : Stop}
    (hstop : (verifyAt (level + 1) (some (path ++ "." ++ enclosure.key)) m).outcome =
      .error stop) :
    (verifyAt level (some path) n).outcome = .error (stop.within enclosure) := by
  have hbound := h.bound
  rw [verifyAt_eq_verifyNode hbound]
  cases h with
  | items _ attributes element flat =>
      rw [verifyNode_of_attributesOf attributes]
      refine arrayOf_of_items element flat ?_
      rw [Option.getD_some, joinPath_of_ne hpath]
      exact hstop
  | property _ attributes element earlier named =>
      rw [verifyNode_of_attributesOf attributes]
      refine objectOf_of_property (verifyAt_succ_eq_ok_iff hbound) element ?_ named ?_
      · intro e he
        obtain ⟨hkey, haccepted⟩ := earlier e he
        exact ⟨hkey, (accepted_iff (Nat.succ_le_succ hbound)).mp haccepted⟩
      · rw [Option.getD_some, joinPath_of_ne hpath]
        exact hstop

/-- A failure is a description's own, or verification comes to a description in it that is not
accepted. -/
theorem isOwn_or_reaches (hlevel : level ≤ 32) {e : Failure}
    (h : (verifyAt level (some path) n).outcome = .error (.failure e)) :
    IsOwn path n e ∨ ∃ enclosure m, Reaches level n enclosure m ∧ ¬ Accepted (level + 1) m := by
  have hinner : level + 1 ≤ 33 := Nat.succ_le_succ hlevel
  have hrefused : ∀ {path m stop}, (verifyAt (level + 1) path m).outcome = .error stop →
      ¬ Accepted (level + 1) m := by
    intro path m stop hstop haccepted
    obtain ⟨f, hf⟩ := (accepted_iff hinner).mp haccepted
    rw [(verifyAt_eq_ok_iff hinner).mpr hf] at hstop
    cases hstop
  rw [verifyAt_eq_verifyNode hlevel] at h
  by_cases hattributes : ∃ ms a t, n = .obj ms ∧ AttributesOf ms t a
  · obtain ⟨ms, a, t, rfl, ha⟩ := hattributes
    have hname : nameOf? ms = some a.name := nameOf?_eq_some_iff.mpr ⟨ha.name, ha.name_ne⟩
    rw [verifyNode_of_attributesOf ha, Option.getD_some] at h
    have hown : (∃ flaw, OwnFlaw ms flaw ∧ e = ownFailure path a.name flaw) →
        IsOwn path (.obj ms) e := by
      rintro ⟨flaw, hflaw, rfl⟩
      exact isOwn_of_ownFlaw hname hflaw
    cases t with
    | array =>
        rcases arrayOf_eq_failure h with ⟨inside, stop, hitems, hflat, hstop⟩ | hflaw
        · exact .inr ⟨_, _, .items hlevel ha hitems hflat, hrefused hstop⟩
        · exact .inl (hown hflaw)
    | object =>
        rcases objectOf_eq_failure (verifyAt_succ_eq_ok_iff hlevel) h with
          ⟨before, key, m, after, stop, hnodes, hearlier, hkey, hstop⟩ | hflaw
        · refine .inr ⟨_, m, .property hlevel ha hnodes (fun e he => ?_) hkey, hrefused hstop⟩
          obtain ⟨hnamed, hdescribed⟩ := hearlier e he
          exact ⟨hnamed, (accepted_iff hinner).mpr hdescribed⟩
        · exact .inl (hown hflaw)
    | _ =>
        have hP := compositional_blames ms path a.name
        exact .inl (hown (hP.payload_leaf (by decide) (by decide) e h))
  · refine .inl (isOwn_of_not_attributesOf ?_ h)
    exact fun ms a t hn ha => hattributes ⟨ms, a, t, hn, ha⟩

/-- A description that fails does so by itself, or passes on the failure of one that verification
comes to. -/
theorem fails_itself_or_passes_on (hlevel : level ≤ 32) (hpath : path ≠ "") {e : Failure}
    (h : (verifyAt level (some path) n).outcome = .error (.failure e)) :
    FailsItself level path n e ∧ IsOwn path n e ∨
      ∃ enclosure m e', Reaches level n enclosure m ∧
        (verifyAt (level + 1) (some (path ++ "." ++ enclosure.key)) m).outcome =
          .error (.failure e') ∧ e = e'.enclosed [enclosure] := by
  by_cases hall : ∀ enclosure m, Reaches level n enclosure m → Accepted (level + 1) m
  · rcases isOwn_or_reaches hlevel h with hown | ⟨enclosure, m, hreaches, hrefused⟩
    · exact .inl ⟨⟨h, hall⟩, hown⟩
    · exact absurd (hall enclosure m hreaches) hrefused
  · -- what is refused below cannot be hidden by a flaw of the description: it comes first
    simp only [not_forall] at hall
    obtain ⟨enclosure, m, hreaches, hrefused⟩ := hall
    obtain ⟨stop, hstop⟩ := exists_error_of_not_accepted (Nat.succ_le_succ hlevel) hrefused
      (some (path ++ "." ++ enclosure.key))
    rw [hreaches.passes_on hpath hstop] at h
    refine .inr ⟨enclosure, m, ?_⟩
    cases stop with
    | fault fault => cases h
    | failure e' =>
        refine ⟨e', hreaches, hstop, ?_⟩
        cases e' <;> cases h <;> rfl

/-- Down to the deepest level, a failure comes from the description at the end of a way, at which
it is its own. -/
theorem exists_leads {levels : Nat} (hlevels : level + levels = 33) (hpath : path ≠ "")
    {e : Failure} (h : (verifyAt level (some path) n).outcome = .error (.failure e)) :
    ∃ way last own, Leads level n way last ∧
      FailsItself (level + way.length) (along path way) last own ∧
      IsOwn (along path way) last own ∧ e = own.enclosed way := by
  -- the induction is on the levels that are left; at the last one nothing is reached any more
  induction levels generalizing level path n e with
  | zero =>
      obtain rfl : level = 33 := hlevels
      cases h
      refine ⟨[], n, _, .here, ⟨rfl, fun enclosure m hreaches => ?_⟩, .nesting, rfl⟩
      have hbound := hreaches.bound
      omega
  | succ levels ih =>
      rcases fails_itself_or_passes_on (by omega) hpath h with
        ⟨hfails, hown⟩ | ⟨enclosure, m, e', hreaches, he', rfl⟩
      · exact ⟨[], n, e, .here, hfails, hown, by cases e <;> rfl⟩
      · have hne : path ++ "." ++ enclosure.key ≠ "" :=
          joinPath_of_ne hpath enclosure.key ▸ joinPath_ne hpath enclosure.key
        obtain ⟨way, last, own, hleads, hfails, hown, rfl⟩ := ih (by omega) hne he'
        refine ⟨enclosure :: way, last, own, .step hreaches hleads, ?_, hown, ?_⟩
        · rwa [List.length_cons, ← Nat.add_assoc, Nat.add_right_comm]
        · cases own <;> rfl

/-- The words of an enclosing field name it. -/
theorem Reaches.mentions_phrase {ms : Checked.Members} {name : String}
    (h : Reaches level (.obj ms) enclosure m) (hname : Entries.get? ms "name" = some (.str name)) :
    Mentions name enclosure.phrase := by
  have hphrase := fun s => ((Mentions.self name).append_right s).append_left ": "
  cases h with
  | items _ attributes =>
      rw [attributes.name] at hname
      cases hname
      exact hphrase _
  | property _ attributes =>
      rw [attributes.name] at hname
      cases hname
      exact hphrase _

omit [Host] in
/-- The message of a failure along a way: the words of each field that encloses it, from the
outermost one on, before its own message. -/
theorem message_enclosed (way : List Enclosure) (owner : String) (flaw : Flaw) :
    ((ownFailure path owner flaw).enclosed way).message =
      way.foldr (fun enclosure rest => enclosure.phrase ++ rest)
        (ownFailure path owner flaw).message := by
  show (way ++ []).foldr _ _ = _
  rw [List.append_nil]
  rfl

/-- A failure along a way from a named description names it: in the words of the first field on the
way, or in its own. -/
theorem mentions_enclosed {ms : Checked.Members} {name owner : String} {way : List Enclosure}
    {last : Json} {flaw : Flaw} (hleads : Leads level (.obj ms) way last)
    (hname : nameOf? ms = some name)
    (hnamed : ∀ ms name, last = .obj ms → nameOf? ms = some name →
      owner = name ∧ flaw.isNameless = false) :
    Mentions name ((ownFailure path owner flaw).enclosed way).message := by
  rw [message_enclosed]
  cases hleads with
  | here =>
      obtain ⟨rfl, hflaw⟩ := hnamed ms name rfl hname
      exact Flaw.mentions_message hflaw owner
  | step first rest => exact (first.mentions_phrase (nameOf?_eq_some_iff.mp hname).1).append_left _

/-- A refused description with a name fails at the end of a way from it, along which all that comes
earlier is accepted. The path of the failure is the name, continued along the way and then into the
default of the description that fails, if the flaw lies there. The message names the description:
it is that of the description that fails, after the words of all that enclose it; only the message
of a description that lies too deep stands alone. -/
theorem verify_localized {ms : Checked.Members} {name : String} {e : Failure}
    (hname : Entries.get? ms "name" = some (.str name)) (hne : name ≠ "")
    (h : (Field.verify none (.obj ms)).outcome = .error (.failure e)) :
    ∃ way last own, Leads 0 (.obj ms) way last ∧
      FailsItself way.length (along name way) last own ∧
      (∃ suffix, e.path = some (along name way ++ suffix) ∧ own.path = e.path ∧
        (suffix = "" ∨ (∃ rest, suffix = ".defaultValue" ++ rest) ∧
          ∃ ms, last = .obj ms ∧ (Entries.get? ms "defaultValue").isSome = true)) ∧
      ((∃ f g, e = .field f ∧ own = .field g ∧ g.chain = [] ∧ Mentions name e.message ∧
          e.message = way.foldr (fun enclosure rest => enclosure.phrase ++ rest) own.message) ∨
        e = own ∧ own = .shape .nesting (some (along name way))) := by
  have hname? : nameOf? ms = some name := nameOf?_eq_some_iff.mpr ⟨hname, hne⟩
  have htop : verifyAt 0 none (.obj ms) = verifyAt 0 (some name) (.obj ms) := by
    rw [verifyAt_eq_verifyNode (Nat.zero_le _), verifyAt_eq_verifyNode (Nat.zero_le _)]
    simp only [verifyNode, hname?, Option.getD_none, Option.getD_some]
  have h : (verifyAt 0 (some name) (.obj ms)).outcome = .error (.failure e) := htop ▸ h
  obtain ⟨way, last, own, hleads, hfails, hown, rfl⟩ := exists_leads (Nat.zero_add 33) hne h
  rw [Nat.zero_add] at hfails
  refine ⟨way, last, own, hleads, hfails, ?_⟩
  cases hown with
  | nesting => exact ⟨⟨"", by rw [String.append_empty]; rfl, rfl, .inl rfl⟩, .inr ⟨rfl, rfl⟩⟩
  | @flaw owner flaw named inDefault =>
      refine ⟨⟨flaw.suffix, rfl, rfl, ?_⟩, .inl ⟨_, _, rfl, rfl, rfl, ?_, ?_⟩⟩
      · cases hdefault : flaw.isInDefault with
        | false => exact .inl (Flaw.suffix_of_not_isInDefault hdefault)
        | true => exact .inr ⟨Flaw.suffix_of_isInDefault hdefault, inDefault hdefault⟩
      · exact mentions_enclosed hleads hname? named
      · exact message_enclosed way owner flaw

end

/-- An object whose list has a default with a text among numbers. -/
def mixedList : Checked.Members :=
  [("name", .str "order"), ("type", .str "object"), ("properties", .obj
    [("note", .obj [("name", .str "note"), ("type", .str "string")]),
      ("sizes", .obj [("name", .str "list"), ("type", .str "array"),
        ("items", .obj [("name", .str "size"), ("type", .str "number")]),
        ("defaultValue", .arr [.int 1, .str "x"])])])]

attribute [local instance] Host.standard in
/-- The failure of the mixed list leads to the second element of the default. -/
theorem verify_mixedList :
    ∃ e way last own, (Field.verify none (.obj mixedList)).outcome = .error (.failure e) ∧
      e.path = some "order.sizes.defaultValue[1]" ∧
      e.message = "Invalid property sizes in object field order: Invalid default value item for "
        ++ "field list: Value must be a number" ∧
      Leads 0 (.obj mixedList) way last ∧ FailsItself way.length (along "order" way) last own := by
  have h : (Field.verify none (.obj mixedList)).outcome =
      .error (.failure (.field ⟨some "order.sizes.defaultValue[1]",
        [.property "sizes" "order"], "list", .item 1 .notNumber⟩)) := rfl
  obtain ⟨way, last, own, hleads, hfails, -⟩ := verify_localized rfl (by decide) h
  exact ⟨_, way, last, own, h, rfl, by decide +kernel, hleads, hfails⟩

end Description

end Formwork
