import Formwork.Proofs.Description.FirstFailure
import Formwork.Report
import Mathlib.Data.List.Infix

/-!
# What hints go by

A hint goes by words of the message, and a message quotes the names that its author chose. In no
message do such words stand across the border of a name. So a hint is about the first subject that
either the wording of the check or one of the quoted names tells of.

## Main results

* `FieldFailure.hint_eq`: the subject of a hint.
* `FieldFailure.hints_agree_iff`: when names make no difference to a hint.
* `FieldFailure.renamed_hint_ne`: a name that makes a difference.
-/

namespace Formwork

/-- Words that a hint goes by, as they stand or in any case. -/
structure Cue where
  words : String
  anyCase : Bool

/-- What a hint is about. -/
inductive Subject where
  | type
  | name
  | range
  | default
  | options
  deriving DecidableEq, Repr

namespace Cue

/-- A text as the cue is looked for in it. -/
def reads (cue : Cue) (s : String) : List Char :=
  if cue.anyCase then s.toList.map Char.toLower else s.toList

/-- The words stand in the text. -/
def isIn (cue : Cue) (s : String) : Bool :=
  Report.mentions (cue.reads s) cue.words.toList

end Cue

namespace Subject

/-- All subjects, in the order in which they are looked for. -/
def all : List Subject :=
  [.type, .name, .range, .default, .options]

/-- The words that tell of a subject. -/
def cues : Subject → List Cue
  | .type => [⟨"Invalid field type", false⟩]
  | .name => [⟨"Field name is required", false⟩]
  | .range => [⟨"min value", true⟩, ⟨"max value", true⟩]
  | .default => [⟨"default value", true⟩]
  | .options => [⟨"options", false⟩]

/-- The text tells of the subject. -/
def isIn (subject : Subject) (s : String) : Bool :=
  subject.cues.any (·.isIn s)

/-- The first subject that one of the texts tells of. -/
def first? (texts : List String) : Option Subject :=
  all.find? fun subject => texts.any subject.isIn

/-- The hint about a subject, at a path; without a subject there is nothing to say. -/
def hint (path : String) : Option Subject → String
  | some .type => "Use one of: " ++ FieldType.listing
  | some .name => "Give every field a non-empty string name"
  | some .range => "Ensure min <= defaultValue <= max at " ++ path
  | some .default => "Make the default at " ++ path ++ " match the declared field type"
  | some .options => "Provide options as [\x7b\"label\": \"...\", \"value\": ...\x7d]"
  | none => ""

theorem mem_all (subject : Subject) : subject ∈ all := by
  cases subject <;> decide

theorem isIn_of_cue (subject : Subject) {cue : Cue} (h : subject.cues = [cue]) (s : String) :
    subject.isIn s = cue.isIn s := by
  rw [isIn, h, List.any_cons, List.any_nil, Bool.or_false]

/-- Hints about different subjects differ. -/
theorem hint_injective {s t : Option Subject} (h : hint "" s = hint "" t) : s = t := by
  have hmem : ∀ s : Option Subject, s ∈ none :: all.map some := by
    intro s
    cases s with
    | none => exact List.mem_cons_self
    | some subject => exact List.mem_cons_of_mem _ (List.mem_map_of_mem (mem_all subject))
  have hall : ∀ s ∈ none :: all.map some, ∀ t ∈ none :: all.map some,
      hint "" s = hint "" t → s = t := by
    decide +kernel
  exact hall s (hmem s) t (hmem t) h

end Subject

namespace Report

theorem mentions_iff_isInfix (text words : List Char) :
    mentions text words = true ↔ words <:+: text := by
  induction text with
  | nil => simp [mentions]
  | cons c rest ih => simp [mentions, List.infix_cons_iff, ih]

/-- The hint for a field is about the first subject that the message tells of. -/
theorem hint_eq {r : Report} (h : r.kind = "field") :
    r.hint = Subject.hint r.quotedPath (Subject.first? [r.message]) := by
  have hfirst : Subject.first? [r.message] = Subject.all.find? fun s => s.isIn r.message := by
    simp [Subject.first?]
  have hkinds : "field" ≠ "malformed" ∧ "field" ≠ "shape" := by decide
  have htype : Subject.type.isIn r.message =
      mentions r.message.toList "Invalid field type".toList :=
    (Subject.type.isIn_of_cue rfl r.message :)
  have hname : Subject.name.isIn r.message =
      mentions r.message.toList "Field name is required".toList :=
    (Subject.name.isIn_of_cue rfl r.message :)
  have hrange : Subject.range.isIn r.message =
      (mentions (r.message.toList.map Char.toLower) "min value".toList ||
        mentions (r.message.toList.map Char.toLower) "max value".toList) :=
    congrArg (Bool.or _) (Bool.or_false _)
  have hdefault : Subject.default.isIn r.message =
      mentions (r.message.toList.map Char.toLower) "default value".toList :=
    (Subject.default.isIn_of_cue rfl r.message :)
  have hoptions : Subject.options.isIn r.message =
      mentions r.message.toList "options".toList :=
    (Subject.options.isIn_of_cue rfl r.message :)
  rw [hfirst]
  unfold hint
  simp only [h, hkinds.1, hkinds.2, if_false, ← htype, ← hname, ← hrange, ← hdefault, ← hoptions,
    Subject.all, List.find?_cons, List.find?_nil]
  clear htype hname hrange hdefault hoptions hfirst
  generalize Subject.type.isIn r.message = type, Subject.name.isIn r.message = name,
    Subject.range.isIn r.message = range, Subject.default.isIn r.message = default,
    Subject.options.isIn r.message = options
  cases type with
  | true => rfl
  | false =>
      cases name with
      | true => rfl
      | false => cases range <;> cases default <;> cases options <;> rfl

end Report

namespace Cue

variable {cue : Cue} {a b : String}

theorem isIn_iff_isInfix {s : String} : cue.isIn s = true ↔ cue.words.toList <:+: cue.reads s :=
  Report.mentions_iff_isInfix _ _

theorem reads_append (cue : Cue) (a b : String) :
    cue.reads (a ++ b) = cue.reads a ++ cue.reads b := by
  unfold reads
  split <;> simp

/-- The words of the cue cannot stand across the border of two texts. -/
def Apart (cue : Cue) (a b : String) : Prop :=
  ∀ p r, cue.words.toList = p ++ r → p <:+ cue.reads a → r <+: cue.reads b → p = [] ∨ r = []

theorem Apart.isIn_append (h : cue.Apart a b) :
    cue.isIn (a ++ b) = true ↔ cue.isIn a = true ∨ cue.isIn b = true := by
  simp only [isIn_iff_isInfix, reads_append, List.infix_append_iff]
  constructor
  · rintro (hin | hin | ⟨p, r, hwords, hp, hr⟩)
    · exact .inl hin
    · exact .inr hin
    · rcases h p r hwords hp hr with rfl | rfl
      · exact .inr (hwords ▸ hr.isInfix)
      · exact .inl ((hwords.trans (List.append_nil p)) ▸ hp.isInfix)
  · rintro (hin | hin)
    · exact .inl hin
    · exact .inr (.inl hin)

/-- All cues of hints. -/
def all : List Cue :=
  Subject.all.flatMap Subject.cues

theorem mem_all {subject : Subject} (h : cue ∈ subject.cues) : cue ∈ all :=
  List.mem_flatMap.mpr ⟨subject, subject.mem_all, h⟩

/-- The text ends in no beginning of a cue, and no beginning of a cue ends in it. -/
def Closes (s : String) : Prop :=
  ∀ cue ∈ all, ∀ p ∈ cue.words.toList.inits, p = [] ∨ p = cue.words.toList ∨
    ¬ (p <:+ cue.reads s ∨ cue.reads s <:+ p)

instance : DecidablePred Closes := fun s =>
  inferInstanceAs (Decidable (∀ cue ∈ all, ∀ p ∈ cue.words.toList.inits, p = [] ∨
    p = cue.words.toList ∨ ¬ (p <:+ cue.reads s ∨ cue.reads s <:+ p)))

/-- The text begins with no end of a cue, and no end of a cue begins with it. -/
def Opens (s : String) : Prop :=
  ∀ cue ∈ all, ∀ r ∈ cue.words.toList.tails, r = [] ∨ r = cue.words.toList ∨
    ¬ (r <+: cue.reads s ∨ cue.reads s <+: r)

instance : DecidablePred Opens := fun s =>
  inferInstanceAs (Decidable (∀ cue ∈ all, ∀ r ∈ cue.words.toList.tails, r = [] ∨
    r = cue.words.toList ∨ ¬ (r <+: cue.reads s ∨ cue.reads s <+: r)))

theorem Closes.of_isSuffix {s t : String} (h : Closes t) (hs : t.toList <:+ s.toList) :
    Closes s := by
  intro cue hcue p hp
  have hreads : cue.reads t <:+ cue.reads s := by
    unfold reads
    split
    · exact hs.map Char.toLower
    · exact hs
  rcases h cue hcue p hp with hnil | hall | hnone
  · exact .inl hnil
  · exact .inr (.inl hall)
  · refine .inr (.inr ?_)
    rintro (hsuffix | hsuffix)
    · exact hnone (List.suffix_or_suffix_of_suffix hsuffix hreads)
    · exact hnone (.inr (hreads.trans hsuffix))

theorem Opens.of_isPrefix {s t : String} (h : Opens t) (hs : t.toList <+: s.toList) :
    Opens s := by
  intro cue hcue r hr
  have hreads : cue.reads t <+: cue.reads s := by
    unfold reads
    split
    · exact hs.map Char.toLower
    · exact hs
  rcases h cue hcue r hr with hnil | hall | hnone
  · exact .inl hnil
  · exact .inr (.inl hall)
  · refine .inr (.inr ?_)
    rintro (hbegins | hbegins)
    · have hboth := List.prefix_or_prefix_of_prefix hbegins hreads
      exact hnone hboth
    · exact hnone (.inr (hreads.trans hbegins))

/-- How texts end that stand before a name in a message. -/
def endings : List String :=
  ["for field ", " for ", "in field ", "upload field ", "select field ", "object field ",
    "field name ", "property ", "Property ", "Array field ", "Object field ", ": "]

/-- How texts begin that stand after a name in a message. -/
def openings : List String :=
  [": ", ". ", " in ", " must "]

theorem closes_endings : ∀ t ∈ endings, Closes t := by
  decide +kernel

theorem opens_openings : ∀ t ∈ openings, Opens t := by
  decide +kernel

/-- A text closes if it ends in one of the endings. Both are compared by their characters, since
these are quick to find for a text that is written out. -/
theorem closes_of_ending {s : String} {l k : List Char} (t : String) (hk : k <:+ l)
    (ht : t = .ofList k) (hs : s = .ofList l) (hmem : t ∈ endings) : Closes s := by
  refine (closes_endings t hmem).of_isSuffix ?_
  rw [hs, ht, String.toList_ofList, String.toList_ofList]
  exact hk

theorem opens_of_opening {s : String} {l k : List Char} (t : String) (hk : k <+: l)
    (ht : t = .ofList k) (hs : s = .ofList l) (hmem : t ∈ openings) : Opens s := by
  refine (opens_openings t hmem).of_isPrefix ?_
  rw [hs, ht, String.toList_ofList, String.toList_ofList]
  exact hk

/-- No cue stands across the end of a text that closes, whatever comes before it. -/
theorem Closes.apart {s : String} (h : Closes s) (hcue : cue ∈ all) (a b : String) :
    cue.Apart (a ++ s) b := by
  intro p r hwords hp _
  have hp' : p <:+ cue.reads a ++ cue.reads s := by rwa [← reads_append]
  have hends : p <:+ cue.reads s ∨ cue.reads s <:+ p :=
    List.suffix_or_suffix_of_suffix hp' (List.suffix_append _ _)
  rcases h cue hcue p ((List.mem_inits _ _).mpr ⟨r, hwords.symm⟩) with hnil | hall | hnone
  · exact .inl hnil
  · rw [hall] at hwords
    exact .inr (List.append_right_eq_self.mp hwords.symm)
  · exact absurd hends hnone

theorem Closes.apart_self {s : String} (h : Closes s) (hcue : cue ∈ all) (b : String) :
    cue.Apart s b := by
  have hapart := h.apart hcue "" b
  rwa [String.empty_append] at hapart

/-- No cue stands across the beginning of a text that opens. -/
theorem Opens.apart {s : String} (h : Opens s) (hcue : cue ∈ all) (a : String) :
    cue.Apart a s := by
  intro p r hwords _ hr
  rcases h cue hcue r ((List.mem_tails _ _).mpr ⟨p, hwords.symm⟩) with hnil | hall | hnone
  · exact .inr hnil
  · rw [hall] at hwords
    exact .inl (List.append_left_eq_self.mp hwords.symm)
  · exact absurd (.inl hr) hnone

/-- The cue stands in the text exactly if it stands in its own words or in a name that it quotes. -/
def Quotes (cue : Cue) (s own : String) (names : List String) : Prop :=
  cue.isIn s = true ↔ cue.isIn own = true ∨ ∃ name ∈ names, cue.isIn name = true

theorem Quotes.own (s : String) : cue.Quotes s s [] := by
  simp [Quotes]

theorem words_ne_empty : ∀ cue ∈ all, cue.words ≠ "" := by
  decide

theorem isIn_empty (hcue : cue ∈ all) : ¬ cue.isIn "" = true := by
  have hreads : cue.reads "" = [] := by
    unfold reads
    split <;> simp
  rw [isIn_iff_isInfix, hreads, List.infix_nil, String.toList_eq_nil_iff]
  exact words_ne_empty cue hcue

theorem Quotes.name (hcue : cue ∈ all) (name : String) : cue.Quotes name "" [name] := by
  simp [Quotes, isIn_empty hcue]

theorem Quotes.append {s t own own' : String} {names names' : List String}
    (hs : cue.Quotes s own names) (ht : cue.Quotes t own' names') (h : cue.Apart s t)
    (hown : cue.Apart own own') : cue.Quotes (s ++ t) (own ++ own') (names ++ names') := by
  unfold Quotes at hs ht ⊢
  rw [h.isIn_append, hown.isIn_append, hs, ht, or_or_or_comm]
  simp only [List.mem_append, or_and_right, exists_or]

/-- A name after a text that closes. -/
theorem quotes_after {s : String} (hcue : cue ∈ all) (h : Closes s) (name : String) :
    cue.Quotes (s ++ name) (s ++ "") [name] :=
  (Quotes.own s).append (.name hcue name) (h.apart_self hcue _) (h.apart_self hcue _)

/-- A name between a text that closes and one that opens. -/
theorem quotes_between {s t : String} (hcue : cue ∈ all) (hs : Closes s) (ht : Opens t)
    (name : String) : cue.Quotes (s ++ name ++ t) (s ++ "" ++ t) [name] :=
  (quotes_after hcue hs name).append (.own t) (ht.apart hcue _) (ht.apart hcue _)

/-- A text whose end closes, before another text. -/
theorem Quotes.before {a b s t own : String} {names names' : List String}
    (hs : cue.Quotes (a ++ s) (b ++ s) names) (ht : cue.Quotes t own names') (hcue : cue ∈ all)
    (h : Closes s) : cue.Quotes (a ++ s ++ t) (b ++ s ++ own) (names ++ names') :=
  hs.append ht (h.apart hcue a t) (h.apart hcue b own)

theorem closes_colon : Closes ": " :=
  closes_endings _ (by decide)

theorem opens_colon : Opens ": " :=
  opens_openings _ (by decide)

end Cue

namespace Mismatch

/-- The mismatch without the keys that its wording quotes. -/
def unnamed : Mismatch → Mismatch
  | .unknownProperty _ => .unknownProperty ""
  | .property _ inner => .property "" inner.unnamed
  | .item index inner => .item index inner.unnamed
  | m => m

/-- The keys that the wording quotes. -/
def quoted : Mismatch → List String
  | .unknownProperty key => [key]
  | .property key inner => key :: inner.quoted
  | .item _ inner => inner.quoted
  | _ => []

theorem quotes_message {cue : Cue} (hcue : cue ∈ Cue.all) (m : Mismatch) :
    cue.Quotes m.message m.unnamed.message m.quoted := by
  induction m with
  | unknownProperty key =>
      have hcloses : Cue.Closes "Unknown property " :=
        Cue.closes_of_ending "property " (by decide) rfl rfl (by decide)
      exact Cue.quotes_after hcue hcloses key
  | property key inner ih =>
      have hcloses : Cue.Closes "Property " := Cue.closes_endings _ (by decide)
      exact (Cue.quotes_between hcue hcloses Cue.opens_colon key).before ih hcue Cue.closes_colon
  | item index inner ih =>
      exact (Cue.Quotes.own ("Item " ++ Number.shown index ++ ": ")).before ih hcue
        Cue.closes_colon
  | _ => exact .own _

end Mismatch

namespace Flaw

/-- The flaw without the keys that its wording quotes. -/
def unnamed : Flaw → Flaw
  | .item index mismatch => .item index mismatch.unnamed
  | .unknownProperty _ => .unknownProperty ""
  | .property _ mismatch => .property "" mismatch.unnamed
  | flaw => flaw

/-- The names that the wording for a field of a name quotes. -/
def quoted (name : String) : Flaw → List String
  | .notObject | .noName => []
  | .item _ mismatch => name :: mismatch.quoted
  | .unknownProperty key => [key, name]
  | .property key mismatch => key :: name :: mismatch.quoted
  | _ => [name]

section Quotes

open Cue

variable {cue : Cue} (hcue : cue ∈ Cue.all) (name : String)

theorem closes_type (type : FieldType) : Closes (type.name ++ " field ") := by
  have hall : ∀ type ∈ FieldType.all, Closes (type.name ++ " field ") := by
    decide +kernel
  exact hall type type.mem_all

include hcue

theorem quotes_unknownProperty (key : String) :
    cue.Quotes ((Flaw.unknownProperty key).message name) ((Flaw.unknownProperty "").message "")
      [key, name] := by
  have hcloses : Closes "Unknown property " :=
    closes_of_ending "property " (by decide) rfl rfl (by decide)
  have hopens : Opens " in default value for field " :=
    opens_of_opening " in " (by decide) rfl rfl (by decide)
  have hfor : Closes " in default value for field " :=
    closes_of_ending "for field " (by decide) rfl rfl (by decide)
  exact (quotes_between hcue hcloses hopens key).before (.name hcue name) hcue hfor

theorem quotes_item (index : Nat) (mismatch : Mismatch) :
    cue.Quotes ((Flaw.item index mismatch).message name)
      ((Flaw.item index mismatch.unnamed).message "") (name :: mismatch.quoted) := by
  have hfor : Closes "Invalid default value item for field " :=
    closes_of_ending "for field " (by decide) rfl rfl (by decide)
  exact (quotes_between hcue hfor opens_colon name).before (mismatch.quotes_message hcue) hcue
    closes_colon

theorem quotes_property (key : String) (mismatch : Mismatch) :
    cue.Quotes ((Flaw.property key mismatch).message name)
      ((Flaw.property "" mismatch.unnamed).message "") (key :: name :: mismatch.quoted) := by
  have hcloses : Closes "Invalid default value for property " :=
    closes_of_ending "property " (by decide) rfl rfl (by decide)
  have hopens : Opens " in field " := opens_of_opening " in " (by decide) rfl rfl (by decide)
  have hin : Closes " in field " := closes_of_ending "in field " (by decide) rfl rfl (by decide)
  have hkey := quotes_between hcue hcloses hopens key
  have hname := hkey.before (.name hcue name) hcue hin
  have hcolon := hname.append (.own ": ") (opens_colon.apart hcue _) (opens_colon.apart hcue _)
  exact hcolon.before (mismatch.quotes_message hcue) hcue closes_colon

theorem quotes_unknownType :
    cue.Quotes (Flaw.unknownType.message name) (Flaw.unknownType.message "") [name] := by
  have hfor : Closes "Invalid field type for " :=
    closes_of_ending " for " (by decide) rfl rfl (by decide)
  have hopens : Opens ". Must be one of: " := opens_of_opening ". " (by decide) rfl rfl (by decide)
  have hcolon : Closes ". Must be one of: " := closes_of_ending ": " (by decide) rfl rfl (by decide)
  exact (quotes_between hcue hfor hopens name).before (.own _) hcue hcolon

/-- The cue stands in the wording of a flaw exactly if it stands in the wording without names, or in
a name that is quoted. -/
theorem quotes_message (flaw : Flaw) :
    cue.Quotes (flaw.message name) (flaw.unnamed.message "") (flaw.quoted name) := by
  -- the words before the name may depend on the flaw, but how they end does not
  have hafter : ∀ {a s : String}, Closes s →
      cue.Quotes (a ++ s ++ name) (a ++ s ++ "") [name] :=
    fun h => (Quotes.own _).before (.name hcue name) hcue h
  have hbetween : ∀ {s t : String}, Closes s → Opens t →
      cue.Quotes (s ++ name ++ t) (s ++ "" ++ t) [name] :=
    fun hs ht => quotes_between hcue hs ht name
  have hfor : Closes " for field " := closes_of_ending "for field " (by decide) rfl rfl (by decide)
  cases flaw with
  | notObject => exact .own _
  | noName => exact .own _
  | unknownType => exact quotes_unknownType hcue name
  | noOptions type | emptyOptions type =>
      exact hbetween (closes_type type) (opens_of_opening " must " (by decide) rfl rfl (by decide))
  | item index mismatch => exact quotes_item hcue name index mismatch
  | unknownProperty key => exact quotes_unknownProperty hcue name key
  | property key mismatch => exact quotes_property hcue name key mismatch
  | boundOrder lower upper => exact hafter hfor
  | cardText key | bound key | notNumber key | fewItems least | manyItems most =>
      exact hafter (closes_of_ending "for field " (by decide) rfl rfl (by decide))
  | optionFormat | mode =>
      exact hbetween (closes_of_ending " for " (by decide) rfl rfl (by decide))
        (opens_of_opening ". " (by decide) rfl rfl (by decide))
  | listType =>
      exact hbetween (closes_of_ending "upload field " (by decide) rfl rfl (by decide))
        (opens_of_opening ". " (by decide) rfl rfl (by decide))
  | noItems =>
      exact hbetween (closes_of_ending "Array field " (by decide) rfl rfl (by decide))
        (opens_of_opening " must " (by decide) rfl rfl (by decide))
  | noProperties =>
      exact hbetween (closes_of_ending "Object field " (by decide) rfl rfl (by decide))
        (opens_of_opening " must " (by decide) rfl rfl (by decide))
  | duplicateName =>
      exact quotes_after hcue (closes_of_ending "field name " (by decide) rfl rfl (by decide)) name
  | emptyKey =>
      exact quotes_after hcue
        (closes_of_ending "object field " (by decide) rfl rfl (by decide)) name
  | date =>
      exact quotes_after hcue (closes_of_ending "in field " (by decide) rfl rfl (by decide)) name
  | defaultNotOptionList =>
      exact quotes_after hcue
        (closes_of_ending "select field " (by decide) rfl rfl (by decide)) name
  | multiple | maxCount | maxSize | accept | defaultNotFileList =>
      exact quotes_after hcue
        (closes_of_ending "upload field " (by decide) rfl rfl (by decide)) name
  | _ =>
      exact quotes_after hcue (closes_of_ending "for field " (by decide) rfl rfl (by decide)) name

end Quotes

end Flaw

namespace Enclosure

/-- The enclosing field without its name and key. -/
def unnamed : Enclosure → Enclosure
  | .items _ => .items ""
  | .property _ _ => .property "" ""

/-- The names that the words of the enclosing field quote. -/
def quoted : Enclosure → List String
  | .items owner => [owner]
  | .property key owner => [key, owner]

open Cue in
theorem quotes_phrase {cue : Cue} (hcue : cue ∈ Cue.all) (e : Enclosure) {t own : String}
    {names : List String} (h : cue.Quotes t own names) :
    cue.Quotes (e.phrase ++ t) (e.unnamed.phrase ++ own) (e.quoted ++ names) := by
  cases e with
  | items owner =>
      have hcloses : Closes "Invalid array items for field " :=
        closes_of_ending "for field " (by decide) rfl rfl (by decide)
      exact (quotes_between hcue hcloses opens_colon owner).before h hcue closes_colon
  | property key owner =>
      have hcloses : Closes "Invalid property " :=
        closes_of_ending "property " (by decide) rfl rfl (by decide)
      have hopens : Opens " in object field " :=
        opens_of_opening " in " (by decide) rfl rfl (by decide)
      have hin : Closes " in object field " :=
        closes_of_ending "object field " (by decide) rfl rfl (by decide)
      have hkey := quotes_between hcue hcloses hopens key
      have howner := hkey.before (.name hcue owner) hcue hin
      have hcolon :=
        howner.append (.own ": ") (opens_colon.apart hcue _) (opens_colon.apart hcue _)
      exact hcolon.before h hcue closes_colon

end Enclosure

namespace FieldFailure

/-- The failure without its path and the names that its message quotes: which check failed, and of
which field. -/
def unnamed (f : FieldFailure) : FieldFailure :=
  ⟨none, f.chain.map Enclosure.unnamed, "", f.flaw.unnamed⟩

/-- The names that the message quotes. -/
def quoted (f : FieldFailure) : List String :=
  f.chain.flatMap Enclosure.quoted ++ f.flaw.quoted f.name

/-- A cue stands in the message exactly if it stands in the wording without names, or in a name that
is quoted. -/
theorem quotes_message {cue : Cue} (hcue : cue ∈ Cue.all) (f : FieldFailure) :
    cue.Quotes f.message f.unnamed.message f.quoted := by
  obtain ⟨path, chain, name, flaw⟩ := f
  induction chain with
  | nil => exact flaw.quotes_message hcue name
  | cons e rest ih =>
      show cue.Quotes _ _ (e.quoted ++ rest.flatMap Enclosure.quoted ++ flaw.quoted name)
      rw [List.append_assoc]
      exact e.quotes_phrase hcue ih

/-- The message tells of a subject exactly if the wording without names or a name does. -/
theorem isIn_message (f : FieldFailure) (subject : Subject) :
    subject.isIn f.message = (f.unnamed.message :: f.quoted).any subject.isIn := by
  have hquotes : ∀ cue ∈ subject.cues, cue.Quotes f.message f.unnamed.message f.quoted :=
    fun cue hcue => f.quotes_message (Cue.mem_all hcue)
  rw [Bool.eq_iff_iff]
  simp only [Subject.isIn, List.any_eq_true, List.mem_cons, exists_eq_or_imp]
  constructor
  · rintro ⟨cue, hcue, hin⟩
    rcases (hquotes cue hcue).mp hin with hown | ⟨name, hname, hin⟩
    · exact .inl ⟨cue, hcue, hown⟩
    · exact .inr ⟨name, hname, cue, hcue, hin⟩
  · rintro (⟨cue, hcue, hown⟩ | ⟨name, hname, cue, hcue, hin⟩)
    · exact ⟨cue, hcue, (hquotes cue hcue).mpr (.inl hown)⟩
    · exact ⟨cue, hcue, (hquotes cue hcue).mpr (.inr ⟨name, hname, hin⟩)⟩

/-- The hint for a failure is about the first subject that the wording of the check, without names,
or a name that it quotes tells of. -/
theorem hint_eq (f : FieldFailure) (path : Option String) :
    (Report.ofFailure (.field { f with path })).hint =
      Subject.hint (path.getD "None") (Subject.first? (f.unnamed.message :: f.quoted)) := by
  rw [Report.hint_eq rfl]
  have htexts : ∀ subject : Subject, [f.message].any subject.isIn =
      (f.unnamed.message :: f.quoted).any subject.isIn := by
    intro subject
    rw [List.any_cons, List.any_nil, Bool.or_false, isIn_message]
  show Subject.hint _ (Subject.first? [f.message]) = _
  rw [Subject.first?, funext htexts]
  rfl

/-- The hint for a source that is refused at a field, with another path in it. -/
def hintAt? [Host] (source : Source) (path : Option String) : Option String :=
  match (Form.verify source).outcome with
  | .ok (.error (.field f)) => some (Report.ofFailure (.field { f with path })).hint
  | _ => none

/-- Two failures of the same check of a field have the same hint, but for the path in it, exactly if
the wording of the check and the names that the one quotes tell first of the same subject as the
wording and the names that the other quotes. So it is for two sources that are refused with them. -/
theorem hints_agree_iff [Host] {f g : FieldFailure} (h : f.unnamed = g.unnamed) :
    ((∀ path, (Report.ofFailure (.field { f with path })).hint =
      (Report.ofFailure (.field { g with path })).hint) ↔
      Subject.first? (f.unnamed.message :: f.quoted) =
        Subject.first? (f.unnamed.message :: g.quoted)) ∧
    ∀ source source', (Form.verify source).outcome = .ok (.error (.field f)) →
      (Form.verify source').outcome = .ok (.error (.field g)) →
      ((∀ path, hintAt? source path = hintAt? source' path) ↔
        Subject.first? (f.unnamed.message :: f.quoted) =
          Subject.first? (f.unnamed.message :: g.quoted)) := by
  have hhints : (∀ path, (Report.ofFailure (.field { f with path })).hint =
      (Report.ofFailure (.field { g with path })).hint) ↔
      Subject.first? (f.unnamed.message :: f.quoted) =
        Subject.first? (f.unnamed.message :: g.quoted) := by
    simp only [hint_eq, ← h]
    constructor
    · intro hall
      exact Subject.hint_injective (hall (some ""))
    · intro heq path
      rw [heq]
  refine ⟨hhints, fun source source' hf hg => ?_⟩
  simp only [hintAt?, hf, hg, Option.some.injEq]
  exact hhints

/-- The failure of a text with a negative length, at the top of a document. -/
def negativeLength (name : String) : FieldFailure :=
  ⟨some name, [], name, .bound "minLength"⟩

/-- A document with such a text. -/
def negativeLengthSource (name : String) : Source :=
  .text ("\x7b\"fields\": [\x7b\"name\": \"" ++ name
    ++ "\", \"type\": \"string\", \"minLength\": -1\x7d]\x7d")

/-- The document is refused with the failure. -/
theorem verify_negativeLengthSource [Host] {name : String}
    (h : name ∈ ["size", "note", "options"]) :
    (Form.verify (negativeLengthSource name)).outcome =
      .ok (.error (.field (negativeLength name))) := by
  let ms : Checked.Members :=
    [("name", .str name), ("type", .str "string"), ("minLength", .num (.int (-1)))]
  have hload : (negativeLengthSource name).load.toOption =
      some (.obj [("fields", .arr [.obj ms])]) := by
    simp only [List.mem_cons, List.not_mem_nil, or_false] at h
    rcases h with rfl | rfl | rfl <;> decide +kernel
  have hparts : (Form.verifyDocument (.obj [("fields", .arr [.obj ms])])).outcome =
      .error (.failure (.field (negativeLength name))) := by
    simp only [List.mem_cons, List.not_mem_nil, or_false] at h
    rcases h with rfl | rfl | rfl <;> rfl
  exact Form.verify_eq_failure_iff.mpr (.inr ⟨_, toOption_eq_some_iff.mp hload, hparts⟩)

attribute [local instance] Host.standard in
/-- The names of two such texts make no difference, and their documents have the same hint. -/
theorem hints_agree_iff_size :
    (negativeLength "size").unnamed = (negativeLength "note").unnamed ∧
      (∀ path, (Report.ofFailure (.field { negativeLength "size" with path })).hint =
        (Report.ofFailure (.field { negativeLength "note" with path })).hint) ∧
      ∀ path, hintAt? (negativeLengthSource "size") path =
        hintAt? (negativeLengthSource "note") path := by
  have hsame : (negativeLength "size").unnamed = (negativeLength "note").unnamed := rfl
  have hsubjects : Subject.first? ((negativeLength "size").unnamed.message ::
      (negativeLength "size").quoted) =
        Subject.first? ((negativeLength "size").unnamed.message ::
          (negativeLength "note").quoted) := by
    decide +kernel
  obtain ⟨hfailures, hsources⟩ := hints_agree_iff hsame
  exact ⟨hsame, hfailures.mpr hsubjects,
    (hsources _ _ (verify_negativeLengthSource (by simp))
      (verify_negativeLengthSource (by simp))).mpr hsubjects⟩

theorem hint_negativeLength : (Report.ofFailure (.field (negativeLength "size"))).hint = "" ∧
    (Report.ofFailure (.field (negativeLength "options"))).hint =
      "Provide options as [\x7b\"label\": \"...\", \"value\": ...\x7d]" := by
  decide +kernel

attribute [local instance] Host.standard in
/-- The hint for a text with a negative length changes if the text is called options. -/
theorem renamed_hint_ne :
    (Form.verify (negativeLengthSource "size")).outcome =
        .ok (.error (.field (negativeLength "size"))) ∧
      (Form.verify (negativeLengthSource "options")).outcome =
        .ok (.error (.field (negativeLength "options"))) ∧
      (negativeLength "size").unnamed = (negativeLength "options").unnamed ∧
      (Report.ofFailure (.field (negativeLength "size"))).hint = "" ∧
      (Report.ofFailure (.field (negativeLength "options"))).hint =
        "Provide options as [\x7b\"label\": \"...\", \"value\": ...\x7d]" := by
  exact ⟨verify_negativeLengthSource (by simp), verify_negativeLengthSource (by simp), rfl,
    hint_negativeLength⟩

end FieldFailure

end Formwork
