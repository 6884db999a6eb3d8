import LogTemplate.Proofs.Assigning
import LogTemplate.Proofs.Json.Members
import LogTemplate.Specialization.File
import Mathlib.Data.List.TakeWhile
import Mathlib.Data.Set.List

/-!
# LogTemplate.Proofs.FileForm

Which JSON values are specializations, and the form in which these are kept.

* `Json.IsSpecialization` — the form of such a value, member by member.
* `SpecializationFile.Canonical` — what is left of a value that was read.
* `Normalizes` — a reader that accepts one form, and that reads what it gave as it is written.
* `SpecializationFile.normalizes_optional` — the same for a member that may be absent.
* `ofJson_eq_ok` — what is read, member by member.
* `ofJson_normalizes` — what is accepted, what comes of it, and that this is read again as it is.
-/

namespace LogTemplate

/-! ## Forms -/

namespace Json

def IsObject (j : Json) : Prop :=
  ∃ members, j = .object members

def IsString (j : Json) : Prop :=
  ∃ t, j = .string t

/-- An object of strings. -/
def IsStringMap (j : Json) : Prop :=
  ∃ members, j = .object members ∧ ∀ a ∈ members, a.2.IsString

/-- A list of strings. -/
def IsStringList (j : Json) : Prop :=
  ∃ items, j = .array items ∧ ∀ item ∈ items, item.IsString

/-- A rule has a pattern and a replacement, and it may have flags. -/
structure IsRule (j : Json) : Prop where
  object : j.IsObject
  pattern : ∃ value ∈ j.member? (text "pattern"), value.IsString
  replacement : ∃ value ∈ j.member? (text "replacement"), value.IsString
  flags : ∀ value ∈ j.member? (text "flags"), value.IsString

def IsRuleList (j : Json) : Prop :=
  ∃ rules, j = .array rules ∧ ∀ rule ∈ rules, rule.IsRule

structure IsDefaults (j : Json) : Prop where
  object : j.IsObject
  format : ∀ value ∈ j.member? (text "format"), value.IsString
  capture : ∀ value ∈ j.member? (text "capture"), value.IsStringList

/-- A specialization has a name that is not blank and a map of tokens; what else it may have is of
the right form if it is there. -/
structure IsSpecialization (j : Json) : Prop where
  object : j.IsObject
  name : ∃ name, j.member? (text "name") = some (.string name) ∧ Text.trim name ≠ []
  tokens : ∃ value ∈ j.member? (text "tokens"), value.IsStringMap
  aliases : ∀ value ∈ j.member? (text "aliases"), value.IsStringMap
  defaults : ∀ value ∈ j.member? (text "defaults"), value.IsDefaults
  preprocess : ∀ value ∈ j.member? (text "preprocess"), value.IsRuleList
  postprocess : ∀ value ∈ j.member? (text "postprocess"), value.IsRuleList

theorem isObject_of_member? {j value : Json} {key : Text} (h : j.member? key = some value) :
    j.IsObject := by
  cases j with
  | object members => exact ⟨members, rfl⟩
  | _ => cases h

theorem string?_eq_some {j : Json} {t : Text} : j.string? = some t ↔ j = .string t := by
  cases j <;> simp [string?]

/-- A list is one of values that are written, if each of its items is such a value. -/
theorem forall_exists_eq_iff {α β : Type} {write : α → β} {l : List β} :
    (∀ b ∈ l, ∃ a, b = write a) ↔ ∃ values : List α, l = values.map write := by
  constructor
  · intro h
    have hrange : l ∈ Set.range (List.map write) := by
      rw [Set.range_list_map]
      exact fun b hb => (h b hb).imp fun _ => Eq.symm
    exact hrange.imp fun _ => Eq.symm
  · rintro ⟨values, rfl⟩
    exact List.forall_mem_map.mpr fun a _ => ⟨a, rfl⟩

/-- So it is for a member that may be absent. -/
theorem forall_mem_exists_eq_iff {α β : Type} {write : α → β} {o : Option β} :
    (∀ b ∈ o, ∃ a, b = write a) ↔ ∃ value : Option α, o = value.map write := by
  cases o with
  | none => exact ⟨fun _ => ⟨none, rfl⟩, by simp⟩
  | some b =>
    constructor
    · intro h
      obtain ⟨a, rfl⟩ := h b rfl
      exact ⟨some a, rfl⟩
    · rintro ⟨_ | a, h⟩ <;> simp_all

theorem isStringList_iff {j : Json} :
    j.IsStringList ↔ ∃ names : List Text, j = .array (names.map .string) := by
  unfold IsStringList IsString
  simp only [forall_exists_eq_iff]
  constructor
  · rintro ⟨_, rfl, names, rfl⟩
    exact ⟨names, rfl⟩
  · rintro ⟨names, rfl⟩
    exact ⟨_, rfl, names, rfl⟩

theorem isStringMap_iff {j : Json} : j.IsStringMap ↔ ∃ entries : List (Text × Text),
    j = .object (entries.map fun a => (a.1, .string a.2)) := by
  have hentry (a : Text × Json) : a.2.IsString ↔ ∃ b : Text × Text, a = (b.1, .string b.2) := by
    constructor
    · rintro ⟨t, ht⟩
      exact ⟨(a.1, t), Prod.ext rfl ht⟩
    · rintro ⟨b, rfl⟩
      exact ⟨b.2, rfl⟩
  unfold IsStringMap
  simp only [hentry, forall_exists_eq_iff]
  constructor
  · rintro ⟨_, rfl, entries, rfl⟩
    exact ⟨entries, rfl⟩
  · rintro ⟨entries, rfl⟩
    exact ⟨_, rfl, entries, rfl⟩

theorem mapM_string?_eq_some {items : List Json} {names : List Text} :
    items.mapM string? = some names ↔ items = names.map .string := by
  induction items generalizing names with
  | nil => cases names <;> simp
  | cons item items ih =>
    have hcons : (item :: items).mapM string? = some names
        ↔ ∃ name more, item.string? = some name ∧ items.mapM string? = some more
          ∧ name :: more = names := by
      rw [List.mapM_cons]
      cases item.string? <;> cases items.mapM string? <;> simp
    rw [hcons, eq_comm (a := item :: items), List.map_eq_cons_iff]
    simp only [string?_eq_some, ih]
    constructor
    · rintro ⟨name, more, rfl, rfl, rfl⟩
      exact ⟨name, more, rfl, rfl, rfl⟩
    · rintro ⟨name, more, rfl, rfl, rfl⟩
      exact ⟨name, more, rfl, rfl, rfl⟩

end Json

theorem Text.trim_eq_nil {t : Text} : trim t = [] ↔ allBlank t = true := by
  have hdrop (s : Text) : s.dropWhile isBlank = [] ↔ allBlank s = true := by
    rw [List.dropWhile_eq_nil_iff, allBlank, List.all_eq_true]
  have hreverse (s : Text) : allBlank s.reverse = allBlank s := List.all_reverse
  rw [trim, List.reverse_eq_nil_iff, hdrop, hreverse]
  constructor
  · intro h
    cases hrest : t.dropWhile isBlank with
    | nil => exact (hdrop t).mp hrest
    | cons u rest =>
      have hu := List.head_dropWhile_not isBlank (l := t) (by simp [hrest])
      simp only [hrest, List.head_cons] at hu
      rw [hrest, allBlank, List.all_cons, hu] at h
      cases h
  · intro h
    rw [(hdrop t).mpr h]
    rfl

/-! ## Readers -/

/-- A reader that accepts exactly what is of one form, and that reads what it gave as it is
written. -/
structure Normalizes {ι α : Type} (read : ι → Except ShapeFault α) (form : ι → Prop)
    (write : α → ι) (final : α → Prop) : Prop where
  accepts : ∀ j, (∃ a, read j = .ok a) ↔ form j
  final_of_read : ∀ j a, read j = .ok a → final a
  read_write : ∀ a, final a → read (write a) = .ok a

namespace Normalizes

variable {ι α : Type} {read : ι → Except ShapeFault α} {form : ι → Prop} {write : α → ι}
  {final : α → Prop}

/-- A reader that reads a value exactly from what is written of it. -/
theorem of_eq_ok (h : ∀ j a, read j = .ok a ↔ j = write a) :
    Normalizes read (fun j => ∃ a, j = write a) write fun _ => True where
  accepts j := exists_congr (h j)
  final_of_read _ _ _ := trivial
  read_write a _ := (h _ a).mpr rfl

theorem congr_form {form' : ι → Prop} (h : Normalizes read form write final)
    (hform : ∀ j, form j ↔ form' j) : Normalizes read form' write final :=
  ⟨fun j => (h.accepts j).trans (hform j), h.final_of_read, h.read_write⟩

end Normalizes

namespace SpecializationFile

open Json (IsObject IsString IsStringMap IsStringList IsRule IsRuleList IsDefaults present)

theorem readOptional_eq_ok {α : Type} {read : Json → Except ShapeFault α} {o : Option Json}
    {a : Option α} : readOptional read o = .ok a ↔
      (o = none ∧ a = none) ∨ ∃ j value, o = some j ∧ a = some value ∧ read j = .ok value := by
  cases o with
  | none => cases a <;> simp [readOptional]
  | some j => cases hread : read j <;> cases a <;> simp [readOptional, hread]

/-- A member that may be absent is of the form of its reader if it is there. -/
theorem normalizes_optional {α : Type} {read : Json → Except ShapeFault α} {form : Json → Prop}
    {write : α → Json} {final : α → Prop} (h : Normalizes read form write final) :
    Normalizes (readOptional read) (fun o => ∀ value ∈ o, form value) (Option.map write)
      fun a => ∀ value ∈ a, final value where
  accepts o := by
    simp only [readOptional_eq_ok]
    cases o with
    | none => simp
    | some j =>
      simp only [Option.mem_def, Option.some.injEq, forall_eq', ← h.accepts j]
      simp
  final_of_read o a hread := by
    rcases readOptional_eq_ok.mp hread with ⟨-, rfl⟩ | ⟨j, value, -, rfl, hvalue⟩
    · simp
    · rintro _ ⟨⟩
      exact h.final_of_read j value hvalue
  read_write a ha := by
    cases a with
    | none => rfl
    | some value =>
      exact readOptional_eq_ok.mpr (.inr ⟨_, _, rfl, rfl, h.read_write value (ha value rfl)⟩)

/-! ## Maps of strings -/

theorem readEntries_eq_ok {key : Text} {m m' : PropertyMap Text} {members : List (Text × Json)} :
    readEntries key m members = .ok m' ↔ ∃ entries : List (Text × Text),
      members = entries.map (fun a => (a.1, .string a.2))
        ∧ entries.foldl (fun m a => m.assign a.1 a.2) m = m' := by
  induction members generalizing m with
  | nil => simp [readEntries]
  | cons a members ih =>
    obtain ⟨entry, value⟩ := a
    constructor
    · intro h
      cases value with
      | string t =>
        obtain ⟨entries, rfl, rfl⟩ := ih.mp h
        exact ⟨(entry, t) :: entries, rfl, rfl⟩
      | _ => cases h
    · rintro ⟨entries, hentries, hm⟩
      obtain ⟨⟨entry', t⟩, rest, rfl, hentry, rfl⟩ := List.map_eq_cons_iff.mp hentries.symm
      obtain ⟨rfl, rfl⟩ := Prod.mk.inj hentry
      exact ih.mpr ⟨rest, rfl, hm⟩

theorem readMap_eq_ok {key : Text} {j : Json} {m : PropertyMap Text} :
    readMap key j = .ok m ↔ ∃ entries : List (Text × Text),
      j = .object (entries.map fun a => (a.1, .string a.2))
        ∧ entries.foldl (fun m a => m.assign a.1 a.2) .empty = m := by
  cases j with
  | object members => simp [readMap, readEntries_eq_ok]
  | _ => simp [readMap]

theorem normalizes_map (key : Text) :
    Normalizes (readMap key) IsStringMap mapJson PropertyMap.Assigned where
  accepts j := by
    rw [Json.isStringMap_iff]
    simp only [readMap_eq_ok]
    constructor
    · rintro ⟨_, entries, rfl, -⟩
      exact ⟨entries, rfl⟩
    · rintro ⟨entries, rfl⟩
      exact ⟨_, entries, rfl, rfl⟩
  final_of_read j m h := by
    obtain ⟨entries, -, rfl⟩ := readMap_eq_ok.mp h
    exact PropertyMap.assigned_assignAll entries
  read_write m hm := readMap_eq_ok.mpr ⟨m.entries, rfl, hm.assignAll_entries⟩

theorem normal_mapJson {m : PropertyMap Text} (h : m.Lawful) : (mapJson m).Normal := by
  have hkeys : (m.entries.map fun a => (a.1, Json.string a.2)).map (·.1) = m.keys := by
    rw [List.map_map]
    rfl
  refine .object (PropertyMap.lawful_of_keys m.keys hkeys ⟨h.distinct, h.ordered⟩) ?_
  refine List.forall_mem_map.mpr fun a _ => ?_
  exact .string a.2

/-! ## Rules and defaults -/

theorem readFormat_eq_ok {j : Json} {t : Text} : readFormat j = .ok t ↔ j = .string t := by
  cases j <;> simp [readFormat]

theorem normalizes_format : Normalizes readFormat IsString .string fun _ => True :=
  .of_eq_ok fun _ _ => readFormat_eq_ok

theorem readCapture_eq_ok {j : Json} {names : List Text} :
    readCapture j = .ok names ↔ j = .array (names.map .string) := by
  cases j with
  | array items =>
    rw [Json.array.injEq, ← Json.mapM_string?_eq_some, readCapture]
    cases items.mapM Json.string? <;> simp
  | _ => simp [readCapture]

theorem normalizes_capture :
    Normalizes readCapture IsStringList (fun names => .array (names.map .string)) fun _ => True :=
  (Normalizes.of_eq_ok fun _ _ => readCapture_eq_ok).congr_form fun _ =>
    Json.isStringList_iff.symm

theorem readRule_eq_ok {key : Text} {index : Nat} {j : Json} {r : ReplaceRule} :
    readRule key index j = .ok r ↔ j.member? (text "pattern") = some (.string r.pattern)
      ∧ j.member? (text "replacement") = some (.string r.replacement)
      ∧ j.member? (text "flags") = r.flags.map .string := by
  obtain ⟨pattern, replacement, flags⟩ := r
  have hstring (o : Option Json) (t : Text) :
      o.bind Json.string? = some t ↔ o = some (.string t) := by
    cases o with
    | none => simp
    | some j => simp [Json.string?_eq_some]
  rw [← hstring, ← hstring]
  unfold readRule
  cases (j.member? (text "pattern")).bind Json.string? with
  | none => simp
  | some p =>
    cases (j.member? (text "replacement")).bind Json.string? with
    | none => simp
    | some r =>
      cases j.member? (text "flags") with
      | none => cases flags <;> simp
      | some value => cases value <;> cases flags <;> simp

/-- The members of the value of a rule. -/
def ruleMembers (r : ReplaceRule) : List (Text × Option Json) :=
  [(text "pattern", some (.string r.pattern)),
    (text "replacement", some (.string r.replacement)),
    (text "flags", r.flags.map .string)]

theorem optionalMember_eq {α : Type} (key : String) (write : α → Json) (value : Option α) :
    optionalMember key write value = present [(text key, value.map write)] := by
  cases value <;> rfl

theorem hasMembers_ruleJson (r : ReplaceRule) : (ruleJson r).HasMembers (ruleMembers r) := by
  refine Json.hasMembers_of_keys [text "pattern", text "replacement", text "flags"] ?_ rfl
    (by decide)
  rw [ruleJson, optionalMember_eq]
  rfl

theorem normalizes_rule (key : Text) (index : Nat) :
    Normalizes (readRule key index) IsRule ruleJson fun _ => True where
  accepts j := by
    simp only [readRule_eq_ok]
    constructor
    · rintro ⟨r, hpattern, hreplacement, hflags⟩
      refine ⟨?_, ⟨_, hpattern, _, rfl⟩, ⟨_, hreplacement, _, rfl⟩,
        Json.forall_mem_exists_eq_iff.mpr ⟨_, hflags⟩⟩
      exact Json.isObject_of_member? hpattern
    · rintro ⟨-, ⟨_, hpattern, pattern, rfl⟩, ⟨_, hreplacement, replacement, rfl⟩, hflags⟩
      obtain ⟨flags, hflags⟩ := Json.forall_mem_exists_eq_iff.mp hflags
      exact ⟨⟨pattern, replacement, flags⟩, hpattern, hreplacement, hflags⟩
  final_of_read _ _ _ := trivial
  read_write r _ := by
    rw [readRule_eq_ok]
    simp only [(hasMembers_ruleJson r).member?_eq]
    exact ⟨rfl, rfl, rfl⟩

theorem readRulesFrom_cons_eq_ok {key : Text} {index : Nat} {rule : Json} {rest : List Json}
    {rs : List ReplaceRule} : readRulesFrom key index (rule :: rest) = .ok rs ↔
      ∃ r more, readRule key index rule = .ok r ∧ readRulesFrom key (index + 1) rest = .ok more
        ∧ r :: more = rs := by
  rw [readRulesFrom]
  cases readRule key index rule with
  | error e => simp
  | ok r => cases readRulesFrom key (index + 1) rest <;> simp

theorem normalizes_rulesFrom (key : Text) (index : Nat) :
    Normalizes (readRulesFrom key index) (fun rules => ∀ rule ∈ rules, rule.IsRule)
      (List.map ruleJson) fun _ => True where
  accepts rules := by
    induction rules generalizing index with
    | nil => simp [readRulesFrom]
    | cons rule rest ih =>
      rw [List.forall_mem_cons, ← (normalizes_rule key index).accepts, ← ih (index + 1)]
      simp only [readRulesFrom_cons_eq_ok]
      constructor
      · rintro ⟨_, r, more, hr, hmore, rfl⟩
        exact ⟨⟨r, hr⟩, more, hmore⟩
      · rintro ⟨⟨r, hr⟩, more, hmore⟩
        exact ⟨_, r, more, hr, hmore, rfl⟩
  final_of_read _ _ _ := trivial
  read_write rs _ := by
    induction rs generalizing index with
    | nil => rfl
    | cons r rs ih =>
      have hr := (normalizes_rule key index).read_write r trivial
      exact readRulesFrom_cons_eq_ok.mpr ⟨r, rs, hr, ih (index + 1), rfl⟩

theorem normalizes_rules (key : Text) :
    Normalizes (readRules key) IsRuleList rulesJson fun _ => True where
  accepts j := by
    have hrules := normalizes_rulesFrom key 0
    unfold IsRuleList
    cases j with
    | array rules => simpa [readRules] using hrules.accepts rules
    | _ => simp [readRules]
  final_of_read _ _ _ := trivial
  read_write rs := (normalizes_rulesFrom key 0).read_write rs

theorem normal_ruleJson (r : ReplaceRule) : (ruleJson r).Normal := by
  refine (hasMembers_ruleJson r).normal ?_
  simp only [ruleMembers, List.forall_mem_cons, Option.forall_mem_map, Option.mem_some_iff,
    forall_eq']
  exact ⟨.string _, .string _, fun t _ => .string t, by simp⟩

theorem normal_rulesJson (rs : List ReplaceRule) : (rulesJson rs).Normal :=
  .array (List.forall_mem_map.mpr fun r _ => normal_ruleJson r)

theorem readDefaults_eq_ok {j : Json} {d : FileDefaults} : readDefaults j = .ok d ↔ j.IsObject
    ∧ readOptional readFormat (j.member? (text "format")) = .ok d.format
    ∧ readOptional readCapture (j.member? (text "capture")) = .ok d.capture := by
  obtain ⟨format, capture⟩ := d
  cases j with
  | object members =>
    rw [readDefaults]
    cases readOptional readFormat ((Json.object members).member? (text "format")) with
    | error e => simp
    | ok f =>
      cases readOptional readCapture ((Json.object members).member? (text "capture")) with
      | error e => simp
      | ok c => simp [IsObject]
  | _ => simp [readDefaults, IsObject]

def defaultsMembers (d : FileDefaults) : List (Text × Option Json) :=
  [(text "format", d.format.map .string),
    (text "capture", d.capture.map fun names => .array (names.map .string))]

theorem hasMembers_defaultsJson (d : FileDefaults) :
    (defaultsJson d).HasMembers (defaultsMembers d) := by
  refine Json.hasMembers_of_keys [text "format", text "capture"] ?_ rfl (by decide)
  rw [defaultsJson, optionalMember_eq, optionalMember_eq, ← Json.present_append]
  rfl

theorem normalizes_defaults :
    Normalizes readDefaults IsDefaults defaultsJson fun _ => True where
  accepts j := by
    have hformat := (normalizes_optional normalizes_format).accepts (j.member? (text "format"))
    have hcapture := (normalizes_optional normalizes_capture).accepts (j.member? (text "capture"))
    simp only [readDefaults_eq_ok]
    constructor
    · rintro ⟨d, hobject, hf, hc⟩
      exact ⟨hobject, hformat.mp ⟨_, hf⟩, hcapture.mp ⟨_, hc⟩⟩
    · rintro ⟨hobject, hf, hc⟩
      obtain ⟨format, hf⟩ := hformat.mpr hf
      obtain ⟨capture, hc⟩ := hcapture.mpr hc
      exact ⟨⟨format, capture⟩, hobject, hf, hc⟩
  final_of_read _ _ _ := trivial
  read_write d _ := by
    simp only [readDefaults_eq_ok, (hasMembers_defaultsJson d).member?_eq]
    exact ⟨⟨_, rfl⟩, (normalizes_optional normalizes_format).read_write d.format (by simp),
      (normalizes_optional normalizes_capture).read_write d.capture (by simp)⟩

theorem normal_defaultsJson (d : FileDefaults) : (defaultsJson d).Normal := by
  refine (hasMembers_defaultsJson d).normal ?_
  simp only [defaultsMembers, List.forall_mem_cons, Option.forall_mem_map]
  exact ⟨fun t _ => .string t, fun names _ => .array (List.forall_mem_map.mpr fun t _ => .string t),
    by simp⟩

/-! ## Files -/

theorem normalizes_name : Normalizes readName
    (fun o => ∃ name, o = some (.string name) ∧ Text.trim name ≠ [])
    (fun name => some (.string name)) fun name => Text.trim name ≠ [] := by
  have hread (o : Option Json) (name : Text) :
      readName o = .ok name ↔ o = some (.string name) ∧ Text.trim name ≠ [] := by
    rw [Ne, Text.trim_eq_nil]
    constructor
    · intro h
      unfold readName at h
      split at h
      · split at h
        · cases h
        · rename_i hname
          cases h
          exact ⟨rfl, hname⟩
      · cases h
    · rintro ⟨rfl, hname⟩
      exact if_neg hname
  exact ⟨fun o => exists_congr (hread o), fun o name h => ((hread o name).mp h).2,
    fun name h => (hread _ name).mpr ⟨rfl, h⟩⟩

theorem normalizes_tokens : Normalizes readTokens (fun o => ∃ value ∈ o, value.IsStringMap)
    (fun m => some (mapJson m)) PropertyMap.Assigned where
  accepts o := by
    cases o with
    | none => simp [readTokens]
    | some j => simpa [readTokens] using (normalizes_map (text "tokens")).accepts j
  final_of_read o m h := by
    cases o with
    | none => cases h
    | some j => exact (normalizes_map (text "tokens")).final_of_read j m h
  read_write := (normalizes_map (text "tokens")).read_write

theorem ofJson_eq_ok {d : Json} {f : SpecializationFile} : ofJson d = .ok f ↔ d.IsObject
    ∧ readName (d.member? (text "name")) = .ok f.name
    ∧ readTokens (d.member? (text "tokens")) = .ok f.tokens
    ∧ readOptional readDefaults (d.member? (text "defaults")) = .ok f.defaults
    ∧ readOptional (readMap (text "aliases")) (d.member? (text "aliases")) = .ok f.aliases
    ∧ readOptional (readRules (text "preprocess")) (d.member? (text "preprocess"))
      = .ok f.preprocess
    ∧ readOptional (readRules (text "postprocess")) (d.member? (text "postprocess"))
      = .ok f.postprocess
    ∧ (d.member? (text "description")).bind Json.string? = f.description := by
  constructor
  · intro h
    unfold ofJson at h
    split at h
    · repeat' split at h
      all_goals cases h
      rename_i hname _ _ htokens _ _ hdefaults _ _ haliases _ _ hpre _ _ hpost
      exact ⟨⟨_, rfl⟩, hname, htokens, hdefaults, haliases, hpre, hpost, rfl⟩
    · cases h
  · rintro ⟨⟨members, rfl⟩, hname, htokens, hdefaults, haliases, hpre, hpost, hdescription⟩
    rw [ofJson, hname]
    dsimp only
    rw [htokens]
    dsimp only
    rw [hdefaults, haliases, hpre, hpost, hdescription]

/-- The members of the value of a file. -/
def members (f : SpecializationFile) : List (Text × Option Json) :=
  [(text "name", some (.string f.name)), (text "description", f.description.map .string),
    (text "tokens", some (mapJson f.tokens)), (text "aliases", f.aliases.map mapJson),
    (text "defaults", f.defaults.map defaultsJson), (text "preprocess", f.preprocess.map rulesJson),
    (text "postprocess", f.postprocess.map rulesJson)]

theorem hasMembers_toJson (f : SpecializationFile) : f.toJson.HasMembers f.members := by
  have hthere (key : Text) (value : Json) : [(key, value)] = present [(key, some value)] := rfl
  refine Json.hasMembers_of_keys [text "name", text "description", text "tokens", text "aliases",
    text "defaults", text "preprocess", text "postprocess"] ?_ rfl (by decide)
  simp only [toJson, optionalMember_eq, hthere, ← Json.present_append]
  rfl

/-- A file whose name is not blank, and whose maps can come about by assignments. -/
structure Canonical (f : SpecializationFile) : Prop where
  name : Text.trim f.name ≠ []
  tokens : f.tokens.Assigned
  aliases : ∀ m ∈ f.aliases, m.Assigned

theorem normalizes_ofJson : Normalizes ofJson Json.IsSpecialization toJson Canonical where
  accepts d := by
    constructor
    · rintro ⟨f, h⟩
      obtain ⟨hobject, hname, htokens, hdefaults, haliases, hpre, hpost, -⟩ := ofJson_eq_ok.mp h
      exact ⟨hobject, (normalizes_name.accepts _).mp ⟨_, hname⟩,
        (normalizes_tokens.accepts _).mp ⟨_, htokens⟩,
        ((normalizes_optional (normalizes_map _)).accepts _).mp ⟨_, haliases⟩,
        ((normalizes_optional normalizes_defaults).accepts _).mp ⟨_, hdefaults⟩,
        ((normalizes_optional (normalizes_rules _)).accepts _).mp ⟨_, hpre⟩,
        ((normalizes_optional (normalizes_rules _)).accepts _).mp ⟨_, hpost⟩⟩
    · intro h
      obtain ⟨name, hname⟩ := (normalizes_name.accepts _).mpr h.name
      obtain ⟨tokens, htokens⟩ := (normalizes_tokens.accepts _).mpr h.tokens
      obtain ⟨aliases, haliases⟩ :=
        ((normalizes_optional (normalizes_map (text "aliases"))).accepts _).mpr h.aliases
      obtain ⟨defaults, hdefaults⟩ :=
        ((normalizes_optional normalizes_defaults).accepts _).mpr h.defaults
      obtain ⟨preprocess, hpre⟩ :=
        ((normalizes_optional (normalizes_rules (text "preprocess"))).accepts _).mpr h.preprocess
      obtain ⟨postprocess, hpost⟩ :=
        ((normalizes_optional (normalizes_rules (text "postprocess"))).accepts _).mpr h.postprocess
      exact ⟨⟨name, _, tokens, aliases, defaults, preprocess, postprocess⟩,
        ofJson_eq_ok.mpr ⟨h.object, hname, htokens, hdefaults, haliases, hpre, hpost, rfl⟩⟩
  final_of_read d f h := by
    obtain ⟨-, hname, htokens, -, haliases, -, -, -⟩ := ofJson_eq_ok.mp h
    exact ⟨normalizes_name.final_of_read _ _ hname, normalizes_tokens.final_of_read _ _ htokens,
      (normalizes_optional (normalizes_map _)).final_of_read _ _ haliases⟩
  read_write f h := by
    simp only [ofJson_eq_ok, f.hasMembers_toJson.member?_eq]
    refine ⟨⟨_, rfl⟩, normalizes_name.read_write f.name h.name,
      normalizes_tokens.read_write f.tokens h.tokens,
      (normalizes_optional normalizes_defaults).read_write f.defaults (by simp),
      (normalizes_optional (normalizes_map _)).read_write f.aliases h.aliases,
      (normalizes_optional (normalizes_rules _)).read_write f.preprocess (by simp),
      (normalizes_optional (normalizes_rules _)).read_write f.postprocess (by simp), ?_⟩
    change (f.description.map Json.string).bind Json.string? = f.description
    cases f.description <;> rfl

theorem normal_toJson {f : SpecializationFile} (h : f.Canonical) : f.toJson.Normal := by
  refine f.hasMembers_toJson.normal ?_
  simp only [members, List.forall_mem_cons, Option.forall_mem_map, Option.mem_some_iff,
    forall_eq']
  exact ⟨.string _, fun t _ => .string t, normal_mapJson h.tokens.lawful,
    fun m hm => normal_mapJson (h.aliases m hm).lawful, fun d _ => normal_defaultsJson d,
    fun rs _ => normal_rulesJson rs, fun rs _ => normal_rulesJson rs, by simp⟩

/-- A value is read if and only if it has the form of a specialization. What is read from it is in
its final form: it is written as JSON without the members that are absent, this is the value of its
text, and from that value it is read again, with the same entries in the same order. -/
theorem ofJson_normalizes (d : Json) :
    ((∃ f, ofJson d = .ok f) ↔ d.IsSpecialization)
      ∧ ∀ f, ofJson d = .ok f → f.Canonical ∧ ofJson f.toJson = .ok f
        ∧ Json.read? (Json.writeIndented f.toJson) = some f.toJson := by
  refine ⟨normalizes_ofJson.accepts d, fun f h => ?_⟩
  have hfinal := normalizes_ofJson.final_of_read d f h
  exact ⟨hfinal, normalizes_ofJson.read_write f hfinal, (normal_toJson hfinal).read?_writeIndented⟩

/-- A value with tokens that are not in their order, one of which cannot be assigned, with defaults
that have no members, a rule without flags, and members that are not read. -/
def crowded : Json :=
  .object
    [(text "version", .ofNat 2), (text "name", .string (text " web")),
      (text "description", .bool true),
      (text "tokens", .object
        [(text "%b", .string (text "$b$y")), (text "10", .string (text "$a$x")),
          (text "__proto__", .string (text "z")), (text "9", .string (text "w"))]),
      (text "defaults", .object []),
      (text "preprocess", .array
        [.object [(text "replacement", .string []), (text "pattern", .string (text "q"))]])]

/-- What is read from it. -/
def tidy : SpecializationFile where
  name := text " web"
  description := none
  tokens := ⟨[(text "9", text "w"), (text "10", text "$a$x"), (text "%b", text "$b$y")]⟩
  aliases := none
  defaults := some ⟨none, none⟩
  preprocess := some [⟨text "q", [], none⟩]
  postprocess := none

theorem crowded_normalizes : crowded.IsSpecialization ∧ ofJson crowded = .ok tidy
    ∧ tidy.Canonical ∧ ofJson tidy.toJson = .ok tidy
    ∧ Json.read? (Json.writeIndented tidy.toJson) = some tidy.toJson := by
  have hread : ofJson crowded = .ok tidy := by rfl
  have h := ofJson_normalizes crowded
  exact ⟨h.1.mp ⟨tidy, hread⟩, hread, h.2 tidy hread⟩

end SpecializationFile

end LogTemplate
