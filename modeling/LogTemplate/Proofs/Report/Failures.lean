import LogTemplate.Proofs.Files.Tree
import LogTemplate.Proofs.Json.Encoding
import LogTemplate.Proofs.Pattern.Names
import LogTemplate.Report.Failures

/-!
# LogTemplate.Proofs.Report.Failures

A report of unmatched lines can be read back.

* `FailureRecord`, `FailureDocument` — what a reader takes from a report.
* `UnmatchedLine.Reaches` — the names that the tracer reported for a line, if it was traced.
* `FailureReport.normal_toJson` — the document of a report is a normal value.
* `FailureReport.read_render` — what is read from a report that was written is what went into it.
-/

namespace LogTemplate

/-! ## What a reader takes from a report -/

/-- One failure of a report. -/
structure FailureRecord where
  lineIndex : Int
  rawLog : Text
  reachedFields : Option (List Text)
deriving Repr, DecidableEq

/-- A list of strings that may be left out. -/
def Json.optionalStrings? : Option Json → Option (Option (List Text))
  | none => some none
  | some (.array items) => (items.mapM Json.string?).map some
  | some _ => none

def FailureRecord.ofJson? (item : Json) : Option FailureRecord :=
  match (item.member? (text "lineIndex")).bind Json.int?,
    (item.member? (text "rawLog")).bind Json.string?,
    Json.optionalStrings? (item.member? (text "reachedFields")) with
  | some lineIndex, some rawLog, some reachedFields => some ⟨lineIndex, rawLog, reachedFields⟩
  | _, _, _ => none

/-- What lines were matched against. -/
structure FailureContext where
  specialization : Text
  format : Text
  pattern : Text
deriving Repr, DecidableEq

def FailureContext.labelled (c : FailureContext) : List (Text × Text) :=
  [(text "specialization", c.specialization), (text "format", c.format),
    (text "pattern", c.pattern)]

/-- The members of a report. -/
structure FailureDocument where
  context : FailureContext
  totalFailures : Int
  failures : List FailureRecord
deriving Repr, DecidableEq

def FailureContext.ofJson? (document : Json) : Option FailureContext :=
  match (document.member? (text "specialization")).bind Json.string?,
    (document.member? (text "format")).bind Json.string?,
    (document.member? (text "pattern")).bind Json.string? with
  | some specialization, some format, some pattern => some ⟨specialization, format, pattern⟩
  | _, _, _ => none

def FailureDocument.ofJson? (document : Json) : Option FailureDocument :=
  match FailureContext.ofJson? document,
    (document.member? (text "totalFailures")).bind Json.int?,
    document.member? (text "failures") with
  | some context, some totalFailures, some (.array items) =>
    (items.mapM FailureRecord.ofJson?).map fun failures => ⟨context, totalFailures, failures⟩
  | _, _, _ => none

/-! ## Lines and their records -/

/-- The names that the tracer reported for the line: none at all if it was not traced, and else
those for the text that its trace was written about. -/
inductive UnmatchedLine.Reaches (line : UnmatchedLine) : Option (List Text) → Prop where
  | untraced (h : line.trace = none) : Reaches line none
  | traced {resolved : ResolvedTemplate} {comments : Bool} {sink : TraceSink}
    {p : CompiledPattern} {t : Tracer} {log : Text}
    (hp : CompiledPattern.assemble resolved comments true sink = .ok p)
    (ht : p.tracer = some t) (h : line.trace = some (p.exec log).written) :
    Reaches line (some (t.names log))

/-- The record of a line. -/
def UnmatchedLine.record (line : UnmatchedLine) (reached : Option (List Text)) : FailureRecord :=
  ⟨line.index, line.raw, reached⟩

theorem UnmatchedLine.Reaches.reachedFields_eq {line : UnmatchedLine}
    {reached : Option (List Text)} (h : line.Reaches reached) : line.reachedFields = reached := by
  unfold reachedFields
  cases h with
  | untraced h => rw [h]; rfl
  | traced hp ht h =>
    rw [h, Option.map_some, CompiledPattern.words_written hp ht]

theorem mapM_map_eq {α β γ : Type} {write : α → β} {read : β → Option γ} {value : α → γ}
    (h : ∀ a, read (write a) = some (value a)) (l : List α) :
    (l.map write).mapM read = some (l.map value) := by
  induction l with
  | nil => rfl
  | cons a l ih => simp [h, ih]

theorem Json.int?_ofInt (z : Int) : (Json.ofInt z).int? = some z := by
  simp [Json.ofInt, Json.int?]

namespace UnmatchedLine

theorem ofJson?_toJson (line : UnmatchedLine) :
    FailureRecord.ofJson? line.toJson = some (line.record line.reachedFields) := by
  have hindex : line.toJson.member? (text "lineIndex") = some (.ofInt line.index) := by
    unfold toJson
    cases line.reachedFields <;> rfl
  have hraw : line.toJson.member? (text "rawLog") = some (.string line.raw) := by
    unfold toJson
    cases line.reachedFields <;> rfl
  have hreached : Json.optionalStrings? (line.toJson.member? (text "reachedFields"))
      = some line.reachedFields := by
    unfold toJson
    cases line.reachedFields with
    | none => rfl
    | some names =>
      have hstring (name : Text) : (Json.string name).string? = some (id name) := rfl
      change ((names.map Json.string).mapM Json.string?).map some = some (some names)
      rw [mapM_map_eq hstring, List.map_id]
      rfl
  unfold FailureRecord.ofJson?
  rw [hindex, hraw, hreached]
  simp only [Option.bind_some, Json.int?_ofInt]
  rfl

theorem normal_toJson (line : UnmatchedLine) : line.toJson.Normal := by
  unfold toJson
  cases line.reachedFields with
  | none =>
    refine .object (PropertyMap.lawful_of_keys [text "lineIndex", text "rawLog"] rfl
      (by decide)) ?_
    simp only [List.append_nil, List.forall_mem_cons]
    exact ⟨.number line.index 0, .string line.raw, by simp⟩
  | some names =>
    have hnames : (Json.array (names.map .string)).Normal := .array fun item hitem => by
      obtain ⟨name, -, rfl⟩ := List.mem_map.mp hitem
      exact .string name
    refine .object (PropertyMap.lawful_of_keys
      [text "lineIndex", text "rawLog", text "reachedFields"] rfl (by decide)) ?_
    simp only [List.cons_append, List.nil_append, List.forall_mem_cons]
    exact ⟨.number line.index 0, .string line.raw, hnames, by simp⟩

end UnmatchedLine

namespace FailureReport

variable {context : FailureContext} {failures : List UnmatchedLine} {timestamp : Text}

/-- The members of the document of a report. -/
def members (timestamp : Text) (context : FailureContext) (failures : List UnmatchedLine) :
    List (Text × Json) :=
  [(text "timestamp", .string timestamp),
    (text "specialization", .string context.specialization),
    (text "format", .string context.format), (text "pattern", .string context.pattern),
    (text "totalFailures", .ofNat failures.length),
    (text "failures", .array (failures.map UnmatchedLine.toJson))]

theorem lawful_members :
    (⟨members timestamp context failures⟩ : PropertyMap Json).Lawful :=
  PropertyMap.lawful_of_keys [text "timestamp", text "specialization", text "format",
    text "pattern", text "totalFailures", text "failures"] rfl (by decide)

theorem toJson_eq : toJson timestamp ⟨context.labelled, failures⟩
    = .object (members timestamp context failures) := by
  have hlawful : (⟨members timestamp context failures⟩ : PropertyMap Json).Lawful := lawful_members
  exact congrArg (fun m => Json.object m.entries) hlawful.ofList_entries

theorem normal_toJson : (toJson timestamp ⟨context.labelled, failures⟩).Normal := by
  have hfailures : (Json.array (failures.map UnmatchedLine.toJson)).Normal :=
    .array fun item hitem => by
      obtain ⟨line, -, rfl⟩ := List.mem_map.mp hitem
      exact line.normal_toJson
  rw [toJson_eq]
  refine .object lawful_members ?_
  simp only [members, List.forall_mem_cons]
  exact ⟨.string _, .string _, .string _, .string _, .number _ _, hfailures, by simp⟩

theorem ofJson?_toJson :
    FailureDocument.ofJson? (toJson timestamp ⟨context.labelled, failures⟩)
      = some ⟨context, failures.length,
        failures.map fun line => line.record line.reachedFields⟩ := by
  rw [toJson_eq]
  have hcontext : FailureContext.ofJson? (.object (members timestamp context failures))
      = some context := rfl
  have htotal : ((Json.object (members timestamp context failures)).member?
      (text "totalFailures")).bind Json.int? = some (failures.length : Int) :=
    Json.int?_ofInt failures.length
  have hfailures : (Json.object (members timestamp context failures)).member? (text "failures")
      = some (.array (failures.map UnmatchedLine.toJson)) := rfl
  unfold FailureDocument.ofJson?
  rw [hcontext, htotal, hfailures]
  dsimp only
  rw [mapM_map_eq UnmatchedLine.ofJson?_toJson]
  rfl

/-- A report that was written to a file is read from it as it was: the context, the number of
failures, and each failure in order with the names that the tracer reported. It can be encoded
whatever the strings in it are. -/
theorem read_render (tree : FileTree) (path timestamp : Text) (context : FailureContext)
    {reached : List (Option (List Text))}
    (h : List.Forall₂ UnmatchedLine.Reaches failures reached) :
    Text.isPaired (render timestamp ⟨context.labelled, failures⟩) = true
      ∧ (((tree.write path (render timestamp ⟨context.labelled, failures⟩)).read? path).bind
          Json.read?).bind FailureDocument.ofJson?
        = some
          ⟨context, failures.length, List.zipWith UnmatchedLine.record failures reached⟩ := by
  have hrecords : failures.map (fun line => line.record line.reachedFields)
      = List.zipWith UnmatchedLine.record failures reached := by
    induction h with
    | nil => rfl
    | cons hline _ ih => rw [List.map_cons, List.zipWith_cons_cons, ih, hline.reachedFields_eq]
  refine ⟨Json.isPaired_writeAt 0 _, ?_⟩
  rw [FileTree.read?_write, Option.bind_some, render, normal_toJson.read?_writeIndented,
    Option.bind_some, ofJson?_toJson, hrecords]

/-- A pattern with two fields. -/
def twoFields : ResolvedTemplate where
  marked := text "((?#a)x(?#!a))((?#b)y(?#!b))"
  captured := [text "a", text "b"]

/-- A line that was not traced, and one in which the tracer reached the end of the first field. -/
theorem read_partly_reached : ∃ p t,
    CompiledPattern.assemble twoFields false true .buffer = .ok p ∧ p.tracer = some t
      ∧ t.names (text "xz") = [text "a"]
      ∧ (((((FileTree.empty Path.root).write (text "/failures.json") (render (text "now")
            ⟨FailureContext.labelled ⟨text "s", text "%a%b", p.source⟩,
              [⟨1, text "\"\\", none⟩, ⟨2, text "xz", some (p.exec (text "xz")).written⟩]⟩)).read?
            (text "/failures.json")).bind Json.read?).bind FailureDocument.ofJson?)
        = some ⟨⟨text "s", text "%a%b", p.source⟩, 2,
          [⟨1, text "\"\\", none⟩, ⟨2, text "xz", some [text "a"]⟩]⟩ := by
  have hrun : ((CompiledPattern.assemble twoFields false true .buffer).toOption.any fun p =>
      p.tracer.any fun t => decide (t.names (text "xz") = [text "a"])) = true := by cbv
  simp only [Option.any_eq_true, decide_eq_true_eq] at hrun
  obtain ⟨p, hp, t, ht, hnames⟩ := hrun
  have hp := eq_ok_of_toOption hp
  have hreached : List.Forall₂ UnmatchedLine.Reaches
      [⟨1, text "\"\\", none⟩, ⟨2, text "xz", some (p.exec (text "xz")).written⟩]
      [none, some (t.names (text "xz"))] :=
    .cons (.untraced rfl) (.cons (.traced hp ht rfl) .nil)
  obtain ⟨-, hread⟩ := read_render (FileTree.empty Path.root) (text "/failures.json") (text "now")
    ⟨text "s", text "%a%b", p.source⟩ hreached
  rw [hnames] at hread
  exact ⟨p, t, hp, ht, hnames, hread⟩

end FailureReport

end LogTemplate
