import LogTemplate.MatchRun
import LogTemplate.Proofs.Batches
import LogTemplate.Proofs.OneToken
import LogTemplate.Proofs.Pattern.Kept
import LogTemplate.Proofs.Report.Csv

/-!
# LogTemplate.Proofs.MatchRun

What a run makes of the selected lines, whatever the size of its batches is.

* `MatchRun.Executes`, `MatchRun.resultOf` — a line that is matched on its own.
* `Matcher.Fresh`, `Fresh.line`, `Fresh.lines` — no line leaves anything to the next one.
* `Progress.Past`, `Past.batch`, `Past.run` — what is known after the lines of some batches.
* `MatchRun.table` — the rows of a report, before they are encoded.
* `Outcome.Reports`, `run_reports` — a finished run accounts for every selected line.
-/

namespace LogTemplate

namespace MatchRun

/-! ## One line -/

/-- Matching the line ends with an answer. -/
def Executes (p : CompiledPattern) (line : LogLine) : Prop :=
  ∃ found, (p.exec line.raw).result = .ok found

/-- The match of a line, if there is one. -/
def found? (p : CompiledPattern) (line : LogLine) : Option FieldMatch :=
  (p.exec line.raw).result.toOption.join

/-- The lines that the pattern accepts. -/
def accepted (p : CompiledPattern) (lines : List LogLine) : List LogLine :=
  lines.filter fun line => (found? p line).isSome

/-- The lines that it does not accept. -/
def refused (p : CompiledPattern) (lines : List LogLine) : List LogLine :=
  lines.filter fun line => (found? p line).isNone

/-- A line that did not match, with what was written about it. -/
def entryOf (p : CompiledPattern) (traced : Bool) (line : LogLine) : UnmatchedLine :=
  ⟨line.index, line.raw, if traced then some (p.exec line.raw).written else none⟩

def resultOf (p : CompiledPattern) (traced : Bool) (line : LogLine) : LineResult :=
  match found? p line with
  | some fields => .matched line fields
  | none => .unmatched (entryOf p traced line)

variable {p : CompiledPattern} {traced : Bool}

/-- The pattern writes its traces where the run looks for them. -/
structure Suits (p : CompiledPattern) (traced : Bool) : Prop where
  sink : p.sink = .buffer
  tracer : traced = false → p.tracer = none

theorem Suits.written (h : Suits p traced) (htraced : traced = false) (line : Text) :
    (p.exec line).written = [] := by
  unfold CompiledPattern.exec
  rw [h.tracer htraced]

theorem suits_of_compile {r : Request} (h : r.session.compile.1 = .ok p) : Suits p r.trace := by
  obtain ⟨resolved, -, hassemble⟩ := Session.compile_eq_ok h
  have hsink := CompiledPattern.assemble_sink resolved false r.trace .buffer .buffer
  refine ⟨?_, (Session.assemble_eq_ok hassemble).2.2⟩
  change CompiledPattern.assemble resolved false r.trace .buffer = .ok p at hassemble
  rw [hassemble] at hsink
  exact congrArg CompiledPattern.sink (Except.ok.inj hsink)

namespace Matcher

/-- A matcher as at the start: nothing is left in the buffer, and the pattern does what it did. -/
structure Fresh (p : CompiledPattern) (traced : Bool) (m : Matcher) : Prop where
  pattern : m.pattern.pattern = p
  faithful : m.pattern.Faithful
  traced : m.traced = traced
  buffer : m.buffer = []

variable {m : Matcher}

/-- A line is matched as on its own, and leaves nothing behind. -/
theorem Fresh.line (h : m.Fresh p traced) (hp : Suits p traced) {line : LogLine}
    (hline : Executes p line) :
    ∃ m', m.line line = .ok (resultOf p traced line, m') ∧ m'.Fresh p traced := by
  obtain ⟨found, hfound⟩ := hline
  obtain ⟨houtcome, hpattern, hfaithful⟩ := h.faithful.exec line.raw
  have hfound? : found? p line = found := by rw [found?, hfound]; rfl
  have hexec : m.pattern.exec line.raw = (p.exec line.raw, (m.pattern.exec line.raw).2) := by
    rw [← h.pattern, ← houtcome]
  have hsink : (m.pattern.exec line.raw).2.pattern.sink = .buffer := by
    rw [hpattern, h.pattern, hp.sink]
  unfold Matcher.line
  rw [hexec]
  dsimp only
  -- the buffer was empty, so what is taken from it was written for this line
  rw [hsink, hfound, h.traced, h.buffer]
  refine ⟨_, congrArg Except.ok (Prod.ext ?_ rfl), hpattern.trans h.pattern, hfaithful, rfl, ?_⟩
  · unfold resultOf entryOf
    rw [hfound?]
    cases found <;> cases traced <;> rfl
  · cases htraced : traced with
    | true => rfl
    | false => exact hp.written htraced line.raw

theorem Fresh.executes_of_line (h : m.Fresh p traced) {line : LogLine}
    {done : LineResult × Matcher} (hdone : m.line line = .ok done) : Executes p line := by
  obtain ⟨houtcome, -, -⟩ := h.faithful.exec line.raw
  unfold Executes
  rw [← h.pattern, ← houtcome]
  unfold Matcher.line at hdone
  dsimp only at hdone
  split at hdone
  · cases hdone
  · rename_i found hfound
    exact ⟨found, hfound⟩

theorem Fresh.lines (hp : Suits p traced) {lines : List LogLine}
    (hlines : ∀ line ∈ lines, Executes p line) : ∀ {m : Matcher}, m.Fresh p traced →
      ∃ m', m.lines lines = .ok (lines.map (resultOf p traced), m') ∧ m'.Fresh p traced := by
  induction lines with
  | nil => exact fun h => ⟨_, rfl, h⟩
  | cons line lines ih =>
    intro m h
    obtain ⟨m₁, hline, h₁⟩ := h.line hp (hlines line (by simp))
    obtain ⟨m₂, hrest, h₂⟩ := ih (fun l hl => hlines l (by simp [hl])) h₁
    refine ⟨m₂, ?_, h₂⟩
    rw [Matcher.lines, hline]
    dsimp only
    rw [hrest]
    rfl

theorem Fresh.executes_of_lines (hp : Suits p traced) {lines : List LogLine} :
    ∀ {m : Matcher}, m.Fresh p traced → ∀ {done : List LineResult × Matcher},
      m.lines lines = .ok done → ∀ line ∈ lines, Executes p line := by
  induction lines with
  | nil => intro m _ done _ line hline; cases hline
  | cons first lines ih =>
    intro m h done hdone line hline
    rw [Matcher.lines] at hdone
    split at hdone
    · cases hdone
    · rename_i result m₁ hfirst
      have hexec := h.executes_of_line hfirst
      obtain ⟨m₁', hfirst', h₁⟩ := h.line hp hexec
      rw [hfirst] at hfirst'
      cases hfirst'
      split at hdone
      · cases hdone
      · rename_i rest m₂ hrest
        cases hline with
        | head => exact hexec
        | tail _ hline => exact ih h₁ hrest line hline

end Matcher

/-! ## Batches -/

/-- The records of the lines that match. -/
def recordsOf (p : CompiledPattern) (lines : List LogLine) : List MatchedLine :=
  lines.filterMap fun line =>
    (found? p line).map fun fields => ⟨line.index, line.raw, fields.values⟩

theorem recordsOf_append (p : CompiledPattern) (lines more : List LogLine) :
    recordsOf p (lines ++ more) = recordsOf p lines ++ recordsOf p more :=
  List.filterMap_append

/-- The results of lines are the records of those that match and the entries of the others. -/
theorem matchedLines_eq (p : CompiledPattern) (traced : Bool) (lines : List LogLine) :
    (lines.map (resultOf p traced)).filterMap LineResult.matchedLine? = recordsOf p lines := by
  rw [List.filterMap_map, recordsOf]
  congr 1
  funext line
  dsimp only [Function.comp, resultOf]
  cases found? p line <;> rfl

theorem unmatchedLines_eq (p : CompiledPattern) (traced : Bool) (lines : List LogLine) :
    (lines.map (resultOf p traced)).filterMap LineResult.unmatchedLine?
      = (refused p lines).map (entryOf p traced) := by
  rw [List.filterMap_map, refused, ← List.filterMap_eq_map, List.filterMap_filter]
  congr 1
  funext line
  dsimp only [Function.comp, resultOf]
  cases found? p line <;> rfl

namespace Progress

/-- What is known of a run behind some lines. -/
structure Past (p : CompiledPattern) (traced : Bool) (lines : List LogLine) (s : Progress) :
    Prop where
  matcher : s.matcher.Fresh p traced
  begun : s.begun = false → lines = []
  report : s.begun = true → s.report = some (Text.encoded (Csv.rendered [Text.comma]
    (Csv.header p.fields :: (recordsOf p lines).map (Csv.row p.fields))))
  failures : s.failures = (refused p lines).map (entryOf p traced)
  matched : s.matched = (recordsOf p lines).length
  processed : s.processed = lines.length

variable {total : Nat} {s : Progress} {done lines : List LogLine}

/-- One batch more. -/
theorem Past.batch (h : s.Past p traced done) (hp : Suits p traced)
    (hlines : ∀ line ∈ lines, Executes p line) :
    ∃ s', s.batch total lines = .ok s' ∧ s'.Past p traced (done ++ lines) := by
  obtain ⟨m, hm, hfresh⟩ := h.matcher.lines hp hlines
  unfold Progress.batch
  rw [hm]
  dsimp only
  rw [matchedLines_eq, unmatchedLines_eq]
  refine ⟨_, rfl, hfresh, (fun hbegun => by cases hbegun), fun _ => ?_, ?_, ?_, ?_⟩
  · rw [hfresh.pattern]
    cases hbegun : s.begun with
    | false =>
      rw [h.begun hbegun, List.nil_append]
      exact Csv.write_first s.report _ _ _
    | true =>
      rw [h.report hbegun]
      refine (Csv.write_more _ _ _ _).trans ?_
      rw [recordsOf_append, List.map_append]
      rfl
  · rw [h.failures, refused, refused, refused, List.filter_append, List.map_append]
  · rw [h.matched, recordsOf_append, List.length_append]
  · rw [h.processed, List.length_append]

theorem Past.executes_of_batch (h : s.Past p traced done) (hp : Suits p traced) {s' : Progress}
    (hbatch : s.batch total lines = .ok s') : ∀ line ∈ lines, Executes p line := by
  unfold Progress.batch at hbatch
  split at hbatch
  · cases hbatch
  · rename_i results m hm
    exact h.matcher.executes_of_lines hp hm

/-- All batches: what is known depends on their lines alone, not on where one ends. -/
theorem Past.run (hp : Suits p traced) {batches : List (List LogLine)} :
    ∀ {s : Progress} {done : List LogLine}, s.Past p traced done →
      (∀ line ∈ batches.flatten, Executes p line) →
      ∃ s', s.run total batches = .ok s' ∧ s'.Past p traced (done ++ batches.flatten) := by
  induction batches with
  | nil =>
    intro s done h _
    exact ⟨s, rfl, by rw [List.flatten_nil, List.append_nil]; exact h⟩
  | cons lines batches ih =>
    intro s done h hlines
    rw [List.flatten_cons] at hlines ⊢
    obtain ⟨s₁, hbatch, h₁⟩ := h.batch hp fun l hl => hlines l (List.mem_append_left _ hl)
    obtain ⟨s₂, hrun, h₂⟩ := ih h₁ fun l hl => hlines l (List.mem_append_right _ hl)
    refine ⟨s₂, ?_, by rw [← List.append_assoc]; exact h₂⟩
    rw [Progress.run, List.foldlM_cons, hbatch]
    exact hrun

theorem Past.executes_of_run (hp : Suits p traced) {batches : List (List LogLine)} :
    ∀ {s s' : Progress} {done : List LogLine}, s.Past p traced done →
      s.run total batches = .ok s' → ∀ line ∈ batches.flatten, Executes p line := by
  induction batches with
  | nil => intro s s' done _ _ line hline; cases hline
  | cons lines batches ih =>
    intro s s' done h hrun line hline
    rw [Progress.run, List.foldlM_cons] at hrun
    cases hbatch : s.batch total lines with
    | error why => rw [hbatch] at hrun; cases hrun
    | ok s₁ =>
      rw [hbatch] at hrun
      have hlines := h.executes_of_batch hp hbatch
      obtain ⟨s₁', hbatch', h₁⟩ : ∃ s', s.batch total lines = .ok s' ∧ _ := h.batch hp hlines
      rw [hbatch] at hbatch'
      cases hbatch'
      rcases List.mem_append.mp hline with hline | hline
      · exact hlines line hline
      · exact ih h₁ hrun line hline

theorem Past.finalReport (h : s.Past p traced lines) :
    s.finalReport = some (Text.encoded (Csv.rendered [Text.comma]
      (Csv.header p.fields :: (recordsOf p lines).map (Csv.row p.fields)))) := by
  unfold Progress.finalReport
  cases hbegun : s.begun with
  | true => exact h.report hbegun
  | false =>
    rw [h.matcher.pattern, h.begun hbegun]
    exact Csv.write_first s.report _ _ _

end Progress

/-! ## Runs -/

theorem length_values {line : LogLine} {fields : FieldMatch} (h : found? p line = some fields) :
    fields.values.length = p.fields.length := by
  unfold found? CompiledPattern.exec at h
  dsimp only at h
  split at h
  · cases h
  · obtain ⟨m, -, rfl⟩ := Option.map_eq_some_iff.mp h
    simp [CompiledPattern.fieldMatch]

/-- The row of a line that matches: its number, the line, and the captured values, empty where there
is none. -/
def rowOf (p : CompiledPattern) (line : LogLine) : List Text :=
  Text.ofInt line.index :: line.raw
    :: (((found? p line).map (·.values)).getD []).map fun value => value.getD []

theorem rows_eq (p : CompiledPattern) (lines : List LogLine) :
    (recordsOf p lines).map (Csv.row p.fields) = (accepted p lines).map (rowOf p) := by
  rw [recordsOf, List.map_filterMap, accepted, ← List.filterMap_eq_map, List.filterMap_filter]
  congr 1
  funext line
  cases hfound : found? p line with
  | none => rfl
  | some fields =>
    change some (Csv.row p.fields _) = some (rowOf p line)
    rw [Csv.row_eq (length_values hfound), rowOf, hfound]
    rfl

/-- The header, and behind it the rows of the lines that match. -/
def table (p : CompiledPattern) (lines : List LogLine) : List (List Text) :=
  Csv.header p.fields :: (accepted p lines).map (rowOf p)

theorem length_records (p : CompiledPattern) (lines : List LogLine) :
    (recordsOf p lines).length = (accepted p lines).length := by
  have hlength := congrArg List.length (rows_eq p lines)
  rwa [List.length_map, List.length_map] at hlength

theorem length_accepted (p : CompiledPattern) (lines : List LogLine) :
    lines.length = (accepted p lines).length + (refused p lines).length := by
  have hnone : (fun line => (found? p line).isNone) = fun line => !(found? p line).isSome := by
    funext line
    cases found? p line <;> rfl
  rw [accepted, refused, hnone]
  exact List.length_eq_length_filter_add _

/-- What a finished run has to show for the selected lines. -/
structure Outcome.Reports (out : Outcome) (r : Request) (p : CompiledPattern)
    (selected : List LogLine) : Prop where
  executed : ∀ line ∈ selected, Executes p line
  report : out.report = some (Csv.rendered [Text.comma]
    ((table p selected).map (·.map Text.encoded)))
  /-- Rows in which no half of a surrogate pair stands alone are written as they are. -/
  whole : (∀ columns ∈ table p selected, ∀ cell ∈ columns, Text.isPaired cell = true) →
    out.report = some (Csv.rendered [Text.comma] (table p selected))
  failureReport : out.failureReport =
    if (refused p selected).isEmpty then none
    else
      some
        { context :=
            [(text "specialization", r.specialization.name), (text "format", r.session.format),
              (text "pattern", p.source)]
          failures := (refused p selected).map (entryOf p r.trace) }
  summary : out.summary =
    { runId := r.runId
      pattern := p.source
      fields := p.fields
      totalLines := selected.length
      matched := (accepted p selected).length
      unmatched := (refused p selected).length
      reportPath := Path.join r.outputDir (r.runId ++ text "-matches.csv")
      failureReportPath :=
        if (refused p selected).isEmpty then none
        else some (Path.join r.outputDir (r.runId ++ text "-failures.json")) }
  total : selected.length = (accepted p selected).length + (refused p selected).length

theorem reports_of_past {r : Request} {s : Progress} {selected : List LogLine}
    (h : s.Past p r.trace selected) (hselected : ∀ line ∈ selected, Executes p line) :
    (r.outcome p s).Reports r p selected := by
  have hreport : (r.outcome p s).report
      = some (Text.encoded (Csv.rendered [Text.comma] (table p selected))) := by
    rw [table, ← rows_eq]
    exact h.finalReport
  have hcells : Text.encoded (Csv.rendered [Text.comma] (table p selected))
      = Csv.rendered [Text.comma] ((table p selected).map (·.map Text.encoded)) :=
    Csv.encoded_rendered (by decide) fun _ _ cell _ =>
      Csv.keeps_of_ne (by decide) (by decide) cell
  rw [hcells] at hreport
  refine ⟨hselected, hreport, fun hwhole => ?_, ?_, ?_, length_accepted p selected⟩
  · rw [hreport, Csv.map_encoded_of_isPaired hwhole]
  · unfold Request.outcome
    rw [h.failures, List.isEmpty_map]
  · unfold Request.outcome
    rw [h.failures, List.isEmpty_map, h.processed, h.matched, length_records, List.length_map]

theorem past_start {r : Request} (h : r.session.compile.1 = .ok p) (before : Option Text) :
    (r.start before p).Past p r.trace [] := by
  obtain ⟨resolved, -, hassemble⟩ := Session.compile_eq_ok h
  exact ⟨⟨rfl, KeptPattern.faithful_ofPattern hassemble, rfl, rfl⟩, fun _ => rfl,
    (fun hbegun => by cases hbegun), rfl, rfl, rfl⟩

/-- A run ends if its template compiles and every selected line is answered. -/
theorem exists_reports {r : Request} (hp : r.session.compile.1 = .ok p) {input : Text}
    (hselected : ∀ line ∈ Lines.select r.limit input, Executes p line) (before : Option Text) :
    ∃ out, runOver before r input = .ok out ∧ out.Reports r p (Lines.select r.limit input) := by
  unfold runOver
  rw [hp]
  dsimp only
  rw [← Lines.flatten_batches r.size r.limit input] at hselected ⊢
  obtain ⟨s, hrun, hpast⟩ := (past_start hp before).run (suits_of_compile hp) hselected
  rw [hrun]
  exact ⟨_, rfl, reports_of_past hpast hselected⟩

theorem executes_of_runOver {r : Request} (hp : r.session.compile.1 = .ok p) {input : Text}
    {before : Option Text} {out : Outcome} (h : runOver before r input = .ok out) :
    ∀ line ∈ Lines.select r.limit input, Executes p line := by
  unfold runOver at h
  rw [hp] at h
  dsimp only at h
  split at h
  · cases h
  · rename_i s hrun
    rw [← Lines.flatten_batches r.size r.limit input]
    exact (past_start hp before).executes_of_run (suits_of_compile hp) hrun

theorem compile_of_runOver {r : Request} {input : Text} {before : Option Text} {out : Outcome}
    (h : runOver before r input = .ok out) : ∃ p, r.session.compile.1 = .ok p := by
  unfold runOver at h
  split at h
  · cases h
  · rename_i p hp
    exact ⟨p, hp⟩

/-- A run that ends has matched the selected lines, each of them once. The report has a header and a
row for every line that the pattern accepts; the failure report, if there is one, has an entry for
every other line; both are in the order of the file, and the summary counts them. None of this
depends on the size of the batches, or on a report that was there before. The report is encoded, so
a captured half of a surrogate pair is replaced in it; the lines of a file have none alone. -/
theorem run_reports {r : Request} {input : Text} {before : Option Text} {out : Outcome}
    (h : runOver before r input = .ok out) :
    ∃ p, r.session.compile.1 = .ok p
      ∧ (Lines.batches r.size r.limit input).flatten = Lines.select r.limit input
      ∧ out.Reports r p (Lines.select r.limit input)
      ∧ (Text.isPaired input = true →
          ∀ line ∈ Lines.select r.limit input, Text.encoded line.raw = line.raw)
      ∧ (out.failureReport.isSome ↔ 0 < out.summary.unmatched)
      ∧ ∀ before' size, ∃ out', runOver before' { r with batchSize := size } input = .ok out'
        ∧ out'.report = out.report ∧ out'.failureReport = out.failureReport
        ∧ out'.summary = out.summary := by
  obtain ⟨p, hp⟩ := compile_of_runOver h
  have hselected := executes_of_runOver hp h
  obtain ⟨out₁, h₁, hreports⟩ := exists_reports hp hselected before
  cases h.symm.trans h₁
  have hraw (hinput : Text.isPaired input = true) :
      ∀ line ∈ Lines.select r.limit input, Text.encoded line.raw = line.raw := fun line hline =>
    Text.encoded_of_isPaired (Lines.isPaired_of_mem_select hinput line hline)
  refine ⟨p, hp, Lines.flatten_batches r.size r.limit input, hreports, hraw, ?_,
    fun before' size => ?_⟩
  · rw [hreports.failureReport, hreports.summary]
    cases refused p (Lines.select r.limit input) <;> simp
  · obtain ⟨out', h', hreports'⟩ :=
      exists_reports (r := { r with batchSize := size }) hp hselected before'
    exact ⟨out', h', hreports'.report.trans hreports.report.symm,
      hreports'.failureReport.trans hreports.failureReport.symm,
      hreports'.summary.trans hreports.summary.symm⟩

/-- Lines that are one number are matched one by one, and traced. -/
def numberRun (s : Specialization) : Request where
  runId := text "numbers"
  specialization := s
  format := some (text "%d")
  capture := some []
  trace := true
  limit := some 2
  batchSize := some 1
  outputDir := text "out"

/-- A number, a blank line, a word, and a line beyond the limit. -/
def numberLog : Text :=
  text "7\n\nx\n8\n"

/-- One token, and a name for the template that is the token alone. -/
def numbers : Definition :=
  { oneToken (text "%d") (text "(?#d)\\d(?#!d)") with aliases := ⟨[(text "number", text "%d")]⟩ }

def namedRun (s : Specialization) : Request :=
  { numberRun s with format := some (text "number") }

/-- The limit is reached at the end of a batch; in one batch the run reports the same. -/
theorem namedRun_reports : ∃ s out out',
    Specialization.define numbers = .ok s ∧ s.resolveAlias (text "number") = text "%d"
      ∧ runOver (some (text "old")) (namedRun s) numberLog = .ok out
      ∧ out.report = some (text "line_index,raw_log\n0,7\n") ∧ out.failureReport.isSome = true
      ∧ runOver none { namedRun s with batchSize := none } numberLog = .ok out'
      ∧ out'.report = out.report ∧ out'.summary = out.summary := by
  have hruns : ((Specialization.define numbers).toOption.bind fun s =>
      (runOver (some (text "old")) (namedRun s) numberLog).toOption.map fun out =>
        decide (out.report = some (text "line_index,raw_log\n0,7\n"))
          && decide (0 < out.summary.unmatched)) = some true := by
    cbv
  obtain ⟨s, hs, hout⟩ := Option.bind_eq_some_iff.mp hruns
  obtain ⟨out, hout, hvalues⟩ := Option.map_eq_some_iff.mp hout
  have hrun := eq_ok_of_toOption hout
  have hdefine := define_of_toOption hs
  have halias : s.resolveAlias (text "number") = text "%d" :=
    (Specialization.resolveAlias_eq_iff hdefine (by decide)).mpr (.inl List.mem_cons_self)
  obtain ⟨hreport, hunmatched⟩ := Bool.and_eq_true_iff.mp hvalues
  obtain ⟨-, -, -, -, -, hfailures, hsame⟩ := run_reports hrun
  obtain ⟨out', hrun', hreport', -, hsummary'⟩ := hsame none none
  exact ⟨s, out, out', hdefine, halias, hrun, of_decide_eq_true hreport,
    hfailures.mpr (of_decide_eq_true hunmatched), hrun', hreport', hsummary'⟩

/-- The first unit of a line of two is captured. -/
def firstUnitRun (s : Specialization) : Request where
  runId := text "units"
  specialization := s
  format := some (text "%a")
  capture := some [.spelled (text "a")]
  trace := false
  limit := none
  batchSize := none
  outputDir := text "out"

/-- The first half of a surrogate pair is captured, and replaced in the report. -/
theorem parted_pair_reported : ¬ ∀ (r : Request) (input : Text) (p : CompiledPattern)
    (out : Outcome), Text.isPaired input = true → r.session.compile.1 = .ok p →
      run r input = .ok out →
      out.report = some (Csv.rendered [Text.comma] (table p (Lines.select r.limit input))) := by
  intro h
  have hruns : ((Specialization.define (oneToken (text "%a") (text "(?#a).(?#!a)."))).toOption.bind
      fun s => (firstUnitRun s).session.compile.1.toOption.bind fun p =>
        (run (firstUnitRun s) (text "😀")).toOption.map fun out =>
          decide (out.report = some (Csv.rendered [Text.comma]
            (table p (Lines.select none (text "😀")))))) = some false := by
    decide +kernel
  obtain ⟨s, -, hruns⟩ := Option.bind_eq_some_iff.mp hruns
  obtain ⟨p, hp, hruns⟩ := Option.bind_eq_some_iff.mp hruns
  obtain ⟨out, hout, hreport⟩ := Option.map_eq_some_iff.mp hruns
  have hne : out.report ≠ some (Csv.rendered [Text.comma]
      (table p (Lines.select (firstUnitRun s).limit (text "😀")))) := of_decide_eq_false hreport
  exact hne (h (firstUnitRun s) (text "😀") p out (by decide) (eq_ok_of_toOption hp)
    (eq_ok_of_toOption hout))

end MatchRun

end LogTemplate
