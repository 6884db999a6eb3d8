import LogTemplate.Proofs.Balance
import LogTemplate.Proofs.Pattern.Reported

/-!
# LogTemplate.Proofs.Reporting

Which field ends are reported when a line matches.

* `Session.templateSegments` — the segments of the expanded template.
* `match_reported` — with all fields captured, a field end is reported only if the field has a
  value, and always if the field has a single alternative.
* `alternative_unreported` — a probe stands in the last alternative of its field only.
-/

namespace LogTemplate

open Regex (decimalFree hasOuterBar)
open Marker (FieldSpan pairFrom)

theorem Specialization.Hookless.startNames_subset {s : Specialization} (h : s.Hookless)
    (format : Text) : ∀ name ∈ Marker.startNames (s.expand format).1, name ∈ s.fields := by
  intro name hname
  rw [h.startNames_expand] at hname
  obtain ⟨p, hp, hname⟩ := List.mem_flatMap.mp hname
  exact h.pieceFields_subset hp hname

namespace Session

/-- The segments of the expanded template. -/
def templateSegments (s : Specialization) (o : Options) : List Marker.Segment :=
  Marker.segments (s.expand (o.format.getD s.format)).1

theorem allCaptured {s : Specialization} (h : s.Hookless) {o : Options}
    (hcapture : o.capture = some [.spelled (text ":all")]) :
    Marker.AllCaptured (requestedOf s o.capture) (templateSegments s o) := by
  intro name hname
  rw [hcapture, requestedOf, Option.getD_some, Capture.mem_apply_all]
  exact h.startNames_subset _ name (List.mem_filterMap.mpr ⟨_, hname, rfl⟩)

end Session

/-- With all fields captured and nothing else, what is reported when a line matches. Without
references by number, if the text of each field is a pattern on its own: the names that are written
are those of some fields in the order of their end markers. Each of these fields has a value, and a
field that has a value is one of them if no bar stands in it outside of the groups that it holds. -/
theorem match_reported {d : Definition} {s : Specialization} (hd : Specialization.define d = .ok s)
    (hpre : d.preprocess = []) (hpost : d.postprocess = []) {o : Session.Options}
    (hcapture : o.capture = some [.spelled (text ":all")]) (htrace : o.trace = true)
    {p : CompiledPattern} (hp : (Session.start s o).compile.1 = .ok p)
    (hgroups : p.regexp.groups = p.fields.length)
    (hfree : decimalFree .outside (Session.body s o) = true) {spans : List FieldSpan}
    (hspans : pairFrom 0 [] (Session.templateSegments s o) = .ok spans)
    (hown : ∀ span ∈ spans, Regex.accepts
      (span.ownText (Session.requestedOf s o.capture) (Session.templateSegments s o)) = true) :
    (spans.map (FieldSpan.number (Session.templateSegments s o))).Perm (List.range p.fields.length)
      ∧ ∀ line, (p.regexp.exec line).isSome = true →
        ∃ (found : FieldMatch) (reached : List FieldSpan), (p.exec line).result = .ok (some found)
          ∧ (p.exec line).written
            = Text.lineFeed :: reached.flatMap (fun span => span.name ++ [Text.space])
          ∧ reached.Sublist spans
          ∧ ∀ span ∈ spans,
            (span ∈ reached → found.Defines (span.number (Session.templateSegments s o)))
              ∧ (hasOuterBar (span.ownText (Session.requestedOf s o.capture)
                  (Session.templateSegments s o)) = false →
                found.Defines (span.number (Session.templateSegments s o)) → span ∈ reached) := by
  have hhookless := Specialization.hookless_of_define hd hpre hpost
  have hall := Session.allCaptured hhookless hcapture
  obtain ⟨resolved, hresolved, hassemble⟩ := Session.compile_eq_ok hp
  rw [htrace] at hassemble
  constructor
  · rw [(Session.assemble_eq_ok hassemble).2.1, CompiledPattern.captured_length hresolved hall]
    exact Marker.numbers_perm hspans
  · intro line hmatch
    exact CompiledPattern.reports_reached hresolved hassemble hall hgroups hfree hspans hown hmatch

/-- All fields are captured, and matching is traced. -/
def allTraced (format : Text) : Session.Options :=
  { Session.settings (some format) (some [.spelled (text ":all")]) with trace := true }

/-- A field in an alternative of a repeated group: without a part in the last turn it has no
value. -/
def turns : Definition :=
  oneToken (text "%x") (text "(?#a)(?:x|(?#b)y(?#!b))*(?#!a)")

theorem turns_reported : ∃ s p spans, compileWith turns (allTraced (text "%x")) = some (s, p)
    ∧ pairFrom 0 [] (Session.templateSegments s (allTraced (text "%x"))) = .ok spans
    ∧ (spans.map (FieldSpan.number (Session.templateSegments s (allTraced (text "%x"))))).Perm
      (List.range p.fields.length)
    ∧ ∃ (found : FieldMatch) (reached : List FieldSpan),
      (p.exec (text "xyx")).result = .ok (some found)
      ∧ (p.exec (text "xyx")).written
        = Text.lineFeed :: reached.flatMap (fun span => span.name ++ [Text.space])
      ∧ reached.Sublist spans
      ∧ ∀ span ∈ spans, span ∈ reached
        ↔ found.Defines (span.number (Session.templateSegments s (allTraced (text "%x")))) := by
  have hrun : ((compileWith turns (allTraced (text "%x"))).any fun a =>
      (pairFrom 0 [] (Session.templateSegments a.1 (allTraced (text "%x")))).toOption.any
          fun spans => decide (a.2.regexp.groups = a.2.fields.length)
        && decimalFree .outside (Session.body a.1 (allTraced (text "%x")))
        && (a.2.regexp.exec (text "xyx")).isSome
        && spans.all fun span =>
          Regex.accepts (span.ownText
            (Session.requestedOf a.1 (some [.spelled (text ":all")]))
            (Session.templateSegments a.1 (allTraced (text "%x"))))
          && !hasOuterBar (span.ownText
            (Session.requestedOf a.1 (some [.spelled (text ":all")]))
            (Session.templateSegments a.1 (allTraced (text "%x"))))) = true := by
    cbv
  simp only [Option.any_eq_true, Bool.and_eq_true, decide_eq_true_eq, List.all_eq_true,
    Bool.not_eq_true'] at hrun
  obtain ⟨⟨s, p⟩, hsp, spans, hspans, ⟨⟨hgroups, hfree⟩, hmatch⟩, hown⟩ := hrun
  obtain ⟨hs, hp⟩ := compileWith_eq_some hsp
  have hspans := eq_ok_of_toOption hspans
  obtain ⟨hnumbers, hreported⟩ := match_reported hs rfl rfl rfl rfl hp hgroups hfree hspans
    fun span hspan => (hown span hspan).1
  obtain ⟨found, reached, hresult, hwritten, hsublist, hreached⟩ := hreported _ hmatch
  refine ⟨s, p, spans, hsp, hspans, hnumbers, found, reached, hresult, hwritten, hsublist, ?_⟩
  intro span hspan
  exact ⟨(hreached span hspan).1, (hreached span hspan).2 (hown span hspan).2⟩

/-- A field of two alternatives: if the first one matches, the field has a value, and its end is not
reported. -/
theorem alternative_unreported :
    ¬ ∀ (d : Definition) (s : Specialization), Specialization.define d = .ok s →
      d.preprocess = [] → d.postprocess = [] →
      ∀ (o : Session.Options) (p : CompiledPattern) (spans : List FieldSpan) (line : Text)
        (found : FieldMatch), o.capture = some [.spelled (text ":all")] → o.trace = true →
        (Session.start s o).compile.1 = .ok p → p.regexp.groups = p.fields.length →
        pairFrom 0 [] (Session.templateSegments s o) = .ok spans →
        (p.exec line).result = .ok (some found) →
        (p.exec line).written = Text.lineFeed
          :: (spans.filter fun span => found.Defines (span.number
            (Session.templateSegments s o))).flatMap fun span => span.name ++ [Text.space] := by
  intro h
  have hrun : ((compileWith (oneToken (text "%x") (text "(?#x)a|b(?#!x)"))
      (allTraced (text "%x"))).any fun a =>
        (pairFrom 0 [] (Session.templateSegments a.1 (allTraced (text "%x")))).toOption.any
          fun spans => a.2.tracer.any fun t => (a.2.regexp.exec (text "a")).any fun m =>
            decide (a.2.regexp.groups = 1 ∧ a.2.fields.length = 1
              ∧ t.trace (text "a") = ⟨[Text.lineFeed], none⟩ ∧ m.Defines 1
              ∧ spans.map (FieldSpan.number
                (Session.templateSegments a.1 (allTraced (text "%x")))) = [0])) = true := by
    cbv
  simp only [Option.any_eq_true, decide_eq_true_eq] at hrun
  obtain ⟨⟨s, p⟩, hsp, spans, hspans, t, ht, m, hm, hgroups, hfields, htrace, hfirst, hnumbers⟩ :=
    hrun
  obtain ⟨hs, hp⟩ := compileWith_eq_some hsp
  have hexec := CompiledPattern.exec_of_tracer ht (by rw [htrace])
  rw [htrace, hm] at hexec
  have hdefined : (CompiledPattern.fieldMatch p.fields m).Defines 0 :=
    (CompiledPattern.fieldMatch_defines (by rw [hfields]; decide)).mpr hfirst
  have hwritten := h _ s hs rfl rfl _ p spans (text "a") _ rfl rfl hp (hgroups.trans hfields.symm)
    (eq_ok_of_toOption hspans) (congrArg CompiledPattern.Outcome.result hexec)
  obtain ⟨span, rfl, hnumber⟩ := List.map_eq_singleton_iff.mp hnumbers
  rw [hexec] at hwritten
  simp [hnumber, hdefined] at hwritten

end LogTemplate
