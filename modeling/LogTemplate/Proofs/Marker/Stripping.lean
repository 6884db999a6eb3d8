import LogTemplate.Proofs.Marker.Positions
import LogTemplate.Proofs.OneToken

/-!
# LogTemplate.Proofs.Marker.Stripping

Taking the markers from a text that then is a pattern leaves none.

* `markers_of_plain` — a pattern that is accepted holds no marker, whose beginning would open a
  group of no known kind.
* `stripMarkers_of_markers` — text without markers stays as it is.
* `stripMarkers_accepted` — a stripped text, once it is accepted, is not stripped of any more.
-/

namespace LogTemplate.Marker

open Regex (Mode)

/-- A scan for markers and a reader of tokens are in step: where one is outside of escapes and
classes, the other begins a token, and no token begins as a marker does. -/
theorem markers_of_plain {p : Text} {r : Regex} (h : Regex.plain p = .ok r) : markers p = [] := by
  obtain ⟨ks, node, hparse, -⟩ := Regex.plain_eq_ok.mp h
  have hreads := hparse.reads
  rw [markers, List.filter_eq_nil_iff]
  intro m hm hdelimits
  obtain ⟨before, after, hsplit⟩ := List.append_of_mem hm
  have hstands := (begins_segmentsFrom hdelimits false p _).mp ⟨before, after, hsplit, rfl⟩
  obtain ⟨w, hw⟩ := hstands.marker.source_eq
  obtain ⟨rest, hrest⟩ := hstands.source
  rw [hw] at hrest
  rw [← List.take_append_drop (before.flatMap Segment.source).length p, ← hrest] at hreads
  obtain ⟨-, ks₂, -, hmarker, -⟩ :=
    Regex.reads_append (Regex.barrier_openParen _) hstands.outside hreads
  cases hmarker with
  | cons hread _ =>
    change Except.error Regex.Rejection.unknownGroupKind = _ at hread
    cases hread

theorem stripMarkers_of_markers {t : Text} (h : markers t = []) : stripMarkers t = t := by
  conv_rhs => rw [← flatMap_source t]
  refine List.flatMap_congr fun m hm => ?_
  cases m with
  | text value => rfl
  | start name => exact absurd rfl (List.filter_eq_nil_iff.mp h _ hm)
  | stop name => exact absurd rfl (List.filter_eq_nil_iff.mp h _ hm)

/-- If a text without its markers is accepted as a pattern, no marker is left in it, and to take
the markers from it again makes no difference. -/
theorem stripMarkers_accepted {t : Text} {r : Regex} (h : Regex.plain (stripMarkers t) = .ok r) :
    markers (stripMarkers t) = [] ∧ stripMarkers (stripMarkers t) = stripMarkers t :=
  ⟨markers_of_plain h, stripMarkers_of_markers (markers_of_plain h)⟩

/-- What looks like a marker in a class and behind a backslash is left. -/
theorem hiddenMarkers_stripped :
    stripMarkers (text "(?#a)[(?#b)](?:\\(?#c)(?#!a)") = text "[(?#b)](?:\\(?#c)"
      ∧ (∃ r, Regex.plain (text "[(?#b)](?:\\(?#c)") = .ok r)
      ∧ markers (text "[(?#b)](?:\\(?#c)") = []
      ∧ stripMarkers (text "[(?#b)](?:\\(?#c)") = text "[(?#b)](?:\\(?#c)" := by
  have hstrip : stripMarkers (text "(?#a)[(?#b)](?:\\(?#c)(?#!a)") = text "[(?#b)](?:\\(?#c)" := by
    cbv
  have haccepted : (Regex.plain (text "[(?#b)](?:\\(?#c)")).toOption.isSome = true := by
    simp only [Regex.plain, Regex.compile, Regex.Token.all_eq]
    cbv
  obtain ⟨r, hr⟩ := Option.isSome_iff_exists.mp haccepted
  have hr := eq_ok_of_toOption hr
  have h := stripMarkers_accepted (t := text "(?#a)[(?#b)](?:\\(?#c)(?#!a)") (r := r)
    (by rw [hstrip]; exact hr)
  rw [hstrip] at h
  exact ⟨hstrip, ⟨r, hr⟩, h⟩

/-- Without a marker in the middle a new one can come about, but a pattern it is not. -/
example : stripMarkers (text "(?(?#a)#b)") = text "(?#b)"
    ∧ stripMarkers (stripMarkers (text "(?(?#a)#b)")) = [] :=
  ⟨by cbv, by cbv⟩

end LogTemplate.Marker
