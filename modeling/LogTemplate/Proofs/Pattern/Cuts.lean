import LogTemplate.Proofs.Marker.Spans
import LogTemplate.Proofs.Pattern.Agreement

/-!
# LogTemplate.Proofs.Pattern.Cuts

The beginnings that a tracer tries, by the fields of the tagged template.

* `Tracer.cutsFrom`, `instrument_marked` — one beginning for every end marker of the template.
* `Tracer.cutOf`, `cuts_eq` — the beginnings are those of the spans, in the order of end markers.
-/

namespace LogTemplate.Tracer

open Marker (Segment FieldSpan)

variable {capture : List Text} {ss : List Segment}

theorem instrument_prepend (body t : Text) (ss : List Segment) :
    instrument body (Marker.prepend t ss) = instrument (body ++ t) ss := by
  cases ss with
  | nil => rfl
  | cons s ss =>
    cases s with
    | text value =>
      change instrument (body ++ (t ++ value)) ss = instrument (body ++ t ++ value) ss
      rw [List.append_assoc]
    | start name => rfl
    | stop name => rfl

/-- The beginnings by the segments of the tagged template; `body` is the text with probes so far. -/
def cutsFrom (capture : List Text) (body : Text) : List Segment → List Cut
  | [] => []
  | .text value :: ss => cutsFrom capture (body ++ value) ss
  | .start name :: ss => cutsFrom capture (body ++ ResolvedTemplate.groupStart capture name) ss
  | .stop name :: ss =>
    cutBehind body name :: cutsFrom capture (body ++ probeText ++ [Text.closeParen]) ss

theorem cutsFrom_prepend (body t : Text) (ss : List Segment) :
    cutsFrom capture body (Marker.prepend t ss) = cutsFrom capture (body ++ t) ss := by
  cases ss with
  | nil => rfl
  | cons s ss =>
    cases s with
    | text value =>
      change cutsFrom capture (body ++ (t ++ value)) ss = cutsFrom capture (body ++ t ++ value) ss
      rw [List.append_assoc]
    | start name => rfl
    | stop name => rfl

/-- Resolving moves the parentheses of fields into the texts between markers. -/
theorem instrument_marked (capture : List Text) : ∀ c t body,
    (instrument body
        (Marker.segmentsFrom c (Marker.replaced (ResolvedTemplate.wrap capture) c t))).2
      = cutsFrom capture body (Marker.segmentsFrom c t) := by
  have hw := Marker.keepsText_wrap capture
  intro c t
  induction c, t using Marker.cutting with
  | nil c => intro body; rw [Marker.replaced_nil, Marker.segmentsFrom_nil]; rfl
  | dangling c =>
    intro body
    rw [Marker.replaced_dangling hw, Marker.segmentsFrom_dangling]
    rfl
  | escape c u t ih =>
    intro body
    rw [Marker.replaced_escape hw, Marker.segmentsFrom_escape, Marker.segmentsFrom_escape,
      instrument_prepend, cutsFrom_prepend]
    exact ih _
  | inClass u t hu ih =>
    intro body
    rw [Marker.replaced_inClass hw hu, Marker.segmentsFrom_inClass hu,
      Marker.segmentsFrom_inClass hu, instrument_prepend, cutsFrom_prepend]
    exact ih _
  | bracket t ih =>
    intro body
    rw [Marker.replaced_openBracket hw, Marker.segmentsFrom_openBracket,
      Marker.segmentsFrom_openBracket, instrument_prepend, cutsFrom_prepend]
    exact ih _
  | marker m r hmarker ih =>
    intro body
    rw [Marker.replaced_marker hmarker, Marker.segmentsFrom_wrap capture hmarker,
      Marker.segmentsFrom_marker hmarker]
    cases m with
    | text value => cases hmarker
    | start name =>
      dsimp only
      rw [instrument_prepend]
      exact ih _
    | stop name =>
      have hrest := ih (body ++ probeText ++ [Text.closeParen])
      rw [← instrument_prepend] at hrest
      exact congrArg (cutBehind body name :: ·) hrest
  | unit u t hu hb hm ih =>
    intro body
    rw [Marker.replaced_unit hw hu hb hm,
      Marker.segmentsFrom_unit hu hb
        (Marker.readMarker?_replaced hw (Marker.startsGroups_wrap capture) hm),
      Marker.segmentsFrom_unit hu hb hm, instrument_prepend, cutsFrom_prepend]
    exact ih _

/-- The beginning up to the end of a field. -/
def cutOf (capture : List Text) (ss : List Segment) (span : FieldSpan) : Cut :=
  cutBehind ((ss.take span.stop).flatMap (Segment.probedGroup capture)) span.name

theorem cutsFrom_eq : ∀ (pre : List Segment) {pending : List (Text × Nat)}
    {spans : List FieldSpan}, Marker.pairFrom pre.length pending ss = .ok spans →
    cutsFrom capture (pre.flatMap (Segment.probedGroup capture)) ss
      = spans.map (cutOf capture (pre ++ ss)) := by
  induction ss with
  | nil =>
    intro pre pending spans h
    cases pending with
    | nil => cases h; rfl
    | cons a pending => cases h
  | cons s ss ih =>
    intro pre pending spans h
    have hlen : (pre ++ [s]).length = pre.length + 1 := by simp
    have hcons : pre ++ s :: ss = (pre ++ [s]) ++ ss := by simp
    have hstep : (pre ++ [s]).flatMap (Segment.probedGroup capture)
        = pre.flatMap (Segment.probedGroup capture) ++ s.probedGroup capture := by simp
    cases s with
    | text value =>
      rw [Marker.pairFrom, ← hlen] at h
      rw [hcons, ← ih _ h, hstep]
      rfl
    | start name =>
      rw [Marker.pairFrom, ← hlen] at h
      rw [hcons, ← ih _ h, hstep, Marker.probedGroup_start]
      rfl
    | stop name =>
      simp only [Marker.pairFrom] at h
      split at h
      · cases h
      · split at h
        · split at h
          · rename_i hname _ later hlater
            cases h
            rw [← hlen] at hlater
            have hfirst (start : Nat) :
                cutOf capture (pre ++ Segment.stop name :: ss) ⟨name, start, pre.length⟩
                  = cutBehind (pre.flatMap (Segment.probedGroup capture)) name := by
              rw [cutOf, List.take_left]
            rw [List.map_cons, hfirst, hcons, ← ih _ hlater, hstep, cutsFrom, List.append_assoc]
            rfl
          · cases h
        · cases h

/-- The beginnings are those up to the ends of the fields, in the order of end markers. -/
theorem cuts_eq {tagged : Text} {resolved : ResolvedTemplate}
    (h : ResolvedTemplate.ofTagged tagged capture = .ok resolved) {spans : List FieldSpan}
    (hspans : Marker.pairFrom 0 [] (Marker.segments tagged) = .ok spans) :
    (instrument [] (Marker.segments resolved.marked)).2
      = spans.map (cutOf capture (Marker.segments tagged)) := by
  rw [ResolvedTemplate.marked_of_ofTagged h]
  exact (instrument_marked capture false tagged []).trans (cutsFrom_eq [] hspans)

end LogTemplate.Tracer
