import LogTemplate.Proofs.Marker.Nesting
import LogTemplate.Proofs.Tracing

/-!
# LogTemplate.Proofs.Resolving

Resolving puts groups around fields and changes nothing else.

* `CompiledPattern.stripMarkers_anchor` — anchors do not touch markers.
* `CompiledPattern.stripped`, `CompiledPattern.assemble_stripped` — a pattern whose source keeps
  markers, and the same pattern without them.
* `ResolvedTemplate.Regroups`, `ofTagged_regroups` — what a resolved text has in common with the
  tagged one.
-/

namespace LogTemplate

namespace CompiledPattern

/-- The markers of a text are also those of the text between anchors. -/
theorem stripMarkers_anchor (t : Text) :
    Marker.stripMarkers (anchor t) = anchor (Marker.stripMarkers t) := by
  change Marker.replaced _ false (Text.caret :: (t ++ [Text.dollar])) = _
  rw [Marker.replaced_caret Marker.keepsText_plainText,
    Marker.replaced_dollar Marker.keepsText_plainText]
  rfl

/-- The pattern with the markers taken from its source. -/
def stripped (p : CompiledPattern) : CompiledPattern :=
  { p with source := Marker.stripMarkers p.source }

end CompiledPattern

/-- The fault with the markers taken from the source of the pattern. -/
def CompileFault.stripped : CompileFault → CompileFault
  | configuration fault => .configuration fault
  | pattern fault => .pattern { fault with source := Marker.stripMarkers fault.source }

namespace CompiledPattern

/-- What assembling ends in, with the markers taken from the source. -/
def strippedOutcome :
    Except CompileFault CompiledPattern → Except CompileFault CompiledPattern
  | .error fault => .error fault.stripped
  | .ok p => .ok p.stripped

theorem refuse_stripped (marked pattern : Text) (segments : List Marker.Segment)
    (why : Regex.Rejection) :
    refuse (anchor (Marker.stripMarkers marked)) pattern segments why
      = (refuse (anchor marked) pattern segments why).stripped := by
  unfold refuse
  cases Marker.pair segments with
  | error fault => rfl
  | ok spans =>
    dsimp only [CompileFault.stripped]
    rw [stripMarkers_anchor]

/-- Whether markers are kept makes no difference but in the source. -/
theorem assemble_stripped (resolved : ResolvedTemplate) (traced : Bool) (sink : TraceSink) :
    assemble resolved false traced sink = strippedOutcome (assemble resolved true traced sink) := by
  have hsource : Marker.stripMarkers (anchor resolved.marked)
      = anchor (Marker.plainTextOf (Marker.segments resolved.marked)) :=
    stripMarkers_anchor resolved.marked
  have hrefuse (pattern : Text) := refuse_stripped resolved.marked pattern
    (Marker.segments resolved.marked)
  unfold assemble
  simp only [if_true, if_false, Bool.false_eq_true]
  cases Regex.plain (anchor (Marker.plainTextOf (Marker.segments resolved.marked))) with
  | error why => exact congrArg Except.error (hrefuse _ why)
  | ok regexp =>
    cases traced with
    | false => simp only [strippedOutcome, stripped, hsource, if_false, Bool.false_eq_true]
    | true =>
      dsimp only [if_true]
      cases Tracer.ofSegments (Marker.segments resolved.marked) with
      | error why => exact congrArg Except.error (hrefuse _ why)
      | ok tracer => simp only [strippedOutcome, stripped, hsource, if_true]

end CompiledPattern

namespace ResolvedTemplate

/-- The resolved text is the tagged one with groups around its fields: its markers are the same,
without them each start marker is an opening parenthesis, a capturing one if its field is asked for,
and each end marker a closing one; and the markers can be left in the source of the pattern or not
without a difference to anything else. -/
structure Regroups (tagged : Text) (capture : List Text) (resolved : ResolvedTemplate) : Prop where
  whole : tagged = (Marker.segments tagged).flatMap Marker.Segment.source
  markers : Marker.markers resolved.marked = Marker.markers tagged
  pairs : ∃ spans, Marker.pair (Marker.segments resolved.marked) = .ok spans
  groups : Marker.stripMarkers resolved.marked
    = (Marker.segments tagged).flatMap (Marker.Segment.group capture)
  captured : resolved.captured = (Marker.startNames tagged).filter (· ∈ capture)
  comments : ∀ traced sink, CompiledPattern.assemble resolved false traced sink
    = CompiledPattern.strippedOutcome (CompiledPattern.assemble resolved true traced sink)

variable {tagged : Text} {capture : List Text} {resolved : ResolvedTemplate}

theorem markers_of_ofTagged (h : ofTagged tagged capture = .ok resolved) :
    Marker.markers resolved.marked = Marker.markers tagged := by
  rw [marked_of_ofTagged h]
  exact Marker.markers_wrap capture false tagged

/-- Resolving changes groups only, whatever the text is: parentheses that are put in make no marker
of what stands around them, and break none. -/
theorem ofTagged_regroups (h : ofTagged tagged capture = .ok resolved) :
    Regroups tagged capture resolved where
  whole := (Marker.flatMap_source tagged).symm
  markers := markers_of_ofTagged h
  pairs := exists_pair_marked h
  groups := strip_of_ofTagged h
  captured := captured_of_ofTagged h
  comments := CompiledPattern.assemble_stripped resolved

/-- What looks like a marker in a class and behind a backslash is none; a backslash at the end of
the text escapes the anchor. -/
def hiddenMarkers : Text :=
  text "(?#a)[(?#b)]\\(?#c(?#b)x(?#!b)(?#!a)\\"

theorem hiddenMarkers_regroup : ∃ resolved p q,
    ofTagged hiddenMarkers [text "b"] = .ok resolved
      ∧ Marker.markers resolved.marked
        = [.start (text "a"), .start (text "b"), .stop (text "b"), .stop (text "a")]
      ∧ Marker.stripMarkers resolved.marked = text "(?:[(?#b)]\\(?#c(x))\\"
      ∧ resolved.captured = [text "b"]
      ∧ CompiledPattern.assemble resolved true false .buffer = .ok p
      ∧ p.source = text "^(?:(?#a)[(?#b)]\\(?#c((?#b)x(?#!b))(?#!a))\\$"
      ∧ CompiledPattern.assemble resolved false false .buffer = .ok q
      ∧ q.source = Marker.stripMarkers p.source ∧ q.regexp = p.regexp ∧ q.fields = p.fields := by
  have hrun : ((ofTagged hiddenMarkers [text "b"]).toOption.bind fun resolved =>
      (CompiledPattern.assemble resolved true false .buffer).toOption.map fun p =>
        p.source) = some (text "^(?:(?#a)[(?#b)]\\(?#c((?#b)x(?#!b))(?#!a))\\$") := by
    simp only [CompiledPattern.assemble, Regex.plain, Regex.compile, Regex.Token.all_eq]
    cbv
  have hmarkers : Marker.markers hiddenMarkers
      = [.start (text "a"), .start (text "b"), .stop (text "b"), .stop (text "a")] := by
    cbv
  have hgroups : (Marker.segments hiddenMarkers).flatMap (Marker.Segment.group [text "b"])
      = text "(?:[(?#b)]\\(?#c(x))\\" := by
    cbv
  have hcaptured : (Marker.startNames hiddenMarkers).filter (· ∈ [text "b"]) = [text "b"] := by
    cbv
  obtain ⟨resolved, hresolved, hrun⟩ := Option.bind_eq_some_iff.mp hrun
  obtain ⟨p, hp, hsource⟩ := Option.map_eq_some_iff.mp hrun
  have hresolved := eq_ok_of_toOption hresolved
  have hp := eq_ok_of_toOption hp
  have h := ofTagged_regroups hresolved
  have hq := h.comments false .buffer
  rw [hp] at hq
  exact ⟨resolved, p, p.stripped, hresolved, h.markers.trans hmarkers, h.groups.trans hgroups,
    h.captured.trans hcaptured, hp, hsource, hq, rfl, rfl, rfl⟩

end ResolvedTemplate

end LogTemplate
