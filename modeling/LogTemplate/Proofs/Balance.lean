import LogTemplate.Proofs.History
import LogTemplate.Proofs.Marker.Nesting

/-!
# LogTemplate.Proofs.Balance

The markers of a template without hooks are those of its tokens.

* `Marker.markers_flatten` — markers of texts that are put together.
* `Specialization.Hookless.markers_expand`, `startNames_expand` — the markers of a template, and
  the fields that they open.
* `markers_balanced` — the markers come from the tokens, always pair up, and name known fields.
-/

namespace LogTemplate

/-! ## Markers -/

namespace Marker

/-- Where clean pieces meet, no marker comes about and none breaks. -/
theorem markers_flatten {xs : List Text} (h : ∀ x ∈ xs, Specialization.CleanPiece x) :
    markers xs.flatten = xs.flatMap markers := by
  induction xs with
  | nil => rw [markers, List.flatten_nil, segments_nil]; rfl
  | cons x xs ih =>
    rw [List.flatMap_cons, ← ih fun y hy => h y (by simp [hy]), markers,
      segments_flatten_cons (h x (by simp)), markers_join]
    rfl

end Marker

/-! ## Templates -/

namespace Specialization

/-- The markers of a piece: those of the fragment of a token, and none of literal text. -/
def pieceMarkers (s : Specialization) : Template.Piece → List Marker.Segment
  | .token key => Marker.markers (Template.fragmentOf s.tokens.entries key)
  | .literal _ => []

/-- The fields that a piece opens. -/
def pieceFields (s : Specialization) : Template.Piece → List Text
  | .token key => Marker.startNames (Template.fragmentOf s.tokens.entries key)
  | .literal _ => []

variable {s : Specialization}

theorem pieceFields_eq (s : Specialization) (p : Template.Piece) :
    s.pieceFields p = (s.pieceMarkers p).filterMap Marker.Segment.startName? := by
  cases p with
  | token key => exact Marker.startNames_eq _
  | literal u => rfl

theorem markers_text (s : Specialization) (p : Template.Piece) :
    Marker.markers (p.text (Template.fragmentOf s.tokens.entries)) = s.pieceMarkers p := by
  cases p with
  | token key => rfl
  | literal u =>
    change Marker.markers (Template.escapeUnit u) = []
    rw [Marker.markers, Marker.segments_escapeUnit_alone]
    rfl

/-- The markers of a template are those of its tokens, one token after the other. -/
theorem Hookless.markers_expand (h : s.Hookless) (format : Text) :
    Marker.markers (s.expand format).1 = (s.pieces format).flatMap s.pieceMarkers := by
  rw [h.expand_eq, Marker.markers_flatten fun x hx => h.cleanPiece hx, pieceTexts,
    List.flatMap_map]
  simp only [markers_text]

theorem Hookless.startNames_expand (h : s.Hookless) (format : Text) :
    Marker.startNames (s.expand format).1 = (s.pieces format).flatMap s.pieceFields := by
  have hfields := funext (pieceFields_eq s)
  rw [Marker.startNames_eq, h.markers_expand, List.filterMap_flatMap, hfields]

theorem Hookless.pieceFields_subset (h : s.Hookless) {format : Text} {p : Template.Piece}
    (hp : p ∈ s.pieces format) {name : Text} (hname : name ∈ s.pieceFields p) :
    name ∈ s.fields := by
  cases p with
  | literal u => cases hname
  | token key =>
    obtain ⟨d, hd⟩ := h.defined
    rw [(define_eq_ok hd).2.2.1, Fragment.fieldNames, Text.mem_distinct, List.mem_flatMap]
    exact ⟨_, List.mem_map_of_mem (fragmentOf_mem (mem_of_mem_cut hp)), hname⟩

end Specialization

theorem Definition.steadyHooks_of_none {d : Definition} (hpre : d.preprocess = [])
    (hpost : d.postprocess = []) : d.SteadyHooks where
  preprocess := ⟨[], by rw [hpre]; rfl, by simp⟩
  postprocess := ⟨[], by rw [hpost]; rfl, by simp⟩

/-- Asking for all fields captures every field of the template. -/
theorem Session.Current.setCapture_all {s : Specialization} {x : Session} (h : x.Current s)
    (hs : s.Forgetful) (hfields : ∀ name ∈ x.templateFields.1, name ∈ s.fields) :
    (x.setCapture [.spelled (text ":all")]).1 = x.templateFields.1
      ∧ (x.setCapture [.spelled (text ":all")]).2.captureOrder.1 = x.templateFields.1 := by
  have h' : Current s
      { x with
        requested := Capture.apply [.spelled (text ":all")] x.requested x.specialization.fields } :=
    ⟨h.specialization, h.tagged⟩
  have hall : (Marker.startNames (s.expand x.format).1).filter
        (· ∈ Capture.apply [.spelled (text ":all")] x.requested x.specialization.fields)
      = x.templateFields.1 := by
    rw [h.templateFields_eq hs] at hfields ⊢
    apply List.filter_eq_self.mpr
    intro name hname
    rw [decide_eq_true_iff, Capture.mem_apply_all, h.specialization]
    exact hfields name hname
  unfold Session.setCapture
  rw [h'.captureOrder_eq hs, h'.expanded.captureOrder_eq hs]
  exact ⟨hall, hall⟩

/-- Without hooks, the markers of a template are those of its tokens, in order and nothing else.
They pair up whatever is captured. The fields of the template are the fields of its tokens, all of
them known to the specialization; when all are asked for, all are captured. -/
theorem markers_balanced {d : Definition} {s : Specialization}
    (hd : Specialization.define d = .ok s) (hpre : d.preprocess = []) (hpost : d.postprocess = []) :
    (∀ format,
        (s.expand format).1 = (s.pieceTexts format).flatten
        ∧ Marker.markers (s.expand format).1 = (s.pieces format).flatMap s.pieceMarkers
        ∧ ∀ capture, ∃ resolved,
          ResolvedTemplate.ofTagged (s.expand format).1 capture = .ok resolved)
      ∧ ∀ calls i x, ((SessionPool.start s).after calls).session? i = some x →
        x.templateFields.1 = (s.pieces x.format).flatMap s.pieceFields
        ∧ (∀ name ∈ x.templateFields.1, name ∈ s.fields)
        ∧ (x.setCapture [.spelled (text ":all")]).1 = x.templateFields.1
        ∧ (x.setCapture [.spelled (text ":all")]).2.captureOrder.1 = x.templateFields.1 := by
  have hhookless := Specialization.hookless_of_define hd hpre hpost
  have hs := (Definition.steadyHooks_of_none hpre hpost).forgetful hd
  constructor
  · intro format
    refine ⟨hhookless.expand_eq format, hhookless.markers_expand format, fun capture => ?_⟩
    obtain ⟨resolved, hresolved, -⟩ := Session.ofTagged_isOk (hhookless.nest format) capture
    exact ⟨resolved, hresolved⟩
  intro calls i x hx
  have hcurrent := ((SessionPool.sound_start s).after hs calls).current hx
  have htemplate : x.templateFields.1 = (s.pieces x.format).flatMap s.pieceFields := by
    rw [hcurrent.templateFields_eq hs]
    exact hhookless.startNames_expand x.format
  have hfields : ∀ name ∈ x.templateFields.1, name ∈ s.fields := by
    intro name hname
    rw [htemplate] at hname
    obtain ⟨p, hp, hname⟩ := List.mem_flatMap.mp hname
    exact hhookless.pieceFields_subset hp hname
  exact ⟨htemplate, hfields, hcurrent.setCapture_all hs hfields⟩

/-- One field; behind the backslash stands what would be a marker otherwise. -/
def escapedMarker : Definition :=
  oneToken (text "%x") (text "(?#a)(?:\\(?#b)(?#!a)")

/-- Literal text that would be half a marker stands before the tokens. -/
theorem escapedMarker_balanced : ∃ s x, Specialization.define escapedMarker = .ok s
    ∧ ((SessionPool.start s).after
        [.create (Session.settings (some (text "(?#%x)%x")) none)]).session? 0 = some x
    ∧ Marker.markers (s.expand (text "(?#%x)%x")).1
      = [.start (text "a"), .stop (text "a"), .start (text "a"), .stop (text "a")]
    ∧ x.templateFields.1 = [text "a", text "a"]
    ∧ (x.setCapture [.spelled (text ":all")]).1 = [text "a", text "a"] := by
  have hvalues : ((Specialization.define escapedMarker).toOption.bind fun s =>
      (((SessionPool.start s).after
          [.create (Session.settings (some (text "(?#%x)%x")) none)]).session? 0).map fun x =>
        decide ((s.pieces (text "(?#%x)%x")).flatMap s.pieceMarkers
            = [.start (text "a"), .stop (text "a"), .start (text "a"), .stop (text "a")]
          ∧ (s.pieces x.format).flatMap s.pieceFields = [text "a", text "a"])) = some true := by
    cbv
  obtain ⟨s, hs, hx⟩ := Option.bind_eq_some_iff.mp hvalues
  obtain ⟨x, hx, hboth⟩ := Option.map_eq_some_iff.mp hx
  obtain ⟨hmarkers, hfields⟩ := of_decide_eq_true hboth
  have hd := define_of_toOption hs
  obtain ⟨htemplates, hsessions⟩ := markers_balanced hd rfl rfl
  obtain ⟨-, hexpand, -⟩ := htemplates (text "(?#%x)%x")
  obtain ⟨hnames, -, hall, -⟩ := hsessions _ 0 x hx
  exact ⟨s, x, hd, hx, hexpand.trans hmarkers, hnames.trans hfields,
    hall.trans (hnames.trans hfields)⟩

end LogTemplate
