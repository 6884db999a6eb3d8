import LogTemplate.Proofs.Regex.Reached
import LogTemplate.Proofs.Regex.Steady
import LogTemplate.Proofs.Tracing

/-!
# LogTemplate.Proofs.Pattern.Agreement

The tracer and the matcher agree on which lines match.

* `Segment.probed_resolved` — the pattern with probes, by the segments of the tagged template.
* `Marker.reads_probed` — its tokens are those of the pattern and two more for each probe.
* `Parse.tokens_eq` — a pattern has the tokens that can be read however many groups there are.
* `CompiledPattern.ShowsFullMatch` — the trace of a line is that of the whole pattern.
* `tracer_agrees` — it is exactly if the line matches.
-/

namespace LogTemplate

open Regex (Mode Reads Token Aligned Renumbering Parse decimalFree)

namespace Marker

/-! ## The pattern with probes -/

/-- What stands for a segment in the pattern with probes: a field becomes a group that ends with an
empty group. -/
def Segment.probedGroup (capture : List Text) : Segment → Text :=
  Segment.resolved Segment.probed capture

theorem keepsText_probed : KeepsText Segment.probed :=
  fun _ => rfl

variable {capture : List Text}

theorem keepsText_probedGroup (capture : List Text) : KeepsText (Segment.probedGroup capture) :=
  keepsText_resolved Segment.probed capture

theorem probedGroup_start (name : Text) :
    (Segment.start name).probedGroup capture = ResolvedTemplate.groupStart capture name :=
  List.append_nil _

theorem probed_of_ofTagged {tagged : Text} {r : ResolvedTemplate}
    (h : ResolvedTemplate.ofTagged tagged capture = .ok r) :
    (segments r.marked).flatMap Segment.probed
      = (segments tagged).flatMap (Segment.probedGroup capture) := by
  rw [ResolvedTemplate.marked_of_ofTagged h]
  exact replaced_replaced_wrap keepsText_probed capture false tagged

variable {n : Nat} {b : Bool}

/-- Behind the text `c`, the tokens of segments with probes are those of the segments without, and
an empty group before the parenthesis that closes a field. -/
theorem reads_probed (ss : List Segment) : ∀ {c : Text} {ks : List Token},
    Outside (Mode.outside.after c) ss →
    decimalFree .outside (c ++ ss.flatMap (Segment.group capture)) = true →
    Reads (.plain n b) (c ++ ss.flatMap (Segment.group capture)) ks →
    ∃ ls d, Aligned ks ls d
      ∧ ∀ m, Reads (.plain m b) (c ++ ss.flatMap (Segment.probedGroup capture)) ls := by
  induction ss with
  | nil =>
    intro c ks _ hfree hr
    obtain ⟨d, hd⟩ := Regex.aligned_self hr.isCommon
    exact ⟨ks, d, hd, fun m => hr.steady hfree m⟩
  | cons s ss ih =>
    intro c ks hout hfree hr
    simp only [List.flatMap_cons] at hfree hr ⊢
    cases s with
    | text value =>
      have hout' : Outside (Mode.outside.after (c ++ value)) ss := by
        rw [Mode.after_append]
        exact hout
      change decimalFree .outside (c ++ (value ++ _)) = true at hfree
      change Reads _ (c ++ (value ++ _)) ks at hr
      change ∃ ls d, Aligned ks ls d ∧ ∀ m, Reads _ (c ++ (value ++ _)) ls
      rw [← List.append_assoc] at hfree hr ⊢
      exact ih hout' hfree hr
    | start name =>
      have hout' : Outside
          (Mode.outside.after (c ++ ResolvedTemplate.groupStart capture name)) ss := by
        rw [Mode.after_append, hout.1, after_groupStart]
        exact hout.2
      rw [probedGroup_start]
      change decimalFree .outside (c ++ (ResolvedTemplate.groupStart capture name ++ _)) = true
        at hfree
      change Reads _ (c ++ (ResolvedTemplate.groupStart capture name ++ _)) ks at hr
      rw [← List.append_assoc] at hfree hr ⊢
      exact ih hout' hfree hr
    | stop name =>
      obtain ⟨hc, hout⟩ := hout
      change decimalFree .outside (c ++ Text.closeParen :: _) = true at hfree
      change Reads _ (c ++ Text.closeParen :: _) ks at hr
      change ∃ ls d, Aligned ks ls d ∧
        ∀ m, Reads _ (c ++ Text.openParen :: Text.closeParen :: Text.closeParen :: _) ls
      rw [Regex.decimalFree_append, hc, Bool.and_eq_true] at hfree
      obtain ⟨ks₁, ks₂, h₁, h₂, rfl⟩ := Regex.reads_append (Regex.barrier_closeParen _) hc hr
      cases h₂ with
      | cons hread hrest =>
        cases hread
        have hfree₂ : decimalFree .outside (ss.flatMap (Segment.group capture)) = true := by
          have := hfree.2
          rw [decimalFree, Bool.and_eq_true] at this
          exact this.2
        -- no token reaches over the parenthesis, so the probe stands between whole tokens
        obtain ⟨ls, e, haligned, hls⟩ := ih (c := []) hout hfree₂ hrest
        obtain ⟨d, hd⟩ := Regex.aligned_self h₁.isCommon
        refine ⟨_, _, hd.append (.probe haligned), fun m => ?_⟩
        exact (h₁.steady hfree.1 m).append (Regex.barrier_openParen _)
          (.cons rfl (.cons rfl (.cons rfl (hls m))))

end Marker

/-! ## Tokens of a pattern -/

namespace CompiledPattern

theorem anchor_flatMap {f : Marker.Segment → Text} (hf : Marker.KeepsText f)
    (ss : List Marker.Segment) :
    anchor (ss.flatMap f)
      = [Text.caret] ++ (ss ++ [Marker.Segment.text [Text.dollar]]).flatMap f := by
  rw [List.flatMap_append, List.flatMap_singleton, hf]
  rfl

theorem decimalFree_anchor (body : Text) :
    decimalFree .outside (anchor body) = decimalFree .outside body := by
  have hdollar (m : Mode) : decimalFree m [Text.dollar] = true := by cases m <;> rfl
  change (true && decimalFree .outside (body ++ [Text.dollar])) = _
  rw [Regex.decimalFree_append, hdollar, Bool.and_true, Bool.true_and]

end CompiledPattern

/-- The tokens of an anchored pattern, and of the same pattern with probes. -/
theorem Marker.reads_probed_anchor (tagged : Text) {capture : List Text} {n : Nat} {b : Bool}
    {ks : List Token}
    (hfree : decimalFree .outside (CompiledPattern.anchor (grouped capture tagged)) = true)
    (hr : Reads (.plain n b) (CompiledPattern.anchor (grouped capture tagged)) ks) :
    ∃ ls d, Aligned ks ls d ∧ ∀ m, Reads (.plain m b)
      (CompiledPattern.anchor ((segments tagged).flatMap (Segment.probedGroup capture))) ls := by
  have hout : Outside (Mode.outside.after [Text.caret])
      (segments tagged ++ [.text [Text.dollar]]) :=
    (outside_segmentsFrom false tagged).concat [Text.dollar]
  unfold grouped replaced at hfree hr
  rw [CompiledPattern.anchor_flatMap (keepsText_group capture)] at hfree hr
  rw [CompiledPattern.anchor_flatMap (keepsText_probedGroup capture)]
  exact reads_probed _ hout hfree hr

namespace Regex

/-- The tokens of a pattern are those that are read of it whatever the number of groups. -/
theorem Parse.tokens_eq {pattern : Text} {ks ls : List Token} {node : Node}
    (h : Parse pattern ks node)
    (hls : ∀ m, Reads (.plain m (ls.any Token.isNamed)) pattern ls) : ks = ls := by
  have hnamed : ks.any Token.isNamed = ls.any Token.isNamed := by
    rw [← h.reads.groups_eq.2, (hls 0).groups_eq.2]
  have hreads := h.reads
  rw [hnamed] at hreads
  exact hreads.unique (hls (groupCount ks))

/-- Without references by number, patterns whose tokens correspond match the same texts. -/
theorem Aligned.exec_isSome {ks ls : List Token} {d : Renumbering} (h : Aligned ks ls d)
    {pattern pattern' : Text} {node node' : Node} (hks : Parse pattern ks node)
    (hls : Parse pattern' ls node') (hcommon : ∀ k ∈ ks, k.IsCommon 0) {r r' : Regex}
    (hr : r = ⟨.off, node, groupCount ks, groupNames 0 ks⟩)
    (hr' : r' = ⟨.off, node', groupCount ls, groupNames 0 ls⟩) (input : Text) :
    (r.exec input).isSome ↔ (r'.exec input).isSome := by
  subst hr hr'
  exact (h.twin_of_isCommon hks hls hcommon).exec_isSome rfl rfl input

end Regex

/-! ## Tracer and matcher -/

namespace Tracer

theorem ofSegments_eq_ok {ss : List Marker.Segment} {t : Tracer} (h : ofSegments ss = .ok t) :
    Regex.plain (CompiledPattern.anchor (ss.flatMap Marker.Segment.probed)) = .ok t.full
      ∧ t.probes = (instrument [] ss).2.map (·.probe)
      ∧ t.beginnings = ((instrument [] ss).2.mapIdx fun i cut =>
          (i, Regex.plain (beginningPattern cut.source))).reverse := by
  unfold ofSegments at h
  dsimp only at h
  split at h
  · cases h
  · rename_i full hfull
    cases h
    rw [fullPattern, instrument_fst] at hfull
    exact ⟨hfull, rfl, rfl⟩

end Tracer

namespace CompiledPattern

variable {tagged : Text} {capture : List Text} {resolved : ResolvedTemplate}

theorem exists_tracer {comments : Bool} {sink : TraceSink} {p : CompiledPattern}
    (h : assemble resolved comments true sink = .ok p) : ∃ t, p.tracer = some t := by
  unfold assemble at h
  dsimp only at h
  split at h
  · cases h
  · rw [if_pos rfl] at h
    split at h
    · cases h
    · cases h
      exact ⟨_, rfl⟩

/-- A traced pattern writes what its tracer writes, as long as tracing does not fail. -/
theorem exec_of_tracer {p : CompiledPattern} {t : Tracer} (ht : p.tracer = some t) {line : Text}
    (hfailure : (t.trace line).failure = none) :
    p.exec line
      = ⟨(t.trace line).written, .ok ((p.regexp.exec line).map (fieldMatch p.fields))⟩ := by
  simp only [exec, ht, hfailure]

/-- The trace of the line is that of a match of the whole pattern with probes, not of a beginning
of it. -/
def ShowsFullMatch (p : CompiledPattern) (line : Text) : Prop :=
  ∃ t m, p.tracer = some t ∧ t.full.exec line = some m
    ∧ (p.exec line).written = Text.lineFeed :: Tracer.report m t.probes

/-- Without references by number, the pattern with probes matches what the pattern matches. -/
theorem full_exec_isSome (h : ResolvedTemplate.ofTagged tagged capture = .ok resolved)
    (hfree : decimalFree .outside (Marker.stripMarkers resolved.marked) = true) {r full : Regex}
    (hr : Regex.plain (anchor (Marker.stripMarkers resolved.marked)) = .ok r)
    (hfull : Regex.plain
      (anchor ((Marker.segments resolved.marked).flatMap Marker.Segment.probed)) = .ok full)
    (line : Text) : (full.exec line).isSome ↔ (r.exec line).isSome := by
  rw [ResolvedTemplate.strip_of_ofTagged h] at hfree hr
  rw [Marker.probed_of_ofTagged h] at hfull
  obtain ⟨ks, node, hks, hr⟩ := Regex.plain_eq_ok.mp hr
  obtain ⟨ls', node', hls', hfull⟩ := Regex.plain_eq_ok.mp hfull
  rw [← decimalFree_anchor] at hfree
  obtain ⟨ls, d, haligned, hls⟩ := Marker.reads_probed_anchor tagged hfree hks.reads
  rw [haligned.isNamed] at hls
  cases hls'.tokens_eq hls
  exact (haligned.exec_isSome hks hls' (hks.reads.isCommon_zero hfree) hr hfull line).symm

/-- Whatever the fields of a template are and whichever of them are captured: without references by
number, the pattern with an empty group behind every end marker matches a line exactly if the
pattern does, and exactly then the trace of the line is that of the whole pattern. -/
theorem tracer_agrees (h : ResolvedTemplate.ofTagged tagged capture = .ok resolved)
    {comments : Bool} {sink : TraceSink} {p : CompiledPattern}
    (hp : assemble resolved comments true sink = .ok p)
    (hfree : decimalFree .outside (Marker.stripMarkers resolved.marked) = true) :
    ∃ t, p.tracer = some t
      ∧ Regex.plain (anchor ((Marker.segments resolved.marked).flatMap Marker.Segment.probed))
          = .ok t.full
      ∧ ∀ line, ((t.full.exec line).isSome ↔ (p.regexp.exec line).isSome)
        ∧ (p.ShowsFullMatch line ↔ ∃ found, (p.exec line).result = .ok (some found)) := by
  obtain ⟨hr, -, -⟩ := Session.assemble_eq_ok hp
  obtain ⟨t, ht⟩ := exists_tracer hp
  obtain ⟨hfull, -, -⟩ := Tracer.ofSegments_eq_ok (Session.assemble_tracer hp ht).2
  refine ⟨t, ht, hfull, fun line => ?_⟩
  have hagree := full_exec_isSome h hfree hr hfull line
  refine ⟨hagree, ?_⟩
  cases hm : t.full.exec line with
  | some m =>
    have htrace : t.trace line = ⟨Text.lineFeed :: Tracer.report m t.probes, none⟩ := by
      rw [Tracer.trace, hm]
    obtain ⟨m', hm'⟩ := Option.isSome_iff_exists.mp (hagree.mp (by rw [hm]; rfl))
    rw [ShowsFullMatch, exec_of_tracer ht (by rw [htrace]), htrace, hm']
    exact ⟨fun _ => ⟨_, rfl⟩, fun _ => ⟨t, m, ht, hm, rfl⟩⟩
  | none =>
    have hnone : p.regexp.exec line = none := by
      rw [← Option.not_isSome_iff_eq_none, ← hagree, hm]
      exact Bool.false_ne_true
    constructor
    · rintro ⟨t', m, ht', hm', -⟩
      cases ht.symm.trans ht'
      cases hm.symm.trans hm'
    · rintro ⟨found, hfound⟩
      simp only [exec, ht, hnone, Option.map_none] at hfound
      split at hfound <;> cases hfound

/-- A field in an alternative of a repeated group, and a look-ahead. -/
theorem nestedFields_agree : ∃ resolved p,
    ResolvedTemplate.ofTagged (text "(?#a)(?:x(?=y)|(?#b)y(?#!b))*(?#!a)") [text "a"] = .ok resolved
    ∧ assemble resolved false true .buffer = .ok p
    ∧ decimalFree .outside (Marker.stripMarkers resolved.marked) = true
    ∧ ∃ t, p.tracer = some t
      ∧ Regex.plain (anchor ((Marker.segments resolved.marked).flatMap Marker.Segment.probed))
          = .ok t.full
      ∧ ∀ line, ((t.full.exec line).isSome ↔ (p.regexp.exec line).isSome)
        ∧ (p.ShowsFullMatch line ↔ ∃ found, (p.exec line).result = .ok (some found)) := by
  have hrun : ((ResolvedTemplate.ofTagged
      (text "(?#a)(?:x(?=y)|(?#b)y(?#!b))*(?#!a)") [text "a"]).toOption.any
        fun resolved => (assemble resolved false true .buffer).toOption.isSome
          && decimalFree .outside (Marker.stripMarkers resolved.marked)) = true := by
    cbv
  obtain ⟨resolved, hresolved, hrun⟩ := (Option.any_eq_true _ _).mp hrun
  rw [Bool.and_eq_true] at hrun
  obtain ⟨p, hp⟩ := Option.isSome_iff_exists.mp hrun.1
  have hresolved := eq_ok_of_toOption hresolved
  have hp := eq_ok_of_toOption hp
  exact ⟨resolved, p, hresolved, hp, hrun.2, tracer_agrees hresolved hp hrun.2⟩

end CompiledPattern

end LogTemplate
