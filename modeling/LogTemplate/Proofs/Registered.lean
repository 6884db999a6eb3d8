import LogTemplate.Proofs.Marker.Joining
import LogTemplate.Proofs.PropertyMap
import LogTemplate.Proofs.Template.Cut
import LogTemplate.Session

/-!
# LogTemplate.Proofs.Registered

What the checks of a specialization give for its templates, as long as no hook changes them.

* `Fragment.check_eq_ok` — the three conditions on a fragment.
* `Fragment.Accepted`, `Accepted.seamless` — an accepted fragment meets its neighbours cleanly.
* `Specialization.resolveAlias_eq_iff` — what a raw template may stand for.
* `Specialization.pieces` — a template as tokens and literal units; `Hookless.expand_eq` puts their
  texts together.
* `Capture.mem_apply_fields`, `mem_apply_all` — what capture items ask for.
* `Session.compile_start` — compilation with first settings.
* `Session.body`, `compile_body`, `after_body` — a compiled pattern is its body, anchored.
* `Session.settings` — the settings of a session that has only a format and capture items.
-/

namespace LogTemplate

open Regex (Mode Reads Token)

/-! ## Fragments -/

namespace Fragment

theorem check_eq_ok {f : Text} :
    check f = .ok () ↔
      Marker.nest [] (Marker.segments f) = some []
        ∧ (Regex.GroupScan.ofPattern (Marker.stripMarkers f)).capturing = 0
        ∧ ∃ r, Regex.plain (Marker.stripMarkers f) = .ok r := by
  rw [← Marker.pair_isOk_iff]
  unfold check
  cases Marker.pair (Marker.segments f) with
  | error e => simp
  | ok spans =>
    dsimp only
    split
    · rename_i h
      simp only [reduceCtorEq, false_iff, not_and]
      intro _ h'
      omega
    · rename_i h
      cases Regex.plain (Marker.stripMarkers f) with
      | error e => simp
      | ok r =>
        simp only [Except.ok.injEq, exists_eq', true_and, and_true, true_iff]
        omega

/-- A fragment that a token may stand for. -/
def Accepted (f : Text) : Prop :=
  check f = .ok ()

variable {f : Text}

/-- The tokens of the bare fragment, none of which opens a capturing group. -/
theorem Accepted.reads (h : Accepted f) :
    ∃ ks, Reads (.plain 0 false) (Marker.stripMarkers f) ks ∧ Regex.groupCount ks = 0 := by
  obtain ⟨-, hcount, r, hr⟩ := check_eq_ok.mp h
  obtain ⟨ks, node, hparse, -⟩ := Regex.plain_eq_ok.mp hr
  have hks : Regex.groupCount ks = 0 := by rw [← hparse.reads.groups_eq.1]; exact hcount
  have hnamed := Regex.isNamed_of_groupCount hks
  have hreads := hparse.reads
  rw [hks, hnamed] at hreads
  exact ⟨ks, hreads, hks⟩

theorem Accepted.after_eq (h : Accepted f) : Mode.outside.after f = .outside := by
  obtain ⟨ks, hreads, -⟩ := h.reads
  rw [← Marker.after_stripMarkers]
  exact hreads.after

theorem Accepted.opensPlain (h : Accepted f) : Marker.OpensPlain false f := by
  obtain ⟨ks, hreads, hcount⟩ := h.reads
  intro p q hpq hp
  rw [← Marker.stripMarkers_eq] at hpq
  rw [hpq] at hreads
  obtain ⟨ks₁, ks₂, -, h₂, rfl⟩ := Regex.reads_append (Regex.barrier_openParen q) hp hreads
  cases h₂ with
  | cons hread _ =>
    obtain ⟨o, rfl⟩ := Regex.readOpening_opening hread
    refine ⟨o, _, hread, ?_⟩
    rintro name rfl
    simp [Regex.groupCount] at hcount

theorem Accepted.seamless (h : Accepted f) : Marker.Seamless f :=
  Marker.seamless_of_opensPlain h.opensPlain h.after_eq

theorem Accepted.nest (h : Accepted f) : Marker.nest [] (Marker.segments f) = some [] :=
  (check_eq_ok.mp h).1

end Fragment

/-! ## Specializations -/

namespace Specialization

/-- A specialization that was accepted and has no hook. -/
structure Hookless (s : Specialization) : Prop where
  defined : ∃ d, define d = .ok s
  preprocess : s.preprocess = []
  postprocess : s.postprocess = []

theorem checkTokens_eq_ok {name : Text} {tokens : List (Text × Text)}
    (h : checkTokens name tokens = .ok ()) :
    ∀ a ∈ tokens, a.1 ≠ [] ∧ Fragment.Accepted a.2 := by
  induction tokens with
  | nil => intro a ha; cases ha
  | cons b tokens ih =>
    obtain ⟨token, fragment⟩ := b
    rw [checkTokens] at h
    split at h
    · cases h
    · rename_i hne
      split at h
      · cases h
      · rename_i hcheck
        intro a ha
        cases ha with
        | head => exact ⟨by simpa using hne, hcheck⟩
        | tail _ ha => exact ih h a ha

theorem checkTokens_of_accepted (name : Text) {tokens : List (Text × Text)}
    (h : ∀ a ∈ tokens, a.1 ≠ [] ∧ Fragment.Accepted a.2) : checkTokens name tokens = .ok () := by
  induction tokens with
  | nil => rfl
  | cons a tokens ih =>
    obtain ⟨hne, hcheck⟩ := h a (by simp)
    have hrest := ih fun b hb => h b (by simp [hb])
    rw [Fragment.Accepted] at hcheck
    rw [checkTokens, if_neg (by simpa using hne), hcheck]
    exact hrest

theorem define_eq_ok {d : Definition} {s : Specialization} (h : define d = .ok s) :
    (∀ a ∈ s.tokens.entries, a.1 ≠ [] ∧ Fragment.Accepted a.2)
      ∧ s.tokenOrder = Template.tokenOrder s.tokens.entries
      ∧ s.fields = Fragment.fieldNames s.tokens.values
      ∧ s.preprocess = d.preprocess ∧ s.postprocess = d.postprocess := by
  unfold define at h
  split at h
  · cases h
  · split at h
    · cases h
    · rename_i hcheck
      cases h
      exact ⟨checkTokens_eq_ok hcheck, rfl, rfl, rfl, rfl⟩

theorem tokens_of_define {d : Definition} {s : Specialization} (h : define d = .ok s) :
    s.tokens = d.tokens := by
  unfold define at h
  split at h
  · cases h
  · split at h
    · cases h
    · cases h
      rfl

theorem aliases_of_define {d : Definition} {s : Specialization} (h : define d = .ok s) :
    s.aliases = d.aliases := by
  unfold define at h
  split at h
  · cases h
  · split at h
    · cases h
    · cases h
      rfl

/-- An alias of the definition stands for its template, and every other text for itself. -/
theorem resolveAlias_eq_iff {d : Definition} {s : Specialization} (h : define d = .ok s)
    (hkeys : d.aliases.keys.Nodup) {raw template : Text} :
    s.resolveAlias raw = template
      ↔ (raw, template) ∈ d.aliases.entries ∨ (raw ∉ d.aliases.keys ∧ template = raw) := by
  rw [resolveAlias, aliases_of_define h, ← PropertyMap.get?_eq_some hkeys,
    ← PropertyMap.isSome_get?]
  cases d.aliases.get? raw with
  | none => simp [eq_comm]
  | some value => simp

/-- No token of a specialization is the empty text. -/
theorem nil_not_mem_keys {d : Definition} {s : Specialization} (h : define d = .ok s) :
    [] ∉ s.tokens.keys := by
  intro hmem
  obtain ⟨a, ha, hnil⟩ := List.mem_map.mp hmem
  exact ((define_eq_ok h).1 a ha).1 hnil

/-- The tokens and literal units of a template. -/
def pieces (s : Specialization) (format : Text) : List Template.Piece :=
  Template.cut s.tokens.keys (s.resolveAlias format)

/-- The pattern texts of the pieces, with their markers. -/
def pieceTexts (s : Specialization) (format : Text) : List Text :=
  (s.pieces format).map (Template.Piece.text (Template.fragmentOf s.tokens.entries))

variable {s : Specialization}

theorem mem_of_mem_cut {keys : List Text} {t key : Text}
    (h : Template.Piece.token key ∈ Template.cut keys t) : key ∈ keys := by
  fun_induction Template.cut keys t with
  | case1 => cases h
  | case2 u t hzero ih =>
    cases h with
    | tail _ h => exact ih h
  | case3 u t n hn ih =>
    cases h with
    | head =>
      have := (@Template.take_tokenLength keys (u :: t) (by omega)).1
      rw [hn] at this
      exact this
    | tail _ h => exact ih h

/-- The fragment of a token is the one it is listed with. -/
theorem fragmentOf_mem {entries : List (Text × Text)} {key : Text}
    (h : key ∈ entries.map (·.1)) : (key, Template.fragmentOf entries key) ∈ entries := by
  induction entries with
  | nil => cases h
  | cons a entries ih =>
    obtain ⟨k, f⟩ := a
    rw [Template.fragmentOf, List.lookup_cons]
    by_cases hk : key = k
    · subst hk
      simp
    · have hne : (key == k) = false := by simp [hk]
      rw [hne]
      simp only [List.map_cons, List.mem_cons] at h
      exact List.mem_cons_of_mem _ (ih (h.resolve_left hk))

theorem Hookless.accepted (h : s.Hookless) {key : Text} (hk : key ∈ s.tokens.keys) :
    Fragment.Accepted (Template.fragmentOf s.tokens.entries key) := by
  obtain ⟨d, hd⟩ := h.defined
  exact ((define_eq_ok hd).1 _ (fragmentOf_mem hk)).2

/-- Without hooks the expanded template is the texts of its pieces. -/
theorem Hookless.expand_eq (h : s.Hookless) (format : Text) :
    (s.expand format).1 = (s.pieceTexts format).flatten := by
  obtain ⟨d, hd⟩ := h.defined
  obtain ⟨-, horder, -⟩ := define_eq_ok hd
  unfold expand
  simp only [h.preprocess, h.postprocess, Hook.run, horder]
  rw [Template.substitute_escape, List.flatMap_def]
  rfl

/-- Without hooks nothing is remembered. -/
theorem Hookless.expand_snd (h : s.Hookless) (format : Text) : (s.expand format).2 = s := by
  obtain ⟨-, hpre, hpost⟩ := h
  cases s
  cases hpre
  cases hpost
  rfl

/-- What every piece of a template is like. -/
structure CleanPiece (x : Text) : Prop where
  seamless : Marker.Seamless x
  after : Mode.outside.after x = .outside
  nest : Marker.nest [] (Marker.segments x) = some []

theorem after_escapeUnit (u : UInt16) :
    Mode.outside.after (Template.escapeUnit u) = .outside := by
  rcases Template.escapeUnit_cases u with ⟨hu, eu⟩ | ⟨hu, cu, eu⟩ | ⟨hu, cu, eu⟩
  · rw [eu]; rfl
  · rw [eu]
    have hdigit {n : Nat} (hn : n < 16) :
        Mode.outside.next (Template.hexDigit n) = .outside := by
      obtain ⟨h₁, h₂, -⟩ := Marker.hexDigit_plain n hn
      simp [Mode.next, h₁, h₂]
    change ((Mode.outside.next _).next _) = Mode.outside
    rw [hdigit (by have := Template.toNat_lt_of_isControl cu; omega),
      hdigit (Nat.mod_lt _ (by decide))]
  · rw [eu]
    have hb : u ≠ Text.backslash := by rintro rfl; exact absurd hu (by decide)
    have hc : u ≠ Text.openBracket := by rintro rfl; exact absurd hu (by decide)
    change Mode.outside.next u = Mode.outside
    simp [Mode.next, hb, hc]

theorem cleanPiece_escapeUnit (u : UInt16) : CleanPiece (Template.escapeUnit u) := by
  refine ⟨Marker.seamless_escapeUnit u, after_escapeUnit u, ?_⟩
  rw [Marker.segments_escapeUnit_alone]
  rfl

theorem cleanPiece_of_accepted {f : Text} (h : Fragment.Accepted f) : CleanPiece f :=
  ⟨h.seamless, h.after_eq, h.nest⟩

theorem Hookless.cleanPiece (h : s.Hookless) {format x : Text} (hx : x ∈ s.pieceTexts format) :
    CleanPiece x := by
  rw [pieceTexts, List.mem_map] at hx
  obtain ⟨p, hp, rfl⟩ := hx
  cases p with
  | token key => exact cleanPiece_of_accepted (h.accepted (mem_of_mem_cut hp))
  | literal u => exact cleanPiece_escapeUnit u

end Specialization

namespace Marker

open LogTemplate.Specialization (CleanPiece)

variable {xs : List Text}

theorem segments_flatten_cons {x : Text} (hx : CleanPiece x) :
    segments (x :: xs).flatten = join (segments x) (segments xs.flatten) :=
  hx.seamless xs.flatten

/-- There are no markers to replace in an escaped unit. -/
theorem grouped_escapeUnit (capture : List Text) (u : UInt16) :
    grouped capture (Template.escapeUnit u) = Template.escapeUnit u := by
  change (segments (Template.escapeUnit u)).flatMap _ = _
  rw [segments_escapeUnit_alone, List.flatMap_cons, List.flatMap_nil, List.append_nil]
  rfl

/-- Markers are replaced in each piece on its own. -/
theorem grouped_flatten (capture : List Text) (h : ∀ x ∈ xs, CleanPiece x) :
    grouped capture xs.flatten = xs.flatMap (grouped capture) := by
  induction xs with
  | nil => exact replaced_nil false
  | cons x xs ih =>
    rw [List.flatMap_cons, ← ih fun y hy => h y (by simp [hy])]
    unfold grouped replaced
    change (segments (x :: xs).flatten).flatMap _ = _
    rw [segments_flatten_cons (h x (by simp)), flatMap_join (keepsText_group capture)]; rfl

theorem startNames_flatten (h : ∀ x ∈ xs, CleanPiece x) :
    startNames xs.flatten = xs.flatMap startNames := by
  induction xs with
  | nil => rw [startNames, List.flatten_nil, segments_nil]; rfl
  | cons x xs ih =>
    rw [List.flatMap_cons, ← ih fun y hy => h y (by simp [hy]), startNames,
      segments_flatten_cons (h x (by simp)), startNames_join]; rfl

theorem nest_flatten (h : ∀ x ∈ xs, CleanPiece x) : nest [] (segments xs.flatten) = some [] := by
  induction xs with
  | nil => rw [List.flatten_nil, segments_nil]; rfl
  | cons x xs ih =>
    have hx := h x (by simp)
    rw [segments_flatten_cons hx, nest_join, hx.nest]
    exact ih fun y hy => h y (by simp [hy])

theorem after_flatten (h : ∀ x ∈ xs, CleanPiece x) :
    Mode.outside.after xs.flatten = .outside := by
  induction xs with
  | nil => rfl
  | cons x xs ih =>
    rw [List.flatten_cons, Mode.after_append, (h x (by simp)).after]
    exact ih fun y hy => h y (by simp [hy])

end Marker

/-- The markers of a template without hooks pair up. -/
theorem Specialization.Hookless.nest {s : Specialization} (h : s.Hookless) (format : Text) :
    Marker.nest [] (Marker.segments (s.expand format).1) = some [] := by
  rw [h.expand_eq]
  exact Marker.nest_flatten fun x hx => h.cleanPiece hx

/-! ## Capture items -/

theorem Text.mem_distinct {ts : List Text} {t : Text} : t ∈ distinct ts ↔ t ∈ ts := by
  suffices h : ∀ seen : List Text,
      t ∈ ts.foldl (fun seen t => if t ∈ seen then seen else seen ++ [t]) seen
        ↔ t ∈ seen ∨ t ∈ ts by
    exact (h []).trans (by simp)
  induction ts with
  | nil => simp
  | cons u ts ih =>
    intro seen
    rw [List.foldl_cons, ih, List.mem_cons]
    split
    · rename_i hu
      constructor
      · rintro (h | h)
        · exact .inl h
        · exact .inr (.inr h)
      · rintro (h | rfl | h)
        · exact .inl h
        · exact .inl hu
        · exact .inr h
    · rw [List.mem_append, List.mem_singleton, or_assoc]

namespace Capture

theorem mem_add {names : List Text} {name t : Text} :
    t ∈ add names name ↔ t ∈ names ∨ t = name := by
  unfold add
  split
  · rename_i h
    constructor
    · exact .inl
    · rintro (h' | rfl)
      · exact h'
      · exact h
  · simp

/-- Items that are all fields ask for these fields, and for what was asked before. -/
theorem mem_apply_fields {names current every : List Text} {t : Text} :
    t ∈ apply (names.map fun name => .explicit (.field name)) current every
      ↔ t ∈ current ∨ t ∈ names := by
  unfold apply
  rw [List.map_map, ← @Text.mem_distinct current]
  generalize Text.distinct current = seen
  induction names generalizing seen with
  | nil => simp
  | cons name names ih =>
    rw [List.map_cons, List.foldl_cons, ih]
    change t ∈ add seen name ∨ _ ↔ _
    rw [mem_add, List.mem_cons, or_assoc]

/-- All fields are asked for by one item, whatever was asked before. -/
theorem mem_apply_all {current every : List Text} {t : Text} :
    t ∈ apply [.spelled (text ":all")] current every ↔ t ∈ every := by
  change t ∈ step every (Text.distinct current)
    (CaptureItem.spelled (text ":all")).toInstruction ↔ _
  have hall : (CaptureItem.spelled (text ":all")).toInstruction = .all := by decide
  rw [hall]
  exact Text.mem_distinct

end Capture

/-! ## Compilation -/

theorem ResolvedTemplate.captured_of_ofTagged {tagged : Text} {capture : List Text}
    {r : ResolvedTemplate} (h : ofTagged tagged capture = .ok r) :
    r.captured = (Marker.startNames tagged).filter (· ∈ capture) := by
  unfold ofTagged at h
  dsimp only at h
  split at h
  · cases h
  · cases h
    rfl

/-- As long as tracing does not fail, a line is matched by the expression alone. -/
theorem CompiledPattern.exec_result {p : CompiledPattern} {line : Text}
    (h : ∀ t, p.tracer = some t → (t.trace line).failure = none) :
    (p.exec line).result = .ok ((p.regexp.exec line).map (fieldMatch p.fields)) := by
  unfold exec
  cases ht : p.tracer with
  | none => rfl
  | some t =>
    dsimp only
    rw [h t ht]

namespace Session

/-- The fields that the capture items ask for. -/
def requestedOf (s : Specialization) (capture : Option (List CaptureItem)) : List Text :=
  Capture.apply (capture.getD s.capture) [] s.fields

/-- Compilation with first settings goes by the expanded template alone. -/
theorem compile_start (s : Specialization) (o : Options) :
    (start s o).compile.1 =
      match ResolvedTemplate.ofTagged (s.expand (o.format.getD s.format)).1
        (requestedOf s o.capture) with
      | .error fault => .error (.configuration (.template fault))
      | .ok resolved => CompiledPattern.assemble resolved o.comments o.trace o.sink := by
  unfold start setCapture captureOrder templateFields taggedTemplate compile taggedTemplate
  dsimp only
  unfold requestedOf
  cases ResolvedTemplate.ofTagged (s.expand (o.format.getD s.format)).1
    (Capture.apply (o.capture.getD s.capture) [] s.fields) <;> rfl

/-- Without hooks a session leaves the specialization as it found it. -/
theorem specialization_compile {s : Specialization} (h : s.Hookless) (o : Options) :
    (start s o).compile.2.specialization = s := by
  unfold start setCapture captureOrder templateFields taggedTemplate compile taggedTemplate
  dsimp only
  cases ResolvedTemplate.ofTagged (s.expand (o.format.getD s.format)).1
    (Capture.apply (o.capture.getD s.capture) [] s.fields) <;> exact h.expand_snd _

/-- The pattern between the anchors: the expanded template with its markers turned into groups. -/
def body (s : Specialization) (o : Options) : Text :=
  Marker.grouped (requestedOf s o.capture) (s.expand (o.format.getD s.format)).1

theorem assemble_eq_ok {resolved : ResolvedTemplate} {comments trace : Bool} {sink : TraceSink}
    {p : CompiledPattern} (h : CompiledPattern.assemble resolved comments trace sink = .ok p) :
    Regex.plain (CompiledPattern.anchor (Marker.stripMarkers resolved.marked)) = .ok p.regexp
      ∧ p.fields = resolved.captured
      ∧ (trace = false → p.tracer = none) := by
  unfold CompiledPattern.assemble at h
  dsimp only at h
  split at h
  · cases h
  · rename_i regexp hr
    split at h
    · split at h
      · cases h
      · rename_i htrace _ _ _
        cases h
        exact ⟨hr, rfl, fun hf => by rw [hf] at htrace; cases htrace⟩
    · cases h; exact ⟨hr, rfl, fun _ => rfl⟩

/-- A traced pattern has the tracer of its segments, and any other has none. -/
theorem assemble_tracer {resolved : ResolvedTemplate} {comments trace : Bool} {sink : TraceSink}
    {p : CompiledPattern} (h : CompiledPattern.assemble resolved comments trace sink = .ok p)
    {t : Tracer} (ht : p.tracer = some t) :
    trace = true ∧ Tracer.ofSegments (Marker.segments resolved.marked) = .ok t := by
  unfold CompiledPattern.assemble at h
  dsimp only at h
  split at h
  · cases h
  · split at h
    · rename_i htrace
      split at h
      · cases h
      · rename_i t' ht'
        cases h
        cases ht
        exact ⟨htrace, ht'⟩
    · cases h
      cases ht

theorem assemble_of_ok {resolved : ResolvedTemplate} {r : Regex} (comments : Bool)
    (sink : TraceSink)
    (h : Regex.plain (CompiledPattern.anchor (Marker.stripMarkers resolved.marked)) = .ok r) :
    ∃ p, CompiledPattern.assemble resolved comments false sink = .ok p ∧ p.regexp = r
      ∧ p.fields = resolved.captured := by
  unfold CompiledPattern.assemble
  rw [Marker.stripMarkers] at h
  simp only [h]
  exact ⟨_, rfl, rfl, rfl⟩

theorem compile_eq_ok {s : Specialization} {o : Options} {p : CompiledPattern}
    (h : (start s o).compile.1 = .ok p) :
    ∃ resolved, ResolvedTemplate.ofTagged (s.expand (o.format.getD s.format)).1
        (requestedOf s o.capture) = .ok resolved
      ∧ CompiledPattern.assemble resolved o.comments o.trace o.sink = .ok p := by
  rw [compile_start] at h
  split at h
  · cases h
  · rename_i resolved hr; exact ⟨resolved, hr, h⟩

theorem ofTagged_isOk {tagged : Text} (hnest : Marker.nest [] (Marker.segments tagged) = some [])
    (capture : List Text) :
    ∃ resolved, ResolvedTemplate.ofTagged tagged capture = .ok resolved
      ∧ resolved.captured = (Marker.startNames tagged).filter (· ∈ capture) := by
  rw [← Marker.pair_isOk_iff] at hnest
  obtain ⟨spans, hspans⟩ := hnest
  unfold ResolvedTemplate.ofTagged
  simp only [hspans]
  exact ⟨_, rfl, rfl⟩

/-- Without tracing, a template whose markers pair up compiles if its anchored body is a pattern. -/
theorem compile_of_plain {s : Specialization} {o : Options}
    (hnest : Marker.nest [] (Marker.segments (s.expand (o.format.getD s.format)).1) = some [])
    (htrace : o.trace = false) {r : Regex}
    (h : Regex.plain (CompiledPattern.anchor (body s o)) = .ok r) :
    ∃ p, (start s o).compile.1 = .ok p ∧ p.regexp = r
      ∧ p.fields = (Marker.startNames (s.expand (o.format.getD s.format)).1).filter
        (· ∈ requestedOf s o.capture) := by
  obtain ⟨resolved, hresolved, hcaptured⟩ := ofTagged_isOk hnest (requestedOf s o.capture)
  rw [body, ← ResolvedTemplate.strip_of_ofTagged hresolved] at h
  obtain ⟨p, hp, hregexp, hfields⟩ := assemble_of_ok o.comments o.sink h
  refine ⟨p, ?_, hregexp, hfields.trans hcaptured⟩
  rw [compile_start, hresolved, htrace]
  exact hp

/-- A compiled pattern is its body between anchors. -/
theorem compile_body {s : Specialization} {o : Options} {p : CompiledPattern}
    (h : (start s o).compile.1 = .ok p) :
    Regex.plain (CompiledPattern.anchor (body s o)) = .ok p.regexp := by
  obtain ⟨resolved, hr, hassemble⟩ := compile_eq_ok h
  rw [body, ← ResolvedTemplate.strip_of_ofTagged hr]
  exact (assemble_eq_ok hassemble).1

/-- Without tracing, a line is matched by the expression alone. -/
theorem exec_of_not_traced {s : Specialization} {o : Options} {p : CompiledPattern}
    (h : (start s o).compile.1 = .ok p) (htrace : o.trace = false) (line : Text) :
    (p.exec line).result
      = .ok ((p.regexp.exec line).map (CompiledPattern.fieldMatch p.fields)) := by
  obtain ⟨resolved, -, hassemble⟩ := compile_eq_ok h
  apply CompiledPattern.exec_result
  intro t ht
  rw [(assemble_eq_ok hassemble).2.2 htrace] at ht
  cases ht

/-- Without hooks the body ends outside of classes and escapes. -/
theorem after_body {s : Specialization} (hs : s.Hookless) (o : Options) :
    Mode.outside.after (body s o) = .outside := by
  rw [body, Marker.after_grouped, hs.expand_eq]
  exact Marker.after_flatten fun x hx => hs.cleanPiece hx

end Session

theorem Specialization.hookless_of_define {d : Definition} {s : Specialization}
    (hd : define d = .ok s) (hpre : d.preprocess = []) (hpost : d.postprocess = []) :
    s.Hookless := by
  obtain ⟨-, -, -, h₁, h₂⟩ := define_eq_ok hd
  exact ⟨⟨d, hd⟩, h₁.trans hpre, h₂.trans hpost⟩

/-- Nothing but a format and capture items. -/
def Session.settings (format : Option Text) (capture : Option (List CaptureItem)) : Options where
  format := format
  capture := capture
  comments := false
  trace := false
  sink := .buffer

end LogTemplate
