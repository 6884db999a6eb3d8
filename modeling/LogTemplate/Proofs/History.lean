import LogTemplate.Proofs.OneToken
import LogTemplate.Proofs.Pattern.Kept
import LogTemplate.Proofs.SteadyHooks
import LogTemplate.SessionPool

/-!
# LogTemplate.Proofs.History

Sessions that share a specialization answer by their present settings alone.

* `Session.Current` — the tagged template that is known is the one of the format; `Current.perform`
  for one operation.
* `Session.SameSettings`, `Session.SameOutcomes` — what answers depend on, and the answers.
* `SessionPool.Sound`, `Sound.perform`, `Sound.after` — no call changes any of this.
* `history_independent` — the same settings give the same outcomes, whatever was called before.
-/

namespace LogTemplate

/-! ## Sessions -/

/-- Only which names are captured counts, not their order. -/
theorem ResolvedTemplate.ofTagged_congr {capture capture' : List Text}
    (h : ∀ name, name ∈ capture ↔ name ∈ capture') (tagged : Text) :
    ofTagged tagged capture = ofTagged tagged capture' := by
  have hgroup : groupStart capture = groupStart capture' := by
    funext name
    simp only [groupStart, h]
  have hwrap : wrap capture = wrap capture' := by
    funext segment
    cases segment <;> simp only [wrap, hgroup]
  unfold ofTagged
  simp only [hwrap, h]

namespace Session

/-- A session on `s`; the tagged template, if it is known, is the one of the present format. -/
structure Current (s : Specialization) (x : Session) : Prop where
  specialization : x.specialization = s
  tagged : ∀ t, x.tagged = some t → t = (s.expand x.format).1

/-- The session that knows its tagged template. -/
def expanded (s : Specialization) (x : Session) : Session :=
  { x with tagged := some (s.expand x.format).1 }

/-- What compilation gives on the specialization as it is. -/
def outcome (s : Specialization) (x : Session) : Except CompileFault CompiledPattern :=
  match ResolvedTemplate.ofTagged (s.expand x.format).1 x.requested with
  | .error fault => .error (.configuration (.template fault))
  | .ok resolved => CompiledPattern.assemble resolved x.comments x.trace x.sink

variable {s : Specialization} {x y : Session}

theorem Current.expanded (h : x.Current s) : (x.expanded s).Current s :=
  ⟨h.specialization, fun _ ht => (Option.some.inj ht).symm⟩

theorem Current.taggedTemplate_eq (h : x.Current s) (hs : s.Forgetful) :
    x.taggedTemplate = ((s.expand x.format).1, x.expanded s) := by
  obtain ⟨specialization, format, requested, comments, trace, sink, tagged⟩ := x
  obtain ⟨hspecialization, htagged⟩ := h
  dsimp only at hspecialization htagged
  subst hspecialization
  cases tagged with
  | some tagged =>
    rw [htagged tagged rfl]
    rfl
  | none =>
    unfold taggedTemplate Session.expanded
    dsimp only
    rw [hs format]

theorem Current.templateFields_eq (h : x.Current s) (hs : s.Forgetful) :
    x.templateFields = (Marker.startNames (s.expand x.format).1, x.expanded s) := by
  unfold templateFields
  rw [h.taggedTemplate_eq hs]

theorem Current.captureOrder_eq (h : x.Current s) (hs : s.Forgetful) :
    x.captureOrder
      = ((Marker.startNames (s.expand x.format).1).filter (· ∈ x.requested), x.expanded s) := by
  unfold captureOrder
  rw [h.templateFields_eq hs]
  rfl

theorem Current.compile_eq (h : x.Current s) (hs : s.Forgetful) :
    x.compile = (x.outcome s, x.expanded s) := by
  unfold compile outcome
  rw [h.taggedTemplate_eq hs]
  dsimp only [Session.expanded]
  cases ResolvedTemplate.ofTagged (s.expand x.format).1 x.requested <;> rfl

theorem Current.setCapture (h : x.Current s) (hs : s.Forgetful) (items : List CaptureItem) :
    (x.setCapture items).2.Current s := by
  unfold Session.setCapture
  have h' : Current s
      { x with requested := Capture.apply items x.requested x.specialization.fields } :=
    ⟨h.specialization, h.tagged⟩
  rw [h'.captureOrder_eq hs]
  exact h'.expanded

theorem current_start (hs : s.Forgetful) (o : Options) : (start s o).Current s := by
  have h : Current s
      { specialization := s, format := o.format.getD s.format, requested := []
        comments := o.comments, trace := o.trace, sink := o.sink, tagged := none } :=
    ⟨rfl, fun t ht => by cases ht⟩
  exact h.setCapture hs _

/-- No operation leaves anything behind but the settings. -/
theorem Current.perform (h : x.Current s) (hs : s.Forgetful) (operation : Operation) :
    (x.perform operation).2.Current s := by
  cases operation with
  | setFormat format => exact ⟨h.specialization, fun t ht => by cases ht⟩
  | setCapture items => exact h.setCapture hs items
  | setComments => exact ⟨h.specialization, h.tagged⟩
  | setTrace => exact ⟨h.specialization, h.tagged⟩
  | getCapture =>
    simp only [Session.perform, h.captureOrder_eq hs]
    exact h.expanded
  | templateFields =>
    simp only [Session.perform, h.templateFields_eq hs]
    exact h.expanded
  | taggedTemplate =>
    simp only [Session.perform, h.taggedTemplate_eq hs]
    exact h.expanded
  | compile =>
    simp only [Session.perform, h.compile_eq hs]
    exact h.expanded
  | getFormat | getComments | getTrace | requestedFields | allFields => exact h

/-- The settings that answers depend on. -/
structure SameSettings (x y : Session) : Prop where
  format : x.format = y.format
  requested : ∀ name, name ∈ x.requested ↔ name ∈ y.requested
  comments : x.comments = y.comments
  trace : x.trace = y.trace

/-- The same fault, or patterns that are alike. -/
def SameOutcome : Except CompileFault CompiledPattern → Except CompileFault CompiledPattern → Prop
  | .error fault, .error fault' => fault = fault'
  | .ok p, .ok q => p.Alike q
  | _, _ => False

structure SameOutcomes (x y : Session) : Prop where
  taggedTemplate : x.taggedTemplate.1 = y.taggedTemplate.1
  templateFields : x.templateFields.1 = y.templateFields.1
  captureOrder : x.captureOrder.1 = y.captureOrder.1
  compile : SameOutcome x.compile.1 y.compile.1

theorem SameSettings.outcome (h : x.SameSettings y) : SameOutcome (x.outcome s) (y.outcome s) := by
  obtain ⟨hformat, hrequested, hcomments, htrace⟩ := h
  unfold Session.outcome
  rw [hformat, ResolvedTemplate.ofTagged_congr hrequested, hcomments, htrace]
  cases ResolvedTemplate.ofTagged (s.expand y.format).1 y.requested with
  | error fault => rfl
  | ok resolved =>
    dsimp only
    rw [CompiledPattern.assemble_sink resolved y.comments y.trace x.sink y.sink]
    cases hp : CompiledPattern.assemble resolved y.comments y.trace x.sink with
    | error fault => rfl
    | ok p => exact CompiledPattern.alike_of_sink hp y.sink

theorem SameSettings.outcomes (h : x.SameSettings y) (hs : s.Forgetful) (hx : x.Current s)
    (hy : y.Current s) : x.SameOutcomes y where
  taggedTemplate := by rw [hx.taggedTemplate_eq hs, hy.taggedTemplate_eq hs, h.format]
  templateFields := by rw [hx.templateFields_eq hs, hy.templateFields_eq hs, h.format]
  captureOrder := by
    rw [hx.captureOrder_eq hs, hy.captureOrder_eq hs, h.format]
    simp only [h.requested]
  compile := by
    rw [hx.compile_eq hs, hy.compile_eq hs]
    exact h.outcome

theorem Current.assemble_of_compile (h : x.Current s) (hs : s.Forgetful) {p : CompiledPattern}
    (hp : x.compile.1 = .ok p) :
    ∃ resolved, ResolvedTemplate.ofTagged (s.expand x.format).1 x.requested = .ok resolved
      ∧ CompiledPattern.assemble resolved x.comments x.trace x.sink = .ok p := by
  rw [h.compile_eq hs] at hp
  dsimp only [Session.outcome] at hp
  split at hp
  · cases hp
  · rename_i resolved hresolved
    exact ⟨resolved, hresolved, hp⟩

/-- Of all operations only compilation gives a pattern. -/
theorem compile_of_pattern? {operation : Operation} {p : CompiledPattern}
    (h : (x.perform operation).1.pattern? = some p) : x.compile.1 = .ok p := by
  cases operation with
  | compile =>
    change (Answer.compiled x.compile.1).pattern? = some p at h
    cases hc : x.compile.1 with
    | error fault => rw [hc] at h; cases h
    | ok q => rw [hc] at h; cases h; rfl
  | _ => cases h

theorem Current.faithful_pattern? (h : x.Current s) (hs : s.Forgetful) {operation : Operation}
    {p : CompiledPattern} (hp : (x.perform operation).1.pattern? = some p) :
    (KeptPattern.ofPattern p).Faithful := by
  obtain ⟨resolved, -, hassemble⟩ := h.assemble_of_compile hs (compile_of_pattern? hp)
  exact KeptPattern.faithful_ofPattern hassemble

theorem Current.captureOrder_eq_fields (h : x.Current s) (hs : s.Forgetful) {p : CompiledPattern}
    (hp : x.compile.1 = .ok p) : x.captureOrder.1 = p.fields := by
  obtain ⟨resolved, hresolved, hassemble⟩ := h.assemble_of_compile hs hp
  rw [h.captureOrder_eq hs, (assemble_eq_ok hassemble).2.1,
    ResolvedTemplate.captured_of_ofTagged hresolved]

/-- First settings that make the present settings of a session. -/
def options (x : Session) : Options where
  format := some x.format
  capture := some (x.requested.map fun name => .explicit (.field name))
  comments := x.comments
  trace := x.trace
  sink := x.sink

theorem sameSettings_options (hs : s.Forgetful) (x : Session) :
    x.SameSettings (start s x.options) := by
  have h : Current s
      { specialization := s, format := x.format
        requested := requestedOf s x.options.capture
        comments := x.comments, trace := x.trace, sink := x.sink, tagged := none } :=
    ⟨rfl, fun t ht => by cases ht⟩
  have hstart : start s x.options = expanded s _ := congrArg Prod.snd (h.captureOrder_eq hs)
  rw [hstart]
  refine ⟨rfl, fun name => ?_, rfl, rfl⟩
  exact (Capture.mem_apply_fields.trans (by simp)).symm

end Session

/-! ## Pools -/

namespace SessionPool

/-- Nothing that was called has left a trace: the specialization is the one at the start, the
sessions are current, and what is known of patterns is right. -/
structure Sound (s : Specialization) (pool : SessionPool) : Prop where
  specialization : pool.specialization = s
  sessions : ∀ x ∈ pool.sessions, x.Current s
  patterns : ∀ k ∈ pool.patterns, k.Faithful

variable {s : Specialization} {pool : SessionPool}

theorem sound_start (s : Specialization) : (start s).Sound s :=
  ⟨rfl, (fun _ hx => by cases hx), (fun _ hk => by cases hk)⟩

theorem Sound.current (h : pool.Sound s) {i : Nat} {x : Session} (hx : pool.session? i = some x) :
    x.Current s := by
  obtain ⟨x', hx', rfl⟩ := Option.map_eq_some_iff.mp hx
  exact ⟨h.specialization, (h.sessions x' (List.mem_of_getElem? hx')).tagged⟩

/-- Whatever is called leaves the pool as sound as it was. -/
theorem Sound.perform (h : pool.Sound s) (hs : s.Forgetful) (call : Call) :
    (pool.perform call).2.Sound s := by
  cases call with
  | create o =>
    have hnew : (Session.start pool.specialization o).Current s := by
      rw [h.specialization]
      exact Session.current_start hs o
    refine ⟨hnew.specialization, fun x hx => ?_, h.patterns⟩
    rcases List.mem_append.mp hx with hx | hx
    · exact h.sessions x hx
    · rw [List.mem_singleton.mp hx]
      exact hnew
  | ask i operation =>
    rw [SessionPool.perform]
    cases hx : pool.session? i with
    | none => exact h
    | some x =>
      -- the pool takes over the specialization of the session, which is still the one at the start
      have hcurrent := (h.current hx).perform hs operation
      refine ⟨hcurrent.specialization, fun y hy => ?_, fun k hk => ?_⟩
      · rcases List.mem_or_eq_of_mem_set hy with hy | rfl
        · exact h.sessions y hy
        · exact hcurrent
      · rcases List.mem_append.mp hk with hk | hk
        · exact h.patterns k hk
        · obtain ⟨p, hp, rfl⟩ := Option.map_eq_some_iff.mp (Option.mem_toList.mp hk)
          exact (h.current hx).faithful_pattern? hs hp
  | exec i line =>
    rw [SessionPool.perform]
    cases hk : pool.patterns[i]? with
    | none => exact h
    | some k =>
      have hfaithful := h.patterns k (List.mem_of_getElem? hk)
      refine ⟨h.specialization, h.sessions, fun k' hk' => ?_⟩
      rcases List.mem_or_eq_of_mem_set hk' with hk' | rfl
      · exact h.patterns k' hk'
      · exact (hfaithful.exec line).2.2

theorem Sound.after (hs : s.Forgetful) (calls : List Call) : ∀ {pool : SessionPool}, pool.Sound s →
    (pool.after calls).Sound s := by
  induction calls with
  | nil => exact fun h => h
  | cons call calls ih => exact fun h => ih (h.perform hs call)

/-- A pattern keeps its number, and stays the pattern that it is. -/
theorem Sound.pattern_perform (h : pool.Sound s) (call : Call) {i : Nat} {k : KeptPattern}
    (hk : pool.patterns[i]? = some k) :
    ∃ k', (pool.perform call).2.patterns[i]? = some k' ∧ k'.pattern = k.pattern := by
  cases call with
  | create o => exact ⟨k, hk, rfl⟩
  | ask j operation =>
    rw [SessionPool.perform]
    cases pool.session? j with
    | none => exact ⟨k, hk, rfl⟩
    | some x =>
      have hbound := (List.getElem?_eq_some_iff.mp hk).1
      exact ⟨k, (List.getElem?_append_left hbound).trans hk, rfl⟩
  | exec j line =>
    rw [SessionPool.perform]
    cases hj : pool.patterns[j]? with
    | none => exact ⟨k, hk, rfl⟩
    | some k' =>
      by_cases hij : j = i
      · subst hij
        cases hk.symm.trans hj
        obtain ⟨-, hpattern, -⟩ := (h.patterns k (List.mem_of_getElem? hk)).exec line
        refine ⟨_, List.getElem?_set_self (List.getElem?_eq_some_iff.mp hk).1, hpattern⟩
      · exact ⟨k, (List.getElem?_set_ne hij).trans hk, rfl⟩

theorem Sound.pattern_after (hs : s.Forgetful) {i : Nat} (calls : List Call) :
    ∀ {pool : SessionPool} {k : KeptPattern}, pool.Sound s → pool.patterns[i]? = some k →
      ∃ k', (pool.after calls).patterns[i]? = some k' ∧ k'.pattern = k.pattern := by
  induction calls with
  | nil => exact fun _ hk => ⟨_, hk, rfl⟩
  | cons call calls ih =>
    intro pool k h hk
    obtain ⟨k₁, hk₁, hpattern₁⟩ := h.pattern_perform call hk
    obtain ⟨k₂, hk₂, hpattern₂⟩ := ih (h.perform hs call) hk₁
    exact ⟨k₂, hk₂, hpattern₂.trans hpattern₁⟩

/-- However a pattern has been used, a line is matched as if it were the first. -/
theorem Sound.exec_after (h : pool.Sound s) (hs : s.Forgetful) {i : Nat} {k : KeptPattern}
    (hk : pool.patterns[i]? = some k) (calls : List Call) (line : Text) :
    ((pool.after calls).perform (.exec i line)).1 = .executed (k.pattern.exec line) := by
  obtain ⟨k', hk', hpattern⟩ := Sound.pattern_after hs calls h hk
  have hfaithful := (h.after hs calls).patterns k' (List.mem_of_getElem? hk')
  rw [SessionPool.perform, hk', ← hpattern, ← (hfaithful.exec line).1]

end SessionPool

/-- After any calls on sessions that share a specialization, a session has the same outcomes as
every session with the same settings, whatever was called on that one and on the sessions around
it, and as a new one that is made with these settings. Its capture order is the order of the fields
that are compiled. A pattern does the same with a line wherever it is kept and however many lines
it was used for. -/
theorem history_independent {d : Definition} {s : Specialization}
    (hd : Specialization.define d = .ok s) (hooks : d.SteadyHooks) (calls : List SessionPool.Call)
    {i : Nat} {x : Session} (hx : ((SessionPool.start s).after calls).session? i = some x) :
    (∀ calls' j y, ((SessionPool.start s).after calls').session? j = some y →
        x.SameSettings y → x.SameOutcomes y)
      ∧ (∀ o, x.SameSettings (Session.start s o) → x.SameOutcomes (Session.start s o))
      ∧ x.SameSettings (Session.start s x.options)
      ∧ ∀ p, x.compile.1 = .ok p → x.captureOrder.1 = p.fields
        ∧ ∀ calls' line,
          (((SessionPool.start s).after (calls ++ .ask i .compile :: calls')).perform
            (.exec ((SessionPool.start s).after calls).patterns.length line)).1
            = .executed (p.exec line) := by
  have hs := hooks.forgetful hd
  have hsound (calls : List SessionPool.Call) : ((SessionPool.start s).after calls).Sound s :=
    (SessionPool.sound_start s).after hs calls
  have hcurrent := (hsound calls).current hx
  refine ⟨fun calls' j y hy h => ?_, fun o h => ?_, Session.sameSettings_options hs x, ?_⟩
  · exact h.outcomes hs hcurrent ((hsound calls').current hy)
  · exact h.outcomes hs hcurrent (Session.current_start hs o)
  intro p hp
  refine ⟨hcurrent.captureOrder_eq_fields hs hp, fun calls' line => ?_⟩
  have hkept : (((SessionPool.start s).after calls).perform (.ask i .compile)).2.patterns
      = ((SessionPool.start s).after calls).patterns ++ [.ofPattern p] := by
    simp only [SessionPool.perform, hx, Session.perform, hp]
    rfl
  have h := ((hsound calls).perform hs (.ask i .compile)).exec_after hs
    (i := ((SessionPool.start s).after calls).patterns.length) (k := .ofPattern p)
    (by rw [hkept]; exact List.getElem?_concat_length) calls' line
  rw [SessionPool.after, List.foldl_append]
  exact h

/-- Runs of spaces are made one before tokens are replaced; after that, a minus is put in front. -/
def spacedDigits : Definition where
  name := text "spaced"
  tokens := ⟨[(text "%d", text "(?#d)\\d+(?#!d)")]⟩
  aliases := .empty
  defaults := ⟨none, none⟩
  preprocess := ((Hook.ofRules [⟨text " +", text " ", none⟩]).toOption).getD []
  postprocess := ((Hook.ofRules [⟨text "^", text "-", some (text "gy")⟩]).toOption).getD []

/-- Two sessions, used in turns. -/
def spacedCalls : List SessionPool.Call :=
  [.create (Session.settings (some (text "%d  %d")) none),
    .create (Session.settings (some (text "%d")) none),
    .ask 1 .compile,
    .ask 0 (.setTrace true none),
    .ask 0 (.setCapture [.spelled (text "d")]),
    .exec 0 (text "-7")]

theorem spacedDigits_steady : spacedDigits.SteadyHooks where
  preprocess := ⟨_, Hook.ofRules_of_isSome (by cbv), by decide⟩
  postprocess := ⟨_, Hook.ofRules_of_isSome (by cbv), by decide⟩

theorem spacedDigits_independent : ∃ s x p, Specialization.define spacedDigits = .ok s
    ∧ ((SessionPool.start s).after spacedCalls).session? 0 = some x
    ∧ x.SameOutcomes (Session.start s x.options)
    ∧ x.compile.1 = .ok p ∧ x.captureOrder.1 = p.fields := by
  have hcompiles : ((Specialization.define spacedDigits).toOption.bind fun s =>
      (((SessionPool.start s).after spacedCalls).session? 0).bind fun x =>
        x.compile.1.toOption).isSome = true := by
    cbv
  obtain ⟨p, hp⟩ := Option.isSome_iff_exists.mp hcompiles
  obtain ⟨s, hs, hp⟩ := Option.bind_eq_some_iff.mp hp
  obtain ⟨x, hx, hp⟩ := Option.bind_eq_some_iff.mp hp
  have hd := define_of_toOption hs
  have hcompile := eq_ok_of_toOption hp
  obtain ⟨-, hfresh, hsettings, hcompiled⟩ :=
    history_independent hd spacedDigits_steady spacedCalls hx
  exact ⟨s, x, p, hd, hx, hfresh _ hsettings, hcompile, (hcompiled p hcompile).1⟩

end LogTemplate
