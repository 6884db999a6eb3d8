import LogTemplate.Proofs.OneToken
import LogTemplate.Proofs.Regex.Anchor

/-!
# LogTemplate.Proofs.Anchoring

Compiled patterns and whole lines.

* `compiled_whole_line` — when a compiled pattern matches whole lines only.
* `partial_line_matched` — a bar outside of all groups binds weaker than the anchors.
-/

namespace LogTemplate

open Regex (anchoredParse hasOuterBar inGroup)

/-- A compiled pattern whose body has no bar outside of all groups matches whole lines only. In
general it does so exactly if putting its body in a group of its own changes no match. -/
theorem compiled_whole_line {d : Definition} {s : Specialization}
    (hd : Specialization.define d = .ok s) (hpre : d.preprocess = []) (hpost : d.postprocess = [])
    {o : Session.Options} {p : CompiledPattern} (hp : (Session.start s o).compile.1 = .ok p) :
    (hasOuterBar (Session.body s o) = false →
        ∀ line m, p.regexp.exec line = some m → m.Whole line ∧ m.covered line = line)
      ∧ ∃ r, Regex.plain (CompiledPattern.anchor (inGroup (Session.body s o))) = .ok r
        ∧ ((∀ line m, p.regexp.exec line = some m → m.Whole line)
          ↔ ∀ line, p.regexp.exec line = r.exec line) := by
  have hmode := Session.after_body (Specialization.hookless_of_define hd hpre hpost) o
  obtain ⟨ks, b, hparse⟩ := (anchoredParse hmode).mp (Session.compile_body hp)
  refine ⟨?_, ?_⟩
  · intro hbar line m hm
    have hwhole := hparse.whole hbar hm
    exact ⟨hwhole, hwhole.covered⟩
  · obtain ⟨r, hgroup⟩ := hparse.inGroup
    have hmode' := hgroup.reads.after
    exact ⟨r, (anchoredParse hmode').mpr ⟨_, _, hgroup⟩, hparse.whole_iff hgroup⟩

/-- A field of digits is matched as a whole line. -/
theorem digits_whole_line :
    ∃ s p, compileWith (oneToken (text "%d") (text "(?#d)\\d+(?#!d)")) (tokenAlone (text "%d") [])
        = some (s, p)
      ∧ (p.regexp.exec (text "42")).isSome = true
      ∧ ∀ line m, p.regexp.exec line = some m → m.covered line = line := by
  have hrun : ((compileWith (oneToken (text "%d") (text "(?#d)\\d+(?#!d)"))
      (tokenAlone (text "%d") [])).any fun a =>
        (a.2.regexp.exec (text "42")).isSome
          && !hasOuterBar (Session.body a.1 (tokenAlone (text "%d") []))) = true := by cbv
  rw [Option.any_eq_true] at hrun
  obtain ⟨⟨s, p⟩, hsp, hrun⟩ := hrun
  rw [Bool.and_eq_true, Bool.not_eq_true'] at hrun
  obtain ⟨hs, hp⟩ := compileWith_eq_some hsp
  refine ⟨s, p, hsp, hrun.1, ?_⟩
  intro line m hm
  exact ((compiled_whole_line hs rfl rfl hp).1 hrun.2 line m hm).2

/-- A bar binds weaker than the anchors: the token `a|b` alone matches the line `aa` in part. -/
theorem partial_line_matched :
    ¬ ∀ (d : Definition) (s : Specialization), Specialization.define d = .ok s →
      d.preprocess = [] → d.postprocess = [] →
      ∀ (o : Session.Options) (p : CompiledPattern), (Session.start s o).compile.1 = .ok p →
        ∀ line m, p.regexp.exec line = some m → m.covered line = line := by
  intro h
  have hrun : ((compileWith (oneToken (text "%x") (text "a|b")) (tokenAlone (text "%x") [])).any
      fun a => (a.2.regexp.exec (text "aa")).any fun m => m.covered (text "aa") == text "a")
      = true := by cbv
  rw [Option.any_eq_true] at hrun
  obtain ⟨⟨s, p⟩, hsp, hrun⟩ := hrun
  rw [Option.any_eq_true] at hrun
  obtain ⟨m, hm, hcovered⟩ := hrun
  obtain ⟨hs, hp⟩ := compileWith_eq_some hsp
  have hwhole := h _ s hs rfl rfl _ p hp _ m hm
  rw [hwhole] at hcovered
  revert hcovered
  decide

end LogTemplate
