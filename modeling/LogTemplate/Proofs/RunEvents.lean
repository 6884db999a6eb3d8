import LogTemplate.Proofs.Batches
import LogTemplate.Proofs.MatchRun
import Mathlib.Algebra.Order.Floor.Div

/-!
# LogTemplate.Proofs.RunEvents

What an observer hears of a run.

* `MatchRun.heard` — the events of batches: one for each line, and one at the end of each batch.
* `Tally`, `Outcome.tallies` — the numbers that are given at the ends of batches.
* `tallies_heard_…`, `processed_heard` — how these numbers go on from batch to batch.
* `Progress.Told`, `Told.batch`, `Told.run` — what was told behind some batches, one more, and all.
* `Outcome.Announces`, `run_announces` — the events of a finished run.
-/

namespace LogTemplate.MatchRun

/-- Is it said of a line whether it matched? -/
def Event.isLine : Event → Bool
  | matched _ _ => true
  | unmatched _ => true
  | _ => false

/-- What is said at the end of a batch. -/
structure Tally where
  /-- The number of the batch. -/
  current : Nat
  /-- The number of all batches. -/
  total : Nat
  /-- How many lines were matched so far. -/
  processed : Nat

def Event.tally? : Event → Option Tally
  | batch current total processed => some ⟨current, total, processed⟩
  | _ => none

def Outcome.tallies (out : Outcome) : List Tally :=
  out.events.filterMap Event.tally?

/-! ## Events of batches -/

/-- What is heard of batches when `number` batches and `processed` lines are past. -/
def heard (p : CompiledPattern) (traced : Bool) (total : Nat) :
    (number processed : Nat) → List (List LogLine) → List Event
  | _, _, [] => []
  | number, processed, lines :: batches =>
    lines.map (fun line => (resultOf p traced line).event)
      ++ .batch (number + 1) total (processed + lines.length)
        :: heard p traced total (number + 1) (processed + lines.length) batches

variable {p : CompiledPattern} {traced : Bool} {total : Nat}

theorem heard_concat (lines : List LogLine) (batches : List (List LogLine)) :
    ∀ number processed, heard p traced total number processed (batches ++ [lines])
      = heard p traced total number processed batches
        ++ (lines.map (fun line => (resultOf p traced line).event)
          ++ [.batch (number + batches.length + 1) total
            (processed + batches.flatten.length + lines.length)]) := by
  induction batches with
  | nil => intro number processed; rfl
  | cons first batches ih =>
    intro number processed
    have hnumber : number + 1 + batches.length = number + (batches.length + 1) := by omega
    rw [List.cons_append, heard, ih, heard, List.append_assoc, List.cons_append, hnumber,
      List.length_cons, List.flatten_cons, List.length_append, Nat.add_assoc processed]

theorem isLine_event (p : CompiledPattern) (traced : Bool) (line : LogLine) :
    (resultOf p traced line).event.isLine = true := by
  unfold resultOf
  cases found? p line <;> rfl

theorem countP_lines (p : CompiledPattern) (traced : Bool) (lines : List LogLine) :
    (lines.map fun line => (resultOf p traced line).event).countP Event.isLine = lines.length := by
  rw [List.countP_map]
  exact List.countP_eq_length.mpr fun line _ => isLine_event p traced line

theorem tallies_lines (p : CompiledPattern) (traced : Bool) (lines : List LogLine) :
    (lines.map fun line => (resultOf p traced line).event).filterMap Event.tally? = [] := by
  rw [List.filterMap_map, List.filterMap_eq_nil_iff]
  intro line _
  dsimp only [Function.comp, resultOf]
  cases found? p line <;> rfl

theorem tallies_heard_cons (number processed : Nat) (lines : List LogLine)
    (batches : List (List LogLine)) :
    (heard p traced total number processed (lines :: batches)).filterMap Event.tally?
      = ⟨number + 1, total, processed + lines.length⟩
        :: (heard p traced total (number + 1) (processed + lines.length) batches).filterMap
          Event.tally? := by
  rw [heard, List.filterMap_append, tallies_lines]
  rfl

theorem countP_heard (batches : List (List LogLine)) : ∀ number processed,
    (heard p traced total number processed batches).countP Event.isLine
      = batches.flatten.length := by
  induction batches with
  | nil => intro number processed; rfl
  | cons lines batches ih =>
    intro number processed
    rw [heard, List.countP_append, countP_lines, List.countP_cons_of_neg Bool.false_ne_true, ih,
      List.flatten_cons, List.length_append]

/-- Batches are numbered one after the other. -/
theorem current_heard (batches : List (List LogLine)) : ∀ number processed,
    ((heard p traced total number processed batches).filterMap Event.tally?).map (·.current)
      = List.range' (number + 1) batches.length := by
  induction batches with
  | nil => intro number processed; rfl
  | cons lines batches ih =>
    intro number processed
    rw [tallies_heard_cons, List.map_cons, ih]
    rfl

theorem total_heard (batches : List (List LogLine)) : ∀ number processed,
    ∀ tally ∈ (heard p traced total number processed batches).filterMap Event.tally?,
      tally.total = total := by
  induction batches with
  | nil =>
    intro number processed tally htally
    cases htally
  | cons lines batches ih =>
    intro number processed tally htally
    rw [tallies_heard_cons] at htally
    cases htally with
    | head => rfl
    | tail _ htally => exact ih _ _ tally htally

/-- With lines in every batch, more and more are matched. -/
theorem increasing_heard {batches : List (List LogLine)} (h : ∀ lines ∈ batches, lines ≠ []) :
    ∀ number processed,
      ((heard p traced total number processed batches).filterMap Event.tally?).Pairwise
          (·.processed < ·.processed)
        ∧ ∀ tally ∈ (heard p traced total number processed batches).filterMap Event.tally?,
          processed < tally.processed := by
  induction batches with
  | nil => exact fun _ _ => ⟨.nil, fun tally htally => by cases htally⟩
  | cons lines batches ih =>
    intro number processed
    have hlines := List.length_pos_iff.mpr (h lines List.mem_cons_self)
    obtain ⟨hsorted, hlater⟩ := ih (fun l hl => h l (List.mem_cons_of_mem lines hl)) (number + 1)
      (processed + lines.length)
    rw [tallies_heard_cons]
    refine ⟨.cons hlater hsorted, ?_⟩
    intro tally htally
    cases htally with
    | head => exact Nat.lt_add_of_pos_right hlines
    | tail _ htally =>
      have hlater := hlater tally htally
      omega

theorem last_heard (batches : List (List LogLine)) (number processed : Nat) :
    ∀ tally ∈ ((heard p traced total number processed batches).filterMap Event.tally?).getLast?,
      tally.processed = processed + batches.flatten.length := by
  rcases List.eq_nil_or_concat batches with rfl | ⟨batches, lines, rfl⟩
  · intro tally htally
    cases htally
  · rw [List.concat_eq_append, heard_concat, List.filterMap_append, List.filterMap_append,
      tallies_lines]
    intro tally htally
    rw [List.nil_append] at htally
    change tally ∈ (_ ++ [_]).getLast? at htally
    rw [List.getLast?_concat] at htally
    cases htally
    rw [List.flatten_append, List.flatten_singleton, List.length_append, ← Nat.add_assoc]

/-- At the end of a batch the lines that were told of are counted. -/
theorem processed_heard (batches : List (List LogLine)) : ∀ number processed
    {before after : List Event} {current total' count : Nat},
      heard p traced total number processed batches
        = before ++ .batch current total' count :: after →
      count = processed + before.countP Event.isLine := by
  induction batches with
  | nil =>
    intro number processed before after current total' count heq
    cases before <;> cases heq
  | cons lines batches ih =>
    intro number processed before after current total' count heq
    have hlines := countP_lines p traced lines
    rw [heard] at heq
    rcases List.append_eq_append_iff.mp heq with ⟨more, rfl, hrest⟩ | ⟨more, hmap, hrest⟩
    · rw [List.countP_append, hlines]
      cases more with
      | nil =>
        cases hrest
        rfl
      | cons event more =>
        -- the batch comes after the one at the head
        rw [List.cons_append, List.cons.injEq] at hrest
        obtain ⟨rfl, hrest⟩ := hrest
        rw [ih _ _ hrest, List.countP_cons_of_neg Bool.false_ne_true, Nat.add_assoc]
    · cases more with
      | nil =>
        rw [List.append_nil] at hmap
        rw [← hmap, hlines]
        cases hrest
        rfl
      | cons event more =>
        -- what is said of a line is not the end of a batch
        rw [List.cons_append, List.cons.injEq] at hrest
        have hmem : event ∈ lines.map fun line => (resultOf p traced line).event := by
          rw [hmap]
          exact List.mem_append_right _ List.mem_cons_self
        obtain ⟨line, -, hevent⟩ := List.mem_map.mp hmem
        have hisLine := isLine_event p traced line
        rw [hevent, ← hrest.1] at hisLine
        cases hisLine

theorem unmatched_heard (batches : List (List LogLine)) : ∀ number processed,
    ∀ entry, .unmatched entry ∈ heard p traced total number processed batches →
      ∃ line ∈ batches.flatten, found? p line = none ∧ entry = entryOf p traced line := by
  induction batches with
  | nil =>
    intro number processed entry hentry
    cases hentry
  | cons lines batches ih =>
    intro number processed entry hentry
    rw [heard, List.mem_append, List.mem_cons] at hentry
    rw [List.flatten_cons]
    rcases hentry with hentry | hentry | hentry
    · obtain ⟨line, hline, hevent⟩ := List.mem_map.mp hentry
      refine ⟨line, List.mem_append_left _ hline, ?_⟩
      unfold resultOf at hevent
      cases hfound : found? p line with
      | some fields =>
        rw [hfound] at hevent
        cases hevent
      | none =>
        rw [hfound] at hevent
        cases hevent
        exact ⟨rfl, rfl⟩
    · cases hentry
    · obtain ⟨line, hline, hnone⟩ := ih _ _ entry hentry
      exact ⟨line, List.mem_append_right _ hline, hnone⟩

/-! ## Runs -/

namespace Progress

/-- What is known of a run that is past some batches, and what it has told of them. -/
structure Told (p : CompiledPattern) (traced : Bool) (total : Nat) (first : Event)
    (batches : List (List LogLine)) (s : Progress) : Prop where
  past : s.Past p traced batches.flatten
  number : s.batches = batches.length
  events : s.events = first :: heard p traced total 0 0 batches

variable {first : Event} {done batches : List (List LogLine)} {s s' : Progress}

/-- A batch is told of line by line and then as a whole. -/
theorem Told.batch (h : s.Told p traced total first done) (hp : Suits p traced)
    {lines : List LogLine} (hbatch : s.batch total lines = .ok s') :
    s'.Told p traced total first (done ++ [lines]) := by
  have hlines := h.past.executes_of_batch hp hbatch
  obtain ⟨s₁, hsame, hpast⟩ : ∃ s₁, s.batch total lines = .ok s₁ ∧ _ := h.past.batch hp hlines
  cases hbatch.symm.trans hsame
  obtain ⟨m, hm, -⟩ := h.past.matcher.lines hp hlines
  unfold Progress.batch at hbatch
  rw [hm] at hbatch
  cases hbatch
  refine ⟨?_, ?_, ?_⟩
  · rw [List.flatten_append, List.flatten_singleton]
    exact hpast
  · rw [List.length_append]
    exact congrArg (· + 1) h.number
  · rw [heard_concat, ← List.cons_append, ← h.events, Nat.zero_add, Nat.zero_add, ← h.number,
      ← h.past.processed, ← List.append_assoc, List.map_map]
    rfl

theorem Told.run (hp : Suits p traced) (h : s.Told p traced total first done)
    (hrun : s.run total batches = .ok s') : s'.Told p traced total first (done ++ batches) := by
  induction batches generalizing s done with
  | nil =>
    cases hrun
    rw [List.append_nil]
    exact h
  | cons lines batches ih =>
    rw [Progress.run, List.foldlM_cons] at hrun
    cases hbatch : s.batch total lines with
    | error why =>
      rw [hbatch] at hrun
      cases hrun
    | ok s₁ =>
      rw [hbatch] at hrun
      rw [List.append_cons]
      exact ih (h.batch hp hbatch) hrun

end Progress

/-- What an observer hears of a finished run: of the pattern first, and then of the batches one
after the other. At the end of each batch it is told the number of the batch, that of all batches,
and the number of the lines so far, of each of which it was told; and with a line that did not
match, what was written for that line alone. -/
structure Outcome.Announces (out : Outcome) (r : Request) (p : CompiledPattern)
    (batches : List (List LogLine)) : Prop where
  events : out.events = .compiled r.specialization.name p.source p.fields
    :: heard p r.trace out.tallies.length 0 0 batches
  number : out.tallies.length = out.summary.totalLines ⌈/⌉ r.size.toNat
  current : out.tallies.map (·.current) = List.range' 1 out.tallies.length
  total : ∀ tally ∈ out.tallies, tally.total = out.tallies.length
  increasing : out.tallies.Pairwise (·.processed < ·.processed)
  processed : ∀ before after current total count,
    out.events = before ++ .batch current total count :: after →
      count = before.countP Event.isLine
  last : ∀ tally ∈ out.tallies.getLast?, tally.processed = out.summary.totalLines
  lines : out.events.countP Event.isLine = out.summary.totalLines
  traces : ∀ entry, .unmatched entry ∈ out.events →
    ∃ line ∈ batches.flatten, found? p line = none
      ∧ entry = ⟨line.index, line.raw, if r.trace then some (p.exec line.raw).written else none⟩

theorem tallies_of_events {out : Outcome} {name pattern : Text} {fields : List Text}
    {events : List Event} (h : out.events = .compiled name pattern fields :: events) :
    out.tallies = events.filterMap Event.tally? := by
  rw [Outcome.tallies, h]
  rfl

theorem announces_of_told {r : Request} {batches : List (List LogLine)} {s : Progress}
    (h : s.Told p r.trace total (.compiled r.specialization.name p.source p.fields) batches)
    (htotal : batches.length = total) (hnumber : total = batches.flatten.length ⌈/⌉ r.size.toNat)
    (hbatches : ∀ lines ∈ batches, lines ≠ []) : (r.outcome p s).Announces r p batches := by
  have hlines : (r.outcome p s).summary.totalLines = batches.flatten.length := h.past.processed
  have htallies : (r.outcome p s).tallies
      = (heard p r.trace total 0 0 batches).filterMap Event.tally? := tallies_of_events h.events
  have hcurrent : ((heard p r.trace total 0 0 batches).filterMap Event.tally?).map (·.current)
      = List.range' 1 batches.length := current_heard batches 0 0
  have hlength : (r.outcome p s).tallies.length = total := by
    have hlength := congrArg List.length hcurrent
    rw [List.length_map, List.length_range', htotal, ← htallies] at hlength
    exact hlength
  constructor
  case events =>
    rw [hlength]
    exact h.events
  case number =>
    rw [hlength, hlines]
    exact hnumber
  case current =>
    rw [hlength, htallies, hcurrent, htotal]
  case total =>
    rw [hlength, htallies]
    exact total_heard batches 0 0
  case increasing =>
    rw [htallies]
    exact (increasing_heard hbatches 0 0).1
  case processed =>
    intro before after current total' count heq
    have hevents : _ :: heard p r.trace total 0 0 batches = _ := h.events.symm.trans heq
    cases before with
    | nil => cases hevents
    | cons event before =>
      rw [List.cons_append, List.cons.injEq] at hevents
      obtain ⟨rfl, hevents⟩ := hevents
      rw [processed_heard batches 0 0 hevents, List.countP_cons_of_neg Bool.false_ne_true,
        Nat.zero_add]
  case last =>
    rw [htallies, hlines]
    intro tally htally
    rw [last_heard batches 0 0 tally htally, Nat.zero_add]
  case lines =>
    rw [hlines]
    change s.events.countP _ = _
    rw [h.events, List.countP_cons_of_neg Bool.false_ne_true, countP_heard]
  case traces =>
    intro entry hentry
    change _ ∈ s.events at hentry
    rw [h.events, List.mem_cons] at hentry
    rcases hentry with hentry | hentry
    · cases hentry
    · exact unmatched_heard batches 0 0 entry hentry

theorem runOver_eq_ok {r : Request} {input : Text} {before : Option Text} {out : Outcome}
    (h : runOver before r input = .ok out) :
    ∃ p s, r.session.compile.1 = .ok p
      ∧ (r.start before p).run (Lines.count r.limit input ⌈/⌉ r.size.toNat)
        (Lines.batches r.size r.limit input) = .ok s
      ∧ out = r.outcome p s := by
  unfold runOver at h
  split at h
  · cases h
  · rename_i p hp
    dsimp only at h
    split at h
    · cases h
    · rename_i s hs
      cases h
      exact ⟨p, s, hp, hs, rfl⟩

/-- The observer of a run that ends hears of the pattern, and then of the selected lines in the
order of the file, batch after batch. There are as many batches as was said when the first one
ended, the numbers of lines add up, and what was written for one line never shows with another. -/
theorem run_announces {r : Request} {input : Text} {before : Option Text} {out : Outcome}
    (h : runOver before r input = .ok out) :
    ∃ p, r.session.compile.1 = .ok p
      ∧ Lines.Batched r.size (Lines.select r.limit input) (Lines.batches r.size r.limit input)
      ∧ out.Announces r p (Lines.batches r.size r.limit input) := by
  obtain ⟨p, s, hp, hs, rfl⟩ := runOver_eq_ok h
  have hpos : 0 < r.size := Int.lt_of_lt_of_le Int.zero_lt_one (Int.le_max_left 1 _)
  have hbatched := Lines.batched_chunks r.size (Lines.select r.limit input)
  have htoNat : 0 < r.size.toNat := by omega
  have hlength := Lines.length_chunks htoNat (Lines.select r.limit input)
  rw [← Lines.batches_eq] at hbatched hlength
  have hstart : (r.start before p).Told p r.trace
      (Lines.count r.limit input ⌈/⌉ r.size.toNat)
      (.compiled r.specialization.name p.source p.fields) [] :=
    ⟨past_start hp before, rfl, rfl⟩
  have htold := hstart.run (suits_of_compile hp) hs
  rw [List.nil_append] at htold
  refine ⟨p, hp, hbatched, announces_of_told htold ?_ ?_ hbatched.nonempty⟩
  · rw [hlength, Lines.count_eq]
    rfl
  · rw [hbatched.flatten, Lines.count_eq]

/-- Three lines in batches of two. -/
def pairRun (s : Specialization) : Request :=
  { numberRun s with limit := some 3, batchSize := some 2 }

/-- The last batch is not full, and between the lines that match there is one that does not. -/
theorem pairRun_announces : ∃ s p out,
    Specialization.define (oneToken (text "%d") (text "(?#d)\\d(?#!d)")) = .ok s
      ∧ runOver none (pairRun s) numberLog = .ok out
      ∧ (pairRun s).session.compile.1 = .ok p
      ∧ out.events =
        [.compiled (text "one") (text "^(?:\\d)$") [], .matched 0 ⟨[], .empty⟩,
          .unmatched ⟨2, text "x", some (text "\n")⟩, .batch 1 2 2, .matched 3 ⟨[], .empty⟩,
          .batch 2 2 3]
      ∧ out.tallies.length = out.summary.totalLines ⌈/⌉ 2
      ∧ out.tallies.map (·.current) = List.range' 1 out.tallies.length
      ∧ out.events.countP Event.isLine = out.summary.totalLines
      ∧ (p.exec (text "x")).written = text "\n" := by
  have hruns : ((Specialization.define
      (oneToken (text "%d") (text "(?#d)\\d(?#!d)"))).toOption.bind fun s =>
        (runOver none (pairRun s) numberLog).toOption.map fun out => out.events)
      = some [.compiled (text "one") (text "^(?:\\d)$") [], .matched 0 ⟨[], .empty⟩,
          .unmatched ⟨2, text "x", some (text "\n")⟩, .batch 1 2 2, .matched 3 ⟨[], .empty⟩,
          .batch 2 2 3] := by
    cbv
  obtain ⟨s, hs, hout⟩ := Option.bind_eq_some_iff.mp hruns
  obtain ⟨out, hout, hevents⟩ := Option.map_eq_some_iff.mp hout
  have hrun := eq_ok_of_toOption hout
  obtain ⟨p, hp, -, h⟩ := run_announces hrun
  obtain ⟨line, -, -, hentry⟩ := h.traces ⟨2, text "x", some (text "\n")⟩ (by rw [hevents]; simp)
  have hraw : text "x" = line.raw := congrArg UnmatchedLine.raw hentry
  have htrace : some (text "\n") = some (p.exec line.raw).written :=
    congrArg UnmatchedLine.trace hentry
  refine ⟨s, p, out, define_of_toOption hs, hrun, hp, hevents, h.number, h.current, h.lines, ?_⟩
  rw [hraw]
  exact (Option.some.inj htrace).symm

end LogTemplate.MatchRun
