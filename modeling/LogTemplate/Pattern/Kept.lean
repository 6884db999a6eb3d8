import LogTemplate.Pattern.Compiled

/-!
# LogTemplate.Pattern.Kept

A compiled pattern that is kept to match line after line.

* `KeptPattern` — the pattern with the beginnings that it has read so far.
* `KeptPattern.exec` — matches one line; a beginning is read when a line first asks for it, and
  remembered for the lines to come.
-/

namespace LogTemplate

structure KeptPattern where
  pattern : CompiledPattern
  /-- The beginnings that were read, by their indices. -/
  known : List (Nat × Regex)

namespace KeptPattern

def ofPattern (p : CompiledPattern) : KeptPattern :=
  ⟨p, []⟩

/-- The beginning with an index and what is known afterwards; one that is known is not read again,
and one that is no pattern is not remembered. -/
def consult (known : List (Nat × Regex)) (index : Nat) (read : Except Regex.Rejection Regex) :
    Except Regex.Rejection (Regex × List (Nat × Regex)) :=
  match known.lookup index with
  | some regex => .ok (regex, known)
  | none =>
    match read with
    | .ok regex => .ok (regex, (index, regex) :: known)
    | .error why => .error why

/-- Reports the longest beginning that matches. -/
def traceBeginnings (t : Tracer) (line : Text) (known : List (Nat × Regex)) :
    List (Nat × Except Regex.Rejection Regex) → Tracer.Trace × List (Nat × Regex)
  | [] => (⟨[], none⟩, known)
  | (index, read) :: rest =>
    match consult known index read with
    | .error why => (⟨[], some why⟩, known)
    | .ok (regex, known) =>
      match regex.exec line with
      | some m => (⟨Tracer.report m (t.probes.take (index + 1)), none⟩, known)
      | none => traceBeginnings t line known rest

def trace (t : Tracer) (line : Text) (known : List (Nat × Regex)) :
    Tracer.Trace × List (Nat × Regex) :=
  match t.full.exec line with
  | some m => (⟨Text.lineFeed :: Tracer.report m t.probes, none⟩, known)
  | none =>
    let (reached, known) := traceBeginnings t line known t.beginnings
    ({ reached with written := Text.lineFeed :: reached.written }, known)

def exec (k : KeptPattern) (line : Text) : CompiledPattern.Outcome × KeptPattern :=
  let (trace, known) : Tracer.Trace × List (Nat × Regex) :=
    match k.pattern.tracer with
    | some tracer => trace tracer line k.known
    | none => (⟨[], none⟩, k.known)
  let result :=
    match trace.failure with
    | some why => .error why
    | none => .ok ((k.pattern.regexp.exec line).map (CompiledPattern.fieldMatch k.pattern.fields))
  (⟨trace.written, result⟩, { k with known := known })

end KeptPattern

end LogTemplate
