import LogTemplate.Regex.Class
import LogTemplate.Regex.ClassSets
import LogTemplate.Regex.GroupName

/-!
# LogTemplate.Regex.Token

The words of a pattern. A pattern is read from left to right into tokens, each of which is a piece
of its text; how tokens nest is decided later.

* `Token` — characters, assertions, back references, parentheses, bars and quantifiers.
* `Token.read` — the token that starts a text, and what follows it.
* `Token.all` — all tokens of a pattern.
-/

namespace LogTemplate.Regex

/-- Conditions on a position. -/
inductive Assertion where
  | inputStart
  | inputEnd
  | lineStart
  | lineEnd
  | wordBoundary
  | notWordBoundary
deriving Repr, DecidableEq

/-- What an opening parenthesis opens. -/
inductive Opening where
  | plain
  | capture (name : Option Text)
  | look (behind negated : Bool)
deriving Repr, DecidableEq

inductive Token where
  /-- One character of the set. -/
  | set (s : CharSet)
  /-- A character or a string of a class. -/
  | oneOf (a : ClassContent)
  /-- The text of the group with this number. -/
  | numberReference (n : Nat)
  | nameReference (name : Text)
  | assertion (a : Assertion)
  | opening (o : Opening)
  | closing
  | bar
  /-- At least `min` and at most `max` times; `none` is without limit. -/
  | quantifier (min : Nat) (max : Option Nat) (greedy : Bool)
deriving Repr, DecidableEq

/-- Counts in quantifiers beyond this are without limit. -/
def countLimit : Nat :=
  2147483647

/-- The value of decimal digits. -/
def decimalValue (digits : Text) : Nat :=
  digits.foldl (fun acc u => acc * 10 + Text.digitValue u) 0

/-- A number and what follows it; `none` if there is no digit. -/
def decimal? (t : Text) : Option (Nat × Text) :=
  let digits := t.takeWhile Text.isDigit
  if digits.isEmpty then none else some (decimalValue digits, t.dropWhile Text.isDigit)

theorem decimal?_length_le {t : Text} {n : Nat} {r : Text} (h : decimal? t = some (n, r)) :
    r.length ≤ t.length := by
  simp only [decimal?] at h
  split at h
  · simp at h
  · simp only [Option.some.injEq, Prod.mk.injEq] at h
    rw [← h.2]; exact Text.length_dropWhile_le _ _

def upperCount (n : Nat) : Option Nat :=
  if n < countLimit then some n else none

/-- The two counts of an interval, read past its opening brace: `{n}`, `{n,}` or `{n,m}`. -/
def interval? (t : Text) : Option ((Nat × Option Nat) × Text) :=
  match decimal? t with
  | none => none
  | some (n, rest) =>
    match rest with
    | Text.closeBrace :: rest₁ => some ((min n countLimit, upperCount n), rest₁)
    | Text.comma :: Text.closeBrace :: rest₁ => some ((min n countLimit, none), rest₁)
    | Text.comma :: rest₁ =>
      match decimal? rest₁ with
      | some (m, Text.closeBrace :: rest₂) => some ((min n countLimit, upperCount m), rest₂)
      | _ => none
    | _ => none

theorem interval?_length_le {t : Text} {counts : Nat × Option Nat} {r : Text}
    (h : interval? t = some (counts, r)) : r.length ≤ t.length := by
  unfold interval? at h
  split at h
  · simp at h
  · rename_i hn
    have h₀ := decimal?_length_le hn
    split at h
    · simp only [Option.some.injEq, Prod.mk.injEq] at h
      rw [← h.2]; simp at h₀; omega
    · simp only [Option.some.injEq, Prod.mk.injEq] at h
      rw [← h.2]; simp at h₀; omega
    · split at h
      · rename_i hm
        have h₁ := decimal?_length_le hm
        simp only [Option.some.injEq, Prod.mk.injEq] at h
        rw [← h.2]; simp at h₀ h₁; omega
      · simp at h
    · simp at h

/-- The set of characters that a pattern character or class stands for under the flags. -/
def Grammar.folded (g : Grammar) (s : CharSet) : CharSet :=
  if g.ignoreCase then .caseClosure g.strict s else s

namespace Token

/-- A quantifier with the mark of a lazy one, if that follows. -/
def quantified (min : Nat) (max : Option Nat) (rest : Text) : Token × Text :=
  match rest with
  | Text.question :: rest₁ => (.quantifier min max false, rest₁)
  | _ => (.quantifier min max true, rest)

theorem quantified_length_le (min : Nat) (max : Option Nat) (rest : Text) :
    (quantified min max rest).2.length ≤ rest.length := by
  unfold quantified
  split <;> simp

/-- The group that a parenthesis before this text opens. -/
def readOpening (t : Text) : Except Rejection (Token × Text) :=
  match t with
  | Text.question :: Text.colon :: rest => .ok (.opening .plain, rest)
  | Text.question :: Text.equals :: rest => .ok (.opening (.look false false), rest)
  | Text.question :: Text.bang :: rest => .ok (.opening (.look false true), rest)
  | Text.question :: Text.less :: Text.equals :: rest => .ok (.opening (.look true false), rest)
  | Text.question :: Text.less :: Text.bang :: rest => .ok (.opening (.look true true), rest)
  | Text.question :: Text.less :: rest =>
    match groupName [] rest with
    | .error e => .error e
    | .ok (name, rest₁) => .ok (.opening (.capture (some name)), rest₁)
  | Text.question :: _ => .error .unknownGroupKind
  | _ => .ok (.opening (.capture none), t)

theorem readOpening_length_le {t : Text} {k : Token} {r : Text}
    (h : readOpening t = .ok (k, r)) : r.length ≤ t.length := by
  unfold readOpening at h
  split at h
  case h_6 rest _ _ =>
    split at h
    · simp at h
    · rename_i hn
      have := groupName_length_lt hn
      simp only [Except.ok.injEq, Prod.mk.injEq] at h
      have hr := h.2
      subst hr
      simp only [List.length_cons]
      omega
  case h_7 => simp at h
  case h_8 =>
    simp only [Except.ok.injEq, Prod.mk.injEq] at h
    exact h.2 ▸ Nat.le_refl _
  all_goals
    simp only [Except.ok.injEq, Prod.mk.injEq] at h
    have hr := h.2
    subst hr
    simp only [List.length_cons]
    omega

/-- An escape that starts with the digit `u`, not zero: a back reference if there are as many
groups, else a character. -/
def readDecimalEscape (g : Grammar) (u : UInt16) (rest : Text) : Except Rejection (Token × Text) :=
  let n := decimalValue (u :: rest.takeWhile Text.isDigit)
  if n ≤ g.groups then .ok (.numberReference n, rest.dropWhile Text.isDigit)
  else if g.strict then .error .badEscape
  else if Text.isOctalDigit u then
    let (c, rest₁) := octal u rest
    .ok (.set (g.folded (.single c)), rest₁)
  else .ok (.set (g.folded (.single u.toNat)), rest)

theorem readDecimalEscape_length_le {g : Grammar} {u : UInt16} {rest : Text} {k : Token} {r : Text}
    (h : readDecimalEscape g u rest = .ok (k, r)) : r.length ≤ rest.length := by
  unfold readDecimalEscape at h
  dsimp only at h
  split at h
  · simp only [Except.ok.injEq, Prod.mk.injEq] at h
    rw [← h.2]; exact Text.length_dropWhile_le _ _
  · split at h
    · simp at h
    · split at h
      · simp only [Except.ok.injEq, Prod.mk.injEq] at h
        rw [← h.2]; exact octal_length_le _ _
      · simp only [Except.ok.injEq, Prod.mk.injEq] at h
        exact h.2 ▸ Nat.le_refl _

/-- A named reference, read past `\k`. -/
def readNameReference (t : Text) : Except Rejection (Token × Text) :=
  match t with
  | Text.less :: rest =>
    match groupName [] rest with
    | .error _ => .error .badNamedReference
    | .ok (name, rest₁) => .ok (.nameReference name, rest₁)
  | _ => .error .badNamedReference

theorem readNameReference_length_le {t : Text} {k : Token} {r : Text}
    (h : readNameReference t = .ok (k, r)) : r.length ≤ t.length := by
  unfold readNameReference at h
  split at h
  · split at h
    · simp at h
    · rename_i hn
      have := groupName_length_lt hn
      simp only [Except.ok.injEq, Prod.mk.injEq] at h
      rw [← h.2]; simp; omega
  · simp at h

/-- The token of an escape, read past its backslash. -/
def readEscape (g : Grammar) (t : Text) : Except Rejection (Token × Text) :=
  match t with
  | [] => .error .trailingBackslash
  | u :: rest =>
    if u == Text.ofAscii 'b' then .ok (.assertion .wordBoundary, rest)
    else if u == Text.ofAscii 'B' then .ok (.assertion .notWordBoundary, rest)
    else if Text.isDigit u && u != Text.ofAscii '0' then readDecimalEscape g u rest
    else if u == Text.lowerK && g.namedReferences then readNameReference rest
    else
      match setEscape? g u rest with
      | .error e => .error e
      | .ok (some (s, rest₁)) => .ok (.set (g.folded s), rest₁)
      | .ok none =>
        match charEscape g .outside u rest with
        | .error e => .error e
        | .ok (c, rest₁) => .ok (.set (g.folded (.single c)), rest₁)

theorem readEscape_length_le {g : Grammar} {t : Text} {k : Token} {r : Text}
    (h : readEscape g t = .ok (k, r)) : r.length ≤ t.length := by
  unfold readEscape at h
  split at h
  · simp at h
  · split at h
    · simp only [Except.ok.injEq, Prod.mk.injEq] at h
      rw [← h.2]; simp
    · split at h
      · simp only [Except.ok.injEq, Prod.mk.injEq] at h
        rw [← h.2]; simp
      · split at h
        · have := readDecimalEscape_length_le h; simp; omega
        · split at h
          · have := readNameReference_length_le h; simp; omega
          · split at h
            · simp at h
            · rename_i hs
              have := setEscape?_length_le hs
              simp only [Except.ok.injEq, Prod.mk.injEq] at h
              rw [← h.2]; simp; omega
            · split at h
              · simp at h
              · rename_i hc
                have := charEscape_length_le hc
                simp only [Except.ok.injEq, Prod.mk.injEq] at h
                rw [← h.2]; simpa using this

/-- A class, read past its opening bracket. -/
def readClass (g : Grammar) (t : Text) : Except Rejection (Token × Text) :=
  if g.classSets then
    match classSetBody g t with
    | .error e => .error e
    | .ok (a, rest) => .ok (.oneOf a, rest)
  else
    let negated := t.head? == some Text.caret
    match classItems g .empty (if negated then t.tail else t) with
    | .error e => .error e
    | .ok (s, rest) =>
      .ok (.set (if negated then .complement (g.folded s) else g.folded s), rest)

theorem readClass_length_le {g : Grammar} {t : Text} {k : Token} {r : Text}
    (h : readClass g t = .ok (k, r)) : r.length ≤ t.length := by
  unfold readClass at h
  split at h
  · split at h
    · simp at h
    · rename_i hb
      have := classSetBody_length_le hb
      simp only [Except.ok.injEq, Prod.mk.injEq] at h
      rw [← h.2]; exact this
  · dsimp only at h
    split at h
    · simp at h
    · rename_i hb
      have := classItems_length_le hb
      simp only [Except.ok.injEq, Prod.mk.injEq] at h
      rw [← h.2]
      split at this
      · simp at this; omega
      · exact this

/-- A brace: a quantifier if an interval follows, else itself. -/
def readBrace (g : Grammar) (rest : Text) : Except Rejection (Token × Text) :=
  match interval? rest with
  | some ((least, most), rest₁) =>
    if most.any (· < least) then .error .quantifierOutOfOrder
    else .ok (quantified least most rest₁)
  | none =>
    if g.strict then .error .incompleteQuantifier
    else .ok (.set (g.folded (.single Text.openBrace.toNat)), rest)

theorem readBrace_length_le {g : Grammar} {rest : Text} {k : Token} {r : Text}
    (h : readBrace g rest = .ok (k, r)) : r.length ≤ rest.length := by
  unfold readBrace at h
  split at h
  · rename_i least most rest₁ hi
    have h₀ := interval?_length_le hi
    split at h
    · simp at h
    · have h₁ := quantified_length_le least most rest₁
      simp only [Except.ok.injEq] at h
      rw [h] at h₁; exact Nat.le_trans h₁ h₀
  · split at h
    · simp at h
    · simp only [Except.ok.injEq, Prod.mk.injEq] at h
      exact h.2 ▸ Nat.le_refl _

/-- The characters of the dot: all but line terminators, or all. -/
def dotSet (g : Grammar) : CharSet :=
  if g.dotAll then .all else .complement .lineTerminator

/-- The tokens of one unit. -/
def ofUnit? (g : Grammar) (u : UInt16) : Option Token :=
  if u == Text.closeParen then some .closing
  else if u == Text.bar then some .bar
  else if u == Text.caret then some (.assertion (if g.multiline then .lineStart else .inputStart))
  else if u == Text.dollar then some (.assertion (if g.multiline then .lineEnd else .inputEnd))
  else if u == Text.dot then some (.set (dotSet g))
  else none

/-- The counts of the quantifiers of one unit. -/
def countsOf? (u : UInt16) : Option (Nat × Option Nat) :=
  if u == Text.star then some (0, none)
  else if u == Text.plus then some (1, none)
  else if u == Text.question then some (0, some 1)
  else none

/-- A character that stands for itself. -/
def literal (g : Grammar) (u : UInt16) (rest : Text) : Token × Text :=
  let (c, rest₁) := Grammar.nextChar g.strict u rest
  (.set (g.folded (.single c)), rest₁)

theorem literal_length_le (g : Grammar) (u : UInt16) (rest : Text) :
    (literal g u rest).2.length ≤ rest.length :=
  Grammar.nextChar_length_le g.strict u rest

/-- The token that starts with the unit `u`, and what follows it. -/
def read (g : Grammar) (u : UInt16) (rest : Text) : Except Rejection (Token × Text) :=
  match ofUnit? g u, countsOf? u with
  | some k, _ => .ok (k, rest)
  | none, some (least, most) => .ok (quantified least most rest)
  | none, none =>
    if u == Text.backslash then readEscape g rest
    else if u == Text.openBracket then readClass g rest
    else if u == Text.openParen then readOpening rest
    else if u == Text.openBrace then readBrace g rest
    else if g.strict && (u == Text.closeBrace || u == Text.closeBracket) then .error .loneBracket
    else .ok (literal g u rest)

/-- Reading a token uses up at least its first unit. -/
theorem read_length_le {g : Grammar} {u : UInt16} {rest : Text} {k : Token} {r : Text}
    (h : read g u rest = .ok (k, r)) : r.length ≤ rest.length := by
  unfold read at h
  split at h
  · simp only [Except.ok.injEq, Prod.mk.injEq] at h
    exact h.2 ▸ Nat.le_refl _
  · rename_i least most _ _
    have := quantified_length_le least most rest
    simp only [Except.ok.injEq] at h
    rw [h] at this; exact this
  · split at h
    · exact readEscape_length_le h
    · split at h
      · exact readClass_length_le h
      · split at h
        · exact readOpening_length_le h
        · split at h
          · exact readBrace_length_le h
          · split at h
            · simp at h
            · have := literal_length_le g u rest
              simp only [Except.ok.injEq] at h
              rw [h] at this; exact this

/-- All tokens of a pattern text. -/
def all (g : Grammar) : Text → Except Rejection (List Token)
  | [] => .ok []
  | u :: rest =>
    match hread : read g u rest with
    | .error e => .error e
    | .ok (k, rest₁) =>
      have : rest₁.length ≤ rest.length := read_length_le hread
      match all g rest₁ with
      | .error e => .error e
      | .ok ks => .ok (k :: ks)
termination_by t => t.length
decreasing_by (simp only [List.length_cons]; omega)

end Token

end LogTemplate.Regex
