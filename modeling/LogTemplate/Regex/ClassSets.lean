import LogTemplate.Regex.ClassAtom

/-!
# LogTemplate.Regex.ClassSets

Character classes with set operations, nested classes and strings.

* `ClassContent` — a set of characters and of strings of other lengths.
* `ClassContent.union`, `inter`, `diff` — the operations of such classes.
* `classSetBody` — a whole class, read past its opening bracket.
-/

namespace LogTemplate.Regex

/-- What a class with strings matches: a character of `set`, or one of `strings`, none of which
has length one. -/
structure ClassContent where
  set : CharSet
  strings : List (List Nat)
  /-- Can the class hold strings, by the way it is written? -/
  stringsAllowed : Bool
deriving Repr, DecidableEq

namespace ClassContent

def empty : ClassContent :=
  ⟨.empty, [], false⟩

def ofSet (s : CharSet) : ClassContent :=
  ⟨s, [], false⟩

def ofString : List Nat → ClassContent
  | [c] => ⟨.single c, [], false⟩
  | cs => ⟨.empty, [cs], true⟩

def union (a b : ClassContent) : ClassContent :=
  { set := .union a.set b.set
    strings := a.strings ++ b.strings.filter (!a.strings.contains ·)
    stringsAllowed := a.stringsAllowed || b.stringsAllowed }

def inter (a b : ClassContent) : ClassContent :=
  { set := .inter a.set b.set
    strings := a.strings.filter (b.strings.contains ·)
    stringsAllowed := a.stringsAllowed && b.stringsAllowed }

def diff (a b : ClassContent) : ClassContent :=
  { set := .diff a.set b.set
    strings := a.strings.filter (!b.strings.contains ·)
    stringsAllowed := a.stringsAllowed }

/-- Where case is ignored, a class holds with a character all that differ from it by case. -/
def fold (g : Grammar) (a : ClassContent) : ClassContent :=
  if g.ignoreCase then
    { a with
      set := .caseClosure g.strict a.set
      strings := a.strings.map (·.map (Unicode.canonical g.strict)) }
  else a

/-- The class itself, or all characters outside of it; strings have no complement. -/
def close (negated : Bool) (a : ClassContent) : Except Rejection ClassContent :=
  if negated then
    if a.stringsAllowed then .error .badClassOperation else .ok (.ofSet (.complement a.set))
  else .ok a

end ClassContent

/-- How the members of a class are put together: open as long as there are fewer than two. -/
inductive SetOperation where
  | start
  | single
  | union
  | inter
  | diff
deriving Repr, DecidableEq

/-- Units that must not stand in such a class unescaped. -/
def isClassPunctuation (u : UInt16) : Bool :=
  [Text.openParen, Text.closeParen, Text.openBracket, Text.closeBracket, Text.openBrace,
    Text.closeBrace, Text.slash, Text.hyphen, Text.backslash, Text.bar].contains u

/-- Units that must not stand twice in a row. -/
def isDoublePunctuation (u : UInt16) : Bool :=
  [Text.ampersand, Text.bang, Text.hash, Text.dollar, Text.percent, Text.star, Text.plus,
    Text.comma, Text.dot, Text.colon, Text.semicolon, Text.less, Text.equals, Text.greater,
    Text.question, Text.atSign, Text.caret, Text.backtick, Text.tilde].contains u

/-- One character of such a class, unescaped or escaped. -/
def classSetChar (g : Grammar) (u : UInt16) (rest : Text) : Except Rejection (Nat × Text) :=
  if u == Text.backslash then
    match classEscape g rest with
    | .error e => .error e
    | .ok (.char c, rest₁) => .ok (c, rest₁)
    | .ok (.set _, _) => .error .badClassEscape
  else if isClassPunctuation u || (isDoublePunctuation u && rest.head? == some u) then
    .error .badClassOperation
  else .ok (Grammar.nextChar g.strict u rest)

theorem classSetChar_length_le {g : Grammar} {u : UInt16} {rest : Text} {c : Nat} {r : Text}
    (h : classSetChar g u rest = .ok (c, r)) : r.length ≤ rest.length := by
  unfold classSetChar at h
  split at h
  · split at h
    · simp at h
    · rename_i he
      have := classEscape_length_le he
      simp only [Except.ok.injEq, Prod.mk.injEq] at h
      rw [← h.2]; exact this
    · simp at h
  · split at h
    · simp at h
    · have := Grammar.nextChar_length_le g.strict u rest
      simp only [Except.ok.injEq] at h
      rw [h] at this; exact this

/-- The strings of `\q{…}`, set apart by bars, read past the brace; `word` is the string under way,
last character first. -/
def classStrings (g : Grammar) (word : List Nat) (acc : ClassContent) :
    Text → Except Rejection (ClassContent × Text)
  | [] => .error .badClassEscape
  | Text.closeBrace :: rest => .ok (acc.union (.ofString word.reverse), rest)
  | Text.bar :: rest => classStrings g [] (acc.union (.ofString word.reverse)) rest
  | u :: rest =>
    match hchar : classSetChar g u rest with
    | .error e => .error e
    | .ok (c, rest₁) =>
      have : rest₁.length ≤ rest.length := classSetChar_length_le hchar
      classStrings g (c :: word) acc rest₁
termination_by t => t.length
decreasing_by all_goals (simp only [List.length_cons]; omega)

theorem classStrings_length_le {g : Grammar} {word : List Nat} {acc a : ClassContent} {t r : Text}
    (h : classStrings g word acc t = .ok (a, r)) : r.length ≤ t.length := by
  fun_induction classStrings g word acc t
  all_goals simp_all
  all_goals omega

/-- A member of a class: a character, or anything else. -/
inductive ClassMember where
  | char (c : Nat)
  | content (a : ClassContent)
deriving Repr, DecidableEq

def ClassMember.toContent : ClassMember → ClassContent
  | .char c => .ofSet (.single c)
  | .content a => a

/-- The member that starts with `u`; `nested` reads a class past its opening bracket. -/
def classMember (nested : Text → Except Rejection (ClassContent × Text)) (g : Grammar)
    (u : UInt16) (rest : Text) : Except Rejection (ClassMember × Text) :=
  if u == Text.openBracket then
    match nested rest with
    | .error e => .error e
    | .ok (a, rest₁) => .ok (.content a, rest₁)
  else if u == Text.backslash then
    match rest with
    | Text.lowerQ :: Text.openBrace :: rest₁ =>
      match classStrings g [] .empty rest₁ with
      | .error e => .error e
      | .ok (a, rest₂) => .ok (.content a, rest₂)
    | _ =>
      match classEscape g rest with
      | .error e => .error e
      | .ok (.char c, rest₁) => .ok (.char c, rest₁)
      | .ok (.set s, rest₁) => .ok (.content (.ofSet s), rest₁)
  else
    match classSetChar g u rest with
    | .error e => .error e
    | .ok (c, rest₁) => .ok (.char c, rest₁)

theorem classMember_length_le {nested : Text → Except Rejection (ClassContent × Text)}
    {g : Grammar} {u : UInt16} {rest : Text} {a : ClassMember} {r : Text}
    (hn : ∀ t b s, nested t = .ok (b, s) → s.length ≤ t.length)
    (h : classMember nested g u rest = .ok (a, r)) : r.length ≤ rest.length := by
  unfold classMember at h
  split at h
  · split at h
    · simp at h
    · rename_i hb
      have := hn _ _ _ hb
      simp only [Except.ok.injEq, Prod.mk.injEq] at h
      rw [← h.2]; exact this
  · split at h
    · split at h
      · split at h
        · simp at h
        · rename_i hb
          have := classStrings_length_le hb
          simp only [Except.ok.injEq, Prod.mk.injEq] at h
          rw [← h.2]; simp; omega
      · split at h
        · simp at h
        all_goals
          rename_i hb
          have := classEscape_length_le hb
          simp only [Except.ok.injEq, Prod.mk.injEq] at h
          rw [← h.2]; exact this
    · split at h
      · simp at h
      · rename_i hb
        have := classSetChar_length_le hb
        simp only [Except.ok.injEq, Prod.mk.injEq] at h
        rw [← h.2]; exact this

/-- A class, read past its opening bracket; `items` reads its members and the closing bracket. -/
def inBrackets (items : Text → Except Rejection (ClassContent × Text)) (t : Text) :
    Except Rejection (ClassContent × Text) :=
  let negated := t.head? == some Text.caret
  match items (if negated then t.tail else t) with
  | .error e => .error e
  | .ok (a, rest) =>
    match a.close negated with
    | .error e => .error e
    | .ok a => .ok (a, rest)

theorem inBrackets_length_le {items : Text → Except Rejection (ClassContent × Text)}
    {t : Text} {a : ClassContent} {r : Text}
    (hi : ∀ t b s, items t = .ok (b, s) → s.length ≤ t.length)
    (h : inBrackets items t = .ok (a, r)) : r.length ≤ t.length := by
  unfold inBrackets at h
  dsimp only at h
  split at h
  · simp at h
  · rename_i hb
    have := hi _ _ _ hb
    split at h
    · simp at h
    · simp only [Except.ok.injEq, Prod.mk.injEq] at h
      rw [← h.2]
      split at this
      · simp at this; omega
      · exact this

/-- Reads members and operators up to the closing bracket. One class has one operator: after the
first member, members are united, intersected or taken away throughout. Each step uses up a unit,
so `fuel` need not exceed the units of the text. -/
def classSetItems (g : Grammar) : (fuel : Nat) → SetOperation → ClassContent → Text →
    Except Rejection (ClassContent × Text)
  | 0, _, _, _ => .error .unterminatedClass
  | _ + 1, _, _, [] => .error .unterminatedClass
  | _ + 1, _, acc, Text.closeBracket :: rest => .ok (acc, rest)
  | fuel + 1, operation, acc, Text.hyphen :: Text.hyphen :: u :: rest =>
    if operation == .single || operation == .diff then
      match classMember (inBrackets (classSetItems g fuel .start .empty)) g u rest with
      | .error e => .error e
      | .ok (a, rest₁) => classSetItems g fuel .diff (acc.diff (a.toContent.fold g)) rest₁
    else .error .badClassOperation
  | fuel + 1, operation, acc, Text.ampersand :: Text.ampersand :: u :: rest =>
    if (operation == .single || operation == .inter) && u != Text.ampersand then
      match classMember (inBrackets (classSetItems g fuel .start .empty)) g u rest with
      | .error e => .error e
      | .ok (a, rest₁) => classSetItems g fuel .inter (acc.inter (a.toContent.fold g)) rest₁
    else .error .badClassOperation
  | fuel + 1, operation, acc, u :: rest =>
    if operation == .inter || operation == .diff then .error .badClassOperation
    else
      match classMember (inBrackets (classSetItems g fuel .start .empty)) g u rest with
      | .error e => .error e
      | .ok (a, rest₁) =>
        match rangeEnd? g a rest₁ with
        | .error e => .error e
        | .ok (some (s, rest₂)) =>
          classSetItems g fuel .union (acc.union ((ClassContent.ofSet s).fold g)) rest₂
        | .ok none =>
          classSetItems g fuel (if operation == .start then .single else .union)
            (acc.union (a.toContent.fold g)) rest₁
where
  /-- The range from a character up to the one behind a single hyphen. -/
  rangeEnd? (g : Grammar) (a : ClassMember) (t : Text) :
      Except Rejection (Option (CharSet × Text)) :=
    match a, t with
    | .char first, Text.hyphen :: v :: rest =>
      if v == Text.hyphen then .ok none
      else
        match classSetChar g v rest with
        | .error e => .error e
        | .ok (last, rest₁) =>
          if last < first then .error .classRangeOutOfOrder
          else .ok (some (.range first last, rest₁))
    | _, _ => .ok none

/-- A class, read past its opening bracket. -/
def classSetBody (g : Grammar) (t : Text) : Except Rejection (ClassContent × Text) :=
  inBrackets (classSetItems g (t.length + 1) .start .empty) t

theorem rangeEnd?_length_le {g : Grammar} {a : ClassMember} {t : Text} {s : CharSet} {r : Text}
    (h : classSetItems.rangeEnd? g a t = .ok (some (s, r))) : r.length ≤ t.length := by
  unfold classSetItems.rangeEnd? at h
  split at h
  · split at h
    · simp at h
    · split at h
      · simp at h
      · rename_i hc
        have := classSetChar_length_le hc
        split at h
        · simp at h
        · simp only [Except.ok.injEq, Option.some.injEq, Prod.mk.injEq] at h
          rw [← h.2]; simp; omega
  · simp at h

theorem classSetItems_length_le {g : Grammar} {fuel : Nat} {operation : SetOperation}
    {acc a : ClassContent} {t r : Text}
    (h : classSetItems g fuel operation acc t = .ok (a, r)) : r.length ≤ t.length := by
  induction fuel generalizing operation acc a t r with
  | zero => simp [classSetItems] at h
  | succ fuel ih =>
    have hm {u : UInt16} {rest : Text} {b : ClassMember} {s : Text}
        (hb : classMember (inBrackets (classSetItems g fuel .start .empty)) g u rest
          = .ok (b, s)) : s.length ≤ rest.length :=
      classMember_length_le (fun _ _ _ => inBrackets_length_le fun _ _ _ => ih) hb
    unfold classSetItems at h
    split at h
    · simp at h
    · simp at h
    · simp only [Except.ok.injEq, Prod.mk.injEq] at h
      rw [← h.2]; simp
    · split at h
      · split at h
        · simp at h
        · rename_i hb
          cases Nat.succ.inj ‹fuel + 1 = _›
          have := hm hb; have := ih h; simp; omega
      · simp at h
    · split at h
      · split at h
        · simp at h
        · rename_i hb
          cases Nat.succ.inj ‹fuel + 1 = _›
          have := hm hb; have := ih h; simp; omega
      · simp at h
    · split at h
      · simp at h
      · split at h
        · simp at h
        · rename_i hb
          cases Nat.succ.inj ‹fuel + 1 = _›
          have h₁ := hm hb
          split at h
          · simp at h
          · rename_i he
            have h₂ := rangeEnd?_length_le he
            have h₃ := ih h
            simp; omega
          · have h₃ := ih h
            simp; omega

theorem classSetBody_length_le {g : Grammar} {t : Text} {a : ClassContent} {r : Text}
    (h : classSetBody g t = .ok (a, r)) : r.length ≤ t.length :=
  inBrackets_length_le (fun _ _ _ => classSetItems_length_le) h

end LogTemplate.Regex
