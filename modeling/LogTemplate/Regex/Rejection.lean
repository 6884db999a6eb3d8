import LogTemplate.Text.Basic

/-!
# LogTemplate.Regex.Rejection

Why a pattern is no regular expression.

* `Rejection` — one constructor for each cause.
* `Rejection.describe` — the cause in words.
-/

namespace LogTemplate.Regex

inductive Rejection where
  | badFlags
  | unterminatedGroup
  | unmatchedClosing
  | unknownGroupKind
  | nothingToRepeat
  | quantifierOutOfOrder
  | incompleteQuantifier
  | loneBracket
  | unterminatedClass
  | classRangeOutOfOrder
  | badClassRange
  | badClassOperation
  | badClassEscape
  | trailingBackslash
  | badEscape
  | badUnicodeEscape
  | badDecimalEscape
  | badPropertyName
  | badGroupName
  | duplicateGroupName
  | badNamedReference
deriving Repr, DecidableEq

namespace Rejection

def describe : Rejection → String
  | badFlags => "Invalid flags"
  | unterminatedGroup => "Unterminated group"
  | unmatchedClosing => "Unmatched ')'"
  | unknownGroupKind => "Invalid group"
  | nothingToRepeat => "Nothing to repeat"
  | quantifierOutOfOrder => "numbers out of order in {} quantifier"
  | incompleteQuantifier => "Incomplete quantifier"
  | loneBracket => "Lone quantifier brackets"
  | unterminatedClass => "Unterminated character class"
  | classRangeOutOfOrder => "Range out of order in character class"
  | badClassRange => "Invalid character class"
  | badClassOperation => "Invalid set operation in character class"
  | badClassEscape => "Invalid class escape"
  | trailingBackslash => "\\ at end of pattern"
  | badEscape => "Invalid escape"
  | badUnicodeEscape => "Invalid Unicode escape"
  | badDecimalEscape => "Invalid decimal escape"
  | badPropertyName => "Invalid property name"
  | badGroupName => "Invalid capture group name"
  | duplicateGroupName => "Duplicate capture group name"
  | badNamedReference => "Invalid named reference"

end Rejection

end LogTemplate.Regex
