import LogTemplate.Template.Escape

/-!
# LogTemplate.Template.Substitution

Tokens of an escaped template give way to pattern fragments.

* `TokenEntry` — a token with its escaped form and its fragment.
* `tokenOrder` — the entries in the order in which they are tried.
* `substitute` — one pass from left to right; fragments are not looked at again.
-/

namespace LogTemplate.Template

structure TokenEntry where
  token : Text
  escaped : Text
  fragment : Text
deriving Repr, DecidableEq

/-- The entries of tokens and fragments, the last token in the order of texts first, so that of two
tokens that match the longer one is tried before its beginning. -/
def tokenOrder (tokens : List (Text × Text)) : List TokenEntry :=
  (Text.sorted (tokens.map (·.1))).reverse.map fun token =>
    ⟨token, escape token, (tokens.lookup token).getD []⟩

/-- Does the escaped form of the entry start the text? An empty one never does. -/
def TokenEntry.starts (e : TokenEntry) (t : Text) : Bool :=
  !e.escaped.isEmpty && e.escaped.isPrefixOf t

/-- Replaces every occurrence of a token by its fragment. Between tokens, escapes are copied as a
whole, so that no token starts inside one. -/
def substitute (order : List TokenEntry) : Text → Text
  | [] => []
  | u :: rest =>
    match order.find? (·.starts (u :: rest)) with
    | some e => e.fragment ++ substitute order (rest.drop (e.escaped.length - 1))
    | none =>
      let n := unitLength (u :: rest)
      u :: rest.take (n - 1) ++ substitute order (rest.drop (n - 1))
termination_by t => t.length
decreasing_by all_goals (simp only [List.length_cons, List.length_drop]; omega)

end LogTemplate.Template
