import LogTemplate.Unicode.BinaryProperty
import LogTemplate.Unicode.Script

/-!
# LogTemplate.Unicode.Property

The character sets that property names stand for.

* `categoryNames` — the short and the long name of each general category.
* `namedProperty?` — the set of a property that stands alone.
* `valuedProperty?` — the set of a property and a value.
-/

namespace LogTemplate.Unicode

open Regex (CharSet)

/-- The short name of each category or group of categories, and its other names. -/
def categoryNames : List (String × List String) := [
  ("L", ["Letter"]), ("LC", ["Cased_Letter"]), ("Lu", ["Uppercase_Letter"]),
  ("Ll", ["Lowercase_Letter"]), ("Lt", ["Titlecase_Letter"]), ("Lm", ["Modifier_Letter"]),
  ("Lo", ["Other_Letter"]), ("M", ["Mark", "Combining_Mark"]), ("Mn", ["Nonspacing_Mark"]),
  ("Mc", ["Spacing_Mark"]), ("Me", ["Enclosing_Mark"]), ("N", ["Number"]),
  ("Nd", ["Decimal_Number", "digit"]), ("Nl", ["Letter_Number"]), ("No", ["Other_Number"]),
  ("P", ["Punctuation", "punct"]), ("Pc", ["Connector_Punctuation"]),
  ("Pd", ["Dash_Punctuation"]), ("Ps", ["Open_Punctuation"]), ("Pe", ["Close_Punctuation"]),
  ("Pi", ["Initial_Punctuation"]), ("Pf", ["Final_Punctuation"]), ("Po", ["Other_Punctuation"]),
  ("S", ["Symbol"]), ("Sm", ["Math_Symbol"]), ("Sc", ["Currency_Symbol"]),
  ("Sk", ["Modifier_Symbol"]), ("So", ["Other_Symbol"]), ("Z", ["Separator"]),
  ("Zs", ["Space_Separator"]), ("Zl", ["Line_Separator"]), ("Zp", ["Paragraph_Separator"]),
  ("C", ["Other"]), ("Cc", ["Control", "cntrl"]), ("Cf", ["Format"]), ("Cs", ["Surrogate"]),
  ("Co", ["Private_Use"]), ("Cn", ["Unassigned"])]

/-- The short name of a category, from any of its names. -/
def categoryCode? (name : String) : Option String :=
  (categoryNames.find? fun (code, others) => code == name || others.contains name).map (·.1)

/-- Is the category of a run the one with this code, or of the group with it? -/
def Run.isCategory (code : List Char) (r : Run) : Bool :=
  match code with
  | ['L', 'C'] => [['L', 'u'], ['L', 'l'], ['L', 't']].contains r.label
  | [group] => r.isOfGroup group
  | _ => r.label == code

def categorySet? (name : String) : Option CharSet :=
  (categoryCode? name).map fun code => .ranges (categoryRanges (Run.isCategory code.toList))

/-- The code points of a script. -/
def scriptSet? (name : String) : Option CharSet :=
  (scriptCode? name).map fun code => .ranges (scriptRanges code)

/-- The code points that are used in a script: its own ones, unless their scripts are listed, and
those that are listed for it. -/
def sharedScriptSet? (name : String) : Option CharSet :=
  (scriptCode? name).map fun code =>
    .union (.diff (.ranges (scriptRanges code)) (.ranges listedRanges))
      (.ranges (sharedRanges code))

/-- A property with a name and no value, general categories among them. -/
def namedProperty? (name : String) : Option CharSet :=
  match categorySet? name with
  | some s => some s
  | none => binarySet? name

/-- A property and a value of it. -/
def valuedProperty? (name value : String) : Option CharSet :=
  if name == "General_Category" || name == "gc" then categorySet? value
  else if name == "Script" || name == "sc" then scriptSet? value
  else if name == "Script_Extensions" || name == "scx" then sharedScriptSet? value
  else none

end LogTemplate.Unicode
