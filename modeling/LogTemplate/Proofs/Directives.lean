import LogTemplate.Capture
import LogTemplate.Proofs.Text.Distinct
import Mathlib.Data.List.DropRight

/-!
# LogTemplate.Proofs.Directives

Capture items by the last directive among them.

* `Capture.lastDirective?`, `base`, `named` — what names start from, and what is named behind that.
* `Capture.apply_concat` — one more item.
* `Capture.apply_eq` — the names that items leave, in the order in which they were added.
* `last_directive_decides` — the same with what follows for items that are carried out in turn.
-/

namespace LogTemplate

namespace CaptureInstruction

/-- Does the instruction do away with the names that are there? -/
def isDirective : CaptureInstruction → Bool
  | field _ => false
  | _ => true

def fieldName? : CaptureInstruction → Option Text
  | field name => some name
  | _ => .none

end CaptureInstruction

namespace Capture

/-- The last item that is a directive, in whichever spelling. -/
def lastDirective? (items : List CaptureItem) : Option CaptureInstruction :=
  ((items.map CaptureItem.toInstruction).filter CaptureInstruction.isDirective).getLast?

/-- The names that a directive leaves, and those of before if there is none. -/
def base (current every : List Text) : Option CaptureInstruction → List Text
  | some .all => every
  | some .none => []
  | _ => current

/-- The fields behind the last directive, or all fields if there is none. -/
def named (items : List CaptureItem) : List Text :=
  ((items.map CaptureItem.toInstruction).rtakeWhile fun i => !i.isDirective).filterMap
    CaptureInstruction.fieldName?

variable {xs ys : List CaptureItem} {x : CaptureItem} {name : Text}
  {current every : List Text}

/-! ## One more item -/

theorem apply_concat (xs : List CaptureItem) (x : CaptureItem) (current every : List Text) :
    apply (xs ++ [x]) current every = step every (apply xs current every) x.toInstruction := by
  unfold apply
  rw [List.map_append, List.map_singleton, List.foldl_concat]

theorem lastDirective?_concat_field (hx : x.toInstruction = .field name) :
    lastDirective? (xs ++ [x]) = lastDirective? xs := by
  simp [lastDirective?, hx, CaptureInstruction.isDirective]

theorem lastDirective?_concat (hx : x.toInstruction.isDirective = true) :
    lastDirective? (xs ++ [x]) = some x.toInstruction := by
  simp [lastDirective?, hx]

theorem named_concat_field (hx : x.toInstruction = .field name) :
    named (xs ++ [x]) = named xs ++ [name] := by
  simp [named, hx, CaptureInstruction.isDirective, CaptureInstruction.fieldName?]

theorem named_concat (hx : x.toInstruction.isDirective = true) : named (xs ++ [x]) = [] := by
  simp [named, hx]

/-! ## All items -/

/-- The items leave what the last directive leaves and the fields behind it, each name once. -/
theorem apply_eq (items : List CaptureItem) (current every : List Text) :
    apply items current every
      = (base current every (lastDirective? items) ++ named items).eraseDups := by
  induction items using List.reverseRecOn with
  | nil =>
    have hbase : base current every (lastDirective? []) ++ named [] = current :=
      List.append_nil current
    rw [hbase]
    exact Text.distinct_eq current
  | append_singleton xs x ih =>
    rw [apply_concat]
    cases hx : x.toInstruction with
    | none =>
      have hdirective : x.toInstruction.isDirective = true := by rw [hx]; rfl
      rw [lastDirective?_concat hdirective, named_concat hdirective, hx]
      rfl
    | all =>
      have hdirective : x.toInstruction.isDirective = true := by rw [hx]; rfl
      rw [lastDirective?_concat hdirective, named_concat hdirective, hx, List.append_nil]
      exact Text.distinct_eq every
    | field name =>
      rw [lastDirective?_concat_field hx, named_concat_field hx, ← List.append_assoc,
        Text.eraseDups_concat, ← ih, step, add]
      simp only [ih, List.mem_eraseDups]

theorem nodup_apply (items : List CaptureItem) (current every : List Text) :
    (apply items current every).Nodup := by
  rw [apply_eq]
  exact Text.nodup_eraseDups _

/-- Items can be carried out in two goes. -/
theorem apply_append (xs ys : List CaptureItem) (current every : List Text) :
    apply (xs ++ ys) current every = apply ys (apply xs current every) every := by
  have hstart : Text.distinct (apply xs current every) = apply xs current every := by
    rw [Text.distinct_eq, Text.eraseDups_eq_self (nodup_apply xs current every)]
  conv_rhs => rw [apply, hstart]
  rw [apply, List.map_append, List.foldl_append]
  rfl

theorem lastDirective?_isSome : (lastDirective? xs).isSome = true
    ↔ ∃ x ∈ xs, x.toInstruction.isDirective = true := by
  simp [lastDirective?]

/-- Behind a directive nothing is left of the names that were there. -/
theorem apply_of_directive (h : ∃ x ∈ xs, x.toInstruction.isDirective = true)
    (current current' every : List Text) :
    apply xs current every = apply xs current' every := by
  obtain ⟨d, hd⟩ := Option.isSome_iff_exists.mp (lastDirective?_isSome.mpr h)
  have hdirective : d.isDirective = true :=
    (List.mem_filter.mp (List.mem_of_getLast? hd)).2
  rw [apply_eq, apply_eq, hd]
  cases d with
  | none => rfl
  | all => rfl
  | field name => cases hdirective

/-- Items that were carried out change nothing when they are carried out again. -/
theorem apply_again (xs : List CaptureItem) (current every : List Text) :
    apply xs (apply xs current every) every = apply xs current every := by
  cases hlast : lastDirective? xs with
  | some d => exact apply_of_directive (lastDirective?_isSome.mp (by rw [hlast]; rfl)) _ _ _
  | none =>
    have hall (names : List Text) : apply xs names every = (names ++ named xs).eraseDups := by
      rw [apply_eq, hlast]
      rfl
    have hnamed : ∀ name ∈ named xs, name ∈ current ++ named xs :=
      fun name hname => List.mem_append_right current hname
    rw [hall, hall, Text.eraseDups_append_left, Text.eraseDups_append_of_subset hnamed]

/-- What items leave: without repetitions, the names that the last directive leaves and then the
fields behind it. So items can be carried out in two goes, a second time they change nothing, and
with a directive among them it does not matter which names were there before. -/
theorem last_directive_decides (xs ys : List CaptureItem) (current every : List Text) :
    apply xs current every
        = (base current every (lastDirective? xs) ++ named xs).eraseDups
      ∧ apply ys (apply xs current every) every = apply (xs ++ ys) current every
      ∧ apply xs (apply xs current every) every = apply xs current every
      ∧ ((∃ x ∈ xs, x.toInstruction.isDirective = true) →
        ∀ other, apply xs other every = apply xs current every) :=
  ⟨apply_eq xs current every, (apply_append xs ys current every).symm, apply_again xs current every,
    fun h other => apply_of_directive h other current every⟩

/-- Directives in both spellings, a field that is named like one, and fields that are named more
than once. -/
def mixedItems : List CaptureItem :=
  [.spelled (text "z"), .explicit .none, .spelled (text ":all"), .spelled (text "c"),
    .explicit (.field (text ":none")), .explicit (.field (text "a")), .spelled (text "c")]

theorem mixedItems_decided :
    lastDirective? mixedItems = some .all
      ∧ named mixedItems = [text "c", text ":none", text "a", text "c"]
      ∧ apply mixedItems [text "y"] [text "b", text "a", text "b"]
        = [text "b", text "a", text "c", text ":none"]
      ∧ apply mixedItems [text "x", text "c"] [text "b", text "a", text "b"]
        = [text "b", text "a", text "c", text ":none"] := by
  obtain ⟨hclosed, -, -, hother⟩ := last_directive_decides mixedItems [] [text "y"]
    [text "b", text "a", text "b"]
  have hresult : apply mixedItems [text "y"] [text "b", text "a", text "b"]
      = [text "b", text "a", text "c", text ":none"] := by
    rw [hclosed]
    decide
  have hmem : CaptureItem.explicit .none ∈ mixedItems := by decide
  exact ⟨by decide, by decide, hresult, (hother ⟨_, hmem, rfl⟩ _).trans hresult⟩

end Capture

end LogTemplate
