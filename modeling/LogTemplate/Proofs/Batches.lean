import LogTemplate.Proofs.Lines
import LogTemplate.Proofs.Text.Encoding

/-!
# LogTemplate.Proofs.Batches

The lines of a text, and the sizes of batches.

* `Lines.Broken` — a text as lines with their ends, as an inductive relation.
* `ofText_append`, `ofText_break`, `broken_iff` — reading finds the lines of a text, and there is
  one way to break it into lines.
* `Broken.isPaired` — no surrogate pair is parted between two lines.
* `Lines.Batched`, `batched_chunks` — all batches are full but the last one, and none is empty.
* `batches_batched` — the batches and the count of the selected lines.
-/

namespace LogTemplate.Lines

/-! ## Lines -/

/-- Text without line feeds and carriage returns. -/
def Unbroken (line : Text) : Prop :=
  Text.lineFeed ∉ line ∧ Text.carriageReturn ∉ line

/-- A line feed, a carriage return, or both together as one; `after` is what follows. -/
def IsBreak (stop after : Text) : Prop :=
  stop = [Text.lineFeed] ∨ stop = [Text.carriageReturn, Text.lineFeed]
    ∨ (stop = [Text.carriageReturn] ∧ after.head? ≠ some Text.lineFeed)

/-- A text is some lines, each with an end behind it that the last one may lack if it is not
empty. -/
inductive Broken : Text → List Text → Prop where
  | nil : Broken [] []
  | last {line : Text} : line ≠ [] → Unbroken line → Broken line [line]
  | ended {line stop after : Text} {lines : List Text} : Unbroken line → IsBreak stop after →
      Broken after lines → Broken (line ++ stop ++ after) (line :: lines)

/-- The unit that reading remembers is the first one of the text behind. -/
theorem foldr_addUnit_fst (t : Text) : (t.foldr addUnit (none, [])).1 = t.head? := by
  cases t with
  | nil => rfl
  | cons u t =>
    rw [List.foldr_cons, List.head?_cons]
    unfold addUnit
    dsimp only
    repeat' split
    all_goals rfl

theorem ofText_cons (u : UInt16) (t : Text) :
    ofText (u :: t) = (addUnit u (t.head?, ofText t)).2 := by
  rw [ofText, List.foldr_cons, ← foldr_addUnit_fst]
  rfl

theorem ofText_lineFeed (t : Text) : ofText (Text.lineFeed :: t) = [] :: ofText t := by
  rw [ofText_cons]
  simp only [addUnit, if_true]

theorem ofText_carriageReturn {t : Text} (h : t.head? ≠ some Text.lineFeed) :
    ofText (Text.carriageReturn :: t) = [] :: ofText t := by
  have hne : Text.carriageReturn ≠ Text.lineFeed := by decide
  rw [ofText_cons]
  simp only [addUnit, if_neg hne, if_true, if_neg h]

theorem ofText_both (t : Text) :
    ofText (Text.carriageReturn :: Text.lineFeed :: t) = [] :: ofText t := by
  have hne : Text.carriageReturn ≠ Text.lineFeed := by decide
  rw [ofText_cons, ofText_lineFeed, List.head?_cons]
  simp only [addUnit, if_neg hne, if_true]

theorem ofText_break {stop after : Text} (h : IsBreak stop after) :
    ofText (stop ++ after) = [] :: ofText after := by
  rcases h with rfl | rfl | ⟨rfl, h⟩
  · exact ofText_lineFeed after
  · exact ofText_both after
  · exact ofText_carriageReturn h

/-- A unit that ends no line belongs to the first line of what follows. -/
theorem ofText_unit {u : UInt16} (hu : Unbroken [u]) (t : Text) :
    ofText (u :: t) = match ofText t with
      | [] => [[u]]
      | line :: lines => (u :: line) :: lines := by
  obtain ⟨hfeed, hreturn⟩ := hu
  rw [List.mem_singleton] at hfeed hreturn
  rw [ofText_cons]
  simp only [addUnit, if_neg (Ne.symm hfeed), if_neg (Ne.symm hreturn)]
  cases ofText t <;> rfl

theorem Unbroken.append {line more : Text} :
    Unbroken (line ++ more) ↔ Unbroken line ∧ Unbroken more := by
  simp only [Unbroken, List.mem_append, not_or]
  exact and_and_and_comm

theorem ofText_append {first : Text} (hfirst : Unbroken first) {t line : Text}
    {lines : List Text} (h : ofText t = line :: lines) :
    ofText (first ++ t) = (first ++ line) :: lines := by
  induction first with
  | nil => exact h
  | cons u first ih =>
    obtain ⟨hu, hfirst⟩ := Unbroken.append.mp (show Unbroken ([u] ++ first) from hfirst)
    rw [List.cons_append, ofText_unit hu, ih hfirst]
    rfl

/-- Lines are read in one way. -/
theorem Broken.eq_ofText {t : Text} {lines : List Text} (h : Broken t lines) :
    lines = ofText t := by
  induction h with
  | nil => rfl
  | @last line hne hline =>
    rcases List.eq_nil_or_concat line with rfl | ⟨first, u, rfl⟩
    · exact absurd rfl hne
    · rw [List.concat_eq_append] at hline ⊢
      obtain ⟨hfirst, hu⟩ := Unbroken.append.mp hline
      rw [ofText_append hfirst (ofText_unit hu [])]
  | ended hline hstop _ ih =>
    rw [ih, List.append_assoc, ofText_append hline (ofText_break hstop), List.append_nil]

theorem Broken.unit {u : UInt16} (hu : Unbroken [u]) {t : Text} {lines : List Text}
    (h : Broken t lines) : ∃ lines', Broken (u :: t) lines' := by
  have hunbroken {line : Text} (hline : Unbroken line) : Unbroken (u :: line) :=
    Unbroken.append.mpr ⟨hu, hline⟩
  cases h with
  | nil => exact ⟨_, .last (List.cons_ne_nil u []) hu⟩
  | last _ hline => exact ⟨_, .last (List.cons_ne_nil _ _) (hunbroken hline)⟩
  | ended hline hstop hafter => exact ⟨_, .ended (hunbroken hline) hstop hafter⟩

theorem exists_broken (t : Text) : ∃ lines, Broken t lines := by
  have hnil : Unbroken [] := ⟨List.not_mem_nil, List.not_mem_nil⟩
  induction hn : t.length using Nat.strongRecOn generalizing t with
  | _ n ih =>
  cases t with
  | nil => exact ⟨_, .nil⟩
  | cons u t =>
    rw [List.length_cons] at hn
    obtain ⟨lines, hlines⟩ := ih t.length (by omega) t rfl
    by_cases hfeed : u = Text.lineFeed
    · subst hfeed
      have hended : Broken ([] ++ [Text.lineFeed] ++ t) ([] :: lines) :=
        .ended hnil (.inl rfl) hlines
      exact ⟨_, hended⟩
    · by_cases hreturn : u = Text.carriageReturn
      · subst hreturn
        by_cases hboth : t.head? = some Text.lineFeed
        · obtain ⟨after, rfl⟩ := List.head?_eq_some_iff.mp hboth
          rw [List.length_cons] at hn
          obtain ⟨lines, hlines⟩ := ih after.length (by omega) after rfl
          have hended :
              Broken ([] ++ [Text.carriageReturn, Text.lineFeed] ++ after) ([] :: lines) :=
            .ended hnil (.inr (.inl rfl)) hlines
          exact ⟨_, hended⟩
        · have hended : Broken ([] ++ [Text.carriageReturn] ++ t) ([] :: lines) :=
            .ended hnil (.inr (.inr ⟨rfl, hboth⟩)) hlines
          exact ⟨_, hended⟩
      · refine hlines.unit ⟨?_, ?_⟩
        · exact fun h => hfeed (List.mem_singleton.mp h).symm
        · exact fun h => hreturn (List.mem_singleton.mp h).symm

/-- What is read are the lines of the text, and no other breaking of it. -/
theorem broken_iff {t : Text} {lines : List Text} : Broken t lines ↔ lines = ofText t := by
  constructor
  · exact Broken.eq_ofText
  · rintro rfl
    obtain ⟨lines, hlines⟩ := exists_broken t
    rw [← hlines.eq_ofText]
    exact hlines

theorem IsBreak.isPaired {stop after : Text} (h : IsBreak stop after) (line : Text) :
    Text.isPaired (line ++ stop ++ after) = (Text.isPaired line && Text.isPaired after) := by
  have hfeed : Text.isHalf Text.lineFeed = false := by decide
  have hreturn : Text.isHalf Text.carriageReturn = false := by decide
  rw [List.append_assoc]
  rcases h with rfl | rfl | ⟨rfl, -⟩
  · exact Text.isPaired_append_cons hfeed line after
  · exact (Text.isPaired_append_cons hreturn line _).trans
      (congrArg (Text.isPaired line && ·) (Text.isPaired_cons hfeed after))
  · exact Text.isPaired_append_cons hreturn line after

/-- No surrogate pair is parted between two lines. -/
theorem Broken.isPaired {t : Text} {lines : List Text} (h : Broken t lines)
    (ht : Text.isPaired t = true) : ∀ line ∈ lines, Text.isPaired line = true := by
  induction h with
  | nil => exact fun _ hline => absurd hline List.not_mem_nil
  | last => exact fun _ hline => List.mem_singleton.mp hline ▸ ht
  | ended _ hstop _ ih =>
    rw [hstop.isPaired, Bool.and_eq_true] at ht
    exact List.forall_mem_cons.mpr ⟨ht.1, ih ht.2⟩

theorem isPaired_of_mem_select {limit : Option Int} {t : Text} (ht : Text.isPaired t = true) :
    ∀ line ∈ select limit t, Text.isPaired line.raw = true := by
  intro line hline
  have hall : line ∈ numbered 0 (ofText t) := by
    unfold select cut at hline
    split at hline
    · split at hline
      · exact List.mem_of_mem_take hline
      · exact hline
    · exact hline
  obtain ⟨⟨raw, index⟩, hraw, rfl⟩ := List.mem_map.mp (List.mem_filter.mp hall).1
  have hmem := List.mem_of_getElem? (List.mem_zipIdx_iff_getElem?.mp hraw)
  exact (broken_iff.mpr rfl).isPaired ht raw hmem

/-! ## Batches -/

variable {α : Type}

/-- The items in batches: none is empty, and all but the last one have the size, if it is positive;
else there is one batch at most. -/
structure Batched (size : Int) (items : List α) (batches : List (List α)) : Prop where
  flatten : batches.flatten = items
  nonempty : ∀ batch ∈ batches, batch ≠ []
  full : 0 < size → ∀ batch ∈ batches.dropLast, (batch.length : Int) = size
  last : 0 < size → ∀ batch ∈ batches.getLast?, (batch.length : Int) ≤ size
  single : size ≤ 0 → batches = if items = [] then [] else [items]

theorem chunks_ne_nil (size : Nat) (items : List α) : ∀ chunk ∈ chunks size items, chunk ≠ [] := by
  fun_induction chunks size items with
  | case1 => simp
  | case2 a rest => simp
  | case3 a rest hsize ih =>
    intro chunk hchunk
    cases hchunk with
    | head => exact List.cons_ne_nil _ _
    | tail _ hchunk => exact ih chunk hchunk

theorem length_le_of_mem_chunks {size : Nat} (hpos : 0 < size) (items : List α) :
    ∀ chunk ∈ chunks size items, chunk.length ≤ size := by
  fun_induction chunks size items with
  | case1 => simp
  | case2 a rest hsize => omega
  | case3 a rest hsize ih =>
    intro chunk hchunk
    cases hchunk with
    | head =>
      rw [List.length_cons, List.length_take]
      omega
    | tail _ hchunk => exact ih chunk hchunk

/-- A chunk before another one is full. -/
theorem length_of_mem_dropLast_chunks {size : Nat} (hpos : 0 < size) (items : List α) :
    ∀ chunk ∈ (chunks size items).dropLast, chunk.length = size := by
  fun_induction chunks size items with
  | case1 => simp
  | case2 a rest hsize => omega
  | case3 a rest hsize ih =>
    cases hrest : rest.drop (size - 1) with
    | nil =>
      rw [chunks]
      simp
    | cons b more =>
      have hne : chunks size (b :: more) ≠ [] := by
        intro hnil
        have hflat := flatten_chunks size (b :: more)
        rw [hnil] at hflat
        cases hflat
      have hlength : size - 1 < rest.length := by
        have hdrop := congrArg List.length hrest
        rw [List.length_drop, List.length_cons] at hdrop
        omega
      rw [hrest] at ih
      rw [List.dropLast_cons_of_ne_nil hne]
      intro chunk hchunk
      cases hchunk with
      | head =>
        rw [List.length_cons, List.length_take]
        omega
      | tail _ hchunk => exact ih chunk hchunk

theorem length_chunks {size : Nat} (hpos : 0 < size) (items : List α) :
    (chunks size items).length = (items.length + size - 1) / size := by
  fun_induction chunks size items with
  | case1 =>
    rw [List.length_nil, List.length_nil, Nat.div_eq_of_lt (by omega)]
  | case2 a rest hsize => omega
  | case3 a rest hsize ih =>
    rw [List.length_cons, ih, List.length_drop, List.length_cons]
    have hmore : rest.length + 1 + size - 1 = rest.length + size := by omega
    rw [hmore, Nat.add_div_right _ hpos]
    congr 1
    by_cases hshort : rest.length ≤ size - 1
    · rw [Nat.div_eq_of_lt (by omega), Nat.div_eq_of_lt (by omega)]
    · congr 1
      omega

theorem batched_chunks (size : Int) (items : List α) :
    Batched size items (chunks size.toNat items) where
  flatten := flatten_chunks _ items
  nonempty := chunks_ne_nil _ items
  full := by
    intro hpos chunk hchunk
    have hlength := length_of_mem_dropLast_chunks (by omega) items chunk hchunk
    omega
  last := by
    intro hpos chunk hchunk
    have hlength := length_le_of_mem_chunks (by omega) items chunk (List.mem_of_getLast? hchunk)
    omega
  single := by
    intro hsize
    have hzero : size.toNat = 0 := by omega
    rw [chunks_of_short (.inl hzero)]
    cases items <;> rfl

/-- The batches hold the lines of the text that are not blank, with their numbers, up to the limit:
each of them once, in order, and as many in each batch as fit. Counting finds as many lines,
whatever the size of the batches is. -/
theorem batches_batched (size : Int) (limit : Option Int) (t : Text) :
    (∀ lines, Broken t lines ↔ lines = ofText t)
      ∧ Batched size (select limit t) (batches size limit t)
      ∧ count limit t = (select limit t).length := by
  refine ⟨fun _ => broken_iff, ?_, count_eq limit t⟩
  rw [batches_eq]
  exact batched_chunks size (select limit t)

/-- All three ends of lines, an empty line, a blank one, and a line beyond the limit. -/
def mixedLog : Text :=
  text "a\r\n\rb\n \nc"

/-- The batch is full where the limit is reached; behind it there is no other batch. -/
theorem mixedLog_batched :
    Broken mixedLog [text "a", [], text "b", text " ", text "c"]
      ∧ batches 2 (some 2) mixedLog = [[⟨0, text "a"⟩, ⟨2, text "b"⟩]]
      ∧ batches 0 none mixedLog = [[⟨0, text "a"⟩, ⟨2, text "b"⟩, ⟨4, text "c"⟩]]
      ∧ count (some 2) mixedLog = 2 := by
  have hlines : ofText mixedLog = [text "a", [], text "b", text " ", text "c"] := rfl
  have hselect : select (some 2) mixedLog = [⟨0, text "a"⟩, ⟨2, text "b"⟩] := rfl
  have hall : select none mixedLog = [⟨0, text "a"⟩, ⟨2, text "b"⟩, ⟨4, text "c"⟩] := rfl
  obtain ⟨hbroken, -, hcount⟩ := batches_batched 2 (some 2) mixedLog
  obtain ⟨-, hone, -⟩ := batches_batched 0 none mixedLog
  refine ⟨(hbroken _).mpr hlines.symm, rfl, ?_, by rw [hcount, hselect]; rfl⟩
  rw [hone.single (by decide), hall]
  rfl

end LogTemplate.Lines
