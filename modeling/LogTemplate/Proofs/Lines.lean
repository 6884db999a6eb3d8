import LogTemplate.Lines.Basic

/-!
# LogTemplate.Proofs.Lines

Reading lines into batches selects the same lines whatever the size of the batches is.

* `Lines.chunks` — a list in pieces of one size.
* `Lines.select` — the lines that are not blank with their numbers, up to a limit.
* `Lines.numbered`, `Lines.rest` — the same from a line on, and what a limit still lets through.
* `batchesFrom_eq` — the invariant of reading: the batch that is being filled comes first.
* `batches_eq`, `count_eq` — the batches are the selected lines in pieces, and all are counted.
-/

namespace LogTemplate.Lines

variable {α : Type} {size : Nat}

/-! ## Pieces of one size -/

/-- Cuts a list into pieces of one size, the last of which may be shorter; with size zero it is one
piece. There are no empty pieces. -/
def chunks (size : Nat) : List α → List (List α)
  | [] => []
  | a :: rest =>
    if size = 0 then [a :: rest]
    else (a :: rest.take (size - 1)) :: chunks size (rest.drop (size - 1))
termination_by items => items.length
decreasing_by (simp only [List.length_cons, List.length_drop]; omega)

theorem flatten_chunks (size : Nat) (items : List α) : (chunks size items).flatten = items := by
  fun_induction chunks size items with
  | case1 => rfl
  | case2 a rest => simp
  | case3 a rest hsize ih =>
    rw [List.flatten_cons, ih, List.cons_append, List.take_append_drop]

theorem chunks_of_short {items : List α} (h : size = 0 ∨ items.length ≤ size) :
    chunks size items = if items.isEmpty then [] else [items] := by
  cases items with
  | nil => rw [chunks]; rfl
  | cons a rest =>
    rw [chunks]
    split
    · rfl
    · rename_i hsize
      have hlength : rest.length ≤ size - 1 := by
        have := h.resolve_left hsize
        rw [List.length_cons] at this
        omega
      rw [List.take_of_length_le hlength, List.drop_of_length_le hlength, chunks]
      rfl

theorem chunks_append {xs : List α} (hpos : 0 < size) (hlength : xs.length = size) (ys : List α) :
    chunks size (xs ++ ys) = xs :: chunks size ys := by
  cases xs with
  | nil => simp only [List.length_nil] at hlength; omega
  | cons a xs =>
    rw [List.length_cons] at hlength
    have hxs : xs.length = size - 1 := by omega
    rw [List.cons_append, chunks, if_neg (by omega), List.take_append_of_le_length (by omega),
      List.drop_append_of_le_length (by omega), ← hxs, List.take_length, List.drop_length]
    rfl

/-! ## Selected lines -/

/-- A limit that is absent or not positive is none. -/
def cut {α : Type} (limit : Option Int) (items : List α) : List α :=
  match limit with
  | some n => if 0 < n then items.take n.toNat else items
  | none => items

/-- The first lines that are not blank. -/
def select (limit : Option Int) (t : Text) : List LogLine :=
  cut limit (((ofText t).zipIdx.map fun (raw, index) => ⟨index, raw⟩).filter
    fun line => !Text.allBlank line.raw)

/-- The lines that are not blank; the first line has the number `index`. -/
def numbered (index : Nat) (raws : List Text) : List LogLine :=
  ((raws.zipIdx index).map fun (raw, index) => ⟨index, raw⟩).filter
    fun line => !Text.allBlank line.raw

theorem numbered_blank {raw : Text} (h : Text.allBlank raw = true) (index : Nat)
    (raws : List Text) : numbered index (raw :: raws) = numbered (index + 1) raws := by
  simp [numbered, h]

theorem numbered_cons {raw : Text} (h : Text.allBlank raw = false) (index : Nat)
    (raws : List Text) :
    numbered index (raw :: raws) = ⟨index, raw⟩ :: numbered (index + 1) raws := by
  simp [numbered, h]

theorem length_numbered (index : Nat) (raws : List Text) :
    (numbered index raws).length = (raws.filter fun raw => !Text.allBlank raw).length := by
  induction raws generalizing index with
  | nil => rfl
  | cons raw raws ih =>
    cases h : Text.allBlank raw with
    | true => rw [numbered_blank h, ih, List.filter_cons_of_neg (by simp [h])]
    | false =>
      rw [numbered_cons h, List.filter_cons_of_pos (by simp [h]), List.length_cons, ih,
        List.length_cons]

/-- What a limit lets through behind `count` lines. -/
def rest (limit : Option Int) (count : Nat) (items : List α) : List α :=
  match limit with
  | some n => if 0 < n then items.take (n.toNat - count) else items
  | none => items

theorem rest_nil (limit : Option Int) (count : Nat) : rest limit count ([] : List α) = [] := by
  unfold rest
  split
  · split
    · exact List.take_nil
    · rfl
  · rfl

theorem rest_reached {limit : Option Int} {count : Nat} (h : reached limit count = true)
    (items : List α) : rest limit count items = [] := by
  unfold reached at h
  split at h
  · obtain ⟨hpos, hle⟩ := of_decide_eq_true h
    have hzero : Int.toNat _ - count = 0 := Nat.sub_eq_zero_of_le (Int.toNat_le.mpr hle)
    rw [rest, if_pos hpos, hzero, List.take_zero]
  · cases h

theorem rest_cons {limit : Option Int} {count : Nat} (h : reached limit count = false) (a : α)
    (items : List α) : rest limit count (a :: items) = a :: rest limit (count + 1) items := by
  unfold reached at h
  unfold rest
  split
  · rename_i n
    have hnot := of_decide_eq_false h
    split
    · rename_i hpos
      have hsub : n.toNat - count = n.toNat - (count + 1) + 1 := by omega
      rw [hsub, List.take_succ_cons]
    · rfl
  · rfl

theorem select_eq (limit : Option Int) (t : Text) :
    select limit t = rest limit 0 (numbered 0 (ofText t)) := rfl

theorem not_reached_zero (limit : Option Int) : reached limit 0 = false := by
  unfold reached
  split
  · exact decide_eq_false (by omega)
  · rfl

/-! ## Batches -/

theorem flush_eq (size : Nat) {batch : Array LogLine} (h : size = 0 ∨ batch.size ≤ size) :
    flush batch = chunks size batch.toList := by
  rw [chunks_of_short (by simpa using h), flush]
  simp

/-- The invariant of reading: the limit is not reached, and the batch has room. What is read are the
lines of the batch and then the selected lines, in pieces. -/
theorem batchesFrom_eq (size : Int) (limit : Option Int) (raws : List Text) :
    ∀ (index count : Nat) (batch : Array LogLine), reached limit count = false →
      (0 < size → (batch.size : Int) < size) →
      batchesFrom size limit index count batch raws
        = chunks size.toNat (batch.toList ++ rest limit count (numbered index raws)) := by
  induction raws with
  | nil =>
    intro index count batch _ hroom
    rw [batchesFrom, flush_eq size.toNat (by omega)]
    change _ = chunks size.toNat (batch.toList ++ rest limit count [])
    rw [rest_nil, List.append_nil]
  | cons raw raws ih =>
    intro index count batch hreached hroom
    rw [batchesFrom]
    cases hblank : Text.allBlank raw with
    | true =>
      rw [if_pos rfl, numbered_blank hblank]
      exact ih (index + 1) count batch hreached hroom
    | false =>
      rw [if_neg Bool.false_ne_true, numbered_cons hblank, rest_cons hreached]
      dsimp only
      have hpush : batch.toList
            ++ ⟨index, raw⟩ :: rest limit (count + 1) (numbered (index + 1) raws)
          = (batch.push ⟨index, raw⟩).toList
            ++ rest limit (count + 1) (numbered (index + 1) raws) := by
        simp
      have hsize : (batch.push ⟨index, raw⟩).size = batch.size + 1 := Array.size_push _
      rw [hpush]
      generalize batch.push ⟨index, raw⟩ = pushed at hsize ⊢
      by_cases hfull : (pushed.size : Int) = size
      · -- the batch is full and a new one is begun
        rw [decide_eq_true hfull, if_pos rfl, if_pos rfl,
          chunks_append (by omega) (by rw [Array.length_toList]; omega)]
        cases hnext : reached limit (count + 1) with
        | true => rw [if_pos rfl, rest_reached hnext, chunks]; rfl
        | false =>
          rw [if_neg Bool.false_ne_true, ih (index + 1) (count + 1) #[] hnext (fun h => h)]
          rfl
      · rw [decide_eq_false hfull, if_neg Bool.false_ne_true, if_neg Bool.false_ne_true]
        cases hnext : reached limit (count + 1) with
        | true =>
          rw [if_pos rfl, rest_reached hnext, flush_eq size.toNat (by omega),
            List.append_nil]
          rfl
        | false =>
          rw [if_neg Bool.false_ne_true, ih (index + 1) (count + 1) pushed hnext (by omega)]
          rfl

/-- The batches are the selected lines in pieces of one size. -/
theorem batches_eq (size : Int) (limit : Option Int) (t : Text) :
    batches size limit t = chunks size.toNat (select limit t) :=
  batchesFrom_eq size limit (ofText t) 0 0 #[] (not_reached_zero limit) (fun h => h)

theorem flatten_batches (size : Int) (limit : Option Int) (t : Text) :
    (batches size limit t).flatten = select limit t := by
  rw [batches_eq, flatten_chunks]

theorem count_eq (limit : Option Int) (t : Text) : count limit t = (select limit t).length := by
  unfold count
  rw [select_eq, ← length_numbered 0]
  cases limit with
  | none => rfl
  | some n =>
    unfold rest
    dsimp only
    split
    · rw [List.length_take, Nat.sub_zero, Nat.min_comm]
    · rfl

end LogTemplate.Lines
