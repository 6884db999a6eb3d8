import LogTemplate.Text.Basic
import Mathlib.Data.List.Basic
import Mathlib.Data.List.Induction

/-!
# LogTemplate.Proofs.Text.Distinct

Texts without repetitions, each at the place of its first occurrence.

* `eraseDups_concat` — one more text at the end.
* `nodup_eraseDups`, `eraseDups_eq_self` — when there is no repetition.
* `eraseDups_append_left`, `eraseDups_append_of_subset` — repetitions may be left out in between.
* `distinct_eq` — going from left to right leaves the first occurrences.
-/

namespace LogTemplate.Text

variable {ts us : List Text} {t : Text}

theorem eraseDups_concat (ts : List Text) (t : Text) :
    (ts ++ [t]).eraseDups = if t ∈ ts then ts.eraseDups else ts.eraseDups ++ [t] := by
  rw [List.eraseDups_append, List.cons_removeAll]
  by_cases h : t ∈ ts
  · simp [h]
  · simp [h, List.eraseDups_cons]

theorem nodup_eraseDups (ts : List Text) : ts.eraseDups.Nodup := by
  induction ts using List.reverseRecOn with
  | nil => exact .nil
  | append_singleton ts t ih =>
    rw [eraseDups_concat]
    split
    · exact ih
    · rename_i hnew
      refine List.nodup_append.mpr ⟨ih, List.pairwise_singleton _ _, ?_⟩
      rintro u hu v hv rfl
      rw [List.mem_singleton.mp hv] at hu
      exact hnew (List.mem_eraseDups.mp hu)

theorem eraseDups_eq_self (h : ts.Nodup) : ts.eraseDups = ts := by
  induction ts using List.reverseRecOn with
  | nil => rfl
  | append_singleton ts t ih =>
    obtain ⟨hts, -, hnew⟩ := List.nodup_append.mp h
    rw [eraseDups_concat, if_neg fun hmem => hnew t hmem t (by simp) rfl, ih hts]

/-- Repetitions at the beginning may be left out first. -/
theorem eraseDups_append_left (ts us : List Text) :
    (ts.eraseDups ++ us).eraseDups = (ts ++ us).eraseDups := by
  induction us using List.reverseRecOn with
  | nil =>
    rw [List.append_nil, List.append_nil]
    exact eraseDups_eq_self (nodup_eraseDups ts)
  | append_singleton us u ih =>
    rw [← List.append_assoc, ← List.append_assoc, eraseDups_concat, eraseDups_concat, ih]
    simp only [List.mem_append, List.mem_eraseDups]

/-- Nothing is added by what is there. -/
theorem eraseDups_append_of_subset (h : ∀ u ∈ us, u ∈ ts) :
    (ts ++ us).eraseDups = ts.eraseDups := by
  induction us using List.reverseRecOn with
  | nil => rw [List.append_nil]
  | append_singleton us u ih =>
    have hu : u ∈ ts ++ us := List.mem_append_left us (h u (by simp))
    rw [← List.append_assoc, eraseDups_concat, if_pos hu]
    exact ih fun v hv => h v (by simp [hv])

theorem distinct_concat (ts : List Text) (t : Text) :
    distinct (ts ++ [t]) = if t ∈ distinct ts then distinct ts else distinct ts ++ [t] :=
  List.foldl_concat ..

theorem distinct_eq (ts : List Text) : distinct ts = ts.eraseDups := by
  induction ts using List.reverseRecOn with
  | nil => rfl
  | append_singleton ts t ih =>
    rw [distinct_concat, eraseDups_concat, ih]
    simp only [List.mem_eraseDups]

end LogTemplate.Text
