import LogTemplate.Template.Substitution

/-!
# LogTemplate.Proofs.Template.Cut

Substitution on escaped text is cutting the raw text into tokens and literal units.

* `escapeUnit_append_inj`, `escape_prefix_iff` — escaping is a code in which no unit begins another.
* `tokenLength` — the length of the longest token that starts a text.
* `Piece`, `cut` — a template as a sequence of tokens and literal units.
* `substitute_escape` — substitution puts a fragment for every token of the cut and an escape for
  every literal unit.
-/

namespace LogTemplate.Template

/-! ## Escaping is a prefix code -/

theorem ne_lowerX_of_isSpecial {u : UInt16} (h : isSpecial u = true) : u ≠ Text.lowerX := by
  rintro rfl
  exact absurd h (by decide)

theorem ne_backslash_of_isSpecial {u : UInt16} (h : isSpecial u = false) :
    u ≠ Text.backslash := by
  rintro rfl
  exact absurd h (by decide)

theorem hexDigit_inj {m n : Nat} (hm : m < 16) (hn : n < 16) (h : hexDigit m = hexDigit n) :
    m = n := by
  have hall : ∀ m < 16, ∀ n < 16, hexDigit m = hexDigit n → m = n := by decide
  exact hall m hm n hn h

theorem toNat_lt_of_isControl {u : UInt16} (h : isControl u = true) : u.toNat < 256 := by
  simp only [isControl, Bool.or_eq_true, Bool.and_eq_true, decide_eq_true_eq] at h
  rcases h with h | h
  · have := UInt16.lt_iff_toNat_lt.mp h
    exact Nat.lt_trans this (by decide)
  · have := UInt16.le_iff_toNat_le.mp h.2
    exact Nat.lt_of_le_of_lt this (by decide)

/-- The three forms of an escaped unit. -/
theorem escapeUnit_cases (u : UInt16) :
    (isSpecial u = true ∧ escapeUnit u = [Text.backslash, u])
      ∨ (isSpecial u = false ∧ isControl u = true ∧ escapeUnit u =
        [Text.backslash, Text.lowerX, hexDigit (u.toNat / 16), hexDigit (u.toNat % 16)])
      ∨ (isSpecial u = false ∧ isControl u = false ∧ escapeUnit u = [u]) := by
  unfold escapeUnit
  cases hs : isSpecial u with
  | true => exact .inl ⟨rfl, rfl⟩
  | false =>
    cases hc : isControl u with
    | true => exact .inr (.inl ⟨rfl, rfl, rfl⟩)
    | false => exact .inr (.inr ⟨rfl, rfl, rfl⟩)

/-- No escaped unit is the beginning of another. -/
theorem escapeUnit_append_inj {u v : UInt16} {a b : Text}
    (h : escapeUnit u ++ a = escapeUnit v ++ b) : u = v ∧ a = b := by
  have hx {w : UInt16} (hw : isSpecial w = true) := ne_lowerX_of_isSpecial hw
  have hb {w : UInt16} (hw : isSpecial w = false) := ne_backslash_of_isSpecial hw
  rcases escapeUnit_cases u with ⟨hu, eu⟩ | ⟨hu, cu, eu⟩ | ⟨hu, cu, eu⟩ <;>
    rcases escapeUnit_cases v with ⟨hv, ev⟩ | ⟨hv, cv, ev⟩ | ⟨hv, cv, ev⟩ <;>
    rw [eu, ev] at h <;>
    simp only [List.cons_append, List.nil_append, List.cons.injEq, true_and] at h
  · exact h
  · exact absurd h.1 (hx hu)
  · exact absurd h.1.symm (hb hv)
  · exact absurd h.1.symm (hx hv)
  · have hm := hexDigit_inj (by have := toNat_lt_of_isControl cu; omega)
      (by have := toNat_lt_of_isControl cv; omega) h.1
    have hn := hexDigit_inj (Nat.mod_lt _ (by decide)) (Nat.mod_lt _ (by decide)) h.2.1
    exact ⟨UInt16.toNat_inj.mp (by omega), h.2.2⟩
  · exact absurd h.1.symm (hb hv)
  · exact absurd h.1 (hb hu)
  · exact absurd h.1 (hb hu)
  · exact h

theorem escape_cons (u : UInt16) (t : Text) : escape (u :: t) = escapeUnit u ++ escape t := rfl

theorem escape_append (s t : Text) : escape (s ++ t) = escape s ++ escape t :=
  List.flatMap_append

theorem escapeUnit_ne_nil (u : UInt16) : escapeUnit u ≠ [] := by
  rcases escapeUnit_cases u with ⟨_, h⟩ | ⟨_, _, h⟩ | ⟨_, _, h⟩ <;> rw [h] <;> simp

theorem escape_isEmpty (t : Text) : (escape t).isEmpty = t.isEmpty := by
  cases t with
  | nil => rfl
  | cons u t => simp [escape_cons, escapeUnit_ne_nil]

theorem escape_ne_nil {t : Text} (h : t ≠ []) : escape t ≠ [] := by
  rw [← List.isEmpty_eq_false_iff, escape_isEmpty, List.isEmpty_eq_false_iff]
  exact h

/-- An escaped text goes on where the raw text goes on. -/
theorem escape_prefix_iff {k t : Text} : escape k <+: escape t ↔ k <+: t := by
  constructor
  · rintro ⟨r, hr⟩
    induction k generalizing t with
    | nil => exact List.nil_prefix
    | cons u k ih =>
      rw [escape_cons, List.append_assoc] at hr
      cases t with
      | nil => exact absurd (List.append_eq_nil_iff.mp hr).1 (escapeUnit_ne_nil u)
      | cons v t =>
        rw [escape_cons] at hr
        obtain ⟨rfl, hrest⟩ := escapeUnit_append_inj hr
        exact List.cons_prefix_cons.mpr ⟨rfl, ih hrest⟩
  · rintro ⟨r, rfl⟩
    exact ⟨escape r, (escape_append k r).symm⟩

theorem unitLength_plain {c : UInt16} (hc : c ≠ Text.backslash) (t : Text) :
    unitLength (c :: t) = 1 := by
  unfold unitLength
  split
  · rename_i heq
    exact absurd (List.cons.inj heq).1 hc
  · rename_i heq
    exact absurd (List.cons.inj heq).1 hc
  · rfl

theorem unitLength_pair {c : UInt16} (hc : c ≠ Text.lowerX) (t : Text) :
    unitLength (Text.backslash :: c :: t) = 2 := by
  unfold unitLength
  split
  · rename_i heq
    cases heq
    exact absurd rfl hc
  · rfl
  · rename_i hne
    exact absurd rfl (hne _)

theorem unitLength_escape (u : UInt16) (t : Text) :
    unitLength (escapeUnit u ++ t) = (escapeUnit u).length := by
  rcases escapeUnit_cases u with ⟨hu, eu⟩ | ⟨-, -, eu⟩ | ⟨hu, -, eu⟩
  · rw [eu]
    exact unitLength_pair (ne_lowerX_of_isSpecial hu) t
  · rw [eu]
    rfl
  · rw [eu]
    exact unitLength_plain (ne_backslash_of_isSpecial hu) t

/-! ## Cutting -/

/-- The length of the longest of the keys that starts the text; zero if none does. -/
def tokenLength (keys : List Text) (t : Text) : Nat :=
  ((List.range (t.length + 1)).filter fun n => decide (t.take n ∈ keys)).foldl max 0

inductive Piece where
  | token (key : Text)
  | literal (u : UInt16)
deriving Repr, DecidableEq

/-- A text, cut from left to right into the longest tokens that start where the last piece ends, and
single units where no token starts. -/
def cut (keys : List Text) : Text → List Piece
  | [] => []
  | u :: t =>
    match tokenLength keys (u :: t) with
    | 0 => .literal u :: cut keys t
    | n + 1 => .token ((u :: t).take (n + 1)) :: cut keys (t.drop n)
termination_by t => t.length
decreasing_by all_goals (simp only [List.length_cons, List.length_drop]; omega)

theorem le_foldl_max {l : List Nat} {n a : Nat} (h : n ∈ l ∨ n ≤ a) : n ≤ l.foldl max a := by
  induction l generalizing a with
  | nil => simpa using h
  | cons m l ih =>
    apply ih
    rcases h with h | h
    · cases h with
      | head => exact .inr (Nat.le_max_right _ _)
      | tail _ h => exact .inl h
    · exact .inr (Nat.le_trans h (Nat.le_max_left _ _))

theorem foldl_max_mem (l : List Nat) (a : Nat) : l.foldl max a = a ∨ l.foldl max a ∈ l := by
  induction l generalizing a with
  | nil => exact .inl rfl
  | cons m l ih =>
    rw [List.foldl_cons]
    rcases ih (max a m) with h | h
    · rw [h]
      rcases Nat.le_total a m with hle | hle
      · rw [Nat.max_eq_right hle]; exact .inr (by simp)
      · rw [Nat.max_eq_left hle]; exact .inl rfl
    · exact .inr (List.mem_cons_of_mem _ h)

/-- No key that starts the text is longer. -/
theorem le_tokenLength {keys : List Text} {k t : Text} (hk : k ∈ keys) (hp : k <+: t) :
    k.length ≤ tokenLength keys t := by
  apply le_foldl_max
  left
  rw [List.mem_filter, List.mem_range, decide_eq_true_eq]
  refine ⟨Nat.lt_succ_of_le hp.length_le, ?_⟩
  rw [List.prefix_iff_eq_take.mp hp] at hk
  exact hk

theorem take_tokenLength {keys : List Text} {t : Text} (h : tokenLength keys t ≠ 0) :
    t.take (tokenLength keys t) ∈ keys ∧ tokenLength keys t ≤ t.length := by
  rcases foldl_max_mem ((List.range (t.length + 1)).filter fun n => decide (t.take n ∈ keys)) 0 with
    hz | hmem
  · exact absurd hz h
  · rw [List.mem_filter, List.mem_range, decide_eq_true_eq] at hmem
    exact ⟨hmem.2, Nat.le_of_lt_succ hmem.1⟩

/-! ## The order in which tokens are tried -/

theorem sorted_pairwise (ts : List Text) : (Text.sorted ts).Pairwise (· ≤ ·) := by
  have h := @List.pairwise_mergeSort _ (fun a b : Text => decide (a ≤ b))
    (by simp only [decide_eq_true_eq]; exact fun a b c => List.le_trans)
    (by intro a b; simpa using List.le_total a b) ts
  exact h.imp fun hab => by simpa using hab

theorem mem_sorted {t : Text} {ts : List Text} : t ∈ Text.sorted ts ↔ t ∈ ts :=
  List.mem_mergeSort

/-- The entry of a token. -/
def entry (tokens : List (Text × Text)) (key : Text) : TokenEntry :=
  ⟨key, escape key, (tokens.lookup key).getD []⟩

theorem starts_entry {tokens : List (Text × Text)} {key t : Text} :
    (entry tokens key).starts t = true ↔ key ≠ [] ∧ escape key <+: t := by
  simp only [TokenEntry.starts, entry, escape_isEmpty, Bool.and_eq_true, Bool.not_eq_true',
    List.isEmpty_eq_false_iff, List.isPrefixOf_iff_prefix]

/-- If no entry starts a text, the escaped form of no token does. -/
theorem not_prefix_of_find? {tokens : List (Text × Text)} {t : Text}
    (h : (tokenOrder tokens).find? (·.starts t) = none) {key : Text}
    (hkey : key ∈ tokens.map (·.1)) (hne : key ≠ []) : ¬ escape key <+: t := by
  change ((Text.sorted (tokens.map (·.1))).reverse.map (entry tokens)).find? _ = _ at h
  rw [List.find?_map, Option.map_eq_none_iff, List.find?_eq_none] at h
  intro hstarts
  exact h key (List.mem_reverse.mpr (mem_sorted.mpr hkey)) (starts_entry.mpr ⟨hne, hstarts⟩)

/-- The first entry that starts a text is that of the longest token: any other token whose escaped
form starts the text is a beginning of it. The text need not be an escaped one. -/
theorem exists_of_find? {tokens : List (Text × Text)} {t : Text} {e : TokenEntry}
    (h : (tokenOrder tokens).find? (·.starts t) = some e) :
    ∃ key ∈ tokens.map (·.1), e = entry tokens key ∧ key ≠ [] ∧ escape key <+: t
      ∧ ∀ other ∈ tokens.map (·.1), escape other <+: t → other <+: key := by
  change ((Text.sorted (tokens.map (·.1))).reverse.map (entry tokens)).find? _ = _ at h
  rw [List.find?_map, Option.map_eq_some_iff] at h
  obtain ⟨key, hkey, rfl⟩ := h
  rw [List.find?_eq_some_iff_append] at hkey
  obtain ⟨hstarts, before, after, hsplit, hbefore⟩ := hkey
  obtain ⟨hne, hprefix⟩ := starts_entry.mp hstarts
  have hmem (k : Text) : k ∈ tokens.map (·.1) ↔ k ∈ before ++ key :: after := by
    rw [← hsplit, List.mem_reverse, mem_sorted]
  refine ⟨key, (hmem key).mpr (by simp), rfl, hne, hprefix, ?_⟩
  intro other hother hstands
  rcases List.prefix_or_prefix_of_prefix hstands hprefix with hle | hle
  · exact escape_prefix_iff.mp hle
  · -- a longer token is greater, and would have been found before
    have hlonger := escape_prefix_iff.mp hle
    have hother_ne : other ≠ [] := by
      rintro rfl
      exact hne (List.prefix_nil.mp hlonger)
    have hdesc := List.pairwise_reverse.mpr (sorted_pairwise (tokens.map (·.1)))
    rw [hsplit, List.pairwise_append, List.pairwise_cons] at hdesc
    rcases List.mem_append.mp ((hmem other).mp hother) with hin | hin
    · have hno := hbefore other hin
      rw [Function.comp_apply, starts_entry.mpr ⟨hother_ne, hstands⟩] at hno
      cases hno
    · cases hin with
      | head => exact List.prefix_rfl
      | tail _ hin =>
        obtain rfl := List.le_antisymm hlonger.le (hdesc.2.1.1 other hin)
        exact List.prefix_rfl

/-- The first entry that starts an escaped text is that of the longest token. -/
theorem find?_tokenOrder (tokens : List (Text × Text)) (t : Text) :
    (tokenOrder tokens).find? (·.starts (escape t)) =
      if tokenLength (tokens.map (·.1)) t = 0 then none
      else some (entry tokens (t.take (tokenLength (tokens.map (·.1)) t))) := by
  have hlongest (hn : tokenLength (tokens.map (·.1)) t ≠ 0) :
      t.take (tokenLength (tokens.map (·.1)) t) ≠ [] := by
    intro hnil
    have hlength := congrArg List.length hnil
    have hle := (take_tokenLength hn).2
    rw [List.length_take, List.length_nil] at hlength
    omega
  have hstands := escape_prefix_iff.mpr (t.take_prefix (tokenLength (tokens.map (·.1)) t))
  cases hf : (tokenOrder tokens).find? (·.starts (escape t)) with
  | none =>
    rw [if_pos (Decidable.byContradiction fun hn => ?_)]
    exact not_prefix_of_find? hf (take_tokenLength hn).1 (hlongest hn) hstands
  | some e =>
    obtain ⟨key, hkey, rfl, hne, hprefix, hbest⟩ := exists_of_find? hf
    have hprefix := escape_prefix_iff.mp hprefix
    have hle := le_tokenLength hkey hprefix
    have hn : tokenLength (tokens.map (·.1)) t ≠ 0 := by
      have hpos := List.length_pos_iff.mpr hne
      omega
    obtain ⟨hmem, hlen⟩ := take_tokenLength hn
    have htake := hbest _ hmem hstands
    rw [if_neg hn, htake.eq_of_length_le]
    rw [List.length_take_of_le hlen]
    exact hle

/-! ## Substitution -/

/-- What a piece stands for in a pattern. -/
def Piece.text (fragment : Text → Text) : Piece → Text
  | .token key => fragment key
  | .literal u => escapeUnit u

/-- The fragment of a token. -/
def fragmentOf (tokens : List (Text × Text)) (key : Text) : Text :=
  (tokens.lookup key).getD []

theorem substitute_step (order : List TokenEntry) {s : Text} (hs : s ≠ []) :
    substitute order s =
      match order.find? (·.starts s) with
      | some e => e.fragment ++ substitute order (s.drop e.escaped.length)
      | none => s.take (unitLength s) ++ substitute order (s.drop (unitLength s)) := by
  cases s with
  | nil => exact absurd rfl hs
  | cons u s =>
    rw [substitute]
    cases hf : order.find? (·.starts (u :: s)) with
    | some e =>
      have hstarts := List.find?_some hf
      simp only [TokenEntry.starts, Bool.and_eq_true, Bool.not_eq_true', List.isEmpty_eq_false_iff]
        at hstarts
      obtain ⟨n, hn⟩ : ∃ n, e.escaped.length = n + 1 :=
        Nat.exists_eq_succ_of_ne_zero fun h => hstarts.1 (List.length_eq_zero_iff.mp h)
      simp only [hn, Nat.add_sub_cancel, List.drop_succ_cons]
    | none =>
      obtain ⟨n, hn⟩ : ∃ n, unitLength (u :: s) = n + 1 := by
        unfold unitLength
        split
        · exact ⟨3, rfl⟩
        · exact ⟨1, rfl⟩
        · exact ⟨0, rfl⟩
      simp only [hn, Nat.add_sub_cancel, List.drop_succ_cons, List.take_succ_cons]

/-- Substitution in an escaped template puts a fragment for every token that the raw template is cut
into, and an escape for every literal unit. -/
theorem substitute_escape (tokens : List (Text × Text)) (t : Text) :
    substitute (tokenOrder tokens) (escape t) =
      (cut (tokens.map (·.1)) t).flatMap (Piece.text (fragmentOf tokens)) := by
  fun_induction cut (tokens.map (·.1)) t with
  | case1 => rw [escape, List.flatMap_nil, substitute]; rfl
  | case2 u t hzero ih =>
    rw [substitute_step _ (by simp [escape_cons, escapeUnit_ne_nil]), find?_tokenOrder,
      if_pos hzero]
    simp only
    rw [escape_cons, unitLength_escape, List.take_left, List.drop_left, ih]; rfl
  | case3 u t n hn ih =>
    rw [substitute_step _ (by simp [escape_cons, escapeUnit_ne_nil]), find?_tokenOrder, hn,
      if_neg (by omega)]
    have hsplit : u :: t = (u :: t).take (n + 1) ++ t.drop n := by
      rw [← List.drop_succ_cons (a := u), List.take_append_drop]
    have hdrop : (escape (u :: t)).drop (escape ((u :: t).take (n + 1))).length
        = escape (t.drop n) := by
      conv => lhs; arg 2; rw [hsplit, escape_append]
      exact List.drop_left
    simp only [entry]
    rw [hdrop, ih]; rfl

end LogTemplate.Template
