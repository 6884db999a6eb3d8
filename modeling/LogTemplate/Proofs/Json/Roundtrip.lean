import LogTemplate.Proofs.Json.Scalars
import LogTemplate.Proofs.PropertyMap

/-!
# LogTemplate.Proofs.Json.Roundtrip

Values that are written on lines of their own are read back.

* `Json.Normal` — the members of every object are in their order, and no key is there twice.
* `EndsValue` — what stands behind a value: nothing, a comma or a new line.
* `ReadBack` — the text of a value is read as the value.
* `readItems_back`, `readMembers_back` — the items of an array and the members of an object.
* `Normal.read?_writeIndented` — reading gives back every normal value that is written.
-/

namespace LogTemplate.Json

/-- The value of a text: in each object no key is there twice, and the members are in the order in
which an object has them. -/
inductive Normal : Json → Prop where
  | null : Normal .null
  | bool (b : Bool) : Normal (.bool b)
  | number (mantissa exponent : Int) : Normal (.number mantissa exponent)
  | string (t : Text) : Normal (.string t)
  | array {items : List Json} (h : ∀ item ∈ items, Normal item) : Normal (.array items)
  | object {members : List (Text × Json)} (hlawful : (⟨members⟩ : PropertyMap Json).Lawful)
    (h : ∀ member ∈ members, Normal member.2) : Normal (.object members)

variable {depth fuel : Nat} {t t' rest : Text} {u : UInt16}

/-! ## Between values -/

theorem skipGap_cons (h : isGap u = false) (t : Text) : skipGap (u :: t) = u :: t := by
  rw [skipGap, List.dropWhile_cons_of_neg (by simp [h])]

theorem skipGap_newLine (depth : Nat) (t : Text) : skipGap (newLine depth ++ t) = skipGap t := by
  refine List.dropWhile_append_of_pos fun u hu => ?_
  rcases List.mem_cons.mp hu with rfl | hu
  · rfl
  · rw [(List.mem_replicate.mp hu).2]
    rfl

theorem skipGap_space (t : Text) : skipGap (Text.space :: t) = skipGap t := rfl

theorem readValue_congr (h : skipGap t = skipGap t') : readValue fuel t = readValue fuel t' := by
  cases fuel with
  | zero => rfl
  | succ fuel => rw [readValue, readValue, h]

theorem readItems_congr (h : skipGap t = skipGap t') : readItems fuel t = readItems fuel t' := by
  cases fuel with
  | zero => rfl
  | succ fuel => rw [readItems, readItems, readValue_congr h]

theorem readMembers_congr (h : skipGap t = skipGap t') :
    readMembers fuel t = readMembers fuel t' := by
  cases fuel with
  | zero => rfl
  | succ fuel => rw [readMembers, readMembers, readKey, readKey, h]

/-- What stands behind a value that is written. -/
def EndsValue (rest : Text) : Prop :=
  ∀ u ∈ rest.head?, u = Text.comma ∨ u = Text.lineFeed

theorem EndsValue.endsNumber (h : EndsValue rest) : EndsNumber rest := by
  intro u hu
  rcases h u hu with rfl | rfl <;> decide

theorem endsValue_writeItemsAt (depth : Nat) (items : List Json) (rest : Text) :
    EndsValue (writeItemsAt depth items ++ rest) := by
  cases items with
  | nil => rintro u ⟨⟩; exact .inr rfl
  | cons item items => rintro u ⟨⟩; exact .inl rfl

theorem endsValue_writeMembersAt (depth : Nat) (members : List (Text × Json)) (rest : Text) :
    EndsValue (writeMembersAt depth members ++ rest) := by
  cases members with
  | nil => rintro u ⟨⟩; exact .inr rfl
  | cons member members => rintro u ⟨⟩; exact .inl rfl

/-! ## Leaves -/

/-- The first unit of a number. -/
def StartsNumber (u : UInt16) : Prop :=
  Text.isDigit u = true ∨ u = Text.hyphen

theorem StartsNumber.ne (h : StartsNumber u) {v : UInt16}
    (hv : Text.isDigit v = false ∧ v ≠ Text.hyphen) : u ≠ v := by
  rintro rfl
  rcases h with h | h
  · exact Bool.eq_false_iff.mp hv.1 h
  · exact hv.2 h

theorem StartsNumber.isGap_eq (h : StartsNumber u) : isGap u = false := by
  simp [isGap, h.ne (v := Text.space) (by decide), h.ne (v := Text.tab) (by decide),
    h.ne (v := Text.lineFeed) (by decide), h.ne (v := Text.carriageReturn) (by decide)]

theorem writeNumber_eq_cons (mantissa exponent : Int) :
    ∃ u t, writeNumber mantissa exponent = u :: t ∧ StartsNumber u := by
  have hint : ∃ u t, Text.ofInt mantissa = u :: t ∧ StartsNumber u := by
    unfold Text.ofInt
    split
    · exact ⟨_, _, rfl, .inr rfl⟩
    · have hnumeral := numeral_ofNat mantissa.natAbs
      obtain ⟨u, t, ht⟩ := List.exists_cons_of_ne_nil hnumeral.nonempty
      exact ⟨u, t, ht, .inl (hnumeral.all_digits u (by simp [ht]))⟩
  obtain ⟨u, t, ht, hu⟩ := hint
  unfold writeNumber
  split
  · exact ⟨u, t, ht, hu⟩
  · exact ⟨u, _, by rw [ht]; rfl, hu⟩

/-- A value does not start with white space, and not with the end of an array. -/
theorem writeAt_eq_cons (depth : Nat) (j : Json) :
    ∃ u t, writeAt depth j = u :: t ∧ isGap u = false ∧ u ≠ Text.closeBracket := by
  match j with
  | .null | .bool true | .bool false | .string _ | .array [] | .array (_ :: _) | .object []
  | .object (_ :: _) => exact ⟨_, _, rfl, by decide, by decide⟩
  | .number mantissa exponent =>
    obtain ⟨u, t, ht, hu⟩ := writeNumber_eq_cons mantissa exponent
    exact ⟨u, t, ht, hu.isGap_eq, hu.ne (by decide)⟩

theorem skipGap_writeAt (depth : Nat) (j : Json) (t : Text) :
    skipGap (writeAt depth j ++ t) = writeAt depth j ++ t := by
  obtain ⟨u, t', hu, hgap, -⟩ := writeAt_eq_cons depth j
  rw [hu]
  exact skipGap_cons hgap _

theorem readValue_cons (h : isGap u = false) (t : Text) : readValue (fuel + 1) (u :: t)
    = if u == Text.quote then (readString t).map fun (s, rest) => (.string s, rest)
      else if u == Text.openBracket then readEnclosed Text.closeBracket .array (readItems fuel) t
      else if u == Text.openBrace then
        readEnclosed Text.closeBrace ofMembers (readMembers fuel) t
      else if u == Text.ofAscii 'n' then readWord (text "null") .null (u :: t)
      else if u == Text.ofAscii 't' then readWord (text "true") (.bool true) (u :: t)
      else if u == Text.ofAscii 'f' then readWord (text "false") (.bool false) (u :: t)
      else readNumber (u :: t) := by
  rw [readValue, skipGap_cons h]

theorem readValue_quote (s rest : Text) :
    readValue (fuel + 1) (quote s ++ rest) = some (.string s, rest) := by
  have hquote : quote s ++ rest = Text.quote :: (escape s ++ Text.quote :: rest) := by
    simp [quote]
  rw [hquote, readValue_cons (by decide), if_pos (by decide), readString_escape]
  rfl

theorem readValue_number (mantissa exponent : Int) (h : EndsNumber rest) :
    readValue (fuel + 1) (writeNumber mantissa exponent ++ rest)
      = some (.number mantissa exponent, rest) := by
  have hread := readNumber_writeNumber mantissa exponent h
  obtain ⟨u, t, ht, hu⟩ := writeNumber_eq_cons mantissa exponent
  rw [ht, List.cons_append] at hread ⊢
  have hne {v : UInt16} (hv : Text.isDigit v = false ∧ v ≠ Text.hyphen) : ¬ (u == v) = true :=
    mt beq_iff_eq.mp (hu.ne hv)
  rw [readValue_cons hu.isGap_eq, if_neg (hne (by decide)), if_neg (hne (by decide)),
    if_neg (hne (by decide)), if_neg (hne (by decide)), if_neg (hne (by decide)),
    if_neg (hne (by decide))]
  exact hread

theorem readValue_word {j : Json} (h : j = .null ∨ ∃ b, j = .bool b) (rest : Text) :
    readValue (fuel + 1) (writeAt depth j ++ rest) = some (j, rest) := by
  rcases h with rfl | ⟨_ | _, rfl⟩ <;> rfl

/-! ## Arrays and objects -/

theorem readEnclosed_cons {α : Type} {close : UInt16} {make : List α → Json}
    {readList : Text → Option (List α × Text)} {l : List α} (hstart : skipGap t = u :: t')
    (hu : u ≠ close) (hlist : readList (u :: t') = some (l, rest)) :
    readEnclosed close make readList t = some (make l, rest) := by
  rw [readEnclosed, hstart]
  dsimp only
  rw [if_neg (mt beq_iff_eq.mp hu), hlist]
  rfl

theorem readBehind_last {α : Type} {close : UInt16} {readRest : Text → Option (List α × Text)}
    (first : α) (hend : skipGap t = close :: rest) :
    readBehind close readRest first t = some ([first], rest) := by
  rw [readBehind, hend]
  dsimp only
  rw [if_pos (beq_self_eq_true close)]

theorem readBehind_cons {α : Type} {close : UInt16} {readRest : Text → Option (List α × Text)}
    {more : List α} (first : α) (hclose : close ≠ Text.comma)
    (hcomma : skipGap t = Text.comma :: t') (hmore : readRest t' = some (more, rest)) :
    readBehind close readRest first t = some (first :: more, rest) := by
  rw [readBehind, hcomma]
  dsimp only
  rw [if_neg (mt beq_iff_eq.mp hclose.symm), if_pos (beq_self_eq_true Text.comma), hmore]
  rfl

theorem readValue_openBracket {items : List Json} (hstart : skipGap t = u :: t')
    (hu : u ≠ Text.closeBracket) (hitems : readItems fuel (u :: t') = some (items, rest)) :
    readValue (fuel + 1) (Text.openBracket :: t) = some (.array items, rest) := by
  rw [readValue_cons (by decide), if_neg (by decide), if_pos (by decide)]
  exact readEnclosed_cons hstart hu hitems

theorem readValue_openBrace {members : List (Text × Json)} (hstart : skipGap t = u :: t')
    (hu : u ≠ Text.closeBrace) (hmembers : readMembers fuel (u :: t') = some (members, rest)) :
    readValue (fuel + 1) (Text.openBrace :: t) = some (ofMembers members, rest) := by
  rw [readValue_cons (by decide), if_neg (by decide), if_neg (by decide), if_pos (by decide)]
  exact readEnclosed_cons hstart hu hmembers

theorem readItems_item {item : Json} (hitem : readValue fuel t = some (item, t')) :
    readItems (fuel + 1) t = readBehind Text.closeBracket (readItems fuel) item t' := by
  rw [readItems, hitem]

theorem readKey_quote (key t : Text) : readKey (quote key ++ Text.colon :: t) = some (key, t) := by
  have hquote : quote key ++ Text.colon :: t
      = Text.quote :: (escape key ++ Text.quote :: Text.colon :: t) := by
    simp [quote]
  rw [hquote, readKey, skipGap_cons (by decide)]
  split
  · rename_i heq
    obtain ⟨-, rfl⟩ := List.cons.inj heq
    rw [readString_escape]
    rfl
  · rename_i hne
    exact absurd rfl (hne _)

/-- A member is a string, a colon and a value. -/
theorem readMembers_member {key : Text} {value : Json}
    (hvalue : readValue fuel t = some (value, t')) :
    readMembers (fuel + 1) (quote key ++ Text.colon :: t)
      = readBehind Text.closeBrace (readMembers fuel) (key, value) t' := by
  rw [readMembers, readKey_quote]
  dsimp only
  rw [hvalue]

/-! ## Values -/

/-- The text of a value is read as the value. -/
def ReadBack (depth : Nat) (j : Json) : Prop :=
  ∀ fuel rest, EndsValue rest → 2 * (writeAt depth j).length ≤ fuel →
    readValue fuel (writeAt depth j ++ rest) = some (j, rest)

/-- So it is behind white space. -/
theorem ReadBack.skipGap {j : Json} (h : ReadBack depth j) (hrest : EndsValue rest)
    (hfuel : 2 * (writeAt depth j).length ≤ fuel)
    (ht : Json.skipGap t = Json.skipGap (writeAt depth j ++ rest)) :
    readValue fuel t = some (j, rest) := by
  rw [readValue_congr ht]
  exact h fuel rest hrest hfuel

theorem skipGap_close (depth : Nat) (hu : isGap u = false) (rest : Text) :
    skipGap ((newLine depth ++ [u]) ++ rest) = u :: rest := by
  rw [List.append_assoc, skipGap_newLine]
  exact skipGap_cons hu rest

/-- The items of an array, from one on. -/
theorem readItems_back {items : List Json} (h : ∀ item ∈ items, ReadBack (depth + 1) item)
    (rest : Text) : ∀ item fuel, ReadBack (depth + 1) item →
    2 * ((writeAt (depth + 1) item).length + (writeItemsAt depth items).length) ≤ fuel →
    readItems fuel (writeAt (depth + 1) item ++ (writeItemsAt depth items ++ rest))
      = some (item :: items, rest) := by
  induction items with
  | nil =>
    intro item fuel hitem hfuel
    rw [writeItemsAt, List.length_append, List.length_singleton] at hfuel
    obtain ⟨fuel, rfl⟩ : ∃ f, fuel = f + 1 := ⟨fuel - 1, by omega⟩
    rw [readItems_item (hitem fuel _ (endsValue_writeItemsAt depth [] rest) (by omega))]
    exact readBehind_last item (skipGap_close depth (by decide) rest)
  | cons next items ih =>
    intro item fuel hitem hfuel
    obtain ⟨hnext, hitems⟩ := List.forall_mem_cons.mp h
    simp only [writeItemsAt, List.length_append, List.length_cons] at hfuel
    obtain ⟨fuel, rfl⟩ : ∃ f, fuel = f + 1 := ⟨fuel - 1, by omega⟩
    rw [readItems_item (hitem fuel _ (endsValue_writeItemsAt depth (next :: items) rest)
      (by omega))]
    refine readBehind_cons item (by decide) (skipGap_cons (by decide) _) ?_
    have hread := ih hitems next fuel hnext (by omega)
    rw [← hread]
    apply readItems_congr
    simp [skipGap_newLine]

/-- The members of an object, from one on. -/
theorem readMembers_back {members : List (Text × Json)}
    (h : ∀ member ∈ members, ReadBack (depth + 1) member.2) (rest : Text) :
    ∀ key value fuel, ReadBack (depth + 1) value →
    2 * ((quote key).length + (writeAt (depth + 1) value).length
      + (writeMembersAt depth members).length) ≤ fuel →
    readMembers fuel (quote key ++ Text.colon :: Text.space
        :: (writeAt (depth + 1) value ++ (writeMembersAt depth members ++ rest)))
      = some ((key, value) :: members, rest) := by
  induction members with
  | nil =>
    intro key value fuel hvalue hfuel
    rw [writeMembersAt, List.length_append, List.length_singleton] at hfuel
    obtain ⟨fuel, rfl⟩ : ∃ f, fuel = f + 1 := ⟨fuel - 1, by omega⟩
    rw [readMembers_member (hvalue.skipGap (endsValue_writeMembersAt depth [] rest) (by omega)
      (skipGap_space _))]
    exact readBehind_last (key, value) (skipGap_close depth (by decide) rest)
  | cons next members ih =>
    intro key value fuel hvalue hfuel
    obtain ⟨hnext, hmembers⟩ := List.forall_mem_cons.mp h
    obtain ⟨nextKey, nextValue⟩ := next
    simp only [writeMembersAt, List.length_append, List.length_cons] at hfuel
    obtain ⟨fuel, rfl⟩ : ∃ f, fuel = f + 1 := ⟨fuel - 1, by omega⟩
    rw [readMembers_member (hvalue.skipGap
      (endsValue_writeMembersAt depth ((nextKey, nextValue) :: members) rest) (by omega)
      (skipGap_space _))]
    refine readBehind_cons (key, value) (by decide) (skipGap_cons (by decide) _) ?_
    have hread := ih hmembers nextKey nextValue fuel hnext (by omega)
    rw [← hread]
    apply readMembers_congr
    simp [skipGap_newLine]

theorem readBack_leaf {j : Json} (h : ∀ fuel rest, EndsValue rest →
    readValue (fuel + 1) (writeAt depth j ++ rest) = some (j, rest)) : ReadBack depth j := by
  intro fuel rest hrest hfuel
  obtain ⟨u, t, hu, -, -⟩ := writeAt_eq_cons depth j
  rw [hu, List.length_cons] at hfuel
  obtain ⟨fuel, rfl⟩ : ∃ f, fuel = f + 1 := ⟨fuel - 1, by omega⟩
  exact h fuel rest hrest

theorem readBack_array {items : List Json} (h : ∀ item ∈ items, ReadBack (depth + 1) item) :
    ReadBack depth (.array items) := by
  cases items with
  | nil => exact readBack_leaf fun fuel rest _ => rfl
  | cons item items =>
    intro fuel rest _ hfuel
    obtain ⟨hitem, hitems⟩ := List.forall_mem_cons.mp h
    obtain ⟨u, t, hu, -, hne⟩ := writeAt_eq_cons (depth + 1) item
    simp only [writeAt, List.length_append, List.length_cons] at hfuel
    obtain ⟨fuel, rfl⟩ : ∃ f, fuel = f + 1 := ⟨fuel - 1, by omega⟩
    have hread := readItems_back hitems rest item fuel hitem (by omega)
    have hstart : skipGap (newLine (depth + 1) ++ writeAt (depth + 1) item
        ++ writeItemsAt depth items ++ rest) = u :: (t ++ (writeItemsAt depth items ++ rest)) := by
      rw [List.append_assoc, List.append_assoc, skipGap_newLine, skipGap_writeAt, hu,
        List.cons_append]
    rw [hu, List.cons_append] at hread
    exact readValue_openBracket hstart hne hread

theorem readBack_object {members : List (Text × Json)}
    (hlawful : (⟨members⟩ : PropertyMap Json).Lawful)
    (h : ∀ member ∈ members, ReadBack (depth + 1) member.2) :
    ReadBack depth (.object members) := by
  cases members with
  | nil => exact readBack_leaf fun fuel rest _ => rfl
  | cons member members =>
    obtain ⟨key, value⟩ := member
    intro fuel rest _ hfuel
    obtain ⟨hvalue, hmembers⟩ := List.forall_mem_cons.mp h
    simp only [writeAt, List.length_append, List.length_cons] at hfuel
    obtain ⟨fuel, rfl⟩ : ∃ f, fuel = f + 1 := ⟨fuel - 1, by omega⟩
    have hread := readMembers_back hmembers rest key value fuel hvalue (by omega)
    have hstart : skipGap (newLine (depth + 1) ++ quote key
        ++ Text.colon :: Text.space :: writeAt (depth + 1) value
        ++ writeMembersAt depth members ++ rest)
        = quote key ++ Text.colon :: Text.space
          :: (writeAt (depth + 1) value ++ (writeMembersAt depth members ++ rest)) := by
      simp only [List.append_assoc, skipGap_newLine, List.cons_append]
      exact skipGap_cons (by decide) _
    have hobject := readValue_openBrace hstart (by decide) hread
    rwa [ofMembers, hlawful.ofList_entries] at hobject

/-- The text of a normal value is read as the value. -/
theorem Normal.readBack {j : Json} (h : j.Normal) : ∀ depth, ReadBack depth j := by
  induction h with
  | null => exact fun _ => readBack_leaf fun _ rest _ => readValue_word (.inl rfl) rest
  | bool b => exact fun _ => readBack_leaf fun _ rest _ => readValue_word (.inr ⟨b, rfl⟩) rest
  | number mantissa exponent =>
    exact fun _ => readBack_leaf fun _ _ hrest =>
      readValue_number mantissa exponent hrest.endsNumber
  | string t => exact fun _ => readBack_leaf fun _ rest _ => readValue_quote t rest
  | array _ ih => exact fun depth => readBack_array fun item hitem => ih item hitem (depth + 1)
  | object hlawful _ ih =>
    exact fun depth => readBack_object hlawful fun member hmember => ih member hmember (depth + 1)

/-- Every normal value that is written on lines of its own is read back. -/
theorem Normal.read?_writeIndented {j : Json} (h : j.Normal) :
    read? (writeIndented j) = some j := by
  have hread := h.readBack 0 (2 * (writeIndented j).length + 2) [] (by rintro u ⟨⟩) (by
    rw [writeIndented]; omega)
  rw [List.append_nil] at hread
  unfold read? writeIndented at *
  rw [hread]
  rfl

end LogTemplate.Json
