import LogTemplate.Proofs.Json.Encoding
import LogTemplate.Report.Csv

/-!
# LogTemplate.Proofs.Report.Csv

What a reader of tables makes of a report.

* `Csv.rendered`, `Csv.write_first`, `write_more` — a table, and the report that grows row by row.
* `Csv.read` — reads a table unit by unit: rows, fields, and fields in quotation marks.
* `Csv.feed_value`, `feed_row`, `read_rendered` — what was rendered is read as it was.
* `Csv.Keeps`, `encoded_rendered` — in a file a table is encoded cell by cell.
* `Csv.read_writeAll` — however the rows are spread over writes, the header and they are read back;
  of halves of surrogate pairs that stand alone, which no file holds, the replacement.
-/

namespace LogTemplate.Csv

/-! ## Tables -/

/-- The text of a table: a row for each line. -/
def rendered (delimiter : Text) (table : List (List Text)) : Text :=
  table.flatMap fun columns => formatRow delimiter columns ++ [Text.lineFeed]

theorem rendered_append (delimiter : Text) (table more : List (List Text)) :
    rendered delimiter (table ++ more) = rendered delimiter table ++ rendered delimiter more :=
  List.flatMap_append

theorem rendered_cons (delimiter : Text) (columns : List Text) (table : List (List Text)) :
    rendered delimiter (columns :: table)
      = formatRow delimiter columns ++ Text.lineFeed :: rendered delimiter table :=
  List.append_assoc _ _ _

/-- Whole rows are encoded without regard to what is written behind them. -/
theorem encoded_rendered_append (delimiter : Text) (table : List (List Text)) (t : Text) :
    Text.encoded (rendered delimiter table ++ t)
      = Text.encoded (rendered delimiter table) ++ Text.encoded t := by
  have hline : Text.isHalf Text.lineFeed = false := by decide
  induction table with
  | nil => rfl
  | cons columns table ih =>
    rw [rendered_cons, List.append_assoc, List.cons_append, Text.encoded_append_cons hline,
      Text.encoded_append_cons hline, ih, List.append_assoc, List.cons_append]

theorem write_first (before : Option Text) (fields : List Text) (delimiter : Text)
    (records : List MatchedLine) :
    write before ⟨fields, delimiter, false, true⟩ records
      = some (Text.encoded (rendered delimiter (header fields :: records.map (row fields)))) := rfl

/-- Rows that are written behind a table. -/
theorem write_more (table : List (List Text)) (fields : List Text) (delimiter : Text)
    (records : List MatchedLine) :
    write (some (Text.encoded (rendered delimiter table))) ⟨fields, delimiter, true, false⟩ records
      = some (Text.encoded (rendered delimiter (table ++ records.map (row fields)))) := by
  rw [rendered_append, encoded_rendered_append]
  cases records with
  | nil => exact congrArg some (List.append_nil _).symm
  | cons record records => rfl

/-- A row has a column for each value, as long as there is a value for each field. -/
theorem row_eq {fields : List Text} {line : MatchedLine}
    (h : line.values.length = fields.length) :
    row fields line
      = Text.ofInt line.index :: line.raw :: line.values.map fun value => value.getD [] := by
  rw [row, ← h]
  congr 2
  apply List.ext_getElem (by simp)
  intro i hi _
  rw [List.length_map, List.length_range] at hi
  simp [List.getElem?_eq_getElem hi]

/-- Several writes give the table of all their rows. -/
theorem writeAll_eq (before : Option Text) (fields : List Text) (delimiter : Text)
    (first : List MatchedLine) (more : List (List MatchedLine)) :
    writeAll before fields delimiter first more
      = some (Text.encoded (rendered delimiter
          (header fields :: (first ++ more.flatten).map (row fields)))) := by
  have hgrow : ∀ (table : List (List Text)) (more : List (List MatchedLine)),
      more.foldl (fun report => write report (.usual fields delimiter true))
          (some (Text.encoded (rendered delimiter table)))
        = some (Text.encoded (rendered delimiter (table ++ more.flatten.map (row fields)))) := by
    intro table more
    induction more generalizing table with
    | nil => simp
    | cons records more ih =>
      rw [List.foldl_cons, Options.usual, Bool.not_true, write_more]
      refine (ih _).trans ?_
      rw [List.flatten_cons, List.map_append, List.append_assoc]
  have hbegin : write before (.usual fields delimiter false) first
      = some (Text.encoded (rendered delimiter (header fields :: first.map (row fields)))) :=
    write_first before fields delimiter first
  rw [writeAll, hbegin, hgrow, List.map_append]
  rfl

theorem hasInfix_singleton (d : UInt16) (t : Text) : Text.hasInfix [d] t = t.contains d := by
  induction t with
  | nil => rfl
  | cons u rest ih =>
    rw [Text.hasInfix, ih, List.contains_cons]
    simp [List.isPrefixOf]

theorem formatRow_cons (delimiter column next : Text) (columns : List Text) :
    formatRow delimiter (column :: next :: columns)
      = formatValue delimiter column ++ (delimiter ++ formatRow delimiter (next :: columns)) :=
  rfl

/-! ## Reading -/

/-- Where a reader is in a field. -/
inductive Place where
  /-- Before its first unit. -/
  | start
  | plain
  /-- Between quotation marks. -/
  | quoted
  /-- Behind a quotation mark that ends the field, or is the first one of two. -/
  | closed
deriving Repr, DecidableEq

/-- What was read: the rows, the columns of the row under way, and the units of its last field. -/
structure Reader where
  rows : List (List Text)
  columns : List Text
  field : Text
  place : Place
deriving Repr, DecidableEq

namespace Reader

/-- At the start of a row. -/
def atRow (rows : List (List Text)) : Reader := ⟨rows, [], [], .start⟩

/-- The unit ends the field if it is the delimiter, and the row if it is a line feed. -/
def ends? (delimiter : UInt16) (s : Reader) (u : UInt16) : Option Reader :=
  if u = delimiter then some ⟨s.rows, s.columns ++ [s.field], [], .start⟩
  else if u = Text.lineFeed then some (atRow (s.rows ++ [s.columns ++ [s.field]]))
  else none

def push (s : Reader) (u : UInt16) (place : Place) : Reader :=
  { s with field := s.field ++ [u], place := place }

/-- Reads a unit. A quotation mark opens a field at its start only, and only an end of the field
may follow one that closes it. -/
def step (delimiter : UInt16) (s : Reader) (u : UInt16) : Option Reader :=
  match s.place with
  | .start =>
    if u = Text.quote then some { s with place := .quoted }
    else s.ends? delimiter u <|> some (s.push u .plain)
  | .plain =>
    if u = Text.quote then none else s.ends? delimiter u <|> some (s.push u .plain)
  | .quoted =>
    if u = Text.quote then some { s with place := .closed } else some (s.push u .quoted)
  | .closed =>
    if u = Text.quote then some (s.push u .quoted) else s.ends? delimiter u

def feed (delimiter : UInt16) (s : Reader) (t : Text) : Option Reader :=
  t.foldlM (step delimiter) s

/-- The rows at the end of the text; the last one may have no line feed. -/
def finish (s : Reader) : Option (List (List Text)) :=
  if s.place = .quoted then none
  else if s.columns = [] ∧ s.place = .start then some s.rows
  else some (s.rows ++ [s.columns ++ [s.field]])

end Reader

/-- The table that a text stands for, if there is one. -/
def read (delimiter : UInt16) (t : Text) : Option (List (List Text)) :=
  ((Reader.atRow []).feed delimiter t).bind Reader.finish

/-! ## What was rendered is read -/

theorem needsQuotes_eq_false {d : UInt16} {value : Text} (h : needsQuotes [d] value = false) :
    ∀ u ∈ value, u ≠ d ∧ u ≠ Text.lineFeed ∧ u ≠ Text.quote := by
  simp only [needsQuotes, hasInfix_singleton, Bool.or_eq_false_iff, List.contains_eq_mem,
    decide_eq_false_iff_not] at h
  obtain ⟨⟨⟨hdelimiter, hline⟩, hquote⟩, -⟩ := h
  intro u hu
  exact ⟨fun h => hdelimiter (h ▸ hu), fun h => hline (h ▸ hu), fun h => hquote (h ▸ hu)⟩

namespace Reader

variable {d : UInt16}

theorem feed_append (s : Reader) (t more : Text) :
    s.feed d (t ++ more) = (s.feed d t).bind fun s => s.feed d more :=
  List.foldlM_append

theorem feed_cons (s : Reader) (u : UInt16) (t : Text) :
    s.feed d (u :: t) = (s.step d u).bind fun s => s.feed d t :=
  List.foldlM_cons

/-- Between quotation marks everything is read as it is, and two marks as one. -/
theorem feed_doubleQuotes (rows : List (List Text)) (columns : List Text) (field value : Text) :
    feed d ⟨rows, columns, field, .quoted⟩ (doubleQuotes value)
      = some ⟨rows, columns, field ++ value, .quoted⟩ := by
  induction value generalizing field with
  | nil => rw [List.append_nil]; rfl
  | cons u rest ih =>
    have hrest := ih (field ++ [u])
    rw [List.append_assoc, List.singleton_append] at hrest
    rw [doubleQuotes, List.flatMap_cons, feed_append]
    by_cases hu : u = Text.quote
    · subst hu
      exact hrest
    · have hstep : step d ⟨rows, columns, field, .quoted⟩ u
          = some ⟨rows, columns, field ++ [u], .quoted⟩ := if_neg hu
      rw [if_neg hu, feed_cons, hstep]
      exact hrest

theorem step_pushes (s : Reader) {u : UInt16} (hplace : s.place = .start ∨ s.place = .plain)
    (hd : u ≠ d) (hline : u ≠ Text.lineFeed) (hquote : u ≠ Text.quote) :
    s.step d u = some (s.push u .plain) := by
  have hends : s.ends? d u = none := by rw [ends?, if_neg hd, if_neg hline]
  rcases hplace with hplace | hplace <;> simp only [step, hplace, if_neg hquote, hends] <;> rfl

/-- Units that end nothing are read as they are. -/
theorem feed_plain (rows : List (List Text)) (columns : List Text) (field value : Text)
    (h : ∀ u ∈ value, u ≠ d ∧ u ≠ Text.lineFeed ∧ u ≠ Text.quote) :
    feed d ⟨rows, columns, field, .plain⟩ value
      = some ⟨rows, columns, field ++ value, .plain⟩ := by
  induction value generalizing field with
  | nil => rw [List.append_nil]; rfl
  | cons u rest ih =>
    obtain ⟨hd, hline, hquote⟩ := h u List.mem_cons_self
    have hrest := ih (field ++ [u]) fun v hv => h v (List.mem_cons_of_mem _ hv)
    rw [List.append_assoc, List.singleton_append] at hrest
    rw [feed_cons, step_pushes _ (.inr rfl) hd hline hquote]
    exact hrest

/-- A value is read at the start of a field, up to a place where the field can end. -/
theorem feed_value (rows : List (List Text)) (columns : List Text) (value : Text) :
    ∃ place, place ≠ .quoted ∧ feed d ⟨rows, columns, [], .start⟩ (formatValue [d] value)
      = some ⟨rows, columns, value, place⟩ := by
  cases hneeds : needsQuotes [d] value with
  | true =>
    refine ⟨.closed, by decide, ?_⟩
    rw [formatValue, hneeds, if_pos rfl, List.cons_append, feed_cons, step, if_pos rfl,
      Option.bind_some, feed_append, feed_doubleQuotes, Option.bind_some]
    rfl
  | false =>
    have hunits := needsQuotes_eq_false hneeds
    rw [formatValue, hneeds, if_neg Bool.false_ne_true]
    cases value with
    | nil => exact ⟨.start, by decide, rfl⟩
    | cons u rest =>
      obtain ⟨hd, hline, hquote⟩ := hunits u List.mem_cons_self
      refine ⟨.plain, by decide, ?_⟩
      rw [feed_cons, step_pushes _ (.inl rfl) hd hline hquote]
      exact feed_plain rows columns [u] rest fun v hv => hunits v (List.mem_cons_of_mem _ hv)

theorem step_ends (s : Reader) {u : UInt16} (hplace : s.place ≠ .quoted) (hu : u ≠ Text.quote)
    {next : Reader} (h : s.ends? d u = some next) : s.step d u = some next := by
  unfold step
  split
  · rw [if_neg hu, h]; rfl
  · rw [if_neg hu, h]; rfl
  · exact absurd ‹_› hplace
  · rw [if_neg hu, h]

variable (hquote : d ≠ Text.quote) (hline : d ≠ Text.lineFeed)

include hquote hline in
/-- A row is read from the columns of it that were read before to its line feed. -/
theorem feed_row (rows : List (List Text)) (before columns : List Text) (h : columns ≠ []) :
    feed d ⟨rows, before, [], .start⟩ (formatRow [d] columns ++ [Text.lineFeed])
      = some (atRow (rows ++ [before ++ columns])) := by
  induction columns generalizing before with
  | nil => exact absurd rfl h
  | cons column columns ih =>
    obtain ⟨place, hplace, hvalue⟩ := feed_value (d := d) rows before column
    cases columns with
    | nil =>
      have hend : ends? d ⟨rows, before, column, place⟩ Text.lineFeed
          = some (atRow (rows ++ [before ++ [column]])) := by
        rw [ends?, if_neg hline.symm, if_pos rfl]
      have hrow : formatRow [d] [column] = formatValue [d] column := List.append_nil _
      rw [hrow, feed_append, hvalue, Option.bind_some, feed_cons,
        step_ends _ hplace (by decide) hend]
      rfl
    | cons next columns =>
      have hend : ends? d ⟨rows, before, column, place⟩ d
          = some ⟨rows, before ++ [column], [], .start⟩ := by
        rw [ends?, if_pos rfl]
      have hrest := ih (before ++ [column]) (List.cons_ne_nil _ _)
      rw [List.append_assoc, List.singleton_append] at hrest
      rw [formatRow_cons, List.append_assoc, feed_append, hvalue, Option.bind_some,
        List.append_assoc, List.singleton_append, feed_cons, step_ends _ hplace hquote hend]
      exact hrest

include hquote hline in
theorem feed_rendered (rows table : List (List Text)) (h : ∀ columns ∈ table, columns ≠ []) :
    feed d (atRow rows) (rendered [d] table) = some (atRow (rows ++ table)) := by
  induction table generalizing rows with
  | nil => rw [List.append_nil]; rfl
  | cons columns table ih =>
    rw [rendered, List.flatMap_cons, feed_append, atRow,
      feed_row hquote hline rows [] columns (h columns List.mem_cons_self), Option.bind_some]
    refine (ih _ fun more hmore => h more (List.mem_cons_of_mem _ hmore)).trans ?_
    rw [List.append_assoc]
    rfl

end Reader

/-- A table whose rows have columns is read as it was before it was rendered. -/
theorem read_rendered {d : UInt16} (hquote : d ≠ Text.quote) (hline : d ≠ Text.lineFeed)
    {table : List (List Text)} (h : ∀ columns ∈ table, columns ≠ []) :
    read d (rendered [d] table) = some table := by
  rw [read, Reader.feed_rendered hquote hline [] table h]
  rfl

/-! ## Encoded tables -/

theorem doubleQuotes_cons (u : UInt16) (t : Text) : doubleQuotes (u :: t)
    = (if u = Text.quote then [Text.quote, Text.quote] else [u]) ++ doubleQuotes t :=
  List.flatMap_cons

theorem doubleQuotes_of_ne {u : UInt16} (hu : u ≠ Text.quote) (t : Text) :
    doubleQuotes (u :: t) = u :: doubleQuotes t := by
  rw [doubleQuotes_cons, if_neg hu, List.singleton_append]

theorem head?_doubleQuotes (t : Text) : (doubleQuotes t).head? = t.head? := by
  cases t with
  | nil => rfl
  | cons u t =>
    rw [doubleQuotes_cons]
    split
    · rename_i hu
      rw [hu]
      rfl
    · rfl

theorem encoded_doubleQuotes (t : Text) :
    Text.encoded (doubleQuotes t) = doubleQuotes (Text.encoded t) := by
  have hquote : Text.isHalf Text.quote = false := by decide
  have hunit {u : UInt16} (hu : u ≠ Text.quote) : Text.encodedUnit u ≠ Text.quote := by
    unfold Text.encodedUnit
    split
    · decide
    · exact hu
  -- a unit that is not the first half of a pair with the next one
  have halone {u : UInt16} {t : Text}
      (hpair : ∀ v ∈ t.head?, (Text.isLead u && Text.isTrail v) = false)
      (ih : Text.encoded (doubleQuotes t) = doubleQuotes (Text.encoded t)) :
      Text.encoded (doubleQuotes (u :: t))
        = doubleQuotes (Text.encodedUnit u :: Text.encoded t) := by
    by_cases hu : u = Text.quote
    · subst hu
      rw [Text.encodedUnit_of_not_half hquote, doubleQuotes_cons, doubleQuotes_cons, if_pos rfl,
        List.cons_append, List.singleton_append, Text.encoded_cons hquote,
        Text.encoded_cons hquote, ih]
      rfl
    · rw [doubleQuotes_of_ne hu, doubleQuotes_of_ne (hunit hu),
        Text.encoded_alone (by rwa [head?_doubleQuotes]), ih]
  fun_induction Text.encoded t with
  | case1 => rfl
  | case2 u v rest hpair ih =>
    have hne : u ≠ Text.quote ∧ v ≠ Text.quote := by
      rw [Bool.and_eq_true] at hpair
      constructor
      · rintro rfl
        exact absurd hpair.1 (by decide)
      · rintro rfl
        exact absurd hpair.2 (by decide)
    rw [doubleQuotes_of_ne hne.1, doubleQuotes_of_ne hne.2, Text.encoded_pair hpair, ih,
      doubleQuotes_of_ne hne.1, doubleQuotes_of_ne hne.2]
  | case3 u v rest hpair ih =>
    refine halone (fun w hw => ?_) ih
    cases hw
    exact Bool.not_eq_true _ ▸ hpair
  | case4 u => exact halone (t := []) (fun w hw => by cases hw) rfl

/-- The delimiter is not among the units that replace lone halves. -/
def Keeps (d : UInt16) (value : Text) : Prop :=
  d ∈ Text.encoded value ↔ d ∈ value

theorem keeps_of_ne {d : UInt16} (hhalf : Text.isHalf d = false) (hne : d ≠ Text.replacement)
    (value : Text) : Keeps d value :=
  Text.mem_encoded hhalf hne

theorem keeps_of_isPaired (d : UInt16) {value : Text} (h : Text.isPaired value = true) :
    Keeps d value := by
  rw [Keeps, Text.encoded_of_isPaired h]

variable {d : UInt16}

theorem needsQuotes_encoded {value : Text} (h : Keeps d value) :
    needsQuotes [d] (Text.encoded value) = needsQuotes [d] value := by
  have hcontains {u : UInt16} (hu : u ∈ Text.encoded value ↔ u ∈ value) :
      (Text.encoded value).contains u = value.contains u := by
    rw [Bool.eq_iff_iff, List.contains_iff_mem, List.contains_iff_mem, hu]
  simp only [needsQuotes, hasInfix_singleton, hcontains h,
    hcontains (Text.mem_encoded (u := Text.lineFeed) (by decide) (by decide)),
    hcontains (Text.mem_encoded (u := Text.quote) (by decide) (by decide)),
    hcontains (Text.mem_encoded (u := Text.apostrophe) (by decide) (by decide))]

theorem encoded_formatValue {value : Text} (h : Keeps d value) :
    Text.encoded (formatValue [d] value) = formatValue [d] (Text.encoded value) := by
  have hquote : Text.isHalf Text.quote = false := by decide
  unfold formatValue
  rw [needsQuotes_encoded h]
  split
  · rw [List.cons_append, Text.encoded_cons hquote, Text.encoded_append_cons hquote,
      encoded_doubleQuotes]
    rfl
  · rfl

variable (hhalf : Text.isHalf d = false)

include hhalf in
theorem encoded_formatRow {columns : List Text} (h : ∀ value ∈ columns, Keeps d value) :
    Text.encoded (formatRow [d] columns) = formatRow [d] (columns.map Text.encoded) := by
  induction columns with
  | nil => rfl
  | cons column columns ih =>
    obtain ⟨hcolumn, hcolumns⟩ := List.forall_mem_cons.mp h
    have hvalue := encoded_formatValue hcolumn
    cases columns with
    | nil =>
      have hrow (value : Text) : formatRow [d] [value] = formatValue [d] value :=
        List.append_nil _
      rw [List.map_singleton, hrow, hrow, hvalue]
    | cons next columns =>
      rw [formatRow_cons, List.singleton_append, Text.encoded_append_cons hhalf, hvalue,
        ih hcolumns]
      rfl

include hhalf in
/-- A table is encoded cell by cell. -/
theorem encoded_rendered {table : List (List Text)}
    (h : ∀ columns ∈ table, ∀ value ∈ columns, Keeps d value) :
    Text.encoded (rendered [d] table) = rendered [d] (table.map (·.map Text.encoded)) := by
  induction table with
  | nil => rfl
  | cons columns table ih =>
    obtain ⟨hcolumns, htable⟩ := List.forall_mem_cons.mp h
    rw [rendered_cons, Text.encoded_append_cons (by decide), encoded_formatRow hhalf hcolumns,
      ih htable, List.map_cons, rendered_cons]

/-! ## Reports -/

/-- The first `n` values; one that is absent or missing is empty. -/
def cells : Nat → List (Option Text) → List Text
  | 0, _ => []
  | n + 1, [] => [] :: cells n []
  | n + 1, value :: values => value.getD [] :: cells n values

theorem cells_eq (n : Nat) (values : List (Option Text)) :
    cells n values = (List.range n).map fun i => ((values[i]?).join).getD [] := by
  induction n generalizing values with
  | zero => rfl
  | succ n ih =>
    rw [List.range_succ_eq_map, List.map_cons, List.map_map]
    cases values with
    | nil => rw [cells, ih]; rfl
    | cons value values => rw [cells, ih]; rfl

/-- The header of a report, and behind it a row for each record in order: its number, its line, and
for each field its value. -/
def tableOf (fields : List Text) (records : List MatchedLine) : List (List Text) :=
  (text "line_index" :: text "raw_log" :: fields)
    :: records.map fun line =>
        Text.ofInt line.index :: line.raw :: cells fields.length line.values

/-- No half of a surrogate pair stands alone in the fields, lines and values of a report. -/
structure Whole (fields : List Text) (records : List MatchedLine) : Prop where
  fields : ∀ field ∈ fields, Text.isPaired field = true
  lines : ∀ line ∈ records, Text.isPaired line.raw = true
  values : ∀ line ∈ records, ∀ value, some value ∈ line.values → Text.isPaired value = true

theorem tableOf_eq (fields : List Text) (records : List MatchedLine) :
    tableOf fields records = header fields :: records.map (row fields) := by
  have hrow : row fields = fun line =>
      Text.ofInt line.index :: line.raw :: cells fields.length line.values := by
    funext line
    rw [row, cells_eq]
  rw [tableOf, hrow, header]

theorem ne_nil_of_mem_tableOf {fields columns : List Text} {records : List MatchedLine}
    (h : columns ∈ tableOf fields records) : columns ≠ [] := by
  rcases List.mem_cons.1 h with rfl | h
  · exact List.cons_ne_nil _ _
  · obtain ⟨line, -, rfl⟩ := List.mem_map.1 h
    exact List.cons_ne_nil _ _

theorem isPaired_cells {n : Nat} {values : List (Option Text)}
    (h : ∀ value, some value ∈ values → Text.isPaired value = true) :
    ∀ cell ∈ cells n values, Text.isPaired cell = true := by
  induction n generalizing values with
  | zero => simp [cells]
  | succ n ih =>
    cases values with
    | nil => exact List.forall_mem_cons.mpr ⟨rfl, ih h⟩
    | cons value values =>
      refine List.forall_mem_cons.mpr ⟨?_, ih fun v hv => h v (List.mem_cons_of_mem _ hv)⟩
      cases value with
      | none => rfl
      | some value => exact h value List.mem_cons_self

/-- In the table of whole texts all cells are whole. -/
theorem Whole.isPaired {fields : List Text} {records : List MatchedLine}
    (h : Whole fields records) :
    ∀ columns ∈ tableOf fields records, ∀ cell ∈ columns, Text.isPaired cell = true := by
  refine List.forall_mem_cons.mpr ⟨?_, List.forall_mem_map.mpr fun line hline => ?_⟩
  · exact List.forall_mem_cons.mpr ⟨by decide, List.forall_mem_cons.mpr ⟨by decide, h.fields⟩⟩
  · exact List.forall_mem_cons.mpr ⟨Json.isPaired_ofInt line.index,
      List.forall_mem_cons.mpr ⟨h.lines line hline, isPaired_cells (h.values line hline)⟩⟩

theorem map_encoded_of_isPaired {table : List (List Text)}
    (h : ∀ columns ∈ table, ∀ cell ∈ columns, Text.isPaired cell = true) :
    table.map (·.map Text.encoded) = table := by
  have hcells : ∀ columns ∈ table, columns.map Text.encoded = id columns :=
    fun columns hcolumns => (List.map_congr_left fun cell hcell =>
      Text.encoded_of_isPaired (h columns hcolumns cell hcell)).trans (List.map_id columns)
  rw [List.map_congr_left hcells, List.map_id]

/-- **A report is read back as it was written.** However the records are spread over writes, the
table that is read from the file is that of all records, but for halves of surrogate pairs that
stand alone: those were replaced. -/
theorem read_writeAll (before : Option Text) (fields : List Text) (d : UInt16)
    (hquote : d ≠ Text.quote) (hline : d ≠ Text.lineFeed) (hhalf : Text.isHalf d = false)
    (first : List MatchedLine) (more : List (List MatchedLine)) :
    ∃ file, writeAll before fields [d] first more = some file
      ∧ (d ≠ Text.replacement → read d file
          = some ((tableOf fields (first ++ more.flatten)).map (·.map Text.encoded)))
      ∧ (Whole fields (first ++ more.flatten) →
          read d file = some (tableOf fields (first ++ more.flatten))) := by
  refine ⟨_, writeAll_eq before fields [d] first more, ?_⟩
  rw [← tableOf_eq]
  generalize hrecords : first ++ more.flatten = records
  have hread (h : ∀ columns ∈ tableOf fields records, ∀ value ∈ columns, Keeps d value) :
      read d (Text.encoded (rendered [d] (tableOf fields records)))
        = some ((tableOf fields records).map (·.map Text.encoded)) := by
    rw [encoded_rendered hhalf h]
    refine read_rendered hquote hline (List.forall_mem_map.mpr fun columns hcolumns => ?_)
    exact mt List.map_eq_nil_iff.mp (ne_nil_of_mem_tableOf hcolumns)
  constructor
  · exact fun hne => hread fun _ _ value _ => keeps_of_ne hhalf hne value
  · intro hwhole
    rw [hread fun columns hcolumns value hvalue =>
        keeps_of_isPaired d (hwhole.isPaired columns hcolumns value hvalue),
      map_encoded_of_isPaired hwhole.isPaired]

/-- The delimiter is a digit of a number, and the lines have delimiters, quotation marks and line
feeds; the second write is of no record, and the third one of half of a pair. -/
theorem read_writeAll_digit :
    (49 : UInt16) ≠ Text.quote ∧ (49 : UInt16) ≠ Text.lineFeed ∧ Text.isHalf 49 = false
    ∧ (49 : UInt16) ≠ Text.replacement
    ∧ ∃ file, writeAll none [text "a1", text "b"] [49]
          [⟨11, text "1 \"x\"", [some (text "1\n"), none, some (text "c")]⟩]
          [[], [⟨-2, text "", [some [0xD83D]]⟩]] = some file
        ∧ read 49 file = some
          [[text "line_index", text "raw_log", text "a1", text "b"],
            [text "11", text "1 \"x\"", text "1\n", text ""],
            [text "-2", text "", [Text.replacement], text ""]] := by
  have hquote : (49 : UInt16) ≠ Text.quote := by decide
  have hline : (49 : UInt16) ≠ Text.lineFeed := by decide
  have hhalf : Text.isHalf 49 = false := by decide
  have hne : (49 : UInt16) ≠ Text.replacement := by decide
  obtain ⟨file, hfile, hread, -⟩ := read_writeAll none [text "a1", text "b"] 49 hquote hline hhalf
    [⟨11, text "1 \"x\"", [some (text "1\n"), none, some (text "c")]⟩]
    [[], [⟨-2, text "", [some [0xD83D]]⟩]]
  exact ⟨hquote, hline, hhalf, hne, file, hfile, hread hne⟩

/-- None of the conditions can be left out: a value that is half of a pair is not read back; a
delimiter that is half of a pair is replaced itself; and if it is the replacement character, it
stands where a half was. -/
theorem halves_replaced :
    (¬ ∀ before fields (d : UInt16), d ≠ Text.quote → d ≠ Text.lineFeed →
      Text.isHalf d = false → ∀ first more, (writeAll before fields [d] first more).bind (read d)
        = some (tableOf fields (first ++ more.flatten)))
    ∧ (¬ ∀ before fields (d : UInt16), d ≠ Text.quote → d ≠ Text.lineFeed →
      ∀ first more, Whole fields (first ++ more.flatten) →
        (writeAll before fields [d] first more).bind (read d)
          = some (tableOf fields (first ++ more.flatten)))
    ∧ ¬ ∀ before fields (d : UInt16), d ≠ Text.quote → d ≠ Text.lineFeed →
      Text.isHalf d = false → ∀ first more, (writeAll before fields [d] first more).bind (read d)
        = some ((tableOf fields (first ++ more.flatten)).map (·.map Text.encoded)) := by
  refine ⟨fun h => ?_, fun h => ?_, fun h => ?_⟩
  · have hread := h none [text "a", text "b"] Text.comma (by decide) (by decide) (by decide)
      [⟨0, [0xD83D, 0xDE00], [some [0xD83D], some [0xDE00]]⟩] []
    exact absurd hread (by decide)
  · have hread := h none [] 0xD83D (by decide) (by decide) [] [] ⟨by simp, by simp, by simp⟩
    exact absurd hread (by decide)
  · have hread := h none [] Text.replacement (by decide) (by decide) (by decide)
      [⟨0, [0xD83D], []⟩] []
    exact absurd hread (by decide)

end LogTemplate.Csv
