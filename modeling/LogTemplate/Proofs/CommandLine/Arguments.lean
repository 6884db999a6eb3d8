import LogTemplate.CommandLine.Arguments
import LogTemplate.Proofs.Text.Number
import LogTemplate.Proofs.Text.Splitting
import Mathlib.Data.List.Forall2
import Mathlib.Data.List.Induction

/-!
# LogTemplate.Proofs.CommandLine.Arguments

Which command lines are understood, and what they say.

* `IsCount`, `count?_eq_some` — the texts that stand for integers from one on.
* `OptionName` — the options, with their spellings and the values that they accept.
* `Spelled`, `Reads` — the arguments that give one option, and those of a whole command line.
* `Options.Settled` — the options of a command line: of each the last value, or else the default.
* `readFlags_append` — reading goes option by option.
* `settled`, `settled_iff` — the only options that are settled so.
* `settled_concat`, `foldl_give` — one option more settles its own member and no other.
* `parse_settles` — a command line is understood exactly if it can be read as options, and then
  every option has its settled value.
-/

namespace LogTemplate.CommandLine

/-! ## Command lines as written -/

/-- The text stands for a number that is an integer from one on. -/
def IsCount (value : Text) (n : ℕ) : Prop :=
  1 ≤ n ∧ Text.Numbers value n

theorem Options.count?_eq_some {value : Text} {n : ℕ} :
    count? value = some n ↔ IsCount value n := by
  have hnumber {z : ℤ} : (Text.number? value).bind Text.Double.integer? = some z
      ↔ Text.Numbers value z := by
    rw [Option.bind_eq_some_iff, ← Text.number?_eq_some]
    simp only [Text.Double.integer?_eq_some]
  have hcast : ((n : ℤ) : ℚ) = n := Int.cast_natCast n
  unfold count? IsCount
  rw [← hcast, ← hnumber]
  split
  · rename_i z hz
    rw [hz, Option.some_inj, Option.ite_none_right_eq_some, Option.some_inj]
    omega
  · rename_i hnone
    simp [hnone]

inductive OptionName where
  | specialization
  | specializationDir
  | format
  | capture
  | comments
  | trace
  | inputPath
  | outputDir
  | limit
  | batchSize
  | interactive
deriving Repr, DecidableEq

namespace OptionName

def every : List OptionName :=
  [specialization, specializationDir, format, capture, comments, trace, inputPath, outputDir,
    limit, batchSize, interactive]

def spellings : OptionName → List String
  | specialization => ["--spec", "-s"]
  | specializationDir => ["--spec-dir"]
  | format => ["--format", "-f"]
  | capture => ["--capture", "-c"]
  | comments => ["--comments"]
  | trace => ["--trace"]
  | inputPath => ["--input", "-i"]
  | outputDir => ["--output", "-o"]
  | limit => ["--limit", "-n"]
  | batchSize => ["--batch-size"]
  | interactive => ["--interactive"]

/-- Is the option given by its flag alone? -/
def isSwitch : OptionName → Bool
  | comments | trace | interactive => true
  | _ => false

/-- Numbers have to be integers from one on; other values may be any text. -/
def Accepts (value : Text) : OptionName → Prop
  | limit | batchSize => ∃ n, IsCount value n
  | _ => True

/-- Is the argument the flag of the option? -/
def IsFlag (option : OptionName) (argument : Text) : Prop :=
  ∃ spelling ∈ option.spellings, text spelling = argument

/-- What the flag of the option does when it is read. -/
def flag (workingDirectory : Text) : OptionName → Options.Flag
  | specialization => .value fun o v => { o with specialization := v }
  | specializationDir =>
    .value fun o v => { o with specializationDir := some (Path.resolve workingDirectory v) }
  | format => .value fun o v => { o with format := some v }
  | capture =>
    .value fun o v => { o with capture := some (o.capture.getD [] ++ Capture.parseList v) }
  | comments => .switch fun o => { o with comments := true }
  | trace => .switch fun o => { o with trace := true }
  | inputPath => .value fun o v => { o with inputPath := v }
  | outputDir => .value fun o v => { o with outputDir := Path.resolve workingDirectory v }
  | limit => .count fun o n => { o with limit := some n }
  | batchSize => .count fun o n => { o with batchSize := some n }
  | interactive => .switch fun o => { o with interactive := true }

end OptionName

/-- An option with its value; that of a switch is empty. -/
structure Given where
  option : OptionName
  value : Text
deriving Repr, DecidableEq

/-- The arguments that give an option: its flag, and behind it any value that it accepts, even one
that looks like a flag. -/
inductive Spelled : Given → List Text → Prop where
  | switch {option : OptionName} {flag : Text} (hflag : option.IsFlag flag)
      (hswitch : option.isSwitch = true) : Spelled ⟨option, []⟩ [flag]
  | valued {option : OptionName} {flag value : Text} (hflag : option.IsFlag flag)
      (hswitch : option.isSwitch = false) (haccepts : option.Accepts value) :
      Spelled ⟨option, value⟩ [flag, value]

def Command.word : Command → Text
  | compile => text "compile"
  | fields => text "fields"
  | matchLog => text "match"

/-- The arguments are a command word, if there is one, and then options. -/
def Reads (argv : List Text) (command : Option Command) (given : List Given) : Prop :=
  ∃ groups, argv = (command.map Command.word).toList ++ groups.flatten
    ∧ List.Forall₂ Spelled given groups

theorem Spelled.accepts {g : Given} {words : List Text} (h : Spelled g words) :
    g.option.Accepts g.value := by
  cases h with
  | @switch option _ _ hswitch =>
    cases option <;> trivial
  | valued _ _ haccepts => exact haccepts

theorem OptionName.IsFlag.head? {option : OptionName} {flag : Text} (h : option.IsFlag flag) :
    flag.head? = some Text.hyphen := by
  have hevery : ∀ option : OptionName, ∀ spelling ∈ option.spellings,
      (text spelling).head? = some Text.hyphen := by
    intro option
    cases option <;> decide
  obtain ⟨spelling, hspelling, rfl⟩ := h
  exact hevery option spelling hspelling

theorem Spelled.head?_flatten {given : List Given} {groups : List (List Text)}
    (h : List.Forall₂ Spelled given groups) :
    ∀ first ∈ groups.flatten.head?, first.head? = some Text.hyphen := by
  intro first hfirst
  cases h with
  | nil => cases hfirst
  | cons hg _ =>
    cases hg with
    | switch hflag | valued hflag =>
      cases hfirst
      exact hflag.head?

theorem Reads.accepts {argv : List Text} {command : Option Command} {given : List Given}
    (h : Reads argv command given) :
    ∀ g ∈ given, g.option.Accepts g.value := by
  obtain ⟨groups, -, hgroups⟩ := h
  induction hgroups with
  | nil => intro g hg; cases hg
  | cons hg _ ih => exact List.forall_mem_cons.mpr ⟨hg.accepts, ih⟩

/-! ## What they say -/

/-- The values of an option, in the order in which they are given. -/
def valuesOf (option : OptionName) (given : List Given) : List Text :=
  (given.filter (·.option = option)).map (·.value)

def isGiven (option : OptionName) (given : List Given) : Bool :=
  !(valuesOf option given).isEmpty

/-- The last value of an option. -/
def lastOf? (option : OptionName) (given : List Given) : Option Text :=
  (valuesOf option given).getLast?

namespace Options

/-- Every option has the last value that is given for it, switches are on if they are given, and the
lists of fields are joined. What is not given is as in the defaults. -/
structure Settled (defaults : Config) (command : Option Command) (given : List Given)
    (o : Options) : Prop where
  command_eq : o.command = command.getD .compile
  specialization : o.specialization
    = (lastOf? .specialization given).getD defaults.specialization
  specializationDir : o.specializationDir
    = ((lastOf? .specializationDir given).map (Path.resolve defaults.workingDirectory)).or
      defaults.specializationDir
  format : o.format = lastOf? .format given
  capture : o.capture
    = if isGiven .capture given then some ((valuesOf .capture given).flatMap Capture.parseList)
      else none
  comments : o.comments = (isGiven .comments given || defaults.comments)
  trace : o.trace = (isGiven .trace given || defaults.trace)
  inputPath : o.inputPath = (lastOf? .inputPath given).getD []
  outputDir : o.outputDir
    = ((lastOf? .outputDir given).map (Path.resolve defaults.workingDirectory)).getD
      defaults.outputDir
  /-- The number that the last value stands for, if there is one. -/
  limit : Option.Rel IsCount (lastOf? .limit given) o.limit
  batchSize : Option.Rel IsCount (lastOf? .batchSize given) o.batchSize
  interactive : o.interactive = isGiven .interactive given

/-- The settled options as they come about. -/
def settled (defaults : Config) (command : Option Command) (given : List Given) : Options where
  command := command.getD .compile
  specialization := (lastOf? .specialization given).getD defaults.specialization
  specializationDir :=
    ((lastOf? .specializationDir given).map (Path.resolve defaults.workingDirectory)).or
      defaults.specializationDir
  format := lastOf? .format given
  capture :=
    if isGiven .capture given then some ((valuesOf .capture given).flatMap Capture.parseList)
    else none
  comments := isGiven .comments given || defaults.comments
  trace := isGiven .trace given || defaults.trace
  inputPath := (lastOf? .inputPath given).getD []
  outputDir :=
    ((lastOf? .outputDir given).map (Path.resolve defaults.workingDirectory)).getD
      defaults.outputDir
  limit := (lastOf? .limit given).bind count?
  batchSize := (lastOf? .batchSize given).bind count?
  interactive := isGiven .interactive given

/-- An accepted number that may be missing is the one that is read. -/
theorem rel_isCount {value? : Option Text} {n? : Option ℕ}
    (h : ∀ value ∈ value?, ∃ n, IsCount value n) :
    Option.Rel IsCount value? n? ↔ n? = value?.bind count? := by
  constructor
  · intro hrel
    cases hrel with
    | none => rfl
    | some hcount => exact (count?_eq_some.mpr hcount).symm
  · rintro rfl
    cases value? with
    | none => exact .none
    | some value =>
      obtain ⟨n, hn⟩ := h value rfl
      rw [Option.bind_some, count?_eq_some.mpr hn]
      exact .some hn

/-- There is one way to settle options that are accepted. -/
theorem settled_iff {defaults : Config} {command : Option Command} {given : List Given}
    (h : ∀ g ∈ given, g.option.Accepts g.value) {o : Options} :
    Settled defaults command given o ↔ o = settled defaults command given := by
  have haccepts (option : OptionName) : ∀ value ∈ lastOf? option given, option.Accepts value := by
    intro value hvalue
    obtain ⟨g, hg, rfl⟩ := List.mem_map.mp (List.mem_of_getLast? hvalue)
    obtain ⟨hmem, hoption⟩ := List.mem_filter.mp hg
    exact of_decide_eq_true hoption ▸ h g hmem
  constructor
  · intro hsettled
    obtain ⟨h₁, h₂, h₃, h₄, h₅, h₆, h₇, h₈, h₉, hlimit, hbatch, h₁₂⟩ := hsettled
    rw [rel_isCount (haccepts .limit)] at hlimit
    rw [rel_isCount (haccepts .batchSize)] at hbatch
    cases o
    simp_all only [settled]
  · rintro rfl
    exact ⟨rfl, rfl, rfl, rfl, rfl, rfl, rfl, rfl, rfl, (rel_isCount (haccepts .limit)).mpr rfl,
      (rel_isCount (haccepts .batchSize)).mpr rfl, rfl⟩

/-- Is the option the same in both? -/
def Agree (o o' : Options) : OptionName → Prop
  | .specialization => o.specialization = o'.specialization
  | .specializationDir => o.specializationDir = o'.specializationDir
  | .format => o.format = o'.format
  | .capture => o.capture = o'.capture
  | .comments => o.comments = o'.comments
  | .trace => o.trace = o'.trace
  | .inputPath => o.inputPath = o'.inputPath
  | .outputDir => o.outputDir = o'.outputDir
  | .limit => o.limit = o'.limit
  | .batchSize => o.batchSize = o'.batchSize
  | .interactive => o.interactive = o'.interactive

/-! ## Reading option by option -/

variable {workingDirectory argument : Text} {option : OptionName} {o : Options}

theorem flags_eq (workingDirectory : Text) : flags workingDirectory
    = OptionName.every.map fun option => (option.spellings, option.flag workingDirectory) := rfl

/-- The option that an argument is the flag of. -/
def option? (argument : Text) : Option OptionName :=
  OptionName.every.find? fun option =>
    option.spellings.any fun spelling => text spelling == argument

theorem option?_eq_some : option? argument = some option ↔ option.IsFlag argument := by
  constructor
  · intro h
    have hflag := List.find?_some h
    simpa [OptionName.IsFlag] using hflag
  · rintro ⟨spelling, hspelling, rfl⟩
    have hevery : ∀ option : OptionName, ∀ spelling ∈ option.spellings,
        option? (text spelling) = some option := by
      intro option
      cases option <;> decide
    exact hevery option spelling hspelling

theorem flag?_eq_some {flag : Flag} : flag? workingDirectory argument = some flag ↔
    ∃ option : OptionName, option.IsFlag argument ∧ option.flag workingDirectory = flag := by
  have hmap : flag? workingDirectory argument
      = (option? argument).map (·.flag workingDirectory) := by
    rw [flag?, flags_eq, List.find?_map, Option.map_map]
    rfl
  rw [hmap, Option.map_eq_some_iff]
  simp only [option?_eq_some]

/-- What giving an option changes. -/
def give (workingDirectory : Text) (o : Options) (g : Given) : Options :=
  match g.option.flag workingDirectory with
  | .switch set => set o
  | .value set => set o g.value
  | .count set =>
    match count? g.value with
    | some n => set o n
    | none => o

/-- The three kinds of options, by what their flags do and which values they accept. -/
inductive Kind (workingDirectory : Text) (option : OptionName) : Prop where
  | switch (set : Options → Options) (hswitch : option.isSwitch = true)
      (hflag : option.flag workingDirectory = .switch set)
  | value (set : Options → Text → Options) (hswitch : option.isSwitch = false)
      (hflag : option.flag workingDirectory = .value set)
      (haccepts : ∀ value, option.Accepts value)
  | count (set : Options → Nat → Options) (hswitch : option.isSwitch = false)
      (hflag : option.flag workingDirectory = .count set)
      (haccepts : ∀ value, option.Accepts value ↔ ∃ n, count? value = some n)

theorem kind (workingDirectory : Text) (option : OptionName) : Kind workingDirectory option := by
  cases option with
  | comments | trace | interactive => exact .switch _ rfl rfl
  | limit | batchSize =>
    exact .count _ rfl rfl fun _ => exists_congr fun _ => count?_eq_some.symm
  | _ => exact .value _ rfl rfl fun _ => trivial

variable {g : Given} {given : List Given} {words rest : List Text}

/-- The arguments of an option are read at once, whatever follows them. -/
theorem readFlags_spelled (h : Spelled g words) (o : Options) (rest : List Text) :
    readFlags workingDirectory o (words ++ rest)
      = readFlags workingDirectory (give workingDirectory o g) rest := by
  cases h with
  | @switch option flag hflag hswitch =>
    cases kind workingDirectory option with
    | switch set _ hset =>
      rw [List.singleton_append, readFlags, flag?_eq_some.mpr ⟨option, hflag, hset⟩, give, hset]
    | value _ hvalued | count _ hvalued => cases hswitch.symm.trans hvalued
  | @valued option flag value hflag hswitch haccepts =>
    rw [List.cons_append, List.singleton_append]
    cases kind workingDirectory option with
    | switch _ hswitched => cases hswitch.symm.trans hswitched
    | value set _ hset =>
      rw [readFlags, flag?_eq_some.mpr ⟨option, hflag, hset⟩, give, hset]
    | count set _ hset hnumber =>
      obtain ⟨n, hn⟩ := (hnumber value).mp haccepts
      rw [readFlags, flag?_eq_some.mpr ⟨option, hflag, hset⟩, give, hset]
      simp only [hn]

theorem readFlags_groups {groups : List (List Text)} (h : List.Forall₂ Spelled given groups)
    (o : Options) (rest : List Text) :
    readFlags workingDirectory o (groups.flatten ++ rest)
      = readFlags workingDirectory (given.foldl (give workingDirectory) o) rest := by
  induction h generalizing o with
  | nil => rfl
  | cons hg _ ih =>
    rw [List.flatten_cons, List.append_assoc, readFlags_spelled hg, ih]
    rfl

/-- Arguments that are understood give options. -/
theorem exists_groups {argv : List Text} {o o' : Options}
    (h : readFlags workingDirectory o argv = .ok o') :
    ∃ given groups, argv = groups.flatten ∧ List.Forall₂ Spelled given groups := by
  have hcons {g : Given} {words rest : List Text} (hg : Spelled g words)
      (hrest : ∃ given groups, rest = groups.flatten ∧ List.Forall₂ Spelled given groups) :
      ∃ given groups, words ++ rest = groups.flatten ∧ List.Forall₂ Spelled given groups := by
    obtain ⟨given, groups, rfl, hgroups⟩ := hrest
    exact ⟨g :: given, words :: groups, rfl, .cons hg hgroups⟩
  fun_induction readFlags workingDirectory o argv with
  | case1 => exact ⟨[], [], rfl, .nil⟩
  | case2 | case4 | case6 | case8 => cases h
  | case3 o argument rest set hflag ih =>
    obtain ⟨option, hoption, hset⟩ := flag?_eq_some.mp hflag
    refine hcons (.switch hoption ?_) (ih h)
    cases kind workingDirectory option with
    | switch _ hswitch => exact hswitch
    | value _ _ hvalue | count _ _ hvalue => cases hvalue.symm.trans hset
  | case5 o argument set hflag value rest ih =>
    obtain ⟨option, hoption, hset⟩ := flag?_eq_some.mp hflag
    cases kind workingDirectory option with
    | value _ hvalued _ haccepts => exact hcons (.valued hoption hvalued (haccepts value)) (ih h)
    | switch _ _ hswitch | count _ _ hswitch => cases hswitch.symm.trans hset
  | case7 o argument set hflag value rest n hn ih =>
    obtain ⟨option, hoption, hset⟩ := flag?_eq_some.mp hflag
    cases kind workingDirectory option with
    | count _ hvalued _ haccepts =>
      exact hcons (.valued hoption hvalued ((haccepts value).mpr ⟨n, hn⟩)) (ih h)
    | switch _ _ hswitch | value _ _ hswitch => cases hswitch.symm.trans hset

/-! ## The settled options -/

theorem valuesOf_concat (option : OptionName) (given : List Given) (g : Given) :
    valuesOf option (given ++ [g])
      = valuesOf option given ++ if g.option = option then [g.value] else [] := by
  by_cases h : g.option = option <;> simp [valuesOf, h]

variable {defaults : Config} {command : Option Command}

/-- One option more settles its own member and no other. -/
theorem settled_concat (g : Given) (haccepts : g.option.Accepts g.value) :
    settled defaults command (given ++ [g])
      = give defaults.workingDirectory (settled defaults command given) g := by
  obtain ⟨option, value⟩ := g
  cases option with
  | limit | batchSize =>
    obtain ⟨n, hn⟩ := haccepts
    simp [settled, give, OptionName.flag, lastOf?, isGiven, valuesOf_concat,
      count?_eq_some.mpr hn]
  | capture =>
    by_cases h : valuesOf .capture given = [] <;>
      simp [settled, give, OptionName.flag, lastOf?, isGiven, valuesOf_concat, h]
  | _ => simp [settled, give, OptionName.flag, lastOf?, isGiven, valuesOf_concat]

/-- Giving options one after the other settles them. -/
theorem foldl_give (h : ∀ g ∈ given, g.option.Accepts g.value) :
    given.foldl (give defaults.workingDirectory) (settled defaults command [])
      = settled defaults command given := by
  induction given using List.reverseRecOn with
  | nil => rfl
  | append_singleton given g ih =>
    have hg := h g (by simp)
    rw [List.foldl_append, ih fun x hx => h x (by simp [hx]), settled_concat g hg]
    rfl

/-! ## Whole command lines -/

theorem command?_eq_some {word : Text} {command : Command} :
    command? word = some command ↔ word = command.word := by
  constructor
  · intro h
    unfold command? at h
    split at h
    · cases h; assumption
    · split at h
      · cases h; assumption
      · split at h
        · cases h; assumption
        · cases h
  · rintro rfl
    cases command <;> decide

/-- A command word, and what follows it. -/
theorem parse_command (defaults : Config) (command : Command) (rest : List Text) :
    parse defaults (command.word :: rest)
      = readFlags defaults.workingDirectory (settled defaults (some command) []) rest := by
  have hhyphen : (command.word.head? == some Text.hyphen) = false := by cases command <;> decide
  unfold parse
  dsimp only
  rw [hhyphen, command?_eq_some.mpr rfl]
  rfl

/-- Without a command word the arguments are options from the first one on. -/
theorem parse_flags (defaults : Config) {argv : List Text}
    (h : ∀ first ∈ argv.head?, first.head? = some Text.hyphen) :
    parse defaults argv = readFlags defaults.workingDirectory (settled defaults none []) argv := by
  cases argv with
  | nil => rfl
  | cons first rest =>
    unfold parse
    dsimp only
    rw [if_pos (beq_iff_eq.mpr (h first rfl))]
    rfl

/-- The options at the start of a command line are settled when the next one is read. -/
theorem parse_append {front tail : List Text} (h : Reads front command given)
    (htail : ∀ first ∈ tail.head?, first.head? = some Text.hyphen) :
    parse defaults (front ++ tail)
      = readFlags defaults.workingDirectory (settled defaults command given) tail := by
  rw [← foldl_give h.accepts]
  obtain ⟨groups, rfl, hgroups⟩ := h
  cases command with
  | some command =>
    rw [← readFlags_groups hgroups]
    exact parse_command defaults command (groups.flatten ++ tail)
  | none =>
    rw [← readFlags_groups hgroups]
    refine parse_flags defaults fun first hfirst => ?_
    have hhead : (groups.flatten ++ tail).head? = some first := hfirst
    rw [List.head?_append, Option.or_eq_some_iff] at hhead
    rcases hhead with hhead | ⟨-, hhead⟩
    · exact Spelled.head?_flatten hgroups first hhead
    · exact htail first hhead

/-- Command lines that can be read are understood. -/
theorem parse_of_reads {argv : List Text} (h : Reads argv command given) :
    parse defaults argv = .ok (settled defaults command given) := by
  have hparse : parse defaults (argv ++ []) = .ok (settled defaults command given) :=
    parse_append h fun first hfirst => by cases hfirst
  rwa [List.append_nil] at hparse

/-- Command lines that are understood can be read. -/
theorem exists_reads {argv : List Text} {o : Options} (h : parse defaults argv = .ok o) :
    ∃ command given, Reads argv command given := by
  have hflags (c : Option Command) {rest : List Text} {start : Options}
      (h : readFlags defaults.workingDirectory start rest = .ok o) :
      ∃ given, Reads ((c.map Command.word).toList ++ rest) c given := by
    obtain ⟨given, groups, rfl, hgroups⟩ := exists_groups h
    exact ⟨given, groups, rfl, hgroups⟩
  unfold parse at h
  dsimp only at h
  split at h
  · exact ⟨none, [], [], rfl, .nil⟩
  · rename_i first rest
    split at h
    · exact ⟨none, hflags none h⟩
    · split at h
      · rename_i command hcommand
        obtain ⟨given, hgiven⟩ := hflags (some command) h
        rw [Option.map_some, ← command?_eq_some.mp hcommand] at hgiven
        exact ⟨some command, given, hgiven⟩
      · cases h

theorem settled_congr {given' : List Given}
    (h : ∀ option, valuesOf option given = valuesOf option given') :
    settled defaults command given = settled defaults command given' := by
  have hlast (option : OptionName) : lastOf? option given = lastOf? option given' :=
    congrArg List.getLast? (h option)
  have hgiven (option : OptionName) : isGiven option given = isGiven option given' :=
    congrArg (fun values : List Text => !values.isEmpty) (h option)
  simp [settled, hlast, hgiven, h]

/-- The list of fields that two options give is the list of both with a comma between. -/
theorem parseList_append (x y : Text) :
    Capture.parseList (x ++ Text.comma :: y) = Capture.parseList x ++ Capture.parseList y := by
  simp only [Capture.parseList, Text.splitOn_append, List.map_append, List.filter_append]

theorem give_capture (o : Options) (x y : Text) :
    give workingDirectory (give workingDirectory o ⟨.capture, x⟩) ⟨.capture, y⟩
      = give workingDirectory o ⟨.capture, x ++ Text.comma :: y⟩ := by
  simp [give, OptionName.flag, parseList_append]

theorem agree_settled {defaults' : Config}
    (hdirectory : defaults'.workingDirectory = defaults.workingDirectory) {g : Given}
    (hg : g ∈ given) :
    (settled defaults command given).Agree (settled defaults' command given) g.option := by
  have hvalue : g.value ∈ valuesOf g.option given :=
    List.mem_map.mpr ⟨g, List.mem_filter.mpr ⟨hg, by simp⟩, rfl⟩
  have hne := List.ne_nil_of_mem hvalue
  have hgiven : isGiven g.option given = true := by simp [isGiven, hne]
  obtain ⟨value, hlast⟩ : ∃ value, lastOf? g.option given = some value :=
    Option.ne_none_iff_exists'.mp (mt List.getLast?_eq_none_iff.mp hne)
  obtain ⟨option, v⟩ := g
  cases option <;> simp_all [Agree, settled]

/-- What is understood, and what comes of it. -/
structure Settles (defaults : Config) : Prop where
  /-- Exactly the command lines that can be read are understood, and they settle every option. -/
  understood : ∀ argv o, parse defaults argv = .ok o ↔
    ∃ command given, Reads argv command given ∧ Settled defaults command given o
  /-- Options may be given in any order, if the values of each stay in theirs. -/
  permuted : ∀ argv argv' command given given', Reads argv command given →
    Reads argv' command given' → (∀ option, valuesOf option given = valuesOf option given') →
    parse defaults argv = parse defaults argv'
  /-- Two lists of fields that are given are one list with a comma, whatever follows. -/
  joined : ∀ front command given flag x flag' y flag'' rest, Reads front command given →
    OptionName.capture.IsFlag flag → OptionName.capture.IsFlag flag' →
    OptionName.capture.IsFlag flag'' →
    parse defaults (front ++ [flag, x, flag', y] ++ rest)
      = parse defaults (front ++ [flag'', x ++ Text.comma :: y] ++ rest)
  /-- An option that is given is the same with other defaults. -/
  independent : ∀ defaults' argv command given,
    defaults'.workingDirectory = defaults.workingDirectory → Reads argv command given →
    ∃ o o', parse defaults argv = .ok o ∧ parse defaults' argv = .ok o'
      ∧ o.command = o'.command ∧ ∀ g ∈ given, o.Agree o' g.option

/-- Whatever the defaults are, a command line is understood exactly if it is known flags with values
that they accept, behind a command word or without one. -/
theorem parse_settles (defaults : Config) : Settles defaults where
  understood argv o := by
    constructor
    · intro h
      obtain ⟨command, given, hreads⟩ := exists_reads h
      exact ⟨command, given, hreads, (settled_iff hreads.accepts).mpr
        (Except.ok.inj (h.symm.trans (parse_of_reads hreads)))⟩
    · rintro ⟨command, given, hreads, hsettled⟩
      rw [(settled_iff hreads.accepts).mp hsettled]
      exact parse_of_reads hreads
  permuted argv argv' command given given' h h' hvalues := by
    rw [parse_of_reads h, parse_of_reads h', settled_congr hvalues]
  joined front command given flag x flag' y flag'' rest h hflag hflag' hflag'' := by
    have hx : Spelled ⟨.capture, x⟩ [flag, x] := .valued hflag rfl trivial
    have hy : Spelled ⟨.capture, y⟩ [flag', y] := .valued hflag' rfl trivial
    have hxy : Spelled ⟨.capture, x ++ Text.comma :: y⟩ [flag'', x ++ Text.comma :: y] :=
      .valued hflag'' rfl trivial
    rw [List.append_assoc, List.append_assoc, parse_append h, parse_append h,
      readFlags_spelled hxy, ← give_capture]
    · exact (readFlags_spelled hx _ ([flag', y] ++ rest)).trans (readFlags_spelled hy _ rest)
    · rintro first ⟨⟩
      exact hflag''.head?
    · rintro first ⟨⟩
      exact hflag.head?
  independent defaults' argv command given hdirectory h :=
    ⟨_, _, parse_of_reads h, parse_of_reads h, rfl, fun _ hg => agree_settled hdirectory hg⟩

/-- A flag in the place of a value is that value. -/
example : (parse ⟨Path.root, text "common", none, false, false, Path.root⟩
    [text "match", text "-f", text "--trace", text "-c", text "a,b", text "--capture", text "c"]
      ).toOption.map (fun o => (o.command, o.format, o.trace, o.capture))
    = some (.matchLog, some (text "--trace"), false,
      some [text "a", text "b", text "c"]) := by decide

/-- Of two limits the last one counts, in whatever way it is written. -/
example : (parse ⟨Path.root, text "common", none, false, false, Path.root⟩
    [text "-n", text " 0x1F ", text "--limit", text "+1.5e1"]).toOption.map (·.limit)
    = some (some 15) := by decide

end Options

end LogTemplate.CommandLine
