import Chip8.Command.Basic
import Chip8.Proofs.Numeral
import Mathlib.Data.List.Induction

/-!
# The arguments that write a command

Which lists of arguments write a command, and which one, can be told without saying how they are
read: after `run` and a file there are pairs of an option and its value
(`Chip8.RunOption.AllWritten`), and after `dis` and a file there is anything. The main statement,
`Chip8.Command.parse_exact`, is that `Chip8.Command.parse` reads just these lists, as the commands
that they write, and that every other list goes wrong at a certain place
(`Chip8.Command.Misused`).

What is to be known of the options is how a number is written (`Chip8.WritesNumber`), and that of
several options of one kind the last one counts (`Chip8.RunOption.Last`).
-/

namespace Chip8

/-! ### Numbers -/

/-- The value of decimal digits, the highest one first. -/
def valueOfDigits (digits : List Char) : Nat :=
  Nat.ofDigits 10 (digits.reverse.map fun c => c.toNat - 48)

/-- A text that writes a number of sixty-four bits: one or more decimal digits, after a plus sign or
none. -/
structure WritesNumber (text : String) (n : Nat) : Prop where
  /-- What is written are digits, after a plus sign or none. -/
  written : ∃ digits : List Char,
    (text.toList = digits ∨ text.toList = '+' :: digits) ∧
    digits ≠ [] ∧ (∀ c ∈ digits, '0' ≤ c ∧ c ≤ '9') ∧ valueOfDigits digits = n
  /-- The number has sixty-four bits. -/
  small : n < 18446744073709551616

theorem valueOfDigits_append (front : List Char) (c : Char) :
    valueOfDigits (front ++ [c]) = valueOfDigits front * 10 + (c.toNat - 48) := by
  rw [valueOfDigits, List.reverse_append, List.reverse_singleton, List.singleton_append,
    List.map_cons, Nat.ofDigits_cons, Nat.mul_comm, Nat.add_comm]
  rfl

/-- Ten characters have a value below ten. -/
theorem ofDigitsAfter?_ten_singleton (value : Nat) (c : Char) :
    ofDigitsAfter? 10 value [c] =
      if '0' ≤ c ∧ c ≤ '9' then some (value * 10 + (c.toNat - 48)) else none := by
  have le (a b : Char) : a ≤ b ↔ a.toNat ≤ b.toNat := UInt32.le_iff_toNat_le
  have nine : '9'.toNat = 57 := rfl
  have upper : 'A'.toNat = 65 := rfl
  have lower : 'a'.toNat = 97 := rfl
  unfold ofDigitsAfter? digitValue?
  by_cases digit : '0' ≤ c ∧ c ≤ '9'
  · have small : c.toNat - 48 < 10 := by
      rw [le, le] at digit
      omega
    simp only [digit, and_self, if_true, small]
    rfl
  · -- The letters are digits of other bases.
    rw [if_neg digit, if_neg digit]
    split_ifs with high high
    · have large : ¬c.toNat - 55 < 10 := by
        rw [le, le] at high
        omega
      simp only [large, if_false]
    · have large : ¬c.toNat - 87 < 10 := by
        rw [le, le] at high
        omega
      simp only [large, if_false]
    · rfl

/-- Characters are read as a number if all of them are decimal digits. -/
theorem ofDigitsAfter?_ten_eq_some_iff {digits : List Char} {n : Nat} :
    ofDigitsAfter? 10 0 digits = some n ↔
      (∀ c ∈ digits, '0' ≤ c ∧ c ≤ '9') ∧ valueOfDigits digits = n := by
  induction digits using List.reverseRecOn generalizing n with
  | nil =>
    rw [ofDigitsAfter?, Option.some.injEq]
    exact ⟨fun same => ⟨List.forall_mem_nil _, same⟩, fun same => same.2⟩
  | append_singleton front c ih =>
    rw [ofDigitsAfter?_append, Option.bind_eq_some_iff, valueOfDigits_append,
      List.forall_mem_append, List.forall_mem_singleton]
    constructor
    · rintro ⟨value, read, last⟩
      obtain ⟨digits, rfl⟩ := ih.mp read
      rw [ofDigitsAfter?_ten_singleton, Option.ite_none_right_eq_some] at last
      exact ⟨⟨digits, last.1⟩, Option.some.inj last.2⟩
    · rintro ⟨⟨digits, digit⟩, same⟩
      refine ⟨valueOfDigits front, ih.mpr ⟨digits, rfl⟩, ?_⟩
      rw [ofDigitsAfter?_ten_singleton, if_pos digit, same]

theorem ofDigits?_ten_eq_some_iff {digits : List Char} {n : Nat} :
    ofDigits? 10 digits = some n ↔
      (digits ≠ [] ∧ (∀ c ∈ digits, '0' ≤ c ∧ c ≤ '9') ∧ valueOfDigits digits = n) ∧
        n < 18446744073709551616 := by
  cases digits with
  | nil => simp [ofDigits?]
  | cons c rest =>
    have read : ofDigits? 10 (c :: rest) =
        (ofDigitsAfter? 10 0 (c :: rest)).filter (· < UInt64.size) := rfl
    rw [read, Option.filter_eq_some_iff, ofDigitsAfter?_ten_eq_some_iff, decide_eq_true_iff]
    exact and_congr_left fun _ => (and_iff_right (List.cons_ne_nil c rest)).symm

/-- **A number is read where one is written**, and it is the number that is written. -/
theorem ofDecimal?_eq_some_iff {text : String} {n : Nat} :
    ofDecimal? text = some n ↔ WritesNumber text n := by
  rw [ofDecimal?, ofDigits?_ten_eq_some_iff]
  constructor
  · rintro ⟨digits, small⟩
    refine ⟨⟨dropPlus text.toList, ?_, digits⟩, small⟩
    unfold dropPlus
    split
    case h_1 rest plus => exact Or.inr plus
    case h_2 => exact Or.inl rfl
  · rintro ⟨⟨digits, sign, digital⟩, small⟩
    have dropped : dropPlus text.toList = digits := by
      rcases sign with bare | plus
      · -- A plus sign is no digit.
        unfold dropPlus
        split
        case h_1 rest plus =>
          rw [plus] at bare
          rw [← bare, List.forall_mem_cons] at digital
          exact absurd digital.2.1.1 (by decide)
        case h_2 => exact bare
      · rw [plus]
        rfl
    rw [dropped]
    exact ⟨digital, small⟩

/-! ### Options -/

namespace RunOption

/-- An option is written by its name and its value. -/
inductive Written : String → String → RunOption → Prop where
  /-- Any text names a file. -/
  | config (file : String) : Written "--config" file (.config file)
  /-- A time is a number. -/
  | millis {value : String} {limit : Nat} (number : WritesNumber value limit) :
    Written "--millis" value (.millis limit)

/-- Options are written one after the other. -/
inductive AllWritten : List String → List RunOption → Prop where
  /-- No option is written by no argument. -/
  | nil : AllWritten [] []
  /-- The first option is written by the first two arguments. -/
  | cons {name value : String} {rest : List String} {option : RunOption}
      {options : List RunOption} (first : Written name value option)
      (others : AllWritten rest options) : AllWritten (name :: value :: rest) (option :: options)

/-- Arguments that begin with no option. -/
inductive Garbled : List String → Prop where
  /-- The value is missing. -/
  | noValue (name : String) : Garbled [name]
  /-- There is no such option. -/
  | unknown {name : String} (config : name ≠ "--config") (millis : name ≠ "--millis")
      (value : String) (rest : List String) : Garbled (name :: value :: rest)
  /-- A time is no number, or too large a one. -/
  | noNumber {value : String} (unwritten : ∀ n, ¬WritesNumber value n) (rest : List String) :
    Garbled ("--millis" :: value :: rest)

/-- The file that an option takes the configuration from. -/
def file? : RunOption → Option String
  | config file => some file
  | millis _ => none

/-- The time that an option allows. -/
def limit? : RunOption → Option Nat
  | config _ => none
  | millis limit => some limit

/-- What options of a kind come to: the value of the last one. -/
inductive Last {α : Type} (pick : RunOption → Option α) : List RunOption → Option α → Prop where
  /-- There is no option of the kind. -/
  | absent {options : List RunOption} (others : ∀ option ∈ options, pick option = none) :
    Last pick options none
  /-- After the last one there are only options of another kind. -/
  | found (before : List RunOption) {option : RunOption} {a : α} (picked : pick option = some a)
      {after : List RunOption} (others : ∀ option ∈ after, pick option = none) :
    Last pick (before ++ option :: after) (some a)

/-- An option is read where one is written. -/
theorem read?_eq_some_iff {name value : String} {option : RunOption} :
    read? name value = some option ↔ Written name value option := by
  constructor
  · intro h
    unfold read? at h
    split_ifs at h with config millis
    · cases h
      rw [config]
      exact .config value
    · obtain ⟨limit, number, rfl⟩ := Option.map_eq_some_iff.mp h
      rw [millis]
      exact .millis (ofDecimal?_eq_some_iff.mp number)
  · intro written
    cases written with
    | config => rfl
    | millis number =>
      rw [read?, if_neg (by decide), if_pos rfl, ofDecimal?_eq_some_iff.mpr number]
      rfl

/-- Where none can be read, the arguments begin with none. -/
theorem garbled_of_read?_eq_none {name value : String} (unread : read? name value = none)
    (rest : List String) : Garbled (name :: value :: rest) := by
  unfold read? at unread
  split_ifs at unread with config millis
  · rw [millis]
    refine .noNumber (fun n written => ?_) rest
    rw [ofDecimal?_eq_some_iff.mpr written] at unread
    contradiction
  · exact .unknown config millis value rest

/-- Arguments that begin with no option are not read. -/
theorem Garbled.readAll?_eq_none {arguments : List String} (garbled : Garbled arguments) :
    readAll? arguments = none := by
  cases garbled with
  | noValue name => rfl
  | unknown config millis value rest => rw [readAll?, read?, if_neg config, if_neg millis]
  | @noNumber value unwritten rest =>
    have unread : ofDecimal? value = none :=
      Option.eq_none_iff_forall_ne_some.mpr fun n read =>
        unwritten n (ofDecimal?_eq_some_iff.mp read)
    rw [readAll?, read?, if_neg (by decide), if_pos rfl, unread]
    rfl

/-- **Options are read where they are written.** -/
theorem readAll?_eq_some_iff {arguments : List String} {options : List RunOption} :
    readAll? arguments = some options ↔ AllWritten arguments options := by
  constructor
  · intro h
    fun_induction readAll? arguments generalizing options with
    | case1 =>
      cases h
      exact .nil
    | case2 name => contradiction
    | case3 name value rest option others read first ih =>
      cases h
      exact .cons (read?_eq_some_iff.mp first) (ih read)
    | case4 => contradiction
  · intro written
    induction written with
    | nil => rfl
    | cons first others ih => rw [readAll?, read?_eq_some_iff.mpr first, ih]

/-- **Options are not read where they go wrong** after some that do not. -/
theorem readAll?_eq_none_iff {arguments : List String} :
    readAll? arguments = none ↔
      ∃ front options rest, arguments = front ++ rest ∧ AllWritten front options ∧
        Garbled rest := by
  constructor
  · intro unread
    fun_induction readAll? arguments with
    | case1 => contradiction
    | case2 name => exact ⟨[], [], [name], rfl, .nil, .noValue name⟩
    | case3 => contradiction
    | case4 name value rest stuck ih =>
      rcases first : read? name value with _ | option
      · exact ⟨[], [], _, rfl, .nil, garbled_of_read?_eq_none first rest⟩
      · have others : readAll? rest = none :=
          Option.eq_none_iff_forall_ne_some.mpr fun options read => stuck _ _ first read
        obtain ⟨front, options, bad, rfl, written, garbled⟩ := ih others
        exact ⟨_, _, bad, rfl, .cons (read?_eq_some_iff.mp first) written, garbled⟩
  · rintro ⟨front, options, rest, rfl, written, garbled⟩
    induction written with
    | nil => exact garbled.readAll?_eq_none
    | @cons name value front option options first others ih =>
      have unread : readAll? (front ++ rest) = none := ih
      rw [List.cons_append, List.cons_append, readAll?, read?_eq_some_iff.mpr first, unread]

/-- The last option of a kind is the last of those of its kind. -/
theorem last_iff {α : Type} {pick : RunOption → Option α} {options : List RunOption}
    {chosen : Option α} :
    Last pick options chosen ↔ (options.filterMap pick).getLast? = chosen := by
  rw [List.getLast?_filterMap]
  constructor
  · intro last
    cases last with
    | absent others =>
      exact List.findSome?_eq_none_iff.mpr fun option member =>
        others option (List.mem_reverse.mp member)
    | found before picked others =>
      refine List.findSome?_eq_some_iff.mpr ⟨_, _, before.reverse, ?_, picked, fun option member =>
        others option (List.mem_reverse.mp member)⟩
      simp
  · rintro rfl
    rcases found : options.reverse.findSome? pick with _ | a
    · exact .absent fun option member =>
        List.findSome?_eq_none_iff.mp found option (List.mem_reverse.mpr member)
    · obtain ⟨after, option, before, reversed, picked, others⟩ :=
        List.findSome?_eq_some_iff.mp found
      have parts : options = before.reverse ++ option :: after.reverse := by
        rw [← List.reverse_reverse options, reversed]
        simp
      rw [parts]
      exact .found _ picked fun option member => others option (List.mem_reverse.mp member)

/-- **Of the options that overwrite each other, the last of each kind is left**, or what was chosen
before all of them. -/
theorem foldl_overwrite (options : List RunOption) (chosen : Option String × Nat) :
    options.foldl overwrite chosen =
      ((options.filterMap file?).getLast?.or chosen.1,
        (options.filterMap limit?).getLast?.getD chosen.2) := by
  induction options using List.reverseRecOn with
  | nil => rfl
  | append_singleton options option ih =>
    rw [List.foldl_append, ih, List.filterMap_append, List.filterMap_append]
    cases option with
    | config file | millis limit => simp [overwrite, file?, limit?]

end RunOption

/-! ### Commands -/

namespace Command

/-- Arguments that write no command. -/
inductive Misused : List String → Prop where
  /-- There are none. -/
  | empty : Misused []
  /-- There is no such command. -/
  | unknown {name : String} (run : name ≠ "run") (list : name ≠ "dis") (rest : List String) :
    Misused (name :: rest)
  /-- The file is missing. -/
  | noFile (name : String) : Misused [name]
  /-- After some options that are written, there is none. -/
  | garbled (file : String) {front rest : List String} {options : List RunOption}
      (written : RunOption.AllWritten front options) (garbled : RunOption.Garbled rest) :
    Misused ("run" :: file :: (front ++ rest))

/-- The file of a command to run a program is the one that is named, and what else it has comes from
the last options of their kinds. -/
theorem ofOptions_eq_iff {file other : String} {options : List RunOption} {config : Option String}
    {limit : Nat} :
    ofOptions other options = .run file config limit ↔
      other = file ∧ RunOption.Last RunOption.file? options config ∧
        ∃ chosen, RunOption.Last RunOption.limit? options chosen ∧ limit = chosen.getD 5000 := by
  rw [ofOptions, RunOption.foldl_overwrite, run.injEq, Option.or_none]
  refine and_congr Iff.rfl (and_congr RunOption.last_iff.symm ?_)
  constructor
  · rintro rfl
    exact ⟨_, RunOption.last_iff.mpr rfl, rfl⟩
  · rintro ⟨chosen, last, rfl⟩
    rw [RunOption.last_iff.mp last]
    rfl

theorem parse_eq_run_iff {arguments : List String} {file : String} {config : Option String}
    {limit : Nat} :
    parse arguments = some (.run file config limit) ↔
      ∃ rest options, arguments = "run" :: file :: rest ∧ RunOption.AllWritten rest options ∧
        RunOption.Last RunOption.file? options config ∧
        ∃ chosen, RunOption.Last RunOption.limit? options chosen ∧ limit = chosen.getD 5000 := by
  constructor
  · intro parsed
    unfold parse at parsed
    split at parsed
    · case h_1 name other rest =>
      split_ifs at parsed with run list
      · obtain ⟨options, read, made⟩ := Option.map_eq_some_iff.mp parsed
        obtain ⟨rfl, chosen⟩ := ofOptions_eq_iff.mp made
        rw [run]
        exact ⟨rest, options, rfl, RunOption.readAll?_eq_some_iff.mp read, chosen⟩
      · cases parsed
    · contradiction
  · rintro ⟨rest, options, rfl, written, chosen⟩
    rw [parse, if_pos rfl, RunOption.readAll?_eq_some_iff.mpr written, Option.map_some,
      ofOptions_eq_iff.mpr ⟨rfl, chosen⟩]

theorem parse_eq_list_iff {arguments : List String} {file : String} :
    parse arguments = some (.list file) ↔ ∃ rest, arguments = "dis" :: file :: rest := by
  constructor
  · intro parsed
    unfold parse at parsed
    split at parsed
    · case h_1 name other rest =>
      split_ifs at parsed with run list
      · obtain ⟨options, -, made⟩ := Option.map_eq_some_iff.mp parsed
        contradiction
      · cases parsed
        rw [list]
        exact ⟨rest, rfl⟩
    · contradiction
  · rintro ⟨rest, rfl⟩
    rfl

theorem parse_eq_none_iff {arguments : List String} :
    parse arguments = none ↔ Misused arguments := by
  constructor
  · intro unread
    unfold parse at unread
    split at unread
    · case h_1 name file rest =>
      split_ifs at unread with run list
      · obtain ⟨front, options, bad, rfl, written, garbled⟩ :=
          RunOption.readAll?_eq_none_iff.mp (Option.map_eq_none_iff.mp unread)
        rw [run]
        exact .garbled file written garbled
      · exact .unknown run list _
    · case h_2 short =>
      match arguments with
      | [] => exact .empty
      | [name] => exact .noFile name
      | name :: file :: rest => exact absurd rfl (short name file rest)
  · intro misused
    cases misused with
    | empty => rfl
    | @unknown name run list rest =>
      cases rest with
      | nil => rfl
      | cons file rest => rw [parse, if_neg run, if_neg list]
    | noFile name => rfl
    | @garbled file front rest options written garbled =>
      have unread : RunOption.readAll? (front ++ rest) = none :=
        RunOption.readAll?_eq_none_iff.mpr ⟨front, options, rest, rfl, written, garbled⟩
      rw [parse, if_pos rfl, unread]
      rfl

/-- **Arguments are read as the command that they write.** A list of arguments is read as a command
to run a program if it is `run`, a file, and pairs that each write an option, `--config` before
any text or `--millis` before a number of sixty-four bits; the configuration is that of the last
`--config`, if there is one, and the time that of the last `--millis`, or five thousand
milliseconds. It is read as a command to list a program if it begins with `dis` and a file. All
other lists are refused: those that are empty, name another command or no file, or have a name
without a value, a name of no option, or a time that is no such number, after options that are
written well. -/
theorem parse_exact (arguments : List String) :
    (∀ file config limit,
      parse arguments = some (.run file config limit) ↔
        ∃ rest options, arguments = "run" :: file :: rest ∧ RunOption.AllWritten rest options ∧
          RunOption.Last RunOption.file? options config ∧
          ∃ chosen, RunOption.Last RunOption.limit? options chosen ∧ limit = chosen.getD 5000) ∧
    (∀ file, parse arguments = some (.list file) ↔ ∃ rest, arguments = "dis" :: file :: rest) ∧
    (parse arguments = none ↔ Misused arguments) :=
  ⟨fun _ _ _ => parse_eq_run_iff, fun _ => parse_eq_list_iff, parse_eq_none_iff⟩

example :
    parse ["run", "a", "--millis", "+07", "--config", "--millis", "--config", "b"] =
      some (.run "a" (some "b") 7) := by
  decide +kernel

example :
    parse ["run", "a", "--millis", "18446744073709551616", "--millis", "1"] = none := by
  decide +kernel

end Command

end Chip8
