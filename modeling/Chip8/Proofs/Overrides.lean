import Chip8.Configuration
import Chip8.Proofs.Path

/-!
# The overrides of a configuration

An override concerns the program in a file if it has the name of the file or the stem of that name,
whatever the case of the letters (`Chip8.Override.Concerns`). The main statement,
`Chip8.Configuration.settings_by_name`, is that the first override that concerns a program gives its
rule for shift instructions, and that nothing else of the path or of the overrides makes a
difference.

All that the overrides contribute to the settings is the rule that they give
(`Chip8.Override.ruleFor?`), and the overrides of two lists one after the other give that of the
first list, or else that of the second (`Chip8.Override.ruleFor?_append`).
-/

namespace Chip8

namespace Override

variable {o : Override} {path other : String}

/-! ### What an override concerns -/

/-- An override concerns the program in a file if it has the name of the file, with its extension or
without, but for the case of letters. -/
def Concerns (o : Override) (path : String) : Prop :=
  ∃ name, Path.Names path.toList name ∧
    (SameLetters name o.name.toList ∨
      ∃ s, Path.HasStem name s ∧ SameLetters s o.name.toList)

theorem appliesTo_iff : o.appliesTo path = true ↔ o.Concerns path := by
  unfold appliesTo Concerns
  simp only [← Path.fileName?_eq_some_iff, ← Path.stem_eq_iff]
  cases Path.fileName? path.toList with
  | none => simp
  | some file => simp [Path.sameName_iff]

instance : Decidable (o.Concerns path) := decidable_of_iff _ appliesTo_iff

/-- An override that concerns a program goes on doing so if the case of letters changes in the path
and in the override, -/
theorem Concerns.sameLetters {o' : Override} (h : o.Concerns path)
    (paths : SameLetters path.toList other.toList)
    (names : SameLetters o.name.toList o'.name.toList) : o'.Concerns other := by
  obtain ⟨name, named, equal⟩ := h
  obtain ⟨name', named', same⟩ := named.sameLetters paths
  refine ⟨name', named', ?_⟩
  rcases equal with whole | ⟨s, stem, part⟩
  · exact Or.inl (same.symm.trans (whole.trans names))
  · obtain ⟨s', stem', same⟩ := stem.sameLetters same
    exact Or.inr ⟨s', stem', same.symm.trans (part.trans names)⟩

/-- and so does one that concerns none. -/
theorem concerns_iff_of_sameLetters {o' : Override} (paths : SameLetters path.toList other.toList)
    (names : SameLetters o.name.toList o'.name.toList) : o.Concerns path ↔ o'.Concerns other :=
  ⟨fun h => h.sameLetters paths names, fun h => h.sameLetters paths.symm names.symm⟩

/-- The overrides of files of one name are the same. -/
theorem concerns_congr
    (same : ∀ name, Path.Names path.toList name ↔ Path.Names other.toList name) :
    o.Concerns path ↔ o.Concerns other :=
  exists_congr fun name => and_congr_left fun _ => same name

/-! ### What overrides give -/

/-- The rule that some overrides give for a program: that of the first one that concerns it. -/
def ruleFor? (overrides : List Override) (path : String) : Option ShiftRule :=
  (overrides.find? (·.appliesTo path)).map shift

theorem ruleFor?_cons (o : Override) (others : List Override) (path : String) :
    ruleFor? (o :: others) path =
      if o.Concerns path then some o.shift else ruleFor? others path := by
  unfold ruleFor?
  rw [List.find?_cons]
  by_cases concerned : o.Concerns path
  · rw [appliesTo_iff.mpr concerned, if_pos concerned]
    rfl
  · rw [Bool.eq_false_iff.mpr (mt appliesTo_iff.mp concerned), if_neg concerned]

theorem ruleFor?_of_not_concerns {overrides : List Override}
    (h : ∀ o ∈ overrides, ¬o.Concerns path) : ruleFor? overrides path = none := by
  rw [ruleFor?, List.find?_eq_none.mpr fun o member => mt appliesTo_iff.mp (h o member),
    Option.map_none]

theorem ruleFor?_append (front back : List Override) (path : String) :
    ruleFor? (front ++ back) path = (ruleFor? front path).or (ruleFor? back path) := by
  rw [ruleFor?, List.find?_append, Option.map_or]
  rfl

/-- Programs that the same overrides concern are given the same rule, -/
theorem ruleFor?_congr (same : ∀ o : Override, o.Concerns path ↔ o.Concerns other)
    (overrides : List Override) : ruleFor? overrides path = ruleFor? overrides other := by
  have applies : (fun o : Override => o.appliesTo path) = fun o => o.appliesTo other :=
    funext fun o => Bool.eq_iff_iff.mpr (appliesTo_iff.trans ((same o).trans appliesTo_iff.symm))
  rw [ruleFor?, applies]
  rfl

/-- and overrides with the same rules give the same one if they concern the same programs. -/
theorem ruleFor?_of_forall₂ {overrides others : List Override}
    (same : List.Forall₂ (fun o o' => (o.Concerns path ↔ o'.Concerns path) ∧ o.shift = o'.shift)
      overrides others) : ruleFor? overrides path = ruleFor? others path := by
  induction same with
  | nil => rfl
  | @cons o o' overrides others same _ ih =>
    rw [ruleFor?_cons, ruleFor?_cons, ih, same.2]
    exact if_congr same.1 rfl rfl

end Override

namespace Configuration

open Override (ruleFor?)

/-- The settings for a program are those for every program, but for the rule that overrides
give. -/
theorem settingsFor_eq (c : Configuration) (path : String) :
    c.settingsFor path =
      { c.machine with shift := (ruleFor? c.overrides path).getD c.machine.shift } := by
  unfold settingsFor overrideFor? ruleFor?
  cases c.overrides.find? (·.appliesTo path) <;> rfl

/-- **The settings for a program are chosen by the name of its file.** They are those for every
program, but for the rule for shift instructions of the first override that concerns it; if none
does, or the path leads to no file with a name, they are no others. Directories in front of a path
with a name, slashes and dots after it, and the case of letters in the path and in the overrides
make no difference, and neither do overrides after the first one that concerns the program, or any
that do not concern it. -/
theorem settings_by_name (c : Configuration) (path : String) :
    (∀ before o after, c.overrides = before ++ o :: after → (∀ e ∈ before, ¬e.Concerns path) →
      o.Concerns path → c.settingsFor path = { c.machine with shift := o.shift }) ∧
    ((∀ o ∈ c.overrides, ¬o.Concerns path) → c.settingsFor path = c.machine) ∧
    ((∀ name, ¬Path.Names path.toList name) → c.settingsFor path = c.machine) ∧
    ((∃ name, Path.Names path.toList name) →
      ∀ directories, c.settingsFor (directories ++ "/" ++ path) = c.settingsFor path) ∧
    c.settingsFor (path ++ "/") = c.settingsFor path ∧
    c.settingsFor (path ++ "/.") = c.settingsFor path ∧
    (∀ other : String, SameLetters path.toList other.toList →
      c.settingsFor other = c.settingsFor path) ∧
    (∀ overrides,
      List.Forall₂ (fun o o' => SameLetters o.name.toList o'.name.toList ∧ o.shift = o'.shift)
        c.overrides overrides →
      { c with overrides }.settingsFor path = c.settingsFor path) ∧
    (∀ before o after others, c.overrides = before ++ o :: after → o.Concerns path →
      { c with overrides := before ++ o :: others }.settingsFor path = c.settingsFor path) ∧
    ∀ before inserted after, c.overrides = before ++ after → (∀ o ∈ inserted, ¬o.Concerns path) →
      { c with overrides := before ++ inserted ++ after }.settingsFor path =
        c.settingsFor path := by
  simp only [settingsFor_eq]
  refine ⟨?first, ?none, ?nameless, ?directories, ?slash, ?dot, ?path, ?names, ?others, ?inserted⟩
  case first =>
    intro before o after listed unconcerned concerned
    rw [listed, Override.ruleFor?_append, Override.ruleFor?_of_not_concerns unconcerned,
      Override.ruleFor?_cons, if_pos concerned]
    rfl
  case none =>
    intro unconcerned
    rw [Override.ruleFor?_of_not_concerns unconcerned]
    rfl
  case nameless =>
    intro nameless
    rw [Override.ruleFor?_of_not_concerns]
    · rfl
    · rintro o - ⟨name, named, -⟩
      exact nameless name named
  case directories =>
    rintro ⟨name, named⟩ directories
    have below : Path.Names (directories ++ "/" ++ path).toList name := by
      rw [String.toList_append, String.toList_append, List.append_assoc]
      exact named.append_directories directories.toList
    rw [Override.ruleFor?_congr fun o => Override.concerns_congr fun other =>
      ⟨fun h => h.unique below ▸ named, fun h => h.unique named ▸ below⟩]
  case slash =>
    rw [Override.ruleFor?_congr fun o => Override.concerns_congr fun name => ?_]
    rw [String.toList_append]
    exact Path.names_append_trail (.slash .nil)
  case dot =>
    rw [Override.ruleFor?_congr fun o => Override.concerns_congr fun name => ?_]
    rw [String.toList_append]
    exact Path.names_append_trail (.dot .nil)
  case path =>
    intro other same
    rw [Override.ruleFor?_congr fun o => Override.concerns_iff_of_sameLetters same.symm (.refl _)]
  case names =>
    intro overrides same
    rw [Override.ruleFor?_of_forall₂ (same.imp fun o o' h =>
      ⟨Override.concerns_iff_of_sameLetters (.refl _) h.1, h.2⟩)]
  case others =>
    intro before o after others listed concerned
    rw [listed, Override.ruleFor?_append, Override.ruleFor?_cons, if_pos concerned,
      Override.ruleFor?_append, Override.ruleFor?_cons, if_pos concerned]
  case inserted =>
    intro before inserted after listed unconcerned
    rw [listed, Override.ruleFor?_append, Override.ruleFor?_append,
      Override.ruleFor?_of_not_concerns unconcerned, Option.or_none, Override.ruleFor?_append]

/-- A program in a directory, of whose overrides the second one is the first that concerns it. -/
theorem settings_by_name_invaders :
    let c : Configuration :=
      ⟨.standard, [⟨"tank", .modern⟩, ⟨"Invaders", .legacy⟩, ⟨"invaders.ch8", .modern⟩]⟩
    c.settingsFor "games/./INVADERS.ch8/." = { Settings.standard with shift := .legacy } ∧
      c.settingsFor "games/.." = .standard := by
  intro c
  have concerned := (c.settings_by_name "games/./INVADERS.ch8/.").1
  have unconcerned := (c.settings_by_name "games/..").2.1
  exact ⟨concerned [⟨"tank", .modern⟩] ⟨"Invaders", .legacy⟩ [⟨"invaders.ch8", .modern⟩] rfl
    (by decide +kernel) (by decide +kernel), unconcerned (by decide +kernel)⟩

end Configuration

end Chip8
