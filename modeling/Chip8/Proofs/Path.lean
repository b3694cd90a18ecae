import Chip8.Path
import Mathlib.Data.List.Forall2

/-!
# The names in a path

What the name of a file is in a path can be said by the form of the path: some directories, each
with a slash after it, the name, and a trail of slashes and dots that leads nowhere else
(`Chip8.Path.Names`). The stem of a name is what stands before the last dot, if that is not the
first character (`Chip8.Path.HasStem`). The main statements are that
`Chip8.Path.fileName?` and `Chip8.Path.stem` find just these
(`Chip8.Path.fileName?_eq_some_iff`, `Chip8.Path.stem_eq_iff`).

From the form of a path it can be seen what makes no difference to the name: directories in front
(`Chip8.Path.Names.append_directories`) and a longer trail (`Chip8.Path.names_append_trail`). The
case of letters in a path makes none but to the case of letters in the name
(`Chip8.Path.Names.sameLetters`), and so it is with a stem (`Chip8.Path.HasStem.sameLetters`).
-/

namespace Chip8

/-! ### The case of letters -/

/-- Two characters that are the same but for the case of a letter from `A` to `Z`. -/
def SameLetter (c d : Char) : Prop :=
  c = d ∨ ∃ k < 26,
    (c.toNat = 65 + k ∧ d.toNat = 97 + k) ∨ (c.toNat = 97 + k ∧ d.toNat = 65 + k)

/-- Two texts that are the same but for the case of letters from `A` to `Z`. -/
def SameLetters (a b : List Char) : Prop := List.Forall₂ SameLetter a b

namespace SameLetter

variable {c d : Char}

theorem symm (h : SameLetter c d) : SameLetter d c := by
  rcases h with rfl | ⟨k, small, ⟨upper, lower⟩ | ⟨lower, upper⟩⟩
  · exact Or.inl rfl
  · exact Or.inr ⟨k, small, Or.inr ⟨lower, upper⟩⟩
  · exact Or.inr ⟨k, small, Or.inl ⟨upper, lower⟩⟩

/-- A character that stands before all letters has no other case. -/
theorem eq_of_lt (h : SameLetter c d) (low : c.toNat < 65) : d = c := by
  rcases h with rfl | ⟨k, _, ⟨upper, _⟩ | ⟨lower, _⟩⟩
  · rfl
  · omega
  · omega

end SameLetter

theorem toNat_toLower (c : Char) :
    c.toLower.toNat = if 65 ≤ c.toNat ∧ c.toNat ≤ 90 then c.toNat + 32 else c.toNat := by
  have upper : (c.val ≥ 'A'.val ∧ c.val ≤ 'Z'.val) ↔ (65 ≤ c.toNat ∧ c.toNat ≤ 90) :=
    and_congr UInt32.le_iff_toNat_le UInt32.le_iff_toNat_le
  unfold Char.toLower
  split
  case isTrue letter =>
    have bounds := upper.mp letter
    have moved : (c.val + ('a'.val - 'A'.val)).toNat = (c.toNat + 32) % 4294967296 :=
      UInt32.toNat_add ..
    rw [if_pos bounds]
    exact moved.trans (Nat.mod_eq_of_lt (by omega))
  case isFalse other => rw [if_neg (other ∘ upper.mpr)]

theorem toLower_eq_iff {c d : Char} : c.toLower = d.toLower ↔ SameLetter c d := by
  rw [← Char.toNat_inj, toNat_toLower, toNat_toLower, SameLetter, ← Char.toNat_inj]
  constructor
  · intro same
    by_cases left : 65 ≤ c.toNat ∧ c.toNat ≤ 90 <;> by_cases right : 65 ≤ d.toNat ∧ d.toNat ≤ 90
    all_goals simp only [left, right, if_true, if_false, and_self] at same
    · exact Or.inl (by omega)
    · exact Or.inr ⟨c.toNat - 65, by omega, Or.inl (by omega)⟩
    · exact Or.inr ⟨d.toNat - 65, by omega, Or.inr (by omega)⟩
    · exact Or.inl same
  · rintro (same | ⟨k, small, ⟨upper, lower⟩ | ⟨lower, upper⟩⟩)
    · rw [same]
    · rw [if_pos (by omega), if_neg (by omega)]
      omega
    · rw [if_neg (by omega), if_pos (by omega)]
      omega

/-- Texts that are the same but for the case of letters are the same in small letters. -/
theorem map_toLower_eq_iff {a b : List Char} :
    a.map Char.toLower = b.map Char.toLower ↔ SameLetters a b := by
  rw [← List.forall₂_eq_eq_eq, List.forall₂_map_left_iff, List.forall₂_map_right_iff]
  simp only [toLower_eq_iff]
  rfl

namespace SameLetters

theorem refl (a : List Char) : SameLetters a a := map_toLower_eq_iff.mp rfl

theorem symm {a b : List Char} (h : SameLetters a b) : SameLetters b a :=
  map_toLower_eq_iff.mp (map_toLower_eq_iff.mpr h).symm

theorem trans {a b c : List Char} (h : SameLetters a b) (h' : SameLetters b c) :
    SameLetters a c :=
  map_toLower_eq_iff.mp ((map_toLower_eq_iff.mpr h).trans (map_toLower_eq_iff.mpr h'))

theorem eq_of_lt {a b : List Char} (h : SameLetters a b) (low : ∀ c ∈ a, c.toNat < 65) : b = a := by
  induction h with
  | nil => rfl
  | cons same _ ih =>
    rw [List.forall_mem_cons] at low
    rw [same.eq_of_lt low.1, ih low.2]

theorem mem_of_lt {a b : List Char} (h : SameLetters a b) {c : Char} (low : c.toNat < 65)
    (member : c ∈ b) : c ∈ a := by
  induction h with
  | nil => exact member
  | cons same _ ih =>
    rcases List.mem_cons.mp member with rfl | member
    · rw [same.symm.eq_of_lt low]
      exact List.mem_cons_self
    · exact List.mem_cons_of_mem _ (ih member)

/-- Where a text consists of two, so does one that is the same but for the case of letters. -/
theorem exists_append {a b other : List Char} (h : SameLetters (a ++ b) other) :
    ∃ a' b', other = a' ++ b' ∧ SameLetters a a' ∧ SameLetters b b' :=
  ⟨_, _, (List.take_append_drop a.length other).symm,
    symm (List.forall₂_take_append _ _ _ h.symm), symm (List.forall₂_drop_append _ _ _ h.symm)⟩

end SameLetters

namespace Path

theorem sameName_iff {a b : List Char} : sameName a b = true ↔ SameLetters a b := by
  rw [sameName, beq_iff_eq, map_toLower_eq_iff]

/-! ### The form of a path -/

/-- Slashes, with dots alone after some of them. -/
inductive Trail : List Char → Prop where
  /-- There may be nothing, -/
  | nil : Trail []
  /-- a slash, -/
  | slash {rest : List Char} (h : Trail rest) : Trail ('/' :: rest)
  /-- or a slash and a dot. -/
  | dot {rest : List Char} (h : Trail rest) : Trail ('/' :: '.' :: rest)

/-- A name that a file may have. -/
structure IsName (name : List Char) : Prop where
  /-- There is no slash within it. -/
  whole : '/' ∉ name
  /-- It is not empty, -/
  nonempty : name ≠ []
  /-- not the name that every directory has for itself, -/
  proper : name ≠ ['.']
  /-- and not the one that it has for the directory above. -/
  below : name ≠ ['.', '.']

/-- A path that leads to a file with a name. -/
structure Names (path name : List Char) : Prop where
  /-- Some directories, each with a slash after it, come first, and then the name; what comes after
  it leads nowhere else. -/
  parts : ∃ directories trail, path = directories ++ name ++ trail ∧
    (directories = [] ∨ ∃ above, directories = above ++ ['/']) ∧ Trail trail
  /-- It is the name of a file. -/
  valid : IsName name

/-- What stands before the last dot of a name, or the name, if nothing stands before a dot. -/
inductive HasStem : List Char → List Char → Prop where
  /-- What is cut off begins with the last dot. -/
  | cut {stem extension : List Char} (nonempty : stem ≠ []) (last : '.' ∉ extension) :
    HasStem (stem ++ '.' :: extension) stem
  /-- There is no dot after the first character. -/
  | whole {name : List Char} (dotless : '.' ∉ name.tail) : HasStem name name

/-! ### Segments -/

theorem split_ne_nil (path : List Char) : split path ≠ [] := by
  cases path with
  | nil => exact List.cons_ne_nil _ _
  | cons c rest =>
    rw [split]
    split
    · exact List.cons_ne_nil _ _
    · split <;> exact List.cons_ne_nil _ _

theorem split_append_slash (above rest : List Char) :
    split (above ++ '/' :: rest) = split above ++ split rest := by
  induction above with
  | nil =>
    obtain ⟨part, parts, cut⟩ := List.exists_cons_of_ne_nil (split_ne_nil rest)
    simp only [List.nil_append, split, cut]
    rfl
  | cons c above ih =>
    obtain ⟨part, parts, cut⟩ := List.exists_cons_of_ne_nil (split_ne_nil above)
    rw [List.cons_append, split, split, ih, cut]
    simp only [List.cons_append]
    split <;> rfl

theorem split_of_whole {name : List Char} (whole : '/' ∉ name) : split name = [name] := by
  induction name with
  | nil => rfl
  | cons c name ih =>
    rw [List.mem_cons, not_or] at whole
    rw [split, ih whole.2]
    exact if_neg (Ne.symm whole.1)

/-- The segments of a path are those before and after any slash. -/
theorem segments_append_slash (above rest : List Char) :
    segments (above ++ '/' :: rest) = segments above ++ segments rest := by
  rw [segments, split_append_slash, List.filter_append]
  rfl

theorem segments_of_whole {name : List Char} (whole : '/' ∉ name) :
    segments name = if name = [] ∨ name = ['.'] then [] else [name] := by
  rw [segments, split_of_whole whole]
  by_cases empty : name = []
  · simp [empty]
  · by_cases dot : name = ['.']
    · simp [dot]
    · simp [empty, dot]

/-- A trail has no segments of its own. -/
theorem segments_append_trail {trail : List Char} (h : Trail trail) (path : List Char) :
    segments (path ++ trail) = segments path := by
  induction h generalizing path with
  | nil => rw [List.append_nil]
  | @slash rest _ ih =>
    have nothing : segments rest = segments [] := ih []
    rw [segments_append_slash, nothing]
    exact List.append_nil _
  | @dot rest _ ih =>
    have dot : segments ('.' :: rest) = segments ['.'] := ih ['.']
    rw [segments_append_slash, dot]
    exact List.append_nil _

/-! ### The name of a file -/

theorem Trail.append {trail rest : List Char} (h : Trail trail) (h' : Trail rest) :
    Trail (trail ++ rest) := by
  induction h with
  | nil => exact h'
  | slash _ ih => exact .slash ih
  | dot _ ih => exact .dot ih

/-- What comes after the last slash of a path leads nowhere else, if it is nothing or a dot. -/
theorem trail_of_segments_eq_nil {rest : List Char} (whole : '/' ∉ rest)
    (nothing : segments rest = []) : Trail ('/' :: rest) := by
  rw [segments_of_whole whole] at nothing
  split_ifs at nothing with idle
  rcases idle with rfl | rfl
  · exact .slash .nil
  · exact .dot .nil

/-- The name is the last segment of a path. -/
theorem Names.segments_eq {path name : List Char} (names : Names path name) :
    ∃ above, segments path = above ++ [name] := by
  obtain ⟨⟨directories, trail, rfl, top, idle⟩, valid⟩ := names
  have last : segments name = [name] := by
    rw [segments_of_whole valid.whole, if_neg (not_or.mpr ⟨valid.nonempty, valid.proper⟩)]
  rw [segments_append_trail idle]
  rcases top with rfl | ⟨above, rfl⟩
  · exact ⟨[], last⟩
  · rw [List.append_assoc, List.singleton_append, segments_append_slash, last]
    exact ⟨_, rfl⟩

/-- A path with a slash ends with its last slash and something without one. -/
theorem exists_last_slash {path : List Char} (h : '/' ∈ path) :
    ∃ above rest, path = above ++ '/' :: rest ∧ '/' ∉ rest := by
  obtain ⟨rest, above, reversed, whole⟩ := List.eq_append_cons_of_mem (List.mem_reverse.mpr h)
  refine ⟨above.reverse, rest.reverse, ?_, fun member => whole (List.mem_reverse.mp member)⟩
  rw [← List.reverse_reverse path, reversed]
  simp

/-- The only segment of something without a slash is a name, unless it is that of the directory
above. -/
theorem isName_of_getLast?_segments {rest name : List Char} (whole : '/' ∉ rest)
    (last : (segments rest).getLast? = some name) (below : name ≠ ['.', '.']) :
    rest = name ∧ IsName name := by
  rw [segments_of_whole whole] at last
  split_ifs at last with idle
  · contradiction
  · rw [not_or] at idle
    obtain rfl := Option.some.inj last
    exact ⟨rfl, whole, idle.1, idle.2, below⟩

/-- The last segment of a path is its name, unless it is that of the directory above. -/
theorem names_of_getLast?_segments {path name : List Char}
    (last : (segments path).getLast? = some name) (below : name ≠ ['.', '.']) :
    Names path name := by
  -- It is what comes after the last slash, or else that slash belongs to the trail.
  induction length : path.length using Nat.strongRecOn generalizing path with
  | ind size ih =>
    by_cases slash : '/' ∈ path
    · obtain ⟨above, rest, rfl, whole⟩ := exists_last_slash slash
      rw [segments_append_slash, List.getLast?_append] at last
      rcases found : (segments rest).getLast? with _ | other
      · rw [found, Option.none_or] at last
        have idle := trail_of_segments_eq_nil whole (List.getLast?_eq_none_iff.mp found)
        have shorter : above.length < size := by
          rw [← length, List.length_append, List.length_cons]
          omega
        obtain ⟨⟨directories, trail, rfl, top, idle'⟩, valid⟩ := ih _ shorter last rfl
        exact ⟨⟨directories, trail ++ '/' :: rest, List.append_assoc _ _ _, top,
          idle'.append idle⟩, valid⟩
      · rw [found, Option.some_or, Option.some.injEq] at last
        rw [last] at found
        obtain ⟨rfl, valid⟩ := isName_of_getLast?_segments whole found below
        exact ⟨⟨above ++ ['/'], [], by simp, Or.inr ⟨above, rfl⟩, .nil⟩, valid⟩
    · obtain ⟨rfl, valid⟩ := isName_of_getLast?_segments slash last below
      exact ⟨⟨[], [], by simp, Or.inl rfl, .nil⟩, valid⟩

/-- **The name of a file is found where a path has one.** -/
theorem fileName?_eq_some_iff {path name : List Char} :
    fileName? path = some name ↔ Names path name := by
  rw [fileName?, Option.filter_eq_some_iff, decide_eq_true_iff]
  constructor
  · rintro ⟨last, below⟩
    exact names_of_getLast?_segments last below
  · intro names
    obtain ⟨above, parts⟩ := names.segments_eq
    rw [parts]
    exact ⟨List.getLast?_concat, names.valid.below⟩

example : fileName? "games/../.tank.ch8/.".toList = some ".tank.ch8".toList := by decide +kernel

/-- A path leads to a file with one name. -/
theorem Names.unique {path name other : List Char} (names : Names path name)
    (names' : Names path other) : name = other :=
  Option.some.inj ((fileName?_eq_some_iff.mpr names).symm.trans (fileName?_eq_some_iff.mpr names'))

/-! ### Stems -/

/-- The last dot of a name, if it is not the first character, comes after the stem. -/
theorem exists_hasStem (name : List Char) : ∃ s, HasStem name s := by
  by_cases dot : '.' ∈ name.tail
  · cases name with
    | nil => contradiction
    | cons c rest =>
      obtain ⟨extension, before, reversed, last⟩ :=
        List.eq_append_cons_of_mem (List.mem_reverse.mpr dot)
      have parts : rest = before.reverse ++ '.' :: extension.reverse := by
        rw [← List.reverse_reverse rest]
        rw [List.tail_cons] at reversed
        rw [reversed]
        simp
      rw [parts]
      exact ⟨c :: before.reverse, .cut (List.cons_ne_nil _ _)
        fun member => last (List.mem_reverse.mp member)⟩
  · exact ⟨name, .whole dot⟩

theorem stem_of_hasStem {name s : List Char} (h : HasStem name s) : stem name = s := by
  cases h with
  | @cut _ extension nonempty last =>
    obtain ⟨c, before, reversed⟩ :=
      List.exists_cons_of_ne_nil (List.reverse_ne_nil_iff.mpr nonempty)
    have skipped : (s ++ '.' :: extension).reverse.dropWhile (· ≠ '.') = '.' :: c :: before := by
      rw [List.reverse_append, List.reverse_cons, List.append_assoc, List.dropWhile_append_of_pos]
      · rw [reversed]
        rfl
      · intro c member
        rw [decide_eq_true_iff]
        rintro rfl
        exact last (List.mem_reverse.mp member)
    rw [stem, skipped]
    exact (congrArg List.reverse reversed).symm.trans (List.reverse_reverse s)
  | whole dotless =>
    cases name with
    | nil => rfl
    | cons c rest =>
      have skipped : (c :: rest).reverse.dropWhile (· ≠ '.') = [c].dropWhile (· ≠ '.') := by
        rw [List.reverse_cons, List.dropWhile_append_of_pos]
        intro c member
        rw [decide_eq_true_iff]
        rintro rfl
        exact dotless (List.mem_reverse.mp member)
      rw [stem, skipped]
      by_cases dot : c = '.'
      · subst dot
        rfl
      · simp [dot]

/-- **What is found as the stem of a name is its stem.** -/
theorem stem_eq_iff {name s : List Char} : stem name = s ↔ HasStem name s := by
  refine ⟨?_, stem_of_hasStem⟩
  rintro rfl
  obtain ⟨s, h⟩ := exists_hasStem name
  rwa [stem_of_hasStem h]

example :
    stem ".tank.ch8".toList = ".tank".toList ∧ stem ".tank".toList = ".tank".toList := by
  decide +kernel

/-! ### What makes no difference -/

/-- Directories in front of a path make no difference to the name, -/
theorem Names.append_directories {path name : List Char} (names : Names path name)
    (directories : List Char) : Names (directories ++ '/' :: path) name := by
  obtain ⟨⟨above, trail, rfl, top, idle⟩, valid⟩ := names
  refine ⟨⟨directories ++ '/' :: above, trail, by simp, Or.inr ?_, idle⟩, valid⟩
  rcases top with rfl | ⟨higher, rfl⟩
  · exact ⟨directories, rfl⟩
  · exact ⟨directories ++ '/' :: higher, by simp⟩

/-- nor does a trail after it, also where there is no name. -/
theorem names_append_trail {path name trail : List Char} (idle : Trail trail) :
    Names (path ++ trail) name ↔ Names path name := by
  rw [← fileName?_eq_some_iff, ← fileName?_eq_some_iff, fileName?, fileName?,
    segments_append_trail idle]

/-- No letters are in a trail. -/
theorem Trail.lt {trail : List Char} (h : Trail trail) : ∀ c ∈ trail, c.toNat < 65 := by
  induction h with
  | nil => exact List.forall_mem_nil _
  | slash _ ih => exact List.forall_mem_cons.mpr ⟨by decide, ih⟩
  | dot _ ih => exact List.forall_mem_cons.mpr ⟨by decide, List.forall_mem_cons.mpr ⟨by decide, ih⟩⟩

theorem IsName.sameLetters {name other : List Char} (h : IsName name)
    (same : SameLetters name other) : IsName other where
  whole := fun slash => h.whole (same.mem_of_lt (by decide) slash)
  nonempty := by
    rintro rfl
    exact h.nonempty (same.symm.eq_of_lt (List.forall_mem_nil _))
  proper := by
    rintro rfl
    exact h.proper (same.symm.eq_of_lt (by simp))
  below := by
    rintro rfl
    exact h.below (same.symm.eq_of_lt (by simp))

/-- The name in a path changes with the case of the letters in the path, and no further. -/
theorem Names.sameLetters {path name other : List Char} (names : Names path name)
    (same : SameLetters path other) :
    ∃ name', Names other name' ∧ SameLetters name name' := by
  obtain ⟨⟨directories, trail, rfl, top, idle⟩, valid⟩ := names
  obtain ⟨front, trail', rfl, fronts, trails⟩ := same.exists_append
  obtain ⟨directories', name', rfl, above, names⟩ := fronts.exists_append
  obtain rfl := trails.eq_of_lt idle.lt
  refine ⟨name', ⟨⟨directories', trail', rfl, ?_, idle⟩, valid.sameLetters names⟩, names⟩
  rcases top with rfl | ⟨_, rfl⟩
  · exact Or.inl (above.eq_of_lt (List.forall_mem_nil _))
  · obtain ⟨above', slash, rfl, _, slashes⟩ := above.exists_append
    exact Or.inr ⟨above', by rw [slashes.eq_of_lt (by simp)]⟩

/-- The stem of a name changes with the case of the letters in the name, and no further. -/
theorem HasStem.sameLetters {name s other : List Char} (h : HasStem name s)
    (same : SameLetters name other) : ∃ s', HasStem other s' ∧ SameLetters s s' := by
  cases h with
  | cut nonempty last =>
    obtain ⟨s', ending, rfl, stems, endings⟩ := same.exists_append
    cases endings with
    | cons dots extensions =>
      obtain rfl := dots.eq_of_lt (by decide)
      refine ⟨s', .cut ?_ fun dot => last (SameLetters.mem_of_lt extensions (by decide) dot), stems⟩
      rintro rfl
      exact nonempty (stems.symm.eq_of_lt (List.forall_mem_nil _))
  | @whole name dotless =>
    have tails : SameLetters name.tail other.tail := by
      cases same with
      | nil => exact .nil
      | cons _ same => exact same
    exact ⟨other, .whole fun member => dotless (tails.mem_of_lt (by decide) member), same⟩

end Path

end Chip8
