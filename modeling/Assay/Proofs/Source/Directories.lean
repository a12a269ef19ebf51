/-
Which files belong to a module. The walk asks of each file by itself whether
something between the root and the file is ignored; told from the root
downwards, a directory belongs to the module when it is the root, or when it is
in a directory of the module and is neither set aside by its name nor a module
of its own (`Admitted`). A file belongs to the module when its directory does
and it has the ending of Go files, and the walk finds exactly these
(`mem_goFiles_iff`).
-/
import Assay.Proofs.Source.Walk

namespace Assay.Source

open Assay.Path Text

variable {disk : Disk} {root directory location : Location} {name : String}

-- ================================================================= names

/-- The name of a Go file: something, and the ending. -/
def IsGoName (name : String) : Prop := ∃ stem ≠ [], name.toList = stem ++ ['.', 'g', 'o']

theorem isGoName_iff : IsGoName name ↔ (splitName name).2.map String.ofList = some "go" := by
  rw [Option.map_eq_some_iff]
  constructor
  · rintro ⟨stem, hstem, hname⟩
    exact ⟨['g', 'o'], by rw [splitName_eq_iff.mpr ⟨hstem, hname, by decide⟩], rfl⟩
  · rintro ⟨suffix, hsplit, hsuffix⟩
    obtain rfl : suffix = ['g', 'o'] := String.ofList_inj.mp (hsuffix.trans rfl)
    obtain ⟨hstem, hname, -⟩ := splitName_eq_iff.mp (Prod.ext rfl hsplit)
    exact ⟨_, hstem, hname⟩

/-- The walk takes files for Go files by their names. -/
theorem extension?_pathOf_iff (hplain : ∀ part ∈ directory ++ [name], Plain part) :
    extension? (Disk.pathOf (directory ++ [name])) = some "go" ↔ IsGoName name := by
  rw [extension?, Disk.fileName?_pathOf hplain, List.getLast?_concat, isGoName_iff]
  rfl

/-- Names of directories that belong to no module: hidden ones, and those that
are set aside. -/
def SetAside (name : String) : Prop :=
  name.startsWith "." ∨ name.startsWith "_" ∨ name = "vendor" ∨ name = "testdata"

-- =========================================================== directories

/-- A directory directly holds a Go file of this name. -/
def HoldsGo (disk : Disk) (directory : Location) (name : String) : Prop :=
  IsGoName name ∧ ∃ content, disk.entry? (directory ++ [name]) = some (.file content)

/-- A directory has a module file of its own. -/
def IsModuleRoot (disk : Disk) (directory : Location) : Prop :=
  ∃ content, disk.entry? (directory ++ [moduleFileName]) = some (.file content)

/-- The directories of a module. The root is one whatever it is called. -/
inductive Admitted (disk : Disk) (root : Location) : Location → Prop where
  | root : Admitted disk root root
  | inside {directory : Location} {name : String} (above : Admitted disk root directory)
      (entry : disk.entry? (directory ++ [name]) = some .directory) (kept : ¬ SetAside name)
      (own : ¬ IsModuleRoot disk (directory ++ [name])) :
      Admitted disk root (directory ++ [name])

/-- Directories lead to a directory of the module, as they do to its root. -/
theorem Admitted.rooted (hroot : disk.Rooted root) (hentry : disk.entry? root = some .directory)
    (hadmitted : Admitted disk root directory) :
    disk.Rooted directory ∧ disk.entry? directory = some .directory ∧ root <+: directory := by
  induction hadmitted with
  | root => exact ⟨hroot, hentry, List.prefix_refl root⟩
  | @inside directory name above entry kept own ih =>
      obtain ⟨hrooted, hdirectory, hlead⟩ := ih
      exact ⟨Disk.rooted_concat_iff.mpr ⟨hrooted, hdirectory⟩, entry,
        hlead.trans (List.prefix_append _ _)⟩

theorem Admitted.plain (hdisk : disk.WellFormed) (hroot : disk.Rooted root)
    (hentry : disk.entry? root = some .directory) (hadmitted : Admitted disk root directory) :
    ∀ name ∈ directory, Plain name := by
  obtain ⟨-, hthere, -⟩ := hadmitted.rooted hroot hentry
  exact hdisk.plain_of_ne_none (by rw [hthere]; exact Option.some_ne_none _)

/-- What the walk ignores: directories set aside by their names, and modules of
their own. -/
theorem isIgnored_eq_false_iff (hdisk : disk.WellFormed)
    (hrooted : disk.Rooted (directory ++ [name]))
    (hentry : disk.entry? (directory ++ [name]) = some .directory) :
    isIgnored disk (directory ++ [name]) = false
      ↔ ¬ SetAside name ∧ ¬ IsModuleRoot disk (directory ++ [name]) := by
  have hplain : ∀ part ∈ directory ++ [name] ++ [moduleFileName], Plain part := by
    intro part hmem
    rcases List.mem_append.mp hmem with hmem | hmem
    · exact hdisk.plain_of_ne_none (by rw [hentry]; exact Option.some_ne_none _) part hmem
    · rw [List.mem_singleton.mp hmem]
      exact plain_moduleFileName
  have hbelow : disk.Rooted (directory ++ [name] ++ [moduleFileName]) :=
    Disk.rooted_concat_iff.mpr ⟨hrooted, hentry⟩
  have hown : disk.isFile (Disk.pathOf (directory ++ [name] ++ [moduleFileName])) = true
      ↔ IsModuleRoot disk (directory ++ [name]) := by
    rw [Disk.isFile_pathOf_iff hplain, and_iff_right hbelow]
    rfl
  unfold isIgnored
  rw [List.getLast?_concat]
  dsimp only
  rw [← Bool.not_eq_true, ← hown, ← not_or]
  simp only [SetAside, Bool.or_eq_true, beq_iff_eq, or_assoc]

/-- What is on the way to a directory of the module is not ignored. -/
theorem admitted_iff (hdisk : disk.WellFormed) (hroot : disk.Rooted root)
    (hentry : disk.entry? root = some .directory) :
    Admitted disk root directory ↔ root <+: directory ∧ disk.Rooted directory
      ∧ disk.entry? directory = some .directory
      ∧ ∀ above, root <+: above → above ≠ root → above <+: directory →
        isIgnored disk above = false := by
  constructor
  · intro hadmitted
    obtain ⟨hrooted, hdirectory, hlead⟩ := hadmitted.rooted hroot hentry
    refine ⟨hlead, hrooted, hdirectory, ?_⟩
    induction hadmitted with
    | root =>
        intro above hfrom hother hto
        exact absurd (hto.eq_of_length_le hfrom.length_le) hother
    | @inside directory name above entry kept own ih =>
        obtain ⟨hrooted', hdirectory', hlead'⟩ := above.rooted hroot hentry
        intro higher hfrom hother hto
        rcases List.prefix_concat_iff.mp hto with rfl | hto
        · exact (isIgnored_eq_false_iff hdisk hrooted entry).mpr ⟨kept, own⟩
        · exact ih hrooted' hdirectory' hlead' higher hfrom hother hto
  · rintro ⟨hlead, hrooted, hdirectory, hkept⟩
    obtain ⟨names, rfl⟩ := hlead
    induction names using List.reverseRecOn with
    | nil =>
        rw [List.append_nil]
        exact Admitted.root
    | append_singleton names name ih =>
        rw [← List.append_assoc] at hrooted hdirectory hkept ⊢
        obtain ⟨hrooted', habove⟩ := Disk.rooted_concat_iff.mp hrooted
        have hfree := hkept (root ++ names ++ [name])
          ((List.prefix_append _ _).trans (List.prefix_append _ _)) (by simp) (List.prefix_refl _)
        obtain ⟨hname, hown⟩ := (isIgnored_eq_false_iff hdisk hrooted hdirectory).mp hfree
        refine Admitted.inside (ih hrooted' habove fun above hfrom hother hto => ?_) hdirectory
          hname hown
        exact hkept above hfrom hother (hto.trans (List.prefix_append _ _))

-- =============================================================== the walk

/-- The walk looks at what is on the way from the root to a file. -/
theorem isReached_concat_iff (hlead : root <+: directory) :
    isReached disk root (directory ++ [name]) = true
      ↔ ∀ above, root <+: above → above ≠ root → above <+: directory →
        isIgnored disk above = false := by
  unfold isReached
  simp only [List.all_eq_true, List.mem_range, Bool.or_eq_true, decide_eq_true_eq,
    Bool.not_eq_true', List.length_append, List.length_singleton]
  constructor
  · intro hall above hfrom hother hto
    have hlength := hto.length_le
    have hlonger : root.length < above.length := by
      refine lt_of_le_of_ne hfrom.length_le fun hsame => hother ?_
      exact (hfrom.eq_of_length hsame).symm
    have htake : (directory ++ [name]).take above.length = above := by
      rw [List.take_append_of_le_length hlength, ← List.prefix_iff_eq_take.mp hto]
    have hsome := hall above.length (by omega)
    rw [htake] at hsome
    exact hsome.resolve_left (by omega)
  · intro hall length hlength
    by_cases hshort : length ≤ root.length
    · exact Or.inl hshort
    · refine Or.inr ?_
      rw [List.take_append_of_le_length (by omega)]
      refine hall _ ?_ ?_ (List.take_prefix _ _)
      · refine List.prefix_of_prefix_length_le hlead (List.take_prefix _ _) ?_
        rw [List.length_take]
        omega
      · intro hsame
        have := congrArg List.length hsame
        rw [List.length_take] at this
        omega

/-- The walk finds the Go files of the module's directories, and no others. -/
theorem mem_goFiles_iff (hdisk : disk.WellFormed) (hroot : disk.Rooted root)
    (hentry : disk.entry? root = some .directory) :
    location ∈ goFiles disk root ↔ ∃ directory name, location = directory ++ [name]
      ∧ Admitted disk root directory ∧ HoldsGo disk directory name := by
  rw [mem_goFiles]
  constructor
  · rintro ⟨hlisted, hlength, htake, hfile, hgo, hreached⟩
    have hplain := hdisk.plain location hlisted
    obtain ⟨hrooted, hcontent⟩ := (Disk.isFile_pathOf_iff hplain).mp hfile
    cases location using List.reverseRecOn with
    | nil => cases hlength
    | append_singleton directory name =>
        obtain ⟨habove, hdirectory⟩ := Disk.rooted_concat_iff.mp hrooted
        rw [List.length_append, List.length_singleton] at hlength
        rw [List.take_append_of_le_length (by omega)] at htake
        have hlead : root <+: directory := List.prefix_iff_eq_take.mpr htake.symm
        refine ⟨directory, name, rfl, ?_, (extension?_pathOf_iff hplain).mp hgo, hcontent⟩
        exact (admitted_iff hdisk hroot hentry).mpr
          ⟨hlead, habove, hdirectory, (isReached_concat_iff hlead).mp hreached⟩
  · rintro ⟨directory, name, rfl, hadmitted, hgo, content, hcontent⟩
    obtain ⟨hlead, habove, hdirectory, hkept⟩ := (admitted_iff hdisk hroot hentry).mp hadmitted
    have hthere : disk.entry? (directory ++ [name]) ≠ none := by
      rw [hcontent]
      exact Option.some_ne_none _
    have hplain := hdisk.plain_of_ne_none hthere
    have hrooted : disk.Rooted (directory ++ [name]) :=
      Disk.rooted_concat_iff.mpr ⟨habove, hdirectory⟩
    refine ⟨Disk.mem_locations_of_ne_none (by simp) hthere, ?_, ?_,
      (Disk.isFile_pathOf_iff hplain).mpr ⟨hrooted, content, hcontent⟩,
      (extension?_pathOf_iff hplain).mpr hgo, (isReached_concat_iff hlead).mpr hkept⟩
    · have := hlead.length_le
      rw [List.length_append, List.length_singleton]
      omega
    · rw [List.take_append_of_le_length hlead.length_le, ← List.prefix_iff_eq_take.mp hlead]

end Assay.Source
