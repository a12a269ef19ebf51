/-
What a load says of files that do not fit the grammar. It judges when all files of
the module are read, and then of all of them: its list goes through the files in the
order of the walk, and through the outermost faults of each file's tree in the order
of the tree (`Listing`). So the files on the list are those whose trees have a fault,
at whatever depth, and a module that is loaded has no such file.
-/
import Assay.Proofs.Source.Packages

namespace Assay.Source

open Syntax

variable {disk : Disk} {path modulePath : String} {root location : Location}
  {sources : List (Location × List Char)} {faults : List FileFault}

-- ============================================================== the lists

/-- The faults of files: for each file, in order, one entry for each outermost fault
of its tree. An entry says which file it is, where in it, and what is wrong. -/
inductive Listing : (sources : List (Location × List Char)) → List FileFault → Prop where
  | nil : Listing [] []
  | file {location : Location} {source : List Char} {labels : List FaultLabel}
      {sources : List (Location × List Char)} {faults : List FileFault}
      (own : (draft source).Lists labels) (rest : Listing sources faults) :
      Listing ((location, source) :: sources)
        (labels.map (fun label =>
          ⟨Disk.pathOf location, Fault.ofOffset source label.start label.kind⟩) ++ faults)

theorem listing_iff : Listing sources faults ↔ faults = sources.flatMap fileFaults := by
  have hfile (location : Location) (source : List Char) : (draft source).faults.map (fun label =>
      (⟨Disk.pathOf location, Fault.ofOffset source label.start label.kind⟩ : FileFault))
        = fileFaults (location, source) := by
    rw [fileFaults, Syntax.faults, List.map_map]
    rfl
  constructor
  · intro listing
    induction listing with
    | nil => rfl
    | @file location source labels sources faults own rest ih =>
        rw [Draft.lists_iff.mp own, ih, hfile, List.flatMap_cons]
  · rintro rfl
    induction sources with
    | nil => exact .nil
    | cons file sources ih =>
        rw [List.flatMap_cons, ← hfile]
        exact .file (Draft.lists_faults _) ih

/-- A file has an entry exactly when its tree has a fault. -/
theorem fileFaults_ne_nil_iff {file : Location × List Char} :
    fileFaults file ≠ [] ↔ (draft file.2).IsFaulty := by
  rw [fileFaults, Ne, List.map_eq_nil_iff, faults_eq_nil_iff, Option.not_isSome_iff_eq_none,
    isFaulty_draft_iff]

/-- The files on the list are those with a fault: entries of one file are not taken for
entries of another. -/
theorem exists_fileFault_iff (hdistinct : ∀ file ∈ sources, ∀ other ∈ sources,
      Disk.pathOf other.1 = Disk.pathOf file.1 → other = file)
    {file : Location × List Char} (hfile : file ∈ sources) :
    (∃ found ∈ sources.flatMap fileFaults, found.path = Disk.pathOf file.1)
      ↔ (draft file.2).IsFaulty := by
  rw [← fileFaults_ne_nil_iff]
  constructor
  · rintro ⟨found, hfound, hpath⟩
    obtain ⟨other, hother, hfound⟩ := List.mem_flatMap.mp hfound
    obtain ⟨fault, -, rfl⟩ := List.mem_map.mp hfound
    rw [← hdistinct file hfile other hother hpath]
    exact List.ne_nil_of_mem hfound
  · intro hsome
    obtain ⟨found, hfound⟩ := List.exists_mem_of_ne_nil _ hsome
    refine ⟨found, List.mem_flatMap.mpr ⟨file, hfile, hfound⟩, ?_⟩
    obtain ⟨fault, -, rfl⟩ := List.mem_map.mp hfound
    rfl

-- ============================================================ the loading

/-- The Go files of a module with what they hold, in the order of the walk. -/
structure Walk (disk : Disk) (root : Location) (sources : List (Location × List Char)) : Prop where
  order : (sources.map (·.1)).Pairwise (· < ·)
  mem_iff : ∀ location source, (location, source) ∈ sources ↔
    (∃ directory name, location = directory ++ [name]
      ∧ Admitted disk root directory ∧ HoldsGo disk directory name)
    ∧ disk.readText (Disk.pathOf location) = .ok source

/-- When all Go files of a module can be read, they are. -/
theorem exists_walk (hdisk : disk.WellFormed) (hroot : disk.Rooted root)
    (hentry : disk.entry? root = some .directory)
    (hread : ∀ directory name, Admitted disk root directory → HoldsGo disk directory name →
      ∃ source, disk.readText (Disk.pathOf (directory ++ [name])) = .ok source) :
    ∃ sources, (goFiles disk root).mapM (readSource disk) = .ok sources
      ∧ Walk disk root sources := by
  obtain ⟨sources, hsources⟩ : ∃ sources, (goFiles disk root).mapM (readSource disk)
      = .ok sources := by
    refine exists_mapM_ok fun location hlocation => ?_
    obtain ⟨directory, name, rfl, hadmitted, hgo⟩ :=
      (mem_goFiles_iff hdisk hroot hentry).mp hlocation
    obtain ⟨source, hsource⟩ := hread directory name hadmitted hgo
    exact ⟨(directory ++ [name], source), readSource_eq_ok_iff.mpr ⟨rfl, hsource⟩⟩
  obtain ⟨hplaces, htexts⟩ := places_of_mapM hsources
  refine ⟨sources, hsources, ?_, fun location source => ?_⟩
  · rw [hplaces]
    exact (pairwise_goFiles.and (nodup_goFiles hdisk)).imp fun h => lt_of_le_of_ne h.1 h.2
  · rw [← mem_goFiles_iff hdisk hroot hentry, ← hplaces]
    constructor
    · intro hmem
      have htext := htexts _ hmem
      exact ⟨List.mem_map.mpr ⟨_, hmem, rfl⟩, htext⟩
    · rintro ⟨hmem, htext⟩
      obtain ⟨⟨_, other⟩, hfile, rfl⟩ := List.mem_map.mp hmem
      rwa [← Except.ok.inj ((htexts _ hfile).symm.trans htext)]

/-- Files of a walk have paths of their own. -/
theorem Walk.eq_of_pathOf (hdisk : disk.WellFormed) (walk : Walk disk root sources) :
    ∀ file ∈ sources, ∀ other ∈ sources,
      Disk.pathOf other.1 = Disk.pathOf file.1 → other = file := by
  rintro ⟨location, source⟩ hfile ⟨other, text⟩ hother hpath
  obtain ⟨⟨directory, name, rfl, -, hgo⟩, hsource⟩ := (walk.mem_iff _ _).mp hfile
  obtain ⟨⟨directory', name', rfl, -, hgo'⟩, htext⟩ := (walk.mem_iff _ _).mp hother
  have hplace := Disk.parts_pathOf_inj (hgo'.plain hdisk) (hgo.plain hdisk)
    (congrArg Path.parts hpath)
  dsimp only at hpath
  rw [hpath] at htext
  rw [hplace, Except.ok.inj (htext.symm.trans hsource)]

/-- A module whose files can be read is not loaded exactly when the tree of one of them
has a fault. Then every file that has a fault is on the list with each of its outermost
ones, and no other file is. The files of a module that is loaded have plain trees.

The walk that lists the faults of a tree is right for every tree, also where faults are
below faults: it answers the outermost ones and no other list would do. -/
theorem load_faults (hdisk : disk.WellFormed) (hlocate : disk.locate path = .ok root)
    (hpath : readModulePath disk (Disk.pathOf root) = .ok modulePath)
    (hread : ∀ directory name, Admitted disk root directory → HoldsGo disk directory name →
      ∃ source, disk.readText (Disk.pathOf (directory ++ [name])) = .ok source) :
    (∀ (tree : Draft) labels, tree.Lists labels ↔ labels = tree.faults)
      ∧ ∃ sources, Walk disk root sources
        ∧ ((∃ faults, load disk path = .error (.faulty faults))
            ↔ ∃ file ∈ sources, (draft file.2).IsFaulty)
        ∧ (∀ faults, load disk path = .error (.faulty faults) →
            Listing sources faults ∧ ∀ file ∈ sources,
              (∃ found ∈ faults, found.path = Disk.pathOf file.1) ↔ (draft file.2).IsFaulty)
        ∧ ∀ module, load disk path = .ok module →
            ∀ package ∈ module.allPackages, ∀ file ∈ package.files,
              (draft file.source).tree? = some file.tree ∧ ¬ (draft file.source).IsFaulty := by
  obtain ⟨hroot, hentry⟩ := directory_of_readModulePath hdisk hlocate hpath
  obtain ⟨sources, hsources, walk⟩ := exists_walk hdisk hroot hentry hread
  have hload := load_of_sources hlocate hpath hsources
  have hfaulty : (¬ ∀ file ∈ sources, (parse? file.2).isSome)
      ↔ ∃ file ∈ sources, (draft file.2).IsFaulty := by
    simp [isFaulty_draft_iff]
  refine ⟨fun _ _ => Draft.lists_iff, sources, walk, ?_, ?_, ?_⟩
  · rw [hload, ← hfaulty]
    split
    · next hall => exact iff_of_false nofun (not_not_intro hall)
    · next hnone => exact iff_of_true ⟨_, rfl⟩ hnone
  · intro faults hfaults
    rw [hload] at hfaults
    split at hfaults
    · cases hfaults
    · obtain rfl := LoadError.faulty.inj (Except.error.inj hfaults)
      exact ⟨listing_iff.mpr rfl,
        fun file hfile => exists_fileFault_iff (walk.eq_of_pathOf hdisk) hfile⟩
  · intro module hmodule package hpackage file hfile
    rw [tree?_draft, isFaulty_draft_iff, parse?_of_load hdisk hmodule hpackage hfile]
    exact ⟨rfl, Option.some_ne_none _⟩

/-- A file that breaks off. -/
def brokenText : List Char := "package stall\n\nfunc A( \x7b\n".toList

/-- A file that lacks an operand. -/
def lackingText : List Char := "package stall\n\nvar C = 1 +\n".toList

/-- A module with these two files, and a good one between them. -/
def stallDisk : Disk where
  entries := [(["stall"], .directory),
    (["stall", "a.go"], .file (.text brokenText)),
    (["stall", "b.go"], .file (.text "package stall\n".toList)),
    (["stall", "c.go"], .file (.text lackingText)),
    (["stall", "go.mod"], .file (.text "module stall\n".toList))]

/-- A tree with a fault below a fault, and another one beside them. -/
def nestedDraft : Draft :=
  .node ⟨.sourceFile, none, 0, 12⟩
    [.fault ⟨.unexpected, 0, 9⟩ [.node ⟨.block, none, 2, 8⟩ [.fault ⟨.missing, 4, 4⟩ []]],
      .fault ⟨.missing, 12, 12⟩ []]

/-- The first and the last file are listed, the good one is not. In a tree the fault below
another is passed by, and the one beside it is not. -/
theorem load_faults_stall : stallDisk.WellFormed
    ∧ nestedDraft.IsFault [0, 0, 0] ⟨.missing, 4, 4⟩
    ∧ nestedDraft.Lists [⟨.unexpected, 0, 9⟩, ⟨.missing, 12, 12⟩]
    ∧ ∃ faults, load stallDisk "/stall" = .error (.faulty faults)
      ∧ (∃ found ∈ faults, found.path = "/stall/a.go")
      ∧ (∃ found ∈ faults, found.path = "/stall/c.go")
      ∧ ¬ ∃ found ∈ faults, found.path = "/stall/b.go" := by
  have hdisk : stallDisk.WellFormed := by decide +kernel
  have hlocate : stallDisk.locate "/stall" = .ok ["stall"] := eq_ok_of_toOption (by decide +kernel)
  have hpath : readModulePath stallDisk (Disk.pathOf ["stall"]) = .ok "stall" :=
    eq_ok_of_toOption (by decide +kernel)
  obtain ⟨hroot, hentry⟩ := directory_of_readModulePath hdisk hlocate hpath
  have hread : ∀ directory name, Admitted stallDisk ["stall"] directory →
      HoldsGo stallDisk directory name →
      ∃ source, stallDisk.readText (Disk.pathOf (directory ++ [name])) = .ok source := by
    intro directory name hadmitted hgo
    have hmem := (mem_goFiles_iff hdisk hroot hentry).mpr ⟨directory, name, rfl, hadmitted, hgo⟩
    rw [goFiles_of_ordered (by decide +kernel)] at hmem
    have hall : ∀ location ∈ listedFiles stallDisk ["stall"],
        (stallDisk.readText (Disk.pathOf location)).toOption.isSome := by decide +kernel
    obtain ⟨source, hsource⟩ := Option.isSome_iff_exists.mp (hall _ hmem)
    exact ⟨source, eq_ok_of_toOption hsource⟩
  obtain ⟨hlists, sources, walk, hfails, hlisted, -⟩ := load_faults hdisk hlocate hpath hread
  have hfile (name : String) (text : List Char) (hgo : HoldsGo stallDisk ["stall"] name)
      (htext : (stallDisk.readText (Disk.pathOf ["stall", name])).toOption = some text) :
      (["stall", name], text) ∈ sources :=
    (walk.mem_iff _ _).mpr ⟨⟨["stall"], name, rfl, .root, hgo⟩, eq_ok_of_toOption htext⟩
  have hbroken := hfile "a.go" brokenText ⟨⟨['a'], by decide, by decide⟩, _, rfl⟩ (by decide +kernel)
  have hgood := hfile "b.go" "package stall\n".toList ⟨⟨['b'], by decide, by decide⟩, _, rfl⟩
    (by decide +kernel)
  have hlacking := hfile "c.go" lackingText ⟨⟨['c'], by decide, by decide⟩, _, rfl⟩
    (by decide +kernel)
  have hfaulty : (draft brokenText).IsFaulty := isFaulty_draft_iff.mpr (by decide +kernel)
  have hfaulty' : (draft lackingText).IsFaulty := isFaulty_draft_iff.mpr (by decide +kernel)
  obtain ⟨faults, hfaults⟩ := hfails.mpr ⟨_, hbroken, hfaulty⟩
  obtain ⟨-, hfiles⟩ := hlisted faults hfaults
  refine ⟨hdisk, ⟨[], rfl⟩, (hlists nestedDraft _).mpr rfl, faults, hfaults,
    (hfiles _ hbroken).mpr hfaulty, (hfiles _ hlacking).mpr hfaulty', fun hfound => ?_⟩
  have hnone := isFaulty_draft_iff.mp ((hfiles _ hgood).mp hfound)
  revert hnone
  decide +kernel

end Assay.Source
