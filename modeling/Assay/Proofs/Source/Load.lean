/-
Loading, read backwards. What `load` returns is made of four answers: where the
root is, what its module file declares, what the files of the walk hold, and a
tree for each of them. A module is loaded exactly when all four are there, and
`moduleOf` is then the module, so nothing else has to open the loading.
-/
import Assay.Source.Load
import Assay.Proofs.Catalog
import Assay.Proofs.Disk
import Assay.Proofs.Syntax.Faults

namespace Assay.Source

open Assay.Syntax

variable {disk : Disk} {root modulePath : String} {location : Location} {module : Module}
  {sources : List (Location × List Char)} {files : List (Location × File)}

-- ============================================================ the module

/-- The directories of files, each once. -/
def directoriesOf (files : List (Location × File)) : List Location :=
  (files.map (·.1.dropLast)).eraseDups

/-- The module of the files below a location. -/
def moduleOf (disk : Disk) (location : Location) (modulePath : String)
    (files : List (Location × File)) : Module where
  root := Disk.pathOf location
  path := modulePath
  packages := Catalog.ofList (((directoriesOf files).map fun directory =>
    packageAt modulePath location directory files).map fun package => (package.id, package))
  disk := disk

/-- Files have no faults exactly when all of them parse. -/
theorem flatMap_fileFaults_eq_nil_iff :
    sources.flatMap fileFaults = [] ↔ ∀ file ∈ sources, (parse? file.2).isSome := by
  simp only [List.flatMap_eq_nil_iff, fileFaults, List.map_eq_nil_iff, faults_eq_nil_iff]

/-- Files that can be read make a module, unless one of them has no tree. -/
theorem load_of_sources (hlocate : disk.locate root = .ok location)
    (hpath : readModulePath disk (Disk.pathOf location) = .ok modulePath)
    (hsources : (goFiles disk location).mapM (readSource disk) = .ok sources) :
    load disk root = if ∀ file ∈ sources, (parse? file.2).isSome
      then .ok (moduleOf disk location modulePath (sources.filterMap parsedFile?))
      else .error (.faulty (sources.flatMap fileFaults)) := by
  have hfaultless : (!(sources.flatMap fileFaults).isEmpty) = true
      ↔ ¬ ∀ file ∈ sources, (parse? file.2).isSome := by
    rw [Bool.not_eq_true', Bool.eq_false_iff, Ne, List.isEmpty_iff, flatMap_fileFaults_eq_nil_iff]
  unfold load
  rw [hlocate]
  simp only [bind, Except.bind, pure, Except.pure, hpath, hsources, hfaultless]
  by_cases hall : ∀ file ∈ sources, (parse? file.2).isSome
  · rw [if_pos hall, if_neg (not_not_intro hall)]
    rfl
  · rw [if_neg hall, if_pos hall]
    rfl

/-- Without a path there is no module. -/
theorem load_of_path_error {fault : LoadError} (hlocate : disk.locate root = .ok location)
    (hpath : readModulePath disk (Disk.pathOf location) = .error fault) :
    load disk root = .error fault := by
  unfold load
  rw [hlocate]
  simp only [bind, Except.bind, pure, Except.pure, hpath]

/-- A file that cannot be read is reported before any fault is. -/
theorem load_of_sources_error {fault : LoadError} (hlocate : disk.locate root = .ok location)
    (hpath : readModulePath disk (Disk.pathOf location) = .ok modulePath)
    (hsources : (goFiles disk location).mapM (readSource disk) = .error fault) :
    load disk root = .error fault := by
  unfold load
  rw [hlocate]
  simp only [bind, Except.bind, pure, Except.pure, hpath, hsources]

theorem load_eq_ok_iff : load disk root = .ok module ↔ ∃ location modulePath sources,
    disk.locate root = .ok location
      ∧ readModulePath disk (Disk.pathOf location) = .ok modulePath
      ∧ (goFiles disk location).mapM (readSource disk) = .ok sources
      ∧ (∀ file ∈ sources, (parse? file.2).isSome)
      ∧ module = moduleOf disk location modulePath (sources.filterMap parsedFile?) := by
  constructor
  · intro hload
    cases hlocate : disk.locate root with
    | error fault =>
        rw [load, hlocate] at hload
        cases hload
    | ok location =>
        cases hpath : readModulePath disk (Disk.pathOf location) with
        | error fault =>
            rw [load_of_path_error hlocate hpath] at hload
            cases hload
        | ok modulePath =>
            cases hsources : (goFiles disk location).mapM (readSource disk) with
            | error fault =>
                rw [load_of_sources_error hlocate hpath hsources] at hload
                cases hload
            | ok sources =>
                rw [load_of_sources hlocate hpath hsources] at hload
                split at hload
                · next hall =>
                    exact ⟨location, modulePath, sources, rfl, hpath, hsources, hall,
                      (Except.ok.inj hload).symm⟩
                · cases hload
  · rintro ⟨location, modulePath, sources, hlocate, hpath, hsources, hall, rfl⟩
    rw [load_of_sources hlocate hpath hsources, if_pos hall]

-- ============================================================== packages

theorem packages_moduleOf : (moduleOf disk location modulePath files).packages
    = Catalog.ofList ((directoriesOf files).map fun directory =>
      (packageId modulePath location directory,
        packageAt modulePath location directory files)) := by
  rw [moduleOf, List.map_map]
  rfl

theorem mem_directoriesOf {directory : Location} : directory ∈ directoriesOf files ↔
    ∃ file ∈ files, file.1.dropLast = directory := by
  rw [directoriesOf, List.mem_eraseDups, List.mem_map]

/-- The packages of a module are those of the directories of its files. -/
theorem mem_entries_moduleOf {entry : String × Package}
    (hmem : entry ∈ (moduleOf disk location modulePath files).packages.entries) :
    ∃ directory ∈ directoriesOf files,
      entry.2 = packageAt modulePath location directory files ∧ entry.1 = entry.2.id := by
  rw [packages_moduleOf] at hmem
  obtain ⟨directory, hdirectory, rfl⟩ := List.mem_map.mp (Catalog.mem_entries_ofList hmem)
  exact ⟨directory, hdirectory, rfl, rfl⟩

/-- A package is found under its own import path. -/
theorem id_of_package? (hload : load disk root = .ok module) {id : String} {package : Package}
    (hfound : module.package? id = some package) : package.id = id := by
  obtain ⟨location, modulePath, sources, -, -, -, -, rfl⟩ := load_eq_ok_iff.mp hload
  obtain ⟨entry, hentry, rfl⟩ := Option.map_eq_some_iff.mp hfound
  obtain ⟨directory, -, -, hkey⟩ := mem_entries_moduleOf (List.mem_of_find?_eq_some hentry)
  have hsame := List.find?_some hentry
  rw [← hkey]
  exact eq_of_beq hsame

-- ========================================================= listed in order

/-- The files of a walk, in the order in which the disk lists them. -/
def listedFiles (disk : Disk) (location : Location) : List Location :=
  (disk.entries.map (·.1)).filter fun other =>
    (decide (location.length < other.length) && other.take location.length == location)
      && (disk.isFile (Disk.pathOf other)
        && Path.extension? (Disk.pathOf other) == some "go" && isReached disk location other)

/-- A disk that lists its entries in the order of a walk is walked as listed. -/
theorem goFiles_of_ordered
    (hordered : (disk.entries.map (·.1)).Pairwise fun a b => Disk.precedes a b = true) :
    goFiles disk location = listedFiles disk location := by
  rw [goFiles, Disk.below, List.mergeSort_of_pairwise (hordered.sublist List.filter_sublist),
    List.filter_filter]
  unfold listedFiles
  congr 1
  funext other
  exact Bool.and_comm _ _

/-- The module on such a disk, from answers that can be computed. -/
theorem load_of_ordered
    (hordered : (disk.entries.map (·.1)).Pairwise fun a b => Disk.precedes a b = true)
    (hlocate : (disk.locate root).toOption = some location)
    (hpath : (readModulePath disk (Disk.pathOf location)).toOption = some modulePath)
    (hsources : ((listedFiles disk location).mapM (readSource disk)).toOption = some sources)
    (hall : ∀ file ∈ sources, (parse? file.2).isSome) :
    load disk root = .ok (moduleOf disk location modulePath (sources.filterMap parsedFile?)) := by
  rw [← goFiles_of_ordered hordered] at hsources
  rw [load_of_sources (eq_ok_of_toOption hlocate) (eq_ok_of_toOption hpath)
    (eq_ok_of_toOption hsources), if_pos hall]

end Assay.Source
