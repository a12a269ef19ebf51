/-
A module without its test files is the module of the other files: what a walk
reads besides tests determines it. For that every package has to have a file
that holds no tests, since else it is there because of its tests, and has its
name from them. Disks that are the same besides test files are thus loaded as
modules that are the same without them.
-/
import Assay.Proofs.Source.Walk

namespace Assay.Source

open Syntax Text

variable {disk other : Disk} {root location directory : Location} {modulePath : String}
  {sources : List (Location × List Char)} {files : List (Location × File)}

-- =============================================================== sources

/-- Reading one thing after the other ends well when all can be read. -/
theorem mapM_cons_eq_ok_iff {ε α β : Type} {read : α → Except ε β} {first : α} {later : List α}
    {found : List β} : (first :: later).mapM read = .ok found ↔
      ∃ one rest, read first = .ok one ∧ later.mapM read = .ok rest ∧ found = one :: rest := by
  constructor
  · intro hread
    rw [List.mapM_cons] at hread
    cases hone : read first with
    | error fault =>
        rw [hone] at hread
        cases hread
    | ok one =>
        rw [hone] at hread
        cases hrest : later.mapM read with
        | error fault =>
            rw [hrest] at hread
            cases hread
        | ok rest =>
            rw [hrest] at hread
            exact ⟨one, rest, rfl, rfl, (Except.ok.inj hread).symm⟩
  · rintro ⟨one, rest, hone, hrest, rfl⟩
    rw [List.mapM_cons, hone, hrest]
    rfl

/-- What can be read one by one can be read one after the other. -/
theorem exists_mapM_ok {ε α β : Type} {read : α → Except ε β} {items : List α}
    (hall : ∀ item ∈ items, ∃ found, read item = .ok found) :
    ∃ found, items.mapM read = .ok found := by
  induction items with
  | nil => exact ⟨[], rfl⟩
  | cons item items ih =>
      obtain ⟨⟨one, hone⟩, hall⟩ := List.forall_mem_cons.mp hall
      obtain ⟨rest, hrest⟩ := ih hall
      exact ⟨one :: rest, mapM_cons_eq_ok_iff.mpr ⟨one, rest, hone, hrest, rfl⟩⟩

/-- When not all can be read one after the other, the fault is that of one of
them. -/
theorem exists_of_mapM_error {ε α β : Type} {read : α → Except ε β} {items : List α} {fault : ε}
    (hread : items.mapM read = .error fault) : ∃ item ∈ items, read item = .error fault := by
  induction items with
  | nil => cases hread
  | cons item items ih =>
      rw [List.mapM_cons] at hread
      cases hone : read item with
      | error other =>
          rw [hone] at hread
          obtain rfl := Except.error.inj hread
          exact ⟨item, List.mem_cons_self, hone⟩
      | ok one =>
          cases hrest : items.mapM read with
          | error other =>
              rw [hone, hrest] at hread
              obtain rfl := Except.error.inj hread
              obtain ⟨later, hlater, hfault⟩ := ih hrest
              exact ⟨later, List.mem_cons_of_mem _ hlater, hfault⟩
          | ok rest =>
              rw [hone, hrest] at hread
              cases hread

section Reading

variable {read more : Location → Except LoadError (Location × List Char)}
  {locations : List Location}

/-- Reading fewer files is reading these files. -/
theorem mapM_filter (hplace : ∀ location source, read location = .ok source → source.1 = location)
    (keep : Location → Bool) (hread : locations.mapM read = .ok sources) :
    (locations.filter keep).mapM read = .ok (sources.filter (keep ·.1)) := by
  induction locations generalizing sources with
  | nil =>
      obtain rfl := Except.ok.inj hread
      rfl
  | cons location locations ih =>
      obtain ⟨source, rest, hsource, hrest, rfl⟩ := mapM_cons_eq_ok_iff.mp hread
      rw [List.filter_cons, List.filter_cons, hplace location source hsource]
      split
      · exact mapM_cons_eq_ok_iff.mpr ⟨source, _, hsource, ih hrest, rfl⟩
      · exact ih hrest

theorem mapM_congr_ok
    (hsame : ∀ location ∈ locations, ∀ source, read location = .ok source →
      more location = .ok source)
    (hread : locations.mapM read = .ok sources) : locations.mapM more = .ok sources := by
  induction locations generalizing sources with
  | nil => exact hread
  | cons location locations ih =>
      obtain ⟨hhead, hrest⟩ := List.forall_mem_cons.mp hsame
      obtain ⟨source, rest, hsource, hsources, rfl⟩ := mapM_cons_eq_ok_iff.mp hread
      exact mapM_cons_eq_ok_iff.mpr ⟨source, rest, hhead source hsource, ih hrest hsources, rfl⟩

theorem mem_of_mapM (hplace : ∀ location source, read location = .ok source → source.1 = location)
    (hread : locations.mapM read = .ok sources) : ∀ source ∈ sources, source.1 ∈ locations := by
  induction locations generalizing sources with
  | nil =>
      obtain rfl := Except.ok.inj hread
      exact fun source hmem => absurd hmem List.not_mem_nil
  | cons location locations ih =>
      obtain ⟨source, rest, hsource, hrest, rfl⟩ := mapM_cons_eq_ok_iff.mp hread
      refine List.forall_mem_cons.mpr ⟨?_, fun source hmem => ?_⟩
      · rw [hplace location source hsource]
        exact List.mem_cons_self
      · exact List.mem_cons_of_mem _ (ih hrest source hmem)

end Reading

theorem readSource_eq_ok_iff {source : Location × List Char} :
    readSource disk location = .ok source ↔
      source.1 = location ∧ disk.readText (Disk.pathOf location) = .ok source.2 := by
  unfold readSource
  cases disk.readText (Disk.pathOf location) with
  | error fault => simp
  | ok text => simp [Prod.ext_iff, eq_comm]

/-- The files that are read are those of the locations, in their order. -/
theorem places_of_mapM {locations : List Location}
    (hread : locations.mapM (readSource disk) = .ok sources) : sources.map (·.1) = locations
      ∧ ∀ file ∈ sources, disk.readText (Disk.pathOf file.1) = .ok file.2 := by
  induction locations generalizing sources with
  | nil =>
      obtain rfl := Except.ok.inj hread
      exact ⟨rfl, fun file hmem => absurd hmem List.not_mem_nil⟩
  | cons location locations ih =>
      obtain ⟨file, rest, hfile, hrest, rfl⟩ := mapM_cons_eq_ok_iff.mp hread
      obtain ⟨hplaces, htexts⟩ := ih hrest
      obtain ⟨rfl, htext⟩ := readSource_eq_ok_iff.mp hfile
      exact ⟨by rw [List.map_cons, hplaces], List.forall_mem_cons.mpr ⟨htext, htexts⟩⟩

/-- What is read of the two disks is the same, besides tests. -/
theorem SameBesidesTests.reading (hsame : SameBesidesTests disk other) (hdisk : disk.WellFormed)
    (hother : other.WellFormed) {more : List (Location × List Char)}
    (hread : (goFiles disk root).mapM (readSource disk) = .ok sources)
    (hmore : (goFiles other root).mapM (readSource other) = .ok more) :
    sources.filter (!isTestLocation ·.1) = more.filter (!isTestLocation ·.1) := by
  have hplace (disk : Disk) : ∀ location source, readSource disk location = .ok source →
      source.1 = location := fun location source h => (readSource_eq_ok_iff.mp h).1
  have hfirst := mapM_filter (hplace disk) (!isTestLocation ·) hread
  have hsecond := mapM_filter (hplace other) (!isTestLocation ·) hmore
  rw [← hsame.walk hdisk hother] at hsecond
  refine Except.ok.inj ((mapM_congr_ok ?_ hfirst).symm.trans hsecond)
  intro location hmem source hsource
  obtain ⟨hwalked, htest⟩ := List.mem_filter.mp hmem
  have hplain := hdisk.plain location (mem_goFiles.mp hwalked).1
  obtain ⟨hsource, htext⟩ := readSource_eq_ok_iff.mp hsource
  refine readSource_eq_ok_iff.mpr ⟨hsource, hsame.readText ?_ htext⟩
  rw [isTestPath_pathOf hplain]
  simpa using htest

-- ============================================================== packages

/-- Every package has a file without tests. -/
def Module.Sourced (module : Module) : Prop :=
  ∀ package ∈ module.allPackages, package.sourceFiles ≠ []

instance (module : Module) : Decidable module.Sourced :=
  inferInstanceAs (Decidable (∀ package ∈ module.allPackages, package.sourceFiles ≠ []))

/-- The files are files of a walk. -/
def Walked (disk : Disk) (root : Location) (files : List (Location × File)) : Prop :=
  ∀ file ∈ files, file.1 ∈ goFiles disk root ∧ file.2.path = Disk.pathOf file.1

theorem walked_of_mapM (hread : (goFiles disk root).mapM (readSource disk) = .ok sources) :
    Walked disk root (sources.filterMap parsedFile?) := by
  intro file hmem
  obtain ⟨source, hsource, hparsed⟩ := List.mem_filterMap.mp hmem
  obtain ⟨tree, -, rfl⟩ := Option.map_eq_some_iff.mp hparsed
  exact ⟨mem_of_mapM (fun location source h => (readSource_eq_ok_iff.mp h).1) hread source hsource,
    rfl⟩

section Packages

variable (hdisk : disk.WellFormed) (hwalked : Walked disk root files)

include hdisk hwalked

theorem Walked.isTest : ∀ file ∈ files, file.2.isTest = isTestLocation file.1 := by
  intro file hmem
  obtain ⟨hgo, hpath⟩ := hwalked file hmem
  rw [isTest_eq, hpath, isTestPath_pathOf (hdisk.plain file.1 (mem_goFiles.mp hgo).1)]

omit hdisk in
/-- A directory of a walk is the root with the names that lead there. -/
theorem Walked.append_drop (hmem : directory ∈ directoriesOf files) :
    root ++ directory.drop root.length = directory := by
  obtain ⟨file, hfile, rfl⟩ := mem_directoriesOf.mp hmem
  obtain ⟨-, hlength, hlead, -⟩ := mem_goFiles.mp (hwalked file hfile).1
  have htake : file.1.dropLast.take root.length = root := by
    rw [List.dropLast_eq_take, List.take_take, min_eq_left (by omega), hlead]
  conv_rhs => rw [← List.take_append_drop root.length file.1.dropLast, htake]

/-- A directory of a walk is below the root, by names that hold no slash. -/
theorem Walked.below (hmem : directory ∈ directoriesOf files) :
    root ++ directory.drop root.length = directory
      ∧ ∀ segment ∈ (directory.drop root.length).map String.toList,
        ∀ c ∈ segment, (c == '/') = false := by
  refine ⟨hwalked.append_drop hmem, fun segment hsegment => ?_⟩
  obtain ⟨file, hfile, rfl⟩ := mem_directoriesOf.mp hmem
  obtain ⟨hentry, -⟩ := mem_goFiles.mp (hwalked file hfile).1
  obtain ⟨name, hname, rfl⟩ := List.mem_map.mp hsegment
  exact (hdisk.plain file.1 hentry name ((List.dropLast_sublist _).subset
    ((List.drop_sublist _ _).subset hname))).slashFree

/-- Different directories of a walk have different import paths. -/
theorem Walked.packageId_inj {first second : Location} (hfirst : first ∈ directoriesOf files)
    (hsecond : second ∈ directoriesOf files)
    (hsame : packageId modulePath root first = packageId modulePath root second) :
    first = second := by
  obtain ⟨hroot, hfree⟩ := hwalked.below hdisk hfirst
  obtain ⟨hroot', hfree'⟩ := hwalked.below hdisk hsecond
  have htext (directory : Location) : (packageId modulePath root directory).toList
      = join ['/'] (modulePath.toList :: (directory.drop root.length).map String.toList) := by
    rw [packageId, String.toList_intercalate, join_eq_intercalate]
    rfl
  have hnames := congrArg String.toList hsame
  rw [htext, htext] at hnames
  have hdrop := join_cons_inj rfl hfree hfree' hnames
  rw [← hroot, ← hroot', List.map_injective_iff.mpr (fun a b => String.toList_inj.mp) hdrop]

theorem Walked.nodup_packageIds (package : Location → Package) :
    (((directoriesOf files).map fun directory =>
      (packageId modulePath root directory, package directory)).map (·.1)).Nodup := by
  rw [List.map_map]
  exact (nodup_eraseDups _).map_on fun first hfirst second hsecond =>
    hwalked.packageId_inj hdisk hfirst hsecond

theorem Walked.sourceFiles_ne_nil (hsourced : (moduleOf disk root modulePath files).Sourced)
    (hmem : directory ∈ directoriesOf files) :
    (packageAt modulePath root directory files).sourceFiles ≠ [] := by
  refine hsourced _ ?_
  unfold Module.allPackages Catalog.values
  rw [packages_moduleOf]
  exact List.mem_map_of_mem (f := Prod.snd)
    (Catalog.mem_ofList (hwalked.nodup_packageIds hdisk _) (List.mem_map_of_mem hmem))

omit hdisk hwalked in
/-- A package has its name from its files without tests, if it has any. -/
theorem packageName_sources {files : List File} (hsome : files.filter (!·.isTest) ≠ []) :
    packageName (files.filter (!·.isTest)) = packageName files := by
  have hfind : (files.filter (!·.isTest)).find? (!·.isTest) = files.find? (!·.isTest) := by
    rw [List.find?_filter]
    simp
  obtain ⟨file, hfile⟩ := List.exists_mem_of_ne_nil _ hsome
  obtain ⟨hmem, htest⟩ := List.mem_filter.mp hfile
  obtain ⟨first, hfirst⟩ := Option.isSome_iff_exists.mp
    (List.find?_isSome (p := fun file => !file.isTest).mpr ⟨file, hmem, htest⟩)
  unfold packageName
  rw [hfind, hfirst]
  rfl

/-- A package without its tests is the package of the files without tests. -/
theorem Walked.bare_packageAt
    (hsome : (packageAt modulePath root directory files).sourceFiles ≠ []) :
    (packageAt modulePath root directory files).bare
      = packageAt modulePath root directory (files.filter (!isTestLocation ·.1)) := by
  have hfiles :
      ((files.filter (!isTestLocation ·.1)).filter (·.1.dropLast == directory)).map (·.2)
        = (packageAt modulePath root directory files).sourceFiles := by
    unfold Package.sourceFiles packageAt
    dsimp only
    rw [List.filter_map, List.filter_filter, List.filter_filter]
    congr 1
    refine List.filter_congr fun file hmem => ?_
    rw [Function.comp_apply, hwalked.isTest hdisk file hmem, Bool.and_comm]
  unfold packageAt at hfiles hsome ⊢
  dsimp only at hfiles hsome ⊢
  rw [hfiles]
  unfold Package.bare
  dsimp only
  congr 1
  exact (packageName_sources hsome).symm

/-- If every package has a file without tests, the files without tests are in
the same directories. -/
theorem Walked.directories_perm (hsourced : (moduleOf disk root modulePath files).Sourced) :
    (directoriesOf files).Perm (directoriesOf (files.filter (!isTestLocation ·.1))) := by
  refine (List.perm_ext_iff_of_nodup (nodup_eraseDups _) (nodup_eraseDups _)).mpr ?_
  intro directory
  constructor
  · intro hmem
    obtain ⟨source, hsource⟩ :=
      List.exists_mem_of_ne_nil _ (hwalked.sourceFiles_ne_nil hdisk hsourced hmem)
    obtain ⟨hown, htest⟩ := List.mem_filter.mp hsource
    obtain ⟨file, hfile, rfl⟩ := List.mem_map.mp hown
    obtain ⟨hfile, hplace⟩ := List.mem_filter.mp hfile
    rw [hwalked.isTest hdisk file hfile] at htest
    exact mem_directoriesOf.mpr ⟨file, List.mem_filter.mpr ⟨hfile, htest⟩, eq_of_beq hplace⟩
  · intro hmem
    obtain ⟨file, hfile, hplace⟩ := mem_directoriesOf.mp hmem
    exact mem_directoriesOf.mpr ⟨file, (List.mem_filter.mp hfile).1, hplace⟩

/-- A module without its tests is the module of the files without tests. -/
theorem Walked.bare_moduleOf (hsourced : (moduleOf disk root modulePath files).Sourced) :
    (moduleOf disk root modulePath files).bare
      = moduleOf Disk.empty root modulePath (files.filter (!isTestLocation ·.1)) := by
  have hpackages : (moduleOf disk root modulePath files).bare.packages
      = (moduleOf Disk.empty root modulePath (files.filter (!isTestLocation ·.1))).packages := by
    unfold Module.bare
    rw [packages_moduleOf, packages_moduleOf, ← Catalog.entries_ofList_map, List.map_map,
      ← Catalog.ofList_perm ((hwalked.directories_perm hdisk hsourced).map _)
        (hwalked.nodup_packageIds hdisk _)]
    show Catalog.ofList _ = Catalog.ofList _
    congr 1
    refine List.map_congr_left fun directory hmem => congrArg (Prod.mk _) ?_
    exact hwalked.bare_packageAt hdisk (hwalked.sourceFiles_ne_nil hdisk hsourced hmem)
  exact congrArg (Module.mk _ _ · _) hpackages

end Packages

-- =============================================================== modules

theorem disk_of_load {root : String} {module : Module} (hload : load disk root = .ok module) :
    module.disk = disk := by
  obtain ⟨location, modulePath, sources, -, -, -, -, rfl⟩ := load_eq_ok_iff.mp hload
  rfl

/-- The modules on two disks that are the same besides test files are the same
without test files. -/
theorem SameBesidesTests.load (hsame : SameBesidesTests disk other) (hdisk : disk.WellFormed)
    (hother : other.WellFormed) {root : String} {module more : Module}
    (hload : Source.load disk root = .ok module) (hmore : Source.load other root = .ok more)
    (hsources : module.Sourced) (hmoreSources : more.Sourced) : module.bare = more.bare := by
  obtain ⟨location, modulePath, sources, hlocate, hpath, hread, -, rfl⟩ :=
    load_eq_ok_iff.mp hload
  obtain ⟨place, found, others, hplace, hfound, hothers, -, rfl⟩ := load_eq_ok_iff.mp hmore
  obtain rfl : place = location := by
    have hfollow := Disk.follow_congr (fun location => hsame.directory)
      (Disk.locate_eq_ok_iff.mp hlocate).2.1
    exact Except.ok.inj ((Disk.locate_eq_ok_iff.mp hplace).2.1.symm.trans hfollow)
  obtain rfl : found = modulePath :=
    Except.ok.inj (hfound.symm.trans (hsame.modulePath hpath))
  have hfiles (sources : List (Location × List Char)) :
      (sources.filterMap parsedFile?).filter (!isTestLocation ·.1)
        = (sources.filter (!isTestLocation ·.1)).filterMap parsedFile? := by
    rw [List.filter_filterMap, List.filterMap_filter]
    congr 1
    funext source
    cases hparsed : parsedFile? source with
    | none => simp
    | some file =>
        obtain ⟨tree, -, rfl⟩ := Option.map_eq_some_iff.mp hparsed
        simp [Option.filter]
  rw [(walked_of_mapM hread).bare_moduleOf hdisk hsources,
    (walked_of_mapM hothers).bare_moduleOf hother hmoreSources, hfiles, hfiles,
    hsame.reading hdisk hother hread hothers]

end Assay.Source
