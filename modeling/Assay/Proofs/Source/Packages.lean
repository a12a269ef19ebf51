/-
The packages of a loaded module. A package stands for a directory of the module
that directly holds Go files, and every such directory has its package; the
package has the directory's Go files, each once, in the order of their names
(`PackageOf`). Import paths tell packages apart, so none takes another's place in
the module.

A file is found again by its path. That is because paths are compared by their
parts, and the parts of a loaded path are the names of its location: the parent
of a file's path leads to one package, and among the files of the package the
path to one file.
-/
import Assay.Proofs.Source.Blind
import Assay.Proofs.Source.Directories

namespace Assay.Source

open Assay.Path Text Syntax

variable {disk : Disk} {path modulePath : String} {root directory location : Location}
  {module : Module} {package : Package} {file : File} {files : List (Location × File)}

-- =============================================================== loading

/-- The files that a walk finds, in its order, each with its text and the tree
of it. -/
structure Parsed (disk : Disk) (root : Location) (files : List (Location × File)) : Prop where
  places : files.map (·.1) = goFiles disk root
  path_eq : ∀ file ∈ files, file.2.path = Disk.pathOf file.1
  source_eq : ∀ file ∈ files, disk.readText file.2.path = .ok file.2.source
  tree_eq : ∀ file ∈ files, parse? file.2.source = some file.2.tree

/-- The files of a module are read and parsed in the order of the walk. -/
theorem parsed_of_mapM {sources : List (Location × List Char)} {locations : List Location}
    (hread : locations.mapM (readSource disk) = .ok sources)
    (hall : ∀ file ∈ sources, (parse? file.2).isSome) :
    (sources.filterMap parsedFile?).map (·.1) = locations
      ∧ ∀ file ∈ sources.filterMap parsedFile?, file.2.path = Disk.pathOf file.1
        ∧ disk.readText file.2.path = .ok file.2.source
        ∧ parse? file.2.source = some file.2.tree := by
  induction locations generalizing sources with
  | nil =>
      obtain rfl := Except.ok.inj hread
      exact ⟨rfl, fun file hmem => absurd hmem List.not_mem_nil⟩
  | cons location locations ih =>
      obtain ⟨source, rest, hsource, hrest, rfl⟩ := mapM_cons_eq_ok_iff.mp hread
      obtain ⟨hhead, hall⟩ := List.forall_mem_cons.mp hall
      obtain ⟨hplaces, hfiles⟩ := ih hrest hall
      obtain ⟨hplace, htext⟩ := readSource_eq_ok_iff.mp hsource
      obtain ⟨tree, htree⟩ := Option.isSome_iff_exists.mp hhead
      have hparsed : parsedFile? source
          = some (source.1, File.ofTree (Disk.pathOf source.1) source.2 tree) := by
        rw [parsedFile?, htree]
        rfl
      rw [List.filterMap_cons, hparsed]
      refine ⟨by rw [List.map_cons, hplaces, hplace], ?_⟩
      refine List.forall_mem_cons.mpr ⟨⟨rfl, ?_, htree⟩, hfiles⟩
      rw [← hplace] at htext
      exact htext

/-- What a module is loaded from is a directory, since its module file is read
there. -/
theorem directory_of_readModulePath (hdisk : disk.WellFormed) (hlocate : disk.locate path = .ok root)
    (hpath : readModulePath disk (Disk.pathOf root) = .ok modulePath) :
    disk.Rooted root ∧ disk.entry? root = some .directory := by
  obtain ⟨-, hfollow, hentry⟩ := Disk.locate_eq_ok_iff.mp hlocate
  have hthere : disk.entry? root ≠ none := by
    rcases hentry with hentry | ⟨-, content, hentry⟩ <;> rw [hentry] <;> exact Option.some_ne_none _
  refine ⟨Disk.rooted_of_follow
    (fun above hlead hother => absurd (List.prefix_nil.mp hlead) hother) hfollow, ?_⟩
  have hmodule : ∃ text, disk.readText (push (Disk.pathOf root) moduleFileName) = .ok text := by
    unfold readModulePath at hpath
    dsimp only at hpath
    cases htext : disk.readText (push (Disk.pathOf root) moduleFileName) with
    | ok text => exact ⟨text, rfl⟩
    | error fault =>
        rw [htext] at hpath
        cases fault <;> cases hpath
  obtain ⟨text, htext⟩ := hmodule
  obtain ⟨place, hplace, -⟩ := Disk.locate_of_readText htext
  obtain ⟨-, hfollow, -⟩ := Disk.locate_eq_ok_iff.mp hplace
  rw [parts_push plain_moduleFileName, Disk.follow_append] at hfollow
  cases hway : disk.follow [] (parts (Disk.pathOf root)) with
  | error fault =>
      rw [hway] at hfollow
      cases hfollow
  | ok found =>
      obtain ⟨rfl, -⟩ := (Disk.follow_pathOf_iff (hdisk.plain_of_ne_none hthere)).mp hway
      rw [hway] at hfollow
      change disk.follow found [.name moduleFileName] = .ok place at hfollow
      rw [Disk.follow_cons] at hfollow
      split at hfollow
      · cases hfollow
      · cases hfollow
      · next hdirectory => exact hdirectory

/-- A module is loaded from a directory, and made of its files. -/
theorem parsed_of_load (hdisk : disk.WellFormed) (hload : load disk path = .ok module) :
    ∃ root modulePath files, disk.locate path = .ok root
      ∧ disk.Rooted root ∧ disk.entry? root = some .directory
      ∧ Parsed disk root files ∧ module = moduleOf disk root modulePath files := by
  obtain ⟨root, modulePath, sources, hlocate, hpath, hread, hall, rfl⟩ := load_eq_ok_iff.mp hload
  obtain ⟨hrooted, hdirectory⟩ := directory_of_readModulePath hdisk hlocate hpath
  obtain ⟨hplaces, hfiles⟩ := parsed_of_mapM hread hall
  exact ⟨root, modulePath, sources.filterMap parsedFile?, hlocate, hrooted, hdirectory,
    ⟨hplaces, fun file hmem => (hfiles file hmem).1, fun file hmem => (hfiles file hmem).2.1,
      fun file hmem => (hfiles file hmem).2.2⟩, rfl⟩

-- ============================================================== packages

/-- Neighbours come in the order of their names. -/
theorem concat_le_concat_iff {a b : String} :
    directory ++ [a] ≤ directory ++ [b] ↔ a ≤ b := by
  induction directory with
  | nil =>
      rw [List.nil_append, List.nil_append, cons_le_cons_iff, and_iff_left le_rfl, le_iff_lt_or_eq]
  | cons name directory ih =>
      rw [List.cons_append, List.cons_append, cons_le_cons_iff, ih]
      simp

/-- Locations in a directory are told by their names. -/
theorem exists_names {locations : List Location}
    (hall : ∀ location ∈ locations, ∃ name, location = directory ++ [name]) :
    ∃ names : List String, locations = names.map (directory ++ [·]) := by
  induction locations with
  | nil => exact ⟨[], rfl⟩
  | cons location locations ih =>
      obtain ⟨⟨name, rfl⟩, hrest⟩ := List.forall_mem_cons.mp hall
      obtain ⟨names, rfl⟩ := ih hrest
      exact ⟨name :: names, rfl⟩

/-- A package is made of the Go files that a directory holds itself. Its import
path is the module's, with the names that lead from the root to the directory. -/
structure PackageOf (disk : Disk) (modulePath : String) (root directory : Location)
    (package : Package) : Prop where
  directory_eq : package.directory = Disk.pathOf directory
  id_eq : package.id = "/".intercalate (modulePath :: directory.drop root.length)
  files_eq : ∃ names : List String, names.Pairwise (· < ·)
    ∧ (∀ name, name ∈ names ↔ HoldsGo disk directory name)
    ∧ package.files.map (·.path) = names.map fun name => Disk.pathOf (directory ++ [name])
  source_eq : ∀ file ∈ package.files, disk.readText file.path = .ok file.source
  tree_eq : ∀ file ∈ package.files, parse? file.source = some file.tree

section Packages

variable (hdisk : disk.WellFormed) (hroot : disk.Rooted root)
  (hentry : disk.entry? root = some .directory) (hparsed : Parsed disk root files)

include hparsed

theorem Parsed.walked : Walked disk root files := fun file hmem =>
  ⟨hparsed.places ▸ List.mem_map_of_mem hmem, hparsed.path_eq file hmem⟩

include hdisk

theorem Parsed.mem_allPackages : package ∈ (moduleOf disk root modulePath files).allPackages
    ↔ ∃ directory ∈ directoriesOf files, package = packageAt modulePath root directory files := by
  unfold Module.allPackages Catalog.values
  rw [packages_moduleOf, List.mem_map]
  constructor
  · rintro ⟨entry, hmem, rfl⟩
    obtain ⟨directory, hdirectory, rfl⟩ := List.mem_map.mp (Catalog.mem_entries_ofList hmem)
    exact ⟨directory, hdirectory, rfl⟩
  · rintro ⟨directory, hdirectory, rfl⟩
    exact ⟨_, Catalog.mem_ofList (hparsed.walked.nodup_packageIds hdisk _)
      (List.mem_map_of_mem hdirectory), rfl⟩

omit hdisk hparsed in
/-- The keys of the packages are their import paths. -/
theorem ids_moduleOf : (moduleOf disk root modulePath files).allPackages.map (·.id)
    = (moduleOf disk root modulePath files).packages.keys := by
  unfold Module.allPackages Catalog.values Catalog.keys
  rw [List.map_map]
  refine List.map_congr_left fun entry hmem => ?_
  obtain ⟨directory, -, -, hkey⟩ := mem_entries_moduleOf hmem
  exact hkey.symm

omit hdisk hparsed in
/-- A package is found under its import path. -/
theorem package?_of_mem (hmem : package ∈ (moduleOf disk root modulePath files).allPackages) :
    (moduleOf disk root modulePath files).package? package.id = some package := by
  obtain ⟨entry, hentry, rfl⟩ := List.mem_map.mp hmem
  obtain ⟨directory, -, -, hkey⟩ := mem_entries_moduleOf hentry
  rw [← hkey]
  refine Catalog.find?_of_mem ?_ hentry
  rw [packages_moduleOf]
  exact Catalog.nodup_keys_ofList _

include hroot hentry

/-- The directories with packages are those of the module that hold Go files. -/
theorem Parsed.mem_directories_iff : directory ∈ directoriesOf files
    ↔ Admitted disk root directory ∧ ∃ name, HoldsGo disk directory name := by
  have hplace (location : Location) :
      (∃ file ∈ files, file.1 = location) ↔ location ∈ goFiles disk root := by
    rw [← hparsed.places, List.mem_map]
  rw [mem_directoriesOf]
  constructor
  · rintro ⟨file, hfile, rfl⟩
    obtain ⟨directory, name, hsplit, hadmitted, hgo⟩ :=
      (mem_goFiles_iff hdisk hroot hentry).mp ((hplace file.1).mp ⟨file, hfile, rfl⟩)
    rw [hsplit, List.dropLast_concat]
    exact ⟨hadmitted, name, hgo⟩
  · rintro ⟨hadmitted, name, hgo⟩
    obtain ⟨file, hfile, hsplit⟩ := (hplace _).mpr
      ((mem_goFiles_iff hdisk hroot hentry).mpr ⟨directory, name, rfl, hadmitted, hgo⟩)
    exact ⟨file, hfile, by rw [hsplit, List.dropLast_concat]⟩

omit hparsed in
/-- The Go files of a directory, by their names in order. -/
theorem exists_names_goFiles (hadmitted : Admitted disk root directory) :
    ∃ names : List String,
      (goFiles disk root).filter (·.dropLast == directory) = names.map (directory ++ [·])
        ∧ names.Pairwise (· < ·) ∧ ∀ name, name ∈ names ↔ HoldsGo disk directory name := by
  have hmem (location : Location) :
      location ∈ (goFiles disk root).filter (·.dropLast == directory)
        ↔ ∃ name, location = directory ++ [name] ∧ HoldsGo disk directory name := by
    rw [List.mem_filter, mem_goFiles_iff hdisk hroot hentry, beq_iff_eq]
    constructor
    · rintro ⟨⟨above, name, rfl, -, hgo⟩, hplace⟩
      rw [List.dropLast_concat] at hplace
      exact ⟨name, by rw [hplace], hplace ▸ hgo⟩
    · rintro ⟨name, rfl, hgo⟩
      exact ⟨⟨directory, name, rfl, hadmitted, hgo⟩, List.dropLast_concat⟩
  obtain ⟨names, hnames⟩ := exists_names fun location h =>
    ((hmem location).mp h).imp fun name both => both.1
  refine ⟨names, hnames, ?_, fun name => ?_⟩
  · have hsorted : (names.map (directory ++ [·])).Pairwise (· ≤ ·) :=
      hnames ▸ pairwise_goFiles.filter _
    have hnodup : (names.map (directory ++ [·])).Nodup := hnames ▸ (nodup_goFiles hdisk).filter _
    refine ((List.pairwise_map.mp hsorted).and (List.pairwise_map.mp hnodup)).imp ?_
    rintro a b ⟨hle, hne⟩
    exact lt_of_le_of_ne (concat_le_concat_iff.mp hle) fun hsame => hne (by rw [hsame])
  · have hlisted := hmem (directory ++ [name])
    rw [hnames] at hlisted
    simpa using hlisted

variable (modulePath) in
/-- The package that is made for a directory is that of the directory. -/
theorem Parsed.packageOf (hadmitted : Admitted disk root directory) :
    PackageOf disk modulePath root directory (packageAt modulePath root directory files) := by
  have hmem (file : File) (hfile : file ∈ (packageAt modulePath root directory files).files) :
      ∃ place, (place, file) ∈ files := by
    obtain ⟨⟨place, other⟩, hlisted, rfl⟩ := List.mem_map.mp hfile
    exact ⟨place, (List.mem_filter.mp hlisted).1⟩
  have hpaths : (packageAt modulePath root directory files).files.map (·.path)
      = ((goFiles disk root).filter (·.dropLast == directory)).map Disk.pathOf := by
    unfold packageAt
    dsimp only
    rw [← hparsed.places, List.filter_map, List.map_map, List.map_map]
    refine List.map_congr_left fun file hfile => ?_
    exact hparsed.path_eq file (List.mem_filter.mp hfile).1
  obtain ⟨names, hnames, hsorted, hgo⟩ := exists_names_goFiles hdisk hroot hentry hadmitted
  refine ⟨rfl, rfl, ⟨names, hsorted, hgo, by rw [hpaths, hnames, List.map_map]; rfl⟩, ?_, ?_⟩
  · intro file hfile
    obtain ⟨place, hplace⟩ := hmem file hfile
    exact hparsed.source_eq (place, file) hplace
  · intro file hfile
    obtain ⟨place, hplace⟩ := hmem file hfile
    exact hparsed.tree_eq (place, file) hplace

end Packages

-- =============================================================== lookups

/-- What a package of a directory says of its files. -/
theorem PackageOf.exists_name (hpackage : PackageOf disk modulePath root directory package)
    (hfile : file ∈ package.files) :
    ∃ name, HoldsGo disk directory name ∧ file.path = Disk.pathOf (directory ++ [name]) := by
  obtain ⟨names, -, hgo, hpaths⟩ := hpackage.files_eq
  have hmem : file.path ∈ package.files.map (·.path) := List.mem_map_of_mem hfile
  rw [hpaths] at hmem
  obtain ⟨name, hname, hsame⟩ := List.mem_map.mp hmem
  exact ⟨name, (hgo name).mp hname, hsame.symm⟩

theorem HoldsGo.plain {name : String} (hdisk : disk.WellFormed) (hgo : HoldsGo disk directory name) :
    ∀ part ∈ directory ++ [name], Plain part := by
  obtain ⟨-, content, hentry⟩ := hgo
  exact hdisk.plain_of_ne_none (by rw [hentry]; exact Option.some_ne_none _)

theorem PackageOf.exists_file {name : String}
    (hpackage : PackageOf disk modulePath root directory package) (hgo : HoldsGo disk directory name) :
    ∃ file ∈ package.files, file.path = Disk.pathOf (directory ++ [name]) := by
  obtain ⟨names, -, hnames, hpaths⟩ := hpackage.files_eq
  have hmem : Disk.pathOf (directory ++ [name]) ∈ package.files.map (·.path) := by
    rw [hpaths]
    exact List.mem_map_of_mem (f := fun name => Disk.pathOf (directory ++ [name]))
      ((hnames name).mpr hgo)
  exact List.mem_map.mp hmem

/-- A package is found among its files by a file's path. -/
theorem PackageOf.file?_path (hdisk : disk.WellFormed)
    (hpackage : PackageOf disk modulePath root directory package) (hfile : file ∈ package.files) :
    package.file? file.path = some file := by
  obtain ⟨names, hsorted, hgo, hpaths⟩ := hpackage.files_eq
  have hnodup : (package.files.map (·.path)).Nodup := by
    rw [hpaths]
    have hnames : names.Nodup := hsorted.imp fun h => h.ne
    refine hnames.map_on fun a ha b hb hsame => ?_
    have hboth := Disk.parts_pathOf_inj (((hgo a).mp ha).plain hdisk) (((hgo b).mp hb).plain hdisk)
      (congrArg parts hsame)
    simpa using hboth
  unfold Package.file?
  cases hfind : package.files.find? (fun other => Path.same other.path file.path) with
  | none =>
      have hsame := List.find?_eq_none.mp hfind file hfile
      exact absurd (beq_self_eq_true (parts file.path)) hsame
  | some other =>
      have hother := List.mem_of_find?_eq_some hfind
      have hsame : parts other.path = parts file.path := by
        have hboth := List.find?_some hfind
        exact eq_of_beq hboth
      obtain ⟨a, ha, hapath⟩ := hpackage.exists_name hother
      obtain ⟨b, hb, hbpath⟩ := hpackage.exists_name hfile
      rw [hapath, hbpath] at hsame
      have hplace := Disk.parts_pathOf_inj (ha.plain hdisk) (hb.plain hdisk) hsame
      rw [List.inj_on_of_nodup_map hnodup hother hfile (by rw [hapath, hbpath, hplace])]

section Lookups

variable (hdisk : disk.WellFormed) (hroot : disk.Rooted root)
  (hentry : disk.entry? root = some .directory) (hparsed : Parsed disk root files)

include hdisk hroot hentry hparsed

variable (modulePath)

/-- A path with the parts of a directory leads to its package. -/
theorem Parsed.packagesIn_eq (hdirectory : directory ∈ directoriesOf files)
    (hpath : parts path = parts (Disk.pathOf directory)) :
    (moduleOf disk root modulePath files).packagesIn path
      = [packageAt modulePath root directory files] := by
  have hplain {directory : Location} (h : directory ∈ directoriesOf files) :
      ∀ name ∈ directory, Plain name := by
    obtain ⟨hadmitted, -⟩ := (hparsed.mem_directories_iff hdisk hroot hentry).mp h
    exact hadmitted.plain hdisk hroot hentry
  have hids : ((moduleOf disk root modulePath files).allPackages.map (·.id)).Nodup := by
    rw [ids_moduleOf, packages_moduleOf]
    exact Catalog.nodup_keys_ofList _
  refine List.perm_singleton.mp ((List.perm_ext_iff_of_nodup (hids.of_map.filter _)
    (List.nodup_singleton _)).mpr fun package => ?_)
  rw [List.mem_filter, hparsed.mem_allPackages hdisk, List.mem_singleton]
  constructor
  · rintro ⟨⟨other, hother, rfl⟩, hsame⟩
    have hparts : parts (Disk.pathOf other) = parts path := eq_of_beq hsame
    rw [Disk.parts_pathOf_inj (hplain hother) (hplain hdirectory) (hparts.trans hpath)]
  · rintro rfl
    refine ⟨⟨directory, hdirectory, rfl⟩, ?_⟩
    show (parts (Disk.pathOf directory) == parts path) = true
    rw [hpath, beq_self_eq_true]

omit hparsed in
/-- A path that leads from the root to a Go file is made the path of the file. -/
theorem absolute_moduleOf {name given : String} (hgo : HoldsGo disk directory name)
    (hadmitted : Admitted disk root directory)
    (hgiven : push (Disk.pathOf root) given = Disk.pathOf (directory ++ [name])) :
    (moduleOf disk root modulePath files).absolute given = Disk.pathOf (directory ++ [name]) := by
  obtain ⟨hrooted, hthere, -⟩ := hadmitted.rooted hroot hentry
  have hlocate : disk.locate (Disk.pathOf (directory ++ [name])) = .ok (directory ++ [name]) := by
    refine (Disk.locate_pathOf_iff (hgo.plain hdisk)).mpr
      ⟨rfl, Disk.rooted_concat_iff.mpr ⟨hrooted, hthere⟩, ?_⟩
    obtain ⟨-, content, hcontent⟩ := hgo
    rw [hcontent]
    exact Option.some_ne_none _
  have hfound : disk.locate? (push (Disk.pathOf root) given) = some (directory ++ [name]) := by
    rw [hgiven, Disk.locate?, hlocate]
    rfl
  unfold Module.absolute
  dsimp only [moduleOf]
  rw [hfound]

/-- A loaded file is found by its path, from the root or in full, and its package
by the file. -/
theorem Parsed.lookups (hdirectory : directory ∈ directoriesOf files)
    (hfile : file ∈ (packageAt modulePath root directory files).files) :
    (moduleOf disk root modulePath files).fileAt? file.path
        = some (packageAt modulePath root directory files, file)
      ∧ (∃ relative, (moduleOf disk root modulePath files).relative? file.path = some relative
        ∧ (moduleOf disk root modulePath files).fileAt? relative
          = some (packageAt modulePath root directory files, file))
      ∧ (moduleOf disk root modulePath files).packageOf? file
        = some (packageAt modulePath root directory files) := by
  obtain ⟨hadmitted, -⟩ := (hparsed.mem_directories_iff hdisk hroot hentry).mp hdirectory
  have hpackage := hparsed.packageOf modulePath hdisk hroot hentry hadmitted
  obtain ⟨name, hgo, hpath⟩ := hpackage.exists_name hfile
  obtain ⟨names, rfl⟩ := (hadmitted.rooted hroot hentry).2.2
  obtain ⟨parent, hparent, hparts⟩ := Disk.parent?_pathOf (hgo.plain hdisk)
  have hpackages := hparsed.packagesIn_eq modulePath hdisk hroot hentry hdirectory hparts
  have hfound := hpackage.file?_path hdisk hfile
  have hplain := hgo.plain hdisk
  rw [List.append_assoc] at hplain
  have hsome : names ++ [name] ≠ [] := by simp
  have hall (given : String)
      (hgiven : push (Disk.pathOf root) given = Disk.pathOf (root ++ names ++ [name])) :
      (moduleOf disk root modulePath files).fileAt? given
        = some (packageAt modulePath root (root ++ names) files, file) := by
    unfold Module.fileAt?
    rw [absolute_moduleOf modulePath hdisk hroot hentry hgo hadmitted hgiven]
    dsimp only
    rw [hparent]
    show List.findSome? _ ((moduleOf disk root modulePath files).packagesIn parent) = _
    rw [hpackages, List.findSome?_singleton, ← hpath, hfound]
    rfl
  refine ⟨?_, ⟨"/".intercalate (names ++ [name]), ?_, ?_⟩, ?_⟩
  · rw [hpath]
    exact hall _ (push_absolute (Disk.isAbsolute_pathOf _) _)
  · rw [hpath, List.append_assoc]
    exact Disk.after?_pathOf hplain hsome
  · refine hall _ ?_
    rw [Disk.push_pathOf hplain hsome, List.append_assoc]
  · unfold Module.packageOf?
    rw [hpath, hparent]
    show List.head? ((moduleOf disk root modulePath files).packagesIn parent) = _
    rw [hpackages]
    rfl

end Lookups

-- =============================================================== modules

/-- What a loaded module has is found again: its packages by their import paths,
and their files by paths. -/
theorem lookups_of_load (hdisk : disk.WellFormed) (hload : load disk path = .ok module)
    (hpackage : package ∈ module.allPackages) : module.package? package.id = some package
      ∧ ∀ file ∈ package.files,
        module.fileAt? file.path = some (package, file)
          ∧ (∃ relative, module.relative? file.path = some relative
            ∧ module.fileAt? relative = some (package, file))
          ∧ module.packageOf? file = some package := by
  obtain ⟨root, modulePath, files, -, hroot, hentry, hparsed, rfl⟩ := parsed_of_load hdisk hload
  refine ⟨package?_of_mem hpackage, ?_⟩
  obtain ⟨directory, hdirectory, rfl⟩ := (hparsed.mem_allPackages hdisk).mp hpackage
  exact fun file hfile => hparsed.lookups modulePath hdisk hroot hentry hdirectory hfile

/-- The files of a loaded module have the trees that are read from their sources. -/
theorem parse?_of_load (hdisk : disk.WellFormed) (hload : load disk path = .ok module)
    (hpackage : package ∈ module.allPackages) {file : File} (hfile : file ∈ package.files) :
    parse? file.source = some file.tree := by
  obtain ⟨root, modulePath, files, -, -, -, hparsed, rfl⟩ := parsed_of_load hdisk hload
  obtain ⟨directory, -, rfl⟩ := (hparsed.mem_allPackages hdisk).mp hpackage
  obtain ⟨⟨place, other⟩, hlisted, rfl⟩ := List.mem_map.mp hfile
  exact hparsed.tree_eq _ (List.mem_filter.mp hlisted).1

/-- A loaded module has a package for each of its directories that hold Go files,
with the files of that directory; packages differ in their import paths; and
every file is found again, with its package. -/
theorem load_packages (hdisk : disk.WellFormed) (hload : load disk path = .ok module) :
    ∃ root, disk.locate path = .ok root
      ∧ (∀ package ∈ module.allPackages, ∃! directory,
          (Admitted disk root directory ∧ ∃ name, HoldsGo disk directory name)
            ∧ PackageOf disk module.path root directory package)
      ∧ (∀ directory, Admitted disk root directory → (∃ name, HoldsGo disk directory name) →
          ∃! package, package ∈ module.allPackages
            ∧ PackageOf disk module.path root directory package)
      ∧ (∀ directory name, Admitted disk root directory → HoldsGo disk directory name →
          ∃! package, package ∈ module.allPackages
            ∧ ∃ file ∈ package.files, file.path = Disk.pathOf (directory ++ [name]))
      ∧ (module.allPackages.map (·.id)).Nodup
      ∧ ∀ package ∈ module.allPackages, module.package? package.id = some package
        ∧ ∀ file ∈ package.files,
          module.fileAt? file.path = some (package, file)
            ∧ (∃ relative, module.relative? file.path = some relative
              ∧ module.fileAt? relative = some (package, file))
            ∧ module.packageOf? file = some package := by
  have hlookups {package : Package} (hpackage : package ∈ module.allPackages) :=
    lookups_of_load hdisk hload hpackage
  obtain ⟨root, modulePath, files, hlocate, hroot, hentry, hparsed, rfl⟩ :=
    parsed_of_load hdisk hload
  have hmem {package : Package} :
      package ∈ (moduleOf disk root modulePath files).allPackages ↔ _ :=
    hparsed.mem_allPackages hdisk
  have hdirectories {directory : Location} : directory ∈ directoriesOf files ↔ _ :=
    hparsed.mem_directories_iff hdisk hroot hentry
  have hpackageOf {directory : Location} (hadmitted : Admitted disk root directory) :=
    hparsed.packageOf modulePath hdisk hroot hentry hadmitted
  -- the path of a directory says which directory it is
  have hsame {first second : Location} (hfirst : Admitted disk root first)
      (hsecond : Admitted disk root second) (hpath : Disk.pathOf first = Disk.pathOf second) :
      first = second :=
    Disk.parts_pathOf_inj (hfirst.plain hdisk hroot hentry) (hsecond.plain hdisk hroot hentry)
      (congrArg parts hpath)
  refine ⟨root, hlocate, ?_, ?_, ?_, ?_, fun package => hlookups⟩
  · intro package hpackage
    obtain ⟨directory, hdirectory, rfl⟩ := hmem.mp hpackage
    obtain ⟨hadmitted, hholds⟩ := hdirectories.mp hdirectory
    refine ⟨directory, ⟨⟨hadmitted, hholds⟩, hpackageOf hadmitted⟩, ?_⟩
    rintro other ⟨⟨hother, -⟩, hof⟩
    exact hsame hother hadmitted (hof.directory_eq.symm.trans rfl)
  · intro directory hadmitted hholds
    have hdirectory := hdirectories.mpr ⟨hadmitted, hholds⟩
    refine ⟨packageAt modulePath root directory files,
      ⟨hmem.mpr ⟨directory, hdirectory, rfl⟩, hpackageOf hadmitted⟩, ?_⟩
    rintro package ⟨hpackage, hof⟩
    obtain ⟨other, hother, rfl⟩ := hmem.mp hpackage
    obtain ⟨hadmitted', -⟩ := hdirectories.mp hother
    rw [hsame hadmitted' hadmitted hof.directory_eq]
  · intro directory name hadmitted hgo
    have hdirectory := hdirectories.mpr ⟨hadmitted, name, hgo⟩
    refine ⟨packageAt modulePath root directory files,
      ⟨hmem.mpr ⟨directory, hdirectory, rfl⟩, (hpackageOf hadmitted).exists_file hgo⟩, ?_⟩
    rintro package ⟨hpackage, file, hfile, hpath⟩
    obtain ⟨other, hother, rfl⟩ := hmem.mp hpackage
    obtain ⟨hadmitted', -⟩ := hdirectories.mp hother
    obtain ⟨name', hgo', hpath'⟩ := (hpackageOf hadmitted').exists_name hfile
    have hplaces := Disk.parts_pathOf_inj (hgo'.plain hdisk) (hgo.plain hdisk)
      (congrArg parts (hpath'.symm.trans hpath))
    rw [(List.append_inj' hplaces rfl).1]
  · rw [ids_moduleOf, packages_moduleOf]
    exact Catalog.nodup_keys_ofList _

/-- A module whose own directory is named like one that is set aside. Beside its
package there are a directory that is set aside and a module of its own. -/
def cellarDisk : Disk where
  entries := [(["_cellar"], .directory),
    (["_cellar", "go.mod"], .file (.text "module example.com/cellar\n".toList)),
    (["_cellar", "rack"], .directory),
    (["_cellar", "rack", "rack.go"], .file (.text "package rack\n".toList)),
    (["_cellar", "rack", "rack_test.go"], .file (.text "package rack_test\n".toList)),
    (["_cellar", "shed"], .directory),
    (["_cellar", "shed", "go.mod"], .file (.text "module example.com/shed\n".toList)),
    (["_cellar", "shed", "shed.go"], .file (.text "package shed\n".toList)),
    (["_cellar", "vendor"], .directory),
    (["_cellar", "vendor", "dep.go"], .file (.text "package dep\n".toList))]

/-- The module, loaded. -/
def cellar : Module := moduleOf cellarDisk ["_cellar"] "example.com/cellar"
  ([(["_cellar", "rack", "rack.go"], "package rack\n".toList),
    (["_cellar", "rack", "rack_test.go"], "package rack_test\n".toList)].filterMap parsedFile?)

/-- The one package of the module, and its second file in it. -/
theorem load_packages_cellar : cellarDisk.WellFormed ∧ load cellarDisk "/_cellar" = .ok cellar
    ∧ cellar.allPackages.map (fun package => (package.id, package.files.map (·.path)))
      = [("example.com/cellar/rack", ["/_cellar/rack/rack.go", "/_cellar/rack/rack_test.go"])]
    ∧ ∃! package, package ∈ cellar.allPackages
      ∧ ∃ file ∈ package.files, file.path = "/_cellar/rack/rack_test.go" := by
  have hdisk : cellarDisk.WellFormed := by decide +kernel
  have hload : load cellarDisk "/_cellar" = .ok cellar := by
    refine load_of_ordered ?_ ?_ ?_ ?_ ?_ <;> decide +kernel
  obtain ⟨root, hlocate, -, -, hfiles, -⟩ := load_packages hdisk hload
  obtain rfl : root = ["_cellar"] :=
    Except.ok.inj (hlocate.symm.trans (eq_ok_of_toOption (by decide +kernel)))
  refine ⟨hdisk, hload, by decide +kernel, ?_⟩
  have hadmitted : Admitted cellarDisk ["_cellar"] (["_cellar"] ++ ["rack"]) := by
    refine Admitted.inside Admitted.root rfl ?_ ?_
    · rintro (h | h | h | h) <;> revert h <;> decide +kernel
    · rintro ⟨content, hentry⟩
      cases hentry
  have hgo : HoldsGo cellarDisk ["_cellar", "rack"] "rack_test.go" :=
    ⟨⟨"rack_test".toList, by decide, by decide +kernel⟩, _, rfl⟩
  exact hfiles _ _ hadmitted hgo

end Assay.Source
